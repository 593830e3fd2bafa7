import Reduct.Proofs.Source.Blame
import Reduct.Proofs.Text.Literal

/-!
# What string tokens denote

A string token is delimited by one scanner and read by another.  The first one takes any character
along with a backslash; the second one knows a few escapes, some of which are six or twelve
characters long.  Between the quotes of a token both see the same text, and the second one reads it
if it is a sequence of items.

## Main definitions

* `Item`, `Items` — the items of a string literal, with the characters that they stand for.
* `IsRest` — what is left of a string token somewhere behind its opening quote.
* `Fault.Inner` — the faults that lie between the quotes of a literal.

## Main results

* `codeUnit?_eq_some_iff` — four characters are a code unit if they are hexadecimal digits.
* `body_of_items` — a sequence of items is read as the text it stands for.
* `reads_body` — what is left of a token is read up to its last quote, or has an inner fault.
* `decode_token_eq_ok_iff`, `inner_of_decode_token` — the same for whole tokens.
-/

namespace Reduct.Text.Quoted

/-- A hexadecimal digit of either case with its value. -/
def IsHex (c : Char) (n : Nat) : Prop :=
  "0123456789abcdef".toList[n]? = some c ∨ "0123456789ABCDEF".toList[n]? = some c

/-- Four hexadecimal digits with the code unit that they spell. -/
inductive IsUnit : List Char → Nat → Prop where
  | mk {a b c d : Char} {n₁ n₂ n₃ n₄ : Nat} (ha : IsHex a n₁) (hb : IsHex b n₂) (hc : IsHex c n₃)
      (hd : IsHex d n₄) : IsUnit [a, b, c, d] (16 ^ 3 * n₁ + 16 ^ 2 * n₂ + 16 * n₃ + n₄)

/-- The letters that may follow a backslash, each with the character that it then stands for. -/
def letterEscapes : List (Char × Char) :=
  [('"', '"'), ('\\', '\\'), ('/', '/'), ('b', '\x08'), ('f', '\x0c'), ('n', '\n'), ('r', '\r'),
    ('t', '\t')]

/-- An item of a string literal with the character that it stands for. -/
inductive Item : List Char → Char → Prop where
  | plain {c : Char} (hhigh : 0x20 ≤ c.toNat) (hquote : c ≠ '"') (hslash : c ≠ '\\') : Item [c] c
  | letter {e c : Char} (hletter : (e, c) ∈ letterEscapes) : Item ['\\', e] c
  | unit {digits : List Char} {u : Nat} {c : Char} (hdigits : IsUnit digits u)
      (hu : u < 0xd800 ∨ 0xdfff < u) (hc : c.toNat = u) : Item ('\\' :: 'u' :: digits) c
  | pair {high low : List Char} {u v : Nat} {c : Char} (hhigh : IsUnit high u)
      (hlow : IsUnit low v) (hu : 0xd800 ≤ u ∧ u ≤ 0xdbff) (hv : 0xdc00 ≤ v ∧ v ≤ 0xdfff)
      (hc : c.toNat = 0x10000 + (u - 0xd800) * 0x400 + (v - 0xdc00)) :
      Item ('\\' :: 'u' :: (high ++ '\\' :: 'u' :: low)) c

/-- A sequence of items with the text that it stands for. -/
inductive Items : List Char → List Char → Prop where
  | nil : Items [] []
  | cons {item rest cs : List Char} {c : Char} (hitem : Item item c) (hrest : Items rest cs) :
      Items (item ++ rest) (c :: cs)

/-- What is left of a string token somewhere behind its opening quote. -/
def IsRest (text : List Char) : Prop := ∃ body, IsStringBody body ∧ text = body ++ ['"']

/-- The faults that lie between the quotes of a literal. -/
inductive Fault.Inner : Fault → Prop where
  | unclosed : Inner .unclosed
  | controlCharacter : Inner .controlCharacter
  | invalidEscape : Inner .invalidEscape
  | loneSurrogate : Inner .loneSurrogate
  | brokenPair : Inner .brokenPair

/-! ### Escapes -/

theorem isHex_of_hexDigit? {c : Char} {n : Nat} (h : hexDigit? c = some n) : IsHex c n := by
  have hdigits : ∀ m < 10, "0123456789abcdef".toList[m]? = some (Char.ofNat (48 + m)) := by decide
  have hlower : ∀ m < 6, "0123456789abcdef".toList[m + 10]? = some (Char.ofNat (97 + m)) := by
    decide
  have hupper : ∀ m < 6, "0123456789ABCDEF".toList[m + 10]? = some (Char.ofNat (65 + m)) := by
    decide
  have hchar : ∀ base, base ≤ c.toNat → Char.ofNat (base + (c.toNat - base)) = c := by
    intro base hbase
    rw [Nat.add_sub_of_le hbase, Char.ofNat_toNat]
  unfold hexDigit? at h
  split at h
  · next hc =>
    have hrange : 48 ≤ c.toNat ∧ c.toNat ≤ 57 := hc
    cases h
    exact .inl ((hdigits (c.toNat - 48) (by omega)).trans (congrArg some (hchar 48 hrange.1)))
  split at h
  · next hc =>
    have hrange : 97 ≤ c.toNat ∧ c.toNat ≤ 102 := hc
    cases h
    exact .inl ((hlower (c.toNat - 97) (by omega)).trans (congrArg some (hchar 97 hrange.1)))
  split at h
  · next hc =>
    have hrange : 65 ≤ c.toNat ∧ c.toNat ≤ 70 := hc
    cases h
    exact .inr ((hupper (c.toNat - 65) (by omega)).trans (congrArg some (hchar 65 hrange.1)))
  · cases h

theorem hexDigit?_of_isHex {c : Char} {n : Nat} (h : IsHex c n) : hexDigit? c = some n := by
  have hlower : ∀ m < 16, "0123456789abcdef".toList[m]?.bind hexDigit? = some m := by decide
  have hupper : ∀ m < 16, "0123456789ABCDEF".toList[m]?.bind hexDigit? = some m := by decide
  rcases h with h | h
  · have hn : n < 16 := (List.getElem?_eq_some_iff.mp h).1
    rw [← hlower n hn, h, Option.bind_some]
  · have hn : n < 16 := (List.getElem?_eq_some_iff.mp h).1
    rw [← hupper n hn, h, Option.bind_some]

theorem hexDigit?_eq_some_iff {c : Char} {n : Nat} : hexDigit? c = some n ↔ IsHex c n :=
  ⟨isHex_of_hexDigit?, hexDigit?_of_isHex⟩

/-- A hexadecimal digit is an ordinary character of a string token. -/
theorem IsHex.ordinary {c : Char} {n : Nat} (h : IsHex c n) : c ≠ '"' ∧ c ≠ '\\' := by
  rw [← hexDigit?_eq_some_iff] at h
  constructor
  · rintro rfl
    cases h
  · rintro rfl
    cases h

/-- Four characters are read as a code unit exactly if they are hexadecimal digits that spell it. -/
theorem codeUnit?_eq_some_iff {a b c d : Char} {u : Nat} :
    codeUnit? a b c d = some u ↔ IsUnit [a, b, c, d] u := by
  constructor
  · intro h
    unfold codeUnit? at h
    split at h
    · next n₁ n₂ n₃ n₄ ha hb hc hd =>
      rw [hexDigit?_eq_some_iff] at ha hb hc hd
      cases h
      have hvalue : ((n₁ * 16 + n₂) * 16 + n₃) * 16 + n₄ =
          16 ^ 3 * n₁ + 16 ^ 2 * n₂ + 16 * n₃ + n₄ := by omega
      rw [hvalue]
      exact .mk ha hb hc hd
    · cases h
  · rintro ⟨ha, hb, hc, hd⟩
    rw [← hexDigit?_eq_some_iff] at ha hb hc hd
    simp only [codeUnit?, ha, hb, hc, hd, Option.some.injEq]
    omega

theorem letterEscape?_eq_some_iff {e c : Char} :
    letterEscape? e = some c ↔ (e, c) ∈ letterEscapes := by
  constructor
  · intro h
    unfold letterEscape? at h
    iterate 8
      split at h
      · next he =>
        cases h
        rw [he]
        decide
    cases h
  · intro h
    have hall : ∀ p ∈ letterEscapes, letterEscape? p.1 = some p.2 := by decide
    exact hall (e, c) h

theorem isTrailing_iff {u : Nat} : isTrailing u = true ↔ 0xdc00 ≤ u ∧ u ≤ 0xdfff := by
  simp [isTrailing]

theorem isLeading_iff {u : Nat} : isLeading u = true ↔ 0xd800 ≤ u ∧ u ≤ 0xdbff := by
  simp [isLeading]

theorem body_pair {size i : Nat} {done rest : List Char} {a b c d a' b' c' d' : Char} {u v : Nat}
    (hu : codeUnit? a b c d = some u) (hv : codeUnit? a' b' c' d' = some v)
    (hleading : isLeading u = true) (htrailing : isTrailing v = true) :
    body size i done
        ('\\' :: 'u' :: a :: b :: c :: d :: '\\' :: 'u' :: a' :: b' :: c' :: d' :: rest) =
      body size (i + 12) (pair u v :: done) rest := by
  have hleads : isTrailing u = false := by
    rw [isLeading_iff] at hleading
    rw [Bool.eq_false_iff, Ne, isTrailing_iff]
    omega
  rw [body.eq_def]
  simp [hu, hv, hleads, hleading, htrailing]

theorem IsHex.lt {c : Char} {n : Nat} (h : IsHex c n) : n < 16 := by
  rcases h with h | h <;> exact (List.getElem?_eq_some_iff.mp h).1

theorem lt_of_codeUnit? {a b c d : Char} {u : Nat} (h : codeUnit? a b c d = some u) :
    u < 0x10000 := by
  rw [codeUnit?_eq_some_iff] at h
  cases h with
  | mk ha hb hc hd =>
    have h₁ := ha.lt
    have h₂ := hb.lt
    have h₃ := hc.lt
    have h₄ := hd.lt
    omega

theorem item_unit {a b c d : Char} {u : Nat} (hu : codeUnit? a b c d = some u)
    (htrailing : ¬isTrailing u = true) (hleading : ¬isLeading u = true) :
    Item ['\\', 'u', a, b, c, d] (Char.ofNat u) := by
  have hlt := lt_of_codeUnit? hu
  rw [isTrailing_iff] at htrailing
  rw [isLeading_iff] at hleading
  have hvalid : u.isValidChar := by
    unfold Nat.isValidChar
    omega
  refine .unit (codeUnit?_eq_some_iff.mp hu) (by omega) ?_
  rw [Char.ofNat, dif_pos hvalid]
  rfl

theorem item_pair {a b c d a' b' c' d' : Char} {u v : Nat} (hu : codeUnit? a b c d = some u)
    (hv : codeUnit? a' b' c' d' = some v) (hleading : isLeading u = true)
    (htrailing : isTrailing v = true) :
    Item ['\\', 'u', a, b, c, d, '\\', 'u', a', b', c', d'] (pair u v) := by
  rw [isLeading_iff] at hleading
  rw [isTrailing_iff] at htrailing
  have hvalid : (0x10000 + (u - 0xd800) * 0x400 + (v - 0xdc00)).isValidChar := by
    unfold Nat.isValidChar
    omega
  refine .pair (codeUnit?_eq_some_iff.mp hu) (codeUnit?_eq_some_iff.mp hv) hleading htrailing ?_
  rw [pair, Char.ofNat, dif_pos hvalid]
  rfl

/-! ### Sequences of items -/

section

variable {size i : Nat} {done text : List Char}

/-- An item is read as the character that it stands for. -/
theorem exists_body_item {item : List Char} {c : Char} (h : Item item c) (size i : Nat)
    (done rest : List Char) :
    ∃ j, body size i done (item ++ rest) = body size j (c :: done) rest := by
  cases h with
  | plain hhigh hquote hslash =>
    exact ⟨i + c.utf8Size, body_plain hquote hslash (Nat.not_lt.mpr hhigh)⟩
  | letter hletter => exact ⟨i + 2, body_letter (letterEscape?_eq_some_iff.mpr hletter)⟩
  | @unit digits u _ hdigits hu hc =>
    have htrailing : isTrailing u = false := by
      rw [Bool.eq_false_iff, Ne, isTrailing_iff]
      omega
    have hleading : isLeading u = false := by
      rw [Bool.eq_false_iff, Ne, isLeading_iff]
      omega
    have hchar : Char.ofNat u = c := by rw [← hc, Char.ofNat_toNat]
    cases hdigits with
    | mk h₁ h₂ h₃ h₄ =>
      have hunit := codeUnit?_eq_some_iff.mpr (.mk h₁ h₂ h₃ h₄)
      refine ⟨i + 6, ?_⟩
      rw [← hchar]
      exact body_unit hunit htrailing hleading
  | @pair high low u v _ hhigh hlow hu hv hc =>
    have hchar : pair u v = c := by rw [pair, ← hc, Char.ofNat_toNat]
    cases hhigh with
    | mk h₁ h₂ h₃ h₄ =>
      cases hlow with
      | mk h₅ h₆ h₇ h₈ =>
        have hunit := codeUnit?_eq_some_iff.mpr (.mk h₁ h₂ h₃ h₄)
        have hunit' := codeUnit?_eq_some_iff.mpr (.mk h₅ h₆ h₇ h₈)
        refine ⟨i + 12, ?_⟩
        rw [← hchar]
        exact body_pair hunit hunit' (isLeading_iff.mpr hu) (isTrailing_iff.mpr hv)

/-- A sequence of items is read as the text that it stands for. -/
theorem body_of_items {cs ts : List Char} (h : Items cs ts) (size i : Nat) (done : List Char) :
    body size i done (cs ++ ['"']) = .ok (done.reverse ++ ts) := by
  induction h generalizing i done with
  | nil => simp [body, closing]
  | @cons item rest ts c hitem _ ih =>
    obtain ⟨j, hj⟩ := exists_body_item hitem size i done (rest ++ ['"'])
    rw [List.append_assoc, hj, ih]
    simp

/-! ### What is left of a token -/

namespace IsRest

variable {a b c d e : Char}

theorem of_ordinary (h : IsRest (c :: text)) (hquote : c ≠ '"') (hslash : c ≠ '\\') :
    IsRest text := by
  obtain ⟨body, hbody, heq⟩ := h
  cases body with
  | nil => exact absurd (List.cons.inj heq).1 hquote
  | cons c' body =>
    obtain ⟨rfl, rfl⟩ := List.cons.inj heq
    rcases isStringBody_cons hbody with ⟨-, -, hbody⟩ | ⟨hc, -⟩
    · exact ⟨body, hbody, rfl⟩
    · exact absurd hc hslash

theorem of_escape (h : IsRest ('\\' :: e :: text)) : IsRest text := by
  obtain ⟨body, hbody, heq⟩ := h
  cases body with
  | nil => cases heq
  | cons c' body =>
    obtain ⟨rfl, htext⟩ := List.cons.inj heq
    rcases isStringBody_cons hbody with ⟨-, hslash, -⟩ | ⟨-, _, body, rfl, hrest⟩
    · exact absurd rfl hslash
    · exact ⟨body, hrest, (List.cons.inj htext).2⟩

/-- The digits of a code unit lie before the closing quote. -/
theorem of_unit {u : Nat} (h : IsRest ('\\' :: 'u' :: a :: b :: c :: d :: text))
    (hunit : codeUnit? a b c d = some u) : IsRest text := by
  rw [codeUnit?_eq_some_iff] at hunit
  cases hunit with
  | mk ha hb hc hd =>
    have h₁ := h.of_escape.of_ordinary ha.ordinary.1 ha.ordinary.2
    have h₂ := h₁.of_ordinary hb.ordinary.1 hb.ordinary.2
    have h₃ := h₂.of_ordinary hc.ordinary.1 hc.ordinary.2
    exact h₃.of_ordinary hd.ordinary.1 hd.ordinary.2

/-- The first quote that no backslash takes along is the last character. -/
theorem eq_nil_of_quote (h : IsRest ('"' :: text)) : text = [] := by
  obtain ⟨body, hbody, heq⟩ := h
  cases body with
  | nil => exact (List.cons.inj heq).2
  | cons c' body =>
    obtain ⟨rfl, -⟩ := List.cons.inj heq
    rcases isStringBody_cons hbody with ⟨hquote, -⟩ | ⟨hc, -⟩
    · exact absurd rfl hquote
    · exact absurd hc (by decide)

end IsRest

/-- How the rest of a token can be read behind the given characters: as a sequence of items up to
its last quote, or up to an inner fault. -/
inductive Reads (done text : List Char) : Scan (List Char) → Prop where
  | all {cs ts : List Char} (htext : text = cs ++ ['"']) (hitems : Items cs ts) :
      Reads done text (.ok (done.reverse ++ ts))
  | upTo {e : Fault × Nat} (hfault : e.1.Inner) : Reads done text (.error e)

theorem Reads.cons {item : List Char} {c : Char} {r : Scan (List Char)} (hitem : Item item c)
    (h : Reads (c :: done) text r) : Reads done (item ++ text) r := by
  cases h with
  | @all cs ts htext hitems =>
    have hall : Reads done (item ++ text) (.ok (done.reverse ++ (c :: ts))) :=
      .all (by rw [htext, List.append_assoc]) (.cons hitem hitems)
    simpa using hall
  | upTo hfault => exact .upTo hfault

theorem inner_badUnit (size i : Nat) : (badUnit size i).1.Inner := by
  unfold badUnit
  split
  · exact .unclosed
  · exact .invalidEscape

/-- The rest of a token is read up to its last quote, unless there is an inner fault. -/
theorem reads_body (h : IsRest text) : Reads done text (body size i done text) := by
  fun_induction body size i done text with
  | case2 i done rest _ =>
    obtain rfl := h.eq_nil_of_quote
    simpa using @Reads.all done _ [] [] rfl .nil
  | case3 i done rest e hclosing =>
    obtain rfl := h.eq_nil_of_quote
    cases hclosing
  | case10 i done a b c d u hu hnot hleading a' b' c' d' rest v hv htrailing _ ih =>
    have hrest : IsRest rest := (h.of_unit hu).of_unit hv
    exact (ih hrest).cons (item_pair hu hv hleading htrailing)
  | case15 i done a b c d rest u hu htrailing hleading _ ih =>
    exact (ih (h.of_unit hu)).cons (item_unit hu htrailing hleading)
  | case17 i done e rest _ c hletter _ ih =>
    exact (ih h.of_escape).cons (.letter (letterEscape?_eq_some_iff.mp hletter))
  | case20 i done c rest hquote hslash hhigh ih =>
    exact (ih (h.of_ordinary hquote hslash)).cons (.plain (Nat.not_lt.mp hhigh) hquote hslash)
  | case5 | case9 | case12 | case16 => exact .upTo (inner_badUnit ..)
  | case1 | case4 | case7 | case8 => exact .upTo .unclosed
  | case6 | case11 => exact .upTo .loneSurrogate
  | case13 | case14 => exact .upTo .brokenPair
  | case18 => exact .upTo .invalidEscape
  | case19 => exact .upTo .controlCharacter

end

/-! ### Whole tokens -/

section

variable {token : String} {cs : List Char}

theorem literal_token (size : Nat) (cs : List Char) :
    literal size 0 ('"' :: cs) = body size 1 [] cs := by
  rw [literal, if_neg (by decide), if_pos rfl]

theorem reads_literal (hcs : IsStringBody cs) (htoken : token.toList = '"' :: (cs ++ ['"'])) :
    Reads [] (cs ++ ['"']) (literal token.utf8ByteSize 0 token.toList) := by
  rw [htoken, literal_token]
  exact reads_body ⟨cs, hcs, rfl⟩

/-- A string token is read as the text that the items between its quotes stand for. -/
theorem decode_token_eq_ok_iff {text : String} (hcs : IsStringBody cs)
    (htoken : token.toList = '"' :: (cs ++ ['"'])) :
    decode token = .ok text ↔ Items cs text.toList := by
  constructor
  · intro h
    have hreads := reads_literal hcs htoken
    rw [decode] at h
    generalize literal token.utf8ByteSize 0 token.toList = r at h hreads
    cases hreads with
    | all htext hitems =>
      cases h
      obtain rfl := List.append_cancel_right htext
      simpa using hitems
    | upTo => cases h
  · intro h
    rw [decode, htoken, literal_token, body_of_items h]
    simp

/-- A string token has no other faults than those between its quotes. -/
theorem inner_of_decode_token {complaint : Complaint} (hcs : IsStringBody cs)
    (htoken : token.toList = '"' :: (cs ++ ['"'])) (h : decode token = .error complaint) :
    complaint.fault.Inner := by
  have hreads := reads_literal hcs htoken
  rw [decode] at h
  generalize literal token.utf8ByteSize 0 token.toList = r at h hreads
  cases hreads with
  | all => cases h
  | upTo hfault =>
    cases h
    exact hfault

end

end Reduct.Text.Quoted
