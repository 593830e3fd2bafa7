import Reduct.Proofs.Source.Layout
import Reduct.Term.Display
import Reduct.Text.Quoted.Decode
import Reduct.Word

/-!
# Literals read back

The written forms of texts and of integers are tokens of their classes, and each of them is read
back as what it was written for.

## Main results

* `Text.Quoted.isString_encode`, `Text.Quoted.decode_encode` — every text has a string literal.
* `Term.isInteger_decimal`, `Word.read?_decimal` — every word has an integer literal.
-/

namespace Reduct

namespace Text.Quoted

variable {size i : Nat} {done rest : List Char}

theorem body_plain {c : Char} (hquote : c ≠ '"') (hslash : c ≠ '\\') (hhigh : ¬c.toNat < 0x20) :
    body size i done (c :: rest) = body size (i + c.utf8Size) (c :: done) rest := by
  rw [body.eq_def]
  simp only [hquote, hslash, hhigh, if_false]

theorem body_letter {e c : Char} (hletter : letterEscape? e = some c) :
    body size i done ('\\' :: e :: rest) = body size (i + 2) (c :: done) rest := by
  have hunit : e ≠ 'u' := by
    rintro rfl
    cases hletter
  rw [body.eq_def]
  simp [hunit, hletter]

theorem body_unit {a b c d : Char} {u : Nat} (hunit : codeUnit? a b c d = some u)
    (htrailing : isTrailing u = false) (hleading : isLeading u = false) :
    body size i done ('\\' :: 'u' :: a :: b :: c :: d :: rest) =
      body size (i + 6) (Char.ofNat u :: done) rest := by
  rw [body.eq_def]
  simp [hunit, htrailing, hleading]

/-- What is written for one character is read as that character.  The count of bytes only matters
for faults, so the one after the character is left open. -/
theorem exists_body_escape (size i : Nat) (done rest : List Char) (c : Char) :
    ∃ j, body size i done (escape c ++ rest) = body size j (c :: done) rest := by
  unfold escape
  iterate 7
    split
    · next hc =>
      subst hc
      exact ⟨i + 2, body_letter rfl⟩
  -- Seven characters have a letter of their own; the other controls are written as code units.
  split
  · next hlow =>
    have hhex : ∀ n < 16, hexDigit? (Nat.digitChar n) = some n := by decide
    have hunit : codeUnit? '0' '0' (Nat.digitChar (c.toNat / 16)) (Nat.digitChar (c.toNat % 16)) =
        some c.toNat := by
      have hzero : hexDigit? '0' = some 0 := by decide
      simp only [codeUnit?, hzero, hhex (c.toNat / 16) (by omega), hhex (c.toNat % 16) (by omega)]
      congr 1
      omega
    have htrailing : isTrailing c.toNat = false := by simp [isTrailing]; omega
    have hleading : isLeading c.toNat = false := by simp [isLeading]; omega
    refine ⟨i + 6, ?_⟩
    rw [List.cons_append, List.cons_append, List.cons_append, List.cons_append, List.cons_append,
      List.cons_append, List.nil_append, body_unit hunit htrailing hleading, Char.ofNat_toNat]
  · next hquote hslash _ _ _ _ _ hhigh => exact ⟨i + c.utf8Size, body_plain hquote hslash hhigh⟩

theorem body_flatMap_escape (size i : Nat) (done cs : List Char) :
    body size i done (cs.flatMap escape ++ ['"']) = .ok (done.reverse ++ cs) := by
  induction cs generalizing i done with
  | nil => simp [body, closing]
  | cons c cs ih =>
    obtain ⟨j, hj⟩ := exists_body_escape size i done (cs.flatMap escape ++ ['"']) c
    rw [List.flatMap_cons, List.append_assoc, hj, ih]
    simp

theorem decode_encode (s : String) : decode (encode s) = .ok s := by
  unfold decode
  rw [toList_encode, literal, if_neg (by decide), if_pos rfl, body_flatMap_escape]
  simp

theorem isStringBody_escape (c : Char) {rest : List Char} (hrest : IsStringBody rest) :
    IsStringBody (escape c ++ rest) := by
  unfold escape
  iterate 7
    split
    · exact .escaped hrest
  split
  · next hlow =>
    have hdigit : ∀ n < 16, Nat.digitChar n ≠ '"' ∧ Nat.digitChar n ≠ '\\' := by decide
    have hfirst := hdigit (c.toNat / 16) (by omega)
    have hsecond := hdigit (c.toNat % 16) (by omega)
    exact .escaped (.plain (by decide) (by decide) (.plain (by decide) (by decide)
      (.plain hfirst.1 hfirst.2 (.plain hsecond.1 hsecond.2 hrest))))
  · next hquote hslash _ _ _ _ _ _ => exact .plain hquote hslash hrest

theorem isString_encode (s : String) : IsString (encode s).toList := by
  refine ⟨s.toList.flatMap escape, ?_, toList_encode s⟩
  induction s.toList with
  | nil => exact .nil
  | cons c cs ih => exact isStringBody_escape c ih

end Text.Quoted

theorem Term.decimal_eq (n : Int64) :
    Term.decimal n = if 0 ≤ n.toInt then Nat.toDigits 10 n.toInt.toNat
      else '-' :: Nat.toDigits 10 (-n.toInt).toNat := by
  rw [Term.decimal, Int.toString_eq_repr, Int.repr_eq_if]
  split <;> simp

theorem Word.digits?_toDigits (n : Nat) : Word.digits? (Nat.toDigits 10 n) = some n := by
  have hall : (Nat.toDigits 10 n).all Char.isDigit = true := by
    rw [List.all_eq_true]
    exact fun c hc => Nat.isDigit_of_mem_toDigits (by decide) (by decide) hc
  have hne : (Nat.toDigits 10 n).isEmpty = false := by simp [Nat.toDigits_ne_nil]
  simp [Word.digits?, hall, hne, Nat.ofDigitChars_ten_toDigits]

theorem Word.read?_decimal (n : Int64) : Word.read? (String.ofList (Term.decimal n)) = some n := by
  have hdigit : ∀ (m : Nat) (c : Char) (ds : List Char), Nat.toDigits 10 m = c :: ds →
      c.isDigit := by
    intro m c ds h
    exact Nat.isDigit_of_mem_toDigits (by decide) (by decide) (h ▸ List.mem_cons_self ..)
  unfold Word.read?
  rw [String.toList_ofList, Term.decimal_eq]
  by_cases hsign : 0 ≤ n.toInt
  · rw [if_pos hsign]
    have hvalue : Word.ofInt? (n.toInt.toNat : Int) = some n := by
      rw [Word.ofInt?_eq_some_iff]
      omega
    split
    · next ds h => exact absurd (hdigit _ _ _ h) (by decide)
    · next ds h => exact absurd (hdigit _ _ _ h) (by decide)
    · rw [Word.digits?_toDigits, Option.bind_some, hvalue]
  · rw [if_neg hsign]
    have hvalue : Word.ofInt? (-((-n.toInt).toNat : Int)) = some n := by
      rw [Word.ofInt?_eq_some_iff]
      omega
    simp only [Word.digits?_toDigits, Option.bind_some, hvalue]

theorem Term.isInteger_decimal (n : Int64) : IsInteger (Term.decimal n) := by
  have hdigits : ∀ m : Nat, ∀ c ∈ Nat.toDigits 10 m, '0' ≤ c ∧ c ≤ '9' := by
    intro m c hc
    exact isDigit_iff.mp (Nat.isDigit_of_mem_toDigits (by decide) (by decide) hc)
  rw [Term.decimal_eq]
  split
  · exact ⟨_, Nat.toDigits_ne_nil, hdigits _, .inl rfl⟩
  · exact ⟨_, Nat.toDigits_ne_nil, hdigits _, .inr rfl⟩

end Reduct
