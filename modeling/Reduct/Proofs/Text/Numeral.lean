import Reduct.Proofs.Env.Arithmetic
import Reduct.Proofs.Source.Layout

/-!
# What integer tokens denote

A word is read exactly, however long the token is.  Reading takes no more than words: the number is
built up digit by digit with a check on every product and every sum, and no check fails unless the
whole number is out of range.

## Main definitions

* `decimalValue` — the number that a run of digits spells.
* `Numeral` — the decimal numerals, with the integers that they stand for.

## Main results

* `Word.foldlM_appendDigit?` — a run of digits is read exactly or leaves the range.
* `Word.readByDigits?_eq_read?` — reading digit by digit is reading at once.
* `Word.read?_eq_some_iff` — the tokens that are read, and as what.
-/

namespace Reduct

/-- A non-empty run of decimal digits. -/
def IsDigits (cs : List Char) : Prop := cs ≠ [] ∧ ∀ c ∈ cs, '0' ≤ c ∧ c ≤ '9'

/-- The number that a run of digits spells: a digit counts for as many powers of ten as there are
digits behind it. -/
def decimalValue : List Char → Nat
  | [] => 0
  | c :: cs => (c.toNat - '0'.toNat) * 10 ^ cs.length + decimalValue cs

/-- The decimal numerals with at most one sign, and the integers that they stand for. -/
inductive Numeral : List Char → Int → Prop where
  | unsigned {digits : List Char} (hdigits : IsDigits digits) :
      Numeral digits (decimalValue digits)
  | plus {digits : List Char} (hdigits : IsDigits digits) :
      Numeral ('+' :: digits) (decimalValue digits)
  | minus {digits : List Char} (hdigits : IsDigits digits) :
      Numeral ('-' :: digits) (-decimalValue digits)

theorem isDigits_iff {cs : List Char} :
    IsDigits cs ↔ cs.isEmpty = false ∧ cs.all Char.isDigit = true := by
  simp only [IsDigits, List.isEmpty_eq_false_iff, List.all_eq_true, isDigit_iff]

/-- An integer token is a numeral. -/
theorem IsInteger.exists_numeral {cs : List Char} (h : IsInteger cs) : ∃ n, Numeral cs n := by
  obtain ⟨digits, hne, hall, rfl | rfl⟩ := h
  · exact ⟨_, .unsigned ⟨hne, hall⟩⟩
  · exact ⟨_, .minus ⟨hne, hall⟩⟩

/-- A sign is no digit, so a numeral has one reading only. -/
theorem Numeral.unique {cs : List Char} {n m : Int} (hn : Numeral cs n) (hm : Numeral cs m) :
    n = m := by
  have hsign : ∀ sign digits, IsDigits (sign :: digits) → '0' ≤ sign ∧ sign ≤ '9' :=
    fun sign digits h => h.2 sign (List.mem_cons_self ..)
  cases hn with
  | unsigned hdigits =>
    cases hm with
    | unsigned => rfl
    | plus => exact absurd (hsign _ _ hdigits) (by decide)
    | minus => exact absurd (hsign _ _ hdigits) (by decide)
  | plus =>
    cases hm with
    | unsigned hdigits => exact absurd (hsign _ _ hdigits) (by decide)
    | plus => rfl
  | minus =>
    cases hm with
    | unsigned hdigits => exact absurd (hsign _ _ hdigits) (by decide)
    | minus => rfl

theorem ofDigitChars_eq_decimalValue (cs : List Char) :
    Nat.ofDigitChars 10 cs 0 = decimalValue cs := by
  induction cs with
  | nil => rfl
  | cons c cs ih =>
    rw [Nat.ofDigitChars_cons, Nat.ofDigitChars_eq_ofDigitChars_zero, ih, decimalValue,
      Nat.mul_zero, Nat.zero_add, Nat.mul_comm]

namespace Word

theorem digits?_eq_some_iff {cs : List Char} {n : Nat} :
    digits? cs = some n ↔ IsDigits cs ∧ n = decimalValue cs := by
  rw [digits?, isDigits_iff, ← ofDigitChars_eq_decimalValue]
  by_cases h : cs.isEmpty = false ∧ cs.all Char.isDigit = true
  · simp [h, eq_comm]
  · have hnot : ¬(!cs.isEmpty && cs.all Char.isDigit) = true := by simpa using h
    rw [if_neg hnot]
    exact iff_of_false (by simp) fun hc => h hc.1

/-- A number with a minus sign before it, or without one. -/
def signed (negative : Bool) (n : Nat) : Int := if negative then -n else n

/-- Once a number has left the range, no larger one with the same sign is back in it. -/
theorem not_inRange_signed {negative : Bool} {n m : Nat} (hle : n ≤ m)
    (hn : ¬InRange (signed negative n)) : ¬InRange (signed negative m) := by
  unfold InRange signed at *
  cases negative with
  | true =>
    simp only [if_true] at *
    omega
  | false =>
    simp only [Bool.false_eq_true, if_false] at *
    omega

theorem le_ofDigitChars (cs : List Char) (n : Nat) : n ≤ Nat.ofDigitChars 10 cs n := by
  rw [Nat.ofDigitChars_eq_ofDigitChars_zero]
  have hpos : 1 ≤ 10 ^ cs.length := Nat.one_le_pow _ _ (by decide)
  have hle : n ≤ 10 ^ cs.length * n := Nat.le_mul_of_pos_left n hpos
  omega

/-- One digit is appended exactly or leaves the range. -/
theorem appendDigit?_eq_ofInt? {negative : Bool} {n : Int64} {c : Char} {a : Nat}
    (hn : n.toInt = signed negative a) (hc : c.isDigit = true) :
    appendDigit? negative n c = ofInt? (signed negative (10 * a + (c.toNat - '0'.toNat))) := by
  have hrange : 48 ≤ c.toNat ∧ c.toNat ≤ 57 := isDigit_iff.mp hc
  have hzero : '0'.toNat = 48 := rfl
  have hdigit : (Int64.ofNat (c.toNat - '0'.toNat)).toInt = (c.toNat - '0'.toNat : Nat) :=
    Int64.toInt_ofNat_of_lt (by omega)
  have hten : Int64.toInt 10 = 10 := rfl
  have htens : mul? n 10 = ofInt? (signed negative (10 * a)) := by
    rw [mul?, hn, hten]
    congr 1
    unfold signed
    split <;> omega
  rw [appendDigit?, if_pos hc, htens]
  cases h : ofInt? (signed negative (10 * a)) with
  | none =>
    rw [ofInt?_eq_none_iff] at h
    exact (ofInt?_eq_none_iff.mpr (not_inRange_signed (by omega) h)).symm
  | some tens =>
    rw [ofInt?_eq_some_iff] at h
    rw [Option.bind_some, sub?, add?, hdigit, h]
    unfold signed
    cases negative with
    | true =>
      simp only [if_true]
      congr 1
      omega
    | false =>
      simp only [Bool.false_eq_true, if_false]
      congr 1

/-- A run of digits is appended exactly, or some number on the way leaves the range together with
the last one. -/
theorem foldlM_appendDigit? {negative : Bool} {n : Int64} {a : Nat} {cs : List Char}
    (hn : n.toInt = signed negative a) (hcs : ∀ c ∈ cs, c.isDigit = true) :
    cs.foldlM (appendDigit? negative) n = ofInt? (signed negative (Nat.ofDigitChars 10 cs a)) := by
  induction cs generalizing n a with
  | nil => exact (ofInt?_eq_some_iff.mpr hn).symm
  | cons c cs ih =>
    rw [List.forall_mem_cons] at hcs
    rw [List.foldlM_cons, appendDigit?_eq_ofInt? hn hcs.1, Nat.ofDigitChars_cons]
    cases h : ofInt? (signed negative (10 * a + (c.toNat - '0'.toNat))) with
    | none =>
      rw [ofInt?_eq_none_iff] at h
      exact (ofInt?_eq_none_iff.mpr (not_inRange_signed (le_ofDigitChars cs _) h)).symm
    | some n' => exact ih (ofInt?_eq_some_iff.mp h) hcs.2

theorem foldlM_appendDigit?_eq_none {negative : Bool} {c : Char} {cs : List Char} (hmem : c ∈ cs)
    (hc : c.isDigit = false) (n : Int64) : cs.foldlM (appendDigit? negative) n = none := by
  induction cs generalizing n with
  | nil => cases hmem
  | cons c' cs ih =>
    rw [List.foldlM_cons]
    rcases List.mem_cons.mp hmem with rfl | hmem
    · rw [appendDigit?, hc]
      rfl
    · cases appendDigit? negative n c' with
      | none => rfl
      | some n' => exact ih hmem n'

/-- Reading a run of digits with a check at every step is reading it at once with one check. -/
theorem readDigits?_eq (negative : Bool) (cs : List Char) :
    readDigits? negative cs = (digits? cs).bind fun n => ofInt? (signed negative n) := by
  by_cases h : IsDigits cs
  · have hzero : Int64.toInt 0 = signed negative 0 := by cases negative <;> rfl
    have hall : ∀ c ∈ cs, c.isDigit = true := fun c hc => isDigit_iff.mpr (h.2 c hc)
    rw [readDigits?, (isDigits_iff.mp h).1, digits?_eq_some_iff.mpr ⟨h, rfl⟩, Option.bind_some,
      ← ofDigitChars_eq_decimalValue, ← foldlM_appendDigit? hzero hall]
    rfl
  · have hnone : digits? cs = none := by
      rw [Option.eq_none_iff_forall_ne_some]
      exact fun n hn => h (digits?_eq_some_iff.mp hn).1
    rw [hnone, Option.bind_none, readDigits?]
    split
    · rfl
    · next hempty =>
      obtain ⟨c, hc, hdigit⟩ : ∃ c ∈ cs, c.isDigit = false := by
        by_contra hcon
        apply h
        refine isDigits_iff.mpr ⟨Bool.eq_false_iff.mpr hempty, ?_⟩
        simpa using hcon
      exact foldlM_appendDigit?_eq_none hc hdigit 0

theorem readByDigits?_eq_read? (token : String) : readByDigits? token = read? token := by
  rw [readByDigits?, read?]
  simp only [readDigits?_eq]
  rfl

theorem bind_digits?_eq_some_iff {negative : Bool} {cs : List Char} {w : Int64} :
    ((digits? cs).bind fun n => ofInt? (signed negative n)) = some w ↔
      IsDigits cs ∧ w.toInt = signed negative (decimalValue cs) := by
  simp only [Option.bind_eq_some_iff, digits?_eq_some_iff, ofInt?_eq_some_iff]
  constructor
  · rintro ⟨n, ⟨hdigits, rfl⟩, hw⟩
    exact ⟨hdigits, hw⟩
  · rintro ⟨hdigits, hw⟩
    exact ⟨_, ⟨hdigits, rfl⟩, hw⟩

/-- A token is read as a word exactly if it is a numeral that stands for the word's value. -/
theorem read?_eq_some_iff {token : String} {w : Int64} :
    read? token = some w ↔ Numeral token.toList w.toInt := by
  unfold read?
  generalize token.toList = cs
  constructor
  · intro h
    split at h
    · next digits =>
      obtain ⟨hdigits, hw⟩ := (@bind_digits?_eq_some_iff true _ _).mp h
      rw [hw]
      exact .minus hdigits
    · next digits =>
      obtain ⟨hdigits, hw⟩ := (@bind_digits?_eq_some_iff false _ _).mp h
      rw [hw]
      exact .plus hdigits
    · obtain ⟨hdigits, hw⟩ := (@bind_digits?_eq_some_iff false _ _).mp h
      rw [hw]
      exact .unsigned hdigits
  · intro h
    generalize hn : w.toInt = n at h
    cases h with
    | unsigned hdigits =>
      have hfirst : ∀ c ds, cs = c :: ds → '0' ≤ c ∧ c ≤ '9' := by
        rintro c ds rfl
        exact hdigits.2 c (List.mem_cons_self ..)
      split
      · next ds => exact absurd (hfirst _ _ rfl) (by decide)
      · next ds => exact absurd (hfirst _ _ rfl) (by decide)
      · exact (@bind_digits?_eq_some_iff false _ _).mpr ⟨hdigits, hn⟩
    | plus hdigits => exact (@bind_digits?_eq_some_iff false _ _).mpr ⟨hdigits, hn⟩
    | minus hdigits => exact (@bind_digits?_eq_some_iff true _ _).mpr ⟨hdigits, hn⟩

end Word

end Reduct
