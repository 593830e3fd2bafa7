/-!
# Signed 64-bit integers

The integers of the language are signed 64-bit words.  Sums, differences and products are carried
out on exact integers and then checked against the range, so a result is either exact or absent.
Powers and the values of tokens are found step by step, with such a check on every step.

## Main definitions

* `ofInt?` — the word with a given value, if there is one.
* `add?`, `sub?`, `mul?` — exact arithmetic on words.
* `powInParts?` — a power, by repeated squaring unless the exponent is very large.
* `readByDigits?` — the word that a token spells, digit by digit.
* `pow?`, `read?` — the same two with a single check, on the exact result.

## Design notes

A check on an intermediate result could fail although the final result is a word.  That this does
not happen is what makes `powInParts?` agree with `pow?`, and `readByDigits?` with `read?`.
-/

namespace Reduct.Word

/-- The word whose value is `n`, if `n` lies in the range of words. -/
def ofInt? (n : Int) : Option Int64 :=
  if Int64.minValue.toInt ≤ n ∧ n ≤ Int64.maxValue.toInt then some (Int64.ofInt n) else none

/-- A word has value `n` exactly when it is what `n` converts to. -/
theorem ofInt?_eq_some_iff {n : Int} {w : Int64} : ofInt? n = some w ↔ w.toInt = n := by
  unfold ofInt?
  constructor
  · intro h
    split at h
    · next hr =>
      cases h
      rw [Int64.toInt_minValue, Int64.toInt_maxValue] at hr
      exact Int64.toInt_ofInt_of_le hr.1 (by omega)
    · cases h
  · rintro rfl
    rw [if_pos ⟨Int64.minValue_le_toInt w, Int64.toInt_le w⟩, Int64.ofInt_toInt]

/-- The sum, if it is a word. -/
def add? (a b : Int64) : Option Int64 := ofInt? (a.toInt + b.toInt)

/-- The difference, if it is a word. -/
def sub? (a b : Int64) : Option Int64 := ofInt? (a.toInt - b.toInt)

/-- The product, if it is a word. -/
def mul? (a b : Int64) : Option Int64 := ofInt? (a.toInt * b.toInt)

/-- Multiplies a power to what has been accumulated, by repeated squaring.  Every product on the way
has to be a word. -/
@[semireducible]
def squaring? (acc base : Int64) (k : Nat) : Option Int64 :=
  if k = 0 then some acc
  else if k = 1 then mul? acc base
  else
    (if k % 2 = 1 then mul? acc base else some acc).bind fun acc =>
      (mul? base base).bind fun base => squaring? acc base (k / 2)
termination_by k

/-- A power in three parts: by repeated squaring as long as the exponent has 32 bits; beyond that by
the parity of the exponent for the bases 0, 1 and -1, and none for any other base. -/
def powInParts? (a b : Int64) : Option Int64 :=
  if b.toInt < UInt32.size then squaring? 1 a b.toInt.toNat
  else if a = 0 ∨ a = 1 then some a
  else if a = -1 then some (if b.toInt % 2 = 0 then 1 else -1)
  else none

/-- The power, if it is a word.  The bases 0, 1 and -1 have a power for every exponent; for any
other base the power leaves the range once the exponent reaches 64, so it is not computed. -/
def pow? (a : Int64) (k : Nat) : Option Int64 :=
  if a = 0 then some (if k = 0 then 1 else 0)
  else if a = 1 then some 1
  else if a = -1 then some (if k % 2 = 0 then 1 else -1)
  else if 64 ≤ k then none
  else ofInt? (Int.pow a.toInt k)

/-- Appends a digit to a number of which the sign is known.  The number is moved away from zero: the
least word has no counterpart on the other side. -/
def appendDigit? (negative : Bool) (n : Int64) (c : Char) : Option Int64 :=
  if c.isDigit then
    (mul? n 10).bind fun tens =>
      if negative then sub? tens (Int64.ofNat (c.toNat - '0'.toNat))
      else add? tens (Int64.ofNat (c.toNat - '0'.toNat))
  else none

/-- The word that a run of digits spells behind a sign, where every number on the way is a word. -/
def readDigits? (negative : Bool) (cs : List Char) : Option Int64 :=
  if cs.isEmpty then none else cs.foldlM (appendDigit? negative) 0

/-- The word that a token spells, read digit by digit behind an optional sign. -/
def readByDigits? (token : String) : Option Int64 :=
  match token.toList with
  | '-' :: ds => readDigits? true ds
  | '+' :: ds => readDigits? false ds
  | ds => readDigits? false ds

/-- The value of a non-empty run of decimal digits. -/
def digits? (ds : List Char) : Option Nat :=
  if !ds.isEmpty && ds.all Char.isDigit then some (Nat.ofDigitChars 10 ds 0) else none

/-- The word that a token spells: an optional sign, then decimal digits. -/
def read? (token : String) : Option Int64 :=
  match token.toList with
  | '-' :: ds => (digits? ds).bind fun n => ofInt? (-n)
  | '+' :: ds => (digits? ds).bind fun n => ofInt? n
  | ds => (digits? ds).bind fun n => ofInt? n

end Reduct.Word
