import Mathlib.Algebra.Order.Ring.Abs
import Mathlib.Tactic.Linarith
import Mathlib.Tactic.NormNum
import Mathlib.Tactic.Ring
import Reduct.Host.Basic
import Reduct.Proofs.Env.Builtins

/-!
# Exact arithmetic

The arithmetic built-ins return the exact integer or say why they do not.  For powers this has to be
shown: a power is found by repeated squaring with a check on every product, and no check fails
unless the power itself is out of range.

## Main definitions

* `Word.InRange` — the integers that are the value of a word.
* `Builtin.exact` — the exact integer that a built-in stands for.
* `Builtin.Computes` — the answers of an arithmetic built-in, with one rule for each.

## Main results

* `Word.pow?_eq_ofInt?` — a power is exact or out of range.
* `Word.squaring?_eq_ofInt?`, `Word.powInParts?_eq_pow?` — so is a power by repeated squaring, and a
  power in parts.
* `Builtin.run_eq_iff_computes` — the arithmetic built-ins answer by the rules.
-/

namespace Reduct

namespace Word

/-- The integers that are the value of a word. -/
def InRange (n : Int) : Prop := -2 ^ 63 ≤ n ∧ n ≤ 2 ^ 63 - 1

theorem inRange_iff {n : Int} : InRange n ↔ ∃ w, ofInt? n = some w := by
  have hrange : InRange n ↔ Int64.minValue.toInt ≤ n ∧ n ≤ Int64.maxValue.toInt := Iff.rfl
  rw [hrange, ofInt?]
  split
  · next h => exact iff_of_true h ⟨_, rfl⟩
  · next h => exact iff_of_false h (by simp)

theorem inRange_toInt (w : Int64) : InRange w.toInt :=
  inRange_iff.mpr ⟨w, ofInt?_eq_some_iff.mpr rfl⟩

theorem ofInt?_eq_none_iff {n : Int} : ofInt? n = none ↔ ¬InRange n := by
  rw [inRange_iff, Option.eq_none_iff_forall_ne_some, not_exists]

theorem not_inRange_of_lt_abs {n : Int} (h : 2 ^ 63 < |n|) : ¬InRange n := by
  rw [lt_abs] at h
  unfold InRange
  omega

/-! ### Powers -/

theorem not_inRange_pow {n : Int} {k : Nat} (hn : 2 ≤ |n|) (hk : 64 ≤ k) : ¬InRange (n ^ k) := by
  apply not_inRange_of_lt_abs
  calc (2 : Int) ^ 63 < 2 ^ 64 := by norm_num
    _ ≤ |n| ^ 64 := pow_le_pow_left₀ (by norm_num) hn 64
    _ ≤ |n| ^ k := pow_le_pow_right₀ (by omega) hk
    _ = |n ^ k| := (abs_pow n k).symm

/-- A power is exact, also where the base or the exponent spares the multiplications. -/
theorem pow?_eq_ofInt? (a : Int64) (k : Nat) : pow? a k = ofInt? (a.toInt ^ k) := by
  have hexact : ∀ w : Int64, w.toInt = a.toInt ^ k → some w = ofInt? (a.toInt ^ k) :=
    fun w hw => (ofInt?_eq_some_iff.mpr hw).symm
  unfold pow?
  split
  · next hzero =>
    subst hzero
    apply hexact
    change _ = (0 : Int) ^ k
    rw [zero_pow_eq]
    split <;> rfl
  split
  · next hone =>
    subst hone
    apply hexact
    change 1 = (1 : Int) ^ k
    rw [one_pow]
  split
  · next hneg =>
    subst hneg
    apply hexact
    change _ = (-1 : Int) ^ k
    rw [neg_one_pow_eq_ite]
    simp only [Nat.even_iff]
    split <;> rfl
  split
  · next hzero hone hneg hk =>
    rw [← Int64.toInt_inj] at hzero hone hneg
    change a.toInt ≠ 0 at hzero
    change a.toInt ≠ 1 at hone
    change a.toInt ≠ -1 at hneg
    have habs : 2 ≤ |a.toInt| := by
      rw [le_abs]
      omega
    exact (ofInt?_eq_none_iff.mpr (not_inRange_pow habs hk)).symm
  · rfl

theorem not_inRange_mul {n m : Int} (hn : ¬InRange n) (hm : 1 ≤ m) : ¬InRange (n * m) := by
  unfold InRange at hn ⊢
  rcases le_total 0 n with h | h
  · have hle : n ≤ n * m := le_mul_of_one_le_right h hm
    omega
  · have hle : n * m ≤ n := mul_le_of_one_le_right h hm
    omega

theorem lt_square_of_not_inRange {n : Int} (hn : ¬InRange (n * n)) : 2 ^ 63 < n * n := by
  have hself := abs_mul_abs_self n
  have hnonneg := abs_nonneg n
  -- The square root of `2 ^ 63` lies strictly between this bound and its predecessor.
  have hroot : 3037000500 ≤ |n| := by
    by_contra hlt
    apply hn
    unfold InRange
    constructor <;> nlinarith
  nlinarith

/-- The range has one more integer below zero than above.  This does not matter for a square, since
none of them is `2 ^ 63`. -/
theorem not_inRange_mul_square {n m : Int} (hn : ¬InRange (n * n)) (hm : m ≠ 0) :
    ¬InRange (m * (n * n)) := by
  apply not_inRange_of_lt_abs
  calc (2 : Int) ^ 63 < n * n := lt_square_of_not_inRange hn
    _ ≤ |m| * (n * n) := le_mul_of_one_le_left (mul_self_nonneg n) (Int.one_le_abs hm)
    _ = |m * (n * n)| := by rw [abs_mul, abs_mul_self]

theorem not_inRange_mul_square_pow {n m : Int} {j : Nat} (hn : ¬InRange (n * n))
    (hm : m = 0 → n = 0) (hj : j ≠ 0) : ¬InRange (m * (n * n) ^ j) := by
  obtain ⟨i, rfl⟩ := Nat.exists_eq_succ_of_ne_zero hj
  have hne : n ≠ 0 := by
    rintro rfl
    exact hn (inRange_toInt 0)
  have hfactor : m * (n * n) ^ i ≠ 0 :=
    mul_ne_zero (mt hm hne) (pow_ne_zero _ (mul_ne_zero hne hne))
  rw [pow_succ, ← mul_assoc]
  exact not_inRange_mul_square hn hfactor

theorem one_le_square_pow {n : Int} (hn : n ≠ 0) (j : Nat) : 1 ≤ (n * n) ^ j := by
  apply one_le_pow₀
  have hpos := mul_self_pos.mpr hn
  omega

theorem pow_eq_mul_square_pow (n : Int) (k : Nat) :
    n ^ k = (if k % 2 = 1 then n else 1) * (n * n) ^ (k / 2) := by
  conv => lhs; rw [← Nat.mod_add_div k 2, pow_add, pow_mul, pow_two]
  congr 1
  rcases Nat.mod_two_eq_zero_or_one k with h | h <;> simp [h]

/-- No product of repeated squaring leaves the range unless the power does. -/
theorem squaring?_eq_ofInt? {acc base : Int64} {k : Nat} (h : acc.toInt = 0 → base.toInt = 0) :
    squaring? acc base k = ofInt? (acc.toInt * base.toInt ^ k) := by
  induction k using Nat.strong_induction_on generalizing acc base with
  | _ k ih =>
    rw [squaring?]
    split
    · next hk => rw [hk, pow_zero, mul_one, ofInt?_eq_some_iff.mpr rfl]
    split
    · next hk => rw [hk, pow_one, mul?]
    next hzero hone =>
    have hacc : (if k % 2 = 1 then mul? acc base else some acc) =
        ofInt? (acc.toInt * if k % 2 = 1 then base.toInt else 1) := by
      split
      · rfl
      · rw [mul_one, ofInt?_eq_some_iff.mpr rfl]
    rw [hacc, mul?, pow_eq_mul_square_pow, ← mul_assoc]
    cases hx : ofInt? (acc.toInt * if k % 2 = 1 then base.toInt else 1) with
    | none =>
      -- What is left to be multiplied is a power of a square, which leads no further back.
      rw [ofInt?_eq_none_iff] at hx
      have hbase : base.toInt ≠ 0 := by
        intro hbase
        apply hx
        split
        · rw [hbase, mul_zero]
          exact inRange_toInt 0
        · rw [mul_one]
          exact inRange_toInt acc
      exact (ofInt?_eq_none_iff.mpr (not_inRange_mul hx (one_le_square_pow hbase _))).symm
    | some acc' =>
      rw [ofInt?_eq_some_iff] at hx
      have hacc' : acc'.toInt = 0 → base.toInt = 0 := by
        intro hzero
        rw [hx, mul_eq_zero] at hzero
        rcases hzero with hzero | hzero
        · exact h hzero
        · split at hzero
          · exact hzero
          · exact absurd hzero one_ne_zero
      rw [← hx, Option.bind_some]
      cases hsquare : ofInt? (base.toInt * base.toInt) with
      | none =>
        rw [ofInt?_eq_none_iff] at hsquare
        have hlarge := not_inRange_mul_square_pow hsquare hacc' (by omega : k / 2 ≠ 0)
        exact (ofInt?_eq_none_iff.mpr hlarge).symm
      | some base' =>
        rw [ofInt?_eq_some_iff] at hsquare
        rw [Option.bind_some, ih (k / 2) (by omega), hsquare]
        intro hzero
        rw [hsquare, hacc' hzero, mul_zero]

theorem powInParts?_eq_pow? (a b : Int64) : powInParts? a b = pow? a b.toInt.toNat := by
  have hsize : UInt32.size = 2 ^ 32 := rfl
  unfold powInParts?
  split
  · have hone : Int64.toInt 1 = 1 := rfl
    rw [squaring?_eq_ofInt? (by rw [hone]; simp), hone, one_mul, pow?_eq_ofInt?]
  · have hk : 64 ≤ b.toInt.toNat := by omega
    have hne : b.toInt.toNat ≠ 0 := by omega
    have hparity : b.toInt.toNat % 2 = 0 ↔ b.toInt % 2 = 0 := by omega
    unfold pow?
    simp only [hk, hne, hparity, if_true, if_false]
    split
    · next h => rcases h with rfl | rfl <;> rfl
    · next h =>
      rw [not_or] at h
      rw [if_neg h.1, if_neg h.2]

end Word

namespace Builtin

/-- The exact integer that a built-in stands for. -/
def exact : Builtin → Int → Int → Int
  | .add, a, b => a + b
  | .sub, a, b => a - b
  | .mul, a, b => a * b
  | .pow, a, b => a ^ b.toNat
  | .sumSquares, a, b => a ^ 2 + b ^ 2

/-- The answers of an arithmetic built-in: first the number of arguments is checked, then the first
argument and then the second one, and then the exact integer is returned if it is a word. -/
inductive Computes (op : Builtin) : List Term → Except EvalError Term → Prop where
  | arity {args : List Term} (hargs : args.length ≠ 2) :
      Computes op args (.error (.argumentArity op.symbol 2 args.length))
  | first {x y : Term} (hx : x.kind ≠ .integer) :
      Computes op [x, y] (.error (.argumentType op.symbol 0 "Integer" x.kind))
  | second {a : Int64} {y : Term} (hy : y.kind ≠ .integer) :
      Computes op [.int a, y] (.error (.argumentType op.symbol 1 "Integer" y.kind))
  | negative {a b : Int64} (hop : op = .pow) (hb : b.toInt < 0) :
      Computes op [.int a, .int b]
        (.error (.argumentType op.symbol 1 "non-negative Integer" .integer))
  | exact {a b n : Int64} (hb : op = .pow → 0 ≤ b.toInt)
      (hn : n.toInt = op.exact a.toInt b.toInt) : Computes op [.int a, .int b] (.ok (.int n))
  | overflow {a b : Int64} (hb : op = .pow → 0 ≤ b.toInt)
      (hrange : ¬Word.InRange (op.exact a.toInt b.toInt)) :
      Computes op [.int a, .int b] (.error (.overflow op.symbol))

variable {op : Builtin} {args : List Term} {r r' : Except EvalError Term}

theorem computes_exactly {a b : Int64} (hb : op = .pow → 0 ≤ b.toInt) :
    op.Computes [.int a, .int b] (exactly op.symbol (Word.ofInt? (op.exact a.toInt b.toInt))) := by
  cases h : Word.ofInt? (op.exact a.toInt b.toInt) with
  | none => exact .overflow hb (Word.ofInt?_eq_none_iff.mp h)
  | some n => exact .exact hb (Word.ofInt?_eq_some_iff.mp h)

/-- The checks of arguments are the same for all operations. -/
theorem computes_arithmetic {operate : Int64 → Int64 → Except EvalError Term}
    (h : ∀ a b, op.Computes [.int a, .int b] (operate a b)) (args : List Term) :
    op.Computes args (op.arithmetic operate args) := by
  match args with
  | [] => exact .arity (by simp)
  | [x] => exact .arity (by simp)
  | x :: y :: z :: rest => exact .arity (by simp)
  | [x, y] =>
    cases x with
    | int a =>
      cases y with
      | int b => exact h a b
      | _ => exact .second (by simp [Term.kind])
    | _ => exact .first (by simp [Term.kind])

theorem computes_apply (hop : op ≠ .sumSquares) (args : List Term) :
    op.Computes args (op.apply args) := by
  cases op with
  | sumSquares => exact absurd rfl hop
  | pow =>
    rw [apply]
    refine computes_arithmetic (fun a b => ?_) args
    have hneg : b < 0 ↔ b.toInt < 0 := Int64.lt_iff_toInt_lt
    split
    · next hb => exact .negative rfl (hneg.mp hb)
    · next hb =>
      rw [Word.powInParts?_eq_pow?, Word.pow?_eq_ofInt?]
      exact computes_exactly fun _ => Int.not_lt.mp (mt hneg.mpr hb)
  | _ =>
    rw [apply]
    refine computes_arithmetic (fun a b => ?_) args
    exact computes_exactly (by simp)

/-- The rules exclude one another. -/
theorem Computes.unique (h : op.Computes args r) (h' : op.Computes args r') : r = r' := by
  cases h <;> cases h' <;> grind [Word.inRange_toInt, Term.kind, Int64.toInt_inj]

/-- The arithmetic built-ins answer by the rules: with the exact integer, or with the reason why
there is none.  A power is found in parts, by repeated squaring with a check on every product or,
for large exponents, by their parity, and it is found exactly if it is a word. -/
theorem run_eq_iff_computes :
    (∀ op : Builtin, op ≠ .sumSquares → ∀ host env serial args r,
      (Impl.builtin op serial).run host env args = r ↔ op.Computes args r) ∧
    ∀ a b : Int64, 0 ≤ b.toInt →
      Word.powInParts? a b = Word.pow? a b.toInt.toNat ∧
        ∀ n : Int64, Word.powInParts? a b = some n ↔ n.toInt = a.toInt ^ b.toInt.toNat := by
  refine ⟨?_, ?_⟩
  · intro op hop host env serial args r
    have hcomputes : op.Computes args ((Impl.builtin op serial).run host env args) :=
      computes_apply hop args
    constructor
    · rintro rfl
      exact hcomputes
    · exact hcomputes.unique
  · intro a b _
    have hparts := Word.powInParts?_eq_pow? a b
    refine ⟨hparts, fun n => ?_⟩
    rw [hparts, Word.pow?_eq_ofInt?, Word.ofInt?_eq_some_iff]

/-- The least word is a power, which repeated squaring finds without leaving the range. -/
theorem run_pow_minValue :
    pow ≠ .sumSquares ∧ 0 ≤ Int64.toInt 63 ∧
      (Impl.builtin pow 0).run Host.bare Env.empty [.int (-2), .int 63] =
        .ok (.int Int64.minValue) ∧
      Word.powInParts? (-2) 63 = some Int64.minValue := by
  have hpow : Int64.minValue.toInt = Int64.toInt (-2) ^ (Int64.toInt 63).toNat := by decide
  refine ⟨by decide, by decide, ?_, ?_⟩
  · exact (run_eq_iff_computes.1 pow (by decide) _ _ _ _ _).mpr (.exact (fun _ => by decide) hpow)
  · exact ((run_eq_iff_computes.2 (-2) 63 (by decide)).2 _).mpr hpow

end Builtin

end Reduct
