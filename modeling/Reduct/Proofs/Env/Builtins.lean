import Reduct.Env.Builtins
import Reduct.Proofs.Except

/-!
# What built-ins return

The arithmetic built-ins return integers, and the sum of squares returns a call of two operators by
name.  The base environment binds the five of them and nothing else.

## Main definitions

* `Builtin.ofSymbol?` — the built-in that is bound to a name.

## Main results

* `Env.get?_base` — the bindings of the base environment.
* `Builtin.exists_int_of_apply`, `Builtin.sumSquares_apply_eq_ok` — what built-ins return.
-/

namespace Reduct

/-- The built-in that is bound to a name. -/
def Builtin.ofSymbol? (n : String) : Option Builtin := all.find? fun b => b.symbol = n

/-- The base environment binds the symbols of the built-ins and nothing else. -/
theorem Env.get?_base (n : String) :
    Env.base.get? n = (Builtin.ofSymbol? n).map fun b => .func (b.toFunc 0) := by
  have hbase : Env.base.bindings = Builtin.all.map fun b => (b.symbol, Term.func (b.toFunc 0)) := by
    rfl
  rw [Env.get?, hbase, Builtin.ofSymbol?]
  induction Builtin.all with
  | nil => rfl
  | cons b rest ih =>
    rw [List.map_cons, List.lookup_cons, List.find?_cons, ih]
    by_cases hn : b.symbol = n
    · simp [hn]
    · simp [hn, beq_eq_false_iff_ne.mpr (Ne.symm hn)]

theorem exists_int_of_exactly {name : String} {n? : Option Int64} {u : Term}
    (h : exactly name n? = .ok u) : ∃ n, u = .int n := by
  cases n? with
  | none => cases h
  | some n => exact ⟨n, (Except.ok.inj h).symm⟩

theorem eq_some_of_exactly {name : String} {n? : Option Int64} {n : Int64}
    (h : exactly name n? = .ok (.int n)) : n? = some n := by
  cases n? with
  | none => cases h
  | some m =>
    cases h
    rfl

theorem Builtin.exists_of_arithmetic {b : Builtin} {operate : Int64 → Int64 → Except EvalError Term}
    {vs : List Term} {u : Term} (h : b.arithmetic operate vs = .ok u) :
    ∃ x y, operate x y = .ok u := by
  obtain ⟨pair, -, hpair⟩ := exists_of_bind_eq_ok h
  exact ⟨pair.1, pair.2, hpair⟩

theorem Builtin.exists_int_of_apply {b : Builtin} (hb : b ≠ .sumSquares) {vs : List Term} {u : Term}
    (h : b.apply vs = .ok u) : ∃ n, u = .int n := by
  cases b with
  | sumSquares => exact absurd rfl hb
  | pow =>
    rw [apply] at h
    obtain ⟨x, y, hxy⟩ := exists_of_arithmetic h
    split at hxy
    · cases hxy
    · exact exists_int_of_exactly hxy
  | _ =>
    rw [apply] at h
    obtain ⟨x, y, hxy⟩ := exists_of_arithmetic h
    exact exists_int_of_exactly hxy

/-- Zero and one are their own squares. -/
theorem Builtin.pow_apply_two {n : Int64} (hn : n ∈ [(0 : Int64), 1]) :
    pow.apply [.int n, .int 2] = .ok (.int n) := by
  rcases List.mem_cons.mp hn with rfl | hn
  · rfl
  · cases List.mem_singleton.mp hn
    rfl

theorem Builtin.sumSquares_apply_eq_ok {vs : List Term} {u : Term}
    (h : sumSquares.apply vs = .ok u) :
    ∃ v w, vs = [v, w] ∧ u = .call (.name add.symbol) [squareOf v, squareOf w] := by
  match vs with
  | [v, w] => exact ⟨v, w, rfl, (Except.ok.inj h).symm⟩
  | [] => cases h
  | [v] => cases h
  | v :: w :: x :: rest => cases h

end Reduct
