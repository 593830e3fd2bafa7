import Mathlib.Logic.Relation
import Mathlib.Order.WellFoundedSet
import Reduct.Proofs.Env.History
import Reduct.Proofs.Term.Parts

/-!
# Dependencies between names

Which names the reduction of a name can come to.  A name depends on the names in its binding, and on
the two operators that the sum of squares falls back on if that function occurs in its binding.

## Main definitions

* `Term.HoldsSumSquares` — the sum of squares occurs in a term.
* `Term.Uses` — the names that a term refers to, the hidden operators included.
* `Env.Depends` — the names that a binding refers to.
* `Env.Acyclic` — no name depends on itself, directly or through others.

## Main results

* `Env.Acyclic.wellFounded` — without cycles, every chain of dependencies comes to an end.
* `Env.acyclic_base` — the base environment has no cycles.
-/

namespace Reduct

open Relation

/-- The sum of squares occurs in a term, under whatever name it is shown. -/
def Term.HoldsSumSquares (t : Term) : Prop :=
  ∃ f serial, .func f ∈ t.leaves ∧ f.impl = .builtin .sumSquares serial

/-- The names that a term refers to.  The sum of squares brings its operators along. -/
def Term.Uses (t : Term) (n : String) : Prop :=
  .name n ∈ t.leaves ∨ (t.HoldsSumSquares ∧ (n = Builtin.add.symbol ∨ n = Builtin.pow.symbol))

namespace Env

/-- The binding of the first name refers to the second one. -/
def Depends (env : Env) (n m : String) : Prop := ∃ t, env.get? n = some t ∧ t.Uses m

/-- No name depends on itself, directly or through others. -/
def Acyclic (env : Env) : Prop := ∀ n, ¬TransGen env.Depends n n

/-- Every function in the bindings is a built-in. -/
def OnlyBuiltins (env : Env) : Prop := ∀ n t, env.get? n = some t → t.OnlyBuiltins

theorem mem_names_of_get? {env : Env} {n : String} {t : Term} (h : env.get? n = some t) :
    n ∈ env.names :=
  isSome_get?_iff.mp (Option.isSome_of_mem h)

theorem depends_insert {env : Env} {k n m : String} {t : Term} :
    (env.insert k t).Depends n m ↔ (n = k ∧ t.Uses m) ∨ (n ≠ k ∧ env.Depends n m) := by
  simp only [Depends, get?_insert]
  by_cases hn : n = k
  · simp [hn]
  · simp [hn]

theorem OnlyBuiltins.insert {env : Env} {t : Term} (henv : env.OnlyBuiltins) (ht : t.OnlyBuiltins)
    (k : String) : (env.insert k t).OnlyBuiltins := by
  intro n u hu
  rw [get?_insert] at hu
  split at hu
  · cases hu
    exact ht
  · exact henv n u hu

/-- A numbering that goes down along every edge rules out cycles. -/
theorem irrefl_of_rank {edge : String → String → Prop} (rank : String → Nat)
    (h : ∀ n m, edge n m → rank m < rank n) (n : String) : ¬TransGen edge n n := by
  have hlt : ∀ n m, TransGen edge n m → rank m < rank n := by
    intro n m hnm
    induction hnm with
    | single hedge => exact h _ _ hedge
    | tail _ hedge ih => exact Nat.lt_trans (h _ _ hedge) ih
  intro hn
  exact Nat.lt_irrefl _ (hlt n n hn)

theorem acyclic_of_rank {env : Env} (rank : String → Nat)
    (h : ∀ n m, env.Depends n m → rank m < rank n) : env.Acyclic :=
  irrefl_of_rank rank h

/-- A relation between names that starts at bound names only and has no cycles is well-founded. -/
theorem wellFounded_of_irrefl (env : Env) {edge : String → String → Prop}
    (hedge : ∀ n m, edge n m → n ∈ env.names) (h : ∀ n, ¬TransGen edge n n) :
    WellFounded fun m n => TransGen edge n m := by
  have hbound : ∀ {n m}, TransGen edge n m → n ∈ env.names := by
    intro n m hnm
    obtain ⟨k, hnk, -⟩ := TransGen.head'_iff.mp hnm
    exact hedge n k hnk
  have hfinite : {n | n ∈ env.names}.Finite := env.names.finite_toSet
  have hstrict : IsStrictOrder String fun m n => TransGen edge n m :=
    { irrefl := h, trans := fun _ _ _ hab hbc => hbc.trans hab }
  constructor
  intro n
  -- No edge starts at an unbound name, so only the finitely many bound names need an argument.
  have hunbound : ∀ m, m ∉ env.names → Acc (fun m n => TransGen edge n m) m :=
    fun m hm => .intro m fun k hk => absurd (hbound hk) hm
  by_cases hn : n ∈ env.names
  · refine hfinite.wellFoundedOn.induction (r := fun m n => TransGen edge n m) hn ?_
    intro m _ ih
    refine .intro m fun k hk => ?_
    by_cases hk' : k ∈ env.names
    · exact ih k hk' hk
    · exact hunbound k hk'
  · exact hunbound n hn

/-- Without cycles, every chain of dependencies comes to an end. -/
theorem Acyclic.wellFounded {env : Env} (h : env.Acyclic) :
    WellFounded fun m n => TransGen env.Depends n m := by
  refine env.wellFounded_of_irrefl ?_ h
  rintro n m ⟨t, ht, -⟩
  exact mem_names_of_get? ht

theorem onlyBuiltins_base : base.OnlyBuiltins := by
  intro n t ht
  rw [get?_base] at ht
  obtain ⟨b, -, rfl⟩ := Option.map_eq_some_iff.mp ht
  intro f hf
  cases List.mem_singleton.mp hf
  exact ⟨b, 0, rfl⟩

/-- In the base environment only the sum of squares depends on others. -/
theorem eq_of_depends_base {n m : String} (h : base.Depends n m) :
    n = Builtin.sumSquares.symbol ∧ (m = Builtin.add.symbol ∨ m = Builtin.pow.symbol) := by
  obtain ⟨t, ht, huses⟩ := h
  rw [get?_base] at ht
  obtain ⟨b, hb, rfl⟩ := Option.map_eq_some_iff.mp ht
  have hsymbol : b.symbol = n := by simpa using List.find?_some hb
  rcases huses with hname | ⟨⟨f, serial, hf, himpl⟩, hm⟩
  · cases List.mem_singleton.mp hname
  · cases List.mem_singleton.mp hf
    cases himpl
    exact ⟨hsymbol.symm, hm⟩

theorem acyclic_base : base.Acyclic := by
  refine acyclic_of_rank (fun n => if n = Builtin.sumSquares.symbol then 1 else 0) ?_
  intro n m h
  obtain ⟨rfl, rfl | rfl⟩ := eq_of_depends_base h <;> decide

end Env

end Reduct
