import Reduct.Term.Basic

/-!
# Parts of terms

The leaves of a term and the depth of its calls.  What a term mentions is said through its leaves:
a name occurs in a term, or a function does, when it is one of them.

## Main definitions

* `Term.leaves` — the literals, names and functions of a term from left to right.
* `Term.nesting` — how deep calls are nested in a term.
* `Term.OnlyBuiltins` — every function in a term is a built-in.
-/

namespace Reduct.Term

@[elab_as_elim]
theorem inductionOn {motive : Term → Prop} (t : Term) (int : ∀ n, motive (.int n))
    (str : ∀ s, motive (.str s)) (name : ∀ n, motive (.name n)) (func : ∀ f, motive (.func f))
    (call : ∀ callee args, motive callee → (∀ arg ∈ args, motive arg) →
      motive (.call callee args)) : motive t := by
  match t with
  | .int n => exact int n
  | .str s => exact str s
  | .name n => exact name n
  | .func f => exact func f
  | .call callee args =>
    exact call callee args (inductionOn callee int str name func call)
      fun arg _ => inductionOn arg int str name func call
termination_by sizeOf t
decreasing_by
  · simp only [Term.call.sizeOf_spec]
    omega
  · have hlt := List.sizeOf_lt_of_mem ‹arg ∈ args›
    simp only [Term.call.sizeOf_spec]
    omega

mutual

/-- The leaves of a term from left to right. -/
def leaves : Term → List Term
  | .call callee args => leaves callee ++ leavesOfAll args
  | t => [t]

/-- The leaves of several terms from left to right. -/
def leavesOfAll : List Term → List Term
  | [] => []
  | t :: rest => leaves t ++ leavesOfAll rest

end

theorem mem_leavesOfAll {ts : List Term} {leaf : Term} :
    leaf ∈ leavesOfAll ts ↔ ∃ t ∈ ts, leaf ∈ t.leaves := by
  induction ts with
  | nil => simp [leavesOfAll]
  | cons t rest ih => simp [leavesOfAll, ih]

theorem mem_leaves_call {callee leaf : Term} {args : List Term} :
    leaf ∈ (Term.call callee args).leaves ↔
      leaf ∈ callee.leaves ∨ ∃ arg ∈ args, leaf ∈ arg.leaves := by
  rw [leaves, List.mem_append, mem_leavesOfAll]

mutual

/-- How deep calls are nested in a term. -/
def nesting : Term → Nat
  | .call callee args => max (nesting callee) (nestingOfAll args) + 1
  | _ => 0

/-- How deep calls are nested in several terms. -/
def nestingOfAll : List Term → Nat
  | [] => 0
  | t :: rest => max (nesting t) (nestingOfAll rest)

end

theorem nestingOfAll_le_iff {ts : List Term} {depth : Nat} :
    nestingOfAll ts ≤ depth ↔ ∀ t ∈ ts, t.nesting ≤ depth := by
  induction ts with
  | nil => simp [nestingOfAll]
  | cons t rest ih =>
    rw [nestingOfAll, Nat.max_le, ih]
    simp

theorem nesting_call_le_iff {callee : Term} {args : List Term} {depth : Nat} :
    (Term.call callee args).nesting ≤ depth + 1 ↔
      callee.nesting ≤ depth ∧ ∀ arg ∈ args, arg.nesting ≤ depth := by
  rw [nesting, Nat.add_le_add_iff_right, Nat.max_le, nestingOfAll_le_iff]

/-- Every function that occurs in a term is a built-in, under whatever name it is shown. -/
def OnlyBuiltins (t : Term) : Prop :=
  ∀ f, .func f ∈ t.leaves → ∃ op serial, f.impl = .builtin op serial

theorem onlyBuiltins_call {callee : Term} {args : List Term} :
    (Term.call callee args).OnlyBuiltins ↔
      callee.OnlyBuiltins ∧ ∀ arg ∈ args, arg.OnlyBuiltins := by
  simp only [OnlyBuiltins, mem_leaves_call]
  constructor
  · intro h
    exact ⟨fun f hf => h f (.inl hf), fun arg harg f hf => h f (.inr ⟨arg, harg, hf⟩)⟩
  · rintro ⟨hcallee, hargs⟩ f (hf | ⟨arg, harg, hf⟩)
    · exact hcallee f hf
    · exact hargs arg harg f hf

end Reduct.Term
