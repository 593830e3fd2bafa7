import Reduct.Eval.Step

/-!
# Reduction

A term is reduced by repeating single transitions until one reports a value.  Environments may be
cyclic, so reduction need not come to an end; it is therefore run within a budget.

## Main definitions

* `Budget` — how deep reductions may be nested and how many transitions each may make.
* `drive` — repeats a transition until it reports a value.
* `Term.reduceWithin` — reduction within a budget.
* `Term.reduce` — reduction under the budget of a session.
* `Term.transitions` — the first few transitions of a term.

## Design notes

The two parts of the budget are bounds, not costs: nested reductions share neither.  A reduction
that comes to an end within a budget has the same result and the same events within every larger
one.
-/

namespace Reduct

/-- Bounds on a reduction. -/
structure Budget where
  /-- How many reductions may be open at once. -/
  depth : Nat
  /-- How many transitions each of them may make, the final one included. -/
  steps : Nat
  deriving DecidableEq

/-- A budget that no computation can use up in practice. -/
def Budget.ample : Budget := ⟨Nat.pow 2 62, Nat.pow 2 62⟩

/-- Repeats a transition until it reports a value.  `taken` counts the replacements so far. -/
def drive (step : Term → Run Step) : Nat → Nat → Term → Run Term
  | 0, _, _ => throw .exhausted
  | left + 1, taken, t => do
    match ← step t with
    | .final v =>
      Traced.emit (.settled taken v)
      return v
    | .replaced u =>
      Traced.emit (.stepped (taken + 1) u)
      drive step left (taken + 1) u

namespace Term

/-- Reduces a term with at most `depth` reductions open at once, each of at most `steps`
transitions. -/
def reduceWithin (host : Host) (env : Env) (steps : Nat) : Nat → Term → Run Term
  | 0, _ => throw .exhausted
  | depth + 1, t => drive (step host env (reduceWithin host env steps depth)) steps 0 t

/-- Reduces a term within a budget. -/
def reduce (host : Host) (env : Env) (budget : Budget) (t : Term) : Run Term :=
  t.reduceWithin host env budget.steps budget.depth

/-- Reduces several terms in order and stops at the first one without a value. -/
def reduceAll (host : Host) (env : Env) (budget : Budget) (ts : List Term) : Run (List Term) :=
  ts.mapM (reduce host env budget)

/-- Up to `count` transitions of a term.  The list ends with the first one that is final or has no
outcome. -/
def transitions (host : Host) (env : Env) (budget : Budget) :
    Nat → Term → Logged (List (Except Stop Step))
  | 0, _ => return []
  | count + 1, t => do
    match ← (t.step host env (reduce host env budget)).run with
    | .error stop => return [.error stop]
    | .ok (.final v) => return [.ok (.final v)]
    | .ok (.replaced u) => return .ok (.replaced u) :: (← transitions host env budget count u)

end Term

end Reduct
