import Reduct.Host.Basic

/-!
# One step of reduction

What a single transition does to a term.  Reducing a call needs the values of its callee and of its
arguments; how these are found is left open here and given as a parameter.

## Main definitions

* `Stop` — why a reduction ends without a value.
* `Run` — the reductions themselves: logged computations that can stop.
* `Term.invoke` — calls a term with arguments that have not been reduced.
* `Term.step` — performs one transition.
-/

namespace Reduct

/-- Why a reduction ends without a value. -/
inductive Stop where
  /-- The reduction failed. -/
  | failed (cause : EvalError)
  /-- The reduction was cut off before it came to an end. -/
  | exhausted
  deriving DecidableEq

/-- The one-line wording of a stop. -/
def Stop.diagnostic : Stop → String
  | .failed cause => cause.diagnostic
  | .exhausted => "reduction budget exhausted"

/-- A reduction: a logged computation that can stop. -/
abbrev Run := Traced Stop

/-- Turns a failure into a stop. -/
def Run.ofExcept {α : Type} (r : Except EvalError α) : Run α := Traced.ofExcept (r.mapError .failed)

/-- The outcome of one transition. -/
inductive Step where
  /-- The term is its own value. -/
  | final (t : Term)
  /-- The term was replaced by another one. -/
  | replaced (t : Term)

namespace Step

/-- The term that a transition leads to. -/
def term : Step → Term
  | .final t | .replaced t => t

/-- Whether a transition reports a value. -/
def isFinal : Step → Bool
  | .final _ => true
  | .replaced _ => false

end Step

namespace Term

/-- Calls a term with arguments that have not been reduced.  A function reduces its arguments from
left to right and then runs; every other term refuses the call and leaves the arguments alone. -/
def invoke (host : Host) (env : Env) (value : Term → Run Term) : Term → List Term → Run Term
  | .func f, args => do
    let args ← args.mapM value
    Traced.emit (.invoking f args)
    Run.ofExcept (f.impl.run host env args)
  | callee, _ => do
    Traced.emit (.refused callee)
    throw (.failed (.notCallable callee.kind))

/-- Performs one transition.  A name is replaced by its binding, and a call by what its callee
returns once the callee has been reduced; other terms are values. -/
def step (host : Host) (env : Env) (value : Term → Run Term) : Term → Run Step
  | .name n => do return .replaced (← Run.ofExcept (env.lookup n))
  | .call callee args => do
    let callee ← value callee
    return .replaced (← callee.invoke host env value args)
  | t => return .final t

end Term

end Reduct
