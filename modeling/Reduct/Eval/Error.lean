import Reduct.Term.Basic

/-!
# Failed reductions

Why the reduction of a term fails.

## Main definitions

* `EvalError` — the cause of a failure.
* `EvalError.diagnostic` — its kind and its wording in one line.
-/

namespace Reduct

/-- The cause of a failed reduction. -/
inductive EvalError where
  /-- A name has no binding. -/
  | unboundName (name : String)
  /-- The callee of a call is a term of the given kind, which is no function. -/
  | notCallable (kind : Kind)
  /-- An argument is of the wrong kind; positions count from zero. -/
  | argumentType (function : String) (position : Nat) (expected : String) (got : Kind)
  /-- A call has the wrong number of arguments. -/
  | argumentArity (function : String) (expected got : Nat)
  /-- A result is not a 64-bit integer. -/
  | overflow (function : String)
  deriving DecidableEq

namespace EvalError

/-- The word for the kind of a failure. -/
def label : EvalError → String
  | .unboundName _ => "UnboundNameError"
  | .notCallable _ => "NotCallableError"
  | .argumentType _ _ _ _ => "ArgumentTypeError"
  | .argumentArity _ _ _ => "ArgumentArityError"
  | .overflow _ => "OverflowError"

/-- The wording of a failure. -/
def message : EvalError → String
  | .unboundName name => "unbound name: " ++ name
  | .notCallable kind => "entity of kind " ++ kind.text ++ " is not callable"
  | .argumentType function position expected got =>
    function ++ ": argument " ++ toString position ++ " expected " ++ expected ++
      ", got " ++ got.text
  | .argumentArity function expected got =>
    function ++ ": expected " ++ toString expected ++ " arguments, got " ++ toString got
  | .overflow function => function ++ ": integer overflow"

/-- The kind and the wording of a failure in one line. -/
def diagnostic (e : EvalError) : String := e.label ++ ": " ++ e.message

end EvalError

end Reduct
