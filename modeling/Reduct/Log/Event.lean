import Reduct.Eval.Error
import Reduct.Term.Display

/-!
# Events

What the interpreter reports about its own work.

## Main definitions

* `Level` — how detailed a report is.
* `Event` — one report.
* `Event.level`, `Event.message` — its level and its wording.
-/

namespace Reduct

/-- How detailed a report is, from the coarsest to the finest. -/
inductive Level where
  | warn
  | info
  | debug
  | trace
  deriving DecidableEq

namespace Level

/-- The word for a level. -/
def text : Level → String
  | .warn => "WARN"
  | .info => "INFO"
  | .debug => "DEBUG"
  | .trace => "TRACE"

/-- The place of a level in the order of detail. -/
def detail : Level → Nat
  | .warn => 0
  | .info => 1
  | .debug => 2
  | .trace => 3

/-- Whether a report of level `l` is shown to one who asks for detail up to `limit`. -/
def admits (limit l : Level) : Bool := l.detail ≤ limit.detail

end Level

/-- A report about the work of the interpreter. -/
inductive Event where
  /-- A text was read into so many nodes. -/
  | parsed (count : Nat)
  /-- So many terms are about to be reduced. -/
  | evaluating (count : Nat)
  /-- A top-level term failed. -/
  | failed (cause : EvalError)
  /-- A binding was replaced. -/
  | overwritten (name : String)
  /-- A function is about to run on reduced arguments. -/
  | invoking (f : Func) (args : List Term)
  /-- A term that is no function was called. -/
  | refused (callee : Term)
  /-- A reduction made its `count`-th step, to the given term. -/
  | stepped (count : Nat) (t : Term)
  /-- A reduction ended after `count` steps. -/
  | settled (count : Nat) (t : Term)
  /-- A line is about to be read from a terminal on which it cannot be edited. -/
  | unsupportedTerminal
  /-- The input of a dialogue ended. -/
  | inputClosed

namespace Event

/-- The level of an event. -/
def level : Event → Level
  | .inputClosed => .info
  | .stepped _ _ | .settled _ _ => .trace
  | _ => .debug

/-- The wording of an event. -/
def message : Event → String
  | .parsed count => "parsed " ++ toString count ++ " top-level expression(s)"
  | .evaluating count => "evaluating " ++ toString count ++ " expression(s)"
  | .failed cause => cause.diagnostic
  | .overwritten name => "binding `" ++ name ++ "` overwritten"
  | .invoking f args =>
    "invoking `" ++ f.name ++ "` with " ++ toString args.length ++ " argument(s)"
  | .refused callee => "refusing to call " ++ callee.inspect
  | .stepped count t => "step " ++ toString count ++ ": " ++ t.display
  | .settled count t => "final after " ++ toString count ++ " step(s): " ++ t.display
  | .unsupportedTerminal => "unsupported terminal"
  | .inputClosed => "input closed"

end Event

end Reduct
