import Reduct.Eval.Reduce
import Reduct.Term.Read

/-!
# Sessions

A session evaluates programs against one environment.  Every top-level term is reduced on its own,
so one that fails does not keep the next one from being reduced.

## Main definitions

* `Session` — an environment with its host and its budget.
* `Session.evalTerm` — the outcome of one term.
* `Session.evalSource` — the outcomes of all terms of a text.
* `Session.evalAll` — the values of all terms of a text, if every one has a value.
-/

namespace Reduct

/-- A value, or why there is none. -/
abbrev Outcome := Except Stop Term

/-- An environment with what is needed to reduce terms in it. -/
structure Session where
  env : Env
  host : Host := Host.bare
  budget : Budget := Budget.ample

/-- Why a text has no list of values. -/
inductive Rejection where
  /-- The text is no program. -/
  | unread (cause : ReadError)
  /-- A term of the program has no value. -/
  | stopped (cause : Stop)
  deriving DecidableEq

namespace Session

/-- The session over the built-in functions. -/
def base : Session := { env := Env.base }

/-- Reduces a term in the environment of a session. -/
def reduce (s : Session) (t : Term) : Run Term := t.reduce s.host s.env s.budget

/-- Calls a term with arguments in the environment of a session. -/
def invoke (s : Session) (callee : Term) (args : List Term) : Run Term :=
  callee.invoke s.host s.env s.reduce args

/-- Reduces one term and reports its failure. -/
def evalTerm (s : Session) (t : Term) : Logged Outcome := do
  let outcome ← (s.reduce t).run
  match outcome with
  | .error (.failed cause) => Logged.emit (.failed cause)
  | _ => pure ()
  return outcome

/-- Reads a text and evaluates each of its terms.  A text that is no program evaluates nothing. -/
def evalSource (s : Session) (source : String) : Traced ReadError (List Outcome) := do
  let terms ← Term.readAll source
  Traced.emit (.evaluating terms.length)
  ExceptT.lift (terms.mapM s.evalTerm)

/-- Reduces several terms in order and stops at the first one without a value. -/
def reduceAll (s : Session) (ts : List Term) : Run (List Term) :=
  Term.reduceAll s.host s.env s.budget ts

/-- Reads a text and reduces its terms in order, up to the first one without a value. -/
def evalAll (s : Session) (source : String) : Traced Rejection (List Term) := do
  let terms ← (Term.readAll source).adapt .unread
  (s.reduceAll terms).adapt .stopped

end Session

end Reduct
