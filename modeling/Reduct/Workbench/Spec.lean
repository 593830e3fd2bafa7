import Reduct.Host.Instrument
import Reduct.Term.Read

/-!
# Descriptions of terms

A term can be described piece by piece: by its value, by a source text, by a place where a term is
already kept, or as a new instrument.

## Main definitions

* `Spec` — a description.
* `Refusal` — why a description describes nothing.
* `Spec.build` — makes the term and registers the instruments on the way.
-/

namespace Reduct

/-- A description of a term. -/
inductive Spec where
  | int (value : Int64)
  | str (text : String)
  | name (text : String)
  | call (callee : Spec) (args : List Spec)
  /-- The first term of a source text. -/
  | source (text : String)
  /-- The term bound to a name. -/
  | bound (name : String)
  /-- The term kept in a slot. -/
  | slot (key : String)
  /-- A new function that runs an instrument. -/
  | native (name : String) (instrument : Instrument Spec)

/-- Why a request cannot be carried out. -/
inductive Refusal where
  /-- A source text is no program. -/
  | unreadable (cause : ReadError)
  /-- A source text holds no term. -/
  | blank
  /-- A name has no binding to copy. -/
  | unbound (name : String)
  /-- A slot is empty. -/
  | emptySlot (key : String)
  /-- There is no session of the given number. -/
  | noSession (index : Nat)

/-- The wording of a refusal. -/
def Refusal.message : Refusal → String
  | .unreadable cause => cause.message
  | .blank => "no expression in source"
  | .unbound name => "nothing bound to " ++ name
  | .emptySlot key => "nothing in slot " ++ key
  | .noSession index => "no session " ++ toString index

/-- Where descriptions find the terms that are already there. -/
structure Shelf where
  env : Env
  slots : List (String × Term)

/-- A construction: it may add instruments, report events and be refused. -/
abbrev Build := StateT Registry (Traced Refusal)

/-- The given term, or the refusal for want of one. -/
def Build.need {α : Type} (refusal : Refusal) : Option α → Build α
  | some a => pure a
  | none => throw refusal

/-- Makes a new function that runs an instrument. -/
def Build.func (name : String) (instrument : Instrument Term) : Build Func := do
  let (f, registry) := (← get).register name instrument
  set registry
  return f

/-- Reads a source text and keeps its first term. -/
def Build.firstOf (text : String) : Build Term := do
  match ← StateT.lift ((Term.readAll text).adapt .unreadable) with
  | t :: _ => return t
  | [] => throw .blank

mutual

/-- Makes the term that is described. -/
def Spec.build (shelf : Shelf) : Spec → Build Term
  | .int value => pure (.int value)
  | .str text => pure (.str text)
  | .name text => pure (.name text)
  | .call callee args => do
    let callee ← callee.build shelf
    let args ← Spec.buildAll shelf args
    return .call callee args
  | .source text => Build.firstOf text
  | .bound key => Build.need (.unbound key) (shelf.env.get? key)
  | .slot key => Build.need (.emptySlot key) (shelf.slots.lookup key)
  | .native label instrument => do
    let instrument ← Spec.buildInstrument shelf instrument
    let f ← Build.func label instrument
    return .func f

/-- Makes the terms that are described, in order. -/
def Spec.buildAll (shelf : Shelf) : List Spec → Build (List Term)
  | [] => pure []
  | spec :: rest => do
    let t ← spec.build shelf
    let ts ← Spec.buildAll shelf rest
    return t :: ts

/-- Makes the terms that an instrument is made with. -/
def Spec.buildInstrument (shelf : Shelf) : Instrument Spec → Build (Instrument Term)
  | .const value => do return .const (← value.build shelf)
  | .forward callee extra => do
    let callee ← callee.build shelf
    let extra ← Spec.buildAll shelf extra
    return .forward callee extra
  | .count => pure .count
  | .probe => pure .probe
  | .record => pure .record
  | .intAt position => pure (.intAt position)
  | .arity expected => pure (.arity expected)
  | .length => pure .length
  | .lookup => pure .lookup
  | .intern => pure .intern
  | .kind => pure .kind
  | .names => pure .names

end

end Reduct
