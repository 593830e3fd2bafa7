import Reduct.Host.Basic

/-!
# Instruments

Ready-made host functions for looking at an interpreter from within a program: some count or name
what they are given, some hand on what they were made with, and two leave a note of each call.

## Main definitions

* `Instrument` — the functions, over the type of what they are made with.
* `Instrument.run` — what they do.
* `Registry` — the instruments that stand behind handles.
* `Registry.note?` — the note that a call leaves.
-/

namespace Reduct

/-- A ready-made host function.  Some are made with terms, or with descriptions of terms. -/
inductive Instrument (α : Type) where
  /-- The number of arguments. -/
  | count
  /-- The one argument, of which a note is left. -/
  | probe
  /-- The number of arguments, of which a note is left. -/
  | record
  /-- The given term. -/
  | const (value : α)
  /-- The call of the given callee with the arguments and some more. -/
  | forward (callee : α) (extra : List α)
  /-- The integer at the given position. -/
  | intAt (position : Nat)
  /-- The instrument's own name, if there are as many arguments as expected. -/
  | arity (expected : Nat)
  /-- The number of characters of a text. -/
  | length
  /-- The binding of the name that a text spells. -/
  | lookup
  /-- The name that a text spells. -/
  | intern
  /-- The word for the kind of the one argument. -/
  | kind
  /-- The names of the environment. -/
  | names

/-- The text of the first argument, if it is one. -/
def firstText? : List Term → Option String
  | t :: _ => t.asText?
  | [] => none

/-- What an instrument does when it is called under the given name. -/
def Instrument.run (name : String) : Instrument Term → Native
  | .count, _, args | .record, _, args => .ok (.int (Int64.ofNat args.length))
  | .probe, _, args =>
    match args with
    | [t] => .ok t
    | _ => .error (.argumentArity name 1 args.length)
  | .const value, _, _ => .ok value
  | .forward callee extra, _, args => .ok (.call callee (args ++ extra))
  | .intAt position, _, args => (expectInteger name args position).map .int
  | .arity expected, _, args => (expectArity name args expected).map fun _ => .str name
  | .length, _, args => .ok (.int (Int64.ofNat (((firstText? args).map String.length).getD 0)))
  | .lookup, env, args => env.lookup ((firstText? args).getD "")
  | .intern, _, args => .ok (.name ((firstText? args).getD ""))
  | .kind, _, args =>
    match args with
    | [t] => .ok (.str t.kind.text)
    | _ => .error (.argumentArity name 1 args.length)
  | .names, env, _ => .ok (.str (" ".intercalate env.names))

/-- The instruments that stand behind handles, with the names they were made under.  The handle of
an instrument is its place in the list. -/
structure Registry where
  entries : List (String × Instrument Term)

namespace Registry

/-- The registry without instruments. -/
def empty : Registry := ⟨[]⟩

/-- Adds an instrument and yields the function that stands for it. -/
def register (registry : Registry) (name : String) (instrument : Instrument Term) :
    Func × Registry :=
  (⟨name, .host registry.entries.length⟩, ⟨registry.entries ++ [(name, instrument)]⟩)

/-- The host that runs the instruments. -/
def host (registry : Registry) : Host := fun handle env args =>
  match registry.entries[handle]? with
  | some (name, instrument) => instrument.run name env args
  | none => Host.bare handle env args

/-- The note that a call of an instrument leaves. -/
def note? (registry : Registry) : Event → Option String
  | .invoking ⟨_, .host handle⟩ args =>
    match registry.entries[handle]?, args with
    | some (name, .probe), [t] => some (name ++ " " ++ t.display)
    | some (name, .record), args => some (" ".intercalate (name :: args.map Term.inspect))
    | _, _ => none
  | _ => none

end Registry

end Reduct
