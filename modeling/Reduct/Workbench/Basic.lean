import Reduct.Session
import Reduct.Workbench.Spec

/-!
# Workbenches

A workbench holds several sessions side by side, of which one is current, together with slots in
which terms are kept and the instruments that were made.  It carries out requests one at a time.

## Main definitions

* `Workbench` — the sessions, slots and instruments.
* `Request`, `Reply` — what can be asked of a workbench, and its answers.
* `Workbench.perform` — carries out a request.
* `Workbench.notes` — the notes that instruments left during a request.
-/

namespace Reduct

/-- Sessions, slots and instruments. -/
structure Workbench where
  /-- The environments of the sessions. -/
  sessions : List Env
  /-- The number of the current session. -/
  current : Nat
  /-- The terms in slots, the latest first. -/
  slots : List (String × Term)
  /-- The instruments that were made. -/
  registry : Registry
  /-- The number of registrations of the built-ins so far. -/
  registrations : Nat

/-- What can be asked of a workbench. -/
inductive Request where
  /-- Bind a name to a term. -/
  | define (name : String) (term : Spec)
  /-- Bind a name to a new function that runs an instrument. -/
  | defineNative (name : String) (instrument : Instrument Spec)
  /-- Bind the built-ins. -/
  | loadBuiltins
  /-- Bind several names in order. -/
  | extend (pairs : List (String × Spec))
  /-- Start a session that binds these names only. -/
  | ofPairs (pairs : List (String × Spec))
  /-- Start a session with the bindings of the current one. -/
  | fork
  /-- Turn to another session. -/
  | use (session : Nat)
  /-- Show a binding. -/
  | get (name : String)
  /-- Look a name up. -/
  | lookup (name : String)
  /-- Tell whether a name is bound. -/
  | contains (name : String)
  /-- Show all bindings. -/
  | state
  /-- Keep a term in a slot. -/
  | save (slot : String) (term : Spec)
  /-- Compare two terms. -/
  | equal (left right : Spec)
  /-- Evaluate every term of a text. -/
  | evalSource (text : String)
  /-- Evaluate a text up to the first failure. -/
  | evalAll (text : String)
  /-- Evaluate a term. -/
  | evalTerm (term : Spec)
  /-- Reduce a term. -/
  | reduce (term : Spec)
  /-- Reduce several terms up to the first failure. -/
  | reduceAll (terms : List Spec)
  /-- Call a term as it stands. -/
  | call (callee : Spec) (args : List Spec)
  /-- Make up to so many transitions. -/
  | step (term : Spec) (count : Nat)

/-- The answers of a workbench. -/
inductive Reply where
  | defined (replaced : Option Term) (size : Nat)
  | size (size : Nat)
  | names (names : List String)
  | started (session : Nat) (names : List String)
  | turned (session : Nat) (size : Nat)
  | binding (term : Option Term)
  | outcome (outcome : Outcome)
  | bound (value : Bool)
  | bindings (env : Env)
  | saved (term : Term)
  | equal (value : Bool)
  | evaluated (outcomes : Except ReadError (List Outcome))
  | values (values : Except Rejection (List Term))
  | reduced (values : Except Stop (List Term))
  | transitions (steps : List (Except Stop Step))

namespace Workbench

/-- A workbench with one session over the given environment, in which the built-ins were registered
at most once. -/
def ofEnv (env : Env) : Workbench := ⟨[env], 0, [], Registry.empty, 1⟩

/-- The environment of the current session. -/
def env (bench : Workbench) : Env := bench.sessions.getD bench.current Env.empty

/-- The bench with another environment for the current session. -/
def withEnv (bench : Workbench) (env : Env) : Workbench :=
  { bench with sessions := bench.sessions.set bench.current env }

/-- The current session. -/
def session (bench : Workbench) : Session := { env := bench.env, host := bench.registry.host }

/-- The number of bindings of the current session. -/
def size (bench : Workbench) : Nat := bench.env.size

/-- The terms that descriptions can refer to. -/
def shelf (bench : Workbench) : Shelf := ⟨bench.env, bench.slots⟩

/-- Carries out a construction on the bench. -/
def construct {α : Type} (bench : Workbench) (build : Shelf → Build α) :
    Traced Refusal (α × Workbench) := do
  let (a, registry) ← (build bench.shelf).run bench.registry
  return (a, { bench with registry })

/-- Makes the term of each pair. -/
def buildPairs (pairs : List (String × Spec)) (shelf : Shelf) : Build (List (String × Term)) := do
  let terms ← Spec.buildAll shelf (pairs.map Prod.snd)
  return (pairs.map Prod.fst).zip terms

/-- Puts a logged change of the current environment into effect. -/
def change (bench : Workbench) (env : Logged Env) : Traced Refusal Workbench := do
  return bench.withEnv (← ExceptT.lift env)

/-- Starts a new session over the given environment and turns to it. -/
def start (bench : Workbench) (env : Env) : Workbench :=
  { bench with sessions := bench.sessions ++ [env], current := bench.sessions.length }

/-- Carries out a request: the answer and the bench afterwards. -/
def perform (bench : Workbench) : Request → Traced Refusal (Reply × Workbench)
  | .define name spec => do
    let (t, bench) ← bench.construct spec.build
    let (replaced, env) ← ExceptT.lift (bench.env.define name t)
    return (.defined replaced env.size, bench.withEnv env)
  | .defineNative name instrument => do
    let (f, bench) ← bench.construct fun shelf => do
      Build.func name (← Spec.buildInstrument shelf instrument)
    let bench ← bench.change (bench.env.defineFunc f)
    return (.size bench.size, bench)
  | .loadBuiltins => do
    let bench ← bench.change (bench.env.loadBuiltins bench.registrations)
    return (.size bench.size, { bench with registrations := bench.registrations + 1 })
  | .extend pairs => do
    let (pairs, bench) ← bench.construct (buildPairs pairs)
    let bench ← bench.change (bench.env.extend pairs)
    return (.names bench.env.names, bench)
  | .ofPairs pairs => do
    let (pairs, bench) ← bench.construct (buildPairs pairs)
    let env ← ExceptT.lift (Env.ofPairs pairs)
    let bench := bench.start env
    return (.started bench.current env.names, bench)
  | .fork => do
    let bench := bench.start bench.env
    return (.turned bench.current bench.size, bench)
  | .use session => do
    match bench.sessions[session]? with
    | some env => return (.turned session env.size, { bench with current := session })
    | none => throw (.noSession session)
  | .get name => return (.binding (bench.env.get? name), bench)
  | .lookup name => return (.outcome ((bench.env.lookup name).mapError .failed), bench)
  | .contains name => return (.bound (bench.env.contains name), bench)
  | .state => return (.bindings bench.env, bench)
  | .save slot spec => do
    let (t, bench) ← bench.construct spec.build
    return (.saved t, { bench with slots := (slot, t) :: bench.slots })
  | .equal left right => do
    let (a, bench) ← bench.construct left.build
    let (b, bench) ← bench.construct right.build
    return (.equal (a == b), bench)
  | .evalSource text => do
    let outcomes ← ExceptT.lift (bench.session.evalSource text).run
    return (.evaluated outcomes, bench)
  | .evalAll text => do
    let values ← ExceptT.lift (bench.session.evalAll text).run
    return (.values values, bench)
  | .evalTerm spec => do
    let (t, bench) ← bench.construct spec.build
    let outcome ← ExceptT.lift (bench.session.evalTerm t)
    return (.outcome outcome, bench)
  | .reduce spec => do
    let (t, bench) ← bench.construct spec.build
    let outcome ← ExceptT.lift (bench.session.reduce t).run
    return (.outcome outcome, bench)
  | .reduceAll specs => do
    let (ts, bench) ← bench.construct fun shelf => Spec.buildAll shelf specs
    let values ← ExceptT.lift (bench.session.reduceAll ts).run
    return (.reduced values, bench)
  | .call callee args => do
    let (callee, bench) ← bench.construct callee.build
    let (args, bench) ← bench.construct fun shelf => Spec.buildAll shelf args
    let outcome ← ExceptT.lift (bench.session.invoke callee args).run
    return (.outcome outcome, bench)
  | .step spec count => do
    let (t, bench) ← bench.construct spec.build
    let session := bench.session
    let steps ← ExceptT.lift (t.transitions session.host session.env session.budget count)
    return (.transitions steps, bench)

/-- The notes that instruments left, in the order of their calls. -/
def notes (bench : Workbench) (events : List Event) : List String :=
  events.filterMap bench.registry.note?

end Workbench

end Reduct
