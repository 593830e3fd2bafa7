import Reduct.Log.Event

/-!
# Logged computations

A computation that yields a value and reports events on the way.

## Main definitions

* `Logged` — a value with the events of its computation, in order.
* `emit` — reports one event.
* `Traced` — a logged computation that can fail; the events before a failure are kept.

## Main results

* `Logged` is a lawful monad: sequencing appends the events.
-/

namespace Reduct

/-- A value with the events of its computation, the earliest first. -/
structure Logged (α : Type) where
  value : α
  events : List Event

namespace Logged

@[ext]
theorem ext {α : Type} {x y : Logged α} (hv : x.value = y.value) (he : x.events = y.events) :
    x = y := by
  cases x; cases y; cases hv; cases he; rfl

instance : Monad Logged where
  pure a := ⟨a, []⟩
  bind x f :=
    let y := f x.value
    ⟨y.value, x.events ++ y.events⟩

variable {α β : Type}

@[simp]
theorem value_pure (a : α) : (pure a : Logged α).value = a := rfl

@[simp]
theorem events_pure (a : α) : (pure a : Logged α).events = [] := rfl

@[simp]
theorem value_bind (x : Logged α) (f : α → Logged β) : (x >>= f).value = (f x.value).value := rfl

@[simp]
theorem events_bind (x : Logged α) (f : α → Logged β) :
    (x >>= f).events = x.events ++ (f x.value).events := rfl

instance : LawfulMonad Logged :=
  LawfulMonad.mk' Logged
    (fun x => by ext1 <;> simp [Functor.map])
    (fun a f => by ext1 <;> simp)
    (fun x f g => by ext1 <;> simp)

/-- Reports one event. -/
def emit (e : Event) : Logged Unit := ⟨(), [e]⟩

@[simp]
theorem value_emit (e : Event) : (emit e).value = () := rfl

@[simp]
theorem events_emit (e : Event) : (emit e).events = [e] := rfl

/-- The wording of the events that are shown at the given level of detail, each made into a line. -/
def report (limit : Level) (line : Event → String) (x : Logged α) : List String :=
  (x.events.filter fun e => limit.admits e.level).map line

end Logged

/-- A logged computation that can fail.  The events before a failure are kept. -/
abbrev Traced (ε : Type) := ExceptT ε Logged

namespace Traced

variable {ε α β : Type}

/-- What a computation yields. -/
def result (x : Traced ε α) : Except ε α := x.run.value

/-- What a computation reports. -/
def events (x : Traced ε α) : List Event := x.run.events

/-- Two computations are equal when they yield the same and report the same. -/
theorem ext {x y : Traced ε α} (hr : x.result = y.result) (he : x.events = y.events) : x = y :=
  ExceptT.ext (Logged.ext hr he)

/-- Reports one event. -/
def emit (e : Event) : Traced ε Unit := ExceptT.lift (Logged.emit e)

/-- The computation that yields or fails as given, without a report. -/
def ofExcept (r : Except ε α) : Traced ε α := ExceptT.mk (pure r)

@[simp]
theorem result_pure (a : α) : (pure a : Traced ε α).result = .ok a := rfl

@[simp]
theorem events_pure (a : α) : (pure a : Traced ε α).events = [] := rfl

@[simp]
theorem result_throw (e : ε) : (throw e : Traced ε α).result = .error e := rfl

@[simp]
theorem events_throw (e : ε) : (throw e : Traced ε α).events = [] := rfl

@[simp]
theorem result_emit (e : Event) : (emit e : Traced ε Unit).result = .ok () := rfl

@[simp]
theorem events_emit (e : Event) : (emit e : Traced ε Unit).events = [e] := rfl

@[simp]
theorem result_ofExcept (r : Except ε α) : (ofExcept r).result = r := rfl

@[simp]
theorem events_ofExcept (r : Except ε α) : (ofExcept r).events = [] := rfl

/-- A sequence yields what its second part yields, unless the first part fails. -/
theorem result_bind (x : Traced ε α) (f : α → Traced ε β) :
    (x >>= f).result =
      match x.result with
      | .ok a => (f a).result
      | .error e => .error e := by
  simp only [result, ExceptT.run_bind, Logged.value_bind]
  cases x.run.value <;> rfl

/-- A sequence reports what its first part reports and then, unless that fails, what its second part
reports. -/
theorem events_bind (x : Traced ε α) (f : α → Traced ε β) :
    (x >>= f).events =
      match x.result with
      | .ok a => x.events ++ (f a).events
      | .error _ => x.events := by
  simp only [result, events, ExceptT.run_bind, Logged.events_bind]
  cases x.run.value <;> simp

end Traced

end Reduct
