import Reduct.Log.Logged

/-!
# Environments

An environment binds names to terms.  It keeps the order in which names were first defined, and a
later definition of a name replaces the term in place.

## Main definitions

* `Env` — the bindings in the order of first definition.
* `Env.get?`, `Env.lookup` — the term bound to a name.
* `Env.define` — binds a name and hands back the term that was bound before.
* `Env.extend` — binds several names in order.
-/

namespace Reduct

namespace Env

/-- Replaces the term of a name in a list of bindings, or appends a new binding. -/
def put (name : String) (t : Term) : List (String × Term) → List (String × Term)
  | [] => [(name, t)]
  | (n, u) :: rest => if n = name then (n, t) :: rest else (n, u) :: put name t rest

theorem lookup_put (name n : String) (t : Term) (bindings : List (String × Term)) :
    (put name t bindings).lookup n = if n = name then some t else bindings.lookup n := by
  induction bindings with
  | nil =>
    by_cases h : n = name
    · simp [put, h]
    · simp [put, List.lookup_cons, h, beq_eq_false_iff_ne.2 h]
  | cons binding rest ih =>
    obtain ⟨m, u⟩ := binding
    by_cases hm : m = name
    · by_cases hn : n = name
      · simp [put, hm, hn]
      · simp [put, hm, List.lookup_cons, hn, beq_eq_false_iff_ne.2 hn]
    · by_cases hn : n = m
      · simp [put, hm, hn]
      · simp [put, hm, List.lookup_cons, beq_eq_false_iff_ne.2 hn, ih]

/-- Replacing or appending a binding keeps the order of names. -/
theorem map_fst_put (name : String) (t : Term) (bindings : List (String × Term)) :
    (put name t bindings).map Prod.fst =
      if name ∈ bindings.map Prod.fst then bindings.map Prod.fst
      else bindings.map Prod.fst ++ [name] := by
  induction bindings with
  | nil => simp [put]
  | cons binding rest ih =>
    obtain ⟨m, u⟩ := binding
    by_cases hm : m = name
    · simp [put, hm]
    · have hname : name ≠ m := Ne.symm hm
      by_cases hr : name ∈ rest.map Prod.fst
      · rw [if_pos hr] at ih
        rw [List.map_cons, if_pos (List.mem_cons_of_mem m hr)]
        simp [put, hm, ih]
      · rw [if_neg hr] at ih
        rw [List.map_cons, if_neg (List.not_mem_cons_of_ne_of_not_mem hname hr)]
        simp [put, hm, ih]

/-- Names that are distinct stay so when a binding is replaced or appended. -/
theorem nodup_put {bindings : List (String × Term)} (h : (bindings.map Prod.fst).Nodup)
    (name : String) (t : Term) : ((put name t bindings).map Prod.fst).Nodup := by
  rw [map_fst_put]
  split
  · exact h
  · next hname =>
    rw [List.nodup_append]
    refine ⟨h, by simp, ?_⟩
    rintro n hn m hm rfl
    exact hname (List.mem_singleton.mp hm ▸ hn)

end Env

/-- Bindings of names to terms in the order of first definition.  No name is bound twice. -/
structure Env where
  bindings : List (String × Term)
  nodup : (bindings.map Prod.fst).Nodup

namespace Env

/-- The environment without bindings. -/
def empty : Env := ⟨[], List.nodup_nil⟩

/-- The names in the order of first definition. -/
def names (env : Env) : List String := env.bindings.map Prod.fst

theorem nodup_names (env : Env) : env.names.Nodup := env.nodup

/-- The number of bindings. -/
def size (env : Env) : Nat := env.bindings.length

/-- Whether there are no bindings. -/
def isEmpty (env : Env) : Bool := env.bindings.isEmpty

/-- The term bound to a name. -/
def get? (env : Env) (name : String) : Option Term := env.bindings.lookup name

/-- Whether a name is bound. -/
def contains (env : Env) (name : String) : Bool := (env.get? name).isSome

/-- The term bound to a name, or the failure to find it. -/
def lookup (env : Env) (name : String) : Except EvalError Term :=
  match env.get? name with
  | some t => .ok t
  | none => .error (.unboundName name)

/-- The environment in which `name` is bound to `t`. -/
def insert (env : Env) (name : String) (t : Term) : Env :=
  ⟨put name t env.bindings, nodup_put env.nodup name t⟩

/-- Looking a name up after an insertion finds the inserted term under its own name and leaves every
other name as it was. -/
theorem get?_insert (env : Env) (name n : String) (t : Term) :
    (env.insert name t).get? n = if n = name then some t else env.get? n :=
  lookup_put name n t env.bindings

/-- An insertion keeps the order of names: a bound name keeps its place and a new one comes last. -/
theorem names_insert (env : Env) (name : String) (t : Term) :
    (env.insert name t).names = if name ∈ env.names then env.names else env.names ++ [name] :=
  map_fst_put name t env.bindings

/-- Binds a name.  The term that was bound before is handed back and its replacement reported. -/
def define (env : Env) (name : String) (t : Term) : Logged (Option Term × Env) := do
  let previous := env.get? name
  if previous.isSome then
    Logged.emit (.overwritten name)
  return (previous, env.insert name t)

/-- Binds several names in order. -/
def extend (env : Env) (pairs : List (String × Term)) : Logged Env :=
  pairs.foldlM (fun env (name, t) => do return (← env.define name t).2) env

/-- The environment that binds the given names in order. -/
def ofPairs (pairs : List (String × Term)) : Logged Env := empty.extend pairs

/-- Binds a function under the name it is shown by. -/
def defineFunc (env : Env) (f : Func) : Logged Env := do
  return (← env.define f.name (.func f)).2

end Env

end Reduct
