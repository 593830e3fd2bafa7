import Reduct.Host.Instrument
import Reduct.Proofs.Env.Arithmetic
import Reduct.Proofs.Eval.LookupCycles

/-!
# Classes of values and failures

A reduction yields integers, texts and functions only, and functions are run on nothing else,
whatever the functions of the host return in between.  Over the built-ins the failures are of a few
shapes, which are listed here.

## Main definitions

* `Term.IsValue` — a term that every reduction hands back at once.
* `Run.Reports` — all events of a run have a property.
* `EvalError.OfBuiltins` — the failures that can arise over the built-ins.

## Main results

* `Term.reports_reduceWithin` — functions are run on values.
* `Term.reduceWithin_congr` — it does not matter what a host does with other arguments.
* `Term.Evaluates.ofBuiltins` — a failure over the built-ins is one of those listed.
-/

namespace Reduct

namespace Run

variable {α β : Type} {P : Event → Prop} {x : Run α} {f g : α → Run β}

/-- All events of a run have the given property. -/
def Reports (P : Event → Prop) (x : Run α) : Prop := ∀ e ∈ x.events, P e

theorem reports_of_events_eq_nil (h : x.events = []) : Reports P x := by
  intro e he
  rw [h] at he
  cases he

theorem reports_emit {e : Event} (h : P e) : Reports P (Traced.emit e) := by
  intro e' he'
  cases List.mem_singleton.mp he'
  exact h

theorem reports_bind (hx : Reports P x) (hf : ∀ a, x.result = .ok a → Reports P (f a)) :
    Reports P (x >>= f) := by
  intro e he
  rw [Traced.events_bind] at he
  cases hr : x.result with
  | error stop =>
    simp only [hr] at he
    exact hx e he
  | ok a =>
    simp only [hr] at he
    rcases List.mem_append.mp he with he | he
    · exact hx e he
    · exact hf a hr e he

theorem reports_mapM (h : ∀ a, Reports P (f a)) (as : List α) : Reports P (as.mapM f) := by
  induction as with
  | nil => exact reports_of_events_eq_nil rfl
  | cons a as ih =>
    rw [List.mapM_cons]
    refine reports_bind (h a) fun b _ => ?_
    exact reports_bind ih fun bs _ => reports_of_events_eq_nil rfl

theorem bind_congr_result (h : ∀ a, x.result = .ok a → f a = g a) : x >>= f = x >>= g := by
  cases hr : x.result with
  | error stop =>
    apply Traced.ext
    · simp only [Traced.result_bind, hr]
    · simp only [Traced.events_bind, hr]
  | ok a =>
    apply Traced.ext
    · simp only [Traced.result_bind, hr, h a hr]
    · simp only [Traced.events_bind, hr, h a hr]

end Run

open Run

namespace Term

/-- A value: an integer, a text or a function, which a reduction hands back without a step. -/
structure IsValue (host : Host) (env : Env) (v : Term) : Prop where
  kind_mem : v.kind ∈ [Kind.integer, .string, .function]
  reduce_eq : ∀ budget : Budget, 0 < budget.depth → 0 < budget.steps →
    v.reduce host env budget = Traced.emit (.settled 0 v) >>= fun _ => pure v

variable {host host' : Host} {env : Env} {t v : Term} {vs : List Term} {steps depth : Nat}

theorem isFinal_cases (h : v.isFinal = true) :
    (∃ n, v = .int n) ∨ (∃ s, v = .str s) ∨ ∃ f, v = .func f := by
  cases v with
  | int n => exact .inl ⟨n, rfl⟩
  | str s => exact .inr (.inl ⟨s, rfl⟩)
  | func f => exact .inr (.inr ⟨f, rfl⟩)
  | name n => cases h
  | call callee args => cases h

theorem isValue_of_isFinal (h : v.isFinal = true) : v.IsValue host env := by
  have hcases := isFinal_cases h
  refine ⟨?_, ?_⟩
  · rcases hcases with ⟨n, rfl⟩ | ⟨s, rfl⟩ | ⟨f, rfl⟩ <;> simp [kind]
  · rintro ⟨depth, steps⟩ hdepth hsteps
    obtain ⟨depth, rfl⟩ := Nat.exists_eq_add_of_le' hdepth
    obtain ⟨steps, rfl⟩ := Nat.exists_eq_add_of_le' hsteps
    rcases hcases with ⟨n, rfl⟩ | ⟨s, rfl⟩ | ⟨f, rfl⟩ <;> rfl

theorem IsValue.isFinal (h : v.IsValue host env) : v.isFinal = true := by
  have hkind := h.kind_mem
  cases v with
  | name n => simp [kind] at hkind
  | call callee args => simp [kind] at hkind
  | _ => rfl

theorem isValue_of_result_reduceWithin (h : (reduceWithin host env steps depth t).result = .ok v) :
    v.IsValue host env :=
  isValue_of_isFinal ((evaluates_of_reduceWithin (r := .ok v) h).isFinal v rfl)

end Term

/-- A function that is about to run is given values only. -/
def Event.OnValues (host : Host) (env : Env) : Event → Prop
  | .invoking _ args => ∀ arg ∈ args, arg.IsValue host env
  | _ => True

namespace Term

variable {host host' : Host} {env : Env} {t v : Term} {vs : List Term} {steps depth : Nat}

/-! ### Arguments of functions -/

section

variable {value : Term → Run Term} (hvalue : ∀ t, Reports (Event.OnValues host env) (value t))
  (hresult : ∀ t v, (value t).result = .ok v → v.IsValue host env)

include hvalue hresult

theorem reports_invoke (v : Term) (args : List Term) :
    Reports (Event.OnValues host env) (v.invoke host env value args) := by
  cases v with
  | func f =>
    refine reports_bind (reports_mapM hvalue args) fun vs hvs => ?_
    have hvalues : Event.OnValues host env (.invoking f vs) :=
      Traced.forall_of_result_mapM (fun arg _ => hresult arg) hvs
    exact reports_bind (reports_emit hvalues) fun _ _ => reports_of_events_eq_nil rfl
  | _ => exact reports_bind (reports_emit trivial) fun _ _ => reports_of_events_eq_nil rfl

theorem reports_step (t : Term) :
    Reports (Event.OnValues host env) (t.step host env value) := by
  cases t with
  | call callee args =>
    refine reports_bind (hvalue callee) fun v _ => ?_
    exact reports_bind (reports_invoke hvalue hresult v args) fun u _ =>
      reports_of_events_eq_nil rfl
  | name n =>
    exact reports_bind (reports_of_events_eq_nil rfl) fun u _ => reports_of_events_eq_nil rfl
  | _ => exact reports_of_events_eq_nil rfl

theorem reports_drive (left taken : Nat) (t : Term) :
    Reports (Event.OnValues host env) (drive (step host env value) left taken t) := by
  induction left generalizing taken t with
  | zero => exact reports_of_events_eq_nil rfl
  | succ left ih =>
    rw [drive]
    refine reports_bind (reports_step hvalue hresult t) ?_
    rintro (v | u) _
    · exact reports_bind (reports_emit trivial) fun _ _ => reports_of_events_eq_nil rfl
    · exact reports_bind (reports_emit trivial) fun _ _ => ih _ u

end

theorem reports_reduceWithin (depth : Nat) (t : Term) :
    Reports (Event.OnValues host env) (reduceWithin host env steps depth t) := by
  induction depth generalizing t with
  | zero => exact reports_of_events_eq_nil rfl
  | succ depth ih => exact reports_drive ih (fun _ _ => isValue_of_result_reduceWithin) steps 0 t

/-! ### Hosts that agree on values -/

section

variable (hagree : ∀ handle args, (∀ arg ∈ args, arg.IsValue host env) →
  host handle env args = host' handle env args)

include hagree

theorem run_congr (f : Func) (hvs : ∀ v ∈ vs, v.IsValue host env) :
    f.impl.run host env vs = f.impl.run host' env vs := by
  cases f.impl with
  | builtin op serial => rfl
  | host handle => exact hagree handle vs hvs

theorem step_congr {value : Term → Run Term}
    (hresult : ∀ t v, (value t).result = .ok v → v.IsValue host env) (t : Term) :
    t.step host env value = t.step host' env value := by
  cases t with
  | call callee args =>
    refine bind_congr_result fun v _ => ?_
    cases v with
    | func f =>
      have hinvoke : Term.invoke host env value (.func f) args =
          Term.invoke host' env value (.func f) args := by
        refine bind_congr_result fun vs hvs => ?_
        have hvalues : ∀ v ∈ vs, v.IsValue host env :=
          Traced.forall_of_result_mapM (fun arg _ => hresult arg) hvs
        rw [run_congr hagree f hvalues]
      rw [hinvoke]
    | _ => rfl
  | _ => rfl

theorem reduceWithin_congr (depth : Nat) (t : Term) :
    reduceWithin host env steps depth t = reduceWithin host' env steps depth t := by
  induction depth generalizing t with
  | zero => rfl
  | succ depth ih =>
    have hstep : step host env (reduceWithin host env steps depth) =
        step host' env (reduceWithin host' env steps depth) := by
      rw [← funext ih]
      funext u
      exact step_congr hagree (fun _ _ => isValue_of_result_reduceWithin) u
    rw [reduceWithin, reduceWithin, hstep]

end

end Term

/-! ### Failures over the built-ins -/

/-- The failures that can arise in an environment over the built-ins. -/
inductive EvalError.OfBuiltins (env : Env) : EvalError → Prop where
  | unboundName {n : String} (hn : n ∉ env.names) : OfBuiltins env (.unboundName n)
  | notCallable {kind : Kind} (hkind : kind = .integer ∨ kind = .string) :
      OfBuiltins env (.notCallable kind)
  | argumentArity (op : Builtin) {got : Nat} (hgot : got ≠ 2) :
      OfBuiltins env (.argumentArity op.symbol 2 got)
  | argumentType {op : Builtin} {position : Nat} {got : Kind} (hop : op ≠ .sumSquares)
      (hposition : position = 0 ∨ position = 1) (hgot : got = .string ∨ got = .function) :
      OfBuiltins env (.argumentType op.symbol position "Integer" got)
  | negativeExponent :
      OfBuiltins env (.argumentType Builtin.pow.symbol 1 "non-negative Integer" .integer)
  | overflow {op : Builtin} (hop : op ≠ .sumSquares) : OfBuiltins env (.overflow op.symbol)

theorem Term.kind_of_isFinal {v : Term} (h : v.isFinal = true) (hv : v.kind ≠ .integer) :
    v.kind = .string ∨ v.kind = .function := by
  rcases isFinal_cases h with ⟨n, rfl⟩ | ⟨s, rfl⟩ | ⟨f, rfl⟩
  · exact absurd rfl hv
  · exact .inl rfl
  · exact .inr rfl

theorem Builtin.ofBuiltins_of_apply {b : Builtin} {env : Env} {vs : List Term} {e : EvalError}
    (hvs : ∀ v ∈ vs, v.isFinal = true) (h : b.apply vs = .error e) : e.OfBuiltins env := by
  by_cases hb : b = .sumSquares
  · subst hb
    match vs with
    | [v, w] => cases h
    | [] | [v] | v :: w :: x :: rest =>
      cases h
      exact .argumentArity .sumSquares (by simp)
  · have hcomputes := computes_apply hb vs
    rw [h] at hcomputes
    cases hcomputes with
    | arity hargs => exact .argumentArity b hargs
    | first hx =>
      exact .argumentType hb (.inl rfl) (Term.kind_of_isFinal (hvs _ (by simp)) hx)
    | second hy =>
      exact .argumentType hb (.inr rfl) (Term.kind_of_isFinal (hvs _ (by simp)) hy)
    | negative hop _ =>
      subst hop
      exact .negativeExponent
    | overflow => exact .overflow hb

/-- Once the number of arguments has been checked, no integer is missed for want of arguments. -/
theorem expectInteger_ne_argumentArity {function : String} {args : List Term} {position : Nat}
    (harity : expectArity function args 2 = .ok ()) (hposition : position < 2)
    (expected got : Nat) :
    expectInteger function args position ≠ .error (.argumentArity function expected got) := by
  have hlength : args.length = 2 := by
    unfold expectArity at harity
    split at harity
    · assumption
    · cases harity
  rw [expectInteger, List.getElem?_eq_getElem (by omega)]
  dsimp only
  split <;> simp

namespace Term

variable {host : Host} {env : Env} {callee u : Term} {args vs : List Term} {f : Func}

theorem onlyBuiltins_of_run (henv : env.OnlyBuiltins) (ht : (Term.call callee args).OnlyBuiltins)
    (hcallee : Evaluates host env callee (.ok (.func f)))
    (hargs : EvaluatesAll host env args (.ok vs)) (hrun : f.impl.run host env vs = .ok u) :
    u.OnlyBuiltins := by
  have hagree : Env.Agree (fun _ => True) env env :=
    ⟨fun _ _ => rfl, fun n u _ hu => ⟨henv n u hu, fun _ _ => trivial⟩⟩
  have hwithin := within_call.mp (⟨ht, fun _ _ => trivial⟩ : Within (fun _ => True) _)
  have hf := (hcallee.transfer hagree hwithin.1).2 _ rfl
  have hvs := (hargs.transfer hagree hwithin.2).2 _ rfl
  have hu : f.impl.run host env vs = f.impl.run host env vs ∧
      ∀ u, f.impl.run host env vs = .ok u → u.Within fun _ => True :=
    within_run hf hvs
  exact (hu.2 u hrun).1

mutual

theorem Evaluates.ofBuiltins {t : Term} {r : Except EvalError Term} (henv : env.OnlyBuiltins) :
    Evaluates host env t r → t.OnlyBuiltins → ∀ e, r = .error e → e.OfBuiltins env
  | .value _, _ => nofun
  | .unbound hn, _ => fun e he => by
    cases he
    exact .unboundName (Env.get?_eq_none_iff.mp hn)
  | .bound hn hu, _ => hu.ofBuiltins henv (henv _ _ hn)
  | .calleeFails hcallee, ht => hcallee.ofBuiltins henv (onlyBuiltins_call.mp ht).1
  | .refused hcallee hv, _ => fun e he => by
    cases he
    rcases isFinal_cases (hcallee.isFinal _ rfl) with ⟨n, rfl⟩ | ⟨s, rfl⟩ | ⟨f, rfl⟩
    · exact .notCallable (.inl rfl)
    · exact .notCallable (.inr rfl)
    · cases hv
  | .argumentFails _ hargs, ht => fun e he => by
    cases he
    exact hargs.ofBuiltins henv (onlyBuiltins_call.mp ht).2 _ rfl
  | .functionFails hcallee hargs hrun, ht => fun e he => by
    cases he
    obtain ⟨b, serial, himpl⟩ := hcallee.builtin henv (onlyBuiltins_call.mp ht).1
    rw [himpl] at hrun
    exact Builtin.ofBuiltins_of_apply hargs.isFinal hrun
  | .returned hcallee hargs hrun hu, ht =>
    hu.ofBuiltins henv (onlyBuiltins_of_run henv ht hcallee hargs hrun)

theorem EvaluatesAll.ofBuiltins {ts : List Term} {rs : Except EvalError (List Term)}
    (henv : env.OnlyBuiltins) :
    EvaluatesAll host env ts rs → (∀ t ∈ ts, t.OnlyBuiltins) →
      ∀ e, rs = .error e → e.OfBuiltins env
  | .nil, _ => nofun
  | .headFails ht, hts => fun e he => by
    cases he
    exact ht.ofBuiltins henv (hts _ (List.mem_cons_self ..)) _ rfl
  | .tailFails _ hrest, hts =>
    hrest.ofBuiltins henv fun t h => hts t (List.mem_cons_of_mem _ h)
  | .cons _ _, _ => nofun

end

/-- A reduction stays within its classes.  It yields a value; the functions on its way are given
values, so that it makes no difference what a host does with other arguments; and over the built-ins
it fails in one of the ways that are listed, where no integer is missed for want of arguments.

The events are the calls that the reduction itself makes.  A function of the host is total and calls
nothing, so there are no others. -/
theorem reduce_within_classes (host : Host) (env : Env) (t : Term) :
    (∀ budget v, (t.reduce host env budget).result = .ok v → v.IsValue host env) ∧
      (∀ budget f args, .invoking f args ∈ (t.reduce host env budget).events →
        ∀ arg ∈ args, arg.IsValue host env) ∧
      (∀ host', (∀ handle args, (∀ arg ∈ args, arg.IsValue host env) →
        host handle env args = host' handle env args) →
          ∀ budget, t.reduce host env budget = t.reduce host' env budget) ∧
      (env.OnlyBuiltins → t.OnlyBuiltins → ∀ budget e,
        (t.reduce host env budget).result = .error (.failed e) → e.OfBuiltins env) ∧
      ∀ op : Builtin, ∀ args position, expectArity op.symbol args 2 = .ok () → position < 2 →
        ∀ expected got,
          expectInteger op.symbol args position ≠
            .error (.argumentArity op.symbol expected got) := by
  refine ⟨?_, ?_, ?_, ?_, ?_⟩
  · intro budget v h
    exact isValue_of_result_reduceWithin h
  · intro budget f args h
    exact reports_reduceWithin budget.depth t _ h
  · intro host' hagree budget
    exact reduceWithin_congr hagree budget.depth t
  · intro henv ht budget e h
    exact (evaluates_of_reduceWithin (r := .error e) h).ofBuiltins henv ht e rfl
  · intro op args position harity hposition
    exact expectInteger_ne_argumentArity harity hposition

/-- A function of the host that returns a call is given the value of its argument, and the call is
reduced in turn. -/
theorem reduce_within_classes_next :
    let host : Host := Registry.host ⟨[("next", .forward (.name "+") [.int 1])]⟩
    let strict : Host := fun handle env args =>
      if args.all isFinal then host handle env args else .error (.overflow "next")
    let next : Func := ⟨"next", .host 0⟩
    let t := Term.call (.func next) [.call (.name "*") [.int 3, .int 4]]
    let power := Term.call (.name "^") [.int 2, .int (-1)]
    let failure := EvalError.argumentType "^" 1 "non-negative Integer" .integer
    ((t.reduce host Env.base ⟨4, 4⟩).result = .ok (.int 13) ∧
        (Term.int 13).IsValue host Env.base) ∧
      (.invoking next [.int 12] ∈ (t.reduce host Env.base ⟨4, 4⟩).events ∧
        (Term.int 12).IsValue host Env.base) ∧
      t.reduce host Env.base ⟨4, 4⟩ = t.reduce strict Env.base ⟨4, 4⟩ ∧
      ((power.reduce host Env.base ⟨4, 4⟩).result = .error (.failed failure) ∧
        failure.OfBuiltins Env.base) ∧
      expectInteger "^" [.int 2, .int (-1)] 1 ≠ .error (.argumentArity "^" 2 1) := by
  intro host strict next t power failure
  have hvalue : (t.reduce host Env.base ⟨4, 4⟩).result = .ok (.int 13) := rfl
  have hevent : .invoking next [.int 12] ∈ (t.reduce host Env.base ⟨4, 4⟩).events :=
    List.mem_of_getElem? (i := 8) rfl
  have hagree : ∀ handle args, (∀ arg ∈ args, arg.IsValue host Env.base) →
      host handle Env.base args = strict handle Env.base args := by
    intro handle args hargs
    have hfinal : args.all isFinal = true :=
      List.all_eq_true.mpr fun arg harg => (hargs arg harg).isFinal
    simp only [strict, hfinal, if_true]
  have hfailure : (power.reduce host Env.base ⟨4, 4⟩).result = .error (.failed failure) := rfl
  have honly : power.OnlyBuiltins := by simp [power, OnlyBuiltins, leaves, leavesOfAll]
  obtain ⟨hvalues, harguments, hhosts, -⟩ := reduce_within_classes host Env.base t
  obtain ⟨-, -, -, hfailures, harity⟩ := reduce_within_classes host Env.base power
  refine ⟨⟨hvalue, hvalues _ _ hvalue⟩, ⟨hevent, ?_⟩, hhosts strict hagree _, ⟨hfailure, ?_⟩, ?_⟩
  · exact harguments _ _ _ hevent _ (List.mem_singleton_self _)
  · exact hfailures Env.onlyBuiltins_base honly _ _ hfailure
  · exact harity .pow _ 1 rfl (by decide) 2 1

end Term

end Reduct
