import Reduct.Proofs.Eval.Outcome

/-!
# Rules of evaluation

The outcome of a term as a relation, with one rule for each course that a reduction can take.  The
rules speak neither of budgets nor of single transitions, and a proof about all reductions that come
to an end is an induction over them.

## Main definitions

* `Term.Evaluates`, `Term.EvaluatesAll` — the rules for terms and for the arguments of a call.
* `Term.Diverges` — a reduction uses up every budget.
* `Term.SameOutcome` — two terms have the same value or the same failure, or both diverge.

## Main results

* `Term.returns_iff_evaluates` — the engine returns what the rules derive.
* `Term.diverges_iff_not_evaluates` — the engine diverges where the rules derive nothing.
* `Term.sameOutcome_iff` — two terms have the same outcome if the rules derive the same for both.
-/

namespace Reduct.Term

mutual

/-- The outcome of a term: its value, or the failure that comes first. -/
inductive Evaluates (host : Host) (env : Env) : Term → Except EvalError Term → Prop where
  | value {v : Term} (hv : v.isFinal = true) : Evaluates host env v (.ok v)
  | unbound {n : String} (hn : env.get? n = none) :
      Evaluates host env (.name n) (.error (.unboundName n))
  | bound {n : String} {u : Term} {r : Except EvalError Term} (hn : env.get? n = some u)
      (hu : Evaluates host env u r) : Evaluates host env (.name n) r
  | calleeFails {callee : Term} {args : List Term} {e : EvalError}
      (hcallee : Evaluates host env callee (.error e)) :
      Evaluates host env (.call callee args) (.error e)
  | refused {callee v : Term} {args : List Term} (hcallee : Evaluates host env callee (.ok v))
      (hv : v.isCallable = false) :
      Evaluates host env (.call callee args) (.error (.notCallable v.kind))
  | argumentFails {callee : Term} {args : List Term} {f : Func} {e : EvalError}
      (hcallee : Evaluates host env callee (.ok (.func f)))
      (hargs : EvaluatesAll host env args (.error e)) :
      Evaluates host env (.call callee args) (.error e)
  | functionFails {callee : Term} {args vs : List Term} {f : Func} {e : EvalError}
      (hcallee : Evaluates host env callee (.ok (.func f)))
      (hargs : EvaluatesAll host env args (.ok vs)) (hrun : f.impl.run host env vs = .error e) :
      Evaluates host env (.call callee args) (.error e)
  | returned {callee u : Term} {args vs : List Term} {f : Func} {r : Except EvalError Term}
      (hcallee : Evaluates host env callee (.ok (.func f)))
      (hargs : EvaluatesAll host env args (.ok vs)) (hrun : f.impl.run host env vs = .ok u)
      (hu : Evaluates host env u r) : Evaluates host env (.call callee args) r

/-- The outcome of the arguments of a call, from left to right up to the first failure. -/
inductive EvaluatesAll (host : Host) (env : Env) :
    List Term → Except EvalError (List Term) → Prop where
  | nil : EvaluatesAll host env [] (.ok [])
  | headFails {t : Term} {ts : List Term} {e : EvalError} (ht : Evaluates host env t (.error e)) :
      EvaluatesAll host env (t :: ts) (.error e)
  | tailFails {t v : Term} {ts : List Term} {e : EvalError} (ht : Evaluates host env t (.ok v))
      (hts : EvaluatesAll host env ts (.error e)) : EvaluatesAll host env (t :: ts) (.error e)
  | cons {t v : Term} {ts vs : List Term} (ht : Evaluates host env t (.ok v))
      (hts : EvaluatesAll host env ts (.ok vs)) : EvaluatesAll host env (t :: ts) (.ok (v :: vs))

end

/-- Every budget is used up before the term has an outcome. -/
def Diverges (host : Host) (env : Env) (t : Term) : Prop :=
  ∀ budget, (t.reduce host env budget).result = .error .exhausted

/-- Two terms, each in an environment of its own, have the same value or the same failure, or both
of them diverge. -/
def SameOutcome (host : Host) (env env' : Env) (t t' : Term) : Prop :=
  (∃ r, t.Returns host env r ∧ t'.Returns host env' r) ∨
    (t.Diverges host env ∧ t'.Diverges host env')

variable {host : Host} {env env' : Env} {t t' u v callee : Term} {ts args : List Term}
  {r r' : Except EvalError Term} {rs : Except EvalError (List Term)}

theorem Evaluates.isFinal {t : Term} {r : Except EvalError Term} :
    Evaluates host env t r → ∀ v, r = .ok v → v.isFinal = true
  | .value hv => fun _ hr => Except.ok.inj hr ▸ hv
  | .bound _ hu | .returned _ _ _ hu => hu.isFinal
  | .unbound _ | .calleeFails _ | .refused _ _ | .argumentFails _ _ | .functionFails _ _ _ => nofun

/-! ### From the rules to the engine -/

theorem exists_settles_call_error {rc : Except EvalError Term} {e : EvalError}
    (hcallee : ∃ depth steps, Settles host env depth steps callee rc)
    (hargs : ∀ v, rc = .ok v → v.isCallable = true →
      ∃ depth steps, SettlesAll host env depth steps args rs)
    (h : rc >>= answer host env rs = .error e) :
    ∃ depth steps, Settles host env depth steps (.call callee args) (.error e) := by
  obtain ⟨depth, steps, hcallee⟩ := hcallee
  by_cases hcallable : ∃ v, rc = .ok v ∧ v.isCallable = true
  · obtain ⟨v, hv, hv'⟩ := hcallable
    obtain ⟨depth', steps', hargs⟩ := hargs v hv hv'
    refine ⟨max depth depth' + 1, max steps steps' + 1, settles_call_error ?_ ?_ h⟩
    · exact hcallee.mono (by omega) (by omega)
    · exact fun _ _ _ => hargs.mono (by omega) (by omega)
  · refine ⟨depth + 1, steps + 1, settles_call_error ?_ ?_ h⟩
    · exact hcallee.mono (Nat.le_refl _) (Nat.le_succ _)
    · exact fun v hv hv' => absurd ⟨v, hv, hv'⟩ hcallable

theorem exists_settles_call {rc : Except EvalError Term}
    (hcallee : ∃ depth steps, Settles host env depth steps callee rc)
    (hargs : ∃ depth steps, SettlesAll host env depth steps args rs)
    (h : rc >>= answer host env rs = .ok u) (hu : ∃ depth steps, Settles host env depth steps u r) :
    ∃ depth steps, Settles host env depth steps (.call callee args) r := by
  obtain ⟨depth, steps, hcallee⟩ := hcallee
  obtain ⟨depth', steps', hargs⟩ := hargs
  obtain ⟨depth'', steps'', hu⟩ := hu
  refine ⟨max (max depth depth') depth'' + 1, max (max steps steps') steps'' + 1, ?_⟩
  refine settles_call ?_ ?_ h (hu.mono (by omega) (by omega))
  · exact hcallee.mono (by omega) (by omega)
  · exact fun _ _ _ => hargs.mono (by omega) (by omega)

theorem exists_settles_calleeFails {e : EvalError}
    (hcallee : ∃ depth steps, Settles host env depth steps callee (.error e)) :
    ∃ depth steps, Settles host env depth steps (.call callee args) (.error e) := by
  have hanswer : (Except.error e >>= answer host env (.ok [])) = .error e := rfl
  refine exists_settles_call_error hcallee ?_ hanswer
  rintro _ ⟨⟩

theorem exists_settles_refused
    (hcallee : ∃ depth steps, Settles host env depth steps callee (.ok v))
    (hv : v.isCallable = false) :
    ∃ depth steps,
      Settles host env depth steps (.call callee args) (.error (.notCallable v.kind)) := by
  have hanswer : (Except.ok v >>= answer host env (.ok [])) = .error (.notCallable v.kind) := by
    cases v with
    | func f => cases hv
    | _ => rfl
  refine exists_settles_call_error hcallee ?_ hanswer
  rintro _ ⟨⟩ hcallable
  exact absurd (hv.symm.trans hcallable) (by decide)

theorem exists_settlesAll_cons (ht : ∃ depth steps, Settles host env depth steps t r)
    (hts : ∃ depth steps, SettlesAll host env depth steps ts rs) :
    ∃ depth steps,
      SettlesAll host env depth steps (t :: ts) (do let v ← r; let vs ← rs; return v :: vs) := by
  obtain ⟨depth, steps, ht⟩ := ht
  obtain ⟨depth', steps', hts⟩ := hts
  exact ⟨max depth depth', max steps steps', settlesAll_cons
    (ht.mono (Nat.le_max_left ..) (Nat.le_max_left ..))
    (hts.mono (Nat.le_max_right ..) (Nat.le_max_right ..))⟩

theorem exists_settlesAll_headFails {e : EvalError}
    (ht : ∃ depth steps, Settles host env depth steps t (.error e)) :
    ∃ depth steps, SettlesAll host env depth steps (t :: ts) (.error e) := by
  obtain ⟨depth, steps, ht⟩ := ht
  refine ⟨depth, steps, ?_⟩
  intro d s hd hs
  rw [List.mapM_cons, ht.result_reduceWithin hd hs]
  rfl

mutual

theorem Evaluates.exists_settles {t : Term} {r : Except EvalError Term} :
    Evaluates host env t r → ∃ depth steps, Settles host env depth steps t r
  | .value hv => ⟨0, 1, settles_final hv⟩
  | .unbound hn => ⟨0, 1, settles_unbound hn⟩
  | .bound hn hu =>
    let ⟨depth, steps, hu⟩ := hu.exists_settles
    ⟨depth, steps + 1, settles_name hn hu⟩
  | .calleeFails hcallee =>
    exists_settles_calleeFails hcallee.exists_settles
  | .refused hcallee hv => exists_settles_refused hcallee.exists_settles hv
  | .argumentFails hcallee hargs =>
    exists_settles_call_error hcallee.exists_settles (fun _ _ _ => hargs.exists_settlesAll) rfl
  | .functionFails hcallee hargs hrun =>
    exists_settles_call_error hcallee.exists_settles (fun _ _ _ => hargs.exists_settlesAll) hrun
  | .returned hcallee hargs hrun hu =>
    exists_settles_call hcallee.exists_settles hargs.exists_settlesAll hrun hu.exists_settles

theorem EvaluatesAll.exists_settlesAll {ts : List Term} {rs : Except EvalError (List Term)} :
    EvaluatesAll host env ts rs → ∃ depth steps, SettlesAll host env depth steps ts rs
  | .nil => ⟨0, 0, settlesAll_nil⟩
  | .headFails ht => exists_settlesAll_headFails ht.exists_settles
  | .tailFails ht hts => exists_settlesAll_cons ht.exists_settles hts.exists_settlesAll
  | .cons ht hts => exists_settlesAll_cons ht.exists_settles hts.exists_settlesAll

end

theorem Evaluates.returns (h : Evaluates host env t r) : t.Returns host env r := by
  obtain ⟨depth, steps, h⟩ := h.exists_settles
  exact h.returns

/-! ### From the engine to the rules -/

theorem mapError_failed_inj {α : Type} {r r' : Except EvalError α}
    (h : r.mapError Stop.failed = r'.mapError .failed) : r = r' := by
  cases r <;> cases r' <;> cases h <;> rfl

theorem cases_of_bind_eq_mapError {α β : Type} {x : Except Stop α} {f : α → Except Stop β}
    {r : Except EvalError β} (h : x >>= f = r.mapError .failed) :
    (∃ e, x = .error (.failed e) ∧ r = .error e) ∨ ∃ a, x = .ok a ∧ f a = r.mapError .failed := by
  match x with
  | .ok a => exact .inr ⟨a, rfl, h⟩
  | .error (.failed e) => exact .inl ⟨e, rfl, (mapError_failed_inj (r := .error e) h).symm⟩
  | .error .exhausted => cases r <;> cases h

section

variable {value : Term → Run Term}
  (hvalue : ∀ t r, (value t).result = r.mapError .failed → Evaluates host env t r)

include hvalue

theorem evaluatesAll_of_mapM (h : (ts.mapM fun t => (value t).result) = rs.mapError .failed) :
    EvaluatesAll host env ts rs := by
  induction ts generalizing rs with
  | nil =>
    obtain rfl : rs = .ok [] := mapError_failed_inj h.symm
    exact .nil
  | cons t ts ih =>
    rw [List.mapM_cons] at h
    rcases cases_of_bind_eq_mapError h with ⟨e, ht, rfl⟩ | ⟨v, ht, h⟩
    · exact .headFails (hvalue t (.error e) ht)
    · rcases cases_of_bind_eq_mapError h with ⟨e, hts, rfl⟩ | ⟨vs, hts, h⟩
      · exact .tailFails (hvalue t (.ok v) ht) (ih hts)
      · obtain rfl : rs = .ok (v :: vs) := mapError_failed_inj h.symm
        exact .cons (hvalue t (.ok v) ht) (ih hts)

theorem cases_of_invoke (h : (v.invoke host env value args).result = r.mapError .failed) :
    (v.isCallable = false ∧ r = .error (.notCallable v.kind)) ∨
      ∃ f rs, v = .func f ∧ EvaluatesAll host env args rs ∧ r = rs >>= f.impl.run host env := by
  cases v with
  | func f =>
    rw [invoke, Traced.result_bind_eq, Traced.result_mapM] at h
    rcases cases_of_bind_eq_mapError h with ⟨e, hargs, rfl⟩ | ⟨vs, hargs, hrun⟩
    · exact .inr ⟨f, .error e, rfl, evaluatesAll_of_mapM hvalue hargs, rfl⟩
    · have hr : f.impl.run host env vs = r := mapError_failed_inj hrun
      exact .inr ⟨f, .ok vs, rfl, evaluatesAll_of_mapM hvalue hargs, hr.symm⟩
  | _ => exact .inl ⟨rfl, (mapError_failed_inj (r := .error _) h).symm⟩

theorem evaluates_of_drive {left taken : Nat}
    (h : (drive (step host env value) left taken t).result = r.mapError .failed) :
    Evaluates host env t r := by
  induction left generalizing taken t with
  | zero => cases r <;> cases h
  | succ left ih =>
    cases t with
    | name n =>
      rw [drive, Traced.result_bind_eq, step, Traced.result_bind_eq, Env.lookup] at h
      cases hn : env.get? n with
      | none =>
        rw [hn] at h
        obtain rfl : .error (.unboundName n) = r := mapError_failed_inj h
        exact .unbound hn
      | some u =>
        rw [hn] at h
        exact .bound hn (ih h)
    | call callee args =>
      rw [result_drive_call] at h
      -- The call is replaced at once or not at all: first the callee, then what it answers.
      rcases cases_of_bind_eq_mapError h with ⟨e, hfail, rfl⟩ | ⟨u, hok, hu⟩
      · rcases cases_of_bind_eq_mapError (r := .error e) hfail with ⟨_, hc, ⟨⟩⟩ | ⟨c, hc, hinvoke⟩
        · exact .calleeFails (hvalue callee (.error e) hc)
        · have hcallee := hvalue callee (.ok c) hc
          rcases cases_of_invoke hvalue hinvoke with ⟨hrefused, hr⟩ | ⟨f, rs, rfl, hargs, hr⟩
          · cases hr
            exact .refused hcallee hrefused
          · cases rs with
            | error e' =>
              cases hr
              exact .argumentFails hcallee hargs
            | ok vs => exact .functionFails hcallee hargs hr.symm
      · rcases cases_of_bind_eq_mapError (r := .ok u) hok with ⟨_, _, ⟨⟩⟩ | ⟨c, hc, hinvoke⟩
        have hcallee := hvalue callee (.ok c) hc
        rcases cases_of_invoke hvalue hinvoke with ⟨_, ⟨⟩⟩ | ⟨f, rs, rfl, hargs, hr⟩
        cases rs with
        | error e' => cases hr
        | ok vs => exact .returned hcallee hargs hr.symm (ih hu)
    | _ =>
      obtain rfl := mapError_failed_inj (r := .ok _) h
      exact .value rfl

end

theorem evaluates_of_reduceWithin {steps depth : Nat}
    (h : (reduceWithin host env steps depth t).result = r.mapError .failed) :
    Evaluates host env t r := by
  induction depth generalizing t r with
  | zero => cases r <;> cases h
  | succ depth ih => exact evaluates_of_drive (fun _ _ => ih) h

/-- The engine returns what the rules derive. -/
theorem returns_iff_evaluates : t.Returns host env r ↔ Evaluates host env t r := by
  constructor
  · rintro ⟨budget, h⟩
    exact evaluates_of_reduceWithin (h budget ⟨Nat.le_refl _, Nat.le_refl _⟩)
  · exact Evaluates.returns

/-- The rules derive at most one outcome. -/
theorem Evaluates.unique (h : Evaluates host env t r) (h' : Evaluates host env t r') : r = r' :=
  h.returns.unique h'.returns

theorem EvaluatesAll.unique {rs' : Except EvalError (List Term)} (h : EvaluatesAll host env ts rs)
    (h' : EvaluatesAll host env ts rs') : rs = rs' := by
  obtain ⟨depth, steps, h⟩ := h.exists_settlesAll
  obtain ⟨depth', steps', h'⟩ := h'.exists_settlesAll
  have hleft := h (max depth depth' + 1) (max steps steps') (by omega) (by omega)
  have hright := h' (max depth depth' + 1) (max steps steps') (by omega) (by omega)
  exact mapError_failed_inj (hleft.symm.trans hright)

/-- The engine diverges exactly where the rules derive nothing. -/
theorem diverges_iff_not_evaluates : t.Diverges host env ↔ ∀ r, ¬Evaluates host env t r := by
  constructor
  · intro hdiverges r hr
    obtain ⟨budget, h⟩ := hr.returns
    have hbudget := (hdiverges budget).symm.trans (h budget ⟨Nat.le_refl _, Nat.le_refl _⟩)
    cases r <;> cases hbudget
  · intro hnone budget
    cases hresult : (t.reduce host env budget).result with
    | ok v => exact absurd (evaluates_of_reduceWithin (r := .ok v) hresult) (hnone _)
    | error stop =>
      cases stop with
      | failed e => exact absurd (evaluates_of_reduceWithin (r := .error e) hresult) (hnone _)
      | exhausted => rfl

/-- Two terms have the same outcome if the rules derive the same for both. -/
theorem sameOutcome_iff :
    SameOutcome host env env' t t' ↔ ∀ r, Evaluates host env t r ↔ Evaluates host env' t' r := by
  simp only [SameOutcome, returns_iff_evaluates, diverges_iff_not_evaluates]
  constructor
  · rintro (⟨r, h, h'⟩ | ⟨hnone, hnone'⟩) q
    · exact ⟨fun hq => h.unique hq ▸ h', fun hq => h'.unique hq ▸ h⟩
    · exact ⟨fun hq => absurd hq (hnone q), fun hq => absurd hq (hnone' q)⟩
  · intro hiff
    by_cases hsome : ∃ r, Evaluates host env t r
    · obtain ⟨r, hr⟩ := hsome
      exact .inl ⟨r, hr, (hiff r).mp hr⟩
    · have hnone : ∀ r, ¬Evaluates host env t r := fun r hr => hsome ⟨r, hr⟩
      exact .inr ⟨hnone, fun r hr => hnone r ((hiff r).mpr hr)⟩

end Reduct.Term
