import Reduct.Eval.Reduce
import Reduct.Proofs.Except

/-!
# Outcomes of reductions

What a reduction ends with, once its budget is large enough.  The rules below derive the outcome of
a term from the outcomes of its parts, and keep count of the budget that this takes.

## Main definitions

* `Term.Settles` — a term has an outcome within given bounds, and so within all larger ones.
* `Term.SettlesAll` — the same for the arguments of a call.
* `Term.Returns` — a term has an outcome within some budget, and so within every larger one.

## Design notes

The loop of a reduction and the reductions inside it share the bound on transitions, but the loop
uses it up.  `Term.Settles` therefore speaks of a loop with any number of transitions left, around
nested reductions with any larger bound.
-/

namespace Reduct

namespace Traced

variable {ε α β : Type}

theorem result_bind_eq (x : Traced ε α) (f : α → Traced ε β) :
    (x >>= f).result = x.result >>= fun a => (f a).result := by
  rw [result_bind]
  cases x.result <;> rfl

theorem result_mapM (f : α → Traced ε β) (xs : List α) :
    (xs.mapM f).result = xs.mapM fun x => (f x).result := by
  induction xs with
  | nil => rfl
  | cons x xs ih =>
    rw [List.mapM_cons, List.mapM_cons, result_bind_eq]
    simp only [result_bind_eq, ih, result_pure]
    rfl

theorem forall_of_result_mapM {P : β → Prop} {f : α → Traced ε β} {xs : List α} {ys : List β}
    (h : ∀ x ∈ xs, ∀ y, (f x).result = .ok y → P y) (hys : (xs.mapM f).result = .ok ys) :
    ∀ y ∈ ys, P y := by
  intro y hy
  rw [result_mapM] at hys
  obtain ⟨x, hx, hxy⟩ := exists_of_mapM_eq_ok hys hy
  exact h x hx y hxy

end Traced

/-- One budget is within another when both of its bounds are. -/
instance : LE Budget := ⟨fun b c => b.depth ≤ c.depth ∧ b.steps ≤ c.steps⟩

namespace Term

variable (host : Host) (env : Env)

/-- The outcome of a term, where at most `depth` reductions are open inside its own and each of them
makes at most `steps` transitions. -/
def Settles (depth steps : Nat) (t : Term) (r : Except EvalError Term) : Prop :=
  ∀ d s left taken, depth ≤ d → steps ≤ s → steps ≤ left →
    (drive (step host env (reduceWithin host env s d)) left taken t).result = r.mapError .failed

/-- The outcome of the arguments of a call, where at most `depth` reductions are open inside that of
an argument. -/
def SettlesAll (depth steps : Nat) (ts : List Term) (r : Except EvalError (List Term)) : Prop :=
  ∀ d s, depth < d → steps ≤ s →
    (ts.mapM fun t => (reduceWithin host env s d t).result) = r.mapError .failed

/-- What a value answers when it is called with arguments of the given outcome. -/
def answer (rs : Except EvalError (List Term)) : Term → Except EvalError Term
  | .func f => rs >>= f.impl.run host env
  | v => .error (.notCallable v.kind)

/-- The outcome of a term within some budget and within every larger one. -/
def Returns (t : Term) (r : Except EvalError Term) : Prop :=
  ∃ budget : Budget, ∀ larger, budget ≤ larger →
    (t.reduce host env larger).result = r.mapError .failed

variable {host env} {depth steps : Nat} {t u callee : Term} {ts args : List Term} {e : EvalError}
  {r : Except EvalError Term} {rs : Except EvalError (List Term)}

theorem Settles.mono {depth' steps' : Nat} (h : Settles host env depth steps t r)
    (hdepth : depth ≤ depth') (hsteps : steps ≤ steps') : Settles host env depth' steps' t r := by
  intro d s left taken hd hs hleft
  exact h d s left taken (by omega) (by omega) (by omega)

theorem SettlesAll.mono {depth' steps' : Nat}
    (h : SettlesAll host env depth steps ts rs) (hdepth : depth ≤ depth')
    (hsteps : steps ≤ steps') : SettlesAll host env depth' steps' ts rs := by
  intro d s hd hs
  exact h d s (by omega) (by omega)

theorem Settles.result_reduceWithin (h : Settles host env depth steps t r) {d s : Nat}
    (hd : depth < d) (hs : steps ≤ s) :
    (reduceWithin host env s d t).result = r.mapError .failed := by
  cases d with
  | zero => omega
  | succ d => exact h d s s 0 (by omega) hs hs

theorem Settles.returns (h : Settles host env depth steps t r) : t.Returns host env r := by
  refine ⟨⟨depth + 1, steps⟩, ?_⟩
  intro larger hlarger
  exact h.result_reduceWithin hlarger.1 hlarger.2

/-- A term has at most one outcome. -/
theorem Returns.unique {r' : Except EvalError Term} (h : t.Returns host env r)
    (h' : t.Returns host env r') : r = r' := by
  obtain ⟨budget, h⟩ := h
  obtain ⟨budget', h'⟩ := h'
  have hleft := h ⟨max budget.depth budget'.depth, max budget.steps budget'.steps⟩
    ⟨Nat.le_max_left .., Nat.le_max_left ..⟩
  have hright := h' ⟨max budget.depth budget'.depth, max budget.steps budget'.steps⟩
    ⟨Nat.le_max_right .., Nat.le_max_right ..⟩
  have hsame := hleft.symm.trans hright
  cases r with
  | error e =>
    cases r' with
    | error e' =>
      cases hsame
      rfl
    | ok v => cases hsame
  | ok v =>
    cases r' with
    | error e' => cases hsame
    | ok v' =>
      cases hsame
      rfl

theorem settlesAll_nil : SettlesAll host env 0 0 [] (.ok []) := by
  intro d s _ _
  rfl

theorem settlesAll_cons (h : Settles host env depth steps t r)
    (hts : SettlesAll host env depth steps ts rs) :
    SettlesAll host env depth steps (t :: ts) (do let v ← r; let vs ← rs; return v :: vs) := by
  intro d s hd hs
  rw [List.mapM_cons, h.result_reduceWithin hd hs, hts d s hd hs]
  cases r with
  | error e => rfl
  | ok v => cases rs <;> rfl

theorem settles_final (h : t.isFinal = true) : Settles host env 0 1 t (.ok t) := by
  intro d s left taken _ _ hleft
  obtain ⟨left, rfl⟩ := Nat.exists_eq_add_of_le' hleft
  cases t with
  | name n => cases h
  | call callee args => cases h
  | int n => rfl
  | str s => rfl
  | func f => rfl

theorem settles_unbound {n : String} (h : env.get? n = none) :
    Settles host env 0 1 (.name n) (.error (.unboundName n)) := by
  intro d s left taken _ _ hleft
  obtain ⟨left, rfl⟩ := Nat.exists_eq_add_of_le' hleft
  rw [drive, Traced.result_bind_eq, step, Traced.result_bind_eq, Env.lookup, h]
  rfl

theorem settles_name {n : String} (h : env.get? n = some u)
    (hu : Settles host env depth steps u r) : Settles host env depth (steps + 1) (.name n) r := by
  intro d s left taken hd hs hleft
  obtain ⟨left, rfl⟩ := Nat.exists_eq_add_of_le' (Nat.le_trans (Nat.le_add_left 1 steps) hleft)
  rw [drive, Traced.result_bind_eq, step, Traced.result_bind_eq, Env.lookup, h]
  exact hu d s left (taken + 1) hd (by omega) (by omega)

theorem result_drive_call {value : Term → Run Term} (left taken : Nat) :
    (drive (step host env value) (left + 1) taken (.call callee args)).result =
      ((value callee).result >>= fun v => (v.invoke host env value args).result) >>= fun u =>
        (drive (step host env value) left (taken + 1) u).result := by
  rw [drive, step]
  simp only [Traced.result_bind_eq]
  cases (value callee).result with
  | error stop => rfl
  | ok v =>
    change ((v.invoke host env value args).result >>= _) >>= _ =
      (v.invoke host env value args).result >>= _
    cases (v.invoke host env value args).result <;> rfl

theorem result_invoke {value : Term → Run Term} (v : Term)
    (hargs : v.isCallable = true → (args.mapM fun t => (value t).result) = rs.mapError .failed) :
    (v.invoke host env value args).result = (v.answer host env rs).mapError .failed := by
  cases v with
  | func f =>
    rw [invoke, Traced.result_bind_eq, Traced.result_mapM, hargs rfl, answer]
    cases rs <;> rfl
  | int n => rfl
  | str s => rfl
  | name n => rfl
  | call callee args => rfl

/-- A call is replaced by what the value of its callee answers.  The arguments only matter if that
value is a function. -/
theorem Settles.result_drive_call {rc : Except EvalError Term}
    (hcallee : Settles host env depth steps callee rc)
    (hargs : ∀ v, rc = .ok v → v.isCallable = true → SettlesAll host env depth steps args rs)
    {d s : Nat} (hd : depth < d) (hs : steps ≤ s) (left taken : Nat) :
    (drive (step host env (reduceWithin host env s d)) (left + 1) taken
        (.call callee args)).result =
      (rc >>= answer host env rs).mapError .failed >>= fun u =>
        (drive (step host env (reduceWithin host env s d)) left (taken + 1) u).result := by
  rw [Term.result_drive_call, hcallee.result_reduceWithin hd hs]
  congr 1
  cases rc with
  | error e => rfl
  | ok v => exact result_invoke v fun hv => hargs v rfl hv d s hd hs

/-- A call fails as its callee, its first failing argument or its function does. -/
theorem settles_call_error {rc : Except EvalError Term}
    (hcallee : Settles host env depth (steps + 1) callee rc)
    (hargs : ∀ v, rc = .ok v → v.isCallable = true → SettlesAll host env depth (steps + 1) args rs)
    (h : rc >>= answer host env rs = .error e) :
    Settles host env (depth + 1) (steps + 1) (.call callee args) (.error e) := by
  intro d s left taken hd hs hleft
  obtain ⟨left, rfl⟩ := Nat.exists_eq_add_of_le' (Nat.le_trans (Nat.le_add_left 1 steps) hleft)
  rw [hcallee.result_drive_call hargs hd hs, h]
  rfl

/-- A call has the outcome of what its function returns. -/
theorem settles_call {rc : Except EvalError Term}
    (hcallee : Settles host env depth (steps + 1) callee rc)
    (hargs : ∀ v, rc = .ok v → v.isCallable = true → SettlesAll host env depth (steps + 1) args rs)
    (h : rc >>= answer host env rs = .ok u) (hu : Settles host env (depth + 1) steps u r) :
    Settles host env (depth + 1) (steps + 1) (.call callee args) r := by
  intro d s left taken hd hs hleft
  obtain ⟨left, rfl⟩ := Nat.exists_eq_add_of_le' (Nat.le_trans (Nat.le_add_left 1 steps) hleft)
  rw [hcallee.result_drive_call hargs hd hs, h]
  exact hu d s left (taken + 1) hd (by omega) (by omega)

end Term

end Reduct
