import Reduct.Proofs.Eval.Rules

/-!
# Divergence

A reduction that always comes upon another one like itself does not come to an end.

## Main definitions

* `Term.Awaits` — the outcome of a term needs the outcome of another one.

## Main results

* `Term.diverges_of_awaits` — a term diverges if it belongs to a class of terms each of which awaits
  a term of the same class.
-/

namespace Reduct.Term

/-- The reduction of the first term cannot end before that of the second one: it stands for the
binding of a name, the callee or an argument of a call, or what a function returns. -/
inductive Awaits (host : Host) (env : Env) : Term → Term → Prop where
  | binding {n : String} {u : Term} (hn : env.get? n = some u) : Awaits host env (.name n) u
  | callee {c : Term} {args : List Term} : Awaits host env (.call c args) c
  | argument {c arg : Term} {f : Func} {before after vs : List Term}
      (hc : Evaluates host env c (.ok (.func f)))
      (hbefore : EvaluatesAll host env before (.ok vs)) :
      Awaits host env (.call c (before ++ arg :: after)) arg
  | result {c u : Term} {f : Func} {args vs : List Term}
      (hc : Evaluates host env c (.ok (.func f))) (hargs : EvaluatesAll host env args (.ok vs))
      (hrun : f.impl.run host env vs = .ok u) : Awaits host env (.call c args) u

variable {host : Host} {env : Env} {loop : Term → Prop}

-- A derivation for a term of the class would contain a smaller one for a term of the class.
mutual

theorem Evaluates.not_loop {t : Term} {r : Except EvalError Term}
    (hloop : ∀ t, loop t → ∃ u, Awaits host env t u ∧ loop u) : Evaluates host env t r → ¬loop t
  | .value hv => fun ht => by
    obtain ⟨u, hawaits, -⟩ := hloop _ ht
    cases hawaits <;> cases hv
  | .unbound hn => fun ht => by
    obtain ⟨u, ⟨hn'⟩, -⟩ := hloop _ ht
    cases hn.symm.trans hn'
  | .bound hn hu => fun ht => by
    have ihu := hu.not_loop hloop
    obtain ⟨u, ⟨hn'⟩, hu'⟩ := hloop _ ht
    cases hn.symm.trans hn'
    exact ihu hu'
  | .calleeFails hc => fun ht => by
    have ihc := hc.not_loop hloop
    obtain ⟨u, hawaits, hu⟩ := hloop _ ht
    cases hawaits with
    | callee => exact ihc hu
    | argument hc' _ => cases hc.unique hc'
    | result hc' _ _ => cases hc.unique hc'
  | .refused hc hv => fun ht => by
    have ihc := hc.not_loop hloop
    obtain ⟨u, hawaits, hu⟩ := hloop _ ht
    cases hawaits with
    | callee => exact ihc hu
    | argument hc' _ =>
      cases hc.unique hc'
      cases hv
    | result hc' _ _ =>
      cases hc.unique hc'
      cases hv
  | .argumentFails hc hargs => fun ht => by
    have ihc := hc.not_loop hloop
    have ihargs := hargs.not_loop hloop
    obtain ⟨u, hawaits, hu⟩ := hloop _ ht
    cases hawaits with
    | callee => exact ihc hu
    | argument _ hbefore => exact ihargs _ _ _ _ rfl hbefore hu
    | result _ hargs' _ => cases hargs.unique hargs'
  | .functionFails hc hargs hrun => fun ht => by
    have ihc := hc.not_loop hloop
    have ihargs := hargs.not_loop hloop
    obtain ⟨u, hawaits, hu⟩ := hloop _ ht
    cases hawaits with
    | callee => exact ihc hu
    | argument _ hbefore => exact ihargs _ _ _ _ rfl hbefore hu
    | result hc' hargs' hrun' =>
      cases hc.unique hc'
      cases hargs.unique hargs'
      cases hrun.symm.trans hrun'
  | .returned hc hargs hrun hu => fun ht => by
    have ihc := hc.not_loop hloop
    have ihargs := hargs.not_loop hloop
    have ihu := hu.not_loop hloop
    obtain ⟨u, hawaits, hu'⟩ := hloop _ ht
    cases hawaits with
    | callee => exact ihc hu'
    | argument _ hbefore => exact ihargs _ _ _ _ rfl hbefore hu'
    | result hc' hargs' hrun' =>
      cases hc.unique hc'
      cases hargs.unique hargs'
      cases hrun.symm.trans hrun'
      exact ihu hu'

theorem EvaluatesAll.not_loop {ts : List Term} {rs : Except EvalError (List Term)}
    (hloop : ∀ t, loop t → ∃ u, Awaits host env t u ∧ loop u) :
    EvaluatesAll host env ts rs → ∀ before arg after vs, ts = before ++ arg :: after →
      EvaluatesAll host env before (.ok vs) → ¬loop arg
  | .nil => fun _ _ _ _ hts _ => by simp at hts
  | .headFails ht => fun _ _ _ _ hts hbefore => by
    have iht := ht.not_loop hloop
    cases hbefore with
    | nil =>
      cases hts
      exact iht
    | cons ht' _ =>
      cases hts
      cases ht.unique ht'
  | .tailFails ht hrest | .cons ht hrest => fun _ _ _ _ hts hbefore => by
    have iht := ht.not_loop hloop
    have ihrest := hrest.not_loop hloop
    cases hbefore with
    | nil =>
      cases hts
      exact iht
    | cons _ hbefore =>
      cases hts
      exact ihrest _ _ _ _ rfl hbefore

end

/-- A term diverges if it belongs to a class of terms each of which awaits one of the same class. -/
theorem diverges_of_awaits (hloop : ∀ t, loop t → ∃ u, Awaits host env t u ∧ loop u) {t : Term}
    (ht : loop t) : t.Diverges host env := by
  rw [diverges_iff_not_evaluates]
  exact fun _ hr => hr.not_loop hloop ht

end Reduct.Term
