import Reduct.Proofs.Env.Builtins
import Reduct.Proofs.Eval.Rules

/-!
# Evaluation in context

What a term contributes to the terms around it is its outcome and nothing else.

## Main definitions

* `Term.Context`, `Term.Context.fill` — a term with a hole, and the term that fills it.

## Main results

* `Term.sameOutcome_call` — the outcome of a call depends on those of its callee and its arguments.
* `Term.Context.sameOutcome_fill_of_sameOutcome` — terms with the same outcome can be exchanged in
  every context.

## Design notes

An argument is a hole like any other one, although a call may never come to reduce it: if its callee
is no function, or fails, or if an argument before it fails, then the outcome is the same whatever
stands in the hole.
-/

namespace Reduct.Term

/-- A term with a hole in the place of a callee or of an argument, at any depth. -/
inductive Context where
  /-- The hole itself. -/
  | hole
  /-- The hole is in the callee of a call. -/
  | inCallee (context : Context) (args : List Term)
  /-- The hole is in an argument of a call, between the arguments before and after it. -/
  | inArgument (callee : Term) (before : List Term) (context : Context) (after : List Term)

/-- Puts a term into the hole. -/
def Context.fill : Context → Term → Term
  | .hole, t => t
  | .inCallee context args, t => .call (context.fill t) args
  | .inArgument callee before context after, t => .call callee (before ++ context.fill t :: after)

variable {host : Host} {env : Env} {t u v callee callee' : Term} {args args' : List Term}
  {r : Except EvalError Term} {rs : Except EvalError (List Term)}

theorem Evaluates.call_mono (hcallee : ∀ r, Evaluates host env callee r →
      Evaluates host env callee' r)
    (hargs : ∀ rs, EvaluatesAll host env args rs → EvaluatesAll host env args' rs)
    (h : Evaluates host env (.call callee args) r) :
    Evaluates host env (.call callee' args') r := by
  cases h with
  | value hv => cases hv
  | calleeFails hc => exact .calleeFails (hcallee _ hc)
  | refused hc hv => exact .refused (hcallee _ hc) hv
  | argumentFails hc has => exact .argumentFails (hcallee _ hc) (hargs _ has)
  | functionFails hc has hrun => exact .functionFails (hcallee _ hc) (hargs _ has) hrun
  | returned hc has hrun hu => exact .returned (hcallee _ hc) (hargs _ has) hrun hu

theorem EvaluatesAll.replace (ht : ∀ r, Evaluates host env t r → Evaluates host env u r)
    (before after : List Term) (h : EvaluatesAll host env (before ++ t :: after) rs) :
    EvaluatesAll host env (before ++ u :: after) rs := by
  induction before generalizing rs with
  | nil =>
    cases h with
    | headFails hhead => exact .headFails (ht _ hhead)
    | tailFails hhead htail => exact .tailFails (ht _ hhead) htail
    | cons hhead htail => exact .cons (ht _ hhead) htail
  | cons arg before ih =>
    cases h with
    | headFails hhead => exact .headFails hhead
    | tailFails hhead htail => exact .tailFails hhead (ih htail)
    | cons hhead htail => exact .cons hhead (ih htail)

/-- The outcome of a call depends on those of its callee and its arguments and on nothing else. -/
theorem sameOutcome_call (hcallee : SameOutcome host env env callee callee')
    (hargs : ∀ rs, EvaluatesAll host env args rs ↔ EvaluatesAll host env args' rs) :
    SameOutcome host env env (.call callee args) (.call callee' args') := by
  rw [sameOutcome_iff] at hcallee ⊢
  intro r
  constructor
  · exact Evaluates.call_mono (fun r => (hcallee r).mp) fun rs => (hargs rs).mp
  · exact Evaluates.call_mono (fun r => (hcallee r).mpr) fun rs => (hargs rs).mpr

theorem Context.sameOutcome_fill (context : Context) (h : SameOutcome host env env t u) :
    SameOutcome host env env (context.fill t) (context.fill u) := by
  induction context with
  | hole => exact h
  | inCallee context args ih => exact sameOutcome_call ih fun _ => Iff.rfl
  | inArgument callee before context after ih =>
    have hcallee : SameOutcome host env env callee callee := sameOutcome_iff.mpr fun _ => Iff.rfl
    rw [sameOutcome_iff] at ih
    refine sameOutcome_call hcallee fun rs => ⟨?_, ?_⟩
    · exact EvaluatesAll.replace (fun r => (ih r).mp) before after
    · exact EvaluatesAll.replace (fun r => (ih r).mpr) before after

theorem sameOutcome_value (h : t.Returns host env (.ok v)) : SameOutcome host env env t v := by
  rw [returns_iff_evaluates] at h
  exact .inl ⟨.ok v, h.returns, (Evaluates.value (h.isFinal v rfl)).returns⟩

theorem sameOutcome_binding {n : String} (h : env.get? n = some u) :
    SameOutcome host env env (.name n) u := by
  rw [sameOutcome_iff]
  intro r
  constructor
  · intro hr
    cases hr with
    | value hv => cases hv
    | unbound hn => cases h.symm.trans hn
    | bound hn hu =>
      cases h.symm.trans hn
      exact hu
  · exact Evaluates.bound h

/-- Terms with the same outcome can be exchanged in every context, whatever functions the host
supplies.  So a term can be replaced by its value, and a name by its binding. -/
theorem Context.sameOutcome_fill_of_sameOutcome (host : Host) (env : Env) (context : Context) :
    (∀ t u, SameOutcome host env env t u →
      SameOutcome host env env (context.fill t) (context.fill u)) ∧
      (∀ t v, t.Returns host env (.ok v) →
        SameOutcome host env env (context.fill t) (context.fill v)) ∧
      ∀ n u, env.get? n = some u →
        SameOutcome host env env (context.fill (.name n)) (context.fill u) := by
  refine ⟨fun t u h => context.sameOutcome_fill h, ?_, ?_⟩
  · intro t v h
    exact context.sameOutcome_fill (sameOutcome_value h)
  · intro n u h
    exact context.sameOutcome_fill (sameOutcome_binding h)

/-- The operator behind a name stands for the name, both where a failure before it keeps the hole
from being reached and where what is in the hole is called. -/
theorem Context.sameOutcome_fill_operator :
    SameOutcome Host.bare Env.base Env.base (.name "*") (.func (Builtin.mul.toFunc 0)) ∧
      SameOutcome Host.bare Env.base Env.base
        (.call (.name "+") [.name "x", .call (.name "*") [.int 2, .int 3]])
        (.call (.name "+") [.name "x", .call (.func (Builtin.mul.toFunc 0)) [.int 2, .int 3]]) ∧
      Returns Host.bare Env.base
        (.call (.name "+") [.int 1, .call (.name "*") [.int 2, .int 3]]) (.ok (.int 7)) ∧
      Returns Host.bare Env.base
        (.call (.name "+") [.int 1, .call (.func (Builtin.mul.toFunc 0)) [.int 2, .int 3]])
        (.ok (.int 7)) := by
  have hsame : SameOutcome Host.bare Env.base Env.base (.name "*")
      (.func (Builtin.mul.toFunc 0)) := sameOutcome_binding rfl
  have hfill := (sameOutcome_fill_of_sameOutcome Host.bare Env.base
    (.inArgument (.name "+") [.name "x"] (.inCallee .hole [.int 2, .int 3]) [])).1 _ _ hsame
  have hcalled := (sameOutcome_fill_of_sameOutcome Host.bare Env.base
    (.inArgument (.name "+") [.int 1] (.inCallee .hole [.int 2, .int 3]) [])).1 _ _ hsame
  have hresult : (Term.reduce Host.bare Env.base ⟨4, 4⟩ (.call (.name "+")
      [.int 1, .call (.name "*") [.int 2, .int 3]])).result = .ok (.int 7) := rfl
  have hname := evaluates_of_reduceWithin (r := .ok (.int 7)) hresult
  have hfunc := (sameOutcome_iff.mp hcalled _).mp hname
  exact ⟨hsame, hfill, hname.returns, hfunc.returns⟩

end Reduct.Term
