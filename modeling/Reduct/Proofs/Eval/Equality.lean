import Reduct.Proofs.Env.Arithmetic
import Reduct.Proofs.Env.Dependency
import Reduct.Proofs.Eval.Rules
import Reduct.Proofs.Term.RoundTrip

/-!
# Equality and evaluation

Equality of terms takes no account of the names that functions are shown by.  It is an equivalence
all the same, and over the built-ins no reduction can tell equal terms apart: the two runs keep in
step with one another, to equal values or to the same failure.

## Main definitions

* `Alike` — two computations yield related values or fail with the same failure.
* `Term.Twins` — terms that are equal up to the names of functions, all of which belong to a class.
* `Impl.Respects` — a class of implementations that make no difference between twins.

## Main results

* `Term.equivalence_same` — equality is an equivalence.
* `Term.alike_reduceWithin` — twins have like results within every budget.
* `Impl.respects_builtins` — the built-ins make no difference between twins.
* `Term.reduce_respects_same` — over the built-ins, equal terms have equal outcomes.

## Design notes

The engine only hands terms on; what could look at a name is a function.  The induction over the
engine is therefore made for any class of implementations that respects twins, with the class as a
part of the relation: what a function of the class returns is run in turn, so its own functions have
to belong to the class as well.
-/

namespace Reduct

/-- Two computations yield related values, or they fail with the same failure. -/
inductive Alike {ε α β : Type} (R : α → β → Prop) : Except ε α → Except ε β → Prop where
  | ok {a : α} {b : β} (h : R a b) : Alike R (.ok a) (.ok b)
  | error (e : ε) : Alike R (.error e) (.error e)

namespace Alike

variable {ε ε' α β α' β' : Type} {R : α → β → Prop} {S : α' → β' → Prop} {x : Except ε α}
  {y : Except ε β} {f : α → Except ε α'} {g : β → Except ε β'}

theorem bind (h : Alike R x y) (hnext : ∀ a b, R a b → Alike S (f a) (g b)) :
    Alike S (x >>= f) (y >>= g) := by
  cases h with
  | ok hab => exact hnext _ _ hab
  | error e => exact .error e

theorem mapM {as : List α} {bs : List β} (hnext : ∀ a b, R a b → Alike S (f a) (g b))
    (h : List.Forall₂ R as bs) : Alike (List.Forall₂ S) (as.mapM f) (bs.mapM g) := by
  induction h with
  | nil => exact .ok .nil
  | cons hab _ ih =>
    rw [List.mapM_cons, List.mapM_cons]
    refine (hnext _ _ hab).bind fun c d hcd => ?_
    exact ih.bind fun cs ds hcds => .ok (.cons hcd hcds)

theorem mapError (h : Alike R x y) (f : ε → ε') : Alike R (x.mapError f) (y.mapError f) := by
  cases h with
  | ok hab => exact .ok hab
  | error e => exact .error (f e)

theorem eq_error {e : ε} (h : Alike R (.error e) y) : y = .error e := by
  cases h
  rfl

end Alike

namespace Term

/-- Two terms that are the same but for the names that their functions are shown by.  All of these
functions belong to the given class of implementations. -/
inductive Twins (P : Impl → Prop) : Term → Term → Prop where
  | int (n : Int64) : Twins P (.int n) (.int n)
  | str (s : String) : Twins P (.str s) (.str s)
  | name (n : String) : Twins P (.name n) (.name n)
  | func {f g : Func} (hsame : f.impl = g.impl) (hf : P f.impl) : Twins P (.func f) (.func g)
  | call {callee callee' : Term} {args args' : List Term} (hcallee : Twins P callee callee')
      (hargs : List.Forall₂ (Twins P) args args') :
      Twins P (.call callee args) (.call callee' args')

variable {P : Impl → Prop} {t u : Term} {ts us : List Term}

/-! ### Twins and equality -/

mutual

theorem Twins.symm : {t u : Term} → Twins P t u → Twins P u t
  | _, _, .int n => .int n
  | _, _, .str s => .str s
  | _, _, .name n => .name n
  | _, _, .func hsame hf => .func hsame.symm (hsame ▸ hf)
  | _, _, .call hcallee hargs => .call hcallee.symm (Twins.symmAll hargs)

theorem Twins.symmAll : {ts us : List Term} → List.Forall₂ (Twins P) ts us →
    List.Forall₂ (Twins P) us ts
  | _, _, .nil => .nil
  | _, _, .cons h hs => .cons h.symm (Twins.symmAll hs)

end

mutual

theorem Twins.trans : {t u v : Term} → Twins P t u → Twins P u v → Twins P t v
  | _, _, _, .int _, h | _, _, _, .str _, h | _, _, _, .name _, h => h
  | _, _, _, .func hsame hf, .func hsame' _ => .func (hsame.trans hsame') hf
  | _, _, _, .call hcallee hargs, .call hcallee' hargs' =>
    .call (hcallee.trans hcallee') (Twins.transAll hargs hargs')

theorem Twins.transAll : {ts us vs : List Term} → List.Forall₂ (Twins P) ts us →
    List.Forall₂ (Twins P) us vs → List.Forall₂ (Twins P) ts vs
  | _, _, _, .nil, .nil => .nil
  | _, _, _, .cons h hs, .cons h' hs' => .cons (h.trans h') (Twins.transAll hs hs')

end

mutual

theorem Twins.same_eq_true : {t u : Term} → Twins P t u → same t u = true
  | _, _, .int n => by simp [same]
  | _, _, .str s => by simp [same]
  | _, _, .name n => by simp [same]
  | _, _, .func hsame _ => by simp [same, hsame]
  | _, _, .call hcallee hargs => by
    rw [same, hcallee.same_eq_true, Twins.sameAll_eq_true hargs, Bool.and_true]

theorem Twins.sameAll_eq_true : {ts us : List Term} → List.Forall₂ (Twins P) ts us →
    sameAll ts us = true
  | _, _, .nil => rfl
  | _, _, .cons h hs => by
    rw [sameAll, h.same_eq_true, Twins.sameAll_eq_true hs, Bool.and_true]

end

theorem forall₂_of_sameAll {R : Term → Term → Prop}
    (hts : ∀ t ∈ ts, ∀ u, same t u = true → R t u) (h : sameAll ts us = true) :
    List.Forall₂ R ts us := by
  induction ts generalizing us with
  | nil =>
    cases us with
    | nil => exact .nil
    | cons u us => cases h
  | cons t ts ih =>
    cases us with
    | nil => cases h
    | cons u us =>
      rw [List.forall_mem_cons] at hts
      rw [sameAll, Bool.and_eq_true] at h
      exact .cons (hts.1 u h.1) (ih hts.2 h.2)

/-- Equal terms are twins in every class that the functions of one of them belong to. -/
theorem twins_of_same (ht : ∀ f, .func f ∈ t.leaves → P f.impl) (h : same t u = true) :
    Twins P t u := by
  induction t using Term.inductionOn generalizing u with
  | int n =>
    cases u with
    | int m =>
      obtain rfl : n = m := by simpa [same] using h
      exact .int n
    | _ => cases h
  | str s =>
    cases u with
    | str s' =>
      obtain rfl : s = s' := by simpa [same] using h
      exact .str s
    | _ => cases h
  | name n =>
    cases u with
    | name m =>
      obtain rfl : n = m := by simpa [same] using h
      exact .name n
    | _ => cases h
  | func f =>
    cases u with
    | func g =>
      have himpl : f.impl = g.impl := by simpa [same] using h
      exact .func himpl (ht f (List.mem_singleton_self _))
    | _ => cases h
  | call callee args hcallee hargs =>
    cases u with
    | call callee' args' =>
      rw [same, Bool.and_eq_true] at h
      refine .call (hcallee (fun f hf => ht f (mem_leaves_call.mpr (.inl hf))) h.1) ?_
      refine forall₂_of_sameAll (fun arg harg v hv => ?_) h.2
      exact hargs arg harg (fun f hf => ht f (mem_leaves_call.mpr (.inr ⟨arg, harg, hf⟩))) hv
    | _ => cases h

theorem twins_self (h : ∀ f, .func f ∈ t.leaves → P f.impl) : Twins P t t :=
  twins_of_same h (same_self t)

/-- Equality of terms is an equivalence. -/
theorem equivalence_same : Equivalence fun t u : Term => (t == u) = true := by
  have htwins : ∀ {t u : Term}, (t == u) = true → Twins (fun _ => True) t u :=
    twins_of_same fun _ _ => trivial
  refine ⟨same_self, ?_, ?_⟩
  · intro t u htu
    exact (htwins htu).symm.same_eq_true
  · intro t u v htu huv
    exact ((htwins htu).trans (htwins huv)).same_eq_true

theorem Twins.kind_eq (h : Twins P t u) : t.kind = u.kind := by cases h <;> rfl

end Term

open Term

/-- The implementations of a class make no difference between twins: run on twins they return twins,
or fail alike. -/
def Impl.Respects (P : Impl → Prop) (host : Host) (env : Env) : Prop :=
  ∀ impl vs ws, P impl → List.Forall₂ (Twins P) vs ws →
    Alike (Twins P) (impl.run host env vs) (impl.run host env ws)

/-- One transition leads to a twin of where the other one leads, and both are final or neither. -/
inductive Step.Twins (P : Impl → Prop) : Step → Step → Prop where
  | final {t u : Term} (h : Term.Twins P t u) : Twins P (.final t) (.final u)
  | replaced {t u : Term} (h : Term.Twins P t u) : Twins P (.replaced t) (.replaced u)

namespace Term

variable {P : Impl → Prop} {host : Host} {env : Env} {t u v w : Term} {args args' : List Term}

/-! ### Twins and the engine -/

section

variable {value : Term → Run Term} (hrun : Impl.Respects P host env)
  (hvalue : ∀ t u, Twins P t u → Alike (Twins P) (value t).result (value u).result)

include hrun hvalue

theorem alike_invoke (h : Twins P v w) (hargs : List.Forall₂ (Twins P) args args') :
    Alike (Twins P) (v.invoke host env value args).result
      (w.invoke host env value args').result := by
  cases h with
  | func hsame hf =>
    rw [invoke, invoke, Traced.result_bind_eq, Traced.result_bind_eq, Traced.result_mapM,
      Traced.result_mapM]
    refine (Alike.mapM hvalue hargs).bind fun vs ws hvws => ?_
    have hresult := hrun _ vs ws hf hvws
    -- The functions may have different names; what runs is the same implementation.
    rw [← hsame]
    exact hresult.mapError Stop.failed
  | _ => exact .error _

variable (henv : ∀ n u, env.get? n = some u → Twins P u u)

include henv

theorem alike_step (h : Twins P t u) :
    Alike (Step.Twins P) (t.step host env value).result (u.step host env value).result := by
  cases h with
  | name n =>
    rw [step, Traced.result_bind_eq, Env.lookup]
    cases hn : env.get? n with
    | none => exact .error _
    | some u => exact .ok (.replaced (henv n u hn))
  | call hcallee hargs =>
    rw [step, step, Traced.result_bind_eq, Traced.result_bind_eq]
    refine (hvalue _ _ hcallee).bind fun v w hvw => ?_
    rw [Traced.result_bind_eq, Traced.result_bind_eq]
    exact (alike_invoke hrun hvalue hvw hargs).bind fun t u htu => .ok (.replaced htu)
  | int n => exact .ok (.final (.int n))
  | str s => exact .ok (.final (.str s))
  | func hsame hf => exact .ok (.final (.func hsame hf))

theorem alike_drive (left taken : Nat) (h : Twins P t u) :
    Alike (Twins P) (drive (step host env value) left taken t).result
      (drive (step host env value) left taken u).result := by
  induction left generalizing taken t u with
  | zero => exact .error _
  | succ left ih =>
    rw [drive, drive, Traced.result_bind_eq, Traced.result_bind_eq]
    refine (alike_step hrun hvalue henv h).bind ?_
    rintro _ _ (hfinal | hreplaced)
    · exact .ok hfinal
    · exact ih (taken + 1) hreplaced

end

/-- Twins have like results within every budget. -/
theorem alike_reduceWithin (hrun : Impl.Respects P host env)
    (henv : ∀ n u, env.get? n = some u → Twins P u u) (steps depth : Nat) (h : Twins P t u) :
    Alike (Twins P) (reduceWithin host env steps depth t).result
      (reduceWithin host env steps depth u).result := by
  induction depth generalizing t u with
  | zero => exact .error _
  | succ depth ih => exact alike_drive hrun (fun _ _ => ih) henv steps 0 h

end Term

/-! ### Twins and the built-ins -/

/-- The class of the built-ins. -/
def Impl.IsBuiltin (impl : Impl) : Prop := ∃ op serial, impl = .builtin op serial

namespace Builtin

variable {P : Impl → Prop} {op : Builtin} {vs ws : List Term} {r : Except EvalError Term}

/-- The rules of arithmetic look at integers and kinds only. -/
theorem Computes.of_twins (hvws : List.Forall₂ (Twins P) vs ws) (h : op.Computes vs r) :
    op.Computes ws r := by
  cases h with
  | arity hargs =>
    rw [hvws.length_eq] at hargs ⊢
    exact .arity hargs
  | first hx =>
    obtain _ | ⟨hxx, _ | ⟨hyy, ⟨⟩⟩⟩ := hvws
    rw [hxx.kind_eq] at hx ⊢
    exact .first hx
  | second hy =>
    obtain _ | ⟨⟨⟩, _ | ⟨hyy, ⟨⟩⟩⟩ := hvws
    rw [hyy.kind_eq] at hy ⊢
    exact .second hy
  | negative hop hb =>
    obtain _ | ⟨⟨⟩, _ | ⟨⟨⟩, ⟨⟩⟩⟩ := hvws
    exact .negative hop hb
  | exact hb hn =>
    obtain _ | ⟨⟨⟩, _ | ⟨⟨⟩, ⟨⟩⟩⟩ := hvws
    exact .exact hb hn
  | overflow hb hrange =>
    obtain _ | ⟨⟨⟩, _ | ⟨⟨⟩, ⟨⟩⟩⟩ := hvws
    exact .overflow hb hrange

theorem apply_eq_of_twins (hop : op ≠ .sumSquares) (hvws : List.Forall₂ (Twins P) vs ws) :
    op.apply vs = op.apply ws :=
  ((computes_apply hop vs).of_twins hvws).unique (computes_apply hop ws)

theorem twins_squareOf {v w : Term} (h : Twins P v w) : Twins P (squareOf v) (squareOf w) :=
  .call (.name _) (.cons h (.cons (.int 2) .nil))

theorem alike_sumSquares (hvws : List.Forall₂ (Twins P) vs ws) :
    Alike (Twins P) (sumSquares.apply vs) (sumSquares.apply ws) := by
  match vs, ws, hvws with
  | _, _, .nil => exact .error _
  | _, _, .cons _ .nil => exact .error _
  | _, _, .cons hv (.cons hw .nil) =>
    exact .ok (.call (.name _) (.cons (twins_squareOf hv) (.cons (twins_squareOf hw) .nil)))
  | _ :: _ :: _ :: vs, _ :: _ :: _ :: ws, .cons _ (.cons _ (.cons _ hrest)) =>
    simp only [apply, List.length_cons, hrest.length_eq]
    exact .error _

end Builtin

/-- The built-ins make no difference between twins. -/
theorem Impl.respects_builtins (host : Host) (env : Env) : Respects IsBuiltin host env := by
  rintro _ vs ws ⟨op, serial, rfl⟩ hvws
  change Alike (Twins IsBuiltin) (op.apply vs) (op.apply ws)
  by_cases hop : op = .sumSquares
  · rw [hop]
    exact Builtin.alike_sumSquares hvws
  · rw [← Builtin.apply_eq_of_twins hop hvws]
    cases h : op.apply vs with
    | error e => exact .error e
    | ok u =>
      obtain ⟨n, rfl⟩ := Builtin.exists_int_of_apply hop h
      exact .ok (.int n)

namespace Term

variable {host : Host} {env : Env} {t u : Term}

/-- Both of two terms diverge, or they have equal values, or they fail with the same failure. -/
def EqualOutcome (host : Host) (env : Env) (t u : Term) : Prop :=
  (t.Diverges host env ∧ u.Diverges host env) ∨
    (∃ v w, t.Returns host env (.ok v) ∧ u.Returns host env (.ok w) ∧ (v == w) = true) ∨
    ∃ e, t.Returns host env (.error e) ∧ u.Returns host env (.error e)

theorem equalOutcome_of_alike {P : Impl → Prop}
    (h : ∀ budget, Alike (Twins P) (t.reduce host env budget).result
      (u.reduce host env budget).result) : EqualOutcome host env t u := by
  by_cases hdiverges : t.Diverges host env
  · refine .inl ⟨hdiverges, fun budget => ?_⟩
    have hbudget := h budget
    rw [hdiverges budget] at hbudget
    exact hbudget.eq_error
  · obtain ⟨budget, hbudget⟩ := not_forall.mp hdiverges
    generalize ht : (t.reduce host env budget).result = x at hbudget
    generalize hu : (u.reduce host env budget).result = y
    have hxy := h budget
    rw [ht, hu] at hxy
    cases hxy with
    | @ok v w hvw =>
      have hv := (evaluates_of_reduceWithin (r := .ok v) ht).returns
      have hw := (evaluates_of_reduceWithin (r := .ok w) hu).returns
      exact .inr (.inl ⟨v, w, hv, hw, hvw.same_eq_true⟩)
    | error stop =>
      cases stop with
      | exhausted => exact absurd rfl hbudget
      | failed e =>
        have hfails := (evaluates_of_reduceWithin (r := .error e) ht).returns
        have hfails' := (evaluates_of_reduceWithin (r := .error e) hu).returns
        exact .inr (.inr ⟨e, hfails, hfails'⟩)

/-- Equality of terms is an equivalence, in which functions are equal if their implementations are,
whatever they are shown by.  Over the built-ins a reduction cannot tell equal terms apart. -/
theorem reduce_respects_same (host : Host) (env : Env) :
    Equivalence (fun t u : Term => (t == u) = true) ∧
      (∀ f g : Func, (Term.func f == .func g) = true ↔ f.impl = g.impl) ∧
      (env.OnlyBuiltins → ∀ t u : Term, t.OnlyBuiltins → (t == u) = true →
        EqualOutcome host env t u) := by
  refine ⟨equivalence_same, ?_, ?_⟩
  · intro f g
    exact beq_iff_eq (a := f.impl) (b := g.impl)
  · intro henv t u ht hsame
    have htwins : Twins Impl.IsBuiltin t u := twins_of_same ht hsame
    have hbound : ∀ n v, env.get? n = some v → Twins Impl.IsBuiltin v v :=
      fun n v hv => twins_self (henv n v hv)
    have hrun := Impl.respects_builtins host env
    exact equalOutcome_of_alike fun budget =>
      alike_reduceWithin hrun hbound budget.steps budget.depth htwins

/-- The sum of squares under another name fails on a function under another name, and neither of the
two names shows in the failure. -/
theorem reduce_respects_same_renamed :
    let square : Func := ⟨"square", .builtin .sumSquares 0⟩
    let plus : Func := ⟨"plus", .builtin .add 0⟩
    let t := Term.call (.func square) [.int 3, .func plus]
    let u := Term.call (.func (Builtin.sumSquares.toFunc 0)) [.int 3, .func (Builtin.add.toFunc 0)]
    let failure := EvalError.argumentType "^" 0 "Integer" .function
    (Env.base.OnlyBuiltins ∧ t.OnlyBuiltins ∧ t ≠ u ∧ (t == u) = true) ∧
      t.Returns Host.bare Env.base (.error failure) ∧
      u.Returns Host.bare Env.base (.error failure) := by
  intro square plus t u failure
  have hsame : (t == u) = true := by rfl
  have ht : t.OnlyBuiltins := by
    simp [t, OnlyBuiltins, leaves, leavesOfAll, square, plus]
  have hresult : (t.reduce Host.bare Env.base ⟨4, 4⟩).result = .error (.failed failure) := rfl
  have hreturns := (evaluates_of_reduceWithin (r := .error failure) hresult).returns
  have hne : t ≠ u := by simp [t, u, square, plus, Builtin.toFunc, Builtin.symbol]
  refine ⟨⟨Env.onlyBuiltins_base, ht, hne, hsame⟩, hreturns, ?_⟩
  rcases (reduce_respects_same Host.bare Env.base).2.2 Env.onlyBuiltins_base t u ht hsame with
    ⟨hdiverges, -⟩ | ⟨v, w, hv, -, -⟩ | ⟨e, he, hu⟩
  · cases hresult.symm.trans (hdiverges _)
  · cases hreturns.unique hv
  · cases hreturns.unique he
    exact hu

end Term

end Reduct
