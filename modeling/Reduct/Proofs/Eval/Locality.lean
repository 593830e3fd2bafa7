import Reduct.Proofs.Env.Dependency
import Reduct.Proofs.Eval.Rules

/-!
# Evaluation looks up reachable names only

The outcome of a term over the built-ins depends on the bindings of the names that the term can
reach, and on nothing else in its environment.

## Main definitions

* `Term.Reaches` — the names that a term refers to, directly or through bindings.
* `Term.Within` — a term over the built-ins that refers to none but the given names.
* `Env.Agree` — two environments bind the given names alike, and what is bound to them stays within
  these names.

## Main results

* `Term.Evaluates.transfer` — a derivation in one environment is one in every other environment that
  agrees with it.
* `Term.sameOutcome_of_reaches` — environments that agree on the reachable names give the same
  outcome, so other definitions and the order of definitions do not matter.

## Design notes

A term grows while it is reduced, since the sum of squares returns a call of two operators by name.
The names it can reach do not: whoever holds the sum of squares refers to its operators already.
-/

namespace Reduct

namespace Term

/-- The names that a term refers to, and those that the bindings of such names refer to.  The sum of
squares refers to its operators wherever it occurs. -/
inductive Reaches (env : Env) (t : Term) : String → Prop where
  | here {n : String} (h : t.Uses n) : Reaches env t n
  | onward {n m : String} (h : Reaches env t n) (hdepends : env.Depends n m) : Reaches env t m

/-- A term over the built-ins that refers to none but the given names. -/
def Within (names : String → Prop) (t : Term) : Prop := t.OnlyBuiltins ∧ ∀ n, t.Uses n → names n

end Term

/-- Two environments bind the given names alike, and the terms that the first one binds to them are
terms over the built-ins that refer to none but these names. -/
structure Env.Agree (names : String → Prop) (env env' : Env) : Prop where
  get?_eq : ∀ n, names n → env.get? n = env'.get? n
  within : ∀ n t, names n → env.get? n = some t → t.Within names

namespace Term

variable {host : Host} {env env' : Env} {names : String → Prop} {t callee u : Term}
  {args vs : List Term} {f : Func}

theorem uses_call {n : String} :
    (Term.call callee args).Uses n ↔ callee.Uses n ∨ ∃ arg ∈ args, arg.Uses n := by
  have hsum : (Term.call callee args).HoldsSumSquares ↔
      callee.HoldsSumSquares ∨ ∃ arg ∈ args, arg.HoldsSumSquares := by
    simp only [HoldsSumSquares, mem_leaves_call]
    grind
  simp only [Uses, hsum, mem_leaves_call]
  grind

theorem within_call :
    (Term.call callee args).Within names ↔
      callee.Within names ∧ ∀ arg ∈ args, arg.Within names := by
  simp only [Within, onlyBuiltins_call, uses_call]
  grind

theorem within_int (n : Int64) : (Term.int n).Within names := by
  simp [Within, OnlyBuiltins, Uses, HoldsSumSquares, leaves]

theorem within_name {n : String} (h : names n) : (Term.name n).Within names := by
  simp [Within, OnlyBuiltins, Uses, HoldsSumSquares, leaves, h]

/-- A built-in takes no look at the environment, and what it returns refers to no new name. -/
theorem within_run (hf : (Term.func f).Within names) (hvs : ∀ v ∈ vs, v.Within names) :
    f.impl.run host env vs = f.impl.run host env' vs ∧
      ∀ u, f.impl.run host env vs = .ok u → u.Within names := by
  obtain ⟨b, serial, himpl⟩ := hf.1 f (List.mem_singleton_self _)
  rw [himpl]
  refine ⟨rfl, ?_⟩
  intro u hu
  by_cases hb : b = .sumSquares
  · subst hb
    obtain ⟨v, w, rfl, rfl⟩ := Builtin.sumSquares_apply_eq_ok hu
    have hsum : (Term.func f).HoldsSumSquares := ⟨f, serial, List.mem_singleton_self _, himpl⟩
    have hadd : names Builtin.add.symbol := hf.2 _ (.inr ⟨hsum, .inl rfl⟩)
    have hpow : names Builtin.pow.symbol := hf.2 _ (.inr ⟨hsum, .inr rfl⟩)
    have hsquare : ∀ x ∈ [v, w], (squareOf x).Within names := by
      intro x hx
      rw [squareOf, within_call]
      refine ⟨within_name hpow, ?_⟩
      simpa using ⟨hvs x hx, within_int 2⟩
    rw [within_call]
    refine ⟨within_name hadd, ?_⟩
    simpa using hsquare
  · obtain ⟨n, rfl⟩ := Builtin.exists_int_of_apply hb hu
    exact within_int n

-- The values come along in the induction: what a callee evaluates to is run, and what it returns is
-- evaluated in turn, so both have to stay within the names as well.
mutual

theorem Evaluates.transfer {t : Term} {r : Except EvalError Term}
    (hagree : Env.Agree names env env') :
    Evaluates host env t r → t.Within names →
      Evaluates host env' t r ∧ ∀ v, r = .ok v → v.Within names
  | .value hv, ht => ⟨.value hv, fun _ hr => Except.ok.inj hr ▸ ht⟩
  | .unbound (n := n) hn, ht => by
    have hname : names n := ht.2 n (.inl (List.mem_singleton_self _))
    exact ⟨.unbound (hagree.get?_eq n hname ▸ hn), nofun⟩
  | .bound (n := n) hn hu, ht => by
    have hname : names n := ht.2 n (.inl (List.mem_singleton_self _))
    obtain ⟨hu', hv⟩ := hu.transfer hagree (hagree.within n _ hname hn)
    exact ⟨.bound (hagree.get?_eq n hname ▸ hn) hu', hv⟩
  | .calleeFails hcallee, ht => by
    obtain ⟨hcallee', -⟩ := hcallee.transfer hagree (within_call.mp ht).1
    exact ⟨.calleeFails hcallee', nofun⟩
  | .refused hcallee hv, ht => by
    obtain ⟨hcallee', -⟩ := hcallee.transfer hagree (within_call.mp ht).1
    exact ⟨.refused hcallee' hv, nofun⟩
  | .argumentFails hcallee hargs, ht => by
    obtain ⟨hcallee', -⟩ := hcallee.transfer hagree (within_call.mp ht).1
    obtain ⟨hargs', -⟩ := hargs.transfer hagree (within_call.mp ht).2
    exact ⟨.argumentFails hcallee' hargs', nofun⟩
  | .functionFails hcallee hargs hrun, ht => by
    obtain ⟨hcallee', hf⟩ := hcallee.transfer hagree (within_call.mp ht).1
    obtain ⟨hargs', hvs⟩ := hargs.transfer hagree (within_call.mp ht).2
    obtain ⟨hsame, -⟩ := within_run (hf _ rfl) (hvs _ rfl)
    exact ⟨.functionFails hcallee' hargs' (hsame.symm.trans hrun), nofun⟩
  | .returned hcallee hargs hrun hu, ht => by
    obtain ⟨hcallee', hf⟩ := hcallee.transfer hagree (within_call.mp ht).1
    obtain ⟨hargs', hvs⟩ := hargs.transfer hagree (within_call.mp ht).2
    obtain ⟨hsame, hwithin⟩ := within_run (hf _ rfl) (hvs _ rfl)
    obtain ⟨hu', hv⟩ := hu.transfer hagree (hwithin _ hrun)
    exact ⟨.returned hcallee' hargs' (hsame.symm.trans hrun) hu', hv⟩

theorem EvaluatesAll.transfer {ts : List Term} {rs : Except EvalError (List Term)}
    (hagree : Env.Agree names env env') :
    EvaluatesAll host env ts rs → (∀ t ∈ ts, t.Within names) →
      EvaluatesAll host env' ts rs ∧ ∀ vs, rs = .ok vs → ∀ v ∈ vs, v.Within names
  | .nil, _ => ⟨.nil, fun _ hr => Except.ok.inj hr ▸ nofun⟩
  | .headFails ht, hts => by
    obtain ⟨ht', -⟩ := ht.transfer hagree (hts _ (List.mem_cons_self ..))
    exact ⟨.headFails ht', nofun⟩
  | .tailFails ht hrest, hts => by
    obtain ⟨ht', -⟩ := ht.transfer hagree (hts _ (List.mem_cons_self ..))
    obtain ⟨hrest', -⟩ := hrest.transfer hagree fun t h => hts t (List.mem_cons_of_mem _ h)
    exact ⟨.tailFails ht' hrest', nofun⟩
  | .cons ht hrest, hts => by
    obtain ⟨ht', hv⟩ := ht.transfer hagree (hts _ (List.mem_cons_self ..))
    obtain ⟨hrest', hvs⟩ := hrest.transfer hagree fun t h => hts t (List.mem_cons_of_mem _ h)
    refine ⟨.cons ht' hrest', fun _ hr => ?_⟩
    cases hr
    exact List.forall_mem_cons.mpr ⟨hv _ rfl, hvs _ rfl⟩

end

end Term

namespace Env

variable {host : Host} {env env' : Env} {t : Term}

theorem Agree.symm {names : String → Prop} (h : Agree names env env') : Agree names env' env where
  get?_eq n hn := (h.get?_eq n hn).symm
  within n t hn ht := h.within n t hn ((h.get?_eq n hn).trans ht)

theorem agree_reaches (henv : env.OnlyBuiltins)
    (h : ∀ n, t.Reaches env n → env.get? n = env'.get? n) : Agree (t.Reaches env) env env' where
  get?_eq := h
  within n u hn hu := ⟨henv n u hu, fun _ hm => .onward hn ⟨u, hu, hm⟩⟩

/-! ### Orders of definition -/

/-- Definitions of different names can be made in any order. -/
theorem get?_extend_perm {pairs pairs' : List (String × Term)}
    (hnodup : (pairs.map Prod.fst).Nodup) (hperm : pairs.Perm pairs') (n : String) :
    (env.extend pairs).value.get? n = (env.extend pairs').value.get? n := by
  have hnames : (pairs.map Prod.fst).Perm (pairs'.map Prod.fst) := hperm.map _
  by_cases hn : n ∈ pairs.map Prod.fst
  · obtain ⟨⟨_, t⟩, hmem, rfl⟩ := List.mem_map.mp hn
    rw [get?_extend_of_mem hnodup hmem,
      get?_extend_of_mem (hnames.nodup_iff.mp hnodup) (hperm.mem_iff.mp hmem)]
  · rw [get?_extend_of_notMem hn, get?_extend_of_notMem (mt hnames.mem_iff.mpr hn)]

end Env

namespace Term

variable {host : Host} {env env' : Env} {t : Term}

theorem sameOutcome_of_reaches (henv : env.OnlyBuiltins) (ht : t.OnlyBuiltins)
    (h : ∀ n, t.Reaches env n → env.get? n = env'.get? n) : SameOutcome host env env' t t := by
  have hagree : Env.Agree (t.Reaches env) env env' := Env.agree_reaches henv h
  have hwithin : t.Within (t.Reaches env) := ⟨ht, fun _ => .here⟩
  rw [sameOutcome_iff]
  intro r
  constructor
  · intro hr
    exact (hr.transfer hagree hwithin).1
  · intro hr
    exact (hr.transfer hagree.symm hwithin).1

/-- A term over the built-ins has the same outcome in two environments if they agree on the names
that it reaches in one of them.  So it does not matter what is defined under other names, nor in
which order names are defined. -/
theorem sameOutcome_of_agree_on_reaches (host : Host) (env : Env) (t : Term)
    (ht : t.OnlyBuiltins) :
    (∀ env' : Env, env.OnlyBuiltins → (∀ n, t.Reaches env n → env.get? n = env'.get? n) →
      SameOutcome host env env' t t) ∧
      (∀ n u, env.OnlyBuiltins → ¬t.Reaches env n →
        SameOutcome host env (env.define n u).value.2 t t) ∧
      ∀ pairs pairs' : List (String × Term), (env.extend pairs).value.OnlyBuiltins →
        (pairs.map Prod.fst).Nodup → pairs.Perm pairs' →
          SameOutcome host (env.extend pairs).value (env.extend pairs').value t t := by
  refine ⟨fun env' henv h => sameOutcome_of_reaches henv ht h, ?_, ?_⟩
  · intro n u henv hn
    refine sameOutcome_of_reaches henv ht ?_
    intro m hm
    have hne : m ≠ n := by
      rintro rfl
      exact hn hm
    rw [Env.value_define, Env.get?_insert, if_neg hne]
  · intro pairs pairs' henv hnodup hperm
    exact sameOutcome_of_reaches henv ht fun n _ => Env.get?_extend_perm hnodup hperm n

/-- A call of the sum of squares reaches that name, the names of its arguments and the two operators
that it falls back on. -/
theorem mem_of_reaches_sumSquares {n : String}
    (h : (Term.call (.name "x^2+y^2") [.name "two", .int 3]).Reaches
      (Env.base.insert "two" (.int 2)) n) : n ∈ ["x^2+y^2", "two", "+", "^"] := by
  induction h with
  | here h =>
    obtain rfl | rfl : _ = "x^2+y^2" ∨ _ = "two" := by
      simpa [Uses, HoldsSumSquares, leaves, leavesOfAll] using h
    · decide
    · decide
  | onward _ hdepends _ =>
    rw [Env.depends_insert] at hdepends
    rcases hdepends with ⟨-, h⟩ | ⟨-, h⟩
    · simp [Uses, HoldsSumSquares, leaves] at h
    · obtain ⟨-, rfl | rfl⟩ := Env.eq_of_depends_base h <;> decide

/-- Subtraction can be made to loop without an effect on a sum of squares. -/
theorem sameOutcome_sumSquares_of_loop :
    (Env.base.insert "two" (.int 2)).OnlyBuiltins ∧
      ¬(Term.call (.name "x^2+y^2") [.name "two", .int 3]).Reaches
        (Env.base.insert "two" (.int 2)) "-" ∧
      SameOutcome Host.bare (Env.base.insert "two" (.int 2))
        ((Env.base.insert "two" (.int 2)).define "-" (.name "-")).value.2
        (.call (.name "x^2+y^2") [.name "two", .int 3])
        (.call (.name "x^2+y^2") [.name "two", .int 3]) := by
  have henv : (Env.base.insert "two" (.int 2)).OnlyBuiltins :=
    Env.onlyBuiltins_base.insert (by simp [OnlyBuiltins, leaves]) _
  have hoff : ¬(Term.call (.name "x^2+y^2") [.name "two", .int 3]).Reaches
      (Env.base.insert "two" (.int 2)) "-" :=
    fun h => absurd (mem_of_reaches_sumSquares h) (by decide)
  have ht : (Term.call (.name "x^2+y^2") [.name "two", .int 3]).OnlyBuiltins := by
    simp [OnlyBuiltins, leaves, leavesOfAll]
  exact ⟨henv, hoff, (sameOutcome_of_agree_on_reaches Host.bare _ _ ht).2.1 _ _ henv hoff⟩

end Term

end Reduct
