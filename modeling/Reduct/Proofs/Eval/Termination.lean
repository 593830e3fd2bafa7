import Reduct.Proofs.Env.Builtins
import Reduct.Proofs.Env.Dependency
import Reduct.Proofs.Eval.Outcome

/-!
# Termination without cycles

Reduction comes to an end in every environment over the built-ins whose names do not depend on
themselves.

## Main definitions

* `Term.LeadsTo` — the names that the functions in a term and the bindings of its names lead to.
* `Term.HaltsWith` — a term has an outcome, and its value has a given property if there is one.
* `Term.Sourced` — a value that a term can have: a function among them comes from a leaf of the term
  or from the bindings that its names lead to.

## Main results

* `Term.haltsWith_name` — every name has an outcome, by induction along the dependencies.
* `Term.reduce_terminates_of_acyclic` — every term has an outcome.

## Design notes

The sum of squares returns a call that is larger than the one it answers, so no measure of terms
goes down.  What goes down is the dependency order: only a name, or a function in a term, can have
the sum of squares as its value, and then the operators of the sum of squares lie further down.  A
call never has a function as its value.
-/

namespace Reduct

open Relation

namespace Term

variable (host : Host) (env : Env)

/-- The names that a term leads to.  Those that occur in the term itself do not count, but those
that their bindings lead to do. -/
def LeadsTo (t : Term) (m : String) : Prop :=
  (t.HoldsSumSquares ∧ (m = Builtin.add.symbol ∨ m = Builtin.pow.symbol)) ∨
    ∃ k, .name k ∈ t.leaves ∧ TransGen env.Depends k m

/-- A term has an outcome, and its value has the given property if there is one. -/
def HaltsWith (t : Term) (p : Term → Prop) : Prop :=
  ∃ depth steps r, Settles host env depth steps t r ∧ ∀ v, r = .ok v → p v

/-- A value that a term can have.  If it is the sum of squares, the term leads to its operators. -/
def Sourced (t v : Term) : Prop :=
  v.isFinal = true ∧ ∀ f, v = .func f → ∃ b serial, f.impl = .builtin b serial ∧
    (b = .sumSquares → t.LeadsTo env Builtin.add.symbol ∧ t.LeadsTo env Builtin.pow.symbol)

variable {host env} {t u v w callee : Term} {args : List Term} {p q : Term → Prop} {n m : String}

theorem leadsTo_name : (Term.name n).LeadsTo env m ↔ TransGen env.Depends n m := by
  constructor
  · rintro (⟨⟨f, serial, hf, -⟩, -⟩ | ⟨k, hk, hkm⟩)
    · cases List.mem_singleton.mp hf
    · cases List.mem_singleton.mp hk
      exact hkm
  · intro h
    exact .inr ⟨n, List.mem_singleton_self _, h⟩

/-- What a binding leads to is further down than the name that is bound. -/
theorem LeadsTo.transGen (h : u.LeadsTo env m) (hn : env.get? n = some u) :
    TransGen env.Depends n m := by
  rcases h with ⟨hsum, hm⟩ | ⟨k, hk, hkm⟩
  · exact .single ⟨u, hn, .inr ⟨hsum, hm⟩⟩
  · exact .head ⟨u, hn, .inl hk⟩ hkm

theorem LeadsTo.of_leaves (h : t.LeadsTo env m) (hsub : ∀ leaf ∈ t.leaves, leaf ∈ u.leaves) :
    u.LeadsTo env m := by
  rcases h with ⟨⟨f, serial, hf, himpl⟩, hm⟩ | ⟨k, hk, hkm⟩
  · exact .inl ⟨⟨f, serial, hsub _ hf, himpl⟩, hm⟩
  · exact .inr ⟨k, hsub _ hk, hkm⟩

theorem sourced_int (t : Term) (k : Int64) : t.Sourced env (.int k) := ⟨rfl, nofun⟩

theorem HaltsWith.mono (h : t.HaltsWith host env p) (hpq : ∀ v, p v → q v) :
    t.HaltsWith host env q := by
  obtain ⟨depth, steps, r, hr, hp⟩ := h
  exact ⟨depth, steps, r, hr, fun v hv => hpq v (hp v hv)⟩

theorem haltsWith_final (h : t.isFinal = true) (hp : p t) : t.HaltsWith host env p := by
  refine ⟨0, 1, .ok t, settles_final h, ?_⟩
  intro v hv
  cases hv
  exact hp

theorem exists_settlesAll (h : ∀ arg ∈ args, arg.HaltsWith host env fun v => v.isFinal = true) :
    ∃ depth steps rs, SettlesAll host env depth steps args rs ∧
      ∀ vs, rs = .ok vs → ∀ v ∈ vs, v.isFinal = true := by
  induction args with
  | nil =>
    refine ⟨0, 0, .ok [], settlesAll_nil, ?_⟩
    intro vs hvs
    cases hvs
    simp
  | cons arg rest ih =>
    rw [List.forall_mem_cons] at h
    obtain ⟨depth, steps, r, hr, hfinal⟩ := h.1
    obtain ⟨depth', steps', rs, hrs, hfinals⟩ := ih h.2
    refine ⟨max depth depth', max steps steps', _, settlesAll_cons
      (hr.mono (Nat.le_max_left ..) (Nat.le_max_left ..))
      (hrs.mono (Nat.le_max_right ..) (Nat.le_max_right ..)), ?_⟩
    intro vs hvs
    obtain ⟨v, hv, hvs⟩ := exists_of_bind_eq_ok hvs
    obtain ⟨us, hus, hvs⟩ := exists_of_bind_eq_ok hvs
    cases hvs
    exact List.forall_mem_cons.mpr ⟨hfinal v hv, hfinals us hus⟩

/-- A call has an outcome if its callee and its arguments have one, and if everything has one that
the callee can return on values. -/
theorem haltsWith_call (hcallee : callee.HaltsWith host env p)
    (hargs : ∀ arg ∈ args, arg.HaltsWith host env fun v => v.isFinal = true)
    (hrun : ∀ f vs u, p (.func f) → (∀ v ∈ vs, v.isFinal = true) →
      f.impl.run host env vs = .ok u → u.HaltsWith host env q) :
    (Term.call callee args).HaltsWith host env q := by
  obtain ⟨depth, steps, rc, hrc, hp⟩ := hcallee
  obtain ⟨depth', steps', rs, hrs, hfinal⟩ := exists_settlesAll hargs
  cases hanswer : rc >>= answer host env rs with
  | error e =>
    refine ⟨max depth depth' + 1, max steps steps' + 1, .error e, ?_, by simp⟩
    exact settles_call_error (hrc.mono (by omega) (by omega))
      (fun _ _ _ => hrs.mono (by omega) (by omega)) hanswer
  | ok u =>
    obtain ⟨c, hc, hu⟩ := exists_of_bind_eq_ok hanswer
    obtain ⟨f, vs, rfl, hvs, hu⟩ :
        ∃ f vs, c = .func f ∧ rs = .ok vs ∧ f.impl.run host env vs = .ok u := by
      cases c with
      | func f =>
        obtain ⟨vs, hvs, hu⟩ := exists_of_bind_eq_ok hu
        exact ⟨f, vs, rfl, hvs, hu⟩
      | int n => cases hu
      | str s => cases hu
      | name n => cases hu
      | call c as => cases hu
    obtain ⟨depth'', steps'', r, hr, hq⟩ := hrun f vs u (hp _ hc) (hfinal vs hvs) hu
    refine ⟨max (max depth depth') depth'' + 1, max (max steps steps') steps'' + 1, r, ?_, hq⟩
    exact settles_call (hrc.mono (by omega) (by omega))
      (fun _ _ _ => hrs.mono (by omega) (by omega)) hanswer (hr.mono (by omega) (by omega))

/-- An arithmetic built-in that is called with values yields an integer or fails. -/
theorem haltsWith_call_arithmetic
    (hcallee : callee.HaltsWith host env fun v =>
      ∀ f, v = .func f → ∃ b serial, f.impl = .builtin b serial ∧ b ≠ .sumSquares)
    (hargs : ∀ arg ∈ args, arg.HaltsWith host env fun v => v.isFinal = true) :
    (Term.call callee args).HaltsWith host env fun v => ∃ k, v = .int k := by
  refine haltsWith_call hcallee hargs ?_
  intro f vs u hf _ hrun
  obtain ⟨b, serial, himpl, hb⟩ := hf f rfl
  rw [himpl] at hrun
  obtain ⟨k, rfl⟩ := Builtin.exists_int_of_apply hb hrun
  exact haltsWith_final rfl ⟨k, rfl⟩

/-- An operator of the sum of squares is not the sum of squares, for it would depend on itself. -/
theorem Sourced.ne_sumSquares (hacyclic : env.Acyclic) {f : Func}
    (hn : n = Builtin.add.symbol ∨ n = Builtin.pow.symbol)
    (h : (Term.name n).Sourced env (.func f)) :
    ∃ b serial, f.impl = .builtin b serial ∧ b ≠ .sumSquares := by
  obtain ⟨b, serial, himpl, hleads⟩ := h.2 f rfl
  refine ⟨b, serial, himpl, ?_⟩
  intro hb
  obtain ⟨hadd, hpow⟩ := hleads hb
  rcases hn with rfl | rfl
  · exact hacyclic _ (leadsTo_name.mp hadd)
  · exact hacyclic _ (leadsTo_name.mp hpow)

/-- A call of an operator of the sum of squares yields an integer or fails, whatever the operator is
bound to. -/
theorem haltsWith_call_operator (hacyclic : env.Acyclic)
    (hn : n = Builtin.add.symbol ∨ n = Builtin.pow.symbol)
    (h : (Term.name n).HaltsWith host env ((Term.name n).Sourced env))
    (hargs : ∀ arg ∈ args, arg.HaltsWith host env fun v => v.isFinal = true) :
    (Term.call (.name n) args).HaltsWith host env fun v => ∃ k, v = .int k := by
  refine haltsWith_call_arithmetic (h.mono ?_) hargs
  rintro v hv f rfl
  exact hv.ne_sumSquares hacyclic hn

theorem haltsWith_sumSquares (hacyclic : env.Acyclic)
    (hop : ∀ n, n = Builtin.add.symbol ∨ n = Builtin.pow.symbol →
      (Term.name n).HaltsWith host env ((Term.name n).Sourced env))
    (hv : v.isFinal = true) (hw : w.isFinal = true) :
    (Term.call (.name Builtin.add.symbol) [squareOf v, squareOf w]).HaltsWith host env
      fun u => ∃ k, u = .int k := by
  have hsquare : ∀ x : Term, x.isFinal = true →
      (squareOf x).HaltsWith host env fun u => u.isFinal = true := by
    intro x hx
    refine (haltsWith_call_operator hacyclic (.inr rfl) (hop _ (.inr rfl)) ?_).mono ?_
    · simp only [List.forall_mem_cons, List.not_mem_nil, false_imp_iff, implies_true, and_true]
      exact ⟨haltsWith_final hx hx, haltsWith_final rfl rfl⟩
    · rintro _ ⟨k, rfl⟩
      rfl
  refine haltsWith_call_operator hacyclic (.inl rfl) (hop _ (.inl rfl)) ?_
  simp only [List.forall_mem_cons, List.not_mem_nil, false_imp_iff, implies_true, and_true]
  exact ⟨hsquare v hv, hsquare w hw⟩

/-- A term has an outcome if its names and everything that it leads to have one. -/
theorem haltsWith_of_names (hacyclic : env.Acyclic) (h : t.OnlyBuiltins)
    (hnames : ∀ k, .name k ∈ t.leaves ∨ t.LeadsTo env k →
      (Term.name k).HaltsWith host env ((Term.name k).Sourced env)) :
    t.HaltsWith host env (t.Sourced env) := by
  induction t using Term.inductionOn with
  | int k => exact haltsWith_final rfl (sourced_int _ k)
  | str s => exact haltsWith_final rfl ⟨rfl, nofun⟩
  | name k => exact hnames k (.inl (List.mem_singleton_self _))
  | func f =>
    refine haltsWith_final rfl ⟨rfl, ?_⟩
    rintro _ ⟨⟩
    obtain ⟨b, serial, himpl⟩ := h f (List.mem_singleton_self _)
    refine ⟨b, serial, himpl, ?_⟩
    rintro rfl
    have hsum : (Term.func f).HoldsSumSquares := ⟨f, serial, List.mem_singleton_self _, himpl⟩
    exact ⟨.inl ⟨hsum, .inl rfl⟩, .inl ⟨hsum, .inr rfl⟩⟩
  | call callee args hcallee hargs =>
    rw [onlyBuiltins_call] at h
    have hsub : ∀ leaf ∈ callee.leaves, leaf ∈ (Term.call callee args).leaves :=
      fun leaf hleaf => mem_leaves_call.mpr (.inl hleaf)
    have hsubs : ∀ arg ∈ args, ∀ leaf ∈ arg.leaves, leaf ∈ (Term.call callee args).leaves :=
      fun arg harg leaf hleaf => mem_leaves_call.mpr (.inr ⟨arg, harg, hleaf⟩)
    have hc := hcallee h.1 fun k hk => hnames k (hk.imp (hsub _) fun hk => hk.of_leaves hsub)
    have has : ∀ arg ∈ args, arg.HaltsWith host env fun v => v.isFinal = true := by
      intro arg harg
      have harg' := hargs arg harg (h.2 arg harg) fun k hk =>
        hnames k (hk.imp (hsubs arg harg _) fun hk => hk.of_leaves (hsubs arg harg))
      exact harg'.mono fun v hv => hv.1
    refine haltsWith_call hc has ?_
    intro f vs u hf hvs hrun
    -- Whatever built-in the callee is, it ends with an integer, so no function comes out of a call.
    suffices hint : u.HaltsWith host env fun v => ∃ k, v = .int k by
      refine hint.mono ?_
      rintro _ ⟨k, rfl⟩
      exact sourced_int _ k
    obtain ⟨b, serial, himpl, hleads⟩ := hf.2 f rfl
    rw [himpl] at hrun
    by_cases hb : b = .sumSquares
    · subst hb
      obtain ⟨hadd, hpow⟩ := hleads rfl
      obtain ⟨v, w, rfl, rfl⟩ := Builtin.sumSquares_apply_eq_ok hrun
      simp only [List.forall_mem_cons] at hvs
      refine haltsWith_sumSquares hacyclic ?_ hvs.1 hvs.2.1
      rintro _ (rfl | rfl)
      · exact hnames _ (.inr (hadd.of_leaves hsub))
      · exact hnames _ (.inr (hpow.of_leaves hsub))
    · obtain ⟨k, rfl⟩ := Builtin.exists_int_of_apply hb hrun
      exact haltsWith_final rfl ⟨k, rfl⟩

/-- Every name has an outcome, by induction along the dependencies. -/
theorem haltsWith_name (henv : env.OnlyBuiltins) (hacyclic : env.Acyclic) (n : String) :
    (Term.name n).HaltsWith host env ((Term.name n).Sourced env) := by
  induction n using hacyclic.wellFounded.induction with
  | _ n ih =>
    cases hn : env.get? n with
    | none => exact ⟨0, 1, .error (.unboundName n), settles_unbound hn, by simp⟩
    | some u =>
      have hu : u.HaltsWith host env (u.Sourced env) := by
        refine haltsWith_of_names hacyclic (henv n u hn) ?_
        rintro k (hk | hk)
        · exact ih k (.single ⟨u, hn, .inl hk⟩)
        · exact ih k (hk.transGen hn)
      obtain ⟨depth, steps, r, hr, hsourced⟩ := hu
      refine ⟨depth, steps + 1, r, settles_name hn hr, ?_⟩
      -- What the binding leads to lies further down than the name, so the name leads there as well.
      intro v hv
      obtain ⟨hfinal, hfunc⟩ := hsourced v hv
      refine ⟨hfinal, ?_⟩
      intro f hf
      obtain ⟨b, serial, himpl, hleads⟩ := hfunc f hf
      refine ⟨b, serial, himpl, ?_⟩
      intro hb
      obtain ⟨hadd, hpow⟩ := hleads hb
      exact ⟨leadsTo_name.mpr (hadd.transGen hn), leadsTo_name.mpr (hpow.transGen hn)⟩

/-- Without cycles between names, every term over the built-ins has an outcome: a value or a
failure.  The base environment has no cycles. -/
theorem reduce_terminates_of_acyclic (host : Host) :
    (∀ env : Env, env.OnlyBuiltins → env.Acyclic → ∀ t : Term, t.OnlyBuiltins →
      ∃ r, t.Returns host env r ∧ ∀ v, r = .ok v → v.isFinal = true) ∧
      ∀ t : Term, t.OnlyBuiltins →
        ∃ r, t.Returns host Env.base r ∧ ∀ v, r = .ok v → v.isFinal = true := by
  have hterm : ∀ env : Env, env.OnlyBuiltins → env.Acyclic → ∀ t : Term, t.OnlyBuiltins →
      ∃ r, t.Returns host env r ∧ ∀ v, r = .ok v → v.isFinal = true := by
    intro env henv hacyclic t ht
    obtain ⟨depth, steps, r, hr, hsourced⟩ : t.HaltsWith host env (t.Sourced env) :=
      haltsWith_of_names hacyclic ht fun k _ => haltsWith_name henv hacyclic k
    exact ⟨r, hr.returns, fun v hv => (hsourced v hv).1⟩
  exact ⟨hterm, hterm Env.base Env.onlyBuiltins_base Env.acyclic_base⟩

end Term

/-- The base environment with two more names, one of which depends on the other. -/
def Env.withArea : Env :=
  (base.insert "side" (.int 4)).insert "area" (.call (.name "x^2+y^2") [.int 3, .name "side"])

theorem Term.reduce_terminates_withArea :
    Env.withArea.OnlyBuiltins ∧ Env.withArea.Acyclic ∧ ∃ r,
      (Term.name "area").Returns Host.bare Env.withArea r ∧ ∀ v, r = .ok v → v.isFinal = true := by
  have henv : Env.withArea.OnlyBuiltins := by
    refine (Env.onlyBuiltins_base.insert ?_ _).insert ?_ _
    · simp [OnlyBuiltins, leaves]
    · simp [OnlyBuiltins, leaves, leavesOfAll]
  have hacyclic : Env.withArea.Acyclic := by
    refine Env.acyclic_of_rank
      (fun n => if n = "area" then 2 else if n = "x^2+y^2" then 1 else 0) ?_
    intro n m h
    rw [Env.withArea, Env.depends_insert, Env.depends_insert] at h
    rcases h with ⟨rfl, h⟩ | ⟨-, ⟨rfl, h⟩ | ⟨-, h⟩⟩
    · obtain rfl | rfl : m = "x^2+y^2" ∨ m = "side" := by
        simpa [Uses, HoldsSumSquares, leaves, leavesOfAll] using h
      · decide
      · decide
    · simp [Uses, HoldsSumSquares, leaves] at h
    · obtain ⟨rfl, rfl | rfl⟩ := Env.eq_of_depends_base h <;> decide
  exact ⟨henv, hacyclic, (reduce_terminates_of_acyclic Host.bare).1 _ henv hacyclic _ (by
    simp [OnlyBuiltins, leaves])⟩

end Reduct
