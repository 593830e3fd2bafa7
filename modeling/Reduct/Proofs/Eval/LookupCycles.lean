import Reduct.Proofs.Eval.Divergence
import Reduct.Proofs.Eval.Locality

/-!
# Termination without lookup cycles

That no name resolves to itself is not enough for reduction to end.  The sum of squares looks its
operators up by name, and an operator can be bound to the sum of squares without mentioning a name.
Two calls tell whether this happens.

## Main definitions

* `Env.Mentions` — the names that are written in the binding of a name.
* `Env.NoLookupCycle` — no name resolves to itself through the names written in bindings.
* `Term.Halts` — a term has an outcome.
* `Term.squaresOf` — the call that the sum of squares returns.

## Main results

* `Term.halts_of_noLookupCycle` — without lookup cycles all terms have an outcome, provided that the
  sum of squares has one on all values.
* `Term.halts_squaresOf` — the sum of squares has an outcome on all values, provided that it has one
  on two zeros and on two ones.
* `Term.reduce_terminates_iff_sumSquares` — without lookup cycles all terms have an outcome exactly
  if these two calls have one.
-/

namespace Reduct

open Relation

namespace Env

/-- The second name is written in the binding of the first one. -/
def Mentions (env : Env) (n m : String) : Prop := ∃ t, env.get? n = some t ∧ .name m ∈ t.leaves

/-- No name resolves to itself, directly or through the bindings of other names. -/
def NoLookupCycle (env : Env) : Prop := ∀ n, ¬TransGen env.Mentions n n

end Env

namespace Term

/-- A term has an outcome, be it a value or a failure. -/
def Halts (host : Host) (env : Env) (t : Term) : Prop := ∃ r, Evaluates host env t r

/-- The call that the sum of squares returns. -/
def squaresOf (v w : Term) : Term := .call (.name Builtin.add.symbol) [squareOf v, squareOf w]

variable {host : Host} {env : Env} {t u v w x callee : Term} {args vs : List Term} {f g : Func}
  {b : Builtin} {serial : Nat} {r : Except EvalError Term}

theorem Evaluates.builtin (henv : env.OnlyBuiltins) (ht : t.OnlyBuiltins)
    (h : Evaluates host env t (.ok (.func f))) : ∃ b serial, f.impl = .builtin b serial := by
  have hagree : Env.Agree (fun _ => True) env env :=
    ⟨fun _ _ => rfl, fun n u _ hu => ⟨henv n u hu, fun _ _ => trivial⟩⟩
  have hwithin := (h.transfer hagree ⟨ht, fun _ _ => trivial⟩).2 _ rfl
  exact hwithin.1 f (List.mem_singleton_self _)

theorem Diverges.not_halts (h : t.Diverges host env) : ¬t.Halts host env := by
  rintro ⟨r, hr⟩
  exact diverges_iff_not_evaluates.mp h r hr

theorem onlyBuiltins_name (n : String) : (Term.name n).OnlyBuiltins := by
  simp [OnlyBuiltins, leaves]

theorem EvaluatesAll.isFinal (h : EvaluatesAll host env args (.ok vs)) :
    ∀ v ∈ vs, v.isFinal = true := by
  induction args generalizing vs with
  | nil =>
    cases h
    simp
  | cons arg rest ih =>
    cases h with
    | cons hhead htail => exact List.forall_mem_cons.mpr ⟨hhead.isFinal _ rfl, ih htail⟩

theorem exists_evaluatesAll (h : ∀ arg ∈ args, arg.Halts host env) :
    ∃ rs, EvaluatesAll host env args rs := by
  induction args with
  | nil => exact ⟨_, .nil⟩
  | cons arg rest ih =>
    rw [List.forall_mem_cons] at h
    obtain ⟨r, hr⟩ := h.1
    obtain ⟨rs, hrs⟩ := ih h.2
    cases r with
    | error e => exact ⟨_, .headFails hr⟩
    | ok v =>
      cases rs with
      | error e => exact ⟨_, .tailFails hr hrs⟩
      | ok vs => exact ⟨_, .cons hr hrs⟩

/-- A call has an outcome if its callee and its arguments have one, and if what the callee returns
has one. -/
theorem halts_call (hcallee : callee.Halts host env)
    (hargs : ∀ f, Evaluates host env callee (.ok (.func f)) → ∃ rs, EvaluatesAll host env args rs)
    (hrun : ∀ f vs u, Evaluates host env callee (.ok (.func f)) →
      EvaluatesAll host env args (.ok vs) → f.impl.run host env vs = .ok u → u.Halts host env) :
    (Term.call callee args).Halts host env := by
  obtain ⟨rc, hrc⟩ := hcallee
  cases rc with
  | error e => exact ⟨_, .calleeFails hrc⟩
  | ok c =>
    cases c with
    | func f =>
      obtain ⟨rs, hrs⟩ := hargs f hrc
      cases rs with
      | error e => exact ⟨_, .argumentFails hrc hrs⟩
      | ok vs =>
        cases hu : f.impl.run host env vs with
        | error e => exact ⟨_, .functionFails hrc hrs hu⟩
        | ok u =>
          obtain ⟨r, hr⟩ := hrun f vs u hrc hrs hu
          exact ⟨r, .returned hrc hrs hu hr⟩
    | _ => exact ⟨_, .refused hrc rfl⟩

/-! ### Names without lookup cycles -/

theorem halts_of_names (henv : env.OnlyBuiltins)
    (hsum : ∀ v w, v.isFinal = true → w.isFinal = true → (squaresOf v w).Halts host env)
    (ht : t.OnlyBuiltins) (hnames : ∀ n, .name n ∈ t.leaves → (Term.name n).Halts host env) :
    t.Halts host env := by
  induction t using Term.inductionOn with
  | int n => exact ⟨_, .value rfl⟩
  | str s => exact ⟨_, .value rfl⟩
  | func f => exact ⟨_, .value rfl⟩
  | name n => exact hnames n (List.mem_singleton_self _)
  | call callee args hcallee hargs =>
    rw [onlyBuiltins_call] at ht
    have hc := hcallee ht.1 fun n hn => hnames n (mem_leaves_call.mpr (.inl hn))
    have has : ∀ arg ∈ args, arg.Halts host env := fun arg harg =>
      hargs arg harg (ht.2 arg harg) fun n hn =>
        hnames n (mem_leaves_call.mpr (.inr ⟨arg, harg, hn⟩))
    refine halts_call hc (fun _ _ => exists_evaluatesAll has) ?_
    intro f vs u hf hvs hrun
    obtain ⟨b, serial, himpl⟩ := hf.builtin henv ht.1
    rw [himpl] at hrun
    by_cases hb : b = .sumSquares
    · subst hb
      obtain ⟨v, w, rfl, rfl⟩ := Builtin.sumSquares_apply_eq_ok hrun
      have hfinal := hvs.isFinal
      exact hsum v w (hfinal v (by simp)) (hfinal w (by simp))
    · obtain ⟨n, rfl⟩ := Builtin.exists_int_of_apply hb hrun
      exact ⟨_, .value rfl⟩

theorem halts_of_noLookupCycle (henv : env.OnlyBuiltins) (hcycle : env.NoLookupCycle)
    (hsum : ∀ v w, v.isFinal = true → w.isFinal = true → (squaresOf v w).Halts host env)
    (ht : t.OnlyBuiltins) : t.Halts host env := by
  have hwf : WellFounded fun m n => TransGen env.Mentions n m := by
    refine env.wellFounded_of_irrefl ?_ hcycle
    rintro n m ⟨u, hu, -⟩
    exact Env.mem_names_of_get? hu
  have hname : ∀ n, (Term.name n).Halts host env := by
    -- Along the names that bindings mention.  Those that a function brings in later are not among
    -- them, which is what the hypothesis on the sum of squares makes up for.
    intro n
    induction n using hwf.induction with
    | _ n ih =>
      cases hn : env.get? n with
      | none => exact ⟨_, .unbound hn⟩
      | some u =>
        have hu : u.Halts host env :=
          halts_of_names henv hsum (henv n u hn) fun m hm => ih m (.single ⟨u, hn, hm⟩)
        obtain ⟨r, hr⟩ := hu
        exact ⟨r, .bound hn hr⟩
  exact halts_of_names henv hsum ht fun n _ => hname n

/-! ### Calls with an outcome -/

theorem Evaluates.func_of_ok (h : Evaluates host env (.call callee args) (.ok v)) :
    ∃ f, Evaluates host env callee (.ok (.func f)) := by
  cases h with
  | value hv => cases hv
  | returned hc _ _ _ => exact ⟨_, hc⟩

theorem Halts.of_callee (h : (Term.call callee args).Halts host env) : callee.Halts host env := by
  obtain ⟨r, h⟩ := h
  cases h with
  | value hv => cases hv
  | calleeFails hc => exact ⟨_, hc⟩
  | refused hc _ => exact ⟨_, hc⟩
  | argumentFails hc _ => exact ⟨_, hc⟩
  | functionFails hc _ _ => exact ⟨_, hc⟩
  | returned hc _ _ _ => exact ⟨_, hc⟩

theorem Evaluates.of_func (h : Evaluates host env (.call callee args) r)
    (hcallee : Evaluates host env callee (.ok (.func f))) :
    ∃ rs, EvaluatesAll host env args rs ∧
      ∀ vs u, rs = .ok vs → f.impl.run host env vs = .ok u → Evaluates host env u r := by
  cases h with
  | value hv => cases hv
  | calleeFails hc => cases hcallee.unique hc
  | refused hc hv =>
    cases hcallee.unique hc
    cases hv
  | argumentFails _ hargs => exact ⟨_, hargs, nofun⟩
  | functionFails hc hargs hrun =>
    cases hcallee.unique hc
    refine ⟨_, hargs, ?_⟩
    rintro _ u ⟨⟩ hu
    cases hrun.symm.trans hu
  | returned hc hargs hrun hr =>
    cases hcallee.unique hc
    refine ⟨_, hargs, ?_⟩
    rintro _ u ⟨⟩ hu
    cases hrun.symm.trans hu
    exact hr

theorem Halts.of_head (h : (Term.call callee (t :: args)).Halts host env)
    (hcallee : Evaluates host env callee (.ok (.func f))) : t.Halts host env := by
  obtain ⟨r, h⟩ := h
  obtain ⟨rs, hrs, -⟩ := h.of_func hcallee
  cases hrs with
  | headFails ht => exact ⟨_, ht⟩
  | tailFails ht _ => exact ⟨_, ht⟩
  | cons ht _ => exact ⟨_, ht⟩

/-! ### The sum of squares -/

theorem run_sumSquares (hf : f.impl = .builtin .sumSquares serial) (v w : Term) :
    f.impl.run host env [v, w] = .ok (squaresOf v w) := by
  rw [hf]
  rfl

theorem evaluatesAll_pair (hv : v.isFinal = true) (hw : w.isFinal = true) :
    EvaluatesAll host env [v, w] (.ok [v, w]) :=
  .cons (.value hv) (.cons (.value hw) .nil)

/-- If the operator that squares is the sum of squares itself, then each square is the sum of itself
and another one. -/
theorem diverges_squareOf (hf : f.impl = .builtin .sumSquares serial)
    (hpow : Evaluates host env (.name Builtin.pow.symbol) (.ok (.func f)))
    (hadd : Evaluates host env (.name Builtin.add.symbol) (.ok (.func g)))
    (hx : x.isFinal = true) : (squareOf x).Diverges host env := by
  have hloop : ∀ t, t = squareOf x ∨ t = squaresOf x (.int 2) →
      ∃ u, Awaits host env t u ∧ (u = squareOf x ∨ u = squaresOf x (.int 2)) := by
    rintro t (rfl | rfl)
    · exact ⟨_, .result hpow (evaluatesAll_pair hx rfl) (run_sumSquares hf _ _), .inr rfl⟩
    · exact ⟨_, @Awaits.argument _ _ _ _ _ [] _ _ hadd .nil, .inl rfl⟩
  exact diverges_of_awaits hloop (.inl rfl)

/-- If the operator that adds is the sum of squares itself, and squaring leads from a value back to
it, then the sum of its squares is the same sum again. -/
theorem diverges_squaresOf (hg : g.impl = .builtin .sumSquares serial)
    (hadd : Evaluates host env (.name Builtin.add.symbol) (.ok (.func g)))
    (hx : Evaluates host env (squareOf x) (.ok x)) : (squaresOf x x).Diverges host env := by
  have hloop : ∀ t, t = squaresOf x x → ∃ u, Awaits host env t u ∧ u = squaresOf x x := by
    rintro t rfl
    exact ⟨_, .result hadd (.cons hx (.cons hx .nil)) (run_sumSquares hg _ _), rfl⟩
  exact diverges_of_awaits hloop rfl

theorem evaluates_squareOf (hf : f.impl = .builtin b serial) (hb : b ≠ .sumSquares)
    (hpow : Evaluates host env (.name Builtin.pow.symbol) (.ok (.func f)))
    (hx : x.isFinal = true) : Evaluates host env (squareOf x) (b.apply [x, .int 2]) := by
  have hargs : EvaluatesAll host env [x, .int 2] (.ok [x, .int 2]) := evaluatesAll_pair hx rfl
  have hrun : f.impl.run host env [x, .int 2] = b.apply [x, .int 2] := by
    rw [hf]
    rfl
  cases happly : b.apply [x, .int 2] with
  | error e => exact .functionFails hpow hargs (hrun.trans happly)
  | ok u =>
    obtain ⟨n, rfl⟩ := Builtin.exists_int_of_apply hb happly
    exact .returned hpow hargs (hrun.trans happly) (.value rfl)

/-- If the operator that adds is the sum of squares itself, squaring goes on as long as it yields
integers.  A measure that squaring makes smaller bounds how long that can be. -/
theorem halts_squaresOf_of_measure (hg : g.impl = .builtin .sumSquares serial)
    (hadd : Evaluates host env (.name Builtin.add.symbol) (.ok (.func g)))
    (hsquare : ∀ x, x.isFinal = true → Evaluates host env (squareOf x) (b.apply [x, .int 2]))
    (hb : b ≠ .sumSquares) (measure : Int64 → Nat)
    (hmeasure : ∀ n m, b.apply [.int n, .int 2] = .ok (.int m) → measure m < measure n)
    (hv : v.isFinal = true) (hw : w.isFinal = true) : (squaresOf v w).Halts host env := by
  -- One round: a sum of squares of any two values ends if the sum of squares of their squares does.
  have hnext : ∀ v w, v.isFinal = true → w.isFinal = true →
      (∀ n m, b.apply [v, .int 2] = .ok (.int n) → (squaresOf (.int n) (.int m)).Halts host env) →
        (squaresOf v w).Halts host env := by
    intro v w hv hw hstep
    have hsquares : ∀ arg ∈ [squareOf v, squareOf w], arg.Halts host env := by
      simpa using ⟨⟨_, hsquare v hv⟩, ⟨_, hsquare w hw⟩⟩
    refine halts_call ⟨_, hadd⟩ (fun _ _ => exists_evaluatesAll hsquares) ?_
    intro f vs u hf hvs hrun
    cases hadd.unique hf
    obtain ⟨x, y, rfl, rfl⟩ := Builtin.sumSquares_apply_eq_ok (hg ▸ hrun)
    cases hvs with
    | cons hx hrest =>
      cases hrest with
      | cons hy _ =>
        have hx' := (hsquare v hv).unique hx
        obtain ⟨n, rfl⟩ := Builtin.exists_int_of_apply hb hx'
        obtain ⟨m, rfl⟩ := Builtin.exists_int_of_apply hb ((hsquare w hw).unique hy)
        exact hstep n m hx'
  have hints : ∀ bound n m, measure n < bound → (squaresOf (.int n) (.int m)).Halts host env := by
    intro bound
    induction bound with
    | zero => exact fun n m hlt => absurd hlt (Nat.not_lt_zero _)
    | succ bound ih =>
      intro n m hlt
      refine hnext _ _ rfl rfl fun n' m' hn' => ih n' m' ?_
      have hless := hmeasure n n' hn'
      omega
  exact hnext v w hv hw fun n m _ => hints (measure n + 1) n m (Nat.lt_succ_self _)

theorem halts_squareOf (henv : env.OnlyBuiltins)
    (hadd : Evaluates host env (.name Builtin.add.symbol) (.ok (.func g)))
    (hzero : (squareOf (.int 0)).Halts host env) (hx : x.isFinal = true) :
    (squareOf x).Halts host env := by
  refine halts_call hzero.of_callee (fun _ _ => ⟨_, evaluatesAll_pair hx rfl⟩) ?_
  intro f vs u hpow hvs hrun
  obtain ⟨b, serial, hf⟩ := hpow.builtin henv (onlyBuiltins_name _)
  by_cases hb : b = .sumSquares
  · subst hb
    exact absurd hzero (diverges_squareOf hf hpow hadd rfl).not_halts
  · rw [hf] at hrun
    obtain ⟨n, rfl⟩ := Builtin.exists_int_of_apply hb hrun
    exact ⟨_, .value rfl⟩

/-- Where the operator that adds is the sum of squares, it depends on the operator that squares
whether there is an end: adding or subtracting two overflows some time, but doubling leads from zero
back to zero and squaring from one back to one. -/
theorem halts_squaresOf_of_sumSquares (hg : g.impl = .builtin .sumSquares serial)
    (hadd : Evaluates host env (.name Builtin.add.symbol) (.ok (.func g)))
    {serial' : Nat} (hf : f.impl = .builtin b serial')
    (hpow : Evaluates host env (.name Builtin.pow.symbol) (.ok (.func f)))
    (hzero : (squaresOf (.int 0) (.int 0)).Halts host env)
    (hone : (squaresOf (.int 1) (.int 1)).Halts host env)
    (hv : v.isFinal = true) (hw : w.isFinal = true) : (squaresOf v w).Halts host env := by
  cases b with
  | add =>
    refine halts_squaresOf_of_measure hg hadd (fun x => evaluates_squareOf hf (by decide) hpow)
      (by decide) (fun n => (Int64.maxValue.toInt - n.toInt).toNat) ?_ hv hw
    intro n m hm
    have hsum : m.toInt = n.toInt + 2 := Word.ofInt?_eq_some_iff.mp (eq_some_of_exactly hm)
    have hmax : m.toInt ≤ Int64.maxValue.toInt := Int64.toInt_le m
    omega
  | sub =>
    refine halts_squaresOf_of_measure hg hadd (fun x => evaluates_squareOf hf (by decide) hpow)
      (by decide) (fun n => (n.toInt - Int64.minValue.toInt).toNat) ?_ hv hw
    intro n m hm
    have hdifference : m.toInt = n.toInt - 2 := Word.ofInt?_eq_some_iff.mp (eq_some_of_exactly hm)
    have hmin : Int64.minValue.toInt ≤ m.toInt := Int64.minValue_le_toInt m
    omega
  | mul =>
    have hback : Evaluates host env (squareOf (.int 0)) (.ok (.int 0)) :=
      evaluates_squareOf hf (by decide) hpow rfl
    exact absurd hzero (diverges_squaresOf hg hadd hback).not_halts
  | pow =>
    have hback : Evaluates host env (squareOf (.int 1)) (.ok (.int 1)) := by
      rw [← Builtin.pow_apply_two (by decide)]
      exact evaluates_squareOf hf (by decide) hpow rfl
    exact absurd hone (diverges_squaresOf hg hadd hback).not_halts
  | sumSquares =>
    exact absurd (hzero.of_head hadd) (diverges_squareOf hf hpow hadd rfl).not_halts

/-- The sum of squares has an outcome on all values if it has one on two zeros and on two ones. -/
theorem halts_squaresOf (henv : env.OnlyBuiltins)
    (hzero : (squaresOf (.int 0) (.int 0)).Halts host env)
    (hone : (squaresOf (.int 1) (.int 1)).Halts host env)
    (hv : v.isFinal = true) (hw : w.isFinal = true) : (squaresOf v w).Halts host env := by
  have hsquares : ∀ g, Evaluates host env (.name Builtin.add.symbol) (.ok (.func g)) →
      ∃ rs, EvaluatesAll host env [squareOf v, squareOf w] rs := by
    intro g hadd
    apply exists_evaluatesAll
    simpa using ⟨halts_squareOf henv hadd (hzero.of_head hadd) hv,
      halts_squareOf henv hadd (hzero.of_head hadd) hw⟩
  by_cases hpow : ∃ f, Evaluates host env (.name Builtin.pow.symbol) (.ok (.func f))
  · obtain ⟨f, hpow⟩ := hpow
    obtain ⟨c, serial, hf⟩ := hpow.builtin henv (onlyBuiltins_name _)
    refine halts_call hzero.of_callee hsquares ?_
    intro g vs u hadd hvs hrun
    obtain ⟨b, serial', hg⟩ := hadd.builtin henv (onlyBuiltins_name _)
    by_cases hb : b = .sumSquares
    · subst hb
      rw [hg] at hrun
      obtain ⟨x, y, rfl, rfl⟩ := Builtin.sumSquares_apply_eq_ok hrun
      have hfinal := hvs.isFinal
      exact halts_squaresOf_of_sumSquares hg hadd hf hpow hzero hone (hfinal x (by simp))
        (hfinal y (by simp))
    · rw [hg] at hrun
      obtain ⟨n, rfl⟩ := Builtin.exists_int_of_apply hb hrun
      exact ⟨_, .value rfl⟩
  · -- Nothing is squared, so the sum fails before it is taken.
    refine halts_call hzero.of_callee hsquares ?_
    intro g vs u _ hvs _
    cases hvs with
    | cons hx _ => exact absurd hx.func_of_ok hpow

/-! ### Every term -/

theorem evaluates_call_sumSquares (hv : v.isFinal = true) (hw : w.isFinal = true) :
    Evaluates host env (.call (.func (Builtin.sumSquares.toFunc serial)) [v, w]) r ↔
      Evaluates host env (squaresOf v w) r := by
  have hcallee : Evaluates host env (.func (Builtin.sumSquares.toFunc serial))
      (.ok (.func (Builtin.sumSquares.toFunc serial))) := .value rfl
  constructor
  · intro h
    obtain ⟨rs, hrs, hu⟩ := h.of_func hcallee
    exact hu [v, w] _ (hrs.unique (evaluatesAll_pair hv hw)) rfl
  · intro h
    exact .returned hcallee (evaluatesAll_pair hv hw) rfl h

theorem onlyBuiltins_call_sumSquares (n : Int64) :
    (Term.call (.func (Builtin.sumSquares.toFunc serial)) [.int n, .int n]).OnlyBuiltins := by
  simp [OnlyBuiltins, leaves, leavesOfAll, Builtin.toFunc]

/-- Let no name resolve to itself.  Then all terms over the built-ins have an outcome exactly if the
sum of squares has one on two zeros and on two ones. -/
theorem reduce_terminates_iff_sumSquares (host : Host) (env : Env) (henv : env.OnlyBuiltins)
    (hcycle : env.NoLookupCycle) :
    (∀ t : Term, t.OnlyBuiltins → ∃ r, t.Returns host env r) ↔
      ∀ n ∈ [(0 : Int64), 1], ∃ r,
        (Term.call (.func (Builtin.sumSquares.toFunc 0)) [.int n, .int n]).Returns host env r := by
  constructor
  · intro h n _
    exact h _ (onlyBuiltins_call_sumSquares n)
  · intro h t ht
    have hsquares : ∀ n ∈ [(0 : Int64), 1], (squaresOf (.int n) (.int n)).Halts host env := by
      intro n hn
      obtain ⟨r, hr⟩ := h n hn
      exact ⟨r, (evaluates_call_sumSquares rfl rfl).mp (returns_iff_evaluates.mp hr)⟩
    have hzero := hsquares 0 (by simp)
    have hone := hsquares 1 (by simp)
    obtain ⟨r, hr⟩ := halts_of_noLookupCycle henv hcycle
      (fun v w hv hw => halts_squaresOf henv hzero hone hv hw) ht
    exact ⟨r, hr.returns⟩

end Term

theorem Env.mentions_insert {env : Env} {k n m : String} {t : Term} :
    (env.insert k t).Mentions n m ↔ (n = k ∧ .name m ∈ t.leaves) ∨ (n ≠ k ∧ env.Mentions n m) := by
  simp only [Mentions, get?_insert]
  by_cases hn : n = k
  · simp [hn]
  · simp [hn]

theorem Env.not_mentions_base {n m : String} : ¬base.Mentions n m := by
  rintro ⟨t, ht, hm⟩
  rw [get?_base] at ht
  obtain ⟨b, -, rfl⟩ := Option.map_eq_some_iff.mp ht
  cases List.mem_singleton.mp hm

/-- The base environment in which the difference stands for the sum as well. -/
def Env.subtracting : Env := base.insert "+" (.name "-")

theorem Term.reduce_terminates_subtracting :
    Env.subtracting.OnlyBuiltins ∧ Env.subtracting.NoLookupCycle ∧ ∃ r,
      (Term.call (.name "x^2+y^2") [.name "+", .str "side"]).Returns Host.bare Env.subtracting
        r := by
  have henv : Env.subtracting.OnlyBuiltins := Env.onlyBuiltins_base.insert (onlyBuiltins_name _) _
  have hcycle : Env.subtracting.NoLookupCycle := by
    refine Env.irrefl_of_rank (fun n => if n = "+" then 1 else 0) ?_
    intro n m h
    rcases Env.mentions_insert.mp h with ⟨rfl, hm⟩ | ⟨-, h⟩
    · cases List.mem_singleton.mp hm
      decide
    · exact absurd h Env.not_mentions_base
  have hsquare : ∀ n ∈ [(0 : Int64), 1],
      Evaluates Host.bare Env.subtracting (squareOf (.int n)) (.ok (.int n)) := by
    intro n hn
    exact .returned (.bound rfl (.value rfl)) (evaluatesAll_pair rfl rfl)
      (Builtin.pow_apply_two hn) (.value rfl)
  refine ⟨henv, hcycle, (reduce_terminates_iff_sumSquares _ _ henv hcycle).mpr ?_ _ ?_⟩
  · intro n hn
    have hargs := EvaluatesAll.cons (hsquare n hn) (.cons (hsquare n hn) .nil)
    refine ⟨.ok (.int 0), Evaluates.returns ((evaluates_call_sumSquares rfl rfl).mpr ?_)⟩
    refine .returned (.bound rfl (.bound rfl (.value rfl))) hargs ?_ (.value rfl)
    rcases List.mem_pair.mp hn with rfl | rfl <;> rfl
  · simp [OnlyBuiltins, leaves, leavesOfAll]

/-- The base environment in which the sum of squares stands for the sum as well. -/
def Env.squaring : Env := base.insert "+" (.func (Builtin.sumSquares.toFunc 0))

/-- No name resolves to itself here, no binding even mentions one, and still there is a call without
an outcome. -/
theorem Term.diverges_squaring :
    Env.squaring.OnlyBuiltins ∧ Env.squaring.NoLookupCycle ∧
      (Term.call (.name "+") [.int 1, .int 1]).OnlyBuiltins ∧
        (Term.call (.name "+") [.int 1, .int 1]).Diverges Host.bare Env.squaring := by
  refine ⟨Env.onlyBuiltins_base.insert ?_ _, ?_, ?_, ?_⟩
  · simp [OnlyBuiltins, leaves, Builtin.toFunc]
  · refine Env.irrefl_of_rank (fun _ => 0) ?_
    intro n m h
    rcases Env.mentions_insert.mp h with ⟨-, hm⟩ | ⟨-, h⟩
    · cases List.mem_singleton.mp hm
    · exact absurd h Env.not_mentions_base
  · simp [OnlyBuiltins, leaves, leavesOfAll]
  · have hadd : Evaluates Host.bare Env.squaring (.name "+")
        (.ok (.func (Builtin.sumSquares.toFunc 0))) := .bound rfl (.value rfl)
    have hone : Evaluates Host.bare Env.squaring (squareOf (.int 1)) (.ok (.int 1)) :=
      .returned (.bound rfl (.value rfl)) (evaluatesAll_pair rfl rfl)
        (Builtin.pow_apply_two (by decide)) (.value rfl)
    have hloop : ¬(squaresOf (.int 1) (.int 1)).Halts Host.bare Env.squaring :=
      (diverges_squaresOf rfl hadd hone).not_halts
    rw [diverges_iff_not_evaluates]
    intro r hr
    obtain ⟨rs, hrs, hu⟩ := hr.of_func hadd
    exact hloop ⟨r, hu _ _ (hrs.unique (evaluatesAll_pair rfl rfl)) rfl⟩

end Reduct
