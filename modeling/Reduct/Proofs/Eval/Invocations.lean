import Reduct.Proofs.Eval.Denote
import Reduct.Proofs.Eval.Rules

/-!
# The order of invocations

Which functions run while a term is reduced, and in which order, can be read off the term: callees
first, then arguments from left to right, then the call itself.  A reduction that fails has followed
this plan up to the failure.

## Main definitions

* `Term.invocations` — the invocations that a term calls for, in post-order.
* `Run.invocations` — the invocations that a run reports.
* `Run.Follows` — a run makes the invocations of a plan in order, and stops early only if it fails.

## Main results

* `Run.Follows.bind` — plans are put together as runs are.
* `Term.follows_reduceWithin` — a reduction follows the plan of its term, whatever its budget.
* `Term.invocations_reduce_isPrefix` — over the built-ins, the reported invocations are those of the
  term if it has a value, and the first of them if it has none.
-/

namespace Reduct

/-- The function that is about to run and the number of its arguments. -/
def Event.invocation? : Event → Option (Func × Nat)
  | .invoking f args => some (f, args.length)
  | _ => none

theorem Event.message_of_invocation? {e : Event} {f : Func} {count : Nat}
    (h : e.invocation? = some (f, count)) :
    e.message = "invoking `" ++ f.name ++ "` with " ++ toString count ++ " argument(s)" := by
  cases e with
  | invoking g args =>
    cases h
    rfl
  | _ => cases h

/-- What a function invokes after it has run on so many arguments: the sum of squares of two squares
the first, squares the second and adds the squares. -/
def Func.followUp (f : Func) (count : Nat) : List (Func × Nat) :=
  match f.impl with
  | .builtin .sumSquares _ =>
    if count = 2 then
      [(Builtin.pow.toFunc 0, 2), (Builtin.pow.toFunc 0, 2), (Builtin.add.toFunc 0, 2)]
    else []
  | _ => []

namespace Term

/-- The function that a callee stands for: a built-in by its name, or a function itself. -/
def function? : Term → Option Func
  | .name n => (Builtin.ofSymbol? n).map fun b => b.toFunc 0
  | .func f => some f
  | _ => none

mutual

/-- The invocations that a term calls for: those of the callee, those of the arguments from left to
right, and then that of the call itself, if its callee stands for a function. -/
def invocations : Term → List (Func × Nat)
  | .call callee args =>
    invocations callee ++ (invocationsOfAll args ++
      match function? callee with
      | some f => (f, args.length) :: f.followUp args.length
      | none => [])
  | _ => []

/-- The invocations that several terms call for, from left to right. -/
def invocationsOfAll : List Term → List (Func × Nat)
  | [] => []
  | t :: rest => invocations t ++ invocationsOfAll rest

end

theorem invocations_of_isFinal {t : Term} (h : t.isFinal = true) : t.invocations = [] := by
  cases t with
  | call callee args => cases h
  | _ => rw [invocations]; nofun

end Term

namespace Run

variable {α β : Type} {x : Run α} {f : α → Run β} {plan later : List (Func × Nat)}

/-- The invocations that a run reports. -/
def invocations (x : Run α) : List (Func × Nat) := x.events.filterMap Event.invocation?

/-- A run makes the invocations of a plan in order: all of them if it yields something, and the
first of them if it stops. -/
structure Follows (x : Run α) (plan : List (Func × Nat)) : Prop where
  isPrefix : x.invocations <+: plan
  complete : ∀ a, x.result = .ok a → x.invocations = plan

theorem follows_of_invocations_eq (h : x.invocations = plan) : x.Follows plan :=
  ⟨h ▸ List.prefix_refl _, fun _ _ => h⟩

/-- A run that stops without an invocation follows every plan. -/
theorem follows_of_stop {stop : Stop} (hr : x.result = .error stop) (h : x.invocations = []) :
    x.Follows plan := by
  refine ⟨h ▸ List.nil_prefix, ?_⟩
  intro a ha
  cases hr.symm.trans ha

theorem Follows.bind (hx : x.Follows plan) (hf : ∀ a, x.result = .ok a → (f a).Follows later) :
    Follows (x >>= f) (plan ++ later) := by
  cases hr : x.result with
  | error stop =>
    have hinv : invocations (x >>= f) = x.invocations := by
      simp only [invocations, Traced.events_bind, hr]
    refine ⟨hinv ▸ hx.isPrefix.trans (List.prefix_append plan later), ?_⟩
    intro b hb
    rw [Traced.result_bind, hr] at hb
    cases hb
  | ok a =>
    have hinv : invocations (x >>= f) = plan ++ (f a).invocations := by
      rw [← hx.complete a hr]
      simp only [invocations, Traced.events_bind, hr, List.filterMap_append]
    refine ⟨?_, ?_⟩
    · rw [hinv]
      exact (List.prefix_append_right_inj plan).mpr (hf a hr).isPrefix
    · intro b hb
      rw [Traced.result_bind, hr] at hb
      rw [hinv, (hf a hr).complete b hb]

theorem Follows.bind_silent (hx : x.Follows plan)
    (hf : ∀ a, x.result = .ok a → (f a).Follows []) : Follows (x >>= f) plan := by
  simpa using hx.bind hf

theorem Follows.silent_bind (hx : x.Follows [])
    (hf : ∀ a, x.result = .ok a → (f a).Follows plan) : Follows (x >>= f) plan :=
  hx.bind hf

end Run

open Run

namespace Term

variable {host : Host} {steps depth : Nat} {t u v callee : Term} {args vs : List Term} {f : Func}

theorem follows_mapM {value : Term → Run Term} {ts : List Term}
    (h : ∀ t ∈ ts, (value t).Follows t.invocations) :
    Follows (ts.mapM value) (invocationsOfAll ts) := by
  induction ts with
  | nil => exact follows_of_invocations_eq rfl
  | cons t ts ih =>
    rw [List.forall_mem_cons] at h
    rw [List.mapM_cons, invocationsOfAll]
    refine h.1.bind fun v _ => ?_
    exact (ih h.2).bind_silent fun vs _ => follows_of_invocations_eq rfl

theorem denote_of_reduceWithin (ht : t.OnlyBuiltins)
    (hv : (reduceWithin host Env.base steps depth t).result = .ok v) : t.denote = .ok v := by
  have heval : Evaluates host Env.base t (.ok v) := evaluates_of_reduceWithin (r := .ok v) hv
  exact (settles_denote ht).returns.unique heval.returns

/-- Only a name or a function can have a function as its value, for a call over the built-ins has an
integer. -/
theorem function?_of_denote (ht : t.OnlyBuiltins) (h : t.denote = .ok (.func f)) :
    t.function? = some f := by
  cases t with
  | int n => cases h
  | str s => cases h
  | func g =>
    cases h
    rfl
  | name n =>
    rw [denote] at h
    split at h
    · next b hb =>
      cases h
      rw [function?, hb]
      rfl
    · cases h
  | call callee args =>
    rw [onlyBuiltins_call] at ht
    rw [denote_call] at h
    obtain ⟨c, hc, h⟩ := exists_of_bind_eq_ok h
    split at h
    · next g =>
      obtain ⟨vs, -, h⟩ := exists_of_bind_eq_ok h
      obtain ⟨b, serial, hg⟩ := (final_of_denote ht.1 hc).2 g (List.mem_singleton_self _)
      rw [hg] at h
      obtain ⟨n, hn⟩ := Builtin.exists_int_of_denote h
      cases hn
    · cases h

theorem final_of_mapM (hargs : ∀ arg ∈ args, arg.OnlyBuiltins)
    (hvs : Traced.result (args.mapM (reduceWithin host Env.base steps depth)) = .ok vs) :
    ∀ v ∈ vs, v.isFinal = true ∧ v.OnlyBuiltins := by
  refine Traced.forall_of_result_mapM ?_ hvs
  intro arg harg v hv
  exact final_of_denote (hargs arg harg) (denote_of_reduceWithin (hargs arg harg) hv)

/-- What a built-in returns calls for the invocations that follow its own. -/
theorem invocations_of_run {b : Builtin} {serial : Nat} {env : Env}
    (hf : f.impl = .builtin b serial) (hvs : ∀ v ∈ vs, v.isFinal = true ∧ v.OnlyBuiltins)
    (h : f.impl.run host env vs = .ok u) :
    u.invocations = f.followUp vs.length ∧ u.OnlyBuiltins := by
  rw [hf] at h
  by_cases hb : b = .sumSquares
  · subst hb
    obtain ⟨v, w, rfl, rfl⟩ := Builtin.sumSquares_apply_eq_ok h
    rw [List.forall_mem_cons, List.forall_mem_singleton] at hvs
    obtain ⟨⟨hv, hvonly⟩, hw, hwonly⟩ := hvs
    refine ⟨?_, ?_⟩
    · have hpow : function? (.name Builtin.pow.symbol) = some (Builtin.pow.toFunc 0) := by decide
      have hadd : function? (.name Builtin.add.symbol) = some (Builtin.add.toFunc 0) := by decide
      simp [invocations, invocationsOfAll, squareOf, hpow, hadd, Func.followUp, hf, Builtin.toFunc,
        invocations_of_isFinal hv, invocations_of_isFinal hw]
    · simp only [squareOf, onlyBuiltins_call, List.forall_mem_cons, List.not_mem_nil,
        false_imp_iff, implies_true, and_true]
      have hname : ∀ n, (Term.name n).OnlyBuiltins := by simp [OnlyBuiltins, leaves]
      have htwo : (Term.int 2).OnlyBuiltins := by simp [OnlyBuiltins, leaves]
      exact ⟨hname _, ⟨hname _, hvonly, htwo⟩, hname _, hwonly, htwo⟩
  · obtain ⟨n, rfl⟩ := Builtin.exists_int_of_apply hb h
    refine ⟨?_, ?_⟩
    · have hsilent : f.followUp vs.length = [] := by
        rw [Func.followUp, hf]
        cases b with
        | sumSquares => exact absurd rfl hb
        | _ => rfl
      rw [hsilent, invocations_of_isFinal rfl]
    · simp [OnlyBuiltins, leaves]

theorem drive_name {env : Env} {value : Term → Run Term} (n : String) (left taken : Nat) :
    drive (step host env value) (left + 1) taken (.name n) =
      Run.ofExcept (env.lookup n) >>= fun u =>
        Traced.emit (.stepped (taken + 1) u) >>= fun _ =>
          drive (step host env value) left (taken + 1) u := by
  rw [drive, step]
  simp only [bind_assoc, pure_bind]

theorem drive_call {env : Env} {value : Term → Run Term} (left taken : Nat) :
    drive (step host env value) (left + 1) taken (.call callee args) =
      value callee >>= fun c => c.invoke host env value args >>= fun u =>
        Traced.emit (.stepped (taken + 1) u) >>= fun _ =>
          drive (step host env value) left (taken + 1) u := by
  rw [drive, step]
  simp only [bind_assoc, pure_bind]

theorem length_of_mapM {value : Term → Run Term} (hvs : Traced.result (args.mapM value) = .ok vs) :
    vs.length = args.length := by
  rw [Traced.result_mapM, mapM_eq_ok_iff] at hvs
  simpa using congrArg List.length hvs.symm

theorem follows_invoke {value : Term → Run Term} {env : Env}
    (hargs : ∀ arg ∈ args, (value arg).Follows arg.invocations) :
    (Term.invoke host env value (.func f) args).Follows
      (invocationsOfAll args ++ [(f, args.length)]) := by
  rw [invoke]
  refine (follows_mapM hargs).bind fun vs hvs => ?_
  rw [← length_of_mapM hvs]
  refine Follows.bind_silent (follows_of_invocations_eq rfl) fun _ _ => ?_
  exact follows_of_invocations_eq rfl

theorem exists_of_invoke_eq_ok {value : Term → Run Term} {env : Env}
    (h : (Term.invoke host env value (.func f) args).result = .ok u) :
    ∃ vs, Traced.result (args.mapM value) = .ok vs ∧ f.impl.run host env vs = .ok u := by
  rw [invoke, Traced.result_bind_eq] at h
  obtain ⟨vs, hvs, h⟩ := exists_of_bind_eq_ok h
  have hrun : f.impl.run host env vs = .ok u := mapError_failed_inj h
  exact ⟨vs, hvs, hrun⟩

theorem follows_drive {left taken : Nat} (ht : t.OnlyBuiltins)
    (hvalue : ∀ u : Term, u.OnlyBuiltins →
      (reduceWithin host Env.base steps depth u).Follows u.invocations) :
    (drive (step host Env.base (reduceWithin host Env.base steps depth)) left taken t).Follows
      t.invocations := by
  induction left generalizing taken t with
  | zero => exact follows_of_stop rfl rfl
  | succ left ih =>
    -- Whatever replaces the term is reduced by the rest of the loop.
    have hrest : ∀ u : Term, u.OnlyBuiltins →
        Follows (Traced.emit (.stepped (taken + 1) u) >>= fun _ =>
          drive (step host Env.base (reduceWithin host Env.base steps depth)) left (taken + 1) u)
          u.invocations := by
      intro u hu
      exact Follows.silent_bind (follows_of_invocations_eq rfl) fun _ _ => ih hu
    cases t with
    | name n =>
      rw [drive_name, Env.lookup, Env.get?_base]
      cases Builtin.ofSymbol? n with
      | none => exact follows_of_stop rfl rfl
      | some b =>
        refine Follows.silent_bind (follows_of_invocations_eq rfl) ?_
        rintro _ ⟨⟩
        have honly : (Term.func (b.toFunc 0)).OnlyBuiltins := by
          simp [OnlyBuiltins, leaves, Builtin.toFunc]
        exact hrest _ honly
    | call callee args =>
      rw [onlyBuiltins_call] at ht
      have hargs : ∀ arg ∈ args, _ := fun arg harg => hvalue arg (ht.2 arg harg)
      rw [drive_call, invocations]
      refine (hvalue callee ht.1).bind fun c hc => ?_
      have hdenote := denote_of_reduceWithin ht.1 hc
      cases c with
      | func f =>
        obtain ⟨b, serial, hf⟩ := (final_of_denote ht.1 hdenote).2 f (List.mem_singleton_self _)
        rw [function?_of_denote ht.1 hdenote, List.append_cons]
        refine (follows_invoke hargs).bind fun u hu => ?_
        obtain ⟨vs, hvs, hrun⟩ := exists_of_invoke_eq_ok hu
        have hu := invocations_of_run hf (final_of_mapM ht.2 hvs) hrun
        rw [← length_of_mapM hvs, ← hu.1]
        exact hrest u hu.2
      | _ => exact follows_of_stop rfl rfl
    | _ => exact follows_of_invocations_eq rfl

/-- A reduction follows the plan of its term, whatever its budget. -/
theorem follows_reduceWithin (ht : t.OnlyBuiltins) :
    (reduceWithin host Env.base steps depth t).Follows t.invocations := by
  induction depth generalizing t with
  | zero => exact follows_of_stop rfl rfl
  | succ depth ih => exact follows_drive ht fun u hu => ih hu

/-- Under the base environment a term over the built-ins has an outcome.  The invocations that its
reduction reports are exactly those that the term calls for, in post-order, if it has a value, and
the first of them if it fails. -/
theorem invocations_reduce_isPrefix (host : Host) (t : Term) (ht : t.OnlyBuiltins) :
    (∃ r, t.Returns host Env.base r) ∧ ∀ budget,
      (∀ v, (t.reduce host Env.base budget).result = .ok v →
        (t.reduce host Env.base budget).invocations = t.invocations) ∧
      ∀ stop, (t.reduce host Env.base budget).result = .error stop →
        (t.reduce host Env.base budget).invocations <+: t.invocations := by
  refine ⟨⟨_, (settles_denote ht).returns⟩, ?_⟩
  intro budget
  have hfollows : (t.reduce host Env.base budget).Follows t.invocations := follows_reduceWithin ht
  exact ⟨hfollows.complete, fun _ _ => hfollows.isPrefix⟩

theorem invocations_reduce_twentyFive :
    (Term.call (.name "x^2+y^2")
        [.int 3, .call (.func ⟨"plus", .builtin .add 7⟩) [.int 1, .int 3]]).OnlyBuiltins ∧
      ((Term.call (.name "x^2+y^2")
        [.int 3, .call (.func ⟨"plus", .builtin .add 7⟩) [.int 1, .int 3]]).reduce
          Host.bare Env.base ⟨3, 3⟩).invocations =
        [(⟨"plus", .builtin .add 7⟩, 2), (Builtin.sumSquares.toFunc 0, 2),
          (Builtin.pow.toFunc 0, 2), (Builtin.pow.toFunc 0, 2), (Builtin.add.toFunc 0, 2)] := by
  have honly : (Term.call (.name "x^2+y^2")
      [.int 3, .call (.func ⟨"plus", .builtin .add 7⟩) [.int 1, .int 3]]).OnlyBuiltins := by
    simp [OnlyBuiltins, leaves, leavesOfAll]
  have hresult : ((Term.call (.name "x^2+y^2")
      [.int 3, .call (.func ⟨"plus", .builtin .add 7⟩) [.int 1, .int 3]]).reduce
        Host.bare Env.base ⟨3, 3⟩).result = .ok (.int 25) := rfl
  exact ⟨honly, ((invocations_reduce_isPrefix Host.bare _ honly).2 ⟨3, 3⟩).1 _ hresult⟩

end Term

end Reduct
