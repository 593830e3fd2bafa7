import Reduct.Proofs.Env.Builtins
import Reduct.Proofs.Eval.Outcome
import Reduct.Proofs.Term.Parts

/-!
# The meaning of terms

The meaning of a term over the built-in functions, by recursion on the term: the callee of a call
first, then its arguments from left to right, then the built-in.  The reduction engine, which
repeats single transitions and reduces what a built-in returns once more, computes this meaning.

## Main definitions

* `Builtin.denote` — what a built-in makes of values, the sum of squares included.
* `Term.denote` — the meaning of a term.

## Main results

* `Term.settles_denote` — the engine finds the meaning of a term with two more levels of reductions
  than the term nests calls, and with three transitions in each of them.
* `Term.reduce_returns_iff_eq_denote` — the engine finds the meaning of every term over the
  built-ins.
-/

namespace Reduct

namespace Builtin

/-- What a built-in makes of values.  The sum of squares squares the first value, then the second
one, and then adds the squares. -/
def denote : Builtin → List Term → Except EvalError Term
  | .sumSquares, [v, w] => do
    let x ← pow.apply [v, .int 2]
    let y ← pow.apply [w, .int 2]
    add.apply [x, y]
  | .sumSquares, vs => .error (.argumentArity sumSquares.symbol 2 vs.length)
  | b, vs => b.apply vs

end Builtin

/-- What an implementation makes of values.  Functions of a host have no meaning here. -/
def Impl.denote : Impl → List Term → Except EvalError Term
  | .builtin b _, vs => b.denote vs
  | .host _, _ => .error (.notCallable .function)

namespace Term

mutual

/-- The meaning of a term: its value, or the failure that comes first. -/
def denote : Term → Except EvalError Term
  | .name n =>
    match Builtin.ofSymbol? n with
    | some b => .ok (.func (b.toFunc 0))
    | none => .error (.unboundName n)
  | .call callee args => do
    match ← denote callee with
    | .func f => f.impl.denote (← denoteAll args)
    | v => .error (.notCallable v.kind)
  | t => .ok t

/-- The meanings of several terms, or the failure of the first one that fails. -/
def denoteAll : List Term → Except EvalError (List Term)
  | [] => .ok []
  | t :: rest => do
    let v ← denote t
    let vs ← denoteAll rest
    return v :: vs

end

end Term

theorem Builtin.denote_eq_apply {b : Builtin} (hb : b ≠ .sumSquares) (vs : List Term) :
    b.denote vs = b.apply vs := by
  cases b with
  | sumSquares => exact absurd rfl hb
  | _ => rfl

theorem Builtin.sumSquares_cases (vs : List Term) :
    (∃ v w, vs = [v, w]) ∨
      (sumSquares.apply vs = .error (.argumentArity sumSquares.symbol 2 vs.length) ∧
        sumSquares.denote vs = .error (.argumentArity sumSquares.symbol 2 vs.length)) := by
  match vs with
  | [] => exact .inr ⟨rfl, rfl⟩
  | [v] => exact .inr ⟨rfl, rfl⟩
  | [v, w] => exact .inl ⟨v, w, rfl⟩
  | v :: w :: x :: rest => exact .inr ⟨rfl, rfl⟩

theorem Builtin.exists_int_of_denote {b : Builtin} {vs : List Term} {u : Term}
    (h : b.denote vs = .ok u) : ∃ n, u = .int n := by
  by_cases hb : b = .sumSquares
  · subst hb
    rcases sumSquares_cases vs with ⟨v, w, rfl⟩ | ⟨-, hdenote⟩
    · obtain ⟨x, -, h⟩ := exists_of_bind_eq_ok h
      obtain ⟨y, -, h⟩ := exists_of_bind_eq_ok h
      exact exists_int_of_apply (by decide) h
    · rw [hdenote] at h
      cases h
  · rw [denote_eq_apply hb] at h
    exact exists_int_of_apply hb h

namespace Term

variable {host : Host}

theorem denote_call (callee : Term) (args : List Term) :
    (Term.call callee args).denote = (callee.denote >>= fun v =>
      match v with
      | .func f => denoteAll args >>= f.impl.denote
      | v => .error (.notCallable v.kind)) := by
  rw [denote]

/-- A meaning is a value, and a function among the meanings is a built-in. -/
theorem final_of_denote {t v : Term} (h : t.OnlyBuiltins) (hv : t.denote = .ok v) :
    v.isFinal = true ∧ v.OnlyBuiltins := by
  induction t using Term.inductionOn generalizing v with
  | int n =>
    cases hv
    exact ⟨rfl, h⟩
  | str s =>
    cases hv
    exact ⟨rfl, h⟩
  | func f =>
    cases hv
    exact ⟨rfl, h⟩
  | name n =>
    rw [denote] at hv
    split at hv
    · next b _ =>
      cases hv
      refine ⟨rfl, ?_⟩
      intro f hf
      cases List.mem_singleton.mp hf
      exact ⟨b, 0, rfl⟩
    · cases hv
  | call callee args hcallee _ =>
    rw [onlyBuiltins_call] at h
    rw [denote_call] at hv
    obtain ⟨c, hc, hv⟩ := exists_of_bind_eq_ok hv
    split at hv
    · next f =>
      obtain ⟨vs, -, hv⟩ := exists_of_bind_eq_ok hv
      obtain ⟨b, serial, hf⟩ := (hcallee h.1 hc).2 f (List.mem_singleton_self _)
      rw [hf] at hv
      obtain ⟨n, rfl⟩ := Builtin.exists_int_of_denote hv
      refine ⟨rfl, ?_⟩
      intro g hg
      cases List.mem_singleton.mp hg
    · cases hv

theorem final_of_denoteAll {ts vs : List Term} (h : ∀ t ∈ ts, t.OnlyBuiltins)
    (hvs : denoteAll ts = .ok vs) : ∀ v ∈ vs, v.isFinal = true := by
  induction ts generalizing vs with
  | nil =>
    cases hvs
    simp
  | cons t rest ih =>
    rw [List.forall_mem_cons] at h
    rw [denoteAll] at hvs
    obtain ⟨v, hv, hvs⟩ := exists_of_bind_eq_ok hvs
    obtain ⟨us, hus, hvs⟩ := exists_of_bind_eq_ok hvs
    cases hvs
    exact List.forall_mem_cons.mpr ⟨(final_of_denote h.1 hv).1, ih h.2 hus⟩

theorem settles_symbol (b : Builtin) :
    Settles host Env.base 0 2 (.name b.symbol) (.ok (.func (b.toFunc 0))) := by
  have hget : Env.base.get? b.symbol = some (.func (b.toFunc 0)) := by
    rw [Env.get?_base]
    cases b <;> rfl
  exact settles_name hget (settles_final rfl)

/-- A call of a built-in by its symbol has the outcome of that built-in.  The sum of squares is left
out, since what it returns is reduced further. -/
theorem settles_call_symbol {b : Builtin} (hb : b ≠ .sumSquares) {depth : Nat} {args : List Term}
    {rs : Except EvalError (List Term)} (hargs : SettlesAll host Env.base depth 2 args rs) :
    Settles host Env.base (depth + 1) 2 (.call (.name b.symbol) args) (rs >>= b.apply) := by
  have hcallee : Settles host Env.base depth 2 (.name b.symbol) (.ok (.func (b.toFunc 0))) :=
    (settles_symbol b).mono (Nat.zero_le _) (Nat.le_refl _)
  have hanswer :
      (Except.ok (.func (b.toFunc 0)) >>= answer host Env.base rs) = rs >>= b.apply := rfl
  cases hr : rs >>= b.apply with
  | error e => exact settles_call_error hcallee (fun _ _ _ => hargs) (hanswer.trans hr)
  | ok u =>
    obtain ⟨vs, -, hu⟩ : ∃ vs, rs = .ok vs ∧ b.apply vs = .ok u := by
      cases rs with
      | error e => cases hr
      | ok vs => exact ⟨vs, rfl, hr⟩
    obtain ⟨n, rfl⟩ := Builtin.exists_int_of_apply hb hu
    refine settles_call hcallee (fun _ _ _ => hargs) (hanswer.trans hr) ?_
    exact (settles_final rfl).mono (Nat.zero_le _) (Nat.le_refl _)

theorem settles_squareOf {v : Term} (hv : v.isFinal = true) :
    Settles host Env.base 1 2 (squareOf v) (Builtin.pow.apply [v, .int 2]) := by
  have hval : Settles host Env.base 0 2 v (.ok v) :=
    (settles_final hv).mono (Nat.zero_le _) (by decide)
  have htwo : Settles host Env.base 0 2 (.int 2) (.ok (.int 2)) :=
    (settles_final rfl).mono (Nat.zero_le _) (by decide)
  have hnone : SettlesAll host Env.base 0 2 [] (.ok []) :=
    settlesAll_nil.mono (Nat.zero_le _) (by decide)
  exact settles_call_symbol (by decide) (settlesAll_cons hval (settlesAll_cons htwo hnone))

theorem settles_sumSquares {v w : Term} (hv : v.isFinal = true) (hw : w.isFinal = true) :
    Settles host Env.base 2 2 (.call (.name Builtin.add.symbol) [squareOf v, squareOf w])
      (Builtin.sumSquares.denote [v, w]) := by
  have hnone : SettlesAll host Env.base 1 2 [] (.ok []) :=
    settlesAll_nil.mono (by decide) (by decide)
  have hsum := settles_call_symbol (b := .add) (by decide)
    (settlesAll_cons (settles_squareOf hv) (settlesAll_cons (settles_squareOf hw) hnone))
  have hdenote : ((do
      let x ← Builtin.pow.apply [v, .int 2]
      let ys ← (do
        let y ← Builtin.pow.apply [w, .int 2]
        let zs ← (Except.ok [] : Except EvalError (List Term))
        return y :: zs)
      return x :: ys) >>= Builtin.add.apply) = Builtin.sumSquares.denote [v, w] := by
    rw [Builtin.denote]
    cases Builtin.pow.apply [v, .int 2] with
    | error e => rfl
    | ok x => cases Builtin.pow.apply [w, .int 2] <;> rfl
  exact hdenote ▸ hsum

theorem settles_apply {b : Builtin} {serial depth : Nat} {f : Func} {callee : Term}
    {args vs : List Term} (hf : f.impl = .builtin b serial) (hdepth : 1 ≤ depth)
    (hcallee : Settles host Env.base depth 3 callee (.ok (.func f)))
    (hargs : SettlesAll host Env.base depth 3 args (.ok vs)) (hvs : ∀ v ∈ vs, v.isFinal = true) :
    Settles host Env.base (depth + 1) 3 (.call callee args) (b.denote vs) := by
  have hanswer : (Except.ok (.func f) >>= answer host Env.base (.ok vs)) = b.apply vs := by
    change f.impl.run host Env.base vs = _
    rw [hf]
    rfl
  by_cases hb : b = .sumSquares
  · subst hb
    rcases Builtin.sumSquares_cases vs with ⟨v, w, rfl⟩ | ⟨happly, hdenote⟩
    · rw [List.forall_mem_cons, List.forall_mem_singleton] at hvs
      refine settles_call hcallee (fun _ _ _ => hargs) hanswer ?_
      exact (settles_sumSquares hvs.1 hvs.2).mono (by omega) (by decide)
    · rw [hdenote]
      exact settles_call_error hcallee (fun _ _ _ => hargs) (hanswer.trans happly)
  · rw [Builtin.denote_eq_apply hb]
    cases happly : b.apply vs with
    | error e => exact settles_call_error hcallee (fun _ _ _ => hargs) (hanswer.trans happly)
    | ok u =>
      obtain ⟨n, rfl⟩ := Builtin.exists_int_of_apply hb happly
      refine settles_call hcallee (fun _ _ _ => hargs) (hanswer.trans happly) ?_
      exact (settles_final rfl).mono (Nat.zero_le _) (by decide)

theorem settlesAll_denoteAll {depth : Nat} {args : List Term}
    (h : ∀ arg ∈ args, Settles host Env.base depth 3 arg arg.denote) :
    SettlesAll host Env.base depth 3 args (denoteAll args) := by
  induction args with
  | nil => exact settlesAll_nil.mono (Nat.zero_le _) (by decide)
  | cons arg rest ih =>
    rw [List.forall_mem_cons] at h
    rw [denoteAll]
    exact settlesAll_cons h.1 (ih h.2)

/-- The engine finds the meaning of a term.  One level of reductions is open for each level of calls
in the term, one for its leaves, and one for what the sum of squares returns. -/
theorem settles_denote {t : Term} (h : t.OnlyBuiltins) :
    Settles host Env.base (t.nesting + 1) 3 t t.denote := by
  induction t using Term.inductionOn with
  | int n => exact (settles_final rfl).mono (Nat.zero_le _) (by decide)
  | str s => exact (settles_final rfl).mono (Nat.zero_le _) (by decide)
  | func f => exact (settles_final rfl).mono (Nat.zero_le _) (by decide)
  | name n =>
    have hget := Env.get?_base n
    rw [denote]
    cases hb : Builtin.ofSymbol? n with
    | none =>
      rw [hb] at hget
      exact (settles_unbound hget).mono (Nat.zero_le _) (by decide)
    | some b =>
      rw [hb] at hget
      exact (settles_name hget (settles_final rfl)).mono (Nat.zero_le _) (by decide)
  | call callee args hcallee hargs =>
    rw [onlyBuiltins_call] at h
    obtain ⟨depth, hnesting⟩ : ∃ depth, (Term.call callee args).nesting = depth + 1 :=
      ⟨_, by rw [nesting]⟩
    have hbound := nesting_call_le_iff.mp (Nat.le_of_eq hnesting)
    have hc : Settles host Env.base (depth + 1) 3 callee callee.denote :=
      (hcallee h.1).mono (by omega) (Nat.le_refl _)
    have hall : SettlesAll host Env.base (depth + 1) 3 args (denoteAll args) := by
      apply settlesAll_denoteAll
      intro arg harg
      have hle := hbound.2 arg harg
      exact (hargs arg harg (h.2 arg harg)).mono (by omega) (Nat.le_refl _)
    rw [hnesting, denote_call]
    -- The first failure decides: that of the callee, of its kind, of an argument, of the built-in.
    cases hv : callee.denote with
    | error e => exact settles_call_error (hv ▸ hc) (fun _ _ _ => hall) rfl
    | ok v =>
      rw [hv] at hc
      cases v with
      | func f =>
        obtain ⟨b, serial, hf⟩ := (final_of_denote h.1 hv).2 f (List.mem_singleton_self _)
        cases hvs : denoteAll args with
        | error e => exact settles_call_error hc (fun _ _ _ => hvs ▸ hall) rfl
        | ok vs =>
          rw [hvs] at hall
          change Settles host Env.base _ 3 _ (f.impl.denote vs)
          rw [hf]
          exact settles_apply hf (by omega) hc hall (final_of_denoteAll h.2 hvs)
      | int n => exact settles_call_error hc (fun _ _ _ => hall) rfl
      | str s => exact settles_call_error hc (fun _ _ _ => hall) rfl
      | name n => exact settles_call_error hc (fun _ _ _ => hall) rfl
      | call c as => exact settles_call_error hc (fun _ _ _ => hall) rfl

/-- Under the base environment the engine returns the meaning of every term over the built-ins, the
failures included, and nothing else. -/
theorem reduce_returns_iff_eq_denote (host : Host) (t : Term) (h : t.OnlyBuiltins)
    (r : Except EvalError Term) : t.Returns host Env.base r ↔ r = t.denote := by
  have hdenote : t.Returns host Env.base t.denote := (settles_denote h).returns
  constructor
  · intro hr
    exact hr.unique hdenote
  · rintro rfl
    exact hdenote

theorem reduce_returns_twentyFive :
    (Term.call (.name "x^2+y^2")
        [.int 3, .call (.func ⟨"plus", .builtin .add 7⟩) [.int 1, .int 3]]).OnlyBuiltins ∧
      (Term.call (.name "x^2+y^2")
        [.int 3, .call (.func ⟨"plus", .builtin .add 7⟩) [.int 1, .int 3]]).Returns
        Host.bare Env.base (.ok (.int 25)) := by
  have honly : (Term.call (.name "x^2+y^2")
      [.int 3, .call (.func ⟨"plus", .builtin .add 7⟩) [.int 1, .int 3]]).OnlyBuiltins := by
    simp [OnlyBuiltins, leaves, leavesOfAll]
  have hdenote : (Term.call (.name "x^2+y^2")
      [.int 3, .call (.func ⟨"plus", .builtin .add 7⟩) [.int 1, .int 3]]).denote =
        .ok (.int 25) := rfl
  exact ⟨honly, (reduce_returns_iff_eq_denote Host.bare _ honly _).mpr hdenote.symm⟩

end Term

end Reduct
