import Reduct.Proofs.Eval.Denote
import Reduct.Proofs.Term.RoundTrip

/-!
# Budgets

A budget only cuts reductions off.  What comes to an end within a budget is the same run, events
included, within every larger one, and the terms of source texts come to an end within a budget that
the limit on nesting fixes in advance.

## Main definitions

* `Run.Persists` — a run is the same as another one, unless it was cut off.
* `Event.StepsBelow`, `Run.Counted` — no reduction reports more steps than its bound allows.

## Main results

* `Term.persists_reduceWithin` — a larger budget leaves a run as it is.
* `Term.counted_reduceWithin` — a run that is not cut off keeps below its bound on transitions.
* `Term.reduce_within_nesting` — the terms of a source text never have more reductions open at once
  than they nest calls, and two more, and no reduction replaces its term more than twice.
-/

namespace Reduct

namespace Run

variable {α β : Type} {x y : Run α} {f g : α → Run β} {steps : Nat}

/-- The first run is the second one, unless it was cut off. -/
def Persists (x y : Run α) : Prop := x.result = .error .exhausted ∨ x = y

theorem persists_refl (x : Run α) : Persists x x := .inr rfl

theorem persists_bind (hx : Persists x y) (hf : ∀ a, Persists (f a) (g a)) :
    Persists (x >>= f) (y >>= g) := by
  rcases hx with hx | rfl
  · left
    rw [Traced.result_bind, hx]
  · cases hr : x.result with
    | error stop =>
      right
      apply Traced.ext
      · simp only [Traced.result_bind, hr]
      · simp only [Traced.events_bind, hr]
    | ok a =>
      rcases hf a with ha | ha
      · left
        rw [Traced.result_bind, hr]
        exact ha
      · right
        apply Traced.ext
        · simp only [Traced.result_bind, hr, ha]
        · simp only [Traced.events_bind, hr, ha]

theorem persists_mapM (h : ∀ a, Persists (f a) (g a)) (as : List α) :
    Persists (as.mapM f) (as.mapM g) := by
  induction as with
  | nil => exact persists_refl _
  | cons a as ih =>
    rw [List.mapM_cons, List.mapM_cons]
    exact persists_bind (h a) fun b => persists_bind ih fun bs => persists_refl _

end Run

/-- The number of steps that a reduction reports is below the given bound. -/
def Event.StepsBelow (bound : Nat) : Event → Prop
  | .stepped count _ | .settled count _ => count < bound
  | _ => True

namespace Run

variable {α β : Type} {x : Run α} {f : α → Run β} {steps : Nat}

/-- Unless the run is cut off, all of its reductions keep below the given bound. -/
def Counted (steps : Nat) (x : Run α) : Prop :=
  x.result ≠ .error .exhausted → ∀ e ∈ x.events, e.StepsBelow steps

theorem counted_of_events_eq_nil (h : x.events = []) : Counted steps x := by
  intro _ e he
  rw [h] at he
  cases he

theorem counted_emit {e : Event} (h : e.StepsBelow steps) : Counted steps (Traced.emit e) := by
  intro _ e' he'
  cases List.mem_singleton.mp he'
  exact h

theorem counted_bind (hx : Counted steps x) (hf : ∀ a, Counted steps (f a)) :
    Counted steps (x >>= f) := by
  intro hr e he
  rw [Traced.result_bind] at hr
  rw [Traced.events_bind] at he
  cases hxr : x.result with
  | error stop =>
    simp only [hxr] at hr he
    have hstop : stop ≠ .exhausted := by
      rintro rfl
      exact hr rfl
    exact hx (by simpa [hxr] using hstop) e he
  | ok a =>
    simp only [hxr] at hr he
    rcases List.mem_append.mp he with he | he
    · exact hx (by rw [hxr]; nofun) e he
    · exact hf a hr e he

theorem counted_mapM (h : ∀ a, Counted steps (f a)) (as : List α) :
    Counted steps (as.mapM f) := by
  induction as with
  | nil => exact counted_of_events_eq_nil rfl
  | cons a as ih =>
    rw [List.mapM_cons]
    exact counted_bind (h a) fun b => counted_bind ih fun bs => counted_of_events_eq_nil rfl

end Run

open Run

namespace Term

variable {host : Host} {env : Env} {steps : Nat}

/-! ### Larger budgets -/

section

variable {value value' : Term → Run Term} (h : ∀ t, Persists (value t) (value' t))

include h

theorem persists_invoke (v : Term) (args : List Term) :
    Persists (v.invoke host env value args) (v.invoke host env value' args) := by
  cases v with
  | func f => exact persists_bind (persists_mapM h args) fun vs => persists_refl _
  | _ => exact persists_refl _

theorem persists_step (t : Term) :
    Persists (t.step host env value) (t.step host env value') := by
  cases t with
  | call callee args =>
    exact persists_bind (h callee) fun v =>
      persists_bind (persists_invoke h v args) fun u => persists_refl _
  | _ => exact persists_refl _

theorem persists_drive {left left' : Nat} (hle : left ≤ left') (taken : Nat) (t : Term) :
    Persists (drive (step host env value) left taken t)
      (drive (step host env value') left' taken t) := by
  induction left generalizing left' taken t with
  | zero => exact .inl rfl
  | succ left ih =>
    obtain ⟨left', rfl⟩ := Nat.exists_eq_add_of_le' (Nat.le_trans (Nat.le_add_left 1 left) hle)
    rw [drive, drive]
    refine persists_bind (persists_step h t) ?_
    rintro (v | u)
    · exact persists_refl _
    · exact persists_bind (persists_refl _) fun _ => ih (Nat.le_of_succ_le_succ hle) _ u

end

/-- A larger budget leaves a run as it is, unless the smaller one cut it off. -/
theorem persists_reduceWithin {steps' depth depth' : Nat} (hsteps : steps ≤ steps')
    (hdepth : depth ≤ depth') (t : Term) :
    Persists (reduceWithin host env steps depth t) (reduceWithin host env steps' depth' t) := by
  induction depth generalizing depth' t with
  | zero => exact .inl rfl
  | succ depth ih =>
    obtain ⟨depth', rfl⟩ := Nat.exists_eq_add_of_le' (Nat.le_trans (Nat.le_add_left 1 depth) hdepth)
    exact persists_drive (fun u => ih (Nat.le_of_succ_le_succ hdepth) u) hsteps 0 t

theorem reduce_eq_of_le {budget larger : Budget} {t : Term} (hle : budget ≤ larger)
    (h : (t.reduce host env budget).result ≠ .error .exhausted) :
    t.reduce host env larger = t.reduce host env budget :=
  ((persists_reduceWithin hle.2 hle.1 t).resolve_left h).symm

/-! ### Numbers of steps -/

section

variable {value : Term → Run Term} (h : ∀ t, Counted steps (value t))

include h

theorem counted_invoke (v : Term) (args : List Term) :
    Counted steps (v.invoke host env value args) := by
  cases v with
  | func f =>
    refine counted_bind (counted_mapM h args) fun vs => ?_
    exact counted_bind (counted_emit trivial) fun _ => counted_of_events_eq_nil rfl
  | _ => exact counted_bind (counted_emit trivial) fun _ => counted_of_events_eq_nil rfl

theorem counted_step (t : Term) : Counted steps (t.step host env value) := by
  cases t with
  | call callee args =>
    refine counted_bind (h callee) fun v => ?_
    exact counted_bind (counted_invoke h v args) fun u => counted_of_events_eq_nil rfl
  | name n =>
    exact counted_bind (counted_of_events_eq_nil rfl) fun u => counted_of_events_eq_nil rfl
  | _ => exact counted_of_events_eq_nil rfl

/-- A loop counts its own steps: those that it has taken and those that are left make up the
bound. -/
theorem counted_drive {left taken : Nat} (hbound : taken + left = steps) (t : Term) :
    Counted steps (drive (step host env value) left taken t) := by
  induction left generalizing taken t with
  | zero => exact counted_of_events_eq_nil rfl
  | succ left ih =>
    rw [drive]
    refine counted_bind (counted_step h t) ?_
    rintro (v | u)
    · exact counted_bind (counted_emit (show taken < steps by omega)) fun _ =>
        counted_of_events_eq_nil rfl
    · cases left with
      | zero =>
        -- The last transition that the bound allows has to be the final one.
        intro hr
        exact absurd rfl hr
      | succ left =>
        exact counted_bind (counted_emit (show taken + 1 < steps by omega)) fun _ =>
          ih (by omega) u

end

theorem counted_reduceWithin {depth : Nat} (t : Term) :
    Counted steps (reduceWithin host env steps depth t) := by
  induction depth generalizing t with
  | zero => exact counted_of_events_eq_nil rfl
  | succ depth ih => exact counted_drive ih (Nat.zero_add _) t

/-! ### Terms of source texts -/

theorem result_reduce_base {budget : Budget} {t : Term} (h : t.OnlyBuiltins)
    (hle : ⟨t.nesting + 2, 3⟩ ≤ budget) :
    (t.reduce host Env.base budget).result = t.denote.mapError .failed :=
  (settles_denote h).result_reduceWithin hle.1 hle.2

theorem result_reduce_base_ne_exhausted {budget : Budget} {t : Term} (h : t.OnlyBuiltins)
    (hle : ⟨t.nesting + 2, 3⟩ ≤ budget) :
    (t.reduce host Env.base budget).result ≠ .error .exhausted := by
  rw [result_reduce_base h hle]
  cases t.denote <;> nofun

theorem Readable.onlyBuiltins {t : Term} (h : t.Readable) : t.OnlyBuiltins :=
  fun f hf => absurd hf (h.noFunc f)

/-- A term that is read from a text has at most 258 reductions open at once, and at most two more
than it nests calls; each of them replaces its term at most twice.  So no budget that allows as much
is used up, and all of them give the same run. -/
theorem reduce_within_nesting (host : Host) (source : String) (ts : List Term)
    (hread : (readAll source).result = .ok ts) (t : Term) (ht : t ∈ ts) :
    (t.reduce host Env.base ⟨258, 3⟩).result ≠ .error .exhausted ∧
      (t.reduce host Env.base ⟨t.nesting + 2, 3⟩).result ≠ .error .exhausted ∧
      ∀ budget : Budget, ⟨258, 3⟩ ≤ budget ∨ ⟨t.nesting + 2, 3⟩ ≤ budget →
        t.reduce host Env.base budget = t.reduce host Env.base ⟨t.nesting + 2, 3⟩ ∧
          ∀ count u, .stepped count u ∈ (t.reduce host Env.base budget).events → count ≤ 2 := by
  have hreadable : t.Readable := readable_of_result_readAll hread t ht
  have hnesting : t.nesting + 2 ≤ 258 := Nat.add_le_add_right hreadable.nesting_le 2
  have hleast : (t.reduce host Env.base ⟨t.nesting + 2, 3⟩).result ≠ .error .exhausted :=
    result_reduce_base_ne_exhausted hreadable.onlyBuiltins ⟨Nat.le_refl _, Nat.le_refl _⟩
  refine ⟨?_, hleast, ?_⟩
  · exact result_reduce_base_ne_exhausted hreadable.onlyBuiltins ⟨hnesting, Nat.le_refl _⟩
  · intro budget hbudget
    have hle : (⟨t.nesting + 2, 3⟩ : Budget) ≤ budget := by
      rcases hbudget with hle | hle
      · exact ⟨Nat.le_trans hnesting hle.1, hle.2⟩
      · exact hle
    have hsame := reduce_eq_of_le hle hleast
    refine ⟨hsame, ?_⟩
    -- The bound on steps is read off the smallest of these budgets.
    rw [hsame]
    intro count u hmem
    have hcount : count < 3 := counted_reduceWithin t hleast _ hmem
    omega

/-- Two calls deep, four reductions open: one for each call, one for the square that the inner one
returns, and one for a leaf. -/
theorem reduce_within_nesting_sumSquares :
    (readAll "(+ 1 (x^2+y^2 3 4))").result =
        .ok [.call (.name "+") [.int 1, .call (.name "x^2+y^2") [.int 3, .int 4]]] ∧
      (Term.call (.name "+") [.int 1, .call (.name "x^2+y^2") [.int 3, .int 4]]).reduce
          Host.bare Env.base Budget.ample =
        (Term.call (.name "+") [.int 1, .call (.name "x^2+y^2") [.int 3, .int 4]]).reduce
          Host.bare Env.base ⟨4, 3⟩ ∧
      ((Term.call (.name "+") [.int 1, .call (.name "x^2+y^2") [.int 3, .int 4]]).reduce
        Host.bare Env.base ⟨3, 3⟩).result = .error .exhausted := by
  have hread : (readAll "(+ 1 (x^2+y^2 3 4))").result =
      .ok [.call (.name "+") [.int 1, .call (.name "x^2+y^2") [.int 3, .int 4]]] := rfl
  have hwithin := reduce_within_nesting Host.bare _ _ hread _ (List.mem_singleton_self _)
  have hample : (⟨258, 3⟩ : Budget) ≤ Budget.ample := by
    constructor <;> decide
  exact ⟨hread, (hwithin.2.2 Budget.ample (.inl hample)).1, rfl⟩

end Term

end Reduct
