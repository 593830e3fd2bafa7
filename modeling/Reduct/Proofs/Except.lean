/-!
# Computations that can fail

How a computation in `Except` succeeds and how it fails, read off its parts.

## Main results

* `exists_of_bind_eq_ok`, `cases_of_bind_eq_error` — two computations in a row.
* `mapError_eq_ok_iff`, `mapError_eq_error_iff` — a computation whose errors are translated.
* `mapM_eq_ok_iff`, `mapM_eq_error_iff` — a list of computations, up to the first that fails.
-/

namespace Reduct

section

variable {ε α β : Type} {x : Except ε α} {f : α → Except ε β}

theorem exists_of_bind_eq_ok {b : β} (h : x >>= f = .ok b) : ∃ a, x = .ok a ∧ f a = .ok b := by
  cases x with
  | error e => cases h
  | ok a => exact ⟨a, rfl, h⟩

theorem cases_of_bind_eq_error {e : ε} (h : x >>= f = .error e) :
    x = .error e ∨ ∃ a, x = .ok a ∧ f a = .error e := by
  cases x with
  | error e' =>
    cases h
    exact .inl rfl
  | ok a => exact .inr ⟨a, rfl, h⟩

end

section

variable {ε ε' α : Type} {f : ε → ε'} {x : Except ε α}

theorem mapError_ok (f : ε → ε') (a : α) : (Except.ok a).mapError f = .ok a := rfl

theorem mapError_error (f : ε → ε') (e : ε) :
    (Except.error e : Except ε α).mapError f = .error (f e) := rfl

theorem mapError_eq_ok_iff {a : α} : x.mapError f = .ok a ↔ x = .ok a := by
  constructor
  · intro h
    cases x with
    | error e => cases h
    | ok b =>
      cases h
      rfl
  · rintro rfl
    rfl

theorem mapError_eq_error_iff {e' : ε'} :
    x.mapError f = .error e' ↔ ∃ e, x = .error e ∧ f e = e' := by
  constructor
  · intro h
    cases x with
    | error e => exact ⟨e, rfl, Except.error.inj h⟩
    | ok a => cases h
  · rintro ⟨e, rfl, rfl⟩
    rfl

end

section

variable {ε α β : Type} {f : α → Except ε β} {xs : List α} {ys : List β} {e : ε}

theorem mapM_cases (f : α → Except ε β) (xs : List α) :
    (∃ ys : List β, xs.mapM f = .ok ys ∧ xs.map f = ys.map .ok) ∨
      ∃ (e : ε) (ys : List β) (rest : List (Except ε β)),
        xs.mapM f = .error e ∧ xs.map f = ys.map .ok ++ .error e :: rest := by
  induction xs with
  | nil => exact .inl ⟨[], rfl, rfl⟩
  | cons x xs ih =>
    rw [List.mapM_cons, List.map_cons]
    cases f x with
    | error e => exact .inr ⟨e, [], xs.map f, rfl, rfl⟩
    | ok y =>
      rcases ih with ⟨ys, hok, hmap⟩ | ⟨e, ys, rest, herror, hmap⟩
      · rw [hok, hmap]
        exact .inl ⟨y :: ys, rfl, rfl⟩
      · rw [herror, hmap]
        exact .inr ⟨e, y :: ys, rest, rfl, rfl⟩

theorem mapM_eq_ok_iff : xs.mapM f = .ok ys ↔ xs.map f = ys.map .ok := by
  constructor
  · intro h
    rcases mapM_cases f xs with ⟨zs, hok, hmap⟩ | ⟨e, zs, rest, herror, -⟩
    · cases hok.symm.trans h
      exact hmap
    · cases herror.symm.trans h
  · intro h
    induction ys generalizing xs with
    | nil =>
      obtain rfl := List.map_eq_nil_iff.mp h
      rfl
    | cons y ys ih =>
      obtain ⟨x, xs, rfl, hx, hxs⟩ := List.map_eq_cons_iff.mp h
      rw [List.mapM_cons, hx, ih hxs]
      rfl

/-- A list of computations fails as the first one of them that fails. -/
theorem mapM_eq_error_iff :
    xs.mapM f = .error e ↔ ∃ (ys : List β) (rest : List (Except ε β)),
      xs.map f = ys.map .ok ++ .error e :: rest := by
  constructor
  · intro h
    rcases mapM_cases f xs with ⟨zs, hok, -⟩ | ⟨e', zs, rest, herror, hmap⟩
    · cases hok.symm.trans h
    · cases herror.symm.trans h
      exact ⟨zs, rest, hmap⟩
  · rintro ⟨ys, rest, h⟩
    induction ys generalizing xs with
    | nil =>
      obtain ⟨x, xs, rfl, hx, -⟩ := List.map_eq_cons_iff.mp h
      rw [List.mapM_cons, hx]
      rfl
    | cons y ys ih =>
      obtain ⟨x, xs, rfl, hx, hxs⟩ := List.map_eq_cons_iff.mp h
      rw [List.mapM_cons, hx, ih hxs]
      rfl

theorem exists_of_mapM_eq_ok {y : β} (h : xs.mapM f = .ok ys) (hy : y ∈ ys) :
    ∃ x ∈ xs, f x = .ok y := by
  have hmem : .ok y ∈ ys.map (Except.ok : β → Except ε β) := List.mem_map_of_mem hy
  rw [← mapM_eq_ok_iff.mp h] at hmem
  exact List.mem_map.mp hmem

theorem exists_of_mapM_eq_error (h : xs.mapM f = .error e) : ∃ x ∈ xs, f x = .error e := by
  obtain ⟨ys, rest, hmap⟩ := mapM_eq_error_iff.mp h
  have hmem : .error e ∈ xs.map f := by
    rw [hmap]
    exact List.mem_append_right _ (List.mem_cons_self ..)
  exact List.mem_map.mp hmem

end

end Reduct
