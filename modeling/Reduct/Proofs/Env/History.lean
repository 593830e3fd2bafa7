import Mathlib.Data.Finset.Card
import Reduct.Proofs.Env.Builtins

/-!
# Histories of definitions

An environment is the record of the definitions that led to it: it lists names in the order of their
first definition and binds each of them to the term of its latest one.

## Main definitions

* `Env.Operation` — the ways to write to an environment.
* `Env.run` — a sequence of operations from the empty environment on.
* `Env.history` — the definitions that a sequence of operations makes.
* `Env.Latest` — the latest definition of a name in a history.
* `Env.Records` — an environment that is the record of a history.
* `Env.repeats` — the names that are defined although they are known.

## Main results

* `Env.Records.insert` — one definition is recorded.
* `Env.Operation.perform_eq_extend` — every operation makes its definitions one after another.
* `Env.run_records_history` — a run of operations is recorded, and what each operation hands back,
  reports and leaves alone.
-/

namespace Reduct.Env

variable {env : Env} {earlier pairs : List (String × Term)} {n m : String} {t u : Term}

/-! ### Single definitions -/

theorem value_define (env : Env) (n : String) (t : Term) :
    (env.define n t).value = (env.get? n, env.insert n t) := by
  unfold define
  cases env.get? n <;> rfl

theorem events_define (env : Env) (n : String) (t : Term) :
    (env.define n t).events = if (env.get? n).isSome then [.overwritten n] else [] := by
  unfold define
  cases env.get? n <;> rfl

theorem isSome_get?_iff : (env.get? n).isSome ↔ n ∈ env.names := by
  simp [get?, names, List.lookup_isSome_iff]

theorem get?_eq_none_iff : env.get? n = none ↔ n ∉ env.names := by
  rw [← isSome_get?_iff, Bool.not_eq_true, Option.isSome_eq_false_iff, Option.isNone_iff_eq_none]

/-! ### Several definitions -/

theorem extend_cons (env : Env) (n : String) (t : Term) (pairs : List (String × Term)) :
    (env.extend ((n, t) :: pairs)).value = ((env.insert n t).extend pairs).value := by
  rw [extend, List.foldlM_cons, Logged.value_bind, Logged.value_bind, value_define]
  rfl

theorem events_extend_cons (env : Env) (n : String) (t : Term) (pairs : List (String × Term)) :
    (env.extend ((n, t) :: pairs)).events =
      (env.define n t).events ++ ((env.insert n t).extend pairs).events := by
  rw [extend, List.foldlM_cons, Logged.events_bind, Logged.events_bind, Logged.value_bind,
    value_define]
  simp [extend]

theorem get?_extend_of_notMem (h : n ∉ pairs.map Prod.fst) :
    (env.extend pairs).value.get? n = env.get? n := by
  induction pairs generalizing env with
  | nil => rfl
  | cons pair rest ih =>
    rw [List.map_cons, List.mem_cons, not_or] at h
    rw [extend_cons, ih h.2, get?_insert, if_neg h.1]

theorem get?_extend_of_mem (hnodup : (pairs.map Prod.fst).Nodup) (h : (n, t) ∈ pairs) :
    (env.extend pairs).value.get? n = some t := by
  induction pairs generalizing env with
  | nil => cases h
  | cons pair rest ih =>
    rw [List.map_cons, List.nodup_cons] at hnodup
    rw [extend_cons]
    rcases List.mem_cons.mp h with rfl | h
    · rw [get?_extend_of_notMem hnodup.1, get?_insert, if_pos rfl]
    · exact ih hnodup.2 h

theorem names_isPrefix_extend (env : Env) (pairs : List (String × Term)) :
    env.names <+: (env.extend pairs).value.names := by
  induction pairs generalizing env with
  | nil => exact List.prefix_refl _
  | cons pair rest ih =>
    rw [extend_cons]
    refine List.IsPrefix.trans ?_ (ih _)
    rw [names_insert]
    split
    · exact List.prefix_refl _
    · exact List.prefix_append ..

theorem names_extend_of_nodup (hnodup : (pairs.map Prod.fst).Nodup) :
    (env.extend pairs).value.names =
      env.names ++ (pairs.map Prod.fst).filter fun n => n ∉ env.names := by
  induction pairs generalizing env with
  | nil => simp [extend]
  | cons pair rest ih =>
    obtain ⟨n, t⟩ := pair
    rw [List.map_cons, List.nodup_cons] at hnodup
    rw [extend_cons, ih hnodup.2, names_insert, List.map_cons, List.filter_cons]
    by_cases hn : n ∈ env.names
    · simp [hn]
    · have hrest : ∀ m ∈ rest.map Prod.fst, m ≠ n := by
        rintro m hm rfl
        exact hnodup.1 hm
      have hfilter : ((rest.map Prod.fst).filter fun m => m ∉ env.names ++ [n]) =
          (rest.map Prod.fst).filter fun m => m ∉ env.names := by
        refine List.filter_congr fun m hm => ?_
        simp [hrest m hm]
      rw [if_neg hn, hfilter, List.append_assoc]
      simp [hn]

/-- The names that are already known when their turn comes. -/
def repeats (known : List String) : List String → List String
  | [] => []
  | n :: rest => if n ∈ known then n :: repeats known rest else repeats (known ++ [n]) rest

theorem events_extend (env : Env) (pairs : List (String × Term)) :
    (env.extend pairs).events = (repeats env.names (pairs.map Prod.fst)).map .overwritten := by
  induction pairs generalizing env with
  | nil => rfl
  | cons pair rest ih =>
    obtain ⟨n, t⟩ := pair
    rw [events_extend_cons, events_define, ih, names_insert, List.map_cons, repeats]
    by_cases hn : n ∈ env.names
    · simp [isSome_get?_iff, hn]
    · simp [isSome_get?_iff, hn]

/-! ### The record of a history -/

/-- The latest definition of a name: none of the later ones is of that name. -/
def Latest (earlier : List (String × Term)) (n : String) (t : Term) : Prop :=
  ∃ before after, earlier = before ++ (n, t) :: after ∧ n ∉ after.map Prod.fst

theorem latest_append_iff :
    Latest (earlier ++ [(m, u)]) n t ↔ if n = m then u = t else Latest earlier n t := by
  constructor
  · rintro ⟨before, after, h, hafter⟩
    rcases List.eq_nil_or_concat after with rfl | ⟨after, last, rfl⟩
    · obtain ⟨-, hlast⟩ := List.append_inj' h rfl
      simp_all
    · rw [List.concat_eq_append, ← List.cons_append, ← List.append_assoc] at h
      obtain ⟨rfl, hlast⟩ := List.append_inj' h rfl
      obtain rfl := List.singleton_inj.mp hlast
      simp only [List.concat_eq_append, List.map_append, List.map_cons, List.map_nil,
        List.mem_append, List.mem_singleton, not_or] at hafter
      rw [if_neg hafter.2]
      exact ⟨before, after, rfl, hafter.1⟩
  · split
    · rintro rfl
      subst n
      exact ⟨earlier, [], rfl, by simp⟩
    next hn =>
      rintro ⟨before, after, rfl, hafter⟩
      exact ⟨before, after ++ [(m, u)], by simp, by simp [hn, hafter]⟩

/-- An environment that is the record of a history: it knows the names that were defined, in the
order of their first definition, and each of them by its latest one. -/
structure Records (env : Env) (earlier : List (String × Term)) : Prop where
  mem_names_iff : ∀ n, n ∈ env.names ↔ n ∈ earlier.map Prod.fst
  ordered : env.names.Pairwise fun n m =>
    (earlier.map Prod.fst).idxOf n < (earlier.map Prod.fst).idxOf m
  get?_eq_some_iff : ∀ n t, env.get? n = some t ↔ Latest earlier n t

namespace Records

theorem empty : Records Env.empty [] where
  mem_names_iff n := by simp [names, Env.empty]
  ordered := List.Pairwise.nil
  get?_eq_some_iff n t := by simp [get?, Env.empty, Latest]

theorem ordered_insert (h : Records env earlier) (n : String) (t : Term) :
    (env.insert n t).names.Pairwise fun m k =>
      ((earlier ++ [(n, t)]).map Prod.fst).idxOf m <
        ((earlier ++ [(n, t)]).map Prod.fst).idxOf k := by
  have hold : ∀ m ∈ env.names,
      ((earlier ++ [(n, t)]).map Prod.fst).idxOf m = (earlier.map Prod.fst).idxOf m := by
    intro m hm
    rw [List.map_append, List.idxOf_append_of_mem ((h.mem_names_iff m).mp hm)]
  have hnames : env.names.Pairwise fun m k =>
      ((earlier ++ [(n, t)]).map Prod.fst).idxOf m <
        ((earlier ++ [(n, t)]).map Prod.fst).idxOf k := by
    refine h.ordered.imp_of_mem ?_
    intro m k hm hk hlt
    rwa [hold m hm, hold k hk]
  rw [names_insert]
  split
  · exact hnames
  next hn =>
    refine List.pairwise_append.mpr ⟨hnames, List.pairwise_singleton .., ?_⟩
    intro m hm k hk
    obtain rfl := List.mem_singleton.mp hk
    -- A name that is defined for the first time comes after the whole history.
    have hk' : k ∉ earlier.map Prod.fst := mt (h.mem_names_iff k).mpr hn
    rw [hold m hm, List.map_append, List.idxOf_append_of_notMem hk']
    exact Nat.lt_add_right _ (List.idxOf_lt_length_of_mem ((h.mem_names_iff m).mp hm))

theorem insert (h : Records env earlier) (n : String) (t : Term) :
    Records (env.insert n t) (earlier ++ [(n, t)]) where
  mem_names_iff m := by
    rw [names_insert, List.map_append, List.mem_append, ← h.mem_names_iff]
    split
    next hn =>
      constructor
      · exact .inl
      · rintro (hm | hm)
        · exact hm
        · rwa [List.mem_singleton.mp hm]
    · simp
  ordered := h.ordered_insert n t
  get?_eq_some_iff m u := by
    rw [get?_insert, latest_append_iff]
    split
    · simp
    · exact h.get?_eq_some_iff m u

theorem extend (h : Records env earlier) (pairs : List (String × Term)) :
    Records (env.extend pairs).value (earlier ++ pairs) := by
  induction pairs generalizing env earlier with
  | nil =>
    rw [List.append_nil]
    exact h
  | cons pair rest ih =>
    rw [extend_cons, List.append_cons]
    exact ih (h.insert pair.1 pair.2)

theorem get?_eq_none_iff (h : Records env earlier) (n : String) :
    env.get? n = none ↔ n ∉ earlier.map Prod.fst := by
  rw [Env.get?_eq_none_iff, h.mem_names_iff]

theorem size_eq (h : Records env earlier) :
    env.size = (earlier.map Prod.fst).toFinset.card := by
  have hfinset : env.names.toFinset = (earlier.map Prod.fst).toFinset := by
    ext n
    rw [List.mem_toFinset, List.mem_toFinset, h.mem_names_iff]
  rw [← hfinset, List.toFinset_card_of_nodup env.nodup_names, names, List.length_map, size]

theorem lookup_eq_ok_iff (h : Records env earlier) (n : String) (t : Term) :
    env.lookup n = .ok t ↔ Latest earlier n t := by
  rw [← h.get?_eq_some_iff, lookup]
  cases env.get? n <;> simp

theorem lookup_eq_error_iff (h : Records env earlier) (n : String) :
    env.lookup n = .error (.unboundName n) ↔ n ∉ earlier.map Prod.fst := by
  rw [← h.get?_eq_none_iff, lookup]
  cases env.get? n <;> simp

end Records

/-! ### Runs of operations -/

/-- The ways to write to an environment. -/
inductive Operation
  | define (n : String) (t : Term)
  | defineFunc (f : Func)
  | extend (pairs : List (String × Term))
  | ofPairs (pairs : List (String × Term))
  | loadBuiltins (serial : Nat)

namespace Operation

/-- The environment that an operation leads to. -/
def perform (env : Env) : Operation → Logged Env
  | .define n t => do return (← env.define n t).2
  | .defineFunc f => env.defineFunc f
  | .extend pairs => env.extend pairs
  | .ofPairs pairs => Env.ofPairs pairs
  | .loadBuiltins serial => env.loadBuiltins serial

/-- The definitions that an operation makes, in order. -/
def definitions : Operation → List (String × Term)
  | .define n t => [(n, t)]
  | .defineFunc f => [(f.name, .func f)]
  | .extend pairs => pairs
  | .ofPairs pairs => pairs
  | .loadBuiltins serial => Builtin.all.map fun b => (b.symbol, .func (b.toFunc serial))

/-- The environment that an operation writes to: `ofPairs` starts a new one. -/
def ground (env : Env) : Operation → Env
  | .ofPairs _ => empty
  | _ => env

/-- The definitions that stand after an operation, given those that stood before. -/
def historyAfter (earlier : List (String × Term)) : Operation → List (String × Term)
  | .ofPairs pairs => pairs
  | op => earlier ++ op.definitions

theorem perform_eq_extend (env : Env) (op : Operation) :
    op.perform env = (op.ground env).extend op.definitions := by
  cases op with
  | extend pairs => rfl
  | ofPairs pairs => rfl
  | loadBuiltins serial =>
    rw [perform, Env.loadBuiltins, definitions, Env.extend, List.foldlM_map]
    rfl
  | _ => simp [perform, Env.defineFunc, definitions, ground, Env.extend]

theorem records_perform (h : Records env earlier) (op : Operation) :
    Records (op.perform env).value (op.historyAfter earlier) := by
  rw [perform_eq_extend]
  cases op with
  | ofPairs pairs => exact Records.empty.extend pairs
  | _ => exact h.extend _

/-- What an operation does to the environment it writes to: names that it does not define keep their
terms, known names keep their places, and every definition of a known name is reported. -/
structure Effect (op : Operation) (env : Env) (result : Logged Env) : Prop where
  get?_eq : ∀ n, n ∉ op.definitions.map Prod.fst → result.value.get? n = env.get? n
  names_isPrefix : env.names <+: result.value.names
  events_eq : result.events = (repeats env.names (op.definitions.map Prod.fst)).map .overwritten

theorem effect_perform (env : Env) (op : Operation) :
    op.Effect (op.ground env) (op.perform env) := by
  rw [perform_eq_extend]
  exact ⟨fun _ hn => get?_extend_of_notMem hn, names_isPrefix_extend .., events_extend ..⟩

end Operation

/-- The environment that operations lead to, one after another, from the empty one on. -/
def run (ops : List Operation) : Logged Env := ops.foldlM Operation.perform empty

/-- The definitions that stand after the given operations, in order. -/
def history (ops : List Operation) : List (String × Term) := ops.foldl Operation.historyAfter []

theorem records_run (ops : List Operation) : Records (run ops).value (history ops) := by
  have hrun : ∀ {env earlier}, Records env earlier →
      Records (ops.foldlM Operation.perform env).value
        (ops.foldl Operation.historyAfter earlier) := by
    intro env earlier h
    induction ops generalizing env earlier with
    | nil => exact h
    | cons op rest ih =>
      rw [List.foldlM_cons, Logged.value_bind, List.foldl_cons]
      exact ih (Operation.records_perform h op)
  exact hrun Records.empty

/-- What a definition of a name hands back and reports after the given history. -/
structure HandsBack (earlier : List (String × Term)) (n : String)
    (result : Logged (Option Term × Env)) : Prop where
  eq_some_iff : ∀ u, result.value.1 = some u ↔ Latest earlier n u
  eq_none_iff : result.value.1 = none ↔ n ∉ earlier.map Prod.fst
  events_eq : result.events = if result.value.1.isSome then [.overwritten n] else []

theorem Records.handsBack_define (h : Records env earlier) (n : String) (t : Term) :
    HandsBack earlier n (env.define n t) where
  eq_some_iff u := by rw [value_define, h.get?_eq_some_iff]
  eq_none_iff := by rw [value_define, h.get?_eq_none_iff]
  events_eq := by rw [value_define, events_define]

/-- An environment after the built-ins were loaded into another one: their names are bound to them,
in place or in order at the end, and other names are left alone. -/
structure WithBuiltins (env : Env) (serial : Nat) (result : Env) : Prop where
  get?_symbol : ∀ b : Builtin, result.get? b.symbol = some (.func (b.toFunc serial))
  get?_eq : ∀ n, (∀ b : Builtin, n ≠ b.symbol) → result.get? n = env.get? n
  names_eq : result.names =
    env.names ++ ["+", "-", "*", "^", "x^2+y^2"].filter fun n => n ∉ env.names

theorem withBuiltins_loadBuiltins (env : Env) (serial : Nat) :
    WithBuiltins env serial (env.loadBuiltins serial).value := by
  have hload : env.loadBuiltins serial =
      env.extend (Builtin.all.map fun b => (b.symbol, .func (b.toFunc serial))) :=
    Operation.perform_eq_extend env (.loadBuiltins serial)
  rw [hload]
  have hnames : ((Builtin.all.map fun b => (b.symbol, Term.func (b.toFunc serial))).map Prod.fst) =
      ["+", "-", "*", "^", "x^2+y^2"] := rfl
  have hnodup : ["+", "-", "*", "^", "x^2+y^2"].Nodup := by decide
  constructor
  · intro b
    refine get?_extend_of_mem (hnames ▸ hnodup) (List.mem_map.mpr ⟨b, ?_, rfl⟩)
    cases b <;> decide
  · intro n hn
    refine get?_extend_of_notMem ?_
    rw [List.map_map, List.mem_map]
    rintro ⟨b, -, rfl⟩
    exact hn b rfl
  · rw [names_extend_of_nodup (hnames ▸ hnodup), hnames]

/-- A run of operations leads to the record of its definitions: each name once, in the order of its
first definition, with the term of its latest one.  A definition hands back what it replaces and
reports that it did, and no operation touches the terms or the places of other names. -/
theorem run_records_history (ops : List Operation) :
    Records (run ops).value (history ops) ∧ (run ops).value.names.Nodup ∧
      (run ops).value.size = ((history ops).map Prod.fst).toFinset.card ∧
      (∀ n t, (run ops).value.lookup n = .ok t ↔ Latest (history ops) n t) ∧
      (∀ n, (run ops).value.lookup n = .error (.unboundName n) ↔
        n ∉ (history ops).map Prod.fst) ∧
      (∀ n t, HandsBack (history ops) n ((run ops).value.define n t)) ∧
      (∀ env (op : Operation), op.Effect (op.ground env) (op.perform env)) ∧
      ∀ env serial, WithBuiltins env serial (env.loadBuiltins serial).value := by
  have h := records_run ops
  exact ⟨h, (run ops).value.nodup_names, h.size_eq, h.lookup_eq_ok_iff, h.lookup_eq_error_iff,
    h.handsBack_define, Operation.effect_perform, withBuiltins_loadBuiltins⟩

/-- Definitions of an operator and of two names, one of them twice. -/
def redefinitions : List Operation :=
  [.define "+" (.int 1), .extend [("x", .int 2), ("y", .int 3)], .define "x" (.int 4)]

/-- A name that is defined twice keeps its place, and the built-ins are restored in theirs. -/
theorem run_records_history_redefinitions :
    Latest (history redefinitions) "x" (.int 4) ∧
      (run redefinitions).value.lookup "x" = .ok (.int 4) ∧
      "z" ∉ (history redefinitions).map Prod.fst ∧
      (run redefinitions).value.lookup "z" = .error (.unboundName "z") ∧
      ((run redefinitions).value.loadBuiltins 7).value.names =
        ["+", "x", "y", "-", "*", "^", "x^2+y^2"] := by
  have hlatest : Latest (history redefinitions) "x" (.int 4) :=
    ⟨[("+", .int 1), ("x", .int 2), ("y", .int 3)], [], rfl, by decide⟩
  have hz : "z" ∉ (history redefinitions).map Prod.fst := by decide
  obtain ⟨-, -, -, hok, herror, -, -, hload⟩ := run_records_history redefinitions
  refine ⟨hlatest, (hok _ _).mpr hlatest, hz, (herror _).mpr hz, ?_⟩
  rw [(hload _ 7).names_eq]
  decide

end Reduct.Env
