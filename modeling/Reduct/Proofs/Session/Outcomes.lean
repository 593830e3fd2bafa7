import Reduct.Proofs.Eval.Outcome
import Reduct.Proofs.Source.Concatenation
import Reduct.Proofs.Term.RoundTrip
import Reduct.Session

/-!
# Outcomes of whole programs

What a session makes of a text depends on the terms of the text only, and on each of them alone.
The outcomes of two texts with blanks between them are therefore the outcomes of both.

## Main results

* `Session.result_evalSource` — the outcomes of a text, term by term.
* `Session.result_evalAll` — the values of a text, up to the first term without one.
* `Session.evalSource_append_blank` — two texts with blanks between them.
-/

namespace Reduct

theorem Logged.value_mapM {α β : Type} (f : α → Logged β) (xs : List α) :
    (xs.mapM f).value = xs.map fun x => (f x).value := by
  induction xs with
  | nil => rfl
  | cons x xs ih =>
    rw [List.mapM_cons, value_bind, value_bind, value_pure, ih, List.map_cons]

namespace Traced

variable {ε ε' α : Type}

theorem result_lift (x : Logged α) : result (ExceptT.lift x : Traced ε α) = .ok x.value := rfl

theorem result_adapt (f : ε → ε') (x : Traced ε α) :
    result (x.adapt f) = x.result.mapError f := by
  rw [result, ExceptT.run_adapt]
  rfl

end Traced

namespace Program

variable {earlier later program : Program} {source : String} {ts us : List Term}

theorem toTerms_eq_ok_iff :
    program.toTerms = .ok ts ↔ program.map Node.toTerm = ts.map .ok := by
  rw [toTerms, Node.toTerms_eq_mapM, mapM_eq_ok_iff]

theorem toTerms_append (hearlier : earlier.toTerms = .ok ts) (hlater : later.toTerms = .ok us) :
    (earlier ++ later).toTerms = .ok (ts ++ us) := by
  rw [toTerms_eq_ok_iff] at hearlier hlater
  refine toTerms_eq_ok_iff.mpr ?_
  rw [List.map_append, List.map_append, hearlier, hlater]

/-- A text that does not parse is rejected for its arrangement. -/
theorem malformed_of_parse {e : ReadError} (h : parse source = .error e) :
    ∃ offset flaw, e = .malformed offset flaw := by
  cases hfeed : Reader.start.feedAll source.toList with
  | error e' =>
    rw [parse_eq_run, Reader.run, hfeed] at h
    cases h
    cases Reader.lasting_of_feedAll hfeed <;> exact ⟨_, _, rfl⟩
  | ok r =>
    rw [parse_of_feedAll hfeed] at h
    cases Reader.mendable_of_finish h <;> exact ⟨_, _, rfl⟩

end Program

theorem Term.result_readAll_eq_ok_iff {source : String} {ts : List Term} :
    (readAll source).result = .ok ts ↔
      ∃ program, Program.parse source = .ok program ∧ program.toTerms = .ok ts := by
  rw [result_readAll]
  cases Program.parse source with
  | error e => simp [bind, Except.bind]
  | ok program => simp [bind, Except.bind]

namespace Session

variable {s : Session} {source : String}

/-- The outcomes of some terms, each on its own. -/
def outcomes (s : Session) (ts : List Term) : List Outcome := ts.map fun t => (s.reduce t).result

theorem value_evalTerm (s : Session) (t : Term) : (s.evalTerm t).value = (s.reduce t).result := by
  have hvalue : (s.reduce t).run.value = (s.reduce t).result := rfl
  rw [evalTerm, Logged.value_bind, hvalue]
  dsimp only
  split <;> rfl

/-- The outcomes of a text are the outcomes of its terms, each on its own. -/
theorem result_evalSource (s : Session) (source : String) :
    (s.evalSource source).result =
      (Term.readAll source).result.map s.outcomes := by
  rw [evalSource, Traced.result_bind]
  cases (Term.readAll source).result with
  | error e => rfl
  | ok ts =>
    have hvalue : (ts.mapM s.evalTerm).value = s.outcomes ts := by
      simp only [Logged.value_mapM, value_evalTerm, outcomes]
    simp only [Traced.result_bind, Traced.result_emit, Traced.result_lift, hvalue]
    rfl

theorem result_evalSource_eq_ok_iff {os : List Outcome} :
    (s.evalSource source).result = .ok os ↔
      ∃ ts, (Term.readAll source).result = .ok ts ∧ s.outcomes ts = os := by
  rw [result_evalSource]
  cases (Term.readAll source).result <;> simp [Except.map]

theorem result_evalSource_eq_error_iff {e : ReadError} :
    (s.evalSource source).result = .error e ↔ (Term.readAll source).result = .error e := by
  rw [result_evalSource]
  cases (Term.readAll source).result <;> simp [Except.map]

/-- The values of a text are those of its terms, up to the first term without one. -/
theorem result_evalAll (s : Session) (source : String) :
    (s.evalAll source).result =
      (Term.readAll source).result.mapError .unread >>= fun ts =>
        (ts.mapM fun t => (s.reduce t).result).mapError .stopped := by
  rw [evalAll, Traced.result_bind_eq, Traced.result_adapt]
  simp only [Traced.result_adapt, reduceAll, Term.reduceAll, Traced.result_mapM]
  rfl

/-- Where a text parses, the text behind it and some blanks is read as it is on its own: its nodes
follow, or it is rejected at the byte where its flaw then stands.  If both texts spell terms, the
outcomes of the whole are the outcomes of both, whatever the session. -/
theorem evalSource_append_blank (first gap second : String) (earlier : Program)
    (hfirst : Program.parse first = .ok earlier) (hne : gap ≠ "")
    (hgap : ∀ c ∈ gap.toList, Text.isBlank c = true) :
    (∀ later, Program.parse second = .ok later →
        Program.parse (first ++ gap ++ second) = .ok (earlier ++ later)) ∧
      (∀ e, Program.parse second = .error e → ∃ offset flaw, e = .malformed offset flaw ∧
        Program.parse (first ++ gap ++ second) =
          .error (.malformed (offset + (first ++ gap).utf8ByteSize) flaw)) ∧
      ∀ (s : Session) (ts us : List Term),
        (Term.readAll first).result = .ok ts → (Term.readAll second).result = .ok us →
          ∃ os ps, (s.evalSource first).result = .ok os ∧ (s.evalSource second).result = .ok ps ∧
            (s.evalSource (first ++ gap ++ second)).result = .ok (os ++ ps) := by
  have hparse : Program.parse (first ++ gap ++ second) = _ :=
    Program.parse_append_blank hfirst hne hgap
  have hlater : ∀ later, Program.parse second = .ok later →
      Program.parse (first ++ gap ++ second) = .ok (earlier ++ later) := by
    intro later h
    rw [hparse, h]
    rfl
  refine ⟨hlater, ?_, ?_⟩
  · intro e h
    obtain ⟨offset, flaw, rfl⟩ := Program.malformed_of_parse h
    refine ⟨offset, flaw, rfl, ?_⟩
    rw [hparse, h]
    rfl
  · intro s ts us hts hus
    obtain ⟨program, hprogram, hearlier⟩ := Term.result_readAll_eq_ok_iff.mp hts
    obtain ⟨later, hsecond, hterms⟩ := Term.result_readAll_eq_ok_iff.mp hus
    cases hfirst.symm.trans hprogram
    have hboth : (Term.readAll (first ++ gap ++ second)).result = .ok (ts ++ us) :=
      Term.result_readAll_eq_ok_iff.mpr
        ⟨_, hlater later hsecond, Program.toTerms_append hearlier hterms⟩
    refine ⟨s.outcomes ts, s.outcomes us, ?_, ?_, ?_⟩
    · exact result_evalSource_eq_ok_iff.mpr ⟨ts, hts, rfl⟩
    · exact result_evalSource_eq_ok_iff.mpr ⟨us, hus, rfl⟩
    · exact result_evalSource_eq_ok_iff.mpr ⟨ts ++ us, hboth, List.map_append⟩

/-- Text behind twelve bytes, some of which belong to wider characters. -/
theorem evalSource_append_emSpace :
    Program.parse ("(f \"é\")" ++ "\u2003\n" ++ "(g") = .error (.malformed 12 .unclosed) ∧
      (Session.evalSource ⟨Env.base, Host.bare, ⟨3, 3⟩⟩
          ("(f \"é\")" ++ "\u2003\n" ++ "(+ 1 2)")).result =
        .ok [.error (.failed (.unboundName "f")), .ok (.int 3)] := by
  have hfirst : Program.parse "(f \"é\")" = .ok [.call [.name "f", .string "\"é\""]] := rfl
  have hgap : ∀ c ∈ "\u2003\n".toList, Text.isBlank c = true := List.all_eq_true.mp (by decide)
  constructor
  · have hsecond : Program.parse "(g" = .error (.malformed 0 .unclosed) := rfl
    obtain ⟨offset, flaw, hflaw, h⟩ :=
      (evalSource_append_blank _ _ "(g" _ hfirst (by decide) hgap).2.1 _ hsecond
    cases hflaw
    exact h
  · have htoken : "\"é\"".toList = ['"', 'é', '"'] := rfl
    have hterms : Program.toTerms [.call [.name "f", .string "\"é\""]] =
        .ok [.call (.name "f") [.str "é"]] := by
      rw [Program.toTerms, Node.toTerms_cons, Node.toTerm_call, Node.toTerms_cons,
        Node.toTerm_string, Node.stringTerm, Text.Quoted.decode, htoken]
      rfl
    have hts : (Term.readAll "(f \"é\")").result = .ok [.call (.name "f") [.str "é"]] :=
      Term.result_readAll_eq_ok_iff.mpr ⟨_, hfirst, hterms⟩
    have hus : (Term.readAll "(+ 1 2)").result = .ok [.call (.name "+") [.int 1, .int 2]] := rfl
    obtain ⟨os, ps, hos, hps, h⟩ :=
      (evalSource_append_blank _ _ _ _ hfirst (by decide) hgap).2.2
        ⟨Env.base, Host.bare, ⟨3, 3⟩⟩ _ _ hts hus
    rw [result_evalSource, hts] at hos
    rw [result_evalSource, hus] at hps
    cases hos
    cases hps
    rw [h]
    rfl

end Session

end Reduct
