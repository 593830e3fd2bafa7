import Mathlib.Data.List.DropRight
import Reduct.Proofs.Session.Drivers
import Reduct.Proofs.Source.Blame

/-!
# Blanks around a text

A dialogue removes the blanks around a line before it reads the line, and a command does not.  The
two differ in the places that rejections point at, and in nothing else: blanks before a text move
it, and blanks behind it change nothing, not even inside a string that is never closed.

## Main definitions

* `Text.leadingBlanks` — the blanks that are removed before a text.

## Main results

* `Text.trim_trim` — there is nothing left to remove from a text without blanks around it.
* `Reader.exists_feed_blank`, `Reader.exists_feedAll_blanks` — what a blank and what several blanks
  do to the end of a text.
* `Program.parse_trim` — a text parses as it does without the blanks around it.
* `Session.evalSource_trim` — and has the same outcomes.
* `trimming_is_transparent` — so a dialogue and a command tell the same about a text.
-/

namespace Reduct

namespace Text

/-- The blanks before the first character of a text that is none. -/
def leadingBlanks (s : String) : String := String.ofList (s.toList.takeWhile isBlank)

theorem isBlank_of_mem_leadingBlanks {s : String} {c : Char} (h : c ∈ (leadingBlanks s).toList) :
    isBlank c = true := by
  rw [leadingBlanks, String.toList_ofList] at h
  exact List.mem_takeWhile_imp h

theorem exists_dropBlanksEnd_append (cs : List Char) :
    ∃ blanks, (∀ c ∈ blanks, isBlank c = true) ∧ cs = dropBlanksEnd cs ++ blanks := by
  refine ⟨(cs.reverse.takeWhile isBlank).reverse, ?_, ?_⟩
  · intro c hc
    exact List.mem_takeWhile_imp (List.mem_reverse.mp hc)
  · rw [dropBlanksEnd, ← List.reverse_append, List.takeWhile_append_dropWhile, List.reverse_reverse]

/-- Blanks are all that is removed from a text. -/
theorem exists_eq_trim_append (s : String) :
    ∃ blanks : String, (∀ c ∈ blanks.toList, isBlank c = true) ∧
      s = leadingBlanks s ++ trim s ++ blanks := by
  obtain ⟨blanks, hblanks, heq⟩ := exists_dropBlanksEnd_append (s.toList.dropWhile isBlank)
  refine ⟨String.ofList blanks, by simpa using hblanks, ?_⟩
  apply String.toList_inj.mp
  rw [String.toList_append, String.toList_append, leadingBlanks, trim, String.toList_ofList,
    String.toList_ofList, String.toList_ofList, List.append_assoc, ← heq,
    List.takeWhile_append_dropWhile]

theorem dropBlanksEnd_dropBlanksEnd (cs : List Char) :
    dropBlanksEnd (dropBlanksEnd cs) = dropBlanksEnd cs := by
  rw [dropBlanksEnd, dropBlanksEnd, List.reverse_reverse, List.dropWhile_idempotent]

/-- Removing blanks at the end uncovers none at the start. -/
theorem dropWhile_dropBlanksEnd (cs : List Char) :
    (dropBlanksEnd (cs.dropWhile isBlank)).dropWhile isBlank =
      dropBlanksEnd (cs.dropWhile isBlank) := by
  obtain ⟨blanks, -, heq⟩ := exists_dropBlanksEnd_append (cs.dropWhile isBlank)
  cases hcs : dropBlanksEnd (cs.dropWhile isBlank) with
  | nil => rfl
  | cons c rest =>
    rw [hcs, List.cons_append] at heq
    have hne : cs.dropWhile isBlank ≠ [] := by simp [heq]
    have hc : isBlank c = false := by
      have hhead := List.head_dropWhile_not isBlank hne
      simpa [heq] using hhead
    rw [List.dropWhile_cons_of_neg (by simp [hc])]

/-- There is nothing left to remove from a text without blanks around it. -/
theorem trim_trim (s : String) : trim (trim s) = trim s := by
  simp only [trim, String.toList_ofList, dropWhile_dropBlanksEnd, dropBlanksEnd_dropBlanksEnd]

end Text

namespace Reader

variable {r : Reader} {c : Char}

theorem finish_settle (hr : r.inString = false) : r.settle.finish = r.finish := by
  rcases mode_of_inString_eq_false hr with hmode | ⟨token, hmode⟩
  · rw [settle, hmode]
  · cases hframes : r.frames with
    | nil => simp [finish, settle, push, hmode, hframes]
    | cons frame outer => simp [finish, settle, push, hmode, hframes]

theorem finish_advance (r : Reader) (c : Char) : (r.advance c).finish = r.finish := by
  obtain ⟨offset, mode, nodes, frames⟩ := r
  cases mode <;> rfl

/-- A blank is read wherever it stands, and a text that ends behind it is taken as one that ends
before it.  In a string it is one more character of a token that is not complete. -/
theorem exists_feed_blank (r : Reader) (hc : Text.isBlank c = true) :
    ∃ r', r.feed c = .ok r' ∧ r'.finish = r.finish := by
  cases hmode : r.mode with
  | gap | bare token =>
    have hr : r.inString = false := by rw [inString, hmode]
    exact ⟨_, feed_blank hr hc, by rw [finish_advance, finish_settle hr]⟩
  | quoted opened token =>
    have hquote : c ≠ '"' := by
      rintro rfl
      exact absurd hc (by decide)
    have hslash : c ≠ '\\' := by
      rintro rfl
      exact absurd hc (by decide)
    have haccept : r.accept c = .ok { r with mode := .quoted opened (c :: token) } := by
      rw [accept, hmode]
      simp [hquote, hslash]
    refine ⟨_, feed_of_accept haccept, ?_⟩
    rw [finish_advance, finish, finish, hmode]
  | escape opened token =>
    have haccept : r.accept c = .ok { r with mode := .quoted opened (c :: token) } := by
      rw [accept, hmode]
    refine ⟨_, feed_of_accept haccept, ?_⟩
    rw [finish_advance, finish, finish, hmode]

theorem exists_feedAll_blanks {cs : List Char} (r : Reader)
    (hcs : ∀ c ∈ cs, Text.isBlank c = true) :
    ∃ r', r.feedAll cs = .ok r' ∧ r'.finish = r.finish := by
  induction cs generalizing r with
  | nil => exact ⟨r, rfl, rfl⟩
  | cons c cs ih =>
    rw [List.forall_mem_cons] at hcs
    obtain ⟨r₁, hfeed, hr₁⟩ := r.exists_feed_blank hcs.1
    obtain ⟨r', hrest, hr'⟩ := ih r₁ hcs.2
    refine ⟨r', ?_, hr'.trans hr₁⟩
    rw [feedAll, List.foldlM_cons, hfeed]
    exact hrest

end Reader

theorem ReadError.relocate_zero (e : ReadError) : e.relocate 0 = e := by
  cases e <;> rfl

namespace Program

/-- Blanks behind a text change nothing. -/
theorem parse_append_blanks {source gap : String} (hgap : ∀ c ∈ gap.toList, Text.isBlank c = true) :
    parse (source ++ gap) = parse source := by
  cases hread : Reader.start.feedAll source.toList with
  | error e =>
    rw [parse_append_of_feedAll_error hread, parse_eq_run, Reader.run, hread]
    rfl
  | ok r =>
    obtain ⟨r', hfeed, hfinish⟩ := r.exists_feedAll_blanks hgap
    have hboth : Reader.start.feedAll (source ++ gap).toList = .ok r' := by
      rw [String.toList_append, Reader.feedAll_append, hread]
      exact hfeed
    rw [parse_of_feedAll hboth, parse_of_feedAll hread, hfinish]

/-- Blanks before a text move it and change nothing else. -/
theorem parse_blanks_append {gap source : String} (hgap : ∀ c ∈ gap.toList, Text.isBlank c = true) :
    parse (gap ++ source) = (parse source).mapError (ReadError.relocate gap.utf8ByteSize) := by
  by_cases hne : gap = ""
  · subst hne
    rw [String.empty_append]
    cases parse source with
    | error e => exact congrArg Except.error e.relocate_zero.symm
    | ok program => rfl
  · have hempty : parse "" = .ok [] := rfl
    have happend : parse ("" ++ gap ++ source) = _ := parse_append_blank hempty hne hgap
    rw [String.empty_append] at happend
    rw [happend]
    cases parse source <;> rfl

/-- A text parses as it does without the blanks around it, except that its flaws stand behind the
blanks before it. -/
theorem parse_trim (source : String) :
    parse source = (parse (Text.trim source)).mapError
      (ReadError.relocate (Text.leadingBlanks source).utf8ByteSize) := by
  obtain ⟨blanks, hblanks, heq⟩ := Text.exists_eq_trim_append source
  conv => lhs; rw [heq, parse_append_blanks hblanks]
  exact parse_blanks_append fun c => Text.isBlank_of_mem_leadingBlanks

theorem parse_eq_ok_iff_trim {source : String} {program : Program} :
    parse source = .ok program ↔ parse (Text.trim source) = .ok program := by
  rw [parse_trim source, mapError_eq_ok_iff]

theorem exists_parse_trim_of_error {source : String} {e : ReadError} (h : parse source = .error e) :
    ∃ offset flaw, parse (Text.trim source) = .error (.malformed offset flaw) ∧
      e = .malformed (offset + (Text.leadingBlanks source).utf8ByteSize) flaw := by
  rw [parse_trim source, mapError_eq_error_iff] at h
  obtain ⟨e', htrim, rfl⟩ := h
  obtain ⟨offset, flaw, rfl⟩ := malformed_of_parse htrim
  exact ⟨offset, flaw, htrim, rfl⟩

/-- The conversion of a parsed text rejects tokens, and these have no place that blanks could
move. -/
theorem mapError_relocate_toTerms {source : String} {program : Program}
    (h : parse source = .ok program) (bytes : Nat) :
    program.toTerms.mapError (ReadError.relocate bytes) = program.toTerms := by
  cases hterms : program.toTerms with
  | ok ts => rfl
  | error e =>
    obtain ⟨node, hmem, hnode⟩ := Node.exists_of_toTerms_eq_error hterms
    have hwellFormed := (parse_eq_ok_iff.mp h).wellFormed node hmem
    cases e with
    | malformed offset flaw => exact absurd hnode (hwellFormed.toTerm_ne_malformed offset flaw)
    | integerRange token => rfl
    | badString token complaint => rfl

end Program

namespace Traced

variable {ε ε' α β : Type}

theorem events_adapt (f : ε → ε') (x : Traced ε α) : events (x.adapt f) = x.events := by
  rw [events, ExceptT.run_adapt]
  exact List.append_nil _

/-- A change of the errors can be made in each part of a sequence. -/
theorem adapt_bind (f : ε → ε') (x : Traced ε α) (g : α → Traced ε β) :
    ExceptT.adapt f (x >>= g) = ExceptT.adapt f x >>= fun a => ExceptT.adapt f (g a) := by
  apply Traced.ext
  · simp only [result_adapt, result_bind]
    cases x.result <;> rfl
  · simp only [events_adapt, events_bind, result_adapt]
    cases x.result <;> rfl

/-- What cannot fail is left as it is. -/
theorem adapt_lift (f : ε → ε') (x : Logged α) :
    ExceptT.adapt f (ExceptT.lift x : Traced ε α) = ExceptT.lift x := by
  apply Traced.ext
  · rw [result_adapt]
    rfl
  · rw [events_adapt]
    rfl

end Traced

theorem Term.events_readAll (source : String) :
    (readAll source).events =
      match Program.parse source with
      | .ok program => [.parsed program.length]
      | .error _ => [] := by
  rw [readAll, Traced.events_bind, Traced.result_ofExcept]
  cases Program.parse source <;> rfl

/-- The terms of a text, and what is reported on the way, do not depend on the blanks around it. -/
theorem Term.readAll_trim (source : String) :
    readAll source = (readAll (Text.trim source)).adapt
      (ReadError.relocate (Text.leadingBlanks source).utf8ByteSize) := by
  apply Traced.ext
  · rw [Traced.result_adapt, result_readAll, result_readAll, Program.parse_trim source]
    cases htrim : Program.parse (Text.trim source) with
    | error e => rfl
    | ok program => exact (Program.mapError_relocate_toTerms htrim _).symm
  · rw [Traced.events_adapt, events_readAll, events_readAll, Program.parse_trim source]
    cases Program.parse (Text.trim source) <;> rfl

/-- The outcomes of a text, and what is reported on the way, do not depend on the blanks around
it. -/
theorem Session.evalSource_trim (s : Session) (source : String) :
    s.evalSource source = (s.evalSource (Text.trim source)).adapt
      (ReadError.relocate (Text.leadingBlanks source).utf8ByteSize) := by
  rw [evalSource, evalSource, Term.readAll_trim source, Traced.adapt_bind]
  simp only [Traced.adapt_bind, Traced.emit, Traced.adapt_lift]

/-- A dialogue does not tell a line from the same line without the blanks around it. -/
theorem Repl.respond_trim (config : Config) (s : Session) (input : String) :
    respond config s input = respond config s (Text.trim input) := by
  simp only [respond, Text.trim_trim]

namespace CommandLine

/-- A command evaluates a text as it stands, and a dialogue without the blanks around it.  If the
text is accepted, the command prints what it prints for the text without these blanks, and the
dialogue shows the same outcomes.  If it is rejected, the command names the place of the flaw in the
whole text, and the dialogue the one in the text without the blanks. -/
structure EvaluatesAlike (config : Repl.Config) (input : String) (level : Level) : Prop where
  accepted : ∀ os, (Session.base.evalSource input).result = .ok os →
    evaluate level input = evaluate level (Text.trim input) ∧
      (Repl.respond config Session.base input).value = .print (os.map .ofOutcome)
  rejected : ∀ e, (Session.base.evalSource (Text.trim input)).result = .error e →
    (Repl.respond config Session.base input).value = .print [.ofReadError e] ∧
      ∃ log, evaluate level (Text.trim input) =
          Transcript.afterLog log ⟨[.err (errorReport "syntax error" e.message)], 1⟩ ∧
        evaluate level input =
          Transcript.afterLog log ⟨[.err (errorReport "syntax error"
            (e.relocate (Text.leadingBlanks input).utf8ByteSize).message)], 1⟩

theorem report_evalSource_trim (level : Level) (input : String) :
    (Session.base.evalSource input).run.report level logLine =
      (Session.base.evalSource (Text.trim input)).run.report level logLine := by
  have hevents : (Session.base.evalSource input).run.events =
      (Session.base.evalSource (Text.trim input)).run.events := by
    have hadapt := congrArg Traced.events (Session.base.evalSource_trim input)
    rwa [Traced.events_adapt] at hadapt
  rw [Logged.report, Logged.report, hevents]

theorem evaluatesAlike {config : Repl.Config} {input : String} (h : config.Evaluates input)
    (level : Level) : EvaluatesAlike config input level := by
  have hresult := congrArg Traced.result (Session.base.evalSource_trim input)
  rw [Traced.result_adapt] at hresult
  have hreply : (Repl.respond config Session.base input).value = _ := h.value_respond
  constructor
  · intro os hos
    have htrim := mapError_eq_ok_iff.mp (hresult.symm.trans hos)
    rw [htrim] at hreply
    refine ⟨?_, hreply⟩
    rw [evaluate_of_ok hos, evaluate_of_ok htrim, report_evalSource_trim]
  · intro e he
    rw [he] at hreply hresult
    refine ⟨hreply, _, evaluate_of_error he, ?_⟩
    rw [evaluate_of_error hresult, report_evalSource_trim]

end CommandLine

/-- The blanks around a text make no difference but for the places of flaws, which are counted from
the first byte of the text, blanks included.  Answers in a dialogue are the same; so are the parsed
program, the terms and the outcomes, with all that is reported on the way; and a command that is
given the line of a dialogue tells the same about it. -/
theorem trimming_is_transparent :
    (∀ (config : Repl.Config) (s : Session) (input : String),
        Repl.respond config s input = Repl.respond config s (Text.trim input)) ∧
      (∀ (input : String) (program : Program),
        Program.parse input = .ok program ↔ Program.parse (Text.trim input) = .ok program) ∧
      (∀ (input : String) (e : ReadError), Program.parse input = .error e →
        ∃ offset flaw, Program.parse (Text.trim input) = .error (.malformed offset flaw) ∧
          e = .malformed (offset + (Text.leadingBlanks input).utf8ByteSize) flaw) ∧
      (∀ input : String, Term.readAll input = (Term.readAll (Text.trim input)).adapt
        (ReadError.relocate (Text.leadingBlanks input).utf8ByteSize)) ∧
      (∀ (s : Session) (input : String), s.evalSource input =
        (s.evalSource (Text.trim input)).adapt
          (ReadError.relocate (Text.leadingBlanks input).utf8ByteSize)) ∧
      ∀ (config : Repl.Config) (input : String), config.Evaluates input →
        ∀ level : Level, CommandLine.EvaluatesAlike config input level := by
  refine ⟨Repl.respond_trim, ?_, ?_, Term.readAll_trim, Session.evalSource_trim, ?_⟩
  · intro input program
    exact Program.parse_eq_ok_iff_trim
  · intro input e h
    exact Program.exists_parse_trim_of_error h
  · intro config input h level
    exact CommandLine.evaluatesAlike h level

/-- Blanks of three bytes before an open string, and behind a backslash in it. -/
theorem trimming_is_transparent_openString :
    Program.parse "\u2003 (f \"é\\\u2003\n" = .error (.malformed 7 .unterminated) ∧
      Program.parse (Text.trim "\u2003 (f \"é\\\u2003\n") = .error (.malformed 3 .unterminated) ∧
      Repl.Config.Evaluates {} "\u2003 (f \"é\\\u2003\n" ∧
      (Repl.respond {} Session.base "\u2003 (f \"é\\\u2003\n").value =
        .print [.error "Syntax error: syntax error at offset 3: unterminated string literal"] := by
  have hparse : Program.parse "\u2003 (f \"é\\\u2003\n" = .error (.malformed 7 .unterminated) := rfl
  have hevaluates : Repl.Config.Evaluates {} "\u2003 (f \"é\\\u2003\n" :=
    ⟨rfl, by decide, by decide⟩
  have hbytes : (Text.leadingBlanks "\u2003 (f \"é\\\u2003\n").utf8ByteSize = 4 := rfl
  obtain ⟨-, -, herror, -, -, halike⟩ := trimming_is_transparent
  have htrim : Program.parse (Text.trim "\u2003 (f \"é\\\u2003\n") =
      .error (.malformed 3 .unterminated) := by
    obtain ⟨offset, flaw, htrim, heq⟩ := herror _ _ hparse
    rw [hbytes] at heq
    cases heq
    exact htrim
  refine ⟨hparse, htrim, hevaluates, ?_⟩
  have hsource : (Session.base.evalSource (Text.trim "\u2003 (f \"é\\\u2003\n")).result =
      .error (.malformed 3 .unterminated) := by
    rw [Session.result_evalSource_eq_error_iff, Term.result_readAll, htrim]
    rfl
  rw [((halike _ _ hevaluates .warn).rejected _ hsource).1]
  rfl

end Reduct
