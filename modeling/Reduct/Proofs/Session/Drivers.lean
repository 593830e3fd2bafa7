import Mathlib.Data.List.Forall2
import Reduct.CommandLine
import Reduct.Proofs.Eval.Budget
import Reduct.Proofs.Session.Outcomes

/-!
# The ways to evaluate a text

A text is evaluated for its outcomes, for its values, in a dialogue, or on the command line.  All of
these tell the same about it.

## Main definitions

* `Session.CollectsAlike` — the values of a text are read off its outcomes.
* `Repl.AnswersAlike` — the lines of an answer are read off the outcomes.
* `CommandLine.PrintsAlike` — what a command prints is read off the lines of the answer.

## Main results

* `Session.outcomes_base` — over the built-in functions every outcome is what the term denotes.
* `drivers_agree` — whichever way a text is evaluated, its outcomes are told alike.
-/

namespace Reduct

theorem Text.exists_not_isBlank_of_trim_ne {s : String} (h : trim s ≠ "") :
    ∃ c ∈ (trim s).toList, isBlank c = false := by
  rw [trim, dropBlanksEnd] at h ⊢
  have hne : (s.toList.dropWhile isBlank).reverse.dropWhile isBlank ≠ [] := by
    intro hnil
    simp [hnil] at h
  refine ⟨_, ?_, List.head_dropWhile_not isBlank hne⟩
  rw [String.toList_ofList, List.mem_reverse]
  exact List.head_mem hne

/-- A text with anything but blanks in it is no empty program. -/
theorem Program.ne_nil_of_parse {source : String} {program : Program} {c : Char}
    (h : parse source = .ok program) (hc : c ∈ source.toList) (hblank : Text.isBlank c = false) :
    program ≠ [] := by
  rintro rfl
  -- A program without nodes has no lexemes either, so its layouts are made of blanks.
  have hlaid := (parse_eq_ok_iff.mp h).laid
  generalize source.toList = cs at hlaid hc
  cases hlaid with
  | done hgap => simp [hgap c hc] at hblank

namespace Session

variable {s : Session} {source : String} {os : List Outcome}

/-- The values of a text are its outcomes, if all of these are values; otherwise the first outcome
that is none is the cause.  Both are rejected alike. -/
structure CollectsAlike (s : Session) (source : String) : Prop where
  values : ∀ vs : List Term, (s.evalAll source).result = .ok vs ↔
    (s.evalSource source).result = .ok (vs.map .ok)
  stopped : ∀ stop, (s.evalAll source).result = .error (.stopped stop) ↔
    ∃ (vs : List Term) (rest : List Outcome),
      (s.evalSource source).result = .ok (vs.map .ok ++ .error stop :: rest)
  unread : ∀ e, (s.evalAll source).result = .error (.unread e) ↔
    (s.evalSource source).result = .error e

theorem collectsAlike (s : Session) (source : String) : s.CollectsAlike source := by
  have hall := s.result_evalAll source
  have hsource := s.result_evalSource source
  cases hread : (Term.readAll source).result with
  | error e =>
    rw [hread] at hall hsource
    constructor <;> simp [hall, hsource, Except.map, mapError_error, bind, Except.bind]
  | ok ts =>
    replace hall : (s.evalAll source).result =
        (ts.mapM fun t => (s.reduce t).result).mapError .stopped := by
      rw [hall, hread]
      rfl
    replace hsource : (s.evalSource source).result = .ok (ts.map fun t => (s.reduce t).result) := by
      rw [hsource, hread]
      rfl
    constructor
    · intro vs
      rw [hall, hsource, mapError_eq_ok_iff, mapM_eq_ok_iff, Except.ok.injEq]
    · intro stop
      simp only [hall, hsource, mapError_eq_error_iff, Rejection.stopped.injEq, exists_eq_right,
        mapM_eq_error_iff, Except.ok.injEq]
    · intro e
      simp [hall, hsource, mapError_eq_error_iff]

/-- A text that holds more than blanks has an outcome. -/
theorem ne_nil_of_evalSource {c : Char} (h : (s.evalSource source).result = .ok os)
    (hc : c ∈ source.toList) (hblank : Text.isBlank c = false) : os ≠ [] := by
  obtain ⟨ts, hread, rfl⟩ := result_evalSource_eq_ok_iff.mp h
  obtain ⟨program, hparse, hterms⟩ := Term.result_readAll_eq_ok_iff.mp hread
  have hprogram := Program.ne_nil_of_parse hparse hc hblank
  rw [Program.toTerms_eq_ok_iff] at hterms
  intro hnil
  obtain rfl := List.map_eq_nil_iff.mp hnil
  exact hprogram (List.map_eq_nil_iff.mp hterms)

/-- Over the built-in functions the outcome of a term is what the term denotes. -/
theorem outcomes_base {ts : List Term} (h : (Term.readAll source).result = .ok ts) :
    base.outcomes ts = ts.map fun t => t.denote.mapError .failed := by
  refine List.map_congr_left fun t ht => ?_
  have hreadable : t.Readable := Term.readable_of_result_readAll h t ht
  have hample : 258 ≤ Budget.ample.depth ∧ 3 ≤ Budget.ample.steps := by
    constructor <;> decide
  have hnesting : t.nesting + 2 ≤ 258 := Nat.add_le_add_right hreadable.nesting_le 2
  exact Term.result_reduce_base hreadable.onlyBuiltins ⟨Nat.le_trans hnesting hample.1, hample.2⟩

theorem exhausted_notMem_of_evalSource_base (h : (base.evalSource source).result = .ok os) :
    .error .exhausted ∉ os := by
  obtain ⟨ts, hread, rfl⟩ := result_evalSource_eq_ok_iff.mp h
  rw [outcomes_base hread, List.mem_map]
  rintro ⟨t, -, hexhausted⟩
  obtain ⟨cause, -, hfailed⟩ := mapError_eq_error_iff.mp hexhausted
  cases hfailed

/-- A rejected text evaluates nothing. -/
theorem events_evalSource_of_error {e : ReadError} (h : (s.evalSource source).result = .error e) :
    ∀ event ∈ (s.evalSource source).events, ∃ count, event = .parsed count := by
  rw [result_evalSource_eq_error_iff] at h
  rw [evalSource, Traced.events_bind, h]
  rw [Term.readAll, Traced.events_bind]
  cases Program.parse source with
  | error e' => simp
  | ok program => simp [Traced.events_bind]

end Session

namespace Repl

variable {config : Config} {s : Session} {input : String}

/-- The line for an outcome.  There is none for a reduction that was cut off. -/
inductive Line.Shows : Outcome → Line → Prop where
  | value (t : Term) : Shows (.ok t) (.value t.display)
  | failure (cause : EvalError) : Shows (.error (.failed cause)) (.error cause.diagnostic)

/-- A line of input that is evaluated: more than blanks, and no request to quit. -/
structure Config.Evaluates (config : Config) (input : String) : Prop where
  parseOnly : config.parseOnly = false
  nonempty : Text.trim input ≠ ""
  goesOn : Text.trim input ≠ config.quitCommand

/-- A line of input is answered with its rejection or, if no reduction is cut off, with a line for
each outcome, and with one at least. -/
structure AnswersAlike (config : Config) (s : Session) (input : String) : Prop where
  accepted : ∀ os, (s.evalSource (Text.trim input)).result = .ok os → .error .exhausted ∉ os →
    ∃ lines, (respond config s input).value = .print lines ∧
      List.Forall₂ Line.Shows os lines ∧ lines ≠ []
  rejected : ∀ e, (s.evalSource (Text.trim input)).result = .error e →
    (respond config s input).value = .print [.error ("Syntax error: " ++ e.message)]

theorem Line.shows_ofOutcome {o : Outcome} (h : o ≠ .error .exhausted) :
    Shows o (.ofOutcome o) := by
  match o with
  | .ok t => exact .value t
  | .error (.failed cause) => exact .failure cause
  | .error .exhausted => exact absurd rfl h

theorem Line.forall₂_shows {os : List Outcome} (h : .error .exhausted ∉ os) :
    List.Forall₂ Shows os (os.map ofOutcome) := by
  rw [List.forall₂_map_right_iff, List.forall₂_same]
  intro o ho
  exact shows_ofOutcome fun heq => h (heq ▸ ho)

theorem Config.Evaluates.value_respond (h : config.Evaluates input) :
    (respond config s input).value =
      match (s.evalSource (Text.trim input)).result with
      | .ok os => .print (os.map Line.ofOutcome)
      | .error e => .print [.ofReadError e] := by
  have hresult : (s.evalSource (Text.trim input)).run.value =
      (s.evalSource (Text.trim input)).result := rfl
  simp only [respond, if_neg h.goesOn, if_neg h.nonempty, h.parseOnly, Bool.false_eq_true,
    if_false, Logged.value_bind, hresult]
  cases (s.evalSource (Text.trim input)).result <;> rfl

theorem answersAlike (h : config.Evaluates input) (s : Session) : AnswersAlike config s input := by
  have hvalue : (respond config s input).value = _ := h.value_respond
  constructor
  · intro os hos hterminates
    rw [hos] at hvalue
    refine ⟨_, hvalue, Line.forall₂_shows hterminates, ?_⟩
    obtain ⟨c, hc, hblank⟩ := Text.exists_not_isBlank_of_trim_ne h.nonempty
    have hne := Session.ne_nil_of_evalSource hos hc hblank
    simpa using hne
  · intro e he
    rw [he] at hvalue
    exact hvalue

end Repl

theorem Logged.report_warn {α : Type} (line : Event → String) (x : Logged α) :
    x.report .warn line = [] := by
  have hlevel : ∀ e : Event, Level.admits .warn e.level = false := by
    intro e
    cases e <;> rfl
  simp [report, hlevel]

namespace CommandLine

variable {config : Repl.Config} {input : String}

/-- The results among some lines. -/
def results (lines : List Repl.Line) : List String :=
  lines.filterMap fun | .value text => some text | .error _ => none

/-- The diagnostics among some lines. -/
def diagnostics (lines : List Repl.Line) : List String :=
  lines.filterMap fun | .value _ => none | .error text => some text

/-- Texts on lines of their own. -/
def onLines (texts : List String) : String := String.join (texts.map (· ++ "\n"))

/-- The report of so many failures, if there are any. -/
def failureReport (failures : Nat) : String :=
  if failures = 0 then "" else "Error: " ++ toString failures ++ " expression(s) failed\n"

/-- The log of the evaluation of a text over the built-in functions. -/
def logText (level : Level) (source : String) : String :=
  String.join ((Session.base.evalSource source).run.report level logLine)

/-- A command prints the lines with which a dialogue over the built-in functions answers the same
text: results to one stream and, behind the log, diagnostics to the other.  It fails if there are
diagnostics, and reports their number.  For a rejected text it fails, prints no result and evaluates
nothing. -/
structure PrintsAlike (config : Repl.Config) (input : String) (level : Level) : Prop where
  accepted : ∀ os, (Session.base.evalSource (Text.trim input)).result = .ok os →
    ∃ lines, (Repl.respond config Session.base input).value = .print lines ∧
      List.Forall₂ Repl.Line.Shows os lines ∧
      (evaluate level (Text.trim input)).stdout = onLines (results lines) ∧
      (evaluate level (Text.trim input)).stderr =
        logText level (Text.trim input) ++ onLines (diagnostics lines) ++
          failureReport (diagnostics lines).length ∧
      (evaluate level (Text.trim input)).status = if diagnostics lines = [] then 0 else 1
  rejected : ∀ e, (Session.base.evalSource (Text.trim input)).result = .error e →
    (evaluate level (Text.trim input)).status = 1 ∧
      (evaluate level (Text.trim input)).stdout = "" ∧
      ∀ event ∈ (Session.base.evalSource (Text.trim input)).events, ∃ count, event = .parsed count
  quiet : logText .warn (Text.trim input) = ""

namespace Transcript

variable {status : Nat}

theorem stdout_append (output later : List Output) :
    (mk (output ++ later) status).stdout =
      (mk output status).stdout ++ (mk later status).stdout := by
  simp [stdout]

theorem stderr_append (output later : List Output) :
    (mk (output ++ later) status).stderr =
      (mk output status).stderr ++ (mk later status).stderr := by
  simp [stderr]

theorem stdout_map_err (texts : List String) : (mk (texts.map .err) status).stdout = "" := by
  induction texts with
  | nil => rfl
  | cons text texts ih => simpa [stdout] using ih

theorem stderr_map_err (texts : List String) :
    (mk (texts.map .err) status).stderr = String.join texts := by
  simp [stderr, Function.comp_def]

/-- The output of a command behind some lines of a log. -/
def afterLog (log : List String) (t : Transcript) : Transcript :=
  { t with output := log.map .err ++ t.output }

theorem stdout_afterLog (log : List String) (t : Transcript) :
    (t.afterLog log).stdout = t.stdout := by
  rw [afterLog, stdout_append, stdout_map_err, String.empty_append]

theorem stderr_afterLog (log : List String) (t : Transcript) :
    (t.afterLog log).stderr = String.join log ++ t.stderr := by
  rw [afterLog, stderr_append, stderr_map_err]

theorem stdout_map_ofLine (lines : List Repl.Line) :
    (mk (lines.map .ofLine) status).stdout = onLines (results lines) := by
  induction lines with
  | nil => rfl
  | cons line lines ih =>
    cases line with
    | value text | error text => simpa [stdout, results, onLines, Output.ofLine] using ih

theorem stderr_map_ofLine (lines : List Repl.Line) :
    (mk (lines.map .ofLine) status).stderr = onLines (diagnostics lines) := by
  induction lines with
  | nil => rfl
  | cons line lines ih =>
    cases line with
    | value text | error text => simpa [stderr, diagnostics, onLines, Output.ofLine] using ih

end Transcript

theorem countP_isError (lines : List Repl.Line) :
    lines.countP isError = (diagnostics lines).length := by
  induction lines with
  | nil => rfl
  | cons line lines ih =>
    cases line with
    | value text => simpa [diagnostics, isError] using ih
    | error text =>
      rw [List.countP_cons_of_pos rfl, ih]
      rfl

theorem stdout_printLines (lines : List Repl.Line) :
    (printLines lines).stdout = onLines (results lines) := by
  simp only [printLines]
  split
  · exact Transcript.stdout_map_ofLine lines
  · rw [Transcript.stdout_append, Transcript.stdout_map_ofLine]
    exact String.append_empty

theorem stderr_printLines (lines : List Repl.Line) :
    (printLines lines).stderr =
      onLines (diagnostics lines) ++ failureReport (diagnostics lines).length := by
  simp only [printLines, failureReport, countP_isError]
  split
  · rw [Transcript.stderr_map_ofLine, String.append_empty]
  · rw [Transcript.stderr_append, Transcript.stderr_map_ofLine]
    simp [Transcript.stderr]

theorem status_printLines (lines : List Repl.Line) :
    (printLines lines).status = if diagnostics lines = [] then 0 else 1 := by
  simp only [printLines, countP_isError, List.length_eq_zero_iff]
  split <;> rfl

theorem evaluate_of_ok {level : Level} {source : String} {os : List Outcome}
    (h : (Session.base.evalSource source).result = .ok os) :
    evaluate level source =
      (printLines (os.map .ofOutcome)).afterLog
        ((Session.base.evalSource source).run.report level logLine) := by
  have hvalue : (Session.base.evalSource source).run.value = .ok os := h
  simp only [evaluate, hvalue, logOf, Transcript.afterLog]

theorem evaluate_of_error {level : Level} {source : String} {e : ReadError}
    (h : (Session.base.evalSource source).result = .error e) :
    evaluate level source =
      Transcript.afterLog ((Session.base.evalSource source).run.report level logLine)
        ⟨[.err (errorReport "syntax error" e.message)], 1⟩ := by
  have hvalue : (Session.base.evalSource source).run.value = .error e := h
  simp only [evaluate, hvalue, logOf, Transcript.afterLog]

theorem printsAlike (h : config.Evaluates input) (level : Level) :
    PrintsAlike config input level := by
  constructor
  · intro os hos
    have hreply : (Repl.respond config Session.base input).value = _ := h.value_respond
    rw [hos] at hreply
    have hshows := Repl.Line.forall₂_shows (Session.exhausted_notMem_of_evalSource_base hos)
    refine ⟨_, hreply, hshows, ?_, ?_, ?_⟩
    · rw [evaluate_of_ok hos, Transcript.stdout_afterLog, stdout_printLines]
    · rw [evaluate_of_ok hos, Transcript.stderr_afterLog, stderr_printLines, logText,
        String.append_assoc]
    · rw [evaluate_of_ok hos, Transcript.afterLog, status_printLines]
  · intro e he
    refine ⟨?_, ?_, Session.events_evalSource_of_error he⟩
    · rw [evaluate_of_error he, Transcript.afterLog]
    · rw [evaluate_of_error he, Transcript.stdout_afterLog]
      rfl
  · rw [logText, Logged.report_warn, String.join_nil]

end CommandLine

/-- Every way to evaluate a text tells the same about it: its values are read off its outcomes, a
dialogue shows each outcome on a line, and a command prints the lines that a dialogue shows. -/
theorem drivers_agree :
    (∀ (s : Session) (source : String), s.CollectsAlike source) ∧
      (∀ (config : Repl.Config) (input : String), config.Evaluates input →
        ∀ s : Session, Repl.AnswersAlike config s input) ∧
      ∀ (config : Repl.Config) (input : String), config.Evaluates input →
        ∀ level : Level, CommandLine.PrintsAlike config input level := by
  refine ⟨Session.collectsAlike, ?_, ?_⟩
  · intro config input h
    exact Repl.answersAlike h
  · intro config input h
    exact CommandLine.printsAlike h

/-- A program of two terms, of which the first has a value and the second fails. -/
theorem drivers_agree_on_failure :
    Repl.Config.Evaluates {} " (+ 2 5) (+ \"x\" 1)\n" ∧
      (Session.base.evalAll "(+ 2 5) (+ \"x\" 1)").result =
        .error (.stopped (.failed (.argumentType "+" 0 "Integer" .string))) ∧
      (Repl.respond {} Session.base " (+ 2 5) (+ \"x\" 1)\n").value =
        .print [.value "7",
          .error "ArgumentTypeError: +: argument 0 expected Integer, got String"] ∧
      (CommandLine.evaluate .warn "(+ 2 5) (+ \"x\" 1)").stdout = "7\n" ∧
      (CommandLine.evaluate .warn "(+ 2 5) (+ \"x\" 1)").stderr =
        "ArgumentTypeError: +: argument 0 expected Integer, got String\n" ++
          "Error: 1 expression(s) failed\n" ∧
      (CommandLine.evaluate .warn "(+ 2 5) (+ \"x\" 1)").status = 1 := by
  have hevaluates : Repl.Config.Evaluates {} " (+ 2 5) (+ \"x\" 1)\n" :=
    ⟨rfl, by decide, by decide⟩
  have htrim : Text.trim " (+ 2 5) (+ \"x\" 1)\n" = "(+ 2 5) (+ \"x\" 1)" := rfl
  have hparse : Program.parse "(+ 2 5) (+ \"x\" 1)" =
      .ok [.call [.name "+", .integer "2", .integer "5"],
        .call [.name "+", .string "\"x\"", .integer "1"]] := rfl
  have hread : (Term.readAll "(+ 2 5) (+ \"x\" 1)").result =
      .ok [.call (.name "+") [.int 2, .int 5], .call (.name "+") [.str "x", .int 1]] :=
    Term.result_readAll_eq_ok_iff.mpr ⟨_, hparse, rfl⟩
  -- The session's budget is too large to run the reductions here; what they denote can be computed.
  have hos : (Session.base.evalSource "(+ 2 5) (+ \"x\" 1)").result =
      .ok [.ok (.int 7), .error (.failed (.argumentType "+" 0 "Integer" .string))] := by
    refine Session.result_evalSource_eq_ok_iff.mpr ⟨_, hread, ?_⟩
    rw [Session.outcomes_base hread]
    rfl
  obtain ⟨hcollects, hanswers, hprints⟩ := drivers_agree
  have hanswers := hanswers _ _ hevaluates Session.base
  have hprints := hprints _ _ hevaluates .warn
  have haccepted := hanswers.accepted
  have hprinted := hprints.accepted
  have hquiet := hprints.quiet
  rw [htrim] at haccepted hprinted hquiet
  obtain ⟨lines, hlines, hshows, -⟩ := haccepted _ hos (by simp)
  obtain _ | ⟨⟨⟩, _ | ⟨⟨⟩, ⟨⟩⟩⟩ := hshows
  obtain ⟨lines, -, hshows, hstdout, hstderr, hstatus⟩ := hprinted _ hos
  obtain _ | ⟨⟨⟩, _ | ⟨⟨⟩, ⟨⟩⟩⟩ := hshows
  refine ⟨hevaluates, ?_, ?_, ?_, ?_, ?_⟩
  · exact ((hcollects _ _).stopped _).mpr ⟨[.int 7], [], hos⟩
  · rw [hlines]
    decide
  · rw [hstdout]
    decide
  · rw [hstderr, hquiet]
    decide
  · rw [hstatus]
    decide

end Reduct
