import Reduct.Repl
import Reduct.Text.Plain
import Reduct.Text.Typed

/-!
# The command line

What a command prints and the status it ends with.

## Main definitions

* `Output` — a piece of text for one of the two output streams.
* `Transcript` — all output of a command and its status.
* `evaluate` — evaluates a program and prints its outcomes.
* `answer`, `converse` — one turn of a dialogue, and a whole dialogue.
* `Command.perform` — what a command does with its input.

## Design notes

A dialogue is a list of turns, each of which depends on one line of input only, so an interactive
program can print each turn as soon as its line has been read.
-/

namespace Reduct.CommandLine

/-- The version of the program. -/
def version : String := "0.0.1"

/-- The line that names the program and its version. -/
def versionLine : String := "almost-lisp " ++ version ++ "\n"

/-- A piece of text for one of the two output streams. -/
inductive Output where
  | out (text : String)
  | err (text : String)
  deriving DecidableEq

/-- The output of a command and the status it ends with. -/
structure Transcript where
  output : List Output
  status : Nat
  deriving DecidableEq

namespace Transcript

/-- The text printed to standard output. -/
def stdout (t : Transcript) : String :=
  String.join (t.output.map fun | .out text => text | .err _ => "")

/-- The text printed to standard error. -/
def stderr (t : Transcript) : String :=
  String.join (t.output.map fun | .out _ => "" | .err text => text)

end Transcript

/-- The level of detail that a number of requests for more detail asks for. -/
def verbosity : Nat → Level
  | 0 => .warn
  | 1 => .info
  | 2 => .debug
  | _ => .trace

/-- The line of the log for an event.  It is plain text, whatever its wording quotes. -/
def logLine (e : Event) : String :=
  "[" ++ e.level.text ++ "] " ++ Text.plain (e.message ++ "\n")

/-- The log of a computation. -/
def logOf {α : Type} (level : Level) (x : Logged α) : List Output :=
  (x.report level logLine).map .err

/-- The output of one line of an answer. -/
def Output.ofLine : Repl.Line → Output
  | .value text => .out (text ++ "\n")
  | .error text => .err (text ++ "\n")

/-- Sets four blanks before every line of a text but the first. -/
def indentMore (text : String) : String :=
  String.ofList (text.toList.flatMap fun c => if c = '\n' then "\n    ".toList else [c])

/-- The report of an error that has one cause. -/
def errorReport (summary cause : String) : String :=
  "Error: " ++ summary ++ "\n\nCaused by:\n    " ++ indentMore cause ++ "\n"

/-- The cause given for bytes that spell no text. -/
def notText : String := "stream did not contain valid UTF-8"

/-- The report of a line that spells no text. -/
def inputReport : String :=
  "Error: REPL input failed\n\nCaused by:\n    0: " ++ notText ++ "\n    1: " ++ notText ++ "\n"

/-- The report of a line whose backspaces leave part of a character. -/
def brokenReport : String := "Error: REPL input ends inside a character\n"

/-- Whether a line of an answer is a diagnostic. -/
def isError : Repl.Line → Bool
  | .value _ => false
  | .error _ => true

/-- Prints lines of results and diagnostics and then the number of diagnostics, if there are any. -/
def printLines (lines : List Repl.Line) : Transcript :=
  let failures := lines.countP isError
  let printed := lines.map Output.ofLine
  if failures = 0 then ⟨printed, 0⟩
  else ⟨printed ++ [.err ("Error: " ++ toString failures ++ " expression(s) failed\n")], 1⟩

/-- Evaluates a program over the built-in functions and prints its outcomes. -/
def evaluate (level : Level) (source : String) : Transcript :=
  let run := (Session.base.evalSource source).run
  let transcript : Transcript :=
    match run.value with
    | .ok outcomes => printLines (outcomes.map Repl.Line.ofOutcome)
    | .error e => ⟨[.err (errorReport "syntax error" e.message)], 1⟩
  { transcript with output := logOf level run ++ transcript.output }

/-- What is found where a program should be. -/
inductive Script where
  | missing
  | bytes (data : ByteArray)

/-- Evaluates the program that is found at a path. -/
def evaluateScript (level : Level) (path : String) : Script → Transcript
  | .missing =>
    ⟨[.err (errorReport ("failed to read " ++ path) "No such file or directory (os error 2)")], 1⟩
  | .bytes data =>
    match String.fromUTF8? data with
    | some source => evaluate level source
    | none => ⟨[.err (errorReport ("failed to read " ++ path) notText)], 1⟩

/-- One turn of a dialogue: its output, and the status if the dialogue ends with it. -/
structure Turn where
  output : List Output
  status : Option Nat

/-- The turn that answers a text. -/
def answerText (level : Level) (config : Repl.Config) (session : Session) (text : String) : Turn :=
  let reply := Repl.respond config session text
  match reply.value with
  | .quit => ⟨logOf level reply ++ [.out "Bye for now!\n"], some 0⟩
  | .print lines => ⟨logOf level reply ++ lines.map Output.ofLine, none⟩

/-- The turn that answers a line of input: what its bytes spell, once the backspaces in it have
taken effect. -/
def answer (level : Level) (config : Repl.Config) (session : Session) (line : ByteArray) : Turn :=
  match String.fromUTF8? line with
  | none => ⟨[.err inputReport], some 1⟩
  | some line =>
    match Text.typed? line with
    | none => ⟨[.err brokenReport], some 101⟩
    | some text => answerText level config session text

/-- The greeting of a dialogue. -/
def greeting : List Output := [.out "REPL\n"]

/-- The output before a line of input is read. -/
def invitation (level : Level) (config : Repl.Config) : List Output :=
  logOf level (Logged.emit .unsupportedTerminal) ++ [.out config.prompt]

/-- The output when the input of a dialogue ends. -/
def farewell (level : Level) : List Output := logOf level (Logged.emit .inputClosed)

/-- The turns of a dialogue over the given lines.  An invitation stands before every turn. -/
def turns (level : Level) (config : Repl.Config) (session : Session) : List ByteArray → Transcript
  | [] => ⟨invitation level config ++ farewell level, 0⟩
  | line :: rest =>
    let turn := answer level config session line
    match turn.status with
    | some status => ⟨invitation level config ++ turn.output, status⟩
    | none =>
      let later := turns level config session rest
      { later with output := invitation level config ++ turn.output ++ later.output }

/-- The end of a line is no part of it: one line feed, or a carriage return and a line feed. -/
def withoutLineEnd (line : List UInt8) : List UInt8 :=
  match line.reverse with
  | 10 :: 13 :: rest | 10 :: rest => rest.reverse
  | _ => line

/-- Cuts bytes after every line feed.  `line` holds the bytes of the line under way, the last one
first. -/
def splitLines (line : List UInt8) : List UInt8 → List (List UInt8)
  | [] => if line.isEmpty then [] else [line.reverse]
  | b :: rest =>
    if b = 10 then (b :: line).reverse :: splitLines [] rest else splitLines (b :: line) rest

/-- The lines of an input without their ends. -/
def linesOf (input : ByteArray) : List ByteArray :=
  (splitLines [] input.toList).map fun line => ⟨(withoutLineEnd line).toArray⟩

/-- A whole dialogue over the built-in functions. -/
def converse (level : Level) (config : Repl.Config) (input : ByteArray) : Transcript :=
  let transcript := turns level config Session.base (linesOf input)
  { transcript with output := greeting ++ transcript.output }

/-- What the program can be asked to do. -/
inductive Command where
  /-- Hold a dialogue. -/
  | repl (config : Repl.Config)
  /-- Evaluate the program at a path. -/
  | run (path : String)
  /-- Evaluate a program. -/
  | eval (source : String)
  /-- Tell the version. -/
  | version

/-- What a command does, given what is found at its path and its standard input. -/
def Command.perform (level : Level) (script : Script) (input : ByteArray) : Command → Transcript
  | .repl config => converse level config input
  | .run path => evaluateScript level path script
  | .eval source => evaluate level source
  | .version => ⟨[.out versionLine], 0⟩

end Reduct.CommandLine
