import Reduct.Session

/-!
# Dialogues

A dialogue answers one line of input at a time.

## Main definitions

* `Repl.Config` — the settings of a dialogue.
* `Repl.Reply` — the answer to a line.
* `Repl.respond` — works out the answer.
-/

namespace Reduct.Repl

/-- The settings of a dialogue. -/
structure Config where
  /-- The text shown before each line is read. -/
  prompt : String := "|> "
  /-- The line that ends the dialogue. -/
  quitCommand : String := "quit"
  /-- Whether to show source trees instead of evaluating them. -/
  parseOnly : Bool := false
  deriving DecidableEq

/-- One line of an answer. -/
inductive Line where
  /-- A result. -/
  | value (text : String)
  /-- A diagnostic. -/
  | error (text : String)
  deriving DecidableEq

/-- The answer to one line of input. -/
inductive Reply where
  /-- The dialogue ends. -/
  | quit
  /-- These lines are shown and the next input is read. -/
  | print (lines : List Line)
  deriving DecidableEq

/-- The line for an outcome. -/
def Line.ofOutcome : Outcome → Line
  | .ok t => .value t.display
  | .error stop => .error stop.diagnostic

/-- The line for a rejected text. -/
def Line.ofReadError (e : ReadError) : Line := .error ("Syntax error: " ++ e.message)

/-- The line that shows the source tree of a text. -/
def outlineLine (text : String) : Line :=
  match Program.parse text with
  | .ok program => .value (Text.trimEnd program.outline)
  | .error e => .ofReadError e

/-- The answer to a line of input.  Blanks around the line are ignored, and every term on it gets a
line of its own. -/
def respond (config : Config) (session : Session) (input : String) : Logged Reply := do
  let text := Text.trim input
  if text = config.quitCommand then
    return .quit
  else if text = "" then
    return .print []
  else if config.parseOnly then
    return .print [outlineLine text]
  else
    match ← (session.evalSource text).run with
    | .ok outcomes => return .print (outcomes.map Line.ofOutcome)
    | .error e => return .print [.ofReadError e]

end Reduct.Repl
