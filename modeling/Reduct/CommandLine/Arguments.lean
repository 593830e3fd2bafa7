import Reduct.CommandLine

/-!
# Command-line arguments

What the arguments of the program ask for.

## Main definitions

* `Invocation` — a command and the level of detail of its log.
* `Invocation.ofArgs` — the invocation that arguments spell.
-/

namespace Reduct.CommandLine

/-- A command and the number of requests for more detail in its log. -/
structure Invocation where
  verbose : Nat
  command : Command

/-- The number of requests for more detail that one argument makes. -/
def verboseCount? (arg : String) : Option Nat :=
  match arg.toList with
  | '-' :: 'v' :: rest => if rest.all (· = 'v') then some (rest.length + 1) else none
  | _ => if arg = "--verbose" then some 1 else none

/-- The settings of a dialogue that the remaining arguments ask for. -/
def dialogueConfig (config : Repl.Config) : List String → Option Repl.Config
  | [] => some config
  | "--parse-only" :: rest => dialogueConfig { config with parseOnly := true } rest
  | "--prompt" :: prompt :: rest => dialogueConfig { config with prompt } rest
  | arg :: rest =>
    match arg.dropPrefix? "--prompt=" with
    | some prompt => dialogueConfig { config with prompt := prompt.toString } rest
    | none => none

/-- The command that arguments spell, requests for detail aside. -/
def Command.ofArgs : List String → Option Command
  | [] => some (.repl {})
  | "repl" :: rest => (dialogueConfig {} rest).map .repl
  | ["run", path] => some (.run path)
  | ["eval", source] => some (.eval source)
  | ["--version"] | ["-V"] => some .version
  | _ => none

/-- The invocation that arguments spell.  After two dashes an argument is taken as it stands. -/
def Invocation.ofArgs (args : List String) : Option Invocation :=
  let options := args.takeWhile (· ≠ "--")
  let operands := args.drop (options.length + 1)
  let verbose := (options.filterMap verboseCount?).foldl (· + ·) 0
  let plain := options.filter fun arg => (verboseCount? arg).isNone
  (Command.ofArgs (plain ++ operands)).map (Invocation.mk verbose)

/-- How the program is called. -/
def usage : String :=
  "Usage: almost-lisp [-v]... [repl [--prompt PROMPT] [--parse-only] | run SCRIPT | eval SOURCE]\n"

end Reduct.CommandLine
