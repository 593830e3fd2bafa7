import Reduct.CommandLine.Arguments

/-!
# The program

Reads the arguments and the input, and prints what the commands say.
-/

namespace Reduct.CommandLine

/-- Prints pieces of output in order. -/
def printAll (output : List Output) : IO Unit := do
  let stdout ← IO.getStdout
  let stderr ← IO.getStderr
  for piece in output do
    match piece with
    | .out text => stdout.putStr text; stdout.flush
    | .err text => stderr.putStr text; stderr.flush

/-- Reads the bytes of one line with its end; the result is empty at the end of the input. -/
partial def readLine (input : IO.FS.Stream) (line : ByteArray) : IO ByteArray := do
  let byte ← input.read 1
  if byte.isEmpty then return line
  else if byte.toList = [10] then return line ++ byte
  else readLine input (line ++ byte)

/-- Answers lines of input until the dialogue ends. -/
partial def dialogue (level : Level) (config : Repl.Config) (input : IO.FS.Stream) : IO Nat := do
  printAll (invitation level config)
  let line ← readLine input ByteArray.empty
  if line.isEmpty then
    printAll (farewell level)
    return 0
  let turn := answer level config Session.base ⟨(withoutLineEnd line.toList).toArray⟩
  printAll turn.output
  match turn.status with
  | some status => return status
  | none => dialogue level config input

/-- What is found at a path. -/
def readScript (path : String) : IO Script := do
  try
    return .bytes (← IO.FS.readBinFile path)
  catch _ => return .missing

/-- Carries out an invocation and yields its status. -/
def Invocation.execute (invocation : Invocation) : IO Nat := do
  let level := verbosity invocation.verbose
  match invocation.command with
  | .repl config =>
    printAll greeting
    dialogue level config (← IO.getStdin)
  | command =>
    let script ← match command with
      | .run path => readScript path
      | _ => pure Script.missing
    let transcript := command.perform level script ByteArray.empty
    printAll transcript.output
    return transcript.status

end Reduct.CommandLine

/-- Runs the interpreter on the given arguments. -/
def main (args : List String) : IO UInt32 := do
  match Reduct.CommandLine.Invocation.ofArgs args with
  | some invocation => return (← invocation.execute).toUInt32
  | none =>
    (← IO.getStderr).putStr Reduct.CommandLine.usage
    return 2
