/-!
# Plain text

What is left of a text for a terminal when everything is taken out that such a terminal would act
upon instead of showing it.

## Main definitions

* `Plain.State` — the control sequence that is under way, if any.
* `Plain.State.next` — what one character does, and whether it is shown.
* `plain` — the characters that are shown.
-/

namespace Reduct.Text

namespace Plain

/-- The control sequence that is under way. -/
inductive State where
  /-- None. -/
  | ground
  /-- An escape character has been read. -/
  | escape
  /-- An escape character and the intermediate characters of a two-part escape. -/
  | escapePart
  /-- A control sequence with parameters. -/
  | sequence
  /-- The start of a device string. -/
  | device
  /-- The parameters of a device string. -/
  | deviceParam
  /-- The intermediate characters of a device string. -/
  | devicePart
  /-- A string that goes on until a string terminator. -/
  | string
  /-- A command to the operating system, which a bell ends. -/
  | command
  deriving DecidableEq

/-- The controls that lay out text: tabulator, line feed, form feed and carriage return. -/
def isLayout (n : Nat) : Bool := n = 0x09 || n = 0x0a || n = 0x0c || n = 0x0d

/-- Whether a code point shows outside every sequence. -/
def isShown (n : Nat) : Bool := isLayout n || (0x20 ≤ n && n ≠ 0x7f)

/-- Whether the string terminator U+009C is among the bytes that continue a character. -/
def holdsTerminator (c : Char) : Bool := (String.utf8EncodeChar c).any (· = 0x9c)

/-- The state after an escape character and a printable one. -/
def escapeNext (n : Nat) : State :=
  if n < 0x30 then .escapePart
  else if n = 0x50 then .device
  else if n = 0x58 ∨ n = 0x5e ∨ n = 0x5f then .string
  else if n = 0x5b then .sequence
  else if n = 0x5d then .command
  else .ground

/-- The state after a printable character at the start of a device string. -/
def deviceNext (n : Nat) : State :=
  if n < 0x30 then .devicePart else if n < 0x40 then .deviceParam else .string

/-- The state after a printable character in the parameters of a device string. -/
def deviceParamNext (n : Nat) : State :=
  if n < 0x30 then .devicePart else if n < 0x3c then .deviceParam else .string

/-- What one character does inside an escape or a control sequence: a layout control ends it and is
shown, other controls and wide characters are passed over, and every other one leads to `goOn`. -/
def within (s : State) (n : Nat) (goOn : State) : State × Bool :=
  if isLayout n then (.ground, true)
  else if n < 0x20 ∨ 0x7f ≤ n then (s, false)
  else (goOn, false)

/-- What one character does inside the head of a device string. -/
def withinDevice (s : State) (n : Nat) (goOn : State) : State × Bool :=
  if n < 0x20 ∨ 0x7f ≤ n then (s, false) else (goOn, false)

/-- What one character does, and whether it is shown.  Three controls act wherever they stand: two
cancel what is under way, and the escape character starts anew. -/
def State.next (s : State) (c : Char) : State × Bool :=
  let n := c.toNat
  if n = 0x18 ∨ n = 0x1a then (.ground, false)
  else if n = 0x1b then (.escape, false)
  else
    match s with
    | .ground => (.ground, isShown n)
    | .escape => within .escape n (escapeNext n)
    | .escapePart => within .escapePart n (if n < 0x30 then .escapePart else .ground)
    | .sequence => within .sequence n (if n < 0x40 then .sequence else .ground)
    | .device => withinDevice .device n (deviceNext n)
    | .deviceParam => withinDevice .deviceParam n (deviceParamNext n)
    | .devicePart => withinDevice .devicePart n (if n < 0x30 then .devicePart else .string)
    | .string => (if holdsTerminator c then .ground else .string, false)
    | .command => (if n = 0x07 then .ground else .command, false)

/-- Reads one more character.  The characters that are shown are held with the last one first. -/
def read (seen : State × List Char) (c : Char) : State × List Char :=
  let (s, shown) := seen.1.next c
  (s, if shown then c :: seen.2 else seen.2)

end Plain

/-- The characters of a text that are shown. -/
def plain (s : String) : String :=
  String.ofList (s.toList.foldl Plain.read (.ground, [])).2.reverse

end Reduct.Text
