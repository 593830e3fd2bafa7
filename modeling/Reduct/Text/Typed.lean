import Reduct.Text.Cluster

/-!
# Typed text

A line that was typed may hold backspaces.  Each of them takes back one unit of the text before it.

## Main definitions

* `Typed` — the text that stands after some keys, with the widths of its units.
* `typed?` — the text that a typed line stands for.

## Design notes

The width of a unit is its number of bytes, kept in one byte: a backspace after a unit of 256 bytes
or more takes back the remainder only.  When that remainder ends inside a character, the line stands
for no text.
-/

namespace Reduct.Text

/-- The key that takes back what was typed last. -/
def backspace : Char := '\x08'

/-- The text that stands after some keys. -/
structure Typed where
  /-- The characters, the last one first. -/
  text : List Char
  /-- The widths of the units in bytes, the last one first. -/
  widths : List Nat

/-- Drops so many bytes from the front, unless they end inside a character. -/
def dropBytes? : Nat → List Char → Option (List Char)
  | 0, cs => some cs
  | _ + 1, [] => none
  | n + 1, c :: cs => if c.utf8Size ≤ n + 1 then dropBytes? (n + 1 - c.utf8Size) cs else none

namespace Typed

/-- The number of bytes of some characters. -/
def byteLength (cs : List Char) : Nat := cs.foldl (fun n c => n + c.utf8Size) 0

/-- Takes back one unit; at the start of a line there is nothing to take back. -/
def takeBack? (t : Typed) : Option Typed :=
  match t.widths with
  | [] => some t
  | width :: widths => (dropBytes? width t.text).map fun text => ⟨text, widths⟩

/-- Types one unit. -/
def press? (t : Typed) (unit : List Char) : Option Typed :=
  if unit = [backspace] then t.takeBack?
  else some ⟨unit.reverse ++ t.text, byteLength unit % 256 :: t.widths⟩

end Typed

/-- The text that a typed line stands for. -/
def typed? (line : String) : Option String :=
  ((Cluster.clusters line.toList).foldlM Typed.press? ⟨[], []⟩).map fun t =>
    String.ofList t.text.reverse

end Reduct.Text
