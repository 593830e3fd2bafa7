/-!
# Quoted text

The written form of a string literal: double quotes around the text, with a backslash escape for
every character that may not stand for itself.

## Main definitions

* `escape` — the written form of one character.
* `encode` — the written form of a whole text.
-/

namespace Reduct.Text.Quoted

/-- How one character is written between the quotes.  The quote, the backslash and the control
characters below U+0020 are escaped, the five common controls by a letter and the others by four
hexadecimal digits; every other character stands for itself. -/
def escape (c : Char) : List Char :=
  if c = '"' then ['\\', '"']
  else if c = '\\' then ['\\', '\\']
  else if c = '\x08' then ['\\', 'b']
  else if c = '\t' then ['\\', 't']
  else if c = '\n' then ['\\', 'n']
  else if c = '\x0c' then ['\\', 'f']
  else if c = '\r' then ['\\', 'r']
  else if c.toNat < 0x20 then
    ['\\', 'u', '0', '0', Nat.digitChar (c.toNat / 16), Nat.digitChar (c.toNat % 16)]
  else [c]

/-- The literal that denotes `s`. -/
def encode (s : String) : String :=
  String.ofList ('"' :: (s.toList.flatMap escape ++ ['"']))

@[simp]
theorem toList_encode (s : String) :
    (encode s).toList = '"' :: (s.toList.flatMap escape ++ ['"']) := by
  simp [encode]

end Reduct.Text.Quoted
