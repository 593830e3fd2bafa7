import Reduct.Text.Invisible

/-!
# Escaped text

The form in which a diagnostic shows a text: every character that a reader could overlook is
spelled out.

## Main definitions

* `escapedChar` — how one character is shown.
* `escaped` — how a text is shown.
-/

namespace Reduct.Text

/-- The code point of a character between braces, in hexadecimal digits without padding. -/
def codePointEscape (c : Char) : List Char :=
  ['\\', 'u', '\x7b'] ++ Nat.toDigits 16 c.toNat ++ ['\x7d']

/-- How one character is shown in a diagnostic. -/
def escapedChar (c : Char) : List Char :=
  if c = '\x00' then ['\\', '0']
  else if c = '\t' then ['\\', 't']
  else if c = '\r' then ['\\', 'r']
  else if c = '\n' then ['\\', 'n']
  else if c = '\\' then ['\\', '\\']
  else if c = '"' then ['\\', '"']
  else if 0x20 ≤ c.toNat ∧ c.toNat < 0x7f then [c]
  else if isInvisible c then codePointEscape c
  else [c]

/-- How a text is shown in a diagnostic, quotes included. -/
def escaped (s : String) : String :=
  String.ofList ('"' :: (s.toList.flatMap escapedChar ++ ['"']))

end Reduct.Text
