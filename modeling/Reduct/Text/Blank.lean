import Reduct.Text.Span

/-!
# Blank characters

The characters that separate items of source text, and the removal of blanks at the ends of a text.

## Main definitions

* `isBlank` — the Unicode property White_Space.
* `trim` — a text without the blanks at both ends.
* `trimEnd` — a text without the blanks at its end.
-/

namespace Reduct.Text

/-- The runs of code points that have the property White_Space. -/
def blankSpans : List Span :=
  [(0x09, 0x0d), (0x20, 0x20), (0x85, 0x85), (0xa0, 0xa0), (0x1680, 0x1680), (0x2000, 0x200a),
    (0x2028, 0x2029), (0x202f, 0x202f), (0x205f, 0x205f), (0x3000, 0x3000)]

/-- Whether a character separates items. -/
def isBlank (c : Char) : Bool := Span.covers blankSpans c

/-- Drops the blanks at the end of a character list. -/
def dropBlanksEnd (cs : List Char) : List Char := (cs.reverse.dropWhile isBlank).reverse

/-- The text without the blanks at its end. -/
def trimEnd (s : String) : String := String.ofList (dropBlanksEnd s.toList)

/-- The text without the blanks at either end. -/
def trim (s : String) : String := String.ofList (dropBlanksEnd (s.toList.dropWhile isBlank))

end Reduct.Text
