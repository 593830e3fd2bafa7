/-!
# Spans of code points

A Unicode property is given as the list of its maximal runs of code points.  This module says what
such a list means.

## Main definitions

* `Span` — a closed run of code points.
* `Span.covers` — membership of a character in one of several runs.
-/

namespace Reduct.Text

/-- A closed run of code points: its first and its last member. -/
abbrev Span := Nat × Nat

/-- Whether the code point of `c` lies in one of the given runs. -/
def Span.covers (spans : List Span) (c : Char) : Bool :=
  spans.any fun span => span.1 ≤ c.toNat && c.toNat ≤ span.2

end Reduct.Text
