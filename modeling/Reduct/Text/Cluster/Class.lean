import Reduct.Text.Cluster.Table

/-!
# Classes of characters at the boundaries of units

Whether two characters that stand side by side belong to one unit of text depends on their classes.

## Main definitions

* `Class` — the classes.
* `Class.of` — the class of a character.
-/

namespace Reduct.Text.Cluster

/-- The classes of characters that matter for the boundaries of units. -/
inductive Class where
  /-- The carriage return. -/
  | carriageReturn
  /-- The line feed. -/
  | lineFeed
  /-- Every other control. -/
  | control
  /-- A mark on what stands before it. -/
  | extend
  /-- A mark that links two consonants. -/
  | linker
  /-- The zero-width non-joiner. -/
  | nonJoiner
  /-- The zero-width joiner. -/
  | joiner
  /-- A letter of a flag. -/
  | regional
  /-- A sign on what stands after it. -/
  | prepend
  /-- A mark with space of its own. -/
  | spacing
  /-- A leading consonant of a Hangul syllable. -/
  | hangulLeading
  /-- A vowel of a Hangul syllable. -/
  | hangulVowel
  /-- A trailing consonant of a Hangul syllable. -/
  | hangulTrailing
  /-- A Hangul syllable without a trailing consonant. -/
  | hangulOpen
  /-- A Hangul syllable with a trailing consonant. -/
  | hangulClosed
  /-- A pictograph. -/
  | pictograph
  /-- A consonant that can be linked. -/
  | consonant
  /-- Any other character. -/
  | other
  deriving DecidableEq

/-- The leading consonants of Hangul syllables. -/
def hangulLeadingSpans : List Span := [(0x1100, 0x115f), (0xa960, 0xa97c)]

/-- The vowels of Hangul syllables and the vowel signs that combine in the same way. -/
def hangulVowelSpans : List Span :=
  [(0x1160, 0x11a7), (0xd7b0, 0xd7c6), (0x16d63, 0x16d63), (0x16d67, 0x16d6a)]

/-- The trailing consonants of Hangul syllables. -/
def hangulTrailingSpans : List Span := [(0x11a8, 0x11ff), (0xd7cb, 0xd7fb)]

/-- The class of a Hangul syllable: each run of 28 starts with the one that has no trailing
consonant. -/
def syllableClass (n : Nat) : Class := if (n - 0xac00) % 28 = 0 then .hangulOpen else .hangulClosed

/-- The class of a character. -/
def Class.of (c : Char) : Class :=
  if c = '\r' then .carriageReturn
  else if c = '\n' then .lineFeed
  else if Span.covers controlSpans c then .control
  else if c.toNat < 0x80 then .other
  else if c.toNat = 0x200c then .nonJoiner
  else if c.toNat = 0x200d then .joiner
  else if 0xac00 ≤ c.toNat ∧ c.toNat ≤ 0xd7a3 then syllableClass c.toNat
  else if 0x1f1e6 ≤ c.toNat ∧ c.toNat ≤ 0x1f1ff then .regional
  else if Span.covers linkerSpans c then .linker
  else if Span.covers extendSpans c then .extend
  else if Span.covers spacingSpans c then .spacing
  else if Span.covers prependSpans c then .prepend
  else if Span.covers hangulLeadingSpans c then .hangulLeading
  else if Span.covers hangulVowelSpans c then .hangulVowel
  else if Span.covers hangulTrailingSpans c then .hangulTrailing
  else if Span.covers pictographSpans c then .pictograph
  else if Span.covers consonantSpans c then .consonant
  else .other

namespace Class

/-- Whether a character of this class stands apart from everything around it. -/
def isControl : Class → Bool
  | .carriageReturn | .lineFeed | .control => true
  | _ => false

/-- Whether a character of this class is a mark on what stands before it. -/
def isExtend : Class → Bool
  | .extend | .linker | .nonJoiner => true
  | _ => false

end Class

end Reduct.Text.Cluster
