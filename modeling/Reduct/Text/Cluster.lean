import Reduct.Text.Cluster.Class

/-!
# Units of text

A unit of text is what a reader sees as one character: a letter with its marks, a syllable, a flag,
or a picture made of several pictographs.  The boundaries are those of extended grapheme clusters.

## Main definitions

* `Context` — what the characters so far say about the boundary after them.
* `Context.joins` — whether the next character continues the unit.
* `clusters` — the units of a text.

## Design notes

Three rules look further back than one character: flags pair their letters, a joiner combines
pictographs only after a pictograph with its marks, and consonants combine only through a linker.
The context keeps one fact for each of these, so a text is cut in a single pass.
-/

namespace Reduct.Text.Cluster

/-- The part of a conjunct that has been read. -/
inductive Conjunct where
  /-- None. -/
  | absent
  /-- A consonant with marks. -/
  | started
  /-- A consonant with marks, among them a linker. -/
  | linked
  deriving DecidableEq

/-- What the characters so far say about the boundary after them. -/
structure Context where
  /-- The class of the last character. -/
  last : Class
  /-- Whether an odd number of letters of flags ends here. -/
  unpaired : Bool
  /-- Whether a pictograph with marks ends here. -/
  pictured : Bool
  /-- Whether such a pictograph is followed by a joiner. -/
  joined : Bool
  /-- The part of a conjunct that ends here. -/
  conjunct : Conjunct

namespace Context

/-- The part of a conjunct that ends with a character of class `k`. -/
def conjunctAfter (before : Conjunct) : Class → Conjunct
  | .consonant => .started
  | .linker => if before = .absent then .absent else .linked
  | .extend | .joiner => before
  | _ => .absent

/-- The context after a first character of class `k`. -/
def first (k : Class) : Context :=
  ⟨k, k = .regional, k = .pictograph, false, conjunctAfter .absent k⟩

/-- The context after one more character of class `k`. -/
def after (x : Context) (k : Class) : Context where
  last := k
  unpaired := k = .regional && !x.unpaired
  pictured := k = .pictograph || (k.isExtend && x.pictured)
  joined := k = .joiner && x.pictured
  conjunct := conjunctAfter x.conjunct k

/-- Whether a Hangul syllable goes on from one class to another. -/
def hangulJoins : Class → Class → Bool
  | .hangulLeading, .hangulLeading | .hangulLeading, .hangulVowel | .hangulLeading, .hangulOpen
  | .hangulLeading, .hangulClosed => true
  | .hangulOpen, .hangulVowel | .hangulOpen, .hangulTrailing => true
  | .hangulVowel, .hangulVowel | .hangulVowel, .hangulTrailing => true
  | .hangulClosed, .hangulTrailing | .hangulTrailing, .hangulTrailing => true
  | _, _ => false

/-- Whether a character of class `k` continues the unit. -/
def joins (x : Context) (k : Class) : Bool :=
  if x.last = .carriageReturn ∧ k = .lineFeed then true
  else if x.last.isControl || k.isControl then false
  else
    hangulJoins x.last k || k.isExtend || k = .joiner || k = .spacing || x.last = .prepend ||
      (k = .consonant && x.conjunct = .linked) || (k = .pictograph && x.joined) ||
      (k = .regional && x.unpaired)

end Context

/-- Cuts the rest of a text into units.  `unit` holds the characters of the unit under way, the last
one first. -/
def cut (x : Context) (unit : List Char) : List Char → List (List Char)
  | [] => [unit.reverse]
  | c :: rest =>
    let k := Class.of c
    if x.joins k then cut (x.after k) (c :: unit) rest
    else unit.reverse :: cut (x.after k) [c] rest

/-- The units of a text in order. -/
def clusters : List Char → List (List Char)
  | [] => []
  | c :: rest => cut (Context.first (Class.of c)) [c] rest

end Reduct.Text.Cluster
