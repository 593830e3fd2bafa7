import Reduct.Source.Error

/-!
# Rules of a descent

A rule takes a value off the front of a text.  It either hands back the value with the text behind
it, or stops at some place and says why.

## Main definitions

* `Rule.Stop` — how a rule ends without a value.
* `Rule.Parsed` — a value and the text behind it.
* `Rule`, `Item` — rules, and rules that take at least one character.
* `Rule.satisfy`, `Rule.takeWhile`, `Rule.takeWhile1` — rules on single characters and runs of them.
* `Rule.pair`, `Rule.alt`, `Rule.recognize`, `Rule.many`, `Rule.cut` — rules made from other rules.

## Design notes

A stop keeps the text that was left at its place: how far that is from the start is known only to
the caller, who has the whole text.  The text behind a value comes with a bound on its bytes, so
that a loop over items is seen to end.
-/

namespace Reduct

/-- The number of bytes of the UTF-8 form of a text. -/
def Text.byteSize : List Char → Nat
  | [] => 0
  | c :: cs => c.utf8Size + byteSize cs

theorem Text.byteSize_lt_cons (c : Char) (cs : List Char) : byteSize cs < byteSize (c :: cs) := by
  have hc : 0 < c.utf8Size := c.utf8Size_pos
  rw [byteSize]
  omega

theorem Text.byteSize_le_of_cons {c : Char} {cs : List Char} {size : Nat}
    (h : byteSize (c :: cs) ≤ size) : byteSize cs ≤ size :=
  Nat.le_trans (Nat.le_of_lt (byteSize_lt_cons c cs)) h

theorem Text.byteSize_append (cs ds : List Char) :
    byteSize (cs ++ ds) = byteSize cs + byteSize ds := by
  induction cs with
  | nil => simp [byteSize]
  | cons c cs ih => rw [List.cons_append, byteSize, byteSize, ih, Nat.add_assoc]

theorem Text.byteSize_ofList (cs : List Char) :
    (String.ofList cs).utf8ByteSize = byteSize cs := by
  induction cs with
  | nil => rfl
  | cons c cs ih =>
    rw [byteSize, ← ih, ← List.singleton_append, String.ofList_append, String.utf8ByteSize_append]
    simp

theorem Text.byteSize_dropWhile_le (p : Char → Bool) (cs : List Char) :
    byteSize (cs.dropWhile p) ≤ byteSize cs := by
  induction cs with
  | nil => exact Nat.le_refl _
  | cons c cs ih =>
    rw [List.dropWhile_cons]
    split
    · exact Nat.le_trans ih (Nat.le_of_lt (byteSize_lt_cons c cs))
    · exact Nat.le_refl _

namespace Rule

open Text

/-- The text that was left where a rule gave up, and why. -/
structure Refusal where
  rest : List Char
  flaw : Flaw

/-- How a rule ends without a value. -/
inductive Stop where
  /-- The rule does not apply; another one may. -/
  | error (refusal : Refusal)
  /-- The text is rejected, and no other rule is tried. -/
  | failure (refusal : Refusal)
  /-- The text ends too early to tell. -/
  | incomplete

/-- The rejection of a text of the given size for which a rule stopped. -/
def Stop.report (size : Nat) : Stop → ReadError
  | .error refusal => .malformed (size - byteSize refusal.rest) refusal.flaw
  | .failure refusal => .malformed (size - byteSize refusal.rest) refusal.flaw
  | .incomplete => .malformed size .incomplete

/-- What a rule takes off a text: a value, and the text behind it, which has fewer bytes than the
bound. -/
structure Parsed (bound : Nat) (α : Type) where
  value : α
  rest : List Char
  rest_lt : byteSize rest < bound

end Rule

/-- A rule, which may take nothing. -/
abbrev Rule (α : Type) :=
  (input : List Char) → Except Rule.Stop (Rule.Parsed (Text.byteSize input + 1) α)

/-- A rule that takes at least one character. -/
abbrev Item (α : Type) :=
  (input : List Char) → Except Rule.Stop (Rule.Parsed (Text.byteSize input) α)

namespace Rule

open Text

variable {α β : Type} {bound : Nat}

/-- A rule that does not apply to the text, with nothing better to say than that. -/
def unexpected (input : List Char) : Except Stop (Parsed bound α) :=
  .error (.error ⟨input, .unexpected⟩)

/-- The rejection of what starts with the text. -/
def fail (input : List Char) (flaw : Flaw) : Except Stop (Parsed bound α) :=
  .error (.failure ⟨input, flaw⟩)

/-- Takes one character of a class. -/
def satisfy (p : Char → Bool) : Item Char
  | [] => unexpected []
  | c :: cs => if p c then .ok ⟨c, cs, byteSize_lt_cons c cs⟩ else unexpected (c :: cs)

/-- Takes the given character. -/
def char (c : Char) : Item Char := satisfy (· == c)

/-- Takes the longest run of characters of a class. -/
def takeWhile (p : Char → Bool) : Rule (List Char) := fun input =>
  .ok ⟨input.takeWhile p, input.dropWhile p, Nat.lt_succ_of_le (byteSize_dropWhile_le p input)⟩

/-- Takes the longest run of characters of a class, which must not be empty. -/
def takeWhile1 (p : Char → Bool) : Item (List Char)
  | [] => unexpected []
  | c :: cs =>
    if p c then
      .ok ⟨c :: cs.takeWhile p, cs.dropWhile p,
        Nat.lt_of_le_of_lt (byteSize_dropWhile_le p cs) (byteSize_lt_cons c cs)⟩
    else unexpected (c :: cs)

/-- Two items in a row. -/
def pair (first : Item α) (second : Item β) : Item (α × β) := fun input => do
  let x ← first input
  let y ← second x.rest
  return ⟨(x.value, y.value), y.rest, Nat.lt_trans y.rest_lt x.rest_lt⟩

/-- The second item where the first one does not apply. -/
def alt (first second : Item α) : Item α := fun input =>
  match first input with
  | .error (.error _) => second input
  | result => result

/-- The part of a text before the given rest of it. -/
def before (input rest : List Char) : List Char := input.take (input.length - rest.length)

theorem before_append (cs rest : List Char) : before (cs ++ rest) rest = cs := by
  simp [before]

/-- The characters that an item takes, in place of its value. -/
def recognize (item : Item α) : Item (List Char) := fun input => do
  let x ← item input
  return ⟨before input x.rest, x.rest, x.rest_lt⟩

/-- Makes the stop of a rule final. -/
def cut (result : Except Stop (Parsed bound α)) : Except Stop (Parsed bound α) :=
  match result with
  | .error (.error refusal) => .error (.failure refusal)
  | result => result

/-- An item as a rule. -/
def ofItem (item : Item α) : Rule α := fun input => do
  let x ← item input
  return ⟨x.value, x.rest, Nat.lt_succ_of_lt x.rest_lt⟩

/-- Applies a rule as often as it applies, behind some values that are already there, the last one
first.  A rule that applies without taking anything is not repeated. -/
@[semireducible]
def manyFrom (rule : Rule α) (values : List α) (rest : List Char) (h : byteSize rest < bound) :
    Except Stop (Parsed bound (List α)) :=
  match rule rest with
  | .error (.error _) => .ok ⟨values.reverse, rest, h⟩
  | .error stop => .error stop
  | .ok next =>
    if hnext : byteSize next.rest = byteSize rest then unexpected rest
    else manyFrom rule (next.value :: values) next.rest (by have := next.rest_lt; omega)
termination_by byteSize rest
decreasing_by
  have := next.rest_lt
  omega

/-- Applies a rule as often as it applies. -/
def many (rule : Rule α) : Rule (List α) := fun input =>
  manyFrom rule [] input (Nat.lt_succ_self _)

end Rule

end Reduct
