import Reduct.Source.Grammar

/-!
# Reading one character at a time

A source text can also be read without recursion, one character at a time.  The reader holds the
tree built so far as a stack of open calls, and the token it is inside of, if any.

## Main definitions

* `Reader` — the state between two characters.
* `Reader.feed` — what one character does to the state, or the flaw that it completes.
* `Reader.finish` — the program that has been read when the text ends here.
* `Reader.run` — the whole run over a text.

## Design notes

Since the run is a left fold, reading a longer text continues the run over a shorter one.  Flaws met
by `feed` are final, whatever follows; flaws met by `finish` can still be mended by more text.  The
descent of `Program.parse` has neither property, and this is why its theory goes through the reader.
-/

namespace Reduct

/-- Where a reader stands between two characters.  A token under way is held with its last
character first. -/
inductive Reader.Mode where
  /-- Outside every token. -/
  | gap
  /-- Inside a bare token. -/
  | bare (token : List Char)
  /-- Inside a string token that was opened at the given byte. -/
  | quoted (opened : Nat) (token : List Char)
  /-- Inside a string token, right after a backslash. -/
  | escape (opened : Nat) (token : List Char)
  deriving DecidableEq

/-- A call whose closing parenthesis has not been read. -/
structure Reader.Frame where
  /-- The byte of its opening parenthesis. -/
  opened : Nat
  /-- The nodes before it in the group around it, the last one first. -/
  before : List Node

/-- The state of reading between two characters. -/
structure Reader where
  /-- The number of bytes read. -/
  offset : Nat
  /-- The token under way. -/
  mode : Reader.Mode
  /-- The complete nodes of the innermost open group, the last one first. -/
  nodes : List Node
  /-- The open calls, the innermost first. -/
  frames : List Reader.Frame

namespace Reader

/-- The state before the first character. -/
def start : Reader := ⟨0, .gap, [], []⟩

/-- Adds a complete node to the innermost open group. -/
def push (r : Reader) (node : Node) : Reader := { r with nodes := node :: r.nodes }

/-- Completes a bare token, if one is under way. -/
def settle (r : Reader) : Reader :=
  match r.mode with
  | .bare token => { r.push (Node.ofBare token.reverse) with mode := .gap }
  | _ => r

/-- Opens a call at the current byte. -/
def openCall (r : Reader) : Except ReadError Reader :=
  if maxNesting ≤ r.frames.length then .error (.malformed r.offset .tooDeep)
  else .ok { r with nodes := [], frames := ⟨r.offset, r.nodes⟩ :: r.frames }

/-- Closes the innermost call at the current byte. -/
def closeCall (r : Reader) : Except ReadError Reader :=
  match r.frames with
  | [] => .error (.malformed r.offset .unmatched)
  | frame :: outer =>
    if r.nodes.isEmpty then .error (.malformed frame.opened .emptyCall)
    else .ok { r with nodes := .call r.nodes.reverse :: frame.before, frames := outer }

/-- What a character does outside every token. -/
def enter (r : Reader) (c : Char) : Except ReadError Reader :=
  if Text.isBlank c then .ok r
  else if c = '(' then r.openCall
  else if c = ')' then r.closeCall
  else if c = '"' then .ok { r with mode := .quoted r.offset [c] }
  else .ok { r with mode := .bare [c] }

/-- What a character does, its width in bytes left aside. -/
def accept (r : Reader) (c : Char) : Except ReadError Reader :=
  match r.mode with
  | .gap => r.enter c
  | .bare token => if isBare c then .ok { r with mode := .bare (c :: token) } else r.settle.enter c
  | .quoted opened token =>
    if c = '"' then
      .ok { r.push (.string (String.ofList (c :: token).reverse)) with mode := .gap }
    else if c = '\\' then .ok { r with mode := .escape opened (c :: token) }
    else .ok { r with mode := .quoted opened (c :: token) }
  | .escape opened token => .ok { r with mode := .quoted opened (c :: token) }

/-- Moves past a character of the given width. -/
def advance (r : Reader) (c : Char) : Reader := { r with offset := r.offset + c.utf8Size }

/-- Reads one character. -/
def feed (r : Reader) (c : Char) : Except ReadError Reader := do
  let r ← r.accept c
  return r.advance c

/-- Reads several characters. -/
def feedAll (r : Reader) (cs : List Char) : Except ReadError Reader := cs.foldlM feed r

/-- Reading two stretches of text is reading the second from where the first ends. -/
theorem feedAll_append (r : Reader) (cs ds : List Char) :
    r.feedAll (cs ++ ds) = r.feedAll cs >>= fun r => r.feedAll ds :=
  List.foldlM_append

section

variable {r r' : Reader} {c : Char} {cs : List Char} {e : ReadError}

theorem feed_of_accept (h : r.accept c = .ok r') :
    r.feed c = .ok (r'.advance c) := by
  rw [feed, h]
  rfl

theorem feed_of_accept_error (h : r.accept c = .error e) : r.feed c = .error e := by
  rw [feed, h]
  rfl

theorem feedAll_cons_of_accept (h : r.accept c = .ok r') :
    r.feedAll (c :: cs) = (r'.advance c).feedAll cs := by
  rw [feedAll, List.foldlM_cons, feed_of_accept h]
  rfl

theorem feedAll_cons_of_accept_error (h : r.accept c = .error e) :
    r.feedAll (c :: cs) = .error e := by
  rw [feedAll, List.foldlM_cons, feed_of_accept_error h]
  rfl

end

/-- The program that has been read when the text ends here. -/
def finish (r : Reader) : Except ReadError Program :=
  match r.mode with
  | .quoted opened _ | .escape opened _ => .error (.malformed opened .unterminated)
  | _ =>
    match r.frames with
    | frame :: _ => .error (.malformed frame.opened .unclosed)
    | [] => .ok r.settle.nodes.reverse

/-- Reads a text to its end. -/
def run (r : Reader) (cs : List Char) : Except ReadError Program := do
  let r ← r.feedAll cs
  r.finish

end Reader

end Reduct
