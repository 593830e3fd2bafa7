/-!
# Reading quoted text

The reader of string literals, and where and why it gives up.  Positions are counted in bytes of
the UTF-8 form of the literal, so a fault inside a wide character can be named.

## Main definitions

* `Fault` — why a literal has no meaning.
* `Complaint` — a fault with its line and column.
* `decode` — the text that a literal denotes.

## Design notes

The literal is read once from left to right.  Every clause of `body` removes one item from the
front: a plain character, a letter escape, a code unit escape, or a surrogate pair of two of them.
The number of bytes consumed so far travels along and becomes the position of a fault.

String tokens start with a quote, and the faults are those of such tokens.  A text that spells some
other kind of value, such as a number, is reported as no string without saying what it is.
-/

namespace Reduct.Text.Quoted

/-- Why a literal has no meaning. -/
inductive Fault where
  /-- The literal holds nothing but blanks. -/
  | noValue
  /-- The literal does not start with a quote.  What other kind of value it may start with is not
  told apart. -/
  | notString
  /-- The literal ends before the closing quote. -/
  | unclosed
  /-- A character below U+0020 stands unescaped. -/
  | controlCharacter
  /-- A backslash is not followed by a known escape. -/
  | invalidEscape
  /-- A surrogate code unit stands alone or in the wrong half. -/
  | loneSurrogate
  /-- A leading surrogate is not followed by a code unit escape. -/
  | brokenPair
  /-- Something other than a blank follows the closing quote. -/
  | trailing
  deriving DecidableEq

/-- The wording of a fault. -/
def Fault.message : Fault → String
  | .noValue => "EOF while parsing a value"
  | .notString => "expected value"
  | .unclosed => "EOF while parsing a string"
  | .controlCharacter => "control character (\\u0000-\\u001F) found while parsing a string"
  | .invalidEscape => "invalid escape"
  | .loneSurrogate => "lone leading surrogate in hex escape"
  | .brokenPair => "unexpected end of hex escape"
  | .trailing => "trailing characters"

/-- A fault with the line and the column, in bytes, of the last byte that was consumed. -/
structure Complaint where
  fault : Fault
  line : Nat
  column : Nat
  deriving DecidableEq

/-- The wording of a fault with its position. -/
def Complaint.message (e : Complaint) : String :=
  e.fault.message ++ " at line " ++ toString e.line ++ " column " ++ toString e.column

/-- A fault with the number of bytes consumed when it was met. -/
abbrev Scan := Except (Fault × Nat)

/-- The blanks that may surround a literal. -/
def isGap (c : Char) : Bool := c = ' ' || c = '\t' || c = '\r' || c = '\n'

/-- The character that a letter escape denotes. -/
def letterEscape? (c : Char) : Option Char :=
  if c = '"' then some '"'
  else if c = '\\' then some '\\'
  else if c = '/' then some '/'
  else if c = 'b' then some '\x08'
  else if c = 'f' then some '\x0c'
  else if c = 'n' then some '\n'
  else if c = 'r' then some '\r'
  else if c = 't' then some '\t'
  else none

/-- The value of a hexadecimal digit of either case. -/
def hexDigit? (c : Char) : Option Nat :=
  if '0' ≤ c ∧ c ≤ '9' then some (c.toNat - '0'.toNat)
  else if 'a' ≤ c ∧ c ≤ 'f' then some (c.toNat - 'a'.toNat + 10)
  else if 'A' ≤ c ∧ c ≤ 'F' then some (c.toNat - 'A'.toNat + 10)
  else none

/-- The code unit that four hexadecimal digits spell. -/
def codeUnit? (a b c d : Char) : Option Nat :=
  match hexDigit? a, hexDigit? b, hexDigit? c, hexDigit? d with
  | some a, some b, some c, some d => some (((a * 16 + b) * 16 + c) * 16 + d)
  | _, _, _, _ => none

/-- Whether a code unit opens a surrogate pair. -/
def isLeading (u : Nat) : Bool := 0xd800 ≤ u && u ≤ 0xdbff

/-- Whether a code unit closes a surrogate pair. -/
def isTrailing (u : Nat) : Bool := 0xdc00 ≤ u && u ≤ 0xdfff

/-- The character that a surrogate pair denotes. -/
def pair (u v : Nat) : Char := Char.ofNat (0x10000 + (u - 0xd800) * 0x400 + (v - 0xdc00))

/-- The fault of a code unit escape whose backslash is byte `i` and whose four bytes of digits are
not all there or not all digits. -/
def badUnit (size i : Nat) : Fault × Nat :=
  if size < i + 6 then (.unclosed, size) else (.invalidEscape, i + 6)

/-- Checks that only blanks follow the closing quote. -/
def closing : Nat → List Char → Scan Unit
  | _, [] => .ok ()
  | i, c :: rest => if isGap c then closing (i + 1) rest else .error (.trailing, i + 1)

/-- Reads the rest of a literal after its opening quote.  `size` is the length of the literal and
`i` the number of bytes consumed; `done` holds the characters read so far, the last one first. -/
def body (size : Nat) : Nat → List Char → List Char → Scan (List Char)
  | _, _, [] => .error (.unclosed, size)
  | i, done, c :: rest =>
    if c = '"' then
      match closing (i + 1) rest with
      | .ok () => .ok done.reverse
      | .error e => .error e
    else if c = '\\' then
      match rest with
      | [] => .error (.unclosed, size)
      | e :: rest =>
        if e = 'u' then
          match rest with
          | d₁ :: d₂ :: d₃ :: d₄ :: rest =>
            match codeUnit? d₁ d₂ d₃ d₄ with
            | none => .error (badUnit size i)
            | some u =>
              if isTrailing u then .error (.loneSurrogate, i + 6)
              else if isLeading u then
                match rest with
                | [] => .error (.unclosed, size)
                | b :: rest =>
                  if b = '\\' then
                    match rest with
                    | [] => .error (.unclosed, size)
                    | e :: rest =>
                      if e = 'u' then
                        match rest with
                        | d₁ :: d₂ :: d₃ :: d₄ :: rest =>
                          match codeUnit? d₁ d₂ d₃ d₄ with
                          | none => .error (badUnit size (i + 6))
                          | some v =>
                            if isTrailing v then body size (i + 12) (pair u v :: done) rest
                            else .error (.loneSurrogate, i + 12)
                        | _ => .error (badUnit size (i + 6))
                      else .error (.brokenPair, i + 8)
                  else .error (.brokenPair, i + 7)
              else body size (i + 6) (Char.ofNat u :: done) rest
          | _ => .error (badUnit size i)
        else
          match letterEscape? e with
          | some c => body size (i + 2) (c :: done) rest
          | none => .error (.invalidEscape, i + 2)
    else if c.toNat < 0x20 then .error (.controlCharacter, i + 1)
    else body size (i + c.utf8Size) (c :: done) rest

/-- Reads a literal with the blanks before it. -/
def literal (size : Nat) : Nat → List Char → Scan (List Char)
  | _, [] => .error (.noValue, size)
  | i, c :: rest =>
    if isGap c then literal size (i + 1) rest
    else if c = '"' then body size (i + 1) [] rest
    else .error (.notString, i + 1)

/-- The line after the first `i` bytes of a text and the byte at which that line starts. -/
def lineAt (i : Nat) (cs : List Char) : Nat × Nat :=
  let seen := cs.foldl
    (fun (offset, line, start) c =>
      if c = '\n' ∧ offset < i then (offset + c.utf8Size, line + 1, offset + 1)
      else (offset + c.utf8Size, line, start))
    (0, 1, 0)
  seen.2

/-- The text that a literal denotes. -/
def decode (token : String) : Except Complaint String :=
  match literal token.utf8ByteSize 0 token.toList with
  | .ok cs => .ok (String.ofList cs)
  | .error (fault, i) =>
    let (line, start) := lineAt i token.toList
    .error ⟨fault, line, i - start⟩

end Reduct.Text.Quoted
