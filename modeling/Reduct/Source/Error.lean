import Reduct.Text.Quoted.Decode

/-!
# Rejected source text

Why a text is not a program.

## Main definitions

* `Flaw` — what is wrong with the arrangement of a text.
* `ReadError` — a rejected text: a misplaced construct, or a token without a value.
-/

namespace Reduct

/-- The deepest nesting of calls that a source text may have. -/
def maxNesting : Nat := 256

/-- What is wrong with the arrangement of a text. -/
inductive Flaw where
  /-- A text to which a rule does not apply. -/
  | unexpected
  /-- A text that ends too early to tell what it is. -/
  | incomplete
  /-- A closing parenthesis without an opening one. -/
  | unmatched
  /-- An opening parenthesis without a closing one. -/
  | unclosed
  /-- A pair of parentheses around nothing. -/
  | emptyCall
  /-- A string token without its closing quote. -/
  | unterminated
  /-- A call below more than `maxNesting` levels. -/
  | tooDeep
  /-- A tree that has a call without members. -/
  | childless
  deriving DecidableEq

/-- The wording of a flaw. -/
def Flaw.message : Flaw → String
  | .unexpected => "unexpected input"
  | .incomplete => "incomplete input"
  | .unmatched => "unmatched `)`"
  | .unclosed => "unclosed `(`"
  | .emptyCall => "empty call `()`"
  | .unterminated => "unterminated string literal"
  | .tooDeep => "calls nested too deeply"
  | .childless => "empty call"

/-- Why a text could not be turned into terms. -/
inductive ReadError where
  /-- A construct that starts at the given byte is out of place. -/
  | malformed (offset : Nat) (flaw : Flaw)
  /-- An integer token whose value does not fit into 64 bits. -/
  | integerRange (token : String)
  /-- A string token that denotes no text. -/
  | badString (token : String) (complaint : Text.Quoted.Complaint)
  deriving DecidableEq

/-- The wording of a rejection. -/
def ReadError.message : ReadError → String
  | .malformed offset flaw => "syntax error at offset " ++ toString offset ++ ": " ++ flaw.message
  | .integerRange token => "integer literal out of range: " ++ token
  | .badString token complaint => "invalid string literal " ++ token ++ ": " ++ complaint.message

end Reduct
