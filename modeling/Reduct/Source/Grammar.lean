import Reduct.Source.Node
import Reduct.Source.Rule
import Reduct.Text.Blank

/-!
# The grammar of source text

A program is a sequence of expressions, each of which is a string, a call or a bare token.  There is
one rule for each of them.

## Main definitions

* `Grammar.string`, `Grammar.atom` — the rules for tokens.
* `Grammar.expression`, `Grammar.call`, `Grammar.members` — the rules for nested expressions.
* `Program.parse` — the nodes of a whole text.

## Design notes

The rules for expressions are told how many calls they stand in.  A call that would exceed
`maxNesting` is rejected at its opening parenthesis, before anything in it is read.

The rules recurse on the number of bytes left, and they are kept semireducible: what they do with a
given text can be computed.
-/

namespace Reduct

/-- Whether a character can be part of a bare token. -/
def isBare (c : Char) : Bool := !Text.isBlank c && c ≠ '(' && c ≠ ')' && c ≠ '"'

theorem isBare_iff {c : Char} :
    isBare c = true ↔ Text.isBlank c = false ∧ c ≠ '(' ∧ c ≠ ')' ∧ c ≠ '"' := by
  simp [isBare, and_assoc]

/-- Whether a bare token is an integer: decimal digits after at most one minus sign. -/
def isIntegerToken : List Char → Bool
  | '-' :: digits => !digits.isEmpty && digits.all Char.isDigit
  | digits => !digits.isEmpty && digits.all Char.isDigit

/-- The node of a bare token. -/
def Node.ofBare (token : List Char) : Node :=
  if isIntegerToken token then .integer (String.ofList token) else .name (String.ofList token)

namespace Grammar

open Rule Text

/-- The separator between expressions. -/
def blanks : Rule (List Char) := takeWhile isBlank

/-- One element of a string token: a backslash with the character behind it, or any character but a
quote and a backslash. -/
def stringChar : Item (List Char) :=
  alt (recognize (pair (char '\\') (satisfy fun _ => true)))
    (recognize (satisfy fun c => c ≠ '\\' && c ≠ '"'))

/-- A string token, with its quotes and escapes. -/
def string : Item Node := fun input => do
  let opened ← char '"' input
  let body ← many (ofItem stringChar) opened.rest
  match char '"' body.rest with
  | .ok closed =>
    return ⟨.string (String.ofList (before input closed.rest)), closed.rest, by
      have := opened.rest_lt
      have := body.rest_lt
      have := closed.rest_lt
      omega⟩
  | .error _ => fail input .unterminated

/-- A bare token. -/
def atom : Item Node := fun input => do
  let token ← takeWhile1 isBare input
  return ⟨Node.ofBare token.value, token.rest, token.rest_lt⟩

mutual

/-- An expression inside of `depth` calls.  Its first character tells which rule is for it. -/
@[semireducible]
def expression (depth : Nat) (input : List Char) :
    Except Stop (Parsed (byteSize input) Node) :=
  if input.head? = some '"' then string input
  else if input.head? = some '(' then call (depth + 1) input
  else atom input
termination_by 3 * byteSize input + 1

/-- A call, the outermost one being of depth 1. -/
@[semireducible]
def call (depth : Nat) (input : List Char) : Except Stop (Parsed (byteSize input) Node) :=
  if maxNesting < depth then fail input .tooDeep
  else do
    let opened ← char '(' input
    members depth input [] opened.rest opened.rest_lt
termination_by 3 * byteSize input
decreasing_by
  have := opened.rest_lt
  omega

/-- The rest of the call that starts with `input`, behind the given members, the last one first. -/
@[semireducible]
def members (depth : Nat) (input : List Char) (children : List Node) (rest : List Char)
    (h : byteSize rest < byteSize input) : Except Stop (Parsed (byteSize input) Node) := do
  let next ← blanks rest
  match hnext : next.rest with
  | [] => fail input .unclosed
  | c :: after =>
    if c = ')' then
      if children.isEmpty then fail input .emptyCall
      else return ⟨.call children.reverse, after, by
        have := hnext ▸ next.rest_lt
        have := byteSize_lt_cons c after
        omega⟩
    else
      let child ← cut (expression depth next.rest)
      members depth input (child.value :: children) child.rest (by
        have := next.rest_lt
        have := child.rest_lt
        omega)
termination_by 3 * byteSize rest + 2
decreasing_by
  · have := next.rest_lt
    omega
  · have := next.rest_lt
    have := child.rest_lt
    omega

end

/-- The expressions of a text, of which `rest` is left behind the given nodes, the last one
first. -/
@[semireducible]
def expressions (source : List Char) (nodes : List Node) (rest : List Char) :
    Except ReadError Program := do
  let next ← (blanks rest).mapError (Stop.report (byteSize source))
  match next.rest with
  | [] => return nodes.reverse
  | c :: _ =>
    if c = ')' then .error (.malformed (byteSize source - byteSize next.rest) .unmatched)
    else
      let node ← (expression 0 next.rest).mapError (Stop.report (byteSize source))
      expressions source (node.value :: nodes) node.rest
termination_by byteSize rest
decreasing_by
  have := next.rest_lt
  have := node.rest_lt
  omega

end Grammar

/-- Reads a source text into its top-level nodes. -/
def Program.parse (source : String) : Except ReadError Program :=
  Grammar.expressions source.toList [] source.toList

end Reduct
