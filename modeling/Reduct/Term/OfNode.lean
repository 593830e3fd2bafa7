import Reduct.Source.Error
import Reduct.Source.Node
import Reduct.Term.Basic
import Reduct.Word

/-!
# Terms of source trees

Every node of a source tree stands for one term.

## Main definitions

* `Node.Conversion` — what tokens stand for.
* `Node.convert` — the term of a node under a conversion of tokens, or the error of its first bad
  part.
* `Node.toTerm`, `Program.toTerms` — the terms of nodes under the conversion of the language.

## Design notes

A node is bad on its own when it is a token that stands for nothing, or a call without members.
Members are converted from left to right and the first error wins.  None of this depends on what
tokens stand for, so the tree is converted under any conversion of its tokens.
-/

namespace Reduct

namespace Node

/-- A conversion of tokens, with the error of a call that has nothing to call. -/
structure Conversion (ε : Type) where
  /-- The term of an integer token. -/
  integer : String → Except ε Term
  /-- The term of a string token. -/
  string : String → Except ε Term
  /-- The error of a call without members. -/
  childless : ε

section

variable {ε : Type} (k : Conversion ε)

mutual

/-- The term of a node. -/
def convert : Node → Except ε Term
  | .integer token => k.integer token
  | .string token => k.string token
  | .name text => .ok (.name text)
  | .call [] => .error k.childless
  | .call (callee :: args) => do
    let callee ← convert callee
    let args ← convertAll args
    return .call callee args

/-- The terms of several nodes. -/
def convertAll : List Node → Except ε (List Term)
  | [] => .ok []
  | node :: rest => do
    let t ← convert node
    let ts ← convertAll rest
    return t :: ts

end

end

/-- The term of an integer token. -/
def integerTerm (token : String) : Except ReadError Term :=
  match Word.readByDigits? token with
  | some n => .ok (.int n)
  | none => .error (.integerRange token)

/-- The term of a string token. -/
def stringTerm (token : String) : Except ReadError Term :=
  match Text.Quoted.decode token with
  | .ok text => .ok (.str text)
  | .error complaint => .error (.badString token complaint)

/-- What the tokens of the language stand for. -/
def literals : Conversion ReadError := ⟨integerTerm, stringTerm, .malformed 0 .childless⟩

/-- The term of a node of the language. -/
def toTerm (node : Node) : Except ReadError Term := node.convert literals

/-- The terms of several nodes of the language. -/
def toTerms (nodes : List Node) : Except ReadError (List Term) := convertAll literals nodes

theorem toTerm_integer (token : String) : toTerm (.integer token) = integerTerm token := rfl

theorem toTerm_string (token : String) : toTerm (.string token) = stringTerm token := rfl

theorem toTerm_call (callee : Node) (args : List Node) :
    toTerm (.call (callee :: args)) =
      callee.toTerm >>= fun c => toTerms args >>= fun ts => .ok (.call c ts) := rfl

theorem toTerms_cons (node : Node) (nodes : List Node) :
    toTerms (node :: nodes) =
      node.toTerm >>= fun t => toTerms nodes >>= fun ts => .ok (t :: ts) := rfl

end Node

/-- The terms of a program, one for each top-level node. -/
def Program.toTerms (program : Program) : Except ReadError (List Term) := Node.toTerms program

end Reduct
