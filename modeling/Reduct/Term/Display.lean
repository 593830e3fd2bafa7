import Reduct.Term.Basic
import Reduct.Text.Escaped
import Reduct.Text.Quoted

/-!
# Printed terms

Two printed forms of a term: the one in which it is written in source text, and the one in which a
diagnostic shows it.

## Main definitions

* `Term.display` — the source form.
* `Term.inspect` — the diagnostic form, which tells the variants apart.
-/

namespace Reduct.Term

/-- The source form of an integer. -/
def decimal (n : Int64) : List Char := (toString n.toInt).toList

mutual

/-- The characters of a term's source form.  A function has no source form of its own and is shown
between angle brackets. -/
def render : Term → List Char
  | .int n => decimal n
  | .str s => (Text.Quoted.encode s).toList
  | .name n => n.toList
  | .func f => "<builtin ".toList ++ f.name.toList ++ ['>']
  | .call callee args => '(' :: (render callee ++ renderArgs args ++ [')'])

/-- The characters of the arguments of a call, each after a space. -/
def renderArgs : List Term → List Char
  | [] => []
  | arg :: rest => ' ' :: (render arg ++ renderArgs rest)

end

/-- The source form of a term. -/
def display (t : Term) : String := String.ofList (render t)

/-- The diagnostic form of a function. -/
def inspectFunc (f : Func) : List Char :=
  "Function(".toList ++ (Text.escaped f.name).toList ++ [')']

mutual

/-- The characters of a term's diagnostic form.  A call shows its callee in source form and its
arguments in diagnostic form. -/
def inspectChars : Term → List Char
  | .int n => "Integer(".toList ++ decimal n ++ [')']
  | .str s => "String(".toList ++ (Text.escaped s).toList ++ [')']
  | .name n => "Name(".toList ++ n.toList ++ [')']
  | .func f => inspectFunc f
  | .call callee args => "Call(".toList ++ render callee ++ inspectArgs args ++ [')']

/-- The characters of the arguments of a call in diagnostic form, each after a comma. -/
def inspectArgs : List Term → List Char
  | [] => []
  | arg :: rest => ", ".toList ++ inspectChars arg ++ inspectArgs rest

end

/-- The diagnostic form of a term. -/
def inspect (t : Term) : String := String.ofList (inspectChars t)

end Reduct.Term
