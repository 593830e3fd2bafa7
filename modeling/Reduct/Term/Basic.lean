/-!
# Terms

The values and expressions of the language.

## Main definitions

* `Builtin` — the five functions that every base environment provides.
* `Impl` — the identity of a function's implementation.
* `Func` — a function with the name it is shown by.
* `Term` — a literal, a name, a function or a call.
* `Term.same` — the equality that programs of the language can observe.

## Design notes

A function is data: its implementation is named, not stored.  A built-in carries the number of the
registration that created it, and a function supplied from outside carries the handle under which
the host knows it.  So terms can be compared, copied and printed, and two functions are the same
exactly when they come from the same registration.
-/

namespace Reduct

/-- The variants of terms. -/
inductive Kind where
  | integer
  | string
  | name
  | function
  | call
  deriving DecidableEq

/-- The word for a variant. -/
def Kind.text : Kind → String
  | .integer => "Integer"
  | .string => "String"
  | .name => "Name"
  | .function => "Function"
  | .call => "Call"

/-- The functions that every base environment provides. -/
inductive Builtin where
  /-- The sum of two integers. -/
  | add
  /-- The difference of two integers. -/
  | sub
  /-- The product of two integers. -/
  | mul
  /-- The power of an integer. -/
  | pow
  /-- The sum of the squares of two terms. -/
  | sumSquares
  deriving DecidableEq

namespace Builtin

/-- The name under which a built-in is bound. -/
def symbol : Builtin → String
  | .add => "+"
  | .sub => "-"
  | .mul => "*"
  | .pow => "^"
  | .sumSquares => "x^2+y^2"

/-- The built-ins in the order of registration. -/
def all : List Builtin := [.add, .sub, .mul, .pow, .sumSquares]

end Builtin

/-- The identity of a function's implementation. -/
inductive Impl where
  /-- A built-in together with the registration that created it. -/
  | builtin (op : Builtin) (serial : Nat)
  /-- A function of the host under its handle. -/
  | host (handle : Nat)
  deriving DecidableEq

/-- A function: the name it is shown by and the implementation that runs. -/
structure Func where
  name : String
  impl : Impl
  deriving DecidableEq

/-- A value or an expression. -/
inductive Term where
  /-- An integer. -/
  | int (value : Int64)
  /-- A text. -/
  | str (text : String)
  /-- A reference to a binding. -/
  | name (text : String)
  /-- A function. -/
  | func (f : Func)
  /-- The application of a callee to arguments that have not been reduced. -/
  | call (callee : Term) (args : List Term)

namespace Term

/-- The variant of a term. -/
def kind : Term → Kind
  | .int _ => .integer
  | .str _ => .string
  | .name _ => .name
  | .func _ => .function
  | .call _ _ => .call

/-- The value of an integer term. -/
def asInt? : Term → Option Int64
  | .int value => some value
  | _ => none

/-- The text of a text term. -/
def asText? : Term → Option String
  | .str text => some text
  | _ => none

/-- The text of a name. -/
def asName? : Term → Option String
  | .name text => some text
  | _ => none

/-- Whether a term can be called. -/
def isCallable : Term → Bool
  | .func _ => true
  | _ => false

/-- Whether a term is its own value. -/
def isFinal : Term → Bool
  | .int _ | .str _ | .func _ => true
  | .name _ | .call _ _ => false

mutual

/-- Equality by value, except that functions are compared by implementation alone. -/
def same : Term → Term → Bool
  | .int a, .int b => a == b
  | .str a, .str b => a == b
  | .name a, .name b => a == b
  | .func f, .func g => f.impl == g.impl
  | .call f xs, .call g ys => same f g && sameAll xs ys
  | _, _ => false

/-- Equality of two lists of terms, member by member. -/
def sameAll : List Term → List Term → Bool
  | [], [] => true
  | x :: xs, y :: ys => same x y && sameAll xs ys
  | _, _ => false

end

instance : BEq Term := ⟨same⟩

end Term

end Reduct
