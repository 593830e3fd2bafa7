import Reduct.Env.Basic
import Reduct.Word

/-!
# Built-in functions

What the built-in functions do, and the environment that binds them.

## Main definitions

* `expectArity`, `expectInteger` — the checks of arguments.
* `Builtin.apply` — the value of a built-in on reduced arguments.
* `Env.loadBuiltins`, `Env.base` — environments with the built-ins bound.
-/

namespace Reduct

/-- Fails unless there are exactly `expected` arguments. -/
def expectArity (function : String) (args : List Term) (expected : Nat) : Except EvalError Unit :=
  if args.length = expected then .ok () else .error (.argumentArity function expected args.length)

/-- The integer at a position, or the failure to find one there. -/
def expectInteger (function : String) (args : List Term) (position : Nat) :
    Except EvalError Int64 :=
  match args[position]? with
  | none => .error (.argumentArity function (position + 1) args.length)
  | some arg =>
    match arg.asInt? with
    | some n => .ok n
    | none => .error (.argumentType function position "Integer" arg.kind)

/-- The two operands of an arithmetic function. -/
def integerPair (function : String) (args : List Term) : Except EvalError (Int64 × Int64) := do
  expectArity function args 2
  let a ← expectInteger function args 0
  let b ← expectInteger function args 1
  return (a, b)

/-- The integer term of an exact result, or the overflow of the function that lacks one. -/
def exactly (function : String) : Option Int64 → Except EvalError Term
  | some n => .ok (.int n)
  | none => .error (.overflow function)

/-- The call that squares a term. -/
def squareOf (t : Term) : Term := .call (.name Builtin.pow.symbol) [t, .int 2]

namespace Builtin

/-- Applies an operation on words to two integer arguments. -/
def arithmetic (b : Builtin) (operate : Int64 → Int64 → Except EvalError Term) (args : List Term) :
    Except EvalError Term := do
  let (x, y) ← integerPair b.symbol args
  operate x y

/-- The value of a built-in on reduced arguments.  The sum of squares is not computed here: it is
the call that adds the two squares, and the names in that call are looked up when it is reduced. -/
def apply : Builtin → List Term → Except EvalError Term
  | .add, args => add.arithmetic (fun a b => exactly add.symbol (Word.add? a b)) args
  | .sub, args => sub.arithmetic (fun a b => exactly sub.symbol (Word.sub? a b)) args
  | .mul, args => mul.arithmetic (fun a b => exactly mul.symbol (Word.mul? a b)) args
  | .pow, args =>
    pow.arithmetic
      (fun a b =>
        if b < 0 then .error (.argumentType pow.symbol 1 "non-negative Integer" .integer)
        else exactly pow.symbol (Word.powInParts? a b))
      args
  | .sumSquares, [x, y] => .ok (.call (.name add.symbol) [squareOf x, squareOf y])
  | .sumSquares, args => .error (.argumentArity sumSquares.symbol 2 args.length)

/-- A built-in as a function of the given registration. -/
def toFunc (b : Builtin) (serial : Nat) : Func := ⟨b.symbol, .builtin b serial⟩

end Builtin

namespace Env

/-- Binds every built-in, in order, as functions of the given registration. -/
def loadBuiltins (env : Env) (serial : Nat) : Logged Env :=
  Builtin.all.foldlM (fun env b => env.defineFunc (b.toFunc serial)) env

/-- The environment that binds the built-ins and nothing else. -/
def base : Env := (empty.loadBuiltins 0).value

end Env

end Reduct
