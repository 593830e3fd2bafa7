import Reduct.Env.Builtins

/-!
# Host functions

Functions that the language does not define itself are supplied by a host.

## Main definitions

* `Native` — what a function does with an environment and reduced arguments.
* `Host` — the functions that stand behind handles.
* `Impl.run` — what an implementation does under a given host.

## Design notes

A host function is taken as a total function of the environment and the arguments: it always comes
back, with the same result for the same call, and it has no effect but its result.  A function that
panics, loops or writes to a log of its own is outside this theory.
-/

namespace Reduct

/-- What a function does with an environment and reduced arguments, as a total function of both.
The result may be a value or an expression that is still to be reduced. -/
abbrev Native := Env → List Term → Except EvalError Term

/-- The functions that stand behind handles. -/
abbrev Host := Nat → Native

/-- The host without functions: nothing behind a handle can be called. -/
def Host.bare : Host := fun _ _ _ => .error (.notCallable .function)

/-- What an implementation does under a given host. -/
def Impl.run (host : Host) : Impl → Native
  | .builtin op _, _, args => op.apply args
  | .host handle, env, args => host handle env args

end Reduct
