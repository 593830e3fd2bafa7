import Reduct.Log.Logged
import Reduct.Source.Grammar
import Reduct.Term.OfNode

/-!
# Terms of source text

Reading a source text into terms, in two stages: the text is parsed as a whole, and then its nodes
are converted.

## Main definitions

* `Term.readAll` — the terms that a text spells.
* `Term.readsBack` — whether a term's source form spells the term again.
-/

namespace Reduct.Term

/-- Reads a source text into one term for each top-level node. -/
def readAll (source : String) : Traced ReadError (List Term) := do
  let program ← Traced.ofExcept (Program.parse source)
  Traced.emit (.parsed program.length)
  Traced.ofExcept program.toTerms

/-- Whether the source form of a term spells exactly that term. -/
def readsBack (t : Term) : Logged Bool := do
  match ← (readAll t.display).run with
  | .ok [u] => return u == t
  | _ => return false

end Reduct.Term
