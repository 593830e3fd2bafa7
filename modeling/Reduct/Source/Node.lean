/-!
# Source trees

The tree that a source text spells, with every token kept as it was written, and the indented
outline of such a tree.

## Main definitions

* `Node` — a token or a parenthesised group.
* `Program` — the top-level nodes of a text in order.
* `Node.outline`, `Program.outline` — one line per node, indented by depth.
-/

namespace Reduct

/-- A node of the source tree. -/
inductive Node where
  /-- An integer token. -/
  | integer (token : String)
  /-- A string token with its quotes and escapes. -/
  | string (token : String)
  /-- A name. -/
  | name (text : String)
  /-- A parenthesised group with its members in order. -/
  | call (children : List Node)

/-- The top-level nodes of a source text in order. -/
abbrev Program := List Node

namespace Node

/-- The word for the kind of a node. -/
def rule : Node → String
  | .integer _ => "integer"
  | .string _ => "string"
  | .name _ => "name"
  | .call _ => "call"

/-- The blanks before a line of the outline: two for each level. -/
def indent (depth : Nat) : List Char := List.replicate (2 * depth) ' '

/-- The outline's line for a token. -/
def tokenLine (depth : Nat) (rule token : String) : List Char :=
  indent depth ++ rule.toList ++ '\t' :: (token.toList ++ ['\n'])

mutual

/-- The lines of a node whose own line stands at the given depth. -/
def lines : Nat → Node → List Char
  | depth, .integer token => tokenLine depth "integer" token
  | depth, .string token => tokenLine depth "string" token
  | depth, .name text => tokenLine depth "name" text
  | depth, .call children => indent depth ++ "call\n".toList ++ linesOfAll (depth + 1) children

/-- The lines of several nodes at one depth. -/
def linesOfAll : Nat → List Node → List Char
  | _, [] => []
  | depth, node :: rest => lines depth node ++ linesOfAll depth rest

end

/-- The outline of a node on its own. -/
def outline (node : Node) : String := String.ofList (lines 0 node)

end Node

/-- The outline of a whole program under a line of its own. -/
def Program.outline (program : Program) : String :=
  String.ofList ("start\n".toList ++ Node.linesOfAll 1 program)

end Reduct
