import Reduct.Source.Error
import Reduct.Source.Node
import Reduct.Text.Blank

/-!
# Layouts of programs

Which texts spell a program, said without reference to a reader.  A program is a sequence of
lexemes, and a layout of it is a text in which these lexemes stand in order with blanks around them.

## Main definitions

* `IsInteger`, `IsName`, `IsString` — the three classes of tokens.
* `Node.WellFormed` — the grammar of nodes: every token is of its class and every call has members.
* `Node.nesting` — how deep calls are nested in a node.
* `Lexeme`, `Node.lexemes` — the units of source text and the units that a node is written with.
* `Laid` — a text in which given lexemes stand in order.
* `Program.LaidOut` — a layout of a program.

## Design notes

Two bare tokens need a blank between them, and no other pair of neighbours does.  `Laid` therefore
carries one bit from left to right: whether a bare token stands right before the text.
-/

namespace Reduct

/-- A run of blanks, possibly empty. -/
def IsGap (cs : List Char) : Prop := ∀ c ∈ cs, Text.isBlank c = true

/-- A non-empty run of characters other than blanks, parentheses and double quotes. -/
def IsBareText (cs : List Char) : Prop :=
  cs ≠ [] ∧ ∀ c ∈ cs, Text.isBlank c = false ∧ c ≠ '(' ∧ c ≠ ')' ∧ c ≠ '"'

theorem isDigit_iff {c : Char} : c.isDigit = true ↔ '0' ≤ c ∧ c ≤ '9' := by
  simp only [Char.isDigit, Bool.and_eq_true, decide_eq_true_eq, ge_iff_le, Char.le_def]

/-- Decimal digits after at most one minus sign. -/
def IsInteger (cs : List Char) : Prop :=
  ∃ digits, digits ≠ [] ∧ (∀ c ∈ digits, '0' ≤ c ∧ c ≤ '9') ∧ (cs = digits ∨ cs = '-' :: digits)

/-- Bare text that is no integer. -/
def IsName (cs : List Char) : Prop := IsBareText cs ∧ ¬IsInteger cs

/-- What may stand between the quotes of a string token: a backslash takes the next character along,
whatever it is, and every other character but the quote stands alone. -/
inductive IsStringBody : List Char → Prop where
  | nil : IsStringBody []
  | plain {c : Char} {cs : List Char} (hquote : c ≠ '"') (hslash : c ≠ '\\')
      (hrest : IsStringBody cs) : IsStringBody (c :: cs)
  | escaped {c : Char} {cs : List Char} (hrest : IsStringBody cs) : IsStringBody ('\\' :: c :: cs)

/-- A string token with its quotes. -/
def IsString (cs : List Char) : Prop := ∃ body, IsStringBody body ∧ cs = '"' :: (body ++ ['"'])

/-- The grammar of nodes. -/
inductive Node.WellFormed : Node → Prop where
  | integer {token : String} (htoken : IsInteger token.toList) : WellFormed (.integer token)
  | string {token : String} (htoken : IsString token.toList) : WellFormed (.string token)
  | name {text : String} (htext : IsName text.toList) : WellFormed (.name text)
  | call {children : List Node} (hne : children ≠ [])
      (hall : ∀ child ∈ children, WellFormed child) : WellFormed (.call children)

namespace Node

mutual

/-- How deep calls are nested in a node. -/
def nesting : Node → Nat
  | .integer _ | .string _ | .name _ => 0
  | .call children => nestingOfAll children + 1

/-- How deep calls are nested in several nodes. -/
def nestingOfAll : List Node → Nat
  | [] => 0
  | node :: rest => max (nesting node) (nestingOfAll rest)

end

theorem nestingOfAll_le_iff {nodes : List Node} {depth : Nat} :
    nestingOfAll nodes ≤ depth ↔ ∀ node ∈ nodes, node.nesting ≤ depth := by
  induction nodes with
  | nil => simp [nestingOfAll]
  | cons node rest ih =>
    rw [nestingOfAll, Nat.max_le, ih]
    simp

end Node

/-- A unit of source text. -/
inductive Lexeme where
  /-- An opening parenthesis. -/
  | opening
  /-- A closing parenthesis. -/
  | closing
  /-- An integer or a name. -/
  | bare (text : String)
  /-- A string token. -/
  | quoted (token : String)

namespace Lexeme

/-- The characters of a lexeme. -/
def chars : Lexeme → List Char
  | .opening => ['(']
  | .closing => [')']
  | .bare text => text.toList
  | .quoted token => token.toList

/-- Whether a lexeme is bare text. -/
def isWord : Lexeme → Bool
  | .bare _ => true
  | _ => false

/-- A lexeme whose text is of its class. -/
def Valid : Lexeme → Prop
  | .opening | .closing => True
  | .bare text => IsBareText text.toList
  | .quoted token => IsString token.toList

end Lexeme

namespace Node

mutual

/-- The lexemes of a node from left to right. -/
def lexemes : Node → List Lexeme
  | .integer token => [.bare token]
  | .string token => [.quoted token]
  | .name text => [.bare text]
  | .call children => .opening :: (lexemesOfAll children ++ [.closing])

/-- The lexemes of several nodes from left to right. -/
def lexemesOfAll : List Node → List Lexeme
  | [] => []
  | node :: rest => lexemes node ++ lexemesOfAll rest

end

theorem lexemesOfAll_append (nodes others : List Node) :
    lexemesOfAll (nodes ++ others) = lexemesOfAll nodes ++ lexemesOfAll others := by
  induction nodes with
  | nil => rfl
  | cons node rest ih => simp [lexemesOfAll, ih]

end Node

/-- A text in which the given lexemes stand in order, with blanks before, between and after them.
The flag says that a bare token stands right before the text; bare text that follows is then kept
apart by a blank. -/
inductive Laid : Bool → List Lexeme → List Char → Prop where
  | done {afterBare : Bool} {gap : List Char} (hgap : IsGap gap) : Laid afterBare [] gap
  | next {afterBare : Bool} {gap : List Char} {lexeme : Lexeme} {rest : List Lexeme}
      {text : List Char} (hgap : IsGap gap)
      (hapart : afterBare = true → lexeme.isWord = true → gap ≠ [])
      (hrest : Laid lexeme.isWord rest text) :
      Laid afterBare (lexeme :: rest) (gap ++ (lexeme.chars ++ text))

/-- A layout of a program: a text that spells its lexemes, where the program follows the grammar and
nests its calls no deeper than a source text may. -/
structure Program.LaidOut (program : Program) (source : String) : Prop where
  laid : Laid false (Node.lexemesOfAll program) source.toList
  wellFormed : ∀ node ∈ program, node.WellFormed
  nesting_le : Node.nestingOfAll program ≤ maxNesting

end Reduct
