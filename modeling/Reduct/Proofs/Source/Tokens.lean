import Reduct.Proofs.Text.Denotation
import Reduct.Proofs.Text.Numeral
import Reduct.Term.OfNode

/-!
# Tokens of parsed texts

A text is parsed before its tokens are converted, and the two stages have their own notions of a
token.  At whatever depth a token stands in a parsed program, it is of the class that the conversion
expects, and it is converted exactly if it has a meaning.

## Main definitions

* `Node.parts` — a node and all nodes in it, each one before its members.

## Main results

* `Program.wellFormed_of_mem_parts` — all parts of a parsed program follow the grammar.
* `Program.toTerm_string_iff_items` — the string tokens of a parsed program.
* `Node.toTerm_integer_iff_numeral` — integer tokens, those of parsed programs among them.
-/

namespace Reduct

namespace Node

mutual

/-- A node and all nodes in it, from left to right and each one before its members. -/
def parts : Node → List Node
  | .call children => .call children :: partsOfAll children
  | node => [node]

/-- Several nodes and all nodes in them. -/
def partsOfAll : List Node → List Node
  | [] => []
  | node :: rest => parts node ++ partsOfAll rest

end

theorem mem_partsOfAll {nodes : List Node} {part : Node} :
    part ∈ partsOfAll nodes ↔ ∃ node ∈ nodes, part ∈ node.parts := by
  induction nodes with
  | nil => simp [partsOfAll]
  | cons node rest ih => simp [partsOfAll, ih]

/-- The parts of a node that follows the grammar follow it too. -/
theorem WellFormed.of_mem_parts {node part : Node} (h : node.WellFormed)
    (hpart : part ∈ node.parts) : part.WellFormed := by
  induction h with
  | integer htoken =>
    obtain rfl := List.mem_singleton.mp hpart
    exact .integer htoken
  | string htoken =>
    obtain rfl := List.mem_singleton.mp hpart
    exact .string htoken
  | name htext =>
    obtain rfl := List.mem_singleton.mp hpart
    exact .name htext
  | call hne hall ih =>
    rw [parts, List.mem_cons, mem_partsOfAll] at hpart
    rcases hpart with rfl | ⟨child, hchild, hpart⟩
    · exact .call hne hall
    · exact ih child hchild hpart

theorem toTerm_string_eq_ok_iff {token : String} {t : Term} :
    (Node.string token).toTerm = .ok t ↔
      ∃ text, t = .str text ∧ Text.Quoted.decode token = .ok text := by
  rw [toTerm_string, stringTerm]
  cases Text.Quoted.decode token with
  | error complaint => simp
  | ok text => simp [eq_comm]

theorem toTerm_integer_eq_ok_iff {token : String} {t : Term} :
    (Node.integer token).toTerm = .ok t ↔ ∃ n, t = .int n ∧ Word.read? token = some n := by
  rw [toTerm_integer, integerTerm, Word.readByDigits?_eq_read?]
  cases Word.read? token with
  | none => simp
  | some n => simp [eq_comm]

theorem toTerm_integer_eq_error_iff {token : String} {e : ReadError} :
    (Node.integer token).toTerm = .error e ↔ e = .integerRange token ∧ Word.read? token = none := by
  rw [toTerm_integer, integerTerm, Word.readByDigits?_eq_read?]
  cases Word.read? token with
  | none => simp [eq_comm]
  | some n => simp

/-- A token has no value exactly if it is no numeral or its value is no word. -/
theorem toTerm_integer_eq_integerRange_iff {token : String} :
    (Node.integer token).toTerm = .error (.integerRange token) ↔
      ¬∃ n, Numeral token.toList n ∧ Word.InRange n := by
  rw [toTerm_integer_eq_error_iff, Option.eq_none_iff_forall_ne_some]
  simp only [true_and, Ne, Word.read?_eq_some_iff]
  constructor
  · rintro h ⟨n, hnumeral, hrange⟩
    obtain ⟨w, hw⟩ := Word.inRange_iff.mp hrange
    rw [Word.ofInt?_eq_some_iff] at hw
    exact h w (hw ▸ hnumeral)
  · intro h w hw
    exact h ⟨w.toInt, hw, Word.inRange_toInt w⟩

end Node

namespace Program

/-- All parts of a parsed program follow the grammar. -/
theorem wellFormed_of_mem_parts {source : String} {program : Program} {part : Node}
    (hparse : parse source = .ok program) (hpart : part ∈ Node.partsOfAll program) :
    part.WellFormed := by
  obtain ⟨node, hnode, hpart⟩ := Node.mem_partsOfAll.mp hpart
  exact ((parse_eq_ok_iff.mp hparse).wellFormed node hnode).of_mem_parts hpart

/-- A string token of a parsed program is converted exactly if the text between its quotes is a
sequence of items, and then to the text that these stand for.  Otherwise it is rejected as it is
written, for a fault between its quotes. -/
theorem toTerm_string_iff_items (source : String) (program : Program)
    (hparse : parse source = .ok program) (token : String)
    (hmem : .string token ∈ Node.partsOfAll program) :
    ∃ body : List Char, token.toList = '"' :: (body ++ ['"']) ∧
      (∀ t, (Node.string token).toTerm = .ok t ↔
        ∃ text : String, t = .str text ∧ Text.Quoted.Items body text.toList) ∧
      ((¬∃ cs, Text.Quoted.Items body cs) → ∃ complaint,
        (Node.string token).toTerm = .error (.badString token complaint) ∧
          complaint.fault.Inner) := by
  obtain ⟨body, hbody, htoken⟩ : IsString token.toList := by
    cases wellFormed_of_mem_parts hparse hmem with
    | string htoken => exact htoken
  have hdecode : ∀ text, Text.Quoted.decode token = .ok text ↔ _ :=
    fun text => Text.Quoted.decode_token_eq_ok_iff hbody htoken
  refine ⟨body, htoken, ?_, ?_⟩
  · intro t
    simp only [Node.toTerm_string_eq_ok_iff, hdecode]
  · intro hnone
    cases h : Text.Quoted.decode token with
    | ok text => exact absurd ⟨_, (hdecode text).mp h⟩ hnone
    | error complaint =>
      refine ⟨complaint, ?_, Text.Quoted.inner_of_decode_token hbody htoken h⟩
      rw [Node.toTerm_string, Node.stringTerm, h]

/-- A letter, a code unit and a surrogate pair in one token, and a token in which a code unit runs
into an escaped quote. -/
theorem toTerm_string_iff_items_surrogates :
    parse "(f \"\\t\\u00e9\\ud83d\\uDE00\" \"\\u12\\\"\")" =
        .ok [.call [.name "f", .string "\"\\t\\u00e9\\ud83d\\uDE00\"",
          .string "\"\\u12\\\"\""]] ∧
      Text.Quoted.Items "\\t\\u00e9\\ud83d\\uDE00".toList "\té😀".toList ∧
      ∃ complaint, (Node.string "\"\\u12\\\"\"").toTerm =
        .error (.badString "\"\\u12\\\"\"" complaint) ∧ complaint.fault.Inner := by
  have hparse : parse "(f \"\\t\\u00e9\\ud83d\\uDE00\" \"\\u12\\\"\")" =
      .ok [.call [.name "f", .string "\"\\t\\u00e9\\ud83d\\uDE00\"",
        .string "\"\\u12\\\"\""]] := rfl
  have htoken : "\"\\t\\u00e9\\ud83d\\uDE00\"".toList = ['"', '\\', 't', '\\', 'u', '0', '0', 'e',
      '9', '\\', 'u', 'd', '8', '3', 'd', '\\', 'u', 'D', 'E', '0', '0', '"'] := rfl
  have hfirst : (Node.string "\"\\t\\u00e9\\ud83d\\uDE00\"").toTerm = .ok (.str "\té😀") := by
    rw [Node.toTerm_string, Node.stringTerm, Text.Quoted.decode, htoken]
    rfl
  have htoken' : "\"\\u12\\\"\"".toList = ['"', '\\', 'u', '1', '2', '\\', '"', '"'] := rfl
  have hsecond : (Node.string "\"\\u12\\\"\"").toTerm =
      .error (.badString "\"\\u12\\\"\"" ⟨.invalidEscape, 1, 7⟩) := by
    rw [Node.toTerm_string, Node.stringTerm, Text.Quoted.decode, htoken']
    rfl
  refine ⟨hparse, ?_, ?_⟩
  · obtain ⟨body, hbody, hok, -⟩ := toTerm_string_iff_items _ _ hparse
      "\"\\t\\u00e9\\ud83d\\uDE00\"" (by simp [Node.partsOfAll, Node.parts])
    obtain ⟨text, htext, hitems⟩ := (hok _).mp hfirst
    cases htext
    obtain rfl : "\\t\\u00e9\\ud83d\\uDE00".toList = body :=
      List.append_cancel_right (List.cons.inj hbody).2
    exact hitems
  · obtain ⟨body, -, hok, herror⟩ := toTerm_string_iff_items _ _ hparse
      "\"\\u12\\\"\"" (by simp [Node.partsOfAll, Node.parts])
    apply herror
    rintro ⟨cs, hitems⟩
    have hterm := (hok _).mpr ⟨String.ofList cs, rfl, by simpa using hitems⟩
    cases hsecond.symm.trans hterm

end Program

/-- An integer token is converted exactly if it is a numeral whose value is a word, and then to that
word; otherwise it is rejected as it is written.  Reading it digit by digit, with a check at every
step, comes to the same.  An integer token of a parsed program is always a numeral, so it is
rejected only for its value. -/
theorem Node.toTerm_integer_iff_numeral (token : String) :
    (∀ t, (Node.integer token).toTerm = .ok t ↔
        ∃ n : Int64, t = .int n ∧ Numeral token.toList n.toInt) ∧
      ((Node.integer token).toTerm = .error (.integerRange token) ↔
        ¬∃ n, Numeral token.toList n ∧ Word.InRange n) ∧
      Word.readByDigits? token = Word.read? token ∧
      ∀ (source : String) (program : Program), Program.parse source = .ok program →
        .integer token ∈ partsOfAll program →
          ∃ n, Numeral token.toList n ∧
            ((Node.integer token).toTerm = .error (.integerRange token) ↔ ¬Word.InRange n) := by
  refine ⟨?_, toTerm_integer_eq_integerRange_iff, Word.readByDigits?_eq_read? token, ?_⟩
  · intro t
    simp only [toTerm_integer_eq_ok_iff, Word.read?_eq_some_iff]
  · intro source program hparse hmem
    obtain ⟨n, hn⟩ : ∃ n, Numeral token.toList n := by
      cases Program.wellFormed_of_mem_parts hparse hmem with
      | integer htoken => exact htoken.exists_numeral
    refine ⟨n, hn, ?_⟩
    rw [toTerm_integer_eq_integerRange_iff, not_iff_not]
    constructor
    · rintro ⟨m, hm, hrange⟩
      exact hn.unique hm ▸ hrange
    · intro hrange
      exact ⟨n, hn, hrange⟩

/-- The least word with zeros before it, and its opposite, which is no word. -/
theorem Node.toTerm_integer_iff_numeral_minValue :
    Program.parse "(f -009223372036854775808 9223372036854775808)" =
        .ok [.call [.name "f", .integer "-009223372036854775808",
          .integer "9223372036854775808"]] ∧
      Numeral "-009223372036854775808".toList Int64.minValue.toInt ∧
      ∃ n, Numeral "9223372036854775808".toList n ∧ ¬Word.InRange n := by
  have hparse : Program.parse "(f -009223372036854775808 9223372036854775808)" =
      .ok [.call [.name "f", .integer "-009223372036854775808",
        .integer "9223372036854775808"]] := rfl
  refine ⟨hparse, ?_, ?_⟩
  · have hok : (Node.integer "-009223372036854775808").toTerm = .ok (.int Int64.minValue) :=
      toTerm_integer_eq_ok_iff.mpr ⟨_, rfl, rfl⟩
    obtain ⟨n, hn, hnumeral⟩ := ((toTerm_integer_iff_numeral _).1 _).mp hok
    cases hn
    exact hnumeral
  · have herror : (Node.integer "9223372036854775808").toTerm =
        .error (.integerRange "9223372036854775808") :=
      toTerm_integer_eq_error_iff.mpr ⟨rfl, rfl⟩
    obtain ⟨n, hn, hiff⟩ := (toTerm_integer_iff_numeral "9223372036854775808").2.2.2 _ _ hparse
      (by simp [partsOfAll, parts])
    exact ⟨n, hn, hiff.mp herror⟩

end Reduct
