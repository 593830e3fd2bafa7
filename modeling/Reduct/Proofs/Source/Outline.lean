import Mathlib.Data.List.Basic
import Reduct.Proofs.Source.Blame
import Reduct.Repl

/-!
# Outlines determine programs

An outline shows string tokens as they are written, so a token can hold line ends and text that
looks like further lines.  Nothing is lost all the same: where a token ends is said by the token
itself, and which node a line belongs to by the blanks before it.

## Main definitions

* `Node.Shallow` — text whose first line stands at a smaller depth than the given one.
* `Node.Recoverable` — a node that can be told from its lines, whatever lines follow them.
* `Text.EndsOnce` — text with one line end at its end and no other blank before it.

## Main results

* `Node.WellFormed.recoverable` — the nodes of the grammar can be told from their lines.
* `Program.outline_inj` — parsed programs with the same outline are the same.
* `Program.trimEnd_outline` — an outline without the blanks at its end lacks the last line end only.
* `Program.outline_determines_program` — both, and what a dialogue shows of an outline.
-/

namespace Reduct

/-! ### Where tokens end -/

/-- The quote that ends a string token is found without looking at what follows. -/
theorem IsStringBody.append_quote_inj {body other rest rest' : List Char} (h : IsStringBody body)
    (hother : IsStringBody other) (heq : body ++ '"' :: rest = other ++ '"' :: rest') :
    body = other ∧ rest = rest' := by
  induction h generalizing other with
  | nil =>
    cases other with
    | nil => exact ⟨rfl, (List.cons.inj heq).2⟩
    | cons d other =>
      obtain ⟨rfl, -⟩ := List.cons.inj heq
      rcases isStringBody_cons hother with ⟨hquote, -⟩ | ⟨hd, -⟩
      · exact absurd rfl hquote
      · exact absurd hd (by decide)
  | @plain c body hquote hslash _ ih =>
    cases other with
    | nil => exact absurd (List.cons.inj heq).1 hquote
    | cons d other =>
      obtain ⟨rfl, htail⟩ := List.cons.inj heq
      rcases isStringBody_cons hother with ⟨-, -, hother⟩ | ⟨hc, -⟩
      · obtain ⟨rfl, rfl⟩ := ih hother htail
        exact ⟨rfl, rfl⟩
      · exact absurd hc hslash
  | @escaped c body _ ih =>
    cases other with
    | nil => cases heq
    | cons d other =>
      obtain ⟨rfl, htail⟩ := List.cons.inj heq
      rcases isStringBody_cons hother with ⟨-, hslash, -⟩ | ⟨-, e, other, rfl, hrest⟩
      · exact absurd rfl hslash
      · obtain ⟨rfl, hinner⟩ := List.cons.inj htail
        obtain ⟨rfl, rfl⟩ := ih hrest hinner
        exact ⟨rfl, rfl⟩

/-- A string token ends where it says so. -/
theorem IsString.append_newline_inj {token other : String} {rest rest' : List Char}
    (h : IsString token.toList) (hother : IsString other.toList)
    (heq : token.toList ++ '\n' :: rest = other.toList ++ '\n' :: rest') :
    token = other ∧ rest = rest' := by
  obtain ⟨body, hbody, htoken⟩ := h
  obtain ⟨body', hbody', htoken'⟩ := hother
  have hquotes : body ++ '"' :: '\n' :: rest = body' ++ '"' :: '\n' :: rest' := by
    simpa [htoken, htoken'] using heq
  obtain ⟨rfl, hrest⟩ := hbody.append_quote_inj hbody' hquotes
  exact ⟨String.toList_inj.mp (htoken.trans htoken'.symm), (List.cons.inj hrest).2⟩

/-- Bare text ends at the first line end. -/
theorem IsBareText.append_newline_inj {token other : String} {rest rest' : List Char}
    (h : IsBareText token.toList) (hother : IsBareText other.toList)
    (heq : token.toList ++ '\n' :: rest = other.toList ++ '\n' :: rest') :
    token = other ∧ rest = rest' := by
  have hnewline : ∀ {cs more tail tail' : List Char}, IsBareText (cs ++ more) →
      '\n' :: tail = more ++ '\n' :: tail' → more = [] ∧ tail = tail' := by
    intro cs more tail tail' hbare hmore
    cases more with
    | nil => exact ⟨rfl, (List.cons.inj hmore).2⟩
    | cons c more =>
      obtain ⟨rfl, -⟩ := List.cons.inj hmore
      exact absurd (hbare.2 '\n' (by simp)).1 (by decide)
  -- One of the two texts is the beginning of the other, and what is left over holds no line end.
  rcases List.append_eq_append_iff.mp heq with ⟨more, hmore, htail⟩ | ⟨more, hmore, htail⟩
  · obtain ⟨rfl, rfl⟩ := hnewline (hmore ▸ hother) htail
    exact ⟨String.toList_inj.mp (by simpa using hmore.symm), rfl⟩
  · obtain ⟨rfl, rfl⟩ := hnewline (hmore ▸ h) htail
    exact ⟨String.toList_inj.mp (by simpa using hmore), rfl⟩

namespace Node

variable {node other : Node} {nodes others : List Node} {depth : Nat} {rest rest' : List Char}

/-! ### Where lines stand -/

/-- The letter that the line of a node starts with. -/
def initial : Node → Char
  | .integer _ => 'i'
  | .string _ => 's'
  | .name _ => 'n'
  | .call _ => 'c'

theorem initial_ne_blank (node : Node) : node.initial ≠ ' ' := by
  cases node <;> simp [initial]

theorem exists_lines_eq (depth : Nat) (node : Node) :
    ∃ rest, lines depth node = indent depth ++ node.initial :: rest := by
  cases node <;> simp [lines, tokenLine, initial]

/-- The blanks before a line tell its depth. -/
theorem indent_append_inj {d e : Nat} {a b : Char} (ha : a ≠ ' ') (hb : b ≠ ' ')
    (h : indent d ++ a :: rest = indent e ++ b :: rest') : d = e ∧ a = b := by
  have hblanks : ∀ (k : Nat) (c : Char) (cs : List Char), c ≠ ' ' →
      (indent k ++ c :: cs).takeWhile (· = ' ') = List.replicate (2 * k) ' ' := by
    intro k c cs hc
    rw [indent, List.takeWhile_append_of_pos (by simp),
      List.takeWhile_cons_of_neg (by simpa using hc), List.append_nil]
  have hlength := congrArg List.length
    ((hblanks d a rest ha).symm.trans (h ▸ hblanks e b rest' hb))
  simp only [List.length_replicate] at hlength
  obtain rfl : d = e := by omega
  exact ⟨rfl, (List.cons.inj (List.append_cancel_left h)).1⟩

/-- Text whose first line, if there is one, stands at a smaller depth. -/
def Shallow (depth : Nat) (text : List Char) : Prop :=
  text = [] ∨ ∃ d c rest, d < depth ∧ c ≠ ' ' ∧ text = indent d ++ c :: rest

/-- The lines of a node are no shallower text than the depth they stand at. -/
theorem Shallow.ne_lines (h : Shallow depth rest) (node : Node) (rest' : List Char) :
    rest ≠ lines depth node ++ rest' := by
  obtain ⟨tail, hlines⟩ := exists_lines_eq depth node
  rw [hlines, List.append_assoc, List.cons_append]
  rintro rfl
  rcases h with h | ⟨d, c, cs, hd, hc, h⟩
  · simp at h
  · obtain ⟨rfl, -⟩ := indent_append_inj node.initial_ne_blank hc h
    exact absurd hd (Nat.lt_irrefl _)

theorem shallow_linesOfAll (nodes : List Node) (h : Shallow depth rest) :
    Shallow (depth + 1) (linesOfAll depth nodes ++ rest) := by
  cases nodes with
  | nil =>
    rcases h with rfl | ⟨d, c, cs, hd, hc, rfl⟩
    · exact .inl rfl
    · exact .inr ⟨d, c, cs, by omega, hc, rfl⟩
  | cons node nodes =>
    obtain ⟨tail, hlines⟩ := exists_lines_eq depth node
    refine .inr ⟨depth, node.initial, tail ++ (linesOfAll depth nodes ++ rest), by omega,
      node.initial_ne_blank, ?_⟩
    rw [linesOfAll, hlines, List.append_assoc, List.append_assoc]
    rfl

/-! ### Nodes from lines -/

/-- A node that can be told from its lines, whatever lines follow at no greater depth. -/
def Recoverable (node : Node) : Prop :=
  ∀ ⦃other : Node⦄ ⦃depth : Nat⦄ ⦃rest rest' : List Char⦄, other.WellFormed →
    Shallow (depth + 1) rest → Shallow (depth + 1) rest' →
      lines depth node ++ rest = lines depth other ++ rest' → node = other ∧ rest = rest'

theorem tokenLine_append_inj {rule token token' : String}
    (heq : tokenLine depth rule token ++ rest = tokenLine depth rule token' ++ rest') :
    token.toList ++ '\n' :: rest = token'.toList ++ '\n' :: rest' := by
  have hsplit : ∀ (token : String) (rest : List Char), tokenLine depth rule token ++ rest =
      (indent depth ++ rule.toList ++ ['\t']) ++ (token.toList ++ '\n' :: rest) := by
    intro token rest
    simp [tokenLine]
  rw [hsplit, hsplit] at heq
  exact List.append_cancel_left heq

/-- The nodes of a group can be told from their lines, if each of them can. -/
theorem linesOfAll_append_inj (h : ∀ node ∈ nodes, node.Recoverable)
    (hothers : ∀ other ∈ others, other.WellFormed) (hrest : Shallow depth rest)
    (hrest' : Shallow depth rest')
    (heq : linesOfAll depth nodes ++ rest = linesOfAll depth others ++ rest') :
    nodes = others ∧ rest = rest' := by
  induction nodes generalizing others with
  | nil =>
    cases others with
    | nil => exact ⟨rfl, heq⟩
    | cons other others =>
      rw [linesOfAll, linesOfAll, List.append_assoc] at heq
      exact absurd heq (hrest.ne_lines other _)
  | cons node nodes ih =>
    cases others with
    | nil =>
      rw [linesOfAll, linesOfAll, List.append_assoc] at heq
      exact absurd heq.symm (hrest'.ne_lines node _)
    | cons other others =>
      rw [List.forall_mem_cons] at h hothers
      rw [linesOfAll, linesOfAll, List.append_assoc, List.append_assoc] at heq
      obtain ⟨rfl, htail⟩ := h.1 hothers.1 (shallow_linesOfAll nodes hrest)
        (shallow_linesOfAll others hrest') heq
      obtain ⟨rfl, rfl⟩ := ih h.2 hothers.2 htail
      exact ⟨rfl, rfl⟩

theorem initial_eq_of_lines (heq : lines depth node ++ rest = lines depth other ++ rest') :
    node.initial = other.initial := by
  obtain ⟨tail, hlines⟩ := exists_lines_eq depth node
  obtain ⟨tail', hlines'⟩ := exists_lines_eq depth other
  rw [hlines, hlines', List.append_assoc, List.append_assoc] at heq
  exact (indent_append_inj node.initial_ne_blank other.initial_ne_blank heq).2

/-- The nodes of the grammar can be told from their lines. -/
theorem WellFormed.recoverable (h : node.WellFormed) : node.Recoverable := by
  induction h with
  | integer htoken =>
    intro other depth rest rest' hother _ _ heq
    have hinitial := initial_eq_of_lines heq
    cases hother with
    | integer htoken' =>
      obtain ⟨rfl, rfl⟩ := htoken.isBareText.append_newline_inj htoken'.isBareText
        (tokenLine_append_inj heq)
      exact ⟨rfl, rfl⟩
    | _ => cases hinitial
  | string htoken =>
    intro other depth rest rest' hother _ _ heq
    have hinitial := initial_eq_of_lines heq
    cases hother with
    | string htoken' =>
      obtain ⟨rfl, rfl⟩ := htoken.append_newline_inj htoken' (tokenLine_append_inj heq)
      exact ⟨rfl, rfl⟩
    | _ => cases hinitial
  | name htext =>
    intro other depth rest rest' hother _ _ heq
    have hinitial := initial_eq_of_lines heq
    cases hother with
    | name htext' =>
      obtain ⟨rfl, rfl⟩ := htext.1.append_newline_inj htext'.1 (tokenLine_append_inj heq)
      exact ⟨rfl, rfl⟩
    | _ => cases hinitial
  | call _ _ ih =>
    intro other depth rest rest' hother hrest hrest' heq
    have hinitial := initial_eq_of_lines heq
    cases hother with
    | call _ hchildren' =>
      simp only [lines, List.append_assoc, List.append_cancel_left_eq] at heq
      obtain ⟨rfl, rfl⟩ := linesOfAll_append_inj ih hchildren' hrest hrest' heq
      exact ⟨rfl, rfl⟩
    | _ => cases hinitial

end Node

/-! ### The end of an outline -/

/-- Text with one line end at its end and no other blank before it. -/
def Text.EndsOnce (cs : List Char) : Prop :=
  ∃ before c, isBlank c = false ∧ cs = before ++ [c, '\n']

theorem Text.EndsOnce.append {cs : List Char} (h : EndsOnce cs) (before : List Char) :
    EndsOnce (before ++ cs) := by
  obtain ⟨middle, c, hc, rfl⟩ := h
  exact ⟨before ++ middle, c, hc, by simp⟩

/-- Dropping the blanks at the end of such a text drops the line end and nothing else. -/
theorem Text.EndsOnce.dropBlanksEnd_append {cs : List Char} (h : EndsOnce cs) :
    dropBlanksEnd cs ++ ['\n'] = cs := by
  obtain ⟨before, c, hc, rfl⟩ := h
  have hnewline : isBlank '\n' = true := by decide
  simp [dropBlanksEnd, hnewline, hc]

namespace Node

variable {node : Node} {nodes : List Node}

theorem endsOnce_tokenLine {rule token : String} {cs : List Char} {c : Char}
    (htoken : token.toList = cs ++ [c]) (hc : Text.isBlank c = false) (depth : Nat) :
    Text.EndsOnce (tokenLine depth rule token) :=
  ⟨indent depth ++ rule.toList ++ '\t' :: cs, c, hc, by simp [tokenLine, htoken]⟩

theorem endsOnce_tokenLine_of_bare {rule token : String} (h : IsBareText token.toList)
    (depth : Nat) : Text.EndsOnce (tokenLine depth rule token) := by
  have hlast := List.dropLast_append_getLast h.1
  exact endsOnce_tokenLine hlast.symm (h.2 _ (List.getLast_mem h.1)).1 depth

theorem endsOnce_linesOfAll {depth : Nat} (hne : nodes ≠ [])
    (h : ∀ node ∈ nodes, Text.EndsOnce (lines depth node)) :
    Text.EndsOnce (linesOfAll depth nodes) := by
  induction nodes with
  | nil => exact absurd rfl hne
  | cons node nodes ih =>
    rw [List.forall_mem_cons] at h
    rw [linesOfAll]
    by_cases hnil : nodes = []
    · subst hnil
      simpa [linesOfAll] using h.1
    · exact (ih hnil h.2).append _

/-- The lines of a node end like its last token. -/
theorem WellFormed.endsOnce (h : node.WellFormed) (depth : Nat) :
    Text.EndsOnce (lines depth node) := by
  induction h generalizing depth with
  | integer htoken => exact endsOnce_tokenLine_of_bare htoken.isBareText depth
  | @string token htoken =>
    obtain ⟨body, -, htoken⟩ := htoken
    have hquote : token.toList = ('"' :: body) ++ ['"'] := htoken
    exact endsOnce_tokenLine hquote (by decide) depth
  | name htext => exact endsOnce_tokenLine_of_bare htext.1 depth
  | call hne _ ih =>
    rw [lines]
    exact (endsOnce_linesOfAll hne fun child hchild => ih child hchild (depth + 1)).append _

end Node

namespace Program

variable {source source' : String} {program other : Program}

theorem toList_outline (program : Program) :
    program.outline.toList = "start\n".toList ++ Node.linesOfAll 1 program :=
  String.toList_ofList

theorem outline_inj (h : parse source = .ok program) (hother : parse source' = .ok other)
    (heq : program.outline = other.outline) : program = other := by
  have hprogram : ∀ node ∈ program, node.Recoverable :=
    fun node hnode => ((parse_eq_ok_iff.mp h).wellFormed node hnode).recoverable
  have hwellFormed := (parse_eq_ok_iff.mp hother).wellFormed
  have hlines : Node.linesOfAll 1 program = Node.linesOfAll 1 other := by
    apply List.append_cancel_left
    rw [← toList_outline, ← toList_outline, heq]
  -- At the end of the text nothing follows, which is as shallow as can be.
  have hrest : Node.Shallow 1 [] := .inl rfl
  exact (Node.linesOfAll_append_inj hprogram hwellFormed hrest hrest (by rw [hlines])).1

/-- Without the blanks at its end an outline lacks the last line end and nothing else. -/
theorem trimEnd_outline (h : parse source = .ok program) :
    Text.trimEnd program.outline ++ "\n" = program.outline := by
  have hends : Text.EndsOnce program.outline.toList := by
    rw [toList_outline]
    by_cases hnil : program = []
    · subst hnil
      exact ⟨"star".toList, 't', by decide, by simp [Node.linesOfAll]⟩
    · have hprogram := (parse_eq_ok_iff.mp h).wellFormed
      have hnodes : Text.EndsOnce (Node.linesOfAll 1 program) :=
        Node.endsOnce_linesOfAll hnil fun node hnode => (hprogram node hnode).endsOnce 1
      exact hnodes.append _
  apply String.toList_inj.mp
  rw [Text.trimEnd, String.toList_append, String.toList_ofList]
  exact hends.dropBlanksEnd_append

/-- An outline without the blanks at its end still tells the program. -/
theorem trimEnd_outline_inj (h : parse source = .ok program) (hother : parse source' = .ok other)
    (heq : Text.trimEnd program.outline = Text.trimEnd other.outline) : program = other := by
  apply outline_inj h hother
  rw [← trimEnd_outline h, ← trimEnd_outline hother, heq]

/-- Parsed programs with the same outline are the same.  The last line end is the only blank at the
end of an outline; what a dialogue shows lacks that one character and still tells the program. -/
theorem outline_determines_program :
    (∀ (source source' : String) (program other : Program), parse source = .ok program →
        parse source' = .ok other → program.outline = other.outline → program = other) ∧
      (∀ (source : String) (program : Program), parse source = .ok program →
        Text.trimEnd program.outline ++ "\n" = program.outline) ∧
      (∀ (config : Repl.Config) (session : Session) (input : String) (program : Program),
        config.parseOnly = true → Text.trim input ≠ config.quitCommand → Text.trim input ≠ "" →
          parse (Text.trim input) = .ok program →
            Repl.respond config session input =
              pure (.print [.value (Text.trimEnd program.outline)])) ∧
      ∀ (source source' : String) (program other : Program), parse source = .ok program →
        parse source' = .ok other →
          Text.trimEnd program.outline = Text.trimEnd other.outline → program = other := by
  refine ⟨?_, ?_, ?_, ?_⟩
  · intro source source' program other h hother heq
    exact outline_inj h hother heq
  · intro source program h
    exact trimEnd_outline h
  · intro config session input program hparse hquit hblank h
    simp only [Repl.respond, hparse, if_neg hquit, if_neg hblank, if_true, Repl.outlineLine, h]
  · intro source source' program other h hother heq
    exact trimEnd_outline_inj h hother heq

/-- A string token that looks like the end of its own line and a line for a name. -/
theorem outline_determines_program_imitation :
    Repl.respond { parseOnly := true } Session.base " \"a\"\n \"\n  name\tb\" " =
        pure (.print [.value "start\n  string\t\"a\"\n  string\t\"\n  name\tb\""]) ∧
      ∀ source other, parse source = .ok other →
        Text.trimEnd other.outline = "start\n  string\t\"a\"\n  string\t\"\n  name\tb\"" →
          other = [.string "\"a\"", .string "\"\n  name\tb\""] := by
  have htrim : Text.trim " \"a\"\n \"\n  name\tb\" " = "\"a\"\n \"\n  name\tb\"" := rfl
  have hparse : parse (Text.trim " \"a\"\n \"\n  name\tb\" ") =
      .ok [.string "\"a\"", .string "\"\n  name\tb\""] := by
    rw [htrim]
    rfl
  have houtline : outline [.string "\"a\"", .string "\"\n  name\tb\""] =
      "start\n  string\t\"a\"\n  string\t\"\n  name\tb\"\n" :=
    rfl
  have hshown : Text.trimEnd (outline [.string "\"a\"", .string "\"\n  name\tb\""]) =
      "start\n  string\t\"a\"\n  string\t\"\n  name\tb\"" := by
    rw [houtline]
    rfl
  obtain ⟨-, -, hrespond, hinj⟩ := outline_determines_program
  constructor
  · have hreply := hrespond { parseOnly := true } Session.base _ _ rfl
      (by rw [htrim]; decide) (by rw [htrim]; decide) hparse
    rw [hreply, hshown]
  · intro source other hother heq
    exact hinj _ _ _ _ hother hparse (heq.trans hshown.symm)

end Program

end Reduct
