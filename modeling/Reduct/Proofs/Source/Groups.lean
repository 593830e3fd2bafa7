import Reduct.Proofs.Source.Layout
import Reduct.Source.Grammar

/-!
# Reading lexemes

Between characters and trees stands a machine that reads whole lexemes.  Its state is the stack of
open groups, and it reads exactly the lexemes of well-formed programs.

## Main definitions

* `Groups` — the open groups with their complete nodes.
* `Groups.take`, `Groups.takeAll` — what one lexeme and what several lexemes do.
* `Groups.lexemes` — the lexemes that have been read.

## Main results

* `Groups.takeAll_lexemes` — the lexemes of a well-formed node add that node.
* `Groups.takeAll_empty_iff` — the runs that close every group are those of well-formed programs.
-/

namespace Reduct

theorem isIntegerToken_iff {cs : List Char} : isIntegerToken cs = true ↔ IsInteger cs := by
  have hrun : ∀ ds : List Char, (!ds.isEmpty && ds.all Char.isDigit) = true ↔
      ds ≠ [] ∧ ∀ c ∈ ds, '0' ≤ c ∧ c ≤ '9' := by
    intro ds
    simp [isDigit_iff]
  unfold isIntegerToken
  split
  · next digits =>
    rw [hrun]
    constructor
    · rintro ⟨hne, hall⟩
      exact ⟨digits, hne, hall, .inr rfl⟩
    · rintro ⟨ds, hne, hall, rfl | heq⟩
      · exact absurd (hall '-' (List.mem_cons_self ..)) (by decide)
      · cases heq
        exact ⟨hne, hall⟩
  · next hminus =>
    rw [hrun]
    constructor
    · rintro ⟨hne, hall⟩
      exact ⟨cs, hne, hall, .inl rfl⟩
    · rintro ⟨ds, hne, hall, rfl | rfl⟩
      · exact ⟨hne, hall⟩
      · exact absurd rfl (hminus ds)

theorem bareChar_of_digit {c : Char} (h : '0' ≤ c ∧ c ≤ '9') :
    Text.isBlank c = false ∧ c ≠ '(' ∧ c ≠ ')' ∧ c ≠ '"' := by
  have hrange : 48 ≤ c.toNat ∧ c.toNat ≤ 57 := h
  refine ⟨?_, ?_, ?_, ?_⟩
  · simp only [Text.isBlank, Text.Span.covers, Text.blankSpans, List.any_cons, List.any_nil,
      Bool.or_false, Bool.or_eq_false_iff, Bool.and_eq_false_iff, decide_eq_false_iff_not]
    omega
  all_goals
    rintro rfl
    exact absurd h (by decide)

theorem IsInteger.isBareText {cs : List Char} (h : IsInteger cs) : IsBareText cs := by
  obtain ⟨digits, hne, hall, rfl | rfl⟩ := h
  · exact ⟨hne, fun c hc => bareChar_of_digit (hall c hc)⟩
  · refine ⟨by simp, List.forall_mem_cons.mpr ⟨by decide, ?_⟩⟩
    exact fun c hc => bareChar_of_digit (hall c hc)

theorem Node.wellFormed_ofBare {cs : List Char} (h : IsBareText cs) :
    (Node.ofBare cs).WellFormed := by
  unfold Node.ofBare
  split
  · next hint =>
    exact .integer (by simpa using isIntegerToken_iff.mp hint)
  · next hint =>
    exact .name (by simpa using ⟨h, fun hc => hint (isIntegerToken_iff.mpr hc)⟩)

theorem Node.lexemes_ofBare (text : String) : (Node.ofBare text.toList).lexemes = [.bare text] := by
  unfold Node.ofBare
  split <;> simp [Node.lexemes]

theorem Node.mem_lexemesOfAll {nodes : List Node} {lexeme : Lexeme} :
    lexeme ∈ lexemesOfAll nodes ↔ ∃ node ∈ nodes, lexeme ∈ node.lexemes := by
  induction nodes with
  | nil => simp [lexemesOfAll]
  | cons node rest ih => simp [lexemesOfAll, ih]

theorem Node.WellFormed.valid_lexemes {node : Node} (h : node.WellFormed) :
    ∀ lexeme ∈ node.lexemes, lexeme.Valid := by
  induction h with
  | integer htoken => simpa [Node.lexemes, Lexeme.Valid] using htoken.isBareText
  | string htoken => simpa [Node.lexemes, Lexeme.Valid] using htoken
  | name htext => simpa [Node.lexemes, Lexeme.Valid] using htext.1
  | call _ _ ih =>
    intro lexeme hmem
    simp only [Node.lexemes, List.mem_cons, List.mem_append, List.not_mem_nil, or_false] at hmem
    rcases hmem with rfl | hmem | rfl
    · trivial
    · obtain ⟨child, hchild, hmem⟩ := Node.mem_lexemesOfAll.mp hmem
      exact ih child hchild lexeme hmem
    · trivial

/-- The open groups: the complete nodes of the innermost one and of those around it, in each group
the last node first. -/
structure Groups where
  nodes : List Node
  outer : List (List Node)

namespace Groups

/-- No node has been read and no call is open. -/
def empty : Groups := ⟨[], []⟩

/-- Adds a complete node to the innermost group. -/
def push (g : Groups) (node : Node) : Groups := ⟨node :: g.nodes, g.outer⟩

/-- Reads one lexeme. -/
def take (g : Groups) : Lexeme → Option Groups
  | .opening => if maxNesting ≤ g.outer.length then none else some ⟨[], g.nodes :: g.outer⟩
  | .closing =>
    match g.outer with
    | [] => none
    | before :: outer =>
      if g.nodes.isEmpty then none else some ⟨.call g.nodes.reverse :: before, outer⟩
  | .bare text => some (g.push (Node.ofBare text.toList))
  | .quoted token => some (g.push (.string token))

/-- Reads several lexemes. -/
def takeAll (g : Groups) (lexemes : List Lexeme) : Option Groups := lexemes.foldlM take g

@[simp]
theorem takeAll_nil (g : Groups) : g.takeAll [] = some g := rfl

@[simp]
theorem takeAll_cons (g : Groups) (lexeme : Lexeme) (rest : List Lexeme) :
    g.takeAll (lexeme :: rest) = (g.take lexeme).bind fun g => g.takeAll rest := by
  simp [takeAll]

/-- Adds nodes from left to right. -/
def pushAll (g : Groups) (nodes : List Node) : Groups := ⟨nodes.reverse ++ g.nodes, g.outer⟩

theorem takeAll_lexemesOfAll {nodes : List Node}
    (h : ∀ node ∈ nodes, ∀ (g : Groups) (rest : List Lexeme),
      g.outer.length + node.nesting ≤ maxNesting →
        g.takeAll (node.lexemes ++ rest) = (g.push node).takeAll rest)
    (g : Groups) (rest : List Lexeme)
    (hdepth : ∀ node ∈ nodes, g.outer.length + node.nesting ≤ maxNesting) :
    g.takeAll (Node.lexemesOfAll nodes ++ rest) = (g.pushAll nodes).takeAll rest := by
  induction nodes generalizing g with
  | nil => rfl
  | cons node nodes ih =>
    rw [List.forall_mem_cons] at h hdepth
    rw [Node.lexemesOfAll, List.append_assoc, h.1 g _ hdepth.1, ih h.2 (g.push node) hdepth.2]
    simp [pushAll, push]

/-- The lexemes of a well-formed node add that node to the innermost group. -/
theorem takeAll_lexemes {node : Node} (h : node.WellFormed) (g : Groups) (rest : List Lexeme)
    (hdepth : g.outer.length + node.nesting ≤ maxNesting) :
    g.takeAll (node.lexemes ++ rest) = (g.push node).takeAll rest := by
  induction h generalizing g rest with
  | @integer token htoken =>
    have hnode : Node.ofBare token.toList = .integer token := by
      simp [Node.ofBare, isIntegerToken_iff.mpr htoken]
    simp [Node.lexemes, take, hnode]
  | string => simp [Node.lexemes, take]
  | @name text htext =>
    have hnode : Node.ofBare text.toList = .name text := by
      simp [Node.ofBare, mt isIntegerToken_iff.mp htext.2]
    simp [Node.lexemes, take, hnode]
  | @call children hne _ ih =>
    rw [Node.nesting] at hdepth
    have hroom : ¬maxNesting ≤ g.outer.length := by omega
    have hmembers : ∀ child ∈ children, (g.outer.length + 1) + child.nesting ≤ maxNesting := by
      intro child hmem
      have hchild := Node.nestingOfAll_le_iff.mp (Nat.le_refl _) child hmem
      omega
    -- The members are read into a group of their own, which the closing lexeme turns into the call.
    have hrun := takeAll_lexemesOfAll ih ⟨[], g.nodes :: g.outer⟩ (.closing :: rest) hmembers
    rw [Node.lexemes, List.cons_append, takeAll_cons, take, if_neg hroom, Option.bind_some,
      List.append_assoc, List.singleton_append, hrun]
    simp [pushAll, push, take, hne]

/-- The lexemes that have been read, for given nodes around the innermost group. -/
def outerLexemes : List (List Node) → List Lexeme
  | [] => []
  | before :: outer => outerLexemes outer ++ Node.lexemesOfAll before.reverse ++ [.opening]

/-- The lexemes that have been read. -/
def lexemes (g : Groups) : List Lexeme := outerLexemes g.outer ++ Node.lexemesOfAll g.nodes.reverse

/-- Nodes that may stand below so many open calls. -/
def Fit (depth : Nat) (nodes : List Node) : Prop :=
  ∀ node ∈ nodes, node.WellFormed ∧ depth + node.nesting ≤ maxNesting

/-- The groups around the innermost one hold nodes that fit. -/
def OuterFit : List (List Node) → Prop
  | [] => True
  | before :: outer => outer.length < maxNesting ∧ Fit outer.length before ∧ OuterFit outer

/-- All nodes that have been read are well-formed and stand at a permitted depth. -/
structure Sound (g : Groups) : Prop where
  nodes : Fit g.outer.length g.nodes
  outer : OuterFit g.outer

theorem sound_empty : empty.Sound := by
  refine ⟨?_, trivial⟩
  intro node hmem
  cases hmem

theorem Sound.length_outer_le {g : Groups} (h : g.Sound) : g.outer.length ≤ maxNesting := by
  obtain ⟨nodes, outer⟩ := g
  cases outer with
  | nil => exact Nat.zero_le _
  | cons before outer => exact h.outer.1

theorem Sound.push {g : Groups} {node : Node} (h : g.Sound) (hnode : node.WellFormed)
    (hdepth : g.outer.length + node.nesting ≤ maxNesting) : (g.push node).Sound := by
  refine ⟨?_, h.outer⟩
  intro other hmem
  rcases List.mem_cons.mp hmem with rfl | hmem
  · exact ⟨hnode, hdepth⟩
  · exact h.nodes other hmem

theorem Fit.call {depth : Nat} {nodes : List Node} (h : Fit (depth + 1) nodes) (hne : nodes ≠ [])
    (hdepth : depth < maxNesting) :
    (Node.call nodes.reverse).WellFormed ∧
      depth + (Node.call nodes.reverse).nesting ≤ maxNesting := by
  refine ⟨.call (by simpa using hne) ?_, ?_⟩
  · intro child hmem
    exact (h child (by simpa using hmem)).1
  · have hmembers : Node.nestingOfAll nodes.reverse ≤ maxNesting - (depth + 1) := by
      rw [Node.nestingOfAll_le_iff]
      intro child hmem
      have hchild := (h child (by simpa using hmem)).2
      omega
    rw [Node.nesting]
    omega

@[simp]
theorem lexemes_push (g : Groups) (node : Node) :
    (g.push node).lexemes = g.lexemes ++ node.lexemes := by
  simp [lexemes, push, Node.lexemesOfAll_append, Node.lexemesOfAll]

/-- One lexeme that is read keeps the groups sound and is written down after those before it. -/
theorem Sound.take {g g' : Groups} {lexeme : Lexeme} (h : g.Sound) (hvalid : lexeme.Valid)
    (htake : g.take lexeme = some g') : g'.Sound ∧ g'.lexemes = g.lexemes ++ [lexeme] := by
  cases lexeme with
  | opening =>
    simp only [Groups.take, Option.ite_none_left_eq_some] at htake
    obtain ⟨hroom, heq⟩ := htake
    cases heq
    refine ⟨⟨?_, by omega, h.nodes, h.outer⟩, ?_⟩
    · intro node hmem
      cases hmem
    · simp [lexemes, outerLexemes, Node.lexemesOfAll]
  | closing =>
    obtain ⟨nodes, outer⟩ := g
    cases outer with
    | nil => cases htake
    | cons before outer =>
      simp only [Groups.take, Option.ite_none_left_eq_some, List.isEmpty_iff] at htake
      obtain ⟨hne, heq⟩ := htake
      cases heq
      obtain ⟨hdepth, hbefore, houter⟩ := h.outer
      have hcall := Fit.call h.nodes hne hdepth
      refine ⟨Sound.push (g := ⟨before, outer⟩) ⟨hbefore, houter⟩ hcall.1 hcall.2, ?_⟩
      simp [lexemes, outerLexemes, Node.lexemesOfAll, Node.lexemesOfAll_append, Node.lexemes]
  | bare text =>
    cases htake
    have hlen := h.length_outer_le
    have hnode : (Node.ofBare text.toList).nesting = 0 := by
      unfold Node.ofBare
      split <;> rfl
    refine ⟨h.push (Node.wellFormed_ofBare hvalid) (by omega), ?_⟩
    rw [lexemes_push, Node.lexemes_ofBare]
  | quoted token =>
    cases htake
    have hlen := h.length_outer_le
    refine ⟨h.push (.string hvalid) (by simpa [Node.nesting] using hlen), ?_⟩
    rw [lexemes_push, Node.lexemes]

/-- Reading keeps the groups sound and loses no lexeme. -/
theorem Sound.takeAll {g g' : Groups} {lexemes : List Lexeme} (h : g.Sound)
    (hvalid : ∀ lexeme ∈ lexemes, lexeme.Valid) (htake : g.takeAll lexemes = some g') :
    g'.Sound ∧ g'.lexemes = g.lexemes ++ lexemes := by
  induction lexemes generalizing g with
  | nil =>
    cases htake
    exact ⟨h, by simp⟩
  | cons lexeme rest ih =>
    rw [List.forall_mem_cons] at hvalid
    rw [takeAll_cons, Option.bind_eq_some_iff] at htake
    obtain ⟨mid, hmid, hrest⟩ := htake
    obtain ⟨hsound, hlexemes⟩ := h.take hvalid.1 hmid
    obtain ⟨hsound', hlexemes'⟩ := ih hsound hvalid.2 hrest
    exact ⟨hsound', by simp [hlexemes', hlexemes]⟩

/-- The runs that close every group are the runs over the lexemes of programs that follow the
grammar and the limit on nesting. -/
theorem takeAll_empty_iff {lexemes : List Lexeme} {program : Program}
    (hvalid : ∀ lexeme ∈ lexemes, lexeme.Valid) :
    empty.takeAll lexemes = some ⟨program.reverse, []⟩ ↔
      lexemes = Node.lexemesOfAll program ∧ (∀ node ∈ program, node.WellFormed) ∧
        Node.nestingOfAll program ≤ maxNesting := by
  constructor
  · intro htake
    obtain ⟨hsound, hlexemes⟩ := sound_empty.takeAll hvalid htake
    refine ⟨?_, ?_, ?_⟩
    · simpa [Groups.lexemes, outerLexemes, empty, Node.lexemesOfAll] using hlexemes.symm
    · intro node hmem
      exact (hsound.nodes node (by simpa using hmem)).1
    · rw [Node.nestingOfAll_le_iff]
      intro node hmem
      simpa using (hsound.nodes node (by simpa using hmem)).2
  · rintro ⟨rfl, hwf, hdepth⟩
    rw [Node.nestingOfAll_le_iff] at hdepth
    have hrun := takeAll_lexemesOfAll (fun node hmem => takeAll_lexemes (hwf node hmem)) empty []
      (by simpa [empty] using hdepth)
    simpa [pushAll, empty] using hrun

end Groups

end Reduct
