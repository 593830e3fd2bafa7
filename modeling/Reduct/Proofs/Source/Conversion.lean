import Mathlib.Data.List.Forall2
import Reduct.Proofs.Source.Tokens

/-!
# Conversion of source trees

A source tree is converted as a whole or not at all.  If every part of it can be converted on its
own, the result has one term for each top-level node and each term has the shape of its node.
Otherwise the first part that cannot be converted decides the error.

## Main definitions

* `Node.Bad` — the nodes that have no term, whatever stands around them.
* `Node.FirstBad` — the first bad one of some nodes.
* `Node.Spells` — a term has the shape of a node, with the terms of its tokens as leaves.
* `Program.ConvertsAs` — what the conversion of a program comes to, said part by part.

## Main results

* `Node.spells_of_convert` — a node that is converted spells its term and has no bad part.
* `Node.firstBad_of_convert` — a node that is not converted fails as its first bad part.
* `Program.toTerms_spells_or_fails_first` — whole programs, without a bad part and with one.

## Design notes

The trees here are arbitrary: they need not come from a text, and a token need not be of the class
that its node claims.  What a token stands for, and with which error it stands for nothing, is left
to a conversion of tokens, which is arbitrary as well.

Parts are taken in the order of `Node.parts`, each node before its members.  Since a call with
members is never bad, the first bad part is the same if nodes are taken after their members.
-/

namespace Reduct

namespace Node

variable {ε : Type}

section

variable (k : Conversion ε)

/-- A node that has no term, whatever stands around it: a token that is not converted on its own, or
a call without members. -/
inductive Bad : Node → Prop where
  | integer {token : String} {e : ε} (h : (Node.integer token).convert k = .error e) :
      Bad (.integer token)
  | string {token : String} {e : ε} (h : (Node.string token).convert k = .error e) :
      Bad (.string token)
  | childless : Bad (.call [])

/-- The first one of some nodes that is bad. -/
def FirstBad (nodes : List Node) (bad : Node) : Prop :=
  ∃ before after, nodes = before ++ bad :: after ∧ (∀ node ∈ before, ¬node.Bad k) ∧ bad.Bad k

/-- A term has the shape of a node: tokens are converted on their own, and a call applies the term
of its first member to the terms of the others. -/
inductive Spells : Node → Term → Prop where
  | integer {token : String} {t : Term} (h : (Node.integer token).convert k = .ok t) :
      Spells (.integer token) t
  | string {token : String} {t : Term} (h : (Node.string token).convert k = .ok t) :
      Spells (.string token) t
  | name (text : String) : Spells (.name text) (.name text)
  | call {callee : Node} {args : List Node} {c : Term} {ts : List Term} (hcallee : Spells callee c)
      (hargs : List.Forall₂ Spells args ts) : Spells (.call (callee :: args)) (.call c ts)

end

variable {k : Conversion ε} {node callee bad : Node} {nodes others args : List Node} {t : Term}

/-! ### Bad nodes -/

theorem not_bad_of_convert (h : node.convert k = .ok t) : ¬node.Bad k := by
  intro hbad
  cases hbad with
  | integer herror => cases h.symm.trans herror
  | string herror => cases h.symm.trans herror
  | childless => cases h

theorem FirstBad.append (h : FirstBad k nodes bad) (others : List Node) :
    FirstBad k (nodes ++ others) bad := by
  obtain ⟨before, after, rfl, hbefore, hbad⟩ := h
  exact ⟨before, after ++ others, by simp, hbefore, hbad⟩

theorem FirstBad.of_append (h : FirstBad k nodes bad) (hothers : ∀ other ∈ others, ¬other.Bad k) :
    FirstBad k (others ++ nodes) bad := by
  obtain ⟨before, after, rfl, hbefore, hbad⟩ := h
  refine ⟨others ++ before, after, by simp, ?_, hbad⟩
  rw [List.forall_mem_append]
  exact ⟨hothers, hbefore⟩

theorem FirstBad.call (h : FirstBad k (partsOfAll (callee :: args)) bad) :
    FirstBad k (Node.call (callee :: args)).parts bad := by
  have hcall : ¬(Node.call (callee :: args)).Bad k := nofun
  rw [parts]
  exact h.of_append (List.forall_mem_singleton.mpr hcall)

theorem FirstBad.exists_bad (h : FirstBad k nodes bad) : ∃ node ∈ nodes, node.Bad k := by
  obtain ⟨before, after, rfl, -, hbad⟩ := h
  exact ⟨bad, by simp, hbad⟩

/-! ### Members in order -/

mutual

/-- A node that is converted spells its term, and none of its parts is bad. -/
theorem spells_of_convert : (node : Node) → {t : Term} → node.convert k = .ok t →
    node.Spells k t ∧ ∀ part ∈ node.parts, ¬part.Bad k
  | .integer token, t, h =>
    ⟨.integer h, List.forall_mem_singleton.mpr (not_bad_of_convert h)⟩
  | .string token, t, h =>
    ⟨.string h, List.forall_mem_singleton.mpr (not_bad_of_convert h)⟩
  | .name text, t, h => by
    have hname : ∀ part ∈ [Node.name text], ¬part.Bad k :=
      List.forall_mem_singleton.mpr (not_bad_of_convert h)
    cases h
    exact ⟨.name text, hname⟩
  | .call [], t, h => by cases h
  | .call (callee :: args), t, h => by
    have hcall := not_bad_of_convert h
    rw [convert] at h
    obtain ⟨c, hcallee, h⟩ := exists_of_bind_eq_ok h
    obtain ⟨ts, hargs, ⟨⟩⟩ := exists_of_bind_eq_ok h
    obtain ⟨hc, hcparts⟩ := spells_of_convert callee hcallee
    obtain ⟨hts, htsparts⟩ := spells_of_convertAll args hargs
    refine ⟨.call hc hts, ?_⟩
    rw [parts, partsOfAll, List.forall_mem_cons, List.forall_mem_append]
    exact ⟨hcall, hcparts, htsparts⟩

/-- Nodes that are converted spell their terms one by one, and none of their parts is bad. -/
theorem spells_of_convertAll : (nodes : List Node) → {ts : List Term} →
    convertAll k nodes = .ok ts →
      List.Forall₂ (Spells k) nodes ts ∧ ∀ part ∈ partsOfAll nodes, ¬part.Bad k
  | [], ts, h => by
    cases h
    exact ⟨.nil, nofun⟩
  | node :: nodes, ts, h => by
    rw [convertAll] at h
    obtain ⟨u, hnode, h⟩ := exists_of_bind_eq_ok h
    obtain ⟨us, hnodes, ⟨⟩⟩ := exists_of_bind_eq_ok h
    obtain ⟨hu, huparts⟩ := spells_of_convert node hnode
    obtain ⟨hus, husparts⟩ := spells_of_convertAll nodes hnodes
    refine ⟨.cons hu hus, ?_⟩
    rw [partsOfAll, List.forall_mem_append]
    exact ⟨huparts, husparts⟩

end

-- A member that fails comes after members that have been converted, and these have no bad parts:
-- that is why the first bad part of the member is the first one of all.
mutual

/-- A node that is not converted fails as its first bad part does on its own. -/
theorem firstBad_of_convert : (node : Node) → {e : ε} → node.convert k = .error e →
    ∃ bad, FirstBad k node.parts bad ∧ bad.convert k = .error e
  | .integer token, e, h => ⟨.integer token, ⟨[], [], rfl, nofun, .integer h⟩, h⟩
  | .string token, e, h => ⟨.string token, ⟨[], [], rfl, nofun, .string h⟩, h⟩
  | .name text, e, h => by cases h
  | .call [], e, h => ⟨.call [], ⟨[], [], rfl, nofun, .childless⟩, h⟩
  | .call (callee :: args), e, h => by
    rw [convert] at h
    rcases cases_of_bind_eq_error h with hcallee | ⟨c, hcallee, h⟩
    · obtain ⟨bad, hfirst, hbad⟩ := firstBad_of_convert callee hcallee
      exact ⟨bad, (hfirst.append _).call, hbad⟩
    · rcases cases_of_bind_eq_error h with hargs | ⟨ts, -, ⟨⟩⟩
      obtain ⟨bad, hfirst, hbad⟩ := firstBad_of_convertAll args hargs
      exact ⟨bad, (hfirst.of_append (spells_of_convert callee hcallee).2).call, hbad⟩

/-- Nodes that are not converted fail as the first bad one of their parts does on its own. -/
theorem firstBad_of_convertAll : (nodes : List Node) → {e : ε} → convertAll k nodes = .error e →
    ∃ bad, FirstBad k (partsOfAll nodes) bad ∧ bad.convert k = .error e
  | [], e, h => by cases h
  | node :: nodes, e, h => by
    rw [convertAll] at h
    rcases cases_of_bind_eq_error h with hnode | ⟨t, hnode, h⟩
    · obtain ⟨bad, hfirst, hbad⟩ := firstBad_of_convert node hnode
      exact ⟨bad, hfirst.append _, hbad⟩
    · rcases cases_of_bind_eq_error h with hnodes | ⟨ts, -, ⟨⟩⟩
      obtain ⟨bad, hfirst, hbad⟩ := firstBad_of_convertAll nodes hnodes
      exact ⟨bad, hfirst.of_append (spells_of_convert node hnode).2, hbad⟩

end

end Node

namespace Program

/-- What a program comes to under a conversion of tokens.  Without bad parts there is one term for
each top-level node, in order and of the same shape.  With bad parts there is the error that the
first one of them has on its own. -/
structure ConvertsAs {ε : Type} (k : Node.Conversion ε) (program : Program)
    (result : Except ε (List Term)) : Prop where
  spells : (∀ part ∈ Node.partsOfAll program, ¬part.Bad k) →
    ∃ ts, result = .ok ts ∧ List.Forall₂ (Node.Spells k) program ts
  fails_first : (∃ part ∈ Node.partsOfAll program, part.Bad k) →
    ∃ bad e, Node.FirstBad k (Node.partsOfAll program) bad ∧ bad.convert k = .error e ∧
      result = .error e

theorem convertsAs_convertAll {ε : Type} (k : Node.Conversion ε) (program : Program) :
    program.ConvertsAs k (Node.convertAll k program) := by
  constructor
  · intro hgood
    cases hterms : Node.convertAll k program with
    | ok ts => exact ⟨ts, rfl, (Node.spells_of_convertAll program hterms).1⟩
    | error e =>
      obtain ⟨bad, hfirst, -⟩ := Node.firstBad_of_convertAll program hterms
      obtain ⟨part, hmem, hpart⟩ := hfirst.exists_bad
      exact absurd hpart (hgood part hmem)
  · rintro ⟨part, hmem, hpart⟩
    cases hterms : Node.convertAll k program with
    | ok ts => exact absurd hpart ((Node.spells_of_convertAll program hterms).2 part hmem)
    | error e =>
      obtain ⟨bad, hfirst, hbad⟩ := Node.firstBad_of_convertAll program hterms
      exact ⟨bad, e, hfirst, hbad, rfl⟩

/-- Under every conversion of tokens, and so under that of the language, a program without bad parts
is converted to one term for each of its nodes, in order and of the same shape, and a program with
bad parts fails exactly as the first one of them does on its own. -/
theorem toTerms_spells_or_fails_first (program : Program) :
    (∀ (ε : Type) (k : Node.Conversion ε), program.ConvertsAs k (Node.convertAll k program)) ∧
      program.ConvertsAs Node.literals program.toTerms :=
  ⟨fun _ k => convertsAs_convertAll k program, convertsAs_convertAll Node.literals program⟩

/-- A program with nested calls is converted.  One that holds a bad token before a call without
members and another bad token is rejected for the first of the three.  So is one whose first bad
token is a number in the place of a string, under a conversion that says so. -/
theorem toTerms_spells_or_fails_first_nested :
    let good : Program := [.call [.call [.name "f"], .integer "+7", .string "\"a\\t\""], .name "7"]
    let terms := [Term.call (.call (.name "f") []) [.int 7, .str "a\t"], .name "7"]
    let faulty : Program :=
      [.name "x", .call [.name "f", .call [.string "\"\\q\"", .call []]], .integer "one"]
    let complaint := ReadError.badString "\"\\q\"" ⟨.invalidEscape, 1, 3⟩
    let mistyping := "invalid string literal 123: " ++
      "invalid type: integer `123`, expected a string at line 1 column 3"
    let worded : Node.Conversion String :=
      { integer := fun token => (Node.integerTerm token).mapError ReadError.message
        string := fun token =>
          if token = "123" then .error mistyping
          else (Node.stringTerm token).mapError ReadError.message
        childless := (ReadError.malformed 0 .childless).message }
    let mistyped : Program := [.call [.name "f", .string "123", .string "\"\\q\""], .call []]
    ((∀ part ∈ Node.partsOfAll good, ¬part.Bad Node.literals) ∧ good.toTerms = .ok terms ∧
      List.Forall₂ (Node.Spells Node.literals) good terms) ∧
    ((∃ part ∈ Node.partsOfAll faulty, part.Bad Node.literals) ∧
      ∃ bad, Node.FirstBad Node.literals (Node.partsOfAll faulty) bad ∧
        bad.toTerm = .error complaint ∧ faulty.toTerms = .error complaint) ∧
    (∃ part ∈ Node.partsOfAll mistyped, part.Bad worded) ∧
      ∃ bad, Node.FirstBad worded (Node.partsOfAll mistyped) bad ∧
        bad.convert worded = .error mistyping ∧
          Node.convertAll worded mistyped = .error mistyping := by
  intro good terms faulty complaint mistyping worded mistyped
  have hgood : good.toTerms = .ok terms := rfl
  have hfaulty : faulty.toTerms = .error complaint := rfl
  have hparts : ∀ part ∈ Node.partsOfAll good, ¬part.Bad Node.literals :=
    (Node.spells_of_convertAll good hgood).2
  have hbad : ∃ part ∈ Node.partsOfAll faulty, part.Bad Node.literals :=
    ⟨.call [], by simp [faulty, Node.partsOfAll, Node.parts], .childless⟩
  have hmistyped : ∃ part ∈ Node.partsOfAll mistyped, part.Bad worded :=
    ⟨.call [], by simp [mistyped, Node.partsOfAll, Node.parts], .childless⟩
  refine ⟨⟨hparts, hgood, ?_⟩, ⟨hbad, ?_⟩, hmistyped, ?_⟩
  · obtain ⟨ts, hts, hspells⟩ := (toTerms_spells_or_fails_first good).2.spells hparts
    cases hgood.symm.trans hts
    exact hspells
  · obtain ⟨bad, e, hfirst, herror, he⟩ := (toTerms_spells_or_fails_first faulty).2.fails_first hbad
    cases hfaulty.symm.trans he
    exact ⟨bad, hfirst, herror, he⟩
  · obtain ⟨bad, e, hfirst, herror, he⟩ :=
      ((toTerms_spells_or_fails_first mistyped).1 String worded).fails_first hmistyped
    have hresult : Node.convertAll worded mistyped = .error mistyping := rfl
    cases hresult.symm.trans he
    exact ⟨bad, hfirst, herror, he⟩

end Program

end Reduct
