import Reduct.Proofs.Except
import Reduct.Proofs.Source.Parse
import Reduct.Proofs.Term.Parts
import Reduct.Proofs.Text.Literal
import Reduct.Proofs.Text.Numeral
import Reduct.Term.Read

/-!
# Printed terms read back

The source form of a term is a layout of one node, and that node converts to the term again, unless
something in the term has no source form of its own.

## Main definitions

* `Term.Readable` — what a term must be like for its source form to spell it.
* `Term.displayAll` — the source forms of several terms with single spaces between them.
* `Term.toNode` — the node that the source form of a term spells.

## Main results

* `Term.readable_of_result_readAll` — whatever is read is readable.
* `Term.result_readAll_displayAll` — readable terms are read back.
* `Term.readAll_displayAll_iff_readable` — exactly the readable terms are read back.
-/

namespace Reduct

namespace Laid

variable {afterBare : Bool} {lexemes : List Lexeme} {text : List Char}

theorem weaken (h : Laid true lexemes text) : Laid afterBare lexemes text := by
  cases h with
  | done hgap => exact .done hgap
  | next hgap hapart hrest => exact .next hgap (fun _ => hapart rfl) hrest

theorem space (h : Laid false lexemes text) : Laid afterBare lexemes (' ' :: text) :=
  laid_cons_iff.mpr (.inl ⟨by decide, h⟩)

theorem start {lexeme : Lexeme} (hapart : afterBare = true → lexeme.isWord = false)
    (h : Laid lexeme.isWord lexemes text) :
    Laid afterBare (lexeme :: lexemes) (lexeme.chars ++ text) :=
  @Laid.next _ [] _ _ _ (by simp [IsGap]) (by simpa using hapart) h

end Laid

/-- A term that can be written in source text: it holds no function, its names are names of the
grammar, and its calls are nested no deeper than a source text may nest them. -/
structure Term.Readable (t : Term) : Prop where
  noFunc : ∀ f, .func f ∉ t.leaves
  isName : ∀ n, .name n ∈ t.leaves → IsName n.toList
  nesting_le : t.nesting ≤ maxNesting

/-- The source forms of several terms with single spaces between them. -/
def Term.displayAll (ts : List Term) : String := " ".intercalate (ts.map Term.display)

theorem Term.result_readAll (source : String) :
    (Term.readAll source).result = Program.parse source >>= Program.toTerms := by
  rw [Term.readAll, Traced.result_bind, Traced.result_ofExcept]
  cases Program.parse source with
  | error e => rfl
  | ok program => rfl

namespace Node

theorem toTerms_eq_mapM (nodes : List Node) : toTerms nodes = nodes.mapM toTerm := by
  induction nodes with
  | nil => rfl
  | cons node rest ih =>
    rw [toTerms_cons, List.mapM_cons, ih]
    rfl

theorem exists_of_mem_toTerms {nodes : List Node} {ts : List Term} (h : toTerms nodes = .ok ts) :
    ∀ t ∈ ts, ∃ node ∈ nodes, toTerm node = .ok t := by
  intro t ht
  rw [toTerms_eq_mapM] at h
  exact exists_of_mapM_eq_ok h ht

/-- The term of a node of the grammar can be written. -/
theorem WellFormed.readable {node : Node} {t : Term} (h : node.WellFormed)
    (ht : node.toTerm = .ok t) (hdepth : node.nesting ≤ maxNesting) : t.Readable := by
  -- The limit on nesting is not handed down to the members, so they are compared with their nodes.
  suffices hparts : (∀ f, .func f ∉ t.leaves) ∧ (∀ n, .name n ∈ t.leaves → IsName n.toList) ∧
      t.nesting ≤ node.nesting by
    exact ⟨hparts.1, hparts.2.1, Nat.le_trans hparts.2.2 hdepth⟩
  clear hdepth
  induction h generalizing t with
  | @integer token _ =>
    rw [toTerm_integer, integerTerm] at ht
    split at ht
    · cases ht
      simp [Term.leaves, Term.nesting]
    · cases ht
  | @string token _ =>
    rw [toTerm_string, stringTerm] at ht
    split at ht
    · cases ht
      simp [Term.leaves, Term.nesting]
    · cases ht
  | name htext =>
    cases ht
    simpa [Term.leaves, Term.nesting] using htext
  | @call children hne _ ih =>
    obtain ⟨callee, args, rfl⟩ := List.exists_cons_of_ne_nil hne
    rw [toTerm_call] at ht
    obtain ⟨c, hcallee, ht⟩ := exists_of_bind_eq_ok ht
    obtain ⟨as, hargs, ⟨⟩⟩ := exists_of_bind_eq_ok ht
    rw [List.forall_mem_cons] at ih
    have hc := ih.1 hcallee
    have has : ∀ a ∈ as, (∀ f, .func f ∉ a.leaves) ∧ (∀ n, .name n ∈ a.leaves → IsName n.toList) ∧
        a.nesting ≤ nestingOfAll args := by
      intro a ha
      obtain ⟨arg, harg, hterm⟩ := exists_of_mem_toTerms hargs a ha
      obtain ⟨hfunc, hname, hnesting⟩ := ih.2 arg harg hterm
      have hbound := nestingOfAll_le_iff.mp (Nat.le_refl _) arg harg
      exact ⟨hfunc, hname, Nat.le_trans hnesting hbound⟩
    refine ⟨?_, ?_, ?_⟩
    · intro f hf
      rcases Term.mem_leaves_call.mp hf with hf | ⟨a, ha, hf⟩
      · exact hc.1 f hf
      · exact (has a ha).1 f hf
    · intro n hn
      rcases Term.mem_leaves_call.mp hn with hn | ⟨a, ha, hn⟩
      · exact hc.2.1 n hn
      · exact (has a ha).2.1 n hn
    · rw [nesting, nestingOfAll, Term.nesting_call_le_iff]
      refine ⟨Nat.le_trans hc.2.2 (Nat.le_max_left ..), ?_⟩
      intro a ha
      exact Nat.le_trans (has a ha).2.2 (Nat.le_max_right ..)

end Node

namespace Term

theorem readable_of_result_readAll {source : String} {ts : List Term}
    (h : (readAll source).result = .ok ts) : ∀ t ∈ ts, t.Readable := by
  rw [result_readAll] at h
  cases hparse : Program.parse source with
  | error e => simp [hparse, bind, Except.bind] at h
  | ok program =>
    have hlaid := Program.parse_eq_ok_iff.mp hparse
    simp only [hparse, bind, Except.bind] at h
    intro t ht
    obtain ⟨node, hmem, hnode⟩ := Node.exists_of_mem_toTerms h t ht
    have hdepth := Node.nestingOfAll_le_iff.mp hlaid.nesting_le node hmem
    exact (hlaid.wellFormed node hmem).readable hnode hdepth

mutual

/-- The node that the source form of a term spells.  A function has no source form; the name that is
shown for it stands in. -/
def toNode : Term → Node
  | .int n => .integer (String.ofList (decimal n))
  | .str s => .string (Text.Quoted.encode s)
  | .name n => .name n
  | .func f => .name f.name
  | .call callee args => .call (toNode callee :: toNodes args)

/-- The nodes that the source forms of several terms spell. -/
def toNodes : List Term → List Node
  | [] => []
  | t :: rest => toNode t :: toNodes rest

end

theorem toNodes_eq_map (ts : List Term) : toNodes ts = ts.map toNode := by
  induction ts with
  | nil => rfl
  | cons t rest ih => rw [toNodes, ih, List.map_cons]

theorem nesting_toNode (t : Term) : t.toNode.nesting = t.nesting := by
  induction t using Term.inductionOn with
  | int n => rfl
  | str s => rfl
  | name n => rfl
  | func f => rfl
  | call callee args hcallee hargs =>
    have hall : Node.nestingOfAll (toNodes args) = nestingOfAll args := by
      rw [toNodes_eq_map]
      induction args with
      | nil => rfl
      | cons arg rest ih =>
        rw [List.forall_mem_cons] at hargs
        rw [List.map_cons, Node.nestingOfAll, nestingOfAll, hargs.1, ih hargs.2]
    rw [toNode, Node.nesting, Node.nestingOfAll, hcallee, hall, nesting]

theorem toTerms_map_toNode {ts : List Term} (h : ∀ t ∈ ts, t.toNode.toTerm = .ok t) :
    Node.toTerms (ts.map toNode) = .ok ts := by
  induction ts with
  | nil => rfl
  | cons t rest ih =>
    rw [List.forall_mem_cons] at h
    rw [List.map_cons, Node.toTerms_cons, h.1, ih h.2]
    rfl

theorem toTerm_toNode {t : Term} (h : ∀ f, .func f ∉ t.leaves) : t.toNode.toTerm = .ok t := by
  induction t using Term.inductionOn with
  | int n =>
    simp [toNode, Node.toTerm_integer, Node.integerTerm, Word.readByDigits?_eq_read?,
      Word.read?_decimal]
  | str s => simp [toNode, Node.toTerm_string, Node.stringTerm, Text.Quoted.decode_encode]
  | name n => rfl
  | func f => exact absurd (List.mem_singleton_self _) (h f)
  | call callee args hcallee hargs =>
    simp only [mem_leaves_call, not_or, not_exists, not_and] at h
    have hall := toTerms_map_toNode fun arg harg => hargs arg harg fun f => (h f).2 arg harg
    rw [toNode, toNodes_eq_map, Node.toTerm_call, hcallee fun f => (h f).1, hall]
    rfl

theorem wellFormed_toNode {t : Term} (hfunc : ∀ f, .func f ∉ t.leaves)
    (hname : ∀ n, .name n ∈ t.leaves → IsName n.toList) : t.toNode.WellFormed := by
  induction t using Term.inductionOn with
  | int n => exact .integer (by simpa using isInteger_decimal n)
  | str s => exact .string (Text.Quoted.isString_encode s)
  | name n => exact .name (hname n (List.mem_singleton_self _))
  | func f => exact absurd (List.mem_singleton_self _) (hfunc f)
  | call callee args hcallee hargs =>
    simp only [mem_leaves_call, not_or, not_exists, not_and] at hfunc
    simp only [mem_leaves_call] at hname
    rw [toNode, toNodes_eq_map]
    refine .call (List.cons_ne_nil _ _) (List.forall_mem_cons.mpr ⟨?_, ?_⟩)
    · exact hcallee (fun f => (hfunc f).1) fun n hn => hname n (.inl hn)
    · intro node hnode
      obtain ⟨arg, harg, rfl⟩ := List.mem_map.mp hnode
      exact hargs arg harg (fun f => (hfunc f).2 arg harg)
        fun n hn => hname n (.inr ⟨arg, harg, hn⟩)

-- The equations of `render` are stated by hand: the compiler's own ones unfold the digits of an
-- integer when they are generated.
theorem render_int (n : Int64) : render (.int n) = decimal n := rfl

theorem render_call (callee : Term) (args : List Term) :
    render (.call callee args) = '(' :: (render callee ++ renderArgs args ++ [')']) := rfl

theorem laid_renderArgs {args : List Term} {lexemes : List Lexeme} {text : List Char}
    (hargs : ∀ arg ∈ args, ∀ {lexemes : List Lexeme} {text : List Char}, Laid true lexemes text →
      Laid false (arg.toNode.lexemes ++ lexemes) (arg.render ++ text))
    (h : Laid true lexemes text) :
    Laid true (Node.lexemesOfAll (args.map toNode) ++ lexemes) (renderArgs args ++ text) := by
  induction args with
  | nil => exact h
  | cons arg rest ih =>
    rw [List.forall_mem_cons] at hargs
    rw [List.map_cons, Node.lexemesOfAll, renderArgs, List.append_assoc, List.cons_append,
      List.append_assoc]
    exact (hargs.1 (ih hargs.2)).space

/-- The source form of a term is a layout of the node that it is written as. -/
theorem laid_render {t : Term} (hfunc : ∀ f, .func f ∉ t.leaves) {lexemes : List Lexeme}
    {text : List Char} (h : Laid true lexemes text) :
    Laid false (t.toNode.lexemes ++ lexemes) (t.render ++ text) := by
  induction t using Term.inductionOn generalizing lexemes text with
  | int n =>
    have hstart : Laid false (.bare (String.ofList (decimal n)) :: lexemes) (_ ++ text) :=
      .start nofun h.weaken
    rw [Lexeme.chars, String.toList_ofList] at hstart
    rw [toNode, Node.lexemes, render_int]
    exact hstart
  | str s =>
    rw [toNode, Node.lexemes]
    exact .start nofun h.weaken
  | name n =>
    rw [toNode, Node.lexemes]
    exact .start nofun h.weaken
  | func f => exact absurd (List.mem_singleton_self _) (hfunc f)
  | call callee args hcallee hargs =>
    simp only [mem_leaves_call, not_or, not_exists, not_and] at hfunc
    -- The text is put together from its end, where the closing lexeme keeps any neighbour apart.
    have hclose : Laid true (.closing :: lexemes) (')' :: text) := .start (fun _ => rfl) h.weaken
    have hmembers :=
      laid_renderArgs (fun arg harg => hargs arg harg fun f => (hfunc f).2 arg harg) hclose
    have hinner := hcallee (fun f => (hfunc f).1) hmembers
    have hopen : Laid false (.opening :: _) ('(' :: _) := .start nofun hinner
    simpa [toNode, toNodes_eq_map, Node.lexemes, Node.lexemesOfAll, render_call] using hopen

theorem toList_displayAll_cons (t : Term) (rest : List Term) :
    (displayAll (t :: rest)).toList = t.render ++ renderArgs rest := by
  induction rest generalizing t with
  | nil => simp [displayAll, display, renderArgs]
  | cons u rest ih =>
    have hjoin : displayAll (t :: u :: rest) = t.display ++ " " ++ displayAll (u :: rest) := by
      simp only [displayAll, List.map_cons, String.intercalate_cons_cons]
    rw [hjoin, String.toList_append, ih, renderArgs]
    simp [display]

theorem laidOut_displayAll {ts : List Term} (h : ∀ t ∈ ts, t.Readable) :
    Program.LaidOut (ts.map toNode) (displayAll ts) := by
  refine ⟨?_, ?_, ?_⟩
  · cases ts with
    | nil => exact .done (by simp [IsGap, displayAll])
    | cons t rest =>
      rw [List.forall_mem_cons] at h
      have hend : Laid true [] [] := .done (by simp [IsGap])
      have hrest := laid_renderArgs (fun u hu => laid_render (h.2 u hu).noFunc) hend
      rw [toList_displayAll_cons]
      simpa [Node.lexemesOfAll] using laid_render h.1.noFunc hrest
  · intro node hnode
    obtain ⟨t, ht, rfl⟩ := List.mem_map.mp hnode
    exact wellFormed_toNode (h t ht).noFunc (h t ht).isName
  · rw [Node.nestingOfAll_le_iff]
    intro node hnode
    obtain ⟨t, ht, rfl⟩ := List.mem_map.mp hnode
    rw [nesting_toNode]
    exact (h t ht).nesting_le

theorem result_readAll_displayAll {ts : List Term} (h : ∀ t ∈ ts, t.Readable) :
    (readAll (displayAll ts)).result = .ok ts := by
  rw [result_readAll, Program.parse_eq_ok_iff.mpr (laidOut_displayAll h)]
  exact toTerms_map_toNode fun t ht => toTerm_toNode (h t ht).noFunc

theorem eq_of_sameAll {ts us : List Term} (hts : ∀ t ∈ ts, ∀ u, same t u = true → t = u)
    (h : sameAll ts us = true) : ts = us := by
  induction ts generalizing us with
  | nil =>
    cases us with
    | nil => rfl
    | cons u us => cases h
  | cons t ts ih =>
    cases us with
    | nil => cases h
    | cons u us =>
      rw [List.forall_mem_cons] at hts
      rw [sameAll, Bool.and_eq_true] at h
      rw [hts.1 u h.1, ih hts.2 h.2]

/-- Equality as programs observe it is equality, except where functions occur. -/
theorem eq_of_same {t u : Term} (hfunc : ∀ f, .func f ∉ t.leaves) (h : same t u = true) :
    t = u := by
  induction t using Term.inductionOn generalizing u with
  | int n => cases u <;> simp_all [same]
  | str s => cases u <;> simp_all [same]
  | name n => cases u <;> simp_all [same]
  | func f => exact absurd (List.mem_singleton_self _) (hfunc f)
  | call callee args hcallee hargs =>
    simp only [mem_leaves_call, not_or, not_exists, not_and] at hfunc
    cases u with
    | call other others =>
      rw [same, Bool.and_eq_true] at h
      have hargs' := eq_of_sameAll
        (fun arg harg v hv => hargs arg harg (fun f => (hfunc f).2 arg harg) hv) h.2
      rw [hcallee (fun f => (hfunc f).1) h.1, hargs']
    | _ => simp [same] at h

theorem sameAll_self {ts : List Term} (h : ∀ t ∈ ts, same t t = true) : sameAll ts ts = true := by
  induction ts with
  | nil => rfl
  | cons t ts ih =>
    rw [List.forall_mem_cons] at h
    rw [sameAll, h.1, ih h.2, Bool.and_true]

theorem same_self (t : Term) : same t t = true := by
  induction t using Term.inductionOn with
  | int n => simp [same]
  | str s => simp [same]
  | name n => simp [same]
  | func f => simp [same]
  | call callee args hcallee hargs => rw [same, hcallee, sameAll_self hargs, Bool.and_true]

/-- The source forms of some terms, with single spaces between them, read back as these terms
exactly when all of them are readable.  The same holds of reading back up to the equality that
programs observe.  Whatever is read from a text is readable, and is read back. -/
theorem readAll_displayAll_iff_readable :
    (∀ ts : List Term, (readAll (displayAll ts)).result = .ok ts ↔ ∀ t ∈ ts, t.Readable) ∧
      (∀ ts : List Term, (∃ us, (readAll (displayAll ts)).result = .ok us ∧ sameAll us ts = true) ↔
        ∀ t ∈ ts, t.Readable) ∧
      ∀ (source : String) (ts : List Term), (readAll source).result = .ok ts →
        (∀ t ∈ ts, t.Readable) ∧ (readAll (displayAll ts)).result = .ok ts := by
  refine ⟨?_, ?_, ?_⟩
  · intro ts
    exact ⟨readable_of_result_readAll, result_readAll_displayAll⟩
  · intro ts
    constructor
    · rintro ⟨us, hread, hsame⟩
      have hus := readable_of_result_readAll hread
      have heq := eq_of_sameAll (fun u hu v hv => eq_of_same (hus u hu).noFunc hv) hsame
      exact heq ▸ hus
    · intro h
      exact ⟨ts, result_readAll_displayAll h, sameAll_self fun t _ => same_self t⟩
  · intro source ts h
    have hts := readable_of_result_readAll h
    exact ⟨hts, result_readAll_displayAll hts⟩

theorem readable_of_readAll_call :
    (∀ t ∈ [Term.call (.name "f") [.str "a\n", .int (-7)]], t.Readable) ∧
      (readAll (displayAll [Term.call (.name "f") [.str "a\n", .int (-7)]])).result =
        .ok [Term.call (.name "f") [.str "a\n", .int (-7)]] := by
  have hparse : Program.parse "(f \"a\\u000a\" -07)" =
      .ok [.call [.name "f", .string "\"a\\u000a\"", .integer "-07"]] := rfl
  have htoken : "\"a\\u000a\"".toList = ['"', 'a', '\\', 'u', '0', '0', '0', 'a', '"'] := rfl
  have hdecode : Text.Quoted.decode "\"a\\u000a\"" = .ok "a\n" := by
    rw [Text.Quoted.decode, htoken]
    rfl
  have hread : (readAll "(f \"a\\u000a\" -07)").result =
      .ok [Term.call (.name "f") [.str "a\n", .int (-7)]] := by
    rw [result_readAll, hparse]
    simp only [Except.bind, bind, Program.toTerms, Node.toTerms_cons, Node.toTerm_call,
      Node.toTerm_string, Node.stringTerm, hdecode]
    rfl
  exact readAll_displayAll_iff_readable.2.2 _ _ hread

end Term

end Reduct
