import Reduct.Proofs.Source.Recall
import Reduct.Proofs.Term.RoundTrip

/-!
# Where rejections point

A text that does not parse is rejected at the byte where its first flawed construct begins.

## Main definitions

* `Program.ParsesOrOpen` — the texts after which a construct can begin.
* `Flaw.At` — the flaws, each with what stands at its place and before it.
* `ReadError.PointsInto` — a rejection whose byte is the place of its flaw.

## Main results

* `Program.pointsInto_of_refuses`, `Program.pointsInto_of_finish` — the flaws that are met at a
  character and those that are met at the end of a text.
* `Program.parse_error_pointsInto` — every rejection points at its flaw.
-/

namespace Reduct

namespace Reader

variable {r : Reader} {e : ReadError}

theorem finish_eq_ok (hr : r.inString = false) (hframes : r.frames = []) :
    r.finish = .ok r.settle.nodes.reverse := by
  rcases mode_of_inString_eq_false hr with hmode | ⟨token, hmode⟩ <;> simp [finish, hmode, hframes]

/-- A text is rejected at its end for the string or, outside strings, for the innermost call that it
leaves open. -/
theorem finish_error_cases (h : r.finish = .error e) :
    (∃ opened token, (r.mode = .quoted opened token ∨ r.mode = .escape opened token) ∧
        e = .malformed opened .unterminated) ∨
      (r.inString = false ∧ ∃ frame outer, r.frames = frame :: outer ∧
        e = .malformed frame.opened .unclosed) := by
  unfold finish at h
  unfold inString
  cases hr : r.mode with
  | gap | bare token =>
    simp only [hr] at h
    split at h
    next frame outer hframes =>
      cases h
      exact .inr ⟨rfl, frame, outer, hframes, rfl⟩
    · cases h
  | quoted opened token =>
    simp only [hr] at h
    cases h
    exact .inl ⟨opened, token, .inl rfl, rfl⟩
  | escape opened token =>
    simp only [hr] at h
    cases h
    exact .inl ⟨opened, token, .inr rfl, rfl⟩

end Reader

theorem isStringBody_cons {c : Char} {cs : List Char} (h : IsStringBody (c :: cs)) :
    (c ≠ '"' ∧ c ≠ '\\' ∧ IsStringBody cs) ∨
      (c = '\\' ∧ ∃ d ds, cs = d :: ds ∧ IsStringBody ds) := by
  generalize htext : c :: cs = text at h
  cases h with
  | nil => cases htext
  | plain hquote hslash hrest =>
    cases htext
    exact .inl ⟨hquote, hslash, hrest⟩
  | escaped hrest =>
    cases htext
    exact .inr ⟨rfl, _, _, rfl, hrest⟩

/-- The quote that ends a string token does not occur in the body of an open one, not even if a
backslash is the last character so far. -/
theorem IsStringBody.append_ne {body token slash rest : List Char} (htoken : IsStringBody token)
    (hbody : IsStringBody body) (hslash : slash = [] ∨ slash = ['\\']) :
    body ++ slash ≠ token ++ '"' :: rest := by
  induction htoken generalizing body with
  | nil =>
    cases body with
    | nil => rcases hslash with rfl | rfl <;> simp
    | cons c body =>
      intro heq
      obtain ⟨rfl, -⟩ := List.cons.inj heq
      rcases isStringBody_cons hbody with ⟨hquote, -⟩ | ⟨hc, -⟩
      · exact hquote rfl
      · exact absurd hc (by decide)
  | @plain c token hquote hc _ ih =>
    cases body with
    | nil => rcases hslash with rfl | rfl <;> simp [Ne.symm hc]
    | cons d body =>
      intro heq
      obtain ⟨rfl, htail⟩ := List.cons.inj heq
      rcases isStringBody_cons hbody with ⟨-, -, hbody⟩ | ⟨hd, -⟩
      · exact ih hbody htail
      · exact hc hd
  | @escaped c token _ ih =>
    cases body with
    | nil => rcases hslash with rfl | rfl <;> simp
    | cons d body =>
      intro heq
      obtain ⟨rfl, htail⟩ := List.cons.inj heq
      rcases isStringBody_cons hbody with ⟨-, hd, -⟩ | ⟨-, _, _, rfl, hrest⟩
      · exact hd rfl
      · exact ih hrest (List.cons.inj htail).2

namespace Program

/-- A text that parses or leaves a call open. -/
def ParsesOrOpen (source : String) : Prop :=
  (∃ program, parse source = .ok program) ∨
    ∃ offset, parse source = .error (.malformed offset .unclosed)

end Program

/-- What is wrong with a text whose two parts meet where the flaw begins. -/
inductive Flaw.At (before rest : String) : Flaw → Prop where
  | unmatched {after : String} {program : Program} (hrest : rest = ")" ++ after)
      (hbefore : Program.parse before = .ok program) : At before rest .unmatched
  | emptyCall {gap after : String} (hgap : IsGap gap.toList)
      (hrest : rest = "(" ++ gap ++ ")" ++ after) (hbefore : Program.ParsesOrOpen before) :
      At before rest .emptyCall
  | unterminated {after : String} (hrest : rest = "\"" ++ after)
      (htoken : ∀ token other, rest = token ++ other → ¬IsString token.toList)
      (hbefore : Program.ParsesOrOpen before) : At before rest .unterminated
  | tooDeep {after : String} (hrest : rest = "(" ++ after)
      (hbefore : ∀ k, (∃ program, Program.parse
        (before ++ " x" ++ String.ofList (List.replicate k ')')) = .ok program) ↔ k = maxNesting) :
      At before rest .tooDeep
  | unclosed {after : String} {program : Program} (hrest : rest = "(" ++ after)
      (hafter : Program.parse after = .ok program) (hbefore : Program.ParsesOrOpen before) :
      At before rest .unclosed

theorem Flaw.At.message_mem {before rest : String} {flaw : Flaw} (h : flaw.At before rest) :
    flaw.message ∈ ["unmatched `)`", "unclosed `(`", "empty call `()`",
      "unterminated string literal", "calls nested too deeply"] := by
  cases h <;> simp [Flaw.message]

/-- A rejection that points at a flaw of the given text: the text is cut in two at a byte before its
end, where the flaw begins. -/
def ReadError.PointsInto (e : ReadError) (source : String) : Prop :=
  ∃ before rest flaw, source = before ++ rest ∧ before.utf8ByteSize < source.utf8ByteSize ∧
    e = .malformed before.utf8ByteSize flaw ∧
    flaw.message ∈ ["unmatched `)`", "unclosed `(`", "empty call `()`",
      "unterminated string literal", "calls nested too deeply"] ∧
    flaw.At before rest

namespace Program

open Reader

variable {source : String} {before rest cs : List Char} {r : Reader} {e : ReadError} {flaw : Flaw}

theorem parse_ofList_of_feedAll (h : start.feedAll cs = .ok r) :
    parse (String.ofList cs) = r.finish :=
  parse_of_feedAll (by rwa [String.toList_ofList])

theorem parsesOrOpen_of_feedAll (h : start.feedAll cs = .ok r) (hr : r.inString = false) :
    ParsesOrOpen (String.ofList cs) := by
  unfold ParsesOrOpen
  rw [parse_ofList_of_feedAll h]
  rcases r.finish_cases with ⟨hstring, -⟩ | ⟨-, -, hopen⟩ | ⟨-, -, hok⟩
  · rw [hr] at hstring
    cases hstring
  · exact .inr hopen
  · exact .inl hok

/-- What an open call holds is what the text behind its parenthesis spells on its own. -/
theorem exists_parse_of_recalls {frame : Frame} {outer : List Frame}
    (h : frame.Recalls cs r outer) (hframes : r.frames = frame :: outer) (hr : r.inString = false) :
    ∃ text, Since cs frame.opened ('(' :: text) ∧
      parse (String.ofList text) = .ok r.settle.nodes.reverse := by
  obtain ⟨text, p, hsince, hp, rfl⟩ := h
  refine ⟨text, hsince, ?_⟩
  have hnil : p.frames = [] := List.append_left_eq_self.mp hframes
  have hfinish : p.finish = .ok p.settle.nodes.reverse := finish_eq_ok hr hnil
  -- The text behind the parenthesis was read from a later byte on, which changes places only.
  rw [feedAll_relocate] at hp
  cases hq : start.feedAll text with
  | error e =>
    rw [hq] at hp
    cases hp
  | ok q =>
    rw [hq] at hp
    cases hp
    rw [finish_relocate] at hfinish
    rw [parse_ofList_of_feedAll hq, settle_under]
    cases hfin : q.finish with
    | error e =>
      rw [hfin] at hfinish
      cases hfinish
    | ok program =>
      rw [hfin] at hfinish
      exact hfinish

theorem ofList_cons (c : Char) (cs : List Char) :
    String.ofList (c :: cs) = String.ofList [c] ++ String.ofList cs := by
  rw [← String.ofList_append, List.singleton_append]

theorem pointsInto_of_at (hsource : source.toList = before ++ rest) (hne : rest ≠ [])
    (h : flaw.At (String.ofList before) (String.ofList rest)) :
    (ReadError.malformed (Text.byteSize before) flaw).PointsInto source := by
  have hsplit : source = String.ofList before ++ String.ofList rest := by
    rw [← String.ofList_append, ← hsource, String.ofList_toList]
  have hlt : (String.ofList before).utf8ByteSize < source.utf8ByteSize := by
    obtain ⟨c, cs, rfl⟩ := List.exists_cons_of_ne_nil hne
    have hrest := Text.byteSize_lt_cons c cs
    rw [hsplit, String.utf8ByteSize_append, Text.byteSize_ofList, Text.byteSize_ofList]
    omega
  exact ⟨_, _, flaw, hsplit, hlt, by rw [Text.byteSize_ofList], h.message_mem, h⟩

theorem isGap_of_parse_nil (h : parse source = .ok []) : IsGap source.toList := by
  have hlaid := (parse_eq_ok_iff.mp h).laid
  generalize hlexemes : Node.lexemesOfAll [] = lexemes at hlaid
  generalize source.toList = text at hlaid
  cases hlaid with
  | done hgap => exact hgap
  | next => cases hlexemes

/-- A character that is refused tells where the flaw is. -/
theorem pointsInto_of_refuses {c : Char} {after : List Char} (h : Recalls before r)
    (hsource : source.toList = before ++ c :: after) (hr : r.inString = false)
    (hrefuses : r.Refuses c e) : e.PointsInto source := by
  have hoffset := offset_of_feedAll_start h.feedAll_eq
  cases hrefuses with
  | tooDeep hfull =>
    -- A reader never has more calls open than the limit allows, so here it has exactly as many.
    have hframes : r.frames.length = maxNesting := Nat.le_antisymm h.length_frames_le hfull
    rw [hoffset]
    refine pointsInto_of_at hsource (List.cons_ne_nil _ _) (.tooDeep (ofList_cons '(' after) ?_)
    intro k
    rw [exists_parse_name_closing_iff (by rw [String.toList_ofList, h.feedAll_eq]), hframes]
    simp [hr]
  | unmatched hframes =>
    rw [hoffset]
    have hbefore := (parse_ofList_of_feedAll h.feedAll_eq).trans (finish_eq_ok hr hframes)
    exact pointsInto_of_at hsource (List.cons_ne_nil _ _)
      (.unmatched (ofList_cons ')' after) hbefore)
  | emptyCall hframes hnodes =>
    obtain ⟨text, ⟨outside, q, rfl, hopened, hq, hstring⟩, hparse⟩ :=
      exists_parse_of_recalls (h.frame [] _ _ hframes) hframes hr
    rw [hnodes] at hparse
    have hsplit : source.toList = outside ++ '(' :: (text ++ ')' :: after) := by simp [hsource]
    have hrest : String.ofList ('(' :: (text ++ ')' :: after)) =
        "(" ++ String.ofList text ++ ")" ++ String.ofList after := by
      rw [ofList_cons, String.ofList_append, ofList_cons ')', String.append_assoc,
        String.append_assoc]
    rw [hopened]
    exact pointsInto_of_at hsplit (List.cons_ne_nil _ _)
      (.emptyCall (isGap_of_parse_nil hparse) hrest (parsesOrOpen_of_feedAll hq hstring))

/-- The end of a text tells where the flaw is. -/
theorem pointsInto_of_finish (h : Recalls source.toList r) (hfinish : r.finish = .error e) :
    e.PointsInto source := by
  rcases finish_error_cases hfinish with
    ⟨opened, token, hmode, rfl⟩ | ⟨hr, frame, outer, hframes, rfl⟩
  · obtain ⟨body, slash, hbody, hslash, outside, q, hsource, rfl, hq, hstring⟩ :
        ∃ body slash, IsStringBody body ∧ (slash = [] ∨ slash = ['\\']) ∧
          Since source.toList opened ('"' :: (body ++ slash)) := by
      have hrecalls := h.mode
      rcases hmode with hmode | hmode
      · rw [hmode] at hrecalls
        obtain ⟨body, hbody, hsince⟩ := hrecalls
        exact ⟨body, [], hbody, .inl rfl, by rwa [List.append_nil]⟩
      · rw [hmode] at hrecalls
        obtain ⟨body, hbody, hsince⟩ := hrecalls
        exact ⟨body, ['\\'], hbody, .inr rfl, hsince⟩
    refine pointsInto_of_at hsource (List.cons_ne_nil _ _) ?_
    refine .unterminated (ofList_cons '"' _) ?_ (parsesOrOpen_of_feedAll hq hstring)
    rintro token other heq ⟨inner, hinner, htoken⟩
    have hlist : body ++ slash = inner ++ '"' :: other.toList := by
      simpa [htoken] using congrArg String.toList heq
    exact hinner.append_ne hbody hslash hlist
  · obtain ⟨text, ⟨outside, q, hsource, hopened, hq, hstring⟩, hparse⟩ :=
      exists_parse_of_recalls (h.frame [] _ _ hframes) hframes hr
    rw [hopened]
    exact pointsInto_of_at hsource (List.cons_ne_nil _ _)
      (.unclosed (ofList_cons '(' text) hparse (parsesOrOpen_of_feedAll hq hstring))

theorem pointsInto_of_parse (h : parse source = .error e) : e.PointsInto source := by
  cases hfeed : start.feedAll source.toList with
  | error e' =>
    rw [parse_eq_run, run, hfeed] at h
    cases h
    obtain ⟨before, c, after, r, hsource, hbefore, hr, hrefuses⟩ := exists_refuses_of_feedAll hfeed
    exact pointsInto_of_refuses (recalls_start.feedAll hbefore) hsource hr hrefuses
  | ok r =>
    rw [parse_of_feedAll hfeed] at h
    exact pointsInto_of_finish (recalls_start.feedAll hfeed) h

/-- A flaw that nothing in a text can be is not reported. -/
theorem parse_ne_malformed (flaw : Flaw) (hflaw : ∀ before rest, ¬flaw.At before rest)
    (offset : Nat) : parse source ≠ .error (.malformed offset flaw) := by
  intro h
  obtain ⟨before, rest, flaw', -, -, heq, -, hat⟩ := pointsInto_of_parse h
  cases heq
  exact hflaw _ _ hat

end Program

/-! ### Trees of texts -/

namespace Node

theorem exists_of_toTerms_eq_error {nodes : List Node} {e : ReadError}
    (h : toTerms nodes = .error e) : ∃ node ∈ nodes, node.toTerm = .error e := by
  rw [toTerms_eq_mapM] at h
  exact exists_of_mapM_eq_error h

/-- A node that follows the grammar fails for one of its tokens only. -/
theorem WellFormed.toTerm_ne_malformed {node : Node} (h : node.WellFormed) (offset : Nat)
    (flaw : Flaw) : node.toTerm ≠ .error (.malformed offset flaw) := by
  induction h with
  | integer =>
    rw [toTerm_integer, integerTerm]
    split <;> simp
  | string =>
    rw [toTerm_string, stringTerm]
    split <;> simp
  | name =>
    intro h
    cases h
  | @call children hne _ ih =>
    obtain ⟨callee, args, rfl⟩ := List.exists_cons_of_ne_nil hne
    rw [List.forall_mem_cons] at ih
    intro h
    rw [toTerm_call] at h
    rcases cases_of_bind_eq_error h with hcallee | ⟨c, -, h⟩
    · exact ih.1 hcallee
    rcases cases_of_bind_eq_error h with hargs | ⟨as, -, ⟨⟩⟩
    obtain ⟨arg, hmem, harg⟩ := exists_of_toTerms_eq_error hargs
    exact ih.2 arg hmem harg

end Node

theorem Term.result_readAll_ne_childless (source : String) (offset : Nat) :
    (Term.readAll source).result ≠ .error (.malformed offset .childless) := by
  intro h
  rw [Term.result_readAll] at h
  cases hparse : Program.parse source with
  | error e =>
    rw [hparse] at h
    cases h
    exact Program.parse_ne_malformed .childless (fun _ _ => nofun) offset hparse
  | ok program =>
    rw [hparse] at h
    obtain ⟨node, hmem, hnode⟩ := Node.exists_of_toTerms_eq_error h
    exact ((Program.parse_eq_ok_iff.mp hparse).wellFormed node hmem).toTerm_ne_malformed _ _ hnode

/-- A text that does not parse is rejected for one of five flaws, at the byte where the flawed
construct begins.  It is never rejected because a rule does not apply to what is left of it, nor
because it ends too early for a rule to tell.  A tree that has been parsed is not rejected for a
call without members. -/
theorem Program.parse_error_pointsInto (source : String) :
    (∀ e, parse source = .error e → e.PointsInto source) ∧
      (∀ offset, parse source ≠ .error (.malformed offset .unexpected) ∧
        parse source ≠ .error (.malformed offset .incomplete)) ∧
      ∀ offset, (Term.readAll source).result ≠ .error (.malformed offset .childless) := by
  refine ⟨fun _ h => pointsInto_of_parse h, ?_, Term.result_readAll_ne_childless source⟩
  intro offset
  exact ⟨parse_ne_malformed .unexpected (fun _ _ => nofun) offset,
    parse_ne_malformed .incomplete (fun _ _ => nofun) offset⟩

-- The rules on their own do stop like that, but none is applied where it would be the report.
example : Grammar.atom [')'] = .error (.error ⟨[')'], .unexpected⟩) := rfl

/-- Inside two open calls and behind a letter of two bytes, it is the innermost construct that is
pointed at. -/
theorem Program.parse_error_pointsInto_innermost :
    (parse "(é (f ( ) \"a" = .error (.malformed 7 .emptyCall) ∧
      (ReadError.malformed 7 .emptyCall).PointsInto "(é (f ( ) \"a") ∧
    (parse "(é (f \"a\\\"" = .error (.malformed 7 .unterminated) ∧
      (ReadError.malformed 7 .unterminated).PointsInto "(é (f \"a\\\"") ∧
    (parse "(é (f a" = .error (.malformed 4 .unclosed) ∧
      (ReadError.malformed 4 .unclosed).PointsInto "(é (f a") ∧
    (parse "(é (f a))) (" = .error (.malformed 10 .unmatched) ∧
      (ReadError.malformed 10 .unmatched).PointsInto "(é (f a))) (") := by
  have hempty : parse "(é (f ( ) \"a" = .error (.malformed 7 .emptyCall) := rfl
  have hstring : parse "(é (f \"a\\\"" = .error (.malformed 7 .unterminated) := rfl
  have hcall : parse "(é (f a" = .error (.malformed 4 .unclosed) := rfl
  have hmatch : parse "(é (f a))) (" = .error (.malformed 10 .unmatched) := rfl
  exact ⟨⟨hempty, (parse_error_pointsInto _).1 _ hempty⟩,
    ⟨hstring, (parse_error_pointsInto _).1 _ hstring⟩,
    ⟨hcall, (parse_error_pointsInto _).1 _ hcall⟩, ⟨hmatch, (parse_error_pointsInto _).1 _ hmatch⟩⟩

end Reduct
