import Reduct.Proofs.Source.Descent
import Reduct.Proofs.Source.Groups

/-!
# Parsing accepts exactly the layouts

The reader works on characters, and the grammar speaks of lexemes.  What ties them together is the
language that a reader still accepts: the texts that complete what it has begun.  One character at
a time, this language loses the first character and nothing else.

## Main definitions

* `Groups.Completes` — the texts that complete the open groups.
* `Reader.Accepts` — the texts that complete what a reader has begun, the token under way included.

## Main results

* `Reader.accepts_cons_iff` — reading a character takes it off the front of every accepted text.
* `Program.parse_eq_ok_iff_laidOut` — a text parses to a program exactly when it is a layout of it.
-/

namespace Reduct

/-- The first character of a laid out text is a blank or starts the next lexeme. -/
theorem laid_cons_iff {afterBare : Bool} {lexemes : List Lexeme} {c : Char} {cs : List Char} :
    Laid afterBare lexemes (c :: cs) ↔
      (Text.isBlank c = true ∧ Laid false lexemes cs) ∨
        ∃ lexeme rest text, lexemes = lexeme :: rest ∧
          (afterBare = true → lexeme.isWord = false) ∧ c :: cs = lexeme.chars ++ text ∧
            Laid lexeme.isWord rest text := by
  constructor
  · intro h
    generalize htext : c :: cs = text at h
    cases h with
    | done hgap =>
      subst htext
      rw [IsGap, List.forall_mem_cons] at hgap
      exact .inl ⟨hgap.1, .done hgap.2⟩
    | @next _ gap lexeme rest text hgap hapart hrest =>
      cases gap with
      | nil =>
        refine .inr ⟨lexeme, rest, text, rfl, ?_, rfl, hrest⟩
        intro hbare
        simpa using hapart hbare
      | cons d gap =>
        obtain ⟨rfl, rfl⟩ := List.cons.inj htext
        rw [IsGap, List.forall_mem_cons] at hgap
        exact .inl ⟨hgap.1, .next hgap.2 (by simp) hrest⟩
  · rintro (⟨hblank, h⟩ | ⟨lexeme, rest, text, rfl, hapart, htext, hrest⟩)
    · cases h with
      | done hgap => exact .done (List.forall_mem_cons.mpr ⟨hblank, hgap⟩)
      | next hgap _ hrest =>
        exact @Laid.next _ (c :: _) _ _ _ (List.forall_mem_cons.mpr ⟨hblank, hgap⟩) (by simp) hrest
    · rw [htext]
      exact @Laid.next _ [] _ _ _ (by simp [IsGap]) (by simpa using hapart) hrest

/-- A lexeme at the front of a text is told by its first character. -/
theorem Lexeme.Valid.cases_head {lexeme : Lexeme} {c : Char} {cs text : List Char}
    (h : lexeme.Valid) (htext : c :: cs = lexeme.chars ++ text) :
    (lexeme = .opening ∧ c = '(' ∧ cs = text) ∨ (lexeme = .closing ∧ c = ')' ∧ cs = text) ∨
      (∃ word, lexeme = .bare (String.ofList (c :: word)) ∧ isBare c = true ∧
        (∀ d ∈ word, isBare d = true) ∧ cs = word ++ text) ∨
      ∃ body, lexeme = .quoted (String.ofList ('"' :: (body ++ ['"']))) ∧ c = '"' ∧
        IsStringBody body ∧ cs = body ++ '"' :: text := by
  cases lexeme with
  | opening =>
    obtain ⟨rfl, rfl⟩ := List.cons.inj htext
    exact .inl ⟨rfl, rfl, rfl⟩
  | closing =>
    obtain ⟨rfl, rfl⟩ := List.cons.inj htext
    exact .inr (.inl ⟨rfl, rfl, rfl⟩)
  | bare token =>
    obtain ⟨hne, hall⟩ := h
    simp only [← isBare_iff] at hall
    simp only [Lexeme.chars] at htext
    cases hword : token.toList with
    | nil => exact absurd hword hne
    | cons d word =>
      rw [hword] at htext hall
      obtain ⟨rfl, rfl⟩ := List.cons.inj htext
      rw [List.forall_mem_cons] at hall
      refine .inr (.inr (.inl ⟨word, ?_, hall.1, hall.2, rfl⟩))
      rw [← hword, String.ofList_toList]
  | quoted token =>
    obtain ⟨body, hbody, htoken⟩ := h
    simp only [Lexeme.chars, htoken] at htext
    obtain ⟨rfl, rfl⟩ := List.cons.inj htext
    refine .inr (.inr (.inr ⟨body, ?_, rfl, hbody, by simp⟩))
    rw [← htoken, String.ofList_toList]

namespace Groups

/-- The texts that complete the open groups to a program.  The flag says that a bare token stands
right before the text. -/
def Completes (g : Groups) (afterBare : Bool) (text : List Char) (program : Program) : Prop :=
  ∃ lexemes, (∀ lexeme ∈ lexemes, Lexeme.Valid lexeme) ∧ Laid afterBare lexemes text ∧
    g.takeAll lexemes = some ⟨program.reverse, []⟩

variable {g : Groups} {afterBare : Bool} {c : Char} {cs : List Char} {program : Program}

theorem completes_nil_iff : g.Completes afterBare [] program ↔ g = ⟨program.reverse, []⟩ := by
  constructor
  · rintro ⟨lexemes, hvalid, hlaid, htake⟩
    generalize htext : ([] : List Char) = text at hlaid
    cases hlaid with
    | done _ => simpa using htake
    | @next _ _ lexeme rest text _ _ _ =>
      have hchars : lexeme.chars = [] :=
        (List.append_eq_nil_iff.mp (List.append_eq_nil_iff.mp htext.symm).2).1
      have hlexeme := hvalid lexeme (List.mem_cons_self ..)
      cases lexeme with
      | opening => cases hchars
      | closing => cases hchars
      | bare token => exact absurd hchars hlexeme.1
      | quoted token =>
        obtain ⟨body, -, htoken⟩ := hlexeme
        rw [Lexeme.chars, htoken] at hchars
        cases hchars
  · rintro rfl
    exact ⟨[], by simp, .done (by simp [IsGap]), rfl⟩

theorem completes_cons_iff :
    g.Completes afterBare (c :: cs) program ↔
      (Text.isBlank c = true ∧ g.Completes false cs program) ∨
        ∃ lexeme text g', Lexeme.Valid lexeme ∧ (afterBare = true → lexeme.isWord = false) ∧
          c :: cs = lexeme.chars ++ text ∧ g.take lexeme = some g' ∧
            g'.Completes lexeme.isWord text program := by
  constructor
  · rintro ⟨lexemes, hvalid, hlaid, htake⟩
    rcases laid_cons_iff.mp hlaid with
      ⟨hblank, hlaid⟩ | ⟨lexeme, rest, text, rfl, hapart, htext, hrest⟩
    · exact .inl ⟨hblank, lexemes, hvalid, hlaid, htake⟩
    · rw [List.forall_mem_cons] at hvalid
      rw [takeAll_cons, Option.bind_eq_some_iff] at htake
      obtain ⟨g', hg', htake⟩ := htake
      exact .inr ⟨lexeme, text, g', hvalid.1, hapart, htext, hg', rest, hvalid.2, hrest, htake⟩
  · rintro (⟨hblank, lexemes, hvalid, hlaid, htake⟩ |
      ⟨lexeme, text, g', hlexeme, hapart, htext, hg', rest, hvalid, hrest, htake⟩)
    · exact ⟨lexemes, hvalid, laid_cons_iff.mpr (.inl ⟨hblank, hlaid⟩), htake⟩
    · refine ⟨lexeme :: rest, List.forall_mem_cons.mpr ⟨hlexeme, hvalid⟩,
        laid_cons_iff.mpr (.inr ⟨lexeme, rest, text, rfl, hapart, htext, hrest⟩), ?_⟩
      rw [takeAll_cons, hg', Option.bind_some, htake]

/-- The texts that complete a string token, of which the given characters have been read, the last
one first, and then the open groups. -/
def CompletesString (g : Groups) (token text : List Char) (program : Program) : Prop :=
  ∃ body rest, IsStringBody body ∧ text = body ++ '"' :: rest ∧
    (g.push (.string (String.ofList (token.reverse ++ (body ++ ['"']))))).Completes false rest
      program

/-- The texts that complete a bare token, of which the given characters have been read, the last one
first, and then the open groups. -/
def CompletesWord (g : Groups) (token text : List Char) (program : Program) : Prop :=
  ∃ word rest, (∀ c ∈ word, isBare c = true) ∧ text = word ++ rest ∧
    (g.push (Node.ofBare (token.reverse ++ word))).Completes true rest program

/-- The five things that a character outside every token can be: a blank, one of the parentheses, or
the start of a bare token or of a string. -/
theorem completes_head_iff :
    g.Completes afterBare (c :: cs) program ↔
      (Text.isBlank c = true ∧ g.Completes false cs program) ∨
        (c = '(' ∧ ∃ g', g.take .opening = some g' ∧ g'.Completes false cs program) ∨
        (c = ')' ∧ ∃ g', g.take .closing = some g' ∧ g'.Completes false cs program) ∨
        (isBare c = true ∧ afterBare = false ∧ g.CompletesWord [c] cs program) ∨
        (c = '"' ∧ g.CompletesString [c] cs program) := by
  rw [completes_cons_iff]
  refine or_congr_right ?_
  constructor
  · rintro ⟨lexeme, text, g', hvalid, hapart, htext, htake, h⟩
    rcases hvalid.cases_head htext with
      ⟨rfl, hc, rfl⟩ | ⟨rfl, hc, rfl⟩ | ⟨word, rfl, hc, hword, rfl⟩ | ⟨body, rfl, rfl, hbody, rfl⟩
    · exact .inl ⟨hc, g', htake, h⟩
    · exact .inr (.inl ⟨hc, g', htake, h⟩)
    · simp only [take, String.toList_ofList] at htake
      cases htake
      have hafter : afterBare = false := by simpa [Lexeme.isWord] using hapart
      exact .inr (.inr (.inl ⟨hc, hafter, word, text, hword, rfl, h⟩))
    · cases htake
      exact .inr (.inr (.inr ⟨rfl, body, text, hbody, rfl, h⟩))
  · rintro (⟨rfl, g', htake, h⟩ | ⟨rfl, g', htake, h⟩ | ⟨hc, rfl, word, rest, hword, rfl, h⟩ |
      ⟨rfl, body, rest, hbody, rfl, h⟩)
    · exact ⟨.opening, cs, g', trivial, fun _ => rfl, rfl, htake, h⟩
    · exact ⟨.closing, cs, g', trivial, fun _ => rfl, rfl, htake, h⟩
    · refine ⟨.bare (String.ofList (c :: word)), rest, g.push (Node.ofBare (c :: word)), ?_,
        by simp, by simp [Lexeme.chars], by simp [take], h⟩
      refine ⟨by simp, ?_⟩
      simpa [hc, ← isBare_iff] using hword
    · refine ⟨.quoted (String.ofList ('"' :: (body ++ ['"']))), rest, _, ?_, fun _ => rfl,
        by simp [Lexeme.chars], rfl, h⟩
      exact ⟨body, hbody, by simp⟩

theorem not_completes_of_bare (hc : isBare c = true) : ¬g.Completes true (c :: cs) program := by
  rw [completes_head_iff]
  simp [isBare_iff.mp hc]

theorem completes_of_not_bare (hc : isBare c = false) :
    g.Completes true (c :: cs) program ↔ g.Completes false (c :: cs) program := by
  rw [completes_head_iff, completes_head_iff]
  simp [hc]

/-- Inside a string token a quote ends it, a backslash takes the next character along, and every
other character belongs to it. -/
theorem completesString_cons_iff {token : List Char} :
    g.CompletesString token (c :: cs) program ↔
      if c = '"' then
        (g.push (.string (String.ofList (c :: token).reverse))).Completes false cs program
      else if c = '\\' then ∃ d ds, cs = d :: ds ∧ g.CompletesString (d :: c :: token) ds program
      else g.CompletesString (c :: token) cs program := by
  constructor
  · rintro ⟨body, rest, hbody, htext, h⟩
    cases hbody with
    | nil =>
      obtain ⟨rfl, rfl⟩ := List.cons.inj htext
      simpa using h
    | @plain d body hquote hslash hbody =>
      obtain ⟨rfl, rfl⟩ := List.cons.inj htext
      rw [if_neg hquote, if_neg hslash]
      exact ⟨body, rest, hbody, rfl, by simpa using h⟩
    | @escaped d body hbody =>
      obtain ⟨rfl, rfl⟩ := List.cons.inj htext
      rw [if_neg (by decide), if_pos rfl]
      exact ⟨d, _, rfl, body, rest, hbody, rfl, by simpa using h⟩
  · intro h
    split at h
    · next hquote =>
      subst hquote
      exact ⟨[], cs, .nil, rfl, by simpa using h⟩
    · next hquote =>
      split at h
      · next hslash =>
        obtain ⟨d, ds, rfl, body, rest, hbody, rfl, h⟩ := h
        subst hslash
        exact ⟨_, rest, .escaped hbody, rfl, by simpa using h⟩
      · next hslash =>
        obtain ⟨body, rest, hbody, rfl, h⟩ := h
        exact ⟨_, rest, .plain hquote hslash hbody, rfl, by simpa using h⟩

/-- Inside a bare token a bare character belongs to it and every other one ends it. -/
theorem completesWord_cons_iff {token : List Char} :
    g.CompletesWord token (c :: cs) program ↔
      if isBare c then g.CompletesWord (c :: token) cs program
      else (g.push (Node.ofBare token.reverse)).Completes false (c :: cs) program := by
  constructor
  · rintro ⟨word, rest, hword, htext, h⟩
    cases word with
    | nil =>
      cases htext
      -- The longest token wins: two bare tokens never touch, so none ends before a bare character.
      by_cases hc : isBare c = true
      · exact absurd h (not_completes_of_bare hc)
      · rw [if_neg hc]
        simpa [completes_of_not_bare (Bool.eq_false_iff.mpr hc)] using h
    | cons d word =>
      obtain ⟨rfl, rfl⟩ := List.cons.inj htext
      rw [List.forall_mem_cons] at hword
      rw [if_pos hword.1]
      exact ⟨word, rest, hword.2, rfl, by simpa using h⟩
  · intro h
    split at h
    · next hc =>
      obtain ⟨word, rest, hword, rfl, h⟩ := h
      exact ⟨c :: word, rest, List.forall_mem_cons.mpr ⟨hc, hword⟩, rfl, by simpa using h⟩
    · next hc =>
      refine ⟨[], c :: cs, by simp, rfl, ?_⟩
      simpa [completes_of_not_bare (Bool.eq_false_iff.mpr hc)] using h

theorem completesWord_nil_iff {token : List Char} :
    g.CompletesWord token [] program ↔
      g.push (Node.ofBare token.reverse) = ⟨program.reverse, []⟩ := by
  constructor
  · rintro ⟨word, rest, -, htext, h⟩
    obtain ⟨rfl, rfl⟩ := List.append_eq_nil_iff.mp htext.symm
    simpa [completes_nil_iff] using h
  · intro h
    exact ⟨[], [], by simp, rfl, by simpa [completes_nil_iff] using h⟩

end Groups

namespace Reader

/-- The open groups of a reader. -/
def groups (r : Reader) : Groups := ⟨r.nodes, r.frames.map Frame.before⟩

/-- The texts that complete what a reader has begun. -/
def Accepts (r : Reader) (text : List Char) (program : Program) : Prop :=
  match r.mode with
  | .gap => r.groups.Completes false text program
  | .bare token => r.groups.CompletesWord token text program
  | .quoted _ token => r.groups.CompletesString token text program
  | .escape _ token =>
    ∃ c cs, text = c :: cs ∧ r.groups.CompletesString (c :: token) cs program

variable {r : Reader} {c : Char} {cs : List Char} {program : Program}

theorem exists_openCall_iff {text : List Char} (hmode : r.mode = .gap) :
    (∃ r', r.openCall = .ok r' ∧ r'.Accepts text program) ↔
      ∃ g', r.groups.take .opening = some g' ∧ g'.Completes false text program := by
  unfold openCall
  simp only [Groups.take, groups, List.length_map]
  split
  · simp
  · simp [Accepts, hmode, groups]

theorem exists_closeCall_iff {text : List Char} (hmode : r.mode = .gap) :
    (∃ r', r.closeCall = .ok r' ∧ r'.Accepts text program) ↔
      ∃ g', r.groups.take .closing = some g' ∧ g'.Completes false text program := by
  unfold closeCall
  simp only [Groups.take, groups]
  cases hframes : r.frames with
  | nil => simp
  | cons frame outer =>
    simp only [List.map_cons]
    by_cases hnodes : r.nodes = []
    · simp [hnodes]
    · simp [hnodes, Accepts, hmode, groups]

/-- Outside every token a character is read as the grammar of lexemes has it. -/
theorem exists_enter_iff (hmode : r.mode = .gap) :
    (∃ r', r.enter c = .ok r' ∧ r'.Accepts cs program) ↔
      r.groups.Completes false (c :: cs) program := by
  rw [Groups.completes_head_iff]
  -- The branches are tried in the order of the grammar, so each one rules out those before it.
  unfold enter
  split
  · next hblank =>
    have hmark : c ≠ '(' ∧ c ≠ ')' ∧ c ≠ '"' := by
      refine ⟨?_, ?_, ?_⟩ <;> rintro rfl <;> exact absurd hblank (by decide)
    simp [Accepts, hmode, hblank, hmark, isBare_iff]
  split
  · next hblank hopen =>
    subst hopen
    simp [exists_openCall_iff hmode, hblank, isBare_iff]
  split
  · next hblank hopen hclose =>
    subst hclose
    simp [exists_closeCall_iff hmode, hblank, isBare_iff]
  split
  · next hblank hopen hclose hquote =>
    subst hquote
    simp [Accepts, groups, hblank, isBare_iff]
  · next hblank hopen hclose hquote =>
    simp [Accepts, groups, hblank, hopen, hclose, hquote, isBare_iff]

/-- Reading a character takes it off the front of every text that a reader accepts. -/
theorem accepts_cons_iff :
    r.Accepts (c :: cs) program ↔ ∃ r', r.feed c = .ok r' ∧ r'.Accepts cs program := by
  -- What is counted beside the modes and the groups is only there for the reports of errors.
  have hfeed : (∃ r', r.feed c = .ok r' ∧ r'.Accepts cs program) ↔
      ∃ r', r.accept c = .ok r' ∧ r'.Accepts cs program := by
    unfold feed
    cases r.accept c with
    | error e => simp [bind, Except.bind]
    | ok r' =>
      simp only [bind, Except.bind, pure, Except.pure, Except.ok.injEq, exists_eq_left']
      rfl
  rw [hfeed]
  unfold accept
  cases hmode : r.mode with
  | gap =>
    rw [Accepts, hmode]
    exact (exists_enter_iff hmode).symm
  | bare token =>
    simp only [Accepts, hmode, Groups.completesWord_cons_iff]
    split
    · simp [groups]
    · have hsettle : r.settle.mode = .gap := by simp [settle, hmode]
      have hgroups : r.settle.groups = r.groups.push (Node.ofBare token.reverse) := by
        simp [settle, hmode, groups, push, Groups.push]
      rw [← hgroups, ← exists_enter_iff hsettle]
      rfl
  | quoted opened token =>
    simp only [Accepts, hmode, Groups.completesString_cons_iff]
    split
    · simp [groups, push, Groups.push]
    · split <;> simp [groups]
  | escape opened token =>
    simp only [Accepts, hmode, List.cons.injEq, Except.ok.injEq, exists_eq_left']
    constructor
    · rintro ⟨d, ds, ⟨rfl, rfl⟩, h⟩
      exact h
    · intro h
      exact ⟨c, cs, ⟨rfl, rfl⟩, h⟩

theorem accepts_nil_iff : r.Accepts [] program ↔ r.finish = .ok program := by
  unfold finish
  cases hmode : r.mode with
  | gap =>
    simp only [Accepts, hmode, Groups.completes_nil_iff, groups, Groups.mk.injEq,
      List.map_eq_nil_iff]
    cases r.frames with
    | nil => simp [settle, hmode, List.reverse_eq_iff]
    | cons frame outer => simp
  | bare token =>
    simp only [Accepts, hmode, Groups.completesWord_nil_iff, groups, Groups.push, Groups.mk.injEq,
      List.map_eq_nil_iff]
    cases r.frames with
    | nil => simp [settle, hmode, push, ← List.reverse_eq_iff]
    | cons frame outer => simp
  | quoted opened token => simp [Accepts, hmode, Groups.CompletesString]
  | escape opened token => simp [Accepts, hmode]

theorem accepts_iff {text : List Char} :
    r.Accepts text program ↔ ∃ r', r.feedAll text = .ok r' ∧ r'.finish = .ok program := by
  induction text generalizing r with
  | nil => simp [feedAll, accepts_nil_iff, pure, Except.pure]
  | cons c cs ih =>
    rw [accepts_cons_iff, feedAll, List.foldlM_cons]
    simp only [ih]
    cases r.feed c with
    | error e => simp [bind, Except.bind]
    | ok r' => simp [bind, Except.bind, feedAll]

theorem start_accepts_iff {source : String} :
    start.Accepts source.toList program ↔ program.LaidOut source := by
  constructor
  · rintro ⟨lexemes, hvalid, hlaid, htake⟩
    obtain ⟨rfl, hwf, hnesting⟩ := (Groups.takeAll_empty_iff hvalid).mp htake
    exact ⟨hlaid, hwf, hnesting⟩
  · rintro ⟨hlaid, hwf, hnesting⟩
    have hvalid : ∀ lexeme ∈ Node.lexemesOfAll program, lexeme.Valid := by
      intro lexeme hmem
      obtain ⟨node, hnode, hmem⟩ := Node.mem_lexemesOfAll.mp hmem
      exact (hwf node hnode).valid_lexemes lexeme hmem
    exact ⟨_, hvalid, hlaid, (Groups.takeAll_empty_iff hvalid).mpr ⟨rfl, hwf, hnesting⟩⟩

end Reader

theorem Program.parse_eq_ok_iff {source : String} {program : Program} :
    Program.parse source = .ok program ↔ program.LaidOut source := by
  rw [← Reader.start_accepts_iff, Reader.accepts_iff, parse_eq_run, Reader.run]
  cases Reader.start.feedAll source.toList with
  | error e => simp [bind, Except.bind]
  | ok r => simp [bind, Except.bind]

/-- Parsing accepts exactly the layouts of programs and yields the program that is laid out; so no
text is a layout of two programs. -/
theorem Program.parse_eq_ok_iff_laidOut (source : String) :
    (∀ program, Program.parse source = .ok program ↔ program.LaidOut source) ∧
      ∀ program other : Program, program.LaidOut source → other.LaidOut source →
        program = other := by
  refine ⟨fun program => parse_eq_ok_iff, ?_⟩
  intro program other hprogram hother
  rw [← parse_eq_ok_iff] at hprogram hother
  exact Except.ok.inj (hprogram.symm.trans hother)

theorem Program.laidOut_without_blanks :
    Program.LaidOut
        [.name "a", .string "\"b\\\"\"", .integer "-7", .call [.name "f", .name "x"]]
        "a\"b\\\"\"-7(f x)" ∧
      ∀ other : Program, other.LaidOut "a\"b\\\"\"-7(f x)" →
        other = [.name "a", .string "\"b\\\"\"", .integer "-7", .call [.name "f", .name "x"]] := by
  have hlaid : Program.LaidOut
      [.name "a", .string "\"b\\\"\"", .integer "-7", .call [.name "f", .name "x"]]
      "a\"b\\\"\"-7(f x)" :=
    ((parse_eq_ok_iff_laidOut _).1 _).mp rfl
  exact ⟨hlaid, fun other hother => (parse_eq_ok_iff_laidOut _).2 _ _ hother hlaid⟩

end Reduct
