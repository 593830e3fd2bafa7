import Reduct.Proofs.Except
import Reduct.Proofs.Source.Layout
import Reduct.Proofs.Source.Reader

/-!
# The descent follows the reader

The descent takes whole expressions off the front of a text, and the reader takes characters.  Where
an expression has been taken, the reader holds one node more and the run goes on from there; where
the descent stops, the run ends with the same report.

## Main definitions

* `Reader.facing` — a reader placed by the text that is left.
* `Reader.resume` — how a run goes on behind an expression.

## Main results

* `Reader.FollowsMembers.run_expression`, `Reader.followsMembers` — one expression, and the rest of
  a call.
* `Program.parse_eq_run` — the descent reports what the reader reports.

## Design notes

The reports of the two are computed differently: the reader adds up the widths of characters, and
the descent subtracts what is left from the whole.  `facing` has the offset in the second form, so
that a stop carries over as it is.
-/

namespace Reduct

open Text

theorem eq_false_of_dropWhile_eq_cons {p : Char → Bool} {c : Char} {cs rest : List Char}
    (h : rest.dropWhile p = c :: cs) : p c = false := by
  have hhead := List.head?_dropWhile_not p rest
  rw [h] at hhead
  exact hhead

namespace Reader

variable {r : Reader} {c : Char} {cs rest token body : List Char} {size opened : Nat}
  {mode mode' : Mode} {nodes nodes' : List Node} {frames frames' : List Frame} {e : ReadError}

/-! ### Runs -/

/-- A reader that `rest` is left for, of a text of `size` bytes. -/
def facing (size : Nat) (mode : Mode) (nodes : List Node) (frames : List Frame)
    (rest : List Char) : Reader :=
  ⟨size - byteSize rest, mode, nodes, frames⟩

theorem run_cons (r : Reader) (c : Char) (cs : List Char) :
    r.run (c :: cs) = r.accept c >>= fun r => (r.advance c).run cs := by
  rw [run, feedAll, List.foldlM_cons, feed]
  cases r.accept c <;> rfl

theorem run_of_accept_error (h : r.accept c = .error e) : r.run (c :: cs) = .error e := by
  rw [run, feedAll_cons_of_accept_error h]
  rfl

/-- A character that is accepted is no longer left. -/
theorem run_of_accept (h : byteSize (c :: cs) ≤ size)
    (haccept : (facing size mode nodes frames (c :: cs)).accept c =
      .ok (facing size mode' nodes' frames' (c :: cs))) :
    (facing size mode nodes frames (c :: cs)).run (c :: cs) =
      (facing size mode' nodes' frames' cs).run cs := by
  have hoffset : size - byteSize (c :: cs) + c.utf8Size = size - byteSize cs := by
    rw [byteSize] at h ⊢
    omega
  rw [run, feedAll_cons_of_accept haccept, facing, facing, ← hoffset]
  rfl

theorem run_dropWhile (h : byteSize rest ≤ size) :
    (facing size .gap nodes frames rest).run rest =
      (facing size .gap nodes frames (rest.dropWhile isBlank)).run (rest.dropWhile isBlank) := by
  induction rest with
  | nil => rfl
  | cons c cs ih =>
    rw [List.dropWhile_cons]
    by_cases hc : isBlank c = true
    · have haccept : (facing size .gap nodes frames (c :: cs)).accept c =
          .ok (facing size .gap nodes frames (c :: cs)) := by
        show (facing size .gap nodes frames (c :: cs)).enter c = _
        rw [enter, if_pos hc]
      rw [if_pos hc, run_of_accept h haccept]
      exact ih (byteSize_le_of_cons h)
    · rw [if_neg hc]

theorem run_bare (h : byteSize rest ≤ size) :
    (facing size (.bare token) nodes frames rest).run rest =
      (facing size (.bare ((rest.takeWhile isBare).reverse ++ token)) nodes frames
        (rest.dropWhile isBare)).run (rest.dropWhile isBare) := by
  induction rest generalizing token with
  | nil => rfl
  | cons c cs ih =>
    rw [List.takeWhile_cons, List.dropWhile_cons]
    by_cases hc : isBare c = true
    · have haccept : (facing size (.bare token) nodes frames (c :: cs)).accept c =
          .ok (facing size (.bare (c :: token)) nodes frames (c :: cs)) := if_pos hc
      rw [if_pos hc, if_pos hc, run_of_accept h haccept, ih (byteSize_le_of_cons h)]
      simp
    · rw [if_neg hc, if_neg hc]
      rfl

/-- A bare token ends where no bare character follows. -/
theorem run_settle (hmode : r.mode = .bare token) (hrest : ∀ c ∈ rest.head?, isBare c = false) :
    r.run rest = r.settle.run rest := by
  have hsettle : r.settle = { r.push (Node.ofBare token.reverse) with mode := .gap } := by
    rw [settle, hmode]
  cases rest with
  | nil =>
    show r.finish = r.settle.finish
    rw [finish, finish, hmode, hsettle]
    rfl
  | cons c cs =>
    have hc : isBare c = false := hrest c rfl
    have haccept : r.accept c = r.settle.accept c := by
      rw [accept, accept, hmode, hsettle]
      simp only [hc, ← hsettle]
      rfl
    rw [run_cons, run_cons, haccept]

theorem run_quoted (hbody : IsStringBody body) (h : byteSize (body ++ rest) ≤ size) :
    (facing size (.quoted opened token) nodes frames (body ++ rest)).run (body ++ rest) =
      (facing size (.quoted opened (body.reverse ++ token)) nodes frames rest).run rest := by
  induction hbody generalizing token with
  | nil => rfl
  | @plain c cs hquote hslash _ ih =>
    rw [List.cons_append] at h ⊢
    have haccept : (facing size (.quoted opened token) nodes frames (c :: (cs ++ rest))).accept c =
        .ok (facing size (.quoted opened (c :: token)) nodes frames (c :: (cs ++ rest))) := by
      show (if c = '"' then _ else if c = '\\' then _ else _) = _
      rw [if_neg hquote, if_neg hslash]
      rfl
    rw [run_of_accept h haccept, ih (byteSize_le_of_cons h)]
    simp
  | @escaped c cs _ ih =>
    rw [List.cons_append, List.cons_append] at h ⊢
    have hslash := byteSize_le_of_cons h
    have haccept : (facing size (.quoted opened token) nodes frames
        ('\\' :: c :: (cs ++ rest))).accept '\\' = .ok (facing size
          (.escape opened ('\\' :: token)) nodes frames ('\\' :: c :: (cs ++ rest))) := rfl
    have hescape : (facing size (.escape opened ('\\' :: token)) nodes frames
        (c :: (cs ++ rest))).accept c = .ok (facing size
          (.quoted opened (c :: '\\' :: token)) nodes frames (c :: (cs ++ rest))) := rfl
    rw [run_of_accept h haccept, run_of_accept hslash hescape, ih (byteSize_le_of_cons hslash)]
    simp

end Reader

/-! ### The rules for tokens -/

namespace Grammar

open Rule

variable {input rest : List Char}

/-- A text in which a string token ends or is cut off. -/
def EndsString (cs : List Char) : Prop :=
  (cs = [] ∨ cs = ['\\']) ∨ ∃ after, cs = '"' :: after

/-- An element of a string token is taken unless the token ends. -/
theorem stringChar_cases (input : List Char) :
    (EndsString input ∧ ∃ refusal, stringChar input = .error (.error refusal)) ∨
      ∃ p, stringChar input = .ok p ∧ input = p.value ++ p.rest ∧
        ∀ body, IsStringBody body → IsStringBody (p.value ++ body) := by
  cases input with
  | nil => exact .inl ⟨.inl (.inl rfl), _, rfl⟩
  | cons c cs =>
    by_cases hslash : c = '\\'
    · subst hslash
      cases cs with
      | nil => exact .inl ⟨.inl (.inr rfl), _, rfl⟩
      | cons d cs =>
        have hbefore : before ('\\' :: d :: cs) cs = ['\\', d] := before_append ['\\', d] cs
        refine .inr ⟨⟨before ('\\' :: d :: cs) cs, cs, _⟩, rfl, ?_, ?_⟩
        · rw [hbefore]
          rfl
        · rw [hbefore]
          exact fun body => .escaped
    by_cases hquote : c = '"'
    · subst hquote
      exact .inl ⟨.inr ⟨cs, rfl⟩, _, rfl⟩
    · have hbefore : before (c :: cs) cs = [c] := before_append [c] cs
      refine .inr ⟨⟨before (c :: cs) cs, cs, byteSize_lt_cons c cs⟩, ?_, ?_, ?_⟩
      · simp [stringChar, alt, recognize, pair, char, satisfy, hslash, hquote, unexpected]
        rfl
      · rw [hbefore]
        rfl
      · rw [hbefore]
        exact fun body => .plain hquote hslash

/-- The elements of a string token are taken up to its end. -/
theorem exists_manyFrom_stringChar {bound : Nat} (values : List (List Char)) (rest : List Char)
    (h : byteSize rest < bound) :
    ∃ p body, manyFrom (ofItem stringChar) values rest h = .ok p ∧ IsStringBody body ∧
      rest = body ++ p.rest ∧ EndsString p.rest := by
  rw [manyFrom]
  rcases stringChar_cases rest with ⟨hends, refusal, hstop⟩ | ⟨p, hp, hrest, hbody⟩
  · have hrule : ofItem stringChar rest = .error (.error refusal) := by
      rw [ofItem, hstop]
      rfl
    rw [hrule]
    exact ⟨_, [], rfl, .nil, rfl, hends⟩
  · have hrule : ofItem stringChar rest = .ok ⟨p.value, p.rest, Nat.lt_succ_of_lt p.rest_lt⟩ := by
      rw [ofItem, hp]
      rfl
    rw [hrule]
    have hlt := p.rest_lt
    simp only [dif_neg (Nat.ne_of_lt hlt)]
    obtain ⟨q, body, hq, hinner, hsplit, hends⟩ :=
      exists_manyFrom_stringChar (p.value :: values) p.rest (Nat.lt_trans hlt h)
    refine ⟨q, p.value ++ body, hq, hbody body hinner, ?_, hends⟩
    rw [List.append_assoc, ← hsplit]
    exact hrest
termination_by byteSize rest

/-- A string token is taken with both its quotes, or it is the end of the text. -/
theorem string_cases (cs : List Char) :
    (∃ body after hlt, cs = body ++ '"' :: after ∧ IsStringBody body ∧ Grammar.string ('"' :: cs) =
        .ok ⟨.string (String.ofList ('"' :: (body ++ ['"']))), after, hlt⟩) ∨
      ∃ body slash, cs = body ++ slash ∧ IsStringBody body ∧ (slash = [] ∨ slash = ['\\']) ∧
        Grammar.string ('"' :: cs) = fail ('"' :: cs) .unterminated := by
  obtain ⟨⟨values, rest, hrest⟩, body, hmany, hbody, hsplit, hends⟩ :=
    exists_manyFrom_stringChar [] cs (Nat.lt_succ_self _)
  simp only at hsplit hends
  subst hsplit
  have hopen : char '"' ('"' :: (body ++ rest)) = .ok ⟨'"', body ++ rest, byteSize_lt_cons '"' _⟩ :=
    rfl
  rcases hends with hslash | ⟨after, rfl⟩
  · obtain ⟨stop, hstop⟩ : ∃ stop, char '"' rest = .error stop := by
      rcases hslash with rfl | rfl <;> exact ⟨_, rfl⟩
    refine .inr ⟨body, rest, rfl, hbody, hslash, ?_⟩
    simp only [Grammar.string, many, hopen, hmany, hstop, bind, Except.bind]
  · have hbefore : before ('"' :: (body ++ '"' :: after)) after = '"' :: (body ++ ['"']) := by
      have hsplit : '"' :: (body ++ '"' :: after) = '"' :: (body ++ ['"']) ++ after := by simp
      rw [hsplit, before_append]
    have hlt : byteSize after < byteSize ('"' :: (body ++ '"' :: after)) := by
      have hafter := byteSize_lt_cons '"' after
      have hbody := byteSize_lt_cons '"' (body ++ '"' :: after)
      omega
    refine .inl ⟨body, after, hlt, rfl, hbody, ?_⟩
    · simp only [Grammar.string, many, hopen, hmany, bind, Except.bind, ← hbefore]
      rfl

end Grammar

namespace Reader

open Rule Grammar

variable {bound size depth : Nat} {c : Char} {cs rest input : List Char} {nodes : List Node}
  {frames : List Frame}

/-- How a run goes on where a rule was applied to the text that is left: with one node more, or with
the report of the stop. -/
def resume (size : Nat) (nodes : List Node) (frames : List Frame) :
    Except Stop (Parsed bound Node) → Except ReadError Program
  | .ok p => (facing size .gap (p.value :: nodes) frames p.rest).run p.rest
  | .error stop => .error (stop.report size)

theorem run_atom (h : byteSize (c :: cs) ≤ size) (hc : isBare c = true) :
    (facing size .gap nodes frames (c :: cs)).run (c :: cs) =
      resume size nodes frames (atom (c :: cs)) := by
  obtain ⟨hblank, hopen, hclose, hquote⟩ := isBare_iff.mp hc
  have hatom : atom (c :: cs) = .ok ⟨Node.ofBare (c :: cs.takeWhile isBare), cs.dropWhile isBare,
      Nat.lt_of_le_of_lt (byteSize_dropWhile_le isBare cs) (byteSize_lt_cons c cs)⟩ := by
    rw [atom, takeWhile1, if_pos hc]
    rfl
  have haccept : (facing size .gap nodes frames (c :: cs)).accept c =
      .ok (facing size (.bare [c]) nodes frames (c :: cs)) := by
    show (facing size .gap nodes frames (c :: cs)).enter c = _
    rw [enter, if_neg (by simp [hblank]), if_neg hopen, if_neg hclose, if_neg hquote]
    rfl
  have hrest : ∀ d ∈ (cs.dropWhile isBare).head?, isBare d = false := by
    intro d hd
    obtain ⟨after, hafter⟩ := List.head?_eq_some_iff.mp hd
    exact eq_false_of_dropWhile_eq_cons hafter
  rw [run_of_accept h haccept, hatom, run_bare (byteSize_le_of_cons h), run_settle rfl hrest]
  simp [settle, push, resume, facing]

theorem run_string (h : byteSize ('"' :: cs) ≤ size) :
    (facing size .gap nodes frames ('"' :: cs)).run ('"' :: cs) =
      resume size nodes frames (Grammar.string ('"' :: cs)) := by
  have hcs := byteSize_le_of_cons h
  have haccept : (facing size .gap nodes frames ('"' :: cs)).accept '"' =
      .ok (facing size (.quoted (size - byteSize ('"' :: cs)) ['"']) nodes frames ('"' :: cs)) :=
    rfl
  rw [run_of_accept h haccept]
  rcases string_cases cs with
    ⟨body, after, hlt, rfl, hbody, hstring⟩ | ⟨body, slash, rfl, hbody, hslash, hstring⟩
  · have hafter : byteSize ('"' :: after) ≤ size := by
      rw [byteSize_append] at hcs
      omega
    have hclose : (facing size (.quoted (size - byteSize ('"' :: (body ++ '"' :: after)))
        (body.reverse ++ ['"'])) nodes frames ('"' :: after)).accept '"' =
          .ok (facing size .gap (.string (String.ofList ('"' :: (body.reverse ++ ['"'])).reverse) ::
            nodes) frames ('"' :: after)) := rfl
    rw [run_quoted hbody hcs, hstring, run_of_accept hafter hclose]
    simp [resume]
  · rw [run_quoted hbody hcs, hstring]
    rcases hslash with rfl | rfl <;> rfl

theorem resume_cut (result : Except Stop (Parsed bound Node)) :
    resume size nodes frames (cut result) = resume size nodes frames result := by
  match result with
  | .ok p => rfl
  | .error (.error refusal) => rfl
  | .error (.failure refusal) => rfl
  | .error .incomplete => rfl

theorem run_closing {children : List Node} (hlt : byteSize cs < byteSize input)
    (h : byteSize (')' :: cs) ≤ size) :
    (facing size .gap children (⟨size - byteSize input, nodes⟩ :: frames) (')' :: cs)).run
        (')' :: cs) =
      resume size nodes frames
        (if children.isEmpty then fail input .emptyCall
        else .ok ⟨.call children.reverse, cs, hlt⟩) := by
  cases children with
  | nil => rfl
  | cons child children =>
    have haccept : (facing size .gap (child :: children) (⟨size - byteSize input, nodes⟩ :: frames)
        (')' :: cs)).accept ')' =
          .ok (facing size .gap (.call (child :: children).reverse :: nodes) frames (')' :: cs)) :=
      rfl
    rw [run_of_accept h haccept]
    rfl

/-- The run goes on behind the blanks that the descent takes, at a character that is none. -/
theorem exists_run_blanks (nodes : List Node) (frames : List Frame) (h : byteSize rest ≤ size) :
    ∃ next, blanks rest = .ok next ∧
      (facing size .gap nodes frames rest).run rest =
        (facing size .gap nodes frames next.rest).run next.rest ∧
      ∀ c cs, next.rest = c :: cs → isBlank c = false :=
  ⟨_, rfl, run_dropWhile h, fun _ _ => eq_false_of_dropWhile_eq_cons⟩

/-- Behind some members of an open call, the run goes on as the descent takes the other members, if
fewer than `bound` bytes are left. -/
def FollowsMembers (size bound : Nat) : Prop :=
  ∀ (nodes : List Node) (frames : List Frame) (input : List Char) (children : List Node)
    (rest : List Char) (h : byteSize rest < byteSize input),
    byteSize rest < bound → byteSize input ≤ size →
      (facing size .gap children (⟨size - byteSize input, nodes⟩ :: frames) rest).run rest =
        resume size nodes frames (members (frames.length + 1) input children rest h)

theorem FollowsMembers.mono {bound' : Nat} (h : FollowsMembers size bound) (hle : bound' ≤ bound) :
    FollowsMembers size bound' :=
  fun nodes frames input children rest hrest hbound =>
    h nodes frames input children rest hrest (Nat.lt_of_lt_of_le hbound hle)

theorem FollowsMembers.run_call (hmembers : FollowsMembers size (byteSize ('(' :: cs)))
    (h : byteSize ('(' :: cs) ≤ size) :
    (facing size .gap nodes frames ('(' :: cs)).run ('(' :: cs) =
      resume size nodes frames (call (frames.length + 1) ('(' :: cs)) := by
  have hcs := byteSize_lt_cons '(' cs
  rw [call]
  by_cases hdeep : maxNesting < frames.length + 1
  · have haccept : (facing size .gap nodes frames ('(' :: cs)).accept '(' =
        .error (.malformed (size - byteSize ('(' :: cs)) .tooDeep) :=
      if_pos (Nat.le_of_lt_succ hdeep)
    rw [if_pos hdeep, run_of_accept_error haccept]
    rfl
  · have haccept : (facing size .gap nodes frames ('(' :: cs)).accept '(' =
        .ok (facing size .gap [] (⟨size - byteSize ('(' :: cs), nodes⟩ :: frames) ('(' :: cs)) :=
      if_neg fun hfull => hdeep (Nat.lt_succ_of_le hfull)
    rw [if_neg hdeep, run_of_accept h haccept]
    exact hmembers nodes frames ('(' :: cs) [] cs hcs hcs h

/-- An expression that stands at the front of the text is read as the descent takes it. -/
theorem FollowsMembers.run_expression (hmembers : FollowsMembers size (byteSize input))
    (nodes : List Node) (frames : List Frame) (h : byteSize input ≤ size) (hinput : input = c :: cs)
    (hblank : isBlank c = false) (hclose : c ≠ ')') :
    (facing size .gap nodes frames input).run input =
      resume size nodes frames (expression frames.length input) := by
  subst hinput
  rw [expression]
  by_cases hquote : c = '"'
  · subst hquote
    exact run_string h
  by_cases hopen : c = '('
  · subst hopen
    exact hmembers.run_call h
  · have hc : isBare c = true := isBare_iff.mpr ⟨hblank, hopen, hclose, hquote⟩
    rw [if_neg (by simpa using hquote), if_neg (by simpa using hopen)]
    exact run_atom h hc

-- The bound is what the induction is on: a member that is itself a call leaves fewer bytes behind
-- its parenthesis, and so do the members behind it.
theorem followsMembers (size bound : Nat) : FollowsMembers size bound := by
  induction bound with
  | zero => exact fun _ _ _ _ _ _ hbound => absurd hbound (Nat.not_lt_zero _)
  | succ bound ih =>
    intro nodes frames input children rest h hbound hinput
    obtain ⟨next, hblanks, hrun, hblank⟩ := exists_run_blanks children
      (⟨size - byteSize input, nodes⟩ :: frames) (Nat.le_trans (Nat.le_of_lt h) hinput)
    have hrest := next.rest_lt
    rw [members, hblanks, hrun]
    simp only [bind, Except.bind]
    split
    · next hnil =>
      rw [hnil]
      rfl
    · next c after hcons =>
      by_cases hclose : c = ')'
      · subst hclose
        rw [if_pos rfl]
        have hafter : byteSize (')' :: after) ≤ size := by
          rw [← hcons]
          omega
        have hnext := congrArg (fun cs =>
          (facing size .gap children (⟨size - byteSize input, nodes⟩ :: frames) cs).run cs) hcons
        exact hnext.trans (run_closing _ hafter)
      · have hexpression := (ih.mono (by omega)).run_expression children
          (⟨size - byteSize input, nodes⟩ :: frames) (by omega) hcons (hblank c after hcons) hclose
        rw [if_neg hclose, hexpression, ← resume_cut]
        cases hchild : cut (expression (frames.length + 1) next.rest) with
        | error stop => rfl
        | ok child =>
          have hlt := child.rest_lt
          exact ih nodes frames input (child.value :: children) child.rest (by omega) (by omega)
            hinput

/-- Outside all calls a text is read as the descent takes it. -/
theorem run_eq_expressions (source : List Char) (nodes : List Node) (rest : List Char)
    (h : byteSize rest ≤ byteSize source) :
    (facing (byteSize source) .gap nodes [] rest).run rest = expressions source nodes rest := by
  obtain ⟨next, hblanks, hrun, hblank⟩ := exists_run_blanks nodes [] h
  have hrest := next.rest_lt
  rw [expressions, hblanks, hrun]
  simp only [mapError_ok, bind, Except.bind]
  split
  · next hnil =>
    rw [hnil]
    rfl
  · next c after hcons =>
    by_cases hclose : c = ')'
    · subst hclose
      have haccept : (facing (byteSize source) .gap nodes [] (')' :: after)).accept ')' =
          .error (.malformed (byteSize source - byteSize (')' :: after)) .unmatched) := rfl
      rw [if_pos rfl, hcons, run_of_accept_error haccept]
    · have hexpression := (followsMembers (byteSize source) _).run_expression nodes []
        (Nat.le_trans (Nat.le_of_lt_succ hrest) h) hcons (hblank c after hcons) hclose
      rw [if_neg hclose, hexpression]
      have hlength : List.length ([] : List Frame) = 0 := rfl
      rw [hlength]
      cases hnode : expression 0 next.rest with
      | error stop => rfl
      | ok node =>
        have hlt := node.rest_lt
        exact run_eq_expressions source (node.value :: nodes) node.rest (by omega)
termination_by byteSize rest

end Reader

/-- The descent parses a text to the program that the reader reads, and rejects it with the report
that the reader gives. -/
theorem Program.parse_eq_run (source : String) :
    Program.parse source = Reader.start.run source.toList := by
  have hrun := Reader.run_eq_expressions source.toList [] source.toList (Nat.le_refl _)
  rw [parse, ← hrun, Reader.facing, Nat.sub_self]
  rfl

end Reduct
