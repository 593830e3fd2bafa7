import Reduct.Proofs.Source.Parse

/-!
# Which texts can be continued

The reader never gives up too early and never too late: what it has read without complaint can be
continued to a program, and what it has refused cannot.

## Main definitions

* `ReadError.Lasting`, `ReadError.Mendable` — the rejections that no more text can change, and those
  that more text can avert.
* `Reader.inString` — whether a reader stands inside a string token.
* `Reader.Refuses` — the characters that a reader refuses, and for what.
* `Reader.HasNode` — a reader at which the innermost call can be closed, if there is one.

## Main results

* `Reader.exists_accepts` — every reader accepts some text.
* `Reader.lasting_of_feedAll`, `Reader.mendable_of_finish` — which rejections are met on the way and
  which at the end of a text.
* `Reader.HasNode.accepts_closing_iff` — where a node has been read, as many closing parentheses are
  accepted as there are open calls.
* `Program.exists_parse_append_iff` — a text can be continued to one that parses exactly when its
  rejection is mendable, and every other rejection stands whatever follows.
-/

namespace Reduct

/-- The rejections for a flaw that is found at a character, whatever the text goes on with. -/
inductive ReadError.Lasting : ReadError → Prop where
  | unmatched (offset : Nat) : Lasting (.malformed offset .unmatched)
  | emptyCall (offset : Nat) : Lasting (.malformed offset .emptyCall)
  | tooDeep (offset : Nat) : Lasting (.malformed offset .tooDeep)

/-- The rejections for a construct that the text leaves open. -/
inductive ReadError.Mendable : ReadError → Prop where
  | unclosed (offset : Nat) : Mendable (.malformed offset .unclosed)
  | unterminated (offset : Nat) : Mendable (.malformed offset .unterminated)

namespace Reader

variable {r : Reader} {c : Char} {cs ds : List Char} {e : ReadError} {program : Program}

/-! ### Refused characters -/

/-- Whether a reader stands inside a string token. -/
def inString (r : Reader) : Bool :=
  match r.mode with
  | .gap | .bare _ => false
  | .quoted _ _ | .escape _ _ => true

theorem frames_settle (r : Reader) : r.settle.frames = r.frames := by
  unfold settle
  split <;> rfl

theorem offset_settle (r : Reader) : r.settle.offset = r.offset := by
  unfold settle
  split <;> rfl

/-- The ways in which a character can be refused. -/
inductive Refuses (r : Reader) : Char → ReadError → Prop where
  | tooDeep (hfull : maxNesting ≤ r.frames.length) :
      Refuses r '(' (.malformed r.offset .tooDeep)
  | unmatched (hframes : r.frames = []) : Refuses r ')' (.malformed r.offset .unmatched)
  | emptyCall {frame : Frame} {outer : List Frame} (hframes : r.frames = frame :: outer)
      (hnodes : r.settle.nodes = []) : Refuses r ')' (.malformed frame.opened .emptyCall)

theorem refuses_of_enter (h : r.settle.enter c = .error e) : r.Refuses c e := by
  unfold enter at h
  split at h
  · cases h
  split at h
  next hopen =>
    unfold openCall at h
    rw [frames_settle, offset_settle] at h
    split at h
    next hfull =>
      cases h
      exact hopen ▸ .tooDeep hfull
    · cases h
  split at h
  next hclose =>
    unfold closeCall at h
    rw [frames_settle, offset_settle] at h
    split at h
    next hframes =>
      cases h
      exact hclose ▸ .unmatched hframes
    next hframes =>
      split at h
      next hnodes =>
        cases h
        exact hclose ▸ .emptyCall hframes (List.isEmpty_iff.mp hnodes)
      · cases h
  split at h
  · cases h
  · cases h

theorem refuses_of_accept (h : r.accept c = .error e) : r.inString = false ∧ r.Refuses c e := by
  unfold accept at h
  unfold inString
  cases hr : r.mode with
  | gap =>
    have hsettle : r.settle = r := by rw [settle, hr]
    simp only [hr] at h
    exact ⟨rfl, refuses_of_enter (by rwa [hsettle])⟩
  | bare token =>
    simp only [hr] at h
    split at h
    · cases h
    · exact ⟨rfl, refuses_of_enter h⟩
  | quoted opened token =>
    simp only [hr] at h
    split at h
    · cases h
    · split at h <;> cases h
  | escape opened token =>
    simp only [hr] at h
    cases h

/-- A text is refused at its first character that the reader refuses. -/
theorem exists_refuses_of_feedAll (h : r.feedAll cs = .error e) :
    ∃ before c after r', cs = before ++ c :: after ∧ r.feedAll before = .ok r' ∧
      r'.inString = false ∧ r'.Refuses c e := by
  induction cs generalizing r with
  | nil => cases h
  | cons c cs ih =>
    cases haccept : r.accept c with
    | error e' =>
      rw [feedAll_cons_of_accept_error haccept] at h
      cases h
      exact ⟨[], c, cs, r, rfl, rfl, refuses_of_accept haccept⟩
    | ok r₁ =>
      rw [feedAll_cons_of_accept haccept] at h
      obtain ⟨before, d, after, r', rfl, hbefore, hr'⟩ := ih h
      exact ⟨c :: before, d, after, r', rfl, by rw [feedAll_cons_of_accept haccept, hbefore], hr'⟩

theorem lasting_of_feedAll (h : r.feedAll cs = .error e) : e.Lasting := by
  obtain ⟨_, _, _, _, -, -, -, hrefuses⟩ := exists_refuses_of_feedAll h
  cases hrefuses with
  | tooDeep => exact .tooDeep _
  | unmatched => exact .unmatched _
  | emptyCall => exact .emptyCall _

/-! ### Where a text can end -/

/-- A text is rejected at its end if it ends inside a string or, outside strings, inside a call. -/
theorem finish_cases (r : Reader) :
    (r.inString = true ∧ ∃ offset, r.finish = .error (.malformed offset .unterminated)) ∨
      (r.inString = false ∧ r.frames ≠ [] ∧
        ∃ offset, r.finish = .error (.malformed offset .unclosed)) ∨
      (r.inString = false ∧ r.frames = [] ∧ ∃ program, r.finish = .ok program) := by
  unfold inString finish
  cases r.mode with
  | gap | bare token => cases r.frames <;> simp
  | quoted opened token | escape opened token => simp

theorem mendable_of_finish (h : r.finish = .error e) : e.Mendable := by
  rcases r.finish_cases with ⟨-, offset, hfinish⟩ | ⟨-, -, offset, hfinish⟩ | ⟨-, -, _, hfinish⟩
  · cases hfinish.symm.trans h
    exact .unterminated offset
  · cases hfinish.symm.trans h
    exact .unclosed offset
  · cases hfinish.symm.trans h

theorem finish_eq_unclosed_iff :
    (∃ offset, r.finish = .error (.malformed offset .unclosed)) ↔
      r.inString = false ∧ r.frames ≠ [] := by
  rcases r.finish_cases with
    ⟨hr, offset, hfinish⟩ | ⟨hr, hframes, hfinish⟩ | ⟨hr, hframes, program, hfinish⟩
  · simp [hr, hfinish]
  · exact iff_of_true hfinish ⟨hr, hframes⟩
  · simp [hframes, hfinish]

/-! ### Texts that complete a reader -/

theorem accepts_append_iff :
    r.Accepts (cs ++ ds) program ↔ ∃ r', r.feedAll cs = .ok r' ∧ r'.Accepts ds program := by
  rw [accepts_iff, feedAll_append]
  simp only [accepts_iff]
  cases r.feedAll cs with
  | error e => simp [bind, Except.bind]
  | ok r' => simp [bind, Except.bind]

theorem mode_of_inString_eq_false (hr : r.inString = false) :
    r.mode = .gap ∨ ∃ token, r.mode = .bare token := by
  unfold inString at hr
  cases hmode : r.mode with
  | gap => exact .inl rfl
  | bare token => exact .inr ⟨token, rfl⟩
  | quoted opened token | escape opened token => simp [hmode] at hr

theorem mode_settle (hr : r.inString = false) : r.settle.mode = .gap := by
  rcases mode_of_inString_eq_false hr with hmode | ⟨token, hmode⟩ <;> simp [settle, hmode]

/-- Outside strings, a character that cannot be part of a bare token completes the one under way. -/
theorem accept_of_not_bare (hr : r.inString = false) (hc : isBare c = false) :
    r.accept c = r.settle.enter c := by
  rcases mode_of_inString_eq_false hr with hmode | ⟨token, hmode⟩
  · simp [accept, settle, hmode]
  · simp [accept, hmode, hc]

theorem accept_closing (hr : r.inString = false) : r.accept ')' = r.settle.closeCall := by
  have hblank : Text.isBlank ')' = false := by decide
  rw [accept_of_not_bare hr (by decide), enter, hblank]
  rfl

/-- A reader outside strings whose innermost group is not empty, once a bare token under way is
complete. -/
structure HasNode (r : Reader) : Prop where
  inString_eq : r.inString = false
  nodes_ne : r.settle.nodes ≠ []

/-- A closing parenthesis ends the innermost call, which is then a node of the group around it. -/
theorem HasNode.exists_feed_closing {frame : Frame} {outer : List Frame} (h : r.HasNode)
    (hframes : r.frames = frame :: outer) :
    ∃ r', r.feed ')' = .ok r' ∧ r'.HasNode ∧ r'.frames = outer := by
  have hmode : r.settle.mode = .gap := mode_settle h.inString_eq
  have hclose : r.accept ')' = .ok
      { r.settle with nodes := .call r.settle.nodes.reverse :: frame.before, frames := outer } := by
    rw [accept_closing h.inString_eq]
    simp [closeCall, frames_settle, hframes, h.nodes_ne]
  refine ⟨_, feed_of_accept hclose, ⟨?_, ?_⟩, rfl⟩
  · simp [inString, advance, hmode]
  · rw [settle]
    simp [advance, hmode]

theorem feed_closing_of_frames_nil (hr : r.inString = false) (hframes : r.frames = []) :
    r.feed ')' = .error (.malformed r.settle.offset .unmatched) := by
  refine feed_of_accept_error ?_
  rw [accept_closing hr]
  simp [closeCall, frames_settle, hframes]

/-- Closing parentheses are accepted exactly if there is one for each open call. -/
theorem HasNode.accepts_closing_iff (h : r.HasNode) (k : Nat) :
    (∃ program, r.Accepts (List.replicate k ')') program) ↔ k = r.frames.length := by
  -- Each parenthesis leaves a reader of the same kind with one open call less.
  induction k generalizing r with
  | zero =>
    simp only [List.replicate_zero, accepts_nil_iff]
    rcases r.finish_cases with
      ⟨hstring, -⟩ | ⟨-, hframes, offset, hfinish⟩ | ⟨-, hframes, hfinish⟩
    · exact absurd hstring (by simp [h.inString_eq])
    · simpa [hfinish, eq_comm] using hframes
    · simp [hfinish, hframes]
  | succ k ih =>
    simp only [List.replicate_succ, accepts_cons_iff]
    cases hframes : r.frames with
    | nil => simp [feed_closing_of_frames_nil h.inString_eq hframes]
    | cons frame outer =>
      obtain ⟨r', hfeed, hr', rfl⟩ := h.exists_feed_closing hframes
      simp only [hfeed, Except.ok.injEq, exists_eq_left', ih hr', List.length_cons,
        Nat.add_right_cancel_iff]

/-- A name behind a blank is a node of its own, whatever stands before it. -/
theorem exists_feedAll_name (hr : r.inString = false) :
    ∃ r', r.feedAll " x".toList = .ok r' ∧ r'.HasNode ∧ r'.frames = r.frames := by
  have hmode : r.settle.mode = .gap := mode_settle hr
  have hblank : r.accept ' ' = .ok r.settle := by
    rw [accept_of_not_bare hr (by decide)]
    rfl
  have hname : (r.settle.advance ' ').accept 'x' =
      .ok { r.settle.advance ' ' with mode := .bare ['x'] } := by
    rw [accept]
    simp only [advance, hmode]
    rfl
  have hrun : r.feedAll " x".toList =
      .ok ({ r.settle.advance ' ' with mode := .bare ['x'] }.advance 'x') :=
    (feedAll_cons_of_accept hblank).trans (feedAll_cons_of_accept hname)
  exact ⟨_, hrun, ⟨rfl, List.cons_ne_nil _ _⟩, frames_settle r⟩

/-- A string lasts until the next quote. -/
theorem exists_feedAll_of_inString (hr : r.inString = true) (hcs : '"' ∉ cs) :
    ∃ r', r.feedAll cs = .ok r' ∧ r'.inString = true := by
  induction cs generalizing r with
  | nil => exact ⟨r, rfl, hr⟩
  | cons c cs ih =>
    rw [List.mem_cons, not_or] at hcs
    obtain ⟨r', haccept, hr'⟩ : ∃ r', r.accept c = .ok r' ∧ r'.inString = true := by
      unfold inString at hr
      rw [accept]
      cases hmode : r.mode with
      | gap | bare token => simp [hmode] at hr
      | quoted opened token =>
        simp only [Ne.symm hcs.1, if_false]
        split
        · exact ⟨_, rfl, rfl⟩
        · exact ⟨_, rfl, rfl⟩
      | escape opened token => exact ⟨_, rfl, rfl⟩
    rw [feedAll_cons_of_accept haccept]
    exact ih hr' hcs.2

/-- Quotes lead out of a string; it takes two if a backslash takes the first one along. -/
theorem exists_feedAll_quotes (r : Reader) :
    ∃ quotes r', r.feedAll quotes = .ok r' ∧ r'.inString = false := by
  have hquoted : ∀ (r : Reader) (opened : Nat) (token : List Char), r.mode = .quoted opened token →
      ∃ r', r.feedAll ['"'] = .ok r' ∧ r'.inString = false := by
    intro r opened token hmode
    have haccept : r.accept '"' = .ok
        { r.push (.string (String.ofList ('"' :: token).reverse)) with mode := .gap } := by
      simp [accept, hmode]
    exact ⟨_, feedAll_cons_of_accept haccept, rfl⟩
  cases hmode : r.mode with
  | gap | bare token => exact ⟨[], r, rfl, by simp [inString, hmode]⟩
  | quoted opened token => exact ⟨['"'], hquoted r opened token hmode⟩
  | escape opened token =>
    have haccept : r.accept '"' = .ok { r with mode := .quoted opened ('"' :: token) } := by
      rw [accept, hmode]
    refine ⟨['"', '"'], ?_⟩
    rw [feedAll_cons_of_accept haccept]
    exact hquoted _ opened _ rfl

/-- Every reader accepts some text: quotes to end a string, a name so that no call is empty, and a
closing parenthesis for each open call. -/
theorem exists_accepts (r : Reader) : ∃ text program, r.Accepts text program := by
  obtain ⟨quotes, r₁, hquotes, hr₁⟩ := r.exists_feedAll_quotes
  obtain ⟨r₂, hname, hr₂, -⟩ := exists_feedAll_name hr₁
  obtain ⟨program, hclosing⟩ := (hr₂.accepts_closing_iff _).mpr rfl
  refine ⟨quotes ++ (" x".toList ++ List.replicate r₂.frames.length ')'), program, ?_⟩
  rw [accepts_append_iff]
  refine ⟨r₁, hquotes, ?_⟩
  rw [accepts_append_iff]
  exact ⟨r₂, hname, hclosing⟩

/-- A name and closing parentheses complete exactly the readers outside strings with as many open
calls. -/
theorem accepts_name_closing_iff (r : Reader) (k : Nat) :
    (∃ program, r.Accepts (" x".toList ++ List.replicate k ')') program) ↔
      r.inString = false ∧ k = r.frames.length := by
  cases hr : r.inString with
  | true =>
    -- There is no quote in the text, so it is taken for the rest of the string.
    have hquote : '"' ∉ " x".toList ++ List.replicate k ')' := by
      simp [List.mem_replicate]
    obtain ⟨r', hfeed, hr'⟩ := exists_feedAll_of_inString hr hquote
    simp only [accepts_iff, hfeed, Except.ok.injEq, exists_eq_left']
    rcases r'.finish_cases with ⟨-, offset, hfinish⟩ | ⟨h, -⟩ | ⟨h, -⟩
    · simp [hfinish]
    · exact absurd h (by simp [hr'])
    · exact absurd h (by simp [hr'])
  | false =>
    obtain ⟨r', hname, hr', hframes⟩ := exists_feedAll_name hr
    simp only [accepts_append_iff, hname, Except.ok.injEq, exists_eq_left', true_and,
      hr'.accepts_closing_iff, hframes]

end Reader

namespace Program

variable {source : String} {r : Reader} {e : ReadError}

theorem parse_of_feedAll (h : Reader.start.feedAll source.toList = .ok r) :
    parse source = r.finish := by
  rw [parse_eq_run, Reader.run, h]
  rfl

theorem parse_append_of_feedAll_error (h : Reader.start.feedAll source.toList = .error e)
    (rest : String) : parse (source ++ rest) = .error e := by
  rw [parse_eq_run, Reader.run, String.toList_append, Reader.feedAll_append, h]
  rfl

theorem parse_append_eq_ok_iff {rest : String} {program : Program}
    (h : Reader.start.feedAll source.toList = .ok r) :
    parse (source ++ rest) = .ok program ↔ r.Accepts rest.toList program := by
  rw [parse_eq_ok_iff, ← Reader.start_accepts_iff, String.toList_append,
    Reader.accepts_append_iff]
  simp [h]

theorem exists_parse_append (h : Reader.start.feedAll source.toList = .ok r) :
    ∃ rest program, parse (source ++ rest) = .ok program := by
  obtain ⟨text, program, haccepts⟩ := r.exists_accepts
  refine ⟨String.ofList text, program, ?_⟩
  rw [parse_append_eq_ok_iff h, String.toList_ofList]
  exact haccepts

/-- A name and closing parentheses complete exactly the texts with as many open calls. -/
theorem exists_parse_name_closing_iff (h : Reader.start.feedAll source.toList = .ok r) (k : Nat) :
    (∃ program, parse (source ++ " x" ++ String.ofList (List.replicate k ')')) = .ok program) ↔
      r.inString = false ∧ k = r.frames.length := by
  simp only [String.append_assoc, parse_append_eq_ok_iff h, String.toList_append,
    String.toList_ofList]
  exact r.accepts_name_closing_iff k

theorem exists_parse_closing_iff (h : Reader.start.feedAll source.toList = .ok r) :
    (∃ k program, 1 ≤ k ∧
      parse (source ++ " x" ++ String.ofList (List.replicate k ')')) = .ok program) ↔
        r.inString = false ∧ r.frames ≠ [] := by
  simp only [exists_and_left, exists_parse_name_closing_iff h]
  constructor
  · rintro ⟨k, hk, hr, rfl⟩
    exact ⟨hr, List.ne_nil_of_length_pos hk⟩
  · rintro ⟨hr, hframes⟩
    exact ⟨r.frames.length, List.length_pos_iff.mpr hframes, hr, rfl⟩

/-- A text can be continued to one that parses exactly when it parses itself or leaves a call or a
string open; every other rejection is the rejection of all its continuations.  A call is what it
leaves open exactly when a name and some closing parentheses complete it. -/
theorem exists_parse_append_iff (source : String) :
    ((∃ rest program, parse (source ++ rest) = .ok program) ↔
        (∃ program, parse source = .ok program) ∨
          (∃ offset, parse source = .error (.malformed offset .unclosed)) ∨
          ∃ offset, parse source = .error (.malformed offset .unterminated)) ∧
      (∀ e, parse source = .error e → ¬e.Mendable →
        e.Lasting ∧ ∀ rest, parse (source ++ rest) = .error e) ∧
      ((∃ offset, parse source = .error (.malformed offset .unclosed)) ↔
        ∃ k program, 1 ≤ k ∧
          parse (source ++ " x" ++ String.ofList (List.replicate k ')')) = .ok program) := by
  cases hread : Reader.start.feedAll source.toList with
  | error e =>
    have hlasting : e.Lasting := Reader.lasting_of_feedAll hread
    have hrest : ∀ rest, parse (source ++ rest) = .error e := parse_append_of_feedAll_error hread
    have hsource : parse source = .error e := by simpa using hrest ""
    simp only [String.append_assoc, hrest, hsource]
    refine ⟨?_, ?_, ?_⟩
    · cases hlasting <;> simp
    · rintro _ ⟨⟩ -
      exact ⟨hlasting, fun _ => rfl⟩
    · cases hlasting <;> simp
  | ok r =>
    have hsource : parse source = r.finish := parse_of_feedAll hread
    rw [exists_parse_closing_iff hread, hsource]
    refine ⟨iff_of_true (exists_parse_append hread) ?_, ?_, Reader.finish_eq_unclosed_iff⟩
    · rcases r.finish_cases with ⟨-, h⟩ | ⟨-, -, h⟩ | ⟨-, -, h⟩
      · exact .inr (.inr h)
      · exact .inr (.inl h)
      · exact .inl h
    · intro e h hnot
      exact absurd (Reader.mendable_of_finish h) hnot

/-- An open string in an open call can be completed, even after a backslash; an empty call
cannot. -/
theorem exists_parse_append_openString :
    (∃ rest program, parse ("(+ 1 \"abc\\" ++ rest) = .ok program) ∧
      (∀ rest, parse ("(f (g ()" ++ rest) = .error (.malformed 6 .emptyCall)) ∧
      ∃ k program, 1 ≤ k ∧
        parse ("(+ (* 2 3) (- 4" ++ " x" ++ String.ofList (List.replicate k ')')) =
          .ok program := by
  refine ⟨?_, ?_, ?_⟩
  · exact (exists_parse_append_iff _).1.mpr (.inr (.inr ⟨5, rfl⟩))
  · have hlasting : ¬(ReadError.malformed 6 .emptyCall).Mendable := by rintro ⟨⟩
    exact ((exists_parse_append_iff _).2.1 (.malformed 6 .emptyCall) rfl hlasting).2
  · exact (exists_parse_append_iff _).2.2.mp ⟨11, rfl⟩

end Program

end Reduct
