import Reduct.Proofs.Source.Concatenation

/-!
# What a reader recalls of its text

A reader keeps the bytes at which it opened the calls and the string that it is inside of.  These
are places in the text it has read: a parenthesis or a quote stands there, what stands before it
ends outside strings, and what stands behind it is what the reader has inside that call or string.

## Main definitions

* `Reader.under` — a reader inside further open calls.
* `Reader.Move` — what one character can do.
* `Reader.Since` — a part of a text that starts at a given byte.
* `Reader.Recalls` — the places that a reader keeps are those of its text.

## Main results

* `Reader.exists_feed_under` — inside further calls a text is read as it is on its own.
* `Reader.Recalls.feed`, `Reader.Recalls.feedAll` — one character and a whole text.

## Design notes

The converse of `exists_feed_under` fails at the limit of nesting: what can be read on its own may
be too deep inside further calls.
-/

namespace Reduct

theorem IsStringBody.append {cs ds : List Char} (h : IsStringBody cs) (h' : IsStringBody ds) :
    IsStringBody (cs ++ ds) := by
  induction h with
  | nil => exact h'
  | plain hquote hslash _ ih => exact .plain hquote hslash ih
  | escaped _ ih => exact .escaped ih

namespace Reader

variable {p q r r' : Reader} {c : Char} {cs ds : List Char} {base : List Frame}

/-! ### Reading inside further calls -/

/-- A reader inside further open calls. -/
def under (base : List Frame) (p : Reader) : Reader := { p with frames := p.frames ++ base }

theorem settle_under : (p.under base).settle = p.settle.under base := by
  obtain ⟨offset, mode, nodes, frames⟩ := p
  cases mode <;> rfl

theorem exists_openCall_under (h : (p.under base).openCall = .ok r) :
    ∃ q, p.openCall = .ok q ∧ r = q.under base := by
  unfold openCall at h ⊢
  split at h
  · cases h
  next hroom =>
    have hp : ¬maxNesting ≤ p.frames.length := by
      simp only [under, List.length_append] at hroom
      omega
    cases h
    rw [if_neg hp]
    exact ⟨_, rfl, rfl⟩

theorem exists_closeCall_under (h : (p.under base).closeCall = .ok r)
    (hbase : base.length ≤ r.frames.length) :
    ∃ q, p.closeCall = .ok q ∧ r = q.under base := by
  obtain ⟨offset, mode, nodes, frames⟩ := p
  cases nodes with
  | nil => cases frames <;> cases base <;> cases h
  | cons node nodes =>
    cases frames with
    | nil =>
      -- The call that ends here would be one of the further ones.
      cases base with
      | nil => cases h
      | cons frame outer =>
        cases h
        exact absurd hbase (Nat.not_succ_le_self _)
    | cons frame outer =>
      cases h
      exact ⟨_, rfl, rfl⟩

theorem exists_enter_under (h : (p.under base).enter c = .ok r)
    (hbase : base.length ≤ r.frames.length) : ∃ q, p.enter c = .ok q ∧ r = q.under base := by
  unfold enter at h ⊢
  by_cases hblank : Text.isBlank c = true
  · rw [if_pos hblank] at h ⊢
    cases h
    exact ⟨p, rfl, rfl⟩
  rw [if_neg hblank] at h ⊢
  by_cases hopen : c = '('
  · rw [if_pos hopen] at h ⊢
    exact exists_openCall_under h
  rw [if_neg hopen] at h ⊢
  by_cases hclose : c = ')'
  · rw [if_pos hclose] at h ⊢
    exact exists_closeCall_under h hbase
  rw [if_neg hclose] at h ⊢
  by_cases hquote : c = '"'
  · rw [if_pos hquote] at h ⊢
    cases h
    exact ⟨{ p with mode := .quoted p.offset [c] }, rfl, rfl⟩
  · rw [if_neg hquote] at h ⊢
    cases h
    exact ⟨{ p with mode := .bare [c] }, rfl, rfl⟩

theorem exists_accept_under (h : (p.under base).accept c = .ok r)
    (hbase : base.length ≤ r.frames.length) : ∃ q, p.accept c = .ok q ∧ r = q.under base := by
  have hmode : (p.under base).mode = p.mode := rfl
  unfold accept at h ⊢
  rw [hmode] at h
  cases hp : p.mode with
  | gap =>
    simp only [hp] at h
    exact exists_enter_under h hbase
  | bare token =>
    simp only [hp] at h ⊢
    by_cases hc : isBare c = true
    · rw [if_pos hc] at h ⊢
      cases h
      exact ⟨{ p with mode := .bare (c :: token) }, rfl, rfl⟩
    · rw [if_neg hc] at h ⊢
      rw [settle_under] at h
      exact exists_enter_under h hbase
  | quoted opened token =>
    simp only [hp] at h ⊢
    by_cases hquote : c = '"'
    · rw [if_pos hquote] at h ⊢
      cases h
      exact ⟨{ p.push (.string _) with mode := .gap }, rfl, rfl⟩
    rw [if_neg hquote] at h ⊢
    by_cases hslash : c = '\\'
    · rw [if_pos hslash] at h ⊢
      cases h
      exact ⟨{ p with mode := .escape opened (c :: token) }, rfl, rfl⟩
    · rw [if_neg hslash] at h ⊢
      cases h
      exact ⟨{ p with mode := .quoted opened (c :: token) }, rfl, rfl⟩
  | escape opened token =>
    simp only [hp] at h
    cases h
    exact ⟨{ p with mode := .quoted opened (c :: token) }, rfl, rfl⟩

/-- A text inside further calls is read as it is on its own, unless it ends one of them. -/
theorem exists_feed_under (h : (p.under base).feed c = .ok r)
    (hbase : base.length ≤ r.frames.length) : ∃ q, p.feed c = .ok q ∧ r = q.under base := by
  cases haccept : (p.under base).accept c with
  | error e =>
    rw [feed_of_accept_error haccept] at h
    cases h
  | ok r' =>
    rw [feed_of_accept haccept] at h
    cases h
    obtain ⟨q, hq, rfl⟩ := exists_accept_under haccept hbase
    exact ⟨q.advance c, feed_of_accept hq, rfl⟩

/-! ### What one character does -/

/-- The ways in which a character can be read, its width in bytes left aside. -/
inductive Move (r : Reader) (c : Char) (r' : Reader) : Prop where
  | opens (hr : r.inString = false) (hc : c = '(') (hroom : r.frames.length < maxNesting)
      (hr' : r' = ⟨r.offset, .gap, [], ⟨r.offset, r.settle.nodes⟩ :: r.frames⟩)
  | closes {frame : Frame} (hframes : r.frames = frame :: r'.frames) (hr' : r'.inString = false)
  | stays (hframes : r'.frames = r.frames) (hr' : r'.inString = false)
  | quotes (hr : r.inString = false) (hc : c = '"') (hframes : r'.frames = r.frames)
      (hr' : r'.mode = .quoted r.offset [c])
  | continues {opened : Nat} {token : List Char} (hr : r.mode = .quoted opened token)
      (hquote : c ≠ '"') (hslash : c ≠ '\\') (hframes : r'.frames = r.frames)
      (hr' : r'.mode = .quoted opened (c :: token))
  | slashes {opened : Nat} {token : List Char} (hr : r.mode = .quoted opened token)
      (hc : c = '\\') (hframes : r'.frames = r.frames) (hr' : r'.mode = .escape opened (c :: token))
  | escapes {opened : Nat} {token : List Char} (hr : r.mode = .escape opened token)
      (hframes : r'.frames = r.frames) (hr' : r'.mode = .quoted opened (c :: token))

theorem move_of_enter (hr : r.inString = false) (h : r.settle.enter c = .ok r') : r.Move c r' := by
  have hmode : r.settle.mode = .gap := mode_settle hr
  have hgap : r.settle.inString = false := by rw [inString, hmode]
  unfold enter at h
  split at h
  · cases h
    exact .stays (frames_settle r) hgap
  split at h
  next hopen =>
    unfold openCall at h
    rw [frames_settle, offset_settle, hmode] at h
    split at h
    · cases h
    · cases h
      exact .opens hr hopen (by omega) rfl
  split at h
  · unfold closeCall at h
    rw [frames_settle] at h
    split at h
    · cases h
    next hframes =>
      split at h
      · cases h
      · cases h
        refine .closes hframes ?_
        simp [inString, hmode]
  split at h
  next hquote =>
    cases h
    exact .quotes hr hquote (frames_settle r) (by rw [offset_settle])
  · cases h
    exact .stays (frames_settle r) rfl

theorem move_of_accept (h : r.accept c = .ok r') : r.Move c r' := by
  unfold accept at h
  cases hr : r.mode with
  | gap =>
    have hsettle : r.settle = r := by rw [settle, hr]
    simp only [hr] at h
    exact move_of_enter (by rw [inString, hr]) (by rwa [hsettle])
  | bare token =>
    simp only [hr] at h
    split at h
    · cases h
      exact .stays rfl rfl
    · exact move_of_enter (by rw [inString, hr]) h
  | quoted opened token =>
    simp only [hr] at h
    split at h
    · cases h
      exact .stays rfl rfl
    next hquote =>
      split at h
      next hslash =>
        cases h
        exact .slashes hr hslash rfl rfl
      next hslash =>
        cases h
        exact .continues hr hquote hslash rfl rfl
  | escape opened token =>
    simp only [hr] at h
    cases h
    exact .escapes hr rfl rfl

theorem exists_move_of_feed (h : r.feed c = .ok r') : ∃ r₁, r.Move c r₁ ∧ r' = r₁.advance c := by
  cases haccept : r.accept c with
  | error e =>
    rw [feed_of_accept_error haccept] at h
    cases h
  | ok r₁ =>
    rw [feed_of_accept haccept] at h
    cases h
    exact ⟨r₁, move_of_accept haccept, rfl⟩

/-! ### What a reader recalls of its text -/

theorem feedAll_append_singleton (h : r.feedAll cs = .ok q) (hfeed : q.feed c = .ok r') :
    r.feedAll (cs ++ [c]) = .ok r' := by
  rw [feedAll_append, h]
  change q.feedAll [c] = _
  rw [feedAll, List.foldlM_cons, hfeed]
  rfl

theorem start_relocate (bytes : Nat) : start.relocate bytes [] = ⟨bytes, .gap, [], []⟩ := by
  rw [relocate, start, Nat.zero_add]
  rfl

/-- The given part of a text starts at the given byte, and what stands before it ends outside
strings. -/
def Since (cs : List Char) (opened : Nat) (rest : List Char) : Prop :=
  ∃ before q, cs = before ++ rest ∧ opened = Text.byteSize before ∧
    start.feedAll before = .ok q ∧ q.inString = false

theorem Since.append {opened : Nat} {rest : List Char} (h : Since cs opened rest)
    (ds : List Char) : Since (cs ++ ds) opened (rest ++ ds) := by
  obtain ⟨before, q, rfl, hopened, hq⟩ := h
  exact ⟨before, q, by simp, hopened, hq⟩

theorem offset_of_feedAll_start (h : start.feedAll cs = .ok r) : r.offset = Text.byteSize cs := by
  simpa [start] using offset_feedAll h

theorem since_of_feedAll (h : start.feedAll cs = .ok r) (hr : r.inString = false) (ds : List Char) :
    Since (cs ++ ds) r.offset ds :=
  ⟨cs, r, rfl, offset_of_feedAll_start h, h, hr⟩

/-- The part of a text that an open string token takes up. -/
def Mode.Recalls (cs : List Char) : Mode → Prop
  | .gap | .bare _ => True
  | .quoted opened _ => ∃ body, IsStringBody body ∧ Since cs opened ('"' :: body)
  | .escape opened _ => ∃ body, IsStringBody body ∧ Since cs opened ('"' :: (body ++ ['\\']))

/-- The part of a text behind the parenthesis of an open call, read on its own, leads to what the
reader has inside that call. -/
def Frame.Recalls (cs : List Char) (r : Reader) (frame : Frame) (outer : List Frame) : Prop :=
  ∃ text p, Since cs frame.opened ('(' :: text) ∧
    (start.relocate (frame.opened + 1) []).feedAll text = .ok p ∧ r = p.under (frame :: outer)

/-- What a reader recalls of the text it has read: where it opened the calls and the string that it
is inside of, and what has followed since. -/
structure Recalls (cs : List Char) (r : Reader) : Prop where
  feedAll_eq : start.feedAll cs = .ok r
  length_frames_le : r.frames.length ≤ maxNesting
  frame : ∀ inner frame outer, r.frames = inner ++ frame :: outer → frame.Recalls cs r outer
  mode : r.mode.Recalls cs

theorem recalls_start : Recalls [] start where
  feedAll_eq := rfl
  length_frames_le := Nat.zero_le _
  frame inner frame outer h := by simp [start] at h
  mode := trivial

theorem mode_recalls_of_inString (h : r.inString = false) : r.mode.Recalls cs := by
  rcases mode_of_inString_eq_false h with hr | ⟨token, hr⟩ <;> rw [hr] <;> trivial

theorem Recalls.mode_move (h : Recalls cs r) (hmove : r.Move c r') :
    r'.mode.Recalls (cs ++ [c]) := by
  have hr := h.mode
  cases hmove with
  | opens _ _ _ hr' => exact mode_recalls_of_inString (by rw [hr', inString])
  | closes _ hr' => exact mode_recalls_of_inString hr'
  | stays _ hr' => exact mode_recalls_of_inString hr'
  | quotes hmode hc _ hr' =>
    rw [hr', hc]
    exact ⟨[], .nil, since_of_feedAll h.feedAll_eq hmode _⟩
  | continues hmode hquote hslash _ hr' =>
    rw [hmode] at hr
    rw [hr']
    obtain ⟨body, hbody, hsince⟩ := hr
    exact ⟨body ++ [c], hbody.append (.plain hquote hslash .nil), hsince.append [c]⟩
  | slashes hmode hc _ hr' =>
    rw [hmode] at hr
    rw [hr', hc]
    obtain ⟨body, hbody, hsince⟩ := hr
    exact ⟨body, hbody, hsince.append ['\\']⟩
  | escapes hmode _ hr' =>
    rw [hmode] at hr
    rw [hr']
    obtain ⟨body, hbody, hsince⟩ := hr
    refine ⟨body ++ ['\\', c], hbody.append (.escaped .nil), ?_⟩
    simpa using hsince.append [c]

theorem Frame.Recalls.feed {frame : Frame} {outer : List Frame} (h : frame.Recalls cs r outer)
    (hfeed : r.feed c = .ok r') (hlength : (frame :: outer).length ≤ r'.frames.length) :
    frame.Recalls (cs ++ [c]) r' outer := by
  obtain ⟨text, p, hsince, hp, rfl⟩ := h
  obtain ⟨q, hq, rfl⟩ := exists_feed_under hfeed hlength
  exact ⟨text ++ [c], q, hsince.append [c], feedAll_append_singleton hp hq, rfl⟩

theorem Recalls.frame_feed (h : Recalls cs r) (hfeed : r.feed c = .ok r') {inner outer : List Frame}
    {frame : Frame} (hframes : r'.frames = inner ++ frame :: outer) :
    frame.Recalls (cs ++ [c]) r' outer := by
  have hlength : (frame :: outer).length ≤ r'.frames.length := by simp [hframes]
  -- A call that was open before stays what it was; the only new one is opened by this character.
  have hold : ∀ inner', r.frames = inner' ++ frame :: outer → frame.Recalls (cs ++ [c]) r' outer :=
    fun inner' hr => (h.frame inner' frame outer hr).feed hfeed hlength
  obtain ⟨r₁, hmove, rfl⟩ := exists_move_of_feed hfeed
  have hadvance : (r₁.advance c).frames = r₁.frames := rfl
  rw [hadvance] at hframes
  cases hmove with
  | opens hr hc _ hr₁ =>
    subst hc hr₁
    cases inner with
    | nil =>
      obtain ⟨rfl, rfl⟩ := List.cons.inj hframes
      refine ⟨[], _, since_of_feedAll h.feedAll_eq hr _, rfl, ?_⟩
      rw [start_relocate]
      rfl
    | cons frame' inner => exact hold inner (List.cons.inj hframes).2
  | @closes frame' hr _ => exact hold (frame' :: inner) (by rw [hr, hframes]; rfl)
  | stays hr | quotes _ _ hr | continues _ _ _ hr | slashes _ _ hr | escapes _ hr =>
    exact hold inner (by rw [← hr, hframes])

theorem Move.length_frames_le (hmove : r.Move c r') (h : r.frames.length ≤ maxNesting) :
    r'.frames.length ≤ maxNesting := by
  cases hmove with
  | opens _ _ hroom hr' =>
    rw [hr']
    exact hroom
  | closes hframes =>
    rw [hframes, List.length_cons] at h
    omega
  | stays hframes | quotes _ _ hframes | continues _ _ _ hframes | slashes _ _ hframes
  | escapes _ hframes => rwa [hframes]

theorem Recalls.feed (h : Recalls cs r) (hfeed : r.feed c = .ok r') : Recalls (cs ++ [c]) r' := by
  obtain ⟨r₁, hmove, hr'⟩ := exists_move_of_feed hfeed
  constructor
  · exact feedAll_append_singleton h.feedAll_eq hfeed
  · rw [hr']
    exact hmove.length_frames_le h.length_frames_le
  · intro inner frame outer hframes
    exact h.frame_feed hfeed hframes
  · have hmode : r₁.mode.Recalls (cs ++ [c]) := h.mode_move hmove
    rw [hr']
    exact hmode

theorem Recalls.feedAll (h : Recalls cs r) (hfeed : r.feedAll ds = .ok r') :
    Recalls (cs ++ ds) r' := by
  induction ds generalizing cs r with
  | nil =>
    cases hfeed
    simpa using h
  | cons d ds ih =>
    cases hd : r.feed d with
    | error e =>
      rw [Reader.feedAll, List.foldlM_cons, hd] at hfeed
      cases hfeed
    | ok r₁ =>
      rw [Reader.feedAll, List.foldlM_cons, hd] at hfeed
      rw [List.append_cons]
      exact ih (h.feed hd) hfeed

end Reader

end Reduct
