import Reduct.Proofs.Source.Continuation

/-!
# Texts one after another

Behind a text that parses and a blank, the reader starts afresh: it does what it does at the start
of a text, except that it counts bytes from further on and adds to the nodes that are already there.

## Main definitions

* `Reader.relocate` — a reader as it stands when its text comes behind another one.
* `ReadError.relocate` — the rejection of a text that comes behind another one.

## Main results

* `Reader.feedAll_relocate`, `Reader.finish_relocate` — reading does not depend on the place.
* `Program.parse_append_blank` — the parse of two texts with blanks between them.
-/

namespace Reduct

/-- The rejection of a text behind so many bytes. -/
def ReadError.relocate (bytes : Nat) : ReadError → ReadError
  | .malformed offset flaw => .malformed (offset + bytes) flaw
  | e => e

namespace Reader

/-- A token under way behind so many bytes. -/
def Mode.relocate (bytes : Nat) : Mode → Mode
  | .quoted opened token => .quoted (opened + bytes) token
  | .escape opened token => .escape (opened + bytes) token
  | mode => mode

/-- The nodes of a group with the given calls around it.  Only the outermost group is joined to the
nodes of the text before. -/
def joined (earlier : List Node) (outer : List Frame) (nodes : List Node) : List Node :=
  if outer.isEmpty then nodes ++ earlier else nodes

/-- Open calls behind so many bytes that spell the given nodes. -/
def relocateFrames (bytes : Nat) (earlier : List Node) : List Frame → List Frame
  | [] => []
  | frame :: outer =>
    ⟨frame.opened + bytes, joined earlier outer frame.before⟩ :: relocateFrames bytes earlier outer

/-- A reader whose text comes behind so many bytes that spell the given nodes, the last one
first. -/
def relocate (bytes : Nat) (earlier : List Node) (r : Reader) : Reader where
  offset := r.offset + bytes
  mode := r.mode.relocate bytes
  nodes := joined earlier r.frames r.nodes
  frames := relocateFrames bytes earlier r.frames

variable {r : Reader} {c : Char} {bytes : Nat} {earlier nodes : List Node} {frames : List Frame}

theorem joined_cons (node : Node) :
    joined earlier frames (node :: nodes) = node :: joined earlier frames nodes := by
  unfold joined
  split <;> rfl

theorem length_relocateFrames : (relocateFrames bytes earlier frames).length = frames.length := by
  induction frames with
  | nil => rfl
  | cons frame outer ih => simp [relocateFrames, ih]

theorem settle_relocate : (r.relocate bytes earlier).settle = r.settle.relocate bytes earlier := by
  obtain ⟨offset, mode, nodes, frames⟩ := r
  cases mode with
  | bare token => simp [relocate, settle, push, Mode.relocate, joined_cons]
  | _ => rfl

theorem openCall_relocate :
    (r.relocate bytes earlier).openCall =
      (r.openCall.map (relocate bytes earlier)).mapError (ReadError.relocate bytes) := by
  rw [openCall, openCall, relocate, length_relocateFrames]
  split
  · rfl
  · rfl

theorem closeCall_relocate :
    (r.relocate bytes earlier).closeCall =
      (r.closeCall.map (relocate bytes earlier)).mapError (ReadError.relocate bytes) := by
  obtain ⟨offset, mode, nodes, frames⟩ := r
  cases frames with
  | nil => rfl
  | cons frame outer =>
    have hinner : joined earlier (frame :: outer) nodes = nodes := rfl
    simp only [closeCall, relocate, relocateFrames, hinner]
    split
    · rfl
    · simp only [Except.map, mapError_ok, relocate, joined_cons]

theorem enter_relocate :
    (r.relocate bytes earlier).enter c =
      ((r.enter c).map (relocate bytes earlier)).mapError (ReadError.relocate bytes) := by
  unfold enter
  split
  · rfl
  split
  · exact openCall_relocate
  split
  · exact closeCall_relocate
  split
  · rfl
  · rfl

theorem accept_relocate :
    (r.relocate bytes earlier).accept c =
      ((r.accept c).map (relocate bytes earlier)).mapError (ReadError.relocate bytes) := by
  have hmode : (r.relocate bytes earlier).mode = r.mode.relocate bytes := rfl
  rw [accept, accept, hmode]
  cases hr : r.mode with
  | gap => exact enter_relocate
  | bare token =>
    by_cases hc : isBare c = true
    · simp [Mode.relocate, hc, Except.map, mapError_ok, relocate]
    · simp only [Mode.relocate, hc, settle_relocate]
      exact enter_relocate
  | quoted opened token =>
    simp only [Mode.relocate]
    split
    · simp [push, Except.map, mapError_ok, relocate, joined_cons, Mode.relocate]
    split
    · rfl
    · rfl
  | escape opened token => rfl

theorem feed_relocate :
    (r.relocate bytes earlier).feed c =
      ((r.feed c).map (relocate bytes earlier)).mapError (ReadError.relocate bytes) := by
  rw [feed, feed, accept_relocate]
  cases r.accept c with
  | error e => rfl
  | ok r' =>
    have hadvance : (r'.relocate bytes earlier).advance c =
        (r'.advance c).relocate bytes earlier := by
      simp [advance, relocate, Nat.add_right_comm]
    exact congrArg Except.ok hadvance

/-- Reading does not depend on where a text stands. -/
theorem feedAll_relocate (r : Reader) (cs : List Char) :
    (r.relocate bytes earlier).feedAll cs =
      ((r.feedAll cs).map (relocate bytes earlier)).mapError (ReadError.relocate bytes) := by
  induction cs generalizing r with
  | nil => rfl
  | cons c cs ih =>
    rw [feedAll, feedAll, List.foldlM_cons, List.foldlM_cons, feed_relocate]
    cases r.feed c with
    | error e => rfl
    | ok r' => exact ih r'

theorem finish_relocate (r : Reader) :
    (r.relocate bytes earlier).finish =
      (r.finish.map (earlier.reverse ++ ·)).mapError (ReadError.relocate bytes) := by
  have hmode : (r.relocate bytes earlier).mode = r.mode.relocate bytes := rfl
  have hframes : (r.relocate bytes earlier).frames = relocateFrames bytes earlier r.frames := rfl
  rw [finish, finish, hmode, hframes, settle_relocate]
  cases r.mode with
  | gap | bare token =>
    cases hr : r.frames with
    | nil =>
      have hnodes : (r.settle.relocate bytes earlier).nodes = r.settle.nodes ++ earlier := by
        simp [relocate, joined, frames_settle, hr]
      simp [Mode.relocate, relocateFrames, hnodes, Except.map, mapError_ok]
    | cons frame outer => rfl
  | quoted opened token | escape opened token => rfl

theorem offset_enter {r' : Reader} (h : r.enter c = .ok r') : r'.offset = r.offset := by
  unfold enter openCall closeCall at h
  grind

theorem offset_accept {r' : Reader} (h : r.accept c = .ok r') : r'.offset = r.offset := by
  have hsettle := offset_settle r
  unfold accept push at h
  grind [offset_enter]

/-- A reader counts the bytes of what it has read. -/
theorem offset_feedAll {cs : List Char} {r' : Reader} (h : r.feedAll cs = .ok r') :
    r'.offset = r.offset + Text.byteSize cs := by
  induction cs generalizing r with
  | nil =>
    cases h
    rfl
  | cons c cs ih =>
    cases haccept : r.accept c with
    | error e =>
      rw [feedAll_cons_of_accept_error haccept] at h
      cases h
    | ok mid =>
      rw [feedAll_cons_of_accept haccept] at h
      have hmid := offset_accept haccept
      simp [ih h, advance, hmid, Text.byteSize, Nat.add_assoc]

theorem feed_blank (hr : r.inString = false) (hc : Text.isBlank c = true) :
    r.feed c = .ok (r.settle.advance c) := by
  have hbare : isBare c = false := by simp [isBare, hc]
  have haccept : r.accept c = .ok r.settle := by
    rw [accept_of_not_bare hr hbare, enter, if_pos hc]
  exact feed_of_accept haccept

theorem feedAll_blanks_of_gap {cs : List Char} (hr : r.mode = .gap)
    (hcs : ∀ c ∈ cs, Text.isBlank c = true) :
    r.feedAll cs = .ok { r with offset := r.offset + Text.byteSize cs } := by
  induction cs generalizing r with
  | nil => rfl
  | cons c cs ih =>
    rw [List.forall_mem_cons] at hcs
    have hsettle : r.settle = r := by rw [settle, hr]
    rw [feedAll, List.foldlM_cons, feed_blank (by simp [inString, hr]) hcs.1, hsettle]
    have hrest : (r.advance c).feedAll cs = _ := ih hr hcs.2
    refine hrest.trans ?_
    simp only [advance, Text.byteSize, Nat.add_assoc]

/-- Blanks end a bare token and do nothing else. -/
theorem feedAll_blanks {cs : List Char} (hr : r.inString = false) (hne : cs ≠ [])
    (hcs : ∀ c ∈ cs, Text.isBlank c = true) :
    r.feedAll cs = .ok { r.settle with offset := r.offset + Text.byteSize cs } := by
  obtain ⟨c, cs, rfl⟩ := List.exists_cons_of_ne_nil hne
  rw [List.forall_mem_cons] at hcs
  rw [feedAll, List.foldlM_cons, feed_blank hr hcs.1]
  have hrest : (r.settle.advance c).feedAll cs = _ := feedAll_blanks_of_gap (mode_settle hr) hcs.2
  refine hrest.trans ?_
  simp only [advance, offset_settle, Text.byteSize, Nat.add_assoc]

theorem of_finish_eq_ok {program : Program} (h : r.finish = .ok program) :
    r.inString = false ∧ r.frames = [] ∧ r.settle.nodes = program.reverse := by
  unfold inString
  unfold finish at h
  cases hmode : r.mode with
  | gap | bare token =>
    cases hframes : r.frames with
    | nil =>
      simp only [hmode, hframes] at h
      cases h
      simp
    | cons frame outer =>
      simp only [hmode, hframes] at h
      cases h
  | quoted opened token | escape opened token =>
    simp only [hmode] at h
    cases h

end Reader

namespace Program

variable {first gap second : String} {earlier : Program}

/-- Behind a text that parses, and blanks, the reader stands as at the start. -/
theorem feedAll_start_append (h : parse first = .ok earlier) (hne : gap ≠ "")
    (hgap : ∀ c ∈ gap.toList, Text.isBlank c = true) :
    Reader.start.feedAll (first ++ gap).toList =
      .ok (Reader.start.relocate (first ++ gap).utf8ByteSize earlier.reverse) := by
  cases hfirst : Reader.start.feedAll first.toList with
  | error e =>
    rw [parse_eq_run, Reader.run, hfirst] at h
    cases h
  | ok r =>
    rw [parse_of_feedAll hfirst] at h
    obtain ⟨hstring, hframes, hnodes⟩ := Reader.of_finish_eq_ok h
    have hoffset := Reader.offset_feedAll hfirst
    have hlist : gap.toList ≠ [] := by simpa using hne
    rw [String.toList_append, Reader.feedAll_append, hfirst]
    refine (Reader.feedAll_blanks hstring hlist hgap).trans ?_
    have hstart : Reader.start.relocate (first ++ gap).utf8ByteSize earlier.reverse =
        ⟨0 + (first ++ gap).utf8ByteSize, .gap, [] ++ earlier.reverse, []⟩ := rfl
    have hbytes : r.offset + Text.byteSize gap.toList = 0 + (first ++ gap).utf8ByteSize := by
      simp [hoffset, Reader.start, ← Text.byteSize_ofList]
    simp only [hstart, Reader.mode_settle hstring, Reader.frames_settle, hframes, hnodes, hbytes,
      List.nil_append]

/-- Two texts with blanks between them parse as the nodes of both, or are rejected as the second
one is, at the byte where its flaw then stands. -/
theorem parse_append_blank (h : parse first = .ok earlier) (hne : gap ≠ "")
    (hgap : ∀ c ∈ gap.toList, Text.isBlank c = true) :
    parse (first ++ gap ++ second) =
      ((parse second).map (earlier ++ ·)).mapError
        (ReadError.relocate (first ++ gap).utf8ByteSize) := by
  rw [parse_eq_run, Reader.run, String.toList_append, Reader.feedAll_append,
    feedAll_start_append h hne hgap]
  change (Reader.feedAll _ second.toList >>= Reader.finish) = _
  rw [Reader.feedAll_relocate, parse_eq_run, Reader.run]
  cases Reader.start.feedAll second.toList with
  | error e => rfl
  | ok r =>
    change (r.relocate _ earlier.reverse).finish = _
    rw [Reader.finish_relocate, List.reverse_reverse]
    rfl

end Program

end Reduct
