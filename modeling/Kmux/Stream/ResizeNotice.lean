import Kmux.Daemon.Clients
import Kmux.Stream.Redelivery

/-!
# The notice of a resize

A resize sends each client two things: `PaneResized` on the control lane and, on the pane's data
lane, a snapshot of the new size, which the later diffs follow. Between the lanes nothing is
guaranteed. The client blanks its grid at the notice, and its sync state stays as it is, so what the
notice does depends on when it comes: before the snapshot it is repainted, and after it everything
drawn by then is lost until the daemon draws it again.

`resize_notice_iff` says for every order what the client ends up with.
-/

namespace Kmux

open TerminalBackend GridContent

/-- `on_event_pane_resized` -/
def PaneSession.onEventPaneResized (s : PaneSession) (size : TermSize) : PaneSession :=
  s.modifyGrid fun g ↦ (g.resize size.rows size.cols).1

/-- A client that handles the notice with `before` of the data lane behind it and `after` ahead. -/
def PaneSession.notified (s : PaneSession) (size : TermSize) (before after : List ServerMessage) :
    PaneSession :=
  ((s.receive before).onEventPaneResized size).receive after

/-- The client's grid has the dimensions of a snapshot, and its cells with later frames applied. -/
def PaneSession.Painted (s : PaneSession) (snapshot : GridSnapshot)
    (frames : List ServerMessage) : Prop :=
  ∃ g, s.buffer = some g ∧ g.rows = snapshot.rows.toNat ∧ g.cols = snapshot.cols.toNat ∧
    g.cells = applyOps snapshot.cols.toNat (frames.flatMap ServerMessage.ops) snapshot.cells

/-- Every cell a blanking takes away after `before` is blank then, or is drawn again by `after`. -/
def Restored (snapshot : GridSnapshot) (before after : List ServerMessage) : Prop :=
  ∀ i < snapshot.cells.length,
    (applyOps snapshot.cols.toNat (before.flatMap ServerMessage.ops) snapshot.cells)[i]?
        = some default ∨
      lastWritten snapshot.cols.toNat i (after.flatMap ServerMessage.ops) ≠ none

instance (snapshot : GridSnapshot) (before after : List ServerMessage) :
    Decidable (Restored snapshot before after) :=
  inferInstanceAs (Decidable (∀ i < _, _ ∨ _))

/-! ## Drawing over different cells -/

/-- Operations make two buffers of one length agree exactly where they agree or are written. -/
theorem applyOps_eq_iff (cols : ℕ) (ops : List DiffOp) {a b : List CellState}
    (hlength : a.length = b.length) : applyOps cols ops a = applyOps cols ops b ↔
      ∀ i < a.length, a[i]? = b[i]? ∨ lastWritten cols i ops ≠ none := by
  have hcell : ∀ i < a.length, ((applyOps cols ops a)[i]? = (applyOps cols ops b)[i]? ↔
      (a[i]? = b[i]? ∨ lastWritten cols i ops ≠ none)) := by
    intro i hi
    rw [getElem?_applyOps cols i ops a hi, getElem?_applyOps cols i ops b (hlength ▸ hi)]
    rcases lastWritten cols i ops with _ | c
    · rw [Option.none_or, Option.none_or]
      exact ⟨Or.inl, fun h ↦ h.resolve_right fun hne ↦ hne rfl⟩
    · rw [Option.some_or, Option.some_or]
      exact iff_of_true rfl (.inr (Option.some_ne_none c))
  constructor
  · intro heq i hi
    rw [← hcell i hi, heq]
  · refine fun h ↦ List.ext_getElem? fun i ↦ ?_
    by_cases hi : i < a.length
    · exact (hcell i hi).mpr (h i hi)
    · rw [List.getElem?_eq_none (by rw [length_applyOps]; omega),
        List.getElem?_eq_none (by rw [length_applyOps]; omega)]

/-! ## The notice between the frames -/

namespace PaneSession

variable {s : PaneSession} {snapshot : GridSnapshot} {label : SequenceNo} {size : TermSize}

theorem onEventPaneResized_following {g : GridContent} {n : SequenceNo} {k : ℕ}
    (h : s.Following g n k) (size : TermSize) :
    (s.onEventPaneResized size).Following (g.resize size.rows size.cols).1 n k := by
  refine ⟨?_, h.paneSync, h.attaches⟩
  rw [onEventPaneResized, modifyGrid, h.buffer, Option.map_some]

/-- A grid held by a client is painted or is not. -/
theorem painted_iff {g : GridContent} (hg : s.buffer = some g) (frames : List ServerMessage) :
    s.Painted snapshot frames ↔ g.rows = snapshot.rows.toNat ∧ g.cols = snapshot.cols.toNat ∧
      g.cells
        = applyOps snapshot.cols.toNat (frames.flatMap ServerMessage.ops) snapshot.cells := by
  constructor
  · rintro ⟨g', hg', hpainted⟩
    rw [hg] at hg'
    cases hg'
    exact hpainted
  · exact fun hpainted ↦ ⟨g, hg, hpainted⟩

theorem rows_applyFrames {fs : List ServerMessage} (hfs : ∀ f ∈ fs, f.seqno?.isSome)
    (g : GridContent) : (g.applyFrames fs).rows = g.rows := by
  induction fs generalizing g with
  | nil => rfl
  | cons f fs ih =>
    have hrest := ih (fun f' hf' ↦ hfs f' (List.mem_cons_of_mem f hf')) (g.applyFrame f)
    have hf : f.seqno?.isSome = true := hfs f List.mem_cons_self
    refine hrest.trans ?_
    cases f with
    | terminalUpdate diff seqno => exact (sameContent_applyDiff g diff).rows
    | cursorUpdate cursor modes seqno => rfl
    | scrollbackAppend firstIndex lines seqno =>
      exact (sameContent_append g firstIndex lines seqno).rows
    | terminalSnapshot snapshot seqno => cases hf
    | gridDigest seqno hash => cases hf
    | syncReset => cases hf
    | lagged missedCount => cases hf
    | historyLines rid first lines total => cases hf

/-- **Before the snapshot** the notice is repainted. -/
theorem painted_of_notified_first (s : PaneSession) (size : TermSize) {frames : List ServerMessage}
    {last : SequenceNo} (hframes : Numbered (label + 1) frames last)
    (hdiffs : ∀ f ∈ frames, f.seqno?.isSome) :
    (s.notified size [] (.terminalSnapshot snapshot label :: frames)).Painted snapshot frames := by
  have hfollow := following_onTerminalSnapshot (s.onEventPaneResized size) snapshot label
  set g := (((s.onEventPaneResized size).buffer.getD (GridContent.new 24 80)).applySnapshot
    snapshot).1 with hg
  obtain ⟨-, hheld⟩ := receive_of_numbered hfollow hframes
  obtain ⟨hrows, hcols, hcells, -, -, -⟩ := sameContent_applySnapshot
    ((s.onEventPaneResized size).buffer.getD (GridContent.new 24 80)) snapshot
  have happlied := reapplied_applyFrames frames g hdiffs
  refine ⟨g.applyFrames frames, hheld.buffer, ?_, happlied.cols.trans hcols, ?_⟩
  · exact (rows_applyFrames hdiffs g).trans hrows
  · rw [happlied.cells, hcols, hcells]

/-- **After the snapshot** it blanks what has been drawn. -/
theorem painted_notified_iff (s : PaneSession) (hrows : size.rows = snapshot.rows)
    (hcols : size.cols = snapshot.cols)
    (hlength : snapshot.cells.length = snapshot.rows.toNat * snapshot.cols.toNat)
    {before after : List ServerMessage} {last : SequenceNo}
    (hframes : Numbered (label + 1) (before ++ after) last)
    (hdiffs : ∀ f ∈ before ++ after, f.seqno?.isSome) :
    (s.notified size (.terminalSnapshot snapshot label :: before) after).Painted snapshot
        (before ++ after) ↔ Restored snapshot before after := by
  have hbefore : ∀ f ∈ before, f.seqno?.isSome := fun f hf ↦ hdiffs f (List.mem_append_left _ hf)
  have hafter : ∀ f ∈ after, f.seqno?.isSome := fun f hf ↦ hdiffs f (List.mem_append_right _ hf)
  obtain ⟨mid, hnumbered, hnumbered'⟩ := numbered_split hframes
  set g := ((s.buffer.getD (GridContent.new 24 80)).applySnapshot snapshot).1 with hg
  have hsnapshot : (s.handleServerMessage (.terminalSnapshot snapshot label)).Following g
      (label + 1) s.attaches := following_onTerminalSnapshot s snapshot label
  have hshown := (receive_of_numbered hsnapshot hnumbered).2
  have hblanked := onEventPaneResized_following hshown size
  have hheld := (receive_of_numbered hblanked hnumbered').2
  obtain ⟨-, -, hcells, -, -, -⟩ :=
    sameContent_applySnapshot (s.buffer.getD (GridContent.new 24 80)) snapshot
  set blanked := ((g.applyFrames before).resize size.rows size.cols).1 with hblank
  have happlied := reapplied_applyFrames after blanked hafter
  have hsize : blanked.cols = snapshot.cols.toNat := congrArg UInt16.toNat hcols
  have hblankCells : blanked.cells = List.replicate snapshot.cells.length default := by
    rw [hlength, ← hrows, ← hcols]
    rfl
  have hbuffer : (s.notified size (.terminalSnapshot snapshot label :: before) after).buffer
      = some (blanked.applyFrames after) := hheld.buffer
  rw [painted_iff hbuffer, rows_applyFrames hafter, happlied.cols, happlied.cells, hsize,
    and_iff_right (show blanked.rows = snapshot.rows.toNat from congrArg UInt16.toNat hrows),
    and_iff_right rfl, List.flatMap_append, applyOps_append, eq_comm, applyOps_eq_iff]
  · rw [Restored, length_applyOps, hblankCells]
    refine forall₂_congr fun i hi ↦ ?_
    rw [List.getElem?_replicate_of_lt hi]
  · rw [length_applyOps, hblankCells, List.length_replicate]

end PaneSession

/-- **The notice of a resize.** A pane is resized, and a client is sent the notice on one lane and,
on the other, the snapshot and diffs in order. In whatever order it handles the two lanes, and
whatever it knew of the pane, its grid ends with the new dimensions and the snapshot's cells with
the diffs applied if and only if the notice comes first, or what it blanks is blank already or drawn
again. -/
theorem resize_notice_iff {B : Type*} [TerminalBackend B] (p : Pane B) (size : TermSize)
    (s : PaneSession) {frames : List ServerMessage} {last : SequenceNo}
    (hframes : Numbered (p.currentSeqno + 1) frames last) (hdiffs : ∀ f ∈ frames, f.seqno?.isSome)
    {before after : List ServerMessage}
    (hdata : before ++ after = (p.resize size.toBackendSize).2 ++ frames) :
    (s.notified size before after).Painted (p.resize size.toBackendSize).1.engine.snapshot frames ↔
      before = [] ∨
        Restored (p.resize size.toBackendSize).1.engine.snapshot before.tail after := by
  set snapshot := (p.resize size.toBackendSize).1.engine.snapshot with hsnapshot
  have hsent : (p.resize size.toBackendSize).2 = [.terminalSnapshot snapshot p.currentSeqno] := rfl
  rw [hsent, List.singleton_append] at hdata
  rcases before with _ | ⟨first, before⟩
  · rw [List.nil_append] at hdata
    rw [hdata]
    exact iff_of_true (PaneSession.painted_of_notified_first s size hframes hdiffs) (.inl rfl)
  · rw [List.cons_append, List.cons.injEq] at hdata
    obtain ⟨rfl, rfl⟩ := hdata
    rw [PaneSession.painted_notified_iff s rfl rfl (length_shown _ _ _) hframes hdiffs,
      List.tail_cons]
    exact ⟨Or.inr, fun h ↦ h.resolve_left (List.cons_ne_nil _ _)⟩

/-- A screen that shows a letter, about to be widened. -/
def letterPane : Pane MockBackend := Pane.new { MockBackend.new 1 1 with cells := [letterA] }

/-- The notice comes first: the letter is shown. -/
theorem resize_notice_first :
    (PaneSession.new.notified ⟨1, 2, 0, 0⟩ [] (letterPane.resize ⟨1, 2, 0, 0⟩).2).Painted
      (letterPane.resize ⟨1, 2, 0, 0⟩).1.engine.snapshot [] :=
  (resize_notice_iff letterPane ⟨1, 2, 0, 0⟩ PaneSession.new
    (show Numbered (letterPane.currentSeqno + 1) [] (letterPane.currentSeqno + 1) from rfl)
    (fun _ hf ↦ absurd hf List.not_mem_nil)
    ((List.nil_append _).trans (List.append_nil _).symm)).mpr (.inl rfl)

/-- The notice comes last: the letter is gone. -/
theorem not_painted_of_notice_last :
    ¬(PaneSession.new.notified ⟨1, 2, 0, 0⟩ (letterPane.resize ⟨1, 2, 0, 0⟩).2 []).Painted
      (letterPane.resize ⟨1, 2, 0, 0⟩).1.engine.snapshot [] := by
  rintro ⟨g, hg, -, -, hcells⟩
  have hclient : (PaneSession.new.notified ⟨1, 2, 0, 0⟩ (letterPane.resize ⟨1, 2, 0, 0⟩).2
      []).buffer.map GridContent.cells = some [default, default] := by decide +kernel
  have hdrawn : applyOps 2 [] (letterPane.resize ⟨1, 2, 0, 0⟩).1.engine.snapshot.cells
      = [letterA, default] := by decide +kernel
  rw [hg, Option.map_some, hcells] at hclient
  exact absurd (hdrawn.symm.trans (Option.some.inj hclient)) (by decide)

end Kmux
