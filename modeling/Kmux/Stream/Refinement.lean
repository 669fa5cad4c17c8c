import Kmux.Stream.Heard

/-!
# The stream refines the emulator

A client follows a pane by a snapshot and then frames. What it must show is defined without any of
that: the cells, cursor and modes of the emulator as it is now, and the end of its history. The
step lemmas say under which condition one cycle carries agreement over. The condition compares the
three records of "what was last sent": the engine's comparison buffer, the engine's and the loop's
previous cursor and modes, and the client. `applyFrames_emitted` turns a step lemma into a
statement about runs, once for every notion of agreement.

When output only ever reaches the emulator through the diff loop the three records coincide, and
the stream refines the emulator without any condition (`stream_refinement`).
-/

namespace Kmux

open TerminalBackend

section Stream

variable {B : Type*} [TerminalBackend B]

/-! ## Histories -/

namespace Pane

/-- A resize consumes no sequence number, and its snapshot is labelled with the last one. -/
theorem numbered_step {p : Pane B} (hpos : 0 < p.seqnoCounter) (e : PaneEvent B) :
    Numbered p.seqnoCounter (p.step e).2 (p.step e).1.seqnoCounter := by
  cases e with
  | cycle b => exact p.numbered_cycle b
  | resize sz => exact ⟨currentSeqno_add_one hpos, rfl⟩

theorem numbered_emitted (es : List (PaneEvent B)) :
    ∀ p : Pane B, 0 < p.seqnoCounter →
      Numbered p.seqnoCounter (p.emitted es) (p.run es).seqnoCounter := by
  induction es with
  | nil => exact fun p _ ↦ rfl
  | cons e es ih =>
    intro p hpos
    have hstep := numbered_step hpos e
    exact numbered_append hstep (ih _ (hpos.trans_le hstep.le))

/-- Sequence numbers start at one and never go back. -/
theorem seqnoCounter_pos_run {p : Pane B} (h : 0 < p.seqnoCounter) (es : List (PaneEvent B)) :
    0 < (p.run es).seqnoCounter := h.trans_le (numbered_emitted es p h).le

end Pane

/-- **From steps to runs.** A relation between pane and grid that survives every admissible event
holds at the end of every admissible run. -/
theorem applyFrames_emitted {P : Pane B → GridContent → Prop} {ok : Pane B → PaneEvent B → Prop}
    (hstep : ∀ p g e, P p g → ok p e → P (p.step e).1 (g.applyFrames (p.step e).2)) :
    ∀ (es : List (PaneEvent B)) (p : Pane B) (g : GridContent), P p g →
      Run.Ok (fun p e ↦ (p.step e).1) ok p es → P (p.run es) (g.applyFrames (p.emitted es)) := by
  intro es
  induction es with
  | nil => exact fun p g h _ ↦ h
  | cons e es ih =>
    intro p g h hok
    rw [Pane.emitted, GridContent.applyFrames_append]
    exact ih _ _ (hstep p g e h hok.1) hok.2

/-! ## Agreement, one cycle at a time -/

/-- The grid has the emulator's cells and stands at the end of its history. -/
structure ShowsCells (p : Pane B) (g : GridContent) : Prop where
  rows : g.rows = p.engine.rows.toNat
  cols : g.cols = p.engine.cols.toNat
  cells : g.cells = (shown p.engine.backend p.engine.rows p.engine.cols).1
  historyTotal : g.scrollback.historyTotal = p.engine.mirror.historyTotal

/-- The grid has the emulator's cursor. -/
def ShowsCursor (p : Pane B) (g : GridContent) : Prop :=
  g.cursor = (shown p.engine.backend p.engine.rows p.engine.cols).2.1

/-- The grid has the emulator's modes. -/
def ShowsModes (p : Pane B) (g : GridContent) : Prop :=
  g.modes = (shown p.engine.backend p.engine.rows p.engine.cols).2.2

/-- A cell that the comparison buffer takes for unchanged is one that did not change since the
emulator was last shown. -/
def CellsCovered (p : Pane B) (b : B) : Prop :=
  ∀ i < p.engine.rows.toNat * p.engine.cols.toNat,
    (shown b p.engine.rows p.engine.cols).1[i]? = p.engine.prevCells[i]? →
      (shown p.engine.backend p.engine.rows p.engine.cols).1[i]?
        = (shown b p.engine.rows p.engine.cols).1[i]?

/-- The cursor is reported, or it did not move since the emulator was last shown. -/
def CursorCovered (p : Pane B) (b : B) : Prop :=
  Reported p b ∨ (shown p.engine.backend p.engine.rows p.engine.cols).2.1
    = (shown b p.engine.rows p.engine.cols).2.1

/-- The modes are reported, or they did not change since the emulator was last shown. -/
def ModesCovered (p : Pane B) (b : B) : Prop :=
  Reported p b ∨ (shown p.engine.backend p.engine.rows p.engine.cols).2.2
    = (shown b p.engine.rows p.engine.cols).2.2

instance (p : Pane B) (b : B) : Decidable (CellsCovered p b) :=
  inferInstanceAs (Decidable (∀ i < _, _ → _))

instance (p : Pane B) (b : B) : Decidable (CursorCovered p b) :=
  inferInstanceAs (Decidable (_ ∨ _))

instance (p : Pane B) (b : B) : Decidable (ModesCovered p b) :=
  inferInstanceAs (Decidable (_ ∨ _))

variable {p : Pane B} {g : GridContent} {b : B}

/-- The frames of a cycle turn what was shown before into what is shown now, wherever the
comparison buffer told the truth. -/
theorem showsCells_cycle (h : ShowsCells p g) (hb : CellsCovered p b) :
    ShowsCells (p.cycle b).1 (g.applyFrames (p.cycle b).2.frames) := by
  have hobs := p.observed_cycle b
  have hdel := delivered_cycle b h.historyTotal
  refine ⟨?_, ?_, ?_, ?_⟩
  · rw [hdel.rows, hobs.rows, h.rows]
    rfl
  · rw [hdel.cols, hobs.cols, h.cols]
    rfl
  · rw [hdel.cells, hobs.backend, hobs.rows, hobs.cols, h.cols]
    change GridContent.applyOps p.engine.cols.toNat
      (diffOps p.engine.rows.toNat p.engine.cols.toNat (shown b p.engine.rows p.engine.cols).1
        p.engine.prevCells) g.cells = (shown b p.engine.rows p.engine.cols).1
    -- cell by cell: sent, or skipped because the comparison buffer already had it
    apply List.ext_getElem?
    intro i
    have hcur := length_shown b p.engine.rows p.engine.cols
    have hg : g.cells.length = (shown b p.engine.rows p.engine.cols).1.length := by
      rw [h.cells, length_shown, length_shown]
    rcases getElem?_applyOps_diffOps p.engine.prevCells hcur hg i with hi | hi
    · rw [hi]
      by_cases hsame : (shown b p.engine.rows p.engine.cols).1[i]? = p.engine.prevCells[i]?
      · rw [if_pos hsame, h.cells]
        by_cases hlt : i < p.engine.rows.toNat * p.engine.cols.toNat
        · exact hb i hlt hsame
        · rw [List.getElem?_eq_none (by rw [length_shown]; omega),
            List.getElem?_eq_none (by rw [length_shown]; omega)]
      · rw [if_neg hsame]
    · exact hi
  · rw [hdel.scrollback, followScrollback_historyTotal (p.engine.feed b) h.historyTotal,
      hobs.mirror]

theorem showsCursor_cycle (h : ShowsCells p g) (hcursor : ShowsCursor p g)
    (hb : CursorCovered p b) :
    ShowsCursor (p.cycle b).1 (g.applyFrames (p.cycle b).2.frames) := by
  have hobs := p.observed_cycle b
  have hdel := delivered_cycle b h.historyTotal
  rw [ShowsCursor, hobs.backend, hobs.rows, hobs.cols]
  by_cases hr : Reported p b
  · exact hdel.cursor_of_reported hr
  · rw [hdel.unchanged_of_not_reported hr, hcursor]
    exact hb.resolve_left hr

theorem showsModes_cycle (h : ShowsCells p g) (hmodes : ShowsModes p g)
    (hb : ModesCovered p b) :
    ShowsModes (p.cycle b).1 (g.applyFrames (p.cycle b).2.frames) := by
  have hobs := p.observed_cycle b
  have hdel := delivered_cycle b h.historyTotal
  rw [ShowsModes, hobs.backend, hobs.rows, hobs.cols]
  by_cases hr : Reported p b
  · exact hdel.modes_of_reported hr
  · rw [hdel.unchanged_of_not_reported hr, hmodes]
    exact hb.resolve_left hr

/-- A snapshot brings any client that is not ahead into agreement. -/
theorem showsCells_snapshot (hg : g.scrollback.historyTotal ≤ p.engine.mirror.historyTotal) :
    ShowsCells p (g.applySnapshot p.engine.snapshot).1 := by
  obtain ⟨h₁, h₂, h₃, -, -, h₆⟩ := g.sameContent_applySnapshot p.engine.snapshot
  refine ⟨h₁, h₂, h₃, ?_⟩
  rw [h₆]
  exact GridContent.seedScrollback_historyTotal_of_le p.engine.anchored_snapshot hg

theorem showsCursor_snapshot : ShowsCursor p (g.applySnapshot p.engine.snapshot).1 :=
  (g.sameContent_applySnapshot p.engine.snapshot).cursor

theorem showsModes_snapshot : ShowsModes p (g.applySnapshot p.engine.snapshot).1 :=
  (g.sameContent_applySnapshot p.engine.snapshot).modes

/-! ## A pane that only the diff loop touches -/

/-- The loop's record of cursor and modes is the engine's. -/
structure LoopInStep (p : Pane B) : Prop where
  prevCursor : p.prevCursor = p.engine.prevCursor
  prevModes : p.prevModes = p.engine.prevModes

/-- The engine compares against what the emulator shows, and the loop's record is the engine's. -/
structure Settled (p : Pane B) : Prop extends LoopInStep p where
  shownCells : p.engine.prevCells = (shown p.engine.backend p.engine.rows p.engine.cols).1
  shownCursor : p.engine.prevCursor = (shown p.engine.backend p.engine.rows p.engine.cols).2.1
  shownModes : p.engine.prevModes = (shown p.engine.backend p.engine.rows p.engine.cols).2.2

/-- A fresh emulator: no text, the cursor at home, no mode set. -/
def ShowsBlank (b : B) : Prop :=
  shown b (size b).rows (size b).cols
    = (List.replicate ((size b).rows.toNat * (size b).cols.toNat) default, default,
      TermModes.empty)

theorem loopInStep_new (b : B) : LoopInStep (Pane.new b) := ⟨rfl, rfl⟩

theorem settled_new (h : ShowsBlank b) : Settled (Pane.new b) := by
  refine ⟨loopInStep_new b, ?_, ?_, ?_⟩
  · exact (congrArg Prod.fst h).symm
  · exact (congrArg (fun now ↦ now.2.1) h).symm
  · exact (congrArg (fun now ↦ now.2.2) h).symm

omit [TerminalBackend B] in
/-- Whatever a dispatch sends, the loop's record afterwards is the cursor and modes it was given;
and when it was given none, it keeps its own. -/
private theorem loop_dispatched {p p' : Pane B} {r : DiffResult} {frames : List ServerMessage} :
    p.Dispatched r p' frames → match r with
      | .cellDiff diff _ => p'.prevCursor = diff.cursor ∧ p'.prevModes = diff.modes
      | .cursorOnly cursor modes _ => p'.prevCursor = cursor ∧ p'.prevModes = modes
      | .none => p' = p := by
  intro h
  cases h with
  | none => rfl
  | update diff => exact ⟨rfl, rfl⟩
  | updateAppend diff hlines hreset => exact ⟨rfl, rfl⟩
  | appendUpdate diff hlines hreset => exact ⟨rfl, rfl⟩
  | cursor cursor modes historyTotal hchanged => exact ⟨rfl, rfl⟩
  | same historyTotal => exact ⟨rfl, rfl⟩

/-- One cycle settles a pane whose loop was in step with its engine. -/
theorem settled_cycle (h : LoopInStep p) (b : B) : Settled (p.cycle b).1 := by
  have hobs := p.observed_cycle b
  have hcursor := hobs.prevCursor
  have hmodes := hobs.prevModes
  have hloop : LoopInStep (p.cycle b).1 := by
    have hdisp := loop_dispatched (Pane.dispatched
      { p with engine := (p.engine.feed b).computeDiff.1 } (p.engine.feed b).computeDiff.2)
    change match (p.engine.feed b).computeDiff.2 with
      | .cellDiff diff _ => (p.cycle b).1.prevCursor = diff.cursor ∧
          (p.cycle b).1.prevModes = diff.modes
      | .cursorOnly cursor modes _ => (p.cycle b).1.prevCursor = cursor ∧
          (p.cycle b).1.prevModes = modes
      | .none => (p.cycle b).1 = { p with engine := (p.engine.feed b).computeDiff.1 } at hdisp
    rw [DiffEngine.computeDiff_snd] at hdisp
    by_cases hcell : (p.engine.feed b).forcesCellDiff
    · rw [if_pos hcell] at hdisp
      exact ⟨hdisp.1.trans hcursor.symm, hdisp.2.trans hmodes.symm⟩
    · rw [if_neg hcell] at hdisp
      by_cases hchanged : (p.engine.feed b).cursorOrModesChanged
      · rw [if_pos hchanged] at hdisp
        exact ⟨hdisp.1.trans hcursor.symm, hdisp.2.trans hmodes.symm⟩
      · -- nothing dispatched, and nothing changed that the loop's record would have to follow
        rw [if_neg hchanged] at hdisp
        rw [DiffEngine.cursorOrModesChanged, not_or, not_not, not_not] at hchanged
        refine ⟨?_, ?_⟩
        · rw [hcursor, hchanged.1, hdisp]
          exact h.prevCursor
        · rw [hmodes, hchanged.2, hdisp]
          exact h.prevModes
  refine ⟨hloop, ?_, ?_, ?_⟩
  · rw [hobs.prevCells, hobs.backend, hobs.rows, hobs.cols]
  · rw [hcursor, hobs.backend, hobs.rows, hobs.cols]
  · rw [hmodes, hobs.backend, hobs.rows, hobs.cols]

/-- A settled pane reports every change of cursor or modes. -/
private theorem reported_of_changed (h : LoopInStep p)
    (hchanged : (p.engine.feed b).cursorOrModesChanged) : Reported p b := by
  refine Or.inr ⟨hchanged, ?_⟩
  rw [h.prevCursor, h.prevModes]
  exact hchanged

theorem cellsCovered_of_settled (h : Settled p) (b : B) : CellsCovered p b := by
  intro i _ hsame
  rw [← h.shownCells, hsame]

theorem cursorCovered_of_settled (h : Settled p) (b : B) : CursorCovered p b := by
  by_cases hsame : (shown b p.engine.rows p.engine.cols).2.1 = p.engine.prevCursor
  · exact Or.inr (by rw [← h.shownCursor, hsame])
  · exact Or.inl (reported_of_changed h.toLoopInStep (Or.inl hsame))

theorem modesCovered_of_settled (h : Settled p) (b : B) : ModesCovered p b := by
  by_cases hsame : (shown b p.engine.rows p.engine.cols).2.2 = p.engine.prevModes
  · exact Or.inr (by rw [← h.shownModes, hsame])
  · exact Or.inl (reported_of_changed h.toLoopInStep (Or.inr hsame))

/-- Agreement on everything the wire carries about the screen. -/
structure Agrees (p : Pane B) (g : GridContent) : Prop extends ShowsCells p g where
  cursor : ShowsCursor p g
  modes : ShowsModes p g

theorem agrees_snapshot (hg : g.scrollback.historyTotal ≤ p.engine.mirror.historyTotal) :
    Agrees p (g.applySnapshot p.engine.snapshot).1 :=
  ⟨showsCells_snapshot hg, showsCursor_snapshot, showsModes_snapshot⟩

theorem agrees_cycle (h : Agrees p g) (hcells : CellsCovered p b) (hcursor : CursorCovered p b)
    (hmodes : ModesCovered p b) :
    Agrees (p.cycle b).1 (g.applyFrames (p.cycle b).2.frames) :=
  ⟨showsCells_cycle h.toShowsCells hcells, showsCursor_cycle h.toShowsCells h.cursor hcursor,
    showsModes_cycle h.toShowsCells h.modes hmodes⟩

/-! ## The whole stream -/

/-- A history in which the diff loop observes the given backend states, one per cycle. -/
def cycles (bs : List B) : List (PaneEvent B) := bs.map .cycle

theorem settled_run (bs : List B) : ∀ p : Pane B, LoopInStep p → bs ≠ [] ∨ Settled p →
    Settled (p.run (cycles bs)) := by
  induction bs with
  | nil => exact fun p _ h ↦ h.resolve_left fun hne ↦ hne rfl
  | cons b bs ih =>
    intro p h _
    have hcycle := settled_cycle h b
    exact ih (p.cycle b).1 hcycle.toLoopInStep (Or.inr hcycle)

theorem loopInStep_run (bs : List B) (h : LoopInStep p) : LoopInStep (p.run (cycles bs)) := by
  cases bs with
  | nil => exact h
  | cons b bs => exact (settled_run (b :: bs) p h (Or.inl (by simp))).toLoopInStep

/-- The pane an attach finds when the states `post` are still to come: between two cycles, or
between the feed and the diff of the next one. -/
def AttachPoint (p : Pane B) (post : List B) (q : Pane B) : Prop :=
  q = p ∨ ∃ b rest, post = b :: rest ∧ q = p.feed b

/-- A cycle keeps agreement and leaves the pane settled for the next one. -/
private theorem agrees_run (post : List B) (hagrees : Agrees p g) (hsettled : Settled p) :
    Agrees (p.run (cycles post)) (g.applyFrames (p.emitted (cycles post))) := by
  have hok : ∀ (bs : List B) (p : Pane B), Run.Ok (fun p e ↦ (Pane.step p e).1)
      (fun _ e ↦ ∃ b, e = PaneEvent.cycle b) p (cycles bs) := by
    intro bs
    induction bs with
    | nil => exact fun p ↦ trivial
    | cons b bs ih => exact fun p ↦ ⟨⟨b, rfl⟩, ih _⟩
  refine (applyFrames_emitted (P := fun p g ↦ Agrees p g ∧ Settled p) ?_ (cycles post) p g
    ⟨hagrees, hsettled⟩ (hok post p)).1
  rintro p g e ⟨hagrees, hsettled⟩ ⟨b, rfl⟩
  exact ⟨agrees_cycle hagrees (cellsCovered_of_settled hsettled b)
    (cursorCovered_of_settled hsettled b) (modesCovered_of_settled hsettled b),
    settled_cycle hsettled.toLoopInStep b⟩

/-- The same when the snapshot fell between feed and diff: the diff then finds the client already
at the state it compares against, so whatever it sends changes nothing. -/
private theorem agrees_run_fed (b : B) (rest : List B) (hagrees : Agrees (p.feed b) g)
    (hloop : LoopInStep p) :
    Agrees (p.run (cycles (b :: rest))) (g.applyFrames (p.emitted (cycles (b :: rest)))) := by
  have hagrees' : Agrees (p.cycle b).1 (g.applyFrames (p.cycle b).2.frames) :=
    agrees_cycle (p := p.feed b) hagrees (fun _ _ _ ↦ rfl) (Or.inr rfl) (Or.inr rfl)
  change Agrees _ (g.applyFrames ((p.cycle b).2.frames ++ (p.cycle b).1.emitted (cycles rest)))
  rw [GridContent.applyFrames_append]
  exact agrees_run rest hagrees' (settled_cycle hloop b)

/-- **End-to-end refinement.** A client that has heard anything at all from a pane takes a snapshot
of it and then receives every frame of the cycles that follow. It accepts each of them, never
attaches again, and ends each cycle with the cells, cursor, modes and history total of the engine's
own snapshot. -/
theorem stream_refinement (b₀ : B) (pre post : List B) (q : Pane B) (heard : List ServerMessage)
    (hstart : pre ≠ [] ∨ ShowsBlank b₀)
    (hq : AttachPoint ((Pane.new b₀).run (cycles pre)) post q)
    (hheard : ∀ m ∈ heard, (Pane.new b₀).Said (cycles pre) m) :
    let p := (Pane.new b₀).run (cycles pre)
    let before := PaneSession.new.receive heard
    let client := before.handleServerMessage q.snapshotMessage
    let frames := p.emitted (cycles post)
    let snapshot := (p.run (cycles post)).engine.snapshot
    client.AcceptsAll frames ∧ (client.receive frames).attaches = before.attaches ∧
      ∃ g, (client.receive frames).buffer = some g ∧ g.cells = snapshot.cells ∧
        g.cursor = snapshot.cursor ∧ g.modes = snapshot.modes ∧
        g.scrollback.historyTotal = snapshot.historyTotal := by
  intro p before client frames snapshot
  have hpos : 0 < p.seqnoCounter := Pane.seqnoCounter_pos_run Nat.one_pos _
  have hloop : LoopInStep p := loopInStep_run pre (loopInStep_new b₀)
  have hposq : 0 < q.seqnoCounter := by
    rcases hq with rfl | ⟨b, rest, -, rfl⟩ <;> exact hpos
  obtain ⟨g₀, hheld, hfollow⟩ := Pane.following_attach hheard hposq
  have hcounter : q.seqnoCounter = p.seqnoCounter := by
    rcases hq with rfl | ⟨b, rest, -, rfl⟩ <;> rfl
  rw [hcounter] at hfollow
  have hagrees : Agrees (p.run (cycles post))
      ((g₀.applySnapshot q.engine.snapshot).1.applyFrames frames) := by
    -- the snapshot was taken between two cycles, or between the feed and the diff of one
    rcases hq with rfl | ⟨b, rest, rfl, rfl⟩
    · exact agrees_run post (agrees_snapshot hheld.historyTotal_le)
        (settled_run pre _ (loopInStep_new b₀) (hstart.imp_right settled_new))
    · exact agrees_run_fed b rest (agrees_snapshot hheld.historyTotal_le) hloop
  obtain ⟨haccept, hg⟩ :=
    PaneSession.receive_of_numbered hfollow (Pane.numbered_emitted (cycles post) p hpos)
  exact ⟨haccept, hg.attaches, _, hg.buffer, hagrees.cells, hagrees.cursor, hagrees.modes,
    hagrees.historyTotal⟩

/-- One run that goes through both: a cell appears and vanishes again while a line scrolls off, and
the client attaches in between. -/
theorem stream_refinement_of_erased_cell :
    let blank := MockBackend.new 1 1
    let text : MockBackend := { blank with cells := [{ (default : CellState) with c := 'A' }] }
    let scrolled : MockBackend := { blank with historyLen := 1, historyLines := [[default]] }
    let p := (Pane.new blank).run (cycles [text])
    let client := PaneSession.new.handleServerMessage p.snapshotMessage
    ([text] ≠ [] ∨ ShowsBlank blank) ∧
      client.AcceptsAll (p.emitted (cycles [scrolled])) ∧
        (client.receive (p.emitted (cycles [scrolled]))).attaches = 0 :=
  ⟨Or.inl (by simp), (stream_refinement (MockBackend.new 1 1) _ _ _ []
    (Or.inl (by simp)) (Or.inl rfl) (by simp)).1, (stream_refinement (MockBackend.new 1 1) _ _ _ []
    (Or.inl (by simp)) (Or.inl rfl) (by simp)).2.1⟩

end Stream

end Kmux
