import Kmux.Client.ApplyWorker
import Kmux.Client.Reanchor

/-!
# A grid in a snapshot, and back

A hub serves a pane that another daemon runs from a grid of its own: a client that attaches is sent
a snapshot of that grid, and starts from it. The snapshot carries the base, the total and the lines
of the scrollback side by side, and says nothing of the buffer they came from. `toSnapshot` is read
back exactly, whatever the grid has been through: the buffers have one capacity, so what the one
holds the other has room for.
-/

namespace Kmux

theorem ScrollbackBuffer.ext {s t : ScrollbackBuffer} (hlines : s.lines = t.lines)
    (hmax : s.maxLines = t.maxLines) (hbase : s.baseIndex = t.baseIndex) : s = t := by
  obtain ⟨lines, maxLines, baseIndex, hpos, hle⟩ := s
  obtain ⟨lines', maxLines', baseIndex', hpos', hle'⟩ := t
  obtain rfl : lines = lines' := hlines
  obtain rfl : maxLines = maxLines' := hmax
  obtain rfl : baseIndex = baseIndex' := hbase
  rfl

namespace GridContent

/-- The grid as a snapshot, with all the scrollback it holds. -/
def toSnapshot (g : GridContent) : GridSnapshot where
  rows := g.rows.toUInt16
  cols := g.cols.toUInt16
  cells := g.cells
  cursor := g.cursor
  modes := g.modes
  historyTotal := g.scrollback.historyTotal
  scrollbackBase := g.scrollback.baseIndex
  scrollbackTail := g.scrollback.lines

/-- The content that a list of mutations leads to. -/
def mutated (g : GridContent) (ops : List ContentOp) : GridContent :=
  Run.exec (fun g op ↦ (ContentOp.apply g op).1) g ops

/-! ## What every grid has -/

/-- The dimensions fit the wire's sixteen bits, and the scrollback has the client's capacity. -/
structure Exportable (g : GridContent) : Prop where
  rows : g.rows < 2 ^ 16
  cols : g.cols < 2 ^ 16
  maxLines : g.scrollback.maxLines = maxScrollbackLines

theorem exportable_new (rows cols : UInt16) : (new rows.toNat cols.toNat).Exportable :=
  ⟨rows.toNat_lt, cols.toNat_lt, rfl⟩

theorem maxLines_appendWithIndex (sb : ScrollbackBuffer) (firstIndex : ℕ)
    (lines : List ScrollbackLine) :
    (sb.appendWithIndex firstIndex lines).1.maxLines = sb.maxLines := by
  rw [ScrollbackBuffer.appendWithIndex]
  split
  · rfl
  · exact ScrollbackBuffer.foldl_pushLine_maxLines lines sb

theorem maxLines_seedScrollback (sb : ScrollbackBuffer) (s : GridSnapshot) :
    (seedScrollback sb s).maxLines = sb.maxLines := by
  rw [seedScrollback]
  split
  · rw [ScrollbackBuffer.seedTail]
    split
    · rfl
    · split
      · rfl
      · rw [ScrollbackBuffer.foldl_pushLine_maxLines]
        rfl
  · rfl

theorem Exportable.maybeClearHistoryGap {g : GridContent} (h : g.Exportable) :
    g.maybeClearHistoryGap.Exportable := by
  obtain ⟨hrows, hcols, -, -, -, hscrollback⟩ := sameContent_maybeClearHistoryGap g
  exact ⟨hrows ▸ h.rows, hcols ▸ h.cols, hscrollback ▸ h.maxLines⟩

/-- The scrollback may change, within its capacity. -/
theorem Exportable.scroll {g : GridContent} (h : g.Exportable) {sb : ScrollbackBuffer}
    (hsb : sb.maxLines = g.scrollback.maxLines) (cellsGeneration : ℕ) :
    ({ g with scrollback := sb, cellsGeneration } : GridContent).Exportable :=
  ⟨h.rows, h.cols, hsb.trans h.maxLines⟩

theorem Exportable.apply {g : GridContent} (h : g.Exportable) (op : ContentOp) :
    (ContentOp.apply g op).1.Exportable := by
  cases op with
  | snapshot s =>
    obtain ⟨hrows, hcols, -, -, -, hscrollback⟩ := g.sameContent_applySnapshot s
    refine ⟨?_, ?_, ?_⟩
    · exact hrows.symm ▸ s.rows.toNat_lt
    · exact hcols.symm ▸ s.cols.toNat_lt
    · exact (congrArg ScrollbackBuffer.maxLines hscrollback).trans
        ((maxLines_seedScrollback _ s).trans h.maxLines)
  | diff d =>
    obtain ⟨hrows, hcols, -, -, -, hscrollback⟩ := g.sameContent_applyDiff d
    refine ⟨hrows.symm ▸ h.rows, hcols.symm ▸ h.cols, ?_⟩
    refine (congrArg ScrollbackBuffer.maxLines hscrollback).trans (Eq.trans ?_ h.maxLines)
    rcases d.scrollbackReset with _ | base
    · rfl
    · rfl
  | cursor c modes => exact ⟨h.rows, h.cols, h.maxLines⟩
  | scrollbackAppend firstIndex lines =>
    change (g.applyScrollbackAppend firstIndex lines).1.Exportable
    rw [applyScrollbackAppend]
    split
    · exact h
    -- a cleared buffer keeps its capacity, as one that was pushed to does
    · have hmax := maxLines_appendWithIndex g.scrollback firstIndex lines
      refine (Exportable.maybeClearHistoryGap (h.scroll ?_ g.cellsGeneration)).scroll rfl _
      split
      · exact hmax
      · exact hmax
  | historyLines firstIndex lines historyTotal =>
    change (g.applyHistoryLines firstIndex lines historyTotal).Exportable
    rw [applyHistoryLines]
    split
    · exact h
    · refine Exportable.maybeClearHistoryGap ?_
      split
      · exact h.scroll (maxLines_appendWithIndex ..) _
      · split
        · dsimp only
          split
          · exact h.scroll (maxLines_appendWithIndex ..) _
          · exact h
        · exact h
  | clear => exact ⟨h.rows, h.cols, h.maxLines⟩
  | resize rows cols => exact ⟨rows.toNat_lt, cols.toNat_lt, h.maxLines⟩

/-! ## The round trip -/

/-- **An empty buffer that is seeded from a buffer of its capacity becomes that buffer.** -/
theorem seedScrollback_default {sb : ScrollbackBuffer} (hmax : sb.maxLines = maxScrollbackLines)
    {s : GridSnapshot} (hbase : s.scrollbackBase = sb.baseIndex)
    (htotal : s.historyTotal = sb.historyTotal) (htail : s.scrollbackTail = sb.lines) :
    seedScrollback default s = sb := by
  have hevicted : ((default : ScrollbackBuffer).evictBefore s.scrollbackBase).lines = [] :=
    (ScrollbackBuffer.evictBefore_lines _ _).trans List.drop_nil
  have hanchored :
      ((default : ScrollbackBuffer).evictBefore s.scrollbackBase).baseIndex = sb.baseIndex := by
    rw [ScrollbackBuffer.evictBefore_baseIndex, hbase]
    exact Nat.zero_max sb.baseIndex
  have htotal' : ((default : ScrollbackBuffer).evictBefore s.scrollbackBase).historyTotal =
      sb.baseIndex := by
    rw [ScrollbackBuffer.historyTotal, hevicted, hanchored]
    rfl
  have hroom : sb.lines.length ≤ maxScrollbackLines := hmax ▸ sb.length_le
  rw [seedScrollback, if_pos (Or.inr hevicted), ScrollbackBuffer.seedTail, htail, htotal, htotal',
    hanchored]
  by_cases hnil : sb.lines = []
  · have hle : sb.historyTotal ≤ sb.baseIndex := by
      rw [ScrollbackBuffer.historyTotal, hnil]
      exact le_rfl
    rw [if_pos ⟨hnil, hle⟩]
    exact ScrollbackBuffer.ext (hevicted.trans hnil.symm) hmax.symm hanchored
  · have hpos := List.length_pos_iff.mpr hnil
    have hstart : sb.historyTotal - sb.lines.length = sb.baseIndex :=
      Nat.add_sub_cancel sb.baseIndex sb.lines.length
    -- everything fits, so nothing falls off while the tail is pushed
    have hfree : 0 + sb.lines.length - maxScrollbackLines = 0 := by omega
    rw [if_neg fun h ↦ hnil h.1, if_neg (by rw [ScrollbackBuffer.historyTotal]; omega), hstart]
    refine ScrollbackBuffer.ext ?_ ?_ ?_
    · rw [ScrollbackBuffer.foldl_pushLine_lines]
      exact congrArg (fun n ↦ sb.lines.drop n) hfree
    · rw [ScrollbackBuffer.foldl_pushLine_maxLines]
      exact hmax.symm
    · rw [ScrollbackBuffer.foldl_pushLine_baseIndex]
      exact congrArg (fun n ↦ sb.baseIndex + n) hfree

/-- **A grid in a snapshot, and back.** Whatever mutations have led to a grid, a fresh grid of any
size that is given its snapshot has its dimensions, cells, cursor and modes, its scrollback at the
same absolute indices, its history total and its digest; and it waits for no history. -/
theorem applySnapshot_toSnapshot (rows cols : UInt16) (ops : List ContentOp) (rows' cols' : ℕ) :
    let g := (new rows.toNat cols.toNat).mutated ops
    let g' := ((new rows' cols').applySnapshot g.toSnapshot).1
    SameContent g g' ∧
      (∀ i, g'.scrollback.getAbsolute i = g.scrollback.getAbsolute i) ∧
        g'.scrollback.historyTotal = g.scrollback.historyTotal ∧ g'.liveDigest = g.liveDigest ∧
          g'.pendingHistoryGap = none := by
  intro g g'
  have hg : g.Exportable :=
    Run.invariant (fun g op (h : g.Exportable) ↦ h.apply op) ops _ (exportable_new rows cols)
  obtain ⟨hrows, hcols, hcells, hcursor, hmodes, hscrollback⟩ :=
    (new rows' cols').sameContent_applySnapshot g.toSnapshot
  have hsame : SameContent g g' := by
    refine ⟨?_, ?_, hcells, hcursor, hmodes, ?_⟩
    · exact hrows.trans (Nat.mod_eq_of_lt hg.rows)
    · exact hcols.trans (Nat.mod_eq_of_lt hg.cols)
    · exact hscrollback.trans (seedScrollback_default hg.maxLines rfl rfl rfl)
  refine ⟨hsame, fun i ↦ by rw [hsame.scrollback], by rw [hsame.scrollback], ?_, ?_⟩
  · rw [liveDigest, liveDigest, hsame.rows, hsame.cols, hsame.cells, hsame.cursor, hsame.modes,
      hsame.scrollback]
  · exact pendingHistoryGap_applySnapshot (new rows' cols') g.toSnapshot

end GridContent

end Kmux
