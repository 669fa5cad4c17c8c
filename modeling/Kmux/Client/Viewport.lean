import Kmux.Client.CellGrid
import Kmux.Client.DisplayRows

/-!
# The viewport

A viewport shows as many display rows as the grid has rows: those of the wrapped scrollback that the
offset reaches up to, then rows of the screen. `displayRows` lists all of them, so that what is
shown is a window of that list as long as the offset does not reach past its beginning.

Scrolling up is capped at the total, and an operation that replaces the content snaps back to the
live view. Two operations do neither and may leave fewer display rows than there were. An append
that does not continue the history clears the scrollback, and says so, but the view only drops its
selection; and lines pushed onto a full scrollback replace old ones that may have been wider. The
bound survives exactly the steps with `Keeps`, `step_offset_le_iff`: the lines held afterwards must
still take as many display rows as the view is scrolled up by.
-/

namespace Kmux

/-- What can happen to a grid: an operation on the content, or the user moves the view. -/
inductive GridEvent
  | op (op : ContentOp)
  | scrollUp (n : ℕ)
  | scrollDown (n : ℕ)
  | scrollToBottom
  | setSelection (sel : Option Selection)
  deriving DecidableEq, Repr

namespace CellGrid

/-- One event. -/
def step (g : CellGrid) : GridEvent → CellGrid
  | .op op => g.apply op
  | .scrollUp n =>
      let maxOffset := g.content.totalScrollbackDisplayRows
      { g with view := g.view.scrollUp n maxOffset }
  | .scrollDown n => { g with view := g.view.scrollDown n }
  | .scrollToBottom => { g with view := g.view.scrollToBottom }
  | .setSelection sel => { g with view := g.view.setSelection sel }

/-- The line that a visible row shows, and the column of the line it begins at. -/
def absRowBaseAtVisible (g : CellGrid) (vr : ℕ) : ℕ × ℕ :=
  let scrollOffset := g.view.scrollOffset
  let scrollback := g.content.scrollback
  let shown := if 0 < scrollOffset ∧ vr < scrollOffset then
      scrollbackDisplayRowAt scrollback g.cols (scrollOffset - 1 - vr)
    else none
  match shown with
  | some row => row
  | none =>
    let gridRow := vr - scrollOffset
    (scrollback.lines.length + gridRow, 0)

/-! ## All display rows -/

/-- The rows of the screen, each a line of its own after those of the scrollback. -/
def screenRows (g : GridContent) : List (ℕ × ℕ) :=
  (List.range g.rows).map fun k ↦ (g.scrollback.lines.length + k, 0)

/-- The display rows of scrollback and screen. -/
def displayRows (g : GridContent) : List (ℕ × ℕ) :=
  wrappedRows g.cols g.scrollback.lines ++ screenRows g

theorem pairwise_displayRows (g : GridContent) : (displayRows g).Pairwise RowBefore := by
  rw [displayRows, List.pairwise_append]
  refine ⟨pairwise_wrappedRows g.cols g.scrollback.lines, ?_, fun p hp q hq ↦ ?_⟩
  · rw [screenRows, List.pairwise_map]
    exact List.pairwise_lt_range.imp fun hlt ↦ .inl (Nat.add_lt_add_left hlt _)
  · obtain ⟨k, -, rfl⟩ := List.mem_map.mp hq
    exact .inl (Nat.lt_of_lt_of_le (fst_lt_of_mem_wrappedRows hp) (Nat.le_add_right _ k))

/-- The grid's copy of the size is that of the content. -/
structure Synced (g : CellGrid) : Prop where
  rows : g.rows = g.content.rows
  cols : g.cols = g.content.cols

/-- The offset does not reach past the oldest display row. -/
def OffsetLe (g : CellGrid) : Prop :=
  g.view.scrollOffset ≤ g.content.totalScrollbackDisplayRows

instance : DecidablePred OffsetLe := fun g ↦
  inferInstanceAs (Decidable (g.view.scrollOffset ≤ g.content.totalScrollbackDisplayRows))

/-- What is visible is a window of the display rows. -/
structure ViewportInside (g : CellGrid) : Prop where
  offset_le : g.OffsetLe
  window : ∀ vr < g.rows,
    (displayRows g.content)[g.content.totalScrollbackDisplayRows - g.view.scrollOffset + vr]? =
      some (g.absRowBaseAtVisible vr)
  increasing : ∀ vr vr', vr < vr' → vr' < g.rows →
    RowBefore (g.absRowBaseAtVisible vr) (g.absRowBaseAtVisible vr')

/-- A visible row is the one as far below the window's first. -/
private theorem getElem?_displayRows {g : CellGrid} (hsynced : g.Synced) (hle : g.OffsetLe) {vr : ℕ}
    (hvr : vr < g.rows) :
    (displayRows g.content)[g.content.totalScrollbackDisplayRows - g.view.scrollOffset + vr]? =
      some (g.absRowBaseAtVisible vr) := by
  have htotal : (wrappedRows g.content.cols g.content.scrollback.lines).length =
      g.content.totalScrollbackDisplayRows := length_wrappedRows _ _
  rw [OffsetLe] at hle
  rw [absRowBaseAtVisible, displayRows]
  dsimp only
  by_cases hscrolled : vr < g.view.scrollOffset
  · -- the row shows scrollback, and the lookup counts from the other end
    have hlt : g.view.scrollOffset - 1 - vr <
        (wrappedRows g.content.cols g.content.scrollback.lines).length := by omega
    rw [if_pos ⟨by omega, hscrolled⟩, hsynced.cols, scrollbackDisplayRowAt_eq,
      List.getElem?_reverse hlt, List.getElem?_append_left (by omega), htotal,
      show g.content.totalScrollbackDisplayRows - 1 - (g.view.scrollOffset - 1 - vr) =
        g.content.totalScrollbackDisplayRows - g.view.scrollOffset + vr by omega,
      List.getElem?_eq_getElem (by omega)]
  · rw [if_neg fun h ↦ hscrolled h.2, List.getElem?_append_right (by omega), htotal,
      show g.content.totalScrollbackDisplayRows - g.view.scrollOffset + vr -
        g.content.totalScrollbackDisplayRows = vr - g.view.scrollOffset by omega,
      screenRows, List.getElem?_map, List.getElem?_range (by rw [← hsynced.rows]; omega)]
    rfl

/-- **The bound is all it takes.** -/
theorem viewportInside_of_offset_le {g : CellGrid} (hsynced : g.Synced) (hle : g.OffsetLe) :
    ViewportInside g where
  offset_le := hle
  window := fun _ ↦ getElem?_displayRows hsynced hle
  increasing := by
    intro vr vr' hlt hvr'
    have h := getElem?_displayRows hsynced hle (hlt.trans hvr')
    have h' := getElem?_displayRows hsynced hle hvr'
    obtain ⟨hi, hrow⟩ := List.getElem?_eq_some_iff.mp h
    obtain ⟨hi', hrow'⟩ := List.getElem?_eq_some_iff.mp h'
    rw [← hrow, ← hrow']
    exact List.pairwise_iff_getElem.mp (pairwise_displayRows g.content) _ _ hi hi' (by omega)

/-! ## What a step leaves of the bound -/

/-- The lines held after an append. -/
def heldAfterAppend (g : GridContent) (firstIndex : ℕ) (lines : List ScrollbackLine) :
    List ScrollbackLine :=
  if lines = [] then g.scrollback.lines
  else if firstIndex = g.scrollback.historyTotal then g.scrollback.newest lines
  else []

/-- The lines held after a history reply. -/
def heldAfterHistory (g : GridContent) (firstIndex : ℕ) (lines : List ScrollbackLine) :
    List ScrollbackLine :=
  g.scrollback.newest (g.freshLines firstIndex lines)

/-- The lines that an append or a history reply leaves take at least as many display rows as the
view is scrolled up by. Nothing is asked of the other events. -/
def Keeps (g : CellGrid) : GridEvent → Prop
  | .op (.scrollbackAppend firstIndex lines) =>
      g.view.scrollOffset ≤
        displayRowsTotal (heldAfterAppend g.content firstIndex lines) g.content.cols
  | .op (.historyLines firstIndex lines _) =>
      g.view.scrollOffset ≤
        displayRowsTotal (heldAfterHistory g.content firstIndex lines) g.content.cols
  | _ => True

instance decidableKeeps (g : CellGrid) : ∀ e, Decidable (Keeps g e)
  | .op (.scrollbackAppend firstIndex lines) =>
      inferInstanceAs (Decidable (g.view.scrollOffset ≤
        displayRowsTotal (heldAfterAppend g.content firstIndex lines) g.content.cols))
  | .op (.historyLines firstIndex lines _) =>
      inferInstanceAs (Decidable (g.view.scrollOffset ≤
        displayRowsTotal (heldAfterHistory g.content firstIndex lines) g.content.cols))
  | .op (.snapshot _) | .op (.diff _) | .op (.cursor _ _) | .op .clear | .op (.resize _ _)
  | .scrollUp _ | .scrollDown _ | .scrollToBottom | .setSelection _ =>
      inferInstanceAs (Decidable True)

theorem heldAfterAppend_eq (g : GridContent) (firstIndex : ℕ) (lines : List ScrollbackLine) :
    (g.applyScrollbackAppend firstIndex lines).1.scrollback.lines =
      heldAfterAppend g firstIndex lines := by
  rw [heldAfterAppend]
  by_cases hlines : lines = []
  · rw [if_pos hlines, hlines, GridContent.applyScrollbackAppend_nil]
  · rw [if_neg hlines]
    by_cases hfirst : firstIndex = g.scrollback.historyTotal
    · rw [if_pos hfirst, hfirst, (g.applyScrollbackAppend_contiguous hlines).1,
        ScrollbackBuffer.foldl_pushLine_newest]
    · rw [if_neg hfirst, (g.applyScrollbackAppend_gap hlines hfirst).1]
      rfl

theorem heldAfterHistory_eq (g : GridContent) (firstIndex : ℕ) (lines : List ScrollbackLine)
    (historyTotal : ℕ) :
    (g.applyHistoryLines firstIndex lines historyTotal).scrollback.lines =
      heldAfterHistory g firstIndex lines := by
  rw [(g.applyHistoryLines_spec firstIndex lines historyTotal).2,
    ScrollbackBuffer.foldl_pushLine_newest, heldAfterHistory]

theorem scrollOffset_applyEffect (v : GridView) (effect : ApplyEffect) :
    (v.applyEffect effect).scrollOffset = if effect.resetView then 0 else v.scrollOffset := by
  obtain ⟨resetView, fixup⟩ := effect
  rcases fixup with _ | _ | _ <;> rcases resetView with _ | _ <;> rfl

/-- An append never resets the view. -/
theorem resetView_applyScrollbackAppend (g : GridContent) (firstIndex : ℕ)
    (lines : List ScrollbackLine) :
    (g.applyScrollbackAppend firstIndex lines).2.resetView = false := by
  rw [GridContent.applyScrollbackAppend]
  split <;> rfl

theorem Synced.new (rows cols : ℕ) : (CellGrid.new rows cols).Synced := ⟨rfl, rfl⟩

/-- Operations other than snapshots and resizes keep the content's size. -/
theorem Synced.apply {g : CellGrid} (h : g.Synced) (op : ContentOp) : (g.apply op).Synced := by
  match op with
  | .snapshot _ | .resize _ _ => exact ⟨rfl, rfl⟩
  | .cursor _ _ | .clear => exact ⟨h.rows, h.cols⟩
  | .diff d =>
    have hsame := GridContent.sameContent_applyDiff g.content d
    exact ⟨h.rows.trans hsame.rows.symm, h.cols.trans hsame.cols.symm⟩
  | .scrollbackAppend firstIndex lines =>
    have hsame := GridContent.sameScreen_applyScrollbackAppend g.content firstIndex lines
    exact ⟨h.rows.trans hsame.rows.symm, h.cols.trans hsame.cols.symm⟩
  | .historyLines firstIndex lines total =>
    have hsame := (GridContent.applyHistoryLines_spec g.content firstIndex lines total).1
    exact ⟨h.rows.trans hsame.rows.symm, h.cols.trans hsame.cols.symm⟩

theorem Synced.step {g : CellGrid} (h : g.Synced) (e : GridEvent) : (g.step e).Synced := by
  match e with
  | .op op => exact h.apply op
  | .scrollUp _ | .scrollDown _ | .scrollToBottom | .setSelection _ => exact ⟨h.rows, h.cols⟩

/-- **Step.** A step keeps the bound exactly if it is one of `Keeps`. -/
theorem step_offset_le_iff {g : CellGrid} (hle : g.OffsetLe) (e : GridEvent) :
    (g.step e).OffsetLe ↔ g.Keeps e := by
  have hzero : ∀ g' : CellGrid, g'.view.scrollOffset = 0 → (g'.OffsetLe ↔ True) :=
    fun g' hz ↦ iff_true_intro (by rw [OffsetLe, hz]; exact Nat.zero_le _)
  match e with
  | .op (.snapshot _) | .op .clear | .op (.resize _ _) | .scrollToBottom => exact hzero _ rfl
  | .op (.cursor _ _) | .setSelection _ => exact iff_true_intro hle
  | .scrollUp n => exact iff_true_intro (Nat.min_le_right _ _)
  | .scrollDown n => exact iff_true_intro ((Nat.sub_le _ n).trans hle)
  | .op (.diff d) =>
    refine iff_true_intro ?_
    have hsame := GridContent.sameContent_applyDiff g.content d
    change ((g.view.applyEffect (g.content.applyDiff d).2).scrollOffset ≤
      displayRowsTotal (g.content.applyDiff d).1.scrollback.lines (g.content.applyDiff d).1.cols)
    rw [scrollOffset_applyEffect, hsame.scrollback, hsame.cols]
    rcases hreset : d.scrollbackReset with _ | base
    · rw [GridContent.applyDiff, hreset]
      exact hle
    · rw [GridContent.applyDiff, hreset]
      exact Nat.zero_le _
  | .op (.scrollbackAppend firstIndex lines) =>
    have hcols := (GridContent.sameScreen_applyScrollbackAppend g.content firstIndex lines).cols
    change ((g.view.applyEffect (g.content.applyScrollbackAppend firstIndex lines).2).scrollOffset ≤
      displayRowsTotal (g.content.applyScrollbackAppend firstIndex lines).1.scrollback.lines
        (g.content.applyScrollbackAppend firstIndex lines).1.cols) ↔ _
    rw [scrollOffset_applyEffect, resetView_applyScrollbackAppend, if_neg Bool.false_ne_true,
      heldAfterAppend_eq, hcols]
    exact Iff.rfl
  | .op (.historyLines firstIndex lines total) =>
    have hcols := (GridContent.applyHistoryLines_spec g.content firstIndex lines total).1.cols
    change (g.view.scrollOffset ≤
      displayRowsTotal (g.content.applyHistoryLines firstIndex lines total).scrollback.lines
        (g.content.applyHistoryLines firstIndex lines total).cols) ↔ _
    rw [heldAfterHistory_eq, hcols]
    exact Iff.rfl

/-! ## Runs -/

/-- **Viewport.** Along a run from a blank grid the viewport is inside the history after every step
exactly if every append and every history reply leaves lines enough for the offset it finds. -/
theorem viewport_inside_iff (rows cols : ℕ) (es : List GridEvent) :
    Run.Ok step Keeps (new rows cols) es ↔
      ∀ n, ViewportInside (Run.exec step (new rows cols) (es.take n)) := by
  refine Run.ok_iff_safe (P := fun _ ↦ True)
    (fun g (hg : g.Synced ∧ g.OffsetLe) ↦ viewportInside_of_offset_le hg.1 hg.2)
    (fun g e _ hg hkeeps ↦ ?_)
    (fun g e _ hg hsafe ↦ ?_) es (fun _ _ ↦ trivial) (new rows cols)
    ⟨Synced.new rows cols, Nat.zero_le _⟩
  · exact ⟨hg.1.step e, (step_offset_le_iff hg.2 e).mpr hkeeps⟩
  · exact (step_offset_le_iff hg.2 e).mp hsafe.offset_le

/-- The user scrolls up by the two lines held; then an append arrives past a gap. -/
def gapWhileScrolled : List GridEvent :=
  [.op (.scrollbackAppend 0 [[default], [default]]), .scrollUp 2,
    .op (.scrollbackAppend 5 [[default]])]

/-- The scrollback is cleared and the view stays two rows above it. -/
theorem not_viewportInside_gapWhileScrolled :
    ¬ViewportInside (Run.exec step (new 1 2) gapWhileScrolled) :=
  fun h ↦ absurd h.offset_le (by decide)

end CellGrid

end Kmux
