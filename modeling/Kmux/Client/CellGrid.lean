import Kmux.Client.ApplyWorker

/-!
# The grid facade

A `CellGrid` is a pane's content together with the view the user drives: how far up it is scrolled
and what is selected. Content operations are applied in place, and what they mean for the view is
applied to it before the operation returns.

Two of them move the lines that the view counts by. An append pushes lines onto the scrollback, and
past the capacity as many old ones fall off; one that does not continue the history clears it. The
reply to a history fetch pushes the part that is newer than what is held. What is held afterwards is
`ScrollbackBuffer.newest` of what was held and the lines pushed, in both cases.
-/

namespace Kmux

/-! ## The scrollback after a push -/

namespace ScrollbackBuffer

/-- Number of lines that fall off when some are pushed. -/
def overflow (s : ScrollbackBuffer) (newLines : List ScrollbackLine) : ℕ :=
  s.lines.length + newLines.length - s.maxLines

/-- The lines held once some are pushed. -/
def newest (s : ScrollbackBuffer) (newLines : List ScrollbackLine) : List ScrollbackLine :=
  (s.lines ++ newLines).drop (s.overflow newLines)

@[simp] theorem overflow_nil (s : ScrollbackBuffer) : s.overflow [] = 0 :=
  Nat.sub_eq_zero_of_le s.length_le

theorem length_newest (s : ScrollbackBuffer) (newLines : List ScrollbackLine) :
    (s.newest newLines).length = s.lines.length + newLines.length - s.overflow newLines := by
  rw [newest, List.length_drop, List.length_append]

/-- No more lines fall off than are pushed. -/
theorem overflow_le (s : ScrollbackBuffer) (newLines : List ScrollbackLine) :
    s.overflow newLines ≤ newLines.length := by
  have := s.length_le
  rw [overflow]
  omega

/-- A line that does not fall off moves up by those that do. -/
theorem getElem?_newest {s : ScrollbackBuffer} {newLines : List ScrollbackLine} {row : ℕ}
    (hle : s.overflow newLines ≤ row) (hrow : row < s.lines.length) :
    (s.newest newLines)[row - s.overflow newLines]? = s.lines[row]? := by
  rw [newest, List.getElem?_drop, Nat.add_sub_cancel' hle, List.getElem?_append_left hrow]

theorem foldl_pushLine_newest (s : ScrollbackBuffer) (newLines : List ScrollbackLine) :
    (newLines.foldl pushLine s).lines = s.newest newLines := foldl_pushLine_lines s newLines

end ScrollbackBuffer

namespace GridContent

open ScrollbackBuffer

/-- The part of a history reply that is newer than what is held. -/
def freshLines (g : GridContent) (firstIndex : ℕ) (lines : List ScrollbackLine) :
    List ScrollbackLine :=
  if firstIndex ≤ g.scrollback.historyTotal then
    lines.drop (g.scrollback.historyTotal - firstIndex)
  else []

/-- An operation leaves the screen alone. -/
structure SameScreen (g g' : GridContent) : Prop where
  rows : g'.rows = g.rows
  cols : g'.cols = g.cols
  cells : g'.cells = g.cells

theorem SameScreen.refl (g : GridContent) : SameScreen g g := ⟨rfl, rfl, rfl⟩

theorem SameScreen.trans {g₁ g₂ g₃ : GridContent} (h : SameScreen g₁ g₂) (h' : SameScreen g₂ g₃) :
    SameScreen g₁ g₃ :=
  ⟨h'.rows.trans h.rows, h'.cols.trans h.cols, h'.cells.trans h.cells⟩

theorem sameScreen_maybeClearHistoryGap (g : GridContent) :
    SameScreen g g.maybeClearHistoryGap := by
  obtain ⟨hrows, hcols, hcells, -, -, -⟩ := sameContent_maybeClearHistoryGap g
  exact ⟨hrows, hcols, hcells⟩

@[simp] theorem maybeClearHistoryGap_scrollback (g : GridContent) :
    g.maybeClearHistoryGap.scrollback = g.scrollback :=
  (sameContent_maybeClearHistoryGap g).scrollback

theorem sameScreen_applyScrollbackAppend (g : GridContent) (firstIndex : ℕ)
    (lines : List ScrollbackLine) : SameScreen g (g.applyScrollbackAppend firstIndex lines).1 := by
  rw [applyScrollbackAppend]
  by_cases hlines : lines = []
  · rw [if_pos hlines]
    exact SameScreen.refl g
  · rw [if_neg hlines]
    obtain ⟨hrows, hcols, hcells⟩ := sameScreen_maybeClearHistoryGap
      { g with
        scrollback := if (g.scrollback.appendWithIndex firstIndex lines).2 then
          (g.scrollback.appendWithIndex firstIndex lines).1
        else (g.scrollback.appendWithIndex firstIndex lines).1.clear }
    exact ⟨hrows, hcols, hcells⟩

/-- Nothing to append. -/
theorem applyScrollbackAppend_nil (g : GridContent) (firstIndex : ℕ) :
    g.applyScrollbackAppend firstIndex [] = (g, {}) := rfl

/-- An append that continues the history. -/
theorem applyScrollbackAppend_contiguous (g : GridContent) {lines : List ScrollbackLine}
    (hlines : lines ≠ []) :
    (g.applyScrollbackAppend g.scrollback.historyTotal lines).1.scrollback =
        lines.foldl pushLine g.scrollback ∧
      (g.applyScrollbackAppend g.scrollback.historyTotal lines).2 =
        { scrollbackFixup := some
            (.shifted (g.scrollback.overflow lines)
              (lines.length - g.scrollback.overflow lines)) } := by
  have hevicted : g.scrollback.lines.length + lines.length -
      (lines.foldl pushLine g.scrollback).lines.length = g.scrollback.overflow lines := by
    rw [foldl_pushLine_lines, List.length_drop, List.length_append, overflow]
    omega
  rw [applyScrollbackAppend, if_neg hlines, appendWithIndex, if_neg (not_not.mpr rfl)]
  dsimp only
  rw [if_pos rfl, if_pos rfl, hevicted, maybeClearHistoryGap_scrollback]
  exact ⟨rfl, rfl⟩

/-- An append that does not continue the history. -/
theorem applyScrollbackAppend_gap (g : GridContent) {firstIndex : ℕ} {lines : List ScrollbackLine}
    (hlines : lines ≠ []) (hgap : firstIndex ≠ g.scrollback.historyTotal) :
    (g.applyScrollbackAppend firstIndex lines).1.scrollback = g.scrollback.clear ∧
      (g.applyScrollbackAppend firstIndex lines).2 = { scrollbackFixup := some .cleared } := by
  rw [applyScrollbackAppend, if_neg hlines, appendWithIndex, if_pos hgap]
  dsimp only
  rw [if_neg Bool.false_ne_true, if_neg Bool.false_ne_true, maybeClearHistoryGap_scrollback]
  exact ⟨rfl, rfl⟩

/-- A history reply pushes what is newer than what is held. -/
theorem applyHistoryLines_spec (g : GridContent) (firstIndex : ℕ) (lines : List ScrollbackLine)
    (historyTotal : ℕ) :
    SameScreen g (g.applyHistoryLines firstIndex lines historyTotal) ∧
      (g.applyHistoryLines firstIndex lines historyTotal).scrollback =
        (g.freshLines firstIndex lines).foldl pushLine g.scrollback := by
  have hnothing : g.freshLines firstIndex lines = [] → SameScreen g g.maybeClearHistoryGap ∧
      g.maybeClearHistoryGap.scrollback =
        (g.freshLines firstIndex lines).foldl pushLine g.scrollback := by
    intro hnil
    rw [hnil]
    exact ⟨sameScreen_maybeClearHistoryGap g, maybeClearHistoryGap_scrollback g⟩
  rw [applyHistoryLines]
  by_cases hlines : lines = []
  · rw [if_pos hlines, freshLines, hlines, List.drop_nil, ite_self]
    exact ⟨SameScreen.refl g, rfl⟩
  rw [if_neg hlines]
  dsimp only
  by_cases hfirst : firstIndex = g.scrollback.historyTotal
  · -- the reply starts where the history ends
    rw [if_pos hfirst, maybeClearHistoryGap_scrollback, appendWithIndex,
      if_neg (not_not.mpr hfirst), freshLines, if_pos hfirst.le, hfirst, Nat.sub_self,
      List.drop_zero]
    obtain ⟨hrows, hcols, hcells⟩ := sameScreen_maybeClearHistoryGap
      { g with
        scrollback := lines.foldl pushLine g.scrollback
        cellsGeneration := g.cellsGeneration + 1 }
    exact ⟨⟨hrows, hcols, hcells⟩, rfl⟩
  rw [if_neg hfirst]
  by_cases hspan : firstIndex < g.scrollback.historyTotal ∧
      g.scrollback.historyTotal < firstIndex + lines.length
  · -- the reply overlaps what is held and reaches past it
    have htail : lines.drop (g.scrollback.historyTotal - firstIndex) ≠ [] := by
      intro hnil
      have := List.drop_eq_nil_iff.mp hnil
      omega
    rw [if_pos hspan, if_pos htail, maybeClearHistoryGap_scrollback, appendWithIndex,
      if_neg (not_not.mpr rfl), freshLines, if_pos hspan.1.le]
    obtain ⟨hrows, hcols, hcells⟩ := sameScreen_maybeClearHistoryGap
      { g with
        scrollback := (lines.drop (g.scrollback.historyTotal - firstIndex)).foldl pushLine
          g.scrollback
        cellsGeneration := g.cellsGeneration + 1 }
    exact ⟨⟨hrows, hcols, hcells⟩, rfl⟩
  · rw [if_neg hspan]
    refine hnothing ?_
    rw [freshLines]
    split
    · exact List.drop_eq_nil_iff.mpr (by omega)
    · rfl

end GridContent

/-! ## The facade -/

/-- A pane's content and view, with a copy of the content's size. -/
structure CellGrid where
  content : GridContent
  view : GridView
  rows : ℕ
  cols : ℕ

namespace GridView

def new : GridView := { scrollOffset := 0, selection := none }

/-- Scroll up by `n` display rows, capped at `maxOffset`. -/
def scrollUp (v : GridView) (n maxOffset : ℕ) : GridView :=
  { v with scrollOffset := min (v.scrollOffset + n) maxOffset }

/-- Scroll down by `n` rows toward the live view. -/
def scrollDown (v : GridView) (n : ℕ) : GridView := { v with scrollOffset := v.scrollOffset - n }

/-- Snap to the live view. -/
def scrollToBottom (v : GridView) : GridView := { v with scrollOffset := 0 }

def setSelection (v : GridView) (sel : Option Selection) : GridView := { v with selection := sel }

end GridView

namespace CellGrid

def new (rows cols : ℕ) : CellGrid :=
  { content := GridContent.new rows cols, view := GridView.new, rows, cols }

/-- Apply a mutation in place and reconcile the view. The copied size is taken over from a snapshot
and from a resize only. -/
def apply (g : CellGrid) (op : ContentOp) : CellGrid :=
  let done := op.apply g.content
  let view := g.view.applyEffect done.2
  match op with
  | .snapshot _ | .resize _ _ =>
      { content := done.1, view, rows := done.1.rows, cols := done.1.cols }
  | _ => { g with content := done.1, view }

end CellGrid

end Kmux
