import Kmux.Client.CellGrid
import Kmux.Client.DisplayRows
import Mathlib.Data.List.DropRight

/-!
# Selections and the text under them

A selection stores two positions whose rows count from the oldest line held, the screen after the
scrollback. So the row of one and the same line changes when lines are pushed: a scrollback line
moves up by the lines that fall off, a screen line moves down by what the scrollback grows by. The
view reconciles a selection with one formula for both, minus what fell off plus what it grew by, and
checks the anchor alone for having fallen off; after a history reply it does nothing at all.

`SticksWhen` says when this comes out right. A selection that begins in the scrollback and ends on
the screen never sticks when a line is added, so where both ends stay on their lines the rows in
between move along with them, and the selected text is the same, `selectedText_down`.
-/

namespace Kmux

/-! ## The source's functions -/

namespace GridPos

/-- Reading order. -/
def Le (a b : GridPos) : Prop := a.row < b.row ∨ a.row = b.row ∧ a.col ≤ b.col

instance : DecidableRel Le := fun a b ↦
  inferInstanceAs (Decidable (a.row < b.row ∨ a.row = b.row ∧ a.col ≤ b.col))

def min (a b : GridPos) : GridPos := if Le a b then a else b

def max (a b : GridPos) : GridPos := if Le b a then a else b

/-- The position `d` rows further down. -/
def down (pos : GridPos) (d : ℕ) : GridPos := { pos with row := pos.row + d }

theorem down_le_down_iff (a b : GridPos) (d : ℕ) : Le (a.down d) (b.down d) ↔ Le a b := by
  simp only [Le, down]
  omega

theorem min_down (a b : GridPos) (d : ℕ) : min (a.down d) (b.down d) = (min a b).down d := by
  rw [min, min]
  by_cases h : Le a b
  · rw [if_pos h, if_pos ((down_le_down_iff a b d).mpr h)]
  · rw [if_neg h, if_neg (mt (down_le_down_iff a b d).mp h)]

theorem max_down (a b : GridPos) (d : ℕ) : max (a.down d) (b.down d) = (max a b).down d := by
  rw [max, max]
  by_cases h : Le b a
  · rw [if_pos h, if_pos ((down_le_down_iff b a d).mpr h)]
  · rw [if_neg h, if_neg (mt (down_le_down_iff b a d).mp h)]

theorem down_inj {a b : GridPos} {d : ℕ} : a.down d = b.down d ↔ a = b := by
  constructor
  · intro h
    rw [down, down, mk.injEq] at h
    obtain ⟨hrow, hcol⟩ := h
    obtain ⟨row, col⟩ := a
    obtain ⟨row', col'⟩ := b
    rw [mk.injEq]
    exact ⟨Nat.add_right_cancel hrow, hcol⟩
  · rintro rfl
    rfl

end GridPos

namespace Selection

/-- The earlier position. -/
def start (sel : Selection) : GridPos := GridPos.min sel.anchor sel.endPos

/-- The later position. -/
def finish (sel : Selection) : GridPos := GridPos.max sel.anchor sel.endPos

/-- The selection `d` rows further down. -/
def down (sel : Selection) (d : ℕ) : Selection := ⟨sel.anchor.down d, sel.endPos.down d⟩

theorem start_down (sel : Selection) (d : ℕ) : (sel.down d).start = sel.start.down d :=
  GridPos.min_down _ _ d

theorem finish_down (sel : Selection) (d : ℕ) : (sel.down d).finish = sel.finish.down d :=
  GridPos.max_down _ _ d

/-- A bound on both ends from above bounds the selection. -/
theorem finish_row_lt {sel : Selection} {n : ℕ} (ha : sel.anchor.row < n)
    (hb : sel.endPos.row < n) : sel.finish.row < n := by
  rw [finish, GridPos.max]
  split
  · exact ha
  · exact hb

/-- A bound on both ends from below bounds the selection. -/
theorem le_start_row {sel : Selection} {n : ℕ} (ha : n ≤ sel.anchor.row) (hb : n ≤ sel.endPos.row) :
    n ≤ sel.start.row := by
  rw [start, GridPos.min]
  split
  · exact ha
  · exact hb

end Selection

/-- The characters that trimming a text removes: those with the Unicode property `White_Space`. -/
def isWhitespace (c : Char) : Bool :=
  let n := c.toNat
  (0x09 ≤ n && n ≤ 0x0d) || n == 0x20 || n == 0x85 || n == 0xa0 || n == 0x1680 ||
    (0x2000 ≤ n && n ≤ 0x200a) || n == 0x2028 || n == 0x2029 || n == 0x202f || n == 0x205f ||
    n == 0x3000

/-- The cell at a position in scrollback and screen together. -/
def GridContent.cellAt (g : GridContent) (pos : GridPos) : Option CellState :=
  let sbLen := g.scrollback.lines.length
  if pos.row < sbLen then g.scrollback.lines[pos.row]?.bind fun cells ↦ cells[pos.col]?
  else
    let gridRow := pos.row - sbLen
    if gridRow < g.rows ∧ pos.col < g.cols then g.cells[gridRow * g.cols + pos.col]? else none

namespace CellGrid

/-- The last column selected of a row that the selection does not end on. -/
def lastCol (g : CellGrid) (row : ℕ) : ℕ :=
  if row < g.content.scrollback.lines.length then
    g.content.scrollback.lines[row]?.elim 0 fun line ↦ effectiveLineLen line - 1
  else g.cols - 1

/-- The characters between two columns of a row, spacers left out and the end trimmed. -/
def rowText (g : CellGrid) (row colStart colEnd : ℕ) : List Char :=
  let line := (List.range' colStart (colEnd + 1 - colStart)).filterMap fun col ↦
    (g.content.cellAt ⟨row, col⟩).bind fun cell ↦
      if cell.attrs.contains CellAttrs.wideCharSpacer then none else some cell.c
  line.rdropWhile isWhitespace

/-- The text from one position to a later one, a line a row. -/
def textBetween (g : CellGrid) (start finish : GridPos) : List Char :=
  (List.range' start.row (finish.row + 1 - start.row)).flatMap fun row ↦
    let colStart := if row = start.row then start.col else 0
    let colEnd := if row = finish.row then finish.col else g.lastCol row
    let newline := if start.row < row then ['\n'] else []
    newline ++ g.rowText row colStart colEnd

/-- The text covered by the selection. -/
def selectedText (g : CellGrid) : Option (List Char) :=
  g.view.selection.bind fun sel ↦
    if sel.start = sel.finish then none else some (g.textBetween sel.start sel.finish)

end CellGrid

/-! ## Logical lines -/

/-- A line by what it is: one of the history by its absolute index, or a row of the screen. -/
inductive LogicalLine
  | history (index : ℕ)
  | screen (row : ℕ)
  deriving DecidableEq, Repr

/-- The line that a row stands for when `len` lines from index `base` on are held. -/
def LogicalLine.ofRow (base len row : ℕ) : LogicalLine :=
  if row < len then .history (base + row) else .screen (row - len)

/-- The line that a row of a grid stands for. -/
def GridContent.lineAt (g : GridContent) (row : ℕ) : LogicalLine :=
  LogicalLine.ofRow g.scrollback.baseIndex g.scrollback.lines.length row

/-- A position in one grid designates the line and column that another does in a second. -/
def SamePlace (g : GridContent) (pos : GridPos) (g' : GridContent) (pos' : GridPos) : Prop :=
  g'.lineAt pos'.row = g.lineAt pos.row ∧ pos'.col = pos.col

/-- What can happen to the scrollback: an append, a wipe by the program or of the whole grid, or the
reply to a history fetch. -/
inductive ScrollbackEvent
  | append (firstIndex : ℕ) (lines : List ScrollbackLine)
  | wipe (diff : TerminalDiff) (base : ℕ)
  | clear
  | fill (firstIndex : ℕ) (lines : List ScrollbackLine) (historyTotal : ℕ)
  deriving DecidableEq, Repr

/-- The operation on the content. -/
def ScrollbackEvent.op : ScrollbackEvent → ContentOp
  | .append firstIndex lines => .scrollbackAppend firstIndex lines
  | .wipe diff base => .diff { diff with scrollbackReset := some base }
  | .clear => .clear
  | .fill firstIndex lines historyTotal => .historyLines firstIndex lines historyTotal

namespace CellGrid

/-- After the event the selection is gone, or its ends are where they were and so is its text. -/
def Sticks (g : CellGrid) (sel : Selection) (e : ScrollbackEvent) : Prop :=
  (g.apply e.op).view.selection = none ∨
    ∃ sel', (g.apply e.op).view.selection = some sel' ∧
      SamePlace g.content sel.anchor (g.apply e.op).content sel'.anchor ∧
      SamePlace g.content sel.endPos (g.apply e.op).content sel'.endPos ∧
      (g.apply e.op).selectedText = g.selectedText

/-- Both ends are in the scrollback. -/
def InScrollback (g : CellGrid) (sel : Selection) : Prop :=
  sel.anchor.row < g.content.scrollback.lines.length ∧
    sel.endPos.row < g.content.scrollback.lines.length

/-- Both ends are on the screen. -/
def OnScreen (g : CellGrid) (sel : Selection) : Prop :=
  g.content.scrollback.lines.length ≤ sel.anchor.row ∧
    g.content.scrollback.lines.length ≤ sel.endPos.row

/-- When a selection sticks to its text. For an append that adds lines and continues the history:
the anchor falls off; or the selection lies in the scrollback, which does not grow, and neither end
falls off; or it lies on the screen and nothing falls off. For a history reply that adds lines: it
lies in the scrollback and nothing falls off; or on the screen, and the scrollback does not grow. -/
def SticksWhen (g : CellGrid) (sel : Selection) : ScrollbackEvent → Prop
  | .append firstIndex lines =>
      let sb := g.content.scrollback
      lines = [] ∨ firstIndex ≠ sb.historyTotal ∨ sel.anchor.row < sb.overflow lines ∨
        (g.InScrollback sel ∧ sb.overflow lines = lines.length ∧
          sb.overflow lines ≤ sel.endPos.row) ∨
        (g.OnScreen sel ∧ sb.overflow lines = 0)
  | .wipe _ _ => True
  | .clear => True
  | .fill firstIndex lines _ =>
      let sb := g.content.scrollback
      let fresh := g.content.freshLines firstIndex lines
      fresh = [] ∨ (g.InScrollback sel ∧ sb.overflow fresh = 0) ∨
        (g.OnScreen sel ∧ sb.overflow fresh = fresh.length)

/-! ## The text of rows that moved together -/

/-- A row of one grid shows what a row of another does. -/
structure SameRow (g : CellGrid) (row : ℕ) (g' : CellGrid) (row' : ℕ) : Prop where
  cellAt : ∀ col, g'.content.cellAt ⟨row', col⟩ = g.content.cellAt ⟨row, col⟩
  lastCol : g'.lastCol row' = g.lastCol row

variable {g g' : CellGrid}

theorem SameRow.rowText {row row' : ℕ} (h : SameRow g row g' row') (colStart colEnd : ℕ) :
    g'.rowText row' colStart colEnd = g.rowText row colStart colEnd := by
  simp only [CellGrid.rowText, h.cellAt]

/-- The same line, held at two places. -/
theorem sameRow_scrollback {row row' : ℕ} (hrow : row < g.content.scrollback.lines.length)
    (hline : g'.content.scrollback.lines[row']? = g.content.scrollback.lines[row]?) :
    SameRow g row g' row' := by
  have hrow' : row' < g'.content.scrollback.lines.length := by
    rw [List.getElem?_eq_getElem hrow] at hline
    exact (List.getElem?_eq_some_iff.mp hline).1
  constructor
  · intro col
    rw [GridContent.cellAt, GridContent.cellAt]
    dsimp only
    rw [if_pos hrow, if_pos hrow', hline]
  · rw [lastCol, lastCol, if_pos hrow, if_pos hrow', hline]

/-- The same row of the same screen. -/
theorem sameRow_screen {row row' : ℕ} (hrow : g.content.scrollback.lines.length ≤ row)
    (hrow' : g'.content.scrollback.lines.length ≤ row')
    (heq : row' - g'.content.scrollback.lines.length = row - g.content.scrollback.lines.length)
    (hscreen : GridContent.SameScreen g.content g'.content) (hcols : g'.cols = g.cols) :
    SameRow g row g' row' := by
  constructor
  · intro col
    rw [GridContent.cellAt, GridContent.cellAt]
    dsimp only
    rw [if_neg (Nat.not_lt.mpr hrow), if_neg (Nat.not_lt.mpr hrow'), heq, hscreen.rows,
      hscreen.cols, hscreen.cells]
  · rw [lastCol, lastCol, if_neg (Nat.not_lt.mpr hrow), if_neg (Nat.not_lt.mpr hrow'), hcols]

theorem textBetween_down (d : ℕ) (start finish : GridPos)
    (h : ∀ row, start.row ≤ row → row ≤ finish.row → SameRow g row g' (row + d)) :
    g'.textBetween (start.down d) (finish.down d) = g.textBetween start finish := by
  rw [textBetween, textBetween]
  have hrange : List.range' (start.down d).row ((finish.down d).row + 1 - (start.down d).row) =
      (List.range' start.row (finish.row + 1 - start.row)).map (d + ·) := by
    rw [List.map_add_range', GridPos.down, GridPos.down, Nat.add_comm start.row d,
      show finish.row + d + 1 - (d + start.row) = finish.row + 1 - start.row by omega]
  rw [hrange, List.flatMap_map]
  refine List.flatMap_congr fun row hmem ↦ ?_
  obtain ⟨hlo, hhi⟩ := List.mem_range'_1.mp hmem
  have hsame : SameRow g row g' (d + row) := by
    rw [Nat.add_comm]
    exact h row hlo (by omega)
  dsimp only [GridPos.down]
  rw [hsame.rowText, hsame.lastCol, Nat.add_comm d row]
  simp only [Nat.add_right_cancel_iff, Nat.add_lt_add_iff_right]

/-- **Moving together.** When the rows under a selection move down by `d` and the selection with
them, the selected text stays. -/
theorem selectedText_down {sel : Selection} {d : ℕ} (hsel : g.view.selection = some sel)
    (hsel' : g'.view.selection = some (sel.down d))
    (h : ∀ row, sel.start.row ≤ row → row ≤ sel.finish.row → SameRow g row g' (row + d)) :
    g'.selectedText = g.selectedText := by
  rw [selectedText, selectedText, hsel, hsel', Option.bind_some, Option.bind_some,
    Selection.start_down, Selection.finish_down, textBetween_down d _ _ h]
  simp only [GridPos.down_inj]

/-! ## Lines and rows after a push

Lines are pushed: `pushed` of them, and `evicted` fall off the front, no more than were pushed. -/

/-- Where the view puts the row of an end after an append. -/
theorem ofRow_shifted_iff {base len evicted pushed row : ℕ} (hle : evicted ≤ pushed) :
    LogicalLine.ofRow (base + evicted) (len + pushed - evicted)
        (row - evicted + (pushed - evicted)) = LogicalLine.ofRow base len row ↔
      (row < len ∧ evicted ≤ row ∧ evicted = pushed) ∨
        (len ≤ row ∧ (evicted = 0 ∨ row = 0)) := by
  rw [LogicalLine.ofRow, LogicalLine.ofRow]
  split <;> split <;>
    simp only [LogicalLine.history.injEq, LogicalLine.screen.injEq, reduceCtorEq, false_iff] <;>
    omega

/-- An end that the view leaves alone. -/
theorem ofRow_kept_iff {base len evicted pushed row : ℕ} (hle : evicted ≤ pushed) :
    LogicalLine.ofRow (base + evicted) (len + pushed - evicted) row =
        LogicalLine.ofRow base len row ↔
      (row < len ∧ evicted = 0) ∨ (len ≤ row ∧ evicted = pushed) := by
  rw [LogicalLine.ofRow, LogicalLine.ofRow]
  split <;> split <;>
    simp only [LogicalLine.history.injEq, LogicalLine.screen.injEq, reduceCtorEq, false_iff] <;>
    omega

/-- One grid is another with lines pushed onto the scrollback, views apart. -/
structure Pushed (g : CellGrid) (lines : List ScrollbackLine) (g' : CellGrid) : Prop where
  scrollback :
    g'.content.scrollback = lines.foldl ScrollbackBuffer.pushLine g.content.scrollback
  screen : GridContent.SameScreen g.content g'.content
  cols : g'.cols = g.cols

namespace Pushed

variable {lines : List ScrollbackLine}

theorem lineAt (h : Pushed g lines g') (row : ℕ) :
    g'.content.lineAt row =
      LogicalLine.ofRow
        (g.content.scrollback.baseIndex + g.content.scrollback.overflow lines)
        (g.content.scrollback.lines.length + lines.length - g.content.scrollback.overflow lines)
        row := by
  rw [GridContent.lineAt, h.scrollback, ScrollbackBuffer.foldl_pushLine_baseIndex,
    ScrollbackBuffer.foldl_pushLine_newest, ScrollbackBuffer.length_newest]
  rfl

theorem length (h : Pushed g lines g') :
    g'.content.scrollback.lines.length = g.content.scrollback.lines.length +
      (lines.length - g.content.scrollback.overflow lines) := by
  have hle := ScrollbackBuffer.overflow_le g.content.scrollback lines
  rw [h.scrollback, ScrollbackBuffer.foldl_pushLine_newest, ScrollbackBuffer.length_newest]
  omega

/-- A selection in the scrollback that moves up by the lines that fall off keeps its text. -/
theorem selectedText_scrollback (h : Pushed g lines g') {sel : Selection}
    (hsel : g.view.selection = some (sel.down (g.content.scrollback.overflow lines)))
    (hsel' : g'.view.selection = some sel)
    (hin : g.InScrollback (sel.down (g.content.scrollback.overflow lines))) :
    g'.selectedText = g.selectedText := by
  refine (selectedText_down hsel' hsel fun row _ hhi ↦ ?_).symm
  have hlast := Selection.finish_row_lt hin.1 hin.2
  rw [Selection.finish_down] at hlast
  have hrow : row + g.content.scrollback.overflow lines < g.content.scrollback.lines.length :=
    lt_of_le_of_lt (Nat.add_le_add_right hhi _) hlast
  have hline := ScrollbackBuffer.getElem?_newest (Nat.le_add_left _ row) hrow
  rw [Nat.add_sub_cancel] at hline
  refine sameRow_scrollback ?_ ?_
  · rw [h.length]
    omega
  · rw [h.scrollback, ScrollbackBuffer.foldl_pushLine_newest, hline]

/-- A selection on the screen that moves down by what the scrollback grows by keeps its text. -/
theorem selectedText_screen (h : Pushed g lines g') {sel : Selection}
    (hsel : g.view.selection = some sel)
    (hsel' : g'.view.selection =
      some (sel.down (lines.length - g.content.scrollback.overflow lines)))
    (hon : g.OnScreen sel) : g'.selectedText = g.selectedText := by
  refine selectedText_down hsel hsel' fun row hlo _ ↦ ?_
  have hrow : g.content.scrollback.lines.length ≤ row :=
    (Selection.le_start_row hon.1 hon.2).trans hlo
  have hlen := h.length
  exact sameRow_screen hrow (by omega) (by omega) h.screen h.cols

/-- Nothing was pushed. -/
theorem selectedText_nil (h : Pushed g [] g') (hview : g'.view.selection = g.view.selection) :
    g'.selectedText = g.selectedText := by
  have hsb : g'.content.scrollback = g.content.scrollback := h.scrollback
  rcases hsel : g.view.selection with _ | sel
  · rw [selectedText, selectedText, hview, hsel]
    rfl
  · refine selectedText_down (d := 0) hsel (hview.trans hsel) fun row _ _ ↦ ?_
    by_cases hrow : row < g.content.scrollback.lines.length
    · exact sameRow_scrollback hrow (by rw [hsb, Nat.add_zero])
    · exact sameRow_screen (Nat.not_lt.mp hrow) (by rw [hsb]; exact Nat.not_lt.mp hrow)
        (by rw [hsb, Nat.add_zero]) h.screen h.cols

end Pushed

/-! ## Appends -/

/-- Where the view puts an end when lines are appended. -/
def shiftedPos (g : CellGrid) (lines : List ScrollbackLine) (pos : GridPos) : GridPos :=
  { pos with
    row := pos.row - g.content.scrollback.overflow lines +
      (lines.length - g.content.scrollback.overflow lines) }

/-- The grid after an append that adds lines and continues the history. -/
theorem pushed_append (g : CellGrid) {lines : List ScrollbackLine} (hlines : lines ≠ []) :
    Pushed g lines (g.apply (.scrollbackAppend g.content.scrollback.historyTotal lines)) where
  scrollback := (g.content.applyScrollbackAppend_contiguous hlines).1
  screen := g.content.sameScreen_applyScrollbackAppend _ lines
  cols := rfl

/-- The selection after such an append. -/
theorem selection_append {sel : Selection} (hsel : g.view.selection = some sel)
    {lines : List ScrollbackLine} (hlines : lines ≠ []) :
    (g.apply (.scrollbackAppend g.content.scrollback.historyTotal lines)).view.selection =
      if sel.anchor.row < g.content.scrollback.overflow lines then none
      else some ⟨g.shiftedPos lines sel.anchor, g.shiftedPos lines sel.endPos⟩ := by
  change (g.view.applyEffect (g.content.applyScrollbackAppend _ lines).2).selection = _
  rw [(g.content.applyScrollbackAppend_contiguous hlines).2, GridView.applyEffect]
  dsimp only
  rw [if_neg Bool.false_ne_true, hsel, Option.bind_some]
  by_cases hoff : sel.anchor.row < g.content.scrollback.overflow lines
  · rw [if_pos hoff, if_pos ⟨by omega, hoff⟩]
  · rw [if_neg hoff, if_neg fun h ↦ hoff h.2]
    rfl

/-- When an end is where it was. -/
theorem samePlace_append_iff {lines : List ScrollbackLine} (h : Pushed g lines g')
    (pos : GridPos) :
    SamePlace g.content pos g'.content (g.shiftedPos lines pos) ↔
      (pos.row < g.content.scrollback.lines.length ∧
          g.content.scrollback.overflow lines ≤ pos.row ∧
          g.content.scrollback.overflow lines = lines.length) ∨
        (g.content.scrollback.lines.length ≤ pos.row ∧
          (g.content.scrollback.overflow lines = 0 ∨ pos.row = 0)) := by
  rw [SamePlace, shiftedPos, and_iff_left rfl, h.lineAt, GridContent.lineAt]
  exact ofRow_shifted_iff (ScrollbackBuffer.overflow_le _ _)

theorem sticks_append_iff {sel : Selection} (hsel : g.view.selection = some sel)
    {lines : List ScrollbackLine} (hlines : lines ≠ []) :
    g.Sticks sel (.append g.content.scrollback.historyTotal lines) ↔
      sel.anchor.row < g.content.scrollback.overflow lines ∨
        (g.InScrollback sel ∧ g.content.scrollback.overflow lines = lines.length ∧
          g.content.scrollback.overflow lines ≤ sel.endPos.row) ∨
        (g.OnScreen sel ∧ g.content.scrollback.overflow lines = 0) := by
  have hpos : 0 < lines.length := List.length_pos_of_ne_nil hlines
  have hpushed := pushed_append g hlines
  have hsel' := selection_append hsel hlines
  rw [Sticks, ScrollbackEvent.op]
  by_cases hoff : sel.anchor.row < g.content.scrollback.overflow lines
  · rw [if_pos hoff] at hsel'
    exact iff_of_true (.inl hsel') (.inl hoff)
  rw [if_neg hoff] at hsel'
  rw [hsel', or_iff_right (Option.some_ne_none _), or_iff_right hoff]
  constructor
  · -- the ends may be one in the scrollback and one on the screen only if nothing is added
    rintro ⟨sel', hsome, hanchor, hend, -⟩
    rw [← Option.some.inj hsome] at hanchor hend
    have hanchor := (samePlace_append_iff hpushed sel.anchor).mp hanchor
    have hend := (samePlace_append_iff hpushed sel.endPos).mp hend
    simp only [InScrollback, OnScreen]
    omega
  -- in the scrollback both ends move up by what fell off, and nothing else may be added
  · rintro (⟨hin, heq, hlast⟩ | ⟨hon, hzero⟩)
    · have hback : ∀ pos : GridPos, g.content.scrollback.overflow lines ≤ pos.row →
          (g.shiftedPos lines pos).down (g.content.scrollback.overflow lines) = pos := by
        intro pos hle
        rw [shiftedPos, GridPos.down, heq, Nat.sub_self, Nat.add_zero, ← heq,
          Nat.sub_add_cancel hle]
      have hsel₀ : sel = Selection.down ⟨g.shiftedPos lines sel.anchor,
          g.shiftedPos lines sel.endPos⟩ (g.content.scrollback.overflow lines) := by
        rw [Selection.down, hback _ (Nat.not_lt.mp hoff), hback _ hlast]
      refine ⟨_, rfl, (samePlace_append_iff hpushed _).mpr (.inl ⟨hin.1, Nat.not_lt.mp hoff, heq⟩),
        (samePlace_append_iff hpushed _).mpr (.inl ⟨hin.2, hlast, heq⟩), ?_⟩
      exact hpushed.selectedText_scrollback (hsel₀ ▸ hsel) hsel' (hsel₀ ▸ hin)
    · refine ⟨_, rfl, (samePlace_append_iff hpushed _).mpr (.inr ⟨hon.1, .inl hzero⟩),
        (samePlace_append_iff hpushed _).mpr (.inr ⟨hon.2, .inl hzero⟩), ?_⟩
      refine hpushed.selectedText_screen hsel ?_ hon
      rw [hsel', shiftedPos, shiftedPos, hzero]
      rfl

/-! ## History replies -/

/-- The grid after the reply to a history fetch. -/
theorem pushed_fill (g : CellGrid) (firstIndex : ℕ) (lines : List ScrollbackLine)
    (historyTotal : ℕ) :
    Pushed g (g.content.freshLines firstIndex lines)
      (g.apply (.historyLines firstIndex lines historyTotal)) where
  scrollback := (g.content.applyHistoryLines_spec firstIndex lines historyTotal).2
  screen := (g.content.applyHistoryLines_spec firstIndex lines historyTotal).1
  cols := rfl

theorem sticks_fill_iff {sel : Selection} (hsel : g.view.selection = some sel) (firstIndex : ℕ)
    (lines : List ScrollbackLine) (historyTotal : ℕ) :
    g.Sticks sel (.fill firstIndex lines historyTotal) ↔
      g.SticksWhen sel (.fill firstIndex lines historyTotal) := by
  have hpushed := pushed_fill g firstIndex lines historyTotal
  have hsel' :
      (g.apply (.historyLines firstIndex lines historyTotal)).view.selection = some sel := hsel
  rw [Sticks, ScrollbackEvent.op, SticksWhen, hsel', or_iff_right (Option.some_ne_none _)]
  revert hpushed hsel'
  generalize g.content.freshLines firstIndex lines = fresh
  intro hpushed hsel'
  have hle := ScrollbackBuffer.overflow_le g.content.scrollback fresh
  -- a reply leaves the selection where it is, so the lines must not move under it
  have hplace : ∀ pos : GridPos, SamePlace g.content pos
      (g.apply (.historyLines firstIndex lines historyTotal)).content pos ↔
      (pos.row < g.content.scrollback.lines.length ∧
          g.content.scrollback.overflow fresh = 0) ∨
        (g.content.scrollback.lines.length ≤ pos.row ∧
          g.content.scrollback.overflow fresh = fresh.length) := by
    intro pos
    rw [SamePlace, and_iff_left rfl, hpushed.lineAt, GridContent.lineAt]
    exact ofRow_kept_iff hle
  constructor
  · rintro ⟨sel', hsome, hanchor, hend, -⟩
    rw [← Option.some.inj hsome] at hanchor hend
    have hanchor := (hplace sel.anchor).mp hanchor
    have hend := (hplace sel.endPos).mp hend
    rw [← List.length_eq_zero_iff]
    simp only [InScrollback, OnScreen]
    omega
  · have hscrollback : g.InScrollback sel → g.content.scrollback.overflow fresh = 0 →
        (g.apply (.historyLines firstIndex lines historyTotal)).selectedText = g.selectedText := by
      intro hin hzero
      exact hpushed.selectedText_scrollback (by rw [hzero]; exact hsel) hsel'
        (by rw [hzero]; exact hin)
    have hscreen : g.OnScreen sel → g.content.scrollback.overflow fresh = fresh.length →
        (g.apply (.historyLines firstIndex lines historyTotal)).selectedText = g.selectedText := by
      intro hon heq
      exact hpushed.selectedText_screen hsel (by rw [heq, Nat.sub_self]; exact hsel') hon
    rintro (hnil | ⟨hin, hzero⟩ | ⟨hon, heq⟩)
    · subst hnil
      have hsame : ∀ pos : GridPos, SamePlace g.content pos
          (g.apply (.historyLines firstIndex lines historyTotal)).content pos := by
        intro pos
        refine (hplace pos).mpr ?_
        rw [ScrollbackBuffer.overflow_nil, List.length_nil, and_iff_left rfl, and_iff_left rfl]
        exact lt_or_ge _ _
      exact ⟨sel, rfl, hsame _, hsame _, hpushed.selectedText_nil (hsel'.trans hsel.symm)⟩
    · exact ⟨sel, rfl, (hplace _).mpr (.inl ⟨hin.1, hzero⟩), (hplace _).mpr (.inl ⟨hin.2, hzero⟩),
        hscrollback hin hzero⟩
    · exact ⟨sel, rfl, (hplace _).mpr (.inr ⟨hon.1, heq⟩), (hplace _).mpr (.inr ⟨hon.2, heq⟩),
        hscreen hon heq⟩

/-! ## The exact condition -/

/-- **Selections.** After an append, a wipe or a history reply the selection is dropped or still
designates its lines and columns, with the same text, exactly under `SticksWhen`. -/
theorem sticks_iff (g : CellGrid) (sel : Selection) (hsel : g.view.selection = some sel)
    (e : ScrollbackEvent) : g.Sticks sel e ↔ g.SticksWhen sel e := by
  match e with
  | .wipe _ _ | .clear => exact iff_of_true (.inl rfl) trivial
  | .fill firstIndex lines historyTotal => exact sticks_fill_iff hsel firstIndex lines historyTotal
  | .append firstIndex lines =>
    by_cases hlines : lines = []
    · rw [hlines]
      exact iff_of_true (.inr ⟨sel, hsel, ⟨rfl, rfl⟩, ⟨rfl, rfl⟩, rfl⟩) (.inl rfl)
    by_cases hfirst : firstIndex = g.content.scrollback.historyTotal
    · rw [hfirst, sticks_append_iff hsel hlines, SticksWhen, or_iff_right hlines,
        or_iff_right (not_not.mpr rfl)]
    · refine iff_of_true (.inl ?_) (.inr (.inl hfirst))
      change (g.view.applyEffect (g.content.applyScrollbackAppend firstIndex lines).2).selection = _
      rw [(g.content.applyScrollbackAppend_gap hlines hfirst).2]
      rfl

/-- Two lines of history above a screen of one row, and a selection. -/
def twoLines (sel : Selection) : CellGrid :=
  let g := (new 1 2).apply (.scrollbackAppend 0 [[default, default], [default]])
  { g with view := g.view.setSelection (some sel) }

/-- A third line takes a selection on the screen along. -/
theorem sticks_iff_screen :
    (twoLines ⟨⟨2, 1⟩, ⟨2, 0⟩⟩).Sticks ⟨⟨2, 1⟩, ⟨2, 0⟩⟩ (.append 2 [[default]]) := by
  refine (sticks_iff (twoLines ⟨⟨2, 1⟩, ⟨2, 0⟩⟩) _ rfl _).mpr ?_
  exact .inr (.inr (.inr (.inr ⟨⟨by decide, by decide⟩, by decide⟩)))

/-- It moves one in the oldest line to the next, though no line fell off. -/
theorem not_sticks_scrollback :
    ¬(twoLines ⟨⟨0, 0⟩, ⟨0, 1⟩⟩).Sticks ⟨⟨0, 0⟩, ⟨0, 1⟩⟩ (.append 2 [[default]]) := by
  rintro (h | ⟨sel', hsome, hanchor, -⟩)
  · exact absurd h (by decide)
  · have hsel' : sel' = ⟨⟨1, 0⟩, ⟨1, 1⟩⟩ := Option.some.inj (hsome.symm.trans (by decide))
    rw [hsel'] at hanchor
    exact absurd hanchor.1 (by decide)

end CellGrid

end Kmux
