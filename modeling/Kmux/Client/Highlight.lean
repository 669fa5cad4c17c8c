import Kmux.Client.SelectionText
import Kmux.Client.Viewport
import Mathlib.Data.List.Dedup
import Mathlib.Data.List.Sort

/-!
# Highlight and copy

Rendering, hit testing, highlighting and copying each find on their own which line a visible row
shows. The first three go through the same lookup; the highlight then works with viewport columns
row by row, the copy with columns of the logical line and never looks at the viewport.

Read in order, the positions on display are strictly increasing as positions of logical lines. So
the highlighted ones of a line are one interval of its columns, `mem_selectedPositions`, and the
copied interval differs from it in trailing blanks only.
-/

namespace Kmux

namespace CellGrid

/-! ## The source's functions -/

/-- The cells on display in reading order, each with its row and column. -/
def forEachDisplayedCell (g : CellGrid) : List (ℕ × ℕ × CellState) :=
  let scrollOffset := g.view.scrollOffset
  let scrollback := g.content.scrollback
  let cells := g.content.cells
  (List.range g.rows).flatMap fun vr ↦
    let sbRow := if 0 < scrollOffset ∧ vr < scrollOffset then
        scrollbackDisplayRowAt scrollback g.cols (scrollOffset - 1 - vr)
      else none
    (List.range g.cols).map fun vc ↦
      let cell := match sbRow with
        | some (lineIdx, colStart) =>
          scrollback.lines[lineIdx]?.bind fun cells ↦ cells[colStart + vc]?
        | none =>
          if 0 < scrollOffset then
            if vr < scrollOffset then none else cells[(vr - scrollOffset) * g.cols + vc]?
          else cells[vr * g.cols + vc]?
      (vr, vc, cell.getD default)

/-- The position a visible cell stands for, clamped to the grid. -/
def visibleToAbs (g : CellGrid) (vr vc : ℕ) : GridPos :=
  let vr := min vr (g.rows - 1)
  let vc := min vc (g.cols - 1)
  let (row, baseCol) := g.absRowBaseAtVisible vr
  ⟨row, baseCol + vc⟩

/-- The selected columns of one visible row. -/
def selectionSpan (g : CellGrid) (start finish : GridPos) (vr : ℕ) :
    Option (UInt16 × UInt16 × UInt16) :=
  let (absRow, baseCol) := g.absRowBaseAtVisible vr
  if absRow < start.row ∨ finish.row < absRow then none
  else
    let rowFirst := baseCol
    let rowLast := baseCol + g.cols - 1
    let lo := if absRow = start.row then max start.col rowFirst else rowFirst
    let hi := if absRow = finish.row then min finish.col rowLast else rowLast
    if hi < lo then none
    else some (vr.toUInt16, (lo - baseCol).toUInt16, (hi - baseCol).toUInt16)

/-- The selected columns of the visible rows, ends included. -/
def visibleSelectionSpans (g : CellGrid) : List (UInt16 × UInt16 × UInt16) :=
  match g.view.selection with
  | none => []
  | some sel =>
    if sel.start = sel.finish ∨ g.cols = 0 then []
    else (List.range g.rows).filterMap (g.selectionSpan sel.start sel.finish)

/-! ## What is on display -/

/-- A visible cell is in one of the spans. -/
def Highlighted (g : CellGrid) (vr vc : ℕ) : Prop :=
  ∃ span ∈ g.visibleSelectionSpans,
    span.1.toNat = vr ∧ span.2.1.toNat ≤ vc ∧ vc ≤ span.2.2.toNat

instance (g : CellGrid) (vr vc : ℕ) : Decidable (g.Highlighted vr vc) :=
  inferInstanceAs (Decidable (∃ span ∈ g.visibleSelectionSpans, _))

/-- Two positions are the ends of a range in reading order, and this one is in it. -/
def Between (start finish pos : GridPos) : Prop := GridPos.Le start pos ∧ GridPos.Le pos finish

instance (start finish pos : GridPos) : Decidable (Between start finish pos) :=
  inferInstanceAs (Decidable (_ ∧ _))

/-- All visible cells in reading order. -/
def visibleCells (g : CellGrid) : List (ℕ × ℕ) :=
  (List.range g.rows).flatMap fun vr ↦ (List.range g.cols).map fun vc ↦ (vr, vc)

/-- A position is on display. -/
def Shown (g : CellGrid) (pos : GridPos) : Prop :=
  ∃ vr < g.rows, ∃ vc < g.cols, g.visibleToAbs vr vc = pos

/-- Sizes are 16-bit numbers in the protocol. -/
structure Fits (g : CellGrid) : Prop where
  rows : g.rows ≤ 2 ^ 16
  cols : g.cols ≤ 2 ^ 16

/-- Every event keeps such a size: snapshots and resizes bring 16-bit numbers, and nothing else
changes it. -/
theorem Fits.step {g : CellGrid} (h : g.Fits) (e : GridEvent) : (g.step e).Fits := by
  match e with
  | .op (.snapshot s) =>
    have hsize := g.content.sameContent_applySnapshot s
    exact ⟨hsize.rows.trans_le s.rows.toNat_lt.le, hsize.cols.trans_le s.cols.toNat_lt.le⟩
  | .op (.resize rows cols) => exact ⟨rows.toNat_lt.le, cols.toNat_lt.le⟩
  | .op (.diff _) | .op (.cursor _ _) | .op .clear | .op (.scrollbackAppend _ _)
  | .op (.historyLines _ _ _) | .scrollUp _ | .scrollDown _ | .scrollToBottom
  | .setSelection _ => exact ⟨h.rows, h.cols⟩

theorem Shown.cols_pos {g : CellGrid} {pos : GridPos} (h : g.Shown pos) : 0 < g.cols := by
  obtain ⟨vr, -, vc, hvc, -⟩ := h
  exact Nat.zero_lt_of_lt hvc

theorem mem_visibleCells {g : CellGrid} {vr vc : ℕ} :
    (vr, vc) ∈ g.visibleCells ↔ vr < g.rows ∧ vc < g.cols := by
  simp [visibleCells]

theorem visibleToAbs_eq {g : CellGrid} {vr vc : ℕ} (hvr : vr < g.rows) (hvc : vc < g.cols) :
    g.visibleToAbs vr vc =
      ⟨(g.absRowBaseAtVisible vr).1, (g.absRowBaseAtVisible vr).2 + vc⟩ := by
  rw [visibleToAbs, Nat.min_eq_left (by omega), Nat.min_eq_left (by omega)]

/-- The row a visible row shows, while it shows scrollback and otherwise. -/
theorem absRowBase_cases {g : CellGrid} (hsynced : g.Synced) (hle : g.OffsetLe) (vr : ℕ) :
    (vr < g.view.scrollOffset ∧ ∃ p ∈ wrappedRows g.cols g.content.scrollback.lines,
      scrollbackDisplayRowAt g.content.scrollback g.cols (g.view.scrollOffset - 1 - vr) = some p ∧
        g.absRowBaseAtVisible vr = p) ∨
    (g.view.scrollOffset ≤ vr ∧ g.absRowBaseAtVisible vr =
      (g.content.scrollback.lines.length + (vr - g.view.scrollOffset), 0)) := by
  rw [OffsetLe, GridContent.totalScrollbackDisplayRows, ← hsynced.cols] at hle
  rw [absRowBaseAtVisible]
  dsimp only
  obtain hvr | hvr := lt_or_ge vr g.view.scrollOffset
  · refine .inl ⟨hvr, ?_⟩
    rw [if_pos ⟨by omega, hvr⟩]
    cases hrow : scrollbackDisplayRowAt g.content.scrollback g.cols
        (g.view.scrollOffset - 1 - vr) with
    | none =>
      have htotal := (scrollbackDisplayRowAt_eq_none_iff _ _ _).mp hrow
      omega
    | some p =>
      refine ⟨p, ?_, rfl, rfl⟩
      rw [scrollbackDisplayRowAt_eq] at hrow
      exact List.mem_reverse.mp (List.mem_of_getElem? hrow)
  · refine .inr ⟨hvr, ?_⟩
    rw [if_neg fun h ↦ absurd h.2 (Nat.not_lt.mpr hvr)]

/-- What is shown at a cell is what is at its position. -/
theorem forEachDisplayedCell_eq {g : CellGrid} (hsynced : g.Synced) (hle : g.OffsetLe) :
    g.forEachDisplayedCell = g.visibleCells.map fun p ↦
      (p.1, p.2, (g.content.cellAt (g.visibleToAbs p.1 p.2)).getD default) := by
  rw [forEachDisplayedCell, visibleCells, List.map_flatMap]
  refine List.flatMap_congr fun vr hvr ↦ ?_
  rw [List.map_map]
  refine List.map_congr_left fun vc hvc ↦ ?_
  have hvr := List.mem_range.mp hvr
  have hvc := List.mem_range.mp hvc
  simp only [Function.comp_apply, visibleToAbs_eq hvr hvc]
  congr 3
  rw [GridContent.cellAt]
  obtain ⟨hlt, p, hp, hlookup, hrow⟩ | ⟨hge, hrow⟩ := absRowBase_cases hsynced hle vr
  · have hline : p.1 < g.content.scrollback.lines.length := fst_lt_of_mem_wrappedRows hp
    have hscrolled : 0 < g.view.scrollOffset ∧ vr < g.view.scrollOffset := ⟨by omega, hlt⟩
    simp only [if_pos hscrolled, hlookup, hrow, if_pos hline]
  · have hscrolled : ¬(0 < g.view.scrollOffset ∧ vr < g.view.scrollOffset) := by omega
    have hline : ¬g.content.scrollback.lines.length + (vr - g.view.scrollOffset) <
        g.content.scrollback.lines.length := by omega
    have hin : vr - g.view.scrollOffset < g.content.rows ∧ vc < g.content.cols := by
      rw [← hsynced.rows, ← hsynced.cols]
      omega
    simp only [if_neg hscrolled, hrow, if_neg hline, Nat.zero_add, Nat.add_sub_cancel_left,
      if_pos hin, hsynced.cols, if_neg (Nat.not_lt.mpr hge)]
    split_ifs with hzero
    · rfl
    · rw [Nat.eq_zero_of_not_pos hzero, Nat.sub_zero]

/-! ## Highlight and hit test -/

/-- Without a selection of two cells at least nothing is highlighted. -/
theorem not_highlighted_single {g : CellGrid} {sel : Selection}
    (hsel : g.view.selection = some sel) (hsingle : sel.start = sel.finish) :
    g.visibleSelectionSpans = [] := by
  rw [visibleSelectionSpans, hsel]
  exact if_pos (.inl hsingle)

/-- A visible row's span holds the columns whose positions are selected. -/
theorem mem_selectionSpan_iff {g : CellGrid} (hfits : g.Fits) {start finish : GridPos} {vr vc : ℕ}
    (hvr : vr < g.rows) (hvc : vc < g.cols) :
    (∃ span, g.selectionSpan start finish vr = some span ∧
      span.2.1.toNat ≤ vc ∧ vc ≤ span.2.2.toNat) ↔
      Between start finish (g.visibleToAbs vr vc) := by
  have hcols := hfits.cols
  rw [visibleToAbs_eq hvr hvc, selectionSpan, Between, GridPos.Le, GridPos.Le]
  dsimp only
  split_ifs <;> simp [UInt16.toNat_ofNat'] <;> omega

theorem selectionSpan_row {g : CellGrid} {start finish : GridPos} {vr : ℕ}
    {span : UInt16 × UInt16 × UInt16} (h : g.selectionSpan start finish vr = some span) :
    span.1 = vr.toUInt16 := by
  rw [selectionSpan] at h
  dsimp only at h
  split_ifs at h <;> rw [← Option.some.inj h]

/-- **Highlight.** A visible cell is highlighted exactly if its position is in the selection. -/
theorem highlighted_iff {g : CellGrid} (hfits : g.Fits) {sel : Selection}
    (hsel : g.view.selection = some sel) (hne : sel.start ≠ sel.finish) {vr vc : ℕ}
    (hvr : vr < g.rows) (hvc : vc < g.cols) :
    g.Highlighted vr vc ↔ Between sel.start sel.finish (g.visibleToAbs vr vc) := by
  have hrows := hfits.rows
  have hcols : ¬(sel.start = sel.finish ∨ g.cols = 0) := by
    rintro (h | h)
    · exact hne h
    · omega
  rw [← mem_selectionSpan_iff hfits hvr hvc, Highlighted, visibleSelectionSpans, hsel]
  dsimp only
  rw [if_neg hcols]
  constructor
  · rintro ⟨span, hmem, hrow, hspan⟩
    obtain ⟨vr', hvr', hspan'⟩ := List.mem_filterMap.mp hmem
    have hvr' := List.mem_range.mp hvr'
    -- the row is one of the grid, so its number survives the cast
    have heq : vr' = vr := by
      rw [selectionSpan_row hspan', UInt16.toNat_ofNat'] at hrow
      rwa [Nat.mod_eq_of_lt (by omega)] at hrow
    exact ⟨span, heq ▸ hspan', hspan⟩
  · rintro ⟨span, hspan, hcol⟩
    refine ⟨span, List.mem_filterMap.mpr ⟨vr, List.mem_range.mpr hvr, hspan⟩, ?_, hcol⟩
    rw [selectionSpan_row hspan, UInt16.toNat_ofNat']
    exact Nat.mod_eq_of_lt (by omega)

/-- Start and finish are the two ends of a selection, the earlier one first. -/
theorem ends_of_selection {P : GridPos → Prop} {sel : Selection} (hanchor : P sel.anchor)
    (hend : P sel.endPos) : P sel.start ∧ P sel.finish ∧ GridPos.Le sel.start sel.finish := by
  rw [Selection.start, Selection.finish, GridPos.min, GridPos.max]
  by_cases hle : GridPos.Le sel.anchor sel.endPos
  · rw [if_pos hle]
    by_cases hge : GridPos.Le sel.endPos sel.anchor
    · rw [if_pos hge]
      exact ⟨hanchor, hanchor, .inr ⟨rfl, le_rfl⟩⟩
    · rw [if_neg hge]
      exact ⟨hanchor, hend, hle⟩
  · have hge : GridPos.Le sel.endPos sel.anchor := by
      simp only [GridPos.Le] at hle ⊢
      omega
    rw [if_neg hle, if_pos hge]
    exact ⟨hend, hanchor, hge⟩

/-! ## Positions on display -/

/-- Strictly before in reading order. -/
def Before (a b : GridPos) : Prop := a.row < b.row ∨ a.row = b.row ∧ a.col < b.col

instance : Std.Irrefl Before where
  irrefl a := by simp [Before]

instance : Std.Antisymm Before where
  antisymm a b hab hba := by
    simp only [Before] at hab hba
    omega

/-- A display row begins at a multiple of the width. -/
theorem dvd_of_mem_displayRows {g : GridContent} {p : ℕ × ℕ} (hp : p ∈ displayRows g) :
    g.cols ∣ p.2 := by
  obtain hp | hp := List.mem_append.mp hp
  · obtain ⟨line, -, k, -, hcol⟩ := mem_wrappedRows.mp hp
    exact hcol ▸ Nat.dvd_mul_left _ _
  · obtain ⟨k, -, rfl⟩ := List.mem_map.mp hp
    exact Nat.dvd_zero _

/-- A display row of the same line that begins later begins past the end of the earlier one. -/
theorem add_cols_le {g : GridContent} {p q : ℕ × ℕ} (hp : p ∈ displayRows g)
    (hq : q ∈ displayRows g) (hlt : p.2 < q.2) : p.2 + g.cols ≤ q.2 := by
  have hdvd : g.cols ∣ q.2 - p.2 :=
    Nat.dvd_sub (dvd_of_mem_displayRows hq) (dvd_of_mem_displayRows hp)
  have := Nat.le_of_dvd (Nat.sub_pos_of_lt hlt) hdvd
  omega

/-- A display row shows a position. -/
def Covers (g : GridContent) (p : ℕ × ℕ) (pos : GridPos) : Prop :=
  p.1 = pos.row ∧ p.2 ≤ pos.col ∧ pos.col < p.2 + g.cols

theorem before_of_rowBefore {g : GridContent} {p q : ℕ × ℕ} (hp : p ∈ displayRows g)
    (hq : q ∈ displayRows g) (hbefore : RowBefore p q) {a b : GridPos} (ha : Covers g p a)
    (hb : Covers g q b) : Before a b := by
  obtain ⟨harow, -, hacol⟩ := ha
  obtain ⟨hbrow, hbcol, -⟩ := hb
  obtain hlt | ⟨heq, hlt⟩ := hbefore
  · exact .inl (by omega)
  · have := add_cols_le hp hq hlt
    exact .inr ⟨by omega, by omega⟩

section Shown

variable {g : CellGrid} (hsynced : g.Synced) (hle : g.OffsetLe)
include hsynced

theorem covers_visible {vr vc : ℕ} (hvr : vr < g.rows) (hvc : vc < g.cols) :
    Covers g.content (g.absRowBaseAtVisible vr) (g.visibleToAbs vr vc) := by
  rw [visibleToAbs_eq hvr hvc, Covers, ← hsynced.cols]
  exact ⟨rfl, Nat.le_add_right _ _, Nat.add_lt_add_left hvc _⟩

include hle

theorem absRowBase_mem {vr : ℕ} (hvr : vr < g.rows) :
    g.absRowBaseAtVisible vr ∈ displayRows g.content :=
  List.mem_of_getElem? ((viewportInside_of_offset_le hsynced hle).window vr hvr)

/-- The positions on display are strictly increasing. -/
theorem pairwise_visible :
    (g.visibleCells.map fun p ↦ g.visibleToAbs p.1 p.2).Pairwise Before := by
  rw [visibleCells, List.map_flatMap, List.pairwise_flatMap]
  constructor
  · intro vr hvr
    rw [List.map_map, List.pairwise_map]
    refine List.Pairwise.imp_of_mem ?_ (List.pairwise_lt_range (n := g.cols))
    intro vc vc' hvc hvc' hlt
    rw [Function.comp_apply, Function.comp_apply,
      visibleToAbs_eq (List.mem_range.mp hvr) (List.mem_range.mp hvc),
      visibleToAbs_eq (List.mem_range.mp hvr) (List.mem_range.mp hvc')]
    exact .inr ⟨rfl, Nat.add_lt_add_left hlt _⟩
  · refine List.Pairwise.imp_of_mem ?_ (List.pairwise_lt_range (n := g.rows))
    intro vr vr' hvr hvr' hlt a ha b hb
    rw [List.map_map] at ha hb
    obtain ⟨vc, hvc, rfl⟩ := List.mem_map.mp ha
    obtain ⟨vc', hvc', rfl⟩ := List.mem_map.mp hb
    have hvr := List.mem_range.mp hvr
    have hvr' := List.mem_range.mp hvr'
    exact before_of_rowBefore (absRowBase_mem hsynced hle hvr) (absRowBase_mem hsynced hle hvr')
      ((viewportInside_of_offset_le hsynced hle).increasing vr vr' hlt hvr')
      (covers_visible hsynced hvr (List.mem_range.mp hvc))
      (covers_visible hsynced hvr' (List.mem_range.mp hvc'))

/-- What lies between two positions on display, and on some display row, is on display. -/
theorem shown_of_between {a b pos : GridPos} (ha : g.Shown a) (hb : g.Shown b)
    (hbetween : Between a b pos) {p : ℕ × ℕ} (hp : p ∈ displayRows g.content)
    (hcovers : Covers g.content p pos) : g.Shown pos := by
  obtain ⟨first, hfirst, vca, hvca, rfl⟩ := ha
  obtain ⟨last, hlast, vcb, hvcb, rfl⟩ := hb
  obtain ⟨hlo, hhi⟩ := hbetween
  have hinside := viewportInside_of_offset_le hsynced hle
  have hsorted := List.pairwise_iff_getElem.mp (pairwise_displayRows g.content)
  obtain ⟨j, hj, rfl⟩ := List.getElem_of_mem hp
  obtain ⟨hi, hfirstRow⟩ := List.getElem?_eq_some_iff.mp (hinside.window first hfirst)
  obtain ⟨hk, hlastRow⟩ := List.getElem?_eq_some_iff.mp (hinside.window last hlast)
  generalize hbase : g.content.totalScrollbackDisplayRows - g.view.scrollOffset = base at *
  have hge : base + first ≤ j := by
    by_contra hlt
    have hbefore := before_of_rowBefore hp (absRowBase_mem hsynced hle hfirst)
      (hfirstRow ▸ hsorted j (base + first) hj hi (by omega)) hcovers
      (covers_visible hsynced hfirst hvca)
    simp only [Before, GridPos.Le] at hbefore hlo
    omega
  have hle' : j ≤ base + last := by
    by_contra hlt
    have hbefore := before_of_rowBefore (absRowBase_mem hsynced hle hlast) hp
      (hlastRow ▸ hsorted (base + last) j hk hj (by omega))
      (covers_visible hsynced hlast hvcb) hcovers
    simp only [Before, GridPos.Le] at hbefore hhi
    omega
  have hvr : j - base < g.rows := by omega
  have hrow : g.absRowBaseAtVisible (j - base) = (displayRows g.content)[j] := by
    have hwindow := hinside.window (j - base) hvr
    rw [hbase, Nat.add_sub_cancel' (by omega), List.getElem?_eq_getElem hj] at hwindow
    exact (Option.some.inj hwindow).symm
  obtain ⟨hposrow, hposlo, hposhi⟩ := hcovers
  rw [← hsynced.cols] at hposhi
  refine ⟨j - base, hvr, pos.col - ((displayRows g.content)[j]).2, by omega, ?_⟩
  rw [visibleToAbs_eq hvr (by omega), hrow, hposrow, Nat.add_sub_cancel' hposlo]

end Shown

/-! ## The columns of a line -/

/-- Number of columns that the display rows of a line have between them. -/
def shownWidth (g : GridContent) (row : ℕ) : ℕ :=
  if row < g.scrollback.lines.length then
    g.scrollback.lines[row]?.elim 0 fun line ↦ displayRowsForLine line g.cols * g.cols
  else g.cols

/-- Number of columns up to the last that is not blank or missing. -/
def solidWidth (g : GridContent) (row : ℕ) : ℕ :=
  if row < g.scrollback.lines.length then g.scrollback.lines[row]?.elim 0 effectiveLineLen
  else min g.cols (g.cells.length - (row - g.scrollback.lines.length) * g.cols)

theorem shownWidth_pos {g : GridContent} (hcols : 0 < g.cols) (row : ℕ) :
    0 < shownWidth g row := by
  rw [shownWidth]
  split_ifs with hlt
  · rw [List.getElem?_eq_getElem hlt, Option.elim_some]
    exact Nat.mul_pos (displayRowsForLine_pos _ _) hcols
  · exact hcols

theorem exists_covers_iff {g : GridContent} {pos : GridPos} :
    (∃ p ∈ displayRows g, Covers g p pos) ↔
      pos.row < g.scrollback.lines.length + g.rows ∧ pos.col < shownWidth g pos.row := by
  rw [shownWidth]
  constructor
  · rintro ⟨p, hp, hrow, hlo, hhi⟩
    obtain hp | hp := List.mem_append.mp hp
    · obtain ⟨line, hline, k, hk, hcol⟩ := mem_wrappedRows.mp hp
      rw [hrow] at hline
      have hlt : pos.row < g.scrollback.lines.length := (List.getElem?_eq_some_iff.mp hline).1
      have hnext : (k + 1) * g.cols ≤ displayRowsForLine line g.cols * g.cols :=
        Nat.mul_le_mul_right _ hk
      rw [Nat.succ_mul] at hnext
      rw [if_pos hlt, hline, Option.elim_some]
      omega
    · obtain ⟨k, hk, rfl⟩ := List.mem_map.mp hp
      have hk := List.mem_range.mp hk
      dsimp only at hrow hlo hhi
      rw [if_neg (by omega)]
      omega
  · rintro ⟨hrow, hcol⟩
    by_cases hlt : pos.row < g.scrollback.lines.length
    · rw [if_pos hlt, List.getElem?_eq_getElem hlt, Option.elim_some] at hcol
      have hcols : 0 < g.cols := Nat.pos_of_ne_zero fun h ↦ by simp [h] at hcol
      have hdiv := Nat.div_add_mod pos.col g.cols
      have hmod := Nat.mod_lt pos.col hcols
      rw [Nat.mul_comm] at hdiv
      refine ⟨(pos.row, pos.col / g.cols * g.cols), List.mem_append_left _ ?_, rfl, ?_, ?_⟩
      · exact mem_wrappedRows.mpr ⟨_, List.getElem?_eq_getElem hlt, _,
          (Nat.div_lt_iff_lt_mul hcols).mpr hcol, rfl⟩
      · dsimp only
        omega
      · dsimp only
        omega
    · rw [if_neg hlt] at hcol
      refine ⟨(pos.row, 0), List.mem_append_right _ ?_, rfl, Nat.zero_le _, by simpa using hcol⟩
      refine List.mem_map.mpr ⟨pos.row - g.scrollback.lines.length, ?_, ?_⟩
      · exact List.mem_range.mpr (by omega)
      · rw [Nat.add_sub_cancel' (Nat.not_lt.mp hlt)]

theorem isSome_cellAt {g : GridContent} {row col : ℕ}
    (hrow : row < g.scrollback.lines.length + g.rows) (hcol : col < solidWidth g row) :
    (g.cellAt ⟨row, col⟩).isSome := by
  rw [solidWidth] at hcol
  rw [GridContent.cellAt]
  dsimp only
  by_cases hlt : row < g.scrollback.lines.length
  · rw [if_pos hlt, List.getElem?_eq_getElem hlt, Option.elim_some] at hcol
    rw [if_pos hlt, List.getElem?_eq_getElem hlt, Option.bind_some,
      List.getElem?_eq_getElem (hcol.trans_le (effectiveLineLen_le_length _))]
    rfl
  · rw [if_neg hlt] at hcol
    rw [if_neg hlt, if_pos (by omega), List.getElem?_eq_getElem (by omega)]
    rfl

theorem blank_of_solidWidth_le {g : GridContent} {row col : ℕ} (hcol : solidWidth g row ≤ col)
    {cell : CellState} (hcell : g.cellAt ⟨row, col⟩ = some cell) : cell.trailingBlank = true := by
  rw [solidWidth] at hcol
  rw [GridContent.cellAt] at hcell
  dsimp only at hcell
  by_cases hlt : row < g.scrollback.lines.length
  · rw [if_pos hlt, List.getElem?_eq_getElem hlt, Option.elim_some] at hcol
    rw [if_pos hlt, List.getElem?_eq_getElem hlt, Option.bind_some] at hcell
    refine trailingBlank_of_mem_drop_effectiveLineLen g.scrollback.lines[row] cell ?_
    refine List.mem_of_getElem? (i := col - effectiveLineLen g.scrollback.lines[row]) ?_
    rwa [List.getElem?_drop, Nat.add_sub_cancel' hcol]
  · rw [if_neg hlt] at hcol hcell
    split_ifs at hcell with hin
    have := (List.getElem?_eq_some_iff.mp hcell).1
    omega

/-! ## The text of a line -/

/-- The character of a cell that is not a spacer. -/
def cellChar (cell : CellState) : Option Char :=
  if cell.attrs.contains CellAttrs.wideCharSpacer then none else some cell.c

theorem isWhitespace_of_trailingBlank {cell : CellState} (hblank : cell.trailingBlank = true)
    {c : Char} (hc : cellChar cell = some c) : isWhitespace c = true := by
  rw [CellState.trailingBlank, Bool.and_eq_true, beq_iff_eq] at hblank
  rw [cellChar] at hc
  split_ifs at hc
  rw [← Option.some.inj hc, hblank.1]
  decide

/-- What stands beyond a column does not matter once the end is trimmed, if it is all white. -/
theorem rdropWhile_filterMap_range' {f : ℕ → Option Char} {stop : ℕ}
    (hwhite : ∀ col, stop ≤ col → ∀ c, f col = some c → isWhitespace c = true) (first n : ℕ) :
    ((List.range' first n).filterMap f).rdropWhile isWhitespace =
      ((List.range' first (min n (stop - first))).filterMap f).rdropWhile isWhitespace := by
  have hsplit : List.range' first n = List.range' first (min n (stop - first)) ++
      List.range' (first + min n (stop - first)) (n - min n (stop - first)) := by
    rw [List.range'_append_1, Nat.add_sub_cancel' (Nat.min_le_left _ _)]
  rw [hsplit, List.filterMap_append, List.rdropWhile, List.reverse_append,
    List.dropWhile_append_of_pos, ← List.rdropWhile]
  intro c hc
  obtain ⟨col, hcol, hfc⟩ := List.mem_filterMap.mp (List.mem_reverse.mp hc)
  have hcol := List.mem_range'_1.mp hcol
  exact hwhite col (by omega) c hfc

/-- Lines with newlines between them, as they are pushed one after another. -/
theorem intercalate_map_range' (f : ℕ → List Char) (first n : ℕ) :
    List.intercalate ['\n'] ((List.range' first n).map f) =
      (List.range' first n).flatMap fun row ↦ (if first < row then ['\n'] else []) ++ f row := by
  have hcons : ∀ (line : List Char) (lines : List (List Char)),
      List.intercalate ['\n'] (line :: lines) =
        line ++ lines.flatMap fun line ↦ ['\n'] ++ line := by
    intro line lines
    induction lines generalizing line with
    | nil => simp [List.intercalate]
    | cons next lines ih =>
      have hnext : List.intercalate ['\n'] (line :: next :: lines) =
          line ++ (['\n'] ++ List.intercalate ['\n'] (next :: lines)) := by
        simp [List.intercalate]
      rw [hnext, ih, List.flatMap_cons, List.append_assoc]
  cases n with
  | zero => rfl
  | succ n =>
    rw [List.range'_succ, List.map_cons, hcons, List.flatMap_cons, if_neg (lt_irrefl _),
      List.nil_append, List.flatMap_map]
    congr 1
    refine List.flatMap_congr fun row hrow ↦ ?_
    rw [if_pos (Nat.lt_of_succ_le (List.mem_range'_1.mp hrow).1)]

/-- The columns on display and the columns copied may end apart where all is blank. -/
theorem rowText_eq {g : CellGrid} {row first stop last : ℕ}
    (hrow : row < g.content.scrollback.lines.length + g.content.rows)
    (hends : stop = last + 1 ∨
      solidWidth g.content row ≤ stop ∧ solidWidth g.content row ≤ last + 1) :
    (((List.range' first (stop - first)).filterMap fun col ↦
        cellChar ((g.content.cellAt ⟨row, col⟩).getD default)).rdropWhile isWhitespace) =
      g.rowText row first last := by
  have hshown : ∀ col, solidWidth g.content row ≤ col → ∀ c,
      cellChar ((g.content.cellAt ⟨row, col⟩).getD default) = some c →
      isWhitespace c = true := by
    intro col hcol c hc
    cases hcell : g.content.cellAt ⟨row, col⟩ with
    | none =>
      have hblank : (default : CellState).trailingBlank = true := by decide
      rw [hcell] at hc
      exact isWhitespace_of_trailingBlank hblank hc
    | some cell =>
      rw [hcell] at hc
      exact isWhitespace_of_trailingBlank (blank_of_solidWidth_le hcol hcell) hc
  have hcopied : ∀ col, solidWidth g.content row ≤ col → ∀ c,
      ((g.content.cellAt ⟨row, col⟩).bind fun cell ↦
        if cell.attrs.contains CellAttrs.wideCharSpacer then none else some cell.c) = some c →
      isWhitespace c = true := by
    intro col hcol c hc
    obtain ⟨cell, hcell, hc⟩ := Option.bind_eq_some_iff.mp hc
    exact isWhitespace_of_trailingBlank (blank_of_solidWidth_le hcol hcell) hc
  rw [CellGrid.rowText, rdropWhile_filterMap_range' hshown, rdropWhile_filterMap_range' hcopied,
    show min (stop - first) (solidWidth g.content row - first) =
      min (last + 1 - first) (solidWidth g.content row - first) by omega]
  refine congrArg (List.rdropWhile isWhitespace) (List.filterMap_congr fun col hcol ↦ ?_)
  have hcol := List.mem_range'_1.mp hcol
  obtain ⟨cell, hcell⟩ := Option.isSome_iff_exists.mp (isSome_cellAt hrow
    (show col < solidWidth g.content row by omega))
  rw [hcell]
  rfl

/-! ## Highlight and copy -/

/-- The highlighted cells in reading order, each with the row of its logical line. -/
def highlightedCells (g : CellGrid) : List (ℕ × CellState) :=
  (g.forEachDisplayedCell.filter fun shown ↦ g.Highlighted shown.1 shown.2.1).map fun shown ↦
    ((g.visibleToAbs shown.1 shown.2.1).row, shown.2.2)

/-- The characters of the highlighted cells, a text line a logical line. -/
def highlightedText (g : CellGrid) : List Char :=
  let rows := (g.highlightedCells.map Prod.fst).dedup
  List.intercalate ['\n'] <| rows.map fun row ↦
    (((g.highlightedCells.filter fun cell ↦ cell.1 = row).map Prod.snd).filterMap
      cellChar).rdropWhile isWhitespace

/-- The positions of the highlighted cells. -/
def selectedPositions (g : CellGrid) (sel : Selection) : List GridPos :=
  (g.visibleCells.map fun p ↦ g.visibleToAbs p.1 p.2).filter fun pos ↦
    Between sel.start sel.finish pos

/-- The first selected column of a line. -/
def firstCol (sel : Selection) (row : ℕ) : ℕ := if row = sel.start.row then sel.start.col else 0

/-- The column after the last selected one of a line that is on display. -/
def stopCol (g : CellGrid) (sel : Selection) (row : ℕ) : ℕ :=
  if row = sel.finish.row then sel.finish.col + 1 else shownWidth g.content row

section Copied

variable {g : CellGrid} (hsynced : g.Synced) (hle : g.OffsetLe) {sel : Selection}
include hsynced hle

theorem pairwise_selectedPositions : (g.selectedPositions sel).Pairwise Before :=
  (pairwise_visible hsynced hle).filter _

theorem highlightedCells_eq (hfits : g.Fits) (hsel : g.view.selection = some sel)
    (hne : sel.start ≠ sel.finish) :
    g.highlightedCells = (g.selectedPositions sel).map fun pos ↦
      (pos.row, (g.content.cellAt pos).getD default) := by
  rw [highlightedCells, forEachDisplayedCell_eq hsynced hle, selectedPositions, List.filter_map,
    List.filter_map, List.map_map, List.map_map]
  refine congrArg _ (List.filter_congr fun p hp ↦ ?_)
  obtain ⟨hvr, hvc⟩ := mem_visibleCells.mp hp
  exact decide_eq_decide.mpr (highlighted_iff hfits hsel hne hvr hvc)

theorem shown_iff_covers {pos : GridPos} (h : g.Shown pos) :
    ∃ p ∈ displayRows g.content, Covers g.content p pos := by
  obtain ⟨vr, hvr, vc, hvc, rfl⟩ := h
  exact ⟨_, absRowBase_mem hsynced hle hvr, covers_visible hsynced hvr hvc⟩

/-- The highlighted positions of a line are an interval of its columns. -/
theorem mem_selectedPositions (hstart : g.Shown sel.start) (hfinish : g.Shown sel.finish)
    {pos : GridPos} :
    pos ∈ g.selectedPositions sel ↔ sel.start.row ≤ pos.row ∧ pos.row ≤ sel.finish.row ∧
      firstCol sel pos.row ≤ pos.col ∧ pos.col < g.stopCol sel pos.row := by
  obtain ⟨-, hstartCol⟩ := exists_covers_iff.mp (shown_iff_covers hsynced hle hstart)
  obtain ⟨hfinishRow, hfinishCol⟩ := exists_covers_iff.mp (shown_iff_covers hsynced hle hfinish)
  rw [selectedPositions, List.mem_filter, decide_eq_true_iff, firstCol, stopCol]
  constructor
  · rintro ⟨hmem, hlo, hhi⟩
    obtain ⟨⟨vr, vc⟩, hp, rfl⟩ := List.mem_map.mp hmem
    obtain ⟨hvr, hvc⟩ := mem_visibleCells.mp hp
    obtain ⟨-, hcol⟩ := exists_covers_iff.mp
      (shown_iff_covers hsynced hle ⟨vr, hvr, vc, hvc, rfl⟩)
    dsimp only at hlo hhi ⊢
    simp only [GridPos.Le] at hlo hhi
    split_ifs <;> omega
  · rintro ⟨hlo, hhi, hfirst, hstop⟩
    have hbetween : Between sel.start sel.finish pos := by
      simp only [Between, GridPos.Le]
      split_ifs at hfirst hstop <;> omega
    have hcol : pos.col < shownWidth g.content pos.row := by
      split_ifs at hstop with hlast
      · rw [hlast]
        omega
      · exact hstop
    obtain ⟨p, hp, hcovers⟩ := exists_covers_iff.mpr ⟨by omega, hcol⟩
    refine ⟨?_, hbetween⟩
    obtain ⟨vr, hvr, vc, hvc, rfl⟩ :=
      shown_of_between hsynced hle hstart hfinish hbetween hp hcovers
    exact List.mem_map.mpr ⟨(vr, vc), mem_visibleCells.mpr ⟨hvr, hvc⟩, rfl⟩

/-- The highlighted positions of one line. -/
theorem filter_selectedPositions (hstart : g.Shown sel.start) (hfinish : g.Shown sel.finish)
    {row : ℕ} (hlo : sel.start.row ≤ row) (hhi : row ≤ sel.finish.row) :
    ((g.selectedPositions sel).filter fun pos ↦ pos.row = row) =
      (List.range' (firstCol sel row) (g.stopCol sel row - firstCol sel row)).map (⟨row, ·⟩) := by
  refine ((pairwise_selectedPositions hsynced hle).filter _).eq_of_mem_iff ?_ fun pos ↦ ?_
  · rw [List.pairwise_map]
    exact (List.pairwise_lt_range' ..).imp fun hlt ↦ .inr ⟨rfl, hlt⟩
  · rw [List.mem_filter, decide_eq_true_iff, mem_selectedPositions hsynced hle hstart hfinish,
      List.mem_map]
    constructor
    · rintro ⟨⟨-, -, hfirst, hstop⟩, rfl⟩
      exact ⟨pos.col, List.mem_range'_1.mpr ⟨hfirst, by omega⟩, rfl⟩
    · rintro ⟨col, hcol, rfl⟩
      obtain ⟨hfirst, hstop⟩ := List.mem_range'_1.mp hcol
      have hstop : col < g.stopCol sel row := by omega
      exact ⟨⟨hlo, hhi, hfirst, hstop⟩, rfl⟩

/-- The lines with a highlighted position are those of the selection. -/
theorem dedup_selectedPositions (hstart : g.Shown sel.start) (hfinish : g.Shown sel.finish)
    (hsorted : GridPos.Le sel.start sel.finish) :
    ((g.selectedPositions sel).map GridPos.row).dedup =
      List.range' sel.start.row (sel.finish.row + 1 - sel.start.row) := by
  have hrows : ((g.selectedPositions sel).map GridPos.row).Pairwise (· ≤ ·) := by
    rw [List.pairwise_map]
    exact (pairwise_selectedPositions hsynced hle).imp fun h ↦ h.elim (·.le) (·.1.le)
  have hdedup : (((g.selectedPositions sel).map GridPos.row).dedup).Pairwise (· < ·) :=
    (hrows.sublist (List.dedup_sublist _)).imp₂ (fun _ _ ↦ lt_of_le_of_ne) (List.nodup_dedup _)
  refine hdedup.eq_of_mem_iff (List.pairwise_lt_range' ..) fun row ↦ ?_
  obtain ⟨-, hstartCol⟩ := exists_covers_iff.mp (shown_iff_covers hsynced hle hstart)
  obtain ⟨hfinishRow, hfinishCol⟩ := exists_covers_iff.mp (shown_iff_covers hsynced hle hfinish)
  rw [List.mem_dedup, List.mem_map, List.mem_range'_1]
  constructor
  · rintro ⟨pos, hpos, rfl⟩
    have hpos := (mem_selectedPositions hsynced hle hstart hfinish).mp hpos
    omega
  · rintro ⟨hlo, hhi⟩
    have hcols : 0 < g.content.cols := hsynced.cols ▸ hstart.cols_pos
    have hwidth : 0 < shownWidth g.content row := shownWidth_pos hcols row
    have hcol : firstCol sel row < g.stopCol sel row := by
      simp only [GridPos.Le] at hsorted
      rw [firstCol, stopCol]
      split_ifs with hfirst hlast
      · omega
      · rwa [hfirst]
      · omega
      · exact hwidth
    have hhi : row ≤ sel.finish.row := by omega
    exact ⟨⟨row, firstCol sel row⟩,
      (mem_selectedPositions hsynced hle hstart hfinish).mpr ⟨hlo, hhi, le_rfl, hcol⟩, rfl⟩

/-- The highlighted cells of one line have the text that is copied of it. -/
theorem rowText_highlighted (hfits : g.Fits) (hsel : g.view.selection = some sel)
    (hne : sel.start ≠ sel.finish) (hstart : g.Shown sel.start) (hfinish : g.Shown sel.finish)
    {row : ℕ} (hlo : sel.start.row ≤ row) (hhi : row ≤ sel.finish.row) :
    ((((g.highlightedCells.filter fun cell ↦ cell.1 = row).map Prod.snd).filterMap
      cellChar).rdropWhile isWhitespace) =
      g.rowText row (firstCol sel row)
        (if row = sel.finish.row then sel.finish.col else g.lastCol row) := by
  obtain ⟨hfinishRow, -⟩ := exists_covers_iff.mp (shown_iff_covers hsynced hle hfinish)
  have hcols : 0 < g.content.cols := hsynced.cols ▸ hstart.cols_pos
  rw [highlightedCells_eq hsynced hle hfits hsel hne, List.filter_map, List.map_map,
    List.filterMap_map, show ((fun cell : ℕ × CellState ↦ decide (cell.1 = row)) ∘ fun pos ↦
      (pos.row, (g.content.cellAt pos).getD default)) = fun pos : GridPos ↦ pos.row = row from rfl,
    filter_selectedPositions hsynced hle hstart hfinish hlo hhi, List.filterMap_map]
  refine rowText_eq (by omega) ?_
  rw [stopCol]
  split_ifs with hlast
  · exact .inl rfl
  · -- both end past the last cell that is not blank
    refine .inr ?_
    rw [solidWidth, shownWidth, lastCol]
    split_ifs with hlt
    · rw [List.getElem?_eq_getElem hlt, Option.elim_some, Option.elim_some, Option.elim_some]
      exact ⟨effectiveLineLen_le_mul hcols _, by omega⟩
    · rw [hsynced.cols]
      omega

theorem highlightedText_eq (hfits : g.Fits) (hsel : g.view.selection = some sel)
    (hne : sel.start ≠ sel.finish) (hsorted : GridPos.Le sel.start sel.finish)
    (hstart : g.Shown sel.start) (hfinish : g.Shown sel.finish) :
    g.highlightedText = g.textBetween sel.start sel.finish := by
  have hrows : (g.highlightedCells.map Prod.fst).dedup =
      List.range' sel.start.row (sel.finish.row + 1 - sel.start.row) := by
    rw [highlightedCells_eq hsynced hle hfits hsel hne, List.map_map]
    exact dedup_selectedPositions hsynced hle hstart hfinish hsorted
  rw [highlightedText, textBetween]
  dsimp only
  rw [hrows, intercalate_map_range']
  refine List.flatMap_congr fun row hrow ↦ ?_
  have hrow := List.mem_range'_1.mp hrow
  rw [rowText_highlighted hsynced hle hfits hsel hne hstart hfinish hrow.1 (by omega), firstCol]

end Copied

/-- **Highlight and copy.** What is shown at a visible cell is the cell at its position. A selection
of one cell is not highlighted and has no text. With any other a visible cell is highlighted exactly
if its position is in the selection, and while both ends are on display the copied text is that of
the highlighted cells. -/
theorem highlight_is_copied (g : CellGrid) (hsynced : g.Synced) (hfits : g.Fits)
    (hle : g.OffsetLe) :
    (g.forEachDisplayedCell = g.visibleCells.map fun p ↦
      (p.1, p.2, (g.content.cellAt (g.visibleToAbs p.1 p.2)).getD default)) ∧
    ∀ sel, g.view.selection = some sel →
      (sel.start = sel.finish → g.visibleSelectionSpans = [] ∧ g.selectedText = none) ∧
      (sel.start ≠ sel.finish →
        (∀ vr < g.rows, ∀ vc < g.cols,
          g.Highlighted vr vc ↔ Between sel.start sel.finish (g.visibleToAbs vr vc)) ∧
        (g.Shown sel.anchor → g.Shown sel.endPos → g.selectedText = some g.highlightedText)) := by
  refine ⟨forEachDisplayedCell_eq hsynced hle, fun sel hsel ↦ ⟨fun hsingle ↦ ?_, fun hne ↦ ?_⟩⟩
  · refine ⟨not_highlighted_single hsel hsingle, ?_⟩
    rw [selectedText, hsel, Option.bind_some, if_pos hsingle]
  · refine ⟨fun vr hvr vc hvc ↦ highlighted_iff hfits hsel hne hvr hvc, fun hanchor hend ↦ ?_⟩
    obtain ⟨hstart, hfinish, hsorted⟩ := ends_of_selection hanchor hend
    rw [selectedText, hsel, Option.bind_some, if_neg hne,
      highlightedText_eq hsynced hle hfits hsel hne hsorted hstart hfinish]

/-- A line of three letters above a screen of two rows and columns, scrolled up by both of its rows,
and a selection. -/
def scrolledUp (sel : Selection) : CellGrid :=
  let letter (c : Char) : CellState := { (default : CellState) with c }
  let g := (new 2 2).apply (.scrollbackAppend 0 [[letter 'a', letter 'b', letter 'c']])
  { g with view := (g.view.scrollUp 2 2).setSelection (some sel) }

/-- From the second letter to the blank after the third. -/
theorem highlight_is_copied_wrapped :
    (scrolledUp ⟨⟨0, 3⟩, ⟨0, 1⟩⟩).selectedText =
      some (scrolledUp ⟨⟨0, 3⟩, ⟨0, 1⟩⟩).highlightedText := by
  have h := highlight_is_copied (scrolledUp ⟨⟨0, 3⟩, ⟨0, 1⟩⟩) ⟨rfl, rfl⟩ ⟨by decide, by decide⟩
    (by decide)
  exact ((h.2 _ rfl).2 (by decide)).2 ⟨1, by decide, 1, by decide, by decide⟩
    ⟨0, by decide, 1, by decide, by decide⟩

/-- A blank grid and a selection. -/
def blank (rows cols : ℕ) (sel : Selection) : CellGrid :=
  { new rows cols with view := GridView.new.setSelection (some sel) }

/-- While nothing is scrolled, a cell of the first column stands for itself. -/
theorem visibleToAbs_blank {rows vr : ℕ} (sel : Selection) (hvr : vr < rows) :
    (blank rows 1 sel).visibleToAbs vr 0 = ⟨vr, 0⟩ := by
  rw [visibleToAbs_eq (g := blank rows 1 sel) hvr Nat.one_pos,
    show (blank rows 1 sel).absRowBaseAtVisible vr = (0 + (vr - 0), 0) from rfl, Nat.zero_add,
    Nat.sub_zero]

/-- The only cell of a grid is selected and not highlighted; nor is the row past the 16-bit numbers
in a grid that has it. -/
theorem not_highlighted_between :
    (∃ sel, (blank 1 1 sel).Shown sel.anchor ∧ (blank 1 1 sel).Shown sel.endPos ∧
      Between sel.start sel.finish ((blank 1 1 sel).visibleToAbs 0 0) ∧
      ¬(blank 1 1 sel).Highlighted 0 0) ∧
    ∃ sel, (blank (2 ^ 16 + 1) 1 sel).Shown sel.anchor ∧
      (blank (2 ^ 16 + 1) 1 sel).Shown sel.endPos ∧
      Between sel.start sel.finish ((blank (2 ^ 16 + 1) 1 sel).visibleToAbs (2 ^ 16) 0) ∧
      ¬(blank (2 ^ 16 + 1) 1 sel).Highlighted (2 ^ 16) 0 := by
  refine ⟨⟨⟨⟨0, 0⟩, ⟨0, 0⟩⟩, ⟨0, by decide, 0, by decide, by decide⟩,
    ⟨0, by decide, 0, by decide, by decide⟩, by decide, by decide⟩, ?_⟩
  refine ⟨⟨⟨0, 0⟩, ⟨2 ^ 16, 0⟩⟩, ⟨0, Nat.succ_pos _, 0, Nat.one_pos, ?_⟩,
    ⟨2 ^ 16, Nat.lt_succ_self _, 0, Nat.one_pos, ?_⟩, ?_, ?_⟩
  · exact visibleToAbs_blank _ (Nat.succ_pos _)
  · exact visibleToAbs_blank _ (Nat.lt_succ_self _)
  · rw [visibleToAbs_blank _ (Nat.lt_succ_self _)]
    decide
  · -- no span has that number
    rintro ⟨span, -, hrow, -⟩
    have := span.1.toNat_lt
    omega

end CellGrid

end Kmux
