import Kmux.Client.Grid

/-!
# Wrapped scrollback

A scrollback line keeps the width it had when it scrolled off, so a viewport of another width shows
it over several display rows. How many is decided by the line's effective length, which leaves
trailing default-background blanks out; a blank line still takes a row.

The renderer never builds the list of display rows. It looks one row up by its distance from the
newest, walking the held lines backwards, and bounds that distance by a total added up separately.
Here the list is built, `wrappedRows`, and the lookup is shown to read it from the end,
`scrollbackDisplayRowAt_eq`.
-/

namespace Kmux

/-! ## The source's functions -/

/-- A blank that is left out at the end of a line. -/
def CellState.trailingBlank (cell : CellState) : Bool :=
  cell.c == ' ' && cell.attrs.contains CellAttrs.defaultBg

/-- The backward scan for the last cell that is not blank, over the cells from the last on. -/
def effectiveScan : List CellState → ℕ
  | [] => 0
  | cell :: before => if cell.trailingBlank then effectiveScan before else before.length + 1

/-- Number of cells up to the last one that is not a default-background blank. -/
def effectiveLineLen (line : ScrollbackLine) : ℕ := effectiveScan line.reverse

/-- Number of display rows a line takes at `cols` columns, at least one. -/
def displayRowsForLine (line : ScrollbackLine) (cols : ℕ) : ℕ :=
  if cols = 0 then 1
  else
    let eff := effectiveLineLen line
    if eff = 0 then 1 else (eff + cols - 1) / cols

/-- The backward walk over the lines, newest first; a line's index is the number of older ones. -/
def displayRowWalk (cols : ℕ) : List ScrollbackLine → ℕ → Option (ℕ × ℕ)
  | [], _ => none
  | line :: older, remaining =>
    let drs := displayRowsForLine line cols
    if remaining < drs then
      let sliceIdx := drs - 1 - remaining
      some (older.length, sliceIdx * cols)
    else displayRowWalk cols older (remaining - drs)

/-- The line, and the column within it, at which the display row `revOffset` rows above the newest
one begins. -/
def scrollbackDisplayRowAt (scrollback : ScrollbackBuffer) (cols revOffset : ℕ) :
    Option (ℕ × ℕ) :=
  displayRowWalk cols scrollback.lines.reverse revOffset

/-- Total number of display rows of some lines. -/
def displayRowsTotal (lines : List ScrollbackLine) (cols : ℕ) : ℕ :=
  lines.foldl (fun total line ↦ total + displayRowsForLine line cols) 0

/-- Total number of display rows the scrollback takes at the viewport's width. -/
def GridContent.totalScrollbackDisplayRows (g : GridContent) : ℕ :=
  displayRowsTotal g.scrollback.lines g.cols

/-- What is rendered of a line from a column on. -/
def displaySlice (line : ScrollbackLine) (cols colStart : ℕ) : List CellState :=
  (line.drop colStart).take cols

/-! ## Effective length -/

theorem effectiveScan_le_length (cells : List CellState) :
    effectiveScan cells ≤ cells.length := by
  induction cells with
  | nil => exact le_rfl
  | cons cell before ih =>
    rw [effectiveScan, List.length_cons]
    split
    · exact Nat.le_succ_of_le ih
    · exact le_rfl

theorem effectiveLineLen_le_length (line : ScrollbackLine) :
    effectiveLineLen line ≤ line.length := by
  rw [← List.length_reverse]
  exact effectiveScan_le_length line.reverse

/-- Nothing but blanks stands past the effective length. -/
theorem trailingBlank_of_mem_drop_effectiveLineLen (line : ScrollbackLine) :
    ∀ cell ∈ line.drop (effectiveLineLen line), cell.trailingBlank = true := by
  induction line using List.reverseRecOn with
  | nil => exact fun _ hmem ↦ absurd hmem List.not_mem_nil
  | append_singleton line last ih =>
    rw [effectiveLineLen, List.reverse_append, List.reverse_singleton, List.singleton_append,
      effectiveScan]
    by_cases hblank : last.trailingBlank = true
    · rw [if_pos hblank, ← effectiveLineLen,
        List.drop_append_of_le_length (effectiveLineLen_le_length line)]
      intro cell hmem
      rcases List.mem_append.mp hmem with hmem | hmem
      · exact ih cell hmem
      · rw [List.mem_singleton.mp hmem]
        exact hblank
    · rw [if_neg hblank, List.length_reverse, List.drop_eq_nil_of_le (by simp)]
      exact fun _ hmem ↦ absurd hmem List.not_mem_nil

/-! ## Heights -/

theorem displayRowsForLine_pos (line : ScrollbackLine) (cols : ℕ) :
    0 < displayRowsForLine line cols := by
  rw [displayRowsForLine]
  by_cases hcols : cols = 0
  · rw [if_pos hcols]
    exact Nat.one_pos
  · rw [if_neg hcols]
    dsimp only
    split
    · exact Nat.one_pos
    · exact Nat.div_pos (by omega) (by omega)

/-- The rows of a line are enough for its effective content. -/
theorem effectiveLineLen_le_mul {cols : ℕ} (hcols : 0 < cols) (line : ScrollbackLine) :
    effectiveLineLen line ≤ displayRowsForLine line cols * cols := by
  rw [displayRowsForLine, if_neg hcols.ne']
  dsimp only
  split
  · omega
  · have hdiv := Nat.div_add_mod (effectiveLineLen line + cols - 1) cols
    have hmod := Nat.mod_lt (effectiveLineLen line + cols - 1) hcols
    rw [Nat.mul_comm] at hdiv
    omega

theorem displayRowsTotal_eq_sum (lines : List ScrollbackLine) (cols : ℕ) :
    displayRowsTotal lines cols = (lines.map (displayRowsForLine · cols)).sum := by
  induction lines using List.reverseRecOn with
  | nil => rfl
  | append_singleton lines line ih =>
    rw [displayRowsTotal, List.foldl_append, ← displayRowsTotal, ih, List.map_append,
      List.sum_append]
    rfl

theorem displayRowsTotal_append (older newer : List ScrollbackLine) (cols : ℕ) :
    displayRowsTotal (older ++ newer) cols =
      displayRowsTotal older cols + displayRowsTotal newer cols := by
  rw [displayRowsTotal_eq_sum, displayRowsTotal_eq_sum, displayRowsTotal_eq_sum, List.map_append,
    List.sum_append]

/-! ## The list of display rows -/

/-- The display rows of a line: its index, and the columns at which its slices begin. -/
def lineRows (cols i : ℕ) (line : ScrollbackLine) : List (ℕ × ℕ) :=
  (List.range (displayRowsForLine line cols)).map fun k ↦ (i, k * cols)

/-- All display rows of the scrollback, oldest first. -/
def wrappedRows (cols : ℕ) (lines : List ScrollbackLine) : List (ℕ × ℕ) :=
  lines.zipIdx.flatMap fun p ↦ lineRows cols p.2 p.1

/-- One row stands before another: on an older line, or further left on the same. -/
def RowBefore (p q : ℕ × ℕ) : Prop := p.1 < q.1 ∨ p.1 = q.1 ∧ p.2 < q.2

instance : DecidableRel RowBefore := fun p q ↦
  inferInstanceAs (Decidable (p.1 < q.1 ∨ p.1 = q.1 ∧ p.2 < q.2))

theorem RowBefore.irrefl (p : ℕ × ℕ) : ¬RowBefore p p := by
  rintro (h | ⟨-, h⟩) <;> exact lt_irrefl _ h

theorem wrappedRows_append_singleton (cols : ℕ) (lines : List ScrollbackLine)
    (line : ScrollbackLine) :
    wrappedRows cols (lines ++ [line]) =
      wrappedRows cols lines ++ lineRows cols lines.length line := by
  rw [wrappedRows, List.zipIdx_append, List.flatMap_append, ← wrappedRows]
  simp

@[simp] theorem length_lineRows (cols i : ℕ) (line : ScrollbackLine) :
    (lineRows cols i line).length = displayRowsForLine line cols := by
  rw [lineRows, List.length_map, List.length_range]

theorem length_wrappedRows (cols : ℕ) (lines : List ScrollbackLine) :
    (wrappedRows cols lines).length = displayRowsTotal lines cols := by
  induction lines using List.reverseRecOn with
  | nil => rfl
  | append_singleton lines line ih =>
    rw [wrappedRows_append_singleton, List.length_append, ih, length_lineRows,
      displayRowsTotal_append]
    simp [displayRowsTotal]

theorem mem_lineRows {cols i : ℕ} {line : ScrollbackLine} {p : ℕ × ℕ} :
    p ∈ lineRows cols i line ↔ ∃ k < displayRowsForLine line cols, p = (i, k * cols) := by
  rw [lineRows, List.mem_map]
  constructor
  · rintro ⟨k, hk, rfl⟩
    exact ⟨k, List.mem_range.mp hk, rfl⟩
  · rintro ⟨k, hk, rfl⟩
    exact ⟨k, List.mem_range.mpr hk, rfl⟩

theorem mem_wrappedRows {cols : ℕ} {lines : List ScrollbackLine} {p : ℕ × ℕ} :
    p ∈ wrappedRows cols lines ↔
      ∃ line, lines[p.1]? = some line ∧
        ∃ k < displayRowsForLine line cols, p.2 = k * cols := by
  rw [wrappedRows, List.mem_flatMap]
  constructor
  · rintro ⟨⟨line, i⟩, hmem, hp⟩
    obtain ⟨k, hk, rfl⟩ := mem_lineRows.mp hp
    exact ⟨line, List.mem_zipIdx_iff_getElem?.mp hmem, k, hk, rfl⟩
  · rintro ⟨line, hline, k, hk, hcol⟩
    exact ⟨(line, p.1), List.mem_zipIdx_iff_getElem?.mpr hline,
      mem_lineRows.mpr ⟨k, hk, Prod.ext rfl hcol⟩⟩

/-- A row of held lines lies on one of them. -/
theorem fst_lt_of_mem_wrappedRows {cols : ℕ} {lines : List ScrollbackLine} {p : ℕ × ℕ}
    (h : p ∈ wrappedRows cols lines) : p.1 < lines.length := by
  obtain ⟨line, hline, -⟩ := mem_wrappedRows.mp h
  exact (List.getElem?_eq_some_iff.mp hline).1

theorem pairwise_lineRows (cols i : ℕ) (line : ScrollbackLine) :
    (lineRows cols i line).Pairwise RowBefore := by
  by_cases hcols : cols = 0
  · rw [lineRows, displayRowsForLine, if_pos hcols]
    exact List.pairwise_singleton _ _
  · rw [lineRows, List.pairwise_map]
    refine List.pairwise_lt_range.imp fun hlt ↦ ?_
    exact .inr ⟨rfl, Nat.mul_lt_mul_of_pos_right hlt (Nat.pos_of_ne_zero hcols)⟩

/-- No row is listed twice, and the order is that of the lines and of the columns within them. -/
theorem pairwise_wrappedRows (cols : ℕ) (lines : List ScrollbackLine) :
    (wrappedRows cols lines).Pairwise RowBefore := by
  induction lines using List.reverseRecOn with
  | nil => exact List.Pairwise.nil
  | append_singleton lines line ih =>
    rw [wrappedRows_append_singleton, List.pairwise_append]
    refine ⟨ih, pairwise_lineRows cols lines.length line, fun p hp q hq ↦ ?_⟩
    obtain ⟨k, -, rfl⟩ := mem_lineRows.mp hq
    exact .inl (fst_lt_of_mem_wrappedRows hp)

/-! ## The lookup reads the list from its end -/

theorem displayRowWalk_eq (cols : ℕ) (lines : List ScrollbackLine) (remaining : ℕ) :
    displayRowWalk cols lines.reverse remaining =
      (wrappedRows cols lines).reverse[remaining]? := by
  induction lines using List.reverseRecOn generalizing remaining with
  | nil => rfl
  | append_singleton lines line ih =>
    rw [List.reverse_append, List.reverse_singleton, List.singleton_append, displayRowWalk,
      wrappedRows_append_singleton, List.reverse_append, List.length_reverse]
    dsimp only
    by_cases hlt : remaining < displayRowsForLine line cols
    · rw [if_pos hlt, List.getElem?_append_left (by simpa using hlt),
        List.getElem?_reverse (by simpa using hlt), length_lineRows, lineRows, List.getElem?_map,
        List.getElem?_range (by omega)]
      rfl
    · rw [if_neg hlt, ih, List.getElem?_append_right (by simpa using hlt), List.length_reverse,
        length_lineRows]

/-- **The lookup.** Counted from the newest, the lookup enumerates the display rows. -/
theorem scrollbackDisplayRowAt_eq (sb : ScrollbackBuffer) (cols revOffset : ℕ) :
    scrollbackDisplayRowAt sb cols revOffset =
      (wrappedRows cols sb.lines).reverse[revOffset]? :=
  displayRowWalk_eq cols sb.lines revOffset

/-- **The total bounds the lookup.** -/
theorem scrollbackDisplayRowAt_eq_none_iff (sb : ScrollbackBuffer) (cols revOffset : ℕ) :
    scrollbackDisplayRowAt sb cols revOffset = none ↔
      displayRowsTotal sb.lines cols ≤ revOffset := by
  rw [scrollbackDisplayRowAt_eq, List.getElem?_eq_none_iff, List.length_reverse,
    length_wrappedRows]

/-! ## The rows of one line -/

/-- The rows of a line that looking up every distance below the total finds, left to right. -/
def GridContent.rowsFound (g : GridContent) (i : ℕ) : List (ℕ × ℕ) :=
  ((List.range g.totalScrollbackDisplayRows).reverse.filterMap
    (scrollbackDisplayRowAt g.scrollback g.cols)).filter fun p ↦ p.1 = i

private theorem filterMap_getElem?_range {α : Type*} (l : List α) :
    (List.range l.length).filterMap (l[·]?) = l := by
  induction l with
  | nil => rfl
  | cons a l ih =>
    rw [List.length_cons, List.range_succ_eq_map, List.filterMap_cons, List.filterMap_map]
    exact congrArg (a :: ·) ih

private theorem filter_wrappedRows {cols i : ℕ} {lines : List ScrollbackLine}
    {line : ScrollbackLine} (hline : lines[i]? = some line) :
    ((wrappedRows cols lines).filter fun p ↦ p.1 = i) = lineRows cols i line := by
  induction lines using List.reverseRecOn with
  | nil => cases hline
  | append_singleton lines last ih =>
    have hlast : ∀ p ∈ lineRows cols lines.length last, p.1 = lines.length := by
      intro p hp
      obtain ⟨k, -, rfl⟩ := mem_lineRows.mp hp
      rfl
    rw [wrappedRows_append_singleton, List.filter_append]
    rcases lt_or_ge i lines.length with hi | hi
    · rw [List.getElem?_append_left hi] at hline
      rw [ih hline, List.filter_eq_nil_iff.mpr fun p hp ↦ by simp [hlast p hp, hi.ne'],
        List.append_nil]
    · rw [List.getElem?_append_right hi] at hline
      obtain ⟨hzero, heq⟩ := List.getElem?_eq_some_iff.mp hline
      rw [List.getElem_singleton] at heq
      obtain rfl : i = lines.length := by
        rw [List.length_singleton] at hzero
        omega
      subst heq
      rw [List.filter_eq_nil_iff.mpr fun p hp ↦ by simp [(fst_lt_of_mem_wrappedRows hp).ne],
        List.filter_eq_self.mpr fun p hp ↦ by simp [hlast p hp], List.nil_append]

theorem GridContent.rowsFound_eq {g : GridContent} {i : ℕ} {line : ScrollbackLine}
    (hline : g.scrollback.lines[i]? = some line) :
    g.rowsFound i = lineRows g.cols i line := by
  have hlookup : scrollbackDisplayRowAt g.scrollback g.cols =
      ((wrappedRows g.cols g.scrollback.lines).reverse[·]?) :=
    funext fun rev ↦ scrollbackDisplayRowAt_eq g.scrollback g.cols rev
  rw [rowsFound, totalScrollbackDisplayRows, ← length_wrappedRows, ← List.length_reverse, hlookup,
    List.filterMap_reverse, filterMap_getElem?_range, List.reverse_reverse,
    filter_wrappedRows hline]

/-- Consecutive slices of one width join to a prefix. -/
private theorem flatMap_lineRows_displaySlice (cells : List CellState) (cols n i : ℕ) :
    (((List.range n).map fun k ↦ (i, k * cols)).flatMap fun p ↦ displaySlice cells cols p.2) =
      cells.take (n * cols) := by
  induction n with
  | zero => rw [Nat.zero_mul, List.take_zero]; rfl
  | succ n ih =>
    rw [List.range_succ, List.map_append, List.flatMap_append, ih, Nat.succ_mul, List.take_add,
      List.map_singleton, List.flatMap_singleton, displaySlice]

/-- Cut at the effective length, the slices of a line are its effective content. -/
theorem flatMap_displaySlice_take {cols : ℕ} (hcols : 0 < cols) (i : ℕ) (line : ScrollbackLine) :
    ((lineRows cols i line).flatMap fun p ↦
        displaySlice (line.take (effectiveLineLen line)) cols p.2) =
      line.take (effectiveLineLen line) := by
  rw [lineRows, flatMap_lineRows_displaySlice, List.take_take,
    Nat.min_eq_right (effectiveLineLen_le_mul hcols line)]

/-- As rendered, the slices of a line are its effective content and blanks after it. -/
theorem flatMap_displaySlice {cols : ℕ} (hcols : 0 < cols) (i : ℕ) (line : ScrollbackLine) :
    ∃ blanks : List CellState, (∀ cell ∈ blanks, cell.trailingBlank = true) ∧
      ((lineRows cols i line).flatMap fun p ↦ displaySlice line cols p.2) =
        line.take (effectiveLineLen line) ++ blanks := by
  obtain ⟨pad, hpad⟩ := Nat.le.dest (effectiveLineLen_le_mul hcols line)
  refine ⟨(line.drop (effectiveLineLen line)).take pad, fun cell hmem ↦ ?_, ?_⟩
  · exact trailingBlank_of_mem_drop_effectiveLineLen line cell (List.mem_of_mem_take hmem)
  · rw [lineRows, flatMap_lineRows_displaySlice, ← hpad, List.take_add]

/-! ## The enumeration -/

namespace GridContent

/-- Looking rows up newest first goes backwards through the display rows. -/
private theorem rowBefore_of_lookup {cols rev rev' : ℕ} {sb : ScrollbackBuffer} {p q : ℕ × ℕ}
    (hlt : rev < rev') (hp : scrollbackDisplayRowAt sb cols rev = some p)
    (hq : scrollbackDisplayRowAt sb cols rev' = some q) : RowBefore q p := by
  rw [scrollbackDisplayRowAt_eq] at hp hq
  obtain ⟨hrev, rfl⟩ := List.getElem?_eq_some_iff.mp hp
  obtain ⟨hrev', rfl⟩ := List.getElem?_eq_some_iff.mp hq
  have hpairwise := List.pairwise_reverse.mpr (pairwise_wrappedRows cols sb.lines)
  exact List.pairwise_iff_getElem.mp hpairwise rev rev' hrev hrev' hlt

/-- **Wrapped scrollback enumeration.** Looked up from the newest on, the display rows are the
wrapped slices of the held lines: each exactly once, nothing else, newest first, and nothing from
the total on. The slices of a line join to its effective content when they are cut at the effective
length; as rendered they may carry blanks after it. A viewport without columns shows each line as
one empty row. -/
theorem wrapped_enumeration (g : GridContent) :
    (∀ i line, g.scrollback.lines[i]? = some line → ∀ k < displayRowsForLine line g.cols,
      ∃! rev, scrollbackDisplayRowAt g.scrollback g.cols rev = some (i, k * g.cols)) ∧
    (∀ rev i colStart, scrollbackDisplayRowAt g.scrollback g.cols rev = some (i, colStart) →
      ∃ line, g.scrollback.lines[i]? = some line ∧
        ∃ k < displayRowsForLine line g.cols, colStart = k * g.cols) ∧
    (∀ rev rev' p q, rev < rev' → scrollbackDisplayRowAt g.scrollback g.cols rev = some p →
      scrollbackDisplayRowAt g.scrollback g.cols rev' = some q → RowBefore q p) ∧
    (0 < g.cols → ∀ i line, g.scrollback.lines[i]? = some line →
      ((g.rowsFound i).flatMap fun p ↦
          displaySlice (line.take (effectiveLineLen line)) g.cols p.2) =
        line.take (effectiveLineLen line) ∧
      ∃ blanks : List CellState, (∀ cell ∈ blanks, cell.trailingBlank = true) ∧
        ((g.rowsFound i).flatMap fun p ↦ displaySlice line g.cols p.2) =
          line.take (effectiveLineLen line) ++ blanks) ∧
    (∀ rev, scrollbackDisplayRowAt g.scrollback g.cols rev = none ↔
      g.totalScrollbackDisplayRows ≤ rev) := by
  refine ⟨fun i line hline k hk ↦ ?_, fun rev i colStart hrow ↦ ?_,
    fun rev rev' p q ↦ rowBefore_of_lookup, fun hcols i line hline ↦ ?_,
    fun rev ↦ scrollbackDisplayRowAt_eq_none_iff g.scrollback g.cols rev⟩
  · have hmem : (i, k * g.cols) ∈ (wrappedRows g.cols g.scrollback.lines).reverse :=
      List.mem_reverse.mpr (mem_wrappedRows.mpr ⟨line, hline, k, hk, rfl⟩)
    obtain ⟨rev, hrev⟩ := List.mem_iff_getElem?.mp hmem
    rw [← scrollbackDisplayRowAt_eq] at hrev
    refine ⟨rev, hrev, fun rev' hrev' ↦ ?_⟩
    -- a second distance would put the row before itself
    rcases Nat.lt_trichotomy rev' rev with hlt | heq | hlt
    · exact absurd (rowBefore_of_lookup hlt hrev' hrev) (RowBefore.irrefl _)
    · exact heq
    · exact absurd (rowBefore_of_lookup hlt hrev hrev') (RowBefore.irrefl _)
  · rw [scrollbackDisplayRowAt_eq] at hrow
    exact mem_wrappedRows.mp (List.mem_reverse.mp (List.mem_of_getElem? hrow))
  · rw [rowsFound_eq hline]
    exact ⟨flatMap_displaySlice_take hcols i line, flatMap_displaySlice hcols i line⟩

/-- A grid without a screen at the given width, holding a blank line and a line of three letters. -/
def heldAt (cols : ℕ) : GridContent :=
  let letter (c : Char) : CellState := { (default : CellState) with c }
  { GridContent.new 0 cols with
    scrollback := [[default], [letter 'a', letter 'b', letter 'c']].foldl
      ScrollbackBuffer.pushLine default }

/-- At two columns the last letter of the line has the newest row to itself. -/
theorem wrapped_enumeration_two_columns :
    (∃! rev, scrollbackDisplayRowAt (heldAt 2).scrollback 2 rev = some (1, 1 * 2)) ∧
      ((heldAt 2).rowsFound 1).length = 2 ∧ (heldAt 2).totalScrollbackDisplayRows = 3 :=
  ⟨(wrapped_enumeration (heldAt 2)).1 1 _ rfl 1 (by decide), by decide, by decide⟩

/-- Without columns the slices are empty, so those of the letters do not join to them. -/
theorem not_slices_join_without_columns :
    ¬∀ (g : GridContent) (i : ℕ) (line : ScrollbackLine), g.scrollback.lines[i]? = some line →
      ((g.rowsFound i).flatMap fun p ↦
          displaySlice (line.take (effectiveLineLen line)) g.cols p.2) =
        line.take (effectiveLineLen line) := by
  intro h
  exact absurd (h (heldAt 0) 1 _ rfl) (by decide)

end GridContent

end Kmux
