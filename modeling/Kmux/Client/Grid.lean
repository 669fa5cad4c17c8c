import Kmux.Client.Scrollback

/-!
# The client's grid

`GridContent` is the authoritative, apply-mutated half of a pane on the client: cells, cursor,
modes and scrollback, together with the generation stamps renderers key their caches on. Every
operation returns the view-state consequence the source returns, as an `ApplyEffect`.
-/

namespace Kmux

/-- How a scrollback append affects view-local selection rows. -/
inductive ScrollbackFixup
  | cleared
  | shifted (evicted net : ℕ)
  deriving DecidableEq, Repr

/-- View-state consequences of an apply. -/
structure ApplyEffect where
  resetView : Bool := false
  scrollbackFixup : Option ScrollbackFixup := none
  deriving DecidableEq, Repr

/-- Authoritative, apply-mutated terminal content. -/
structure GridContent where
  cells : List CellState
  cursor : CursorState
  modes : TermModes
  rows : ℕ
  cols : ℕ
  /-- Bumped when cells change. -/
  cellsGeneration : ℕ
  /-- Bumped on every update. -/
  cursorGeneration : ℕ
  scrollback : ScrollbackBuffer
  /-- Highest `history_total` the server has reported that the client has not caught up with. -/
  pendingHistoryTotal : Option ℕ
  /-- The `cellsGeneration` at which each live row last changed. -/
  rowGens : List ℕ

namespace GridContent

def new (rows cols : ℕ) : GridContent :=
  { cells := List.replicate (rows * cols) default
    cursor := default
    modes := TermModes.empty
    rows, cols
    cellsGeneration := 0
    cursorGeneration := 0
    scrollback := default
    pendingHistoryTotal := none
    rowGens := List.replicate rows 0 }

/-- Stamp every live row as changed at the current generation. -/
def stampAllRows (g : GridContent) : GridContent :=
  { g with rowGens := List.replicate g.rows g.cellsGeneration }

/-- The range of absolute indices the server has reported and the client does not hold. -/
def pendingHistoryGap (g : GridContent) : Option (ℕ × ℕ) :=
  let have_ := g.scrollback.historyTotal
  g.pendingHistoryTotal.bind fun want ↦ if have_ < want then some (have_, want) else none

/-- Clear the gap marker once the scrollback has caught up with it. -/
def maybeClearHistoryGap (g : GridContent) : GridContent :=
  if g.pendingHistoryTotal.any fun want ↦ decide (want ≤ g.scrollback.historyTotal) then
    { g with pendingHistoryTotal := none }
  else g

/-! ## Snapshots -/

/-- What a snapshot does to the scrollback: lines the daemon no longer serves go unconditionally,
then the tail reseeds the buffer unless it is empty and lines are still held. -/
def seedScrollback (sb : ScrollbackBuffer) (s : GridSnapshot) : ScrollbackBuffer :=
  let evicted := sb.evictBefore s.scrollbackBase
  if s.scrollbackTail ≠ [] ∨ evicted.lines = [] then
    evicted.seedTail s.historyTotal s.scrollbackTail
  else evicted

/-- Replace the entire grid from a server snapshot. -/
def applySnapshot (g : GridContent) (s : GridSnapshot) : GridContent × ApplyEffect :=
  let g₁ : GridContent :=
    { g with
      rows := s.rows.toNat
      cols := s.cols.toNat
      cells := s.cells
      cursor := s.cursor
      modes := s.modes
      scrollback := seedScrollback g.scrollback s }
  let g₂ := g₁.maybeClearHistoryGap
  let g₃ : GridContent :=
    { g₂ with
      cellsGeneration := g₂.cellsGeneration + 1
      cursorGeneration := g₂.cursorGeneration + 1 }
  (g₃.stampAllRows, { resetView := true })

/-- The digest the daemon's `GridDigest` certifies. -/
def liveDigest (g : GridContent) : Fnv1a128 :=
  GridSnapshot.liveDigest
    { rows := g.rows.toUInt16
      cols := g.cols.toUInt16
      cells := g.cells
      cursor := g.cursor
      modes := g.modes
      historyTotal := g.scrollback.historyTotal
      scrollbackBase := g.scrollback.baseIndex
      scrollbackTail := [] }

/-! ## Diffs -/

/-- Write consecutive cells from index `base` on, dropping what falls outside the grid. -/
def writeCells (base : ℕ) : List CellState → List CellState → List CellState
  | [], cells => cells
  | c :: cs, cells => writeCells (base + 1) cs (cells.set base c)

/-- One cell operation on the flat buffer. -/
def applyOp (cols : ℕ) (cells : List CellState) : DiffOp → List CellState
  | .cell row col cell => cells.set (row.toNat * cols + col.toNat) cell
  | .row row startCol cs => writeCells (row.toNat * cols + startCol.toNat) cs cells
  | .clear => cells.map fun _ ↦ default

/-- The operations of a diff, in order. -/
def applyOps (cols : ℕ) (ops : List DiffOp) (cells : List CellState) : List CellState :=
  ops.foldl (applyOp cols) cells

/-- The rows a diff touches, in order. -/
def changedRows (ops : List DiffOp) : List UInt16 :=
  ops.filterMap fun
    | .cell row _ _ => some row
    | .row row _ _ => some row
    | .clear => none

/-- The row stamps after a diff whose new generation is `stamp`. -/
def stampRows (stamp : ℕ) (ops : List DiffOp) (gens : List ℕ) : List ℕ :=
  let cleared := if DiffOp.clear ∈ ops then gens.map fun _ ↦ stamp else gens
  (changedRows ops).foldl (fun gens row ↦ gens.set row.toNat stamp) cleared

/-- Apply a diff from the server. A scrollback wipe takes effect before the gap check, so that
surviving lines arrive cleanly and no spurious gap is recorded. -/
def applyDiff (g : GridContent) (diff : TerminalDiff) : GridContent × ApplyEffect :=
  let g₁ : GridContent := match diff.scrollbackReset with
    | some base =>
      { g with scrollback := g.scrollback.resetTo base, pendingHistoryTotal := none }
    | none => g
  let pending := if g₁.scrollback.historyTotal < diff.historyTotal then some diff.historyTotal
    else g₁.pendingHistoryTotal
  let cellsGeneration := if diff.ops ≠ [] ∨ diff.scrollbackReset.isSome then g.cellsGeneration + 1
    else g.cellsGeneration
  ({ g₁ with
      pendingHistoryTotal := pending
      cells := applyOps g.cols diff.ops g.cells
      cursor := diff.cursor
      modes := diff.modes
      cellsGeneration := cellsGeneration
      cursorGeneration := g.cursorGeneration + 1
      rowGens := if diff.ops ≠ [] then stampRows cellsGeneration diff.ops g.rowGens
        else g.rowGens },
    { resetView := diff.scrollbackReset.isSome })

/-- Apply a cursor-only update. -/
def applyCursorUpdate (g : GridContent) (cursor : CursorState) (modes : TermModes) :
    GridContent :=
  { g with cursor, modes, cursorGeneration := g.cursorGeneration + 1 }

/-! ## Scrollback -/

/-- Apply an out-of-band append. A gap or overlap clears the buffer; a later fetch reseeds it. -/
def applyScrollbackAppend (g : GridContent) (firstIndex : ℕ) (lines : List ScrollbackLine) :
    GridContent × ApplyEffect :=
  if lines = [] then (g, {})
  else
    let appended := g.scrollback.appendWithIndex firstIndex lines
    let evicted := g.scrollback.lines.length + lines.length - appended.1.lines.length
    let fixup : ScrollbackFixup :=
      if appended.2 then .shifted evicted (lines.length - evicted) else .cleared
    let scrollback := if appended.2 then appended.1 else appended.1.clear
    let g' := ({ g with scrollback } : GridContent).maybeClearHistoryGap
    ({ g' with cellsGeneration := g'.cellsGeneration + 1 }, { scrollbackFixup := some fixup })

/-- Apply the reply to a history fetch. Only the part newer than what is held is appended. -/
def applyHistoryLines (g : GridContent) (firstIndex : ℕ) (lines : List ScrollbackLine)
    (_historyTotal : ℕ) : GridContent :=
  if lines = [] then g
  else
    let currentTotal := g.scrollback.historyTotal
    let g' : GridContent :=
      if firstIndex = currentTotal then
        { g with
          scrollback := (g.scrollback.appendWithIndex firstIndex lines).1
          cellsGeneration := g.cellsGeneration + 1 }
      else if firstIndex < currentTotal ∧ currentTotal < firstIndex + lines.length then
        let tail := lines.drop (currentTotal - firstIndex)
        if tail ≠ [] then
          { g with
            scrollback := (g.scrollback.appendWithIndex currentTotal tail).1
            cellsGeneration := g.cellsGeneration + 1 }
        else g
      else g
    g'.maybeClearHistoryGap

/-- Reset to blank cells. -/
def clear (g : GridContent) : GridContent × ApplyEffect :=
  let g' : GridContent :=
    { g with
      cells := g.cells.map fun _ ↦ default
      cursor := default
      modes := TermModes.empty
      scrollback := g.scrollback.clear
      pendingHistoryTotal := none
      cellsGeneration := g.cellsGeneration + 1
      cursorGeneration := g.cursorGeneration + 1 }
  (g'.stampAllRows, { resetView := true })

/-- Resize to blank cells. Scrollback, cursor and modes stay; the daemon sends a snapshot next. -/
def resize (g : GridContent) (rows cols : UInt16) : GridContent × ApplyEffect :=
  let g' : GridContent :=
    { g with
      rows := rows.toNat
      cols := cols.toNat
      cells := List.replicate (rows.toNat * cols.toNat) default
      cellsGeneration := g.cellsGeneration + 1
      cursorGeneration := g.cursorGeneration + 1 }
  (g'.stampAllRows, { resetView := true })

/-! ## What each operation leaves in the compared fields

Only the gap marker is touched on the side, so everything else reads off by `rfl`. -/

/-- Two grids that differ at most in stamps and gap marker. -/
structure SameContent (g g' : GridContent) : Prop where
  rows : g'.rows = g.rows
  cols : g'.cols = g.cols
  cells : g'.cells = g.cells
  cursor : g'.cursor = g.cursor
  modes : g'.modes = g.modes
  scrollback : g'.scrollback = g.scrollback

theorem sameContent_maybeClearHistoryGap (g : GridContent) :
    SameContent g g.maybeClearHistoryGap := by
  rw [maybeClearHistoryGap]
  split <;> exact ⟨rfl, rfl, rfl, rfl, rfl, rfl⟩

/-- Clearing the marker of a gap that has closed leaves the gap what it was: none. -/
@[simp] theorem pendingHistoryGap_maybeClearHistoryGap (g : GridContent) :
    g.maybeClearHistoryGap.pendingHistoryGap = g.pendingHistoryGap := by
  rw [maybeClearHistoryGap]
  cases hpending : g.pendingHistoryTotal with
  | none => rfl
  | some want =>
    by_cases hle : want ≤ g.scrollback.historyTotal
    · rw [if_pos (by simpa using hle), pendingHistoryGap, pendingHistoryGap, hpending]
      exact (if_neg (not_lt.mpr hle)).symm
    · rw [if_neg (by simpa using hle)]

/-- A snapshot replaces everything but the scrollback, which it seeds. -/
theorem sameContent_applySnapshot (g : GridContent) (s : GridSnapshot) :
    SameContent
      { g with
        rows := s.rows.toNat
        cols := s.cols.toNat
        cells := s.cells
        cursor := s.cursor
        modes := s.modes
        scrollback := seedScrollback g.scrollback s }
      (g.applySnapshot s).1 := by
  obtain ⟨h₁, h₂, h₃, h₄, h₅, h₆⟩ := sameContent_maybeClearHistoryGap
    { g with
      rows := s.rows.toNat
      cols := s.cols.toNat
      cells := s.cells
      cursor := s.cursor
      modes := s.modes
      scrollback := seedScrollback g.scrollback s }
  exact ⟨h₁, h₂, h₃, h₄, h₅, h₆⟩

/-- A diff carries cursor and modes, applies its operations, and wipes when it says so. -/
theorem sameContent_applyDiff (g : GridContent) (diff : TerminalDiff) :
    SameContent
      { g with
        cells := applyOps g.cols diff.ops g.cells
        cursor := diff.cursor
        modes := diff.modes
        scrollback := match diff.scrollbackReset with
          | some base => g.scrollback.resetTo base
          | none => g.scrollback }
      (g.applyDiff diff).1 := by
  rw [applyDiff]
  cases diff.scrollbackReset <;> exact ⟨rfl, rfl, rfl, rfl, rfl, rfl⟩

/-- The same diff on grids of the same content. -/
theorem sameContent_applyDiff_congr {g g' : GridContent} (h : SameContent g g')
    (diff : TerminalDiff) : SameContent (g.applyDiff diff).1 (g'.applyDiff diff).1 := by
  obtain ⟨h₁, h₂, h₃, h₄, h₅, h₆⟩ := sameContent_applyDiff g diff
  obtain ⟨k₁, k₂, k₃, k₄, k₅, k₆⟩ := sameContent_applyDiff g' diff
  refine ⟨?_, ?_, ?_, k₄.trans h₄.symm, k₅.trans h₅.symm, ?_⟩
  · rw [k₁, h₁, h.rows]
  · rw [k₂, h₂, h.cols]
  · rw [k₃, h₃, h.cols, h.cells]
  · rw [k₆, h₆, h.scrollback]

/-- An append that starts where the client's history ends is pushed line by line. -/
theorem sameContent_applyScrollbackAppend {g : GridContent} {firstIndex : ℕ}
    (hfirst : firstIndex = g.scrollback.historyTotal) (lines : List ScrollbackLine) :
    SameContent { g with scrollback := lines.foldl ScrollbackBuffer.pushLine g.scrollback }
      (g.applyScrollbackAppend firstIndex lines).1 := by
  rw [applyScrollbackAppend]
  by_cases hlines : lines = []
  · rw [if_pos hlines, hlines]
    exact ⟨rfl, rfl, rfl, rfl, rfl, rfl⟩
  · rw [if_neg hlines, ScrollbackBuffer.appendWithIndex, if_neg (not_not.mpr hfirst)]
    obtain ⟨h₁, h₂, h₃, h₄, h₅, h₆⟩ := sameContent_maybeClearHistoryGap
      { g with scrollback := lines.foldl ScrollbackBuffer.pushLine g.scrollback }
    exact ⟨h₁, h₂, h₃, h₄, h₅, h₆⟩

end GridContent

end Kmux
