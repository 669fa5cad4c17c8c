import Kmux.VtCore.Mirror

/-!
# The diff engine

`DiffEngine` wraps a terminal backend, remembers what the last frame looked like, and turns the
difference into cell operations, cursor changes and captured scrollback. The emulator itself is
third-party code, so the backend is a type parameter: the class `TerminalBackend` lists what the
engine calls, and its one law is what Rust's `&mut [CellState]` already guarantees, namely that
filling a buffer does not change its length.

`feed` is not a field. What bytes do to an emulator is outside this development, so a run of the
engine lets the backend pass through arbitrary states instead.

The source keeps a scratch buffer beside `prev_cells` to avoid an allocation per frame. It is
blanked before every use, so the model starts from a fresh blank buffer.
-/

namespace Kmux

/-- Physical size of the terminal. -/
structure BackendSize where
  rows : UInt16
  cols : UInt16
  pixelWidth : UInt16
  pixelHeight : UInt16
  deriving DecidableEq, Repr

/-- What the engine asks of a terminal emulator. -/
class TerminalBackend (B : Type*) where
  size : B → BackendSize
  /-- Populate a buffer with the grid in row-major order, and report cursor and modes. -/
  fillCellsAndCursor : B → List CellState → List CellState × CursorState × TermModes
  resize : B → BackendSize → B
  isAltScreen : B → Bool
  /-- Number of lines currently in the scrollback history. -/
  historySize : B → ℕ
  /-- Read `count` history lines from `start`, oldest first, at width `cols`. -/
  readHistoryLines : B → (start count cols : ℕ) → List ScrollbackLine
  /-- A slice keeps its length. -/
  length_fillCells : ∀ b out, (fillCellsAndCursor b out).1.length = out.length

open TerminalBackend

/-- What a backend shows at given dimensions. -/
def shown {B : Type*} [TerminalBackend B] (b : B) (rows cols : UInt16) :
    List CellState × CursorState × TermModes :=
  fillCellsAndCursor b (List.replicate (rows.toNat * cols.toNat) default)

@[simp] theorem length_shown {B : Type*} [TerminalBackend B] (b : B) (rows cols : UInt16) :
    (shown b rows cols).1.length = rows.toNat * cols.toNat := by
  rw [shown, length_fillCells, List.length_replicate]

/-! ## Encoding cell changes -/

/-- The inner loop over a run: the first column from `c` on whose cell did not change. -/
def runEnd (cur prev : List CellState) (base cols : ℕ) : ℕ → ℕ → ℕ
  | 0, c => c
  | fuel + 1, c =>
    if c < cols ∧ cur[base + c]? ≠ prev[base + c]? then runEnd cur prev base cols fuel (c + 1)
    else c

/-- A run of two or more cells becomes a `row` operation, a lone cell a `cell` operation. -/
def runOp (cur : List CellState) (r cols start runLen : ℕ) : DiffOp :=
  if 2 ≤ runLen then
    .row r.toUInt16 start.toUInt16 ((cur.drop (r * cols + start)).take runLen)
  else .cell r.toUInt16 start.toUInt16 (cur.getD (r * cols + start) default)

/-- The outer loop over one row from column `c` on: the operations, and how many cells changed. -/
def scanRow (cur prev : List CellState) (r cols : ℕ) : ℕ → ℕ → List DiffOp × ℕ
  | 0, _ => ([], 0)
  | fuel + 1, c =>
    if c < cols then
      if cur[r * cols + c]? = prev[r * cols + c]? then scanRow cur prev r cols fuel (c + 1)
      else
        let stop := runEnd cur prev (r * cols) cols cols (c + 1)
        let rest := scanRow cur prev r cols fuel stop
        (runOp cur r cols c (stop - c) :: rest.1, stop - c + rest.2)
    else ([], 0)

/-- The row-by-row scan of the whole grid. -/
def scanRows (rows cols : ℕ) (cur prev : List CellState) : List DiffOp × ℕ :=
  let scans := (List.range rows).map fun r ↦ scanRow cur prev r cols cols 0
  (scans.flatMap Prod.fst, (scans.map Prod.snd).sum)

/-- The operations of one frame: the scan, collapsed into a single `clear` when every current cell
is blank and more than half the screen changed. -/
def diffOps (rows cols : ℕ) (cur prev : List CellState) : List DiffOp :=
  let scan := scanRows rows cols cur prev
  let allCurrentDefault := (cur.take (rows * cols)).all fun cell ↦ decide (cell = default)
  if scan.1 ≠ [] ∧ allCurrentDefault = true ∧ rows * cols / 2 < scan.2 then [.clear] else scan.1

/-! ## The engine -/

/-- The engine's state between frames. -/
structure DiffEngine (B : Type*) where
  backend : B
  prevCells : List CellState
  prevCursor : CursorState
  prevModes : TermModes
  rows : UInt16
  cols : UInt16
  /-- Backend history size at the end of the previous `computeDiff`. -/
  prevHistorySize : ℕ
  /-- Main-screen history size saved when the alternate screen was entered. -/
  savedMainHistorySize : Option ℕ
  mirror : ScrollbackMirror
  /-- The comparison buffer always has the grid's size. -/
  length_prevCells : prevCells.length = rows.toNat * cols.toNat

/-- Result of a diff computation. -/
inductive DiffResult
  | cellDiff (diff : TerminalDiff) (scrollbackLines : List ScrollbackLine)
  | cursorOnly (cursor : CursorState) (modes : TermModes) (historyTotal : ℕ)
  | none
  deriving DecidableEq, Repr

/-- What the history accounting of one frame decides: the lines to capture, whether the backend's
history was wiped, and the counters and mirror it leaves behind. -/
structure HistoryStep where
  lines : List ScrollbackLine
  scrollbackReset : Option ℕ
  prevHistorySize : ℕ
  savedMainHistorySize : Option ℕ
  mirror : ScrollbackMirror

namespace DiffEngine

variable {B : Type*} [TerminalBackend B]

/-- A new engine over a backend, with a blank comparison state. -/
def new (backend : B) : DiffEngine B where
  backend := backend
  prevCells := List.replicate ((size backend).rows.toNat * (size backend).cols.toNat) default
  prevCursor := default
  prevModes := TermModes.empty
  rows := (size backend).rows
  cols := (size backend).cols
  prevHistorySize := historySize backend
  savedMainHistorySize := none
  mirror := ScrollbackMirror.new mirrorCapacity (by decide)
  length_prevCells := List.length_replicate ..

/-- Let the backend move on to another state, as feeding PTY output does. -/
def feed (e : DiffEngine B) (b : B) : DiffEngine B := { e with backend := b }

/-- The history accounting of `compute_diff`. -/
def historyStep (e : DiffEngine B) : HistoryStep :=
  let isAlt := isAltScreen e.backend
  let current := historySize e.backend
  let cols := e.cols.toNat
  if isAlt then
    -- on the alternate screen: save the main history size once, capture nothing
    { lines := []
      scrollbackReset := none
      prevHistorySize := current
      savedMainHistorySize := some (e.savedMainHistorySize.getD e.prevHistorySize)
      mirror := e.mirror }
  else
    match e.savedMainHistorySize with
    | some saved =>
      -- just exited the alternate screen: only what was added since before it was entered
      { lines := if saved < current then readHistoryLines e.backend saved (current - saved) cols
          else []
        scrollbackReset := none
        prevHistorySize := current
        savedMainHistorySize := none
        mirror := e.mirror }
    | none =>
      if e.prevHistorySize < current then
        { lines := readHistoryLines e.backend e.prevHistorySize (current - e.prevHistorySize) cols
          scrollbackReset := none
          prevHistorySize := current
          savedMainHistorySize := none
          mirror := e.mirror }
      else if current < e.prevHistorySize then
        -- the backend's history shrank on the main screen: the inner program wiped it
        { lines := if 0 < current then readHistoryLines e.backend 0 current cols else []
          scrollbackReset := some e.mirror.reset.baseIndex
          prevHistorySize := current
          savedMainHistorySize := none
          mirror := e.mirror.reset }
      else
        { lines := []
          scrollbackReset := none
          prevHistorySize := current
          savedMainHistorySize := none
          mirror := e.mirror }

/-- The cell operations of the next frame. -/
def frameOps (e : DiffEngine B) : List DiffOp :=
  diffOps e.rows.toNat e.cols.toNat (shown e.backend e.rows e.cols).1 e.prevCells

/-- Compute the diff between the current grid and the previous one, capture scrollback, and make
the current grid the previous one. -/
def computeDiff (e : DiffEngine B) : DiffEngine B × DiffResult :=
  let now := shown e.backend e.rows e.cols
  let ops := e.frameOps
  let h := e.historyStep
  let mirror := if h.lines = [] then h.mirror else h.mirror.append h.lines
  let historyTotal := mirror.historyTotal
  let cursorOrModesChanged := now.2.1 ≠ e.prevCursor ∨ now.2.2 ≠ e.prevModes
  let e' : DiffEngine B :=
    { e with
      prevCells := now.1
      prevCursor := now.2.1
      prevModes := now.2.2
      prevHistorySize := h.prevHistorySize
      savedMainHistorySize := h.savedMainHistorySize
      mirror := mirror
      length_prevCells := length_shown .. }
  if ops ≠ [] ∨ h.lines ≠ [] ∨ h.scrollbackReset.isSome then
    (e', .cellDiff
      { ops := ops
        cursor := now.2.1
        modes := now.2.2
        historyTotal := historyTotal
        scrollbackReset := h.scrollbackReset } h.lines)
  else if cursorOrModesChanged then (e', .cursorOnly now.2.1 now.2.2 historyTotal)
  else (e', .none)

/-- A full grid snapshot, for an initial attach or after a resize. -/
def snapshot (e : DiffEngine B) : GridSnapshot :=
  let now := shown e.backend e.rows e.cols
  { rows := e.rows
    cols := e.cols
    cells := now.1
    cursor := now.2.1
    modes := now.2.2
    historyTotal := e.mirror.historyTotal
    scrollbackBase := e.mirror.baseIndex
    scrollbackTail := e.mirror.tail snapshotTailLines }

/-- The lines a resize captures before the backend may drop or reflow them. -/
def resizeDrain (e : DiffEngine B) : List ScrollbackLine :=
  let current := historySize e.backend
  if isAltScreen e.backend = false ∧ e.prevHistorySize < current then
    readHistoryLines e.backend e.prevHistorySize (current - e.prevHistorySize) e.cols.toNat
  else []

/-- Resize the terminal. The viewport comparison state is blanked; the mirror is kept. -/
def resize (e : DiffEngine B) (sz : BackendSize) : DiffEngine B :=
  let backend := TerminalBackend.resize e.backend sz
  { backend := backend
    prevCells := List.replicate (sz.rows.toNat * sz.cols.toNat) default
    prevCursor := default
    prevModes := TermModes.empty
    rows := sz.rows
    cols := sz.cols
    prevHistorySize := historySize backend
    savedMainHistorySize := none
    mirror := e.mirror.append e.resizeDrain
    length_prevCells := List.length_replicate .. }

/-! ## What one frame leaves behind

`computeDiff` is unfolded here once; everything downstream uses these. -/

/-- Appending nothing changes nothing, so the guard around the append can be forgotten. -/
private theorem ite_append_eq (e : DiffEngine B) :
    (if e.historyStep.lines = [] then e.historyStep.mirror
      else e.historyStep.mirror.append e.historyStep.lines)
      = e.historyStep.mirror.append e.historyStep.lines := by
  split
  · rename_i h
    rw [h, ScrollbackMirror.append_nil]
  · rfl

/-- The mirror after a frame, whether or not anything was captured. -/
theorem computeDiff_mirror (e : DiffEngine B) :
    e.computeDiff.1.mirror = e.historyStep.mirror.append e.historyStep.lines := by
  rw [computeDiff]
  simp only [ite_append_eq]
  split
  · rfl
  · split <;> rfl

/-- Only a wipe moves the mirror before the append, and it moves it to its own end. -/
theorem historyStep_mirror (e : DiffEngine B) :
    (e.historyStep.scrollbackReset = none ∧ e.historyStep.mirror = e.mirror) ∨
      (e.historyStep.scrollbackReset = some e.mirror.historyTotal ∧
        e.historyStep.mirror = e.mirror.reset) := by
  rw [historyStep]
  split
  · exact Or.inl ⟨rfl, rfl⟩
  · split
    · exact Or.inl ⟨rfl, rfl⟩
    · split
      · exact Or.inl ⟨rfl, rfl⟩
      · split
        · exact Or.inr ⟨rfl, rfl⟩
        · exact Or.inl ⟨rfl, rfl⟩

theorem historyStep_mirror_historyTotal (e : DiffEngine B) :
    e.historyStep.mirror.historyTotal = e.mirror.historyTotal := by
  rcases e.historyStep_mirror with ⟨-, h⟩ | ⟨-, h⟩ <;> rw [h]
  exact ScrollbackMirror.reset_historyTotal _

/-- Cell operations, captured lines or a wipe make the frame a cell diff. -/
def forcesCellDiff (e : DiffEngine B) : Prop :=
  e.frameOps ≠ [] ∨ e.historyStep.lines ≠ [] ∨ e.historyStep.scrollbackReset.isSome

instance (e : DiffEngine B) : Decidable e.forcesCellDiff :=
  inferInstanceAs (Decidable (_ ∨ _ ∨ _))

/-- The cursor or the modes are not those of the last frame. -/
def cursorOrModesChanged (e : DiffEngine B) : Prop :=
  (shown e.backend e.rows e.cols).2.1 ≠ e.prevCursor ∨
    (shown e.backend e.rows e.cols).2.2 ≠ e.prevModes

instance (e : DiffEngine B) : Decidable e.cursorOrModesChanged :=
  inferInstanceAs (Decidable (_ ∨ _))

/-- The diff a cell frame carries. -/
def frameDiff (e : DiffEngine B) : TerminalDiff :=
  { ops := e.frameOps
    cursor := (shown e.backend e.rows e.cols).2.1
    modes := (shown e.backend e.rows e.cols).2.2
    historyTotal := (e.historyStep.mirror.append e.historyStep.lines).historyTotal
    scrollbackReset := e.historyStep.scrollbackReset }

/-- The result of a frame: a cell diff if one is forced, else a cursor report, else nothing. -/
theorem computeDiff_snd (e : DiffEngine B) :
    e.computeDiff.2 =
      if e.forcesCellDiff then .cellDiff e.frameDiff e.historyStep.lines
      else if e.cursorOrModesChanged then
        .cursorOnly e.frameDiff.cursor e.frameDiff.modes e.frameDiff.historyTotal
      else .none := by
  rw [computeDiff]
  simp only [ite_append_eq]
  split
  · rename_i hcell
    rw [if_pos (show e.forcesCellDiff from hcell)]
    rfl
  · rename_i hcell
    rw [if_neg (show ¬e.forcesCellDiff from hcell)]
    split
    · rename_i hcursor
      rw [if_pos (show e.cursorOrModesChanged from hcursor)]
      rfl
    · rename_i hcursor
      rw [if_neg (show ¬e.cursorOrModesChanged from hcursor)]

/-- The engine after a frame compares against what the frame showed. -/
structure Observed (e e' : DiffEngine B) : Prop where
  backend : e'.backend = e.backend
  rows : e'.rows = e.rows
  cols : e'.cols = e.cols
  prevCells : e'.prevCells = (shown e.backend e.rows e.cols).1
  prevCursor : e'.prevCursor = (shown e.backend e.rows e.cols).2.1
  prevModes : e'.prevModes = (shown e.backend e.rows e.cols).2.2
  prevHistorySize : e'.prevHistorySize = e.historyStep.prevHistorySize
  savedMainHistorySize : e'.savedMainHistorySize = e.historyStep.savedMainHistorySize
  mirror : e'.mirror = e.historyStep.mirror.append e.historyStep.lines

theorem observed_computeDiff (e : DiffEngine B) : Observed e e.computeDiff.1 := by
  have hmirror := e.computeDiff_mirror
  rw [computeDiff] at hmirror ⊢
  by_cases hcell :
      e.frameOps ≠ [] ∨ e.historyStep.lines ≠ [] ∨ e.historyStep.scrollbackReset.isSome
  · simp only [if_pos hcell] at hmirror ⊢
    exact ⟨rfl, rfl, rfl, rfl, rfl, rfl, rfl, rfl, hmirror⟩
  · simp only [if_neg hcell] at hmirror ⊢
    split at hmirror <;> rename_i hcursor
    · simp only [if_pos hcursor]
      exact ⟨rfl, rfl, rfl, rfl, rfl, rfl, rfl, rfl, hmirror⟩
    · simp only [if_neg hcursor]
      exact ⟨rfl, rfl, rfl, rfl, rfl, rfl, rfl, rfl, hmirror⟩

end DiffEngine

end Kmux
