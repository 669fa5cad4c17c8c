import Kmux.VtCore.DiffEngine

/-!
# The mock backend

The repository's own stand-in for a terminal emulator: whatever is put in its fields is what the
engine sees. It has no parser, so a run over it is a list of its states. The concrete runs of this
development use it.
-/

namespace Kmux

/-- A cell of text. -/
def letterA : CellState := { (default : CellState) with c := 'A' }

/-- A terminal whose screen and history are set directly. -/
structure MockBackend where
  cells : List CellState
  cursorState : CursorState
  modeFlags : TermModes
  altScreen : Bool
  historyLen : ℕ
  historyLines : List (List CellState)
  size : BackendSize
  deriving DecidableEq, Repr

namespace MockBackend

/-- A blank mock terminal. -/
def new (rows cols : UInt16) : MockBackend :=
  { cells := List.replicate (rows.toNat * cols.toNat) default
    cursorState := default
    modeFlags := TermModes.empty
    altScreen := false
    historyLen := 0
    historyLines := []
    size := { rows, cols, pixelWidth := 0, pixelHeight := 0 } }

/-- Copy the cells over the front of the buffer. -/
def fillCells (b : MockBackend) (out : List CellState) : List CellState :=
  let n := min b.cells.length out.length
  b.cells.take n ++ out.drop n

theorem length_fillCells (b : MockBackend) (out : List CellState) :
    (b.fillCells out).length = out.length := by
  rw [fillCells, List.length_append, List.length_take, List.length_drop]
  omega

/-- Take over the new size; cells are kept, cut off or padded with blanks. -/
def resize (b : MockBackend) (size : BackendSize) : MockBackend :=
  let n := size.rows.toNat * size.cols.toNat
  { b with size, cells := b.cells.take n ++ List.replicate (n - b.cells.length) default }

def readHistoryLines (b : MockBackend) (start count _cols : ℕ) : List ScrollbackLine :=
  (b.historyLines.drop start).take count

instance : TerminalBackend MockBackend where
  size := MockBackend.size
  fillCellsAndCursor b out := (b.fillCells out, b.cursorState, b.modeFlags)
  resize := MockBackend.resize
  isAltScreen := MockBackend.altScreen
  historySize := MockBackend.historyLen
  readHistoryLines := MockBackend.readHistoryLines
  length_fillCells := MockBackend.length_fillCells

end MockBackend

end Kmux
