import Mathlib.Algebra.GroupWithZero.Nat
import Mathlib.Data.List.Basic

/-!
# Terminal state on the wire

The data the daemon and its clients exchange about one pane: cells, cursor, modes, frame diffs,
full snapshots, and the digest that certifies a reconstructed grid. The types follow
`kmux-protocol/src/messages/vt.rs` field by field.

Absolute scrollback indices and sequence numbers are `u64` counters in the source and `ℕ` here:
they only ever grow by one per line or per frame. Cell coordinates stay `UInt16`, because the
engine narrows a `usize` column into one and the client widens it back, and that the round trip
loses nothing is part of what has to be proved.
-/

namespace Kmux

/-! ## Cells -/

/-- Portable cell colour, resolved to RGB on the server. -/
structure CellColor where
  r : UInt8
  g : UInt8
  b : UInt8
  deriving DecidableEq, Repr

/-- Packed attribute bitfield. -/
structure CellAttrs where
  bits : UInt16
  deriving DecidableEq, Repr

namespace CellAttrs

def bold : UInt16 := (1 : UInt16) <<< 0
def italic : UInt16 := (1 : UInt16) <<< 1
def underline : UInt16 := (1 : UInt16) <<< 2
def strikethrough : UInt16 := (1 : UInt16) <<< 3

/-- The colours of the cell are already swapped for display. -/
def inverse : UInt16 := (1 : UInt16) <<< 4

def hidden : UInt16 := (1 : UInt16) <<< 5
def dim : UInt16 := (1 : UInt16) <<< 6
def blink : UInt16 := (1 : UInt16) <<< 7
def wideChar : UInt16 := (1 : UInt16) <<< 8
def wideCharSpacer : UInt16 := (1 : UInt16) <<< 9

/-- Displayed foreground uses the terminal's default foreground colour. -/
def defaultFg : UInt16 := (1 : UInt16) <<< 10

/-- Displayed background uses the terminal's default background colour. -/
def defaultBg : UInt16 := (1 : UInt16) <<< 11

/-- Whether a flag is set. -/
def contains (a : CellAttrs) (flag : UInt16) : Bool := a.bits &&& flag != 0

theorem contains_or (a b flag : UInt16) :
    contains ⟨a ||| b⟩ flag = (contains ⟨a⟩ flag || contains ⟨b⟩ flag) := by
  have hdistrib : (a ||| b) &&& flag = (a &&& flag) ||| (b &&& flag) :=
    UInt16.toBitVec_inj.mp BitVec.and_or_distrib_right
  rw [Bool.eq_iff_iff, Bool.or_eq_true, contains, contains, contains, bne_iff_ne, bne_iff_ne,
    bne_iff_ne, hdistrib, Ne, UInt16.or_eq_zero_iff]
  exact Decidable.not_and_iff_not_or_not

end CellAttrs

/-- State of a single terminal cell: character, colours and attributes. -/
structure CellState where
  c : Char
  fg : CellColor
  bg : CellColor
  attrs : CellAttrs
  deriving DecidableEq, Repr

/-- The blank cell, `CellState::default()`. -/
instance : Inhabited CellState where
  default :=
    { c := ' '
      fg := ⟨0xab, 0xb2, 0xbf⟩
      bg := ⟨0x28, 0x2c, 0x34⟩
      attrs := ⟨CellAttrs.defaultFg ||| CellAttrs.defaultBg⟩ }

/-- One scrollback line, at the width it had when it scrolled off. -/
abbrev ScrollbackLine := List CellState

/-! ## Cursor and modes -/

/-- Cursor shape in the terminal. -/
inductive CursorShape
  | block
  | underline
  | bar
  | hollowBlock
  | hidden
  deriving DecidableEq, Repr

/-- Cursor position and appearance. -/
structure CursorState where
  row : UInt16
  col : UInt16
  shape : CursorShape
  visible : Bool
  blink : Bool
  deriving DecidableEq, Repr

instance : Inhabited CursorState where
  default := { row := 0, col := 0, shape := .block, visible := true, blink := false }

/-- Terminal mode flags sent alongside diffs. -/
structure TermModes where
  bits : UInt16
  deriving DecidableEq, Repr

/-- No mode set. -/
def TermModes.empty : TermModes := ⟨0⟩

/-! ## Diffs and snapshots -/

/-- A single diff operation describing changed cells. -/
inductive DiffOp
  /-- A single cell changed. -/
  | cell (row col : UInt16) (cell : CellState)
  /-- A contiguous run of cells changed on the same row. -/
  | row (row startCol : UInt16) (cells : List CellState)
  /-- The entire screen was cleared. -/
  | clear
  deriving DecidableEq, Repr

/-- A set of cell changes together with the cursor and mode state of one frame. Scrollback lines
travel out of band, keyed by absolute index. -/
structure TerminalDiff where
  ops : List DiffOp
  cursor : CursorState
  modes : TermModes
  /-- The mirror's `history_total` as of this frame. -/
  historyTotal : ℕ
  /-- Set when the inner program wiped scrollback this frame: the new oldest absolute index. -/
  scrollbackReset : Option ℕ
  deriving DecidableEq, Repr

/-- Full grid snapshot, sent on attach or after a resize. -/
structure GridSnapshot where
  rows : UInt16
  cols : UInt16
  /-- Row-major cell data. -/
  cells : List CellState
  cursor : CursorState
  modes : TermModes
  /-- Absolute number of lines ever scrolled off from this pane. -/
  historyTotal : ℕ
  /-- Oldest absolute scrollback index the daemon can still serve. -/
  scrollbackBase : ℕ
  /-- The last few scrollback lines, oldest first. -/
  scrollbackTail : List ScrollbackLine
  deriving DecidableEq, Repr

/-! ## The grid digest -/

/-- The little-endian bytes of an unsigned integer of `width` bytes. -/
def toLeBytes (width n : ℕ) : List UInt8 :=
  (List.range width).map fun i ↦ UInt8.ofNat (n / 256 ^ i)

/-- State of the hand-rolled 128-bit FNV-1a hasher. -/
abbrev Fnv1a128 := BitVec 128

namespace Fnv1a128

def offset : Fnv1a128 := 0x6c62272e07bb014262b821756295c58d#128

def prime : Fnv1a128 := 0x0000000001000000000000000000013b#128

def write (h : Fnv1a128) (bytes : List UInt8) : Fnv1a128 :=
  bytes.foldl (fun h b ↦ (h ^^^ BitVec.ofNat 128 b.toNat) * prime) h

/-- Feed one cell in a fixed field order. -/
def writeCell (h : Fnv1a128) (cell : CellState) : Fnv1a128 :=
  let h := write h (toLeBytes 4 cell.c.toNat)
  let h := write h [cell.fg.r, cell.fg.g, cell.fg.b]
  let h := write h [cell.bg.r, cell.bg.g, cell.bg.b]
  write h (toLeBytes 2 cell.attrs.bits.toNat)

/-- The explicit, stable discriminant of a cursor shape. -/
def shapeCode : CursorShape → UInt8
  | .block => 0
  | .underline => 1
  | .bar => 2
  | .hollowBlock => 3
  | .hidden => 4

def writeCursor (h : Fnv1a128) (cursor : CursorState) : Fnv1a128 :=
  let h := write h (toLeBytes 2 cursor.row.toNat)
  let h := write h (toLeBytes 2 cursor.col.toNat)
  write h [shapeCode cursor.shape, cursor.visible.toUInt8, cursor.blink.toUInt8]

end Fnv1a128

namespace GridSnapshot

open Fnv1a128

/-- Digest of the live state the wire-level oracle compares: the visible grid, cursor, modes, and
the scrollback envelope, but not the scrollback tail contents. -/
def liveDigest (s : GridSnapshot) : Fnv1a128 :=
  let h := write offset (toLeBytes 2 s.rows.toNat)
  let h := write h (toLeBytes 2 s.cols.toNat)
  let h := write h (toLeBytes 8 s.cells.length)
  let h := s.cells.foldl writeCell h
  let h := writeCursor h s.cursor
  let h := write h (toLeBytes 2 s.modes.bits.toNat)
  let h := write h (toLeBytes 8 s.historyTotal)
  write h (toLeBytes 8 s.scrollbackBase)

/-- The live digest reads everything but the scrollback tail. -/
theorem liveDigest_congr {s t : GridSnapshot} (hrows : s.rows = t.rows) (hcols : s.cols = t.cols)
    (hcells : s.cells = t.cells) (hcursor : s.cursor = t.cursor) (hmodes : s.modes = t.modes)
    (htotal : s.historyTotal = t.historyTotal) (hbase : s.scrollbackBase = t.scrollbackBase) :
    s.liveDigest = t.liveDigest := by
  rw [liveDigest, liveDigest, hrows, hcols, hcells, hcursor, hmodes, htotal, hbase]

end GridSnapshot

/-! ## Pane messages -/

/-- Monotonic sequence number attached to each frame of one pane. -/
abbrev SequenceNo := ℕ

/-- The messages of one pane's data stream, with the pane id and the send time left out: the model
follows one pane, and the send time only feeds the latency metrics. -/
inductive ServerMessage
  | terminalSnapshot (snapshot : GridSnapshot) (seqno : SequenceNo)
  | terminalUpdate (diff : TerminalDiff) (seqno : SequenceNo)
  | cursorUpdate (cursor : CursorState) (modes : TermModes) (seqno : SequenceNo)
  | scrollbackAppend (firstIndex : ℕ) (lines : List ScrollbackLine) (seqno : SequenceNo)
  | gridDigest (seqno : SequenceNo) (hash : Fnv1a128)
  | syncReset
  | lagged (missedCount : ℕ)
  | historyLines (requestId : ℕ) (firstIndex : ℕ) (lines : List ScrollbackLine)
      (historyTotal : ℕ)
  deriving DecidableEq, Repr

/-- What a client asks the daemon about one pane. -/
inductive ClientMessage
  | attach (lastSeqno : Option SequenceNo)
  | fetchHistory (requestId startIndex count : ℕ)
  deriving DecidableEq, Repr

end Kmux
