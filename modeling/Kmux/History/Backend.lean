import Kmux.VtCore.MockBackend

/-!
# The emulator's history

The engine never sees a line scroll off the screen. It compares the history sizes the emulator
reports and reads the difference. Behind the reports stands the history of the main screen: a
bounded queue of lines, hidden while the alternate screen is shown.

`HistoryView` is that queue, `TermOutput` what program output can do to it, and `HistoryBackend` is
a backend whose reports are read off a view and whose history is not reflowed by a resize. The
emulator itself stays a parameter. The closed forms at the end say what one frame and one resize
capture in terms of the view; the accounting is unfolded nowhere else.
-/

namespace Kmux

open TerminalBackend

/-- Lines of history an emulator is asked to keep. -/
def defaultScrollback : ℕ := 50000

/-- What a piece of program output does to the history of the main screen. -/
inductive TermOutput
  /-- Anything that leaves history and screen buffer alone. -/
  | draw
  /-- The screen scrolls by one line. -/
  | scroll (line : ScrollbackLine)
  /-- The history is erased: `CSI 3J`, `RIS`. -/
  | wipe
  | enterAlt
  | exitAlt
  deriving DecidableEq, Repr

/-- The history of the main screen, and whether it is hidden. -/
structure HistoryView where
  /-- Oldest first. -/
  lines : List ScrollbackLine
  altScreen : Bool
  cap : ℕ
  /-- The queue is bounded. -/
  length_le : lines.length ≤ cap
  deriving DecidableEq

namespace HistoryView

/-- The size the emulator reports. -/
def size (v : HistoryView) : ℕ := if v.altScreen then 0 else v.lines.length

/-- Add a line; a full history forgets its oldest one. -/
def push (v : HistoryView) (line : ScrollbackLine) : HistoryView :=
  { v with
    lines := (v.lines ++ [line]).drop (v.lines.length + 1 - v.cap)
    length_le := by
      rw [List.length_drop, List.length_append, List.length_singleton]
      omega }

/-- The view after a piece of output. The alternate screen keeps no history. -/
def after (v : HistoryView) : TermOutput → HistoryView
  | .draw => v
  | .scroll line => if v.altScreen then v else v.push line
  | .wipe => { v with lines := [], length_le := Nat.zero_le _ }
  | .enterAlt => { v with altScreen := true }
  | .exitAlt => { v with altScreen := false }

theorem size_of_main {v : HistoryView} (h : v.altScreen = false) : v.size = v.lines.length := by
  rw [size, h]
  rfl

theorem size_of_alt {v : HistoryView} (h : v.altScreen = true) : v.size = 0 := by
  rw [size, h]
  rfl

theorem size_le_cap (v : HistoryView) : v.size ≤ v.cap := by
  have hle := v.length_le
  rw [size]
  split <;> omega

/-- Below the cap nothing is forgotten. -/
theorem push_lines_of_lt {v : HistoryView} (h : v.lines.length < v.cap) (line : ScrollbackLine) :
    (v.push line).lines = v.lines ++ [line] := by
  change (v.lines ++ [line]).drop (v.lines.length + 1 - v.cap) = _
  rw [Nat.sub_eq_zero_of_le h, List.drop_zero]

@[simp] theorem after_cap (v : HistoryView) (o : TermOutput) : (v.after o).cap = v.cap := by
  cases o with
  | scroll line =>
    rw [after]
    split <;> rfl
  | draw | wipe | enterAlt | exitAlt => rfl

end HistoryView

/-- A terminal backend whose history reports are read off a view, and whose resize does not reflow
the history. -/
class HistoryBackend (B : Type*) extends TerminalBackend B where
  view : B → HistoryView
  isAltScreen_eq : ∀ b, isAltScreen b = (view b).altScreen
  historySize_eq : ∀ b, historySize b = (view b).size
  readHistoryLines_eq : ∀ b start count cols, (view b).altScreen = false →
    readHistoryLines b start count cols = ((view b).lines.drop start).take count
  view_resize : ∀ b sz, view (resize b sz) = view b

open HistoryBackend

/-- The scrollback lines a frame carries out to the clients. -/
def DiffResult.scrollbackLines : DiffResult → List ScrollbackLine
  | .cellDiff _ lines => lines
  | .cursorOnly .. => []
  | .none => []

namespace DiffEngine

section Counters

variable {B : Type*} [TerminalBackend B]

/-- A frame carries exactly the lines it captured. -/
theorem computeDiff_scrollbackLines (e : DiffEngine B) :
    e.computeDiff.2.scrollbackLines = e.historyStep.lines := by
  rw [computeDiff_snd]
  by_cases hcell : e.forcesCellDiff
  · rw [if_pos hcell]
    rfl
  · have hlines : e.historyStep.lines = [] :=
      by_contra fun hlines ↦ hcell (Or.inr (Or.inl hlines))
    rw [if_neg hcell, hlines]
    split <;> rfl

/-- The main-screen history size the engine has accounted for. -/
def baseline (e : DiffEngine B) : ℕ := e.savedMainHistorySize.getD e.prevHistorySize

/-- The next frame takes the history for wiped: it shrank on the main screen, and no size was saved
on the alternate one. -/
def WipeSeen (e : DiffEngine B) : Prop :=
  isAltScreen e.backend = false ∧ e.savedMainHistorySize = none ∧
    historySize e.backend < e.prevHistorySize

instance (e : DiffEngine B) : Decidable e.WipeSeen := inferInstanceAs (Decidable (_ ∧ _ ∧ _))

end Counters

/-! ## What a frame and a resize capture -/

variable {B : Type*} [HistoryBackend B]

/-- The engine's view of its backend's history. -/
def view (e : DiffEngine B) : HistoryView := HistoryBackend.view e.backend

theorem view_computeDiff (e : DiffEngine B) : e.computeDiff.1.view = e.view := by
  rw [view, e.observed_computeDiff.backend, view]

theorem view_resize (e : DiffEngine B) (sz : BackendSize) : (e.resize sz).view = e.view :=
  HistoryBackend.view_resize e.backend sz

/-- Reading from `start` to the reported size gives what lies beyond `start`. -/
private theorem readHistoryLines_to_size {b : B} {start cols : ℕ}
    (hmain : (HistoryBackend.view b).altScreen = false) :
    readHistoryLines b start (historySize b - start) cols
      = (HistoryBackend.view b).lines.drop start := by
  rw [readHistoryLines_eq b _ _ _ hmain, historySize_eq, HistoryView.size_of_main hmain,
    ← List.length_drop, List.take_length]

/-- On the alternate screen nothing is captured, and the main-screen size is remembered. -/
theorem historyStep_of_alt {e : DiffEngine B} (h : e.view.altScreen = true) :
    e.historyStep =
      { lines := []
        scrollbackReset := none
        prevHistorySize := 0
        savedMainHistorySize := some e.baseline
        mirror := e.mirror } := by
  have hsize : historySize e.backend = 0 :=
    (historySize_eq e.backend).trans (HistoryView.size_of_alt h)
  rw [historyStep, if_pos ((isAltScreen_eq e.backend).trans h), hsize, baseline]

/-- The lines the engine reads on the main screen. -/
private theorem readHistoryLines_of_main {e : DiffEngine B} (h : e.view.altScreen = false)
    (start : ℕ) : readHistoryLines e.backend start (e.view.lines.length - start) e.cols.toNat
      = e.view.lines.drop start := by
  rw [← HistoryView.size_of_main h, view, ← historySize_eq]
  exact readHistoryLines_to_size h

/-- A size was saved on the alternate screen, so no wipe is looked for. -/
private theorem historyStep_of_saved {e : DiffEngine B} {saved : ℕ}
    (h : e.view.altScreen = false) (hsaved : e.savedMainHistorySize = some saved) :
    ¬e.WipeSeen ∧ e.historyStep =
      { lines := e.view.lines.drop saved
        scrollbackReset := none
        prevHistorySize := e.view.lines.length
        savedMainHistorySize := none
        mirror := e.mirror } := by
  have halt : isAltScreen e.backend = false := (isAltScreen_eq e.backend).trans h
  have hsize : historySize e.backend = e.view.lines.length :=
    (historySize_eq e.backend).trans (HistoryView.size_of_main h)
  constructor
  · rintro ⟨-, hnone, -⟩
    exact absurd (hsaved.symm.trans hnone) (by simp)
  · rw [historyStep, if_neg (by rw [halt]; decide), hsize, hsaved]
    by_cases hgrew : saved < e.view.lines.length
    · simp only [if_pos hgrew, readHistoryLines_of_main h]
    · simp only [if_neg hgrew, List.drop_eq_nil_of_le (not_lt.mp hgrew)]

/-- A shrunken history is read from the start. -/
private theorem readHistoryLines_all {e : DiffEngine B} (h : e.view.altScreen = false) :
    (if 0 < e.view.lines.length then
      readHistoryLines e.backend 0 e.view.lines.length e.cols.toNat else []) = e.view.lines := by
  by_cases hpos : 0 < e.view.lines.length
  · have hall := readHistoryLines_of_main h 0
    rw [Nat.sub_zero, List.drop_zero] at hall
    rw [if_pos hpos, hall]
  · rw [if_neg hpos, List.length_eq_zero_iff.mp (Nat.eq_zero_of_not_pos hpos)]

/-- On the main screen everything beyond the accounted size is captured, or everything there is
when a wipe is seen. -/
theorem historyStep_of_main {e : DiffEngine B} (h : e.view.altScreen = false) :
    e.historyStep =
      { lines := if e.WipeSeen then e.view.lines else e.view.lines.drop e.baseline
        scrollbackReset := if e.WipeSeen then some e.mirror.historyTotal else none
        prevHistorySize := e.view.lines.length
        savedMainHistorySize := none
        mirror := if e.WipeSeen then e.mirror.reset else e.mirror } := by
  cases hsaved : e.savedMainHistorySize with
  | some saved =>
    obtain ⟨hseen, hstep⟩ := historyStep_of_saved h hsaved
    rw [if_neg hseen, if_neg hseen, if_neg hseen, hstep, baseline, hsaved, Option.getD_some]
  | none =>
    have halt : isAltScreen e.backend = false := (isAltScreen_eq e.backend).trans h
    have hsize : historySize e.backend = e.view.lines.length :=
      (historySize_eq e.backend).trans (HistoryView.size_of_main h)
    have hseen : e.WipeSeen ↔ e.view.lines.length < e.prevHistorySize := by
      rw [WipeSeen, hsize]
      exact ⟨fun hs ↦ hs.2.2, fun hlt ↦ ⟨halt, hsaved, hlt⟩⟩
    rw [historyStep, if_neg (by rw [halt]; decide), hsize, hsaved, baseline, hsaved,
      Option.getD_none]
    simp only [hseen]
    -- grown, shrunk, or the same size
    by_cases hgrew : e.prevHistorySize < e.view.lines.length
    · have hkept : ¬e.view.lines.length < e.prevHistorySize := not_lt.mpr hgrew.le
      simp only [if_pos hgrew, if_neg hkept, readHistoryLines_of_main h]
    · by_cases hshrank : e.view.lines.length < e.prevHistorySize
      · simp only [if_neg hgrew, if_pos hshrank, readHistoryLines_all h,
          ScrollbackMirror.reset_baseIndex]
      · simp only [if_neg hgrew, if_neg hshrank, List.drop_eq_nil_of_le (not_lt.mp hgrew)]

/-- How many lines a frame that sees no wipe captures. -/
def outstanding (e : DiffEngine B) : ℕ :=
  if e.view.altScreen then 0 else e.view.lines.length - e.baseline

/-- A frame that sees no wipe only adds what is outstanding. -/
theorem historyStep_of_not_wipeSeen {e : DiffEngine B} (h : ¬e.WipeSeen) :
    e.historyStep.scrollbackReset = none ∧ e.historyStep.mirror = e.mirror ∧
      e.historyStep.lines.length = e.outstanding := by
  rw [outstanding]
  cases halt : e.view.altScreen with
  | true =>
    rw [historyStep_of_alt halt]
    exact ⟨rfl, rfl, rfl⟩
  | false =>
    rw [historyStep_of_main halt, if_neg h, if_neg h, if_neg h]
    exact ⟨rfl, rfl, List.length_drop⟩

/-- A frame that sees a wipe starts the mirror over where it ended. -/
theorem historyStep_of_wipeSeen {e : DiffEngine B} (h : e.WipeSeen) :
    e.historyStep.scrollbackReset = some e.mirror.historyTotal ∧
      e.historyStep.mirror = e.mirror.reset := by
  have hmain : e.view.altScreen = false := (isAltScreen_eq e.backend).symm.trans h.1
  rw [historyStep_of_main hmain, if_pos h, if_pos h, if_pos h]
  exact ⟨rfl, rfl⟩

theorem resizeDrain_of_alt {e : DiffEngine B} (h : e.view.altScreen = true) :
    e.resizeDrain = [] := by
  rw [resizeDrain, (isAltScreen_eq e.backend).trans h]
  exact if_neg (by simp)

/-- A resize captures from the last size seen on whichever screen, not from the accounted one. -/
theorem resizeDrain_of_main {e : DiffEngine B} (h : e.view.altScreen = false) :
    e.resizeDrain = e.view.lines.drop e.prevHistorySize := by
  have halt : isAltScreen e.backend = false := (isAltScreen_eq e.backend).trans h
  have hsize : historySize e.backend = e.view.lines.length :=
    (historySize_eq e.backend).trans (HistoryView.size_of_main h)
  rw [resizeDrain]
  by_cases hgrew : e.prevHistorySize < historySize e.backend
  · rw [if_pos ⟨halt, hgrew⟩]
    exact readHistoryLines_to_size h
  · rw [hsize] at hgrew
    rw [if_neg (by rw [hsize]; exact fun hc ↦ hgrew hc.2),
      List.drop_eq_nil_of_le (not_lt.mp hgrew)]

theorem resize_prevHistorySize (e : DiffEngine B) (sz : BackendSize) :
    (e.resize sz).prevHistorySize = e.view.size := by
  rw [resize, historySize_eq, HistoryBackend.view_resize, view]

end DiffEngine

/-! ## A mock with a history -/

/-- The mock screen in front of a history. -/
structure MockTerminal where
  screen : MockBackend
  view : HistoryView

namespace MockTerminal

/-- A blank terminal that keeps up to `cap` lines of history. -/
def new (rows cols : UInt16) (cap : ℕ) : MockTerminal :=
  { screen := MockBackend.new rows cols
    view := { lines := [], altScreen := false, cap, length_le := Nat.zero_le _ } }

/-- Let a piece of output act on the history. -/
def emit (t : MockTerminal) (o : TermOutput) : MockTerminal := { t with view := t.view.after o }

instance : HistoryBackend MockTerminal where
  size t := t.screen.size
  fillCellsAndCursor t out := (t.screen.fillCells out, t.screen.cursorState, t.screen.modeFlags)
  resize t sz := { t with screen := t.screen.resize sz }
  isAltScreen t := t.view.altScreen
  historySize t := t.view.size
  readHistoryLines t start count _cols := (t.view.lines.drop start).take count
  length_fillCells t := t.screen.length_fillCells
  view := MockTerminal.view
  isAltScreen_eq _ := rfl
  historySize_eq _ := rfl
  readHistoryLines_eq _ _ _ _ _ := rfl
  view_resize _ _ := rfl

end MockTerminal

end Kmux
