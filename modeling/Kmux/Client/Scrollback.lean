import Kmux.Lib.Window
import Kmux.Protocol.Vt

/-!
# The client's scrollback buffer

`ScrollbackBuffer` is the client's ring of scrollback lines, in the same absolute index space as
the daemon's mirror but with a capacity of its own. Unlike the mirror it can be re-anchored: a
snapshot seeds it, a wipe moves it, and a contiguity failure clears it back to index zero.
-/

namespace Kmux

/-- Maximum number of scrollback lines per pane kept on the client. -/
def maxScrollbackLines : ℕ := 50000

/-- Ring buffer of scrollback lines, oldest first. -/
structure ScrollbackBuffer where
  lines : List ScrollbackLine
  maxLines : ℕ
  baseIndex : ℕ
  /-- A buffer holds at least one line. -/
  maxLines_pos : 0 < maxLines
  /-- The bound the append loops maintain. -/
  length_le : lines.length ≤ maxLines

namespace ScrollbackBuffer

def new (maxLines : ℕ) (h : 0 < maxLines) : ScrollbackBuffer :=
  { lines := [], maxLines, baseIndex := 0, maxLines_pos := h, length_le := by simp }

instance : Inhabited ScrollbackBuffer := ⟨new maxScrollbackLines (by decide)⟩

/-- Absolute count of lines ever appended. -/
def historyTotal (s : ScrollbackBuffer) : ℕ := s.baseIndex + s.lines.length

/-- One round of the append loops: make room if the buffer is full, then add the line. -/
def pushLine (s : ScrollbackBuffer) (line : ScrollbackLine) : ScrollbackBuffer :=
  if h : s.maxLines ≤ s.lines.length then
    { s with
      lines := s.lines.tail ++ [line]
      baseIndex := s.baseIndex + 1
      length_le := by
        have := s.maxLines_pos
        have := s.length_le
        rw [List.length_append, List.length_tail, List.length_singleton]
        omega }
  else
    { s with
      lines := s.lines ++ [line]
      length_le := by
        rw [List.length_append, List.length_singleton]
        omega }

/-- Append lines the caller claims start at absolute index `firstIndex`; the flag says whether the
append was contiguous. A gap or an overlap leaves the buffer alone. -/
def appendWithIndex (s : ScrollbackBuffer) (firstIndex : ℕ) (newLines : List ScrollbackLine) :
    ScrollbackBuffer × Bool :=
  if firstIndex ≠ s.historyTotal then (s, false) else (newLines.foldl pushLine s, true)

/-- Drop every held line and anchor the buffer at `base`. -/
def resetTo (s : ScrollbackBuffer) (base : ℕ) : ScrollbackBuffer :=
  { s with lines := [], baseIndex := base, length_le := by simp }

/-- Clear all scrollback, resetting the base to zero. -/
def clear (s : ScrollbackBuffer) : ScrollbackBuffer := s.resetTo 0

/-- Reseed the buffer with a contiguous tail ending at absolute index `historyTotal`. A seed that
lies entirely behind what is held is ignored. -/
def seedTail (s : ScrollbackBuffer) (historyTotal : ℕ) (tail : List ScrollbackLine) :
    ScrollbackBuffer :=
  if tail = [] ∧ historyTotal ≤ s.historyTotal then s
  else if historyTotal ≤ s.baseIndex then s
  else tail.foldl pushLine (s.resetTo (historyTotal - tail.length))

/-- The lines left once everything older than `base` is dropped, with the index they start at. -/
def evictLoop (base : ℕ) : List ScrollbackLine → ℕ → List ScrollbackLine × ℕ
  | [], baseIndex => if baseIndex < base then ([], base) else ([], baseIndex)
  | line :: lines, baseIndex =>
    if baseIndex < base then evictLoop base lines (baseIndex + 1) else (line :: lines, baseIndex)

theorem evictLoop_eq (base : ℕ) : ∀ (lines : List ScrollbackLine) (baseIndex : ℕ),
    evictLoop base lines baseIndex = (lines.drop (base - baseIndex), max baseIndex base) := by
  intro lines
  induction lines with
  | nil =>
    intro baseIndex
    rw [evictLoop, List.drop_nil]
    split
    · rw [max_eq_right (by omega)]
    · rw [max_eq_left (by omega)]
  | cons line lines ih =>
    intro baseIndex
    rw [evictLoop]
    by_cases h : baseIndex < base
    · rw [if_pos h, ih, show base - baseIndex = base - (baseIndex + 1) + 1 by omega,
        List.drop_succ_cons, max_eq_right (by omega), max_eq_right (by omega)]
    · rw [if_neg h, show base - baseIndex = 0 by omega, List.drop_zero, max_eq_left (by omega)]

/-- Drop every line older than absolute index `base`. A buffer that holds fewer lines than that
empties and is anchored at `base`. -/
def evictBefore (s : ScrollbackBuffer) (base : ℕ) : ScrollbackBuffer :=
  { s with
    lines := (evictLoop base s.lines s.baseIndex).1
    baseIndex := (evictLoop base s.lines s.baseIndex).2
    length_le := by
      have := s.length_le
      rw [evictLoop_eq, List.length_drop]
      omega }

/-- A line by absolute index; `none` if evicted or not yet received. -/
def getAbsolute (s : ScrollbackBuffer) (abs : ℕ) : Option ScrollbackLine :=
  if abs < s.baseIndex then none else s.lines[abs - s.baseIndex]?

/-! ## The buffer as a window -/

/-- The held lines with their absolute position, capacity forgotten. -/
def toWindow (s : ScrollbackBuffer) : Window ScrollbackLine := ⟨s.baseIndex, s.lines⟩

theorem getAbsolute_eq (s : ScrollbackBuffer) (abs : ℕ) :
    s.getAbsolute abs = s.toWindow.get? abs := rfl

theorem pushLine_toWindow (s : ScrollbackBuffer) (line : ScrollbackLine) :
    (s.pushLine line).toWindow = Window.push s.maxLines s.toWindow line := by
  rw [pushLine, Window.push]
  by_cases h : s.maxLines ≤ s.lines.length
  · rw [dif_pos h, if_pos (show s.maxLines ≤ s.toWindow.items.length from h)]
    rfl
  · rw [dif_neg h, if_neg (show ¬s.maxLines ≤ s.toWindow.items.length from h)]
    rfl

@[simp] theorem pushLine_maxLines (s : ScrollbackBuffer) (line : ScrollbackLine) :
    (s.pushLine line).maxLines = s.maxLines := by
  rw [pushLine]
  split <;> rfl

@[simp] theorem foldl_pushLine_maxLines (newLines : List ScrollbackLine) :
    ∀ s : ScrollbackBuffer, (newLines.foldl pushLine s).maxLines = s.maxLines := by
  induction newLines with
  | nil => intro s; rfl
  | cons l ls ih => intro s; rw [List.foldl_cons, ih, pushLine_maxLines]

theorem foldl_pushLine_toWindow (newLines : List ScrollbackLine) :
    ∀ s : ScrollbackBuffer,
      (newLines.foldl pushLine s).toWindow = Window.append s.maxLines s.toWindow newLines := by
  induction newLines with
  | nil => intro s; rfl
  | cons l ls ih =>
    intro s
    rw [List.foldl_cons, ih, pushLine_maxLines, pushLine_toWindow, Window.append, Window.append,
      List.foldl_cons]

theorem foldl_pushLine_lines (s : ScrollbackBuffer) (newLines : List ScrollbackLine) :
    (newLines.foldl pushLine s).lines
      = (s.lines ++ newLines).drop (s.lines.length + newLines.length - s.maxLines) := by
  have h := Window.append_items s.maxLines_pos newLines s.toWindow s.length_le
  rw [← foldl_pushLine_toWindow] at h
  exact h

theorem foldl_pushLine_baseIndex (s : ScrollbackBuffer) (newLines : List ScrollbackLine) :
    (newLines.foldl pushLine s).baseIndex
      = s.baseIndex + (s.lines.length + newLines.length - s.maxLines) := by
  have h := Window.append_base s.maxLines_pos newLines s.toWindow s.length_le
  rw [← foldl_pushLine_toWindow] at h
  exact h

theorem foldl_pushLine_historyTotal (s : ScrollbackBuffer) (newLines : List ScrollbackLine) :
    (newLines.foldl pushLine s).historyTotal = s.historyTotal + newLines.length := by
  have h := Window.append_total s.maxLines_pos newLines (w := s.toWindow) s.length_le
  rw [← foldl_pushLine_toWindow] at h
  exact h

/-! ## Re-anchoring -/

@[simp] theorem resetTo_lines (s : ScrollbackBuffer) (base : ℕ) : (s.resetTo base).lines = [] :=
  rfl

@[simp] theorem resetTo_baseIndex (s : ScrollbackBuffer) (base : ℕ) :
    (s.resetTo base).baseIndex = base := rfl

@[simp] theorem resetTo_maxLines (s : ScrollbackBuffer) (base : ℕ) :
    (s.resetTo base).maxLines = s.maxLines := rfl

@[simp] theorem resetTo_historyTotal (s : ScrollbackBuffer) (base : ℕ) :
    (s.resetTo base).historyTotal = base := rfl

@[simp] theorem evictBefore_lines (s : ScrollbackBuffer) (base : ℕ) :
    (s.evictBefore base).lines = s.lines.drop (base - s.baseIndex) :=
  congrArg Prod.fst (evictLoop_eq base s.lines s.baseIndex)

@[simp] theorem evictBefore_baseIndex (s : ScrollbackBuffer) (base : ℕ) :
    (s.evictBefore base).baseIndex = max s.baseIndex base :=
  congrArg Prod.snd (evictLoop_eq base s.lines s.baseIndex)

@[simp] theorem evictBefore_maxLines (s : ScrollbackBuffer) (base : ℕ) :
    (s.evictBefore base).maxLines = s.maxLines := rfl

/-- There is nothing to drop before the base. -/
theorem evictBefore_eq_self {s : ScrollbackBuffer} {base : ℕ} (h : base ≤ s.baseIndex) :
    s.evictBefore base = s := by
  obtain ⟨lines, maxLines, baseIndex, hpos, hle⟩ := s
  change base ≤ baseIndex at h
  have hloop : evictLoop base lines baseIndex = (lines, baseIndex) := by
    rw [evictLoop_eq, Nat.sub_eq_zero_of_le h, List.drop_zero, max_eq_left h]
  simp only [evictBefore, hloop]

theorem evictBefore_historyTotal (s : ScrollbackBuffer) (base : ℕ) :
    (s.evictBefore base).historyTotal = max s.historyTotal base := by
  rw [historyTotal, evictBefore_lines, evictBefore_baseIndex, List.length_drop, historyTotal]
  omega

theorem getAbsolute_evictBefore (s : ScrollbackBuffer) (base i : ℕ) :
    (s.evictBefore base).getAbsolute i = if i < base then none else s.getAbsolute i := by
  have hwindow : (s.evictBefore base).toWindow
      = ⟨s.baseIndex + (base - s.baseIndex), s.lines.drop (base - s.baseIndex)⟩ := by
    rw [toWindow, evictBefore_lines, evictBefore_baseIndex,
      show max s.baseIndex base = s.baseIndex + (base - s.baseIndex) by omega]
  rw [getAbsolute_eq, hwindow, getAbsolute_eq]
  refine (Window.get?_drop s.toWindow (base - s.baseIndex) i).trans ?_
  change (if i < s.baseIndex + (base - s.baseIndex) then none else _) = _
  by_cases hi : i < base
  · rw [if_pos (by omega), if_pos hi]
  by_cases hbase : i < s.baseIndex
  · rw [if_pos (by omega), if_neg hi, Window.get?, if_pos (show i < s.toWindow.base from hbase)]
  · rw [if_neg (by omega), if_neg hi]

theorem baseIndex_le_historyTotal (s : ScrollbackBuffer) : s.baseIndex ≤ s.historyTotal :=
  Nat.le_add_right _ _

end ScrollbackBuffer

end Kmux
