import Kmux.Lib.Window
import Kmux.Protocol.Vt

/-!
# The daemon's scrollback mirror

`ScrollbackMirror` is the bounded, append-only copy of a pane's scrollback the daemon keeps
independently of the emulator. Lines are addressed by an absolute index that never goes backwards:
`historyTotal` is one past the last line ever appended, and `baseIndex` is the oldest line still
held.

The capacity bound is a field, so a mirror that overran it cannot be built. The append loop is
read through the `Window` library, whose closed forms replace it in every later proof.
-/

namespace Kmux

/-- Maximum number of scrollback lines kept in the daemon's per-pane mirror. -/
def mirrorCapacity : ℕ := 10000

/-- Number of tail lines included in a snapshot. -/
def snapshotTailLines : ℕ := 500

/-- Bounded, append-only mirror of a pane's scrollback history. -/
structure ScrollbackMirror where
  baseIndex : ℕ
  lines : List ScrollbackLine
  cap : ℕ
  /-- A mirror holds at least one line. -/
  cap_pos : 0 < cap
  /-- The bound the append loop maintains. -/
  length_le : lines.length ≤ cap

namespace ScrollbackMirror

/-- An empty mirror that holds up to `cap` lines. -/
def new (cap : ℕ) (h : 0 < cap) : ScrollbackMirror :=
  { baseIndex := 0, lines := [], cap, cap_pos := h, length_le := Nat.zero_le _ }

/-- Absolute number of lines ever appended, regardless of eviction. -/
def historyTotal (m : ScrollbackMirror) : ℕ := m.baseIndex + m.lines.length

/-- One round of the append loop: make room if the mirror is full, then add the line. -/
def pushLine (m : ScrollbackMirror) (line : ScrollbackLine) : ScrollbackMirror :=
  if h : m.lines.length = m.cap then
    { m with
      baseIndex := m.baseIndex + 1
      lines := m.lines.tail ++ [line]
      length_le := by
        have := m.cap_pos
        rw [List.length_append, List.length_tail, List.length_singleton]
        omega }
  else
    { m with
      lines := m.lines ++ [line]
      length_le := by
        have := m.length_le
        rw [List.length_append, List.length_singleton]
        omega }

/-- Append lines in oldest-first order, evicting from the front when full. -/
def append (m : ScrollbackMirror) (newLines : List ScrollbackLine) : ScrollbackMirror :=
  newLines.foldl pushLine m

/-- What `append` returns: the absolute index of the first line appended in this call, and the
number of lines appended. -/
def appended (m : ScrollbackMirror) (newLines : List ScrollbackLine) : ℕ × ℕ :=
  (m.historyTotal, newLines.length)

/-- Drop every held line, advancing the base so that absolute indices stay monotonic. -/
def reset (m : ScrollbackMirror) : ScrollbackMirror :=
  { m with baseIndex := m.historyTotal, lines := [], length_le := Nat.zero_le _ }

/-- Fetch up to `count` lines starting at absolute index `start`, with the index of the first line
returned. -/
def range (m : ScrollbackMirror) (start count : ℕ) : ℕ × List ScrollbackLine :=
  if m.historyTotal ≤ start ∨ count = 0 then (max start m.baseIndex, [])
  else
    let effectiveStart := max start m.baseIndex
    let offset := effectiveStart - m.baseIndex
    let stop := min (offset + count) m.lines.length
    (effectiveStart, (m.lines.drop offset).take (stop - offset))

/-- The last `n` lines, for snapshots. -/
def tail (m : ScrollbackMirror) (n : ℕ) : List ScrollbackLine :=
  m.lines.drop (m.lines.length - min n m.lines.length)

/-- Absolute index of the first line in `tail n`. -/
def tailFirstIndex (m : ScrollbackMirror) (n : ℕ) : ℕ := m.historyTotal - min n m.lines.length

/-! ## The mirror as a window -/

/-- The held lines with their absolute position, capacity forgotten. -/
def toWindow (m : ScrollbackMirror) : Window ScrollbackLine := ⟨m.baseIndex, m.lines⟩

theorem pushLine_toWindow (m : ScrollbackMirror) (line : ScrollbackLine) :
    (m.pushLine line).toWindow = Window.push m.cap m.toWindow line := by
  have hle := m.length_le
  rw [pushLine, Window.push]
  by_cases h : m.lines.length = m.cap
  · rw [dif_pos h, if_pos (show m.cap ≤ m.toWindow.items.length from h.ge)]
    rfl
  · have hlt : ¬m.cap ≤ m.lines.length := by omega
    rw [dif_neg h, if_neg (show ¬m.cap ≤ m.toWindow.items.length from hlt)]
    rfl

@[simp] theorem pushLine_cap (m : ScrollbackMirror) (line : ScrollbackLine) :
    (m.pushLine line).cap = m.cap := by
  rw [pushLine]
  split <;> rfl

@[simp] theorem append_cap (m : ScrollbackMirror) (newLines : List ScrollbackLine) :
    (m.append newLines).cap = m.cap := by
  induction newLines generalizing m with
  | nil => rfl
  | cons l ls ih => rw [append, List.foldl_cons, ← append, ih, pushLine_cap]

theorem append_toWindow (m : ScrollbackMirror) (newLines : List ScrollbackLine) :
    (m.append newLines).toWindow = Window.append m.cap m.toWindow newLines := by
  induction newLines generalizing m with
  | nil => rfl
  | cons l ls ih =>
    rw [append, List.foldl_cons, ← append, ih, pushLine_cap, pushLine_toWindow, Window.append,
      Window.append, List.foldl_cons]

theorem append_lines (m : ScrollbackMirror) (newLines : List ScrollbackLine) :
    (m.append newLines).lines
      = (m.lines ++ newLines).drop (m.lines.length + newLines.length - m.cap) := by
  have h := Window.append_items m.cap_pos newLines m.toWindow m.length_le
  rw [← append_toWindow] at h
  exact h

theorem append_baseIndex (m : ScrollbackMirror) (newLines : List ScrollbackLine) :
    (m.append newLines).baseIndex
      = m.baseIndex + (m.lines.length + newLines.length - m.cap) := by
  have h := Window.append_base m.cap_pos newLines m.toWindow m.length_le
  rw [← append_toWindow] at h
  exact h

@[simp] theorem append_historyTotal (m : ScrollbackMirror) (newLines : List ScrollbackLine) :
    (m.append newLines).historyTotal = m.historyTotal + newLines.length := by
  have h := Window.append_total m.cap_pos newLines (w := m.toWindow) m.length_le
  rw [← append_toWindow] at h
  exact h

@[simp] theorem append_nil (m : ScrollbackMirror) : m.append [] = m := rfl

@[simp] theorem reset_historyTotal (m : ScrollbackMirror) :
    m.reset.historyTotal = m.historyTotal := rfl

@[simp] theorem reset_baseIndex (m : ScrollbackMirror) : m.reset.baseIndex = m.historyTotal := rfl

@[simp] theorem reset_lines (m : ScrollbackMirror) : m.reset.lines = [] := rfl

@[simp] theorem reset_cap (m : ScrollbackMirror) : m.reset.cap = m.cap := rfl

theorem baseIndex_le_historyTotal (m : ScrollbackMirror) : m.baseIndex ≤ m.historyTotal :=
  Nat.le_add_right _ _

/-! ## Reading back -/

theorem length_tail (m : ScrollbackMirror) (n : ℕ) :
    (m.tail n).length = min n m.lines.length := by
  rw [tail, List.length_drop]
  omega

/-- An empty tail means an empty mirror, so long as a tail was asked for at all. -/
theorem tail_eq_nil_iff (m : ScrollbackMirror) {n : ℕ} (hn : 0 < n) :
    m.tail n = [] ↔ m.lines = [] := by
  rw [← List.length_eq_zero_iff, length_tail, ← List.length_eq_zero_iff]
  omega

/-- `range` starts where it was asked to or at the base, whichever is later. -/
theorem range_fst (m : ScrollbackMirror) (start count : ℕ) :
    (m.range start count).1 = max start m.baseIndex := by
  rw [range]
  split <;> rfl

theorem length_range (m : ScrollbackMirror) {start count : ℕ} (hstart : start < m.historyTotal) :
    (m.range start count).2.length = min count (m.historyTotal - max start m.baseIndex) := by
  rw [historyTotal] at hstart
  by_cases hc : count = 0
  · rw [range, if_pos (Or.inr hc), hc]
    simp
  · rw [range, if_neg (by rw [historyTotal]; omega)]
    simp only [List.length_take, List.length_drop, historyTotal]
    omega

theorem range_eq_nil_of_le (m : ScrollbackMirror) {start count : ℕ}
    (hstart : m.historyTotal ≤ start) : (m.range start count).2 = [] := by
  rw [range, if_pos (Or.inl hstart)]

theorem range_getElem? (m : ScrollbackMirror) (start count k : ℕ) :
    (m.range start count).2[k]?
      = if k < count then m.toWindow.get? (max start m.baseIndex + k) else none := by
  by_cases hcount : count = 0
  · rw [range, if_pos (Or.inr hcount), if_neg (by omega), List.getElem?_nil]
  by_cases hstart : m.historyTotal ≤ start
  · rw [range_eq_nil_of_le m hstart, List.getElem?_nil,
      Window.get?_eq_none_of_total_le (show m.historyTotal ≤ _ by omega), ite_self]
  rw [range, if_neg (by omega)]
  change ((m.lines.drop (max start m.baseIndex - m.baseIndex)).take _)[k]? = _
  have hget : m.toWindow.get? (max start m.baseIndex + k)
      = m.lines[max start m.baseIndex + k - m.baseIndex]? :=
    if_neg (show ¬max start m.baseIndex + k < m.baseIndex by omega)
  rw [hget, List.getElem?_take, List.getElem?_drop,
    show max start m.baseIndex - m.baseIndex + k = max start m.baseIndex + k - m.baseIndex by
      omega]
  -- beyond the last line held, the cut at the end of the deque and the cut at `count` agree
  by_cases hk : max start m.baseIndex + k - m.baseIndex < m.lines.length
  · exact if_congr (by omega) rfl rfl
  · rw [List.getElem?_eq_none (by omega), ite_self, ite_self]

theorem tail_getElem? (m : ScrollbackMirror) (n k : ℕ) :
    (m.tail n)[k]? = m.toWindow.get? (m.tailFirstIndex n + k) := by
  have hfirst : m.tailFirstIndex n = m.baseIndex + (m.lines.length - min n m.lines.length) := by
    rw [tailFirstIndex, historyTotal]
    omega
  rw [tail, List.getElem?_drop, hfirst, Nat.add_assoc]
  exact Window.getElem?_items m.toWindow _

end ScrollbackMirror

end Kmux
