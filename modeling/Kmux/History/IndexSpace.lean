import Kmux.Client.Scrollback
import Kmux.Lib.Run
import Kmux.VtCore.Mirror

/-!
# One index space for the daemon's mirror and the client's buffer

The mirror and the buffer are two ring buffers, written apart and of different capacities, that
talk about lines by absolute index. What they both stand for is the *record*: the lines appended
since the last reset, at the indices they were appended under, with no capacity to cut them. Each of
the two holds the newest end of the record that fits it (`Holds`), which is kept by every append and
every reset, and every lookup is then a lookup in the record.
-/

namespace Kmux

/-- What happens to a pane's history. -/
inductive HistoryOp
  | append (newLines : List ScrollbackLine)
  | reset

namespace HistoryOp

/-- The record of a history that no capacity cuts. A reset ends the record where it stood. -/
def record (w : Window ScrollbackLine) : HistoryOp → Window ScrollbackLine
  | append newLines => ⟨w.base, w.items ++ newLines⟩
  | reset => ⟨w.total, []⟩

end HistoryOp

/-- A pane's mirror and a buffer that follows it. -/
structure MirroredPane where
  mirror : ScrollbackMirror
  buffer : ScrollbackBuffer

namespace MirroredPane

variable {cap maxLines : ℕ} {w : Window ScrollbackLine} {p : MirroredPane}

def new (cap maxLines : ℕ) (hcap : 0 < cap) (hmax : 0 < maxLines) : MirroredPane :=
  { mirror := .new cap hcap, buffer := .new maxLines hmax }

/-- Lines reach the buffer under the index `append` returned, a reset with the total it was made
at. -/
def step (p : MirroredPane) : HistoryOp → MirroredPane
  | .append newLines =>
    { mirror := p.mirror.append newLines
      buffer := (p.buffer.appendWithIndex (p.mirror.appended newLines).1 newLines).1 }
  | .reset => { mirror := p.mirror.reset, buffer := p.buffer.resetTo p.mirror.historyTotal }

/-! ## Both hold the newest end of the record -/

/-- The mirror holds the last `cap` lines of the record and the buffer the last `maxLines`. -/
structure Holds (cap maxLines : ℕ) (w : Window ScrollbackLine) (p : MirroredPane) : Prop where
  mirror_cap : p.mirror.cap = cap
  buffer_maxLines : p.buffer.maxLines = maxLines
  mirror : p.mirror.toWindow = w.last cap
  buffer : p.buffer.toWindow = w.last maxLines

theorem holds_new (hcap : 0 < cap) (hmax : 0 < maxLines) :
    Holds cap maxLines ⟨0, []⟩ (new cap maxLines hcap hmax) where
  mirror_cap := rfl
  buffer_maxLines := rfl
  mirror := by
    rw [Window.last, List.length_nil, Nat.zero_sub]
    rfl
  buffer := by
    rw [Window.last, List.length_nil, Nat.zero_sub]
    rfl

theorem Holds.mirror_historyTotal (h : Holds cap maxLines w p) :
    p.mirror.historyTotal = w.total := by
  change p.mirror.toWindow.total = w.total
  rw [h.mirror, Window.total_last]

theorem Holds.buffer_historyTotal (h : Holds cap maxLines w p) :
    p.buffer.historyTotal = w.total := by
  change p.buffer.toWindow.total = w.total
  rw [h.buffer, Window.total_last]

/-- The buffer expects the index the mirror gives, so the append is taken. -/
theorem Holds.appendWithIndex (h : Holds cap maxLines w p) (newLines : List ScrollbackLine) :
    p.buffer.appendWithIndex (p.mirror.appended newLines).1 newLines
      = (newLines.foldl ScrollbackBuffer.pushLine p.buffer, true) := by
  have hindex : (p.mirror.appended newLines).1 = p.buffer.historyTotal :=
    h.mirror_historyTotal.trans h.buffer_historyTotal.symm
  rw [ScrollbackBuffer.appendWithIndex, if_neg (not_not_intro hindex)]

/-- A reset leaves both with nothing, at the total. -/
private theorem last_nil (cap base : ℕ) :
    Window.last cap (⟨base, []⟩ : Window ScrollbackLine) = ⟨base, []⟩ := by
  rw [Window.last, List.drop_nil, List.length_nil, Nat.zero_sub]
  rfl

theorem Holds.step (hcap : 0 < cap) (hmax : 0 < maxLines) (h : Holds cap maxLines w p)
    (op : HistoryOp) : Holds cap maxLines (HistoryOp.record w op) (p.step op) := by
  cases op with
  | append newLines =>
    rw [MirroredPane.step, h.appendWithIndex, HistoryOp.record]
    refine ⟨?_, ?_, ?_, ?_⟩
    · exact (p.mirror.append_cap newLines).trans h.mirror_cap
    · exact (ScrollbackBuffer.foldl_pushLine_maxLines newLines p.buffer).trans h.buffer_maxLines
    · rw [ScrollbackMirror.append_toWindow, h.mirror, h.mirror_cap, Window.append_last hcap]
    · rw [ScrollbackBuffer.foldl_pushLine_toWindow, h.buffer, h.buffer_maxLines,
        Window.append_last hmax]
  | reset =>
    rw [HistoryOp.record, ← h.mirror_historyTotal]
    exact ⟨h.mirror_cap, h.buffer_maxLines, (last_nil cap _).symm, (last_nil maxLines _).symm⟩

/-- Whatever was appended and wiped. -/
theorem holds_exec (hcap : 0 < cap) (hmax : 0 < maxLines) (ops : List HistoryOp) :
    Holds cap maxLines (Run.exec HistoryOp.record ⟨0, []⟩ ops)
      (Run.exec MirroredPane.step (new cap maxLines hcap hmax) ops) :=
  Run.simulation (fun _ _ op h ↦ h.step hcap hmax op) ops _ _ (holds_new hcap hmax)

/-! ## Lookups name lines of the record -/

/-- The mirror and the buffer share the record's index space: what they hold of it, and what each of
their operations makes of an absolute index. -/
structure OneIndexSpace (cap maxLines : ℕ) (w : Window ScrollbackLine) (p : MirroredPane) :
    Prop where
  same_historyTotal : p.mirror.historyTotal = p.buffer.historyTotal
  historyTotal_eq : p.mirror.historyTotal = w.total
  /-- The mirror holds exactly the last lines of the record that fit, -/
  mirror_holds : p.mirror.toWindow = ⟨w.base + (w.items.length - cap),
    w.items.drop (w.items.length - cap)⟩
  /-- and so does the buffer. -/
  buffer_holds : p.buffer.toWindow = ⟨w.base + (w.items.length - maxLines),
    w.items.drop (w.items.length - maxLines)⟩
  equal_lines : ∀ i, p.mirror.baseIndex ≤ i → p.buffer.baseIndex ≤ i → i < w.total →
    ∃ line, p.mirror.lines[i - p.mirror.baseIndex]? = some line ∧
      p.buffer.lines[i - p.buffer.baseIndex]? = some line
  range_first : ∀ start count, (p.mirror.range start count).1 = max start p.mirror.baseIndex
  range_lines : ∀ start count k, (p.mirror.range start count).2[k]?
    = if k < count then w.get? ((p.mirror.range start count).1 + k) else none
  tail_first : ∀ n, p.mirror.tailFirstIndex n = w.total - min n (min cap w.items.length)
  tail_lines : ∀ n k, (p.mirror.tail n)[k]? = w.get? (p.mirror.tailFirstIndex n + k)
  getAbsolute_line : ∀ i, p.buffer.getAbsolute i
    = if i < p.buffer.baseIndex then none else w.get? i
  evict_lines : ∀ base i, (p.buffer.evictBefore base).getAbsolute i
    = if i < base then none else p.buffer.getAbsolute i
  evict_historyTotal : ∀ base,
    (p.buffer.evictBefore base).historyTotal = max p.buffer.historyTotal base

section Holds

variable (h : Holds cap maxLines w p)

include h

theorem Holds.mirror_get? {i : ℕ} (hi : p.mirror.baseIndex ≤ i) :
    p.mirror.toWindow.get? i = w.get? i := by
  have hbase : p.mirror.baseIndex = (w.last cap).base := congrArg Window.base h.mirror
  rw [h.mirror, Window.get?_last, if_neg (by omega)]

theorem Holds.getAbsolute (i : ℕ) :
    p.buffer.getAbsolute i = if i < p.buffer.baseIndex then none else w.get? i := by
  have hbase : p.buffer.baseIndex = (w.last maxLines).base := congrArg Window.base h.buffer
  rw [ScrollbackBuffer.getAbsolute_eq, h.buffer, Window.get?_last, hbase]

theorem Holds.mirror_length : p.mirror.lines.length = min cap w.items.length := by
  have hlines : p.mirror.lines = (w.last cap).items := congrArg Window.items h.mirror
  rw [hlines, Window.last, List.length_drop]
  omega

theorem Holds.equal_lines {i : ℕ} (hm : p.mirror.baseIndex ≤ i) (hb : p.buffer.baseIndex ≤ i)
    (hi : i < w.total) : ∃ line, p.mirror.lines[i - p.mirror.baseIndex]? = some line ∧
      p.buffer.lines[i - p.buffer.baseIndex]? = some line := by
  obtain ⟨line, hline⟩ : ∃ line, p.mirror.toWindow.get? i = some line :=
    Window.exists_get?_eq_some hm (hi.trans_eq h.mirror_historyTotal.symm)
  have hbuffer : p.buffer.toWindow.get? i = some line := by
    rw [← ScrollbackBuffer.getAbsolute_eq, h.getAbsolute, if_neg (by omega), ← h.mirror_get? hm,
      hline]
  exact ⟨line, (Window.get?_eq_some_iff.mp hline).2, (Window.get?_eq_some_iff.mp hbuffer).2⟩

theorem Holds.oneIndexSpace : OneIndexSpace cap maxLines w p where
  same_historyTotal := h.mirror_historyTotal.trans h.buffer_historyTotal.symm
  historyTotal_eq := h.mirror_historyTotal
  mirror_holds := h.mirror
  buffer_holds := h.buffer
  equal_lines := fun _ ↦ h.equal_lines
  range_first := p.mirror.range_fst
  range_lines := by
    intro start count k
    rw [ScrollbackMirror.range_getElem?, ScrollbackMirror.range_fst, h.mirror_get? (by omega)]
  tail_first := by
    intro n
    rw [ScrollbackMirror.tailFirstIndex, h.mirror_historyTotal, h.mirror_length]
  tail_lines := by
    intro n k
    have hfirst : p.mirror.baseIndex ≤ p.mirror.tailFirstIndex n := by
      rw [ScrollbackMirror.tailFirstIndex, ScrollbackMirror.historyTotal]
      omega
    rw [ScrollbackMirror.tail_getElem?, h.mirror_get? (by omega)]
  getAbsolute_line := h.getAbsolute
  evict_lines := p.buffer.getAbsolute_evictBefore
  evict_historyTotal := p.buffer.evictBefore_historyTotal

end Holds

/-- **Mirror and buffer are one index space**, after any appends and resets and whatever the two
capacities. -/
theorem mirrored_index_space (hcap : 0 < cap) (hmax : 0 < maxLines) (ops : List HistoryOp) :
    OneIndexSpace cap maxLines (Run.exec HistoryOp.record ⟨0, []⟩ ops)
      (Run.exec step (new cap maxLines hcap hmax) ops) :=
  (holds_exec hcap hmax ops).oneIndexSpace

/-- Three lines through a mirror of two and a buffer of one, with a wipe after the first. -/
theorem mirrored_index_space_two_one :
    OneIndexSpace 2 1 ⟨1, [[], []]⟩ (Run.exec step (new 2 1 (by decide) (by decide))
      [.append [[]], .reset, .append [[], []]]) :=
  mirrored_index_space (by decide) (by decide) [.append [[]], .reset, .append [[], []]]

end MirroredPane

end Kmux
