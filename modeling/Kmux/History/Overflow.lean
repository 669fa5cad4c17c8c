import Kmux.History.Capture
import Mathlib.Logic.Function.Iterate

/-!
# Lines beyond the cap

A full history reports the same size whether or not lines scroll through it. The engine reads what
lies beyond the size it has accounted for, so of the lines that scrolled off a full history it finds
only as many as there was room left at its last look. `overflow_captured_iff` is the exact count:
from a look that already found the history full, none.
-/

namespace Kmux

namespace Capture

variable {B : Type*} [HistoryBackend B] {r : Capture B}

/-- Lines overflow only from a full history, whose newest lines they are; and no counter exceeds
the cap. -/
structure OverflowInv (r : Capture B) : Prop where
  full : r.overflowed ≠ [] → r.engine.view.lines.length = r.engine.view.cap
  newest : r.overflowed.length ≤ r.engine.view.cap → r.overflowed <:+ r.engine.view.lines
  prev_le : r.engine.prevHistorySize ≤ r.engine.view.cap
  baseline_le : r.engine.baseline ≤ r.engine.view.cap

theorem overflowInv_new (b₀ : B) : OverflowInv (new b₀) := by
  have hsize : TerminalBackend.historySize b₀ ≤ (HistoryBackend.view b₀).cap := by
    rw [HistoryBackend.historySize_eq]
    exact HistoryView.size_le_cap _
  exact ⟨fun h ↦ absurd rfl h, fun _ ↦ List.nil_suffix, hsize, hsize⟩

/-- Output that neither scrolls nor wipes. -/
private theorem overflowInv_of_quiet (h : OverflowInv r) {b : B}
    (hlines : (HistoryBackend.view b).lines = r.engine.view.lines)
    (hcap : (HistoryBackend.view b).cap = r.engine.view.cap) :
    OverflowInv { r with engine := r.engine.feed b } := by
  refine ⟨?_, ?_, h.prev_le.trans_eq hcap.symm, h.baseline_le.trans_eq hcap.symm⟩
  · change _ → (HistoryBackend.view b).lines.length = (HistoryBackend.view b).cap
    rw [hlines, hcap]
    exact h.full
  · change _ ≤ (HistoryBackend.view b).cap → _ <:+ (HistoryBackend.view b).lines
    rw [hlines, hcap]
    exact h.newest

/-- The newest lines stay the newest when one more is pushed out at the cap. -/
private theorem suffix_push {v : HistoryView} {overflowed : List ScrollbackLine}
    {line : ScrollbackLine} (hfull : v.lines.length = v.cap)
    (hnewest : overflowed.length ≤ v.cap → overflowed <:+ v.lines)
    (hroom : (overflowed ++ [line]).length ≤ v.cap) :
    overflowed ++ [line] <:+ (v.push line).lines := by
  rw [List.length_append, List.length_singleton] at hroom
  obtain ⟨front, hfront⟩ := hnewest (by omega)
  have hpos : v.lines.length + 1 - v.cap ≤ front.length := by
    have hlen := congrArg List.length hfront
    rw [List.length_append] at hlen
    omega
  change _ <:+ (v.lines ++ [line]).drop (v.lines.length + 1 - v.cap)
  generalize v.lines.length + 1 - v.cap = k at hpos ⊢
  rw [← hfront, List.append_assoc, List.drop_append_of_le_length hpos]
  exact List.suffix_append _ _

theorem overflowInv_output (h : OverflowInv r) {o : TermOutput} {b : B}
    (hfollows : r.Follows (.output o b)) : OverflowInv (r.step (.output o b)) := by
  change HistoryBackend.view b = r.engine.view.after o at hfollows
  have hcap : (HistoryBackend.view b).cap = r.engine.view.cap := by
    rw [hfollows, HistoryView.after_cap]
  rw [step]
  cases o with
  | draw => exact overflowInv_of_quiet h (by rw [hfollows]; rfl) hcap
  | enterAlt => exact overflowInv_of_quiet h (by rw [hfollows]; rfl) hcap
  | exitAlt => exact overflowInv_of_quiet h (by rw [hfollows]; rfl) hcap
  | wipe =>
    exact ⟨fun hne ↦ absurd rfl hne, fun _ ↦ List.nil_suffix, h.prev_le.trans_eq hcap.symm,
      h.baseline_le.trans_eq hcap.symm⟩
  | scroll line =>
    rw [HistoryView.after] at hfollows
    rw [note]
    by_cases halt : r.engine.view.altScreen = true
    · rw [if_pos halt] at hfollows
      rw [if_pos halt]
      exact overflowInv_of_quiet h (by rw [hfollows]) hcap
    · rw [if_neg halt] at hfollows
      rw [if_neg halt]
      refine ⟨?_, ?_, h.prev_le.trans_eq hcap.symm, h.baseline_le.trans_eq hcap.symm⟩
      · change ite _ _ _ ≠ [] → (HistoryBackend.view b).lines.length = (HistoryBackend.view b).cap
        -- at the cap the new line pushes the oldest out
        by_cases hfull : r.engine.view.lines.length = r.engine.view.cap
        · intro _
          have hlen := r.engine.view.length_le
          rw [hfollows]
          change ((r.engine.view.lines ++ [line]).drop _).length = r.engine.view.cap
          rw [List.length_drop, List.length_append, List.length_singleton]
          omega
        · rw [if_neg hfull]
          exact fun hne ↦ absurd (h.full hne) hfull
      · change (ite _ _ _ : List ScrollbackLine).length ≤ (HistoryBackend.view b).cap →
          ite _ _ _ <:+ (HistoryBackend.view b).lines
        rw [hcap, hfollows]
        by_cases hfull : r.engine.view.lines.length = r.engine.view.cap
        · rw [if_pos hfull]
          exact suffix_push hfull h.newest
        · -- below the cap nothing has overflowed since the last look
          rw [if_neg hfull, show r.overflowed = [] from by_contra fun hne ↦ hfull (h.full hne)]
          exact fun _ ↦ List.nil_suffix

/-- A look at the screen that is showing: nothing is outstanding on the main screen afterwards, and
the alternate screen leaves everything outstanding. -/
private theorem overflowInv_of_look (h : OverflowInv r) {lines : List ScrollbackLine}
    {e : DiffEngine B} (hview : e.view = r.engine.view)
    (hprev : e.prevHistorySize ≤ r.engine.view.cap) (hbase : e.baseline ≤ r.engine.view.cap) :
    OverflowInv { r.look lines with engine := e } := by
  refine ⟨?_, ?_, hprev.trans_eq (by rw [hview]), hbase.trans_eq (by rw [hview])⟩
  · change ite _ _ _ ≠ [] → e.view.lines.length = e.view.cap
    rw [hview]
    split
    · exact h.full
    · exact fun hne ↦ absurd rfl hne
  · change (ite _ _ _ : List ScrollbackLine).length ≤ e.view.cap → ite _ _ _ <:+ e.view.lines
    rw [hview]
    split
    · exact h.newest
    · exact fun _ ↦ List.nil_suffix

theorem overflowInv_computeDiff (h : OverflowInv r) : OverflowInv (r.step .computeDiff) := by
  have hobs := r.engine.observed_computeDiff
  have hsaved := hobs.savedMainHistorySize
  have hprev := hobs.prevHistorySize
  have hle : r.engine.computeDiff.1.prevHistorySize ≤ r.engine.view.cap ∧
      r.engine.computeDiff.1.baseline ≤ r.engine.view.cap := by
    rw [DiffEngine.baseline]
    cases halt : r.engine.view.altScreen with
    | true =>
      rw [DiffEngine.historyStep_of_alt halt] at hsaved hprev
      rw [hsaved, hprev, Option.getD_some]
      exact ⟨Nat.zero_le _, h.baseline_le⟩
    | false =>
      rw [DiffEngine.historyStep_of_main halt] at hsaved hprev
      rw [hsaved, hprev, Option.getD_none]
      exact ⟨r.engine.view.length_le, r.engine.view.length_le⟩
  exact overflowInv_of_look h r.engine.view_computeDiff hle.1 hle.2

theorem overflowInv_resize (h : OverflowInv r) (sz : BackendSize) :
    OverflowInv (r.step (.resize sz)) := by
  have hle : (r.engine.resize sz).prevHistorySize ≤ r.engine.view.cap := by
    rw [DiffEngine.resize_prevHistorySize]
    exact HistoryView.size_le_cap _
  exact overflowInv_of_look h (r.engine.view_resize sz) hle hle

theorem overflowInv_step (h : OverflowInv r) {e : CaptureEvent B} (he : r.Follows e) :
    OverflowInv (r.step e) := by
  cases e with
  | output o b => exact overflowInv_output h he
  | computeDiff => exact overflowInv_computeDiff h
  | resize sz => exact overflowInv_resize h sz

/-- Of a full history, the lines from `start` on end in the overflowed ones just if there is that
much room. -/
private theorem overflowed_suffix_drop_iff (h : OverflowInv r) {start : ℕ}
    (hstart : start ≤ r.engine.view.cap) (hne : r.overflowed ≠ []) :
    r.overflowed <:+ r.engine.view.lines.drop start ↔
      r.overflowed.length + start ≤ r.engine.view.cap := by
  have hfull := h.full hne
  constructor
  · intro hsuffix
    have hlen := hsuffix.length_le
    rw [List.length_drop, hfull] at hlen
    omega
  · intro hroom
    obtain ⟨front, hfront⟩ := h.newest (by omega)
    have hle : start ≤ front.length := by
      have hlen := congrArg List.length hfront
      rw [List.length_append] at hlen
      omega
    rw [← hfront, List.drop_append_of_le_length hle]
    exact List.suffix_append _ _

/-- What the next look captures of the overflowed lines. -/
private theorem overflowed_suffix_iff (h : OverflowInv r) :
    (r.overflowed <:+ r.engine.computeDiff.2.scrollbackLines ↔
      r.overflowed = [] ∨ r.engine.view.altScreen = false ∧
        r.overflowed.length + r.engine.baseline ≤ r.engine.view.cap) ∧
    (r.overflowed <:+ r.engine.resizeDrain ↔
      r.overflowed = [] ∨ r.engine.view.altScreen = false ∧
        r.overflowed.length + r.engine.prevHistorySize ≤ r.engine.view.cap) := by
  rw [DiffEngine.computeDiff_scrollbackLines]
  by_cases hne : r.overflowed = []
  · rw [hne]
    exact ⟨⟨fun _ ↦ Or.inl rfl, fun _ ↦ List.nil_suffix⟩,
      ⟨fun _ ↦ Or.inl rfl, fun _ ↦ List.nil_suffix⟩⟩
  · rw [or_iff_right hne, or_iff_right hne]
    cases halt : r.engine.view.altScreen with
    | true =>
      rw [DiffEngine.historyStep_of_alt halt, DiffEngine.resizeDrain_of_alt halt,
        List.suffix_nil]
      exact ⟨⟨fun hnil ↦ absurd hnil hne, fun hc ↦ absurd hc.1 (by decide)⟩,
        ⟨fun hnil ↦ absurd hnil hne, fun hc ↦ absurd hc.1 (by decide)⟩⟩
    | false =>
      -- the counters never exceed the cap, so a full history is not taken for a wiped one
      have hseen : ¬r.engine.WipeSeen := by
        rintro ⟨-, -, hlt⟩
        rw [HistoryBackend.historySize_eq, ← DiffEngine.view, HistoryView.size_of_main halt,
          h.full hne] at hlt
        exact absurd h.prev_le (not_le.mpr hlt)
      rw [DiffEngine.historyStep_of_main halt, DiffEngine.resizeDrain_of_main halt]
      simp only [if_neg hseen, true_and]
      exact ⟨overflowed_suffix_drop_iff h h.baseline_le hne,
        overflowed_suffix_drop_iff h h.prev_le hne⟩

private theorem overflowInv_run (b₀ : B) (es : List (CaptureEvent B))
    (hfollows : Run.Ok step Follows (new b₀) es) : OverflowInv ((new b₀).run es) :=
  Run.invariant_of_ok (fun r _ (h : OverflowInv r) he ↦ overflowInv_step h he) es (new b₀)
    (overflowInv_new b₀) hfollows

/-- **Beyond the cap.** In every state a run can reach, the next frame captures the lines that
scrolled off a full history if and only if there are none, or it looks at the main screen and there
was room for that many above the size accounted for. A resize in its place captures them if and only
if there was room above the size last seen. -/
theorem overflow_captured_iff (b₀ : B) (es : List (CaptureEvent B))
    (hfollows : Run.Ok step Follows (new b₀) es) :
    let r := (new b₀).run es
    (r.overflowed <:+ r.engine.computeDiff.2.scrollbackLines ↔
      r.overflowed = [] ∨ r.engine.view.altScreen = false ∧
        r.overflowed.length + r.engine.baseline ≤ r.engine.view.cap) ∧
    (r.overflowed <:+ r.engine.resizeDrain ↔
      r.overflowed = [] ∨ r.engine.view.altScreen = false ∧
        r.overflowed.length + r.engine.prevHistorySize ≤ r.engine.view.cap) :=
  overflowed_suffix_iff (overflowInv_run b₀ es hfollows)

end Capture

/-! ## Two runs -/

namespace MockTerminal

/-- A line scrolls off. -/
def scroll (t : MockTerminal) : MockTerminal := t.emit (.scroll [letterA])

/-- `n` lines scroll off, one after the other. -/
def scrolls : MockTerminal → ℕ → List (CaptureEvent MockTerminal)
  | _, 0 => []
  | t, n + 1 => .output (.scroll [letterA]) t.scroll :: t.scroll.scrolls n

end MockTerminal

open MockTerminal

/-- Three lines scroll through a history of two before the first frame: there was room for the one
that overflowed. -/
theorem overflow_captured_of_room :
    let es := (MockTerminal.new 1 1 2).scrolls 3
    let r := (Capture.new (MockTerminal.new 1 1 2)).run es
    r.overflowed = [[letterA]] ∧ r.overflowed <:+ r.engine.computeDiff.2.scrollbackLines := by
  intro es r
  have hfollows : Run.Ok Capture.step Capture.Follows (Capture.new (MockTerminal.new 1 1 2))
      es := by decide +kernel
  exact ⟨by decide +kernel,
    (Capture.overflow_captured_iff _ es hfollows).1.mpr (Or.inr (by decide +kernel))⟩

/-- Lines that find room only make the history longer. -/
private theorem run_scrolls (n : ℕ) : ∀ (r : Capture MockTerminal) (t : MockTerminal),
    r.engine.view = t.view → t.view.altScreen = false → t.view.lines.length + n ≤ t.view.cap →
    Run.Ok Capture.step Capture.Follows r (t.scrolls n) ∧
      (r.run (t.scrolls n)).engine.view = (scroll^[n] t).view ∧
      (scroll^[n] t).view.altScreen = false ∧ (scroll^[n] t).view.cap = t.view.cap ∧
      (scroll^[n] t).view.lines.length = t.view.lines.length + n := by
  induction n with
  | zero => exact fun r t hview halt _ ↦ ⟨trivial, hview, halt, rfl, rfl⟩
  | succ n ih =>
    intro r t hview halt hroom
    have hpush : t.scroll.view = t.view.push [letterA] := by
      change (if t.view.altScreen then _ else _) = _
      rw [halt]
      rfl
    have hlen : t.scroll.view.lines.length = t.view.lines.length + 1 := by
      rw [hpush, HistoryView.push_lines_of_lt (by omega), List.length_append,
        List.length_singleton]
    have hcap : t.scroll.view.cap = t.view.cap := by rw [hpush]; rfl
    obtain ⟨hok, hview', halt', hcap', hlen'⟩ :=
      ih (r.step (.output (.scroll [letterA]) t.scroll)) t.scroll rfl (by rw [hpush]; exact halt)
        (by omega)
    refine ⟨⟨?_, hok⟩, hview', halt', hcap'.trans hcap, hlen'.trans (by omega)⟩
    change t.scroll.view = r.engine.view.after _
    rw [hview]
    rfl

/-- Fill the history, have a frame look at it, and scroll one more line off. -/
def plateau (cap : ℕ) : List (CaptureEvent MockTerminal) :=
  let t := MockTerminal.new 1 1 cap
  t.scrolls cap ++ [.computeDiff] ++ (scroll^[cap] t).scrolls 1

/-- A frame that looks at a full history leaves no room for the next line. -/
private theorem overflowed_after_look {r : Capture MockTerminal} {t : MockTerminal}
    (hview : r.engine.view = t.view) (halt : t.view.altScreen = false)
    (hfull : t.view.lines.length = t.view.cap) :
    let r' := (r.step .computeDiff).step (.output (.scroll [letterA]) t.scroll)
    r'.overflowed = [[letterA]] ∧ r'.engine.baseline = t.view.cap ∧
      r'.engine.view.cap = t.view.cap := by
  intro r'
  have hmain : r.engine.view.altScreen = false := by rw [hview]; exact halt
  have hlook : (r.step .computeDiff).engine.view = t.view :=
    r.engine.view_computeDiff.trans hview
  have hlooked : (r.step .computeDiff).overflowed = [] := by
    change (if r.engine.view.altScreen = true then _ else _) = _
    rw [hmain]
    rfl
  refine ⟨?_, ?_, HistoryView.after_cap t.view (.scroll [letterA])⟩
  · change (Capture.note _ _).overflowed = _
    rw [Capture.note, hlook, halt, if_neg (by decide), if_pos hfull, hlooked]
    rfl
  · have hobs := r.engine.observed_computeDiff
    change (r.engine.computeDiff.1).baseline = _
    rw [DiffEngine.baseline, hobs.savedMainHistorySize, hobs.prevHistorySize,
      DiffEngine.historyStep_of_main hmain, Option.getD_none, hview, hfull]

private theorem plateau_not_captured (cap : ℕ) :
    let r := (Capture.new (MockTerminal.new 1 1 cap)).run (plateau cap)
    Run.Ok Capture.step Capture.Follows (Capture.new (MockTerminal.new 1 1 cap)) (plateau cap) ∧
      r.overflowed = [[letterA]] ∧ ¬r.overflowed <:+ r.engine.computeDiff.2.scrollbackLines := by
  intro r
  set r₀ := Capture.new (MockTerminal.new 1 1 cap)
  set t := scroll^[cap] (MockTerminal.new 1 1 cap)
  obtain ⟨hfill, hview, halt, hcap, hlen⟩ := run_scrolls cap r₀
    (MockTerminal.new 1 1 cap) rfl rfl (Nat.zero_add _).le
  set r₁ := r₀.run ((MockTerminal.new 1 1 cap).scrolls cap)
  have hfull : t.view.lines.length = t.view.cap := (hlen.trans (Nat.zero_add _)).trans hcap.symm
  obtain ⟨hoverflowed, hbase, hcap'⟩ := overflowed_after_look hview halt hfull
  have hfollows : Run.Ok Capture.step Capture.Follows r₀ (plateau cap) := by
    refine (Run.ok_append _ _ _).mpr ⟨(Run.ok_append _ _ _).mpr ⟨hfill, trivial, trivial⟩, ?_,
      trivial⟩
    rw [Run.exec_append]
    change t.scroll.view = (r₁.engine.computeDiff.1).view.after _
    rw [r₁.engine.view_computeDiff, hview]
    rfl
  have hrun : r = (r₁.step .computeDiff).step (.output (.scroll [letterA]) t.scroll) := by
    change Run.exec _ _ _ = _
    rw [plateau, Run.exec_append, Run.exec_append]
    rfl
  rw [← hrun] at hoverflowed hbase hcap'
  refine ⟨hfollows, hoverflowed, fun hsuffix ↦ ?_⟩
  rcases (Capture.overflowed_suffix_iff (Capture.overflowInv_run _ _ hfollows)).1.mp hsuffix with
    hnil | ⟨-, hroom⟩
  · exact absurd (hoverflowed.symm.trans hnil) (by simp)
  · change r.overflowed.length + r.engine.baseline ≤ r.engine.view.cap at hroom
    rw [hoverflowed, hbase, hcap', List.length_singleton] at hroom
    omega

/-- The line is in the emulator's history, and the next frame does not capture it. -/
theorem not_overflow_captured_of_full :
    let r := (Capture.new (MockTerminal.new 1 1 defaultScrollback)).run (plateau defaultScrollback)
    Run.Ok Capture.step Capture.Follows (Capture.new (MockTerminal.new 1 1 defaultScrollback))
        (plateau defaultScrollback) ∧
      r.overflowed = [[letterA]] ∧ ¬r.overflowed <:+ r.engine.computeDiff.2.scrollbackLines :=
  plateau_not_captured defaultScrollback

end Kmux
