import Kmux.History.Backend
import Kmux.Lib.Run

/-!
# Capturing the history

A run of output, frames and resizes, with a record of what scrolled off the main screen and of what
went into the mirror since the history was last wiped. The engine infers the lines to capture from
sizes alone, so whether each line is captured once depends on its counters: `Safe` says in which
states a frame or a resize can be trusted, and `exactly_once` that a run of such steps captures
every line once and in order.

The unsafe states are of two kinds. A wipe shows only as a shrunken size, so a history that grew
back, or that was wiped behind an alternate-screen frame, is not recognised. And a resize takes over
the size of the screen that is showing: on the alternate screen that is zero, and all of the main
history counts as new afterwards.
-/

namespace Kmux

open TerminalBackend

/-- An engine, with a record of the main screen's history. -/
structure Capture (B : Type*) where
  engine : DiffEngine B
  /-- What scrolled off the main screen since the last wipe. -/
  scrolled : List ScrollbackLine
  /-- What was appended to the mirror since the last wipe. -/
  captured : List ScrollbackLine
  /-- What scrolled off a full history since the main screen was last looked at, or wiped. -/
  overflowed : List ScrollbackLine
  /-- The history was wiped since the main screen was last looked at. -/
  wiped : Bool

/-- What can happen: output that leaves the emulator in a state, a frame, a resize. -/
inductive CaptureEvent (B : Type*)
  | output (o : TermOutput) (b : B)
  | computeDiff
  | resize (sz : BackendSize)

namespace Capture

variable {B : Type*} [HistoryBackend B]

/-- An engine over a fresh backend. -/
def new (b₀ : B) : Capture B :=
  { engine := DiffEngine.new b₀, scrolled := [], captured := [], overflowed := [], wiped := false }

/-- Put a piece of output on record. -/
def note (r : Capture B) : TermOutput → Capture B
  | .scroll line =>
    if r.engine.view.altScreen then r
    else
      { r with
        scrolled := r.scrolled ++ [line]
        overflowed := if r.engine.view.lines.length = r.engine.view.cap then r.overflowed ++ [line]
          else r.overflowed }
  | .wipe => { r with scrolled := [], captured := [], overflowed := [], wiped := true }
  | _ => r

/-- Put on record that `lines` were captured. On the main screen nothing is outstanding then. -/
def look (r : Capture B) (lines : List ScrollbackLine) : Capture B :=
  { r with
    captured := r.captured ++ lines
    overflowed := if r.engine.view.altScreen then r.overflowed else []
    wiped := r.wiped && r.engine.view.altScreen }

def step (r : Capture B) : CaptureEvent B → Capture B
  | .output o b => { r.note o with engine := r.engine.feed b }
  | .computeDiff =>
    let d := r.engine.computeDiff
    { r.look d.2.scrollbackLines with engine := d.1 }
  | .resize sz => { r.look r.engine.resizeDrain with engine := r.engine.resize sz }

def run (r : Capture B) (es : List (CaptureEvent B)) : Capture B := Run.exec step r es

/-- The emulator's history does what the output says. -/
def Follows (r : Capture B) : CaptureEvent B → Prop
  | .output o b => HistoryBackend.view b = r.engine.view.after o
  | _ => True

/-- No line scrolls off a full history. -/
def BelowCap (r : Capture B) : CaptureEvent B → Prop
  | .output (.scroll _) _ =>
    r.engine.view.altScreen = true ∨ r.engine.view.lines.length < r.engine.view.cap
  | _ => True

/-- The engine's counters can be trusted. A frame on the main screen has no wipe to recognise, or
recognises it, or there is nothing to miss. A resize does not find the alternate screen, or a frame
of it unaccounted for, unless nothing was captured; and has no wipe to recognise, or nothing to
miss. -/
def Safe (r : Capture B) : CaptureEvent B → Prop
  | .output .. => True
  | .computeDiff =>
    r.engine.view.altScreen = true ∨ r.wiped = false ∨ r.engine.WipeSeen ∨
      r.engine.view.lines = [] ∨ r.engine.baseline = 0
  | .resize _ =>
    if r.engine.view.altScreen = true ∨ r.engine.savedMainHistorySize ≠ none then r.captured = []
    else r.wiped = false ∨ r.engine.view.lines = [] ∨ r.engine.prevHistorySize = 0

instance (r : Capture B) : ∀ e : CaptureEvent B, Decidable (r.Follows e)
  | .output .. => inferInstanceAs (Decidable (_ = _))
  | .computeDiff | .resize _ => inferInstanceAs (Decidable True)

instance (r : Capture B) : ∀ e : CaptureEvent B, Decidable (r.BelowCap e)
  | .output (.scroll _) _ => inferInstanceAs (Decidable (_ ∨ _))
  | .output .draw _ | .output .wipe _ | .output .enterAlt _ | .output .exitAlt _ | .computeDiff
  | .resize _ => inferInstanceAs (Decidable True)

instance (r : Capture B) : ∀ e : CaptureEvent B, Decidable (r.Safe e)
  | .output .. => inferInstanceAs (Decidable True)
  | .computeDiff => inferInstanceAs (Decidable (_ ∨ _ ∨ _ ∨ _ ∨ _))
  | .resize _ => inferInstanceAs (Decidable
      (if r.engine.view.altScreen = true ∨ r.engine.savedMainHistorySize ≠ none then _ else _ ∨ _))

/-! ## The record and the mirror -/

/-- The mirror holds the newest of the captured lines, behind older ones if there is room. -/
def Mirrored (r : Capture B) : Prop := ∃ older, r.engine.mirror.lines <:+ older ++ r.captured

private theorem suffix_append_lines {m : ScrollbackMirror} {older lines : List ScrollbackLine}
    (h : m.lines <:+ older ++ lines) (lines' : List ScrollbackLine) :
    (m.append lines').lines <:+ older ++ (lines ++ lines') := by
  obtain ⟨front, hfront⟩ := h
  rw [ScrollbackMirror.append_lines, ← List.append_assoc, ← hfront, List.append_assoc]
  exact (List.drop_suffix _ _).trans (List.suffix_append _ _)

theorem mirrored_step {r : Capture B} (h : r.Mirrored) (e : CaptureEvent B) :
    (r.step e).Mirrored := by
  obtain ⟨older, hr⟩ := h
  cases e with
  | output o b =>
    cases o with
    | wipe =>
      exact ⟨r.engine.mirror.lines, [], (List.append_nil _).symm⟩
    | scroll line =>
      rw [step, note]
      split <;> exact ⟨older, hr⟩
    | draw => exact ⟨older, hr⟩
    | enterAlt => exact ⟨older, hr⟩
    | exitAlt => exact ⟨older, hr⟩
  | computeDiff =>
    change ∃ older, r.engine.computeDiff.1.mirror.lines
      <:+ older ++ (r.captured ++ r.engine.computeDiff.2.scrollbackLines)
    rw [DiffEngine.computeDiff_mirror, DiffEngine.computeDiff_scrollbackLines]
    rcases r.engine.historyStep_mirror with ⟨-, hmirror⟩ | ⟨-, hmirror⟩ <;> rw [hmirror]
    · exact ⟨older, suffix_append_lines hr _⟩
    · exact ⟨older, suffix_append_lines List.nil_suffix _⟩
  | resize sz => exact ⟨older, suffix_append_lines hr _⟩

theorem mirrored_run (b₀ : B) (es : List (CaptureEvent B)) : ((new b₀).run es).Mirrored := by
  have hinit : (new b₀).Mirrored := ⟨[], List.nil_suffix⟩
  exact Run.invariant (fun r e (h : r.Mirrored) ↦ mirrored_step h e) es (new b₀) hinit

/-! ## The accounting invariant -/

/-- The engine has accounted for the captured lines, and for them only. -/
structure Inv (r : Capture B) : Prop where
  scrolled : r.scrolled = r.engine.view.lines
  /-- A size is saved by an alternate-screen frame, which saw an empty history. -/
  prev_of_saved : r.engine.savedMainHistorySize ≠ none → r.engine.prevHistorySize = 0
  baseline_le : r.wiped = false → r.engine.baseline ≤ r.engine.view.lines.length
  captured : r.wiped = false → r.captured = r.engine.view.lines.take r.engine.baseline
  captured_of_wiped : r.wiped = true → r.captured = []

variable {r : Capture B}

theorem inv_new {b₀ : B} (h : (HistoryBackend.view b₀).lines = []) : Inv (new b₀) := by
  have hlines : (new b₀).engine.view.lines = [] := h
  have hbase : (new b₀).engine.baseline = 0 := by
    change historySize b₀ = 0
    rw [HistoryBackend.historySize_eq, HistoryView.size, h]
    split <;> rfl
  refine ⟨hlines.symm, fun h ↦ absurd rfl h, fun _ ↦ ?_, fun _ ↦ ?_,
    fun h ↦ absurd h Bool.false_ne_true⟩
  · rw [hbase]
    exact Nat.zero_le _
  · rw [hbase, List.take_zero]
    rfl

/-- In every state the captured lines are a prefix of the scrolled ones. -/
theorem captured_prefix_scrolled (h : Inv r) : r.captured <+: r.scrolled := by
  cases hwiped : r.wiped with
  | false =>
    rw [h.captured hwiped, h.scrolled]
    exact List.take_prefix _ _
  | true =>
    rw [h.captured_of_wiped hwiped]
    exact List.nil_prefix

/-- Output that leaves the record alone. -/
private theorem inv_of_quiet (h : Inv r) {b : B}
    (hlines : (HistoryBackend.view b).lines = r.engine.view.lines) :
    Inv { r with engine := r.engine.feed b } :=
  ⟨h.scrolled.trans hlines.symm, h.prev_of_saved,
    fun hw ↦ (h.baseline_le hw).trans_eq (congrArg List.length hlines.symm),
    fun hw ↦ (h.captured hw).trans (congrArg (List.take _) hlines.symm), h.captured_of_wiped⟩

theorem inv_output (h : Inv r) {o : TermOutput} {b : B} (hfollows : r.Follows (.output o b))
    (hcap : r.BelowCap (.output o b)) : Inv (r.step (.output o b)) := by
  change HistoryBackend.view b = r.engine.view.after o at hfollows
  rw [step]
  cases o with
  | draw => exact inv_of_quiet h (by rw [hfollows]; rfl)
  | enterAlt => exact inv_of_quiet h (by rw [hfollows]; rfl)
  | exitAlt => exact inv_of_quiet h (by rw [hfollows]; rfl)
  | wipe =>
    have hlines : (HistoryBackend.view b).lines = [] := by
      rw [hfollows]
      rfl
    exact ⟨hlines.symm, h.prev_of_saved, fun hw ↦ absurd hw.symm Bool.false_ne_true,
      fun hw ↦ absurd hw.symm Bool.false_ne_true, fun _ ↦ rfl⟩
  | scroll line =>
    rw [HistoryView.after] at hfollows
    rw [note]
    by_cases halt : r.engine.view.altScreen = true
    · rw [if_pos halt] at hfollows
      rw [if_pos halt]
      exact inv_of_quiet h (by rw [hfollows])
    · have hlines : (HistoryBackend.view b).lines = r.engine.view.lines ++ [line] := by
        rw [hfollows, if_neg halt]
        exact HistoryView.push_lines_of_lt (hcap.resolve_left halt) line
      rw [if_neg halt]
      refine ⟨?_, h.prev_of_saved, fun hw ↦ ?_, fun hw ↦ ?_, h.captured_of_wiped⟩
      · change r.scrolled ++ [line] = (HistoryBackend.view b).lines
        rw [hlines, h.scrolled]
      · change r.engine.baseline ≤ (HistoryBackend.view b).lines.length
        rw [hlines, List.length_append]
        exact (h.baseline_le hw).trans (Nat.le_add_right _ _)
      · change r.captured = (HistoryBackend.view b).lines.take r.engine.baseline
        rw [hlines, List.take_append_of_le_length (h.baseline_le hw)]
        exact h.captured hw

/-- **A frame on the main screen** captures exactly what was outstanding if and only if the
counters can be trusted. -/
theorem captured_computeDiff_iff (h : Inv r) (hmain : r.engine.view.altScreen = false) :
    (r.step .computeDiff).captured = r.scrolled ↔ r.Safe .computeDiff := by
  change r.captured ++ r.engine.computeDiff.2.scrollbackLines = r.scrolled ↔ _
  rw [DiffEngine.computeDiff_scrollbackLines, DiffEngine.historyStep_of_main hmain, h.scrolled]
  change _ ++ (if r.engine.WipeSeen then _ else _) = _ ↔ _
  have hsafe : r.Safe .computeDiff ↔ r.wiped = false ∨ r.engine.WipeSeen ∨
      r.engine.view.lines = [] ∨ r.engine.baseline = 0 := by
    rw [Safe, hmain]
    exact or_iff_right (by decide)
  rw [hsafe]
  cases hwiped : r.wiped with
  | false =>
    -- without a wipe the history never falls below what was accounted for
    have hseen : ¬r.engine.WipeSeen := by
      rintro ⟨-, hsaved, hlt⟩
      have hle := h.baseline_le hwiped
      rw [DiffEngine.baseline, hsaved, Option.getD_none] at hle
      rw [HistoryBackend.historySize_eq, ← DiffEngine.view, HistoryView.size_of_main hmain] at hlt
      omega
    rw [if_neg hseen, h.captured hwiped, List.take_append_drop]
    exact ⟨fun _ ↦ Or.inl rfl, fun _ ↦ rfl⟩
  | true =>
    rw [h.captured_of_wiped hwiped, List.nil_append]
    by_cases hseen : r.engine.WipeSeen
    · rw [if_pos hseen]
      exact ⟨fun _ ↦ Or.inr (Or.inl hseen), fun _ ↦ rfl⟩
    · rw [if_neg hseen]
      -- a wipe that goes unseen loses the lines up to the stale counter
      constructor
      · intro hdrop
        have hlen := congrArg List.length hdrop
        rw [List.length_drop] at hlen
        rcases Nat.eq_zero_or_pos r.engine.baseline with hzero | hpos
        · exact Or.inr (Or.inr (Or.inr hzero))
        · exact Or.inr (Or.inr (Or.inl (List.length_eq_zero_iff.mp (by omega))))
      · rintro (hfalse | hs | hnil | hzero)
        · exact absurd hfalse (by decide)
        · exact absurd hs hseen
        · rw [hnil, List.drop_nil]
        · rw [hzero, List.drop_zero]

theorem inv_computeDiff (h : Inv r) (hsafe : r.Safe .computeDiff) : Inv (r.step .computeDiff) := by
  have hobs := r.engine.observed_computeDiff
  have hview : (r.step .computeDiff).engine.view = r.engine.view := r.engine.view_computeDiff
  have hsaved : (r.step .computeDiff).engine.savedMainHistorySize
      = r.engine.historyStep.savedMainHistorySize := hobs.savedMainHistorySize
  have hprev : (r.step .computeDiff).engine.prevHistorySize
      = r.engine.historyStep.prevHistorySize := hobs.prevHistorySize
  cases halt : r.engine.view.altScreen with
  | true =>
    -- the size moves from one counter to the other, and is accounted for as before
    rw [DiffEngine.historyStep_of_alt halt] at hsaved hprev
    have hbase : (r.step .computeDiff).engine.baseline = r.engine.baseline := by
      rw [DiffEngine.baseline, hsaved, Option.getD_some]
    have hcaptured : (r.step .computeDiff).captured = r.captured := by
      change r.captured ++ r.engine.computeDiff.2.scrollbackLines = r.captured
      rw [DiffEngine.computeDiff_scrollbackLines, DiffEngine.historyStep_of_alt halt,
        List.append_nil]
    have hwiped : (r.step .computeDiff).wiped = r.wiped := by
      change (r.wiped && r.engine.view.altScreen) = r.wiped
      rw [halt, Bool.and_true]
    refine ⟨?_, fun _ ↦ hprev, ?_, ?_, ?_⟩
    · rw [hview]
      exact h.scrolled
    · rw [hwiped, hbase, hview]
      exact h.baseline_le
    · rw [hwiped, hbase, hview, hcaptured]
      exact h.captured
    · rw [hwiped, hcaptured]
      exact h.captured_of_wiped
  | false =>
    rw [DiffEngine.historyStep_of_main halt] at hsaved hprev
    have hbase : (r.step .computeDiff).engine.baseline = r.engine.view.lines.length := by
      rw [DiffEngine.baseline, hsaved, Option.getD_none, hprev]
    have hwiped : (r.step .computeDiff).wiped = false := by
      change (r.wiped && r.engine.view.altScreen) = false
      rw [halt, Bool.and_false]
    refine ⟨?_, fun hs ↦ absurd hsaved hs, fun _ ↦ ?_, fun _ ↦ ?_, fun hw ↦ ?_⟩
    · rw [hview]
      exact h.scrolled
    · rw [hbase, hview]
    · rw [hbase, hview, List.take_length, (captured_computeDiff_iff h halt).mpr hsafe, h.scrolled]
    · rw [hwiped] at hw
      exact absurd hw (by decide)

/-- A resize forgets the saved size, and starts over from the size of the screen that is
showing. -/
theorem inv_resize (h : Inv r) {sz : BackendSize} (hsafe : r.Safe (.resize sz)) :
    Inv (r.step (.resize sz)) := by
  have hview : (r.step (.resize sz)).engine.view = r.engine.view := r.engine.view_resize sz
  have hbase : (r.step (.resize sz)).engine.baseline = r.engine.view.size := by
    change (r.engine.resize sz).prevHistorySize = _
    exact r.engine.resize_prevHistorySize sz
  rw [Safe] at hsafe
  cases halt : r.engine.view.altScreen with
  | true =>
    rw [if_pos (Or.inl halt)] at hsafe
    have hcaptured : (r.step (.resize sz)).captured = [] := by
      change r.captured ++ r.engine.resizeDrain = []
      rw [hsafe, DiffEngine.resizeDrain_of_alt halt, List.append_nil]
    rw [HistoryView.size_of_alt halt] at hbase
    refine ⟨?_, fun hs ↦ absurd rfl hs, fun _ ↦ ?_, fun _ ↦ ?_, fun _ ↦ hcaptured⟩
    · rw [hview]
      exact h.scrolled
    · rw [hbase]
      exact Nat.zero_le _
    · rw [hbase, hcaptured, List.take_zero]
  | false =>
    have hwiped : (r.step (.resize sz)).wiped = false := by
      change (r.wiped && r.engine.view.altScreen) = false
      rw [halt, Bool.and_false]
    -- what is drained is all that the last look had not accounted for
    have hall : r.captured ++ r.engine.view.lines.drop r.engine.prevHistorySize
        = r.engine.view.lines := by
      by_cases hsaved : r.engine.savedMainHistorySize = none
      · rw [if_neg (by rw [halt, not_or, not_not]; exact ⟨by decide, hsaved⟩)] at hsafe
        have hprev : r.engine.baseline = r.engine.prevHistorySize := by
          rw [DiffEngine.baseline, hsaved, Option.getD_none]
        cases hw : r.wiped with
        | false => rw [h.captured hw, hprev, List.take_append_drop]
        | true =>
          rw [hw] at hsafe
          rw [h.captured_of_wiped hw, List.nil_append]
          rcases hsafe with hf | hnil | hzero
          · exact absurd hf (by decide)
          · rw [hnil, List.drop_nil]
          · rw [hzero, List.drop_zero]
      · -- the drain starts at zero, not at the saved size
        rw [if_pos (Or.inr hsaved)] at hsafe
        rw [hsafe, h.prev_of_saved hsaved, List.drop_zero, List.nil_append]
    rw [HistoryView.size_of_main halt] at hbase
    refine ⟨?_, fun hs ↦ absurd rfl hs, fun _ ↦ ?_, fun _ ↦ ?_, fun hw ↦ ?_⟩
    · rw [hview]
      exact h.scrolled
    · rw [hbase, hview]
    · rw [hbase, hview, List.take_length]
      change r.captured ++ r.engine.resizeDrain = _
      rw [DiffEngine.resizeDrain_of_main halt, hall]
    · rw [hwiped] at hw
      exact absurd hw (by decide)

theorem inv_step (h : Inv r) {e : CaptureEvent B}
    (he : r.Follows e ∧ r.BelowCap e ∧ r.Safe e) : Inv (r.step e) := by
  cases e with
  | output o b => exact inv_output h he.1 he.2.1
  | computeDiff => exact inv_computeDiff h he.2.2
  | resize sz => exact inv_resize h he.2.2

/-- **Exactly once.** Along a run of safe steps below the cap, the captured lines are a prefix of
those that scrolled off since the last wipe, and a frame on the main screen captures the rest of
them, each once, if and only if it is safe itself. -/
theorem exactly_once (b₀ : B) (hfresh : (HistoryBackend.view b₀).lines = [])
    (es : List (CaptureEvent B))
    (hok : Run.Ok step (fun r e ↦ r.Follows e ∧ r.BelowCap e ∧ r.Safe e) (new b₀) es) :
    ((new b₀).run es).captured <+: ((new b₀).run es).scrolled ∧
      (((new b₀).run es).engine.view.altScreen = false →
        ((((new b₀).run es).step .computeDiff).captured = ((new b₀).run es).scrolled ↔
          ((new b₀).run es).Safe .computeDiff)) := by
  have hinv : Inv (Run.exec step (new b₀) es) :=
    Run.invariant_of_ok (fun r e (h : Inv r) he ↦ inv_step h he) es (new b₀) (inv_new hfresh) hok
  exact ⟨captured_prefix_scrolled hinv, captured_computeDiff_iff hinv⟩

end Capture

/-! ## Two runs -/

/-- A line scrolls off, a program takes the alternate screen and leaves it again. -/
def altVisit (between : List (CaptureEvent MockTerminal)) : List (CaptureEvent MockTerminal) :=
  let t := (MockTerminal.new 1 1 defaultScrollback).emit (.scroll [letterA])
  [.output (.scroll [letterA]) t, .computeDiff, .output .enterAlt (t.emit .enterAlt)] ++ between
    ++ [.output .exitAlt (t.emit .exitAlt)]

/-- With a frame in between, the frame after it captures nothing again. -/
theorem exactly_once_of_alt_frame :
    let r := (Capture.new (MockTerminal.new 1 1 defaultScrollback)).run (altVisit [.computeDiff])
    (r.step .computeDiff).captured = r.scrolled := by
  intro r
  have hok : Run.Ok Capture.step (fun r e ↦ r.Follows e ∧ r.BelowCap e ∧ r.Safe e)
      (Capture.new (MockTerminal.new 1 1 defaultScrollback)) (altVisit [.computeDiff]) := by
    decide +kernel
  have honce := Capture.exactly_once (MockTerminal.new 1 1 defaultScrollback) rfl
    (altVisit [.computeDiff]) hok
  exact (honce.2 (by decide +kernel)).mpr (by decide +kernel)

/-- With a resize in between, the frame after it captures the line a second time. -/
theorem not_exactly_once_of_alt_resize :
    let es := altVisit [.resize ⟨2, 1, 0, 0⟩] ++ [.computeDiff]
    let r := (Capture.new (MockTerminal.new 1 1 defaultScrollback)).run es
    Run.Ok Capture.step (fun r e ↦ r.Follows e ∧ r.BelowCap e)
        (Capture.new (MockTerminal.new 1 1 defaultScrollback)) es ∧
      r.scrolled = [[letterA]] ∧ r.captured = [[letterA], [letterA]] := by
  decide +kernel

end Kmux
