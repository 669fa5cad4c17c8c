import Kmux.Client.Reanchor
import Kmux.History.Backend
import Kmux.Stream.Heard

/-!
# Erasing the history

A pane, and a client that applies everything it is sent. Between two frames the program may erase
the history of the main screen, let it grow back, and switch screens in any order. After the next
frame nothing captured before the erase should be left, in the mirror or with the client.

The engine recognises an erase only as a shrunken size on the main screen. `forgotten_iff` says
when that suffices: the erase is seen, or what the frame captures pushes everything older out of
both buffers.
-/

namespace Kmux

open TerminalBackend

/-- A pane and a client that follows it. -/
structure Watched (B : Type*) where
  pane : Pane B
  client : GridContent
  /-- Where the mirror ended when the history was last erased, if it was since the last frame. -/
  erased : Option ℕ

/-- What can happen to the two. -/
inductive WatchEvent (B : Type*)
  | output (o : TermOutput) (b : B)
  | flush
  | resize (sz : BackendSize)
  /-- A new client attaches, and is the one followed from then on. -/
  | attach

namespace Watched

variable {B : Type*}

section Step

variable [TerminalBackend B]

/-- A fresh client takes a snapshot. -/
def attachTo (p : Pane B) : GridContent :=
  ((GridContent.new 24 80).applySnapshot p.engine.snapshot).1

def new (b₀ : B) : Watched B :=
  { pane := Pane.new b₀, client := attachTo (Pane.new b₀), erased := none }

def step (s : Watched B) : WatchEvent B → Watched B
  | .output o b =>
    { s with
      pane := s.pane.feed b
      erased := if o = .wipe then some s.pane.engine.mirror.historyTotal else s.erased }
  | .flush =>
    let d := s.pane.flushCellDiff
    { pane := d.1, client := s.client.applyFrames d.2.frames, erased := none }
  | .resize sz =>
    let d := s.pane.resize sz
    { s with pane := d.1, client := s.client.applyFrames d.2 }
  | .attach => { s with client := attachTo s.pane }

def run (s : Watched B) (es : List (WatchEvent B)) : Watched B := Run.exec step s es

/-- Nothing captured before the mirror reached `total` can be read back: not from the mirror, not
from a snapshot, not from the client. -/
structure Forgotten (s : Watched B) (total : ℕ) : Prop where
  range : ∀ start count, (s.pane.engine.mirror.range start count).2 ≠ [] →
    total ≤ (s.pane.engine.mirror.range start count).1
  tail : ∀ n, total + (s.pane.engine.mirror.tail n).length ≤ s.pane.engine.mirror.historyTotal
  snapshot : total + s.pane.engine.snapshot.scrollbackTail.length
    ≤ s.pane.engine.snapshot.historyTotal
  client : ∀ i < total, s.client.scrollback.getAbsolute i = none

/-! ## Following -/

/-- The client's history ends where the mirror's does, and an erase lies behind it. -/
structure Synced (s : Watched B) : Prop where
  historyTotal : s.client.scrollback.historyTotal = s.pane.engine.mirror.historyTotal
  erased_le : ∀ total ∈ s.erased, total ≤ s.pane.engine.mirror.historyTotal

variable {s : Watched B}

theorem attachTo_historyTotal (p : Pane B) :
    (attachTo p).scrollback.historyTotal = p.engine.mirror.historyTotal := by
  rw [attachTo, GridContent.applySnapshot_scrollback]
  exact GridContent.seedScrollback_historyTotal_of_le p.engine.anchored_snapshot (Nat.zero_le _)

/-- The client's scrollback after a frame. A frame on its own is the cycle that feeds the emulator
its own state. -/
theorem flush_scrollback (h : s.Synced) :
    (s.step .flush).client.scrollback
      = followScrollback s.client.scrollback s.pane.engine.historyStep :=
  (delivered_cycle s.pane.engine.backend h.historyTotal).scrollback

/-- The mirror after a frame. -/
theorem flush_mirror (s : Watched B) :
    (s.step .flush).pane.engine.mirror
      = s.pane.engine.historyStep.mirror.append s.pane.engine.historyStep.lines :=
  s.pane.cycle_mirror s.pane.engine.backend

theorem synced_step (h : s.Synced) (e : WatchEvent B) : (s.step e).Synced := by
  cases e with
  | output o b =>
    refine ⟨h.historyTotal, ?_⟩
    change ∀ total ∈ ite _ _ _, total ≤ s.pane.engine.mirror.historyTotal
    split
    · intro total htotal
      rw [Option.mem_some_iff] at htotal
      exact htotal.ge
    · exact h.erased_le
  | flush =>
    refine ⟨?_, fun total htotal ↦ absurd htotal (Option.not_mem_none total)⟩
    rw [flush_scrollback h, flush_mirror]
    exact followScrollback_historyTotal s.pane.engine h.historyTotal
  | resize sz =>
    have hgrew : s.pane.engine.mirror.historyTotal
        ≤ (s.pane.engine.resize sz).mirror.historyTotal := by
      rw [DiffEngine.resize, ScrollbackMirror.append_historyTotal]
      exact Nat.le_add_right _ _
    refine ⟨?_, fun total htotal ↦ (h.erased_le total htotal).trans hgrew⟩
    change (s.client.applySnapshot (s.pane.engine.resize sz).snapshot).1.scrollback.historyTotal = _
    rw [GridContent.applySnapshot_scrollback]
    exact GridContent.seedScrollback_historyTotal_of_le
      (s.pane.engine.resize sz).anchored_snapshot (h.historyTotal.trans_le hgrew)
  | attach => exact ⟨attachTo_historyTotal s.pane, h.erased_le⟩

theorem synced_run (b₀ : B) (es : List (WatchEvent B)) : ((new b₀).run es).Synced := by
  have hinit : (new b₀).Synced :=
    ⟨attachTo_historyTotal (Pane.new b₀), fun total h ↦ absurd h (Option.not_mem_none total)⟩
  exact Run.invariant (fun s e (h : s.Synced) ↦ synced_step h e) es (new b₀) hinit

/-! ## What is left -/

/-- Nothing below `total` is left just if both buffers start no earlier. -/
theorem forgotten_iff_base (h : s.Synced) {total : ℕ}
    (htotal : total ≤ s.pane.engine.mirror.historyTotal) :
    s.Forgotten total ↔
      total ≤ s.pane.engine.mirror.baseIndex ∧ total ≤ s.client.scrollback.baseIndex := by
  constructor
  · intro hforgotten
    constructor
    · have htail := hforgotten.tail s.pane.engine.mirror.lines.length
      rw [ScrollbackMirror.length_tail, ScrollbackMirror.historyTotal, min_self] at htail
      exact Nat.le_of_add_le_add_right htail
    · -- a buffer that starts earlier still holds its first line
      by_contra hlt
      obtain ⟨line, hline⟩ := Window.exists_get?_eq_some (w := s.client.scrollback.toWindow)
        (i := s.client.scrollback.baseIndex) le_rfl
        ((not_le.mp hlt).trans_le (htotal.trans_eq h.historyTotal.symm))
      have hnone := hforgotten.client _ (not_le.mp hlt)
      rw [ScrollbackBuffer.getAbsolute_eq, hline] at hnone
      exact absurd hnone (by simp)
  · rintro ⟨hmirror, hclient⟩
    have htail : ∀ n,
        total + (s.pane.engine.mirror.tail n).length ≤ s.pane.engine.mirror.historyTotal := by
      intro n
      rw [ScrollbackMirror.length_tail, ScrollbackMirror.historyTotal]
      exact Nat.add_le_add hmirror (min_le_right _ _)
    refine ⟨fun start count _ ↦ ?_, htail, htail snapshotTailLines, fun i hi ↦ ?_⟩
    · rw [ScrollbackMirror.range_fst]
      exact hmirror.trans (le_max_right _ _)
    · exact if_pos (hi.trans_le hclient)

end Step

variable [HistoryBackend B]

/-- Everything below `total` leaves a buffer of capacity `cap` when `k` lines are added. -/
def PushedOut (total baseIndex historyTotal cap k : ℕ) : Prop :=
  total ≤ baseIndex ∨ total + cap ≤ historyTotal + k

instance (total baseIndex historyTotal cap k : ℕ) :
    Decidable (PushedOut total baseIndex historyTotal cap k) :=
  inferInstanceAs (Decidable (_ ∨ _))

private theorem pushedOut_iff {total baseIndex length cap k : ℕ} :
    total ≤ baseIndex + (length + k - cap) ↔
      PushedOut total baseIndex (baseIndex + length) cap k := by
  rw [PushedOut]
  omega

variable {s : Watched B}

/-- A wipe that is seen empties both buffers up to the end of the old history. -/
private theorem forgotten_of_wipeSeen (h : s.Synced) {total : ℕ} (herased : total ∈ s.erased)
    (hseen : s.pane.engine.WipeSeen) :
    total ≤ (s.step .flush).pane.engine.mirror.baseIndex ∧
      total ≤ (s.step .flush).client.scrollback.baseIndex := by
  obtain ⟨hreset, hmirror⟩ := DiffEngine.historyStep_of_wipeSeen hseen
  have hle := h.erased_le total herased
  rw [flush_mirror, flush_scrollback h, followScrollback, hreset, hmirror,
    ScrollbackMirror.append_baseIndex, ScrollbackBuffer.foldl_pushLine_baseIndex]
  exact ⟨hle.trans (Nat.le_add_right _ _), hle.trans (Nat.le_add_right _ _)⟩

/-- Otherwise both buffers only move on by what is captured. -/
private theorem base_flush_of_not_wipeSeen (h : s.Synced) (total : ℕ)
    (hseen : ¬s.pane.engine.WipeSeen) :
    (total ≤ (s.step .flush).pane.engine.mirror.baseIndex ↔
      PushedOut total s.pane.engine.mirror.baseIndex s.pane.engine.mirror.historyTotal
        s.pane.engine.mirror.cap s.pane.engine.outstanding) ∧
    (total ≤ (s.step .flush).client.scrollback.baseIndex ↔
      PushedOut total s.client.scrollback.baseIndex s.client.scrollback.historyTotal
        s.client.scrollback.maxLines s.pane.engine.outstanding) := by
  obtain ⟨hreset, hmirror, hlength⟩ := DiffEngine.historyStep_of_not_wipeSeen hseen
  rw [flush_mirror, flush_scrollback h, followScrollback, hreset, hmirror,
    ScrollbackMirror.append_baseIndex, ScrollbackBuffer.foldl_pushLine_baseIndex, hlength]
  exact ⟨pushedOut_iff, pushedOut_iff⟩

/-- **Erasure.** In every state a run can reach, with the history erased since the last frame, the
next frame leaves nothing captured before the erase if and only if it sees the wipe, or captures so
much that everything older leaves both the mirror and the client's buffer. -/
theorem forgotten_iff (b₀ : B) (es : List (WatchEvent B)) {total : ℕ}
    (herased : total ∈ ((new b₀).run es).erased) :
    let s := (new b₀).run es
    (s.step .flush).Forgotten total ↔
      s.pane.engine.WipeSeen ∨
        PushedOut total s.pane.engine.mirror.baseIndex s.pane.engine.mirror.historyTotal
            s.pane.engine.mirror.cap s.pane.engine.outstanding ∧
          PushedOut total s.client.scrollback.baseIndex s.client.scrollback.historyTotal
            s.client.scrollback.maxLines s.pane.engine.outstanding := by
  intro s
  have h : s.Synced := synced_run b₀ es
  have hend : s.pane.engine.mirror.historyTotal
      ≤ (s.step .flush).pane.engine.mirror.historyTotal := by
    rw [flush_mirror, ScrollbackMirror.append_historyTotal,
      DiffEngine.historyStep_mirror_historyTotal]
    exact Nat.le_add_right _ _
  rw [forgotten_iff_base (synced_step h .flush) ((h.erased_le total herased).trans hend)]
  by_cases hseen : s.pane.engine.WipeSeen
  · exact ⟨fun _ ↦ Or.inl hseen, fun _ ↦ forgotten_of_wipeSeen h herased hseen⟩
  · obtain ⟨hmirror, hclient⟩ := base_flush_of_not_wipeSeen h total hseen
    rw [or_iff_right hseen, hmirror, hclient]

end Watched

/-! ## Two runs -/

/-- Pieces of output, one after the other. -/
def outputs : MockTerminal → List TermOutput → List (WatchEvent MockTerminal)
  | _, [] => []
  | t, o :: os => .output o (t.emit o) :: outputs (t.emit o) os

/-- A line is captured, and more output follows. -/
def captureThen (os : List TermOutput) : Watched MockTerminal :=
  let t := MockTerminal.new 1 1 defaultScrollback
  (Watched.new t).run
    (outputs t [.scroll [letterA]] ++ [.flush] ++ outputs (t.emit (.scroll [letterA])) os)

/-- The history is erased, and the next frame finds it empty. -/
theorem forgotten_of_empty_history : ((captureThen [.wipe]).step .flush).Forgotten 1 :=
  (Watched.forgotten_iff (MockTerminal.new 1 1 defaultScrollback) _
    (show 1 ∈ (captureThen [.wipe]).erased by decide +kernel)).mpr
      (Or.inl (show (captureThen [.wipe]).pane.engine.WipeSeen by decide +kernel))

/-- A single line scrolls off after the erase. The erased line is still served, and the client
still holds it. -/
theorem not_forgotten_of_regrown_history :
    let s := captureThen [.wipe, .scroll [default]]
    1 ∈ s.erased ∧ (s.step .flush).pane.engine.mirror.range 0 1 = (0, [[letterA]]) ∧
      (s.step .flush).client.scrollback.getAbsolute 0 = some [letterA] ∧
      ¬(s.step .flush).Forgotten 1 := by
  intro s
  have herased : 1 ∈ s.erased := by decide +kernel
  have hserved : (s.step .flush).pane.engine.mirror.range 0 1 = (0, [[letterA]]) := by
    decide +kernel
  have hheld : (s.step .flush).client.scrollback.getAbsolute 0 = some [letterA] := by
    decide +kernel
  refine ⟨herased, hserved, hheld, fun hforgotten ↦ ?_⟩
  have hnone := hforgotten.client 0 Nat.one_pos
  rw [hheld] at hnone
  exact absurd hnone (by simp)

end Kmux
