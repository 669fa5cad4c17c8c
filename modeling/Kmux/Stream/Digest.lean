import Kmux.Stream.Resize

/-!
# The grid digest

The daemon certifies a pane's grid by a digest of its own snapshot, and the client compares it with
the digest of its own grid. The digest covers the scrollback envelope, that is the base as well as
the total. The two sides bound their scrollback differently: a snapshot carries at most
`snapshotTailLines` lines, the mirror keeps `mirrorCapacity` and the client `maxScrollbackLines`. So
the bases agree only while no bound is met, and a client that is otherwise in step raises an alarm.

`DigestSafe` says when none is. Along a run of safe steps the two digests are equal.
-/

namespace Kmux

open TerminalBackend

section Digest

variable {B : Type*} [TerminalBackend B]

/-- The event keeps the screen coherent, modes included, and meets no scrollback bound: a cycle does
not overflow the mirror, and a resize does not find more in it than a snapshot carries. -/
def DigestSafe (p : Pane B) : PaneEvent B → Prop
  | .cycle b => Faithful p (.cycle b) ∧
      (p.engine.feed b).historyStep.mirror.lines.length
        + (p.engine.feed b).historyStep.lines.length ≤ mirrorCapacity
  | .resize _ => p.engine.mirror.lines.length + p.engine.resizeDrain.length ≤ snapshotTailLines

instance (p : Pane B) : ∀ e : PaneEvent B, Decidable (DigestSafe p e)
  | .cycle _ => inferInstanceAs (Decidable (_ ∧ _))
  | .resize _ => inferInstanceAs (Decidable (_ ≤ _))

/-- Agreement on the screen and on both ends of the scrollback, each side with its own capacity. -/
structure AgreesWithBase (p : Pane B) (g : GridContent) : Prop extends Agrees p g where
  baseIndex : g.scrollback.baseIndex = p.engine.mirror.baseIndex
  maxLines_eq : g.scrollback.maxLines = maxScrollbackLines
  cap_eq : p.engine.mirror.cap = mirrorCapacity

/-- Such a grid has the digest the daemon computes. -/
theorem liveDigest_of_agreesWithBase {p : Pane B} {g : GridContent} (h : AgreesWithBase p g) :
    g.liveDigest = p.engine.snapshot.liveDigest := by
  refine GridSnapshot.liveDigest_congr ?_ ?_ h.cells h.cursor h.modes h.historyTotal h.baseIndex
  · change g.rows.toUInt16 = p.engine.rows
    rw [h.rows]
    exact UInt16.ofNat_toNat
  · change g.cols.toUInt16 = p.engine.cols
    rw [h.cols]
    exact UInt16.ofNat_toNat

/-! ## The base -/

/-- Seeding keeps the daemon's base when the snapshot carries everything the daemon holds. -/
theorem seedScrollback_baseIndex {e : DiffEngine B} {sb : ScrollbackBuffer}
    (h : sb.Bounded e.mirror.baseIndex e.mirror.historyTotal)
    (hlen : e.mirror.lines.length ≤ snapshotTailLines) :
    (GridContent.seedScrollback sb e.snapshot).baseIndex = e.mirror.baseIndex := by
  have htotal := h.historyTotal_le
  have htail : e.snapshot.scrollbackTail.length = e.mirror.lines.length := by
    change (e.mirror.tail snapshotTailLines).length = _
    rw [ScrollbackMirror.length_tail, min_eq_right hlen]
  have hmirror : e.mirror.historyTotal = e.mirror.baseIndex + e.mirror.lines.length := rfl
  have hsb : sb.historyTotal = sb.baseIndex + sb.lines.length := rfl
  by_cases hlines : e.mirror.lines = []
  · have hnil : e.snapshot.scrollbackTail = [] := by
      rw [← List.length_eq_zero_iff, htail, hlines, List.length_nil]
    rw [GridContent.seedScrollback_of_tail_eq_nil e.anchored_snapshot hnil,
      ScrollbackBuffer.evictBefore_baseIndex]
    rw [hlines, List.length_nil] at hmirror
    change max sb.baseIndex e.mirror.historyTotal = _
    omega
  · have hpos : 0 < e.mirror.lines.length := List.length_pos_iff.mpr hlines
    have hne : e.snapshot.scrollbackTail ≠ [] := by
      rw [← List.length_pos_iff, htail]
      exact hpos
    have hlt : sb.baseIndex < e.mirror.historyTotal := by
      by_contra hge
      -- the client would have to be empty and anchored at the very end of the history
      have hempty : sb.lines = [] := List.length_eq_zero_iff.mp (by omega)
      have := h.baseIndex_le hempty
      omega
    rw [GridContent.seedScrollback_of_base_lt e.anchored_snapshot hne hlt,
      ScrollbackBuffer.foldl_pushLine_baseIndex, ScrollbackBuffer.resetTo_baseIndex,
      ScrollbackBuffer.resetTo_lines, ScrollbackBuffer.resetTo_maxLines,
      ScrollbackBuffer.evictBefore_maxLines, h.maxLines_eq, htail, List.length_nil]
    change e.mirror.historyTotal - _ + _ = _
    have : snapshotTailLines ≤ maxScrollbackLines := by decide
    omega

/-- Following a history step keeps the bases together when the mirror does not overflow. -/
theorem followScrollback_baseIndex {e : DiffEngine B} {sb : ScrollbackBuffer}
    (htotal : sb.historyTotal = e.mirror.historyTotal)
    (hbase : sb.baseIndex = e.mirror.baseIndex)
    (hfits : e.historyStep.mirror.lines.length + e.historyStep.lines.length
      ≤ e.historyStep.mirror.cap)
    (hmax : e.historyStep.mirror.cap ≤ sb.maxLines) :
    (followScrollback sb e.historyStep).baseIndex
      = (e.historyStep.mirror.append e.historyStep.lines).baseIndex := by
  have hlen : sb.lines.length = e.mirror.lines.length := by
    rw [ScrollbackBuffer.historyTotal, ScrollbackMirror.historyTotal] at htotal
    omega
  rw [followScrollback, ScrollbackBuffer.foldl_pushLine_baseIndex,
    ScrollbackMirror.append_baseIndex]
  rcases e.historyStep_mirror with ⟨hreset, hmirror⟩ | ⟨hreset, hmirror⟩ <;>
    rw [hmirror] at hfits hmax ⊢ <;> rw [hreset]
  · simp only
    omega
  · simp only [ScrollbackBuffer.resetTo_baseIndex, ScrollbackBuffer.resetTo_lines,
      ScrollbackBuffer.resetTo_maxLines, ScrollbackMirror.reset_baseIndex,
      ScrollbackMirror.reset_lines, ScrollbackMirror.reset_cap, List.length_nil] at hfits hmax ⊢
    omega

/-! ## Steps and runs -/

/-- A wipe and an append keep the mirror's capacity. -/
private theorem historyStep_mirror_cap (e : DiffEngine B) :
    e.historyStep.mirror.cap = e.mirror.cap := by
  rcases e.historyStep_mirror with ⟨-, h⟩ | ⟨-, h⟩ <;> rw [h]
  exact ScrollbackMirror.reset_cap _

private theorem followScrollback_maxLines (sb : ScrollbackBuffer) (h : HistoryStep) :
    (followScrollback sb h).maxLines = sb.maxLines := by
  rw [followScrollback, ScrollbackBuffer.foldl_pushLine_maxLines]
  split <;> rfl

theorem agreesWithBase_cycle {p : Pane B} {g : GridContent} {b : B} (h : AgreesWithBase p g)
    (hb : DigestSafe p (.cycle b)) :
    AgreesWithBase (p.cycle b).1 (g.applyFrames (p.cycle b).2.frames) := by
  obtain ⟨hfaithful, hfits⟩ := hb
  have hdel := delivered_cycle b h.historyTotal
  have hcap : (p.engine.feed b).historyStep.mirror.cap = mirrorCapacity :=
    (historyStep_mirror_cap _).trans h.cap_eq
  refine ⟨agrees_step h.toAgrees hfaithful, ?_, ?_, ?_⟩
  · rw [hdel.scrollback, p.cycle_mirror]
    refine followScrollback_baseIndex (e := p.engine.feed b) h.historyTotal h.baseIndex ?_ ?_
    · rw [hcap]
      exact hfits
    · rw [hcap, h.maxLines_eq]
      decide
  · rw [hdel.scrollback, followScrollback_maxLines]
    exact h.maxLines_eq
  · rw [p.cycle_mirror, ScrollbackMirror.append_cap]
    exact hcap

/-- A snapshot of everything the mirror holds brings both ends together. -/
theorem agreesWithBase_snapshot {p : Pane B} {g : GridContent}
    (hg : g.scrollback.Bounded p.engine.mirror.baseIndex p.engine.mirror.historyTotal)
    (hlen : p.engine.mirror.lines.length ≤ snapshotTailLines)
    (hcap : p.engine.mirror.cap = mirrorCapacity) :
    AgreesWithBase p (g.applySnapshot p.engine.snapshot).1 := by
  refine ⟨agrees_snapshot hg.historyTotal_le, ?_, ?_, hcap⟩
  · rw [GridContent.applySnapshot_scrollback]
    exact seedScrollback_baseIndex hg hlen
  · exact (GridContent.bounded_applySnapshot p.engine.anchored_snapshot le_rfl le_rfl
      hg).maxLines_eq

theorem agreesWithBase_resize {p : Pane B} {g : GridContent} {sz : BackendSize}
    (h : AgreesWithBase p g) (hsz : DigestSafe p (.resize sz)) :
    AgreesWithBase (p.resize sz).1 (g.applySnapshot (p.resize sz).1.engine.snapshot).1 := by
  have hbefore := p.before_step (.resize sz)
  refine agreesWithBase_snapshot ⟨?_, fun _ ↦ ?_, h.maxLines_eq⟩ ?_ ?_
  · rw [h.historyTotal]
    exact hbefore.historyTotal_le
  · rw [h.baseIndex]
    exact hbefore.baseIndex_le
  · change (p.engine.mirror.append p.engine.resizeDrain).lines.length ≤ _
    rw [ScrollbackMirror.append_lines, List.length_drop, List.length_append]
    exact (Nat.sub_le _ _).trans hsz
  · change (p.engine.mirror.append p.engine.resizeDrain).cap = _
    rw [ScrollbackMirror.append_cap, h.cap_eq]

theorem agreesWithBase_step {p : Pane B} {g : GridContent} {e : PaneEvent B}
    (h : AgreesWithBase p g) (he : DigestSafe p e) :
    AgreesWithBase (p.step e).1 (g.applyFrames (p.step e).2) := by
  cases e with
  | cycle b => exact agreesWithBase_cycle h he
  | resize sz => exact agreesWithBase_resize h he

/-- The mirror's capacity is fixed when the pane is spawned. -/
theorem Pane.mirror_cap_run (es : List (PaneEvent B)) :
    ∀ p : Pane B, (p.run es).engine.mirror.cap = p.engine.mirror.cap := by
  induction es with
  | nil => exact fun p ↦ rfl
  | cons e es ih =>
    intro p
    rw [Pane.run_cons, ih]
    cases e with
    | cycle b =>
      change (p.cycle b).1.engine.mirror.cap = _
      rw [p.cycle_mirror, ScrollbackMirror.append_cap, historyStep_mirror_cap]
      rfl
    | resize sz => exact ScrollbackMirror.append_cap _ _

/-- **No false alarm.** Attach while the mirror holds no more than a snapshot carries, and follow a
run of safe steps: the client's digest is the one the daemon computes, so a digest broadcast then
certifies the client's grid. -/
theorem digest_agreement (b₀ : B) (pre post : List (PaneEvent B)) (heard : List ServerMessage)
    (hheard : ∀ m ∈ heard, (Pane.new b₀).Said pre m)
    (hattach : ((Pane.new b₀).run pre).engine.mirror.lines.length ≤ snapshotTailLines)
    (hpost : Run.Ok (fun p e ↦ (Pane.step p e).1) DigestSafe ((Pane.new b₀).run pre) post) :
    let p := (Pane.new b₀).run pre
    let client := ((PaneSession.new.receive heard).handleServerMessage
      p.snapshotMessage).receive (p.emitted post)
    ∃ g, client.buffer = some g ∧ g.liveDigest = (p.run post).engine.snapshot.liveDigest ∧
      ∀ interval dispatch seqno hash,
        (p.run post).gridDigest interval dispatch = some (.gridDigest seqno hash) →
          g.liveDigest = hash := by
  intro p client
  have hpos : 0 < p.seqnoCounter := Pane.seqnoCounter_pos_run Nat.one_pos _
  obtain ⟨g₀, hheld, hfollow⟩ := Pane.following_attach hheard hpos
  have hagrees := applyFrames_emitted (fun p g e h he ↦ agreesWithBase_step h he) post p _
    (agreesWithBase_snapshot hheld hattach (Pane.mirror_cap_run pre (Pane.new b₀))) hpost
  obtain ⟨-, hs⟩ := PaneSession.receive_of_numbered hfollow (Pane.numbered_emitted post p hpos)
  have hdigest := liveDigest_of_agreesWithBase hagrees
  refine ⟨_, hs.buffer, hdigest, fun interval dispatch seqno hash hmsg ↦ ?_⟩
  obtain ⟨n, -, hdue⟩ := Option.bind_eq_some_iff.mp hmsg
  split at hdue
  · cases hdue
    exact hdigest
  · exact absurd hdue (by simp)

end Digest

/-- The widened screen again: nothing has scrolled off, so no bound is met. -/
theorem digest_agreement_of_more_text :
    Run.Ok (fun p e ↦ (Pane.step p e).1) DigestSafe (Pane.new (MockBackend.new 1 1))
        (widenedRun [letterA, letterA]) ∧
      ∃ g, (widenedClient [letterA, letterA]).buffer = some g ∧
        g.liveDigest = ((Pane.new (MockBackend.new 1 1)).run
          (widenedRun [letterA, letterA])).engine.snapshot.liveDigest := by
  have hok : Run.Ok (fun p e ↦ (Pane.step p e).1) DigestSafe (Pane.new (MockBackend.new 1 1))
      (widenedRun [letterA, letterA]) := by decide +kernel
  obtain ⟨g, hg, hdigest, -⟩ := digest_agreement (MockBackend.new 1 1) []
    (widenedRun [letterA, letterA]) [] (by simp) (by decide) hok
  exact ⟨hok, g, hg, hdigest⟩

/-! ## A false alarm

A pane with one line more than a snapshot carries. The client attaches, the one cell blinks, and
the thirty-second frame is certified. -/

/-- The screen with 501 lines behind it. -/
def longHistory (cell : CellState) : MockBackend :=
  { MockBackend.new 1 1 with
    cells := [cell]
    historyLen := 501
    historyLines := List.replicate 501 [default] }

/-- The pane as the client finds it. -/
def longPane : Pane MockBackend :=
  (Pane.new (MockBackend.new 1 1)).run [.cycle (longHistory default)]

/-- The cell blinks. -/
def blinking : List (PaneEvent MockBackend) :=
  (List.range 29).map fun i ↦ .cycle (longHistory (if i % 2 = 0 then letterA else default))

/-- The cycle whose frame is certified. -/
def certifiedCycle : Pane MockBackend × Dispatch :=
  (longPane.run blinking).cycle (longHistory default)

/-- The client that has received every frame up to that one. -/
def certifiedClient : PaneSession :=
  (PaneSession.new.handleServerMessage longPane.snapshotMessage).receive
    (longPane.emitted blinking ++ certifiedCycle.2.frames)

/-- The client has no gap pending and is synced at exactly the certified frame, and its digest is
not the one broadcast. -/
theorem not_digest_agreement_of_long_history :
    ¬∀ g seqno hash, certifiedClient.buffer = some g → g.pendingHistoryGap = none →
      certifiedClient.paneSync = some (.synced (seqno + 1)) →
      certifiedCycle.1.gridDigest digestSeqnoInterval certifiedCycle.2
        = some (.gridDigest seqno hash) → g.liveDigest = hash := by
  intro h
  have hclient : certifiedClient.buffer.map (fun g ↦ (g.pendingHistoryGap,
      decide (g.liveDigest = certifiedCycle.1.engine.snapshot.liveDigest)))
      = some (none, false) := by decide +kernel
  have hsync : certifiedClient.paneSync = some (.synced (32 + 1)) := by decide +kernel
  have hdue : certifiedCycle.2.certified = some 32 := by decide +kernel
  obtain ⟨g, hg, hpair⟩ := Option.map_eq_some_iff.mp hclient
  obtain ⟨hgap, hdigest⟩ := Prod.mk.inj hpair
  refine of_decide_eq_false hdigest (h g 32 _ hg hgap hsync ?_)
  rw [Pane.gridDigest, hdue]
  rfl

end Kmux
