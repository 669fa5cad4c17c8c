import Kmux.Client.Reanchor
import Kmux.Stream.Delivery

/-!
# Clients of one pane are never ahead of it

A client that has only ever heard one pane holds no history beyond the pane's own end, and one that
holds no line at all is not anchored beyond the pane's base, whatever it heard, in whatever order
and with whatever losses. The argument is a bound on messages: each one a pane says speaks of
indices up to its own window at that moment (`within_of_said`), neither end of that window ever
moves back, and a client that hears only bounded messages stays bounded (`bounded_receive`).
-/

namespace Kmux

/-- No index the message speaks of lies beyond `total`, and none it wipes up to beyond `base`. -/
def ServerMessage.Within (base total : ℕ) : ServerMessage → Prop
  | .terminalSnapshot s _ => s.Anchored ∧ s.scrollbackBase ≤ base ∧ s.historyTotal ≤ total
  | .terminalUpdate diff _ =>
    ∀ reset, diff.scrollbackReset = some reset → reset ≤ base ∧ reset ≤ total
  | .scrollbackAppend firstIndex lines _ => firstIndex + lines.length ≤ total
  | .historyLines _ firstIndex lines _ => lines ≠ [] → firstIndex + lines.length ≤ total
  | .cursorUpdate .. => True
  | .gridDigest .. => True
  | .syncReset => True
  | .lagged _ => True

theorem ServerMessage.Within.mono {m : ServerMessage} {b b' t t' : ℕ} (h : m.Within b t)
    (hbase : b ≤ b') (htotal : t ≤ t') : m.Within b' t' := by
  cases m with
  | terminalSnapshot s seqno => exact ⟨h.1, h.2.1.trans hbase, h.2.2.trans htotal⟩
  | terminalUpdate diff seqno =>
    exact fun reset hreset ↦ ⟨(h reset hreset).1.trans hbase, (h reset hreset).2.trans htotal⟩
  | scrollbackAppend firstIndex lines seqno => exact le_trans h htotal
  | historyLines rid firstIndex lines total => exact fun hlines ↦ (h hlines).trans htotal
  | cursorUpdate cursor modes seqno => trivial
  | gridDigest seqno hash => trivial
  | syncReset => trivial
  | lagged missedCount => trivial

/-! ## The client stays bounded -/

/-- The buffer ends no later than `total`, is anchored no later than `base` when it is empty, and
has the client's capacity. -/
structure ScrollbackBuffer.Bounded (base total : ℕ) (sb : ScrollbackBuffer) : Prop where
  historyTotal_le : sb.historyTotal ≤ total
  baseIndex_le : sb.lines = [] → sb.baseIndex ≤ base
  maxLines_eq : sb.maxLines = maxScrollbackLines

namespace ScrollbackBuffer

variable {sb : ScrollbackBuffer} {b t : ℕ}

theorem bounded_default : (default : ScrollbackBuffer).Bounded b t :=
  ⟨Nat.zero_le t, fun _ ↦ Nat.zero_le b, rfl⟩

theorem bounded_resetTo {n : ℕ} (hb : n ≤ b) (ht : n ≤ t) (h : sb.Bounded b t) :
    (sb.resetTo n).Bounded b t := ⟨ht, fun _ ↦ hb, h.maxLines_eq⟩

theorem bounded_clear (h : sb.Bounded b t) : sb.clear.Bounded b t :=
  bounded_resetTo (Nat.zero_le b) (Nat.zero_le t) h

/-- A buffer that lines were pushed to is not empty. -/
theorem foldl_pushLine_ne_nil {lines : List ScrollbackLine} (hlines : lines ≠ []) :
    (lines.foldl pushLine sb).lines ≠ [] := by
  have hpos : 0 < lines.length := List.length_pos_iff.mpr hlines
  have hmax := sb.maxLines_pos
  rw [← List.length_pos_iff, foldl_pushLine_lines, List.length_drop, List.length_append]
  omega

theorem bounded_appendWithIndex {firstIndex : ℕ} {lines : List ScrollbackLine}
    (hlines : lines ≠ []) (ht : firstIndex + lines.length ≤ t) (h : sb.Bounded b t) :
    (sb.appendWithIndex firstIndex lines).1.Bounded b t := by
  rw [appendWithIndex]
  split
  · exact h
  · rename_i hfirst
    rw [not_not] at hfirst
    refine ⟨?_, fun hnil ↦ absurd hnil (foldl_pushLine_ne_nil hlines), ?_⟩
    · rw [foldl_pushLine_historyTotal, ← hfirst]
      exact ht
    · rw [foldl_pushLine_maxLines, h.maxLines_eq]

/-- Dropping up to `n` empties the buffer only if it was anchored before `n` or empty already. -/
theorem bounded_evictBefore {n : ℕ} (hb : n ≤ b) (ht : n ≤ t) (h : sb.Bounded b t) :
    (sb.evictBefore n).Bounded b t := by
  refine ⟨?_, fun hnil ↦ ?_, h.maxLines_eq⟩
  · rw [evictBefore_historyTotal]
    exact max_le h.historyTotal_le ht
  · rw [evictBefore_baseIndex]
    refine max_le ?_ hb
    by_cases hlines : sb.lines = []
    · exact h.baseIndex_le hlines
    · have hpos : 0 < sb.lines.length := List.length_pos_iff.mpr hlines
      rw [evictBefore_lines, List.drop_eq_nil_iff] at hnil
      omega

end ScrollbackBuffer

namespace GridContent

variable {g : GridContent} {b t : ℕ}

theorem bounded_applySnapshot {s : GridSnapshot} (hs : s.Anchored) (hb : s.scrollbackBase ≤ b)
    (ht : s.historyTotal ≤ t) (hg : g.scrollback.Bounded b t) :
    (g.applySnapshot s).1.scrollback.Bounded b t := by
  rw [applySnapshot_scrollback]
  by_cases htail : s.scrollbackTail = []
  · rw [seedScrollback_of_tail_eq_nil hs htail]
    refine ScrollbackBuffer.bounded_evictBefore ?_ ht hg
    rw [← hs.base_eq_of_tail_eq_nil htail]
    exact hb
  · by_cases hbase : g.scrollback.baseIndex < s.historyTotal
    · refine ⟨?_, fun hnil ↦ absurd hnil ?_, ?_⟩
      · rw [seedScrollback_historyTotal_of_base_lt hs htail hbase]
        exact ht
      · rw [seedScrollback_of_base_lt hs htail hbase]
        exact ScrollbackBuffer.foldl_pushLine_ne_nil htail
      · rw [seedScrollback_of_base_lt hs htail hbase, ScrollbackBuffer.foldl_pushLine_maxLines]
        exact hg.maxLines_eq
    · rw [seedScrollback_of_le_base hs htail (not_lt.mp hbase)]
      exact hg

theorem bounded_applyDiff {diff : TerminalDiff}
    (hd : ∀ reset, diff.scrollbackReset = some reset → reset ≤ b ∧ reset ≤ t)
    (hg : g.scrollback.Bounded b t) : (g.applyDiff diff).1.scrollback.Bounded b t := by
  rw [(g.sameContent_applyDiff diff).scrollback]
  cases hreset : diff.scrollbackReset with
  | none => exact hg
  | some reset =>
    exact ScrollbackBuffer.bounded_resetTo (hd reset hreset).1 (hd reset hreset).2 hg

theorem bounded_applyScrollbackAppend {firstIndex : ℕ} {lines : List ScrollbackLine}
    (hl : firstIndex + lines.length ≤ t) (hg : g.scrollback.Bounded b t) :
    (g.applyScrollbackAppend firstIndex lines).1.scrollback.Bounded b t := by
  rw [applyScrollbackAppend]
  split
  · exact hg
  · rename_i hlines
    have happended := ScrollbackBuffer.bounded_appendWithIndex hlines hl hg
    change (maybeClearHistoryGap _).scrollback.Bounded b t
    rw [(sameContent_maybeClearHistoryGap _).scrollback]
    change (if _ then _ else _ : ScrollbackBuffer).Bounded b t
    split
    · exact happended
    · exact ScrollbackBuffer.bounded_clear happended

theorem bounded_applyHistoryLines {firstIndex total : ℕ} {lines : List ScrollbackLine}
    (hl : lines ≠ [] → firstIndex + lines.length ≤ t) (hg : g.scrollback.Bounded b t) :
    (g.applyHistoryLines firstIndex lines total).scrollback.Bounded b t := by
  rw [applyHistoryLines]
  split
  · exact hg
  · rename_i hlines
    have hle := hl hlines
    rw [(sameContent_maybeClearHistoryGap _).scrollback]
    split
    · exact ScrollbackBuffer.bounded_appendWithIndex hlines hle hg
    · split
      · rename_i hinside
        simp only
        split
        · rename_i htail
          refine ScrollbackBuffer.bounded_appendWithIndex htail ?_ hg
          rw [List.length_drop]
          omega
        · exact hg
      · exact hg

end GridContent

namespace PaneSession

/-- The client's scrollback, if there is one, is bounded. -/
def Bounded (b t : ℕ) (s : PaneSession) : Prop :=
  ∀ g, s.buffer = some g → g.scrollback.Bounded b t

variable {s : PaneSession} {b t : ℕ}

theorem bounded_new : new.Bounded b t := fun _ h ↦ absurd h (by simp [new])

theorem bounded_modifyGrid {f : GridContent → GridContent}
    (hf : ∀ g, g.scrollback.Bounded b t → (f g).scrollback.Bounded b t)
    (hs : s.Bounded b t) : (s.modifyGrid f).Bounded b t := by
  intro g hg
  obtain ⟨g₀, hg₀, rfl⟩ := Option.map_eq_some_iff.mp hg
  exact hf g₀ (hs g₀ hg₀)

theorem bounded_maybeFetchHistory (hs : s.Bounded b t) : s.maybeFetchHistory.Bounded b t := by
  rw [maybeFetchHistory]
  split
  · exact hs
  · split <;> exact hs

theorem bounded_resync (hs : s.Bounded b t) : s.resync.Bounded b t :=
  bounded_modifyGrid (fun _ hg ↦ ScrollbackBuffer.bounded_clear hg) hs

theorem bounded_checkPaneSync (hs : s.Bounded b t) (n : SequenceNo) :
    (s.checkPaneSync n).1.Bounded b t := by
  rw [checkPaneSync]
  split
  · exact hs
  · split
    · exact bounded_resync hs
    · exact hs
  · exact hs

theorem bounded_handleServerMessage {m : ServerMessage} (hm : m.Within b t) (hs : s.Bounded b t) :
    (s.handleServerMessage m).Bounded b t := by
  cases m with
  | terminalSnapshot snapshot seqno =>
    have hensured : s.ensurePane.Bounded b t := by
      intro g hg
      obtain rfl := Option.some_inj.mp hg
      cases hbuf : s.buffer with
      | none => exact ScrollbackBuffer.bounded_default
      | some g => exact hs g hbuf
    exact bounded_modifyGrid (s := s.ensurePane)
      (fun g ↦ GridContent.bounded_applySnapshot hm.1 hm.2.1 hm.2.2) hensured
  | terminalUpdate diff seqno =>
    have hchecked := bounded_checkPaneSync hs seqno
    rw [handleServerMessage, onTerminalUpdate]
    split <;> rename_i heq <;> rw [heq] at hchecked
    · exact hchecked
    · exact bounded_maybeFetchHistory
        (bounded_modifyGrid (fun g ↦ GridContent.bounded_applyDiff hm) hchecked)
  | cursorUpdate cursor modes seqno =>
    have hchecked := bounded_checkPaneSync hs seqno
    rw [handleServerMessage, onCursorUpdate]
    split <;> rename_i heq <;> rw [heq] at hchecked
    · exact hchecked
    · exact bounded_modifyGrid (fun g hg ↦ hg) hchecked
  | scrollbackAppend firstIndex lines seqno =>
    have hchecked := bounded_checkPaneSync hs seqno
    rw [handleServerMessage, onScrollbackAppend]
    split <;> rename_i heq <;> rw [heq] at hchecked
    · exact hchecked
    · exact bounded_maybeFetchHistory (bounded_modifyGrid
        (fun g ↦ GridContent.bounded_applyScrollbackAppend hm) hchecked)
  | gridDigest seqno hash =>
    rw [handleServerMessage, onGridDigest]
    split
    · split
      · split
        · exact bounded_resync hs
        · exact hs
      · exact hs
    · exact hs
  | syncReset => exact bounded_modifyGrid (fun _ hg ↦ ScrollbackBuffer.bounded_clear hg) hs
  | lagged missedCount => exact bounded_resync hs
  | historyLines requestId firstIndex lines total =>
    rw [handleServerMessage, onHistoryLines]
    have happlied : (s.modifyGrid fun g ↦ g.applyHistoryLines firstIndex lines total).Bounded b t :=
      bounded_modifyGrid (fun g ↦ GridContent.bounded_applyHistoryLines hm) hs
    refine bounded_maybeFetchHistory ?_
    split <;> exact happlied

/-- **A client that hears only bounded messages stays bounded.** -/
theorem bounded_receive (msgs : List ServerMessage) (hmsgs : ∀ m ∈ msgs, m.Within b t) :
    ∀ s : PaneSession, s.Bounded b t → (s.receive msgs).Bounded b t := by
  induction msgs with
  | nil => exact fun s hs ↦ hs
  | cons m msgs ih =>
    intro s hs
    exact ih (fun m' hm' ↦ hmsgs m' (List.mem_cons_of_mem m hm')) _
      (bounded_handleServerMessage (hmsgs m List.mem_cons_self) hs)

end PaneSession

/-! ## What a pane says is bounded by its history -/

namespace Pane

section Mirror

variable {B : Type*}

/-- The message speaks only of what lies within the pane's mirror. -/
def Covers (p : Pane B) (m : ServerMessage) : Prop :=
  m.Within p.engine.mirror.baseIndex p.engine.mirror.historyTotal

/-- Neither end of the pane's history moves back from `p` to `q`. -/
structure Before (p q : Pane B) : Prop where
  baseIndex_le : p.engine.mirror.baseIndex ≤ q.engine.mirror.baseIndex
  historyTotal_le : p.engine.mirror.historyTotal ≤ q.engine.mirror.historyTotal

theorem Covers.mono {p q : Pane B} {m : ServerMessage} (h : p.Covers m) (hpq : p.Before q) :
    q.Covers m := ServerMessage.Within.mono h hpq.baseIndex_le hpq.historyTotal_le

theorem covers_fetchHistory (p : Pane B) (requestId start count : ℕ) :
    p.Covers (p.fetchHistory requestId start count) := by
  intro hlines
  have hstart : start < p.engine.mirror.historyTotal :=
    not_le.mp fun hle ↦ hlines (p.engine.mirror.range_eq_nil_of_le hle)
  have hbase := p.engine.mirror.baseIndex_le_historyTotal
  change (p.engine.mirror.range start count).1 + (p.engine.mirror.range start count).2.length ≤ _
  rw [ScrollbackMirror.range_fst, ScrollbackMirror.length_range _ hstart]
  omega

end Mirror

variable {B : Type*} [TerminalBackend B]

theorem covers_snapshotMessage (p : Pane B) : p.Covers p.snapshotMessage :=
  ⟨p.engine.anchored_snapshot, le_rfl, le_rfl⟩

/-- The mirror after a cycle: the one the history step leaves, with the captured lines. -/
theorem cycle_mirror (p : Pane B) (b : B) :
    (p.cycle b).1.engine.mirror
      = (p.engine.feed b).historyStep.mirror.append (p.engine.feed b).historyStep.lines := by
  rw [cycle_engine, DiffEngine.computeDiff_mirror]

/-- A wipe moves the base to the end; nothing moves it back. -/
private theorem baseIndex_le_historyStep (e : DiffEngine B) :
    e.mirror.baseIndex ≤ e.historyStep.mirror.baseIndex := by
  rcases e.historyStep_mirror with ⟨-, h⟩ | ⟨-, h⟩ <;> rw [h]
  exact e.mirror.baseIndex_le_historyTotal

theorem before_cycle (p : Pane B) (b : B) : p.Before (p.cycle b).1 := by
  have hbase := baseIndex_le_historyStep (p.engine.feed b)
  have htotal := (p.engine.feed b).historyStep_mirror_historyTotal
  constructor <;> rw [cycle_mirror]
  · rw [ScrollbackMirror.append_baseIndex]
    exact hbase.trans (Nat.le_add_right _ _)
  · rw [ScrollbackMirror.append_historyTotal, htotal]
    exact Nat.le_add_right _ _

theorem before_step (p : Pane B) (e : PaneEvent B) : p.Before (p.step e).1 := by
  cases e with
  | cycle b => exact p.before_cycle b
  | resize sz =>
    constructor
    · change _ ≤ (p.engine.mirror.append p.engine.resizeDrain).baseIndex
      rw [ScrollbackMirror.append_baseIndex]
      exact Nat.le_add_right _ _
    · change _ ≤ (p.engine.mirror.append p.engine.resizeDrain).historyTotal
      rw [ScrollbackMirror.append_historyTotal]
      exact Nat.le_add_right _ _

theorem before_run (es : List (PaneEvent B)) : ∀ p : Pane B, p.Before (p.run es) := by
  induction es with
  | nil => exact fun p ↦ ⟨le_rfl, le_rfl⟩
  | cons e es ih =>
    intro p
    have hstep := p.before_step e
    have hrest := ih (p.step e).1
    exact ⟨hstep.baseIndex_le.trans hrest.baseIndex_le,
      hstep.historyTotal_le.trans hrest.historyTotal_le⟩

/-- The update of a cell frame wipes at most up to the base it leaves behind. -/
private theorem covers_frameDiff (p : Pane B) (b : B) (n : SequenceNo) :
    (p.cycle b).1.Covers (.terminalUpdate (p.engine.feed b).frameDiff n) := by
  intro reset hreset
  change (p.engine.feed b).historyStep.scrollbackReset = some reset at hreset
  rcases (p.engine.feed b).historyStep_mirror with ⟨hnone, -⟩ | ⟨hsome, hmirror⟩
  · rw [hnone] at hreset
    exact absurd hreset (by simp)
  · obtain rfl := Option.some_inj.mp (hsome.symm.trans hreset)
    rw [cycle_mirror, hmirror, ScrollbackMirror.append_baseIndex,
      ScrollbackMirror.append_historyTotal]
    exact ⟨Nat.le_add_right _ _, Nat.le_add_right _ _⟩

private theorem covers_capture (p : Pane B) (b : B) (n : SequenceNo) :
    (p.cycle b).1.Covers (.scrollbackAppend
      ((p.engine.feed b).frameDiff.historyTotal - (p.engine.feed b).historyStep.lines.length)
      (p.engine.feed b).historyStep.lines n) := by
  have htotal : (p.engine.feed b).frameDiff.historyTotal
      = (p.engine.feed b).historyStep.mirror.historyTotal
        + (p.engine.feed b).historyStep.lines.length :=
    ScrollbackMirror.append_historyTotal _ _
  rw [Covers, cycle_mirror, ScrollbackMirror.append_historyTotal]
  change _ - _ + _ ≤ _
  omega

private theorem covers_dispatch {p q : Pane B} {b : B} {m : ServerMessage}
    (hm : m ∈ (q.dispatchDiffResult (.cellDiff (p.engine.feed b).frameDiff
      (p.engine.feed b).historyStep.lines)).2.frames) : (p.cycle b).1.Covers m := by
  rw [dispatchDiffResult] at hm
  by_cases hlines : (p.engine.feed b).historyStep.lines ≠ []
  · simp only [if_pos hlines] at hm
    split at hm <;> rcases List.mem_pair.mp hm with rfl | rfl
    · exact p.covers_frameDiff b _
    · exact p.covers_capture b _
    · exact p.covers_capture b _
    · exact p.covers_frameDiff b _
  · simp only [if_neg hlines] at hm
    obtain rfl := List.mem_singleton.mp hm
    exact p.covers_frameDiff b _

theorem covers_cycle {p : Pane B} {b : B} {m : ServerMessage} (hm : m ∈ (p.cycle b).2.frames) :
    (p.cycle b).1.Covers m := by
  have hframes : (p.cycle b).2.frames = (dispatchDiffResult
      { p with engine := (p.engine.feed b).computeDiff.1 }
      (p.engine.feed b).computeDiff.2).2.frames := rfl
  rw [hframes, DiffEngine.computeDiff_snd] at hm
  split at hm
  · exact covers_dispatch hm
  · split at hm
    · rw [dispatchDiffResult] at hm
      split at hm
      · obtain rfl := List.mem_singleton.mp hm
        trivial
      · exact absurd hm List.not_mem_nil
    · exact absurd hm List.not_mem_nil

theorem covers_step {p : Pane B} {e : PaneEvent B} {m : ServerMessage} (hm : m ∈ (p.step e).2) :
    (p.step e).1.Covers m := by
  cases e with
  | cycle b => exact covers_cycle hm
  | resize sz =>
    obtain rfl := List.mem_singleton.mp hm
    exact ⟨(p.engine.resize sz).anchored_snapshot, le_rfl, le_rfl⟩

/-- **A pane speaks only of its own past.** -/
theorem covers_of_said {p : Pane B} {es : List (PaneEvent B)} {m : ServerMessage}
    (h : p.Said es m) : (p.run es).Covers m := by
  induction h with
  | snapshot p es => exact p.covers_snapshotMessage.mono (before_run es p)
  | reply p es requestId start count =>
    exact (p.covers_fetchHistory requestId start count).mono (before_run es p)
  | digest p es seqno hash => trivial
  | syncReset p es => trivial
  | lagged p es missedCount => trivial
  | broadcast es hm => exact (covers_step hm).mono (before_run es _)
  | later h ih => exact ih

/-- A client that has only ever heard this pane is not ahead of it. -/
theorem bounded_of_said {p : Pane B} {es : List (PaneEvent B)} {heard : List ServerMessage}
    (h : ∀ m ∈ heard, p.Said es m) :
    (PaneSession.new.receive heard).Bounded (p.run es).engine.mirror.baseIndex
      (p.run es).engine.mirror.historyTotal :=
  PaneSession.bounded_receive heard (fun m hm ↦ covers_of_said (h m hm)) _
    PaneSession.bounded_new

omit [TerminalBackend B] in
/-- The pane's snapshot is labelled so that the next frame is the one a client expects. -/
theorem currentSeqno_add_one {p : Pane B} (h : 0 < p.seqnoCounter) :
    p.currentSeqno + 1 = p.seqnoCounter := Nat.sub_add_cancel h

/-- **Attaching.** A client that has only ever heard this pane, and takes a snapshot of `q`, applied
it to a grid that was not ahead, and follows from the label on. -/
theorem following_attach {p q : Pane B} {es : List (PaneEvent B)} {heard : List ServerMessage}
    (hheard : ∀ m ∈ heard, p.Said es m) (hpos : 0 < q.seqnoCounter) :
    ∃ g₀ : GridContent, g₀.scrollback.Bounded (p.run es).engine.mirror.baseIndex
        (p.run es).engine.mirror.historyTotal ∧
      ((PaneSession.new.receive heard).handleServerMessage q.snapshotMessage).Following
        (g₀.applySnapshot q.engine.snapshot).1 q.seqnoCounter
        (PaneSession.new.receive heard).attaches := by
  refine ⟨(PaneSession.new.receive heard).buffer.getD (GridContent.new 24 80), ?_, ?_⟩
  · cases hbuf : (PaneSession.new.receive heard).buffer with
    | none => exact ScrollbackBuffer.bounded_default
    | some g => exact bounded_of_said hheard g hbuf
  · have hfollow := PaneSession.following_onTerminalSnapshot (PaneSession.new.receive heard)
      q.engine.snapshot q.currentSeqno
    rw [currentSeqno_add_one hpos] at hfollow
    exact hfollow

end Pane

end Kmux
