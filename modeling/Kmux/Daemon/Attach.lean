import Kmux.Daemon.Relay
import Kmux.VtCore.MockBackend

/-!
# Catching a client up

What an attach answers, from the state of the pane alone: a full snapshot for a client that comes
without a sequence number, the missed diffs for one that comes with a number the replay buffer still
covers, and otherwise a snapshot after a reset.
-/

namespace Kmux

/-- Maximum number of buffered diffs to replay before coalescing to a snapshot. -/
def maxResumeDeltaDiffs : ℕ := 256

/-- Maximum estimated size of the buffered diffs to replay. -/
def maxResumeDeltaBytes : ℕ := 256 * 1024

/-- What replay data an attach sends. -/
inductive AttachResult
  | fullSnapshot (snapshot : GridSnapshot) (seqno : SequenceNo)
  | delta (diffs : List (SequenceNo × TerminalDiff))
  | syncReset (snapshot : GridSnapshot) (seqno : SequenceNo)
  deriving DecidableEq, Repr

namespace Pane

variable {B : Type*} [TerminalBackend B]

/-- The catch-up payload of an attach. -/
def computeReplay (p : Pane B) : Option SequenceNo → AttachResult
  | none => .fullSnapshot p.engine.snapshot p.currentSeqno
  | some seq =>
    -- a seqno past the current one was issued by another daemon run
    if p.currentSeqno < seq then .syncReset p.engine.snapshot p.currentSeqno
    else
      match p.scrollback.oldestSeqno with
      | some oldest =>
        if oldest ≤ seq then
          -- too much has piled up: one snapshot is cheaper than the diffs
          let stats := p.scrollback.pendingStats seq
          if maxResumeDeltaDiffs < stats.1 ∨ maxResumeDeltaBytes < stats.2 then
            .syncReset p.engine.snapshot p.currentSeqno
          else .delta (p.scrollback.since seq)
        else .syncReset p.engine.snapshot p.currentSeqno
      | none => .syncReset p.engine.snapshot p.currentSeqno

/-- A delta is answered only for a number the buffer reaches back to. -/
theorem computeReplay_eq_delta {p : Pane B} {last : SequenceNo}
    {ds : List (SequenceNo × TerminalDiff)} (h : p.computeReplay (some last) = .delta ds) :
    ds = p.scrollback.since last ∧
      ∃ oldest, p.scrollback.oldestSeqno = some oldest ∧ oldest ≤ last := by
  rw [computeReplay] at h
  split at h
  · exact absurd h (by simp)
  · split at h
    · rename_i oldest holdest
      split at h
      · rename_i hle
        simp only at h
        split at h
        · exact absurd h (by simp)
        · exact ⟨(AttachResult.delta.inj h).symm, oldest, holdest, hle⟩
      · exact absurd h (by simp)
    · exact absurd h (by simp)

end Pane

/-- **The suffix law.** Whatever the budget, the buffer holds a contiguous suffix of what was pushed
and knows its size; and above a seqno that it reaches back to, it gives back all that was ever
pushed, which is what a delta replays. -/
theorem DiffBuffer.suffix_law {B : Type*} [TerminalBackend B] (capacity : ℕ)
    (pushed : List (SequenceNo × TerminalDiff)) (hpushed : pushed.Pairwise fun d e ↦ d.1 < e.1) :
    let b := (DiffBuffer.new capacity).pushAll pushed
    b.diffs <:+ pushed.map entry ∧
      b.totalEstimatedSize = (b.diffs.map fun entry ↦ estimateDiffSize entry.2.1).sum ∧
      (∀ oldest ∈ b.oldestSeqno, ∀ seq, oldest ≤ seq →
        let missed := pushed.filter fun d ↦ decide (seq < d.1)
        b.since seq = missed ∧
          b.pendingStats seq = (missed.length, (missed.map fun d ↦ estimateDiffSize d.2).sum)) ∧
      ∀ p : Pane B, p.scrollback = b → ∀ seq ds, p.computeReplay (some seq) = .delta ds →
        ds = pushed.filter fun d ↦ decide (seq < d.1) := by
  intro b
  have h : b.Holds pushed := (holds_new capacity).pushAll pushed
  have hsince : ∀ oldest ∈ b.oldestSeqno, ∀ seq, oldest ≤ seq →
      b.since seq = pushed.filter fun d ↦ decide (seq < d.1) := by
    intro oldest holdest seq hseq
    rw [since, h.filter_eq hpushed holdest hseq, List.map_map]
    exact List.map_id _
  refine ⟨h.suffix, by rw [h.total, h.sizes], fun oldest holdest seq hseq ↦ ?_, ?_⟩
  · refine ⟨hsince oldest holdest seq hseq, ?_⟩
    rw [pendingStats, h.filter_eq hpushed holdest hseq, List.length_map, List.map_map]
    rfl
  · intro p hp seq ds hds
    obtain ⟨rfl, oldest, holdest, hseq⟩ := Pane.computeReplay_eq_delta hds
    rw [hp] at holdest ⊢
    exact hsince oldest holdest seq hseq

/-- Of three diffs the first is evicted, and a client at the second gets the third. -/
theorem DiffBuffer.suffix_law_evicted :
    let diff : TerminalDiff :=
      { ops := [], cursor := default, modes := TermModes.empty, historyTotal := 0,
        scrollbackReset := none }
    ((DiffBuffer.new 40).pushAll [(1, diff), (2, diff), (4, diff)]).since 2 = [(4, diff)] := by
  intro diff
  have h := DiffBuffer.suffix_law (B := MockBackend) 40 [(1, diff), (2, diff), (4, diff)]
    (by simp)
  exact (h.2.2.1 2 rfl 2 (Nat.le_refl 2)).1

/-- The messages an attach result turns into. -/
def buildAttachReplay : AttachResult → List ServerMessage
  | .fullSnapshot snapshot seqno => [.terminalSnapshot snapshot seqno]
  | .delta diffs => diffs.map fun entry ↦ .terminalUpdate entry.2 entry.1
  | .syncReset snapshot seqno => [.syncReset, .terminalSnapshot snapshot seqno]

end Kmux
