import Kmux.Protocol.Vt

/-!
# The replay buffer

`DiffBuffer` keeps the most recent terminal diffs of a pane, tagged with their sequence numbers,
up to a byte budget. A client that resumes is sent the part it missed. Only diffs are kept: a
cursor update is stored as a diff without operations, and a scrollback append not at all.
-/

namespace Kmux

/-- Estimated memory footprint of a diff. -/
def estimateDiffSize (diff : TerminalDiff) : ℕ :=
  (diff.ops.map fun
    | .cell .. => 16
    | .row _ _ cells => 8 + cells.length * 16
    | .clear => 4).sum + 16

/-- A bounded ring buffer of diffs indexed by sequence number, each with its cached size. -/
structure DiffBuffer where
  diffs : List (SequenceNo × TerminalDiff × ℕ)
  totalEstimatedSize : ℕ
  capacity : ℕ
  deriving DecidableEq, Repr

namespace DiffBuffer

def new (capacity : ℕ) : DiffBuffer := { diffs := [], totalEstimatedSize := 0, capacity }

/-- The eviction loop: drop the oldest entry while a diff of `size` bytes would not fit. -/
def evictFor (capacity size : ℕ) :
    List (SequenceNo × TerminalDiff × ℕ) → ℕ → List (SequenceNo × TerminalDiff × ℕ) × ℕ
  | [], total => ([], total)
  | entry :: rest, total =>
    if capacity ≤ total + size then evictFor capacity size rest (total - entry.2.2)
    else (entry :: rest, total)

/-- Append a diff, evicting the oldest entries as needed. -/
def push (b : DiffBuffer) (seqno : SequenceNo) (diff : TerminalDiff) : DiffBuffer :=
  let size := estimateDiffSize diff
  let kept := evictFor b.capacity size b.diffs b.totalEstimatedSize
  { b with
    diffs := kept.1 ++ [(seqno, diff, size)]
    totalEstimatedSize := kept.2 + size }

/-- All diffs with a seqno above `after`, in order. -/
def since (b : DiffBuffer) (after : SequenceNo) : List (SequenceNo × TerminalDiff) :=
  (b.diffs.filter fun entry ↦ decide (after < entry.1)).map fun entry ↦ (entry.1, entry.2.1)

/-- The oldest sequence number still in the buffer. -/
def oldestSeqno (b : DiffBuffer) : Option SequenceNo := b.diffs.head?.map Prod.fst

/-- Count and estimated size of the diffs with a seqno above `after`. -/
def pendingStats (b : DiffBuffer) (after : SequenceNo) : ℕ × ℕ :=
  let pending := b.diffs.filter fun entry ↦ decide (after < entry.1)
  (pending.length, (pending.map fun entry ↦ entry.2.2).sum)

/-! ## The suffix law

Eviction only ever drops from the front, so the buffer is always a suffix of what was pushed. -/

theorem evictFor_suffix (capacity size : ℕ) :
    ∀ (diffs : List (SequenceNo × TerminalDiff × ℕ)) (total : ℕ),
      (evictFor capacity size diffs total).1 <:+ diffs := by
  intro diffs
  induction diffs with
  | nil => intro total; exact List.suffix_refl _
  | cons entry rest ih =>
    intro total
    rw [evictFor]
    split
    · exact (ih _).trans (List.suffix_cons entry rest)
    · exact List.suffix_refl _

theorem push_suffix (b : DiffBuffer) (seqno : SequenceNo) (diff : TerminalDiff) :
    (b.push seqno diff).diffs <:+ b.diffs ++ [(seqno, diff, estimateDiffSize diff)] := by
  obtain ⟨dropped, hdropped⟩ :=
    evictFor_suffix b.capacity (estimateDiffSize diff) b.diffs b.totalEstimatedSize
  exact ⟨dropped, by rw [push, ← List.append_assoc, hdropped]⟩

/-- Eviction takes the sizes of what it drops off the total. -/
theorem evictFor_total (capacity size : ℕ) :
    ∀ (diffs : List (SequenceNo × TerminalDiff × ℕ)) (total : ℕ),
      total = (diffs.map fun entry ↦ entry.2.2).sum →
        (evictFor capacity size diffs total).2 =
          ((evictFor capacity size diffs total).1.map fun entry ↦ entry.2.2).sum := by
  intro diffs
  induction diffs with
  | nil => intro total htotal; exact htotal
  | cons entry rest ih =>
    intro total htotal
    rw [evictFor]
    split
    · refine ih _ ?_
      rw [htotal, List.map_cons, List.sum_cons, Nat.add_sub_cancel_left]
    · exact htotal

/-- What the buffer holds of a diff. -/
def entry (d : SequenceNo × TerminalDiff) : SequenceNo × TerminalDiff × ℕ :=
  (d.1, d.2, estimateDiffSize d.2)

/-- Push diffs in order. -/
def pushAll (b : DiffBuffer) (ds : List (SequenceNo × TerminalDiff)) : DiffBuffer :=
  ds.foldl (fun b d ↦ b.push d.1 d.2) b

/-- The buffer holds a suffix of what was pushed, and the total is that of what it holds. -/
structure Holds (b : DiffBuffer) (pushed : List (SequenceNo × TerminalDiff)) : Prop where
  suffix : b.diffs <:+ pushed.map entry
  total : b.totalEstimatedSize = (b.diffs.map fun entry ↦ entry.2.2).sum

theorem holds_new (capacity : ℕ) : (new capacity).Holds [] := ⟨List.suffix_refl [], rfl⟩

theorem Holds.push {b : DiffBuffer} {pushed : List (SequenceNo × TerminalDiff)} (h : b.Holds pushed)
    (d : SequenceNo × TerminalDiff) : (b.push d.1 d.2).Holds (pushed ++ [d]) where
  suffix := by
    obtain ⟨dropped, hdropped⟩ := h.suffix
    refine (push_suffix b d.1 d.2).trans ⟨dropped, ?_⟩
    rw [List.map_append, ← hdropped, List.append_assoc]
    rfl
  total := by
    rw [DiffBuffer.push, List.map_append, List.sum_append,
      evictFor_total b.capacity _ b.diffs _ h.total]
    rfl

theorem Holds.pushAll {b : DiffBuffer} {pushed : List (SequenceNo × TerminalDiff)}
    (h : b.Holds pushed) (ds : List (SequenceNo × TerminalDiff)) :
    (b.pushAll ds).Holds (pushed ++ ds) := by
  induction ds generalizing b pushed with
  | nil => rwa [List.append_nil]
  | cons d ds ih =>
    rw [List.append_cons]
    exact ih (h.push d)

/-! ## Reading back

What was dropped was pushed before the oldest entry that is held, so under growing seqnos none of
it is above a seqno that the buffer reaches back to. -/

/-- Above such a seqno the buffer holds what was pushed. -/
theorem Holds.filter_eq {b : DiffBuffer} {pushed : List (SequenceNo × TerminalDiff)}
    (h : b.Holds pushed) (hpushed : pushed.Pairwise fun d e ↦ d.1 < e.1) {oldest seq : SequenceNo}
    (holdest : b.oldestSeqno = some oldest) (hseq : oldest ≤ seq) :
    b.diffs.filter (fun entry ↦ decide (seq < entry.1)) =
      (pushed.filter fun d ↦ decide (seq < d.1)).map entry := by
  obtain ⟨dropped, hsplit⟩ := h.suffix
  have hsorted : (pushed.map entry).Pairwise fun d e ↦ d.1 < e.1 :=
    List.pairwise_map.mpr hpushed
  rw [← hsplit, List.pairwise_append] at hsorted
  have hnone : dropped.filter (fun entry ↦ decide (seq < entry.1)) = [] := by
    rw [List.filter_eq_nil_iff]
    intro d hd hlt
    obtain ⟨first, hfirst, rfl⟩ := Option.map_eq_some_iff.mp holdest
    have hbefore := hsorted.2.2 d hd first (List.mem_of_mem_head? hfirst)
    have hafter : seq < d.1 := of_decide_eq_true hlt
    exact absurd (Nat.lt_trans hafter hbefore) (Nat.not_lt.mpr hseq)
  have hall : (pushed.map entry).filter (fun entry ↦ decide (seq < entry.1)) =
      (pushed.filter fun d ↦ decide (seq < d.1)).map entry := List.filter_map
  rw [← hall, ← hsplit, List.filter_append, hnone, List.nil_append]

/-- The sizes that are held are the estimates. -/
theorem Holds.sizes {b : DiffBuffer} {pushed : List (SequenceNo × TerminalDiff)}
    (h : b.Holds pushed) :
    b.diffs.map (fun entry ↦ entry.2.2) = b.diffs.map fun entry ↦ estimateDiffSize entry.2.1 := by
  refine List.map_congr_left fun e he ↦ ?_
  obtain ⟨d, -, rfl⟩ := List.mem_map.mp (h.suffix.subset he)
  rfl

end DiffBuffer

end Kmux
