import Kmux.Client.PaneSession
import Kmux.Daemon.Relay
import Kmux.VtCore.MockBackend
import Mathlib.Logic.Function.Iterate

/-!
# Filling a history gap

A client that knows of more history than it holds asks for the first missing lines, and asks again
while the gap stays open. The daemon answers from its mirror, starting no earlier than the oldest
line it still has. A reply that starts later than the client's own end is neither adjacent nor
overlapping: it is dropped, nothing changes, and the same request goes out again.

So a round trip makes progress exactly when the mirror still holds the first line the client misses,
and the loop ends exactly when, on top of that, the mirror reaches as far as the client was told
history goes (`gapFill_iff`).
-/

namespace Kmux

/-! ## One round trip on the grid -/

namespace GridContent

/-- Ask for the gap, answer from the mirror, apply the answer. -/
def roundTrip (m : ScrollbackMirror) (g : GridContent) : GridContent :=
  match PaneSession.historyRequest g with
  | some (start, count) =>
    g.applyHistoryLines (m.range start count).1 (m.range start count).2 m.historyTotal
  | none => g

variable {m : ScrollbackMirror} {g : GridContent} {have_ want : ℕ}

/-- What a gap says about the grid. -/
theorem pendingHistoryGap_eq_some (hgap : g.pendingHistoryGap = some (have_, want)) :
    g.pendingHistoryTotal = some want ∧ g.scrollback.historyTotal = have_ ∧ have_ < want := by
  obtain ⟨w, hw, h⟩ := Option.bind_eq_some_iff.mp hgap
  split at h
  · rename_i hlt
    obtain ⟨rfl, rfl⟩ := Prod.mk.inj (Option.some_inj.mp h)
    exact ⟨hw, rfl, hlt⟩
  · exact absurd h (by simp)

/-- The request goes for the front of the gap, a bounded chunk of it. -/
theorem historyRequest_of_gap (hgap : g.pendingHistoryGap = some (have_, want)) :
    PaneSession.historyRequest g
      = some (have_, min (want - have_) PaneSession.fetchHistoryChunk) := by
  have hlt := (pendingHistoryGap_eq_some hgap).2.2
  have hchunk : 0 < PaneSession.fetchHistoryChunk := by decide
  rw [PaneSession.historyRequest, hgap]
  exact if_neg (by omega)

/-- A grid still waiting keeps its marker. -/
theorem maybeClearHistoryGap_of_gap (hgap : g.pendingHistoryGap = some (have_, want)) :
    g.maybeClearHistoryGap = g := by
  obtain ⟨hwant, htotal, hlt⟩ := pendingHistoryGap_eq_some hgap
  rw [maybeClearHistoryGap, hwant]
  refine if_neg ?_
  rw [Option.any_some, decide_eq_true_eq, htotal, not_le]
  exact hlt

/-- A mirror that no longer holds the first missing line, or does not reach it yet, changes
nothing. -/
theorem roundTrip_of_not_served (hgap : g.pendingHistoryGap = some (have_, want))
    (hnot : ¬(m.baseIndex ≤ have_ ∧ have_ < m.historyTotal)) : g.roundTrip m = g := by
  have htotal := (pendingHistoryGap_eq_some hgap).2.1
  rw [roundTrip, historyRequest_of_gap hgap]
  simp only
  rw [applyHistoryLines, m.range_fst]
  split
  · rfl
  · rename_i hlines
    -- a nonempty reply reaches past the client's end, so it must start past it too
    have hlt : have_ < m.historyTotal :=
      not_le.mp fun hle ↦ hlines (m.range_eq_nil_of_le hle)
    have hbase : have_ < m.baseIndex := not_le.mp fun hle ↦ hnot ⟨hle, hlt⟩
    have hne : ¬max have_ m.baseIndex = g.scrollback.historyTotal := by omega
    have hbehind : ¬(max have_ m.baseIndex < g.scrollback.historyTotal ∧ g.scrollback.historyTotal
        < max have_ m.baseIndex + (m.range have_
          (min (want - have_) PaneSession.fetchHistoryChunk)).2.length) := by omega
    simp only [if_neg hne, if_neg hbehind]
    exact maybeClearHistoryGap_of_gap hgap

/-- Otherwise the chunk is appended, as far as the mirror has it. -/
theorem roundTrip_of_served (hgap : g.pendingHistoryGap = some (have_, want))
    (hbase : m.baseIndex ≤ have_) (hlt : have_ < m.historyTotal) :
    (g.roundTrip m).pendingHistoryGap = (if min (min want (have_ + PaneSession.fetchHistoryChunk))
        m.historyTotal < want then
      some (min (min want (have_ + PaneSession.fetchHistoryChunk)) m.historyTotal, want)
      else none) ∧
      (g.roundTrip m).scrollback.historyTotal
        = min (min want (have_ + PaneSession.fetchHistoryChunk)) m.historyTotal := by
  obtain ⟨hwant, htotal, hgaplt⟩ := pendingHistoryGap_eq_some hgap
  set count := min (want - have_) PaneSession.fetchHistoryChunk with hcount
  have hchunk : 0 < PaneSession.fetchHistoryChunk := by decide
  have hmax : max have_ m.baseIndex = have_ := max_eq_left hbase
  have hlen : (m.range have_ count).2.length = _ := m.length_range hlt
  rw [hmax] at hlen
  have hlines : (m.range have_ count).2 ≠ [] := by
    rw [← List.length_pos_iff, hlen]
    omega
  -- the reply starts exactly at the client's end, so it is appended as it is
  have hround : g.roundTrip m = maybeClearHistoryGap
      { g with
        scrollback := (m.range have_ count).2.foldl ScrollbackBuffer.pushLine g.scrollback
        cellsGeneration := g.cellsGeneration + 1 } := by
    rw [roundTrip, historyRequest_of_gap hgap]
    simp only [← hcount]
    rw [applyHistoryLines, if_neg hlines, m.range_fst, hmax]
    simp only [if_pos htotal.symm, ScrollbackBuffer.appendWithIndex,
      if_neg (not_not.mpr htotal.symm)]
  have hnew : ((m.range have_ count).2.foldl ScrollbackBuffer.pushLine g.scrollback).historyTotal
      = min (min want (have_ + PaneSession.fetchHistoryChunk)) m.historyTotal := by
    rw [ScrollbackBuffer.foldl_pushLine_historyTotal, hlen, htotal]
    omega
  rw [hround, pendingHistoryGap_maybeClearHistoryGap,
    (sameContent_maybeClearHistoryGap _).scrollback]
  refine ⟨?_, hnew⟩
  rw [pendingHistoryGap, hwant, ← hnew]
  rfl

end GridContent

/-! ## The fetch loop -/

namespace PaneSession

/-- The daemon, whose history does not move, answers the fetch in flight. -/
def fetchRound (m : ScrollbackMirror) (s : PaneSession) : PaneSession :=
  match s.inFlightHistoryFetch, s.buffer.bind historyRequest with
  | some requestId, some (start, count) =>
    s.handleServerMessage (.historyLines requestId (m.range start count).1
      (m.range start count).2 m.historyTotal)
  | _, _ => s

/-- A fetch is in flight for the gap between `have_` and `want`. -/
def Awaiting (s : PaneSession) (have_ want : ℕ) : Prop :=
  s.inFlightHistoryFetch.isSome ∧
    ∃ g, s.buffer = some g ∧ g.pendingHistoryGap = some (have_, want)

variable {m : ScrollbackMirror} {s : PaneSession} {g : GridContent} {have_ want : ℕ}

theorem fetchRound_buffer (h : s.inFlightHistoryFetch.isSome) (hg : s.buffer = some g)
    (hgap : g.pendingHistoryGap = some (have_, want)) :
    (s.fetchRound m).buffer = some (g.roundTrip m) ∧
      ((s.fetchRound m).inFlightHistoryFetch.isSome ↔
        (g.roundTrip m).pendingHistoryGap.isSome) := by
  obtain ⟨rid, hrid⟩ := Option.isSome_iff_exists.mp h
  have hreq := GridContent.historyRequest_of_gap hgap
  have hround : s.fetchRound m = maybeFetchHistory
      { s with buffer := some (g.roundTrip m), inFlightHistoryFetch := none } := by
    rw [fetchRound, hrid, hg, Option.bind_some, hreq]
    simp only [handleServerMessage, onHistoryLines, modifyGrid, hg, hrid, Option.map_some,
      GridContent.roundTrip, hreq, if_true]
  rw [hround, maybeFetchHistory]
  simp only [Option.isSome_none, Bool.false_eq_true, if_false, Option.bind_some]
  cases hgap' : (g.roundTrip m).pendingHistoryGap with
  | none =>
    have hnone : historyRequest (g.roundTrip m) = none := by rw [historyRequest, hgap']; rfl
    rw [hnone]
    exact ⟨rfl, by simp⟩
  | some gap =>
    rw [GridContent.historyRequest_of_gap
      (show (g.roundTrip m).pendingHistoryGap = some (gap.1, gap.2) from hgap')]
    exact ⟨rfl, by simp [send]⟩

/-- An answer that is dropped leaves the client asking for the same lines. -/
theorem awaiting_of_not_served (h : s.Awaiting have_ want)
    (hnot : ¬(m.baseIndex ≤ have_ ∧ have_ < m.historyTotal)) :
    (s.fetchRound m).Awaiting have_ want := by
  obtain ⟨hfly, g, hg, hgap⟩ := h
  obtain ⟨hbuf, hmore⟩ := fetchRound_buffer (m := m) hfly hg hgap
  rw [GridContent.roundTrip_of_not_served hgap hnot] at hbuf hmore
  exact ⟨hmore.mpr (by rw [hgap]; rfl), g, hbuf, hgap⟩

/-- An answer that is applied moves the client on, and either closes the gap or leaves a smaller
one. -/
theorem fetchRound_of_served (h : s.Awaiting have_ want) (hbase : m.baseIndex ≤ have_)
    (hlt : have_ < m.historyTotal) :
    let now := min (min want (have_ + fetchHistoryChunk)) m.historyTotal
    (now < want → (s.fetchRound m).Awaiting now want) ∧
      (want ≤ now → (s.fetchRound m).inFlightHistoryFetch = none) := by
  intro now
  obtain ⟨hfly, g, hg, hgap⟩ := h
  obtain ⟨hbuf, hmore⟩ := fetchRound_buffer (m := m) hfly hg hgap
  obtain ⟨hgap', -⟩ := GridContent.roundTrip_of_served hgap hbase hlt
  constructor
  · intro hnow
    rw [if_pos hnow] at hgap'
    exact ⟨hmore.mpr (by rw [hgap']; rfl), g.roundTrip m, hbuf, hgap'⟩
  · intro hnow
    rw [if_neg (not_lt.mpr hnow)] at hgap'
    rw [hgap'] at hmore
    exact Option.not_isSome_iff_eq_none.mp (fun hsome ↦ absurd (hmore.mp hsome) (by simp))

/-- The loop ends when the mirror still holds the first missing line and reaches the end of the
gap. The induction is on what is still missing. -/
private theorem fetchLoop_ends (hwant : want ≤ m.historyTotal) :
    ∀ (missing : ℕ) (s : PaneSession) (have_ : ℕ), want - have_ ≤ missing →
      s.Awaiting have_ want → m.baseIndex ≤ have_ →
      ∃ n, ((fetchRound m)^[n] s).inFlightHistoryFetch = none := by
  intro missing
  induction missing with
  | zero =>
    rintro s have_ hmissing ⟨-, g, -, hgap⟩ -
    have := (GridContent.pendingHistoryGap_eq_some hgap).2.2
    omega
  | succ missing ih =>
    intro s have_ hmissing h hbase
    have hlt : have_ < want := by
      obtain ⟨-, g, -, hgap⟩ := h
      exact (GridContent.pendingHistoryGap_eq_some hgap).2.2
    have hchunk : 0 < fetchHistoryChunk := by decide
    obtain ⟨hmore, hdone⟩ := fetchRound_of_served h hbase (hlt.trans_le hwant)
    by_cases hnow : want ≤ min (min want (have_ + fetchHistoryChunk)) m.historyTotal
    · exact ⟨1, hdone hnow⟩
    · obtain ⟨n, hn⟩ := ih (s.fetchRound m) _ (by omega) (hmore (not_le.mp hnow)) (by omega)
      exact ⟨n + 1, by rw [Function.iterate_succ_apply]; exact hn⟩

/-- Otherwise it goes on: the first missing line stays out of reach, or the end of the gap does. -/
private theorem fetchLoop_goes_on : ∀ (n : ℕ) (s : PaneSession) (have_ : ℕ),
    s.Awaiting have_ want → have_ < m.baseIndex ∨ m.historyTotal < want →
    ((fetchRound m)^[n] s).inFlightHistoryFetch ≠ none := by
  intro n
  induction n with
  | zero =>
    rintro s have_ ⟨hfly, -⟩ - hnone
    change s.inFlightHistoryFetch = none at hnone
    rw [hnone] at hfly
    exact absurd hfly (by simp)
  | succ n ih =>
    intro s have_ h hstuck
    rw [Function.iterate_succ_apply]
    by_cases hserved : m.baseIndex ≤ have_ ∧ have_ < m.historyTotal
    · have hshort : m.historyTotal < want := hstuck.resolve_left (by omega)
      exact ih _ _ ((fetchRound_of_served h hserved.1 hserved.2).1 (by omega)) (Or.inr hshort)
    · exact ih _ _ (awaiting_of_not_served h hserved) hstuck

/-- **Gap-fill.** Of a client that waits for the gap between `have_` and `want`: one round trip
makes progress exactly when the mirror holds the first missing line, and the loop ends exactly when
it does and reaches `want`. -/
theorem gapFill_iff (m : ScrollbackMirror) (s : PaneSession) (g : GridContent) (have_ want : ℕ)
    (hfly : s.inFlightHistoryFetch.isSome) (hg : s.buffer = some g)
    (hgap : g.pendingHistoryGap = some (have_, want)) :
    ((∃ g', (s.fetchRound m).buffer = some g' ∧
        (g.scrollback.historyTotal < g'.scrollback.historyTotal ∨ g'.pendingHistoryGap = none)) ↔
      m.baseIndex ≤ have_ ∧ have_ < m.historyTotal) ∧
    ((∃ n, ((fetchRound m)^[n] s).inFlightHistoryFetch = none) ↔
      m.baseIndex ≤ have_ ∧ want ≤ m.historyTotal) := by
  obtain ⟨-, htotal, hlt⟩ := GridContent.pendingHistoryGap_eq_some hgap
  have hchunk : 0 < fetchHistoryChunk := by decide
  have hbuf := (fetchRound_buffer (m := m) hfly hg hgap).1
  constructor
  · constructor
    · rintro ⟨g', hg', hprogress⟩
      obtain rfl : g.roundTrip m = g' := Option.some_inj.mp (hbuf.symm.trans hg')
      by_contra hnot
      rw [GridContent.roundTrip_of_not_served hgap hnot, hgap] at hprogress
      exact hprogress.elim (lt_irrefl _) (by simp)
    · rintro ⟨hbase, hserved⟩
      obtain ⟨-, hnow⟩ := GridContent.roundTrip_of_served hgap hbase hserved
      refine ⟨g.roundTrip m, hbuf, Or.inl ?_⟩
      rw [hnow, htotal]
      omega
  · constructor
    · rintro ⟨n, hn⟩
      by_contra hnot
      exact fetchLoop_goes_on n s have_ ⟨hfly, g, hg, hgap⟩ (by omega) hn
    · rintro ⟨hbase, hwant⟩
      exact fetchLoop_ends hwant (want - have_) s have_ le_rfl ⟨hfly, g, hg, hgap⟩ hbase

end PaneSession

/-! ## Two gaps -/

/-- A client told of one line it was never sent. -/
def behindClient : PaneSession :=
  PaneSession.new.receive
    [.terminalSnapshot (Pane.new (MockBackend.new 1 1)).engine.snapshot 0,
      .terminalUpdate
        { ops := []
          cursor := default
          modes := TermModes.empty
          historyTotal := 1
          scrollbackReset := none } 1]

/-- A mirror that holds the line closes the gap. -/
theorem gapFill_of_held_line :
    let m := (ScrollbackMirror.new mirrorCapacity (by decide)).append [[default]]
    m.baseIndex ≤ 0 ∧ 1 ≤ m.historyTotal ∧
      ∃ n, ((PaneSession.fetchRound m)^[n] behindClient).inFlightHistoryFetch = none := by
  intro m
  have hgap : behindClient.buffer.map GridContent.pendingHistoryGap = some (some (0, 1)) := by
    decide +kernel
  obtain ⟨g, hg, hgap⟩ := Option.map_eq_some_iff.mp hgap
  have hmirror : m.baseIndex ≤ 0 ∧ 1 ≤ m.historyTotal := by decide +kernel
  exact ⟨hmirror.1, hmirror.2,
    (PaneSession.gapFill_iff m behindClient g 0 1 (by decide +kernel) hg hgap).2.mpr hmirror⟩

/-- A screen with the given history behind it. -/
def scrolledTo (history : List ScrollbackLine) : MockBackend :=
  { MockBackend.new 1 1 with historyLen := history.length, historyLines := history }

/-- A line scrolls off and is wiped. -/
def wipedPane : Pane MockBackend :=
  (Pane.new (MockBackend.new 1 1)).run [.cycle (scrolledTo [[default]]), .cycle (scrolledTo [])]

/-- Another line scrolls off. -/
def regrownCycle : Pane MockBackend × Dispatch := wipedPane.cycle (scrolledTo [[default]])

/-- A client that resyncs meanwhile: the label is read before that cycle and the snapshot is taken
after it, so the frames of the cycle are sent again. The append then overlaps what the snapshot
seeded, and the client drops its scrollback and starts over from index zero. -/
def restartedClient : PaneSession :=
  PaneSession.new.receive
    (.terminalSnapshot regrownCycle.1.engine.snapshot wipedPane.currentSeqno ::
      regrownCycle.2.frames)

/-- The wiped line will never be served, so the fetch for it goes round forever. -/
theorem not_gapFill_of_wiped_line :
    ∃ g, restartedClient.buffer = some g ∧ g.pendingHistoryGap = some (0, 2) ∧
      restartedClient.inFlightHistoryFetch.isSome ∧
      ¬((∃ g', (restartedClient.fetchRound regrownCycle.1.engine.mirror).buffer = some g' ∧
          (g.scrollback.historyTotal < g'.scrollback.historyTotal ∨
            g'.pendingHistoryGap = none)) ∨
        ∃ n, ((PaneSession.fetchRound regrownCycle.1.engine.mirror)^[n]
          restartedClient).inFlightHistoryFetch = none) := by
  have hgap : restartedClient.buffer.map GridContent.pendingHistoryGap = some (some (0, 2)) := by
    decide +kernel
  obtain ⟨g, hg, hgap⟩ := Option.map_eq_some_iff.mp hgap
  have hfly : restartedClient.inFlightHistoryFetch.isSome := by decide +kernel
  have hbase : 0 < regrownCycle.1.engine.mirror.baseIndex := by decide +kernel
  refine ⟨g, hg, hgap, hfly, ?_⟩
  rintro (⟨g', hg', hprogress⟩ | ⟨n, hn⟩)
  · have hbuf := (PaneSession.fetchRound_buffer (m := regrownCycle.1.engine.mirror)
      hfly hg hgap).1
    rw [GridContent.roundTrip_of_not_served hgap (by omega)] at hbuf
    obtain rfl : g = g' := Option.some_inj.mp (hbuf.symm.trans hg')
    rw [hgap] at hprogress
    exact hprogress.elim (lt_irrefl _) (by simp)
  · exact PaneSession.fetchLoop_goes_on n restartedClient 0 ⟨hfly, g, hg, hgap⟩ (Or.inl hbase) hn

end Kmux
