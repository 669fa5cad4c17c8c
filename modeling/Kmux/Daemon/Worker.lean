import Kmux.Client.CellGrid
import Kmux.Daemon.Clients
import Kmux.Stream.CellOps
import Kmux.VtCore.MockBackend

/-!
# The out-of-process worker

A pane's emulator may run in a process of its own. The worker feeds it, computes diffs and sends
them over a socket; the daemon applies them to a grid of its own, the mirror, and answers every
question about the pane from there. Requests travel the other way.

A resize is where the two can come apart. The daemon resizes its mirror when it sends the request
and leaves it blank for the worker's repaint, but diffs of the old size may still be on their way,
and the worker may emit more before it reads the request. Such a diff is applied to the resized
mirror at the positions of the old size, and the worker, which compares with a blank grid from the
resize on, never takes it back.

The worker reads and diffs in one go: its runtime has one thread, and nothing is awaited between
feeding the emulator and sending the diff. So a request finds every byte read so far diffed, and a
resize has no scrollback left to capture. That is `undrained` below, and why the history of the two
sides agrees with no condition.

`sent`, `handled`, `drawn` and the number with an event are not in the source. They record how many
resizes have been sent and handled, whether the worker has diffed since the last one it handled, and
how many it had handled when it computed the event.
-/

namespace Kmux

open TerminalBackend

/-- What the daemon asks of a worker. Input only reaches the PTY. -/
inductive WorkerRequest
  | resize (size : TermSize)
  | input (data : List UInt8)
  deriving DecidableEq, Repr

/-- What a worker reports of its grid. -/
inductive WorkerEvent
  | diff (diff : TerminalDiff) (scrollbackLines : List ScrollbackLine)
  | cursorOnly (cursor : CursorState) (modes : TermModes) (historyTotal : ℕ)
  deriving DecidableEq, Repr

/-- The cell operations an event carries. -/
def WorkerEvent.ops : WorkerEvent → List DiffOp
  | .diff d _ => d.ops
  | .cursorOnly .. => []

/-- The event a computed diff is sent as. -/
def emitDiff : DiffResult → List WorkerEvent
  | .cellDiff diff scrollbackLines => [.diff diff scrollbackLines]
  | .cursorOnly cursor modes historyTotal => [.cursorOnly cursor modes historyTotal]
  | .none => []

/-- Apply an event to the mirror. The lines come after the diff, so that a wipe cannot drop them. -/
def handleEvent (m : GridContent) : WorkerEvent → GridContent
  | .diff d scrollbackLines =>
      let firstIndex := d.historyTotal - scrollbackLines.length
      let m' := (m.applyDiff d).1
      if scrollbackLines = [] then m' else (m'.applyScrollbackAppend firstIndex scrollbackLines).1
  | .cursorOnly cursor modes _ => m.applyCursorUpdate cursor modes

/-- A pane with a worker: the daemon's side, the worker's, and what is on its way between them. -/
structure WorkerPane (B : Type*) where
  mirror : GridContent
  requests : List WorkerRequest
  engine : DiffEngine B
  events : List (ℕ × WorkerEvent)
  sent : ℕ
  handled : ℕ
  drawn : Bool

/-- One move of either side. -/
inductive WorkerMove (B : Type*)
  /-- The daemon resizes its mirror and sends the request. -/
  | resizeEmulator (size : TermSize)
  | enqueueInput (data : List UInt8)
  /-- The worker handles the next request. -/
  | handleRequest
  /-- The worker reads output that takes the emulator to `b`, and emits the diff. -/
  | output (b : B)
  /-- The daemon applies the next event. -/
  | handleEvent

namespace WorkerPane

variable {B : Type*} [TerminalBackend B]

/-- A pane whose worker has just started. The mirror has at least one cell. -/
def spawn (backend : B) : WorkerPane B :=
  { mirror := GridContent.new (max (size backend).rows.toNat 1) (max (size backend).cols.toNat 1)
    requests := []
    engine := DiffEngine.new backend
    events := []
    sent := 0
    handled := 0
    drawn := false }

def step (s : WorkerPane B) : WorkerMove B → WorkerPane B
  | .resizeEmulator size =>
      { s with
        mirror := (s.mirror.resize size.rows size.cols).1
        requests := s.requests ++ [.resize size]
        sent := s.sent + 1 }
  | .enqueueInput data => { s with requests := s.requests ++ [.input data] }
  | .handleRequest =>
      match s.requests with
      | .resize size :: requests =>
        { s with
          requests
          engine := s.engine.resize size.toBackendSize
          handled := s.handled + 1
          drawn := false }
      | .input _ :: requests => { s with requests }
      | [] => s
  | .output b =>
      let d := (s.engine.feed b).computeDiff
      { s with
        engine := d.1
        events := s.events ++ (emitDiff d.2).map fun ev ↦ (s.handled, ev)
        drawn := true }
  | .handleEvent =>
      match s.events with
      | (_, ev) :: events => { s with mirror := Kmux.handleEvent s.mirror ev, events }
      | [] => s

def run (s : WorkerPane B) (moves : List (WorkerMove B)) : WorkerPane B := Run.exec step s moves

/-- The mirror has the dimensions, the cells and the history of the worker's grid. -/
def Coherent (s : WorkerPane B) : Prop :=
  s.mirror.rows = s.engine.rows.toNat ∧ s.mirror.cols = s.engine.cols.toNat ∧
    s.mirror.cells = (shown s.engine.backend s.engine.rows s.engine.cols).1 ∧
      s.mirror.scrollback.historyTotal = s.engine.mirror.historyTotal

instance (s : WorkerPane B) : Decidable s.Coherent := inferInstanceAs (Decidable (_ ∧ _ ∧ _ ∧ _))

omit [TerminalBackend B] in
/-- Nothing is on its way, and the worker has repainted. -/
def Settled (s : WorkerPane B) : Prop := s.events = [] ∧ s.handled = s.sent ∧ s.drawn = true

instance (s : WorkerPane B) : Decidable s.Settled := inferInstanceAs (Decidable (_ ∧ _ ∧ _))

omit [TerminalBackend B] in
/-- The event applied next was computed after every resize the daemon has sent, or writes no
cell. -/
def Fresh (s : WorkerPane B) : WorkerMove B → Prop
  | .handleEvent => ∀ entry ∈ s.events.head?, entry.1 = s.sent ∨ entry.2.ops = []
  | _ => True

instance (s : WorkerPane B) (move : WorkerMove B) : Decidable (s.Fresh move) :=
  match move with
  | .handleEvent => inferInstanceAs (Decidable (∀ entry ∈ s.events.head?, _ ∨ _))
  | .resizeEmulator _ => .isTrue trivial
  | .enqueueInput _ => .isTrue trivial
  | .handleRequest => .isTrue trivial
  | .output _ => .isTrue trivial

end WorkerPane

/-! ## One frame -/

section Frame

variable {B : Type*} [TerminalBackend B]

/-- A frame accounts for all the history there is. -/
theorem DiffEngine.historyStep_prevHistorySize (e : DiffEngine B) :
    e.historyStep.prevHistorySize = historySize e.backend := by
  rw [DiffEngine.historyStep]
  split
  · rfl
  · split
    · rfl
    · split
      · rfl
      · split <;> rfl

/-- The event of a frame carries the frame's operations, or there were none. -/
theorem ops_emitDiff (e : DiffEngine B) :
    (emitDiff e.computeDiff.2).flatMap WorkerEvent.ops = e.frameOps := by
  rw [DiffEngine.computeDiff_snd]
  by_cases hcell : e.forcesCellDiff
  · rw [if_pos hcell]
    exact List.flatMap_singleton _ _
  · have hops : e.frameOps = [] := by_contra fun hne ↦ hcell (.inl hne)
    rw [if_neg hcell, hops]
    split <;> rfl

end Frame

/-! ## History on its way -/

/-- The events take a history of `total` lines to one of `total'`: appends start where the history
ends, and a wipe is anchored there. -/
def Chain : ℕ → List WorkerEvent → ℕ → Prop
  | total, [], total' => total = total'
  | total, .cursorOnly .. :: events, total' => Chain total events total'
  | total, .diff d lines :: events, total' =>
      (d.scrollbackReset = none ∨ d.scrollbackReset = some total) ∧
        d.historyTotal = total + lines.length ∧ Chain d.historyTotal events total'

theorem chain_append {events events' : List WorkerEvent} {total total' total'' : ℕ}
    (h : Chain total events total') (h' : Chain total' events' total'') :
    Chain total (events ++ events') total'' := by
  induction events generalizing total with
  | nil =>
    obtain rfl : total = total' := h
    exact h'
  | cons ev events ih =>
    cases ev with
    | cursorOnly cursor modes historyTotal => exact ih h
    | diff d lines => exact ⟨h.1, h.2.1, ih h.2.2⟩

/-- The event of a frame takes the engine's history on. -/
theorem chain_emitDiff {B : Type*} [TerminalBackend B] (e : DiffEngine B) :
    Chain e.mirror.historyTotal (emitDiff e.computeDiff.2) e.computeDiff.1.mirror.historyTotal := by
  have htotal : e.computeDiff.1.mirror.historyTotal =
      e.mirror.historyTotal + e.historyStep.lines.length := by
    rw [e.computeDiff_mirror, ScrollbackMirror.append_historyTotal,
      e.historyStep_mirror_historyTotal]
  rw [htotal, DiffEngine.computeDiff_snd]
  by_cases hcell : e.forcesCellDiff
  · rw [if_pos hcell]
    have hdiff : e.frameDiff.historyTotal =
        e.mirror.historyTotal + e.historyStep.lines.length := by
      rw [← htotal, e.computeDiff_mirror]
      rfl
    refine ⟨?_, hdiff, hdiff⟩
    rcases e.historyStep_mirror with ⟨hreset, -⟩ | ⟨hreset, -⟩
    · exact .inl hreset
    · exact .inr hreset
  · have hlines : e.historyStep.lines = [] := by_contra fun hne ↦ hcell (.inr (.inl hne))
    rw [if_neg hcell, hlines]
    split <;> rfl

/-- Applying the first event takes the mirror's history to where the rest of the chain starts. -/
theorem chain_handleEvent {m : GridContent} {ev : WorkerEvent} {events : List WorkerEvent}
    {total : ℕ} (h : Chain m.scrollback.historyTotal (ev :: events) total) :
    Chain (handleEvent m ev).scrollback.historyTotal events total := by
  cases ev with
  | cursorOnly cursor modes historyTotal => exact h
  | diff d lines =>
    obtain ⟨hreset, htotal, hrest⟩ := h
    have hdiff : (m.applyDiff d).1.scrollback.historyTotal = m.scrollback.historyTotal := by
      rw [(GridContent.sameContent_applyDiff m d).scrollback]
      rcases hreset with hreset | hreset <;> simp only [hreset]
      exact ScrollbackBuffer.resetTo_historyTotal _ _
    rw [handleEvent]
    by_cases hlines : lines = []
    · rw [if_pos hlines, hdiff]
      rw [hlines, List.length_nil, Nat.add_zero] at htotal
      rwa [htotal] at hrest
    · have hfirst : d.historyTotal - lines.length = (m.applyDiff d).1.scrollback.historyTotal := by
        rw [hdiff, htotal, Nat.add_sub_cancel]
      rw [if_neg hlines, (GridContent.sameContent_applyScrollbackAppend hfirst lines).scrollback]
      change Chain (lines.foldl ScrollbackBuffer.pushLine
        (m.applyDiff d).1.scrollback).historyTotal events total
      rwa [ScrollbackBuffer.foldl_pushLine_historyTotal, hdiff, ← htotal]

/-! ## Cells on their way -/

/-- An event writes its operations, at the width the mirror has. -/
theorem handleEvent_viewport (m : GridContent) (ev : WorkerEvent) :
    (handleEvent m ev).rows = m.rows ∧ (handleEvent m ev).cols = m.cols ∧
      (handleEvent m ev).cells = GridContent.applyOps m.cols ev.ops m.cells := by
  cases ev with
  | cursorOnly cursor modes historyTotal => exact ⟨rfl, rfl, rfl⟩
  | diff d lines =>
    have hdiff := GridContent.sameContent_applyDiff m d
    rw [handleEvent]
    by_cases hlines : lines = []
    · rw [if_pos hlines]
      exact ⟨hdiff.rows, hdiff.cols, hdiff.cells⟩
    · obtain ⟨hrows, hcols, hcells⟩ := GridContent.sameScreen_applyScrollbackAppend
        (m.applyDiff d).1 (d.historyTotal - lines.length) lines
      rw [if_neg hlines]
      exact ⟨hrows.trans hdiff.rows, hcols.trans hdiff.cols, hcells.trans hdiff.cells⟩

/-- The operations on their way that were computed at epoch `n`. -/
def opsOf (n : ℕ) (events : List (ℕ × WorkerEvent)) : List DiffOp :=
  events.flatMap fun entry ↦ if entry.1 = n then entry.2.ops else []

theorem opsOf_cons (n : ℕ) (entry : ℕ × WorkerEvent) (events : List (ℕ × WorkerEvent)) :
    opsOf n (entry :: events) = (if entry.1 = n then entry.2.ops else []) ++ opsOf n events :=
  List.flatMap_cons

theorem opsOf_append (n : ℕ) (events events' : List (ℕ × WorkerEvent)) :
    opsOf n (events ++ events') = opsOf n events ++ opsOf n events' :=
  List.flatMap_append

theorem opsOf_eq_nil {n : ℕ} {events : List (ℕ × WorkerEvent)} (h : ∀ entry ∈ events, entry.1 < n) :
    opsOf n events = [] := by
  rw [opsOf, List.flatMap_eq_nil_iff]
  intro entry hentry
  rw [if_neg (h entry hentry).ne]

theorem opsOf_map (n : ℕ) (events : List WorkerEvent) :
    opsOf n (events.map fun ev ↦ (n, ev)) = events.flatMap WorkerEvent.ops := by
  rw [opsOf, List.flatMap_map]
  exact List.flatMap_congr fun ev _ ↦ if_pos rfl

/-! ## The invariant -/

/-- The sizes of the resizes in a queue of requests. -/
def resizes (requests : List WorkerRequest) : List TermSize :=
  requests.filterMap fun
    | .resize size => some size
    | .input _ => none

namespace WorkerPane

variable {B : Type*} [TerminalBackend B]

/-- What a run whose events are fresh keeps. -/
structure Inv (s : WorkerPane B) : Prop where
  history : Chain s.mirror.scrollback.historyTotal (s.events.map Prod.snd)
    s.engine.mirror.historyTotal
  /-- Every request was sent, and every event computed, in its time. -/
  pending : s.handled + (resizes s.requests).length = s.sent
  epoch_le : ∀ entry ∈ s.events, entry.1 ≤ s.handled
  /-- While a resize is on its way the mirror is blank, at the last size sent. -/
  blank : ∀ size, (resizes s.requests).getLast? = some size →
    s.mirror.rows = size.rows.toNat ∧ s.mirror.cols = size.cols.toNat ∧
      s.mirror.cells = List.replicate (size.rows.toNat * size.cols.toNat) default
  /-- With none on its way, the operations on their way lead to what the worker compares with. -/
  cells : s.handled = s.sent →
    s.mirror.rows = s.engine.rows.toNat ∧ s.mirror.cols = s.engine.cols.toNat ∧
      GridContent.applyOps s.mirror.cols (opsOf s.sent s.events) s.mirror.cells =
        s.engine.prevCells
  undrained : s.engine.prevHistorySize = historySize s.engine.backend
  repainted : s.drawn = true →
    s.engine.prevCells = (shown s.engine.backend s.engine.rows s.engine.cols).1

/-- What a run of fresh events promises. -/
theorem Inv.coherent {s : WorkerPane B} (h : Inv s) (hs : Settled s) : Coherent s := by
  obtain ⟨hevents, hhandled, hdrawn⟩ := hs
  obtain ⟨hrows, hcols, hcells⟩ := h.cells hhandled
  have hhistory := h.history
  rw [hevents] at hcells hhistory
  exact ⟨hrows, hcols, hcells.trans (h.repainted hdrawn), hhistory⟩

theorem inv_spawn {backend : B} (hrows : 0 < (size backend).rows)
    (hcols : 0 < (size backend).cols) :
    Inv (spawn backend) := by
  have hr : max (size backend).rows.toNat 1 = (size backend).rows.toNat :=
    max_eq_left (UInt16.lt_iff_toNat_lt.mp hrows)
  have hc : max (size backend).cols.toNat 1 = (size backend).cols.toNat :=
    max_eq_left (UInt16.lt_iff_toNat_lt.mp hcols)
  refine ⟨rfl, rfl, fun _ hentry ↦ (nomatch hentry), fun _ hsize ↦ (nomatch hsize), fun _ ↦ ?_, rfl,
    fun hdrawn ↦ (nomatch hdrawn)⟩
  refine ⟨hr, hc, ?_⟩
  change List.replicate (max _ 1 * max _ 1) _ = _
  rw [hr, hc]
  rfl

private theorem inv_resizeEmulator {s : WorkerPane B} (h : Inv s) (size : TermSize) :
    Inv (s.step (.resizeEmulator size)) where
  history := h.history
  pending := by
    change s.handled + (resizes (s.requests ++ [WorkerRequest.resize size])).length = s.sent + 1
    rw [resizes, List.filterMap_append, List.length_append, ← resizes, ← Nat.add_assoc, h.pending]
    rfl
  epoch_le := h.epoch_le
  blank := by
    intro size' hsize'
    change (resizes (s.requests ++ [WorkerRequest.resize size])).getLast? = some size' at hsize'
    rw [resizes, List.filterMap_append] at hsize'
    obtain rfl : size = size' := Option.some.inj ((List.getLast?_concat).symm.trans hsize')
    exact ⟨rfl, rfl, rfl⟩
  cells := by
    intro hhandled
    have hle : s.handled ≤ s.sent := h.pending ▸ Nat.le_add_right _ _
    exact absurd hhandled (Nat.lt_succ_of_le hle).ne
  undrained := h.undrained
  repainted := h.repainted

private theorem inv_enqueueInput {s : WorkerPane B} (h : Inv s) (data : List UInt8) :
    Inv (s.step (.enqueueInput data)) := by
  have hresizes : resizes (s.requests ++ [WorkerRequest.input data]) = resizes s.requests := by
    rw [resizes, List.filterMap_append]
    exact List.append_nil _
  exact ⟨h.history, hresizes ▸ h.pending, h.epoch_le, hresizes ▸ h.blank, h.cells, h.undrained,
    h.repainted⟩

/-- The worker handles a resize. It compares with a blank grid from here on, and the mirror is
blank if no further resize is on its way. -/
private theorem inv_handleResize {s : WorkerPane B} (h : Inv s) (size : TermSize)
    (requests : List WorkerRequest) (hrequests : s.requests = .resize size :: requests) :
    Inv { s with
      requests
      engine := s.engine.resize size.toBackendSize
      handled := s.handled + 1
      drawn := false } := by
  have hresizes : resizes s.requests = size :: resizes requests := by
    rw [hrequests]
    rfl
  have hpending := h.pending
  rw [hresizes, List.length_cons] at hpending
  have hdrain : s.engine.resizeDrain = [] := by
    rw [DiffEngine.resizeDrain, if_neg]
    rw [h.undrained]
    exact fun hlt ↦ Nat.lt_irrefl _ hlt.2
  constructor
  · change Chain _ _ (s.engine.mirror.append s.engine.resizeDrain).historyTotal
    rw [hdrain]
    exact h.history
  · change s.handled + 1 + (resizes requests).length = s.sent
    rw [← hpending, Nat.add_assoc, Nat.add_comm 1]
  · intro entry hentry
    exact Nat.le_succ_of_le (h.epoch_le entry hentry)
  · intro size' hsize'
    refine h.blank size' ?_
    rw [hresizes, List.getLast?_cons, hsize', Option.getD_some]
  · intro hhandled
    have hnone : resizes requests = [] := by
      rw [← hhandled] at hpending
      rw [← List.length_eq_zero_iff]
      change s.handled + ((resizes requests).length + 1) = s.handled + 1 at hpending
      omega
    obtain ⟨hrows, hcols, hcells⟩ := h.blank size (by rw [hresizes, hnone]; rfl)
    refine ⟨hrows, hcols, ?_⟩
    have hstale : opsOf s.sent s.events = [] := by
      refine opsOf_eq_nil fun entry hentry ↦ ?_
      rw [← hhandled]
      exact Nat.lt_succ_of_le (h.epoch_le entry hentry)
    change GridContent.applyOps _ (opsOf s.sent s.events) _ = _
    rw [hstale]
    exact hcells
  · rfl
  · exact fun hdrawn ↦ nomatch hdrawn

private theorem inv_handleRequest {s : WorkerPane B} (h : Inv s) : Inv (s.step .handleRequest) := by
  rw [step]
  split
  next size requests hrequests => exact inv_handleResize h size requests hrequests
  next data requests hrequests =>
    have hresizes : resizes s.requests = resizes requests := by
      rw [hrequests]
      rfl
    exact ⟨h.history, hresizes ▸ h.pending, h.epoch_le, hresizes ▸ h.blank, h.cells, h.undrained,
      h.repainted⟩
  next => exact h

/-- The worker reads and diffs. -/
private theorem inv_output {s : WorkerPane B} (h : Inv s) (b : B) : Inv (s.step (.output b)) := by
  have hobserved := (s.engine.feed b).observed_computeDiff
  constructor
  · change Chain _ ((s.events ++ _).map Prod.snd) _
    rw [List.map_append, List.map_map]
    refine chain_append h.history ?_
    have hframe := chain_emitDiff (s.engine.feed b)
    rwa [← List.map_id (emitDiff _)] at hframe
  · exact h.pending
  · intro entry hentry
    rcases List.mem_append.mp hentry with hentry | hentry
    · exact h.epoch_le entry hentry
    · obtain ⟨ev, -, rfl⟩ := List.mem_map.mp hentry
      exact Nat.le_refl _
  · exact h.blank
  · intro hhandled
    have hepoch : s.handled = s.sent := hhandled
    obtain ⟨hrows, hcols, hcells⟩ := h.cells hepoch
    refine ⟨hrows.trans (congrArg _ hobserved.rows.symm),
      hcols.trans (congrArg _ hobserved.cols.symm), ?_⟩
    change GridContent.applyOps s.mirror.cols (opsOf s.sent (s.events ++ _)) s.mirror.cells =
      ((s.engine.feed b).computeDiff.1).prevCells
    rw [opsOf_append, applyOps_append, hcells, hobserved.prevCells,
      ← (s.engine.feed b).applyOps_frameOps, ← ops_emitDiff, hcols, ← hepoch]
    exact congrArg (fun ops ↦ GridContent.applyOps _ ops _) (opsOf_map _ _)
  · change ((s.engine.feed b).computeDiff.1).prevHistorySize = _
    rw [hobserved.prevHistorySize, DiffEngine.historyStep_prevHistorySize]
    exact congrArg historySize hobserved.backend.symm
  · intro _
    change (s.engine.feed b).computeDiff.1.prevCells =
      (shown (s.engine.feed b).computeDiff.1.backend (s.engine.feed b).computeDiff.1.rows
        (s.engine.feed b).computeDiff.1.cols).1
    rw [hobserved.prevCells, hobserved.backend, hobserved.rows, hobserved.cols]

/-- The daemon applies a fresh event. -/
private theorem inv_handleEvent {s : WorkerPane B} (h : Inv s) (hfresh : Fresh s .handleEvent) :
    Inv (s.step .handleEvent) := by
  rw [step]
  split
  next n ev events hevents =>
    have hhistory := h.history
    rw [hevents] at hhistory
    obtain ⟨hrows, hcols, hcells⟩ := handleEvent_viewport s.mirror ev
    have hmem : (n, ev) ∈ s.events := hevents ▸ List.mem_cons_self
    have hwhen : n = s.sent ∨ ev.ops = [] := hfresh (n, ev) (by rw [hevents]; rfl)
    constructor
    · exact chain_handleEvent hhistory
    · exact h.pending
    · exact fun entry hentry ↦ h.epoch_le entry (hevents ▸ List.mem_cons_of_mem _ hentry)
    · intro size hsize
      -- a resize is on its way, so the event is older than it and writes nothing
      have hops : ev.ops = [] := by
        refine hwhen.resolve_left fun hn ↦ ?_
        have hne : resizes s.requests ≠ [] := fun hnil ↦ by
          rw [hnil] at hsize
          cases hsize
        have hlen := List.length_pos_iff.mpr hne
        have hle := h.epoch_le (n, ev) hmem
        have hpending := h.pending
        change n ≤ s.handled at hle
        omega
      obtain ⟨hr, hc, hblank⟩ := h.blank size hsize
      refine ⟨hrows.trans hr, hcols.trans hc, ?_⟩
      change (Kmux.handleEvent s.mirror ev).cells = _
      rw [hcells, hops]
      exact hblank
    · intro hhandled
      obtain ⟨hr, hc, hlead⟩ := h.cells hhandled
      refine ⟨hrows.trans hr, hcols.trans hc, ?_⟩
      change GridContent.applyOps (Kmux.handleEvent s.mirror ev).cols (opsOf s.sent events)
        (Kmux.handleEvent s.mirror ev).cells = s.engine.prevCells
      rw [← hlead, hcols, hcells, hevents, opsOf_cons, applyOps_append]
      rcases hwhen with hn | hops
      · rw [if_pos hn]
      · rw [hops, ite_self]
    · exact h.undrained
    · exact h.repainted
  next => exact h

/-- **One move.** -/
theorem Inv.step {s : WorkerPane B} (h : Inv s) {move : WorkerMove B} (hfresh : Fresh s move) :
    Inv (s.step move) := by
  cases move with
  | resizeEmulator size => exact inv_resizeEmulator h size
  | enqueueInput data => exact inv_enqueueInput h data
  | handleRequest => exact inv_handleRequest h
  | output b => exact inv_output h b
  | handleEvent => exact inv_handleEvent h hfresh

/-- **Coherence.** In every run of a pane spawned with a positive size, in which no diff with cell
operations is applied after a resize it was computed before: once nothing is on its way and the
worker has repainted, the mirror is the worker's grid. -/
theorem coherent_of_settled {backend : B} (hrows : 0 < (size backend).rows)
    (hcols : 0 < (size backend).cols) (moves : List (WorkerMove B))
    (hfresh : Run.Ok WorkerPane.step Fresh (spawn backend) moves)
    (hsettled : Settled (run (spawn backend) moves)) : Coherent (run (spawn backend) moves) := by
  have hinv : Inv (run (spawn backend) moves) :=
    Run.invariant_of_ok (fun s e (h : Inv s) he ↦ h.step he) moves _ (inv_spawn hrows hcols) hfresh
  exact hinv.coherent hsettled

/-- A letter in the second cell of a grid. -/
def secondCell (rows cols : UInt16) : MockBackend :=
  { MockBackend.new rows cols with
    cells := (MockBackend.new rows cols).cells.set 1 letterA }

/-- A diff is applied before the resize, and the repaint after it. -/
theorem coherent_of_settled_after_repaint :
    Run.Ok WorkerPane.step Fresh (spawn (MockBackend.new 2 2))
        [.output (secondCell 2 2), .handleEvent, .resizeEmulator ⟨2, 1, 0, 0⟩, .handleRequest,
          .output (secondCell 2 1), .handleEvent] ∧
      Coherent (run (spawn (MockBackend.new 2 2))
        [.output (secondCell 2 2), .handleEvent, .resizeEmulator ⟨2, 1, 0, 0⟩, .handleRequest,
          .output (secondCell 2 1), .handleEvent]) := by
  have hfresh : Run.Ok WorkerPane.step Fresh (spawn (MockBackend.new 2 2))
      [.output (secondCell 2 2), .handleEvent, .resizeEmulator ⟨2, 1, 0, 0⟩, .handleRequest,
        .output (secondCell 2 1), .handleEvent] := by decide
  exact ⟨hfresh, coherent_of_settled (by decide) (by decide) _ hfresh (by decide)⟩

/-- A letter at the end of the first row of a 2×2 grid is on its way when the daemon resizes to 2×1,
and is written to the second row. The worker repaints a blank grid and has nothing to say. -/
theorem not_coherent_of_stale_diff :
    ¬ ∀ moves : List (WorkerMove MockBackend), Settled (run (spawn (MockBackend.new 2 2)) moves) →
      Coherent (run (spawn (MockBackend.new 2 2)) moves) := by
  intro h
  have hcoherent := h [.output (secondCell 2 2), .resizeEmulator ⟨2, 1, 0, 0⟩, .handleEvent,
    .handleRequest, .output (MockBackend.new 2 1)] (by decide)
  exact absurd hcoherent (by decide)

end WorkerPane

end Kmux
