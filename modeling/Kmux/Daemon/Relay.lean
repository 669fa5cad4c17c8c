import Kmux.Daemon.DiffBuffer
import Kmux.Lib.Run
import Kmux.VtCore.DiffEngine

/-!
# The pane relay

The diff loop of one pane: let PTY output move the emulator on, compute a diff, stamp sequence
numbers in emission order, push the diff to the replay buffer, and broadcast. `Pane` gathers the
shared handles the loop works on together with its two locals, the cursor and modes it last saw.

A broadcast is the list of messages every streaming client is sent, in order. The digest that may
follow is separate, as in the source: it carries no sequence number of its own.
-/

namespace Kmux

open TerminalBackend

/-- One pane's relay state. -/
structure Pane (B : Type*) where
  engine : DiffEngine B
  /-- The replay buffer. -/
  scrollback : DiffBuffer
  /-- The next sequence number to be allocated. -/
  seqnoCounter : SequenceNo
  /-- The diff loop's own record of the last cursor dispatched. -/
  prevCursor : CursorState
  /-- The diff loop's own record of the last modes dispatched. -/
  prevModes : TermModes

/-- What one dispatch sends: the frames in order, and the seqno a digest may follow. -/
structure Dispatch where
  frames : List ServerMessage
  /-- The seqno the digest would certify. -/
  certified : Option SequenceNo

/-- The replay budget of a pane, in bytes. -/
def scrollbackCapacity : ℕ := 10 * 1024 * 1024

/-- Default cadence, in seqnos, at which a grid is certified. -/
def digestSeqnoInterval : ℕ := 32

/-- Whether a digest is emitted for this seqno. -/
def digestDue (interval : ℕ) (seqno : SequenceNo) : Bool := decide (seqno % interval = 0)

namespace Pane

variable {B : Type*} [TerminalBackend B]

/-- A freshly spawned pane. Sequence numbers start at one. -/
def new (backend : B) : Pane B :=
  { engine := DiffEngine.new backend
    scrollback := DiffBuffer.new scrollbackCapacity
    seqnoCounter := 1
    prevCursor := default
    prevModes := TermModes.empty }

/-- The label of a snapshot taken now: the last seqno allocated. -/
def currentSeqno (p : Pane B) : SequenceNo := p.seqnoCounter - 1

/-- Turn a computed diff into broadcasts. On a scrollback reset the viewport diff goes first, so
that the client wipes before the surviving lines arrive; otherwise the append does. Sequence
numbers follow emission order. -/
def dispatchDiffResult (p : Pane B) : DiffResult → Pane B × Dispatch
  | .cellDiff diff scrollbackLines =>
    let resetFirst := diff.scrollbackReset.isSome
    let hasSb := scrollbackLines ≠ []
    let firstIndex := diff.historyTotal - scrollbackLines.length
    let n := p.seqnoCounter
    let p : Pane B := { p with prevCursor := diff.cursor, prevModes := diff.modes }
    if hasSb then
      if resetFirst then
        -- the reset rides on the update, so the update has to arrive before the survivors
        ({ p with seqnoCounter := n + 2, scrollback := p.scrollback.push n diff },
          { frames := [.terminalUpdate diff n, .scrollbackAppend firstIndex scrollbackLines (n + 1)]
            certified := some n })
      else
        ({ p with seqnoCounter := n + 2, scrollback := p.scrollback.push (n + 1) diff },
          { frames := [.scrollbackAppend firstIndex scrollbackLines n, .terminalUpdate diff (n + 1)]
            certified := some (n + 1) })
    else
      ({ p with seqnoCounter := n + 1, scrollback := p.scrollback.push n diff },
        { frames := [.terminalUpdate diff n], certified := some n })
  | .cursorOnly cursor modes historyTotal =>
    if cursor ≠ p.prevCursor ∨ modes ≠ p.prevModes then
      let n := p.seqnoCounter
      -- kept for replay as a diff without operations
      let placeholder : TerminalDiff :=
        { ops := [], cursor, modes, historyTotal, scrollbackReset := none }
      ({ p with
          prevCursor := cursor
          prevModes := modes
          seqnoCounter := n + 1
          scrollback := p.scrollback.push n placeholder },
        { frames := [.cursorUpdate cursor modes n], certified := some n })
    else (p, { frames := [], certified := none })
  | .none => (p, { frames := [], certified := none })

/-- What a dispatch can do: the pane and the frames it leads to, one case per message order. -/
inductive Dispatched (p : Pane B) : DiffResult → Pane B → List ServerMessage → Prop
  | update (diff : TerminalDiff) :
      Dispatched p (.cellDiff diff [])
        { p with
          prevCursor := diff.cursor
          prevModes := diff.modes
          seqnoCounter := p.seqnoCounter + 1
          scrollback := p.scrollback.push p.seqnoCounter diff }
        [.terminalUpdate diff p.seqnoCounter]
  | updateAppend (diff : TerminalDiff) {lines : List ScrollbackLine} (hlines : lines ≠ [])
      (hreset : diff.scrollbackReset.isSome) :
      Dispatched p (.cellDiff diff lines)
        { p with
          prevCursor := diff.cursor
          prevModes := diff.modes
          seqnoCounter := p.seqnoCounter + 2
          scrollback := p.scrollback.push p.seqnoCounter diff }
        [.terminalUpdate diff p.seqnoCounter,
          .scrollbackAppend (diff.historyTotal - lines.length) lines (p.seqnoCounter + 1)]
  | appendUpdate (diff : TerminalDiff) {lines : List ScrollbackLine} (hlines : lines ≠ [])
      (hreset : ¬diff.scrollbackReset.isSome) :
      Dispatched p (.cellDiff diff lines)
        { p with
          prevCursor := diff.cursor
          prevModes := diff.modes
          seqnoCounter := p.seqnoCounter + 2
          scrollback := p.scrollback.push (p.seqnoCounter + 1) diff }
        [.scrollbackAppend (diff.historyTotal - lines.length) lines p.seqnoCounter,
          .terminalUpdate diff (p.seqnoCounter + 1)]
  | cursor (cursor : CursorState) (modes : TermModes) (historyTotal : ℕ)
      (hchanged : cursor ≠ p.prevCursor ∨ modes ≠ p.prevModes) :
      Dispatched p (.cursorOnly cursor modes historyTotal)
        { p with
          prevCursor := cursor
          prevModes := modes
          seqnoCounter := p.seqnoCounter + 1
          scrollback := p.scrollback.push p.seqnoCounter
            { ops := [], cursor, modes, historyTotal, scrollbackReset := none } }
        [.cursorUpdate cursor modes p.seqnoCounter]
  | same (historyTotal : ℕ) :
      Dispatched p (.cursorOnly p.prevCursor p.prevModes historyTotal) p []
  | none : Dispatched p .none p []

omit [TerminalBackend B] in
theorem dispatched (p : Pane B) (r : DiffResult) :
    Dispatched p r (p.dispatchDiffResult r).1 (p.dispatchDiffResult r).2.frames := by
  cases r with
  | cellDiff diff lines =>
    rw [dispatchDiffResult]
    by_cases hlines : lines = []
    · subst hlines
      exact .update diff
    · by_cases hreset : diff.scrollbackReset.isSome
      · simp only [if_pos (show lines ≠ [] from hlines), if_pos hreset]
        exact .updateAppend diff hlines hreset
      · simp only [if_pos (show lines ≠ [] from hlines), if_neg hreset]
        exact .appendUpdate diff hlines hreset
  | cursorOnly cursor modes historyTotal =>
    rw [dispatchDiffResult]
    by_cases hchanged : cursor ≠ p.prevCursor ∨ modes ≠ p.prevModes
    · rw [if_pos hchanged]
      exact .cursor cursor modes historyTotal hchanged
    · rw [if_neg hchanged]
      rw [not_or, not_not, not_not] at hchanged
      obtain ⟨rfl, rfl⟩ := hchanged
      exact .same historyTotal
  | none => exact .none

/-- The digest that follows a dispatch, if one is due: the emulator's own grid, certified. -/
def gridDigest (p : Pane B) (interval : ℕ) (d : Dispatch) : Option ServerMessage :=
  d.certified.bind fun seqno ↦
    if digestDue interval seqno then some (.gridDigest seqno p.engine.snapshot.liveDigest)
    else none

/-- Compute the diff and broadcast it. -/
def flushCellDiff (p : Pane B) : Pane B × Dispatch :=
  let d := p.engine.computeDiff
  ({ p with engine := d.1 } : Pane B).dispatchDiffResult d.2

/-- Let PTY output move the emulator on to state `b`. -/
def feed (p : Pane B) (b : B) : Pane B := { p with engine := p.engine.feed b }

/-- One cycle of the diff loop. -/
def cycle (p : Pane B) (b : B) : Pane B × Dispatch := (p.feed b).flushCellDiff

omit [TerminalBackend B] in
theorem Dispatched.engine {p p' : Pane B} {r : DiffResult} {frames : List ServerMessage}
    (h : p.Dispatched r p' frames) : p'.engine = p.engine := by
  cases h <;> rfl

omit [TerminalBackend B] in
@[simp] theorem dispatch_engine (p : Pane B) (r : DiffResult) :
    (p.dispatchDiffResult r).1.engine = p.engine :=
  (p.dispatched r).engine

theorem cycle_engine (p : Pane B) (b : B) :
    (p.cycle b).1.engine = (p.engine.feed b).computeDiff.1 :=
  dispatch_engine _ _

/-- What a cycle leaves in the engine. -/
theorem observed_cycle (p : Pane B) (b : B) :
    DiffEngine.Observed (p.engine.feed b) (p.cycle b).1.engine := by
  rw [cycle_engine]
  exact DiffEngine.observed_computeDiff _

/-- The snapshot a client attaching now is sent. -/
def snapshotMessage (p : Pane B) : ServerMessage :=
  .terminalSnapshot p.engine.snapshot p.currentSeqno

/-- The reply to a history fetch, read from the mirror. -/
def fetchHistory (p : Pane B) (requestId start count : ℕ) : ServerMessage :=
  let served := p.engine.mirror.range start count
  .historyLines requestId served.1 served.2 p.engine.mirror.historyTotal

/-- Resize the emulator and broadcast a snapshot of the new size, labelled with the seqno read
before the resize. -/
def resize (p : Pane B) (sz : BackendSize) : Pane B × List ServerMessage :=
  let p' : Pane B := { p with engine := p.engine.resize sz }
  (p', [.terminalSnapshot p'.engine.snapshot p.currentSeqno])

end Pane

/-- What can happen to a pane: output moves the emulator to a state `b` and is diffed, or the
emulator is resized. -/
inductive PaneEvent (B : Type*)
  | cycle (b : B)
  | resize (sz : BackendSize)

namespace Pane

variable {B : Type*} [TerminalBackend B]

/-- One event: the pane afterwards, and what its streaming clients are sent. -/
def step (p : Pane B) : PaneEvent B → Pane B × List ServerMessage
  | .cycle b => ((p.cycle b).1, (p.cycle b).2.frames)
  | .resize sz => p.resize sz

/-- The pane a history leads to. -/
def run (p : Pane B) (es : List (PaneEvent B)) : Pane B := Run.exec (fun p e ↦ (p.step e).1) p es

/-- Everything the streaming clients are sent along a history, in order. -/
def emitted (p : Pane B) : List (PaneEvent B) → List ServerMessage
  | [] => []
  | e :: es => (p.step e).2 ++ (p.step e).1.emitted es

@[simp] theorem run_cons (p : Pane B) (e : PaneEvent B) (es : List (PaneEvent B)) :
    p.run (e :: es) = (p.step e).1.run es := rfl

/-- The pane said `m` at some point of a history: as a broadcast, in a snapshot, in reply to a
fetch, or as one of the notices that carry no content. -/
inductive Said : Pane B → List (PaneEvent B) → ServerMessage → Prop
  | snapshot (p : Pane B) (es : List (PaneEvent B)) : Said p es p.snapshotMessage
  | reply (p : Pane B) (es : List (PaneEvent B)) (requestId start count : ℕ) :
      Said p es (p.fetchHistory requestId start count)
  | digest (p : Pane B) (es : List (PaneEvent B)) (seqno : SequenceNo) (hash : Fnv1a128) :
      Said p es (.gridDigest seqno hash)
  | syncReset (p : Pane B) (es : List (PaneEvent B)) : Said p es .syncReset
  | lagged (p : Pane B) (es : List (PaneEvent B)) (missedCount : ℕ) :
      Said p es (.lagged missedCount)
  | broadcast {p : Pane B} {e : PaneEvent B} (es : List (PaneEvent B)) {m : ServerMessage}
      (h : m ∈ (p.step e).2) : Said p (e :: es) m
  | later {p : Pane B} {e : PaneEvent B} {es : List (PaneEvent B)} {m : ServerMessage}
      (h : Said (p.step e).1 es m) : Said p (e :: es) m

end Pane

end Kmux
