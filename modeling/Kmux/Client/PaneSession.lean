import Kmux.Client.Grid

/-!
# One pane of the client's session manager

The sequence bookkeeping that decides whether a frame is applied, and the handlers of the pane
data stream. The source keeps these per pane in four maps; `PaneSession` is one pane's entries of
them, with every message the client sends recorded in order.

Metrics, the liveness timer and the auto-pause exemption that follows an `Attach` are left out:
nothing here reads them.
-/

namespace Kmux

/-- Per-pane synchronisation state. -/
inductive PaneSync
  | synced (expected : SequenceNo)
  | awaitingSync
  deriving DecidableEq, Repr

/-- One pane's entries in the session manager. -/
structure PaneSession where
  /-- The pane's grid, once one exists. -/
  buffer : Option GridContent
  paneSync : Option PaneSync
  /-- The id of the history fetch in flight. -/
  inFlightHistoryFetch : Option ℕ
  nextRequestId : ℕ
  /-- Every message sent to the daemon so far, oldest first. -/
  sent : List ClientMessage

namespace PaneSession

/-- A session that has never heard of the pane. -/
def new : PaneSession :=
  { buffer := none, paneSync := none, inFlightHistoryFetch := none, nextRequestId := 0, sent := [] }

def send (s : PaneSession) (msg : ClientMessage) : PaneSession := { s with sent := s.sent ++ [msg] }

/-- Change the grid, if there is one. -/
def modifyGrid (s : PaneSession) (f : GridContent → GridContent) : PaneSession :=
  { s with buffer := s.buffer.map f }

/-- Send the `Attach` resuming after `lastSeqno`. -/
def attachWith (s : PaneSession) (lastSeqno : Option SequenceNo) : PaneSession :=
  { s with inFlightHistoryFetch := none }.send (.attach lastSeqno)

def attachFresh (s : PaneSession) : PaneSession :=
  { s with paneSync := some .awaitingSync }.attachWith none

/-- Drop the grid's content and attach afresh: what every detected loss does. -/
def resync (s : PaneSession) : PaneSession :=
  { s.modifyGrid (fun g ↦ g.clear.1) with inFlightHistoryFetch := none }.attachFresh

/-- Check that a frame is the next one expected. The flag says whether to go on and apply it. -/
def checkPaneSync (s : PaneSession) (seqno : SequenceNo) : PaneSession × Bool :=
  match s.paneSync with
  | some .awaitingSync => (s, false)
  | some (.synced expected) => if seqno ≠ expected then (s.resync, false) else (s, true)
  | none => (s, true)

/-- Record an applied update: the next frame expected is one more. -/
def markSynced (s : PaneSession) (seqno : SequenceNo) : PaneSession :=
  { s with paneSync := some (.synced (seqno + 1)) }

/-- Maximum number of scrollback lines a single fetch asks for. -/
def fetchHistoryChunk : ℕ := 500

/-- The fetch a pane with a known scrollback gap needs: where from, and how many lines. -/
def historyRequest (g : GridContent) : Option (ℕ × ℕ) :=
  g.pendingHistoryGap.bind fun gap ↦
    let count := min (gap.2 - gap.1) fetchHistoryChunk
    if count = 0 then none else some (gap.1, count)

/-- If the pane has a known scrollback gap and no fetch in flight, issue a bounded one. -/
def maybeFetchHistory (s : PaneSession) : PaneSession :=
  if s.inFlightHistoryFetch.isSome then s
  else
    match s.buffer.bind historyRequest with
    | some (start, count) =>
      { s with
        inFlightHistoryFetch := some s.nextRequestId
        nextRequestId := s.nextRequestId + 1 }.send
        (.fetchHistory s.nextRequestId start count)
    | none => s

/-! ## Handlers of the pane data stream -/

/-- The grid a snapshot lands in when the pane has none yet. -/
def ensurePane (s : PaneSession) : PaneSession :=
  { s with buffer := some (s.buffer.getD (GridContent.new 24 80)) }

def onTerminalSnapshot (s : PaneSession) (snapshot : GridSnapshot) (seqno : SequenceNo) :
    PaneSession :=
  (s.ensurePane.modifyGrid fun g ↦ (g.applySnapshot snapshot).1).markSynced seqno

def onTerminalUpdate (s : PaneSession) (diff : TerminalDiff) (seqno : SequenceNo) : PaneSession :=
  match s.checkPaneSync seqno with
  | (s, false) => s
  | (s, true) =>
    ((s.modifyGrid fun g ↦ (g.applyDiff diff).1).markSynced seqno).maybeFetchHistory

def onCursorUpdate (s : PaneSession) (cursor : CursorState) (modes : TermModes)
    (seqno : SequenceNo) : PaneSession :=
  match s.checkPaneSync seqno with
  | (s, false) => s
  | (s, true) => (s.modifyGrid fun g ↦ g.applyCursorUpdate cursor modes).markSynced seqno

def onScrollbackAppend (s : PaneSession) (firstIndex : ℕ) (lines : List ScrollbackLine)
    (seqno : SequenceNo) : PaneSession :=
  match s.checkPaneSync seqno with
  | (s, false) => s
  | (s, true) =>
    ((s.modifyGrid fun g ↦ (g.applyScrollbackAppend firstIndex lines).1).markSynced
      seqno).maybeFetchHistory

def onSyncReset (s : PaneSession) : PaneSession :=
  { s.modifyGrid (fun g ↦ g.clear.1) with
    inFlightHistoryFetch := none
    paneSync := some .awaitingSync }

/-- Verify the grid against a digest, but only when synced at exactly its seqno and with no
history gap outstanding. -/
def onGridDigest (s : PaneSession) (seqno : SequenceNo) (hash : Fnv1a128) : PaneSession :=
  if s.paneSync = some (.synced (seqno + 1)) then
    match s.buffer with
    | some g => if g.pendingHistoryGap = none ∧ g.liveDigest ≠ hash then s.resync else s
    | none => s
  else s

def onLagged (s : PaneSession) : PaneSession := s.resync

/-- Apply a fetch reply; clear the in-flight marker only if the reply matches it, then ask for
more if the gap is still open. -/
def onHistoryLines (s : PaneSession) (requestId firstIndex : ℕ) (lines : List ScrollbackLine)
    (historyTotal : ℕ) : PaneSession :=
  let s₁ := s.modifyGrid fun g ↦ g.applyHistoryLines firstIndex lines historyTotal
  let s₂ := if s₁.inFlightHistoryFetch = some requestId then
      { s₁ with inFlightHistoryFetch := none }
    else s₁
  s₂.maybeFetchHistory

/-- The dispatch over one pane's messages. -/
def handleServerMessage (s : PaneSession) : ServerMessage → PaneSession
  | .terminalSnapshot snapshot seqno => s.onTerminalSnapshot snapshot seqno
  | .terminalUpdate diff seqno => s.onTerminalUpdate diff seqno
  | .cursorUpdate cursor modes seqno => s.onCursorUpdate cursor modes seqno
  | .scrollbackAppend firstIndex lines seqno => s.onScrollbackAppend firstIndex lines seqno
  | .gridDigest seqno hash => s.onGridDigest seqno hash
  | .syncReset => s.onSyncReset
  | .lagged _ => s.onLagged
  | .historyLines requestId firstIndex lines historyTotal =>
    s.onHistoryLines requestId firstIndex lines historyTotal

/-- Receive messages in order. -/
def receive (s : PaneSession) (msgs : List ServerMessage) : PaneSession :=
  msgs.foldl handleServerMessage s

/-- The attaches sent so far. A resync adds one, and nothing else the pane stream does. -/
def attaches (s : PaneSession) : ℕ :=
  s.sent.countP fun
    | .attach _ => true
    | .fetchHistory .. => false

end PaneSession

end Kmux
