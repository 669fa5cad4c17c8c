import Kmux.Client.PaneSession
import Kmux.Session.Layout
import Mathlib.Logic.Function.Basic

/-!
# The client's session manager

What the client keeps of the daemon's sessions, tabs and panes, and of its own view: the session,
tab and pane it looks at, the panes that are attached for it, the sync state and the grid of every
pane it has heard of, and what it believes the daemon has been told about pauses.

The bookkeeping of one pane is `PaneSession`; `onPane` runs an operation of it on the pane's entries
of the four maps. What goes out is recorded in `log`, with the two other things that change what the
daemon holds for this client: a pane that the client was told is gone, and a new link. A message
without a link is dropped.

Metrics, sizes, input locks, attention marks and the texts of the status line are left out: nothing
here reads them.
-/

namespace Kmux

namespace Client

abbrev WordId := String

/-- A pane id: the session's word and the pane's index in it. -/
abbrev PaneId := WordId × ℕ

instance lawfulBEqPaneId : LawfulBEq PaneId := inferInstance

structure PaneInfo where
  paneId : PaneId
  paneIndex : ℕ
  deriving DecidableEq, Repr

structure TabInfo where
  tabIndex : ℕ
  layout : LayoutNode
  focusedPane : ℕ

/-- A session as the daemon lists it. -/
structure SessionEntry where
  wordId : WordId
  peer : Option String
  tabs : List TabInfo
  activeTab : ℕ
  panes : List PaneInfo

/-- What the client sends. -/
inductive Outbound
  | attach (pane : PaneId) (lastSeqno : Option SequenceNo)
  | detach (pane : PaneId)
  | fetchHistory (requestId : ℕ) (pane : PaneId) (startIndex count : ℕ)
  | setFocus (word : WordId) (tabIndex paneIndex : ℕ)
  | setPaused (paused auto : Bool)
  | setPaneNoAutoPause (pane : PaneId) (exempt : Bool)
  | sessionList (requestId : ℕ)
  deriving DecidableEq, Repr

/-- One entry of the log. -/
inductive Wire
  | sent (msg : Outbound)
  /-- The client was told that the pane is gone, or that it has no part in it any more. -/
  | forgot (pane : PaneId)
  /-- A new link is up. -/
  | linked
  deriving DecidableEq, Repr

structure SessionManager where
  /-- `ws_sender` is there. -/
  linked : Bool
  sessionList : List SessionEntry
  activeSession : Option WordId
  activeTab : Option ℕ
  /-- The focused pane. -/
  activePane : Option PaneId
  /-- The panes that are attached and shown. -/
  visiblePanes : List PaneId
  /-- A pane that was created and is focused once its tab is listed. -/
  pendingSelectPane : Option PaneId
  buffers : PaneId → Option GridContent
  paneSync : PaneId → Option PaneSync
  inFlightHistoryFetches : PaneId → Option ℕ
  autoPauseExemptPanes : PaneId → Bool
  autoPauseExemptSessions : WordId → Bool
  /-- The last `(paused, auto)` that was pushed. -/
  pauseApplied : Bool × Bool
  nextRequestId : ℕ
  /-- The daemon run of the last link, and of the one before it. -/
  daemonInstance : Option ℕ
  previousDaemonInstance : Option ℕ
  /-- A call did not return. -/
  stuck : Bool
  log : List Wire

namespace SessionManager

def new : SessionManager :=
  { linked := false
    sessionList := []
    activeSession := none
    activeTab := none
    activePane := none
    visiblePanes := []
    pendingSelectPane := none
    buffers := fun _ ↦ none
    paneSync := fun _ ↦ none
    inFlightHistoryFetches := fun _ ↦ none
    autoPauseExemptPanes := fun _ ↦ false
    autoPauseExemptSessions := fun _ ↦ false
    pauseApplied := (false, false)
    nextRequestId := 0
    daemonInstance := none
    previousDaemonInstance := none
    stuck := false
    log := [] }

/-! ## Sending -/

/-- `send_ws`: without a link the messages are dropped. -/
def send (m : SessionManager) (msgs : List Outbound) : SessionManager :=
  if m.linked then { m with log := m.log ++ msgs.map .sent } else m

/-- The pane is exempt from auto-pause, by its own mark or its session's. -/
def isPaneAutoPauseExempt (m : SessionManager) (pane : PaneId) : Bool :=
  m.autoPauseExemptPanes pane || m.autoPauseExemptSessions pane.1

/-- What a message of the pane's bookkeeping becomes. The daemon resets the exemption on attach, so
it is asserted again behind it. -/
def outbound (m : SessionManager) (pane : PaneId) : ClientMessage → List Outbound
  | .attach lastSeqno =>
    if m.isPaneAutoPauseExempt pane then
      [.attach pane lastSeqno, .setPaneNoAutoPause pane true]
    else [.attach pane lastSeqno]
  | .fetchHistory requestId startIndex count => [.fetchHistory requestId pane startIndex count]

/-- The manager's entries for one pane. -/
def pane (m : SessionManager) (pane : PaneId) : PaneSession :=
  { buffer := m.buffers pane
    paneSync := m.paneSync pane
    inFlightHistoryFetch := m.inFlightHistoryFetches pane
    nextRequestId := m.nextRequestId
    sent := [] }

/-- An operation on one pane's entries, with what it sends. -/
def onPane (m : SessionManager) (pane : PaneId) (f : PaneSession → PaneSession) : SessionManager :=
  let s := f (m.pane pane)
  { m with
    buffers := Function.update m.buffers pane s.buffer
    paneSync := Function.update m.paneSync pane s.paneSync
    inFlightHistoryFetches := Function.update m.inFlightHistoryFetches pane s.inFlightHistoryFetch
    nextRequestId := s.nextRequestId }.send (s.sent.flatMap (m.outbound pane))

def attachFresh (m : SessionManager) (pane : PaneId) : SessionManager :=
  m.onPane pane PaneSession.attachFresh

/-- Drop the grid's content and attach afresh. -/
def resync (m : SessionManager) (pane : PaneId) : SessionManager := m.onPane pane PaneSession.resync

def ensurePane (m : SessionManager) (pane : PaneId) : SessionManager :=
  m.onPane pane PaneSession.ensurePane

def requestSessionList (m : SessionManager) : SessionManager :=
  { m with nextRequestId := m.nextRequestId + 1 }.send [.sessionList m.nextRequestId]

/-- Drop every entry for a pane that is gone. -/
def forgetPane (m : SessionManager) (pane : PaneId) : SessionManager :=
  { m with
    buffers := Function.update m.buffers pane none
    paneSync := Function.update m.paneSync pane none
    inFlightHistoryFetches := Function.update m.inFlightHistoryFetches pane none
    log := m.log ++ [.forgot pane] }

/-- Stop showing a pane. -/
def detachPane (m : SessionManager) (pane : PaneId) : SessionManager :=
  { m.send [.detach pane] with paneSync := Function.update m.paneSync pane none }

/-- Make `new` the attached and visible set: detach the panes that are no longer in it, attach those
that are new in it. -/
def setVisibleSet (m : SessionManager) (new : List PaneId) : SessionManager :=
  let old := m.visiblePanes
  let detached := (old.filter fun p ↦ p ∉ new).foldl detachPane m
  let attached := (new.filter fun p ↦ p ∉ old).foldl resync detached
  { attached with visiblePanes := new }

/-! ## Links -/

/-- Re-attach the visible panes on a new link: from the last seqno that was applied when it reached
the same daemon run, and afresh otherwise. -/
def resumePane (sameDaemon : Bool) (m : SessionManager) (pane : PaneId) : SessionManager :=
  match sameDaemon, m.paneSync pane with
  | true, some (.synced expected) =>
    m.onPane pane fun s ↦ s.attachWith (some (expected - 1))
  | _, _ => m.attachFresh pane

def resumeVisiblePanes (m : SessionManager) (sameDaemon : Bool) : SessionManager :=
  m.visiblePanes.foldl (resumePane sameDaemon) m

/-- The last link reached the same daemon run as the one before it. -/
def linkReachedSameDaemon (m : SessionManager) : Bool :=
  m.daemonInstance.isSome && decide (m.daemonInstance = m.previousDaemonInstance)

/-- `apply_outcome`: a bootstrap succeeded, and the link is up. -/
def applyOutcome (m : SessionManager) (daemon : Option ℕ) : SessionManager :=
  let up := { m with linked := true, log := m.log ++ [Wire.linked] }.requestSessionList
  let known :=
    { up with previousDaemonInstance := up.daemonInstance, daemonInstance := daemon }
  known.resumeVisiblePanes known.linkReachedSameDaemon

/-- `mark_connection_lost_with` and `begin_reconnect_attempt`. -/
def linkLost (m : SessionManager) : SessionManager :=
  { m with linked := false, pauseApplied := (false, false) }

/-- `prepare_reconnect`, and an `AuthResult` that refuses. -/
def dropLink (m : SessionManager) : SessionManager := { m with linked := false }

/-- The user disconnects. -/
def disconnect (m : SessionManager) : SessionManager :=
  { m with
    linked := false
    buffers := fun _ ↦ none
    activeSession := none
    activePane := none
    sessionList := []
    paneSync := fun _ ↦ none
    pauseApplied := (false, false) }

/-! ## Pauses -/

/-- A pane's output is withheld under this pause. -/
def withheld (paused auto exempt : Bool) : Bool := paused && !(auto && exempt)

/-- Re-attach a pane whose output was withheld and is not any more. -/
def resumeStreaming (was pause : Bool × Bool) (m : SessionManager) (pane : PaneId) :
    SessionManager :=
  let exempt := m.isPaneAutoPauseExempt pane
  if withheld was.1 was.2 exempt && !withheld pause.1 pause.2 exempt then m.attachFresh pane else m

def reconcilePause (m : SessionManager) (paused auto : Bool) : SessionManager :=
  let was := m.pauseApplied
  let told := if (paused, auto) ≠ was then m.send [.setPaused paused auto] else m
  { m.visiblePanes.foldl (resumeStreaming was (paused, auto)) told with
    pauseApplied := (paused, auto) }

def togglePaneAutoPauseExempt (m : SessionManager) (pane : PaneId) : SessionManager :=
  let exempt := !m.autoPauseExemptPanes pane
  let marked :=
    { m with autoPauseExemptPanes := Function.update m.autoPauseExemptPanes pane exempt }
  if pane ∈ m.visiblePanes then marked.send [.setPaneNoAutoPause pane exempt] else marked

def toggleSessionAutoPauseExempt (m : SessionManager) (word : WordId) : SessionManager :=
  let exempt := !m.autoPauseExemptSessions word
  let marked :=
    { m with autoPauseExemptSessions := Function.update m.autoPauseExemptSessions word exempt }
  marked.send
    ((m.visiblePanes.filter fun p ↦ decide (p.1 = word)).map (.setPaneNoAutoPause · exempt))

/-! ## What an operation on one pane leaves alone -/

theorem log_send {m : SessionManager} (h : m.linked = true) (msgs : List Outbound) :
    (m.send msgs).log = m.log ++ msgs.map .sent := by
  rw [send, if_pos h]

theorem send_of_unlinked {m : SessionManager} (h : m.linked = false) (msgs : List Outbound) :
    m.send msgs = m := by
  rw [send, h, if_neg Bool.false_ne_true]

/-- `m'` has the link, the visible panes, the marks and the pause of `m`. -/
structure Unmoved (m m' : SessionManager) : Prop where
  linked : m'.linked = m.linked
  visible : m'.visiblePanes = m.visiblePanes
  exempt : m'.isPaneAutoPauseExempt = m.isPaneAutoPauseExempt
  applied : m'.pauseApplied = m.pauseApplied

theorem Unmoved.refl (m : SessionManager) : Unmoved m m := ⟨rfl, rfl, rfl, rfl⟩

theorem Unmoved.trans {m m' m'' : SessionManager} (h : Unmoved m m') (h' : Unmoved m' m'') :
    Unmoved m m'' where
  linked := h'.linked.trans h.linked
  visible := h'.visible.trans h.visible
  exempt := h'.exempt.trans h.exempt
  applied := h'.applied.trans h.applied

theorem unmoved_send (m : SessionManager) (msgs : List Outbound) : Unmoved m (m.send msgs) := by
  rw [send]
  split
  · exact ⟨rfl, rfl, rfl, rfl⟩
  · exact Unmoved.refl m

theorem unmoved_onPane (m : SessionManager) (pane : PaneId) (f : PaneSession → PaneSession) :
    Unmoved m (m.onPane pane f) := by
  refine Unmoved.trans ?_ (unmoved_send _ _)
  exact ⟨rfl, rfl, rfl, rfl⟩

theorem unmoved_detachPane (m : SessionManager) (pane : PaneId) :
    Unmoved m (m.detachPane pane) := by
  refine (unmoved_send m [.detach pane]).trans ?_
  exact ⟨rfl, rfl, rfl, rfl⟩

/-- What an operation on a pane sends goes to the end of the log. -/
theorem log_onPane {m : SessionManager} (h : m.linked = true) (pane : PaneId)
    (f : PaneSession → PaneSession) :
    (m.onPane pane f).log =
      m.log ++ ((f (m.pane pane)).sent.flatMap (m.outbound pane)).map .sent := by
  refine (log_send ?_ _).trans rfl
  exact h

theorem log_onPane_of_unlinked {m : SessionManager} (h : m.linked = false) (pane : PaneId)
    (f : PaneSession → PaneSession) : (m.onPane pane f).log = m.log := by
  refine (congrArg log (send_of_unlinked ?_ _)).trans rfl
  exact h

end SessionManager

end Client

end Kmux
