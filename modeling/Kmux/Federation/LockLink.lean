import Kmux.Federation.Answers
import Kmux.Federation.PaneLock

/-!
# The input locks of a hub and its peer

The system of a link (`Link`) with the peer's panes in place of a peer that answers as it likes. The
hub is one client to the peer: it locks, attaches and detaches a pane there as any client does
(`PaneRelay`), and the peer's own clients act on the same panes. While the hub's clients take locks
the sessions stay and the link stands, so of the hub's events those that change the sessions or end
the link are left out.

`served` is what the peer has handled so far, the oldest first. Nothing reads it but the condition
on grants: a grant is *clean* when, after its request, the hub has sent neither another client's
release of the lock nor anything that makes the peer drop it.
-/

namespace Kmux

variable {B : Type*}

/-- The client that does something to a pane, if a client does. -/
def RelayEvent.client? : RelayEvent B → Option ClientId
  | .attach client .. | .detachFromPane client | .detachChannel client _ | .resize client _
  | .requestInputLock client | .releaseInputLock client | .setSnapshotMode client _
  | .setPaused client .. | .setPaneNoAutoPause client _ => some client
  | .output _ | .broadcast .. | .clear => none

namespace Federation

/-- A pane of the peer. -/
structure PeerPane (B : Type*) where
  relay : PaneRelay B
  /-- The peer's connection with the hub has the pane among its attached ones. -/
  attached : Bool

namespace PeerPane

variable [TerminalBackend B]

/-- `on_detach`. -/
def onDetach (p : PeerPane B) (client : ClientId) : PeerPane B :=
  if p.attached then { relay := (p.relay.detachFromPane client).1, attached := false } else p

/-- `on_attach`: a pane that is attached already is detached first. -/
def onAttach (p : PeerPane B) (client : ClientId) (size : TermSize) (ctrl : ChannelId)
    (capabilities : ClientCapabilities) : PeerPane B :=
  { relay := ((p.onDetach client).relay.attach client none size ctrl capabilities).1
    attached := true }

end PeerPane

/-- What the hub sends: the messages that another client's grant is not to be trusted after. -/
def Sent.spoils (x : Sent) (remote : PaneId) (client : ClientId) : Bool :=
  match x.msg, x.cause.sender with
  | .releaseInputLock pane, .client id _ => decide (pane = remote ∧ id ≠ client)
  | .attach pane _, .hub | .detach pane, _ => decide (pane = remote)
  | _, _ => false

/-- The pane that a grant is of. -/
def ServerMessage.granted? : ServerMessage → Option PaneId
  | .inputLockGranted pane => some pane
  | _ => none

/-- What has been sent after the message of a call. -/
def sentAfter (call : Option ℕ) (log : List Sent) : List Sent :=
  (log.dropWhile fun x ↦ decide (x.cause.call ≠ call)).tail

/-- Nothing sent after a client's request spoils its grant. -/
def isClean (log : List Sent) (remote : PaneId) (client : ClientId) (call : Option ℕ) : Bool :=
  (sentAfter call log).all fun x ↦ !x.spoils remote client

/-- The panes that a client views through a channel. -/
def PeerConnection.viewed (c : PeerConnection) (client : ClientId) (ctrl : ChannelId) :
    List PaneId :=
  c.panes.keys.filter fun pane ↦
    ((c.panes.lookup pane).bind fun p ↦ p.viewers.lookup client).any fun v ↦
      decide (v.ctrlTx = ctrl)

/-- If a client's leaving ends the last view of a pane, no other client holds the lock. -/
def PeerConnection.Parting (c : PeerConnection) (client : ClientId) (pane : PaneId) : Prop :=
  ∀ p ∈ c.panes.lookup pane, (p.viewers.erase client).keys = [] →
    ∀ holder ∈ c.holder pane, holder = client

instance PeerConnection.decidableParting (c : PeerConnection) (client : ClientId)
    (pane : PaneId) : Decidable (c.Parting client pane) :=
  inferInstanceAs (Decidable (∀ p ∈ _, _))

/-- The hub's events that leave its sessions and the link alone. -/
def LinkEvent.steady : LinkEvent → Bool
  | .forward _ _ (.paneInput ..) _ | .requestInputLock .. | .proceed _ | .releaseInputLock ..
  | .attachViewer .. | .resizeViewer .. | .detachViewer .. | .detachChannel .. | .dropViewer ..
  | .resync _ | .ping | .receive _ => true
  | _ => false

structure LockLink (B : Type*) where
  link : Link
  /-- What the hub is to the peer. -/
  me : ClientId
  ctrl : ChannelId
  capabilities : ClientCapabilities
  /-- By the peer's ids. -/
  panes : PaneId → PeerPane B
  served : List Sent

inductive LockEvent (B : Type*)
  /-- An event of the hub or of its clients. -/
  | hub (e : LinkEvent)
  /-- The peer handles the oldest message. Input may be refused. -/
  | serve (failure : Option (ErrorCode × String))
  /-- Something else that happens to a pane at the peer. -/
  | relay (pane : PaneId) (e : RelayEvent B)

namespace LockLink

variable [TerminalBackend B]

/-- A peer just opened, with the sessions it lists and the hub's words for them. Its panes are
fresh, and nobody is attached. -/
def new (peer : PeerId) (sessions : List (WordId × SessionEntry)) (me : ClientId)
    (ctrl : ChannelId) (capabilities : ClientCapabilities) (backend : PaneId → B)
    (size : PaneId → TermSize) : LockLink B where
  link := { Link.new peer with
    conn := sessions.foldl (fun c e ↦ c.registerSession e.1 e.2.wordId e.2 peer)
      PeerConnection.new }
  me
  ctrl
  capabilities
  panes := fun pane ↦ { relay := PaneRelay.new (backend pane) (size pane), attached := false }
  served := []

/-- Everything the hub has sent. -/
def log (s : LockLink B) : List Sent := s.served ++ s.link.conn.clientTx.queue

def setPane (s : LockLink B) (pane : PaneId) (p : PeerPane B) : LockLink B :=
  { s with panes := Function.update s.panes pane p }

/-- What the peer does with a message of the hub, and answers. -/
def handle (s : LockLink B) (failure : Option (ErrorCode × String)) :
    ClientMessage → LockLink B × Option ServerMessage
  | .requestInputLock pane =>
    let done := (s.panes pane).relay.requestInputLock s.me
    (s.setPane pane { s.panes pane with relay := done.1 },
      match done.2 with
      | .granted => some (.inputLockGranted pane)
      | .denied holder => some (.inputLockDenied pane holder))
  | .releaseInputLock pane =>
    let done := (s.panes pane).relay.releaseInputLock s.me
    (s.setPane pane { s.panes pane with relay := done.1 },
      if done.2 then some (.inputLockReleased pane) else none)
  | .attach pane size =>
    (s.setPane pane ((s.panes pane).onAttach s.me size s.ctrl s.capabilities), none)
  | .detach pane => (s.setPane pane ((s.panes pane).onDetach s.me), none)
  | .resize pane size =>
    (s.setPane pane { s.panes pane with relay := ((s.panes pane).relay.resize s.me size).1 }, none)
  | .paneInput .. => (s, failure.map fun f ↦ .error none f.1 f.2)
  | _ => (s, none)

def step (s : LockLink B) : LockEvent B → LockLink B
  | .hub e => if e.steady then { s with link := s.link.step e } else s
  | .serve failure =>
    match s.link.conn.clientTx.queue with
    | [] => s
    | x :: _ =>
      let done := s.handle failure x.msg
      { done.1 with link := s.link.step (.serve done.2), served := s.served ++ [x] }
  | .relay pane e =>
    if e.client? = some s.me then s
    else s.setPane pane { s.panes pane with relay := (s.panes pane).relay.step e }

/-! ## The property -/

/-- The two copies of the locks agree. -/
structure Agreed (s : LockLink B) : Prop where
  /-- What anyone but the holder writes is refused, and nothing is sent. -/
  writer : ∀ pane holder, s.link.conn.holder pane = some holder →
    ∀ kind, (ClientMessage.paneInput kind pane).writesInput → ∀ client, client ≠ holder →
      ∀ call ctrl, ∃ refusal, s.link.conn.forward call (.client client ctrl) (.paneInput kind pane)
        (.pane pane) none = (s.link.conn, some refusal)
  /-- With nothing on its way, a client holds the lock here exactly when the hub does at the
  peer. -/
  quiescent : s.link.conn.clientTx.queue = [] → s.link.down = [] →
    ∀ pane, (s.link.conn.holder pane).isSome ↔ ∃ remote,
      s.link.conn.toRemotePane pane = some remote ∧
        (s.panes remote).relay.inputMode = .locked s.me

omit [TerminalBackend B] in
/-- If the frame is a grant that is going to be recorded for a new holder, it is clean. -/
def Current (s : LockLink B) (a : Arrival) : Prop :=
  ∀ remote ∈ a.msg.granted?, ∀ client ∈ a.cause.sender.clientId,
    ∀ word ∈ s.link.conn.remoteToLocal.lookup remote.1,
      s.link.conn.holder (word, remote.2) = none →
        s.link.conn.viewing a.cause.sender (word, remote.2) →
          isClean s.log remote client a.cause.call

omit [TerminalBackend B] in
/-- What the copies agree through: the hub asks for a fresh snapshot of a pane, and its last viewer
but the holder leaves it, only while nobody holds the lock, and a grant is recorded only while it
is clean. -/
def Guarded (s : LockLink B) : LockEvent B → Prop
  | .hub (.resync pane) =>
    (s.link.conn.panes.lookup pane).isSome → s.link.conn.holder pane = none
  | .hub (.detachViewer pane client) => s.link.conn.Parting client pane
  | .hub (.detachChannel client ctrl) => ∀ pane ∈ s.link.conn.viewed client ctrl,
    s.link.conn.Parting client pane
  | .hub (.receive _) => ∀ a ∈ s.link.down.head?, s.Current a
  | _ => True

omit [TerminalBackend B] in
instance decidableCurrent (s : LockLink B) (a : Arrival) : Decidable (s.Current a) :=
  inferInstanceAs (Decidable (∀ remote ∈ _, ∀ client ∈ _, ∀ word ∈ _, _))

omit [TerminalBackend B] in
instance decidableGuarded (s : LockLink B) : (e : LockEvent B) → Decidable (s.Guarded e)
  | .hub (.resync _) => inferInstanceAs (Decidable (_ → _))
  | .hub (.detachViewer ..) => s.link.conn.decidableParting _ _
  | .hub (.detachChannel ..) => inferInstanceAs (Decidable (∀ pane ∈ _, _))
  | .hub (.receive _) => inferInstanceAs (Decidable (∀ a ∈ _, _))
  | .hub (.forward ..) | .hub (.requestInputLock ..) | .hub (.proceed _)
  | .hub (.releaseInputLock ..) | .hub (.attachViewer ..) | .hub (.resizeViewer ..)
  | .hub (.dropViewer ..) | .hub .ping | .hub .requestSessionList | .hub (.sessionClosedEvent _)
  | .hub (.serve _) | .hub .hangUp | .hub .linkDown | .hub (.relink ..) | .hub .closePeer
  | .hub .stopFeed | .serve _ | .relay .. => .isTrue trivial

end LockLink

end Federation

end Kmux
