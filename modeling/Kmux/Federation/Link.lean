import Kmux.Federation.Connection
import Kmux.Lib.Run

/-!
# A hub, its clients and a peer over one link

The system is one connection with the channel up the link, the frames on their way down, and the
calls of clients that have looked the connection up and not yet locked it. A peer handles the
messages of the link in order and answers each before it reads the next, with at most one answer; it
answers a ping with a pong. Which answer it gives is the peer's choice (`serve`). The link may stop
taking messages (`hangUp`), end (`linkDown`) and be re-opened (`relink`). When the user closes the
peer, the task that feeds the link is aborted; it goes on handling frames until the abort lands
(`stopFeed`).
-/

namespace Kmux

namespace Federation

/-- A frame on its way down, with the message that it answers. -/
structure Arrival where
  msg : ServerMessage
  cause : Cause
  deriving DecidableEq, Repr

/-- Whether `answer` may be the answer to a message. An answer with an id has the message's. -/
def ClientMessage.answeredBy (msg : ClientMessage) : ServerMessage → Bool
  | .sessionListResult id _ => decide (msg = .sessionList id)
  | .pong _ => false
  | answer =>
    answer.unrequested || answer.replyRequestId.isSome &&
      decide (answer.replyRequestId = msg.requestId?)

/-- What a client asks for once it has found the connection. -/
inductive Ask
  | forward (msg : ClientMessage)
  | inputLock (pane : PaneId)
  deriving DecidableEq, Repr

/-- A call between looking the connection up and locking it. -/
structure Pending where
  call : ℕ
  client : ClientId
  ctrl : ChannelId
  ask : Ask
  deriving DecidableEq, Repr

def Pending.sender (p : Pending) : Requester := .client p.client p.ctrl

structure Link where
  peer : PeerId
  conn : PeerConnection
  /-- The hub has the connection among its peers. -/
  isOpen : Bool
  /-- The task that feeds the link has been stopped. -/
  stopped : Bool
  /-- The oldest frame first. -/
  down : List Arrival
  /-- The calls made so far, each numbered by its place. -/
  asked : List Pending
  /-- Those that have not locked the connection yet. -/
  pending : List Pending
  /-- The frames handled so far. Nothing reads them. -/
  handled : List Arrival
  /-- The calls that the peer handled without an answer. Nothing reads them either. -/
  silent : List ℕ

inductive LinkEvent
  /-- A client's request for a proxied session. `found` is false when the hub finds no connection
  for it. -/
  | forward (client : ClientId) (ctrl : ChannelId) (msg : ClientMessage) (found : Bool)
  | requestInputLock (client : ClientId) (ctrl : ChannelId) (pane : PaneId) (found : Bool)
  /-- A call that found the connection locks it. -/
  | proceed (call : ℕ)
  | releaseInputLock (client : ClientId) (ctrl : ChannelId) (pane : PaneId)
  | attachViewer (pane : PaneId) (client : ClientId) (ctrl : ChannelId) (size : TermSize)
  | resizeViewer (pane : PaneId) (client : ClientId) (size : TermSize)
  | detachViewer (pane : PaneId) (client : ClientId)
  | detachChannel (client : ClientId) (ctrl : ChannelId)
  | dropViewer (pane : PaneId) (client : ClientId)
  /-- An upstream `Lagged`, or a digest that the mirror does not match. -/
  | resync (pane : PaneId)
  /-- The liveness ping. -/
  | ping
  | requestSessionList
  /-- The peer's event that it closed a session. -/
  | sessionClosedEvent (remoteWord : WordId)
  /-- The peer handles the oldest message, with or without an answer. -/
  | serve (answer : Option ServerMessage)
  /-- The hub handles the oldest frame. -/
  | receive (drawn : List WordId)
  /-- The transport stops taking messages. The peer may never see what is queued. -/
  | hangUp
  | linkDown
  | relink (listed : List SessionEntry) (drawn : List WordId)
  | closePeer
  | stopFeed
  deriving DecidableEq, Repr

namespace Link

/-- A peer just opened. -/
def new (peer : PeerId) : Link where
  peer
  conn := PeerConnection.new
  isOpen := true
  stopped := false
  down := []
  asked := []
  pending := []
  handled := []
  silent := []

/-- The next call. -/
def next (s : Link) (client : ClientId) (ctrl : ChannelId) (ask : Ask) : Pending :=
  { call := s.asked.length, client, ctrl, ask }

/-- A client's call is answered at once. -/
def refuse (s : Link) (p : Pending) (refusal : Refusal) : Link :=
  { s with
    conn := s.conn.tell p.sender refusal.intoError (some p.call), asked := s.asked ++ [p] }

/-- A client's call has found the connection. -/
def enter (s : Link) (p : Pending) : Link :=
  { s with asked := s.asked ++ [p], pending := s.pending ++ [p] }

/-- The result of a call that has locked the connection: a refusal goes to the sender. -/
def settle (s : Link) (p : Pending) (result : PeerConnection × Option Refusal) : Link :=
  match result with
  | (conn, none) => { s with conn, pending := s.pending.erase p }
  | (conn, some refusal) =>
    { s with
      conn := conn.tell p.sender refusal.intoError (some p.call), pending := s.pending.erase p }

/-- What a call does to the connection. -/
def run (c : PeerConnection) (p : Pending) : PeerConnection × Option Refusal :=
  match p.ask with
  | .forward msg =>
    match msg.federation with
    | .forward target requestId => c.forward p.call p.sender msg target requestId
    | _ => (c, none)
  | .inputLock pane => c.requestInputLock p.call p.sender pane

/-- The peer handles `sent`. -/
def serveOne (s : Link) (sent : Sent) (answer : Option ServerMessage) : Link :=
  match sent.msg with
  | .ping seq => { s with down := s.down ++ [{ msg := .pong seq, cause := sent.cause }] }
  | msg =>
    match answer with
    | some answer =>
      if msg.answeredBy answer then
        { s with down := s.down ++ [{ msg := answer, cause := sent.cause }] }
      else { s with silent := s.silent ++ sent.cause.call.toList }
    | none => { s with silent := s.silent ++ sent.cause.call.toList }

def step (s : Link) : LinkEvent → Link
  | .forward client ctrl msg found =>
    if msg.sendable then
      match msg.federation with
      | .forward target requestId =>
        if found && s.isOpen then s.enter (s.next client ctrl (.forward msg))
        else s.refuse (s.next client ctrl (.forward msg))
          ⟨requestId, target.missing.1, target.missing.2⟩
      | _ => s.refuse (s.next client ctrl (.forward msg))
          ⟨none, .internalError, "not a request a hub forwards"⟩
    else s
  | .requestInputLock client ctrl pane found =>
    if found && s.isOpen then s.enter (s.next client ctrl (.inputLock pane))
    else s.refuse (s.next client ctrl (.inputLock pane))
      ⟨none, (Target.pane pane).missing.1, (Target.pane pane).missing.2⟩
  | .proceed call =>
    match s.pending.find? fun p ↦ decide (p.call = call) with
    | some p => s.settle p (run s.conn p)
    | none => s
  | .releaseInputLock client ctrl pane =>
    match s.conn.releaseInputLock (.client client ctrl) pane with
    | (conn, none) => { s with conn }
    | (conn, some refusal) =>
      { s with conn := conn.tell (.client client ctrl) refusal.intoError none }
  | .attachViewer pane client ctrl size =>
    { s with conn := s.conn.attachViewer pane client ctrl size }
  | .resizeViewer pane client size => { s with conn := s.conn.resizeViewer pane client size }
  | .detachViewer pane client => { s with conn := s.conn.releaseViewer pane client }
  | .detachChannel client ctrl => { s with conn := s.conn.detachChannel client ctrl }
  | .dropViewer pane client => { s with conn := s.conn.dropViewer pane client }
  | .resync pane => { s with conn := s.conn.resync pane }
  | .ping => { s with conn := s.conn.ping }
  | .requestSessionList => { s with conn := s.conn.requestSessionList }
  | .sessionClosedEvent word => { s with conn := s.conn.remoteSessionClosed s.isOpen word }
  | .serve answer =>
    match s.conn.clientTx.queue with
    | sent :: queue =>
      { s with conn := { s.conn with clientTx := { s.conn.clientTx with queue } } }.serveOne sent
        answer
    | [] => s
  | .receive drawn =>
    match s.stopped, s.down with
    | false, a :: down =>
      { s with
        down
        handled := s.handled ++ [a]
        conn := s.conn.onUpstream 
          { peer := s.peer, isOpen := s.isOpen, drawn, call := a.cause.call } a.msg }
    | _, _ => s
  | .hangUp =>
    { s with conn := { s.conn with clientTx := { s.conn.clientTx with closed := true } } }
  | .linkDown =>
    if s.conn.dead || s.stopped then s else { s with conn := s.conn.linkDown, down := [] }
  | .relink listed drawn =>
    if s.conn.dead && s.isOpen && !s.stopped then
      { s with conn := s.conn.relink s.peer listed drawn, down := [] }
    else s
  | .closePeer => { s with isOpen := false }
  | .stopFeed => if s.isOpen then s else { s with stopped := true }

end Link

end Federation

end Kmux
