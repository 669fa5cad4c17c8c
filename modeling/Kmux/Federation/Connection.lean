import Kmux.Federation.Routes

/-!
# One upstream connection

`PeerConnection` is what a hub keeps for one peer: the channel up the link, the maps between its own
words and the peer's, the panes that its clients view, the routes, and the input locks. Its
operations are the source's, each run under the connection's lock.

Everything a client is sent goes to its control lane, which never blocks. The connection keeps two
logs of it that nothing reads: `relayed` is what it passed on of the peer's answers, `told` what it
said itself, each with the number of the call it answers, if it answers one. A message in the
channel carries its `Cause` for the same reason.
-/

namespace Kmux

namespace Federation

/-- Who sent a message, under which id of its own and which of the hub's, and in which call. -/
structure Cause where
  sender : Requester
  requestId : Option RequestId
  hubId : Option RequestId
  call : Option ℕ
  deriving DecidableEq, Repr

/-- A message in the channel. -/
structure Sent where
  msg : ClientMessage
  cause : Cause
  deriving DecidableEq, Repr

/-- An unbounded channel, as its sender sees it. -/
structure Outlet where
  /-- The oldest message first. -/
  queue : List Sent
  /-- The receiver is gone. -/
  closed : Bool

/-- A send fails only on a channel that is closed. -/
def Outlet.send (tx : Outlet) (sent : Sent) : Option Outlet :=
  if tx.closed then none else some { tx with queue := tx.queue ++ [sent] }

/-- Something put on a client's control lane. -/
structure Delivery where
  client : ClientId
  ctrl : ChannelId
  msg : ServerMessage
  call : Option ℕ
  deriving DecidableEq, Repr

/-- What answering a requester puts on a control lane. The hub answers itself nothing. -/
def Requester.answer (recipient : Requester) (msg : ServerMessage) (call : Option ℕ) :
    List Delivery :=
  match recipient with
  | .client id ctrl => [{ client := id, ctrl, msg, call }]
  | .hub => []

/-- A client viewing a proxied pane, as far as the size and the lock go. -/
structure Viewer where
  ctrlTx : ChannelId
  size : TermSize
  deriving DecidableEq, Repr

/-- A proxied pane, without the mirror of its contents. -/
structure ProxiedPane where
  viewers : Table Viewer
  /-- The effective size last sent upstream. -/
  upstreamSize : TermSize

/-- A map keyed by session words. -/
abbrev WordMap (α : Type*) := AList fun _ : WordId ↦ α

/-- A map keyed by panes. -/
abbrev PaneMap (α : Type*) := AList fun _ : PaneId ↦ α

/-- A connection to a peer and the local state proxying it. -/
structure PeerConnection where
  clientTx : Outlet
  remoteToLocal : WordMap WordId
  localToRemote : WordMap WordId
  sessions : WordMap SessionEntry
  panes : PaneMap ProxiedPane
  routes : Routes
  /-- Who holds the hub's lock on a proxied pane. -/
  inputLocks : PaneMap Requester
  /-- The link is down and being re-opened. -/
  dead : Bool
  relayed : List Delivery
  told : List Delivery

/-- Keep the entries of a map whose key passes. -/
def retain {α : Type*} {β : α → Type*} (m : AList β) (p : α → Bool) : AList β where
  entries := m.entries.filter fun e ↦ p e.1
  nodupKeys := m.nodupKeys.sublist List.filter_sublist

namespace ProxiedPane

/-- The smallest positive value of a dimension among the viewers, 0 without one. -/
def smallest (p : ProxiedPane) (dim : TermSize → UInt16) : UInt16 :=
  (((p.viewers.values.map fun v ↦ dim v.size).filter fun d ↦ decide (0 < d)).min?).getD 0

/-- Smallest wins, in cells only. -/
def effectiveSize (p : ProxiedPane) : TermSize :=
  { rows := p.smallest TermSize.rows, cols := p.smallest TermSize.cols
    pixelWidth := 0, pixelHeight := 0 }

end ProxiedPane

namespace PeerConnection

/-- A connection over a channel just opened. -/
def new : PeerConnection where
  clientTx := { queue := [], closed := false }
  remoteToLocal := ∅
  localToRemote := ∅
  sessions := ∅
  panes := ∅
  routes := Routes.default
  inputLocks := ∅
  dead := false
  relayed := []
  told := []

/-! ## Sending -/

/-- `client_tx.send`, its failure ignored. -/
def push (c : PeerConnection) (sent : Sent) : PeerConnection :=
  { c with clientTx := (c.clientTx.send sent).getD c.clientTx }

/-- The hub pings on its own account: nobody is answered. -/
def pingSent (seq : ℕ) : Sent :=
  { msg := .ping seq, cause := { sender := .hub, requestId := none, hubId := none, call := none } }

/-- `sender` is about to send: ping first when that ends another sender's run. -/
def barrier (c : PeerConnection) (sender : Requester) : PeerConnection :=
  match c.routes.sent sender with
  | (routes, some seq) => { c with routes }.push (pingSent seq)
  | (routes, none) => { c with routes }

/-- Send on behalf of `sender`, after its barrier. A closed link drops the message. -/
def send (c : PeerConnection) (sender : Requester) (msg : ClientMessage) (call : Option ℕ) :
    PeerConnection :=
  (c.barrier sender).push { msg, cause := { sender, requestId := none, hubId := none, call } }

@[simp] theorem barrier_relayed (c : PeerConnection) (sender : Requester) :
    (c.barrier sender).relayed = c.relayed := by
  rw [barrier]
  split <;> rfl

@[simp] theorem barrier_told (c : PeerConnection) (sender : Requester) :
    (c.barrier sender).told = c.told := by
  rw [barrier]
  split <;> rfl

@[simp] theorem send_relayed (c : PeerConnection) (sender : Requester) (msg : ClientMessage)
    (call : Option ℕ) : (c.send sender msg call).relayed = c.relayed := barrier_relayed c sender

@[simp] theorem send_told (c : PeerConnection) (sender : Requester) (msg : ClientMessage)
    (call : Option ℕ) : (c.send sender msg call).told = c.told := barrier_told c sender

/-- Ping the peer, whose `Pong` also marks everything sent before as answered. -/
def ping (c : PeerConnection) : PeerConnection :=
  { c with routes := c.routes.ping.1 }.push (pingSent c.routes.ping.2)

/-- What the hub says to a requester itself. -/
def tell (c : PeerConnection) (recipient : Requester) (msg : ServerMessage) (call : Option ℕ) :
    PeerConnection :=
  { c with told := c.told ++ recipient.answer msg call }

/-- A peer's answer passed on. -/
def relay (c : PeerConnection) (recipient : Requester) (msg : ServerMessage) (call : Option ℕ) :
    PeerConnection :=
  { c with relayed := c.relayed ++ recipient.answer msg call }

/-! ## Words and panes -/

/-- Record a remote session under a fresh local word. -/
def registerSession (c : PeerConnection) (localWord remoteWord : WordId) (entry : SessionEntry)
    (peer : PeerId) : PeerConnection :=
  { c with
    remoteToLocal := c.remoteToLocal.insert remoteWord localWord
    localToRemote := c.localToRemote.insert localWord remoteWord
    sessions := c.sessions.insert localWord (localizeEntry entry localWord peer) }

/-- Forget a session: its mappings, its listing, its panes and their locks. -/
def unregisterSession (c : PeerConnection) (localWord : WordId) : PeerConnection :=
  { c with
    remoteToLocal := match c.localToRemote.lookup localWord with
      | some remoteWord => c.remoteToLocal.erase remoteWord
      | none => c.remoteToLocal
    localToRemote := c.localToRemote.erase localWord
    sessions := c.sessions.erase localWord
    panes := retain c.panes fun pane ↦ decide (pane.1 ≠ localWord)
    inputLocks := retain c.inputLocks fun pane ↦ decide (pane.1 ≠ localWord) }

/-- A local pane, by the peer's word. -/
def toRemotePane (c : PeerConnection) (pane : PaneId) : Option PaneId :=
  (c.localToRemote.lookup pane.1).map fun word ↦ (word, pane.2)

/-- Ask the peer for a fresh snapshot of a pane, by attaching it again. -/
def resync (c : PeerConnection) (pane : PaneId) : PeerConnection :=
  match c.panes.lookup pane, c.toRemotePane pane with
  | some p, some remote => c.send .hub (.attach remote p.upstreamSize) none
  | _, _ => c

/-- Attach every pane again, on a link re-opened. -/
def reattachPanes (c : PeerConnection) : PeerConnection := c.panes.keys.foldl resync c

/-- Send a `Resize` when the effective size has changed. -/
def reconcileSize (c : PeerConnection) (pane remote : PaneId) : PeerConnection :=
  match c.panes.lookup pane with
  | some p =>
    if p.effectiveSize = p.upstreamSize then c
    else
      { c with panes := c.panes.insert pane { p with upstreamSize := p.effectiveSize } }.send .hub
        (.resize remote p.effectiveSize) none
  | none => c

/-! ## Input locks -/

/-- The client holding the hub's lock on a pane. -/
def holder (c : PeerConnection) (pane : PaneId) : Option ClientId :=
  (c.inputLocks.lookup pane).bind Requester.clientId

/-- Ask the peer again, as the hub, for a lock a client here holds. -/
def relock (c : PeerConnection) (pane : PaneId) : PeerConnection :=
  match c.toRemotePane pane with
  | some remote => c.send .hub (.requestInputLock remote) none
  | none => c

/-- The peer released the lock for `sender`. -/
def lockReleased (c : PeerConnection) (pane : PaneId) (sender : Requester) : PeerConnection :=
  match c.holder pane with
  | none => c
  | some holder =>
    if sender.clientId = some holder then { c with inputLocks := c.inputLocks.erase pane }
    else if sender.clientId = none then c.relock pane
    else c

/-- The peer refused the lock to `sender`. -/
def lockRefused (c : PeerConnection) (pane : PaneId) (sender : Requester) : PeerConnection :=
  match c.holder pane with
  | none => c
  | some holder =>
    if sender.clientId = none ∨ sender.clientId = some holder then
      match c.inputLocks.lookup pane with
      | some requester =>
        if sender.clientId = none then
          { c with inputLocks := c.inputLocks.erase pane }.tell requester
            (.inputLockReleased pane) none
        else { c with inputLocks := c.inputLocks.erase pane }
      | none => c
    else c

/-- Whether a requester views a pane. -/
def viewing (c : PeerConnection) (sender : Requester) (pane : PaneId) : Bool :=
  match sender.clientId, c.panes.lookup pane with
  | some id, some p => (p.viewers.lookup id).isSome
  | _, _ => false

/-- A grant makes a viewer the holder; for anyone else it is given back. -/
def recordGrant (c : PeerConnection) (sender : Requester) (pane : PaneId) : PeerConnection :=
  if c.viewing sender pane then { c with inputLocks := c.inputLocks.insert pane sender }
  else
    match c.toRemotePane pane with
    | some remote => c.send .hub (.releaseInputLock remote) none
    | none => c

/-- Keep the hub's lock in step with a lock reply to `sender`; the second component is what
`sender` is answered. -/
def onLockReply (c : PeerConnection) (sender : Requester) :
    ServerMessage → PeerConnection × ServerMessage
  | .inputLockGranted pane =>
    match c.holder pane with
    | some holder =>
      if some holder ≠ sender.clientId then (c, .inputLockDenied pane holder)
      else (c.recordGrant sender pane, .inputLockGranted pane)
    | none => (c.recordGrant sender pane, .inputLockGranted pane)
  | .inputLockReleased pane => (c.lockReleased pane sender, .inputLockReleased pane)
  | .inputLockDenied pane holder => (c.lockRefused pane sender, .inputLockDenied pane holder)
  | msg => (c, msg)

/-- Give back one lock that the hub holds for a client. -/
def giveBack (c : PeerConnection) (pane : PaneId) : PeerConnection :=
  let c := { c with inputLocks := c.inputLocks.erase pane }
  match c.toRemotePane pane with
  | some remote => c.send .hub (.releaseInputLock remote) none
  | none => c

/-- Give back every lock that `holder` holds through its channel. -/
def releaseLocksOf (c : PeerConnection) (holder : Requester) : PeerConnection :=
  (c.inputLocks.keys.filter fun pane ↦ decide (c.inputLocks.lookup pane = some holder)).foldl
    giveBack c

/-! ## Viewers -/

/-- Remove a viewer and release the lock it held. The last one to leave detaches the pane. -/
def releaseViewer (c : PeerConnection) (pane : PaneId) (client : ClientId) : PeerConnection :=
  match c.toRemotePane pane with
  | none => c
  | some remote =>
    let c := if c.holder pane = some client then c.giveBack pane else c
    match c.panes.lookup pane with
    | none => c
    | some p =>
      if (p.viewers.erase client).keys = [] then
        { c with panes := c.panes.erase pane }.send .hub (.detach remote) none
      else
        { c with panes := c.panes.insert pane { p with viewers := p.viewers.erase client } }
          |>.reconcileSize pane remote

/-- A channel of a client ended: its views and its locks go. -/
def detachChannel (c : PeerConnection) (client : ClientId) (ctrl : ChannelId) : PeerConnection :=
  let viewed := c.panes.keys.filter fun pane ↦
    ((c.panes.lookup pane).bind fun p ↦ p.viewers.lookup client).any fun v ↦
      decide (v.ctrlTx = ctrl)
  (viewed.foldl (fun c pane ↦ c.releaseViewer pane client) c).releaseLocksOf
    (.client client ctrl)

/-- Register a viewer. The first one attaches the pane upstream. -/
def attachViewer (c : PeerConnection) (pane : PaneId) (client : ClientId) (ctrl : ChannelId)
    (size : TermSize) : PeerConnection :=
  match c.toRemotePane pane with
  | none => c
  | some remote =>
    -- a lock held through another channel of the client moves to this one
    let c := if c.holder pane = some client then
        { c with inputLocks := c.inputLocks.insert pane (.client client ctrl) }
      else c
    match c.panes.lookup pane with
    | some p =>
      { c with
        panes := c.panes.insert pane
          { p with viewers := p.viewers.insert client { ctrlTx := ctrl, size } } }
        |>.reconcileSize pane remote
    | none =>
      { c with
        panes := c.panes.insert pane
          { viewers := AList.insert client { ctrlTx := ctrl, size } ∅, upstreamSize := size } }.send
        (.client client ctrl) (.attach remote size) none

/-- A viewer declares another size. -/
def resizeViewer (c : PeerConnection) (pane : PaneId) (client : ClientId) (size : TermSize) :
    PeerConnection :=
  match c.toRemotePane pane with
  | none => c
  | some remote =>
    match c.panes.lookup pane with
    | some p =>
      match p.viewers.lookup client with
      | some v =>
        { c with
          panes := c.panes.insert pane
            { p with viewers := p.viewers.insert client { v with size } } }
          |>.reconcileSize pane remote
      | none => c.reconcileSize pane remote
    | none => c

/-- What `fan_out` does to the viewers: one whose data lane is full or closed is dropped, without
the lock it may hold. -/
def dropViewer (c : PeerConnection) (pane : PaneId) (client : ClientId) : PeerConnection :=
  match c.panes.lookup pane with
  | some p =>
    { c with panes := c.panes.insert pane { p with viewers := p.viewers.erase client } }
  | none => c

/-! ## Requests of the clients -/

/-- The peer's form of a pane, or why there is none. -/
def remotePane (c : PeerConnection) (pane : PaneId) : Except (ErrorCode × String) Target :=
  match c.toRemotePane pane with
  | some remote => .ok (.pane remote)
  | none => .error (Target.pane pane).missing

/-- The peer's form of a target, or why there is none. -/
def retarget (c : PeerConnection) (writer : Option Requester) :
    Target → Except (ErrorCode × String) Target
  | .session word =>
    match c.localToRemote.lookup word with
    | some remote => .ok (.session remote)
    | none => .error (Target.session word).missing
  | .pane pane =>
    match writer, c.inputLocks.lookup pane with
    | some writer, some holder =>
      if holder.clientId ≠ writer.clientId then
        .error (.inputLocked,
          "pane " ++ pane.1 ++ "/" ++ toString pane.2 ++ " is locked by another client")
      else c.remotePane pane
    | _, _ => c.remotePane pane
  | .peer _ => .ok (.peer none)

/-- The part of `forward` that runs under the connection's lock: `msg` names `target`, and carries
`requestId`. The second component is the refusal, if there is one. -/
def forward (c : PeerConnection) (call : ℕ) (sender : Requester) (msg : ClientMessage)
    (target : Target) (requestId : Option RequestId) : PeerConnection × Option Refusal :=
  if c.dead then
    (c, some ⟨requestId, .internalError,
      "the peer is unreachable; its link is being re-opened"⟩)
  else
    match c.retarget (if msg.writesInput then some sender else none) target with
    | .error (code, message) => (c, some ⟨requestId, code, message⟩)
    | .ok remote =>
      let c := c.barrier sender
      let cause : Cause := { sender, requestId, hubId := none, call := some call }
      match requestId with
      | some clientId =>
        let routed := c.routes.route
          { sender, requestId := clientId, localWord := target.localWord, call }
        match c.clientTx.send
          { msg := msg.rewrite remote (some routed.2)
            cause := { cause with hubId := some routed.2 } } with
        | some clientTx => ({ c with routes := routed.1, clientTx }, none)
        | none =>
          -- refused here, so the link's end must not answer it again
          ({ c with routes := (routed.1.take routed.2).1 },
            some ⟨requestId, .internalError, "the peer's link closed"⟩)
      | none =>
        match c.clientTx.send { msg := msg.rewrite remote none, cause } with
        | some clientTx => ({ c with clientTx }, none)
        | none => (c, some ⟨requestId, .internalError, "the peer's link closed"⟩)

theorem forward_relayed (c : PeerConnection) (call : ℕ) (sender : Requester)
    (msg : ClientMessage) (target : Target) (requestId : Option RequestId) :
    (c.forward call sender msg target requestId).1.relayed = c.relayed := by
  rw [forward.eq_def]
  split
  · rfl
  · split
    · rfl
    · dsimp only
      split <;> split <;> exact barrier_relayed c sender

/-- Ask the peer for a lock on behalf of a client. -/
def askForLock (c : PeerConnection) (call : ℕ) (sender : Requester) (pane : PaneId) :
    PeerConnection × Option Refusal :=
  match c.toRemotePane pane with
  | some remote => (c.send sender (.requestInputLock remote) (some call), none)
  | none => (c, some ⟨none, (Target.pane pane).missing.1, (Target.pane pane).missing.2⟩)

/-- The part of `request_input_lock` under the connection's lock: denied here when another client
holds the hub's lock, else asked of the peer. -/
def requestInputLock (c : PeerConnection) (call : ℕ) (sender : Requester) (pane : PaneId) :
    PeerConnection × Option Refusal :=
  match c.holder pane with
  | some holder =>
    if some holder ≠ sender.clientId then
      (c.tell sender (.inputLockDenied pane holder) (some call), none)
    else c.askForLock call sender pane
  | none => c.askForLock call sender pane

theorem requestInputLock_relayed (c : PeerConnection) (call : ℕ) (sender : Requester)
    (pane : PaneId) : (c.requestInputLock call sender pane).1.relayed = c.relayed := by
  have hask : (c.askForLock call sender pane).1.relayed = c.relayed := by
    rw [askForLock]
    split
    · exact send_relayed c sender _ _
    · rfl
  rw [requestInputLock]
  split
  · split
    · rfl
    · exact hask
  · exact hask

/-- The part of `release_input_lock` under the connection's lock: passed on for the holder only. -/
def releaseInputLock (c : PeerConnection) (sender : Requester) (pane : PaneId) :
    PeerConnection × Option Refusal :=
  if (c.inputLocks.lookup pane).any fun holder ↦ decide (holder.clientId = sender.clientId) then
    match c.toRemotePane pane with
    | some remote => (c.send sender (.releaseInputLock remote) none, none)
    | none => (c, some ⟨none, (Target.pane pane).missing.1, (Target.pane pane).missing.2⟩)
  else (c, none)

/-! ## Frames of the peer -/

/-- Ask the peer for its session list. -/
def requestSessionList (c : PeerConnection) : PeerConnection :=
  let next := c.routes.takeId
  { c with routes := next.1 }.send .hub (.sessionList next.2) none

/-- Bring the sessions in line with the peer's list: those it no longer lists are forgotten, those
it still lists keep their words, and new ones get the words drawn for them. -/
def reconcileSessions (c : PeerConnection) (peer : PeerId) (listed : List SessionEntry)
    (drawn : List WordId) : PeerConnection :=
  let gone := c.localToRemote.keys.filter fun word ↦
    (c.localToRemote.lookup word).any fun remote ↦ listed.all fun e ↦ decide (e.wordId ≠ remote)
  (listed.foldl step (gone.foldl unregisterSession c, drawn)).1
where
  step : PeerConnection × List WordId → SessionEntry → PeerConnection × List WordId
    | (c, words), entry =>
      match c.remoteToLocal.lookup entry.wordId, words with
      | some word, _ =>
        ({ c with sessions := c.sessions.insert word (localizeEntry entry word peer) }, words)
      -- the pool is empty: the session is not listed
      | none, [] => (c, [])
      | none, word :: words => (c.registerSession word entry.wordId entry peer, words)

/-- Register a session that the peer created for a forwarded request, under the word drawn for it
unless a list has registered it already. -/
def registerCreated (c : PeerConnection) (peer : PeerId) (entry : SessionEntry)
    (drawn : Option WordId) : PeerConnection × Option SessionEntry :=
  match (c.remoteToLocal.lookup entry.wordId).bind fun word ↦ c.sessions.lookup word with
  | some registered => (c, some registered)
  | none =>
    match drawn with
    | none => (c, none)
    | some word =>
      let c := c.registerSession word entry.wordId entry peer
      (c, c.sessions.lookup word)

/-- What the world outside the connection answers while a frame is handled. -/
structure Outside where
  peer : PeerId
  /-- The peer has not been closed. -/
  isOpen : Bool
  /-- The words the pool hands out. -/
  drawn : List WordId
  /-- The call that the frame answers, for the log. -/
  call : Option ℕ
  deriving DecidableEq, Repr

/-- A session that the peer closed is closed here. The word leads to this connection only while the
peer is open. -/
def remoteSessionClosed (c : PeerConnection) (isOpen : Bool) (remoteWord : WordId) :
    PeerConnection :=
  match c.remoteToLocal.lookup remoteWord with
  | some word => if isOpen then c.unregisterSession word else c
  | none => c

/-- What a route's request is answered, before the id is put back. -/
def routedReply (c : PeerConnection) (outside : Outside) (route : Route) :
    ServerMessage → PeerConnection × ServerMessage
  | .sessionCreated requestId entry =>
    let registered :=
      if outside.isOpen then c.registerCreated outside.peer entry outside.drawn.head?
      else (c, none)
    match registered with
    | (c, some entry) => (c, .sessionCreated requestId entry)
    | (c, none) => (c, .error none .sessionLimitReached
        "the peer created the session, but this hub has no word left for it")
  | msg =>
    match route.localWord with
    | some word => (c, msg.localizeReply word)
    | none => (c, msg)

/-- A `SessionClosed` closes the session here too, once its sender has the answer. -/
def afterReply (c : PeerConnection) (outside : Outside) : ServerMessage → PeerConnection
  | .sessionClosed _ word => c.remoteSessionClosed outside.isOpen word
  | _ => c

/-- Answer the forwarded request that `msg` answers, if one is waiting; `none` when there is
none. -/
def answerRouted (c : PeerConnection) (outside : Outside) (msg : ServerMessage) :
    Option PeerConnection := do
  let id ← msg.replyRequestId
  let route ← (c.routes.take id).2
  let c := { c with routes := (c.routes.take id).1 }
  let reply := c.routedReply outside route msg
  let c := reply.1.relay route.sender (reply.2.setReplyRequestId route.requestId) outside.call
  some (c.afterReply outside msg)

/-- Answer the sender of the oldest run, when `msg` is one of the answers that carry no id. -/
def answerUnrequested (c : PeerConnection) (outside : Outside) (msg : ServerMessage) :
    Option PeerConnection :=
  if msg.unrequested then
    match c.routes.front with
    -- no request is waiting
    | none => some c
    | some sender =>
      let msg := match msg.replyWord.bind fun word ↦ c.remoteToLocal.lookup word with
        | some word => msg.localizeReply word
        | none => msg
      let reply := c.onLockReply sender msg
      some (reply.1.relay sender reply.2 outside.call)
  else none

/-- Route one frame of the peer. -/
def onUpstream (c : PeerConnection) (outside : Outside) : ServerMessage → PeerConnection
  | .pong seq => { c with routes := c.routes.ponged seq }
  | .sessionListResult _ sessions =>
    if outside.isOpen then c.reconcileSessions outside.peer sessions outside.drawn else c
  | msg => ((c.answerRouted outside msg).or (c.answerUnrequested outside msg)).getD c

/-! ## The end of a link -/

/-- Answer every request still waiting with an `Error`, and tell every holder that its lock is
gone. -/
def failInFlight (c : PeerConnection) : PeerConnection :=
  let drained := c.routes.drain
  let c := drained.2.foldl
    (fun c route ↦ c.tell route.sender (.error (some route.requestId) .internalError
      "the peer became unreachable before it answered") (some route.call))
    { c with routes := drained.1 }
  let c := c.inputLocks.entries.foldl
    (fun c e ↦ c.tell e.2 (.inputLockReleased e.1) none) c
  { c with inputLocks := ∅ }

/-- The link is down: nothing can be sent, and everything in flight fails. -/
def linkDown (c : PeerConnection) : PeerConnection :=
  { c with dead := true, clientTx := { queue := [], closed := true } }.failInFlight

/-- A new link in the dead one's place: the sessions are reconciled and the panes attached. -/
def relink (c : PeerConnection) (peer : PeerId) (listed : List SessionEntry)
    (drawn : List WordId) : PeerConnection :=
  { c with
    dead := false, clientTx := { queue := [], closed := false }, routes := Routes.default }
    |>.reconcileSessions peer listed drawn
    |>.reattachPanes

private theorem foldl_tell {α : Type*} (f : α → Requester × ServerMessage × Option ℕ)
    (l : List α) (c : PeerConnection) :
    l.foldl (fun c a ↦ c.tell (f a).1 (f a).2.1 (f a).2.2) c =
      { c with told := c.told ++ l.flatMap fun a ↦ (f a).1.answer (f a).2.1 (f a).2.2 } := by
  induction l generalizing c with
  | nil => rw [List.foldl_nil, List.flatMap_nil, List.append_nil]
  | cons a l ih =>
    rw [List.foldl_cons, ih, List.flatMap_cons, ← List.append_assoc]
    rfl

theorem failInFlight_eq (c : PeerConnection) : c.failInFlight =
    { c with
      routes := c.routes.drain.1
      inputLocks := ∅
      told := c.told ++
        (c.routes.routes.values.flatMap fun route ↦ route.sender.answer
          (.error (some route.requestId) .internalError
            "the peer became unreachable before it answered") (some route.call)) ++
        c.inputLocks.entries.flatMap fun e ↦ e.2.answer (.inputLockReleased e.1) none } := by
  rw [failInFlight]
  have hroutes := foldl_tell (fun route : Route ↦ (route.sender,
    ServerMessage.error (some route.requestId) .internalError
      "the peer became unreachable before it answered", some route.call))
    c.routes.drain.2 { c with routes := c.routes.drain.1 }
  dsimp only at hroutes ⊢
  rw [hroutes]
  have hlocks := fun c' : PeerConnection ↦ foldl_tell (fun e : (_ : PaneId) × Requester ↦
    (e.2, ServerMessage.inputLockReleased e.1, none)) c.inputLocks.entries c'
  dsimp only at hlocks ⊢
  rw [hlocks]
  rfl

end PeerConnection

end Federation

end Kmux
