import Kmux.Federation.PeerManager

/-!
# Whose names a hub says

The words of a peer and those of the hub come from one list, so a word of the peer's that reaches a
client unchanged may name a session that has nothing to do with it. A frame of the peer is put in
the hub's words in one of several ways, by what it is, and each has a fallback of its own for a word
that is not mapped. Here every name in what the clients are sent is held against the names in the
frame: a `Name` is a session's word, with the index of a pane when it names one. What is put in an
error's text is no name.

An answer that carries an id is put in the word its request was sent under, which may have been
released since; one that carries none keeps the peer's word when that is not mapped; and the task
that feeds a link goes on for a moment after the words of the peer have been released. Everything
else is dropped when its word is not mapped.

`Hub` is one connection and the pool its words are drawn from. The rest of the connection, its
routes, panes and locks, is whatever the clients have made of it (`traffic`).
-/

namespace Kmux

namespace Federation

/-! ## Names -/

/-- A session, or one of its panes. -/
structure Name where
  word : WordId
  index : Option ℕ
  deriving DecidableEq, Repr

/-- A session's name. -/
def Name.ofWord (word : WordId) : Name := ⟨word, none⟩

/-- A pane's. -/
def Name.ofPane (pane : PaneId) : Name := ⟨pane.1, some pane.2⟩

/-- The name with another word. -/
def Name.under (word : WordId) (n : Name) : Name := { n with word }

def SessionEntry.names (entry : SessionEntry) : List Name :=
  .ofWord entry.wordId :: entry.panes.map fun p ↦ .ofPane p.paneId

namespace ServerMessage

def names : ServerMessage → List Name
  | sessionCreated _ entry => entry.names
  | sessionListResult _ sessions => sessions.flatMap SessionEntry.names
  | sessionClosed _ word | tabCreated _ word | tabClosed _ word | clientListResult _ word
  | clientKicked _ word | sessionRenamed word => [.ofWord word]
  | paneCreated _ pane word => [.ofPane pane, .ofWord word]
  | paneSplit _ word newPane => [.ofWord word, .ofPane newPane]
  | paneClosed _ pane | historyLines _ pane | inputLockGranted pane | inputLockDenied pane _
  | inputLockReleased pane => [.ofPane pane]
  | notifyAccepted _ | error .. | pong _ => []

/-- Whether the message lists sessions. -/
def lists : ServerMessage → Bool
  | sessionCreated .. | sessionListResult .. => true
  | _ => false

/-- An answer in the requester's word, if there is one. -/
def under (word : Option WordId) (msg : ServerMessage) : ServerMessage :=
  match word with
  | some word => msg.localizeReply word
  | none => msg

@[simp] theorem names_setReplyRequestId (id : RequestId) (msg : ServerMessage) :
    (msg.setReplyRequestId id).names = msg.names := by cases msg <;> rfl

theorem names_localizeReply {msg : ServerMessage} (h : msg.lists = false) (word : WordId) :
    (msg.localizeReply word).names = msg.names.map (Name.under word) := by
  cases msg with
  | sessionCreated | sessionListResult => cases h
  | _ => rfl

theorem names_under {msg : ServerMessage} (h : msg.lists = false) (word : Option WordId) :
    (msg.under word).names = msg.names.map fun n ↦ n.under (word.getD n.word) := by
  rcases word with _ | word
  · exact (List.map_id' msg.names).symm
  · exact names_localizeReply h word

/-- An answer names its session once, and one pane of it at most. -/
theorem names_inj {msg : ServerMessage} (h : msg.lists = false) {n n' : Name}
    (hn : n ∈ msg.names) (hn' : n' ∈ msg.names) (hindex : n.index = n'.index) : n = n' := by
  have hone : ∀ a b : Name, n ∈ [a, b] → n' ∈ [a, b] → a.index ≠ b.index → n = n' := by
    intro a b hn hn' hne
    rw [List.mem_pair] at hn hn'
    rcases hn with rfl | rfl <;> rcases hn' with rfl | rfl
    · rfl
    · exact absurd hindex hne
    · exact absurd hindex.symm hne
    · rfl
  cases msg with
  | sessionCreated | sessionListResult => cases h
  | notifyAccepted | error | pong => cases hn
  | paneCreated _ pane word => exact hone _ _ hn hn' (Option.some_ne_none _)
  | paneSplit _ word newPane => exact hone _ _ hn hn' (Option.some_ne_none _).symm
  | _ => exact (List.mem_singleton.mp hn).trans (List.mem_singleton.mp hn').symm

/-- The word of an answer without an id is the one it is looked up by. -/
theorem replyWord_of_mem_names {msg : ServerMessage} (h : msg.unrequested = true) {n : Name}
    (hn : n ∈ msg.names) : msg.replyWord = some n.word := by
  cases msg with
  | error => cases hn
  | sessionRenamed | inputLockGranted | inputLockDenied | inputLockReleased =>
    rw [List.mem_singleton.mp hn]
    rfl
  | _ => cases h

end ServerMessage

/-- The names in what a hub sends up the link. -/
def ClientMessage.names : ClientMessage → List Name
  | sessionRequest _ _ word | sessionNudge _ word => [.ofWord word]
  | paneRequest _ _ pane | paneInput _ pane | attach pane _ | detach pane | resize pane _
  | requestInputLock pane | releaseInputLock pane => [.ofPane pane]
  | sessionCreate .. | sessionList _ | ping _ => []

/-! ## Frames -/

/-- The frames of a pane's stream. -/
inductive StreamKind
  | terminalUpdate | terminalSnapshot | cursorUpdate | scrollbackAppend | gridDigest | syncReset
  | lagged
  deriving DecidableEq, Repr

/-- The events about a pane. -/
inductive PaneEvent
  | paneSpawned | paneExited | paneResized | paneTitleChanged | paneBell | paneProgressChanged
  | paneClipboardCopy | paneClosed | paneFaulted | paneAttention
  deriving DecidableEq, Repr

/-- The events about a session. -/
inductive SessionEvent
  | sessionCreated | sessionClosed | sessionRenamed | tabCreated | tabClosed | tabRenamed
  | tabsReordered
  deriving DecidableEq, Repr

inductive SessionEventMsg
  | pane (kind : PaneEvent) (pane : PaneId)
  | session (kind : SessionEvent) (word : WordId)
  /-- An event of a newer peer. -/
  | unknown
  deriving DecidableEq, Repr

/-- The process tree of a pane, by its pids. -/
structure PaneProcesses where
  paneId : PaneId
  processes : List ℕ
  deriving DecidableEq, Repr

/-- What a peer sends, and what a client is sent. -/
inductive Frame
  | reply (msg : ServerMessage)
  | stream (kind : StreamKind) (pane : PaneId)
  | event (event : SessionEventMsg)
  | layoutUpdate (word : WordId) (tabIndex : ℕ)
  | processOverviewResult (requestId : RequestId) (panes : List PaneProcesses)
  /-- Every other message. The hub has no use for them. -/
  | other
  deriving DecidableEq, Repr

def SessionEventMsg.names : SessionEventMsg → List Name
  | pane _ id => [.ofPane id]
  | session _ word => [.ofWord word]
  | unknown => []

def Frame.names : Frame → List Name
  | reply msg => msg.names
  | stream _ pane => [.ofPane pane]
  | event e => e.names
  | layoutUpdate word _ => [.ofWord word]
  | processOverviewResult _ panes => panes.map fun p ↦ .ofPane p.paneId
  | other => []

/-- The broadcast that a session is closed. -/
def Frame.closure (word : WordId) : Frame := .event (.session .sessionClosed word)

/-! ## The property -/

section Localises

variable (named : WordId → WordId → Prop)

/-- A name in the hub's word for it, with the same index. -/
def Name.Localises (remote n : Name) : Prop := named remote.word n.word ∧ n.index = remote.index

/-- A listing in the hub's word for the session, each pane under the index it is listed with. -/
def SessionEntry.Localises (remote entry : SessionEntry) : Prop :=
  named remote.wordId entry.wordId ∧
    ∀ p ∈ entry.panes, p.paneId = (entry.wordId, p.paneIndex)

/-- A process tree, under the hub's name for its pane. -/
def PaneProcesses.Localises (remote p : PaneProcesses) : Prop :=
  p.processes = remote.processes ∧
    (Name.ofPane remote.paneId).Localises named (Name.ofPane p.paneId)

end Localises

/-- What a client is sent, held against the frame it comes of. `before` and `after` are the hub's
words for the peer's sessions. What lists sessions goes by the words after the frame, which may be
new, and all else by those before it. A list also closes the sessions that are not on it. -/
def Frame.Localises (before after : WordId → WordId → Prop) (frame sent : Frame) : Prop :=
  match frame, sent with
  | .reply (.sessionListResult _ listed), .event (.session .sessionClosed word) =>
    ∃ remote, before remote word ∧ ∀ e ∈ listed, e.wordId ≠ remote
  | .reply (.sessionListResult _ listed), .reply (.sessionListResult _ sessions) =>
    ∀ e' ∈ sessions, ∃ e ∈ listed, e.Localises after e'
  | .reply (.sessionCreated _ e), .reply (.sessionCreated _ e') => e.Localises after e'
  | .processOverviewResult _ panes, .processOverviewResult _ panes' =>
    ∀ p' ∈ panes', ∃ p ∈ panes, p.Localises before p'
  | frame, sent => ∀ n ∈ sent.names, ∃ remote ∈ frame.names, remote.Localises before n

/-! ## A hub and one connection -/

/-- What the data lane of a viewer does with a frame. -/
inductive Lane
  | takes
  /-- The viewer's output is paused. -/
  | paused
  /-- The viewer takes snapshots only. -/
  | snapshots
  | full
  | closed
  deriving DecidableEq, Repr

/-- What a viewer is sent of a frame of its pane: the frame, a snapshot minted off the mirror, or
the notice that it lagged. -/
def Lane.shown (kind : StreamKind) (pane : PaneId) : Lane → Option Frame
  | takes => some (.stream kind pane)
  | snapshots => some (.stream .terminalSnapshot pane)
  | full => some (.stream .lagged pane)
  | paused | closed => none

/-- And of a digest, which nobody is lagged for. -/
def Lane.digest (pane : PaneId) : Lane → Option Frame
  | takes => some (.stream .gridDigest pane)
  | paused | snapshots | full | closed => none

/-- Whether a viewer is dropped by it. -/
def Lane.drops : Lane → Bool
  | full | closed => true
  | takes | paused | snapshots => false

/-- What the frame meets. -/
structure Around where
  /-- The words that the pool hands out first. -/
  order : List WordId
  lanes : ClientId → Lane
  /-- The mirror agrees with the digest. -/
  agrees : Bool

namespace PeerConnection

/-- A pane of the peer, in the hub's word. -/
def toLocalPane (c : PeerConnection) (pane : PaneId) : Option PaneId :=
  (c.remoteToLocal.lookup pane.1).map fun word ↦ (word, pane.2)

/-- Fan a frame out to the viewers of a pane. -/
def fanOut (c : PeerConnection) (lanes : ClientId → Lane) (kind : StreamKind) (pane : PaneId)
    (p : ProxiedPane) : PeerConnection × List Frame :=
  ((p.viewers.keys.filter fun client ↦ (lanes client).drops).foldl
      (fun c client ↦ c.dropViewer pane client) c,
    p.viewers.keys.filterMap fun client ↦ (lanes client).shown kind pane)

/-- A frame of a pane's stream. The peer's digest is checked, and its `Lagged` is the hub's own. -/
def onPaneFrame (c : PeerConnection) (around : Around) (kind : StreamKind) (pane : PaneId) :
    PeerConnection × List Frame :=
  match c.toLocalPane pane with
  | none => (c, [])
  | some localPane =>
    match c.panes.lookup localPane with
    | none => (c, [])
    | some p =>
      match kind with
      | .gridDigest =>
        if around.agrees then
          (c, p.viewers.keys.filterMap fun client ↦ (around.lanes client).digest localPane)
        else (c.resync localPane, [])
      | .lagged => (c.resync localPane, [])
      | kind => c.fanOut around.lanes kind localPane p

/-- The event in the hub's words; none for a session it does not proxy. -/
def rewriteEventToLocal (c : PeerConnection) : SessionEventMsg → Option SessionEventMsg
  | .pane kind pane => (c.toLocalPane pane).map (.pane kind)
  | .session kind word => (c.remoteToLocal.lookup word).map (.session kind)
  | .unknown => none

/-- The process trees of the panes that the hub proxies. -/
def localizeProcesses (c : PeerConnection) (panes : List PaneProcesses) : List PaneProcesses :=
  panes.filterMap fun p ↦ (c.toLocalPane p.paneId).map fun paneId ↦ { p with paneId }

/-- What `onUpstream` put on the control lanes of the clients. -/
def replies (c c' : PeerConnection) : List Frame :=
  (c'.relayed.drop c.relayed.length ++ c'.told.drop c.told.length).map fun d ↦ .reply d.msg

/-- The sessions that are not on the peer's list. -/
def gone (c : PeerConnection) (listed : List SessionEntry) : List WordId :=
  c.localToRemote.keys.filter fun word ↦
    (c.localToRemote.lookup word).any fun remote ↦ listed.all fun e ↦ decide (e.wordId ≠ remote)

/-- The route of the request that an answer with an id is for. -/
def routeOf (c : PeerConnection) (msg : ServerMessage) : Option Route :=
  msg.replyRequestId.bind fun id ↦ c.routes.routes.lookup id

end PeerConnection

/-- The events after which the hub asks for the peer's list. -/
def SessionEventMsg.refreshes : SessionEventMsg → Bool
  | session .sessionCreated _ | session .sessionRenamed _ | session .tabCreated _
  | session .tabClosed _ => true
  | _ => false

structure Hub where
  peer : PeerId
  conn : PeerConnection
  /-- The peer has not been closed. -/
  isOpen : Bool
  /-- The words that nobody has. -/
  pool : List WordId
  /-- Those of the hub's own sessions and of its other peers. -/
  held : List WordId
  /-- The ids of the process overviews being collected. -/
  pendingOverviews : List RequestId

namespace Hub

/-- A peer being opened. -/
def new (peer : PeerId) (pool : List WordId) : Hub where
  peer
  conn := PeerConnection.new
  isOpen := true
  pool
  held := []
  pendingOverviews := []

/-- The hub's word for a session of the peer, when the word is nobody else's. -/
def Names (s : Hub) (remote word : WordId) : Prop :=
  s.isOpen = true ∧ s.conn.localToRemote.lookup word = some remote ∧ word ∉ s.held

/-- The pool in the order it hands the words out. -/
def drawn (s : Hub) (order : List WordId) : List WordId :=
  (order.filter fun w ↦ decide (w ∈ s.pool)).dedup ++ s.pool.filter fun w ↦ decide (w ∉ order)

/-- The connection has come to have other words, from the pool or back to it. -/
def settle (s : Hub) (c : PeerConnection) : Hub :=
  { s with
    conn := c
    pool := (s.pool ++ s.conn.words.filter fun w ↦ decide (w ∉ c.words)).filter fun w ↦
      decide (w ∉ c.words ∨ w ∈ s.conn.words) }

def outside (s : Hub) (around : Around) : PeerConnection.Outside :=
  { peer := s.peer, isOpen := s.isOpen, drawn := s.drawn around.order, call := none }

/-- The peer's session is closed here, for every client. -/
def onRemoteSessionClosed (s : Hub) (remoteWord : WordId) : Hub × List Frame :=
  (s.settle (s.conn.remoteSessionClosed s.isOpen remoteWord),
    (s.conn.remoteToLocal.lookup remoteWord).toList.map .closure)

/-- What an answer or a list has broadcast, `c` being the connection after it. -/
def broadcasts (s : Hub) (c : PeerConnection) : ServerMessage → List Frame
  | .sessionClosed requestId word =>
    if (s.conn.routeOf (.sessionClosed requestId word)).isSome then
      (s.conn.remoteToLocal.lookup word).toList.map .closure
    else []
  | .sessionListResult _ listed =>
    if s.isOpen then
      (s.conn.gone listed).map .closure ++
        [.reply (.sessionListResult 0 (c.sessions.entries.map fun e ↦ e.2))]
    else []
  | _ => []

/-- Route one frame of the peer; the second component is what the clients are sent. -/
def receive (s : Hub) (around : Around) : Frame → Hub × List Frame
  | .reply msg =>
    let c := s.conn.onUpstream (s.outside around) msg
    (s.settle c, s.conn.replies c ++ s.broadcasts c msg)
  | .stream kind pane =>
    let fed := s.conn.onPaneFrame around kind pane
    ({ s with conn := fed.1 }, fed.2)
  | .event (.session .sessionClosed word) => s.onRemoteSessionClosed word
  | .event e =>
    ({ s with conn := if e.refreshes then s.conn.requestSessionList else s.conn },
      (s.conn.rewriteEventToLocal e).toList.map .event)
  | .layoutUpdate word tabIndex =>
    (s, (s.conn.remoteToLocal.lookup word).toList.map fun word ↦ .layoutUpdate word tabIndex)
  | .processOverviewResult requestId panes =>
    if requestId ∈ s.pendingOverviews then
      ({ s with pendingOverviews := s.pendingOverviews.erase requestId },
        [.processOverviewResult requestId (s.conn.localizeProcesses panes)])
    else (s, [])
  | .other => (s, [])

end Hub

inductive HubEvent
  /-- A session elsewhere takes a word, or gives it back. -/
  | draw (word : WordId)
  | release (word : WordId)
  /-- A session on the peer's first list. -/
  | register (entry : SessionEntry) (order : List WordId)
  /-- Whatever clients and link do to the connection that concerns no word. A link re-opened is
  that, and then the peer's list. -/
  | traffic (conn : PeerConnection) (pendingOverviews : List RequestId)
  | receive (around : Around) (frame : Frame)
  /-- The user closes the peer. Frames are still handled. -/
  | closePeer

def Hub.step (s : Hub) : HubEvent → Hub
  | .draw word =>
    if word ∈ s.pool then { s with pool := s.pool.erase word, held := word :: s.held } else s
  | .release word =>
    if word ∈ s.held then { s with pool := word :: s.pool, held := s.held.erase word } else s
  | .register entry order =>
    match s.isOpen, s.drawn order with
    | true, word :: _ => s.settle (s.conn.registerSession word entry.wordId entry s.peer)
    | _, _ => s
  | .traffic conn pendingOverviews =>
    { s with
      conn := { conn with
        remoteToLocal := s.conn.remoteToLocal
        localToRemote := s.conn.localToRemote
        sessions := s.conn.sessions }
      pendingOverviews }
  | .receive around frame => (s.receive around frame).1
  | .closePeer => if s.isOpen then { s with isOpen := false, pool := s.pool ++ s.conn.words } else s

/-! ## When a frame is put in the right words -/

/-- Whether a viewer is sent anything for a frame of its pane. -/
def Around.Watches (around : Around) (client : ClientId) : StreamKind → Prop
  | .lagged => False
  | .gridDigest => around.agrees = true ∧ around.lanes client = .takes
  | _ => around.lanes client ≠ .paused ∧ around.lanes client ≠ .closed

namespace PeerConnection

/-- The word that an answer without an id is passed on under. -/
def callWord (c : PeerConnection) (remote : WordId) : WordId :=
  (c.remoteToLocal.lookup remote).getD remote

/-- Whether any client is told of an answer without an id that is for `sender`. A refusal to the hub
itself is told to the holder of its lock. -/
def Heeds (c : PeerConnection) (sender : Requester) : ServerMessage → Prop
  | .inputLockDenied pane _ => sender ≠ .hub ∨ (c.holder (c.callWord pane.1, pane.2)).isSome
  | _ => sender ≠ .hub

/-- Whether a viewer of the pane is sent anything for a frame of it. -/
def Watched (c : PeerConnection) (around : Around) (kind : StreamKind) (pane : PaneId) : Prop :=
  ∃ localPane p, c.toLocalPane pane = some localPane ∧ c.panes.lookup localPane = some p ∧
    ∃ client ∈ p.viewers.keys, around.Watches client kind

end PeerConnection

namespace Hub

/-- The peer is open and its session is listed under the word. -/
def Current (s : Hub) (remote word : WordId) : Prop :=
  s.isOpen = true ∧ s.conn.localToRemote.lookup word = some remote

/-- The peer is open, or its session is not mapped. -/
def Settled (s : Hub) (remote : WordId) : Prop :=
  s.isOpen = true ∨ s.conn.remoteToLocal.lookup remote = none

/-- An answer that names a session is for a request whose word is still the session's, or it carries
no id and the session is mapped, or nobody is told of it. -/
def RecognisesReply (s : Hub) (msg : ServerMessage) : Prop :=
  match s.conn.routeOf msg with
  | some route =>
    (msg.lists = false → route.sender ≠ .hub →
      ∀ n ∈ msg.names, s.Current n.word (route.localWord.getD n.word)) ∧
    (msg.kind = .sessionClosed → ∀ n ∈ msg.names, s.Settled n.word)
  | none =>
    msg.unrequested = true → ∀ sender ∈ s.conn.routes.front, s.conn.Heeds sender msg →
      ∀ n ∈ msg.names, s.Current n.word (s.conn.callWord n.word)

/-- And any other frame comes while the peer is open, or is of no session that is mapped. -/
def Recognises (s : Hub) (around : Around) : Frame → Prop
  | .reply msg => s.RecognisesReply msg
  | .stream kind pane => s.conn.Watched around kind pane → s.isOpen = true
  | .event e => ∀ n ∈ e.names, s.Settled n.word
  | .layoutUpdate word _ => s.Settled word
  | .processOverviewResult requestId panes =>
    requestId ∈ s.pendingOverviews → ∀ p ∈ panes, s.Settled p.paneId.1
  | .other => True

/-- Everything the clients are sent of a frame is in the hub's words for what the frame names. -/
def KeepsNames (s : Hub) (around : Around) (frame : Frame) : Prop :=
  ∀ sent ∈ (s.receive around frame).2, frame.Localises s.Names (s.receive around frame).1.Names sent

end Hub

end Federation

end Kmux
