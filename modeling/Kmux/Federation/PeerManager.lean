import Kmux.Federation.Connection
import Kmux.Lib.Run

/-!
# The peers of a hub and their words

A hub lists the sessions of its peers under words of its own, which it draws from the pool that the
local sessions draw from too. Every connection ever made keeps its number here, since a frame may
still be handled for one that is not a peer any more: the task that feeds a link starts a moment
before the connection is published, and goes on for a moment after the peer is closed.

What changes the sessions of a published peer runs under the membership gate, and `gate` is what its
holder has still to do. Opening a peer and the local sessions do not take the gate, so their draws
come between any two of its steps. A step does in one go what nothing else can come between: the
maps of a connection and the word index with it. Releasing a word and announcing that its session
is closed are two steps.
-/

namespace Kmux

namespace Federation

/-- A map keyed by peers. -/
abbrev PeerMap (α : Type*) := AList fun _ : PeerId ↦ α

/-- What the holder of the membership gate has to do. -/
inductive Act
  /-- `unregister_session`, on behalf of a connection. -/
  | unregister (id : ℕ) (word : WordId)
  /-- Closing a peer: a word leaves the index and returns to the pool. -/
  | forget (id : ℕ) (word : WordId)
  /-- The broadcast of `SessionClosed`. -/
  | announce (id : ℕ) (word : WordId)
  /-- A session on the peer's list. -/
  | enter (id : ℕ) (peer : PeerId) (entry : SessionEntry)
  /-- A session that the peer created for a forwarded request. -/
  | create (id : ℕ) (peer : PeerId) (entry : SessionEntry)
  deriving DecidableEq, Repr

/-- A broadcast of `SessionClosed`: the word it names, the connection whose session it closes, and
whether no other session owned the word. -/
structure Closure where
  id : ℕ
  word : WordId
  clear : Bool
  deriving DecidableEq, Repr

structure PeerManager where
  pool : List WordId
  /-- The words of the local sessions. -/
  locals : List WordId
  conn : ℕ → PeerConnection
  /-- How many connections have been made. -/
  made : ℕ
  /-- Those that have not been published. -/
  opening : List (ℕ × PeerId)
  peers : PeerMap ℕ
  wordIndex : WordMap PeerId
  gate : List Act
  /-- The sessions listed so far, and what was broadcast of their ends. Nothing reads them. -/
  listed : List (ℕ × WordId)
  closed : List Closure

inductive PeerEvent
  /-- A local session is created, `choice` being what the pool's draw picks if it can. -/
  | localCreate (choice : WordId)
  | localClose (word : WordId)
  /-- `open_peer` has connected. -/
  | connect (peer : PeerId)
  /-- `open_peer` registers one session of the peer's first list. -/
  | register (id : ℕ) (entry : SessionEntry) (choice : WordId)
  | publish (id : ℕ)
  /-- The peer closed a session, by its event or by its answer. -/
  | remoteClosed (id : ℕ) (remoteWord : WordId)
  /-- The peer sent its list. -/
  | reconcile (id : ℕ) (peer : PeerId) (listed : List SessionEntry)
  /-- A link re-opened, with the peer's list. -/
  | relink (id : ℕ) (peer : PeerId) (listed : List SessionEntry)
  | created (id : ℕ) (peer : PeerId) (entry : SessionEntry)
  | closePeer (peer : PeerId)
  /-- The holder of the gate does what is next. -/
  | work (choice : WordId)
  deriving DecidableEq, Repr

/-- The local words of a connection. -/
def PeerConnection.words (c : PeerConnection) : List WordId := c.localToRemote.keys

namespace PeerManager

/-- Before a peer is opened. -/
def new (pool : List WordId) : PeerManager where
  pool
  locals := []
  conn := fun _ ↦ PeerConnection.new
  made := 0
  opening := []
  peers := ∅
  wordIndex := ∅
  gate := []
  listed := []
  closed := []

/-- A draw fails only on an empty pool. -/
def draw (s : PeerManager) (choice : WordId) : Option WordId :=
  if choice ∈ s.pool then some choice else s.pool.head?

def peerIds (s : PeerManager) : List ℕ := s.peers.entries.map fun e ↦ e.2

/-- The connections that hold words: those published and those on their way there. -/
def live (s : PeerManager) : List ℕ := s.opening.map Prod.fst ++ s.peerIds

def setConn (s : PeerManager) (id : ℕ) (c : PeerConnection) : PeerManager :=
  { s with conn := Function.update s.conn id c }

@[simp] theorem setConn_self (s : PeerManager) (id : ℕ) (c : PeerConnection) :
    (s.setConn id c).conn id = c := Function.update_self _ _ _

theorem setConn_ne (s : PeerManager) {id id' : ℕ} (h : id' ≠ id) (c : PeerConnection) :
    (s.setConn id c).conn id' = s.conn id' := Function.update_of_ne h _ _

/-- A connection that is not to be published: its words return to the pool. -/
def discard (s : PeerManager) (id : ℕ) : PeerManager :=
  { s with
    opening := s.opening.filter fun o ↦ decide (o.1 ≠ id), pool := s.pool ++ (s.conn id).words }

/-- `publish_peer`, for the winner. -/
def insertPeer (s : PeerManager) (id : ℕ) (peer : PeerId) : PeerManager :=
  { s with
    opening := s.opening.filter fun o ↦ decide (o.1 ≠ id)
    peers := s.peers.insert peer id
    wordIndex := (s.conn id).words.foldl (fun index word ↦ index.insert word peer) s.wordIndex
    listed := s.listed ++ (s.conn id).words.map (Prod.mk id) }

/-- What bringing the sessions in line with a list comes to. -/
def reconcileActs (c : PeerConnection) (id : ℕ) (peer : PeerId) (listed : List SessionEntry) :
    List Act :=
  (c.words.filter fun word ↦ (c.localToRemote.lookup word).any fun remote ↦
    listed.all fun e ↦ decide (e.wordId ≠ remote)).map (.unregister id) ++
    listed.map (.enter id peer)

def reconcile (s : PeerManager) (id : ℕ) (peer : PeerId) (listed : List SessionEntry) :
    PeerManager :=
  if s.gate = [] ∧ s.peers.lookup peer = some id then
    { s with gate := reconcileActs (s.conn id) id peer listed }
  else s

/-- `unregister_session`: the word leads to whoever the index says. -/
def unregister (s : PeerManager) (word : WordId) : PeerManager :=
  match (s.wordIndex.lookup word).bind fun peer ↦ s.peers.lookup peer with
  | some id =>
    { s.setConn id ((s.conn id).unregisterSession word) with
      wordIndex := s.wordIndex.erase word, pool := s.pool ++ [word] }
  | none => s

/-- A session of an open peer under the word drawn for it. -/
def list (s : PeerManager) (id : ℕ) (peer : PeerId) (word : WordId) (entry : SessionEntry) :
    PeerManager :=
  { s.setConn id ((s.conn id).registerSession word entry.wordId entry peer) with
    pool := s.pool.erase word
    wordIndex := s.wordIndex.insert word peer
    listed := s.listed ++ [(id, word)] }

/-- Whether some session owns a word. -/
def owned (s : PeerManager) (word : WordId) : Bool :=
  decide (word ∈ s.locals) || s.live.any fun id ↦ decide (word ∈ (s.conn id).words)

/-- One act of the gate's holder. -/
def act (s : PeerManager) (choice : WordId) : Act → PeerManager
  | .unregister id word => { s.unregister word with gate := .announce id word :: s.gate }
  | .forget id word =>
    { s with
      wordIndex := s.wordIndex.erase word, pool := s.pool ++ [word]
      gate := .announce id word :: s.gate }
  | .announce id word => { s with closed := s.closed ++ [⟨id, word, !s.owned word⟩] }
  | .enter id peer entry =>
    match (s.conn id).remoteToLocal.lookup entry.wordId with
    | some word =>
      s.setConn id { s.conn id with
        sessions := (s.conn id).sessions.insert word (localizeEntry entry word peer) }
    | none =>
      match s.draw choice with
      | some word => s.list id peer word entry
      | none => s
  | .create id peer entry =>
    match ((s.conn id).remoteToLocal.lookup entry.wordId).bind fun word ↦
        (s.conn id).sessions.lookup word with
    | some _ => s
    | none =>
      match s.draw choice with
      | some word => s.list id peer word entry
      | none => s

def step (s : PeerManager) : PeerEvent → PeerManager
  | .localCreate choice =>
    match s.draw choice with
    | some word => { s with pool := s.pool.erase word, locals := s.locals ++ [word] }
    | none => s
  | .localClose word =>
    if word ∈ s.locals then
      { s with locals := s.locals.erase word, pool := s.pool ++ [word] }
    else s
  | .connect peer =>
    -- an open peer is reused
    if (s.peers.lookup peer).isSome then s
    else
      { s.setConn s.made PeerConnection.new with
        made := s.made + 1, opening := s.opening ++ [(s.made, peer)] }
  | .register id entry choice =>
    match s.opening.find? fun o ↦ decide (o.1 = id) with
    | some (_, peer) =>
      match s.draw choice with
      | some word =>
        { s.setConn id ((s.conn id).registerSession word entry.wordId entry peer) with
          pool := s.pool.erase word }
      | none => s.discard id
    | none => s
  | .publish id =>
    match s.opening.find? fun o ↦ decide (o.1 = id) with
    | some (_, peer) => if (s.peers.lookup peer).isSome then s.discard id else s.insertPeer id peer
    | none => s
  | .remoteClosed id remoteWord =>
    match s.gate, (s.conn id).remoteToLocal.lookup remoteWord with
    | [], some word => { s with gate := [.unregister id word] }
    | _, _ => s
  | .reconcile id peer listed | .relink id peer listed => s.reconcile id peer listed
  | .created id peer entry =>
    if s.gate = [] ∧ s.peers.lookup peer = some id then { s with gate := [.create id peer entry] }
    else s
  | .closePeer peer =>
    match s.gate, s.peers.lookup peer with
    | [], some id =>
      { s with peers := s.peers.erase peer, gate := (s.conn id).words.map (.forget id) }
    | _, _ => s
  | .work choice =>
    match s.gate with
    | [] => s
    | a :: gate => { s with gate }.act choice a

end PeerManager

end Federation

end Kmux
