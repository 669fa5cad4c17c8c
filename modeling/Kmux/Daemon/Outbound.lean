import Kmux.Daemon.Attach

/-!
# The outbound queue and the pane streams that feed it

Every connection has one bounded queue to its writer. Control goes through `send`; pane data goes
through `trySendData`, which leaves a quarter of the queue free for control and is refused when that
is all that is left. One task per attached pane, `forward_pane_stream`, moves the attach replay and
then the pane's channel onto the queue. A refusal makes the stream lag: it drops frames until the
queue is half empty, drains its channel, takes a fresh snapshot labelled with the counter it read
first, and sends `SyncReset` and the snapshot before it goes on, skipping what the label covers.

Each `await`, each lock and each access to the queue or to the channel is a step of its own. Other
producers and the writer move the queue between the two accesses of `trySendData`.
-/

namespace Kmux

/-! ## The queue -/

/-- The share of the queue pane data leaves to control. -/
def controlReserveDivisor : ℕ := 4

/-- Messages a connection may have queued. -/
def outboundCapacity : ℕ := 1024

/-- Messages a pane's channel to one client holds. -/
def clientChannelCapacity : ℕ := 512

/-- A connection's outbound queue. -/
structure Outbound where
  capacity : ℕ
  /-- Messages queued and not yet taken by the writer. -/
  queued : ℕ
  /-- The writer has stopped. -/
  closed : Bool
  deriving DecidableEq, Repr

/-- Why a message could not be put into a channel. -/
inductive TrySendError
  | full
  | closed
  deriving DecidableEq, Repr

/-- Why a pane-data message was not queued. -/
inductive DataRejected
  | congested
  | closed
  deriving DecidableEq, Repr

/-- What the rest of the connection does to the queue. -/
inductive OutboundEvent
  /-- Another producer queues a message. -/
  | queue
  /-- The writer takes one. -/
  | take
  /-- The writer stops. -/
  | stop
  deriving DecidableEq, Repr

namespace Outbound

def new (capacity : ℕ) : Outbound := { capacity, queued := 0, closed := false }

/-- Free slots. -/
def free (q : Outbound) : ℕ := q.capacity - q.queued

/-- Slots pane data leaves free. -/
def reserve (q : Outbound) : ℕ := q.capacity / controlReserveDivisor

/-- Free slots a lagged pane stream waits for before resyncing. -/
def resumeFree (q : Outbound) : ℕ := q.capacity / 2

def trySend (q : Outbound) : Except TrySendError Outbound :=
  if q.closed then .error .closed
  else if q.free = 0 then .error .full
  else .ok { q with queued := q.queued + 1 }

/-- Queue a control message. An overflow asks the connection to close; its writer stops later. -/
def send (q : Outbound) : Outbound × Bool :=
  match q.trySend with
  | .ok q' => (q', true)
  | .error _ => (q, false)

def step (q : Outbound) : OutboundEvent → Outbound
  | .queue => q.send.1
  | .take => { q with queued := q.queued - 1 }
  | .stop => { q with closed := true }

/-- Queue a pane-data message if that leaves the control reserve free. The reserve is checked first;
`meanwhile` is what happens to the queue before the message is put into it. -/
def trySendData (q : Outbound) (meanwhile : List OutboundEvent) : Outbound × Option DataRejected :=
  let q' := Run.exec step q meanwhile
  if q.free ≤ q.reserve then (q', some (if q'.closed then .closed else .congested))
  else
    match q'.trySend with
    | .ok q'' => (q'', none)
    | .error .full => (q', some .congested)
    | .error .closed => (q', some .closed)

/-- The queue has drained to half, or the writer has stopped. -/
def dataRoom (q : Outbound) : Bool := q.closed || decide (q.resumeFree ≤ q.free)

end Outbound

/-! ## One pane's stream -/

/-- The seqno of an incremental pane-data frame, which a resync snapshot taken at or after that
seqno supersedes. -/
def ServerMessage.incrementalSeqno : ServerMessage → Option SequenceNo
  | .terminalUpdate _ seqno => some seqno
  | .scrollbackAppend _ _ seqno => some seqno
  | .cursorUpdate _ _ seqno => some seqno
  | .gridDigest seqno _ => some seqno
  | _ => none

/-- Where a pane stream is; `dropped` counts the messages a lag has cost so far. -/
inductive StreamPc
  /-- Not started. -/
  | idle
  | live
  | lagged (dropped : ℕ)
  /-- There is room again: emptying the channel. -/
  | draining (dropped : ℕ)
  /-- The channel was found empty: about to ask for a snapshot. -/
  | resyncing (dropped : ℕ)
  /-- The counter has been read. -/
  | labelled (dropped : ℕ) (seqno : SequenceNo)
  /-- The snapshot has been taken. -/
  | snapped (dropped : ℕ) (snapshot : GridSnapshot) (seqno : SequenceNo)
  /-- `SyncReset` has been queued. -/
  | reset (dropped : ℕ) (snapshot : GridSnapshot) (seqno : SequenceNo)
  | ended
  deriving DecidableEq, Repr

/-- A pane stream, with the queue it feeds. -/
structure PaneStream where
  pc : StreamPc
  /-- What is left of the attach replay. -/
  replay : List ServerMessage
  /-- The receiving end of the pane's channel. -/
  clientRx : List ServerMessage
  coveredThrough : Option SequenceNo
  out : Outbound
  /-- Everything the stream has put on the queue. -/
  forwarded : List ServerMessage
  deriving DecidableEq, Repr

/-- The steps of a pane stream. -/
inductive StreamEvent
  /-- Live: take the next message and offer it. -/
  | next (meanwhile : List OutboundEvent)
  /-- Lagged: drop a message. -/
  | skip
  /-- Lagged: notice that there is room. -/
  | room
  /-- Resync: try to receive once more. -/
  | drain
  | readSeqno
  | snapshot
  /-- Resync: this daemon does not host the pane. -/
  | gone
  | sendReset (meanwhile : List OutboundEvent)
  | sendSnapshot (meanwhile : List OutboundEvent)
  /-- The task is aborted. -/
  | abort
  deriving DecidableEq, Repr

namespace PaneStream

def new (capacity : ℕ) : PaneStream :=
  { pc := .idle
    replay := []
    clientRx := []
    coveredThrough := none
    out := Outbound.new capacity
    forwarded := [] }

/-- Start streaming from an attach result. -/
def start (s : PaneStream) (result : AttachResult) : PaneStream :=
  { s with pc := .live, replay := buildAttachReplay result, coveredThrough := none }

/-- The next message: the replay first, then the channel. -/
def next? (s : PaneStream) : Option (ServerMessage × PaneStream) :=
  match s.replay, s.clientRx with
  | msg :: rest, _ => some (msg, { s with replay := rest })
  | [], msg :: rest => some (msg, { s with clientRx := rest })
  | [], [] => none

/-- The message is an incremental frame that the last resync covers. -/
def superseded (s : PaneStream) (msg : ServerMessage) : Bool :=
  match msg.incrementalSeqno, s.coveredThrough with
  | some seqno, some covered => decide (seqno ≤ covered)
  | _, _ => false

/-- Offer a message to the queue, and go on with `accepted` if it is taken. -/
def offer (s : PaneStream) (msg : ServerMessage) (meanwhile : List OutboundEvent) (dropped : ℕ)
    (accepted : PaneStream → PaneStream) : PaneStream :=
  match s.out.trySendData meanwhile with
  | (out, none) => accepted { s with out, forwarded := s.forwarded ++ [msg] }
  | (out, some .closed) => { s with out, pc := .ended }
  | (out, some .congested) => { s with out, pc := .lagged dropped }

/-- Forward a message that has been taken, unless it is superseded. -/
def pass (s : PaneStream) (msg : ServerMessage) (meanwhile : List OutboundEvent) : PaneStream :=
  if s.superseded msg then s else s.offer msg meanwhile 1 id

/-- A live stream forwards one message. `connected` says whether the sending end still exists. -/
def forward (s : PaneStream) (connected : Bool) (meanwhile : List OutboundEvent) : PaneStream :=
  match s.next? with
  | none => if connected then s else { s with pc := .ended }
  | some (msg, s') => s'.pass msg meanwhile

/-- Receive from the channel and drop what was received; `empty` is where an empty channel leads. -/
def discard (s : PaneStream) (connected : Bool) (received empty : StreamPc) : PaneStream :=
  match s.clientRx with
  | _ :: rest => { s with pc := received, clientRx := rest }
  | [] => if connected then { s with pc := empty } else { s with pc := .ended }

/-- Tell the client that it lagged, and stop. -/
def giveUp (s : PaneStream) (dropped : ℕ) : PaneStream :=
  { s with
    pc := .ended
    out := s.out.send.1
    forwarded := if s.out.send.2 then s.forwarded ++ [.lagged dropped] else s.forwarded }

/-- One step of the stream. An event that does not fit where it is does nothing. -/
def step {B : Type*} [TerminalBackend B] (s : PaneStream) (connected : Bool) (pane : Pane B) :
    StreamEvent → PaneStream
  | .next meanwhile =>
    match s.pc with
    | .live => s.forward connected meanwhile
    | _ => s
  | .skip =>
    match s.pc with
    | .lagged dropped => s.discard connected (.lagged (dropped + 1)) (.lagged dropped)
    | _ => s
  | .room =>
    match s.pc with
    -- the snapshot supersedes what is left of the replay
    | .lagged dropped => if s.out.dataRoom then { s with pc := .draining dropped, replay := [] }
      else s
    | _ => s
  | .drain =>
    match s.pc with
    | .draining dropped => s.discard connected (.draining (dropped + 1)) (.resyncing dropped)
    | _ => s
  | .readSeqno =>
    match s.pc with
    -- the seqno is read before the snapshot is taken
    | .resyncing dropped => { s with pc := .labelled dropped pane.currentSeqno }
    | _ => s
  | .snapshot =>
    match s.pc with
    | .labelled dropped seqno => { s with pc := .snapped dropped pane.engine.snapshot seqno }
    | _ => s
  | .gone =>
    match s.pc with
    | .resyncing dropped => s.giveUp dropped
    | _ => s
  | .sendReset meanwhile =>
    match s.pc with
    | .snapped dropped snapshot seqno =>
      s.offer .syncReset meanwhile dropped fun s ↦ { s with pc := .reset dropped snapshot seqno }
    | _ => s
  | .sendSnapshot meanwhile =>
    match s.pc with
    | .reset dropped snapshot seqno =>
      s.offer (.terminalSnapshot snapshot seqno) meanwhile dropped fun s ↦
        { s with pc := .live, coveredThrough := some seqno }
    | _ => s
  | .abort =>
    match s.pc with
    | .idle => s
    | _ => { s with pc := .ended }

/-! ## What the steps can do -/

/-- An offer is taken, finds the queue closed, or finds it congested. -/
theorem offer_cases (s : PaneStream) (msg : ServerMessage) (meanwhile : List OutboundEvent)
    (dropped : ℕ) (accepted : PaneStream → PaneStream) :
    ∃ out,
      s.offer msg meanwhile dropped accepted
          = accepted { s with out, forwarded := s.forwarded ++ [msg] } ∨
        s.offer msg meanwhile dropped accepted = { s with out, pc := .ended } ∨
        s.offer msg meanwhile dropped accepted = { s with out, pc := .lagged dropped } := by
  rw [offer]
  rcases s.out.trySendData meanwhile with ⟨out, _ | _ | _⟩
  · exact ⟨out, .inl rfl⟩
  · exact ⟨out, .inr (.inr rfl)⟩
  · exact ⟨out, .inr (.inl rfl)⟩

/-- A stream that has not started takes no step. -/
theorem step_of_idle {B : Type*} [TerminalBackend B] {s : PaneStream} (h : s.pc = .idle)
    (connected : Bool) (pane : Pane B) (e : StreamEvent) : s.step connected pane e = s := by
  cases e <;> simp only [step, h]

theorem discard_cons {s : PaneStream} {msg : ServerMessage} {rest : List ServerMessage}
    (h : s.clientRx = msg :: rest) (connected : Bool) (received empty : StreamPc) :
    s.discard connected received empty = { s with pc := received, clientRx := rest } := by
  rw [discard, h]

theorem discard_nil {s : PaneStream} (h : s.clientRx = []) (connected : Bool)
    (received empty : StreamPc) :
    s.discard connected received empty = { s with pc := if connected then empty else .ended } := by
  obtain ⟨pc, replay, clientRx, coveredThrough, out, forwarded⟩ := s
  obtain rfl : clientRx = [] := h
  cases connected <;> rfl

theorem forward_replay {s : PaneStream} {msg : ServerMessage} {rest : List ServerMessage}
    (h : s.replay = msg :: rest) (connected : Bool) (meanwhile : List OutboundEvent) :
    s.forward connected meanwhile = pass { s with replay := rest } msg meanwhile := by
  rw [forward, next?, h]

theorem forward_clientRx {s : PaneStream} {msg : ServerMessage} {rest : List ServerMessage}
    (hreplay : s.replay = []) (h : s.clientRx = msg :: rest) (connected : Bool)
    (meanwhile : List OutboundEvent) :
    s.forward connected meanwhile = pass { s with clientRx := rest } msg meanwhile := by
  rw [forward, next?, hreplay, h]

theorem forward_nil {s : PaneStream} (hreplay : s.replay = []) (h : s.clientRx = [])
    (connected : Bool) (meanwhile : List OutboundEvent) :
    s.forward connected meanwhile = { s with pc := if connected then s.pc else .ended } := by
  obtain ⟨pc, replay, clientRx, coveredThrough, out, forwarded⟩ := s
  obtain rfl : replay = [] := hreplay
  obtain rfl : clientRx = [] := h
  cases connected <;> rfl

/-- Only what a resync covers is superseded. -/
theorem superseded_iff {s : PaneStream} {msg : ServerMessage} :
    s.superseded msg = true ↔
      ∃ n c, msg.incrementalSeqno = some n ∧ s.coveredThrough = some c ∧ n ≤ c := by
  rw [superseded]
  cases hn : msg.incrementalSeqno with
  | none => exact ⟨nofun, fun ⟨_, _, h, _⟩ ↦ absurd h nofun⟩
  | some n =>
    cases hc : s.coveredThrough with
    | none => exact ⟨nofun, fun ⟨_, _, _, h, _⟩ ↦ absurd h nofun⟩
    | some c =>
      refine ⟨fun h ↦ ⟨n, c, rfl, rfl, of_decide_eq_true h⟩, ?_⟩
      rintro ⟨n', c', hn', hc', hle⟩
      rw [Option.some.inj hn', Option.some.inj hc']
      exact decide_eq_true hle

end PaneStream

end Kmux
