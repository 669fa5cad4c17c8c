import Kmux.Daemon.Clients

/-!
# Connections, channels and panes

The daemon's registry of connections, next to the panes its clients attach to. A connection outlives
the channel that made it: a client that reconnects presents the number of its registration and takes
it over on a new channel, with the old channel's loop possibly still alive. Both loops run the same
cleanup when they end, so a registration carries a generation, and only the loop that holds the
current one removes it.

Registering is not atomic. A resume is decided under the registry's lock; a registration that is
refused, or that asks for none, then draws its two numbers from atomic counters and takes the lock
again to insert. Cleaning up is two locked sections as well, first the attachments and then the
registration. `ChannelPhase` records how far a channel's loop has come, and each event of
`ServerEvent` is one such section, so a run is any interleaving of them.
-/

namespace Kmux

open TerminalBackend

/-! ## Registrations -/

abbrev ConnectionId := ℕ

/-- One run of the daemon. -/
abbrev DaemonInstanceId := ℕ

/-- A pane: its session's word and its index in the session. -/
abbrev PaneId := String × ℕ

inductive TransportKind
  | quic
  | tcp
  | tcpTls
  | uds
  deriving DecidableEq, Repr

/-- What a client asks to take over: a registration, and the run that assigned its number. A client
older than run numbers states none. -/
structure ResumeFrom where
  connectionId : ConnectionId
  instanceId : Option DaemonInstanceId
  deriving DecidableEq, Repr

/-- How a request to resume went. -/
inductive Resume
  | notRequested
  | resumed
  | unknownConnection
  | otherMachine
  | otherRun
  deriving DecidableEq, Repr

/-- The verified identity of a client. -/
structure ClientIdentity where
  machineId : String
  hostname : String
  username : String
  deriving DecidableEq, Repr

/-- A live registration. -/
structure ConnectionState where
  clientId : ClientId
  /-- Bumped by every resume. -/
  generation : ℕ
  transport : TransportKind
  machineId : String
  hostname : String
  username : String
  label : String
  deriving DecidableEq, Repr

/-- What a channel is given when it registers. -/
structure RegisteredClient where
  clientId : ClientId
  connectionId : ConnectionId
  generation : ℕ
  previousTransport : Option TransportKind
  label : String
  resume : Resume
  deriving DecidableEq, Repr

/-- The registry. -/
abbrev Connections := Table ConnectionState

/-- The name a client goes by, `unknown` for a part it did not report. -/
def labelBase (hostname username : String) : String :=
  let user := if username.isEmpty then "unknown" else username
  let host := if hostname.isEmpty then "unknown" else hostname
  user ++ "@" ++ host

/-- The base with a number. -/
def labelCandidate (base : String) (n : ℕ) : String := base ++ "#" ++ toString n

/-- Count up from `n` to a candidate that is not taken. -/
def searchLabel (existing : List String) (base : String) : (fuel n : ℕ) → String
  | 0, n => labelCandidate base n
  | fuel + 1, n =>
    if labelCandidate base n ∈ existing then searchLabel existing base fuel (n + 1)
    else labelCandidate base n

/-- A label no live connection uses. The loop of the source has no bound; it tries at most one
candidate for each label there is, and one more. -/
def assignLabel (hostname username : String) (conns : Connections) : String :=
  let base := labelBase hostname username
  let existing := conns.values.map fun c ↦ c.label
  if base ∉ existing then base else searchLabel existing base existing.length 2

/-- Take a live registration over for a new channel, if this machine made it. -/
def resumeConnection (conns : Connections) (connId : ConnectionId) (transport : TransportKind)
    (machineId : String) : Except Resume (Connections × RegisteredClient) :=
  match conns.lookup connId with
  | none => .error .unknownConnection
  | some state =>
    if state.machineId ≠ machineId then .error .otherMachine
    else
      let taken := { state with transport, generation := state.generation + 1 }
      .ok (conns.insert connId taken,
        { clientId := state.clientId
          connectionId := connId
          generation := taken.generation
          previousTransport := some state.transport
          label := state.label
          resume := .resumed })

/-- Remove a registration, if `generation` is its current one; whether it was. -/
def releaseConnection (conns : Connections) (connId : ConnectionId) (generation : ℕ) :
    Connections × Bool :=
  if (conns.lookup connId).any fun state ↦ decide (state.generation = generation) then
    (conns.erase connId, true)
  else (conns, false)

/-! ## Channels -/

/-- What a channel that registers afresh carries from one section of it to the next. -/
structure Registering where
  transport : TransportKind
  identity : ClientIdentity
  /-- Why it does not resume. -/
  resume : Resume
  deriving DecidableEq, Repr

/-- How far a channel's loop has come. -/
inductive ChannelPhase
  | unauthenticated
  /-- Not resumed, and no number drawn yet. -/
  | refused (registering : Registering)
  | hasClient (registering : Registering) (clientId : ClientId)
  | hasIds (registering : Registering) (clientId : ClientId) (connectionId : ConnectionId)
  /-- Registered: the loop serves requests. -/
  | live (reg : RegisteredClient)
  /-- Cleaning up: its attachments are gone, its registration is still to be looked at. -/
  | detached (reg : RegisteredClient)
  /-- Done, and whether it removed the registration. -/
  | ended (reg : RegisteredClient) (released : Bool)
  deriving DecidableEq, Repr

/-- The daemon, as far as connections and attachments go. -/
structure ServerApp (B : Type*) where
  instanceId : DaemonInstanceId
  nextClientId : ClientId
  nextConnectionId : ConnectionId
  connections : Connections
  panes : PaneId → Option (PaneRelay B)
  channels : ChannelId → ChannelPhase

/-- What can happen. An event of a channel whose loop is not where the event needs it does
nothing. -/
inductive ServerEvent (B : Type*)
  /-- `register_client`, up to the decision on the resume. -/
  | register (ch : ChannelId) (transport : TransportKind) (resumeFrom : Option ResumeFrom)
      (identity : ClientIdentity)
  | drawClientId (ch : ChannelId)
  | drawConnectionId (ch : ChannelId)
  | insertConnection (ch : ChannelId)
  /-- The first half of a channel's cleanup. -/
  | detachChannel (ch : ChannelId)
  /-- The second half. -/
  | releaseConnection (ch : ChannelId)
  | attach (ch : ChannelId) (pane : PaneId) (lastSeqno : Option SequenceNo) (size : TermSize)
      (capabilities : ClientCapabilities)
  | detachFromPane (ch : ChannelId) (pane : PaneId)
  | resize (ch : ChannelId) (pane : PaneId) (size : TermSize)
  | requestInputLock (ch : ChannelId) (pane : PaneId)
  | releaseInputLock (ch : ChannelId) (pane : PaneId)
  | setSnapshotMode (ch : ChannelId) (enabled : Bool)
  | setPaused (ch : ChannelId) (paused auto : Bool)
  | setPaneNoAutoPause (ch : ChannelId) (pane : PaneId) (exempt : Bool)
  /-- Kick a client that is attached to the pane `seen` of a session. -/
  | kickClientFromSession (word : String) (seen : ℕ) (target : ClientId)
  | output (pane : PaneId) (b : B)
  | broadcast (pane : PaneId) (message : ServerMessage) (seqno : SequenceNo)
      (answer : ClientId → TrySend)
  | openPane (pane : PaneId) (backend : B) (size : TermSize)
  /-- Closing a pane clears its clients first and removes it later. -/
  | clearPane (pane : PaneId)
  | removePane (pane : PaneId)

namespace ChannelPhase

/-- The client whose requests the loop serves. -/
def client? : ChannelPhase → Option ClientId
  | .live reg => some reg.clientId
  | _ => none

/-- The registration the channel was given. -/
def reg? : ChannelPhase → Option RegisteredClient
  | .live reg => some reg
  | .detached reg => some reg
  | .ended reg _ => some reg
  | _ => none

/-- The connection number drawn and not inserted yet. -/
def drawn? : ChannelPhase → Option ConnectionId
  | .hasIds _ _ connectionId => some connectionId
  | _ => none

end ChannelPhase

namespace ServerApp

variable {B : Type*}

/-- A daemon as it starts. -/
def new (instanceId : DaemonInstanceId) : ServerApp B :=
  { instanceId, nextClientId := 1, nextConnectionId := 1, connections := ∅
    panes := fun _ ↦ none, channels := fun _ ↦ .unauthenticated }

def setChannel (s : ServerApp B) (ch : ChannelId) (phase : ChannelPhase) : ServerApp B :=
  { s with channels := Function.update s.channels ch phase }

/-- The decision on a resume: the run first, then the registry. -/
def register (s : ServerApp B) (ch : ChannelId) (transport : TransportKind)
    (resumeFrom : Option ResumeFrom) (identity : ClientIdentity) : ServerApp B :=
  let refuse (resume : Resume) := s.setChannel ch (.refused { transport, identity, resume })
  match resumeFrom with
  | none => refuse .notRequested
  | some from' =>
    if from'.instanceId.any fun run ↦ decide (run ≠ s.instanceId) then refuse .otherRun
    else
      match resumeConnection s.connections from'.connectionId transport identity.machineId with
      | .ok (conns, reg) => { s.setChannel ch (.live reg) with connections := conns }
      | .error resume => refuse resume

/-- Insert a fresh registration. -/
def insertConnection (s : ServerApp B) (ch : ChannelId) (r : Registering) (clientId : ClientId)
    (connectionId : ConnectionId) : ServerApp B :=
  let label := assignLabel r.identity.hostname r.identity.username s.connections
  let state : ConnectionState :=
    { clientId, generation := 0, transport := r.transport, machineId := r.identity.machineId
      hostname := r.identity.hostname, username := r.identity.username, label }
  { s.setChannel ch (.live
      { clientId, connectionId, generation := 0, previousTransport := none, label
        resume := r.resume }) with
    connections := s.connections.insert connectionId state }

/-- What an event does to a pane. -/
def relayEvent (s : ServerApp B) (pane : PaneId) : ServerEvent B → Option (RelayEvent B)
  | .attach ch p lastSeqno size capabilities =>
      if p = pane then
        (s.channels ch).client?.map fun c ↦ .attach c lastSeqno size ch capabilities
      else none
  | .detachFromPane ch p =>
      if p = pane then (s.channels ch).client?.map .detachFromPane else none
  | .detachChannel ch => (s.channels ch).client?.map fun c ↦ .detachChannel c ch
  | .resize ch p size =>
      if p = pane then (s.channels ch).client?.map fun c ↦ .resize c size else none
  | .requestInputLock ch p =>
      if p = pane then (s.channels ch).client?.map .requestInputLock else none
  | .releaseInputLock ch p =>
      if p = pane then (s.channels ch).client?.map .releaseInputLock else none
  | .setSnapshotMode ch enabled =>
      (s.channels ch).client?.map fun c ↦ .setSnapshotMode c enabled
  | .setPaused ch paused auto => (s.channels ch).client?.map fun c ↦ .setPaused c paused auto
  | .setPaneNoAutoPause ch p exempt =>
      if p = pane then (s.channels ch).client?.map fun c ↦ .setPaneNoAutoPause c exempt else none
  | .kickClientFromSession word seen target =>
      if pane.1 = word ∧ ((s.panes (word, seen)).bind fun r ↦ r.clients.lookup target).isSome then
        some (.detachFromPane target)
      else none
  | .output p b => if p = pane then some (.output b) else none
  | .broadcast p message seqno answer =>
      if p = pane then some (.broadcast message seqno answer) else none
  | .clearPane p => if p = pane then some .clear else none
  | _ => none

variable [TerminalBackend B]

/-- What an event does to the registry, the channels, and the set of panes. -/
def stepRegistry (s : ServerApp B) : ServerEvent B → ServerApp B
  | .register ch transport resumeFrom identity =>
      match s.channels ch with
      | .unauthenticated => s.register ch transport resumeFrom identity
      | _ => s
  | .drawClientId ch =>
      match s.channels ch with
      | .refused r =>
        { s.setChannel ch (.hasClient r s.nextClientId) with nextClientId := s.nextClientId + 1 }
      | _ => s
  | .drawConnectionId ch =>
      match s.channels ch with
      | .hasClient r clientId =>
        { s.setChannel ch (.hasIds r clientId s.nextConnectionId) with
          nextConnectionId := s.nextConnectionId + 1 }
      | _ => s
  | .insertConnection ch =>
      match s.channels ch with
      | .hasIds r clientId connectionId => s.insertConnection ch r clientId connectionId
      | _ => s
  | .detachChannel ch =>
      match s.channels ch with
      | .live reg => s.setChannel ch (.detached reg)
      | _ => s
  | .releaseConnection ch =>
      match s.channels ch with
      | .detached reg =>
        let done := Kmux.releaseConnection s.connections reg.connectionId reg.generation
        { s.setChannel ch (.ended reg done.2) with connections := done.1 }
      | _ => s
  | .openPane p backend size =>
      match s.panes p with
      | none => { s with panes := Function.update s.panes p (some (PaneRelay.new backend size)) }
      | some _ => s
  | .removePane p => { s with panes := Function.update s.panes p none }
  | _ => s

/-- Every pane after an event. -/
def stepPanes (s : ServerApp B) (e : ServerEvent B) (p : PaneId) : Option (PaneRelay B) :=
  match s.relayEvent p e with
  | some e' => (s.panes p).map fun r ↦ r.step e'
  | none => s.panes p

/-- One event. What it does to a pane is decided in the state before it. -/
def step (s : ServerApp B) (e : ServerEvent B) : ServerApp B :=
  ({ s with panes := s.stepPanes e } : ServerApp B).stepRegistry e

/-- The daemon a list of events leads to. -/
def run (s : ServerApp B) (es : List (ServerEvent B)) : ServerApp B := Run.exec step s es

/-- The registry's side of an event opens panes and removes them, and touches none. -/
theorem panes_stepRegistry (s : ServerApp B) (e : ServerEvent B) (p : PaneId) :
    (s.stepRegistry e).panes p = s.panes p ∨
      (∃ backend size, e = .openPane p backend size ∧
        (s.stepRegistry e).panes p = some (PaneRelay.new backend size)) ∨
        (s.stepRegistry e).panes p = none := by
  cases e with
  | openPane q backend size =>
    rw [stepRegistry]
    split
    next =>
      by_cases hp : p = q
      · right; left
        subst hp
        exact ⟨backend, size, rfl, Function.update_self p _ _⟩
      · left
        exact Function.update_of_ne hp _ _
    next => exact .inl rfl
  | removePane q =>
    by_cases hp : p = q
    · right; right
      rw [hp]
      exact Function.update_self q _ _
    · left
      exact Function.update_of_ne hp _ _
  | register ch transport resumeFrom identity =>
    left
    rw [stepRegistry]
    split
    next =>
      cases resumeFrom with
      | none => rfl
      | some from' =>
        rw [register]
        split
        · rfl
        · split <;> rfl
    next => rfl
  | drawClientId ch | drawConnectionId ch | insertConnection ch | detachChannel ch
  | releaseConnection ch =>
    left
    rw [stepRegistry]
    split <;> rfl
  | _ => exact .inl rfl

/-- **Inversion for panes.** A pane after an event is new, or is the pane there was before it, moved
on by what the event does to it. -/
theorem panes_step {s : ServerApp B} {e : ServerEvent B} {p : PaneId} {r' : PaneRelay B}
    (h : (s.step e).panes p = some r') :
    (∃ backend size, e = .openPane p backend size ∧ r' = PaneRelay.new backend size) ∨
      ∃ r, s.panes p = some r ∧
        (r' = r ∧ s.relayEvent p e = none ∨ ∃ e', s.relayEvent p e = some e' ∧ r' = r.step e') := by
  rw [step] at h
  rcases panes_stepRegistry ({ s with panes := s.stepPanes e } : ServerApp B) e p with
    heq | ⟨backend, size, he, heq⟩ | heq
  · rw [heq] at h
    right
    simp only [stepPanes] at h
    cases he : s.relayEvent p e with
    | none =>
      rw [he] at h
      exact ⟨r', h, .inl ⟨rfl, rfl⟩⟩
    | some e' =>
      rw [he] at h
      obtain ⟨r, hr, rfl⟩ := Option.map_eq_some_iff.mp h
      exact ⟨r, hr, .inr ⟨e', rfl, rfl⟩⟩
  · rw [heq] at h
    exact .inl ⟨backend, size, he, (Option.some.inj h).symm⟩
  · rw [heq] at h
    cases h

end ServerApp

end Kmux
