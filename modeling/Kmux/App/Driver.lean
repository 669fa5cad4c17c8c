import Kmux.App.Reconnect
import Kmux.Lib.Record

/-!
# The run-loop driver and its link

What the driver of a frontend does with its link to the daemon: it starts bootstraps, as tasks that
report through a channel of their own, polls the channel of the last one, notices that the live link
dropped, retries on a schedule, and holds what the user types meanwhile. The state is spread over
the schedule, the channel, the connection state of the session manager and the mode of the UI, each
changed by other handlers.

A tick of the pump is several of the events here at one time, in a fixed order (`tick`); between two
events the tasks and the daemon may do anything. Each event reports what happened, and `record`
lists the reports of a run.
-/

namespace Kmux

namespace Driver

/-! ## The state -/

inductive TransportKind
  | quic
  | tcp
  | tcpTls
  | uds
  deriving DecidableEq, Repr

inductive DisconnectReason
  | serverClosed
  | pingTimeout
  | sshTunnelDied
  | authFailed (reason : String)
  | bootstrapFailed (reason : String)
  | userInitiated
  | other (reason : String)
  deriving DecidableEq, Repr

/-- The connection state of the session manager. -/
inductive ConnectionState
  | idle
  | handshaking
  | connected (transport : TransportKind)
  | reconnecting (attempt : ℕ)
  | disconnected (reason : DisconnectReason)
  deriving DecidableEq, Repr

def ConnectionState.isLive : ConnectionState → Bool
  | .connected _ => true
  | _ => false

/-- The modes of the UI the link has to do with. -/
inductive Mode
  | connecting
  | disconnected
  | other
  deriving DecidableEq, Repr

abbrev DaemonInstanceId := ℕ

abbrev PeerId := String

structure BootstrapOutcome where
  transport : TransportKind
  /-- The daemon run that was reached, if it said. -/
  daemonInstance : Option DaemonInstanceId
  deriving DecidableEq, Repr

inductive BootstrapTaskResult
  | success (o : BootstrapOutcome)
  /-- In a way a retry may get past. -/
  | failed (reason : String)
  | refused (reason : String)
  deriving DecidableEq, Repr

inductive BootstrapPhase
  | initial
  | reconnect
  | resume (attempt : ℕ)
  deriving DecidableEq, Repr

/-- A bootstrap that runs. It is cancelled when the other end of its cancel channel is dropped, and
may be seen to run for a moment after that. -/
structure Task where
  id : ℕ
  cancelled : Bool
  deriving DecidableEq, Repr

/-- The receiving end of the outcome channel of a bootstrap. -/
structure OutcomeRx where
  id : ℕ
  sent : Option BootstrapTaskResult
  deriving DecidableEq, Repr

structure FrontendDriver (K : Type*) where
  reconnect : Reconnect
  outage : OutageInput K
  connectionState : ConnectionState
  currentTransport : TransportKind
  daemonInstance : Option DaemonInstanceId
  previousDaemonInstance : Option DaemonInstanceId
  mode : Mode
  desiredPeer : Option PeerId
  /-- The senders of the current server channel are gone. -/
  srvClosed : Bool
  bootstrapRx : Option OutcomeRx
  /-- The bootstrap that is cancelled when this is dropped. -/
  cancelTx : Option ℕ
  tasks : List Task
  nextTask : ℕ
  lastLiveness : Nanos
  lastExitError : Option String
  deriving DecidableEq, Repr

/-- The part of an event of the session manager that the link has to do with. -/
inductive SessionEvent
  | authOk
  | authFailed (reason : String)
  | peerOpened
  | peerError (peer : Option PeerId) (reason : String)
  deriving DecidableEq, Repr

inductive Event (K : Type*)
  /-- The daemon closes its end of the server channel. -/
  | srvClose
  /-- A bootstrap ends with a result. -/
  | finish (id : ℕ) (result : BootstrapTaskResult)
  /-- A bootstrap ends without one. -/
  | stop (id : ℕ)
  | drain (now : Nanos) (batch : List SessionEvent)
  | poll (now : Nanos)
  | tunnelDied (now : Nanos)
  | liveness (now : Nanos) (timedOut : Bool)
  | retry (now : Nanos)
  | reconnect (now : Nanos)
  | cancel
  | disconnect
  /-- The user goes to a mode the link has nothing to do with. -/
  | navigate
  | sendKeys (now : Nanos) (gate : Gate) (keys : List K)
  | feedPaste (now : Nanos) (gate : Gate) (text : String)
  deriving DecidableEq, Repr

/-- What happens in a step. -/
inductive Report (K : Type*)
  /-- A live link to this daemon run is found dead. -/
  | lost (run : Option DaemonInstanceId)
  /-- Input is handed to the outage. -/
  | typed (msg : ClientMessage K) (now : Nanos)
  /-- The outage is over: the run that was reached, what is delivered to it, and the count of the
  keystrokes that were dropped. -/
  | flushed (now : Nanos) (reached : Option DaemonInstanceId) (delivered : List (ClientMessage K))
      (dropped : ℕ)
  /-- Input is sent at once. -/
  | sent (msg : ClientMessage K)
  /-- An automatic attempt starts. -/
  | attempt (n : ℕ)
  /-- An automatic attempt fails. -/
  | failed
  | refused
  /-- The user asks for the link. -/
  | asked
  /-- The user disconnects. -/
  | disconnected
  deriving DecidableEq, Repr

variable {K : Type*}

namespace FrontendDriver

/-! ## Bootstraps -/

/-- Dropping the sender cancels the bootstrap it belongs to. -/
def dropCancelTx (d : FrontendDriver K) : FrontendDriver K :=
  { d with
    tasks := d.tasks.map fun t ↦ if d.cancelTx = some t.id then { t with cancelled := true } else t
    cancelTx := none }

/-- `AppCore::start_bootstrap`. -/
def startBootstrap (d : FrontendDriver K) (phase : BootstrapPhase) : FrontendDriver K :=
  let shown : FrontendDriver K :=
    match phase with
    | .resume attempt => { d with connectionState := .reconnecting attempt }
    | .initial | .reconnect => { d with connectionState := .handshaking, mode := .connecting }
  let dropped := shown.dropCancelTx
  { dropped with
    cancelTx := some d.nextTask
    tasks := dropped.tasks ++ [{ id := d.nextTask, cancelled := false }]
    nextTask := d.nextTask + 1 }

/-- Start a bootstrap with channels of its own. -/
def startBootstrapWith (d : FrontendDriver K) (phase : BootstrapPhase) : FrontendDriver K :=
  { d with
    srvClosed := false
    bootstrapRx := some { id := d.nextTask, sent := none } }.startBootstrap phase

/-- The sender of a bootstrap puts its result into the channel, if that is still the one polled. -/
def finish (d : FrontendDriver K) (id : ℕ) (result : BootstrapTaskResult) : FrontendDriver K :=
  if ∃ t ∈ d.tasks, t.id = id then
    { d with
      tasks := d.tasks.filter fun t ↦ t.id ≠ id
      bootstrapRx := d.bootstrapRx.map fun rx ↦
        if rx.id = id then { rx with sent := some result } else rx }
  else d

def stop (d : FrontendDriver K) (id : ℕ) : FrontendDriver K :=
  { d with tasks := d.tasks.filter fun t ↦ t.id ≠ id }

/-- What `try_recv` says: a result, or that there will be none, if either. -/
def tryRecv (d : FrontendDriver K) (rx : OutcomeRx) : Option (Except Unit BootstrapTaskResult) :=
  match rx.sent with
  | some result => some (.ok result)
  | none => if ∃ t ∈ d.tasks, t.id = rx.id then none else some (.error ())

/-! ## The link -/

/-- The app goes to its disconnected mode. -/
def enterDisconnected (d : FrontendDriver K) (reason : DisconnectReason) : FrontendDriver K :=
  { d with connectionState := .disconnected reason, mode := .disconnected }

/-- The live link dropped. -/
def linkLost (d : FrontendDriver K) (now : Nanos) : FrontendDriver K × List (Report K) :=
  ({ d with
      reconnect := d.reconnect.onLost now
      outage := d.outage.begin
      connectionState := .reconnecting 1 },
    [.lost d.daemonInstance])

def onAuthFailed (d : FrontendDriver K) (reason : String) : FrontendDriver K :=
  { d with connectionState := .disconnected (.authFailed reason), mode := .disconnected }

/-- The connecting overlay goes. -/
def leaveConnecting (d : FrontendDriver K) : FrontendDriver K :=
  if d.mode = .connecting then { d with mode := .other } else d

/-- The error of a peer is shown with the peer, but for the one the app was started with, while it
is still connecting, and for an error that names none. -/
def onPeerError (d : FrontendDriver K) (peer : Option PeerId) (reason : String) :
    FrontendDriver K :=
  match peer with
  | some p =>
    if d.mode = .connecting ∧ d.desiredPeer = some p then
      d.enterDisconnected (.bootstrapFailed reason)
    else d
  | none => d.enterDisconnected (.bootstrapFailed reason)

def handleSessionEvent (d : FrontendDriver K) : SessionEvent → FrontendDriver K
  | .authOk => d.leaveConnecting
  | .authFailed reason => d.onAuthFailed reason
  | .peerOpened => d.leaveConnecting
  | .peerError peer reason => d.onPeerError peer reason

/-- The messages of the daemon, and then whether it closed the channel. -/
def drainServerMessages (d : FrontendDriver K) (now : Nanos) (batch : List SessionEvent) :
    FrontendDriver K × List (Report K) :=
  if d.mode = .disconnected then (d, [])
  else
    let handled := batch.foldl handleSessionEvent d
    if handled.srvClosed && handled.connectionState.isLive then handled.linkLost now
    else (handled, [])

def drainTunnelDeaths (d : FrontendDriver K) (now : Nanos) : FrontendDriver K × List (Report K) :=
  if d.currentTransport = .tcpTls ∧ d.connectionState.isLive then d.linkLost now else (d, [])

def livenessTick : Nanos := secs 1

def tickLiveness (d : FrontendDriver K) (now : Nanos) (timedOut : Bool) :
    FrontendDriver K × List (Report K) :=
  if now - d.lastLiveness < livenessTick then (d, [])
  else
    let checked := { d with lastLiveness := now }
    if timedOut && d.connectionState.isLive then checked.linkLost now else (checked, [])

/-- Start the automatic attempt that is due. -/
def tickReconnect (d : FrontendDriver K) (now : Nanos) : FrontendDriver K × List (Report K) :=
  match d.reconnect.takeDue now with
  | (some attempt, reconnect) =>
    ({ d with reconnect }.startBootstrapWith (.resume attempt), [.attempt attempt])
  | (none, reconnect) => ({ d with reconnect }, [])

/-! ## Outcomes -/

def linkReachedSameDaemon (d : FrontendDriver K) : Bool :=
  d.daemonInstance.isSome && d.daemonInstance == d.previousDaemonInstance

/-- Stop retrying and settle the input held meanwhile. -/
def endOutage (d : FrontendDriver K) (now : Nanos) (deliver : Bool)
    (reached : Option DaemonInstanceId) : FrontendDriver K × List (Report K) :=
  let (delivered, outage) := d.outage.flush now deliver
  ({ d with reconnect := d.reconnect.onConnected, outage },
    [.flushed now reached delivered outage.dropped])

/-- What the session manager takes from an outcome. -/
def applyOutcome (d : FrontendDriver K) (o : BootstrapOutcome) : FrontendDriver K :=
  { d with
    currentTransport := o.transport
    connectionState := .connected o.transport
    previousDaemonInstance := d.daemonInstance
    daemonInstance := o.daemonInstance }

def reflectBootstrapOutcome (d : FrontendDriver K) : FrontendDriver K :=
  if d.mode = .connecting then
    if d.connectionState.isLive then { d with mode := .other } else { d with mode := .disconnected }
  else d

def onBootstrapSuccess (d : FrontendDriver K) (o : BootstrapOutcome) (now : Nanos) :
    FrontendDriver K × List (Report K) :=
  let up := ({ d with lastExitError := none }.applyOutcome o).reflectBootstrapOutcome
  up.endOutage now up.linkReachedSameDaemon up.daemonInstance

def onBootstrapFailure (d : FrontendDriver K) (reason : String) (now : Nanos) :
    FrontendDriver K × List (Report K) :=
  let (ended, reports) := d.endOutage now false none
  ({ ended with lastExitError := some reason }.enterDisconnected (.bootstrapFailed reason), reports)

def onBootstrapCancelled (d : FrontendDriver K) : FrontendDriver K :=
  if d.mode = .connecting then d.enterDisconnected (.bootstrapFailed "cancelled") else d

/-- The outcome of the bootstrap, if it has one yet. -/
def pollBootstrapOutcome (d : FrontendDriver K) (now : Nanos) :
    FrontendDriver K × List (Report K) :=
  match d.bootstrapRx.bind d.tryRecv with
  | none => (d, [])
  | some outcome =>
    let taken := { d.dropCancelTx with bootstrapRx := none }
    match outcome with
    | .ok (.success o) => taken.onBootstrapSuccess o now
    | .ok (.failed reason) =>
      if taken.reconnect.isActive then
        ({ taken with reconnect := taken.reconnect.onFailed now reason }, [.failed])
      else taken.onBootstrapFailure reason now
    | .ok (.refused reason) =>
      let (ended, reports) := taken.onBootstrapFailure reason now
      (ended, reports ++ [.refused])
    | .error () =>
      if taken.reconnect.isActive then
        ({ taken with reconnect := taken.reconnect.onFailed now "reconnect attempt cancelled" },
          [.failed])
      else (taken.onBootstrapCancelled, [])

/-! ## What the user does -/

/-- "Reconnect now". -/
def reconnectAt (d : FrontendDriver K) (now : Nanos) : FrontendDriver K :=
  if d.reconnect.isActive then { d with reconnect := d.reconnect.retryNow now }
  else d.startBootstrapWith .reconnect

def onDisconnect (d : FrontendDriver K) : FrontendDriver K :=
  { d with connectionState := .disconnected .userInitiated, mode := .other }

/-- Send input now, or hold it while the link is retried. -/
def deliverInput (d : FrontendDriver K) (built : Except Bool (ClientMessage K)) (now : Nanos) :
    FrontendDriver K × List (Report K) :=
  match built with
  | .error _ => (d, [])
  | .ok msg =>
    if d.reconnect.isActive then ({ d with outage := d.outage.push msg now }, [.typed msg now])
    else (d, [.sent msg])

/-! ## Runs -/

/-- The driver after an event, and what is reported of it. -/
def act (d : FrontendDriver K) : Event K → FrontendDriver K × List (Report K)
  | .srvClose => ({ d with srvClosed := true }, [])
  | .finish id result => (d.finish id result, [])
  | .stop id => (d.stop id, [])
  | .drain now batch => d.drainServerMessages now batch
  | .poll now => d.pollBootstrapOutcome now
  | .tunnelDied now => d.drainTunnelDeaths now
  | .liveness now timedOut => d.tickLiveness now timedOut
  | .retry now => d.tickReconnect now
  | .reconnect now => (d.reconnectAt now, [.asked])
  | .cancel => (d.dropCancelTx, [])
  | .disconnect => (d.onDisconnect, [.disconnected])
  | .navigate => ({ d with mode := .other }, [])
  | .sendKeys now gate keys => d.deliverInput (gate.keyBatchMessage keys) now
  | .feedPaste now gate text => d.deliverInput (gate.pasteMessage text) now

/-- A driver before its first bootstrap. -/
def idle (jitterSeed : ℕ) (desiredPeer : Option PeerId) (now : Nanos) : FrontendDriver K :=
  { reconnect := .new jitterSeed
    outage := .default
    connectionState := .idle
    currentTransport := .quic
    daemonInstance := none
    previousDaemonInstance := none
    mode := .other
    desiredPeer
    srvClosed := false
    bootstrapRx := none
    cancelTx := none
    tasks := []
    nextTask := 0
    lastLiveness := now
    lastExitError := none }

/-- A new driver, which bootstraps its target if it has one. -/
def new (jitterSeed : ℕ) (desiredPeer : Option PeerId) (pendingTarget : Bool) (now : Nanos) :
    FrontendDriver K :=
  if pendingTarget then (idle jitterSeed desiredPeer now).startBootstrapWith .initial
  else idle jitterSeed desiredPeer now

end FrontendDriver

/-- The events of one iteration of the pump at `now`, with `deaths` tunnels found dead. -/
def tick (now : Nanos) (batch : List SessionEvent) (deaths : ℕ) (timedOut : Bool) :
    List (Event K) :=
  [.drain now batch, .poll now] ++ List.replicate deaths (.tunnelDied now)
    ++ [.liveness now timedOut, .retry now]

/-- The state a run leads to. -/
def exec (d : FrontendDriver K) (es : List (Event K)) : FrontendDriver K :=
  Run.exec (Record.next FrontendDriver.act) d es

/-- What is reported in a run. -/
def record (d : FrontendDriver K) (es : List (Event K)) : List (Report K) :=
  Record.record FrontendDriver.act d es

end Driver

end Kmux
