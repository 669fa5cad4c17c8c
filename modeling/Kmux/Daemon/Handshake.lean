import Kmux.Daemon.ServerApp
import Kmux.Lib.Run
import Mathlib.Order.Nat

/-!
# The handshake

A channel proves who it is before anything else it says means anything. `Auth` presents the daemon's
token, a range of protocol versions and a public key, and earns a nonce; `AuthProof` signs the
nonce, and registers the channel under the fingerprint of the key. The flag that lets requests
through, the challenge that is out and the registration are state of their own, and messages come in
any order.

The other channels of the daemon go on meanwhile: they may change its registrations at any time. The
holder of a key may sign anything. The signature scheme and the fingerprint are parameters.
-/

namespace Kmux.Handshake

/-- Raw bytes: tokens, keys, nonces, signatures. -/
abbrev Bytes := List UInt8

/-! ## Protocol versions -/

structure ProtocolVersion where
  major : ℕ
  minor : ℕ
  patch : ℕ
  deriving DecidableEq, Repr

namespace ProtocolVersion

/-- Field by field, the major version first. -/
def le (v w : ProtocolVersion) : Prop :=
  v.major < w.major ∨ v.major = w.major ∧
    (v.minor < w.minor ∨ v.minor = w.minor ∧ v.patch ≤ w.patch)

instance decidableLe {v w : ProtocolVersion} : Decidable (v.le w) :=
  inferInstanceAs (Decidable (_ ∨ _))

def max (v w : ProtocolVersion) : ProtocolVersion := if v.le w then w else v

def min (v w : ProtocolVersion) : ProtocolVersion := if v.le w then v else w

theorem le_refl (v : ProtocolVersion) : v.le v := Or.inr ⟨rfl, Or.inr ⟨rfl, Nat.le_refl _⟩⟩

theorem le_total (v w : ProtocolVersion) : v.le w ∨ w.le v := by
  rw [le, le]
  omega

theorem le_max (v w : ProtocolVersion) : v.le (v.max w) ∧ w.le (v.max w) := by
  rw [max]
  by_cases h : v.le w
  · rw [if_pos h]
    exact ⟨h, w.le_refl⟩
  · rw [if_neg h]
    exact ⟨v.le_refl, (le_total v w).resolve_left h⟩

theorem min_le (v w : ProtocolVersion) : (v.min w).le v ∧ (v.min w).le w := by
  rw [min]
  by_cases h : v.le w
  · rw [if_pos h]
    exact ⟨v.le_refl, h⟩
  · rw [if_neg h]
    exact ⟨(le_total v w).resolve_left h, w.le_refl⟩

end ProtocolVersion

/-- The versions a binary supports, both ends included. -/
structure ProtocolRange where
  min : ProtocolVersion
  max : ProtocolVersion
  deriving DecidableEq, Repr

namespace ProtocolRange

/-- The highest version of both ranges. A range across major versions is no use. -/
def negotiate (range other : ProtocolRange) : Option ProtocolVersion :=
  if range.min.major ≠ range.max.major ∨ other.min.major ≠ other.max.major ∨
      range.max.major ≠ other.max.major then none
  else
    let min := range.min.max other.min
    let max := range.max.min other.max
    if min.le max then some max else none

/-- A version of the range. -/
def Contains (range : ProtocolRange) (v : ProtocolVersion) : Prop :=
  range.min.le v ∧ v.le range.max

/-- **A negotiated version is one of both ranges.** -/
theorem contains_of_negotiate {range other : ProtocolRange} {v : ProtocolVersion}
    (h : range.negotiate other = some v) : range.Contains v ∧ other.Contains v := by
  rw [negotiate] at h
  dsimp only at h
  split_ifs at h with hmajor hle
  obtain rfl := Option.some.inj h
  obtain ⟨hmin, hmin'⟩ := ProtocolVersion.le_max range.min other.min
  obtain ⟨hmax, hmax'⟩ := ProtocolVersion.min_le range.max other.max
  have trans : ∀ {u v w : ProtocolVersion}, u.le v → v.le w → u.le w := by
    intro u v w huv hvw
    rw [ProtocolVersion.le] at huv hvw ⊢
    omega
  exact ⟨⟨trans hmin hle, hmax⟩, ⟨trans hmin' hle, hmax'⟩⟩

end ProtocolRange

/-- The versions this build speaks. -/
def protocolRange : ProtocolRange := ⟨⟨1, 0, 0⟩, ⟨1, 1, 0⟩⟩

/-- Highest schema baseline supported by both peers. -/
def negotiateProtocol (theirs : ProtocolRange) : Option ProtocolVersion :=
  protocolRange.negotiate theirs

def capabilityFrameZstd : String := "frame.zstd"

def protocolCapabilities : List String := [capabilityFrameZstd]

/-- Ours that were offered. -/
def negotiateCapabilities (offered : List String) : List String :=
  protocolCapabilities.filter fun ours ↦ decide (ours ∈ offered)

/-! ## Tokens -/

/-- Compare two tokens without stopping at the first difference. -/
def validateToken (provided expected : Bytes) : Bool :=
  if provided.length ≠ expected.length then false
  else
    let diff := (provided.zip expected).foldl (fun acc bytes ↦ acc ||| (bytes.1 ^^^ bytes.2)) 0
    diff == 0

private theorem foldl_or_eq_zero (pairs : List (UInt8 × UInt8)) (acc : UInt8) :
    pairs.foldl (fun acc bytes ↦ acc ||| (bytes.1 ^^^ bytes.2)) acc = 0 ↔
      acc = 0 ∧ ∀ bytes ∈ pairs, bytes.1 = bytes.2 := by
  induction pairs generalizing acc with
  | nil => simp
  | cons bytes pairs ih =>
    rw [List.foldl_cons, ih, UInt8.or_eq_zero_iff, UInt8.xor_eq_zero_iff, List.forall_mem_cons,
      and_assoc]

/-- **Only the token itself is accepted.** -/
theorem validateToken_iff (provided expected : Bytes) :
    validateToken provided expected = true ↔ provided = expected := by
  rw [validateToken]
  by_cases hlen : provided.length = expected.length
  · rw [if_neg (not_not.mpr hlen), beq_iff_eq, foldl_or_eq_zero]
    constructor
    · rintro ⟨-, h⟩
      refine List.ext_getElem hlen fun i hi hi' ↦ ?_
      have hi'' : i < (provided.zip expected).length := by
        rw [List.length_zip]
        omega
      exact h (provided[i], expected[i]) (List.mem_iff_getElem.mpr ⟨i, hi'', List.getElem_zip⟩)
    · rintro rfl
      refine ⟨rfl, fun bytes hbytes ↦ ?_⟩
      obtain ⟨i, hi, rfl⟩ := List.mem_iff_getElem.mp hbytes
      rw [List.getElem_zip]
  · rw [if_pos hlen]
    exact ⟨fun h ↦ absurd h Bool.false_ne_true, fun h ↦ absurd (congrArg List.length h) hlen⟩

/-! ## Registrations -/

/-- The daemon's registrations, and what numbers them. -/
structure Registry where
  instanceId : DaemonInstanceId
  nextClientId : ClientId
  nextConnectionId : ConnectionId
  connections : Connections

/-- Enter a fresh registration. -/
def Registry.enter (r : Registry) (transport : TransportKind) (identity : ClientIdentity)
    (resume : Resume) : Registry × RegisteredClient :=
  let label := assignLabel identity.hostname identity.username r.connections
  ({ r with
      nextClientId := r.nextClientId + 1
      nextConnectionId := r.nextConnectionId + 1
      connections := r.connections.insert r.nextConnectionId
        { clientId := r.nextClientId, generation := 0, transport, machineId := identity.machineId
          hostname := identity.hostname, username := identity.username, label } },
    { clientId := r.nextClientId, connectionId := r.nextConnectionId, generation := 0
      previousTransport := none, label, resume })

/-- Register a channel: take over the registration it names, if that is live, of this run and of
this machine, and enter a fresh one otherwise. -/
def Registry.registerClient (r : Registry) (transport : TransportKind)
    (resumeFrom : Option ResumeFrom) (identity : ClientIdentity) : Registry × RegisteredClient :=
  match resumeFrom with
  | none => r.enter transport identity .notRequested
  | some from' =>
    if from'.instanceId.any fun run ↦ decide (run ≠ r.instanceId) then
      r.enter transport identity .otherRun
    else
      match resumeConnection r.connections from'.connectionId transport identity.machineId with
      | .ok (connections, reg) => ({ r with connections }, reg)
      | .error resume => r.enter transport identity resume

/-! ## Messages -/

/-- The fields of `Auth`. -/
structure AuthRequest where
  token : Bytes
  protocolRange : ProtocolRange
  protocolCapabilities : List String
  capabilities : ClientCapabilities
  /-- The registration to resume, if any. -/
  resume : Option ResumeFrom
  publicKey : Bytes
  hostname : String
  username : String

/-- What a client says. The messages that have no part in the handshake are of type `M`. -/
inductive ClientMessage (M : Type*)
  | auth (req : AuthRequest)
  | authProof (signature : Bytes)
  | channelReady
  | other (m : M)

inductive AuthFailure
  | protocolMismatch (client daemon : ProtocolRange)
  | badToken
  | identityRejected
  deriving DecidableEq, Repr

/-- What a successful handshake tells the client. -/
structure Welcome where
  clientId : ClientId
  connectionId : ConnectionId
  daemonInstance : DaemonInstanceId
  /-- Whether frames are compressed. -/
  compression : Bool
  machineId : String
  label : String
  serverMachineId : Option String
  negotiatedProtocol : ProtocolVersion
  negotiatedCapabilities : List String
  deriving DecidableEq, Repr

/-- What the daemon says. -/
inductive ServerMessage
  | authChallenge (nonce : Bytes)
  | authResult (result : Except AuthFailure Welcome)
  /-- The error `NotAuthenticated`. -/
  | notAuthenticated (message : String)
  | channelSwitched (oldTransport : TransportKind)

/-! ## The channel -/

/-- A challenge that is out: the nonce, and the claim to be trusted once it is signed. -/
structure PendingAuth where
  nonce : Bytes
  publicKey : Bytes
  hostname : String
  username : String
  capabilities : ClientCapabilities
  negotiatedProtocol : ProtocolVersion
  negotiatedCapabilities : List String
  resume : Option ResumeFrom

/-- The state of a channel. -/
structure SharedClientState where
  authenticated : Bool
  clientId : Option ClientId
  connectionId : Option ConnectionId
  generation : ℕ
  capabilities : ClientCapabilities
  pendingAuth : Option PendingAuth
  machineId : Option String
  label : Option String
  transport : TransportKind
  /-- Whether outbound frames are compressed. -/
  compress : Bool
  pendingSwapFrom : Option TransportKind

def SharedClientState.new (transport : TransportKind) : SharedClientState where
  authenticated := false
  clientId := none
  connectionId := none
  generation := 0
  capabilities := ⟨false, false⟩
  pendingAuth := none
  machineId := none
  label := none
  transport
  compress := false
  pendingSwapFrom := none

/-- What the daemon is started with, and what it calls to verify a signature and to name a key. -/
structure Config where
  authToken : Bytes
  compressionEnabledFor : TransportKind → Bool
  serverMachineId : String
  verify : (publicKey nonce signature : Bytes) → Bool
  fingerprint : (publicKey : Bytes) → String

inductive Flow
  | continue
  | close
  deriving DecidableEq, Repr

/-- The handlers that messages are given to. -/
inductive Handler (M : Type*)
  | onAuth
  | onAuthProof
  | onChannelReady
  | request (clientId : ClientId) (m : M)

/-- What has become of a message: the state of the channel and the registrations after it, whether
the channel stays open, the handler that ran, what was sent and what was registered. -/
structure Handled (M : Type*) where
  state : SharedClientState
  registry : Registry
  flow : Flow
  ran : Option (Handler M)
  sent : List ServerMessage
  registered : Option RegisteredClient

variable {M : Type*}

/-- Step 1: look at the range and the token, and send out a challenge. -/
def onAuth (c : Config) (state : SharedClientState) (registry : Registry) (req : AuthRequest)
    (nonce : Bytes) : Handled M :=
  match negotiateProtocol req.protocolRange with
  | none =>
    { state, registry, flow := .close, ran := some .onAuth, registered := none
      sent := [.authResult (.error (.protocolMismatch req.protocolRange protocolRange))] }
  | some negotiatedProtocol =>
    if validateToken req.token c.authToken then
      { registry, flow := .continue, ran := some .onAuth, registered := none
        sent := [.authChallenge nonce]
        state := { state with
          pendingAuth := some
            { nonce, publicKey := req.publicKey, hostname := req.hostname, username := req.username
              capabilities := req.capabilities, negotiatedProtocol
              negotiatedCapabilities := negotiateCapabilities req.protocolCapabilities
              resume := req.resume } } }
    else
      { state, registry, flow := .close, ran := some .onAuth, registered := none
        sent := [.authResult (.error .badToken)] }

/-- The end of step 2: register the channel for the claim of a challenge that has been met. -/
def admitClient (c : Config) (state : SharedClientState) (registry : Registry)
    (pending : PendingAuth) : Handled M :=
  let machineId := c.fingerprint pending.publicKey
  let (registry', reg) := registry.registerClient state.transport pending.resume
    ⟨machineId, pending.hostname, pending.username⟩
  let compress := decide (capabilityFrameZstd ∈ pending.negotiatedCapabilities) &&
    c.compressionEnabledFor state.transport
  { registry := registry', flow := .continue, ran := some .onAuthProof, registered := some reg
    state := { state with
      pendingAuth := none
      clientId := some reg.clientId
      connectionId := some reg.connectionId
      generation := reg.generation
      capabilities := pending.capabilities
      authenticated := true
      pendingSwapFrom := reg.previousTransport
      machineId := some machineId
      label := some reg.label
      compress }
    sent := [.authResult (.ok
      { clientId := reg.clientId, connectionId := reg.connectionId
        daemonInstance := registry.instanceId, compression := compress, machineId
        label := reg.label
        serverMachineId := if c.serverMachineId.isEmpty then none else some c.serverMachineId
        negotiatedProtocol := pending.negotiatedProtocol
        negotiatedCapabilities := pending.negotiatedCapabilities })] }

/-- Step 2: take the challenge, and verify the signature over its nonce. -/
def onAuthProof (c : Config) (state : SharedClientState) (registry : Registry)
    (signature : Bytes) : Handled M :=
  match state.pendingAuth with
  | none =>
    { state, registry, flow := .continue, ran := some .onAuthProof, registered := none
      sent := [.notAuthenticated "send Auth before AuthProof"] }
  | some pending =>
    if c.verify pending.publicKey pending.nonce signature then admitClient c state registry pending
    else
      { state := { state with pendingAuth := none }, registry, flow := .close
        ran := some .onAuthProof, registered := none
        sent := [.authResult (.error .identityRejected)] }

/-- The gate: what a channel may say before it has proved who it is. -/
def handleUnauthenticated (c : Config) (state : SharedClientState) (registry : Registry)
    (nonce : Bytes) : ClientMessage M → Handled M
  | .auth req => onAuth c state registry req nonce
  | .authProof signature => onAuthProof c state registry signature
  | _ =>
    { state, registry, flow := .continue, ran := none, registered := none
      sent := [.notAuthenticated "send Auth first"] }

/-- Report the swap of channels that is pending, once. -/
def onChannelReady (state : SharedClientState) (registry : Registry) : Handled M :=
  { state := { state with pendingSwapFrom := none }, registry, flow := .continue
    ran := some .onChannelReady, registered := none
    sent := (state.pendingSwapFrom.map ServerMessage.channelSwitched).toList }

/-- Handle a message, with the nonce that is drawn if one is. The handlers of requests touch neither
the registrations nor what a channel knows of itself. -/
def handleMessage (c : Config) (state : SharedClientState) (registry : Registry) (nonce : Bytes)
    (msg : ClientMessage M) : Handled M :=
  if state.authenticated then
    match msg with
    | .auth _ | .authProof _ =>
      { state, registry, flow := .continue, ran := none, registered := none, sent := [] }
    | .channelReady => onChannelReady state registry
    | .other m =>
      { state, registry, flow := .continue, ran := state.clientId.map fun id ↦ .request id m
        registered := none, sent := [] }
  else handleUnauthenticated c state registry nonce msg

/-! ## Runs of a channel -/

/-- A channel, the daemon's registrations, and what has been registered for the channel so far. -/
structure World where
  channel : SharedClientState
  registry : Registry
  closed : Bool
  registrations : List RegisteredClient

/-- The client says something, and `nonce` is what is drawn if it earns one; the other channels
leave the registrations as they will; the holder of a key signs something. -/
inductive Event (M : Type*)
  | message (msg : ClientMessage M) (nonce : Bytes)
  | others (registry : Registry)
  | signs (publicKey nonce signature : Bytes)

/-- What becomes of a message, if the channel is open. -/
def World.handled (c : Config) (w : World) : Event M → Option (Handled M)
  | .message msg nonce =>
    if w.closed then none else some (handleMessage c w.channel w.registry nonce msg)
  | _ => none

def step (c : Config) (w : World) : Event M → World
  | .message msg nonce =>
    if w.closed then w
    else
      let h := handleMessage c w.channel w.registry nonce msg
      { channel := h.state, registry := h.registry, closed := decide (h.flow = .close)
        registrations := w.registrations ++ h.registered.toList }
  | .others registry => { w with registry }
  | .signs _ _ _ => w

def start (transport : TransportKind) (registry : Registry) : World :=
  ⟨.new transport, registry, false, []⟩

/-- Who a channel is: whether it has proved it, and what it was registered as. -/
structure Identity where
  authenticated : Bool
  machineId : Option String
  clientId : Option ClientId
  connectionId : Option ConnectionId
  generation : ℕ
  label : Option String
  deriving DecidableEq, Repr

def SharedClientState.identity (state : SharedClientState) : Identity :=
  ⟨state.authenticated, state.machineId, state.clientId, state.connectionId, state.generation,
    state.label⟩

/-- The challenge that an `Auth` earns. -/
def challenge (req : AuthRequest) (nonce : Bytes) (negotiatedProtocol : ProtocolVersion) :
    PendingAuth where
  nonce
  publicKey := req.publicKey
  hostname := req.hostname
  username := req.username
  capabilities := req.capabilities
  negotiatedProtocol
  negotiatedCapabilities := negotiateCapabilities req.protocolCapabilities
  resume := req.resume

/-- The handler, if one ran, is of the handshake. -/
def OfHandshake (ran : Option (Handler M)) : Prop :=
  ran = none ∨ ran = some .onAuth ∨ ran = some .onAuthProof

/-! ### The moves -/

/-- What a message can do, said once. -/
inductive Moved (c : Config) (state : SharedClientState) (registry : Registry) (nonce : Bytes) :
    ClientMessage M → Handled M → Prop
  /-- A channel that has proved who it is stays who it is. -/
  | served (msg : ClientMessage M) (h : Handled M) (hauth : state.authenticated = true)
      (hstate : h.state.identity = state.identity) (hregistry : h.registry = registry)
      (hregistered : h.registered = none) (hflow : h.flow = .continue) :
      Moved c state registry nonce msg h
  | refused (msg : ClientMessage M) (h : Handled M) (hauth : state.authenticated = false)
      (hmsg : ∀ req, msg ≠ .auth req)
      (hproof : ∀ signature, msg = .authProof signature → state.pendingAuth = none)
      (hran : OfHandshake h.ran) (hstate : h.state = state) (hregistry : h.registry = registry)
      (hregistered : h.registered = none) (hflow : h.flow = .continue) :
      Moved c state registry nonce msg h
  | rejected (msg : ClientMessage M) (h : Handled M) (hauth : state.authenticated = false)
      (hran : OfHandshake h.ran) (hstate : h.state.authenticated = false)
      (hregistry : h.registry = registry) (hregistered : h.registered = none)
      (hflow : h.flow = .close) : Moved c state registry nonce msg h
  | challenged (req : AuthRequest) (h : Handled M) (negotiatedProtocol : ProtocolVersion)
      (hauth : state.authenticated = false)
      (hversion : negotiateProtocol req.protocolRange = some negotiatedProtocol)
      (htoken : req.token = c.authToken) (hran : OfHandshake h.ran)
      (hstate : h.state =
        { state with pendingAuth := some (challenge req nonce negotiatedProtocol) })
      (hregistry : h.registry = registry) (hregistered : h.registered = none)
      (hflow : h.flow = .continue) : Moved c state registry nonce (.auth req) h
  | admitted (signature : Bytes) (pending : PendingAuth) (hauth : state.authenticated = false)
      (hpending : state.pendingAuth = some pending)
      (hverify : c.verify pending.publicKey pending.nonce signature = true) :
      Moved c state registry nonce (.authProof signature) (admitClient c state registry pending)

theorem moved_onAuth (c : Config) {state : SharedClientState} (registry : Registry)
    (req : AuthRequest) (nonce : Bytes) (hauth : state.authenticated = false) :
    Moved c state registry nonce (.auth req) (onAuth (M := M) c state registry req nonce) := by
  rw [onAuth]
  rcases Option.eq_none_or_eq_some (negotiateProtocol req.protocolRange) with hnone | ⟨v, hv⟩
  · rw [hnone]
    exact .rejected _ _ hauth (.inr (.inl rfl)) hauth rfl rfl rfl
  · rw [hv]
    dsimp only
    by_cases htoken : validateToken req.token c.authToken = true
    · rw [if_pos htoken]
      exact .challenged req _ v hauth hv ((validateToken_iff _ _).mp htoken) (.inr (.inl rfl)) rfl
        rfl rfl rfl
    · rw [if_neg htoken]
      exact .rejected _ _ hauth (.inr (.inl rfl)) hauth rfl rfl rfl

theorem moved_onAuthProof (c : Config) {state : SharedClientState} (registry : Registry)
    (signature nonce : Bytes) (hauth : state.authenticated = false) :
    Moved c state registry nonce (.authProof signature)
      (onAuthProof (M := M) c state registry signature) := by
  rw [onAuthProof]
  rcases Option.eq_none_or_eq_some state.pendingAuth with hnone | ⟨pending, hpending⟩
  · rw [hnone]
    exact .refused _ _ hauth (fun req h ↦ by cases h) (fun _ _ ↦ hnone) (.inr (.inr rfl)) rfl rfl
      rfl rfl
  · rw [hpending]
    dsimp only
    by_cases hverify : c.verify pending.publicKey pending.nonce signature = true
    · rw [if_pos hverify]
      exact .admitted signature pending hauth hpending hverify
    · rw [if_neg hverify]
      exact .rejected _ _ hauth (.inr (.inr rfl)) hauth rfl rfl rfl

/-- **Inversion.** A message is handled by one of the moves. -/
theorem moved (c : Config) (state : SharedClientState) (registry : Registry) (nonce : Bytes)
    (msg : ClientMessage M) :
    Moved c state registry nonce msg (handleMessage c state registry nonce msg) := by
  unfold handleMessage
  by_cases hauth : state.authenticated = true
  · rw [if_pos hauth]
    cases msg with
    | auth req => exact .served _ _ hauth rfl rfl rfl rfl
    | authProof signature => exact .served _ _ hauth rfl rfl rfl rfl
    | channelReady => exact .served _ _ hauth rfl rfl rfl rfl
    | other m => exact .served _ _ hauth rfl rfl rfl rfl
  · have hauth' : state.authenticated = false := Bool.eq_false_of_not_eq_true hauth
    rw [if_neg hauth]
    cases msg with
    | auth req => exact moved_onAuth c registry req nonce hauth'
    | authProof signature => exact moved_onAuthProof c registry signature nonce hauth'
    | channelReady =>
      exact .refused _ _ hauth' (fun req h ↦ by cases h) (fun s h ↦ by cases h) (.inl rfl) rfl rfl
        rfl rfl
    | other m =>
      exact .refused _ _ hauth' (fun req h ↦ by cases h) (fun s h ↦ by cases h) (.inl rfl) rfl rfl
        rfl rfl

/-! ### Registering -/

theorem machineId_enter (registry : Registry) (transport : TransportKind)
    (identity : ClientIdentity) (resume : Resume) :
    ∃ entry, (registry.enter transport identity resume).1.connections.lookup
        (registry.enter transport identity resume).2.connectionId = some entry ∧
      entry.machineId = identity.machineId := by
  have hlookup := Table.lookup_insert_eq registry.connections registry.nextConnectionId
    registry.nextConnectionId
  exact ⟨_, (hlookup _).trans (if_pos rfl), rfl⟩

/-- A registration is taken over by the machine that made it, or a fresh one is entered. -/
theorem registerClient_cases (registry : Registry) (transport : TransportKind)
    (resumeFrom : Option ResumeFrom) (identity : ClientIdentity) :
    (∃ resume, registry.registerClient transport resumeFrom identity =
      registry.enter transport identity resume) ∨
    ∃ k entry reg, registry.registerClient transport resumeFrom identity =
        ({ registry with connections := registry.connections.insert k entry }, reg) ∧
      entry.machineId = identity.machineId ∧ reg.connectionId = k := by
  unfold Registry.registerClient
  rcases resumeFrom with _ | from'
  · exact .inl ⟨_, rfl⟩
  · dsimp only
    by_cases hrun : (from'.instanceId.any fun run ↦ decide (run ≠ registry.instanceId)) = true
    · rw [if_pos hrun]
      exact .inl ⟨_, rfl⟩
    · rw [if_neg hrun, resumeConnection]
      rcases Option.eq_none_or_eq_some (registry.connections.lookup from'.connectionId) with
        hnone | ⟨state, hstate⟩
      · rw [hnone]
        exact .inl ⟨_, rfl⟩
      · rw [hstate]
        dsimp only
        by_cases hmachine : state.machineId = identity.machineId
        · rw [if_neg (not_not.mpr hmachine)]
          exact .inr ⟨from'.connectionId, _, _, rfl, hmachine, rfl⟩
        · rw [if_pos hmachine]
          exact .inl ⟨_, rfl⟩

/-- **A channel is registered under its machine's name,** whether it resumes or not. -/
theorem machineId_registerClient (registry : Registry) (transport : TransportKind)
    (resumeFrom : Option ResumeFrom) (identity : ClientIdentity) :
    ∃ entry, (registry.registerClient transport resumeFrom identity).1.connections.lookup
        (registry.registerClient transport resumeFrom identity).2.connectionId = some entry ∧
      entry.machineId = identity.machineId := by
  rcases registerClient_cases registry transport resumeFrom identity with
    ⟨resume, heq⟩ | ⟨k, entry, reg, heq, hmachine, hk⟩
  · rw [heq]
    exact machineId_enter registry transport identity resume
  · rw [heq]
    refine ⟨entry, ?_, hmachine⟩
    dsimp only
    rw [hk, Table.lookup_insert_eq, if_pos rfl]

section Sections

variable {B : Type*} [TerminalBackend B]

/-- The registry's part of the daemon. -/
def registryOf (s : ServerApp B) : Registry :=
  ⟨s.instanceId, s.nextClientId, s.nextConnectionId, s.connections⟩

private theorem step_register (s : ServerApp B) (ch : ChannelId) (transport : TransportKind)
    (resumeFrom : Option ResumeFrom) (identity : ClientIdentity)
    (hch : s.channels ch = .unauthenticated) :
    s.step (.register ch transport resumeFrom identity) =
      ({ s with panes := s.stepPanes (.register ch transport resumeFrom identity) } :
        ServerApp B).register ch transport resumeFrom identity := by
  rw [ServerApp.step, ServerApp.stepRegistry]
  rw [hch]

private theorem refused_run (s : ServerApp B) (ch : ChannelId) (r : Registering)
    (hch : s.channels ch = .refused r) :
    let s' := s.run [.drawClientId ch, .drawConnectionId ch, .insertConnection ch]
    registryOf s' = ((registryOf s).enter r.transport r.identity r.resume).1 ∧
      s'.channels ch = .live ((registryOf s).enter r.transport r.identity r.resume).2 := by
  simp only [ServerApp.run, Run.exec, List.foldl_cons, List.foldl_nil, ServerApp.step,
    ServerApp.stepRegistry, hch, ServerApp.setChannel, Function.update_self,
    ServerApp.insertConnection, registryOf, Registry.enter, and_self]

private theorem live_run (s : ServerApp B) (ch : ChannelId) (reg : RegisteredClient)
    (hch : s.channels ch = .live reg) :
    let s' := s.run [.drawClientId ch, .drawConnectionId ch, .insertConnection ch]
    registryOf s' = registryOf s ∧ s'.channels ch = .live reg := by
  simp only [ServerApp.run, Run.exec, List.foldl_cons, List.foldl_nil, ServerApp.step,
    ServerApp.stepRegistry, hch, registryOf, and_self]

/-- **Registering in one piece** is what the locked sections of it come to when no other channel
comes between them. -/
theorem registerClient_run (s : ServerApp B) (ch : ChannelId) (transport : TransportKind)
    (resumeFrom : Option ResumeFrom) (identity : ClientIdentity)
    (hch : s.channels ch = .unauthenticated) :
    let s' := s.run [.register ch transport resumeFrom identity, .drawClientId ch,
      .drawConnectionId ch, .insertConnection ch]
    registryOf s' = ((registryOf s).registerClient transport resumeFrom identity).1 ∧
      s'.channels ch =
        .live ((registryOf s).registerClient transport resumeFrom identity).2 := by
  intro s'
  have hs' : s' = (s.step (.register ch transport resumeFrom identity)).run
      [.drawClientId ch, .drawConnectionId ch, .insertConnection ch] := rfl
  rw [hs', step_register s ch transport resumeFrom identity hch]
  -- new, or not resumed: the three sections that follow enter the client
  have hrefused : ∀ (panes : PaneId → Option (PaneRelay B)) resume,
      let s' := (ServerApp.setChannel { s with panes } ch
        (.refused { transport, identity, resume })).run
          [.drawClientId ch, .drawConnectionId ch, .insertConnection ch]
      registryOf s' = ((registryOf s).enter transport identity resume).1 ∧
        s'.channels ch = .live ((registryOf s).enter transport identity resume).2 :=
    fun panes resume ↦ refused_run _ ch { transport, identity, resume } (Function.update_self ..)
  unfold Registry.registerClient
  rcases resumeFrom with _ | from'
  · exact hrefused _ _
  · rw [ServerApp.register]
    dsimp only
    have hinstance : (registryOf s).instanceId = s.instanceId := rfl
    have hconnections : (registryOf s).connections = s.connections := rfl
    rw [hinstance, hconnections]
    -- a connection of another run of the daemon is not resumed
    by_cases hrun : (from'.instanceId.any fun run ↦ decide (run ≠ s.instanceId)) = true
    · rw [if_pos hrun, if_pos hrun]
      exact hrefused _ _
    · rw [if_neg hrun, if_neg hrun]
      generalize resumeConnection s.connections from'.connectionId transport identity.machineId = r
      rcases r with resume | ⟨connections, reg⟩
      · exact hrefused _ resume
      · exact live_run _ ch reg (Function.update_self ..)

end Sections

/-! ### What a run keeps -/

/-- The challenge is the one that the latest `Auth` earned, which had the token and a version. -/
def Latest (c : Config) (before : List (Event M)) (pending : PendingAuth) : Prop :=
  ∃ earlier req nonce later version, before = earlier ++ .message (.auth req) nonce :: later ∧
    (∀ req' nonce', Event.message (.auth req') nonce' ∉ later) ∧
      pending = challenge req nonce version ∧
        negotiateProtocol req.protocolRange = some version ∧ req.token = c.authToken

theorem Latest.snoc {c : Config} {before : List (Event M)} {pending : PendingAuth}
    (h : Latest c before pending) {ev : Event M}
    (hev : ∀ req nonce, ev ≠ .message (.auth req) nonce) : Latest c (before ++ [ev]) pending := by
  obtain ⟨earlier, req, nonce, later, version, rfl, hlater, hpending, hversion, htoken⟩ := h
  refine ⟨earlier, req, nonce, later ++ [ev], version, ?_, ?_, hpending, hversion, htoken⟩
  · rw [List.append_assoc, List.cons_append]
  · intro req' nonce' hmem
    rcases List.mem_append.mp hmem with hmem | hmem
    · exact hlater req' nonce' hmem
    · exact hev req' nonce' (List.mem_singleton.mp hmem).symm

/-- What the state says of the events that led to it. -/
structure History (c : Config) (before : List (Event M)) (w : World) : Prop where
  unregistered : w.channel.authenticated = false → w.registrations = []
  registered : w.channel.authenticated = true → w.registrations.length = 1
  latest : w.closed = false → w.channel.authenticated = false →
    ∀ pending, w.channel.pendingAuth = some pending → Latest c before pending

theorem step_message (c : Config) {w : World} (msg : ClientMessage M) (nonce : Bytes)
    (hopen : w.closed = false) :
    step c w (.message msg nonce) =
      ⟨(handleMessage c w.channel w.registry nonce msg).state,
        (handleMessage c w.channel w.registry nonce msg).registry,
        decide ((handleMessage c w.channel w.registry nonce msg).flow = .close),
        w.registrations ++ (handleMessage c w.channel w.registry nonce msg).registered.toList⟩ := by
  rw [step, if_neg (by rw [hopen]; exact Bool.false_ne_true)]

/-- A step is a message on an open channel, or leaves the channel as it is. -/
theorem step_cases (c : Config) (w : World) (ev : Event M) :
    (∃ msg nonce, ev = .message msg nonce ∧ w.closed = false) ∨
      (w.handled c ev = none ∧ (w.closed = false → ∀ msg nonce, ev ≠ .message msg nonce) ∧
        ∃ registry, step c w ev = { w with registry }) := by
  rcases ev with ⟨msg, nonce⟩ | registry | ⟨publicKey, nonce, signature⟩
  · by_cases hclosed : w.closed = true
    · refine .inr ⟨?_, fun hopen ↦ ?_, w.registry, ?_⟩
      · rw [World.handled, if_pos hclosed]
      · rw [hclosed] at hopen
        cases hopen
      · rw [step, if_pos hclosed]
    · exact .inl ⟨msg, nonce, rfl, Bool.eq_false_of_not_eq_true hclosed⟩
  · refine .inr ⟨rfl, fun _ msg nonce h ↦ ?_, registry, rfl⟩
    cases h
  · refine .inr ⟨rfl, fun _ msg nonce h ↦ ?_, w.registry, rfl⟩
    cases h

theorem history_step {c : Config} {before : List (Event M)} {w : World} (hw : History c before w)
    (ev : Event M) : History c (before ++ [ev]) (step c w ev) := by
  -- only a message on an open channel can change what is pending
  rcases step_cases c w ev with ⟨msg, nonce, rfl, hopen⟩ | ⟨-, hev, registry, hstep⟩
  · rw [step_message c msg nonce hopen]
    have hmoved := moved c w.channel w.registry nonce msg
    generalize handleMessage c w.channel w.registry nonce msg = h at hmoved
    cases hmoved with
    | served msg h hauth hstate hregistry hregistered hflow =>
      have hauth' : h.state.authenticated = true :=
        (congrArg Identity.authenticated hstate).trans hauth
      rw [hregistered]
      refine ⟨fun hnot ↦ ?_, fun _ ↦ ?_, fun _ hnot ↦ ?_⟩
      · rw [hauth'] at hnot
        cases hnot
      · rw [Option.toList_none, List.append_nil]
        exact hw.registered hauth
      · rw [hauth'] at hnot
        cases hnot
    -- no new challenge: the latest one is still the latest
    | refused msg h hauth hmsg hproof hran hstate hregistry hregistered hflow =>
      rw [hregistered, hstate, Option.toList_none, List.append_nil]
      refine ⟨hw.unregistered, hw.registered, fun _ hnot pending hpending ↦ ?_⟩
      refine (hw.latest hopen hauth pending hpending).snoc fun req nonce' heq ↦ ?_
      exact hmsg req (Event.message.inj heq).1
    | rejected msg h hauth hran hstate hregistry hregistered hflow =>
      rw [hregistered, Option.toList_none, List.append_nil]
      refine ⟨fun _ ↦ hw.unregistered hauth, fun h' ↦ ?_, fun h' ↦ ?_⟩
      · rw [hstate] at h'
        cases h'
      · rw [hflow] at h'
        cases h'
    -- this message earns the challenge
    | challenged req h version hauth hversion htoken hran hstate hregistry hregistered hflow =>
      rw [hregistered, hstate, Option.toList_none, List.append_nil]
      refine ⟨hw.unregistered, hw.registered, fun _ _ pending hpending ↦ ?_⟩
      obtain rfl := Option.some.inj hpending
      exact ⟨before, req, nonce, [], version, rfl, fun _ _ ↦ List.not_mem_nil, rfl, hversion,
        htoken⟩
    | admitted signature pending hauth hpending hverify =>
      refine ⟨fun hnot ↦ ?_, fun _ ↦ ?_, fun _ hnot ↦ ?_⟩
      · cases hnot
      · rw [hw.unregistered hauth]
        rfl
      · cases hnot
  · rw [hstep]
    refine ⟨hw.unregistered, hw.registered, fun hopen hauth pending hpending ↦ ?_⟩
    exact (hw.latest hopen hauth pending hpending).snoc fun req nonce ↦ hev hopen _ nonce

theorem history_run (c : Config) (transport : TransportKind) (registry : Registry)
    (evs : List (Event M)) :
    History c evs (Run.exec (step c) (start transport registry) evs) := by
  induction evs using List.reverseRecOn with
  | nil =>
    refine ⟨fun _ ↦ rfl, fun h ↦ ?_, fun _ _ pending h ↦ ?_⟩
    · cases h
    · cases h
  | append_singleton evs ev ih =>
    rw [Run.exec_append]
    exact history_step ih ev

/-- A proof takes the challenge with this nonce. -/
def Consumes (w : World) (ev : Event M) (nonce : Bytes) : Prop :=
  w.closed = false ∧ w.channel.authenticated = false ∧
    ∃ signature unused pending, ev = .message (.authProof signature) unused ∧
      w.channel.pendingAuth = some pending ∧ pending.nonce = nonce

/-- The channel says nothing more before it is authenticated: it is, or it is closed. -/
def Settled (w : World) : Prop := w.closed = true ∨ w.channel.authenticated = true

theorem settled_step {c : Config} {w : World} (hw : Settled w) (ev : Event M) :
    Settled (step c w ev) := by
  rcases step_cases c w ev with ⟨msg, nonce, rfl, hopen⟩ | ⟨-, -, registry, hstep⟩
  · have hauth : w.channel.authenticated = true := by
      refine hw.resolve_left ?_
      rw [hopen]
      exact Bool.false_ne_true
    rw [step_message c msg nonce hopen]
    have hmoved := moved c w.channel w.registry nonce msg
    generalize handleMessage c w.channel w.registry nonce msg = h at hmoved
    cases hmoved with
    | served msg h _ hstate => exact .inr ((congrArg Identity.authenticated hstate).trans hauth)
    | refused msg h hnot | rejected msg h hnot | challenged req h version hnot
    | admitted signature pending hnot =>
      rw [hauth] at hnot
      cases hnot
  · rw [hstep]
    exact hw

/-- **A proof settles the channel,** whether it verifies or not. -/
theorem settled_of_consumes {c : Config} {w : World} {ev : Event M} {nonce : Bytes}
    (h : Consumes w ev nonce) : Settled (step c w ev) := by
  obtain ⟨hopen, hauth, signature, unused, pending, rfl, hpending, -⟩ := h
  rw [step_message c _ unused hopen]
  have hmoved := moved c w.channel w.registry unused (.authProof signature : ClientMessage M)
  generalize handleMessage c w.channel w.registry unused _ = h at hmoved
  cases hmoved with
  | served msg h hauth' =>
    rw [hauth] at hauth'
    cases hauth'
  | refused msg h _ _ hproof =>
    rw [hproof signature rfl] at hpending
    cases hpending
  | rejected msg h _ _ _ _ _ hflow => exact .inl (decide_eq_true hflow)
  | admitted signature pending => exact .inr rfl

theorem not_consumes_of_settled {w : World} (hw : Settled w) (ev : Event M) (nonce : Bytes) :
    ¬Consumes w ev nonce := by
  rintro ⟨hopen, hauth, -⟩
  rcases hw with h | h
  · rw [hopen] at h
    cases h
  · rw [hauth] at h
    cases h

/-! ### The gate -/

/-- A signature that is presented and verifies was made by the holder of the key, earlier. -/
def OnlyHoldersSign (c : Config) (evs : List (Event M)) : Prop :=
  ∀ before signature unused after, evs = before ++ .message (.authProof signature) unused :: after →
    ∀ publicKey nonce, c.verify publicKey nonce signature = true →
      .signs publicKey nonce signature ∈ before

/-- A nonce that is drawn has not been signed by anyone before, and has not been drawn before. -/
def FreshNonces (evs : List (Event M)) : Prop :=
  ∀ before req nonce after, evs = before ++ .message (.auth req) nonce :: after →
    (∀ publicKey signature, Event.signs publicKey nonce signature ∉ before) ∧
      ∀ req', Event.message (.auth req') nonce ∉ before

/-- What the handshake guarantees of a run. -/
structure Gate (c : Config) (transport : TransportKind) (registry : Registry)
    (evs : List (Event M)) : Prop where
  /-- Until the channel has proved who it is, the handshake's handlers run and no others, and the
  registrations stay. -/
  gated : ∀ before ev after, evs = before ++ ev :: after →
    let w := Run.exec (step c) (start transport registry) before
    w.channel.authenticated = false → ∀ h, w.handled c ev = some h →
      OfHandshake h.ran ∧
        (h.state.authenticated = false → (step c w ev).registry = w.registry ∧
          (step c w ev).registrations = w.registrations)
  /-- It proves it by a signature over the nonce that the latest `Auth` earned, which the holder of
  the key has made since; and it is registered under the fingerprint of the key. -/
  proven : ∀ before ev after, evs = before ++ ev :: after →
    let w := Run.exec (step c) (start transport registry) before
    let w' := step c w ev
    w.channel.authenticated = false → w'.channel.authenticated = true →
      ∃ earlier req nonce later signature unused,
        before = earlier ++ .message (.auth req) nonce :: later ∧
          (∀ req' nonce', Event.message (.auth req') nonce' ∉ later) ∧
            ev = .message (.authProof signature) unused ∧
              c.verify req.publicKey nonce signature = true ∧
                .signs req.publicKey nonce signature ∈ later ∧ req.token = c.authToken ∧
                  (∃ version, protocolRange.Contains version ∧
                    req.protocolRange.Contains version) ∧
                    ∃ reg entry, w'.registrations = [reg] ∧
                      w'.registry.connections.lookup reg.connectionId = some entry ∧
                        entry.machineId = c.fingerprint req.publicKey ∧
                          w'.channel.machineId = some (c.fingerprint req.publicKey) ∧
                            w'.channel.connectionId = some reg.connectionId
  /-- A nonce is consumed once. -/
  consumed : ∀ before ev between ev' after nonce, evs = before ++ ev :: between ++ ev' :: after →
    Consumes (Run.exec (step c) (start transport registry) before) ev nonce →
      ¬Consumes (Run.exec (step c) (start transport registry) (before ++ ev :: between)) ev' nonce
  /-- At most one registration is made. -/
  once : (Run.exec (step c) (start transport registry) evs).registrations.length ≤ 1
  /-- Nothing that is said later changes who the channel is, or registers it again. -/
  lasting : ∀ before ev after, evs = before ++ ev :: after →
    let w := Run.exec (step c) (start transport registry) before
    w.channel.authenticated = true →
      (step c w ev).channel.identity = w.channel.identity ∧
        (step c w ev).registrations = w.registrations

section Gate

variable (c : Config) (transport : TransportKind) (registry : Registry)

theorem gate_gated {w : World} {ev : Event M} (hauth : w.channel.authenticated = false)
    {h : Handled M} (hh : w.handled c ev = some h) :
    OfHandshake h.ran ∧
      (h.state.authenticated = false → (step c w ev).registry = w.registry ∧
        (step c w ev).registrations = w.registrations) := by
  rcases step_cases c w ev with ⟨msg, nonce, rfl, hopen⟩ | ⟨hnone, -⟩
  · rw [World.handled, if_neg (by rw [hopen]; exact Bool.false_ne_true)] at hh
    have hmoved := moved c w.channel w.registry nonce msg
    rw [step_message c msg nonce hopen, Option.some.inj hh]
    rw [Option.some.inj hh] at hmoved
    cases hmoved with
    | served msg h hauth' =>
      rw [hauth] at hauth'
      cases hauth'
    | refused msg h _ _ _ hran _ hregistry hregistered
    | rejected msg h _ hran _ hregistry hregistered
    | challenged req h version _ _ _ hran _ hregistry hregistered =>
      refine ⟨hran, fun _ ↦ ⟨hregistry, ?_⟩⟩
      rw [hregistered, Option.toList_none, List.append_nil]
    | admitted signature pending =>
      refine ⟨.inr (.inr rfl), fun hnot ↦ ?_⟩
      cases hnot
  · rw [hnone] at hh
    cases hh

theorem gate_lasting {w : World} (hauth : w.channel.authenticated = true) (ev : Event M) :
    (step c w ev).channel.identity = w.channel.identity ∧
      (step c w ev).registrations = w.registrations := by
  rcases step_cases c w ev with ⟨msg, nonce, rfl, hopen⟩ | ⟨-, -, registry, hstep⟩
  · rw [step_message c msg nonce hopen]
    have hmoved := moved c w.channel w.registry nonce msg
    generalize handleMessage c w.channel w.registry nonce msg = h at hmoved
    cases hmoved with
    | served msg h _ hstate _ hregistered =>
      refine ⟨hstate, ?_⟩
      rw [hregistered, Option.toList_none, List.append_nil]
    | refused msg h hnot | rejected msg h hnot | challenged req h version hnot
    | admitted signature pending hnot =>
      rw [hauth] at hnot
      cases hnot
  · rw [hstep]
    exact ⟨rfl, rfl⟩

/-- A step that authenticates the channel admits it for the challenge that was out. -/
theorem admitted_of_authenticated {w : World} {ev : Event M}
    (hauth : w.channel.authenticated = false)
    (hauth' : (step c w ev).channel.authenticated = true) :
    ∃ signature unused pending, ev = .message (.authProof signature) unused ∧ w.closed = false ∧
      w.channel.pendingAuth = some pending ∧
        c.verify pending.publicKey pending.nonce signature = true ∧
          handleMessage c w.channel w.registry unused (.authProof signature : ClientMessage M) =
            admitClient c w.channel w.registry pending := by
  rcases step_cases c w ev with ⟨msg, nonce, rfl, hopen⟩ | ⟨-, -, registry, hstep⟩
  · rw [step_message c msg nonce hopen] at hauth'
    have hmoved := moved c w.channel w.registry nonce msg
    generalize heq : handleMessage c w.channel w.registry nonce msg = h at hmoved hauth'
    cases hmoved with
    | served msg h hserved =>
      rw [hauth] at hserved
      cases hserved
    | refused msg h _ _ _ _ hstate =>
      rw [hstate, hauth] at hauth'
      cases hauth'
    | rejected msg h _ _ hstate =>
      rw [hstate] at hauth'
      cases hauth'
    | challenged req h version _ _ _ _ hstate =>
      rw [hstate] at hauth'
      exact absurd (hauth.symm.trans hauth') Bool.false_ne_true
    | admitted signature pending _ hpending hverify =>
      exact ⟨signature, nonce, pending, rfl, hopen, hpending, hverify, heq⟩
  · rw [hstep] at hauth'
    exact absurd (hauth.symm.trans hauth') Bool.false_ne_true

/-- **The authentication gate holds in every run,** if nonces are fresh and only the holder of a key
can make its signatures. -/
theorem authentication_gate {evs : List (Event M)} (hsign : OnlyHoldersSign c evs)
    (hfresh : FreshNonces evs) : Gate c transport registry evs := by
  constructor
  · rintro before ev after rfl w hauth h hh
    exact gate_gated c hauth hh
  · rintro before ev after rfl w w' hauth hauth'
    have hw := history_run c transport registry before
    obtain ⟨signature, unused, pending, rfl, hopen, hpending, hverify, hadmitted⟩ :=
      admitted_of_authenticated c hauth hauth'
    obtain ⟨earlier, req, nonce, later, version, rfl, hlater, rfl, hversion, htoken⟩ :=
      hw.latest hopen hauth pending hpending
    -- the signature was made before the proof, and not before the nonce was drawn
    have hsigned : Event.signs req.publicKey nonce signature ∈ later := by
      have hbefore := hsign _ signature unused after rfl req.publicKey nonce hverify
      rcases List.mem_append.mp hbefore with hmem | hmem
      · have hevs := List.append_assoc earlier (.message (.auth req) nonce :: later)
          (.message (.authProof signature) unused :: after)
        exact absurd hmem ((hfresh earlier req nonce _ hevs).1 req.publicKey signature)
      · exact (List.mem_cons.mp hmem).resolve_left (fun h ↦ by cases h)
    obtain ⟨entry, hentry, hmachine⟩ := machineId_registerClient w.registry w.channel.transport
      req.resume ⟨c.fingerprint req.publicKey, req.hostname, req.username⟩
    have hw' : w' = _ := step_message c (w := w) _ unused hopen
    rw [hadmitted] at hw'
    let reg := (w.registry.registerClient w.channel.transport req.resume
      ⟨c.fingerprint req.publicKey, req.hostname, req.username⟩).2
    refine ⟨earlier, req, nonce, later, signature, unused, rfl, hlater, rfl, hverify, hsigned,
      htoken, ⟨version, ProtocolRange.contains_of_negotiate hversion⟩, reg, entry, ?_, ?_,
      hmachine, ?_, ?_⟩
    · rw [hw', hw.unregistered hauth]
      rfl
    · rw [hw']
      exact hentry
    · rw [hw']
      rfl
    · rw [hw']
      rfl
  · rintro before ev between ev' after nonce rfl hconsumes
    refine not_consumes_of_settled ?_ ev' nonce
    rw [Run.exec_append, Run.exec_cons]
    exact Run.invariant (fun w ev (hw : Settled w) ↦ settled_step hw ev) between _
      (settled_of_consumes hconsumes)
  · have hw := history_run c transport registry evs
    by_cases hauth : (Run.exec (step c) (start transport registry) evs).channel.authenticated = true
    · rw [hw.registered hauth]
    · rw [hw.unregistered (Bool.eq_false_of_not_eq_true hauth)]
      exact Nat.zero_le 1
  · rintro before ev after rfl w hauth
    exact gate_lasting c hauth ev

end Gate

/-! ### A run that gets through -/

/-- An Ed25519 public key. -/
def exampleKey : Bytes :=
  [215, 90, 152, 1, 130, 177, 10, 183, 213, 75, 254, 211, 201, 100, 7, 58,
    14, 225, 114, 243, 218, 166, 35, 37, 175, 2, 26, 104, 247, 7, 81, 26]

def exampleNonce : Bytes :=
  [0, 1, 2, 3, 4, 5, 6, 7, 8, 9, 10, 11, 12, 13, 14, 15,
    16, 17, 18, 19, 20, 21, 22, 23, 24, 25, 26, 27, 28, 29, 30, 31]

/-- The signature that the holder of the key makes over the nonce. -/
def exampleSignature : Bytes :=
  [0, 193, 219, 152, 139, 177, 47, 215, 53, 26, 96, 84, 174, 63, 172, 144,
    250, 183, 228, 252, 86, 177, 101, 28, 113, 129, 245, 245, 95, 137, 111, 102,
    57, 51, 211, 169, 6, 5, 217, 5, 142, 157, 10, 196, 89, 80, 238, 45,
    60, 156, 155, 20, 133, 116, 21, 88, 113, 121, 254, 12, 202, 195, 95, 9]

/-- A daemon that verifies this signature and no other, with the fingerprint of the key. -/
def exampleConfig : Config where
  authToken := [116]
  compressionEnabledFor := fun transport ↦ decide (transport ≠ .uds)
  serverMachineId := ""
  verify publicKey nonce signature :=
    decide ((publicKey, nonce, signature) = (exampleKey, exampleNonce, exampleSignature))
  fingerprint _ := "21fe31dfa154a261626bf854046fd2271b7bed4b6abe45aa58877ef47f9721b9"

def exampleRequest : AuthRequest :=
  ⟨[116], protocolRange, protocolCapabilities, ⟨true, true⟩, none, exampleKey, "host", "user"⟩

/-- A request too early, the handshake, and a request after it. -/
def exampleRun : List (Event String) :=
  [.message (.other "ls") [], .message (.auth exampleRequest) exampleNonce,
    .signs exampleKey exampleNonce exampleSignature, .message (.authProof exampleSignature) [],
    .message (.other "ls") []]

theorem authentication_gate_run :
    Gate exampleConfig .uds ⟨1, 1, 1, ∅⟩ exampleRun ∧
      (Run.exec (step exampleConfig) (start .uds ⟨1, 1, 1, ∅⟩)
        exampleRun).channel.authenticated = true := by
  refine ⟨authentication_gate exampleConfig .uds ⟨1, 1, 1, ∅⟩ ?_ ?_, by decide⟩
  · intro before signature unused after heq publicKey nonce hverify
    have htriple := of_decide_eq_true hverify
    rcases before with _ | ⟨e₁, _ | ⟨e₂, _ | ⟨e₃, _ | ⟨e₄, _ | ⟨e₅, before⟩⟩⟩⟩⟩
    all_goals simp [exampleRun] at heq
    obtain ⟨-, -, rfl, -, -⟩ := heq
    simp_all
  · intro before req nonce after heq
    rcases before with _ | ⟨e₁, _ | ⟨e₂, _ | ⟨e₃, _ | ⟨e₄, _ | ⟨e₅, before⟩⟩⟩⟩⟩
    all_goals simp [exampleRun] at heq
    obtain ⟨rfl, -, -⟩ := heq
    simp

end Kmux.Handshake
