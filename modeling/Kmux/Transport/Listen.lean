import Kmux.Daemon.ServerApp
import Kmux.Transport.SocketAddr

/-!
# Listeners and their texts

A network listener is configured with an address and a port. The daemon prints the two to bind
them and prints them again to announce them, and a client that was told them prints them a third
time to dial. All three texts put a colon between the address as it was configured and the port,
and that is the whole of what is known about an address that survives: an IPv4 literal is read back
from each, an IPv6 literal from none.
-/

namespace Kmux.Transport

open Endpoint (showPort)

/-! ## Configuration -/

inductive ListenKind
  | quic
  | tcpTls
  | unix
  deriving DecidableEq, Repr

/-- Who an endpoint is announced to. -/
inductive Audience
  | any
  | lan
  | «local»
  | sshOnly
  deriving DecidableEq, Repr

/-- A listener. `bind` and `port` count for the network kinds, `path` for the socket. -/
structure ListenConfig where
  kind : ListenKind
  bind : List Char
  port : UInt16
  enabled : Bool
  path : List Char
  audience : Audience
  priority : ℤ

def defaultBind : List Char := "0.0.0.0".toList

def defaultListen : List ListenConfig :=
  [{ kind := .quic, bind := defaultBind, port := 0, enabled := true, path := "auto".toList,
     audience := .any, priority := 0 },
   { kind := .tcpTls, bind := defaultBind, port := 0, enabled := true, path := "auto".toList,
     audience := .any, priority := 0 },
   { kind := .unix, bind := defaultBind, port := 0, enabled := true, path := "auto".toList,
     audience := .local, priority := 0 }]

/-- A listener that binds an address and a port. -/
def ListenConfig.IsNetwork (listener : ListenConfig) : Prop :=
  listener.enabled = true ∧ listener.kind ≠ .unix

instance (listener : ListenConfig) : Decidable listener.IsNetwork :=
  inferInstanceAs (Decidable (_ ∧ _))

/-! ## Binding -/

/-- `{host}:{port}`. -/
def hostPort (host : List Char) (port : UInt16) : List Char := host ++ ':' :: showPort port

/-- The address that a network listener of the daemon binds. -/
def bindAddr (listener : ListenConfig) : Option SocketAddr :=
  parseSocketAddr (hostPort listener.bind listener.port)

/-- The addresses that the daemon binds when it starts. One that cannot be read ends the start. -/
def bindAddrs : List ListenConfig → Option (List SocketAddr)
  | [] => some []
  | listener :: listeners =>
    if listener.IsNetwork then do
      let addr ← bindAddr listener
      return addr :: (← bindAddrs listeners)
    else bindAddrs listeners

/-! ## Announcing -/

/-- How a client reached the server. -/
inductive BootstrapPath
  | uds
  | ssh
  | network (peer : SocketAddr)
  deriving DecidableEq, Repr

structure EndpointAdvert where
  kind : TransportKind
  address : List Char
  deriving DecidableEq, Repr

/-- A byte of an IPv4 address. -/
def octet (addr : BitVec 32) (i : ℕ) : ℕ := addr.toNat / 256 ^ (3 - i) % 256

/-- A group of an IPv6 address. -/
def segment (addr : BitVec 128) (i : ℕ) : ℕ := addr.toNat / 65536 ^ (7 - i) % 65536

def isLoopback : IpAddr → Bool
  | .v4 addr => octet addr 0 = 127
  | .v6 addr => addr = 1

/-- Private, link-local and loopback addresses. -/
def isLanAddress (addr : SocketAddr) : Bool :=
  isLoopback addr.ip ||
    match addr.ip with
    | .v4 v4 =>
      octet v4 0 = 10
        || (octet v4 0 = 172 ∧ 16 ≤ octet v4 1 ∧ octet v4 1 ≤ 31)
        || (octet v4 0 = 192 ∧ octet v4 1 = 168)
        || (octet v4 0 = 169 ∧ octet v4 1 = 254)
    | .v6 v6 => segment v6 0 &&& 0xfe00 = 0xfc00 || segment v6 0 &&& 0xffc0 = 0xfe80

/-- Whether an audience includes the clients of a path. -/
def Audience.passes : Audience → BootstrapPath → Bool
  | .any, _ => true
  | .local, .uds => true
  | .local, .network peer => isLoopback peer.ip
  | .local, .ssh => false
  | .sshOnly, .ssh => true
  | .sshOnly, _ => false
  | .lan, .network peer => isLanAddress peer
  | .lan, _ => false

/-- The advert of one listener; nothing if it is disabled or meant for others. -/
def advertFor (listener : ListenConfig) (path : BootstrapPath) (publicHost : Option (List Char)) :
    Option EndpointAdvert :=
  if listener.enabled = false then none
  else if listener.audience.passes path = false then none
  else
    some
      { kind :=
          match listener.kind with
          | .quic => .quic
          | .tcpTls => .tcpTls
          | .unix => .uds
        address :=
          match listener.kind with
          | .unix => listener.path
          | .quic | .tcpTls => hostPort (publicHost.getD listener.bind) listener.port }

def buildEndpointList (listeners : List ListenConfig) (path : BootstrapPath)
    (publicHost : Option (List Char)) : List EndpointAdvert :=
  listeners.filterMap (advertFor · path publicHost)

/-! ## Dialling -/

/-- The address that a client reads out of a host and a port. -/
def dialAddr (host : List Char) (port : UInt16) : Option SocketAddr :=
  parseSocketAddr (hostPort host port)

/-! ## What survives -/

/-- The texts of a listener are read back as the address it is configured with and its port. -/
structure ListenConfig.Survives (listener : ListenConfig) (ip : IpAddr) : Prop where
  bound : bindAddr listener = some (.new ip listener.port)
  announced : ∀ path advert, advertFor listener path none = some advert →
    parseSocketAddr advert.address = some (.new ip listener.port)
  dialled : dialAddr listener.bind listener.port = some (.new ip listener.port)

/-- A network listener announces the text that it binds. -/
theorem address_of_advertFor {listener : ListenConfig} (hnetwork : listener.IsNetwork)
    {path : BootstrapPath} {advert : EndpointAdvert}
    (h : advertFor listener path none = some advert) :
    advert.address = hostPort listener.bind listener.port := by
  rw [advertFor] at h
  split_ifs at h
  rw [← Option.some.inj h]
  cases hkind : listener.kind with
  | quic => rfl
  | tcpTls => rfl
  | unix => exact absurd hkind hnetwork.2

theorem survives_v4 {listener : ListenConfig} (hnetwork : listener.IsNetwork) {addr : BitVec 32}
    (hbind : parseIpAddr listener.bind = some (.v4 addr)) : listener.Survives (.v4 addr) where
  bound := parseSocketAddr_v4 hbind listener.port
  announced path advert h := by
    rw [address_of_advertFor hnetwork h]
    exact parseSocketAddr_v4 hbind listener.port
  dialled := parseSocketAddr_v4 hbind listener.port

theorem bindAddr_v6 {listener : ListenConfig} {addr : BitVec 128}
    (hbind : parseIpAddr listener.bind = some (.v6 addr)) : bindAddr listener = none :=
  parseSocketAddr_v6 hbind listener.port

/-- The texts of an enabled network listener survive exactly where its address is an IPv4 one. -/
theorem addresses_survive_iff {listener : ListenConfig} (hnetwork : listener.IsNetwork)
    {ip : IpAddr} (hbind : parseIpAddr listener.bind = some ip) :
    listener.Survives ip ↔ ∃ addr, ip = .v4 addr := by
  constructor
  · intro h
    cases ip with
    | v4 addr => exact ⟨addr, rfl⟩
    | v6 addr =>
      have hbound := h.bound
      rw [bindAddr_v6 hbind] at hbound
      cases hbound
  · rintro ⟨addr, rfl⟩
    exact survives_v4 hnetwork hbind

theorem addresses_survive_iff_localhost :
    let listener : ListenConfig :=
      { kind := .quic, bind := "127.0.0.1".toList, port := 8443, enabled := true,
        path := "auto".toList, audience := .any, priority := 0 }
    listener.Survives (.v4 0x7f000001) ↔ ∃ addr, IpAddr.v4 0x7f000001 = .v4 addr :=
  addresses_survive_iff (by decide) (by decide)

/-- The unspecified IPv6 address and a port are bound by a text that nothing can read. -/
theorem addresses_survive_unspecified :
    let listener : ListenConfig :=
      { kind := .quic, bind := "::".toList, port := 8443, enabled := true, path := "auto".toList,
        audience := .any, priority := 0 }
    listener.IsNetwork ∧ parseIpAddr listener.bind = some (.v6 0) ∧ ¬listener.Survives (.v6 0) ∧
      bindAddr listener = none ∧
      (advertFor listener .uds none).map (parseSocketAddr ·.address) = some none ∧
      dialAddr listener.bind listener.port = none := by
  refine ⟨by decide, by decide, fun h ↦ ?_, by decide, by decide, by decide⟩
  exact absurd h.bound (by decide)

/-- One listener on an IPv6 literal keeps the daemon from starting. -/
theorem bindAddrs_eq_none {listeners : List ListenConfig} {listener : ListenConfig}
    (hmem : listener ∈ listeners) (hnetwork : listener.IsNetwork) {addr : BitVec 128}
    (hbind : parseIpAddr listener.bind = some (.v6 addr)) : bindAddrs listeners = none := by
  induction listeners with
  | nil => cases hmem
  | cons first listeners ih =>
    rcases List.mem_cons.mp hmem with rfl | hmem
    · simp [bindAddrs, hnetwork, bindAddr_v6 hbind]
    · simp [bindAddrs, ih hmem]

/-- The listeners that are there by default survive. -/
theorem defaultListen_survives {listener : ListenConfig} (hmem : listener ∈ defaultListen)
    (hnetwork : listener.IsNetwork) : listener.Survives (.v4 0) := by
  have hbind : listener.bind = defaultBind := by
    simp only [defaultListen, List.mem_cons, List.not_mem_nil, or_false] at hmem
    rcases hmem with rfl | rfl | rfl <;> rfl
  exact survives_v4 hnetwork (hbind ▸ by decide)

/-- What is announced for listeners on IPv4 literals can be dialled. -/
theorem buildEndpointList_survives {listeners : List ListenConfig}
    (hv4 : ∀ listener ∈ listeners, listener.IsNetwork →
      ∃ addr, parseIpAddr listener.bind = some (.v4 addr))
    {path : BootstrapPath} {advert : EndpointAdvert}
    (hmem : advert ∈ buildEndpointList listeners path none) (hkind : advert.kind ≠ .uds) :
    ∃ addr, parseSocketAddr advert.address = some addr := by
  obtain ⟨listener, hlistener, hadvert⟩ := List.mem_filterMap.mp hmem
  have hnetwork : listener.IsNetwork := by
    have h := hadvert
    rw [advertFor] at h
    split_ifs at h with hdisabled
    refine ⟨by simpa using hdisabled, fun hunix ↦ hkind ?_⟩
    rw [← Option.some.inj h, hunix]
  obtain ⟨addr, hbind⟩ := hv4 listener hlistener hnetwork
  exact ⟨_, (survives_v4 hnetwork hbind).announced path advert hadvert⟩

end Kmux.Transport
