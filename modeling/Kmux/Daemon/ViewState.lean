import Kmux.Daemon.EffectiveSize
import Kmux.Daemon.ServerApp
import Mathlib.Data.Finset.Basic
import Mathlib.Logic.Function.Basic

/-!
# Snapshot mode across attachments

A client asks for whole snapshots once, and the daemon keeps the answer with each attachment: in the
`ClientSender` of a pane it hosts, in the `Viewer` of a pane it proxies. An attach makes a new
record and copies the flag from the one it replaces. Whether there is one to replace depends on how
the client came to attach again: a channel that holds the pane detaches it first, a lag has evicted
the record, and a pane that is attached for the first time never had one.

`ViewState` is the daemon's panes, hosted and proxied, and the panes each channel holds, with the
last value every client sent. `snapshot_mode_survives_iff` says when the flags are that value.
-/

namespace Kmux

/-! ## Proxied panes -/

/-- A viewer of a proxied pane, with the settings of its stream. -/
structure ProxyViewer where
  ctrlTx : ChannelId
  size : TermSize
  paused : Bool
  pauseAuto : Bool
  noAutoPause : Bool
  snapshotMode : Bool
  deriving DecidableEq, Repr

namespace ProxyViewer

/-- A viewer that streams diffs. -/
def new (ctrlTx : ChannelId) (size : TermSize) : ProxyViewer :=
  { ctrlTx, size, paused := false, pauseAuto := false, noAutoPause := false, snapshotMode := false }

def outputPaused (v : ProxyViewer) : Bool := v.paused && !(v.pauseAuto && v.noAutoPause)

end ProxyViewer

/-- The viewers of a proxied pane. -/
abbrev ProxyViewers := Table ProxyViewer

namespace ProxyViewers

def modify (vs : ProxyViewers) (client : ClientId) (f : ProxyViewer → ProxyViewer) :
    ProxyViewers :=
  match vs.lookup client with
  | some v => vs.insert client (f v)
  | none => vs

/-- The viewers a frame finds unable to take it. -/
def dead (vs : ProxyViewers) (answer : ClientId → TrySend) : List ClientId :=
  (vs.entries.filter fun e ↦ !e.2.outputPaused && decide (answer e.1 ≠ .ok)).map fun e ↦ e.1

/-- `fan_out`, as far as the viewers go. -/
def fanOut (vs : ProxyViewers) (answer : ClientId → TrySend) : ProxyViewers :=
  (vs.dead answer).foldl (fun vs c ↦ vs.erase c) vs

end ProxyViewers

/-! ## Panes of either kind -/

/-- Where a pane runs, with its attachments. A proxied pane that nobody attached has no entry. -/
inductive PaneHost (B : Type*)
  | hosted (relay : PaneRelay B)
  | proxied (viewers : Option ProxyViewers)

namespace PaneHost

variable {B : Type*} [TerminalBackend B]

/-- Attach a client: `ServerApp::attach`, or `PeerManager::attach_viewer`. -/
def attach (h : PaneHost B) (client : ClientId) (lastSeqno : Option SequenceNo) (size : TermSize)
    (ctrl : ChannelId) (capabilities : ClientCapabilities) : PaneHost B :=
  match h with
  | .hosted relay => .hosted (relay.attach client lastSeqno size ctrl capabilities).1
  | .proxied none => .proxied (some (AList.insert client (ProxyViewer.new ctrl size) ∅))
  | .proxied (some vs) =>
    let snapshotMode := (vs.lookup client).elim false fun old ↦ old.snapshotMode
    .proxied (some (vs.insert client { ProxyViewer.new ctrl size with snapshotMode }))

/-- `detach_pane_any`. The last viewer of a proxied pane takes the entry along. -/
def detach (h : PaneHost B) (client : ClientId) : PaneHost B :=
  match h with
  | .hosted relay => .hosted (relay.detachFromPane client).1
  | .proxied none => .proxied none
  | .proxied (some vs) =>
    if (vs.erase client).keys = [] then .proxied none else .proxied (some (vs.erase client))

/-- `detach_channel`, at one pane. -/
def detachChannel (h : PaneHost B) (client : ClientId) (ctrl : ChannelId) : PaneHost B :=
  match h with
  | .hosted relay => .hosted (relay.detachChannel client ctrl).1
  | .proxied none => .proxied none
  | .proxied (some vs) =>
    if (vs.lookup client).any fun v ↦ decide (v.ctrlTx = ctrl) then
      detach (.proxied (some vs)) client
    else .proxied (some vs)

def setSnapshotMode (h : PaneHost B) (client : ClientId) (enabled : Bool) : PaneHost B :=
  match h with
  | .hosted relay => .hosted (relay.step (.setSnapshotMode client enabled))
  | .proxied vs =>
    .proxied (vs.map fun vs ↦ vs.modify client fun v ↦ { v with snapshotMode := enabled })

def setPaused (h : PaneHost B) (client : ClientId) (paused auto : Bool) : PaneHost B :=
  match h with
  | .hosted relay => .hosted (relay.step (.setPaused client paused auto))
  | .proxied vs =>
    .proxied (vs.map fun vs ↦ vs.modify client fun v ↦ { v with paused, pauseAuto := auto })

def setPaneNoAutoPause (h : PaneHost B) (client : ClientId) (exempt : Bool) : PaneHost B :=
  match h with
  | .hosted relay => .hosted (relay.step (.setPaneNoAutoPause client exempt))
  | .proxied vs =>
    .proxied (vs.map fun vs ↦ vs.modify client fun v ↦ { v with noAutoPause := exempt })

/-- A frame of the pane is sent to everybody attached, which evicts those that lag. -/
def frame (h : PaneHost B) (message : ServerMessage) (seqno : SequenceNo)
    (answer : ClientId → TrySend) : PaneHost B :=
  match h with
  | .hosted relay => .hosted (relay.step (.broadcast message seqno answer))
  | .proxied vs => .proxied (vs.map fun vs ↦ vs.fanOut answer)

omit [TerminalBackend B] in
/-- The snapshot mode of a client that is attached. -/
def snapshotMode (h : PaneHost B) (client : ClientId) : Option Bool :=
  match h with
  | .hosted relay => (relay.clients.lookup client).map ClientSender.forceFullSnapshot
  | .proxied vs => (vs.bind fun vs ↦ vs.lookup client).map ProxyViewer.snapshotMode

end PaneHost

/-! ## The daemon and its channels -/

/-- The panes of the daemon, and which of them each channel holds a stream of. -/
structure ViewState (B : Type*) where
  panes : PaneId → Option (PaneHost B)
  attached : ChannelId → Finset PaneId
  /-- The last value each client sent in `SetSnapshotMode`. -/
  requested : ClientId → Bool

inductive ViewEvent (B : Type*)
  | setSnapshotMode (client : ClientId) (enabled : Bool)
  /-- `started` is whether the pane's stream could be started. -/
  | attach (client : ClientId) (ctrl : ChannelId) (pane : PaneId) (lastSeqno : Option SequenceNo)
      (size : TermSize) (capabilities : ClientCapabilities) (started : Bool)
  | detach (client : ClientId) (ctrl : ChannelId) (pane : PaneId)
  | setPaused (client : ClientId) (paused auto : Bool)
  | setPaneNoAutoPause (client : ClientId) (pane : PaneId) (exempt : Bool)
  /-- A frame of a pane goes out, and the data lanes answer. -/
  | frame (pane : PaneId) (message : ServerMessage) (seqno : SequenceNo)
      (answer : ClientId → TrySend)
  | channelEnds (client : ClientId) (ctrl : ChannelId)
  /-- A pane is spawned here. -/
  | spawn (pane : PaneId) (backend : B) (size : TermSize)
  /-- A pane of a peer gets a local name. -/
  | proxy (pane : PaneId)
  | close (pane : PaneId)

namespace ViewState

variable {B : Type*} [TerminalBackend B]

omit [TerminalBackend B] in
def start : ViewState B :=
  { panes := fun _ ↦ none, attached := fun _ ↦ ∅, requested := fun _ ↦ false }

omit [TerminalBackend B] in
def onPane (s : ViewState B) (pane : PaneId) (f : PaneHost B → PaneHost B) : ViewState B :=
  { s with panes := Function.update s.panes pane ((s.panes pane).map f) }

omit [TerminalBackend B] in
def onPanes (s : ViewState B) (f : PaneHost B → PaneHost B) : ViewState B :=
  { s with panes := fun pane ↦ (s.panes pane).map f }

omit [TerminalBackend B] in
def hold (s : ViewState B) (ctrl : ChannelId) (held : Finset PaneId) : ViewState B :=
  { s with attached := Function.update s.attached ctrl held }

/-- Give a pane up, if the channel holds it. -/
def onDetach (s : ViewState B) (client : ClientId) (ctrl : ChannelId) (pane : PaneId) :
    ViewState B :=
  if pane ∈ s.attached ctrl then
    (s.hold ctrl ((s.attached ctrl).erase pane)).onPane pane fun h ↦ h.detach client
  else s

def onAttach (s : ViewState B) (client : ClientId) (ctrl : ChannelId) (pane : PaneId)
    (lastSeqno : Option SequenceNo) (size : TermSize) (capabilities : ClientCapabilities)
    (started : Bool) : ViewState B :=
  -- if already attached, detach first
  let s := s.onDetach client ctrl pane
  match s.panes pane with
  | none => s
  | some _ =>
    let s := s.onPane pane fun h ↦ h.attach client lastSeqno size ctrl capabilities
    if started then s.hold ctrl (insert pane (s.attached ctrl)) else s

def step (s : ViewState B) : ViewEvent B → ViewState B
  | .setSnapshotMode client enabled =>
    { s with requested := Function.update s.requested client enabled }.onPanes fun h ↦
      h.setSnapshotMode client enabled
  | .attach client ctrl pane lastSeqno size capabilities started =>
    s.onAttach client ctrl pane lastSeqno size capabilities started
  | .detach client ctrl pane => s.onDetach client ctrl pane
  | .setPaused client paused auto => s.onPanes fun h ↦ h.setPaused client paused auto
  | .setPaneNoAutoPause client pane exempt =>
    s.onPane pane fun h ↦ h.setPaneNoAutoPause client exempt
  | .frame pane message seqno answer => s.onPane pane fun h ↦ h.frame message seqno answer
  | .channelEnds client ctrl =>
    (s.hold ctrl ∅).onPanes fun h ↦ h.detachChannel client ctrl
  | .spawn pane backend size =>
    { s with panes := Function.update s.panes pane (some (.hosted (PaneRelay.new backend size))) }
  | .proxy pane => { s with panes := Function.update s.panes pane (some (.proxied none)) }
  | .close pane => { s with panes := Function.update s.panes pane none }

omit [TerminalBackend B] in
/-- The snapshot mode of a client at a pane it is attached to. -/
def snapshotMode (s : ViewState B) (client : ClientId) (pane : PaneId) : Option Bool :=
  (s.panes pane).bind fun h ↦ h.snapshotMode client

omit [TerminalBackend B] in
/-- **Snapshot mode survives**: wherever a client is attached its mode is what it last asked for. -/
def Survives (s : ViewState B) : Prop :=
  ∀ client pane enabled, s.snapshotMode client pane = some enabled → enabled = s.requested client

omit [TerminalBackend B] in
/-- The condition on one event: a client in snapshot mode attaches to a pane only where it is
attached already, and through a channel that does not hold the pane. -/
def Guarded (s : ViewState B) : ViewEvent B → Prop
  | .attach client ctrl pane _ _ _ _ =>
    s.requested client = true → s.panes pane ≠ none →
      pane ∉ s.attached ctrl ∧ s.snapshotMode client pane ≠ none
  | _ => True

end ViewState

/-! ## What each operation does to the mode of a client -/

namespace ProxyViewers

theorem lookup_modify (vs : ProxyViewers) (client c : ClientId) (f : ProxyViewer → ProxyViewer) :
    (vs.modify client f).lookup c =
      if c = client then (vs.lookup client).map f else vs.lookup c := by
  rw [modify]
  rcases hv : vs.lookup client with _ | v
  · by_cases hc : c = client
    · rw [if_pos hc, hc]
      exact hv
    · rw [if_neg hc]
  · exact Table.lookup_insert_eq vs client c (f v)

/-- What a modification leaves alone reads the same for every viewer. -/
theorem map_lookup_modify {α : Type*} (vs : ProxyViewers) (client c : ClientId)
    {f : ProxyViewer → ProxyViewer} {g : ProxyViewer → α} (hf : ∀ v, g (f v) = g v) :
    ((vs.modify client f).lookup c).map g = (vs.lookup c).map g := by
  rw [lookup_modify]
  split
  next hc =>
    rw [Option.map_map, hc]
    exact Option.map_congr fun v _ ↦ hf v
  next => rfl

theorem lookup_of_lookup_fanOut {vs : ProxyViewers} {answer : ClientId → TrySend} {c : ClientId}
    {v : ProxyViewer} (h : (vs.fanOut answer).lookup c = some v) : vs.lookup c = some v := by
  rw [fanOut] at h
  generalize vs.dead answer = dead at h
  induction dead generalizing vs with
  | nil => exact h
  | cons d dead ih =>
    rw [List.foldl_cons] at h
    exact (Table.lookup_erase_eq_some (ih h)).2

end ProxyViewers

namespace PaneHost

variable {B : Type*} [TerminalBackend B]

/-- **An attach copies the mode of the record it replaces**, and has none to copy otherwise. -/
theorem snapshotMode_attach (h : PaneHost B) (client : ClientId) (lastSeqno : Option SequenceNo)
    (size : TermSize) (ctrl : ChannelId) (capabilities : ClientCapabilities) (c : ClientId) :
    (h.attach client lastSeqno size ctrl capabilities).snapshotMode c
      = if c = client then some ((h.snapshotMode client).getD false) else h.snapshotMode c := by
  rcases h with relay | _ | vs
  · show ((relay.attach client lastSeqno size ctrl capabilities).1.clients.lookup c).map _ = _
    rw [PaneRelay.attach, PaneRelay.reconcile_clients, PaneRelay.recomputeLiveCapabilities_clients,
      Table.lookup_insert_eq]
    split
    · show _ = some (((relay.clients.lookup client).map ClientSender.forceFullSnapshot).getD false)
      rcases relay.clients.lookup client with _ | sender
      · rfl
      · rfl
    · rfl
  · show (((AList.insert client (ProxyViewer.new ctrl size) ∅ : ProxyViewers)).lookup c).map _ = _
    rw [Table.lookup_insert_eq]
    split
    · rfl
    · rfl
  · show ((AList.insert client _ vs : ProxyViewers).lookup c).map _ = _
    rw [Table.lookup_insert_eq]
    split
    · show _ = some (((vs.lookup client).map ProxyViewer.snapshotMode).getD false)
      rcases vs.lookup client with _ | v
      · rfl
      · rfl
    · rfl

theorem snapshotMode_detach (h : PaneHost B) (client c : ClientId) :
    (h.detach client).snapshotMode c = if c = client then none else h.snapshotMode c := by
  rcases h with relay | _ | vs
  · show ((relay.detachFromPane client).1.clients.lookup c).map _ = _
    rw [PaneRelay.detachFromPane, PaneRelay.reconcile_clients, PaneRelay.removeClient_clients,
      Table.lookup_erase_eq]
    split
    · rfl
    · rfl
  · exact (ite_self none).symm
  · have herase : (PaneHost.proxied (some (vs.erase client)) : PaneHost B).snapshotMode c
        = if c = client then none
          else (PaneHost.proxied (some vs) : PaneHost B).snapshotMode c := by
      show ((vs.erase client).lookup c).map _ = _
      rw [Table.lookup_erase_eq]
      split
      · rfl
      · rfl
    rw [detach]
    split
    next hempty =>
      rw [← herase]
      show none = ((vs.erase client).lookup c).map _
      rw [AList.lookup_eq_none.mpr fun hmem ↦ by
        rw [AList.mem_keys, hempty] at hmem
        cases hmem]
      rfl
    next => exact herase

theorem snapshotMode_of_detachChannel {h : PaneHost B} {client c : ClientId} {ctrl : ChannelId}
    {enabled : Bool} (hc : (h.detachChannel client ctrl).snapshotMode c = some enabled) :
    h.snapshotMode c = some enabled := by
  have hdetach : (h.detach client).snapshotMode c = some enabled →
      h.snapshotMode c = some enabled := by
    rw [snapshotMode_detach]
    split
    · exact fun hnone ↦ by cases hnone
    · exact id
  rcases h with relay | _ | vs
  · rw [detachChannel, PaneRelay.detachChannel] at hc
    split at hc
    · exact hdetach hc
    · exact hc
  · exact hc
  · rw [detachChannel] at hc
    split at hc
    · exact hdetach hc
    · exact hc

theorem snapshotMode_setSnapshotMode (h : PaneHost B) (client : ClientId) (enabled : Bool)
    (c : ClientId) : (h.setSnapshotMode client enabled).snapshotMode c
      = if c = client then (h.snapshotMode client).map fun _ ↦ enabled else h.snapshotMode c := by
  rcases h with relay | _ | vs
  · show ((relay.clients.modify client _).lookup c).map _ = _
    rw [ClientMap.lookup_modify]
    split
    · show _ = ((relay.clients.lookup client).map _).map _
      rw [Option.map_map, Option.map_map]
      rfl
    · rfl
  · exact (ite_self none).symm
  · show ((vs.modify client _).lookup c).map _ = _
    rw [ProxyViewers.lookup_modify]
    split
    · show _ = ((vs.lookup client).map _).map _
      rw [Option.map_map, Option.map_map]
      rfl
    · rfl

theorem snapshotMode_setPaused (h : PaneHost B) (client : ClientId) (paused auto : Bool)
    (c : ClientId) : (h.setPaused client paused auto).snapshotMode c = h.snapshotMode c := by
  rcases h with relay | _ | vs
  · show ((relay.clients.modify client _).lookup c).map _ = (relay.clients.lookup c).map _
    exact relay.clients.map_lookup_modify client c fun _ ↦ rfl
  · rfl
  · show ((vs.modify client _).lookup c).map _ = (vs.lookup c).map _
    exact vs.map_lookup_modify client c fun _ ↦ rfl

theorem snapshotMode_setPaneNoAutoPause (h : PaneHost B) (client : ClientId) (exempt : Bool)
    (c : ClientId) : (h.setPaneNoAutoPause client exempt).snapshotMode c = h.snapshotMode c := by
  rcases h with relay | _ | vs
  · show ((relay.clients.modify client _).lookup c).map _ = (relay.clients.lookup c).map _
    exact relay.clients.map_lookup_modify client c fun _ ↦ rfl
  · rfl
  · show ((vs.modify client _).lookup c).map _ = (vs.lookup c).map _
    exact vs.map_lookup_modify client c fun _ ↦ rfl

/-- A frame can only evict. -/
theorem snapshotMode_of_frame {h : PaneHost B} {message : ServerMessage} {seqno : SequenceNo}
    {answer : ClientId → TrySend} {c : ClientId} {enabled : Bool}
    (hc : (h.frame message seqno answer).snapshotMode c = some enabled) :
    h.snapshotMode c = some enabled := by
  rcases h with relay | _ | vs
  · obtain ⟨sender, hsender, rfl⟩ := Option.map_eq_some_iff.mp hc
    have hleft : relay.clients.lookup c = some sender :=
      PaneRelay.lookup_of_lookup_eraseAll hsender
    exact Option.map_eq_some_iff.mpr ⟨sender, hleft, rfl⟩
  · exact hc
  · obtain ⟨v, hv, rfl⟩ := Option.map_eq_some_iff.mp hc
    exact Option.map_eq_some_iff.mpr ⟨v, ProxyViewers.lookup_of_lookup_fanOut hv, rfl⟩

end PaneHost

/-! ## Runs -/

namespace ViewState

variable {B : Type*}

theorem snapshotMode_onPane (s : ViewState B) (pane p : PaneId) (f : PaneHost B → PaneHost B)
    (c : ClientId) : (s.onPane pane f).snapshotMode c p
      = if p = pane then (s.panes pane).bind fun h ↦ (f h).snapshotMode c
        else s.snapshotMode c p := by
  by_cases hp : p = pane
  · rw [if_pos hp, hp]
    show ((Function.update s.panes pane ((s.panes pane).map f)) pane).bind _ = _
    rw [Function.update_self, Option.bind_map]
    rfl
  · rw [if_neg hp]
    show ((Function.update s.panes pane ((s.panes pane).map f)) p).bind _ = _
    rw [Function.update_of_ne hp]
    rfl

/-- An operation on one pane that makes up no mode. -/
theorem Survives.onPane {s : ViewState B} (h : s.Survives) {pane : PaneId}
    {f : PaneHost B → PaneHost B}
    (hf : ∀ h c enabled, (f h).snapshotMode c = some enabled → h.snapshotMode c = some enabled) :
    (s.onPane pane f).Survives := by
  intro c p enabled hc
  rw [snapshotMode_onPane] at hc
  split at hc
  next hp =>
    obtain ⟨host, hhost, hmode⟩ := Option.bind_eq_some_iff.mp hc
    exact h c pane enabled (Option.bind_eq_some_iff.mpr ⟨host, hhost, hf host c enabled hmode⟩)
  next => exact h c p enabled hc

theorem Survives.onPanes {s : ViewState B} (h : s.Survives) {f : PaneHost B → PaneHost B}
    (hf : ∀ h c enabled, (f h).snapshotMode c = some enabled → h.snapshotMode c = some enabled) :
    (s.onPanes f).Survives := by
  intro c p enabled hc
  obtain ⟨host, hhost, hmode⟩ := Option.bind_eq_some_iff.mp hc
  obtain ⟨old, hold, rfl⟩ := Option.map_eq_some_iff.mp hhost
  exact h c p enabled (Option.bind_eq_some_iff.mpr ⟨old, hold, hf old c enabled hmode⟩)

/-- A pane that comes or goes with nobody attached. -/
theorem Survives.replace {s : ViewState B} (h : s.Survives) (pane : PaneId)
    {host : Option (PaneHost B)} (hempty : ∀ c, host.bind (fun h ↦ h.snapshotMode c) = none) :
    ({ s with panes := Function.update s.panes pane host } : ViewState B).Survives := by
  intro c p enabled hc
  by_cases hp : p = pane
  · have hnone : (Function.update s.panes pane host p).bind (fun h ↦ h.snapshotMode c) = none := by
      rw [hp, Function.update_self]
      exact hempty c
    cases hnone.symm.trans hc
  · have hsame : (Function.update s.panes pane host p).bind (fun h ↦ h.snapshotMode c)
        = s.snapshotMode c p := by
      rw [Function.update_of_ne hp]
      rfl
    exact h c p enabled (hsame.symm.trans hc)

variable [TerminalBackend B]

theorem Survives.onDetach {s : ViewState B} (h : s.Survives) (client : ClientId) (ctrl : ChannelId)
    (pane : PaneId) : (s.onDetach client ctrl pane).Survives := by
  rw [ViewState.onDetach]
  split
  · refine Survives.onPane (s := s.hold ctrl ((s.attached ctrl).erase pane)) h
      fun host c enabled hc ↦ ?_
    rw [PaneHost.snapshotMode_detach] at hc
    split at hc
    · cases hc
    · exact hc
  · exact h

/-- What a client that attaches is known by when its stream has been given up. -/
theorem snapshotMode_onDetach (s : ViewState B) (client : ClientId) (ctrl : ChannelId)
    (pane : PaneId) : (s.onDetach client ctrl pane).snapshotMode client pane
      = if pane ∈ s.attached ctrl then none else s.snapshotMode client pane := by
  rw [onDetach]
  split
  · rw [snapshotMode_onPane, if_pos rfl]
    show (s.panes pane).bind _ = none
    rcases s.panes pane with _ | host
    · rfl
    · show (host.detach client).snapshotMode client = none
      rw [PaneHost.snapshotMode_detach, if_pos rfl]
  · rfl

theorem panes_onDetach (s : ViewState B) (client : ClientId) (ctrl : ChannelId) (pane : PaneId) :
    (s.onDetach client ctrl pane).panes pane = none ↔ s.panes pane = none := by
  rw [onDetach]
  split
  · show Function.update s.panes pane _ pane = none ↔ _
    rw [Function.update_self, Option.map_eq_none_iff]
    rfl
  · exact Iff.rfl

theorem requested_onDetach (s : ViewState B) (client : ClientId) (ctrl : ChannelId)
    (pane : PaneId) : (s.onDetach client ctrl pane).requested = s.requested := by
  rw [onDetach]
  split
  · rfl
  · rfl

/-- **An attach.** -/
theorem Survives.onAttach_iff {s : ViewState B} (h : s.Survives) (client : ClientId)
    (ctrl : ChannelId) (pane : PaneId) (lastSeqno : Option SequenceNo) (size : TermSize)
    (capabilities : ClientCapabilities) (started : Bool) :
    (s.onAttach client ctrl pane lastSeqno size capabilities started).Survives ↔
      (s.requested client = true → s.panes pane ≠ none →
        pane ∉ s.attached ctrl ∧ s.snapshotMode client pane ≠ none) := by
  have hmode := s.snapshotMode_onDetach client ctrl pane
  have hpanes := s.panes_onDetach client ctrl pane
  have hrequested := s.requested_onDetach client ctrl pane
  have hleft := h.onDetach client ctrl pane
  rw [onAttach]
  set s' := s.onDetach client ctrl pane with hs'
  rcases hhost : s'.panes pane with _ | host
  · exact iff_of_true hleft fun _ hsome ↦ absurd (hpanes.mp hhost) hsome
  · have hsome : s.panes pane ≠ none := fun hnone ↦ by
      rw [hpanes.mpr hnone] at hhost
      cases hhost
    -- the record that the attach makes, at this pane and for this client only
    have hattached : ∀ c p, (s'.onPane pane fun h ↦
          h.attach client lastSeqno size ctrl capabilities).snapshotMode c p
        = if p = pane ∧ c = client then some ((s'.snapshotMode client pane).getD false)
          else s'.snapshotMode c p := by
      intro c p
      have hbind : ∀ c, s'.snapshotMode c pane = host.snapshotMode c := fun c ↦ by
        rw [ViewState.snapshotMode, hhost, Option.bind_some]
      rw [snapshotMode_onPane, hhost, Option.bind_some, PaneHost.snapshotMode_attach]
      by_cases hp : p = pane
      · rw [if_pos hp, hp, hbind, hbind]
        by_cases hc : c = client
        · rw [if_pos hc, if_pos ⟨rfl, hc⟩]
        · rw [if_neg hc, if_neg fun h ↦ hc h.2]
      · rw [if_neg hp, if_neg fun h ↦ hp h.1]
    have hsurvives : (s'.onPane pane fun h ↦
          h.attach client lastSeqno size ctrl capabilities).Survives ↔
        (s'.snapshotMode client pane).getD false = s'.requested client := by
      constructor
      · exact fun hall ↦ hall client pane _ ((hattached client pane).trans (if_pos ⟨rfl, rfl⟩))
      · intro heq c p enabled hc
        rw [hattached] at hc
        split at hc
        next hboth =>
          rw [← Option.some.inj hc, hboth.2]
          exact heq
        next => exact hleft c p enabled hc
    have hheld : (if started then (s'.onPane pane fun h ↦
          h.attach client lastSeqno size ctrl capabilities).hold ctrl
            (insert pane (s'.attached ctrl))
        else s'.onPane pane fun h ↦
          h.attach client lastSeqno size ctrl capabilities).Survives ↔
        (s'.snapshotMode client pane).getD false = s.requested client := by
      rw [← hrequested, ← hsurvives]
      cases started
      · exact Iff.rfl
      · exact Iff.rfl
    refine hheld.trans ?_
    rw [hmode]
    by_cases hin : pane ∈ s.attached ctrl
    · rw [if_pos hin]
      refine ⟨fun heq hon ↦ ?_, fun himp ↦ ?_⟩
      · rw [hon] at heq
        cases heq
      · rcases hreq : s.requested client with _ | _
        · rfl
        · exact absurd hin (himp hreq hsome).1
    · rw [if_neg hin]
      rcases hold : s.snapshotMode client pane with _ | enabled
      · refine ⟨fun heq hon ↦ ?_, fun himp ↦ ?_⟩
        · rw [hon] at heq
          cases heq
        · rcases hreq : s.requested client with _ | _
          · rfl
          · exact absurd rfl (himp hreq hsome).2
      · exact iff_of_true (h client pane enabled hold) fun _ _ ↦ ⟨hin, Option.some_ne_none enabled⟩

/-- **One event.** Only an attach can lose a mode. -/
theorem Survives.step_iff {s : ViewState B} (h : s.Survives) (e : ViewEvent B) :
    (s.step e).Survives ↔ s.Guarded e := by
  cases e with
  | setSnapshotMode client enabled =>
    refine iff_of_true (fun c p b hc ↦ ?_) trivial
    obtain ⟨host, hhost, hmode⟩ := Option.bind_eq_some_iff.mp hc
    obtain ⟨old, hold, rfl⟩ := Option.map_eq_some_iff.mp hhost
    show b = Function.update s.requested client enabled c
    rw [PaneHost.snapshotMode_setSnapshotMode] at hmode
    by_cases hcl : c = client
    · rw [if_pos hcl] at hmode
      obtain ⟨-, -, rfl⟩ := Option.map_eq_some_iff.mp hmode
      rw [hcl, Function.update_self]
    · rw [if_neg hcl] at hmode
      rw [Function.update_of_ne hcl]
      exact h c p b (Option.bind_eq_some_iff.mpr ⟨old, hold, hmode⟩)
  | attach client ctrl pane lastSeqno size capabilities started =>
    exact h.onAttach_iff client ctrl pane lastSeqno size capabilities started
  | detach client ctrl pane => exact iff_of_true (h.onDetach client ctrl pane) trivial
  | setPaused client paused auto =>
    exact iff_of_true (h.onPanes fun host c _ hc ↦
      (host.snapshotMode_setPaused client paused auto c).symm.trans hc) trivial
  | setPaneNoAutoPause client pane exempt =>
    exact iff_of_true (h.onPane fun host c _ hc ↦
      (host.snapshotMode_setPaneNoAutoPause client exempt c).symm.trans hc) trivial
  | frame pane message seqno answer =>
    exact iff_of_true (h.onPane fun _ _ _ hc ↦ PaneHost.snapshotMode_of_frame hc) trivial
  | channelEnds client ctrl =>
    exact iff_of_true (Survives.onPanes (s := s.hold ctrl ∅) h fun _ _ _ hc ↦
      PaneHost.snapshotMode_of_detachChannel hc) trivial
  | spawn pane backend size => exact iff_of_true (h.replace pane fun _ ↦ rfl) trivial
  | proxy pane => exact iff_of_true (h.replace pane fun _ ↦ rfl) trivial
  | close pane => exact iff_of_true (h.replace pane fun _ ↦ rfl) trivial

/-- **Snapshot mode across attachments.** Over any run, a client's mode at every pane it is attached
to is the last one it asked for, after every prefix, if and only if a client in snapshot mode never
attaches to a pane that its channel holds already or that it is not attached to. -/
theorem snapshot_mode_survives_iff (es : List (ViewEvent B)) :
    Run.Ok step Guarded (start : ViewState B) es ↔
      ∀ n, (Run.exec step (start : ViewState B) (es.take n)).Survives := by
  have hstart : (start : ViewState B).Survives := fun c p b hc ↦ by cases hc
  have hstep : ∀ (s : ViewState B) (e : ViewEvent B), True → s.Survives → s.Guarded e →
      (s.step e).Survives := fun s e _ h hguard ↦ (h.step_iff e).mpr hguard
  exact Run.ok_iff_safe (fun _ h ↦ h) hstep (fun s e _ h hs ↦ (Survives.step_iff h e).mp hs) es
    (fun _ _ ↦ trivial) _ hstart

/-- A client attaches to a pane, asks for snapshots, and attaches again on the same channel. -/
def attachAgain : List (ViewEvent MockBackend) :=
  [.spawn ("elm", 0) (MockBackend.new 2 2) ⟨2, 2, 0, 0⟩,
    .attach 1 1 ("elm", 0) none ⟨2, 2, 0, 0⟩ ⟨false, false⟩ true,
    .setSnapshotMode 1 true,
    .attach 1 1 ("elm", 0) none ⟨2, 2, 0, 0⟩ ⟨false, false⟩ true]

/-- It is sent diffs. -/
theorem snapshot_mode_lost :
    ¬∀ n, (Run.exec step (start : ViewState MockBackend) (attachAgain.take n)).Survives := by
  intro h
  exact absurd (h 4 1 ("elm", 0) false (by decide)) (by decide)

end ViewState

end Kmux
