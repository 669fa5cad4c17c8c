import Kmux.Protocol.Vt
import Kmux.Session.Restore

/-!
# Reading an old checkpoint

A checkpoint starts with the version of its schema. It is read in that schema and then brought to
the current one in up to three steps: panes get arguments, sessions get tabs, and sessions get the
time of the last input. Only the second step makes something up. It puts each pane in a tab of its
own, and numbers the tabs by the position of the pane in the list, not by its index, as the indices
may have gaps.

Nothing checks the result. `readCheckpoint_old` says that it is the state that was written, and that
its tabs are as the daemon keeps them: for the first two schemas this is a fact about the step that
made them up, for the third it is taken over from the file. What postcard makes of the bytes of a
file is a parameter.
-/

namespace Kmux

namespace Persist

/-! ## The current schema -/

def stateVersion : UInt32 := 4

/-- On-disk terminal size representation. -/
structure PersistedTermSize where
  rows : UInt16
  cols : UInt16
  deriving DecidableEq, Repr

inductive SessionStatus
  | running
  | exited (code signal : Option Int32)
  deriving DecidableEq, Repr

/-- Immutable session-level metadata. -/
structure SessionMeta where
  index : UInt32
  wordId : String
  name : String
  cwd : String
  deriving DecidableEq, Repr

/-- One persisted pane. -/
structure PersistedPane where
  paneIndex : UInt32
  program : String
  args : List String
  size : PersistedTermSize
  status : SessionStatus
  childPid : Option Int32
  grid : GridSnapshot
  scrollbackLines : List (List CellState)
  cwd : String

/-- One persisted tab: a named layout tree over the session's panes. -/
structure PersistedTab where
  tabIndex : UInt32
  name : String
  layout : LayoutNode
  focusedPane : UInt32

/-- One persisted session. -/
structure PersistedSession where
  info : SessionMeta
  nextPaneIndex : UInt32
  panes : List PersistedPane
  tabs : List PersistedTab
  nextTabIndex : UInt32
  activeTab : UInt32
  /-- Time of the last user input to any pane, in milliseconds; 0 is unknown. -/
  lastActiveMs : UInt64

/-- Top-level persisted daemon state. -/
structure PersistedDaemonState where
  version : UInt32
  sessionIndexCounter : UInt32
  sessions : List PersistedSession
  usedWords : List String

/-! ## The old schemas -/

namespace V1

structure PersistedPane where
  paneIndex : UInt32
  program : String
  size : PersistedTermSize
  status : SessionStatus
  childPid : Option Int32
  grid : GridSnapshot
  scrollbackLines : List (List CellState)
  cwd : String

structure PersistedSession where
  info : SessionMeta
  nextPaneIndex : UInt32
  panes : List PersistedPane

structure PersistedDaemonState where
  version : UInt32
  sessionIndexCounter : UInt32
  sessions : List PersistedSession
  usedWords : List String

end V1

namespace V2

structure PersistedPane where
  paneIndex : UInt32
  program : String
  args : List String
  size : PersistedTermSize
  status : SessionStatus
  childPid : Option Int32
  grid : GridSnapshot
  scrollbackLines : List (List CellState)
  cwd : String

structure PersistedSession where
  info : SessionMeta
  nextPaneIndex : UInt32
  panes : List PersistedPane

structure PersistedDaemonState where
  version : UInt32
  sessionIndexCounter : UInt32
  sessions : List PersistedSession
  usedWords : List String

end V2

namespace V3

structure PersistedSession where
  info : SessionMeta
  nextPaneIndex : UInt32
  panes : List PersistedPane
  tabs : List PersistedTab
  nextTabIndex : UInt32
  activeTab : UInt32

structure PersistedDaemonState where
  version : UInt32
  sessionIndexCounter : UInt32
  sessions : List PersistedSession
  usedWords : List String

end V3

/-! ## The steps -/

/-- v1 → v2: panes gain arguments; default to none. -/
def migrateV1ToV2 (v1 : V1.PersistedDaemonState) : V2.PersistedDaemonState :=
  { version := 2
    sessionIndexCounter := v1.sessionIndexCounter
    usedWords := v1.usedWords
    sessions := v1.sessions.map fun s ↦
      { info := s.info
        nextPaneIndex := s.nextPaneIndex
        panes := s.panes.map fun p ↦
          { paneIndex := p.paneIndex
            program := p.program
            args := []
            size := p.size
            status := p.status
            childPid := p.childPid
            grid := p.grid
            scrollbackLines := p.scrollbackLines
            cwd := p.cwd } } }

/-- One single-pane tab per pane, with the next tab index and the active tab. -/
def wrapPanesInTabs (panes : List V2.PersistedPane) : List PersistedTab × UInt32 × UInt32 :=
  let tabs := panes.zipIdx.map fun (p, i) ↦
    { tabIndex := UInt32.ofNat i
      name := toString (i + 1)
      layout := .single p.paneIndex.toNat
      focusedPane := p.paneIndex }
  (tabs, UInt32.ofNat tabs.length, 0)

/-- v2 → v3: sessions gain a tab layer; each pane is wrapped in its own single-pane tab. -/
def migrateV2ToV3 (v2 : V2.PersistedDaemonState) : V3.PersistedDaemonState :=
  { version := 3
    sessionIndexCounter := v2.sessionIndexCounter
    usedWords := v2.usedWords
    sessions := v2.sessions.map fun s ↦
      { info := s.info
        nextPaneIndex := s.nextPaneIndex
        panes := s.panes.map fun p ↦
          { paneIndex := p.paneIndex
            program := p.program
            args := p.args
            size := p.size
            status := p.status
            childPid := p.childPid
            grid := p.grid
            scrollbackLines := p.scrollbackLines
            cwd := p.cwd }
        tabs := (wrapPanesInTabs s.panes).1
        nextTabIndex := (wrapPanesInTabs s.panes).2.1
        activeTab := (wrapPanesInTabs s.panes).2.2 } }

/-- v3 → v4: sessions gain the time of the last input; default to unknown. -/
def migrateV3ToV4 (v3 : V3.PersistedDaemonState) : PersistedDaemonState :=
  { version := stateVersion
    sessionIndexCounter := v3.sessionIndexCounter
    usedWords := v3.usedWords
    sessions := v3.sessions.map fun s ↦
      { info := s.info
        nextPaneIndex := s.nextPaneIndex
        panes := s.panes
        tabs := s.tabs
        nextTabIndex := s.nextTabIndex
        activeTab := s.activeTab
        lastActiveMs := 0 } }

/-- What postcard reads from bytes, in each schema, or why it does not. -/
structure Postcard where
  versionProbe : List UInt8 → Except String UInt32
  v1 : List UInt8 → Except String V1.PersistedDaemonState
  v2 : List UInt8 → Except String V2.PersistedDaemonState
  v3 : List UInt8 → Except String V3.PersistedDaemonState
  current : List UInt8 → Except String PersistedDaemonState

/-- Read and deserialize a checkpoint file, given what reading the file gives. -/
def readCheckpoint (pc : Postcard) (path : String) (read : Except String (List UInt8)) :
    Except String PersistedDaemonState :=
  match read with
  | .error e => .error s!"failed to read checkpoint {path}: {e}"
  | .ok bytes =>
    match pc.versionProbe bytes with
    | .error e => .error s!"failed to read checkpoint version: {e}"
    | .ok v =>
      if v = 1 then
        match pc.v1 bytes with
        | .error e => .error s!"failed to deserialize v1 checkpoint: {e}"
        | .ok v1 => .ok (migrateV3ToV4 (migrateV2ToV3 (migrateV1ToV2 v1)))
      else if v = 2 then
        match pc.v2 bytes with
        | .error e => .error s!"failed to deserialize v2 checkpoint: {e}"
        | .ok v2 => .ok (migrateV3ToV4 (migrateV2ToV3 v2))
      else if v = 3 then
        match pc.v3 bytes with
        | .error e => .error s!"failed to deserialize v3 checkpoint: {e}"
        | .ok v3 => .ok (migrateV3ToV4 v3)
      else if v ≤ stateVersion then
        match pc.current bytes with
        | .error e => .error s!"failed to deserialize checkpoint: {e}"
        | .ok state => .ok state
      else
        .error (s!"checkpoint version {v} is newer than supported version {stateVersion}; " ++
          "upgrade kmuxd to restore this checkpoint")

/-! ## The data of a state, as an older schema has it -/

namespace V3

/-- A session without the time of the last input. -/
def PersistedSession.ofCurrent (s : Persist.PersistedSession) : PersistedSession :=
  { info := s.info
    nextPaneIndex := s.nextPaneIndex
    panes := s.panes
    tabs := s.tabs
    nextTabIndex := s.nextTabIndex
    activeTab := s.activeTab }

end V3

namespace V2

def PersistedPane.ofCurrent (p : Persist.PersistedPane) : PersistedPane :=
  { paneIndex := p.paneIndex
    program := p.program
    args := p.args
    size := p.size
    status := p.status
    childPid := p.childPid
    grid := p.grid
    scrollbackLines := p.scrollbackLines
    cwd := p.cwd }

/-- A session without its tabs. -/
def PersistedSession.ofCurrent (s : Persist.PersistedSession) : PersistedSession :=
  { info := s.info
    nextPaneIndex := s.nextPaneIndex
    panes := s.panes.map PersistedPane.ofCurrent }

end V2

namespace V1

/-- A pane without its arguments. -/
def PersistedPane.ofCurrent (p : Persist.PersistedPane) : PersistedPane :=
  { paneIndex := p.paneIndex
    program := p.program
    size := p.size
    status := p.status
    childPid := p.childPid
    grid := p.grid
    scrollbackLines := p.scrollbackLines
    cwd := p.cwd }

def PersistedSession.ofCurrent (s : Persist.PersistedSession) : PersistedSession :=
  { info := s.info
    nextPaneIndex := s.nextPaneIndex
    panes := s.panes.map PersistedPane.ofCurrent }

end V1

/-! ## The tabs of a session -/

/-- Distinct pane indices below the counter they are drawn from. -/
structure PanesDistinct (paneIndices : List UInt32) (nextPaneIndex : UInt32) : Prop where
  nodup : paneIndices.Nodup
  lt : ∀ p ∈ paneIndices, p < nextPaneIndex

/-- The structure of a session: the leaves of the tabs are the panes, each once, and the focus, the
tab indices and the active tab are right. -/
structure TabInvariant (s : V3.PersistedSession) : Prop where
  panes : PanesDistinct (s.panes.map PersistedPane.paneIndex) s.nextPaneIndex
  leaves : (s.tabs.flatMap fun t ↦ t.layout.leaves).Perm (s.panes.map fun p ↦ p.paneIndex.toNat)
  focused : ∀ t ∈ s.tabs, t.focusedPane.toNat ∈ t.layout.leaves
  tabs_nodup : (s.tabs.map PersistedTab.tabIndex).Nodup
  tabs_lt : ∀ t ∈ s.tabs, t.tabIndex < s.nextTabIndex
  active : s.panes ≠ [] → s.activeTab ∈ s.tabs.map PersistedTab.tabIndex

/-- There are fewer panes than the counter counts. -/
theorem PanesDistinct.length_lt {panes : List UInt32} {next : UInt32}
    (h : PanesDistinct panes next) : panes.length < 2 ^ 32 := by
  have hnodup : (panes.map UInt32.toNat).Nodup :=
    h.nodup.map fun _ _ heq ↦ UInt32.toNat_inj.mp heq
  have hsub : panes.map UInt32.toNat ⊆ List.range next.toNat := by
    intro n hn
    obtain ⟨p, hp, rfl⟩ := List.mem_map.mp hn
    exact List.mem_range.mpr (UInt32.lt_iff_toNat_lt.mp (h.lt p hp))
  have hle := (hnodup.subperm hsub).length_le
  rw [List.length_map, List.length_range] at hle
  exact Nat.lt_of_le_of_lt hle next.toNat_lt

/-! ## Wrapping panes in tabs -/

theorem leaves_wrapPanesInTabs (panes : List V2.PersistedPane) :
    ((wrapPanesInTabs panes).1.flatMap fun t ↦ t.layout.leaves)
      = panes.map fun p ↦ p.paneIndex.toNat := by
  have hleaf : ∀ (ps : List V2.PersistedPane) (k : ℕ),
      ((ps.zipIdx k).flatMap fun p ↦ (LayoutNode.single p.1.paneIndex.toNat).leaves)
        = ps.map fun p ↦ p.paneIndex.toNat := by
    intro ps
    induction ps with
    | nil => exact fun _ ↦ rfl
    | cons p ps ih =>
      intro k
      rw [List.zipIdx_cons, List.flatMap_cons, ih, List.map_cons, LayoutNode.single,
        LayoutNode.leaves_leaf, List.singleton_append]
  rw [wrapPanesInTabs, List.flatMap_map]
  exact hleaf panes 0

theorem tabIndex_wrapPanesInTabs (panes : List V2.PersistedPane) :
    (wrapPanesInTabs panes).1.map PersistedTab.tabIndex
      = (List.range panes.length).map UInt32.ofNat := by
  rw [wrapPanesInTabs, List.map_map, List.range_eq_range', ← List.zipIdx_map_snd, List.map_map]
  rfl

theorem length_wrapPanesInTabs (panes : List V2.PersistedPane) :
    (wrapPanesInTabs panes).1.length = panes.length := by
  rw [wrapPanesInTabs, List.length_map, List.length_zipIdx]

/-- A tab made for a pane has the pane as its only leaf, and in focus. -/
theorem focused_wrapPanesInTabs {panes : List V2.PersistedPane} {t : PersistedTab}
    (ht : t ∈ (wrapPanesInTabs panes).1) : t.focusedPane.toNat ∈ t.layout.leaves := by
  rw [wrapPanesInTabs] at ht
  obtain ⟨⟨p, i⟩, -, rfl⟩ := List.mem_map.mp ht
  change p.paneIndex.toNat ∈ (LayoutNode.leaf p.paneIndex.toNat).leaves
  rw [LayoutNode.leaves_leaf]
  exact List.mem_singleton_self _

theorem ofNat_lt_ofNat {i n : ℕ} (hi : i < n) (hn : n < 2 ^ 32) :
    UInt32.ofNat i < UInt32.ofNat n := by
  rw [UInt32.lt_iff_toNat_lt, UInt32.toNat_ofNat_of_lt' (lt_trans hi hn),
    UInt32.toNat_ofNat_of_lt' hn]
  exact hi

/-- The tab layer that is made up is as the daemon keeps it. -/
theorem tabInvariant_wrapPanesInTabs {panes : List V2.PersistedPane} {panes' : List PersistedPane}
    {info : SessionMeta} {next : UInt32} (h : PanesDistinct (panes.map (·.paneIndex)) next)
    (hsame : panes'.map PersistedPane.paneIndex = panes.map V2.PersistedPane.paneIndex) :
    TabInvariant
      { info
        nextPaneIndex := next
        panes := panes'
        tabs := (wrapPanesInTabs panes).1
        nextTabIndex := (wrapPanesInTabs panes).2.1
        activeTab := (wrapPanesInTabs panes).2.2 } := by
  have hlen : panes.length < 2 ^ 32 := by
    have hlt := h.length_lt
    rwa [List.length_map] at hlt
  have hnext : (wrapPanesInTabs panes).2.1 = UInt32.ofNat panes.length :=
    congrArg UInt32.ofNat (length_wrapPanesInTabs panes)
  constructor
  · rw [hsame]
    exact h
  · have hnat := congrArg (List.map UInt32.toNat) hsame
    rw [List.map_map, List.map_map] at hnat
    exact List.Perm.of_eq ((leaves_wrapPanesInTabs panes).trans hnat.symm)
  · exact fun t ht ↦ focused_wrapPanesInTabs ht
  · -- positions below 2 ^ 32 are distinct as tab indices
    rw [tabIndex_wrapPanesInTabs]
    refine List.Nodup.map_on ?_ List.nodup_range
    intro i hi j hj heq
    rw [List.mem_range] at hi hj
    have hnat := congrArg UInt32.toNat heq
    rwa [UInt32.toNat_ofNat_of_lt' (lt_trans hi hlen),
      UInt32.toNat_ofNat_of_lt' (lt_trans hj hlen)] at hnat
  · intro t ht
    have hmem := List.mem_map_of_mem (f := PersistedTab.tabIndex) ht
    rw [tabIndex_wrapPanesInTabs] at hmem
    obtain ⟨i, hi, hidx⟩ := List.mem_map.mp hmem
    rw [← hidx, hnext]
    exact ofNat_lt_ofNat (List.mem_range.mp hi) hlen
  · -- tab 0 is there as soon as there is a pane
    intro hne
    have hpos : 0 < panes.length := by
      have hsize := congrArg List.length hsame
      rw [List.length_map, List.length_map] at hsize
      rw [← hsize]
      exact List.length_pos_iff.mpr hne
    rw [tabIndex_wrapPanesInTabs]
    exact List.mem_map.mpr ⟨0, List.mem_range.mpr hpos, rfl⟩

/-! ## What each step keeps -/

theorem ofCurrent_migrateV3ToV4 (v3 : V3.PersistedDaemonState) :
    (migrateV3ToV4 v3).sessions.map V3.PersistedSession.ofCurrent = v3.sessions := by
  rw [migrateV3ToV4, List.map_map]
  exact List.map_id _

theorem ofCurrent_migrateV2ToV3 (v2 : V2.PersistedDaemonState) :
    (migrateV3ToV4 (migrateV2ToV3 v2)).sessions.map V2.PersistedSession.ofCurrent
      = v2.sessions := by
  rw [migrateV3ToV4, migrateV2ToV3, List.map_map, List.map_map]
  refine (List.map_congr_left fun s _ ↦ ?_).trans (List.map_id _)
  change V2.PersistedSession.mk s.info s.nextPaneIndex
    ((s.panes.map _).map V2.PersistedPane.ofCurrent) = s
  rw [List.map_map]
  exact congrArg (V2.PersistedSession.mk s.info s.nextPaneIndex) (List.map_id s.panes)

theorem ofCurrent_migrateV1ToV2 (v1 : V1.PersistedDaemonState) :
    (migrateV3ToV4 (migrateV2ToV3 (migrateV1ToV2 v1))).sessions.map V1.PersistedSession.ofCurrent
      = v1.sessions := by
  rw [migrateV3ToV4, migrateV2ToV3, migrateV1ToV2, List.map_map, List.map_map, List.map_map]
  refine (List.map_congr_left fun s _ ↦ ?_).trans (List.map_id _)
  change V1.PersistedSession.mk s.info s.nextPaneIndex
    (((s.panes.map _).map _).map V1.PersistedPane.ofCurrent) = s
  rw [List.map_map, List.map_map]
  exact congrArg (V1.PersistedSession.mk s.info s.nextPaneIndex) (List.map_id s.panes)

/-- Panes of the first schema get no arguments. -/
theorem args_migrateV1ToV2 (v1 : V1.PersistedDaemonState) :
    ∀ s ∈ (migrateV3ToV4 (migrateV2ToV3 (migrateV1ToV2 v1))).sessions, ∀ p ∈ s.panes,
      p.args = [] := by
  intro s hs p hp
  rw [migrateV3ToV4, migrateV2ToV3, migrateV1ToV2, List.map_map, List.map_map] at hs
  obtain ⟨s₁, -, rfl⟩ := List.mem_map.mp hs
  obtain ⟨p₂, hp₂, rfl⟩ := List.mem_map.mp hp
  obtain ⟨p₁, -, rfl⟩ := List.mem_map.mp hp₂
  rfl

theorem tabInvariant_migrateV2ToV3 {v2 : V2.PersistedDaemonState}
    (h : ∀ s ∈ v2.sessions, PanesDistinct (s.panes.map (·.paneIndex)) s.nextPaneIndex) :
    ∀ s ∈ (migrateV2ToV3 v2).sessions, TabInvariant s := by
  intro s hs
  rw [migrateV2ToV3] at hs
  obtain ⟨s₂, hs₂, rfl⟩ := List.mem_map.mp hs
  refine tabInvariant_wrapPanesInTabs (h s₂ hs₂) ?_
  rw [List.map_map]
  rfl

theorem panesDistinct_migrateV1ToV2 {v1 : V1.PersistedDaemonState}
    (h : ∀ s ∈ v1.sessions, PanesDistinct (s.panes.map (·.paneIndex)) s.nextPaneIndex) :
    ∀ s ∈ (migrateV1ToV2 v1).sessions,
      PanesDistinct (s.panes.map (·.paneIndex)) s.nextPaneIndex := by
  intro s hs
  rw [migrateV1ToV2] at hs
  obtain ⟨s₁, hs₁, rfl⟩ := List.mem_map.mp hs
  have hdistinct := h s₁ hs₁
  dsimp only
  rw [List.map_map]
  exact hdistinct

/-! ## The chain -/

/-- A state in one of the old schemas. -/
inductive OldState
  | v1 (state : V1.PersistedDaemonState)
  | v2 (state : V2.PersistedDaemonState)
  | v3 (state : V3.PersistedDaemonState)

namespace OldState

/-- The bytes are those of the state, in its schema. -/
def ReadFrom (pc : Postcard) (bytes : List UInt8) : OldState → Prop
  | v1 state => pc.versionProbe bytes = .ok 1 ∧ pc.v1 bytes = .ok state
  | v2 state => pc.versionProbe bytes = .ok 2 ∧ pc.v2 bytes = .ok state
  | v3 state => pc.versionProbe bytes = .ok 3 ∧ pc.v3 bytes = .ok state

/-- What the daemon of the time kept: distinct panes, and with tabs, their structure. -/
def Valid : OldState → Prop
  | v1 state => ∀ s ∈ state.sessions, PanesDistinct (s.panes.map (·.paneIndex)) s.nextPaneIndex
  | v2 state => ∀ s ∈ state.sessions, PanesDistinct (s.panes.map (·.paneIndex)) s.nextPaneIndex
  | v3 state => ∀ s ∈ state.sessions, TabInvariant s

/-- The current state has the data of the old one, and defaults for what the old one lacks. -/
def KeptIn (state : PersistedDaemonState) : OldState → Prop
  | v1 old =>
    state.sessionIndexCounter = old.sessionIndexCounter ∧ state.usedWords = old.usedWords ∧
      state.sessions.map V1.PersistedSession.ofCurrent = old.sessions ∧
      ∀ s ∈ state.sessions, ∀ p ∈ s.panes, p.args = []
  | v2 old =>
    state.sessionIndexCounter = old.sessionIndexCounter ∧ state.usedWords = old.usedWords ∧
      state.sessions.map V2.PersistedSession.ofCurrent = old.sessions
  | v3 old =>
    state.sessionIndexCounter = old.sessionIndexCounter ∧ state.usedWords = old.usedWords ∧
      state.sessions.map V3.PersistedSession.ofCurrent = old.sessions

/-- The current form of an old state. -/
def migrate : OldState → PersistedDaemonState
  | v1 state => migrateV3ToV4 (migrateV2ToV3 (migrateV1ToV2 state))
  | v2 state => migrateV3ToV4 (migrateV2ToV3 state)
  | v3 state => migrateV3ToV4 state

theorem readCheckpoint_eq {pc : Postcard} {bytes : List UInt8} {old : OldState}
    (h : old.ReadFrom pc bytes) (path : String) :
    readCheckpoint pc path (.ok bytes) = .ok old.migrate := by
  match old, h with
  | v1 state, ⟨hversion, hstate⟩ => simp [readCheckpoint, hversion, hstate, migrate]
  | v2 state, ⟨hversion, hstate⟩ => simp [readCheckpoint, hversion, hstate, migrate]
  | v3 state, ⟨hversion, hstate⟩ => simp [readCheckpoint, hversion, hstate, migrate]

theorem keptIn_migrate (old : OldState) : old.KeptIn old.migrate := by
  match old with
  | v1 state => exact ⟨rfl, rfl, ofCurrent_migrateV1ToV2 state, args_migrateV1ToV2 state⟩
  | v2 state => exact ⟨rfl, rfl, ofCurrent_migrateV2ToV3 state⟩
  | v3 state => exact ⟨rfl, rfl, ofCurrent_migrateV3ToV4 state⟩

/-- Every chain ends with the last step, and before it the tabs are right. -/
theorem tabInvariant_migrate {old : OldState} (h : old.Valid) :
    ∀ s ∈ old.migrate.sessions, TabInvariant (.ofCurrent s) := by
  have hlast : ∀ v3 : V3.PersistedDaemonState, (∀ s ∈ v3.sessions, TabInvariant s) →
      ∀ s ∈ (migrateV3ToV4 v3).sessions, TabInvariant (.ofCurrent s) := by
    intro v3 hv3 s hs
    apply hv3
    rw [← ofCurrent_migrateV3ToV4 v3]
    exact List.mem_map_of_mem hs
  match old, h with
  | v1 state, h => exact hlast _ (tabInvariant_migrateV2ToV3 (panesDistinct_migrateV1ToV2 h))
  | v2 state, h => exact hlast _ (tabInvariant_migrateV2ToV3 h)
  | v3 state, h => exact hlast state h

theorem current_migrate (old : OldState) :
    old.migrate.version = stateVersion ∧ ∀ s ∈ old.migrate.sessions, s.lastActiveMs = 0 := by
  have hlast : ∀ v3 : V3.PersistedDaemonState,
      ∀ s ∈ (migrateV3ToV4 v3).sessions, s.lastActiveMs = 0 := by
    intro v3 s hs
    rw [migrateV3ToV4] at hs
    obtain ⟨s₃, -, rfl⟩ := List.mem_map.mp hs
    rfl
  match old with
  | v1 state => exact ⟨rfl, hlast _⟩
  | v2 state => exact ⟨rfl, hlast _⟩
  | v3 state => exact ⟨rfl, hlast _⟩

end OldState

/-- **Reading an old checkpoint.** Whatever state in an old schema the file holds, it is read, the
result has the data of the state and defaults for the rest, and the tabs of each session are as the
daemon keeps them. -/
theorem readCheckpoint_old (pc : Postcard) (path : String) (bytes : List UInt8) (old : OldState)
    (hread : old.ReadFrom pc bytes) (hvalid : old.Valid) :
    ∃ state, readCheckpoint pc path (.ok bytes) = .ok state ∧
      state.version = stateVersion ∧ old.KeptIn state ∧
      (∀ s ∈ state.sessions, s.lastActiveMs = 0) ∧
      ∀ s ∈ state.sessions, TabInvariant (.ofCurrent s) := by
  obtain ⟨hversion, hactive⟩ := old.current_migrate
  exact ⟨old.migrate, OldState.readCheckpoint_eq hread path, hversion, old.keptIn_migrate, hactive,
    OldState.tabInvariant_migrate hvalid⟩

/-- A pane as the first schema has it. -/
def gappedPane (paneIndex : UInt32) : V1.PersistedPane :=
  { paneIndex
    program := "/bin/zsh"
    size := ⟨24, 80⟩
    status := .running
    childPid := none
    grid := ⟨0, 0, [], default, .empty, 0, 0, []⟩
    scrollbackLines := []
    cwd := "/" }

/-- A state of the first schema, with a gap in the pane indices. -/
def gapped : V1.PersistedDaemonState :=
  { version := 1
    sessionIndexCounter := 1
    sessions := [⟨⟨0, "eagle", "src", "/src"⟩, 6, [gappedPane 2, gappedPane 5]⟩]
    usedWords := ["eagle"] }

/-- Postcard on one file. -/
def onlyGapped : Postcard :=
  { versionProbe := fun _ ↦ .ok 1
    v1 := fun _ ↦ .ok gapped
    v2 := fun _ ↦ .error "end of input"
    v3 := fun _ ↦ .error "end of input"
    current := fun _ ↦ .error "end of input" }

theorem readCheckpoint_old_gapped :
    ∃ state, readCheckpoint onlyGapped "state.bin" (.ok [1]) = .ok state ∧
      state.version = stateVersion ∧ (OldState.v1 gapped).KeptIn state ∧
      (∀ s ∈ state.sessions, s.lastActiveMs = 0) ∧
      ∀ s ∈ state.sessions, TabInvariant (.ofCurrent s) := by
  refine readCheckpoint_old onlyGapped "state.bin" [1] (.v1 gapped) ⟨rfl, rfl⟩ ?_
  intro s hs
  rw [List.mem_singleton.mp hs]
  constructor
  · simp [gappedPane]
  · simp [gappedPane]

/-! ## Restoring what was migrated -/

/-- A session with each pane as its index, as restoring reads it. -/
def PersistedSession.indexed (s : PersistedSession) : Kmux.PersistedSession :=
  { nextPaneIndex := s.nextPaneIndex.toNat
    panes := s.panes.map fun p ↦ p.paneIndex.toNat
    tabs := s.tabs.map fun t ↦
      { tabIndex := t.tabIndex.toNat
        name := t.name
        layout := t.layout
        focusedPane := t.focusedPane.toNat }
    nextTabIndex := s.nextTabIndex.toNat
    activeTab := s.activeTab.toNat }

theorem tabIndex_indexed (s : PersistedSession) :
    s.indexed.stored.tabs.map TabState.tabIndex
      = (s.tabs.map PersistedTab.tabIndex).map UInt32.toNat := by
  rw [PersistedSession.indexed, Kmux.PersistedSession.stored, List.map_map, List.map_map,
    List.map_map]
  rfl

theorem allLeaves_indexed (s : PersistedSession) :
    s.indexed.stored.allLeaves = s.tabs.flatMap fun t ↦ t.layout.leaves := by
  rw [Kmux.PersistedSession.allLeaves_stored, PersistedSession.indexed, List.flatMap_map]

/-- The tab invariant of a session with a pane is the structure that restoring starts from. -/
theorem sound_indexed {s : PersistedSession} (h : TabInvariant (.ofCurrent s))
    (hne : s.panes ≠ []) : s.indexed.stored.Sound := by
  have hinj : Function.Injective UInt32.toNat := fun _ _ heq ↦ UInt32.toNat_inj.mp heq
  have hpanes : (s.panes.map fun p ↦ p.paneIndex.toNat)
      = (s.panes.map PersistedPane.paneIndex).map UInt32.toNat := by
    rw [List.map_map]
    rfl
  have hleaves : (s.tabs.flatMap fun t ↦ t.layout.leaves).Perm
      (s.panes.map fun p ↦ p.paneIndex.toNat) := h.leaves
  constructor
  · rw [allLeaves_indexed, hleaves.nodup_iff, hpanes]
    exact h.panes.nodup.map hinj
  · rw [allLeaves_indexed]
    exact (List.toFinset_eq_of_perm _ _ hleaves).symm
  · intro t ht
    obtain ⟨pt, hpt, rfl⟩ := List.mem_map.mp ht
    obtain ⟨t, htab, rfl⟩ := List.mem_map.mp hpt
    exact h.focused t htab
  · rw [tabIndex_indexed]
    exact List.mem_map_of_mem (h.active hne)
  · rw [tabIndex_indexed]
    exact h.tabs_nodup.map hinj
  · intro t ht
    obtain ⟨pt, hpt, rfl⟩ := List.mem_map.mp ht
    obtain ⟨t, htab, rfl⟩ := List.mem_map.mp hpt
    exact UInt32.lt_iff_toNat_lt.mp (h.tabs_lt t htab)
  · intro q hq
    have hmem : q ∈ s.panes.map fun p ↦ p.paneIndex.toNat := List.mem_toFinset.mp hq
    obtain ⟨p, hp, rfl⟩ := List.mem_map.mp hmem
    exact UInt32.lt_iff_toNat_lt.mp (h.panes.lt p.paneIndex (List.mem_map_of_mem hp))

/-- A session of an old checkpoint is restored like one of the current schema: whichever of its
panes come back, if any does. -/
theorem restored_migrate {old : OldState} (h : old.Valid) {s : PersistedSession}
    (hs : s ∈ old.migrate.sessions) {panes : Finset ℕ} (hne : panes ≠ ∅)
    (hsub : ∀ q ∈ panes, q ∈ s.indexed.panes) :
    Kmux.PersistedSession.Restored s.indexed panes (s.indexed.reconcile panes) := by
  have hsome : s.panes ≠ [] := by
    intro hnil
    obtain ⟨q, hq⟩ := Finset.nonempty_iff_ne_empty.mpr hne
    have hmem := hsub q hq
    rw [PersistedSession.indexed, hnil] at hmem
    exact List.not_mem_nil hmem
  exact Kmux.PersistedSession.restored_reconcile
    (sound_indexed (OldState.tabInvariant_migrate h s hs) hsome) hne hsub

/-- The second pane of the state with a gap is the one that comes back. -/
theorem restored_migrate_gapped : ∃ s ∈ (OldState.v1 gapped).migrate.sessions,
    s.indexed.panes = [2, 5] ∧
      Kmux.PersistedSession.Restored s.indexed {5} (s.indexed.reconcile {5}) := by
  have hvalid : (OldState.v1 gapped).Valid := by
    intro s hs
    rw [List.mem_singleton.mp hs]
    constructor
    · simp [gappedPane]
    · simp [gappedPane]
  refine ⟨_, List.mem_singleton_self _, rfl, ?_⟩
  refine restored_migrate hvalid (List.mem_singleton_self _) (by decide) fun q hq ↦ ?_
  rw [Finset.mem_singleton.mp hq]
  exact List.mem_cons_of_mem _ (List.mem_singleton_self _)

end Persist

end Kmux
