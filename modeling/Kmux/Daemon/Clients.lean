import Kmux.Daemon.Attach
import Mathlib.Data.List.AList
import Mathlib.Data.UInt

/-!
# The clients of a pane

A pane keeps a map from clients to what it needs to stream to each of them. Its recorded size and
the kitty features of its emulator are aggregates over that map; its input lock is a field of its
own, and names a client that need not be on the map. `PaneRelay` is the pane with this map. Its
operations are the ones the daemon runs under the session lock, and the relay's own broadcast, which
takes clients that cannot keep up off the map without asking for that lock.

The map is an association list with distinct keys. Iteration order matters in one place only, the
pixel dimensions of `effectiveSize`, and nothing below depends on it. What a client's bounded data
lane answers to a send is not the pane's to decide, so a broadcast takes it as an argument.
-/

namespace Kmux

open TerminalBackend

/-- A client, as the daemon numbers them. -/
abbrev ClientId := ℕ

/-- A channel: the identity that `same_channel` compares, one per control lane. -/
abbrev ChannelId := ℕ

/-- A terminal size in cells and in pixels. A zero means that the dimension is unknown. -/
structure TermSize where
  rows : UInt16
  cols : UInt16
  pixelWidth : UInt16
  pixelHeight : UInt16
  deriving DecidableEq, Repr

/-- The size as the emulator takes it. -/
def TermSize.toBackendSize (size : TermSize) : BackendSize :=
  { rows := size.rows, cols := size.cols
    pixelWidth := size.pixelWidth, pixelHeight := size.pixelHeight }

/-- What a client declared that it can render. -/
structure ClientCapabilities where
  kittyGraphics : Bool
  kittyKeyboard : Bool
  deriving DecidableEq, Repr

/-- Who may send input to a pane. -/
inductive InputMode
  /-- The source's `Open`: any authenticated client. -/
  | unlocked
  | locked (holder : ClientId)
  | disabled
  deriving DecidableEq, Repr

/-- What a lock request answers. -/
inductive InputLockOutcome
  | granted
  | denied (holder : ClientId)
  deriving DecidableEq, Repr

/-- An attached client. -/
structure ClientSender where
  /-- The channel the client attached through. -/
  ctrlTx : ChannelId
  forceFullSnapshot : Bool
  paused : Bool
  pauseAuto : Bool
  noAutoPause : Bool
  capabilities : ClientCapabilities
  size : TermSize
  deriving DecidableEq, Repr

/-- Whether output frames are withheld from this client. -/
def ClientSender.outputPaused (s : ClientSender) : Bool :=
  s.paused && !(s.pauseAuto && s.noAutoPause)

/-- What a client's data lane answers to a send. -/
inductive TrySend
  | ok
  | full
  | closed
  deriving DecidableEq, Repr

/-- What a pane puts on a client's lanes. -/
inductive Outgoing
  /-- On the control lane: the pane has a new size. -/
  | paneResized (client : ClientId) (size : TermSize)
  /-- On the control lane: frames were dropped. -/
  | lagged (client : ClientId) (missedCount : ℕ)
  /-- On the data lane. -/
  | data (client : ClientId) (message : ServerMessage)
  deriving DecidableEq, Repr

/-- A map keyed by numbers. -/
abbrev Table (α : Type*) := AList fun _ : ℕ ↦ α

namespace Table

variable {α : Type*}

theorem lookup_insert_eq (m : Table α) (k k' : ℕ) (a : α) :
    (AList.insert k a m).lookup k' = if k' = k then some a else m.lookup k' := by
  by_cases h : k' = k
  · rw [if_pos h, h, AList.lookup_insert]
  · rw [if_neg h, AList.lookup_insert_ne h]

theorem lookup_erase_eq (m : Table α) (k k' : ℕ) :
    (m.erase k).lookup k' = if k' = k then none else m.lookup k' := by
  by_cases h : k' = k
  · rw [if_pos h, h, AList.lookup_erase]
  · rw [if_neg h, AList.lookup_erase_ne h]

theorem lookup_insert_eq_some {m : Table α} {k k' : ℕ} {a b : α}
    (h : (AList.insert k a m).lookup k' = some b) :
    k' = k ∧ b = a ∨ k' ≠ k ∧ m.lookup k' = some b := by
  rw [lookup_insert_eq] at h
  by_cases hk : k' = k
  · rw [if_pos hk] at h
    exact .inl ⟨hk, (Option.some.inj h).symm⟩
  · rw [if_neg hk] at h
    exact .inr ⟨hk, h⟩

theorem lookup_erase_eq_some {m : Table α} {k k' : ℕ} {b : α}
    (h : (m.erase k).lookup k' = some b) : k' ≠ k ∧ m.lookup k' = some b := by
  rw [lookup_erase_eq] at h
  by_cases hk : k' = k
  · rw [if_pos hk] at h
    cases h
  · rw [if_neg hk] at h
    exact ⟨hk, h⟩

/-- The values, in iteration order. -/
def values (m : Table α) : List α := m.entries.map fun e ↦ e.2

theorem mem_values {m : Table α} {a : α} : a ∈ m.values ↔ ∃ k, m.lookup k = some a := by
  rw [values, List.mem_map]
  constructor
  · rintro ⟨⟨k, a'⟩, hmem, rfl⟩
    exact ⟨k, AList.mem_lookup_iff.mpr hmem⟩
  · rintro ⟨k, hk⟩
    exact ⟨⟨k, a⟩, AList.mem_lookup_iff.mp hk, rfl⟩

end Table

/-- The clients attached to a pane. -/
abbrev ClientMap := Table ClientSender

namespace ClientMap

/-- Change the entry of a client that is attached. -/
def modify (m : ClientMap) (c : ClientId) (f : ClientSender → ClientSender) : ClientMap :=
  match m.lookup c with
  | some s => m.insert c (f s)
  | none => m

theorem lookup_modify (m : ClientMap) (c c' : ClientId) (f : ClientSender → ClientSender) :
    (m.modify c f).lookup c' = if c' = c then (m.lookup c).map f else m.lookup c' := by
  rw [modify]
  split
  next s hs =>
    rw [Table.lookup_insert_eq, hs, Option.map_some]
  next hs =>
    by_cases h : c' = c
    · rw [if_pos h, h, hs, Option.map_none]
    · rw [if_neg h]

/-- What a modification leaves alone reads the same for everybody. -/
theorem map_lookup_modify {α : Type*} (m : ClientMap) (c c' : ClientId)
    {f : ClientSender → ClientSender} {g : ClientSender → α} (hf : ∀ s, g (f s) = g s) :
    ((m.modify c f).lookup c').map g = (m.lookup c').map g := by
  rw [lookup_modify]
  split
  next hc =>
    rw [Option.map_map, hc]
    exact Option.map_congr fun s _ ↦ hf s
  next => rfl

/-- Take clients off the map, one after the other. -/
def eraseAll (m : ClientMap) (dead : List ClientId) : ClientMap :=
  dead.foldl (fun m c ↦ m.erase c) m

theorem lookup_eraseAll (m : ClientMap) (dead : List ClientId) (c : ClientId) :
    (m.eraseAll dead).lookup c = if c ∈ dead then none else m.lookup c := by
  rw [eraseAll]
  induction dead generalizing m with
  | nil => rw [List.foldl_nil, if_neg (List.not_mem_nil)]
  | cons d dead ih =>
    rw [List.foldl_cons, ih, Table.lookup_erase_eq]
    by_cases hd : c = d
    · rw [if_pos hd, ite_self, if_pos (List.mem_cons.mpr (.inl hd))]
    · simp only [hd, if_false, List.mem_cons, false_or]

/-- The smallest positive value of a dimension among the clients. -/
def smallest (m : ClientMap) (dim : TermSize → UInt16) : Option UInt16 :=
  ((m.values.map fun s ↦ dim s.size).filter fun d ↦ decide (0 < d)).min?

/-- **Smallest wins.** The value is reported by a client, and no client reports a smaller one
apart from zero. -/
theorem smallest_eq_some_iff {m : ClientMap} {dim : TermSize → UInt16} {d : UInt16} :
    m.smallest dim = some d ↔
      (∃ c s, m.lookup c = some s ∧ dim s.size = d) ∧ 0 < d ∧
        ∀ c s, m.lookup c = some s → 0 < dim s.size → d ≤ dim s.size := by
  rw [smallest, List.min?_eq_some_iff]
  simp only [List.mem_filter, List.mem_map, Table.mem_values, decide_eq_true_eq]
  constructor
  · rintro ⟨⟨⟨s, ⟨c, hc⟩, hs⟩, hpos⟩, hmin⟩
    exact ⟨⟨c, s, hc, hs⟩, hpos, fun c' s' hc' hpos' ↦ hmin _ ⟨⟨s', ⟨c', hc'⟩, rfl⟩, hpos'⟩⟩
  · rintro ⟨⟨c, s, hc, hs⟩, hpos, hmin⟩
    refine ⟨⟨⟨s, ⟨c, hc⟩, hs⟩, hpos⟩, ?_⟩
    rintro d' ⟨⟨s', ⟨c', hc'⟩, rfl⟩, hpos'⟩
    exact hmin c' s' hc' hpos'

theorem smallest_eq_none_iff {m : ClientMap} {dim : TermSize → UInt16} :
    m.smallest dim = none ↔ ∀ c s, m.lookup c = some s → dim s.size = 0 := by
  rw [smallest, List.min?_eq_none_iff, List.filter_eq_nil_iff]
  simp only [List.mem_map, Table.mem_values, decide_eq_true_eq]
  constructor
  · intro h c s hc
    by_contra hne
    exact h _ ⟨s, ⟨c, hc⟩, rfl⟩ (UInt16.pos_iff_ne_zero.mpr hne)
  · rintro h d ⟨s, ⟨c, hc⟩, rfl⟩ hpos
    rw [h c s hc] at hpos
    exact absurd hpos (by decide)

/-- A change that keeps the declared size keeps the smallest dimensions. -/
theorem smallest_modify (m : ClientMap) (c : ClientId) (f : ClientSender → ClientSender)
    (hf : ∀ s, (f s).size = s.size) (dim : TermSize → UInt16) :
    (m.modify c f).smallest dim = m.smallest dim := by
  -- the two maps have the same declared sizes, so one value is smallest for both or for neither
  have hlook : ∀ c' s', (m.modify c f).lookup c' = some s' →
      ∃ s, m.lookup c' = some s ∧ s'.size = s.size := by
    intro c' s' hs'
    rw [lookup_modify] at hs'
    split at hs'
    next heq =>
      obtain ⟨s, hs, rfl⟩ := Option.map_eq_some_iff.mp hs'
      exact ⟨s, heq ▸ hs, hf s⟩
    next => exact ⟨s', hs', rfl⟩
  have hback : ∀ c' s, m.lookup c' = some s →
      ∃ s', (m.modify c f).lookup c' = some s' ∧ s'.size = s.size := by
    intro c' s hs
    rw [lookup_modify]
    split
    next heq => exact ⟨f s, by rw [← heq, hs, Option.map_some], hf s⟩
    next => exact ⟨s, hs, rfl⟩
  refine Option.ext fun d ↦ ?_
  rw [smallest_eq_some_iff, smallest_eq_some_iff]
  constructor
  · rintro ⟨⟨c', s', hs', hd⟩, hpos, hmin⟩
    obtain ⟨s, hs, hsz⟩ := hlook c' s' hs'
    refine ⟨⟨c', s, hs, hsz ▸ hd⟩, hpos, fun c'' t ht htpos ↦ ?_⟩
    obtain ⟨t', ht', htsz⟩ := hback c'' t ht
    exact htsz ▸ hmin c'' t' ht' (htsz ▸ htpos)
  · rintro ⟨⟨c', s, hs, hd⟩, hpos, hmin⟩
    obtain ⟨s', hs', hsz⟩ := hback c' s hs
    refine ⟨⟨c', s', hs', hsz ▸ hd⟩, hpos, fun c'' t' ht' htpos ↦ ?_⟩
    obtain ⟨t, ht, htsz⟩ := hlook c'' t' ht'
    exact htsz ▸ hmin c'' t ht (htsz ▸ htpos)

end ClientMap

/-- The kitty features every attached client has; none when nobody is attached. -/
def intersectForAtomics (caps : List ClientCapabilities) : Bool × Bool :=
  if caps.isEmpty then (false, false)
  else (caps.all fun c ↦ c.kittyGraphics, caps.all fun c ↦ c.kittyKeyboard)

/-! ## The pane with its clients -/

/-- A pane, the clients attached to it, and what is kept about them. -/
structure PaneRelay (B : Type*) where
  pane : Pane B
  clients : ClientMap
  size : TermSize
  inputMode : InputMode
  kittyGraphicsEnabled : Bool
  kittyKeyboardEnabled : Bool

namespace PaneRelay

variable {B : Type*} [TerminalBackend B]

/-- A pane as it is spawned: nobody attached, input open. -/
def new (backend : B) (size : TermSize) : PaneRelay B :=
  { pane := Pane.new backend, clients := ∅, size, inputMode := .unlocked
    kittyGraphicsEnabled := false, kittyKeyboardEnabled := false }

omit [TerminalBackend B] in
/-- Store the features the attached clients share. -/
def recomputeLiveCapabilities (r : PaneRelay B) : PaneRelay B :=
  let flags := intersectForAtomics (r.clients.values.map fun s ↦ s.capabilities)
  { r with kittyGraphicsEnabled := flags.1, kittyKeyboardEnabled := flags.2 }

omit [TerminalBackend B] in
/-- The smallest rows and the smallest columns over the attached clients, zeros left out, with the
pixels of a client that has both. -/
def effectiveSize (r : PaneRelay B) : Option TermSize := do
  let rows ← r.clients.smallest TermSize.rows
  let cols ← r.clients.smallest TermSize.cols
  let winner := r.clients.values.find? fun s ↦ decide (s.size.rows = rows ∧ s.size.cols = cols)
  let pixels := winner.elim (0, 0) fun s ↦ (s.size.pixelWidth, s.size.pixelHeight)
  some { rows, cols, pixelWidth := pixels.1, pixelHeight := pixels.2 }

/-- Resize the emulator and record the size if the effective size has changed; the new size then. -/
def applyEffectiveSize (r : PaneRelay B) : PaneRelay B × Option TermSize :=
  match r.effectiveSize with
  | none => (r, none)
  | some newSize =>
    if newSize.rows = r.size.rows ∧ newSize.cols = r.size.cols then (r, none)
    else
      ({ r with pane := (r.pane.resize newSize.toBackendSize).1, size := newSize }, some newSize)

/-- Tell every streaming client the new size, and send it a snapshot. -/
def broadcastResize (r : PaneRelay B) (newSize : TermSize) (seqno : SequenceNo) : List Outgoing :=
  r.clients.entries.flatMap fun e ↦
    if e.2.outputPaused then []
    else [.paneResized e.1 newSize, .data e.1 (.terminalSnapshot r.pane.engine.snapshot seqno)]

/-- How every operation that touches the map ends: reconcile the size and announce it. -/
def reconcile (r : PaneRelay B) : PaneRelay B × List Outgoing :=
  match r.applyEffectiveSize with
  | (r', some newSize) => (r', r'.broadcastResize newSize r.pane.currentSeqno)
  | (r', none) => (r', [])

/-- Attach a client through a channel. A re-attach keeps the snapshot mode and clears the pause. -/
def attach (r : PaneRelay B) (client : ClientId) (lastSeqno : Option SequenceNo) (size : TermSize)
    (ctrlTx : ChannelId) (capabilities : ClientCapabilities) :
    PaneRelay B × AttachResult × List Outgoing :=
  let result := r.pane.computeReplay lastSeqno
  let forceFullSnapshot := (r.clients.lookup client).elim false fun s ↦ s.forceFullSnapshot
  let sender : ClientSender :=
    { ctrlTx, forceFullSnapshot, paused := false, pauseAuto := false, noAutoPause := false
      capabilities, size }
  let done := ({ r with clients := r.clients.insert client sender } : PaneRelay B)
    |>.recomputeLiveCapabilities.reconcile
  (done.1, result, done.2)

omit [TerminalBackend B] in
/-- Open the input if this client has it locked. -/
def unlockIfHeld (r : PaneRelay B) (client : ClientId) : PaneRelay B :=
  if r.inputMode = .locked client then { r with inputMode := .unlocked } else r

omit [TerminalBackend B] in
/-- Take a client off the map, with its lock. -/
def removeClient (r : PaneRelay B) (client : ClientId) : PaneRelay B :=
  ({ r with clients := r.clients.erase client } : PaneRelay B)
    |>.recomputeLiveCapabilities.unlockIfHeld client

/-- Detach a client, whichever channel it came through. A kick does the same to every pane of the
session. -/
def detachFromPane (r : PaneRelay B) (client : ClientId) : PaneRelay B × List Outgoing :=
  (r.removeClient client).reconcile

/-- Detach a client if it attached through the channel that ends; a pane it holds through another
channel, or does not hold, is left alone. -/
def detachChannel (r : PaneRelay B) (client : ClientId) (ctrl : ChannelId) :
    PaneRelay B × List Outgoing :=
  if (r.clients.lookup client).any fun s ↦ decide (s.ctrlTx = ctrl) then
    (r.removeClient client).reconcile
  else (r, [])

/-- Record the size a client declares, and reconcile. -/
def resize (r : PaneRelay B) (client : ClientId) (size : TermSize) : PaneRelay B × List Outgoing :=
  ({ r with clients := r.clients.modify client fun s ↦ { s with size } } : PaneRelay B).reconcile

omit [TerminalBackend B] in
/-- Ask for the exclusive input lock. -/
def requestInputLock (r : PaneRelay B) (client : ClientId) : PaneRelay B × InputLockOutcome :=
  match r.inputMode with
  | .unlocked => ({ r with inputMode := .locked client }, .granted)
  | .locked holder => if holder = client then (r, .granted) else (r, .denied holder)
  | .disabled => (r, .denied 0)

omit [TerminalBackend B] in
/-- Give the lock back; whether it was held. -/
def releaseInputLock (r : PaneRelay B) (client : ClientId) : PaneRelay B × Bool :=
  if r.inputMode = .locked client then ({ r with inputMode := .unlocked }, true) else (r, false)

omit [TerminalBackend B] in
/-- The clients a broadcast finds unable to take a frame. Paused clients are not asked. -/
def dead (r : PaneRelay B) (answer : ClientId → TrySend) : List ClientId :=
  (r.clients.entries.filter fun e ↦ !e.2.outputPaused && decide (answer e.1 ≠ .ok)).map fun e ↦ e.1

/-- Send a frame to every streaming client, a snapshot instead to those that asked for snapshots,
and drop the clients whose lane is full or closed from the map. Neither the size nor the lock is
looked at. -/
def broadcastToClients (r : PaneRelay B) (message : ServerMessage) (seqno : SequenceNo)
    (answer : ClientId → TrySend) : PaneRelay B × List Outgoing :=
  let sent := r.clients.entries.flatMap fun e ↦
    if e.2.outputPaused then []
    else
      match answer e.1 with
      | .ok =>
        [.data e.1 (if e.2.forceFullSnapshot then
            .terminalSnapshot r.pane.engine.snapshot seqno else message)]
      | .full => [.lagged e.1 1]
      | .closed => []
  ({ r with clients := r.clients.eraseAll (r.dead answer) }, sent)

end PaneRelay

/-! ## Runs -/

/-- What happens to a pane and its clients. -/
inductive RelayEvent (B : Type*)
  | attach (client : ClientId) (lastSeqno : Option SequenceNo) (size : TermSize)
      (ctrlTx : ChannelId) (capabilities : ClientCapabilities)
  | detachFromPane (client : ClientId)
  | detachChannel (client : ClientId) (ctrl : ChannelId)
  | resize (client : ClientId) (size : TermSize)
  | requestInputLock (client : ClientId)
  | releaseInputLock (client : ClientId)
  | setSnapshotMode (client : ClientId) (enabled : Bool)
  | setPaused (client : ClientId) (paused auto : Bool)
  | setPaneNoAutoPause (client : ClientId) (exempt : Bool)
  /-- The diff loop lets output move the emulator on. -/
  | output (b : B)
  /-- The diff loop sends one frame, and the data lanes answer. -/
  | broadcast (message : ServerMessage) (seqno : SequenceNo) (answer : ClientId → TrySend)
  /-- The first thing a close does: everybody is taken off. -/
  | clear

namespace PaneRelay

variable {B : Type*} [TerminalBackend B]

/-- One event. -/
def step (r : PaneRelay B) : RelayEvent B → PaneRelay B
  | .attach client lastSeqno size ctrlTx capabilities =>
      (r.attach client lastSeqno size ctrlTx capabilities).1
  | .detachFromPane client => (r.detachFromPane client).1
  | .detachChannel client ctrl => (r.detachChannel client ctrl).1
  | .resize client size => (r.resize client size).1
  | .requestInputLock client => (r.requestInputLock client).1
  | .releaseInputLock client => (r.releaseInputLock client).1
  | .setSnapshotMode client enabled =>
      { r with clients := r.clients.modify client fun s ↦ { s with forceFullSnapshot := enabled } }
  | .setPaused client paused auto =>
      { r with clients := r.clients.modify client fun s ↦ { s with paused, pauseAuto := auto } }
  | .setPaneNoAutoPause client exempt =>
      { r with clients := r.clients.modify client fun s ↦ { s with noAutoPause := exempt } }
  | .output b => { r with pane := (r.pane.cycle b).1 }
  | .broadcast message seqno answer => (r.broadcastToClients message seqno answer).1
  | .clear => { r with clients := ∅ }

/-- The pane a list of events leads to. -/
def run (r : PaneRelay B) (es : List (RelayEvent B)) : PaneRelay B := Run.exec step r es

/-! ## What each part does to the map and to the lock -/

omit [TerminalBackend B] in
@[simp] theorem recomputeLiveCapabilities_clients (r : PaneRelay B) :
    r.recomputeLiveCapabilities.clients = r.clients := rfl

omit [TerminalBackend B] in
@[simp] theorem unlockIfHeld_clients (r : PaneRelay B) (c : ClientId) :
    (r.unlockIfHeld c).clients = r.clients := by
  rw [unlockIfHeld]
  split <;> rfl

omit [TerminalBackend B] in
@[simp] theorem unlockIfHeld_size (r : PaneRelay B) (c : ClientId) :
    (r.unlockIfHeld c).size = r.size := by
  rw [unlockIfHeld]
  split <;> rfl

omit [TerminalBackend B] in
theorem unlockIfHeld_inputMode (r : PaneRelay B) (c : ClientId) :
    (r.unlockIfHeld c).inputMode =
      if r.inputMode = .locked c then .unlocked else r.inputMode := by
  rw [unlockIfHeld]
  split <;> rfl

omit [TerminalBackend B] in
@[simp] theorem removeClient_clients (r : PaneRelay B) (c : ClientId) :
    (r.removeClient c).clients = r.clients.erase c := by
  rw [removeClient, unlockIfHeld_clients]
  rfl

omit [TerminalBackend B] in
@[simp] theorem removeClient_size (r : PaneRelay B) (c : ClientId) :
    (r.removeClient c).size = r.size := by
  rw [removeClient, unlockIfHeld_size]
  rfl

omit [TerminalBackend B] in
theorem removeClient_inputMode (r : PaneRelay B) (c : ClientId) :
    (r.removeClient c).inputMode =
      if r.inputMode = .locked c then .unlocked else r.inputMode := by
  rw [removeClient, unlockIfHeld_inputMode]
  rfl

/-- Reconciling either changes nothing or resizes: the map and the lock stay. -/
theorem reconcile_eq (r : PaneRelay B) :
    (r.reconcile.1 = r ∧
        ∀ newSize, r.effectiveSize = some newSize →
          newSize.rows = r.size.rows ∧ newSize.cols = r.size.cols) ∨
      ∃ newSize, r.effectiveSize = some newSize ∧
        r.reconcile.1 =
          { r with pane := (r.pane.resize newSize.toBackendSize).1, size := newSize } := by
  rw [reconcile, applyEffectiveSize]
  cases heff : r.effectiveSize with
  | none =>
    left
    exact ⟨rfl, fun newSize hnew ↦ nomatch hnew⟩
  | some newSize =>
    by_cases hsame : newSize.rows = r.size.rows ∧ newSize.cols = r.size.cols
    · left
      refine ⟨by simp only [if_pos hsame], fun newSize' hnew ↦ ?_⟩
      rw [← Option.some.inj hnew]
      exact hsame
    · right
      exact ⟨newSize, rfl, by simp only [if_neg hsame]⟩

@[simp] theorem reconcile_clients (r : PaneRelay B) : r.reconcile.1.clients = r.clients := by
  rcases reconcile_eq r with ⟨h, -⟩ | ⟨newSize, -, h⟩ <;> rw [h]

@[simp] theorem reconcile_inputMode (r : PaneRelay B) :
    r.reconcile.1.inputMode = r.inputMode := by
  rcases reconcile_eq r with ⟨h, -⟩ | ⟨newSize, -, h⟩ <;> rw [h]

omit [TerminalBackend B] in
/-- Only an open pane is locked by a request. -/
theorem requestInputLock_eq (r : PaneRelay B) (c : ClientId) :
    (r.requestInputLock c).1 =
      if r.inputMode = .unlocked then { r with inputMode := .locked c } else r := by
  rw [requestInputLock]
  cases hmode : r.inputMode with
  | unlocked => rfl
  | locked holder => by_cases h : holder = c <;> simp only [h, if_true, if_false, reduceCtorEq]
  | disabled => rfl

omit [TerminalBackend B] in
theorem releaseInputLock_eq (r : PaneRelay B) (c : ClientId) :
    (r.releaseInputLock c).1 = r.unlockIfHeld c := by
  rw [releaseInputLock, unlockIfHeld]
  split <;> rfl

/-- The end of a channel leaves every entry that was made through another one. -/
theorem lookup_detachChannel_of_ne (r : PaneRelay B) (client : ClientId) (ctrl : ChannelId)
    {c : ClientId} {sender : ClientSender} (h : r.clients.lookup c = some sender)
    (hne : sender.ctrlTx ≠ ctrl) :
    (r.detachChannel client ctrl).1.clients.lookup c = some sender := by
  rw [detachChannel]
  split
  next hours =>
    rw [reconcile_clients, removeClient_clients, Table.lookup_erase_eq, if_neg, h]
    rintro rfl
    rw [h] at hours
    exact hne (of_decide_eq_true hours)
  next => exact h

end PaneRelay

end Kmux
