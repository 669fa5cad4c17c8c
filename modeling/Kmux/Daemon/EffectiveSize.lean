import Kmux.Daemon.Clients
import Kmux.VtCore.MockBackend

/-!
# The effective size of a pane

The recorded size of a pane is a cached aggregate: the smallest rows and the smallest columns over
the clients attached. Every operation that the daemon runs under the session lock ends by
reconciling the cache. The relay's broadcast does not: it drops clients that cannot take a frame and
leaves the size as it was, so a pane can stay at the size of a client that has left.

The cache is right after every operation of a run exactly when no broadcast of the run drops the
clients that hold a smallest dimension, `size_tracks_iff`.
-/

namespace Kmux

namespace PaneRelay

variable {B : Type*}

/-! ## The cache -/

/-- The recorded size is the component-wise minimum, where there is one. -/
def Recorded (r : PaneRelay B) : Prop :=
  ∀ rows cols, r.clients.smallest TermSize.rows = some rows →
    r.clients.smallest TermSize.cols = some cols → r.size.rows = rows ∧ r.size.cols = cols

/-- After an operation from `r` to `r'` the recorded size is the component-wise minimum of the
positive sizes of the clients attached then, and is what it was when there is none. -/
def SizeTracks (r r' : PaneRelay B) : Prop :=
  match r'.clients.smallest TermSize.rows, r'.clients.smallest TermSize.cols with
  | some rows, some cols => r'.size.rows = rows ∧ r'.size.cols = cols
  | _, _ => r'.size = r.size

/-- The clients that a broadcast drops hold no smallest dimension on their own: what is left has the
same smallest rows and columns, or has none. -/
def KeepsSmallest (r : PaneRelay B) (answer : ClientId → TrySend) : Prop :=
  let left := r.clients.eraseAll (r.dead answer)
  left.smallest TermSize.rows = none ∨ left.smallest TermSize.cols = none ∨
    (left.smallest TermSize.rows = r.clients.smallest TermSize.rows ∧
      left.smallest TermSize.cols = r.clients.smallest TermSize.cols)

instance (r : PaneRelay B) (answer : ClientId → TrySend) : Decidable (r.KeepsSmallest answer) :=
  inferInstanceAs (Decidable (_ ∨ _ ∨ _ ∧ _))

/-- The condition on one event. -/
def KeepsSize (r : PaneRelay B) : RelayEvent B → Prop
  | .broadcast _ _ answer => r.KeepsSmallest answer
  | _ => True

theorem sizeTracks_iff {r r' : PaneRelay B} :
    SizeTracks r r' ↔ Recorded r' ∧
      (r'.clients.smallest TermSize.rows = none ∨ r'.clients.smallest TermSize.cols = none →
        r'.size = r.size) := by
  rw [SizeTracks, Recorded]
  cases hrows : r'.clients.smallest TermSize.rows with
  | none => simp
  | some rows =>
    cases hcols : r'.clients.smallest TermSize.cols with
    | none => simp
    | some cols => simp

theorem SizeTracks.recorded {r r' : PaneRelay B} (h : SizeTracks r r') : Recorded r' :=
  (sizeTracks_iff.mp h).1

/-! ## Operations that reconcile -/

theorem effectiveSize_eq_some {r : PaneRelay B} {newSize : TermSize}
    (h : r.effectiveSize = some newSize) :
    r.clients.smallest TermSize.rows = some newSize.rows ∧
      r.clients.smallest TermSize.cols = some newSize.cols := by
  rw [effectiveSize] at h
  simp only [Option.bind_eq_bind, Option.bind_eq_some_iff, Option.some.injEq] at h
  obtain ⟨rows, hrows, cols, hcols, rfl⟩ := h
  exact ⟨hrows, hcols⟩

theorem exists_effectiveSize {r : PaneRelay B} {rows cols : UInt16}
    (hrows : r.clients.smallest TermSize.rows = some rows)
    (hcols : r.clients.smallest TermSize.cols = some cols) :
    ∃ newSize, r.effectiveSize = some newSize ∧ newSize.rows = rows ∧ newSize.cols = cols := by
  rw [effectiveSize, hrows, hcols]
  exact ⟨_, rfl, rfl, rfl⟩

variable [TerminalBackend B]

/-- **Reconciling restores the cache**, whatever it was. -/
theorem recorded_reconcile (r : PaneRelay B) : Recorded r.reconcile.1 := by
  intro rows cols hrows hcols
  rw [reconcile_clients] at hrows hcols
  obtain ⟨newSize, heff, rfl, rfl⟩ := exists_effectiveSize hrows hcols
  rcases reconcile_eq r with ⟨hsame, hkept⟩ | ⟨newSize', heff', hdone⟩
  · rw [hsame]
    exact ⟨(hkept newSize heff).1.symm, (hkept newSize heff).2.symm⟩
  · rw [hdone, ← Option.some.inj (heff.symm.trans heff')]
    exact ⟨rfl, rfl⟩

theorem reconcile_size_of_none (r : PaneRelay B)
    (h : r.clients.smallest TermSize.rows = none ∨ r.clients.smallest TermSize.cols = none) :
    r.reconcile.1.size = r.size := by
  rcases reconcile_eq r with ⟨hsame, -⟩ | ⟨newSize, heff, -⟩
  · rw [hsame]
  · obtain ⟨hrows, hcols⟩ := effectiveSize_eq_some heff
    rw [hrows, hcols] at h
    simp at h

/-- An operation that edits the map and then reconciles. -/
theorem sizeTracks_reconcile {r edited : PaneRelay B} (hsize : edited.size = r.size) :
    SizeTracks r edited.reconcile.1 := by
  rw [sizeTracks_iff]
  refine ⟨recorded_reconcile edited, fun hnone ↦ ?_⟩
  rw [reconcile_clients] at hnone
  rw [reconcile_size_of_none edited hnone, hsize]

omit [TerminalBackend B] in
/-- An operation that leaves the recorded size and the smallest dimensions. -/
theorem sizeTracks_of_smallest_eq {r r' : PaneRelay B} (hr : Recorded r) (hsize : r'.size = r.size)
    (hsmallest : ∀ dim, r'.clients.smallest dim = r.clients.smallest dim) : SizeTracks r r' := by
  rw [sizeTracks_iff]
  refine ⟨fun rows cols hrows hcols ↦ ?_, fun _ ↦ hsize⟩
  rw [hsmallest] at hrows hcols
  rw [hsize]
  exact hr rows cols hrows hcols

/-! ## Eviction -/

omit [TerminalBackend B] in
/-- A client that a broadcast leaves was attached before. -/
theorem lookup_of_lookup_eraseAll {m : ClientMap} {dead : List ClientId} {c : ClientId}
    {s : ClientSender} (h : (m.eraseAll dead).lookup c = some s) : m.lookup c = some s := by
  rw [ClientMap.lookup_eraseAll] at h
  split at h
  · cases h
  · exact h

omit [TerminalBackend B] in
theorem exists_smallest_of_eraseAll {m : ClientMap} {dead : List ClientId}
    {dim : TermSize → UInt16} {d : UInt16} (h : (m.eraseAll dead).smallest dim = some d) :
    ∃ d', m.smallest dim = some d' := by
  obtain ⟨⟨c, s, hs, rfl⟩, hpos, -⟩ := ClientMap.smallest_eq_some_iff.mp h
  cases hm : m.smallest dim with
  | some d' => exact ⟨d', rfl⟩
  | none =>
    have hzero := ClientMap.smallest_eq_none_iff.mp hm c s (lookup_of_lookup_eraseAll hs)
    exact absurd hzero (UInt16.pos_iff_ne_zero.mp hpos)

/-- **One broadcast.** It keeps the cache right exactly when it takes no smallest dimension away. -/
theorem sizeTracks_broadcast_iff {r : PaneRelay B} (hr : Recorded r) (message : ServerMessage)
    (seqno : SequenceNo) (answer : ClientId → TrySend) :
    SizeTracks r (r.broadcastToClients message seqno answer).1 ↔ r.KeepsSmallest answer := by
  rw [SizeTracks, KeepsSmallest]
  simp only [broadcastToClients]
  cases hrows : (r.clients.eraseAll (r.dead answer)).smallest TermSize.rows with
  | none => simp
  | some rows =>
    cases hcols : (r.clients.eraseAll (r.dead answer)).smallest TermSize.cols with
    | none => simp
    | some cols =>
      -- clients with a size remain, so there was a minimum before, and it was recorded
      obtain ⟨rows', hrows'⟩ := exists_smallest_of_eraseAll hrows
      obtain ⟨cols', hcols'⟩ := exists_smallest_of_eraseAll hcols
      obtain ⟨hr1, hr2⟩ := hr rows' cols' hrows' hcols'
      rw [hrows', hcols', hr1, hr2]
      simp only [reduceCtorEq, false_or, Option.some.injEq]
      exact and_congr eq_comm eq_comm

/-! ## Runs -/

/-- **One event.** Only a broadcast can go wrong. -/
theorem sizeTracks_step_iff {r : PaneRelay B} (hr : Recorded r) (e : RelayEvent B) :
    SizeTracks r (r.step e) ↔ r.KeepsSize e := by
  have hflag : ∀ (c : ClientId) (f : ClientSender → ClientSender), (∀ s, (f s).size = s.size) →
      SizeTracks r { r with clients := r.clients.modify c f } := fun c f hf ↦
    sizeTracks_of_smallest_eq hr rfl (ClientMap.smallest_modify r.clients c f hf)
  cases e with
  | attach c lastSeqno size ctrlTx capabilities =>
    exact iff_of_true (sizeTracks_reconcile rfl) trivial
  | detachFromPane c => exact iff_of_true (sizeTracks_reconcile (removeClient_size r c)) trivial
  | detachChannel c ctrl =>
    refine iff_of_true ?_ trivial
    rw [step, detachChannel]
    split
    · exact sizeTracks_reconcile (removeClient_size r c)
    · exact sizeTracks_of_smallest_eq hr rfl fun _ ↦ rfl
  | resize c size => exact iff_of_true (sizeTracks_reconcile rfl) trivial
  | requestInputLock c =>
    refine iff_of_true ?_ trivial
    rw [step, requestInputLock_eq]
    split <;> exact sizeTracks_of_smallest_eq hr rfl fun _ ↦ rfl
  | releaseInputLock c =>
    refine iff_of_true ?_ trivial
    rw [step, releaseInputLock_eq]
    exact sizeTracks_of_smallest_eq hr (unlockIfHeld_size r c) fun _ ↦ by rw [unlockIfHeld_clients]
  | setSnapshotMode c enabled => exact iff_of_true (hflag c _ fun _ ↦ rfl) trivial
  | setPaused c paused auto => exact iff_of_true (hflag c _ fun _ ↦ rfl) trivial
  | setPaneNoAutoPause c exempt => exact iff_of_true (hflag c _ fun _ ↦ rfl) trivial
  | output b => exact iff_of_true (sizeTracks_of_smallest_eq hr rfl fun _ ↦ rfl) trivial
  | broadcast message seqno answer => exact sizeTracks_broadcast_iff hr message seqno answer
  | clear =>
    refine iff_of_true (sizeTracks_iff.mpr ⟨fun rows cols hrows ↦ ?_, fun _ ↦ rfl⟩) trivial
    cases hrows

/-- **Effective size.** Over any run of a pane from its spawn, the recorded size is the minimum over
the clients attached after every operation, if and only if no broadcast of the run drops a smallest
dimension. -/
theorem size_tracks_iff (backend : B) (size : TermSize) (es : List (RelayEvent B)) :
    Run.Ok step (fun r e ↦ SizeTracks r (r.step e)) (new backend size) es ↔
      Run.Ok step KeepsSize (new backend size) es := by
  refine Run.ok_iff_of_invariant (fun r e hr ↦ sizeTracks_step_iff hr e)
    (fun r e _ htracks ↦ htracks.recorded) es (new backend size) ?_
  intro rows cols hrows
  cases hrows

/-- Clients of 24×80 and of 40×120 attach, and the lane of the smaller one is full. -/
def evictSmallest : List (RelayEvent MockBackend) :=
  [.attach 1 none ⟨24, 80, 0, 0⟩ 1 ⟨false, false⟩, .attach 2 none ⟨40, 120, 0, 0⟩ 2 ⟨false, false⟩,
    .broadcast .syncReset 1 fun c ↦ if c = 1 then .full else .ok]

/-- The pane stays at 24×80 for a client with 40×120. -/
theorem not_size_tracks_of_evicted_smallest :
    ¬ ∀ (size : TermSize) (es : List (RelayEvent MockBackend)),
      Run.Ok step (fun r e ↦ SizeTracks r (r.step e)) (new (MockBackend.new 2 2) size) es := by
  intro h
  have hevicted := (h ⟨24, 80, 0, 0⟩ evictSmallest).2.2.1
  have hrows : (run (new (MockBackend.new 2 2) ⟨24, 80, 0, 0⟩) evictSmallest).clients.smallest
      TermSize.rows = some 40 := by decide
  have hcols : (run (new (MockBackend.new 2 2) ⟨24, 80, 0, 0⟩) evictSmallest).clients.smallest
      TermSize.cols = some 120 := by decide
  have hsize : (run (new (MockBackend.new 2 2) ⟨24, 80, 0, 0⟩) evictSmallest).size.rows = 24 := by
    decide
  have hrecorded := hevicted.recorded 40 120 hrows hcols
  exact absurd (hsize.symm.trans hrecorded.1) (by decide)

end PaneRelay

end Kmux
