import Kmux.Daemon.EffectiveSize

/-!
# The window of the kernel's terminal

A pane's size is kept three times: recorded beside the client map, in the emulator, and in the
kernel's terminal, where the program reads it. Reconciling sets the first two together, under the
session lock, on every path that touches the map. The third is set by an ioctl that only `resize`
issues, after it has released the lock, so that others can come in between: `HostedPane` keeps the
resizes that have still to issue theirs.

Once nothing is pending the three agree after every prefix of a run exactly when no other operation
resizes the pane while nothing is pending, and the resize that issues its ioctl last is the one that
recorded the size, `window_agrees_iff`.
-/

namespace Kmux

/-- A terminal window, as the kernel takes it. -/
structure WindowSize where
  rows : UInt16
  cols : UInt16
  deriving DecidableEq, Repr

def termSizeToWindow (size : TermSize) : WindowSize := { rows := size.rows, cols := size.cols }

namespace PaneRelay

variable {B : Type*} [TerminalBackend B]

/-- The new size a resize goes on to issue, if it changed the size. -/
def issued (r : PaneRelay B) : RelayEvent B → Option WindowSize
  | .resize client size =>
    (({ r with clients := r.clients.modify client fun s ↦ { s with size } } : PaneRelay B)
      |>.applyEffectiveSize).2.map termSizeToWindow
  | _ => none

/-- The emulator's dimensions. -/
def emulatorWindow (r : PaneRelay B) : WindowSize :=
  { rows := r.pane.engine.rows, cols := r.pane.engine.cols }

/-- The recorded size. -/
def window (r : PaneRelay B) : WindowSize := termSizeToWindow r.size

end PaneRelay

/-- A pane this daemon hosts, with the window its terminal has in the kernel. -/
structure HostedPane (B : Type*) where
  relay : PaneRelay B
  /-- The window size last given to the kernel. -/
  pty : WindowSize
  /-- The resizes that have released the session lock and not issued their ioctl. -/
  pending : List WindowSize

/-- What happens to a hosted pane. A kick is a `detachFromPane`. -/
inductive HostedEvent (B : Type*)
  /-- An operation, up to where it releases the session lock. -/
  | operation (e : RelayEvent B)
  /-- The pending resize at position `k` goes through `manager.resize`. -/
  | ioctl (k : ℕ)

namespace HostedPane

variable {B : Type*} [TerminalBackend B]

def spawn (backend : B) (size : TermSize) : HostedPane B :=
  { relay := PaneRelay.new backend size, pty := termSizeToWindow size, pending := [] }

def step (s : HostedPane B) : HostedEvent B → HostedPane B
  | .operation e =>
    { s with relay := s.relay.step e, pending := s.pending ++ (s.relay.issued e).toList }
  | .ioctl k =>
    match s.pending[k]? with
    | some window => { s with pty := window, pending := s.pending.eraseIdx k }
    | none => s

/-- **The three sizes agree** when no operation is in progress. -/
def Agreed (s : HostedPane B) : Prop :=
  s.pending = [] → s.pty = s.relay.window ∧ s.relay.window = s.relay.emulatorWindow

end HostedPane

namespace PaneRelay

variable {B : Type*}

/-- The clients with which an operation reconciles the size without an ioctl to follow. -/
def unissued (r : PaneRelay B) : RelayEvent B → Option ClientMap
  | .attach client _ size ctrlTx capabilities =>
    let forceFullSnapshot := (r.clients.lookup client).elim false fun s ↦ s.forceFullSnapshot
    let sender : ClientSender :=
      { ctrlTx, forceFullSnapshot, paused := false, pauseAuto := false, noAutoPause := false
        capabilities, size }
    some (r.clients.insert client sender)
  | .detachFromPane client => some (r.clients.erase client)
  | .detachChannel client ctrl =>
    if (r.clients.lookup client).any fun s ↦ decide (s.ctrlTx = ctrl) then
      some (r.clients.erase client)
    else none
  | _ => none

/-- The recorded size suits a client map: it is the smallest rows and columns, or the map leaves one
of them open. -/
def Suits (r : PaneRelay B) (m : ClientMap) : Prop :=
  m.smallest TermSize.rows = none ∨ m.smallest TermSize.cols = none ∨
    (m.smallest TermSize.rows = some r.size.rows ∧ m.smallest TermSize.cols = some r.size.cols)

instance (r : PaneRelay B) (m : ClientMap) : Decidable (r.Suits m) :=
  inferInstanceAs (Decidable (_ ∨ _ ∨ _ ∧ _))

end PaneRelay

namespace HostedPane

variable {B : Type*}

/-- The condition on one event: while no resize is pending, an operation that issues no ioctl leaves
a client map that the recorded size suits; and the last of the pending resizes to issue its ioctl
issues the recorded size. -/
def Guarded (s : HostedPane B) : HostedEvent B → Prop
  | .operation e => s.pending = [] → ∀ m, s.relay.unissued e = some m → s.relay.Suits m
  | .ioctl k => s.pending.eraseIdx k = [] → ∀ w, s.pending[k]? = some w → w = s.relay.window

end HostedPane

/-! ## Reconciling -/

namespace PaneRelay

variable {B : Type*} [TerminalBackend B]

/-- The recorded size and the emulator's move together. -/
theorem window_reconcile (r : PaneRelay B) (h : r.window = r.emulatorWindow) :
    r.reconcile.1.window = r.reconcile.1.emulatorWindow := by
  rcases reconcile_eq r with ⟨hsame, -⟩ | ⟨newSize, -, hdone⟩
  · rw [hsame, h]
  · rw [hdone]
    rfl

/-- **Reconciling leaves the recorded size exactly when it suits the clients.** -/
theorem reconcile_window_iff (r : PaneRelay B) :
    r.reconcile.1.window = r.window ↔ r.Suits r.clients := by
  have hwindow : ∀ size size' : TermSize, termSizeToWindow size = termSizeToWindow size' ↔
      size.rows = size'.rows ∧ size.cols = size'.cols := fun size size' ↦ by
    rw [termSizeToWindow, termSizeToWindow, WindowSize.mk.injEq]
  rcases reconcile_eq r with ⟨hsame, hkept⟩ | ⟨newSize, heff, hdone⟩
  · rw [hsame]
    refine iff_of_true rfl ?_
    rcases hrows : r.clients.smallest TermSize.rows with _ | rows
    · exact .inl hrows
    · rcases hcols : r.clients.smallest TermSize.cols with _ | cols
      · exact .inr (.inl hcols)
      · obtain ⟨newSize, heff, rfl, rfl⟩ := exists_effectiveSize hrows hcols
        obtain ⟨hrows', hcols'⟩ := hkept newSize heff
        exact .inr (.inr ⟨hrows' ▸ hrows, hcols' ▸ hcols⟩)
  · obtain ⟨hrows, hcols⟩ := effectiveSize_eq_some heff
    rw [hdone, Suits, hrows, hcols]
    simp only [reduceCtorEq, false_or, Option.some.injEq]
    exact hwindow newSize r.size

/-- Every operation but a resize, as what it does to the size: it reconciles with `unissued`, or
leaves the recorded size and the emulator's as they are. -/
theorem step_window (r : PaneRelay B) (e : RelayEvent B) (he : ∀ c size, e ≠ .resize c size) :
    (∃ edited : PaneRelay B, r.unissued e = some edited.clients ∧ edited.size = r.size ∧
        edited.pane = r.pane ∧ r.step e = edited.reconcile.1) ∨
      (r.unissued e = none ∧ (r.step e).window = r.window ∧
        (r.step e).emulatorWindow = r.emulatorWindow) := by
  have hremove : ∀ client, (r.removeClient client).pane = r.pane := fun client ↦ by
    rw [removeClient, unlockIfHeld]
    split
    · rfl
    · rfl
  cases e with
  | attach client lastSeqno size ctrlTx capabilities =>
    exact .inl ⟨({ r with clients := r.clients.insert client _ } : PaneRelay B)
      |>.recomputeLiveCapabilities, rfl, rfl, rfl, rfl⟩
  | detachFromPane client =>
    exact .inl ⟨r.removeClient client, congrArg some (removeClient_clients r client).symm,
      removeClient_size r client, hremove client, rfl⟩
  | detachChannel client ctrl =>
    rw [unissued, step, detachChannel]
    split
    · exact .inl ⟨r.removeClient client, congrArg some (removeClient_clients r client).symm,
        removeClient_size r client, hremove client, rfl⟩
    · exact .inr ⟨rfl, rfl, rfl⟩
  | resize client size => exact absurd rfl (he client size)
  | requestInputLock client =>
    rw [step, requestInputLock_eq]
    split
    · exact .inr ⟨rfl, rfl, rfl⟩
    · exact .inr ⟨rfl, rfl, rfl⟩
  | releaseInputLock client =>
    rw [step, releaseInputLock_eq, unlockIfHeld]
    split
    · exact .inr ⟨rfl, rfl, rfl⟩
    · exact .inr ⟨rfl, rfl, rfl⟩
  | setSnapshotMode client enabled => exact .inr ⟨rfl, rfl, rfl⟩
  | setPaused client paused auto => exact .inr ⟨rfl, rfl, rfl⟩
  | setPaneNoAutoPause client exempt => exact .inr ⟨rfl, rfl, rfl⟩
  | output b =>
    have hobs := r.pane.observed_cycle b
    exact .inr ⟨rfl, rfl, by
      rw [emulatorWindow, emulatorWindow, WindowSize.mk.injEq]
      exact ⟨hobs.rows, hobs.cols⟩⟩
  | broadcast message seqno answer => exact .inr ⟨rfl, rfl, rfl⟩
  | clear => exact .inr ⟨rfl, rfl, rfl⟩

end PaneRelay

/-! ## Runs -/

namespace HostedPane

variable {B : Type*} [TerminalBackend B]

/-- A resize issues an ioctl exactly when it changes the recorded size, and for that size. -/
theorem issued_resize (r : PaneRelay B) (client : ClientId) (size : TermSize) :
    r.issued (.resize client size) = none ∧ (r.step (.resize client size)).window = r.window ∨
      r.issued (.resize client size) = some (r.step (.resize client size)).window := by
  rw [PaneRelay.issued, PaneRelay.step, PaneRelay.resize, PaneRelay.reconcile]
  set edited : PaneRelay B :=
    { r with clients := r.clients.modify client fun s ↦ { s with size } } with hedited
  rw [PaneRelay.applyEffectiveSize]
  rcases edited.effectiveSize with _ | newSize
  · exact .inl ⟨rfl, rfl⟩
  · by_cases hsame : newSize.rows = edited.size.rows ∧ newSize.cols = edited.size.cols
    · simp only [if_pos hsame]
      exact .inl ⟨rfl, rfl⟩
    · simp only [if_neg hsame]
      exact .inr rfl

/-- What every state of a guarded run satisfies. -/
structure Inv (s : HostedPane B) : Prop where
  emulator : s.relay.window = s.relay.emulatorWindow
  pty : s.pending = [] → s.pty = s.relay.window

omit [TerminalBackend B] in
theorem Inv.agreed {s : HostedPane B} (h : s.Inv) : s.Agreed :=
  fun hnone ↦ ⟨h.pty hnone, h.emulator⟩

/-- The emulator and the record move together under every operation. -/
theorem emulator_step {r : PaneRelay B} (h : r.window = r.emulatorWindow) (e : RelayEvent B) :
    (r.step e).window = (r.step e).emulatorWindow := by
  by_cases he : ∃ c size, e = .resize c size
  · obtain ⟨c, size, rfl⟩ := he
    exact PaneRelay.window_reconcile _ h
  · rw [not_exists] at he
    rcases r.step_window e fun c size hc ↦ he c ⟨size, hc⟩ with
      ⟨edited, -, hsize, hpane, hstep⟩ | ⟨-, hwindow, hemulator⟩
    · rw [hstep]
      refine PaneRelay.window_reconcile edited ?_
      rw [PaneRelay.window, PaneRelay.emulatorWindow, hsize, hpane]
      exact h
    · rw [hwindow, hemulator, h]

/-- **One event.** From an agreed state it leads to one exactly when it is guarded. -/
theorem Inv.agreed_step_iff {s : HostedPane B} (h : s.Inv) (e : HostedEvent B) :
    (s.step e).Agreed ↔ s.Guarded e := by
  cases e with
  | operation e =>
    rw [Agreed, Guarded, HostedPane.step, List.append_eq_nil_iff, and_imp]
    refine imp_congr_right fun hidle ↦ ?_
    have hemulator := emulator_step h.emulator e
    by_cases he : ∃ c size, e = .resize c size
    · -- a resize has its own ioctl to follow, or changes nothing
      obtain ⟨c, size, rfl⟩ := he
      refine iff_of_true (fun hissued ↦ ⟨?_, hemulator⟩) fun m hm ↦ by cases hm
      rcases issued_resize s.relay c size with ⟨-, hwindow⟩ | hsome
      · rw [h.pty hidle]
        exact hwindow.symm
      · rw [hsome] at hissued
        cases hissued
    · rw [not_exists] at he
      have hne : ∀ c size, e ≠ .resize c size := fun c size hc ↦ he c ⟨size, hc⟩
      have hissued : s.relay.issued e = none := by
        cases e with
        | resize c size => exact absurd rfl (hne c size)
        | _ => rfl
      rw [hissued]
      rcases s.relay.step_window e hne with ⟨edited, hsome, hsize, -, hstep⟩ | ⟨hnone, hwindow, -⟩
      · have hsuits : s.relay.Suits edited.clients ↔ edited.Suits edited.clients := by
          rw [PaneRelay.Suits, PaneRelay.Suits, hsize]
        rw [hsome]
        simp only [Option.some.injEq, forall_eq', hsuits]
        rw [← edited.reconcile_window_iff, show edited.window = s.relay.window from
          congrArg termSizeToWindow hsize, ← hstep, ← h.pty hidle]
        exact ⟨fun hagreed ↦ (hagreed rfl).1.symm, fun hsame _ ↦ ⟨hsame.symm, hemulator⟩⟩
      · rw [hnone]
        exact iff_of_true (fun _ ↦ ⟨(h.pty hidle).trans hwindow.symm, hemulator⟩) fun m hm ↦ by
          cases hm
  | ioctl k =>
    rw [Guarded, HostedPane.step]
    rcases s.pending[k]? with _ | w
    · exact iff_of_true h.agreed fun _ w hw ↦ by cases hw
    · refine imp_congr_right fun _ ↦ ⟨fun hagreed w' hw' ↦ ?_, fun hlast ↦ ?_⟩
      · cases hw'
        exact hagreed.1
      · exact ⟨hlast w rfl, h.emulator⟩

theorem Inv.step {s : HostedPane B} (h : s.Inv) (e : HostedEvent B) (hguard : s.Guarded e) :
    (s.step e).Inv where
  emulator := by
    cases e with
    | operation e => exact emulator_step h.emulator e
    | ioctl k =>
      rw [HostedPane.step]
      split
      · exact h.emulator
      · exact h.emulator
  pty := fun hnone ↦ ((h.agreed_step_iff e).mpr hguard hnone).1

/-- **The window of the kernel's terminal.** Over any run of a pane from its spawn, the window given
to the kernel, the recorded size and the emulator's agree whenever no operation is in progress, if
and only if every event of the run is guarded. -/
theorem window_agrees_iff (backend : B) (size : TermSize)
    (hsize : TerminalBackend.size backend = size.toBackendSize) (es : List (HostedEvent B)) :
    Run.Ok step Guarded (spawn backend size) es ↔
      ∀ n, (Run.exec step (spawn backend size) (es.take n)).Agreed := by
  have hstart : (spawn backend size).Inv := by
    refine ⟨?_, fun _ ↦ rfl⟩
    show termSizeToWindow size
      = { rows := (TerminalBackend.size backend).rows, cols := (TerminalBackend.size backend).cols }
    rw [hsize]
    rfl
  have hstep : ∀ (s : HostedPane B) (e : HostedEvent B), True → s.Inv → s.Guarded e →
      (s.step e).Inv := fun s e _ h hguard ↦ h.step e hguard
  exact Run.ok_iff_safe (fun s h ↦ Inv.agreed h) hstep
    (fun s e _ h hagreed ↦ (Inv.agreed_step_iff h e).mp hagreed) es (fun _ _ ↦ trivial) _ hstart

/-- A client resizes a pane of 24×80 to 30×100 and the ioctl follows. Then a client of 20×60
attaches. -/
def attachSmaller : List (HostedEvent MockBackend) :=
  [.operation (.attach 1 none ⟨24, 80, 0, 0⟩ 1 ⟨false, false⟩),
    .operation (.resize 1 ⟨30, 100, 0, 0⟩), .ioctl 0,
    .operation (.attach 2 none ⟨20, 60, 0, 0⟩ 2 ⟨false, false⟩)]

/-- The run is guarded up to the second attach, and agrees up to there. -/
theorem window_agrees_until_attach :
    (attachSmaller.take 3).length = 3 ∧
      ∀ n, (Run.exec step (spawn (MockBackend.new 24 80) ⟨24, 80, 0, 0⟩)
        ((attachSmaller.take 3).take n)).Agreed := by
  refine ⟨rfl, (window_agrees_iff (MockBackend.new 24 80) ⟨24, 80, 0, 0⟩ rfl
    (attachSmaller.take 3)).mp ⟨fun _ m hm ↦ ?_, fun _ m hm ↦ ?_, fun _ w hw ↦ ?_, trivial⟩⟩
  · cases hm
    decide
  · cases hm
  · cases hw
    decide

/-- The kernel is left at 30×100 for an emulator of 20×60. -/
theorem window_disagrees_after_attach :
    ¬∀ n, (Run.exec step (spawn (MockBackend.new 24 80) ⟨24, 80, 0, 0⟩)
      (attachSmaller.take n)).Agreed := by
  intro h
  exact absurd (h 4 (by decide)).1 (by decide)

end HostedPane

end Kmux
