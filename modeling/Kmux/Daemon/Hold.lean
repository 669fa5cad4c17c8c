import Kmux.Lib.Run
import Mathlib.Data.List.Basic

/-!
# Holding a pane's reader

A handoff parks every reader between two reads. The handshake uses two level-triggered cells: the
engine writes `held`, the reader writes `parked`, and neither carries a generation. The model
interleaves the calls of the engine and the polls of the futures it was given with the steps of the
reader, each access to a cell a step of its own.

A hold that comes while the reader is leaving an earlier park sees the old `parked` and resolves at
once, so a resolved hold does not mean that the reader is parked. It means that the reader is
between two reads and cannot reach the next one: whatever way it is out of the old park, it polls
`requested` before it reads, and `held` is set.
-/

namespace Kmux

/-- Where the reader is in `session_diff_loop`. -/
inductive ReaderPc
  /-- A fresh `select!`, with `requested` about to be polled for the first time. -/
  | selecting
  /-- `requested` is pending, and the read is polled next. -/
  | polled
  /-- No branch was ready. -/
  | suspended
  /-- Bytes were read and are not fed yet. -/
  | read
  /-- What was read is fed; more may be there. -/
  | fed
  /-- `requested` resolved, and `park` is about to report. -/
  | asked
  /-- Reported parked, and waiting for the release. -/
  | parked
  /-- The wait is over, and `park` is about to report that. -/
  | leaving
  /-- The read loop has ended, and the task has not returned. -/
  | ended
  /-- The task is over and its `HoldPoint` dropped. -/
  | gone
  deriving DecidableEq, Repr

/-- The reader stands between two reads and polls `requested` before the next one. -/
def ReaderPc.BetweenReads (pc : ReaderPc) : Prop :=
  pc = .selecting ∨ pc = .asked ∨ pc = .parked ∨ pc = .leaving ∨ pc = .gone

/-- The reader is in `park`, or about to be. -/
def ReaderPc.InPark (pc : ReaderPc) : Prop := pc = .asked ∨ pc = .parked ∨ pc = .leaving

/-- The reader has reported itself parked and has not taken that back. -/
def ReaderPc.Reported (pc : ReaderPc) : Prop := pc = .parked ∨ pc = .leaving

instance ReaderPc.decidableBetweenReads (pc : ReaderPc) : Decidable pc.BetweenReads :=
  inferInstanceAs (Decidable (_ ∨ _))

instance ReaderPc.decidableInPark (pc : ReaderPc) : Decidable pc.InPark :=
  inferInstanceAs (Decidable (_ ∨ _))

instance ReaderPc.decidableReported (pc : ReaderPc) : Decidable pc.Reported :=
  inferInstanceAs (Decidable (_ ∨ _))

/-- The future of one `hold`. -/
structure HoldFuture where
  /-- How many reads there had been when it resolved. -/
  resolvedAt : Option ℕ
  /-- The reader was let go after this hold was asked for. -/
  released : Bool
  deriving DecidableEq, Repr

/-- The two ends of a hold channel, the reader, and the futures handed out. -/
structure HoldChannel where
  held : Bool
  parked : Bool
  /-- The engine still has its `HoldControl`. -/
  control : Bool
  pc : ReaderPc
  /-- Reads so far, `try_read` included, and how many of them were fed to the emulator. -/
  reads : ℕ
  fed : ℕ
  futures : List HoldFuture
  deriving DecidableEq, Repr

/-- The steps of the engine, of whoever polls the futures, and of the reader. -/
inductive HoldEvent
  | hold
  | release
  | dropControl
  /-- Poll the `i`-th future. -/
  | poll (i : ℕ)
  /-- The first poll of `requested` in a `select!`. -/
  | requested
  /-- A suspended `select!` polls `requested` again. It was woken by the hold, or by something else
  while a hold has stored its value and has notified nobody yet. -/
  | wake (notified : Bool)
  | readReady
  | readPending
  | readEof
  /-- The foreground poll fired. -/
  | tick
  | feed
  | tryRead
  /-- The diff is broadcast and the loop goes round. -/
  | flush
  | reportParked
  | observeRelease
  | reportUnparked
  /-- The task returned, or was aborted at an await. -/
  | drop
  deriving DecidableEq, Repr

/-- The future sees the reader parked, or its sender dropped. -/
def HoldFuture.poll (ready : Bool) (reads : ℕ) (f : HoldFuture) : HoldFuture :=
  if ready && f.resolvedAt.isNone then { f with resolvedAt := some reads } else f

/-- The reader was let go. -/
def HoldFuture.letGo (f : HoldFuture) : HoldFuture := { f with released := true }

/-- The hold has resolved after `n` reads, and the reader was not let go since it was asked for. -/
def HoldFuture.Stands (f : HoldFuture) (n : ℕ) : Prop :=
  f.resolvedAt = some n ∧ f.released = false

instance (f : HoldFuture) (n : ℕ) : Decidable (f.Stands n) := inferInstanceAs (Decidable (_ ∧ _))

namespace HoldChannel

/-- `channel`, with the reader about to start its loop. -/
def channel : HoldChannel :=
  { held := false
    parked := false
    control := true
    pc := .selecting
    reads := 0
    fed := 0
    futures := [] }

/-- The reader moves from `pc` to `pc'`; elsewhere the event does nothing. -/
def goto (s : HoldChannel) (pc pc' : ReaderPc) : HoldChannel :=
  if s.pc = pc then { s with pc := pc' } else s

/-- One step. A call on a dropped control cannot be made and does nothing. -/
def step (s : HoldChannel) : HoldEvent → HoldChannel
  | .hold =>
    if s.control then
      { s with held := true, futures := s.futures ++ [⟨none, false⟩] }
    else s
  | .release =>
    if s.control then
      { s with held := false, futures := s.futures.map HoldFuture.letGo }
    else s
  | .dropControl => { s with control := false, futures := s.futures.map HoldFuture.letGo }
  | .poll i =>
    { s with futures := s.futures.modify i (HoldFuture.poll (s.parked || s.pc = .gone) s.reads) }
  | .requested =>
    -- A dropped control leaves its last value behind, so it is asked about first.
    if s.control && s.held then s.goto .selecting .asked else s.goto .selecting .polled
  | .wake notified =>
    if notified && s.held then s.goto .suspended .asked else s.goto .suspended .polled
  | .readReady => if s.pc = .polled then { s with pc := .read, reads := s.reads + 1 } else s
  | .readPending => s.goto .polled .suspended
  | .readEof => s.goto .polled .ended
  | .tick => s.goto .polled .selecting
  | .feed => if s.pc = .read then { s with pc := .fed, fed := s.fed + 1 } else s
  | .tryRead => if s.pc = .fed then { s with pc := .read, reads := s.reads + 1 } else s
  | .flush => s.goto .fed .selecting
  | .reportParked => if s.pc = .asked then { s with pc := .parked, parked := true } else s
  | .observeRelease => if !s.held || !s.control then s.goto .parked .leaving else s
  | .reportUnparked => if s.pc = .leaving then { s with pc := .selecting, parked := false } else s
  | .drop =>
    if s.pc = .selecting ∨ s.pc = .suspended ∨ s.pc = .parked ∨ s.pc = .ended then
      { s with pc := .gone }
    else s

/-! ## The invariant -/

/-- What every interleaving keeps. -/
structure Inv (s : HoldChannel) : Prop where
  parked_iff : s.pc ≠ .gone → (s.parked = true ↔ s.pc.Reported)
  /-- Everything read is fed, except between a read and its feeding. -/
  fed_eq : s.pc ≠ .read → s.fed = s.reads
  fed_succ : s.pc = .read → s.fed + 1 = s.reads
  held_of : ∀ f ∈ s.futures, f.released = false → s.held = true ∧ s.control = true
  between : ∀ f ∈ s.futures, f.released = false → ∀ n, f.resolvedAt = some n →
    s.reads = n ∧ s.pc.BetweenReads

theorem inv_channel : channel.Inv where
  parked_iff := fun _ ↦ by decide
  fed_eq := fun _ ↦ rfl
  fed_succ := fun h ↦ absurd h (by decide)
  held_of := fun _ h ↦ absurd h List.not_mem_nil
  between := fun _ h ↦ absurd h List.not_mem_nil

variable {s : HoldChannel}

/-! ### The engine's steps -/

private theorem inv_letGo (h : s.Inv) (held control : Bool) :
    ({ s with held := held, control := control, futures := s.futures.map HoldFuture.letGo } :
      HoldChannel).Inv := by
  have hgone : ∀ f ∈ s.futures.map HoldFuture.letGo, f.released ≠ false := by
    intro f hf
    obtain ⟨g, _, rfl⟩ := List.mem_map.mp hf
    exact Bool.noConfusion
  exact ⟨h.parked_iff, h.fed_eq, h.fed_succ, fun f hf hr ↦ absurd hr (hgone f hf),
    fun f hf hr ↦ absurd hr (hgone f hf)⟩

theorem inv_hold (h : s.Inv) : (s.step .hold).Inv := by
  rw [step]
  by_cases hc : s.control = true
  · rw [if_pos hc]
    refine ⟨h.parked_iff, h.fed_eq, h.fed_succ, fun f _ _ ↦ ⟨rfl, hc⟩, ?_⟩
    intro f hf hr n hn
    rcases List.mem_append.mp hf with hf | hf
    · exact h.between f hf hr n hn
    · rw [List.mem_singleton.mp hf] at hn
      exact absurd hn (by simp)
  · rwa [if_neg hc]

theorem inv_release (h : s.Inv) : (s.step .release).Inv := by
  rw [step]
  by_cases hc : s.control = true
  · rw [if_pos hc]
    exact inv_letGo h false s.control
  · rwa [if_neg hc]

theorem inv_dropControl (h : s.Inv) : (s.step .dropControl).Inv := inv_letGo h s.held false

/-- A future that resolves now does so because the reader has reported itself parked, or is gone. -/
private theorem betweenReads_of_ready (h : s.Inv) (hr : (s.parked || s.pc = .gone) = true) :
    s.pc.BetweenReads := by
  by_cases hg : s.pc = .gone
  · exact .inr (.inr (.inr (.inr hg)))
  · rw [decide_eq_false hg, Bool.or_false] at hr
    rcases (h.parked_iff hg).mp hr with hp | hp
    · exact .inr (.inr (.inl hp))
    · exact .inr (.inr (.inr (.inl hp)))

theorem inv_poll (h : s.Inv) (i : ℕ) : (s.step (.poll i)).Inv := by
  -- A polled future either was there before, or is one that has just resolved.
  have hmem : ∀ f ∈ s.futures.modify i (HoldFuture.poll (s.parked || s.pc = .gone) s.reads),
      ∃ g ∈ s.futures, f.released = g.released ∧
        (f.resolvedAt = g.resolvedAt ∨
          (s.parked || s.pc = .gone) = true ∧ f.resolvedAt = some s.reads) := by
    intro f hf
    obtain ⟨j, hj⟩ := List.mem_iff_getElem?.mp hf
    rw [List.getElem?_modify] at hj
    obtain ⟨g, hg, hfg⟩ := Option.map_eq_some_iff.mp hj
    refine ⟨g, List.mem_of_getElem? hg, ?_⟩
    by_cases hij : i = j
    · rw [if_pos hij, HoldFuture.poll] at hfg
      by_cases hb : ((s.parked || s.pc = .gone) && g.resolvedAt.isNone) = true
      · rw [if_pos hb] at hfg
        rw [← hfg]
        exact ⟨rfl, .inr ⟨(Bool.and_eq_true_iff.mp hb).1, rfl⟩⟩
      · rw [if_neg hb] at hfg
        rw [← hfg]
        exact ⟨rfl, .inl rfl⟩
    · rw [if_neg hij] at hfg
      rw [← hfg]
      exact ⟨rfl, .inl rfl⟩
  refine ⟨h.parked_iff, h.fed_eq, h.fed_succ, ?_, ?_⟩
  · intro f hf hr
    obtain ⟨g, hg, hrel, _⟩ := hmem f hf
    exact h.held_of g hg (hrel ▸ hr)
  · intro f hf hr n hn
    obtain ⟨g, hg, hrel, hres | ⟨hb, hres⟩⟩ := hmem f hf
    · exact h.between g hg (hrel ▸ hr) n (hres ▸ hn)
    · rw [hres, Option.some_inj] at hn
      have hbr : s.pc.BetweenReads := betweenReads_of_ready h hb
      exact ⟨hn, hbr⟩

/-! ### The reader's steps -/

/-- A reader that moves between two places with the same report, neither of them holding bytes that
are read and not fed. Where a hold stands, it must not leave the stretch between two reads. -/
private theorem inv_goto (h : s.Inv) {pc pc' : ReaderPc} (hrep : pc'.Reported ↔ pc.Reported)
    (hread : pc ≠ .read) (hread' : pc' ≠ .read) (hgone : pc ≠ .gone)
    (hbetween : s.held = true → s.control = true → pc.BetweenReads → pc'.BetweenReads) :
    (s.goto pc pc').Inv := by
  rw [goto]
  by_cases hpc : s.pc = pc
  · rw [if_pos hpc]
    refine ⟨fun _ ↦ ?_, fun _ ↦ h.fed_eq (hpc ▸ hread), fun he ↦ absurd he hread', h.held_of, ?_⟩
    · rw [hrep, ← hpc]
      exact h.parked_iff (hpc ▸ hgone)
    · intro f hf hr n hn
      obtain ⟨hn', hb⟩ := h.between f hf hr n hn
      obtain ⟨hheld, hc⟩ := h.held_of f hf hr
      exact ⟨hn', hbetween hheld hc (hpc ▸ hb)⟩
  · rwa [if_neg hpc]

/-- **A hold is seen before the next read.** -/
theorem inv_requested (h : s.Inv) : (s.step .requested).Inv := by
  rw [step]
  by_cases hb : (s.control && s.held) = true
  · rw [if_pos hb]
    exact inv_goto h (by decide) (by decide) (by decide) (by decide) fun _ _ _ ↦ by decide
  · rw [if_neg hb]
    refine inv_goto h (by decide) (by decide) (by decide) (by decide) fun hheld hc _ ↦ ?_
    exact absurd (Bool.and_eq_true_iff.mpr ⟨hc, hheld⟩) hb

theorem inv_wake (h : s.Inv) (notified : Bool) : (s.step (.wake notified)).Inv := by
  rw [step]
  by_cases hb : (notified && s.held) = true
  · rw [if_pos hb]
    exact inv_goto h (by decide) (by decide) (by decide) (by decide) fun _ _ hp ↦
      absurd hp (by decide)
  · rw [if_neg hb]
    exact inv_goto h (by decide) (by decide) (by decide) (by decide) fun _ _ hp ↦
      absurd hp (by decide)

/-- Only a reader that has polled `requested` in vain, or that is feeding, can read. -/
private theorem inv_read (h : s.Inv) (hpc : s.pc = .polled ∨ s.pc = .fed) :
    ({ s with pc := .read, reads := s.reads + 1 } : HoldChannel).Inv := by
  have hb : ¬ s.pc.BetweenReads := by
    rcases hpc with hpc | hpc <;> rw [hpc] <;> decide
  have hrep : ¬ s.pc.Reported := by
    rcases hpc with hpc | hpc <;> rw [hpc] <;> decide
  have hg : s.pc ≠ .gone := fun hg ↦ hb (.inr (.inr (.inr (.inr hg))))
  have hr : s.pc ≠ .read := by
    rcases hpc with hpc | hpc <;> rw [hpc] <;> decide
  refine ⟨fun _ ↦ ?_, fun hne ↦ absurd rfl hne, fun _ ↦ congrArg (· + 1) (h.fed_eq hr), h.held_of,
    fun f hf hrel n hn ↦ absurd (h.between f hf hrel n hn).2 hb⟩
  have hread : ¬ ReaderPc.read.Reported := by decide
  exact ⟨fun hp ↦ absurd ((h.parked_iff hg).mp hp) hrep, fun hp ↦ absurd hp hread⟩

theorem inv_readReady (h : s.Inv) : (s.step .readReady).Inv := by
  rw [step]
  by_cases hpc : s.pc = .polled
  · rw [if_pos hpc]
    exact inv_read h (.inl hpc)
  · rwa [if_neg hpc]

theorem inv_tryRead (h : s.Inv) : (s.step .tryRead).Inv := by
  rw [step]
  by_cases hpc : s.pc = .fed
  · rw [if_pos hpc]
    exact inv_read h (.inr hpc)
  · rwa [if_neg hpc]

theorem inv_feed (h : s.Inv) : (s.step .feed).Inv := by
  rw [step]
  by_cases hpc : s.pc = .read
  · rw [if_pos hpc]
    have hb : ¬ s.pc.BetweenReads := by rw [hpc]; decide
    refine ⟨fun _ ↦ ?_, fun _ ↦ h.fed_succ hpc, fun he ↦ ReaderPc.noConfusion he, h.held_of,
      fun f hf hrel n hn ↦ absurd (h.between f hf hrel n hn).2 hb⟩
    have hrep : ReaderPc.read.Reported ↔ ReaderPc.fed.Reported := by decide
    rwa [← hpc, ← h.parked_iff (by rw [hpc]; decide)] at hrep
  · rwa [if_neg hpc]

theorem inv_reportParked (h : s.Inv) : (s.step .reportParked).Inv := by
  rw [step]
  by_cases hpc : s.pc = .asked
  · rw [if_pos hpc]
    exact ⟨fun _ ↦ ⟨fun _ ↦ .inl rfl, fun _ ↦ rfl⟩, fun _ ↦ h.fed_eq (by rw [hpc]; decide),
      fun he ↦ ReaderPc.noConfusion he, h.held_of,
      fun f hf hrel n hn ↦ ⟨(h.between f hf hrel n hn).1, .inr (.inr (.inl rfl))⟩⟩
  · rwa [if_neg hpc]

theorem inv_reportUnparked (h : s.Inv) : (s.step .reportUnparked).Inv := by
  rw [step]
  by_cases hpc : s.pc = .leaving
  · rw [if_pos hpc]
    have hrep : ¬ ReaderPc.selecting.Reported := by decide
    exact ⟨fun _ ↦ ⟨Bool.noConfusion, fun hp ↦ absurd hp hrep⟩,
      fun _ ↦ h.fed_eq (by rw [hpc]; decide), fun he ↦ ReaderPc.noConfusion he, h.held_of,
      fun f hf hrel n hn ↦ ⟨(h.between f hf hrel n hn).1, .inl rfl⟩⟩
  · rwa [if_neg hpc]

theorem inv_observeRelease (h : s.Inv) : (s.step .observeRelease).Inv := by
  rw [step]
  by_cases hb : (!s.held || !s.control) = true
  · rw [if_pos hb]
    exact inv_goto h (by decide) (by decide) (by decide) (by decide) fun _ _ _ ↦ by decide
  · rwa [if_neg hb]

theorem inv_drop (h : s.Inv) : (s.step .drop).Inv := by
  rw [step]
  by_cases hpc : s.pc = .selecting ∨ s.pc = .suspended ∨ s.pc = .parked ∨ s.pc = .ended
  · rw [if_pos hpc]
    have hr : s.pc ≠ .read := by
      rcases hpc with hpc | hpc | hpc | hpc <;> rw [hpc] <;> decide
    exact ⟨fun hg ↦ absurd rfl hg, fun _ ↦ h.fed_eq hr, fun he ↦ ReaderPc.noConfusion he, h.held_of,
      fun f hf hrel n hn ↦ ⟨(h.between f hf hrel n hn).1, .inr (.inr (.inr (.inr rfl)))⟩⟩
  · rwa [if_neg hpc]

/-- **One step keeps the invariant.** -/
theorem inv_step (s : HoldChannel) (e : HoldEvent) (h : s.Inv) : (s.step e).Inv := by
  -- The moves that neither read nor report, and that no standing hold can reach.
  have hmove {pc pc' : ReaderPc} (hrep : pc'.Reported ↔ pc.Reported) (hread : pc ≠ .read)
      (hread' : pc' ≠ .read) (hgone : pc ≠ .gone) (hb : ¬ pc.BetweenReads) : (s.goto pc pc').Inv :=
    inv_goto h hrep hread hread' hgone fun _ _ hp ↦ absurd hp hb
  rcases e with _ | _ | _ | i | _ | notified | _ | _ | _ | _ | _ | _ | _ | _ | _ | _ | _
  · exact inv_hold h
  · exact inv_release h
  · exact inv_dropControl h
  · exact inv_poll h i
  · exact inv_requested h
  · exact inv_wake h notified
  · exact inv_readReady h
  · exact hmove (by decide) (by decide) (by decide) (by decide) (by decide)
  · exact hmove (by decide) (by decide) (by decide) (by decide) (by decide)
  · exact hmove (by decide) (by decide) (by decide) (by decide) (by decide)
  · exact inv_feed h
  · exact inv_tryRead h
  · exact hmove (by decide) (by decide) (by decide) (by decide) (by decide)
  · exact inv_reportParked h
  · exact inv_observeRelease h
  · exact inv_reportUnparked h
  · exact inv_drop h

theorem inv_exec (es : List HoldEvent) : (Run.exec step channel es).Inv :=
  Run.invariant inv_step es channel inv_channel

/-! ## After a release -/

/-- The run asks for no hold. -/
def HoldFree (es : List HoldEvent) : Prop := .hold ∉ es

instance (es : List HoldEvent) : Decidable (HoldFree es) := inferInstanceAs (Decidable (¬ _))

/-- Nothing keeps the reader parked: the hold was released, or the control is gone. -/
def Free (s : HoldChannel) : Prop := s.held = false ∨ s.control = false

@[simp] theorem held_goto (s : HoldChannel) (pc pc' : ReaderPc) :
    (s.goto pc pc').held = s.held := by
  rw [goto]
  split <;> rfl

@[simp] theorem control_goto (s : HoldChannel) (pc pc' : ReaderPc) :
    (s.goto pc pc').control = s.control := by
  rw [goto]
  split <;> rfl

/-- Only a hold sets `held`. -/
theorem held_step_of_ne (hheld : s.held = false) {e : HoldEvent} (he : e ≠ .hold) :
    (s.step e).held = false := by
  rcases e with _ | _ | _ | i | _ | notified | _ | _ | _ | _ | _ | _ | _ | _ | _ | _ | _ <;>
    first
      | exact absurd rfl he
      | (simp only [step]; (try split) <;> simp [hheld])

/-- A control that is gone stays gone. -/
theorem control_step (hc : s.control = false) (e : HoldEvent) : (s.step e).control = false := by
  rcases e with _ | _ | _ | i | _ | notified | _ | _ | _ | _ | _ | _ | _ | _ | _ | _ | _ <;>
    simp only [step] <;> (try split) <;> simp [hc]

theorem held_exec_of_holdFree (es : List HoldEvent) :
    ∀ {s : HoldChannel}, s.held = false → HoldFree es → (Run.exec step s es).held = false := by
  induction es with
  | nil => exact fun hs _ ↦ hs
  | cons e es ih =>
    intro s hs hfree
    have he : e ≠ .hold := fun he ↦ hfree (he ▸ List.mem_cons_self)
    exact ih (held_step_of_ne hs he) fun hmem ↦ hfree (List.mem_cons_of_mem e hmem)

theorem control_exec (es : List HoldEvent) :
    ∀ {s : HoldChannel}, s.control = false → (Run.exec step s es).control = false := by
  induction es with
  | nil => exact fun hs ↦ hs
  | cons e es ih => exact fun hs ↦ ih (control_step hs e)

theorem free_release (s : HoldChannel) : (s.step .release).Free := by
  rw [step]
  by_cases hc : s.control = true
  · rw [if_pos hc]
    exact .inl rfl
  · rw [if_neg hc]
    exact .inr (Bool.eq_false_iff.mpr hc)

theorem free_exec_of_holdFree (hs : s.Free) {es : List HoldEvent} (hfree : HoldFree es) :
    (Run.exec step s es).Free := by
  rcases hs with hs | hs
  · exact .inl (held_exec_of_holdFree es hs hfree)
  · exact .inr (control_exec es hs)

/-- The reader's own steps through `park`. -/
def parkSteps : List HoldEvent := [.reportParked, .observeRelease, .reportUnparked]

/-- **A free reader gets out of `park`** by its own steps alone. -/
theorem not_inPark_parkSteps (hs : s.Free) : ¬ (Run.exec step s parkSteps).pc.InPark := by
  have hwait : (!s.held || !s.control) = true := by
    rcases hs with hs | hs
    · rw [hs, Bool.not_false, Bool.true_or]
    · rw [hs, Bool.not_false, Bool.or_true]
  rw [parkSteps, Run.exec_cons, Run.exec_cons, Run.exec_cons, Run.exec_nil]
  rcases hpc : s.pc with _ | _ | _ | _ | _ | _ | _ | _ | _ | _ <;>
    simp [step, goto, hpc, hwait, ReaderPc.InPark]

theorem not_inPark_goto (hpc : ¬ s.pc.InPark) {pc pc' : ReaderPc} (hpc' : ¬ pc'.InPark) :
    ¬ (s.goto pc pc').pc.InPark := by
  rw [goto]
  by_cases h : s.pc = pc
  · rwa [if_pos h]
  · rwa [if_neg h]

/-- With `held` not set, a reader outside `park` does not enter it. -/
theorem not_inPark_step (hheld : s.held = false) (hpc : ¬ s.pc.InPark) (e : HoldEvent) :
    ¬ (s.step e).pc.InPark := by
  have hread : ¬ ReaderPc.read.InPark := by decide
  have hfed : ¬ ReaderPc.fed.InPark := by decide
  have hgone : ¬ ReaderPc.gone.InPark := by decide
  have hselecting : ¬ ReaderPc.selecting.InPark := by decide
  rcases e with _ | _ | _ | i | _ | notified | _ | _ | _ | _ | _ | _ | _ | _ | _ | _ | _
  · rw [step]; split <;> exact hpc
  · rw [step]; split <;> exact hpc
  · exact hpc
  · exact hpc
  · rw [step, if_neg (by simp [hheld])]
    exact not_inPark_goto hpc (by decide)
  · rw [step, if_neg (by simp [hheld])]
    exact not_inPark_goto hpc (by decide)
  · rw [step]; split <;> assumption
  · exact not_inPark_goto hpc (by decide)
  · exact not_inPark_goto hpc (by decide)
  · exact not_inPark_goto hpc (by decide)
  · rw [step]; split <;> assumption
  · rw [step]; split <;> assumption
  · exact not_inPark_goto hpc (by decide)
  · have hasked : s.pc ≠ .asked := fun h ↦ hpc (.inl h)
    rwa [step, if_neg hasked]
  · have hparked : s.pc ≠ .parked := fun h ↦ hpc (.inr (.inl h))
    rw [step, goto, if_neg hparked, ite_self]
    exact hpc
  · rw [step]; split <;> assumption
  · rw [step]; split <;> assumption

theorem not_inPark_exec (es : List HoldEvent) : ∀ {s : HoldChannel}, s.held = false →
    ¬ s.pc.InPark → HoldFree es → ¬ (Run.exec step s es).pc.InPark := by
  induction es with
  | nil => exact fun _ hpc _ ↦ hpc
  | cons e es ih =>
    intro s hheld hpc hfree
    have he : e ≠ .hold := fun he ↦ hfree (he ▸ List.mem_cons_self)
    exact ih (held_step_of_ne hheld he) (not_inPark_step hheld hpc e)
      fun hmem ↦ hfree (List.mem_cons_of_mem e hmem)

/-! ## What a resolved hold promises -/

/-- A resolved hold that stands: there has been no read since it resolved, everything read is fed,
and a reader that is outside `park` is asked back into it by its next poll. -/
structure KeptBetweenReads (s : HoldChannel) (n : ℕ) : Prop where
  reads_eq : s.reads = n
  fed_eq : s.fed = n
  between : s.pc.BetweenReads
  asked : s.pc = .selecting → (s.step .requested).pc = .asked

theorem keptBetweenReads_of_inv (h : s.Inv) {f : HoldFuture} (hf : f ∈ s.futures) {n : ℕ}
    (hstands : f.Stands n) : s.KeptBetweenReads n := by
  obtain ⟨hres, hrel⟩ := hstands
  obtain ⟨hreads, hb⟩ := h.between f hf hrel n hres
  obtain ⟨hheld, hc⟩ := h.held_of f hf hrel
  have hread : s.pc ≠ .read := by
    intro hpc
    rw [hpc] at hb
    exact absurd hb (by decide)
  refine ⟨hreads, (h.fed_eq hread).trans hreads, hb, fun hpc ↦ ?_⟩
  rw [step, hheld, hc, goto]
  exact congrArg pc (if_pos hpc)

/-- The reader is not left parked: its own steps take it out of `park`, with the report taken
back. -/
structure NotLeftParked (s : HoldChannel) : Prop where
  leaves : ¬ (Run.exec step s parkSteps).pc.InPark
  unparked : (Run.exec step s parkSteps).pc ≠ .gone → (Run.exec step s parkSteps).parked = false

theorem notLeftParked_of_free (h : s.Inv) (hs : s.Free) : s.NotLeftParked := by
  have hout : ¬ (Run.exec step s parkSteps).pc.InPark := not_inPark_parkSteps hs
  refine ⟨hout, fun hg ↦ Bool.eq_false_iff.mpr fun hp ↦ hout (.inr ?_)⟩
  exact ((Run.invariant inv_step parkSteps s h).parked_iff hg).mp hp

/-- **What a hold promises**, over every interleaving. While a resolved hold stands the reader is
kept between two reads; after a release with no later hold it is not left parked, and once it is out
of `park` it stays out. -/
theorem resolved_hold_keeps_reader (es : List HoldEvent) :
    (∀ f ∈ (Run.exec step channel es).futures, ∀ n, f.Stands n →
      (Run.exec step channel es).KeptBetweenReads n) ∧
    ∀ fs, HoldFree fs →
      (Run.exec step channel (es ++ .release :: fs)).NotLeftParked ∧
      ((Run.exec step channel es).control = true →
        ¬ (Run.exec step channel (es ++ .release :: fs)).pc.InPark → ∀ gs, HoldFree gs →
        ¬ (Run.exec step channel (es ++ .release :: fs ++ gs)).pc.InPark) := by
  refine ⟨fun f hf n hn ↦ keptBetweenReads_of_inv (inv_exec es) hf hn, fun fs hfs ↦ ⟨?_, ?_⟩⟩
  · refine notLeftParked_of_free (inv_exec _) ?_
    rw [Run.exec_append, Run.exec_cons]
    exact free_exec_of_holdFree (free_release _) hfs
  · intro hc hout gs hgs
    have hheld : (Run.exec step channel (es ++ HoldEvent.release :: fs)).held = false := by
      rw [Run.exec_append, Run.exec_cons]
      refine held_exec_of_holdFree fs ?_ hfs
      rw [step, if_pos hc]
    rw [Run.exec_append]
    exact not_inPark_exec gs hheld hout hgs

/-- A hold asked for after one read: it resolves once the reader has parked. -/
def heldRun : List HoldEvent :=
  [.requested, .readReady, .hold, .feed, .flush, .requested, .reportParked, .poll 0]

theorem resolved_hold_keeps_reader_heldRun :
    (Run.exec step channel heldRun).KeptBetweenReads 1 ∧
      (Run.exec step channel (heldRun ++ [.release])).NotLeftParked ∧
      ¬ (Run.exec step channel (heldRun ++ .release :: parkSteps ++ [.requested])).pc.InPark :=
  ⟨(resolved_hold_keeps_reader heldRun).1 ⟨some 1, false⟩ (by decide) 1 (by decide),
    ((resolved_hold_keeps_reader heldRun).2 [] (by decide)).1,
    ((resolved_hold_keeps_reader heldRun).2 parkSteps (by decide)).2 (by decide) (by decide)
      [.requested] (by decide)⟩

/-- A hold that comes while the reader is leaving the park of the one before. -/
def staleRun : List HoldEvent :=
  [.hold, .requested, .reportParked, .poll 0, .release, .observeRelease, .hold, .poll 1,
    .reportUnparked]

/-- The stale report: the second hold of `staleRun` stands, and the reader is neither parked nor
gone. -/
theorem resolved_hold_not_parked :
    ¬ ∀ (es : List HoldEvent), ∀ f ∈ (Run.exec step channel es).futures, ∀ n, f.Stands n →
      (Run.exec step channel es).pc = .parked ∨ (Run.exec step channel es).parked = true ∨
        (Run.exec step channel es).pc = .gone := by
  intro h
  exact absurd (h staleRun ⟨some 0, false⟩ (by decide) 0 (by decide)) (by decide)

end HoldChannel

end Kmux
