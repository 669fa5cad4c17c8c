import Kmux.Lib.Run
import Mathlib.Data.List.Basic

/-!
# The gate on pane creation

A creation holds a read-write gate for reading from before its process is spawned until the pane is
in the session map; a handoff holds it for writing from before it collects the panes. A handoff that
committed opens the gate again and leaves a flag set, which keeps creations out from then on.

The two ways to be admitted look at the gate and at the flag in opposite orders. One of them,
`admit_pane_creation`, loads the flag first, so a whole handoff fits between its two steps, and the
creation is admitted after the commit. `Guarded` excludes exactly that step; under it no pane
escapes a handoff, in any interleaving.
-/

namespace Kmux

/-- Where one pane creation is. -/
inductive CreationPc
  /-- `admit_pane_creation` is called. -/
  | start
  /-- It loaded the flag and found it not set. -/
  | loaded
  /-- `wait_for_pane_admission` waits for the gate. -/
  | waiting
  /-- It has the gate, and has not loaded the flag yet. -/
  | acquired
  /-- Admitted, with the pane not in the session map yet. -/
  | admitted
  /-- Admitted, with the pane in the session map. -/
  | inserted
  /-- The gate is let go. -/
  | done
  /-- `HandoffInProgress`, or `None`. -/
  | refused
  deriving DecidableEq, Repr

/-- The creation was admitted and still has the gate. -/
def CreationPc.Admitted (pc : CreationPc) : Prop := pc = .admitted ∨ pc = .inserted

/-- The creation has the gate for reading. -/
def CreationPc.Holds (pc : CreationPc) : Prop := pc = .acquired ∨ pc.Admitted

instance (pc : CreationPc) : Decidable pc.Admitted := inferInstanceAs (Decidable (_ ∨ _))

instance (pc : CreationPc) : Decidable pc.Holds := inferInstanceAs (Decidable (_ ∨ _))

/-- What a handoff collected: the panes in the session map, and every pane created up to then. -/
structure Advertised where
  panes : List ℕ
  created : List ℕ
  deriving DecidableEq, Repr

/-- Where the handoff is. There is one at a time, and none after one that committed: `run` has the
checkpointer to itself, and a handoff that committed consumes it. -/
inductive HandoffPc
  | idle
  /-- `close_pane_creation` waits for the gate. -/
  | waiting
  /-- The gate is held for writing. -/
  | closed
  | collected (ad : Advertised)
  /-- `hand_off` returned `Ok`. -/
  | committed (ad : Advertised)
  /-- `keep_pane_creation_closed` has set the flag and not dropped the gate yet. -/
  | keeping (ad : Advertised)
  | done (ad : Advertised)
  deriving DecidableEq, Repr

namespace HandoffPc

/-- The handoff has the gate for writing. -/
def HasGate : HandoffPc → Bool
  | .closed | .collected _ | .committed _ | .keeping _ => true
  | .idle | .waiting | .done _ => false

/-- A `try_read` of the gate succeeds: nobody has it for writing, and nobody waits for that. -/
def TryReads : HandoffPc → Bool
  | .idle | .done _ => true
  | .waiting | .closed | .collected _ | .committed _ | .keeping _ => false

/-- The flag is set. -/
def Ended : HandoffPc → Bool
  | .keeping _ | .done _ => true
  | .idle | .waiting | .closed | .collected _ | .committed _ => false

/-- No handoff has pane creation closed, and none has committed. -/
def Open : HandoffPc → Bool
  | .idle | .waiting => true
  | .closed | .collected _ | .committed _ | .keeping _ | .done _ => false

/-- The panes advertised to the successor, for good once the handoff has committed. -/
def advertised? : HandoffPc → Option Advertised
  | .collected ad | .committed ad | .keeping ad | .done ad => some ad
  | .idle | .waiting | .closed => none

theorem open_iff (pc : HandoffPc) :
    pc.Open = true ↔ pc.HasGate = false ∧ pc.Ended = false := by
  rcases pc with _ | _ | _ | _ | _ | _ | _ <;> simp [Open, HasGate, Ended]

theorem hasGate_of_tryReads {pc : HandoffPc} (h : pc.TryReads = true) : pc.HasGate = false := by
  rcases pc with _ | _ | _ | _ | _ | _ | _ <;> first | rfl | cases h

end HandoffPc

/-- The gate, the flag, the creations and the session map. -/
structure PaneGate where
  /-- `pane_creation_ended`. -/
  ended : Bool
  handoff : HandoffPc
  creations : List CreationPc
  /-- The panes in the session map, each named by its creation. -/
  sessions : List ℕ
  /-- Every pane that was ever put there. -/
  created : List ℕ
  deriving DecidableEq, Repr

/-- The steps of the creations and of the handoff. -/
inductive GateEvent
  /-- A creation calls `admit_pane_creation`. -/
  | beginAdmit
  /-- A respawn calls `wait_for_pane_admission`. -/
  | beginWait
  | loadEnded (i : ℕ)
  | tryRead (i : ℕ)
  | acquireRead (i : ℕ)
  /-- The pane goes into the session map. -/
  | insert (i : ℕ)
  /-- The creation is over, or has failed, and lets the gate go. -/
  | finish (i : ℕ)
  /-- A pane leaves the session map. -/
  | closePane (i : ℕ)
  | requestClose
  | acquireWrite
  | collect
  /-- The handoff failed, and its gate is dropped. -/
  | rollback
  | commit
  | storeEnded
  | dropGate
  deriving DecidableEq, Repr

/-- Nothing was created since the panes were collected, and every pane there is was advertised. -/
def Advertised.Covers (ad : Advertised) (s : PaneGate) : Prop :=
  s.created = ad.created ∧ ∀ i ∈ s.sessions, i ∈ ad.panes

instance (ad : Advertised) (s : PaneGate) : Decidable (ad.Covers s) :=
  inferInstanceAs (Decidable (_ ∧ _))

namespace PaneGate

/-- A daemon without panes, with no handoff running. -/
def new : PaneGate :=
  { ended := false
    handoff := .idle
    creations := []
    sessions := []
    created := [] }

/-- Creation `i` goes on to `pc`. -/
def moveTo (s : PaneGate) (i : ℕ) (pc : CreationPc) : PaneGate :=
  { s with creations := s.creations.set i pc }

/-- One step. An event whose party is elsewhere, or has to wait, does nothing. -/
def step (s : PaneGate) : GateEvent → PaneGate
  | .beginAdmit => { s with creations := s.creations ++ [.start] }
  | .beginWait => { s with creations := s.creations ++ [.waiting] }
  | .loadEnded i =>
    match s.creations[i]? with
    | some .start => s.moveTo i (if s.ended then .refused else .loaded)
    | some .acquired => s.moveTo i (if s.ended then .refused else .admitted)
    | _ => s
  | .tryRead i =>
    if s.creations[i]? = some .loaded then
      s.moveTo i (if s.handoff.TryReads then .admitted else .refused)
    else s
  | .acquireRead i =>
    if s.creations[i]? = some .waiting ∧ s.handoff.HasGate = false then s.moveTo i .acquired
    else s
  | .insert i =>
    if s.creations[i]? = some .admitted then
      { s.moveTo i .inserted with sessions := s.sessions ++ [i], created := s.created ++ [i] }
    else s
  | .finish i =>
    match s.creations[i]? with
    | some .admitted => s.moveTo i .done
    | some .inserted => s.moveTo i .done
    | _ => s
  | .closePane i => { s with sessions := s.sessions.filter (· ≠ i) }
  | .requestClose => if s.handoff = .idle then { s with handoff := .waiting } else s
  | .acquireWrite =>
    if s.handoff = .waiting ∧ ∀ pc ∈ s.creations, ¬ pc.Holds then { s with handoff := .closed }
    else s
  | .collect =>
    if s.handoff = .closed then { s with handoff := .collected ⟨s.sessions, s.created⟩ } else s
  | .rollback =>
    match s.handoff with
    | .closed => { s with handoff := .idle }
    | .collected _ => { s with handoff := .idle }
    | _ => s
  | .commit =>
    match s.handoff with
    | .collected ad => { s with handoff := .committed ad }
    | _ => s
  | .storeEnded =>
    match s.handoff with
    | .committed ad => { s with handoff := .keeping ad, ended := true }
    | _ => s
  | .dropGate =>
    match s.handoff with
    | .keeping ad => { s with handoff := .done ad }
    | _ => s

/-- No pane escapes: a creation is admitted only while no handoff has pane creation closed and none
has committed, and a handoff that has collected the panes has them all. -/
structure Safe (s : PaneGate) : Prop where
  admitted_open : ∀ pc ∈ s.creations, pc.Admitted → s.handoff.Open = true
  advertised : ∀ ad, s.handoff.advertised? = some ad → ad.Covers s

/-- A `try_read` that succeeds finds the flag as `admit_pane_creation` loaded it: not set. -/
def Guarded (s : PaneGate) : GateEvent → Prop
  | .tryRead i => s.creations[i]? = some .loaded → s.handoff.TryReads = true → s.ended = false
  | _ => True

instance (s : PaneGate) : ∀ e : GateEvent, Decidable (s.Guarded e)
  | .tryRead _ => inferInstanceAs (Decidable (_ → _ → _))
  | .beginAdmit | .beginWait | .loadEnded _ | .acquireRead _ | .insert _ | .finish _ | .closePane _
  | .requestClose | .acquireWrite | .collect | .rollback | .commit | .storeEnded | .dropGate =>
    inferInstanceAs (Decidable True)

/-! ## The invariant -/

/-- The gate excludes, and the flag says where the handoff is. -/
structure Inv (s : PaneGate) : Prop where
  safe : s.Safe
  excl : s.handoff.HasGate = true → ∀ pc ∈ s.creations, ¬ pc.Holds
  ended_eq : s.ended = s.handoff.Ended

theorem inv_new : new.Inv where
  safe := ⟨fun _ h ↦ absurd h List.not_mem_nil, fun _ h ↦ by cases h⟩
  excl := fun h ↦ Bool.noConfusion h
  ended_eq := rfl

variable {s : PaneGate}

/-- Where no creation holds the gate, none is admitted. -/
private theorem not_admitted_of_not_holds (h : ∀ pc ∈ s.creations, ¬ pc.Holds) :
    ∀ pc ∈ s.creations, ¬ pc.Admitted :=
  fun pc hpc hadm ↦ h pc hpc (.inr hadm)

/-- A creation that moves to a place that holds no gate. -/
private theorem inv_moveTo (h : s.Inv) (i : ℕ) {pc : CreationPc} (hpc : ¬ pc.Holds) :
    (s.moveTo i pc).Inv := by
  have hmem : ∀ q ∈ (s.moveTo i pc).creations, q ∈ s.creations ∨ q = pc :=
    fun q hq ↦ List.mem_or_eq_of_mem_set hq
  refine ⟨⟨?_, h.safe.advertised⟩, ?_, h.ended_eq⟩
  · intro q hq hadm
    rcases hmem q hq with hq | rfl
    · exact h.safe.admitted_open q hq hadm
    · exact absurd (.inr hadm) hpc
  · intro hg q hq
    rcases hmem q hq with hq | rfl
    · exact h.excl hg q hq
    · exact hpc

/-- A creation that is given the gate for reading. -/
private theorem inv_moveTo_acquired (h : s.Inv) (i : ℕ) (hg : s.handoff.HasGate = false) :
    (s.moveTo i .acquired).Inv := by
  refine ⟨⟨?_, h.safe.advertised⟩, ?_, h.ended_eq⟩
  · intro q hq hadm
    rcases List.mem_or_eq_of_mem_set hq with hq | rfl
    · exact h.safe.admitted_open q hq hadm
    · exact absurd hadm (by decide)
  · intro hg'
    exact absurd (hg.symm.trans hg') Bool.false_ne_true

/-- A creation that is admitted with the gate open and the flag not set. -/
private theorem inv_moveTo_admitted (h : s.Inv) (i : ℕ) {pc : CreationPc}
    (hopen : s.handoff.Open = true) : (s.moveTo i pc).Inv := by
  refine ⟨⟨fun _ _ _ ↦ hopen, h.safe.advertised⟩, ?_, h.ended_eq⟩
  intro hg
  exact absurd (((HandoffPc.open_iff _).mp hopen).1.symm.trans hg) Bool.false_ne_true

/-- A creation begins, without the gate. -/
private theorem inv_begin (h : s.Inv) {pc : CreationPc} (hpc : ¬ pc.Holds) :
    ({ s with creations := s.creations ++ [pc] } : PaneGate).Inv := by
  refine ⟨⟨?_, h.safe.advertised⟩, ?_, h.ended_eq⟩
  · intro q hq hadm
    rcases List.mem_append.mp hq with hq | hq
    · exact h.safe.admitted_open q hq hadm
    · exact absurd (.inr (List.mem_singleton.mp hq ▸ hadm)) hpc
  · intro hg q hq
    rcases List.mem_append.mp hq with hq | hq
    · exact h.excl hg q hq
    · exact List.mem_singleton.mp hq ▸ hpc

/-- **The way of `wait_for_pane_admission`.** With the gate in hand no handoff can be past its own
acquisition without having set the flag. -/
theorem inv_loadEnded (h : s.Inv) (i : ℕ) : (s.step (.loadEnded i)).Inv := by
  simp only [step]
  split
  · split
    · exact inv_moveTo h i (by decide)
    · exact inv_moveTo h i (by decide)
  next hi =>
    by_cases he : s.ended = true
    · rw [if_pos he]
      exact inv_moveTo h i (by decide)
    · rw [if_neg he]
      refine inv_moveTo_admitted h i ((HandoffPc.open_iff _).mpr ⟨?_, ?_⟩)
      · refine Bool.eq_false_iff.mpr fun hg ↦ ?_
        exact absurd (.inl rfl) (h.excl hg _ (List.mem_of_getElem? hi))
      · rw [← h.ended_eq]
        exact Bool.eq_false_iff.mpr he
  · exact h

/-- **The way of `admit_pane_creation`**, when the flag is as it was loaded. -/
theorem inv_tryRead (h : s.Inv) (i : ℕ) (hok : s.Guarded (.tryRead i)) :
    (s.step (.tryRead i)).Inv := by
  rw [step]
  by_cases hi : s.creations[i]? = some .loaded
  · rw [if_pos hi]
    by_cases ht : s.handoff.TryReads = true
    · rw [if_pos ht]
      refine inv_moveTo_admitted h i ((HandoffPc.open_iff _).mpr ⟨?_, ?_⟩)
      · exact HandoffPc.hasGate_of_tryReads ht
      · rw [← h.ended_eq]
        exact hok hi ht
    · rw [if_neg ht]
      exact inv_moveTo h i (by decide)
  · rwa [if_neg hi]

theorem inv_acquireRead (h : s.Inv) (i : ℕ) : (s.step (.acquireRead i)).Inv := by
  rw [step]
  by_cases hi : s.creations[i]? = some .waiting ∧ s.handoff.HasGate = false
  · rw [if_pos hi]
    exact inv_moveTo_acquired h i hi.2
  · rwa [if_neg hi]

theorem advertised?_of_open {pc : HandoffPc} (h : pc.Open = true) : pc.advertised? = none := by
  rcases pc with _ | _ | _ | _ | _ | _ | _ <;> first | rfl | cases h

theorem inv_insert (h : s.Inv) (i : ℕ) : (s.step (.insert i)).Inv := by
  rw [step]
  by_cases hi : s.creations[i]? = some .admitted
  · rw [if_pos hi]
    have hopen : s.handoff.Open = true :=
      h.safe.admitted_open _ (List.mem_of_getElem? hi) (.inl rfl)
    have hmoved : (s.moveTo i .inserted).Inv := inv_moveTo_admitted h i hopen
    refine ⟨⟨hmoved.safe.admitted_open, fun ad had ↦ ?_⟩, hmoved.excl, hmoved.ended_eq⟩
    -- No handoff has collected anything while a creation is admitted.
    exact absurd ((advertised?_of_open hopen).symm.trans had) (Option.some_ne_none ad).symm
  · rwa [if_neg hi]

theorem inv_finish (h : s.Inv) (i : ℕ) : (s.step (.finish i)).Inv := by
  simp only [step]
  split
  · exact inv_moveTo h i (by decide)
  · exact inv_moveTo h i (by decide)
  · exact h

theorem inv_closePane (h : s.Inv) (i : ℕ) : (s.step (.closePane i)).Inv := by
  refine ⟨⟨h.safe.admitted_open, fun ad had ↦ ⟨(h.safe.advertised ad had).1, fun j hj ↦ ?_⟩⟩,
    h.excl, h.ended_eq⟩
  exact (h.safe.advertised ad had).2 j (List.mem_filter.mp hj).1

/-- The handoff moves while it has the gate, or as it takes it: no creation is admitted, and what
it has collected still covers everything. -/
private theorem inv_handoff (h : s.Inv) (hno : ∀ pc ∈ s.creations, ¬ pc.Holds) {pc : HandoffPc}
    {ended : Bool} (hended : ended = pc.Ended)
    (had : ∀ ad, pc.advertised? = some ad →
      s.handoff.advertised? = some ad ∨ ad = ⟨s.sessions, s.created⟩) :
    ({ s with handoff := pc, ended := ended } : PaneGate).Inv := by
  refine ⟨⟨fun q hq hadm ↦ absurd hadm (not_admitted_of_not_holds hno q hq), fun ad hpc ↦ ?_⟩,
    fun _ ↦ hno, hended⟩
  rcases had ad hpc with hold | rfl
  · exact h.safe.advertised ad hold
  · exact ⟨rfl, fun _ hi ↦ hi⟩

theorem inv_requestClose (h : s.Inv) : (s.step .requestClose).Inv := by
  rw [step]
  by_cases hi : s.handoff = .idle
  · rw [if_pos hi]
    refine ⟨⟨fun _ _ _ ↦ rfl, fun ad had ↦ ?_⟩, fun hg ↦ Bool.noConfusion hg, ?_⟩
    · exact absurd had (Option.some_ne_none ad).symm
    · rw [h.ended_eq, hi]
      rfl
  · rwa [if_neg hi]

theorem inv_acquireWrite (h : s.Inv) : (s.step .acquireWrite).Inv := by
  rw [step]
  by_cases hw : s.handoff = .waiting ∧ ∀ pc ∈ s.creations, ¬ pc.Holds
  · rw [if_pos hw]
    refine inv_handoff h hw.2 ?_ fun ad had ↦ absurd had (Option.some_ne_none ad).symm
    rw [h.ended_eq, hw.1]
    rfl
  · rwa [if_neg hw]

theorem inv_collect (h : s.Inv) : (s.step .collect).Inv := by
  rw [step]
  by_cases hc : s.handoff = .closed
  · rw [if_pos hc]
    refine inv_handoff h (h.excl (by rw [hc]; rfl)) ?_ fun ad had ↦ .inr ?_
    · rw [h.ended_eq, hc]
      rfl
    · exact (Option.some_inj.mp had).symm
  · rwa [if_neg hc]

/-- After a rollback the gate is open again and nothing is advertised. -/
private theorem inv_rollback_of (h : s.Inv) (hgate : s.handoff.HasGate = true)
    (hended : s.handoff.Ended = false) : ({ s with handoff := .idle } : PaneGate).Inv := by
  refine inv_handoff h (h.excl hgate) ?_ fun ad had ↦ absurd had (Option.some_ne_none ad).symm
  rw [h.ended_eq, hended]
  rfl

theorem inv_rollback (h : s.Inv) : (s.step .rollback).Inv := by
  simp only [step]
  split
  next hc => exact inv_rollback_of h (by rw [hc]; rfl) (by rw [hc]; rfl)
  next ad hc => exact inv_rollback_of h (by rw [hc]; rfl) (by rw [hc]; rfl)
  · exact h

theorem inv_commit (h : s.Inv) : (s.step .commit).Inv := by
  simp only [step]
  split
  next ad hc =>
    refine inv_handoff h (h.excl (by rw [hc]; rfl)) ?_ fun ad' had ↦ .inl ?_
    · rw [h.ended_eq, hc]
      rfl
    · rw [hc]
      exact had
  · exact h

theorem inv_storeEnded (h : s.Inv) : (s.step .storeEnded).Inv := by
  simp only [step]
  split
  next ad hc =>
    refine inv_handoff h (h.excl (by rw [hc]; rfl)) rfl fun ad' had ↦ .inl ?_
    rw [hc]
    exact had
  · exact h

theorem inv_dropGate (h : s.Inv) : (s.step .dropGate).Inv := by
  simp only [step]
  split
  next ad hc =>
    refine inv_handoff h (h.excl (by rw [hc]; rfl)) ?_ fun ad' had ↦ .inl ?_
    · rw [h.ended_eq, hc]
      rfl
    · rw [hc]
      exact had
  · exact h

/-- **One guarded step keeps the invariant.** -/
theorem inv_step (s : PaneGate) (e : GateEvent) (h : s.Inv) (hok : s.Guarded e) :
    (s.step e).Inv := by
  rcases e with _ | _ | i | i | i | i | i | i | _ | _ | _ | _ | _ | _ | _
  · exact inv_begin h (by decide)
  · exact inv_begin h (by decide)
  · exact inv_loadEnded h i
  · exact inv_tryRead h i hok
  · exact inv_acquireRead h i
  · exact inv_insert h i
  · exact inv_finish h i
  · exact inv_closePane h i
  · exact inv_requestClose h
  · exact inv_acquireWrite h
  · exact inv_collect h
  · exact inv_rollback h
  · exact inv_commit h
  · exact inv_storeEnded h
  · exact inv_dropGate h

/-! ## No pane escapes a handoff -/

/-- A step into a safe state is a guarded one: a `try_read` with the flag set admits a creation
after the commit. -/
theorem guarded_of_safe_step (s : PaneGate) (e : GateEvent) (h : s.Inv) (hsafe : (s.step e).Safe) :
    s.Guarded e := by
  rcases e with _ | _ | i | i | i | i | i | i | _ | _ | _ | _ | _ | _ | _
  case tryRead =>
    intro hi ht
    have hlt : i < s.creations.length := (List.getElem?_eq_some_iff.mp hi).1
    rw [step, if_pos hi, if_pos ht] at hsafe
    have hopen : s.handoff.Open = true :=
      hsafe.admitted_open .admitted (List.mem_set hlt _) (.inl rfl)
    rw [h.ended_eq]
    exact ((HandoffPc.open_iff _).mp hopen).2
  all_goals exact trivial

/-- **No pane escapes a handoff**, after any prefix of an interleaving, exactly when every
`try_read` that succeeds finds the flag not set. -/
theorem no_pane_escapes_iff (es : List GateEvent) :
    (∀ n, (Run.exec step new (es.take n)).Safe) ↔ Run.Ok step Guarded new es :=
  (Run.ok_iff_safe (fun _ h ↦ h.safe) (fun s e _ h ↦ inv_step s e h)
    (fun s e _ h ↦ guarded_of_safe_step s e h) es (fun _ _ ↦ trivial) new inv_new).symm

/-- A creation that loads the flag before a handoff closes the gate, and tries the gate after the
handoff has committed and opened it again. -/
def lateRun : List GateEvent :=
  [.beginAdmit, .loadEnded 0, .requestClose, .acquireWrite, .collect, .commit, .storeEnded,
    .dropGate, .tryRead 0, .insert 0]

/-- The late creation: it is admitted after the commit, and its pane was never advertised. -/
theorem pane_escapes_lateRun :
    ¬ ∀ es : List GateEvent, (Run.exec step new es).Safe := by
  intro h
  have hcovers := (h lateRun).advertised ⟨[], []⟩ (by decide)
  exact absurd hcovers (by decide)

end PaneGate

end Kmux
