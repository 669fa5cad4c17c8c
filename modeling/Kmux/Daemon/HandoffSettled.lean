import Kmux.Daemon.Handoff

/-!
# How a handoff settles

Without crashes and without a shutdown a handoff should leave exactly one daemon serving: a
predecessor that ended it has a successor that takes over, and a predecessor that rolled back has
everything undone.

The second half holds in every run. The first does not. A successor that has lost its predecessor
waits for it to exit and, when the grace is over, takes a process that still runs for a daemon that
still serves. But a predecessor past its point of no return still runs until it exits. So a
predecessor that is slow to send `Released` and slow to exit leaves nobody to serve, and so does one
that reads an `Ack`, or writes its checkpoint after a `Decline`, when the successor has already
given up. `Guarded` excludes these steps, and they are all there is.
-/

namespace Kmux

namespace Predecessor

/-- Where the readers may be held. -/
def MayHold : Predecessor → Bool
  | .holding | .checkpointing | .completing | .awaitingAck | .finishing _ | .exiting _
  | .rollingBack .unsealing | .rollingBack .releasing => true
  | _ => false

/-- Where the final checkpoint may be sealed. -/
def MaySeal : Predecessor → Bool
  | .completing | .awaitingAck | .finishing _ | .exiting _ | .rollingBack .unsealing => true
  | _ => false

/-- Where pane creation may be closed. -/
def MayClose : Predecessor → Bool
  | .serving | .closing | .rolledBack => false
  | _ => true

end Predecessor

namespace Handoff

/-! ## The effects on the predecessor -/

/-- The effects are no more than the predecessor's place allows, and the checkpointer is in its slot
unless the sealed checkpoint has it. -/
structure EffectsOk (p : Predecessor) (fx : HandoffEffects) : Prop where
  held_of : fx.held = true → p.MayHold = true
  sealed_of : fx.isSealed = true → p.MaySeal = true
  gate_of : fx.gate = true → p.MayClose = true
  checkpointer_eq : fx.checkpointer = !fx.isSealed

/-- A move that leaves the effects alone, to a place that allows as much. -/
private theorem effectsOk_move {p q : Predecessor} {fx : HandoffEffects} (h : EffectsOk p fx)
    (hheld : p.MayHold = true → q.MayHold = true) (hsealed : p.MaySeal = true → q.MaySeal = true)
    (hgate : p.MayClose = true → q.MayClose = true) : EffectsOk q fx :=
  ⟨fun hf ↦ hheld (h.held_of hf), fun hf ↦ hsealed (h.sealed_of hf),
    fun hf ↦ hgate (h.gate_of hf), h.checkpointer_eq⟩

/-- After a rollback nothing is left. -/
theorem effects_eq_none {fx : HandoffEffects} (h : EffectsOk .rolledBack fx) :
    fx = HandoffEffects.none := by
  obtain ⟨gate, held, isSealed, checkpointer⟩ := fx
  have hgate : gate = false := Bool.eq_false_iff.mpr fun hf ↦ absurd (h.gate_of hf) (by decide)
  have hheld : held = false := Bool.eq_false_iff.mpr fun hf ↦ absurd (h.held_of hf) (by decide)
  have hsealed : isSealed = false :=
    Bool.eq_false_iff.mpr fun hf ↦ absurd (h.sealed_of hf) (by decide)
  have hslot : checkpointer = !isSealed := h.checkpointer_eq
  rw [hgate, hheld, hslot, hsealed]
  rfl

variable {s : Handoff}

/-- The same from a place that is known. -/
private theorem effectsOk_from {p₀ p q : Predecessor} {fx : HandoffEffects} (hpc : p₀ = p)
    (h : EffectsOk p₀ fx) (hheld : p.MayHold = true → q.MayHold = true)
    (hsealed : p.MaySeal = true → q.MaySeal = true)
    (hgate : p.MayClose = true → q.MayClose = true) : EffectsOk q fx := by
  rw [hpc] at h
  exact effectsOk_move h hheld hsealed hgate

private theorem effectsOk_predFail (h : EffectsOk s.pred s.effects) :
    EffectsOk s.predFail.pred s.predFail.effects :=
  effectsOk_move h (fun _ ↦ rfl) (fun _ ↦ rfl) fun _ ↦ rfl

/-- A frame sent before the commit point: on to a place that allows as much, or back. -/
private theorem effectsOk_predSend (h : EffectsOk s.pred s.effects) {m : HandoffMessage}
    {next : Predecessor} (hheld : s.pred.MayHold = true → next.MayHold = true)
    (hsealed : s.pred.MaySeal = true → next.MaySeal = true)
    (hgate : s.pred.MayClose = true → next.MayClose = true) :
    EffectsOk (s.predSend m next).pred (s.predSend m next).effects := by
  rw [predSend]
  split
  · exact effectsOk_move h hheld hsealed hgate
  · exact effectsOk_predFail h

private theorem effectsOk_predRecv (h : EffectsOk s.pred s.effects) :
    EffectsOk s.predRecv.pred s.predRecv.effects := by
  rw [predRecv]
  split
  · exact effectsOk_predFail h
  · split
    · exact h
    · simp only [predHandle]
      split
      next hpc _ => exact effectsOk_from hpc h (fun hf ↦ (by cases hf)) (fun hf ↦ (by cases hf)) id
      next hpc _ => exact effectsOk_from hpc h (fun hf ↦ (by cases hf)) (fun hf ↦ (by cases hf)) id
      next hpc _ => exact effectsOk_from hpc h (fun hf ↦ (by cases hf)) (fun hf ↦ (by cases hf)) id
      next hpc _ => exact effectsOk_from hpc h (fun _ ↦ rfl) (fun _ ↦ rfl) id
      · exact effectsOk_predFail h

/-- Each stage of a rollback undoes its own effect. -/
private theorem effectsOk_rollBack {stage : RollbackStage} (hpc : s.pred = .rollingBack stage)
    (h : EffectsOk s.pred s.effects) :
    EffectsOk (s.rollBack stage).pred (s.rollBack stage).effects := by
  rw [hpc] at h
  rcases stage with _ | _ | _ | _ | _ | _
  · refine ⟨h.held_of, fun hf ↦ (by cases hf), h.gate_of, ?_⟩
    have hslot := h.checkpointer_eq
    simp only [rollBack]
    rw [hslot]
    exact Bool.not_or_self _
  · exact ⟨fun hf ↦ (by cases hf), h.sealed_of, h.gate_of, h.checkpointer_eq⟩
  · exact effectsOk_move h id id id
  · exact effectsOk_move h id id id
  · rw [rollBack]
    split
    · rwa [hpc]
    · exact effectsOk_move h id id id
  · exact ⟨h.held_of, h.sealed_of, fun hf ↦ (by cases hf), h.checkpointer_eq⟩

/-- **The effects follow the predecessor's place.** -/
theorem effectsOk_predStep (h : EffectsOk s.pred s.effects) :
    EffectsOk s.predStep.pred s.predStep.effects := by
  rw [predStep]
  split
  · split <;> exact h
  next hpc =>
    rw [hpc] at h
    exact ⟨h.held_of, h.sealed_of, fun _ ↦ rfl, h.checkpointer_eq⟩
  next hpc => exact effectsOk_from hpc h id id id
  next hpc =>
    split
    · exact effectsOk_from hpc h id id id
    · exact h
  · exact h
  · exact effectsOk_predRecv h
  next hpc =>
    rw [hpc] at h
    exact ⟨fun _ ↦ rfl, h.sealed_of, h.gate_of, h.checkpointer_eq⟩
  next hpc =>
    exact effectsOk_predSend h (fun hf ↦ by rw [hpc] at hf; cases hf)
      (fun hf ↦ by rw [hpc] at hf; cases hf) fun _ ↦ rfl
  · exact effectsOk_predRecv h
  next hpc => exact effectsOk_from hpc h id id id
  next hpc => exact ⟨fun _ ↦ rfl, fun _ ↦ rfl, fun _ ↦ rfl, rfl⟩
  next hpc => exact effectsOk_predSend h (fun _ ↦ rfl) (fun _ ↦ rfl) fun _ ↦ rfl
  · exact effectsOk_predRecv h
  next hpc => exact ⟨fun _ ↦ rfl, fun _ ↦ rfl, fun _ ↦ rfl, rfl⟩
  next hpc => exact effectsOk_from hpc h id id id
  · exact h
  next stage hpc => exact effectsOk_rollBack hpc h
  · split <;> exact h

theorem effectsOk_predFails (h : EffectsOk s.pred s.effects) :
    EffectsOk s.predFails.pred s.predFails.effects := by
  rw [predFails]
  split
  next hpc => exact effectsOk_from hpc h id id id
  next hpc => exact effectsOk_from hpc h id id id
  all_goals first
    | exact effectsOk_predFail h
    | exact h
    | skip
  next hpc => exact effectsOk_from hpc h id id id
  next hpc => exact effectsOk_from hpc h id id id

theorem effectsOk_start (h : EffectsOk s.pred s.effects) :
    EffectsOk (s.step .start).pred (s.step .start).effects := by
  rw [step]
  split
  next hs => exact effectsOk_from hs.2.1 h id id id
  · exact h

theorem effectsOk_predHello (h : EffectsOk s.pred s.effects) (version : ℕ)
    (panes : List HandoffPaneMeta) (pid : ℕ) :
    EffectsOk (s.step (.predHello version panes pid)).pred
      (s.step (.predHello version panes pid)).effects := by
  rw [step]
  split
  next hs =>
    exact effectsOk_predSend h (fun hf ↦ by rw [hs.2] at hf; cases hf)
      (fun hf ↦ by rw [hs.2] at hf; cases hf) fun _ ↦ rfl
  · exact h

theorem effectsOk_holdTimesOut (h : EffectsOk s.pred s.effects) :
    EffectsOk (s.step .holdTimesOut).pred (s.step .holdTimesOut).effects := by
  rw [step]
  split
  · exact ⟨fun hf ↦ (by cases hf), fun _ ↦ rfl, fun _ ↦ rfl, h.checkpointer_eq⟩
  · exact h

end Handoff

/-! ## Settled handoffs -/

/-- The successor has lost the predecessor and waits for it to exit. -/
def Successor.IsLost : Successor → Bool
  | .lost _ => true
  | _ => false

/-- Neither a crash nor a shutdown. -/
def HandoffEvent.Orderly : HandoffEvent → Bool
  | .predDies | .succDies | .shutdown => false
  | _ => true

namespace Handoff

/-- The successor serves. -/
def SuccServes (s : Handoff) : Prop := s.succAlive = true ∧ s.SuccTakesOver

/-- What a handoff owes the sessions: a predecessor that ended it has a successor that takes over,
one that rolled back has undone everything and has a successor that stands down, and once both have
decided exactly one of them serves. -/
structure Settled (s : Handoff) : Prop where
  ended : s.pred.Ended = true → ∀ o, s.succ = .decided o → o.TakesOver = true
  rolledBack : s.pred = .rolledBack →
    s.effects = .none ∧ ∀ o, s.succ = .decided o → o = .standDown
  one_serves : s.pred.Ended = true ∨ s.pred = .rolledBack → ∀ o, s.succ = .decided o →
    (s.PredServes ↔ ¬ s.SuccServes)

/-- The predecessor's next step is the one that cannot be taken back: to read an `Ack`, or to finish
the checkpoint after a `Decline`. -/
def PassesPoint (s : Handoff) : Prop :=
  s.pred = .declined ∨ (s.pred = .awaitingAck ∧ s.shutdown = false ∧ s.toPred.head? = some .ack)

instance (s : Handoff) : Decidable s.PassesPoint := inferInstanceAs (Decidable (_ ∨ _))

/-- The successor does not give a predecessor up that is past its point of no return, and the
predecessor does not pass it when the successor has stood down. -/
def Guarded (s : Handoff) : HandoffEvent → Prop
  | .graceElapsed =>
    s.succ.IsLost = true → s.succAlive = true → s.predAlive = true → s.pred.Ended = false
  | .predStep => s.predAlive = true → s.PassesPoint → s.succ ≠ .decided .standDown
  | _ => True

instance (s : Handoff) : ∀ e : HandoffEvent, Decidable (s.Guarded e)
  | .graceElapsed => inferInstanceAs (Decidable (_ → _ → _ → _))
  | .predStep => inferInstanceAs (Decidable (_ → _ → _))
  | .start | .predHello _ _ _ | .predFails | .holdTimesOut | .kill | .predDies | .shutdown
  | .connect | .connectTimesOut _ | .unverified | .succStep | .succFails | .succDies =>
    inferInstanceAs (Decidable True)

/-! ## The invariant -/

/-- What a run without crashes and shutdowns keeps. -/
structure Inv (s : Handoff) : Prop where
  exclusive : s.Exclusive
  effectsOk : EffectsOk s.pred s.effects
  rollsBack_of_abort : .abort ∈ s.toSucc → s.pred.RollsBack = true
  /-- The predecessor ends the handoff only on the successor's answer. -/
  answered : .ack ∈ s.toPred ∨ .decline ∈ s.toPred ∨ s.pred = .declined ∨ s.pred.Ended = true →
    s.succ.Answered = true
  not_standDown : s.pred.Ended = true → s.succ ≠ .decided .standDown
  predAlive_or : s.predAlive = true ∨ s.pred.Ended = true
  succAlive_or : s.succAlive = true ∨ s.succ = .decided .standDown ∨ s.pred.RollsBack = true
  not_shutdown : s.shutdown = false

theorem inv_new (pid : ℕ) : (new pid).Inv where
  exclusive := exclusive_new pid
  effectsOk := ⟨fun h ↦ (by cases h), fun h ↦ (by cases h), fun h ↦ (by cases h), rfl⟩
  rollsBack_of_abort := fun h ↦ absurd h List.not_mem_nil
  answered := by
    rintro (h | h | h | h)
    · exact absurd h List.not_mem_nil
    · exact absurd h List.not_mem_nil
    · cases h
    · cases h
  not_standDown := fun h ↦ (by cases h)
  predAlive_or := .inl rfl
  succAlive_or := .inl rfl
  not_shutdown := rfl

theorem settled_of_inv {s : Handoff} (h : s.Inv) : s.Settled := by
  have hended : s.pred.Ended = true → ∀ o, s.succ = .decided o → o.TakesOver = true := by
    intro he o ho
    rcases o with fds | p | _
    · rfl
    · rfl
    · exact absurd ho (h.not_standDown he)
  have hback : s.pred = .rolledBack → ∀ o, s.succ = .decided o → o = .standDown := by
    intro hp o ho
    by_contra hne
    have htakes : o.TakesOver = true := by
      rcases o with fds | p | _
      · rfl
      · rfl
      · exact absurd rfl hne
    rcases h.exclusive.gone_or_ended ⟨o, ho, htakes⟩ with hgone | he
    · rcases h.predAlive_or with halive | he
      · exact absurd (halive.symm.trans hgone) (by decide)
      · rw [hp] at he
        cases he
    · rw [hp] at he
      cases he
  refine ⟨hended, fun hp ↦ ⟨effects_eq_none (hp ▸ h.effectsOk), hback hp⟩, ?_⟩
  rintro (he | hp) o ho
  · -- The handoff ended: the successor takes over, and nobody has stopped it.
    have hserves : s.SuccServes := by
      refine ⟨?_, o, ho, hended he o ho⟩
      rcases h.succAlive_or with halive | hsd | hrb
      · exact halive
      · exact absurd hsd (h.not_standDown he)
      · exact absurd ((Predecessor.not_ended_of_rollsBack hrb).symm.trans he) (by decide)
    refine ⟨fun hpred ↦ ?_, fun hno ↦ absurd hserves hno⟩
    rcases hpred.2 with hp | hp <;> rw [hp] at he <;> cases he
  · refine ⟨fun _ hs ↦ ?_, fun _ ↦ ⟨?_, .inr hp⟩⟩
    · obtain ⟨o', ho', htakes⟩ := hs.2
      rw [hback hp o' ho'] at htakes
      cases htakes
    · rcases h.predAlive_or with halive | he
      · exact halive
      · rw [hp] at he
        cases he

variable {s : Handoff}

/-- A step of the predecessor that does not pass the point of no return with the successor stood
down. -/
private theorem inv_of_predMove {s' : Handoff} (h : s.Inv) (hmove : s.PredMove s')
    (heffects : EffectsOk s'.pred s'.effects)
    (hpoint : s'.pred.Ended = true → s.pred.Ended = true ∨ s.succ ≠ .decided .standDown)
    (hdead : s.predAlive = false → s'.predAlive = false)
    (halive : s'.predAlive = true ∨ s'.pred.Ended = true) : s'.Inv where
  exclusive := exclusive_of_predMove h.exclusive hmove hdead
  effectsOk := heffects
  rollsBack_of_abort := fun ha ↦
    (hmove.abort_of ha).elim (fun ha ↦ hmove.rollsBack_mono (h.rollsBack_of_abort ha)) id
  answered := by
    rw [hmove.succ_eq]
    rintro (ha | hd | hp | he)
    · exact h.answered (.inl (hmove.toPred_subset _ ha))
    · exact h.answered (.inr (.inl (hmove.toPred_subset _ hd)))
    · rcases hmove.declined_of hp with hp | hd
      · exact h.answered (.inr (.inr (.inl hp)))
      · exact h.answered (.inr (.inl hd))
    · rcases hmove.ended_of he with he | ha | hp
      · exact h.answered (.inr (.inr (.inr he)))
      · exact h.answered (.inl ha)
      · exact h.answered (.inr (.inr (.inl hp)))
  not_standDown := fun he ↦ by
    rw [hmove.succ_eq]
    exact (hpoint he).elim h.not_standDown id
  predAlive_or := halive
  succAlive_or := by
    rw [hmove.succ_eq]
    rcases hmove.succAlive_of with hsucc | hrb
    · rw [hsucc]
      exact h.succAlive_or.imp_right (Or.imp_right hmove.rollsBack_mono)
    · exact .inr (.inr hrb)
  not_shutdown := hmove.shutdown_eq.trans h.not_shutdown

/-- A step of the successor, other than giving a running predecessor up. -/
private theorem inv_of_succMove {s' : Handoff} (h : s.Inv) (hmove : s.SuccMove s')
    (hsucc : s'.succAlive = true ∨ s'.succ = .decided .standDown) : s'.Inv where
  exclusive := exclusive_of_succMove h.exclusive hmove
  effectsOk := by
    rw [hmove.pred_eq, hmove.effects_eq]
    exact h.effectsOk
  rollsBack_of_abort := fun ha ↦ by
    rw [hmove.pred_eq]
    exact h.rollsBack_of_abort (hmove.toSucc_subset _ ha)
  answered := by
    rw [hmove.pred_eq]
    rintro (ha | hd | hp)
    · rcases hmove.answer_of _ ha (.inl rfl) with ha | ha
      · exact hmove.answered_mono (h.answered (.inl ha))
      · exact ha
    · rcases hmove.answer_of _ hd (.inr rfl) with hd | hd
      · exact hmove.answered_mono (h.answered (.inr (.inl hd)))
      · exact hd
    · exact hmove.answered_mono (h.answered (.inr (.inr hp)))
  not_standDown := fun he hsd ↦ by
    rw [hmove.pred_eq] at he
    rcases hmove.decided_of _ hsd with hsd | hj
    · exact h.not_standDown he hsd
    · rcases hj.standsDown rfl with ha | hna
      · have hrb := h.rollsBack_of_abort ha
        exact absurd ((Predecessor.not_ended_of_rollsBack hrb).symm.trans he) (by decide)
      · exact absurd (hna.symm.trans (h.answered (.inr (.inr (.inr he))))) (by decide)
  predAlive_or := by
    rw [hmove.predAlive_eq, hmove.pred_eq]
    exact h.predAlive_or
  succAlive_or := hsucc.imp_right .inl
  not_shutdown := hmove.shutdown_eq.trans h.not_shutdown

/-! ### The predecessor's events -/

private theorem ended_predRecv (h : s.predRecv.pred.Ended = true) :
    s.pred.Ended = true ∨ s.PassesPoint := by
  rw [predRecv] at h
  split at h
  · cases h
  next hsd =>
    split at h
    · exact .inl h
    next m rest htp =>
      simp only [predHandle] at h
      split at h
      · cases h
      · cases h
      · cases h
      next hpc =>
        refine .inr (.inr ⟨hpc, Bool.eq_false_iff.mpr hsd, ?_⟩)
        rw [htp]
        rfl
      · cases h

/-- The point of no return is passed where `PassesPoint` says. -/
private theorem ended_predStep (h : s.predStep.pred.Ended = true) :
    s.pred.Ended = true ∨ s.PassesPoint := by
  rw [predStep] at h
  split at h
  · split at h <;> exact .inl h
  · cases h
  · cases h
  · split at h
    · cases h
    · exact .inl h
  · exact .inl h
  · exact ended_predRecv h
  · cases h
  · rw [predSend] at h
    split at h <;> cases h
  · exact ended_predRecv h
  · cases h
  · cases h
  · rw [predSend] at h
    split at h <;> cases h
  · exact ended_predRecv h
  next hpc => exact .inr (.inl hpc)
  next hpc => exact .inl (by rw [hpc]; rfl)
  next hpc => exact .inl (by rw [hpc]; rfl)
  next stage hpc =>
    have hrb : (s.rollBack stage).pred.RollsBack = true := by
      have hmono := (predMove_predStep s).rollsBack_mono (by rw [hpc]; rfl)
      rwa [predStep, hpc] at hmono
    exact absurd ((Predecessor.not_ended_of_rollsBack hrb).symm.trans h) (by decide)
  · split at h <;> exact .inl h

private theorem ended_predStep_of_passesPoint (h : s.PassesPoint) :
    s.predStep.pred.Ended = true := by
  rcases h with hpc | ⟨hpc, hsd, hhead⟩
  · rw [predStep, hpc]
    rfl
  · obtain ⟨rest, hrest⟩ := List.head?_eq_some_iff.mp hhead
    rw [predStep, hpc]
    simp only
    rw [predRecv, hsd, hrest]
    simp only [Bool.false_eq_true, if_false, predHandle, hpc]
    rfl

private theorem ended_predFails (h : s.predFails.pred.Ended = true) : s.pred.Ended = true := by
  rw [predFails] at h
  split at h
  case h_12 ending hpc =>
    rw [hpc]
    rfl
  all_goals first
    | exact h
    | cases h

/-- Without a shutdown a predecessor exits only after it has ended the handoff. -/
private theorem predAlive_predStep (hsd : s.shutdown = false) (halive : s.predAlive = true) :
    s.predStep.predAlive = true ∨ s.predStep.pred.Ended = true := by
  have hkeep {s' : Handoff} (h : s'.predAlive = s.predAlive) :
      s'.predAlive = true ∨ s'.pred.Ended = true := .inl (h.trans halive)
  have hsend (m : HandoffMessage) (next : Predecessor) :
      (s.predSend m next).predAlive = s.predAlive := by
    rw [predSend]
    split <;> rfl
  have hrecv : s.predRecv.predAlive = s.predAlive := by
    simp only [predRecv, predHandle]
    repeat' split
    all_goals rfl
  have hback (stage : RollbackStage) : (s.rollBack stage).predAlive = s.predAlive := by
    rcases stage with _ | _ | _ | _ | _ | _
    all_goals first
      | rfl
      | (rw [rollBack]; split <;> rfl)
  rw [predStep]
  split
  · rw [hsd]
    exact hkeep rfl
  · exact hkeep rfl
  · exact hkeep rfl
  · split <;> exact hkeep rfl
  · exact hkeep rfl
  · exact hkeep hrecv
  · exact hkeep rfl
  · exact hkeep (hsend _ _)
  · exact hkeep hrecv
  · exact hkeep rfl
  · exact hkeep rfl
  · exact hkeep (hsend _ _)
  · exact hkeep hrecv
  · exact hkeep rfl
  · exact hkeep rfl
  next hpc => exact .inr (by rw [predExit, hpc]; rfl)
  · exact hkeep (hback _)
  · rw [hsd]
    exact hkeep rfl

private theorem predAlive_predFails : s.predFails.predAlive = s.predAlive := by
  rw [predFails]
  split <;> rfl

/-- A step of a living predecessor that stays alive and keeps to its side of the point. -/
private theorem inv_of_predMove' {s' : Handoff} (h : s.Inv) (hmove : s.PredMove s')
    (heffects : EffectsOk s'.pred s'.effects)
    (hpoint : s'.pred.Ended = true → s.pred.Ended = true) (halive : s'.predAlive = s.predAlive) :
    s'.Inv :=
  inv_of_predMove h hmove heffects (fun he ↦ .inl (hpoint he)) (fun hd ↦ halive.trans hd)
    (h.predAlive_or.imp halive.trans hmove.ended_mono)

theorem inv_start (h : s.Inv) : (s.step .start).Inv := by
  refine inv_of_predMove' h (predMove_start s) (effectsOk_start h.effectsOk) (fun he ↦ ?_) ?_
  · rw [step] at he
    split at he
    · cases he
    · exact he
  · rw [step]
    split <;> rfl

theorem inv_predHello (h : s.Inv) (version : ℕ) (panes : List HandoffPaneMeta) (pid : ℕ) :
    (s.step (.predHello version panes pid)).Inv := by
  refine inv_of_predMove' h (predMove_predHello s version panes pid)
    (effectsOk_predHello h.effectsOk version panes pid) (fun he ↦ ?_) ?_
  · rw [step] at he
    split at he
    · rw [predSend] at he
      split at he <;> cases he
    · exact he
  · rw [step, predSend]
    split
    · split <;> rfl
    · rfl

theorem inv_predStep (h : s.Inv) (hok : s.Guarded .predStep) : (s.step .predStep).Inv := by
  rw [step]
  split
  next halive =>
    refine inv_of_predMove h (predMove_predStep s) (effectsOk_predStep h.effectsOk) (fun he ↦ ?_)
      (fun hd ↦ absurd (halive.symm.trans hd) (by decide))
      (predAlive_predStep h.not_shutdown halive)
    exact (ended_predStep he).imp_right (hok halive)
  · exact h

theorem inv_predFails (h : s.Inv) : (s.step .predFails).Inv := by
  rw [step]
  split
  · exact inv_of_predMove' h (predMove_predFails s) (effectsOk_predFails h.effectsOk)
      ended_predFails predAlive_predFails
  · exact h

theorem inv_holdTimesOut (h : s.Inv) : (s.step .holdTimesOut).Inv := by
  refine inv_of_predMove' h (predMove_holdTimesOut s) (effectsOk_holdTimesOut h.effectsOk)
    (fun he ↦ ?_) ?_
  · rw [step] at he
    split at he
    · cases he
    · exact he
  · rw [step]
    split <;> rfl

theorem inv_kill (h : s.Inv) : (s.step .kill).Inv := by
  have heq : (s.step .kill).pred = s.pred ∧ (s.step .kill).effects = s.effects ∧
      (s.step .kill).predAlive = s.predAlive := by
    rw [step]
    split <;> exact ⟨rfl, rfl, rfl⟩
  refine inv_of_predMove' h (predMove_kill s) ?_ (fun he ↦ heq.1 ▸ he) heq.2.2
  rw [heq.1, heq.2.1]
  exact h.effectsOk

/-! ### The successor's events -/

theorem inv_connect (h : s.Inv) : (s.step .connect).Inv := by
  by_cases hc : s.succAlive = true ∧ s.succ = .connecting ∧ s.listening = true
  · refine inv_of_succMove h (succMove_connect s) (.inl ?_)
    rw [step, if_pos hc]
    exact hc.1
  · rwa [step, if_neg hc]

theorem inv_connectTimesOut (h : s.Inv) (answers : Bool) :
    (s.step (.connectTimesOut answers)).Inv := by
  by_cases hc : s.succAlive = true ∧ s.succ = .connecting
  · refine inv_of_succMove h (succMove_connectTimesOut s answers) (.inl ?_)
    rw [step, if_pos hc]
    exact hc.1
  · rwa [step, if_neg hc]

theorem inv_unverified (h : s.Inv) : (s.step .unverified).Inv := by
  by_cases hc : s.succAlive = true ∧ (s.succ = .connecting ∨ s.succ = .awaitingHello)
  · refine inv_of_succMove h (succMove_unverified s) (.inl ?_)
    rw [step, if_pos hc]
    exact hc.1
  · rwa [step, if_neg hc]

/-- A successor that has not stood down stays. -/
private theorem succAlive_succStep (halive : s.succAlive = true) :
    s.succStep.succAlive = true ∨ s.succStep.succ = .decided .standDown := by
  have hsend (m : HandoffMessage) (next : Successor) (afterAck : Option (List (ℕ × ℕ))) :
      (s.succSend m next afterAck).succAlive = true := by
    rw [succSend]
    split <;> exact halive
  have hrecv : s.succRecv.succAlive = true := by
    simp only [succRecv, succHandle]
    repeat' split
    all_goals exact halive
  rw [succStep]
  split
  · exact .inl halive
  · exact .inl hrecv
  · exact .inl (hsend _ _ _)
  · exact .inl hrecv
  · exact .inl (hsend _ _ _)
  · exact .inl halive
  · exact .inl hrecv
  · exact .inl (hsend _ _ _)
  · exact .inl hrecv
  · exact .inl (hsend _ _ _)
  · exact .inl hrecv
  · split
    · exact .inl halive
    · split <;> exact .inl halive
  next hpc => exact .inr hpc
  · exact .inl halive

theorem inv_succStep (h : s.Inv) : (s.step .succStep).Inv := by
  rw [step]
  split
  next halive => exact inv_of_succMove h (succMove_succStep s) (succAlive_succStep halive)
  · exact h

theorem inv_succFails (h : s.Inv) : (s.step .succFails).Inv := by
  rw [step]
  split
  next halive =>
    refine inv_of_succMove h (succMove_succFails s) (.inl ?_)
    rw [succFails]
    split <;> exact halive
  · exact h

/-- **Giving a predecessor up** is sound as long as it has not passed its point of no return. -/
theorem inv_graceElapsed (h : s.Inv) (hok : s.Guarded .graceElapsed) :
    (s.step .graceElapsed).Inv := by
  simp only [step]
  split
  next a hpc =>
    split
    next halive =>
      obtain ⟨hsucc, hpred⟩ := Bool.and_eq_true_iff.mp halive
      have hended : s.pred.Ended = false := by
        exact hok (by rw [hpc]; rfl) hsucc hpred
      refine ⟨⟨h.exclusive.ended_of_released, ?_⟩, h.effectsOk, h.rollsBack_of_abort, fun _ ↦ rfl,
        fun he ↦ absurd (hended.symm.trans he) (by decide), h.predAlive_or, .inl hsucc,
        h.not_shutdown⟩
      rintro ⟨o, ho, htakes⟩
      cases ho
      cases htakes
    · exact h
  · exact h

/-- **One guarded step** of an orderly run keeps the invariant. -/
theorem inv_step (s : Handoff) (e : HandoffEvent) (he : e.Orderly = true) (h : s.Inv)
    (hok : s.Guarded e) : (s.step e).Inv := by
  rcases e with _ | ⟨version, panes, pid⟩ | _ | _ | _ | _ | _ | _ | _ | answers | _ | _ | _ | _ | _
  · exact inv_start h
  · exact inv_predHello h version panes pid
  · exact inv_predStep h hok
  · exact inv_predFails h
  · exact inv_holdTimesOut h
  · exact inv_kill h
  · cases he
  · cases he
  · exact inv_connect h
  · exact inv_connectTimesOut h answers
  · exact inv_unverified h
  · exact inv_succStep h
  · exact inv_succFails h
  · exact inv_graceElapsed h hok
  · cases he

/-- A step into a settled state is a guarded one. -/
theorem guarded_of_settled_step (s : Handoff) (e : HandoffEvent) (hsettled : (s.step e).Settled) :
    s.Guarded e := by
  rcases e with _ | ⟨version, panes, pid⟩ | _ | _ | _ | _ | _ | _ | _ | answers | _ | _ | _ | _ | _
  case predStep =>
    intro halive hpoint hsd
    rw [step, if_pos halive] at hsettled
    have htakes := hsettled.ended (ended_predStep_of_passesPoint hpoint) .standDown
      ((predMove_predStep s).succ_eq.trans hsd)
    cases htakes
  case graceElapsed =>
    intro hlost hsucc hpred
    refine Bool.eq_false_iff.mpr fun he ↦ ?_
    have hstep : s.step .graceElapsed = s.succDecide .standDown := by
      simp only [step]
      split
      · rw [hsucc, hpred]
        rfl
      next hne =>
        rcases hpc : s.succ with _ | _ | _ | _ | _ | _ | _ | _ | _ | _ | a | _ <;>
          first
            | exact absurd hpc (hne a)
            | (rw [hpc] at hlost; cases hlost)
    rw [hstep] at hsettled
    have htakes := hsettled.ended he .standDown rfl
    cases htakes
  all_goals exact trivial

/-- **A handoff settles**, after every prefix of a run without crashes and shutdowns, exactly when
the successor never gives up a predecessor that is past its point of no return, and the predecessor
never passes it when the successor has stood down. -/
theorem settled_iff_guarded (pid : ℕ) (es : List HandoffEvent) (hes : ∀ e ∈ es, e.Orderly = true) :
    (∀ n, (Run.exec step (new pid) (es.take n)).Settled) ↔ Run.Ok step Guarded (new pid) es :=
  (Run.ok_iff_safe (fun _ h ↦ settled_of_inv h) inv_step
    (fun s e _ _ ↦ guarded_of_settled_step s e) es hes (new pid) (inv_new pid)).symm

/-- A handoff of one live pane up to the reading of the `Ack`. -/
def commitPrefix : List HandoffEvent :=
  [.start, .predStep, .predStep, .connect, .predStep, .predHello 3 [⟨4, 40, true⟩] 7,
    .succStep, .succStep, .predStep, .predStep, .succStep, .succStep, .succStep,
    .predStep, .predStep, .predStep, .predStep, .predStep, .succStep, .succStep, .predStep]

/-- The predecessor says `Released` and exits, and the successor takes the pane over. -/
def commitRun : List HandoffEvent := commitPrefix ++ [.predStep, .predStep, .succStep]

theorem settled_commitRun :
    (Run.exec step (new 7) (commitRun.take 24)).Settled ∧
      (Run.exec step (new 7) (commitRun.take 24)).pred = .exiting .committed ∧
      (Run.exec step (new 7) (commitRun.take 24)).succ = .decided (.inherited [(4, 40)]) :=
  ⟨(settled_iff_guarded 7 commitRun (by decide)).mpr (by decide) 24, by decide, by decide⟩

/-- The predecessor is slow after the `Ack`: the successor times out waiting for `Released`, and the
grace is over before the predecessor has exited. -/
def slowRun : List HandoffEvent :=
  commitPrefix ++ [.succFails, .graceElapsed, .predStep, .predStep]

/-- The slow predecessor: it has committed and is gone, and the successor has stood down. -/
theorem not_settled_slowRun :
    ¬ ∀ (pid : ℕ) (es : List HandoffEvent), (∀ e ∈ es, e.Orderly = true) →
      (Run.exec step (new pid) es).Settled := by
  intro h
  have htakes := (h 7 slowRun (by decide)).ended (by decide) .standDown (by decide)
  cases htakes

end Handoff

end Kmux
