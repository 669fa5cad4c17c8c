import Kmux.Lib.Run
import Mathlib.Data.List.Basic

/-!
# Handing the sessions to a successor

A graceful restart runs between two daemons. The predecessor advertises its panes, streams their
descriptors, parks its readers, writes a final checkpoint, and commits by reading one message, the
successor's `Ack`; a successor of another protocol version declines instead and restores the
checkpoint. Whatever fails before that rolls everything back. The successor takes over on the
predecessor's word, `Released`, or once it finds the predecessor gone, and stands down otherwise.

The model interleaves the two, frame by frame, over a socket that each side may close. Every wait of
either side may fail at any time (`predFails`, `succFails`): that is a timeout, an error, an end of
stream or an unreadable frame. Either process may die at any point, and a shutdown may be requested
at any point; before the commit it wins over a frame that is there to be read.
-/

namespace Kmux

/-! ## The messages -/

/-- A pane as `Hello` lists it. -/
structure HandoffPaneMeta where
  paneId : ℕ
  pid : ℕ
  hasLiveFd : Bool
  deriving DecidableEq, Repr

/-- The frames on the handoff socket. -/
inductive HandoffMessage
  | hello (version : ℕ) (panes : List HandoffPaneMeta) (pid : ℕ)
  | accept
  | decline
  | paneFd (paneId : ℕ)
  | paneFdAck
  | complete
  | ack
  | released
  | abort
  deriving DecidableEq, Repr

/-- `HANDOFF_PROTOCOL_VERSION`. -/
def handoffProtocolVersion : ℕ := 3

/-! ## The two sides -/

/-- How a handoff that reached its end ended. -/
inductive Ending
  | committed
  | declined
  deriving DecidableEq, Repr

/-- What a rollback does next. -/
inductive RollbackStage
  /-- Drop the final checkpoint, which unseals it. -/
  | unsealing
  /-- Let the readers go on. -/
  | releasing
  /-- Send `Abort`. -/
  | aborting
  /-- Drop the stream. -/
  | closing
  /-- Wait for the successor to exit, or kill it. -/
  | stopping
  /-- Admit pane creations again. -/
  | reopening
  deriving DecidableEq, Repr

/-- Where the predecessor is in `run`. -/
inductive Predecessor
  | serving
  /-- Waiting for the gate on pane creation. -/
  | closing
  /-- About to bind the handoff socket and spawn the successor. -/
  | binding
  | awaiting
  /-- Connected, with `Hello` to be sent. -/
  | greeting
  | awaitingReply (live : List ℕ)
  | streaming (live : List ℕ)
  | awaitingFdAck (rest : List ℕ)
  /-- The readers are asked to park. -/
  | holding
  | checkpointing
  | completing
  | awaitingAck
  /-- `Decline` was read, with the final checkpoint to be written. -/
  | declined
  /-- Past the point of no return, with `Released` to be sent. -/
  | finishing (ending : Ending)
  | exiting (ending : Ending)
  | rollingBack (stage : RollbackStage)
  | rolledBack
  deriving DecidableEq, Repr

/-- What the successor does after the exchange. -/
inductive HandoffOutcome
  /-- Adopt the live descriptors, each with its child's pid, and serve. -/
  | inherited (fds : List (ℕ × ℕ))
  /-- Restore the checkpoint and serve, after the predecessor if there was one. -/
  | restore (predecessor : Option ℕ)
  | standDown
  deriving DecidableEq, Repr

/-- Where the successor is in `run`. -/
inductive Successor
  | connecting
  | awaitingHello
  | declining
  /-- `Decline` is sent, and the answer awaited. -/
  | declined
  | accepting (panes : List HandoffPaneMeta)
  /-- `n` descriptors are still to come. -/
  | receiving (n : ℕ) (panes : List HandoffPaneMeta) (got : List (ℕ × ℕ))
  | ackingFd (n : ℕ) (panes : List HandoffPaneMeta) (got : List (ℕ × ℕ))
  | awaitingComplete (got : List (ℕ × ℕ))
  | acking (got : List (ℕ × ℕ))
  /-- `Ack` is sent, and the answer awaited. -/
  | acked (got : List (ℕ × ℕ))
  /-- The predecessor was lost, before the `Ack` or after it, and is being waited for. -/
  | lost (afterAck : Option (List (ℕ × ℕ)))
  | decided (outcome : HandoffOutcome)
  deriving DecidableEq, Repr

/-- The handoff can no longer be rolled back. -/
def Predecessor.Ended : Predecessor → Bool
  | .finishing _ | .exiting _ => true
  | _ => false

/-- The successor goes on to serve. -/
def HandoffOutcome.TakesOver : HandoffOutcome → Bool
  | .inherited _ | .restore _ => true
  | .standDown => false

/-- What a handoff does to the predecessor's own state, and a rollback undoes. -/
structure HandoffEffects where
  /-- Pane creation is closed. -/
  gate : Bool
  /-- The readers are held. -/
  held : Bool
  /-- The final checkpoint is written and sealed. -/
  isSealed : Bool
  /-- The checkpointer is in its slot. -/
  checkpointer : Bool
  deriving DecidableEq, Repr

/-- The effects before a handoff. -/
def HandoffEffects.none : HandoffEffects := ⟨false, false, false, true⟩

/-- Both daemons, the socket between them, and the effects on the predecessor. -/
structure Handoff where
  pred : Predecessor
  predAlive : Bool
  /-- The predecessor has its end of the socket. -/
  predOpen : Bool
  predPid : ℕ
  succ : Successor
  succAlive : Bool
  succOpen : Bool
  listening : Bool
  connected : Bool
  toSucc : List HandoffMessage
  toPred : List HandoffMessage
  /-- The predecessor was told to shut down. -/
  shutdown : Bool
  effects : HandoffEffects
  deriving DecidableEq, Repr

/-- The steps of the two processes and of their environment. -/
inductive HandoffEvent
  | start
  /-- The predecessor sends its `Hello`. -/
  | predHello (version : ℕ) (panes : List HandoffPaneMeta) (pid : ℕ)
  /-- The predecessor's next step succeeds. -/
  | predStep
  /-- It fails. -/
  | predFails
  | holdTimesOut
  | kill
  | predDies
  | shutdown
  | connect
  /-- Nothing answered at the handoff socket; `answers` is whether some other daemon answers at the
  control socket. -/
  | connectTimesOut (answers : Bool)
  /-- No runtime directory, or no peer credentials. -/
  | unverified
  /-- The successor's next step succeeds. -/
  | succStep
  /-- It fails. -/
  | succFails
  /-- The grace for a lost predecessor to exit is over. -/
  | graceElapsed
  | succDies
  deriving DecidableEq, Repr

namespace Handoff

/-- A daemon that serves, and a process started to succeed it. -/
def new (pid : ℕ) : Handoff :=
  { pred := .serving
    predAlive := true
    predOpen := true
    predPid := pid
    succ := .connecting
    succAlive := true
    succOpen := true
    listening := false
    connected := false
    toSucc := []
    toPred := []
    shutdown := false
    effects := .none }

/-! ## The predecessor -/

/-- `transfer` failed, and `roll_back` begins. -/
def predFail (s : Handoff) : Handoff := { s with pred := .rollingBack .unsealing }

def predExit (s : Handoff) : Handoff := { s with predAlive := false, predOpen := false }

/-- Send a frame before the commit point. -/
def predSend (s : Handoff) (m : HandoffMessage) (next : Predecessor) : Handoff :=
  if s.succOpen then { s with toSucc := s.toSucc ++ [m], pred := next } else s.predFail

/-- Send a frame whose loss changes nothing. -/
def predTell (s : Handoff) (m : HandoffMessage) (next : Predecessor) : Handoff :=
  { s with toSucc := if s.succOpen then s.toSucc ++ [m] else s.toSucc, pred := next }

/-- What a frame means before the commit point. -/
def predHandle (s : Handoff) (m : HandoffMessage) : Handoff :=
  match s.pred, m with
  | .awaitingReply live, .accept => { s with pred := .streaming live }
  | .awaitingReply _, .decline => { s with pred := .declined }
  | .awaitingFdAck rest, .paneFdAck => { s with pred := .streaming rest }
  | .awaitingAck, .ack => { s with pred := .finishing .committed }
  | _, _ => s.predFail

/-- Receive a frame before the commit point. A shutdown wins a tie. -/
def predRecv (s : Handoff) : Handoff :=
  if s.shutdown then s.predFail
  else
    match s.toPred with
    | [] => s
    | m :: rest => { s with toPred := rest }.predHandle m

/-- Write the final checkpoint; it keeps the checkpointer until it is unsealed. -/
def writeFinal (s : Handoff) (next : Predecessor) : Handoff :=
  { s with effects.isSealed := true, effects.checkpointer := false, pred := next }

/-- The step of `roll_back` and of what follows it in `hand_off` and `run`. -/
def rollBack (s : Handoff) : RollbackStage → Handoff
  | .unsealing =>
    { s with
      effects.isSealed := false
      effects.checkpointer := s.effects.checkpointer || s.effects.isSealed
      pred := .rollingBack .releasing }
  | .releasing => { s with effects.held := false, pred := .rollingBack .aborting }
  | .aborting => s.predTell .abort (.rollingBack .closing)
  | .closing => { s with predOpen := false, pred := .rollingBack .stopping }
  | .stopping => if s.succAlive then s else { s with pred := .rollingBack .reopening }
  | .reopening => { s with effects.gate := false, listening := false, pred := .rolledBack }

/-- The predecessor's next step, when it succeeds. -/
def predStep (s : Handoff) : Handoff :=
  match s.pred with
  | .serving => if s.shutdown then s.predExit else s
  | .closing => { s with effects.gate := true, pred := .binding }
  | .binding => { s with listening := true, pred := .awaiting }
  | .awaiting => if s.connected then { s with pred := .greeting } else s
  | .greeting => s
  | .awaitingReply _ => s.predRecv
  | .streaming [] => { s with effects.held := true, pred := .holding }
  | .streaming (p :: rest) => s.predSend (.paneFd p) (.awaitingFdAck rest)
  | .awaitingFdAck _ => s.predRecv
  | .holding => { s with pred := .checkpointing }
  | .checkpointing => s.writeFinal .completing
  | .completing => s.predSend .complete .awaitingAck
  | .awaitingAck => s.predRecv
  | .declined => s.writeFinal (.finishing .declined)
  | .finishing ending => s.predTell .released (.exiting ending)
  | .exiting _ => s.predExit
  | .rollingBack stage => s.rollBack stage
  | .rolledBack => if s.shutdown then s.predExit else s

/-- The predecessor's next step, when it fails. -/
def predFails (s : Handoff) : Handoff :=
  match s.pred with
  | .binding => { s with pred := .rollingBack .reopening }
  | .awaiting => { s with pred := .rollingBack .stopping }
  | .greeting | .awaitingReply _ | .streaming _ | .awaitingFdAck _ | .holding | .checkpointing
  | .completing | .awaitingAck | .declined => s.predFail
  | .finishing ending => { s with pred := .exiting ending }
  | .rollingBack .aborting => { s with pred := .rollingBack .closing }
  | .serving | .closing | .exiting _ | .rollingBack _ | .rolledBack => s

/-! ## The successor -/

def succDecide (s : Handoff) (outcome : HandoffOutcome) : Handoff :=
  { s with succ := .decided outcome, succOpen := false }

/-- The exchange failed: close the socket, and wait for the predecessor to exit. -/
def succLose (s : Handoff) (afterAck : Option (List (ℕ × ℕ))) : Handoff :=
  { s with succ := .lost afterAck, succOpen := false }

def succSend (s : Handoff) (m : HandoffMessage) (next : Successor)
    (afterAck : Option (List (ℕ × ℕ))) : Handoff :=
  if s.predOpen then { s with toPred := s.toPred ++ [m], succ := next } else s.succLose afterAck

/-- The child's pid of a pane, as `Hello` had it. -/
def pidOf (panes : List HandoffPaneMeta) (p : ℕ) : ℕ :=
  ((panes.find? (·.paneId = p)).map (·.pid)).getD 0

/-- What a frame means to the successor. -/
def succHandle (s : Handoff) (m : HandoffMessage) : Handoff :=
  match s.succ, m with
  | .awaitingHello, .hello version panes pid =>
    if version ≠ handoffProtocolVersion then { s with succ := .declining }
    else if pid ≠ s.predPid then s.succDecide .standDown
    else { s with succ := .accepting panes }
  | .declined, .released => s.succDecide (.restore (some s.predPid))
  | .declined, .abort => s.succDecide .standDown
  | .receiving (n + 1) panes got, .paneFd p =>
    { s with succ := .ackingFd n panes (got.filter (·.1 ≠ p) ++ [(p, pidOf panes p)]) }
  | .receiving _ _ _, .abort => s.succDecide .standDown
  | .awaitingComplete got, .complete => { s with succ := .acking got }
  | .awaitingComplete _, .abort => s.succDecide .standDown
  | .acked got, .released => s.succDecide (.inherited got)
  | .acked _, .abort => s.succDecide .standDown
  | .acked got, _ => s.succLose (some got)
  | _, _ => s.succLose none

def succRecv (s : Handoff) : Handoff :=
  match s.toSucc with
  | [] => s
  | m :: rest => { s with toSucc := rest }.succHandle m

/-- The successor's next step, when it succeeds. -/
def succStep (s : Handoff) : Handoff :=
  match s.succ with
  | .connecting => s
  | .awaitingHello => s.succRecv
  | .declining => s.succSend .decline .declined none
  | .declined => s.succRecv
  | .accepting panes =>
    s.succSend .accept (.receiving (panes.filter (·.hasLiveFd)).length panes []) none
  | .receiving 0 _ got => { s with succ := .awaitingComplete got }
  | .receiving (_ + 1) _ _ => s.succRecv
  | .ackingFd n panes got => s.succSend .paneFdAck (.receiving n panes got) none
  | .awaitingComplete _ => s.succRecv
  | .acking got => s.succSend .ack (.acked got) (some got)
  | .acked _ => s.succRecv
  | .lost afterAck =>
    -- `exits_within` finds the predecessor gone, or goes on waiting.
    if s.predAlive then s
    else
      match afterAck with
      | none => s.succDecide (.restore (some s.predPid))
      | some got => s.succDecide (.inherited got)
  | .decided .standDown => { s with succAlive := false }
  | .decided _ => s

/-- The successor's next step, when it fails. -/
def succFails (s : Handoff) : Handoff :=
  match s.succ with
  | .awaitingHello | .declining | .declined | .accepting _ | .receiving _ _ _ | .ackingFd _ _ _
  | .awaitingComplete _ => s.succLose none
  | .acking got => s.succLose (some got)
  | .acked got => s.succLose (some got)
  | .connecting | .lost _ | .decided _ => s

/-- A daemon that has not given its sockets up answers at the control socket. -/
def answersControl (s : Handoff) : Bool := s.predAlive && !s.pred.Ended

/-! ## The system -/

/-- One step. A process that is gone takes none. -/
def step (s : Handoff) : HandoffEvent → Handoff
  | .start =>
    if s.predAlive ∧ s.pred = .serving ∧ s.effects.checkpointer then { s with pred := .closing }
    else s
  | .predHello version panes pid =>
    if s.predAlive ∧ s.pred = .greeting then
      s.predSend (.hello version panes pid)
        (.awaitingReply ((panes.filter (·.hasLiveFd)).map (·.paneId)))
    else s
  | .predStep => if s.predAlive then s.predStep else s
  | .predFails => if s.predAlive then s.predFails else s
  | .holdTimesOut =>
    if s.predAlive ∧ s.pred = .holding then { s with effects.held := false }.predFail
    else s
  | .kill =>
    if s.predAlive ∧ s.pred = .rollingBack .stopping then
      { s with succAlive := false, succOpen := false }
    else s
  | .predDies => s.predExit
  | .shutdown => { s with shutdown := true }
  | .connect =>
    if s.succAlive ∧ s.succ = .connecting ∧ s.listening then
      { s with succ := .awaitingHello, connected := true }
    else s
  | .connectTimesOut answers =>
    if s.succAlive ∧ s.succ = .connecting then
      s.succDecide (if s.answersControl || answers then .standDown else .restore none)
    else s
  | .unverified =>
    if s.succAlive ∧ (s.succ = .connecting ∨ s.succ = .awaitingHello) then s.succDecide .standDown
    else s
  | .succStep => if s.succAlive then s.succStep else s
  | .succFails => if s.succAlive then s.succFails else s
  | .graceElapsed =>
    match s.succ with
    | .lost _ => if s.succAlive && s.predAlive then s.succDecide .standDown else s
    | _ => s
  | .succDies => { s with succAlive := false, succOpen := false }

/-! ## What a step of either side can do -/

end Handoff

/-- The predecessor has begun to roll back. -/
def Predecessor.RollsBack : Predecessor → Bool
  | .rollingBack _ | .rolledBack => true
  | _ => false

/-- The successor has sent the frame that lets the predecessor end the handoff, `Ack` or `Decline`,
or has given the exchange up. -/
def Successor.Answered : Successor → Bool
  | .declined | .acked _ | .lost _ | .decided _ => true
  | _ => false

theorem Predecessor.not_ended_of_rollsBack {p : Predecessor} (h : p.RollsBack = true) :
    p.Ended = false := by
  rcases p with _ | _ | _ | _ | _ | _ | _ | _ | _ | _ | _ | _ | _ | _ | _ | _ | _ <;>
    first | rfl | cases h

namespace Handoff

/-- What a step of the predecessor can do to the other side, to the socket, and to its own place. -/
structure PredMove (s s' : Handoff) : Prop where
  succ_eq : s'.succ = s.succ
  /-- Only a rollback stops the successor. -/
  succAlive_of : s'.succAlive = s.succAlive ∨ s'.pred.RollsBack = true
  shutdown_eq : s'.shutdown = s.shutdown
  toPred_subset : ∀ m ∈ s'.toPred, m ∈ s.toPred
  ended_mono : s.pred.Ended = true → s'.pred.Ended = true
  rollsBack_mono : s.pred.RollsBack = true → s'.pred.RollsBack = true
  /-- The point of no return is an `Ack` read, or a checkpoint written after a `Decline`. -/
  ended_of : s'.pred.Ended = true →
    s.pred.Ended = true ∨ .ack ∈ s.toPred ∨ s.pred = .declined
  declined_of : s'.pred = .declined → s.pred = .declined ∨ .decline ∈ s.toPred
  released_of : .released ∈ s'.toSucc → .released ∈ s.toSucc ∨ s'.pred.Ended = true
  abort_of : .abort ∈ s'.toSucc → .abort ∈ s.toSucc ∨ s'.pred.RollsBack = true

/-- A step that leaves the socket alone; where it passes the point of no return, it comes from
`declined`. -/
private theorem predMove_local {s s' : Handoff} (hsucc : s'.succ = s.succ)
    (halive : s'.succAlive = s.succAlive) (hshutdown : s'.shutdown = s.shutdown)
    (hpred : s'.toPred = s.toPred) (hsend : s'.toSucc = s.toSucc)
    (hended : s.pred.Ended = true → s'.pred.Ended = true)
    (hended' : s'.pred.Ended = true → s.pred.Ended = true ∨ s.pred = .declined)
    (hback : s.pred.RollsBack = true → s'.pred.RollsBack = true)
    (hdeclined : s'.pred = .declined → s.pred = .declined) : s.PredMove s' where
  succ_eq := hsucc
  succAlive_of := .inl halive
  shutdown_eq := hshutdown
  toPred_subset := fun _ hm ↦ hpred ▸ hm
  ended_mono := hended
  rollsBack_mono := hback
  ended_of := fun h ↦ (hended' h).imp_right .inr
  declined_of := fun h ↦ .inl (hdeclined h)
  released_of := fun h ↦ .inl (hsend ▸ h)
  abort_of := fun h ↦ .inl (hsend ▸ h)

/-- One that keeps to its side of the point of no return. -/
private theorem predMove_of_eq {s s' : Handoff} (hsucc : s'.succ = s.succ)
    (halive : s'.succAlive = s.succAlive) (hshutdown : s'.shutdown = s.shutdown)
    (hpred : s'.toPred = s.toPred) (hsend : s'.toSucc = s.toSucc)
    (hended : s'.pred.Ended = s.pred.Ended)
    (hback : s.pred.RollsBack = true → s'.pred.RollsBack = true)
    (hdeclined : s'.pred = .declined → s.pred = .declined) : s.PredMove s' :=
  predMove_local hsucc halive hshutdown hpred hsend (fun h ↦ hended.trans h)
    (fun h ↦ .inl (hended.symm.trans h)) hback hdeclined

theorem predMove_refl (s : Handoff) : s.PredMove s :=
  predMove_of_eq rfl rfl rfl rfl rfl rfl id id

private theorem predMove_predFail {s : Handoff} (hended : s.pred.Ended = false) :
    s.PredMove s.predFail :=
  predMove_of_eq rfl rfl rfl rfl rfl hended.symm (fun _ ↦ rfl) (fun h ↦ by cases h)

/-- A frame sent before the commit point is neither `Released` nor `Abort`. -/
private theorem predMove_predSend {s : Handoff} {m : HandoffMessage} {next : Predecessor}
    (hended : s.pred.Ended = false) (hback : s.pred.RollsBack = false) (hnext : next.Ended = false)
    (hdeclined : next ≠ .declined) (hm : m ≠ .released) (hm' : m ≠ .abort) :
    s.PredMove (s.predSend m next) := by
  rw [predSend]
  by_cases hopen : s.succOpen = true
  · rw [if_pos hopen]
    refine ⟨rfl, .inl rfl, rfl, fun _ hm ↦ hm, fun h ↦ ?_, fun h ↦ ?_, fun h ↦ ?_, fun h ↦ ?_,
      fun h ↦ ?_, fun h ↦ ?_⟩
    · exact absurd (hended.symm.trans h) Bool.false_ne_true
    · exact absurd (hback.symm.trans h) Bool.false_ne_true
    · exact absurd (hnext.symm.trans h) Bool.false_ne_true
    · exact absurd h hdeclined
    · rcases List.mem_append.mp h with h | h
      · exact .inl h
      · exact absurd (List.mem_singleton.mp h).symm hm
    · rcases List.mem_append.mp h with h | h
      · exact .inl h
      · exact absurd (List.mem_singleton.mp h).symm hm'
  · rw [if_neg hopen]
    exact predMove_predFail hended

/-- A frame read before the commit point: an `Ack` may end the handoff, a `Decline` may be taken for
one, and nothing else is either. -/
private theorem predMove_read {s : Handoff} {m : HandoffMessage} {rest : List HandoffMessage}
    (htp : s.toPred = m :: rest) (hended : s.pred.Ended = false) (hback : s.pred.RollsBack = false)
    {next : Predecessor} (hack : next.Ended = true → m = .ack)
    (hdecline : next = .declined → m = .decline) :
    s.PredMove { s with toPred := rest, pred := next } := by
  have hm : m ∈ s.toPred := by
    rw [htp]
    exact List.mem_cons_self
  refine ⟨rfl, .inl rfl, rfl, fun m' hm' ↦ ?_, fun h ↦ ?_, fun h ↦ ?_, fun h ↦ ?_, fun h ↦ ?_,
    Or.inl, Or.inl⟩
  · rw [htp]
    exact List.mem_cons_of_mem m hm'
  · exact absurd (hended.symm.trans h) Bool.false_ne_true
  · exact absurd (hback.symm.trans h) Bool.false_ne_true
  · exact .inr (.inl (hack h ▸ hm))
  · exact .inr (hdecline h ▸ hm)

private theorem predMove_predRecv {s : Handoff} (hended : s.pred.Ended = false)
    (hback : s.pred.RollsBack = false) : s.PredMove s.predRecv := by
  rw [predRecv]
  by_cases hsd : s.shutdown = true
  · rw [if_pos hsd]
    exact predMove_predFail hended
  · rw [if_neg hsd]
    rcases htp : s.toPred with _ | ⟨m, rest⟩
    · exact predMove_refl s
    · simp only [predHandle]
      split
      · exact predMove_read htp hended hback (fun h ↦ (by cases h)) fun h ↦ (by cases h)
      · exact predMove_read htp hended hback (fun h ↦ (by cases h)) fun _ ↦ rfl
      · exact predMove_read htp hended hback (fun h ↦ (by cases h)) fun h ↦ (by cases h)
      · exact predMove_read htp hended hback (fun _ ↦ rfl) fun h ↦ (by cases h)
      · exact predMove_read htp hended hback (fun h ↦ (by cases h)) fun h ↦ (by cases h)

/-- The last frame of an ending, `Released`, or of a rollback, `Abort`. -/
private theorem predMove_predTell {s : Handoff} {m : HandoffMessage} {next : Predecessor}
    (hended : next.Ended = s.pred.Ended) (hback : next.RollsBack = s.pred.RollsBack)
    (hdeclined : next ≠ .declined) (hm : m = .released → next.Ended = true)
    (hm' : m = .abort → next.RollsBack = true) : s.PredMove (s.predTell m next) := by
  have hmem : ∀ m' ∈ (s.predTell m next).toSucc, m' ∈ s.toSucc ∨ m' = m := by
    intro m' h
    rw [predTell] at h
    simp only at h
    split at h
    · exact (List.mem_append.mp h).imp_right List.mem_singleton.mp
    · exact .inl h
  refine ⟨rfl, .inl rfl, rfl, fun _ hm ↦ hm, fun h ↦ hended.trans h, fun h ↦ hback.trans h,
    fun h ↦ .inl (hended.symm.trans h), fun h ↦ absurd h hdeclined, fun h ↦ ?_, fun h ↦ ?_⟩
  · exact (hmem _ h).imp_right fun h ↦ hm h.symm
  · exact (hmem _ h).imp_right fun h ↦ hm' h.symm

private theorem predMove_rollBack {s : Handoff} {stage : RollbackStage}
    (hpc : s.pred = .rollingBack stage) : s.PredMove (s.rollBack stage) := by
  rcases stage with _ | _ | _ | _ | _ | _
  · exact predMove_of_eq rfl rfl rfl rfl rfl (by rw [hpc]; rfl) (fun _ ↦ rfl) fun h ↦ (by cases h)
  · exact predMove_of_eq rfl rfl rfl rfl rfl (by rw [hpc]; rfl) (fun _ ↦ rfl) fun h ↦ (by cases h)
  · exact predMove_predTell (by rw [hpc]; rfl) (by rw [hpc]; rfl) (fun h ↦ (by cases h))
      (fun h ↦ (by cases h)) fun _ ↦ rfl
  · exact predMove_of_eq rfl rfl rfl rfl rfl (by rw [hpc]; rfl) (fun _ ↦ rfl) fun h ↦ (by cases h)
  · rw [rollBack]
    split
    · exact predMove_refl s
    · exact predMove_of_eq rfl rfl rfl rfl rfl (by rw [hpc]; rfl) (fun _ ↦ rfl) fun h ↦ (by cases h)
  · exact predMove_of_eq rfl rfl rfl rfl rfl (by rw [hpc]; rfl) (fun _ ↦ rfl) fun h ↦ (by cases h)

theorem predMove_predExit (s : Handoff) : s.PredMove s.predExit :=
  predMove_of_eq rfl rfl rfl rfl rfl rfl id id

/-- **What a step of the predecessor can do.** -/
theorem predMove_predStep (s : Handoff) : s.PredMove s.predStep := by
  -- The moves before the commit point that neither read nor write the socket.
  have hmove {s' : Handoff} (hsucc : s'.succ = s.succ) (halive : s'.succAlive = s.succAlive)
      (hshutdown : s'.shutdown = s.shutdown) (hpred : s'.toPred = s.toPred)
      (hsend : s'.toSucc = s.toSucc) (hended : s.pred.Ended = false)
      (hended' : s'.pred.Ended = false) (hback : s.pred.RollsBack = false)
      (hdeclined : s'.pred ≠ .declined) : s.PredMove s' :=
    predMove_of_eq hsucc halive hshutdown hpred hsend (hended'.trans hended.symm)
      (fun h ↦ absurd (hback.symm.trans h) Bool.false_ne_true) fun h ↦ absurd h hdeclined
  rw [predStep]
  split
  next hpc =>
    split
    · exact predMove_predExit s
    · exact predMove_refl s
  next hpc => exact hmove rfl rfl rfl rfl rfl (by rw [hpc]; rfl) rfl (by rw [hpc]; rfl) (by simp)
  next hpc => exact hmove rfl rfl rfl rfl rfl (by rw [hpc]; rfl) rfl (by rw [hpc]; rfl) (by simp)
  next hpc =>
    split
    · exact hmove rfl rfl rfl rfl rfl (by rw [hpc]; rfl) rfl (by rw [hpc]; rfl) (by simp)
    · exact predMove_refl s
  next hpc => exact predMove_refl s
  next live hpc => exact predMove_predRecv (by rw [hpc]; rfl) (by rw [hpc]; rfl)
  next hpc => exact hmove rfl rfl rfl rfl rfl (by rw [hpc]; rfl) rfl (by rw [hpc]; rfl) (by simp)
  next pane rest hpc =>
    exact predMove_predSend (by rw [hpc]; rfl) (by rw [hpc]; rfl) rfl (by simp) (by simp) (by simp)
  next rest hpc => exact predMove_predRecv (by rw [hpc]; rfl) (by rw [hpc]; rfl)
  next hpc => exact hmove rfl rfl rfl rfl rfl (by rw [hpc]; rfl) rfl (by rw [hpc]; rfl) (by simp)
  next hpc =>
    exact hmove rfl rfl rfl rfl rfl (by rw [hpc]; rfl) rfl (by rw [hpc]; rfl) (by simp [writeFinal])
  next hpc =>
    exact predMove_predSend (by rw [hpc]; rfl) (by rw [hpc]; rfl) rfl (by simp) (by simp) (by simp)
  next hpc => exact predMove_predRecv (by rw [hpc]; rfl) (by rw [hpc]; rfl)
  next hpc =>
    exact predMove_local rfl rfl rfl rfl rfl (fun _ ↦ rfl) (fun _ ↦ .inr hpc)
      (fun h ↦ by rw [hpc] at h; cases h) fun h ↦ (by cases h)
  next ending hpc =>
    exact predMove_predTell (by rw [hpc]; rfl) (by rw [hpc]; rfl) (by simp) (fun _ ↦ rfl)
      fun h ↦ (by cases h)
  next ending hpc => exact predMove_predExit s
  next stage hpc => exact predMove_rollBack hpc
  next hpc =>
    split
    · exact predMove_predExit s
    · exact predMove_refl s

theorem predMove_predFails (s : Handoff) : s.PredMove s.predFails := by
  rw [predFails]
  split
  next hpc =>
    exact predMove_of_eq rfl rfl rfl rfl rfl (by rw [hpc]; rfl) (fun _ ↦ rfl) fun h ↦ (by cases h)
  next hpc =>
    exact predMove_of_eq rfl rfl rfl rfl rfl (by rw [hpc]; rfl) (fun _ ↦ rfl) fun h ↦ (by cases h)
  next hpc => exact predMove_predFail (by rw [hpc]; rfl)
  next hpc => exact predMove_predFail (by rw [hpc]; rfl)
  next hpc => exact predMove_predFail (by rw [hpc]; rfl)
  next hpc => exact predMove_predFail (by rw [hpc]; rfl)
  next hpc => exact predMove_predFail (by rw [hpc]; rfl)
  next hpc => exact predMove_predFail (by rw [hpc]; rfl)
  next hpc => exact predMove_predFail (by rw [hpc]; rfl)
  next hpc => exact predMove_predFail (by rw [hpc]; rfl)
  next hpc => exact predMove_predFail (by rw [hpc]; rfl)
  next ending hpc =>
    exact predMove_of_eq rfl rfl rfl rfl rfl (by rw [hpc]; rfl) (fun h ↦ by rw [hpc] at h; cases h)
      fun h ↦ (by cases h)
  next hpc =>
    exact predMove_of_eq rfl rfl rfl rfl rfl (by rw [hpc]; rfl) (fun _ ↦ rfl) fun h ↦ (by cases h)
  all_goals exact predMove_refl s

/-- The other events of the predecessor's side. -/
theorem predMove_start (s : Handoff) : s.PredMove (s.step .start) := by
  rw [step]
  split
  next h =>
    exact predMove_of_eq rfl rfl rfl rfl rfl (by rw [h.2.1]; rfl)
      (fun hb ↦ by rw [h.2.1] at hb; cases hb) fun hd ↦ (by cases hd)
  · exact predMove_refl s

theorem predMove_predHello (s : Handoff) (version : ℕ) (panes : List HandoffPaneMeta) (pid : ℕ) :
    s.PredMove (s.step (.predHello version panes pid)) := by
  rw [step]
  split
  next h =>
    exact predMove_predSend (by rw [h.2]; rfl) (by rw [h.2]; rfl) rfl (by simp) (by simp) (by simp)
  · exact predMove_refl s

theorem predMove_holdTimesOut (s : Handoff) : s.PredMove (s.step .holdTimesOut) := by
  rw [step]
  split
  next h =>
    exact predMove_of_eq rfl rfl rfl rfl rfl (by rw [h.2]; rfl) (fun _ ↦ rfl) fun hd ↦ (by cases hd)
  · exact predMove_refl s

theorem predMove_kill (s : Handoff) : s.PredMove (s.step .kill) := by
  rw [step]
  split
  next h =>
    have hrb : s.pred.RollsBack = true := by rw [h.2]; rfl
    exact { predMove_refl s with succAlive_of := .inr hrb }
  · exact predMove_refl s

/-- The successor has grounds for its outcome: to take over, the predecessor's word, its end, or its
having ended the handoff; to stand down, the predecessor's word, or not to have answered yet. -/
structure Justified (s : Handoff) (o : HandoffOutcome) : Prop where
  takesOver : o.TakesOver = true →
    .released ∈ s.toSucc ∨ s.predAlive = false ∨ s.pred.Ended = true
  standsDown : o = .standDown → .abort ∈ s.toSucc ∨ s.succ.Answered = false

/-- What a step of the successor can do to the other side, to the socket, and to its own place. -/
structure SuccMove (s s' : Handoff) : Prop where
  pred_eq : s'.pred = s.pred
  predAlive_eq : s'.predAlive = s.predAlive
  effects_eq : s'.effects = s.effects
  shutdown_eq : s'.shutdown = s.shutdown
  toSucc_subset : ∀ m ∈ s'.toSucc, m ∈ s.toSucc
  answered_mono : s.succ.Answered = true → s'.succ.Answered = true
  answer_of : ∀ m ∈ s'.toPred, m = .ack ∨ m = .decline →
    m ∈ s.toPred ∨ s'.succ.Answered = true
  decided_of : ∀ o, s'.succ = .decided o → s.succ = .decided o ∨ s.Justified o

variable {s : Handoff}

theorem succMove_refl (s : Handoff) : s.SuccMove s :=
  ⟨rfl, rfl, rfl, rfl, fun _ hm ↦ hm, id, fun _ hm _ ↦ .inl hm, fun _ ho ↦ .inl ho⟩

/-- A step that sends nothing. -/
private theorem succMove_local {s' : Handoff} (hpred : s'.pred = s.pred)
    (halive : s'.predAlive = s.predAlive) (heffects : s'.effects = s.effects)
    (hshutdown : s'.shutdown = s.shutdown) (hrecv : ∀ m ∈ s'.toSucc, m ∈ s.toSucc)
    (hsend : s'.toPred = s.toPred) (hanswered : s.succ.Answered = true → s'.succ.Answered = true)
    (hdecided : ∀ o, s'.succ = .decided o → s.Justified o) : s.SuccMove s' :=
  ⟨hpred, halive, heffects, hshutdown, hrecv, hanswered, fun _ hm _ ↦ .inl (hsend ▸ hm),
    fun o ho ↦ .inr (hdecided o ho)⟩

/-- A step that sends nothing and decides nothing. -/
private theorem succMove_next {rest : List HandoffMessage} {next : Successor}
    (hrecv : ∀ m ∈ rest, m ∈ s.toSucc) (hanswered : s.succ.Answered = false)
    (hnext : ∀ o, next ≠ .decided o) : s.SuccMove { s with toSucc := rest, succ := next } :=
  succMove_local rfl rfl rfl rfl hrecv rfl
    (fun h ↦ absurd (hanswered.symm.trans h) Bool.false_ne_true) fun o ho ↦ absurd ho (hnext o)

private theorem succMove_succLose {rest : List HandoffMessage} (hrecv : ∀ m ∈ rest, m ∈ s.toSucc)
    (afterAck : Option (List (ℕ × ℕ))) :
    s.SuccMove (succLose { s with toSucc := rest } afterAck) :=
  succMove_local rfl rfl rfl rfl hrecv rfl (fun _ ↦ rfl) fun o ho ↦ (by cases ho)

private theorem succMove_succDecide {rest : List HandoffMessage}
    (hrecv : ∀ m ∈ rest, m ∈ s.toSucc) {o : HandoffOutcome} (ho : s.Justified o) :
    s.SuccMove (succDecide { s with toSucc := rest } o) := by
  refine succMove_local rfl rfl rfl rfl hrecv rfl (fun _ ↦ rfl) fun o' ho' ↦ ?_
  cases ho'
  exact ho

private theorem succMove_succSend {m : HandoffMessage} {next : Successor}
    {afterAck : Option (List (ℕ × ℕ))} (hanswered : s.succ.Answered = false)
    (hm : m = .ack ∨ m = .decline → next.Answered = true) (hnext : ∀ o, next ≠ .decided o) :
    s.SuccMove (s.succSend m next afterAck) := by
  rw [succSend]
  by_cases hopen : s.predOpen = true
  · rw [if_pos hopen]
    refine ⟨rfl, rfl, rfl, rfl, fun _ hm ↦ hm, fun h ↦ ?_, fun m' hm' hanswer ↦ ?_,
      fun o ho ↦ ?_⟩
    · exact absurd (hanswered.symm.trans h) Bool.false_ne_true
    · rcases List.mem_append.mp hm' with hm' | hm'
      · exact .inl hm'
      · rw [List.mem_singleton.mp hm'] at hanswer
        exact .inr (hm hanswer)
    · exact absurd ho (hnext o)
  · rw [if_neg hopen]
    exact succMove_succLose (fun _ hm ↦ hm) afterAck

private theorem justified_of_released (h : .released ∈ s.toSucc) {o : HandoffOutcome}
    (ho : o.TakesOver = true) : s.Justified o :=
  ⟨fun _ ↦ .inl h, fun hs ↦ by rw [hs] at ho; cases ho⟩

private theorem justified_of_abort (h : .abort ∈ s.toSucc) : s.Justified .standDown :=
  ⟨fun ho ↦ (by cases ho), fun _ ↦ .inl h⟩

private theorem justified_of_not_answered (h : s.succ.Answered = false) : s.Justified .standDown :=
  ⟨fun ho ↦ (by cases ho), fun _ ↦ .inr h⟩

private theorem justified_of_gone (h : s.predAlive = false) {o : HandoffOutcome}
    (ho : o.TakesOver = true) : s.Justified o :=
  ⟨fun _ ↦ .inr (.inl h), fun hs ↦ by rw [hs] at ho; cases ho⟩

/-- **What the successor makes of a frame.** It takes over on `Released`, stands down on `Abort` or
before it has answered, and gives the exchange up on anything else it does not expect. -/
private theorem succMove_succRecv (s : Handoff) : s.SuccMove s.succRecv := by
  rw [succRecv]
  rcases hts : s.toSucc with _ | ⟨m, rest⟩
  · exact succMove_refl s
  · have hrest : ∀ m' ∈ rest, m' ∈ s.toSucc := by
      intro m' hm'
      rw [hts]
      exact List.mem_cons_of_mem m hm'
    have hm : m ∈ s.toSucc := by
      rw [hts]
      exact List.mem_cons_self
    simp only [succHandle]
    split
    next version panes pid hpc =>
      have hanswered : s.succ.Answered = false := by rw [hpc]; rfl
      split
      · exact succMove_next hrest hanswered (by simp)
      · split
        · exact succMove_succDecide hrest (justified_of_not_answered hanswered)
        · exact succMove_next hrest hanswered (by simp)
    · exact succMove_succDecide hrest (justified_of_released hm rfl)
    · exact succMove_succDecide hrest (justified_of_abort hm)
    next n panes got p hpc => exact succMove_next hrest (by rw [hpc]; rfl) (by simp)
    · exact succMove_succDecide hrest (justified_of_abort hm)
    next got hpc => exact succMove_next hrest (by rw [hpc]; rfl) (by simp)
    · exact succMove_succDecide hrest (justified_of_abort hm)
    · exact succMove_succDecide hrest (justified_of_released hm rfl)
    · exact succMove_succDecide hrest (justified_of_abort hm)
    · exact succMove_succLose hrest _
    · exact succMove_succLose hrest _

/-- **What a step of the successor can do.** -/
theorem succMove_succStep (s : Handoff) : s.SuccMove s.succStep := by
  have hrecv : ∀ m ∈ s.toSucc, m ∈ s.toSucc := fun _ hm ↦ hm
  rw [succStep]
  split
  · exact succMove_refl s
  · exact succMove_succRecv s
  next hpc => exact succMove_succSend (by rw [hpc]; rfl) (fun _ ↦ rfl) (by simp)
  · exact succMove_succRecv s
  next panes hpc => exact succMove_succSend (by rw [hpc]; rfl) (by simp) (by simp)
  next hpc => exact succMove_next hrecv (by rw [hpc]; rfl) (by simp)
  · exact succMove_succRecv s
  next hpc => exact succMove_succSend (by rw [hpc]; rfl) (by simp) (by simp)
  · exact succMove_succRecv s
  next got hpc => exact succMove_succSend (by rw [hpc]; rfl) (fun _ ↦ rfl) (by simp)
  · exact succMove_succRecv s
  next afterAck hpc =>
    by_cases hg : s.predAlive = true
    · rw [if_pos hg]
      exact succMove_refl s
    · rw [if_neg hg]
      have hgone : s.predAlive = false := Bool.eq_false_iff.mpr hg
      rcases afterAck with _ | got
      · exact succMove_succDecide hrecv (justified_of_gone hgone rfl)
      · exact succMove_succDecide hrecv (justified_of_gone hgone rfl)
  next hpc =>
    exact ⟨rfl, rfl, rfl, rfl, hrecv, id, fun _ hm _ ↦ .inl hm, fun _ ho ↦ .inl ho⟩
  · exact succMove_refl s

theorem succMove_succFails (s : Handoff) : s.SuccMove s.succFails := by
  have hrecv : ∀ m ∈ s.toSucc, m ∈ s.toSucc := fun _ hm ↦ hm
  rw [succFails]
  split
  all_goals first | exact succMove_refl s | exact succMove_succLose hrecv _

theorem succMove_connect (s : Handoff) : s.SuccMove (s.step .connect) := by
  rw [step]
  split
  next h =>
    refine succMove_local rfl rfl rfl rfl (fun _ hm ↦ hm) rfl (fun ha ↦ ?_) fun o ho ↦ (by cases ho)
    rw [h.2.1] at ha
    cases ha
  · exact succMove_refl s

/-- A successor that reaches nobody asks the control socket, which a daemon that has not ended the
handoff answers. -/
theorem succMove_connectTimesOut (s : Handoff) (answers : Bool) :
    s.SuccMove (s.step (.connectTimesOut answers)) := by
  rw [step]
  split
  next h =>
    have hanswered : s.succ.Answered = false := by rw [h.2]; rfl
    refine succMove_succDecide (fun _ hm ↦ hm) ?_
    by_cases ha : (s.answersControl || answers) = true
    · rw [if_pos ha]
      exact justified_of_not_answered hanswered
    · rw [if_neg ha]
      refine ⟨fun _ ↦ .inr ?_, fun hs ↦ (by cases hs)⟩
      rw [answersControl] at ha
      by_cases halive : s.predAlive = true
      · refine .inr ?_
        by_contra hended
        rw [halive, Bool.eq_false_iff.mpr hended] at ha
        exact ha rfl
      · exact .inl (Bool.eq_false_iff.mpr halive)
  · exact succMove_refl s

theorem succMove_unverified (s : Handoff) : s.SuccMove (s.step .unverified) := by
  rw [step]
  split
  next h =>
    have hanswered : s.succ.Answered = false := by
      rcases h.2 with h | h <;> rw [h] <;> rfl
    exact succMove_succDecide (fun _ hm ↦ hm) (justified_of_not_answered hanswered)
  · exact succMove_refl s

/-! ## Two daemons never serve at once -/

/-- The predecessor serves: it never started to hand off, or it rolled back. -/
def PredServes (s : Handoff) : Prop :=
  s.predAlive = true ∧ (s.pred = .serving ∨ s.pred = .rolledBack)

/-- The successor's outcome is to serve. -/
def SuccTakesOver (s : Handoff) : Prop := ∃ o, s.succ = .decided o ∧ o.TakesOver = true

/-- `Released` is sent by a predecessor that has ended the handoff, and a successor takes over only
from one that has, or that is gone. -/
structure Exclusive (s : Handoff) : Prop where
  ended_of_released : .released ∈ s.toSucc → s.pred.Ended = true
  gone_or_ended : s.SuccTakesOver → s.predAlive = false ∨ s.pred.Ended = true

theorem exclusive_new (pid : ℕ) : (new pid).Exclusive where
  ended_of_released := fun h ↦ absurd h List.not_mem_nil
  gone_or_ended := fun ⟨_, ho, _⟩ ↦ (by cases ho)

theorem exclusive_of_predMove {s' : Handoff} (h : s.Exclusive) (hmove : s.PredMove s')
    (halive : s.predAlive = false → s'.predAlive = false) : s'.Exclusive where
  ended_of_released := fun hr ↦
    (hmove.released_of hr).elim (fun hr ↦ hmove.ended_mono (h.ended_of_released hr)) id
  gone_or_ended := fun hs ↦ by
    rw [SuccTakesOver, hmove.succ_eq] at hs
    exact (h.gone_or_ended hs).imp halive hmove.ended_mono

theorem exclusive_of_succMove {s' : Handoff} (h : s.Exclusive) (hmove : s.SuccMove s') :
    s'.Exclusive where
  ended_of_released := fun hr ↦ by
    rw [hmove.pred_eq]
    exact h.ended_of_released (hmove.toSucc_subset _ hr)
  gone_or_ended := by
    rintro ⟨o, ho, htakes⟩
    rw [hmove.pred_eq, hmove.predAlive_eq]
    rcases hmove.decided_of o ho with ho | hj
    · exact h.gone_or_ended ⟨o, ho, htakes⟩
    · rcases hj.takesOver htakes with hr | hgone | hended
      · exact .inr (h.ended_of_released hr)
      · exact .inl hgone
      · exact .inr hended

/-- **One step** keeps the two apart. -/
theorem exclusive_step (s : Handoff) (e : HandoffEvent) (h : s.Exclusive) :
    (s.step e).Exclusive := by
  rcases e with _ | ⟨version, panes, pid⟩ | _ | _ | _ | _ | _ | _ | _ | answers | _ | _ | _ | _ | _
  · exact exclusive_of_predMove h (predMove_start s) fun hdead ↦ by simp [step, hdead]
  · exact exclusive_of_predMove h (predMove_predHello s version panes pid) fun hdead ↦ by
      simp [step, hdead]
  · rw [step]
    split
    next halive =>
      exact exclusive_of_predMove h (predMove_predStep s) fun hdead ↦
        absurd (halive.symm.trans hdead) (by decide)
    · exact h
  · rw [step]
    split
    next halive =>
      exact exclusive_of_predMove h (predMove_predFails s) fun hdead ↦
        absurd (halive.symm.trans hdead) (by decide)
    · exact h
  · exact exclusive_of_predMove h (predMove_holdTimesOut s) fun hdead ↦ by simp [step, hdead]
  · exact exclusive_of_predMove h (predMove_kill s) fun hdead ↦ by simp [step, hdead]
  · exact exclusive_of_predMove h (predMove_predExit s) fun _ ↦ rfl
  · exact ⟨h.ended_of_released, h.gone_or_ended⟩
  · exact exclusive_of_succMove h (succMove_connect s)
  · exact exclusive_of_succMove h (succMove_connectTimesOut s answers)
  · exact exclusive_of_succMove h (succMove_unverified s)
  · rw [step]
    split
    · exact exclusive_of_succMove h (succMove_succStep s)
    · exact h
  · rw [step]
    split
    · exact exclusive_of_succMove h (succMove_succFails s)
    · exact h
  · simp only [step]
    split
    · split
      · exact ⟨h.ended_of_released, fun ⟨o, ho, htakes⟩ ↦ by cases ho; cases htakes⟩
      · exact h
    · exact h
  · exact ⟨h.ended_of_released, h.gone_or_ended⟩

theorem exclusive_exec (pid : ℕ) (es : List HandoffEvent) :
    (Run.exec step (new pid) es).Exclusive :=
  Run.invariant exclusive_step es (new pid) (exclusive_new pid)

/-- **Mutual exclusion.** Over every interleaving, with every wait failing, either process dying and
a shutdown coming anywhere, no state is reached in which the predecessor serves and the successor's
outcome is to take over. -/
theorem never_both_serve (pid : ℕ) (es : List HandoffEvent) :
    ¬ ((Run.exec step (new pid) es).PredServes ∧ (Run.exec step (new pid) es).SuccTakesOver) := by
  rintro ⟨⟨halive, hserves⟩, htakes⟩
  rcases (exclusive_exec pid es).gone_or_ended htakes with hgone | hended
  · exact absurd (halive.symm.trans hgone) (by decide)
  · rcases hserves with hp | hp <;> rw [hp] at hended <;> cases hended

end Handoff

end Kmux
