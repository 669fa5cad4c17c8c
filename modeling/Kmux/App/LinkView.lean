import Kmux.App.Driver

/-!
# What the driver can do to its link

Of the driver's state, what matters to an outage is the schedule, whether a bootstrap is waited for,
whether the link is live, the mode, the daemon run reached last, and the input held. `View.Move` is
the list of the moves that change these, with what they report and what they ask of the state
before; every event of the driver is a sequence of moves (`act_moves`), mostly of one.

Two moves take the link down without a look at the schedule or at a bootstrap under way: the user
disconnects, or a message of the daemon puts the app into its disconnected mode. What holds of runs
where they come only when there is neither is proved with `guarded`, and what holds of all runs
without.
-/

namespace Kmux

namespace Driver

variable {K : Type*}

structure View (K : Type*) where
  schedule : Schedule
  /-- The outcome of a bootstrap is waited for. -/
  bootstrapping : Bool
  live : Bool
  mode : Mode
  /-- The daemon run reached last. -/
  run : Option DaemonInstanceId
  outage : OutageInput K

def view (d : FrontendDriver K) : View K where
  schedule := d.reconnect.state
  bootstrapping := d.bootstrapRx.isSome
  live := d.connectionState.isLive
  mode := d.mode
  run := d.daemonInstance
  outage := d.outage

namespace View

/-- Nothing is retried or bootstrapped. -/
def Quiet (v : View K) : Prop := v.schedule = .idle ∧ v.bootstrapping = false

/-- Held input is delivered to the run it was typed for, if that is known. -/
def delivers (v : View K) (reached : Option DaemonInstanceId) : Bool :=
  reached.isSome && reached == v.run

inductive Move (guarded : Prop) : View K → List (Report K) → View K → Prop
  | stay (v : View K) : Move guarded v [] v
  | leave (v : View K) : Move guarded v [] { v with mode := .other }
  | ended (v : View K) (h : guarded → v.Quiet) :
      Move guarded v [] { v with live := false, mode := .disconnected }
  | lost (v : View K) (due : Nanos) (h : v.live = true) :
      Move guarded v [.lost v.run]
        { v with schedule := .waiting 1 due, live := false, outage := v.outage.begin }
  | attempt (v : View K) (n : ℕ) (due : Nanos) (h : v.schedule = .waiting n due) :
      Move guarded v [.attempt n]
        { v with schedule := .trying n, bootstrapping := true, live := false }
  | hurry (v : View K) (n : ℕ) (due now : Nanos) (h : v.schedule = .waiting n due) :
      Move guarded v [.asked] { v with schedule := .waiting n now }
  | asked (v : View K) : Move guarded v [.asked] v
  | start (v : View K) (h : v.schedule = .idle) :
      Move guarded v [.asked] { v with bootstrapping := true, live := false, mode := .connecting }
  | restored (v : View K) (now : Nanos) (reached : Option DaemonInstanceId)
      (h : v.bootstrapping = true) :
      Move guarded v
        [.flushed now reached (v.outage.flush now (v.delivers reached)).1
          (v.outage.flush now (v.delivers reached)).2.dropped]
        { schedule := .idle
          bootstrapping := false
          live := true
          mode := if v.mode = .connecting then .other else v.mode
          run := reached
          outage := (v.outage.flush now (v.delivers reached)).2 }
  | failed (v : View K) (n : ℕ) (due : Nanos) (h : v.schedule = .trying n) :
      Move guarded v [.failed] { v with schedule := .waiting (n + 1) due, bootstrapping := false }
  | gaveUp (v : View K) (now : Nanos) (refused : Bool) (h : v.bootstrapping = true) :
      Move guarded v
        (.flushed now none (v.outage.flush now false).1 (v.outage.flush now false).2.dropped
          :: if refused then [.refused] else [])
        { v with
          schedule := .idle
          bootstrapping := false
          live := false
          mode := .disconnected
          outage := (v.outage.flush now false).2 }
  | cancelled (v : View K) (h : v.schedule = .idle) :
      Move guarded v []
        { v with
          bootstrapping := false
          live := v.live && v.mode != .connecting
          mode := if v.mode = .connecting then .disconnected else v.mode }
  | disconnect (v : View K) (h : guarded → v.Quiet) :
      Move guarded v [.disconnected] { v with live := false, mode := .other }
  | typed (v : View K) (msg : ClientMessage K) (now : Nanos) (h : v.schedule ≠ .idle) :
      Move guarded v [.typed msg now] { v with outage := v.outage.push msg now }
  | sent (v : View K) (msg : ClientMessage K) (h : v.schedule = .idle) :
      Move guarded v [.sent msg] v

/-- One move after the other. -/
inductive Moves (guarded : Prop) : View K → List (Report K) → View K → Prop
  | refl (v : View K) : Moves guarded v [] v
  | head {v v' v'' : View K} {hs hs' : List (Report K)} (h : Move guarded v hs v')
      (t : Moves guarded v' hs' v'') : Moves guarded v (hs ++ hs') v''

variable {guarded : Prop} {v v' v'' : View K} {hs hs' : List (Report K)}

theorem Move.moves (h : Move guarded v hs v') : Moves guarded v hs v' := by
  have := Moves.head h (.refl v')
  rwa [List.append_nil] at this

theorem Moves.trans (h : Moves guarded v hs v') (h' : Moves guarded v' hs' v'') :
    Moves guarded v (hs ++ hs') v'' := by
  induction h with
  | refl v => exact h'
  | head hmove _ ih =>
    rw [List.append_assoc]
    exact .head hmove (ih h')

/-! ## What fits together -/

/-- A waiting attempt has no bootstrap, the one under way has, and a live link has neither. -/
structure Wf (v : View K) : Prop where
  waiting : ∀ n due, v.schedule = .waiting n due → v.bootstrapping = false
  trying : ∀ n, v.schedule = .trying n → v.bootstrapping = true
  live : v.live = true → v.Quiet

theorem Move.wf (h : Move guarded v hs v') (hv : v.Wf) : v'.Wf := by
  obtain ⟨hwaiting, htrying, hlive⟩ := hv
  cases h with
  | stay | leave | asked | typed | sent => exact ⟨hwaiting, htrying, hlive⟩
  | ended | disconnect => exact ⟨hwaiting, htrying, fun h ↦ (nomatch h)⟩
  | lost due h =>
    exact ⟨fun _ _ _ ↦ (hlive h).2, fun _ h ↦ (nomatch h), fun h ↦ (nomatch h)⟩
  | attempt n due h => exact ⟨fun _ _ h ↦ (nomatch h), fun _ _ ↦ rfl, fun h ↦ (nomatch h)⟩
  | hurry n due now h =>
    refine ⟨fun _ _ _ ↦ hwaiting n due h, fun _ h ↦ (nomatch h), fun hl ↦ ?_⟩
    have := (hlive hl).1
    rw [h] at this
    exact nomatch this
  | start h =>
    refine ⟨fun n due hn ↦ ?_, fun _ _ ↦ rfl, fun h ↦ (nomatch h)⟩
    rw [h] at hn
    exact nomatch hn
  | restored now reached h =>
    exact ⟨fun _ _ h ↦ (nomatch h), fun _ h ↦ (nomatch h), fun _ ↦ ⟨rfl, rfl⟩⟩
  | failed n due h =>
    refine ⟨fun _ _ _ ↦ rfl, fun _ h ↦ (nomatch h), fun hl ↦ ?_⟩
    have := (hlive hl).1
    rw [h] at this
    exact nomatch this
  | gaveUp now refused h =>
    exact ⟨fun _ _ h ↦ (nomatch h), fun _ h ↦ (nomatch h), fun h ↦ (nomatch h)⟩
  | cancelled h =>
    refine ⟨fun _ _ _ ↦ rfl, fun n hn ↦ ?_, fun hl ↦ ⟨h, rfl⟩⟩
    rw [h] at hn
    exact nomatch hn

theorem Moves.wf (h : Moves guarded v hs v') (hv : v.Wf) : v'.Wf := by
  induction h with
  | refl v => exact hv
  | head hmove _ ih => exact ih (hmove.wf hv)

/-- What one move carries on, and holds of what it reports, a sequence does. -/
theorem Moves.lawful {P : List (Report K) → Report K → Prop}
    {Inv : List (Report K) → View K → Prop}
    (hmove : ∀ r v hs v', v.Wf → Inv r v → Move guarded v hs v' →
      Inv (r ++ hs) v' ∧ Record.Lawful P r hs)
    (h : Moves guarded v hs v') (hv : v.Wf) {r : List (Report K)} (hr : Inv r v) :
    Inv (r ++ hs) v' ∧ Record.Lawful P r hs := by
  induction h generalizing r with
  | refl v => exact ⟨by rwa [List.append_nil], trivial⟩
  | head hm _ ih =>
    obtain ⟨hinv, hlaw⟩ := hmove r _ _ _ hv hr hm
    obtain ⟨hinv', hlaw'⟩ := ih (hm.wf hv) hinv
    rw [List.append_assoc] at hinv'
    exact ⟨hinv', (Record.lawful_append r _ _).mpr ⟨hlaw, hlaw'⟩⟩

end View

namespace FrontendDriver

/-! ## The moves of the driver -/

/-- Nothing is retried or bootstrapped. -/
def Quiet (d : FrontendDriver K) : Prop := d.reconnect.isActive = false ∧ d.bootstrapRx = none

instance (d : FrontendDriver K) : Decidable d.Quiet :=
  inferInstanceAs (Decidable (d.reconnect.isActive = false ∧ d.bootstrapRx = none))

/-- A message that puts the app into its disconnected mode. -/
def EndedBy (d : FrontendDriver K) : SessionEvent → Prop
  | .authFailed _ => True
  | .peerError none _ => True
  | .peerError (some p) _ => d.mode = .connecting ∧ d.desiredPeer = some p
  | .authOk | .peerOpened => False

instance decidableEndedBy (d : FrontendDriver K) : ∀ e, Decidable (d.EndedBy e)
  | .authFailed _ => inferInstanceAs (Decidable True)
  | .peerError none _ => inferInstanceAs (Decidable True)
  | .peerError (some p) _ =>
    inferInstanceAs (Decidable (d.mode = .connecting ∧ d.desiredPeer = some p))
  | .authOk => inferInstanceAs (Decidable False)
  | .peerOpened => inferInstanceAs (Decidable False)

variable {guarded : Prop} {d : FrontendDriver K}

theorem quiet_view (h : d.Quiet) : (view d).Quiet :=
  ⟨Reconnect.isActive_eq_false.mp h.1, by rw [view, h.2]; rfl⟩

theorem leaveConnecting_moves (d : FrontendDriver K) :
    View.Move guarded (view d) [] (view d.leaveConnecting) := by
  rw [leaveConnecting]
  split
  · exact .leave (view d)
  · exact .stay (view d)

theorem handleSessionEvent_moves {e : SessionEvent} (h : guarded → d.EndedBy e → d.Quiet) :
    View.Move guarded (view d) [] (view (d.handleSessionEvent e)) := by
  cases e with
  | authOk => exact d.leaveConnecting_moves
  | peerOpened => exact d.leaveConnecting_moves
  | authFailed reason => exact .ended (view d) fun hg ↦ quiet_view (h hg trivial)
  | peerError peer reason =>
    rcases peer with _ | p
    · exact .ended (view d) fun hg ↦ quiet_view (h hg trivial)
    · rw [handleSessionEvent, onPeerError]
      split
      · next hp => exact .ended (view d) fun hg ↦ quiet_view (h hg hp)
      · exact .stay (view d)

/-- All a message can change is the connection state and the mode. It does not bring the link up,
nor the connecting overlay. -/
theorem handleSessionEvent_eq (d : FrontendDriver K) (e : SessionEvent) :
    ∃ connectionState mode,
      d.handleSessionEvent e = { d with connectionState, mode }
        ∧ (mode = .connecting → d.mode = .connecting)
        ∧ (connectionState.isLive = true → d.connectionState.isLive = true) := by
  cases e with
  | authOk | peerOpened =>
    rw [handleSessionEvent, leaveConnecting]
    split
    · exact ⟨_, _, rfl, fun h ↦ (nomatch h), id⟩
    · exact ⟨_, _, rfl, id, id⟩
  | authFailed reason => exact ⟨_, _, rfl, fun h ↦ (nomatch h), fun h ↦ nomatch h⟩
  | peerError peer reason =>
    rcases peer with _ | p
    · exact ⟨_, _, rfl, fun h ↦ (nomatch h), fun h ↦ nomatch h⟩
    · rw [handleSessionEvent, onPeerError]
      split
      · exact ⟨_, _, rfl, fun h ↦ (nomatch h), fun h ↦ nomatch h⟩
      · exact ⟨_, _, rfl, id, id⟩

theorem endedBy_of_handleSessionEvent {e e' : SessionEvent}
    (h : (d.handleSessionEvent e).EndedBy e') : d.EndedBy e' := by
  obtain ⟨connectionState, mode, heq, hmode, -⟩ := d.handleSessionEvent_eq e
  rw [heq] at h
  rcases e' with _ | _ | _ | ⟨_ | p, _⟩
  · exact h
  · trivial
  · exact h
  · trivial
  · exact ⟨hmode h.1, h.2⟩

theorem Quiet.handleSessionEvent (h : d.Quiet) (e : SessionEvent) :
    (d.handleSessionEvent e).Quiet := by
  obtain ⟨connectionState, mode, heq, -⟩ := d.handleSessionEvent_eq e
  rw [heq]
  exact h

theorem handleSessionEvents_moves {batch : List SessionEvent}
    (h : guarded → (∃ e ∈ batch, d.EndedBy e) → d.Quiet) :
    View.Moves guarded (view d) [] (view (batch.foldl handleSessionEvent d)) := by
  induction batch generalizing d with
  | nil => exact .refl (view d)
  | cons e batch ih =>
    have hfirst : View.Move guarded (view d) [] (view (d.handleSessionEvent e)) :=
      handleSessionEvent_moves fun hg he ↦ h hg ⟨e, List.mem_cons_self, he⟩
    have hrest := ih (d := d.handleSessionEvent e) fun hg ⟨e', hmem, he'⟩ ↦
      (h hg ⟨e', List.mem_cons_of_mem e hmem, endedBy_of_handleSessionEvent he'⟩)
        |>.handleSessionEvent e
    exact hfirst.moves.trans hrest

theorem linkLost_moves (h : d.connectionState.isLive = true) (now : Nanos) :
    View.Move guarded (view d) (d.linkLost now).2 (view (d.linkLost now).1) :=
  .lost (view d) _ h

theorem drainServerMessages_moves {now : Nanos} {batch : List SessionEvent}
    (h : guarded → (∃ e ∈ batch, d.EndedBy e) → d.Quiet) :
    View.Moves guarded (view d) (d.drainServerMessages now batch).2
      (view (d.drainServerMessages now batch).1) := by
  rw [drainServerMessages]
  split
  · exact .refl (view d)
  · dsimp only
    split
    · next hlive =>
      exact (handleSessionEvents_moves h).trans
        (linkLost_moves (Bool.and_eq_true_iff.mp hlive).2 now).moves
    · exact handleSessionEvents_moves h

theorem drainTunnelDeaths_moves (d : FrontendDriver K) (now : Nanos) :
    View.Move guarded (view d) (d.drainTunnelDeaths now).2 (view (d.drainTunnelDeaths now).1) := by
  rw [drainTunnelDeaths]
  split
  · next h => exact linkLost_moves h.2 now
  · exact .stay (view d)

theorem tickLiveness_moves (d : FrontendDriver K) (now : Nanos) (timedOut : Bool) :
    View.Move guarded (view d) (d.tickLiveness now timedOut).2
      (view (d.tickLiveness now timedOut).1) := by
  rw [tickLiveness]
  split
  · exact .stay (view d)
  · split
    · next h => exact .lost (view d) _ (Bool.and_eq_true_iff.mp h).2
    · exact .stay (view d)

theorem tickReconnect_moves (d : FrontendDriver K) (now : Nanos) :
    View.Move guarded (view d) (d.tickReconnect now).2 (view (d.tickReconnect now).1) := by
  rcases hdue : d.reconnect.takeDue now with ⟨_ | n, reconnect⟩
  · have heq : (d.reconnect.takeDue now).2 = d.reconnect :=
      Reconnect.takeDue_eq_none (by rw [hdue])
    rw [hdue] at heq
    rw [tickReconnect, hdue]
    subst heq
    exact .stay (view d)
  · have hsome : (d.reconnect.takeDue now).1 = some n := by rw [hdue]
    obtain ⟨⟨due, -, hwaiting⟩, heq⟩ := Reconnect.takeDue_eq_some hsome
    rw [hdue] at heq
    rw [tickReconnect, hdue]
    subst heq
    exact .attempt (view d) n due hwaiting

/-! ## Outcomes -/

theorem onBootstrapSuccess_eq (d : FrontendDriver K) (o : BootstrapOutcome) (now : Nanos) :
    let flushed := d.outage.flush now ((view d).delivers o.daemonInstance)
    (d.onBootstrapSuccess o now).2 = [.flushed now o.daemonInstance flushed.1 flushed.2.dropped]
      ∧ view (d.onBootstrapSuccess o now).1
        = { schedule := .idle
            bootstrapping := d.bootstrapRx.isSome
            live := true
            mode := if d.mode = .connecting then .other else d.mode
            run := o.daemonInstance
            outage := flushed.2 } := by
  rw [onBootstrapSuccess, reflectBootstrapOutcome]
  by_cases hmode : d.mode = .connecting
  · have happlied : ({ d with lastExitError := none }.applyOutcome o).mode = .connecting := hmode
    rw [if_pos happlied, if_pos hmode]
    exact ⟨rfl, rfl⟩
  · have happlied : ¬({ d with lastExitError := none }.applyOutcome o).mode = .connecting := hmode
    rw [if_neg happlied, if_neg hmode]
    exact ⟨rfl, rfl⟩

/-- The driver once the outcome of its bootstrap is taken. -/
def bootstrapOver (d : FrontendDriver K) : FrontendDriver K :=
  { d.dropCancelTx with bootstrapRx := none }

theorem onBootstrapSuccess_moves (h : d.bootstrapRx.isSome = true) (o : BootstrapOutcome)
    (now : Nanos) :
    View.Move guarded (view d) (d.bootstrapOver.onBootstrapSuccess o now).2
      (view (d.bootstrapOver.onBootstrapSuccess o now).1) := by
  obtain ⟨hreports, hview⟩ := d.bootstrapOver.onBootstrapSuccess_eq o now
  rw [hreports, hview]
  exact .restored (view d) now o.daemonInstance h

theorem onBootstrapFailure_moves (h : d.bootstrapRx.isSome = true) (reason : String)
    (now : Nanos) :
    View.Move guarded (view d) (d.bootstrapOver.onBootstrapFailure reason now).2
      (view (d.bootstrapOver.onBootstrapFailure reason now).1) :=
  .gaveUp (view d) now false h

theorem onBootstrapRefused_moves (h : d.bootstrapRx.isSome = true) (reason : String)
    (now : Nanos) :
    View.Move guarded (view d)
      ((d.bootstrapOver.onBootstrapFailure reason now).2 ++ [Report.refused])
      (view (d.bootstrapOver.onBootstrapFailure reason now).1) :=
  .gaveUp (view d) now true h

/-- With attempts going on, a bootstrap that is over was the attempt under way. -/
theorem onFailed_moves (hwf : (view d).Wf) (h : d.bootstrapRx.isSome = true)
    (hactive : d.reconnect.isActive = true) (now : Nanos) (error : String) :
    View.Move guarded (view d) [.failed]
      (view { d.bootstrapOver with reconnect := d.reconnect.onFailed now error }) := by
  rcases hstate : d.reconnect.state with _ | ⟨n, due⟩ | n
  · exact absurd hstate (Reconnect.isActive_eq_true.mp hactive)
  · have hquiet : d.bootstrapRx.isSome = false := hwf.waiting n due hstate
    rw [h] at hquiet
    exact nomatch hquiet
  · have hview : view { d.bootstrapOver with reconnect := d.reconnect.onFailed now error }
        = { view d with
            schedule := .waiting (n + 1) (now + nextDelay n d.reconnect.jitterSeed)
            bootstrapping := false } := by
      rw [view, Reconnect.state_onFailed hstate]
      rfl
    rw [hview]
    exact .failed (view d) n _ hstate

theorem onBootstrapCancelled_moves (hactive : d.reconnect.isActive = false) :
    View.Move guarded (view d) [] (view d.bootstrapOver.onBootstrapCancelled) := by
  have hidle : (view d).schedule = .idle := Reconnect.isActive_eq_false.mp hactive
  have hmove := @View.Move.cancelled K guarded (view d) hidle
  rw [onBootstrapCancelled]
  by_cases hmode : d.mode = .connecting
  · have hover : d.bootstrapOver.mode = .connecting := hmode
    have hv : (view d).mode = .connecting := hmode
    rw [hv] at hmove
    rw [if_pos hover]
    simpa [view, enterDisconnected, bootstrapOver, dropCancelTx, ConnectionState.isLive] using hmove
  · have hover : ¬d.bootstrapOver.mode = .connecting := hmode
    have hv : ¬(view d).mode = .connecting := hmode
    rw [if_neg hv] at hmove
    rw [if_neg hover]
    have hlive : ((view d).live && (view d).mode != .connecting) = (view d).live := by simp [hv]
    rw [hlive] at hmove
    exact hmove

theorem pollBootstrapOutcome_moves (hwf : (view d).Wf) (now : Nanos) :
    View.Move guarded (view d) (d.pollBootstrapOutcome now).2
      (view (d.pollBootstrapOutcome now).1) := by
  rw [pollBootstrapOutcome]
  rcases hrx : d.bootstrapRx with _ | rx
  · exact .stay (view d)
  · have hsome : d.bootstrapRx.isSome = true := by rw [hrx]; rfl
    rw [Option.bind_some]
    rcases d.tryRecv rx with _ | (⟨⟨⟩⟩ | o | reason | reason)
    · exact .stay (view d)
    · dsimp only
      split
      · next hactive => exact onFailed_moves hwf hsome hactive now _
      · next hidle => exact onBootstrapCancelled_moves (Bool.eq_false_iff.mpr hidle)
    · exact onBootstrapSuccess_moves hsome o now
    · dsimp only
      split
      · next hactive => exact onFailed_moves hwf hsome hactive now reason
      · exact onBootstrapFailure_moves hsome reason now
    · exact onBootstrapRefused_moves hsome reason now

/-! ## Events -/

theorem reconnectAt_moves (d : FrontendDriver K) (now : Nanos) :
    View.Move guarded (view d) [.asked] (view (d.reconnectAt now)) := by
  rw [reconnectAt]
  split
  · next hactive =>
    rcases hstate : d.reconnect.state with _ | ⟨n, due⟩ | n
    · exact absurd hstate (Reconnect.isActive_eq_true.mp hactive)
    · rw [Reconnect.retryNow, hstate]
      exact .hurry (view d) n due now hstate
    · rw [Reconnect.retryNow, hstate]
      exact .asked (view d)
  · next hidle =>
    exact .start (view d) (Reconnect.isActive_eq_false.mp (Bool.eq_false_iff.mpr hidle))

theorem deliverInput_moves (d : FrontendDriver K) (built : Except Bool (ClientMessage K))
    (now : Nanos) :
    View.Move guarded (view d) (d.deliverInput built now).2
      (view (d.deliverInput built now).1) := by
  rcases built with _ | msg
  · exact .stay (view d)
  · simp only [deliverInput]
    split
    · next h => exact .typed (view d) msg now (Reconnect.isActive_eq_true.mp h)
    · next h =>
      exact .sent (view d) msg (Reconnect.isActive_eq_false.mp (Bool.eq_false_iff.mpr h))

theorem finish_moves (d : FrontendDriver K) (id : ℕ) (result : BootstrapTaskResult) :
    View.Move guarded (view d) [] (view (d.finish id result)) := by
  have hview : view (d.finish id result) = view d := by
    rw [finish]
    split
    · rw [view, Option.isSome_map]
      rfl
    · rfl
  rw [hview]
  exact .stay (view d)

/-- The user disconnects, or the app is put into its disconnected mode, while nothing is retried or
bootstrapped. -/
def Orderly (d : FrontendDriver K) : Event K → Prop
  | .disconnect => d.Quiet
  | .drain _ batch => (∃ e ∈ batch, d.EndedBy e) → d.Quiet
  | _ => True

instance decidableOrderly (d : FrontendDriver K) : ∀ e, Decidable (d.Orderly e)
  | .disconnect => inferInstanceAs (Decidable d.Quiet)
  | .drain _ batch => inferInstanceAs (Decidable ((∃ e ∈ batch, d.EndedBy e) → d.Quiet))
  | .srvClose | .finish _ _ | .stop _ | .poll _ | .tunnelDied _ | .liveness _ _ | .retry _
  | .reconnect _ | .cancel | .navigate | .sendKeys _ _ _ | .feedPaste _ _ _ =>
    inferInstanceAs (Decidable True)

/-- Every event is a sequence of moves. -/
theorem act_moves (hwf : (view d).Wf) {e : Event K} (h : guarded → d.Orderly e) :
    View.Moves guarded (view d) (d.act e).2 (view (d.act e).1) := by
  cases e with
  | srvClose | stop id | cancel => exact .refl (view d)
  | finish id result => exact (d.finish_moves id result).moves
  | drain now batch => exact drainServerMessages_moves h
  | poll now => exact (pollBootstrapOutcome_moves hwf now).moves
  | tunnelDied now => exact (d.drainTunnelDeaths_moves now).moves
  | liveness now timedOut => exact (d.tickLiveness_moves now timedOut).moves
  | retry now => exact (d.tickReconnect_moves now).moves
  | reconnect now => exact (d.reconnectAt_moves now).moves
  | disconnect => exact (View.Move.disconnect (view d) fun hg ↦ quiet_view (h hg)).moves
  | navigate => exact (View.Move.leave (view d)).moves
  | sendKeys now gate keys => exact (d.deliverInput_moves _ now).moves
  | feedPaste now gate text => exact (d.deliverInput_moves _ now).moves

theorem wf_new (jitterSeed : ℕ) (desiredPeer : Option PeerId) (pendingTarget : Bool)
    (now : Nanos) :
    (view (new jitterSeed desiredPeer pendingTarget now : FrontendDriver K)).Wf := by
  rw [new]
  split <;> exact ⟨fun _ _ h ↦ (nomatch h), fun _ h ↦ (nomatch h), fun h ↦ (nomatch h)⟩

end FrontendDriver

/-- What every move carries on, and holds of what it reports, a run does. -/
theorem lawful_run (guarded : Prop) {P : List (Report K) → Report K → Prop}
    (Inv : List (Report K) → View K → Prop)
    (hmove : ∀ r v hs v', v.Wf → Inv r v → View.Move guarded v hs v' →
      Inv (r ++ hs) v' ∧ Record.Lawful P r hs)
    {d : FrontendDriver K} (hwf : (view d).Wf) (hinv : Inv [] (view d)) (es : List (Event K))
    (hok : Run.Ok (Record.next FrontendDriver.act) (fun d e ↦ guarded → d.Orderly e) d es) :
    (view (exec d es)).Wf ∧ Inv (record d es) (view (exec d es))
      ∧ Record.Lawful P [] (record d es) := by
  have hstep (r : List (Report K)) (d : FrontendDriver K) (e : Event K)
      (hd : (view d).Wf ∧ Inv r (view d)) (hok : guarded → d.Orderly e) :
      ((view (d.act e).1).Wf ∧ Inv (r ++ (d.act e).2) (view (d.act e).1))
        ∧ Record.Lawful P r (d.act e).2 := by
    have hmoves := FrontendDriver.act_moves hd.1 hok
    obtain ⟨hinv', hlaw⟩ := hmoves.lawful hmove hd.1 hd.2
    exact ⟨⟨hmoves.wf hd.1, hinv'⟩, hlaw⟩
  have hrun := Record.lawful_record hstep es [] d ⟨hwf, hinv⟩ hok
  rw [List.nil_append] at hrun
  exact ⟨hrun.1.1, hrun.1.2, hrun.2⟩

end Driver

end Kmux
