import Kmux.App.LinkView
import Mathlib.Data.List.Nodup

/-!
# Attempts to reconnect

At most one bootstrap is under way, it is the one whose outcome is waited for, and attempts are
numbered by the failures since the link was lost: this holds in every run, since a bootstrap is
started only where the one before is cancelled, and a failure is counted only for the attempt under
way.

That nothing is retried after a refusal, or after the user disconnects, holds only as far as the
handlers see to it. A refusal ends the retries. A disconnect does not: it marks the session manager
disconnected and leaves the schedule and the bootstrap as they are, so what is due is attempted all
the same. It holds in runs where the user disconnects with nothing retried or bootstrapped.
-/

namespace Kmux

namespace Driver

variable {K : Type*}

namespace FrontendDriver

/-! ## Bootstraps in flight -/

/-- The bootstraps that run and are not cancelled. -/
def inFlight (d : FrontendDriver K) : List Task := d.tasks.filter fun t ↦ !t.cancelled

/-- Every bootstrap has an id of its own, and the one that is not cancelled is the one that can be
and whose outcome is waited for. -/
structure TasksWf (d : FrontendDriver K) : Prop where
  nodup : (d.tasks.map Task.id).Nodup
  lt : ∀ t ∈ d.tasks, t.id < d.nextTask
  owned : ∀ t ∈ d.tasks, t.cancelled = false → d.cancelTx = some t.id
  polled : ∀ id, d.cancelTx = some id → ∃ rx, d.bootstrapRx = some rx ∧ rx.id = id

variable {d d' : FrontendDriver K}

/-- Nothing is changed that has to do with the bootstraps. -/
structure SameTasks (d d' : FrontendDriver K) : Prop where
  tasks : d'.tasks = d.tasks
  nextTask : d'.nextTask = d.nextTask
  cancelTx : d'.cancelTx = d.cancelTx
  bootstrapRx : d'.bootstrapRx = d.bootstrapRx

theorem TasksWf.congr (h : d.TasksWf) (hs : SameTasks d d') : d'.TasksWf where
  nodup := by rw [hs.tasks]; exact h.nodup
  lt := by rw [hs.tasks, hs.nextTask]; exact h.lt
  owned := by rw [hs.tasks, hs.cancelTx]; exact h.owned
  polled := by rw [hs.cancelTx, hs.bootstrapRx]; exact h.polled

theorem TasksWf.inFlight_length_le (h : d.TasksWf) : d.inFlight.length ≤ 1 := by
  have howned : ∀ t ∈ d.inFlight, d.cancelTx = some t.id := fun t ht ↦ by
    obtain ⟨hmem, hlive⟩ := List.mem_filter.mp ht
    exact h.owned t hmem (by simpa using hlive)
  have hnodup : (d.inFlight.map Task.id).Nodup :=
    (List.filter_sublist.map Task.id).nodup h.nodup
  rcases hlist : d.inFlight with _ | ⟨t, _ | ⟨t', ts⟩⟩
  · exact Nat.zero_le 1
  · exact le_rfl
  · rw [hlist] at howned hnodup
    have hsame : t.id = t'.id := by
      have ht := howned t (by simp)
      have ht' := howned t' (by simp)
      exact Option.some.inj (ht.symm.trans ht')
    simp [hsame] at hnodup

theorem TasksWf.exists_rx (h : d.TasksWf) {t : Task} (ht : t ∈ d.inFlight) :
    ∃ rx, d.bootstrapRx = some rx ∧ rx.id = t.id := by
  obtain ⟨hmem, hlive⟩ := List.mem_filter.mp ht
  exact h.polled t.id (h.owned t hmem (by simpa using hlive))

theorem map_id_dropCancelTx (d : FrontendDriver K) :
    d.dropCancelTx.tasks.map Task.id = d.tasks.map Task.id := by
  rw [dropCancelTx, List.map_map]
  refine List.map_congr_left fun t _ ↦ ?_
  rw [Function.comp_apply]
  split <;> rfl

theorem mem_dropCancelTx_id {t : Task} (ht : t ∈ d.dropCancelTx.tasks) :
    ∃ t' ∈ d.tasks, t'.id = t.id := by
  have hid : t.id ∈ d.dropCancelTx.tasks.map Task.id := List.mem_map_of_mem ht
  rw [map_id_dropCancelTx] at hid
  exact List.mem_map.mp hid

/-- With the sender dropped no bootstrap is left that is not cancelled. -/
theorem TasksWf.cancelled (h : d.TasksWf) {t : Task} (ht : t ∈ d.dropCancelTx.tasks) :
    t.cancelled = true := by
  obtain ⟨t', ht', heq⟩ := List.mem_map.mp ht
  subst heq
  split
  · rfl
  · next hne =>
    rcases hc : t'.cancelled with _ | _
    · exact absurd (h.owned t' ht' hc) hne
    · rfl

theorem TasksWf.dropCancelTx (h : d.TasksWf) (rx : Option OutcomeRx) :
    { d.dropCancelTx with bootstrapRx := rx }.TasksWf where
  nodup := by
    change (d.dropCancelTx.tasks.map Task.id).Nodup
    rw [map_id_dropCancelTx]
    exact h.nodup
  lt t ht := by
    obtain ⟨t', ht', hid⟩ := mem_dropCancelTx_id ht
    have := h.lt t' ht'
    rwa [hid] at this
  owned t ht hlive := by
    rw [h.cancelled ht] at hlive
    exact nomatch hlive
  polled _ h := nomatch h

theorem TasksWf.startBootstrapWith (h : d.TasksWf) (phase : BootstrapPhase) :
    (d.startBootstrapWith phase).TasksWf := by
  have hdropped := h.dropCancelTx none
  have hfresh : ∀ t ∈ d.dropCancelTx.tasks, t.id < d.nextTask := hdropped.lt
  have htasks : (d.startBootstrapWith phase).tasks
      = d.dropCancelTx.tasks ++ [{ id := d.nextTask, cancelled := false }] := by
    cases phase <;> rfl
  have hrest : (d.startBootstrapWith phase).nextTask = d.nextTask + 1
      ∧ (d.startBootstrapWith phase).cancelTx = some d.nextTask
      ∧ (d.startBootstrapWith phase).bootstrapRx = some { id := d.nextTask, sent := none } := by
    cases phase <;> exact ⟨rfl, rfl, rfl⟩
  obtain ⟨hnext, hcancel, hrx⟩ := hrest
  refine ⟨?_, fun t ht ↦ ?_, fun t ht hlive ↦ ?_, fun id hid ↦ ?_⟩
  · rw [htasks, List.map_append]
    refine List.nodup_append'.mpr ⟨hdropped.nodup, List.nodup_singleton _, fun id hid hnew ↦ ?_⟩
    obtain ⟨t, ht, rfl⟩ := List.mem_map.mp hid
    have hlt := hfresh t ht
    have heq : t.id = d.nextTask := by simpa using hnew
    omega
  · rw [htasks] at ht
    rw [hnext]
    rcases List.mem_append.mp ht with ht | ht
    · exact Nat.lt_succ_of_lt (hfresh t ht)
    · obtain rfl := List.mem_singleton.mp ht
      exact Nat.lt_succ_self _
  · rw [htasks] at ht
    rw [hcancel]
    rcases List.mem_append.mp ht with ht | ht
    · rw [h.cancelled ht] at hlive
      exact nomatch hlive
    · obtain rfl := List.mem_singleton.mp ht
      rfl
  · rw [hcancel] at hid
    exact ⟨_, hrx, Option.some.inj hid⟩

theorem TasksWf.stop (h : d.TasksWf) (id : ℕ) : (d.stop id).TasksWf where
  nodup := (List.filter_sublist.map Task.id).nodup h.nodup
  lt t ht := h.lt t (List.mem_of_mem_filter ht)
  owned t ht := h.owned t (List.mem_of_mem_filter ht)
  polled := h.polled

theorem TasksWf.finish (h : d.TasksWf) (id : ℕ) (result : BootstrapTaskResult) :
    (d.finish id result).TasksWf := by
  rw [FrontendDriver.finish]
  split
  · have hstop := h.stop id
    refine ⟨hstop.nodup, hstop.lt, hstop.owned, fun id' hid' ↦ ?_⟩
    obtain ⟨rx, hrx, hid⟩ := h.polled id' hid'
    refine ⟨if rx.id = id then { rx with sent := some result } else rx, by rw [hrx]; rfl, ?_⟩
    split <;> exact hid
  · exact h

theorem TasksWf.handleSessionEvents (h : d.TasksWf) (batch : List SessionEvent) :
    (batch.foldl handleSessionEvent d).TasksWf := by
  induction batch generalizing d with
  | nil => exact h
  | cons e batch ih =>
    obtain ⟨connectionState, mode, heq, -⟩ := d.handleSessionEvent_eq e
    refine ih ?_
    rw [heq]
    exact h.congr ⟨rfl, rfl, rfl, rfl⟩

theorem TasksWf.linkLost (h : d.TasksWf) (now : Nanos) : (d.linkLost now).1.TasksWf :=
  h.congr ⟨rfl, rfl, rfl, rfl⟩

theorem TasksWf.tickReconnect (h : d.TasksWf) (now : Nanos) : (d.tickReconnect now).1.TasksWf := by
  rw [FrontendDriver.tickReconnect]
  rcases d.reconnect.takeDue now with ⟨_ | n, reconnect⟩
  · exact h.congr ⟨rfl, rfl, rfl, rfl⟩
  · have hd : { d with reconnect }.TasksWf := h.congr ⟨rfl, rfl, rfl, rfl⟩
    exact hd.startBootstrapWith (.resume n)

theorem sameTasks_onBootstrapSuccess (d : FrontendDriver K) (o : BootstrapOutcome) (now : Nanos) :
    SameTasks d (d.onBootstrapSuccess o now).1 := by
  rw [onBootstrapSuccess, reflectBootstrapOutcome]
  split
  · split <;> exact ⟨rfl, rfl, rfl, rfl⟩
  · exact ⟨rfl, rfl, rfl, rfl⟩

theorem sameTasks_onBootstrapCancelled (d : FrontendDriver K) :
    SameTasks d d.onBootstrapCancelled := by
  rw [onBootstrapCancelled]
  split <;> exact ⟨rfl, rfl, rfl, rfl⟩

theorem TasksWf.pollBootstrapOutcome (h : d.TasksWf) (now : Nanos) :
    (d.pollBootstrapOutcome now).1.TasksWf := by
  have hover : d.bootstrapOver.TasksWf := h.dropCancelTx none
  rw [FrontendDriver.pollBootstrapOutcome]
  rcases d.bootstrapRx.bind d.tryRecv with _ | (⟨⟨⟩⟩ | o | reason | reason)
  · exact h
  · dsimp only
    split
    · exact hover.congr ⟨rfl, rfl, rfl, rfl⟩
    · exact hover.congr (sameTasks_onBootstrapCancelled _)
  · exact hover.congr (sameTasks_onBootstrapSuccess _ o now)
  · dsimp only
    split
    · exact hover.congr ⟨rfl, rfl, rfl, rfl⟩
    · exact hover.congr ⟨rfl, rfl, rfl, rfl⟩
  · exact hover.congr ⟨rfl, rfl, rfl, rfl⟩

theorem TasksWf.deliverInput (h : d.TasksWf) (built : Except Bool (ClientMessage K))
    (now : Nanos) : (d.deliverInput built now).1.TasksWf := by
  rcases built with _ | msg
  · exact h
  · simp only [FrontendDriver.deliverInput]
    split
    · exact h.congr ⟨rfl, rfl, rfl, rfl⟩
    · exact h

theorem TasksWf.act (h : d.TasksWf) (e : Event K) : (d.act e).1.TasksWf := by
  cases e with
  | srvClose | disconnect | navigate => exact h.congr ⟨rfl, rfl, rfl, rfl⟩
  | finish id result => exact h.finish id result
  | stop id => exact h.stop id
  | drain now batch =>
    simp only [FrontendDriver.act, drainServerMessages]
    split
    · exact h
    · split
      · exact (h.handleSessionEvents batch).linkLost now
      · exact h.handleSessionEvents batch
  | poll now => exact h.pollBootstrapOutcome now
  | tunnelDied now =>
    simp only [FrontendDriver.act, drainTunnelDeaths]
    split
    · exact h.linkLost now
    · exact h
  | liveness now timedOut =>
    simp only [FrontendDriver.act, tickLiveness]
    split
    · exact h
    · split <;> exact h.congr ⟨rfl, rfl, rfl, rfl⟩
  | retry now => exact h.tickReconnect now
  | reconnect now =>
    simp only [FrontendDriver.act, reconnectAt]
    split
    · exact h.congr ⟨rfl, rfl, rfl, rfl⟩
    · exact h.startBootstrapWith .reconnect
  | cancel => exact h.dropCancelTx d.bootstrapRx
  | sendKeys now gate keys => exact h.deliverInput _ now
  | feedPaste now gate text => exact h.deliverInput _ now

theorem tasksWf_new (jitterSeed : ℕ) (desiredPeer : Option PeerId) (pendingTarget : Bool)
    (now : Nanos) : (new jitterSeed desiredPeer pendingTarget now : FrontendDriver K).TasksWf := by
  have hidle : (idle jitterSeed desiredPeer now : FrontendDriver K).TasksWf :=
    ⟨List.nodup_nil, fun _ h ↦ (nomatch h), fun _ h ↦ (nomatch h), fun _ h ↦ (nomatch h)⟩
  rw [new]
  split
  · exact hidle.startBootstrapWith .initial
  · exact hidle

end FrontendDriver

/-! ## The record of the attempts -/

def Report.failuresAfter (n : ℕ) : Report K → ℕ
  | .lost _ => 0
  | .failed => n + 1
  | _ => n

/-- The failures since the link was lost. -/
def failures (r : List (Report K)) : ℕ := r.foldl Report.failuresAfter 0

def Report.barredAfter (b : Bool) : Report K → Bool
  | .refused | .disconnected => true
  | .asked => false
  | _ => b

/-- The daemon refused the client or the user disconnected, and the user has not asked for the link
since. -/
def barred (r : List (Report K)) : Bool := r.foldl Report.barredAfter false

@[simp] theorem failures_concat (r : List (Report K)) (h : Report K) :
    failures (r ++ [h]) = h.failuresAfter (failures r) := by
  simp [failures]

@[simp] theorem barred_concat (r : List (Report K)) (h : Report K) :
    barred (r ++ [h]) = h.barredAfter (barred r) := by
  simp [barred]

/-- An attempt has the number of the failures before it and one. -/
def Report.Numbered (n : ℕ) : Report K → Prop
  | .attempt m => m = n + 1
  | _ => True

/-- The attempt under way or next due has its number. -/
def View.Counts (v : View K) (n : ℕ) : Prop :=
  match v.schedule with
  | .idle => True
  | .waiting m _ => m = n + 1
  | .trying m => m = n + 1

theorem View.Counts.waiting {v : View K} {m n : ℕ} {due : Nanos} (h : v.Counts n)
    (hs : v.schedule = .waiting m due) : m = n + 1 := by
  rwa [View.Counts, hs] at h

theorem View.Counts.trying {v : View K} {m n : ℕ} (h : v.Counts n) (hs : v.schedule = .trying m) :
    m = n + 1 := by
  rwa [View.Counts, hs] at h

theorem counts_move {guarded : Prop} (r : List (Report K)) (v : View K) (hs : List (Report K))
    (v' : View K) (hinv : v.Counts (failures r)) (h : View.Move guarded v hs v') :
    v'.Counts (failures (r ++ hs)) ∧ Record.Lawful (fun r h ↦ h.Numbered (failures r)) r hs := by
  cases h with
  | stay | leave | ended | cancelled =>
    rw [List.append_nil]
    exact ⟨hinv, trivial⟩
  | asked | start | disconnect | sent | typed =>
    rw [failures_concat]
    exact ⟨hinv, trivial, trivial⟩
  | lost due hlive =>
    rw [failures_concat]
    exact ⟨rfl, trivial, trivial⟩
  | attempt n due hw =>
    rw [failures_concat]
    exact ⟨hinv.waiting hw, hinv.waiting hw, trivial⟩
  | hurry n due now hw =>
    rw [failures_concat]
    exact ⟨hinv.waiting hw, trivial, trivial⟩
  | failed n due ht =>
    rw [failures_concat]
    exact ⟨congrArg (· + 1) (hinv.trying ht), trivial, trivial⟩
  | restored now reached hb => exact ⟨trivial, trivial, trivial⟩
  | gaveUp now refused hb =>
    refine ⟨trivial, trivial, ?_⟩
    split
    · exact ⟨trivial, trivial⟩
    · trivial

/-! ## After a refusal or a disconnect -/

/-- An automatic attempt starts only where it may. -/
def Report.Allowed (b : Bool) : Report K → Prop
  | .attempt _ => b = false
  | _ => True

/-- The link is down, and only the user can change that. -/
def View.Down (v : View K) : Prop := v.live = false ∧ v.Quiet

/-- Where the link may not be brought up, and where the app says it is down, it is. -/
structure View.Barred (v : View K) (b : Bool) : Prop where
  down : b = true → v.Down
  mode : v.mode = .disconnected → v.Down

theorem View.Barred.eq_false {v : View K} {b : Bool} (h : v.Barred b) (hv : ¬v.Down) :
    b = false := by
  rcases b with _ | _
  · rfl
  · exact absurd (h.down rfl) hv

/-- A link that is up, or being brought up, is not barred, nor is the app in its disconnected
mode. -/
theorem View.Barred.of_not_down {v v' : View K} {b : Bool} (h : v.Barred b) (hv : ¬v.Down)
    (hmode : v'.mode = .disconnected → v.mode = .disconnected) : v'.Barred b where
  down hb := absurd (h.down hb) hv
  mode hd := absurd (h.mode (hmode hd)) hv

theorem View.not_down_of_waiting {v : View K} {n : ℕ} {due : Nanos}
    (h : v.schedule = .waiting n due) : ¬v.Down := fun hd ↦ by
  rw [hd.2.1] at h
  exact nomatch h

theorem View.not_down_of_trying {v : View K} {n : ℕ} (h : v.schedule = .trying n) :
    ¬v.Down := fun hd ↦ by
  rw [hd.2.1] at h
  exact nomatch h

theorem View.not_down_of_bootstrapping {v : View K} (h : v.bootstrapping = true) :
    ¬v.Down := fun hd ↦ by
  rw [hd.2.2] at h
  exact nomatch h

theorem View.not_down_of_live {v : View K} (h : v.live = true) : ¬v.Down := fun hd ↦ by
  rw [hd.1] at h
  exact nomatch h

theorem barred_move (r : List (Report K)) (v : View K) (hs : List (Report K)) (v' : View K)
    (hinv : v.Barred (barred r)) (h : View.Move True v hs v') :
    v'.Barred (barred (r ++ hs)) ∧ Record.Lawful (fun r h ↦ h.Allowed (barred r)) r hs := by
  cases h with
  | stay =>
    rw [List.append_nil]
    exact ⟨hinv, trivial⟩
  | leave =>
    rw [List.append_nil]
    exact ⟨⟨hinv.down, fun h ↦ nomatch h⟩, trivial⟩
  | ended hquiet =>
    rw [List.append_nil]
    exact ⟨⟨fun _ ↦ ⟨rfl, hquiet trivial⟩, fun _ ↦ ⟨rfl, hquiet trivial⟩⟩, trivial⟩
  | cancelled hidle =>
    rw [List.append_nil]
    refine ⟨⟨fun hb ↦ ⟨?_, hidle, rfl⟩, fun hmode ↦ ⟨?_, hidle, rfl⟩⟩, trivial⟩
    · exact (Bool.and_eq_false_iff).mpr (.inl (hinv.down hb).1)
    · by_cases hc : v.mode = .connecting
      · simp [hc]
      · simp only [hc, if_false] at hmode
        exact (Bool.and_eq_false_iff).mpr (.inl (hinv.mode hmode).1)
  | asked =>
    rw [barred_concat]
    exact ⟨⟨fun h ↦ (nomatch h), hinv.mode⟩, trivial, trivial⟩
  | start hidle =>
    rw [barred_concat]
    exact ⟨⟨fun h ↦ (nomatch h), fun h ↦ nomatch h⟩, trivial, trivial⟩
  | disconnect hquiet =>
    rw [barred_concat]
    exact ⟨⟨fun _ ↦ ⟨rfl, hquiet trivial⟩, fun h ↦ nomatch h⟩, trivial, trivial⟩
  | sent | typed =>
    rw [barred_concat]
    exact ⟨⟨hinv.down, hinv.mode⟩, trivial, trivial⟩
  | lost due hlive =>
    rw [barred_concat]
    exact ⟨hinv.of_not_down (View.not_down_of_live hlive) id, trivial, trivial⟩
  | attempt n due hw =>
    rw [barred_concat]
    have hdown := View.not_down_of_waiting hw
    exact ⟨hinv.of_not_down hdown id, hinv.eq_false hdown, trivial⟩
  | hurry n due now hw =>
    rw [barred_concat]
    have hdown := View.not_down_of_waiting hw
    have hmode : v.mode ≠ .disconnected := fun h ↦ hdown (hinv.mode h)
    exact ⟨⟨fun h ↦ (nomatch h), fun h ↦ absurd h hmode⟩, trivial, trivial⟩
  | failed n due ht =>
    rw [barred_concat]
    exact ⟨hinv.of_not_down (View.not_down_of_trying ht) id, trivial, trivial⟩
  | restored now reached hb =>
    rw [barred_concat]
    refine ⟨hinv.of_not_down (View.not_down_of_bootstrapping hb) fun hmode ↦ ?_, trivial, trivial⟩
    by_cases hc : v.mode = .connecting
    · simp [hc] at hmode
    · simpa [hc] using hmode
  | gaveUp now refused hb =>
    refine ⟨⟨fun _ ↦ ⟨rfl, rfl, rfl⟩, fun _ ↦ ⟨rfl, rfl, rfl⟩⟩, trivial, ?_⟩
    split
    · exact ⟨trivial, trivial⟩
    · trivial

/-! ## Runs -/

namespace FrontendDriver

/-- The link is found dead in this step while it is live: its channel is closed once the messages
are handled, its tunnel died, or it was silent for too long when that is checked. -/
def FindsDead (d : FrontendDriver K) : Event K → Prop
  | .drain _ batch =>
    let handled := batch.foldl handleSessionEvent d
    handled.srvClosed = true ∧ handled.connectionState.isLive = true
  | .tunnelDied _ => d.currentTransport = .tcpTls ∧ d.connectionState.isLive = true
  | .liveness now timedOut =>
    livenessTick ≤ now - d.lastLiveness ∧ timedOut = true ∧ d.connectionState.isLive = true
  | _ => False

/-- What fits together in every state. -/
structure Consistent (d : FrontendDriver K) (r : List (Report K)) : Prop where
  /-- At most one bootstrap is in flight. -/
  oneInFlight : d.inFlight.length ≤ 1
  /-- It is the one whose outcome is waited for. -/
  polled : ∀ t ∈ d.inFlight, ∃ rx, d.bootstrapRx = some rx ∧ rx.id = t.id
  /-- An attempt is waiting, with a due time, or under way. -/
  scheduled : d.reconnect.isActive = true →
    (∃ n due, d.reconnect.state = .waiting n due ∧ d.bootstrapRx = none)
      ∨ (∃ n, d.reconnect.state = .trying n ∧ d.bootstrapRx.isSome = true)
  /-- It has the number of the failures since the link was lost, and one. -/
  numbered : ∀ n, d.reconnect.attempt = some n → n = failures r + 1

variable {d : FrontendDriver K}

theorem consistent_of_wf {r : List (Report K)} (htasks : d.TasksWf) (hwf : (view d).Wf)
    (hcounts : (view d).Counts (failures r)) : d.Consistent r where
  oneInFlight := htasks.inFlight_length_le
  polled _ ht := htasks.exists_rx ht
  scheduled hactive := by
    rcases hstate : d.reconnect.state with _ | ⟨n, due⟩ | n
    · exact absurd hstate (Reconnect.isActive_eq_true.mp hactive)
    · have hrx : d.bootstrapRx.isSome = false := hwf.waiting n due hstate
      exact .inl ⟨n, due, rfl, by simpa using hrx⟩
    · exact .inr ⟨n, rfl, hwf.trying n hstate⟩
  numbered n hn := by
    rw [Reconnect.attempt] at hn
    rcases hstate : d.reconnect.state with _ | ⟨m, due⟩ | m
    · rw [hstate] at hn
      exact nomatch hn
    · rw [hstate] at hn
      obtain rfl := Option.some.inj hn
      exact hcounts.waiting hstate
    · rw [hstate] at hn
      obtain rfl := Option.some.inj hn
      exact hcounts.trying hstate

/-- Messages do not bring a link up that is not. -/
theorem isLive_of_handleSessionEvents {batch : List SessionEvent}
    (h : (batch.foldl handleSessionEvent d).connectionState.isLive = true) :
    d.connectionState.isLive = true := by
  induction batch generalizing d with
  | nil => exact h
  | cons e batch ih =>
    obtain ⟨connectionState, mode, heq, -, hlive⟩ := d.handleSessionEvent_eq e
    have hnext := ih h
    rw [heq] at hnext
    exact hlive hnext

theorem isActive_of_findsDead (hmode : d.connectionState.isLive = true → d.mode ≠ .disconnected)
    {e : Event K} (h : d.FindsDead e) : (d.act e).1.reconnect.isActive = true := by
  cases e with
  | drain now batch =>
    have hne := hmode (isLive_of_handleSessionEvents h.2)
    have hboth := Bool.and_eq_true_iff.mpr h
    simp only [act, drainServerMessages, hne, if_false]
    rw [if_pos hboth]
    rfl
  | tunnelDied now =>
    obtain ⟨htransport, hlive⟩ := h
    simp only [act, drainTunnelDeaths]
    rw [if_pos ⟨htransport, hlive⟩]
    rfl
  | liveness now timedOut =>
    obtain ⟨htick, htimeout, hlive⟩ := h
    simp only [act, tickLiveness]
    rw [if_neg (Nat.not_lt.mpr htick), if_pos (Bool.and_eq_true_iff.mpr ⟨htimeout, hlive⟩)]
    rfl
  | _ => exact h.elim

end FrontendDriver

theorem counts_new (jitterSeed : ℕ) (desiredPeer : Option PeerId) (pendingTarget : Bool)
    (now : Nanos) :
    (view (.new jitterSeed desiredPeer pendingTarget now : FrontendDriver K)).Counts 0 := by
  rw [FrontendDriver.new]
  split <;> trivial

theorem barred_new (jitterSeed : ℕ) (desiredPeer : Option PeerId) (pendingTarget : Bool)
    (now : Nanos) :
    (view (.new jitterSeed desiredPeer pendingTarget now : FrontendDriver K)).Barred false := by
  rw [FrontendDriver.new]
  split <;> exact ⟨fun h ↦ absurd h Bool.false_ne_true, fun h ↦ Mode.noConfusion h⟩

/-- In every run there is at most one bootstrap in flight, what is retried is waiting or under way,
and attempts have their numbers. -/
theorem consistent_run (jitterSeed : ℕ) (desiredPeer : Option PeerId) (pendingTarget : Bool)
    (now : Nanos) (es : List (Event K)) :
    let d := FrontendDriver.new jitterSeed desiredPeer pendingTarget now
    (exec d es).Consistent (record d es)
      ∧ Record.Lawful (fun r h ↦ h.Numbered (failures r)) [] (record d es) := by
  intro d
  obtain ⟨hwf, hinv, hlaw⟩ := lawful_run False
    (fun r v ↦ v.Counts (failures r)) (fun r v hs v' _ ↦ counts_move r v hs v')
    (FrontendDriver.wf_new jitterSeed desiredPeer pendingTarget now)
    (counts_new jitterSeed desiredPeer pendingTarget now) es
    (Run.ok_iff_forall _ _ |>.mpr fun _ _ _ h ↦ h.elim)
  have htasks : (exec d es).TasksWf :=
    Run.invariant (fun d e (h : d.TasksWf) ↦ h.act e) es d
      (FrontendDriver.tasksWf_new jitterSeed desiredPeer pendingTarget now)
  exact ⟨FrontendDriver.consistent_of_wf htasks hwf hinv, hlaw⟩

/-- In every run in which the user disconnects only with nothing retried or bootstrapped, attempts
are numbered by the failures since the link was lost, none starts after a refusal or a disconnect
until the user asks for the link, and a live link that is found dead is retried. -/
theorem attempts_orderly (jitterSeed : ℕ) (desiredPeer : Option PeerId) (pendingTarget : Bool)
    (now : Nanos) (es : List (Event K))
    (hok : Run.Ok (Record.next FrontendDriver.act) FrontendDriver.Orderly
      (.new jitterSeed desiredPeer pendingTarget now) es) :
    let d := FrontendDriver.new jitterSeed desiredPeer pendingTarget now
    (exec d es).Consistent (record d es)
      ∧ (∀ pre n post, record d es = pre ++ .attempt n :: post →
        n = failures pre + 1 ∧ barred pre = false)
      ∧ ∀ e, (exec d es).FindsDead e → ((exec d es).act e).1.reconnect.isActive = true := by
  intro d
  obtain ⟨hconsistent, hnumbered⟩ :=
    consistent_run (K := K) jitterSeed desiredPeer pendingTarget now es
  have hok' : Run.Ok (Record.next FrontendDriver.act)
      (fun (d : FrontendDriver K) e ↦ True → d.Orderly e) d es := by
    simpa using hok
  obtain ⟨-, hinv, hlaw⟩ := lawful_run True
    (fun r v ↦ v.Barred (barred r)) (fun r v hs v' _ ↦ barred_move r v hs v')
    (FrontendDriver.wf_new jitterSeed desiredPeer pendingTarget now)
    (barred_new jitterSeed desiredPeer pendingTarget now) es hok'
  refine ⟨hconsistent, fun pre n post heq ↦ ⟨?_, ?_⟩, fun e hdead ↦ ?_⟩
  · exact (Record.lawful_iff_forall [] _).mp hnumbered pre (.attempt n) post heq
  · exact (Record.lawful_iff_forall [] _).mp hlaw pre (.attempt n) post heq
  · refine FrontendDriver.isActive_of_findsDead (fun hlive hmode ↦ ?_) hdead
    exact View.not_down_of_live hlive (hinv.mode hmode)

/-- An attempt that fails, one the user brings forward, which is refused, and a disconnect. -/
def refusedOutage : List (Event Unit) :=
  [.finish 0 (.success ⟨.uds, some 7⟩), .poll 0, .srvClose, .drain 0 [], .retry (millis 250),
    .finish 1 (.failed "not answering"), .poll (millis 300), .reconnect (millis 400),
    .retry (millis 400), .finish 2 (.refused "protocol"), .poll (millis 500), .disconnect,
    .retry (secs 60)]

theorem attempts_orderly_refusedOutage :
    let d := FrontendDriver.new 0 none true 0
    (exec d refusedOutage).Consistent (record d refusedOutage)
      ∧ (∀ pre n post, record d refusedOutage = pre ++ .attempt n :: post →
        n = failures pre + 1 ∧ barred pre = false)
      ∧ ∀ e, (exec d refusedOutage).FindsDead e →
        ((exec d refusedOutage).act e).1.reconnect.isActive = true :=
  attempts_orderly 0 none true 0 refusedOutage (by decide)

/-- The link is lost, the user disconnects, and the next tick is when the first attempt is due. -/
def disconnectedOutage : List (Event Unit) :=
  [.finish 0 (.success ⟨.uds, some 7⟩), .poll 0, .srvClose, .drain 0 [], .disconnect]
    ++ tick (millis 250) [] 0 false

/-- An attempt may start after the user has disconnected. -/
theorem attempt_after_disconnect :
    ¬ ∀ (es : List (Event Unit)) (pre : List (Report Unit)) (n : ℕ) (post : List (Report Unit)),
      record (.new 0 none true 0) es = pre ++ .attempt n :: post → barred pre = false := by
  intro h
  have hallowed := h disconnectedOutage
    [.flushed 0 (some 7) [] 0, .lost (some 7), .disconnected] 1 [] (by decide)
  exact absurd hallowed (by decide)

end Driver

end Kmux
