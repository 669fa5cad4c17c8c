import Kmux.Daemon.ServerApp
import Kmux.VtCore.MockBackend

/-!
# Input locks and the channels of their holders

A pane's input lock names a client; the pane's map says who is attached, and through which channel.
When a channel ends, its cleanup goes through the entries made through that channel and releases the
locks it finds there. A lock whose holder is not on the map is not found: the holder may never have
attached, or a broadcast may have dropped it.

A lock is released in time when the last channel of a client still finds the client attached to
every pane it has locked, `Held`. Under that condition every lock has a holder with a live channel.
-/

namespace Kmux

/-! ## What a pane event does to the lock and to the entries -/

namespace PaneRelay

variable {B : Type*} [TerminalBackend B]

/-- A pane is locked by its holder's request. -/
theorem locked_step {r : PaneRelay B} {e : RelayEvent B} {c : ClientId}
    (h : (r.step e).inputMode = .locked c) :
    r.inputMode = .locked c ∨ e = .requestInputLock c := by
  have hunlock : ∀ c', (r.unlockIfHeld c').inputMode = .locked c → r.inputMode = .locked c := by
    intro c' h'
    rw [unlockIfHeld_inputMode] at h'
    split at h'
    · cases h'
    · exact h'
  have hremove : ∀ c', (r.removeClient c').reconcile.1.inputMode = .locked c →
      r.inputMode = .locked c := by
    intro c' h'
    rw [reconcile_inputMode, removeClient_inputMode, ← unlockIfHeld_inputMode] at h'
    exact hunlock c' h'
  cases e with
  | detachFromPane c' => exact .inl (hremove c' h)
  | detachChannel c' ctrl =>
    left
    rw [step, detachChannel] at h
    split at h
    · exact hremove c' h
    · exact h
  | requestInputLock c' =>
    rw [step, requestInputLock_eq] at h
    split at h
    · right
      rw [InputMode.locked.inj h]
    · exact .inl h
  | releaseInputLock c' =>
    rw [step, releaseInputLock_eq] at h
    exact .inl (hunlock c' h)
  | attach c' lastSeqno size ctrlTx capabilities =>
    left
    rw [step, attach, reconcile_inputMode] at h
    exact h
  | resize c' size =>
    left
    rw [step, resize, reconcile_inputMode] at h
    exact h
  | _ => exact .inl h

/-- An entry was there before, made through the same channel, or is made by an attach. -/
theorem lookup_step {r : PaneRelay B} {e : RelayEvent B} {c : ClientId} {sender : ClientSender}
    (h : (r.step e).clients.lookup c = some sender) :
    (∃ old, r.clients.lookup c = some old ∧ old.ctrlTx = sender.ctrlTx) ∨
      ∃ lastSeqno size capabilities,
        e = .attach c lastSeqno size sender.ctrlTx capabilities := by
  have herase : ∀ c', (r.removeClient c').reconcile.1.clients.lookup c = some sender →
      r.clients.lookup c = some sender := by
    intro c' h'
    rw [reconcile_clients, removeClient_clients] at h'
    exact (Table.lookup_erase_eq_some h').2
  have hmodify : ∀ c' (f : ClientSender → ClientSender), (∀ s, (f s).ctrlTx = s.ctrlTx) →
      (r.clients.modify c' f).lookup c = some sender →
        ∃ old, r.clients.lookup c = some old ∧ old.ctrlTx = sender.ctrlTx := by
    intro c' f hf h'
    rw [ClientMap.lookup_modify] at h'
    split at h'
    next heq =>
      obtain ⟨old, hold, rfl⟩ := Option.map_eq_some_iff.mp h'
      exact ⟨old, heq ▸ hold, (hf old).symm⟩
    next => exact ⟨sender, h', rfl⟩
  cases e with
  | attach c' lastSeqno size ctrlTx capabilities =>
    rw [step, attach, reconcile_clients, recomputeLiveCapabilities_clients] at h
    rcases Table.lookup_insert_eq_some h with ⟨rfl, rfl⟩ | ⟨-, hold⟩
    · exact .inr ⟨lastSeqno, size, capabilities, rfl⟩
    · exact .inl ⟨sender, hold, rfl⟩
  | detachFromPane c' => exact .inl ⟨sender, herase c' h, rfl⟩
  | detachChannel c' ctrl =>
    left
    rw [step, detachChannel] at h
    split at h
    · exact ⟨sender, herase c' h, rfl⟩
    · exact ⟨sender, h, rfl⟩
  | resize c' size =>
    left
    rw [step, resize, reconcile_clients] at h
    exact hmodify c' (fun s ↦ { s with size }) (fun _ ↦ rfl) h
  | requestInputLock c' =>
    left
    rw [step, requestInputLock_eq] at h
    split at h <;> exact ⟨sender, h, rfl⟩
  | releaseInputLock c' =>
    left
    rw [step, releaseInputLock_eq, unlockIfHeld_clients] at h
    exact ⟨sender, h, rfl⟩
  | setSnapshotMode c' enabled =>
    exact .inl (hmodify c' (fun s ↦ { s with forceFullSnapshot := enabled }) (fun _ ↦ rfl) h)
  | setPaused c' paused auto =>
    exact .inl (hmodify c' (fun s ↦ { s with paused, pauseAuto := auto }) (fun _ ↦ rfl) h)
  | setPaneNoAutoPause c' exempt =>
    exact .inl (hmodify c' (fun s ↦ { s with noAutoPause := exempt }) (fun _ ↦ rfl) h)
  | output b => exact .inl ⟨sender, h, rfl⟩
  | broadcast message seqno answer =>
    left
    rw [step, broadcastToClients, ClientMap.lookup_eraseAll] at h
    split at h
    · cases h
    · exact ⟨sender, h, rfl⟩
  | clear => cases h

/-- The end of a channel takes the entries made through it. -/
theorem ctrlTx_ne_of_detachChannel {r : PaneRelay B} {client c : ClientId} {ctrl : ChannelId}
    {sender : ClientSender}
    (h : (r.detachChannel client ctrl).1.clients.lookup c = some sender) :
    ¬(c = client ∧ sender.ctrlTx = ctrl) := by
  rintro ⟨rfl, hctrl⟩
  rw [detachChannel] at h
  split at h
  next =>
    rw [reconcile_clients, removeClient_clients, AList.lookup_erase] at h
    cases h
  next hours =>
    refine hours ?_
    rw [h]
    exact decide_eq_true hctrl

/-- And the lock of a client that it finds. -/
theorem detachChannel_unlocks {r : PaneRelay B} {client : ClientId} {ctrl : ChannelId}
    {sender : ClientSender} (h : r.clients.lookup client = some sender)
    (hctrl : sender.ctrlTx = ctrl) :
    (r.detachChannel client ctrl).1.inputMode ≠ .locked client := by
  rw [detachChannel, if_pos]
  · rw [reconcile_inputMode, removeClient_inputMode]
    split
    next =>
      intro h'
      cases h'
    next hne => exact hne
  · rw [h]
    exact decide_eq_true hctrl

end PaneRelay

/-! ## Channels that serve a client -/

/-- The channel whose loop an event moves on. -/
def ServerEvent.channel? {B : Type*} : ServerEvent B → Option ChannelId
  | .register ch _ _ _ => some ch
  | .drawClientId ch => some ch
  | .drawConnectionId ch => some ch
  | .insertConnection ch => some ch
  | .detachChannel ch => some ch
  | .releaseConnection ch => some ch
  | _ => none

namespace ServerApp

variable {B : Type*} [TerminalBackend B]

/-- An event moves at most its own channel on, and only a cleanup stops one that serves. -/
theorem channels_stepRegistry (s : ServerApp B) (e : ServerEvent B) :
    (s.stepRegistry e).channels = s.channels ∨
      ∃ ch phase, e.channel? = some ch ∧
        (s.stepRegistry e).channels = Function.update s.channels ch phase ∧
          ((s.channels ch).client? = none ∨ e = .detachChannel ch) := by
  cases e with
  | register ch transport resumeFrom identity =>
    rw [stepRegistry]
    split
    next hch =>
      right
      have hclient : (s.channels ch).client? = none := by rw [hch]; rfl
      cases resumeFrom with
      | none => exact ⟨ch, _, rfl, rfl, .inl hclient⟩
      | some from' =>
        rw [register]
        split
        · exact ⟨ch, _, rfl, rfl, .inl hclient⟩
        · split <;> exact ⟨ch, _, rfl, rfl, .inl hclient⟩
    next => exact .inl rfl
  | drawClientId ch | drawConnectionId ch | insertConnection ch | releaseConnection ch =>
    rw [stepRegistry]
    split
    next hch => exact .inr ⟨ch, _, rfl, rfl, .inl (by rw [hch]; rfl)⟩
    next => exact .inl rfl
  | detachChannel ch =>
    rw [stepRegistry]
    split
    next => exact .inr ⟨ch, _, rfl, rfl, .inr rfl⟩
    next => exact .inl rfl
  | openPane p backend size =>
    rw [stepRegistry]
    split <;> exact .inl rfl
  | _ => exact .inl rfl

/-- A channel that serves a client goes on to, until its own cleanup. -/
theorem client?_step {s : ServerApp B} {e : ServerEvent B} {ch : ChannelId} {c : ClientId}
    (h : (s.channels ch).client? = some c) (he : e ≠ .detachChannel ch) :
    ((s.step e).channels ch).client? = some c := by
  rw [step]
  rcases channels_stepRegistry ({ s with panes := s.stepPanes e } : ServerApp B) e with
    heq | ⟨ch', phase, -, heq, hwhy⟩
  · rw [heq]
    exact h
  · rw [heq, Function.update_of_ne]
    · exact h
    · rintro rfl
      rcases hwhy with hnone | hdetach
      · rw [h] at hnone
        cases hnone
      · exact he hdetach

theorem channels_step_of_ne {s : ServerApp B} {e : ServerEvent B} {ch : ChannelId}
    (h : e.channel? ≠ some ch) : (s.step e).channels ch = s.channels ch := by
  rw [step]
  rcases channels_stepRegistry ({ s with panes := s.stepPanes e } : ServerApp B) e with
    heq | ⟨ch', phase, hch', heq, -⟩
  · rw [heq]
  · rw [heq, Function.update_of_ne]
    rintro rfl
    exact h hch'

/-! ## The invariant -/

omit [TerminalBackend B] in
/-- A client has no channel left: those it had have ended and cleaned up. -/
def Gone (s : ServerApp B) (c : ClientId) : Prop :=
  (∃ ch reg, (s.channels ch).reg? = some reg ∧ reg.clientId = c) ∧
    ∀ ch reg, (s.channels ch).reg? = some reg → reg.clientId = c →
      ∃ released, s.channels ch = .ended reg released

omit [TerminalBackend B] in
/-- No channel serves it then. -/
theorem Gone.client?_ne {s : ServerApp B} {c : ClientId} (h : Gone s c) (ch : ChannelId) :
    (s.channels ch).client? ≠ some c := by
  intro hch
  cases hphase : s.channels ch with
  | live reg =>
    rw [hphase] at hch
    obtain ⟨released, hended⟩ := h.2 ch reg (by rw [hphase]; rfl) (Option.some.inj hch)
    rw [hphase] at hended
    cases hended
  | _ =>
    rw [hphase] at hch
    cases hch

omit [TerminalBackend B] in
/-- When the last channel of a client cleans up, the client is attached to every pane it has
locked. -/
def Held (s : ServerApp B) : ServerEvent B → Prop
  | .detachChannel ch => ∀ c, (s.channels ch).client? = some c →
      (∀ ch', (s.channels ch').client? = some c → ch' = ch) →
        ∀ p r, s.panes p = some r → r.inputMode = .locked c → (r.clients.lookup c).isSome
  | _ => True

omit [TerminalBackend B] in
/-- Entries are made through channels that serve, and locks are held by clients that are served. -/
structure Served (s : ServerApp B) : Prop where
  attached : ∀ p r c sender, s.panes p = some r → r.clients.lookup c = some sender →
    (s.channels sender.ctrlTx).client? = some c
  locked : ∀ p r c, s.panes p = some r → r.inputMode = .locked c →
    ∃ ch, (s.channels ch).client? = some c

omit [TerminalBackend B] in
/-- An attach comes from a channel that serves the client, and is recorded under that channel. -/
theorem client?_of_attach {s : ServerApp B} {e : ServerEvent B} {p : PaneId} {c : ClientId}
    {lastSeqno : Option SequenceNo} {size : TermSize} {ctrl : ChannelId}
    {capabilities : ClientCapabilities}
    (h : s.relayEvent p e = some (.attach c lastSeqno size ctrl capabilities)) :
    (s.channels ctrl).client? = some c ∧ e.channel? = none := by
  cases e with
  | attach ch q lastSeqno' size' capabilities' =>
    rw [relayEvent] at h
    split at h
    · obtain ⟨c', hc', heq⟩ := Option.map_eq_some_iff.mp h
      obtain ⟨rfl, -, -, rfl, -⟩ := RelayEvent.attach.inj heq
      exact ⟨hc', rfl⟩
    · cases h
  | _ => simp [relayEvent] at h

omit [TerminalBackend B] in
/-- So does a request for the lock. -/
theorem client?_of_requestInputLock {s : ServerApp B} {e : ServerEvent B} {p : PaneId}
    {c : ClientId} (h : s.relayEvent p e = some (.requestInputLock c)) :
    (∃ ch, (s.channels ch).client? = some c) ∧ e.channel? = none := by
  cases e with
  | requestInputLock ch q =>
    rw [relayEvent] at h
    split at h
    · obtain ⟨c', hc', heq⟩ := Option.map_eq_some_iff.mp h
      obtain rfl := RelayEvent.requestInputLock.inj heq
      exact ⟨⟨ch, hc'⟩, rfl⟩
    · cases h
  | _ => simp [relayEvent] at h

omit [TerminalBackend B] in
private theorem ne_detachChannel {e : ServerEvent B} (h : e.channel? = none) (ch : ChannelId) :
    e ≠ .detachChannel ch := by
  rintro rfl
  cases h

/-- The entries of a pane after an event. -/
private theorem served_attached {s : ServerApp B} {e : ServerEvent B} (h : Served s) {p : PaneId}
    {r' : PaneRelay B} (hp : (s.step e).panes p = some r') {c : ClientId} {sender : ClientSender}
    (hc : r'.clients.lookup c = some sender) :
    ((s.step e).channels sender.ctrlTx).client? = some c := by
  rcases panes_step hp with ⟨backend, size, -, rfl⟩ | ⟨r, hr, ⟨rfl, hnone⟩ | ⟨e', he', rfl⟩⟩
  · cases hc
  · have hserved := h.attached p r' c sender hr hc
    refine client?_step hserved ?_
    rintro rfl
    rw [relayEvent, hserved] at hnone
    cases hnone
  · rcases PaneRelay.lookup_step hc with ⟨old, hold, hctrl⟩ | ⟨lastSeqno, size, caps, rfl⟩
    · have hserved := h.attached p r c old hr hold
      rw [hctrl] at hserved
      refine client?_step hserved ?_
      -- the cleanup of the entry's own channel would have taken the entry
      rintro rfl
      rw [relayEvent, hserved] at he'
      obtain rfl := Option.some.inj he'
      exact PaneRelay.ctrlTx_ne_of_detachChannel hc ⟨rfl, rfl⟩
    · obtain ⟨hserved, hevent⟩ := client?_of_attach he'
      exact client?_step hserved (ne_detachChannel hevent _)

/-- The lock of a pane after an event. -/
private theorem served_locked {s : ServerApp B} {e : ServerEvent B} (h : Served s)
    (hheld : Held s e) {p : PaneId} {r' : PaneRelay B} (hp : (s.step e).panes p = some r')
    {c : ClientId} (hlock : r'.inputMode = .locked c) :
    ∃ ch, ((s.step e).channels ch).client? = some c := by
  rcases panes_step hp with ⟨backend, size, -, rfl⟩ | ⟨r, hr, ⟨rfl, hnone⟩ | ⟨e', he', rfl⟩⟩
  · cases hlock
  · obtain ⟨ch, hserved⟩ := h.locked p r' c hr hlock
    refine ⟨ch, client?_step hserved ?_⟩
    rintro rfl
    rw [relayEvent, hserved] at hnone
    cases hnone
  · rcases PaneRelay.locked_step hlock with hlock' | rfl
    · obtain ⟨ch, hserved⟩ := h.locked p r c hr hlock'
      by_cases he : e = .detachChannel ch
      · subst he
        by_cases hother : ∃ ch', (s.channels ch').client? = some c ∧ ch' ≠ ch
        · obtain ⟨ch', hserved', hne⟩ := hother
          refine ⟨ch', client?_step hserved' fun heq ↦ hne ?_⟩
          rw [ServerEvent.detachChannel.inj heq]
        · -- the last channel of the holder: the entry is found, and the lock with it
          have hlast : ∀ ch', (s.channels ch').client? = some c → ch' = ch := fun ch' hch' ↦
            not_not.mp fun hne ↦ hother ⟨ch', hch', hne⟩
          obtain ⟨sender, hsender⟩ :=
            Option.isSome_iff_exists.mp (hheld c hserved hlast p r hr hlock')
          have hctrl := hlast _ (h.attached p r c sender hr hsender)
          rw [relayEvent, hserved] at he'
          obtain rfl := Option.some.inj he'
          exact absurd hlock (PaneRelay.detachChannel_unlocks hsender hctrl)
      · exact ⟨ch, client?_step hserved he⟩
    · obtain ⟨⟨ch, hserved⟩, hevent⟩ := client?_of_requestInputLock he'
      exact ⟨ch, client?_step hserved (ne_detachChannel hevent ch)⟩

/-- **One event.** -/
theorem Served.step {s : ServerApp B} {e : ServerEvent B} (h : Served s) (hheld : Held s e) :
    Served (s.step e) where
  attached := fun _ _ _ _ hp hc ↦ served_attached h hp hc
  locked := fun _ _ _ hp hlock ↦ served_locked h hheld hp hlock

/-- **Input locks die with their holder**, in every run in which the last channel of a client finds
it attached to the panes it has locked. -/
theorem unlocked_of_gone (instanceId : DaemonInstanceId) (es : List (ServerEvent B))
    (hheld : Run.Ok step Held (new instanceId) es) (c : ClientId)
    (hgone : Gone (run (new instanceId) es) c) (p : PaneId) (r : PaneRelay B)
    (hp : (run (new instanceId) es).panes p = some r) : r.inputMode ≠ .locked c := by
  intro hlock
  have hnew : Served (new instanceId : ServerApp B) :=
    ⟨fun _ _ _ _ hp ↦ (nomatch hp), fun _ _ _ hp ↦ (nomatch hp)⟩
  have hserved : Served (run (new instanceId) es) :=
    Run.invariant_of_ok (fun s e (h : Served s) he ↦ h.step he) es _ hnew hheld
  obtain ⟨ch, hch⟩ := hserved.locked p r c hp hlock
  exact hgone.client?_ne ch hch

/-! ## Two short lives of a client -/

/-- A channel that no event moves on stays where it is. -/
theorem channels_run_of_ne {s : ServerApp B} {es : List (ServerEvent B)} {ch : ChannelId}
    (h : ∀ e ∈ es, e.channel? ≠ some ch) : (s.run es).channels ch = s.channels ch := by
  induction es generalizing s with
  | nil => rfl
  | cons e es ih =>
    have hrest := ih (s := s.step e) fun e' he' ↦ h e' (List.mem_cons_of_mem e he')
    exact hrest.trans (channels_step_of_ne (h e List.mem_cons_self))

/-- A pane that no event opens is not there. -/
theorem panes_run_of_ne {s : ServerApp B} {es : List (ServerEvent B)} {p : PaneId}
    (h : ∀ e ∈ es, ∀ backend size, e ≠ .openPane p backend size) (hp : s.panes p = none) :
    (s.run es).panes p = none := by
  induction es generalizing s with
  | nil => exact hp
  | cons e es ih =>
    refine ih (fun e' he' ↦ h e' (List.mem_cons_of_mem e he')) ?_
    cases hstep : (s.step e).panes p with
    | none => rfl
    | some r =>
      rcases panes_step hstep with ⟨backend, size, he, -⟩ | ⟨r, hr, -⟩
      · exact absurd he (h e List.mem_cons_self backend size)
      · exact nomatch hp.symm.trans hr

/-- A client registers, attaches to the only pane, and locks it. -/
def lockedPane : List (ServerEvent MockBackend) :=
  [.openPane ("eagle", 0) (MockBackend.new 2 2) ⟨24, 80, 0, 0⟩,
    .register 1 .quic none ⟨"m", "host", "user"⟩, .drawClientId 1, .drawConnectionId 1,
    .insertConnection 1, .attach 1 ("eagle", 0) none ⟨24, 80, 0, 0⟩ ⟨false, false⟩,
    .requestInputLock 1 ("eagle", 0)]

/-- Its channel ends, and cleans up. -/
def cleanup : List (ServerEvent MockBackend) := [.detachChannel 1, .releaseConnection 1]

/-- A broadcast finds its data lane full. -/
def evict : List (ServerEvent MockBackend) :=
  [.broadcast ("eagle", 0) .syncReset 1 fun _ ↦ .full]

private theorem gone_of_ended {es : List (ServerEvent MockBackend)}
    (hes : ∀ e ∈ es, e.channel? = none ∨ e.channel? = some 1)
    (hended : ∃ reg released, (run (new 7) es).channels 1 = .ended reg released ∧
      reg.clientId = 1) : Gone (run (new 7) es) 1 := by
  obtain ⟨reg, released, hended, hclient⟩ := hended
  refine ⟨⟨1, reg, by rw [hended]; rfl, hclient⟩, fun ch reg' hreg' _ ↦ ?_⟩
  by_cases hch : ch = 1
  · subst hch
    rw [hended] at hreg'
    exact ⟨released, by rw [hended, Option.some.inj hreg']⟩
  · rw [channels_run_of_ne] at hreg'
    · cases hreg'
    · intro e he heq
      rcases hes e he with hnone | hsome
      · exact nomatch hnone.symm.trans heq
      · exact hch (Option.some.inj (heq.symm.trans hsome))

private theorem held_lockedPane : Held (run (new 7) lockedPane) (.detachChannel 1) := by
  intro c hc _ p r hr hlock
  have hclient : ((run (new 7) lockedPane).channels 1).client? = some 1 := by decide
  obtain rfl := Option.some.inj (hclient.symm.trans hc)
  by_cases hp : p = ("eagle", 0)
  · subst hp
    have hview : ((run (new 7) lockedPane).panes ("eagle", 0)).map
        (fun r ↦ (r.clients.lookup 1).isSome) = some true := by decide
    rw [hr] at hview
    exact Option.some.inj hview
  · rw [panes_run_of_ne _ rfl] at hr
    · cases hr
    · intro e he backend size heq
      subst heq
      simp only [lockedPane, List.mem_cons, ServerEvent.openPane.injEq, reduceCtorEq,
        List.not_mem_nil, or_false] at he
      exact hp he.1

/-- The cleanup of the holder's channel opens the pane. -/
theorem unlocked_of_gone_locked_pane :
    Run.Ok step Held (new 7) (lockedPane ++ cleanup) ∧
      Gone (run (new 7) (lockedPane ++ cleanup)) 1 ∧
      ∃ r, (run (new 7) (lockedPane ++ cleanup)).panes ("eagle", 0) = some r ∧
        r.inputMode ≠ .locked 1 := by
  have hheld : Run.Ok step Held (new 7) (lockedPane ++ cleanup) := by
    rw [Run.ok_append]
    refine ⟨⟨trivial, trivial, trivial, trivial, trivial, trivial, trivial, trivial⟩, ?_⟩
    exact ⟨held_lockedPane, trivial, trivial⟩
  have hgone : Gone (run (new 7) (lockedPane ++ cleanup)) 1 :=
    gone_of_ended (by decide) ⟨_, _, rfl, rfl⟩
  refine ⟨hheld, hgone, _, rfl, ?_⟩
  exact unlocked_of_gone 7 (lockedPane ++ cleanup) hheld 1 hgone ("eagle", 0) _ rfl

/-- A holder that a broadcast dropped leaves its lock behind. -/
theorem not_unlocked_of_evicted_holder :
    ¬ ∀ (es : List (ServerEvent MockBackend)) (c : ClientId), Gone (run (new 7) es) c →
      ∀ p r, (run (new 7) es).panes p = some r → r.inputMode ≠ .locked c := by
  intro h
  have hgone : Gone (run (new 7) (lockedPane ++ evict ++ cleanup)) 1 :=
    gone_of_ended (by decide) ⟨_, _, rfl, rfl⟩
  have hview : ((run (new 7) (lockedPane ++ evict ++ cleanup)).panes ("eagle", 0)).map
      (fun r ↦ r.inputMode) = some (.locked 1) := by decide
  obtain ⟨r, hr, hlock⟩ := Option.map_eq_some_iff.mp hview
  exact h _ 1 hgone ("eagle", 0) r hr hlock

end ServerApp

end Kmux
