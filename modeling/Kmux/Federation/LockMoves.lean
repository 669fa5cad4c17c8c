import Kmux.Federation.LockLink
import Mathlib.Logic.Relation

/-!
# What a link does to the lock of one pane

What a link does to one pane is a run of the lock protocol of that pane (`PaneLock`): the messages
on their way that concern the pane are its messages, who holds the lock at the hub is its holder,
and the peer's input mode is its lock. Of what the hub does there is one relation for all panes
(`Acts`), which is a run of moves for each; a reply of the peer is one move for its pane
(`Replied`).
-/

namespace Kmux

namespace Federation

open Relation PaneLock

/-! ## One pane of a link -/

/-- The pane whose lock a message concerns. -/
def ClientMessage.lockPane : ClientMessage → Option PaneId
  | .requestInputLock pane | .releaseInputLock pane | .attach pane _ | .detach pane => some pane
  | _ => none

/-- What a message of the hub is to the lock of a pane. -/
def Sent.lockMsg (log : List Sent) (remote : PaneId) (x : Sent) : Option LockMsg :=
  match x.msg, x.cause.sender with
  | .requestInputLock pane, .client id _ =>
    if pane = remote then some (.ask id (isClean log remote id x.cause.call)) else none
  | .requestInputLock pane, .hub => if pane = remote then some .relock else none
  | .releaseInputLock pane, .client id _ => if pane = remote then some (.free id) else none
  | .releaseInputLock pane, .hub => if pane = remote then some .giveBack else none
  | .attach pane _, .client _ _ => if pane = remote then some .attach else none
  | .attach pane _, .hub => if pane = remote then some .resync else none
  | .detach pane, _ => if pane = remote then some .detach else none
  | _, _ => none

/-- What a frame of the peer is to it. -/
def Arrival.lockReply (log : List Sent) (remote : PaneId) (a : Arrival) : Option LockReply :=
  match a.msg, a.cause.sender with
  | .inputLockGranted pane, .client id _ =>
    if pane = remote then some (.granted id (isClean log remote id a.cause.call)) else none
  | .inputLockGranted pane, .hub => if pane = remote then some .regranted else none
  | .inputLockDenied pane _, sender =>
    if pane = remote then some (.denied sender.clientId) else none
  | .inputLockReleased pane, .client id _ => if pane = remote then some (.freed id) else none
  | .inputLockReleased pane, .hub => if pane = remote then some .gaveBack else none
  | _, _ => none

/-- Whose the lock of a pane is, to the hub. -/
def lockOf (me : ClientId) : InputMode → PeerLock
  | .unlocked => .free
  | .locked holder => if holder = me then .ours else .theirs
  | .disabled => .theirs

/-- The lock of a pane, as it stands between a connection and the peer. -/
def PeerConnection.paneLock (c : PeerConnection) (served : List Sent) (down : List Arrival)
    (lock : PeerLock) (attached : Bool) (pane remote : PaneId) : PaneLock where
  holder := c.holder pane
  shown := (c.panes.lookup pane).isSome
  up := c.clientTx.queue.filterMap (Sent.lockMsg (served ++ c.clientTx.queue) remote)
  down := down.filterMap (Arrival.lockReply (served ++ c.clientTx.queue) remote)
  lock
  attached

/-! ### What one more message changes -/

section Log

variable {log : List Sent} {remote : PaneId} {x y : Sent} {a : Arrival} {m : LockMsg}

theorem sentAfter_concat {call : Option ℕ} (h : ∃ y ∈ log, y.cause.call = call) (x : Sent) :
    sentAfter call (log ++ [x]) = sentAfter call log ++ [x] := by
  obtain ⟨y, hy, hcall⟩ := h
  have hne : log.dropWhile (fun x ↦ decide (x.cause.call ≠ call)) ≠ [] := by
    intro hnil
    have hall := List.dropWhile_eq_nil_iff.mp hnil y hy
    exact of_decide_eq_true hall hcall
  rw [sentAfter, sentAfter, List.dropWhile_append, if_neg]
  · exact List.tail_append_of_ne_nil hne
  · rw [List.isEmpty_iff]
    exact hne

theorem isClean_concat {call : Option ℕ} (h : ∃ y ∈ log, y.cause.call = call) (x : Sent)
    (remote : PaneId) (client : ClientId) : isClean (log ++ [x]) remote client call =
      (isClean log remote client call && !x.spoils remote client) := by
  rw [isClean, isClean, sentAfter_concat h, List.all_append, List.all_cons, List.all_nil,
    Bool.and_true]

theorem lockMsg_of_ne (h : x.msg.lockPane ≠ some remote) : x.lockMsg log remote = none := by
  obtain ⟨msg, ⟨sender, requestId, hubId, call⟩⟩ := x
  cases msg with
  | requestInputLock pane | releaseInputLock pane | attach pane size | detach pane =>
    have hpane : pane ≠ remote := fun heq ↦ h (congrArg some heq)
    rcases sender with _ | ⟨id, ctrl⟩
    all_goals exact if_neg hpane
  | _ => rfl

theorem lockMsg_ne_none (h : x.msg.lockPane = some remote) : x.lockMsg log remote ≠ none := by
  obtain ⟨msg, ⟨sender, requestId, hubId, call⟩⟩ := x
  cases msg with
  | requestInputLock pane | releaseInputLock pane | attach pane size | detach pane =>
    have hpane : pane = remote := Option.some.inj h
    rcases sender with _ | ⟨id, ctrl⟩
    all_goals
      refine ne_of_eq_of_ne (if_pos hpane) ?_
      exact Option.some_ne_none _
  | _ => cases h

/-- What spoils a grant concerns the pane. -/
theorem spoils_eq (log : List Sent) (remote : PaneId) (x : Sent) (client : ClientId) :
    x.spoils remote client = (x.lockMsg log remote).elim false fun m ↦ m.spoils client := by
  obtain ⟨msg, ⟨sender, requestId, hubId, call⟩⟩ := x
  cases msg with
  | requestInputLock pane | releaseInputLock pane | attach pane size | detach pane =>
    rcases sender with _ | ⟨id, ctrl⟩
    all_goals
      rw [Sent.spoils, Sent.lockMsg]
      by_cases hpane : pane = remote
      · simp [hpane, LockMsg.spoils]
      · simp [hpane]
  | _ => rfl

/-- A message that concerns the pane soils the requests it spoils. -/
theorem lockMsg_concat (hy : ∃ z ∈ log, z.cause.call = y.cause.call)
    (hx : x.lockMsg (log ++ [x]) remote = some m) :
    y.lockMsg (log ++ [x]) remote = (y.lockMsg log remote).map m.soil := by
  have hspoils : ∀ client, x.spoils remote client = m.spoils client := fun client ↦ by
    rw [spoils_eq (log ++ [x]), hx, Option.elim_some]
  have hclean := isClean_concat hy x remote
  obtain ⟨msg, ⟨sender, requestId, hubId, call⟩⟩ := y
  cases msg with
  | requestInputLock pane | releaseInputLock pane | attach pane size | detach pane =>
    rcases sender with _ | ⟨id, ctrl⟩
    all_goals
      rw [Sent.lockMsg, Sent.lockMsg]
      by_cases hpane : pane = remote
      · simp [hpane, LockMsg.soil, hclean, hspoils]
      · simp [hpane]
  | _ => rfl

theorem lockReply_concat (ha : ∃ z ∈ log, z.cause.call = a.cause.call)
    (hx : x.lockMsg (log ++ [x]) remote = some m) :
    a.lockReply (log ++ [x]) remote = (a.lockReply log remote).map (LockReply.soil m) := by
  have hspoils : ∀ client, x.spoils remote client = m.spoils client := fun client ↦ by
    rw [spoils_eq (log ++ [x]), hx, Option.elim_some]
  have hclean := isClean_concat ha x remote
  obtain ⟨msg, ⟨sender, requestId, hubId, call⟩⟩ := a
  cases msg with
  | inputLockGranted pane | inputLockDenied pane holder | inputLockReleased pane =>
    rcases sender with _ | ⟨id, ctrl⟩
    all_goals
      rw [Arrival.lockReply, Arrival.lockReply]
      by_cases hpane : pane = remote
      · simp [hpane, LockReply.soil, hclean, hspoils]
      · simp [hpane]
  | _ => rfl

/-- Any other message changes nothing. -/
theorem lockMsg_concat_none (hy : ∃ z ∈ log, z.cause.call = y.cause.call)
    (hx : x.lockMsg (log ++ [x]) remote = none) :
    y.lockMsg (log ++ [x]) remote = y.lockMsg log remote := by
  have hspoils : ∀ client, x.spoils remote client = false := fun client ↦ by
    rw [spoils_eq (log ++ [x]), hx, Option.elim_none]
  have hclean := isClean_concat hy x remote
  obtain ⟨msg, ⟨sender, requestId, hubId, call⟩⟩ := y
  cases msg with
  | requestInputLock pane =>
    rcases sender with _ | ⟨id, ctrl⟩
    · rfl
    · rw [Sent.lockMsg, Sent.lockMsg]
      simp [hclean, hspoils]
  | releaseInputLock pane | attach pane size => rcases sender with _ | ⟨id, ctrl⟩ <;> rfl
  | _ => rfl

theorem lockReply_concat_none (ha : ∃ z ∈ log, z.cause.call = a.cause.call)
    (hx : x.lockMsg (log ++ [x]) remote = none) :
    a.lockReply (log ++ [x]) remote = a.lockReply log remote := by
  have hspoils : ∀ client, x.spoils remote client = false := fun client ↦ by
    rw [spoils_eq (log ++ [x]), hx, Option.elim_none]
  have hclean := isClean_concat ha x remote
  obtain ⟨msg, ⟨sender, requestId, hubId, call⟩⟩ := a
  cases msg with
  | inputLockGranted pane =>
    rcases sender with _ | ⟨id, ctrl⟩
    · rfl
    · rw [Arrival.lockReply, Arrival.lockReply]
      simp [hclean, hspoils]
  | inputLockReleased pane => rcases sender with _ | ⟨id, ctrl⟩ <;> rfl
  | _ => rfl

end Log

/-! ### Sending -/

namespace PeerConnection

variable {c c' : PeerConnection} {served : List Sent} {down : List Arrival} {lock : PeerLock}
  {attached : Bool} {pane remote : PaneId} {x : Sent} {m : LockMsg}

/-- Only the holder, the pane and the channel are read. -/
theorem paneLock_congr (holder : c'.holder pane = c.holder pane)
    (shown : (c'.panes.lookup pane).isSome = (c.panes.lookup pane).isSome)
    (queue : c'.clientTx.queue = c.clientTx.queue) :
    c'.paneLock served down lock attached pane remote =
      c.paneLock served down lock attached pane remote := by
  rw [paneLock, paneLock, holder, shown, queue]

/-- Every frame on its way answers a message that the peer has handled. -/
def Handled (served : List Sent) (down : List Arrival) : Prop :=
  ∀ a ∈ down, ∃ y ∈ served, y.cause.call = a.cause.call

private theorem queue_push (hopen : c.clientTx.closed = false) (x : Sent) :
    (c.push x).clientTx.queue = c.clientTx.queue ++ [x] := by
  rw [push, Outlet.send, hopen, if_neg Bool.false_ne_true, Option.getD_some]

/-- A message that concerns the pane is sent. -/
theorem paneLock_push (hopen : c.clientTx.closed = false) (hhandled : Handled served down)
    (hx : x.lockMsg (served ++ c.clientTx.queue ++ [x]) remote = some m) :
    (c.push x).paneLock served down lock attached pane remote =
      (c.paneLock served down lock attached pane remote).send m := by
  have hqueue : ∀ y ∈ c.clientTx.queue, y.lockMsg (served ++ c.clientTx.queue ++ [x]) remote =
      (y.lockMsg (served ++ c.clientTx.queue) remote).map m.soil := fun y hy ↦
    lockMsg_concat ⟨y, List.mem_append_right _ hy, rfl⟩ hx
  have hdown : ∀ a ∈ down, a.lockReply (served ++ c.clientTx.queue ++ [x]) remote =
      (a.lockReply (served ++ c.clientTx.queue) remote).map (LockReply.soil m) := fun a ha ↦ by
    obtain ⟨y, hy, hcall⟩ := hhandled a ha
    exact lockReply_concat ⟨y, List.mem_append_left _ hy, hcall⟩ hx
  rw [paneLock, paneLock, PaneLock.send, queue_push hopen, ← List.append_assoc,
    List.filterMap_append, List.filterMap_congr hqueue, List.filterMap_congr hdown,
    List.filterMap_cons_some hx, List.filterMap_nil, List.map_filterMap, List.map_filterMap]
  rfl

/-- Any other message is sent. -/
theorem paneLock_push_none (hopen : c.clientTx.closed = false) (hhandled : Handled served down)
    (hx : x.lockMsg (served ++ c.clientTx.queue ++ [x]) remote = none) :
    (c.push x).paneLock served down lock attached pane remote =
      c.paneLock served down lock attached pane remote := by
  have hqueue : ∀ y ∈ c.clientTx.queue, y.lockMsg (served ++ c.clientTx.queue ++ [x]) remote =
      y.lockMsg (served ++ c.clientTx.queue) remote := fun y hy ↦
    lockMsg_concat_none ⟨y, List.mem_append_right _ hy, rfl⟩ hx
  have hdown : ∀ a ∈ down, a.lockReply (served ++ c.clientTx.queue ++ [x]) remote =
      a.lockReply (served ++ c.clientTx.queue) remote := fun a ha ↦ by
    obtain ⟨y, hy, hcall⟩ := hhandled a ha
    exact lockReply_concat_none ⟨y, List.mem_append_left _ hy, hcall⟩ hx
  rw [paneLock, paneLock, queue_push hopen, ← List.append_assoc, List.filterMap_append,
    List.filterMap_congr hqueue, List.filterMap_congr hdown, List.filterMap_cons_none hx,
    List.filterMap_nil, List.append_nil]
  rfl

/-- Two connections with the same maps, over channels that are both open or both closed. -/
structure SameMaps (c c' : PeerConnection) : Prop where
  localToRemote : c'.localToRemote = c.localToRemote
  remoteToLocal : c'.remoteToLocal = c.remoteToLocal
  closed : c'.clientTx.closed = c.clientTx.closed

theorem SameMaps.trans {c'' : PeerConnection} (h : c.SameMaps c') (h' : c'.SameMaps c'') :
    c.SameMaps c'' where
  localToRemote := h'.localToRemote.trans h.localToRemote
  remoteToLocal := h'.remoteToLocal.trans h.remoteToLocal
  closed := h'.closed.trans h.closed

theorem SameMaps.toRemotePane (h : c.SameMaps c') (pane : PaneId) :
    c'.toRemotePane pane = c.toRemotePane pane := by
  rw [PeerConnection.toRemotePane, PeerConnection.toRemotePane, h.localToRemote]

theorem push_sameMaps (c : PeerConnection) (x : Sent) : c.SameMaps (c.push x) := by
  refine ⟨rfl, rfl, ?_⟩
  rw [push, Outlet.send]
  split <;> rfl

theorem barrier_sameMaps (c : PeerConnection) (sender : Requester) :
    c.SameMaps (c.barrier sender) := by
  rw [barrier]
  split
  next routes seq _ =>
    have hroutes : c.SameMaps { c with routes } := ⟨rfl, rfl, rfl⟩
    exact hroutes.trans (push_sameMaps _ (pingSent seq))
  next => exact ⟨rfl, rfl, rfl⟩

theorem send_sameMaps (c : PeerConnection) (sender : Requester) (msg : ClientMessage)
    (call : Option ℕ) : c.SameMaps (c.send sender msg call) :=
  (barrier_sameMaps c sender).trans (push_sameMaps _ _)

@[simp] theorem barrier_panes (c : PeerConnection) (sender : Requester) :
    (c.barrier sender).panes = c.panes := by
  rw [barrier]
  split <;> rfl

@[simp] theorem barrier_inputLocks (c : PeerConnection) (sender : Requester) :
    (c.barrier sender).inputLocks = c.inputLocks := by
  rw [barrier]
  split <;> rfl

@[simp] theorem send_panes (c : PeerConnection) (sender : Requester) (msg : ClientMessage)
    (call : Option ℕ) : (c.send sender msg call).panes = c.panes := barrier_panes c sender

@[simp] theorem send_inputLocks (c : PeerConnection) (sender : Requester) (msg : ClientMessage)
    (call : Option ℕ) : (c.send sender msg call).inputLocks = c.inputLocks :=
  barrier_inputLocks c sender

@[simp] theorem send_holder (c : PeerConnection) (sender : Requester) (msg : ClientMessage)
    (call : Option ℕ) (pane : PaneId) : (c.send sender msg call).holder pane = c.holder pane := by
  rw [holder, holder, send_inputLocks]

/-- A ping concerns no pane. -/
theorem paneLock_barrier (hopen : c.clientTx.closed = false) (hhandled : Handled served down)
    (sender : Requester) :
    (c.barrier sender).paneLock served down lock attached pane remote =
      c.paneLock served down lock attached pane remote := by
  rw [barrier]
  split
  next routes seq _ =>
    rw [paneLock_push_none (c := { c with routes }) hopen hhandled rfl]
    rfl
  next => rfl

/-- What a connection sends on behalf of `sender`. -/
def sentFor (sender : Requester) (msg : ClientMessage) (call : Option ℕ) : Sent :=
  { msg, cause := { sender, requestId := none, hubId := none, call } }

/-- A message that concerns the pane, after its barrier. -/
theorem paneLock_send {sender : Requester} {msg : ClientMessage} {call : Option ℕ}
    (hopen : c.clientTx.closed = false) (hhandled : Handled served down)
    (hm : (sentFor sender msg call).lockMsg (served ++ (c.barrier sender).clientTx.queue ++
      [sentFor sender msg call]) remote = some m) :
    (c.send sender msg call).paneLock served down lock attached pane remote =
      (c.paneLock served down lock attached pane remote).send m := by
  rw [PeerConnection.send, paneLock_push, paneLock_barrier hopen hhandled]
  · rw [(barrier_sameMaps c sender).closed]
    exact hopen
  · exact hhandled
  · exact hm

/-- A message that does not concern it. -/
theorem paneLock_send_none {sender : Requester} {msg : ClientMessage} {call : Option ℕ}
    (hopen : c.clientTx.closed = false) (hhandled : Handled served down)
    (hmsg : msg.lockPane ≠ some remote) :
    (c.send sender msg call).paneLock served down lock attached pane remote =
      c.paneLock served down lock attached pane remote := by
  rw [PeerConnection.send, paneLock_push_none, paneLock_barrier hopen hhandled]
  · rw [(barrier_sameMaps c sender).closed]
    exact hopen
  · exact hhandled
  · exact lockMsg_of_ne hmsg

end PeerConnection

/-! ## What the hub does to the locks -/

/-- A connection has done things that concern its locks. -/
inductive Acts : PeerConnection → PeerConnection → Prop
  | keep {c c' : PeerConnection} (maps : c.SameMaps c')
      (queue : c'.clientTx.queue = c.clientTx.queue)
      (holder : ∀ pane, c'.holder pane = c.holder pane)
      (shown : ∀ pane, (c'.panes.lookup pane).isSome = (c.panes.lookup pane).isSome) : Acts c c'
  | ping (c : PeerConnection) : Acts c c.ping
  /-- A message that concerns no lock. -/
  | other (c : PeerConnection) (sender : Requester) (msg : ClientMessage) (call : Option ℕ)
      (other : msg.lockPane = none) : Acts c (c.send sender msg call)
  | ask (c : PeerConnection) (client : ClientId) (ctrl : ChannelId) (pane remote : PaneId)
      (call : Option ℕ) (mapped : c.toRemotePane pane = some remote) :
      Acts c (c.send (.client client ctrl) (.requestInputLock remote) call)
  | free (c : PeerConnection) (client : ClientId) (ctrl : ChannelId) (pane remote : PaneId)
      (mapped : c.toRemotePane pane = some remote) (holds : c.holder pane = some client) :
      Acts c (c.send (.client client ctrl) (.releaseInputLock remote) none)
  | leave (c : PeerConnection) (pane remote : PaneId) (mapped : c.toRemotePane pane = some remote) :
      Acts c ({ c with inputLocks := c.inputLocks.erase pane }.send .hub
        (.releaseInputLock remote) none)
  | attach (c : PeerConnection) (pane remote : PaneId) (p : ProxiedPane) (client : ClientId)
      (ctrl : ChannelId) (size : TermSize) (mapped : c.toRemotePane pane = some remote)
      (hidden : c.panes.lookup pane = none) :
      Acts c ({ c with panes := c.panes.insert pane p }.send (.client client ctrl)
        (.attach remote size) none)
  | resync (c : PeerConnection) (pane remote : PaneId) (size : TermSize)
      (mapped : c.toRemotePane pane = some remote) (shown : (c.panes.lookup pane).isSome)
      (holds : c.holder pane = none) : Acts c (c.send .hub (.attach remote size) none)
  | detach (c : PeerConnection) (pane remote : PaneId)
      (mapped : c.toRemotePane pane = some remote) (shown : (c.panes.lookup pane).isSome)
      (holds : c.holder pane = none) :
      Acts c ({ c with panes := c.panes.erase pane }.send .hub (.detach remote) none)
  | trans {c₁ c₂ c₃ : PeerConnection} (h : Acts c₁ c₂) (h' : Acts c₂ c₃) : Acts c₁ c₃

namespace Acts

open PeerConnection

variable {c c' : PeerConnection} {served : List Sent} {down : List Arrival} {lock : PeerLock}
  {attached : Bool} {pane remote : PaneId}

theorem refl (c : PeerConnection) : Acts c c := .keep ⟨rfl, rfl, rfl⟩ rfl (fun _ ↦ rfl) fun _ ↦ rfl

theorem foldl {α : Type*} {f : PeerConnection → α → PeerConnection} (hf : ∀ c a, Acts c (f c a))
    (l : List α) (c : PeerConnection) : Acts c (l.foldl f c) := by
  induction l generalizing c with
  | nil => exact refl c
  | cons a l ih => exact (hf c a).trans (ih (f c a))

theorem sameMaps (h : Acts c c') : c.SameMaps c' := by
  induction h with
  | keep maps => exact maps
  | ping c =>
    refine SameMaps.trans ?_ (push_sameMaps { c with routes := c.routes.ping.1 } _)
    exact ⟨rfl, rfl, rfl⟩
  | other | ask | free | resync => exact send_sameMaps _ _ _ _
  | leave | attach | detach =>
    refine SameMaps.trans ?_ (send_sameMaps _ _ _ _)
    exact ⟨rfl, rfl, rfl⟩
  | trans _ _ ih ih' => exact ih.trans ih'

/-- A holder stays or goes. -/
theorem holder (h : Acts c c') (pane : PaneId) :
    c'.holder pane = c.holder pane ∨ c'.holder pane = none := by
  induction h with
  | keep _ _ holder => exact .inl (holder pane)
  | ping => exact .inl rfl
  | other | ask | free | resync => exact .inl (send_holder _ _ _ _ pane)
  | attach | detach => exact .inl (send_holder _ _ _ _ pane)
  | leave c pane' remote mapped =>
    rw [send_holder]
    by_cases hpane : pane = pane'
    · right
      rw [PeerConnection.holder, hpane, AList.lookup_erase, Option.bind_none]
    · left
      rw [PeerConnection.holder, AList.lookup_erase_ne hpane]
      rfl
  | trans _ _ ih ih' =>
    rcases ih' with heq | hnone
    · rw [heq]
      exact ih
    · exact .inr hnone

/-- Whatever concerns a lock concerns that of a proxied pane. -/
def Known (c : PeerConnection) (x : Sent) : Prop :=
  ∀ remote, x.msg.lockPane = some remote → ∃ pane, c.toRemotePane pane = some remote

private theorem mem_push {x y : Sent} (h : y ∈ (c.push x).clientTx.queue) :
    y ∈ c.clientTx.queue ∨ y = x := by
  rw [push, Outlet.send] at h
  split at h
  · exact .inl h
  · exact (List.mem_append.mp h).imp_right List.mem_singleton.mp

private theorem mem_send {sender : Requester} {msg : ClientMessage} {call : Option ℕ} {y : Sent}
    (h : y ∈ (c.send sender msg call).clientTx.queue) :
    y ∈ c.clientTx.queue ∨ y.msg.lockPane = none ∨ y.msg = msg := by
  rcases mem_push h with h | rfl
  · rw [barrier] at h
    split at h
    next =>
      rcases mem_push h with h | rfl
      · exact .inl h
      · exact .inr (.inl rfl)
    next => exact .inl h
  · exact .inr (.inr rfl)

/-- One more message. -/
theorem known_send {sender : Requester} {msg : ClientMessage} {call : Option ℕ}
    (hknown : ∀ x ∈ c.clientTx.queue, Known c x)
    (hmsg : ∀ remote, msg.lockPane = some remote → ∃ pane, c.toRemotePane pane = some remote) :
    ∀ x ∈ (c.send sender msg call).clientTx.queue, Known (c.send sender msg call) x := by
  intro x hx remote hremote
  simp only [(send_sameMaps c sender msg call).toRemotePane]
  rcases mem_send hx with hx | hnone | heq
  · exact hknown x hx remote hremote
  · rw [hnone] at hremote
    cases hremote
  · rw [heq] at hremote
    exact hmsg remote hremote

theorem known (h : Acts c c') (hknown : ∀ x ∈ c.clientTx.queue, Known c x) :
    ∀ x ∈ c'.clientTx.queue, Known c' x := by
  induction h with
  | keep maps queue =>
    intro x hx remote hremote
    simp only [maps.toRemotePane]
    rw [queue] at hx
    exact hknown x hx remote hremote
  | ping c =>
    intro x hx remote hremote
    rcases mem_push hx with hx | rfl
    · exact hknown x hx remote hremote
    · cases hremote
  | other c sender msg call other =>
    refine known_send hknown fun remote hremote ↦ ?_
    rw [other] at hremote
    cases hremote
  | ask c client ctrl pane remote call mapped =>
    exact known_send hknown fun remote' hremote ↦ ⟨pane, mapped.trans hremote⟩
  | free c client ctrl pane remote mapped =>
    exact known_send hknown fun remote' hremote ↦ ⟨pane, mapped.trans hremote⟩
  | leave c pane remote mapped =>
    exact known_send hknown fun remote' hremote ↦ ⟨pane, mapped.trans hremote⟩
  | attach c pane remote p client ctrl size mapped =>
    exact known_send hknown fun remote' hremote ↦ ⟨pane, mapped.trans hremote⟩
  | resync c pane remote size mapped =>
    exact known_send hknown fun remote' hremote ↦ ⟨pane, mapped.trans hremote⟩
  | detach c pane remote mapped =>
    exact known_send hknown fun remote' hremote ↦ ⟨pane, mapped.trans hremote⟩
  | trans _ _ ih ih' => exact ih' (ih hknown)

/-- No two panes are the same pane of the peer. -/
def Injective (c : PeerConnection) : Prop :=
  ∀ pane pane' remote, c.toRemotePane pane = some remote → c.toRemotePane pane' = some remote →
    pane' = pane

private theorem here_or_elsewhere {pane₀ remote₀ : PaneId} (hinj : Injective c)
    (hpane : c.toRemotePane pane = some remote) (mapped : c.toRemotePane pane₀ = some remote₀) :
    pane₀ = pane ∧ remote₀ = remote ∨ pane ≠ pane₀ ∧ some remote₀ ≠ some remote := by
  by_cases hremote : remote₀ = remote
  · rw [hremote] at mapped
    exact .inl ⟨hinj pane pane₀ remote hpane mapped, hremote⟩
  · refine .inr ⟨?_, fun heq ↦ hremote (Option.some.inj heq)⟩
    rintro rfl
    exact hremote (Option.some.inj (mapped.symm.trans hpane))

section Send

variable {d : PeerConnection} {sender : Requester} {msg : ClientMessage} {call : Option ℕ}
  {m : LockMsg} {k k' : PaneLock}

/-- What is sent about a pane is a move of it. -/
private theorem send_here (hopen : d.clientTx.closed = false) (hhandled : Handled served down)
    (hd : d.paneLock served down lock attached pane remote = k')
    (hm : (sentFor sender msg call).lockMsg (served ++ (d.barrier sender).clientTx.queue ++
      [sentFor sender msg call]) remote = some m) (hmove : Move k (k'.send m)) :
    ReflTransGen Move k
      ((d.send sender msg call).paneLock served down lock attached pane remote) := by
  rw [paneLock_send hopen hhandled hm, hd]
  exact .single hmove

/-- And nothing to the others. -/
private theorem send_elsewhere (hopen : d.clientTx.closed = false)
    (hhandled : Handled served down) (hmsg : msg.lockPane ≠ some remote)
    (hd : d.paneLock served down lock attached pane remote = k) :
    ReflTransGen Move k
      ((d.send sender msg call).paneLock served down lock attached pane remote) := by
  rw [paneLock_send_none hopen hhandled hmsg, hd]

end Send

/-- **What the hub does** is a run of moves for every pane. -/
theorem moves (h : Acts c c') (hopen : c.clientTx.closed = false) (hhandled : Handled served down)
    (hinj : Injective c) (hpane : c.toRemotePane pane = some remote) :
    ReflTransGen Move (c.paneLock served down lock attached pane remote)
      (c'.paneLock served down lock attached pane remote) := by
  induction h with
  | keep maps queue holder shown =>
    rw [paneLock_congr (holder pane) (shown pane) queue]
  | ping c =>
    rw [PeerConnection.ping,
      paneLock_push_none (c := { c with routes := c.routes.ping.1 }) hopen hhandled rfl]
    exact .refl
  | other c sender msg call other =>
    refine send_elsewhere hopen hhandled ?_ rfl
    rw [other]
    exact (Option.some_ne_none remote).symm
  | ask c client ctrl pane₀ remote₀ call mapped =>
    rcases here_or_elsewhere hinj hpane mapped with ⟨rfl, rfl⟩ | ⟨-, hother⟩
    · exact send_here hopen hhandled rfl (if_pos rfl) (.ask _ client _)
    · exact send_elsewhere hopen hhandled hother rfl
  | free c client ctrl pane₀ remote₀ mapped holds =>
    rcases here_or_elsewhere hinj hpane mapped with ⟨rfl, rfl⟩ | ⟨-, hother⟩
    · exact send_here hopen hhandled rfl (if_pos rfl) (.free _ client holds)
    · exact send_elsewhere hopen hhandled hother rfl
  | leave c pane₀ remote₀ mapped =>
    rcases here_or_elsewhere hinj hpane mapped with ⟨rfl, rfl⟩ | ⟨haway, hother⟩
    · refine send_here hopen hhandled ?_ (if_pos rfl) (.leave _)
      rw [paneLock, PeerConnection.holder, AList.lookup_erase]
      rfl
    · refine send_elsewhere hopen hhandled hother (paneLock_congr ?_ rfl rfl)
      rw [PeerConnection.holder, PeerConnection.holder, AList.lookup_erase_ne haway]
  | attach c pane₀ remote₀ p client ctrl size mapped hidden =>
    rcases here_or_elsewhere hinj hpane mapped with ⟨rfl, rfl⟩ | ⟨haway, hother⟩
    · refine send_here hopen hhandled ?_ (if_pos rfl) (.attach _ ?_)
      · rw [paneLock, AList.lookup_insert]
        rfl
      · rw [paneLock, hidden]
        rfl
    · refine send_elsewhere hopen hhandled hother (paneLock_congr rfl ?_ rfl)
      rw [AList.lookup_insert_ne haway]
  | resync c pane₀ remote₀ size mapped shown holds =>
    rcases here_or_elsewhere hinj hpane mapped with ⟨rfl, rfl⟩ | ⟨-, hother⟩
    · exact send_here hopen hhandled rfl (if_pos rfl) (.resync _ shown holds)
    · exact send_elsewhere hopen hhandled hother rfl
  | detach c pane₀ remote₀ mapped shown holds =>
    rcases here_or_elsewhere hinj hpane mapped with ⟨rfl, rfl⟩ | ⟨haway, hother⟩
    · refine send_here hopen hhandled ?_ (if_pos rfl) (.detach _ shown holds)
      rw [paneLock, AList.lookup_erase]
      rfl
    · refine send_elsewhere hopen hhandled hother (paneLock_congr rfl ?_ rfl)
      rw [AList.lookup_erase_ne haway]
  | trans h h' ih ih' =>
    have hmaps := h.sameMaps
    refine (ih hopen hinj hpane).trans (ih' (hmaps.closed.trans hopen) ?_ ?_)
    · intro pane pane' remote
      rw [hmaps.toRemotePane, hmaps.toRemotePane]
      exact hinj pane pane' remote
    · rw [hmaps.toRemotePane]
      exact hpane

/-! ### The operations -/

private theorem setPane {p p' : ProxiedPane} (h : c.panes.lookup pane = some p) :
    Acts c { c with panes := c.panes.insert pane p' } := by
  refine .keep ⟨rfl, rfl, rfl⟩ rfl (fun _ ↦ rfl) fun pane' ↦ ?_
  dsimp only
  by_cases hpane : pane' = pane
  · rw [hpane, AList.lookup_insert, h]
    rfl
  · rw [AList.lookup_insert_ne hpane]

theorem tell (c : PeerConnection) (recipient : Requester) (msg : ServerMessage)
    (call : Option ℕ) : Acts c (c.tell recipient msg call) :=
  .keep ⟨rfl, rfl, rfl⟩ rfl (fun _ ↦ rfl) fun _ ↦ rfl

theorem ofResync (hholder : (c.panes.lookup pane).isSome → c.holder pane = none) :
    Acts c (c.resync pane) := by
  rw [PeerConnection.resync.eq_def]
  split
  next p remote hp hremote =>
    have hshown : (c.panes.lookup pane).isSome := by
      rw [hp]
      rfl
    exact .resync c pane remote p.upstreamSize hremote hshown (hholder hshown)
  next => exact refl c

theorem reconcileSize (c : PeerConnection) (pane remote : PaneId) :
    Acts c (c.reconcileSize pane remote) := by
  rw [PeerConnection.reconcileSize]
  split
  next p hp =>
    split
    · exact refl c
    · exact (setPane hp).trans (.other _ _ _ _ rfl)
  next => exact refl c

theorem askForLock (c : PeerConnection) (call : ℕ) (client : ClientId) (ctrl : ChannelId)
    (pane : PaneId) : Acts c (c.askForLock call (.client client ctrl) pane).1 := by
  rw [PeerConnection.askForLock]
  split
  next remote hremote => exact .ask c client ctrl pane remote (some call) hremote
  next => exact refl c

theorem requestInputLock (c : PeerConnection) (call : ℕ) (client : ClientId) (ctrl : ChannelId)
    (pane : PaneId) : Acts c (c.requestInputLock call (.client client ctrl) pane).1 := by
  rw [PeerConnection.requestInputLock]
  split
  · split
    · exact tell c _ _ _
    · exact askForLock c call client ctrl pane
  · exact askForLock c call client ctrl pane

theorem releaseInputLock (c : PeerConnection) (client : ClientId) (ctrl : ChannelId)
    (pane : PaneId) : Acts c (c.releaseInputLock (.client client ctrl) pane).1 := by
  rw [PeerConnection.releaseInputLock]
  split
  next hholds =>
    have hholder : c.holder pane = some client := by
      rw [PeerConnection.holder]
      rcases hlookup : c.inputLocks.lookup pane with _ | requester
      · rw [hlookup] at hholds
        cases hholds
      · rw [hlookup] at hholds
        exact of_decide_eq_true hholds
    split
    next remote hremote => exact .free c client ctrl pane remote hremote hholder
    next => exact refl c
  next => exact refl c

theorem giveBack (hremote : c.toRemotePane pane = some remote) : Acts c (c.giveBack pane) := by
  have heq : c.giveBack pane = { c with inputLocks := c.inputLocks.erase pane }.send .hub
      (.releaseInputLock remote) none := by
    rw [PeerConnection.giveBack]
    split
    next remote' hremote' =>
      obtain rfl : remote = remote' := Option.some.inj (hremote.symm.trans hremote')
      rfl
    next hnone => cases hremote.symm.trans hnone
  rw [heq]
  exact .leave c pane remote hremote

theorem foldl_giveBack (l : List PaneId) (c : PeerConnection)
    (hmapped : ∀ pane ∈ l, c.toRemotePane pane ≠ none) :
    Acts c (l.foldl PeerConnection.giveBack c) := by
  induction l generalizing c with
  | nil => exact refl c
  | cons pane l ih =>
    obtain ⟨remote, hremote⟩ := Option.ne_none_iff_exists'.mp (hmapped pane List.mem_cons_self)
    have hgive := giveBack hremote
    refine hgive.trans (ih _ fun pane' hpane' ↦ ?_)
    rw [hgive.sameMaps.toRemotePane]
    exact hmapped pane' (List.mem_cons_of_mem pane hpane')

theorem releaseLocksOf (hheld : ∀ pane, c.holder pane ≠ none → c.toRemotePane pane ≠ none)
    (client : ClientId) (ctrl : ChannelId) : Acts c (c.releaseLocksOf (.client client ctrl)) := by
  refine foldl_giveBack _ c fun pane hpane ↦ hheld pane ?_
  have hlookup := of_decide_eq_true (List.mem_filter.mp hpane).2
  rw [PeerConnection.holder, hlookup]
  exact Option.some_ne_none client

/-- The holder gives the lock back before it leaves. -/
private theorem giveBack_if (hremote : c.toRemotePane pane = some remote) (client : ClientId) :
    Acts c (if c.holder pane = some client then c.giveBack pane else c) := by
  split
  · exact giveBack hremote
  · exact refl c

private theorem giveBack_panes (c : PeerConnection) (pane : PaneId) :
    (c.giveBack pane).panes = c.panes := by
  rw [PeerConnection.giveBack]
  split
  · exact send_panes _ _ _ _
  · rfl

private theorem giveBack_inputLocks (c : PeerConnection) (pane : PaneId) :
    (c.giveBack pane).inputLocks = c.inputLocks.erase pane := by
  rw [PeerConnection.giveBack]
  split
  · exact send_inputLocks _ _ _ _
  · rfl

theorem releaseViewer {client : ClientId} (hparting : c.Parting client pane) :
    Acts c (c.releaseViewer pane client) := by
  rw [PeerConnection.releaseViewer]
  split
  next => exact refl c
  next remote hremote =>
    have hgive := giveBack_if hremote client
    set c₁ := if c.holder pane = some client then c.giveBack pane else c with hc₁
    have hpanes : c₁.panes = c.panes := by
      rw [hc₁]
      split
      · exact giveBack_panes c pane
      · rfl
    dsimp only
    split
    next => exact hgive
    next p hp =>
      split
      next hlast =>
        have hgone : c₁.holder pane = none := by
          rw [hc₁]
          split
          next =>
            rw [PeerConnection.holder, giveBack_inputLocks, AList.lookup_erase, Option.bind_none]
          next hne =>
            refine Option.eq_none_iff_forall_ne_some.mpr fun holder hholder ↦ hne ?_
            rw [hpanes] at hp
            rw [← hparting p hp hlast holder hholder]
            exact hholder
        have hremote₁ : c₁.toRemotePane pane = some remote := by
          rw [hgive.sameMaps.toRemotePane]
          exact hremote
        exact hgive.trans (.detach c₁ pane remote hremote₁ (by rw [hp]; rfl) hgone)
      next => exact hgive.trans ((setPane hp).trans (reconcileSize _ pane remote))

/-- Nothing happens to the other panes. -/
private theorem releaseViewer_away {pane' : PaneId} (client : ClientId) (hne : pane' ≠ pane) :
    (c.releaseViewer pane client).panes.lookup pane' = c.panes.lookup pane' ∧
      (c.releaseViewer pane client).holder pane' = c.holder pane' := by
  rw [PeerConnection.releaseViewer]
  split
  next => exact ⟨rfl, rfl⟩
  next remote hremote =>
    set c₁ := if c.holder pane = some client then c.giveBack pane else c with hc₁
    have hpanes : c₁.panes = c.panes := by
      rw [hc₁]
      split
      · exact giveBack_panes c pane
      · rfl
    have hholder : c₁.holder pane' = c.holder pane' := by
      rw [hc₁]
      split
      · rw [PeerConnection.holder, giveBack_inputLocks, AList.lookup_erase_ne hne]
        rfl
      · rfl
    dsimp only
    split
    next => exact ⟨by rw [hpanes], hholder⟩
    next p hp =>
      split
      next =>
        rw [send_panes, send_holder]
        refine ⟨?_, hholder⟩
        rw [hpanes, AList.lookup_erase_ne hne]
      next =>
        have hsize : ∀ d : PeerConnection, (d.reconcileSize pane remote).panes.lookup pane' =
            d.panes.lookup pane' ∧ (d.reconcileSize pane remote).holder pane' =
              d.holder pane' := by
          intro d
          rw [PeerConnection.reconcileSize]
          split
          · split
            · exact ⟨rfl, rfl⟩
            · rw [send_panes, send_holder, AList.lookup_insert_ne hne]
              exact ⟨rfl, rfl⟩
          · exact ⟨rfl, rfl⟩
        rw [(hsize _).1, (hsize _).2, AList.lookup_insert_ne hne, hpanes]
        exact ⟨rfl, hholder⟩

private theorem foldl_releaseViewer {client : ClientId} (l : List PaneId) (hnodup : l.Nodup)
    (c : PeerConnection) (hparting : ∀ pane ∈ l, c.Parting client pane) :
    Acts c (l.foldl (fun c pane ↦ c.releaseViewer pane client) c) := by
  induction l generalizing c with
  | nil => exact refl c
  | cons pane l ih =>
    obtain ⟨hnot, hnodup⟩ := List.nodup_cons.mp hnodup
    refine (releaseViewer (hparting pane List.mem_cons_self)).trans (ih hnodup _ ?_)
    intro pane' hpane'
    have hne : pane' ≠ pane := fun heq ↦ hnot (heq ▸ hpane')
    obtain ⟨hpanes, hholder⟩ := releaseViewer_away (c := c) client hne
    rw [Parting, hpanes, hholder]
    exact hparting pane' (List.mem_cons_of_mem pane hpane')

theorem detachChannel {client : ClientId} {ctrl : ChannelId}
    (hheld : ∀ pane, c.holder pane ≠ none → c.toRemotePane pane ≠ none)
    (hparting : ∀ pane ∈ c.viewed client ctrl, c.Parting client pane) :
    Acts c (c.detachChannel client ctrl) := by
  have hviews := foldl_releaseViewer (c.viewed client ctrl)
    ((AList.keys_nodup _).sublist List.filter_sublist) c hparting
  refine hviews.trans (releaseLocksOf (fun pane hholder ↦ ?_) client ctrl)
  rw [hviews.sameMaps.toRemotePane]
  refine hheld pane fun hnone ↦ hholder ?_
  rcases hviews.holder pane with heq | hgone
  · rw [heq, hnone]
  · exact hgone

theorem attachViewer (c : PeerConnection) (pane : PaneId) (client : ClientId) (ctrl : ChannelId)
    (size : TermSize) : Acts c (c.attachViewer pane client ctrl size) := by
  rw [PeerConnection.attachViewer]
  split
  next => exact refl c
  next remote hremote =>
    set c₁ := if c.holder pane = some client then
      { c with inputLocks := c.inputLocks.insert pane (.client client ctrl) } else c with hc₁
    have hpanes : c₁.panes = c.panes := by
      rw [hc₁]
      split <;> rfl
    have hmoved : Acts c c₁ := by
      rw [hc₁]
      split
      next hholder =>
        refine .keep ⟨rfl, rfl, rfl⟩ rfl (fun pane' ↦ ?_) fun _ ↦ rfl
        by_cases hpane : pane' = pane
        · rw [hpane, hholder, PeerConnection.holder, AList.lookup_insert]
          rfl
        · rw [PeerConnection.holder, PeerConnection.holder, AList.lookup_insert_ne hpane]
      next => exact refl c
    dsimp only
    split
    next p hp => exact hmoved.trans ((setPane hp).trans (reconcileSize _ pane remote))
    next hp =>
      refine hmoved.trans (.attach c₁ pane remote _ client ctrl size ?_ hp)
      rw [hmoved.sameMaps.toRemotePane]
      exact hremote

theorem resizeViewer (c : PeerConnection) (pane : PaneId) (client : ClientId) (size : TermSize) :
    Acts c (c.resizeViewer pane client size) := by
  rw [PeerConnection.resizeViewer]
  split
  next => exact refl c
  next remote hremote =>
    split
    next p hp =>
      split
      · exact (setPane hp).trans (reconcileSize _ pane remote)
      · exact reconcileSize c pane remote
    next => exact refl c

theorem dropViewer (c : PeerConnection) (pane : PaneId) (client : ClientId) :
    Acts c (c.dropViewer pane client) := by
  rw [PeerConnection.dropViewer]
  split
  next p hp => exact setPane hp
  next => exact refl c

/-- Input that is forwarded concerns no lock. -/
theorem forwardInput (hopen : c.clientTx.closed = false) (call : ℕ) (sender : Requester)
    (kind : PaneInput) (pane : PaneId) :
    Acts c (c.forward call sender (.paneInput kind pane) (.pane pane) none).1 := by
  rw [forward.eq_def]
  split
  · exact refl c
  · split
    next => exact refl c
    next remote hremote =>
      have hbarrier : (c.barrier sender).clientTx.closed = false :=
        (barrier_sameMaps c sender).closed.trans hopen
      dsimp only
      rw [Outlet.send, hbarrier, if_neg Bool.false_ne_true]
      have hsend := Acts.other c sender ((ClientMessage.paneInput kind pane).rewrite remote none)
        (some call)
      rw [PeerConnection.send, PeerConnection.push, Outlet.send, hbarrier,
        if_neg Bool.false_ne_true, Option.getD_some] at hsend
      refine hsend ?_
      rcases remote with word | pane' | peer <;> rfl

end Acts

/-! ## What a reply of the peer does -/

/-- The hub has handled a reply about a pane. -/
inductive Replied (c : PeerConnection) (pane remote : PaneId) (reply : LockReply) :
    PeerConnection → Prop
  | record (client : ClientId) (ctrl : ChannelId) (clean : Bool)
      (granted : reply = .granted client clean)
      (holds : c.holder pane = some client ∨ c.holder pane = none ∧ clean = true) :
      Replied c pane remote reply
        { c with inputLocks := c.inputLocks.insert pane (.client client ctrl) }
  | keep (grant : reply.isGrant) (holds : c.holder pane ≠ none) : Replied c pane remote reply c
  | decline (grant : reply.isGrant) :
      Replied c pane remote reply (c.send .hub (.releaseInputLock remote) none)
  | unseat (reason : (∃ client, reply = .denied client) ∨ ∃ client, reply = .freed client) :
      Replied c pane remote reply { c with inputLocks := c.inputLocks.erase pane }
  | ignore (other : (∃ client, reply = .denied (some client) ∧ c.holder pane ≠ some client) ∨
      ∃ client, reply = .freed client ∧ c.holder pane ≠ some client) :
      Replied c pane remote reply c
  | vacant (reason : (∃ client, reply = .denied client) ∨ (∃ client, reply = .freed client) ∨
      reply = .gaveBack) (holds : c.holder pane = none) : Replied c pane remote reply c
  | relock (gaveBack : reply = .gaveBack) :
      Replied c pane remote reply (c.send .hub (.requestInputLock remote) none)

/-- A grant to whoever asked. -/
def Requester.grant (clean : Bool) : Requester → LockReply
  | .client id _ => .granted id clean
  | .hub => .regranted

/-- A release for whoever asked. -/
def Requester.release : Requester → LockReply
  | .client id _ => .freed id
  | .hub => .gaveBack

namespace Replied

open PeerConnection Acts

variable {c c' : PeerConnection} {pane remote : PaneId} {reply : LockReply} {sender : Requester}

private theorem isGrant_grant (clean : Bool) (sender : Requester) :
    (sender.grant clean).isGrant := by
  rcases sender with _ | ⟨id, ctrl⟩ <;> rfl

theorem recordGrant {clean : Bool} (mapped : c.toRemotePane pane = some remote)
    (hholder : ∀ holder, c.holder pane = some holder → sender.clientId = some holder)
    (hclean : c.holder pane = none → c.viewing sender pane → clean = true) :
    Replied c pane remote (sender.grant clean) (c.recordGrant sender pane) := by
  rw [PeerConnection.recordGrant]
  split
  next hviewing =>
    rcases sender with _ | ⟨id, ctrl⟩
    · cases hviewing
    · refine .record id ctrl clean rfl ?_
      rcases hheld : c.holder pane with _ | holder
      · exact .inr ⟨rfl, hclean hheld hviewing⟩
      · exact .inl (hholder holder hheld).symm
  next =>
    rw [mapped]
    exact .decline (isGrant_grant clean sender)

theorem granted (sender : Requester) (clean : Bool)
    (mapped : c.toRemotePane pane = some remote)
    (hclean : c.holder pane = none → c.viewing sender pane → clean = true) :
    Replied c pane remote (sender.grant clean)
      (c.onLockReply sender (.inputLockGranted pane)).1 := by
  rw [onLockReply]
  split
  next holder hholder =>
    split
    next =>
      refine .keep (isGrant_grant clean sender) ?_
      rw [hholder]
      exact Option.some_ne_none holder
    next hsame =>
      refine recordGrant mapped (fun holder' hholder' ↦ ?_) hclean
      rw [← hholder', hholder]
      exact (not_not.mp hsame).symm
  next hnone =>
    refine recordGrant mapped (fun holder' hholder' ↦ ?_) hclean
    rw [hnone] at hholder'
    cases hholder'

theorem released (sender : Requester) (mapped : c.toRemotePane pane = some remote) :
    Replied c pane remote sender.release
      (c.onLockReply sender (.inputLockReleased pane)).1 := by
  rw [onLockReply, lockReleased]
  dsimp only
  split
  next hnone =>
    refine .vacant ?_ hnone
    rcases sender with _ | ⟨id, ctrl⟩
    · exact .inr (.inr rfl)
    · exact .inr (.inl ⟨id, rfl⟩)
  next holder hholder =>
    split
    next hsame =>
      rcases sender with _ | ⟨id, ctrl⟩
      · cases hsame
      · exact .unseat (.inr ⟨id, rfl⟩)
    next hother =>
      rcases sender with _ | ⟨id, ctrl⟩
      · rw [if_pos (show Requester.hub.clientId = none from rfl), PeerConnection.relock, mapped]
        exact .relock rfl
      · rw [if_neg (show (Requester.client id ctrl).clientId ≠ none from Option.some_ne_none id)]
        refine .ignore (.inr ⟨id, rfl, fun heq ↦ hother ?_⟩)
        rw [hholder] at heq
        exact heq.symm

theorem denied (c : PeerConnection) (pane remote : PaneId) (sender : Requester)
    (holder : ClientId) : ∃ c₁, Replied c pane remote (.denied sender.clientId) c₁ ∧
      Acts c₁ (c.onLockReply sender (.inputLockDenied pane holder)).1 := by
  rw [onLockReply, lockRefused]
  dsimp only
  split
  next hnone => exact ⟨c, .vacant (.inl ⟨_, rfl⟩) hnone, Acts.refl c⟩
  next seated hseated =>
    split
    next =>
      split
      next requester _ =>
        refine ⟨_, .unseat (.inl ⟨_, rfl⟩), ?_⟩
        split
        · exact tell _ _ _ _
        · exact Acts.refl _
      next hnone =>
        rw [PeerConnection.holder, hnone] at hseated
        cases hseated
    next hother =>
      rcases sender with _ | ⟨id, ctrl⟩
      · exact absurd (.inl rfl) hother
      · refine ⟨c, .ignore (.inl ⟨id, rfl, fun heq ↦ hother (.inr ?_)⟩), Acts.refl c⟩
        rw [hseated] at heq
        exact heq.symm

/-! ### What follows -/

theorem sameMaps (h : Replied c pane remote reply c') : c.SameMaps c' := by
  cases h with
  | record | unseat | keep | ignore | vacant => exact ⟨rfl, rfl, rfl⟩
  | decline | relock => exact send_sameMaps _ _ _ _

theorem known (h : Replied c pane remote reply c') (mapped : c.toRemotePane pane = some remote)
    (hknown : ∀ x ∈ c.clientTx.queue, Known c x) : ∀ x ∈ c'.clientTx.queue, Known c' x := by
  cases h with
  | record | unseat | keep | ignore | vacant => exact hknown
  | relock => exact known_send hknown fun remote' hremote ↦ ⟨pane, mapped.trans hremote⟩
  | decline => exact known_send hknown fun remote' hremote ↦ ⟨pane, mapped.trans hremote⟩

/-- Whoever holds a lock afterwards did so before, or holds that of the pane. -/
theorem holder (h : Replied c pane remote reply c') (pane' : PaneId) :
    pane' = pane ∨ c'.holder pane' = c.holder pane' := by
  by_cases hpane : pane' = pane
  · exact .inl hpane
  · right
    cases h with
    | record =>
      rw [PeerConnection.holder, AList.lookup_insert_ne hpane]
      rfl
    | unseat =>
      rw [PeerConnection.holder, AList.lookup_erase_ne hpane]
      rfl
    | keep | ignore | vacant => rfl
    | decline | relock => exact send_holder _ _ _ _ _

variable {served : List Sent} {down : List Arrival} {lock : PeerLock} {attached : Bool}
  {a : Arrival}

/-- For the pane of the reply it is one move. -/
theorem move (h : Replied c pane remote reply c') (hopen : c.clientTx.closed = false)
    (hhandled : Handled served down)
    (ha : a.lockReply (served ++ c.clientTx.queue) remote = some reply) :
    Move (c.paneLock served (a :: down) lock attached pane remote)
      (c'.paneLock served down lock attached pane remote) := by
  have hnext : (c.paneLock served (a :: down) lock attached pane remote).down =
      reply :: (c.paneLock served down lock attached pane remote).down := by
    rw [paneLock, paneLock, List.filterMap_cons_some ha]
  cases h with
  | record client ctrl clean granted holds =>
    rw [granted] at hnext
    have hrecorded : PeerConnection.paneLock
        { c with inputLocks := c.inputLocks.insert pane (.client client ctrl) } served down lock
          attached pane remote =
        { c.paneLock served (a :: down) lock attached pane remote with
          down := (c.paneLock served down lock attached pane remote).down
          holder := some client } := by
      rw [paneLock, PeerConnection.holder, AList.lookup_insert]
      rfl
    rw [hrecorded]
    exact .record _ client clean _ hnext holds
  | keep grant holds => exact .keep _ reply _ hnext grant holds
  | decline grant =>
    have hsend : (c.send .hub (.releaseInputLock remote) none).paneLock served down lock attached
        pane remote = (c.paneLock served down lock attached pane remote).send .giveBack :=
      paneLock_send hopen hhandled (if_pos rfl)
    rw [hsend]
    exact .decline _ reply _ hnext grant
  | unseat reason =>
    have hunseated : PeerConnection.paneLock
        { c with inputLocks := c.inputLocks.erase pane } served down lock attached pane remote =
        { c.paneLock served (a :: down) lock attached pane remote with
          down := (c.paneLock served down lock attached pane remote).down
          holder := none } := by
      rw [paneLock, PeerConnection.holder, AList.lookup_erase]
      rfl
    rw [hunseated]
    exact .unseat _ reply _ hnext reason
  | ignore other => exact .ignore _ reply _ hnext other
  | vacant reason holds => exact .vacant _ reply _ hnext reason holds
  | relock gaveBack =>
    rw [gaveBack] at hnext
    have hsend : (c.send .hub (.requestInputLock remote) none).paneLock served down lock attached
        pane remote = (c.paneLock served down lock attached pane remote).send .relock :=
      paneLock_send hopen hhandled (if_pos rfl)
    rw [hsend]
    exact .relock _ _ hnext

/-- And for the others nothing. -/
theorem stay (h : Replied c pane remote reply c') (hopen : c.clientTx.closed = false)
    (hhandled : Handled served down) {pane' remote' : PaneId} (hpane : pane' ≠ pane)
    (hremote : some remote ≠ some remote')
    (ha : a.lockReply (served ++ c.clientTx.queue) remote' = none) :
    c'.paneLock served down lock attached pane' remote' =
      c.paneLock served (a :: down) lock attached pane' remote' := by
  have hdown : c.paneLock served (a :: down) lock attached pane' remote' =
      c.paneLock served down lock attached pane' remote' := by
    rw [paneLock, paneLock, List.filterMap_cons_none ha]
  rw [hdown]
  cases h with
  | record | unseat =>
    refine paneLock_congr ?_ rfl rfl
    rw [PeerConnection.holder, PeerConnection.holder]
    first
      | rw [AList.lookup_insert_ne hpane]
      | rw [AList.lookup_erase_ne hpane]
  | keep | ignore | vacant => rfl
  | decline => exact paneLock_send_none hopen hhandled hremote
  | relock => exact paneLock_send_none hopen hhandled hremote

end Replied

end Federation

end Kmux
