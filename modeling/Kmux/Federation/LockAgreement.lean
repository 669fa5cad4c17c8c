import Kmux.Federation.LockMoves
import Kmux.Federation.Words
import Kmux.VtCore.MockBackend

/-!
# The hub and the peer agree on the input locks

Every guarded step of a hub and its peer is a run of moves for each pane: what the hub does
(`Acts.moves`), each reply of the peer (`Replied.move`), each message the peer handles, and what its
own clients do. So the invariant of the lock protocol holds for every pane throughout, and with
nothing on its way the two copies of every lock agree.
-/

namespace Kmux

namespace Federation

open Relation PaneLock

/-! ## The peer's panes -/

section Mode

variable {me client : ClientId} {mode : InputMode}

theorem lock_eq_ours : lockOf me mode = .ours ↔ mode = .locked me := by
  cases mode with
  | unlocked | disabled => exact ⟨fun h ↦ (by cases h), fun h ↦ (by cases h)⟩
  | locked holder =>
    rw [lockOf]
    by_cases h : holder = me
    · rw [if_pos h, h]
      exact ⟨fun _ ↦ rfl, fun _ ↦ rfl⟩
    · rw [if_neg h]
      refine ⟨fun heq ↦ (by cases heq), fun heq ↦ absurd ?_ h⟩
      exact InputMode.locked.inj heq

/-- The lock opens when the hub leaves it. -/
theorem lock_unlocked : lockOf me (if mode = .locked me then .unlocked else mode) =
    if lockOf me mode = .ours then .free else lockOf me mode := by
  by_cases h : mode = .locked me
  · rw [if_pos h, if_pos (lock_eq_ours.mpr h)]
    rfl
  · rw [if_neg h, if_neg fun hours ↦ h (lock_eq_ours.mp hours)]

end Mode

section Pane

variable {B : Type*} [TerminalBackend B] {me : ClientId} {p : PeerPane B} {r : PaneRelay B}

/-- The lock of a pane as the hub's. -/
def PeerPane.lock (p : PeerPane B) (me : ClientId) : PeerLock := lockOf me p.relay.inputMode

theorem detachFromPane_inputMode (r : PaneRelay B) (client : ClientId) :
    (r.detachFromPane client).1.inputMode =
      if r.inputMode = .locked client then .unlocked else r.inputMode := by
  rw [PaneRelay.detachFromPane, PaneRelay.reconcile_inputMode, PaneRelay.removeClient_inputMode]

theorem attach_inputMode (r : PaneRelay B) (client : ClientId) (lastSeqno : Option SequenceNo)
    (size : TermSize) (ctrl : ChannelId) (capabilities : ClientCapabilities) :
    (r.attach client lastSeqno size ctrl capabilities).1.inputMode = r.inputMode := by
  rw [PaneRelay.attach, PaneRelay.reconcile_inputMode]
  rfl

theorem PeerPane.lock_onDetach (p : PeerPane B) (me : ClientId) :
    (p.onDetach me).lock me =
      if p.attached = true ∧ p.lock me = .ours then .free else p.lock me := by
  rw [PeerPane.onDetach]
  rcases hattached : p.attached with _ | _
  · rw [if_neg Bool.false_ne_true, if_neg fun h ↦ Bool.false_ne_true h.1]
  · rw [if_pos rfl, PeerPane.lock, detachFromPane_inputMode, lock_unlocked]
    simp only [true_and]
    rfl

theorem PeerPane.lock_onAttach (p : PeerPane B) (me : ClientId) (size : TermSize)
    (ctrl : ChannelId) (capabilities : ClientCapabilities) :
    (p.onAttach me size ctrl capabilities).lock me =
      if p.attached = true ∧ p.lock me = .ours then .free else p.lock me := by
  rw [← PeerPane.lock_onDetach, PeerPane.onAttach, PeerPane.lock, attach_inputMode]
  rfl

omit [TerminalBackend B] in
/-- The hub asks for the lock of a pane. -/
theorem requestInputLock_lock (r : PaneRelay B) (me : ClientId) :
    lockOf me r.inputMode = .theirs ∧ (r.requestInputLock me).1 = r ∧
        (∃ holder, (r.requestInputLock me).2 = .denied holder) ∨
      lockOf me r.inputMode ≠ .theirs ∧ lockOf me (r.requestInputLock me).1.inputMode = .ours ∧
        (r.requestInputLock me).2 = .granted := by
  rw [PaneRelay.requestInputLock]
  cases hmode : r.inputMode with
  | unlocked => exact .inr ⟨PeerLock.noConfusion, if_pos rfl, rfl⟩
  | disabled => exact .inl ⟨rfl, rfl, 0, rfl⟩
  | locked holder =>
    rw [lockOf]
    by_cases hholder : holder = me
    · refine .inr ⟨?_, ?_, ?_⟩
      · rw [if_pos hholder]
        exact PeerLock.noConfusion
      · simp only [if_pos hholder, hmode, lockOf]
      · simp only [if_pos hholder]
    · refine .inl ⟨if_neg hholder, ?_, holder, ?_⟩
      · simp only [if_neg hholder]
      · simp only [if_neg hholder]

omit [TerminalBackend B] in
/-- And gives it back. -/
theorem releaseInputLock_lock (r : PaneRelay B) (me : ClientId) :
    lockOf me r.inputMode = .ours ∧ lockOf me (r.releaseInputLock me).1.inputMode = .free ∧
        (r.releaseInputLock me).2 = true ∨
      lockOf me r.inputMode ≠ .ours ∧ (r.releaseInputLock me).1 = r ∧
        (r.releaseInputLock me).2 = false := by
  rw [PaneRelay.releaseInputLock]
  by_cases hmode : r.inputMode = .locked me
  · rw [if_pos hmode]
    exact .inl ⟨lock_eq_ours.mpr hmode, rfl, rfl⟩
  · rw [if_neg hmode]
    exact .inr ⟨fun hours ↦ hmode (lock_eq_ours.mp hours), rfl, rfl⟩

/-- What another client does moves the lock between the direct clients and nobody. -/
theorem lock_step {e : RelayEvent B} (he : e.client? ≠ some me) :
    lockOf me (r.step e).inputMode = lockOf me r.inputMode ∨
      lockOf me r.inputMode = .free ∧ lockOf me (r.step e).inputMode = .theirs ∨
        lockOf me r.inputMode = .theirs ∧ lockOf me (r.step e).inputMode = .free := by
  -- a client that leaves opens the lock it had
  have hunlock : ∀ client, client ≠ me → ∀ r' : PaneRelay B,
      r'.inputMode = (if r.inputMode = .locked client then .unlocked else r.inputMode) →
        lockOf me r'.inputMode = lockOf me r.inputMode ∨
          lockOf me r.inputMode = .free ∧ lockOf me r'.inputMode = .theirs ∨
            lockOf me r.inputMode = .theirs ∧ lockOf me r'.inputMode = .free := by
    intro client hclient r' hr'
    rw [hr']
    by_cases hmode : r.inputMode = .locked client
    · rw [if_pos hmode, hmode]
      exact .inr (.inr ⟨if_neg hclient, rfl⟩)
    · rw [if_neg hmode]
      exact .inl rfl
  have hother : ∀ client, e.client? = some client → client ≠ me := by
    rintro client hclient rfl
    exact he hclient
  cases e with
  | detachFromPane client =>
    exact hunlock client (hother client rfl) _ (detachFromPane_inputMode r client)
  | detachChannel client ctrl =>
    rw [PaneRelay.step, PaneRelay.detachChannel]
    split
    · refine hunlock client (hother client rfl) _ ?_
      rw [PaneRelay.reconcile_inputMode, PaneRelay.removeClient_inputMode]
    · exact .inl rfl
  | releaseInputLock client =>
    refine hunlock client (hother client rfl) _ ?_
    rw [PaneRelay.step, PaneRelay.releaseInputLock_eq, PaneRelay.unlockIfHeld_inputMode]
  | requestInputLock client =>
    rw [PaneRelay.step, PaneRelay.requestInputLock_eq]
    split
    next hmode =>
      right; left
      rw [hmode]
      exact ⟨rfl, if_neg (hother client rfl)⟩
    next => exact .inl rfl
  | attach client lastSeqno size ctrl capabilities =>
    rw [PaneRelay.step, attach_inputMode]
    exact .inl rfl
  | resize client size =>
    rw [PaneRelay.step, PaneRelay.resize, PaneRelay.reconcile_inputMode]
    exact .inl rfl
  | setSnapshotMode | setPaused | setPaneNoAutoPause | output | broadcast | clear => exact .inl rfl

end Pane

/-! ## The invariant -/

namespace LockLink

open PeerConnection

variable {B : Type*} {s : LockLink B}

/-- The lock of a pane, as it stands between the hub and the peer. -/
def paneLock (s : LockLink B) (pane remote : PaneId) : PaneLock :=
  s.link.conn.paneLock s.served s.link.down ((s.panes remote).lock s.me)
    (s.panes remote).attached pane remote

/-- A reply about the lock of a pane. -/
def IsLockReply (msg : ServerMessage) (remote : PaneId) : Prop :=
  msg = .inputLockGranted remote ∨ (∃ holder, msg = .inputLockDenied remote holder) ∨
    msg = .inputLockReleased remote

theorem IsLockReply.unique {msg : ServerMessage} {remote remote' : PaneId}
    (h : IsLockReply msg remote) (h' : IsLockReply msg remote') : remote = remote' := by
  rcases h with rfl | ⟨holder, rfl⟩ | rfl <;> rcases h' with heq | ⟨holder', heq⟩ | heq <;>
    cases heq <;> rfl

theorem isLockReply_of_lockReply {a : Arrival} {log : List Sent} {remote : PaneId}
    (h : a.lockReply log remote ≠ none) : IsLockReply a.msg remote := by
  obtain ⟨msg, ⟨sender, requestId, hubId, call⟩⟩ := a
  have hpane : ∀ {pane : PaneId} {reply : LockReply},
      (if pane = remote then some reply else none) ≠ none → pane = remote := fun h ↦ by
    by_contra hne
    exact h (if_neg hne)
  cases msg with
  | inputLockGranted pane =>
    rcases sender with _ | ⟨id, ctrl⟩
    all_goals
      obtain rfl := hpane h
      exact .inl rfl
  | inputLockDenied pane holder =>
    obtain rfl := hpane h
    exact .inr (.inl ⟨holder, rfl⟩)
  | inputLockReleased pane =>
    rcases sender with _ | ⟨id, ctrl⟩
    all_goals
      obtain rfl := hpane h
      exact .inr (.inr rfl)
  | _ => exact absurd rfl h

/-- What the peer sends: pongs, refused input, and replies about the lock of a proxied pane. -/
def Familiar (c : PeerConnection) (a : Arrival) : Prop :=
  (∃ seq, a.msg = .pong seq) ∨ (∃ code text, a.msg = .error none code text) ∨
    ∃ pane remote, c.toRemotePane pane = some remote ∧ IsLockReply a.msg remote

structure Inv (s : LockLink B) : Prop where
  opened : s.link.conn.clientTx.closed = false
  inverse : ∀ word remote, s.link.conn.localToRemote.lookup word = some remote ↔
    s.link.conn.remoteToLocal.lookup remote = some word
  pending : ∀ p ∈ s.link.pending, (∃ pane, p.ask = .inputLock pane) ∨
    ∃ kind pane, p.ask = .forward (.paneInput kind pane)
  known : ∀ x ∈ s.link.conn.clientTx.queue, Acts.Known s.link.conn x
  familiar : ∀ a ∈ s.link.down, Familiar s.link.conn a
  handled : Handled s.served s.link.down
  held : ∀ pane, s.link.conn.holder pane ≠ none → s.link.conn.toRemotePane pane ≠ none
  locks : ∀ pane remote, s.link.conn.toRemotePane pane = some remote → (s.paneLock pane remote).Inv

namespace Inv

/-- No two words are the same word of the peer. -/
theorem injective (h : s.Inv) : Acts.Injective s.link.conn := by
  rintro ⟨word, index⟩ ⟨word', index'⟩ remote hpane hpane'
  obtain ⟨remoteWord, hword, rfl⟩ := Option.map_eq_some_iff.mp hpane
  obtain ⟨remoteWord', hword', heq⟩ := Option.map_eq_some_iff.mp hpane'
  obtain ⟨rfl, rfl⟩ := Prod.mk.inj heq
  have hback := (h.inverse word _).mp hword
  rw [(h.inverse word' _).mp hword', Option.some.injEq] at hback
  rw [hback]

private theorem locks_of_moves {k k' : PaneLock} (h : k.Inv) (hmoves : ReflTransGen Move k k') :
    k'.Inv := by
  induction hmoves with
  | refl => exact h
  | tail _ hmove ih => exact ih.move hmove

private theorem familiar_of_sameMaps {c c' : PeerConnection} (hmaps : c.SameMaps c') {a : Arrival}
    (h : Familiar c a) : Familiar c' a := by
  refine h.imp_right fun h ↦ h.imp_right ?_
  rintro ⟨pane, remote, hpane, hreply⟩
  exact ⟨pane, remote, (hmaps.toRemotePane pane).trans hpane, hreply⟩

/-- The hub does something that concerns the locks. -/
theorem acts (h : s.Inv) {link : Link} (hacts : Acts s.link.conn link.conn)
    (hdown : link.down = s.link.down)
    (hpending : ∀ p ∈ link.pending, (∃ pane, p.ask = .inputLock pane) ∨
      ∃ kind pane, p.ask = .forward (.paneInput kind pane)) : { s with link }.Inv := by
  have hmaps := hacts.sameMaps
  refine ⟨hmaps.closed.trans h.opened, fun word remote ↦ ?_, hpending,
    hacts.known h.known, fun a ha ↦ ?_, ?_, fun pane hholder ↦ ?_, fun pane remote hpane ↦ ?_⟩
  · dsimp only
    rw [hmaps.localToRemote, hmaps.remoteToLocal]
    exact h.inverse word remote
  · rw [show link.down = s.link.down from hdown] at ha
    exact familiar_of_sameMaps hmaps (h.familiar a ha)
  · dsimp only
    rw [hdown]
    exact h.handled
  · dsimp only at hholder ⊢
    rw [hmaps.toRemotePane]
    rcases hacts.holder pane with heq | hnone
    · rw [heq] at hholder
      exact h.held pane hholder
    · exact absurd hnone hholder
  · dsimp only at hpane
    rw [hmaps.toRemotePane] at hpane
    refine locks_of_moves (h.locks pane remote hpane) ?_
    rw [paneLock, paneLock]
    dsimp only
    rw [hdown]
    exact hacts.moves h.opened h.handled h.injective hpane

/-! ### A frame of the peer -/

/-- The hub's own pane of a remote one. -/
private theorem word_of_pane (h : s.Inv) {pane remote : PaneId}
    (hpane : s.link.conn.toRemotePane pane = some remote) :
    s.link.conn.remoteToLocal.lookup remote.1 = some pane.1 ∧ remote.2 = pane.2 := by
  obtain ⟨remoteWord, hword, rfl⟩ := Option.map_eq_some_iff.mp hpane
  exact ⟨(h.inverse _ _).mp hword, rfl⟩

private theorem lockReply_of_ne {a : Arrival} {log : List Sent} {remote remote' : PaneId}
    (hreply : IsLockReply a.msg remote) (hne : remote ≠ remote') :
    a.lockReply log remote' = none := by
  obtain ⟨msg, ⟨sender, requestId, hubId, call⟩⟩ := a
  rcases hreply with rfl | ⟨holder, rfl⟩ | rfl
  · rcases sender with _ | ⟨id, ctrl⟩ <;> exact if_neg hne
  · exact if_neg hne
  · rcases sender with _ | ⟨id, ctrl⟩ <;> exact if_neg hne

/-- A reply about the lock of a pane is handled. -/
private theorem replied (h : s.Inv) {a : Arrival} {down : List Arrival} {link : Link}
    {pane remote : PaneId} {reply : LockReply} (hdown : s.link.down = a :: down)
    (hmapped : s.link.conn.toRemotePane pane = some remote) (hreply : IsLockReply a.msg remote)
    (ha : a.lockReply s.log remote = some reply)
    (hreplied : Replied s.link.conn pane remote reply link.conn) (hrest : link.down = down)
    (hpending : link.pending = s.link.pending) : { s with link }.Inv := by
  have hhandled : Handled s.served down := fun a' ha' ↦
    h.handled a' (by rw [hdown]; exact List.mem_cons_of_mem a ha')
  have hmaps := hreplied.sameMaps
  refine ⟨hmaps.closed.trans h.opened, fun word remote ↦ ?_, fun p hp ↦ ?_,
    hreplied.known hmapped h.known, fun a' ha' ↦ ?_, ?_, fun pane' hholder ↦ ?_,
    fun pane' remote' hpane' ↦ ?_⟩
  · dsimp only
    rw [hmaps.localToRemote, hmaps.remoteToLocal]
    exact h.inverse word remote
  · rw [show link.pending = s.link.pending from hpending] at hp
    exact h.pending p hp
  · rw [show link.down = down from hrest] at ha'
    refine familiar_of_sameMaps hmaps (h.familiar a' ?_)
    rw [hdown]
    exact List.mem_cons_of_mem a ha'
  · dsimp only
    rw [hrest]
    exact hhandled
  · dsimp only at hholder ⊢
    rw [hmaps.toRemotePane]
    rcases hreplied.holder pane' with rfl | heq
    · rw [hmapped]
      exact Option.some_ne_none remote
    · rw [heq] at hholder
      exact h.held pane' hholder
  · dsimp only at hpane'
    rw [hmaps.toRemotePane] at hpane'
    have hold := h.locks pane' remote' hpane'
    rw [paneLock, hdown] at hold
    rw [paneLock]
    dsimp only
    rw [hrest]
    by_cases hsame : remote' = remote
    · obtain rfl : pane' = pane := h.injective pane pane' remote hmapped (hsame ▸ hpane')
      rw [hsame] at hold ⊢
      exact hold.move (hreplied.move h.opened hhandled ha)
    · have hpane : pane' ≠ pane := by
        rintro rfl
        exact hsame (Option.some.inj (hpane'.symm.trans hmapped))
      have hne : remote ≠ remote' := fun heq ↦ hsame heq.symm
      rw [hreplied.stay h.opened hhandled hpane (fun heq ↦ hne (Option.some.inj heq))
        (lockReply_of_ne hreply hne)]
      exact hold

/-- Any other frame only goes. -/
private theorem tail (h : s.Inv) {a : Arrival} {down : List Arrival} {link : Link}
    (hdown : s.link.down = a :: down) (hother : ∀ log remote, a.lockReply log remote = none)
    (hconn : link.conn = s.link.conn) (hrest : link.down = down)
    (hpending : link.pending = s.link.pending) : { s with link }.Inv := by
  have htail : ∀ {a' : Arrival}, a' ∈ link.down → a' ∈ s.link.down := by
    intro a' ha'
    rw [hrest] at ha'
    rw [hdown]
    exact List.mem_cons_of_mem a ha'
  refine ⟨?_, ?_, ?_, ?_, fun a' ha' ↦ ?_, fun a' ha' ↦ h.handled a' (htail ha'), ?_,
    fun pane remote hpane ↦ ?_⟩
  · dsimp only
    rw [hconn]
    exact h.opened
  · dsimp only
    rw [hconn]
    exact h.inverse
  · dsimp only
    rw [hpending]
    exact h.pending
  · dsimp only
    rw [hconn]
    exact h.known
  · dsimp only
    rw [hconn]
    exact h.familiar a' (htail ha')
  · dsimp only
    rw [hconn]
    exact h.held
  · dsimp only at hpane
    rw [hconn] at hpane
    have hold := h.locks pane remote hpane
    rw [paneLock, hdown, PeerConnection.paneLock, List.filterMap_cons_none (hother _ _)] at hold
    rw [paneLock]
    dsimp only
    rw [hconn, hrest]
    exact hold

private theorem relay_acts (c : PeerConnection) (recipient : Requester) (msg : ServerMessage)
    (call : Option ℕ) : Acts c (c.relay recipient msg call) :=
  .keep ⟨rfl, rfl, rfl⟩ rfl (fun _ ↦ rfl) fun _ ↦ rfl

/-- An answer without an id goes to the sender of the oldest run, by the hub's word. -/
private theorem onUpstream_eq {c : PeerConnection} {sender : Requester} {msg : ServerMessage}
    {word : Option WordId} (outside : Outside) (h : msg.unrequested)
    (hfront : c.routes.front = some sender)
    (hword : (msg.replyWord.bind fun word ↦ c.remoteToLocal.lookup word) = word) :
    c.onUpstream outside msg =
      (c.onLockReply sender (word.elim msg msg.localizeReply)).1.relay sender
        (c.onLockReply sender (word.elim msg msg.localizeReply)).2 outside.call := by
  rw [onUpstream_unrequested c outside h, answerUnrequested, if_pos h, hfront]
  dsimp only
  rw [hword]
  rcases word with _ | word <;> rfl

/-- What the hub does with a reply about the lock of a pane. -/
private theorem exists_replied (h : s.Inv) {a : Arrival} {pane remote : PaneId}
    (hpane : s.link.conn.toRemotePane pane = some remote) (hreply : IsLockReply a.msg remote)
    (hcurrent : s.Current a) : ∃ reply c, a.lockReply s.log remote = some reply ∧
      Replied s.link.conn pane remote reply c ∧
        Acts c (s.link.conn.onLockReply a.cause.sender (a.msg.localizeReply pane.1)).1 := by
  obtain ⟨hword, hindex⟩ := h.word_of_pane hpane
  have hlocal : (pane.1, remote.2) = pane := by rw [hindex]
  obtain ⟨msg, ⟨sender, requestId, hubId, call⟩⟩ := a
  rcases hreply with heq | ⟨holder, heq⟩ | heq
  all_goals
    obtain rfl : msg = _ := heq
    rw [ServerMessage.localizeReply, hlocal]
  · rcases sender with _ | ⟨id, ctrl⟩
    · refine ⟨_, _, if_pos rfl, ?_, Acts.refl _⟩
      exact Replied.granted .hub true hpane fun _ _ ↦ rfl
    · refine ⟨_, _, if_pos rfl, ?_, Acts.refl _⟩
      refine Replied.granted (.client id ctrl) _ hpane fun hholder hviewing ↦ ?_
      refine hcurrent remote rfl id rfl pane.1 hword ?_ ?_
      · rw [hlocal]
        exact hholder
      · rw [hlocal]
        exact hviewing
  · obtain ⟨c, hreplied, hacts⟩ := Replied.denied s.link.conn pane remote sender holder
    exact ⟨_, c, if_pos rfl, hreplied, hacts⟩
  · rcases sender with _ | ⟨id, ctrl⟩
    · exact ⟨_, _, if_pos rfl, Replied.released .hub hpane, Acts.refl _⟩
    · exact ⟨_, _, if_pos rfl, Replied.released (.client id ctrl) hpane, Acts.refl _⟩

/-- **A frame of the peer** is handled. -/
theorem receive (h : s.Inv) (htracking : s.link.Tracking) (drawn : List WordId)
    (hguard : ∀ a ∈ s.link.down.head?, s.Current a) :
    { s with link := s.link.step (.receive drawn) }.Inv := by
  rw [Link.step]
  split
  next a down _ hdown =>
    have hhead := hguard a (by rw [hdown]; rfl)
    have htracked := htracking.tracked
    rw [hdown] at htracked
    set outside : Outside := { peer := s.link.peer, isOpen := s.link.isOpen, drawn
                               call := a.cause.call } with houtside
    rcases h.familiar a (by rw [hdown]; exact List.mem_cons_self) with
      ⟨seq, hmsg⟩ | ⟨code, text, hmsg⟩ | ⟨pane, remote, hpane, hreply⟩
    · -- a pong is for the routes
      have htail : { s with link := { s.link with down, handled := s.link.handled ++ [a] } }.Inv :=
        h.tail hdown (fun log remote ↦ by rw [Arrival.lockReply, hmsg]) rfl rfl rfl
      refine htail.acts (.keep ⟨?_, ?_, ?_⟩ ?_ (fun pane ↦ ?_) fun pane ↦ ?_) rfl h.pending
      all_goals
        dsimp only
        rw [hmsg]
        rfl
    · -- refused input goes to whoever wrote it
      have htail : { s with link := { s.link with down, handled := s.link.handled ++ [a] } }.Inv :=
        h.tail hdown (fun log remote ↦ by rw [Arrival.lockReply, hmsg]) rfl rfl rfl
      have hunrequested : a.msg.unrequested := by
        rw [hmsg]
        rfl
      refine htail.acts ?_ rfl h.pending
      have hlocal : (a.msg.replyWord.bind fun word ↦ s.link.conn.remoteToLocal.lookup word) =
          none := by
        rw [hmsg]
        rfl
      dsimp only
      rw [onUpstream_eq outside hunrequested (htracked.front hunrequested) hlocal,
        Option.elim_none, hmsg]
      exact relay_acts _ _ _ _
    · -- a reply about a lock is for the pane's holder, or whoever asked
      obtain ⟨hword, hindex⟩ := h.word_of_pane hpane
      have hunrequested : a.msg.unrequested := by
        rcases hreply with heq | ⟨holder, heq⟩ | heq <;> rw [heq] <;> rfl
      have hlocal : (a.msg.replyWord.bind fun word ↦ s.link.conn.remoteToLocal.lookup word) =
          some pane.1 := by
        rcases hreply with heq | ⟨holder, heq⟩ | heq
        all_goals
          rw [heq]
          exact hword
      have hup := onUpstream_eq outside hunrequested (htracked.front hunrequested) hlocal
      rw [Option.elim_some] at hup
      obtain ⟨reply, c, ha, hreplied, hacts⟩ := h.exists_replied hpane hreply hhead
      have hstep : { s with link := { s.link with
          down, handled := s.link.handled ++ [a], conn := c } }.Inv :=
        h.replied hdown hpane hreply ha hreplied rfl rfl
      refine hstep.acts ?_ rfl h.pending
      dsimp only
      rw [hup]
      exact hacts.trans (relay_acts _ _ _ _)
  next => exact h

/-! ### The hub -/

/-- A call enters, or is refused. -/
private theorem enter (h : s.Inv) {p : Pending} (hp : (∃ pane, p.ask = .inputLock pane) ∨
    ∃ kind pane, p.ask = .forward (.paneInput kind pane)) :
    { s with link := s.link.enter p }.Inv := by
  refine h.acts (Acts.refl _) rfl fun p' hp' ↦ ?_
  rcases List.mem_append.mp hp' with hp' | hp'
  · exact h.pending p' hp'
  · rw [List.mem_singleton.mp hp']
    exact hp

private theorem refuse (h : s.Inv) (p : Pending) (refusal : Refusal) :
    { s with link := s.link.refuse p refusal }.Inv :=
  h.acts (Acts.tell _ _ _ _) rfl h.pending

/-- A call locks the connection. -/
private theorem proceed (h : s.Inv) (call : ℕ) :
    { s with link := s.link.step (.proceed call) }.Inv := by
  rw [Link.step]
  split
  next p hp =>
    have hrun : Acts s.link.conn (Link.run s.link.conn p).1 := by
      rw [Link.run]
      rcases h.pending p (List.mem_of_find?_eq_some hp) with ⟨pane, hask⟩ | ⟨kind, pane, hask⟩
      · rw [hask]
        exact Acts.requestInputLock _ _ _ _ _
      · rw [hask]
        exact Acts.forwardInput h.opened _ _ _ _
    have hpending : ∀ p' ∈ s.link.pending.erase p, (∃ pane, p'.ask = .inputLock pane) ∨
        ∃ kind pane, p'.ask = .forward (.paneInput kind pane) :=
      fun p' hp' ↦ h.pending p' (List.mem_of_mem_erase hp')
    rw [Link.settle.eq_def]
    split
    next conn hresult =>
      rw [hresult] at hrun
      exact h.acts hrun rfl hpending
    next conn refusal hresult =>
      rw [hresult] at hrun
      exact h.acts (hrun.trans (Acts.tell _ _ _ _)) rfl hpending
  next => exact h

/-- **What the hub and its clients do** keeps the invariant. -/
theorem hub (h : s.Inv) (htracking : s.link.Tracking) {e : LinkEvent} (hsteady : e.steady)
    (hguard : s.Guarded (.hub e)) : { s with link := s.link.step e }.Inv := by
  cases e with
  | forward client ctrl msg found =>
    cases msg with
    | paneInput kind pane =>
      rw [Link.step]
      split
      · dsimp only [ClientMessage.federation]
        split
        · exact h.enter (.inr ⟨kind, pane, rfl⟩)
        · exact h.refuse _ _
      · exact h
    | _ => cases hsteady
  | requestInputLock client ctrl pane found =>
    rw [Link.step]
    split
    · exact h.enter (.inl ⟨pane, rfl⟩)
    · exact h.refuse _ _
  | proceed call => exact h.proceed call
  | releaseInputLock client ctrl pane =>
    have hrelease := Acts.releaseInputLock s.link.conn client ctrl pane
    rw [Link.step]
    split
    next conn hresult =>
      rw [hresult] at hrelease
      exact h.acts hrelease rfl h.pending
    next conn refusal hresult =>
      rw [hresult] at hrelease
      exact h.acts (hrelease.trans (Acts.tell _ _ _ _)) rfl h.pending
  | attachViewer pane client ctrl size => exact h.acts (Acts.attachViewer _ _ _ _ _) rfl h.pending
  | resizeViewer pane client size => exact h.acts (Acts.resizeViewer _ _ _ _) rfl h.pending
  | detachViewer pane client => exact h.acts (Acts.releaseViewer hguard) rfl h.pending
  | detachChannel client ctrl => exact h.acts (Acts.detachChannel h.held hguard) rfl h.pending
  | dropViewer pane client => exact h.acts (Acts.dropViewer _ _ _) rfl h.pending
  | resync pane => exact h.acts (Acts.ofResync hguard) rfl h.pending
  | ping => exact h.acts (.ping _) rfl h.pending
  | receive drawn => exact h.receive htracking drawn hguard
  | _ => cases hsteady

end Inv

/-! ### The peer -/

variable [TerminalBackend B]

/-- The other panes stay as they are. -/
private theorem handle_elsewhere (s : LockLink B) (failure : Option (ErrorCode × String))
    {msg : ClientMessage} {remote : PaneId} (hmsg : msg.lockPane ≠ some remote) :
    ((s.handle failure msg).1.panes remote).lock s.me = (s.panes remote).lock s.me ∧
      ((s.handle failure msg).1.panes remote).attached = (s.panes remote).attached := by
  have hother : ∀ (pane : PaneId) (p : PeerPane B), pane ≠ remote →
      (s.setPane pane p).panes remote = s.panes remote := fun pane p hne ↦
    Function.update_of_ne (Ne.symm hne) _ _
  have hpane : ∀ pane, msg.lockPane = some pane → pane ≠ remote := by
    rintro pane hlock rfl
    exact hmsg hlock
  cases msg with
  | requestInputLock pane | releaseInputLock pane | attach pane size | detach pane =>
    rw [handle, hother pane _ (hpane pane rfl)]
    exact ⟨rfl, rfl⟩
  | resize pane size =>
    rw [handle]
    by_cases hne : pane = remote
    · rw [hne, setPane]
      dsimp only
      rw [Function.update_self, PeerPane.lock, PaneRelay.resize, PaneRelay.reconcile_inputMode]
      exact ⟨rfl, rfl⟩
    · rw [hother pane _ hne]
      exact ⟨rfl, rfl⟩
  | _ => exact ⟨rfl, rfl⟩

/-- What the peer answers. -/
private theorem handle_answer (s : LockLink B) (failure : Option (ErrorCode × String))
    {msg : ClientMessage} {answer : ServerMessage} (h : (s.handle failure msg).2 = some answer) :
    (∃ code text, answer = .error none code text) ∨
      ∃ remote, msg.lockPane = some remote ∧ IsLockReply answer remote := by
  cases msg with
  | requestInputLock pane =>
    right
    rw [handle] at h
    dsimp only at h
    split at h
    · exact ⟨pane, rfl, .inl (Option.some.inj h).symm⟩
    · exact ⟨pane, rfl, .inr (.inl ⟨_, (Option.some.inj h).symm⟩)⟩
  | releaseInputLock pane =>
    right
    rw [handle] at h
    dsimp only at h
    split at h
    · exact ⟨pane, rfl, .inr (.inr (Option.some.inj h).symm)⟩
    · cases h
  | paneInput kind pane =>
    left
    obtain ⟨⟨code, text⟩, -, rfl⟩ := Option.map_eq_some_iff.mp h
    exact ⟨code, text, rfl⟩
  | _ => cases h

/-- The frames that go down for a message: a pong, or the answer. -/
def arrivals (x : Sent) (answer : Option ServerMessage) : List Arrival :=
  match x.msg with
  | .ping seq => [{ msg := .pong seq, cause := x.cause }]
  | _ => answer.toList.map fun answer ↦ { msg := answer, cause := x.cause }

/-- What a served message does to the link. -/
private theorem link_serve {x : Sent} {queue : List Sent} (failure : Option (ErrorCode × String))
    (hqueue : s.link.conn.clientTx.queue = x :: queue) :
    (s.link.step (.serve (s.handle failure x.msg).2)).conn =
        { s.link.conn with clientTx := { s.link.conn.clientTx with queue } } ∧
      (s.link.step (.serve (s.handle failure x.msg).2)).down =
        s.link.down ++ arrivals x (s.handle failure x.msg).2 ∧
      (s.link.step (.serve (s.handle failure x.msg).2)).pending = s.link.pending := by
  have hanswered : ∀ answer, (s.handle failure x.msg).2 = some answer →
      x.msg.answeredBy answer := by
    intro answer h
    rcases handle_answer s failure h with ⟨code, text, rfl⟩ | ⟨remote, -, hreply⟩
    · rfl
    · rcases hreply with rfl | ⟨holder, rfl⟩ | rfl <;> rfl
  have hstep : s.link.step (.serve (s.handle failure x.msg).2) =
      { s.link with conn := { s.link.conn with
          clientTx := { s.link.conn.clientTx with queue } } }.serveOne x
        (s.handle failure x.msg).2 := by
    rw [Link.step]
    simp only [hqueue]
  rw [hstep]
  obtain ⟨msg, cause⟩ := x
  cases msg with
  | ping seq => exact ⟨rfl, rfl, rfl⟩
  | _ =>
    dsimp only [Link.serveOne, arrivals]
    rcases hanswer : (s.handle failure _).2 with _ | answer
    · exact ⟨rfl, (List.append_nil _).symm, rfl⟩
    · dsimp only
      rw [if_pos (hanswered answer hanswer)]
      exact ⟨rfl, rfl, rfl⟩

/-- What the peer does with a message about the lock of a pane. -/
private theorem serve_here (s : LockLink B) (failure : Option (ErrorCode × String)) {x : Sent}
    {log : List Sent} {remote : PaneId} {m : LockMsg} {k : PaneLock}
    (hx : x.lockMsg log remote = some m) (hlock : k.lock = (s.panes remote).lock s.me)
    (hattached : k.attached = (s.panes remote).attached) :
    k.serve m = { k with
      lock := ((s.handle failure x.msg).1.panes remote).lock s.me
      attached := ((s.handle failure x.msg).1.panes remote).attached
      down := k.down ++
        (arrivals x (s.handle failure x.msg).2).filterMap (Arrival.lockReply log remote) } := by
  have hpane : x.msg.lockPane = some remote := by
    by_contra hne
    rw [lockMsg_of_ne hne] at hx
    cases hx
  obtain ⟨msg, ⟨sender, requestId, hubId, call⟩⟩ := x
  cases msg with
  | requestInputLock pane =>
    obtain rfl : pane = remote := Option.some.inj hpane
    dsimp only [handle, setPane, arrivals]
    rw [Function.update_self]
    rcases requestInputLock_lock (s.panes pane).relay s.me with
      ⟨hlocked, hsame, holder, hanswer⟩ | ⟨hlocked, hours, hanswer⟩
    -- somebody at the peer has it: refused, with the holder's name
    · have htheirs : k.lock = .theirs := hlock.trans hlocked
      rw [hanswer, hsame]
      rcases sender with _ | ⟨id, ctrl⟩
      all_goals
        obtain rfl := Option.some.inj ((if_pos rfl).symm.trans hx)
        rw [PaneLock.serve, if_pos htheirs]
        simp [Arrival.lockReply, Requester.clientId, hlock, hattached]
    -- free, or ours already: granted
    · have hother : k.lock ≠ .theirs := by
        rw [hlock]
        exact hlocked
      rw [hanswer]
      rcases sender with _ | ⟨id, ctrl⟩
      all_goals
        obtain rfl := Option.some.inj ((if_pos rfl).symm.trans hx)
        rw [PaneLock.serve, if_neg hother]
        simp [Arrival.lockReply, PeerPane.lock, hours, hattached]
  | releaseInputLock pane =>
    obtain rfl : pane = remote := Option.some.inj hpane
    dsimp only [handle, setPane, arrivals]
    rw [Function.update_self]
    rcases releaseInputLock_lock (s.panes pane).relay s.me with
      ⟨hours, hfree, hanswer⟩ | ⟨hother, hsame, hanswer⟩
    · rw [hanswer]
      rcases sender with _ | ⟨id, ctrl⟩
      all_goals
        obtain rfl := Option.some.inj ((if_pos rfl).symm.trans hx)
        rw [PaneLock.serve, if_pos (hlock.trans hours)]
        simp [Arrival.lockReply, PeerPane.lock, hfree, hattached]
    -- not ours to release: it stays as it is
    · have hnot : k.lock ≠ .ours := by
        rw [hlock]
        exact hother
      rw [hanswer, hsame]
      rcases sender with _ | ⟨id, ctrl⟩
      all_goals
        obtain rfl := Option.some.inj ((if_pos rfl).symm.trans hx)
        rw [PaneLock.serve, if_neg hnot,
          show ({ s.panes pane with relay := (s.panes pane).relay } : PeerPane B) = s.panes pane
            from rfl, ← hlock, ← hattached]
        simp
  | attach pane size =>
    obtain rfl : pane = remote := Option.some.inj hpane
    dsimp only [handle, setPane, arrivals]
    rw [Function.update_self, PeerPane.lock_onAttach]
    rcases sender with _ | ⟨id, ctrl⟩
    all_goals
      obtain rfl := Option.some.inj ((if_pos rfl).symm.trans hx)
      rw [PaneLock.serve, unlocked, hlock, hattached]
      simp [PeerPane.onAttach]
  | detach pane =>
    obtain rfl : pane = remote := Option.some.inj hpane
    dsimp only [handle, setPane, arrivals]
    rw [Function.update_self, PeerPane.lock_onDetach]
    -- whoever was attached, nobody is afterwards
    have hdetached : ((s.panes pane).onDetach s.me).attached = false := by
      rw [PeerPane.onDetach]
      split
      · rfl
      · exact Bool.eq_false_of_not_eq_true ‹_›
    obtain rfl := Option.some.inj ((if_pos rfl).symm.trans hx)
    rw [PaneLock.serve, unlocked, hlock, hattached, hdetached]
    simp
  | _ => cases hpane

/-- The message at the head is handled. -/
private theorem paneLock_serve {x : Sent} {queue : List Sent}
    (failure : Option (ErrorCode × String))
    (hqueue : s.link.conn.clientTx.queue = x :: queue) (pane remote : PaneId) :
    (s.step (.serve failure)).paneLock pane remote =
      { s.paneLock pane remote with
        up := queue.filterMap (Sent.lockMsg s.log remote)
        lock := ((s.handle failure x.msg).1.panes remote).lock s.me
        attached := ((s.handle failure x.msg).1.panes remote).attached
        down := (s.paneLock pane remote).down ++
          (arrivals x (s.handle failure x.msg).2).filterMap (Arrival.lockReply s.log remote) } := by
  obtain ⟨hconn, hdown, -⟩ := link_serve failure hqueue
  have hstep : s.step (.serve failure) = { (s.handle failure x.msg).1 with
      link := s.link.step (.serve (s.handle failure x.msg).2), served := s.served ++ [x] } := by
    rw [step]
    simp only [hqueue]
  have hme : (s.handle failure x.msg).1.me = s.me := by
    cases x.msg <;> rfl
  have hlog : s.served ++ [x] ++ queue = s.log := by
    rw [log, hqueue, List.append_assoc]
    rfl
  rw [hstep, paneLock, paneLock, PeerConnection.paneLock, PeerConnection.paneLock]
  dsimp only
  rw [hconn, hdown, hme]
  dsimp only
  rw [hlog, List.filterMap_append]
  rfl

theorem Inv.serve (h : s.Inv) (failure : Option (ErrorCode × String)) :
    (s.step (.serve failure)).Inv := by
  rcases hqueue : s.link.conn.clientTx.queue with _ | ⟨x, queue⟩
  · rw [step]
    simp only [hqueue]
    exact h
  obtain ⟨hconn, hdown, hpending⟩ := link_serve failure hqueue
  have hhead : x ∈ s.link.conn.clientTx.queue := by
    rw [hqueue]
    exact List.mem_cons_self
  have hstep : s.step (.serve failure) = { (s.handle failure x.msg).1 with
      link := s.link.step (.serve (s.handle failure x.msg).2), served := s.served ++ [x] } := by
    rw [step]
    simp only [hqueue]
  -- what the peer answers is about the pane it was asked about
  have harrivals : ∀ a ∈ arrivals x (s.handle failure x.msg).2, a.cause = x.cause ∧
      Familiar s.link.conn a ∧
        ∀ remote, IsLockReply a.msg remote → x.msg.lockPane = some remote := by
    intro a ha
    rw [arrivals] at ha
    split at ha
    next seq _ =>
      rw [List.mem_singleton.mp ha]
      refine ⟨rfl, .inl ⟨seq, rfl⟩, fun remote hreply ↦ ?_⟩
      rcases hreply with heq | ⟨holder, heq⟩ | heq <;> cases heq
    next =>
      obtain ⟨answer, hanswer, rfl⟩ := List.mem_map.mp ha
      rcases handle_answer s failure (Option.mem_toList.mp hanswer) with
        ⟨code, text, rfl⟩ | ⟨remote, hlock, hreply⟩
      · refine ⟨rfl, .inr (.inl ⟨code, text, rfl⟩), fun remote hreply ↦ ?_⟩
        rcases hreply with heq | ⟨holder, heq⟩ | heq <;> cases heq
      · obtain ⟨pane, hpane⟩ := h.known x hhead remote hlock
        refine ⟨rfl, .inr (.inr ⟨pane, remote, hpane, hreply⟩), fun remote' hreply' ↦ ?_⟩
        rw [hlock, hreply.unique hreply']
  -- only the lock itself takes a move; the other clauses read the queue and what came down
  refine ⟨?_, ?_, ?_, ?_, ?_, ?_, ?_, fun pane remote hpane ↦ ?_⟩
  · rw [hstep]
    dsimp only
    rw [hconn]
    exact h.opened
  · rw [hstep]
    dsimp only
    rw [hconn]
    exact h.inverse
  · rw [hstep]
    dsimp only
    rw [hpending]
    exact h.pending
  · rw [hstep]
    dsimp only
    rw [hconn]
    exact fun y hy ↦ h.known y (by rw [hqueue]; exact List.mem_cons_of_mem x hy)
  · rw [hstep]
    dsimp only
    rw [hconn, hdown]
    intro a ha
    rcases List.mem_append.mp ha with ha | ha
    · exact h.familiar a ha
    · exact (harrivals a ha).2.1
  · rw [hstep]
    dsimp only
    rw [hdown]
    intro a ha
    rcases List.mem_append.mp ha with ha | ha
    · obtain ⟨y, hy, hcall⟩ := h.handled a ha
      exact ⟨y, List.mem_append_left _ hy, hcall⟩
    · refine ⟨x, List.mem_append_right _ List.mem_cons_self, ?_⟩
      rw [(harrivals a ha).1]
  · rw [hstep]
    dsimp only
    rw [hconn]
    exact h.held
  · rw [hstep] at hpane
    dsimp only at hpane
    rw [hconn] at hpane
    have hold := h.locks pane remote hpane
    have hup : (s.paneLock pane remote).up =
        (x :: queue).filterMap (Sent.lockMsg s.log remote) := by
      rw [paneLock, PeerConnection.paneLock, log, hqueue]
    rw [paneLock_serve failure hqueue]
    rcases hx : x.lockMsg s.log remote with _ | m
    · -- the message is about another pane, or about none
      have hother : x.msg.lockPane ≠ some remote := fun hlock ↦ lockMsg_ne_none hlock hx
      have hnone : (arrivals x (s.handle failure x.msg).2).filterMap
          (Arrival.lockReply s.log remote) = [] := by
        refine List.filterMap_eq_nil_iff.mpr fun a ha ↦ ?_
        by_contra hsome
        refine hother ((harrivals a ha).2.2 remote ?_)
        exact isLockReply_of_lockReply hsome
      obtain ⟨hlock, hattached⟩ := handle_elsewhere s failure hother
      rw [List.filterMap_cons_none hx] at hup
      rw [hnone, List.append_nil, hlock, hattached, ← hup]
      exact hold
    · rw [List.filterMap_cons_some hx] at hup
      have hserve := hold.move (.serve _ m _ hup)
      rw [serve_here s failure hx rfl rfl] at hserve
      exact hserve

/-- Something else happens to a pane at the peer. -/
private theorem Inv.relay (h : s.Inv) (pane₀ : PaneId) (e : RelayEvent B) :
    (s.step (.relay pane₀ e)).Inv := by
  rw [step]
  split
  next => exact h
  next hother =>
    refine { h with locks := fun pane remote hpane ↦ ?_ }
    have hold := h.locks pane remote hpane
    by_cases hremote : remote = pane₀
    · subst hremote
      have hnew : (s.setPane remote { s.panes remote with
          relay := (s.panes remote).relay.step e }).paneLock pane remote =
          { s.paneLock pane remote with
            lock := lockOf s.me ((s.panes remote).relay.step e).inputMode } := by
        rw [paneLock, setPane]
        dsimp only
        rw [Function.update_self]
        rfl
      rw [hnew]
      -- a local of the peer takes the lock, gives it up, or leaves it as it is
      rcases lock_step (r := (s.panes remote).relay) hother with hsame | ⟨hfree, htheirs⟩ |
        ⟨htheirs, hfree⟩
      · rw [hsame]
        exact hold
      · rw [htheirs]
        exact hold.move (.take _ hfree)
      · rw [hfree]
        exact hold.move (.quit _ htheirs)
    · have hnew : (s.setPane pane₀ { s.panes pane₀ with
          relay := (s.panes pane₀).relay.step e }).paneLock pane remote =
          s.paneLock pane remote := by
        rw [paneLock, setPane]
        dsimp only
        rw [Function.update_of_ne hremote]
        rfl
      rw [hnew]
      exact hold

/-- **One step** that is guarded keeps the invariant. -/
theorem Inv.step (h : s.Inv) (htracking : s.link.Tracking) {e : LockEvent B}
    (hguard : s.Guarded e) : (s.step e).Inv := by
  cases e with
  | hub e =>
    rw [LockLink.step]
    split
    next hsteady => exact h.hub htracking hsteady hguard
    next => exact h
  | serve failure => exact h.serve failure
  | relay pane e => exact h.relay pane e

/-- And the bookkeeping of the link is right whatever happens. -/
theorem tracking_step (h : s.link.Tracking) (e : LockEvent B) : (s.step e).link.Tracking := by
  cases e with
  | hub e =>
    rw [step]
    split
    · exact h.step e
    · exact h
  | serve failure =>
    rw [step]
    split
    next => exact h
    next => exact Link.Tracking.step h (.serve _)
  | relay pane e =>
    rw [step]
    split
    · exact h
    · exact h

/-! ## Agreement -/

private theorem mapped_registered (peer : PeerId) (sessions : List (WordId × SessionEntry))
    (c : PeerConnection) (hmapped : c.Mapped) (hlocal : (sessions.map Prod.fst).Nodup)
    (hremote : (sessions.map fun e ↦ e.2.wordId).Nodup)
    (hfresh : ∀ e ∈ sessions, e.1 ∉ c.words ∧ c.remoteToLocal.lookup e.2.wordId = none) :
    (sessions.foldl (fun c e ↦ c.registerSession e.1 e.2.wordId e.2 peer) c).Mapped := by
  induction sessions generalizing c with
  | nil => exact hmapped
  | cons e sessions ih =>
    obtain ⟨hlocal₁, hlocal⟩ := List.nodup_cons.mp hlocal
    obtain ⟨hremote₁, hremote⟩ := List.nodup_cons.mp hremote
    obtain ⟨hword, hnone⟩ := hfresh e List.mem_cons_self
    refine ih _ (hmapped.registerSession hword hnone e.2 peer) hlocal hremote fun e' he' ↦ ?_
    obtain ⟨hword', hnone'⟩ := hfresh e' (List.mem_cons_of_mem e he')
    constructor
    · rw [words_registerSession hword, List.mem_cons, not_or]
      refine ⟨fun heq ↦ hlocal₁ ?_, hword'⟩
      rw [← heq]
      exact List.mem_map_of_mem he'
    · refine (AList.lookup_insert_ne fun heq ↦ hremote₁ ?_).trans hnone'
      exact List.mem_map.mpr ⟨e', he', heq⟩

private theorem registered_fields (peer : PeerId) (sessions : List (WordId × SessionEntry))
    (c : PeerConnection) : Plain c
        (sessions.foldl (fun c e ↦ c.registerSession e.1 e.2.wordId e.2 peer) c) ∧
      (sessions.foldl (fun c e ↦ c.registerSession e.1 e.2.wordId e.2 peer) c).clientTx =
        c.clientTx ∧
      (sessions.foldl (fun c e ↦ c.registerSession e.1 e.2.wordId e.2 peer) c).panes = c.panes ∧
      (sessions.foldl (fun c e ↦ c.registerSession e.1 e.2.wordId e.2 peer) c).inputLocks =
        c.inputLocks := by
  induction sessions generalizing c with
  | nil => exact ⟨Plain.refl c, rfl, rfl, rfl⟩
  | cons e sessions ih =>
    obtain ⟨hplain, htx, hpanes, hlocks⟩ := ih (c.registerSession e.1 e.2.wordId e.2 peer)
    exact ⟨(Plain.registerSession c _ _ _ _).trans hplain, htx, hpanes, hlocks⟩

section New

variable {sessions : List (WordId × SessionEntry)} (peer : PeerId)
  (hlocal : (sessions.map Prod.fst).Nodup) (hremote : (sessions.map fun e ↦ e.2.wordId).Nodup)
  (me : ClientId) (ctrl : ChannelId) (capabilities : ClientCapabilities) (backend : PaneId → B)
  (size : PaneId → TermSize)

include hlocal hremote in
private theorem inv_new : (new peer sessions me ctrl capabilities backend size).Inv := by
  obtain ⟨-, htx, hpanes, hlocks⟩ := registered_fields peer sessions PeerConnection.new
  have hmapped := mapped_registered peer sessions PeerConnection.new mapped_new hlocal hremote
    fun e _ ↦ ⟨List.not_mem_nil, rfl⟩
  have hqueue : (new peer sessions me ctrl capabilities backend size).link.conn.clientTx =
      { queue := [], closed := false } := htx
  have hholder : ∀ pane,
      (new peer sessions me ctrl capabilities backend size).link.conn.holder pane = none := by
    intro pane
    rw [PeerConnection.holder, show (new peer sessions me ctrl capabilities backend
      size).link.conn.inputLocks = ∅ from hlocks]
    rfl
  refine ⟨by rw [hqueue], hmapped.inverse, fun p hp ↦ (by cases hp), fun x hx ↦ ?_,
    fun a ha ↦ (by cases ha), fun a ha ↦ (by cases ha),
    fun pane hne ↦ absurd (hholder pane) hne, fun pane remote _ ↦ ?_⟩
  · rw [hqueue] at hx
    cases hx
  · refine inv_empty (hholder pane) ?_ rfl PeerLock.noConfusion ?_
    · rw [paneLock, PeerConnection.paneLock, hqueue]
      rfl
    · rw [paneLock, PeerConnection.paneLock]
      dsimp only
      rw [show (new peer sessions me ctrl capabilities backend size).link.conn.panes = ∅ from
        hpanes]
      rfl

private theorem tracking_opened :
    (new peer sessions me ctrl capabilities backend size).link.Tracking :=
  (Link.tracking_new peer).plain (registered_fields peer sessions PeerConnection.new).1

end New

omit [TerminalBackend B] in
/-- Only the holder writes, whatever state the link is in. -/
private theorem writer (s : LockLink B) {pane : PaneId} {holder : ClientId}
    (hholder : s.link.conn.holder pane = some holder) {kind : PaneInput}
    (hkind : (ClientMessage.paneInput kind pane).writesInput) {client : ClientId}
    (hclient : client ≠ holder) (call : ℕ) (ctrl : ChannelId) : ∃ refusal,
      s.link.conn.forward call (.client client ctrl) (.paneInput kind pane) (.pane pane) none =
        (s.link.conn, some refusal) := by
  obtain ⟨requester, hrequester, hid⟩ := Option.bind_eq_some_iff.mp hholder
  rw [forward.eq_def]
  split
  · exact ⟨_, rfl⟩
  · have hne : requester.clientId ≠ (Requester.client client ctrl).clientId := by
      rw [hid]
      exact fun heq ↦ hclient (Option.some.inj heq).symm
    rw [retarget.eq_def]
    dsimp only
    rw [hrequester]
    dsimp only
    rw [if_pos hne]
    exact ⟨_, rfl⟩

omit [TerminalBackend B] in
theorem Inv.agreed (h : s.Inv) : s.Agreed where
  writer := fun _ _ hholder _ hkind _ hclient call ctrl ↦
    s.writer hholder hkind hclient call ctrl
  quiescent := fun hqueue hdown pane ↦ by
    have hlock : ∀ remote, s.link.conn.toRemotePane pane = some remote →
        ((s.link.conn.holder pane).isSome ↔
          (s.panes remote).relay.inputMode = .locked s.me) := by
      intro remote hremote
      have hagrees := (h.locks pane remote hremote).agrees
        (by rw [paneLock, PeerConnection.paneLock, hqueue]; rfl)
        (by rw [paneLock, PeerConnection.paneLock, hdown]; rfl)
      exact hagrees.trans lock_eq_ours
    constructor
    · intro hholder
      have hmapped := h.held pane (Option.isSome_iff_ne_none.mp hholder)
      obtain ⟨remote, hremote⟩ := Option.ne_none_iff_exists'.mp hmapped
      exact ⟨remote, hremote, (hlock remote hremote).mp hholder⟩
    · rintro ⟨remote, hremote, hmode⟩
      exact (hlock remote hremote).mpr hmode

/-- **The input locks agree.** In every guarded run of a hub and its peer, only the holder of a lock
writes, and whenever nothing is on its way, a client of the hub holds the lock of a pane exactly
when the hub holds it at the peer. -/
theorem locks_agree (peer : PeerId) (sessions : List (WordId × SessionEntry))
    (hlocal : (sessions.map Prod.fst).Nodup) (hremote : (sessions.map fun e ↦ e.2.wordId).Nodup)
    (me : ClientId) (ctrl : ChannelId) (capabilities : ClientCapabilities) (backend : PaneId → B)
    (size : PaneId → TermSize) (es : List (LockEvent B))
    (hes : Run.Ok step Guarded (new peer sessions me ctrl capabilities backend size) es) :
    (Run.exec step (new peer sessions me ctrl capabilities backend size) es).Agreed := by
  have hstep : ∀ (s : LockLink B) (e : LockEvent B), s.link.Tracking ∧ s.Inv → s.Guarded e →
      (s.step e).link.Tracking ∧ (s.step e).Inv :=
    fun _ e h hguard ↦ ⟨tracking_step h.1 e, h.2.step h.1 hguard⟩
  have hnew : (new peer sessions me ctrl capabilities backend size).link.Tracking ∧
      (new peer sessions me ctrl capabilities backend size).Inv :=
    ⟨tracking_opened peer me ctrl capabilities backend size,
      inv_new peer hlocal hremote me ctrl capabilities backend size⟩
  exact (Run.invariant_of_ok hstep es _ hnew hes).2.agreed

/-! ### Runs -/

/-- A hub with one proxied session. -/
def oak : LockLink MockBackend :=
  new "p" [("elm", ⟨"oak", "work", none, []⟩)] 100 0 ⟨false, false⟩ (fun _ ↦ MockBackend.new 1 1)
    fun _ ↦ ⟨24, 80, 0, 0⟩

/-- A client attaches the pane of that session. -/
def attaches (client : ClientId) (ctrl : ChannelId) : LockEvent MockBackend :=
  .hub (.attachViewer ("elm", 0) client ctrl ⟨24, 80, 0, 0⟩)

/-- And asks for its lock. -/
def asks (client : ClientId) (ctrl : ChannelId) (call : ℕ) : List (LockEvent MockBackend) :=
  [.hub (.requestInputLock client ctrl ("elm", 0) true), .hub (.proceed call)]

/-- The peer handles `n` messages, and the hub then `n` frames. -/
def settles (n : ℕ) : List (LockEvent MockBackend) :=
  List.replicate n (.serve none) ++ List.replicate n (.hub (.receive []))

/-- Two clients ask at once, a direct client waits, the holder leaves, and the other leaves as the
last. -/
theorem locks_agree_two : (Run.exec step oak
    (attaches 1 10 :: attaches 2 20 :: asks 1 10 0 ++ asks 2 20 1 ++ settles 8 ++
      .relay ("oak", 0) (.requestInputLock 7) :: .hub (.detachViewer ("elm", 0) 1) :: settles 4 ++
        .hub (.detachViewer ("elm", 0) 2) :: settles 4)).Agreed :=
  locks_agree "p" [("elm", ⟨"oak", "work", none, []⟩)] (by decide) (by decide) 100 0
    ⟨false, false⟩ _ _ _ (by decide +kernel)

/-- Whether everything has been handled, and a client holds the lock of the pane that nobody holds
at the peer. -/
def phantom (es : List (LockEvent MockBackend)) : Bool :=
  let s := Run.exec step oak es
  s.link.conn.clientTx.queue.isEmpty && s.link.down.isEmpty &&
    decide (s.link.conn.toRemotePane ("elm", 0) = some ("oak", 0)) &&
      (s.link.conn.holder ("elm", 0)).isSome &&
        decide ((s.panes ("oak", 0)).relay.inputMode = .unlocked)

private theorem not_agreed_of_phantom {es : List (LockEvent MockBackend)} (h : phantom es) :
    ¬ (Run.exec step oak es).Agreed := by
  rw [phantom] at h
  simp only [Bool.and_eq_true, decide_eq_true_eq, List.isEmpty_iff] at h
  obtain ⟨⟨⟨⟨hqueue, hdown⟩, hremote⟩, hholder⟩, hmode⟩ := h
  intro hagreed
  obtain ⟨remote, hremote', hlocked⟩ := (hagreed.quiescent hqueue hdown ("elm", 0)).mp hholder
  obtain rfl := Option.some.inj (hremote.symm.trans hremote')
  rw [hmode] at hlocked
  cases hlocked

/-- The copies disagree after a fresh snapshot of a pane that a client holds; after one while the
request was on its way; after the last viewer left a pane whose holder had lost its view; and after
the holder released the lock and left before the grant of another came. -/
theorem locks_disagree :
    (¬ (Run.exec step oak (attaches 1 10 :: asks 1 10 0 ++ settles 2 ++
      .hub (.resync ("elm", 0)) :: settles 2)).Agreed) ∧
    (¬ (Run.exec step oak (attaches 1 10 :: asks 1 10 0 ++
      .hub (.resync ("elm", 0)) :: settles 4)).Agreed) ∧
    (¬ (Run.exec step oak (attaches 1 10 :: asks 1 10 0 ++ settles 2 ++
      .hub (.dropViewer ("elm", 0) 1) :: attaches 2 20 ::
        .hub (.detachViewer ("elm", 0) 2) :: settles 2)).Agreed) ∧
    ¬ (Run.exec step oak (attaches 1 10 :: attaches 2 20 :: asks 1 10 0 ++ asks 2 20 1 ++
      List.replicate 4 (.serve none) ++ [.hub (.receive [])] ++
        .hub (.releaseInputLock 1 10 ("elm", 0)) :: .hub (.detachViewer ("elm", 0) 1) ::
          [.hub (.receive []), .hub (.receive [])] ++ settles 4)).Agreed :=
  ⟨not_agreed_of_phantom (by decide +kernel), not_agreed_of_phantom (by decide +kernel),
    not_agreed_of_phantom (by decide +kernel), not_agreed_of_phantom (by decide +kernel)⟩

end LockLink

end Federation

end Kmux
