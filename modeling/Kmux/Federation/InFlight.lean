import Kmux.Federation.Answers
import Kmux.Federation.Books

/-!
# Nothing forwarded is dropped unanswered

A request of a client is forwarded to the peer or refused, and a request that the peer has not
answered when the link ends is answered with an error. The two ends of a link do not account for
everything, though: closing a peer answers nothing that is in flight, a lock request in flight has
no route and is lost with the link, one that a closed channel drops is not refused, and a request
that the peer answered without its id keeps its route, so that the end of the link answers it again.
`Guarded` leaves these out, and nothing else.
-/

namespace Kmux

namespace Federation

/-- Whether something was sent for a call. -/
def Cause.called (cause : Cause) : Bool := cause.call.isSome

def Delivery.called (d : Delivery) : Bool := d.call.isSome

namespace PeerConnection

/-- What is on its way up for a call. -/
def carried (c : PeerConnection) : List Cause :=
  (c.clientTx.queue.map Sent.cause).filter Cause.called

/-- What was sent to a client for a call. -/
def log (c : PeerConnection) : List Delivery := (c.relayed ++ c.told).filter Delivery.called

/-- The hub has sent nothing up for a call and said nothing to one; it may have forgotten routes.
What it passed on is left open. -/
structure Quiet (c c' : PeerConnection) : Prop where
  carried : c'.carried = c.carried
  told : c'.told.filter Delivery.called = c.told.filter Delivery.called
  routes : ∀ id r, c'.routes.routes.lookup id = some r → c.routes.routes.lookup id = some r
  dead : c'.dead = c.dead
  closed : c'.clientTx.closed = c.clientTx.closed

namespace Quiet

variable {c c' c'' : PeerConnection}

theorem refl (c : PeerConnection) : Quiet c c := ⟨rfl, rfl, fun _ _ h ↦ h, rfl, rfl⟩

theorem trans (h : Quiet c c') (h' : Quiet c' c'') : Quiet c c'' where
  carried := h'.carried.trans h.carried
  told := h'.told.trans h.told
  routes := fun id r hr ↦ h.routes id r (h'.routes id r hr)
  dead := h'.dead.trans h.dead
  closed := h'.closed.trans h.closed

/-- A message of no call goes up, or is dropped. -/
theorem push (c : PeerConnection) {x : Sent} (hx : x.cause.call = none) :
    Quiet c (c.push x) := by
  rw [PeerConnection.push, Outlet.send]
  split
  · exact refl c
  · refine ⟨?_, rfl, fun _ _ h ↦ h, rfl, rfl⟩
    rw [PeerConnection.carried, Option.getD_some, List.map_append, List.filter_append,
      List.map_singleton, List.filter_cons_of_neg, List.filter_nil, List.append_nil]
    · rfl
    · rw [Cause.called, hx]
      exact Bool.false_ne_true

/-- The routes may change in all but the table. -/
theorem setRoutes (c : PeerConnection) {routes : Routes}
    (h : ∀ id r, routes.routes.lookup id = some r → c.routes.routes.lookup id = some r) :
    Quiet c { c with routes } :=
  ⟨rfl, rfl, h, rfl, rfl⟩

theorem barrier (c : PeerConnection) (sender : Requester) : Quiet c (c.barrier sender) := by
  have hsent : (c.routes.sent sender).1.routes = c.routes.routes := by
    rw [Routes.sent]
    split
    · split <;> rfl
    · rfl
  rw [PeerConnection.barrier]
  split
  next routes seq heq =>
    rw [heq] at hsent
    exact (setRoutes c fun id r h ↦ hsent ▸ h).trans (push _ rfl)
  next routes heq =>
    rw [heq] at hsent
    exact setRoutes c fun id r h ↦ hsent ▸ h

theorem send (c : PeerConnection) (sender : Requester) (msg : ClientMessage) :
    Quiet c (c.send sender msg none) := (barrier c sender).trans (push _ rfl)

/-- What the hub says of itself answers no call. -/
theorem note {notes : List Delivery} (h : ∀ d ∈ notes, d.call = none) :
    notes.filter Delivery.called = [] := by
  refine List.filter_eq_nil_iff.mpr fun d hd ↦ ?_
  rw [Delivery.called, h d hd]
  exact Bool.false_ne_true

theorem of_plain (h : Plain c c') : Quiet c c' := by
  induction h with
  | keep routes clientTx dead relayed told =>
    obtain ⟨notes, told, hnotes⟩ := told
    refine ⟨?_, ?_, fun id r hr ↦ routes ▸ hr, dead, ?_⟩
    · rw [PeerConnection.carried, clientTx]
      rfl
    · rw [told, List.filter_append, note hnotes, List.append_nil]
    · rw [clientTx]
  | send c sender msg _ _ => exact send c sender msg
  | trans _ _ ih ih' => exact ih.trans ih'

/-- What is passed on is left open. -/
theorem relay (c : PeerConnection) (recipient : Requester) (msg : ServerMessage)
    (call : Option ℕ) : Quiet c (c.relay recipient msg call) :=
  ⟨rfl, rfl, fun _ _ h ↦ h, rfl, rfl⟩

theorem take (c : PeerConnection) (id : RequestId) :
    Quiet c { c with routes := (c.routes.take id).1 } :=
  setRoutes c fun _ _ h ↦ (Table.lookup_erase_eq_some h).2

theorem answerRouted {outside : Outside} {msg : ServerMessage}
    (h : c.answerRouted outside msg = some c') : Quiet c c' := by
  rcases hid : msg.replyRequestId with _ | id
  · rw [answerRouted_none outside fun id hsome ↦ (by rw [hid] at hsome; cases hsome)] at h
    cases h
  · rcases hroute : c.routes.routes.lookup id with _ | route
    · rw [answerRouted_none outside fun id' hid' ↦ ?_] at h
      · cases h
      · rw [← Option.some.inj (hid.symm.trans hid')]
        exact hroute
    · obtain ⟨c₁, c₂, reply, heq, hplain, hplain', -⟩ := answerRouted_some hid hroute outside
      rw [heq, Option.some.injEq] at h
      rw [← h]
      exact (take c id).trans ((of_plain hplain).trans ((relay c₁ _ _ _).trans (of_plain hplain')))

theorem answerUnrequested {outside : Outside} {msg : ServerMessage}
    (h : c.answerUnrequested outside msg = some c') : Quiet c c' := by
  by_cases hmsg : msg.unrequested
  · rcases hfront : c.routes.front with _ | sender
    · rw [PeerConnection.answerUnrequested, if_pos hmsg, hfront, Option.some.injEq] at h
      rw [← h]
      exact refl c
    · obtain ⟨c₁, reply, hplain, heq, -⟩ := answerUnrequested_some hmsg hfront outside
      rw [heq, Option.some.injEq] at h
      rw [← h]
      exact (of_plain hplain).trans (relay c₁ _ _ _)
  · rw [PeerConnection.answerUnrequested, if_neg hmsg] at h
    cases h

/-- A frame of the peer makes the hub pass an answer on, and nothing else that concerns a call. -/
theorem onUpstream (c : PeerConnection) (outside : Outside) (msg : ServerMessage) :
    Quiet c (c.onUpstream outside msg) := by
  rw [PeerConnection.onUpstream.eq_def]
  split
  next seq => exact setRoutes c fun _ _ h ↦ Routes.ponged_lookup_some h
  next =>
    split
    · exact of_plain (Plain.reconcileSessions c _ _ _)
    · exact refl c
  next =>
    rcases hrouted : c.answerRouted outside msg with _ | c'
    · rw [Option.none_or]
      rcases hunrequested : c.answerUnrequested outside msg with _ | c'
      · exact refl c
      · exact answerUnrequested hunrequested
    · exact answerRouted hrouted

theorem ping (c : PeerConnection) : Quiet c c.ping := by
  have hroutes : Quiet c { c with routes := c.routes.ping.1 } := setRoutes c fun _ _ h ↦ h
  exact hroutes.trans (push _ rfl)

theorem requestSessionList (c : PeerConnection) : Quiet c c.requestSessionList := by
  have hroutes : Quiet c { c with routes := c.routes.takeId.1 } := setRoutes c fun _ _ h ↦ h
  exact hroutes.trans (send _ .hub _)

end Quiet

/-- A call goes up, with its route if it has one. -/
structure Ups (c c' : PeerConnection) (p : Pending) : Prop where
  carried : ∃ cause : Cause, c'.carried = c.carried ++ [cause] ∧ cause.call = some p.call ∧
    cause.sender = p.sender ∧ (p.ask.due → p.ask.isLock = false → cause.hubId.isSome)
  told : c'.told.filter Delivery.called = c.told.filter Delivery.called
  routes : ∃ id₀, ∀ id r, c'.routes.routes.lookup id = some r →
    c.routes.routes.lookup id = some r ∨ id = id₀ ∧ r.call = p.call ∧ r.sender = p.sender
  dead : c'.dead = c.dead
  closed : c'.clientTx.closed = c.clientTx.closed

theorem Ups.after_quiet {c c' c'' : PeerConnection} {p : Pending} (h : Quiet c c')
    (h' : Ups c' c'' p) : Ups c c'' p where
  carried := by
    rw [← h.carried]
    exact h'.carried
  told := h'.told.trans h.told
  routes := by
    obtain ⟨id₀, hroutes⟩ := h'.routes
    exact ⟨id₀, fun id r hr ↦ (hroutes id r hr).imp_left (h.routes id r)⟩
  dead := h'.dead.trans h.dead
  closed := h'.closed.trans h.closed

/-- Whether a call is passed on to the peer. -/
def passesOn (c : PeerConnection) (p : Pending) : Bool :=
  match p.ask with
  | .inputLock pane =>
    (c.holder pane).all (fun holder ↦ decide (holder = p.client)) && (c.toRemotePane pane).isSome
  | .forward msg =>
    match msg.federation with
    | .forward target _ =>
      !c.dead && !c.clientTx.closed &&
        (c.retarget (if msg.writesInput then some p.sender else none) target).isOk
    | _ => false

/-- Only a lock request is passed on to a closed channel. -/
theorem passesOn_open {c : PeerConnection} {p : Pending} (h : c.passesOn p)
    (hdue : p.ask.due = false) : c.clientTx.closed = false := by
  rw [passesOn] at h
  rcases hask : p.ask with msg | pane
  · rw [hask] at h
    dsimp only at h
    split at h
    · rw [Bool.and_eq_true, Bool.and_eq_true, Bool.not_eq_true'] at h
      exact Bool.not_eq_true' _ |>.mp h.1.2
    · cases h
  · rw [hask] at hdue
    cases hdue

/-- A message of a call, on an open channel. -/
theorem carried_push {c : PeerConnection} {x : Sent} (hopen : c.clientTx.closed = false)
    (hx : x.cause.call.isSome) : (c.push x).carried = c.carried ++ [x.cause] := by
  rw [PeerConnection.push, Outlet.send, if_neg (by rw [hopen]; exact Bool.false_ne_true),
    Option.getD_some, carried, List.map_append, List.filter_append, List.map_singleton,
    List.filter_cons_of_pos (p := Cause.called) hx, List.filter_nil]
  rfl

private theorem push_of_send {c : PeerConnection} {x : Sent} {tx : Outlet}
    (h : c.clientTx.send x = some tx) :
    c.clientTx.closed = false ∧ { c with clientTx := tx } = c.push x := by
  refine ⟨?_, by rw [PeerConnection.push, h, Option.getD_some]⟩
  rw [Outlet.send] at h
  split at h
  · cases h
  · exact Bool.eq_false_of_not_eq_true ‹_›

private theorem push_closed (c : PeerConnection) (x : Sent) :
    (c.push x).clientTx.closed = c.clientTx.closed := by
  rw [PeerConnection.push, Outlet.send]
  split <;> rfl

/-- A route taken back at once leaves the table as it was. -/
private theorem lookup_take_route (routes : Routes) (route : Route) (id : RequestId) (r : Route)
    (h : ((routes.route route).1.take (routes.route route).2).1.routes.lookup id = some r) :
    routes.routes.lookup id = some r := by
  obtain ⟨hne, hlookup⟩ := Table.lookup_erase_eq_some h
  rcases Table.lookup_insert_eq_some hlookup with ⟨heq, -⟩ | ⟨-, hlookup⟩
  · exact absurd heq hne
  · exact hlookup

/-- A forwarded request is refused here, or goes up on an open channel. -/
theorem forward_cases (c : PeerConnection) (p : Pending) {msg : ClientMessage} {target : Target}
    {requestId : Option RequestId} (hask : p.ask = .forward msg)
    (hmsg : msg.federation = .forward target requestId) :
    (∃ c' refusal, c.forward p.call p.sender msg target requestId = (c', some refusal) ∧
      Quiet c c') ∨
    ∃ c', c.forward p.call p.sender msg target requestId = (c', none) ∧ Ups c c' p ∧
      c.passesOn p := by
  have hdue : p.ask.due = requestId.isSome := by
    rw [hask, Ask.due, hmsg]
    cases requestId <;> rfl
  have hquiet := Quiet.barrier c p.sender
  rw [PeerConnection.forward.eq_def]
  split
  next => exact .inl ⟨c, _, rfl, .refl c⟩
  next hdead =>
    have hpasses : ∀ remote, c.retarget (if msg.writesInput then some p.sender else none) target =
        .ok remote → c.clientTx.closed = false → c.passesOn p := by
      intro remote hremote hopen
      rw [passesOn, hask]
      dsimp only
      rw [hmsg]
      dsimp only
      rw [hremote, hopen, Bool.eq_false_of_not_eq_true hdead]
      rfl
    split
    next => exact .inl ⟨c, _, rfl, .refl c⟩
    next remote hremote =>
      set c₁ := c.barrier p.sender with hc₁
      dsimp only
      rcases requestId with _ | rid
      · dsimp only
        split
        next tx htx =>
          obtain ⟨hopen, hpush⟩ := push_of_send htx
          refine .inr ⟨_, rfl, ?_, hpasses remote hremote (hquiet.closed.symm.trans hopen)⟩
          rw [hpush]
          refine Ups.after_quiet hquiet ⟨⟨_, carried_push hopen rfl, rfl, rfl, ?_⟩, rfl,
            ⟨0, fun _ _ h ↦ .inl h⟩, rfl, ?_⟩
          · rw [hdue]
            exact fun h ↦ (by cases h)
          · exact push_closed _ _
        next => exact .inl ⟨c₁, _, rfl, hquiet⟩
      · set new : Route := { sender := p.sender, requestId := rid
                             localWord := target.localWord, call := p.call } with hnew
        dsimp only
        split
        next tx htx =>
          set c₂ : PeerConnection := { c₁ with routes := (c₁.routes.route new).1 } with hc₂
          obtain ⟨hopen, hpush⟩ := push_of_send (c := c₂) htx
          refine .inr ⟨_, rfl, ?_, hpasses remote hremote (hquiet.closed.symm.trans hopen)⟩
          rw [show ({ c₁ with routes := (c₁.routes.route new).1, clientTx := tx } :
            PeerConnection) = _ from hpush]
          refine Ups.after_quiet hquiet ⟨⟨_, carried_push hopen rfl, rfl, rfl, ?_⟩, rfl,
            ⟨c₁.routes.nextId, fun id r h ↦ ?_⟩, rfl, ?_⟩
          · exact fun _ _ ↦ rfl
          · rcases Table.lookup_insert_eq_some h with ⟨heq, hr⟩ | ⟨-, h⟩
            · exact .inr ⟨heq, by rw [hr], by rw [hr]⟩
            · exact .inl h
          · exact push_closed _ _
        next =>
          exact .inl ⟨_, _, rfl, hquiet.trans (.setRoutes c₁ (lookup_take_route c₁.routes new))⟩

/-- A lock request is answered here, or goes up. A closed channel drops it. -/
theorem requestInputLock_cases (c : PeerConnection) (p : Pending) {pane : PaneId}
    (hask : p.ask = .inputLock pane) :
    (∃ refusal, c.requestInputLock p.call p.sender pane = (c, some refusal)) ∨
    (∃ msg, c.requestInputLock p.call p.sender pane =
      (c.tell p.sender msg (some p.call), none)) ∨
    ∃ c', c.requestInputLock p.call p.sender pane = (c', none) ∧ c.passesOn p ∧
      (c.clientTx.closed = false → Ups c c' p) := by
  have hasked : (c.holder pane).all (fun holder ↦ decide (holder = p.client)) →
      (∃ refusal, c.askForLock p.call p.sender pane = (c, some refusal)) ∨
        ∃ c', c.askForLock p.call p.sender pane = (c', none) ∧ c.passesOn p ∧
          (c.clientTx.closed = false → Ups c c' p) := by
    intro hholder
    rw [askForLock]
    split
    next remote hremote =>
      refine .inr ⟨_, rfl, ?_, fun hopen ↦ ?_⟩
      · rw [passesOn, hask]
        dsimp only
        rw [hholder, hremote]
        rfl
      · have hquiet := Quiet.barrier c p.sender
        refine Ups.after_quiet hquiet ⟨⟨_, carried_push (hquiet.closed.trans hopen) rfl, rfl, rfl,
          ?_⟩, rfl, ⟨0, fun _ _ h ↦ .inl h⟩, rfl, push_closed _ _⟩
        rw [hask]
        exact fun _ h ↦ (by cases h)
    next => exact .inl ⟨_, rfl⟩
  rw [PeerConnection.requestInputLock]
  split
  next holder hholder =>
    rw [hholder] at hasked
    split
    next => exact .inr (.inl ⟨_, rfl⟩)
    next hsame =>
      have hclient : holder = p.client := Option.some.inj (not_not.mp hsame)
      rcases hasked (decide_eq_true hclient) with h | h
      · exact .inl h
      · exact .inr (.inr h)
  next hholder =>
    rw [hholder] at hasked
    rcases hasked rfl with h | h
    · exact .inl h
    · exact .inr (.inr h)

end PeerConnection

/-! ## The books of a link -/

namespace Link

open PeerConnection

/-- Where the calls of a link are. -/
def books (s : Link) : Books where
  asked := s.asked
  pending := s.pending
  way := (s.down.map Arrival.cause).filter Cause.called ++ s.conn.carried
  routes := s.conn.routes.routes
  log := s.conn.log
  silent := s.silent
  stopped := s.stopped

/-- A call waits while it has not locked the connection, or while something for it is on its way on
a link that is fed. -/
def Waits (s : Link) (n : ℕ) : Prop :=
  (∃ p ∈ s.pending, p.call = n) ∨
    s.stopped = false ∧ ((∃ a ∈ s.down, a.cause.call = some n) ∨
      ∃ x ∈ s.conn.clientTx.queue, x.cause.call = some n)

/-- How often something was sent to a client for a call. -/
def answers (s : Link) (n : ℕ) : ℕ :=
  (s.conn.relayed ++ s.conn.told).countP fun d ↦ decide (d.call = some n)

/-- Every call that is due an answer has had one, or still waits for it, or the peer gave none. No
call has had two, and none has been answered to anyone but its sender. -/
def Settled (s : Link) : Prop :=
  ∀ p ∈ s.asked, p.ask.due →
    (∀ d ∈ s.conn.relayed ++ s.conn.told, d.call = some p.call →
      d.client = p.client ∧ d.ctrl = p.ctrl) ∧
    (s.answers p.call = 1 ∨ s.answers p.call = 0 ∧ (s.Waits p.call ∨ p.call ∈ s.silent))

/-- What the ends of a link account for. -/
def Guarded (s : Link) : LinkEvent → Prop
  -- what is passed on finds a link that takes it and is fed
  | .proceed call => ∀ p ∈ s.pending, p.call = call → p.ask.due → s.conn.passesOn p →
    s.stopped = false ∧ s.conn.clientTx.closed = false
  -- no lock request is on its way, and no waiting request has been answered
  | .linkDown => s.conn.dead = false → s.stopped = false →
    (∀ p ∈ s.asked, p.ask.isLock → s.books.travels p.call = 0) ∧
      ∀ r ∈ s.conn.routes.routes.values, s.books.answers r.call = 0
  -- nothing due is on its way
  | .stopFeed => s.isOpen = false → ∀ p ∈ s.asked, p.ask.due → s.books.travels p.call = 0
  | _ => True

instance decidableGuarded (s : Link) : (e : LinkEvent) → Decidable (s.Guarded e)
  | .proceed _ | .linkDown | .stopFeed => by unfold Guarded; infer_instance
  | .forward .. | .requestInputLock .. | .releaseInputLock .. | .attachViewer ..
  | .resizeViewer .. | .detachViewer .. | .detachChannel .. | .dropViewer .. | .resync ..
  | .ping | .requestSessionList | .sessionClosedEvent .. | .serve .. | .receive ..
  | .hangUp | .relink .. | .closePeer => .isTrue trivial

/-- The bookkeeping is right, the books are, and a dead link carries nothing. -/
structure Sound (s : Link) : Prop where
  tracking : s.Tracking
  books : s.books.Ok
  forwarded : ∀ p ∈ s.pending, ∀ msg, p.ask = .forward msg →
    ∃ target requestId, msg.federation = .forward target requestId
  dead : s.conn.dead → s.conn.clientTx.closed ∧ s.books.way = []

variable {s : Link}

theorem sound_new (peer : PeerId) : (new peer).Sound where
  tracking := tracking_new peer
  books := {
    numbered := by simp [books, new]
    pending := by simp [books, new]
    way := by simp [books, new, carried, PeerConnection.new]
    log := by simp [books, new, PeerConnection.log, PeerConnection.new]
    routes := fun id r hr ↦ (by cases hr)
    routes_inj := fun id id' r r' hr ↦ (by cases hr)
    once := fun n ↦ Nat.zero_le 1
    settled := by simp [books, new]
    stopped := by simp [books, new] }
  forwarded := by simp [new]
  dead := fun hdead ↦ (by cases hdead)

private theorem log_eq {c c' : PeerConnection} (relayed : c'.relayed = c.relayed)
    (told : c'.told.filter Delivery.called = c.told.filter Delivery.called) : c'.log = c.log := by
  rw [log, log, List.filter_append, List.filter_append, relayed, told]

/-- An operation that concerns no call. -/
theorem Sound.quiet {c : PeerConnection} (h : s.Sound) (hquiet : Quiet s.conn c)
    (hrelayed : c.relayed = s.conn.relayed) (htracking : { s with conn := c }.Tracking) :
    { s with conn := c }.Sound := by
  have hbooks : { s with conn := c }.books = { s.books with routes := c.routes.routes } := by
    simp only [Link.books, hquiet.carried, log_eq hrelayed hquiet.told]
  refine ⟨htracking, ?_, h.forwarded, fun hdead ↦ ?_⟩
  · rw [hbooks]
    exact h.books.forget hquiet.routes
  · rw [hbooks, hquiet.closed]
    exact h.dead (hquiet.dead.symm.trans hdead)

theorem Sound.plain {c : PeerConnection} (h : s.Sound) (hplain : Plain s.conn c) :
    { s with conn := c }.Sound :=
  h.quiet (.of_plain hplain) hplain.relayed (h.tracking.plain hplain)

/-- Telling a client adds to the log what it is told. -/
private theorem log_tell (c : PeerConnection) (p : Pending) (msg : ServerMessage) :
    (c.tell p.sender msg (some p.call)).log.Perm
      ({ client := p.client, ctrl := p.ctrl, msg, call := some p.call } :: c.log) := by
  rw [log, PeerConnection.tell, ← List.append_assoc, List.filter_append]
  exact List.perm_append_comm

theorem Sound.refuse (h : s.Sound) (client : ClientId) (ctrl : ChannelId) (ask : Ask)
    (refusal : Refusal) (htracking : (s.refuse (s.next client ctrl ask) refusal).Tracking) :
    (s.refuse (s.next client ctrl ask) refusal).Sound where
  tracking := htracking
  books := h.books.refuse rfl (log_tell s.conn (s.next client ctrl ask) _) rfl rfl
  forwarded := h.forwarded
  dead := h.dead

theorem Sound.enter (h : s.Sound) (client : ClientId) (ctrl : ChannelId) {ask : Ask}
    (hask : ∀ msg, ask = .forward msg →
      ∃ target requestId, msg.federation = .forward target requestId)
    (htracking : (s.enter (s.next client ctrl ask)).Tracking) :
    (s.enter (s.next client ctrl ask)).Sound where
  tracking := htracking
  books := h.books.enter rfl
  forwarded := fun p hp ↦ by
    rcases List.mem_append.mp hp with hp | hp
    · exact h.forwarded p hp
    · rw [List.mem_singleton.mp hp]
      exact hask
  dead := h.dead

/-- What locking the connection comes to: an answer at once, or the way up. -/
private theorem run_cases (c : PeerConnection) {p : Pending}
    (hp : ∀ msg, p.ask = .forward msg →
      ∃ target requestId, msg.federation = .forward target requestId) :
    (∃ c' refusal, run c p = (c', some refusal) ∧ Quiet c c') ∨
    (∃ msg, run c p = (c.tell p.sender msg (some p.call), none)) ∨
    ∃ c', run c p = (c', none) ∧ c.passesOn p ∧
      (c.clientTx.closed = false → Ups c c' p) := by
  rw [run]
  rcases hask : p.ask with msg | pane
  · obtain ⟨target, requestId, hmsg⟩ := hp msg hask
    dsimp only
    rw [hmsg]
    dsimp only
    rcases forward_cases c p hask hmsg with ⟨c', refusal, heq, hquiet⟩ | ⟨c', heq, hups, hpasses⟩
    · exact .inl ⟨c', refusal, heq, hquiet⟩
    · exact .inr (.inr ⟨c', heq, hpasses, fun _ ↦ hups⟩)
  · dsimp only
    rcases requestInputLock_cases c p hask with ⟨refusal, heq⟩ | ⟨msg, heq⟩ |
      ⟨c', heq, hpasses, hups⟩
    · exact .inl ⟨c, refusal, heq, .refl c⟩
    · exact .inr (.inl ⟨msg, heq⟩)
    · exact .inr (.inr ⟨c', heq, hpasses, hups⟩)

theorem Sound.proceed (h : s.Sound) {call : ℕ} (hguard : s.Guarded (.proceed call)) :
    (s.step (.proceed call)).Sound := by
  have htracking := h.tracking.proceed call
  rw [step] at htracking ⊢
  split
  next p hfind =>
    rw [hfind] at htracking
    have hp : p ∈ s.pending := List.mem_of_find?_eq_some hfind
    have hcall : p.call = call :=
      of_decide_eq_true (List.find?_some (p := fun q : Pending ↦ decide (q.call = call)) hfind)
    have hrelayed : (run s.conn p).1.relayed = s.conn.relayed := by
      rw [run]
      split
      · split
        · exact forward_relayed _ _ _ _ _ _
        · rfl
      · exact requestInputLock_relayed _ _ _ _
    have hforwarded : ∀ q ∈ s.pending.erase p, ∀ msg, q.ask = .forward msg →
        ∃ target requestId, msg.federation = .forward target requestId := fun q hq ↦
      h.forwarded q (List.mem_of_mem_erase hq)
    dsimp only at htracking
    rcases run_cases s.conn (h.forwarded p hp) with ⟨c, refusal, heq, hquiet⟩ | ⟨msg, heq⟩ |
      ⟨c, heq, hpasses, hups⟩
    · rw [heq] at htracking hrelayed ⊢
      rw [settle] at htracking ⊢
      have hperm := log_tell c p refusal.intoError
      rw [log_eq hrelayed hquiet.told] at hperm
      have hok := (h.books.answerPending hp hperm rfl rfl).forget hquiet.routes
      have hway : (s.down.map Arrival.cause).filter Cause.called ++ c.carried = s.books.way :=
        congrArg (_ ++ ·) hquiet.carried
      refine ⟨htracking, ?_, hforwarded, fun hdead ↦ ?_⟩
      · rw [← hway] at hok
        exact hok
      · have hold := h.dead (hquiet.dead.symm.trans hdead)
        exact ⟨hquiet.closed.trans hold.1, hway.trans hold.2⟩
    · rw [heq] at htracking ⊢
      rw [settle] at htracking ⊢
      exact ⟨htracking, h.books.answerPending hp (log_tell s.conn p msg) rfl rfl, hforwarded,
        h.dead⟩
    · rw [heq] at htracking hrelayed ⊢
      rw [settle] at htracking ⊢
      have hopen : p.ask.due → s.stopped = false ∧ s.conn.clientTx.closed = false :=
        fun hdue ↦ hguard p hp hcall hdue hpasses
      have hclosed : s.conn.clientTx.closed = false := by
        rcases hdue : p.ask.due with _ | _
        · exact passesOn_open hpasses hdue
        · exact (hopen hdue).2
      have hup := hups hclosed
      obtain ⟨cause, hcarried, hcausecall, hsender, hhub⟩ := hup.carried
      obtain ⟨id₀, hroutes⟩ := hup.routes
      have hway : (s.down.map Arrival.cause).filter Cause.called ++ c.carried =
          s.books.way ++ [cause] := by
        rw [hcarried, ← List.append_assoc]
        rfl
      have hok := h.books.send hp (List.perm_append_singleton cause s.books.way) hcausecall
        hsender hhub (fun hdue ↦ (hopen hdue).1) hroutes
      refine ⟨htracking, ?_, hforwarded, fun hdead ↦ ?_⟩
      · rw [← hway, show s.books.log = c.log from (log_eq hrelayed hup.told).symm] at hok
        exact hok
      · have hold := (h.dead (hup.dead.symm.trans hdead)).1
        rw [hclosed] at hold
        cases hold
  next => exact h

/-- The peer answers, or it does not. -/
private theorem serveOne_cases (s : Link) (x : Sent) (answer : Option ServerMessage) :
    (∃ msg, s.serveOne x answer = { s with down := s.down ++ [{ msg, cause := x.cause }] }) ∨
      s.serveOne x answer = { s with silent := s.silent ++ x.cause.call.toList } := by
  rw [serveOne.eq_def]
  split
  · exact .inl ⟨_, rfl⟩
  · split
    · split
      · exact .inl ⟨_, rfl⟩
      · exact .inr rfl
    · exact .inr rfl

/-- The peer handles the oldest message: its call stays on its way, or the peer gives no answer. -/
theorem Sound.serve (h : s.Sound) (answer : Option ServerMessage) :
    (s.step (.serve answer)).Sound := by
  have htracking := h.tracking.serve answer
  revert htracking
  rw [step]
  split
  next x queue hqueue =>
    intro htracking
    set c : PeerConnection :=
      { s.conn with clientTx := { s.conn.clientTx with queue } } with hc
    have hway : s.books.way = (s.down.map Arrival.cause).filter Cause.called ++
        ([x.cause].filter Cause.called ++ c.carried) := by
      rw [Link.books, carried, hqueue, List.map_cons, ← List.singleton_append, List.filter_append]
      rfl
    have hok := h.books
    rw [show s.books = { s.books with way := s.books.way } from rfl, hway] at hok
    rcases serveOne_cases { s with conn := c } x answer with ⟨msg, heq⟩ | heq
    · -- what the peer answers stands where its message stood
      rw [heq] at htracking ⊢
      set s' : Link := { s with conn := c, down := s.down ++ [{ msg, cause := x.cause }] } with hs'
      have hsame : s'.books.way = (s.down.map Arrival.cause).filter Cause.called ++
          ([x.cause].filter Cause.called ++ c.carried) := by
        rw [Link.books, List.map_append, List.filter_append, List.append_assoc]
        rfl
      refine ⟨htracking, ?_, h.forwarded, fun hdead ↦ ?_⟩
      · rw [← hsame] at hok
        exact hok
      · rw [hsame, ← hway]
        exact h.dead hdead
    · rw [heq] at htracking ⊢
      refine ⟨htracking, ?_, h.forwarded, fun hdead ↦ ?_⟩
      · rcases hcall : x.cause.call with _ | n
        · rw [List.filter_cons_of_neg (by rw [Cause.called, hcall]; exact Bool.false_ne_true)]
            at hok
          rw [Option.toList_none, List.append_nil]
          exact hok
        · rw [List.filter_cons_of_pos (by rw [Cause.called, hcall]; rfl)] at hway
          have hperm : s.books.way.Perm
              (x.cause :: ((s.down.map Arrival.cause).filter Cause.called ++ c.carried)) := by
            rw [hway]
            exact List.perm_middle
          exact h.books.ignore hperm hcall
      · obtain ⟨hclosed, hnone⟩ := h.dead hdead
        rw [hway, List.append_eq_nil_iff, List.append_eq_nil_iff] at hnone
        exact ⟨hclosed, List.append_eq_nil_iff.mpr ⟨hnone.1, hnone.2.2⟩⟩
  next => exact fun _ ↦ h

/-- What is passed on for a call goes into the log, -/
private theorem log_relayed {c c' : PeerConnection} {d : Delivery} {n : ℕ}
    (relayed : c'.relayed = c.relayed ++ [d])
    (told : c'.told.filter Delivery.called = c.told.filter Delivery.called)
    (hcall : d.call = some n) : c'.log.Perm (d :: c.log) := by
  rw [log, List.filter_append, relayed, told, List.filter_append,
    List.filter_cons_of_pos (by rw [Delivery.called, hcall]; rfl), List.append_assoc, log,
    List.filter_append]
  exact List.perm_middle

/-- and nothing else does. -/
private theorem log_unchanged {c c' : PeerConnection} {a : Arrival}
    (h : Logged a c.relayed c'.relayed)
    (told : c'.told.filter Delivery.called = c.told.filter Delivery.called)
    (hcall : a.cause.call = none) : c'.log = c.log := by
  rw [log, log, List.filter_append, List.filter_append, told]
  rw [Logged] at h
  split at h
  · obtain ⟨d, hd, hdelivered⟩ := h
    rw [hd, List.filter_append, List.filter_cons_of_neg, List.filter_nil, List.append_nil]
    rw [Delivery.called, hdelivered.call, hcall]
    exact Bool.false_ne_true
  · rw [h]

/-- The hub handles the oldest frame. What it answers is passed on to the client that asked. -/
theorem Sound.receive (h : s.Sound) (drawn : List WordId) :
    (s.step (.receive drawn)).Sound := by
  have htracking := h.tracking.receive drawn
  revert htracking
  rw [step]
  split
  next a down _ hdown =>
    intro htracking
    set outside : Outside :=
      { peer := s.peer, isOpen := s.isOpen, drawn, call := a.cause.call } with houtside
    have htracked := h.tracking.tracked
    rw [hdown] at htracked
    have hcall : outside.call = a.cause.call := rfl
    obtain ⟨-, hlogged⟩ := htracked.receive hcall
    have hquiet := Quiet.onUpstream s.conn outside a.msg
    set c := s.conn.onUpstream outside a.msg with hc
    have hway : s.books.way = [a.cause].filter Cause.called ++
        ((down.map Arrival.cause).filter Cause.called ++ c.carried) := by
      rw [Link.books, hdown, List.map_cons, ← List.singleton_append, List.filter_append,
        List.append_assoc, hquiet.carried]
    have hok := h.books.forget hquiet.routes
    refine ⟨htracking, ?_, h.forwarded, fun hdead ↦ ?_⟩
    · rcases hacall : a.cause.call with _ | n
      · rw [List.filter_cons_of_neg (by rw [Cause.called, hacall]; exact Bool.false_ne_true)]
          at hway
        rw [List.filter_nil, List.nil_append] at hway
        rw [show s.books = { s.books with way := s.books.way, log := s.conn.log } from rfl, hway,
          ← log_unchanged hlogged hquiet.told hacall] at hok
        exact hok
      · rw [List.filter_cons_of_pos (by rw [Cause.called, hacall]; rfl)] at hway
        have hmem : a.cause ∈ s.books.way := by
          rw [hway]
          exact List.mem_cons_self
        obtain ⟨p, -, -, hsender, -⟩ := h.books.way a.cause hmem
        have howed : a.owed := by
          rw [Arrival.owed, hsender]
          rfl
        rw [Logged, if_pos howed] at hlogged
        obtain ⟨d, hd, hdelivered⟩ := hlogged
        have hdcall : d.call = some n := hdelivered.call.trans hacall
        have hlog : c.log.Perm (d :: s.conn.log) := log_relayed hd hquiet.told hdcall
        exact (h.books.deliver (.of_eq hway) hacall hlog hdcall hdelivered.sender).forget
          hquiet.routes
    · obtain ⟨hclosed, hnone⟩ := h.dead (hquiet.dead.symm.trans hdead)
      rw [hway, List.append_eq_nil_iff] at hnone
      exact ⟨hquiet.closed.trans hclosed, hnone.2⟩
  next => exact fun _ ↦ h

/-- A client's request on its way has its route. -/
private theorem routed_of_way (h : s.Sound) {cause : Cause} (hcause : cause ∈ s.books.way)
    {id : RequestId} (hid : cause.hubId = some id) :
    ∃ r, s.conn.routes.routes.lookup id = some r ∧ cause.call = some r.call := by
  have hclient : cause.sender ≠ .hub := by
    obtain ⟨p, -, -, hsender, -⟩ := h.books.way cause hcause
    rw [hsender]
    exact Requester.noConfusion
  have hwaiting : ∀ carried, (cause.waiting carried).id = some id := fun carried ↦ by
    rw [Cause.waiting, if_neg hclient]
    exact hid
  have hmem : ∃ carried, .msg (cause.waiting carried) ∈ pipeline s.conn.clientTx s.down := by
    rcases List.mem_append.mp hcause with hcause | hcause
    · obtain ⟨a, ha, rfl⟩ := List.mem_map.mp (List.mem_filter.mp hcause).1
      refine ⟨a.msg.replyRequestId, List.mem_append_left _ (List.mem_map.mpr ⟨a, ha, ?_⟩)⟩
      rw [Arrival.item]
      split
      next seq hmsg => exact absurd (h.tracking.tracked.own_down a ha (.inl ⟨seq, hmsg⟩)) hclient
      next => rfl
    · obtain ⟨x, hx, rfl⟩ := List.mem_map.mp (List.mem_filter.mp hcause).1
      refine ⟨x.msg.requestId?, List.mem_append_right _ (List.mem_map.mpr ⟨x, hx, ?_⟩)⟩
      rw [Sent.item]
      split
      next seq hmsg =>
        refine absurd (h.tracking.tracked.own_up x hx (.inl ?_)) hclient
        rw [hmsg]
        rfl
      next => rfl
  obtain ⟨carried, hmem⟩ := hmem
  obtain ⟨r, hr, -, -, hcall⟩ :=
    h.tracking.tracked.booked.routed _ hmem hclient id (hwaiting carried)
  exact ⟨r, hr, hcall⟩

/-- What the end of a link says for a call. -/
private theorem log_linkDown (c : PeerConnection) :
    c.linkDown.log.Perm (Books.failures c.routes.routes (fun route ↦
      .error (some route.requestId) .internalError
        "the peer became unreachable before it answered") ++ c.log) := by
  have hlocks : ∀ d ∈ c.inputLocks.entries.flatMap fun e ↦
      e.2.answer (.inputLockReleased e.1) none, d.call = none := by
    intro d hd
    obtain ⟨e, -, hd⟩ := List.mem_flatMap.mp hd
    rcases he : e.2 with _ | ⟨client, ctrl⟩
    · rw [he] at hd
      cases hd
    · rw [he] at hd
      rw [List.mem_singleton.mp hd]
  have hfailed : ∀ d ∈ Books.failures c.routes.routes (fun route ↦
      .error (some route.requestId) .internalError
        "the peer became unreachable before it answered"), d.called := by
    intro d hd
    obtain ⟨route, -, hd⟩ := List.mem_flatMap.mp hd
    rcases hroute : route.sender with _ | ⟨client, ctrl⟩
    · rw [hroute] at hd
      cases hd
    · rw [hroute] at hd
      rw [List.mem_singleton.mp hd]
      rfl
  rw [log, PeerConnection.linkDown, failInFlight_eq]
  dsimp only
  rw [List.filter_append, List.filter_append, List.filter_append, Quiet.note hlocks,
    List.append_nil, ← Books.failures, List.filter_eq_self.mpr hfailed, ← List.append_assoc,
    ← List.filter_append]
  exact List.perm_append_comm

/-- The link ends: what waits for an answer fails. -/
theorem Sound.linkDown (h : s.Sound) (hguard : s.Guarded .linkDown) :
    (s.step .linkDown).Sound := by
  have htracking := h.tracking.linkDown
  revert htracking
  rw [step]
  split
  next => exact fun _ ↦ h
  next heffect =>
    intro htracking
    rw [Bool.or_eq_true, not_or, Bool.not_eq_true, Bool.not_eq_true] at heffect
    obtain ⟨hlocks, hwaits⟩ := hguard heffect.1 heffect.2
    have hwaits' : ∀ id r, s.conn.routes.routes.lookup id = some r →
        s.books.answers r.call = 0 := fun id r hr ↦ hwaits r (Table.mem_values.mpr ⟨id, hr⟩)
    have hok := h.books.fail _ (log_linkDown s.conn) hwaits' hlocks fun cause hcause id hid ↦
      routed_of_way h hcause hid
    refine ⟨htracking, ?_, h.forwarded, fun _ ↦ ?_⟩
    · rw [Link.books, PeerConnection.linkDown, failInFlight_eq]
      rw [PeerConnection.linkDown, failInFlight_eq] at hok
      exact hok
    · rw [Link.books, PeerConnection.linkDown, failInFlight_eq]
      exact ⟨rfl, rfl⟩

/-- A new link carries nothing for a call. -/
theorem Sound.relink (h : s.Sound) (listed : List SessionEntry) (drawn : List WordId) :
    (s.step (.relink listed drawn)).Sound := by
  have htracking := h.tracking.relink listed drawn
  revert htracking
  rw [step]
  split
  next heffect =>
    intro htracking
    rw [Bool.and_eq_true, Bool.and_eq_true] at heffect
    have hnone := (h.dead heffect.1.1).2
    set c : PeerConnection :=
      { s.conn with dead := false, clientTx := { queue := [], closed := false }
                    routes := Routes.default } with hc
    have hplain : Plain c (s.conn.relink s.peer listed drawn) :=
      (Plain.reconcileSessions c s.peer listed drawn).trans (Plain.reattachPanes _)
    have hquiet := Quiet.of_plain hplain
    have hok : { s.books with
        routes := (s.conn.relink s.peer listed drawn).routes.routes }.Ok :=
      h.books.forget fun id r hr ↦ (by cases hquiet.routes id r hr)
    rw [show s.books = { s.books with way := s.books.way, log := s.conn.log } from rfl, hnone,
      ← log_eq (c := s.conn) hplain.relayed hquiet.told] at hok
    refine ⟨htracking, ?_, h.forwarded, fun hdead ↦ ?_⟩
    · rw [Link.books, hquiet.carried]
      exact hok
    · rw [hquiet.dead] at hdead
      cases hdead
  next => exact fun _ ↦ h

/-- **One step** that the ends of a link account for keeps the books right. -/
theorem Sound.step (h : s.Sound) (e : LinkEvent) (hguard : s.Guarded e) : (s.step e).Sound := by
  have htracking := h.tracking.step e
  cases e with
  | forward client ctrl msg found =>
    revert htracking
    rw [Link.step]
    split
    · split
      next target requestId hmsg =>
        split
        · refine h.enter client ctrl fun msg' hmsg' ↦ ?_
          rw [← Ask.forward.inj hmsg']
          exact ⟨target, requestId, hmsg⟩
        · exact h.refuse client ctrl _ _
      · exact h.refuse client ctrl _ _
    · exact fun _ ↦ h
  | requestInputLock client ctrl pane found =>
    revert htracking
    rw [Link.step]
    split
    · exact h.enter client ctrl fun msg hmsg ↦ (by cases hmsg)
    · exact h.refuse client ctrl _ _
  | proceed call => exact h.proceed hguard
  | releaseInputLock client ctrl pane =>
    have hplain := Plain.releaseInputLock s.conn (.client client ctrl) pane
    rw [Link.step]
    split
    next conn hresult =>
      rw [hresult] at hplain
      exact h.plain hplain
    next conn refusal hresult =>
      rw [hresult] at hplain
      exact h.plain (hplain.trans (Plain.tell _ _ _))
  | attachViewer pane client ctrl size => exact h.plain (Plain.attachViewer _ _ _ _ _)
  | resizeViewer pane client size => exact h.plain (Plain.resizeViewer _ _ _ _)
  | detachViewer pane client => exact h.plain (Plain.releaseViewer _ _ _)
  | detachChannel client ctrl => exact h.plain (Plain.detachChannel _ _ _)
  | dropViewer pane client => exact h.plain (Plain.dropViewer _ _ _)
  | resync pane => exact h.plain (Plain.resync _ _)
  | ping => exact h.quiet (Quiet.ping s.conn) rfl htracking
  | requestSessionList =>
    exact h.quiet (Quiet.requestSessionList s.conn) (send_relayed _ _ _ _) htracking
  | sessionClosedEvent word => exact h.plain (Plain.remoteSessionClosed _ _ _)
  | serve answer => exact h.serve answer
  | receive drawn => exact h.receive drawn
  | hangUp => exact ⟨htracking, h.books, h.forwarded, fun hdead ↦ ⟨rfl, (h.dead hdead).2⟩⟩
  | linkDown => exact h.linkDown hguard
  | relink listed drawn => exact h.relink listed drawn
  | closePeer => exact ⟨htracking, h.books, h.forwarded, h.dead⟩
  | stopFeed =>
    revert htracking
    rw [Link.step]
    split
    · exact fun _ ↦ h
    next hopen =>
      intro htracking
      have hway := hguard (Bool.eq_false_of_not_eq_true hopen)
      exact ⟨htracking, h.books.stop hway, h.forwarded, h.dead⟩

theorem answers_eq (s : Link) (n : ℕ) : s.answers n = s.books.answers n := by
  rw [answers, Books.answers, Link.books, log, List.count_eq_countP, List.countP_map,
    List.countP_filter]
  refine List.countP_congr fun d _ ↦ ?_
  simp only [Function.comp_apply, Delivery.called, decide_eq_true_eq, Bool.and_eq_true, beq_iff_eq]
  constructor
  · intro h
    exact ⟨h, by rw [h]; rfl⟩
  · exact fun h ↦ h.1

/-- What is on its way on a link that is fed keeps its call waiting. -/
theorem waits_of_travels {n : ℕ} (hstopped : s.stopped = false)
    (h : 0 < s.books.travels n) : s.Waits n := by
  obtain ⟨cause, hcause, hcall⟩ := List.mem_map.mp (List.count_pos_iff.mp h)
  refine .inr ⟨hstopped, ?_⟩
  rcases List.mem_append.mp hcause with hcause | hcause
  · obtain ⟨a, ha, rfl⟩ := List.mem_map.mp (List.mem_filter.mp hcause).1
    exact .inl ⟨a, ha, hcall⟩
  · obtain ⟨x, hx, rfl⟩ := List.mem_map.mp (List.mem_filter.mp hcause).1
    exact .inr ⟨x, hx, hcall⟩

/-- Sound books are settled. -/
theorem Sound.settled (h : s.Sound) : s.Settled := by
  intro p hp hdue
  refine ⟨fun d hd hcall ↦ ?_, ?_⟩
  · have hlog : d ∈ s.books.log := List.mem_filter.mpr ⟨hd, by rw [Delivery.called, hcall]; rfl⟩
    obtain ⟨q, hq, hqcall, hsender⟩ := h.books.log d hlog
    obtain rfl : p = q := h.books.eq_of_call hp hq (Option.some.inj (hcall.symm.trans hqcall))
    obtain ⟨hclient, hctrl⟩ := Requester.client.inj hsender
    exact ⟨hclient.symm, hctrl.symm⟩
  · rw [answers_eq]
    have honce := h.books.once p.call
    rw [Books.held] at honce
    rcases h.books.settled p hp hdue with hheld | hsilent
    · rw [Books.held] at hheld
      by_cases hanswers : s.books.answers p.call = 1
      · exact .inl hanswers
      · refine .inr ⟨by omega, .inl ?_⟩
        rcases Nat.eq_zero_or_pos (s.books.pends p.call) with hpends | hpends
        · refine waits_of_travels ?_ (by omega)
          rcases hstopped : s.stopped with _ | _
          · rfl
          · have htravels := h.books.stopped hstopped p hp hdue
            omega
        · obtain ⟨q, hq, hcall⟩ := List.mem_map.mp (List.count_pos_iff.mp hpends)
          exact .inl ⟨q, hq, hcall⟩
    · by_cases hanswers : s.books.answers p.call = 1
      · exact .inl hanswers
      · exact .inr ⟨by omega, .inr hsilent⟩

/-- **Nothing forwarded is dropped unanswered**, in a run whose steps the ends of the link account
for: after every step of it, every forwarded request with an id and every lock request has been
answered once and to its sender, or still waits, or the peer gave it no answer. -/
theorem requests_settled (peer : PeerId) (es : List LinkEvent)
    (h : Run.Ok Link.step Guarded (new peer) es) (n : ℕ) :
    (Run.exec Link.step (new peer) (es.take n)).Settled := by
  have hstep : ∀ (s : Link) (e : LinkEvent), s.Sound → s.Guarded e → (s.step e).Sound :=
    fun _ e hs hguard ↦ hs.step e hguard
  rw [← List.take_append_drop n es, Run.ok_append] at h
  exact (Run.invariant_of_ok hstep _ (new peer) (sound_new peer) h.1).settled

instance decidableSettled (s : Link) : Decidable s.Settled := by
  unfold Settled Waits
  infer_instance

/-- A peer with one session, which the hub knows as `elm`. -/
def opened : List LinkEvent :=
  [.requestSessionList, .serve (some (.sessionListResult 2 [⟨"oak", "work", none, []⟩])),
    .receive ["elm"]]

-- a request that the peer answers, one that the end of the link fails, and one refused after it
theorem requests_settled_linkDown :
    (Run.exec Link.step (new "p") (opened ++
      [.forward 1 10 (.paneRequest .fetchHistory 7 ("elm", 0)) true, .proceed 0, .serve none,
        .serve (some (.historyLines 3 ("oak", 0))), .receive [],  .receive [],
        .forward 2 20 (.sessionRequest .tabClose 7 "elm") true, .proceed 1, .hangUp, .linkDown,
        .requestInputLock 2 20 ("elm", 0) false, .closePeer, .stopFeed])).Settled := by
  have h := requests_settled "p" (opened ++
      [.forward 1 10 (.paneRequest .fetchHistory 7 ("elm", 0)) true, .proceed 0, .serve none,
        .serve (some (.historyLines 3 ("oak", 0))), .receive [],  .receive [],
        .forward 2 20 (.sessionRequest .tabClose 7 "elm") true, .proceed 1, .hangUp, .linkDown,
        .requestInputLock 2 20 ("elm", 0) false, .closePeer, .stopFeed]) (by decide +kernel) 16
  exact h

/-- Closing the peer answers nothing that is in flight; the end of the link loses a lock request,
and answers a rename that has been answered; and a closed channel drops a lock request. -/
theorem requests_not_settled :
    ¬ (Run.exec Link.step (new "p") (opened ++
      [.forward 1 10 (.paneRequest .fetchHistory 7 ("elm", 0)) true, .proceed 0, .closePeer,
        .stopFeed])).Settled ∧
    ¬ (Run.exec Link.step (new "p") (opened ++
      [.requestInputLock 1 10 ("elm", 0) true, .proceed 0, .linkDown])).Settled ∧
    ¬ (Run.exec Link.step (new "p") (opened ++
      [.linkDown, .requestInputLock 1 10 ("elm", 0) true, .proceed 0])).Settled ∧
    ¬ (Run.exec Link.step (new "p") (opened ++
      [.forward 1 10 (.sessionRequest .sessionRename 7 "elm") true, .proceed 0, .serve none,
        .serve (some (.sessionRenamed "oak")), .receive [], .receive [], .linkDown])).Settled := by
  decide +kernel

end Link

end Federation

end Kmux
