import Kmux.Federation.Pipeline
import Kmux.Federation.Plain

/-!
# Every answer goes to whoever asked

The bookkeeping of a connection stays right (`PeerConnection.Tracked`) through everything a hub
does: through each operation on its panes and locks, since these send plain messages only, through
every request that is forwarded or refused, and through every frame of the peer. So whenever the hub
passes an answer on, the route or the run it finds is that of the message the peer has answered.
-/

namespace Kmux

namespace Federation

open Barrier

/-! ## The connection -/

theorem pipeline_concat (tx : Outlet) (down : List Arrival) (x : Sent) :
    pipeline { tx with queue := tx.queue ++ [x] } down = pipeline tx down ++ [x.item] := by
  rw [pipeline, List.map_append, ← List.append_assoc]
  rfl

/-- The bookkeeping of a connection is right, the pings and lists on their way are the hub's own,
and what is on its way for a client carries the hub's id of its request, if it carries one. -/
structure PeerConnection.Tracked (c : PeerConnection) (down : List Arrival) : Prop where
  booked : Booked c.routes (pipeline c.clientTx down)
  drained : c.clientTx.closed = false →
    Drained Run.barrier (pipeline c.clientTx down) c.routes.runs
  own_up : ∀ x ∈ c.clientTx.queue, x.msg.isPing ∨ (∃ id, x.msg = .sessionList id) →
    x.cause.sender = .hub
  own_down : ∀ a ∈ down, (∃ seq, a.msg = .pong seq) ∨ (∃ id l, a.msg = .sessionListResult id l) →
    a.cause.sender = .hub
  carried_up : ∀ x ∈ c.clientTx.queue, x.cause.sender ≠ .hub → x.msg.requestId? = x.cause.hubId
  carried_down : ∀ a ∈ down, a.cause.sender ≠ .hub → ∀ id, a.msg.replyRequestId = some id →
    a.cause.hubId = some id

namespace PeerConnection.Tracked

variable {c c' : PeerConnection} {down : List Arrival}

/-- Only the routes and the channel are read. -/
theorem congr (h : c.Tracked down) (routes : c'.routes = c.routes)
    (clientTx : c'.clientTx = c.clientTx) : c'.Tracked down where
  booked := by rw [routes, clientTx]; exact h.booked
  drained := by rw [routes, clientTx]; exact h.drained
  own_up := by rw [clientTx]; exact h.own_up
  own_down := h.own_down
  carried_up := by rw [clientTx]; exact h.carried_up
  carried_down := h.carried_down

/-- The hub closes the open run, and the ping goes up if the channel takes it. -/
theorem ping (h : c.Tracked down) : c.ping.Tracked down := by
  rw [PeerConnection.ping, push, Outlet.send]
  by_cases hclosed : c.clientTx.closed
  · rw [if_pos hclosed, Option.getD_none]
    refine { h with booked := h.booked.ping, drained := fun hopen ↦ ?_ }
    exact absurd (hclosed.symm.trans hopen) Bool.noConfusion
  · rw [if_neg hclosed, Option.getD_some]
    have hopen : c.clientTx.closed = false := Bool.eq_false_of_not_eq_true hclosed
    refine ⟨?_, fun _ ↦ ?_, fun x hx hown ↦ ?_, h.own_down, fun x hx hclient ↦ ?_,
      h.carried_down⟩
    · rw [pipeline_concat]
      exact h.booked.ping.append_mark (Nat.lt_succ_self _)
    · dsimp only
      rw [pipeline_concat]
      left
      rcases List.eq_nil_or_concat c.routes.runs with hnil | ⟨runs, last, hruns⟩
      · have hping : c.routes.ping.1.runs = [] := by rw [Routes.ping, hnil]; rfl
        rw [hping]
        exact List.suffix_nil.mp (after_suffix _ _)
      · rw [List.concat_eq_append] at hruns
        have hdrained := h.drained hopen
        have hsame : ∀ item ∈ pipeline c.clientTx down, ∀ seq ∈ item.seq?,
            outlasts Run.barrier seq last =
              outlasts Run.barrier seq (Routes.closeRun c.routes.nextPing last) :=
          fun item hitem seq hseq ↦
            Booked.outlasts_closeRun (h.booked.marks item hitem seq hseq) last
        rw [Booked.runs_ping hruns]
        rw [hruns] at hdrained
        rcases hlast : last.barrier with _ | b
        · refine after_close hsame ?_ (hdrained.eq_of_open hlast)
          rw [Routes.closeRun, hlast]
          rfl
        · have hsame' : Routes.closeRun c.routes.nextPing last = last := by
            rw [Routes.closeRun, hlast]
            rfl
          rw [hsame', after_append, hdrained.eq_nil]
          · rfl
          · intro run hrun
            rw [List.getLast?_concat, Option.some.injEq] at hrun
            rw [← hrun, hlast]
            exact Option.some_ne_none b
    · rcases List.mem_append.mp hx with hx | hx
      · exact h.own_up x hx hown
      · rw [List.mem_singleton.mp hx]
        rfl
    · rcases List.mem_append.mp hx with hx | hx
      · exact h.carried_up x hx hclient
      · rw [List.mem_singleton.mp hx]
        rfl

/-- A new run, when the old one has been closed. -/
theorem pushRun (h : c.Tracked down) (sender : Requester)
    (hclosed : ∀ run, c.routes.runs.getLast? = some run → run.barrier ≠ none) :
    { c with routes := c.routes.pushRun sender }.Tracked down :=
  { h with
    booked := h.booked.pushRun sender
    drained := fun hopen ↦ Drained.concat ((h.drained hopen).eq_nil hclosed) rfl }

private theorem last_closed {routes : Routes} (h : routes.openRun = none) :
    ∀ run, routes.runs.getLast? = some run → run.barrier ≠ none := by
  intro run hrun hopen
  rw [Routes.openRun, hrun, Option.filter_some, hopen, Option.isNone_none, if_pos rfl] at h
  cases h

private theorem ping_closed {routes : Routes} :
    ∀ run, routes.ping.1.runs.getLast? = some run → run.barrier ≠ none := by
  intro run hrun
  rcases List.eq_nil_or_concat routes.runs with hnil | ⟨runs, last, hruns⟩
  · rw [Routes.ping, hnil] at hrun
    cases hrun
  · rw [List.concat_eq_append] at hruns
    rw [Booked.runs_ping hruns, List.getLast?_concat] at hrun
    rw [← Option.some.inj hrun, Routes.closeRun]
    split
    next => exact Option.some_ne_none _
    next hlast => exact fun hnone ↦ hlast (by rw [hnone]; rfl)

private theorem openRun_eq_some {routes : Routes} {run : Run} (h : routes.openRun = some run) :
    ∃ runs, routes.runs = runs ++ [run] ∧ run.barrier = none := by
  obtain ⟨hlast, hopen⟩ := Option.filter_eq_some_iff.mp h
  obtain ⟨runs, hruns⟩ := List.getLast?_eq_some_iff.mp hlast
  exact ⟨runs, hruns, Option.isNone_iff_eq_none.mp hopen⟩

/-- After its barrier the open run is the sender's. -/
theorem barrier (h : c.Tracked down) (sender : Requester) :
    (c.barrier sender).Tracked down ∧ (c.barrier sender).routes.OpenFor sender := by
  rw [PeerConnection.barrier, Routes.sent]
  rcases hopen : c.routes.openRun with _ | run
  · exact ⟨h.pushRun sender (last_closed hopen), c.routes.runs, _, rfl, rfl, rfl⟩
  · dsimp only
    by_cases hsame : run.sender = sender
    · rw [if_pos hsame]
      obtain ⟨runs, hruns, hrun⟩ := openRun_eq_some hopen
      exact ⟨h, runs, run, hruns, hsame, hrun⟩
    · rw [if_neg hsame]
      exact ⟨(h.ping.pushRun sender ping_closed).congr rfl rfl, c.routes.ping.1.runs, _, rfl, rfl,
        rfl⟩

/-- A message that fits the open run goes up, if the channel takes it. -/
theorem push {x : Sent} (h : c.Tracked down) (hopen : c.routes.OpenFor x.cause.sender)
    (hping : x.msg.isPing = false) (hlist : (∃ id, x.msg = .sessionList id) → x.cause.sender = .hub)
    (hcarried : x.cause.sender ≠ .hub → x.msg.requestId? = x.cause.hubId)
    (hid : ∀ id, x.msg.requestId? = some id → id < c.routes.nextId ∧
      id ∉ (pipeline c.clientTx down).filterMap Item.id? ∧
      (x.cause.sender = .hub → c.routes.routes.lookup id = none) ∧
      (x.cause.sender ≠ .hub → (∃ route, c.routes.routes.lookup id = some route ∧
        route.Serves { cause := x.cause, id := some id }) ∧
        ∀ run ∈ c.routes.runs.getLast?, id ∈ run.routed)) : (c.push x).Tracked down := by
  rw [PeerConnection.push, Outlet.send]
  by_cases hclosed : c.clientTx.closed
  · rw [if_pos hclosed, Option.getD_none]
    exact h
  · rw [if_neg hclosed, Option.getD_some]
    obtain ⟨runs, last, hruns, hsender, hlast⟩ := hopen
    have hopen : c.clientTx.closed = false := Bool.eq_false_of_not_eq_true hclosed
    have hdrained := h.drained hopen
    have hitem : x.item = .msg { cause := x.cause, id := x.msg.requestId? } := by
      rw [Sent.item]
      split
      next heq =>
        rw [heq] at hping
        cases hping
      next =>
        rw [Cause.waiting]
        split
        next => rfl
        next hclient => rw [hcarried hclient]
    have hafter : after Run.barrier (pipeline c.clientTx down) c.routes.runs = [last] := by
      rw [hruns] at hdrained ⊢
      exact hdrained.eq_of_open hlast
    refine ⟨?_, fun _ ↦ ?_, fun x' hx' hown ↦ ?_, h.own_down, fun x' hx' ↦ ?_, h.carried_down⟩
    · rw [pipeline_concat, hitem]
      refine h.booked.append_msg hafter ⟨hsender, fun hclient id heq ↦ ?_⟩ (fun id heq ↦ ?_)
        (fun hclient id heq ↦ ?_) (fun hhub id heq ↦ ?_)
      · refine ((hid id heq).2.2.2 hclient).2 last ?_
        rw [hruns, List.getLast?_concat]
        rfl
      · exact ⟨(hid id heq).1, (hid id heq).2.1⟩
      · have hroute := ((hid id heq).2.2.2 hclient).1
        exact hroute
      · exact (hid id heq).2.2.1 hhub
    · dsimp only
      rw [pipeline_concat, hitem, Drained, after_append]
      exact hdrained
    · rcases List.mem_append.mp hx' with hx' | hx'
      · exact h.own_up x' hx' hown
      · rw [List.mem_singleton.mp hx'] at hown ⊢
        rcases hown with hown | hown
        · rw [hping] at hown
          cases hown
        · exact hlist hown
    · rcases List.mem_append.mp hx' with hx' | hx'
      · exact h.carried_up x' hx'
      · rw [List.mem_singleton.mp hx']
        exact hcarried

/-- A plain message, on anyone's behalf. -/
theorem send (h : c.Tracked down) (sender : Requester) {msg : ClientMessage}
    (hping : msg.isPing = false) (hid : msg.requestId? = none) (call : Option ℕ) :
    (c.send sender msg call).Tracked down := by
  obtain ⟨hbarrier, hopen⟩ := h.barrier sender
  refine hbarrier.push hopen hping ?_ (fun _ ↦ hid) fun id heq ↦ ?_
  · rintro ⟨id, hmsg⟩
    rw [show msg = .sessionList id from hmsg] at hid
    cases hid
  · rw [show msg.requestId? = some id from heq] at hid
    cases hid

/-- So every operation that only sends such messages is tracked. -/
theorem plain (h : c.Tracked down) (hplain : Plain c c') : c'.Tracked down := by
  induction hplain with
  | keep routes clientTx dead relayed told => exact h.congr routes clientTx
  | send c sender msg hping hid => exact h.send sender hping hid none
  | trans _ _ ih ih' => exact ih' (ih h)

/-- A barrier leaves the ids alone. -/
private theorem barrier_ids (c : PeerConnection) (sender : Requester) (down : List Arrival) :
    (c.barrier sender).routes.nextId = c.routes.nextId ∧
      (c.barrier sender).routes.routes = c.routes.routes ∧
      (pipeline (c.barrier sender).clientTx down).filterMap Item.id? =
        (pipeline c.clientTx down).filterMap Item.id? := by
  rw [PeerConnection.barrier, Routes.sent]
  rcases c.routes.openRun with _ | run
  · exact ⟨rfl, rfl, rfl⟩
  · dsimp only
    by_cases hsame : run.sender = sender
    · rw [if_pos hsame]
      exact ⟨rfl, rfl, rfl⟩
    · rw [if_neg hsame]
      refine ⟨rfl, rfl, ?_⟩
      dsimp only [PeerConnection.push, Outlet.send]
      split
      · rfl
      · rw [Option.getD_some, pipeline_concat, List.filterMap_append]
        exact List.append_nil _

/-- The hub asks for the session list, under an id of its own. -/
theorem requestSessionList (h : c.Tracked down) : c.requestSessionList.Tracked down := by
  set c' : PeerConnection := { c with routes := c.routes.takeId.1 } with hc'
  have h' : c'.Tracked down := { h with booked := h.booked.takeId }
  obtain ⟨hbarrier, hopen⟩ := h'.barrier .hub
  obtain ⟨hnext, hroutes, hids⟩ := barrier_ids c' .hub down
  refine hbarrier.push hopen rfl (fun _ ↦ rfl) (fun hclient ↦ absurd rfl hclient) fun id heq ↦ ?_
  obtain rfl : c.routes.nextId = id := Option.some.inj heq
  rw [hnext, hroutes, hids]
  refine ⟨Nat.lt_succ_self _, h.booked.nextId_not_mem, fun _ ↦ ?_, fun hclient ↦ ?_⟩
  · rcases hlookup : c'.routes.routes.lookup c.routes.nextId with _ | route
    · rfl
    · exact absurd (h.booked.fresh_routes _ route hlookup) (Nat.lt_irrefl _)
  · exact absurd rfl hclient

/-! ### Requests of the clients -/

/-- A target keeps its kind when it is rewritten. -/
private theorem retarget_ok {c : PeerConnection} {writer : Option Requester}
    {target remote : Target} (h : c.retarget writer target = .ok remote) :
    (∃ word word', target = .session word ∧ remote = .session word') ∨
      (∃ pane pane', target = .pane pane ∧ remote = .pane pane') ∨
      (∃ peer peer', target = .peer peer ∧ remote = .peer peer') := by
  have hpane : ∀ pane, c.remotePane pane = .ok remote → ∃ pane', remote = .pane pane' := by
    intro pane h
    rw [remotePane] at h
    split at h
    · exact ⟨_, (Except.ok.inj h).symm⟩
    · cases h
  cases target with
  | session word =>
    left
    rw [retarget] at h
    split at h
    · exact ⟨word, _, rfl, (Except.ok.inj h).symm⟩
    · cases h
  | pane pane =>
    right; left
    rw [retarget.eq_def] at h
    dsimp only at h
    split at h
    · split at h
      · cases h
      · obtain ⟨pane', rfl⟩ := hpane pane h
        exact ⟨pane, pane', rfl, rfl⟩
    · obtain ⟨pane', rfl⟩ := hpane pane h
      exact ⟨pane, pane', rfl, rfl⟩
  | peer peer =>
    right; right
    exact ⟨peer, none, rfl, (Except.ok.inj h).symm⟩

/-- A forwarded message is neither a ping nor a list, and is sent under the id it is given. -/
private theorem rewrite_facts {c : PeerConnection} {writer : Option Requester}
    {msg : ClientMessage} {target remote : Target} {requestId : Option RequestId}
    (hmsg : msg.federation = .forward target requestId)
    (hremote : c.retarget writer target = .ok remote) (id : RequestId) :
    (msg.rewrite remote (requestId.map fun _ ↦ id)).isPing = false ∧
      (∀ id', msg.rewrite remote (requestId.map fun _ ↦ id) ≠ .sessionList id') ∧
      (msg.rewrite remote (requestId.map fun _ ↦ id)).requestId? = requestId.map fun _ ↦ id := by
  have hlist : ∀ m : ClientMessage, m.federation ≠ .hub → ∀ id', m ≠ .sessionList id' := by
    rintro m hm id' rfl
    exact hm rfl
  rcases retarget_ok hremote with
    ⟨word, word', rfl, rfl⟩ | ⟨pane, pane', rfl, rfl⟩ | ⟨peer, peer', rfl, rfl⟩
  · cases msg with
    | sessionRequest kind requestId' word' =>
      obtain ⟨-, rfl⟩ := Disposition.forward.inj hmsg
      exact ⟨rfl, hlist _ Disposition.noConfusion, rfl⟩
    | sessionNudge kind word' =>
      obtain ⟨-, rfl⟩ := Disposition.forward.inj hmsg
      exact ⟨rfl, hlist _ Disposition.noConfusion, rfl⟩
    | sessionCreate requestId' peer => rcases peer with _ | peer <;> cases hmsg
    | _ => cases hmsg
  · cases msg with
    | paneRequest kind requestId' pane' =>
      obtain ⟨-, rfl⟩ := Disposition.forward.inj hmsg
      exact ⟨rfl, hlist _ Disposition.noConfusion, rfl⟩
    | paneInput kind pane' =>
      obtain ⟨-, rfl⟩ := Disposition.forward.inj hmsg
      exact ⟨rfl, hlist _ Disposition.noConfusion, rfl⟩
    | sessionCreate requestId' peer => rcases peer with _ | peer <;> cases hmsg
    | _ => cases hmsg
  · cases msg with
    | sessionCreate requestId' peer'' =>
      rcases peer'' with _ | peer''
      · cases hmsg
      · obtain ⟨-, rfl⟩ := Disposition.forward.inj hmsg
        exact ⟨rfl, fun _ h ↦ (by cases h), rfl⟩
    | _ => cases hmsg

/-- A route for a request of the sender whose run is open. -/
private theorem route (h : c.Tracked down) {sender : Requester} (hopen : c.routes.OpenFor sender)
    (route : Route) : { c with routes := (c.routes.route route).1 }.Tracked down ∧
      (c.routes.route route).1.OpenFor sender ∧
        ∀ run ∈ (c.routes.route route).1.runs.getLast?, c.routes.nextId ∈ run.routed := by
  obtain ⟨runs, last, hruns, hsender, hlast⟩ := hopen
  have hnew : (c.routes.route route).1.runs =
      runs ++ [{ last with routed := last.routed ++ [c.routes.nextId] }] := by
    rw [Routes.route, hruns, List.modifyLast_concat]
  refine ⟨{ h with booked := h.booked.route hruns route, drained := fun hclosed ↦ ?_ },
    ⟨runs, _, hnew, hsender, hlast⟩, ?_⟩
  · have hdrained := h.drained hclosed
    rw [hruns] at hdrained
    have hsame : ∀ item ∈ pipeline c.clientTx down, ∀ seq ∈ item.seq?,
        outlasts Run.barrier seq last =
          outlasts Run.barrier seq { last with routed := last.routed ++ [c.routes.nextId] } :=
      fun _ _ _ _ ↦ rfl
    dsimp only
    rw [hnew]
    exact .inr ⟨_, after_replace_last hsame (hdrained.eq_of_open hlast), hlast⟩
  · intro run hrun
    rw [hnew, List.getLast?_concat, Option.mem_some_iff] at hrun
    rw [← hrun]
    exact List.mem_append_right _ List.mem_cons_self

private theorem push_eq {x : Sent} {tx : Outlet} (h : c.clientTx.send x = some tx) :
    c.push x = { c with clientTx := tx } := by
  rw [PeerConnection.push, h, Option.getD_some]

private theorem closed_of_send {tx : Outlet} {x : Sent} (h : tx.send x = none) :
    tx.closed = true := by
  rw [Outlet.send] at h
  split at h
  · assumption
  · cases h

/-- A request that is forwarded, or refused. -/
theorem forward (h : c.Tracked down) (call : ℕ) (client : ClientId) (ctrl : ChannelId)
    {msg : ClientMessage} {target : Target} {requestId : Option RequestId}
    (hmsg : msg.federation = .forward target requestId) :
    (c.forward call (.client client ctrl) msg target requestId).1.Tracked down := by
  rw [PeerConnection.forward.eq_def]
  split
  · exact h
  · split
    · exact h
    next remote hremote =>
      obtain ⟨hbarrier, hopen⟩ := h.barrier (.client client ctrl)
      set c' := c.barrier (.client client ctrl) with hc'
      have hrewrite := rewrite_facts hmsg hremote
      dsimp only
      rcases requestId with _ | rid
      · obtain ⟨hping, hlist, hid⟩ := hrewrite 0
        dsimp only
        split
        next tx htx =>
          rw [← push_eq htx]
          refine hbarrier.push hopen hping (fun hex ↦ absurd hex (not_exists.mpr hlist))
            (fun _ ↦ hid) ?_
          intro id heq
          rw [show (msg.rewrite remote none).requestId? = none from hid] at heq
          cases heq
        next => exact hbarrier
      · obtain ⟨hping, hlist, hid⟩ := hrewrite c'.routes.nextId
        set new : Route := { sender := .client client ctrl, requestId := rid
                             localWord := target.localWord, call } with hnew
        obtain ⟨hroute, hopen', hlisted⟩ := hbarrier.route hopen new
        dsimp only
        split
        next tx htx =>
          rw [← push_eq (c := { c' with routes := (c'.routes.route new).1 }) htx]
          refine hroute.push hopen' hping (fun hex ↦ absurd hex (not_exists.mpr hlist))
            (fun _ ↦ hid) ?_
          intro id heq
          obtain rfl : c'.routes.nextId = id := Option.some.inj (hid.symm.trans heq)
          refine ⟨Nat.lt_succ_self _, hbarrier.booked.nextId_not_mem, fun hhub ↦ ?_, fun _ ↦ ?_⟩
          · cases hhub
          · exact ⟨⟨new, AList.lookup_insert _, rfl, rfl, rfl⟩, hlisted⟩
        next hclosed =>
          refine { hroute with
            booked := hroute.booked.take hbarrier.booked.nextId_not_mem, drained := fun hopen ↦ ?_ }
          rw [show c'.clientTx.closed = true from closed_of_send hclosed] at hopen
          cases hopen

/-- A lock request that goes up, or is denied or refused. -/
theorem requestInputLock (h : c.Tracked down) (call : ℕ) (sender : Requester) (pane : PaneId) :
    (c.requestInputLock call sender pane).1.Tracked down := by
  have hask : (c.askForLock call sender pane).1.Tracked down := by
    rw [askForLock]
    split
    · exact h.send sender rfl rfl (some call)
    · exact h
  rw [PeerConnection.requestInputLock]
  split
  · split
    · exact h.congr rfl rfl
    · exact hask
  · exact hask

/-! ### Frames of the peer -/

/-- A message that has been handled leaves the pipeline. -/
private theorem tail {a : Arrival} {w : Waiting} (h : c.Tracked (a :: down))
    (hitem : a.item = .msg w) : c.Tracked down where
  booked := by
    have hbooked := h.booked
    rw [pipeline, List.map_cons, hitem] at hbooked
    exact hbooked.tail
  drained := fun hopen ↦ by
    have hdrained := h.drained hopen
    rw [pipeline, List.map_cons, hitem] at hdrained
    exact hdrained
  own_up := h.own_up
  own_down := fun a' ha' ↦ h.own_down a' (List.mem_cons_of_mem a ha')
  carried_up := h.carried_up
  carried_down := fun a' ha' ↦ h.carried_down a' (List.mem_cons_of_mem a ha')

/-- A pong drops the runs it closes. -/
private theorem receive_pong {cause : Cause} {seq : ℕ}
    (h : c.Tracked ({ msg := .pong seq, cause } :: down)) :
    { c with routes := c.routes.ponged seq }.Tracked down where
  booked := Booked.ponged h.booked
  drained := fun hopen ↦ by
    have hdrained := h.drained hopen
    dsimp only
    rw [Routes.ponged_runs]
    exact hdrained
  own_up := h.own_up
  own_down := fun a' ha' ↦ h.own_down a' (List.mem_cons_of_mem _ ha')
  carried_up := h.carried_up
  carried_down := fun a' ha' ↦ h.carried_down a' (List.mem_cons_of_mem _ ha')

end PeerConnection.Tracked

/-! ## Every answer goes home -/

/-- An answer that a client is waiting for. -/
def Arrival.owed (a : Arrival) : Bool := decide (a.cause.sender ≠ .hub)

/-- What a client is sent for a peer's answer: under its own id when the answer carries one, and the
same answer, except that a create may find no word left, and a grant may find another holder. -/
structure Delivered (a : Arrival) (d : Delivery) : Prop where
  sender : a.cause.sender = .client d.client d.ctrl
  call : d.call = a.cause.call
  id : d.msg.replyRequestId = if a.msg.replyRequestId.isSome then a.cause.requestId else none
  kind : d.msg.kind = a.msg.kind ∨ (a.msg.kind = .sessionCreated ∧ d.msg.kind = .error) ∨
    (a.msg.kind = .inputLockGranted ∧ d.msg.kind = .inputLockDenied)

/-- What one more answer does to the log. -/
def Logged (a : Arrival) (old new : List Delivery) : Prop :=
  if a.owed then ∃ d, new = old ++ [d] ∧ Delivered a d else new = old

namespace PeerConnection

/-- What a waiting request is answered: what the peer answered, or an error. -/
private theorem routedReply_facts (c : PeerConnection) (outside : Outside) (route : Route)
    {msg : ServerMessage} (hid : msg.replyRequestId.isSome) :
    ((c.routedReply outside route msg).2.kind = msg.kind ∨
        msg.kind = .sessionCreated ∧ (c.routedReply outside route msg).2.kind = .error) ∧
      ((c.routedReply outside route msg).2.replyRequestId.isSome ∨
        (c.routedReply outside route msg).2.kind = .error) := by
  rw [routedReply.eq_def]
  split
  next requestId entry =>
    dsimp only
    split
    · exact ⟨.inl rfl, .inl rfl⟩
    · exact ⟨.inr ⟨rfl, rfl⟩, .inr rfl⟩
  next =>
    split
    · exact ⟨.inl (ServerMessage.kind_localizeReply _ _), .inl (by
        rw [ServerMessage.replyRequestId_localizeReply]
        exact hid)⟩
    · exact ⟨.inl rfl, .inl hid⟩

/-- An answer whose route is waiting is passed on. -/
theorem answerRouted_some {c : PeerConnection} {msg : ServerMessage} {id : RequestId}
    {route : Route} (hid : msg.replyRequestId = some id)
    (hroute : c.routes.routes.lookup id = some route) (outside : Outside) :
    ∃ c' c'' reply, c.answerRouted outside msg = some c'' ∧
      Plain { c with routes := (c.routes.take id).1 } c' ∧
      Plain (c'.relay route.sender reply outside.call) c'' ∧
      (reply.kind = msg.kind ∨ msg.kind = .sessionCreated ∧ reply.kind = .error) ∧
      reply.replyRequestId = some route.requestId := by
  set c₀ : PeerConnection := { c with routes := (c.routes.take id).1 } with hc₀
  have hsome : msg.replyRequestId.isSome := by
    rw [hid]
    rfl
  obtain ⟨hkind, hcarries⟩ := routedReply_facts c₀ outside route hsome
  refine ⟨(c₀.routedReply outside route msg).1, _,
    (c₀.routedReply outside route msg).2.setReplyRequestId route.requestId, ?_,
    Plain.routedReply c₀ outside route msg, Plain.afterReply _ outside msg, ?_, ?_⟩
  · rw [answerRouted, hid]
    simp only [Option.bind_eq_bind, Option.bind_some, Routes.take, hroute]
    rfl
  · rw [ServerMessage.kind_setReplyRequestId]
    exact hkind
  · exact ServerMessage.replyRequestId_setReplyRequestId hcarries _

/-- One that nobody is waiting for is not. -/
theorem answerRouted_none {c : PeerConnection} {msg : ServerMessage} (outside : Outside)
    (h : ∀ id, msg.replyRequestId = some id → c.routes.routes.lookup id = none) :
    c.answerRouted outside msg = none := by
  rw [answerRouted]
  rcases hid : msg.replyRequestId with _ | id
  · rfl
  · simp only [Option.bind_eq_bind, Option.bind_some, Routes.take, h id hid, Option.bind_none]

private theorem onLockReply_facts (c : PeerConnection) (sender : Requester)
    {msg : ServerMessage} (h : msg.unrequested) :
    ((c.onLockReply sender msg).2.kind = msg.kind ∨
        msg.kind = .inputLockGranted ∧ (c.onLockReply sender msg).2.kind = .inputLockDenied) ∧
      (c.onLockReply sender msg).2.replyRequestId = none := by
  rw [onLockReply.eq_def]
  split
  · split
    · split
      · exact ⟨.inr ⟨rfl, rfl⟩, rfl⟩
      · exact ⟨.inl rfl, rfl⟩
    · exact ⟨.inl rfl, rfl⟩
  · exact ⟨.inl rfl, rfl⟩
  · exact ⟨.inl rfl, rfl⟩
  · exact ⟨.inl rfl, ServerMessage.replyRequestId_eq_none_of_unrequested h⟩

/-- An answer without an id is passed on to the sender of the oldest run. -/
theorem answerUnrequested_some {c : PeerConnection} {msg : ServerMessage} {sender : Requester}
    (h : msg.unrequested) (hfront : c.routes.front = some sender) (outside : Outside) :
    ∃ c' reply, Plain c c' ∧
      c.answerUnrequested outside msg = some (c'.relay sender reply outside.call) ∧
      (reply.kind = msg.kind ∨ msg.kind = .inputLockGranted ∧ reply.kind = .inputLockDenied) ∧
      reply.replyRequestId = none := by
  rw [answerUnrequested, if_pos h, hfront]
  dsimp only
  split
  next word _ =>
    have hlocal : (msg.localizeReply word).unrequested := by
      rw [ServerMessage.unrequested_localizeReply]
      exact h
    obtain ⟨hkind, hid⟩ := onLockReply_facts c sender hlocal
    rw [ServerMessage.kind_localizeReply] at hkind
    exact ⟨_, _, Plain.onLockReply c sender _, rfl, hkind, hid⟩
  next =>
    obtain ⟨hkind, hid⟩ := onLockReply_facts c sender h
    exact ⟨_, _, Plain.onLockReply c sender _, rfl, hkind, hid⟩

private theorem onUpstream_answer (c : PeerConnection) (outside : Outside) {msg : ServerMessage}
    (h : msg.replyRequestId.isSome ∨ msg.unrequested) : c.onUpstream outside msg =
      ((c.answerRouted outside msg).or (c.answerUnrequested outside msg)).getD c := by
  cases msg with
  | pong | sessionListResult => rcases h with h | h <;> cases h
  | _ => rfl

private theorem classify (msg : ServerMessage) :
    (∃ seq, msg = .pong seq) ∨ (∃ id l, msg = .sessionListResult id l) ∨
      (∃ id, msg.replyRequestId = some id) ∨ msg.unrequested := by
  cases msg with
  | pong seq => exact .inl ⟨seq, rfl⟩
  | sessionListResult id l => exact .inr (.inl ⟨id, l, rfl⟩)
  | error requestId code message =>
    rcases requestId with _ | id
    · exact .inr (.inr (.inr rfl))
    · exact .inr (.inr (.inl ⟨id, rfl⟩))
  | sessionRenamed | inputLockGranted | inputLockDenied | inputLockReleased =>
    exact .inr (.inr (.inr rfl))
  | _ => exact .inr (.inr (.inl ⟨_, rfl⟩))

variable {c : PeerConnection} {down : List Arrival}

/-- An answer with an id: its route leads to the client that asked; the hub's own has none. -/
private theorem receive_routed {msg : ServerMessage} {cause : Cause} {id : RequestId}
    (h : c.Tracked ({ msg, cause } :: down)) (hid : msg.replyRequestId = some id)
    {outside : Outside} (hcall : outside.call = cause.call) :
    (c.onUpstream outside msg).Tracked down ∧
      Logged { msg, cause } c.relayed (c.onUpstream outside msg).relayed := by
  have hitem : Arrival.item { msg, cause } = .msg { cause, id := some id } := by
    rw [Arrival.item]
    split
    next heq =>
      rw [show msg = _ from heq] at hid
      cases hid
    next =>
      rw [Cause.waiting, hid]
      split
      next => rfl
      next hclient => rw [h.carried_down _ List.mem_cons_self hclient id hid]
  have hbooked := h.booked
  rw [pipeline, List.map_cons, hitem, List.cons_append] at hbooked
  have hmem : Item.msg { cause, id := some id } ∈
      Item.msg { cause, id := some id } :: pipeline c.clientTx down := List.mem_cons_self
  have htail := h.tail hitem
  rw [onUpstream_answer c outside (.inl (by rw [hid]; rfl)), Logged, Arrival.owed]
  by_cases hhub : cause.sender = .hub
  · rw [answerRouted_none outside, Option.none_or, answerUnrequested, if_neg, Option.getD_none,
      if_neg]
    · exact ⟨htail, rfl⟩
    · simpa using hhub
    · intro hunrequested
      rw [ServerMessage.replyRequestId_eq_none_of_unrequested hunrequested] at hid
      cases hid
    · intro id' hid'
      obtain rfl : id = id' := Option.some.inj (hid.symm.trans hid')
      exact hbooked.unrouted _ hmem hhub id rfl
  · obtain ⟨route, hroute, hsender, hrid, -⟩ := hbooked.routed _ hmem hhub id rfl
    obtain ⟨c', c'', reply, heq, hplain, hplain', hkind, hreply⟩ :=
      answerRouted_some hid hroute outside
    rw [heq, Option.some_or, Option.getD_some, if_pos (decide_eq_true hhub)]
    have hnodup := hbooked.ids_nodup
    rw [List.filterMap_cons_some (show Item.id? _ = some id from rfl), List.nodup_cons] at hnodup
    have htaken : { c with routes := (c.routes.take id).1 }.Tracked down :=
      { htail with booked := htail.booked.take hnodup.1 }
    have hrelayed : (c'.relay route.sender reply outside.call).Tracked down :=
      (htaken.plain hplain).congr rfl rfl
    refine ⟨hrelayed.plain hplain', ?_⟩
    rw [hplain'.relayed, ← show (c'.relayed : List Delivery) = c.relayed from hplain.relayed]
    rcases hclient : cause.sender with _ | ⟨client, ctrl⟩
    · exact absurd hclient hhub
    · rw [show route.sender = _ from hsender.trans hclient]
      refine ⟨_, rfl, hclient, hcall, ?_, hkind.imp_right Or.inl⟩
      rw [hid, Option.isSome_some, if_pos rfl]
      exact hreply.trans hrid.symm

private theorem item_unrequested {msg : ServerMessage} {cause : Cause} (h : msg.unrequested) :
    Arrival.item { msg, cause } = .msg (cause.waiting none) := by
  rw [Arrival.item]
  split
  next heq =>
    rw [show msg = _ from heq] at h
    cases h
  next => rw [ServerMessage.replyRequestId_eq_none_of_unrequested h]

/-- An answer without an id: the oldest run is its sender's. -/
theorem Tracked.front {a : Arrival} (h : c.Tracked (a :: down)) (hmsg : a.msg.unrequested) :
    c.routes.front = some a.cause.sender := by
  have haligned := h.booked.aligned
  rw [pipeline, List.map_cons, item_unrequested hmsg] at haligned
  obtain ⟨⟨run, hhead, hfits⟩, -⟩ := haligned
  rw [Routes.front, hhead, Option.map_some, hfits.1]
  rfl

/-- Such an answer is not looked for among the routes. -/
theorem onUpstream_unrequested (c : PeerConnection) (outside : Outside) {msg : ServerMessage}
    (h : msg.unrequested) : c.onUpstream outside msg =
      (c.answerUnrequested outside msg).getD c := by
  rw [onUpstream_answer c outside (.inr h), answerRouted_none outside fun id hid ↦ ?_,
    Option.none_or]
  rw [ServerMessage.replyRequestId_eq_none_of_unrequested h] at hid
  cases hid

private theorem receive_unrequested {msg : ServerMessage} {cause : Cause}
    (h : c.Tracked ({ msg, cause } :: down)) (hmsg : msg.unrequested) {outside : Outside}
    (hcall : outside.call = cause.call) :
    (c.onUpstream outside msg).Tracked down ∧
      Logged { msg, cause } c.relayed (c.onUpstream outside msg).relayed := by
  have hid := ServerMessage.replyRequestId_eq_none_of_unrequested hmsg
  have hfront := h.front hmsg
  obtain ⟨c', reply, hplain, heq, hkind, hreply⟩ := answerUnrequested_some hmsg hfront outside
  rw [onUpstream_unrequested c outside hmsg, heq, Option.getD_some, Logged, Arrival.owed]
  refine ⟨((h.tail (item_unrequested hmsg)).plain hplain).congr rfl rfl, ?_⟩
  rcases hclient : cause.sender with _ | ⟨client, ctrl⟩
  · rw [if_neg (by simp)]
    exact (List.append_nil _).trans hplain.relayed
  · rw [if_pos (by simp), ← hplain.relayed]
    refine ⟨⟨client, ctrl, reply, outside.call⟩, rfl, hclient, hcall, ?_, hkind.imp_right Or.inr⟩
    rw [hid]
    exact hreply

/-- **One frame.** -/
theorem Tracked.receive {a : Arrival} (h : c.Tracked (a :: down)) {outside : Outside}
    (hcall : outside.call = a.cause.call) :
    (c.onUpstream outside a.msg).Tracked down ∧
      Logged a c.relayed (c.onUpstream outside a.msg).relayed := by
  obtain ⟨msg, cause⟩ := a
  rcases classify msg with ⟨seq, rfl⟩ | ⟨id, l, rfl⟩ | ⟨id, hid⟩ | hmsg
  · have hhub : cause.sender = .hub :=
      h.own_down _ List.mem_cons_self (.inl ⟨seq, rfl⟩)
    refine ⟨h.receive_pong, ?_⟩
    rw [Logged, Arrival.owed, if_neg (by simp [hhub])]
    rfl
  · have hhub : cause.sender = .hub :=
      h.own_down _ List.mem_cons_self (.inr ⟨id, l, rfl⟩)
    have hplain : Plain c (c.onUpstream outside (.sessionListResult id l)) := by
      rw [onUpstream]
      split
      · exact Plain.reconcileSessions c _ l _
      · exact Plain.refl c
    refine ⟨(h.tail rfl).plain hplain, ?_⟩
    rw [Logged, Arrival.owed, if_neg (by simp [hhub])]
    exact hplain.relayed
  · exact receive_routed h hid hcall
  · exact receive_unrequested h hmsg hcall

end PeerConnection

/-! ## The link -/

namespace Link

open PeerConnection

/-- The bookkeeping is right, and so is everything passed on so far. -/
structure Tracking (s : Link) : Prop where
  tracked : s.conn.Tracked s.down
  delivered : List.Forall₂ Delivered (s.handled.filter Arrival.owed) s.conn.relayed

variable {s : Link}

theorem tracking_new (peer : PeerId) : (new peer).Tracking where
  tracked := {
    booked := Booked.empty rfl fun _ ↦ AList.lookup_empty _
    drained := fun _ ↦ .inl rfl
    own_up := by simp [new, PeerConnection.new]
    own_down := by simp [new]
    carried_up := by simp [new, PeerConnection.new]
    carried_down := by simp [new] }
  delivered := .nil

/-- A connection that is tracked and has passed nothing on. -/
theorem Tracking.of_tracked {s' : Link} (h : s.Tracking) (tracked : s'.conn.Tracked s'.down)
    (handled : s'.handled = s.handled) (relayed : s'.conn.relayed = s.conn.relayed) :
    s'.Tracking where
  tracked := tracked
  delivered := by
    rw [handled, relayed]
    exact h.delivered

theorem Tracking.plain {c : PeerConnection} (h : s.Tracking) (hplain : Plain s.conn c) :
    { s with conn := c }.Tracking :=
  h.of_tracked (h.tracked.plain hplain) rfl hplain.relayed

/-- The oldest message leaves the channel, and whatever takes its place in the pipeline fits. -/
private theorem tracked_serve {c : PeerConnection} {down arrivals : List Arrival} {x : Sent}
    {queue : List Sent} (h : c.Tracked down) (hqueue : c.clientTx.queue = x :: queue)
    (hbooked : Booked c.routes (down.map Arrival.item ++ x.item :: queue.map Sent.item) →
      Booked c.routes (down.map Arrival.item ++
        (arrivals.map Arrival.item ++ queue.map Sent.item)))
    (hafter : ∀ runs, after Run.barrier (arrivals.map Arrival.item) runs =
      after Run.barrier [x.item] runs)
    (hown : ∀ a ∈ arrivals, (∃ seq, a.msg = .pong seq) ∨
      (∃ id l, a.msg = .sessionListResult id l) → a.cause.sender = .hub)
    (hcarried : ∀ a ∈ arrivals, a.cause.sender ≠ .hub → ∀ id, a.msg.replyRequestId = some id →
      a.cause.hubId = some id) :
    { c with clientTx := { c.clientTx with queue } }.Tracked (down ++ arrivals) where
  booked := by
    have hold := h.booked
    rw [pipeline, hqueue, List.map_cons] at hold
    rw [pipeline, List.map_append, List.append_assoc]
    exact hbooked hold
  drained := fun hopen ↦ by
    have hold := h.drained hopen
    rw [pipeline, hqueue, List.map_cons, Drained, after_append,
      ← List.singleton_append, after_append] at hold
    rw [pipeline, List.map_append, List.append_assoc, Drained, after_append, after_append, hafter]
    exact hold
  own_up := fun x' hx' ↦ h.own_up x' (by rw [hqueue]; exact List.mem_cons_of_mem x hx')
  own_down := fun a ha ↦ by
    rcases List.mem_append.mp ha with ha | ha
    · exact h.own_down a ha
    · exact hown a ha
  carried_up := fun x' hx' ↦ h.carried_up x' (by rw [hqueue]; exact List.mem_cons_of_mem x hx')
  carried_down := fun a ha ↦ by
    rcases List.mem_append.mp ha with ha | ha
    · exact h.carried_down a ha
    · exact hcarried a ha

/-- An answer carries its message's id, or none. -/
private theorem answeredBy_id {msg : ClientMessage} {answer : ServerMessage}
    (h : msg.answeredBy answer) :
    answer.replyRequestId = msg.requestId? ∨ answer.replyRequestId = none := by
  rcases hid : answer.replyRequestId with _ | id
  · exact .inr rfl
  · left
    have hunrequested : answer.unrequested = false := by
      rcases hunrequested : answer.unrequested with _ | _
      · rfl
      · rw [ServerMessage.replyRequestId_eq_none_of_unrequested hunrequested] at hid
        cases hid
    rw [ClientMessage.answeredBy.eq_def] at h
    split at h
    · cases hid
    · cases hid
    · rw [hunrequested, Bool.false_or, Bool.and_eq_true, decide_eq_true_eq] at h
      exact hid.symm.trans h.2

private theorem item_of_not_ping {x : Sent} (h : x.msg.isPing = false) :
    x.item = .msg (x.cause.waiting x.msg.requestId?) := by
  rw [Sent.item]
  split
  next heq =>
    rw [heq] at h
    cases h
  next => rfl

private theorem item_of_answer {msg : ClientMessage} {answer : ServerMessage}
    (h : msg.answeredBy answer) (cause : Cause) : Arrival.item { msg := answer, cause } =
      .msg (cause.waiting answer.replyRequestId) := by
  cases answer with
  | pong => cases h
  | _ => rfl

/-- The peer handles the oldest message: an answer, if there is one, stands in its place. -/
theorem Tracking.serve (h : s.Tracking) (answer : Option ServerMessage) :
    (s.step (.serve answer)).Tracking := by
  rw [step]
  split
  next x queue hqueue =>
    -- a message that gets no answer loses its place
    have hsilent : x.msg.isPing = false →
        { s.conn with clientTx := { s.conn.clientTx with queue } }.Tracked s.down := by
      intro hping
      have hitem := item_of_not_ping hping
      have htracked : { s.conn with clientTx := { s.conn.clientTx with queue } }.Tracked
          (s.down ++ []) := by
        refine tracked_serve h.tracked hqueue (fun hbooked ↦ ?_) (fun runs ↦ ?_) (by simp)
          (by simp)
        · rw [hitem] at hbooked
          exact hbooked.lose
        · rw [hitem]
          rfl
      rw [List.append_nil] at htracked
      exact htracked
    rw [serveOne.eq_def]
    split
    -- the pong stands where the ping stood
    next seq hmsg =>
      refine h.of_tracked (tracked_serve h.tracked hqueue (fun hbooked ↦ ?_) (fun runs ↦ ?_) ?_
        ?_) rfl rfl
      · rw [Sent.item, hmsg] at hbooked
        exact hbooked
      · rw [Sent.item, hmsg]
        rfl
      · intro a ha _
        rw [List.mem_singleton.mp ha]
        refine h.tracked.own_up x (by rw [hqueue]; exact List.mem_cons_self) (.inl ?_)
        rw [hmsg]
        rfl
      · intro a ha _ id hid
        rw [List.mem_singleton.mp ha] at hid
        cases hid
    next msg hmsg =>
      have hping : x.msg.isPing = false := by
        rcases hx : x.msg with _ | _ | _ | _ | _ | _ | _ | _ | _ | _ | _ | seq
        all_goals first | rfl | exact absurd hx (hmsg seq)
      have hitem := item_of_not_ping hping
      dsimp only
      split
      next answer =>
        split
        next hanswers =>
          refine h.of_tracked (tracked_serve h.tracked hqueue (fun hbooked ↦ ?_) (fun runs ↦ ?_) ?_
            ?_) rfl rfl
          · rw [hitem] at hbooked
            rw [List.map_singleton, item_of_answer hanswers]
            -- the answer carries the id it was asked under, or none
            rcases answeredBy_id hanswers with hid | hid
            · rw [hid]
              exact hbooked
            · rw [hid]
              by_cases hhub : x.cause.sender = .hub
              · rw [Cause.waiting, if_pos hhub]
                rw [Cause.waiting, if_pos hhub] at hbooked
                exact hbooked.forgetId
              · rw [Cause.waiting, if_neg hhub]
                rw [Cause.waiting, if_neg hhub] at hbooked
                exact hbooked
          · rw [hitem, List.map_singleton, item_of_answer hanswers]
            rfl
          · intro a ha hown
            rw [List.mem_singleton.mp ha] at hown ⊢
            rcases hown with ⟨seq, hpong⟩ | ⟨id, l, hlist⟩
            · rw [show answer = .pong seq from hpong] at hanswers
              cases hanswers
            · rw [show answer = .sessionListResult id l from hlist] at hanswers
              refine h.tracked.own_up x (by rw [hqueue]; exact List.mem_cons_self) (.inr ⟨id, ?_⟩)
              exact of_decide_eq_true hanswers
          · intro a ha hclient id hid
            rw [List.mem_singleton.mp ha] at hclient hid ⊢
            have hcarried := h.tracked.carried_up x (by rw [hqueue]; exact List.mem_cons_self)
              hclient
            rcases answeredBy_id hanswers with hid' | hid'
            · rw [← hcarried, ← hid']
              exact hid
            · rw [show answer.replyRequestId = some id from hid] at hid'
              cases hid'
        next => exact h.of_tracked (hsilent hping) rfl rfl
      next => exact h.of_tracked (hsilent hping) rfl rfl
  next => exact h

theorem Tracking.receive (h : s.Tracking) (drawn : List WordId) :
    (s.step (.receive drawn)).Tracking := by
  rw [step]
  split
  next a down _ hdown =>
    have htracked := h.tracked
    rw [hdown] at htracked
    set outside : Outside :=
      { peer := s.peer, isOpen := s.isOpen, drawn, call := a.cause.call } with houtside
    have hcall : outside.call = a.cause.call := rfl
    obtain ⟨htracked, hlogged⟩ := htracked.receive hcall
    refine ⟨htracked, ?_⟩
    dsimp only
    rw [List.filter_append]
    rw [Logged] at hlogged
    by_cases howed : a.owed
    · rw [if_pos howed] at hlogged
      obtain ⟨d, hd, hdelivered⟩ := hlogged
      rw [hd, List.filter_cons_of_pos howed]
      exact List.rel_append h.delivered (.cons hdelivered .nil)
    · rw [if_neg howed] at hlogged
      rw [hlogged, List.filter_cons_of_neg howed, List.filter_nil, List.append_nil]
      exact h.delivered
  next => exact h

/-- A closed channel holds what it held. -/
theorem Tracking.hangUp (h : s.Tracking) : (s.step .hangUp).Tracking :=
  h.of_tracked { h.tracked with drained := fun hopen ↦ (by cases hopen) } rfl rfl

/-- The link ends: everything in flight is forgotten. -/
theorem Tracking.linkDown (h : s.Tracking) : (s.step .linkDown).Tracking := by
  rw [step]
  split
  · exact h
  · refine h.of_tracked ?_ rfl ?_
    · dsimp only
      rw [PeerConnection.linkDown, failInFlight_eq]
      exact ⟨Booked.empty rfl fun _ ↦ AList.lookup_empty _, fun hopen ↦ (by cases hopen),
        by simp, by simp, by simp, by simp⟩
    · dsimp only
      rw [PeerConnection.linkDown, failInFlight_eq]

/-- A new link starts with new routes. -/
theorem Tracking.relink (h : s.Tracking) (listed : List SessionEntry) (drawn : List WordId) :
    (s.step (.relink listed drawn)).Tracking := by
  rw [step]
  split
  · set c : PeerConnection :=
      { s.conn with dead := false, clientTx := { queue := [], closed := false }
                    routes := Routes.default }
    have htracked : c.Tracked [] :=
      ⟨Booked.empty rfl fun _ ↦ AList.lookup_empty _, fun _ ↦ .inl rfl, by simp [c], by simp,
        by simp [c], by simp⟩
    have hplain : Plain c (s.conn.relink s.peer listed drawn) :=
      (Plain.reconcileSessions c s.peer listed drawn).trans (Plain.reattachPanes _)
    exact h.of_tracked (htracked.plain hplain) rfl hplain.relayed
  · exact h

/-- A call that has locked the connection is forwarded or refused. -/
theorem Tracking.proceed (h : s.Tracking) (call : ℕ) : (s.step (.proceed call)).Tracking := by
  rw [step]
  split
  next p _ =>
    have hrun : (run s.conn p).1.Tracked s.down ∧ (run s.conn p).1.relayed = s.conn.relayed := by
      rw [run]
      split
      · split
        next hmsg =>
          exact ⟨h.tracked.forward p.call p.client p.ctrl hmsg, forward_relayed _ _ _ _ _ _⟩
        next => exact ⟨h.tracked, rfl⟩
      · exact ⟨h.tracked.requestInputLock p.call p.sender _, requestInputLock_relayed _ _ _ _⟩
    rw [settle.eq_def]
    split
    next conn hresult =>
      rw [hresult] at hrun
      exact h.of_tracked hrun.1 rfl hrun.2
    next conn refusal hresult =>
      rw [hresult] at hrun
      exact h.of_tracked (hrun.1.congr rfl rfl) rfl hrun.2
  next => exact h

/-- **One step** of the system keeps the bookkeeping right. -/
theorem Tracking.step (h : s.Tracking) (e : LinkEvent) : (s.step e).Tracking := by
  cases e with
  | forward client ctrl msg found =>
    rw [Link.step]
    split
    · split
      · split
        · exact h.of_tracked h.tracked rfl rfl
        · exact h.of_tracked (h.tracked.congr rfl rfl) rfl rfl
      · exact h.of_tracked (h.tracked.congr rfl rfl) rfl rfl
    · exact h
  | requestInputLock client ctrl pane found =>
    rw [Link.step]
    split
    · exact h.of_tracked h.tracked rfl rfl
    · exact h.of_tracked (h.tracked.congr rfl rfl) rfl rfl
  | proceed call => exact h.proceed call
  | releaseInputLock client ctrl pane =>
    have hplain := Plain.releaseInputLock s.conn (.client client ctrl) pane
    rw [Link.step]
    split
    next conn hresult =>
      rw [hresult] at hplain
      exact h.plain hplain
    next conn refusal hresult =>
      rw [hresult] at hplain
      exact h.plain (hplain.trans (Plain.tell _ _ _))
  | attachViewer pane client ctrl size => exact h.plain (Plain.attachViewer _ _ _ _ _)
  | resizeViewer pane client size => exact h.plain (Plain.resizeViewer _ _ _ _)
  | detachViewer pane client => exact h.plain (Plain.releaseViewer _ _ _)
  | detachChannel client ctrl => exact h.plain (Plain.detachChannel _ _ _)
  | dropViewer pane client => exact h.plain (Plain.dropViewer _ _ _)
  | resync pane => exact h.plain (Plain.resync _ _)
  | ping => exact h.of_tracked h.tracked.ping rfl rfl
  | requestSessionList =>
    exact h.of_tracked h.tracked.requestSessionList rfl (send_relayed _ _ _ _)
  | sessionClosedEvent word => exact h.plain (Plain.remoteSessionClosed _ _ _)
  | serve answer => exact h.serve answer
  | receive drawn => exact h.receive drawn
  | hangUp => exact h.hangUp
  | linkDown => exact h.linkDown
  | relink listed drawn => exact h.relink listed drawn
  | closePeer => exact h.of_tracked h.tracked rfl rfl
  | stopFeed =>
    rw [Link.step]
    split
    · exact h
    · exact h.of_tracked h.tracked rfl rfl

/-- **Every answer goes to whoever asked.** In every run, what the hub has passed on of the peer's
answers is, one for one and in order, what it has received for its clients: each goes to the client
and the channel that sent the message it answers, under the client's own id when it carries one. -/
theorem answers_delivered (peer : PeerId) (es : List LinkEvent) :
    List.Forall₂ Delivered ((Run.exec Link.step (new peer) es).handled.filter Arrival.owed)
      (Run.exec Link.step (new peer) es).conn.relayed := by
  have hstep : ∀ (s : Link) (e : LinkEvent), s.Tracking → (s.step e).Tracking :=
    fun _ e h ↦ h.step e
  exact (Run.invariant hstep es (new peer) (tracking_new peer)).delivered

-- two clients ask under the same id, and a signal between them is answered without one
example : (Run.exec Link.step (new "p")
    [.requestSessionList, .serve (some (.sessionListResult 2 [⟨"oak", "work", none, []⟩])),
      .receive ["elm"],
      .forward 1 10 (.paneRequest .fetchHistory 7 ("elm", 0)) true, .proceed 0,
      .forward 2 20 (.paneInput .signal ("elm", 0)) true, .proceed 1, .ping,
      .forward 3 30 (.sessionRequest .tabClose 7 "elm") true, .proceed 2,
      .serve none, .serve (some (.historyLines 3 ("oak", 0))), .serve none,
      .serve (some (.error none .paneNotFound "gone")), .serve none,
      .serve (some (.tabClosed 4 "oak")),
      .receive [], .receive [], .receive [], .receive [], .receive [], .receive []]).conn.relayed =
    [⟨1, 10, .historyLines 7 ("elm", 0), some 0⟩, ⟨2, 20, .error none .paneNotFound "gone", some 1⟩,
      ⟨3, 30, .tabClosed 7 "elm", some 2⟩] := by
  decide +kernel

end Link

end Federation

end Kmux
