import Kmux.Federation.Link
import Mathlib.Data.List.Flatten
import Mathlib.Data.List.ModifyLast

/-!
# The pipeline of a link and the hub's bookkeeping

The frames on their way down and the messages on their way up are one pipeline: the peer takes from
one end of it and adds to the other, in order, and each answer stands where its message stood. Over
this pipeline the runs of the hub are a barrier scheme (`Barrier.Aligned`): a message fits a run of
the same sender, and if it is a client's request, the run also has to list the hub's id of it, so
that a pong never forgets a route that is still needed.

`Booked` adds what the ids need: a client's request on its way has a route that leads back to it,
the hub's own has none, and no id is used twice. There is one lemma for each move of the
bookkeeping.
-/

namespace Kmux

namespace Federation

open Barrier

/-! ## The pipeline -/

/-- What is on its way because of a message, with the hub's id of it: for a client's request the one
it was sent under, even where the answer does not carry it, and for the hub's own the one that is
carried. -/
structure Waiting where
  cause : Cause
  id : Option RequestId
  deriving DecidableEq, Repr

/-- What is on its way under `cause`, carrying `id`. -/
def Cause.waiting (cause : Cause) (id : Option RequestId) : Waiting :=
  { cause, id := if cause.sender = .hub then id else cause.hubId }

def Sent.item (x : Sent) : Item Waiting :=
  match x.msg with
  | .ping seq => .mark seq
  | msg => .msg (x.cause.waiting msg.requestId?)

def Arrival.item (a : Arrival) : Item Waiting :=
  match a.msg with
  | .pong seq => .mark seq
  | msg => .msg (a.cause.waiting msg.replyRequestId)

/-- The pipeline, the oldest first. -/
def pipeline (tx : Outlet) (down : List Arrival) : List (Item Waiting) :=
  down.map Arrival.item ++ tx.queue.map Sent.item

/-- The hub's ids in a pipeline. -/
def Item.id? : Item Waiting → Option RequestId
  | .mark _ => none
  | .msg w => w.id

theorem filterMap_id?_mark (seq : ℕ) : [Item.mark seq].filterMap Item.id? = [] := rfl

theorem filterMap_id?_msg (w : Waiting) : [Item.msg w].filterMap Item.id? = w.id.toList := by
  rcases hid : w.id with _ | id
  · rw [List.filterMap_cons_none (by rw [Item.id?, hid])]
    rfl
  · rw [List.filterMap_cons_some (by rw [Item.id?, hid])]
    rfl

theorem mem_filterMap_id? {items : List (Item Waiting)} {id : RequestId} :
    id ∈ items.filterMap Item.id? ↔ ∃ w, .msg w ∈ items ∧ w.id = some id := by
  rw [List.mem_filterMap]
  constructor
  · rintro ⟨item, hitem, hid⟩
    rcases item with seq | w
    · cases hid
    · exact ⟨w, hitem, hid⟩
  · rintro ⟨w, hw, hid⟩
    exact ⟨.msg w, hw, hid⟩

/-- A message belongs to a run of its sender; a client's request is listed there. -/
def Run.Fits (run : Run) (w : Waiting) : Prop :=
  run.sender = w.cause.sender ∧
    (w.cause.sender ≠ .hub → ∀ id, w.id = some id → id ∈ run.routed)

/-- The run that is open is a sender's. -/
def Routes.OpenFor (routes : Routes) (sender : Requester) : Prop :=
  ∃ runs last, routes.runs = runs ++ [last] ∧ last.sender = sender ∧ last.barrier = none

/-- A route leads back to the request that is on its way. -/
def Route.Serves (route : Route) (w : Waiting) : Prop :=
  route.sender = w.cause.sender ∧ w.cause.requestId = some route.requestId ∧
    w.cause.call = some route.call

/-- The bookkeeping of the hub fits what is on its way. -/
structure Booked (routes : Routes) (items : List (Item Waiting)) : Prop where
  aligned : Aligned Run.barrier Run.Fits items routes.runs
  marks : ∀ item ∈ items, ∀ seq ∈ item.seq?, seq < routes.nextPing
  routed : ∀ w, .msg w ∈ items → w.cause.sender ≠ .hub → ∀ id, w.id = some id →
    ∃ route, routes.routes.lookup id = some route ∧ route.Serves w
  unrouted : ∀ w, .msg w ∈ items → w.cause.sender = .hub → ∀ id, w.id = some id →
    routes.routes.lookup id = none
  fresh : ∀ w, .msg w ∈ items → ∀ id, w.id = some id → id < routes.nextId
  fresh_runs : ∀ run ∈ routes.runs, ∀ id ∈ run.routed, id < routes.nextId
  fresh_routes : ∀ id route, routes.routes.lookup id = some route → id < routes.nextId
  ids_nodup : (items.filterMap Item.id?).Nodup
  runs_nodup : (routes.runs.flatMap Run.routed).Nodup

namespace Booked

variable {routes : Routes} {items items' : List (Item Waiting)}

/-- A new link has nothing on its way. -/
theorem empty (hruns : routes.runs = []) (hroutes : ∀ id, routes.routes.lookup id = none) :
    Booked routes [] where
  aligned := trivial
  marks := by simp
  routed := by simp
  unrouted := by simp
  fresh := by simp
  fresh_runs := by simp [hruns]
  fresh_routes := fun id route h ↦ by rw [hroutes id] at h; cases h
  ids_nodup := List.nodup_nil
  runs_nodup := by rw [hruns]; exact List.nodup_nil

/-! ### Sending -/

theorem outlasts_closeRun {seq q : ℕ} (h : seq < q) (run : Run) :
    outlasts Run.barrier seq run = outlasts Run.barrier seq (Routes.closeRun q run) := by
  rw [Routes.closeRun]
  split
  next hopen =>
    have hclosed : outlasts Run.barrier seq { run with barrier := some q } = true :=
      outlasts_of_lt rfl h
    rw [outlasts_of_open (Option.isNone_iff_eq_none.mp hopen), hclosed]
  next => rfl

theorem fits_closeRun {q : ℕ} {run : Run} {w : Waiting} (h : run.Fits w) :
    (Routes.closeRun q run).Fits w := by
  rw [Routes.closeRun]
  split
  · exact h
  · exact h

theorem routed_closeRun (q : ℕ) (run : Run) : (Routes.closeRun q run).routed = run.routed := by
  rw [Routes.closeRun]
  split <;> rfl

theorem runs_ping {runs : List Run} {last : Run} (h : routes.runs = runs ++ [last]) :
    routes.ping.1.runs = runs ++ [Routes.closeRun routes.nextPing last] := by
  rw [Routes.ping, h, List.modifyLast_concat]

/-- A ping closes the last run; whether it is sent makes no difference here. -/
theorem ping (h : Booked routes items) : Booked routes.ping.1 items := by
  have hmarks : ∀ item ∈ items, ∀ seq ∈ item.seq?, seq < routes.nextPing + 1 :=
    fun item hitem seq hseq ↦ Nat.lt_succ_of_lt (h.marks item hitem seq hseq)
  rcases List.eq_nil_or_concat routes.runs with hnil | ⟨runs, last, hruns⟩
  · have hping : routes.ping.1.runs = routes.runs := by rw [Routes.ping, hnil]; rfl
    refine { h with aligned := ?_, marks := hmarks, fresh_runs := ?_, runs_nodup := ?_ }
    · rw [hping]
      exact h.aligned
    · rw [hping]
      exact h.fresh_runs
    · rw [hping]
      exact h.runs_nodup
  · rw [List.concat_eq_append] at hruns
    have hping := runs_ping hruns
    refine { h with aligned := ?_, marks := hmarks, fresh_runs := ?_, runs_nodup := ?_ }
    · rw [hping]
      have haligned := h.aligned
      rw [hruns] at haligned
      refine haligned.replace_last (fun item hitem seq hseq ↦ ?_) fun w hw ↦ fits_closeRun hw
      exact outlasts_closeRun (h.marks item hitem seq hseq) last
    · rw [hping]
      intro run hrun id hid
      rcases List.mem_append.mp hrun with hrun | hrun
      · exact h.fresh_runs run (hruns ▸ List.mem_append_left _ hrun) id hid
      · rw [List.mem_singleton.mp hrun, routed_closeRun] at hid
        exact h.fresh_runs last (hruns ▸ List.mem_append_right _ List.mem_cons_self) id hid
    · have hnodup := h.runs_nodup
      rw [hruns, List.flatMap_append, List.flatMap_singleton] at hnodup
      rw [hping, List.flatMap_append, List.flatMap_singleton, routed_closeRun]
      exact hnodup

/-- And is on its way from then on. -/
theorem append_mark {seq : ℕ} (h : Booked routes items) (hseq : seq < routes.nextPing) :
    Booked routes (items ++ [Item.mark seq]) where
  aligned := h.aligned.append_mark seq
  marks := fun item hitem seq' hseq' ↦ by
    rcases List.mem_append.mp hitem with hitem | hitem
    · exact h.marks item hitem seq' hseq'
    · rw [List.mem_singleton.mp hitem] at hseq'
      obtain rfl : seq = seq' := Option.some.inj hseq'
      exact hseq
  routed := fun w hw ↦ h.routed w (by simpa using hw)
  unrouted := fun w hw ↦ h.unrouted w (by simpa using hw)
  fresh := fun w hw ↦ h.fresh w (by simpa using hw)
  fresh_runs := h.fresh_runs
  fresh_routes := h.fresh_routes
  ids_nodup := by
    rw [List.filterMap_append, filterMap_id?_mark, List.append_nil]
    exact h.ids_nodup
  runs_nodup := h.runs_nodup

theorem pushRun (h : Booked routes items) (sender : Requester) :
    Booked (routes.pushRun sender) items :=
  { h with
    aligned := h.aligned.concat rfl
    fresh_runs := fun run hrun id hid ↦ by
      rcases List.mem_append.mp hrun with hrun | hrun
      · exact h.fresh_runs run hrun id hid
      · rw [List.mem_singleton.mp hrun] at hid
        cases hid
    runs_nodup := by
      rw [Routes.pushRun, List.flatMap_append, List.flatMap_singleton, List.append_nil]
      exact h.runs_nodup }

/-- A message may follow when the open run fits it and its id, if it has one, is accounted for. -/
theorem append_msg {run : Run} {w : Waiting} (h : Booked routes items)
    (hafter : after Run.barrier items routes.runs = [run]) (hfits : run.Fits w)
    (hnew : ∀ id, w.id = some id → id < routes.nextId ∧ id ∉ items.filterMap Item.id?)
    (hrouted : w.cause.sender ≠ .hub → ∀ id, w.id = some id →
      ∃ route, routes.routes.lookup id = some route ∧ route.Serves w)
    (hunrouted : w.cause.sender = .hub → ∀ id, w.id = some id →
      routes.routes.lookup id = none) : Booked routes (items ++ [Item.msg w]) where
  aligned := h.aligned.append_msg hafter hfits
  marks := fun item hitem seq hseq ↦ by
    rcases List.mem_append.mp hitem with hitem | hitem
    · exact h.marks item hitem seq hseq
    · rw [List.mem_singleton.mp hitem] at hseq
      cases hseq
  routed := fun w' hw' ↦ by
    rcases List.mem_append.mp hw' with hw' | hw'
    · exact h.routed w' hw'
    · obtain rfl : w' = w := Item.msg.inj (List.mem_singleton.mp hw')
      exact hrouted
  unrouted := fun w' hw' ↦ by
    rcases List.mem_append.mp hw' with hw' | hw'
    · exact h.unrouted w' hw'
    · obtain rfl : w' = w := Item.msg.inj (List.mem_singleton.mp hw')
      exact hunrouted
  fresh := fun w' hw' id hid ↦ by
    rcases List.mem_append.mp hw' with hw' | hw'
    · exact h.fresh w' hw' id hid
    · obtain rfl : w' = w := Item.msg.inj (List.mem_singleton.mp hw')
      exact (hnew id hid).1
  fresh_runs := h.fresh_runs
  fresh_routes := h.fresh_routes
  ids_nodup := by
    rw [List.filterMap_append, filterMap_id?_msg]
    refine List.nodup_append.mpr ⟨h.ids_nodup, ?_, ?_⟩
    · rcases w.id with _ | id
      · exact List.nodup_nil
      · exact List.nodup_singleton id
    · rintro id hid id' hid' rfl
      exact (hnew id (Option.mem_toList.mp hid')).2 hid
  runs_nodup := h.runs_nodup

/-- The hub takes an id for a request of its own. -/
theorem takeId (h : Booked routes items) : Booked routes.takeId.1 items :=
  { h with
    fresh := fun w hw id hid ↦ Nat.lt_succ_of_lt (h.fresh w hw id hid)
    fresh_runs := fun run hrun id hid ↦ Nat.lt_succ_of_lt (h.fresh_runs run hrun id hid)
    fresh_routes := fun id route hid ↦ Nat.lt_succ_of_lt (h.fresh_routes id route hid) }

theorem nextId_not_mem (h : Booked routes items) :
    routes.nextId ∉ items.filterMap Item.id? := by
  intro hmem
  obtain ⟨w, hw, hid⟩ := mem_filterMap_id?.mp hmem
  exact Nat.lt_irrefl _ (h.fresh w hw _ hid)

/-- A route is recorded, and its id listed in the last run. -/
theorem route {runs : List Run} {last : Run} (h : Booked routes items)
    (hruns : routes.runs = runs ++ [last]) (route : Route) :
    Booked (routes.route route).1 items := by
  have hnew : (routes.route route).1.runs =
      runs ++ [{ last with routed := last.routed ++ [routes.nextId] }] := by
    rw [Routes.route, hruns, List.modifyLast_concat]
  have hlookup : ∀ id, id < routes.nextId →
      (routes.route route).1.routes.lookup id = routes.routes.lookup id := fun id hid ↦
    AList.lookup_insert_ne (Nat.ne_of_lt hid)
  have hlast : ∀ id ∈ last.routed, id < routes.nextId :=
    h.fresh_runs last (hruns ▸ List.mem_append_right _ List.mem_cons_self)
  refine ⟨?_, h.marks, ?_, ?_, ?_, ?_, ?_, h.ids_nodup, ?_⟩
  · rw [hnew]
    have haligned := h.aligned
    rw [hruns] at haligned
    have hsame : ∀ item ∈ items, ∀ seq ∈ item.seq?, outlasts Run.barrier seq last =
        outlasts Run.barrier seq { last with routed := last.routed ++ [routes.nextId] } :=
      fun _ _ _ _ ↦ rfl
    refine haligned.replace_last hsame fun w hw ↦ ⟨hw.1, fun hsender id hid ↦ ?_⟩
    exact List.mem_append_left _ (hw.2 hsender id hid)
  · intro w hw hsender id hid
    rw [hlookup id (h.fresh w hw id hid)]
    exact h.routed w hw hsender id hid
  · intro w hw hsender id hid
    rw [hlookup id (h.fresh w hw id hid)]
    exact h.unrouted w hw hsender id hid
  · exact fun w hw id hid ↦ Nat.lt_succ_of_lt (h.fresh w hw id hid)
  · rw [hnew]
    intro run hrun id hid
    rcases List.mem_append.mp hrun with hrun | hrun
    · exact Nat.lt_succ_of_lt (h.fresh_runs run (hruns ▸ List.mem_append_left _ hrun) id hid)
    · rw [List.mem_singleton.mp hrun] at hid
      rcases List.mem_append.mp hid with hid | hid
      · exact Nat.lt_succ_of_lt (hlast id hid)
      · rw [List.mem_singleton.mp hid]
        exact Nat.lt_succ_self _
  · intro id route' hid
    rcases Table.lookup_insert_eq_some hid with ⟨rfl, -⟩ | ⟨-, hid⟩
    · exact Nat.lt_succ_self _
    · exact Nat.lt_succ_of_lt (h.fresh_routes id route' hid)
  · have hnodup := h.runs_nodup
    rw [hruns, List.flatMap_append, List.flatMap_singleton] at hnodup
    rw [hnew, List.flatMap_append, List.flatMap_singleton, ← List.append_assoc]
    refine List.nodup_append.mpr ⟨hnodup, List.nodup_singleton _, ?_⟩
    rintro id hid id' hid' rfl
    rw [List.mem_singleton.mp hid'] at hid
    rcases List.mem_append.mp hid with hid | hid
    · obtain ⟨run, hrun, hid⟩ := List.mem_flatMap.mp hid
      exact Nat.lt_irrefl _ (h.fresh_runs run (hruns ▸ List.mem_append_left _ hrun) _ hid)
    · exact Nat.lt_irrefl _ (hlast _ hid)

/-- A route that nothing on its way needs may be taken. -/
theorem take {id : RequestId} (h : Booked routes items) (hid : id ∉ items.filterMap Item.id?) :
    Booked (routes.take id).1 items :=
  { h with
    routed := fun w hw hsender id' hid' ↦ by
      obtain ⟨route, hroute, hserves⟩ := h.routed w hw hsender id' hid'
      refine ⟨route, ?_, hserves⟩
      rw [Routes.take, AList.lookup_erase_ne]
      · exact hroute
      · rintro rfl
        exact hid (mem_filterMap_id?.mpr ⟨w, hw, hid'⟩)
    unrouted := fun w hw hsender id' hid' ↦ by
      rw [Routes.take, Table.lookup_erase_eq]
      split
      · rfl
      · exact h.unrouted w hw hsender id' hid'
    fresh_routes := fun id' route hid' ↦
      h.fresh_routes id' route (Table.lookup_erase_eq_some hid').2 }

/-! ### Receiving -/

/-- What is left of the pipeline when some of it is lost. -/
theorem of_sublist (h : Booked routes items) (hsub : items'.Sublist items)
    (haligned : Aligned Run.barrier Run.Fits items' routes.runs) : Booked routes items' where
  aligned := haligned
  marks := fun item hitem ↦ h.marks item (hsub.subset hitem)
  routed := fun w hw ↦ h.routed w (hsub.subset hw)
  unrouted := fun w hw ↦ h.unrouted w (hsub.subset hw)
  fresh := fun w hw ↦ h.fresh w (hsub.subset hw)
  fresh_runs := h.fresh_runs
  fresh_routes := h.fresh_routes
  ids_nodup := h.ids_nodup.sublist (hsub.filterMap _)
  runs_nodup := h.runs_nodup

theorem tail {w : Waiting} (h : Booked routes (.msg w :: items)) : Booked routes items :=
  h.of_sublist (List.sublist_cons_self _ items) h.aligned.2

/-- The id of a request on its way is listed in a run that no mark before it closes. -/
private theorem not_mem_closed {seq : ℕ} (h : Booked routes (.mark seq :: items)) {w : Waiting}
    (hw : .msg w ∈ items) (hsender : w.cause.sender ≠ .hub) {id : RequestId}
    (hid : w.id = some id) :
    ∀ run ∈ routes.runs.takeWhile fun run ↦ !outlasts Run.barrier seq run, id ∉ run.routed := by
  intro run hrun hmem
  have haligned : Aligned Run.barrier Run.Fits items (pass Run.barrier seq routes.runs) :=
    h.aligned
  obtain ⟨run', hrun', hfits⟩ := haligned.exists_fits hw
  have hnodup := h.runs_nodup
  rw [← List.takeWhile_append_dropWhile (p := fun run ↦ !outlasts Run.barrier seq run)
    (l := routes.runs), List.flatMap_append] at hnodup
  refine (List.nodup_append.mp hnodup).2.2 id (List.mem_flatMap.mpr ⟨run, hrun, hmem⟩) id ?_ rfl
  exact List.mem_flatMap.mpr ⟨run', hrun', hfits.2 hsender id hid⟩

/-- A pong comes through. -/
theorem ponged {seq : ℕ} (h : Booked routes (.mark seq :: items)) :
    Booked (routes.ponged seq) items where
  aligned := by
    rw [Routes.ponged_runs]
    exact h.aligned
  marks := fun item hitem ↦ h.marks item (List.mem_cons_of_mem _ hitem)
  routed := fun w hw hsender id hid ↦ by
    rw [Routes.ponged_lookup (h.not_mem_closed hw hsender hid)]
    exact h.routed w (List.mem_cons_of_mem _ hw) hsender id hid
  unrouted := fun w hw hsender id hid ↦ by
    rcases hlookup : (routes.ponged seq).routes.lookup id with _ | route
    · rfl
    · have hold := h.unrouted w (List.mem_cons_of_mem _ hw) hsender id hid
      rw [Routes.ponged_lookup_some hlookup] at hold
      cases hold
  fresh := fun w hw ↦ h.fresh w (List.mem_cons_of_mem _ hw)
  fresh_runs := fun run hrun ↦ by
    rw [Routes.ponged_runs] at hrun
    exact h.fresh_runs run ((pass_suffix seq routes.runs).subset hrun)
  fresh_routes := fun id route hid ↦ h.fresh_routes id route (Routes.ponged_lookup_some hid)
  ids_nodup := h.ids_nodup
  runs_nodup := by
    rw [Routes.ponged_runs]
    exact h.runs_nodup.sublist ((pass_suffix seq routes.runs).sublist.flatMap _)

/-- The peer handles a message without an answer. -/
theorem lose {w : Waiting} (h : Booked routes (items ++ Item.msg w :: items')) :
    Booked routes (items ++ items') := by
  refine h.of_sublist (List.Sublist.append_left (List.sublist_cons_self _ items') items) ?_
  have hnew : ∀ w' ∈ ([] : List Waiting), ∀ run, Run.Fits run w → Run.Fits run w' := by simp
  exact h.aligned.replace hnew

/-- The peer answers a message without its id. -/
theorem forgetId {w : Waiting} (h : Booked routes (items ++ Item.msg w :: items')) :
    Booked routes (items ++ Item.msg { w with id := none } :: items') := by
  have hmem : ∀ w' id, .msg w' ∈ items ++ Item.msg { w with id := none } :: items' →
      w'.id = some id → .msg w' ∈ items ++ Item.msg w :: items' := by
    intro w' id hw' hid
    rcases List.mem_append.mp hw' with hw' | hw'
    · exact List.mem_append_left _ hw'
    · rcases List.mem_cons.mp hw' with heq | hw'
      · rw [Item.msg.inj heq] at hid
        cases hid
      · exact List.mem_append_right _ (List.mem_cons_of_mem _ hw')
  refine ⟨?_, ?_, ?_, ?_, ?_, h.fresh_runs, h.fresh_routes, ?_, h.runs_nodup⟩
  · have hnew : ∀ w' ∈ [{ w with id := none }], ∀ run, Run.Fits run w → Run.Fits run w' := by
      intro w' hw' run hfits
      rw [List.mem_singleton.mp hw']
      exact ⟨hfits.1, fun _ id hid ↦ (by cases hid)⟩
    exact h.aligned.replace hnew
  · intro item hitem seq hseq
    rcases List.mem_append.mp hitem with hitem | hitem
    · exact h.marks item (List.mem_append_left _ hitem) seq hseq
    · rcases List.mem_cons.mp hitem with rfl | hitem
      · cases hseq
      · exact h.marks item (List.mem_append_right _ (List.mem_cons_of_mem _ hitem)) seq hseq
  · exact fun w' hw' hsender id hid ↦ h.routed w' (hmem w' id hw' hid) hsender id hid
  · exact fun w' hw' hsender id hid ↦ h.unrouted w' (hmem w' id hw' hid) hsender id hid
  · exact fun w' hw' id hid ↦ h.fresh w' (hmem w' id hw' hid) id hid
  · rw [List.filterMap_append, List.filterMap_cons_none rfl, ← List.filterMap_append]
    exact h.lose.ids_nodup

end Booked

end Federation

end Kmux
