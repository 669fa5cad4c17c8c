import Kmux.Federation.Messages
import Kmux.Lib.Barrier

/-!
# Where the answers to forwarded requests go

An answer that carries an id is found by that id: the hub sends every forwarded request under an id
of its own and keeps a `Route` from it back to the client. An answer that carries none belongs to
the oldest message that the peer may still be answering. The hub groups what it sends into runs, one
for each sender in a row; when the sender changes it pings the peer, and the `Pong` for that ping
marks the runs before it as answered in full.

`Route.call` numbers the requests of a run of the system; nothing reads it.
-/

namespace Kmux

namespace Federation

/-- Where the answer to one forwarded request goes. -/
structure Route where
  /-- The source's `from`. -/
  sender : Requester
  /-- The id it asked under. -/
  requestId : RequestId
  /-- The session the request named, by the requester's word; none for a create. -/
  localWord : Option WordId
  call : ℕ
  deriving DecidableEq, Repr

/-- What one sender sent in a row. -/
structure Run where
  sender : Requester
  /-- The hub's ids of its requests, whose routes go with it. -/
  routed : List RequestId
  /-- The ping sent after its last message, once something closed it. -/
  barrier : Option ℕ
  deriving DecidableEq, Repr

/-- The routes of one link. -/
structure Routes where
  nextId : RequestId
  nextPing : ℕ
  routes : Table Route
  /-- The oldest run first. -/
  runs : List Run

namespace Routes

/-- A new link's. The id 1 is the handshake's list. -/
def default : Routes := { nextId := 2, nextPing := 0, routes := ∅, runs := [] }

/-- An id for a request of the hub's own. -/
def takeId (r : Routes) : Routes × RequestId := ({ r with nextId := r.nextId + 1 }, r.nextId)

/-- The run that nothing has closed, if there is one. -/
def openRun (r : Routes) : Option Run := r.runs.getLast?.filter fun run ↦ run.barrier.isNone

/-- Close the open run, if there is one. -/
def closeRun (seq : ℕ) (run : Run) : Run :=
  if run.barrier.isNone then { run with barrier := some seq } else run

/-- The hub is pinging the peer, which closes the open run. -/
def ping (r : Routes) : Routes × ℕ :=
  ({ r with nextPing := r.nextPing + 1, runs := r.runs.modifyLast (closeRun r.nextPing) },
    r.nextPing)

/-- A run of `sender`, which has sent nothing yet. -/
def pushRun (r : Routes) (sender : Requester) : Routes :=
  { r with runs := r.runs ++ [{ sender, routed := [], barrier := none }] }

/-- `sender` is about to send. When that ends another sender's run, the second component is the
ping to send first. -/
def sent (r : Routes) (sender : Requester) : Routes × Option ℕ :=
  match r.openRun with
  | some run =>
    if run.sender = sender then (r, none)
    else (r.ping.1.pushRun sender, some r.ping.2)
  | none => (r.pushRun sender, none)

/-- Record a route for the request its sender is sending, and the id to send it under. -/
def route (r : Routes) (route : Route) : Routes × RequestId :=
  ({ r with
      nextId := r.nextId + 1
      routes := r.routes.insert r.nextId route
      runs := r.runs.modifyLast fun run ↦ { run with routed := run.routed ++ [r.nextId] } },
    r.nextId)

/-- The loop of `ponged`: runs are popped until one is still open or closed by a later ping. -/
def pongedLoop (seq : ℕ) : List Run → Table Route → List Run × Table Route
  | [], routes => ([], routes)
  | run :: runs, routes =>
    if run.barrier.all fun b ↦ decide (seq < b) then (run :: runs, routes)
    else pongedLoop seq runs (run.routed.foldl (fun routes id ↦ routes.erase id) routes)

/-- The peer answered the ping `seq`, and so everything sent before it. -/
def ponged (r : Routes) (seq : ℕ) : Routes :=
  let left := pongedLoop seq r.runs r.routes
  { r with runs := left.1, routes := left.2 }

/-- The route of the answer carrying `id`, taken. -/
def take (r : Routes) (id : RequestId) : Routes × Option Route :=
  ({ r with routes := r.routes.erase id }, r.routes.lookup id)

/-- Who an answer without an id is for. -/
def front (r : Routes) : Option Requester := r.runs.head?.map Run.sender

/-- Every route still waiting, for a link that dropped. -/
def drain (r : Routes) : Routes × List Route :=
  ({ r with routes := ∅, runs := [] }, r.routes.values)

/-! ## Runs as a pipeline sees them -/

theorem pongedLoop_runs (seq : ℕ) (runs : List Run) (routes : Table Route) :
    (pongedLoop seq runs routes).1 = Barrier.pass Run.barrier seq runs := by
  induction runs generalizing routes with
  | nil => rfl
  | cons run runs ih =>
    rw [pongedLoop, Barrier.pass, List.dropWhile_cons]
    by_cases h : run.barrier.all fun b ↦ decide (seq < b)
    · rw [if_pos h, if_neg (by rw [Barrier.outlasts, h]; exact Bool.false_ne_true)]
    · rw [if_neg h, if_pos (by rw [Barrier.outlasts, Bool.not_eq_true _ |>.mp h]; rfl), ih]
      rfl

theorem ponged_runs (r : Routes) (seq : ℕ) :
    (r.ponged seq).runs = Barrier.pass Run.barrier seq r.runs :=
  pongedLoop_runs seq r.runs r.routes

private theorem lookup_foldl_erase (ids : List RequestId) (routes : Table Route)
    {id : RequestId} (h : id ∉ ids) :
    (ids.foldl (fun routes id ↦ routes.erase id) routes).lookup id = routes.lookup id := by
  induction ids generalizing routes with
  | nil => rfl
  | cons i ids ih =>
    rw [List.mem_cons, not_or] at h
    obtain ⟨hne, hids⟩ := h
    rw [List.foldl_cons, ih _ hids, AList.lookup_erase_ne hne]

/-- A pong forgets the routes of the runs it closes, and no other. -/
theorem ponged_lookup {r : Routes} {seq : ℕ} {id : RequestId}
    (h : ∀ run ∈ r.runs.takeWhile fun run ↦ !Barrier.outlasts Run.barrier seq run,
      id ∉ run.routed) : (r.ponged seq).routes.lookup id = r.routes.lookup id := by
  suffices ∀ runs routes,
      (∀ run ∈ runs.takeWhile fun run ↦ !Barrier.outlasts Run.barrier seq run, id ∉ run.routed) →
        AList.lookup id (pongedLoop seq runs routes).2 = AList.lookup id routes from
    this r.runs r.routes h
  intro runs
  induction runs with
  | nil => exact fun _ _ ↦ rfl
  | cons run runs ih =>
    intro routes hruns
    rw [pongedLoop]
    by_cases hrun : run.barrier.all fun b ↦ decide (seq < b)
    · rw [if_pos hrun]
    · have hclosed : (!Barrier.outlasts Run.barrier seq run) = true := by
        rw [Barrier.outlasts, Bool.not_eq_true _ |>.mp hrun]
        rfl
      rw [List.takeWhile_cons, if_pos hclosed] at hruns
      rw [if_neg hrun, ih _ fun run' hrun' ↦ hruns run' (List.mem_cons_of_mem run hrun')]
      exact lookup_foldl_erase _ _ (hruns run List.mem_cons_self)

/-- And makes none up. -/
theorem ponged_lookup_some {r : Routes} {seq : ℕ} {id : RequestId} {route : Route}
    (h : (r.ponged seq).routes.lookup id = some route) : r.routes.lookup id = some route := by
  have herase : ∀ (ids : List RequestId) (routes : Table Route),
      AList.lookup id (ids.foldl (fun routes id ↦ routes.erase id) routes) = some route →
        AList.lookup id routes = some route := by
    intro ids
    induction ids with
    | nil => exact fun _ h ↦ h
    | cons i ids ih => exact fun routes h ↦ (Table.lookup_erase_eq_some (ih _ h)).2
  suffices ∀ runs routes, AList.lookup id (pongedLoop seq runs routes).2 = some route →
      AList.lookup id routes = some route from this r.runs r.routes h
  intro runs
  induction runs with
  | nil => exact fun _ h ↦ h
  | cons run runs ih =>
    intro routes h
    rw [pongedLoop] at h
    split at h
    · exact h
    · exact herase _ _ (ih _ h)

end Routes

end Federation

end Kmux
