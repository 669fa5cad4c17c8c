import Kmux.Daemon.Outbound
import Kmux.Lib.Run
import Mathlib.Data.List.DropRight
import Mathlib.Logic.Function.Basic

/-!
# The control reserve, with several producers

`try_send_data` and `send_waiting` read the number of free slots, compare it with the reserve, and
only then push: two accesses to the queue, between which the other producers of the connection and
its writer go on. Here the queue keeps what each message is, every producer has a program counter,
and each access is a step. A producer that has passed its check pushes on the count it read, so
several of them can pass on the same free slot, and all but the first take a slot of the reserve.

`reserve_kept_iff` says when that does not happen, and that a control message then finds the queue
full only after as many control messages in a row as the reserve has slots.
-/

namespace Kmux.ControlReserve

/-! ## The queue -/

/-- The messages that leave the reserve to control. -/
inductive Yielding
  /-- Pane data, from `try_send_data`. -/
  | data
  /-- A bulk reply, from `send_waiting`. -/
  | bulk
  deriving DecidableEq, Repr

/-- What a queued message is. -/
inductive Lane
  | control
  | yielding (kind : Yielding)
  deriving DecidableEq, Repr

def Lane.isControl : Lane → Bool
  | .control => true
  | .yielding _ => false

/-- A connection's queue, which also keeps count of what the writer has taken. -/
structure Queue where
  capacity : ℕ
  /-- What is queued, oldest first. -/
  lanes : List Lane
  closed : Bool
  taken : ℕ
  /-- Batches the writer has reported. -/
  drained : ℕ
  deriving DecidableEq, Repr

namespace Queue

/-- `channel` -/
def new (capacity : ℕ) : Queue :=
  { capacity, lanes := [], closed := false, taken := 0, drained := 0 }

/-- The queue with its messages counted only. -/
def counted (q : Queue) : Outbound :=
  { capacity := q.capacity, queued := q.lanes.length, closed := q.closed }

def free (q : Queue) : ℕ := q.counted.free

def reserve (q : Queue) : ℕ := q.counted.reserve

/-- Messages ever queued. -/
def sent (q : Queue) : ℕ := q.taken + q.lanes.length

/-- `Sender::try_send` -/
def trySend (q : Queue) (lane : Lane) : Except TrySendError Queue :=
  match q.counted.trySend with
  | .ok _ => .ok { q with lanes := q.lanes ++ [lane] }
  | .error e => .error e

/-- The writer takes the oldest message. -/
def take (q : Queue) : Queue :=
  match q.closed, q.lanes with
  | false, _ :: rest => { q with lanes := rest, taken := q.taken + 1 }
  | _, _ => q

/-- A push would be turned away. -/
def TurnsAway (q : Queue) : Prop := q.closed = true ∨ q.free = 0

instance (q : Queue) : Decidable q.TurnsAway := inferInstanceAs (Decidable (_ ∨ _))

/-- The control messages queued after the last message of another kind. -/
def newestControl (q : Queue) : List Lane := q.lanes.rtakeWhile Lane.isControl

end Queue

/-! ## Producers -/

/-- What a check read, and how many messages had been queued and taken by then. -/
structure Reading where
  free : ℕ
  sent : ℕ
  taken : ℕ
  deriving DecidableEq, Repr

/-- Where a producer is. -/
inductive ProducerPc
  /-- Between calls; why the last message was not queued, if it was not. -/
  | returned (rejected : Option DataRejected)
  /-- About to read the number of free slots. -/
  | checking (kind : Yielding)
  /-- There was more than the reserve: about to push. -/
  | passed (kind : Yielding) (reading : Reading)
  /-- There was not: about to see whether the writer has stopped. -/
  | failed (kind : Yielding)
  /-- `data_room`: about to mark the drain counter as seen. -/
  | marking
  /-- `data_room`: about to read the number of free slots. -/
  | marked (seen : ℕ)
  /-- `data_room`: waiting for the drain counter to change. -/
  | awaiting (seen : ℕ)
  deriving DecidableEq, Repr

/-- The queue and the producers that hold its sending half. -/
structure System where
  queue : Queue
  pc : ℕ → ProducerPc
  /-- An overflow has asked the connection to close. -/
  overflowed : Bool

inductive Event
  /-- Producer `i` calls `send`, `try_send_data` or `send_waiting`, by the kind of message. -/
  | call (i : ℕ) (lane : Lane)
  /-- Producer `i` takes its next step. -/
  | advance (i : ℕ)
  /-- The writer takes a message. -/
  | take
  | markDrained
  /-- The writer stops. -/
  | stop
  deriving DecidableEq, Repr

namespace System

def start (capacity : ℕ) : System :=
  { queue := Queue.new capacity, pc := fun _ ↦ .returned none, overflowed := false }

def goto (s : System) (i : ℕ) (pc : ProducerPc) : System :=
  { s with pc := Function.update s.pc i pc }

def queueing (s : System) (q : Queue) : System := { s with queue := q }

/-- `OutboundTx::send` -/
def send (s : System) (i : ℕ) : System :=
  match s.queue.trySend .control with
  | .ok q => (s.queueing q).goto i (.returned none)
  | .error .full => { s with overflowed := true }.goto i (.returned (some .closed))
  | .error .closed => s.goto i (.returned (some .closed))

/-- Where a message that found no room leaves its producer: pane data is dropped by the caller, a
bulk reply waits. -/
def noRoom : Yielding → ProducerPc
  | .data => .returned (some .congested)
  | .bulk => .marking

/-- Push on a check that has passed. -/
def push (s : System) (i : ℕ) (kind : Yielding) : System :=
  match s.queue.trySend (.yielding kind) with
  | .ok q => (s.queueing q).goto i (.returned none)
  | .error .full => s.goto i (noRoom kind)
  | .error .closed => s.goto i (.returned (some .closed))

def reading (s : System) : Reading :=
  { free := s.queue.free, sent := s.queue.sent, taken := s.queue.taken }

/-- One step of producer `i`. -/
def advance (s : System) (i : ℕ) : System :=
  match s.pc i with
  | .returned _ => s
  | .checking kind =>
    s.goto i (if s.queue.reserve < s.queue.free then .passed kind s.reading else .failed kind)
  | .passed kind _ => s.push i kind
  | .failed kind => s.goto i (if s.queue.closed then .returned (some .closed) else noRoom kind)
  | .marking => s.goto i (.marked s.queue.drained)
  | .marked seen => s.goto i (if s.queue.counted.dataRoom then .checking .bulk else .awaiting seen)
  | .awaiting seen =>
    if seen ≠ s.queue.drained then s.goto i .marking
    -- the writer has stopped, and its half of the drain counter is gone
    else if s.queue.closed then s.goto i (.checking .bulk)
    else s

def step (s : System) : Event → System
  | .call i lane =>
    match s.pc i, lane with
    | .returned _, .control => s.send i
    | .returned _, .yielding kind => s.goto i (.checking kind)
    | _, _ => s
  | .advance i => s.advance i
  | .take => s.queueing s.queue.take
  | .markDrained => s.queueing { s.queue with drained := s.queue.drained + 1 }
  | .stop => s.queueing { s.queue with closed := true }

/-- **The reserve is kept by a step**: what it queues for another lane than control leaves the
reserve free, and a control message it fails to queue, to a writer that has not stopped, comes after
as many control messages as the reserve has slots. -/
structure Kept (s : System) (e : Event) : Prop where
  leaves : ∀ kind, (s.step e).queue.lanes = s.queue.lanes ++ [.yielding kind] →
    s.queue.reserve ≤ (s.step e).queue.free
  overflow : ∀ i, e = .call i .control → (s.step e).pc i = .returned (some .closed) →
    (∃ r, s.pc i = .returned r) → s.queue.closed = false →
      s.queue.reserve ≤ s.queue.newestControl.length

end System

/-- A check is still good for a push: what has been queued since is less than the slots it found
above the reserve, together with those the writer has emptied since. -/
def Reading.Good (r : Reading) (q : Queue) : Prop :=
  (q.sent - r.sent) + q.reserve < r.free + (q.taken - r.taken)

instance (r : Reading) (q : Queue) : Decidable (r.Good q) := inferInstanceAs (Decidable (_ < _))

/-- A producer that pushes does so on a check that is still good, or is turned away. -/
def System.Timely (s : System) : Event → Prop
  | .advance i =>
    match s.pc i with
    | .passed _ r => r.Good s.queue ∨ s.queue.TurnsAway
    | _ => True
  | _ => True

/-! ## The queue's counts -/

namespace Queue

variable {q q' : Queue}

/-- A push counts as one on the counted queue. -/
theorem trySend_counted {lane : Lane} (h : q.trySend lane = .ok q') :
    q.counted.trySend = .ok q'.counted := by
  obtain ⟨capacity, lanes, closed, taken, drained⟩ := q
  rw [trySend] at h
  cases hpush : (Queue.mk capacity lanes closed taken drained).counted.trySend with
  | error e =>
    rw [hpush] at h
    cases h
  | ok out =>
    rw [hpush] at h
    cases h
    rw [Outbound.trySend] at hpush
    split at hpush
    · cases hpush
    · split at hpush
      · cases hpush
      · cases hpush
        rw [counted, counted, List.length_append, List.length_singleton]

theorem trySend_error {lane : Lane} {e : TrySendError} (h : q.trySend lane = .error e) :
    q.counted.trySend = .error e := by
  rw [trySend] at h
  split at h
  · cases h
  next hpush => rwa [Except.error.inj h] at hpush

/-- A push goes through exactly when it is not turned away. -/
theorem trySend_cases (q : Queue) (lane : Lane) :
    q.closed = true ∧ q.trySend lane = .error .closed ∨
      q.closed = false ∧ q.free = 0 ∧ q.trySend lane = .error .full ∨
      ¬q.TurnsAway ∧ q.trySend lane = .ok { q with lanes := q.lanes ++ [lane] } := by
  rw [trySend, Outbound.trySend]
  by_cases hclosed : q.closed = true
  · exact .inl ⟨hclosed, by rw [if_pos (show q.counted.closed = true from hclosed)]⟩
  · rw [if_neg (show ¬q.counted.closed = true from hclosed)]
    by_cases hfree : q.free = 0
    · exact .inr (.inl ⟨Bool.not_eq_true _ ▸ hclosed, hfree,
        by rw [if_pos (show q.counted.free = 0 from hfree)]⟩)
    · refine .inr (.inr ⟨not_or.mpr ⟨hclosed, hfree⟩, ?_⟩)
      rw [if_neg (show ¬q.counted.free = 0 from hfree)]

theorem newestControl_control (lanes : List Lane) :
    ((lanes ++ [Lane.control]).rtakeWhile Lane.isControl).length
      = (lanes.rtakeWhile Lane.isControl).length + 1 := by
  rw [List.rtakeWhile_concat_pos _ _ _ rfl, List.length_append, List.length_singleton]

/-- Taking the oldest message costs the newest control messages at most one. -/
theorem newestControl_take (lane : Lane) (rest : List Lane) :
    ((lane :: rest).rtakeWhile Lane.isControl).length
      ≤ (rest.rtakeWhile Lane.isControl).length + 1 := by
  rw [List.rtakeWhile, List.rtakeWhile, List.length_reverse, List.length_reverse,
    List.reverse_cons, List.takeWhile_append]
  split
  next hall =>
    rw [List.length_append, hall]
    exact Nat.add_le_add_left (List.takeWhile_prefix _).length_le _
  next => exact Nat.le_succ _

end Queue

/-! ## The invariant -/

namespace System

variable {s : System}

@[simp] theorem goto_pc (s : System) (i : ℕ) (pc : ProducerPc) : (s.goto i pc).pc i = pc := by
  simp only [goto, Function.update_self]

theorem goto_pc_of_ne {i j : ℕ} (h : j ≠ i) {pc : ProducerPc} : (s.goto i pc).pc j = s.pc j := by
  simp only [goto, Function.update_of_ne h]

/-- What every check read is right for the time it was made, and what the reserve lacks in free
slots the newest control messages have taken. -/
structure Inv (s : System) : Prop where
  bounded : s.queue.lanes.length ≤ s.queue.capacity
  kept : s.queue.reserve ≤ s.queue.free + s.queue.newestControl.length
  read : ∀ i kind r, s.pc i = .passed kind r →
    r.free + r.sent = s.queue.capacity + r.taken ∧ r.sent ≤ s.queue.sent ∧ r.taken ≤ s.queue.taken

theorem inv_start (capacity : ℕ) : (start capacity).Inv where
  bounded := Nat.zero_le _
  kept := (Nat.div_le_self _ _).trans (Nat.le_add_right _ _)
  read := fun _ _ _ h ↦ by cases h

/-- A reading of the queue as it is. -/
theorem Inv.reading (h : s.Inv) : s.reading.free + s.reading.sent = s.queue.capacity + s.queue.taken
    ∧ s.reading.sent ≤ s.queue.sent ∧ s.reading.taken ≤ s.queue.taken := by
  refine ⟨?_, le_rfl, le_rfl⟩
  show s.queue.capacity - s.queue.lanes.length + (s.queue.taken + s.queue.lanes.length) = _
  have := h.bounded
  omega

theorem Inv.goto (h : s.Inv) (i : ℕ) {pc : ProducerPc}
    (hpc : ∀ kind r, pc = .passed kind r → r = s.reading) : (s.goto i pc).Inv where
  bounded := h.bounded
  kept := h.kept
  read := fun j kind r hj ↦ by
    by_cases hji : j = i
    · rw [hji, goto_pc] at hj
      rw [hpc kind r hj]
      exact h.reading
    · rw [goto_pc_of_ne hji] at hj
      exact h.read j kind r hj

theorem Inv.queueing (h : s.Inv) {q : Queue} (hcapacity : q.capacity = s.queue.capacity)
    (hbounded : q.lanes.length ≤ q.capacity)
    (hkept : q.reserve ≤ q.free + q.newestControl.length) (hsent : s.queue.sent ≤ q.sent)
    (htaken : s.queue.taken ≤ q.taken) : (s.queueing q).Inv where
  bounded := hbounded
  kept := hkept
  read := fun i kind r hi ↦ by
    obtain ⟨hfree, hrsent, hrtaken⟩ := h.read i kind r hi
    exact ⟨hfree.trans (by rw [← hcapacity]; rfl), hrsent.trans hsent, hrtaken.trans htaken⟩

/-- Control may take any free slot. -/
theorem Inv.control (h : s.Inv) (hfree : s.queue.free ≠ 0) :
    (s.queueing { s.queue with lanes := s.queue.lanes ++ [Lane.control] }).Inv := by
  have hkept : s.queue.reserve ≤ s.queue.capacity - s.queue.lanes.length
      + (s.queue.lanes.rtakeWhile Lane.isControl).length := h.kept
  have hlength : (s.queue.lanes ++ [Lane.control]).length = s.queue.lanes.length + 1 :=
    List.length_append
  have hfree' : s.queue.capacity - s.queue.lanes.length ≠ 0 := hfree
  refine h.queueing rfl ?_ ?_ ?_ le_rfl
  · show (s.queue.lanes ++ [Lane.control]).length ≤ s.queue.capacity
    omega
  · have hnewest := Queue.newestControl_control s.queue.lanes
    show s.queue.reserve ≤ s.queue.capacity - (s.queue.lanes ++ [Lane.control]).length
      + ((s.queue.lanes ++ [Lane.control]).rtakeWhile Lane.isControl).length
    omega
  · show s.queue.taken + _ ≤ s.queue.taken + (s.queue.lanes ++ [Lane.control]).length
    omega

/-- Any message may take a slot above the reserve. -/
theorem Inv.yielding (h : s.Inv) (kind : Yielding) (hfree : s.queue.reserve < s.queue.free) :
    (s.queueing { s.queue with lanes := s.queue.lanes ++ [Lane.yielding kind] }).Inv := by
  have hlength : (s.queue.lanes ++ [Lane.yielding kind]).length = s.queue.lanes.length + 1 :=
    List.length_append
  have hfree' : s.queue.reserve < s.queue.capacity - s.queue.lanes.length := hfree
  refine h.queueing rfl ?_ ?_ ?_ le_rfl
  · show (s.queue.lanes ++ [Lane.yielding kind]).length ≤ s.queue.capacity
    omega
  · show s.queue.reserve
      ≤ s.queue.capacity - (s.queue.lanes ++ [Lane.yielding kind]).length + _
    omega
  · show s.queue.taken + _ ≤ s.queue.taken + (s.queue.lanes ++ [Lane.yielding kind]).length
    omega

theorem Inv.take (h : s.Inv) : (s.queueing s.queue.take).Inv := by
  obtain ⟨⟨capacity, lanes, closed, taken, drained⟩, pc, overflowed⟩ := s
  rcases closed with _ | _
  · rcases lanes with _ | ⟨lane, rest⟩
    · exact h
    · have hlength : (lane :: rest).length = rest.length + 1 := rfl
      have hbounded : (lane :: rest).length ≤ capacity := h.bounded
      have hkept : capacity / controlReserveDivisor ≤ capacity - (lane :: rest).length
          + ((lane :: rest).rtakeWhile Lane.isControl).length := h.kept
      have htake := Queue.newestControl_take lane rest
      refine h.queueing rfl ?_ ?_ ?_ (Nat.le_succ _)
      · show rest.length ≤ capacity
        omega
      · show capacity / controlReserveDivisor
          ≤ capacity - rest.length + (rest.rtakeWhile Lane.isControl).length
        omega
      · show taken + (lane :: rest).length ≤ taken + 1 + rest.length
        omega
  · exact h

/-- **What a check read is still good when the reserve is not reached yet.** -/
theorem Inv.good_iff (h : s.Inv) {i : ℕ} {kind : Yielding} {r : Reading}
    (hi : s.pc i = .passed kind r) : r.Good s.queue ↔ s.queue.reserve < s.queue.free := by
  obtain ⟨hfree, hsent, htaken⟩ := h.read i kind r hi
  have hbounded := h.bounded
  have hsent' : r.sent ≤ s.queue.taken + s.queue.lanes.length := hsent
  show (s.queue.taken + s.queue.lanes.length - r.sent) + s.queue.reserve
      < r.free + (s.queue.taken - r.taken) ↔
    s.queue.reserve < s.queue.capacity - s.queue.lanes.length
  omega

/-! ## Steps -/

theorem Inv.send (h : s.Inv) (i : ℕ) : (s.send i).Inv := by
  rw [System.send]
  rcases s.queue.trySend_cases .control with ⟨-, hpush⟩ | ⟨-, -, hpush⟩ | ⟨hopen, hpush⟩
  · rw [hpush]
    exact h.goto i fun _ _ hpc ↦ by cases hpc
  · rw [hpush]
    have hover : { s with overflowed := true }.Inv := ⟨h.bounded, h.kept, h.read⟩
    exact hover.goto i fun _ _ hpc ↦ by cases hpc
  · rw [hpush]
    exact (h.control fun hfree ↦ hopen (.inr hfree)).goto i fun _ _ hpc ↦ by cases hpc

theorem noRoom_ne_passed {kind kind' : Yielding} {r : Reading} : noRoom kind ≠ .passed kind' r := by
  rcases kind with _ | _
  · exact ProducerPc.noConfusion
  · exact ProducerPc.noConfusion

/-- A push keeps the invariant if it leaves the reserve alone, or is turned away. -/
theorem Inv.push (h : s.Inv) (i : ℕ) (kind : Yielding)
    (hfree : s.queue.reserve < s.queue.free ∨ s.queue.TurnsAway) : (s.push i kind).Inv := by
  rw [System.push]
  rcases s.queue.trySend_cases (.yielding kind) with ⟨-, hpush⟩ | ⟨-, -, hpush⟩ | ⟨hopen, hpush⟩
  · rw [hpush]
    exact h.goto i fun _ _ hpc ↦ by cases hpc
  · rw [hpush]
    exact h.goto i fun _ _ hpc ↦ absurd hpc noRoom_ne_passed
  · rw [hpush]
    exact (h.yielding kind (hfree.resolve_right hopen)).goto i fun _ _ hpc ↦ by cases hpc

theorem Inv.advance (h : s.Inv) (i : ℕ) (htimely : s.Timely (.advance i)) :
    (s.advance i).Inv := by
  rw [System.advance]
  rw [Timely] at htimely
  rcases hi : s.pc i with _ | _ | ⟨kind, r⟩ | kind | _ | _ | seen
  · exact h
  · refine h.goto i fun kind r hpc ↦ ?_
    split at hpc
    · cases hpc
      rfl
    · cases hpc
  · rw [hi] at htimely
    exact h.push i kind (htimely.imp_left (h.good_iff hi).mp)
  · refine h.goto i fun kind' r hpc ↦ ?_
    split at hpc
    · cases hpc
    · exact absurd hpc noRoom_ne_passed
  · exact h.goto i fun _ _ hpc ↦ by cases hpc
  · refine h.goto i fun kind r hpc ↦ ?_
    split at hpc
    · cases hpc
    · cases hpc
  · dsimp only
    split
    · exact h.goto i fun _ _ hpc ↦ by cases hpc
    · split
      · exact h.goto i fun _ _ hpc ↦ by cases hpc
      · exact h

/-- **One step.** -/
theorem Inv.step (h : s.Inv) (e : Event) (htimely : s.Timely e) : (s.step e).Inv := by
  rcases e with ⟨i, lane⟩ | i | _ | _ | _
  · rw [System.step.eq_def]
    dsimp only
    split
    · exact h.send i
    · exact h.goto i fun _ _ hpc ↦ by cases hpc
    · exact h
  · exact h.advance i htimely
  · exact h.take
  · exact ⟨h.bounded, h.kept, h.read⟩
  · exact ⟨h.bounded, h.kept, h.read⟩

private theorem ne_append {lanes : List Lane} {lane : Lane} : lanes ≠ lanes ++ [lane] := by
  intro h
  have := congrArg List.length h
  rw [List.length_append, List.length_singleton] at this
  omega

theorem push_lanes (s : System) (i : ℕ) (kind : Yielding) (hopen : ¬s.queue.TurnsAway) :
    (s.push i kind).queue = { s.queue with lanes := s.queue.lanes ++ [Lane.yielding kind] } := by
  rw [System.push]
  rcases s.queue.trySend_cases (.yielding kind) with ⟨h, -⟩ | ⟨-, h, -⟩ | ⟨-, hpush⟩
  · exact absurd (.inl h) hopen
  · exact absurd (.inr h) hopen
  · rw [hpush]
    rfl

theorem push_queue (s : System) (i : ℕ) (kind : Yielding) (hturns : s.queue.TurnsAway) :
    (s.push i kind).queue = s.queue := by
  rw [System.push]
  rcases s.queue.trySend_cases (.yielding kind) with ⟨-, hpush⟩ | ⟨-, -, hpush⟩ | ⟨hopen, -⟩
  · rw [hpush]
    rfl
  · rw [hpush]
    rfl
  · exact absurd hturns hopen

/-- Only a push on a check that has passed queues for another lane than control. -/
theorem of_yielding_queued {e : Event} {kind : Yielding}
    (h : (s.step e).queue.lanes = s.queue.lanes ++ [Lane.yielding kind]) :
    ∃ i kind' r, e = .advance i ∧ s.pc i = .passed kind' r ∧ ¬s.queue.TurnsAway ∧
      s.step e = s.push i kind' := by
  rcases e with ⟨i, lane⟩ | i | _ | _ | _
  · exfalso
    rw [System.step.eq_def] at h
    dsimp only at h
    split at h
    -- a control message is pushed on the control lane
    · rw [System.send] at h
      rcases s.queue.trySend_cases .control with ⟨-, hpush⟩ | ⟨-, -, hpush⟩ | ⟨-, hpush⟩
      · rw [hpush] at h
        exact ne_append h
      · rw [hpush] at h
        exact ne_append h
      · rw [hpush] at h
        cases List.append_cancel_left h
    · exact ne_append h
    · exact ne_append h
  · rw [show s.step (.advance i) = s.advance i from rfl, System.advance] at h ⊢
    rcases hi : s.pc i with _ | _ | ⟨kind', r⟩ | _ | _ | _ | seen
    · rw [hi] at h
      exact absurd h ne_append
    · rw [hi] at h
      exact absurd h ne_append
    · rw [hi] at h
      refine ⟨i, kind', r, rfl, hi, fun hturns ↦ ?_, rfl⟩
      dsimp only at h
      rw [push_queue s i kind' hturns] at h
      exact ne_append h
    · rw [hi] at h
      exact absurd h ne_append
    · rw [hi] at h
      exact absurd h ne_append
    · rw [hi] at h
      exact absurd h ne_append
    · rw [hi] at h
      dsimp only at h
      split at h
      · exact absurd h ne_append
      · split at h
        · exact absurd h ne_append
        · exact absurd h ne_append
  · exfalso
    -- taking a message never lengthens the queue
    have hlength : (s.step .take).queue.lanes.length ≤ s.queue.lanes.length := by
      rw [show s.step .take = s.queueing s.queue.take from rfl, queueing, Queue.take]
      split
      next hlanes =>
        rw [hlanes]
        exact Nat.le_succ _
      next => exact le_rfl
    rw [h, List.length_append, List.length_singleton] at hlength
    omega
  · exact absurd h ne_append
  · exact absurd h ne_append

/-- **A step keeps the reserve exactly when it is timely.** -/
theorem Inv.timely_iff (h : s.Inv) (e : Event) : s.Timely e ↔ s.Kept e := by
  constructor
  · refine fun htimely ↦ ⟨fun kind hqueued ↦ ?_, fun i he hresult hcalled hopen ↦ ?_⟩
    · obtain ⟨i, kind', r, rfl, hi, hopen, hstep⟩ := of_yielding_queued hqueued
      rw [Timely, hi] at htimely
      -- the check that passed is still right, so one slot more than the reserve is free
      have hfree : s.queue.reserve < s.queue.capacity - s.queue.lanes.length :=
        (h.good_iff hi).mp (htimely.resolve_right hopen)
      rw [hstep, push_lanes s i kind' hopen]
      show s.queue.reserve
        ≤ s.queue.capacity - (s.queue.lanes ++ [Lane.yielding kind']).length
      rw [List.length_append, List.length_singleton]
      omega
    · obtain ⟨r, hr⟩ := hcalled
      rw [he, System.step.eq_def] at hresult
      dsimp only at hresult
      rw [hr] at hresult
      dsimp only at hresult
      rw [System.send] at hresult
      -- a control message is turned away only by a full queue, which keeps no reserve
      have hkept := h.kept
      rcases s.queue.trySend_cases .control with ⟨hclosed, -⟩ | ⟨-, hfree, -⟩ | ⟨-, hpush⟩
      · rw [hopen] at hclosed
        cases hclosed
      · rwa [hfree, Nat.zero_add] at hkept
      · rw [hpush] at hresult
        dsimp only at hresult
        rw [goto_pc] at hresult
        cases hresult
  · intro hkept
    rcases e with ⟨i, lane⟩ | i | _ | _ | _
    · trivial
    · rw [Timely]
      rcases hi : s.pc i with _ | _ | ⟨kind, r⟩ | _ | _ | _ | _
      · trivial
      · trivial
      · dsimp only
        rw [or_iff_not_imp_right, h.good_iff hi]
        intro hopen
        have hstep : (s.step (.advance i)).queue
            = { s.queue with lanes := s.queue.lanes ++ [Lane.yielding kind] } := by
          rw [System.step, System.advance, hi]
          exact push_lanes s i kind hopen
        have hleaves : s.queue.reserve ≤ (s.step (.advance i)).queue.free :=
          hkept.leaves kind (congrArg Queue.lanes hstep)
        rw [hstep] at hleaves
        have hleaves' : s.queue.reserve
            ≤ s.queue.capacity - (s.queue.lanes ++ [Lane.yielding kind]).length := hleaves
        rw [List.length_append, List.length_singleton] at hleaves'
        have hfree : s.queue.capacity - s.queue.lanes.length ≠ 0 := fun hfree ↦ hopen (.inr hfree)
        show s.queue.reserve < s.queue.capacity - s.queue.lanes.length
        omega
      · trivial
      · trivial
      · trivial
      · trivial
    · trivial
    · trivial
    · trivial

/-! ## One producer's view

The two steps of `try_send_data`, with whatever the others do in between, are one `trySendData` of
the counted queue. -/

/-- Every step does to the counted queue what some of its own events do. -/
theorem step_counted (s : System) (e : Event) : ∃ meanwhile,
    Run.exec Outbound.step s.queue.counted meanwhile = (s.step e).queue.counted := by
  have hqueue : ∀ (lane : Lane) (q : Queue), s.queue.trySend lane = .ok q →
      Run.exec Outbound.step s.queue.counted [.queue] = q.counted := by
    intro lane q hpush
    rw [Run.exec_cons, Run.exec_nil, Outbound.step, Outbound.send, Queue.trySend_counted hpush]
  rcases e with ⟨i, lane⟩ | i | _ | _ | _
  · rw [System.step.eq_def]
    dsimp only
    split
    · rw [System.send]
      rcases hpush : s.queue.trySend .control with (_ | _) | q
      · exact ⟨[], rfl⟩
      · exact ⟨[], rfl⟩
      · exact ⟨[.queue], hqueue _ q hpush⟩
    · exact ⟨[], rfl⟩
    · exact ⟨[], rfl⟩
  · rw [show s.step (.advance i) = s.advance i from rfl, System.advance]
    rcases s.pc i with _ | _ | ⟨kind, r⟩ | _ | _ | _ | seen
    · exact ⟨[], rfl⟩
    · exact ⟨[], rfl⟩
    · dsimp only
      rw [System.push]
      rcases hpush : s.queue.trySend (.yielding kind) with (_ | _) | q
      · exact ⟨[], rfl⟩
      · exact ⟨[], rfl⟩
      · exact ⟨[.queue], hqueue _ q hpush⟩
    · exact ⟨[], rfl⟩
    · exact ⟨[], rfl⟩
    · exact ⟨[], rfl⟩
    · dsimp only
      split
      · exact ⟨[], rfl⟩
      · split
        · exact ⟨[], rfl⟩
        · exact ⟨[], rfl⟩
  · rw [show s.step .take = s.queueing s.queue.take from rfl, queueing, Queue.take]
    split
    next hlanes =>
      refine ⟨[.take], ?_⟩
      rw [Run.exec_cons, Run.exec_nil, Outbound.step, Queue.counted, Queue.counted, hlanes,
        List.length_cons, Nat.add_sub_cancel]
    next => exact ⟨[], rfl⟩
  · exact ⟨[], rfl⟩
  · exact ⟨[.stop], rfl⟩

theorem exec_counted (es : List Event) (s : System) : ∃ meanwhile,
    Run.exec Outbound.step s.queue.counted meanwhile = (Run.exec step s es).queue.counted := by
  induction es generalizing s with
  | nil => exact ⟨[], rfl⟩
  | cons e es ih =>
    obtain ⟨first, hfirst⟩ := s.step_counted e
    obtain ⟨rest, hrest⟩ := ih (s.step e)
    exact ⟨first ++ rest, by rw [Run.exec_append, hfirst, hrest, Run.exec_cons]⟩

/-- A producer in the middle of a call stays where it is until its own next step. -/
theorem step_pc {i : ℕ} (hcalling : ∀ r, s.pc i ≠ .returned r) {e : Event} (he : e ≠ .advance i) :
    (s.step e).pc i = s.pc i := by
  rcases e with ⟨j, lane⟩ | j | _ | _ | _
  · rw [System.step.eq_def]
    dsimp only
    split
    next r hj =>
      have hji : i ≠ j := fun h ↦ hcalling r (h ▸ hj)
      rw [System.send]
      rcases s.queue.trySend .control with (_ | _) | q
      · exact goto_pc_of_ne hji
      · exact goto_pc_of_ne hji
      · exact goto_pc_of_ne hji
    next r _ hj =>
      have hji : i ≠ j := fun h ↦ hcalling r (h ▸ hj)
      exact goto_pc_of_ne hji
    next => rfl
  · have hji : i ≠ j := fun h ↦ he (h ▸ rfl)
    rw [show s.step (.advance j) = s.advance j from rfl, System.advance]
    rcases s.pc j with _ | _ | ⟨kind, r⟩ | _ | _ | _ | seen
    · rfl
    · exact goto_pc_of_ne hji
    · dsimp only
      rw [System.push]
      rcases s.queue.trySend (.yielding kind) with (_ | _) | q
      · exact goto_pc_of_ne hji
      · exact goto_pc_of_ne hji
      · exact goto_pc_of_ne hji
    · exact goto_pc_of_ne hji
    · exact goto_pc_of_ne hji
    · exact goto_pc_of_ne hji
    · dsimp only
      split
      · exact goto_pc_of_ne hji
      · split
        · exact goto_pc_of_ne hji
        · rfl
  · rfl
  · rfl
  · rfl

theorem exec_pc {i : ℕ} (es : List Event) (hes : .advance i ∉ es) (s : System)
    (hcalling : ∀ r, s.pc i ≠ .returned r) : (Run.exec step s es).pc i = s.pc i := by
  induction es generalizing s with
  | nil => rfl
  | cons e es ih =>
    rw [List.mem_cons, not_or] at hes
    have hstep : (s.step e).pc i = s.pc i := step_pc hcalling fun h ↦ hes.1 h.symm
    rw [Run.exec_cons, ih hes.2 (s.step e) fun r ↦ hstep ▸ hcalling r, hstep]

/-- **`try_send_data`, as its producer sees it.** Its check and its push, with what the others do to
the queue in between, are one `trySendData`. -/
theorem trySendData_steps {i : ℕ} (hi : s.pc i = .checking .data) {es : List Event}
    (hes : .advance i ∉ es) : ∃ meanwhile,
      Run.exec Outbound.step s.queue.counted meanwhile
        = (Run.exec step (s.advance i) es).queue.counted ∧
      (((Run.exec step (s.advance i) es).advance i).queue.counted,
          ((Run.exec step (s.advance i) es).advance i).pc i)
        = (s.queue.counted.trySendData meanwhile).map id ProducerPc.returned := by
  have hqueue : (s.advance i).queue = s.queue := by
    rw [System.advance, hi]
    rfl
  obtain ⟨meanwhile, hmeanwhile⟩ := exec_counted es (s.advance i)
  rw [hqueue] at hmeanwhile
  refine ⟨meanwhile, hmeanwhile, ?_⟩
  -- what the others do in between leaves the producer where its check put it
  have hpc : ∀ pc, (s.advance i).pc i = pc → (∀ r, pc ≠ .returned r) →
      (Run.exec step (s.advance i) es).pc i = pc := by
    intro pc hpc hcalling
    rw [exec_pc es hes (s.advance i) (by rw [hpc]; exact hcalling), hpc]
  rw [Outbound.trySendData, hmeanwhile]
  set s' := Run.exec step (s.advance i) es
  by_cases hfree : s.queue.reserve < s.queue.free
  -- the check passed, and the push may still find the queue full or closed
  · have hpassed := hpc (.passed .data s.reading) (by
      rw [System.advance, hi]
      dsimp only
      rw [if_pos hfree, goto_pc]) fun _ ↦ ProducerPc.noConfusion
    rw [if_neg (show ¬s.queue.counted.free ≤ s.queue.counted.reserve from not_le.mpr hfree),
      System.advance, hpassed]
    dsimp only
    rw [System.push]
    rcases hpush : s'.queue.trySend (.yielding .data) with (_ | _) | q
    · rw [Queue.trySend_error hpush]
      dsimp only
      rw [goto_pc]
      rfl
    · rw [Queue.trySend_error hpush]
      dsimp only
      rw [goto_pc]
      rfl
    · rw [Queue.trySend_counted hpush]
      dsimp only
      rw [goto_pc]
      rfl
  · have hfailed := hpc (.failed .data) (by
      rw [System.advance, hi]
      dsimp only
      rw [if_neg hfree, goto_pc]) fun _ ↦ ProducerPc.noConfusion
    rw [if_pos (show s.queue.counted.free ≤ s.queue.counted.reserve from not_lt.mp hfree),
      System.advance, hfailed]
    dsimp only
    rw [goto_pc]
    rw [show (s'.queue.counted).closed = s'.queue.closed from rfl]
    rcases s'.queue.closed with _ | _
    · rfl
    · rfl

/-- Control takes a slot, and the writer a message, between the check and the push. -/
theorem trySendData_steps_between :
    let s := Run.exec step (start 4) [.call 0 (.yielding .data)]
    let s' := Run.exec step (s.advance 0) [.call 1 .control, .take]
    ∃ meanwhile, Run.exec Outbound.step s.queue.counted meanwhile = s'.queue.counted ∧
      ((s'.advance 0).queue.counted, (s'.advance 0).pc 0)
        = (s.queue.counted.trySendData meanwhile).map id ProducerPc.returned :=
  trySendData_steps (by decide) (by decide)

end System

/-- **The reserve.** In a run of any number of producers and the writer, every message that yields
to control leaves the reserve free, and control overflows only behind as many control messages as
the reserve has slots, exactly when every push that queues something is made on a check that is
still good. -/
theorem reserve_kept_iff (capacity : ℕ) (es : List Event) :
    Run.Ok System.step System.Timely (System.start capacity) es
      ↔ Run.Ok System.step System.Kept (System.start capacity) es :=
  Run.ok_iff_of_invariant (fun _ e h ↦ h.timely_iff e) (fun _ e h htimely ↦ h.step e htimely) es
    (System.start capacity) (System.inv_start capacity)

/-- Two pane streams on a queue of four, with the reserve of one slot and another slot free: both
pass the check on the one slot. -/
def crowd : List Event :=
  [.call 2 .control, .call 2 .control, .call 0 (.yielding .data), .call 1 (.yielding .data),
    .advance 0, .advance 1, .advance 0, .advance 1, .call 2 .control]

/-- The second of them takes the reserve, and the next control message closes the connection. -/
theorem reserve_taken : ¬Run.Ok System.step System.Kept (System.start 4) crowd := by
  have hcrowd : crowd = crowd.take 7 ++ [Event.advance 1, .call 2 .control] := rfl
  rw [hcrowd, Run.ok_append]
  rintro ⟨-, hkept, -⟩
  have hleaves := hkept.leaves .data rfl
  exact absurd hleaves (by decide)

end Kmux.ControlReserve
