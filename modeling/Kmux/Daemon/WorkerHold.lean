import Kmux.Lib.Run
import Mathlib.Data.List.Basic
import Mathlib.Data.List.Induction

/-!
# Holding a worker's reader

A pane in a worker process is parked by a handshake over two processes. The daemon closes the gate
of the client's input and queues a `Hold`; its request writer takes control requests first and input
only while the gate is open; the worker's request loop hands the hold to the PTY reader, which
answers `Held` behind every event for what it read; and the task that applies the events reports the
answer to the future of the hold.

Every access to a queue, to the gate or to the worker's hold cell is a step of its own, so that the
model has all interleavings of the two processes. The writer's `select!` is three polls: what it
finds in a queue may be stale by the time it polls the next one.

Two choices of the code carry the handshake. A hold closes the gate before it queues `Hold` and a
release opens it after `Release`, so whenever the writer reads an open gate the queue ends in a
released state. And the request queue is polled before the input queue, so an input that the writer
takes finds every `Hold` before it followed by its `Release`.
-/

namespace Kmux

namespace WorkerHold

/-! ## The two processes -/

/-- Client inputs that the daemon queues for a worker at most. -/
def inputQueueCapacity : ℕ := 256

/-- What the daemon sends. `input` is `Input`, `Keys` or `Paste`; `control` is any request that has
to do neither with the reader nor with the PTY, and the worker may answer it. -/
inductive WorkerRequest (ι : Type*)
  | hold (id : ℕ)
  | release
  | input (i : ι)
  | control (answered : Bool)
  deriving DecidableEq, Repr

/-- What the worker sends. `output n` is an event for bytes of the `n`-th read or before. -/
inductive WorkerEvent
  | output (read : ℕ)
  | held (id : ℕ)
  | other
  deriving DecidableEq, Repr

/-- Where the worker's reader stands, as its event stream says. -/
inductive Parked
  | reading
  | held (id : ℕ)
  | gone
  deriving DecidableEq, Repr

/-- A call of `hold_reader` or `release_reader` that has made its first access and not its last. -/
inductive Call
  | idle
  /-- The gate is closed, and `Hold` is sent next. -/
  | holding (id : ℕ)
  /-- `Release` is sent, and the gate is opened next. -/
  | releasing
  deriving DecidableEq, Repr

/-- Where `write_requests` is. `inputOpen` is the gate as it was read at the top of the loop. -/
inductive WriterPc (ι : Type*)
  | top
  | selecting (inputOpen : Bool)
  /-- The request queue was empty. -/
  | noRequest (inputOpen : Bool)
  /-- The gate has not changed either. -/
  | unchanged (inputOpen : Bool)
  | suspended (inputOpen : Bool)
  | sending (req : WorkerRequest ι)
  /-- The socket is closed, and the loop has ended. -/
  | failed (req : WorkerRequest ι)
  deriving DecidableEq, Repr

/-- Where `pty_read_loop` is. -/
inductive ReaderPc
  | selecting
  /-- No hold is asked for, and the read is polled next. -/
  | polled
  | suspended
  /-- Bytes were read, and their diff is not sent yet. -/
  | read
  /-- A hold was seen, and `park` is about to say so. -/
  | asked (id : ℕ)
  | parked (id : ℕ)
  | ended
  deriving DecidableEq, Repr

/-- What has become of the future of a hold. -/
inductive Outcome
  | pending
  /-- It resolved because the worker parked for it, after so many reads. -/
  | parked (reads : ℕ)
  /-- It resolved because the worker is gone. -/
  | gone
  deriving DecidableEq, Repr

structure HoldFuture where
  id : ℕ
  outcome : Outcome
  deriving DecidableEq, Repr

/-- The way of a request: the calls, the gate, the two queues, the writer, the socket, and the
worker's request loop. -/
structure Line (ι : Type*) where
  nextHold : ℕ
  inputHeld : Bool
  /-- `input_held` was set after the writer last looked. -/
  changed : Bool
  call : Call
  requests : List (WorkerRequest ι)
  inputs : List ι
  writer : WriterPc ι
  socket : List (WorkerRequest ι)
  /-- The worker's process runs. -/
  alive : Bool
  /-- The input that the request loop is writing to the PTY. -/
  writing : Option ι
  hold : Option ℕ
  /-- The requests written to the socket so far, and those the worker has taken up. -/
  written : List (WorkerRequest ι)
  served : List (WorkerRequest ι)
  /-- The inputs queued so far, and those written to the PTY. -/
  accepted : List ι
  typed : List ι
  deriving DecidableEq, Repr

/-- The daemon's handle with its tasks, the worker, and what lies between them. -/
structure State (ι : Type*) extends Line ι where
  reader : ReaderPc
  /-- Reads so far, and how many of them had their diff sent. -/
  reads : ℕ
  flushed : ℕ
  events : List WorkerEvent
  parked : Parked
  /-- The futures that can still be polled. -/
  futures : List HoldFuture
  /-- The output events sent so far, and those applied to the mirror. -/
  emitted : List ℕ
  applied : List ℕ
  deriving DecidableEq, Repr

/-- The steps of the two processes. -/
inductive Step (ι : Type*)
  /-- `hold_reader` takes an id and closes the gate. -/
  | hold
  /-- `release_reader` sends `Release`. Whoever calls it has no future left to poll. -/
  | release
  /-- The second half of the call. -/
  | finishCall
  | request (answered : Bool)
  | enqueueInput (i : ι)
  /-- Poll the `k`-th future. -/
  | poll (k : ℕ)
  | readGate
  | pollRequests
  /-- Poll `input_hold.changed()`. A value that was stored before the writer was notified is not
  seen by a `select!` that had been suspended. -/
  | pollChanged (notified : Bool)
  | pollInputs
  | wakeWriter
  | send
  | applyEvent
  /-- The supervisor gives the worker up: its stream ended or went bad, or a ping was left
  unanswered. The worker may still run. -/
  | giveUp
  /-- The request loop takes up the next request. -/
  | serve
  /-- The PTY has taken the input that the request loop is writing. -/
  | typeInput
  /-- Poll `hold_requested`, in a fresh `select!` or in one that was woken. -/
  | pollHold
  | readReady
  | readPending
  | tick (title : Bool)
  | readEof
  | tryRead
  /-- The emulator reports something while it is fed. -/
  | feedEvent
  | emitDiff (changed : Bool)
  | reportHeld
  | observeHold
  | die
  deriving DecidableEq, Repr

variable {ι : Type*}

/-- The future sees the worker parked for its id, or gone. -/
def HoldFuture.poll (parked : Parked) (reads : ℕ) (f : HoldFuture) : HoldFuture :=
  if f.outcome = .pending then
    if parked = .held f.id then { f with outcome := .parked reads }
    else if parked = .gone then { f with outcome := .gone }
    else f
  else f

namespace State

/-- A worker that was just started, with nothing asked of it yet. -/
def spawned : State ι :=
  { nextHold := 1
    inputHeld := false
    changed := false
    call := .idle
    requests := []
    inputs := []
    writer := .top
    socket := []
    events := []
    parked := .reading
    futures := []
    alive := true
    writing := none
    hold := none
    reader := .selecting
    reads := 0
    flushed := 0
    written := []
    served := []
    emitted := []
    applied := []
    accepted := []
    typed := [] }

/-- `hold_reader` and `release_reader` end. -/
def finishCall (s : State ι) : State ι :=
  match s.call with
  | .idle => s
  | .holding id =>
    { s with
      call := .idle
      requests := s.requests ++ [.hold id]
      futures := s.futures ++ [⟨id, .pending⟩] }
  | .releasing => { s with call := .idle, inputHeld := false, changed := true }

/-- The top of the writer's loop, `borrow_and_update` on the gate. -/
def readGate (s : State ι) : State ι :=
  match s.writer with
  | .top => { s with writer := .selecting (!s.inputHeld), changed := false }
  | _ => s

/-- The writer polls `req_rx.recv()`, the first branch of its `select!`. -/
def pollRequests (s : State ι) : State ι :=
  match s.writer, s.requests with
  | .selecting _, r :: rs => { s with writer := .sending r, requests := rs }
  | .selecting inputOpen, [] => { s with writer := .noRequest inputOpen }
  | _, _ => s

/-- The writer polls `input_hold.changed()`, the second branch. -/
def pollChanged (s : State ι) (notified : Bool) : State ι :=
  match s.writer with
  | .noRequest inputOpen =>
    if s.changed && notified then { s with writer := .top }
    else { s with writer := .unchanged inputOpen }
  | _ => s

/-- The writer polls `input_rx.recv()` if the gate was open, the last branch. -/
def pollInputs (s : State ι) : State ι :=
  match s.writer, s.inputs with
  | .unchanged true, i :: is => { s with writer := .sending (.input i), inputs := is }
  | .unchanged inputOpen, _ => { s with writer := .suspended inputOpen }
  | _, _ => s

/-- The suspended `select!` is polled again, from its first branch on. -/
def wakeWriter (s : State ι) : State ι :=
  match s.writer with
  | .suspended inputOpen => { s with writer := .selecting inputOpen }
  | _ => s

/-- The frame is on the socket once it has room, or the write fails because the worker is gone. -/
def send (room : ℕ) (s : State ι) : State ι :=
  match s.writer with
  | .sending r =>
    if s.alive then
      if s.socket.length ≤ room then
        { s with writer := .top, socket := s.socket ++ [r], written := s.written ++ [r] }
      else s
    else { s with writer := .failed r }
  | _ => s

/-- One event of the stream, unless the supervisor has stopped reading it. -/
def applyEvent (s : State ι) : State ι :=
  if s.parked = .gone then s
  else
    match s.events with
    | [] => s
    | .output n :: events => { s with events := events, applied := s.applied ++ [n] }
    | .held id :: events => { s with events := events, parked := .held id }
    | .other :: events => { s with events := events }

/-- `request_loop` and `handle_request`, up to the await of a PTY write. -/
def serve (s : State ι) : State ι :=
  match s.writing, s.socket with
  | none, r :: socket =>
    let s' := { s with socket := socket, served := s.served ++ [r] }
    match r with
    | .hold id => { s' with hold := some id }
    | .release => { s' with hold := none }
    | .input i => { s' with writing := some i }
    | .control answered => if answered then { s' with events := s.events ++ [.other] } else s'
  | _, _ => s

/-- The PTY write of `handle_request` ends. -/
def typeInput (s : State ι) : State ι :=
  match s.writing with
  | some i => { s with writing := none, typed := s.typed ++ [i] }
  | none => s

/-- The reader polls `hold_requested`. The worker's runtime has one thread, so a hold has notified
the reader by the time it is polled. -/
def pollHold (s : State ι) : State ι :=
  if s.reader = .selecting ∨ s.reader = .suspended then
    match s.hold with
    | some id => { s with reader := .asked id }
    | none => { s with reader := .polled }
  else s

/-- `park` says that the reader is parked. -/
def reportHeld (s : State ι) : State ι :=
  match s.reader with
  | .asked id => { s with reader := .parked id, events := s.events ++ [.held id] }
  | _ => s

/-- `park` returns once the hold is released or replaced. -/
def observeHold (s : State ι) : State ι :=
  match s.reader with
  | .parked id => if s.hold ≠ some id then { s with reader := .selecting } else s
  | _ => s

/-- The reader's other steps. They are taken by a running worker only. -/
def read (s : State ι) : Step ι → State ι
  | .readReady => if s.reader = .polled then { s with reader := .read, reads := s.reads + 1 } else s
  | .readPending => if s.reader = .polled then { s with reader := .suspended } else s
  | .tick title =>
    if s.reader = .polled then
      { s with reader := .selecting, events := if title then s.events ++ [.other] else s.events }
    else s
  | .readEof =>
    if s.reader = .polled then { s with reader := .ended, events := s.events ++ [.other] } else s
  | .tryRead => if s.reader = .read then { s with reads := s.reads + 1 } else s
  | .feedEvent =>
    if s.reader = .read then
      { s with events := s.events ++ [.output s.reads], emitted := s.emitted ++ [s.reads] }
    else s
  | .emitDiff changed =>
    if s.reader = .read then
      if changed then
        { s with
          reader := .selecting
          flushed := s.reads
          events := s.events ++ [.output s.reads]
          emitted := s.emitted ++ [s.reads] }
      else { s with reader := .selecting, flushed := s.reads }
    else s
  | _ => s

/-- One step. `room` is what the socket takes beyond one frame. A call is made by one task at a
time: a handoff holds and releases in turn, and the next one starts when it is settled. -/
def step (room : ℕ) (s : State ι) : Step ι → State ι
  | .hold =>
    if s.call = .idle then
      { s with
        nextHold := s.nextHold + 1
        inputHeld := true
        changed := true
        call := .holding s.nextHold }
    else s
  | .release =>
    if s.call = .idle then
      { s with requests := s.requests ++ [.release], futures := [], call := .releasing }
    else s
  | .finishCall => s.finishCall
  | .request answered => { s with requests := s.requests ++ [.control answered] }
  | .enqueueInput i =>
    if s.inputs.length < inputQueueCapacity then
      { s with inputs := s.inputs ++ [i], accepted := s.accepted ++ [i] }
    else s
  | .poll k => { s with futures := s.futures.modify k (HoldFuture.poll s.parked s.reads) }
  | .readGate => s.readGate
  | .pollRequests => s.pollRequests
  | .pollChanged notified => s.pollChanged notified
  | .pollInputs => s.pollInputs
  | .wakeWriter => s.wakeWriter
  | .send => s.send room
  | .applyEvent => s.applyEvent
  | .giveUp => { s with parked := .gone }
  | .serve => if s.alive then s.serve else s
  | .typeInput => if s.alive then s.typeInput else s
  | .pollHold => if s.alive then s.pollHold else s
  | .reportHeld => if s.alive then s.reportHeld else s
  | .observeHold => if s.alive then s.observeHold else s
  | .die => { s with alive := false }
  | e => if s.alive then s.read e else s

end State

/-! ## The hold that stands -/

/-- What a request makes of the hold. -/
def WorkerRequest.apply (hold : Option ℕ) : WorkerRequest ι → Option ℕ
  | .hold id => some id
  | .release => none
  | _ => hold

/-- The input that a request carries. -/
def WorkerRequest.input? : WorkerRequest ι → Option ι
  | .input i => some i
  | _ => none

/-- The hold that stands behind a list of requests. -/
def standing (hold : Option ℕ) (reqs : List (WorkerRequest ι)) : Option ℕ :=
  reqs.foldl WorkerRequest.apply hold

/-- No input comes while a hold stands. -/
def Gated : Option ℕ → List (WorkerRequest ι) → Prop
  | _, [] => True
  | hold, r :: reqs => (r.input?.isSome = true → hold = none) ∧ Gated (r.apply hold) reqs

/-- The inputs among the requests. -/
def inputsOf (reqs : List (WorkerRequest ι)) : List ι := reqs.filterMap WorkerRequest.input?

theorem standing_append (hold : Option ℕ) (reqs reqs' : List (WorkerRequest ι)) :
    standing hold (reqs ++ reqs') = standing (standing hold reqs) reqs' := List.foldl_append

theorem standing_concat (hold : Option ℕ) (reqs : List (WorkerRequest ι)) (r : WorkerRequest ι) :
    standing hold (reqs ++ [r]) = r.apply (standing hold reqs) := standing_append hold reqs [r]

/-- An input leaves the hold as it is. -/
theorem apply_of_input {r : WorkerRequest ι} (h : r.input?.isSome = true) (hold : Option ℕ) :
    r.apply hold = hold := by
  rcases r with id | _ | i | answered
  · simp [WorkerRequest.input?] at h
  · simp [WorkerRequest.input?] at h
  · rfl
  · rfl

theorem gated_append (reqs reqs' : List (WorkerRequest ι)) : ∀ hold : Option ℕ,
    Gated hold (reqs ++ reqs') ↔ Gated hold reqs ∧ Gated (standing hold reqs) reqs' := by
  induction reqs with
  | nil => exact fun hold ↦ (and_iff_right trivial).symm
  | cons r reqs ih =>
    intro hold
    rw [List.cons_append, Gated, Gated, ih, and_assoc]
    rfl

/-- A hold stands until a `Release` comes. -/
theorem standing_isSome {reqs : List (WorkerRequest ι)} (h : .release ∉ reqs) :
    ∀ {hold : Option ℕ}, hold.isSome = true → (standing hold reqs).isSome = true := by
  induction reqs with
  | nil => exact fun hs ↦ hs
  | cons r reqs ih =>
    intro hold hs
    refine ih (fun hmem ↦ h (List.mem_cons_of_mem r hmem)) ?_
    rcases r with id | _ | i | answered
    · rfl
    · exact absurd List.mem_cons_self h
    · exact hs
    · exact hs

/-- Only a `Release` takes a hold away. -/
theorem release_mem_of_standing {reqs : List (WorkerRequest ι)} {hold : Option ℕ}
    (hs : hold.isSome = true) (h : standing hold reqs = none) : .release ∈ reqs := by
  by_contra hmem
  have hsome : (standing hold reqs).isSome = true := standing_isSome hmem hs
  rw [h] at hsome
  exact Bool.noConfusion hsome

/-- A hold that stands was asked for. -/
theorem hold_mem_of_standing {reqs : List (WorkerRequest ι)} {id : ℕ}
    (h : standing none reqs = some id) : .hold id ∈ reqs := by
  induction reqs using List.reverseRecOn with
  | nil => exact absurd h.symm (Option.some_ne_none id)
  | append_singleton reqs r ih =>
    rw [standing_concat] at h
    rcases r with id' | _ | i | answered
    · have hid : id' = id := Option.some.inj h
      exact hid ▸ List.mem_append_right _ List.mem_cons_self
    · exact absurd h.symm (Option.some_ne_none id)
    · exact List.mem_append_left _ (ih h)
    · exact List.mem_append_left _ (ih h)

/-- **Between a `Hold` and its `Release` there is no input.** -/
theorem release_mem_of_gated {pre mid post : List (WorkerRequest ι)} {id : ℕ} {i : ι}
    (h : Gated none (pre ++ .hold id :: (mid ++ .input i :: post))) : .release ∈ mid := by
  have hmid : Gated (some id) (mid ++ WorkerRequest.input i :: post) :=
    ((gated_append _ _ _).mp h).2.2
  have hnone : standing (some id) mid = none := ((gated_append _ _ _).mp hmid).2.1 rfl
  exact release_mem_of_standing rfl hnone

@[simp] theorem inputsOf_nil : inputsOf ([] : List (WorkerRequest ι)) = [] := rfl

@[simp] theorem inputsOf_append (reqs reqs' : List (WorkerRequest ι)) :
    inputsOf (reqs ++ reqs') = inputsOf reqs ++ inputsOf reqs' := List.filterMap_append

theorem inputsOf_cons (r : WorkerRequest ι) (reqs : List (WorkerRequest ι)) :
    inputsOf (r :: reqs) = r.input?.toList ++ inputsOf reqs := by
  rw [inputsOf, List.filterMap_cons]
  rcases r.input? with _ | i <;> rfl

/-! ## What is on its way -/

/-- The gate was open when the writer last read it, and it has found no request since. -/
def WriterPc.Opened : WriterPc ι → Prop
  | .noRequest inputOpen => inputOpen = true
  | .unchanged inputOpen => inputOpen = true
  | .suspended inputOpen => inputOpen = true
  | _ => False

/-- The gate as the writer has it. -/
def WriterPc.gate? : WriterPc ι → Option Bool
  | .selecting inputOpen => some inputOpen
  | .noRequest inputOpen => some inputOpen
  | .unchanged inputOpen => some inputOpen
  | .suspended inputOpen => some inputOpen
  | _ => none

/-- The request that the writer has in hand. -/
def WriterPc.inHand : WriterPc ι → List (WorkerRequest ι)
  | .sending r => [r]
  | .failed r => [r]
  | _ => []

namespace Line

/-- Every request so far in the order in which the worker sees them: the control requests that were
made, and the inputs that the writer has taken. -/
def asked (l : Line ι) : List (WorkerRequest ι) := l.written ++ l.writer.inHand ++ l.requests

/-- The inputs between the queue's tail and the PTY. -/
def underway (l : Line ι) : List ι :=
  l.writing.toList ++ inputsOf l.socket ++ inputsOf l.writer.inHand ++ l.inputs

/-- What holds of the requests on their way. -/
structure Pipe (l : Line ι) : Prop where
  written_eq : l.written = l.served ++ l.socket
  hold_eq : l.hold = standing none l.served
  gated : Gated none (l.written ++ l.writer.inHand)
  /-- The request loop is stuck behind an input only while no hold stands. -/
  writing : l.writing.isSome = true → l.hold = none
  order : l.accepted = l.typed ++ l.underway
  control : ∀ r ∈ l.requests, r.input? = none
  failed : ∀ r, l.writer = .failed r → l.alive = false

/-- What holds of the calls: the state of the gate against the requests asked for, and the ids. -/
structure Calls (l : Line ι) : Prop where
  idle : l.call = .idle → l.inputHeld = (standing none l.asked).isSome
  holding : ∀ id, l.call = .holding id → l.inputHeld = true
  releasing : l.call = .releasing → standing none l.asked = none
  fresh : ∀ id, .hold id ∈ l.asked → id < l.nextHold ∧ ∀ id', l.call = .holding id' → id < id'
  call_lt : ∀ id, l.call = .holding id → id < l.nextHold

/-- What the writer knows of the gate. -/
structure Gate (l : Line ι) : Prop where
  opened : l.writer.Opened → standing none l.written = none
  selecting : l.writer = .selecting true → l.requests = [] → standing none l.written = none
  seen : ∀ inputOpen, l.writer.gate? = some inputOpen → l.changed = false → inputOpen = !l.inputHeld

/-- No `Release` was asked for after the hold with this id. -/
def Unreleased (l : Line ι) (id : ℕ) : Prop :=
  l.asked.Pairwise fun r r' ↦ r = .hold id → r' ≠ .release

theorem Calls.congr {l l' : Line ι} (h : l.Calls) (hasked : l'.asked = l.asked)
    (hcall : l'.call = l.call) (hheld : l'.inputHeld = l.inputHeld)
    (hnext : l'.nextHold = l.nextHold) : l'.Calls := by
  refine ⟨?_, ?_, ?_, ?_, ?_⟩
  · rw [hcall, hheld, hasked]; exact h.idle
  · rw [hcall, hheld]; exact h.holding
  · rw [hcall, hasked]; exact h.releasing
  · rw [hcall, hasked, hnext]; exact h.fresh
  · rw [hcall, hnext]; exact h.call_lt

theorem Unreleased.congr {l l' : Line ι} {id : ℕ} (h : l.Unreleased id)
    (hasked : l'.asked = l.asked) : l'.Unreleased id := by
  rw [Unreleased, hasked]
  exact h

/-- While a hold is not released, what the worker has taken up leaves a hold standing. -/
theorem Pipe.hold_isSome {l : Line ι} (h : l.Pipe) {id : ℕ} (hu : l.Unreleased id)
    (hmem : .hold id ∈ l.served) : l.hold.isSome = true := by
  obtain ⟨pre, post, hserved⟩ := List.append_of_mem hmem
  have hpost : .release ∉ post := by
    intro hrel
    rw [Unreleased, asked, h.written_eq, hserved, List.append_assoc, List.append_assoc] at hu
    have hhold := (List.pairwise_append.mp (List.pairwise_append.mp hu).1).2.1
    exact (List.pairwise_cons.mp hhold).1 _ hrel rfl rfl
  rw [h.hold_eq, hserved, standing_append]
  exact standing_isSome hpost rfl

end Line

namespace State

/-- What holds of the way of the requests, with the futures of the holds. -/
structure Ordered (s : State ι) : Prop where
  pipe : s.Pipe
  calls : s.Calls
  gate : s.Gate
  unreleased : ∀ f ∈ s.futures, s.Unreleased f.id

theorem ordered_spawned : (spawned : State ι).Ordered where
  pipe :=
    ⟨rfl, rfl, trivial, fun h ↦ by simp [spawned] at h, rfl, fun _ h ↦ absurd h List.not_mem_nil,
      fun _ h ↦ by simp [spawned] at h⟩
  calls :=
    ⟨fun _ ↦ rfl, fun _ h ↦ by simp [spawned] at h, fun _ ↦ rfl,
      fun _ h ↦ absurd h List.not_mem_nil, fun _ h ↦ by simp [spawned] at h⟩
  gate :=
    ⟨fun h ↦ absurd h id, fun _ _ ↦ rfl, fun _ h ↦ by simp [spawned, WriterPc.gate?] at h⟩
  unreleased := fun _ h ↦ absurd h List.not_mem_nil

variable {s : State ι}

/-! ### The calls -/

theorem ordered_hold (h : s.Ordered) (room : ℕ) : (s.step room .hold).Ordered := by
  rw [step]
  by_cases hc : s.call = .idle
  · rw [if_pos hc]
    refine ⟨⟨h.pipe.1, h.pipe.2, h.pipe.3, h.pipe.4, h.pipe.5, h.pipe.6, h.pipe.7⟩, ?_, ?_,
      h.unreleased⟩
    · refine ⟨fun hcall ↦ Call.noConfusion hcall, fun _ _ ↦ rfl, fun hcall ↦ Call.noConfusion hcall,
        fun id hid ↦ ?_, fun id hid ↦ ?_⟩
      · have hlt : id < s.nextHold := (h.calls.fresh id hid).1
        refine ⟨Nat.lt_succ_of_lt hlt, fun id' hid' ↦ ?_⟩
        rwa [← Call.holding.inj hid']
      · rw [← Call.holding.inj hid]
        exact Nat.lt_succ_self _
    · exact ⟨h.gate.1, h.gate.2, fun _ _ hch ↦ Bool.noConfusion hch⟩
  · rwa [if_neg hc]

/-- A request is queued: nothing that the writer knows of the gate changes. -/
private theorem gate_push (h : s.Gate) (r : WorkerRequest ι) (c : Call) :
    ({ s.toLine with requests := s.requests ++ [r], call := c } : Line ι).Gate :=
  ⟨h.1, fun _ hr ↦ absurd hr (List.append_ne_nil_of_right_ne_nil _ (List.cons_ne_nil _ _)), h.3⟩

private theorem pipe_push (h : s.Pipe) {r : WorkerRequest ι} (hr : r.input? = none) (c : Call) :
    ({ s.toLine with requests := s.requests ++ [r], call := c } : Line ι).Pipe := by
  refine ⟨h.1, h.2, h.3, h.4, h.5, fun r' hr' ↦ ?_, h.7⟩
  rcases List.mem_append.mp hr' with hr' | hr'
  · exact h.control r' hr'
  · rw [List.mem_singleton.mp hr', hr]

/-- What is asked for grows at its end. -/
private theorem asked_push (l : Line ι) (r : WorkerRequest ι) (c : Call) :
    ({ l with requests := l.requests ++ [r], call := c } : Line ι).asked = l.asked ++ [r] :=
  (List.append_assoc _ _ _).symm

theorem ordered_release (h : s.Ordered) (room : ℕ) : (s.step room .release).Ordered := by
  rw [step]
  by_cases hc : s.call = .idle
  · rw [if_pos hc]
    refine ⟨pipe_push h.pipe rfl _, ⟨fun hcall ↦ Call.noConfusion hcall,
      fun _ hcall ↦ Call.noConfusion hcall, fun _ ↦ ?_, fun id hid ↦ ?_,
      fun _ hcall ↦ Call.noConfusion hcall⟩, gate_push h.gate _ _,
      fun _ hf ↦ absurd hf List.not_mem_nil⟩
    · rw [asked_push, standing_concat]
      rfl
    · rw [asked_push] at hid
      have hid : .hold id ∈ s.asked := by simpa using hid
      exact ⟨(h.calls.fresh id hid).1, fun _ hcall ↦ Call.noConfusion hcall⟩
  · rwa [if_neg hc]

theorem ordered_finishCall (h : s.Ordered) : s.finishCall.Ordered := by
  rw [finishCall]
  rcases hc : s.call with _ | id | _
  · exact h
  · -- `Hold` is sent, with an id that no request had before.
    refine ⟨pipe_push h.pipe rfl _, ⟨fun _ ↦ ?_, fun _ hcall ↦ Call.noConfusion hcall,
      fun hcall ↦ Call.noConfusion hcall, fun id' hid' ↦ ⟨?_, fun _ hcall ↦ Call.noConfusion hcall⟩,
      fun _ hcall ↦ Call.noConfusion hcall⟩, gate_push h.gate _ _, fun f hf ↦ ?_⟩
    · rw [asked_push, standing_concat]
      exact h.calls.holding id hc
    · rw [asked_push] at hid'
      rcases List.mem_append.mp hid' with hid' | hid'
      · exact (h.calls.fresh id' hid').1
      · have hid' : id' = id := by simpa using hid'
        exact hid' ▸ h.calls.call_lt id hc
    · rw [Line.Unreleased, asked_push, List.pairwise_append]
      rcases List.mem_append.mp hf with hf | hf
      · exact ⟨h.unreleased f hf, List.pairwise_singleton _ _, by simp⟩
      · have hid : f.id = id := by rw [List.mem_singleton.mp hf]
        refine ⟨List.pairwise_iff_forall_sublist.mpr fun hsub heq ↦ ?_, List.pairwise_singleton _ _,
          by simp⟩
        rw [hid] at heq
        have hmem : .hold id ∈ s.asked := heq ▸ hsub.subset List.mem_cons_self
        exact absurd ((h.calls.fresh id hmem).2 id hc) (Nat.lt_irrefl id)
  · -- The gate is opened; `Release` went before.
    refine ⟨⟨h.pipe.1, h.pipe.2, h.pipe.3, h.pipe.4, h.pipe.5, h.pipe.6, h.pipe.7⟩,
      ⟨fun _ ↦ ?_, fun _ hcall ↦ Call.noConfusion hcall, fun hcall ↦ Call.noConfusion hcall,
        fun id hid ↦ ⟨(h.calls.fresh id hid).1, fun _ hcall ↦ Call.noConfusion hcall⟩,
        fun _ hcall ↦ Call.noConfusion hcall⟩,
      ⟨h.gate.1, h.gate.2, fun _ _ hch ↦ Bool.noConfusion hch⟩, h.unreleased⟩
    have hnone : standing none s.asked = none := h.calls.releasing hc
    exact (congrArg Option.isSome hnone).symm

theorem ordered_request (h : s.Ordered) (room : ℕ) (answered : Bool) :
    (s.step room (.request answered)).Ordered := by
  have hasked : Line.asked
      { s.toLine with requests := s.requests ++ [WorkerRequest.control answered] } =
        s.asked ++ [WorkerRequest.control answered] := asked_push s.toLine _ s.call
  have hstand :
      standing none (s.asked ++ [WorkerRequest.control answered]) = standing none s.asked :=
    standing_concat _ _ _
  refine ⟨pipe_push h.pipe rfl s.call, ⟨?_, h.calls.holding, ?_, ?_, h.calls.call_lt⟩,
    gate_push h.gate _ s.call, fun f hf ↦ ?_⟩
  · rw [step, hasked, hstand]
    exact h.calls.idle
  · rw [step, hasked, hstand]
    exact h.calls.releasing
  · rw [step, hasked]
    intro id hid
    exact h.calls.fresh id (by simpa using hid)
  · rw [step, Line.Unreleased, hasked, List.pairwise_append]
    exact ⟨h.unreleased f hf, List.pairwise_singleton _ _, by simp⟩

theorem ordered_enqueueInput (h : s.Ordered) (room : ℕ) (i : ι) :
    (s.step room (.enqueueInput i)).Ordered := by
  rw [step]
  split
  · refine ⟨⟨h.pipe.1, h.pipe.2, h.pipe.3, h.pipe.4, ?_, h.pipe.6, h.pipe.7⟩,
      h.calls.congr rfl rfl rfl rfl, ⟨h.gate.1, h.gate.2, h.gate.3⟩,
      fun f hf ↦ (h.unreleased f hf).congr rfl⟩
    have horder : s.accepted = s.typed ++ s.underway := h.pipe.order
    rw [Line.underway, ← List.append_assoc] at horder
    simp only [Line.underway, horder, List.append_assoc]
  · exact h

/-! ### The writer -/

/-- A move of the writer between two places where it has nothing in hand. -/
private theorem ordered_move (h : s.Ordered) {pc pc' : WriterPc ι} (hpc : s.writer = pc)
    (hhand : pc.inHand = []) (hhand' : pc'.inHand = []) {changed : Bool}
    (hfailed : ∀ r, pc' ≠ .failed r)
    (hgate : ({ s.toLine with writer := pc', changed := changed } : Line ι).Gate) :
    ({ s with writer := pc', changed := changed } : State ι).Ordered := by
  have hsame : pc'.inHand = s.writer.inHand := by rw [hpc, hhand, hhand']
  have hasked : ({ s.toLine with writer := pc', changed := changed } : Line ι).asked = s.asked := by
    simp only [Line.asked, hsame]
  refine ⟨⟨h.pipe.1, h.pipe.2, ?_, h.pipe.4, ?_, h.pipe.6, fun r hr ↦ absurd hr (hfailed r)⟩,
    h.calls.congr hasked rfl rfl rfl, hgate, fun f hf ↦ (h.unreleased f hf).congr hasked⟩
  · simp only [hsame]
    exact h.pipe.gated
  · simp only [Line.underway, hsame]
    exact h.pipe.order

/-- **An open gate is read behind a release.** -/
theorem ordered_readGate (h : s.Ordered) : s.readGate.Ordered := by
  rw [readGate]
  split
  case h_2 => exact h
  case h_1 hpc =>
    refine ordered_move h hpc rfl rfl (by simp)
      ⟨fun ho ↦ absurd ho id, fun hopen hreq ↦ ?_, fun inputOpen hgate _ ↦ ?_⟩
    · have hheld : s.inputHeld = false := by simpa using hopen
      have hasked : s.asked = s.written := by
        have hreq : s.requests = [] := hreq
        rw [Line.asked, hpc, hreq, List.append_nil]
        exact List.append_nil _
      have hnone : standing none s.asked = none := by
        rcases hc : s.call with _ | id | _
        · have hsome : (standing none s.asked).isSome = false := (h.calls.idle hc).symm.trans hheld
          exact Option.isNone_iff_eq_none.mp (Option.isSome_eq_false_iff.mp hsome)
        · exact absurd ((h.calls.holding id hc).symm.trans hheld) (by decide)
        · exact h.calls.releasing hc
      rwa [hasked] at hnone
    · exact (Option.some.inj hgate).symm

theorem ordered_pollRequests (h : s.Ordered) : s.pollRequests.Ordered := by
  rw [pollRequests]
  split
  case h_1 inputOpen r rs hpc hreq =>
    have hasked : ({ s.toLine with writer := .sending r, requests := rs } : Line ι).asked =
        s.asked := by
      simp [Line.asked, hpc, hreq, WriterPc.inHand]
    have hr : r.input? = none := h.pipe.control r (hreq ▸ List.mem_cons_self)
    have hgated : Gated none s.written := by simpa [hpc, WriterPc.inHand] using h.pipe.gated
    refine ⟨⟨h.pipe.1, h.pipe.2, ?_, h.pipe.4, ?_, fun r' hr' ↦ ?_, fun r' hr' ↦ ?_⟩,
      h.calls.congr hasked rfl rfl rfl, ⟨fun ho ↦ absurd ho id, fun hsel ↦ ?_, fun _ hg ↦ ?_⟩,
      fun f hf ↦ (h.unreleased f hf).congr hasked⟩
    · exact (gated_append _ _ _).mpr ⟨hgated, by simp [Gated, WriterPc.inHand, hr]⟩
    · have horder := h.pipe.order
      simpa [Line.underway, hpc, WriterPc.inHand, inputsOf_cons, hr] using horder
    · exact h.pipe.control r' (hreq ▸ List.mem_cons_of_mem r hr')
    · simp at hr'
    · simp at hsel
    · simp [WriterPc.gate?] at hg
  case h_2 inputOpen hpc hreq =>
    refine ordered_move h hpc rfl rfl (by simp)
      ⟨fun hopen ↦ ?_, fun hsel ↦ by simp at hsel, fun o hg ↦ ?_⟩
    · exact h.gate.selecting (by rw [hpc]; exact congrArg _ hopen) hreq
    · exact h.gate.seen o (by rw [hpc]; exact hg)
  case h_3 => exact h

theorem ordered_pollChanged (h : s.Ordered) (notified : Bool) :
    (s.pollChanged notified).Ordered := by
  rw [pollChanged]
  split
  case h_1 inputOpen hpc =>
    split
    · exact ordered_move h hpc rfl rfl (by simp)
        ⟨fun ho ↦ absurd ho id, fun hsel ↦ by simp at hsel,
          fun o hg ↦ by simp [WriterPc.gate?] at hg⟩
    · refine ordered_move h hpc rfl rfl (by simp)
        ⟨fun hopen ↦ ?_, fun hsel ↦ by simp at hsel, fun o hg ↦ ?_⟩
      · exact h.gate.opened (by rw [hpc]; exact hopen)
      · exact h.gate.seen o (by rw [hpc]; exact hg)
  case h_2 => exact h

/-- **An input that is taken finds every hold released**: it goes out in a released state. -/
theorem ordered_pollInputs (h : s.Ordered) : s.pollInputs.Ordered := by
  rw [pollInputs]
  split
  case h_1 i is hpc hinputs =>
    have hnone : standing none s.written = none := h.gate.opened (by rw [hpc]; exact rfl)
    -- nothing was in hand, and now the input is
    have hold : s.asked = s.written ++ s.requests := by
      simp [Line.asked, hpc, WriterPc.inHand]
    have hnew : ({ s.toLine with writer := .sending (.input i), inputs := is } : Line ι).asked =
        s.written ++ [WorkerRequest.input i] ++ s.requests := rfl
    -- an input holds and releases nothing
    have hstand :
        standing none (s.written ++ [WorkerRequest.input i] ++ s.requests)
          = standing none s.asked := by
      rw [hold, standing_append, standing_append, standing_append]
      rfl
    refine ⟨⟨h.pipe.1, h.pipe.2, ?_, h.pipe.4, ?_, h.pipe.6, fun r hr ↦ ?_⟩,
      ⟨?_, h.calls.holding, ?_, fun id hid ↦ ?_, h.calls.call_lt⟩,
      ⟨fun ho ↦ absurd ho id, fun hsel ↦ ?_, fun _ hg ↦ ?_⟩, fun f hf ↦ ?_⟩
    · have hgated : Gated none s.written := by simpa [hpc, WriterPc.inHand] using h.pipe.gated
      exact (gated_append _ _ _).mpr ⟨hgated, fun _ ↦ hnone, trivial⟩
    · have horder := h.pipe.order
      simpa [Line.underway, hpc, hinputs, WriterPc.inHand, inputsOf_cons, WorkerRequest.input?]
        using horder
    · simp at hr
    · rw [hnew, hstand]
      exact h.calls.idle
    · rw [hnew, hstand]
      exact h.calls.releasing
    · rw [hnew] at hid
      refine h.calls.fresh id ?_
      rw [hold]
      simpa using hid
    · simp at hsel
    · simp [WriterPc.gate?] at hg
    · have hu : s.Unreleased f.id := h.unreleased f hf
      rw [Line.Unreleased, hold, List.pairwise_append] at hu
      rw [Line.Unreleased, hnew, List.pairwise_append, List.pairwise_append]
      obtain ⟨hwritten, hrequests, hacross⟩ := hu
      refine ⟨⟨hwritten, List.pairwise_singleton _ _, by simp⟩, hrequests, fun r hr r' hr' ↦ ?_⟩
      rcases List.mem_append.mp hr with hr | hr
      · exact hacross r hr r' hr'
      · rw [List.mem_singleton.mp hr]
        intro heq
        simp at heq
  case h_2 inputOpen hpc _ =>
    refine ordered_move h hpc rfl rfl (by simp)
      ⟨fun hopen ↦ ?_, fun hsel ↦ by simp at hsel, fun o hg ↦ ?_⟩
    · exact h.gate.opened (by rw [hpc]; exact hopen)
    · exact h.gate.seen o (by rw [hpc]; exact hg)
  case h_3 => exact h

theorem ordered_wakeWriter (h : s.Ordered) : s.wakeWriter.Ordered := by
  rw [wakeWriter]
  split
  case h_1 inputOpen hpc =>
    refine ordered_move h hpc rfl rfl (by simp)
      ⟨fun hopen ↦ absurd hopen id, fun hsel _ ↦ ?_, fun o hg ↦ ?_⟩
    · have hopen : inputOpen = true := by simpa using hsel
      exact h.gate.opened (by rw [hpc]; exact hopen)
    · exact h.gate.seen o (by rw [hpc]; exact hg)
  case h_2 => exact h

theorem ordered_send (h : s.Ordered) (room : ℕ) : (s.send room).Ordered := by
  rw [send]
  split
  case h_2 => exact h
  case h_1 r hpc =>
    split
    · split
      · have hasked : s.written ++ [r] ++ [] ++ s.requests = s.asked := by
          simp [Line.asked, hpc, WriterPc.inHand]
        refine ⟨⟨?_, h.pipe.2, ?_, h.pipe.4, ?_, h.pipe.6, fun r' hr' ↦ ?_⟩,
          h.calls.congr hasked rfl rfl rfl, ⟨fun ho ↦ absurd ho id, fun hsel ↦ ?_, fun _ hg ↦ ?_⟩,
          fun f hf ↦ (h.unreleased f hf).congr hasked⟩
        · rw [h.pipe.written_eq, List.append_assoc]
        · have hgated := h.pipe.gated
          rw [hpc] at hgated
          simpa [WriterPc.inHand] using hgated
        · have horder := h.pipe.order
          simpa [Line.underway, hpc, WriterPc.inHand] using horder
        · simp at hr'
        · simp at hsel
        · simp [WriterPc.gate?] at hg
      · exact h
    · -- The worker is gone, and the writer's loop ends with the request in hand.
      rename_i hdead
      have hasked : ({ s.toLine with writer := .failed r } : Line ι).asked = s.asked := by
        simp [Line.asked, hpc, WriterPc.inHand]
      refine ⟨⟨h.pipe.1, h.pipe.2, ?_, h.pipe.4, ?_, h.pipe.6, fun _ _ ↦ by simpa using hdead⟩,
        h.calls.congr hasked rfl rfl rfl, ⟨fun ho ↦ absurd ho id, fun hsel ↦ ?_, fun _ hg ↦ ?_⟩,
        fun f hf ↦ (h.unreleased f hf).congr hasked⟩
      · have hgated := h.pipe.gated
        rwa [hpc] at hgated
      · have horder := h.pipe.order
        simpa [Line.underway, hpc, WriterPc.inHand] using horder
      · simp at hsel
      · simp [WriterPc.gate?] at hg

/-! ### The worker's request loop -/

/-- The request loop takes up `r`. -/
private theorem ordered_served (h : s.Ordered) {r : WorkerRequest ι}
    {socket : List (WorkerRequest ι)} (hw : s.writing = none) (hs : s.socket = r :: socket)
    {hold : Option ℕ} {writing : Option ι} (hhold : hold = r.apply s.hold)
    (hwriting : writing = r.input?) (events : List WorkerEvent) :
    ({ s with
        socket := socket
        served := s.served ++ [r]
        hold := hold
        writing := writing
        events := events } : State ι).Ordered := by
  refine ⟨⟨?_, ?_, h.pipe.3, fun hsome ↦ ?_, ?_, h.pipe.6, h.pipe.7⟩,
    h.calls.congr rfl rfl rfl rfl, ⟨h.gate.1, h.gate.2, h.gate.3⟩,
    fun f hf ↦ (h.unreleased f hf).congr rfl⟩
  · rw [h.pipe.written_eq, hs, List.append_assoc]
    rfl
  · rw [hhold, standing_concat, h.pipe.hold_eq]
  · have hsome : r.input?.isSome = true := hwriting ▸ hsome
    obtain ⟨i, hi⟩ := Option.isSome_iff_exists.mp hsome
    have hgated := h.pipe.gated
    rw [h.pipe.written_eq, hs, List.append_assoc, gated_append] at hgated
    have hnone : s.hold = none := h.pipe.hold_eq.trans (hgated.2.1 hsome)
    exact hhold.trans ((apply_of_input hsome s.hold).trans hnone)
  · have horder := h.pipe.order
    rw [Line.underway, hw, hs, inputsOf_cons] at horder
    simpa [Line.underway, hwriting] using horder

theorem ordered_serve (h : s.Ordered) : s.serve.Ordered := by
  rw [serve]
  split
  case h_2 => exact h
  case h_1 r socket hw hs =>
    rcases r with id | _ | i | answered
    · exact ordered_served h hw hs rfl hw s.events
    · exact ordered_served h hw hs rfl hw s.events
    · exact ordered_served h hw hs rfl rfl s.events
    · rcases answered with _ | _
      · exact ordered_served h hw hs rfl hw s.events
      · exact ordered_served h hw hs rfl hw (s.events ++ [WorkerEvent.other])

theorem ordered_typeInput (h : s.Ordered) : s.typeInput.Ordered := by
  rw [typeInput]
  split
  case h_2 => exact h
  case h_1 i hw =>
    have horder := h.pipe.order
    rw [Line.underway, hw] at horder
    exact ⟨⟨h.pipe.1, h.pipe.2, h.pipe.3, fun hsome ↦ Bool.noConfusion hsome,
        by simpa [Line.underway] using horder, h.pipe.6, h.pipe.7⟩,
      h.calls.congr rfl rfl rfl rfl, ⟨h.gate.1, h.gate.2, h.gate.3⟩,
      fun f hf ↦ (h.unreleased f hf).congr rfl⟩

end State

/-! ## What the reader has said -/

/-- The read that an output event is for. -/
def WorkerEvent.output? : WorkerEvent → Option ℕ
  | .output n => some n
  | _ => none

/-- The output events among the events. -/
def outputsOf (events : List WorkerEvent) : List ℕ := events.filterMap WorkerEvent.output?

@[simp] theorem outputsOf_append (events events' : List WorkerEvent) :
    outputsOf (events ++ events') = outputsOf events ++ outputsOf events' := List.filterMap_append

theorem outputsOf_cons (e : WorkerEvent) (events : List WorkerEvent) :
    outputsOf (e :: events) = e.output?.toList ++ outputsOf events := by
  rw [outputsOf, List.filterMap_cons]
  rcases e.output? with _ | n <;> rfl

theorem outputsOf_eq_nil {events : List WorkerEvent} (h : ∀ e ∈ events, e.output? = none) :
    outputsOf events = [] := List.filterMap_eq_nil_iff.mpr h

/-- The reader stands between two reads, and polls `hold_requested` before the next one. -/
def ReaderPc.BetweenReads : ReaderPc → Prop
  | .selecting => True
  | .asked _ => True
  | .parked _ => True
  | _ => False

/-- The hold resolved because the worker parked for it. -/
def HoldFuture.Parked (f : HoldFuture) : Prop := ∃ n, f.outcome = .parked n

namespace State

/-- The answer to the hold `id` is on its way, or is the last that was applied. -/
def Said (s : State ι) (id : ℕ) : Prop := .held id ∈ s.events ∨ s.parked = .held id

/-- What holds of the reader and of its answers. -/
structure Answers (s : State ι) : Prop where
  seen : ∀ id, s.reader = .asked id ∨ s.reader = .parked id → .hold id ∈ s.served
  said : ∀ id, s.Said id → .hold id ∈ s.served
  resolved : ∀ f ∈ s.futures, f.Parked → .hold f.id ∈ s.served
  emitted_eq : s.emitted = s.applied ++ outputsOf s.events
  flushed_eq : s.reader ≠ .read → s.flushed = s.reads
  /-- A reader that has answered a hold which is not released does not come to its next read. -/
  between : ∀ f ∈ s.futures, s.Said f.id ∨ f.Parked → s.reader.BetweenReads
  /-- Nothing is read behind the answer. -/
  quiet : ∀ f ∈ s.futures, s.events.Pairwise fun e e' ↦ e = .held f.id → e'.output? = none
  applied : ∀ f ∈ s.futures, s.parked = .held f.id ∨ f.Parked → outputsOf s.events = []
  reads_eq : ∀ f ∈ s.futures, ∀ n, f.outcome = .parked n → s.reads = n

theorem answers_spawned : (spawned : State ι).Answers where
  seen := fun _ h ↦ by simp [spawned] at h
  said := fun _ h ↦ by simp [spawned, Said] at h
  resolved := fun _ h ↦ absurd h List.not_mem_nil
  emitted_eq := rfl
  flushed_eq := fun _ ↦ rfl
  between := fun _ h ↦ absurd h List.not_mem_nil
  quiet := fun _ h ↦ absurd h List.not_mem_nil
  applied := fun _ h ↦ absurd h List.not_mem_nil
  reads_eq := fun _ h ↦ absurd h List.not_mem_nil

variable {s : State ι}

/-- Only the way of the requests changes, and the worker takes up none. -/
def LineOnly (s s' : State ι) : Prop :=
  ∃ l : Line ι, s' = { s with toLine := l } ∧ l.served = s.served

theorem LineOnly.refl (s : State ι) : s.LineOnly s := ⟨s.toLine, rfl, rfl⟩

theorem LineOnly.answers {s' : State ι} (hline : s.LineOnly s') (h : s.Answers) : s'.Answers := by
  obtain ⟨l, rfl, hserved⟩ := hline
  exact ⟨hserved ▸ h.seen, hserved ▸ h.said, hserved ▸ h.resolved, h.emitted_eq, h.flushed_eq,
    h.between, h.quiet, h.applied, h.reads_eq⟩

theorem lineOnly_pollRequests (s : State ι) : s.LineOnly s.pollRequests := by
  rw [pollRequests]
  split <;> exact ⟨_, rfl, rfl⟩

theorem lineOnly_pollChanged (s : State ι) (notified : Bool) :
    s.LineOnly (s.pollChanged notified) := by
  rw [pollChanged]
  split
  · split <;> exact ⟨_, rfl, rfl⟩
  · exact .refl s

theorem lineOnly_pollInputs (s : State ι) : s.LineOnly s.pollInputs := by
  rw [pollInputs]
  split <;> exact ⟨_, rfl, rfl⟩

theorem lineOnly_readGate (s : State ι) : s.LineOnly s.readGate := by
  rw [readGate]
  split <;> exact ⟨_, rfl, rfl⟩

theorem lineOnly_wakeWriter (s : State ι) : s.LineOnly s.wakeWriter := by
  rw [wakeWriter]
  split <;> exact ⟨_, rfl, rfl⟩

theorem lineOnly_send (room : ℕ) (s : State ι) : s.LineOnly (s.send room) := by
  rw [send]
  split
  · split
    · split <;> exact ⟨_, rfl, rfl⟩
    · exact ⟨_, rfl, rfl⟩
  · exact .refl s

theorem lineOnly_typeInput (s : State ι) : s.LineOnly s.typeInput := by
  rw [typeInput]
  split <;> exact ⟨_, rfl, rfl⟩

/-! ### The daemon's side of an answer -/

theorem answers_release (h : s.Answers) (room : ℕ) : (s.step room .release).Answers := by
  rw [step]
  split
  · exact ⟨h.seen, h.said, fun _ hf ↦ absurd hf List.not_mem_nil, h.emitted_eq, h.flushed_eq,
      fun _ hf ↦ absurd hf List.not_mem_nil, fun _ hf ↦ absurd hf List.not_mem_nil,
      fun _ hf ↦ absurd hf List.not_mem_nil, fun _ hf ↦ absurd hf List.not_mem_nil⟩
  · exact h

/-- A new hold has an id that the worker has not answered. -/
theorem answers_finishCall (ho : s.Ordered) (h : s.Answers) : s.finishCall.Answers := by
  rw [finishCall]
  rcases hc : s.call with _ | id | _
  · exact h
  -- its id is larger than every id written so far
  · have hnew : ¬ s.Said id := by
      intro hsaid
      have hmem : .hold id ∈ s.asked := by
        have hwritten : .hold id ∈ s.written := by
          rw [ho.pipe.written_eq]
          exact List.mem_append_left _ (h.said id hsaid)
        exact List.mem_append_left _ (List.mem_append_left _ hwritten)
      exact Nat.lt_irrefl id ((ho.calls.fresh id hmem).2 id hc)
    have hpending : ¬ (⟨id, .pending⟩ : HoldFuture).Parked := by
      rintro ⟨n, hn⟩
      exact Outcome.noConfusion hn
    refine ⟨h.seen, h.said, fun f hf hp ↦ ?_, h.emitted_eq, h.flushed_eq, fun f hf hp ↦ ?_,
      fun f hf ↦ ?_, fun f hf hp ↦ ?_, fun f hf n hn ↦ ?_⟩
    all_goals rcases List.mem_append.mp hf with hf | hf
    · exact h.resolved f hf hp
    · rw [List.mem_singleton.mp hf] at hp
      exact absurd hp hpending
    · exact h.between f hf hp
    · rw [List.mem_singleton.mp hf] at hp
      exact absurd hp (not_or.mpr ⟨hnew, hpending⟩)
    · exact h.quiet f hf
    · rw [List.mem_singleton.mp hf]
      refine List.pairwise_iff_forall_sublist.mpr fun hsub heq ↦ ?_
      exact absurd (.inl (heq ▸ hsub.subset List.mem_cons_self)) hnew
    · exact h.applied f hf hp
    · rw [List.mem_singleton.mp hf] at hp
      exact absurd hp (not_or.mpr ⟨fun hp ↦ hnew (.inr hp), hpending⟩)
    · exact h.reads_eq f hf n hn
    · rw [List.mem_singleton.mp hf] at hn
      exact absurd ⟨n, hn⟩ hpending
  · exact ⟨h.seen, h.said, h.resolved, h.emitted_eq, h.flushed_eq, h.between, h.quiet, h.applied,
      h.reads_eq⟩

/-- A future keeps its id, and resolves only for the answer it waits for. -/
theorem HoldFuture.poll_cases (parked : Parked) (reads : ℕ) (f : HoldFuture) :
    (f.poll parked reads).id = f.id ∧ ∀ n, (f.poll parked reads).outcome = .parked n →
      f.outcome = .parked n ∨ parked = .held f.id ∧ n = reads := by
  rw [HoldFuture.poll]
  split
  · split
    · rename_i hp
      exact ⟨rfl, fun n hn ↦ .inr ⟨hp, (Outcome.parked.inj hn).symm⟩⟩
    · split
      · exact ⟨rfl, fun n hn ↦ Outcome.noConfusion hn⟩
      · exact ⟨rfl, fun n hn ↦ .inl hn⟩
  · exact ⟨rfl, fun n hn ↦ .inl hn⟩

theorem mem_poll {k : ℕ} {f : HoldFuture}
    (hf : f ∈ s.futures.modify k (HoldFuture.poll s.parked s.reads)) :
    ∃ g ∈ s.futures, f.id = g.id ∧ ∀ n, f.outcome = .parked n →
      g.outcome = .parked n ∨ s.parked = .held g.id ∧ n = s.reads := by
  obtain ⟨j, hj⟩ := List.mem_iff_getElem?.mp hf
  rw [List.getElem?_modify] at hj
  obtain ⟨g, hg, hfg⟩ := Option.map_eq_some_iff.mp hj
  refine ⟨g, List.mem_of_getElem? hg, ?_⟩
  split at hfg
  · rw [← hfg]
    exact HoldFuture.poll_cases s.parked s.reads g
  · rw [← hfg]
    exact ⟨rfl, fun n hn ↦ .inl hn⟩

theorem ordered_poll (h : s.Ordered) (room k : ℕ) : (s.step room (.poll k)).Ordered := by
  refine ⟨h.pipe, h.calls, h.gate, fun f hf ↦ ?_⟩
  obtain ⟨g, hg, hid, _⟩ := mem_poll hf
  rw [hid]
  exact h.unreleased g hg

theorem answers_poll (h : s.Answers) (room k : ℕ) : (s.step room (.poll k)).Answers := by
  -- A future that has resolved did so before, or sees its answer now.
  have hparked : ∀ f ∈ s.futures.modify k (HoldFuture.poll s.parked s.reads), ∃ g ∈ s.futures,
      f.id = g.id ∧ (f.Parked → g.Parked ∨ s.parked = .held g.id) := by
    intro f hf
    obtain ⟨g, hg, hid, hout⟩ := mem_poll hf
    refine ⟨g, hg, hid, fun hp ↦ ?_⟩
    obtain ⟨n, hn⟩ := hp
    rcases hout n hn with hn | ⟨hp, _⟩
    · exact .inl ⟨n, hn⟩
    · exact .inr hp
  refine ⟨h.seen, h.said, fun f hf hp ↦ ?_, h.emitted_eq, h.flushed_eq, fun f hf hp ↦ ?_,
    fun f hf ↦ ?_, fun f hf hp ↦ ?_, fun f hf n hn ↦ ?_⟩
  · obtain ⟨g, hg, hid, hout⟩ := hparked f hf
    rw [hid]
    rcases hout hp with hp | hp
    · exact h.resolved g hg hp
    · exact h.said g.id (.inr hp)
  · obtain ⟨g, hg, hid, hout⟩ := hparked f hf
    rcases hp with hp | hp
    · exact h.between g hg (.inl (hid ▸ hp))
    · rcases hout hp with hp | hp
      · exact h.between g hg (.inr hp)
      · exact h.between g hg (.inl (.inr hp))
  · obtain ⟨g, hg, hid, _⟩ := hparked f hf
    rw [hid]
    exact h.quiet g hg
  · obtain ⟨g, hg, hid, hout⟩ := hparked f hf
    rcases hp with hp | hp
    · exact h.applied g hg (.inl (hid ▸ hp))
    · exact h.applied g hg (hout hp).symm
  · obtain ⟨g, hg, _, hout⟩ := mem_poll hf
    rcases hout n hn with hn | ⟨_, hn⟩
    · exact h.reads_eq g hg n hn
    · exact hn.symm

theorem answers_applyEvent (h : s.Answers) : s.applyEvent.Answers := by
  rw [applyEvent]
  by_cases hg : s.parked = .gone
  · rwa [if_pos hg]
  · rw [if_neg hg]
    have hquiet := h.quiet
    have hemitted := h.emitted_eq
    have happlied := h.applied
    have hsaid := h.said
    have hbetween := h.between
    rcases he : s.events with _ | ⟨e, events⟩
    · exact h
    · rw [he] at hquiet hemitted happlied
      rw [outputsOf_cons] at hemitted happlied
      -- What is said afterwards was said before.
      have hbefore : ∀ id, .held id ∈ events ∨ s.parked = .held id → s.Said id := by
        intro id hid
        rcases hid with hid | hid
        · exact .inl (he ▸ List.mem_cons_of_mem e hid)
        · exact .inr hid
      rcases e with n | id | _
      · refine ⟨h.seen, fun id hid ↦ h.said id (hbefore id hid), h.resolved, ?_, h.flushed_eq,
          fun f hf hp ↦ h.between f hf (hp.imp_left (hbefore f.id)),
          fun f hf ↦ (List.pairwise_cons.mp (hquiet f hf)).2, fun f hf hp ↦ ?_, h.reads_eq⟩
        · rw [hemitted, List.append_assoc]
          rfl
        · exact absurd (happlied f hf hp) (List.cons_ne_nil _ _)
      · have hafter : ∀ id', .held id' ∈ events ∨ Parked.held id = .held id' → s.Said id' := by
          intro id' hid'
          rcases hid' with hid' | hid'
          · exact hbefore id' (.inl hid')
          · rw [← Parked.held.inj hid']
            exact .inl (he ▸ List.mem_cons_self)
        refine ⟨h.seen, fun id' hid' ↦ h.said id' (hafter id' hid'), h.resolved, hemitted,
          h.flushed_eq, fun f hf hp ↦ h.between f hf (hp.imp_left (hafter f.id)),
          fun f hf ↦ (List.pairwise_cons.mp (hquiet f hf)).2, fun f hf hp ↦ ?_, h.reads_eq⟩
        rcases hp with hp | hp
        · -- The answer was at the head, and no output is behind it.
          have hid : id = f.id := Parked.held.inj hp
          refine outputsOf_eq_nil fun e he' ↦ ?_
          exact (List.pairwise_cons.mp (hquiet f hf)).1 e he' (congrArg _ hid)
        · exact happlied f hf (.inr hp)
      · exact ⟨h.seen, fun id hid ↦ h.said id (hbefore id hid), h.resolved, hemitted, h.flushed_eq,
          fun f hf hp ↦ h.between f hf (hp.imp_left (hbefore f.id)),
          fun f hf ↦ (List.pairwise_cons.mp (hquiet f hf)).2, happlied, h.reads_eq⟩

theorem answers_giveUp (h : s.Answers) (room : ℕ) : (s.step room .giveUp).Answers := by
  have hbefore : ∀ id, ({ s with parked := .gone } : State ι).Said id → s.Said id := by
    rintro id (hid | hid)
    · exact .inl hid
    · exact Parked.noConfusion hid
  refine ⟨h.seen, fun id hid ↦ h.said id (hbefore id hid), h.resolved, h.emitted_eq, h.flushed_eq,
    fun f hf hp ↦ h.between f hf (hp.imp_left (hbefore f.id)), h.quiet, fun f hf hp ↦ ?_,
    h.reads_eq⟩
  rcases hp with hp | hp
  · exact Parked.noConfusion hp
  · exact h.applied f hf (.inr hp)

/-! ### The worker's side -/

/-- An event that is neither an output nor an answer is sent, and the worker may have taken up a
request. -/
private theorem answers_other (h : s.Answers) {l : Line ι}
    (hserved : ∀ r ∈ s.served, r ∈ l.served) {pc : ReaderPc}
    (hseen : ∀ id, pc = .asked id ∨ pc = .parked id → .hold id ∈ l.served)
    (hflushed : pc ≠ .read → s.flushed = s.reads)
    (hbetween : s.reader.BetweenReads → pc.BetweenReads) {events : List WorkerEvent}
    (hev : events = s.events ∨ events = s.events ++ [WorkerEvent.other]) :
    ({ s with toLine := l, reader := pc, events := events } : State ι).Answers := by
  have hout : outputsOf events = outputsOf s.events := by
    rcases hev with rfl | rfl
    · rfl
    · rw [outputsOf_append]
      exact List.append_nil _
  have hheld : ∀ id, .held id ∈ events → .held id ∈ s.events := by
    intro id hid
    rcases hev with rfl | rfl
    · exact hid
    · simpa using hid
  refine ⟨hseen, fun id hid ↦ hserved _ (h.said id (hid.imp_left (hheld id))),
    fun f hf hp ↦ hserved _ (h.resolved f hf hp), ?_, hflushed,
    fun f hf hp ↦ hbetween (h.between f hf (hp.imp_left fun hs ↦ hs.imp_left (hheld f.id))),
    fun f hf ↦ ?_, fun f hf hp ↦ hout.trans (h.applied f hf hp), h.reads_eq⟩
  · rw [hout]
    exact h.emitted_eq
  · rcases hev with rfl | rfl
    · exact h.quiet f hf
    · exact List.pairwise_append.mpr
        ⟨h.quiet f hf, List.pairwise_singleton _ _, fun e _ e' he' _ ↦ by
          rw [List.mem_singleton.mp he']
          rfl⟩

theorem answers_serve (h : s.Answers) : s.serve.Answers := by
  rw [serve]
  split
  case h_2 => exact h
  case h_1 r socket hw hs =>
    have hserved : ∀ r' ∈ s.served, r' ∈ s.served ++ [r] := fun r' hr' ↦ List.mem_append_left _ hr'
    have hseen : ∀ id, s.reader = .asked id ∨ s.reader = .parked id → .hold id ∈ s.served ++ [r] :=
      fun id hid ↦ hserved _ (h.seen id hid)
    rcases r with id | _ | i | answered
    · exact answers_other h hserved hseen h.flushed_eq (fun hb ↦ hb) (.inl rfl)
    · exact answers_other h hserved hseen h.flushed_eq (fun hb ↦ hb) (.inl rfl)
    · exact answers_other h hserved hseen h.flushed_eq (fun hb ↦ hb) (.inl rfl)
    · rcases answered with _ | _
      · exact answers_other h hserved hseen h.flushed_eq (fun hb ↦ hb) (.inl rfl)
      · exact answers_other h hserved hseen h.flushed_eq (fun hb ↦ hb) (.inr rfl)

/-- A reader that is past its poll of the hold has answered no hold that is not released. -/
theorem not_answered (h : s.Answers) (hb : ¬ s.reader.BetweenReads) :
    ∀ f ∈ s.futures, ¬ (s.Said f.id ∨ f.Parked) :=
  fun f hf hp ↦ hb (h.between f hf hp)

/-- A reader past its poll reads, or sends what it read. -/
private theorem answers_past (h : s.Answers) (hb : ¬ s.reader.BetweenReads) {pc : ReaderPc}
    (hpc : ∀ id, pc ≠ .asked id ∧ pc ≠ .parked id) {reads flushed : ℕ}
    (hflushed : pc ≠ .read → flushed = reads) {events : List WorkerEvent} {emitted : List ℕ}
    (hev : ∃ es, events = s.events ++ es ∧ emitted = s.emitted ++ outputsOf es ∧
      ∀ id, .held id ∉ es) :
    ({ s with
        reader := pc
        reads := reads
        flushed := flushed
        events := events
        emitted := emitted } : State ι).Answers := by
  obtain ⟨es, rfl, rfl, hes⟩ := hev
  have hnone := not_answered h hb
  have hheld : ∀ id, .held id ∈ s.events ++ es → .held id ∈ s.events := by
    intro id hid
    exact (List.mem_append.mp hid).resolve_right (hes id)
  have hsaid : ∀ f ∈ s.futures, ¬ ((.held f.id ∈ s.events ++ es ∨ s.parked = .held f.id) ∨
      f.Parked) := by
    intro f hf hp
    exact hnone f hf (hp.imp_left fun hs ↦ hs.imp_left (hheld f.id))
  refine ⟨fun id hid ↦ ?_, fun id hid ↦ h.said id (hid.imp_left (hheld id)), h.resolved, ?_,
    hflushed, fun f hf hp ↦ absurd hp (hsaid f hf), fun f hf ↦ ?_,
    fun f hf hp ↦ absurd (hp.imp_left .inr) (hsaid f hf),
    fun f hf n hn ↦ absurd (.inr ⟨n, hn⟩) (hsaid f hf)⟩
  · rcases hid with hid | hid
    · exact absurd hid (hpc id).1
    · exact absurd hid (hpc id).2
  · rw [h.emitted_eq, outputsOf_append, List.append_assoc]
  · refine List.pairwise_iff_forall_sublist.mpr fun hsub heq ↦ ?_
    exact absurd (.inl (.inl (heq ▸ hsub.subset List.mem_cons_self))) (hsaid f hf)

theorem answers_pollHold (ho : s.Ordered) (h : s.Answers) : s.pollHold.Answers := by
  rw [pollHold]
  split
  · rename_i hpc
    have hread : s.reader ≠ .read := by
      rcases hpc with hpc | hpc <;> rw [hpc] <;> decide
    rcases hh : s.hold with _ | id
    · -- No hold stands, so no hold that was answered is still not released.
      have hnone : ∀ f ∈ s.futures, ¬ (s.Said f.id ∨ f.Parked) := by
        intro f hf hp
        have hmem : .hold f.id ∈ s.served := hp.elim (h.said f.id) (h.resolved f hf)
        have hsome : s.hold.isSome = true := ho.pipe.hold_isSome (ho.unreleased f hf) hmem
        rw [hh] at hsome
        exact Bool.noConfusion hsome
      exact ⟨fun id hid ↦ by simp at hid, h.said, h.resolved, h.emitted_eq,
        fun _ ↦ h.flushed_eq hread, fun f hf hp ↦ absurd hp (hnone f hf), h.quiet, h.applied,
        h.reads_eq⟩
    · refine ⟨fun id' hid' ↦ ?_, h.said, h.resolved, h.emitted_eq, fun _ ↦ h.flushed_eq hread,
        fun _ _ _ ↦ trivial, h.quiet, h.applied, h.reads_eq⟩
      have hid' : id = id' := by simpa using hid'
      have hstand : standing none s.served = some id := ho.pipe.hold_eq.symm.trans hh
      exact hid' ▸ hold_mem_of_standing hstand
  · exact h

/-- **The answer goes out behind everything that was read.** -/
theorem answers_reportHeld (h : s.Answers) : s.reportHeld.Answers := by
  rw [reportHeld]
  split
  case h_2 => exact h
  case h_1 id hpc =>
    have hmem : .hold id ∈ s.served := h.seen id (.inl hpc)
    have hread : s.reader ≠ .read := by rw [hpc]; simp
    have hheld : ∀ id', .held id' ∈ s.events ++ [WorkerEvent.held id] →
        .held id' ∈ s.events ∨ id' = id := by
      intro id' hid'
      simpa using hid'
    refine ⟨fun id' hid' ↦ ?_, fun id' hid' ↦ ?_, h.resolved, ?_, fun _ ↦ h.flushed_eq hread,
      fun _ _ _ ↦ trivial, fun f hf ↦ ?_, fun f hf hp ↦ ?_, h.reads_eq⟩
    · have hid' : id = id' := by simpa using hid'
      exact hid' ▸ hmem
    · rcases hid' with hid' | hid'
      · rcases hheld id' hid' with hid' | rfl
        · exact h.said id' (.inl hid')
        · exact hmem
      · exact h.said id' (.inr hid')
    · rw [outputsOf_append, h.emitted_eq]
      exact congrArg (s.applied ++ ·) (List.append_nil _).symm
    · exact List.pairwise_append.mpr
        ⟨h.quiet f hf, List.pairwise_singleton _ _, fun e _ e' he' _ ↦ by
          rw [List.mem_singleton.mp he']
          rfl⟩
    · rw [outputsOf_append]
      exact (List.append_nil _).trans (h.applied f hf hp)

theorem answers_observeHold (h : s.Answers) : s.observeHold.Answers := by
  rw [observeHold]
  split
  case h_2 => exact h
  case h_1 id hpc =>
    split
    · exact ⟨fun id hid ↦ by simp at hid, h.said, h.resolved, h.emitted_eq,
        fun _ ↦ h.flushed_eq (by rw [hpc]; simp), fun _ _ _ ↦ trivial, h.quiet, h.applied,
        h.reads_eq⟩
    · exact h

theorem answers_read (h : s.Answers) (e : Step ι) : (s.read e).Answers := by
  have hpolled : s.reader = .polled → ¬ s.reader.BetweenReads := by
    intro hpc
    rw [hpc]
    exact fun hb ↦ hb
  have hread : s.reader = .read → ¬ s.reader.BetweenReads := by
    intro hpc
    rw [hpc]
    exact fun hb ↦ hb
  have hflushed : s.reader = .polled → s.flushed = s.reads :=
    fun hpc ↦ h.flushed_eq (by rw [hpc]; simp)
  -- a step of the reader sends one event at most, and never an answer to a hold
  have hnone : ∃ es, s.events = s.events ++ es ∧ s.emitted = s.emitted ++ outputsOf es ∧
      ∀ id, .held id ∉ es :=
    ⟨[], (List.append_nil _).symm, (List.append_nil _).symm, fun _ ↦ List.not_mem_nil⟩
  have hother : ∃ es, s.events ++ [WorkerEvent.other] = s.events ++ es ∧
      s.emitted = s.emitted ++ outputsOf es ∧ ∀ id, .held id ∉ es :=
    ⟨[.other], rfl, (List.append_nil _).symm, by simp⟩
  have houtput : ∃ es, s.events ++ [WorkerEvent.output s.reads] = s.events ++ es ∧
      s.emitted ++ [s.reads] = s.emitted ++ outputsOf es ∧ ∀ id, .held id ∉ es :=
    ⟨[.output s.reads], rfl, rfl, by simp⟩
  rw [read.eq_def]
  split <;> try exact h
  all_goals split <;> try exact h
  all_goals rename_i hpc
  · exact answers_past h (hpolled hpc) (by simp) (by simp) hnone
  · exact answers_past h (hpolled hpc) (by simp) (fun _ ↦ hflushed hpc) hnone
  · rename_i title
    rcases title with _ | _
    · exact answers_past h (hpolled hpc) (by simp) (fun _ ↦ hflushed hpc) hnone
    · exact answers_past h (hpolled hpc) (by simp) (fun _ ↦ hflushed hpc) hother
  · exact answers_past h (hpolled hpc) (by simp) (fun _ ↦ hflushed hpc) hother
  · exact answers_past h (hread hpc) (by simp [hpc]) (fun hne ↦ absurd hpc hne) hnone
  · exact answers_past h (hread hpc) (by simp [hpc]) (fun hne ↦ absurd hpc hne) houtput
  · split
    · exact answers_past h (hread hpc) (by simp) (fun _ ↦ rfl) houtput
    · exact answers_past h (hread hpc) (by simp) (fun _ ↦ rfl) hnone

/-! ## Every interleaving -/

/-- What every interleaving keeps. -/
structure Inv (s : State ι) : Prop where
  ordered : s.Ordered
  answers : s.Answers

theorem inv_spawned : (spawned : State ι).Inv := ⟨ordered_spawned, answers_spawned⟩

/-- The reader's steps leave the way of the requests as it is. -/
theorem toLine_read (s : State ι) (e : Step ι) : (s.read e).toLine = s.toLine := by
  rw [read.eq_def]
  split <;> first | rfl | (split <;> first | rfl | (split <;> rfl))

theorem futures_read (s : State ι) (e : Step ι) : (s.read e).futures = s.futures := by
  rw [read.eq_def]
  split <;> first | rfl | (split <;> first | rfl | (split <;> rfl))

/-- A step that leaves the way of the requests and the futures as they are. -/
private theorem Ordered.congr (h : s.Ordered) {s' : State ι} (hline : s'.toLine = s.toLine)
    (hfutures : s'.futures = s.futures) : s'.Ordered := by
  refine ⟨?_, ?_, ?_, ?_⟩
  · rw [hline]; exact h.pipe
  · rw [hline]; exact h.calls
  · rw [hline]; exact h.gate
  · rw [hline, hfutures]; exact h.unreleased

theorem ordered_read (h : s.Ordered) (e : Step ι) : (s.read e).Ordered :=
  h.congr (toLine_read s e) (futures_read s e)

theorem inv_read (h : s.Inv) (e : Step ι) : (s.read e).Inv :=
  ⟨ordered_read h.ordered e, answers_read h.answers e⟩

theorem ordered_applyEvent (h : s.Ordered) : s.applyEvent.Ordered := by
  rw [applyEvent]
  split
  · exact h
  · split
    · exact h
    · exact h.congr rfl rfl
    · exact h.congr rfl rfl
    · exact h.congr rfl rfl

theorem ordered_pollHold (h : s.Ordered) : s.pollHold.Ordered := by
  rw [pollHold]
  split
  · split <;> exact h.congr rfl rfl
  · exact h

theorem ordered_reportHeld (h : s.Ordered) : s.reportHeld.Ordered := by
  rw [reportHeld]
  split
  · exact h.congr rfl rfl
  · exact h

theorem ordered_observeHold (h : s.Ordered) : s.observeHold.Ordered := by
  rw [observeHold]
  split
  · split
    · exact h.congr rfl rfl
    · exact h
  · exact h

theorem ordered_die (h : s.Ordered) (room : ℕ) : (s.step room .die).Ordered :=
  ⟨⟨h.pipe.1, h.pipe.2, h.pipe.3, h.pipe.4, h.pipe.5, h.pipe.6, fun _ _ ↦ rfl⟩,
    h.calls.congr rfl rfl rfl rfl, ⟨h.gate.1, h.gate.2, h.gate.3⟩,
    fun f hf ↦ (h.unreleased f hf).congr rfl⟩

/-- A step of the worker is taken while it runs. -/
private theorem inv_alive (h : s.Inv) {s' : State ι} (h' : s'.Inv) :
    (if s.alive then s' else s).Inv := by
  split
  · exact h'
  · exact h

theorem inv_step (room : ℕ) (h : s.Inv) (e : Step ι) : (s.step room e).Inv := by
  have ho := h.ordered
  have ha := h.answers
  cases e with
  | hold =>
    refine ⟨ordered_hold ho room, LineOnly.answers ?_ ha⟩
    rw [step]
    split
    · exact ⟨_, rfl, rfl⟩
    · exact .refl s
  | release => exact ⟨ordered_release ho room, answers_release ha room⟩
  | finishCall => exact ⟨ordered_finishCall ho, answers_finishCall ho ha⟩
  | request answered => exact ⟨ordered_request ho room answered, LineOnly.answers ⟨_, rfl, rfl⟩ ha⟩
  | enqueueInput i =>
    refine ⟨ordered_enqueueInput ho room i, LineOnly.answers ?_ ha⟩
    rw [step]
    split
    · exact ⟨_, rfl, rfl⟩
    · exact .refl s
  | poll k => exact ⟨ordered_poll ho room k, answers_poll ha room k⟩
  | readGate => exact ⟨ordered_readGate ho, (lineOnly_readGate s).answers ha⟩
  | pollRequests => exact ⟨ordered_pollRequests ho, (lineOnly_pollRequests s).answers ha⟩
  | pollChanged notified =>
    exact ⟨ordered_pollChanged ho notified, (lineOnly_pollChanged s notified).answers ha⟩
  | pollInputs => exact ⟨ordered_pollInputs ho, (lineOnly_pollInputs s).answers ha⟩
  | wakeWriter => exact ⟨ordered_wakeWriter ho, (lineOnly_wakeWriter s).answers ha⟩
  | send => exact ⟨ordered_send ho room, (lineOnly_send room s).answers ha⟩
  | applyEvent => exact ⟨ordered_applyEvent ho, answers_applyEvent ha⟩
  | giveUp => exact ⟨ho.congr rfl rfl, answers_giveUp ha room⟩
  | serve => exact inv_alive h ⟨ordered_serve ho, answers_serve ha⟩
  | typeInput => exact inv_alive h ⟨ordered_typeInput ho, (lineOnly_typeInput s).answers ha⟩
  | pollHold => exact inv_alive h ⟨ordered_pollHold ho, answers_pollHold ho ha⟩
  | reportHeld => exact inv_alive h ⟨ordered_reportHeld ho, answers_reportHeld ha⟩
  | observeHold => exact inv_alive h ⟨ordered_observeHold ho, answers_observeHold ha⟩
  | die => exact ⟨ordered_die ho room, LineOnly.answers ⟨_, rfl, rfl⟩ ha⟩
  | readReady => exact inv_alive h (inv_read h _)
  | readPending => exact inv_alive h (inv_read h _)
  | tick title => exact inv_alive h (inv_read h _)
  | readEof => exact inv_alive h (inv_read h _)
  | tryRead => exact inv_alive h (inv_read h _)
  | feedEvent => exact inv_alive h (inv_read h _)
  | emitDiff changed => exact inv_alive h (inv_read h _)

/-- Where the steps of a run lead. -/
def run (room : ℕ) (es : List (Step ι)) : State ι := Run.exec (step room) spawned es

theorem inv_run (room : ℕ) (es : List (Step ι)) : (run room es).Inv := by
  have hstep : ∀ (s : State ι) e, s.Inv → (s.step room e).Inv := fun _ e h ↦ inv_step room h e
  exact Run.invariant hstep es spawned inv_spawned

end State

end WorkerHold

end Kmux
