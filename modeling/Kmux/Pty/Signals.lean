import Kmux.Lib.Run
import Mathlib.Data.List.Basic
import Mathlib.Order.Nat

/-!
# Signals by number

A pane's child is signalled by its pid, and its group by the same number. The number is the child's
until the child has been waited for, and the group's until its last member has; after that the
kernel may give it to somebody else. Four paths of the daemon signal by number: a client's request,
the cascade that closes a pane, the drop of a handle, and a spawn that fails half way. All but the
first look at the published exit first, which comes later than the wait.

The kernel is a table of processes. A process is known by its birth, its place in the order of
forks; the pid is what the birth was given, and a group is known by the birth of the process that
made it. The daemon is process 0.
-/

namespace Kmux.Signals

/-! ## The kernel -/

/-- A process. `ours` are the children that only this daemon's reaper waits for. -/
structure Process where
  birth : ℕ
  /-- Who made its group. -/
  leader : ℕ
  zombie : Bool
  ours : Bool
  deriving DecidableEq, Repr

/-- The pids that were given out, one a birth, and the processes that have not been waited for. -/
structure Kernel where
  pids : List ℕ
  processes : List Process

namespace Kernel

variable (k : Kernel)

def pid (birth : ℕ) : ℕ := k.pids.getD birth 0

/-- Who has the pid. -/
def holders (pid : ℕ) : List Process := k.processes.filter fun p ↦ k.pid p.birth = pid

/-- Who is in the group of this id: the pid of its leader. -/
def members (pgid : ℕ) : List Process := k.processes.filter fun p ↦ k.pid p.leader = pgid

def find (birth : ℕ) : Option Process := k.processes.find? fun p ↦ p.birth = birth

/-- Fork, into the group of the parent, which is alive. The child is given any pid that nobody
has. -/
def fork (parent : ℕ) (ours : Bool) (pid : ℕ) : Option Kernel :=
  match k.find parent with
  | some p =>
    if p.zombie = false ∧ k.holders pid = [] then
      some
        { pids := k.pids ++ [pid]
          processes := k.processes ++ [⟨k.pids.length, p.leader, false, ours⟩] }
    else none
  | none => none

/-- Change a process, wherever it is. -/
def update (birth : ℕ) (f : Process → Process) : Kernel :=
  { k with processes := k.processes.map fun p ↦ if p.birth = birth then f p else p }

/-- Make a group of one's own, unless there is one of that id. -/
def setsid (birth : ℕ) : Kernel :=
  if k.members (k.pid birth) = [] then k.update birth fun p ↦ { p with leader := birth } else k

/-- Move into the group that another process is in. -/
def join (birth other : ℕ) : Kernel :=
  match k.find other with
  | some q => k.update birth fun p ↦ { p with leader := q.leader }
  | none => k

def exit (birth : ℕ) : Kernel := k.update birth fun p ↦ { p with zombie := true }

/-- A process that has exited is waited for, by the daemon or by whoever else its parent is. -/
def reap (ours : Bool) (birth : ℕ) : Kernel :=
  { k with
    processes := k.processes.filter fun p ↦ ¬(p.birth = birth ∧ p.zombie ∧ p.ours = ours) }

end Kernel

/-! ## The daemon -/

/-- A pane's process as the daemon knows it. The code keeps the pid of the child. -/
structure Handle where
  child : ℕ
  /-- It is polled rather than waited for: another process's child, taken over in a handoff. -/
  inherited : Bool
  keepAlive : Bool
  /-- It has been waited for, or the poll has missed it; this has yet to be published. -/
  gone : Bool
  /-- `exit_rx` has a status. -/
  exited : Bool
  dropped : Bool
  deriving DecidableEq, Repr

inductive Signal
  | hup
  | term
  | kill
  deriving DecidableEq, Repr

/-- Where a cascade goes from `signal_group`. -/
inductive Next
  | wait
  | waitAgain
  | return
  deriving DecidableEq, Repr

/-- How far a cascade has come. -/
inductive Phase
  /-- The first look of `graceful_shutdown` at the exit. -/
  | checking
  /-- `signal_group`, for each of the signals: the group, and the child `alone` if there is none. -/
  | signalling (signals : List Signal) (alone : Bool) (next : Next)
  /-- For the grace. -/
  | waiting
  /-- The child has exited within the grace: what is left of its group is killed. -/
  | sweeping
  | waitingAgain
  /-- The look of `Drop`. -/
  | dropping
  | finished
  deriving DecidableEq, Repr

structure Call where
  handle : ℕ
  phase : Phase
  deriving DecidableEq, Repr

/-- The kernel, the handles, the calls that are under way, and whether a signal has gone astray. -/
structure World where
  kernel : Kernel
  handles : List Handle
  calls : List Call
  stray : Bool

inductive Event
  | fork (parent pid : ℕ)
  | setsid (birth : ℕ)
  | join (birth other : ℕ)
  | exit (birth : ℕ)
  /-- Somebody other than the daemon waits for a child. -/
  | reap (birth : ℕ)
  /-- A pane is spawned; if that `fails` after the fork, the child is killed. -/
  | spawn (pid : ℕ) (fails : Bool)
  /-- A process is taken over in a handoff, which may be gone by then. -/
  | inherit (birth : ℕ)
  /-- The reaper's `waitpid`. -/
  | waitpid (i : ℕ)
  /-- The poll's `kill(pid, 0)`, and whether a process of that pid may be signalled. -/
  | poll (i : ℕ) (permitted : Bool)
  | publish (i : ℕ)
  | setKeepAlive (i : ℕ) (keepAlive : Bool)
  /-- A client's request. -/
  | sendSignal (i : ℕ)
  | gracefulShutdown (i : ℕ)
  | drop (i : ℕ)
  /-- A call goes one step further; `timeout` if the grace is over. -/
  | advance (c : ℕ) (timeout : Bool)

/-- What a signal is sent to: the pid of a child, or the group of that number. -/
inductive Aim
  | process (child : ℕ)
  | group (child : ℕ)
  deriving DecidableEq, Repr

/-- What the next step of a call signals. -/
def Phase.aim (child : ℕ) : Phase → Option Aim
  | .signalling (_ :: _) false _ => some (.group child)
  | .signalling (_ :: _) true _ => some (.process child)
  | .sweeping => some (.group child)
  | _ => none

/-- The next step of a call; `noGroup` is the group's `ESRCH`. -/
def Phase.advance (h : Handle) (noGroup timeout : Bool) : Phase → Phase
  | .checking => if h.exited then .finished else .signalling [.hup, .term] false .wait
  | .signalling (s :: signals) false next =>
    if noGroup then .signalling (s :: signals) true next else .signalling signals false next
  | .signalling (_ :: signals) true next => .signalling signals false next
  | .signalling [] _ .wait => .waiting
  | .signalling [] _ .waitAgain => .waitingAgain
  | .signalling [] _ .return => .finished
  | .waiting =>
    if h.exited then .sweeping
    else if timeout then .signalling [.kill] false .waitAgain
    else .waiting
  | .sweeping => .finished
  | .waitingAgain => if h.exited || timeout then .finished else .waitingAgain
  | .dropping =>
    if h.keepAlive || h.exited then .finished else .signalling [.kill] false .return
  | .finished => .finished

/-- What an event signals. -/
def aim (w : World) : Event → Option Aim
  | .sendSignal i =>
    match w.handles[i]? with
    | some h => if h.dropped then none else some (.process h.child)
    | none => none
  | .advance c _ =>
    match w.calls[c]? with
    | some call => w.handles[call.handle]?.bind fun h ↦ call.phase.aim h.child
    | none => none
  | _ => none

/-- The signal reaches a process that is not the child, or a group that is not the child's. -/
def strikes (k : Kernel) : Aim → Bool
  | .process child => (k.holders (k.pid child)).any fun p ↦ decide (p.birth ≠ child)
  | .group child => (k.members (k.pid child)).any fun p ↦ decide (p.leader ≠ child)

def World.modifyHandle (w : World) (i : ℕ) (f : Handle → Handle) : World :=
  { w with handles := w.handles.modify i f }

/-- What an event does, apart from where its signals go. -/
def next (w : World) : Event → World
  | .fork parent pid =>
    match w.kernel.fork parent false pid with
    | some kernel => { w with kernel }
    | none => w
  | .setsid birth => { w with kernel := w.kernel.setsid birth }
  | .join birth other => { w with kernel := w.kernel.join birth other }
  | .exit birth => { w with kernel := w.kernel.exit birth }
  | .reap birth => { w with kernel := w.kernel.reap false birth }
  | .spawn pid fails =>
    match w.kernel.fork 0 true pid with
    | some kernel =>
      { w with
        kernel
        handles := w.handles ++ [⟨w.kernel.pids.length, false, false, false, false, fails⟩]
        calls := if fails then
            w.calls ++ [⟨w.handles.length, .signalling [.kill] false .return⟩]
          else w.calls }
    | none => w
  | .inherit birth =>
    if birth < w.kernel.pids.length then
      { w with handles := w.handles ++ [⟨birth, true, false, false, false, false⟩] }
    else w
  | .waitpid i =>
    match w.handles[i]? with
    | some h =>
      if h.inherited then w
      else
        { w.modifyHandle i fun h ↦
            { h with gone := h.gone || (w.kernel.find h.child).any fun p ↦ p.zombie && p.ours } with
          kernel := w.kernel.reap true h.child }
    | none => w
  | .poll i permitted =>
    w.modifyHandle i fun h ↦
      { h with gone := h.gone ||
          (h.inherited && (decide (w.kernel.holders (w.kernel.pid h.child) = []) || !permitted)) }
  | .publish i => w.modifyHandle i fun h ↦ { h with exited := h.exited || h.gone }
  | .setKeepAlive i keepAlive => w.modifyHandle i fun h ↦ { h with keepAlive }
  | .sendSignal _ => w
  | .gracefulShutdown i =>
    match w.handles[i]? with
    | some h => if h.dropped then w else { w with calls := w.calls ++ [⟨i, .checking⟩] }
    | none => w
  | .drop i =>
    match w.handles[i]? with
    | some h =>
      if h.dropped then w
      else
        { w.modifyHandle i fun h ↦ { h with dropped := true } with
          calls := w.calls ++ [⟨i, .dropping⟩] }
    | none => w
  | .advance c timeout =>
    match w.calls[c]? with
    | some call =>
      match w.handles[call.handle]? with
      | some h =>
        let noGroup := decide (w.kernel.members (w.kernel.pid h.child) = [])
        { w with calls := w.calls.set c ⟨call.handle, call.phase.advance h noGroup timeout⟩ }
      | none => w
    | none => w

def step (w : World) (ev : Event) : World :=
  { next w ev with stray := w.stray || (aim w ev).any (strikes w.kernel) }

/-- A kernel with one process, the daemon. -/
def start (pid : ℕ) : World := ⟨⟨[pid], [⟨0, 0, false, false⟩]⟩, [], [], false⟩

/-! ## What the kernel keeps -/

namespace Kernel

variable {k : Kernel}

theorem mem_holders {pid : ℕ} {p : Process} :
    p ∈ k.holders pid ↔ p ∈ k.processes ∧ k.pid p.birth = pid := by
  rw [holders, List.mem_filter, decide_eq_true_iff]

theorem mem_members {pgid : ℕ} {p : Process} :
    p ∈ k.members pgid ↔ p ∈ k.processes ∧ k.pid p.leader = pgid := by
  rw [members, List.mem_filter, decide_eq_true_iff]

/-- Every process and every leader has been born; a pid has one holder, and the groups of one id are
one group. -/
structure WellFormed (k : Kernel) : Prop where
  born : ∀ p ∈ k.processes, p.birth < k.pids.length ∧ p.leader < k.pids.length
  holder : ∀ p ∈ k.processes, ∀ q ∈ k.processes, k.pid p.birth = k.pid q.birth → p.birth = q.birth
  group : ∀ p ∈ k.processes, ∀ q ∈ k.processes,
    k.pid p.leader = k.pid q.leader → p.leader = q.leader

/-- A kernel with the same births and the same groups, or fewer of them. -/
theorem WellFormed.of_sub {k' : Kernel} (h : k.WellFormed) (hpids : k'.pids = k.pids)
    (hsub : ∀ p ∈ k'.processes, ∃ q ∈ k.processes, p.birth = q.birth ∧ p.leader = q.leader) :
    k'.WellFormed := by
  have hpid : ∀ b, k'.pid b = k.pid b := fun b ↦ by rw [pid, pid, hpids]
  refine ⟨fun p hp ↦ ?_, fun p hp q hq heq ↦ ?_, fun p hp q hq heq ↦ ?_⟩
  · obtain ⟨p', hp', hbirth, hleader⟩ := hsub p hp
    rw [hbirth, hleader, hpids]
    exact h.born p' hp'
  · obtain ⟨p', hp', hbirth, -⟩ := hsub p hp
    obtain ⟨q', hq', hbirth', -⟩ := hsub q hq
    rw [hpid, hpid, hbirth, hbirth'] at heq
    rw [hbirth, hbirth']
    exact h.holder p' hp' q' hq' heq
  · obtain ⟨p', hp', -, hleader⟩ := hsub p hp
    obtain ⟨q', hq', -, hleader'⟩ := hsub q hq
    rw [hpid, hpid, hleader, hleader'] at heq
    rw [hleader, hleader']
    exact h.group p' hp' q' hq' heq

theorem WellFormed.exit (h : k.WellFormed) (birth : ℕ) : (k.exit birth).WellFormed := by
  refine h.of_sub rfl fun p hp ↦ ?_
  obtain ⟨q, hq, rfl⟩ := List.mem_map.mp hp
  refine ⟨q, hq, ?_⟩
  split
  · exact ⟨rfl, rfl⟩
  · exact ⟨rfl, rfl⟩

theorem WellFormed.reap (h : k.WellFormed) (ours : Bool) (birth : ℕ) :
    (k.reap ours birth).WellFormed :=
  h.of_sub rfl fun p hp ↦ ⟨p, (List.mem_filter.mp hp).1, rfl, rfl⟩

theorem mem_of_find {birth : ℕ} {p : Process} (h : k.find birth = some p) :
    p ∈ k.processes ∧ p.birth = birth := by
  rw [find] at h
  have hbirth := List.find?_some h
  exact ⟨List.mem_of_find?_eq_some h, of_decide_eq_true hbirth⟩

/-- A process moves into the group of `leader`, where no other group has the id of that. -/
theorem WellFormed.update {leader birth : ℕ} (h : k.WellFormed)
    (hleader : ∀ p ∈ k.processes, p.birth = birth → leader < k.pids.length)
    (hgroup : ∀ q ∈ k.processes, k.pid q.leader = k.pid leader → q.leader = leader) :
    (k.update birth fun p ↦ { p with leader }).WellFormed := by
  have hcases : ∀ p ∈ (k.update birth fun p ↦ { p with leader }).processes,
      ∃ q ∈ k.processes, p.birth = q.birth ∧
        (p.leader = leader ∧ leader < k.pids.length ∨ p.leader = q.leader) := by
    intro p hp
    obtain ⟨q, hq, rfl⟩ := List.mem_map.mp hp
    refine ⟨q, hq, ?_⟩
    split
    · rename_i hbirth
      exact ⟨rfl, .inl ⟨rfl, hleader q hq hbirth⟩⟩
    · exact ⟨rfl, .inr rfl⟩
  refine ⟨fun p hp ↦ ?_, fun p hp q hq heq ↦ ?_, fun p hp q hq heq ↦ ?_⟩
  · obtain ⟨p', hp', hbirth, hl⟩ := hcases p hp
    refine ⟨hbirth ▸ (h.born p' hp').1, ?_⟩
    rcases hl with ⟨hl, hlt⟩ | hl
    · exact hl ▸ hlt
    · exact hl ▸ (h.born p' hp').2
  · obtain ⟨p', hp', hbirth, -⟩ := hcases p hp
    obtain ⟨q', hq', hbirth', -⟩ := hcases q hq
    rw [hbirth, hbirth'] at heq ⊢
    exact h.holder p' hp' q' hq' heq
  · obtain ⟨p', hp', -, hl⟩ := hcases p hp
    obtain ⟨q', hq', -, hl'⟩ := hcases q hq
    rcases hl with ⟨hl, -⟩ | hl
    · rcases hl' with ⟨hl', -⟩ | hl'
      · rw [hl, hl']
      · rw [hl, hl'] at heq ⊢
        exact (hgroup q' hq' heq.symm).symm
    · rcases hl' with ⟨hl', -⟩ | hl'
      · rw [hl, hl'] at heq ⊢
        exact hgroup p' hp' heq
      · rw [hl, hl'] at heq ⊢
        exact h.group p' hp' q' hq' heq

theorem WellFormed.setsid (h : k.WellFormed) (birth : ℕ) : (k.setsid birth).WellFormed := by
  rw [Kernel.setsid]
  split
  · rename_i hnone
    refine h.update (fun p hp hbirth ↦ hbirth ▸ (h.born p hp).1) fun q hq hpid ↦ ?_
    -- nobody is in a group of this id
    have hmem := mem_members.mpr ⟨hq, hpid⟩
    rw [hnone] at hmem
    exact (List.not_mem_nil hmem).elim
  · exact h

theorem WellFormed.join (h : k.WellFormed) (birth other : ℕ) : (k.join birth other).WellFormed := by
  rw [Kernel.join]
  rcases Option.eq_none_or_eq_some (k.find other) with hnone | ⟨q, hq⟩
  · rw [hnone]
    exact h
  · rw [hq]
    obtain ⟨hmem, -⟩ := mem_of_find hq
    exact h.update (fun _ _ _ ↦ (h.born q hmem).2) fun p hp hpid ↦ h.group p hp q hmem hpid

/-- A process that has just been forked, into the group of `p₀`. -/
def snoc (k : Kernel) (pid : ℕ) (p₀ : Process) (ours : Bool) : Kernel where
  pids := k.pids ++ [pid]
  processes := k.processes ++ [⟨k.pids.length, p₀.leader, false, ours⟩]

theorem pid_snoc_of_lt (pid : ℕ) (p₀ : Process) (ours : Bool) {birth : ℕ}
    (h : birth < k.pids.length) : (k.snoc pid p₀ ours).pid birth = k.pid birth := by
  rw [Kernel.pid, Kernel.pid, snoc, List.getD_eq_getElem?_getD, List.getD_eq_getElem?_getD,
    List.getElem?_append_left h]

theorem pid_snoc_length (pid : ℕ) (p₀ : Process) (ours : Bool) :
    (k.snoc pid p₀ ours).pid k.pids.length = pid := by
  rw [Kernel.pid, snoc, List.getD_eq_getElem?_getD, List.getElem?_concat_length]
  rfl

theorem fork_cases {k' : Kernel} {parent pid : ℕ} {ours : Bool}
    (h : k.fork parent ours pid = some k') :
    ∃ p₀ ∈ k.processes, k.holders pid = [] ∧ k' = k.snoc pid p₀ ours := by
  rw [Kernel.fork] at h
  rcases Option.eq_none_or_eq_some (k.find parent) with hnone | ⟨p₀, hp₀⟩
  · rw [hnone] at h
    cases h
  · rw [hp₀] at h
    dsimp only at h
    split_ifs at h with hfree
    exact ⟨p₀, (mem_of_find hp₀).1, hfree.2, (Option.some.inj h).symm⟩

theorem WellFormed.fork {k' : Kernel} (h : k.WellFormed) {parent pid : ℕ} {ours : Bool}
    (hfork : k.fork parent ours pid = some k') : k'.WellFormed := by
  obtain ⟨p₀, hp₀, hfree, rfl⟩ := fork_cases hfork
  have hleader : p₀.leader < k.pids.length := (h.born p₀ hp₀).2
  have hcases : ∀ p ∈ (k.snoc pid p₀ ours).processes,
      p ∈ k.processes ∨ p.birth = k.pids.length ∧ p.leader = p₀.leader := by
    intro p hp
    rcases List.mem_append.mp hp with hp | hp
    · exact .inl hp
    · rw [List.mem_singleton.mp hp]
      exact .inr ⟨rfl, rfl⟩
  -- the leaders are old births all the same
  have hgroup : ∀ p ∈ (k.snoc pid p₀ ours).processes,
      ∃ q ∈ k.processes, p.leader = q.leader := by
    intro p hp
    rcases hcases p hp with hp | ⟨-, hl⟩
    · exact ⟨p, hp, rfl⟩
    · exact ⟨p₀, hp₀, hl⟩
  -- nobody has the new pid
  have hnew : ∀ p ∈ k.processes, k.pid p.birth ≠ pid := by
    intro p hp heq
    have hmem := mem_holders.mpr ⟨hp, heq⟩
    rw [hfree] at hmem
    exact List.not_mem_nil hmem
  refine ⟨fun p hp ↦ ?_, fun p hp q hq heq ↦ ?_, fun p hp q hq heq ↦ ?_⟩
  · have hlength : (k.snoc pid p₀ ours).pids.length = k.pids.length + 1 := List.length_append
    rw [hlength]
    rcases hcases p hp with hp | ⟨hb, hl⟩
    · obtain ⟨hb, hl⟩ := h.born p hp
      exact ⟨by omega, by omega⟩
    · exact ⟨by omega, by omega⟩
  · rcases hcases p hp with hp | ⟨hb, -⟩
    · rcases hcases q hq with hq | ⟨hb', -⟩
      · rw [pid_snoc_of_lt _ _ _ (h.born p hp).1, pid_snoc_of_lt _ _ _ (h.born q hq).1] at heq
        exact h.holder p hp q hq heq
      · rw [pid_snoc_of_lt _ _ _ (h.born p hp).1, hb', pid_snoc_length] at heq
        exact (hnew p hp heq).elim
    · rcases hcases q hq with hq | ⟨hb', -⟩
      · rw [pid_snoc_of_lt _ _ _ (h.born q hq).1, hb, pid_snoc_length] at heq
        exact (hnew q hq heq.symm).elim
      · rw [hb, hb']
  · obtain ⟨p', hp', hl⟩ := hgroup p hp
    obtain ⟨q', hq', hl'⟩ := hgroup q hq
    rw [hl, hl', pid_snoc_of_lt _ _ _ (h.born p' hp').2,
      pid_snoc_of_lt _ _ _ (h.born q' hq').2] at heq
    rw [hl, hl']
    exact h.group p' hp' q' hq' heq

end Kernel

/-! ## Where signals go -/

/-- The number that is signalled is still the child's, or nobody's: the child has not been waited
for, or nobody has its pid; a member of the child's group is left, or the id is of no group. -/
def Spares (k : Kernel) : Aim → Prop
  | .process child => (∃ p ∈ k.processes, p.birth = child) ∨ k.holders (k.pid child) = []
  | .group child => (∃ p ∈ k.processes, p.leader = child) ∨ k.members (k.pid child) = []

/-- The steps that signal nobody, or a number that is still the child's. -/
def Careful (w : World) (ev : Event) : Prop := ∀ a, aim w ev = some a → Spares w.kernel a

end Kmux.Signals
