import Kmux.Daemon.Recover
import Kmux.Lib.Run
import Mathlib.Data.List.Nodup

/-!
# The worker's heartbeat

The supervisor of an isolated worker pings it and takes it for hung when a ping stays unanswered for
`pongDeadline`, not counting the time the worker is legitimately blocked: it cannot read a ping
while it writes input to a child that does not read.

`Heartbeat` is all the supervisor keeps, one ping and one instant. `Supervisor` puts it beside what
really happened: which pings have gone out, which are still without an answer, and when a check last
saw the worker blocked. The verdict is then a statement about these, `liveness_verdict`. Time only
passes, by `elapse`, as it does on the clock the supervisor reads.
-/

namespace Kmux

/-- A worker that leaves a ping unanswered this long is hung. -/
def pongDeadline : ℕ := seconds 30

/-- What a heartbeat check calls for. -/
inductive Beat
  | ping (seq : ℕ)
  | wait
  | hung
  deriving DecidableEq, Repr

/-- The heartbeat's state: the ping waited on, if any. -/
structure Heartbeat where
  nextSeq : ℕ
  /-- The unanswered ping, and since when it counts as unanswered. -/
  waiting : Option (ℕ × ℕ)
  deriving DecidableEq, Repr

namespace Heartbeat

def new : Heartbeat := { nextSeq := 0, waiting := none }

/-- A check at `now`: ping when nothing is waited on; otherwise the worker is hung once the ping has
been unanswered for the deadline, not counting any time its child was not reading input. -/
def check (h : Heartbeat) (now : ℕ) (inputBlocked : Bool) : Heartbeat × Beat :=
  match h.waiting with
  | none => ({ nextSeq := h.nextSeq + 1, waiting := some (h.nextSeq, now) }, .ping h.nextSeq)
  | some (seq, since) =>
    if inputBlocked then ({ h with waiting := some (seq, now) }, .wait)
    else if pongDeadline ≤ now - since then (h, .hung)
    else (h, .wait)

/-- The worker answered ping `seq`. -/
def pong (h : Heartbeat) (seq : ℕ) : Heartbeat :=
  if h.waiting.any fun waited ↦ decide (waited.1 = seq) then { h with waiting := none } else h

end Heartbeat

/-- How a worker's event stream ended. -/
inductive StreamEnd
  /-- The worker closed it: it is exiting. -/
  | closed
  /-- A frame failed to read or decode. -/
  | corrupt
  /-- The worker left a heartbeat unanswered. -/
  | hung
  deriving DecidableEq, Repr

/-- What the supervisor's loop comes across. -/
inductive SupervisorEvent
  /-- Time passes. -/
  | elapse (nanos : ℕ)
  /-- The check is due, and the probe finds the child's input blocked or not. -/
  | tick (inputBlocked : Bool)
  | pong (seq : ℕ)
  /-- A frame that is not a pong. -/
  | event
  | closed
  | corrupt
  deriving DecidableEq, Repr

/-- The supervisor's loop, and what has happened so far. -/
structure Supervisor where
  heartbeat : Heartbeat
  /-- How the loop ended, once it has. -/
  ended : Option StreamEnd
  now : ℕ
  /-- The numbers of all pings sent. -/
  sent : List ℕ
  /-- The pings no pong has come for, with the time each was sent. -/
  outstanding : List (ℕ × ℕ)
  /-- When a check last saw the worker blocked. -/
  lastBlocked : Option ℕ
  deriving DecidableEq, Repr

namespace Supervisor

def new : Supervisor :=
  { heartbeat := .new, ended := none, now := 0, sent := [], outstanding := [], lastBlocked := none }

/-- One round of the loop. -/
def step (s : Supervisor) (e : SupervisorEvent) : Supervisor :=
  if s.ended.isSome then s
  else
    match e with
    | .elapse nanos => { s with now := s.now + nanos }
    | .tick inputBlocked =>
      let r := s.heartbeat.check s.now inputBlocked
      let s' : Supervisor :=
        { s with
          heartbeat := r.1
          lastBlocked := if inputBlocked then some s.now else s.lastBlocked }
      match r.2 with
      | .ping seq =>
        { s' with sent := s.sent ++ [seq], outstanding := s.outstanding ++ [(seq, s.now)] }
      | .wait => s'
      | .hung => { s' with ended := some .hung }
    | .pong seq =>
      { s with
        heartbeat := s.heartbeat.pong seq
        outstanding := s.outstanding.filter fun ping ↦ decide (ping.1 ≠ seq) }
    | .event => s
    | .closed => { s with ended := some .closed }
    | .corrupt => { s with ended := some .corrupt }

def run (es : List SupervisorEvent) : Supervisor := Run.exec step new es

/-- The later of two instants, the second of which may never have come. -/
def laterOf (sentAt : ℕ) : Option ℕ → ℕ
  | some blockedAt => max sentAt blockedAt
  | none => sentAt

/-! ## What the heartbeat keeps of the past -/

/-- The heartbeat against what happened. -/
structure Inv (s : Supervisor) : Prop where
  /-- What is waited on is the one outstanding ping, unanswered since it was sent or since a later
  check that found the worker blocked. -/
  waits : s.heartbeat.waiting = none ∧ s.outstanding = [] ∨
    ∃ seq sentAt, s.outstanding = [(seq, sentAt)] ∧ sentAt ≤ s.now ∧
      s.heartbeat.waiting = some (seq, laterOf sentAt s.lastBlocked)
  sent_nodup : s.sent.Nodup
  sent_lt : ∀ seq ∈ s.sent, seq < s.heartbeat.nextSeq
  blocked_le : ∀ t, s.lastBlocked = some t → t ≤ s.now

theorem inv_new : Inv new where
  waits := .inl ⟨rfl, rfl⟩
  sent_nodup := List.nodup_nil
  sent_lt := by simp [new]
  blocked_le := by simp [new]

/-- The later of a past instant and now is now. -/
theorem laterOf_now {sentAt now : ℕ} (h : sentAt ≤ now) : laterOf sentAt (some now) = now :=
  max_eq_right h

/-- A ping just sent counts from now: no check has seen the worker blocked since. -/
theorem laterOf_sent {s : Supervisor} (h : Inv s) (inputBlocked : Bool) :
    laterOf s.now (if inputBlocked then some s.now else s.lastBlocked) = s.now := by
  by_cases hblocked : inputBlocked = true
  · rw [if_pos hblocked]
    exact laterOf_now le_rfl
  · rw [if_neg hblocked]
    rcases hlast : s.lastBlocked with _ | t
    · rfl
    · exact max_eq_left (h.blocked_le t hlast)

theorem inv_tick {s : Supervisor} (h : Inv s) (inputBlocked : Bool) :
    Inv (s.step (.tick inputBlocked)) := by
  have hblocked : ∀ t, (if inputBlocked then some s.now else s.lastBlocked) = some t →
      t ≤ s.now := by
    intro t ht
    by_cases hb : inputBlocked = true
    · rw [if_pos hb] at ht
      exact (Option.some.inj ht).ge
    · rw [if_neg hb] at ht
      exact h.blocked_le t ht
  rw [step]
  split
  · exact h
  · rcases h.waits with ⟨hwaiting, hnone⟩ | ⟨seq, sentAt, hone, hle, hwaiting⟩
    · -- nothing is waited on: a ping goes out, under a number that is new
      simp only [Heartbeat.check, hwaiting]
      constructor
      · refine .inr ⟨s.heartbeat.nextSeq, s.now, ?_, le_rfl, ?_⟩
        · rw [hnone, List.nil_append]
        · rw [laterOf_sent h]
      · refine List.Nodup.append h.sent_nodup (List.nodup_singleton _) ?_
        intro seq hseq hnew
        rw [List.mem_singleton] at hnew
        exact absurd (h.sent_lt seq hseq) (by omega)
      · intro seq hseq
        rcases List.mem_append.mp hseq with hseq | hseq
        · exact Nat.lt_succ_of_lt (h.sent_lt seq hseq)
        · rw [List.mem_singleton.mp hseq]
          exact Nat.lt_succ_self _
      · exact hblocked
    · simp only [Heartbeat.check, hwaiting]
      by_cases hb : inputBlocked = true
      · -- the worker is blocked: the count starts again from this check
        simp only [hb, if_true]
        rw [hb, if_pos rfl] at hblocked
        exact ⟨.inr ⟨seq, sentAt, hone, hle, by rw [laterOf_now hle]⟩, h.sent_nodup, h.sent_lt,
          hblocked⟩
      · -- the state stays as it is, and with a verdict only the loop ends
        simp only [hb, Bool.false_eq_true, if_false]
        by_cases hdue : pongDeadline ≤ s.now - laterOf sentAt s.lastBlocked
        · simp only [hdue, if_true]
          exact ⟨.inr ⟨seq, sentAt, hone, hle, hwaiting⟩, h.sent_nodup, h.sent_lt, h.blocked_le⟩
        · simp only [hdue, if_false]
          exact ⟨.inr ⟨seq, sentAt, hone, hle, hwaiting⟩, h.sent_nodup, h.sent_lt, h.blocked_le⟩

/-- A pong answers the ping waited on, or is stale and changes nothing. -/
theorem pong_cases {s : Supervisor} (h : Inv s) (seq : ℕ) :
    ((∃ sentAt, s.outstanding = [(seq, sentAt)]) ∧ (s.heartbeat.pong seq).waiting = none ∧
        s.outstanding.filter (fun ping ↦ decide (ping.1 ≠ seq)) = []) ∨
      ((∀ ping ∈ s.outstanding, ping.1 ≠ seq) ∧ s.heartbeat.pong seq = s.heartbeat ∧
        s.outstanding.filter (fun ping ↦ decide (ping.1 ≠ seq)) = s.outstanding) := by
  rw [Heartbeat.pong]
  rcases h.waits with ⟨hwaiting, hnone⟩ | ⟨waited, sentAt, hone, -, hwaiting⟩
  · refine .inr ⟨by simp [hnone], ?_, by rw [hnone, List.filter_nil]⟩
    rw [hwaiting]
    rfl
  · by_cases heq : waited = seq
    · refine .inl ⟨⟨sentAt, by rw [hone, heq]⟩, ?_, by simp [hone, heq]⟩
      rw [hwaiting, if_pos (by simpa using heq)]
    · refine .inr ⟨by simpa [hone] using heq, ?_, by simp [hone, heq]⟩
      rw [hwaiting, if_neg (by simpa using heq)]

theorem inv_pong {s : Supervisor} (h : Inv s) (seq : ℕ) : Inv (s.step (.pong seq)) := by
  rw [step]
  split
  · exact h
  · have hnext : (s.heartbeat.pong seq).nextSeq = s.heartbeat.nextSeq := by
      rw [Heartbeat.pong]
      split <;> rfl
    constructor
    · rcases pong_cases h seq with ⟨-, hwaiting, hout⟩ | ⟨-, hsame, hout⟩
      · exact .inl ⟨hwaiting, hout⟩
      · dsimp only
        rw [hsame, hout]
        exact h.waits
    · exact h.sent_nodup
    · intro ping hping
      exact (h.sent_lt ping hping).trans_eq hnext.symm
    · exact h.blocked_le

theorem inv_elapse {s : Supervisor} (h : Inv s) (nanos : ℕ) : Inv (s.step (.elapse nanos)) := by
  rw [step]
  split
  · exact h
  · constructor
    · exact h.waits.imp_right fun ⟨seq, sentAt, hone, hle, hwaiting⟩ ↦
        ⟨seq, sentAt, hone, Nat.le_add_right_of_le hle, hwaiting⟩
    · exact h.sent_nodup
    · exact h.sent_lt
    · exact fun t ht ↦ Nat.le_add_right_of_le (h.blocked_le t ht)

theorem inv_step {s : Supervisor} (e : SupervisorEvent) (h : Inv s) : Inv (s.step e) := by
  match e with
  | .elapse nanos => exact inv_elapse h nanos
  | .tick inputBlocked => exact inv_tick h inputBlocked
  | .pong seq => exact inv_pong h seq
  | .event | .closed | .corrupt =>
    rw [step]
    split <;> exact ⟨h.waits, h.sent_nodup, h.sent_lt, h.blocked_le⟩

theorem inv_run (es : List SupervisorEvent) : Inv (run es) :=
  Run.invariant (fun _ e h ↦ inv_step e h) es new inv_new

/-! ## The verdict -/

/-- A check that finds the worker not blocked declares it hung exactly when a ping is outstanding
for the deadline, from its sending or from the last check that found the worker blocked. -/
theorem check_eq_hung_iff {s : Supervisor} (h : Inv s) (inputBlocked : Bool) :
    (s.heartbeat.check s.now inputBlocked).2 = .hung ↔
      inputBlocked = false ∧ ∃ seq sentAt, s.outstanding = [(seq, sentAt)] ∧
        pongDeadline ≤ s.now - laterOf sentAt s.lastBlocked := by
  rcases h.waits with ⟨hwaiting, hnone⟩ | ⟨seq, sentAt, hone, -, hwaiting⟩
  · rw [Heartbeat.check, hwaiting]
    refine iff_of_false Beat.noConfusion ?_
    rintro ⟨-, seq, sentAt, hone, -⟩
    rw [hnone] at hone
    cases hone
  · rw [Heartbeat.check, hwaiting]
    by_cases hb : inputBlocked = true
    · refine iff_of_false ?_ fun hverdict ↦ ?_
      · simp [hb]
      · exact Bool.noConfusion (hb.symm.trans hverdict.1)
    · have hfree : inputBlocked = false := Bool.eq_false_of_not_eq_true hb
      simp only [hfree, Bool.false_eq_true, if_false, true_and]
      by_cases hdue : pongDeadline ≤ s.now - laterOf sentAt s.lastBlocked
      · rw [if_pos hdue]
        exact iff_of_true rfl ⟨seq, sentAt, hone, hdue⟩
      · rw [if_neg hdue]
        refine iff_of_false Beat.noConfusion ?_
        rintro ⟨seq', sentAt', hone', hdue'⟩
        rw [hone] at hone'
        obtain ⟨-, rfl⟩ : seq = seq' ∧ sentAt = sentAt' := by simpa using hone'
        exact hdue hdue'

/-- **Worker liveness.** After any sequence of checks, pongs, blocked periods and other frames, with
any time between them: at most one ping is outstanding, and no number is used for two pings; a pong
that does not answer the outstanding ping leaves the heartbeat waiting as it was; and a check
declares the worker hung exactly when it finds it not blocked and the outstanding ping has been
unanswered for the deadline, counted from the later of its sending and the last check that saw the
worker blocked. -/
theorem liveness_verdict (es : List SupervisorEvent) :
    let s := run es
    s.outstanding.length ≤ 1 ∧ s.sent.Nodup ∧
      (∀ seq, (∀ ping ∈ s.outstanding, ping.1 ≠ seq) →
        (s.step (.pong seq)).heartbeat = s.heartbeat ∧
          (s.step (.pong seq)).outstanding = s.outstanding) ∧
      ∀ inputBlocked, (s.heartbeat.check s.now inputBlocked).2 = .hung ↔
        inputBlocked = false ∧ ∃ seq sentAt, s.outstanding = [(seq, sentAt)] ∧
          pongDeadline ≤ s.now - laterOf sentAt s.lastBlocked := by
  intro s
  have h : Inv s := inv_run es
  refine ⟨?_, h.sent_nodup, fun seq hstale ↦ ?_, check_eq_hung_iff h⟩
  · rcases h.waits with ⟨-, hnone⟩ | ⟨seq, sentAt, hone, -⟩
    · rw [hnone]
      exact Nat.zero_le 1
    · rw [hone]
      exact le_rfl
  · rw [step]
    split
    · exact ⟨rfl, rfl⟩
    · rcases pong_cases h seq with ⟨⟨sentAt, hone⟩, -⟩ | ⟨-, hsame, hout⟩
      · exact absurd rfl (hstale (seq, sentAt) (by rw [hone]; exact List.mem_singleton_self _))
      · exact ⟨hsame, hout⟩

/-- Blocked time does not count: forty seconds after the ping the worker is given more time, and
fifty seconds after it, with thirty since the block, it is hung. -/
example :
    (run [.tick false, .elapse (seconds 20), .tick true, .elapse (seconds 20), .tick false]).ended
        = none ∧
      (run [.tick false, .elapse (seconds 20), .tick true, .elapse (seconds 30), .tick false]).ended
        = some .hung := by decide

end Supervisor

end Kmux
