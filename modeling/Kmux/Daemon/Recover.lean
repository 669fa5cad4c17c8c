import Kmux.Lib.Throttle
import Mathlib.Algebra.Order.BigOperators.Group.List
import Mathlib.Algebra.Order.Group.Nat
import Mathlib.Data.List.Induction
import Mathlib.Data.List.Pairwise

/-!
# Respawning faulted workers

A worker that crashes or hangs is respawned, unless its pane has used up the budget of that cause:
a number of respawns within a sliding window. `RestartLog` is one pane's record of them, a list of
instants for each cause, pruned on every call.

Both lists are limiters in the sense of `Throttle`, so the bound holds for every window as long as
the clock does not go back, `restart_throttle`.
-/

namespace Kmux

/-- Seconds as a number of nanoseconds, the grain of an instant. -/
def seconds (n : ℕ) : ℕ := n * 1000000000

/-- Most worker respawns after a crash within the window. -/
def maxRestarts : ℕ := 3

/-- Sliding window for the crash budget. -/
def restartWindow : ℕ := seconds 60

/-- Most worker respawns after a hang within the window. -/
def maxHangRestarts : ℕ := 3

/-- Sliding window for the hang budget. -/
def hangWindow : ℕ := seconds 600

/-- Why a worker has to be replaced. -/
inductive FaultCause
  | crash
  | hang
  deriving DecidableEq, Repr

/-- One pane's worker respawns, by cause, each against its own budget. -/
structure RestartLog where
  crashes : List ℕ
  hangs : List ℕ
  deriving DecidableEq, Repr

namespace FaultCause

/-- How many respawns the cause allows within its window. -/
def budget : FaultCause → ℕ
  | .crash => maxRestarts
  | .hang => maxHangRestarts

def window : FaultCause → ℕ
  | .crash => restartWindow
  | .hang => hangWindow

theorem window_pos (cause : FaultCause) : 0 < cause.window := by
  rcases cause with _ | _ <;> decide

end FaultCause

namespace RestartLog

def new : RestartLog := { crashes := [], hangs := [] }

/-- The instants recorded for a cause. -/
def log (l : RestartLog) : FaultCause → List ℕ
  | .crash => l.crashes
  | .hang => l.hangs

def setLog (l : RestartLog) (log : List ℕ) : FaultCause → RestartLog
  | .crash => { l with crashes := log }
  | .hang => { l with hangs := log }

/-- The instants less than a window old. -/
def recent (log : List ℕ) (window now : ℕ) : List ℕ :=
  log.filter fun t ↦ decide (now - t < window)

/-- Record a respawn for `cause` at `now`, if its budget allows one. -/
def allow (l : RestartLog) (cause : FaultCause) (now : ℕ) : RestartLog × Bool :=
  let log := recent (l.log cause) cause.window now
  if cause.budget ≤ log.length then (l.setLog log cause, false)
  else (l.setLog (log ++ [now]) cause, true)

/-- The respawns within their windows at `now`, the age of the newest, and whether both budgets
still allow another. -/
def stats (l : RestartLog) (now : ℕ) : ℕ × Option ℕ × Bool :=
  let crashes := recent l.crashes restartWindow now
  let hangs := recent l.hangs hangWindow now
  (crashes.length + hangs.length, ((crashes ++ hangs).max?).map fun newest ↦ now - newest,
    decide (crashes.length < maxRestarts) && decide (hangs.length < maxHangRestarts))

/-- A log and the faults it has granted a respawn, in order. -/
structure Granted where
  log : RestartLog
  grants : List (FaultCause × ℕ)

/-- One fault. -/
def record (s : Granted) (fault : FaultCause × ℕ) : Granted :=
  let r := s.log.allow fault.1 fault.2
  { log := r.1, grants := if r.2 then s.grants ++ [fault] else s.grants }

/-- A sequence of faults, from an empty log. -/
def run (faults : List (FaultCause × ℕ)) : Granted :=
  faults.foldl record { log := new, grants := [] }

/-- When the respawns for a cause were granted. -/
def grantsOf (faults : List (FaultCause × ℕ)) (cause : FaultCause) : List ℕ :=
  ((run faults).grants.filter fun grant ↦ decide (grant.1 = cause)).map Prod.snd

/-! ## One call -/

@[simp] theorem log_setLog_self (l : RestartLog) (log : List ℕ) (cause : FaultCause) :
    (l.setLog log cause).log cause = log := by
  rcases cause with _ | _ <;> rfl

theorem log_setLog_of_ne (l : RestartLog) (log : List ℕ) {cause other : FaultCause}
    (h : other ≠ cause) : (l.setLog log cause).log other = l.log other := by
  rcases cause with _ | _ <;> rcases other with _ | _ <;> first | rfl | exact absurd rfl h

/-- An instant less than a window old lies in the window ending now. Ages do not go below zero, so
this needs the window not to be empty. -/
theorem recent_eq_live {window : ℕ} (hwindow : 0 < window) (log : List ℕ) (now : ℕ) :
    recent log window now = Throttle.live window now log := by
  rw [recent, Throttle.live]
  apply List.filter_congr
  intro t _
  rw [decide_eq_decide]
  omega

/-- The list of the cause is a limiter. -/
theorem log_allow_self (l : RestartLog) (cause : FaultCause) (now : ℕ) :
    ((l.allow cause now).1.log cause, (l.allow cause now).2)
      = Throttle.request cause.budget cause.window (l.log cause) now := by
  rw [allow, Throttle.request, recent_eq_live cause.window_pos]
  split <;> rw [log_setLog_self]

/-- The other list is left alone. -/
theorem log_allow_of_ne (l : RestartLog) {cause other : FaultCause} (h : other ≠ cause) (now : ℕ) :
    (l.allow cause now).1.log other = l.log other := by
  rw [allow]
  split <;> exact log_setLog_of_ne _ _ h

/-- Both budgets allow another exactly when the next call would grant one, whatever its cause. -/
theorem stats_within_iff (l : RestartLog) (now : ℕ) :
    (l.stats now).2.2 = true ↔ ∀ cause, (l.allow cause now).2 = true := by
  have hallow : ∀ cause : FaultCause, (l.allow cause now).2 = true ↔
      (recent (l.log cause) cause.window now).length < cause.budget := by
    intro cause
    rw [allow]
    by_cases hfull : cause.budget ≤ (recent (l.log cause) cause.window now).length
    · rw [if_pos hfull]
      simpa using hfull
    · rw [if_neg hfull]
      simpa using hfull
  rw [stats, Bool.and_eq_true, decide_eq_true_iff, decide_eq_true_iff]
  constructor
  · rintro ⟨hcrash, hhang⟩ cause
    rw [hallow]
    rcases cause with _ | _
    · exact hcrash
    · exact hhang
  · intro h
    exact ⟨(hallow .crash).mp (h .crash), (hallow .hang).mp (h .hang)⟩

/-! ## Runs -/

theorem run_append (faults : List (FaultCause × ℕ)) (fault : FaultCause × ℕ) :
    run (faults ++ [fault]) = record (run faults) fault := by
  rw [run, List.foldl_append, List.foldl_cons, List.foldl_nil, ← run]

/-- A fault of the cause adds its instant if it is granted. -/
theorem grantsOf_append_self (faults : List (FaultCause × ℕ)) (cause : FaultCause) (now : ℕ) :
    grantsOf (faults ++ [(cause, now)]) cause
      = if ((run faults).log.allow cause now).2 then grantsOf faults cause ++ [now]
        else grantsOf faults cause := by
  rw [grantsOf, run_append, record]
  dsimp only
  split
  · rw [List.filter_append, List.map_append, List.filter_cons_of_pos (by simp)]
    rfl
  · rfl

theorem grantsOf_append_of_ne (faults : List (FaultCause × ℕ)) {cause other : FaultCause}
    (h : other ≠ cause) (now : ℕ) :
    grantsOf (faults ++ [(cause, now)]) other = grantsOf faults other := by
  rw [grantsOf, run_append, record]
  dsimp only
  split
  · rw [List.filter_append, List.filter_cons_of_neg (by simpa using h.symm), List.filter_nil,
      List.append_nil]
    rfl
  · rfl

/-- **What the log keeps.** After any faults at times that do not go back, each list shows the same
windows as all that was granted for its cause. -/
theorem kept_run (faults : List (FaultCause × ℕ)) (cause : FaultCause) {now : ℕ}
    (hmono : (faults.map Prod.snd ++ [now]).Pairwise (· ≤ ·)) :
    Throttle.Kept cause.budget cause.window now ((run faults).log.log cause)
      (grantsOf faults cause) := by
  -- on the last fault; the bound `now` moves up from one fault to the next
  induction faults using List.reverseRecOn generalizing now with
  | nil => rcases cause with _ | _ <;> exact Throttle.kept_nil _ _ _
  | append_singleton faults fault ih =>
    obtain ⟨failed, t⟩ := fault
    rw [List.map_append, List.append_assoc] at hmono
    obtain ⟨hearlier, -, hbefore⟩ := List.pairwise_append.mp hmono
    have hprefix : (faults.map Prod.snd ++ [t]).Pairwise (· ≤ ·) :=
      List.pairwise_append.mpr ⟨hearlier, List.pairwise_singleton _ _,
        fun a ha b hb ↦ hbefore a ha b (by simp [List.mem_singleton.mp hb])⟩
    have hle : t ≤ now := by
      have hlast := (List.pairwise_append.mp hmono).2.1
      simpa using hlast
    have hkept := ih hprefix
    by_cases hcause : cause = failed
    · subst hcause
      have hstep := (hkept.request le_rfl).later hle
      rw [← log_allow_self] at hstep
      rw [grantsOf_append_self, run_append]
      exact hstep
    · rw [grantsOf_append_of_ne faults hcause, run_append]
      exact (log_allow_of_ne (run faults).log hcause t).symm ▸ hkept.later hle

/-- The list of a cause is what the faults of that cause alone would have left. -/
theorem log_run_filter (faults : List (FaultCause × ℕ)) (cause : FaultCause) :
    (run faults).log.log cause
      = (run (faults.filter fun fault ↦ decide (fault.1 = cause))).log.log cause := by
  induction faults using List.reverseRecOn with
  | nil => rfl
  | append_singleton faults fault ih =>
    obtain ⟨failed, t⟩ := fault
    rw [List.filter_append, run_append]
    by_cases hcause : cause = failed
    · subst hcause
      have hallow (l : RestartLog) := congrArg Prod.fst (log_allow_self l cause t)
      dsimp only at hallow
      rw [List.filter_cons_of_pos (by simp), List.filter_nil, run_append, record, record,
        hallow, hallow, ih]
    · rw [List.filter_cons_of_neg (by simpa using Ne.symm hcause), List.filter_nil,
        List.append_nil, record, ← ih]
      exact log_allow_of_ne (run faults).log hcause t

/-- **Restart throttle.** Along faults at times that do not go back, of any causes: a stretch of
time as long as a cause's window holds at most its budget of granted respawns, wherever it starts; a
fault is refused exactly when that many lie in the window that ends with it; and the faults of other
causes have no part in the decision. -/
theorem restart_throttle (faults : List (FaultCause × ℕ))
    (hmono : (faults.map Prod.snd).Pairwise (· ≤ ·)) (cause : FaultCause) :
    (∀ t, ((grantsOf faults cause).filter fun a ↦
        decide (t ≤ a ∧ a < t + cause.window)).length ≤ cause.budget) ∧
      (∀ earlier now, earlier ++ [(cause, now)] <+: faults →
        (((run earlier).log.allow cause now).2 = false ↔
          ((grantsOf earlier cause).filter fun a ↦
            decide (now - a < cause.window)).length = cause.budget)) ∧
      ∀ earlier now, ((run earlier).log.allow cause now).2
        = ((run (earlier.filter fun fault ↦ decide (fault.1 = cause))).log.allow cause now).2 := by
  refine ⟨fun t ↦ ?_, ?_, ?_⟩
  · have hle : ∀ a ∈ faults.map Prod.snd, a ≤ (faults.map Prod.snd).sum :=
      fun a ha ↦ List.single_le_sum (fun _ _ ↦ Nat.zero_le _) a ha
    have hkept : Throttle.Kept cause.budget cause.window _ _ _ := kept_run faults cause
      (List.pairwise_append.mpr ⟨hmono, List.pairwise_singleton _ _,
        fun a ha b hb ↦ (hle a ha).trans (List.mem_singleton.mp hb).ge⟩)
    apply hkept.spread
    intro a b ha hb
    have ha := of_decide_eq_true ha
    have hb := of_decide_eq_true hb
    omega
  · rintro earlier now ⟨later, rfl⟩
    rw [List.map_append, List.map_append, List.map_singleton] at hmono
    have hkept := kept_run earlier cause (List.pairwise_append.mp hmono).1
    rw [congrArg Prod.snd (log_allow_self _ cause now), hkept.refused_iff le_rfl,
      ← recent_eq_live cause.window_pos, recent]
  · intro earlier now
    rw [congrArg Prod.snd (log_allow_self _ cause now),
      congrArg Prod.snd (log_allow_self _ cause now), log_run_filter]

/-- Four crashes within a minute: the fourth is refused, a hang in between is not counted, and a
crash a whole window after the first is granted again. -/
def crashLoop : List (FaultCause × ℕ) :=
  [(.crash, 0), (.crash, seconds 1), (.hang, seconds 2), (.crash, seconds 3), (.crash, seconds 4),
    (.crash, seconds 60)]

theorem restart_throttle_crashLoop :
    grantsOf crashLoop .crash = [0, seconds 1, seconds 3, seconds 60] ∧
      ((run (crashLoop.take 4)).log.allow .crash (seconds 4)).2 = false ∧
        ((grantsOf crashLoop .crash).filter fun a ↦
          decide (0 ≤ a ∧ a < 0 + FaultCause.crash.window)).length ≤ 3 :=
  ⟨by decide, ((restart_throttle crashLoop (by decide) .crash).2.1 (crashLoop.take 4) (seconds 4)
    ⟨_, rfl⟩).mpr (by decide), (restart_throttle crashLoop (by decide) .crash).1 0⟩

end RestartLog

end Kmux
