import Kmux.Lib.Budget
import Mathlib.Algebra.Group.Nat.Defs
import Mathlib.Order.MinMax

/-!
# The reconnect schedule and the input of an outage

When the link to the daemon drops, the attempts to re-establish it are scheduled with a delay that
doubles with each failure, up to a maximum, and is shortened by a jitter that depends on the link
only. Meanwhile the input that is typed is kept, up to so many keystrokes, and an input that does
not fit is dropped whole and counted. What is kept is therefore what is admitted under a budget, and
the counters say how much that is and how much it is not; `OutageInput.Holds` states this, and
survives everything that happens in an outage.
-/

namespace Kmux

namespace Driver

/-! ## Backoff -/

/-- A moment, or a duration, in nanoseconds. -/
abbrev Nanos := ℕ

def millis (n : ℕ) : Nanos := n * 1000000

def secs (n : ℕ) : Nanos := n * 1000000000

def backoffMin : Nanos := millis 250

def backoffMax : Nanos := secs 15

def backoffJitterCapPermille : ℕ := 200

/-- `1u32.checked_shl(attempt).unwrap_or(u32::MAX)`. -/
def doublings (attempt : ℕ) : ℕ := if attempt < 32 then 2 ^ attempt else 2 ^ 32 - 1

/-- The delay before jitter. -/
def baseDelay (attempt : ℕ) : Nanos := min (backoffMin * doublings attempt) backoffMax

/-- The delay before retry `attempt`, which counts from 0. -/
def nextDelay (attempt jitterSeed : ℕ) : Nanos :=
  let permille := jitterSeed % (backoffJitterCapPermille + 1)
  baseDelay attempt * (1000 - permille) / 1000

theorem doublings_mono {m n : ℕ} (h : m ≤ n) : doublings m ≤ doublings n := by
  rw [doublings, doublings]
  split_ifs with hm hn hn
  · exact Nat.pow_le_pow_right (by decide) h
  · have : 2 ^ m ≤ 2 ^ 31 := Nat.pow_le_pow_right (by decide) (by omega)
    omega
  · omega
  · exact le_rfl

theorem baseDelay_mono {m n : ℕ} (h : m ≤ n) : baseDelay m ≤ baseDelay n :=
  min_le_min_right _ (Nat.mul_le_mul_left _ (doublings_mono h))

/-- The delays of a link never shrink. -/
theorem nextDelay_mono {m n : ℕ} (h : m ≤ n) (jitterSeed : ℕ) :
    nextDelay m jitterSeed ≤ nextDelay n jitterSeed :=
  Nat.div_le_div_right (Nat.mul_le_mul_right _ (baseDelay_mono h))

/-- Jitter shortens a delay by at most a fifth. -/
theorem nextDelay_bounds (attempt jitterSeed : ℕ) :
    baseDelay attempt * 800 / 1000 ≤ nextDelay attempt jitterSeed
      ∧ nextDelay attempt jitterSeed ≤ baseDelay attempt := by
  have hjitter : jitterSeed % (backoffJitterCapPermille + 1) ≤ 200 :=
    Nat.le_of_lt_succ (Nat.mod_lt _ (Nat.succ_pos _))
  rw [nextDelay]
  constructor
  · exact Nat.div_le_div_right (Nat.mul_le_mul_left _ (by omega))
  · calc baseDelay attempt * (1000 - jitterSeed % (backoffJitterCapPermille + 1)) / 1000
        ≤ baseDelay attempt * 1000 / 1000 :=
          Nat.div_le_div_right (Nat.mul_le_mul_left _ (Nat.sub_le _ _))
      _ = baseDelay attempt := Nat.mul_div_cancel _ (by decide)

/-! ## The schedule -/

inductive Schedule
  /-- The link is up, or was never lost. -/
  | idle
  /-- Attempt `attempt`, which counts from 1, starts at `due`. -/
  | waiting (attempt : ℕ) (due : Nanos)
  /-- Attempt `attempt` is under way. -/
  | trying (attempt : ℕ)
  deriving DecidableEq, Repr

structure Reconnect where
  jitterSeed : ℕ
  state : Schedule
  /-- Why the last attempt failed. -/
  lastError : Option String
  deriving DecidableEq, Repr

namespace Reconnect

def new (jitterSeed : ℕ) : Reconnect := { jitterSeed, state := .idle, lastError := none }

def schedule (r : Reconnect) (attempt : ℕ) (now : Nanos) : Reconnect :=
  { r with state := .waiting attempt (now + nextDelay (attempt - 1) r.jitterSeed) }

def onLost (r : Reconnect) (now : Nanos) : Reconnect := { r with lastError := none }.schedule 1 now

def isActive (r : Reconnect) : Bool := r.state ≠ .idle

/-- The attempt under way or next due. -/
def attempt (r : Reconnect) : Option ℕ :=
  match r.state with
  | .idle => none
  | .waiting attempt _ => some attempt
  | .trying attempt => some attempt

/-- The attempt to start now, if one is due. -/
def takeDue (r : Reconnect) (now : Nanos) : Option ℕ × Reconnect :=
  match r.state with
  | .waiting attempt due =>
    if due ≤ now then (some attempt, { r with state := .trying attempt }) else (none, r)
  | _ => (none, r)

def onFailed (r : Reconnect) (now : Nanos) (error : String) : Reconnect :=
  match r.state with
  | .trying attempt => { r with lastError := some error }.schedule (attempt + 1) now
  | _ => r

/-- "Reconnect now". -/
def retryNow (r : Reconnect) (now : Nanos) : Reconnect :=
  match r.state with
  | .waiting attempt _ => { r with state := .waiting attempt now }
  | _ => r

def onConnected (r : Reconnect) : Reconnect := { r with state := .idle, lastError := none }

theorem state_onFailed {r : Reconnect} {n : ℕ} (h : r.state = .trying n) (now : Nanos)
    (error : String) :
    (r.onFailed now error).state = .waiting (n + 1) (now + nextDelay n r.jitterSeed) := by
  rw [onFailed, h]
  rfl

theorem isActive_eq_false {r : Reconnect} : r.isActive = false ↔ r.state = .idle := by
  simp [isActive]

theorem isActive_eq_true {r : Reconnect} : r.isActive = true ↔ r.state ≠ .idle := by
  simp [isActive]

/-- What is due was waiting, and its time has come. -/
theorem takeDue_eq_some {r : Reconnect} {now : Nanos} {n : ℕ} (h : (r.takeDue now).1 = some n) :
    (∃ due, due ≤ now ∧ r.state = .waiting n due)
      ∧ (r.takeDue now).2 = { r with state := .trying n } := by
  rw [takeDue] at h ⊢
  split at h
  · next attempt due heq =>
    split at h
    · next hdue =>
      obtain rfl := Option.some.inj h
      exact ⟨⟨due, hdue, heq⟩, by rw [if_pos hdue]⟩
    · simp at h
  · simp at h

theorem takeDue_eq_none {r : Reconnect} {now : Nanos} (h : (r.takeDue now).1 = none) :
    (r.takeDue now).2 = r := by
  rw [takeDue] at h ⊢
  split at h
  · split at h
    · simp at h
    · next hdue => rw [if_neg hdue]
  · rfl

end Reconnect

/-! ## The input -/

variable {K : Type*}

abbrev PaneId := String

/-- The messages that carry what the user types. -/
inductive ClientMessage (K : Type*)
  | ptyKeyBatch (paneId : PaneId) (events : List K)
  | ptyPaste (paneId : PaneId) (data : String)
  deriving DecidableEq, Repr

/-- How many keystrokes one input message carries. -/
def keystrokes : ClientMessage K → ℕ
  | .ptyKeyBatch _ events => events.length
  | _ => 1

/-- What lets the input of the user through to a pane. -/
structure Gate where
  /-- The connection is paused by hand. -/
  suppressed : Bool
  activePane : Option PaneId
  /-- Input to the active pane is locked. -/
  locked : Bool
  deriving DecidableEq, Repr

/-- The pane input goes to, or else whether it counts as accepted. -/
def Gate.activePaneUnlocked (g : Gate) : Except Bool PaneId :=
  match g.activePane with
  | none => .error true
  | some paneId => if g.locked then .error false else .ok paneId

def Gate.keyBatchMessage (g : Gate) (events : List K) : Except Bool (ClientMessage K) :=
  if g.suppressed then .error false
  else if events.isEmpty then .error true
  else g.activePaneUnlocked.map fun paneId ↦ .ptyKeyBatch paneId events

def Gate.pasteMessage (g : Gate) (text : String) : Except Bool (ClientMessage K) :=
  if g.suppressed then .error false
  else if text.isEmpty then .error true
  else g.activePaneUnlocked.map fun paneId ↦ .ptyPaste paneId text

def outageInputCapacity : ℕ := 256

def outageInputMaxAge : Nanos := secs 30

def droppedNotice : Nanos := secs 8

structure OutageInput (K : Type*) where
  queued : List (ClientMessage K)
  keystrokes : ℕ
  /-- When the oldest input still held was typed. -/
  firstHeldAt : Option Nanos
  dropped : ℕ
  droppedNoticeUntil : Option Nanos
  deriving DecidableEq, Repr

namespace OutageInput

def default : OutageInput K :=
  { queued := [], keystrokes := 0, firstHeldAt := none, dropped := 0, droppedNoticeUntil := none }

def push (o : OutageInput K) (msg : ClientMessage K) (now : Nanos) : OutageInput K :=
  let weight := Driver.keystrokes msg
  if outageInputCapacity < o.keystrokes + weight then { o with dropped := o.dropped + weight }
  else
    { o with
      keystrokes := o.keystrokes + weight
      firstHeldAt := some (o.firstHeldAt.getD now)
      queued := o.queued ++ [msg] }

/-- A new outage begins. -/
def begin (o : OutageInput K) : OutageInput K :=
  { o with dropped := 0, droppedNoticeUntil := none }

/-- The link is back: everything kept, to be sent. -/
def flush (o : OutageInput K) (now : Nanos) (deliver : Bool) :
    List (ClientMessage K) × OutageInput K :=
  let stale := o.firstHeldAt.any fun typed ↦ outageInputMaxAge < now - typed
  let sent := if deliver && !stale then o.queued else []
  let dropped := if deliver && !stale then o.dropped else o.dropped + o.keystrokes
  let droppedNoticeUntil :=
    if 0 < dropped && o.droppedNoticeUntil.isNone then some (now + droppedNotice)
    else o.droppedNoticeUntil
  (sent, { queued := [], keystrokes := 0, firstHeldAt := none, dropped, droppedNoticeUntil })

/-! ## What is held -/

/-- Nothing is held. -/
structure Empty (o : OutageInput K) : Prop where
  queued : o.queued = []
  keystrokes : o.keystrokes = 0
  firstHeldAt : o.firstHeldAt = none

end OutageInput

/-- The keystrokes of inputs that come with the time they were typed. -/
def typedKeystrokes (typed : List (ClientMessage K × Nanos)) : ℕ :=
  Budget.total (fun t ↦ keystrokes t.1) typed

/-- Of what is typed, that which fits. -/
def kept (typed : List (ClientMessage K × Nanos)) : List (ClientMessage K × Nanos) :=
  Budget.fitting (fun t ↦ keystrokes t.1) outageInputCapacity typed

/-- Everything is kept where everything fits, and there only. -/
theorem kept_eq_self_iff {typed : List (ClientMessage K × Nanos)} :
    kept typed = typed ↔ typedKeystrokes typed ≤ outageInputCapacity := Budget.fitting_eq_self_iff

/-- The oldest that is kept is not too old. -/
def Fresh (typed : List (ClientMessage K × Nanos)) (now : Nanos) : Prop :=
  ∀ t ∈ (kept typed).head?, now - t.2 ≤ outageInputMaxAge

instance (typed : List (ClientMessage K × Nanos)) (now : Nanos) : Decidable (Fresh typed now) :=
  inferInstanceAs (Decidable (∀ t ∈ (kept typed).head?, now - t.2 ≤ outageInputMaxAge))

namespace OutageInput

/-- Of what is typed since the outage began, what fits is held and the rest is counted. -/
structure Holds (typed : List (ClientMessage K × Nanos)) (o : OutageInput K) : Prop where
  queued : o.queued = (kept typed).map Prod.fst
  keystrokes : o.keystrokes = typedKeystrokes (kept typed)
  firstHeldAt : o.firstHeldAt = (kept typed).head?.map Prod.snd
  dropped : o.keystrokes + o.dropped = typedKeystrokes typed

variable {o : OutageInput K} {typed : List (ClientMessage K × Nanos)}

theorem empty_default : (default : OutageInput K).Empty := ⟨rfl, rfl, rfl⟩

theorem Empty.holds_begin (h : o.Empty) : o.begin.Holds [] where
  queued := h.queued
  keystrokes := h.keystrokes
  firstHeldAt := h.firstHeldAt
  dropped := by rw [begin, h.keystrokes]; rfl

theorem Holds.push (h : o.Holds typed) (msg : ClientMessage K) (now : Nanos) :
    (o.push msg now).Holds (typed ++ [(msg, now)]) := by
  have htotal := h.keystrokes
  have hdropped := h.dropped
  rw [typedKeystrokes, kept] at htotal
  rw [OutageInput.push]
  by_cases hfits : outageInputCapacity < o.keystrokes + Driver.keystrokes msg
  · have hkept : kept (typed ++ [(msg, now)]) = kept typed :=
      Budget.fitting_concat_of_lt (by rwa [← htotal])
    rw [if_pos hfits]
    refine ⟨by rw [hkept]; exact h.queued, by rw [hkept]; exact h.keystrokes,
      by rw [hkept]; exact h.firstHeldAt, ?_⟩
    rw [typedKeystrokes, Budget.total_concat, ← typedKeystrokes, ← hdropped]
    exact (Nat.add_assoc _ _ _).symm
  · have hkept : kept (typed ++ [(msg, now)]) = kept typed ++ [(msg, now)] :=
      Budget.fitting_concat_of_le (by rw [← htotal]; exact Nat.not_lt.mp hfits)
    rw [if_neg hfits]
    refine ⟨?_, ?_, ?_, ?_⟩
    · rw [hkept, List.map_append, ← h.queued]
      rfl
    · rw [hkept, typedKeystrokes, Budget.total_concat, ← typedKeystrokes, ← h.keystrokes]
    · rw [hkept, h.firstHeldAt]
      cases kept typed <;> rfl
    · rw [typedKeystrokes, Budget.total_concat, ← typedKeystrokes, ← hdropped]
      exact Nat.add_right_comm _ _ _

theorem empty_flush (o : OutageInput K) (now : Nanos) (deliver : Bool) :
    (o.flush now deliver).2.Empty := ⟨rfl, rfl, rfl⟩

theorem Empty.flush_fst (h : o.Empty) (now : Nanos) (deliver : Bool) :
    (o.flush now deliver).1 = [] := by
  rw [flush, h.queued]
  exact ite_self []

theorem Holds.stale (h : o.Holds typed) (now : Nanos) :
    (o.firstHeldAt.any fun t ↦ outageInputMaxAge < now - t) = !decide (Fresh typed now) := by
  rw [Bool.eq_iff_iff, Bool.not_eq_true', decide_eq_false_iff_not, h.firstHeldAt]
  unfold Fresh
  cases (kept typed).head? with
  | none => simp
  | some t => simp [Nat.lt_sub_iff_add_lt]

theorem Holds.flush_fst (h : o.Holds typed) (now : Nanos) (deliver : Bool) :
    (o.flush now deliver).1
      = if deliver = true ∧ Fresh typed now then (kept typed).map Prod.fst else [] := by
  rw [flush, h.stale, h.queued]
  simp

/-- No keystroke is lost without being counted. -/
theorem Holds.flush_total (h : o.Holds typed) (now : Nanos) (deliver : Bool) :
    Budget.total Driver.keystrokes (o.flush now deliver).1 + (o.flush now deliver).2.dropped
      = typedKeystrokes typed := by
  have hsent : Budget.total Driver.keystrokes ((kept typed).map Prod.fst) = o.keystrokes := by
    rw [Budget.total_map, h.keystrokes]
    rfl
  rw [flush, h.stale, h.queued, ← h.dropped]
  by_cases hd : deliver = true ∧ Fresh typed now
  · simp [hd.1, hd.2, hsent]
  · have hboth : (deliver && !!decide (Fresh typed now)) = false := by simpa using hd
    simp only [hboth, Bool.false_eq_true, if_false, Budget.total_nil]
    omega

end OutageInput

end Driver

end Kmux
