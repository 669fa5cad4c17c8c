import Mathlib.Data.Nat.Basic
import Mathlib.Order.Lattice
import Mathlib.Data.List.Basic

/-!
# Sliding-window limits

A limiter keeps the times it granted. A request first drops what has left the window that ends with
it, and is granted if fewer than `max` grants are left. The promise is about every window, not only
those that end with a request: however a stretch of time shorter than `window` is placed, at most
`max` grants lie in it.

Dropping is where this could go wrong, since the log is all a later decision sees. `Kept` says what
has to be remembered: at every later time the log and the whole list of grants show the same window.
Time must not go back for that, and nothing else is asked of it.
-/

namespace Throttle

variable {T : Type*} [Add T] [LinearOrder T]

/-- The times that lie in the window ending at `now`. -/
def live (window now : T) (log : List T) : List T :=
  log.filter fun t ↦ decide (now < t + window)

/-- Decide a request at `now`: the log afterwards, and whether it is granted. -/
def request (max : ℕ) (window : T) (log : List T) (now : T) : List T × Bool :=
  if max ≤ (live window now log).length then (live window now log, false)
  else (live window now log ++ [now], true)

/-- What the log of a limiter keeps of all its grants. -/
structure Kept (max : ℕ) (window now : T) (log granted : List T) : Prop where
  /-- Nothing that is still in a window was dropped. -/
  live_eq : ∀ n, now ≤ n → live window n log = live window n granted
  le_now : ∀ t ∈ granted, t ≤ now
  length_le : log.length ≤ max
  /-- Grants that are all less than a window apart are at most `max`. -/
  spread : ∀ p : T → Bool, (∀ a b, p a = true → p b = true → b < a + window) →
    (granted.filter p).length ≤ max

/-- What has left the window stays out of it. -/
theorem live_live {window n n' : T} (h : n ≤ n') (log : List T) :
    live window n' (live window n log) = live window n' log := by
  rw [live, live, live, List.filter_filter]
  apply List.filter_congr
  intro t _
  rw [Bool.and_eq_left_iff_imp, decide_eq_true_iff, decide_eq_true_iff]
  exact fun hlive ↦ h.trans_lt hlive

theorem live_append (window n : T) (log log' : List T) :
    live window n (log ++ log') = live window n log ++ live window n log' :=
  List.filter_append _ _

theorem length_live_le (window n : T) (log : List T) :
    (live window n log).length ≤ log.length := List.length_filter_le _ _

/-- A limiter that has granted nothing. -/
theorem kept_nil (max : ℕ) (window now : T) : Kept max window now [] [] where
  live_eq _ _ := rfl
  le_now := by simp
  length_le := Nat.zero_le _
  spread _ _ := Nat.zero_le _

/-- Time passing asks for nothing more. -/
theorem Kept.later {max : ℕ} {window now n : T} {log granted : List T}
    (h : Kept max window now log granted) (hn : now ≤ n) : Kept max window n log granted where
  live_eq m hm := h.live_eq m (hn.trans hm)
  le_now t ht := (h.le_now t ht).trans hn
  length_le := h.length_le
  spread := h.spread

/-- One more grant, given that fewer than `max` are live, still leaves at most `max` close
together: those close to the new one are live. -/
private theorem spread_append {max : ℕ} {window now n : T} {log granted : List T}
    (h : Kept max window now log granted) (hn : now ≤ n)
    (hroom : (live window n log).length < max) (p : T → Bool)
    (hp : ∀ a b, p a = true → p b = true → b < a + window) :
    ((granted ++ [n]).filter p).length ≤ max := by
  rw [List.filter_append, List.length_append]
  by_cases hnew : p n = true
  · have hsub : (granted.filter p).length ≤ (live window n granted).length := by
      apply List.Sublist.length_le
      apply List.monotone_filter_right
      intro a ha
      exact decide_eq_true (hp a n ha hnew)
    rw [← h.live_eq n hn] at hsub
    rw [List.filter_cons_of_pos hnew, List.filter_nil, List.length_singleton]
    omega
  · rw [List.filter_cons_of_neg hnew, List.filter_nil, List.length_nil, Nat.add_zero]
    exact h.spread p hp

/-- **One request.** Whatever is decided, the log keeps what it has to. -/
theorem Kept.request {max : ℕ} {window now n : T} {log granted : List T}
    (h : Kept max window now log granted) (hn : now ≤ n) :
    Kept max window n (request max window log n).1
      (if (Throttle.request max window log n).2 then granted ++ [n] else granted) := by
  have hlive : ∀ m, n ≤ m → live window m (live window n log) = live window m granted :=
    fun m hm ↦ by rw [live_live hm, h.live_eq m (hn.trans hm)]
  rw [Throttle.request]
  by_cases hfull : max ≤ (live window n log).length
  · rw [if_pos hfull]
    constructor
    · exact hlive
    · exact fun t ht ↦ (h.le_now t ht).trans hn
    · exact (length_live_le window n log).trans h.length_le
    · exact h.spread
  · rw [if_neg hfull]
    constructor
    · intro m hm
      rw [if_pos rfl, live_append, live_append, hlive m hm]
    · intro t ht
      rcases List.mem_append.mp ht with ht | ht
      · exact (h.le_now t ht).trans hn
      · exact (List.mem_singleton.mp ht).le
    · rw [List.length_append, List.length_singleton]
      omega
    · exact spread_append h hn (Nat.lt_of_not_le hfull)

/-- A request is refused exactly when the window that ends with it holds `max` grants. -/
theorem Kept.refused_iff {max : ℕ} {window now n : T} {log granted : List T}
    (h : Kept max window now log granted) (hn : now ≤ n) :
    (Throttle.request max window log n).2 = false ↔ (live window n granted).length = max := by
  have hle : (live window n log).length ≤ max := (length_live_le window n log).trans h.length_le
  rw [← h.live_eq n hn, Throttle.request]
  by_cases hfull : max ≤ (live window n log).length
  · rw [if_pos hfull]
    exact iff_of_true rfl (le_antisymm hle hfull)
  · rw [if_neg hfull]
    exact iff_of_false Bool.noConfusion fun heq ↦ hfull heq.ge

end Throttle
