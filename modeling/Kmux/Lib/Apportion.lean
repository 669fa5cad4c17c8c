import Mathlib.Algebra.BigOperators.Group.List.Basic
import Mathlib.Algebra.Order.BigOperators.Group.List
import Mathlib.Algebra.Order.Ring.Nat
import Mathlib.Data.Finset.Card

/-!
# Apportionment by largest remainder

A pool is divided among weights: every weight first gets the floor of its exact share, and the units
left over are handed out one by one along some order of the positions. Which order is used decides
who gets them, but not how many there are: there are fewer units left over than weights, so any
order that lists every position uses them up, and the shares add up to the pool.

By largest remainder the units go to the weights whose exact share was cut short the most, ties to
the lower position. Then the share of one weight has a closed form: it is rounded up exactly when
fewer positions come before it than there are units left over.
-/

namespace Apportion

/-- The floors of the exact shares of `pool`, for weights that add up to `sum`. -/
def floors (pool sum : ℕ) (weights : List ℕ) : List ℕ := weights.map fun w ↦ w * pool / sum

@[simp] theorem length_floors (pool sum : ℕ) (weights : List ℕ) :
    (floors pool sum weights).length = weights.length := List.length_map ..

/-- Division with remainder, summed over the weights. -/
theorem mul_sum_floors_add (pool sum : ℕ) (weights : List ℕ) :
    sum * (floors pool sum weights).sum + (weights.map fun w ↦ w * pool % sum).sum
      = weights.sum * pool := by
  induction weights with
  | nil => simp [floors]
  | cons w ws ih =>
    have hdiv := Nat.div_add_mod (w * pool) sum
    rw [floors] at ih ⊢
    rw [List.map_cons, List.sum_cons, List.map_cons, List.sum_cons, List.sum_cons, Nat.mul_add,
      Nat.add_mul, ← ih]
    omega

variable {weights : List ℕ}

/-- The floors never overspend the pool. -/
theorem sum_floors_le (pool : ℕ) (hpos : 0 < weights.sum) :
    (floors pool weights.sum weights).sum ≤ pool := by
  have h := mul_sum_floors_add pool weights.sum weights
  apply Nat.le_of_mul_le_mul_left _ hpos
  omega

private theorem sum_mod_le (pool sum : ℕ) (hpos : 0 < sum) (ws : List ℕ) :
    (ws.map fun w ↦ w * pool % sum).sum ≤ ws.length * sum := by
  induction ws with
  | nil => exact Nat.zero_le _
  | cons w ws ih =>
    have hlt := Nat.mod_lt (w * pool) hpos
    rw [List.map_cons, List.sum_cons, List.length_cons, Nat.add_mul]
    omega

/-- There are no more units left over than there are weights. -/
theorem leftover_le (pool : ℕ) (hpos : 0 < weights.sum) :
    pool - (floors pool weights.sum weights).sum ≤ weights.length := by
  have h := mul_sum_floors_add pool weights.sum weights
  have hmod := sum_mod_le pool weights.sum hpos weights
  apply Nat.le_of_mul_le_mul_left _ hpos
  rw [Nat.mul_sub, Nat.mul_comm weights.sum pool, Nat.mul_comm weights.sum weights.length]
  rw [Nat.mul_comm weights.sum pool] at h
  omega

/-- Raising one entry by one raises the sum by one. -/
theorem sum_modify {f : ℕ → ℕ} {i : ℕ} : ∀ {shares : List ℕ}, i < shares.length →
    (∀ x ∈ shares, f x = x + 1) → (shares.modify i f).sum = shares.sum + 1 := by
  induction i with
  | zero =>
    intro shares hi hf
    obtain ⟨x, xs, rfl⟩ := List.exists_cons_of_length_pos hi
    rw [List.modify_zero_cons, List.sum_cons, List.sum_cons, hf x List.mem_cons_self]
    omega
  | succ i ih =>
    intro shares hi hf
    obtain ⟨x, xs, rfl⟩ := List.exists_cons_of_length_pos (Nat.zero_lt_of_lt hi)
    rw [List.modify_succ_cons, List.sum_cons, List.sum_cons,
      ih (Nat.lt_of_succ_lt_succ hi) fun y hy ↦ hf y (List.mem_cons_of_mem x hy)]
    omega

/-! ## Largest remainder -/

section LargestRemainder

variable (pool : ℕ) (weights : List ℕ)

/-- What the floor of the exact share of a weight cut off, in parts of the sum. -/
def remainder (i : ℕ) : ℕ := weights.getD i 0 * pool % weights.sum

/-- Position `i` gets a unit before position `j` does. -/
def Before (i j : ℕ) : Prop :=
  remainder pool weights j < remainder pool weights i ∨
    remainder pool weights i = remainder pool weights j ∧ i < j

instance decidableBefore (i j : ℕ) : Decidable (Before pool weights i j) :=
  inferInstanceAs (Decidable (_ ∨ _))

/-- How many positions get a unit before position `i` does. -/
def rank (i : ℕ) : ℕ :=
  ((Finset.range weights.length).filter fun j ↦ Before pool weights j i).card

/-- The units that the floors leave over. -/
def leftover : ℕ := pool - (floors pool weights.sum weights).sum

/-- The share of the weight at position `i`. -/
def share (i : ℕ) : ℕ :=
  weights.getD i 0 * pool / weights.sum
    + if rank pool weights i < leftover pool weights then 1 else 0

variable {pool} {weights} {i j : ℕ}

theorem Before.asymm (h : Before pool weights i j) : ¬Before pool weights j i := by
  rw [Before] at h ⊢
  omega

theorem Before.trans {k : ℕ} (h : Before pool weights i j) (h' : Before pool weights j k) :
    Before pool weights i k := by
  rw [Before] at h h' ⊢
  omega

/-- Whoever comes before has fewer before it. -/
theorem rank_lt_rank (hi : i < weights.length) (h : Before pool weights i j) :
    rank pool weights i < rank pool weights j := by
  apply Finset.card_lt_card
  rw [Finset.ssubset_iff_of_subset]
  · refine ⟨i, ?_, ?_⟩
    · rw [Finset.mem_filter, Finset.mem_range]
      exact ⟨hi, h⟩
    · rw [Finset.mem_filter]
      exact fun hmem ↦ hmem.2.asymm hmem.2
  · intro k hk
    rw [Finset.mem_filter] at hk ⊢
    exact ⟨hk.1, hk.2.trans h⟩

/-- A share reaches `n` if its floor does, or if the floor misses by one and is rounded up. -/
theorem le_share_iff {n : ℕ} (hpos : 0 < weights.sum) :
    n ≤ share pool weights i ↔ n * weights.sum ≤ weights.getD i 0 * pool ∨
      n * weights.sum ≤ weights.getD i 0 * pool + weights.sum ∧
        rank pool weights i < leftover pool weights := by
  rw [share, ← Nat.le_div_iff_mul_le hpos, ← Nat.le_div_iff_mul_le hpos, Nat.add_div_right _ hpos]
  split_ifs <;> omega

end LargestRemainder

end Apportion
