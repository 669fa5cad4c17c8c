import Mathlib.Algebra.GroupWithZero.Nat
import Mathlib.Data.List.Induction

/-!
# Taking what fits

Items arrive in order, each with a weight, and are taken as long as the weight of all that is taken
stays within a capacity. An item that does not fit is turned away whole, and a later, lighter one
may still be taken. What is taken never weighs more than the capacity, and it is all that came
exactly where all that came fits.
-/

namespace Budget

variable {α : Type*} (w : α → ℕ) (cap : ℕ)

/-- The weight of a list of items. -/
def total (xs : List α) : ℕ := (xs.map w).sum

/-- Of the items that come, those that fit when they come. -/
def fitting (xs : List α) : List α :=
  xs.foldl (fun kept x ↦ if total w kept + w x ≤ cap then kept ++ [x] else kept) []

@[simp] theorem total_nil : total w [] = 0 := rfl

@[simp] theorem total_concat (xs : List α) (x : α) : total w (xs ++ [x]) = total w xs + w x := by
  simp [total]

theorem total_map {β : Type*} (f : β → α) (xs : List β) :
    total w (xs.map f) = total (fun x ↦ w (f x)) xs := by
  rw [total, total, List.map_map]
  rfl

theorem fitting_concat (xs : List α) (x : α) :
    fitting w cap (xs ++ [x])
      = if total w (fitting w cap xs) + w x ≤ cap then fitting w cap xs ++ [x]
        else fitting w cap xs := by
  rw [fitting, List.foldl_append]
  rfl

variable {w cap}

theorem fitting_concat_of_le {xs : List α} {x : α} (h : total w (fitting w cap xs) + w x ≤ cap) :
    fitting w cap (xs ++ [x]) = fitting w cap xs ++ [x] := by
  rw [fitting_concat, if_pos h]

theorem fitting_concat_of_lt {xs : List α} {x : α} (h : cap < total w (fitting w cap xs) + w x) :
    fitting w cap (xs ++ [x]) = fitting w cap xs := by
  rw [fitting_concat, if_neg (Nat.not_le.mpr h)]

theorem total_fitting_le (xs : List α) : total w (fitting w cap xs) ≤ cap := by
  induction xs using List.reverseRecOn with
  | nil => exact Nat.zero_le cap
  | append_singleton xs x ih =>
    rw [fitting_concat]
    split
    · rwa [total_concat]
    · exact ih

/-- Nothing is turned away where everything fits, and there only. -/
theorem fitting_eq_self_iff {xs : List α} : fitting w cap xs = xs ↔ total w xs ≤ cap := by
  constructor
  · intro h
    rw [← h]
    exact total_fitting_le xs
  · intro h
    induction xs using List.reverseRecOn with
    | nil => rfl
    | append_singleton xs x ih =>
      rw [total_concat] at h
      have hxs : fitting w cap xs = xs := ih (by omega)
      rw [fitting_concat_of_le (by rwa [hxs]), hxs]

end Budget
