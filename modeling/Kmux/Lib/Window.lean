import Mathlib.Data.List.Basic
import Mathlib.Data.List.DropRight

/-!
# Bounded windows over an absolute index space

A window holds a contiguous run of items of an unbounded sequence: `items[0]` sits at absolute
index `base`, and everything below `base` has been forgotten. Appending past a capacity forgets
from the front, one item at a time; the closed forms `append_items` and `append_base` say what the
loop amounts to, so that nothing downstream has to reason about the loop.
-/

/-- A contiguous run of items, the first of them at absolute index `base`. -/
structure Window (α : Type*) where
  /-- The absolute index of the first item held. -/
  base : ℕ
  /-- The items held, oldest first. -/
  items : List α

namespace Window

variable {α : Type*} {cap : ℕ}

/-- One past the absolute index of the last item held. -/
def total (w : Window α) : ℕ := w.base + w.items.length

/-- Lookup by absolute index. -/
def get? (w : Window α) (i : ℕ) : Option α := if i < w.base then none else w.items[i - w.base]?

/-- Append one item, forgetting the oldest one when the window is full. -/
def push (cap : ℕ) (w : Window α) (a : α) : Window α :=
  if cap ≤ w.items.length then ⟨w.base + 1, w.items.tail ++ [a]⟩ else ⟨w.base, w.items ++ [a]⟩

/-- Append items in order. -/
def append (cap : ℕ) (w : Window α) (as : List α) : Window α := as.foldl (push cap) w

/-! ## Lookup -/

theorem get?_eq_some_iff {w : Window α} {i : ℕ} {a : α} :
    w.get? i = some a ↔ w.base ≤ i ∧ w.items[i - w.base]? = some a := by
  rw [get?]
  by_cases h : i < w.base
  · rw [if_pos h]
    constructor
    · intro hc
      exact absurd hc (by simp)
    · rintro ⟨hle, -⟩
      omega
  · rw [if_neg h]
    exact ⟨fun ha ↦ ⟨by omega, ha⟩, fun ha ↦ ha.2⟩

theorem lt_total_of_get?_eq_some {w : Window α} {i : ℕ} {a : α} (h : w.get? i = some a) :
    w.base ≤ i ∧ i < w.total := by
  obtain ⟨hle, hget⟩ := get?_eq_some_iff.mp h
  have hlt : i - w.base < w.items.length := (List.getElem?_eq_some_iff.mp hget).1
  exact ⟨hle, by rw [total]; omega⟩

/-- A window has no holes. -/
theorem exists_get?_eq_some {w : Window α} {i : ℕ} (hbase : w.base ≤ i) (htotal : i < w.total) :
    ∃ a, w.get? i = some a := by
  rw [total] at htotal
  have hlt : i - w.base < w.items.length := by omega
  exact ⟨w.items[i - w.base], get?_eq_some_iff.mpr ⟨hbase, List.getElem?_eq_getElem hlt⟩⟩

/-! ## Sub-windows -/

/-- Whatever `w` holds, `w'` holds at the same absolute index. -/
def Sub (w w' : Window α) : Prop := ∀ i a, w.get? i = some a → w'.get? i = some a

theorem Sub.trans {w₁ w₂ w₃ : Window α} (h : w₁.Sub w₂) (h' : w₂.Sub w₃) : w₁.Sub w₃ :=
  fun i a ha ↦ h' i a (h i a ha)

theorem sub_of_items_eq_nil {w w' : Window α} (h : w.items = []) : w.Sub w' := by
  intro i a ha
  obtain ⟨-, hget⟩ := get?_eq_some_iff.mp ha
  rw [h] at hget
  exact absurd hget (by simp)

/-- Forgetting from the front loses what lies before the new base and nothing else. -/
theorem get?_drop (w : Window α) (k i : ℕ) :
    get? ⟨w.base + k, w.items.drop k⟩ i = if i < w.base + k then none else w.get? i := by
  rw [get?, get?]
  change (if i < w.base + k then none else (w.items.drop k)[i - (w.base + k)]?) = _
  by_cases h : i < w.base + k
  · rw [if_pos h, if_pos h]
  · rw [if_neg h, if_neg h, if_neg (show ¬i < w.base by omega), List.getElem?_drop,
      show k + (i - (w.base + k)) = i - w.base by omega]

/-- Forgetting from the front moves nothing that is kept. -/
theorem sub_drop (w : Window α) (k : ℕ) : Sub ⟨w.base + k, w.items.drop k⟩ w := by
  intro i a ha
  rw [get?_drop] at ha
  by_cases h : i < w.base + k
  · rw [if_pos h] at ha
    exact absurd ha (by simp)
  · rwa [if_neg h] at ha

/-! ## Appending -/

theorem push_items {w : Window α} (hcap : 0 < cap) (hlen : w.items.length ≤ cap) (a : α) :
    (push cap w a).items = (w.items ++ [a]).drop (w.items.length + 1 - cap) := by
  rw [push]
  by_cases h : cap ≤ w.items.length
  · have hone : w.items.length + 1 - cap = 1 := by omega
    rw [if_pos h, hone]
    cases hw : w.items with
    | nil => rw [hw, List.length_nil] at h; omega
    | cons x xs => simp
  · rw [if_neg h, show w.items.length + 1 - cap = 0 by omega, List.drop_zero]

theorem push_base {w : Window α} (hlen : w.items.length ≤ cap) (a : α) :
    (push cap w a).base = w.base + (w.items.length + 1 - cap) := by
  rw [push]
  by_cases h : cap ≤ w.items.length
  · rw [if_pos h]
    change w.base + 1 = _
    omega
  · rw [if_neg h]
    change w.base = _
    omega

theorem push_length_le {w : Window α} (hcap : 0 < cap) (hlen : w.items.length ≤ cap) (a : α) :
    (push cap w a).items.length ≤ cap := by
  rw [push_items hcap hlen, List.length_drop, List.length_append, List.length_singleton]
  omega

/-- What the append loop holds in the end: the newest `cap` of everything. -/
theorem append_items (hcap : 0 < cap) : ∀ (as : List α) (w : Window α),
    w.items.length ≤ cap →
    (append cap w as).items = (w.items ++ as).drop (w.items.length + as.length - cap) := by
  intro as
  induction as with
  | nil =>
    intro w hlen
    rw [append, List.foldl_nil, List.append_nil, List.length_nil,
      show w.items.length + 0 - cap = 0 by omega, List.drop_zero]
  | cons a as ih =>
    intro w hlen
    rw [append, List.foldl_cons, ← append, ih _ (push_length_le hcap hlen a),
      push_items hcap hlen, List.length_drop]
    have hsplit : (w.items ++ [a]).drop (w.items.length + 1 - cap) ++ as
        = (w.items ++ a :: as).drop (w.items.length + 1 - cap) := by
      have hle : w.items.length + 1 - cap ≤ (w.items ++ [a]).length := by
        rw [List.length_append, List.length_singleton]
        omega
      rw [← List.drop_append_of_le_length hle, List.append_assoc, List.singleton_append]
    rw [hsplit, List.drop_drop, List.length_append, List.length_singleton, List.length_cons]
    congr 1
    omega

theorem append_base (hcap : 0 < cap) : ∀ (as : List α) (w : Window α),
    w.items.length ≤ cap →
    (append cap w as).base = w.base + (w.items.length + as.length - cap) := by
  intro as
  induction as with
  | nil =>
    intro w hlen
    rw [append, List.foldl_nil, List.length_nil]
    omega
  | cons a as ih =>
    intro w hlen
    rw [append, List.foldl_cons, ← append, ih _ (push_length_le hcap hlen a), push_base hlen,
      push_items hcap hlen, List.length_drop, List.length_append, List.length_singleton,
      List.length_cons]
    omega

/-- A bounded append holds nothing an unbounded one would not. -/
theorem sub_append (hcap : 0 < cap) (as : List α) {w : Window α} (hlen : w.items.length ≤ cap) :
    (append cap w as).Sub ⟨w.base, w.items ++ as⟩ := by
  have hdrop := sub_drop ⟨w.base, w.items ++ as⟩ (w.items.length + as.length - cap)
  have heq : append cap w as = ⟨w.base + (w.items.length + as.length - cap),
      (w.items ++ as).drop (w.items.length + as.length - cap)⟩ := by
    rw [← append_base hcap as w hlen, ← append_items hcap as w hlen]
  rw [heq]
  exact hdrop

theorem append_total (hcap : 0 < cap) (as : List α) {w : Window α}
    (hlen : w.items.length ≤ cap) : (append cap w as).total = w.total + as.length := by
  rw [total, append_base hcap as w hlen, append_items hcap as w hlen, List.length_drop,
    List.length_append, total]
  omega

/-! ## The newest items of an unbounded window -/

/-- What a window of capacity `cap` has left of `w`. -/
def last (cap : ℕ) (w : Window α) : Window α :=
  ⟨w.base + (w.items.length - cap), w.items.drop (w.items.length - cap)⟩

theorem length_last_le (w : Window α) : (last cap w).items.length ≤ cap := by
  rw [last, List.length_drop]
  omega

@[simp] theorem total_last (w : Window α) : (last cap w).total = w.total := by
  rw [total, total]
  change w.base + (w.items.length - cap) + (w.items.drop (w.items.length - cap)).length = _
  rw [List.length_drop]
  omega

/-- A bounded append follows the unbounded one. -/
theorem append_last (hcap : 0 < cap) (w : Window α) (as : List α) :
    append cap (last cap w) as = last cap ⟨w.base, w.items ++ as⟩ := by
  have hle : (last cap w).items.length ≤ cap := length_last_le w
  have hlen : (last cap w).items.length = w.items.length - (w.items.length - cap) := by
    rw [last, List.length_drop]
  have hbase : (append cap (last cap w) as).base
      = w.base + ((w.items ++ as).length - cap) := by
    rw [append_base hcap as _ hle, hlen, List.length_append]
    change w.base + (w.items.length - cap) + _ = _
    omega
  have hitems : (append cap (last cap w) as).items
      = (w.items ++ as).drop ((w.items ++ as).length - cap) := by
    rw [append_items hcap as _ hle, hlen, last, ← List.drop_append_of_le_length (by omega),
      List.drop_drop, List.length_append]
    congr 1
    omega
  change _ = Window.mk (w.base + ((w.items ++ as).length - cap))
    ((w.items ++ as).drop ((w.items ++ as).length - cap))
  rw [← hbase, ← hitems]

/-- A bounded window holds what the unbounded one does, from its own base on. -/
theorem get?_last (w : Window α) (i : ℕ) :
    (last cap w).get? i = if i < (last cap w).base then none else w.get? i :=
  get?_drop w (w.items.length - cap) i

/-- The item `k` places into a window. -/
theorem getElem?_items (w : Window α) (k : ℕ) : w.items[k]? = w.get? (w.base + k) := by
  rw [get?, if_neg (by omega), Nat.add_sub_cancel_left]

theorem get?_eq_none_of_total_le {w : Window α} {i : ℕ} (h : w.total ≤ i) : w.get? i = none := by
  rw [total] at h
  rw [get?, if_neg (by omega), List.getElem?_eq_none (by omega)]

end Window
