import Kmux.Client.LayoutResolve

/-!
# Keyboard and pointer resizes

A resize trades weight between two neighbours of one split and leaves the others alone. The keyboard
form finds the split itself: the nearest ancestor of the focused pane that divides along the axis of
the arrow. It trades with the next sibling, or with the previous one if the focused child is last,
so that right and down always make the focused pane larger, whichever way the divider moves.
-/

namespace Kmux

/-- Direction of a focus move or of a keyboard resize. -/
inductive FocusDir
  | left
  | right
  | up
  | down
  deriving DecidableEq, Repr

namespace FocusDir

/-- The axis a resize in this direction works on. -/
def axis : FocusDir → SplitDir
  | .left => .horizontal
  | .right => .horizontal
  | .up => .vertical
  | .down => .vertical

/-- Right and down grow the focused pane. -/
def grow : FocusDir → Bool
  | .right => true
  | .down => true
  | .left => false
  | .up => false

end FocusDir

/-- Lowest weight a resize leaves a child with. -/
def minResizeRatio : ℤ := 20

/-- `x`, or the bound it is beyond. -/
def clamp (x lo hi : ℤ) : ℤ := if x < lo then lo else if hi < x then hi else x

/-- An `i32` cast to `u16`. -/
def i32ToU16 (x : ℤ) : ℕ := (x % 2 ^ 16).toNat

/-- Move `delta` into child `a` from child `b`, as far as the minimum of both allows. -/
def shiftPair (ratios : List ℕ) (a b : ℕ) (delta : ℤ) : List ℕ :=
  let total : ℤ := ratios.getD a 0 + ratios.getD b 0
  if total < minResizeRatio * 2 then ratios
  else
    let na := clamp (ratios.getD a 0 + delta) minResizeRatio (total - minResizeRatio)
    (ratios.set a (i32ToU16 na)).set b (i32ToU16 (total - na))

/-- The last position whose element satisfies `p`. -/
def rposition {α : Type*} (p : α → Bool) : List α → Option ℕ
  | [] => none
  | x :: xs =>
    match rposition p xs with
    | some k => some (k + 1)
    | none => if p x then some 0 else none

namespace LayoutNode

mutual

/-- For each split on the way down to the leaf `focused`: its direction and the child taken. -/
def buildDescent (focused : ℕ) : LayoutNode → Option (List (SplitDir × ℕ))
  | .leaf p => if p = focused then some [] else none
  | .split dir _ children => descentAmong focused dir 0 children

/-- The loop over the children, from child `i` on. -/
def descentAmong (focused : ℕ) (dir : SplitDir) :
    ℕ → List LayoutNode → Option (List (SplitDir × ℕ))
  | _, [] => none
  | i, c :: cs =>
    match buildDescent focused c with
    | some below => some ((dir, i) :: below)
    | none => descentAmong focused dir (i + 1) cs

end

/-- The path to the nearest ancestor of `focused` that splits along `axis`, and the child of it that
holds `focused`. -/
def nearestSplitOnAxis (root : LayoutNode) (focused : ℕ) (axis : SplitDir) :
    Option (List ℕ × ℕ) :=
  match buildDescent focused root with
  | none => none
  | some descent =>
    match rposition (fun d ↦ decide (d.1 = axis)) descent with
    | none => none
    | some k => some ((descent.take k).map Prod.snd, (descent.getD k (axis, 0)).2)

/-- The sibling that child `child` of `n` trades with. -/
def neighbor (child n : ℕ) : ℕ := if child + 1 < n then child + 1 else child - 1

/-- The weights that resize the pane `focused` in a direction, and the path to their split. -/
def resizeSplit (root : LayoutNode) (focused : ℕ) (dir : FocusDir) (step : ℕ) :
    Option (List ℕ × List ℕ) :=
  match nearestSplitOnAxis root focused dir.axis with
  | none => none
  | some (path, child) =>
    match nodeAt path root with
    | some (.split _ ratios children) =>
      if children.length < 2 then none
      else
        let delta : ℤ := if dir.grow then step else -step
        let new := shiftPair ratios child (neighbor child children.length) delta
        if new = ratios then none else some (path, new)
    | _ => none

/-- The weights that put a divider at a cell along its axis. Weights that sum to 1000 keep the
product within `i32`. -/
def ratiosForDrag (root : LayoutNode) (div : Divider) (pointerCell : ℕ) : Option (List ℕ) :=
  match nodeAt div.path root with
  | some (.split dir ratios children) =>
    if dir ≠ div.dir then none
    else if children.length ≤ div.before + 1 then none
    else
      let pair : ℤ := ratios.getD div.before 0 + ratios.getD (div.before + 1) 0
      if pair < minResizeRatio * 2 then none
      else
        let len : ℤ := max div.pairLen 1
        let off := clamp (pointerCell - div.pairStart) 0 len
        let newA := clamp ((off * pair + len / 2) / len) minResizeRatio (pair - minResizeRatio)
        let out := (ratios.set div.before (i32ToU16 newA)).set (div.before + 1)
          (i32ToU16 (pair - newA))
        if out = ratios then none else some out
  | _ => none

/-! ## The descent -/

variable {ok : List ℕ → Prop}

private theorem descentAmong_spec {focused : ℕ} {dir : SplitDir} : ∀ (cs : List LayoutNode) (i : ℕ)
    {descent : List (SplitDir × ℕ)}, descentAmong focused dir i cs = some descent →
      ∃ j c below, cs[j]? = some c ∧ buildDescent focused c = some below ∧
        descent = (dir, i + j) :: below := by
  intro cs
  induction cs with
  | nil => intro i descent h; rw [descentAmong] at h; cases h
  | cons c cs ih =>
    intro i descent h
    rw [descentAmong] at h
    rcases Option.eq_none_or_eq_some (buildDescent focused c) with hc | ⟨below, hc⟩
    · rw [hc] at h
      obtain ⟨j, c', below, hget, hbelow, rfl⟩ := ih (i + 1) h
      exact ⟨j + 1, c', below, hget, hbelow, by rw [Nat.add_right_comm, Nat.add_assoc]⟩
    · rw [hc] at h
      cases h
      exact ⟨0, c, below, rfl, hc, rfl⟩

/-- The descent leads to the leaf, through splits of the directions it records. -/
theorem buildDescent_spec {focused : ℕ} {t : LayoutNode} (ht : t.Weighted ok) :
    ∀ {descent : List (SplitDir × ℕ)}, buildDescent focused t = some descent →
      nodeAt (descent.map Prod.snd) t = some (.leaf focused) ∧
        ∀ above d i below, descent = above ++ (d, i) :: below → ∃ ratios cs,
          nodeAt (above.map Prod.snd) t = some (.split d ratios cs) ∧ i < cs.length := by
  induction ht with
  | leaf p =>
    intro descent h
    rw [buildDescent] at h
    split_ifs at h with hp
    obtain rfl := Option.some.inj h
    refine ⟨by rw [hp]; rfl, ?_⟩
    intro above d i below heq
    simp at heq
  | split dir two arity weights below ih =>
    rename_i ratios cs
    intro descent h
    rw [buildDescent] at h
    obtain ⟨j, c, rest, hget, hrest, rfl⟩ := descentAmong_spec cs 0 h
    rw [Nat.zero_add]
    obtain ⟨hleaf, hsplits⟩ := ih c (List.mem_of_getElem? hget) hrest
    have hdown : ∀ path, nodeAt (j :: path) (split dir ratios cs) = nodeAt path c := by
      intro path
      rw [nodeAt, hget]
    refine ⟨by rw [List.map_cons, hdown, hleaf], ?_⟩
    intro above d i below heq
    cases above with
    | nil =>
      rw [List.nil_append, List.cons.injEq, Prod.mk.injEq] at heq
      obtain ⟨⟨rfl, rfl⟩, -⟩ := heq
      exact ⟨ratios, cs, rfl, (List.getElem?_eq_some_iff.mp hget).1⟩
    | cons first above =>
      rw [List.cons_append, List.cons.injEq] at heq
      obtain ⟨rfl, heq⟩ := heq
      obtain ⟨ratios', cs', hnode, hi⟩ := hsplits above d i below heq
      exact ⟨ratios', cs', by rw [List.map_cons, hdown, hnode], hi⟩

private theorem rposition_none {α : Type*} {p : α → Bool} : ∀ {l : List α},
    rposition p l = none → ∀ y ∈ l, p y = false := by
  intro l
  induction l with
  | nil => intro _ y hy; exact absurd hy List.not_mem_nil
  | cons x xs ih =>
    intro h
    rw [rposition] at h
    rcases Option.eq_none_or_eq_some (rposition p xs) with hxs | ⟨j, hxs⟩
    · rw [hxs] at h
      dsimp only at h
      split_ifs at h with hx
      exact List.forall_mem_cons.mpr ⟨Bool.eq_false_iff.mpr hx, ih hxs⟩
    · rw [hxs] at h
      cases h

theorem rposition_spec {α : Type*} {p : α → Bool} : ∀ {l : List α} {k : ℕ},
    rposition p l = some k → ∃ above x below, l = above ++ x :: below ∧ above.length = k ∧
      p x = true ∧ ∀ y ∈ below, p y = false := by
  intro l
  induction l with
  | nil => intro k h; rw [rposition] at h; cases h
  | cons x xs ih =>
    intro k h
    rw [rposition] at h
    rcases Option.eq_none_or_eq_some (rposition p xs) with hxs | ⟨j, hxs⟩
    · rw [hxs] at h
      dsimp only at h
      split_ifs at h with hx
      obtain rfl := Option.some.inj h
      exact ⟨[], x, xs, rfl, rfl, hx, rposition_none hxs⟩
    · rw [hxs] at h
      obtain rfl := Option.some.inj h
      obtain ⟨above, y, below, rfl, rfl, hy, hbelow⟩ := ih hxs
      exact ⟨x :: above, y, below, rfl, rfl, hy, hbelow⟩

/-- The split at `path` divides along `axis`, its child `child` holds the leaf `focused`, and no
split between the two divides along `axis`. -/
def NearestOnAxis (root : LayoutNode) (focused : ℕ) (axis : SplitDir) (path : List ℕ)
    (child : ℕ) : Prop :=
  ∃ rest, nodeAt (path ++ child :: rest) root = some (.leaf focused) ∧
    (∃ ratios cs, nodeAt path root = some (.split axis ratios cs) ∧ child < cs.length) ∧
      ∀ n d ratios cs, nodeAt (path ++ child :: rest.take n) root = some (.split d ratios cs) →
        d ≠ axis

theorem nearestSplitOnAxis_spec {root : LayoutNode} {focused child : ℕ} {axis : SplitDir}
    {path : List ℕ} (ht : root.Weighted ok)
    (h : nearestSplitOnAxis root focused axis = some (path, child)) :
    NearestOnAxis root focused axis path child := by
  rw [nearestSplitOnAxis] at h
  rcases Option.eq_none_or_eq_some (buildDescent focused root) with hd | ⟨descent, hd⟩
  · rw [hd] at h
    cases h
  rw [hd] at h
  dsimp only at h
  rcases Option.eq_none_or_eq_some (rposition (fun d ↦ decide (d.1 = axis)) descent) with
    hk | ⟨k, hk⟩
  · rw [hk] at h
    cases h
  rw [hk] at h
  obtain ⟨hleaf, hsplits⟩ := buildDescent_spec ht hd
  -- the last step of the descent along the axis
  obtain ⟨above, ⟨d, i⟩, below, rfl, rfl, hx, hbelow⟩ := rposition_spec hk
  obtain rfl : d = axis := of_decide_eq_true hx
  have hpair : (above.map Prod.snd, i) = (path, child) := by
    have htake : (above ++ (d, i) :: below).take above.length = above := List.take_left
    have hget : (above ++ (d, i) :: below).getD above.length (d, 0) = (d, i) := by simp
    dsimp only at h
    rw [htake, hget] at h
    exact Option.some.inj h
  obtain ⟨rfl, rfl⟩ := Prod.mk.inj hpair
  refine ⟨below.map Prod.snd, by rw [← hleaf, List.map_append, List.map_cons],
    hsplits above d i below rfl, ?_⟩
  intro n d' ratios cs hnode
  by_cases hn : n < below.length
  · -- the split after `n` more steps is the one the descent records there
    obtain ⟨e, j, hcut⟩ : ∃ e j, below = below.take n ++ (e, j) :: below.drop (n + 1) :=
      ⟨below[n].1, below[n].2, by rw [List.cons_getElem_drop_succ, List.take_append_drop]⟩
    obtain ⟨ratios', cs', hnode', -⟩ := hsplits (above ++ (d, i) :: below.take n) e j
      (below.drop (n + 1)) (by rw [List.append_assoc, List.cons_append, ← hcut])
    rw [List.map_append, List.map_cons, List.map_take] at hnode'
    rw [hnode'] at hnode
    cases hnode
    have hno := hbelow (d', j) (hcut ▸ List.mem_append_right _ List.mem_cons_self)
    simpa using hno
  · rw [List.take_of_length_le (by rw [List.length_map]; omega)] at hnode
    rw [List.map_append, List.map_cons] at hleaf
    rw [hleaf] at hnode
    cases hnode

/-! ## The trade -/

/-- `new` is `old` with the weights of two neighbours traded, the lowest weight left to both. -/
def Traded (old : List ℕ) (a b : ℕ) (new : List ℕ) : Prop :=
  ∃ x y, minRatio ≤ x ∧ minRatio ≤ y ∧ x + y = old.getD a 0 + old.getD b 0 ∧
    new = (old.set a x).set b y

theorem clamp_mem (x : ℤ) {lo hi : ℤ} (h : lo ≤ hi) : lo ≤ clamp x lo hi ∧ clamp x lo hi ≤ hi := by
  rw [clamp]
  split_ifs <;> omega

private theorem i32ToU16_of_nonneg {x : ℤ} (h : 0 ≤ x) (hx : x < 2 ^ 16) :
    (i32ToU16 x : ℤ) = x := by
  rw [i32ToU16, Int.emod_eq_of_lt h hx, Int.toNat_of_nonneg h]

/-- A pair clamped at both ends is a trade. -/
theorem traded_of_clamp {total : ℕ} (hfit : total < 2 ^ 16) {x : ℤ}
    (hlo : minResizeRatio ≤ x) (hhi : x ≤ (total : ℤ) - minResizeRatio) :
    minRatio ≤ i32ToU16 x ∧ minRatio ≤ i32ToU16 (total - x) ∧
      i32ToU16 x + i32ToU16 (total - x) = total ∧ (i32ToU16 x : ℤ) = x := by
  rw [minResizeRatio] at hlo hhi
  have hnew := i32ToU16_of_nonneg (x := x) (by omega) (by omega)
  have hrest := i32ToU16_of_nonneg (x := (total : ℤ) - x) (by omega) (by omega)
  have hmin : minRatio = 20 := rfl
  refine ⟨?_, ?_, ?_, hnew⟩ <;> omega

/-- A shift that changes anything is a trade, and the new weight of `a` is clamped. -/
theorem shiftPair_spec {ratios : List ℕ} {a b : ℕ} {delta : ℤ}
    (hfit : ratios.getD a 0 + ratios.getD b 0 < 2 ^ 16)
    (hne : shiftPair ratios a b delta ≠ ratios) :
    ∃ x y : ℕ, minRatio ≤ x ∧ minRatio ≤ y ∧ x + y = ratios.getD a 0 + ratios.getD b 0 ∧
      shiftPair ratios a b delta = (ratios.set a x).set b y ∧
      (x : ℤ) = clamp (ratios.getD a 0 + delta) minResizeRatio
        ((ratios.getD a 0 + ratios.getD b 0 : ℤ) - minResizeRatio) := by
  rw [shiftPair] at hne ⊢
  dsimp only at hne ⊢
  split_ifs at hne ⊢ with htotal
  · exact absurd rfl hne
  · obtain ⟨hlo, hhi⟩ := clamp_mem ((ratios.getD a 0 : ℤ) + delta)
      (show minResizeRatio ≤ (ratios.getD a 0 + ratios.getD b 0 : ℤ) - minResizeRatio by omega)
    obtain ⟨hx, hy, hsum, heq⟩ := traded_of_clamp hfit hlo (by push_cast; exact hhi)
    push_cast at hy hsum
    exact ⟨_, _, hx, hy, hsum, rfl, heq⟩

theorem sum_set : ∀ {weights : List ℕ} {i : ℕ} (x : ℕ), i < weights.length →
    (weights.set i x).sum + weights.getD i 0 = weights.sum + x := by
  intro weights
  induction weights with
  | nil => intro i x hi; exact absurd hi (Nat.not_lt_zero i)
  | cons w ws ih =>
    intro i x hi
    cases i with
    | zero =>
      rw [List.set_cons_zero, List.sum_cons, List.sum_cons, List.getD_cons_zero]
      omega
    | succ i =>
      have := ih x (Nat.lt_of_succ_lt_succ hi)
      rw [List.set_cons_succ, List.sum_cons, List.sum_cons, List.getD_cons_succ]
      omega

theorem getD_set_ne {weights : List ℕ} {i j : ℕ} (x : ℕ) (h : i ≠ j) :
    (weights.set i x).getD j 0 = weights.getD j 0 := by
  rw [List.getD_eq_getElem?_getD, List.getElem?_set_ne h, List.getD_eq_getElem?_getD]

theorem getD_set_self {weights : List ℕ} {i : ℕ} (x : ℕ) (h : i < weights.length) :
    (weights.set i x).getD i 0 = x := by
  rw [List.getD_eq_getElem?_getD, List.getElem?_set_self h, Option.getD_some]

private theorem getD_le_sum (weights : List ℕ) (i : ℕ) : weights.getD i 0 ≤ weights.sum := by
  by_cases hi : i < weights.length
  · rw [List.getD_eq_getElem?_getD, List.getElem?_eq_getElem hi]
    exact le_sum_of_mem (List.getElem_mem hi)
  · rw [List.getD_eq_getElem?_getD, List.getElem?_eq_none (by omega)]
    exact Nat.zero_le _

/-- Two weights of a split are together at most the sum. -/
theorem getD_add_getD_le {ratios : List ℕ} {a b : ℕ} (hab : a ≠ b) (ha : a < ratios.length) :
    ratios.getD a 0 + ratios.getD b 0 ≤ ratios.sum := by
  have hset := sum_set 0 ha
  have hle := getD_le_sum (ratios.set a 0) b
  rw [getD_set_ne 0 hab] at hle
  omega

section Trade

variable {old new : List ℕ} {a b : ℕ} (h : Traded old a b new)

include h

theorem Traded.length_eq : new.length = old.length := by
  obtain ⟨x, y, -, -, -, rfl⟩ := h
  rw [List.length_set, List.length_set]

theorem Traded.sum_eq (hab : a ≠ b) (ha : a < old.length) (hb : b < old.length) :
    new.sum = old.sum := by
  obtain ⟨x, y, -, -, hsum, rfl⟩ := h
  have hfirst := sum_set x ha
  have hsecond := sum_set y (show b < (old.set a x).length by rwa [List.length_set])
  rw [getD_set_ne x hab] at hsecond
  omega

end Trade

/-! ## What a keyboard resize does -/

theorem neighbor_lt {child n : ℕ} (hn : 2 ≤ n) (hchild : child < n) :
    neighbor child n < n ∧ neighbor child n ≠ child := by
  rw [neighbor]
  split_ifs <;> omega

/-- The split a resize addresses, and the weights it asks for there. -/
theorem resizeSplit_cases {t : LayoutNode} (ht : t.WellFormed) {focused step : ℕ} {dir : FocusDir}
    {path new : List ℕ} (h : resizeSplit t focused dir step = some (path, new)) :
    ∃ child ratios cs, nearestSplitOnAxis t focused dir.axis = some (path, child) ∧
      nodeAt path t = some (.split dir.axis ratios cs) ∧ cs.length = ratios.length ∧
      2 ≤ ratios.length ∧ ratios.sum = 1000 ∧ child < ratios.length ∧ new ≠ ratios ∧
      new = shiftPair ratios child (neighbor child ratios.length)
        (if dir.grow then step else -step) := by
  rw [resizeSplit] at h
  rcases Option.eq_none_or_eq_some (nearestSplitOnAxis t focused dir.axis) with
    hnear | ⟨⟨path', child⟩, hnear⟩
  · rw [hnear] at h
    cases h
  obtain ⟨rest, -, ⟨ratios, cs, hnode, hchild⟩, -⟩ := nearestSplitOnAxis_spec ht hnear
  rw [hnear] at h
  dsimp only at h
  rw [hnode] at h
  dsimp only at h
  cases weighted_nodeAt path' ht hnode with
  | split _ two arity weights _ =>
    rw [if_neg (by omega), ← arity] at h
    by_cases hsame : shiftPair ratios child (neighbor child ratios.length)
        (if dir.grow then (step : ℤ) else -step) = ratios
    · rw [if_pos hsame] at h
      cases h
    · rw [if_neg hsame] at h
      obtain ⟨rfl, rfl⟩ := Prod.mk.inj (Option.some.inj h)
      exact ⟨child, ratios, cs, hnear, hnode, arity.symm, by omega, weights, by omega, hsame, rfl⟩

/-- Where the divider after child `before` sits, in permille of the split. -/
def dividerAt (ratios : List ℕ) (before : ℕ) : ℕ := (ratios.take (before + 1)).sum

private theorem dividerAt_eq {ratios : List ℕ} {i : ℕ} (hi : i < ratios.length) :
    dividerAt ratios i = (ratios.take i).sum + ratios.getD i 0 := by
  rw [dividerAt, List.take_add_one, List.sum_append, List.getD_eq_getElem?_getD,
    List.getElem?_eq_getElem hi]
  simp

/-- A trade moves the divider between the two by what the first of them gains. -/
private theorem dividerAt_traded {ratios : List ℕ} {a b : ℕ} (x y : ℕ) (hab : a ≠ b)
    (ha : a < ratios.length) (hb : b < ratios.length) (hmin : min a b + 1 = max a b) :
    dividerAt ((ratios.set a x).set b y) (min a b) + ratios.getD (min a b) 0
      = dividerAt ratios (min a b) + if a < b then x else y := by
  have hlt : min a b < ratios.length := by omega
  have htake : ((ratios.set a x).set b y).take (min a b) = ratios.take (min a b) := by
    rw [List.take_set_of_le (by omega), List.take_set_of_le (by omega)]
  rw [dividerAt_eq (by rwa [List.length_set, List.length_set]), dividerAt_eq hlt, htake]
  split_ifs with hlt'
  · rw [min_eq_left hlt'.le, getD_set_ne y (Ne.symm hab), getD_set_self x ha]
    omega
  · rw [min_eq_right (by omega), getD_set_self y (by rwa [List.length_set])]
    omega

/-- Setting two weights to what they are changes nothing. -/
private theorem set_set_getD {ratios : List ℕ} {a b : ℕ} (ha : a < ratios.length)
    (hb : b < ratios.length) :
    (ratios.set a (ratios.getD a 0)).set b (ratios.getD b 0) = ratios := by
  rw [List.getD_eq_getElem?_getD, List.getElem?_eq_getElem ha, List.getD_eq_getElem?_getD,
    List.getElem?_eq_getElem hb, Option.getD_some, Option.getD_some, List.set_getElem_self,
    List.set_getElem_self]

/-- **Keyboard resize.** The path is that of the nearest ancestor split on the axis of the arrow.
The focused child trades with its next sibling, or the previous one if it is last; their sum and all
other weights are unchanged, and both keep the minimum. If both had the minimum before, right and
down make the focused child larger and left and up make it smaller, so that the divider moves with
the arrow, unless the focused child is last, and then against it. -/
theorem resizeSplit_spec {t : LayoutNode} (ht : t.Reachable) {focused step : ℕ} {dir : FocusDir}
    {path new : List ℕ} (h : resizeSplit t focused dir step = some (path, new)) :
    ∃ child ratios cs, NearestOnAxis t focused dir.axis path child ∧
      nodeAt path t = some (.split dir.axis ratios cs) ∧
      new.getD child 0 + new.getD (neighbor child cs.length) 0
        = ratios.getD child 0 + ratios.getD (neighbor child cs.length) 0 ∧
      (∀ i, i ≠ child → i ≠ neighbor child cs.length → new[i]? = ratios[i]?) ∧
      minRatio ≤ new.getD child 0 ∧ minRatio ≤ new.getD (neighbor child cs.length) 0 ∧
      (minRatio ≤ ratios.getD child 0 → minRatio ≤ ratios.getD (neighbor child cs.length) 0 →
        (dir.grow = true → ratios.getD child 0 < new.getD child 0) ∧
        (dir.grow = false → new.getD child 0 < ratios.getD child 0) ∧
        if child + 1 < cs.length then
          (dir.grow = true → dividerAt ratios child < dividerAt new child) ∧
            (dir.grow = false → dividerAt new child < dividerAt ratios child)
        else
          (dir.grow = true → dividerAt new (child - 1) < dividerAt ratios (child - 1)) ∧
            (dir.grow = false → dividerAt ratios (child - 1) < dividerAt new (child - 1))) := by
  have hwf := ht.invariant.1
  obtain ⟨child, ratios, cs, hnear, hnode, hlen, htwo, hsum, hchild, hne, rfl⟩ :=
    resizeSplit_cases hwf h
  refine ⟨child, ratios, cs, nearestSplitOnAxis_spec hwf hnear, hnode, ?_⟩
  rw [hlen]
  obtain ⟨hlt, hother⟩ := neighbor_lt htwo hchild
  have hfit := getD_add_getD_le (Ne.symm hother) hchild
  obtain ⟨x, y, hx, hy, hxy, hnew, hclamp⟩ := shiftPair_spec (by omega) hne
  rw [hnew]
  have hgetx : ((ratios.set child x).set (neighbor child ratios.length) y).getD child 0 = x := by
    rw [getD_set_ne y hother, getD_set_self x hchild]
  have hgety : ((ratios.set child x).set (neighbor child ratios.length) y).getD
      (neighbor child ratios.length) 0 = y := getD_set_self y (by rwa [List.length_set])
  rw [hgetx, hgety]
  refine ⟨hxy, ?_, hx, hy, ?_⟩
  · intro i hi hi'
    rw [List.getElem?_set_ne (Ne.symm hi'), List.getElem?_set_ne (Ne.symm hi)]
  · intro hold hold'
    -- the clamp is between the two minima, which the old weight meets as well
    have hmoved : x ≠ ratios.getD child 0 := by
      rintro rfl
      obtain rfl : y = ratios.getD (neighbor child ratios.length) 0 := by omega
      exact hne (by rw [hnew, set_set_getD hchild hlt])
    have hmin : minResizeRatio = 20 := rfl
    have hmin' : minRatio = 20 := rfl
    have hgrow : dir.grow = true → ratios.getD child 0 < x := by
      intro hdir
      rw [hdir, if_pos rfl, clamp] at hclamp
      split_ifs at hclamp <;> omega
    have hshrink : dir.grow = false → x < ratios.getD child 0 := by
      intro hdir
      rw [hdir, if_neg Bool.false_ne_true, clamp] at hclamp
      split_ifs at hclamp <;> omega
    have hdivider := dividerAt_traded x y hother.symm hchild hlt
    refine ⟨hgrow, hshrink, ?_⟩
    rw [neighbor] at hdivider hxy ⊢
    by_cases hlast : child + 1 < ratios.length
    · rw [if_pos hlast] at hdivider hxy ⊢
      have hbefore : min child (child + 1) = child := by omega
      rw [hbefore, if_pos (Nat.lt_succ_self child)] at hdivider
      have hmoved := hdivider (by omega)
      rw [if_pos hlast]
      exact ⟨fun hdir ↦ by have := hgrow hdir; omega, fun hdir ↦ by have := hshrink hdir; omega⟩
    · rw [if_neg hlast] at hdivider hxy ⊢
      have hbefore : min child (child - 1) = child - 1 := by omega
      rw [hbefore, if_neg (by omega)] at hdivider
      have hmoved := hdivider (by omega)
      rw [if_neg hlast]
      exact ⟨fun hdir ↦ by have := hgrow hdir; omega, fun hdir ↦ by have := hshrink hdir; omega⟩

/-- A pane split in two, side by side. -/
def sideBySide : LayoutNode := .split .horizontal [500, 500] [.leaf 0, .leaf 1]

theorem reachable_sideBySide : sideBySide.Reachable := by
  refine ⟨0, [.split 0 1 .horizontal], ⟨⟨?_, trivial⟩, trivial⟩, rfl⟩
  intro p hp
  obtain rfl := List.mem_singleton.mp hp
  simp [single]

/-- The hypotheses can be met: the right one of two panes grows. -/
theorem resizeSplit_spec_last : ∃ child, NearestOnAxis sideBySide 1 .horizontal [] child := by
  obtain ⟨child, ratios, cs, hnear, -⟩ :=
    resizeSplit_spec reachable_sideBySide (show resizeSplit sideBySide 1 .right 50
      = some ([], [450, 550]) by decide)
  exact ⟨child, hnear⟩

/-- Growing the right one of two panes to the right moves the divider to the left. -/
theorem divider_against_arrow :
    sideBySide.Reachable ∧ resizeSplit sideBySide 1 .right 50 = some ([], [450, 550]) ∧
      dividerAt [450, 550] 0 < dividerAt [500, 500] 0 :=
  ⟨reachable_sideBySide, by decide, by decide⟩

end LayoutNode

end Kmux
