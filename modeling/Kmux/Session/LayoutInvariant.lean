import Kmux.Session.Layout
import Mathlib.Data.List.Perm.Lattice
import Mathlib.Data.List.Nodup
import Mathlib.Logic.Equiv.Basic

/-!
# What the layout mutations keep

Every split of a reachable layout has at least two children, one weight per child, and weights that
sum to 1000; no pane sits at two leaves; a mutation adds or removes the pane it says; and a refused
mutation changes nothing.

The weights are where it can fail. `normalize` adds them up in `u32`, and a client may ask for
65535 per child, so a split of more than 65537 children can be given weights whose sum wraps. Every
other caller rescales weights that already add up to at most 1000.
-/

namespace Kmux

/-! ## Weights -/

@[simp] theorem length_handOut : ∀ (leftover : ℕ) (order ratios : List ℕ),
    (handOut leftover order ratios).length = ratios.length := by
  intro leftover order
  induction order generalizing leftover with
  | nil => intro ratios; cases leftover <;> rfl
  | cons i order ih =>
    intro ratios
    cases leftover with
    | zero => rfl
    | succ leftover => rw [handOut, ih, List.length_modify]

theorem le_sum_of_mem {ratios : List ℕ} {r : ℕ} (h : r ∈ ratios) : r ≤ ratios.sum :=
  List.single_le_sum (fun _ _ ↦ Nat.zero_le _) r h

/-- Units handed out along positions of the list all arrive, as long as nothing wraps. -/
theorem sum_handOut : ∀ (order : List ℕ) (leftover : ℕ) (ratios : List ℕ),
    (∀ i ∈ order, i < ratios.length) → leftover ≤ order.length → ratios.sum + leftover < 2 ^ 16 →
      (handOut leftover order ratios).sum = ratios.sum + leftover := by
  intro order
  induction order with
  | nil =>
    intro leftover ratios _ hle _
    obtain rfl : leftover = 0 := Nat.le_zero.mp hle
    rfl
  | cons i order ih =>
    intro leftover ratios hidx hle hfit
    cases leftover with
    | zero => rfl
    | succ leftover =>
      have hstep : (ratios.modify i fun r ↦ u16 (r + 1)).sum = ratios.sum + 1 := by
        apply Apportion.sum_modify (hidx i List.mem_cons_self)
        intro x hx
        have := le_sum_of_mem hx
        exact Nat.mod_eq_of_lt (by omega)
      rw [handOut, ih leftover _ _ (Nat.le_of_succ_le_succ hle) (by omega), hstep]
      · omega
      · intro j hj
        rw [List.length_modify]
        exact hidx j (List.mem_cons_of_mem i hj)

@[simp] theorem length_normalize (ratios : List ℕ) :
    (normalize ratios).length = ratios.length := by
  rw [normalize]
  split
  · rename_i h
    rw [h]
  · dsimp only
    split
    · rw [length_handOut, List.length_replicate]
    · rw [length_handOut, List.length_map, List.length_map]

private theorem fst_mapIdx_lt {ratios : List ℕ} {f : ℕ → ℕ → ℕ} {i : ℕ}
    (h : i ∈ ((ratios.mapIdx fun i r ↦ (i, f i r)).mergeSort remainderLe).map Prod.fst) :
    i < ratios.length := by
  rw [List.mem_map] at h
  obtain ⟨⟨j, q⟩, hmem, rfl⟩ := h
  rw [(List.mergeSort_perm _ _).mem_iff, List.mem_mapIdx] at hmem
  obtain ⟨k, hk, heq⟩ := hmem
  rw [Prod.mk.injEq] at heq
  exact heq.1 ▸ hk

/-- Floors of the exact shares of `total`, and the units left over handed out by largest remainder:
nothing is lost. -/
theorem sum_largest_remainder {total : ℕ} {ratios : List ℕ} (htotal : total < 2 ^ 16)
    (hpos : 0 < ratios.sum) :
    (handOut (total - u32 (ratios.map fun r ↦ r * total / ratios.sum).sum)
      (((ratios.mapIdx fun i r ↦ (i, r * total % ratios.sum)).mergeSort remainderLe).map Prod.fst)
      ((ratios.map fun r ↦ r * total / ratios.sum).map u16)).sum = total := by
  have hle := Apportion.sum_floors_le total hpos
  have hleft := Apportion.leftover_le total hpos
  change (handOut (total - (Apportion.floors total ratios.sum ratios).sum % 2 ^ 32) _
    ((Apportion.floors total ratios.sum ratios).map u16)).sum = total
  have hlen := Apportion.length_floors total ratios.sum ratios
  generalize Apportion.floors total ratios.sum ratios = qs at hle hleft hlen ⊢
  have hcast : qs.map u16 = qs := by
    conv_rhs => rw [← List.map_id qs]
    apply List.map_congr_left
    intro q hq
    have := le_sum_of_mem hq
    exact Nat.mod_eq_of_lt (by omega)
  rw [hcast, Nat.mod_eq_of_lt (by omega), sum_handOut]
  · omega
  · intro i hi
    rw [hlen]
    exact fst_mapIdx_lt hi
  · rw [List.length_map, List.length_mergeSort, List.length_mapIdx]
    omega
  · omega

/-- **Normalisation.** Weights whose sum fits `u32` are rescaled to sum to exactly 1000. -/
theorem sum_normalize {ratios : List ℕ} (hne : ratios ≠ []) (hfit : ratios.sum < 2 ^ 32) :
    (normalize ratios).sum = 1000 := by
  have hlen : 0 < ratios.length := List.length_pos_iff.mpr hne
  rw [normalize, if_neg hne]
  dsimp only
  have hsum : u32 ratios.sum = ratios.sum := Nat.mod_eq_of_lt hfit
  rw [hsum]
  by_cases hzero : ratios.sum = 0
  · have hbase : u16 (1000 / ratios.length) = 1000 / ratios.length :=
      Nat.mod_eq_of_lt (lt_of_le_of_lt (Nat.div_le_self _ _) (by decide))
    have hdiv := Nat.div_add_mod 1000 ratios.length
    have hmod := Nat.mod_lt 1000 hlen
    have hsum : (List.replicate ratios.length (1000 / ratios.length)).sum
        = 1000 / ratios.length * ratios.length := by
      rw [List.sum_replicate_nat, Nat.mul_comm]
    rw [Nat.mul_comm] at hdiv
    rw [if_pos hzero, hbase, sum_handOut, hsum]
    · omega
    · intro i hi
      rw [List.length_replicate]
      exact List.mem_range.mp hi
    · rw [List.length_range]
      omega
    · rw [hsum]
      omega
  · rw [if_neg hzero]
    exact sum_largest_remainder (by decide) (Nat.pos_of_ne_zero hzero)

namespace LayoutNode

/-! ## Well-formed trees -/

/-- Every split has at least two children, a weight for each, and weights that meet `ok`. -/
inductive Weighted (ok : List ℕ → Prop) : LayoutNode → Prop
  | leaf (paneIndex : ℕ) : Weighted ok (.leaf paneIndex)
  | split (dir : SplitDir) {ratios : List ℕ} {children : List LayoutNode}
      (two : 2 ≤ children.length) (arity : ratios.length = children.length)
      (weights : ok ratios) (below : ∀ c ∈ children, Weighted ok c) :
      Weighted ok (.split dir ratios children)

/-- Every split has at least two children, a weight for each, and weights that sum to 1000. -/
def WellFormed (t : LayoutNode) : Prop := t.Weighted fun ratios ↦ ratios.sum = 1000

/-- The weights a split gets when a leaf takes a sibling: the leaf's own share is halved. -/
def halved (ratios : List ℕ) (pos : ℕ) : List ℕ :=
  (ratios.set pos (ratios.getD pos 0 - ratios.getD pos 0 / 2)).insertIdx (pos + 1)
    (ratios.getD pos 0 / 2)

/-- A property of weights that splitting, removing and presets keep up. -/
structure Kept (ok : List ℕ → Prop) : Prop where
  pair : ok [500, 500]
  sibling : ∀ ratios pos, ok ratios → pos < ratios.length → ok (normalize (halved ratios pos))
  remove : ∀ ratios pos, ok ratios → 2 < ratios.length → ok (normalize (ratios.eraseIdx pos))
  even : ∀ n, 0 < n → ok (normalize (List.replicate n (u16 (1000 / n))))

theorem kept_true : Kept fun _ ↦ True :=
  ⟨trivial, fun _ _ _ _ ↦ trivial, fun _ _ _ _ ↦ trivial, fun _ _ ↦ trivial⟩

/-- Halving a weight and giving the other half to the new neighbour keeps the sum. -/
theorem sum_halved {ratios : List ℕ} {pos : ℕ} (h : pos < ratios.length) :
    (halved ratios pos).sum = ratios.sum := by
  obtain ⟨before, x, after, rfl, rfl⟩ :
      ∃ before x after, ratios = before ++ x :: after ∧ before.length = pos := by
    refine ⟨ratios.take pos, ratios[pos], ratios.drop (pos + 1), ?_, List.length_take_of_le h.le⟩
    rw [List.cons_getElem_drop_succ, List.take_append_drop]
  have hget : (before ++ x :: after).getD before.length 0 = x := by simp
  have hset : (before ++ x :: after).set before.length (x - x / 2)
      = before ++ (x - x / 2) :: after := by simp
  rw [halved, hget, hset, (List.perm_insertIdx _ _ _).sum_eq]
  · simp only [List.sum_cons, List.sum_append]
    omega
  · simp

theorem length_halved {ratios : List ℕ} {pos : ℕ} (h : pos < ratios.length) :
    (halved ratios pos).length = ratios.length + 1 := by
  rw [halved, List.length_insertIdx_of_le_length (by rw [List.length_set]; omega), List.length_set]

theorem sum_eraseIdx_le (ratios : List ℕ) (pos : ℕ) :
    (ratios.eraseIdx pos).sum ≤ ratios.sum :=
  (List.eraseIdx_sublist ratios pos).sum_le_sum fun _ _ ↦ Nat.zero_le _

/-- Weights that sum to 1000 are kept up: what is rescaled never sums to more than that. -/
theorem kept_sum : Kept fun ratios ↦ ratios.sum = 1000 where
  pair := rfl
  sibling ratios pos hsum hpos := by
    apply sum_normalize
    · exact List.ne_nil_of_length_pos (by rw [length_halved hpos]; omega)
    · rw [sum_halved hpos, hsum]
      decide
  remove ratios pos hsum hlen := by
    apply sum_normalize
    · apply List.ne_nil_of_length_pos
      rw [List.length_eraseIdx]
      split <;> omega
    · have := sum_eraseIdx_le ratios pos
      omega
  even n hn := by
    apply sum_normalize
    · exact List.ne_nil_of_length_pos (by rwa [List.length_replicate])
    · have hbase : u16 (1000 / n) ≤ 1000 / n := Nat.mod_le _ _
      have hmul : n * u16 (1000 / n) ≤ 1000 :=
        (Nat.mul_le_mul_left _ hbase).trans (Nat.mul_div_le 1000 n)
      rw [List.sum_replicate_nat]
      omega

@[simp] theorem leaves_leaf (p : ℕ) : (leaf p).leaves = [p] := by rw [leaves]

theorem leavesAll_eq_flatMap (cs : List LayoutNode) : leavesAll cs = cs.flatMap leaves := by
  induction cs with
  | nil => rw [leavesAll, List.flatMap_nil]
  | cons c cs ih => rw [leavesAll, ih, List.flatMap_cons]

@[simp] theorem leaves_split (dir : SplitDir) (ratios : List ℕ) (cs : List LayoutNode) :
    (split dir ratios cs).leaves = cs.flatMap leaves := by
  rw [leaves, leavesAll_eq_flatMap]

theorem isLeaf_iff {p : ℕ} {t : LayoutNode} : t.isLeaf p = true ↔ t = .leaf p := by
  cases t with
  | leaf q => rw [isLeaf, decide_eq_true_iff, leaf.injEq]
  | split dir ratios cs => simp [isLeaf]

/-- Where a leaf was found: the children before it, and those after. -/
theorem exists_of_findIdx_isLeaf {p pos : ℕ} {cs : List LayoutNode}
    (h : cs.findIdx? (isLeaf p) = some pos) :
    ∃ before after, cs = before ++ LayoutNode.leaf p :: after ∧ before.length = pos := by
  obtain ⟨hlt, hleaf, -⟩ := List.findIdx?_eq_some_iff_getElem.mp h
  refine ⟨cs.take pos, cs.drop (pos + 1), ?_, List.length_take_of_le hlt.le⟩
  rw [← isLeaf_iff.mp hleaf, List.cons_getElem_drop_succ, List.take_append_drop]

/-! ## What a mutation may do -/

/-- The outcome of a mutation that adds the panes `added` and removes the panes `removed`: it leaves
a tree with weights that meet `ok`, those leaves changed if it took place, and no change at all if
not. -/
structure Outcome (ok : List ℕ → Prop) (added removed : List ℕ) (t : LayoutNode)
    (r : LayoutNode × Bool) : Prop where
  weighted : r.1.Weighted ok
  changed : r.2 = true → (removed ++ r.1.leaves).Perm (added ++ t.leaves)
  refused : r.2 = false → r.1 = t

variable {ok : List ℕ → Prop} {added removed : List ℕ}

theorem Outcome.of_refused {t : LayoutNode} (h : t.Weighted ok) :
    Outcome ok added removed t (t, false) :=
  ⟨h, fun h ↦ absurd h Bool.false_ne_true, fun _ ↦ rfl⟩

theorem Outcome.of_changed {t t' : LayoutNode} (h : t'.Weighted ok)
    (hperm : (removed ++ t'.leaves).Perm (added ++ t.leaves)) :
    Outcome ok added removed t (t', true) :=
  ⟨h, fun _ ↦ hperm, fun h ↦ absurd h.symm Bool.false_ne_true⟩

/-- A leaf change in one part of a tree is the same change of the whole. -/
private theorem perm_in_context {a b : List ℕ} (xs ys : List ℕ)
    (h : (removed ++ b).Perm (added ++ a)) :
    (removed ++ (xs ++ (b ++ ys))).Perm (added ++ (xs ++ (a ++ ys))) := by
  rw [List.perm_iff_count] at h ⊢
  intro x
  have := h x
  simp only [List.count_append] at this ⊢
  omega

/-- A mutation of one child is the same mutation of the split. -/
theorem Outcome.child {dir : SplitDir} {ratios : List ℕ} {before after : List LayoutNode}
    {c : LayoutNode} {r : LayoutNode × Bool}
    (ht : (split dir ratios (before ++ c :: after)).Weighted ok)
    (h : Outcome ok added removed c r) :
    Outcome ok added removed (.split dir ratios (before ++ c :: after))
      (.split dir ratios (before ++ r.1 :: after), r.2) := by
  cases ht with
  | split _ two arity weights below =>
    refine ⟨.split dir ?_ ?_ weights ?_, ?_, ?_⟩
    · simpa using two
    · simpa using arity
    · intro x hx
      rw [List.mem_append, List.mem_cons] at hx
      rcases hx with hx | rfl | hx
      · exact below x (List.mem_append_left _ hx)
      · exact h.weighted
      · exact below x (List.mem_append_right _ (List.mem_cons_of_mem c hx))
    · intro hr
      have := perm_in_context (before.flatMap leaves) (after.flatMap leaves) (h.changed hr)
      simpa using this
    · intro hr
      rw [h.refused hr]

/-! ## The loops over the children -/

/-- Update the first element whose update takes place. -/
def updateFirst {α : Type*} (f : α → α × Bool) : List α → List α × Bool
  | [] => ([], false)
  | c :: cs =>
    if (f c).2 then ((f c).1 :: cs, true)
    else ((f c).1 :: (updateFirst f cs).1, (updateFirst f cs).2)

theorem updateFirst_cases {α : Type*} {f : α → α × Bool} : ∀ {cs : List α},
    (∀ c ∈ cs, (f c).2 = false → (f c).1 = c) →
      updateFirst f cs = (cs, false) ∨ ∃ before c after, cs = before ++ c :: after ∧
        (∀ b ∈ before, (f b).2 = false) ∧ (f c).2 = true ∧
        updateFirst f cs = (before ++ (f c).1 :: after, true) := by
  intro cs
  induction cs with
  | nil => intro _; exact .inl rfl
  | cons c cs ih =>
    intro hf
    by_cases hc : (f c).2 = true
    · refine .inr ⟨[], c, cs, rfl, fun b hb ↦ absurd hb List.not_mem_nil, hc, ?_⟩
      rw [updateFirst, if_pos hc, List.nil_append]
    · have hno := Bool.eq_false_iff.mpr hc
      have hsame := hf c List.mem_cons_self hno
      rw [updateFirst, if_neg hc, hsame]
      rcases ih fun x hx ↦ hf x (List.mem_cons_of_mem c hx) with
        h | ⟨before, x, after, rfl, hbefore, hx, h⟩
      · exact .inl (by rw [h])
      · refine .inr ⟨c :: before, x, after, rfl, ?_, hx, by rw [h, List.cons_append]⟩
        exact List.forall_mem_cons.mpr ⟨hno, hbefore⟩

/-- The loop takes place if and only if the update of some element does. -/
theorem updateFirst_snd {α β : Type*} {f : α → α × Bool} {g : α → Option β} {cs : List α}
    (hfg : ∀ c ∈ cs, (f c).2 = (g c).isSome) :
    (updateFirst f cs).2 = (cs.findSome? g).isSome := by
  induction cs with
  | nil => rfl
  | cons c cs ih =>
    have hrest := ih fun x hx ↦ hfg x (List.mem_cons_of_mem c hx)
    have hc := hfg c List.mem_cons_self
    rw [updateFirst, List.findSome?_cons]
    rcases Option.eq_none_or_eq_some (g c) with h | ⟨found, h⟩
    · rw [h, Option.isSome_none] at hc
      rw [hc, h, if_neg Bool.false_ne_true, hrest]
    · rw [h, Option.isSome_some] at hc
      rw [hc, h, if_pos rfl, Option.isSome_some]

theorem splitInChildren_eq (fromPane newPane : ℕ) (dir : SplitDir) (cs : List LayoutNode) :
    splitInChildren fromPane newPane dir cs
      = updateFirst (splitInSplit fromPane newPane dir) cs := by
  induction cs with
  | nil => rw [splitInChildren, updateFirst]
  | cons c cs ih => rw [splitInChildren, updateFirst, ih]

theorem removeInChildren_eq (pane : ℕ) (cs : List LayoutNode) :
    removeInChildren pane cs = updateFirst (removeInSplit pane) cs := by
  induction cs with
  | nil => rw [removeInChildren, updateFirst]
  | cons c cs ih => rw [removeInChildren, updateFirst, ih]

theorem parentInChildren_eq (pane : ℕ) (cs : List LayoutNode) :
    parentInChildren pane cs = cs.findSome? (parent pane) := by
  induction cs with
  | nil => rw [parentInChildren, List.findSome?_nil]
  | cons c cs ih =>
    rw [parentInChildren, List.findSome?_cons, ih]
    cases parent pane c <;> rfl

/-- What holds of the update of the child that a search finds first holds of the loop, when the
updates that take place are those of the children where the search succeeds. -/
theorem Outcome.updateFirst {β : Type*} {dir : SplitDir} {ratios : List ℕ} {cs : List LayoutNode}
    {f : LayoutNode → LayoutNode × Bool} {g : LayoutNode → Option β}
    (ht : (split dir ratios cs).Weighted ok) (hfg : ∀ c ∈ cs, (f c).2 = (g c).isSome)
    (h : ∀ c ∈ cs, g c = none ∨ g c = cs.findSome? g → Outcome ok added removed c (f c)) :
    Outcome ok added removed (.split dir ratios cs)
      (.split dir ratios (updateFirst f cs).1, (updateFirst f cs).2) := by
  have hrefused : ∀ c ∈ cs, (f c).2 = false → (f c).1 = c := by
    intro c hc hno
    have hnone : g c = none := by
      rw [hfg c hc] at hno
      simpa using hno
    exact (h c hc (.inl hnone)).refused hno
  rcases updateFirst_cases hrefused with heq | ⟨before, c, after, rfl, hbefore, hc, heq⟩
  · rw [heq]
    exact .of_refused ht
  · have hmem : c ∈ before ++ c :: after := List.mem_append_right _ List.mem_cons_self
    have hfirst : (before ++ c :: after).findSome? g = g c := by
      have hnone : before.findSome? g = none := by
        rw [List.findSome?_eq_none_iff]
        intro b hb
        have hno := hfg b (List.mem_append_left _ hb)
        rw [hbefore b hb] at hno
        simpa using hno.symm
      have hsome : (g c).isSome := by rw [← hfg c hmem, hc]
      obtain ⟨found, hfound⟩ := Option.isSome_iff_exists.mp hsome
      rw [List.findSome?_append, hnone, Option.none_or, List.findSome?_cons, hfound]
    rw [heq, ← hc]
    exact (h c hmem (.inr hfirst.symm)).child ht

/-! ## Splitting -/

private theorem mem_insertIdx_leaf {cs : List LayoutNode} {i q : ℕ} (hi : i ≤ cs.length)
    (hcs : ∀ c ∈ cs, c.Weighted ok) : ∀ c ∈ cs.insertIdx i (.leaf q), c.Weighted ok := by
  intro c hc
  rw [(List.perm_insertIdx _ _ hi).mem_iff, List.mem_cons] at hc
  rcases hc with rfl | hc
  · exact .leaf q
  · exact hcs c hc

/-- A leaf of a split in the same direction takes a sibling. -/
private theorem outcome_sibling {dir : SplitDir} {ratios : List ℕ} {cs : List LayoutNode}
    {pos q : ℕ} (hpos : pos < cs.length) (ht : (split dir ratios cs).Weighted ok)
    (hok : ok ratios → pos < ratios.length → ok (normalize (halved ratios pos))) :
    Outcome ok [q] [] (.split dir ratios cs)
      (.split dir (normalize (halved ratios pos)) (cs.insertIdx (pos + 1) (.leaf q)), true) := by
  cases ht with
  | split _ two arity weights below =>
    have hpos' : pos < ratios.length := arity.symm ▸ hpos
    have hcs : (cs.insertIdx (pos + 1) (.leaf q)).length = cs.length + 1 :=
      List.length_insertIdx_of_le_length hpos _
    refine .of_changed (.split dir ?_ ?_ (hok weights hpos') ?_) ?_
    · omega
    · rw [length_normalize, length_halved hpos', hcs, arity]
    · exact mem_insertIdx_leaf hpos below
    · have hperm := (List.perm_insertIdx (leaf q) cs hpos).flatMap_right leaves
      simpa using hperm

private theorem weighted_pair (hok : ok [500, 500]) (dir : SplitDir) {c c' : LayoutNode}
    (hc : c.Weighted ok) (hc' : c'.Weighted ok) : (split dir [500, 500] [c, c']).Weighted ok := by
  refine .split dir le_rfl rfl hok ?_
  intro x hx
  rw [List.mem_pair] at hx
  rcases hx with rfl | rfl
  · exact hc
  · exact hc'

/-- A leaf becomes a split of its own. -/
private theorem outcome_nested (hok : ok [500, 500]) (dir : SplitDir) (p q : ℕ) :
    Outcome ok [q] [] (.leaf p) (.split dir [500, 500] [.leaf p, .leaf q], true) :=
  .of_changed (weighted_pair hok dir (.leaf p) (.leaf q)) (by simpa using List.Perm.swap q p [])

/-- A split takes place below a node if and only if some split there has the leaf. -/
theorem splitInSplit_snd (p q : ℕ) (dir : SplitDir) {t : LayoutNode} (ht : t.Weighted ok) :
    (splitInSplit p q dir t).2 = (t.parent p).isSome := by
  induction ht with
  | leaf r => rw [splitInSplit, parent, Option.isSome_none]
  | split myDir two arity weights below ih =>
    rename_i ratios cs
    rw [splitInSplit, parent]
    rcases Option.eq_none_or_eq_some (cs.findIdx? (isLeaf p)) with hfind | ⟨pos, hfind⟩
    · rw [hfind]
      dsimp only
      rw [splitInChildren_eq, parentInChildren_eq, updateFirst_snd ih]
    · rw [hfind]
      dsimp only
      split <;> rfl

theorem outcome_splitInSplit (hpair : ok [500, 500]) (p q : ℕ) (dir : SplitDir) {t : LayoutNode}
    (ht : t.Weighted ok) (hsibling : ∀ ratios pos, t.parent p = some (dir, ratios, pos) →
      ok ratios → pos < ratios.length → ok (normalize (halved ratios pos))) :
    Outcome ok [q] [] t (splitInSplit p q dir t) := by
  induction ht with
  | leaf r =>
    rw [splitInSplit]
    exact .of_refused (.leaf r)
  | split myDir two arity weights below ih =>
    rename_i ratios cs
    have ht : (split myDir ratios cs).Weighted ok := .split myDir two arity weights below
    rw [parent] at hsibling
    rw [splitInSplit]
    cases hfind : cs.findIdx? (isLeaf p) with
    | some pos =>
      obtain ⟨before, after, rfl, rfl⟩ := exists_of_findIdx_isLeaf hfind
      rw [hfind] at hsibling
      dsimp only at hsibling ⊢
      by_cases hdir : myDir = dir
      · rw [if_pos hdir]
        subst hdir
        exact outcome_sibling (by simp) ht (hsibling ratios before.length rfl)
      · rw [if_neg hdir, List.set_append_right _ _ le_rfl, Nat.sub_self, List.set_cons_zero]
        exact (outcome_nested hpair dir p q).child ht
    | none =>
      rw [hfind] at hsibling
      dsimp only at hsibling ⊢
      rw [parentInChildren_eq] at hsibling
      rw [splitInChildren_eq]
      refine .updateFirst ht (fun c hc ↦ splitInSplit_snd p q dir (below c hc)) fun c hc hg ↦ ?_
      refine ih c hc fun ratios pos hparent ↦ ?_
      rcases hg with hnone | hfirst
      · rw [hnone] at hparent
        cases hparent
      · exact hsibling ratios pos (hfirst ▸ hparent)

/-- A split keeps up the weights if halving the weight of the leaf does. -/
theorem outcome_splitPane_of (hpair : ok [500, 500]) (p q : ℕ) (dir : SplitDir) {t : LayoutNode}
    (ht : t.Weighted ok) (hsibling : ∀ ratios pos, t.parent p = some (dir, ratios, pos) →
      ok ratios → pos < ratios.length → ok (normalize (halved ratios pos))) :
    Outcome ok [q] [] t (t.splitPane p q dir) := by
  cases t with
  | leaf r =>
    rw [splitPane]
    by_cases hr : r = p
    · rw [if_pos hr]
      exact outcome_nested hpair dir r q
    · rw [if_neg hr]
      exact .of_refused ht
  | split myDir ratios cs => exact outcome_splitInSplit hpair p q dir ht hsibling

/-- **Splitting** a leaf. -/
theorem outcome_splitPane (hok : Kept ok) (p q : ℕ) (dir : SplitDir) {t : LayoutNode}
    (ht : t.Weighted ok) : Outcome ok [q] [] t (t.splitPane p q dir) :=
  outcome_splitPane_of hok.pair p q dir ht fun ratios pos _ ↦ hok.sibling ratios pos

/-! ## Removing -/

/-- A removal takes place below a node if and only if some split there has the leaf. -/
theorem removeInSplit_snd (p : ℕ) {t : LayoutNode} (ht : t.Weighted ok) :
    (removeInSplit p t).2 = (t.parent p).isSome := by
  induction ht with
  | leaf r => rw [removeInSplit, parent, Option.isSome_none]
  | split myDir two arity weights below ih =>
    rename_i ratios cs
    rw [removeInSplit, parent]
    rcases Option.eq_none_or_eq_some (cs.findIdx? (isLeaf p)) with hfind | ⟨pos, hfind⟩
    · rw [hfind]
      dsimp only
      rw [removeInChildren_eq, parentInChildren_eq, updateFirst_snd ih]
    · rw [hfind]
      dsimp only
      split <;> rfl

theorem outcome_removeInSplit (p : ℕ) {t : LayoutNode} (ht : t.Weighted ok)
    (hremove : ∀ dir ratios pos, t.parent p = some (dir, ratios, pos) → ok ratios →
      pos < ratios.length → 2 < ratios.length → ok (normalize (ratios.eraseIdx pos))) :
    Outcome ok [] [p] t (removeInSplit p t) := by
  induction ht with
  | leaf r =>
    rw [removeInSplit]
    exact .of_refused (.leaf r)
  | split dir two arity weights below ih =>
    rename_i ratios cs
    have ht : (split dir ratios cs).Weighted ok := .split dir two arity weights below
    rw [parent] at hremove
    rw [removeInSplit]
    cases hfind : cs.findIdx? (isLeaf p) with
    | none =>
      rw [hfind] at hremove
      dsimp only at hremove ⊢
      rw [parentInChildren_eq] at hremove
      rw [removeInChildren_eq]
      refine .updateFirst ht (fun c hc ↦ removeInSplit_snd p (below c hc)) fun c hc hg ↦ ?_
      refine ih c hc fun dir ratios pos hparent ↦ ?_
      rcases hg with hnone | hfirst
      · rw [hnone] at hparent
        cases hparent
      · exact hremove dir ratios pos (hfirst ▸ hparent)
    | some pos =>
      rw [hfind] at hremove
      obtain ⟨before, after, rfl, rfl⟩ := exists_of_findIdx_isLeaf hfind
      have herase : (before ++ leaf p :: after).eraseIdx before.length = before ++ after := by
        rw [List.eraseIdx_append_of_length_le le_rfl, Nat.sub_self, List.eraseIdx_cons_zero]
      have hbelow : ∀ c ∈ before ++ after, c.Weighted ok := by
        intro c hc
        apply below c
        rw [List.mem_append, List.mem_cons]
        exact (List.mem_append.mp hc).imp id .inr
      have hperm : ([p] ++ (before ++ after).flatMap leaves).Perm
          ([] ++ (split dir ratios (before ++ leaf p :: after)).leaves) := by
        simpa using List.perm_middle.symm
      have hlt : before.length < ratios.length := by rw [arity]; simp
      have hlen : (ratios.eraseIdx before.length).length = (before ++ after).length := by
        rw [List.length_eraseIdx_of_lt hlt, arity]
        simp
      dsimp only
      rw [herase]
      have hone : 1 ≤ (before ++ after).length := by
        rw [List.length_append, List.length_cons] at two
        rw [List.length_append]
        omega
      generalize before ++ after = rest at hbelow hperm hlen hone
      match rest with
      | [] => exact absurd hone (by simp)
      | [only] =>
        -- a split left with one child collapses into it
        exact .of_changed (hbelow only List.mem_cons_self) (by simpa using hperm)
      | c :: c' :: cs =>
        refine .of_changed (.split dir (by simp) ?_ ?_ hbelow) (by simpa using hperm)
        · rw [length_normalize, hlen]
        · apply hremove dir ratios _ rfl weights hlt
          rw [List.length_eraseIdx_of_lt hlt, List.length_cons, List.length_cons] at hlen
          omega

/-- A removal keeps up the weights if rescaling what it leaves does. -/
theorem outcome_removePane_of (p : ℕ) {t : LayoutNode} (ht : t.Weighted ok)
    (hremove : ∀ dir ratios pos, t.parent p = some (dir, ratios, pos) → ok ratios →
      pos < ratios.length → 2 < ratios.length → ok (normalize (ratios.eraseIdx pos))) :
    Outcome ok [] [p] t (t.removePane p) := by
  cases t with
  | leaf r => exact .of_refused ht
  | split dir ratios cs => exact outcome_removeInSplit p ht hremove

/-- **Removing** a leaf. -/
theorem outcome_removePane (hok : Kept ok) (p : ℕ) {t : LayoutNode} (ht : t.Weighted ok) :
    Outcome ok [] [p] t (t.removePane p) :=
  outcome_removePane_of p ht fun _ ratios pos _ hratios _ ↦ hok.remove ratios pos hratios

/-! ## Setting weights -/

/-- New weights are accepted if they meet `ok` once normalised, where the path leads to a split
with as many children. -/
theorem outcome_setRatios_of {newRatios : List ℕ} :
    ∀ (path : List ℕ) {t : LayoutNode}, t.Weighted ok →
      (∀ dir ratios children, nodeAt path t = some (.split dir ratios children) →
        newRatios.length = children.length → newRatios ≠ [] →
          ok (normalize (newRatios.map (max minRatio)))) →
      Outcome ok [] [] t (setRatios newRatios path t) := by
  intro path
  induction path with
  | nil =>
    intro t ht hnew
    cases ht with
    | leaf p => exact .of_refused (.leaf p)
    | split dir two arity weights below =>
      rename_i ratios cs
      rw [setRatios]
      by_cases hlen : newRatios.length = cs.length
      · rw [if_neg (not_not.mpr hlen)]
        refine .of_changed (.split dir two ?_ (hnew dir ratios cs rfl hlen ?_) below) (by simp)
        · rw [length_normalize, List.length_map, hlen]
        · exact List.ne_nil_of_length_pos (by omega)
      · rw [if_pos hlen]
        exact .of_refused (.split dir two arity weights below)
  | cons idx path ih =>
    intro t ht hnew
    cases t with
    | leaf p => exact .of_refused ht
    | split dir ratios cs =>
      rw [nodeAt] at hnew
      rw [setRatios]
      cases hget : cs[idx]? with
      | none => exact .of_refused ht
      | some child =>
        rw [hget] at hnew
        obtain ⟨hlt, rfl⟩ := List.getElem?_eq_some_iff.mp hget
        have hcs : cs = cs.take idx ++ cs[idx] :: cs.drop (idx + 1) := by
          rw [List.cons_getElem_drop_succ, List.take_append_drop]
        have hchild : cs[idx].Weighted ok := by
          cases ht with
          | split _ _ _ _ below => exact below _ (List.getElem_mem hlt)
        dsimp only
        rw [List.set_eq_take_append_cons_drop, if_pos hlt]
        conv => arg 4; rw [hcs]
        rw [hcs] at ht
        exact (ih hchild hnew).child ht

/-- **Weights** that meet `ok` once normalised, at any path. -/
theorem outcome_setRatios {newRatios : List ℕ}
    (hnew : newRatios ≠ [] → ok (normalize (newRatios.map (max minRatio)))) (path : List ℕ)
    {t : LayoutNode} (ht : t.Weighted ok) : Outcome ok [] [] t (setRatios newRatios path t) :=
  outcome_setRatios_of path ht fun _ _ _ _ _ ↦ hnew

/-- What holds of a tree holds of the node at the end of a path. -/
theorem weighted_nodeAt : ∀ (path : List ℕ) {t node : LayoutNode},
    t.Weighted ok → nodeAt path t = some node → node.Weighted ok := by
  intro path
  induction path with
  | nil =>
    intro t node ht h
    rw [nodeAt, Option.some.injEq] at h
    exact h ▸ ht
  | cons idx path ih =>
    intro t node ht h
    cases ht with
    | leaf p => rw [nodeAt] at h; cases h
    | split dir two arity weights below =>
      rename_i ratios cs
      rw [nodeAt] at h
      rcases Option.eq_none_or_eq_some cs[idx]? with hget | ⟨child, hget⟩
      · rw [hget] at h
        cases h
      · rw [hget] at h
        exact ih (below child (List.mem_of_getElem? hget)) h

/-! ## Swapping -/

theorem renameLeaves_eq_map (a b : ℕ) (cs : List LayoutNode) :
    renameLeaves a b cs = cs.map (renameLeaf a b) := by
  induction cs with
  | nil => rw [renameLeaves, List.map_nil]
  | cons c cs ih => rw [renameLeaves, ih, List.map_cons]

theorem weighted_renameLeaf (a b : ℕ) {t : LayoutNode} (ht : t.Weighted ok) :
    (t.renameLeaf a b).Weighted ok := by
  induction ht with
  | leaf p => rw [renameLeaf]; exact .leaf _
  | split dir two arity weights below ih =>
    rw [renameLeaf, renameLeaves_eq_map]
    refine .split dir (by rwa [List.length_map]) (by rwa [List.length_map]) weights ?_
    rw [List.forall_mem_map]
    exact ih

theorem leaves_renameLeaf (a b : ℕ) {t : LayoutNode} (ht : t.Weighted ok) :
    (t.renameLeaf a b).leaves = t.leaves.map (Equiv.swap a b) := by
  induction ht with
  | leaf p =>
    rw [renameLeaf, leaves_leaf, leaves_leaf, List.map_singleton, Equiv.swap_apply_def]
  | split dir two arity weights below ih =>
    rw [renameLeaf, renameLeaves_eq_map, leaves_split, leaves_split, List.flatMap_map,
      List.map_flatMap]
    exact List.flatMap_congr ih

/-- Exchanging two panes that both occur, each once, permutes the leaves. -/
private theorem perm_map_swap {a b : ℕ} {l : List ℕ} (hl : l.Nodup) (ha : a ∈ l) (hb : b ∈ l) :
    (l.map (Equiv.swap a b)).Perm l := by
  have hmem : ∀ x ∈ l, Equiv.swap a b x ∈ l := by
    intro x hx
    rw [Equiv.swap_apply_def]
    split_ifs
    · exact hb
    · exact ha
    · exact hx
  rw [List.perm_ext_iff_of_nodup (hl.map (Equiv.swap a b).injective) hl]
  intro x
  rw [List.mem_map]
  constructor
  · rintro ⟨y, hy, rfl⟩
    exact hmem y hy
  · intro hx
    exact ⟨Equiv.swap a b x, hmem x hx, Equiv.swap_apply_self a b x⟩

/-- **Swapping** two panes of a tree. -/
theorem outcome_swap (a b : ℕ) {t : LayoutNode} (ht : t.Weighted ok) (hnodup : t.leaves.Nodup) :
    Outcome ok [] [] t (t.swap a b) := by
  rw [swap]
  by_cases hab : a = b
  · rw [if_pos hab]
    exact .of_refused ht
  · rw [if_neg hab]
    by_cases hmem : a ∉ t.leaves ∨ b ∉ t.leaves
    · rw [if_pos hmem]
      exact .of_refused ht
    · rw [if_neg hmem]
      rw [not_or, not_not, not_not] at hmem
      refine .of_changed (weighted_renameLeaf a b ht) ?_
      rw [leaves_renameLeaf a b ht]
      exact perm_map_swap hnodup hmem.1 hmem.2

/-! ## Presets -/

private theorem flatMap_leaf (panes : List ℕ) :
    (panes.map LayoutNode.leaf).flatMap leaves = panes := by
  induction panes with
  | nil => rfl
  | cons p panes ih => rw [List.map_cons, List.flatMap_cons, ih, leaves_leaf, List.singleton_append]

theorem weighted_evenSplit {panes : List ℕ} (h : 2 ≤ panes.length) (dir : SplitDir)
    (hok : ok (normalize (List.replicate panes.length (u16 (1000 / panes.length))))) :
    (evenSplit panes dir).Weighted ok := by
  refine .split dir (by rwa [List.length_map]) ?_ hok ?_
  · rw [length_normalize, List.length_replicate, List.length_map]
  · rw [List.forall_mem_map]
    exact fun p _ ↦ .leaf p

@[simp] theorem leaves_evenSplit (panes : List ℕ) (dir : SplitDir) :
    (evenSplit panes dir).leaves = panes := by
  rw [evenSplit, leaves_split, flatMap_leaf]

theorem weighted_mainSplit (hpair : ok [500, 500]) {panes : List ℕ} (h : 2 ≤ panes.length)
    (outer inner : SplitDir) (hok : ok (normalize
      (List.replicate (panes.length - 1) (u16 (1000 / (panes.length - 1)))))) :
    (mainSplit panes outer inner).Weighted ok := by
  rw [mainSplit]
  refine weighted_pair hpair outer (.leaf _) ?_
  split
  · exact .leaf _
  · rename_i hone
    apply weighted_evenSplit
    · rw [List.length_tail] at hone ⊢
      omega
    · rwa [List.length_tail]

theorem leaves_mainSplit {panes : List ℕ} (h : 2 ≤ panes.length) (outer inner : SplitDir) :
    (mainSplit panes outer inner).leaves = panes := by
  match panes with
  | [p, q] => simp [mainSplit]
  | p :: q :: r :: rest => simp [mainSplit]

/-- How many children the flat part of a scheme gets for so many panes. -/
def abreast : LayoutScheme → ℕ → ℕ
  | .evenHorizontal, n => n
  | .evenVertical, n => n
  | .mainVertical, n => n - 1
  | .mainHorizontal, n => n - 1
  | .unknown, _ => 0

/-- A known scheme rearranges at least two panes, in order. -/
private theorem arrange_spec (hpair : ok [500, 500]) {scheme : LayoutScheme}
    {f : List ℕ → LayoutNode} (hf : arrange scheme = some f) {panes : List ℕ}
    (h : 2 ≤ panes.length) (hok : ok (normalize (List.replicate (abreast scheme panes.length)
      (u16 (1000 / abreast scheme panes.length))))) :
    (f panes).Weighted ok ∧ (f panes).leaves = panes := by
  cases scheme with
  | unknown => cases hf
  | evenHorizontal | evenVertical =>
    cases hf
    exact ⟨weighted_evenSplit h _ hok, leaves_evenSplit _ _⟩
  | mainVertical | mainHorizontal =>
    cases hf
    exact ⟨weighted_mainSplit hpair h _ _ hok, leaves_mainSplit h _ _⟩

theorem leaves_ne_nil {t : LayoutNode} (ht : t.Weighted ok) : t.leaves ≠ [] := by
  induction ht with
  | leaf p => simp
  | split dir two arity weights below ih =>
    rename_i ratios cs
    obtain ⟨c, cs, rfl⟩ := List.exists_cons_of_length_pos (show 0 < cs.length by omega)
    rw [leaves_split, List.flatMap_cons]
    exact fun h ↦ ih c List.mem_cons_self (List.append_eq_nil_iff.mp h).1

/-- A preset keeps up the weights if an even split of its flat part does. -/
theorem outcome_applyScheme_of (hpair : ok [500, 500]) (scheme : LayoutScheme) {t : LayoutNode}
    (ht : t.Weighted ok)
    (heven : ∀ n, n = abreast scheme t.leaves.length → 0 < n →
      ok (normalize (List.replicate n (u16 (1000 / n))))) :
    Outcome ok [] [] t (t.apply (.applyScheme scheme)) := by
  rw [apply, applyScheme]
  cases hf : arrange scheme with
  | none => exact .of_refused ht
  | some f =>
    have hne := leaves_ne_nil ht
    rw [Option.map_some]
    match hleaves : t.leaves with
    | [] => exact absurd hleaves hne
    | [only] => exact .of_changed (.leaf only) (by rw [hleaves]; simp [single])
    | p :: q :: rest =>
      have htwo : 2 ≤ (p :: q :: rest).length := by simp
      have habreast : 0 < abreast scheme (p :: q :: rest).length := by
        cases scheme with
        | unknown => cases hf
        | evenHorizontal | evenVertical | mainVertical | mainHorizontal => simp [abreast]
      rw [hleaves] at heven
      obtain ⟨hwf, hsame⟩ := arrange_spec hpair hf htwo (heven _ rfl habreast)
      exact .of_changed hwf (by rw [hleaves, hsame])

/-- **Presets** of the leaves of a tree. -/
theorem outcome_applyScheme (hok : Kept ok) (scheme : LayoutScheme) {t : LayoutNode}
    (ht : t.Weighted ok) : Outcome ok [] [] t (t.apply (.applyScheme scheme)) :=
  outcome_applyScheme_of hok.pair scheme ht fun n _ ↦ hok.even n

/-! ## When a mutation takes place -/

theorem updateFirst_of_exists {α : Type*} {f : α → α × Bool} {cs : List α}
    (h : ∃ c ∈ cs, (f c).2 = true) : (updateFirst f cs).2 = true := by
  induction cs with
  | nil =>
    obtain ⟨c, hc, -⟩ := h
    exact absurd hc List.not_mem_nil
  | cons c cs ih =>
    rw [updateFirst]
    by_cases hc : (f c).2 = true
    · rw [if_pos hc]
    · rw [if_neg hc]
      obtain ⟨x, hx, hfx⟩ := h
      rcases List.mem_cons.mp hx with rfl | hx
      · exact absurd hfx hc
      · exact ih ⟨x, hx, hfx⟩

/-- A pane below children none of which is its leaf sits in one of the splits among them. -/
theorem exists_child_of_mem {p : ℕ} {cs : List LayoutNode} (hmem : p ∈ cs.flatMap leaves)
    (hfind : cs.findIdx? (isLeaf p) = none) : ∃ c ∈ cs, p ∈ c.leaves ∧ c ≠ .leaf p := by
  obtain ⟨c, hc, hp⟩ := List.mem_flatMap.mp hmem
  refine ⟨c, hc, hp, fun heq ↦ ?_⟩
  have hnot := List.findIdx?_eq_none_iff.mp hfind c hc
  rw [isLeaf_iff.mpr heq] at hnot
  exact absurd hnot.symm Bool.false_ne_true

theorem splitInSplit_of_mem {p q : ℕ} {dir : SplitDir} {t : LayoutNode} (ht : t.Weighted ok)
    (hp : p ∈ t.leaves) (hne : t ≠ .leaf p) : (splitInSplit p q dir t).2 = true := by
  induction ht with
  | leaf r =>
    rw [leaves_leaf, List.mem_singleton] at hp
    exact absurd (by rw [hp]) hne
  | split myDir two arity weights below ih =>
    rename_i ratios cs
    rw [splitInSplit]
    cases hfind : cs.findIdx? (isLeaf p) with
    | some pos =>
      dsimp only
      split <;> rfl
    | none =>
      rw [leaves_split] at hp
      obtain ⟨c, hc, hpc, hcne⟩ := exists_child_of_mem hp hfind
      dsimp only
      rw [splitInChildren_eq]
      exact updateFirst_of_exists ⟨c, hc, ih c hc hpc hcne⟩

/-- Splitting a leaf of the tree takes place. -/
theorem splitPane_of_mem {p q : ℕ} {dir : SplitDir} {t : LayoutNode} (ht : t.Weighted ok)
    (hp : p ∈ t.leaves) : (t.splitPane p q dir).2 = true := by
  cases t with
  | leaf r =>
    rw [leaves_leaf, List.mem_singleton] at hp
    rw [splitPane, if_pos hp.symm]
  | split myDir ratios cs => exact splitInSplit_of_mem ht hp (by simp)

theorem removeInSplit_of_mem {p : ℕ} {t : LayoutNode} (ht : t.Weighted ok) (hp : p ∈ t.leaves)
    (hne : t ≠ .leaf p) : (removeInSplit p t).2 = true := by
  induction ht with
  | leaf r =>
    rw [leaves_leaf, List.mem_singleton] at hp
    exact absurd (by rw [hp]) hne
  | split dir two arity weights below ih =>
    rename_i ratios cs
    rw [removeInSplit]
    cases hfind : cs.findIdx? (isLeaf p) with
    | some pos =>
      dsimp only
      split <;> rfl
    | none =>
      rw [leaves_split] at hp
      obtain ⟨c, hc, hpc, hcne⟩ := exists_child_of_mem hp hfind
      dsimp only
      rw [removeInChildren_eq]
      exact updateFirst_of_exists ⟨c, hc, ih c hc hpc hcne⟩

/-- Removing a leaf that is not the only one takes place. -/
theorem removePane_of_mem {p : ℕ} {t : LayoutNode} (ht : t.Weighted ok) (hp : p ∈ t.leaves)
    (hlen : 1 < t.leaves.length) : (t.removePane p).2 = true := by
  cases t with
  | leaf r => exact absurd hlen (by simp)
  | split dir ratios cs => exact removeInSplit_of_mem ht hp (by simp)

/-! ## Focus -/

private theorem head_mem_of_get {cs : List LayoutNode} {i f : ℕ}
    (h : (cs[i]?.bind fun s ↦ s.leaves.head?) = some f) : ∃ c, cs[i]? = some c ∧ f ∈ c.leaves := by
  obtain ⟨c, hc, hf⟩ := Option.bind_eq_some_iff.mp h
  exact ⟨c, hc, List.mem_of_mem_head? hf⟩

/-- Where no pane sits at two leaves, a pane of one child is not the leaf at another place. -/
private theorem ne_of_other_child {cs : List LayoutNode} (hnodup : (cs.flatMap leaves).Nodup)
    {i j p f : ℕ} {c : LayoutNode} (hij : i ≠ j) (hi : cs[i]? = some (.leaf p))
    (hj : cs[j]? = some c)
    (hf : f ∈ c.leaves) : f ≠ p := by
  rintro rfl
  obtain ⟨hilt, hi⟩ := List.getElem?_eq_some_iff.mp hi
  obtain ⟨hjlt, hj⟩ := List.getElem?_eq_some_iff.mp hj
  have hpair := (List.nodup_flatMap.mp hnodup).2
  have hdisj : ∀ a b : LayoutNode, (Function.onFun List.Disjoint leaves) a b →
      f ∈ a.leaves → f ∈ b.leaves → False := fun a b h ha hb ↦ h ha hb
  rcases Nat.lt_or_gt_of_ne hij with hlt | hlt
  · exact hdisj _ _ (List.pairwise_iff_getElem.mp hpair i j hilt hjlt hlt) (by rw [hi]; simp)
      (by rwa [hj])
  · exact hdisj _ _ (List.pairwise_iff_getElem.mp hpair j i hjlt hilt hlt) (by rwa [hj])
      (by rw [hi]; simp)

theorem nextFocusInChildren_eq (p : ℕ) (cs : List LayoutNode) :
    nextFocusInChildren p cs = cs.findSome? (nextFocusAfterRemoval p) := by
  induction cs with
  | nil => rw [nextFocusInChildren, List.findSome?_nil]
  | cons c cs ih =>
    rw [nextFocusInChildren, List.findSome?_cons, ih]
    cases nextFocusAfterRemoval p c <;> rfl

/-- The focus moves to another pane of the tree. -/
theorem nextFocusAfterRemoval_mem {p f : ℕ} {t : LayoutNode} (ht : t.Weighted ok)
    (hnodup : t.leaves.Nodup) (h : nextFocusAfterRemoval p t = some f) :
    f ∈ t.leaves ∧ f ≠ p := by
  induction ht with
  | leaf r => rw [nextFocusAfterRemoval] at h; cases h
  | split dir two arity weights below ih =>
    rename_i ratios cs
    rw [nextFocusAfterRemoval] at h
    rw [leaves_split] at hnodup ⊢
    cases hfind : cs.findIdx? (isLeaf p) with
    | none =>
      rw [hfind] at h
      dsimp only at h
      rw [nextFocusInChildren_eq] at h
      obtain ⟨c, hc, hf⟩ := List.exists_of_findSome?_eq_some h
      have hsub := (List.nodup_flatMap.mp hnodup).1 c hc
      exact ⟨List.mem_flatMap.mpr ⟨c, hc, (ih c hc hsub hf).1⟩, (ih c hc hsub hf).2⟩
    | some pos =>
      rw [hfind] at h
      dsimp only at h
      obtain ⟨hlt, hleaf, -⟩ := List.findIdx?_eq_some_iff_getElem.mp hfind
      have hpos : cs[pos]? = some (.leaf p) := by
        rw [List.getElem?_eq_getElem hlt, isLeaf_iff.mp hleaf]
      -- the sibling taken is the one before, or the one after the first
      obtain ⟨j, hj, hget⟩ : ∃ j, pos ≠ j ∧ (cs[j]?.bind fun s ↦ s.leaves.head?) = some f := by
        by_cases hzero : 0 < pos
        · rw [if_pos hzero] at h
          exact ⟨pos - 1, by omega, h⟩
        · rw [if_neg hzero] at h
          exact ⟨pos + 1, by omega, h⟩
      obtain ⟨c, hc, hf⟩ := head_mem_of_get hget
      exact ⟨List.mem_flatMap.mpr ⟨c, List.mem_of_getElem? hc, hf⟩,
        ne_of_other_child hnodup hj hpos hc hf⟩

end LayoutNode

/-! ## Every sequence of mutations -/

namespace LayoutOp

/-- The panes a mutation adds. -/
def added : LayoutOp → List ℕ
  | .split _ newPane _ => [newPane]
  | _ => []

/-- The panes a mutation removes. -/
def removed : LayoutOp → List ℕ
  | .removePane pane => [pane]
  | _ => []

/-- The weights asked for meet `ok` once clamped from below and normalised. -/
def Weighs (ok : List ℕ → Prop) : LayoutOp → Prop
  | .setRatios _ newRatios => newRatios ≠ [] → ok (normalize (newRatios.map (max minRatio)))
  | _ => True

/-- The weights asked for, clamped from below, add up in `u32`. -/
def Fits : LayoutOp → Prop
  | .setRatios _ newRatios => (newRatios.map (max minRatio)).sum < 2 ^ 32
  | _ => True

theorem Fits.weighs {op : LayoutOp} (h : op.Fits) : op.Weighs fun ratios ↦ ratios.sum = 1000 := by
  cases op with
  | setRatios path newRatios =>
    intro hne
    exact sum_normalize (List.map_eq_nil_iff.not.mpr hne) h
  | split | removePane | swap | applyScheme => trivial

end LayoutOp

namespace LayoutNode

/-- A split inserts a pane that the tree does not show yet. -/
def Fresh (t : LayoutNode) (op : LayoutOp) : Prop := ∀ p ∈ op.added, p ∉ t.leaves

/-- The tree a mutation leaves behind. -/
def step (t : LayoutNode) (op : LayoutOp) : LayoutNode := (t.apply op).1

theorem outcome_apply {ok : List ℕ → Prop} (hok : Kept ok) {t : LayoutNode} (ht : t.Weighted ok)
    (hnodup : t.leaves.Nodup) {op : LayoutOp} (hop : op.Weighs ok) :
    Outcome ok op.added op.removed t (t.apply op) := by
  cases op with
  | split p q dir => exact outcome_splitPane hok p q dir ht
  | removePane p => exact outcome_removePane hok p ht
  | setRatios path newRatios => exact outcome_setRatios hop path ht
  | swap a b => exact outcome_swap a b ht hnodup
  | applyScheme scheme => exact outcome_applyScheme hok scheme ht

private theorem nodup_added {op : LayoutOp} {l : List ℕ} (hl : l.Nodup)
    (h : ∀ p ∈ op.added, p ∉ l) :
    (op.added ++ l).Nodup := by
  cases op with
  | split p q dir => exact List.nodup_cons.mpr ⟨h q List.mem_cons_self, hl⟩
  | removePane | setRatios | swap | applyScheme => exact hl

theorem nodup_leaves_step {ok : List ℕ → Prop} {t : LayoutNode} {op : LayoutOp}
    (hnodup : t.leaves.Nodup) (hfresh : t.Fresh op)
    (h : Outcome ok op.added op.removed t (t.apply op)) :
    (t.step op).leaves.Nodup := by
  rw [step]
  cases hr : (t.apply op).2 with
  | false => rwa [h.refused hr]
  | true =>
    have := (h.changed hr).nodup_iff.mpr (nodup_added hnodup hfresh)
    exact this.of_append_right

/-- The trees that mutations make of a single leaf, as long as splits insert fresh panes and the
weights asked for add up in `u32`. -/
def Reachable (t : LayoutNode) : Prop :=
  ∃ p₀ ops, Run.Ok step (fun t op ↦ t.Fresh op ∧ op.Fits) (single p₀) ops ∧
    Run.exec step (single p₀) ops = t

theorem Reachable.invariant {t : LayoutNode} (h : t.Reachable) :
    t.WellFormed ∧ t.leaves.Nodup := by
  obtain ⟨p₀, ops, hok, rfl⟩ := h
  refine Run.invariant_of_ok (fun t op (h : t.WellFormed ∧ t.leaves.Nodup) hop ↦ ?_) ops
    (single p₀) ⟨.leaf p₀, by simp [single]⟩ hok
  have hout := outcome_apply kept_sum h.1 h.2 hop.2.weighs
  exact ⟨hout.weighted, nodup_leaves_step h.2 hop.1 hout⟩

/-- **The layout tree.** Along every sequence of mutations of a tree that starts as one leaf, as
long as splits insert fresh panes and the weights asked for add up in `u32`: the tree is well formed
and shows no pane twice, and whatever mutation comes next changes the leaves as it says, or reports
that it changed nothing and did not. -/
theorem layout_invariant (p₀ : ℕ) (ops : List LayoutOp)
    (hok : Run.Ok step (fun t op ↦ t.Fresh op ∧ op.Fits) (single p₀) ops) :
    (Run.exec step (single p₀) ops).WellFormed ∧ (Run.exec step (single p₀) ops).leaves.Nodup ∧
      ∀ op : LayoutOp, op.Fits → Outcome (fun ratios ↦ ratios.sum = 1000) op.added op.removed
        (Run.exec step (single p₀) ops) ((Run.exec step (single p₀) ops).apply op) := by
  have hinv := Reachable.invariant ⟨p₀, ops, hok, rfl⟩
  exact ⟨hinv.1, hinv.2, fun op hop ↦ outcome_apply kept_sum hinv.1 hinv.2 hop.weighs⟩

/-- The hypothesis can be met: split, split again across, weigh, and close a pane. -/
theorem layout_invariant_of_three_panes :
    (Run.exec step (single 0) [.split 0 1 .horizontal, .split 1 2 .vertical,
      .setRatios [1] [0, 300], .removePane 0]).WellFormed :=
  (layout_invariant 0 _ (by
    simp [Run.Ok, Fresh, LayoutOp.added, LayoutOp.Fits, step, apply, single, splitPane,
      splitInSplit, splitInChildren, minRatio])).1

/-! ## A split too wide for its weights -/

/-- Split the first pane again and again in one direction. -/
def wideSplits (n : ℕ) : List LayoutOp :=
  (List.range n).map fun k ↦ .split 0 (k + 1) .horizontal

private theorem splitPane_first (ratios : List ℕ) (cs : List LayoutNode) (q : ℕ) :
    ∃ ratios', ((split .horizontal ratios (.leaf 0 :: cs)).splitPane 0 q .horizontal).1
      = .split .horizontal ratios' (.leaf 0 :: .leaf q :: cs) := by
  have hfind : (LayoutNode.leaf 0 :: cs).findIdx? (isLeaf 0) = some 0 := by
    rw [List.findIdx?_cons, if_pos (by decide)]
  rw [splitPane, splitInSplit, hfind]
  dsimp only
  rw [if_pos rfl]
  exact ⟨_, rfl⟩

private theorem exec_wideSplits (n : ℕ) :
    Run.Ok step Fresh (single 0) (wideSplits (n + 1)) ∧
      ∃ ratios cs, Run.exec step (single 0) (wideSplits (n + 1))
          = .split .horizontal ratios (.leaf 0 :: cs) ∧ cs.length = n + 1 ∧
        ∀ p ∈ cs.flatMap leaves, p ≤ n + 1 := by
  induction n with
  | zero =>
    refine ⟨?_, [500, 500], [.leaf 1], ?_, rfl, by simp⟩
    · simp [wideSplits, Run.Ok, Fresh, LayoutOp.added, single]
    · simp [wideSplits, step, apply, splitPane, single]
  | succ n ih =>
    obtain ⟨hok, ratios, cs, hexec, hlen, hle⟩ := ih
    have hsplit : wideSplits (n + 2)
        = wideSplits (n + 1) ++ [LayoutOp.split 0 (n + 2) .horizontal] := by
      rw [wideSplits, List.range_succ, List.map_append, List.map_singleton, wideSplits]
    obtain ⟨ratios', hnext⟩ := splitPane_first ratios cs (n + 2)
    rw [hsplit, Run.ok_append, Run.exec_append, hexec]
    refine ⟨⟨hok, ?_, trivial⟩, ratios', .leaf (n + 2) :: cs, ?_,
      by rw [List.length_cons, hlen], ?_⟩
    · intro p hp hmem
      obtain rfl : p = n + 2 := List.mem_singleton.mp hp
      rw [leaves_split, List.flatMap_cons, leaves_leaf, List.mem_append, List.mem_singleton] at hmem
      rcases hmem with h | h
      · omega
      · have := hle _ h
        omega
    · exact hnext
    · intro p hp
      rw [List.flatMap_cons, leaves_leaf, List.mem_append, List.mem_singleton] at hp
      rcases hp with rfl | hp
      · exact le_rfl
      · have := hle p hp
        omega

/-- 65538 weights of 65535 add up to 65534 in `u32`, so each of them is "rescaled" to 1000. -/
private theorem sum_normalize_wide :
    (normalize ((List.replicate 65538 65535).map (max minRatio))).sum = 65538000 := by
  have hne : List.replicate 65538 65535 ≠ [] := by
    rw [← List.length_pos_iff, List.length_replicate]
    decide
  have hmax : max minRatio 65535 = 65535 := by decide
  have hsum : u32 (65538 * 65535) = 65534 := by decide
  rw [List.map_replicate, hmax, normalize, if_neg hne]
  simp only [List.sum_replicate_nat, hsum, List.map_replicate]
  rw [if_neg (by decide), show 1000 - u32 (65538 * (65535 * 1000 / 65534)) = 0 by decide, handOut,
    List.sum_replicate_nat]
  rfl

/-- Weights that do not survive normalisation break the split they are given to. -/
private theorem not_wellFormed_wide (n : ℕ) {newRatios : List ℕ} (hlen : newRatios.length = n + 2)
    (hsum : (normalize (newRatios.map (max minRatio))).sum ≠ 1000) :
    Run.Ok step Fresh (single 0) (wideSplits (n + 1) ++ [LayoutOp.setRatios [] newRatios]) ∧
      ¬(Run.exec step (single 0)
        (wideSplits (n + 1) ++ [LayoutOp.setRatios [] newRatios])).WellFormed := by
  obtain ⟨hok, ratios, cs, hexec, hcs, -⟩ := exec_wideSplits n
  rw [Run.ok_append, Run.exec_append, hexec]
  refine ⟨⟨hok, fun p hp ↦ absurd hp List.not_mem_nil, trivial⟩, ?_⟩
  intro hwf
  rw [Run.exec_cons, Run.exec_nil, step, apply, setRatios, if_neg] at hwf
  · cases hwf with
    | split _ _ _ sum _ => exact hsum sum
  · rw [not_not, hlen, List.length_cons, hcs]

/-- Splitting 65537 times and then asking for the largest weights: fresh panes all along, and in the
end a split whose weights do not sum to 1000. -/
theorem not_layout_invariant_of_wide_split :
    Run.Ok step Fresh (single 0)
        (wideSplits 65537 ++ [.setRatios [] (List.replicate 65538 65535)]) ∧
      ¬(Run.exec step (single 0)
        (wideSplits 65537 ++ [.setRatios [] (List.replicate 65538 65535)])).WellFormed :=
  not_wellFormed_wide 65536 List.length_replicate (by rw [sum_normalize_wide]; decide)

end LayoutNode

end Kmux
