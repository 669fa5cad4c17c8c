import Kmux.Session.LayoutInvariant

/-!
# The entries of rescaled weights

What `normalize` gives to one child: the floor of its exact share of 1000, and one unit more if few
enough children come before it by largest remainder. That rescaling keeps the sum is a property of
the vector; who is rounded down to nothing, and which vectors rescaling leaves alone, are questions
about its entries.
-/

namespace Kmux

/-! ## Handing out along an order -/

private theorem getElem?_handOut_of_notMem {i : ℕ} : ∀ (order : List ℕ) (leftover : ℕ)
    (ratios : List ℕ), i ∉ order → (handOut leftover order ratios)[i]? = ratios[i]? := by
  intro order
  induction order with
  | nil => intro leftover ratios _; cases leftover <;> rfl
  | cons a order ih =>
    intro leftover ratios hi
    rw [List.mem_cons, not_or] at hi
    cases leftover with
    | zero => rfl
    | succ leftover => rw [handOut, ih _ _ hi.2, List.getElem?_modify_ne _ _ (Ne.symm hi.1)]

/-- The positions served first get one unit each, the others none. -/
theorem getElem?_handOut {i : ℕ} : ∀ (order : List ℕ) (leftover : ℕ) (ratios : List ℕ),
    order.Nodup → (∀ r ∈ ratios[i]?, r + 1 < 2 ^ 16) → (handOut leftover order ratios)[i]?
      = ratios[i]?.map fun r ↦ if i ∈ order.take leftover then r + 1 else r := by
  intro order
  induction order with
  | nil => intro leftover ratios _ _; cases leftover <;> simp [handOut]
  | cons a order ih =>
    intro leftover ratios hnodup hfit
    rw [List.nodup_cons] at hnodup
    cases leftover with
    | zero => simp [handOut]
    | succ leftover =>
      rw [handOut, List.take_succ_cons]
      by_cases ha : a = i
      · -- served now, and never again
        subst ha
        rw [getElem?_handOut_of_notMem _ _ _ hnodup.1, List.getElem?_modify_eq]
        apply Option.map_congr
        intro r hr
        rw [if_pos List.mem_cons_self]
        exact Nat.mod_eq_of_lt (hfit r hr)
      · have hsame : (ratios.modify a fun r ↦ u16 (r + 1))[i]? = ratios[i]? :=
          List.getElem?_modify_ne _ _ ha
        rw [ih _ _ hnodup.2 (by rwa [hsame]), hsame]
        simp only [List.mem_cons, Ne.symm ha, false_or]

/-! ## The order of the remainders -/

/-- In a list where each element comes before the later ones, the index of an element is the number
of those that come before it. -/
private theorem idxOf_eq_countP {R : ℕ → ℕ → Prop} [DecidableRel R] (hasymm : ∀ a b, R a b → ¬R b a)
    {i : ℕ} : ∀ {order : List ℕ}, order.Pairwise R → i ∈ order →
      order.idxOf i = order.countP fun j ↦ decide (R j i) := by
  intro order
  induction order with
  | nil => intro _ hi; exact absurd hi List.not_mem_nil
  | cons a order ih =>
    intro hsorted hi
    rw [List.pairwise_cons] at hsorted
    by_cases ha : a = i
    · subst ha
      have hnone : order.countP (fun j ↦ decide (R j a)) = 0 :=
        List.countP_eq_zero.mpr fun j hj ↦ by simpa using hasymm a j (hsorted.1 j hj)
      have hself : ¬R a a := fun h ↦ hasymm a a h h
      rw [List.idxOf_cons_self, List.countP_cons, hnone, if_neg (by simpa using hself)]
    · have hmem : i ∈ order := (List.mem_cons.mp hi).resolve_left (Ne.symm ha)
      rw [List.idxOf_cons_ne _ ha, List.countP_cons, ih hsorted.2 hmem,
        if_pos (by simpa using hsorted.1 i hmem)]

/-- The positions of the weights, largest remainder first. -/
def remainderOrder (ratios : List ℕ) : List ℕ :=
  ((ratios.mapIdx fun i r ↦ (i, r * 1000 % ratios.sum)).mergeSort remainderLe).map Prod.fst

private theorem serving_perm (ratios : List ℕ) (f : ℕ → ℕ) :
    (((ratios.mapIdx fun i r ↦ (i, f r)).mergeSort remainderLe).map Prod.fst).Perm
      (List.range ratios.length) := by
  refine ((List.mergeSort_perm _ _).map Prod.fst).trans (List.Perm.of_eq ?_)
  apply List.ext_getElem <;> simp

theorem remainderOrder_perm (ratios : List ℕ) :
    (remainderOrder ratios).Perm (List.range ratios.length) := serving_perm ratios _

theorem remainderOrder_nodup (ratios : List ℕ) : (remainderOrder ratios).Nodup :=
  (remainderOrder_perm ratios).nodup_iff.mpr List.nodup_range

private theorem remainderLe_iff {a b : ℕ × ℕ} :
    remainderLe a b = true ↔ b.2 < a.2 ∨ b.2 = a.2 ∧ a.1 ≤ b.1 := by
  rw [remainderLe, decide_eq_true_iff]

theorem remainderOrder_pairwise (ratios : List ℕ) :
    (remainderOrder ratios).Pairwise (Apportion.Before 1000 ratios) := by
  have hsorted := @List.pairwise_mergeSort _ remainderLe
    (by intro a b c; simp only [remainderLe_iff]; omega)
    (by intro a b; rw [Bool.or_eq_true, remainderLe_iff, remainderLe_iff]; omega)
    (ratios.mapIdx fun i r ↦ (i, r * 1000 % ratios.sum))
  have hpair : ∀ a ∈ (ratios.mapIdx fun i r ↦ (i, r * 1000 % ratios.sum)).mergeSort remainderLe,
      a.2 = Apportion.remainder 1000 ratios a.1 := by
    intro a ha
    rw [(List.mergeSort_perm _ _).mem_iff, List.mem_mapIdx] at ha
    obtain ⟨i, hi, rfl⟩ := ha
    rw [Apportion.remainder, List.getD_eq_getElem?_getD, List.getElem?_eq_getElem hi,
      Option.getD_some]
  have hnodup := remainderOrder_nodup ratios
  rw [remainderOrder] at hnodup ⊢
  rw [List.pairwise_map]
  rw [List.nodup_iff_pairwise_ne, List.pairwise_map] at hnodup
  refine (hsorted.and hnodup).imp_of_mem fun {a b} ha hb h ↦ ?_
  obtain ⟨hle, hne⟩ := h
  rw [remainderLe_iff, hpair a ha, hpair b hb] at hle
  rw [Apportion.Before]
  omega

/-- A position is among those served first if few enough come before it. -/
theorem mem_take_remainderOrder {ratios : List ℕ} {i k : ℕ} (hi : i < ratios.length) :
    i ∈ (remainderOrder ratios).take k ↔ Apportion.rank 1000 ratios i < k := by
  have hmem : i ∈ remainderOrder ratios := by
    rw [(remainderOrder_perm ratios).mem_iff, List.mem_range]
    exact hi
  have hrank : (remainderOrder ratios).idxOf i = Apportion.rank 1000 ratios i := by
    rw [idxOf_eq_countP (fun _ _ ↦ Apportion.Before.asymm) (remainderOrder_pairwise ratios) hmem,
      (remainderOrder_perm ratios).countP_eq, List.countP_eq_length_filter]
    rfl
  rw [← hrank]
  constructor
  · intro h
    have := List.idxOf_lt_length_of_mem h
    rw [List.length_take] at this
    have hidx : ((remainderOrder ratios).take k).idxOf i = (remainderOrder ratios).idxOf i := by
      conv_rhs => rw [← List.take_append_drop k (remainderOrder ratios)]
      rw [List.idxOf_append_of_mem h]
    omega
  · intro h
    rw [List.mem_take_iff_getElem]
    have hlt := List.idxOf_lt_length_of_mem hmem
    exact ⟨(remainderOrder ratios).idxOf i, by omega, List.getElem_idxOf hlt⟩

/-! ## The entries -/

private theorem normalize_eq_handOut {ratios : List ℕ} (hpos : 0 < ratios.sum)
    (hfit : ratios.sum < 2 ^ 32) : normalize ratios = handOut (Apportion.leftover 1000 ratios)
      (remainderOrder ratios) (Apportion.floors 1000 ratios.sum ratios) := by
  have hne : ratios ≠ [] := by
    rintro rfl
    exact absurd hpos (by simp)
  have hle := Apportion.sum_floors_le 1000 hpos
  have hcast : (Apportion.floors 1000 ratios.sum ratios).map u16
      = Apportion.floors 1000 ratios.sum ratios := by
    conv_rhs => rw [← List.map_id (Apportion.floors 1000 ratios.sum ratios)]
    apply List.map_congr_left
    intro q hq
    have hqle := le_sum_of_mem hq
    exact Nat.mod_eq_of_lt (by omega)
  rw [normalize, if_neg hne]
  simp only [u32, Nat.mod_eq_of_lt hfit]
  rw [if_neg hpos.ne', Apportion.leftover, remainderOrder]
  change handOut (1000 - (Apportion.floors 1000 ratios.sum ratios).sum % 2 ^ 32) _
    ((Apportion.floors 1000 ratios.sum ratios).map u16) = _
  rw [hcast, Nat.mod_eq_of_lt (by omega)]

/-- **Entries.** Each weight becomes its share of 1000 by largest remainder. -/
theorem getElem?_normalize {ratios : List ℕ} (hpos : 0 < ratios.sum) (hfit : ratios.sum < 2 ^ 32)
    (i : ℕ) : (normalize ratios)[i]? = ratios[i]?.map fun _ ↦ Apportion.share 1000 ratios i := by
  rw [normalize_eq_handOut hpos hfit, getElem?_handOut _ _ _ (remainderOrder_nodup ratios),
    Apportion.floors, List.getElem?_map]
  · by_cases hi : i < ratios.length
    · rw [List.getElem?_eq_getElem hi, Option.map_some, Option.map_some, Option.map_some,
        Apportion.share, List.getD_eq_getElem?_getD, List.getElem?_eq_getElem hi, Option.getD_some]
      simp only [mem_take_remainderOrder hi]
      split_ifs <;> rfl
    · rw [List.getElem?_eq_none (by omega)]
      rfl
  · intro q hq
    have hmem : q ∈ Apportion.floors 1000 ratios.sum ratios := List.mem_of_getElem? hq
    have hqle := le_sum_of_mem hmem
    have hle := Apportion.sum_floors_le 1000 hpos
    omega

/-- The same for the whole vector, in a form that evaluates. -/
theorem normalize_eq_shares {ratios : List ℕ} (hpos : 0 < ratios.sum)
    (hfit : ratios.sum < 2 ^ 32) :
    normalize ratios = (List.range ratios.length).map (Apportion.share 1000 ratios) := by
  apply List.ext_getElem?
  intro i
  rw [getElem?_normalize hpos hfit, List.getElem?_map]
  by_cases hi : i < ratios.length
  · rw [List.getElem?_eq_getElem hi, List.getElem?_range hi, Option.map_some, Option.map_some]
  · have hrange : (List.range ratios.length)[i]? = none :=
      List.getElem?_eq_none (by rw [List.length_range]; omega)
    rw [List.getElem?_eq_none (by omega), hrange, Option.map_none, Option.map_none]

/-- Whatever their sum wraps to, each weight becomes its quotient by that, or one more. -/
theorem getElem?_normalize_wrapped {ratios : List ℕ} (hpos : 0 < u32 ratios.sum) {i r : ℕ}
    (hi : ratios[i]? = some r) (hfit : u16 (r * 1000 / u32 ratios.sum) + 1 < 2 ^ 16) :
    ∃ d ≤ 1, (normalize ratios)[i]? = some (u16 (r * 1000 / u32 ratios.sum) + d) := by
  have hne : ratios ≠ [] := by
    rintro rfl
    exact absurd hpos (by decide)
  have hentry : ((ratios.map fun r ↦ r * 1000 / u32 ratios.sum).map u16)[i]?
      = some (u16 (r * 1000 / u32 ratios.sum)) := by
    rw [List.getElem?_map, List.getElem?_map, hi, Option.map_some, Option.map_some]
  rw [normalize, if_neg hne]
  dsimp only
  rw [if_neg hpos.ne', getElem?_handOut _ _ _ ((serving_perm ratios _).nodup_iff.mpr
    List.nodup_range), hentry, Option.map_some]
  · split_ifs
    · exact ⟨1, le_rfl, rfl⟩
    · exact ⟨0, Nat.zero_le _, rfl⟩
  · rw [hentry]
    intro q hq
    obtain rfl := Option.some.inj hq
    exact hfit

/-- If their sum wraps to zero, each weight becomes an equal share, or one more. -/
theorem getElem?_normalize_zero {ratios : List ℕ} (hzero : u32 ratios.sum = 0) {i : ℕ}
    (hi : i < ratios.length) :
    ∃ d ≤ 1, (normalize ratios)[i]? = some (1000 / ratios.length + d) := by
  have hne : ratios ≠ [] := List.ne_nil_of_length_pos (by omega)
  have hbase : u16 (1000 / ratios.length) = 1000 / ratios.length :=
    Nat.mod_eq_of_lt (lt_of_le_of_lt (Nat.div_le_self _ _) (by decide))
  have hentry : (List.replicate ratios.length (1000 / ratios.length))[i]?
      = some (1000 / ratios.length) := by
    rw [List.getElem?_replicate, if_pos hi]
  rw [normalize, if_neg hne]
  dsimp only
  rw [if_pos hzero, hbase, getElem?_handOut _ _ _ List.nodup_range, hentry, Option.map_some]
  · split_ifs
    · exact ⟨1, le_rfl, rfl⟩
    · exact ⟨0, Nat.zero_le _, rfl⟩
  · rw [hentry]
    intro q hq
    obtain rfl := Option.some.inj hq
    have := Nat.div_le_self 1000 ratios.length
    omega

/-- Weights that sum to 1000 already are left alone. -/
theorem normalize_eq_self {ratios : List ℕ} (hsum : ratios.sum = 1000) :
    normalize ratios = ratios := by
  apply List.ext_getElem?
  intro i
  rw [getElem?_normalize (by omega) (by omega)]
  rcases Option.eq_none_or_eq_some ratios[i]? with h | ⟨r, h⟩
  · rw [h, Option.map_none]
  · have hfloors : Apportion.floors 1000 ratios.sum ratios = ratios := by
      rw [Apportion.floors, hsum]
      simp
    have hleft : Apportion.leftover 1000 ratios = 0 := by
      rw [Apportion.leftover, hfloors, hsum]
    rw [h, Option.map_some, Apportion.share, hleft, hsum, List.getD_eq_getElem?_getD, h]
    simp

/-- Weights that are all positive are no more in number than in sum. -/
theorem length_le_sum : ∀ {weights : List ℕ}, (∀ w ∈ weights, 0 < w) →
    weights.length ≤ weights.sum := by
  intro weights
  induction weights with
  | nil => intro _; exact le_rfl
  | cons w ws ih =>
    intro h
    rw [List.forall_mem_cons] at h
    have := ih h.2
    rw [List.length_cons, List.sum_cons]
    omega

end Kmux
