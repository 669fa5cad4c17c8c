import Kmux.Client.LayoutResize
import Kmux.Session.Weights

/-!
# What the server stores of a resize

A client previews a resize and sends the whole weight vector; the server clamps every weight to the
minimum, rescales the result to 1000 and stores that. The client moved two weights only and kept
both at the minimum, and its vector still sums to 1000. So the two agree where every other weight is
at the minimum too. A weight below it, which halving and rescaling do leave behind, is raised by the
server, and the rescaling that follows takes the units back from somewhere.

There are two exceptions. Twenty or forty weights that are one short of the minimum, behind weights
at exactly the minimum, are raised by one each and then lose that one again.
-/

namespace Kmux

/-- Weights at the minimum followed by weights one below, which the clamp and the rescaling bring
back to what they were. -/
def RoundsBack (weights : List ℕ) : Prop :=
  weights = List.replicate 31 minRatio ++ List.replicate 20 (minRatio - 1) ∨
    weights = List.replicate 12 minRatio ++ List.replicate 40 (minRatio - 1)

instance decidableRoundsBack (weights : List ℕ) : Decidable (RoundsBack weights) :=
  inferInstanceAs (Decidable (_ ∨ _))

/-! ## Equal weights -/

theorem rank_replicate {n w i : ℕ} (hi : i < n) :
    Apportion.rank 1000 (List.replicate n w) i = i := by
  have hrem : ∀ j < n, Apportion.remainder 1000 (List.replicate n w) j
      = w * 1000 % (List.replicate n w).sum := by
    intro j hj
    rw [Apportion.remainder, List.getD_eq_getElem?_getD, List.getElem?_replicate, if_pos hj,
      Option.getD_some]
  have hbefore : (Finset.range n).filter (fun j ↦ Apportion.Before 1000 (List.replicate n w) j i)
      = Finset.range i := by
    ext j
    rw [Finset.mem_filter, Finset.mem_range, Finset.mem_range]
    constructor
    · rintro ⟨hj, hlt | hlt⟩
      · rw [hrem i hi, hrem j hj] at hlt
        exact absurd hlt (lt_irrefl _)
      · exact hlt.2
    · intro hj
      exact ⟨hj.trans hi, .inr ⟨by rw [hrem i hi, hrem j (hj.trans hi)], hj⟩⟩
  rw [Apportion.rank, List.length_replicate, hbefore, Finset.card_range]

private theorem normalize_minima {n q m : ℕ} (hpos : 0 < n) (hn : n ≤ 1000)
    (hq : minRatio * 1000 / (n * minRatio) = q) (hm : 1000 - n * q = m) :
    normalize (List.replicate n minRatio)
      = (List.range n).map fun i ↦ q + if i < m then 1 else 0 := by
  have hsum : (List.replicate n minRatio).sum = n * minRatio := List.sum_replicate_nat
  have hbig : n ≤ n * minRatio := Nat.le_mul_of_pos_right n (by decide)
  have hsmall : n * minRatio ≤ 1000 * minRatio := Nat.mul_le_mul_right minRatio hn
  have hfit : 1000 * minRatio < 2 ^ 32 := by decide
  rw [normalize_eq_shares (by omega) (by omega), List.length_replicate]
  apply List.map_congr_left
  intro i hi
  rw [List.mem_range] at hi
  have hleft : Apportion.leftover 1000 (List.replicate n minRatio) = m := by
    rw [Apportion.leftover, Apportion.floors, List.map_replicate, List.sum_replicate_nat, hsum, hq,
      hm]
  rw [Apportion.share, rank_replicate hi, hleft, hsum, List.getD_eq_getElem?_getD,
    List.getElem?_replicate, if_pos hi, Option.getD_some, hq]

theorem RoundsBack.normalize_eq {weights : List ℕ} (h : RoundsBack weights) :
    normalize (weights.map (max minRatio)) = weights := by
  rcases h with rfl | rfl
  · have hclamp : (List.replicate 31 minRatio ++ List.replicate 20 (minRatio - 1)).map
        (max minRatio) = List.replicate 51 minRatio := by decide
    rw [hclamp,
      normalize_minima (q := 19) (m := 31) (by decide) (by decide) (by decide) (by decide)]
    decide
  · have hclamp : (List.replicate 12 minRatio ++ List.replicate 40 (minRatio - 1)).map
        (max minRatio) = List.replicate 52 minRatio := by decide
    rw [hclamp,
      normalize_minima (q := 19) (m := 12) (by decide) (by decide) (by decide) (by decide)]
    decide

/-! ## Which vectors the server stores unchanged -/

/-- Weights of two values in descending order: the larger ones, and then the smaller ones. -/
private theorem eq_replicate_append : ∀ {weights : List ℕ}, weights.Pairwise (· ≥ ·) →
    (∀ w ∈ weights, w = 20 ∨ w = 19) →
      ∃ m k, weights = List.replicate m 20 ++ List.replicate k 19 := by
  intro weights
  induction weights with
  | nil => intro _ _; exact ⟨0, 0, rfl⟩
  | cons w ws ih =>
    intro hsorted hvalues
    rw [List.pairwise_cons] at hsorted
    rw [List.forall_mem_cons] at hvalues
    rcases hvalues.1 with rfl | rfl
    · obtain ⟨m, k, rfl⟩ := ih hsorted.2 hvalues.2
      exact ⟨m + 1, k, rfl⟩
    · have hrest : ws = List.replicate ws.length 19 := by
        rw [List.eq_replicate_iff]
        refine ⟨rfl, fun x hx ↦ ?_⟩
        have hle := hsorted.1 x hx
        have hval := hvalues.2 x hx
        omega
      exact ⟨0, ws.length + 1, by rw [hrest, List.length_replicate]; rfl⟩

/-- A weight at the minimum or above that rescaling leaves alone is cut by one unit and rounded up.
The sum is then only a little above 1000. -/
private theorem high_arith {w sum : ℕ} {c : Prop} [Decidable c] (hbig : 1000 < sum) (hw : 20 ≤ w)
    (h : (w * 1000 / sum + if c then 1 else 0) = w) :
    c ∧ 19 * sum ≤ 20 * 1000 ∧ w * 1000 % sum + (w - 20) * (sum - 1000) + 19 * sum = 20 * 1000 := by
  have hlt : w * 1000 / sum < w :=
    Nat.div_lt_of_lt_mul (by rw [Nat.mul_comm]; exact Nat.mul_lt_mul_of_pos_right hbig (by omega))
  split_ifs at h with hc
  · have hdiv := Nat.div_add_mod (w * 1000) sum
    obtain ⟨k, rfl⟩ := Nat.exists_eq_add_of_le hw
    obtain ⟨s, rfl⟩ := Nat.exists_eq_add_of_lt hbig
    have hquot : (20 + k) * 1000 / (1000 + s + 1) = 19 + k := by omega
    rw [hquot, Nat.mul_add, Nat.mul_comm _ k] at hdiv
    have hexcess : (20 + k - 20) * (1000 + s + 1 - 1000) + k * 1000 = k * (1000 + s + 1) := by
      rw [Nat.add_sub_cancel_left, Nat.add_assoc, Nat.add_sub_cancel_left, ← Nat.mul_add,
        Nat.add_comm]
    exact ⟨hc, by omega, by omega⟩
  · omega

/-- A weight below the minimum that the clamp and the rescaling leave alone is one below. -/
private theorem low_arith {w sum : ℕ} {c : Prop} [Decidable c] (hbig : 1000 < sum)
    (hsmall : 19 * sum ≤ 20 * 1000) (hw : w < 20)
    (h : (20 * 1000 / sum + if c then 1 else 0) = w) :
    w = 19 ∧ ¬c ∧ 20 * 1000 % sum + 19 * sum = 20 * 1000 := by
  have hquot : 20 * 1000 / sum = 19 := Nat.div_eq_of_lt_le (by omega) (by omega)
  have hdiv := Nat.div_add_mod (20 * 1000) sum
  rw [hquot] at hdiv h
  split_ifs at h with hc
  · omega
  · exact ⟨h.symm, hc, by omega⟩

section Fixed

variable {weights : List ℕ} {i j : ℕ}

private theorem getD_eq (hi : i < weights.length) : weights.getD i 0 = weights[i] := by
  rw [List.getD_eq_getElem?_getD, List.getElem?_eq_getElem hi, Option.getD_some]

private theorem getD_clamped (hi : i < weights.length) :
    (weights.map (max minRatio)).getD i 0 = max minRatio (weights.getD i 0) := by
  rw [List.getD_eq_getElem?_getD, List.getElem?_map, List.getD_eq_getElem?_getD,
    List.getElem?_eq_getElem hi, Option.map_some, Option.getD_some, Option.getD_some]

variable (hbig : 1000 < (weights.map (max minRatio)).sum)
  (hfit : (weights.map (max minRatio)).sum < 2 ^ 32)
  (hfixed : normalize (weights.map (max minRatio)) = weights)

include hbig hfit hfixed

/-- What the server stores at one position, if it stores the weights unchanged. -/
private theorem share_of_fixed (hi : i < weights.length) :
    (max minRatio (weights.getD i 0) * 1000 / (weights.map (max minRatio)).sum
      + if Apportion.rank 1000 (weights.map (max minRatio)) i
          < Apportion.leftover 1000 (weights.map (max minRatio)) then 1 else 0)
      = weights.getD i 0 := by
  have hentry := getElem?_normalize (by omega) hfit i
  have hsome : (weights.map (max minRatio))[i]? = some (max minRatio weights[i]) := by
    rw [List.getElem?_map, List.getElem?_eq_getElem hi, Option.map_some]
  rw [hfixed, hsome, Option.map_some, Apportion.share, getD_clamped hi] at hentry
  conv_rhs => rw [List.getD_eq_getElem?_getD, hentry, Option.getD_some]

/-- Beside one weight at the minimum or above: that weight is the minimum, every weight below it is
one below, and comes later. -/
private theorem pair_of_fixed (hi : i < weights.length) (hj : j < weights.length)
    (hhigh : minRatio ≤ weights.getD i 0) (hlow : weights.getD j 0 < minRatio) :
    weights.getD i 0 = 20 ∧ weights.getD j 0 = 19 ∧ i < j ∧
      19 * (weights.map (max minRatio)).sum ≤ 20 * 1000 := by
  have hsharei := share_of_fixed hbig hfit hfixed hi
  have hsharej := share_of_fixed hbig hfit hfixed hj
  rw [max_eq_right hhigh] at hsharei
  rw [max_eq_left hlow.le] at hsharej
  obtain ⟨hserved, hsmall, hremi⟩ := high_arith hbig hhigh hsharei
  obtain ⟨hone, hnot, hremj⟩ := low_arith hbig hsmall hlow hsharej
  -- the one that got a unit was not behind the one that did not
  have hnotbefore : ¬Apportion.Before 1000 (weights.map (max minRatio)) j i := by
    intro hbefore
    have := Apportion.rank_lt_rank (by rwa [List.length_map]) hbefore
    omega
  rw [Apportion.Before, Apportion.remainder, Apportion.remainder, getD_clamped hi, getD_clamped hj,
    max_eq_right hhigh, max_eq_left hlow.le] at hnotbefore
  have hmin : minRatio = 20 := rfl
  generalize (weights.map (max minRatio)).sum = sum at *
  rw [hmin] at hhigh hlow hnotbefore
  have hexact : weights.getD i 0 = 20 := by
    by_contra hne
    have hprod : 0 < (weights.getD i 0 - 20) * (sum - 1000) := Nat.mul_pos (by omega) (by omega)
    omega
  have hij : i ≠ j := by
    rintro rfl
    omega
  rw [hexact] at hremi hnotbefore
  exact ⟨hexact, hone, by omega, hsmall⟩

end Fixed

private theorem sum_clamped_le (weights : List ℕ) :
    (weights.map (max minRatio)).sum ≤ weights.sum + weights.length * minRatio := by
  induction weights with
  | nil => exact Nat.zero_le _
  | cons w ws ih =>
    have hmax : max minRatio w ≤ w + minRatio := max_le (Nat.le_add_left _ _) (Nat.le_add_right _ _)
    rw [List.map_cons, List.sum_cons, List.sum_cons, List.length_cons, Nat.add_mul]
    omega

/-- Where so many weights are raised that their sum wraps, the result is not what it was. -/
private theorem not_fixed_of_wrapped {weights : List ℕ} {i : ℕ} (hsum : weights.sum = 1000)
    (hi : i < weights.length) (hhigh : minRatio ≤ weights.getD i 0)
    (hwrap : 2 ^ 32 ≤ (weights.map (max minRatio)).sum) :
    normalize (weights.map (max minRatio)) ≠ weights := by
  intro hfixed
  have hmin : minRatio = 20 := rfl
  have hlen : 1000 < weights.length := by
    have hle := sum_clamped_le weights
    generalize (weights.map (max minRatio)).sum = sum at hle hwrap
    rw [hmin] at hle
    omega
  have hget : ∀ {k : ℕ}, k < weights.length → (weights.map (max minRatio))[k]?
      = some (max minRatio (weights.getD k 0)) := by
    intro k hk
    rw [List.getElem?_map, getD_eq hk, List.getElem?_eq_getElem hk, Option.map_some]
  have hentry : ∀ {k : ℕ}, k < weights.length → weights[k]? = some (weights.getD k 0) := by
    intro k hk
    rw [getD_eq hk, List.getElem?_eq_getElem hk]
  have hle : weights.getD i 0 ≤ 1000 := by
    rw [getD_eq hi, ← hsum]
    exact le_sum_of_mem (List.getElem_mem hi)
  -- more weights than permille: one of them is zero
  obtain ⟨j, hj, hzero⟩ : ∃ j < weights.length, weights.getD j 0 = 0 := by
    by_contra hno
    have hpos : ∀ w ∈ weights, 0 < w := by
      intro w hw
      obtain ⟨j, hj, rfl⟩ := List.mem_iff_getElem.mp hw
      rw [← getD_eq hj]
      exact Nat.pos_of_ne_zero fun h ↦ hno ⟨j, hj, h⟩
    have := length_le_sum hpos
    omega
  rcases Nat.eq_zero_or_pos (u32 (weights.map (max minRatio)).sum) with hs | hs
  · obtain ⟨d, hd, hi'⟩ := getElem?_normalize_zero hs (i := i) (by rwa [List.length_map])
    rw [hfixed, hentry hi, List.length_map, Nat.div_eq_of_lt hlen, Option.some.injEq] at hi'
    omega
  · have hquotj :
        u16 (max minRatio (weights.getD j 0) * 1000 / u32 (weights.map (max minRatio)).sum)
        = 20 * 1000 / u32 (weights.map (max minRatio)).sum := by
      rw [hzero]
      exact Nat.mod_eq_of_lt (lt_of_le_of_lt (Nat.div_le_self _ _) (by decide))
    have hsmall := Nat.div_le_self (20 * 1000) (u32 (weights.map (max minRatio)).sum)
    obtain ⟨d, -, hj'⟩ := getElem?_normalize_wrapped hs (hget hj) (by rw [hquotj]; omega)
    rw [hfixed, hentry hj, hquotj, hzero, Option.some.injEq] at hj'
    have hbig : 20 * 1000 < u32 (weights.map (max minRatio)).sum := by
      by_contra hle
      have := Nat.div_pos (not_lt.mp hle) hs
      omega
    have hquoti : max minRatio (weights.getD i 0) * 1000 / u32 (weights.map (max minRatio)).sum
        ≤ weights.getD i 0 * 1000 / (20 * 1000) := by
      rw [max_eq_right hhigh]
      exact Nat.div_le_div_left hbig.le (by decide)
    have hmod : u16 (max minRatio (weights.getD i 0) * 1000 / u32 (weights.map (max minRatio)).sum)
        = max minRatio (weights.getD i 0) * 1000 / u32 (weights.map (max minRatio)).sum :=
      Nat.mod_eq_of_lt (by omega)
    obtain ⟨d', hd', hi'⟩ := getElem?_normalize_wrapped hs (hget hi) (by rw [hmod]; omega)
    rw [hfixed, hentry hi, hmod, Option.some.injEq] at hi'
    omega

/-- **Stored unchanged.** A vector that sums to 1000 and has a weight at the minimum or above is
left alone by the clamp and the rescaling if and only if every weight is at the minimum or above, or
it is one of two vectors that round back. -/
theorem normalize_clamped_iff {weights : List ℕ} {i : ℕ} (hsum : weights.sum = 1000)
    (hi : i < weights.length) (hhigh : minRatio ≤ weights.getD i 0) :
    normalize (weights.map (max minRatio)) = weights ↔
      (∀ w ∈ weights, minRatio ≤ w) ∨ RoundsBack weights := by
  constructor
  · intro hfixed
    have hfit : (weights.map (max minRatio)).sum < 2 ^ 32 :=
      not_le.mp fun hwrap ↦ not_fixed_of_wrapped hsum hi hhigh hwrap hfixed
    by_cases hall : ∀ w ∈ weights, minRatio ≤ w
    · exact .inl hall
    right
    rw [not_forall] at hall
    obtain ⟨w, hw⟩ := hall
    obtain ⟨hw, hlow⟩ := Classical.not_imp.mp hw
    rw [not_le] at hlow
    -- the clamp raised a weight, so there is something to scale back
    have hbig : 1000 < (weights.map (max minRatio)).sum := by
      have hlt := List.sum_lt_sum id (max minRatio) (fun x _ ↦ le_max_right minRatio x)
        ⟨w, hw, hlow.trans_le (le_max_left _ _)⟩
      rwa [List.map_id, hsum] at hlt
    obtain ⟨j, hj, rfl⟩ := List.mem_iff_getElem.mp hw
    rw [← getD_eq hj] at hlow
    have hvalue : ∀ k < weights.length, weights.getD k 0 = 20 ∨ weights.getD k 0 = 19 := by
      intro k hk
      by_cases hkhigh : minRatio ≤ weights.getD k 0
      · exact .inl (pair_of_fixed hbig hfit hfixed hk hj hkhigh hlow).1
      · exact .inr (pair_of_fixed hbig hfit hfixed hi hk hhigh (not_le.mp hkhigh)).2.1
    -- rounding gives its units to the front, so the larger weights come first
    have hsorted : weights.Pairwise (· ≥ ·) := by
      rw [List.pairwise_iff_getElem]
      intro k l hk hl hkl
      rw [← getD_eq hk, ← getD_eq hl]
      by_contra hlt
      have hkval := hvalue k hk
      have hlval := hvalue l hl
      have hmin : minRatio = 20 := rfl
      have horder := (pair_of_fixed hbig hfit hfixed hl hk (by omega) (by omega)).2.2.1
      omega
    obtain ⟨m, k, rfl⟩ := eq_replicate_append hsorted fun x hx ↦ by
      obtain ⟨l, hl, rfl⟩ := List.mem_iff_getElem.mp hx
      rw [← getD_eq hl]
      exact hvalue l hl
    have hsmall := (pair_of_fixed hbig hfit hfixed hi hj hhigh hlow).2.2.2
    have hclamped : ((List.replicate m 20 ++ List.replicate k 19).map (max minRatio)).sum
        = m * 20 + k * 20 := by
      rw [List.map_append, List.map_replicate, List.map_replicate, List.sum_append,
        List.sum_replicate_nat, List.sum_replicate_nat]
      rfl
    rw [hclamped] at hbig hsmall
    rw [List.sum_append, List.sum_replicate_nat, List.sum_replicate_nat] at hsum
    -- twenties and nineteens that sum to 1000, in the range that rounds back
    obtain ⟨rfl, rfl⟩ | ⟨rfl, rfl⟩ : (m = 31 ∧ k = 20) ∨ (m = 12 ∧ k = 40) := by omega
    · exact .inl rfl
    · exact .inr rfl
  · rintro (hall | hback)
    · have hclamp : weights.map (max minRatio) = weights := by
        conv_rhs => rw [← List.map_id weights]
        exact List.map_congr_left fun w hw ↦ max_eq_right (hall w hw)
      rw [hclamp, normalize_eq_self hsum]
    · exact hback.normalize_eq

/-! ## Two neighbours of a vector -/

theorem RoundsBack.le {weights : List ℕ} (h : RoundsBack weights) :
    ∀ w ∈ weights, w ≤ minRatio := by
  intro w hw
  rcases h with rfl | rfl
  all_goals
    rw [List.mem_append, List.mem_replicate, List.mem_replicate] at hw
    omega

/-- Two neighbours that round back have the minimum each. -/
private theorem roundsBack_set_iff {old : List ℕ} {a b x y : ℕ} (hab : a ≠ b) (ha : a < old.length)
    (hb : b < old.length) (hx : minRatio ≤ x) (hy : minRatio ≤ y)
    (hxy : x + y = old.getD a 0 + old.getD b 0) :
    RoundsBack ((old.set a x).set b y) ↔
      old.getD a 0 + old.getD b 0 = 2 * minRatio ∧
        RoundsBack ((old.set a minRatio).set b minRatio) := by
  constructor
  · intro h
    have hymem : y ∈ (old.set a x).set b y := List.mem_set (by rwa [List.length_set]) y
    have hxmem : x ∈ (old.set a x).set b y := by
      rw [List.set_comm _ _ hab]
      exact List.mem_set (by rwa [List.length_set]) x
    obtain rfl : x = minRatio := le_antisymm (h.le x hxmem) hx
    obtain rfl : y = minRatio := le_antisymm (h.le _ hymem) hy
    exact ⟨by omega, h⟩
  · rintro ⟨htotal, h⟩
    obtain rfl : x = minRatio := by omega
    obtain rfl : y = minRatio := by omega
    exact h

/-- Two neighbours that keep the minimum: what is left to check are the others. -/
private theorem forall_set_iff {old : List ℕ} {a b x y : ℕ} (hx : minRatio ≤ x)
    (hy : minRatio ≤ y) :
    (∀ w ∈ (old.set a x).set b y, minRatio ≤ w) ↔
      ∀ i < old.length, i ≠ a → i ≠ b → minRatio ≤ old.getD i 0 := by
  constructor
  · intro h i hi hia hib
    have hget : ((old.set a x).set b y)[i]? = some (old.getD i 0) := by
      rw [List.getElem?_set_ne (Ne.symm hib), List.getElem?_set_ne (Ne.symm hia), getD_eq hi,
        List.getElem?_eq_getElem hi]
    exact h _ (List.mem_of_getElem? hget)
  · intro h w hw
    obtain ⟨i, hi, rfl⟩ := List.mem_iff_getElem.mp hw
    rw [List.length_set, List.length_set] at hi
    rw [List.getElem_set, List.getElem_set]
    split_ifs with hib hia
    · exact hy
    · exact hx
    · rw [← getD_eq hi]
      exact h i hi (Ne.symm hia) (Ne.symm hib)

namespace LayoutNode

/-! ## Agreement -/

/-- The server accepts the weights at the path and stores them as they are. -/
def Agreed (t : LayoutNode) (path newRatios : List ℕ) : Prop :=
  (setRatios newRatios path t).2 = true ∧
    ∃ dir cs, nodeAt path (setRatios newRatios path t).1 = some (.split dir newRatios cs)

theorem setRatios_nodeAt {newRatios : List ℕ} {dir : SplitDir} {ratios : List ℕ}
    {cs : List LayoutNode} : ∀ (path : List ℕ) {t : LayoutNode},
      nodeAt path t = some (.split dir ratios cs) → newRatios.length = cs.length →
        (setRatios newRatios path t).2 = true ∧ nodeAt path (setRatios newRatios path t).1
          = some (.split dir (normalize (newRatios.map (max minRatio))) cs) := by
  intro path
  induction path with
  | nil =>
    intro t ht hlen
    rw [nodeAt, Option.some.injEq] at ht
    rw [ht, setRatios, if_neg (not_not.mpr hlen)]
    exact ⟨rfl, rfl⟩
  | cons idx path ih =>
    intro t ht hlen
    cases t with
    | leaf p => rw [nodeAt] at ht; cases ht
    | split dir' ratios' cs' =>
      rw [nodeAt] at ht
      rcases Option.eq_none_or_eq_some cs'[idx]? with hget | ⟨child, hget⟩
      · rw [hget] at ht
        cases ht
      · rw [hget] at ht
        obtain ⟨haccepted, hstored⟩ := ih ht hlen
        have hidx := (List.getElem?_eq_some_iff.mp hget).1
        rw [setRatios, hget]
        refine ⟨haccepted, ?_⟩
        rw [nodeAt, List.getElem?_set_self hidx]
        exact hstored

/-- The condition on a split and the two neighbours that trade: every other weight is at the minimum
or above; or the two have just the minimum each between them, and with that the weights round
back. -/
def Settles (ratios : List ℕ) (a b : ℕ) : Prop :=
  (∀ i < ratios.length, i ≠ a → i ≠ b → minRatio ≤ ratios.getD i 0) ∨
    ratios.getD a 0 + ratios.getD b 0 = 2 * minRatio ∧
      RoundsBack ((ratios.set a minRatio).set b minRatio)

instance decidableSettles (ratios : List ℕ) (a b : ℕ) : Decidable (Settles ratios a b) :=
  inferInstanceAs (Decidable (_ ∨ _ ∧ _))

/-- A trade is stored unchanged if and only if its input settles. -/
theorem agreed_iff {t : LayoutNode} {path old new : List ℕ} {dir : SplitDir} {cs : List LayoutNode}
    {a b : ℕ} (hnode : nodeAt path t = some (.split dir old cs)) (hlen : cs.length = old.length)
    (hsum : old.sum = 1000) (hab : a ≠ b) (ha : a < old.length) (hb : b < old.length)
    (htrade : Traded old a b new) : t.Agreed path new ↔ Settles old a b := by
  have hstored : t.Agreed path new ↔ normalize (new.map (max minRatio)) = new := by
    obtain ⟨haccepted, hstored⟩ := setRatios_nodeAt path hnode
      (show new.length = cs.length by rw [htrade.length_eq, hlen])
    rw [Agreed, hstored]
    constructor
    · rintro ⟨-, dir', cs', heq⟩
      rw [Option.some.injEq, split.injEq] at heq
      exact heq.2.1
    · intro heq
      exact ⟨haccepted, dir, cs, by rw [heq]⟩
  have hnewsum : new.sum = 1000 := (htrade.sum_eq hab ha hb).trans hsum
  obtain ⟨x, y, hx, hy, hxy, rfl⟩ := htrade
  have hget : ((old.set a x).set b y).getD a 0 = x := by
    rw [getD_set_ne y (Ne.symm hab), getD_set_self x ha]
  have hlow : minRatio ≤ ((old.set a x).set b y).getD a 0 := by rwa [hget]
  have hlt : a < ((old.set a x).set b y).length := by rwa [List.length_set, List.length_set]
  rw [hstored, normalize_clamped_iff hnewsum hlt hlow, Settles, forall_set_iff hx hy,
    roundsBack_set_iff hab ha hb hx hy hxy]

/-! ## Both ways to resize -/

/-- However far a pointer is, the clamp keeps the minimum on both sides. -/
private theorem clamped_traded {ratios : List ℕ} {a b : ℕ}
    (hfit : ratios.getD a 0 + ratios.getD b 0 < 2 ^ 16)
    (hpair : ¬(ratios.getD a 0 + ratios.getD b 0 : ℤ) < minResizeRatio * 2) (z : ℤ) :
    Traded ratios a b ((ratios.set a (i32ToU16 (clamp z minResizeRatio
      ((ratios.getD a 0 + ratios.getD b 0 : ℤ) - minResizeRatio)))).set b
        (i32ToU16 ((ratios.getD a 0 + ratios.getD b 0 : ℤ) - clamp z minResizeRatio
          ((ratios.getD a 0 + ratios.getD b 0 : ℤ) - minResizeRatio)))) := by
  obtain ⟨hlo, hhi⟩ := clamp_mem z
    (show minResizeRatio ≤ (ratios.getD a 0 + ratios.getD b 0 : ℤ) - minResizeRatio by omega)
  obtain ⟨hx, hy, hxy, -⟩ := traded_of_clamp hfit hlo (by push_cast; exact hhi)
  push_cast at hy hxy
  exact ⟨_, _, hx, hy, hxy, rfl⟩

/-- The split a drag addresses, and that it trades between the two children of the divider. -/
theorem ratiosForDrag_cases {t : LayoutNode} (ht : t.WellFormed) {div : Divider} {pointerCell : ℕ}
    {new : List ℕ} (h : ratiosForDrag t div pointerCell = some new) :
    ∃ ratios cs, nodeAt div.path t = some (.split div.dir ratios cs) ∧
      cs.length = ratios.length ∧ ratios.sum = 1000 ∧ div.before + 1 < ratios.length ∧
      Traded ratios div.before (div.before + 1) new := by
  rw [ratiosForDrag] at h
  rcases Option.eq_none_or_eq_some (nodeAt div.path t) with hnode | ⟨node, hnode⟩
  · rw [hnode] at h
    cases h
  rw [hnode] at h
  cases weighted_nodeAt div.path ht hnode with
  | leaf p => cases h
  | split dir two arity weights below =>
    rename_i ratios cs
    dsimp only at h
    by_cases hdir : dir = div.dir
    · subst hdir
      rw [if_neg (not_not.mpr rfl)] at h
      by_cases hbefore : cs.length ≤ div.before + 1
      · rw [if_pos hbefore] at h
        cases h
      rw [if_neg hbefore] at h
      have hfit : ratios.getD div.before 0 + ratios.getD (div.before + 1) 0 ≤ ratios.sum :=
        getD_add_getD_le (by omega) (by omega)
      -- two neighbours too narrow for two minima are not dragged
      by_cases hpair : (ratios.getD div.before 0 + ratios.getD (div.before + 1) 0 : ℤ)
          < minResizeRatio * 2
      · rw [if_pos hpair] at h
        cases h
      rw [if_neg hpair] at h
      split at h
      · cases h
      · obtain rfl := Option.some.inj h
        exact ⟨ratios, cs, hnode, arity.symm, weights, by omega,
          clamped_traded (by omega) hpair _⟩
    · rw [if_pos hdir] at h
      cases h

/-- **Agreement.** A keyboard resize and a drag are each accepted by the server at the path they
name, and stored as the client previewed them, if and only if the weights of the split they change
settle. -/
theorem resize_agreed_iff {t : LayoutNode} (ht : t.Reachable) :
    (∀ (focused : ℕ) (dir : FocusDir) (step : ℕ) (path new : List ℕ),
      resizeSplit t focused dir step = some (path, new) → ∃ child ratios cs,
        nearestSplitOnAxis t focused dir.axis = some (path, child) ∧
        nodeAt path t = some (.split dir.axis ratios cs) ∧
        (t.Agreed path new ↔ Settles ratios child (neighbor child cs.length))) ∧
    ∀ (div : Divider) (pointerCell : ℕ) (new : List ℕ),
      ratiosForDrag t div pointerCell = some new → ∃ ratios cs,
        nodeAt div.path t = some (.split div.dir ratios cs) ∧
        (t.Agreed div.path new ↔ Settles ratios div.before (div.before + 1)) := by
  have hwf := ht.invariant.1
  constructor
  · intro focused dir step path new h
    obtain ⟨child, ratios, cs, hnear, hnode, hlen, htwo, hsum, hchild, hne, rfl⟩ :=
      resizeSplit_cases hwf h
    obtain ⟨hlt, hother⟩ := neighbor_lt htwo hchild
    have hfit := getD_add_getD_le (Ne.symm hother) hchild
    obtain ⟨x, y, hx, hy, hxy, hnew, -⟩ := shiftPair_spec (by omega) hne
    refine ⟨child, ratios, cs, hnear, hnode, ?_⟩
    rw [hlen]
    exact agreed_iff hnode hlen hsum hother.symm hchild hlt ⟨x, y, hx, hy, hxy, hnew⟩
  · intro div pointerCell new h
    obtain ⟨ratios, cs, hnode, hlen, hsum, hbefore, htrade⟩ := ratiosForDrag_cases hwf h
    exact ⟨ratios, cs, hnode,
      agreed_iff hnode hlen hsum (by omega) (by omega) hbefore htrade⟩

/-- The hypothesis can be met: of two panes side by side, the right one grows. -/
theorem resize_agreed_of_two_panes : sideBySide.Agreed [] [450, 550] := by
  obtain ⟨child, ratios, cs, hnear, hnode, hiff⟩ := (resize_agreed_iff reachable_sideBySide).1 1
    .right 50 [] [450, 550] (by decide)
  obtain rfl : child = 1 := by
    have hchild : nearestSplitOnAxis sideBySide 1 .horizontal = some ([], 1) := by decide
    exact (Prod.mk.inj (Option.some.inj (hnear.symm.trans hchild))).2
  cases hnode
  exact hiff.mpr (by decide)

/-- Three panes side by side, of which the first was given all the weight. -/
def crowded : LayoutNode := .split .horizontal [1000, 0, 0] [.leaf 0, .leaf 1, .leaf 2]

theorem reachable_crowded : crowded.Reachable := by
  have hsplit : (split .horizontal [500, 500] [.leaf 0, .leaf 1]).step (.split 1 2 .horizontal)
      = split .horizontal [500, 250, 250] [.leaf 0, .leaf 1, .leaf 2] := by
    have hkeep : normalize [500, 250, 250] = [500, 250, 250] := normalize_eq_self (by decide)
    change split .horizontal (normalize [500, 250, 250]) [.leaf 0, .leaf 1, .leaf 2] = _
    rw [hkeep]
  have hweights : (split .horizontal [500, 250, 250] [.leaf 0, .leaf 1, .leaf 2]).step
      (.setRatios [] [65535, 0, 0]) = crowded := by
    have hrescale : normalize ([65535, 0, 0].map (max minRatio)) = [1000, 0, 0] := by
      rw [normalize_eq_shares (by decide) (by decide)]
      decide
    rw [step, apply, setRatios, if_neg (by decide), hrescale, crowded]
  refine ⟨0, [.split 0 1 .horizontal, .split 1 2 .horizontal, .setRatios [] [65535, 0, 0]], ?_, ?_⟩
  · refine ⟨⟨?_, trivial⟩, ⟨?_, trivial⟩, ⟨?_, by rw [LayoutOp.Fits]; decide⟩, trivial⟩
    · intro p hp
      obtain rfl := List.mem_singleton.mp hp
      simp [single]
    · intro p hp
      obtain rfl := List.mem_singleton.mp hp
      change 2 ∉ (split .horizontal [500, 500] [.leaf 0, .leaf 1]).leaves
      simp
    · intro p hp
      exact absurd hp List.not_mem_nil
  · rw [Run.exec_cons, Run.exec_cons, Run.exec_cons, Run.exec_nil, ← hweights, ← hsplit]
    rfl

/-- Growing the first pane keeps the second at the minimum. The server raises the third as well, and
takes from the others what that adds. -/
theorem resize_not_agreed : crowded.Reachable ∧
    resizeSplit crowded 0 .right 50 = some ([], [980, 20, 0]) ∧
      ¬crowded.Agreed [] [980, 20, 0] := by
  refine ⟨reachable_crowded, by decide, ?_⟩
  have htrade : Traded [1000, 0, 0] 0 1 [980, 20, 0] := ⟨980, 20, by decide, by decide, rfl, rfl⟩
  have hiff : crowded.Agreed [] [980, 20, 0] ↔ Settles [1000, 0, 0] 0 1 :=
    agreed_iff rfl rfl rfl (by decide) (by decide) (by decide) htrade
  rw [hiff]
  decide

end LayoutNode

end Kmux
