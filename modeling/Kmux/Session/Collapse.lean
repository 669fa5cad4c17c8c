import Kmux.Session.Weights

/-!
# Children that collapse

The module declares a lowest weight, so that no pane is collapsed to nothing by a resize. Only
`setRatios` looks at it, and it clamps before it rescales: a weight next to a large enough sibling
is clamped to the minimum and then rescaled to zero. A split halves a weight whatever it is, down to
zero after ten splits of one leaf. A preset of more than 1000 panes has no permille for each of
them. And a removal that brings 51 children down to 50 raises the floor under those that remain.

Where every step keeps clear of these, no child of any split collapses along the whole run.
-/

namespace Kmux

/-- The lowest weight for a child among `n`: the declared minimum, or one if 1000 is too little for
the minimum of each. -/
def floorFor (n : ℕ) : ℕ := if minRatio * n ≤ 1000 then minRatio else 1

theorem floorFor_pos (n : ℕ) : 0 < floorFor n := by
  rw [floorFor, minRatio]
  split_ifs <;> omega

theorem floorFor_succ_le (n : ℕ) : floorFor (n + 1) ≤ floorFor n := by
  rw [floorFor, floorFor, minRatio]
  split_ifs <;> omega

/-- The floor rises only where the last child too many goes. -/
theorem floorFor_succ {n : ℕ} (h : n ≠ 50) : floorFor (n + 1) = floorFor n := by
  rw [floorFor, floorFor, minRatio]
  split_ifs <;> omega

/-- The exact share of 1000 of each weight reaches the floor, or misses it by less than a unit and
is rounded up by largest remainder. -/
def Reaches (floor : ℕ) (weights : List ℕ) : Prop :=
  ∀ i < weights.length, floor * weights.sum ≤ weights.getD i 0 * 1000 ∨
    floor * weights.sum ≤ weights.getD i 0 * 1000 + weights.sum ∧
      Apportion.rank 1000 weights i < Apportion.leftover 1000 weights

instance decidableReaches (floor : ℕ) (weights : List ℕ) : Decidable (Reaches floor weights) :=
  inferInstanceAs (Decidable (∀ i < weights.length, _))

/-- Weights that sum to 1000, each of them at its floor at least. -/
def Upright (ratios : List ℕ) : Prop := ratios.sum = 1000 ∧ ∀ r ∈ ratios, floorFor ratios.length ≤ r

theorem upright_pair : Upright [500, 500] := by
  refine ⟨rfl, ?_⟩
  decide

/-- Rescaling keeps the weights up that reach their floor. -/
theorem upright_normalize {weights : List ℕ} (hpos : 0 < weights.sum) (hfit : weights.sum < 2 ^ 32)
    (h : Reaches (floorFor weights.length) weights) : Upright (normalize weights) := by
  have hne : weights ≠ [] := by
    rintro rfl
    exact absurd hpos (by simp)
  refine ⟨sum_normalize hne hfit, ?_⟩
  intro r hr
  obtain ⟨i, hi⟩ := List.mem_iff_getElem?.mp hr
  rw [getElem?_normalize hpos hfit] at hi
  obtain ⟨w, hw, rfl⟩ := Option.map_eq_some_iff.mp hi
  rw [length_normalize, Apportion.le_share_iff hpos]
  exact h i (List.getElem?_eq_some_iff.mp hw).1

/-- Weights of at most 1000 in all only grow, so they reach whatever floor they stand on. -/
theorem reaches_of_sum_le {floor : ℕ} {weights : List ℕ} (hsum : weights.sum ≤ 1000)
    (h : ∀ w ∈ weights, floor ≤ w) : Reaches floor weights := by
  intro i hi
  have hget : weights.getD i 0 ∈ weights := by
    rw [List.getD_eq_getElem?_getD, List.getElem?_eq_getElem hi]
    exact List.getElem_mem hi
  exact .inl (Nat.mul_le_mul (h _ hget) hsum)

theorem Upright.length_le {ratios : List ℕ} (h : Upright ratios) : ratios.length ≤ 1000 := by
  rw [← h.1]
  exact length_le_sum fun r hr ↦ (floorFor_pos _).trans_le (h.2 r hr)

namespace LayoutNode

/-! ## Splits -/

/-- Halving a weight that is twice the floor of the split it leaves keeps all weights up. -/
theorem upright_halved {ratios : List ℕ} {pos : ℕ} (h : Upright ratios) (hpos : pos < ratios.length)
    (hhalf : 2 * floorFor (ratios.length + 1) ≤ ratios.getD pos 0) :
    Upright (normalize (halved ratios pos)) := by
  have hsum : (halved ratios pos).sum = 1000 := (sum_halved hpos).trans h.1
  rw [normalize_eq_self hsum]
  refine ⟨hsum, ?_⟩
  intro r hr
  rw [length_halved hpos]
  rw [halved, (List.perm_insertIdx _ _ (by rw [List.length_set]; omega)).mem_iff,
    List.mem_cons] at hr
  rcases hr with rfl | hr
  · omega
  · rcases List.mem_or_eq_of_mem_set hr with hr | rfl
    · exact (floorFor_succ_le _).trans (h.2 r hr)
    · omega

/-! ## Removals -/

/-- Where a child goes, the others take over its weight. -/
theorem upright_eraseIdx {ratios : List ℕ} {pos : ℕ} (h : Upright ratios)
    (hpos : pos < ratios.length) (hlen : 2 < ratios.length)
    (hfloor : ratios.length = 51 → Reaches minRatio (ratios.eraseIdx pos)) :
    Upright (normalize (ratios.eraseIdx pos)) := by
  have herase := List.length_eraseIdx_of_lt hpos
  have hle : (ratios.eraseIdx pos).sum ≤ 1000 := h.1 ▸ sum_eraseIdx_le ratios pos
  have hup : ∀ w ∈ ratios.eraseIdx pos, floorFor ratios.length ≤ w := fun w hw ↦
    h.2 w (List.mem_of_mem_eraseIdx hw)
  have hsum : 0 < (ratios.eraseIdx pos).sum := by
    have := length_le_sum fun w hw ↦ (floorFor_pos _).trans_le (hup w hw)
    omega
  apply upright_normalize hsum (by omega)
  by_cases hmany : ratios.length = 51
  · rw [herase, hmany]
    exact hfloor hmany
  · have hsame : floorFor (ratios.eraseIdx pos).length = floorFor ratios.length := by
      rw [← floorFor_succ (by omega), herase, Nat.sub_add_cancel (by omega)]
    rw [hsame]
    exact reaches_of_sum_le hle hup

/-! ## Weights asked for -/

/-- Weights of at most 1000 children do not wrap when they are added up. -/
theorem upright_clamped {newRatios : List ℕ} (hne : newRatios ≠ []) (hlen : newRatios.length ≤ 1000)
    (hwire : ∀ r ∈ newRatios, r < 2 ^ 16)
    (h : Reaches (floorFor newRatios.length) (newRatios.map (max minRatio))) :
    Upright (normalize (newRatios.map (max minRatio))) := by
  have hle : (newRatios.map (max minRatio)).sum
      ≤ (newRatios.map (max minRatio)).length * 2 ^ 16 := by
    apply List.sum_le_card_nsmul _ (2 ^ 16)
    rw [List.forall_mem_map]
    intro r hr
    have := hwire r hr
    rw [minRatio]
    omega
  rw [List.length_map] at hle
  apply upright_normalize
  · obtain ⟨r, rest, rfl⟩ := List.exists_cons_of_ne_nil hne
    rw [List.map_cons, List.sum_cons, minRatio]
    omega
  · omega
  · rwa [List.length_map]

/-! ## Presets -/

theorem upright_even {n : ℕ} (hpos : 0 < n) (hn : n ≤ 1000) :
    Upright (normalize (List.replicate n (u16 (1000 / n)))) := by
  have hbase : u16 (1000 / n) = 1000 / n :=
    Nat.mod_eq_of_lt (lt_of_le_of_lt (Nat.div_le_self _ _) (by decide))
  have hone : 1 ≤ 1000 / n := (Nat.one_le_div_iff hpos).mpr hn
  have hsum : (List.replicate n (1000 / n)).sum = n * (1000 / n) := List.sum_replicate_nat
  have hle := Nat.mul_div_le 1000 n
  rw [hbase]
  apply upright_normalize
  · rw [hsum]
    exact Nat.mul_pos hpos hone
  · omega
  · apply reaches_of_sum_le (by omega)
    intro w hw
    obtain rfl := List.eq_of_mem_replicate hw
    rw [List.length_replicate, floorFor]
    split_ifs with hmin
    · exact (Nat.le_div_iff_mul_le hpos).mpr hmin
    · exact hone

/-! ## Every sequence of mutations -/

/-- The number of children. -/
def arity : LayoutNode → ℕ
  | .leaf _ => 0
  | .split _ _ children => children.length

/-- No child has collapsed: every weight of every split is at its floor at least. -/
def Uncollapsed (t : LayoutNode) : Prop :=
  t.Weighted fun ratios ↦ ∀ r ∈ ratios, floorFor ratios.length ≤ r

/-- A mutation that collapses no child. A split halves a weight that has two floors in it; a removal
that leaves 50 children leaves each its minimum; the weights asked for are 16 bits wide and, if they
are accepted and clamped, reach the floor; a preset has a permille for each pane. -/
def Spares (t : LayoutNode) : LayoutOp → Prop
  | .split fromPane _ dir => ∀ found ∈ t.parent fromPane, found.1 = dir →
      2 * floorFor (found.2.1.length + 1) ≤ found.2.1.getD found.2.2 0
  | .removePane pane => ∀ found ∈ t.parent pane, found.2.1.length = 51 →
      Reaches minRatio (found.2.1.eraseIdx found.2.2)
  | .setRatios path newRatios => (∀ r ∈ newRatios, r < 2 ^ 16) ∧ ∀ node ∈ nodeAt path t,
      newRatios.length = node.arity →
        Reaches (floorFor newRatios.length) (newRatios.map (max minRatio))
  | .swap _ _ => True
  | .applyScheme scheme => abreast scheme t.leaves.length ≤ 1000

instance decidableSpares (t : LayoutNode) : ∀ op, Decidable (t.Spares op)
  | .split _ _ _ => inferInstanceAs (Decidable (∀ found ∈ t.parent _, _))
  | .removePane _ => inferInstanceAs (Decidable (∀ found ∈ t.parent _, _))
  | .setRatios _ _ => inferInstanceAs (Decidable (_ ∧ ∀ node ∈ nodeAt _ t, _))
  | .swap _ _ => inferInstanceAs (Decidable True)
  | .applyScheme _ => inferInstanceAs (Decidable (_ ≤ _))

/-- One mutation that collapses no child. -/
theorem upright_step {t : LayoutNode} {op : LayoutOp} (ht : t.Weighted Upright)
    (hop : t.Spares op) : (t.step op).Weighted Upright := by
  cases op with
  | split p q dir =>
    refine (outcome_splitPane_of upright_pair p q dir ht ?_).weighted
    intro ratios pos hparent hratios hpos
    exact upright_halved hratios hpos (hop _ hparent rfl)
  | removePane p =>
    refine (outcome_removePane_of p ht ?_).weighted
    intro dir ratios pos hparent hratios hpos hlen
    exact upright_eraseIdx hratios hpos hlen (hop _ hparent)
  | setRatios path newRatios =>
    refine (outcome_setRatios_of path ht ?_).weighted
    intro dir ratios cs hnode hlen hne
    have hlen' : newRatios.length ≤ 1000 := by
      cases weighted_nodeAt path ht hnode with
      | split _ _ arity weights _ =>
        rw [hlen, ← arity]
        exact weights.length_le
    exact upright_clamped hne hlen' hop.1 (hop.2 _ hnode hlen)
  | swap a b =>
    rw [step, apply, swap]
    split_ifs
    · exact ht
    · exact ht
    · exact weighted_renameLeaf a b ht
  | applyScheme scheme =>
    refine (outcome_applyScheme_of upright_pair scheme ht ?_).weighted
    rintro n rfl hpos
    exact upright_even hpos hop

theorem Weighted.mono {ok ok' : List ℕ → Prop} (h : ∀ ratios, ok ratios → ok' ratios)
    {t : LayoutNode} (ht : t.Weighted ok) : t.Weighted ok' := by
  induction ht with
  | leaf p => exact .leaf p
  | split dir two arity weights below ih => exact .split dir two arity (h _ weights) ih

/-- **No child collapses**, along every sequence of mutations that each spare the children of the
split they change. -/
theorem no_child_collapses (p₀ : ℕ) (ops : List LayoutOp)
    (hok : Run.Ok step Spares (single p₀) ops) :
    (Run.exec step (single p₀) ops).Uncollapsed := by
  have h : (Run.exec step (single p₀) ops).Weighted Upright :=
    Run.invariant_of_ok (fun t op (h : t.Weighted Upright) hop ↦ upright_step h hop) ops _
      (.leaf p₀) hok
  exact h.mono fun _ hratios ↦ hratios.2

/-- The hypothesis can be met: a split, weights of which one is below the minimum, and a second
split of the wider pane. -/
theorem no_child_collapses_of_three_panes :
    (Run.exec step (single 0) [.split 0 1 .horizontal, .setRatios [] [900, 0],
      .split 0 2 .horizontal]).Uncollapsed := by
  have hweights : normalize ([900, 0].map (max minRatio)) = [978, 22] := by
    rw [normalize_eq_shares (by decide) (by decide)]
    decide
  have htree : (split .horizontal [500, 500] [.leaf 0, .leaf 1]).step (.setRatios [] [900, 0])
      = .split .horizontal [978, 22] [.leaf 0, .leaf 1] := by
    rw [step, apply, setRatios, if_neg (by decide), hweights]
  refine no_child_collapses 0 _ ⟨by decide, by decide, ?_, trivial⟩
  change Spares ((split .horizontal [500, 500] [.leaf 0, .leaf 1]).step (.setRatios [] [900, 0])) _
  rw [htree]
  decide

/-- One split and one request for weights: the second child is clamped to the minimum, and then
rescaled to nothing next to its sibling. -/
theorem child_collapses :
    ¬(Run.exec step (single 0) [.split 0 1 .horizontal, .setRatios [] [65535, 0]]).Uncollapsed := by
  have hweights : normalize ([65535, 0].map (max minRatio)) = [1000, 0] := by
    rw [normalize_eq_shares (by decide) (by decide)]
    decide
  have htree : (split .horizontal [500, 500] [.leaf 0, .leaf 1]).step (.setRatios [] [65535, 0])
      = .split .horizontal [1000, 0] [.leaf 0, .leaf 1] := by
    rw [step, apply, setRatios, if_neg (by decide), hweights]
  intro h
  change ((split .horizontal [500, 500] [.leaf 0, .leaf 1]).step _).Uncollapsed at h
  rw [htree] at h
  cases h with
  | split _ _ _ weights _ => exact absurd (weights 0 (by decide)) (by decide)

end LayoutNode

end Kmux
