import Kmux.Client.LayoutResolve
import Kmux.Session.Weights

/-!
# The tiling of a content area

Panes and gutters are found by two walks over the tree, each of which recomputes where the children
of a split are. Together they cover every cell of the content area once: along the axis of a split
the children and the gutters between them are one strip after the other, with no cell lost to the
apportionment, and across it each of them has the whole extent.

What a layout needs for this is room. A pane whose extent is raised to the minimum sticks out of its
place, and so does one that is placed after gutters which are wider than the split.
-/

namespace Kmux

/-! ## Cells -/

/-- The cell is in the rectangle with this corner and these extents. -/
def Within (col row cols rows x y : ℕ) : Prop :=
  (col ≤ x ∧ x < col + cols) ∧ row ≤ y ∧ y < row + rows

instance decidableWithin (col row cols rows x y : ℕ) : Decidable (Within col row cols rows x y) :=
  inferInstanceAs (Decidable ((_ ∧ _) ∧ _ ∧ _))

/-- How many of the rectangles cover a cell. -/
def panesAt (rects : List PaneRect) (x y : ℕ) : ℕ :=
  rects.countP fun r ↦ decide (Within r.col r.row r.cols r.rows x y)

/-- How many of the gutter strips cover a cell. -/
def guttersAt (dividers : List Divider) (x y : ℕ) : ℕ :=
  dividers.countP fun d ↦ decide (Within d.hitCol d.hitRow d.hitCols d.hitRows x y)

/-! ## Apportioning an extent -/

theorem length_apportion (total : ℕ) (ratios : List ℕ) :
    (apportion total ratios).length = ratios.length := by
  rw [apportion]
  split_ifs with h
  · rw [h]
  · rw [length_handOut, List.length_map, List.length_map]

/-- No cell is lost. -/
theorem sum_apportion {total : ℕ} {ratios : List ℕ} (htotal : total < 2 ^ 16)
    (hsum : ratios.sum = 1000) : (apportion total ratios).sum = total := by
  have hne : ratios ≠ [] := by
    rintro rfl
    exact absurd hsum (by decide)
  have hmax : max (u32 ratios.sum) 1 = ratios.sum := by
    rw [hsum]
    decide
  rw [apportion, if_neg hne]
  dsimp only
  rw [hmax]
  exact sum_largest_remainder htotal (by omega)

/-! ## One strip after the other -/

theorem satAdd_eq {x y : ℕ} (h : x + y < 2 ^ 16) : satAdd x y = x + y := by
  rw [satAdd]
  omega

@[simp] theorem length_placeFrom (g : ℕ) : ∀ (pos : ℕ) (lens : List ℕ),
    (placeFrom g pos lens).length = lens.length := by
  intro pos lens
  induction lens generalizing pos with
  | nil => rfl
  | cons len lens ih => rw [placeFrom, List.length_cons, List.length_cons, ih]

theorem map_snd_placeFrom (g : ℕ) : ∀ (pos : ℕ) (lens : List ℕ),
    (placeFrom g pos lens).map Prod.snd = lens := by
  intro pos lens
  induction lens generalizing pos with
  | nil => rfl
  | cons len lens ih => rw [placeFrom, List.map_cons, ih]

/-- Where the next strip starts, as long as nothing saturates. -/
private theorem placeFrom_cons {g pos len : ℕ} (lens : List ℕ) (h : pos + len + g < 2 ^ 16) :
    placeFrom g pos (len :: lens) = (pos, len) :: placeFrom g (pos + len + g) lens := by
  rw [placeFrom, satAdd_eq (x := pos) (y := len) (by omega), satAdd_eq h]

/-- Every strip is inside the extent. -/
theorem placeFrom_mem {g : ℕ} : ∀ {lens : List ℕ} {pos : ℕ},
    pos + (lens.sum + (lens.length - 1) * g) < 2 ^ 16 → ∀ e ∈ placeFrom g pos lens,
      pos ≤ e.1 ∧ e.1 + e.2 ≤ pos + (lens.sum + (lens.length - 1) * g) := by
  intro lens
  induction lens with
  | nil => intro pos _ e he; rw [placeFrom] at he; exact absurd he List.not_mem_nil
  | cons len lens ih =>
    intro pos hfit e he
    rw [List.sum_cons, List.length_cons, Nat.add_sub_cancel] at hfit ⊢
    rcases lens with _ | ⟨len', lens⟩
    · obtain rfl := List.mem_singleton.mp (show e ∈ [(pos, len)] from he)
      exact ⟨le_rfl, by omega⟩
    · rw [List.length_cons, Nat.add_mul, Nat.one_mul] at hfit ⊢
      rw [placeFrom_cons _ (by omega), List.mem_cons] at he
      rcases he with rfl | he
      · exact ⟨le_rfl, by omega⟩
      · have hrest := @ih (pos + len + g)
          (by rw [List.length_cons, Nat.add_sub_cancel]; omega) e he
        rw [List.length_cons, Nat.add_sub_cancel] at hrest
        omega

/-- The cells of a row of extents with a gutter after each but the last. -/
theorem strip {g x : ℕ} : ∀ {lens : List ℕ} {pos : ℕ}, lens ≠ [] →
    pos + (lens.sum + (lens.length - 1) * g) < 2 ^ 16 →
      ((placeFrom g pos lens).countP fun e ↦ decide (e.1 ≤ x ∧ x < e.1 + e.2))
        + ((placeFrom g pos lens).dropLast.countP fun e ↦
          decide (e.1 + e.2 ≤ x ∧ x < e.1 + e.2 + g))
        = if pos ≤ x ∧ x < pos + (lens.sum + (lens.length - 1) * g) then 1 else 0 := by
  intro lens
  induction lens with
  | nil => intro pos hne _; exact absurd rfl hne
  | cons len lens ih =>
    intro pos _ hfit
    rw [List.sum_cons, List.length_cons, Nat.add_sub_cancel] at hfit ⊢
    rcases lens with _ | ⟨len', lens⟩
    · simp [placeFrom, List.countP_cons]
    · rw [List.length_cons, Nat.add_mul, Nat.one_mul] at hfit ⊢
      have hrest := @ih (pos + len + g) (List.cons_ne_nil _ _)
        (by rw [List.length_cons, Nat.add_sub_cancel]; omega)
      rw [List.length_cons, Nat.add_sub_cancel] at hrest
      have hne : placeFrom g (pos + len + g) (len' :: lens) ≠ [] := by
        rw [placeFrom]
        exact List.cons_ne_nil _ _
      rw [placeFrom_cons _ (by omega), List.dropLast_cons_of_ne_nil hne, List.countP_cons,
        List.countP_cons]
      simp only [decide_eq_true_eq]
      -- the first extent, the gutter after it, or further on
      split_ifs at hrest ⊢ <;> omega

/-! ## The extents of the children -/

section Extents

variable {start total g : ℕ} {ratios : List ℕ}

private theorem gutters_eq {n : ℕ} (hn : 0 < n) (htotal : total < 2 ^ 16)
    (hg : (n - 1) * g ≤ total) : satMul (u16 (n + (2 ^ 16 - 1))) g = (n - 1) * g := by
  rcases Nat.eq_zero_or_pos g with rfl | hgpos
  · rw [Nat.mul_zero, satMul, Nat.mul_zero]
    rfl
  · have hle : n - 1 ≤ (n - 1) * g := Nat.le_mul_of_pos_right _ hgpos
    have hcount : u16 (n + (2 ^ 16 - 1)) = n - 1 := by
      rw [u16]
      omega
    rw [hcount, satMul]
    omega

/-- Where the gutters fit, the children share what they leave. -/
theorem childExtents_eq (hsum : ratios.sum = 1000) (htotal : total < 2 ^ 16)
    (hg : (ratios.length - 1) * g ≤ total) : childExtents start total ratios g
      = placeFrom g start (apportion (total - (ratios.length - 1) * g) ratios) := by
  have hne : ratios ≠ [] := by
    rintro rfl
    exact absurd hsum (by decide)
  rw [childExtents, if_neg hne]
  dsimp only
  rw [gutters_eq (List.length_pos_iff.mpr hne) htotal hg]

theorem length_childExtents (start total : ℕ) (ratios : List ℕ) (g : ℕ) :
    (childExtents start total ratios g).length = ratios.length := by
  rw [childExtents]
  split_ifs with h
  · rw [h]
    rfl
  · rw [length_placeFrom, length_apportion]

private theorem extent_eq (hsum : ratios.sum = 1000) (htotal : total < 2 ^ 16)
    (hg : (ratios.length - 1) * g ≤ total) :
    (apportion (total - (ratios.length - 1) * g) ratios).sum
      + ((apportion (total - (ratios.length - 1) * g) ratios).length - 1) * g = total := by
  rw [sum_apportion (by omega) hsum, length_apportion, Nat.sub_add_cancel hg]

/-- The extents lie within that of the split. -/
theorem childExtents_mem (hsum : ratios.sum = 1000) (hfit : start + total < 2 ^ 16)
    (hg : (ratios.length - 1) * g ≤ total) :
    ∀ e ∈ childExtents start total ratios g, start ≤ e.1 ∧ e.1 + e.2 ≤ start + total := by
  have hextent := extent_eq hsum (show total < 2 ^ 16 by omega) hg
  rw [childExtents_eq hsum (by omega) hg]
  intro e he
  have hmem := placeFrom_mem (by rwa [hextent]) e he
  rwa [hextent] at hmem

/-- With the gutters they cover it once. -/
theorem childExtents_strip (hsum : ratios.sum = 1000) (hfit : start + total < 2 ^ 16)
    (hg : (ratios.length - 1) * g ≤ total) (x : ℕ) :
    ((childExtents start total ratios g).countP fun e ↦ decide (e.1 ≤ x ∧ x < e.1 + e.2))
      + ((childExtents start total ratios g).dropLast.countP fun e ↦
        decide (e.1 + e.2 ≤ x ∧ x < e.1 + e.2 + g))
      = if start ≤ x ∧ x < start + total then 1 else 0 := by
  have hextent := extent_eq hsum (show total < 2 ^ 16 by omega) hg
  have hne : apportion (total - (ratios.length - 1) * g) ratios ≠ [] := by
    intro hnil
    have hlen := length_apportion (total - (ratios.length - 1) * g) ratios
    rw [hnil, List.length_nil, eq_comm, List.length_eq_zero_iff] at hlen
    rw [hlen] at hsum
    exact absurd hsum (by decide)
  have hstrip := strip (g := g) (x := x) hne (by rwa [hextent] : start + _ < 2 ^ 16)
  rw [hextent] at hstrip
  rw [childExtents_eq hsum (by omega) hg, hstrip]

end Extents

namespace LayoutNode

/-! ## Room -/

mutual

/-- No extent is clamped: every leaf is given its minimum or more. Where the minimum is zero, the
gutters of each split have to fit as well, or what they leave would be clamped at zero. -/
def Unclamped (cfg : LayoutConfig) (col row cols rows : ℕ) : LayoutNode → Prop
  | .leaf _ => cfg.minCols ≤ cols ∧ cfg.minRows ≤ rows
  | .split .horizontal ratios children =>
    (cfg.minCols = 0 → (children.length - 1) * cfg.gutterCols ≤ cols) ∧
      UnclampedCols cfg row rows (childExtents col cols ratios cfg.gutterCols) children
  | .split .vertical ratios children =>
    (cfg.minRows = 0 → (children.length - 1) * cfg.gutterRows ≤ rows) ∧
      UnclampedRows cfg col cols (childExtents row rows ratios cfg.gutterRows) children

def UnclampedCols (cfg : LayoutConfig) (row rows : ℕ) : List (ℕ × ℕ) → List LayoutNode → Prop
  | (x, w) :: extents, c :: cs =>
    Unclamped cfg x row w rows c ∧ UnclampedCols cfg row rows extents cs
  | _, _ => True

def UnclampedRows (cfg : LayoutConfig) (col cols : ℕ) : List (ℕ × ℕ) → List LayoutNode → Prop
  | (y, h) :: extents, c :: cs =>
    Unclamped cfg col y cols h c ∧ UnclampedRows cfg col cols extents cs
  | _, _ => True

end

/-! ## The loops over the children -/

variable {cfg : LayoutConfig} {row rows col cols : ℕ}

theorem resolveCols_eq (extents : List (ℕ × ℕ)) : ∀ cs, resolveCols cfg row rows extents cs
    = (extents.zip cs).flatMap fun p ↦ resolveInto cfg p.1.1 row p.1.2 rows p.2 := by
  induction extents with
  | nil => intro cs; rw [resolveCols, List.zip_nil_left, List.flatMap_nil]; simp
  | cons e extents ih =>
    intro cs
    cases cs with
    | nil => rw [resolveCols, List.zip_nil_right, List.flatMap_nil]; simp
    | cons c cs => rw [resolveCols, ih, List.zip_cons_cons, List.flatMap_cons]

theorem resolveRows_eq (extents : List (ℕ × ℕ)) : ∀ cs, resolveRows cfg col cols extents cs
    = (extents.zip cs).flatMap fun p ↦ resolveInto cfg col p.1.1 cols p.1.2 p.2 := by
  induction extents with
  | nil => intro cs; rw [resolveRows, List.zip_nil_left, List.flatMap_nil]; simp
  | cons e extents ih =>
    intro cs
    cases cs with
    | nil => rw [resolveRows, List.zip_nil_right, List.flatMap_nil]; simp
    | cons c cs => rw [resolveRows, ih, List.zip_cons_cons, List.flatMap_cons]

theorem dividersCols_eq {path : List ℕ} (extents : List (ℕ × ℕ)) : ∀ i cs,
    dividersCols cfg path row rows i extents cs = ((extents.zip cs).zipIdx i).flatMap fun q ↦
      dividersInto cfg (path ++ [q.2]) q.1.1.1 row q.1.1.2 rows q.1.2 := by
  induction extents with
  | nil => intro i cs; rw [dividersCols, List.zip_nil_left, List.zipIdx_nil, List.flatMap_nil]; simp
  | cons e extents ih =>
    intro i cs
    cases cs with
    | nil => rw [dividersCols, List.zip_nil_right, List.zipIdx_nil, List.flatMap_nil]; simp
    | cons c cs => rw [dividersCols, ih, List.zip_cons_cons, List.zipIdx_cons, List.flatMap_cons]

theorem dividersRows_eq {path : List ℕ} (extents : List (ℕ × ℕ)) : ∀ i cs,
    dividersRows cfg path col cols i extents cs = ((extents.zip cs).zipIdx i).flatMap fun q ↦
      dividersInto cfg (path ++ [q.2]) col q.1.1.1 cols q.1.1.2 q.1.2 := by
  induction extents with
  | nil => intro i cs; rw [dividersRows, List.zip_nil_left, List.zipIdx_nil, List.flatMap_nil]; simp
  | cons e extents ih =>
    intro i cs
    cases cs with
    | nil => rw [dividersRows, List.zip_nil_right, List.zipIdx_nil, List.flatMap_nil]; simp
    | cons c cs => rw [dividersRows, ih, List.zip_cons_cons, List.zipIdx_cons, List.flatMap_cons]

theorem unclampedCols_iff (extents : List (ℕ × ℕ)) : ∀ cs,
    UnclampedCols cfg row rows extents cs ↔
      ∀ p ∈ extents.zip cs, Unclamped cfg p.1.1 row p.1.2 rows p.2 := by
  induction extents with
  | nil => intro cs; simp [UnclampedCols]
  | cons e extents ih =>
    intro cs
    cases cs with
    | nil => simp [UnclampedCols]
    | cons c cs => rw [UnclampedCols, ih, List.zip_cons_cons, List.forall_mem_cons]

theorem unclampedRows_iff (extents : List (ℕ × ℕ)) : ∀ cs,
    UnclampedRows cfg col cols extents cs ↔
      ∀ p ∈ extents.zip cs, Unclamped cfg col p.1.1 cols p.1.2 p.2 := by
  induction extents with
  | nil => intro cs; simp [UnclampedRows]
  | cons e extents ih =>
    intro cs
    cases cs with
    | nil => simp [UnclampedRows]
    | cons c cs => rw [UnclampedRows, ih, List.zip_cons_cons, List.forall_mem_cons]

/-! ## Enough room for the gutters -/

/-- The children of a split, each with its extent. -/
private theorem exists_extent {extents : List (ℕ × ℕ)} {cs : List LayoutNode}
    (hlen : extents.length = cs.length) {e : ℕ × ℕ} (he : e ∈ extents) :
    ∃ c ∈ cs, (e, c) ∈ extents.zip cs := by
  obtain ⟨i, hi, rfl⟩ := List.mem_iff_getElem.mp he
  have hget : (extents.zip cs)[i]? = some (extents[i], cs[i]) := by
    rw [List.getElem?_zip_eq_some]
    exact ⟨List.getElem?_eq_getElem hi, List.getElem?_eq_getElem (by omega)⟩
  exact ⟨cs[i], List.getElem_mem _, List.mem_of_getElem? hget⟩

/-- Where every child has a cell, the gutters of the split fit. -/
private theorem gutters_fit {start total g : ℕ} {ratios : List ℕ} (hsum : ratios.sum = 1000)
    (htotal : total < 2 ^ 16) (hpos : ∀ e ∈ childExtents start total ratios g, 0 < e.2) :
    (ratios.length - 1) * g ≤ total := by
  have hne : ratios ≠ [] := by
    rintro rfl
    exact absurd hsum (by decide)
  rw [childExtents, if_neg hne] at hpos
  dsimp only at hpos
  -- there are at most as many children as cells, so nothing wraps or saturates
  have hcells : ∀ w ∈ apportion (total - satMul (u16 (ratios.length + (2 ^ 16 - 1))) g) ratios,
      0 < w := by
    intro w hw
    rw [← map_snd_placeFrom g start (apportion _ ratios), List.mem_map] at hw
    obtain ⟨e, he, rfl⟩ := hw
    exact hpos e he
  have hcount := length_le_sum hcells
  rw [length_apportion, sum_apportion (by omega) hsum] at hcount
  have hlen := List.length_pos_iff.mpr hne
  have hwrap : u16 (ratios.length + (2 ^ 16 - 1)) = ratios.length - 1 := by
    rw [u16]
    omega
  rw [hwrap, satMul] at hcount
  omega

private theorem extent_le {start total g : ℕ} {ratios : List ℕ} (hsum : ratios.sum = 1000)
    (htotal : total < 2 ^ 16) : ∀ e ∈ childExtents start total ratios g, e.2 ≤ total := by
  intro e he
  have hne : ratios ≠ [] := by
    rintro rfl
    exact absurd hsum (by decide)
  rw [childExtents, if_neg hne] at he
  have hmem := List.mem_map_of_mem (f := Prod.snd) he
  rw [map_snd_placeFrom] at hmem
  have hle := le_sum_of_mem hmem
  rw [sum_apportion (by omega) hsum] at hle
  omega

/-- A node that has room has a cell, if the minimum is not zero. -/
private theorem pos_of_unclamped {t : LayoutNode} (ht : t.WellFormed) :
    ∀ {col row cols rows : ℕ}, cols < 2 ^ 16 → rows < 2 ^ 16 →
      Unclamped cfg col row cols rows t →
        (0 < cfg.minCols → 0 < cols) ∧ (0 < cfg.minRows → 0 < rows) := by
  induction ht with
  | leaf p =>
    intro col row cols rows _ _ h
    rw [Unclamped] at h
    exact ⟨fun hpos ↦ hpos.trans_le h.1, fun hpos ↦ hpos.trans_le h.2⟩
  | split dir two arity weights below ih =>
    rename_i ratios cs
    intro col row cols rows hcols hrows h
    cases dir with
    | horizontal =>
      rw [Unclamped, unclampedCols_iff] at h
      have hlen : (childExtents col cols ratios cfg.gutterCols).length = cs.length := by
        rw [length_childExtents, arity]
      obtain ⟨e, he⟩ := List.exists_mem_of_length_pos (show 0 < (childExtents col cols ratios
        cfg.gutterCols).length by omega)
      obtain ⟨c, hc, hpair⟩ := exists_extent hlen he
      have hle := extent_le weights hcols e he
      obtain ⟨hw, hh⟩ := ih c hc (hle.trans_lt hcols) hrows (h.2 _ hpair)
      exact ⟨fun hpos ↦ (hw hpos).trans_le hle, hh⟩
    | vertical =>
      rw [Unclamped, unclampedRows_iff] at h
      have hlen : (childExtents row rows ratios cfg.gutterRows).length = cs.length := by
        rw [length_childExtents, arity]
      obtain ⟨e, he⟩ := List.exists_mem_of_length_pos (show 0 < (childExtents row rows ratios
        cfg.gutterRows).length by omega)
      obtain ⟨c, hc, hpair⟩ := exists_extent hlen he
      have hle := extent_le weights hrows e he
      obtain ⟨hw, hh⟩ := ih c hc hcols (hle.trans_lt hrows) (h.2 _ hpair)
      exact ⟨hw, fun hpos ↦ (hh hpos).trans_le hle⟩

section Split

variable {ratios : List ℕ} {cs : List LayoutNode}

/-- What room for a split side by side means: its gutters fit, and its children have room. -/
theorem unclamped_horizontal (ht : (split .horizontal ratios cs).WellFormed) (hcols : cols < 2 ^ 16)
    (hrows : rows < 2 ^ 16) (h : Unclamped cfg col row cols rows (.split .horizontal ratios cs)) :
    (ratios.length - 1) * cfg.gutterCols ≤ cols ∧
      ∀ p ∈ (childExtents col cols ratios cfg.gutterCols).zip cs,
        Unclamped cfg p.1.1 row p.1.2 rows p.2 := by
  cases ht with
  | split _ two arity weights below =>
    rw [Unclamped, unclampedCols_iff, ← arity] at h
    refine ⟨?_, h.2⟩
    rcases Nat.eq_zero_or_pos cfg.minCols with hzero | hpos
    · exact h.1 hzero
    · refine @gutters_fit col _ _ _ weights hcols fun e he ↦ ?_
      have hlen : (childExtents col cols ratios cfg.gutterCols).length = cs.length := by
        rw [length_childExtents, arity]
      obtain ⟨c, hc, hpair⟩ := exists_extent hlen he
      have hle := extent_le weights hcols e he
      exact (pos_of_unclamped (below c hc) (hle.trans_lt hcols) hrows (h.2 _ hpair)).1 hpos

/-- The same one above the other. -/
theorem unclamped_vertical (ht : (split .vertical ratios cs).WellFormed) (hcols : cols < 2 ^ 16)
    (hrows : rows < 2 ^ 16) (h : Unclamped cfg col row cols rows (.split .vertical ratios cs)) :
    (ratios.length - 1) * cfg.gutterRows ≤ rows ∧
      ∀ p ∈ (childExtents row rows ratios cfg.gutterRows).zip cs,
        Unclamped cfg col p.1.1 cols p.1.2 p.2 := by
  cases ht with
  | split _ two arity weights below =>
    rw [Unclamped, unclampedRows_iff, ← arity] at h
    refine ⟨?_, h.2⟩
    rcases Nat.eq_zero_or_pos cfg.minRows with hzero | hpos
    · exact h.1 hzero
    · refine @gutters_fit row _ _ _ weights hrows fun e he ↦ ?_
      have hlen : (childExtents row rows ratios cfg.gutterRows).length = cs.length := by
        rw [length_childExtents, arity]
      obtain ⟨c, hc, hpair⟩ := exists_extent hlen he
      have hle := extent_le weights hrows e he
      exact (pos_of_unclamped (below c hc) hcols (hle.trans_lt hrows) (h.2 _ hpair)).2 hpos

end Split

/-! ## Every cell once -/

theorem panesAt_flatMap {α : Type*} (f : α → List PaneRect) (l : List α) (x y : ℕ) :
    panesAt (l.flatMap f) x y = (l.map fun a ↦ panesAt (f a) x y).sum := by
  rw [panesAt, List.countP_flatMap]
  rfl

theorem guttersAt_flatMap {α : Type*} (f : α → List Divider) (l : List α) (x y : ℕ) :
    guttersAt (l.flatMap f) x y = (l.map fun a ↦ guttersAt (f a) x y).sum := by
  rw [guttersAt, List.countP_flatMap]
  rfl

theorem guttersAt_append (l l' : List Divider) (x y : ℕ) :
    guttersAt (l ++ l') x y = guttersAt l x y + guttersAt l' x y := by
  rw [guttersAt, List.countP_append]
  rfl

/-- Two walks over the same children, of which each pair covers a cell of its extent once. -/
private theorem sum_walks {P : ℕ × ℕ → Bool} (f : (ℕ × ℕ) × LayoutNode → ℕ)
    (g : ((ℕ × ℕ) × LayoutNode) × ℕ → ℕ) :
    ∀ (extents : List (ℕ × ℕ)) (cs : List LayoutNode) (i : ℕ),
      extents.length = cs.length →
        (∀ p ∈ extents.zip cs, ∀ i, f p + g (p, i) = if P p.1 then 1 else 0) →
        ((extents.zip cs).map f).sum + (((extents.zip cs).zipIdx i).map g).sum
          = extents.countP P := by
  intro extents
  induction extents with
  | nil => intro cs i _ _; rfl
  | cons e extents ih =>
    intro cs i hlen hpair
    obtain ⟨c, cs, rfl⟩ := List.exists_cons_of_length_pos
      (show 0 < cs.length by rw [List.length_cons] at hlen; omega)
    rw [List.zip_cons_cons] at hpair ⊢
    rw [List.forall_mem_cons] at hpair
    have hfirst := hpair.1 i
    have hrest := ih cs (i + 1) (Nat.succ.inj hlen) hpair.2
    rw [List.map_cons, List.sum_cons, List.zipIdx_cons, List.map_cons, List.sum_cons,
      List.countP_cons, ← hrest, ← hfirst]
    omega

/-- The boundaries of a split come after all its extents but the last. -/
private theorem map_range_getD (l : List (ℕ × ℕ)) :
    (List.range (l.length - 1)).map (fun i ↦ l.getD i (0, 0)) = l.dropLast := by
  apply List.ext_getElem
  · simp
  · intro i hi hi'
    rw [List.length_map, List.length_range] at hi
    simp [List.getElem?_eq_getElem (show i < l.length by omega)]

private theorem guttersAt_colDividers {g : ℕ} {path : List ℕ} {extents : List (ℕ × ℕ)}
    (hfit : ∀ e ∈ extents, e.1 + e.2 < 2 ^ 16) (x y : ℕ) :
    guttersAt (colDividers g row rows path extents extents.length) x y
      = if row ≤ y ∧ y < row + rows then
          extents.dropLast.countP fun e ↦ decide (e.1 + e.2 ≤ x ∧ x < e.1 + e.2 + g) else 0 := by
  have hcount : guttersAt (colDividers g row rows path extents extents.length) x y
      = (extents.dropLast.countP fun e ↦ decide (Within (satAdd e.1 e.2) row g rows x y)) := by
    rw [guttersAt, colDividers, List.countP_map, ← map_range_getD, List.countP_map]
    rfl
  have hcongr : (extents.dropLast.countP fun e ↦ decide (Within (satAdd e.1 e.2) row g rows x y))
      = extents.dropLast.countP fun e ↦
        decide ((e.1 + e.2 ≤ x ∧ x < e.1 + e.2 + g) ∧ row ≤ y ∧ y < row + rows) := by
    apply List.countP_congr
    intro e he
    rw [satAdd_eq (hfit e (List.mem_of_mem_dropLast he))]
    rfl
  rw [hcount, hcongr]
  split_ifs with hy
  · simp only [hy, and_true]
  · simp [hy]

private theorem guttersAt_rowDividers {g : ℕ} {path : List ℕ} {extents : List (ℕ × ℕ)}
    (hfit : ∀ e ∈ extents, e.1 + e.2 < 2 ^ 16) (x y : ℕ) :
    guttersAt (rowDividers g col cols path extents extents.length) x y
      = if col ≤ x ∧ x < col + cols then
          extents.dropLast.countP fun e ↦ decide (e.1 + e.2 ≤ y ∧ y < e.1 + e.2 + g) else 0 := by
  have hcount : guttersAt (rowDividers g col cols path extents extents.length) x y
      = (extents.dropLast.countP fun e ↦ decide (Within col (satAdd e.1 e.2) cols g x y)) := by
    rw [guttersAt, rowDividers, List.countP_map, ← map_range_getD, List.countP_map]
    rfl
  have hcongr : (extents.dropLast.countP fun e ↦ decide (Within col (satAdd e.1 e.2) cols g x y))
      = extents.dropLast.countP fun e ↦
        decide ((col ≤ x ∧ x < col + cols) ∧ e.1 + e.2 ≤ y ∧ y < e.1 + e.2 + g) := by
    apply List.countP_congr
    intro e he
    rw [satAdd_eq (hfit e (List.mem_of_mem_dropLast he))]
    rfl
  rw [hcount, hcongr]
  split_ifs with hx
  · simp only [hx, true_and]
  · simp [hx]

/-- **Cover.** Below a node with room, panes and gutters cover each cell of its rectangle once, and
no other cell. -/
theorem cover_once {t : LayoutNode} (ht : t.WellFormed) :
    ∀ (path : List ℕ) {col row cols rows : ℕ}, col + cols < 2 ^ 16 → row + rows < 2 ^ 16 →
      Unclamped cfg col row cols rows t → ∀ x y,
      panesAt (resolveInto cfg col row cols rows t) x y
        + guttersAt (dividersInto cfg path col row cols rows t) x y
        = if Within col row cols rows x y then 1 else 0 := by
  induction ht with
  | leaf p =>
    intro path col row cols rows _ _ h x y
    rw [Unclamped] at h
    rw [resolveInto, dividersInto, max_eq_left h.1, max_eq_left h.2]
    simp [panesAt, guttersAt, List.countP_cons]
  | split dir two arity weights below ih =>
    rename_i ratios cs
    intro path col row cols rows hcols hrows h x y
    have ht : (split dir ratios cs).WellFormed := .split dir two arity weights below
    cases dir with
    | horizontal =>
      obtain ⟨hg, hbelow⟩ := unclamped_horizontal ht (by omega) (by omega) h
      have hmem := childExtents_mem weights hcols hg
      have hstrip := childExtents_strip weights hcols hg x
      have hlen : (childExtents col cols ratios cfg.gutterCols).length = cs.length := by
        rw [length_childExtents, arity]
      rw [resolveInto, dividersInto]
      generalize childExtents col cols ratios cfg.gutterCols = extents at hbelow hmem hstrip hlen ⊢
      -- a cell lies in one child's strip or in one gutter between two of them
      rw [← hlen, guttersAt_append, guttersAt_colDividers (fun e he ↦ by have := hmem e he; omega),
        resolveCols_eq, dividersCols_eq, panesAt_flatMap, guttersAt_flatMap, Nat.add_left_comm,
        sum_walks (P := fun e ↦ decide ((e.1 ≤ x ∧ x < e.1 + e.2) ∧ row ≤ y ∧ y < row + rows)) _ _
          extents cs 0 hlen]
      · by_cases hy : row ≤ y ∧ y < row + rows
        · simp only [Within, hy, and_self, and_true, if_true]
          omega
        · simp only [Within, hy, and_false, if_false, decide_false, List.countP_false]
          rfl
      · intro p hp i
        have hpmem := hmem p.1 (List.of_mem_zip hp).1
        rw [ih p.2 (List.of_mem_zip hp).2 _ (by omega) hrows (hbelow p hp) x y]
        exact if_congr (by rw [decide_eq_true_iff]; rfl) rfl rfl
    | vertical =>
      obtain ⟨hg, hbelow⟩ := unclamped_vertical ht (by omega) (by omega) h
      have hmem := childExtents_mem weights hrows hg
      have hstrip := childExtents_strip weights hrows hg y
      have hlen : (childExtents row rows ratios cfg.gutterRows).length = cs.length := by
        rw [length_childExtents, arity]
      rw [resolveInto, dividersInto]
      generalize childExtents row rows ratios cfg.gutterRows = extents at hbelow hmem hstrip hlen ⊢
      rw [← hlen, guttersAt_append, guttersAt_rowDividers (fun e he ↦ by have := hmem e he; omega),
        resolveRows_eq, dividersRows_eq, panesAt_flatMap, guttersAt_flatMap, Nat.add_left_comm,
        sum_walks (P := fun e ↦ decide ((col ≤ x ∧ x < col + cols) ∧ e.1 ≤ y ∧ y < e.1 + e.2)) _ _
          extents cs 0 hlen]
      · by_cases hx : col ≤ x ∧ x < col + cols
        · simp only [Within, hx, and_self, true_and, if_true]
          omega
        · simp only [Within, hx, false_and, if_false, decide_false, List.countP_false]
          rfl
      · intro p hp i
        have hpmem := hmem p.1 (List.of_mem_zip hp).1
        rw [ih p.2 (List.of_mem_zip hp).2 _ hcols (by omega) (hbelow p hp) x y]
        exact if_congr (by rw [decide_eq_true_iff]; rfl) rfl rfl

/-! ## Leaf order, and inside the area -/

theorem resolveInto_paneIndex {t : LayoutNode} (ht : t.WellFormed) : ∀ {col row cols rows : ℕ},
    (resolveInto cfg col row cols rows t).map PaneRect.paneIndex = t.leaves := by
  have hzip : ∀ {f : (ℕ × ℕ) × LayoutNode → List PaneRect} (extents : List (ℕ × ℕ))
      (cs : List LayoutNode), extents.length = cs.length →
        (∀ e c, c ∈ cs → (f (e, c)).map PaneRect.paneIndex = c.leaves) →
        ((extents.zip cs).flatMap f).map PaneRect.paneIndex = cs.flatMap leaves := by
    intro f extents
    induction extents with
    | nil =>
      intro cs hlen _
      rw [List.eq_nil_of_length_eq_zero hlen.symm]
      rfl
    | cons e extents ih =>
      intro cs hlen hleaves
      obtain ⟨c, cs, rfl⟩ := List.exists_cons_of_length_pos
        (show 0 < cs.length by rw [List.length_cons] at hlen; omega)
      rw [List.zip_cons_cons, List.flatMap_cons, List.flatMap_cons, List.map_append,
        hleaves e c List.mem_cons_self, ih cs (Nat.succ.inj hlen)]
      exact fun e' c' hc' ↦ hleaves e' c' (List.mem_cons_of_mem c hc')
  induction ht with
  | leaf p =>
    intro col row cols rows
    rw [resolveInto, leaves_leaf]
    rfl
  | split dir two arity weights below ih =>
    intro col row cols rows
    rw [leaves_split]
    cases dir with
    | horizontal =>
      rw [resolveInto, resolveCols_eq]
      exact hzip _ _ (by rw [length_childExtents, arity]) fun e c hc ↦ ih c hc
    | vertical =>
      rw [resolveInto, resolveRows_eq]
      exact hzip _ _ (by rw [length_childExtents, arity]) fun e c hc ↦ ih c hc

/-- The rectangle of a pane lies within another. -/
def Inside (col row cols rows : ℕ) (r : PaneRect) : Prop :=
  (col ≤ r.col ∧ r.col + r.cols ≤ col + cols) ∧ row ≤ r.row ∧ r.row + r.rows ≤ row + rows

theorem resolveInto_inside {t : LayoutNode} (ht : t.WellFormed) : ∀ {col row cols rows : ℕ},
    col + cols < 2 ^ 16 → row + rows < 2 ^ 16 → Unclamped cfg col row cols rows t →
      ∀ r ∈ resolveInto cfg col row cols rows t, Inside col row cols rows r := by
  induction ht with
  | leaf p =>
    intro col row cols rows _ _ h r hr
    rw [Unclamped] at h
    rw [resolveInto, List.mem_singleton, max_eq_left h.1, max_eq_left h.2] at hr
    rw [hr]
    exact ⟨⟨le_rfl, le_rfl⟩, le_rfl, le_rfl⟩
  | split dir two arity weights below ih =>
    rename_i ratios cs
    intro col row cols rows hcols hrows h r hr
    have ht : (split dir ratios cs).WellFormed := .split dir two arity weights below
    cases dir with
    | horizontal =>
      obtain ⟨hg, hbelow⟩ := unclamped_horizontal ht (by omega) (by omega) h
      rw [resolveInto, resolveCols_eq, List.mem_flatMap] at hr
      obtain ⟨p, hp, hr⟩ := hr
      have hpmem := childExtents_mem weights hcols hg p.1 (List.of_mem_zip hp).1
      have hin := ih p.2 (List.of_mem_zip hp).2 (by omega) hrows (hbelow p hp) r hr
      rw [Inside] at hin ⊢
      omega
    | vertical =>
      obtain ⟨hg, hbelow⟩ := unclamped_vertical ht (by omega) (by omega) h
      rw [resolveInto, resolveRows_eq, List.mem_flatMap] at hr
      obtain ⟨p, hp, hr⟩ := hr
      have hpmem := childExtents_mem weights hrows hg p.1 (List.of_mem_zip hp).1
      have hin := ih p.2 (List.of_mem_zip hp).2 hcols (by omega) (hbelow p hp) r hr
      rw [Inside] at hin ⊢
      omega

/-- Two rectangles have no cell in common. -/
def Apart (r s : PaneRect) : Prop :=
  ∀ x y, ¬(Within r.col r.row r.cols r.rows x y ∧ Within s.col s.row s.cols s.rows x y)

/-- Rectangles that cover no cell twice are apart. -/
theorem pairwise_apart : ∀ {rects : List PaneRect}, (∀ x y, panesAt rects x y ≤ 1) →
    rects.Pairwise Apart := by
  intro rects
  induction rects with
  | nil => intro _; exact List.Pairwise.nil
  | cons r rects ih =>
    intro h
    rw [List.pairwise_cons]
    constructor
    · rintro s hs x y ⟨hr, hs'⟩
      have hle := h x y
      have hpos : 0 < panesAt rects x y :=
        List.countP_pos_iff.mpr ⟨s, hs, decide_eq_true hs'⟩
      rw [panesAt, List.countP_cons, if_pos (decide_eq_true hr), ← panesAt] at hle
      omega
    · apply ih
      intro x y
      have hle := h x y
      rw [panesAt, List.countP_cons, ← panesAt] at hle
      omega

/-- **Exact tiling.** Where no extent is clamped, the rectangles of the panes are those of the
leaves in order, apart from each other and inside the content area, and with the gutters of the
dividers they cover every cell of the area once. -/
theorem exact_tiling {t : LayoutNode} (ht : t.WellFormed) {areaCols areaRows : ℕ}
    (hcols : areaCols < 2 ^ 16) (hrows : areaRows < 2 ^ 16)
    (hroom : Unclamped cfg 0 0 areaCols areaRows t) :
    (resolveLayout t areaCols areaRows cfg).map PaneRect.paneIndex = t.leaves ∧
    (resolveLayout t areaCols areaRows cfg).Pairwise Apart ∧
    (∀ r ∈ resolveLayout t areaCols areaRows cfg,
      r.col + r.cols ≤ areaCols ∧ r.row + r.rows ≤ areaRows) ∧
    ∀ x y, panesAt (resolveLayout t areaCols areaRows cfg) x y
      + guttersAt (resolveDividers t areaCols areaRows cfg) x y
      = if x < areaCols ∧ y < areaRows then 1 else 0 := by
  rw [resolveLayout, resolveDividers]
  have hcover := cover_once ht [] (by omega) (by omega) hroom
  refine ⟨resolveInto_paneIndex ht, ?_, ?_, ?_⟩
  · apply pairwise_apart
    intro x y
    have hone := hcover x y
    split_ifs at hone <;> omega
  · intro r hr
    have hin := resolveInto_inside ht (by omega) (by omega) hroom r hr
    rw [Inside] at hin
    omega
  · intro x y
    rw [hcover]
    apply if_congr _ rfl rfl
    rw [Within]
    omega

/-- The hypotheses can be met: two panes side by side, with the gutter between them. -/
theorem exact_tiling_of_two_panes :
    childExtents 0 81 [500, 500] 1 = [(0, 40), (41, 40)] ∧ ∀ x y,
      panesAt (resolveLayout (.split .horizontal [500, 500] [.leaf 0, .leaf 1]) 81 24 {}) x y
        + guttersAt (resolveDividers (.split .horizontal [500, 500] [.leaf 0, .leaf 1]) 81 24 {})
          x y
        = if x < 81 ∧ y < 24 then 1 else 0 := by
  have happortion : apportion 80 [500, 500] = [40, 40] := by
    rw [apportion, if_neg (by decide)]
    dsimp only
    rw [List.mergeSort_of_pairwise (by decide)]
    decide
  have hextents : childExtents 0 81 [500, 500] 1 = [(0, 40), (41, 40)] := by
    rw [childExtents, if_neg (by decide)]
    change placeFrom 1 0 (apportion 80 [500, 500]) = _
    rw [happortion]
    decide
  have ht : (split .horizontal [500, 500] [.leaf 0, .leaf 1]).WellFormed := by
    refine .split .horizontal le_rfl rfl rfl ?_
    intro c hc
    rw [List.mem_pair] at hc
    rcases hc with rfl | rfl <;> exact .leaf _
  refine ⟨hextents, (exact_tiling ht (by decide) (by decide) ?_).2.2.2⟩
  rw [Unclamped, hextents, UnclampedCols, UnclampedCols, UnclampedCols, Unclamped, Unclamped]
  · decide
  · simp

end LayoutNode

end Kmux
