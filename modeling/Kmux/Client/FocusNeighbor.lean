import Kmux.Client.LayoutResize
import Kmux.Client.LayoutTiling
import Kmux.Lib.Guillotine
import Mathlib

/-!
# Moving the focus

An arrow moves the focus to the nearest pane on its side that shares a row with the focused one, or
a column for up and down. The search goes by the rectangles alone. That it leads across one gutter,
and comes to nothing only at the edge of the content area, is because the rectangles are what the
splits of a tree leave of it.

A pane may face the end of a divider. One that is as thin as a divider is wide can face nothing
else, and then there is no move from it although it is not at the edge.
-/

namespace Kmux

open Guillotine (Box Cut)

/-! ## The search -/

def rightEdge (r : PaneRect) : ℕ := satAdd r.col r.cols

def bottomEdge (r : PaneRect) : ℕ := satAdd r.row r.rows

/-- Overlap of two intervals, each with its start and its length. -/
def axisOverlap (a0 aLen b0 bLen : ℕ) : ℕ := min (a0 + aLen) (b0 + bLen) - max a0 b0

theorem axisOverlap_ne_zero {a0 aLen b0 bLen : ℕ} (ha : 0 < aLen) (hb : 0 < bLen) :
    axisOverlap a0 aLen b0 bLen ≠ 0 ↔ b0 < a0 + aLen ∧ a0 < b0 + bLen := by
  rw [axisOverlap, Nat.sub_ne_zero_iff_lt, lt_min_iff, max_lt_iff, max_lt_iff]
  omega

/-- Whether a pane is on this side of `cur`, how far away, and how much of the other axis the two
share. -/
def sideOf (dir : FocusDir) (cur r : PaneRect) : Bool × ℤ × ℕ :=
  match dir with
  | .left => (decide (rightEdge r ≤ cur.col), (cur.col : ℤ) - rightEdge r,
      axisOverlap cur.row cur.rows r.row r.rows)
  | .right => (decide (rightEdge cur ≤ r.col), (r.col : ℤ) - rightEdge cur,
      axisOverlap cur.row cur.rows r.row r.rows)
  | .up => (decide (bottomEdge r ≤ cur.row), (cur.row : ℤ) - bottomEdge r,
      axisOverlap cur.col cur.cols r.col r.cols)
  | .down => (decide (bottomEdge cur ≤ r.row), (r.row : ℤ) - bottomEdge cur,
      axisOverlap cur.col cur.cols r.col r.cols)

/-- One round of the loop, with the best pane so far, its distance and its overlap. -/
def closer (dir : FocusDir) (focused : ℕ) (cur : PaneRect) (best : Option (PaneRect × ℤ × ℕ))
    (r : PaneRect) : Option (PaneRect × ℤ × ℕ) :=
  if r.paneIndex = focused then best
  else
    let (onSide, dist, overlap) := sideOf dir cur r
    if ¬ onSide ∨ overlap = 0 then best
    else
      match best with
      | none => some (r, dist, overlap)
      | some (_, bd, bo) =>
        if dist < bd ∨ dist = bd ∧ bo < overlap then some (r, dist, overlap) else best

/-- The pane to focus. -/
def focusNeighbor (rects : List PaneRect) (focused : ℕ) (dir : FocusDir) : Option ℕ :=
  match rects.find? fun r ↦ r.paneIndex = focused with
  | none => none
  | some cur => (rects.foldl (closer dir focused cur) none).map fun best ↦ best.1.paneIndex

/-- A pane that a move may go to. -/
def Faces (dir : FocusDir) (cur r : PaneRect) : Prop :=
  (sideOf dir cur r).1 = true ∧ (sideOf dir cur r).2.2 ≠ 0

instance (dir : FocusDir) (cur r : PaneRect) : Decidable (Faces dir cur r) :=
  inferInstanceAs (Decidable (_ ∧ _))

/-- The order of preference: the distance, and at the same distance the larger overlap. -/
def preference (dir : FocusDir) (cur r : PaneRect) : ℤ ×ₗ ℕᵒᵈ :=
  toLex ((sideOf dir cur r).2.1, OrderDual.toDual (sideOf dir cur r).2.2)

/-- The loop finds the first of the best. -/
theorem foldl_closer (dir : FocusDir) (focused : ℕ) (cur : PaneRect) (rects : List PaneRect) :
    rects.foldl (closer dir focused cur) none =
      ((rects.filter fun r ↦ r.paneIndex ≠ focused ∧ Faces dir cur r).argmin
        (preference dir cur)).map fun r ↦ (r, (sideOf dir cur r).2) := by
  induction rects using List.reverseRecOn with
  | nil => rfl
  | append_singleton rects r ih =>
    rw [List.foldl_append, List.foldl_cons, List.foldl_nil, ih, List.filter_append]
    rw [closer]
    by_cases hself : r.paneIndex = focused
    · rw [if_pos hself, List.filter_singleton, decide_eq_false fun h ↦ h.1 hself]
      rw [cond_false, List.append_nil]
    · rw [if_neg hself]
      dsimp only
      by_cases hfaces : Faces dir cur r
      · have hkept : ¬ (¬ (sideOf dir cur r).1 = true ∨ (sideOf dir cur r).2.2 = 0) :=
          fun h ↦ h.elim (fun h ↦ h hfaces.1) hfaces.2
        rw [if_neg hkept, List.filter_singleton, decide_eq_true ⟨hself, hfaces⟩, cond_true,
          List.argmin_concat]
        generalize List.argmin (preference dir cur) _ = m
        rcases m with _ | best
        · rfl
        · have hlt : preference dir cur r < preference dir cur best ↔
              (sideOf dir cur r).2.1 < (sideOf dir cur best).2.1 ∨
                (sideOf dir cur r).2.1 = (sideOf dir cur best).2.1 ∧
                  (sideOf dir cur best).2.2 < (sideOf dir cur r).2.2 :=
            Prod.Lex.toLex_lt_toLex
          dsimp only [Option.map_some]
          by_cases hbetter : preference dir cur r < preference dir cur best
          · rw [if_pos hbetter, if_pos (hlt.mp hbetter)]
            rfl
          · rw [if_neg hbetter, if_neg fun h ↦ hbetter (hlt.mpr h)]
            rfl
      · have hskipped : ¬ (sideOf dir cur r).1 = true ∨ (sideOf dir cur r).2.2 = 0 := by
          by_contra h
          exact hfaces ⟨by_contra fun hside ↦ h (Or.inl hside), fun hzero ↦ h (Or.inr hzero)⟩
        rw [if_pos hskipped, List.filter_singleton, decide_eq_false fun h ↦ hfaces h.2,
          cond_false, List.append_nil]

section Search

variable {rects : List PaneRect} {p : PaneRect} {dir : FocusDir}

/-- The search from a pane that is there. -/
theorem focusNeighbor_eq (hp : p ∈ rects) (hnodup : (rects.map PaneRect.paneIndex).Nodup)
    (dir : FocusDir) : focusNeighbor rects p.paneIndex dir =
      ((rects.filter fun r ↦ r.paneIndex ≠ p.paneIndex ∧ Faces dir p r).argmin
        (preference dir p)).map PaneRect.paneIndex := by
  have hfind : (rects.find? fun r ↦ r.paneIndex = p.paneIndex) = some p := by
    rcases hfound : rects.find? fun r ↦ r.paneIndex = p.paneIndex with _ | q
    · exact absurd (decide_eq_true rfl) (List.find?_eq_none.mp hfound p hp)
    · have hq : q.paneIndex = p.paneIndex := by simpa using List.find?_some hfound
      have hmem := List.mem_of_find?_eq_some hfound
      exact hfound.trans (congrArg some (List.inj_on_of_nodup_map hnodup hmem hp hq))
  rw [focusNeighbor, hfind]
  dsimp only
  rw [foldl_closer, Option.map_map]
  rfl

/-- No pane to move to. -/
theorem focusNeighbor_eq_none (hp : p ∈ rects) (hnodup : (rects.map PaneRect.paneIndex).Nodup) :
    focusNeighbor rects p.paneIndex dir = none ↔
      ∀ r ∈ rects, r.paneIndex ≠ p.paneIndex → ¬ Faces dir p r := by
  rw [focusNeighbor_eq hp hnodup, Option.map_eq_none_iff, List.argmin_eq_none,
    List.filter_eq_nil_iff]
  exact forall₂_congr fun r _ ↦ by rw [decide_eq_true_iff, not_and]

/-- What a move from a pane finds. -/
theorem focusNeighbor_eq_some (hp : p ∈ rects) (hnodup : (rects.map PaneRect.paneIndex).Nodup)
    {r : PaneRect} (hr : r ∈ rects) (hne : r.paneIndex ≠ p.paneIndex) (hfaces : Faces dir p r) :
    ∃ best ∈ rects, focusNeighbor rects p.paneIndex dir = some best.paneIndex ∧
      (best.paneIndex ≠ p.paneIndex ∧ Faces dir p best) ∧
      ∀ s ∈ rects, s.paneIndex ≠ p.paneIndex → Faces dir p s →
        preference dir p best ≤ preference dir p s := by
  have hkeep : ∀ s ∈ rects, s.paneIndex ≠ p.paneIndex → Faces dir p s →
      s ∈ rects.filter fun r ↦ r.paneIndex ≠ p.paneIndex ∧ Faces dir p r :=
    fun s hs hne hfaces ↦ List.mem_filter.mpr ⟨hs, decide_eq_true ⟨hne, hfaces⟩⟩
  rw [focusNeighbor_eq hp hnodup]
  rcases hbest : List.argmin (preference dir p)
    (rects.filter fun r ↦ r.paneIndex ≠ p.paneIndex ∧ Faces dir p r) with _ | best
  · rw [List.argmin_eq_none] at hbest
    exact absurd (hbest ▸ hkeep r hr hne hfaces) List.not_mem_nil
  · obtain ⟨hmem, hkept⟩ := List.mem_filter.mp (List.argmin_mem hbest)
    exact ⟨best, hmem, rfl, of_decide_eq_true hkept,
      fun s hs hne hfaces ↦ List.le_of_mem_argmin (hkeep s hs hne hfaces) hbest⟩

end Search

namespace FocusDir

def opposite : FocusDir → FocusDir
  | .left => .right
  | .right => .left
  | .up => .down
  | .down => .up

/-- The axis of the direction laid across. -/
def turn (dir : FocusDir) (b : Box) : Box :=
  match dir.axis with
  | .horizontal => b
  | .vertical => b.swap

/-- The gutter that a move crosses. -/
def gutter (cfg : LayoutConfig) (dir : FocusDir) : ℕ :=
  match dir.axis with
  | .horizontal => cfg.gutterCols
  | .vertical => cfg.gutterRows

/-- The gutter along the way of a move. -/
def crossGutter (cfg : LayoutConfig) (dir : FocusDir) : ℕ :=
  match dir.axis with
  | .horizontal => cfg.gutterRows
  | .vertical => cfg.gutterCols

end FocusDir

/-- The way back faces the pane that was left. -/
theorem Faces.opposite {dir : FocusDir} {p r : PaneRect} (h : Faces dir p r) :
    Faces dir.opposite r p := by
  obtain ⟨hside, hlap⟩ := h
  cases dir <;>
    exact ⟨hside, by simp only [sideOf, axisOverlap, FocusDir.opposite] at hlap ⊢; omega⟩

/-! ## The rectangles of a tree as a tiling -/

def PaneRect.box (r : PaneRect) : Box := ⟨r.col, r.row, r.cols, r.rows⟩

/-- Strips set one after the other, each filled on its own. -/
theorem fill_placed {α : Type*} {g : ℕ} {Fills : ℕ → ℕ → List Box → Prop}
    (hjoin : ∀ {pos len len' : ℕ} {bs bs' : List Box}, Fills pos len bs →
      Fills (pos + len + g) len' bs' → Fills pos (len + g + len') (bs ++ bs'))
    {f : (ℕ × ℕ) × α → List Box} : ∀ {lens : List ℕ} {cs : List α} {pos : ℕ}, lens ≠ [] →
      lens.length = cs.length → pos + (lens.sum + (lens.length - 1) * g) < 2 ^ 16 →
      (∀ e ∈ (placeFrom g pos lens).zip cs, Fills e.1.1 e.1.2 (f e)) →
      Fills pos (lens.sum + (lens.length - 1) * g) (((placeFrom g pos lens).zip cs).flatMap f) := by
  intro lens
  induction lens with
  | nil => exact fun hne ↦ absurd rfl hne
  | cons len lens ih =>
    intro cs pos _ hlen hfit hfill
    obtain ⟨c, cs, rfl⟩ := List.exists_cons_of_length_pos
      (show 0 < cs.length by rw [← hlen]; exact Nat.succ_pos _)
    rw [List.length_cons, List.length_cons, Nat.add_right_cancel_iff] at hlen
    rw [placeFrom, List.zip_cons_cons, List.forall_mem_cons] at hfill
    rw [placeFrom, List.zip_cons_cons, List.flatMap_cons, List.sum_cons, List.length_cons,
      Nat.add_sub_cancel]
    rw [List.sum_cons, List.length_cons, Nat.add_sub_cancel] at hfit
    rcases lens with _ | ⟨len', lens⟩
    · rw [placeFrom, List.zip_nil_left, List.flatMap_nil, List.append_nil]
      simpa using hfill.1
    · rw [List.length_cons, Nat.add_mul, Nat.one_mul] at hfit ⊢
      rw [satAdd_eq (x := pos) (y := len) (by omega), satAdd_eq (by omega)] at hfill ⊢
      have hrest := @ih cs (pos + len + g) (List.cons_ne_nil _ _) hlen
        (by rw [List.length_cons, Nat.add_sub_cancel]; omega) hfill.2
      rw [List.length_cons, Nat.add_sub_cancel] at hrest
      have hall := hjoin hfill.1 hrest
      rwa [show len + g + ((len' :: lens).sum + lens.length * g)
        = len + (len' :: lens).sum + (lens.length * g + g) by omega] at hall

namespace LayoutNode

variable {cfg : LayoutConfig}

/-- The children of a split fill its extent. -/
theorem fill_childExtents {g start total : ℕ} {ratios : List ℕ} {cs : List LayoutNode}
    {Fills : ℕ → ℕ → List Box → Prop}
    (hjoin : ∀ {pos len len' : ℕ} {bs bs' : List Box}, Fills pos len bs →
      Fills (pos + len + g) len' bs' → Fills pos (len + g + len') (bs ++ bs'))
    {f : (ℕ × ℕ) × LayoutNode → List Box} (hsum : ratios.sum = 1000)
    (harity : ratios.length = cs.length) (hfit : start + total < 2 ^ 16)
    (hg : (ratios.length - 1) * g ≤ total)
    (hfill : ∀ e ∈ (childExtents start total ratios g).zip cs, Fills e.1.1 e.1.2 (f e)) :
    Fills start total (((childExtents start total ratios g).zip cs).flatMap f) := by
  have hlen := length_apportion (total - (ratios.length - 1) * g) ratios
  have hextent : (apportion (total - (ratios.length - 1) * g) ratios).sum
      + ((apportion (total - (ratios.length - 1) * g) ratios).length - 1) * g = total := by
    rw [sum_apportion (by omega) hsum, hlen, Nat.sub_add_cancel hg]
  have hne : apportion (total - (ratios.length - 1) * g) ratios ≠ [] := by
    intro hnil
    rw [hnil, List.length_nil, eq_comm, List.length_eq_zero_iff] at hlen
    rw [hlen] at hsum
    exact absurd hsum (by decide)
  rw [childExtents_eq hsum (by omega) hg] at hfill ⊢
  have hall := fill_placed hjoin hne (hlen.trans harity) (by rwa [hextent]) hfill
  rwa [hextent] at hall

/-- **The rectangles of the panes** are what straight cuts leave of the content area. -/
theorem cut_resolveInto {t : LayoutNode} (ht : t.WellFormed) (hminCols : 0 < cfg.minCols)
    (hminRows : 0 < cfg.minRows) : ∀ {col row cols rows : ℕ}, col + cols < 2 ^ 16 →
      row + rows < 2 ^ 16 → Unclamped cfg col row cols rows t →
      Cut cfg.gutterCols cfg.gutterRows ⟨col, row, cols, rows⟩
        ((resolveInto cfg col row cols rows t).map PaneRect.box) := by
  induction ht with
  | leaf p =>
    intro col row cols rows _ _ h
    rw [Unclamped] at h
    rw [resolveInto, max_eq_left h.1, max_eq_left h.2]
    exact Cut.whole _ (hminCols.trans_le h.1) (hminRows.trans_le h.2)
  | split dir two arity weights below ih =>
    rename_i ratios cs
    intro col row cols rows hcols hrows h
    have ht : (split dir ratios cs).WellFormed := .split dir two arity weights below
    cases dir with
    | horizontal =>
      obtain ⟨hg, hbelow⟩ := unclamped_horizontal ht (by omega) (by omega) h
      rw [resolveInto, resolveCols_eq, List.map_flatMap]
      refine @fill_childExtents _ _ _ _ _ (fun pos len bs ↦
        Cut cfg.gutterCols cfg.gutterRows ⟨pos, row, len, rows⟩ bs) Cut.beside _ weights arity
        hcols hg fun e he ↦ ?_
      have hmem := childExtents_mem weights hcols hg e.1 (List.of_mem_zip he).1
      exact ih e.2 (List.of_mem_zip he).2 (by omega) hrows (hbelow e he)
    | vertical =>
      obtain ⟨hg, hbelow⟩ := unclamped_vertical ht (by omega) (by omega) h
      rw [resolveInto, resolveRows_eq, List.map_flatMap]
      refine @fill_childExtents _ _ _ _ _ (fun pos len bs ↦
        Cut cfg.gutterCols cfg.gutterRows ⟨col, pos, cols, len⟩ bs) Cut.above _ weights arity
        hrows hg fun e he ↦ ?_
      have hmem := childExtents_mem weights hrows hg e.1 (List.of_mem_zip he).1
      exact ih e.2 (List.of_mem_zip he).2 hcols (by omega) (hbelow e he)

end LayoutNode

/-! ## The move -/

/-- Whether a pane is at the edge of the content area on this side. -/
def AtEdge (areaCols areaRows : ℕ) (p : PaneRect) : FocusDir → Prop
  | .left => p.col = 0
  | .right => p.col + p.cols = areaCols
  | .up => p.row = 0
  | .down => p.row + p.rows = areaRows

/-- How much of a pane is open to a side. -/
def breadth (p : PaneRect) (dir : FocusDir) : ℕ :=
  match dir.axis with
  | .horizontal => p.rows
  | .vertical => p.cols

/-- How far it is from one box to the next, on the axis. -/
def gap (grow : Bool) (b c : Box) : ℤ :=
  if grow then (c.x : ℤ) - (b.x + b.w : ℕ) else (b.x : ℤ) - (c.x + c.w : ℕ)

section Tiling

variable {areaCols areaRows gutterCols gutterRows : ℕ} {rects : List PaneRect} {p r : PaneRect}
  (hcols : areaCols < 2 ^ 16) (hrows : areaRows < 2 ^ 16)
  (hcut : Cut gutterCols gutterRows ⟨0, 0, areaCols, areaRows⟩ (rects.map PaneRect.box))

include hcols hrows hcut in
/-- The search on the axis laid across. -/
theorem sideOf_turn (dir : FocusDir) (hp : p ∈ rects) (hr : r ∈ rects) :
    (sideOf dir p r).2.1 = gap dir.grow (dir.turn p.box) (dir.turn r.box) ∧
      (Faces dir p r ↔ 0 ≤ gap dir.grow (dir.turn p.box) (dir.turn r.box) ∧
        (dir.turn r.box).Meets (dir.turn p.box).y
          ((dir.turn p.box).y + (dir.turn p.box).h)) := by
  have hin := hcut.inside (List.mem_map_of_mem hp)
  have hin' := hcut.inside (List.mem_map_of_mem hr)
  have hpos := hcut.pos_of_mem (List.mem_map_of_mem hp)
  have hpos' := hcut.pos_of_mem (List.mem_map_of_mem hr)
  simp only [PaneRect.box] at hin hin' hpos hpos'
  have hright : ∀ {s : PaneRect}, s.col + s.cols ≤ 0 + areaCols → rightEdge s = s.col + s.cols :=
    fun h ↦ satAdd_eq (by omega)
  have hbottom : ∀ {s : PaneRect}, s.row + s.rows ≤ 0 + areaRows → bottomEdge s = s.row + s.rows :=
    fun h ↦ satAdd_eq (by omega)
  rw [Faces]
  cases dir <;>
    simp only [sideOf, gap, FocusDir.turn, FocusDir.axis, FocusDir.grow, PaneRect.box, Box.swap,
      Box.Meets, hright hin.1.2, hright hin'.1.2, hbottom hin.2.2, hbottom hin'.2.2,
      axisOverlap_ne_zero hpos.1 hpos'.1, axisOverlap_ne_zero hpos.2 hpos'.2, decide_eq_true_iff,
      if_true, Bool.false_eq_true, if_false, true_and] <;>
    omega

include hcut in
theorem cut_turn {cfg : LayoutConfig} (hcfg : cfg.gutterCols = gutterCols)
    (hcfg' : cfg.gutterRows = gutterRows) (dir : FocusDir) :
    Cut (dir.gutter cfg) (dir.crossGutter cfg) (dir.turn ⟨0, 0, areaCols, areaRows⟩)
      (rects.map fun r ↦ dir.turn r.box) := by
  subst hcfg hcfg'
  have hswap := hcut.swap
  rw [List.map_map] at hswap
  cases dir
  · exact hcut
  · exact hcut
  · exact hswap
  · exact hswap

end Tiling

/-- The edge, on the axis laid across. -/
theorem atEdge_turn {areaCols areaRows : ℕ} {p : PaneRect} {dir : FocusDir} :
    AtEdge areaCols areaRows p dir ↔ if dir.grow
      then (dir.turn p.box).x + (dir.turn p.box).w
        = (dir.turn ⟨0, 0, areaCols, areaRows⟩).x + (dir.turn ⟨0, 0, areaCols, areaRows⟩).w
      else (dir.turn p.box).x = (dir.turn ⟨0, 0, areaCols, areaRows⟩).x := by
  cases dir <;>
    simp [AtEdge, FocusDir.turn, FocusDir.axis, FocusDir.grow, PaneRect.box, Box.swap]

section Across

variable {gx gy : ℕ} {a b c : Box} {bs : List Box} (h : Cut gx gy a bs) {grow : Bool}

include h in
/-- From the edge nothing lies ahead. -/
theorem gap_neg_of_edge (hc : c ∈ bs)
    (hedge : if grow then b.x + b.w = a.x + a.w else b.x = a.x) : gap grow b c < 0 := by
  have hin := h.inside hc
  have hpos := h.pos_of_mem hc
  rw [gap]
  split_ifs at hedge ⊢ <;> omega

include h in
/-- What lies ahead is across a gutter. -/
theorem le_gap (hb : b ∈ bs) (hc : c ∈ bs) (hahead : 0 ≤ gap grow b c)
    (hmeets : c.Meets b.y (b.y + b.h)) : (gx : ℤ) ≤ gap grow b c := by
  have hpos := h.pos_of_mem hb
  have hpos' := h.pos_of_mem hc
  have hne : c ≠ b := by
    rintro rfl
    rw [gap] at hahead
    split_ifs at hahead <;> omega
  have hapart := h.apart hb hc hne hmeets
  rw [gap] at hahead ⊢
  split_ifs at hahead ⊢ <;> omega

include h in
/-- Off the edge something lies ahead, with just the gutter between. -/
theorem exists_gap_eq (hb : b ∈ bs) (htall : gy < b.h)
    (hedge : ¬ if grow then b.x + b.w = a.x + a.w else b.x = a.x) :
    ∃ c ∈ bs, gap grow b c = gx ∧ c.Meets b.y (b.y + b.h) := by
  have hin := h.inside hb
  obtain ⟨hbefore, hbehind⟩ := h.beside_of_tall hb htall
  cases grow with
  | false =>
    simp only [Bool.false_eq_true, if_false] at hedge
    obtain ⟨c, hc, hx, hmeets⟩ := hbefore (by omega)
    exact ⟨c, hc, by simp only [gap, Bool.false_eq_true, if_false]; omega, hmeets⟩
  | true =>
    simp only [if_true] at hedge
    obtain ⟨c, hc, hx, hmeets⟩ := hbehind (by omega)
    exact ⟨c, hc, by simp only [gap, if_true]; omega, hmeets⟩

end Across

namespace LayoutNode

variable {cfg : LayoutConfig} {t : LayoutNode} {areaCols areaRows : ℕ} {p : PaneRect}

/-- **Moving the focus.** In a layout with room for every pane, no arrow leads off the edge. From a
pane that is broader than the dividers are wide, an arrow that does not point off the edge leads
across one gutter, and of the panes over there to the one it shares most with. Wherever an arrow
leads, the opposite one leads somewhere. -/
theorem focusNeighbor_of_tiling (ht : t.WellFormed) (hnodup : t.leaves.Nodup)
    (hminCols : 0 < cfg.minCols) (hminRows : 0 < cfg.minRows) (hcols : areaCols < 2 ^ 16)
    (hrows : areaRows < 2 ^ 16) (hroom : Unclamped cfg 0 0 areaCols areaRows t)
    (hp : p ∈ resolveLayout t areaCols areaRows cfg) (dir : FocusDir) :
    (AtEdge areaCols areaRows p dir →
      focusNeighbor (resolveLayout t areaCols areaRows cfg) p.paneIndex dir = none) ∧
    (¬ AtEdge areaCols areaRows p dir → dir.crossGutter cfg < breadth p dir →
      ∃ r ∈ resolveLayout t areaCols areaRows cfg,
        focusNeighbor (resolveLayout t areaCols areaRows cfg) p.paneIndex dir
          = some r.paneIndex ∧
        Faces dir p r ∧ (sideOf dir p r).2.1 = dir.gutter cfg ∧
        ∀ s ∈ resolveLayout t areaCols areaRows cfg, Faces dir p s →
          (sideOf dir p s).2.1 = dir.gutter cfg → (sideOf dir p s).2.2 ≤ (sideOf dir p r).2.2) ∧
    ∀ q, focusNeighbor (resolveLayout t areaCols areaRows cfg) p.paneIndex dir = some q →
      ∃ r ∈ resolveLayout t areaCols areaRows cfg, r.paneIndex = q ∧ Faces dir p r ∧
        (dir.gutter cfg : ℤ) ≤ (sideOf dir p r).2.1 ∧
        focusNeighbor (resolveLayout t areaCols areaRows cfg) q dir.opposite ≠ none := by
  have hcut := cut_resolveInto ht hminCols hminRows (by omega) (by omega) hroom
  have hindices := (exact_tiling ht hcols hrows hroom).1
  rw [← hindices] at hnodup
  rw [← resolveLayout] at hcut
  generalize resolveLayout t areaCols areaRows cfg = rects at *
  have hturn := cut_turn hcut rfl rfl dir
  have hside := fun {r : PaneRect} ↦ sideOf_turn (r := r) hcols hrows hcut dir hp
  have hbox : ∀ {r : PaneRect}, r ∈ rects → dir.turn r.box ∈ rects.map fun r ↦ dir.turn r.box :=
    fun hr ↦ List.mem_map_of_mem hr
  -- a pane is not ahead of itself
  have hother : ∀ {r : PaneRect}, r ∈ rects → Faces dir p r → r.paneIndex ≠ p.paneIndex := by
    intro r hr hfaces heq
    obtain rfl := List.inj_on_of_nodup_map hnodup hr hp heq
    have hahead := ((hside hp).2.mp hfaces).1
    have hpos := hturn.pos_of_mem (hbox hp)
    rw [gap] at hahead
    split_ifs at hahead <;> omega
  have hfar : ∀ {r : PaneRect}, r ∈ rects → Faces dir p r →
      (dir.gutter cfg : ℤ) ≤ (sideOf dir p r).2.1 := by
    intro r hr hfaces
    obtain ⟨hahead, hmeets⟩ := (hside hr).2.mp hfaces
    rw [(hside hr).1]
    exact le_gap hturn (hbox hp) (hbox hr) hahead hmeets
  refine ⟨fun hedge ↦ ?_, fun hedge hbroad ↦ ?_, fun q hq ↦ ?_⟩
  · rw [focusNeighbor_eq_none hp hnodup]
    intro r hr _ hfaces
    have hneg := gap_neg_of_edge hturn (hbox hr) (atEdge_turn.mp hedge)
    exact absurd ((hside hr).2.mp hfaces).1 (not_le.mpr hneg)
  · have htall : dir.crossGutter cfg < (dir.turn p.box).h := by cases dir <;> exact hbroad
    obtain ⟨c, hc, hgap, hmeets⟩ := exists_gap_eq hturn (hbox hp) htall fun h ↦
      hedge (atEdge_turn.mpr h)
    obtain ⟨r, hr, rfl⟩ := List.mem_map.mp hc
    have hfaces : Faces dir p r := (hside hr).2.mpr ⟨by omega, hmeets⟩
    obtain ⟨best, hbest, heq, ⟨-, hfaces'⟩, hleast⟩ :=
      focusNeighbor_eq_some hp hnodup hr (hother hr hfaces) hfaces
    have hle : ∀ s ∈ rects, Faces dir p s → (sideOf dir p best).2.1 < (sideOf dir p s).2.1 ∨
        (sideOf dir p best).2.1 = (sideOf dir p s).2.1 ∧
          (sideOf dir p s).2.2 ≤ (sideOf dir p best).2.2 :=
      fun s hs hfaces ↦ Prod.Lex.toLex_le_toLex.mp (hleast s hs (hother hs hfaces) hfaces)
    have hacross : (sideOf dir p best).2.1 = dir.gutter cfg := by
      have hnear := hle r hr hfaces
      rw [(hside hr).1, hgap] at hnear
      have := hfar hbest hfaces'
      omega
    refine ⟨best, hbest, heq, hfaces', hacross, fun s hs hfaces hdist ↦ ?_⟩
    have := hle s hs hfaces
    omega
  · obtain ⟨r, hr, hne, hfaces⟩ : ∃ r ∈ rects, r.paneIndex ≠ p.paneIndex ∧ Faces dir p r := by
      by_contra hnone
      rw [(focusNeighbor_eq_none hp hnodup).mpr fun r hr hne hfaces ↦
        hnone ⟨r, hr, hne, hfaces⟩] at hq
      exact absurd hq (by simp)
    obtain ⟨best, hbest, heq, ⟨hne', hfaces'⟩, -⟩ := focusNeighbor_eq_some hp hnodup hr hne hfaces
    obtain rfl : best.paneIndex = q := Option.some.inj (heq.symm.trans hq)
    refine ⟨best, hbest, rfl, hfaces', hfar hbest hfaces', fun hback ↦ ?_⟩
    exact (focusNeighbor_eq_none hbest hnodup).mp hback p hp hne'.symm hfaces'.opposite

theorem childExtents_halves : childExtents 0 81 [500, 500] 1 = [(0, 40), (41, 40)] := by
  have happortion : apportion 80 [500, 500] = [40, 40] := by
    rw [apportion, if_neg (by decide)]
    dsimp only
    rw [List.mergeSort_of_pairwise (by decide)]
    decide
  rw [childExtents, if_neg (by decide)]
  change placeFrom 1 0 (apportion 80 [500, 500]) = _
  rw [happortion]
  decide

/-- The hypotheses can be met: right from the left one of two panes side by side. -/
theorem focusNeighbor_of_tiling_right : ∃ r ∈ resolveLayout sideBySide 81 24 {},
    focusNeighbor (resolveLayout sideBySide 81 24 {}) 0 .right = some r.paneIndex ∧
      Faces .right ⟨0, 0, 0, 40, 24⟩ r ∧ (sideOf .right ⟨0, 0, 0, 40, 24⟩ r).2.1 = 1 := by
  have ht : sideBySide.WellFormed := by
    refine .split .horizontal le_rfl rfl rfl fun c hc ↦ ?_
    rw [List.mem_pair] at hc
    rcases hc with rfl | rfl <;> exact .leaf _
  have hroom : Unclamped {} 0 0 81 24 sideBySide := by
    rw [sideBySide, Unclamped, childExtents_halves, UnclampedCols, UnclampedCols, UnclampedCols,
      Unclamped, Unclamped]
    · decide
    · simp
  have hp : ⟨0, 0, 0, 40, 24⟩ ∈ resolveLayout sideBySide 81 24 {} := by
    rw [resolveLayout, sideBySide, resolveInto, resolveCols_eq, childExtents_halves]
    decide
  have hnodup : sideBySide.leaves.Nodup := by
    rw [← @resolveInto_paneIndex {} _ ht 0 0 81 24, sideBySide, resolveInto, resolveCols_eq,
      childExtents_halves]
    decide
  obtain ⟨r, hr, heq, hfaces, hdist, -⟩ := (focusNeighbor_of_tiling ht hnodup (by decide)
    (by decide) (by decide) (by decide) hroom hp .right).2.1 (show ¬ 0 + 40 = 81 by decide)
    (show 1 < 24 by decide)
  exact ⟨r, hr, heq, hfaces, hdist⟩

end LayoutNode

end Kmux
