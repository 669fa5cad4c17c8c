import Kmux.Client.RowStamps
import Kmux.Render.Geometry
import Mathlib.Data.Rat.Defs

/-!
# The scene cache

Between frames the cell layer of unscrolled grids is kept row by row. A row is used again while the
signature of the frame, the address of the grid and the number of rows are what they were, and the
stamp of the row is the one it was built at.

A stamp stands for what a row shows as long as it is a stamp of the same grid, and of one that
stamped whatever was written. An address says neither: another grid may be made where the old one
was, and its stamps start from zero. And the rows kept are those of the pane, while the plain scene
draws those of the grid. `Sound` is what has to be asked of a step on these accounts.
-/

namespace Kmux.Render

open SceneGeometry
open Num32 (asF32)

/-! ## The source's functions -/

/-- The stamp that no row has. -/
def neverBuilt : ℕ := 2 ^ 64 - 1

/-- The cell layer of one row and the stamp it was built at. -/
structure CachedRow (F : Type) where
  rowGen : ℕ := 0
  scene : SceneGeometry F := {}

/-- The rows kept for a pane and the address of the grid they were built from. -/
structure PaneRowCache (F : Type) where
  gridId : ℕ := 0
  rows : List (CachedRow F) := []

/-- All that the cell layer depends on besides the rows themselves. -/
structure FrameSig (F : Type) where
  palette : Theme
  metrics : CellMetrics F
  width : UInt32
  height : UInt32
  panes : List (UInt16 × UInt16 × UInt16 × UInt16)

structure SceneCache (F : Type) where
  sig : Option (FrameSig F) := none
  panes : List (PaneRowCache F) := []
  rebuiltRows : ℕ := 0

section Source

variable {F : Type} [Num32 F]

def CellMetrics.same (a b : CellMetrics F) : Bool :=
  a.cellW == b.cellW && a.cellH == b.cellH && a.underlineY == b.underlineY &&
    a.underlineThickness == b.underlineThickness && a.strikethroughY == b.strikethroughY &&
    a.strikethroughThickness == b.strikethroughThickness &&
    a.cursorThickness == b.cursorThickness

def FrameSig.same (a b : FrameSig F) : Bool :=
  decide (a.palette = b.palette) && a.metrics.same b.metrics && decide (a.width = b.width) &&
    decide (a.height = b.height) && decide (a.panes = b.panes)

def frameSig (frame : Frame) (m : CellMetrics F) : FrameSig F where
  palette := frame.palette
  metrics := m
  width := frame.width
  height := frame.height
  panes := frame.panes.map fun p ↦ (p.col, p.row, p.cols, p.rows)

/-- The cell layer of one row of an unscrolled grid. -/
def buildGridRow (palette : Theme) (m : CellMetrics F) (ox oy : F) (grid : CellGrid) (vr : ℕ) :
    SceneGeometry F :=
  concat <| (List.range grid.cols).map fun vc ↦
    emitCell m ox oy vr vc
      (resolveGridCell (grid.content.cells[vr * grid.cols + vc]?.getD default) palette)

/-- A kept row, or the row built anew if its stamp is another one. -/
def CachedRow.refresh (row : CachedRow F) (palette : Theme) (m : CellMetrics F) (ox oy : F)
    (grid : CellGrid) (vr : ℕ) : CachedRow F :=
  let rowGen := grid.content.rowGeneration vr
  if row.rowGen = rowGen then row else ⟨rowGen, buildGridRow palette m ox oy grid vr⟩

/-- The rows of a pane before they are looked at: those kept, or as many that have to be built. -/
def PaneRowCache.prepare (pc : PaneRowCache F) (reusable : Bool) (addr nrows : ℕ) :
    PaneRowCache F :=
  if !reusable || pc.gridId != addr || pc.rows.length != nrows then
    ⟨addr, List.replicate nrows { rowGen := neverBuilt }⟩
  else pc

/-- One pane: its cache afterwards, what it adds to the scene, and how many rows were built. -/
def drawPane (grids : ℕ → CellGrid) (frame : Frame) (m : CellMetrics F) (reusable : Bool)
    (pc : PaneRowCache F) (pane : PaneView) : PaneRowCache F × SceneGeometry F × ℕ :=
  let ox := asF32 pane.col.toNat * m.cellW
  let oy := asF32 pane.row.toNat * m.cellH
  let grid? := match pane.cells with
    | .grid addr => if (grids addr).view.scrollOffset = 0 then some addr else none
    | .packed _ => none
  let overlays := emitPaneOverlays grids frame pane m ox oy
  match grid? with
  | some addr =>
    let grid := grids addr
    let prepared := pc.prepare reusable addr pane.rows.toNat
    let rows := prepared.rows.mapIdx fun vr row ↦ row.refresh frame.palette m ox oy grid vr
    let rebuilt := (prepared.rows.zipIdx.filter fun row ↦
      row.1.rowGen ≠ grid.content.rowGeneration row.2).length
    (⟨addr, rows⟩, concat (rows.map CachedRow.scene) ++ overlays, rebuilt)
  | none => ({}, emitPaneCells grids frame pane m ox oy ++ overlays, 0)

/-- The scene of a frame, with rows of earlier frames used again. -/
def buildSceneCached (grids : ℕ → CellGrid) (frame : Frame) (m : CellMetrics F)
    (cache : SceneCache F) : SceneGeometry F × SceneCache F :=
  let sig := frameSig frame m
  let reusable := cache.sig.any fun old ↦ old.same sig
  let panes := if cache.panes.length ≠ frame.panes.length then
      List.replicate frame.panes.length {}
    else cache.panes
  let drawn := List.zipWith (drawPane grids frame m reusable) panes frame.panes
  (concat (drawn.map fun pane ↦ pane.2.1),
    { sig := some sig
      panes := drawn.map fun pane ↦ pane.1
      rebuiltRows := (drawn.map fun pane ↦ pane.2.2).sum })

end Source

/-! ## Frames and grids over time -/

/-- The grid at every address, and the cache. -/
structure World (F : Type) where
  grids : ℕ → CellGrid
  cache : SceneCache F

/-- Something happens to a grid; it is dropped, and another one made where it was; or a frame is
drawn. -/
inductive Action (F : Type)
  | grid (addr : ℕ) (event : GridEvent)
  | create (addr rows cols : ℕ)
  | draw (frame : Frame) (metrics : CellMetrics F)

namespace World

variable {F : Type} [Num32 F]

/-- Blank grids of any sizes, and nothing in the cache. -/
def start (size : ℕ → ℕ × ℕ) : World F where
  grids addr := CellGrid.new (size addr).1 (size addr).2
  cache := {}

def step (w : World F) : Action F → World F
  | .grid addr event => { w with grids := Function.update w.grids addr ((w.grids addr).step event) }
  | .create addr rows cols =>
    { w with grids := Function.update w.grids addr (CellGrid.new rows cols) }
  | .draw frame m => { w with cache := (buildSceneCached w.grids frame m w.cache).2 }

/-- Rows built from the grid at an address are kept. -/
def Keeps (w : World F) (addr : ℕ) : Prop :=
  ∃ pc ∈ w.cache.panes, pc.gridId = addr ∧ pc.rows ≠ []

/-- What a step must not do: write into a row that it does not stamp, or make a new grid, where rows
of the old one are kept; draw an unscrolled grid in a pane of another height; and there must be a
stamp left that no row has. -/
def Sound (w : World F) : Action F → Prop
  | .grid addr (.op op) => w.Keeps addr → (w.grids addr).content.StampsWrites op
  | .grid _ _ => True
  | .create addr _ _ => ¬w.Keeps addr
  | .draw frame _ => ∀ pane ∈ frame.panes, ∀ addr, pane.cells = .grid addr →
      (w.grids addr).view.scrollOffset = 0 → pane.rows.toNat = (w.grids addr).rows ∧
        (w.grids addr).content.cellsGeneration < neverBuilt

end World

/-! ## A later state of the same grid -/

/-- A grid some operations later: rows not stamped since are as they were, and if the size changed
every row was stamped since. -/
structure Follows (g₀ g : GridContent) : Prop where
  since : GridContent.Since g₀ g
  size : (g.rows = g₀.rows ∧ g.cols = g₀.cols) ∨
    ∀ row < g.rows, g₀.cellsGeneration < g.rowGeneration row

namespace Follows

variable {g₀ g : GridContent}

theorem refl (g : GridContent) : Follows g g := ⟨.refl g, .inl ⟨rfl, rfl⟩⟩

theorem step (h : Follows g₀ g) (hw : g.WellStamped) {op : ContentOp} (hop : g.StampsWrites op) :
    Follows g₀ (g.step op) := by
  refine ⟨h.since.step hw hop, ?_⟩
  rcases g.step_cases op with ⟨diff, rfl⟩ | ⟨hall, hlt⟩ | ⟨hsame, -⟩
  · have hsize := GridContent.sameContent_applyDiff g diff
    change ((g.applyDiff diff).1.rows = _ ∧ (g.applyDiff diff).1.cols = _) ∨
      ∀ row < (g.applyDiff diff).1.rows, _ < (g.applyDiff diff).1.rowGeneration row
    rw [hsize.rows, hsize.cols]
    refine h.size.imp_right fun hstamps row hrow ↦ ?_
    rw [GridContent.rowGeneration_applyDiff hw diff hrow]
    split_ifs
    · exact (hstamps row hrow).trans_le
        ((hw.rowGeneration_le row).trans (GridContent.applyDiff_stamps g diff).1)
    · exact hstamps row hrow
  · refine .inr fun row hrow ↦ ?_
    rw [GridContent.rowGeneration, hall, List.getElem?_replicate_of_lt hrow, Option.getD_some]
    exact h.since.generation_le.trans_lt hlt
  · rw [hsame.screen.rows, hsame.screen.cols]
    refine h.size.imp_right fun hstamps row hrow ↦ ?_
    rw [GridContent.rowGeneration, hsame.rowGens]
    exact hstamps row hrow

/-- A row with an old stamp shows what it showed. -/
theorem same_row (h : Follows g₀ g) {row : ℕ} (hrow : row < g.rows)
    (hstamp : g.rowGeneration row ≤ g₀.cellsGeneration) :
    g.cols = g₀.cols ∧ g.rowCells row = g₀.rowCells row := by
  refine ⟨?_, h.since.same row hrow hstamp⟩
  obtain ⟨-, hcols⟩ | hstamps := h.size
  · exact hcols
  · exact absurd hstamp (Nat.not_le.mpr (hstamps row hrow))

end Follows

/-! ## One row -/

section Rows

variable {F : Type} [Num32 F] {palette : Theme} {m : CellMetrics F} {ox oy : F}

/-- A row depends on the row's cells alone. -/
theorem buildGridRow_eq {g : CellGrid} (hsynced : g.Synced) (vr : ℕ) :
    buildGridRow palette m ox oy g vr = concat ((List.range g.content.cols).map fun vc ↦
      emitCell m ox oy vr vc
        (resolveGridCell ((g.content.rowCells vr)[vc]?.getD default) palette)) := by
  rw [buildGridRow, hsynced.cols]
  refine congrArg concat (List.map_congr_left fun vc hvc ↦ ?_)
  rw [GridContent.getElem?_rowCells, if_pos (List.mem_range.mp hvc)]

/-- The row was built from an earlier state of the grid, at the stamp it had there. -/
def Built (palette : Theme) (m : CellMetrics F) (ox oy : F) (g : CellGrid) (vr : ℕ)
    (row : CachedRow F) : Prop :=
  ∃ g₀ : CellGrid, g₀.Synced ∧ Follows g₀.content g.content ∧
    row.rowGen = g₀.content.rowGeneration vr ∧ row.rowGen ≤ g₀.content.cellsGeneration ∧
    row.scene = buildGridRow palette m ox oy g₀ vr

theorem Built.imp {g g' : CellGrid} {vr : ℕ} {row : CachedRow F}
    (h : Built palette m ox oy g vr row)
    (hfollows : ∀ g₀, Follows g₀ g.content → Follows g₀ g'.content) :
    Built palette m ox oy g' vr row := by
  obtain ⟨g₀, hsynced, hg, hgen, hle, hscene⟩ := h
  exact ⟨g₀, hsynced, hfollows _ hg, hgen, hle, hscene⟩

theorem built_self {g : CellGrid} (hsynced : g.Synced) (hstamped : g.content.WellStamped)
    (vr : ℕ) :
    Built palette m ox oy g vr
      ⟨g.content.rowGeneration vr, buildGridRow palette m ox oy g vr⟩ :=
  ⟨g, hsynced, .refl _, rfl, hstamped.rowGeneration_le vr, rfl⟩

/-- Refreshed, a row is what would be built now, whether it was built before or never. -/
theorem refresh_eq {g : CellGrid} (hsynced : g.Synced) {vr : ℕ} (hvr : vr < g.rows)
    {row : CachedRow F} (hbuilt : row.rowGen ≠ g.content.rowGeneration vr ∨
      Built palette m ox oy g vr row) :
    row.refresh palette m ox oy g vr =
      ⟨g.content.rowGeneration vr, buildGridRow palette m ox oy g vr⟩ := by
  rw [CachedRow.refresh]
  split_ifs with hsame
  · obtain hne | ⟨g₀, hsynced₀, hfollows, -, hle, hscene⟩ := hbuilt
    · exact absurd hsame hne
    obtain ⟨hcols, hcells⟩ := hfollows.same_row (hsynced.rows ▸ hvr) (hsame ▸ hle)
    obtain ⟨rowGen, scene⟩ := row
    dsimp only at hsame hscene
    rw [hsame, hscene, buildGridRow_eq hsynced, buildGridRow_eq hsynced₀, hcols, hcells]
  · rfl

/-- Row by row the cell layer of an unscrolled grid is the plain one. -/
theorem emitPaneCells_eq {grids : ℕ → CellGrid} {frame : Frame} {pane : PaneView} {addr : ℕ}
    (hpane : pane.cells = .grid addr) (hscroll : (grids addr).view.scrollOffset = 0) :
    emitPaneCells grids frame pane m ox oy =
      concat ((List.range (grids addr).rows).map
        (buildGridRow frame.palette m ox oy (grids addr))) := by
  rw [emitPaneCells, hpane]
  dsimp only
  rw [CellGrid.forEachDisplayedCell, List.map_flatMap, concat_flatMap]
  refine congrArg concat (List.map_congr_left fun vr _ ↦ ?_)
  rw [buildGridRow, List.map_map]
  refine congrArg concat (List.map_congr_left fun vc _ ↦ ?_)
  simp [hscroll]

end Rows

/-! ## One pane -/

section Panes

variable {F : Type} [Num32 F] {grids : ℕ → CellGrid} {frame : Frame} {m : CellMetrics F}

/-- The rows kept for a pane were built from its grid, for this place on the screen. -/
def PaneRowCache.BuiltFor (pc : PaneRowCache F) (grids : ℕ → CellGrid) (palette : Theme)
    (m : CellMetrics F) (col row : UInt16) : Prop :=
  ∀ vr kept, pc.rows[vr]? = some kept →
    Built palette m (asF32 col.toNat * m.cellW) (asF32 row.toNat * m.cellH) (grids pc.gridId) vr
      kept

/-- As many rows as the pane has, each built from its grid or to be built. -/
theorem prepare_spec {reusable : Bool} {pc : PaneRowCache F} {col row : UInt16}
    (hkept : reusable = true → pc.BuiltFor grids frame.palette m col row) (addr nrows : ℕ) :
    (pc.prepare reusable addr nrows).rows.length = nrows ∧
      ∀ vr kept, (pc.prepare reusable addr nrows).rows[vr]? = some kept →
        kept.rowGen = neverBuilt ∨
          Built frame.palette m (asF32 col.toNat * m.cellW) (asF32 row.toNat * m.cellH)
            (grids addr) vr kept := by
  rw [PaneRowCache.prepare]
  split_ifs with hreset
  · refine ⟨List.length_replicate, fun vr kept hrow ↦ .inl ?_⟩
    rw [List.eq_of_mem_replicate (List.mem_of_getElem? hrow)]
  · simp only [Bool.or_eq_true, Bool.not_eq_true', bne_iff_ne, not_or, Bool.not_eq_false,
      not_not] at hreset
    obtain ⟨⟨hreusable, haddr⟩, hlength⟩ := hreset
    refine ⟨hlength, fun vr kept hrow ↦ .inr ?_⟩
    exact haddr ▸ hkept hreusable vr kept hrow

/-- The rows of an unscrolled grid after they were looked at. -/
theorem refreshed_rows (hsynced : ∀ addr, (grids addr).Synced)
    (hstamped : ∀ addr, (grids addr).content.WellStamped) {reusable : Bool}
    {pc : PaneRowCache F} {col row : UInt16}
    (hkept : reusable = true → pc.BuiltFor grids frame.palette m col row) {addr : ℕ}
    (hgen : (grids addr).content.cellsGeneration < neverBuilt) :
    ((pc.prepare reusable addr (grids addr).rows).rows.mapIdx fun vr kept ↦
      kept.refresh frame.palette m (asF32 col.toNat * m.cellW) (asF32 row.toNat * m.cellH)
        (grids addr) vr) =
      (List.range (grids addr).rows).map fun vr ↦ ⟨(grids addr).content.rowGeneration vr,
        buildGridRow frame.palette m (asF32 col.toNat * m.cellW) (asF32 row.toNat * m.cellH)
          (grids addr) vr⟩ := by
  obtain ⟨hlength, hrows⟩ := prepare_spec hkept addr (grids addr).rows
  refine List.ext_getElem (by simp [hlength]) fun vr hvr hvr' ↦ ?_
  rw [List.getElem_mapIdx, List.getElem_map, List.getElem_range]
  have hlt : vr < (grids addr).rows := by simpa using hvr'
  refine refresh_eq (hsynced addr) hlt ?_
  obtain hnever | hbuilt := hrows vr _ (List.getElem?_eq_getElem (hlength.symm ▸ hlt))
  · refine .inl ?_
    have := (hstamped addr).rowGeneration_le vr
    omega
  · exact .inr hbuilt

/-- **One pane.** What it adds is what it adds to the plain scene, and what is kept was built from
its grid. -/
theorem drawPane_spec (hsynced : ∀ addr, (grids addr).Synced)
    (hstamped : ∀ addr, (grids addr).content.WellStamped) {reusable : Bool}
    {pc : PaneRowCache F} {pane : PaneView}
    (hkept : reusable = true → pc.BuiltFor grids frame.palette m pane.col pane.row)
    (hsound : ∀ addr, pane.cells = .grid addr → (grids addr).view.scrollOffset = 0 →
      pane.rows.toNat = (grids addr).rows ∧
        (grids addr).content.cellsGeneration < neverBuilt) :
    (drawPane grids frame m reusable pc pane).2.1 = emitPane grids frame pane m ∧
      (drawPane grids frame m reusable pc pane).1.BuiltFor grids frame.palette m pane.col
        pane.row := by
  have hnone : PaneRowCache.BuiltFor ({} : PaneRowCache F) grids frame.palette m pane.col
      pane.row := by
    intro vr kept hrow
    simp at hrow
  rw [drawPane, emitPane]
  cases hcells : pane.cells with
  | packed buffer => exact ⟨rfl, hnone⟩
  | grid addr =>
    by_cases hscroll : (grids addr).view.scrollOffset = 0
    · obtain ⟨hnrows, hgen⟩ := hsound addr hcells hscroll
      have hrows := refreshed_rows hsynced hstamped hkept hgen
      simp only [if_pos hscroll, hnrows, hrows]
      constructor
      · rw [emitPaneCells_eq hcells hscroll, List.map_map]
        rfl
      · intro vr kept hrow
        rw [List.getElem?_map, Option.map_eq_some_iff] at hrow
        obtain ⟨vr', hvr', rfl⟩ := hrow
        obtain ⟨hlt, rfl⟩ := List.getElem?_eq_some_iff.mp hvr'
        rw [List.getElem_range]
        exact built_self (hsynced addr) (hstamped addr) vr
    · simp only [if_neg hscroll]
      exact ⟨trivial, hnone⟩

end Panes

/-! ## Any run -/

section Runs

variable {F : Type} [Num32 F]

theorem CellMetrics.eq_of_same {a b : CellMetrics F} (h : a.same b = true) : a = b := by
  obtain ⟨_, _, _, _, _, _, _⟩ := a
  obtain ⟨_, _, _, _, _, _, _⟩ := b
  simp only [CellMetrics.same, Bool.and_eq_true] at h
  obtain ⟨⟨⟨⟨⟨⟨h₁, h₂⟩, h₃⟩, h₄⟩, h₅⟩, h₆⟩, h₇⟩ := h
  rw [Num32.eq_of_beq h₁, Num32.eq_of_beq h₂, Num32.eq_of_beq h₃, Num32.eq_of_beq h₄,
    Num32.eq_of_beq h₅, Num32.eq_of_beq h₆, Num32.eq_of_beq h₇]

/-- Signatures that are found equal are. -/
theorem FrameSig.eq_of_same {a b : FrameSig F} (h : a.same b = true) : a = b := by
  obtain ⟨_, _, _, _, _⟩ := a
  obtain ⟨_, _, _, _, _⟩ := b
  simp only [FrameSig.same, Bool.and_eq_true, decide_eq_true_eq] at h
  obtain ⟨⟨⟨⟨rfl, hmetrics⟩, rfl⟩, rfl⟩, rfl⟩ := h
  rw [CellMetrics.eq_of_same hmetrics]

namespace World

/-- What holds between frames: the rows kept were built, for the frame of the signature, from the
grids whose addresses they have. -/
structure Inv (w : World F) : Prop where
  synced : ∀ addr, (w.grids addr).Synced
  stamped : ∀ addr, (w.grids addr).content.WellStamped
  kept : ∀ sig, w.cache.sig = some sig → ∀ (i : ℕ) (pc : PaneRowCache F) (col row cols rows),
    w.cache.panes[i]? = some pc → sig.panes[i]? = some (col, row, cols, rows) →
      pc.BuiltFor w.grids sig.palette sig.metrics col row

variable {w : World F}

theorem inv_start (size : ℕ → ℕ × ℕ) : (start size : World F).Inv where
  synced addr := CellGrid.Synced.new _ _
  stamped addr := GridContent.wellStamped_new _ _
  kept sig hsig := by simp [start] at hsig

/-- What is kept for a pane of a frame whose signature is that of the last. -/
theorem Inv.kept_pane (h : w.Inv) {frame : Frame} {m : CellMetrics F}
    (hreusable : (w.cache.sig.any fun old ↦ old.same (frameSig frame m)) = true) {i : ℕ}
    {pc : PaneRowCache F} {pane : PaneView} (hpane : frame.panes[i]? = some pane)
    (hpc : w.cache.panes[i]? = some pc) :
    pc.BuiltFor w.grids frame.palette m pane.col pane.row := by
  obtain ⟨old, hold, hsame⟩ := Option.any_eq_true _ _ |>.mp hreusable
  rw [FrameSig.eq_of_same hsame] at hold
  refine h.kept _ hold i pc pane.col pane.row pane.cols pane.rows hpc ?_
  rw [frameSig, List.getElem?_map, hpane]
  rfl

/-- **One frame.** The scene is the plain one, and what is kept was built for it. -/
theorem Inv.draw (h : w.Inv) {frame : Frame} {m : CellMetrics F}
    (hsound : w.Sound (.draw frame m)) :
    (buildSceneCached w.grids frame m w.cache).1 = buildScene w.grids frame m ∧
      (w.step (.draw frame m)).Inv := by
  rw [step, buildSceneCached]
  dsimp only
  generalize hreusable : (w.cache.sig.any fun old ↦ old.same (frameSig frame m)) = reusable
  generalize hpanes : (if w.cache.panes.length ≠ frame.panes.length then
      List.replicate frame.panes.length {} else w.cache.panes) = panes
  have hlength : panes.length = frame.panes.length := by
    rw [← hpanes]
    split_ifs with hne
    · exact List.length_replicate
    · exact not_not.mp hne
  have hkept : ∀ (i : ℕ) (pc : PaneRowCache F) (pane : PaneView), panes[i]? = some pc →
      frame.panes[i]? = some pane → reusable = true →
      pc.BuiltFor w.grids frame.palette m pane.col pane.row := by
    intro i pc pane hpc hpane hreuse
    rw [← hpanes] at hpc
    split_ifs at hpc
    · intro vr kept hrow
      rw [List.eq_of_mem_replicate (List.mem_of_getElem? hpc)] at hrow
      simp at hrow
    · exact h.kept_pane (hreusable.trans hreuse) hpane hpc
  have hdrawn : ∀ (i : ℕ) (pc : PaneRowCache F) (pane : PaneView), panes[i]? = some pc →
      frame.panes[i]? = some pane →
      (drawPane w.grids frame m reusable pc pane).2.1 = emitPane w.grids frame pane m ∧
        (drawPane w.grids frame m reusable pc pane).1.BuiltFor w.grids frame.palette m pane.col
          pane.row := by
    intro i pc pane hpc hpane
    exact drawPane_spec h.synced h.stamped (hkept i pc pane hpc hpane)
      (hsound pane (List.mem_of_getElem? hpane))
  constructor
  · rw [buildScene, List.map_zipWith]
    refine congrArg concat (List.ext_getElem (by simp [hlength]) fun i hi hi' ↦ ?_)
    rw [List.getElem_zipWith, List.getElem_map]
    exact (hdrawn i _ _ (List.getElem?_eq_getElem _) (List.getElem?_eq_getElem _)).1
  · refine ⟨h.synced, h.stamped, ?_⟩
    rintro sig hsig i pc col row cols rows hpc hrect
    obtain rfl := Option.some.inj hsig
    rw [List.map_zipWith, List.getElem?_zipWith_eq_some] at hpc
    obtain ⟨old, pane, hold, hpane, rfl⟩ := hpc
    rw [frameSig, List.getElem?_map, hpane, Option.map_some] at hrect
    simp only [Option.some.injEq, Prod.mk.injEq] at hrect
    obtain ⟨rfl, rfl, -, -⟩ := hrect
    exact (hdrawn i old pane hold hpane).2

/-- An event is an operation on the content, or leaves it alone. -/
theorem content_step (g : CellGrid) (event : GridEvent) :
    (∃ op, event = .op op ∧ (g.step event).content = g.content.step op) ∨
      (g.step event).content = g.content := by
  match event with
  | .op op =>
    refine .inl ⟨op, rfl, ?_⟩
    cases op <;> rfl
  | .scrollUp _ | .scrollDown _ | .scrollToBottom | .setSelection _ => exact .inr rfl

/-- Another grid at one address. -/
theorem Inv.update (h : w.Inv) {addr : ℕ} {g : CellGrid} (hsynced : g.Synced)
    (hstamped : g.content.WellStamped)
    (hkept : w.Keeps addr → ∀ g₀, Follows g₀ (w.grids addr).content → Follows g₀ g.content) :
    ({ w with grids := Function.update w.grids addr g } : World F).Inv where
  synced other := by
    dsimp only
    rw [Function.update_apply]
    split_ifs
    · exact hsynced
    · exact h.synced other
  stamped other := by
    dsimp only
    rw [Function.update_apply]
    split_ifs
    · exact hstamped
    · exact h.stamped other
  kept sig hsig i pc col row cols rows hpc hrect vr kept hrow := by
    have hbuilt := h.kept sig hsig i pc col row cols rows hpc hrect vr kept hrow
    dsimp only
    rw [Function.update_apply]
    split_ifs with haddr
    · have hkeeps : w.Keeps addr :=
        ⟨pc, List.mem_of_getElem? hpc, haddr, List.ne_nil_of_mem (List.mem_of_getElem? hrow)⟩
      rw [haddr] at hbuilt
      exact hbuilt.imp (hkept hkeeps)
    · exact hbuilt

/-- **Step.** -/
theorem Inv.step (h : w.Inv) {action : Action F} (hsound : w.Sound action) :
    (w.step action).Inv := by
  cases action with
  | grid addr event =>
    refine h.update ((h.synced addr).step event) ?_ fun hkeeps g₀ hfollows ↦ ?_
    · obtain ⟨op, -, hcontent⟩ | hcontent := content_step (w.grids addr) event
      · exact hcontent ▸ (h.stamped addr).step op
      · exact hcontent ▸ h.stamped addr
    · obtain ⟨op, rfl, hcontent⟩ | hcontent := content_step (w.grids addr) event
      · exact hcontent ▸ hfollows.step (h.stamped addr) (hsound hkeeps)
      · exact hcontent ▸ hfollows
  | create addr rows cols =>
    exact h.update (CellGrid.Synced.new rows cols) (GridContent.wellStamped_new rows cols)
      fun hkeeps ↦ absurd hkeeps hsound
  | draw frame m => exact (h.draw hsound).2

end World

/-- **Cached scenes.** In a run whose steps are all sound, every frame that is drawn with the cache
is the plain scene of its panes and of the grids at that moment. -/
theorem cached_scene_eq (size : ℕ → ℕ × ℕ) (actions : List (Action F))
    (hsound : Run.Ok World.step World.Sound (World.start size) actions) (n : ℕ) (frame : Frame)
    (m : CellMetrics F) (hdraw : actions[n]? = some (.draw frame m)) :
    let w : World F := Run.exec World.step (World.start size) (actions.take n)
    (buildSceneCached w.grids frame m w.cache).1 = buildScene w.grids frame m := by
  intro w
  have htake : Run.Ok World.step World.Sound (World.start size) (actions.take n) := by
    rw [← List.take_append_drop n actions, Run.ok_append] at hsound
    exact hsound.1
  have hinv : w.Inv := Run.invariant_of_ok (fun _ _ hinv hok ↦ hinv.step hok) _ _
    (World.inv_start size) htake
  exact (hinv.draw ((Run.ok_iff_forall _ _).mp hsound n _ hdraw)).1

end Runs

/-! ## Stale and missing rows -/

/-- Numbers without rounding. -/
instance : Num32 ℚ where
  asF32 n := n
  eq_of_beq h := eq_of_beq h

/-- A grid of this height on an otherwise empty screen. -/
def frameOf (rows : UInt16) : Frame where
  width := 800
  height := 600
  palette := ⟨⟨0, 0, 0⟩, ⟨0, 0, 0⟩, ⟨0, 0, 0⟩, ⟨0, 0, 0⟩, ⟨0, 0, 0⟩, ⟨0, 0, 0⟩, ⟨0, 0, 0⟩,
    ⟨0, 0, 0⟩, ⟨0, 0, 0⟩, ⟨0, 0, 0⟩, ⟨0, 0, 0⟩, ⟨0, 0, 0⟩⟩
  blinkOn := true
  panes := [⟨0, 0, 1, rows, true, .grid 8, none, [], none⟩]
  multi := false

def unitMetrics : CellMetrics ℚ := ⟨1, 1, 1, 1, 1, 1, 1⟩

/-- A letter in the first cell. -/
def letterDiff : TerminalDiff :=
  ⟨[.cell 0 0 { (default : CellState) with c := 'x' }], default, TermModes.empty, 0, none⟩

/-- A cell changes between two frames. -/
def changed : List (Action ℚ) :=
  [.draw (frameOf 1) unitMetrics, .grid 8 (.op (.diff letterDiff)),
    .draw (frameOf 1) unitMetrics]

theorem cached_scene_eq_changed :
    let w : World ℚ := Run.exec World.step (World.start fun _ ↦ (1, 1)) (changed.take 2)
    (buildSceneCached w.grids (frameOf 1) unitMetrics w.cache).1 =
      buildScene w.grids (frameOf 1) unitMetrics := by
  have hdraw : ∀ w : World ℚ, (w.grids 8).rows = 1 →
      (w.grids 8).content.cellsGeneration < neverBuilt →
      w.Sound (.draw (frameOf 1) unitMetrics) := by
    intro w hrows hgen pane hpane addr haddr _
    obtain rfl := List.mem_singleton.mp hpane
    obtain rfl := CellSource.grid.inj haddr
    exact ⟨hrows.symm, hgen⟩
  have hstamps : GridContent.StampsWrites (GridContent.new 1 1) (.diff letterDiff) := by
    intro row hrow hnot
    obtain rfl : row = 0 := Nat.lt_one_iff.mp hrow
    exact absurd (by decide) hnot
  have hsound : Run.Ok World.step World.Sound (World.start fun _ ↦ (1, 1)) changed :=
    ⟨hdraw _ rfl (by decide), fun _ ↦ hstamps, hdraw _ rfl (by decide), trivial⟩
  exact cached_scene_eq (fun _ ↦ (1, 1)) changed hsound 2 (frameOf 1) unitMetrics rfl

/-- A grid of three rows in a pane of two. -/
def tall : World ℚ := World.start fun _ ↦ (3, 1)

/-- The first frame shows a letter. Then another grid is made at the address, and cleared. -/
def reused : World ℚ :=
  Run.exec World.step (World.start fun _ ↦ (1, 1))
    [.grid 8 (.op (.diff letterDiff)), .draw (frameOf 1) unitMetrics, .create 8 1 1,
      .grid 8 (.op .clear)]

/-- The third row of the grid is not drawn; and the letter of the old grid is drawn again. -/
theorem cached_scene_ne :
    (buildSceneCached tall.grids (frameOf 2) unitMetrics tall.cache).1 ≠
        buildScene tall.grids (frameOf 2) unitMetrics ∧
      (buildSceneCached reused.grids (frameOf 1) unitMetrics reused.cache).1 ≠
        buildScene reused.grids (frameOf 1) unitMetrics := by
  constructor
  · intro h
    have hrows : (buildSceneCached tall.grids (frameOf 2) unitMetrics tall.cache).1.bgQuads.length
        = 2 := by decide
    rw [h] at hrows
    exact absurd hrows (by decide)
  · intro h
    have hglyphs : (buildSceneCached reused.grids (frameOf 1) unitMetrics
        reused.cache).1.glyphs.length = 1 := by decide
    rw [h] at hglyphs
    exact absurd hglyphs (by decide)

end Kmux.Render
