import Kmux.Render.SceneCache

/-!
# Packed cells

The cell grid crosses the foreign function boundary as one flat buffer of 16-byte cells whose
colours are already resolved against the palette. The packer walks the cells on display and the
renderer decodes by index, so the scene of a packed frame depends on the two orders being the same
one, on the bytes of a cell, and on opaque colours having the alpha 1 that the buffer has as the
byte 255.

A scrolled pane has no cursor in any frame the frontends put together. The renderer looks at the
live cells for the glyph under a block cursor and at the buffer when there is one, and these are the
same cells only while the pane is not scrolled.
-/

namespace Kmux.Render

open SceneGeometry
open Num32 (asF32)

/-! ## Blocks of one length -/

namespace Blocks

variable {α β : Type*} {f : α → List β} {n : ℕ}

theorem length_flatMap {as : List α} (hf : ∀ a ∈ as, (f a).length = n) :
    (as.flatMap f).length = as.length * n := by
  induction as with
  | nil => rw [List.flatMap_nil, List.length_nil, List.length_nil, Nat.zero_mul]
  | cons a as ih =>
    rw [List.flatMap_cons, List.length_append, hf a List.mem_cons_self,
      ih fun b hb ↦ hf b (List.mem_cons_of_mem a hb), List.length_cons, Nat.succ_mul, Nat.add_comm]

/-- An index into blocks laid end to end is the number of a block and an index into it. -/
theorem getElem?_flatMap {as : List α} (hf : ∀ a ∈ as, (f a).length = n) (i : ℕ) {j : ℕ}
    (hj : j < n) : (as.flatMap f)[i * n + j]? = as[i]?.bind fun a ↦ (f a)[j]? := by
  induction as generalizing i with
  | nil => rfl
  | cons a as ih =>
    have ha : (f a).length = n := hf a List.mem_cons_self
    rw [List.flatMap_cons]
    rcases i with _ | i
    · rw [Nat.zero_mul, Nat.zero_add, List.getElem?_append_left (by omega), List.getElem?_cons_zero,
        Option.bind_some]
    · have hsplit : (i + 1) * n + j - n = i * n + j := by
        rw [Nat.succ_mul]
        omega
      have hle : n ≤ (i + 1) * n + j := by
        rw [Nat.succ_mul]
        omega
      rw [List.getElem?_append_right (by omega), ha, hsplit,
        ih (fun b hb ↦ hf b (List.mem_cons_of_mem a hb)), List.getElem?_cons_succ]

end Blocks

/-! ## The packer -/

/-- `u32::to_le_bytes`. -/
def u32LeBytes (n : UInt32) : List UInt8 :=
  [n.toUInt8, (n >>> 8).toUInt8, (n >>> 16).toUInt8, (n >>> 24).toUInt8]

/-- `u16::to_le_bytes`. -/
def u16LeBytes (n : UInt16) : List UInt8 := [n.toUInt8, (n >>> 8).toUInt8]

def resolveFg (cell : CellState) (theme : Theme) : List UInt8 :=
  if cell.attrs.contains CellAttrs.defaultFg then [theme.fg.r, theme.fg.g, theme.fg.b, 0xff]
  else [cell.fg.r, cell.fg.g, cell.fg.b, 0xff]

def resolveBg (cell : CellState) (theme : Theme) : List UInt8 :=
  if cell.attrs.contains CellAttrs.defaultBg then [theme.bg.r, theme.bg.g, theme.bg.b, 0xff]
  else [cell.bg.r, cell.bg.g, cell.bg.b, 0xff]

/-- One packed cell; its last byte is reserved. -/
def encodeCell (cell : CellState) (theme : Theme) : List UInt8 :=
  u32LeBytes cell.c.val ++ resolveFg cell theme ++ resolveBg cell theme ++
    u16LeBytes cell.attrs.bits ++ [UInt8.ofNat (cellWidth cell.attrs), 0]

/-- The cells on display, row by row. -/
def encodeCells (grid : CellGrid) (theme : Theme) : List UInt8 :=
  grid.forEachDisplayedCell.flatMap fun shown ↦ encodeCell shown.2.2 theme

theorem length_encodeCell (cell : CellState) (theme : Theme) :
    (encodeCell cell theme).length = packedCellLen := by
  rw [encodeCell, resolveFg, resolveBg]
  split_ifs <;> rfl

/-! ## A cell and its bytes -/

theorem toNat_u32LeBytes (n : UInt32) :
    n.toUInt8.toNat + 256 * ((n >>> 8).toUInt8.toNat + 256 * ((n >>> 16).toUInt8.toNat +
      256 * (n >>> 24).toUInt8.toNat)) = n.toNat := by
  have hlt := n.toNat_lt
  simp only [UInt32.toNat_toUInt8, UInt32.toNat_shiftRight, UInt32.reduceToNat, Nat.reduceMod,
    Nat.shiftRight_eq_div_pow]
  omega

theorem or_u16LeBytes (n : UInt16) :
    n.toUInt8.toUInt16 ||| (n >>> 8).toUInt8.toUInt16 <<< 8 = n := by
  have hlt := n.toNat_lt
  have hlow : n.toNat % 2 ^ 8 < 2 ^ 8 := Nat.mod_lt _ (by decide)
  apply UInt16.toNat_inj.mp
  rw [UInt16.toNat_or, Nat.or_comm]
  simp only [UInt16.toNat_shiftLeft, UInt8.toNat_toUInt16, UInt16.toNat_toUInt8,
    UInt16.toNat_shiftRight, UInt16.reduceToNat, Nat.reduceMod, Nat.shiftRight_eq_div_pow]
  rw [Nat.mod_eq_of_lt (by rw [Nat.shiftLeft_eq]; omega), ← Nat.shiftLeft_add_eq_or_of_lt hlow,
    Nat.shiftLeft_eq]
  omega

section Decoding

variable {F : Type} [Num32 F] {theme : Theme}

/-- Opaque colours come back as they are resolved. -/
theorem rgba8_solid (hsolid : (unorm 0xff : F) = 1.0) (r g b : UInt8) :
    (rgba8 r g b 0xff : Rgba F) = ⟨unorm r, unorm g, unorm b, 1.0⟩ := by
  rw [rgba8, hsolid]

/-- The packed colours are opaque, and the ones the cell is resolved to. -/
theorem resolveFg_eq (F : Type) [Num32 F] (cell : CellState) (theme : Theme) :
    ∃ r g b, resolveFg cell theme = [r, g, b, 0xff] ∧
      (resolveGridCell cell theme : ResolvedCell F).fg = ⟨unorm r, unorm g, unorm b, 1.0⟩ := by
  rw [resolveFg, resolveGridCell]
  dsimp only
  split_ifs
  · exact ⟨theme.fg.r, theme.fg.g, theme.fg.b, rfl, rfl⟩
  · exact ⟨cell.fg.r, cell.fg.g, cell.fg.b, rfl, rfl⟩

theorem resolveBg_eq (F : Type) [Num32 F] (cell : CellState) (theme : Theme) :
    ∃ r g b, resolveBg cell theme = [r, g, b, 0xff] ∧
      (resolveGridCell cell theme : ResolvedCell F).bg = ⟨unorm r, unorm g, unorm b, 1.0⟩ := by
  rw [resolveBg, resolveGridCell]
  dsimp only
  split_ifs
  · exact ⟨theme.bg.r, theme.bg.g, theme.bg.b, rfl, rfl⟩
  · exact ⟨cell.bg.r, cell.bg.g, cell.bg.b, rfl, rfl⟩

/-- **A packed cell round-trips**: at the place of a cell, the buffer decodes to that cell resolved
against the palette. -/
theorem decodeAt_flatMap_encodeCell (hsolid : (unorm 0xff : F) = 1.0) {cells : List CellState}
    {i : ℕ} {cell : CellState} (hcell : cells[i]? = some cell) :
    (decodeAt (cells.flatMap (encodeCell · theme)) i : ResolvedCell F) =
      resolveGridCell cell theme := by
  have hbyte : ∀ j < packedCellLen,
      (cells.flatMap (encodeCell · theme)).getD (i * packedCellLen + j) 0 =
        (encodeCell cell theme).getD j 0 := by
    intro j hj
    rw [List.getD_eq_getElem?_getD, List.getD_eq_getElem?_getD,
      Blocks.getElem?_flatMap (fun c _ ↦ length_encodeCell c theme) i hj, hcell, Option.bind_some]
  have hwidth : (UInt8.ofNat (cellWidth cell.attrs)).toNat = cellWidth cell.attrs := by
    rw [cellWidth]
    split_ifs <;> rfl
  obtain ⟨r, g, b, hfg, hfgColor⟩ := resolveFg_eq F cell theme
  obtain ⟨r', g', b', hbg, hbgColor⟩ := resolveBg_eq F cell theme
  rw [← rgba8_solid hsolid] at hfgColor hbgColor
  rw [encodeCell, hfg, hbg] at hbyte
  have hdecoded : (decodeAt (cells.flatMap (encodeCell · theme)) i : ResolvedCell F) =
      { ch :=
          let scalar := cell.c.val.toUInt8.toNat + 256 * ((cell.c.val >>> 8).toUInt8.toNat +
            256 * ((cell.c.val >>> 16).toUInt8.toNat + 256 * (cell.c.val >>> 24).toUInt8.toNat))
          if scalar.isValidChar then Char.ofNat scalar else '\ufffd'
        fg := rgba8 r g b 0xff
        bg := rgba8 r' g' b' 0xff
        attrs := ⟨cell.attrs.bits.toUInt8.toUInt16 |||
          (cell.attrs.bits >>> 8).toUInt8.toUInt16 <<< 8⟩
        width := (UInt8.ofNat (cellWidth cell.attrs)).toNat } := by
    simp only [decodeAt]
    rw [hbyte 0 (by decide), hbyte 1 (by decide), hbyte 2 (by decide), hbyte 3 (by decide),
      hbyte 4 (by decide), hbyte 5 (by decide), hbyte 6 (by decide), hbyte 7 (by decide),
      hbyte 8 (by decide), hbyte 9 (by decide), hbyte 10 (by decide), hbyte 11 (by decide),
      hbyte 12 (by decide), hbyte 13 (by decide), hbyte 14 (by decide)]
    rfl
  rw [hdecoded, toNat_u32LeBytes, or_u16LeBytes, hwidth, ← hfgColor, ← hbgColor]
  dsimp only
  rw [if_pos cell.c.valid]
  exact congrArg (fun c ↦ ResolvedCell.mk c _ _ cell.attrs _) (Char.ofNat_toNat cell.c)

end Decoding

/-! ## Packed frames -/

/-- The cells on display are one for each row and column, in that order. -/
theorem forEachDisplayedCell_rows (grid : CellGrid) : ∃ shown : ℕ → ℕ → CellState,
    grid.forEachDisplayedCell = (List.range grid.rows).flatMap fun vr ↦
      (List.range grid.cols).map fun vc ↦ (vr, vc, shown vr vc) := ⟨_, rfl⟩

theorem length_forEachDisplayedCell (grid : CellGrid) :
    grid.forEachDisplayedCell.length = grid.rows * grid.cols := by
  rw [CellGrid.forEachDisplayedCell]
  dsimp only
  rw [Blocks.length_flatMap fun vr _ ↦ by rw [List.length_map, List.length_range],
    List.length_range]

theorem length_encodeCells (grid : CellGrid) (theme : Theme) :
    (encodeCells grid theme).length = grid.rows * grid.cols * packedCellLen := by
  rw [encodeCells, Blocks.length_flatMap fun _ _ ↦ length_encodeCell _ theme,
    length_forEachDisplayedCell]

/-- A grid as it crosses the boundary: its cells packed, with its size. -/
def packGrid (grid : CellGrid) (theme : Theme) : Packed where
  cells := encodeCells grid theme
  cols := grid.cols.toUInt16
  rows := grid.rows.toUInt16
  fits := by
    rw [length_encodeCells]
    exact Nat.mul_le_mul_right _ (Nat.mul_le_mul (Nat.mod_le _ _) (Nat.mod_le _ _))

def CellSource.pack (grids : ℕ → CellGrid) (theme : Theme) : CellSource → CellSource
  | .grid addr => .packed (packGrid (grids addr) theme)
  | .packed buffer => .packed buffer

/-- A frame in which every grid is packed with the palette of the frame. -/
def Frame.pack (grids : ℕ → CellGrid) (frame : Frame) : Frame :=
  { frame with
    panes := frame.panes.map fun pane ↦
      { pane with cells := pane.cells.pack grids frame.palette } }

/-- Sizes are 16-bit numbers, and a pane that is scrolled has no cursor. -/
structure PaneView.Packable (grids : ℕ → CellGrid) (pane : PaneView) : Prop where
  rows_lt : ∀ addr, pane.cells = .grid addr → (grids addr).rows < 2 ^ 16
  cols_lt : ∀ addr, pane.cells = .grid addr → (grids addr).cols < 2 ^ 16
  unscrolled : ∀ addr, pane.cells = .grid addr → pane.cursor.isSome →
    (grids addr).view.scrollOffset = 0

section Scenes

variable {F : Type} [Num32 F] {grids : ℕ → CellGrid} {frame : Frame} {pane : PaneView}
  {m : CellMetrics F} {theme : Theme}

/-- The cell layer of a packed grid is drawn from the cells on display. -/
theorem decodeAt_encodeCells (hsolid : (unorm 0xff : F) = 1.0) {grid : CellGrid} {i : ℕ}
    {shown : ℕ × ℕ × CellState} (hshown : grid.forEachDisplayedCell[i]? = some shown) :
    (decodeAt (encodeCells grid theme) i : ResolvedCell F) = resolveGridCell shown.2.2 theme := by
  have hcells : encodeCells grid theme =
      (grid.forEachDisplayedCell.map fun shown ↦ shown.2.2).flatMap (encodeCell · theme) := by
    rw [List.flatMap_map, encodeCells]
  rw [hcells]
  exact decodeAt_flatMap_encodeCell hsolid (by rw [List.getElem?_map, hshown, Option.map_some])

/-- A packed grid has the cell layer of the grid. -/
theorem emitPaneCells_pack (hsolid : (unorm 0xff : F) = 1.0) {addr : ℕ}
    (hcells : pane.cells = .grid addr) (hrows : (grids addr).rows < 2 ^ 16)
    (hcols : (grids addr).cols < 2 ^ 16) (ox oy : F) :
    emitPaneCells grids (frame.pack grids)
        { pane with cells := .packed (packGrid (grids addr) frame.palette) } m ox oy =
      emitPaneCells grids frame pane m ox oy := by
  obtain ⟨shown, hshown⟩ := forEachDisplayedCell_rows (grids addr)
  have hcolsNat : (grids addr).cols.toUInt16.toNat = (grids addr).cols := Nat.mod_eq_of_lt hcols
  have hrowsNat : (grids addr).rows.toUInt16.toNat = (grids addr).rows := Nat.mod_eq_of_lt hrows
  rw [emitPaneCells, emitPaneCells, hcells]
  dsimp only [packGrid]
  rw [hcolsNat, hrowsNat, hshown, List.map_flatMap]
  congr 1
  refine List.flatMap_congr fun vr hvr ↦ ?_
  rw [List.map_map]
  refine List.map_congr_left fun vc hvc ↦ ?_
  have hplace : (grids addr).forEachDisplayedCell[vr * (grids addr).cols + vc]? =
      some (vr, vc, shown vr vc) := by
    rw [hshown, Blocks.getElem?_flatMap
      (fun _ _ ↦ by rw [List.length_map, List.length_range]) vr (List.mem_range.mp hvc),
      List.getElem?_range (List.mem_range.mp hvr), Option.bind_some, List.getElem?_map,
      List.getElem?_range (List.mem_range.mp hvc), Option.map_some]
  rw [decodeAt_encodeCells hsolid hplace]
  rfl

/-- Under the cursor of a pane that is not scrolled the buffer has the live cell. -/
theorem resolvedCellAt_pack (hsolid : (unorm 0xff : F) = 1.0) {grid : CellGrid}
    (hunscrolled : grid.view.scrollOffset = 0) {row col : ℕ} (hrow : row < grid.rows)
    (hcol : col < grid.cols) :
    (decodeAt (encodeCells grid theme) (row * grid.cols + col) : ResolvedCell F) =
      resolveGridCell (grid.content.cells[row * grid.cols + col]?.getD default) theme := by
  have hplace : grid.forEachDisplayedCell[row * grid.cols + col]? =
      some (row, col, grid.content.cells[row * grid.cols + col]?.getD default) := by
    rw [CellGrid.forEachDisplayedCell]
    dsimp only
    rw [Blocks.getElem?_flatMap (fun _ _ ↦ by rw [List.length_map, List.length_range]) row hcol,
      List.getElem?_range hrow, Option.bind_some, List.getElem?_map, List.getElem?_range hcol,
      Option.map_some]
    simp only [hunscrolled, Nat.lt_irrefl, false_and, if_false]
  rw [decodeAt_encodeCells hsolid hplace]

theorem emitCursor_pack (hsolid : (unorm 0xff : F) = 1.0) {addr : ℕ}
    (hcells : pane.cells = .grid addr) (hrows : (grids addr).rows < 2 ^ 16)
    (hcols : (grids addr).cols < 2 ^ 16) (hunscrolled : (grids addr).view.scrollOffset = 0)
    (ox oy : F) (cv : CursorView) :
    emitCursor grids (frame.pack grids)
        { pane with cells := .packed (packGrid (grids addr) frame.palette) } m ox oy cv =
      emitCursor grids frame pane m ox oy cv := by
  have hcolsNat : (grids addr).cols.toUInt16.toNat = (grids addr).cols := Nat.mod_eq_of_lt hcols
  have hrowsNat : (grids addr).rows.toUInt16.toNat = (grids addr).rows := Nat.mod_eq_of_lt hrows
  rw [emitCursor, emitCursor, hcells]
  dsimp only [CellSource.dims, packGrid]
  by_cases hout : (grids addr).cols.toUInt16 ≤ cv.col ∨ (grids addr).rows.toUInt16 ≤ cv.row
  · rw [if_pos hout, if_pos hout]
  · have hcol : cv.col.toNat < (grids addr).cols := by
      rw [← hcolsNat]
      exact UInt16.not_le.mp fun h ↦ hout (Or.inl h)
    have hrow : cv.row.toNat < (grids addr).rows := by
      rw [← hrowsNat]
      exact UInt16.not_le.mp fun h ↦ hout (Or.inr h)
    rw [if_neg hout, if_neg hout]
    simp only [resolvedCellAt, hcolsNat, resolvedCellAt_pack hsolid hunscrolled hrow hcol]
    rfl

/-- One pane, packed. -/
theorem emitPane_pack (hsolid : (unorm 0xff : F) = 1.0) (hpane : pane.Packable grids) :
    emitPane grids (frame.pack grids)
        { pane with cells := pane.cells.pack grids frame.palette } m =
      emitPane grids frame pane m := by
  cases hcells : pane.cells with
  | packed buffer =>
    rw [CellSource.pack, ← hcells]
    rfl
  | grid addr =>
    have hrows := hpane.rows_lt addr hcells
    have hcols := hpane.cols_lt addr hcells
    have hunscrolled := hpane.unscrolled addr hcells
    obtain ⟨x, y, cols, rows, focused, cells, cursor, selection, scroll⟩ := pane
    subst hcells
    have hlayer := @emitPaneCells_pack F _ grids frame
      ⟨x, y, cols, rows, focused, .grid addr, cursor, selection, scroll⟩ m hsolid addr rfl hrows
      hcols
    rw [CellSource.pack, emitPane, emitPane, emitPaneOverlays, emitPaneOverlays]
    dsimp only at hlayer ⊢
    rw [hlayer]
    cases cursor with
    | none => rfl
    | some cv =>
      have hcursor := fun ox oy ↦ @emitCursor_pack F _ grids frame
        ⟨x, y, cols, rows, focused, .grid addr, some cv, selection, scroll⟩ m hsolid addr rfl hrows
        hcols (hunscrolled rfl) ox oy cv
      dsimp only at hcursor ⊢
      rw [hcursor]
      rfl

/-- **A packed frame has the scene of the frame.** -/
theorem packed_scene_eq (hsolid : (unorm 0xff : F) = 1.0)
    (hpanes : ∀ pane ∈ frame.panes, pane.Packable grids) :
    buildScene grids (frame.pack grids) m = buildScene grids frame m := by
  rw [buildScene, buildScene]
  congr 1
  dsimp only [Frame.pack]
  rw [List.map_map]
  refine List.map_congr_left fun pane hpane ↦ ?_
  exact emitPane_pack hsolid (hpanes pane hpane)

end Scenes

/-- A letter under a block cursor. -/
def letterFrame : Frame :=
  { frameOf 1 with
    panes := [⟨0, 0, 1, 1, true, .grid 8, some ⟨0, 0, .block, false, true⟩, [], none⟩] }

theorem packed_scene_eq_letter :
    let w : World ℚ := Run.exec World.step (World.start fun _ ↦ (1, 1)) (changed.take 2)
    buildScene w.grids (letterFrame.pack w.grids) unitMetrics =
      buildScene w.grids letterFrame unitMetrics := by
  intro w
  have hsolid : (unorm 0xff : ℚ) = 1.0 := by decide +kernel
  have hpanes : ∀ pane ∈ letterFrame.panes, pane.Packable w.grids := by
    intro pane hpane
    obtain rfl := List.mem_singleton.mp hpane
    have haddr : ∀ addr, CellSource.grid 8 = .grid addr → 8 = addr :=
      fun _ h ↦ CellSource.grid.inj h
    refine ⟨fun addr h ↦ ?_, fun addr h ↦ ?_, fun addr h _ ↦ ?_⟩
    · rw [← haddr addr h]
      decide
    · rw [← haddr addr h]
      decide
    · rw [← haddr addr h]
      rfl
  exact packed_scene_eq hsolid hpanes

end Kmux.Render
