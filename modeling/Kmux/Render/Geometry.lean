import Kmux.Client.Highlight

/-!
# Scene geometry

A frame is turned into quads and glyphs, pane by pane. Each function only adds to four lists, so it
is the function of what it adds here, and scenes are joined.

The numbers are `f32` in the source. What matters of them is that the operations are functions and
that two numbers that are found equal can stand for each other, so they are any type with that law.
-/

namespace Kmux.Render

/-! ## Numbers and colours -/

/-- The single precision numbers, up to `==`, which addition and multiplication respect. A NaN is
not equal to itself. -/
class Num32 (F : Type) extends Add F, Sub F, Mul F, Div F, OfScientific F, BEq F where
  asF32 : ℕ → F
  eq_of_beq : ∀ {a b : F}, (a == b) = true → a = b

open Num32 (asF32)

structure Rgb where
  r : UInt8
  g : UInt8
  b : UInt8
  deriving DecidableEq, Repr

/-- The palette. -/
structure Theme where
  bg : Rgb
  fg : Rgb
  fgDim : Rgb
  accent : Rgb
  green : Rgb
  red : Rgb
  yellow : Rgb
  purple : Rgb
  orange : Rgb
  statusBg : Rgb
  cursorBg : Rgb
  cursorFg : Rgb
  deriving DecidableEq, Repr

/-- Straight colour components. -/
structure Rgba (F : Type) where
  r : F
  g : F
  b : F
  a : F
  deriving DecidableEq, Repr

section Colors

variable {F : Type} [Num32 F]

def unorm (c : UInt8) : F := asF32 c.toNat / 255.0

def rgba8 (r g b a : UInt8) : Rgba F := ⟨unorm r, unorm g, unorm b, unorm a⟩

def rgb (c : Rgb) : Rgba F := ⟨unorm c.r, unorm c.g, unorm c.b, 1.0⟩

def cellColor (c : CellColor) : Rgba F := ⟨unorm c.r, unorm c.g, unorm c.b, 1.0⟩

def withAlpha (color : Rgba F) (a : F) : Rgba F := { color with a }

end Colors

/-! ## Primitives -/

structure SolidQuad (F : Type) where
  x : F
  y : F
  w : F
  h : F
  color : Rgba F
  deriving DecidableEq, Repr

inductive FaceStyle
  | regular
  | bold
  | italic
  | boldItalic
  deriving DecidableEq, Repr

def FaceStyle.fromAttrs (a : CellAttrs) : FaceStyle :=
  match a.contains CellAttrs.bold, a.contains CellAttrs.italic with
  | true, true => .boldItalic
  | true, false => .bold
  | false, true => .italic
  | false, false => .regular

structure GlyphQuad (F : Type) where
  cellX : F
  cellY : F
  ch : Char
  style : FaceStyle
  color : Rgba F
  deriving DecidableEq, Repr

/-- The four lists, in the order they are drawn. -/
@[ext] structure SceneGeometry (F : Type) where
  bgQuads : List (SolidQuad F) := []
  glyphs : List (GlyphQuad F) := []
  overlayQuads : List (SolidQuad F) := []
  overlayGlyphs : List (GlyphQuad F) := []
  deriving DecidableEq, Repr

namespace SceneGeometry

variable {F : Type}

instance : Append (SceneGeometry F) where
  append s t :=
    ⟨s.bgQuads ++ t.bgQuads, s.glyphs ++ t.glyphs, s.overlayQuads ++ t.overlayQuads,
      s.overlayGlyphs ++ t.overlayGlyphs⟩

/-- What is added by one emission after another. -/
def concat : List (SceneGeometry F) → SceneGeometry F
  | [] => {}
  | s :: rest => s ++ concat rest

theorem append_def (s t : SceneGeometry F) :
    s ++ t = ⟨s.bgQuads ++ t.bgQuads, s.glyphs ++ t.glyphs, s.overlayQuads ++ t.overlayQuads,
      s.overlayGlyphs ++ t.overlayGlyphs⟩ := rfl

theorem append_assoc (s t u : SceneGeometry F) : s ++ t ++ u = s ++ (t ++ u) := by
  simp only [append_def, List.append_assoc]

theorem empty_append (s : SceneGeometry F) : {} ++ s = s := rfl

theorem concat_append (ss ts : List (SceneGeometry F)) :
    concat (ss ++ ts) = concat ss ++ concat ts := by
  induction ss with
  | nil => exact (empty_append _).symm
  | cons s ss ih => rw [List.cons_append, concat, ih, concat, append_assoc]

/-- Row by row is one after another. -/
theorem concat_flatMap {α : Type} (f : α → List (SceneGeometry F)) (as : List α) :
    concat (as.flatMap f) = concat (as.map fun a ↦ concat (f a)) := by
  induction as with
  | nil => rfl
  | cons a as ih => rw [List.flatMap_cons, concat_append, ih, List.map_cons, concat]

end SceneGeometry

open SceneGeometry

/-- Pixel geometry of a cell. -/
structure CellMetrics (F : Type) where
  cellW : F
  cellH : F
  underlineY : F
  underlineThickness : F
  strikethroughY : F
  strikethroughThickness : F
  cursorThickness : F

/-! ## Frames -/

/-- Bytes of a packed cell. -/
def packedCellLen : ℕ := 16

/-- A packed buffer with its size. -/
structure Packed where
  cells : List UInt8
  cols : UInt16
  rows : UInt16
  fits : rows.toNat * cols.toNat * packedCellLen ≤ cells.length

/-- Where the cells of a pane come from: a grid, by its address, or a packed buffer. -/
inductive CellSource
  | grid (addr : ℕ)
  | packed (buffer : Packed)

structure CursorView where
  col : UInt16
  row : UInt16
  shape : CursorShape
  blink : Bool
  visible : Bool

def CursorView.isDrawn (cv : CursorView) (blinkOn : Bool) : Bool :=
  cv.visible && cv.shape != .hidden && (!cv.blink || blinkOn)

structure ScrollIndicator where
  offset : ℕ
  total : ℕ

/-- A pane on the screen. -/
structure PaneView where
  col : UInt16
  row : UInt16
  cols : UInt16
  rows : UInt16
  focused : Bool
  cells : CellSource
  cursor : Option CursorView
  selection : List (UInt16 × UInt16 × UInt16)
  scroll : Option ScrollIndicator

structure Frame where
  width : UInt32
  height : UInt32
  palette : Theme
  blinkOn : Bool
  panes : List PaneView
  multi : Bool

/-- Size of a source, given the grids in memory. -/
def CellSource.dims (grids : ℕ → CellGrid) : CellSource → UInt16 × UInt16
  | .grid addr => ((grids addr).cols.toUInt16, (grids addr).rows.toUInt16)
  | .packed buffer => (buffer.cols, buffer.rows)

/-! ## Cells -/

/-- A displayed cell with its final colours. -/
structure ResolvedCell (F : Type) where
  ch : Char
  fg : Rgba F
  bg : Rgba F
  attrs : CellAttrs
  width : ℕ

def cellWidth (attrs : CellAttrs) : ℕ :=
  if attrs.contains CellAttrs.wideCharSpacer then 0
  else if attrs.contains CellAttrs.wideChar then 2
  else 1

/-- Whether a character has a glyph to draw. -/
def isDrawable (c : Char) : Bool :=
  c != ' ' && c != '\x00' && !(c.toNat < 0x20 || (0x7f ≤ c.toNat && c.toNat < 0xa0))

section Emission

variable {F : Type} [Num32 F]

def resolveGridCell (cell : CellState) (palette : Theme) : ResolvedCell F where
  ch := cell.c
  fg := if cell.attrs.contains CellAttrs.defaultFg then rgb palette.fg else cellColor cell.fg
  bg := if cell.attrs.contains CellAttrs.defaultBg then rgb palette.bg else cellColor cell.bg
  attrs := cell.attrs
  width := cellWidth cell.attrs

/-- The packed cell at an index; its colours are final. -/
def decodeAt (cells : List UInt8) (index : ℕ) : ResolvedCell F :=
  let byte i := cells.getD (index * packedCellLen + i) 0
  let scalar := (byte 0).toNat + 256 * ((byte 1).toNat + 256 * ((byte 2).toNat +
    256 * (byte 3).toNat))
  { ch := if scalar.isValidChar then Char.ofNat scalar else '\ufffd'
    fg := rgba8 (byte 4) (byte 5) (byte 6) (byte 7)
    bg := rgba8 (byte 8) (byte 9) (byte 10) (byte 11)
    attrs := ⟨(byte 12).toUInt16 ||| (byte 13).toUInt16 <<< 8⟩
    width := (byte 14).toNat }

def emitCell (m : CellMetrics F) (ox oy : F) (vr vc : ℕ) (rc : ResolvedCell F) :
    SceneGeometry F :=
  let x := ox + asF32 vc * m.cellW
  let y := oy + asF32 vr * m.cellH
  let background : SceneGeometry F := { bgQuads := [⟨x, y, m.cellW, m.cellH, rc.bg⟩] }
  if rc.width = 0 ∨ rc.attrs.contains CellAttrs.hidden ∨ !isDrawable rc.ch then background
  else
    let fg := if rc.attrs.contains CellAttrs.dim then withAlpha rc.fg (rc.fg.a * 0.6) else rc.fg
    let ruleW := if rc.width = 2 then m.cellW * 2.0 else m.cellW
    let underline : List (SolidQuad F) :=
      if rc.attrs.contains CellAttrs.underline then
        [⟨x, y + m.underlineY, ruleW, m.underlineThickness, rc.fg⟩] else []
    let strikethrough : List (SolidQuad F) :=
      if rc.attrs.contains CellAttrs.strikethrough then
        [⟨x, y + m.strikethroughY, ruleW, m.strikethroughThickness, rc.fg⟩] else []
    { background with
      glyphs := [⟨x, y, rc.ch, FaceStyle.fromAttrs rc.attrs, fg⟩]
      overlayQuads := underline ++ strikethrough }

/-- The cell layer of a pane. -/
def emitPaneCells (grids : ℕ → CellGrid) (frame : Frame) (pane : PaneView) (m : CellMetrics F)
    (ox oy : F) : SceneGeometry F :=
  match pane.cells with
  | .grid addr =>
    concat <| (grids addr).forEachDisplayedCell.map fun shown ↦
      emitCell m ox oy shown.1 shown.2.1 (resolveGridCell shown.2.2 frame.palette)
  | .packed buffer =>
    let cols := buffer.cols.toNat
    concat <| (List.range buffer.rows.toNat).flatMap fun vr ↦ (List.range cols).map fun vc ↦
      emitCell m ox oy vr vc (decodeAt buffer.cells (vr * cols + vc))

/-! ## Overlays -/

/-- Four rectangles around a box. -/
def emitOutline (x y w h t : F) (color : Rgba F) : List (SolidQuad F) :=
  [⟨x, y, w, t, color⟩, ⟨x, y + h - t, w, t, color⟩, ⟨x, y, t, h, color⟩,
    ⟨x + w - t, y, t, h, color⟩]

def cursorShapeRects (shape : CursorShape) (x y : F) (m : CellMetrics F) (color : Rgba F) :
    List (SolidQuad F) :=
  let t := m.cursorThickness
  match shape with
  | .block => [⟨x, y, m.cellW, m.cellH, color⟩]
  | .hollowBlock => emitOutline x y m.cellW m.cellH t color
  | .underline => [⟨x, y + m.cellH - t, m.cellW, t, color⟩]
  | .bar => [⟨x, y, t, m.cellH, color⟩]
  | .hidden => []

def resolvedCellAt (grids : ℕ → CellGrid) (palette : Theme) (row col : ℕ) :
    CellSource → ResolvedCell F
  | .grid addr =>
    resolveGridCell ((grids addr).content.cells[row * (grids addr).cols + col]?.getD default)
      palette
  | .packed buffer => decodeAt buffer.cells (row * buffer.cols.toNat + col)

def emitCursor (grids : ℕ → CellGrid) (frame : Frame) (pane : PaneView) (m : CellMetrics F)
    (ox oy : F) (cv : CursorView) : SceneGeometry F :=
  let (cols, rows) := pane.cells.dims grids
  if cols ≤ cv.col ∨ rows ≤ cv.row then {}
  else
    let x := ox + asF32 cv.col.toNat * m.cellW
    let y := oy + asF32 cv.row.toNat * m.cellH
    let rc : ResolvedCell F :=
      resolvedCellAt grids frame.palette cv.row.toNat cv.col.toNat pane.cells
    let drawn := cv.shape = .block ∧ rc.width ≠ 0 ∧ !rc.attrs.contains CellAttrs.hidden ∧
      isDrawable rc.ch
    { overlayQuads := cursorShapeRects cv.shape x y m (rgb frame.palette.cursorBg)
      overlayGlyphs := if drawn then
          [⟨x, y, rc.ch, FaceStyle.fromAttrs rc.attrs, rgb frame.palette.cursorFg⟩]
        else [] }

def emitScrollIndicator (frame : Frame) (m : CellMetrics F) (ox oy : F) (cols rows : UInt16)
    (offset total : ℕ) : SceneGeometry F :=
  if cols = 0 ∨ rows = 0 then {}
  else
    let label := ("[" ++ toString offset ++ "/" ++ toString total ++ "]").toList
    let len := label.length.toUInt16
    let startCol := cols.toNat - len.toNat
    let x₀ := ox + asF32 startCol * m.cellW
    let y := oy + asF32 (rows.toNat - 1) * m.cellH
    let w := asF32 (min len.toNat cols.toNat) * m.cellW
    { overlayQuads := [⟨x₀, y, w, m.cellH, rgb frame.palette.statusBg⟩]
      overlayGlyphs := (label.take (cols.toNat - startCol)).mapIdx fun i ch ↦
        ⟨x₀ + asF32 i * m.cellW, y, ch, .regular, rgb frame.palette.fg⟩ }

/-- What is drawn over the cells of a pane. -/
def emitPaneOverlays (grids : ℕ → CellGrid) (frame : Frame) (pane : PaneView) (m : CellMetrics F)
    (ox oy : F) : SceneGeometry F :=
  let wash : Rgba F := withAlpha (rgb frame.palette.accent) 0.3
  let selection : SceneGeometry F :=
    { overlayQuads := pane.selection.map fun (vr, c₀, c₁) ↦
        ⟨ox + asF32 c₀.toNat * m.cellW, oy + asF32 vr.toNat * m.cellH,
          asF32 (c₁ - c₀ + 1).toNat * m.cellW, m.cellH, wash⟩ }
  let cursor := match pane.cursor with
    | some cv => if cv.isDrawn frame.blinkOn then emitCursor grids frame pane m ox oy cv else {}
    | none => {}
  let border : SceneGeometry F := if frame.multi && pane.focused then
      { overlayQuads := emitOutline ox oy (asF32 pane.cols.toNat * m.cellW)
          (asF32 pane.rows.toNat * m.cellH) 1.5 (rgb frame.palette.accent) }
    else {}
  let indicator := match pane.scroll with
    | some si =>
      let (cols, rows) := pane.cells.dims grids
      emitScrollIndicator frame m ox oy cols rows si.offset si.total
    | none => {}
  selection ++ (cursor ++ (border ++ indicator))

def emitPane (grids : ℕ → CellGrid) (frame : Frame) (pane : PaneView) (m : CellMetrics F) :
    SceneGeometry F :=
  let ox := asF32 pane.col.toNat * m.cellW
  let oy := asF32 pane.row.toNat * m.cellH
  emitPaneCells grids frame pane m ox oy ++ emitPaneOverlays grids frame pane m ox oy

/-- The scene of a frame. -/
def buildScene (grids : ℕ → CellGrid) (frame : Frame) (m : CellMetrics F) : SceneGeometry F :=
  concat (frame.panes.map fun pane ↦ emitPane grids frame pane m)

end Emission

end Kmux.Render
