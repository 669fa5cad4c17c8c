import Kmux.Lib.MouseReports
import Mathlib.Data.Int.Notation

/-!
# Mouse events for the inner program

The client forwards wheel and button events to a program that tracks the mouse, as SGR reports or in
the legacy encoding, where a coordinate is one byte and saturates at column 223. The button encoder
clamps the coordinate before it narrows it. The wheel encoder narrows it first, so a column from 256
on is reported by what its low byte says. `mouse_coordinates_agree_iff` says on which cells a wheel
event and a click still designate the same one.
-/

namespace Kmux

open MouseReports

/-- A mouse button reportable to the inner program's mouse-tracking modes. -/
inductive MouseButton
  | left
  | middle
  | right
  deriving DecidableEq, Repr

/-- The low button bits of the xterm `cb` byte. -/
def MouseButton.code : MouseButton → UInt8
  | left => 0
  | middle => 1
  | right => 2

/-- Whether a pointer event is a button press, a release, or motion. -/
inductive MouseEventKind
  | press
  | release
  | motion
  deriving DecidableEq, Repr

/-- Keyboard modifiers active during a mouse event. -/
structure MouseMods where
  ctrl : Bool := false
  alt : Bool := false
  shift : Bool := false

/-- The modifiers packed into the `cb` byte. -/
def MouseMods.bits (mods : MouseMods) : UInt8 :=
  (if mods.shift then 4 else 0) + (if mods.alt then 8 else 0) + (if mods.ctrl then 16 else 0)

/-- A pointer event, at a 1-based cell of the visible viewport. -/
structure MouseEvent where
  button : MouseButton
  kind : MouseEventKind
  col : UInt16
  row : UInt16
  mods : MouseMods

namespace Mouse

/-- `u8::saturating_add`. -/
def saturatingAdd (a b : UInt8) : UInt8 := UInt8.ofNat (min (a.toNat + b.toNat) 255)

/-- `ESC [ <`, the numbers of a report with `;` between them, and its last byte. -/
def formatSgr (cb : UInt8) (col row : UInt16) (last : UInt8) : List UInt8 :=
  [0x1b, 0x5b, 0x3c] ++ decimal cb.toNat ++ [0x3b] ++ decimal col.toNat ++ [0x3b] ++
    decimal row.toNat ++ [last]

/-- Encode mouse scroll events, one report for each of the first 255 lines. Lines above zero scroll
up. -/
def encodeMouseScroll (col row : UInt16) (lines : ℤ) (sgr : Bool) : List UInt8 :=
  let count := lines.natAbs
  let button : UInt8 := if 0 < lines then 64 else 65
  (List.range (min count 255)).flatMap fun _ ↦
    if sgr then formatSgr button col row 0x4d
    else
      let cb := button + 32
      let cx := saturatingAdd col.toUInt8 32
      let cy := saturatingAdd row.toUInt8 32
      [0x1b, 0x5b, 0x4d, cb, cx, cy]

/-- Encode a mouse button or motion event. -/
def encodeMouseButton (ev : MouseEvent) (sgr : Bool) : List UInt8 :=
  let mods := ev.mods.bits
  let motion : UInt8 := if ev.kind = .motion then 32 else 0
  if sgr then
    let cb := ev.button.code + mods + motion
    formatSgr cb ev.col ev.row (if ev.kind = .release then 0x6d else 0x4d)
  else
    -- a legacy release does not say which button it was
    let button := if ev.kind = .release then 3 else ev.button.code + motion
    let cb := saturatingAdd (button + mods) 32
    let cx := saturatingAdd (UInt8.ofNat (min ev.col.toNat 223)) 32
    let cy := saturatingAdd (UInt8.ofNat (min ev.row.toNat 223)) 32
    [0x1b, 0x5b, 0x4d, cb, cx, cy]

/-! ## What the inner program reads back -/

/-- The coordinate bytes of a run of legacy reports. -/
def legacyCells (bytes : List UInt8) : Except Unit (List (ℕ × ℕ)) :=
  (x10Reader.readAll bytes).map fun rs ↦ rs.map fun r ↦ (r.cx.toNat, r.cy.toNat)

/-- The coordinates of a run of SGR reports. -/
def sgrCells (bytes : List UInt8) : Except Unit (List (ℕ × ℕ)) :=
  (sgrReader.readAll bytes).map fun rs ↦ rs.map fun r ↦ (r.x, r.y)

variable {col row : UInt16}

/-- The reports of a wheel event are one report over and over. -/
private theorem encodeMouseScroll_eq (col row : UInt16) (lines : ℤ) (sgr : Bool) :
    encodeMouseScroll col row lines sgr = (List.replicate (min lines.natAbs 255)
      (if sgr then formatSgr (if 0 < lines then 64 else 65) col row 0x4d
        else [0x1b, 0x5b, 0x4d, (if 0 < lines then 64 else 65) + 32,
          saturatingAdd col.toUInt8 32, saturatingAdd row.toUInt8 32])).flatten := by
  rw [encodeMouseScroll, List.flatMap_def, List.map_const', List.length_range]

theorem isFrame_formatSgr (cb : UInt8) (col row : UInt16) {last : UInt8}
    (hlast : last = 0x4d ∨ last = 0x6d) : sgrReader.IsFrame (formatSgr cb col row last)
      ⟨cb.toNat, col.toNat, row.toNat, last = 0x6d⟩ :=
  isFrame_sgr cb.toNat col.toNat row.toNat hlast

theorem sgrCells_scroll (col row : UInt16) (lines : ℤ) :
    sgrCells (encodeMouseScroll col row lines true)
      = .ok (List.replicate (min lines.natAbs 255) (col.toNat, row.toNat)) := by
  rw [encodeMouseScroll_eq, if_pos rfl, sgrCells,
    FrameReader.readAll_replicate (isFrame_formatSgr _ col row (Or.inl rfl))]
  exact congrArg Except.ok List.map_replicate

theorem sgrCells_button (ev : MouseEvent) :
    sgrCells (encodeMouseButton ev true) = .ok [(ev.col.toNat, ev.row.toNat)] := by
  have hlast : ∀ k : MouseEventKind,
      (if k = .release then (0x6d : UInt8) else 0x4d) = 0x4d ∨
      (if k = .release then (0x6d : UInt8) else 0x4d) = 0x6d := by
    intro k
    cases k
    · exact Or.inl rfl
    · exact Or.inr rfl
    · exact Or.inl rfl
  rw [encodeMouseButton, if_pos rfl, sgrCells,
    FrameReader.readAll_frame (isFrame_formatSgr _ ev.col ev.row (hlast ev.kind))]
  rfl

/-! ## Narrowing a coordinate -/

/-- The coordinate byte a legacy report has for a column or a row. -/
def coordinateByte (c : UInt16) : ℕ := min c.toNat 223 + 32

/-- Narrowing the coordinate first makes no difference to it. -/
def Fits (c : UInt16) : Prop := c.toNat < 256 ∨ 223 ≤ c.toNat % 256

instance (c : UInt16) : Decidable (Fits c) := inferInstanceAs (Decidable (_ ∨ _))

theorem toNat_saturatingAdd (a b : UInt8) :
    (saturatingAdd a b).toNat = min (a.toNat + b.toNat) 255 := by
  rw [saturatingAdd, UInt8.toNat_ofNat', Nat.mod_eq_of_lt (by omega)]

theorem toNat_clamp_then_add (c : UInt16) :
    (saturatingAdd (UInt8.ofNat (min c.toNat 223)) 32).toNat = coordinateByte c := by
  rw [toNat_saturatingAdd, UInt8.toNat_ofNat', Nat.mod_eq_of_lt (by omega), coordinateByte]
  change min (min c.toNat 223 + 32) 255 = _
  omega

theorem toNat_narrow_then_add (c : UInt16) :
    (saturatingAdd c.toUInt8 32).toNat = min (c.toNat % 256 + 32) 255 := by
  rw [toNat_saturatingAdd, UInt16.toNat_toUInt8]
  rfl

theorem narrow_eq_coordinateByte_iff (c : UInt16) :
    min (c.toNat % 256 + 32) 255 = coordinateByte c ↔ Fits c := by
  rw [coordinateByte, Fits]
  omega

theorem legacyCells_scroll (col row : UInt16) (lines : ℤ) :
    legacyCells (encodeMouseScroll col row lines false)
      = .ok (List.replicate (min lines.natAbs 255)
          (min (col.toNat % 256 + 32) 255, min (row.toNat % 256 + 32) 255)) := by
  rw [encodeMouseScroll_eq, if_neg Bool.false_ne_true, legacyCells,
    FrameReader.readAll_replicate (isFrame_x10 _ _ _)]
  refine (congrArg Except.ok List.map_replicate).trans ?_
  rw [toNat_narrow_then_add, toNat_narrow_then_add]

theorem legacyCells_button (ev : MouseEvent) :
    legacyCells (encodeMouseButton ev false)
      = .ok [(coordinateByte ev.col, coordinateByte ev.row)] := by
  rw [encodeMouseButton, if_neg Bool.false_ne_true, legacyCells,
    FrameReader.readAll_frame (isFrame_x10 _ _ _), ← toNat_clamp_then_add, ← toNat_clamp_then_add]
  rfl

/-! ## One cell, two encoders -/

/-- A wheel event and a button event at a cell report the same coordinates: in the legacy encoding
the saturated coordinate bytes, in SGR the cell itself. -/
structure SameCell (col row : UInt16) : Prop where
  legacy_scroll : ∀ lines, legacyCells (encodeMouseScroll col row lines false)
    = .ok (List.replicate (min lines.natAbs 255) (coordinateByte col, coordinateByte row))
  legacy_button : ∀ button kind mods,
    legacyCells (encodeMouseButton ⟨button, kind, col, row, mods⟩ false)
      = .ok [(coordinateByte col, coordinateByte row)]
  sgr_scroll : ∀ lines, sgrCells (encodeMouseScroll col row lines true)
    = .ok (List.replicate (min lines.natAbs 255) (col.toNat, row.toNat))
  sgr_button : ∀ button kind mods,
    sgrCells (encodeMouseButton ⟨button, kind, col, row, mods⟩ true)
      = .ok [(col.toNat, row.toNat)]

/-- Everything but the legacy wheel agrees at every cell. -/
theorem sameCell_of_legacy_scroll
    (h : ∀ lines, legacyCells (encodeMouseScroll col row lines false)
      = .ok (List.replicate (min lines.natAbs 255) (coordinateByte col, coordinateByte row))) :
    SameCell col row where
  legacy_scroll := h
  legacy_button := fun button kind mods ↦ legacyCells_button ⟨button, kind, col, row, mods⟩
  sgr_scroll := sgrCells_scroll col row
  sgr_button := fun button kind mods ↦ sgrCells_button ⟨button, kind, col, row, mods⟩

/-- The bytes of a wheel event of one line. -/
theorem SameCell.narrow_eq (h : SameCell col row) :
    min (col.toNat % 256 + 32) 255 = coordinateByte col ∧
      min (row.toNat % 256 + 32) 255 = coordinateByte row := by
  have hone := h.legacy_scroll 1
  rw [legacyCells_scroll] at hone
  exact Prod.mk.inj (List.head_eq_of_cons_eq (Except.ok.inj hone))

/-- **Mouse coordinates agree** at exactly the cells whose two coordinates are below 256 or have a
low byte that saturates. -/
theorem mouse_coordinates_agree_iff (col row : UInt16) :
    SameCell col row ↔ Fits col ∧ Fits row := by
  constructor
  · intro h
    exact ⟨(narrow_eq_coordinateByte_iff col).mp h.narrow_eq.1,
      (narrow_eq_coordinateByte_iff row).mp h.narrow_eq.2⟩
  · rintro ⟨hcol, hrow⟩
    refine sameCell_of_legacy_scroll fun lines ↦ ?_
    rw [legacyCells_scroll, (narrow_eq_coordinateByte_iff col).mpr hcol,
      (narrow_eq_coordinateByte_iff row).mpr hrow]

/-- On a terminal of 256 columns the last one is reported by the wheel as column zero. -/
theorem last_column_not_sameCell : ¬SameCell 256 1 := by
  intro h
  have hcol : min (256 % 256 + 32) 255 = min 256 223 + 32 := h.narrow_eq.1
  exact absurd hcol (by decide)

end Mouse

end Kmux
