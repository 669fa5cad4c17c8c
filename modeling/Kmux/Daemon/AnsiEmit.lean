import Mathlib.Data.List.DropRight
import Mathlib.Data.List.Nodup
import Kmux.Lib.TerminalRow
import Kmux.Protocol.Vt

/-!
# Rows written as ANSI text

A restored pane starts from a snapshot: each row of cells is written as text that makes a fresh
emulator hold the same cells. The style is written when it changes, blanks of the default style at
the end of the row are left out, and the spacer of a wide character is left to the emulator.

What the emulator does with the text is `Terminal.Screen`, and how it shows a cell, with the colours
swapped under inverse and default colours marked, is `convertCell`. A row comes back cell for cell
exactly when an emulator could hold it and every wide character in it is made wide again, which
leaves out a narrow one that was widened by something other than a variation selector: it comes back
narrow, with the rest of the row in place.
-/

namespace Kmux

open Terminal (Rgb Pen Cell Glyphs Screen)

/-! ## How the emulator shows a cell -/

def toCellColor (c : Rgb) : CellColor := ⟨c.r, c.g, c.b⟩

/-- The colours of a cell as displayed. -/
structure ResolvedCell where
  fg : CellColor
  bg : CellColor
  fgIsDefault : Bool
  bgIsDefault : Bool

/-- Inverse swaps the displayed colours, and with them which of the two is a default. -/
def resolveCell (defaultFg defaultBg : CellColor) (pen : Pen) : ResolvedCell :=
  let fgRgb := pen.fg.elim defaultFg toCellColor
  let bgRgb := pen.bg.elim defaultBg toCellColor
  if pen.inverse then
    { fg := bgRgb, bg := fgRgb, fgIsDefault := pen.bg.isNone, bgIsDefault := pen.fg.isNone }
  else
    { fg := fgRgb, bg := bgRgb, fgIsDefault := pen.fg.isNone, bgIsDefault := pen.bg.isNone }

/-- What each attribute of a reported cell is set by. -/
def cellFlags (cell : Cell) (resolved : ResolvedCell) : List (Bool × UInt16) :=
  [(cell.pen.bold, CellAttrs.bold), (cell.pen.italic, CellAttrs.italic),
    (cell.pen.underline, CellAttrs.underline), (cell.pen.strike, CellAttrs.strikethrough),
    (cell.pen.inverse, CellAttrs.inverse), (cell.pen.hidden, CellAttrs.hidden),
    (cell.pen.dim, CellAttrs.dim), (cell.pen.blink, CellAttrs.blink),
    (cell.shape = .wide, CellAttrs.wideChar), (cell.shape = .spacer, CellAttrs.wideCharSpacer),
    (resolved.fgIsDefault, CellAttrs.defaultFg), (resolved.bgIsDefault, CellAttrs.defaultBg)]

def cellAttrs (cell : Cell) (resolved : ResolvedCell) : CellAttrs :=
  ⟨(cellFlags cell resolved).foldl (fun bits f ↦ if f.1 then bits ||| f.2 else bits) 0⟩

/-- A cell of the emulator as it is reported, under the default colours in force. -/
def convertCell (defaultFg defaultBg : CellColor) (cell : Cell) : CellState :=
  let resolved := resolveCell defaultFg defaultBg cell.pen
  { c := cell.char
    fg := resolved.fg
    bg := resolved.bg
    attrs := cellAttrs cell resolved }

/-! ## Writing a row -/

/-- Each attribute and the `SGR` parameter that sets it. -/
def sgrAttrs : List (UInt16 × List Char) :=
  [(CellAttrs.bold, "1".toList), (CellAttrs.dim, "2".toList), (CellAttrs.italic, "3".toList),
    (CellAttrs.underline, "4".toList), (CellAttrs.blink, "5".toList),
    (CellAttrs.inverse, "7".toList), (CellAttrs.hidden, "8".toList),
    (CellAttrs.strikethrough, "9".toList)]

/-- What a fresh emulator holds in a cell nothing was written to. -/
def isDefaultBlank (cell : CellState) : Bool :=
  cell.c == ' ' && cell.attrs == (default : CellState).attrs

/-- The part of the sequence for one of the two colours, which a default one does not need. -/
def sgrColor (param : List Char) (color : CellColor) (isDefault : Bool) : List Char :=
  if isDefault then []
  else
    ';' :: param ++ ";2;".toList ++ Nat.toDigits 10 color.r.toNat ++
      ';' :: Nat.toDigits 10 color.g.toNat ++ ';' :: Nat.toDigits 10 color.b.toNat

/-- The sequence that sets a cell's style from scratch. The colours of an inverse cell are swapped
back to those the program set. -/
def sgrFor (cell : CellState) : List Char :=
  let attrs := cell.attrs
  let displayedFg := (cell.fg, attrs.contains CellAttrs.defaultFg)
  let displayedBg := (cell.bg, attrs.contains CellAttrs.defaultBg)
  let (fg, bg) :=
    if attrs.contains CellAttrs.inverse then (displayedBg, displayedFg)
    else (displayedFg, displayedBg)
  "\x1b[0".toList ++
    (sgrAttrs.flatMap fun (flag, param) ↦ if attrs.contains flag then ';' :: param else []) ++
    sgrColor "38".toList fg.1 fg.2 ++ sgrColor "48".toList bg.1 bg.2 ++ "m".toList

/-- The character of a wide cell. One that is not wide by itself is followed by a variation
selector, under grapheme clustering. The width is that of the `unicode-width` crate, which knows
none for a control character. -/
def emitWideChar (width : Char → Option ℕ) (c : Char) : List Char :=
  c :: if width c ≠ some 2 then "\x1b[?2027s\x1b[?2027h\ufe0f\x1b[?2027r".toList else []

/-- A style as it is compared from cell to cell. -/
def CellState.style (cell : CellState) : CellColor × CellColor × CellAttrs :=
  (cell.fg, cell.bg, cell.attrs)

/-- The loop over the cells, from a column on. -/
def emitFrom (width : Char → Option ℕ) :
    Option (CellColor × CellColor × CellAttrs) → ℕ → List CellState → List Char
  | _, _, [] => []
  | prevStyle, col, cell :: cells =>
    if cell.attrs.contains CellAttrs.wideCharSpacer then emitFrom width prevStyle (col + 1) cells
    else
      (if prevStyle = some cell.style then [] else sgrFor cell) ++
        (if cell.attrs.contains CellAttrs.wideChar then
          emitWideChar width cell.c ++
            -- Placed by column, so that the rest of the row lands where it was in any case.
            ("\x1b[".toList ++ Nat.toDigits 10 (col + 3) ++ "G".toList)
        else [cell.c]) ++
        emitFrom width (some cell.style) (col + 1) cells

/-- One row of cells, without the default blanks at its end. -/
def emitText (width : Char → Option ℕ) (cells : List CellState) : List Char :=
  emitFrom width none 0 (cells.rdropWhile isDefaultBlank) ++ "\x1b[0m".toList

def emitCells (width : Char → Option ℕ) (cells : List CellState) : ByteArray :=
  (String.ofList (emitText width cells)).toByteArray

/-! ## The style of a reported cell -/

section

variable {defaultFg defaultBg : CellColor}

private theorem contains_foldl (flags : List (Bool × UInt16)) (bits flag : UInt16) :
    CellAttrs.contains
        ⟨flags.foldl (fun bits f ↦ if f.1 then bits ||| f.2 else bits) bits⟩ flag =
      (CellAttrs.contains ⟨bits⟩ flag ||
        flags.any fun f ↦ f.1 && CellAttrs.contains ⟨f.2⟩ flag) := by
  induction flags generalizing bits with
  | nil => rw [List.foldl_nil, List.any_nil, Bool.or_false]
  | cons head flags ih =>
    obtain ⟨set, flag'⟩ := head
    rw [List.foldl_cons, List.any_cons, ih, ← Bool.or_assoc]
    match set with
    | true => rw [if_pos rfl, CellAttrs.contains_or, Bool.true_and]
    | false => rw [if_neg Bool.false_ne_true, Bool.false_and, Bool.or_false]

/-- The attributes are different bits. -/
private theorem cellFlags_bits (cell : Cell) (resolved : ResolvedCell) :
    ((cellFlags cell resolved).map Prod.snd).Nodup ∧
      ∀ f ∈ cellFlags cell resolved, ∀ f' ∈ cellFlags cell resolved,
        CellAttrs.contains ⟨f.2⟩ f'.2 = (f.2 == f'.2) := by
  let bits := (cellFlags .blank (resolveCell ⟨0, 0, 0⟩ ⟨0, 0, 0⟩ {})).map Prod.snd
  have hsame : (cellFlags cell resolved).map Prod.snd = bits := rfl
  have hbits : (bits.all fun b ↦ bits.all fun b' ↦ CellAttrs.contains ⟨b⟩ b' == (b == b')) =
      true := by decide
  simp only [List.all_eq_true, beq_iff_eq] at hbits
  constructor
  · rw [hsame]
    decide
  · intro f hf f' hf'
    apply hbits
    · exact hsame ▸ List.mem_map_of_mem hf
    · exact hsame ▸ List.mem_map_of_mem hf'

/-- An attribute is set by what `cellFlags` says it is set by. -/
theorem contains_convertCell {cell : Cell} {set : Bool} {flag : UInt16}
    (h : (set, flag) ∈ cellFlags cell (resolveCell defaultFg defaultBg cell.pen)) :
    (convertCell defaultFg defaultBg cell).attrs.contains flag = set := by
  obtain ⟨hnodup, hbits⟩ := cellFlags_bits cell (resolveCell defaultFg defaultBg cell.pen)
  have hzero : CellAttrs.contains ⟨0⟩ flag = false := by
    rw [CellAttrs.contains, UInt16.zero_and]
    rfl
  rw [convertCell, cellAttrs, contains_foldl, hzero, Bool.false_or, Bool.eq_iff_iff,
    List.any_eq_true]
  constructor
  · rintro ⟨f, hf, hset⟩
    rw [hbits f hf _ h, Bool.and_eq_true, beq_iff_eq] at hset
    have hsame : f = (set, flag) := List.inj_on_of_nodup_map hnodup hf h hset.2
    rw [hsame] at hset
    exact hset.1
  · rintro rfl
    refine ⟨_, h, ?_⟩
    rw [hbits _ h _ h, beq_self_eq_true]
    rfl

/-! ## The sequence for a style -/

/-- The parameter of an attribute, if it is set. -/
private def attrParam (set : Bool) (n : ℕ) : List ℕ := if set then [n] else []

/-- The parameters of a colour, if it is not the default one. -/
private def colorParams (n : ℕ) (color : Option Rgb) : List ℕ :=
  color.elim [] fun c ↦ [n, 2, c.r.toNat, c.g.toNat, c.b.toNat]

private def attrParams (pen : Pen) : List ℕ :=
  attrParam pen.bold 1 ++ attrParam pen.dim 2 ++ attrParam pen.italic 3 ++
    attrParam pen.underline 4 ++ attrParam pen.blink 5 ++ attrParam pen.inverse 7 ++
    attrParam pen.hidden 8 ++ attrParam pen.strike 9

/-- The `SGR` parameters that set a pen. -/
def penParams (pen : Pen) : List ℕ :=
  attrParams pen ++ colorParams 38 pen.fg ++ colorParams 48 pen.bg

/-- A parameter that sets one field of the pen, from the pen without it. -/
private theorem sgr_attrParam {g : Glyphs} {n : ℕ} (hfg : n ≠ 38) (hbg : n ≠ 48) (p : Bool → Pen)
    (hset : Screen.setParam g (p false) n = p true) (set : Bool) (params : List ℕ) :
    Screen.sgr g (attrParam set n ++ params) (p false) = Screen.sgr g params (p set) := by
  match set with
  | true => exact (Screen.sgr_cons hfg hbg params (p false)).trans (congrArg _ hset)
  | false => rfl

private theorem rgb_toNat (c : Rgb) : Screen.rgb c.r.toNat c.g.toNat c.b.toNat = c := by
  rw [Screen.rgb, UInt8.ofNat_toNat, UInt8.ofNat_toNat, UInt8.ofNat_toNat]

private theorem sgr_colorParams_fg {g : Glyphs} (color : Option Rgb) (params : List ℕ) (p : Pen) :
    Screen.sgr g (colorParams 38 color ++ params) { p with fg := none } =
      Screen.sgr g params { p with fg := color } := by
  match color with
  | none => rfl
  | some c => exact (Screen.sgr_fg _ _ _ params _).trans (by rw [rgb_toNat])

private theorem sgr_colorParams_bg {g : Glyphs} (color : Option Rgb) (p : Pen) :
    Screen.sgr g (colorParams 48 color) { p with bg := none } = { p with bg := color } := by
  match color with
  | none => rfl
  | some c => exact (Screen.sgr_bg _ _ _ [] _).trans (by rw [rgb_toNat, Screen.sgr_nil])

/-- Set from any pen, they give the pen: the first parameter resets it. -/
theorem sgr_penParams (g : Glyphs) (pen pen' : Pen) :
    Screen.sgr g (0 :: penParams pen) pen' = pen := by
  obtain ⟨bold, dim, italic, underline, blink, inverse, hidden, strike, fg, bg⟩ := pen
  rw [penParams, attrParams, Screen.sgr_cons (by decide) (by decide)]
  simp only [List.append_assoc]
  calc
    _ = _ := sgr_attrParam (by decide) (by decide) (fun b ↦ { bold := b }) rfl bold _
    _ = _ := sgr_attrParam (by decide) (by decide) (fun b ↦ { bold, dim := b }) rfl dim _
    _ = _ :=
      sgr_attrParam (by decide) (by decide) (fun b ↦ { bold, dim, italic := b }) rfl italic _
    _ = _ := sgr_attrParam (by decide) (by decide)
      (fun b ↦ { bold, dim, italic, underline := b }) rfl underline _
    _ = _ := sgr_attrParam (by decide) (by decide)
      (fun b ↦ { bold, dim, italic, underline, blink := b }) rfl blink _
    _ = _ := sgr_attrParam (by decide) (by decide)
      (fun b ↦ { bold, dim, italic, underline, blink, inverse := b }) rfl inverse _
    _ = _ := sgr_attrParam (by decide) (by decide)
      (fun b ↦ { bold, dim, italic, underline, blink, inverse, hidden := b }) rfl hidden _
    _ = _ := sgr_attrParam (by decide) (by decide)
      (fun b ↦ { bold, dim, italic, underline, blink, inverse, hidden, strike := b }) rfl strike _
    _ = _ := sgr_colorParams_fg fg _
      { bold, dim, italic, underline, blink, inverse, hidden, strike }
    _ = _ := sgr_colorParams_bg bg
      { bold, dim, italic, underline, blink, inverse, hidden, strike, fg }

private theorem sgrColor_eq (param : List Char) (n : ℕ) (hparam : param = Screen.decimal n)
    (color : Option Rgb) (c : CellColor) :
    sgrColor param (color.elim c toCellColor) color.isNone =
      Screen.separated (colorParams n color) := by
  have htwo : Nat.toDigits 10 2 = ['2'] := rfl
  match color with
  | none => rfl
  | some c =>
    simp [sgrColor, colorParams, Screen.separated, hparam, toCellColor, Screen.decimal, htwo]

/-- The colours are written as the program set them, inverse or not. -/
private theorem sgrColors_eq (defaultFg defaultBg : CellColor) (cell : Cell) :
    (let attrs := (convertCell defaultFg defaultBg cell).attrs
     let displayedFg :=
       ((convertCell defaultFg defaultBg cell).fg, attrs.contains CellAttrs.defaultFg)
     let displayedBg :=
       ((convertCell defaultFg defaultBg cell).bg, attrs.contains CellAttrs.defaultBg)
     if attrs.contains CellAttrs.inverse then (displayedBg, displayedFg)
     else (displayedFg, displayedBg)) =
      ((cell.pen.fg.elim defaultFg toCellColor, cell.pen.fg.isNone),
        (cell.pen.bg.elim defaultBg toCellColor, cell.pen.bg.isNone)) := by
  have hinverse : (convertCell defaultFg defaultBg cell).attrs.contains CellAttrs.inverse =
      cell.pen.inverse := contains_convertCell (by simp [cellFlags])
  have hfg : (convertCell defaultFg defaultBg cell).attrs.contains CellAttrs.defaultFg =
      (resolveCell defaultFg defaultBg cell.pen).fgIsDefault :=
    contains_convertCell (by simp [cellFlags])
  have hbg : (convertCell defaultFg defaultBg cell).attrs.contains CellAttrs.defaultBg =
      (resolveCell defaultFg defaultBg cell.pen).bgIsDefault :=
    contains_convertCell (by simp [cellFlags])
  dsimp only
  rw [hinverse, hfg, hbg, convertCell, resolveCell]
  dsimp only
  by_cases hswapped : cell.pen.inverse = true
  · rw [if_pos hswapped, if_pos hswapped]
  · rw [if_neg hswapped, if_neg hswapped]

/-- **The style** of a reported cell is written as the parameters of its pen. -/
theorem sgrFor_convertCell (cell : Cell) :
    sgrFor (convertCell defaultFg defaultBg cell) = Screen.csi 0 (penParams cell.pen) 'm' := by
  -- one parameter for each attribute that is set
  have hattr : ∀ (set : Bool) (flag : UInt16) (n : ℕ) (param : List Char),
      (set, flag) ∈ cellFlags cell (resolveCell defaultFg defaultBg cell.pen) →
      param = Screen.decimal n →
      (if (convertCell defaultFg defaultBg cell).attrs.contains flag then
        ';' :: param else []) = Screen.separated (attrParam set n) := by
    intro set flag n param hmem hparam
    rw [contains_convertCell hmem, hparam]
    match set with
    | true => exact (List.append_nil _).symm
    | false => rfl
  have hattrs : (sgrAttrs.flatMap fun (flag, param) ↦
      if (convertCell defaultFg defaultBg cell).attrs.contains flag then ';' :: param else []) =
      Screen.separated (attrParams cell.pen) := by
    simp only [sgrAttrs, attrParams, List.flatMap_cons, List.flatMap_nil, Screen.separated_append,
      List.append_nil, List.append_assoc]
    rw [hattr cell.pen.bold CellAttrs.bold 1 "1".toList (by simp [cellFlags]) rfl,
      hattr cell.pen.dim CellAttrs.dim 2 "2".toList (by simp [cellFlags]) rfl,
      hattr cell.pen.italic CellAttrs.italic 3 "3".toList (by simp [cellFlags]) rfl,
      hattr cell.pen.underline CellAttrs.underline 4 "4".toList (by simp [cellFlags]) rfl,
      hattr cell.pen.blink CellAttrs.blink 5 "5".toList (by simp [cellFlags]) rfl,
      hattr cell.pen.inverse CellAttrs.inverse 7 "7".toList (by simp [cellFlags]) rfl,
      hattr cell.pen.hidden CellAttrs.hidden 8 "8".toList (by simp [cellFlags]) rfl,
      hattr cell.pen.strike CellAttrs.strikethrough 9 "9".toList (by simp [cellFlags]) rfl]
  have hfg := sgrColor_eq "38".toList 38 rfl cell.pen.fg defaultFg
  have hbg := sgrColor_eq "48".toList 48 rfl cell.pen.bg defaultBg
  have hcolors := sgrColors_eq defaultFg defaultBg cell
  -- the equation of `sgrFor` is slow to generate
  delta sgrFor
  dsimp only at hcolors ⊢
  rw [hcolors, hattrs]
  dsimp only
  rw [hfg, hbg, Screen.csi, penParams, Screen.separated_append, Screen.separated_append]
  simp only [List.append_assoc]
  rfl

/-- Cells of one style have one pen. -/
theorem pen_eq_of_style (g : Glyphs) {cell cell' : Cell}
    (h : (convertCell defaultFg defaultBg cell).style =
      (convertCell defaultFg defaultBg cell').style) : cell.pen = cell'.pen := by
  have hpen : ∀ x : Cell,
      ((Screen.fresh 0 {}).feed g (sgrFor (convertCell defaultFg defaultBg x))).pen = x.pen := by
    intro x
    rw [sgrFor_convertCell, Screen.feed_csi rfl _ _ (by decide)]
    exact sgr_penParams g x.pen {}
  rw [CellState.style, CellState.style, Prod.mk.injEq, Prod.mk.injEq] at h
  have hsgr : sgrFor (convertCell defaultFg defaultBg cell) =
      sgrFor (convertCell defaultFg defaultBg cell') := by
    delta sgrFor
    rw [h.1, h.2.1, h.2.2]
  rw [← hpen cell, ← hpen cell', hsgr]

/-! ## What a row comes back as -/

variable {g : Glyphs} {width : Char → Option ℕ}

/-- A character written in a wide cell is wide again. -/
def Widens (g : Glyphs) (width : Char → Option ℕ) (c : Char) : Prop :=
  2 ≤ g.width c ∨ width c ≠ some 2 ∧ g.emojiBase c = true

/-- The cells a row leaves: those of a wide character are what is left of it. -/
def replayed (g : Glyphs) (width : Char → Option ℕ) (row : List Cell) : List Cell :=
  row.flatMap fun cell ↦
    match cell.shape with
    | .narrow => [cell]
    | .wide => Screen.pairCells g (decide (width cell.char ≠ some 2)) cell.char cell.pen
    | .spacer => []

private theorem contains_spacer (cell : Cell) :
    (convertCell defaultFg defaultBg cell).attrs.contains CellAttrs.wideCharSpacer =
      decide (cell.shape = .spacer) := contains_convertCell (by simp [cellFlags])

private theorem contains_wide (defaultFg defaultBg : CellColor) (cell : Cell) :
    (convertCell defaultFg defaultBg cell).attrs.contains CellAttrs.wideChar =
      decide (cell.shape = .wide) := contains_convertCell (by simp [cellFlags])

/-- The style is written unless it is the last one written. -/
private theorem writing_style {t : Screen} {cells : List Cell} {blanks : ℕ} {pen : Pen}
    {prevStyle : Option (CellColor × CellColor × CellAttrs)} (ht : t.Writing cells blanks pen)
    (hprev : ∀ cell, prevStyle = some (convertCell defaultFg defaultBg cell).style →
      pen = cell.pen) (cell : Cell) :
    (t.feed g (if prevStyle = some (convertCell defaultFg defaultBg cell).style then []
      else sgrFor (convertCell defaultFg defaultBg cell))).Writing cells blanks cell.pen := by
  by_cases hsame : prevStyle = some (convertCell defaultFg defaultBg cell).style
  · rw [if_pos hsame, ← hprev cell hsame]
    exact ht
  · rw [if_neg hsame, sgrFor_convertCell]
    have hset := ht.sgr (g := g) 0 (penParams cell.pen)
    rwa [sgr_penParams] at hset

private theorem emitFrom_narrow (c : Char) (p : Pen) (cells : List CellState) (col : ℕ)
    (prevStyle : Option (CellColor × CellColor × CellAttrs)) :
    emitFrom width prevStyle col (convertCell defaultFg defaultBg ⟨c, p, .narrow⟩ :: cells) =
      (if prevStyle = some (convertCell defaultFg defaultBg ⟨c, p, .narrow⟩).style then []
        else sgrFor (convertCell defaultFg defaultBg ⟨c, p, .narrow⟩)) ++ [c] ++
        emitFrom width (some (convertCell defaultFg defaultBg ⟨c, p, .narrow⟩).style) (col + 1)
          cells := by
  have hspacer : (convertCell defaultFg defaultBg ⟨c, p, .narrow⟩).attrs.contains
      CellAttrs.wideCharSpacer = false := contains_spacer _
  have hwide : (convertCell defaultFg defaultBg ⟨c, p, .narrow⟩).attrs.contains
      CellAttrs.wideChar = false := contains_wide _ _ _
  rw [emitFrom, hspacer, hwide, if_neg Bool.false_ne_true, if_neg Bool.false_ne_true]
  rfl

/-- A wide character and its spacer, of which only the first is written. -/
private theorem emitFrom_wide (c : Char) (p : Pen) (cells : List CellState) (col : ℕ)
    (prevStyle : Option (CellColor × CellColor × CellAttrs)) :
    emitFrom width prevStyle col (convertCell defaultFg defaultBg ⟨c, p, .wide⟩ ::
        convertCell defaultFg defaultBg ⟨' ', p, .spacer⟩ :: cells) =
      (if prevStyle = some (convertCell defaultFg defaultBg ⟨c, p, .wide⟩).style then []
        else sgrFor (convertCell defaultFg defaultBg ⟨c, p, .wide⟩)) ++
        ((c :: if decide (width c ≠ some 2) then Screen.presentation else []) ++
          Screen.csi (col + 3) [] 'G') ++
        emitFrom width (some (convertCell defaultFg defaultBg ⟨c, p, .wide⟩).style) (col + 1 + 1)
          cells := by
  have hspacer : (convertCell defaultFg defaultBg ⟨c, p, .wide⟩).attrs.contains
      CellAttrs.wideCharSpacer = false := contains_spacer _
  have hwide : (convertCell defaultFg defaultBg ⟨c, p, .wide⟩).attrs.contains
      CellAttrs.wideChar = true := contains_wide _ _ _
  have hskipped : (convertCell defaultFg defaultBg ⟨' ', p, .spacer⟩).attrs.contains
      CellAttrs.wideCharSpacer = true := contains_spacer _
  have htext : emitWideChar width c =
      c :: if decide (width c ≠ some 2) then Screen.presentation else [] := by
    simp only [decide_eq_true_eq]
    rfl
  have hcolumn : "\x1b[".toList ++ Nat.toDigits 10 (col + 3) ++ "G".toList =
      Screen.csi (col + 3) [] 'G' := by
    rw [Screen.csi, Screen.separated, List.flatMap_nil, List.append_nil]
    rfl
  rw [emitFrom, hspacer, hwide, if_neg Bool.false_ne_true, if_pos rfl, emitFrom, hskipped,
    if_pos rfl, ← htext, hcolumn]
  rfl

/-- **The loop**, on a row that fits after what is filled. The pen is that of the last style
written, which is what lets a style be left out. -/
theorem writing_emitFrom (width : Char → Option ℕ) {row : List Cell}
    (h : Terminal.Row.Held g row) {t : Screen} {cells : List Cell} {blanks : ℕ} {pen : Pen}
    {prevStyle : Option (CellColor × CellColor × CellAttrs)}
    (ht : t.Writing cells (row.length + blanks) pen)
    (hprev : ∀ cell, prevStyle = some (convertCell defaultFg defaultBg cell).style →
      pen = cell.pen) :
    ∃ pen', (t.feed g (emitFrom width prevStyle cells.length
      (row.map (convertCell defaultFg defaultBg)))).Writing (cells ++ replayed g width row)
        blanks pen' := by
  induction h generalizing t cells pen prevStyle with
  | nil =>
    refine ⟨pen, ?_⟩
    rw [List.length_nil, Nat.zero_add] at ht
    rw [replayed, List.flatMap_nil, List.append_nil]
    exact ht
  -- one character, and the loop goes on in the next column
  | @narrow c rest p hc hwidth h ih =>
    have hlength : rest.length + 1 + blanks = rest.length + blanks + 1 := by omega
    rw [List.length_cons, hlength] at ht
    have hdone := (writing_style (g := g) ht hprev ⟨c, p, .narrow⟩).narrow hc hwidth
    have hstyle : ∀ cell, some (convertCell defaultFg defaultBg ⟨c, p, .narrow⟩).style =
        some (convertCell defaultFg defaultBg cell).style → p = cell.pen :=
      fun cell hsome ↦ pen_eq_of_style g (Option.some.inj hsome)
    obtain ⟨pen', hrest⟩ := ih hdone hstyle
    refine ⟨pen', ?_⟩
    rw [List.length_append, List.append_assoc] at hrest
    rw [List.map_cons, emitFrom_narrow, Screen.feed_append, Screen.feed_append]
    exact hrest
  -- the pair is written, the cursor put after it, and the spacer skipped
  | @wide c rest p hc hwidth h ih =>
    have hlength : rest.length + 1 + 1 + blanks = rest.length + blanks + 2 := by omega
    rw [List.length_cons, List.length_cons, hlength] at ht
    have hdone := (writing_style (g := g) ht hprev ⟨c, p, .wide⟩).pair hc
      (hwidth.imp_right And.left) (decide (width c ≠ some 2))
    have hstyle : ∀ cell, some (convertCell defaultFg defaultBg ⟨c, p, .wide⟩).style =
        some (convertCell defaultFg defaultBg cell).style → p = cell.pen :=
      fun cell hsome ↦ pen_eq_of_style g (Option.some.inj hsome)
    obtain ⟨pen', hrest⟩ := ih hdone hstyle
    refine ⟨pen', ?_⟩
    rw [List.length_append, Screen.length_pairCells, List.append_assoc] at hrest
    rw [List.map_cons, List.map_cons, emitFrom_wide, Screen.feed_append, Screen.feed_append]
    exact hrest

/-! ## A row comes back -/

/-- What counts as a blank of the default style is reported of nothing but a blank. -/
theorem isDefaultBlank_convertCell (cell : Cell) :
    isDefaultBlank (convertCell defaultFg defaultBg cell) = true ↔ cell = .blank := by
  constructor
  · intro h
    rw [isDefaultBlank, Bool.and_eq_true, beq_iff_eq, beq_iff_eq] at h
    have hflags : ∀ f ∈ cellFlags cell (resolveCell defaultFg defaultBg cell.pen),
        f.1 = (default : CellState).attrs.contains f.2 := by
      intro f hf
      rw [← h.2, contains_convertCell hf]
    obtain ⟨c, pen, shape⟩ := cell
    obtain ⟨bold, dim, italic, underline, blink, inverse, hidden, strike, fg, bg⟩ := pen
    simp only [cellFlags, List.forall_mem_cons] at hflags
    obtain ⟨hbold, hitalic, hunderline, hstrike, hinverse, hhidden, hdim, hblink, hwide, hspacer,
      hfg, hbg, -⟩ := hflags
    obtain rfl : c = ' ' := h.1
    obtain rfl : bold = false := hbold
    obtain rfl : italic = false := hitalic
    obtain rfl : underline = false := hunderline
    obtain rfl : strike = false := hstrike
    obtain rfl : inverse = false := hinverse
    obtain rfl : hidden = false := hhidden
    obtain rfl : dim = false := hdim
    obtain rfl : blink = false := hblink
    obtain rfl : fg = none := Option.isNone_iff_eq_none.mp hfg
    obtain rfl : bg = none := Option.isNone_iff_eq_none.mp hbg
    -- the two halves of a wide character carry flags a blank does not
    match shape with
    | .narrow => rfl
    | .wide => exact absurd hwide (by decide)
    | .spacer => exact absurd hspacer (by decide)
  · rintro rfl
    rw [isDefaultBlank, Bool.and_eq_true, beq_iff_eq, beq_iff_eq]
    -- The attributes of a blank do not depend on the default colours.
    have hattrs : (convertCell defaultFg defaultBg .blank).attrs =
        (convertCell ⟨0, 0, 0⟩ ⟨0, 0, 0⟩ .blank).attrs := rfl
    rw [hattrs]
    exact ⟨rfl, by decide⟩

/-- What is left out at the end of a row are blanks. -/
private theorem exists_trimmed (defaultFg defaultBg : CellColor) (row : List Cell) : ∃ row' n,
    row = row' ++ List.replicate n Cell.blank ∧
      (row.map (convertCell defaultFg defaultBg)).rdropWhile isDefaultBlank =
        row'.map (convertCell defaultFg defaultBg) := by
  induction row using List.reverseRecOn with
  | nil => exact ⟨[], 0, rfl, rfl⟩
  | append_singleton row cell ih =>
    rw [List.map_append, List.map_singleton]
    by_cases hblank : isDefaultBlank (convertCell defaultFg defaultBg cell) = true
    · obtain ⟨row', n, hrow, htrimmed⟩ := ih
      refine ⟨row', n + 1, ?_, ?_⟩
      · rw [List.replicate_succ', ← List.append_assoc, ← hrow,
          (isDefaultBlank_convertCell cell).mp hblank]
      · rw [List.rdropWhile_concat_pos _ _ _ hblank, htrimmed]
    · refine ⟨row ++ [cell], 0, (List.append_nil _).symm, ?_⟩
      rw [List.rdropWhile_concat_neg _ _ _ hblank, List.map_append, List.map_singleton]

private theorem replayed_replicate_blank (n : ℕ) :
    replayed g width (List.replicate n .blank) = List.replicate n .blank := by
  induction n with
  | zero => rfl
  | succ n ih =>
    rw [List.replicate_succ, replayed, List.flatMap_cons, ← replayed, ih]
    rfl

/-- **The replay.** A row that an emulator can hold leaves the cells of `replayed`, the default pen,
and the emulator ready for what comes next. -/
theorem filled_emitText (width : Char → Option ℕ) (defaultFg defaultBg : CellColor)
    {row : List Cell} (h : Terminal.Row.Held g row) (pen : Pen) :
    ((Screen.fresh row.length pen).feed g
      (emitText width (row.map (convertCell defaultFg defaultBg)))).Filled
        (replayed g width row) 0 {} := by
  obtain ⟨row', n, rfl, htrimmed⟩ := exists_trimmed defaultFg defaultBg row
  have hstart : (Screen.fresh (row' ++ List.replicate n Cell.blank).length pen).Writing []
      (row'.length + n) pen := by
    rw [List.length_append, List.length_replicate]
    exact Screen.writing_fresh _ _
  -- no style has been written yet, so the first cell writes one
  have hnone : ∀ cell : Cell, (none : Option (CellColor × CellColor × CellAttrs)) =
      some (convertCell defaultFg defaultBg cell).style → pen = cell.pen :=
    fun cell hsome ↦ by contradiction
  obtain ⟨pen', hloop⟩ := writing_emitFrom width h.of_append_replicate hstart hnone
  have hreset := hloop.sgr (g := g) 0 []
  -- the blanks left out at the end are there already
  have hblanks : replayed g width (row' ++ List.replicate n Cell.blank) =
      replayed g width row' ++ List.replicate n Cell.blank := by
    rw [replayed, List.flatMap_append, ← replayed, ← replayed, replayed_replicate_blank]
  rw [emitText, htrimmed, Screen.feed_append, hblanks]
  refine ⟨?_, hreset.pen_eq, hreset.left, hreset.clusters, hreset.ground⟩
  rw [List.replicate_zero, List.append_nil]
  exact hreset.cells_eq

/-- The cells that come back are the same ones exactly when every wide character is wide again. -/
theorem map_replayed_iff (defaultFg defaultBg : CellColor) {row : List Cell}
    (h : Terminal.Row.Held g row) :
    (replayed g width row).map (convertCell defaultFg defaultBg) =
        row.map (convertCell defaultFg defaultBg) ↔
      ∀ cell ∈ row, cell.shape = .wide → Widens g width cell.char := by
  induction h with
  | nil => exact iff_of_true rfl fun _ hmem ↦ absurd hmem List.not_mem_nil
  | @narrow c rest p hc hwidth h ih =>
    have hreplayed : replayed g width (⟨c, p, .narrow⟩ :: rest) =
        ⟨c, p, .narrow⟩ :: replayed g width rest := rfl
    have hnarrow : (⟨c, p, .narrow⟩ : Cell).shape = .wide → Widens g width c :=
      fun hshape ↦ Terminal.Shape.noConfusion hshape
    rw [hreplayed, List.map_cons, List.map_cons, List.cons.injEq, and_iff_right rfl,
      List.forall_mem_cons, and_iff_right hnarrow, ih]
  | @wide c rest p hc hwidth h ih =>
    have hreplayed : replayed g width (⟨c, p, .wide⟩ :: ⟨' ', p, .spacer⟩ :: rest) =
        Screen.pairCells g (decide (width c ≠ some 2)) c p ++ replayed g width rest := rfl
    have hspacer : (⟨' ', p, .spacer⟩ : Cell).shape = .wide → Widens g width ' ' :=
      fun hshape ↦ Terminal.Shape.noConfusion hshape
    have hiff : 2 ≤ g.width c ∨ decide (width c ≠ some 2) = true ∧ g.emojiBase c = true ↔
        Widens g width c := by
      rw [decide_eq_true_eq, Widens]
    rw [hreplayed, List.forall_mem_cons, List.forall_mem_cons, and_iff_right hspacer, ← ih,
      Screen.pairCells]
    -- not widened, the pair comes back as a narrow character: the first cell tells
    by_cases hwidens : Widens g width c
    · rw [if_pos (hiff.mpr hwidens), and_iff_right fun _ ↦ hwidens, List.map_append,
        List.map_cons, List.map_cons, List.map_cons, List.map_cons, List.map_nil]
      simp only [List.cons_append, List.nil_append, List.cons.injEq, true_and]
    · rw [if_neg (hiff.not.mpr hwidens)]
      refine iff_of_false ?_ fun hboth ↦ hwidens (hboth.1 rfl)
      intro heq
      have hfirst : convertCell defaultFg defaultBg ⟨c, p, .narrow⟩ =
          convertCell defaultFg defaultBg ⟨c, p, .wide⟩ := (List.cons.inj heq).1
      have hnarrow := contains_wide defaultFg defaultBg ⟨c, p, .narrow⟩
      rw [hfirst, contains_wide] at hnarrow
      contradiction

end

/-- Fed to a fresh emulator of as many columns, whatever its pen, the bytes of a row leave its
cells, and the emulator on that row with the default pen and in no mode. -/
def RowReplays (g : Glyphs) (width : Char → Option ℕ) (defaultFg defaultBg : CellColor) (pen : Pen)
    (cells : List CellState) : Prop :=
  ∃ t, (Screen.fresh cells.length pen).feedBytes g (emitCells width cells) = some t ∧
    t.cells.map (convertCell defaultFg defaultBg) = cells ∧
    t.pen = {} ∧ t.left = false ∧ t.clusters = false ∧ t.parser = .ground

/-- The rows an emulator reports, with no wide character that is not made wide again. -/
def RowReplayable (g : Glyphs) (width : Char → Option ℕ) (defaultFg defaultBg : CellColor)
    (cells : List CellState) : Prop :=
  ∃ row, Terminal.Row.Held g row ∧
    (∀ cell ∈ row, cell.shape = .wide → Widens g width cell.char) ∧
    cells = row.map (convertCell defaultFg defaultBg)

/-- **Round trip.** The rows that come back cell for cell are those an emulator reports, with every
wide character one that is wide by itself or that the variation selector widens. -/
theorem row_replays_iff (g : Glyphs) (width : Char → Option ℕ) (defaultFg defaultBg : CellColor)
    (pen : Pen) (cells : List CellState) :
    RowReplays g width defaultFg defaultBg pen cells ↔
      RowReplayable g width defaultFg defaultBg cells := by
  constructor
  · rintro ⟨t, hfeed, hcells, -⟩
    rw [emitCells, Screen.feedBytes_toByteArray, Option.some.injEq] at hfeed
    -- Whatever was fed, the emulator holds a well-formed row, and it reports these cells.
    have hheld : Terminal.Row.Held g t.cells := by
      rw [← hfeed]
      exact Screen.held_feed (Screen.held_fresh _ _) _
    refine ⟨t.cells, hheld, ?_, hcells.symm⟩
    have hfilled := filled_emitText width defaultFg defaultBg hheld pen
    have hlength : t.cells.length = cells.length := by
      rw [← hcells, List.length_map]
    rw [hcells, hlength, hfeed] at hfilled
    have hsame : t.cells = replayed g width t.cells := by
      have hcells_eq := hfilled.cells_eq
      rwa [List.replicate_zero, List.append_nil] at hcells_eq
    rw [← map_replayed_iff defaultFg defaultBg hheld, ← hsame]
  · rintro ⟨row, hheld, hwidens, rfl⟩
    have hfilled := filled_emitText width defaultFg defaultBg hheld pen
    refine ⟨_, ?_, ?_, hfilled.pen_eq, hfilled.left, hfilled.clusters, hfilled.ground⟩
    · rw [emitCells, Screen.feedBytes_toByteArray, List.length_map]
    · rw [hfilled.cells_eq, List.replicate_zero, List.append_nil]
      exact (map_replayed_iff defaultFg defaultBg hheld).mpr hwidens

/-- The data for a row without characters that are wide by themselves or emoji. -/
def narrowGlyphs : Glyphs where
  width c := if c = Terminal.variation then 0 else 1
  emojiBase _ := false
  joins _ _ := false
  palette _ := ⟨0, 0, 0⟩
  width_space := by decide
  width_variation := by decide

/-- A Devanagari letter that something other than a variation selector made wide comes back
narrow. -/
theorem not_row_replays_narrow_base :
    ¬RowReplays narrowGlyphs (fun _ ↦ some 1) (default : CellState).fg (default : CellState).bg {}
      [{ (default : CellState) with
          c := Char.ofNat 0x915
          attrs := ⟨CellAttrs.wideChar ||| CellAttrs.defaultFg ||| CellAttrs.defaultBg⟩ },
        { (default : CellState) with
          attrs :=
            ⟨CellAttrs.wideCharSpacer ||| CellAttrs.defaultFg ||| CellAttrs.defaultBg⟩ }] := by
  rintro ⟨t, hfeed, hcells, -⟩
  rw [emitCells, Screen.feedBytes_toByteArray, Option.some.injEq] at hfeed
  rw [← hfeed] at hcells
  revert hcells
  decide

end Kmux
