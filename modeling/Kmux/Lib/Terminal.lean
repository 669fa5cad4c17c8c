import Mathlib.Data.List.Basic
import Mathlib.Data.Nat.Basic

/-!
# One row of a terminal emulator

Text written to a terminal goes through a parser: most characters are printed at the cursor, an
escape character starts a control sequence. What is modelled is one row of cells, the cursor while
it is on that row, the pen that `SGR` sets, and the two things that decide how many columns a
character takes: its width, and a variation selector that makes the character before it an emoji,
which is honoured only while grapheme clustering (mode 2027) is on.

How wide a character is and which ones are emoji is Unicode data, and differs from one emulator to
the next: it is the parameter `Glyphs`.

Whatever is fed, the row stays well formed (`Row.Held`): a wide character is followed by its spacer,
no spacer is on its own, and only printable characters are held. Printing over half of a wide
character blanks the other half for that.
-/

namespace Terminal

/-! ## Cells -/

structure Rgb where
  r : UInt8
  g : UInt8
  b : UInt8
  deriving DecidableEq, Repr

/-- What a character is printed with. No colour is the terminal's default one. -/
structure Pen where
  bold : Bool := false
  dim : Bool := false
  italic : Bool := false
  underline : Bool := false
  blink : Bool := false
  inverse : Bool := false
  hidden : Bool := false
  strike : Bool := false
  fg : Option Rgb := none
  bg : Option Rgb := none
  deriving DecidableEq, Repr

inductive Shape
  | narrow
  /-- The left column of a character that takes two. -/
  | wide
  /-- The right column of a character that takes two. -/
  | spacer
  deriving DecidableEq, Repr

structure Cell where
  char : Char
  pen : Pen
  shape : Shape
  deriving DecidableEq, Repr

/-- A cell nothing was printed in. -/
def Cell.blank : Cell := ⟨' ', {}, .narrow⟩

/-- U+FE0F, which asks for the emoji presentation of the character before it. -/
def variation : Char := Char.ofNat 0xfe0f

def esc : Char := Char.ofNat 0x1b

/-- The C0 controls and DEL: everything else is printed. -/
def isControl (c : Char) : Bool := c.toNat < 0x20 || c.toNat == 0x7f

/-- The Unicode data of an emulator, and its palette. -/
structure Glyphs where
  /-- Columns a character takes; two and more are two. -/
  width : Char → ℕ
  /-- Characters that a variation selector makes an emoji. -/
  emojiBase : Char → Bool
  /-- Under grapheme clustering, whether the second character joins the cell of the first. -/
  joins : Char → Char → Bool
  palette : ℕ → Rgb
  width_space : width ' ' = 1
  width_variation : width variation = 0

/-- Where the parser is. A control sequence carries its parameters so far, the current one first. -/
inductive Parser
  | ground
  | escape
  | csi (marked : Bool) (params : List ℕ)
  deriving DecidableEq, Repr

structure Screen where
  /-- The row the cursor started on. -/
  cells : List Cell
  col : ℕ
  /-- The last column was printed, and the next character wraps. -/
  pendingWrap : Bool
  /-- The cursor went on to the next row, and what is printed is no longer on this one. -/
  left : Bool
  pen : Pen
  /-- Mode 2027. -/
  clusters : Bool
  savedClusters : Bool
  parser : Parser
  deriving DecidableEq, Repr

/-! ## Printing -/

namespace Row

/-- Blank the wide character a column is half of. -/
def vacate (cells : List Cell) (i : ℕ) : List Cell :=
  match cells[i]?.map Cell.shape with
  | some .wide => (cells.set i .blank).set (i + 1) .blank
  | some .spacer => (cells.set i .blank).set (i - 1) .blank
  | _ => cells

def putNarrow (cells : List Cell) (i : ℕ) (c : Char) (pen : Pen) : List Cell :=
  (vacate cells i).set i ⟨c, pen, .narrow⟩

def putWide (cells : List Cell) (i : ℕ) (c : Char) (pen : Pen) : List Cell :=
  ((vacate (vacate cells i) (i + 1)).set i ⟨c, pen, .wide⟩).set (i + 1) ⟨' ', pen, .spacer⟩

end Row

namespace Screen

variable (g : Glyphs)

/-- A blank row, the cursor in its first column. -/
def fresh (cols : ℕ) (pen : Pen) : Screen :=
  { cells := List.replicate cols .blank
    col := 0
    pendingWrap := false
    left := false
    pen
    clusters := false
    savedClusters := false
    parser := .ground }

/-- The cursor goes to a column, or waits at the last one. -/
def advance (t : Screen) (col : ℕ) : Screen :=
  if col < t.cells.length then { t with col, pendingWrap := false }
  else { t with col := t.cells.length - 1, pendingWrap := true }

/-- A character that takes one column. -/
def writeNarrow (t : Screen) (c : Char) : Screen :=
  if t.pendingWrap then { t with left := true }
  else { t with cells := Row.putNarrow t.cells t.col c t.pen }.advance (t.col + 1)

/-- A character that takes two columns. In the last column it leaves a blank and wraps. -/
def writeWide (t : Screen) (c : Char) : Screen :=
  if t.pendingWrap then { t with left := true }
  else if t.col + 1 < t.cells.length then
    { t with cells := Row.putWide t.cells t.col c t.pen }.advance (t.col + 2)
  else { t with cells := Row.putNarrow t.cells t.col ' ' t.pen, left := true }

/-- A character in cells of its own; one without width has none. -/
def write (t : Screen) (c : Char) : Screen :=
  match g.width c with
  | 0 => t
  | 1 => t.writeNarrow c
  | _ => t.writeWide c

/-- The column of the character before the cursor. -/
def previous (t : Screen) : Option ℕ :=
  let last := if t.pendingWrap then some t.col else if t.col = 0 then none else some (t.col - 1)
  last.map fun i ↦ if t.cells[i]?.map Cell.shape = some .spacer then i - 1 else i

/-- The emoji presentation of the character in a column: printed again, as a wide one. -/
def present (t : Screen) (i : ℕ) : Screen :=
  match t.cells[i]? with
  | some ⟨b, _, .narrow⟩ =>
    if g.emojiBase b then { t with col := i, pendingWrap := false }.writeWide b else t
  | _ => t

def print (t : Screen) (c : Char) : Screen :=
  if t.left then t
  else
    match t.clusters, t.previous with
    | true, some i =>
      if c = variation then t.present g i
      else if t.cells[i]?.any fun b ↦ g.joins b.char c then t
      else t.write g c
    | _, _ => t.write g c

/-! ## Control -/

/-- One `SGR` parameter. -/
def setParam (p : Pen) (n : ℕ) : Pen :=
  match n with
  | 0 => {}
  | 1 => { p with bold := true }
  | 2 => { p with dim := true }
  | 3 => { p with italic := true }
  | 4 => { p with underline := true }
  | 5 => { p with blink := true }
  | 7 => { p with inverse := true }
  | 8 => { p with hidden := true }
  | 9 => { p with strike := true }
  | 22 => { p with bold := false, dim := false }
  | 23 => { p with italic := false }
  | 24 => { p with underline := false }
  | 25 => { p with blink := false }
  | 27 => { p with inverse := false }
  | 28 => { p with hidden := false }
  | 29 => { p with strike := false }
  | 39 => { p with fg := none }
  | 49 => { p with bg := none }
  | n =>
    if 30 ≤ n ∧ n ≤ 37 then { p with fg := some (g.palette (n - 30)) }
    else if 40 ≤ n ∧ n ≤ 47 then { p with bg := some (g.palette (n - 40)) }
    else if 90 ≤ n ∧ n ≤ 97 then { p with fg := some (g.palette (n - 82)) }
    else if 100 ≤ n ∧ n ≤ 107 then { p with bg := some (g.palette (n - 92)) }
    else p

def rgb (r g b : ℕ) : Rgb := ⟨.ofNat r, .ofNat g, .ofNat b⟩

/-- The parameters of an `SGR` sequence, from the left: 38 and 48 take theirs along. -/
def sgr : List ℕ → Pen → Pen
  | [], p => p
  | 38 :: 2 :: r :: gr :: b :: rest, p => sgr rest { p with fg := some (rgb r gr b) }
  | 38 :: 5 :: n :: rest, p => sgr rest { p with fg := some (g.palette n) }
  | 48 :: 2 :: r :: gr :: b :: rest, p => sgr rest { p with bg := some (rgb r gr b) }
  | 48 :: 5 :: n :: rest, p => sgr rest { p with bg := some (g.palette n) }
  | n :: rest, p => sgr rest (setParam g p n)

/-- A C0 control: carriage return, line feed and backspace move the cursor. -/
def control (t : Screen) (c : Char) : Screen :=
  match c.toNat with
  | 0x0d => { t with col := 0, pendingWrap := false }
  | 0x0a => { t with left := true, pendingWrap := false }
  | 0x08 => { t with col := t.col - 1, pendingWrap := false }
  | _ => t

/-- The mode a private sequence is about. -/
def clusterMode : ℕ := 2027

/-- The end of a control sequence. One that is not known does nothing. -/
def dispatch (t : Screen) (marked : Bool) (params : List ℕ) (final : Char) : Screen :=
  let known := decide (clusterMode ∈ params)
  match marked, final with
  | false, 'm' => { t with pen := sgr g params t.pen }
  | false, 'G' =>
    { t with col := min (params.headD 1 - 1) (t.cells.length - 1), pendingWrap := false }
  | true, 'h' => { t with clusters := t.clusters || known }
  | true, 'l' => { t with clusters := t.clusters && !known }
  | true, 's' => { t with savedClusters := if known then t.clusters else t.savedClusters }
  | true, 'r' => { t with clusters := if known then t.savedClusters else t.clusters }
  | _, _ => t

/-- The value of a decimal digit. -/
def digit (c : Char) : ℕ := c.toNat - '0'.toNat

/-- One character of input. -/
def step (t : Screen) (c : Char) : Screen :=
  if c = esc then { t with parser := .escape }
  else if isControl c then t.control c
  else
    match t.parser with
    | .ground => t.print g c
    | .escape => { t with parser := if c = '[' then .csi false [0] else .ground }
    | .csi marked params =>
      if c.isDigit then { t with parser := .csi marked (params.modifyHead (10 * · + digit c)) }
      else if c = ';' then { t with parser := .csi marked (0 :: params) }
      else if c = '?' then { t with parser := .csi true params }
      else { t with parser := .ground }.dispatch g marked params.reverse c

/-- Text fed to the emulator. -/
def feed (t : Screen) (text : List Char) : Screen := text.foldl (step g) t

/-- Bytes fed to the emulator, if they are UTF-8. -/
def feedBytes (t : Screen) (bytes : ByteArray) : Option Screen :=
  bytes.utf8Decode?.map fun text ↦ t.feed g text.toList

/-! ## Reading control sequences -/

variable {g}

@[simp] theorem feed_nil (t : Screen) : t.feed g [] = t := rfl

theorem feed_cons (t : Screen) (c : Char) (text : List Char) :
    t.feed g (c :: text) = (t.step g c).feed g text := rfl

theorem feed_append (t : Screen) (text text' : List Char) :
    t.feed g (text ++ text') = (t.feed g text).feed g text' := List.foldl_append

/-- Text that is written out in UTF-8 is read back as it was. -/
theorem feedBytes_toByteArray (t : Screen) (text : List Char) :
    t.feedBytes g (String.ofList text).toByteArray = some (t.feed g text) := by
  rw [feedBytes, String.toByteArray_ofList, List.utf8Decode?_utf8Encode, Option.map_some,
    List.toList_toArray]

theorem step_print {t : Screen} {c : Char} (hground : t.parser = .ground) (hesc : c ≠ esc)
    (hc : isControl c = false) : t.step g c = t.print g c := by
  rw [step, if_neg hesc, hc, if_neg Bool.false_ne_true, hground]

theorem step_csi {t : Screen} {marked : Bool} {params : List ℕ} {c : Char}
    (h : t.parser = .csi marked params) (hesc : c ≠ esc) (hc : isControl c = false) :
    t.step g c =
      if c.isDigit then { t with parser := .csi marked (params.modifyHead (10 * · + digit c)) }
      else if c = ';' then { t with parser := .csi marked (0 :: params) }
      else if c = '?' then { t with parser := .csi true params }
      else { t with parser := .ground }.dispatch g marked params.reverse c := by
  rw [step, if_neg hesc, hc, if_neg Bool.false_ne_true, h]

/-- A parameter in decimal. -/
def decimal (n : ℕ) : List Char := Nat.toDigits 10 n

/-- Parameters, separated as in a control sequence, each after its separator. -/
def separated (params : List ℕ) : List Char := params.flatMap fun n ↦ ';' :: decimal n

theorem separated_append (params params' : List ℕ) :
    separated (params ++ params') = separated params ++ separated params' := List.flatMap_append

private theorem isDigit_plain {c : Char} (hc : c.isDigit = true) :
    c ≠ esc ∧ isControl c = false := by
  rw [Char.isDigit, Bool.and_eq_true, decide_eq_true_iff, decide_eq_true_iff] at hc
  have hlow : 48 ≤ c.toNat := hc.1
  have hhigh : c.toNat ≤ 57 := hc.2
  constructor
  · rintro rfl
    exact absurd hlow (by decide)
  · rw [isControl, Bool.or_eq_false_iff, decide_eq_false_iff_not, beq_eq_false_iff_ne]
    omega

/-- Digits make up the current parameter. -/
theorem feed_digits {marked : Bool} {before : List ℕ} {digits : List Char}
    (hdigits : ∀ c ∈ digits, c.isDigit = true) {t : Screen} {n : ℕ}
    (h : t.parser = .csi marked (n :: before)) :
    t.feed g digits =
      { t with parser := .csi marked (Nat.ofDigitChars 10 digits n :: before) } := by
  induction digits generalizing t n with
  | nil => rw [feed_nil, Nat.ofDigitChars_nil, ← h]
  | cons c digits ih =>
    have hc : c.isDigit = true := hdigits c List.mem_cons_self
    rw [feed_cons, step_csi h (isDigit_plain hc).1 (isDigit_plain hc).2, if_pos hc,
      ih (fun d hd ↦ hdigits d (List.mem_cons_of_mem _ hd)) rfl, Nat.ofDigitChars_cons]
    rfl

theorem feed_decimal {marked : Bool} {before : List ℕ} {t : Screen}
    (h : t.parser = .csi marked (0 :: before)) (n : ℕ) :
    t.feed g (decimal n) = { t with parser := .csi marked (n :: before) } := by
  have hdigits : ∀ c ∈ decimal n, c.isDigit = true :=
    fun c hc ↦ Nat.isDigit_of_mem_toDigits (by decide) (by decide) hc
  rw [feed_digits hdigits h, decimal, Nat.ofDigitChars_toDigits (by decide) (by decide)]

theorem feed_separated {marked : Bool} {params : List ℕ} {before : List ℕ} {t : Screen}
    (h : t.parser = .csi marked before) :
    t.feed g (separated params) = { t with parser := .csi marked (params.reverse ++ before) } := by
  induction params generalizing t before with
  | nil => rw [separated, List.flatMap_nil, feed_nil, List.reverse_nil, List.nil_append, ← h]
  | cons n params ih =>
    have hsep : t.step g ';' = { t with parser := .csi marked (0 :: before) } := by
      rw [step_csi h (by decide) (by decide), if_neg (by decide), if_pos rfl]
    rw [separated, List.flatMap_cons, feed_append, feed_cons, hsep, feed_decimal rfl, ← separated,
      ih rfl, List.reverse_cons, List.append_assoc, List.singleton_append]

/-- A character that ends a control sequence. -/
def isFinal (c : Char) : Bool :=
  c != esc && !isControl c && !c.isDigit && c != ';' && c != '?'

theorem step_final {t : Screen} {marked : Bool} {params : List ℕ} {c : Char}
    (h : t.parser = .csi marked params) (hc : isFinal c = true) :
    t.step g c = { t with parser := .ground }.dispatch g marked params.reverse c := by
  simp only [isFinal, Bool.and_eq_true, bne_iff_ne, Bool.not_eq_true'] at hc
  obtain ⟨⟨⟨⟨hesc, hcontrol⟩, hdigit⟩, hsep⟩, hmark⟩ := hc
  rw [step_csi h hesc hcontrol, hdigit, if_neg Bool.false_ne_true, if_neg hsep, if_neg hmark]

/-- The sequence `ESC [ n ; …` with a final character, as one. -/
def csi (n : ℕ) (params : List ℕ) (final : Char) : List Char :=
  esc :: '[' :: (decimal n ++ separated params ++ [final])

/-- The sequence `ESC [ ? n` with a final character. -/
def csiMarked (n : ℕ) (final : Char) : List Char := esc :: '[' :: '?' :: (decimal n ++ [final])

private theorem feed_introducer (t : Screen) (text : List Char) :
    t.feed g (esc :: '[' :: text) = { t with parser := .csi false [0] }.feed g text := by
  have hesc : t.step g esc = { t with parser := .escape } := by rw [step, if_pos rfl]
  have hopen : { t with parser := .escape }.step g '[' = { t with parser := .csi false [0] } := by
    rw [step, if_neg (by decide), if_neg (by decide)]
    rfl
  rw [feed_cons, feed_cons, hesc, hopen]

/-- **Control sequences** are read as they are written. -/
theorem feed_csi {t : Screen} (h : t.parser = .ground) (n : ℕ) (params : List ℕ) {final : Char}
    (hfinal : isFinal final = true) :
    t.feed g (csi n params final) = t.dispatch g false (n :: params) final := by
  rw [csi, feed_introducer, feed_append, feed_append, feed_decimal rfl, feed_separated rfl,
    feed_cons, step_final rfl hfinal, feed_nil, List.reverse_append, List.reverse_reverse, ← h]
  rfl

theorem feed_csiMarked {t : Screen} (h : t.parser = .ground) (n : ℕ) {final : Char}
    (hfinal : isFinal final = true) :
    t.feed g (csiMarked n final) = t.dispatch g true [n] final := by
  have hmark : { t with parser := .csi false [0] }.step g '?' =
      { t with parser := .csi true [0] } := by
    rw [step_csi rfl (by decide) (by decide), if_neg (by decide), if_neg (by decide), if_pos rfl]
  rw [csiMarked, feed_introducer, feed_cons, hmark, feed_append, feed_decimal rfl, feed_cons,
    step_final rfl hfinal, feed_nil, ← h]
  rfl

/-! ## Reading `SGR` -/

@[simp] theorem sgr_nil (p : Pen) : sgr g [] p = p := rfl

theorem sgr_cons {n : ℕ} (hfg : n ≠ 38) (hbg : n ≠ 48) (params : List ℕ) (p : Pen) :
    sgr g (n :: params) p = sgr g params (setParam g p n) := by
  rw [sgr] <;> intros <;> contradiction

theorem sgr_fg (r gr b : ℕ) (params : List ℕ) (p : Pen) :
    sgr g (38 :: 2 :: r :: gr :: b :: params) p = sgr g params { p with fg := some (rgb r gr b) } :=
  rfl

theorem sgr_bg (r gr b : ℕ) (params : List ℕ) (p : Pen) :
    sgr g (48 :: 2 :: r :: gr :: b :: params) p = sgr g params { p with bg := some (rgb r gr b) } :=
  rfl

end Screen

end Terminal
