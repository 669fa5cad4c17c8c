import Mathlib.Data.List.Basic
import Mathlib.Order.Basic
import Kmux.Lib.Terminal

/-!
# What a terminal row can hold

`Row.Held` says which rows an emulator can show, whatever it was fed: printable characters of the
width they have, each wide one followed by its spacer. It is kept by every step
(`Screen.held_feed`), since whatever is written over half of a wide character first blanks both
halves.

`Screen.Writing` is the other direction, for text that fills a blank row from the left: what is on
the row so far, with only blanks after it. Each character adds its cells at the end, and moving to
a column past the end starts the next one there.
-/

namespace Terminal

/-! ## Well-formed rows -/

namespace Row

variable {g : Glyphs}

/-- The rows an emulator can hold. A wide character is wide by itself, or a narrow one that was
presented as an emoji. -/
inductive Held (g : Glyphs) : List Cell → Prop
  | nil : Held g []
  | narrow {c : Char} {rest : List Cell} (pen : Pen) (hc : isControl c = false)
      (hwidth : g.width c = 1) (h : Held g rest) : Held g (⟨c, pen, .narrow⟩ :: rest)
  | wide {c : Char} {rest : List Cell} (pen : Pen) (hc : isControl c = false)
      (hwidth : 2 ≤ g.width c ∨ g.width c = 1 ∧ g.emojiBase c = true) (h : Held g rest) :
      Held g (⟨c, pen, .wide⟩ :: ⟨' ', pen, .spacer⟩ :: rest)

theorem Held.blank_cons {rest : List Cell} (h : Held g rest) : Held g (.blank :: rest) :=
  .narrow {} (by decide) g.width_space h

theorem held_replicate_blank (n : ℕ) : Held g (List.replicate n .blank) := by
  induction n with
  | zero => exact .nil
  | succ n ih => exact ih.blank_cons

theorem Held.not_spacer {x : Cell} {rest : List Cell} (h : Held g (x :: rest)) :
    x.shape ≠ .spacer := by
  rcases h with _ | _ | _ <;> exact Shape.noConfusion

/-- No character, or one of one column. -/
def NarrowAt (cells : List Cell) (i : ℕ) : Prop := ∀ x, cells[i]? = some x → x.shape = .narrow

theorem narrowAt_cons_succ {x : Cell} {rest : List Cell} {i : ℕ} :
    NarrowAt (x :: rest) (i + 1) ↔ NarrowAt rest i := by
  rw [NarrowAt, List.getElem?_cons_succ]
  rfl

theorem narrowAt_cons_zero {x : Cell} {rest : List Cell} :
    NarrowAt (x :: rest) 0 ↔ x.shape = .narrow := by
  rw [NarrowAt, List.getElem?_cons_zero]
  constructor
  · exact fun h ↦ h x rfl
  · intro h y hy
    rwa [← Option.some.inj hy]

theorem narrowAt_set {cells : List Cell} {i j : ℕ} {x : Cell} (hx : x.shape = .narrow)
    (h : NarrowAt cells i) : NarrowAt (cells.set j x) i := by
  intro y hy
  rw [List.getElem?_set] at hy
  by_cases hij : j = i
  · rw [if_pos hij] at hy
    by_cases hj : j < cells.length
    · rw [if_pos hj] at hy
      rwa [← Option.some.inj hy]
    · rw [if_neg hj] at hy
      contradiction
  · rw [if_neg hij] at hy
    exact h y hy

/-! ## Writing over a row -/

@[simp] theorem length_vacate (cells : List Cell) (i : ℕ) :
    (vacate cells i).length = cells.length := by
  rw [vacate]
  split <;> simp only [List.length_set]

theorem vacate_of_narrowAt {cells : List Cell} {i : ℕ} (h : NarrowAt cells i) :
    vacate cells i = cells := by
  rw [vacate]
  match hx : cells[i]? with
  | none => rfl
  | some x => rw [Option.map_some, h x hx]

theorem narrowAt_vacate_of_narrowAt {cells : List Cell} {i j : ℕ} (h : NarrowAt cells i) :
    NarrowAt (vacate cells j) i := by
  rw [vacate]
  split
  · exact narrowAt_set rfl (narrowAt_set rfl h)
  · exact narrowAt_set rfl (narrowAt_set rfl h)
  · exact h

/-- Away from the first column, blanking a character leaves what is before it alone. -/
private theorem vacate_cons_succ {x : Cell} {rest : List Cell} {k : ℕ}
    (h : k = 0 → ∀ y, rest[0]? = some y → y.shape ≠ .spacer) :
    vacate (x :: rest) (k + 1) = x :: vacate rest k := by
  rw [vacate, vacate, List.getElem?_cons_succ]
  match hy : rest[k]?.map Cell.shape with
  | none | some .narrow => rfl
  | some .wide => rfl
  | some .spacer =>
    obtain ⟨y, hk, hshape⟩ := Option.map_eq_some_iff.mp hy
    match k with
    | 0 => exact absurd hshape (h rfl y hk)
    | k + 1 => rfl

private theorem Held.vacate_cons {x : Cell} {rest : List Cell} (h : Held g rest) (k : ℕ) :
    vacate (x :: rest) (k + 1) = x :: vacate rest k := by
  apply vacate_cons_succ
  intro _ y hy
  match rest with
  | [] => contradiction
  | z :: rest =>
    rw [← Option.some.inj hy]
    exact h.not_spacer

/-- Blanking a character leaves a well-formed row, with nothing wide in that column. -/
theorem Held.vacate {cells : List Cell} (h : Held g cells) (i : ℕ) :
    Held g (vacate cells i) ∧ NarrowAt (vacate cells i) i := by
  induction h generalizing i with
  | nil => exact ⟨.nil, fun x hx ↦ by contradiction⟩
  | @narrow c rest pen hc hwidth h ih =>
    match i with
    | 0 =>
      have hnarrow : NarrowAt (⟨c, pen, .narrow⟩ :: rest) 0 := narrowAt_cons_zero.mpr rfl
      rw [vacate_of_narrowAt hnarrow]
      exact ⟨.narrow pen hc hwidth h, hnarrow⟩
    | k + 1 =>
      rw [h.vacate_cons]
      exact ⟨.narrow pen hc hwidth (ih k).1, narrowAt_cons_succ.mpr (ih k).2⟩
  | @wide c rest pen hc hwidth h ih =>
    match i with
    | 0 => exact ⟨h.blank_cons.blank_cons, narrowAt_cons_zero.mpr rfl⟩
    | 1 => exact ⟨h.blank_cons.blank_cons, narrowAt_cons_succ.mpr (narrowAt_cons_zero.mpr rfl)⟩
    | k + 2 =>
      rw [vacate_cons_succ fun hk ↦ by omega, h.vacate_cons]
      exact ⟨.wide pen hc hwidth (ih k).1,
        narrowAt_cons_succ.mpr (narrowAt_cons_succ.mpr (ih k).2)⟩

private theorem Held.set_narrow {cells : List Cell} (h : Held g cells) {i : ℕ}
    (hi : NarrowAt cells i) {c : Char} (pen : Pen) (hc : isControl c = false)
    (hwidth : g.width c = 1) : Held g (cells.set i ⟨c, pen, .narrow⟩) := by
  induction h generalizing i with
  | nil => exact .nil
  | narrow pen' hc' hwidth' h ih =>
    match i with
    | 0 => exact .narrow pen hc hwidth h
    | k + 1 => exact .narrow pen' hc' hwidth' (ih (narrowAt_cons_succ.mp hi))
  | wide pen' hc' hwidth' h ih =>
    match i with
    | 0 => exact Shape.noConfusion (narrowAt_cons_zero.mp hi)
    | 1 => exact Shape.noConfusion (narrowAt_cons_zero.mp (narrowAt_cons_succ.mp hi))
    | k + 2 =>
      exact .wide pen' hc' hwidth' (ih (narrowAt_cons_succ.mp (narrowAt_cons_succ.mp hi)))

private theorem Held.set_wide {cells : List Cell} (h : Held g cells) {i : ℕ}
    (hi : NarrowAt cells i) (hi' : NarrowAt cells (i + 1)) (hlen : i + 1 < cells.length)
    {c : Char} (pen : Pen) (hc : isControl c = false)
    (hwidth : 2 ≤ g.width c ∨ g.width c = 1 ∧ g.emojiBase c = true) :
    Held g ((cells.set i ⟨c, pen, .wide⟩).set (i + 1) ⟨' ', pen, .spacer⟩) := by
  induction h generalizing i with
  | nil => exact .nil
  | narrow pen' hc' hwidth' h ih =>
    match i with
    | 0 =>
      rcases h with _ | ⟨_, _, _, hrest⟩ | _
      · exact absurd hlen (Nat.lt_irrefl _)
      · exact .wide pen hc hwidth hrest
      · exact Shape.noConfusion (narrowAt_cons_zero.mp (narrowAt_cons_succ.mp hi'))
    | k + 1 =>
      exact .narrow pen' hc' hwidth' (ih (narrowAt_cons_succ.mp hi) (narrowAt_cons_succ.mp hi')
        (Nat.lt_of_succ_lt_succ hlen))
  | wide pen' hc' hwidth' h ih =>
    match i with
    | 0 => exact Shape.noConfusion (narrowAt_cons_zero.mp hi)
    | 1 => exact Shape.noConfusion (narrowAt_cons_zero.mp (narrowAt_cons_succ.mp hi))
    | k + 2 =>
      exact .wide pen' hc' hwidth' (ih (narrowAt_cons_succ.mp (narrowAt_cons_succ.mp hi))
        (narrowAt_cons_succ.mp (narrowAt_cons_succ.mp hi'))
        (Nat.lt_of_succ_lt_succ (Nat.lt_of_succ_lt_succ hlen)))

theorem Held.putNarrow {cells : List Cell} (h : Held g cells) (i : ℕ) {c : Char} (pen : Pen)
    (hc : isControl c = false) (hwidth : g.width c = 1) : Held g (putNarrow cells i c pen) :=
  (h.vacate i).1.set_narrow (h.vacate i).2 pen hc hwidth

theorem Held.putWide {cells : List Cell} (h : Held g cells) {i : ℕ} (hlen : i + 1 < cells.length)
    {c : Char} (pen : Pen) (hc : isControl c = false)
    (hwidth : 2 ≤ g.width c ∨ g.width c = 1 ∧ g.emojiBase c = true) :
    Held g (putWide cells i c pen) := by
  have hfirst := h.vacate i
  have hboth := hfirst.1.vacate (i + 1)
  apply hboth.1.set_wide (narrowAt_vacate_of_narrowAt hfirst.2) hboth.2 _ pen hc hwidth
  rwa [length_vacate, length_vacate]

/-- A character of one column is printable, and narrow. -/
theorem Held.of_narrow {cells : List Cell} (h : Held g cells) {i : ℕ} {c : Char} {pen : Pen}
    (hi : cells[i]? = some ⟨c, pen, .narrow⟩) : isControl c = false ∧ g.width c = 1 := by
  induction h generalizing i with
  | nil => contradiction
  | narrow pen' hc' hwidth' h ih =>
    match i with
    | 0 =>
      rw [List.getElem?_cons_zero, Option.some.injEq, Cell.mk.injEq] at hi
      rw [← hi.1]
      exact ⟨hc', hwidth'⟩
    | k + 1 => exact ih hi
  | wide pen' hc' hwidth' h ih =>
    match i with
    | 0 | 1 => simp at hi
    | k + 2 => exact ih hi

/-- A blank at the end is not part of a character. -/
theorem Held.of_append_blank {cells : List Cell} (h : Held g (cells ++ [Cell.blank])) :
    Held g cells := by
  generalize hrow : cells ++ [Cell.blank] = row at h
  induction h generalizing cells with
  | nil => exact absurd hrow (by simp)
  | narrow pen hc hwidth h ih =>
    match cells with
    | [] => exact .nil
    | x :: cells =>
      rw [List.cons_append, List.cons.injEq] at hrow
      rw [hrow.1]
      exact .narrow pen hc hwidth (ih hrow.2)
  | wide pen hc hwidth h ih =>
    match cells with
    | [] => simp [Cell.blank] at hrow
    | [x] => simp [Cell.blank] at hrow
    | x :: y :: cells =>
      rw [List.cons_append, List.cons_append, List.cons.injEq, List.cons.injEq] at hrow
      rw [hrow.1, hrow.2.1]
      exact .wide pen hc hwidth (ih hrow.2.2)

theorem Held.of_append_replicate {cells : List Cell} {n : ℕ}
    (h : Held g (cells ++ List.replicate n Cell.blank)) : Held g cells := by
  induction n with
  | zero => rwa [List.replicate_zero, List.append_nil] at h
  | succ n ih =>
    rw [List.replicate_succ', ← List.append_assoc] at h
    exact ih h.of_append_blank

end Row

/-! ## The row through a run -/

namespace Screen

open Row (Held)

variable {g : Glyphs}

@[simp] theorem cells_advance (t : Screen) (col : ℕ) : (t.advance col).cells = t.cells := by
  rw [advance]
  split <;> rfl

theorem held_fresh (cols : ℕ) (pen : Pen) : Held g (fresh cols pen).cells :=
  Row.held_replicate_blank cols

theorem held_writeNarrow {t : Screen} (h : Held g t.cells) {c : Char} (hc : isControl c = false)
    (hwidth : g.width c = 1) : Held g (t.writeNarrow c).cells := by
  rw [writeNarrow]
  split
  · exact h
  · rw [cells_advance]
    exact h.putNarrow t.col t.pen hc hwidth

theorem held_writeWide {t : Screen} (h : Held g t.cells) {c : Char} (hc : isControl c = false)
    (hwidth : 2 ≤ g.width c ∨ g.width c = 1 ∧ g.emojiBase c = true) :
    Held g (t.writeWide c).cells := by
  rw [writeWide]
  split
  · exact h
  · split
    · next hroom =>
      rw [cells_advance]
      exact h.putWide hroom t.pen hc hwidth
    · exact h.putNarrow t.col t.pen (by decide) g.width_space

theorem held_write {t : Screen} (h : Held g t.cells) {c : Char} (hc : isControl c = false) :
    Held g (t.write g c).cells := by
  rw [write]
  split
  · exact h
  · next hwidth => exact held_writeNarrow h hc hwidth
  · next hnone hone => exact held_writeWide h hc (.inl ((Nat.two_le_iff _).mpr ⟨hnone, hone⟩))

theorem held_present {t : Screen} (h : Held g t.cells) (i : ℕ) :
    Held g (t.present g i).cells := by
  rw [present]
  split
  · next b pen hi =>
    have hb := h.of_narrow hi
    split
    · next hemoji =>
      have hmoved : Held g { t with col := i, pendingWrap := false }.cells := h
      exact held_writeWide hmoved hb.1 (.inr ⟨hb.2, hemoji⟩)
    · exact h
  · exact h

theorem held_print {t : Screen} (h : Held g t.cells) {c : Char} (hc : isControl c = false) :
    Held g (t.print g c).cells := by
  rw [print]
  split
  · exact h
  · split
    · next i hclusters hprevious =>
      split
      · exact held_present h i
      · split
        · exact h
        · exact held_write h hc
    · exact held_write h hc

@[simp] theorem cells_control (t : Screen) (c : Char) : (t.control c).cells = t.cells := by
  rw [control]
  split <;> rfl

@[simp] theorem cells_dispatch (t : Screen) (marked : Bool) (params : List ℕ) (final : Char) :
    (t.dispatch g marked params final).cells = t.cells := by
  unfold dispatch
  split <;> rfl

theorem held_step {t : Screen} (h : Held g t.cells) (c : Char) : Held g (t.step g c).cells := by
  rw [step]
  by_cases hesc : c = esc
  · rwa [if_pos hesc]
  rw [if_neg hesc]
  by_cases hc : isControl c = true
  · rwa [if_pos hc, cells_control]
  rw [if_neg hc]
  split
  · exact held_print h (Bool.eq_false_iff.mpr hc)
  · exact h
  · split
    · exact h
    · split
      · exact h
      · split
        · exact h
        · rwa [cells_dispatch]

/-- **Rows stay well formed**, whatever is fed. -/
theorem held_feed {t : Screen} (h : Held g t.cells) (text : List Char) :
    Held g (t.feed g text).cells := by
  induction text generalizing t with
  | nil => exact h
  | cons c text ih => exact ih (held_step h c)

end Screen

/-! ## Filling a blank row -/

namespace Screen

variable {g : Glyphs}

/-- A row filled up to some column, the emulator ready for more text: `blanks` cells are left. -/
structure Filled (t : Screen) (cells : List Cell) (blanks : ℕ) (pen : Pen) : Prop where
  cells_eq : t.cells = cells ++ List.replicate blanks .blank
  pen_eq : t.pen = pen
  left : t.left = false
  clusters : t.clusters = false
  ground : t.parser = .ground

/-- A row filled up to the cursor, which is past the last column when no cells are left. -/
structure Writing (t : Screen) (cells : List Cell) (blanks : ℕ) (pen : Pen) : Prop
    extends t.Filled cells blanks pen where
  cursor : 0 < blanks → t.col = cells.length ∧ t.pendingWrap = false

theorem writing_fresh (cols : ℕ) (pen : Pen) : (fresh cols pen).Writing [] cols pen where
  cells_eq := rfl
  pen_eq := rfl
  left := rfl
  clusters := rfl
  ground := rfl
  cursor _ := ⟨rfl, rfl⟩

section

variable {t : Screen} {cells : List Cell} {blanks : ℕ} {pen : Pen}

/-- `SGR` changes the pen and nothing else. -/
theorem Writing.sgr (h : t.Writing cells blanks pen) (n : ℕ) (params : List ℕ) :
    (t.feed g (csi n params 'm')).Writing cells blanks (Screen.sgr g (n :: params) pen) := by
  rw [feed_csi h.ground _ _ (by decide), ← h.pen_eq]
  exact ⟨⟨h.cells_eq, rfl, h.left, h.clusters, h.ground⟩, h.cursor⟩

theorem Filled.length (h : t.Filled cells blanks pen) :
    t.cells.length = cells.length + blanks := by
  rw [h.cells_eq, List.length_append, List.length_replicate]

/-- The cursor goes to the end of what is filled. -/
theorem Filled.advance (h : t.Filled cells blanks pen) {col : ℕ} (hcol : col = cells.length) :
    (t.advance col).Writing cells blanks pen := by
  rw [Screen.advance, h.length, hcol]
  by_cases hroom : cells.length < cells.length + blanks
  · rw [if_pos hroom]
    exact ⟨⟨h.cells_eq, h.pen_eq, h.left, h.clusters, h.ground⟩, fun _ ↦ ⟨rfl, rfl⟩⟩
  · rw [if_neg hroom]
    exact ⟨⟨h.cells_eq, h.pen_eq, h.left, h.clusters, h.ground⟩, fun hpos ↦ by omega⟩

/-- Placing the cursor by column does the same. -/
theorem Filled.column (h : t.Filled cells blanks pen) {n : ℕ} (hn : n = cells.length + 1) :
    (t.feed g (csi n [] 'G')).Writing cells blanks pen := by
  rw [feed_csi h.ground _ _ (by decide), hn]
  constructor
  · exact ⟨h.cells_eq, h.pen_eq, h.left, h.clusters, h.ground⟩
  · intro hpos
    refine ⟨?_, rfl⟩
    change min (cells.length + 1 - 1) (t.cells.length - 1) = cells.length
    rw [h.length]
    omega

theorem Filled.step (h : t.Filled cells blanks pen) {c : Char} (hc : isControl c = false) :
    t.step g c = t.write g c := by
  have hesc : c ≠ esc := by
    rintro rfl
    exact absurd hc (by decide)
  rw [step_print h.ground hesc hc, print, h.left, h.clusters, if_neg Bool.false_ne_true]

theorem write_of_one {c : Char} (hwidth : g.width c = 1) : t.write g c = t.writeNarrow c := by
  rw [write, hwidth]
  rfl

theorem write_of_two_le {c : Char} (hwidth : 2 ≤ g.width c) : t.write g c = t.writeWide c := by
  obtain ⟨n, hn⟩ := Nat.exists_eq_add_of_le' hwidth
  rw [write, hn]
  rfl

private theorem narrowAt_append {x : Cell} (hx : x.shape = .narrow) (cells rest : List Cell) :
    Row.NarrowAt (cells ++ x :: rest) cells.length := by
  intro y hy
  rw [List.getElem?_append_right le_rfl, Nat.sub_self, List.getElem?_cons_zero] at hy
  rwa [← Option.some.inj hy]

theorem Writing.writeNarrow (h : t.Writing cells (blanks + 1) pen) (c : Char) :
    t.writeNarrow c = Screen.advance
      { t with cells := cells ++ ⟨c, pen, .narrow⟩ :: List.replicate blanks Cell.blank }
      (cells.length + 1) := by
  obtain ⟨hcol, hpending⟩ := h.cursor (Nat.succ_pos _)
  have hcells : Row.putNarrow t.cells t.col c t.pen =
      cells ++ ⟨c, pen, .narrow⟩ :: List.replicate blanks Cell.blank := by
    rw [hcol, h.cells_eq, h.pen_eq, List.replicate_succ, Row.putNarrow,
      Row.vacate_of_narrowAt (narrowAt_append rfl _ _), List.set_append_right _ _ le_rfl,
      Nat.sub_self, List.set_cons_zero]
  rw [Screen.writeNarrow, hpending, if_neg Bool.false_ne_true, hcells, hcol]

/-- A wide character over two narrow ones. -/
private theorem putWide_append {x y : Cell} (hx : x.shape = .narrow) (hy : y.shape = .narrow)
    (cells rest : List Cell) (c : Char) (pen : Pen) :
    Row.putWide (cells ++ x :: y :: rest) cells.length c pen =
      cells ++ ⟨c, pen, .wide⟩ :: ⟨' ', pen, .spacer⟩ :: rest := by
  have hsecond : Row.NarrowAt (cells ++ x :: y :: rest) (cells.length + 1) := by
    have hnarrow := narrowAt_append hy (cells ++ [x]) rest
    rwa [List.append_assoc, List.singleton_append, List.length_append] at hnarrow
  rw [Row.putWide, Row.vacate_of_narrowAt (narrowAt_append hx _ _),
    Row.vacate_of_narrowAt hsecond, List.set_append_right _ _ le_rfl,
    List.set_append_right _ _ (Nat.le_add_right _ 1), Nat.sub_self, Nat.add_sub_cancel_left]
  rfl

/-- A character of one column fills one more cell. -/
theorem Writing.narrow (h : t.Writing cells (blanks + 1) pen) {c : Char}
    (hc : isControl c = false) (hwidth : g.width c = 1) :
    (t.step g c).Writing (cells ++ [⟨c, pen, .narrow⟩]) blanks pen := by
  have hfilled : Filled
      { t with cells := cells ++ ⟨c, pen, .narrow⟩ :: List.replicate blanks Cell.blank }
      (cells ++ [⟨c, pen, .narrow⟩]) blanks pen :=
    ⟨by rw [List.append_assoc, List.singleton_append], h.pen_eq, h.left, h.clusters, h.ground⟩
  rw [h.step hc, write_of_one hwidth, h.writeNarrow]
  exact hfilled.advance (by rw [List.length_append, List.length_singleton])

end

/-! ## Presenting a character as an emoji -/

/-- A variation selector under grapheme clustering, which is saved before and restored after. -/
def presentation : List Char :=
  csiMarked clusterMode 's' ++ csiMarked clusterMode 'h' ++ variation :: csiMarked clusterMode 'r'

/-- The character before a cursor that has advanced. -/
theorem previous_advance {t : Screen} {n : ℕ} (hn : n < t.cells.length) :
    (t.advance (n + 1)).previous =
      some (if t.cells[n]?.map Cell.shape = some .spacer then n - 1 else n) := by
  rw [previous, cells_advance, advance]
  by_cases hroom : n + 1 < t.cells.length
  · rw [if_pos hroom]
    rfl
  · have hlast : t.cells.length - 1 = n := by omega
    rw [if_neg hroom, hlast]
    rfl

/-- The same screen in other modes. -/
def withModes (t : Screen) (clusters saved : Bool) : Screen :=
  { t with clusters, savedClusters := saved }

private theorem writeWide_withModes (t : Screen) (c : Char) (clusters saved : Bool) :
    (t.withModes clusters saved).writeWide c = (t.writeWide c).withModes clusters saved := by
  unfold Screen.writeWide advance withModes
  dsimp only
  split
  · rfl
  · split
    · split <;> rfl
    · rfl

private theorem parser_writeWide (t : Screen) (c : Char) : (t.writeWide c).parser = t.parser := by
  unfold Screen.writeWide advance
  split
  · rfl
  · split
    · split <;> rfl
    · rfl

/-- What presenting a character does, by the character that is there. -/
theorem present_cases (t : Screen) (i : ℕ) :
    (∃ b pen, t.cells[i]? = some ⟨b, pen, .narrow⟩ ∧ g.emojiBase b = true ∧
      t.present g i = Screen.writeWide { t with col := i, pendingWrap := false } b) ∨
    ((∀ b pen, t.cells[i]? = some ⟨b, pen, .narrow⟩ → g.emojiBase b = false) ∧
      t.present g i = t) := by
  unfold present
  match t.cells[i]? with
  | none => exact .inr ⟨by simp, rfl⟩
  | some ⟨b, _, .wide⟩ | some ⟨b, _, .spacer⟩ => exact .inr ⟨by simp, rfl⟩
  | some ⟨b, pen, .narrow⟩ =>
    by_cases hemoji : g.emojiBase b = true
    · exact .inl ⟨b, pen, rfl, hemoji, if_pos hemoji⟩
    · refine .inr ⟨?_, if_neg hemoji⟩
      intro b' pen' heq
      rw [Option.some.injEq, Cell.mk.injEq] at heq
      rw [← heq.1]
      exact Bool.eq_false_iff.mpr hemoji

theorem parser_present (t : Screen) (i : ℕ) : (t.present g i).parser = t.parser := by
  rcases present_cases (g := g) t i with ⟨b, pen, -, -, h⟩ | ⟨-, h⟩
  · rw [h, parser_writeWide]
  · rw [h]

/-- Presenting a character says nothing about the modes. -/
theorem present_withModes (t : Screen) (i : ℕ) (clusters saved : Bool) :
    (t.withModes clusters saved).present g i = (t.present g i).withModes clusters saved := by
  rcases present_cases (g := g) t i with ⟨b, pen, hcell, hemoji, h⟩ | ⟨hother, h⟩
  · rcases present_cases (g := g) (t.withModes clusters saved) i with
      ⟨b', pen', hcell', -, h'⟩ | ⟨hother', -⟩
    · have hsame : b = b' := congrArg Cell.char (Option.some.inj (hcell.symm.trans hcell'))
      rw [h, h', ← hsame]
      exact writeWide_withModes { t with col := i, pendingWrap := false } b clusters saved
    · exact absurd hemoji (Bool.eq_false_iff.mp (hother' b pen hcell))
  · rcases present_cases (g := g) (t.withModes clusters saved) i with
      ⟨b', pen', hcell', hemoji', -⟩ | ⟨-, h'⟩
    · exact absurd hemoji' (Bool.eq_false_iff.mp (hother b' pen' hcell'))
    · rw [h, h']

/-- **Presentation.** The selector presents the character before the cursor, and the mode is left
as it was. -/
theorem feed_presentation {t : Screen} (hground : t.parser = .ground) (hleft : t.left = false)
    {i : ℕ} (hprevious : t.previous = some i) :
    t.feed g presentation = (t.present g i).withModes t.clusters t.clusters := by
  have hready : ∀ clusters saved, (t.withModes clusters saved).parser = .ground :=
    fun _ _ ↦ hground
  have hsave : t.dispatch g true [clusterMode] 's' = t.withModes t.clusters t.clusters := rfl
  have hset : (t.withModes t.clusters t.clusters).dispatch g true [clusterMode] 'h' =
      t.withModes true t.clusters := by
    simp [dispatch, withModes]
  have hpresent : (t.withModes true t.clusters).step g variation =
      (t.present g i).withModes true t.clusters := by
    have hsame : (t.withModes true t.clusters).previous = some i := hprevious
    have hon : (t.withModes true t.clusters).clusters = true := rfl
    have hon_row : (t.withModes true t.clusters).left = false := hleft
    rw [step_print (hready _ _) (by decide) (by decide), print, hon_row,
      if_neg Bool.false_ne_true, hon, hsame]
    dsimp only
    rw [if_pos rfl, present_withModes]
  have hground' : ((t.present g i).withModes true t.clusters).parser = .ground :=
    (parser_present t i).trans hground
  rw [presentation, feed_append, feed_append, feed_csiMarked hground _ (by decide), hsave,
    feed_csiMarked (hready _ _) _ (by decide), hset, feed_cons, hpresent,
    feed_csiMarked hground' _ (by decide)]
  rfl

/-- What a character leaves in the two columns that are reserved for it: a wide one is wide by
itself, or by being presented, and a narrow one leaves a blank. -/
def pairCells (g : Glyphs) (presented : Bool) (c : Char) (pen : Pen) : List Cell :=
  if 2 ≤ g.width c ∨ presented = true ∧ g.emojiBase c = true then
    [⟨c, pen, .wide⟩, ⟨' ', pen, .spacer⟩]
  else [⟨c, pen, .narrow⟩, .blank]

theorem length_pairCells (presented : Bool) (c : Char) (pen : Pen) :
    (pairCells g presented c pen).length = 2 := by
  rw [pairCells]
  split <;> rfl

private theorem getElem?_append_length {α : Type*} (xs ys : List α) (x : α) :
    (xs ++ x :: ys)[xs.length]? = some x := by
  rw [List.getElem?_append_right le_rfl, Nat.sub_self, List.getElem?_cons_zero]

section

variable {t : Screen} {cells : List Cell} {blanks : ℕ} {pen : Pen}

/-- A wide character, printed over two columns at the end of what is filled. -/
private theorem filled_writeWide {x y : Cell} (hx : x.shape = .narrow) (hy : y.shape = .narrow)
    (h : t.Filled (cells ++ [x, y]) blanks pen) (hcol : t.col = cells.length)
    (hpending : t.pendingWrap = false) (c : Char) :
    (t.writeWide c).Filled (cells ++ [⟨c, pen, .wide⟩, ⟨' ', pen, .spacer⟩]) blanks pen ∧
      (t.writeWide c).previous = some cells.length := by
  have hroom : t.col + 1 < t.cells.length := by
    rw [hcol, h.length, List.length_append, List.length_cons, List.length_singleton]
    omega
  have hput : Row.putWide t.cells t.col c t.pen =
      (cells ++ [⟨c, pen, .wide⟩, ⟨' ', pen, .spacer⟩]) ++ List.replicate blanks Cell.blank := by
    rw [hcol, h.cells_eq, h.pen_eq, List.append_assoc, List.append_assoc]
    exact putWide_append hx hy _ _ c pen
  have hfilled : Filled { t with cells := Row.putWide t.cells t.col c t.pen }
      (cells ++ [⟨c, pen, .wide⟩, ⟨' ', pen, .spacer⟩]) blanks pen :=
    ⟨hput, h.pen_eq, h.left, h.clusters, h.ground⟩
  rw [Screen.writeWide, hpending, if_neg Bool.false_ne_true, if_pos hroom, hcol]
  rw [hcol] at hfilled hput
  constructor
  · exact (hfilled.advance List.length_append.symm).toFilled
  · have hlast : (Row.putWide t.cells cells.length c t.pen)[cells.length + 1]? =
        some ⟨' ', pen, .spacer⟩ := by
      rw [hput, List.append_assoc, List.getElem?_append_right (Nat.le_add_right _ 1),
        Nat.add_sub_cancel_left]
      rfl
    rw [previous_advance (List.getElem?_eq_some_iff.mp hlast).1, hlast]
    rfl

/-- A character that is wide by itself is not presented again. -/
private theorem step_wide (h : t.Writing cells (blanks + 2) pen) {c : Char}
    (hc : isControl c = false) (hwidth : 2 ≤ g.width c) :
    (t.step g c).Filled (cells ++ pairCells g false c pen) blanks pen ∧
      (t.step g c).previous = some cells.length ∧
      ((t.step g c).present g cells.length).Filled (cells ++ pairCells g true c pen) blanks
        pen := by
  obtain ⟨hcol, hpending⟩ := h.cursor (Nat.succ_pos _)
  have hblank : t.Filled (cells ++ [Cell.blank, .blank]) blanks pen :=
    ⟨by rw [h.cells_eq, List.append_assoc]; rfl, h.pen_eq, h.left, h.clusters, h.ground⟩
  obtain ⟨hfilled, hprevious⟩ := filled_writeWide rfl rfl hblank hcol hpending c
  rw [← write_of_two_le hwidth, ← h.step hc] at hfilled hprevious
  rw [pairCells, pairCells, if_pos (.inl hwidth), if_pos (.inl hwidth)]
  refine ⟨hfilled, hprevious, ?_⟩
  -- a wide character is not widened again
  rcases present_cases (g := g) (t.step g c) cells.length with ⟨b, pen', hcell, -, -⟩ | ⟨-, hsame⟩
  · rw [hfilled.cells_eq, List.append_assoc, List.cons_append, getElem?_append_length] at hcell
    exact absurd (congrArg Cell.shape (Option.some.inj hcell)) Shape.noConfusion
  · rw [hsame]
    exact hfilled

/-- A narrow character is printed in the first column; presented, it takes the second one too. -/
private theorem step_narrow (h : t.Writing cells (blanks + 2) pen) {c : Char}
    (hc : isControl c = false) (hwidth : g.width c = 1) :
    (t.step g c).Filled (cells ++ pairCells g false c pen) blanks pen ∧
      (t.step g c).previous = some cells.length ∧
      ((t.step g c).present g cells.length).Filled (cells ++ pairCells g true c pen) blanks
        pen := by
  -- what is not presented as an emoji stays narrow
  have hone : ∀ presented, presented = false ∨ g.emojiBase c = false →
      pairCells g presented c pen = [⟨c, pen, .narrow⟩, .blank] := by
    intro presented hplain
    apply if_neg
    rintro (hwide | ⟨hpresented, hemoji⟩)
    · omega
    · rcases hplain with hplain | hplain <;> simp_all
  have hwriting := h.narrow hc hwidth
  have hfilled : (t.step g c).Filled (cells ++ [⟨c, pen, .narrow⟩, .blank]) blanks pen :=
    ⟨by rw [hwriting.cells_eq, List.append_assoc, List.append_assoc]; rfl, hwriting.pen_eq,
      hwriting.left, hwriting.clusters, hwriting.ground⟩
  have hcell : (t.step g c).cells[cells.length]? = some ⟨c, pen, .narrow⟩ := by
    rw [hfilled.cells_eq, List.append_assoc, List.cons_append, getElem?_append_length]
  refine ⟨?_, ?_, ?_⟩
  · rw [hone false (.inl rfl)]
    exact hfilled
  · rw [h.step hc, write_of_one hwidth, h.writeNarrow, previous_advance (by simp),
      getElem?_append_length]
    rfl
  · rcases present_cases (g := g) (t.step g c) cells.length with
      ⟨b, pen', hcell', hemoji, hpresent⟩ | ⟨hplain, hpresent⟩
    · obtain rfl : c = b := congrArg Cell.char (Option.some.inj (hcell.symm.trans hcell'))
      have hmoved : Filled { t.step g c with col := cells.length, pendingWrap := false }
          (cells ++ [⟨c, pen, .narrow⟩, .blank]) blanks pen :=
        ⟨hfilled.cells_eq, hfilled.pen_eq, hfilled.left, hfilled.clusters, hfilled.ground⟩
      rw [hpresent, pairCells, if_pos (.inr ⟨rfl, hemoji⟩)]
      exact (filled_writeWide rfl rfl hmoved rfl rfl c).1
    · rw [hpresent, hone true (.inr (hplain c pen hcell))]
      exact hfilled

/-- The two columns before the cursor is placed after them. -/
private theorem filled_pair (h : t.Writing cells (blanks + 2) pen) {c : Char}
    (hc : isControl c = false) (hwidth : 2 ≤ g.width c ∨ g.width c = 1) (presented : Bool) :
    (t.feed g (c :: if presented then presentation else [])).Filled
      (cells ++ pairCells g presented c pen) blanks pen := by
  obtain ⟨hprinted, hprevious, hpresent⟩ := hwidth.elim (step_wide h hc) (step_narrow h hc)
  match presented with
  | false => exact hprinted
  | true =>
    rw [feed_cons, if_pos rfl, feed_presentation hprinted.ground hprinted.left hprevious]
    exact ⟨hpresent.cells_eq, hpresent.pen_eq, hpresent.left, hprinted.clusters, hpresent.ground⟩

/-- **Two columns** are filled, whether the character is presented or not. -/
theorem Writing.pair (h : t.Writing cells (blanks + 2) pen) {c : Char} (hc : isControl c = false)
    (hwidth : 2 ≤ g.width c ∨ g.width c = 1) (presented : Bool) :
    (t.feed g ((c :: if presented then presentation else []) ++
        csi (cells.length + 3) [] 'G')).Writing (cells ++ pairCells g presented c pen) blanks
      pen := by
  rw [feed_append]
  apply (filled_pair h hc hwidth presented).column
  rw [List.length_append, length_pairCells]

end

end Screen

end Terminal
