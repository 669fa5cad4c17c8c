import Mathlib.Data.List.Basic
import Mathlib.Order.Lattice
import Mathlib.Order.Nat

/-!
# Guillotine tilings

A rectangle that is cut straight across, again and again, falls into boxes with a gutter along each
cut. Two boxes on the two sides of a cut need not face each other: where a third cut ends at the
gutter, it can be the end of it that a box faces. A box that is taller than such a gutter is wide
faces another box all the same.
-/

namespace Guillotine

/-- A rectangle of cells. -/
structure Box where
  x : ℕ
  y : ℕ
  w : ℕ
  h : ℕ
  deriving DecidableEq, Repr

def Box.swap (b : Box) : Box := ⟨b.y, b.x, b.h, b.w⟩

/-- The box has a cell in a row from `l` on and before `u`. -/
def Box.Meets (b : Box) (l u : ℕ) : Prop := b.y < u ∧ l < b.y + b.h

/-- The boxes are what straight cuts leave of an area. A cut that sets boxes side by side is `gx`
wide, and one that sets them one above the other is `gy` high. -/
inductive Cut (gx gy : ℕ) : Box → List Box → Prop
  | whole (b : Box) (hw : 0 < b.w) (hh : 0 < b.h) : Cut gx gy b [b]
  | beside {x y w w' h : ℕ} {bs bs' : List Box} (left : Cut gx gy ⟨x, y, w, h⟩ bs)
      (right : Cut gx gy ⟨x + w + gx, y, w', h⟩ bs') :
      Cut gx gy ⟨x, y, w + gx + w', h⟩ (bs ++ bs')
  | above {x y w h h' : ℕ} {bs bs' : List Box} (top : Cut gx gy ⟨x, y, w, h⟩ bs)
      (bottom : Cut gx gy ⟨x, y + h + gy, w, h'⟩ bs') :
      Cut gx gy ⟨x, y, w, h + gy + h'⟩ (bs ++ bs')

namespace Cut

variable {gx gy : ℕ} {a b : Box} {bs : List Box}

/-- A tiling on its side. -/
theorem swap (h : Cut gx gy a bs) : Cut gy gx a.swap (bs.map Box.swap) := by
  induction h with
  | whole b hw hh => exact whole b.swap hh hw
  | beside _ _ ihl ihr =>
    rw [List.map_append]
    exact above ihl ihr
  | above _ _ iht ihb =>
    rw [List.map_append]
    exact beside iht ihb

theorem pos (h : Cut gx gy a bs) : 0 < a.w ∧ 0 < a.h := by
  induction h with
  | whole b hw hh => exact ⟨hw, hh⟩
  | beside _ _ ihl _ => exact ⟨by dsimp only at ihl ⊢; omega, ihl.2⟩
  | above _ _ iht _ => exact ⟨iht.1, by dsimp only at iht ⊢; omega⟩

theorem pos_of_mem (h : Cut gx gy a bs) (hb : b ∈ bs) : 0 < b.w ∧ 0 < b.h := by
  induction h with
  | whole c hw hh =>
    rw [List.mem_singleton.mp hb]
    exact ⟨hw, hh⟩
  | beside _ _ ihl ihr => exact (List.mem_append.mp hb).elim ihl ihr
  | above _ _ iht ihb => exact (List.mem_append.mp hb).elim iht ihb

/-- The boxes are inside the area. -/
theorem inside (h : Cut gx gy a bs) (hb : b ∈ bs) :
    (a.x ≤ b.x ∧ b.x + b.w ≤ a.x + a.w) ∧ a.y ≤ b.y ∧ b.y + b.h ≤ a.y + a.h := by
  induction h with
  | whole c _ _ =>
    rw [List.mem_singleton.mp hb]
    exact ⟨⟨le_rfl, le_rfl⟩, le_rfl, le_rfl⟩
  | beside _ _ ihl ihr =>
    dsimp only at ihl ihr ⊢
    rcases List.mem_append.mp hb with hb | hb
    · have := ihl hb
      omega
    · have := ihr hb
      omega
  | above _ _ iht ihb =>
    dsimp only at iht ihb ⊢
    rcases List.mem_append.mp hb with hb | hb
    · have := iht hb
      omega
    · have := ihb hb
      omega

/-- Rows that no cut across can hide: more of them than it is high, or the first or the last of the
area among them. -/
def Exposed (gy : ℕ) (a : Box) (l u : ℕ) : Prop :=
  (l < u ∧ a.y ≤ l ∧ u ≤ a.y + a.h) ∧ (gy < u - l ∨ l = a.y ∨ u = a.y + a.h)

/-- **Each side of the area** has a box in rows that no cut hides. -/
theorem edge (h : Cut gx gy a bs) {l u : ℕ} (hrows : Exposed gy a l u) :
    (∃ b ∈ bs, b.x = a.x ∧ b.Meets l u) ∧
      ∃ b ∈ bs, b.x + b.w = a.x + a.w ∧ b.Meets l u := by
  induction h generalizing l u with
  | whole b _ _ =>
    have hmeets : b.Meets l u := by
      obtain ⟨⟨hlt, hl, hu⟩, -⟩ := hrows
      exact ⟨by omega, by omega⟩
    exact ⟨⟨b, List.mem_singleton_self b, rfl, hmeets⟩,
      ⟨b, List.mem_singleton_self b, rfl, hmeets⟩⟩
  | beside _ _ ihl ihr =>
    obtain ⟨⟨b, hb, hx, hmeets⟩, -⟩ := ihl hrows
    obtain ⟨-, c, hc, hx', hmeets'⟩ := ihr hrows
    dsimp only at hx hx' ⊢
    exact ⟨⟨b, List.mem_append_left _ hb, hx, hmeets⟩,
      ⟨c, List.mem_append_right _ hc, by omega, hmeets'⟩⟩
  | @above x y w h h' bs bs' top bottom iht ihb =>
    obtain ⟨-, htop⟩ := top.pos
    obtain ⟨-, hbottom⟩ := bottom.pos
    have hwider : ∀ {cs : List Box} {l' u' : ℕ}, (∀ c ∈ cs, c ∈ bs ++ bs') → l ≤ l' → u' ≤ u →
        ((∃ b ∈ cs, b.x = x ∧ b.Meets l' u') ∧ ∃ b ∈ cs, b.x + b.w = x + w ∧ b.Meets l' u') →
        (∃ b ∈ bs ++ bs', b.x = x ∧ b.Meets l u) ∧
          ∃ b ∈ bs ++ bs', b.x + b.w = x + w ∧ b.Meets l u := by
      rintro cs l' u' hcs hl hu ⟨⟨b, hb, hx, hb'⟩, c, hc, hx', hc'⟩
      exact ⟨⟨b, hcs b hb, hx, hb'.1.trans_le hu, hl.trans_lt hb'.2⟩,
        ⟨c, hcs c hc, hx', hc'.1.trans_le hu, hl.trans_lt hc'.2⟩⟩
    simp only [Exposed] at hrows iht ihb
    dsimp only at htop hbottom
    -- what of the rows is above the cut ends at it, and what is below it starts at it
    rcases Nat.lt_or_ge l (y + h) with hl | hl
    · refine hwider (fun _ ↦ List.mem_append_left _) le_rfl (min_le_left u (y + h)) (iht ?_)
      omega
    · refine hwider (fun _ ↦ List.mem_append_right _) (le_max_left l (y + h + gy)) le_rfl (ihb ?_)
      omega

/-- **A box that is higher than the cuts** faces a box across the gutter, on each side on which it
is not at the edge. -/
theorem beside_of_tall (h : Cut gx gy a bs) (hb : b ∈ bs) (htall : gy < b.h) :
    (a.x < b.x → ∃ c ∈ bs, c.x + c.w + gx = b.x ∧ c.Meets b.y (b.y + b.h)) ∧
      (b.x + b.w < a.x + a.w → ∃ c ∈ bs, c.x = b.x + b.w + gx ∧ c.Meets b.y (b.y + b.h)) := by
  induction h with
  | whole c _ _ =>
    rw [List.mem_singleton.mp hb]
    exact ⟨fun h ↦ absurd h (lt_irrefl _), fun h ↦ absurd h (lt_irrefl _)⟩
  | @beside x y w w' h bs bs' left right ihl ihr =>
    have hmem : ∀ c ∈ bs, c ∈ bs ++ bs' := fun c hc ↦ List.mem_append_left _ hc
    have hmem' : ∀ c ∈ bs', c ∈ bs ++ bs' := fun c hc ↦ List.mem_append_right _ hc
    dsimp only at ihl ihr ⊢
    rcases List.mem_append.mp hb with hb | hb
    · have hin := left.inside hb
      dsimp only at hin
      refine ⟨fun hx ↦ ?_, fun _ ↦ ?_⟩
      · obtain ⟨c, hc, hcx, hmeets⟩ := (ihl hb).1 hx
        exact ⟨c, hmem c hc, hcx, hmeets⟩
      · rcases Nat.lt_or_ge (b.x + b.w) (x + w) with hx | hx
        · obtain ⟨c, hc, hcx, hmeets⟩ := (ihl hb).2 hx
          exact ⟨c, hmem c hc, hcx, hmeets⟩
        · -- the box is at the cut
          obtain ⟨⟨c, hc, hcx, hmeets⟩, -⟩ := right.edge (l := b.y) (u := b.y + b.h)
            ⟨⟨by omega, hin.2.1, hin.2.2⟩, Or.inl (by omega)⟩
          exact ⟨c, hmem' c hc, by dsimp only at hcx; omega, hmeets⟩
    · have hin := right.inside hb
      dsimp only at hin
      refine ⟨fun _ ↦ ?_, fun hx ↦ ?_⟩
      · rcases Nat.lt_or_ge (x + w + gx) b.x with hx | hx
        · obtain ⟨c, hc, hcx, hmeets⟩ := (ihr hb).1 hx
          exact ⟨c, hmem' c hc, hcx, hmeets⟩
        · obtain ⟨-, c, hc, hcx, hmeets⟩ := left.edge (l := b.y) (u := b.y + b.h)
            ⟨⟨by omega, hin.2.1, hin.2.2⟩, Or.inl (by omega)⟩
          exact ⟨c, hmem c hc, by dsimp only at hcx; omega, hmeets⟩
      · obtain ⟨c, hc, hcx, hmeets⟩ := (ihr hb).2 (by omega)
        exact ⟨c, hmem' c hc, hcx, hmeets⟩
  | above _ _ iht ihb =>
    rcases List.mem_append.mp hb with hb | hb
    · refine (iht hb).imp (fun h hx ↦ ?_) (fun h hx ↦ ?_)
      · obtain ⟨c, hc, hc'⟩ := h hx
        exact ⟨c, List.mem_append_left _ hc, hc'⟩
      · obtain ⟨c, hc, hc'⟩ := h hx
        exact ⟨c, List.mem_append_left _ hc, hc'⟩
    · refine (ihb hb).imp (fun h hx ↦ ?_) (fun h hx ↦ ?_)
      · obtain ⟨c, hc, hc'⟩ := h hx
        exact ⟨c, List.mem_append_right _ hc, hc'⟩
      · obtain ⟨c, hc, hc'⟩ := h hx
        exact ⟨c, List.mem_append_right _ hc, hc'⟩

/-- Two boxes with a row in common have a gutter between them. -/
theorem apart (h : Cut gx gy a bs) {c : Box} (hb : b ∈ bs) (hc : c ∈ bs) (hne : c ≠ b)
    (hmeets : c.Meets b.y (b.y + b.h)) : c.x + c.w + gx ≤ b.x ∨ b.x + b.w + gx ≤ c.x := by
  induction h with
  | whole d _ _ =>
    exact absurd ((List.mem_singleton.mp hc).trans (List.mem_singleton.mp hb).symm) hne
  | beside left right ihl ihr =>
    rcases List.mem_append.mp hb with hb | hb
    · rcases List.mem_append.mp hc with hc | hc
      · exact ihl hb hc
      · have hin := left.inside hb
        have hin' := right.inside hc
        dsimp only at hin hin'
        omega
    · rcases List.mem_append.mp hc with hc | hc
      · have hin := right.inside hb
        have hin' := left.inside hc
        dsimp only at hin hin'
        omega
      · exact ihr hb hc
  | above top bottom iht ihb =>
    obtain ⟨hbelow, habove⟩ := hmeets
    rcases List.mem_append.mp hb with hb | hb
    · rcases List.mem_append.mp hc with hc | hc
      · exact iht hb hc
      · have hin := top.inside hb
        have hin' := bottom.inside hc
        dsimp only at hin hin'
        omega
    · rcases List.mem_append.mp hc with hc | hc
      · have hin := bottom.inside hb
        have hin' := top.inside hc
        dsimp only at hin hin'
        omega
      · exact ihb hb hc

end Cut

end Guillotine
