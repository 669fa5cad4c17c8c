import Mathlib.Data.List.Basic

/-!
# Text up to a delimiter

A delimiter is a list of symbols that ends a text; reading stops at its first occurrence. A text
that is written with the delimiter after it is read back whole exactly if the delimiter does not
occur in it, given that no two occurrences of the delimiter overlap: otherwise the end of the text
and the start of the delimiter may make up an earlier one.
-/

namespace Delimiter

variable {α : Type*} {mark : List α}

/-- No end of the list is a start of it. -/
def Unbordered (mark : List α) : Prop := ∀ p, p ≠ [] → p <+: mark → p <:+ mark → p = mark

/-- A list is unbordered if its first symbol does not come again. -/
theorem unbordered_cons {c : α} {m : List α} (h : c ∉ m) : Unbordered (c :: m) := by
  rintro p hne ⟨r, hr⟩ hsuffix
  obtain ⟨d, p, rfl⟩ := List.exists_cons_of_ne_nil hne
  obtain ⟨rfl, -⟩ := List.cons.inj (hr : d :: (p ++ r) = c :: m)
  obtain heq | htail := List.suffix_cons_iff.mp hsuffix
  · exact heq
  · exact absurd (htail.subset List.mem_cons_self) h

variable [DecidableEq α]

/-- The text before the first occurrence of the delimiter, and the text after it. -/
def splitMark (mark : List α) : List α → Option (List α × List α)
  | [] => if mark = [] then some ([], []) else none
  | c :: s =>
    if mark <+: c :: s then some ([], (c :: s).drop mark.length)
    else (splitMark mark s).map fun p ↦ (c :: p.1, p.2)

theorem splitMark_of_prefix {s : List α} (h : mark <+: s) :
    splitMark mark s = some ([], s.drop mark.length) := by
  cases s with
  | nil => rw [splitMark, if_pos (List.prefix_nil.mp h)]; simp
  | cons c s => rw [splitMark, if_pos h]

/-- What is read ends at an occurrence, and no occurrence is before it. -/
theorem splitMark_eq_some {s a b : List α} (h : splitMark mark s = some (a, b)) :
    s = a ++ mark ++ b ∧ ∀ x y, s = x ++ mark ++ y → a.length ≤ x.length := by
  induction s generalizing a with
  | nil =>
    rw [splitMark] at h
    split_ifs at h with hmark
    obtain ⟨rfl, rfl⟩ : [] = a ∧ [] = b := by simpa using h
    exact ⟨by simp [hmark], fun x _ _ ↦ Nat.zero_le _⟩
  | cons c s ih =>
    rw [splitMark] at h
    split_ifs at h with hmark
    · obtain ⟨rfl, rfl⟩ : [] = a ∧ (c :: s).drop mark.length = b := by simpa using h
      refine ⟨?_, fun x _ _ ↦ Nat.zero_le _⟩
      obtain ⟨r, hr⟩ := hmark
      rw [← hr, List.drop_left, List.nil_append]
    · rw [Option.map_eq_some_iff] at h
      obtain ⟨⟨a', b'⟩, hsplit, hp⟩ := h
      obtain ⟨rfl, rfl⟩ : c :: a' = a ∧ b' = b := by simpa using hp
      obtain ⟨rfl, hfirst⟩ := ih hsplit
      refine ⟨by simp, fun x y hxy ↦ ?_⟩
      match x, hxy with
      | [], hxy => exact absurd ⟨y, hxy.symm⟩ hmark
      | d :: x, hxy =>
        rw [List.cons_append, List.cons_append] at hxy
        exact Nat.succ_le_succ (hfirst x y (List.cons.inj hxy).2)

/-- The delimiter is found where it was put, unless it occurs in the text before. -/
theorem splitMark_append (hmark : Unbordered mark) {t : List α} (ht : ¬mark <:+: t) (r : List α) :
    splitMark mark (t ++ mark ++ r) = some (t, r) := by
  induction t with
  | nil =>
    rw [List.nil_append, splitMark_of_prefix (List.prefix_append _ _), List.drop_left]
  | cons c t ih =>
    have hrest : ¬mark <:+: t := fun h ↦ ht (h.trans (List.suffix_cons c t).isInfix)
    have hnot : ¬mark <+: c :: (t ++ mark ++ r) := by
      intro hprefix
      have hjoin : c :: (t ++ mark ++ r) = (c :: t) ++ (mark ++ r) := by simp
      rw [hjoin] at hprefix
      obtain hle | hlt := Nat.lt_or_ge (c :: t).length mark.length |>.symm
      · -- an occurrence in the text itself
        exact ht (List.prefix_of_prefix_length_le hprefix (List.prefix_append _ _) hle).isInfix
      · -- an occurrence across the end of the text, which overlaps with the one after it
        obtain ⟨p, hp⟩ :=
          List.prefix_of_prefix_length_le (List.prefix_append (c :: t) _) hprefix (Nat.le_of_lt hlt)
        rw [← hp] at hprefix
        have hprefix' := (List.prefix_append_right_inj _).mp hprefix
        have hlen := congrArg List.length hp
        rw [List.length_append] at hlen
        have hstart : p <+: mark := by
          refine List.prefix_of_prefix_length_le hprefix' ?_ (by omega)
          rw [hp]
          exact List.prefix_append _ _
        have hp' : p = mark := hmark p (by rintro rfl; simp at hlen; simp at hlt; omega) hstart
          ⟨c :: t, hp⟩
        rw [hp', List.length_cons] at hlen
        omega
    rw [List.cons_append, List.cons_append, splitMark, if_neg hnot, ih hrest]
    rfl

/-- A text is read back whole exactly if the delimiter does not occur in it. -/
theorem splitMark_append_iff (hmark : Unbordered mark) (hne : mark ≠ []) (t r : List α) :
    splitMark mark (t ++ mark ++ r) = some (t, r) ↔ ¬mark <:+: t := by
  refine ⟨?_, fun ht ↦ splitMark_append hmark ht r⟩
  rintro h ⟨x, y, rfl⟩
  have hlen := (splitMark_eq_some h).2 x (y ++ mark ++ r) (by simp)
  have hpos := List.length_pos_iff.mpr hne
  simp only [List.length_append] at hlen
  omega

end Delimiter
