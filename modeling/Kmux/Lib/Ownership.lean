import Mathlib.Data.List.Perm.Basic
import Mathlib.Data.List.Nodup

/-!
# Names and their owners

Every owner holds a list of names, and a name is held by one owner and once. A name changes hands by
leaving one list and joining another; nothing else has to be known about the owners.
-/

variable {ο α : Type*}

/-- No name is held by two owners, or twice by one. -/
structure Ownership (holds : ο → List α) : Prop where
  nodup : ∀ o, (holds o).Nodup
  unique : ∀ o o' w, w ∈ holds o → w ∈ holds o' → o = o'

namespace Ownership

variable {holds holds' : ο → List α}

theorem congr (h : Ownership holds) (hperm : ∀ o, (holds' o).Perm (holds o)) :
    Ownership holds' where
  nodup := fun o ↦ (hperm o).nodup_iff.mpr (h.nodup o)
  unique := fun o o' w hw hw' ↦
    h.unique o o' w ((hperm o).mem_iff.mp hw) ((hperm o').mem_iff.mp hw')

/-- Names pass from one owner to another. -/
theorem move (h : Ownership holds) {a b : ο} {l : List α} (hne : a ≠ b)
    (ha : (holds a).Perm (l ++ holds' a)) (hb : (holds' b).Perm (l ++ holds b))
    (hrest : ∀ o, o ≠ a → o ≠ b → holds' o = holds o) : Ownership holds' := by
  have hnodup := (ha.nodup_iff.mp (h.nodup a))
  obtain ⟨hws, ha', hdisj⟩ := List.nodup_append.mp hnodup
  -- whoever holds a name now held it before, or is the new owner of one that passed
  have hold : ∀ o w, w ∈ holds' o → (w ∈ holds o ∧ (o = a → w ∉ l)) ∨ (o = b ∧ w ∈ l) := by
    intro o w hw
    by_cases hoa : o = a
    · subst hoa
      refine .inl ⟨ha.mem_iff.mpr (List.mem_append_right l hw), fun _ hmem ↦ ?_⟩
      exact hdisj w hmem w hw rfl
    · by_cases hob : o = b
      · subst hob
        rcases List.mem_append.mp (hb.mem_iff.mp hw) with hw | hw
        · exact .inr ⟨rfl, hw⟩
        · exact .inl ⟨hw, fun heq ↦ absurd heq hoa⟩
      · rw [hrest o hoa hob] at hw
        exact .inl ⟨hw, fun heq ↦ absurd heq hoa⟩
  have hmoved : ∀ w ∈ l, w ∈ holds a := fun w hw ↦ ha.mem_iff.mpr (List.mem_append_left _ hw)
  refine ⟨fun o ↦ ?_, fun o o' w hw hw' ↦ ?_⟩
  · by_cases hoa : o = a
    · rw [hoa]
      exact ha'
    · by_cases hob : o = b
      · rw [hob]
        refine hb.nodup_iff.mpr (List.nodup_append.mpr ⟨hws, h.nodup b, ?_⟩)
        rintro w hw w' hw' rfl
        exact hne (h.unique a b w (hmoved w hw) hw')
      · rw [hrest o hoa hob]
        exact h.nodup o
  · rcases hold o w hw with ⟨hwo, hnot⟩ | ⟨hob, hws⟩ <;>
      rcases hold o' w hw' with ⟨hwo', hnot'⟩ | ⟨hob', hws'⟩
    · exact h.unique o o' w hwo hwo'
    · exact absurd hws' (hnot (h.unique o a w hwo (hmoved w hws')))
    · exact absurd hws (hnot' (h.unique o' a w hwo' (hmoved w hws)))
    · exact hob.trans hob'.symm

end Ownership
