import Kmux.Session.Structure

/-!
# Where the focus goes when a pane is closed

The pane to focus is chosen on the tree before the removal, by one recursion, and the tree after it
is made by another, which collapses a split left with one child. They agree on the leaves that stay
because a split of a layout has at least two children: the sibling chosen is another child, none of
its leaves is the pane removed, and a removal takes no other leaf with it.

A tree with a split of one child is a value of the type, though no mutation makes one, and there the
recursions part: the only child of such a split has no sibling to hand the focus to.
-/

namespace Kmux

namespace LayoutNode

variable {ok : List ℕ → Prop}

/-- A leaf of a split hands the focus on. -/
theorem exists_nextFocusAfterRemoval {p : ℕ} {t : LayoutNode} (ht : t.Weighted ok)
    (hp : p ∈ t.leaves) (hne : t ≠ .leaf p) : ∃ f, nextFocusAfterRemoval p t = some f := by
  induction ht with
  | leaf r =>
    rw [leaves_leaf, List.mem_singleton] at hp
    exact absurd (by rw [hp]) hne
  | split dir two arity weights below ih =>
    rename_i ratios cs
    rw [nextFocusAfterRemoval]
    rcases hfind : cs.findIdx? (isLeaf p) with _ | pos
    · -- the pane sits deeper: the first child that hands the focus on decides
      rw [leaves_split] at hp
      obtain ⟨c, hc, hpc, hcne⟩ := exists_child_of_mem hp hfind
      obtain ⟨f, hf⟩ := ih c hc hpc hcne
      dsimp only
      rw [nextFocusInChildren_eq, ← Option.isSome_iff_exists, List.findSome?_isSome_iff]
      exact ⟨c, hc, by rw [hf]; rfl⟩
    · obtain ⟨hlt, -, -⟩ := List.findIdx?_eq_some_iff_getElem.mp hfind
      have hsibling : ∀ i, i < cs.length → ∃ f, (cs[i]?.bind fun s ↦ s.leaves.head?) = some f := by
        intro i hi
        obtain ⟨f, fs, hleaves⟩ := List.exists_cons_of_ne_nil
          (leaves_ne_nil (below cs[i] (List.getElem_mem hi)))
        exact ⟨f, by rw [List.getElem?_eq_getElem hi, Option.bind_some, hleaves, List.head?_cons]⟩
      dsimp only
      by_cases hzero : 0 < pos
      · rw [if_pos hzero]
        exact hsibling (pos - 1) (by omega)
      · rw [if_neg hzero]
        exact hsibling (pos + 1) (by omega)

/-- A removal leaves every other leaf in the tree. -/
theorem mem_leaves_removePane {p q : ℕ} {t : LayoutNode} (ht : t.Weighted fun _ ↦ True)
    (hq : q ∈ t.leaves) (hne : q ≠ p) : q ∈ (t.removePane p).1.leaves := by
  have hout := outcome_removePane kept_true p ht
  by_cases hremoved : (t.removePane p).2 = true
  · rcases List.mem_cons.mp ((hout.changed hremoved).mem_iff.mpr hq) with heq | hmem
    · exact absurd heq hne
    · exact hmem
  · rw [hout.refused (Bool.eq_false_of_not_eq_true hremoved)]
    exact hq

end LayoutNode

namespace SessionState

/-- A tab whose layout has the shape of a tree, shows no pane twice, and shows the focused one. -/
structure Focused (t : TabState) : Prop where
  shaped : t.layout.Weighted fun _ ↦ True
  nodup : t.layout.leaves.Nodup
  focused : t.focusedPane ∈ t.layout.leaves

/-- Collapsing a leaf of a tab that has others. -/
theorem focused_closeLeaf {t : TabState} (h : Focused t) (p : ℕ)
    (hlen : 1 < t.layout.leaves.length) : Focused (closeLeaf t p) := by
  have hout := LayoutNode.outcome_removePane LayoutNode.kept_true p h.shaped
  constructor
  · exact hout.weighted
  · change (t.layout.removePane p).1.leaves.Nodup
    by_cases hremoved : (t.layout.removePane p).2 = true
    · exact ((hout.changed hremoved).nodup_iff.mpr h.nodup).of_cons
    · rw [hout.refused (Bool.eq_false_of_not_eq_true hremoved)]
      exact h.nodup
  · rw [closeLeaf]
    dsimp only
    by_cases hfocus : t.focusedPane = p
    · -- the focused pane goes: the recursion on the old tree names one that stays
      have hp : p ∈ t.layout.leaves := hfocus ▸ h.focused
      have hne : t.layout ≠ .leaf p := fun heq ↦ by
        rw [heq, LayoutNode.leaves_leaf] at hlen
        exact absurd hlen (lt_irrefl 1)
      obtain ⟨f, hf⟩ := LayoutNode.exists_nextFocusAfterRemoval h.shaped hp hne
      obtain ⟨hmem, hfp⟩ := LayoutNode.nextFocusAfterRemoval_mem h.shaped h.nodup hf
      rw [if_pos hfocus, hf]
      exact LayoutNode.mem_leaves_removePane h.shaped hmem hfp
    · rw [if_neg hfocus]
      exact LayoutNode.mem_leaves_removePane h.shaped h.focused hfocus

/-- Finding a tab and changing it go by the same index: what changes is the tab found. -/
theorem mem_tabs_updateTab {s : SessionState} {i : ℕ} {t x : TabState} {f : TabState → TabState}
    (htab : s.tab i = some t) (hx : x ∈ (s.updateTab i f).tabs) : x = f t ∨ x ∈ s.tabs := by
  rw [tab, List.find?_eq_bind_findIdx?_getElem?] at htab
  obtain ⟨pos, hpos, hget⟩ := Option.bind_eq_some_iff.mp htab
  obtain ⟨hlt, rfl⟩ := List.getElem?_eq_some_iff.mp hget
  rw [updateTab, hpos] at hx
  dsimp only at hx
  rw [List.modify_eq_take_cons_drop hlt] at hx
  rcases List.mem_append.mp hx with hx | hx
  · exact .inr (List.mem_of_mem_take hx)
  · rcases List.mem_cons.mp hx with rfl | hx
    · exact .inl rfl
    · exact .inr (List.mem_of_mem_drop hx)

/-- Closing any pane, whether or not a tab shows it. Only the tabs matter: nothing is asked of the
pane map, the active tab or the indices. -/
theorem focused_closePaneWrite {s s' : SessionState} {p : ℕ} (h : ∀ t ∈ s.tabs, Focused t)
    (hs' : (s.closePaneWrite p).1 = some s') : ∀ t ∈ s'.tabs, Focused t := by
  rw [closePaneWrite] at hs'
  rcases htab : tabOfPane { s with panes := s.panes.erase p } p with _ | i
  · rw [htab] at hs'
    dsimp only at hs'
    split at hs'
    · cases hs'
    · cases hs'
      exact h
  · rw [htab] at hs'
    dsimp only at hs'
    rcases hfind : tab { s with panes := s.panes.erase p } i with _ | t
    · rw [hfind] at hs'
      cases hs'
      exact h
    · rw [hfind] at hs'
      dsimp only at hs'
      by_cases hlen : t.layout.leaves.length ≤ 1
      · -- the tab goes, and the others are as they were
        rw [if_pos hlen, unlessEmpty] at hs'
        split at hs'
        · cases hs'
        · rename_i s'' heq
          split at heq
          · cases heq
          · cases heq
            cases hs'
            exact fun t ht ↦ h t (List.mem_of_mem_filter ht)
      · rw [if_neg hlen] at hs'
        cases hs'
        intro x hx
        rcases mem_tabs_updateTab hfind hx with rfl | hx
        · exact focused_closeLeaf (h t (tab_eq_some hfind).1) p (Nat.lt_of_not_le hlen)
        · exact h x hx

/-- **Focus after removal.** In a layout whose splits have two children or more, with a weight for
each, and whose leaves are pairwise distinct, at least two of them: closing any leaf hands the focus
to another one, which the tree after the removal still has. So closing a pane leaves the focused
pane of every tab among the tab's leaves. -/
theorem focus_after_removal :
    (∀ (t : LayoutNode) (p : ℕ), t.Weighted (fun _ ↦ True) → t.leaves.Nodup →
        2 ≤ t.leaves.length → p ∈ t.leaves →
          ∃ f, t.nextFocusAfterRemoval p = some f ∧ f ≠ p ∧ f ∈ (t.removePane p).1.leaves) ∧
      ∀ (s s' : SessionState) (p : ℕ), (∀ t ∈ s.tabs, Focused t) →
        (s.closePaneWrite p).1 = some s' → ∀ t ∈ s'.tabs, t.focusedPane ∈ t.layout.leaves := by
  constructor
  · intro t p ht hnodup hlen hp
    have hne : t ≠ .leaf p := fun heq ↦ by
      rw [heq, LayoutNode.leaves_leaf] at hlen
      exact absurd hlen (by simp)
    obtain ⟨f, hf⟩ := LayoutNode.exists_nextFocusAfterRemoval ht hp hne
    obtain ⟨hmem, hfp⟩ := LayoutNode.nextFocusAfterRemoval_mem ht hnodup hf
    exact ⟨f, hf, hfp, LayoutNode.mem_leaves_removePane ht hmem hfp⟩
  · intro s s' p h hs' t ht
    exact (focused_closePaneWrite h hs' t ht).focused

/-- A session of two panes, the second of them focused. -/
def twoPanes : SessionState := SessionState.new.splitPaneInsert 0 0 1 .horizontal

private theorem weighted_twoLeaves (dir : SplitDir) (p q : ℕ) :
    (LayoutNode.split dir [500, 500] [.leaf p, .leaf q]).Weighted fun _ ↦ True := by
  refine .split dir le_rfl rfl trivial fun c hc ↦ ?_
  rcases List.mem_cons.mp hc with rfl | hc
  · exact .leaf p
  · exact List.mem_singleton.mp hc ▸ .leaf q

/-- Closing the first of two panes in a layout, and the focused one of a session. -/
theorem focus_after_removal_twoPanes :
    (∃ f, (LayoutNode.split .horizontal [500, 500] [.leaf 0, .leaf 1]).nextFocusAfterRemoval 0
        = some f ∧ f ≠ 0 ∧ f ∈ [1]) ∧
      ∃ s', (twoPanes.closePaneWrite 1).1 = some s' ∧
        ∀ t ∈ s'.tabs, t.focusedPane ∈ t.layout.leaves := by
  have hfocused : ∀ t ∈ twoPanes.tabs, Focused t := by
    intro t ht
    obtain rfl := List.mem_singleton.mp ht
    exact ⟨weighted_twoLeaves .horizontal 0 1, by decide, by decide⟩
  exact ⟨focus_after_removal.1 _ 0 (weighted_twoLeaves .horizontal 0 1) (by decide) (by decide)
      (by decide), _, rfl, focus_after_removal.2 twoPanes _ 1 hfocused rfl⟩

/-- A split with one child has no sibling to hand the focus to, though the tree has another leaf. -/
theorem not_focus_after_removal_of_only_child :
    let t : LayoutNode := .split .horizontal [500, 500] [.split .vertical [1000] [.leaf 0], .leaf 1]
    t.leaves = [0, 1] ∧ ¬∃ f, t.nextFocusAfterRemoval 0 = some f ∧ f ≠ 0 ∧
      f ∈ (t.removePane 0).1.leaves := by
  refine ⟨by decide, ?_⟩
  rintro ⟨f, hf, -⟩
  cases hf

end SessionState

end Kmux
