import Kmux.Session.Structure
import Mathlib.Data.Finset.Sort

/-!
# Restoring a session

A checkpoint holds a session's tabs and panes. Restoring it brings back each pane's process, or
fails to, and then reconciles the tabs with the panes that came back: dead leaves are pruned from
every layout, tabs without a live pane are dropped, and focus and active tab are repaired.

Which panes come back is any function of the pane. The steps of the repair read different things:
pruning reads the leaves, the focus is kept if its pane is in the map, and the next pane index is
taken over. That together they keep the structure is `restored_sound`. Pruning is stated for every
tree, `perm_removePane`: a checkpoint is a file, and nothing checks the shape of a layout read back.
-/

namespace Kmux

/-- One persisted tab. -/
structure PersistedTab where
  tabIndex : ℕ
  name : String
  layout : LayoutNode
  focusedPane : ℕ

/-- One persisted session, with each pane as its index. -/
structure PersistedSession where
  nextPaneIndex : ℕ
  panes : List ℕ
  tabs : List PersistedTab
  nextTabIndex : ℕ
  activeTab : ℕ

/-- How many panes came back, and how. -/
structure RestoreReport where
  restored : ℕ
  /-- Panes whose live process was adopted. -/
  alive : ℕ
  /-- Panes respawned from the snapshot. -/
  dead : ℕ
  deriving DecidableEq, Repr

namespace PersistedSession

/-- Bring back one pane after the others. `restoreOnePane` says whether its process comes back, and
then whether it is the one that was running. -/
def restorePane (restoreOnePane : ℕ → Option Bool) (s : Finset ℕ × RestoreReport) (pane : ℕ) :
    Finset ℕ × RestoreReport :=
  match restoreOnePane pane with
  | some wasLive =>
    (insert pane s.1,
      { restored := s.2.restored + 1
        alive := if wasLive then s.2.alive + 1 else s.2.alive
        dead := if wasLive then s.2.dead else s.2.dead + 1 })
  | none => s

/-- Remove leaves one after the other. -/
def prune (missing : List ℕ) (layout : LayoutNode) : LayoutNode :=
  missing.foldl (fun t m ↦ (t.removePane m).1) layout

/-- Reconcile a tab with the panes that came back; `none` if it has none of them. -/
def restoreTab (panes : Finset ℕ) (pt : PersistedTab) : Option TabState :=
  let layout := prune (pt.layout.leaves.filter fun i ↦ decide (i ∉ panes)) pt.layout
  match layout.leaves.filter fun i ↦ decide (i ∈ panes) with
  | [] => none
  | first :: _ =>
    some
      { tabIndex := pt.tabIndex
        name := pt.name
        layout
        focusedPane := if pt.focusedPane ∈ panes then pt.focusedPane else first }

/-- For a checkpoint with no usable tabs: each pane in a tab of its own. -/
def fallbackTabs (panes : Finset ℕ) : List TabState :=
  (panes.sort (· ≤ ·)).zipIdx.map fun (idx, i) ↦
    { tabIndex := i, name := toString (i + 1), layout := .single idx, focusedPane := idx }

/-- Reconcile the persisted tabs with the panes that came back. -/
def reconcile (ps : PersistedSession) (panes : Finset ℕ) : SessionState :=
  let reconciled := ps.tabs.filterMap (restoreTab panes)
  let tabs := if reconciled = [] then fallbackTabs panes else reconciled
  { panes
    nextPaneIndex := ps.nextPaneIndex
    tabs
    nextTabIndex := max ps.nextTabIndex (((tabs.map fun t ↦ t.tabIndex + 1).max?).getD 0)
    activeTab := if tabs.any fun t ↦ decide (t.tabIndex = ps.activeTab) then ps.activeTab
      else (tabs.head?.map TabState.tabIndex).getD 0 }

/-- Rebuild a session from its snapshot; `none` if every pane failed. -/
def restoreOneSession (ps : PersistedSession) (restoreOnePane : ℕ → Option Bool)
    (report : RestoreReport) : Option SessionState × RestoreReport :=
  let r := ps.panes.foldl (restorePane restoreOnePane) (∅, report)
  if r.1 = ∅ then (none, r.2) else (some (ps.reconcile r.1), r.2)

/-- The session that was persisted. -/
def stored (ps : PersistedSession) : SessionState :=
  { panes := ps.panes.toFinset
    nextPaneIndex := ps.nextPaneIndex
    tabs := ps.tabs.map fun pt ↦
      { tabIndex := pt.tabIndex
        name := pt.name
        layout := pt.layout
        focusedPane := pt.focusedPane }
    nextTabIndex := ps.nextTabIndex
    activeTab := ps.activeTab }

end PersistedSession

/-! ## Removing a leaf, in any tree -/

namespace LayoutNode

mutual

/-- Below a split of any shape, a removal takes the pane and nothing else, and takes place if the
pane is there. -/
theorem perm_removeInSplit (p : ℕ) : ∀ t : LayoutNode, t ≠ .leaf p →
    (removeInSplit p t).1.leaves.Perm (t.leaves.erase p) ∧
      ((removeInSplit p t).2 = true ↔ p ∈ t.leaves)
  | .leaf r, hne => by
    have hr : r ≠ p := fun heq ↦ hne (by rw [heq])
    rw [removeInSplit, leaves_leaf, List.erase_of_not_mem (by simpa using hr.symm)]
    exact ⟨List.Perm.refl _, by simp [hr.symm]⟩
  | .split dir ratios cs, _ => by
    rw [removeInSplit, leaves_split]
    rcases hfind : cs.findIdx? (isLeaf p) with _ | pos
    · dsimp only
      rw [leaves_split]
      exact perm_removeInChildren p cs hfind
    · -- the leaf is a child: it goes, and an only child left takes the place of the split
      obtain ⟨before, after, rfl, rfl⟩ := exists_of_findIdx_isLeaf hfind
      have herase : (before ++ LayoutNode.leaf p :: after).eraseIdx before.length
          = before ++ after := by
        rw [List.eraseIdx_append_of_length_le le_rfl, Nat.sub_self, List.eraseIdx_cons_zero]
      have hperm : ((before ++ after).flatMap leaves).Perm
          (((before ++ LayoutNode.leaf p :: after).flatMap leaves).erase p) := by
        rw [← List.cons_perm_iff_perm_erase.trans (and_iff_right (by simp)),
          List.flatMap_append, List.flatMap_append, List.flatMap_cons, leaves_leaf,
          List.singleton_append]
        exact List.perm_middle.symm
      dsimp only
      rw [herase]
      refine ⟨?_, ?_⟩
      · split
        · rename_i only heq
          rw [heq] at hperm
          simpa using hperm
        · rw [leaves_split]
          exact hperm
      · split <;> simp

theorem perm_removeInChildren (p : ℕ) : ∀ cs : List LayoutNode,
    cs.findIdx? (isLeaf p) = none →
      ((removeInChildren p cs).1.flatMap leaves).Perm ((cs.flatMap leaves).erase p) ∧
        ((removeInChildren p cs).2 = true ↔ p ∈ cs.flatMap leaves)
  | [], _ => by simp [removeInChildren]
  | c :: cs, hfind => by
    have hnone := List.findIdx?_eq_none_iff.mp hfind
    have hne : c ≠ .leaf p := fun heq ↦ by
      have hnot := hnone c List.mem_cons_self
      rw [isLeaf_iff.mpr heq] at hnot
      exact Bool.noConfusion hnot
    have hrest : cs.findIdx? (isLeaf p) = none :=
      List.findIdx?_eq_none_iff.mpr fun x hx ↦ hnone x (List.mem_cons_of_mem c hx)
    obtain ⟨hperm, hiff⟩ := perm_removeInSplit p c hne
    obtain ⟨hperm', hiff'⟩ := perm_removeInChildren p cs hrest
    rw [removeInChildren, List.flatMap_cons]
    by_cases hc : p ∈ c.leaves
    · -- the first child that has the pane ends the loop
      rw [if_pos (hiff.mpr hc), List.flatMap_cons, List.erase_append_left _ hc]
      exact ⟨hperm.append_right _, by simp [hc]⟩
    · rw [if_neg (fun htook ↦ hc (hiff.mp htook)), List.flatMap_cons,
        List.erase_append_right _ hc]
      rw [List.erase_of_not_mem hc] at hperm
      exact ⟨hperm.append hperm', by simpa [hc] using hiff'⟩

end

/-- Removing a pane from any tree but the leaf of that pane alone. -/
theorem perm_removePane {p : ℕ} {t : LayoutNode} (h : t ≠ .leaf p) :
    (t.removePane p).1.leaves.Perm (t.leaves.erase p) := by
  match t with
  | .leaf r =>
    have hr : p ∉ (leaf r).leaves := fun hmem ↦ h (by rw [(by simpa using hmem : p = r)])
    rw [removePane, List.erase_of_not_mem hr]
  | .split dir ratios cs => exact (perm_removeInSplit p (.split dir ratios cs) h).1

theorem leaves_removePane_subset (p : ℕ) (t : LayoutNode) :
    (t.removePane p).1.leaves ⊆ t.leaves := by
  by_cases h : t = .leaf p
  · rw [h, removePane]
    exact List.Subset.refl _
  · exact fun q hq ↦ List.mem_of_mem_erase ((perm_removePane h).mem_iff.mp hq)

end LayoutNode

namespace PersistedSession

/-! ## One tab -/

theorem leaves_prune_subset (missing : List ℕ) : ∀ t : LayoutNode,
    (prune missing t).leaves ⊆ t.leaves := by
  induction missing with
  | nil => exact fun t ↦ List.Subset.refl _
  | cons m missing ih =>
    intro t q hq
    exact LayoutNode.leaves_removePane_subset m t (ih _ hq)

/-- Pruning keeps what single removals keep. -/
theorem weighted_prune {ok : List ℕ → Prop} (hok : LayoutNode.Kept ok) (missing : List ℕ) :
    ∀ {t : LayoutNode}, t.Weighted ok → (prune missing t).Weighted ok := by
  induction missing with
  | nil => exact fun h ↦ h
  | cons m missing ih => exact fun h ↦ ih (LayoutNode.outcome_removePane hok m h).weighted

/-- Where some leaf is not missing, pruning takes exactly the missing ones: the tree never comes
down to a missing leaf alone, which a removal would leave in place. -/
theorem perm_prune {missing : List ℕ} : ∀ {t : LayoutNode}, t.leaves.Nodup →
    (∃ q ∈ t.leaves, q ∉ missing) →
      (prune missing t).leaves.Perm (t.leaves.filter fun q ↦ decide (q ∉ missing)) := by
  induction missing with
  | nil =>
    intro t _ _
    rw [List.filter_eq_self.mpr (by simp)]
    exact List.Perm.refl _
  | cons m missing ih =>
    rintro t hnodup ⟨q, hq, hlive⟩
    rw [List.mem_cons, not_or] at hlive
    have hne : t ≠ .leaf m := fun heq ↦ hlive.1 (by simpa [heq] using hq)
    have hperm := LayoutNode.perm_removePane hne
    rw [hnodup.erase_eq_filter] at hperm
    have hstep := ih (hperm.nodup_iff.mpr (hnodup.filter _))
      ⟨q, hperm.mem_iff.mpr (List.mem_filter.mpr ⟨hq, by simpa using hlive.1⟩), hlive.2⟩
    refine hstep.trans ((hperm.filter _).trans ?_)
    rw [List.filter_filter]
    apply List.Perm.of_eq
    apply List.filter_congr
    intro x _
    rw [Bool.eq_iff_iff]
    simp [and_comm]

/-- **One tab.** It is dropped when none of its panes came back, and otherwise shows exactly those
that did, one of them focused. -/
theorem restoreTab_spec (panes : Finset ℕ) {pt : PersistedTab} (hnodup : pt.layout.leaves.Nodup)
    (hfocus : pt.focusedPane ∈ pt.layout.leaves) :
    restoreTab panes pt = none ∧ (∀ q ∈ pt.layout.leaves, q ∉ panes) ∨
      ∃ t, restoreTab panes pt = some t ∧ t.tabIndex = pt.tabIndex ∧ t.name = pt.name ∧
        (∃ missing, t.layout = prune missing pt.layout) ∧
        t.layout.leaves.Perm (pt.layout.leaves.filter fun q ↦ decide (q ∈ panes)) ∧
        t.focusedPane ∈ t.layout.leaves := by
  rw [restoreTab]
  set missing := pt.layout.leaves.filter fun i ↦ decide (i ∉ panes) with hmissing
  have hlive : ∀ q ∈ pt.layout.leaves, (q ∉ missing ↔ q ∈ panes) := by
    intro q hq
    simp [hmissing, hq]
  by_cases hall : ∀ q ∈ pt.layout.leaves, q ∉ panes
  · have hnil : ((prune missing pt.layout).leaves.filter fun i ↦ decide (i ∈ panes)) = [] := by
      rw [List.filter_eq_nil_iff]
      intro q hq
      simpa using hall q (leaves_prune_subset missing _ hq)
    rw [hnil]
    exact .inl ⟨rfl, hall⟩
  · push Not at hall
    obtain ⟨q, hq, hqpanes⟩ := hall
    have hperm : (prune missing pt.layout).leaves.Perm
        (pt.layout.leaves.filter fun q ↦ decide (q ∈ panes)) := by
      refine (perm_prune hnodup ⟨q, hq, (hlive q hq).mpr hqpanes⟩).trans (List.Perm.of_eq ?_)
      exact List.filter_congr fun x hx ↦ decide_eq_decide.mpr (hlive x hx)
    have hmem : ∀ x, x ∈ (prune missing pt.layout).leaves ↔ x ∈ pt.layout.leaves ∧ x ∈ panes := by
      intro x
      rw [hperm.mem_iff, List.mem_filter, decide_eq_true_iff]
    rcases hfirst : (prune missing pt.layout).leaves.filter fun i ↦ decide (i ∈ panes) with
      _ | ⟨first, rest⟩
    · have hdead := List.filter_eq_nil_iff.mp hfirst q ((hmem q).mpr ⟨hq, hqpanes⟩)
      exact absurd (decide_eq_true hqpanes) hdead
    · refine .inr ⟨_, rfl, rfl, rfl, ⟨missing, rfl⟩, hperm, ?_⟩
      dsimp only
      split
      · rename_i hkept
        exact (hmem _).mpr ⟨hfocus, hkept⟩
      · exact List.mem_of_mem_filter (hfirst ▸ List.mem_cons_self)

/-! ## The session -/

theorem mem_foldl_restorePane (restoreOnePane : ℕ → Option Bool) {q : ℕ} : ∀ (panes : List ℕ)
    (s : Finset ℕ × RestoreReport), q ∈ (panes.foldl (restorePane restoreOnePane) s).1 ↔
      q ∈ s.1 ∨ q ∈ panes ∧ (restoreOnePane q).isSome := by
  intro panes
  induction panes with
  | nil => simp
  | cons p panes ih =>
    intro s
    rw [List.foldl_cons, ih, restorePane, List.mem_cons]
    rcases hp : restoreOnePane p with _ | wasLive
    · -- the pane failed: the map is as it was
      constructor
      · exact fun h ↦ h.imp_right fun ⟨hmem, hsome⟩ ↦ ⟨.inr hmem, hsome⟩
      · rintro (hmem | ⟨rfl | hmem, hsome⟩)
        · exact .inl hmem
        · rw [hp] at hsome
          cases hsome
        · exact .inr ⟨hmem, hsome⟩
    · dsimp only
      rw [Finset.mem_insert]
      constructor
      · rintro ((rfl | hmem) | ⟨hmem, hsome⟩)
        · exact .inr ⟨.inl rfl, by rw [hp]; rfl⟩
        · exact .inl hmem
        · exact .inr ⟨.inr hmem, hsome⟩
      · rintro (hmem | ⟨rfl | hmem, hsome⟩)
        · exact .inl (.inr hmem)
        · exact .inl (.inl rfl)
        · exact .inr ⟨hmem, hsome⟩

/-- Tabs with distinct leaves and a focus among them, one by one. -/
def TabsSound (tabs : List PersistedTab) : Prop :=
  ∀ pt ∈ tabs, pt.layout.leaves.Nodup ∧ pt.focusedPane ∈ pt.layout.leaves

/-- The leaves of the reconciled tabs are the stored ones whose panes came back. -/
theorem perm_leaves_filterMap (panes : Finset ℕ) : ∀ {tabs : List PersistedTab}, TabsSound tabs →
    ((tabs.filterMap (restoreTab panes)).flatMap fun t ↦ t.layout.leaves).Perm
      ((tabs.flatMap fun pt ↦ pt.layout.leaves).filter fun q ↦ decide (q ∈ panes)) := by
  intro tabs
  induction tabs with
  | nil => exact fun _ ↦ List.Perm.refl _
  | cons pt tabs ih =>
    intro h
    have hrest := ih fun x hx ↦ h x (List.mem_cons_of_mem pt hx)
    obtain ⟨hnodup, hfocus⟩ := h pt List.mem_cons_self
    rw [List.flatMap_cons, List.filter_append]
    rcases restoreTab_spec panes hnodup hfocus with ⟨hnone, hdead⟩ | ⟨t, hsome, -, -, -, hperm, -⟩
    · rw [List.filterMap_cons_none hnone, List.filter_eq_nil_iff.mpr (by simpa using hdead)]
      exact hrest
    · rw [List.filterMap_cons_some hsome, List.flatMap_cons]
      exact hperm.append hrest

/-- No tab changes its index, and none is added. -/
theorem sublist_tabIndex_filterMap (panes : Finset ℕ) : ∀ {tabs : List PersistedTab},
    TabsSound tabs → ((tabs.filterMap (restoreTab panes)).map TabState.tabIndex).Sublist
      (tabs.map PersistedTab.tabIndex) := by
  intro tabs
  induction tabs with
  | nil => exact fun _ ↦ List.Sublist.refl _
  | cons pt tabs ih =>
    intro h
    have hrest := ih fun x hx ↦ h x (List.mem_cons_of_mem pt hx)
    obtain ⟨hnodup, hfocus⟩ := h pt List.mem_cons_self
    rw [List.map_cons]
    rcases restoreTab_spec panes hnodup hfocus with ⟨hnone, -⟩ | ⟨t, hsome, hidx, -⟩
    · rw [List.filterMap_cons_none hnone]
      exact hrest.cons _
    · rw [List.filterMap_cons_some hsome, List.map_cons, hidx]
      exact hrest.cons_cons _

theorem tabsSound_of_sound {ps : PersistedSession} (h : ps.stored.Sound) : TabsSound ps.tabs := by
  intro pt hpt
  have hmem : _ ∈ ps.stored.tabs := List.mem_map_of_mem hpt
  exact ⟨(List.nodup_flatMap.mp h.leaves_nodup).1 _ hmem, h.focused _ hmem⟩

theorem allLeaves_stored (ps : PersistedSession) :
    ps.stored.allLeaves = ps.tabs.flatMap fun pt ↦ pt.layout.leaves := by
  rw [SessionState.allLeaves, stored, List.flatMap_map]

/-- What restoring makes of a sound session, given that the panes `panes` came back. -/
structure Restored (ps : PersistedSession) (panes : Finset ℕ) (s : SessionState) : Prop where
  sound : s.Sound
  panes_eq : s.panes = panes
  /-- Each tab was there, and shows exactly its panes that came back. -/
  tabs : ∀ t ∈ s.tabs, ∃ pt ∈ ps.tabs, t.tabIndex = pt.tabIndex ∧ t.name = pt.name ∧
    ∀ q, q ∈ t.layout.leaves ↔ q ∈ pt.layout.leaves ∧ q ∈ panes
  /-- Layouts keep their shape, and weights that sum to 1000. -/
  weighted : ∀ {ok : List ℕ → Prop}, LayoutNode.Kept ok → (∀ pt ∈ ps.tabs, pt.layout.Weighted ok) →
    ∀ t ∈ s.tabs, t.layout.Weighted ok

/-- **Reconciliation.** Whatever subset of the panes came back, unless it is empty. -/
theorem restored_reconcile {ps : PersistedSession} (h : ps.stored.Sound) {panes : Finset ℕ}
    (hne : panes ≠ ∅) (hsub : ∀ q ∈ panes, q ∈ ps.panes) :
    Restored ps panes (ps.reconcile panes) := by
  have htabs := tabsSound_of_sound h
  have hleaves := perm_leaves_filterMap panes htabs
  have hsublist := sublist_tabIndex_filterMap panes htabs
  have hshown : ∀ q ∈ panes, q ∈ ps.tabs.flatMap fun pt ↦ pt.layout.leaves := by
    intro q hq
    have hstored : q ∈ ps.stored.panes := List.mem_toFinset.mpr (hsub q hq)
    rwa [h.panes_eq, List.mem_toFinset, allLeaves_stored] at hstored
  -- a pane that came back has a tab, so the fallback is not taken
  have htaken : ps.tabs.filterMap (restoreTab panes) ≠ [] := by
    intro hnil
    obtain ⟨q, hq⟩ := Finset.nonempty_iff_ne_empty.mpr hne
    rw [hnil, List.flatMap_nil] at hleaves
    have hmem : q ∈ ([] : List ℕ) :=
      hleaves.mem_iff.mpr (List.mem_filter.mpr ⟨hshown q hq, decide_eq_true hq⟩)
    exact absurd hmem List.not_mem_nil
  have htabs_eq : (ps.reconcile panes).tabs = ps.tabs.filterMap (restoreTab panes) := by
    rw [reconcile]
    exact if_neg htaken
  have hsource : ∀ t ∈ (ps.reconcile panes).tabs, ∃ pt ∈ ps.tabs, t.tabIndex = pt.tabIndex ∧
      t.name = pt.name ∧ (∃ missing, t.layout = prune missing pt.layout) ∧
      t.layout.leaves.Perm (pt.layout.leaves.filter fun q ↦ decide (q ∈ panes)) ∧
      t.focusedPane ∈ t.layout.leaves := by
    intro t ht
    rw [htabs_eq] at ht
    obtain ⟨pt, hpt, hrestored⟩ := List.mem_filterMap.mp ht
    obtain ⟨hnodup, hfocus⟩ := htabs pt hpt
    rcases restoreTab_spec panes hnodup hfocus with ⟨hnone, -⟩ | ⟨t', hsome, hspec⟩
    · rw [hnone] at hrestored
      cases hrestored
    · rw [hsome] at hrestored
      cases hrestored
      exact ⟨pt, hpt, hspec⟩
  refine ⟨⟨?_, ?_, ?_, ?_, ?_, ?_, ?_⟩, rfl, ?_, ?_⟩
  · rw [SessionState.allLeaves, htabs_eq]
    refine hleaves.nodup_iff.mpr (List.Nodup.filter _ ?_)
    rw [← allLeaves_stored]
    exact h.leaves_nodup
  · rw [SessionState.allLeaves, htabs_eq]
    ext q
    rw [List.mem_toFinset, hleaves.mem_iff, List.mem_filter, decide_eq_true_iff]
    exact (and_iff_right_of_imp (hshown q)).symm
  · intro t ht
    obtain ⟨-, -, -, -, -, -, hfocus⟩ := hsource t ht
    exact hfocus
  · -- the active tab if it is left, else the first
    change (if (ps.reconcile panes).tabs.any fun t ↦ decide (t.tabIndex = ps.activeTab) then
      ps.activeTab else ((ps.reconcile panes).tabs.head?.map TabState.tabIndex).getD 0) ∈ _
    split
    · rename_i hactive
      obtain ⟨t, ht, hidx⟩ := List.any_eq_true.mp hactive
      exact List.mem_map.mpr ⟨t, ht, of_decide_eq_true hidx⟩
    · obtain ⟨t, ts, hcons⟩ := List.exists_cons_of_ne_nil (htabs_eq ▸ htaken)
      rw [hcons]
      exact List.mem_cons_self
  · rw [htabs_eq]
    refine hsublist.nodup ?_
    have hnodup := h.tabs_nodup
    rwa [stored, List.map_map] at hnodup
  · intro t ht
    obtain ⟨pt, hpt, hidx, -⟩ := hsource t ht
    have hlt := h.tabs_lt _ (List.mem_map_of_mem hpt)
    rw [hidx]
    exact lt_of_lt_of_le hlt (le_max_left _ _)
  · exact fun q hq ↦ h.panes_lt q (List.mem_toFinset.mpr (hsub q hq))
  · intro t ht
    obtain ⟨pt, hpt, hidx, hname, -, hperm, -⟩ := hsource t ht
    refine ⟨pt, hpt, hidx, hname, fun q ↦ ?_⟩
    rw [hperm.mem_iff, List.mem_filter, decide_eq_true_iff]
  · intro ok hok hshaped t ht
    obtain ⟨pt, hpt, -, -, ⟨missing, hlayout⟩, -⟩ := hsource t ht
    rw [hlayout]
    exact weighted_prune hok missing (hshaped pt hpt)

/-- **Restoring a session.** Whatever sound session was persisted and whichever of its panes come
back: if none does, the session is dropped; otherwise the result is sound, its panes are those that
came back, and each of its tabs was there and shows exactly its panes that came back. -/
theorem restoreOneSession_spec (ps : PersistedSession) (h : ps.stored.Sound)
    (restoreOnePane : ℕ → Option Bool) (report : RestoreReport) :
    ((∀ q ∈ ps.panes, restoreOnePane q = none) ∧
        (ps.restoreOneSession restoreOnePane report).1 = none) ∨
      ∃ s, (ps.restoreOneSession restoreOnePane report).1 = some s ∧
        Restored ps (ps.panes.toFinset.filter fun q ↦ (restoreOnePane q).isSome) s := by
  rw [restoreOneSession]
  have hpanes : (ps.panes.foldl (restorePane restoreOnePane) (∅, report)).1
      = ps.panes.toFinset.filter fun q ↦ (restoreOnePane q).isSome := by
    ext q
    rw [mem_foldl_restorePane, Finset.mem_filter, List.mem_toFinset]
    simp
  rw [hpanes]
  by_cases hnone : (ps.panes.toFinset.filter fun q ↦ (restoreOnePane q).isSome) = ∅
  · refine .inl ⟨fun q hq ↦ ?_, by rw [if_pos hnone]⟩
    have hdead := Finset.filter_eq_empty_iff.mp hnone (List.mem_toFinset.mpr hq)
    exact Option.not_isSome_iff_eq_none.mp hdead
  · refine .inr ⟨_, by rw [if_neg hnone], restored_reconcile h hnone fun q hq ↦ ?_⟩
    exact List.mem_toFinset.mp (Finset.mem_filter.mp hq).1

/-- Two tabs, the active one showing panes 0 and 1 side by side. -/
def twoTabs : PersistedSession :=
  { nextPaneIndex := 3
    panes := [0, 1, 2]
    tabs :=
      [{ tabIndex := 0, name := "1", layout := .split .horizontal [500, 500] [.leaf 0, .leaf 1],
         focusedPane := 1 },
       { tabIndex := 1, name := "2", layout := .leaf 2, focusedPane := 2 }]
    nextTabIndex := 2
    activeTab := 1 }

/-- Only the shell of pane 0 comes back: the active tab goes, and the other one collapses. -/
theorem restoreOneSession_spec_twoTabs :
    ∃ s, (twoTabs.restoreOneSession (fun q ↦ if q = 0 then some true else none)
        ⟨0, 0, 0⟩).1 = some s ∧ s.Sound ∧ s.panes = {0} := by
  have hsound : twoTabs.stored.Sound := by
    refine ⟨by decide, by decide, ?_, by decide, by decide, ?_, by decide⟩
    · intro t ht
      rcases List.mem_cons.mp ht with rfl | ht
      · decide
      · rw [List.mem_singleton.mp ht]
        decide
    · intro t ht
      rcases List.mem_cons.mp ht with rfl | ht
      · decide
      · rw [List.mem_singleton.mp ht]
        decide
  rcases restoreOneSession_spec twoTabs hsound (fun q ↦ if q = 0 then some true else none)
    ⟨0, 0, 0⟩ with ⟨hnone, -⟩ | ⟨s, hs, hrestored⟩
  · exact absurd (hnone 0 (by decide)) (by decide)
  · exact ⟨s, hs, hrestored.sound, hrestored.panes_eq.trans (by decide)⟩

end PersistedSession

end Kmux
