import Kmux.Session.LayoutInvariant
import Kmux.Session.State
import Mathlib.Data.List.Pairwise

/-!
# The structure of a session

The leaves of a session's tabs are pairwise distinct and are exactly the panes of its map, each
tab's focus is one of its leaves, the active tab is one of the tabs, and indices are unique and
below the counters they are drawn from.

Two second phases can break this. A split whose tab was closed while its pane was spawned leaves the
pane in the map with no leaf to show it, and closing a tab removes the panes the tab had when the
request came, not those it has when it is dropped. `Guarded` excludes exactly these, and under it
the structure survives every interleaving of the phases.
-/

namespace Kmux

namespace SessionState

/-- The leaves of all tabs. -/
def allLeaves (s : SessionState) : List ℕ := s.tabs.flatMap fun t ↦ t.layout.leaves

/-- The structure of a session. -/
structure Sound (s : SessionState) : Prop where
  leaves_nodup : s.allLeaves.Nodup
  panes_eq : s.panes = s.allLeaves.toFinset
  focused : ∀ t ∈ s.tabs, t.focusedPane ∈ t.layout.leaves
  active : s.activeTab ∈ s.tabs.map TabState.tabIndex
  tabs_nodup : (s.tabs.map TabState.tabIndex).Nodup
  tabs_lt : ∀ t ∈ s.tabs, t.tabIndex < s.nextTabIndex
  panes_lt : ∀ p ∈ s.panes, p < s.nextPaneIndex

/-- A sound session whose layouts have the shape of a tree, whatever their weights. -/
structure Good (s : SessionState) : Prop extends Sound s where
  shaped : ∀ t ∈ s.tabs, t.layout.Weighted fun _ ↦ True

theorem good_new : Good new where
  leaves_nodup := by simp [allLeaves, new, LayoutNode.single]
  panes_eq := by simp [allLeaves, new, LayoutNode.single]
  focused := by simp [new, LayoutNode.single]
  active := by simp [new]
  tabs_nodup := by simp [new]
  tabs_lt := by simp [new]
  panes_lt := by simp [new]
  shaped := by
    intro t ht
    obtain rfl := List.mem_singleton.mp ht
    exact .leaf 0

theorem Good.mem_panes {s : SessionState} (h : Good s) {p : ℕ} :
    p ∈ s.panes ↔ ∃ t ∈ s.tabs, p ∈ t.layout.leaves := by
  rw [h.panes_eq, List.mem_toFinset, allLeaves, List.mem_flatMap]

theorem Good.nodup_leaves {s : SessionState} (h : Good s) {t : TabState} (ht : t ∈ s.tabs) :
    t.layout.leaves.Nodup := (List.nodup_flatMap.mp h.leaves_nodup).1 t ht

/-- What a write phase may do to a sound session: leave a sound one, with the counters as they
were, whose tabs and leaves were there before, in the same tab, or are new. -/
structure Written (s : SessionState) (newPanes newTabs : List ℕ) (s' : SessionState) : Prop where
  good : Good s'
  nextPaneIndex : s'.nextPaneIndex = s.nextPaneIndex
  nextTabIndex : s'.nextTabIndex = s.nextTabIndex
  tabs : ∀ t' ∈ s'.tabs, t'.tabIndex ∈ newTabs ∨ ∃ t ∈ s.tabs, t.tabIndex = t'.tabIndex
  leaves : ∀ t' ∈ s'.tabs, ∀ p ∈ t'.layout.leaves,
    p ∈ newPanes ∨ ∃ t ∈ s.tabs, t.tabIndex = t'.tabIndex ∧ p ∈ t.layout.leaves

/-- A session whose tabs were all there before. -/
theorem Written.of_subset {s s' : SessionState} (h : Good s')
    (hpane : s'.nextPaneIndex = s.nextPaneIndex)
    (htab : s'.nextTabIndex = s.nextTabIndex) (hsub : ∀ t ∈ s'.tabs, t ∈ s.tabs) :
    Written s [] [] s' :=
  ⟨h, hpane, htab, fun t ht ↦ .inr ⟨t, hsub t ht, rfl⟩,
    fun t ht _ hp ↦ .inr ⟨t, hsub t ht, rfl, hp⟩⟩

theorem Written.refl {s : SessionState} (h : Good s) : Written s [] [] s :=
  .of_subset h rfl rfl fun _ ht ↦ ht

/-! ## One tab changes -/

/-- What updating a tab does: nothing if there is no such tab, or one tab in the list changes. -/
theorem updateTab_cases (s : SessionState) (i : ℕ) (f : TabState → TabState) :
    (s.updateTab i f = s ∧ ∀ t ∈ s.tabs, t.tabIndex ≠ i) ∨
      ∃ before t after, s.tabs = before ++ t :: after ∧ t.tabIndex = i ∧
        s.updateTab i f = { s with tabs := before ++ f t :: after } := by
  rw [updateTab]
  cases hfind : s.tabs.findIdx? fun t ↦ decide (t.tabIndex = i) with
  | none =>
    refine .inl ⟨rfl, fun t ht heq ↦ ?_⟩
    have := List.findIdx?_eq_none_iff.mp hfind t ht
    exact absurd heq (of_decide_eq_false this)
  | some pos =>
    obtain ⟨hlt, hidx, -⟩ := List.findIdx?_eq_some_iff_getElem.mp hfind
    refine .inr ⟨s.tabs.take pos, s.tabs[pos], s.tabs.drop (pos + 1), ?_,
      of_decide_eq_true hidx, ?_⟩
    · rw [List.cons_getElem_drop_succ, List.take_append_drop]
    · dsimp only
      rw [List.modify_eq_take_cons_drop hlt]

/-- One tab of a sound session is replaced by one whose leaves differ by the panes `added` and
`removed`, and the map by these too. -/
private theorem Good.replace {s : SessionState} (h : Good s) {before after : List TabState}
    {t t' : TabState}
    (added removed : List ℕ) (htabs : s.tabs = before ++ t :: after)
    (hidx : t'.tabIndex = t.tabIndex)
    (hperm : (removed ++ t'.layout.leaves).Perm (added ++ t.layout.leaves))
    (hfresh : (added ++ s.allLeaves).Nodup) (hlt : ∀ p ∈ added, p < s.nextPaneIndex)
    (hfocus : t'.focusedPane ∈ t'.layout.leaves) (hshape : t'.layout.Weighted fun _ ↦ True)
    {panes' : Finset ℕ} (hpanes : ∀ p, p ∈ panes' ↔ (p ∈ added ∨ p ∈ s.panes) ∧ p ∉ removed) :
    Good { s with panes := panes', tabs := before ++ t' :: after } := by
  have hall : (removed ++ allLeaves { s with panes := panes', tabs := before ++ t' :: after }).Perm
      (added ++ s.allLeaves) := by
    have := List.perm_iff_count.mp hperm
    rw [List.perm_iff_count]
    intro x
    have hx := this x
    simp only [allLeaves, htabs, List.flatMap_append, List.flatMap_cons, List.count_append] at hx ⊢
    omega
  have hnodup := hall.nodup_iff.mpr hfresh
  have hmap : (before ++ t' :: after).map TabState.tabIndex = s.tabs.map TabState.tabIndex := by
    rw [htabs, List.map_append, List.map_append, List.map_cons, List.map_cons, hidx]
  have hother : ∀ x ∈ before ++ t' :: after, x = t' ∨ x ∈ s.tabs := by
    intro x hx
    rw [htabs]
    rw [List.mem_append, List.mem_cons] at hx ⊢
    tauto
  constructor
  · constructor
    · exact hnodup.of_append_right
    · ext p
      have hmem := hall.mem_iff (a := p)
      rw [List.mem_append, List.mem_append] at hmem
      have hdisj : p ∈ removed →
          p ∉ allLeaves { s with panes := panes', tabs := before ++ t' :: after } :=
        fun hr hl ↦ List.disjoint_of_nodup_append hnodup hr hl
      rw [hpanes, h.panes_eq, List.mem_toFinset, List.mem_toFinset]
      tauto
    · intro x hx
      rcases hother x hx with rfl | hx
      · exact hfocus
      · exact h.focused x hx
    · change s.activeTab ∈ (before ++ t' :: after).map TabState.tabIndex
      rw [hmap]
      exact h.active
    · change ((before ++ t' :: after).map TabState.tabIndex).Nodup
      rw [hmap]
      exact h.tabs_nodup
    · intro x hx
      rcases hother x hx with rfl | hx
      · rw [hidx]
        exact h.tabs_lt t (by rw [htabs]; simp)
      · exact h.tabs_lt x hx
    · intro p hp
      rcases ((hpanes p).mp hp).1 with hadd | hold
      · exact hlt p hadd
      · exact h.panes_lt p hold
  · intro x hx
    rcases hother x hx with rfl | hx
    · exact hshape
    · exact h.shaped x hx

theorem Good.replaced {s : SessionState} (h : Good s) {before after : List TabState}
    {t t' : TabState}
    (added removed : List ℕ) (htabs : s.tabs = before ++ t :: after)
    (hidx : t'.tabIndex = t.tabIndex)
    (hperm : (removed ++ t'.layout.leaves).Perm (added ++ t.layout.leaves))
    (hfresh : (added ++ s.allLeaves).Nodup) (hlt : ∀ p ∈ added, p < s.nextPaneIndex)
    (hfocus : t'.focusedPane ∈ t'.layout.leaves) (hshape : t'.layout.Weighted fun _ ↦ True)
    {panes' : Finset ℕ} (hpanes : ∀ p, p ∈ panes' ↔ (p ∈ added ∨ p ∈ s.panes) ∧ p ∉ removed) :
    Written s added [] { s with panes := panes', tabs := before ++ t' :: after } := by
  have ht : t ∈ s.tabs := by rw [htabs]; simp
  have hother : ∀ x ∈ before ++ t' :: after, x = t' ∨ x ∈ s.tabs := by
    intro x hx
    rw [htabs]
    rw [List.mem_append, List.mem_cons] at hx ⊢
    tauto
  refine ⟨h.replace added removed htabs hidx hperm hfresh hlt hfocus hshape hpanes, rfl, rfl,
    ?_, ?_⟩
  · intro x hx
    rcases hother x hx with rfl | hx
    · exact .inr ⟨t, ht, hidx.symm⟩
    · exact .inr ⟨x, hx, rfl⟩
  · intro x hx p hp
    rcases hother x hx with rfl | hx
    · have := hperm.mem_iff.mp (List.mem_append_right removed hp)
      exact (List.mem_append.mp this).imp id fun hp ↦ ⟨t, ht, hidx.symm, hp⟩
    · exact .inr ⟨x, hx, rfl, hp⟩

/-- A change of one tab that keeps its leaves. -/
theorem Good.updateTab {s : SessionState} (h : Good s) (i : ℕ) {f : TabState → TabState}
    (hidx : ∀ t, (f t).tabIndex = t.tabIndex)
    (hperm : ∀ t ∈ s.tabs, (f t).layout.leaves.Perm t.layout.leaves)
    (hfocus : ∀ t ∈ s.tabs, (f t).focusedPane ∈ (f t).layout.leaves)
    (hshape : ∀ t ∈ s.tabs, (f t).layout.Weighted fun _ ↦ True) :
    Written s [] [] (s.updateTab i f) := by
  rcases s.updateTab_cases i f with ⟨heq, -⟩ | ⟨before, t, after, htabs, -, heq⟩
  · rw [heq]
    exact .refl h
  · have ht : t ∈ s.tabs := by rw [htabs]; simp
    rw [heq]
    exact h.replaced [] [] htabs (hidx t) (hperm t ht) h.leaves_nodup (by simp)
      (hfocus t ht) (hshape t ht) (by simp)

/-! ## Requests of one phase -/

theorem Good.setTabFocus {s : SessionState} (h : Good s) (i p : ℕ) :
    Written s [] [] (s.setTabFocus i p) := by
  refine h.updateTab i (fun t ↦ ?_) (fun t ht ↦ ?_) (fun t ht ↦ ?_) fun t ht ↦ ?_
  · split <;> rfl
  · split <;> exact List.Perm.refl _
  · split
    · assumption
    · exact h.focused t ht
  · split <;> exact h.shaped t ht

/-- A mutation that neither adds nor removes a pane permutes the leaves. -/
private theorem perm_leaves_apply {t : LayoutNode} (ht : t.Weighted fun _ ↦ True)
    (hnodup : t.leaves.Nodup) {op : LayoutOp} (hadd : op.added = []) (hremove : op.removed = []) :
    (t.apply op).1.Weighted (fun _ ↦ True) ∧ (t.apply op).1.leaves.Perm t.leaves := by
  have hop : op.Weighs fun _ ↦ True := by
    cases op with
    | setRatios => exact fun _ ↦ trivial
    | split | removePane | swap | applyScheme => trivial
  have hout := LayoutNode.outcome_apply LayoutNode.kept_true ht hnodup hop
  refine ⟨hout.weighted, ?_⟩
  cases hr : (t.apply op).2 with
  | false => rw [hout.refused hr]
  | true =>
    have := hout.changed hr
    rwa [hadd, hremove, List.nil_append, List.nil_append] at this

theorem Good.updateLayout {s : SessionState} (h : Good s) (i : ℕ) {op : LayoutOp}
    (hadd : op.added = []) (hremove : op.removed = []) :
    Written s [] [] (s.updateLayout i op) := by
  have hop : ∀ t ∈ s.tabs, (t.layout.apply op).1.Weighted (fun _ ↦ True) ∧
      (t.layout.apply op).1.leaves.Perm t.layout.leaves :=
    fun t ht ↦ perm_leaves_apply (h.shaped t ht) (h.nodup_leaves ht) hadd hremove
  refine h.updateTab i (fun t ↦ rfl) (fun t ht ↦ (hop t ht).2) (fun t ht ↦ ?_)
    fun t ht ↦ (hop t ht).1
  exact (hop t ht).2.mem_iff.mpr (h.focused t ht)

/-- Moving a tab permutes the tabs. -/
private theorem Good.perm {s : SessionState} (h : Good s) {tabs : List TabState}
    (hperm : tabs.Perm s.tabs) : Written s [] [] { s with tabs } := by
  have hall : (tabs.flatMap fun t ↦ t.layout.leaves).Perm s.allLeaves := hperm.flatMap_right _
  have hmap := hperm.map TabState.tabIndex
  refine .of_subset ⟨⟨?_, ?_, ?_, ?_, ?_, ?_, h.panes_lt⟩, ?_⟩ rfl rfl
    fun t ht ↦ hperm.mem_iff.mp ht
  · exact hall.nodup_iff.mpr h.leaves_nodup
  · rw [h.panes_eq]
    exact (List.toFinset_eq_of_perm _ _ hall).symm
  · exact fun t ht ↦ h.focused t (hperm.mem_iff.mp ht)
  · exact hmap.mem_iff.mpr h.active
  · exact hmap.nodup_iff.mpr h.tabs_nodup
  · exact fun t ht ↦ h.tabs_lt t (hperm.mem_iff.mp ht)
  · exact fun t ht ↦ h.shaped t (hperm.mem_iff.mp ht)

theorem Good.reorderTab {s : SessionState} (h : Good s) (i newPosition : ℕ) :
    Written s [] [] (s.reorderTab i newPosition) := by
  rw [SessionState.reorderTab]
  cases s.tabs.findIdx? fun t ↦ decide (t.tabIndex = i) with
  | none => exact .refl h
  | some pos =>
    dsimp only
    cases hget : s.tabs[pos]? with
    | none => exact .refl h
    | some tab =>
      obtain ⟨hlt, rfl⟩ := List.getElem?_eq_some_iff.mp hget
      apply h.perm
      exact (List.perm_insertIdx _ _ (Nat.min_le_right _ _)).trans
        (List.getElem_cons_eraseIdx_perm hlt)

/-! ## Second phases -/

theorem Good.createTabInsert {s : SessionState} (h : Good s) {p i : ℕ} (hp : p ∉ s.allLeaves)
    (hplt : p < s.nextPaneIndex) (hi : i ∉ s.tabs.map TabState.tabIndex)
    (hilt : i < s.nextTabIndex) :
    Written s [p] [i] (s.createTabInsert p i) := by
  have hall : (s.createTabInsert p i).allLeaves = s.allLeaves ++ [p] := by
    simp [SessionState.createTabInsert, allLeaves, LayoutNode.single]
  have hmap : (s.createTabInsert p i).tabs.map TabState.tabIndex
      = s.tabs.map TabState.tabIndex ++ [i] := by
    rw [SessionState.createTabInsert, List.map_append, List.map_singleton]
  have hmem : ∀ t ∈ (s.createTabInsert p i).tabs, t ∈ s.tabs ∨
      (t.tabIndex = i ∧ t.layout = .leaf p ∧ t.focusedPane = p) := by
    intro t ht
    rcases List.mem_append.mp ht with ht | ht
    · exact .inl ht
    · obtain rfl := List.mem_singleton.mp ht
      exact .inr ⟨rfl, rfl, rfl⟩
  refine ⟨⟨⟨?_, ?_, ?_, ?_, ?_, ?_, ?_⟩, ?_⟩, rfl, rfl, ?_, ?_⟩
  · rw [hall]
    exact h.leaves_nodup.append (List.nodup_singleton p) (by simpa using hp)
  · rw [hall, SessionState.createTabInsert, h.panes_eq]
    ext x
    rw [Finset.mem_insert, List.mem_toFinset, List.mem_toFinset, List.mem_append,
      List.mem_singleton, or_comm]
  · intro t ht
    rcases hmem t ht with ht | ⟨-, hl, hf⟩
    · exact h.focused t ht
    · rw [hl, hf]
      simp
  · rw [hmap]
    exact List.mem_append_left _ h.active
  · rw [hmap]
    exact h.tabs_nodup.append (List.nodup_singleton i) (by simpa using hi)
  · intro t ht
    rcases hmem t ht with ht | ⟨rfl, -, -⟩
    · exact h.tabs_lt t ht
    · exact hilt
  · intro q hq
    rcases Finset.mem_insert.mp hq with rfl | hq
    · exact hplt
    · exact h.panes_lt q hq
  · intro t ht
    rcases hmem t ht with ht | ⟨-, hl, -⟩
    · exact h.shaped t ht
    · rw [hl]
      exact .leaf p
  · intro t ht
    rcases hmem t ht with ht | ⟨rfl, -, -⟩
    · exact .inr ⟨t, ht, rfl⟩
    · exact .inl (List.mem_singleton_self _)
  · intro t ht q hq
    rcases hmem t ht with ht | ⟨-, hl, -⟩
    · exact .inr ⟨t, ht, rfl, hq⟩
    · rw [hl] at hq
      exact .inl (by simpa using hq)

/-- A split whose tab is still there. -/
theorem Good.splitPaneInsert {s : SessionState} (h : Good s) {i fromPane p : ℕ} {dir : SplitDir}
    (hp : p ∉ s.allLeaves) (hplt : p < s.nextPaneIndex) (hi : ∃ t ∈ s.tabs, t.tabIndex = i) :
    Written s [p] [] (s.splitPaneInsert i fromPane p dir) := by
  rw [SessionState.splitPaneInsert]
  rcases updateTab_cases { s with panes := insert p s.panes } i _ with
    ⟨-, hnone⟩ | ⟨before, t, after, htabs, -, heq⟩
  · obtain ⟨t, ht, hidx⟩ := hi
    exact absurd hidx (hnone t ht)
  · rw [heq]
    have ht : t ∈ s.tabs := by
      change s.tabs = _ at htabs
      rw [htabs]
      simp
    -- the focused leaf stands in for a leaf that is gone
    have htarget : (if fromPane ∈ t.layout.leaves then fromPane else t.focusedPane)
        ∈ t.layout.leaves := by
      split
      · assumption
      · exact h.focused t ht
    generalize (if fromPane ∈ t.layout.leaves then fromPane else t.focusedPane) = target at htarget
    have hout := LayoutNode.outcome_splitPane LayoutNode.kept_true target p dir (h.shaped t ht)
    have hperm := hout.changed (LayoutNode.splitPane_of_mem (h.shaped t ht) htarget)
    refine h.replaced [p] [] htabs ?_ hperm ?_ ?_ ?_ hout.weighted ?_
    · rfl
    · exact List.nodup_cons.mpr ⟨hp, h.leaves_nodup⟩
    · intro q hq
      rwa [List.mem_singleton.mp hq]
    · exact hperm.mem_iff.mpr List.mem_cons_self
    · intro q
      simp

theorem Good.tab_eq {s : SessionState} (h : Good s) {t t' : TabState} (ht : t ∈ s.tabs)
    (ht' : t' ∈ s.tabs) (hidx : t.tabIndex = t'.tabIndex) : t = t' :=
  List.inj_on_of_nodup_map h.tabs_nodup ht ht' hidx

/-- No pane is a leaf of two tabs. -/
theorem Good.tabIndex_eq {s : SessionState} (h : Good s) {t t' : TabState} (ht : t ∈ s.tabs)
    (ht' : t' ∈ s.tabs) {p : ℕ} (hp : p ∈ t.layout.leaves) (hp' : p ∈ t'.layout.leaves) :
    t.tabIndex = t'.tabIndex := by
  by_contra hne
  have hpair := (List.nodup_flatMap.mp h.leaves_nodup).2
  have : Std.Symm (Function.onFun List.Disjoint fun t : TabState ↦ t.layout.leaves) :=
    ⟨fun _ _ hd ↦ List.Disjoint.symm hd⟩
  exact hpair.forall ht ht' (fun heq ↦ hne (by rw [heq])) hp hp'

/-- Dropping a tab together with the panes that only it shows. -/
theorem Good.dropped {s s' : SessionState} (h : Good s) {i : ℕ} {panes' : Finset ℕ}
    (hpanes : ∀ p, p ∈ panes' ↔ ∃ t ∈ s.tabs, t.tabIndex ≠ i ∧ p ∈ t.layout.leaves)
    (hs' : (dropTab { s with panes := panes' } i).unlessEmpty = some s') : Written s [] [] s' := by
  rw [unlessEmpty] at hs'
  split at hs'
  · cases hs'
  · rename_i hne
    cases hs'
    have hsub : (dropTab { s with panes := panes' } i).tabs.Sublist s.tabs := List.filter_sublist
    have hmem : ∀ t, t ∈ (dropTab { s with panes := panes' } i).tabs ↔
        t ∈ s.tabs ∧ t.tabIndex ≠ i := by
      intro t
      rw [dropTab, List.mem_filter, decide_eq_true_iff]
    have hin : ∀ t ∈ (dropTab { s with panes := panes' } i).tabs, t ∈ s.tabs :=
      fun t ht ↦ ((hmem t).mp ht).1
    have hparts := List.nodup_flatMap.mp h.leaves_nodup
    refine .of_subset ⟨⟨?_, ?_, fun t ht ↦ h.focused t (hin t ht), ?_, ?_,
      fun t ht ↦ h.tabs_lt t (hin t ht), ?_⟩, fun t ht ↦ h.shaped t (hin t ht)⟩ rfl rfl hin
    · exact List.nodup_flatMap.mpr ⟨fun t ht ↦ hparts.1 t (hin t ht), hparts.2.sublist hsub⟩
    · ext p
      rw [List.mem_toFinset, allLeaves, List.mem_flatMap]
      refine (hpanes p).trans ?_
      constructor
      · rintro ⟨t, ht, hidx, hp⟩
        exact ⟨t, (hmem t).mpr ⟨ht, hidx⟩, hp⟩
      · rintro ⟨t, ht, hp⟩
        exact ⟨t, hin t ht, ((hmem t).mp ht).2, hp⟩
    · -- the first tab that is left, or the one that was active
      change (if s.activeTab = i then
        ((dropTab { s with panes := panes' } i).tabs.head?.map TabState.tabIndex).getD 0
          else s.activeTab) ∈ (dropTab { s with panes := panes' } i).tabs.map TabState.tabIndex
      split
      · obtain ⟨t, ts, htabs⟩ := List.exists_cons_of_ne_nil hne
        rw [htabs]
        exact List.mem_cons_self
      · rename_i hactive
        obtain ⟨t, ht, hidx⟩ := List.mem_map.mp h.active
        exact List.mem_map.mpr ⟨t, (hmem t).mpr ⟨ht, by rwa [hidx]⟩, hidx⟩
    · exact (hsub.map TabState.tabIndex).nodup h.tabs_nodup
    · intro p hp
      obtain ⟨t, ht, -, hpt⟩ := (hpanes p).mp hp
      exact h.panes_lt p (h.mem_panes.mpr ⟨t, ht, hpt⟩)

/-- Closing a tab that shows no pane beyond those collected, none of which another tab shows. -/
theorem Good.closeTabWrite {s s' : SessionState} (h : Good s) {i : ℕ} {paneIds : List ℕ}
    (hall : ∀ t ∈ s.tabs, t.tabIndex = i → ∀ p ∈ t.layout.leaves, p ∈ paneIds)
    (hown : ∀ p ∈ paneIds, ∀ t ∈ s.tabs, p ∈ t.layout.leaves → t.tabIndex = i)
    (hs' : s.closeTabWrite i paneIds = some s') : Written s [] [] s' := by
  refine h.dropped (fun p ↦ ?_) hs'
  rw [Finset.mem_sdiff, List.mem_toFinset, h.mem_panes]
  constructor
  · rintro ⟨⟨t, ht, hp⟩, hnot⟩
    exact ⟨t, ht, fun hidx ↦ hnot (hall t ht hidx p hp), hp⟩
  · rintro ⟨t, ht, hne, hp⟩
    exact ⟨⟨t, ht, hp⟩, fun hmem ↦ hne (hown p hmem t ht hp)⟩

/-- Collapsing a leaf that is not the only one of its tab. -/
private theorem closeLeaf_spec {t : TabState} {p : ℕ} (hshape : t.layout.Weighted fun _ ↦ True)
    (hnodup : t.layout.leaves.Nodup) (hfocus : t.focusedPane ∈ t.layout.leaves)
    (hp : p ∈ t.layout.leaves) (hlen : 1 < t.layout.leaves.length) :
    (closeLeaf t p).layout.Weighted (fun _ ↦ True) ∧
      ([p] ++ (closeLeaf t p).layout.leaves).Perm ([] ++ t.layout.leaves) ∧
      (closeLeaf t p).focusedPane ∈ (closeLeaf t p).layout.leaves := by
  have hout := LayoutNode.outcome_removePane LayoutNode.kept_true p hshape
  have hperm := hout.changed (LayoutNode.removePane_of_mem hshape hp hlen)
  refine ⟨hout.weighted, hperm, ?_⟩
  have hleft : ∀ q ∈ t.layout.leaves, q ≠ p → q ∈ (t.layout.removePane p).1.leaves := by
    intro q hq hne
    rcases List.mem_cons.mp (hperm.mem_iff.mpr hq) with heq | hmem
    · exact absurd heq hne
    · exact hmem
  rw [closeLeaf]
  dsimp only
  split
  · cases hnext : t.layout.nextFocusAfterRemoval p with
    | some f =>
      obtain ⟨hmem, hne⟩ := LayoutNode.nextFocusAfterRemoval_mem hshape hnodup hnext
      exact hleft f hmem hne
    | none =>
      obtain ⟨q, qs, hqs⟩ := List.exists_cons_of_ne_nil (LayoutNode.leaves_ne_nil hout.weighted)
      rw [hqs]
      exact List.mem_cons_self
  · rename_i hne
    exact hleft _ hfocus hne

theorem tabOfPane_eq_some {s : SessionState} {p i : ℕ} (h : s.tabOfPane p = some i) :
    ∃ t ∈ s.tabs, t.tabIndex = i ∧ p ∈ t.layout.leaves := by
  obtain ⟨t, hfind, hidx⟩ := Option.map_eq_some_iff.mp h
  have hleaf := List.find?_some hfind
  exact ⟨t, List.mem_of_find?_eq_some hfind, hidx, by simpa using hleaf⟩

theorem tab_eq_some {s : SessionState} {i : ℕ} {t : TabState} (h : s.tab i = some t) :
    t ∈ s.tabs ∧ t.tabIndex = i := by
  have hidx := List.find?_some h
  exact ⟨List.mem_of_find?_eq_some h, by simpa using hidx⟩

/-- Closing any pane. -/
theorem Good.closePaneWrite {s s' : SessionState} (h : Good s) {p : ℕ}
    (hs' : (s.closePaneWrite p).1 = some s') : Written s [] [] s' := by
  have herase : p ∉ s.panes → ({ s with panes := s.panes.erase p } : SessionState) = s := by
    intro hp
    rw [Finset.erase_eq_of_notMem hp]
  rw [SessionState.closePaneWrite] at hs'
  cases htab : tabOfPane { s with panes := s.panes.erase p } p with
  | none =>
    have hp : p ∉ s.panes := by
      rw [h.mem_panes]
      rintro ⟨t, ht, hpt⟩
      have := List.find?_eq_none.mp (Option.map_eq_none_iff.mp htab) t ht
      exact this (decide_eq_true hpt)
    rw [htab] at hs'
    dsimp only at hs'
    split at hs'
    · cases hs'
    · cases hs'
      rw [herase hp]
      exact .refl h
  | some i =>
    rw [htab] at hs'
    obtain ⟨t, ht, hidx, hpt⟩ := tabOfPane_eq_some htab
    dsimp only at hs' ht
    cases hfind : tab { s with panes := s.panes.erase p } i with
    | none =>
      have := List.find?_eq_none.mp hfind t ht
      exact absurd hidx (by simpa using this)
    | some t₀ =>
      obtain ⟨ht₀, hidx₀⟩ := tab_eq_some hfind
      obtain rfl : t₀ = t := h.tab_eq ht₀ ht (hidx₀.trans hidx.symm)
      rw [hfind] at hs'
      dsimp only at hs'
      by_cases hlen : t₀.layout.leaves.length ≤ 1
      · rw [if_pos hlen] at hs'
        -- the only leaf of its tab: the tab goes with it
        have hs'' : (dropTab { s with panes := s.panes.erase p } i).unlessEmpty = some s' := by
          cases hdrop : (dropTab { s with panes := s.panes.erase p } i).unlessEmpty with
          | none => rw [hdrop] at hs'; cases hs'
          | some s'' => rw [hdrop] at hs'; exact hs'
        refine h.dropped (fun q ↦ ?_) hs''
        rw [Finset.mem_erase, h.mem_panes]
        constructor
        · rintro ⟨hne, t', ht', hq⟩
          refine ⟨t', ht', fun hidx' ↦ hne ?_, hq⟩
          obtain rfl : t' = t₀ := h.tab_eq ht' ht (hidx'.trans hidx.symm)
          obtain ⟨r, hr⟩ := List.length_eq_one_iff.mp
            (le_antisymm hlen (List.length_pos_of_mem hpt))
          rw [hr, List.mem_singleton] at hq hpt
          rw [hq, hpt]
        · rintro ⟨t', ht', hne, hq⟩
          refine ⟨?_, t', ht', hq⟩
          rintro rfl
          exact hne ((h.tabIndex_eq ht' ht hq hpt).trans hidx)
      · rw [if_neg hlen] at hs'
        cases hs'
        rcases updateTab_cases { s with panes := s.panes.erase p } i fun t ↦ closeLeaf t p with
          ⟨-, hnone⟩ | ⟨before, t', after, htabs, hidx', heq⟩
        · exact absurd hidx (hnone t₀ ht)
        · have ht' : t' ∈ s.tabs := by
            change s.tabs = _ at htabs
            rw [htabs]
            simp
          obtain rfl : t' = t₀ := h.tab_eq ht' ht (hidx'.trans hidx.symm)
          obtain ⟨hshape, hperm, hfocus⟩ := closeLeaf_spec (h.shaped t' ht) (h.nodup_leaves ht)
            (h.focused t' ht) hpt (by omega)
          rw [heq]
          refine h.replaced [] [p] htabs ?_ hperm h.leaves_nodup (by simp) hfocus hshape ?_
          · rfl
          · intro q
            rw [Finset.mem_erase]
            simp [and_comm]

end SessionState

/-! ## What is reserved between the phases -/

namespace Pending

/-- The pane index a request has drawn and not used yet. -/
def newPanes : Pending → List ℕ
  | .createTab paneIndex _ => [paneIndex]
  | .splitPane _ _ newIndex _ => [newIndex]
  | .closePane _ | .closeTab _ _ => []

/-- The tab index a request has drawn and not used yet. -/
def newTabs : Pending → List ℕ
  | .createTab _ tabIndex => [tabIndex]
  | .splitPane .. | .closePane _ | .closeTab _ _ => []

end Pending

/-- The indices drawn by requests under way are distinct, below the counters and not in use, and the
panes a closing tab collected are shown by no other tab and drawn by no request. -/
structure Reserved (s : SessionState) (pending : List Pending) : Prop where
  panes_nodup : (pending.flatMap Pending.newPanes).Nodup
  panes : ∀ p ∈ pending.flatMap Pending.newPanes, p < s.nextPaneIndex ∧ p ∉ s.allLeaves
  tabs_nodup : (pending.flatMap Pending.newTabs).Nodup
  tabs : ∀ i ∈ pending.flatMap Pending.newTabs,
    i < s.nextTabIndex ∧ i ∉ s.tabs.map TabState.tabIndex
  closing : ∀ i paneIds, .closeTab i paneIds ∈ pending → ∀ p ∈ paneIds,
    p < s.nextPaneIndex ∧ p ∉ pending.flatMap Pending.newPanes ∧
      ∀ t ∈ s.tabs, p ∈ t.layout.leaves → t.tabIndex = i

namespace Reserved

open SessionState

variable {s s' : SessionState} {pending rest : List Pending} {q : Pending}

theorem perm (h : Reserved s pending) (hperm : rest.Perm pending) : Reserved s rest := by
  have hpanes := hperm.flatMap_right Pending.newPanes
  have htabs := hperm.flatMap_right Pending.newTabs
  refine ⟨hpanes.nodup_iff.mpr h.panes_nodup, fun p hp ↦ h.panes p (hpanes.mem_iff.mp hp),
    htabs.nodup_iff.mpr h.tabs_nodup, fun i hi ↦ h.tabs i (htabs.mem_iff.mp hi), ?_⟩
  intro i paneIds hmem p hp
  obtain ⟨hlt, hnew, hown⟩ := h.closing i paneIds (hperm.mem_iff.mp hmem) p hp
  exact ⟨hlt, fun hp ↦ hnew (hpanes.mem_iff.mp hp), hown⟩

/-- A request that drew nothing leaves nothing behind when it ends. -/
theorem tail (h : Reserved s (q :: rest)) : Reserved s rest := by
  refine ⟨h.panes_nodup.of_append_right, fun p hp ↦ h.panes p (List.mem_append_right _ hp),
    h.tabs_nodup.of_append_right, fun i hi ↦ h.tabs i (List.mem_append_right _ hi), ?_⟩
  intro i paneIds hmem p hp
  obtain ⟨hlt, hnew, hown⟩ := h.closing i paneIds (List.mem_cons_of_mem q hmem) p hp
  exact ⟨hlt, fun hp ↦ hnew (List.mem_append_right _ hp), hown⟩

/-- The write phase of one request keeps what the others have reserved. -/
theorem written (h : Reserved s (q :: rest)) (hw : Written s q.newPanes q.newTabs s') :
    Reserved s' rest := by
  have hleaf : ∀ p ∈ rest.flatMap Pending.newPanes, p ∉ q.newPanes :=
    fun p hp hq ↦ List.disjoint_of_nodup_append h.panes_nodup hq hp
  have htab : ∀ i ∈ rest.flatMap Pending.newTabs, i ∉ q.newTabs :=
    fun i hi hq ↦ List.disjoint_of_nodup_append h.tabs_nodup hq hi
  refine ⟨h.tail.panes_nodup, fun p hp ↦ ?_, h.tail.tabs_nodup, fun i hi ↦ ?_, ?_⟩
  · obtain ⟨hlt, hnot⟩ := h.tail.panes p hp
    refine ⟨hw.nextPaneIndex.symm ▸ hlt, fun hmem ↦ ?_⟩
    obtain ⟨t', ht', hpt⟩ := List.mem_flatMap.mp hmem
    rcases hw.leaves t' ht' p hpt with hq | ⟨t, ht, -, hpt⟩
    · exact hleaf p hp hq
    · exact hnot (List.mem_flatMap.mpr ⟨t, ht, hpt⟩)
  · obtain ⟨hlt, hnot⟩ := h.tail.tabs i hi
    refine ⟨hw.nextTabIndex.symm ▸ hlt, fun hmem ↦ ?_⟩
    obtain ⟨t', ht', rfl⟩ := List.mem_map.mp hmem
    rcases hw.tabs t' ht' with hq | ⟨t, ht, hidx⟩
    · exact htab _ hi hq
    · exact hnot (List.mem_map.mpr ⟨t, ht, hidx⟩)
  · intro i paneIds hmem p hp
    obtain ⟨hlt, hnew, hown⟩ := h.closing i paneIds (List.mem_cons_of_mem q hmem) p hp
    refine ⟨hw.nextPaneIndex.symm ▸ hlt, fun hr ↦ hnew (List.mem_append_right _ hr), ?_⟩
    intro t' ht' hpt
    rcases hw.leaves t' ht' p hpt with hq | ⟨t, ht, hidx, hpt⟩
    · exact absurd (List.mem_append_left _ hq) hnew
    · rw [← hidx]
      exact hown t ht hpt

theorem closePane (h : Reserved s pending) (p : ℕ) : Reserved s (.closePane p :: pending) := by
  refine ⟨h.panes_nodup, h.panes, h.tabs_nodup, h.tabs, ?_⟩
  intro i paneIds hmem
  rcases List.mem_cons.mp hmem with heq | hmem
  · cases heq
  · exact h.closing i paneIds hmem

/-- A write that uses nothing a request has drawn. -/
theorem kept (h : Reserved s pending) (hw : Written s [] [] s') : Reserved s' pending :=
  written (h.closePane 0) hw

/-- A tab about to be closed shows its own panes only. -/
theorem closeTab (hs : Good s) (h : Reserved s pending) {t : TabState} (ht : t ∈ s.tabs) :
    Reserved s (.closeTab t.tabIndex t.layout.leaves :: pending) := by
  refine ⟨h.panes_nodup, h.panes, h.tabs_nodup, h.tabs, ?_⟩
  intro i paneIds hmem
  rcases List.mem_cons.mp hmem with heq | hmem
  · cases heq
    intro p hp
    refine ⟨hs.panes_lt p (hs.mem_panes.mpr ⟨t, ht, hp⟩), ?_,
      fun t' ht' hp' ↦ hs.tabIndex_eq ht' ht hp' hp⟩
    exact fun hr ↦ (h.panes p hr).2 (List.mem_flatMap.mpr ⟨t, ht, hp⟩)
  · exact h.closing i paneIds hmem

/-- A request that draws the next pane index, and the next tab index if it wants one. -/
theorem draw (hs : Good s) (h : Reserved s pending) {nextPane nextTab : ℕ}
    (hpane : s.nextPaneIndex < nextPane) (htab : s.nextTabIndex ≤ nextTab)
    (hq : q.newPanes = [s.nextPaneIndex])
    (hqt : q.newTabs = [] ∨ q.newTabs = [s.nextTabIndex] ∧ s.nextTabIndex < nextTab)
    (hclose : ∀ i paneIds, q ≠ .closeTab i paneIds) :
    Reserved { s with nextPaneIndex := nextPane, nextTabIndex := nextTab } (q :: pending) := by
  have hfresh : s.nextPaneIndex ∉ pending.flatMap Pending.newPanes :=
    fun hmem ↦ lt_irrefl _ (h.panes _ hmem).1
  have hleaf : s.nextPaneIndex ∉ s.allLeaves := by
    intro hmem
    have := hs.panes_lt _ (by rw [hs.panes_eq]; exact List.mem_toFinset.mpr hmem)
    exact lt_irrefl _ this
  have htabs : s.nextTabIndex ∉ s.tabs.map TabState.tabIndex := by
    intro hmem
    obtain ⟨t, ht, hidx⟩ := List.mem_map.mp hmem
    exact lt_irrefl _ (hidx ▸ hs.tabs_lt t ht)
  refine ⟨?_, ?_, ?_, ?_, ?_⟩
  · rw [List.flatMap_cons, hq]
    exact List.nodup_cons.mpr ⟨hfresh, h.panes_nodup⟩
  · intro p hp
    rw [List.flatMap_cons, hq, List.mem_append, List.mem_singleton] at hp
    rcases hp with rfl | hp
    · exact ⟨hpane, hleaf⟩
    · exact ⟨(h.panes p hp).1.trans hpane, (h.panes p hp).2⟩
  · rw [List.flatMap_cons]
    rcases hqt with hqt | ⟨hqt, -⟩
    · rw [hqt]
      exact h.tabs_nodup
    · rw [hqt]
      exact List.nodup_cons.mpr ⟨fun hmem ↦ lt_irrefl _ (h.tabs _ hmem).1, h.tabs_nodup⟩
  · intro i hi
    rw [List.flatMap_cons, List.mem_append] at hi
    rcases hi with hi | hi
    · rcases hqt with hqt | ⟨hqt, hlt⟩
      · rw [hqt] at hi
        exact absurd hi List.not_mem_nil
      · rw [hqt, List.mem_singleton] at hi
        rw [hi]
        exact ⟨hlt, htabs⟩
    · exact ⟨(h.tabs i hi).1.trans_le htab, (h.tabs i hi).2⟩
  · intro i paneIds hmem p hp
    rcases List.mem_cons.mp hmem with heq | hmem
    · exact absurd heq.symm (hclose i paneIds)
    · obtain ⟨hlt, hnew, hown⟩ := h.closing i paneIds hmem p hp
      refine ⟨hlt.trans hpane, ?_, hown⟩
      rw [List.flatMap_cons, hq, List.mem_append, List.mem_singleton, not_or]
      exact ⟨hlt.ne, hnew⟩

end Reserved

/-- Counters only ever grow. -/
theorem SessionState.Good.counters {s : SessionState} (h : s.Good) {nextPane nextTab : ℕ}
    (hpane : s.nextPaneIndex ≤ nextPane) (htab : s.nextTabIndex ≤ nextTab) :
    SessionState.Good { s with nextPaneIndex := nextPane, nextTabIndex := nextTab } :=
  ⟨⟨h.leaves_nodup, h.panes_eq, h.focused, h.active, h.tabs_nodup,
    fun t ht ↦ (h.tabs_lt t ht).trans_le htab, fun p hp ↦ (h.panes_lt p hp).trans_le hpane⟩,
    h.shaped⟩

/-! ## Every interleaving -/

namespace Hosted

/-- The second phase of a request finds what its first phase saw: a split its tab, and a closing tab
no leaf beyond those it collected. -/
def Unchanged (s : SessionState) : Pending → Prop
  | .splitPane tabIndex _ _ _ => ∃ t ∈ s.tabs, t.tabIndex = tabIndex
  | .closeTab tabIndex paneIds =>
    ∀ t ∈ s.tabs, t.tabIndex = tabIndex → ∀ p ∈ t.layout.leaves, p ∈ paneIds
  | .createTab .. | .closePane _ => True

/-- The event is not the second phase of a request whose tab has changed under it. -/
def Guarded (h : Hosted) : SessionEvent → Prop
  | .finish k => ∀ s ∈ h.session, ∀ q ∈ h.pending[k]?, Unchanged s q
  | _ => True

/-- The invariant of the interleaving. -/
def Inv (h : Hosted) : Prop := ∀ s, h.session = some s → s.Good ∧ Reserved s h.pending

private theorem inv_write {h : Hosted} (hinv : h.Inv) {f : SessionState → SessionState}
    (hf : ∀ s : SessionState, s.Good → s.Written [] [] (f s)) : (h.write f).Inv := by
  intro s' hs'
  obtain ⟨s, hs, rfl⟩ := Option.map_eq_some_iff.mp hs'
  obtain ⟨hgood, hres⟩ := hinv s hs
  exact ⟨(hf s hgood).good, hres.kept (hf s hgood)⟩

/-- The second phase of a request that finds what its first phase saw. -/
theorem written_secondPhase {s s' : SessionState} {q : Pending} {rest : List Pending}
    (hs : s.Good) (hres : Reserved s (q :: rest)) (hun : Unchanged s q)
    (hs' : secondPhase s q = some s') : s.Written q.newPanes q.newTabs s' := by
  have hpane : ∀ p ∈ q.newPanes, p < s.nextPaneIndex ∧ p ∉ s.allLeaves :=
    fun p hp ↦ hres.panes p (List.mem_append_left _ hp)
  have htab : ∀ i ∈ q.newTabs, i < s.nextTabIndex ∧ i ∉ s.tabs.map TabState.tabIndex :=
    fun i hi ↦ hres.tabs i (List.mem_append_left _ hi)
  cases q with
  | createTab p i =>
    cases hs'
    obtain ⟨hplt, hp⟩ := hpane p List.mem_cons_self
    obtain ⟨hilt, hi⟩ := htab i List.mem_cons_self
    exact hs.createTabInsert hp hplt hi hilt
  | splitPane i fromPane p dir =>
    cases hs'
    obtain ⟨hplt, hp⟩ := hpane p List.mem_cons_self
    exact hs.splitPaneInsert hp hplt hun
  | closePane p => exact hs.closePaneWrite hs'
  | closeTab i paneIds =>
    exact hs.closeTabWrite hun (fun p hp ↦ (hres.closing i paneIds List.mem_cons_self p hp).2.2) hs'

/-- A request that is put behind the ones under way. -/
private theorem perm_pending (h : Hosted) (q : Pending) :
    (h.pending ++ [q]).Perm (q :: h.pending) :=
  List.perm_append_singleton q h.pending

theorem inv_createTab {h : Hosted} (hinv : h.Inv) : (h.step .createTab).Inv := by
  cases hs : h.session with
  | none => simpa only [step, hs] using hinv
  | some s =>
    obtain ⟨hgood, hres⟩ := hinv s hs
    intro s' hs'
    simp only [step, hs, Option.some.injEq] at hs' ⊢
    subst hs'
    refine ⟨hgood.counters (Nat.le_succ _) (Nat.le_succ _), ?_⟩
    exact (hres.draw hgood (Nat.lt_succ_self _) (Nat.le_succ _) rfl
      (.inr ⟨rfl, Nat.lt_succ_self _⟩) (by simp)).perm (perm_pending h _)

theorem inv_splitPane {h : Hosted} (hinv : h.Inv) (i fromPane : ℕ) (dir : SplitDir) :
    (h.step (.splitPane i fromPane dir)).Inv := by
  cases hs : h.session with
  | none => simpa only [step, hs] using hinv
  | some s =>
    obtain ⟨hgood, hres⟩ := hinv s hs
    rw [step, hs]
    dsimp only
    cases s.tab i with
    | none => exact hinv
    | some t =>
      dsimp only
      split
      · intro s' hs'
        cases hs'
        refine ⟨hgood.counters (Nat.le_succ _) le_rfl, ?_⟩
        exact (hres.draw hgood (Nat.lt_succ_self _) le_rfl rfl (.inl rfl) (by simp)).perm
          (perm_pending h _)
      · exact hinv

theorem inv_closeTab {h : Hosted} (hinv : h.Inv) (i : ℕ) : (h.step (.closeTab i)).Inv := by
  cases hs : h.session with
  | none => simpa only [step, hs] using hinv
  | some s =>
    obtain ⟨hgood, hres⟩ := hinv s hs
    rw [step, hs]
    dsimp only
    cases htab : s.tab i with
    | none => exact hinv
    | some t =>
      obtain ⟨ht, rfl⟩ := SessionState.tab_eq_some htab
      intro s' hs'
      cases hs'
      exact ⟨hgood, (hres.closeTab hgood ht).perm (perm_pending h _)⟩

/-- The second phases are where the guard is needed. -/
theorem inv_finish {h : Hosted} (hinv : h.Inv) {k : ℕ} (hok : h.Guarded (.finish k)) :
    (h.step (.finish k)).Inv := by
  cases hq : h.pending[k]? with
  | none => simpa only [step, hq] using hinv
  | some q =>
    obtain ⟨hlt, hget⟩ := List.getElem?_eq_some_iff.mp hq
    have hperm : (q :: h.pending.eraseIdx k).Perm h.pending := by
      rw [← hget]
      exact List.getElem_cons_eraseIdx_perm hlt
    intro s' hs'
    simp only [step, hq] at hs' ⊢
    obtain ⟨s, hs, hphase⟩ := Option.bind_eq_some_iff.mp hs'
    obtain ⟨hgood, hres⟩ := hinv s hs
    have hres' := hres.perm hperm
    have hw := written_secondPhase hgood hres' (hok s hs q hq) hphase
    exact ⟨hw.good, hres'.written hw⟩

theorem inv_abandon {h : Hosted} (hinv : h.Inv) (k : ℕ) : (h.step (.abandon k)).Inv := by
  intro s hs
  obtain ⟨hgood, hres⟩ := hinv s hs
  refine ⟨hgood, ?_⟩
  by_cases hlt : k < h.pending.length
  · exact (hres.perm (List.getElem_cons_eraseIdx_perm hlt)).tail
  · rw [step, List.eraseIdx_of_length_le (not_lt.mp hlt)]
    exact hres

theorem inv_step {h : Hosted} (hinv : h.Inv) {e : SessionEvent} (hok : h.Guarded e) :
    (h.step e).Inv := by
  cases e with
  | createTab => exact inv_createTab hinv
  | splitPane i fromPane dir => exact inv_splitPane hinv i fromPane dir
  | closePane p =>
    intro s hs
    obtain ⟨hgood, hres⟩ := hinv s hs
    exact ⟨hgood, (hres.closePane p).perm (perm_pending h _)⟩
  | closeTab i => exact inv_closeTab hinv i
  | finish k => exact inv_finish hinv hok
  | abandon k => exact inv_abandon hinv k
  | setTabFocus i p => exact inv_write hinv fun s hs ↦ hs.setTabFocus i p
  | reorderTab i newPosition => exact inv_write hinv fun s hs ↦ hs.reorderTab i newPosition
  | swapPanes i a b => exact inv_write hinv fun s hs ↦ hs.updateLayout i rfl rfl
  | setLayoutRatios i path ratios => exact inv_write hinv fun s hs ↦ hs.updateLayout i rfl rfl
  | applyLayoutScheme i scheme => exact inv_write hinv fun s hs ↦ hs.updateLayout i rfl rfl

theorem inv_new : Hosted.new.Inv := by
  intro s hs
  cases hs
  exact ⟨SessionState.good_new, by simp [Hosted.new], by simp [Hosted.new], by simp [Hosted.new],
    by simp [Hosted.new], by simp [Hosted.new]⟩

/-- **Session structure.** In every interleaving of the phases whose second phases find the tab they
saw, the session is sound after every event, for as long as it lives. -/
theorem session_structure (es : List SessionEvent) (hok : Run.Ok step Guarded Hosted.new es) :
    ∀ s, (Hosted.new.run es).session = some s → s.Sound := by
  intro s hs
  have hinv : (Hosted.new.run es).Inv :=
    Run.invariant_of_ok (fun h e (hinv : h.Inv) he ↦ inv_step hinv he) es Hosted.new inv_new hok
  exact (hinv s hs).1.toSound

/-- Two requests whose phases interleave: the split of the first tab ends before the new tab does,
and one of the panes is closed afterwards. -/
theorem session_structure_of_interleaved_split :
    ∃ s, (Hosted.new.run [.createTab, .splitPane 0 0 .horizontal, .finish 1, .finish 0,
      .closePane 0, .finish 0]).session = some s ∧ s.Sound := by
  have hok : Run.Ok step Guarded Hosted.new [.createTab, .splitPane 0 0 .horizontal, .finish 1,
      .finish 0, .closePane 0, .finish 0] := by
    refine ⟨trivial, trivial, ?_, ?_, trivial, ?_, trivial⟩
    · intro s hs q hq
      cases hs
      cases hq
      exact ⟨_, List.mem_cons_self, rfl⟩
    · intro s hs q hq
      cases hs
      cases hq
      trivial
    · intro s hs q hq
      cases hs
      cases hq
      trivial
  exact ⟨_, rfl, session_structure _ hok _ rfl⟩

/-- A pane is split off in a tab that another request closes while the pane is spawned: the second
phase of the split puts the pane into the map and then finds no tab to show it in. -/
theorem not_session_structure_of_closed_tab :
    ∃ s, (Hosted.new.run [.createTab, .finish 0, .splitPane 1 1 .horizontal, .closeTab 1, .finish 1,
      .finish 0]).session = some s ∧ ¬s.Sound := by
  have hview : (Hosted.new.run [.createTab, .finish 0, .splitPane 1 1 .horizontal, .closeTab 1,
      .finish 1, .finish 0]).session.map (fun s ↦ (decide (2 ∈ s.panes), s.allLeaves))
        = some (true, [0]) := by decide
  obtain ⟨s, hs, hview⟩ := Option.map_eq_some_iff.mp hview
  rw [Prod.mk.injEq, decide_eq_true_iff] at hview
  refine ⟨s, hs, fun h ↦ ?_⟩
  have hmem := hview.1
  rw [h.panes_eq, hview.2] at hmem
  exact absurd hmem (by decide)

end Hosted

end Kmux
