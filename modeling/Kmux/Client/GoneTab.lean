import Kmux.Client.GonePane

/-!
# A tab that is gone

What the client keeps of a tab is its place in the session's entry, the mark that it is the active
one, and the view of it. Once all of it is gone, only a list or a reply that was made before the tab
closed brings it back: the view moves to tabs that are listed.

An entry without tabs has 0 for its active tab. So an entry lacks the tab 0 without tabs, and has it
as soon as it has another tab, until a close of the tab 0 moves the mark.
-/

namespace Kmux

namespace Client

/-! ## Entries without a tab -/

/-- An entry has no such tab. The active tab of an entry without tabs is 0. -/
def SessionEntry.Lacks (e : SessionEntry) (tabIndex : ℕ) : Prop :=
  (∀ t ∈ e.tabs, t.tabIndex ≠ tabIndex) ∧ (e.activeTab = tabIndex → e.tabs = [] ∧ tabIndex = 0)

namespace SessionEntry

variable {e : SessionEntry} {tabIndex : ℕ}

/-- A change that adds no tab index and leaves the active tab alone. -/
theorem Lacks.of_tabs {e' : SessionEntry} (h : e.Lacks tabIndex)
    (htabs : ∀ t' ∈ e'.tabs, ∃ t ∈ e.tabs, t.tabIndex = t'.tabIndex)
    (hactive : e'.activeTab = e.activeTab) : e'.Lacks tabIndex := by
  refine ⟨fun t' ht' heq ↦ ?_, fun hi ↦ ?_⟩
  · obtain ⟨t, ht, hindex⟩ := htabs t' ht'
    exact h.1 t ht (hindex.trans heq)
  · obtain ⟨hnone, hzero⟩ := h.2 (hactive.symm.trans hi)
    refine ⟨List.eq_nil_iff_forall_not_mem.mpr fun t' ht' ↦ ?_, hzero⟩
    obtain ⟨t, ht, -⟩ := htabs t' ht'
    rw [hnone] at ht
    exact List.not_mem_nil ht

theorem Lacks.withLayout (h : e.Lacks tabIndex) (i : ℕ) (layout : LayoutNode) (focusedPane : ℕ) :
    (e.withLayout i layout focusedPane).Lacks tabIndex := by
  refine h.of_tabs (fun t' ht' ↦ ?_) rfl
  rcases mem_modifyFirst ht' with ht' | ⟨t, ht, rfl⟩
  · exact ⟨t', ht', rfl⟩
  · exact ⟨t, ht, rfl⟩

theorem Lacks.withPane (h : e.Lacks tabIndex) (q : PaneInfo) : (e.withPane q).Lacks tabIndex := by
  rw [SessionEntry.withPane]
  split
  · exact h
  · exact h

theorem Lacks.reordered (h : e.Lacks tabIndex) (tabIndices : List ℕ) :
    (e.reordered tabIndices).Lacks tabIndex :=
  h.of_tabs (fun t' ht' ↦ ⟨t', (List.mergeSort_perm _ _).mem_iff.mp ht', rfl⟩) rfl

/-- The active tab is the first of those that are left. -/
private theorem lacks_of_head {tabs : List TabInfo} (htabs : ∀ t ∈ tabs, t.tabIndex ≠ tabIndex)
    (h : (tabs.head?.map TabInfo.tabIndex).getD 0 = tabIndex) : tabs = [] ∧ tabIndex = 0 := by
  cases tabs with
  | nil => exact ⟨rfl, h.symm⟩
  | cons t tabs => exact absurd h (htabs t List.mem_cons_self)

theorem lacks_withoutTab (e : SessionEntry) (tabIndex : ℕ) :
    (e.withoutTab tabIndex).Lacks tabIndex := by
  have htabs : ∀ t ∈ (e.withoutTab tabIndex).tabs, t.tabIndex ≠ tabIndex :=
    fun t ht ↦ of_decide_eq_true (List.mem_filter.mp ht).2
  refine ⟨htabs, fun hactive ↦ ?_⟩
  by_cases hi : e.activeTab = tabIndex
  · exact lacks_of_head htabs ((if_pos hi).symm.trans hactive)
  · exact absurd ((if_neg hi).symm.trans hactive) hi

theorem Lacks.withoutTab (h : e.Lacks tabIndex) (i : ℕ) : (e.withoutTab i).Lacks tabIndex := by
  have htabs : ∀ t ∈ (e.withoutTab i).tabs, t.tabIndex ≠ tabIndex :=
    fun t ht ↦ h.1 t (List.mem_filter.mp ht).1
  refine ⟨htabs, fun hactive ↦ ?_⟩
  by_cases hi : e.activeTab = i
  · exact lacks_of_head htabs ((if_pos hi).symm.trans hactive)
  · obtain ⟨hnone, hzero⟩ := h.2 ((if_neg hi).symm.trans hactive)
    refine ⟨?_, hzero⟩
    rw [SessionEntry.withoutTab, hnone]
    rfl

theorem Lacks.closedPanes (h : e.Lacks tabIndex) : e.closedPanes tabIndex = [] := by
  have hnone : (e.tabs.find? fun t ↦ t.tabIndex = tabIndex) = none :=
    List.find?_eq_none.mpr fun t ht htrue ↦ h.1 t ht (of_decide_eq_true htrue)
  rw [SessionEntry.closedPanes, hnone]
  rfl

/-- Taking the tab out again changes nothing. -/
theorem Lacks.withoutTab_eq (h : e.Lacks tabIndex) : e.withoutTab tabIndex = e := by
  have htabs : (e.tabs.filter fun t ↦ t.tabIndex ≠ tabIndex) = e.tabs :=
    List.filter_eq_self.mpr fun t ht ↦ decide_eq_true (h.1 t ht)
  have hpanes : (e.panes.filter fun p ↦ p.paneIndex ∉ e.closedPanes tabIndex) = e.panes := by
    rw [h.closedPanes]
    exact List.filter_eq_self.mpr fun p _ ↦ decide_eq_true List.not_mem_nil
  rw [SessionEntry.withoutTab, htabs, hpanes]
  split
  case isTrue hactive =>
    obtain ⟨hnone, hzero⟩ := h.2 hactive
    have hfirst : (e.tabs.head?.map TabInfo.tabIndex).getD 0 = e.activeTab := by
      rw [hnone, hactive, hzero]
      rfl
    rw [hfirst]
  case isFalse => rfl

end SessionEntry

namespace SessionManager

/-- The message does not bring back a tab. -/
def QuietTab (m : SessionManager) (word : WordId) (tabIndex : ℕ) : Inbound → Prop
  | .sessionListResult sessions => ∀ e ∈ findSession sessions word, e.Lacks tabIndex
  | .sessionCreated entry => entry.wordId = word → findSession m.sessionList word = none →
      entry.Lacks tabIndex
  | .tabCreated w tab => w = word →
      ∀ e ∈ findSession m.sessionList word, (e.withTab tab).Lacks tabIndex
  | _ => True

/-- Nothing is kept of a tab. -/
structure NoTab (m : SessionManager) (word : WordId) (tabIndex : ℕ) : Prop where
  lacks : ∀ e ∈ findSession m.sessionList word, e.Lacks tabIndex
  offScreen : ¬m.OnScreen word tabIndex

/-! ## A quiet message keeps a tab away -/

variable {m : SessionManager} {word : WordId} {tabIndex : ℕ}

/-- A change of the list that leaves the viewed tab alone. -/
theorem NoTab.relist {m' : SessionManager} (h : m.NoTab word tabIndex)
    (hlacks : ∀ e ∈ findSession m'.sessionList word, e.Lacks tabIndex)
    (hsession : m'.activeSession = m.activeSession) (htab : m'.activeTab = m.activeTab) :
    m'.NoTab word tabIndex :=
  ⟨hlacks, fun honscreen ↦
    h.offScreen ⟨hsession.symm.trans honscreen.1, htab.symm.trans honscreen.2⟩⟩

theorem NoTab.of_sameTab {m' : SessionManager} (h : m.NoTab word tabIndex) (hsame : SameTab m m') :
    m'.NoTab word tabIndex :=
  h.relist (by rw [hsame.list]; exact h.lacks) hsame.session hsame.tab

/-- A view of a tab that the list has is not a view of this one. -/
theorem NoTab.view {m' : SessionManager} (h : m.NoTab word tabIndex)
    (hlist : m'.sessionList = m.sessionList)
    (hview : m'.OnScreen word tabIndex → ∃ e, findSession m.sessionList word = some e ∧
      ∃ t ∈ e.tabs, t.tabIndex = tabIndex) : m'.NoTab word tabIndex := by
  refine ⟨by rw [hlist]; exact h.lacks, fun honscreen ↦ ?_⟩
  obtain ⟨e, he, t, ht, heq⟩ := hview honscreen
  exact (h.lacks e he).1 t ht heq

theorem NoTab.selectSession (h : m.NoTab word tabIndex) (w : WordId) :
    (m.selectSession w).NoTab word tabIndex := by
  rcases Option.eq_none_or_eq_some (findSession m.sessionList w) with he | ⟨e, he⟩
  · rw [selectSession_of_unlisted he]
    exact h
  · refine h.view (sessionList_selectSession m w) fun honscreen ↦ ?_
    rw [selectSession_of_find he] at honscreen
    have hsame := (sameTab_setVisibleSet
      { m with activeSession := some w, activeTab := e.viewedTab.map TabInfo.tabIndex }
      (e.view w).2).trans (sameTab_focusFromTab _ w (e.view w).1)
    obtain rfl : w = word := Option.some_inj.mp (hsame.session.symm.trans honscreen.1)
    obtain ⟨t, ht, heq⟩ := Option.map_eq_some_iff.mp (hsame.tab.symm.trans honscreen.2)
    exact ⟨e, he, t, mem_tabs_of_viewedTab ht, heq⟩

theorem NoTab.selectTab (h : m.NoTab word tabIndex) (i : ℕ) :
    (m.selectTab i).NoTab word tabIndex := by
  rcases selectTab_cases m i with heq | ⟨w, v, hw, hv, heq⟩
  · rw [heq]
    exact h
  · refine h.view (sessionList_selectTab m i).1 fun honscreen ↦ ?_
    rw [heq] at honscreen
    have hsame := (sameTab_setVisibleSet { m with activeTab := some i } v.2).trans
      (sameTab_focusFromTab _ w v.1)
    obtain rfl : w = word :=
      Option.some_inj.mp ((hw.symm.trans hsame.session.symm).trans honscreen.1)
    obtain rfl : i = tabIndex := Option.some_inj.mp (hsame.tab.symm.trans honscreen.2)
    obtain ⟨e, he, hv⟩ := Option.bind_eq_some_iff.mp hv
    obtain ⟨t, ht, -⟩ := Option.map_eq_some_iff.mp hv
    have hindex := List.find?_some ht
    exact ⟨e, he, t, List.mem_of_find?_eq_some ht, of_decide_eq_true hindex⟩

theorem NoTab.selectPane (h : m.NoTab word tabIndex) (q : PaneId) :
    (m.selectPane q).NoTab word tabIndex := by
  rw [SessionManager.selectPane]
  generalize 3 = rounds
  induction rounds generalizing m with
  | zero => exact h.of_sameTab ⟨rfl, rfl, rfl, rfl⟩
  | succ rounds ih =>
    rcases Option.eq_none_or_eq_some (locatePane m.sessionList q) with hloc | ⟨i, hloc⟩
    · rw [selectPaneWithin_of_unlisted hloc]
      exact h.of_sameTab (sameTab_showAlone m q)
    · have hviewed : (m.viewPane q i).NoTab word tabIndex := by
        rw [SessionManager.viewPane]
        split
        · exact h.selectSession q.1
        · split
          · exact h.selectTab i
          · exact h
      rw [selectPaneWithin_of_located hloc]
      split
      · exact hviewed.of_sameTab (sameTab_publishFocus _ q)
      · exact ih hviewed

/-- A view without a session or without a tab shows no tab. -/
theorem NoTab.hide {m' : SessionManager} (h : m.NoTab word tabIndex)
    (hlist : m'.sessionList = m.sessionList)
    (hview : m'.activeSession = none ∨ m'.activeTab = none) : m'.NoTab word tabIndex := by
  refine h.view hlist fun honscreen ↦ ?_
  rcases hview with hview | hview
  · exact absurd (hview.symm.trans honscreen.1) (Option.some_ne_none word).symm
  · exact absurd (hview.symm.trans honscreen.2) (Option.some_ne_none tabIndex).symm

theorem NoTab.clearView (h : m.NoTab word tabIndex) : m.clearView.NoTab word tabIndex :=
  h.hide rfl (.inl rfl)

theorem NoTab.hideTab (h : m.NoTab word tabIndex) :
    { m with activeTab := none, visiblePanes := [] }.NoTab word tabIndex :=
  h.hide rfl (.inr rfl)

theorem NoTab.leavePane (h : m.NoTab word tabIndex) : m.leavePane.NoTab word tabIndex := by
  rw [SessionManager.leavePane]
  split
  · split
    · have hhidden : { m with activeTab := none }.NoTab word tabIndex := h.hide rfl (.inr rfl)
      exact hhidden.selectPane _
    · exact h.selectSession _
  · exact h.hide rfl (.inl rfl)

theorem NoTab.leaveSession (h : m.NoTab word tabIndex) (w : WordId) :
    (m.leaveSession w).NoTab word tabIndex := by
  have hforgotten := h.of_sameTab (sameTab_foldl sameTab_forgetPane (m.sessionPaneIds w) m)
  rw [SessionManager.leaveSession]
  split
  · split
    · exact hforgotten.clearView.selectSession _
    · exact hforgotten.clearView
  · exact hforgotten

theorem NoTab.reconcileView (h : m.NoTab word tabIndex) : m.reconcileView.NoTab word tabIndex := by
  rw [SessionManager.reconcileView]
  split
  · split
    · have hcleared : { m with pendingSelectPane := none }.NoTab word tabIndex :=
        h.relist h.lacks rfl rfl
      exact hcleared.selectPane _
    · exact h
  · split
    · split
      · exact h.selectSession _
      · exact h
    · rw [SessionManager.reconcileViewedTab]
      split
      · exact h.selectSession _
      · split
        · exact h
        · split
          · exact h.of_sameTab (sameTab_setVisibleSet m _)
          · exact h.selectSession _

theorem NoTab.onPaneGone (h : m.NoTab word tabIndex) (q : PaneId) :
    (m.onPaneGone q).1.NoTab word tabIndex := by
  have hdropped : (m.dropPane q).NoTab word tabIndex := by
    refine h.relist (fun e he ↦ ?_) rfl rfl
    have hfound := findSession_map (f := dropFrom q) (fun _ ↦ rfl) m.sessionList word
    obtain ⟨e', he', rfl⟩ := Option.map_eq_some_iff.mp (hfound.symm.trans he)
    exact h.lacks e' he'
  rw [SessionManager.onPaneGone]
  split
  · dsimp only
    split
    · split
      · exact hdropped.relist hdropped.lacks rfl rfl
      · exact hdropped.leavePane
    · exact hdropped
  · exact h

/-- The entries that are left lack the tab. -/
theorem lacks_filter {sessions : List SessionEntry}
    (h : ∀ e ∈ findSession sessions word, e.Lacks tabIndex) (w : WordId) :
    ∀ e ∈ findSession (sessions.filter fun e ↦ e.wordId ≠ w) word, e.Lacks tabIndex := by
  intro e he
  by_cases hw : word = w
  · have hkept : e.wordId ≠ w := of_decide_eq_true (List.mem_filter.mp (mem_of_findSession he)).2
    exact absurd ((wordId_of_findSession he).trans hw) hkept
  · have hkeep : ∀ e : SessionEntry, e.wordId = word → decide (e.wordId ≠ w) = true :=
      fun e heq ↦ decide_eq_true (heq.symm ▸ hw)
    exact h e ((findSession_filter hkeep sessions).symm.trans he)

theorem NoTab.onSessionGone (h : m.NoTab word tabIndex) (w : WordId) :
    (m.onSessionGone w).1.NoTab word tabIndex := by
  have hsame := sameTab_foldl sameTab_forgetPane (m.sessionPaneIds w) m
  have hdropped : { (m.sessionPaneIds w).foldl SessionManager.forgetPane m with
      sessionList := m.sessionList.filter fun e ↦ e.wordId ≠ w }.NoTab word tabIndex :=
    h.relist (lacks_filter h.lacks w) hsame.session hsame.tab
  rw [SessionManager.onSessionGone]
  split
  · dsimp only
    split
    · split
      · exact hdropped.clearView.selectSession _
      · exact hdropped.clearView
    · exact hdropped
  · exact h

theorem lacks_modifySession {sessions : List SessionEntry} {f : SessionEntry → SessionEntry}
    (h : ∀ e ∈ findSession sessions word, e.Lacks tabIndex) {w : WordId}
    (hword : ∀ e, (f e).wordId = e.wordId)
    (hf : w = word → ∀ e ∈ findSession sessions word, (f e).Lacks tabIndex) :
    ∀ e ∈ findSession (modifySession w f sessions) word, e.Lacks tabIndex := by
  intro e he
  by_cases hw : w = word
  · subst hw
    obtain ⟨e', he', rfl⟩ :=
      Option.map_eq_some_iff.mp ((findSession_modifySession hword sessions w).symm.trans he)
    exact hf rfl e' he'
  · refine h e ?_
    exact (findSession_modifySession_of_ne hword sessions (Ne.symm hw)).symm.trans he

theorem NoTab.followTab (h : m.NoTab word tabIndex) (w : WordId) (i : ℕ) :
    (m.followTab w i).NoTab word tabIndex := by
  rw [SessionManager.followTab]
  split
  · split
    · exact h.of_sameTab ((sameTab_setVisibleSet m _).trans (sameTab_focusFromTab _ _ _))
    · exact h
  · exact h

theorem NoTab.onTabGone (h : m.NoTab word tabIndex) (w : WordId) (i : ℕ) :
    (m.onTabGone w i).NoTab word tabIndex := by
  have hpruned : { m with
      sessionList := modifySession w (·.withoutTab i) m.sessionList }.NoTab word tabIndex :=
    h.relist (lacks_modifySession h.lacks (fun _ ↦ rfl) fun _ e he ↦ (h.lacks e he).withoutTab i)
      rfl rfl
  have hforgotten := hpruned.of_sameTab (sameTab_foldl sameTab_forgetPane
    ((((findSession m.sessionList w).map (·.closedPanes i)).getD []).map fun j ↦ (w, j)) _)
  have hhidden := hforgotten.hideTab
  rw [SessionManager.onTabGone]
  dsimp only
  split
  · split
    · exact hhidden.selectTab _
    · exact hhidden.relist hhidden.lacks rfl rfl
  · exact hforgotten

theorem NoTab.requestSessionList (h : m.NoTab word tabIndex) :
    m.requestSessionList.NoTab word tabIndex := by
  refine NoTab.of_sameTab ?_ (sameTab_send _ _)
  exact h.relist h.lacks rfl rfl

theorem NoTab.resyncUnlessCached (h : m.NoTab word tabIndex) (cached : Bool) :
    (m.resyncUnlessCached cached).NoTab word tabIndex := by
  rw [SessionManager.resyncUnlessCached]
  split
  · exact h
  · exact h.requestSessionList

theorem NoTab.forgetUnlistedSessions (h : m.NoTab word tabIndex) (listed : List SessionEntry) :
    (m.forgetUnlistedSessions listed).1.NoTab word tabIndex := by
  refine forgetUnlistedSessions_rule (P := (·.NoTab word tabIndex))
    (Q := (·.NoTab word tabIndex)) h (fun _ hP ↦ hP) ?_ ?_
  · intro m' w hP _ _ _
    exact NoTab.onSessionGone hP w
  · intro m' w hP _ _ _ _
    exact NoTab.onSessionGone hP w

/-- **A quiet message does not list the tab and does not show it.** -/
theorem NoTab.receive (h : m.NoTab word tabIndex) {msg : Inbound}
    (hquiet : m.QuietTab word tabIndex msg) : (m.receive msg).NoTab word tabIndex := by
  rw [SessionManager.receive]
  cases msg with
  | stream q msg => exact h.of_sameTab (sameTab_onPane m q (·.handleServerMessage msg))
  | sessionListResult sessions =>
    have hforgotten := h.forgetUnlistedSessions sessions
    have hlisted : { (m.forgetUnlistedSessions sessions).1 with
        sessionList := sessions }.NoTab word tabIndex := hforgotten.relist hquiet rfl rfl
    exact (hlisted.of_sameTab (sameTab_ensurePanes _ _)).reconcileView
  | sessionCreated entry =>
    have hsame := sameTab_ensurePanes m entry.panes
    have hlisted : { m.ensurePanes entry.panes with
        sessionList := (m.ensurePanes entry.panes).sessionList ++ [entry] }.NoTab word
          tabIndex := by
      refine h.relist (fun e he ↦ ?_) hsame.session hsame.tab
      dsimp only at he
      rw [hsame.list, findSession, List.find?_append, Option.mem_def, Option.or_eq_some_iff] at he
      rcases he with he | ⟨hnone, he⟩
      · exact h.lacks e he
      · have hfound := List.find?_some he
        obtain rfl := List.mem_singleton.mp (List.mem_of_find?_eq_some he)
        exact hquiet (of_decide_eq_true hfound) hnone
    exact hlisted.selectSession entry.wordId
  | sessionClosed w => exact h.onSessionGone w
  | sessionKicked w => exact h.leaveSession w
  | paneCreated q w =>
    have hsame := sameTab_onPane m q PaneSession.ensurePane
    refine NoTab.requestSessionList ?_
    refine h.relist ?_ hsame.session hsame.tab
    rw [SessionManager.ensurePane, hsame.list]
    exact lacks_modifySession h.lacks (fun e ↦ wordId_withPane e _)
      fun _ e he ↦ (h.lacks e he).withPane _
  | paneClosed q => exact h.onPaneGone q
  | paneSplit w i newPane layout =>
    have hsame := sameTab_onPane m newPane.paneId PaneSession.ensurePane
    refine NoTab.followTab ?_ w i
    refine h.relist ?_ hsame.session hsame.tab
    rw [SessionManager.ensurePane, hsame.list]
    exact lacks_modifySession h.lacks (fun e ↦ wordId_withPane e newPane)
      fun _ e he ↦ ((h.lacks e he).withPane newPane).withLayout i layout newPane.paneIndex
  | layoutUpdate w i layout focusedPane =>
    refine NoTab.followTab ?_ w i
    exact h.relist (lacks_modifySession h.lacks (fun _ ↦ rfl)
      fun _ e he ↦ (h.lacks e he).withLayout i layout focusedPane) rfl rfl
  | tabCreated w tab =>
    have hadded : { m with
        sessionList := modifySession w (·.withTab tab) m.sessionList }.NoTab word tabIndex :=
      h.relist (lacks_modifySession h.lacks (fun e ↦ wordId_withTab e tab) hquiet) rfl rfl
    rw [handleServerMessage, SessionManager.onTabCreated]
    dsimp only
    split
    · exact hadded.selectTab tab.tabIndex
    · exact hadded
  | tabClosed w i => exact h.onTabGone w i
  | tabsReordered w tabIndices =>
    exact h.relist (lacks_modifySession h.lacks (fun _ ↦ rfl)
      fun _ e he ↦ (h.lacks e he).reordered tabIndices) rfl rfl
  | sessionCreatedEvent w => exact h.resyncUnlessCached _
  | tabCreatedEvent w i => exact h.resyncUnlessCached _
  | paneSpawned q => exact h.resyncUnlessCached _

theorem noTab_hidden
    (hlacks : ∀ e ∈ findSession m.sessionList word, e.Lacks tabIndex) :
    { m with activeTab := none, visiblePanes := [] }.NoTab word tabIndex :=
  ⟨hlacks, fun honscreen ↦ Option.some_ne_none tabIndex honscreen.2.symm⟩

/-- The tab is gone for the client once it is told so. -/
theorem noTab_onTabGone (m : SessionManager) (word : WordId) (tabIndex : ℕ) :
    (m.onTabGone word tabIndex).NoTab word tabIndex := by
  have hlacks : ∀ e ∈ findSession (modifySession word (·.withoutTab tabIndex) m.sessionList) word,
      e.Lacks tabIndex := by
    intro e he
    have hfound := findSession_modifySession (f := (·.withoutTab tabIndex)) (fun _ ↦ rfl)
      m.sessionList word
    obtain ⟨e', -, rfl⟩ := Option.map_eq_some_iff.mp (hfound.symm.trans he)
    exact SessionEntry.lacks_withoutTab e' tabIndex
  have hsame := sameTab_foldl sameTab_forgetPane
    ((((findSession m.sessionList word).map (·.closedPanes tabIndex)).getD []).map
      fun i ↦ (word, i))
    { m with sessionList := modifySession word (·.withoutTab tabIndex) m.sessionList }
  replace hlacks := (congrArg (fun sessions ↦ ∀ e ∈ findSession sessions word, e.Lacks tabIndex)
    hsame.list).mpr hlacks
  rw [SessionManager.onTabGone]
  dsimp only
  split
  case isTrue =>
    have hhidden := noTab_hidden hlacks
    split
    case h_1 => exact hhidden.selectTab _
    case h_2 => exact hhidden.relist hhidden.lacks rfl rfl
  case isFalse hoff =>
    refine ⟨hlacks, fun honscreen ↦ hoff ⟨?_, ?_⟩⟩
    · exact hsame.session.symm.trans honscreen.1
    · exact hsame.tab.symm.trans honscreen.2

theorem modifyFirst_eq_self {α : Type*} {p : α → Bool} {f : α → α} {xs : List α}
    (h : ∀ x ∈ xs.find? p, f x = x) : modifyFirst p f xs = xs := by
  induction xs with
  | nil => rfl
  | cons x xs ih =>
    rw [modifyFirst]
    split
    case isTrue hx => rw [h x (List.find?_cons_of_pos hx)]
    case isFalse hx => rw [ih fun y hy ↦ h y ((List.find?_cons_of_neg hx).trans hy)]

/-- Being told again changes nothing. -/
theorem NoTab.onTabGone_eq (h : m.NoTab word tabIndex) : m.onTabGone word tabIndex = m := by
  have hlist : modifySession word (·.withoutTab tabIndex) m.sessionList = m.sessionList :=
    modifyFirst_eq_self fun e he ↦ (h.lacks e he).withoutTab_eq
  have hclosed :
      ((findSession m.sessionList word).map (·.closedPanes tabIndex)).getD [] = [] := by
    rcases Option.eq_none_or_eq_some (findSession m.sessionList word) with he | ⟨e, he⟩
    · rw [he]
      rfl
    · rw [he, Option.map_some, Option.getD_some, (h.lacks e he).closedPanes]
  rw [SessionManager.onTabGone, hlist, hclosed]
  exact if_neg h.offScreen

end SessionManager

end Client

end Kmux
