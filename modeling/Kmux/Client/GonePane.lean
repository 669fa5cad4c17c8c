import Kmux.Client.ServerHandler

/-!
# A pane that is gone

What the client keeps of a pane is its grid, its sync state, its place on screen and its place in
the cached list. Once all of it is gone, what brings it back is a late frame, since the handlers of
the data stream make sync state and a grid for any pane; a list, a reply or a layout that was made
before the pane closed; and moving the view to a tab whose cached layout still contains the pane.

`QuietPane` is the condition that a message does nothing of the kind, and `NoPane.receive` says that
such a message leaves the pane gone.
-/

namespace Kmux

namespace Client

/-! ## What brings it back -/

/-- Selecting the session does not show the pane. -/
def SparesSession (pane : PaneId) (sessions : List SessionEntry) (word : WordId) : Prop :=
  ∀ e ∈ findSession sessions word, pane ∉ (e.view word).2

/-- The cached layout of the tab does not contain the pane. -/
def SparesTab (pane : PaneId) (sessions : List SessionEntry) (word : WordId) (tabIndex : ℕ) :
    Prop :=
  ∀ v ∈ tabView sessions word tabIndex, pane ∉ v.2

/-- An entry contains the pane neither in its list of panes nor in a layout. -/
def SessionEntry.Names (e : SessionEntry) (pane : PaneId) : Prop :=
  (∃ q ∈ e.panes, q.paneId = pane) ∨ (e.wordId = pane.1 ∧ ∃ t ∈ e.tabs, pane.2 ∈ t.layout.leaves)

namespace SessionManager

/-- The tab is on screen. -/
def OnScreen (m : SessionManager) (word : WordId) (tabIndex : ℕ) : Prop :=
  m.activeSession = some word ∧ m.activeTab = some tabIndex

/-- Selecting a pane does not show the other one. -/
def SelectSpares (m : SessionManager) (pane selected : PaneId) : Prop :=
  match locatePane m.sessionList selected with
  | some tabIndex =>
    (m.activeSession ≠ some selected.1 → SparesSession pane m.sessionList selected.1) ∧
      SparesTab pane m.sessionList selected.1 tabIndex
  | none => selected ≠ pane

/-- Moving the view off the active pane, which is gone, does not show the pane. -/
def LeaveSpares (m : SessionManager) (pane : PaneId) : Prop :=
  match m.findFallbackPane with
  | some (word, fallback) =>
    if m.activeSession = some word then m.SelectSpares pane fallback
    else SparesSession pane m.sessionList word
  | none => True

/-- Moving the view to the given session does not show the pane. -/
def NextSpares (pane : PaneId) (sessions : List SessionEntry) (next : Option SessionEntry) : Prop :=
  ∀ e ∈ next, SparesSession pane sessions e.wordId

/-- The message does not bring back a pane. -/
def QuietPane (m : SessionManager) (pane : PaneId) : Inbound → Prop
  | .stream q msg => q = pane → (∃ seqno hash, msg = .gridDigest seqno hash) ∨
      ∃ requestId firstIndex lines historyTotal,
        msg = .historyLines requestId firstIndex lines historyTotal
  | .sessionListResult sessions => (∀ e ∈ sessions, ¬e.Names pane) ∧
      ∀ word, m.activeSession = some word → m.knowsSession word = true →
        (∀ e ∈ sessions, e.wordId ≠ word) → NextSpares pane m.sessionList
          (m.sessionList.find? fun e ↦ sessions.any fun e' ↦ e'.wordId = e.wordId)
  | .sessionCreated entry => (∀ q ∈ entry.panes, q.paneId ≠ pane) ∧
      SparesSession pane (m.sessionList ++ [entry]) entry.wordId
  | .sessionClosed word => m.activeSession = some word → m.knowsSession word = true →
      NextSpares pane m.sessionList (m.sessionList.find? fun e ↦ e.wordId ≠ word)
  | .sessionKicked word => m.activeSession = some word →
      NextSpares pane m.sessionList (m.sessionList.find? fun e ↦ e.wordId ≠ word)
  | .paneCreated q _ => q ≠ pane
  | .paneClosed q => q ≠ pane → m.knowsPane q = true → m.activePane = some q →
      (m.visiblePanes.filter fun p ↦ p ≠ q) = [] → (m.dropPane q).LeaveSpares pane
  | .paneSplit word tabIndex newPane layout => newPane.paneId ≠ pane ∧
      (m.OnScreen word tabIndex → (tabView m.sessionList word tabIndex).isSome →
        pane.1 = word → pane.2 ∉ layout.leaves)
  | .layoutUpdate word tabIndex layout _ =>
      m.OnScreen word tabIndex → (tabView m.sessionList word tabIndex).isSome →
        pane.1 = word → pane.2 ∉ layout.leaves
  | .tabCreated word tab => m.activeSession = some word →
      SparesTab pane (modifySession word (·.withTab tab) m.sessionList) word tab.tabIndex
  | .tabClosed word tabIndex => m.OnScreen word tabIndex →
      ∀ e ∈ findSession m.sessionList word, ∀ t ∈ (e.withoutTab tabIndex).tabs.head?,
        pane.1 = word → pane.2 ∉ t.layout.leaves
  | _ => True

/-! ## Nothing is kept -/

def receive (m : SessionManager) (msg : Inbound) : SessionManager := (m.handleServerMessage msg).1

/-- Nothing is kept of a pane. -/
structure NoPane (m : SessionManager) (pane : PaneId) : Prop where
  buffer : m.buffers pane = none
  sync : m.paneSync pane = none
  visible : pane ∉ m.visiblePanes

/-- No entry lists the pane. -/
def Unlisted (pane : PaneId) (sessions : List SessionEntry) : Prop :=
  ∀ e ∈ sessions, ∀ q ∈ e.panes, q.paneId ≠ pane

variable {m : SessionManager} {pane : PaneId}

/-- A change that leaves the pane's entries and the visible set alone. -/
theorem NoPane.of_eq {m' : SessionManager} (h : m.NoPane pane) (hbuffer : m'.buffers = m.buffers)
    (hsync : m'.paneSync = m.paneSync) (hvisible : m'.visiblePanes = m.visiblePanes) :
    m'.NoPane pane :=
  ⟨by rw [hbuffer, h.buffer], by rw [hsync, h.sync], by rw [hvisible]; exact h.visible⟩

theorem NoPane.send (h : m.NoPane pane) (msgs : List Outbound) : (m.send msgs).NoPane pane := by
  rw [SessionManager.send]
  split
  · exact h.of_eq rfl rfl rfl
  · exact h

theorem NoPane.onPane {q : PaneId} (h : m.NoPane pane) (hq : q ≠ pane)
    (f : PaneSession → PaneSession) : (m.onPane q f).NoPane pane := by
  rw [SessionManager.onPane]
  refine NoPane.send ?_ _
  exact ⟨(Function.update_of_ne hq.symm _ _).trans h.buffer,
    (Function.update_of_ne hq.symm _ _).trans h.sync, h.visible⟩

theorem NoPane.detachPane (h : m.NoPane pane) (q : PaneId) : (m.detachPane q).NoPane pane := by
  have hsent := h.send [.detach q]
  refine ⟨hsent.buffer, ?_, hsent.visible⟩
  by_cases hq : pane = q
  · subst hq
    exact Function.update_self _ _ _
  · exact (Function.update_of_ne hq _ _).trans h.sync

theorem NoPane.forgetPane (h : m.NoPane pane) (q : PaneId) : (m.forgetPane q).NoPane pane := by
  by_cases hq : pane = q
  · subst hq
    exact ⟨Function.update_self _ _ _, Function.update_self _ _ _, h.visible⟩
  · exact ⟨(Function.update_of_ne hq _ _).trans h.buffer,
      (Function.update_of_ne hq _ _).trans h.sync, h.visible⟩

theorem NoPane.foldl {α : Type*} {f : SessionManager → α → SessionManager} {xs : List α}
    (hf : ∀ m, m.NoPane pane → ∀ x ∈ xs, (f m x).NoPane pane) (h : m.NoPane pane) :
    (xs.foldl f m).NoPane pane := by
  induction xs generalizing m with
  | nil => exact h
  | cons x xs ih =>
    exact ih (fun m hm y hy ↦ hf m hm y (List.mem_cons_of_mem x hy)) (hf m h x List.mem_cons_self)

theorem NoPane.forgetPanes (h : m.NoPane pane) (panes : List PaneId) :
    (panes.foldl SessionManager.forgetPane m).NoPane pane :=
  NoPane.foldl (fun _ hm q _ ↦ NoPane.forgetPane hm q) h

theorem NoPane.setVisibleSet (h : m.NoPane pane) {new : List PaneId} (hnew : pane ∉ new) :
    (m.setVisibleSet new).NoPane pane := by
  have hdetached :
      ((m.visiblePanes.filter fun p ↦ p ∉ new).foldl SessionManager.detachPane m).NoPane pane :=
    NoPane.foldl (fun m hm q _ ↦ NoPane.detachPane hm q) h
  have hattached := @NoPane.foldl _ _ _ resync (new.filter fun p ↦ p ∉ m.visiblePanes)
    (fun m hm q hq ↦ hm.onPane (ne_of_mem_of_not_mem (List.mem_filter.mp hq).1 hnew)
      PaneSession.resync) hdetached
  exact ⟨hattached.buffer, hattached.sync, hnew⟩

theorem NoPane.focusFromTab (h : m.NoPane pane) (word : WordId) (focus : ℕ) :
    (m.focusFromTab word focus).NoPane pane := h.of_eq rfl rfl rfl

theorem NoPane.selectSession (h : m.NoPane pane) {word : WordId}
    (hspares : SparesSession pane m.sessionList word) : (m.selectSession word).NoPane pane := by
  rcases Option.eq_none_or_eq_some (findSession m.sessionList word) with he | ⟨e, he⟩
  · rw [selectSession_of_unlisted he]
    exact h
  · rw [selectSession_of_find he]
    refine NoPane.focusFromTab (NoPane.setVisibleSet ?_ (hspares e he)) word _
    exact h.of_eq rfl rfl rfl

theorem NoPane.selectTab (h : m.NoPane pane) {tabIndex : ℕ}
    (hspares : ∀ word, m.activeSession = some word → SparesTab pane m.sessionList word tabIndex) :
    (m.selectTab tabIndex).NoPane pane := by
  rcases selectTab_cases m tabIndex with heq | ⟨word, v, hword, hv, heq⟩
  · rw [heq]
    exact h
  · rw [heq]
    refine NoPane.focusFromTab (NoPane.setVisibleSet ?_ (hspares word hword v hv)) word v.1
    exact h.of_eq rfl rfl rfl

theorem NoPane.publishFocus (h : m.NoPane pane) (q : PaneId) :
    (m.publishFocus q).NoPane pane := by
  rw [SessionManager.publishFocus]
  split
  · refine NoPane.send ?_ _
    exact h.of_eq rfl rfl rfl
  · exact h.of_eq rfl rfl rfl

theorem NoPane.showAlone (h : m.NoPane pane) {q : PaneId} (hq : q ≠ pane) :
    (m.showAlone q).NoPane pane := by
  have hshown := (h.send ((m.visiblePanes.filter fun p ↦ p ≠ q).map .detach)).onPane hq
    PaneSession.resync
  refine ⟨hshown.buffer, hshown.sync, ?_⟩
  exact fun hmem ↦ hq (List.mem_singleton.mp hmem).symm

theorem NoPane.viewPane (h : m.NoPane pane) {q : PaneId} {tabIndex : ℕ}
    (hsession : m.activeSession ≠ some q.1 → SparesSession pane m.sessionList q.1)
    (htab : SparesTab pane m.sessionList q.1 tabIndex) : (m.viewPane q tabIndex).NoPane pane := by
  rw [SessionManager.viewPane]
  split
  case isTrue hne => exact h.selectSession (hsession hne)
  case isFalse heq =>
    split
    · refine h.selectTab fun word hword ↦ ?_
      have hword : q.1 = word := Option.some_inj.mp ((not_not.mp heq).symm.trans hword)
      exact hword ▸ htab
    · exact h

theorem NoPane.selectPane (h : m.NoPane pane) {q : PaneId} (hspares : m.SelectSpares pane q) :
    (m.selectPane q).NoPane pane := by
  rw [SessionManager.selectPane]
  generalize 3 = rounds
  induction rounds generalizing m with
  | zero => exact h.of_eq rfl rfl rfl
  | succ rounds ih =>
    rcases Option.eq_none_or_eq_some (locatePane m.sessionList q) with hloc | ⟨tabIndex, hloc⟩
    · rw [SelectSpares, hloc] at hspares
      rw [selectPaneWithin_of_unlisted hloc]
      exact h.showAlone hspares
    · rw [SelectSpares, hloc] at hspares
      have hviewed := h.viewPane hspares.1 hspares.2
      rw [selectPaneWithin_of_located hloc]
      split
      · exact hviewed.publishFocus q
      · refine ih hviewed ?_
        rw [SelectSpares, sessionList_viewPane, hloc]
        exact ⟨fun hne ↦ absurd (activeSession_viewPane hloc) hne, hspares.2⟩

theorem NoPane.leavePane (h : m.NoPane pane) (hspares : m.LeaveSpares pane) :
    m.leavePane.NoPane pane := by
  rw [SessionManager.leavePane]
  rw [LeaveSpares] at hspares
  split
  case h_1 word fallback heq =>
    rw [heq] at hspares
    dsimp only at hspares
    split
    case isTrue hword =>
      rw [if_pos hword] at hspares
      have hmoved : { m with activeTab := none }.NoPane pane := h.of_eq rfl rfl rfl
      exact hmoved.selectPane hspares
    case isFalse hword =>
      rw [if_neg hword] at hspares
      exact h.selectSession hspares
  case h_2 => exact ⟨h.buffer, h.sync, List.not_mem_nil⟩

theorem NoPane.dropPane (h : m.NoPane pane) (q : PaneId) : (m.dropPane q).NoPane pane :=
  ⟨(h.forgetPane q).buffer, (h.forgetPane q).sync,
    fun hmem ↦ h.visible (List.mem_filter.mp hmem).1⟩

/-- Dropping a pane keeps nothing of it. -/
theorem noPane_dropPane (m : SessionManager) (pane : PaneId) : (m.dropPane pane).NoPane pane :=
  ⟨Function.update_self _ _ _, Function.update_self _ _ _,
    fun hmem ↦ of_decide_eq_true (List.mem_filter.mp hmem).2 rfl⟩

theorem onPaneGone_of_unknown {q : PaneId} (h : m.knowsPane q = false) :
    m.onPaneGone q = (m, none) := by
  rw [SessionManager.onPaneGone, h]
  rfl

theorem noPane_onPaneGone {q : PaneId} (hknown : m.knowsPane q = true)
    (h : (m.dropPane q).NoPane pane)
    (hspares : m.activePane = some q → (m.visiblePanes.filter fun p ↦ p ≠ q) = [] →
      (m.dropPane q).LeaveSpares pane) : (m.onPaneGone q).1.NoPane pane := by
  rw [SessionManager.onPaneGone, if_pos hknown]
  dsimp only
  split
  case isTrue hactive =>
    split
    · exact h.of_eq rfl rfl rfl
    case h_2 hnone => exact h.leavePane (hspares hactive (List.head?_eq_none_iff.mp hnone))
  case isFalse => exact h

theorem NoPane.clearView (h : m.NoPane pane) : m.clearView.NoPane pane :=
  ⟨h.buffer, h.sync, List.not_mem_nil⟩

theorem onSessionGone_of_unknown {word : WordId} (h : m.knowsSession word = false) :
    m.onSessionGone word = (m, none) := by
  rw [SessionManager.onSessionGone, h]
  rfl

/-- The session that comes next does not show the pane, so it does not without the closed one. -/
theorem SparesSession.filter {sessions : List SessionEntry} {keep : SessionEntry → Bool}
    {word : WordId} (h : SparesSession pane sessions word)
    (hkeep : ∀ e, e.wordId = word → keep e = true) :
    SparesSession pane (sessions.filter keep) word := by
  rw [SparesSession, findSession_filter hkeep]
  exact h

theorem NoPane.onSessionGone (h : m.NoPane pane) {word : WordId}
    (hspares : m.activeSession = some word → m.knowsSession word = true →
      NextSpares pane m.sessionList (m.sessionList.find? fun e ↦ e.wordId ≠ word)) :
    (m.onSessionGone word).1.NoPane pane := by
  rw [SessionManager.onSessionGone]
  split
  case isTrue hknown =>
    have hforgotten := h.forgetPanes (m.sessionPaneIds word)
    have hdropped :
        { (m.sessionPaneIds word).foldl SessionManager.forgetPane m with
          sessionList := m.sessionList.filter fun e ↦ e.wordId ≠ word }.NoPane pane :=
      hforgotten.of_eq rfl rfl rfl
    dsimp only
    split
    case isTrue hactive =>
      split
      case h_1 next hnext =>
        refine NoPane.selectSession hdropped.clearView ?_
        rw [List.head?_filter] at hnext
        refine SparesSession.filter (hspares hactive hknown next hnext) fun e he ↦ ?_
        have hother := List.find?_some hnext
        exact he.symm ▸ hother
      case h_2 => exact hdropped.clearView
    case isFalse => exact hdropped
  case isFalse => exact h

theorem NoPane.leaveSession (h : m.NoPane pane) {word : WordId}
    (hspares : m.activeSession = some word →
      NextSpares pane m.sessionList (m.sessionList.find? fun e ↦ e.wordId ≠ word)) :
    (m.leaveSession word).NoPane pane := by
  have hforgotten := h.forgetPanes (m.sessionPaneIds word)
  rw [SessionManager.leaveSession]
  split
  case isTrue hactive =>
    split
    case h_1 next hnext =>
      refine NoPane.selectSession hforgotten.clearView ?_
      have hlist := sessionList_foldl_forgetPane (m.sessionPaneIds word) m
      exact hlist.symm ▸ hspares hactive next hnext
    case h_2 => exact hforgotten.clearView
  case isFalse => exact hforgotten

/-- The tab that comes next is the one that its index finds. -/
theorem tabView_withoutTab {sessions : List SessionEntry} {word : WordId} {e : SessionEntry}
    {tabIndex : ℕ} {t : TabInfo} (he : findSession sessions word = some e)
    (ht : (e.withoutTab tabIndex).tabs.head? = some t) :
    tabView (modifySession word (·.withoutTab tabIndex) sessions) word t.tabIndex =
      some (t.focusedPane, t.layout.leaves.map fun i ↦ (word, i)) := by
  have hfound : ((e.withoutTab tabIndex).tabs.find? fun u ↦ u.tabIndex = t.tabIndex) = some t := by
    obtain ⟨ts, hts⟩ := List.head?_eq_some_iff.mp ht
    rw [hts]
    exact List.find?_cons_of_pos (decide_eq_true rfl)
  have hentry :=
    findSession_modifySession (f := (·.withoutTab tabIndex)) (fun _ ↦ rfl) sessions word
  rw [tabView, hentry, he, Option.map_some, Option.bind_some,
    hfound, Option.map_some]

theorem NoPane.hideTab (h : m.NoPane pane) :
    { m with activeTab := none, visiblePanes := [] }.NoPane pane :=
  ⟨h.buffer, h.sync, List.not_mem_nil⟩

theorem NoPane.onTabGone (h : m.NoPane pane) {word : WordId} {tabIndex : ℕ}
    (hspares : m.OnScreen word tabIndex → ∀ e ∈ findSession m.sessionList word,
      ∀ t ∈ (e.withoutTab tabIndex).tabs.head?, pane.1 = word → pane.2 ∉ t.layout.leaves) :
    (m.onTabGone word tabIndex).NoPane pane := by
  rw [SessionManager.onTabGone]
  have hpruned :
      { m with sessionList := modifySession word (·.withoutTab tabIndex) m.sessionList }.NoPane
        pane := h.of_eq rfl rfl rfl
  have hforgotten := hpruned.forgetPanes
    ((((findSession m.sessionList word).map (·.closedPanes tabIndex)).getD []).map
      fun i ↦ (word, i))
  dsimp only
  split
  case isTrue honscreen =>
    split
    case h_1 next hnext =>
      obtain ⟨e, he, hnext⟩ := Option.bind_eq_some_iff.mp hnext
      obtain ⟨t, ht, rfl⟩ := Option.map_eq_some_iff.mp hnext
      refine hforgotten.hideTab.selectTab ?_
      intro word' hword' v hv hmem
      have hsame := sameTab_foldl sameTab_forgetPane
        ((((findSession m.sessionList word).map (·.closedPanes tabIndex)).getD []).map
          fun i ↦ (word, i))
        { m with sessionList := modifySession word (·.withoutTab tabIndex) m.sessionList }
      obtain rfl : word = word' :=
        Option.some_inj.mp ((honscreen.1.symm.trans hsame.session.symm).trans hword')
      rw [Option.mem_def] at hv
      dsimp only at hv
      rw [hsame.list, tabView_withoutTab he ht, Option.some_inj] at hv
      subst hv
      obtain ⟨i, hi, heq⟩ := List.mem_map.mp hmem
      subst heq
      exact hspares honscreen e he t ht rfl hi
    case h_2 => exact hforgotten.hideTab.of_eq rfl rfl rfl
  case isFalse => exact hforgotten

theorem NoPane.ensurePanes (h : m.NoPane pane) {panes : List PaneInfo}
    (hpanes : ∀ q ∈ panes, q.paneId ≠ pane) : (m.ensurePanes panes).NoPane pane :=
  NoPane.foldl (fun _ hm q hq ↦ NoPane.onPane hm (hpanes q hq) PaneSession.ensurePane) h

theorem NoPane.requestSessionList (h : m.NoPane pane) : m.requestSessionList.NoPane pane := by
  refine NoPane.send ?_ _
  exact h.of_eq rfl rfl rfl

theorem NoPane.resyncUnlessCached (h : m.NoPane pane) (cached : Bool) :
    (m.resyncUnlessCached cached).NoPane pane := by
  rw [SessionManager.resyncUnlessCached]
  split
  · exact h
  · exact h.requestSessionList

theorem mem_tabs_of_viewedTab {e : SessionEntry} {t : TabInfo} (h : e.viewedTab = some t) :
    t ∈ e.tabs := by
  rw [SessionEntry.viewedTab, Option.or_eq_some_iff] at h
  rcases h with h | ⟨-, h⟩
  · exact List.mem_of_find?_eq_some h
  · exact List.mem_of_mem_head? h

/-- A list that does not name the pane does not show it. -/
theorem sparesSession_of_not_names {sessions : List SessionEntry}
    (h : ∀ e ∈ sessions, ¬e.Names pane) (word : WordId) : SparesSession pane sessions word := by
  intro e he hmem
  have hword := wordId_of_findSession he
  refine h e (mem_of_findSession he) ?_
  rw [SessionEntry.view] at hmem
  split at hmem
  case h_1 t ht =>
    obtain ⟨i, hi, rfl⟩ := List.mem_map.mp hmem
    exact .inr ⟨hword, t, mem_tabs_of_viewedTab ht, hi⟩
  case h_2 =>
    split at hmem
    case h_1 q hq =>
      exact .inl ⟨q, List.mem_of_mem_head? hq, (List.mem_singleton.mp hmem).symm⟩
    case h_2 => exact absurd hmem List.not_mem_nil

theorem sparesTab_of_not_names {sessions : List SessionEntry}
    (h : ∀ e ∈ sessions, ¬e.Names pane) (word : WordId) (tabIndex : ℕ) :
    SparesTab pane sessions word tabIndex := by
  intro v hv hmem
  obtain ⟨e, he, hv⟩ := Option.bind_eq_some_iff.mp hv
  obtain ⟨t, ht, rfl⟩ := Option.map_eq_some_iff.mp hv
  obtain ⟨i, hi, rfl⟩ := List.mem_map.mp hmem
  exact h e (mem_of_findSession he)
    (.inr ⟨wordId_of_findSession he, t, List.mem_of_find?_eq_some ht, hi⟩)

theorem NoPane.reconcileViewedTab (h : m.NoPane pane) (hnames : ∀ e ∈ m.sessionList, ¬e.Names pane)
    (word : WordId) : (m.reconcileViewedTab word).NoPane pane := by
  have hselected := h.selectSession (sparesSession_of_not_names hnames word)
  rw [SessionManager.reconcileViewedTab]
  split
  · exact hselected
  · split
    · exact h
    · split
      case h_1 focus visible hv =>
        obtain ⟨i, -, hv⟩ := Option.bind_eq_some_iff.mp hv
        exact h.setVisibleSet (sparesTab_of_not_names hnames word i _ hv)
      case h_2 => exact hselected

theorem NoPane.reconcileView (h : m.NoPane pane) (hnames : ∀ e ∈ m.sessionList, ¬e.Names pane) :
    m.reconcileView.NoPane pane := by
  rw [SessionManager.reconcileView]
  split
  case h_1 q _ =>
    split
    case isTrue hlocated =>
      obtain ⟨tabIndex, hlocated⟩ := Option.isSome_iff_exists.mp hlocated
      have hcleared : { m with pendingSelectPane := none }.NoPane pane := h.of_eq rfl rfl rfl
      refine hcleared.selectPane ?_
      rw [SelectSpares, hlocated]
      exact ⟨fun _ ↦ sparesSession_of_not_names hnames _, sparesTab_of_not_names hnames _ _⟩
    case isFalse => exact h
  case h_2 =>
    split
    · split
      · exact h.selectSession (sparesSession_of_not_names hnames _)
      · exact h
    · exact h.reconcileViewedTab hnames _

theorem NoPane.followTab (h : m.NoPane pane) {word : WordId} {tabIndex : ℕ}
    (hspares : m.OnScreen word tabIndex → SparesTab pane m.sessionList word tabIndex) :
    (m.followTab word tabIndex).NoPane pane := by
  rw [SessionManager.followTab]
  split
  case isTrue honscreen =>
    split
    case h_1 focus visible hv =>
      exact (h.setVisibleSet (hspares honscreen _ hv)).focusFromTab word focus
    case h_2 => exact h
  case isFalse => exact h

/-- The view of a tab whose layout was replaced. -/
theorem tabView_withLayout {f : SessionEntry → SessionEntry} {tabIndex : ℕ} {layout : LayoutNode}
    {focusedPane : ℕ} (hword : ∀ e, (f e).wordId = e.wordId)
    (hf : ∀ e, (f e).tabs = (e.withLayout tabIndex layout focusedPane).tabs)
    (sessions : List SessionEntry) (word : WordId) :
    tabView (modifySession word f sessions) word tabIndex =
      (tabView sessions word tabIndex).map fun _ ↦
        (focusedPane, layout.leaves.map fun i ↦ (word, i)) := by
  rw [tabView, findSession_modifySession hword, tabView]
  rcases Option.eq_none_or_eq_some (findSession sessions word) with he | ⟨e, he⟩
  · rw [he]
    rfl
  · have htab : ((f e).tabs.find? fun t ↦ t.tabIndex = tabIndex) =
        (e.tabs.find? fun t ↦ t.tabIndex = tabIndex).map
          fun t ↦ { t with layout, focusedPane } := by
      rw [hf]
      exact find_modifyFirst (p := fun t ↦ t.tabIndex = tabIndex)
        (f := fun t ↦ { t with layout, focusedPane }) (fun _ ↦ rfl) e.tabs
    rw [he, Option.map_some, Option.bind_some, Option.bind_some, htab, Option.map_map,
      Option.map_map]
    rfl

/-- A layout without the pane does not show it. -/
theorem sparesTab_withLayout (f : SessionEntry → SessionEntry) {tabIndex : ℕ}
    (layout : LayoutNode) (focusedPane : ℕ) (hword : ∀ e, (f e).wordId = e.wordId)
    (hf : ∀ e, (f e).tabs = (e.withLayout tabIndex layout focusedPane).tabs)
    {sessions : List SessionEntry} {word : WordId}
    (hspares : (tabView sessions word tabIndex).isSome → pane.1 = word →
      pane.2 ∉ layout.leaves) :
    SparesTab pane (modifySession word f sessions) word tabIndex := by
  intro v hv hmem
  rw [tabView_withLayout hword hf] at hv
  obtain ⟨v', hv', rfl⟩ := Option.map_eq_some_iff.mp hv
  obtain ⟨i, hi, rfl⟩ := List.mem_map.mp hmem
  exact hspares (Option.isSome_of_eq_some hv') rfl hi

theorem tabs_withPane (e : SessionEntry) (q : PaneInfo) : (e.withPane q).tabs = e.tabs := by
  rw [SessionEntry.withPane]
  split <;> rfl

theorem wordId_withPane (e : SessionEntry) (q : PaneInfo) : (e.withPane q).wordId = e.wordId := by
  rw [SessionEntry.withPane]
  split <;> rfl

theorem NoPane.onLayoutUpdate (h : m.NoPane pane) {word : WordId} {tabIndex : ℕ}
    {layout : LayoutNode} {focusedPane : ℕ}
    (hspares : m.OnScreen word tabIndex → (tabView m.sessionList word tabIndex).isSome →
      pane.1 = word → pane.2 ∉ layout.leaves) :
    (m.onLayoutUpdate word tabIndex layout focusedPane).NoPane pane := by
  have hlisted : { m with
      sessionList := modifySession word (·.withLayout tabIndex layout focusedPane)
        m.sessionList }.NoPane pane := h.of_eq rfl rfl rfl
  refine hlisted.followTab fun honscreen ↦ ?_
  exact sparesTab_withLayout (·.withLayout tabIndex layout focusedPane) layout focusedPane
    (fun _ ↦ rfl) (fun _ ↦ rfl) (hspares honscreen)

theorem NoPane.onPaneSplit (h : m.NoPane pane) {word : WordId} {tabIndex : ℕ} {newPane : PaneInfo}
    {layout : LayoutNode} (hnew : newPane.paneId ≠ pane)
    (hspares : m.OnScreen word tabIndex → (tabView m.sessionList word tabIndex).isSome →
      pane.1 = word → pane.2 ∉ layout.leaves) :
    (m.onPaneSplit word tabIndex newPane layout).NoPane pane := by
  have hensured := h.onPane hnew PaneSession.ensurePane
  have hsame := sameTab_onPane m newPane.paneId PaneSession.ensurePane
  have hlisted : { m.ensurePane newPane.paneId with
      sessionList := modifySession word
        (fun e ↦ (e.withPane newPane).withLayout tabIndex layout newPane.paneIndex)
        (m.ensurePane newPane.paneId).sessionList }.NoPane pane := hensured.of_eq rfl rfl rfl
  refine hlisted.followTab fun honscreen ↦ ?_
  refine sparesTab_withLayout
    (fun e ↦ (e.withPane newPane).withLayout tabIndex layout newPane.paneIndex) layout
    newPane.paneIndex (fun e ↦ wordId_withPane e newPane) (fun e ↦ ?_) ?_
  · rw [SessionEntry.withLayout, tabs_withPane]
    rfl
  · rw [SessionManager.ensurePane, hsame.list]
    exact hspares ⟨hsame.session.symm.trans honscreen.1, hsame.tab.symm.trans honscreen.2⟩

theorem NoPane.onTabCreated (h : m.NoPane pane) {word : WordId} {tab : TabInfo}
    (hspares : m.activeSession = some word →
      SparesTab pane (modifySession word (·.withTab tab) m.sessionList) word tab.tabIndex) :
    (m.onTabCreated word tab).NoPane pane := by
  have hadded : { m with
      sessionList := modifySession word (·.withTab tab) m.sessionList }.NoPane pane :=
    h.of_eq rfl rfl rfl
  rw [SessionManager.onTabCreated]
  split
  case isTrue hactive =>
    refine hadded.selectTab fun word' hword' ↦ ?_
    obtain rfl : word = word' := Option.some_inj.mp (hactive.symm.trans hword')
    exact hspares hactive
  case isFalse => exact hadded

theorem NoPane.onPaneCreated (h : m.NoPane pane) {q : PaneId} (hq : q ≠ pane) (word : WordId) :
    (m.onPaneCreated q word).NoPane pane := by
  refine NoPane.requestSessionList ?_
  exact (h.onPane hq PaneSession.ensurePane).of_eq rfl rfl rfl

theorem NoPane.onSessionCreated (h : m.NoPane pane) {entry : SessionEntry}
    (hpanes : ∀ q ∈ entry.panes, q.paneId ≠ pane)
    (hspares : SparesSession pane (m.sessionList ++ [entry]) entry.wordId) :
    (m.onSessionCreated entry).NoPane pane := by
  have hensured := h.ensurePanes hpanes
  have hlisted : { m.ensurePanes entry.panes with
      sessionList := (m.ensurePanes entry.panes).sessionList ++ [entry] }.NoPane pane :=
    hensured.of_eq rfl rfl rfl
  refine hlisted.selectSession ?_
  rw [(sameTab_ensurePanes m entry.panes).list]
  exact hspares

/-! ## A list forgets what it does not name -/

/-- One step of the loop over the sessions that are not listed. -/
def forgetOne (r : SessionManager × List SessionEvent) (w : WordId) :
    SessionManager × List SessionEvent :=
  ((r.1.onSessionGone w).1, r.2 ++ (r.1.onSessionGone w).2.toList)

theorem fst_foldl_forgetOne (ws : List WordId) (r : SessionManager × List SessionEvent) :
    (ws.foldl forgetOne r).1 = ws.foldl (fun m w ↦ (m.onSessionGone w).1) r.1 := by
  induction ws generalizing r with
  | nil => rfl
  | cons w ws ih => exact ih _

theorem activeSession_onSessionGone {word : WordId} (h : m.activeSession ≠ some word) :
    (m.onSessionGone word).1.activeSession = m.activeSession := by
  have hsame := sameTab_foldl sameTab_forgetPane (m.sessionPaneIds word) m
  rw [SessionManager.onSessionGone]
  split
  · dsimp only
    exact hsame.session
  · rfl

theorem knowsSession_onSessionGone (m : SessionManager) (word : WordId) :
    (m.onSessionGone word).1.knowsSession word = false := by
  rw [SessionManager.knowsSession, sessionList_onSessionGone, List.any_eq_false]
  intro e he
  have hne : e.wordId ≠ word := of_decide_eq_true (List.mem_filter.mp he).2
  exact fun heq ↦ hne (of_decide_eq_true heq)

theorem knowsSession_of_onSessionGone {m : SessionManager} {word w : WordId}
    (h : (m.onSessionGone w).1.knowsSession word = true) : m.knowsSession word = true := by
  rw [SessionManager.knowsSession, sessionList_onSessionGone] at h
  obtain ⟨e, he, heq⟩ := List.any_eq_true.mp h
  exact List.any_eq_true.mpr ⟨e, (List.mem_filter.mp he).1, heq⟩

/-- The loop over sessions that are not viewed. -/
private theorem foldl_unviewed {P : SessionManager → Prop} (ws : List WordId)
    (hws : ∀ w ∈ ws, m.activeSession ≠ some w)
    (hstep : ∀ m', ∀ w ∈ ws, P m' → m'.activeSession = m.activeSession → P (m'.onSessionGone w).1)
    (h : P m) :
    let forgotten := ws.foldl (fun m w ↦ (m.onSessionGone w).1) m
    P forgotten ∧ forgotten.activeSession = m.activeSession ∧
      forgotten.sessionList = m.sessionList.filter fun e ↦ e.wordId ∉ ws := by
  induction ws generalizing m with
  | nil => exact ⟨h, rfl, (List.filter_eq_self.mpr fun _ _ ↦ decide_eq_true List.not_mem_nil).symm⟩
  | cons w ws ih =>
    have hactive := activeSession_onSessionGone (hws w List.mem_cons_self)
    obtain ⟨hrest, hsession, hlist⟩ := ih
      (fun w' hw' ↦ hactive.symm ▸ hws w' (List.mem_cons_of_mem w hw'))
      (fun m' w' hw' hP hsame ↦
        hstep m' w' (List.mem_cons_of_mem w hw') hP (hsame.trans hactive))
      (hstep m w List.mem_cons_self h rfl)
    refine ⟨hrest, hsession.trans hactive, hlist.trans ?_⟩
    rw [sessionList_onSessionGone, List.filter_filter]
    refine List.filter_congr fun e _ ↦ ?_
    rw [Bool.eq_iff_iff, Bool.and_eq_true, decide_eq_true_iff, decide_eq_true_iff,
      decide_eq_true_iff, List.mem_cons, not_or, and_comm]

/-- Forgetting one session several times is forgetting it once. -/
private theorem foldl_viewed {word : WordId} {ws : List WordId} (hws : ∀ w ∈ ws, w = word)
    (hsome : ws ≠ []) :
    ws.foldl (fun m w ↦ (m.onSessionGone w).1) m = (m.onSessionGone word).1 := by
  have hunknown : ∀ (ws : List WordId) (m : SessionManager), (∀ w ∈ ws, w = word) →
      m.knowsSession word = false → ws.foldl (fun m w ↦ (m.onSessionGone w).1) m = m := by
    intro ws m hws hknown
    induction ws with
    | nil => rfl
    | cons w ws ih =>
      obtain rfl : w = word := hws w List.mem_cons_self
      rw [List.foldl_cons, onSessionGone_of_unknown hknown]
      exact ih fun w' hw' ↦ hws w' (List.mem_cons_of_mem w hw')
  obtain ⟨w, ws, rfl⟩ := List.exists_cons_of_ne_nil hsome
  obtain rfl : w = word := hws w List.mem_cons_self
  exact hunknown ws _ (fun w' hw' ↦ hws w' (List.mem_cons_of_mem w hw'))
    (knowsSession_onSessionGone m w)

/-- **The rule of the loop.** Sessions that are not viewed go first and leave the view alone; the
viewed one goes last, when the entries that are left beside it are those that the list names. -/
theorem forgetUnlistedSessions_rule {P Q : SessionManager → Prop} {listed : List SessionEntry}
    (h : P m) (hdone : ∀ m', P m' → Q m')
    (hunviewed : ∀ m' w, P m' → m'.activeSession = m.activeSession → m.activeSession ≠ some w →
      (∀ e ∈ listed, e.wordId ≠ w) → P (m'.onSessionGone w).1)
    (hviewed : ∀ m' w, P m' → m.activeSession = some w → m.knowsSession w = true →
      (∀ e ∈ listed, e.wordId ≠ w) →
      (m'.sessionList.filter fun e ↦ e.wordId ≠ w) =
        m.sessionList.filter (fun e ↦ listed.any fun e' ↦ e'.wordId = e.wordId) →
      Q (m'.onSessionGone w).1) : Q (m.forgetUnlistedSessions listed).1 := by
  rw [SessionManager.forgetUnlistedSessions]
  refine (congrArg Q (fst_foldl_forgetOne _ (m, []))).mpr ?_
  rw [List.foldl_append]
  set gone := (m.sessionList.map (·.wordId)).filter fun w ↦ listed.all fun e ↦ e.wordId ≠ w
    with hgone
  have hmem : ∀ w, w ∈ gone ↔ (∃ e ∈ m.sessionList, e.wordId = w) ∧ ∀ e ∈ listed, e.wordId ≠ w := by
    intro w
    rw [hgone, List.mem_filter, List.mem_map, List.all_eq_true]
    exact and_congr_right fun _ ↦ forall₂_congr fun _ _ ↦ decide_eq_true_iff
  have hother : ∀ w ∈ gone.filter fun w ↦ m.activeSession ≠ some w, m.activeSession ≠ some w :=
    fun w hw ↦ of_decide_eq_true (List.mem_filter.mp hw).2
  obtain ⟨hP, hsession, hlist⟩ := foldl_unviewed _ hother (fun m' w hw hP hsame ↦
    hunviewed m' w hP hsame (hother w hw) ((hmem w).mp (List.mem_filter.mp hw).1).2) h
  by_cases hsome : (gone.filter fun w ↦ m.activeSession = some w) = []
  · rw [hsome]
    exact hdone _ hP
  · obtain ⟨word, hword⟩ := List.exists_mem_of_ne_nil _ hsome
    obtain ⟨hword, hactive⟩ := List.mem_filter.mp hword
    have hactive : m.activeSession = some word := of_decide_eq_true hactive
    obtain ⟨⟨e₀, he₀, heq₀⟩, hunlisted⟩ := (hmem word).mp hword
    have hviewedOnce := @foldl_viewed
      ((gone.filter fun w ↦ m.activeSession ≠ some w).foldl (fun m w ↦ (m.onSessionGone w).1) m)
      word (gone.filter fun w ↦ m.activeSession = some w)
      (fun w hw ↦ Option.some_inj.mp
        ((of_decide_eq_true (List.mem_filter.mp hw).2 : m.activeSession = some w).symm.trans
          hactive)) hsome
    rw [hviewedOnce]
    refine hviewed _ word hP hactive (List.any_eq_true.mpr ⟨e₀, he₀, decide_eq_true heq₀⟩)
      hunlisted ?_
    -- What is neither gone before nor the viewed session is what the list names.
    rw [hlist, List.filter_filter]
    refine List.filter_congr fun e he ↦ ?_
    rw [Bool.eq_iff_iff, Bool.and_eq_true, decide_eq_true_iff, decide_eq_true_iff,
      List.any_eq_true]
    constructor
    · rintro ⟨hne, hout⟩
      by_contra hno
      refine hout (List.mem_filter.mpr ⟨(hmem _).mpr ⟨⟨e, he, rfl⟩, fun e' he' heq ↦ ?_⟩, ?_⟩)
      · exact hno ⟨e', he', decide_eq_true heq⟩
      · rw [decide_eq_true_iff, hactive]
        exact fun heq ↦ hne (Option.some_inj.mp heq).symm
    · rintro ⟨e', he', heq⟩
      have heq := of_decide_eq_true heq
      refine ⟨fun hword ↦ hunlisted e' he' (heq.trans hword), fun hin ↦ ?_⟩
      exact ((hmem _).mp (List.mem_filter.mp hin).1).2 e' he' heq

theorem NoPane.forgetUnlistedSessions (h : m.NoPane pane) {listed : List SessionEntry}
    (hspares : ∀ word, m.activeSession = some word → m.knowsSession word = true →
      (∀ e ∈ listed, e.wordId ≠ word) → NextSpares pane m.sessionList
        (m.sessionList.find? fun e ↦ listed.any fun e' ↦ e'.wordId = e.wordId)) :
    (m.forgetUnlistedSessions listed).1.NoPane pane := by
  refine forgetUnlistedSessions_rule (P := (·.NoPane pane)) h (fun _ hP ↦ hP) ?_ ?_
  · intro m' w hP hsame hw _
    exact hP.onSessionGone fun hactive ↦ absurd (hsame.symm.trans hactive) hw
  · intro m' w hP hactive hknown hunlisted hlist
    have hnext := hspares w hactive hknown hunlisted
    refine hP.onSessionGone fun _ _ e he ↦ ?_
    have hother := List.find?_some (Option.mem_def.mp he)
    rw [Option.mem_def, ← List.head?_filter, hlist, List.head?_filter] at he
    have hnamed := List.find?_some he
    have hspared := hnext e he
    -- Neither filter takes out the entry that comes next.
    have hkept := @findSession_filter (fun e ↦ decide (e.wordId ≠ w)) e.wordId
      (fun e' heq ↦ heq.symm ▸ hother) m'.sessionList
    have hkept' := @findSession_filter
      (fun e ↦ listed.any fun e' ↦ decide (e'.wordId = e.wordId)) e.wordId
      (fun e' heq ↦ heq.symm ▸ hnamed) m.sessionList
    rw [SparesSession, ← hkept, hlist, hkept']
    exact hspared

/-! ## A quiet message keeps a pane away -/

theorem maybeFetchHistory_of_no_buffer {s : PaneSession} (h : s.buffer = none) :
    s.maybeFetchHistory = s := by
  rw [PaneSession.maybeFetchHistory]
  split
  · rfl
  · rw [h]
    rfl

theorem onHistoryLines_of_no_buffer {s : PaneSession} (h : s.buffer = none)
    (requestId firstIndex : ℕ) (lines : List ScrollbackLine) (historyTotal : ℕ) :
    (s.onHistoryLines requestId firstIndex lines historyTotal).buffer = none ∧
      (s.onHistoryLines requestId firstIndex lines historyTotal).paneSync = s.paneSync := by
  have hbuffer : (s.modifyGrid fun g ↦
      g.applyHistoryLines firstIndex lines historyTotal).buffer = none :=
    Option.map_eq_none_iff.mpr h
  rw [PaneSession.onHistoryLines]
  split
  · rw [maybeFetchHistory_of_no_buffer]
    · exact ⟨hbuffer, rfl⟩
    · exact hbuffer
  · rw [maybeFetchHistory_of_no_buffer hbuffer]
    exact ⟨hbuffer, rfl⟩

/-- Of the frames of an unknown pane, a digest and a reply to a fetch make no entry. -/
theorem NoPane.quietStream (h : m.NoPane pane) {msg : ServerMessage}
    (hmsg : (∃ seqno hash, msg = .gridDigest seqno hash) ∨
      ∃ requestId firstIndex lines historyTotal,
        msg = .historyLines requestId firstIndex lines historyTotal) :
    (m.onPane pane (·.handleServerMessage msg)).NoPane pane := by
  have hnone : ((m.pane pane).handleServerMessage msg).buffer = none ∧
      ((m.pane pane).handleServerMessage msg).paneSync = none := by
    rcases hmsg with ⟨seqno, hash, rfl⟩ | ⟨requestId, firstIndex, lines, historyTotal, rfl⟩
    · have hunsynced : (m.pane pane).paneSync ≠ some (.synced (seqno + 1)) := by
        intro hsync
        exact Option.some_ne_none _ (hsync.symm.trans h.sync)
      rw [PaneSession.handleServerMessage, PaneSession.onGridDigest, if_neg hunsynced]
      exact ⟨h.buffer, h.sync⟩
    · have hlines := onHistoryLines_of_no_buffer (s := m.pane pane) h.buffer requestId firstIndex
        lines historyTotal
      exact ⟨hlines.1, hlines.2.trans h.sync⟩
  refine NoPane.send ?_ _
  exact ⟨(Function.update_self _ _ _).trans hnone.1, (Function.update_self _ _ _).trans hnone.2,
    h.visible⟩

theorem paneSync_onPane (m : SessionManager) (pane : PaneId) (f : PaneSession → PaneSession) :
    (m.onPane pane f).paneSync pane = (f (m.pane pane)).paneSync := by
  rw [SessionManager.onPane, SessionManager.send]
  split
  · exact Function.update_self _ _ _
  · exact Function.update_self _ _ _

theorem paneSync_maybeFetchHistory (s : PaneSession) :
    s.maybeFetchHistory.paneSync = s.paneSync := by
  rw [PaneSession.maybeFetchHistory]
  split
  · rfl
  · split <;> rfl

theorem checkPaneSync_of_unsynced {s : PaneSession} (h : s.paneSync = none)
    (seqno : SequenceNo) : s.checkPaneSync seqno = (s, true) := by
  simp only [PaneSession.checkPaneSync, h]

/-- **A late frame.** It leaves nothing of a closed pane exactly if it is a digest or a reply to a
fetch. -/
theorem noPane_stream_iff (h : m.NoPane pane) (msg : ServerMessage) :
    (m.onPane pane (·.handleServerMessage msg)).NoPane pane ↔
      (∃ seqno hash, msg = .gridDigest seqno hash) ∨
        ∃ requestId firstIndex lines historyTotal,
          msg = .historyLines requestId firstIndex lines historyTotal := by
  refine ⟨fun hkept ↦ ?_, h.quietStream⟩
  have hsync : ((m.pane pane).handleServerMessage msg).paneSync = none :=
    (paneSync_onPane m pane (·.handleServerMessage msg)).symm.trans hkept.sync
  have hcheck := fun seqno ↦ checkPaneSync_of_unsynced (s := m.pane pane) h.sync seqno
  cases msg with
  | gridDigest seqno hash => exact .inl ⟨seqno, hash, rfl⟩
  | historyLines requestId firstIndex lines historyTotal =>
    exact .inr ⟨requestId, firstIndex, lines, historyTotal, rfl⟩
  | terminalSnapshot snapshot seqno => exact absurd hsync (Option.some_ne_none _)
  | terminalUpdate diff seqno =>
    rw [PaneSession.handleServerMessage, PaneSession.onTerminalUpdate, hcheck] at hsync
    exact absurd ((paneSync_maybeFetchHistory _).symm.trans hsync) (Option.some_ne_none _)
  | cursorUpdate cursor modes seqno =>
    rw [PaneSession.handleServerMessage, PaneSession.onCursorUpdate, hcheck] at hsync
    exact absurd hsync (Option.some_ne_none _)
  | scrollbackAppend firstIndex lines seqno =>
    rw [PaneSession.handleServerMessage, PaneSession.onScrollbackAppend, hcheck] at hsync
    exact absurd ((paneSync_maybeFetchHistory _).symm.trans hsync) (Option.some_ne_none _)
  | syncReset => exact absurd hsync (Option.some_ne_none _)
  | lagged n => exact absurd hsync (Option.some_ne_none _)

theorem knowsPane_eq_false (h : m.NoPane pane) (hlist : Unlisted pane m.sessionList) :
    m.knowsPane pane = false := by
  rw [knowsPane, h.buffer, h.sync, Option.isSome_none, Option.isSome_none, Bool.or_self,
    Bool.false_or, List.any_eq_false]
  intro e he hany
  obtain ⟨q, hq, heq⟩ := List.any_eq_true.mp hany
  exact hlist e he q hq (of_decide_eq_true heq)

/-- **A quiet message makes no entry for the pane and does not show it.** -/
theorem NoPane.receive (h : m.NoPane pane) (hlist : Unlisted pane m.sessionList) {msg : Inbound}
    (hquiet : m.QuietPane pane msg) : (m.receive msg).NoPane pane := by
  rw [SessionManager.receive]
  cases msg with
  | stream q msg =>
    by_cases hq : q = pane
    · subst hq
      exact h.quietStream (hquiet rfl)
    · exact h.onPane hq (·.handleServerMessage msg)
  | sessionListResult sessions =>
    have hforgotten := h.forgetUnlistedSessions hquiet.2
    have hlisted : { (m.forgetUnlistedSessions sessions).1 with
        sessionList := sessions }.NoPane pane := hforgotten.of_eq rfl rfl rfl
    have hpanes : ∀ q ∈ sessions.flatMap SessionEntry.panes, q.paneId ≠ pane := by
      intro q hq heq
      obtain ⟨e, he, hq⟩ := List.mem_flatMap.mp hq
      exact hquiet.1 e he (.inl ⟨q, hq, heq⟩)
    refine (hlisted.ensurePanes hpanes).reconcileView ?_
    rw [(sameTab_ensurePanes _ _).list]
    exact hquiet.1
  | sessionCreated entry => exact h.onSessionCreated hquiet.1 hquiet.2
  | sessionClosed word => exact h.onSessionGone hquiet
  | sessionKicked word => exact h.leaveSession hquiet
  | paneCreated q word => exact h.onPaneCreated hquiet word
  | paneClosed q =>
    rcases Bool.eq_false_or_eq_true (m.knowsPane q) with hknown | hknown
    · have hq : q ≠ pane := by
        rintro rfl
        rw [knowsPane_eq_false h hlist] at hknown
        exact Bool.false_ne_true hknown
      exact noPane_onPaneGone hknown (h.dropPane q) (hquiet hq hknown)
    · rw [handleServerMessage, onPaneGone_of_unknown hknown]
      exact h
  | paneSplit word tabIndex newPane layout => exact h.onPaneSplit hquiet.1 hquiet.2
  | layoutUpdate word tabIndex layout focusedPane => exact h.onLayoutUpdate hquiet
  | tabCreated word tab => exact h.onTabCreated hquiet
  | tabClosed word tabIndex => exact h.onTabGone hquiet
  | tabsReordered word tabIndices => exact h.of_eq rfl rfl rfl
  | sessionCreatedEvent word => exact h.resyncUnlessCached _
  | tabCreatedEvent word tabIndex => exact h.resyncUnlessCached _
  | paneSpawned q => exact h.resyncUnlessCached _

theorem Unlisted.filter {sessions : List SessionEntry} (h : Unlisted pane sessions)
    (keep : SessionEntry → Bool) : Unlisted pane (sessions.filter keep) :=
  fun e he ↦ h e (List.mem_filter.mp he).1

theorem Unlisted.modifySession {sessions : List SessionEntry} (h : Unlisted pane sessions)
    {f : SessionEntry → SessionEntry} (word : WordId)
    (hf : ∀ e, ∀ q ∈ (f e).panes, q ∈ e.panes ∨ q.paneId ≠ pane) :
    Unlisted pane (modifySession word f sessions) := by
  intro e he q hq
  rcases mem_modifyFirst he with hin | ⟨e', hin, rfl⟩
  · exact h e hin q hq
  · exact (hf e' q hq).elim (h e' hin q) id

theorem mem_panes_withPane {e : SessionEntry} {p q : PaneInfo} (h : q ∈ (e.withPane p).panes) :
    q ∈ e.panes ∨ q = p := by
  rw [SessionEntry.withPane] at h
  split at h
  · exact .inl h
  · exact (List.mem_append.mp h).imp_right List.mem_singleton.mp

theorem wordId_withTab (e : SessionEntry) (t : TabInfo) : (e.withTab t).wordId = e.wordId := by
  rw [SessionEntry.withTab]
  split <;> rfl

theorem panes_withTab (e : SessionEntry) (t : TabInfo) : (e.withTab t).panes = e.panes := by
  rw [SessionEntry.withTab]
  split <;> rfl

theorem Unlisted.listAfter (h : Unlisted pane m.sessionList) {msg : Inbound}
    (hquiet : m.QuietPane pane msg) : Unlisted pane (listAfter m.sessionList msg) := by
  cases msg with
  | sessionListResult sessions => exact fun e he q hq heq ↦ hquiet.1 e he (.inl ⟨q, hq, heq⟩)
  | sessionCreated entry =>
    intro e he
    rcases List.mem_append.mp he with he | he
    · exact h e he
    · exact List.mem_singleton.mp he ▸ hquiet.1
  | sessionClosed word => exact h.filter _
  | paneCreated q word =>
    refine h.modifySession word fun e p hp ↦ (mem_panes_withPane hp).imp_right ?_
    rintro rfl
    exact hquiet
  | paneClosed q =>
    intro e he p hp
    obtain ⟨e', hin, rfl⟩ := List.mem_map.mp he
    exact h e' hin p (List.mem_filter.mp hp).1
  | paneSplit word tabIndex newPane layout =>
    refine h.modifySession word fun e p hp ↦ (mem_panes_withPane hp).imp_right ?_
    rintro rfl
    exact hquiet.1
  | layoutUpdate word tabIndex layout focusedPane =>
    exact h.modifySession word fun e p hp ↦ .inl hp
  | tabCreated word tab =>
    exact h.modifySession word fun e p hp ↦ .inl (panes_withTab e tab ▸ hp)
  | tabClosed word tabIndex =>
    exact h.modifySession word fun e p hp ↦ .inl (List.mem_filter.mp hp).1
  | tabsReordered word tabIndices => exact h.modifySession word fun e p hp ↦ .inl hp
  | stream | sessionKicked | sessionCreatedEvent | tabCreatedEvent | paneSpawned => exact h

end SessionManager

end Client

end Kmux
