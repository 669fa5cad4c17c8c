import Kmux.Client.Views

/-!
# The client's handlers of server messages

One handler for each message that changes what the client keeps of sessions, tabs and panes. A close
is reported twice, as a reply and as a broadcast, and both forms run the same handler: it does
something only if the client still holds state for the thing that is gone.

The frames of a pane's data stream are `PaneSession`'s handlers on the pane's entries, whether or
not the client is attached to the pane. Renames, exits, titles, sizes and attention marks are left
out: they change no field that is kept here.
-/

namespace Kmux

namespace Client

/-- A message from the daemon. The reply and the broadcast form of a close are one message. -/
inductive Inbound
  /-- A frame of a pane's data stream. -/
  | stream (pane : PaneId) (msg : ServerMessage)
  | sessionListResult (sessions : List SessionEntry)
  | sessionCreated (entry : SessionEntry)
  | sessionClosed (word : WordId)
  | sessionKicked (word : WordId)
  | paneCreated (pane : PaneId) (word : WordId)
  | paneClosed (pane : PaneId)
  | paneSplit (word : WordId) (tabIndex : ℕ) (newPane : PaneInfo) (layout : LayoutNode)
  | layoutUpdate (word : WordId) (tabIndex : ℕ) (layout : LayoutNode) (focusedPane : ℕ)
  | tabCreated (word : WordId) (tab : TabInfo)
  | tabClosed (word : WordId) (tabIndex : ℕ)
  | tabsReordered (word : WordId) (tabIndices : List ℕ)
  /-- The broadcasts of creations name the thing and nothing else. -/
  | sessionCreatedEvent (word : WordId)
  | tabCreatedEvent (word : WordId) (tabIndex : ℕ)
  | paneSpawned (pane : PaneId)

/-- What a handler reports to the UI. -/
inductive SessionEvent
  | sessionListReceived
  | sessionCreated (word : WordId)
  | sessionClosed (word : WordId)
  | kickedFromSession (word : WordId)
  | paneCreated (pane : PaneId)
  | paneClosed (pane : PaneId)
  deriving DecidableEq, Repr

namespace SessionEntry

/-- The panes that a tab alone owns. -/
def closedPanes (e : SessionEntry) (tabIndex : ℕ) : List ℕ :=
  let closed := ((e.tabs.find? fun t ↦ t.tabIndex = tabIndex).map (·.layout.leaves)).getD []
  let live := (e.tabs.filter fun t ↦ t.tabIndex ≠ tabIndex).flatMap (·.layout.leaves)
  closed.filter fun p ↦ p ∉ live

/-- The entry once a tab is gone. -/
def withoutTab (e : SessionEntry) (tabIndex : ℕ) : SessionEntry :=
  let tabs := e.tabs.filter fun t ↦ t.tabIndex ≠ tabIndex
  { e with
    tabs
    panes := e.panes.filter fun p ↦ p.paneIndex ∉ e.closedPanes tabIndex
    activeTab := if e.activeTab = tabIndex then (tabs.head?.map TabInfo.tabIndex).getD 0
      else e.activeTab }

/-- The entry with a tab's layout replaced. -/
def withLayout (e : SessionEntry) (tabIndex : ℕ) (layout : LayoutNode) (focusedPane : ℕ) :
    SessionEntry :=
  { e with
    tabs := modifyFirst (fun t ↦ t.tabIndex = tabIndex) (fun t ↦ { t with layout, focusedPane })
      e.tabs }

/-- The entry with a pane recorded, unless it is there. -/
def withPane (e : SessionEntry) (pane : PaneInfo) : SessionEntry :=
  if e.panes.any fun p ↦ p.paneId = pane.paneId then e else { e with panes := e.panes ++ [pane] }

/-- The entry with a tab recorded, unless it is there. -/
def withTab (e : SessionEntry) (tab : TabInfo) : SessionEntry :=
  if e.tabs.any fun t ↦ t.tabIndex = tab.tabIndex then e else { e with tabs := e.tabs ++ [tab] }

/-- The entry with its tabs in the given order, those it does not name last. -/
def reordered (e : SessionEntry) (tabIndices : List ℕ) : SessionEntry :=
  { e with
    tabs := e.tabs.mergeSort fun a b ↦
      decide (tabIndices.idxOf a.tabIndex ≤ tabIndices.idxOf b.tabIndex) }

end SessionEntry

namespace SessionManager

/-! ## What the client knows -/

/-- The client holds some state for the pane. -/
def knowsPane (m : SessionManager) (pane : PaneId) : Bool :=
  (m.buffers pane).isSome || (m.paneSync pane).isSome ||
    m.sessionList.any fun e ↦ e.panes.any fun p ↦ p.paneId = pane

def knowsSession (m : SessionManager) (word : WordId) : Bool :=
  m.sessionList.any fun e ↦ e.wordId = word

/-- The panes that the cached entry of a session owns. -/
def sessionPaneIds (m : SessionManager) (word : WordId) : List PaneId :=
  ((findSession m.sessionList word).map (·.panes.map (·.paneId))).getD []

/-- Where the view goes when the active pane closes: a pane of the same session, or the first pane
of any. -/
def findFallbackPane (m : SessionManager) : Option (WordId × PaneId) :=
  let own := m.activeSession.bind fun word ↦
    (findSession m.sessionList word).bind fun e ↦ e.panes.head?.map fun p ↦ (word, p.paneId)
  own.or (m.sessionList.findSome? fun e ↦ e.panes.head?.map fun p ↦ (e.wordId, p.paneId))

/-- The broadcast of a creation re-lists unless the cache shows the fact. -/
def resyncUnlessCached (m : SessionManager) (cached : Bool) : SessionManager :=
  if cached then m else m.requestSessionList

/-! ## Closes -/

/-- Move the view off a pane that is gone, when nothing else of it is on screen. -/
def leavePane (m : SessionManager) : SessionManager :=
  match m.findFallbackPane with
  | some (word, pane) =>
    if m.activeSession = some word then { m with activeTab := none }.selectPane pane
    else m.selectSession word
  | none =>
    { m with activeSession := none, activePane := none, activeTab := none, visiblePanes := [] }

/-- Drop everything that is kept for a pane. -/
def dropPane (m : SessionManager) (pane : PaneId) : SessionManager :=
  { m.forgetPane pane with
    sessionList := m.sessionList.map fun e ↦
      { e with panes := e.panes.filter fun p ↦ p.paneId ≠ pane }
    visiblePanes := m.visiblePanes.filter fun p ↦ p ≠ pane }

def onPaneGone (m : SessionManager) (pane : PaneId) : SessionManager × Option SessionEvent :=
  if m.knowsPane pane then
    let dropped := m.dropPane pane
    let moved :=
      if m.activePane = some pane then
        match dropped.visiblePanes.head? with
        | some sibling => { dropped with activePane := some sibling }
        | none => dropped.leavePane
      else dropped
    (moved, some (.paneClosed pane))
  else (m, none)

/-- Look at nothing. -/
def clearView (m : SessionManager) : SessionManager :=
  { m with activeSession := none, activeTab := none, activePane := none, visiblePanes := [] }

def onSessionGone (m : SessionManager) (word : WordId) : SessionManager × Option SessionEvent :=
  if m.knowsSession word then
    let forgotten := (m.sessionPaneIds word).foldl forgetPane m
    let dropped :=
      { forgotten with sessionList := m.sessionList.filter fun e ↦ e.wordId ≠ word }
    let moved :=
      if m.activeSession = some word then
        match dropped.sessionList.head? with
        | some next => dropped.clearView.selectSession next.wordId
        | none => dropped.clearView
      else dropped
    (moved, some (.sessionClosed word))
  else (m, none)

def onTabGone (m : SessionManager) (word : WordId) (tabIndex : ℕ) : SessionManager :=
  let entry := findSession m.sessionList word
  let closed := (entry.map (·.closedPanes tabIndex)).getD []
  let nextTab := entry.bind fun e ↦ (e.withoutTab tabIndex).tabs.head?.map TabInfo.tabIndex
  let pruned := { m with sessionList := modifySession word (·.withoutTab tabIndex) m.sessionList }
  let forgotten := (closed.map fun i ↦ (word, i)).foldl forgetPane pruned
  if m.activeSession = some word ∧ m.activeTab = some tabIndex then
    let cleared := { forgotten with activeTab := none, visiblePanes := [] }
    match nextTab with
    | some t => cleared.selectTab t
    | none => { cleared with activePane := none }
  else forgotten

/-- The daemon has put this client out of the session. The entry stays listed. -/
def leaveSession (m : SessionManager) (word : WordId) : SessionManager :=
  let forgotten := (m.sessionPaneIds word).foldl forgetPane m
  if m.activeSession = some word then
    match m.sessionList.find? fun e ↦ e.wordId ≠ word with
    | some next => forgotten.clearView.selectSession next.wordId
    | none => forgotten.clearView
  else forgotten

/-! ## Sessions -/

/-- Forget the sessions that are not listed any more, the viewed one last. -/
def forgetUnlistedSessions (m : SessionManager) (listed : List SessionEntry) :
    SessionManager × List SessionEvent :=
  let gone := (m.sessionList.map (·.wordId)).filter fun w ↦ listed.all fun e ↦ e.wordId ≠ w
  let ordered := gone.filter (fun w ↦ m.activeSession ≠ some w) ++
    gone.filter fun w ↦ m.activeSession = some w
  ordered.foldl (fun r w ↦ ((r.1.onSessionGone w).1, r.2 ++ (r.1.onSessionGone w).2.toList)) (m, [])

/-- Bring the viewed tab in line with the list. -/
def reconcileViewedTab (m : SessionManager) (word : WordId) : SessionManager :=
  let federated := m.sessionList.any fun e ↦ e.wordId = word && e.peer.isSome
  if m.visiblePanes = [] then m.selectSession word
  else if federated then m
  else
    match m.activeTab.bind (tabView m.sessionList word) with
    | some (_, visible) => m.setVisibleSet visible
    | none => m.selectSession word

/-- The view after a list: the pane that waits for its tab, the first session, or the viewed tab. -/
def reconcileView (m : SessionManager) : SessionManager :=
  match m.pendingSelectPane with
  | some pane =>
    if (locatePane m.sessionList pane).isSome then
      { m with pendingSelectPane := none }.selectPane pane
    else m
  | none =>
    match m.activeSession with
    | none =>
      match m.sessionList.head? with
      | some first => m.selectSession first.wordId
      | none => m
    | some word => m.reconcileViewedTab word

def ensurePanes (m : SessionManager) (panes : List PaneInfo) : SessionManager :=
  panes.foldl (fun m p ↦ m.ensurePane p.paneId) m

def onSessionListResult (m : SessionManager) (sessions : List SessionEntry) :
    SessionManager × List SessionEvent :=
  let forgotten := m.forgetUnlistedSessions sessions
  let listed :=
    { forgotten.1 with sessionList := sessions }.ensurePanes (sessions.flatMap SessionEntry.panes)
  (listed.reconcileView, forgotten.2 ++ [.sessionListReceived])

def onSessionCreated (m : SessionManager) (entry : SessionEntry) : SessionManager :=
  let ensured := m.ensurePanes entry.panes
  { ensured with sessionList := ensured.sessionList ++ [entry] }.selectSession entry.wordId

/-! ## Panes and tabs -/

def onPaneCreated (m : SessionManager) (pane : PaneId) (word : WordId) : SessionManager :=
  let ensured := m.ensurePane pane
  { ensured with
    sessionList := modifySession word (·.withPane ⟨pane, pane.2⟩) ensured.sessionList
    pendingSelectPane := some pane }.requestSessionList

/-- The tab on screen follows its cached layout. -/
def followTab (m : SessionManager) (word : WordId) (tabIndex : ℕ) : SessionManager :=
  if m.activeSession = some word ∧ m.activeTab = some tabIndex then
    match tabView m.sessionList word tabIndex with
    | some (focus, visible) => (m.setVisibleSet visible).focusFromTab word focus
    | none => m
  else m

def onPaneSplit (m : SessionManager) (word : WordId) (tabIndex : ℕ) (newPane : PaneInfo)
    (layout : LayoutNode) : SessionManager :=
  let ensured := m.ensurePane newPane.paneId
  { ensured with
    sessionList := modifySession word
      (fun e ↦ (e.withPane newPane).withLayout tabIndex layout newPane.paneIndex)
      ensured.sessionList }.followTab word tabIndex

def onLayoutUpdate (m : SessionManager) (word : WordId) (tabIndex : ℕ) (layout : LayoutNode)
    (focusedPane : ℕ) : SessionManager :=
  { m with
    sessionList :=
      modifySession word (·.withLayout tabIndex layout focusedPane) m.sessionList }.followTab
    word tabIndex

def onTabCreated (m : SessionManager) (word : WordId) (tab : TabInfo) : SessionManager :=
  let added := { m with sessionList := modifySession word (·.withTab tab) m.sessionList }
  if m.activeSession = some word then added.selectTab tab.tabIndex else added

def onTabsReordered (m : SessionManager) (word : WordId) (tabIndices : List ℕ) : SessionManager :=
  { m with sessionList := modifySession word (·.reordered tabIndices) m.sessionList }

/-- A tab of a session that is not listed is no news. -/
def onEventTabCreated (m : SessionManager) (word : WordId) (tabIndex : ℕ) : SessionManager :=
  m.resyncUnlessCached <|
    match findSession m.sessionList word with
    | some e => e.tabs.any fun t ↦ t.tabIndex = tabIndex
    | none => true

/-! ## The dispatcher -/

def handleServerMessage (m : SessionManager) : Inbound → SessionManager × List SessionEvent
  | .stream pane msg => (m.onPane pane (·.handleServerMessage msg), [])
  | .sessionListResult sessions => m.onSessionListResult sessions
  | .sessionCreated entry => (m.onSessionCreated entry, [.sessionCreated entry.wordId])
  | .sessionClosed word => ((m.onSessionGone word).1, (m.onSessionGone word).2.toList)
  | .sessionKicked word => (m.leaveSession word, [.kickedFromSession word])
  | .paneCreated pane word => (m.onPaneCreated pane word, [.paneCreated pane])
  | .paneClosed pane => ((m.onPaneGone pane).1, (m.onPaneGone pane).2.toList)
  | .paneSplit word tabIndex newPane layout => (m.onPaneSplit word tabIndex newPane layout, [])
  | .layoutUpdate word tabIndex layout focusedPane =>
    (m.onLayoutUpdate word tabIndex layout focusedPane, [])
  | .tabCreated word tab => (m.onTabCreated word tab, [])
  | .tabClosed word tabIndex => (m.onTabGone word tabIndex, [])
  | .tabsReordered word tabIndices => (m.onTabsReordered word tabIndices, [])
  | .sessionCreatedEvent word => (m.resyncUnlessCached (m.knowsSession word), [])
  | .tabCreatedEvent word tabIndex => (m.onEventTabCreated word tabIndex, [])
  | .paneSpawned pane => (m.resyncUnlessCached (m.knowsPane pane), [])

/-! ## The cached list

What a message makes of the cached list depends on the list alone, and not on the view or on the
entries of the panes. -/

/-- The entry without a pane. -/
def dropFrom (pane : PaneId) (e : SessionEntry) : SessionEntry :=
  { e with panes := e.panes.filter fun p ↦ p.paneId ≠ pane }

/-- The cached list after a message. -/
def listAfter (sessions : List SessionEntry) : Inbound → List SessionEntry
  | .sessionListResult listed => listed
  | .sessionCreated entry => sessions ++ [entry]
  | .sessionClosed word => sessions.filter fun e ↦ e.wordId ≠ word
  | .paneCreated pane word => modifySession word (·.withPane ⟨pane, pane.2⟩) sessions
  | .paneClosed pane => sessions.map (dropFrom pane)
  | .paneSplit word tabIndex newPane layout =>
    modifySession word (fun e ↦ (e.withPane newPane).withLayout tabIndex layout newPane.paneIndex)
      sessions
  | .layoutUpdate word tabIndex layout focusedPane =>
    modifySession word (·.withLayout tabIndex layout focusedPane) sessions
  | .tabCreated word tab => modifySession word (·.withTab tab) sessions
  | .tabClosed word tabIndex => modifySession word (·.withoutTab tabIndex) sessions
  | .tabsReordered word tabIndices => modifySession word (·.reordered tabIndices) sessions
  | _ => sessions

theorem sessionList_foldl_forgetPane (panes : List PaneId) (m : SessionManager) :
    (panes.foldl forgetPane m).sessionList = m.sessionList :=
  (sameTab_foldl sameTab_forgetPane panes m).list

theorem sessionList_leavePane (m : SessionManager) : m.leavePane.sessionList = m.sessionList := by
  rw [leavePane]
  split
  · split
    · exact sessionList_selectPaneWithin 3 _ _
    · exact sessionList_selectSession m _
  · rfl

/-- A pane that is not known is in no entry. -/
theorem map_dropFrom_of_unknown {m : SessionManager} {pane : PaneId}
    (h : m.knowsPane pane = false) :
    m.sessionList.map (dropFrom pane) = m.sessionList := by
  rw [knowsPane, Bool.or_eq_false_iff, List.any_eq_false] at h
  refine (List.map_congr_left fun e he ↦ ?_).trans (List.map_id _)
  have hnone := h.2 e he
  rw [Bool.not_eq_true, List.any_eq_false] at hnone
  have hpanes : (e.panes.filter fun p ↦ p.paneId ≠ pane) = e.panes := by
    rw [List.filter_eq_self]
    exact fun q hq ↦ decide_eq_true fun heq ↦ hnone q hq (decide_eq_true heq)
  rw [dropFrom, hpanes]
  rfl

theorem sessionList_onPaneGone (m : SessionManager) (pane : PaneId) :
    (m.onPaneGone pane).1.sessionList = m.sessionList.map (dropFrom pane) := by
  rw [onPaneGone]
  split
  · dsimp only
    split
    · split
      · rfl
      · exact sessionList_leavePane _
    · rfl
  case isFalse hknown =>
    exact (map_dropFrom_of_unknown (eq_false_of_ne_true hknown)).symm

theorem sessionList_onSessionGone (m : SessionManager) (word : WordId) :
    (m.onSessionGone word).1.sessionList = m.sessionList.filter fun e ↦ e.wordId ≠ word := by
  rw [onSessionGone]
  split
  · dsimp only
    split
    · split
      · exact sessionList_selectSession _ _
      · rfl
    · rfl
  case isFalse hknown =>
    rw [knowsSession, Bool.not_eq_true, List.any_eq_false] at hknown
    refine (List.filter_eq_self.mpr fun e he ↦ ?_).symm
    exact decide_eq_true fun heq ↦ hknown e he (decide_eq_true heq)

theorem sessionList_leaveSession (m : SessionManager) (word : WordId) :
    (m.leaveSession word).sessionList = m.sessionList := by
  have hforgotten := sessionList_foldl_forgetPane (m.sessionPaneIds word) m
  rw [leaveSession]
  split
  · split
    · exact (sessionList_selectSession _ _).trans hforgotten
    · exact hforgotten
  · exact hforgotten

theorem sessionList_onTabGone (m : SessionManager) (word : WordId) (tabIndex : ℕ) :
    (m.onTabGone word tabIndex).sessionList =
      modifySession word (·.withoutTab tabIndex) m.sessionList := by
  rw [onTabGone]
  dsimp only
  split
  · split
    · exact (sessionList_selectTab _ _).1.trans (sessionList_foldl_forgetPane _ _)
    · exact sessionList_foldl_forgetPane _ _
  · exact sessionList_foldl_forgetPane _ _

theorem sessionList_reconcileViewedTab (m : SessionManager) (word : WordId) :
    (m.reconcileViewedTab word).sessionList = m.sessionList := by
  rw [reconcileViewedTab]
  split
  · exact sessionList_selectSession m word
  · split
    · rfl
    · split
      · exact (sameTab_setVisibleSet m _).list
      · exact sessionList_selectSession m word

theorem sessionList_reconcileView (m : SessionManager) :
    m.reconcileView.sessionList = m.sessionList := by
  rw [reconcileView]
  split
  · split
    · exact sessionList_selectPaneWithin 3 _ _
    · rfl
  · split
    · split
      · exact sessionList_selectSession m _
      · rfl
    · exact sessionList_reconcileViewedTab m _

theorem sameTab_ensurePanes (m : SessionManager) (panes : List PaneInfo) :
    SameTab m (m.ensurePanes panes) :=
  sameTab_foldl (f := fun (m : SessionManager) (p : PaneInfo) ↦ m.ensurePane p.paneId)
    (fun m p ↦ sameTab_onPane m p.paneId PaneSession.ensurePane) panes m

theorem sessionList_followTab (m : SessionManager) (word : WordId) (tabIndex : ℕ) :
    (m.followTab word tabIndex).sessionList = m.sessionList := by
  rw [followTab]
  split
  · split
    · exact ((sameTab_setVisibleSet _ _).trans (sameTab_focusFromTab _ _ _)).list
    · rfl
  · rfl

theorem sessionList_resyncUnlessCached (m : SessionManager) (cached : Bool) :
    (m.resyncUnlessCached cached).sessionList = m.sessionList := by
  rw [resyncUnlessCached]
  split
  · rfl
  · exact (sameTab_send _ _).list

theorem sessionList_handleServerMessage (m : SessionManager) (msg : Inbound) :
    (m.handleServerMessage msg).1.sessionList = listAfter m.sessionList msg := by
  cases msg with
  | stream pane msg => exact (sameTab_onPane m pane _).list
  | sessionListResult listed =>
    exact (sessionList_reconcileView _).trans (sameTab_ensurePanes _ _).list
  | sessionCreated entry =>
    refine (sessionList_selectSession _ _).trans ?_
    exact congrArg (· ++ [entry]) (sameTab_ensurePanes m entry.panes).list
  | sessionClosed word => exact sessionList_onSessionGone m word
  | sessionKicked word => exact sessionList_leaveSession m word
  | paneCreated pane word =>
    refine (sameTab_send _ _).list.trans ?_
    exact congrArg (modifySession word _) (sameTab_onPane m pane PaneSession.ensurePane).list
  | paneClosed pane => exact sessionList_onPaneGone m pane
  | paneSplit word tabIndex newPane layout =>
    refine (sessionList_followTab _ _ _).trans ?_
    exact congrArg (modifySession word _) (sameTab_onPane m _ PaneSession.ensurePane).list
  | layoutUpdate word tabIndex layout focusedPane => exact sessionList_followTab _ _ _
  | tabCreated word tab =>
    rw [handleServerMessage, onTabCreated]
    dsimp only
    split
    · exact (sessionList_selectTab _ _).1
    · rfl
  | tabClosed word tabIndex => exact sessionList_onTabGone m word tabIndex
  | tabsReordered word tabIndices => rfl
  | sessionCreatedEvent word => exact sessionList_resyncUnlessCached m _
  | tabCreatedEvent word tabIndex => exact sessionList_resyncUnlessCached m _
  | paneSpawned pane => exact sessionList_resyncUnlessCached m _

end SessionManager

end Client

end Kmux
