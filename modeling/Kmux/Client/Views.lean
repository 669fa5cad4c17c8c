import Kmux.Client.SessionManager

/-!
# What the client looks at

The client views one tab of one session, and attaches all the panes of the tab's layout. Moving the
view replaces the visible set and focuses one pane of it.

Selecting a pane switches the session and the tab until the pane is visible, by two functions that
call each other. When the tab that lists the pane is viewed and does not show it, the calls do not
end: the cached layouts and the visible set can differ. The recursion is on a number of rounds here,
of which three are enough, and a call that would go on is recorded in `stuck`.
-/

namespace Kmux

namespace Client

namespace SessionEntry

/-- The tab that selecting the session views: its active tab, or the first one. -/
def viewedTab (e : SessionEntry) : Option TabInfo :=
  (e.tabs.find? fun t ↦ t.tabIndex = e.activeTab).or e.tabs.head?

/-- The focus and the panes of the session's viewed tab. A session without tabs shows its first
pane. -/
def view (e : SessionEntry) (word : WordId) : ℕ × List PaneId :=
  match e.viewedTab with
  | some t => (t.focusedPane, t.layout.leaves.map fun i ↦ (word, i))
  | none =>
    match e.panes.head? with
    | some p => (p.paneIndex, [p.paneId])
    | none => (0, [])

end SessionEntry

/-- The entry of a session. -/
def findSession (sessions : List SessionEntry) (word : WordId) : Option SessionEntry :=
  sessions.find? fun e ↦ e.wordId = word

/-- Change the first element that meets `p`. -/
def modifyFirst {α : Type*} (p : α → Bool) (f : α → α) : List α → List α
  | [] => []
  | x :: xs => if p x then f x :: xs else x :: modifyFirst p f xs

/-- Change the entry of a session. -/
def modifySession (word : WordId) (f : SessionEntry → SessionEntry) :
    List SessionEntry → List SessionEntry :=
  modifyFirst (fun e ↦ e.wordId = word) f

/-- The focus and the panes of a tab, by its cached layout. -/
def tabView (sessions : List SessionEntry) (word : WordId) (tabIndex : ℕ) :
    Option (ℕ × List PaneId) :=
  (findSession sessions word).bind fun e ↦
    (e.tabs.find? fun t ↦ t.tabIndex = tabIndex).map fun t ↦
      (t.focusedPane, t.layout.leaves.map fun i ↦ (word, i))

/-- The tab that contains a pane, by the cached layouts. -/
def locatePane (sessions : List SessionEntry) (pane : PaneId) : Option ℕ :=
  (findSession sessions pane.1).bind fun e ↦
    (e.tabs.find? fun t ↦ pane.2 ∈ t.layout.leaves).map TabInfo.tabIndex

/-! ## The cached list -/

theorem mem_modifyFirst {α : Type*} {p : α → Bool} {f : α → α} {xs : List α} {y : α}
    (h : y ∈ modifyFirst p f xs) : y ∈ xs ∨ ∃ x ∈ xs, y = f x := by
  induction xs with
  | nil => exact .inl h
  | cons x xs ih =>
    rw [modifyFirst] at h
    split at h
    · rcases List.mem_cons.mp h with rfl | h
      · exact .inr ⟨x, List.mem_cons_self, rfl⟩
      · exact .inl (List.mem_cons_of_mem x h)
    · rcases List.mem_cons.mp h with rfl | h
      · exact .inl List.mem_cons_self
      · rcases ih h with h | ⟨z, hz, rfl⟩
        · exact .inl (List.mem_cons_of_mem x h)
        · exact .inr ⟨z, List.mem_cons_of_mem x hz, rfl⟩

theorem find_modifyFirst {α : Type*} {p : α → Bool} {f : α → α} (hf : ∀ x, p (f x) = p x)
    (xs : List α) : (modifyFirst p f xs).find? p = (xs.find? p).map f := by
  induction xs with
  | nil => rfl
  | cons x xs ih =>
    cases hx : p x with
    | true =>
      rw [modifyFirst, if_pos hx, List.find?_cons_of_pos ((hf x).trans hx),
        List.find?_cons_of_pos hx, Option.map_some]
    | false =>
      have hx' : ¬p x = true := ne_true_of_eq_false hx
      rw [modifyFirst, if_neg hx', List.find?_cons_of_neg hx', List.find?_cons_of_neg hx', ih]

theorem find_modifyFirst_of_ne {α : Type*} {p q : α → Bool} {f : α → α}
    (hf : ∀ x, q (f x) = q x) (hpq : ∀ x, p x = true → q x = false) (xs : List α) :
    (modifyFirst p f xs).find? q = xs.find? q := by
  induction xs with
  | nil => rfl
  | cons x xs ih =>
    cases hx : p x with
    | true =>
      have hq := ne_true_of_eq_false (hpq x hx)
      rw [modifyFirst, if_pos hx, List.find?_cons_of_neg (hf x ▸ hq), List.find?_cons_of_neg hq]
    | false =>
      rw [modifyFirst, if_neg (ne_true_of_eq_false hx), List.find?_cons, List.find?_cons, ih]

theorem mem_of_findSession {sessions : List SessionEntry} {word : WordId} {e : SessionEntry}
    (h : findSession sessions word = some e) : e ∈ sessions :=
  List.mem_of_find?_eq_some h

theorem wordId_of_findSession {sessions : List SessionEntry} {word : WordId} {e : SessionEntry}
    (h : findSession sessions word = some e) : e.wordId = word := by
  have hfound := List.find?_some h
  exact of_decide_eq_true hfound

theorem findSession_modifySession {f : SessionEntry → SessionEntry}
    (hf : ∀ e, (f e).wordId = e.wordId) (sessions : List SessionEntry) (word : WordId) :
    findSession (modifySession word f sessions) word = (findSession sessions word).map f :=
  find_modifyFirst (fun e ↦ by rw [hf]) sessions

theorem findSession_modifySession_of_ne {f : SessionEntry → SessionEntry}
    (hf : ∀ e, (f e).wordId = e.wordId) (sessions : List SessionEntry) {word word' : WordId}
    (h : word' ≠ word) :
    findSession (modifySession word f sessions) word' = findSession sessions word' := by
  refine find_modifyFirst_of_ne (fun e ↦ by rw [hf]) (fun e he ↦ ?_) sessions
  have hword : e.wordId = word := of_decide_eq_true he
  rw [hword]
  exact decide_eq_false h.symm

theorem findSession_map {f : SessionEntry → SessionEntry} (hf : ∀ e, (f e).wordId = e.wordId)
    (sessions : List SessionEntry) (word : WordId) :
    findSession (sessions.map f) word = (findSession sessions word).map f := by
  rw [findSession, List.find?_map, findSession]
  congr 1
  refine congrArg (List.find? · sessions) (funext fun e ↦ ?_)
  rw [Function.comp_apply, hf]

theorem findSession_filter {keep : SessionEntry → Bool} {word : WordId}
    (h : ∀ e, e.wordId = word → keep e = true) (sessions : List SessionEntry) :
    findSession (sessions.filter keep) word = findSession sessions word := by
  rw [findSession, List.find?_filter, findSession]
  refine congrArg (List.find? · sessions) (funext fun e ↦ ?_)
  by_cases he : e.wordId = word
  · rw [h e he, decide_eq_true he]
    rfl
  · rw [decide_eq_false he]
    exact decide_eq_false fun hboth ↦ Bool.false_ne_true hboth.2

namespace SessionManager

/-- Focus the tab's focused pane, or the first visible one. -/
def focusFromTab (m : SessionManager) (word : WordId) (focus : ℕ) : SessionManager :=
  { m with
    activePane := if (word, focus) ∈ m.visiblePanes then some (word, focus)
      else m.visiblePanes.head? }

def selectSession (m : SessionManager) (word : WordId) : SessionManager :=
  match findSession m.sessionList word with
  | none => m
  | some e =>
    let viewed :=
      { m with activeSession := some word, activeTab := e.viewedTab.map TabInfo.tabIndex }
    (viewed.setVisibleSet (e.view word).2).focusFromTab word (e.view word).1

/-- Switch the tab of the active session. -/
def selectTab (m : SessionManager) (tabIndex : ℕ) : SessionManager :=
  match m.activeSession with
  | none => m
  | some word =>
    match tabView m.sessionList word tabIndex with
    | none => m
    | some (focus, visible) =>
      ({ m with activeTab := some tabIndex }.setVisibleSet visible).focusFromTab word focus

/-- Focus a visible pane, and tell the daemon. -/
def publishFocus (m : SessionManager) (pane : PaneId) : SessionManager :=
  let focused := { m with activePane := some pane }
  match m.activeSession, m.activeTab with
  | some word, some tabIndex => focused.send [.setFocus word tabIndex pane.2]
  | _, _ => focused

/-- Show one pane that no cached tab contains. The sync state of the panes it replaces stays. -/
def showAlone (m : SessionManager) (pane : PaneId) : SessionManager :=
  let detached := m.send ((m.visiblePanes.filter fun p ↦ p ≠ pane).map .detach)
  { detached.resync pane with activePane := some pane, visiblePanes := [pane] }

/-- View the session and the tab that contain a pane: one of the two is switched. -/
def viewPane (m : SessionManager) (pane : PaneId) (tabIndex : ℕ) : SessionManager :=
  if m.activeSession ≠ some pane.1 then m.selectSession pane.1
  else if m.activeTab ≠ some tabIndex then m.selectTab tabIndex
  else m

/-- `select_pane` and `focus_pane`, for at most the given number of rounds. -/
def selectPaneWithin : ℕ → SessionManager → PaneId → SessionManager
  | 0, m, _ => { m with stuck := true }
  | rounds + 1, m, pane =>
    match locatePane m.sessionList pane with
    | none => m.showAlone pane
    | some tabIndex =>
      let viewed := m.viewPane pane tabIndex
      if pane ∈ viewed.visiblePanes then viewed.publishFocus pane
      else selectPaneWithin rounds viewed pane

def selectPane (m : SessionManager) (pane : PaneId) : SessionManager := selectPaneWithin 3 m pane

def focusPane (m : SessionManager) (pane : PaneId) : SessionManager :=
  if pane ∈ m.visiblePanes then m.publishFocus pane else m.selectPane pane

/-- The element `offset` places from `current`, around the end. -/
def cycle {α : Type*} (xs : List α) (current : ℕ) (offset : ℤ) : Option α :=
  xs[((current + offset) % xs.length).toNat]?

def cycleTab (m : SessionManager) (offset : ℤ) : SessionManager :=
  match m.activeSession with
  | none => m
  | some word =>
    let tabs := ((findSession m.sessionList word).map (·.tabs.map (·.tabIndex))).getD []
    let current := (m.activeTab.bind fun t ↦ tabs.findIdx? (· = t)).getD 0
    match cycle tabs current offset with
    | none => m
    | some tabIndex => m.selectTab tabIndex

def cycleSession (m : SessionManager) (offset : ℤ) : SessionManager :=
  let current :=
    (m.activeSession.bind fun w ↦ m.sessionList.findIdx? (·.wordId = w)).getD 0
  match cycle m.sessionList current offset with
  | none => m
  | some e => m.selectSession e.wordId

def cyclePane (m : SessionManager) (offset : ℤ) : SessionManager :=
  match m.activeSession with
  | none => m
  | some word =>
    let panes := ((findSession m.sessionList word).map (·.panes.map (·.paneId))).getD []
    let current := (m.activePane.bind fun p ↦ panes.findIdx? (· = p)).getD 0
    match cycle panes current offset with
    | none => m
    | some pane => m.selectPane pane

/-! ## What moving the view leaves alone -/

/-- A fold of operations that leave a part of the state alone leaves it alone. -/
theorem foldl_keeps {α β : Type*} {f : SessionManager → α → SessionManager}
    (g : SessionManager → β) (hf : ∀ m x, g (f m x) = g m) (xs : List α) (m : SessionManager) :
    g (xs.foldl f m) = g m := by
  induction xs generalizing m with
  | nil => rfl
  | cons x xs ih => rw [List.foldl_cons, ih, hf]

/-- The cached list and the viewed session and tab are those of `m`. -/
structure SameTab (m m' : SessionManager) : Prop where
  list : m'.sessionList = m.sessionList
  session : m'.activeSession = m.activeSession
  tab : m'.activeTab = m.activeTab
  pending : m'.pendingSelectPane = m.pendingSelectPane

theorem SameTab.refl (m : SessionManager) : SameTab m m := ⟨rfl, rfl, rfl, rfl⟩

theorem SameTab.trans {m m' m'' : SessionManager} (h : SameTab m m') (h' : SameTab m' m'') :
    SameTab m m'' :=
  ⟨h'.list.trans h.list, h'.session.trans h.session, h'.tab.trans h.tab,
    h'.pending.trans h.pending⟩

theorem sameTab_foldl {α : Type*} {f : SessionManager → α → SessionManager}
    (hf : ∀ m x, SameTab m (f m x)) (xs : List α) (m : SessionManager) :
    SameTab m (xs.foldl f m) :=
  ⟨foldl_keeps sessionList (fun m x ↦ (hf m x).list) xs m,
    foldl_keeps activeSession (fun m x ↦ (hf m x).session) xs m,
    foldl_keeps activeTab (fun m x ↦ (hf m x).tab) xs m,
    foldl_keeps pendingSelectPane (fun m x ↦ (hf m x).pending) xs m⟩

theorem sameTab_send (m : SessionManager) (msgs : List Outbound) : SameTab m (m.send msgs) := by
  rw [send]
  split
  · exact ⟨rfl, rfl, rfl, rfl⟩
  · exact SameTab.refl m

theorem sameTab_onPane (m : SessionManager) (pane : PaneId) (f : PaneSession → PaneSession) :
    SameTab m (m.onPane pane f) := by
  refine SameTab.trans ?_ (sameTab_send _ _)
  exact ⟨rfl, rfl, rfl, rfl⟩

theorem sameTab_detachPane (m : SessionManager) (pane : PaneId) : SameTab m (m.detachPane pane) :=
  have h := sameTab_send m [.detach pane]
  ⟨h.list, h.session, h.tab, h.pending⟩

theorem sameTab_forgetPane (m : SessionManager) (pane : PaneId) : SameTab m (m.forgetPane pane) :=
  ⟨rfl, rfl, rfl, rfl⟩

theorem sameTab_setVisibleSet (m : SessionManager) (new : List PaneId) :
    SameTab m (m.setVisibleSet new) :=
  have h := (sameTab_foldl sameTab_detachPane (m.visiblePanes.filter fun p ↦ p ∉ new) m).trans
    (sameTab_foldl (fun m p ↦ sameTab_onPane m p PaneSession.resync)
      (new.filter fun p ↦ p ∉ m.visiblePanes) _)
  ⟨h.list, h.session, h.tab, h.pending⟩

theorem sameTab_focusFromTab (m : SessionManager) (word : WordId) (focus : ℕ) :
    SameTab m (m.focusFromTab word focus) := ⟨rfl, rfl, rfl, rfl⟩

theorem sameTab_publishFocus (m : SessionManager) (pane : PaneId) :
    SameTab m (m.publishFocus pane) := by
  rw [publishFocus]
  split
  · refine SameTab.trans ?_ (sameTab_send _ _)
    exact ⟨rfl, rfl, rfl, rfl⟩
  · exact ⟨rfl, rfl, rfl, rfl⟩

theorem sameTab_showAlone (m : SessionManager) (pane : PaneId) : SameTab m (m.showAlone pane) :=
  have h := (sameTab_send m ((m.visiblePanes.filter fun p ↦ p ≠ pane).map .detach)).trans
    (sameTab_onPane _ pane PaneSession.resync)
  ⟨h.list, h.session, h.tab, h.pending⟩

theorem selectSession_of_find {m : SessionManager} {word : WordId} {e : SessionEntry}
    (h : findSession m.sessionList word = some e) :
    m.selectSession word =
      ({ m with activeSession := some word,
                activeTab := e.viewedTab.map TabInfo.tabIndex }.setVisibleSet
        (e.view word).2).focusFromTab word (e.view word).1 := by
  simp only [selectSession, h]

theorem selectSession_of_unlisted {m : SessionManager} {word : WordId}
    (h : findSession m.sessionList word = none) : m.selectSession word = m := by
  simp only [selectSession, h]

theorem selectTab_of_view {m : SessionManager} {word : WordId} {tabIndex : ℕ} {v : ℕ × List PaneId}
    (hword : m.activeSession = some word) (hv : tabView m.sessionList word tabIndex = some v) :
    m.selectTab tabIndex =
      ({ m with activeTab := some tabIndex }.setVisibleSet v.2).focusFromTab word v.1 := by
  simp only [selectTab, hword, hv]

/-- Selecting a tab does nothing, or shows the tab's cached layout. -/
theorem selectTab_cases (m : SessionManager) (tabIndex : ℕ) :
    m.selectTab tabIndex = m ∨ ∃ word v, m.activeSession = some word ∧
      tabView m.sessionList word tabIndex = some v ∧
      m.selectTab tabIndex =
        ({ m with activeTab := some tabIndex }.setVisibleSet v.2).focusFromTab word v.1 := by
  rcases Option.eq_none_or_eq_some m.activeSession with hword | ⟨word, hword⟩
  · exact .inl (by simp only [selectTab, hword])
  · rcases Option.eq_none_or_eq_some (tabView m.sessionList word tabIndex) with hv | ⟨v, hv⟩
    · exact .inl (by simp only [selectTab, hword, hv])
    · exact .inr ⟨word, v, hword, hv, selectTab_of_view hword hv⟩

theorem sessionList_selectSession (m : SessionManager) (word : WordId) :
    (m.selectSession word).sessionList = m.sessionList := by
  cases h : findSession m.sessionList word with
  | none => rw [selectSession_of_unlisted h]
  | some e =>
    rw [selectSession_of_find h]
    exact ((sameTab_setVisibleSet _ _).trans (sameTab_focusFromTab _ _ _)).list

theorem sessionList_selectTab (m : SessionManager) (tabIndex : ℕ) :
    (m.selectTab tabIndex).sessionList = m.sessionList ∧
      (m.selectTab tabIndex).activeSession = m.activeSession := by
  rcases selectTab_cases m tabIndex with h | ⟨word, v, _, _, h⟩
  · rw [h]
    exact ⟨rfl, rfl⟩
  · rw [h]
    have hsame := (sameTab_setVisibleSet { m with activeTab := some tabIndex } v.2).trans
      (sameTab_focusFromTab _ word v.1)
    exact ⟨hsame.list, hsame.session⟩

theorem sessionList_viewPane (m : SessionManager) (pane : PaneId) (tabIndex : ℕ) :
    (m.viewPane pane tabIndex).sessionList = m.sessionList := by
  rw [viewPane]
  split
  · exact sessionList_selectSession m pane.1
  · split
    · exact (sessionList_selectTab m tabIndex).1
    · rfl

theorem selectPaneWithin_of_unlisted {m : SessionManager} {pane : PaneId}
    (h : locatePane m.sessionList pane = none) (rounds : ℕ) :
    selectPaneWithin (rounds + 1) m pane = m.showAlone pane := by
  simp only [selectPaneWithin, h]

theorem selectPaneWithin_of_located {m : SessionManager} {pane : PaneId} {tabIndex : ℕ}
    (h : locatePane m.sessionList pane = some tabIndex) (rounds : ℕ) :
    selectPaneWithin (rounds + 1) m pane =
      if pane ∈ (m.viewPane pane tabIndex).visiblePanes then
        (m.viewPane pane tabIndex).publishFocus pane
      else selectPaneWithin rounds (m.viewPane pane tabIndex) pane := by
  simp only [selectPaneWithin, h]

theorem sessionList_selectPaneWithin (rounds : ℕ) (m : SessionManager) (pane : PaneId) :
    (selectPaneWithin rounds m pane).sessionList = m.sessionList := by
  induction rounds generalizing m with
  | zero => rfl
  | succ rounds ih =>
    rcases Option.eq_none_or_eq_some (locatePane m.sessionList pane) with h | ⟨tabIndex, h⟩
    · rw [selectPaneWithin_of_unlisted h]
      exact (sameTab_showAlone m pane).list
    · have hviewed := sessionList_viewPane m pane tabIndex
      rw [selectPaneWithin_of_located h]
      split
      · exact (sameTab_publishFocus _ pane).list.trans hviewed
      · exact (ih _).trans hviewed

/-! ## Three rounds are enough -/

theorem viewPane_settled {m : SessionManager} {pane : PaneId} {tabIndex : ℕ}
    (hsession : m.activeSession = some pane.1) (htab : m.activeTab = some tabIndex) :
    m.viewPane pane tabIndex = m := by
  rw [viewPane, if_neg (not_not.mpr hsession), if_neg (not_not.mpr htab)]

/-- The tab that contains a pane is cached. -/
theorem exists_tabView {sessions : List SessionEntry} {pane : PaneId} {tabIndex : ℕ}
    (h : locatePane sessions pane = some tabIndex) :
    ∃ e v, findSession sessions pane.1 = some e ∧ tabView sessions pane.1 tabIndex = some v := by
  obtain ⟨e, he, hlocated⟩ := Option.bind_eq_some_iff.mp h
  obtain ⟨t, ht, rfl⟩ := Option.map_eq_some_iff.mp hlocated
  obtain ⟨t', ht'⟩ : ∃ t', (e.tabs.find? fun u ↦ u.tabIndex = t.tabIndex) = some t' := by
    rw [← Option.isSome_iff_exists, List.find?_isSome]
    exact ⟨t, List.mem_of_find?_eq_some ht, decide_eq_true rfl⟩
  refine ⟨e, (t'.focusedPane, t'.layout.leaves.map fun i ↦ (pane.1, i)), he, ?_⟩
  rw [tabView, he, Option.bind_some, ht', Option.map_some]

theorem activeSession_viewPane {m : SessionManager} {pane : PaneId} {tabIndex : ℕ}
    (h : locatePane m.sessionList pane = some tabIndex) :
    (m.viewPane pane tabIndex).activeSession = some pane.1 := by
  obtain ⟨e, -, he, -⟩ := exists_tabView h
  rw [viewPane]
  split
  case isTrue =>
    rw [selectSession_of_find he]
    exact ((sameTab_setVisibleSet _ _).trans (sameTab_focusFromTab _ _ _)).session
  case isFalse hsession =>
    rw [not_not] at hsession
    split
    · rw [(sessionList_selectTab m tabIndex).2, hsession]
    · exact hsession

theorem activeTab_viewPane {m : SessionManager} {pane : PaneId} {tabIndex : ℕ}
    (h : locatePane m.sessionList pane = some tabIndex)
    (hsession : m.activeSession = some pane.1) :
    (m.viewPane pane tabIndex).activeTab = some tabIndex := by
  obtain ⟨-, v, -, hv⟩ := exists_tabView h
  rw [viewPane, if_neg (not_not.mpr hsession)]
  split
  case isTrue =>
    rw [selectTab_of_view hsession hv]
    exact ((sameTab_setVisibleSet _ _).trans (sameTab_focusFromTab _ _ _)).tab
  case isFalse htab => exact not_not.mp htab

/-- Once the tab that contains the pane is viewed and does not show it, the calls go on. -/
theorem selectPaneWithin_stuck {m : SessionManager} {pane : PaneId} {tabIndex : ℕ}
    (h : locatePane m.sessionList pane = some tabIndex)
    (hsession : m.activeSession = some pane.1) (htab : m.activeTab = some tabIndex)
    (hpane : pane ∉ m.visiblePanes) (rounds : ℕ) :
    selectPaneWithin rounds m pane = { m with stuck := true } := by
  induction rounds with
  | zero => rfl
  | succ rounds ih =>
    rw [selectPaneWithin_of_located h, viewPane_settled hsession htab, if_neg hpane, ih]

/-- A call that takes more than three rounds does not end. -/
theorem selectPaneWithin_three (m : SessionManager) (pane : PaneId) (rounds : ℕ) :
    selectPaneWithin (rounds + 3) m pane = m.selectPane pane := by
  rw [selectPane]
  rcases Option.eq_none_or_eq_some (locatePane m.sessionList pane) with h | ⟨tabIndex, h⟩
  · rw [selectPaneWithin_of_unlisted h, selectPaneWithin_of_unlisted h]
  · have h₁ : locatePane (m.viewPane pane tabIndex).sessionList pane = some tabIndex := by
      rw [sessionList_viewPane, h]
    have h₂ : locatePane ((m.viewPane pane tabIndex).viewPane pane tabIndex).sessionList pane =
        some tabIndex := by
      rw [sessionList_viewPane, h₁]
    have hsession := activeSession_viewPane h
    rw [selectPaneWithin_of_located h, selectPaneWithin_of_located h]
    split
    · rfl
    · rw [selectPaneWithin_of_located h₁, selectPaneWithin_of_located h₁]
      split
      · rfl
      case isFalse hpane =>
        have hstuck := selectPaneWithin_stuck h₂ (activeSession_viewPane h₁)
          (activeTab_viewPane h₁ hsession) hpane
        rw [hstuck, hstuck]

end SessionManager

end Client

end Kmux
