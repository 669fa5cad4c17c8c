import Kmux.Client.ServerHandler
import Kmux.Lib.Utf8Text
import Mathlib.Data.Nat.Digits.Defs

/-!
# Selecting a pane by its id

A pane is named by a text, the session's word and the pane's index with a slash between. Selecting
one reads the text to find the tab that lists the pane, and compares the text with those of the
visible panes, which were written from the cached layouts. So besides the cached layouts and the
visible set the form of the text matters: `eagle/01` is located as pane 1 and never is visible.

This is the view alone, with the ids as texts; `SessionManager` has the panes as pairs, and what is
sent and kept for them. `selectPaneWithin_ofManager` says that the two agree.

Selection switches to the tab that lists the pane in at most two steps. It ends if the pane is
visible after one of them, and goes on without end if the tab is viewed and the pane is not visible:
nothing changes any more. `selects_iff` is the exact condition.
-/

namespace Kmux

namespace Client

open Utf8Text

/-! ## Pane ids -/

/-- `str::parse::<u32>`: an optional plus sign, then decimal digits below `2 ^ 32`. -/
def parseU32 (s : List Char) : Option ℕ :=
  let digits := (s.dropPrefix? ['+']).getD s
  if !digits.isEmpty && digits.all Char.isDigit && Nat.ofDigitChars 10 digits 0 < 2 ^ 32 then
    some (Nat.ofDigitChars 10 digits 0)
  else none

def formatPaneId (pane : PaneId) : List Char := pane.1.toList ++ '/' :: Nat.toDigits 10 pane.2

/-- The word and the index of a pane id. -/
def parsePaneId (s : List Char) : Option PaneId :=
  match rsplitOnce '/' s with
  | none => none
  | some (word, index) =>
    if word.isEmpty then none else (parseU32 index).map fun i ↦ (String.ofList word, i)

theorem slash_not_mem_toDigits (i : ℕ) : '/' ∉ Nat.toDigits 10 i := fun h ↦ by
  have := Nat.isDigit_of_mem_toDigits (by decide) (by decide) h
  simp at this

theorem rsplitOnce_formatPaneId (pane : PaneId) :
    rsplitOnce '/' (formatPaneId pane) = some (pane.1.toList, Nat.toDigits 10 pane.2) :=
  rsplitOnce_append (slash_not_mem_toDigits pane.2) pane.1.toList

theorem formatPaneId_injective : Function.Injective formatPaneId := by
  intro a b h
  have hsplit := congrArg (rsplitOnce '/') h
  rw [rsplitOnce_formatPaneId, rsplitOnce_formatPaneId] at hsplit
  obtain ⟨hword, hindex⟩ := Prod.mk.inj (Option.some.inj hsplit)
  refine Prod.ext (String.toList_inj.mp hword) ?_
  have hvalue := congrArg (fun ds ↦ Nat.ofDigitChars 10 ds 0) hindex
  simpa only [Nat.ofDigitChars_ten_toDigits] using hvalue

theorem parseU32_toDigits {i : ℕ} (h : i < 2 ^ 32) : parseU32 (Nat.toDigits 10 i) = some i := by
  have hplus : (Nat.toDigits 10 i).dropPrefix? ['+'] = none := by
    refine dropPrefix?_eq_none fun rest heq ↦ ?_
    have hmem : '+' ∈ Nat.toDigits 10 i := by rw [heq]; simp
    have hdigit := Nat.isDigit_of_mem_toDigits (by decide) (by decide) hmem
    simp at hdigit
  have hdigits : (Nat.toDigits 10 i).all Char.isDigit = true :=
    List.all_eq_true.mpr fun c hc ↦ Nat.isDigit_of_mem_toDigits (by decide) (by decide) hc
  have hvalue : Nat.ofDigitChars 10 (Nat.toDigits 10 i) 0 = i := Nat.ofDigitChars_ten_toDigits
  have hne : Nat.toDigits 10 i ≠ [] := Nat.toDigits_ne_nil
  have hlt : i < 4294967296 := h
  rw [parseU32, hplus]
  simp [hvalue, hdigits, hlt, hne]

theorem parsePaneId_formatPaneId {pane : PaneId} (hword : pane.1 ≠ "") (hindex : pane.2 < 2 ^ 32) :
    parsePaneId (formatPaneId pane) = some pane := by
  have hne : pane.1.toList ≠ [] := fun h ↦ hword (String.toList_eq_nil_iff.mp h)
  rw [parsePaneId, rsplitOnce_formatPaneId]
  simp [hne, parseU32_toDigits hindex]

/-! ## The view -/

/-- What the client views, with the panes by their ids. -/
structure TextView where
  sessionList : List SessionEntry
  activeSession : Option WordId
  activeTab : Option ℕ
  activePane : Option (List Char)
  visiblePanes : List (List Char)

/-- The word of the session and the index of the tab that contain a pane, by the cached layouts. -/
def locateId (sessions : List SessionEntry) (id : List Char) : Option (WordId × ℕ) :=
  (parsePaneId id).bind fun pane ↦ (locatePane sessions pane).map fun t ↦ (pane.1, t)

namespace TextView

def focusFromTab (v : TextView) (word : WordId) (focus : ℕ) : TextView :=
  { v with
    activePane := if formatPaneId (word, focus) ∈ v.visiblePanes then
      some (formatPaneId (word, focus)) else v.visiblePanes.head? }

def selectSession (v : TextView) (word : WordId) : TextView :=
  match findSession v.sessionList word with
  | none => v
  | some e =>
    { v with
      activeSession := some word
      activeTab := e.viewedTab.map TabInfo.tabIndex
      visiblePanes := (e.view word).2.map formatPaneId }.focusFromTab word (e.view word).1

def selectTab (v : TextView) (tabIndex : ℕ) : TextView :=
  match v.activeSession with
  | none => v
  | some word =>
    match tabView v.sessionList word tabIndex with
    | none => v
    | some (focus, visible) =>
      { v with
        activeTab := some tabIndex
        visiblePanes := visible.map formatPaneId }.focusFromTab word focus

/-- Show one pane that no cached tab contains. -/
def showAlone (v : TextView) (id : List Char) : TextView :=
  { v with activePane := some id, visiblePanes := [id] }

/-- The switch of the session or of the tab that `select_pane` makes. -/
def viewPane (v : TextView) (word : WordId) (tabIndex : ℕ) : TextView :=
  if v.activeSession ≠ some word then v.selectSession word
  else if v.activeTab ≠ some tabIndex then v.selectTab tabIndex
  else v

/-- `select_pane` and `focus_pane`, for at most the given number of rounds. -/
def selectPaneWithin : ℕ → TextView → List Char → Option TextView
  | 0, _, _ => none
  | rounds + 1, v, id =>
    match locateId v.sessionList id with
    | none => some (v.showAlone id)
    | some (word, tabIndex) =>
      let viewed := v.viewPane word tabIndex
      if id ∈ viewed.visiblePanes then some { viewed with activePane := some id }
      else selectPaneWithin rounds viewed id

/-- `focus_pane`, with at most the given number of rounds of `select_pane`. -/
def focusPaneWithin (rounds : ℕ) (v : TextView) (id : List Char) : Option TextView :=
  if id ∈ v.visiblePanes then some { v with activePane := some id }
  else selectPaneWithin rounds v id

/-- Selecting ends, and if the pane is located, with the pane, its session and its tab. -/
def Selects (select : ℕ → TextView → List Char → Option TextView) (v : TextView) (id : List Char) :
    Prop :=
  ∃ rounds v', select rounds v id = some v' ∧
    ∀ word tabIndex, locateId v.sessionList id = some (word, tabIndex) →
      v'.activeSession = some word ∧ v'.activeTab = some tabIndex ∧ v'.activePane = some id

/-! ## One round -/

theorem selectPaneWithin_of_located {v : TextView} {id : List Char} {word : WordId} {tabIndex : ℕ}
    (h : locateId v.sessionList id = some (word, tabIndex)) (rounds : ℕ) :
    selectPaneWithin (rounds + 1) v id =
      if id ∈ (v.viewPane word tabIndex).visiblePanes then
        some { v.viewPane word tabIndex with activePane := some id }
      else selectPaneWithin rounds (v.viewPane word tabIndex) id := by
  simp only [selectPaneWithin, h]

theorem sessionList_viewPane (v : TextView) (word : WordId) (tabIndex : ℕ) :
    (v.viewPane word tabIndex).sessionList = v.sessionList := by
  rw [viewPane, selectSession, selectTab]
  split_ifs
  · split <;> rfl
  · split
    · rfl
    · split <;> rfl
  · rfl

/-- A located pane's session is cached, and so is its tab. -/
theorem exists_of_locateId {sessions : List SessionEntry} {id : List Char} {word : WordId}
    {tabIndex : ℕ} (h : locateId sessions id = some (word, tabIndex)) :
    ∃ e v, findSession sessions word = some e ∧ e.tabs ≠ [] ∧
      tabView sessions word tabIndex = some v := by
  obtain ⟨pane, -, hpane⟩ := Option.bind_eq_some_iff.mp h
  obtain ⟨t, ht, heq⟩ := Option.map_eq_some_iff.mp hpane
  cases heq
  obtain ⟨e, v, he, hv⟩ := SessionManager.exists_tabView ht
  refine ⟨e, v, he, ?_, hv⟩
  rintro hnil
  rw [tabView, he, Option.bind_some, hnil] at hv
  cases hv

/-- The tab that selecting a session views is found by its index. -/
theorem tabView_of_viewedTab {sessions : List SessionEntry} {word : WordId} {e : SessionEntry}
    {t : TabInfo} (he : findSession sessions word = some e) (ht : e.viewedTab = some t) :
    tabView sessions word t.tabIndex = some (e.view word) := by
  have hfind : (e.tabs.find? fun u ↦ u.tabIndex = t.tabIndex) = some t := by
    rw [SessionEntry.viewedTab] at ht
    cases hactive : e.tabs.find? fun u ↦ u.tabIndex = e.activeTab with
    | some u =>
      rw [hactive, Option.some_or] at ht
      cases ht
      have hindex : t.tabIndex = e.activeTab := by
        have hfound := List.find?_some hactive
        exact of_decide_eq_true hfound
      rw [hindex]
      exact hactive
    | none =>
      rw [hactive, Option.none_or] at ht
      obtain ⟨rest, hrest⟩ := List.head?_eq_some_iff.mp ht
      rw [hrest, List.find?_cons_of_pos (by simp)]
  rw [tabView, he, Option.bind_some, hfind, SessionEntry.view, ht]
  rfl

/-- A round ends the selection, or leaves it to the view after the switch. -/
theorem selects_iff_viewPane {v : TextView} {id : List Char} {word : WordId} {tabIndex : ℕ}
    (h : locateId v.sessionList id = some (word, tabIndex)) :
    Selects selectPaneWithin v id ↔
      if id ∈ (v.viewPane word tabIndex).visiblePanes then
        (v.viewPane word tabIndex).activeSession = some word ∧
          (v.viewPane word tabIndex).activeTab = some tabIndex
      else Selects selectPaneWithin (v.viewPane word tabIndex) id := by
  have hlist := sessionList_viewPane v word tabIndex
  split_ifs with hvisible
  · constructor
    · rintro ⟨_ | rounds, v', hv', hnames⟩
      · cases hv'
      · rw [selectPaneWithin_of_located h, if_pos hvisible] at hv'
        cases hv'
        exact ⟨(hnames word tabIndex h).1, (hnames word tabIndex h).2.1⟩
    · rintro ⟨hsession, htab⟩
      refine ⟨1, _, by rw [selectPaneWithin_of_located h, if_pos hvisible], ?_⟩
      intro word' tabIndex' h'
      rw [h] at h'
      cases h'
      exact ⟨hsession, htab, rfl⟩
  · constructor
    · rintro ⟨_ | rounds, v', hv', hnames⟩
      · cases hv'
      · rw [selectPaneWithin_of_located h, if_neg hvisible] at hv'
        exact ⟨rounds, v', hv', by rwa [hlist]⟩
    · rintro ⟨rounds, v', hv', hnames⟩
      rw [hlist] at hnames
      exact ⟨rounds + 1, v', by rw [selectPaneWithin_of_located h, if_neg hvisible, hv'], hnames⟩

/-- The tab that contains the pane is viewed: the pane is visible, or the calls do not end. -/
theorem selectPaneWithin_settled {v : TextView} {id : List Char} {word : WordId} {tabIndex : ℕ}
    (h : locateId v.sessionList id = some (word, tabIndex)) (hsession : v.activeSession = some word)
    (htab : v.activeTab = some tabIndex) (hvisible : id ∉ v.visiblePanes) (rounds : ℕ) :
    selectPaneWithin rounds v id = none := by
  have hview : v.viewPane word tabIndex = v := by
    rw [viewPane, if_neg (not_not.mpr hsession), if_neg (not_not.mpr htab)]
  induction rounds with
  | zero => rfl
  | succ rounds ih => rw [selectPaneWithin_of_located h, hview, if_neg hvisible, ih]

theorem not_selects_settled {v : TextView} {id : List Char} {word : WordId} {tabIndex : ℕ}
    (h : locateId v.sessionList id = some (word, tabIndex)) (hsession : v.activeSession = some word)
    (htab : v.activeTab = some tabIndex) (hvisible : id ∉ v.visiblePanes) :
    ¬Selects selectPaneWithin v id := by
  rintro ⟨rounds, v', hv', -⟩
  rw [selectPaneWithin_settled h hsession htab hvisible] at hv'
  cases hv'

/-! ## When the selection ends -/

/-- The first cached tab with this index shows the pane under this id. -/
def TabShows (sessions : List SessionEntry) (word : WordId) (tabIndex : ℕ) (id : List Char) :
    Prop :=
  ∃ view, tabView sessions word tabIndex = some view ∧ id ∈ view.2.map formatPaneId

/-- The index of the tab that selecting the session views. -/
def opensAt (sessions : List SessionEntry) (word : WordId) : Option ℕ :=
  (findSession sessions word).bind fun e ↦ e.viewedTab.map TabInfo.tabIndex

/-- If the pane is located: its tab is viewed and it is visible, or its tab is not viewed, the first
tab with this index shows it, and the session, if it has to be selected, does not open with another
tab that shows it. -/
def Shown (v : TextView) (id : List Char) : Prop :=
  ∀ word tabIndex, locateId v.sessionList id = some (word, tabIndex) →
    if v.activeSession = some word ∧ v.activeTab = some tabIndex then id ∈ v.visiblePanes
    else TabShows v.sessionList word tabIndex id ∧
      (v.activeSession = some word ∨ opensAt v.sessionList word = some tabIndex ∨
        ∀ other, opensAt v.sessionList word = some other → ¬TabShows v.sessionList word other id)

theorem tabShows_iff {sessions : List SessionEntry} {word : WordId} {tabIndex : ℕ}
    {view : ℕ × List PaneId} (h : tabView sessions word tabIndex = some view) (id : List Char) :
    TabShows sessions word tabIndex id ↔ id ∈ view.2.map formatPaneId := by
  constructor
  · rintro ⟨view', hview', hid⟩
    rw [h] at hview'
    cases hview'
    exact hid
  · exact fun hid ↦ ⟨view, h, hid⟩

/-- The session is viewed, with another tab: the tab is switched. -/
theorem selects_iff_of_session {v : TextView} {id : List Char} {word : WordId} {tabIndex : ℕ}
    (h : locateId v.sessionList id = some (word, tabIndex)) (hsession : v.activeSession = some word)
    (htab : v.activeTab ≠ some tabIndex) :
    Selects selectPaneWithin v id ↔ TabShows v.sessionList word tabIndex id := by
  obtain ⟨e, view, -, -, hview⟩ := exists_of_locateId h
  have hswitched : v.viewPane word tabIndex =
      { v with
        activeTab := some tabIndex
        visiblePanes := view.2.map formatPaneId }.focusFromTab word view.1 := by
    rw [viewPane, if_neg (not_not.mpr hsession), if_pos htab]
    simp only [selectTab, hsession, hview]
  rw [selects_iff_viewPane h, tabShows_iff hview, hswitched]
  split_ifs with hvisible
  · exact iff_of_true ⟨hsession, rfl⟩ hvisible
  · exact iff_of_false (not_selects_settled h hsession rfl hvisible) hvisible

/-- Another session is viewed: the session is switched, and then the tab if need be. -/
theorem selects_iff_of_other {v : TextView} {id : List Char} {word : WordId} {tabIndex : ℕ}
    (h : locateId v.sessionList id = some (word, tabIndex))
    (hsession : v.activeSession ≠ some word) :
    Selects selectPaneWithin v id ↔ TabShows v.sessionList word tabIndex id ∧
      (opensAt v.sessionList word = some tabIndex ∨
        ∀ other, opensAt v.sessionList word = some other →
          ¬TabShows v.sessionList word other id) := by
  obtain ⟨e, -, he, htabs, -⟩ := exists_of_locateId h
  obtain ⟨t, ht⟩ : ∃ t, e.viewedTab = some t := by
    obtain ⟨first, rest, hcons⟩ := List.exists_cons_of_ne_nil htabs
    rw [SessionEntry.viewedTab, hcons, List.head?_cons]
    cases List.find? (fun u ↦ decide (u.tabIndex = e.activeTab)) (first :: rest) with
    | none => exact ⟨first, rfl⟩
    | some u => exact ⟨u, rfl⟩
  have hopens : opensAt v.sessionList word = some t.tabIndex := by
    rw [opensAt, he, Option.bind_some, ht, Option.map_some]
  have hshows := tabShows_iff (tabView_of_viewedTab he ht) id
  have hswitched : v.viewPane word tabIndex =
      { v with
        activeSession := some word
        activeTab := some t.tabIndex
        visiblePanes := (e.view word).2.map formatPaneId }.focusFromTab word (e.view word).1 := by
    rw [viewPane, if_pos hsession]
    simp only [selectSession, he, ht, Option.map_some]
  rw [selects_iff_viewPane h, hopens, hswitched]
  by_cases heq : t.tabIndex = tabIndex
  · rw [heq] at hshows ⊢
    rw [hshows]
    split_ifs with hvisible
    · exact iff_of_true ⟨rfl, rfl⟩ ⟨hvisible, .inl rfl⟩
    · exact iff_of_false (not_selects_settled h rfl rfl hvisible) fun hboth ↦ hvisible hboth.1
  · have hne : some t.tabIndex ≠ some tabIndex := fun hsome ↦ heq (Option.some.inj hsome)
    split_ifs with hvisible
    · -- the selection ends here, in a tab that also shows the pane
      refine iff_of_false (fun hboth ↦ hne hboth.2) ?_
      rintro ⟨-, hindex | hnot⟩
      · exact hne hindex
      · exact hnot t.tabIndex rfl (hshows.mpr hvisible)
    · have hnot : ∀ other, some t.tabIndex = some other →
          ¬TabShows v.sessionList word other id := by
        rintro other hother
        cases hother
        exact fun hmem ↦ hvisible (hshows.mp hmem)
      refine Iff.trans (selects_iff_of_session ?_ ?_ ?_) (and_iff_left (.inr hnot)).symm
      · exact h
      · rfl
      · exact hne

theorem selects_iff_shown (v : TextView) (id : List Char) :
    Selects selectPaneWithin v id ↔ Shown v id := by
  cases h : locateId v.sessionList id with
  | none =>
    refine iff_of_true ⟨1, v.showAlone id, by simp only [selectPaneWithin, h], ?_⟩ ?_
    · intro word tabIndex h'
      cases h ▸ h'
    · intro word tabIndex h'
      cases h ▸ h'
  | some located =>
    obtain ⟨word, tabIndex⟩ := located
    have hshown : Shown v id ↔
        if v.activeSession = some word ∧ v.activeTab = some tabIndex then id ∈ v.visiblePanes
        else TabShows v.sessionList word tabIndex id ∧
          (v.activeSession = some word ∨ opensAt v.sessionList word = some tabIndex ∨
            ∀ other, opensAt v.sessionList word = some other →
              ¬TabShows v.sessionList word other id) := by
      refine ⟨fun hall ↦ hall word tabIndex h, fun hone word' tabIndex' h' ↦ ?_⟩
      rw [h] at h'
      cases h'
      exact hone
    rw [hshown]
    by_cases hsession : v.activeSession = some word
    · by_cases htab : v.activeTab = some tabIndex
      · rw [if_pos ⟨hsession, htab⟩, selects_iff_viewPane h]
        have hview : v.viewPane word tabIndex = v := by
          rw [viewPane, if_neg (not_not.mpr hsession), if_neg (not_not.mpr htab)]
        rw [hview]
        split_ifs with hvisible
        · exact iff_of_true ⟨hsession, htab⟩ hvisible
        · exact iff_of_false (not_selects_settled h hsession htab hvisible) hvisible
      · rw [if_neg fun hboth ↦ htab hboth.2, selects_iff_of_session h hsession htab]
        exact (and_iff_left (.inl hsession)).symm
    · rw [if_neg fun hboth ↦ hsession hboth.1, selects_iff_of_other h hsession,
        or_iff_right hsession]

/-- **Selecting a pane.** In every state and for every id, selecting a pane ends as it should
exactly if the id is `Shown`. Focusing a visible pane does if the tab viewed is the one that lists
it. -/
theorem selects_iff (v : TextView) (id : List Char) :
    (Selects selectPaneWithin v id ↔ Shown v id) ∧
      (Selects focusPaneWithin v id ↔
        if id ∈ v.visiblePanes then ∀ word tabIndex,
          locateId v.sessionList id = some (word, tabIndex) →
            v.activeSession = some word ∧ v.activeTab = some tabIndex
        else Shown v id) := by
  refine ⟨selects_iff_shown v id, ?_⟩
  split_ifs with hvisible
  · constructor
    · rintro ⟨rounds, v', hv', hnames⟩ word tabIndex h
      rw [focusPaneWithin, if_pos hvisible] at hv'
      cases hv'
      exact ⟨(hnames word tabIndex h).1, (hnames word tabIndex h).2.1⟩
    · intro hviewed
      refine ⟨0, _, by rw [focusPaneWithin, if_pos hvisible], fun word tabIndex h ↦ ?_⟩
      exact ⟨(hviewed word tabIndex h).1, (hviewed word tabIndex h).2, rfl⟩
  · rw [← selects_iff_shown v id]
    simp only [Selects, focusPaneWithin, if_neg hvisible]

/-! ## The session manager -/

/-- The view of a session manager. -/
def ofManager (m : SessionManager) : TextView :=
  { sessionList := m.sessionList
    activeSession := m.activeSession
    activeTab := m.activeTab
    activePane := m.activePane.map formatPaneId
    visiblePanes := m.visiblePanes.map formatPaneId }

theorem mem_visiblePanes_ofManager (m : SessionManager) (pane : PaneId) :
    formatPaneId pane ∈ (ofManager m).visiblePanes ↔ pane ∈ m.visiblePanes :=
  List.mem_map_of_injective formatPaneId_injective

theorem ofManager_focusFromTab (m : SessionManager) (word : WordId) (focus : ℕ) :
    ofManager (m.focusFromTab word focus) = (ofManager m).focusFromTab word focus := by
  rw [SessionManager.focusFromTab, focusFromTab, ofManager]
  simp only [mem_visiblePanes_ofManager]
  by_cases hvisible : (word, focus) ∈ m.visiblePanes
  · rw [if_pos hvisible, if_pos hvisible]
    rfl
  · rw [if_neg hvisible, if_neg hvisible, ofManager, List.head?_map]

theorem ofManager_setVisibleSet (m : SessionManager) (new : List PaneId) :
    ofManager (m.setVisibleSet new) =
      { ofManager m with
        activePane := (m.setVisibleSet new).activePane.map formatPaneId
        visiblePanes := new.map formatPaneId } := by
  have hsame := SessionManager.sameTab_setVisibleSet m new
  rw [ofManager, hsame.list, hsame.session, hsame.tab]
  rfl

/-- The flag, the focus and the visible panes are those of `m`. -/
structure Steady (m m' : SessionManager) : Prop where
  stuck : m'.stuck = m.stuck
  active : m'.activePane = m.activePane
  visible : m'.visiblePanes = m.visiblePanes

theorem steady_send (m : SessionManager) (msgs : List Outbound) : Steady m (m.send msgs) := by
  rw [SessionManager.send]
  split
  · exact ⟨rfl, rfl, rfl⟩
  · exact ⟨rfl, rfl, rfl⟩

theorem steady_onPane (m : SessionManager) (pane : PaneId) (f : PaneSession → PaneSession) :
    Steady m (m.onPane pane f) := by
  have hsent : ∀ (m' : SessionManager) (msgs : List Outbound), Steady m m' →
      Steady m (m'.send msgs) := fun m' msgs h ↦
    ⟨(steady_send m' msgs).stuck.trans h.stuck, (steady_send m' msgs).active.trans h.active,
      (steady_send m' msgs).visible.trans h.visible⟩
  exact hsent _ _ ⟨rfl, rfl, rfl⟩

theorem stuck_setVisibleSet (m : SessionManager) (new : List PaneId) :
    (m.setVisibleSet new).stuck = m.stuck := by
  have hdetach : ∀ (m : SessionManager) (p : PaneId), (m.detachPane p).stuck = m.stuck :=
    fun m p ↦ (steady_send m [.detach p]).stuck
  have hdetached := SessionManager.foldl_keeps SessionManager.stuck hdetach
    (m.visiblePanes.filter fun p ↦ p ∉ new) m
  have hattached := SessionManager.foldl_keeps SessionManager.stuck
    (fun m p ↦ (steady_onPane m p PaneSession.resync).stuck)
    (new.filter fun p ↦ p ∉ m.visiblePanes)
    ((m.visiblePanes.filter fun p ↦ p ∉ new).foldl SessionManager.detachPane m)
  exact hattached.trans hdetached

/-- A switch of the session manager is one of its view. -/
theorem ofManager_selectSession (m : SessionManager) (word : WordId) :
    ofManager (m.selectSession word) = (ofManager m).selectSession word ∧
      (m.selectSession word).stuck = m.stuck := by
  rw [selectSession]
  cases he : findSession m.sessionList word with
  | none =>
    rw [SessionManager.selectSession_of_unlisted he]
    exact ⟨by simp only [ofManager, he], rfl⟩
  | some e =>
    rw [SessionManager.selectSession_of_find he]
    refine ⟨?_, (stuck_setVisibleSet _ _).trans rfl⟩
    rw [ofManager_focusFromTab, ofManager_setVisibleSet]
    simp only [ofManager, he]
    rfl

theorem ofManager_selectTab (m : SessionManager) (tabIndex : ℕ) :
    ofManager (m.selectTab tabIndex) = (ofManager m).selectTab tabIndex ∧
      (m.selectTab tabIndex).stuck = m.stuck := by
  cases hword : m.activeSession with
  | none =>
    have hkept : m.selectTab tabIndex = m := by simp only [SessionManager.selectTab, hword]
    rw [hkept]
    exact ⟨by simp only [selectTab, ofManager, hword], rfl⟩
  | some word =>
    cases hview : tabView m.sessionList word tabIndex with
    | none =>
      have hkept : m.selectTab tabIndex = m := by
        simp only [SessionManager.selectTab, hword, hview]
      rw [hkept]
      exact ⟨by simp only [selectTab, ofManager, hword, hview], rfl⟩
    | some view =>
      rw [SessionManager.selectTab_of_view hword hview]
      refine ⟨?_, (stuck_setVisibleSet _ _).trans rfl⟩
      rw [ofManager_focusFromTab, ofManager_setVisibleSet]
      simp only [selectTab, ofManager, hword, hview]
      rfl

theorem ofManager_viewPane (m : SessionManager) (pane : PaneId) (tabIndex : ℕ) :
    ofManager (m.viewPane pane tabIndex) = (ofManager m).viewPane pane.1 tabIndex ∧
      (m.viewPane pane tabIndex).stuck = m.stuck := by
  rw [SessionManager.viewPane, viewPane]
  split_ifs with hsession hsession' htab htab'
  all_goals try contradiction
  · exact ofManager_selectSession m pane.1
  · exact ofManager_selectTab m tabIndex
  · exact ⟨rfl, rfl⟩

theorem ofManager_publishFocus (m : SessionManager) (pane : PaneId) :
    ofManager (m.publishFocus pane) = { ofManager m with activePane := some (formatPaneId pane) } ∧
      (m.publishFocus pane).stuck = m.stuck := by
  have hsame := SessionManager.sameTab_publishFocus m pane
  have hsteady : Steady { m with activePane := some pane } (m.publishFocus pane) := by
    rw [SessionManager.publishFocus]
    split
    · exact steady_send _ _
    · exact ⟨rfl, rfl, rfl⟩
  refine ⟨?_, hsteady.stuck⟩
  rw [ofManager, hsame.list, hsame.session, hsame.tab, hsteady.active, hsteady.visible]
  rfl

theorem ofManager_showAlone (m : SessionManager) (pane : PaneId) :
    ofManager (m.showAlone pane) = (ofManager m).showAlone (formatPaneId pane) ∧
      (m.showAlone pane).stuck = m.stuck := by
  have hsame := SessionManager.sameTab_showAlone m pane
  constructor
  · rw [ofManager, hsame.list, hsame.session, hsame.tab]
    rfl
  · exact ((steady_onPane _ pane PaneSession.resync).stuck).trans (steady_send _ _).stuck

/-- The session manager, on an id that is read back, does to its view what is said here, and is
stuck where the selection does not end. -/
theorem selectPaneWithin_ofManager {pane : PaneId}
    (hid : parsePaneId (formatPaneId pane) = some pane) (rounds : ℕ) :
    ∀ {m : SessionManager}, m.stuck = false →
      selectPaneWithin rounds (ofManager m) (formatPaneId pane) =
        if (SessionManager.selectPaneWithin rounds m pane).stuck then none
        else some (ofManager (SessionManager.selectPaneWithin rounds m pane)) := by
  induction rounds with
  | zero => exact fun _ ↦ rfl
  | succ rounds ih =>
    intro m hm
    have hlocate : locateId (ofManager m).sessionList (formatPaneId pane)
        = (locatePane m.sessionList pane).map fun t ↦ (pane.1, t) := by
      rw [locateId, hid]
      rfl
    cases hpane : locatePane m.sessionList pane with
    | none =>
      rw [SessionManager.selectPaneWithin_of_unlisted hpane]
      obtain ⟨hview, hstuck⟩ := ofManager_showAlone m pane
      rw [hpane, Option.map_none] at hlocate
      rw [hstuck, hm, hview]
      simp only [selectPaneWithin, hlocate]
      rfl
    | some tabIndex =>
      rw [hpane, Option.map_some] at hlocate
      obtain ⟨hview, hstuck⟩ := ofManager_viewPane m pane tabIndex
      rw [SessionManager.selectPaneWithin_of_located hpane, selectPaneWithin_of_located hlocate,
        ← hview]
      simp only [mem_visiblePanes_ofManager]
      by_cases hvisible : pane ∈ (m.viewPane pane tabIndex).visiblePanes
      · obtain ⟨hfocused, hstuck'⟩ := ofManager_publishFocus (m.viewPane pane tabIndex) pane
        rw [if_pos hvisible, if_pos hvisible, hstuck', hstuck, hm, hfocused]
        rfl
      · rw [if_neg hvisible, if_neg hvisible]
        exact ih (hstuck.trans hm)

/-! ## A list that is older than the view -/

/-- What a client that has just connected makes of messages. -/
def afterMessages (msgs : List Inbound) : SessionManager :=
  msgs.foldl (fun m msg ↦ (m.handleServerMessage msg).1) (SessionManager.new.applyOutcome (some 1))

/-- A session of a peer, with two panes in one tab. -/
def peerSession : SessionEntry :=
  { wordId := "eagle"
    peer := some "hub"
    tabs := [{ tabIndex := 0
               layout := .split .horizontal [500, 500] [.leaf 0, .leaf 1]
               focusedPane := 0 }]
    activeTab := 0
    panes := [⟨("eagle", 0), 0⟩, ⟨("eagle", 1), 1⟩] }

/-- The session is listed, pane 1 leaves the tab, and the session is listed as it was. -/
def staleList : List Inbound :=
  [.sessionListResult [peerSession], .layoutUpdate "eagle" 0 (.leaf 0) 0,
    .sessionListResult [peerSession]]

theorem selects_fails :
    ¬∀ (msgs : List Inbound) (id : List Char),
      Selects selectPaneWithin (ofManager (afterMessages msgs)) id := by
  intro h
  have hlocate : locateId (ofManager (afterMessages staleList)).sessionList "eagle/1".toList
      = some ("eagle", 0) := rfl
  refine not_selects_settled hlocate ?_ ?_ ?_ (h staleList "eagle/1".toList)
  · rfl
  · rfl
  · decide

end TextView

end Client

end Kmux
