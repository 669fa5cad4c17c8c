import Kmux.Session.Layout
import Mathlib.Data.Finset.Basic

/-!
# Sessions: tabs, panes and the requests that change them

A session is a flat pool of panes and a list of tabs, each tab a layout over some of the panes.
Every request works on it under the sessions lock. The ones that start or stop a process take the
lock twice: they reserve indices or collect pane ids, let go of the lock while the process is
spawned or killed, and write in a second phase. `Pending` is what such a request remembers in
between, and a `Hosted` session carries the requests that are between their phases, so that the
second phases can come in any order.

A pane is its index here: the relay behind it plays no part in the session's structure.
-/

namespace Kmux

/-- One tab: a named layout over a subset of the session's panes. -/
structure TabState where
  tabIndex : ℕ
  name : String
  layout : LayoutNode
  /-- The focused leaf within this tab. -/
  focusedPane : ℕ

/-- One session. -/
structure SessionState where
  /-- The keys of the pane map. -/
  panes : Finset ℕ
  /-- Next pane index to assign. -/
  nextPaneIndex : ℕ
  tabs : List TabState
  /-- Next tab index to assign. -/
  nextTabIndex : ℕ
  activeTab : ℕ

/-- How closing a pane changed its tab. -/
inductive PaneCloseOutcome
  | tabUpdated (tabIndex : ℕ) (layout : LayoutNode) (focusedPane : ℕ)
  | tabClosed (tabIndex : ℕ)
  | sessionClosed
  | gone

namespace SessionState

/-- A session with one initial pane in one tab. -/
def new : SessionState :=
  { panes := {0}
    nextPaneIndex := 1
    tabs := [{ tabIndex := 0, name := "1", layout := .single 0, focusedPane := 0 }]
    nextTabIndex := 1
    activeTab := 0 }

/-- Find a tab by index. -/
def tab (s : SessionState) (tabIndex : ℕ) : Option TabState :=
  s.tabs.find? fun t ↦ decide (t.tabIndex = tabIndex)

/-- Change the tab found by index, if there is one. -/
def updateTab (s : SessionState) (tabIndex : ℕ) (f : TabState → TabState) : SessionState :=
  match s.tabs.findIdx? fun t ↦ decide (t.tabIndex = tabIndex) with
  | some pos => { s with tabs := s.tabs.modify pos f }
  | none => s

/-- The tab that contains the given pane, if any. -/
def tabOfPane (s : SessionState) (paneIndex : ℕ) : Option ℕ :=
  (s.tabs.find? fun t ↦ decide (paneIndex ∈ t.layout.leaves)).map TabState.tabIndex

/-! ## Requests of one phase -/

/-- Move a tab to another position. -/
def reorderTab (s : SessionState) (tabIndex newPosition : ℕ) : SessionState :=
  match s.tabs.findIdx? fun t ↦ decide (t.tabIndex = tabIndex) with
  | none => s
  | some oldPosition =>
    match s.tabs[oldPosition]? with
    | none => s
    | some tab =>
      let rest := s.tabs.eraseIdx oldPosition
      { s with tabs := rest.insertIdx (min newPosition rest.length) tab }

/-- Set the focus within a tab, to one of its leaves. -/
def setTabFocus (s : SessionState) (tabIndex paneIndex : ℕ) : SessionState :=
  s.updateTab tabIndex fun t ↦
    if paneIndex ∈ t.layout.leaves then { t with focusedPane := paneIndex } else t

/-- Swap two panes, set weights or apply a preset within a tab. -/
def updateLayout (s : SessionState) (tabIndex : ℕ) (op : LayoutOp) : SessionState :=
  s.updateTab tabIndex fun t ↦ { t with layout := (t.layout.apply op).1 }

def swapPanes (s : SessionState) (tabIndex a b : ℕ) : SessionState :=
  s.updateLayout tabIndex (.swap a b)

def setLayoutRatios (s : SessionState) (tabIndex : ℕ) (path ratios : List ℕ) : SessionState :=
  s.updateLayout tabIndex (.setRatios path ratios)

def applyLayoutScheme (s : SessionState) (tabIndex : ℕ) (scheme : LayoutScheme) : SessionState :=
  s.updateLayout tabIndex (.applyScheme scheme)

/-! ## Second phases -/

/-- The second phase of a new tab. -/
def createTabInsert (s : SessionState) (paneIndex tabIndex : ℕ) : SessionState :=
  { s with
    panes := insert paneIndex s.panes
    tabs := s.tabs ++
      [{ tabIndex
         name := toString (tabIndex + 1)
         layout := .single paneIndex
         focusedPane := paneIndex }] }

/-- The second phase of a split. The pane enters the map first; if the tab is gone by now, the
request fails and the pane stays there. If the leaf to split is gone, the focused one is split. -/
def splitPaneInsert (s : SessionState) (tabIndex fromPane newIndex : ℕ) (dir : SplitDir) :
    SessionState :=
  ({ s with panes := insert newIndex s.panes } : SessionState).updateTab tabIndex fun t ↦
    let target := if fromPane ∈ t.layout.leaves then fromPane else t.focusedPane
    { t with layout := (t.layout.splitPane target newIndex dir).1, focusedPane := newIndex }

/-- Drop a tab, and with the active one make the first that is left active. -/
def dropTab (s : SessionState) (tabIndex : ℕ) : SessionState :=
  let tabs := s.tabs.filter fun t ↦ decide (t.tabIndex ≠ tabIndex)
  { s with
    tabs
    activeTab := if s.activeTab = tabIndex then (tabs.head?.map TabState.tabIndex).getD 0
      else s.activeTab }

/-- A session without tabs is removed. -/
def unlessEmpty (s : SessionState) : Option SessionState := if s.tabs = [] then none else some s

/-- The second phase of closing a tab whose panes were `paneIds`; `none` once the session is
gone. -/
def closeTabWrite (s : SessionState) (tabIndex : ℕ) (paneIds : List ℕ) : Option SessionState :=
  (({ s with panes := s.panes \ paneIds.toFinset } : SessionState).dropTab tabIndex).unlessEmpty

/-- Collapse the leaf of a pane, and refocus a sibling if it held the focus. -/
def closeLeaf (t : TabState) (paneIndex : ℕ) : TabState :=
  let refocus := t.layout.nextFocusAfterRemoval paneIndex
  let layout := (t.layout.removePane paneIndex).1
  { t with
    layout
    focusedPane := if t.focusedPane = paneIndex then
        (refocus.or layout.leaves.head?).getD paneIndex
      else t.focusedPane }

/-- The second phase of closing a pane. -/
def closePaneWrite (s : SessionState) (paneIndex : ℕ) : Option SessionState × PaneCloseOutcome :=
  let s' : SessionState := { s with panes := s.panes.erase paneIndex }
  match s'.tabOfPane paneIndex with
  | none =>
    -- in no tab's tree: only a session without panes is dropped
    if s'.panes = ∅ then (none, .sessionClosed) else (some s', .gone)
  | some tabIndex =>
    match s'.tab tabIndex with
    | none => (some s', .gone)
    | some t =>
      if t.layout.leaves.length ≤ 1 then
        match (s'.dropTab tabIndex).unlessEmpty with
        | none => (none, .sessionClosed)
        | some s'' => (some s'', .tabClosed tabIndex)
      else
        let t' := closeLeaf t paneIndex
        (some (s'.updateTab tabIndex fun t ↦ closeLeaf t paneIndex),
          .tabUpdated tabIndex t'.layout t'.focusedPane)

end SessionState

/-! ## Requests between their phases -/

/-- What a request remembers from its first phase. -/
inductive Pending
  | createTab (paneIndex tabIndex : ℕ)
  | splitPane (tabIndex fromPane newIndex : ℕ) (dir : SplitDir)
  | closePane (paneIndex : ℕ)
  | closeTab (tabIndex : ℕ) (paneIds : List ℕ)
  deriving DecidableEq, Repr

/-- A session the daemon hosts, `none` once it is closed, and the requests under way on it. -/
structure Hosted where
  session : Option SessionState
  pending : List Pending

/-- What can happen to a session. -/
inductive SessionEvent
  | createTab
  | splitPane (tabIndex fromPane : ℕ) (dir : SplitDir)
  | closePane (paneIndex : ℕ)
  | closeTab (tabIndex : ℕ)
  /-- The second phase of the request at this place. -/
  | finish (k : ℕ)
  /-- The request at this place fails between its phases: the spawn or the kill did. -/
  | abandon (k : ℕ)
  | setTabFocus (tabIndex paneIndex : ℕ)
  | reorderTab (tabIndex newPosition : ℕ)
  | swapPanes (tabIndex a b : ℕ)
  | setLayoutRatios (tabIndex : ℕ) (path ratios : List ℕ)
  | applyLayoutScheme (tabIndex : ℕ) (scheme : LayoutScheme)
  deriving DecidableEq, Repr

namespace Hosted

/-- A session just created, with nothing under way. -/
def new : Hosted := { session := some .new, pending := [] }

/-- A write phase that keeps the session. -/
def write (h : Hosted) (f : SessionState → SessionState) : Hosted :=
  { h with session := h.session.map f }

/-- The second phase of a request. A session that is gone by now is left alone. -/
def secondPhase (s : SessionState) : Pending → Option SessionState
  | .createTab paneIndex tabIndex => some (s.createTabInsert paneIndex tabIndex)
  | .splitPane tabIndex fromPane newIndex dir =>
    some (s.splitPaneInsert tabIndex fromPane newIndex dir)
  | .closePane paneIndex => (s.closePaneWrite paneIndex).1
  | .closeTab tabIndex paneIds => s.closeTabWrite tabIndex paneIds

/-- One event. -/
def step (h : Hosted) : SessionEvent → Hosted
  | .createTab =>
    match h.session with
    | none => h
    | some s =>
      { session := some { s with
          nextPaneIndex := s.nextPaneIndex + 1
          nextTabIndex := s.nextTabIndex + 1 }
        pending := h.pending ++ [.createTab s.nextPaneIndex s.nextTabIndex] }
  | .splitPane tabIndex fromPane dir =>
    match h.session with
    | none => h
    | some s =>
      match s.tab tabIndex with
      | none => h
      | some t =>
        if fromPane ∈ t.layout.leaves then
          { session := some { s with nextPaneIndex := s.nextPaneIndex + 1 }
            pending := h.pending ++ [.splitPane tabIndex fromPane s.nextPaneIndex dir] }
        else h
  -- the first phase only detaches clients, whether or not the session has the pane
  | .closePane paneIndex => { h with pending := h.pending ++ [.closePane paneIndex] }
  | .closeTab tabIndex =>
    match h.session with
    | none => h
    | some s =>
      match s.tab tabIndex with
      | none => h
      | some t => { h with pending := h.pending ++ [.closeTab tabIndex t.layout.leaves] }
  | .finish k =>
    match h.pending[k]? with
    | none => h
    | some p =>
      { session := h.session.bind fun s ↦ secondPhase s p, pending := h.pending.eraseIdx k }
  | .abandon k => { h with pending := h.pending.eraseIdx k }
  | .setTabFocus tabIndex paneIndex => h.write fun s ↦ s.setTabFocus tabIndex paneIndex
  | .reorderTab tabIndex newPosition => h.write fun s ↦ s.reorderTab tabIndex newPosition
  | .swapPanes tabIndex a b => h.write fun s ↦ s.swapPanes tabIndex a b
  | .setLayoutRatios tabIndex path ratios => h.write fun s ↦ s.setLayoutRatios tabIndex path ratios
  | .applyLayoutScheme tabIndex scheme => h.write fun s ↦ s.applyLayoutScheme tabIndex scheme

/-- The state an interleaving leads to. -/
def run (h : Hosted) (es : List SessionEvent) : Hosted := Run.exec step h es

end Hosted

end Kmux
