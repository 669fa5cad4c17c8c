import Kmux.Client.GonePane
import Kmux.Lib.Run

/-!
# What is attached and what is on screen

The client keeps the panes on screen, a sync entry for every pane it is attached to, and the focused
pane; the daemon keeps what `Attach` and `Detach` made of the link. About twenty operations update
these by hand.

They go together. A pane that the client was told is gone gets no `Detach`, since the daemon has
released the attachment with the pane, and neither does anything while there is no link: on the next
one the visible panes are attached again. So what is attached is what was attached last over the
current link and is not gone (`held`).

Some steps break it, and `Careful` is that a step is none of them: a frame or a note for a pane that
is not attached, which makes a sync entry for it; a pane that is shown alone while others are on
screen, whose entries stay; a disconnect with panes on screen; a list that moves the viewed tab away
from the focused pane; and the end of a session or a tab whose cached entry is not what is on
screen.
-/

namespace Kmux

namespace Client

/-! ## What the daemon holds -/

/-- What one entry of the log makes of the attachments. -/
def Wire.holds (held : PaneId → Bool) : Wire → PaneId → Bool
  | .sent (.attach pane _) => Function.update held pane true
  | .sent (.detach pane) => Function.update held pane false
  | .sent _ => held
  | .forgot pane => Function.update held pane false
  | .linked => fun _ ↦ false

/-- The attachments after the log: what was attached last over the current link, less what is
gone. -/
def held (log : List Wire) : PaneId → Bool := log.foldl Wire.holds fun _ ↦ false

/-- Whether the last `Attach` or `Detach` that was sent for the pane was an `Attach`. -/
def lastAttached (log : List Wire) (pane : PaneId) : Bool :=
  log.foldl (fun attached e ↦
    match e with
    | .sent (.attach p _) => if p = pane then true else attached
    | .sent (.detach p) => if p = pane then false else attached
    | _ => attached) false

namespace SessionManager

/-- The panes with a sync entry, those the daemon holds over the link, and the given ones are the
same. -/
structure Holds (m : SessionManager) (panes : List PaneId) : Prop where
  sync : ∀ p, (m.paneSync p).isSome = true ↔ p ∈ panes
  held : m.linked = true → ∀ p, held m.log p = true ↔ p ∈ panes

/-- The focused pane is on screen, and there is one if anything is. -/
structure Focused (m : SessionManager) : Prop where
  visible : ∀ p, m.activePane = some p → p ∈ m.visiblePanes
  none : m.activePane = none → m.visiblePanes = []

/-- What goes together. -/
structure Attached (m : SessionManager) : Prop where
  holds : m.Holds m.visiblePanes
  focused : m.Focused

/-! ## Operations -/

/-- What happens to the client: a message, an operation of the user, a note of the apply worker and
a change of the link. The worker's other notes change nothing that is kept here. -/
inductive Op
  | receive (msg : Inbound)
  | selectSession (word : WordId)
  | selectTab (tabIndex : ℕ)
  | selectPane (pane : PaneId)
  | focusPane (pane : PaneId)
  | cycleTab (offset : ℤ)
  | cycleSession (offset : ℤ)
  | cyclePane (offset : ℤ)
  | digestMismatch (pane : PaneId)
  | linkLost
  | dropLink
  | linkUp (daemon : Option ℕ)
  | disconnect

def apply (m : SessionManager) : Op → SessionManager
  | .receive msg => m.receive msg
  | .selectSession word => m.selectSession word
  | .selectTab tabIndex => m.selectTab tabIndex
  | .selectPane pane => m.selectPane pane
  | .focusPane pane => m.focusPane pane
  | .cycleTab offset => m.cycleTab offset
  | .cycleSession offset => m.cycleSession offset
  | .cyclePane offset => m.cyclePane offset
  | .digestMismatch pane => m.resync pane
  | .linkLost => m.linkLost
  | .dropLink => m.dropLink
  | .linkUp daemon => m.applyOutcome daemon
  | .disconnect => m.disconnect

/-! ## The steps that break it -/

/-- A pane that no cached tab contains is shown alone only if nothing else is on screen. -/
def ShowsAlone (m : SessionManager) (pane : PaneId) : Prop :=
  locatePane m.sessionList pane = none → ∀ p ∈ m.visiblePanes, p = pane

/-- The cached entry of the session has what is on screen: all of it if the session is viewed, and
nothing otherwise. -/
def Covers (m : SessionManager) (word : WordId) : Prop :=
  ∀ p ∈ m.visiblePanes, p ∈ m.sessionPaneIds word ↔ m.activeSession = some word

/-- The tab alone has what is on screen if it is viewed, and nothing of it otherwise. -/
def CoversTab (m : SessionManager) (word : WordId) (tabIndex : ℕ) : Prop :=
  ∀ p ∈ m.visiblePanes,
    (p.1 = word ∧ p.2 ∈ ((findSession m.sessionList word).map (·.closedPanes tabIndex)).getD []) ↔
      m.OnScreen word tabIndex

/-- The viewed tab has the focused pane in the list too, where the list decides the view. -/
def Refocused (m : SessionManager) (sessions : List SessionEntry) : Prop :=
  m.pendingSelectPane = none → ∀ word, m.activeSession = some word →
    (sessions.any fun e ↦ e.wordId = word && e.peer.isSome) = false →
      ∀ v ∈ m.activeTab.bind (tabView sessions word), ∀ p, m.activePane = some p → p ∈ v.2

/-- The pane that is `offset` places from the focused one in the session's entry. -/
def cycledPane (m : SessionManager) (word : WordId) (offset : ℤ) : Option PaneId :=
  cycle (m.sessionPaneIds word)
    ((m.activePane.bind fun p ↦ (m.sessionPaneIds word).findIdx? (· = p)).getD 0) offset

/-- A message that is none of the steps that break it. -/
def CarefulMessage (m : SessionManager) : Inbound → Prop
  | .stream pane msg => pane ∈ m.visiblePanes ∨ (∃ seqno hash, msg = .gridDigest seqno hash) ∨
      ∃ requestId firstIndex lines historyTotal,
        msg = .historyLines requestId firstIndex lines historyTotal
  | .sessionListResult sessions =>
      (∀ word, m.knowsSession word = true → (∀ e ∈ sessions, e.wordId ≠ word) → m.Covers word) ∧
        (m.forgetUnlistedSessions sessions).1.Refocused sessions
  | .sessionClosed word => m.knowsSession word = true → m.Covers word
  | .sessionKicked word => m.Covers word
  | .tabClosed word tabIndex => m.CoversTab word tabIndex
  | _ => True

/-- A step that is none of those that break it. -/
def Careful (m : SessionManager) : Op → Prop
  | .receive msg => m.CarefulMessage msg
  | .selectPane pane => m.ShowsAlone pane
  | .focusPane pane => pane ∉ m.visiblePanes → m.ShowsAlone pane
  | .cyclePane offset => ∀ word, m.activeSession = some word →
      ∀ pane ∈ m.cycledPane word offset, m.ShowsAlone pane
  | .digestMismatch pane => pane ∈ m.visiblePanes
  | .disconnect => m.visiblePanes = []
  | _ => True

/-! ## The log -/

theorem held_append (log more : List Wire) :
    held (log ++ more) = more.foldl Wire.holds (held log) := List.foldl_append

/-- A message that neither attaches nor detaches. -/
def Silent : Outbound → Prop
  | .attach .. | .detach _ => False
  | _ => True

theorem foldl_holds_silent {msgs : List Outbound} (h : ∀ msg ∈ msgs, Silent msg)
    (held : PaneId → Bool) : (msgs.map Wire.sent).foldl Wire.holds held = held := by
  induction msgs with
  | nil => rfl
  | cons msg msgs ih =>
    have hrest := ih fun msg' hmsg' ↦ h msg' (List.mem_cons_of_mem msg hmsg')
    have hmsg := h msg List.mem_cons_self
    cases msg with
    | attach | detach => exact hmsg.elim
    | _ => exact hrest

/-- An `Attach` of a pane's bookkeeping, with the mark that may follow it. -/
theorem foldl_holds_attach (m : SessionManager) (p : PaneId) (seq : Option SequenceNo)
    (held : PaneId → Bool) :
    ((m.outbound p (.attach seq)).map Wire.sent).foldl Wire.holds held =
      Function.update held p true := by
  rw [outbound]
  split <;> rfl

theorem foldl_holds_outbound {m : SessionManager} {p : PaneId} {held : PaneId → Bool}
    (h : held p = true) (sent : List ClientMessage) :
    ((sent.flatMap (m.outbound p)).map Wire.sent).foldl Wire.holds held = held := by
  induction sent with
  | nil => rfl
  | cons msg sent ih =>
    rw [List.flatMap_cons, List.map_append, List.foldl_append]
    cases msg with
    | attach seq =>
      rw [foldl_holds_attach, Function.update_eq_self_iff.mpr h.symm]
      exact ih
    | fetchHistory requestId start count => exact ih

theorem silent_outbound {m : SessionManager} {p : PaneId} {sent : List ClientMessage}
    (h : ∀ seq, .attach seq ∉ sent) : ∀ msg ∈ sent.flatMap (m.outbound p), Silent msg := by
  intro msg hmsg
  obtain ⟨c, hc, hmsg⟩ := List.mem_flatMap.mp hmsg
  cases c with
  | attach seq => exact absurd hc (h seq)
  | fetchHistory requestId start count =>
    obtain rfl := List.mem_singleton.mp hmsg
    trivial

/-! ## One pane -/

variable {m : SessionManager} {panes : List PaneId}

theorem Holds.of_eq {m' : SessionManager} (h : m.Holds panes) (hsync : m'.paneSync = m.paneSync)
    (hlinked : m'.linked = m.linked) (hlog : m'.log = m.log) : m'.Holds panes :=
  ⟨by rw [hsync]; exact h.sync, by rw [hlinked, hlog]; exact h.held⟩

theorem Holds.congr (h : m.Holds panes) (panes' : List PaneId)
    (hiff : ∀ p, p ∈ panes ↔ p ∈ panes') : m.Holds panes' :=
  ⟨fun p ↦ (h.sync p).trans (hiff p), fun hl p ↦ (h.held hl p).trans (hiff p)⟩

theorem paneSync_send (m : SessionManager) (msgs : List Outbound) :
    (m.send msgs).paneSync = m.paneSync := by
  rw [SessionManager.send]
  split <;> rfl

theorem Holds.send (h : m.Holds panes) {msgs : List Outbound} (hmsgs : ∀ msg ∈ msgs, Silent msg) :
    (m.send msgs).Holds panes := by
  refine ⟨by rw [paneSync_send]; exact h.sync, fun hl p ↦ ?_⟩
  have hl : m.linked = true := (unmoved_send m msgs).linked.symm.trans hl
  rw [log_send hl, held_append, foldl_holds_silent hmsgs]
  exact h.held hl p

/-- The sync entries after an operation on one pane. -/
theorem paneSync_onPane_of_ne (m : SessionManager) {p q : PaneId} (hq : q ≠ p)
    (f : PaneSession → PaneSession) : (m.onPane p f).paneSync q = m.paneSync q := by
  rw [SessionManager.onPane, paneSync_send]
  exact Function.update_of_ne hq _ _

/-- An operation on a pane that is attached leaves it attached. -/
theorem Holds.onPane (h : m.Holds panes) {p : PaneId} (hp : p ∈ panes)
    {f : PaneSession → PaneSession} (hf : (f (m.pane p)).paneSync.isSome = true) :
    (m.onPane p f).Holds panes := by
  refine ⟨fun q ↦ ?_, fun hl q ↦ ?_⟩
  · by_cases hq : q = p
    · subst hq
      rw [paneSync_onPane, hf]
      exact ⟨fun _ ↦ hp, fun _ ↦ rfl⟩
    · rw [paneSync_onPane_of_ne m hq]
      exact h.sync q
  · have hl : m.linked = true := (unmoved_onPane m p f).linked.symm.trans hl
    rw [log_onPane hl, held_append, foldl_holds_outbound ((h.held hl p).mpr hp)]
    exact h.held hl q

/-- An operation that attaches nothing and makes no sync entry. -/
theorem Holds.onPane_silent (h : m.Holds panes) {p : PaneId} {f : PaneSession → PaneSession}
    (hsync : (f (m.pane p)).paneSync.isSome = (m.paneSync p).isSome)
    (hsent : ∀ seq, .attach seq ∉ (f (m.pane p)).sent) : (m.onPane p f).Holds panes := by
  refine ⟨fun q ↦ ?_, fun hl q ↦ ?_⟩
  · by_cases hq : q = p
    · subst hq
      rw [paneSync_onPane, hsync]
      exact h.sync q
    · rw [paneSync_onPane_of_ne m hq]
      exact h.sync q
  · have hl : m.linked = true := (unmoved_onPane m p f).linked.symm.trans hl
    rw [log_onPane hl, held_append, foldl_holds_silent (silent_outbound hsent)]
    exact h.held hl q

/-- An operation that attaches the pane. -/
theorem Holds.onPane_attach (h : m.Holds panes) {p : PaneId} {f : PaneSession → PaneSession}
    {seq : Option SequenceNo} (hsync : (f (m.pane p)).paneSync.isSome = true)
    (hsent : (f (m.pane p)).sent = [.attach seq]) : (m.onPane p f).Holds (p :: panes) := by
  refine ⟨fun q ↦ ?_, fun hl q ↦ ?_⟩
  · rw [List.mem_cons]
    by_cases hq : q = p
    · subst hq
      rw [paneSync_onPane, hsync]
      exact ⟨fun _ ↦ .inl rfl, fun _ ↦ rfl⟩
    · rw [paneSync_onPane_of_ne m hq, or_iff_right hq]
      exact h.sync q
  · have hl : m.linked = true := (unmoved_onPane m p f).linked.symm.trans hl
    rw [log_onPane hl, held_append, hsent, List.flatMap_singleton, foldl_holds_attach,
      List.mem_cons]
    by_cases hq : q = p
    · subst hq
      rw [Function.update_self]
      exact ⟨fun _ ↦ .inl rfl, fun _ ↦ rfl⟩
    · rw [Function.update_of_ne hq, or_iff_right hq]
      exact h.held hl q

theorem Holds.resync (h : m.Holds panes) (p : PaneId) : (m.resync p).Holds (p :: panes) :=
  @Holds.onPane_attach m panes h p PaneSession.resync none rfl rfl

/-! ## Several panes -/

/-- Detaching a pane, or dropping it, takes it out. -/
private theorem Holds.drop {m' : SessionManager} {p : PaneId} {e : Wire} (h : m.Holds panes)
    (hsync : m'.paneSync = Function.update m.paneSync p none) (hlinked : m'.linked = m.linked)
    (hlog : m.linked = true → m'.log = m.log ++ [e])
    (he : ∀ held : PaneId → Bool, e.holds held = Function.update held p false) :
    m'.Holds (panes.filter fun q ↦ q ≠ p) := by
  have hmem : ∀ q, q ∈ panes.filter (fun q ↦ q ≠ p) ↔ q ∈ panes ∧ q ≠ p := fun q ↦ by
    rw [List.mem_filter, decide_eq_true_iff]
  refine ⟨fun q ↦ ?_, fun hl q ↦ ?_⟩
  · rw [hsync, hmem]
    by_cases hq : q = p
    · subst hq
      rw [Function.update_self]
      exact ⟨fun hfalse ↦ absurd hfalse Bool.false_ne_true, fun hne ↦ absurd rfl hne.2⟩
    · rw [Function.update_of_ne hq, and_iff_left hq]
      exact h.sync q
  · have hl : m.linked = true := hlinked.symm.trans hl
    rw [hlog hl, held_append, List.foldl_cons, List.foldl_nil, he, hmem]
    by_cases hq : q = p
    · subst hq
      rw [Function.update_self]
      exact ⟨fun hfalse ↦ absurd hfalse Bool.false_ne_true, fun hne ↦ absurd rfl hne.2⟩
    · rw [Function.update_of_ne hq, and_iff_left hq]
      exact h.held hl q

theorem Holds.detachPane (h : m.Holds panes) (p : PaneId) :
    (m.detachPane p).Holds (panes.filter fun q ↦ q ≠ p) := by
  refine h.drop (e := .sent (.detach p)) ?_ (unmoved_detachPane m p).linked (fun hl ↦ ?_)
    fun _ ↦ rfl
  · rfl
  · exact log_send hl [.detach p]

theorem Holds.forgetPane (h : m.Holds panes) (p : PaneId) :
    (m.forgetPane p).Holds (panes.filter fun q ↦ q ≠ p) :=
  h.drop (e := .forgot p) rfl rfl (fun _ ↦ rfl) fun _ ↦ rfl

theorem Holds.foldl_drop {f : SessionManager → PaneId → SessionManager}
    (hf : ∀ {m : SessionManager} {panes : List PaneId}, m.Holds panes → ∀ p,
      (f m p).Holds (panes.filter fun q ↦ q ≠ p)) (h : m.Holds panes) (ps : List PaneId) :
    (ps.foldl f m).Holds (panes.filter fun q ↦ q ∉ ps) := by
  induction ps generalizing m panes with
  | nil =>
    refine h.congr _ fun q ↦ ?_
    rw [List.mem_filter, decide_eq_true_iff]
    exact ⟨fun hq ↦ ⟨hq, List.not_mem_nil⟩, And.left⟩
  | cons p ps ih =>
    refine (ih (hf h p)).congr _ fun q ↦ ?_
    simp only [List.mem_filter, decide_eq_true_iff, List.mem_cons, not_or, and_assoc]

theorem Holds.foldl_resync (h : m.Holds panes) (ps : List PaneId) :
    (ps.foldl SessionManager.resync m).Holds (panes ++ ps) := by
  induction ps generalizing m panes with
  | nil => exact h.congr _ fun q ↦ by rw [List.append_nil]
  | cons p ps ih =>
    refine (ih (h.resync p)).congr _ fun q ↦ ?_
    simp only [List.mem_append, List.mem_cons, or_assoc, or_left_comm]

theorem Holds.setVisibleSet (h : m.Holds m.visiblePanes) (new : List PaneId) :
    (m.setVisibleSet new).Holds new := by
  have hdetached := h.foldl_drop Holds.detachPane (m.visiblePanes.filter fun p ↦ p ∉ new)
  have hattached := hdetached.foldl_resync (new.filter fun p ↦ p ∉ m.visiblePanes)
  have hnew := hattached.congr new fun p ↦ by
    simp only [List.mem_append, List.mem_filter, decide_eq_true_iff, not_and, not_not]
    tauto
  exact hnew.of_eq rfl rfl rfl

/-! ## The view -/

theorem Attached.of_eq {m' : SessionManager} (h : m.Attached) (hsync : m'.paneSync = m.paneSync)
    (hlinked : m'.linked = m.linked) (hlog : m'.log = m.log)
    (hvisible : m'.visiblePanes = m.visiblePanes) (hactive : m'.activePane = m.activePane) :
    m'.Attached := by
  refine ⟨?_, ⟨?_, ?_⟩⟩
  · rw [hvisible]
    exact h.holds.of_eq hsync hlinked hlog
  · rw [hvisible, hactive]
    exact h.focused.visible
  · rw [hvisible, hactive]
    exact h.focused.none

/-- Showing a set of panes and focusing one of them puts everything together. -/
theorem attached_show (h : m.Holds m.visiblePanes) (new : List PaneId) (word : WordId)
    (focus : ℕ) : ((m.setVisibleSet new).focusFromTab word focus).Attached := by
  refine ⟨(h.setVisibleSet new).of_eq rfl rfl rfl, ⟨fun p hp ↦ ?_, fun hnone ↦ ?_⟩⟩
  · rw [SessionManager.focusFromTab] at hp
    dsimp only at hp
    split at hp
    case isTrue hmem => exact Option.some_inj.mp hp ▸ hmem
    case isFalse => exact List.mem_of_mem_head? hp
  · rw [SessionManager.focusFromTab] at hnone
    dsimp only at hnone
    split at hnone
    case isTrue => exact absurd hnone (Option.some_ne_none _)
    case isFalse => exact List.head?_eq_none_iff.mp hnone

theorem attached_selectSession (h : m.Holds m.visiblePanes) {word : WordId} {e : SessionEntry}
    (he : findSession m.sessionList word = some e) : (m.selectSession word).Attached := by
  have hviewed :
      { m with
        activeSession := some word
        activeTab := e.viewedTab.map TabInfo.tabIndex }.Holds m.visiblePanes := h.of_eq rfl rfl rfl
  rw [selectSession_of_find he]
  exact attached_show hviewed _ _ _

theorem Attached.selectSession (h : m.Attached) (word : WordId) :
    (m.selectSession word).Attached := by
  rcases Option.eq_none_or_eq_some (findSession m.sessionList word) with he | ⟨e, he⟩
  · rw [selectSession_of_unlisted he]
    exact h
  · exact attached_selectSession h.holds he

theorem attached_selectTab (h : m.Holds m.visiblePanes) {word : WordId} {tabIndex : ℕ}
    {v : ℕ × List PaneId} (hword : m.activeSession = some word)
    (hv : tabView m.sessionList word tabIndex = some v) : (m.selectTab tabIndex).Attached := by
  have hviewed : { m with activeTab := some tabIndex }.Holds m.visiblePanes := h.of_eq rfl rfl rfl
  rw [selectTab_of_view hword hv]
  exact attached_show hviewed _ _ _

theorem Attached.selectTab (h : m.Attached) (tabIndex : ℕ) : (m.selectTab tabIndex).Attached := by
  rcases selectTab_cases m tabIndex with heq | ⟨word, v, hword, hv, -⟩
  · rw [heq]
    exact h
  · exact attached_selectTab h.holds hword hv

theorem attached_send {msgs : List Outbound} (h : m.Attached) (hmsgs : ∀ msg ∈ msgs, Silent msg) :
    (m.send msgs).Attached := by
  have hholds := h.holds.send hmsgs
  by_cases hl : m.linked = true
  · rw [SessionManager.send, if_pos hl] at hholds ⊢
    exact ⟨hholds, h.focused.visible, h.focused.none⟩
  · rw [SessionManager.send, if_neg hl]
    exact h

theorem attached_publishFocus (h : m.Holds m.visiblePanes) {pane : PaneId}
    (hpane : pane ∈ m.visiblePanes) : (m.publishFocus pane).Attached := by
  have hfocused : { m with activePane := some pane }.Attached := by
    refine ⟨h.of_eq rfl rfl rfl, ⟨fun p hp ↦ ?_, fun hnone ↦ ?_⟩⟩
    · exact Option.some_inj.mp hp ▸ hpane
    · exact absurd hnone (Option.some_ne_none pane)
  rw [SessionManager.publishFocus]
  split
  · exact attached_send hfocused fun msg hmsg ↦ by
      obtain rfl := List.mem_singleton.mp hmsg
      trivial
  · exact hfocused

/-- A pane that nothing else is on screen with can be shown alone. -/
theorem attached_showAlone (h : m.Holds m.visiblePanes) {pane : PaneId}
    (halone : ∀ p ∈ m.visiblePanes, p = pane) : (m.showAlone pane).Attached := by
  have hnone : (m.visiblePanes.filter fun p ↦ p ≠ pane) = [] :=
    List.filter_eq_nil_iff.mpr fun p hp htrue ↦ of_decide_eq_true htrue (halone p hp)
  have hsent : (m.send ((m.visiblePanes.filter fun p ↦ p ≠ pane).map .detach)).Holds
      m.visiblePanes := by
    rw [hnone]
    exact h.send fun msg hmsg ↦ absurd hmsg List.not_mem_nil
  have hshown := (hsent.resync pane).congr [pane] fun p ↦ by
    rw [List.mem_cons, List.mem_singleton, or_iff_left_of_imp (halone p)]
  refine ⟨hshown.of_eq rfl rfl rfl, ⟨fun p hp ↦ ?_, fun hnone ↦ ?_⟩⟩
  · exact List.mem_singleton.mpr (Option.some_inj.mp hp).symm
  · exact absurd hnone (Option.some_ne_none pane)

/-- Switching the session or the tab puts everything together; if neither is switched, everything
was. -/
theorem attached_viewPane (h : m.Holds m.visiblePanes) {pane : PaneId} {tabIndex : ℕ}
    (hloc : locatePane m.sessionList pane = some tabIndex)
    (hview : m.Attached ∨ m.activeTab = none) : (m.viewPane pane tabIndex).Attached := by
  obtain ⟨e, v, he, hv⟩ := exists_tabView hloc
  rw [SessionManager.viewPane]
  split
  case isTrue => exact attached_selectSession h he
  case isFalse hsession =>
    split
    case isTrue => exact attached_selectTab h (not_not.mp hsession) hv
    case isFalse htab =>
      refine hview.resolve_right fun hnone ↦ ?_
      exact Option.some_ne_none tabIndex ((not_not.mp htab).symm.trans hnone)

theorem Attached.selectPaneWithin (h : m.Attached) {pane : PaneId} (halone : m.ShowsAlone pane)
    (rounds : ℕ) : (SessionManager.selectPaneWithin rounds m pane).Attached := by
  induction rounds generalizing m with
  | zero => exact h.of_eq rfl rfl rfl rfl rfl
  | succ rounds ih =>
    rcases Option.eq_none_or_eq_some (locatePane m.sessionList pane) with hloc | ⟨tabIndex, hloc⟩
    · rw [selectPaneWithin_of_unlisted hloc]
      exact attached_showAlone h.holds (halone hloc)
    · have hviewed := attached_viewPane h.holds hloc (.inl h)
      rw [selectPaneWithin_of_located hloc]
      split
      case isTrue hpane => exact attached_publishFocus hviewed.holds hpane
      case isFalse =>
        refine ih hviewed fun hnone ↦ ?_
        rw [sessionList_viewPane, hloc] at hnone
        exact absurd hnone (Option.some_ne_none tabIndex)

/-- Selecting a pane from no tab at all. -/
theorem attached_selectPane (h : m.Holds m.visiblePanes) {pane : PaneId}
    (halone : m.ShowsAlone pane) (htab : m.activeTab = none) : (m.selectPane pane).Attached := by
  rw [SessionManager.selectPane]
  rcases Option.eq_none_or_eq_some (locatePane m.sessionList pane) with hloc | ⟨tabIndex, hloc⟩
  · rw [selectPaneWithin_of_unlisted hloc]
    exact attached_showAlone h (halone hloc)
  · have hviewed := attached_viewPane h hloc (.inr htab)
    rw [selectPaneWithin_of_located hloc]
    split
    case isTrue hpane => exact attached_publishFocus hviewed.holds hpane
    case isFalse =>
      refine hviewed.selectPaneWithin (fun hnone ↦ ?_) 2
      rw [sessionList_viewPane, hloc] at hnone
      exact absurd hnone (Option.some_ne_none tabIndex)

theorem Attached.selectPane (h : m.Attached) {pane : PaneId} (halone : m.ShowsAlone pane) :
    (m.selectPane pane).Attached := h.selectPaneWithin halone 3

/-! ## Frames -/

theorem isSome_checkPaneSync {s : PaneSession} (h : s.paneSync.isSome = true) (seqno : SequenceNo) :
    (s.checkPaneSync seqno).1.paneSync.isSome = true := by
  rw [PaneSession.checkPaneSync]
  split
  · exact h
  · split
    · rfl
    · exact h
  · exact h

/-- No frame takes a sync entry away. -/
theorem isSome_handleServerMessage {s : PaneSession} (h : s.paneSync.isSome = true)
    (msg : ServerMessage) : (s.handleServerMessage msg).paneSync.isSome = true := by
  cases msg with
  | terminalSnapshot snapshot seqno => rfl
  | terminalUpdate diff seqno =>
    have hcheck := isSome_checkPaneSync h seqno
    rw [PaneSession.handleServerMessage, PaneSession.onTerminalUpdate]
    split
    case h_1 s' heq => rwa [heq] at hcheck
    case h_2 => rw [paneSync_maybeFetchHistory]; rfl
  | cursorUpdate cursor modes seqno =>
    have hcheck := isSome_checkPaneSync h seqno
    rw [PaneSession.handleServerMessage, PaneSession.onCursorUpdate]
    split
    case h_1 s' heq => rwa [heq] at hcheck
    case h_2 => rfl
  | scrollbackAppend firstIndex lines seqno =>
    have hcheck := isSome_checkPaneSync h seqno
    rw [PaneSession.handleServerMessage, PaneSession.onScrollbackAppend]
    split
    case h_1 s' heq => rwa [heq] at hcheck
    case h_2 => rw [paneSync_maybeFetchHistory]; rfl
  | gridDigest seqno hash =>
    rw [PaneSession.handleServerMessage, PaneSession.onGridDigest]
    split
    · split
      · split
        · rfl
        · exact h
      · exact h
    · exact h
  | syncReset => rfl
  | lagged n => rfl
  | historyLines requestId firstIndex lines historyTotal =>
    rw [PaneSession.handleServerMessage, PaneSession.onHistoryLines, paneSync_maybeFetchHistory]
    split
    · exact h
    · exact h

theorem not_mem_sent_maybeFetchHistory {s : PaneSession} (h : s.sent = [])
    (seq : Option SequenceNo) : .attach seq ∉ s.maybeFetchHistory.sent := by
  rw [PaneSession.maybeFetchHistory]
  split
  · rw [h]
    exact List.not_mem_nil
  · split
    · rw [PaneSession.send, h]
      simp
    · rw [h]
      exact List.not_mem_nil

/-- A reply to a fetch changes no sync entry and attaches nothing. -/
theorem onHistoryLines_silent {s : PaneSession} (h : s.sent = []) (requestId firstIndex : ℕ)
    (lines : List ScrollbackLine) (historyTotal : ℕ) :
    (s.onHistoryLines requestId firstIndex lines historyTotal).paneSync = s.paneSync ∧
      ∀ seq, .attach seq ∉ (s.onHistoryLines requestId firstIndex lines historyTotal).sent := by
  rw [PaneSession.onHistoryLines]
  split
  · exact ⟨paneSync_maybeFetchHistory _, not_mem_sent_maybeFetchHistory h⟩
  · exact ⟨paneSync_maybeFetchHistory _, not_mem_sent_maybeFetchHistory h⟩

theorem activePane_onPane (m : SessionManager) (p : PaneId) (f : PaneSession → PaneSession) :
    (m.onPane p f).activePane = m.activePane := by
  rw [SessionManager.onPane, SessionManager.send]
  split <;> rfl

theorem Attached.of_onPane (h : m.Attached) {p : PaneId} {f : PaneSession → PaneSession}
    (hholds : (m.onPane p f).Holds m.visiblePanes) : (m.onPane p f).Attached := by
  have hvisible := (unmoved_onPane m p f).visible
  have hactive := activePane_onPane m p f
  refine ⟨?_, ⟨?_, ?_⟩⟩
  · rw [hvisible]
    exact hholds
  · rw [hvisible, hactive]
    exact h.focused.visible
  · rw [hvisible, hactive]
    exact h.focused.none

theorem Attached.stream (h : m.Attached) {p : PaneId} {msg : ServerMessage}
    (hcareful : m.CarefulMessage (.stream p msg)) :
    (m.onPane p (·.handleServerMessage msg)).Attached := by
  refine h.of_onPane ?_
  by_cases hp : p ∈ m.visiblePanes
  · exact h.holds.onPane hp (isSome_handleServerMessage ((h.holds.sync p).mpr hp) msg)
  · have hnone : (m.pane p).paneSync = none := by
      rw [← Option.not_isSome_iff_eq_none]
      exact fun hsome ↦ hp ((h.holds.sync p).mp hsome)
    rcases hcareful.resolve_left hp with ⟨seqno, hash, rfl⟩ | ⟨_, _, _, _, rfl⟩
    · have hdigest : (m.pane p).onGridDigest seqno hash = m.pane p := by
        rw [PaneSession.onGridDigest, if_neg]
        exact fun hsync ↦ Option.some_ne_none _ (hsync.symm.trans hnone)
      refine h.holds.onPane_silent ?_ ?_
      · rw [PaneSession.handleServerMessage, hdigest]
        rfl
      · rw [PaneSession.handleServerMessage, hdigest]
        exact fun seq ↦ List.not_mem_nil
    · have hsilent := onHistoryLines_silent (s := m.pane p) rfl
      refine h.holds.onPane_silent ?_ (hsilent _ _ _ _).2
      exact congrArg Option.isSome (hsilent _ _ _ _).1

theorem Attached.ensurePane (h : m.Attached) (p : PaneId) : (m.ensurePane p).Attached :=
  h.of_onPane (h.holds.onPane_silent rfl fun _ ↦ List.not_mem_nil)

theorem Attached.ensurePanes (h : m.Attached) (ps : List PaneInfo) :
    (m.ensurePanes ps).Attached := by
  rw [SessionManager.ensurePanes]
  induction ps generalizing m with
  | nil => exact h
  | cons p ps ih => exact ih (h.ensurePane p.paneId)

theorem activePane_ensurePanes (m : SessionManager) (ps : List PaneInfo) :
    (m.ensurePanes ps).activePane = m.activePane :=
  foldl_keeps activePane
    (fun m (p : PaneInfo) ↦ activePane_onPane m p.paneId PaneSession.ensurePane) ps m

theorem Attached.resync (h : m.Attached) {p : PaneId} (hp : p ∈ m.visiblePanes) :
    (m.resync p).Attached :=
  h.of_onPane (h.holds.onPane hp rfl)

theorem Attached.requestSessionList (h : m.Attached) : m.requestSessionList.Attached := by
  have hcounted : { m with nextRequestId := m.nextRequestId + 1 }.Attached :=
    h.of_eq rfl rfl rfl rfl rfl
  refine attached_send hcounted fun msg hmsg ↦ ?_
  obtain rfl := List.mem_singleton.mp hmsg
  trivial

theorem Attached.resyncUnlessCached (h : m.Attached) (cached : Bool) :
    (m.resyncUnlessCached cached).Attached := by
  rw [SessionManager.resyncUnlessCached]
  split
  · exact h
  · exact h.requestSessionList

/-! ## Closes -/

/-- Nothing is on screen and nothing is attached. -/
theorem attached_nothing (h : m.Holds []) (hvisible : m.visiblePanes = [])
    (hactive : m.activePane = none) : m.Attached := by
  refine ⟨by rw [hvisible]; exact h, ⟨fun p hp ↦ ?_, fun _ ↦ hvisible⟩⟩
  exact absurd (hactive.symm.trans hp) (Option.some_ne_none p).symm

theorem Holds.forgetPanes (h : m.Holds panes) (ps : List PaneId) :
    (ps.foldl SessionManager.forgetPane m).Holds (panes.filter fun q ↦ q ∉ ps) :=
  h.foldl_drop Holds.forgetPane ps

/-- Dropping panes that are not on screen. -/
theorem Attached.forgetPanes (h : m.Attached) {ps : List PaneId}
    (hps : ∀ p ∈ m.visiblePanes, p ∉ ps) : (ps.foldl SessionManager.forgetPane m).Attached := by
  have hvisible := foldl_keeps visiblePanes (f := SessionManager.forgetPane) (fun _ _ ↦ rfl) ps m
  have hactive := foldl_keeps activePane (f := SessionManager.forgetPane) (fun _ _ ↦ rfl) ps m
  have hkept : (m.visiblePanes.filter fun q ↦ q ∉ ps) = m.visiblePanes :=
    List.filter_eq_self.mpr fun p hp ↦ decide_eq_true (hps p hp)
  refine ⟨?_, ⟨?_, ?_⟩⟩
  · rw [hvisible]
    exact hkept ▸ h.holds.forgetPanes ps
  · rw [hvisible, hactive]
    exact h.focused.visible
  · rw [hvisible, hactive]
    exact h.focused.none

/-- Dropping everything that is on screen. -/
theorem Holds.forgetVisible (h : m.Holds panes) {ps : List PaneId} (hps : ∀ p ∈ panes, p ∈ ps) :
    (ps.foldl SessionManager.forgetPane m).Holds [] := by
  have hnone : (panes.filter fun q ↦ q ∉ ps) = [] :=
    List.filter_eq_nil_iff.mpr fun p hp htrue ↦ of_decide_eq_true htrue (hps p hp)
  exact hnone ▸ h.forgetPanes ps

/-- A member of the list is found by its word. -/
theorem exists_findSession {sessions : List SessionEntry} {e : SessionEntry} (he : e ∈ sessions) :
    ∃ e', findSession sessions e.wordId = some e' := by
  rw [← Option.isSome_iff_exists, findSession, List.find?_isSome]
  exact ⟨e, he, decide_eq_true rfl⟩

theorem exists_findSession_of_fallback {word : WordId} {pane : PaneId}
    (h : m.findFallbackPane = some (word, pane)) :
    ∃ e, findSession m.sessionList word = some e := by
  rw [findFallbackPane, Option.or_eq_some_iff] at h
  rcases h with h | ⟨-, h⟩
  · obtain ⟨w, -, h⟩ := Option.bind_eq_some_iff.mp h
    obtain ⟨e, he, h⟩ := Option.bind_eq_some_iff.mp h
    obtain ⟨p, -, heq⟩ := Option.map_eq_some_iff.mp h
    obtain ⟨rfl, -⟩ := Prod.mk.inj heq
    exact ⟨e, he⟩
  · obtain ⟨e, he, h⟩ := List.exists_of_findSome?_eq_some h
    obtain ⟨p, -, heq⟩ := Option.map_eq_some_iff.mp h
    obtain ⟨rfl, -⟩ := Prod.mk.inj heq
    exact exists_findSession he

theorem attached_leavePane (h : m.Holds []) (hvisible : m.visiblePanes = []) :
    m.leavePane.Attached := by
  have hholds : m.Holds m.visiblePanes := hvisible ▸ h
  rw [SessionManager.leavePane]
  split
  case h_1 word pane hfallback =>
    split
    case isTrue =>
      have hhidden : { m with activeTab := none }.Holds m.visiblePanes := hholds.of_eq rfl rfl rfl
      refine attached_selectPane hhidden (fun _ p hp ↦ ?_) rfl
      exact absurd (hvisible ▸ hp) List.not_mem_nil
    case isFalse =>
      obtain ⟨e, he⟩ := exists_findSession_of_fallback hfallback
      exact attached_selectSession hholds he
  case h_2 =>
    exact attached_nothing (h.of_eq rfl rfl rfl) rfl rfl

theorem Attached.onPaneGone (h : m.Attached) (pane : PaneId) : (m.onPaneGone pane).1.Attached := by
  have hdropped : (m.dropPane pane).Holds (m.dropPane pane).visiblePanes :=
    (h.holds.forgetPane pane).of_eq rfl rfl rfl
  rw [SessionManager.onPaneGone]
  split
  · dsimp only
    split
    case isTrue =>
      split
      case h_1 sibling hsibling =>
        refine ⟨hdropped.of_eq rfl rfl rfl, ⟨fun p hp ↦ ?_, fun hnone ↦ ?_⟩⟩
        · exact Option.some_inj.mp hp ▸ List.mem_of_mem_head? hsibling
        · exact absurd hnone (Option.some_ne_none sibling)
      case h_2 hnone =>
        have hvisible := List.head?_eq_none_iff.mp hnone
        exact attached_leavePane (hvisible ▸ hdropped) hvisible
    case isFalse hactive =>
      refine ⟨hdropped, ⟨fun p hp ↦ ?_, fun hnone ↦ ?_⟩⟩
      · refine List.mem_filter.mpr ⟨h.focused.visible p hp, decide_eq_true ?_⟩
        rintro rfl
        exact hactive hp
      · have hvisible := congrArg (List.filter fun p ↦ p ≠ pane) (h.focused.none hnone)
        exact hvisible.trans rfl
  · exact h

theorem Attached.onSessionGone (h : m.Attached) {word : WordId}
    (hcovers : m.knowsSession word = true → m.Covers word) : (m.onSessionGone word).1.Attached := by
  rw [SessionManager.onSessionGone]
  split
  case isTrue hknown =>
    have hcovers := hcovers hknown
    dsimp only
    split
    case isTrue hactive =>
      have hforgotten := h.holds.forgetVisible fun p hp ↦ (hcovers p hp).mpr hactive
      have hcleared :
          { (m.sessionPaneIds word).foldl SessionManager.forgetPane m with
            sessionList := m.sessionList.filter fun e ↦ e.wordId ≠ word }.clearView.Holds [] :=
        hforgotten.of_eq rfl rfl rfl
      split
      case h_1 next hnext =>
        obtain ⟨e, he⟩ := exists_findSession (List.mem_of_mem_head? hnext)
        exact attached_selectSession hcleared he
      case h_2 => exact attached_nothing hcleared rfl rfl
    case isFalse hactive =>
      have hforgotten := h.forgetPanes fun p hp hmem ↦ hactive ((hcovers p hp).mp hmem)
      exact hforgotten.of_eq rfl rfl rfl rfl rfl
  case isFalse => exact h

theorem Attached.leaveSession (h : m.Attached) {word : WordId} (hcovers : m.Covers word) :
    (m.leaveSession word).Attached := by
  rw [SessionManager.leaveSession]
  split
  case isTrue hactive =>
    have hforgotten := h.holds.forgetVisible fun p hp ↦ (hcovers p hp).mpr hactive
    have hcleared :
        ((m.sessionPaneIds word).foldl SessionManager.forgetPane m).clearView.Holds [] :=
      hforgotten.of_eq rfl rfl rfl
    split
    case h_1 next hnext =>
      obtain ⟨e, he⟩ := exists_findSession (List.mem_of_find?_eq_some hnext)
      rw [← sessionList_foldl_forgetPane (m.sessionPaneIds word) m] at he
      exact attached_selectSession hcleared he
    case h_2 => exact attached_nothing hcleared rfl rfl
  case isFalse hactive => exact h.forgetPanes fun p hp hmem ↦ hactive ((hcovers p hp).mp hmem)

theorem Holds.hideTab (h : m.Holds []) :
    { m with activeTab := none, visiblePanes := [] }.Holds [] := h.of_eq rfl rfl rfl

theorem Attached.onTabGone (h : m.Attached) {word : WordId} {tabIndex : ℕ}
    (hcovers : m.CoversTab word tabIndex) : (m.onTabGone word tabIndex).Attached := by
  have hpruned : { m with
      sessionList := modifySession word (·.withoutTab tabIndex) m.sessionList }.Attached :=
    h.of_eq rfl rfl rfl rfl rfl
  have hclosed : ∀ p : PaneId, p ∈ ((((findSession m.sessionList word).map
      (·.closedPanes tabIndex)).getD []).map fun i ↦ (word, i)) ↔ p.1 = word ∧
        p.2 ∈ ((findSession m.sessionList word).map (·.closedPanes tabIndex)).getD [] := by
    intro p
    rw [List.mem_map]
    constructor
    · rintro ⟨i, hi, rfl⟩
      exact ⟨rfl, hi⟩
    · rintro ⟨rfl, hi⟩
      exact ⟨p.2, hi, rfl⟩
  rw [SessionManager.onTabGone]
  dsimp only
  split
  case isTrue honscreen =>
    have hforgotten := hpruned.holds.forgetVisible fun p hp ↦
      (hclosed p).mpr ((hcovers p hp).mpr honscreen)
    split
    case h_1 next hnext =>
      obtain ⟨e, he, hnext⟩ := Option.bind_eq_some_iff.mp hnext
      obtain ⟨t, ht, rfl⟩ := Option.map_eq_some_iff.mp hnext
      have hsame := sameTab_foldl sameTab_forgetPane
        ((((findSession m.sessionList word).map (·.closedPanes tabIndex)).getD []).map
          fun i ↦ (word, i))
        { m with sessionList := modifySession word (·.withoutTab tabIndex) m.sessionList }
      have hv := (congrArg (tabView · word t.tabIndex) hsame.list).trans (tabView_withoutTab he ht)
      exact attached_selectTab (hforgotten.hideTab) (hsame.session.trans honscreen.1) hv
    case h_2 => exact attached_nothing (hforgotten.of_eq rfl rfl rfl) rfl rfl
  case isFalse hoff =>
    exact hpruned.forgetPanes fun p hp hmem ↦ hoff ((hcovers p hp).mp ((hclosed p).mp hmem))

/-! ## Lists -/

theorem visiblePanes_onSessionGone {word : WordId} (h : m.activeSession ≠ some word) :
    (m.onSessionGone word).1.visiblePanes = m.visiblePanes := by
  have hvisible := foldl_keeps visiblePanes (f := SessionManager.forgetPane) (fun _ _ ↦ rfl)
    (m.sessionPaneIds word) m
  rw [SessionManager.onSessionGone]
  split
  · dsimp only
    exact hvisible
  · rfl

/-- Another session that goes takes nothing from what the entry has. -/
theorem Covers.onSessionGone {word w : WordId} (h : m.Covers word) (hw : m.activeSession ≠ some w)
    (hne : word ≠ w) : (m.onSessionGone w).1.Covers word := by
  have hids : (m.onSessionGone w).1.sessionPaneIds word = m.sessionPaneIds word := by
    have hkeep : ∀ e : SessionEntry, e.wordId = word → decide (e.wordId ≠ w) = true :=
      fun e he ↦ decide_eq_true (he.symm ▸ hne)
    rw [sessionPaneIds, sessionList_onSessionGone, findSession_filter hkeep, sessionPaneIds]
  rw [Covers, visiblePanes_onSessionGone hw, activeSession_onSessionGone hw, hids]
  exact h

theorem Attached.forgetUnlistedSessions (h : m.Attached) {listed : List SessionEntry}
    (hcovers : ∀ word, m.knowsSession word = true → (∀ e ∈ listed, e.wordId ≠ word) →
      m.Covers word) : (m.forgetUnlistedSessions listed).1.Attached := by
  -- The sessions that are still to go cover what is on screen, until the viewed one goes.
  refine forgetUnlistedSessions_rule (P := fun m' ↦ m'.Attached ∧ ∀ word,
    m'.knowsSession word = true → (∀ e ∈ listed, e.wordId ≠ word) → m'.Covers word)
    ⟨h, hcovers⟩ (fun _ hP ↦ hP.1) ?_ ?_
  · intro m' w hP hsame hw hunlisted
    have hw : m'.activeSession ≠ some w := hsame.symm ▸ hw
    refine ⟨hP.1.onSessionGone fun hknown ↦ hP.2 w hknown hunlisted, fun word hknown hword ↦ ?_⟩
    have hne : word ≠ w := by
      rintro rfl
      exact ne_true_of_eq_false (knowsSession_onSessionGone m' word) hknown
    exact (hP.2 word (knowsSession_of_onSessionGone hknown) hword).onSessionGone hw hne
  · intro m' w hP _ _ hunlisted _
    exact hP.1.onSessionGone fun hknown ↦ hP.2 w hknown hunlisted

theorem activePane_setVisibleSet (m : SessionManager) (new : List PaneId) :
    (m.setVisibleSet new).activePane = m.activePane := by
  have hdetached : ∀ (m : SessionManager) (p : PaneId),
      (m.detachPane p).activePane = m.activePane := by
    intro m p
    rw [SessionManager.detachPane, SessionManager.send]
    split <;> rfl
  have hattached := foldl_keeps activePane (fun m p ↦ activePane_onPane m p PaneSession.resync)
    (new.filter fun p ↦ p ∉ m.visiblePanes)
    ((m.visiblePanes.filter fun p ↦ p ∉ new).foldl SessionManager.detachPane m)
  exact hattached.trans (foldl_keeps activePane hdetached _ m)

theorem Attached.reconcileView (h : m.Attached) (hrefocused : m.Refocused m.sessionList) :
    m.reconcileView.Attached := by
  rw [SessionManager.reconcileView]
  split
  case h_1 pane _ =>
    split
    case isTrue hlocated =>
      have hcleared : { m with pendingSelectPane := none }.Attached := h.of_eq rfl rfl rfl rfl rfl
      refine hcleared.selectPane fun hnone ↦ ?_
      exact absurd hlocated (by rw [show locatePane m.sessionList pane = none from hnone]; simp)
    case isFalse => exact h
  case h_2 hpending =>
    split
    · split
      · exact h.selectSession _
      · exact h
    case h_2 word hactive =>
      rw [SessionManager.reconcileViewedTab]
      split
      case isTrue => exact h.selectSession word
      case isFalse hvisible =>
        split
        case isTrue => exact h
        case isFalse hlocal =>
          split
          case h_1 focus visible hv =>
            refine ⟨(h.holds.setVisibleSet visible).of_eq rfl rfl rfl, ⟨fun p hp ↦ ?_, ?_⟩⟩
            · have hp : m.activePane = some p := (activePane_setVisibleSet m visible).symm.trans hp
              exact hrefocused hpending word hactive (eq_false_of_ne_true hlocal) _ hv p hp
            · intro hnone
              have hactive := (activePane_setVisibleSet m visible).symm.trans hnone
              exact absurd (h.focused.none hactive) hvisible
          case h_2 => exact h.selectSession word

/-! ## Messages -/

theorem Attached.followTab (h : m.Attached) (word : WordId) (tabIndex : ℕ) :
    (m.followTab word tabIndex).Attached := by
  rw [SessionManager.followTab]
  split
  · split
    · exact attached_show h.holds _ _ _
    · exact h
  · exact h

theorem Attached.receive (h : m.Attached) {msg : Inbound} (hcareful : m.CarefulMessage msg) :
    (m.receive msg).Attached := by
  rw [SessionManager.receive]
  cases msg with
  | stream p msg => exact h.stream hcareful
  | sessionListResult sessions =>
    have hforgotten := h.forgetUnlistedSessions hcareful.1
    have hlisted : { (m.forgetUnlistedSessions sessions).1 with
        sessionList := sessions }.Attached := hforgotten.of_eq rfl rfl rfl rfl rfl
    refine (hlisted.ensurePanes _).reconcileView ?_
    have hsame := sameTab_ensurePanes { (m.forgetUnlistedSessions sessions).1 with
      sessionList := sessions } (sessions.flatMap SessionEntry.panes)
    have hactive := activePane_ensurePanes { (m.forgetUnlistedSessions sessions).1 with
      sessionList := sessions } (sessions.flatMap SessionEntry.panes)
    rw [Refocused, hsame.pending, hsame.session, hsame.tab, hsame.list, hactive]
    exact hcareful.2
  | sessionCreated entry =>
    have hlisted : { m.ensurePanes entry.panes with
        sessionList := (m.ensurePanes entry.panes).sessionList ++ [entry] }.Attached :=
      (h.ensurePanes entry.panes).of_eq rfl rfl rfl rfl rfl
    exact hlisted.selectSession entry.wordId
  | sessionClosed word => exact h.onSessionGone hcareful
  | sessionKicked word => exact h.leaveSession hcareful
  | paneCreated p word =>
    have hlisted : { m.ensurePane p with
        sessionList := modifySession word (·.withPane ⟨p, p.2⟩) (m.ensurePane p).sessionList
        pendingSelectPane := some p }.Attached := (h.ensurePane p).of_eq rfl rfl rfl rfl rfl
    exact hlisted.requestSessionList
  | paneClosed p => exact h.onPaneGone p
  | paneSplit word tabIndex newPane layout =>
    have hlisted : { m.ensurePane newPane.paneId with
        sessionList := modifySession word
          (fun e ↦ (e.withPane newPane).withLayout tabIndex layout newPane.paneIndex)
          (m.ensurePane newPane.paneId).sessionList }.Attached :=
      (h.ensurePane newPane.paneId).of_eq rfl rfl rfl rfl rfl
    exact hlisted.followTab word tabIndex
  | layoutUpdate word tabIndex layout focusedPane =>
    have hlisted : { m with
        sessionList := modifySession word (·.withLayout tabIndex layout focusedPane)
          m.sessionList }.Attached := h.of_eq rfl rfl rfl rfl rfl
    exact hlisted.followTab word tabIndex
  | tabCreated word tab =>
    have hadded : { m with
        sessionList := modifySession word (·.withTab tab) m.sessionList }.Attached :=
      h.of_eq rfl rfl rfl rfl rfl
    rw [handleServerMessage, SessionManager.onTabCreated]
    dsimp only
    split
    · exact hadded.selectTab tab.tabIndex
    · exact hadded
  | tabClosed word tabIndex => exact h.onTabGone hcareful
  | tabsReordered word tabIndices => exact h.of_eq rfl rfl rfl rfl rfl
  | sessionCreatedEvent word => exact h.resyncUnlessCached _
  | tabCreatedEvent word tabIndex => exact h.resyncUnlessCached _
  | paneSpawned p => exact h.resyncUnlessCached _

/-! ## Links -/

theorem held_onPane_attach (hl : m.linked = true) {p : PaneId} {f : PaneSession → PaneSession}
    {seq : Option SequenceNo} (hsent : (f (m.pane p)).sent = [.attach seq]) :
    held (m.onPane p f).log = Function.update (held m.log) p true := by
  rw [log_onPane hl, held_append, hsent, List.flatMap_singleton, foldl_holds_attach]

theorem resumePane_cases (sameDaemon : Bool) {p : PaneId} (h : (m.paneSync p).isSome = true) :
    ∃ f seq, resumePane sameDaemon m p = m.onPane p f ∧
      (f (m.pane p)).paneSync.isSome = true ∧ (f (m.pane p)).sent = [.attach seq] := by
  rw [resumePane.eq_def]
  split
  · exact ⟨fun s ↦ s.attachWith (some _), _, rfl, h, rfl⟩
  · exact ⟨PaneSession.attachFresh, none, rfl, rfl, rfl⟩

/-- Attaching the visible panes again, one after the other. -/
private theorem holds_foldl_resumePane (sameDaemon : Bool) {done : List PaneId} (ps : List PaneId)
    (hsync : ∀ p, (m.paneSync p).isSome = true ↔ p ∈ panes) (hl : m.linked = true)
    (hheld : ∀ p, held m.log p = true ↔ p ∈ done) (hps : ∀ p ∈ ps, p ∈ panes) :
    (∀ p, ((ps.foldl (resumePane sameDaemon) m).paneSync p).isSome = true ↔ p ∈ panes) ∧
      ∀ p, held (ps.foldl (resumePane sameDaemon) m).log p = true ↔ p ∈ done ++ ps := by
  induction ps generalizing m done with
  | nil => exact ⟨hsync, fun p ↦ by rw [List.append_nil]; exact hheld p⟩
  | cons p ps ih =>
    have hp : p ∈ panes := hps p List.mem_cons_self
    obtain ⟨f, seq, heq, hsome, hsent⟩ := resumePane_cases sameDaemon ((hsync p).mpr hp)
    rw [List.foldl_cons, heq]
    have hsync' : ∀ q, ((m.onPane p f).paneSync q).isSome = true ↔ q ∈ panes := by
      intro q
      by_cases hq : q = p
      · subst hq
        rw [paneSync_onPane, hsome]
        exact ⟨fun _ ↦ hp, fun _ ↦ rfl⟩
      · rw [paneSync_onPane_of_ne m hq]
        exact hsync q
    have hheld' : ∀ q, held (m.onPane p f).log q = true ↔ q ∈ done ++ [p] := by
      intro q
      rw [held_onPane_attach hl hsent, List.mem_append, List.mem_singleton]
      by_cases hq : q = p
      · subst hq
        rw [Function.update_self]
        exact ⟨fun _ ↦ .inr rfl, fun _ ↦ rfl⟩
      · rw [Function.update_of_ne hq, or_iff_left hq]
        exact hheld q
    have hrest := ih hsync' ((unmoved_onPane m p f).linked.trans hl) hheld'
      fun q hq ↦ hps q (List.mem_cons_of_mem p hq)
    refine ⟨hrest.1, fun q ↦ (hrest.2 q).trans ?_⟩
    rw [List.append_assoc, List.singleton_append]

theorem resumePane_keeps (sameDaemon : Bool) (m : SessionManager) (p : PaneId) :
    (m.resumePane sameDaemon p).visiblePanes = m.visiblePanes ∧
      (m.resumePane sameDaemon p).activePane = m.activePane := by
  rw [resumePane.eq_def]
  split
  · exact ⟨(unmoved_onPane m p _).visible, activePane_onPane m p _⟩
  · exact ⟨(unmoved_onPane m p PaneSession.attachFresh).visible,
      activePane_onPane m p PaneSession.attachFresh⟩

theorem Attached.applyOutcome (h : m.Attached) (daemon : Option ℕ) :
    (m.applyOutcome daemon).Attached := by
  let up := { m with linked := true, log := m.log ++ [Wire.linked] }.requestSessionList
  let known := { up with previousDaemonInstance := up.daemonInstance, daemonInstance := daemon }
  have hsent : up.log = m.log ++ [Wire.linked, .sent (.sessionList m.nextRequestId)] := by
    refine (log_send rfl _).trans ?_
    exact List.append_assoc m.log [.linked] _
  have hnone : ∀ p, held known.log p = true ↔ p ∈ ([] : List PaneId) := by
    intro p
    change held up.log p = true ↔ _
    rw [hsent, held_append]
    exact ⟨fun hfalse ↦ absurd hfalse Bool.false_ne_true, fun hp ↦ absurd hp List.not_mem_nil⟩
  have hvisible : known.visiblePanes = m.visiblePanes := rfl
  have hresumed := holds_foldl_resumePane (m := known) known.linkReachedSameDaemon
    m.visiblePanes h.holds.sync rfl hnone fun _ hp ↦ hp
  have heq : m.applyOutcome daemon =
      m.visiblePanes.foldl (resumePane known.linkReachedSameDaemon) known := rfl
  have hshown := foldl_keeps visiblePanes
    (fun m p ↦ (resumePane_keeps known.linkReachedSameDaemon m p).1) m.visiblePanes known
  have hactive := foldl_keeps activePane
    (fun m p ↦ (resumePane_keeps known.linkReachedSameDaemon m p).2) m.visiblePanes known
  rw [← heq] at hresumed hshown hactive
  refine ⟨?_, ⟨?_, ?_⟩⟩
  · rw [hshown]
    exact ⟨hresumed.1, fun _ p ↦ hresumed.2 p⟩
  · rw [hshown, hactive]
    exact h.focused.visible
  · rw [hshown, hactive]
    exact h.focused.none

theorem Attached.apply (h : m.Attached) {op : Op} (hcareful : m.Careful op) :
    (m.apply op).Attached := by
  cases op with
  | receive msg => exact h.receive hcareful
  | selectSession word => exact h.selectSession word
  | selectTab tabIndex => exact h.selectTab tabIndex
  | selectPane pane => exact h.selectPane hcareful
  | focusPane pane =>
    rw [SessionManager.apply, SessionManager.focusPane]
    split
    case isTrue hpane => exact attached_publishFocus h.holds hpane
    case isFalse hpane => exact h.selectPane (hcareful hpane)
  | cycleTab offset =>
    rw [SessionManager.apply, SessionManager.cycleTab]
    split
    · exact h
    · dsimp only
      split
      · exact h
      · exact h.selectTab _
  | cycleSession offset =>
    rw [SessionManager.apply, SessionManager.cycleSession]
    split
    · exact h
    · exact h.selectSession _
  | cyclePane offset =>
    rw [SessionManager.apply, SessionManager.cyclePane]
    split
    case h_1 => exact h
    case h_2 word hactive =>
      dsimp only
      split
      case h_1 => exact h
      case h_2 pane hpane => exact h.selectPane (hcareful word hactive pane hpane)
  | digestMismatch pane => exact h.resync hcareful
  | linkLost | dropLink =>
    exact ⟨⟨h.holds.sync, fun hl ↦ absurd hl Bool.false_ne_true⟩, h.focused.visible,
      h.focused.none⟩
  | linkUp daemon => exact h.applyOutcome daemon
  | disconnect =>
    have hvisible : m.visiblePanes = [] := hcareful
    refine attached_nothing ⟨fun p ↦ ?_, fun hl ↦ absurd hl Bool.false_ne_true⟩ hvisible rfl
    exact ⟨fun hfalse ↦ absurd hfalse Bool.false_ne_true, fun hp ↦ absurd hp List.not_mem_nil⟩

/-! ## Runs -/

theorem attached_new : new.Attached :=
  ⟨⟨fun _ ↦ ⟨fun hfalse ↦ absurd hfalse Bool.false_ne_true, fun hp ↦ absurd hp List.not_mem_nil⟩,
    fun hl ↦ absurd hl Bool.false_ne_true⟩,
    ⟨fun p hp ↦ absurd hp (Option.some_ne_none p).symm, fun _ ↦ rfl⟩⟩

/-- **Attached and on screen.** In every run without a step that breaks it, after every step the
panes with a sync entry are those on screen; while there is a link they are those that were attached
last over it and are not gone; and the focused pane is one of them, unless there is none. -/
theorem attached_eq_visible (ops : List Op) (h : Run.Ok apply Careful new ops) :
    (∀ p, ((Run.exec apply new ops).paneSync p).isSome = true ↔
        p ∈ (Run.exec apply new ops).visiblePanes) ∧
      ((Run.exec apply new ops).linked = true → ∀ p,
        held (Run.exec apply new ops).log p = true ↔ p ∈ (Run.exec apply new ops).visiblePanes) ∧
      (∀ p, (Run.exec apply new ops).activePane = some p →
        p ∈ (Run.exec apply new ops).visiblePanes) ∧
      ((Run.exec apply new ops).activePane = none ↔
        (Run.exec apply new ops).visiblePanes = []) := by
  have hattached := @Run.invariant_of_ok _ _ apply Careful Attached
    (fun _ _ hs hc ↦ Attached.apply hs hc) ops new attached_new h
  refine ⟨hattached.holds.sync, hattached.holds.held, hattached.focused.visible,
    hattached.focused.none, fun hnone ↦ ?_⟩
  rw [← Option.not_isSome_iff_eq_none]
  intro hsome
  obtain ⟨p, hp⟩ := Option.isSome_iff_exists.mp hsome
  exact absurd (hnone ▸ hattached.focused.visible p hp) List.not_mem_nil

/-- Two tabs, the second one of which is viewed. -/
theorem attached_eq_visible_of_tabs :
    let entry : SessionEntry :=
      { wordId := "a", peer := none, activeTab := 0, panes := [⟨("a", 0), 0⟩, ⟨("a", 1), 1⟩]
        tabs := [⟨0, .leaf 0, 0⟩, ⟨1, .leaf 1, 1⟩] }
    let m := Run.exec apply new
      [.linkUp none, .receive (.sessionListResult [entry]), .selectTab 1, .focusPane ("a", 1)]
    m.visiblePanes = [("a", 1)] ∧ (m.paneSync ("a", 0)).isSome = false ∧
      ((m.linked = true → ∀ p, held m.log p = true ↔ p ∈ m.visiblePanes) ∧
        (∀ p, m.activePane = some p → p ∈ m.visiblePanes) ∧
        (m.activePane = none ↔ m.visiblePanes = [])) := by
  refine ⟨by decide, by decide, (attached_eq_visible [.linkUp none, .receive (.sessionListResult _),
    .selectTab 1, .focusPane ("a", 1)] ⟨trivial, ⟨?_, ?_⟩, trivial, ?_, trivial⟩).2⟩
  · exact fun _ hknown ↦ absurd hknown Bool.false_ne_true
  · exact fun _ word hword ↦ absurd hword (Option.some_ne_none word).symm
  · exact fun hout ↦ absurd hout (by decide)

/-- A pane that closes is not detached: the last that was sent for it is the `Attach`. -/
theorem attached_of_closed_pane :
    let entry : SessionEntry :=
      { wordId := "a", peer := none, activeTab := 0, panes := [⟨("a", 0), 0⟩]
        tabs := [⟨0, .leaf 0, 0⟩] }
    let m := Run.exec apply new
      [.linkUp none, .receive (.sessionListResult [entry]), .receive (.paneClosed ("a", 0))]
    m.visiblePanes = [] ∧ lastAttached m.log ("a", 0) = true := by
  decide

end SessionManager

end Client

end Kmux
