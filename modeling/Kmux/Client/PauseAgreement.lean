import Kmux.Client.SessionManager
import Kmux.Lib.Run

/-!
# Client and daemon on a pause

The daemon keeps three flags with every attachment of a client. `Attach` clears them, `SetPaused`
sets two of them on all attachments, and `SetPaneNoAutoPause` sets the third on one. The client
keeps the last pause it pushed and two sets of marks, and has a rule of its own for which panes are
withheld.

The two stay together as long as nothing is attached that the rule withholds, since the daemon
streams to a pane that was just attached, and as long as a mark is not taken away from a pane that
keeps the other one, since the client asserts the mark it changed and not the rule. The screen of a
pane that starts to stream is fresh as long as that does not come about through a mark, for which no
`Attach` is sent. `Agreeable` is this condition on a step, and `pause_agreement` is the invariant of
the runs that meet it.
-/

namespace Kmux

namespace Client

/-! ## The daemon's flags -/

/-- The flags of one attachment. -/
structure Attachment where
  paused : Bool
  pauseAuto : Bool
  noAutoPause : Bool
  deriving DecidableEq, Repr

/-- Whether output frames are withheld. -/
def Attachment.outputPaused (a : Attachment) : Bool := a.paused && !(a.pauseAuto && a.noAutoPause)

/-- The attachments of the client. -/
abbrev Attachments := PaneId → Option Attachment

/-- What one entry of the log makes of the attachments. The ones of an old link are released with
its channel, and the one of a pane that is gone with the pane. -/
def Attachments.apply (att : Attachments) : Wire → Attachments
  | .sent (.attach pane _) => Function.update att pane (some ⟨false, false, false⟩)
  | .sent (.detach pane) => Function.update att pane none
  | .sent (.setPaused paused auto) => fun p ↦
    (att p).map fun a ↦ { a with paused := paused, pauseAuto := auto }
  | .sent (.setPaneNoAutoPause pane exempt) =>
    Function.update att pane ((att pane).map fun a ↦ { a with noAutoPause := exempt })
  | .sent _ => att
  | .forgot pane => Function.update att pane none
  | .linked => fun _ ↦ none

/-- The attachments once the daemon has handled every message. -/
def attachments (log : List Wire) : Attachments := log.foldl Attachments.apply fun _ ↦ none

/-- The entry makes the daemon stream a pane that it withheld. -/
def Resumes (att : Attachments) (e : Wire) (pane : PaneId) : Prop :=
  ∃ a b, att pane = some a ∧ a.outputPaused = true ∧ att.apply e pane = some b ∧
    b.outputPaused = false

/-! ## The application -/

/-- What the application core keeps of pauses, with its session manager. -/
structure AppCore where
  manualPause : Bool
  autoPause : Bool
  isLocal : Bool
  mgr : SessionManager

namespace AppCore

def new (isLocal : Bool) : AppCore :=
  { manualPause := false, autoPause := false, isLocal, mgr := .new }

def isPaused (s : AppCore) : Bool := s.manualPause || s.autoPause

/-- The reason for the pause is the background. -/
def pauseIsAuto (s : AppCore) : Bool := !s.manualPause && s.autoPause

/-- The pause in effect, as it is pushed. -/
def pause (s : AppCore) : Bool × Bool := (s.isPaused, s.pauseIsAuto)

/-- The client's own rule. -/
def isPanePaused (s : AppCore) (pane : PaneId) : Bool :=
  s.manualPause || (s.autoPause && !s.mgr.isPaneAutoPauseExempt pane)

def reconcilePause (s : AppCore) : AppCore :=
  { s with mgr := s.mgr.reconcilePause s.isPaused s.pauseIsAuto }

def toggleManualPause (s : AppCore) : AppCore :=
  { s with manualPause := !s.manualPause }.reconcilePause

def setAutoPause (s : AppCore) (on : Bool) : AppCore :=
  if on && s.isLocal then s
  else if s.autoPause = on then s
  else { s with autoPause := on }.reconcilePause

def togglePaneNoAutoPause (s : AppCore) (pane : PaneId) : AppCore :=
  { s with mgr := s.mgr.togglePaneAutoPauseExempt pane }.reconcilePause

def toggleSessionNoAutoPause (s : AppCore) (word : WordId) : AppCore :=
  { s with mgr := s.mgr.toggleSessionAutoPauseExempt word }.reconcilePause

/-- What happens to the pauses and to the attached panes. -/
inductive Step
  | toggleManualPause
  | setAutoPause (on : Bool)
  | togglePane (pane : PaneId)
  | toggleSession (word : WordId)
  /-- Another tab or session is looked at, or the layout has changed. -/
  | view (panes : List PaneId)
  /-- A frame was lost, or a digest did not match. -/
  | resync (pane : PaneId)
  /-- The pane is gone, or the client was put out of its session. -/
  | gone (pane : PaneId)
  | linkLost
  | dropLink
  | linkUp (daemon : Option ℕ)
  | disconnect

def step (s : AppCore) : Step → AppCore
  | .toggleManualPause => s.toggleManualPause
  | .setAutoPause on => s.setAutoPause on
  | .togglePane pane => s.togglePaneNoAutoPause pane
  | .toggleSession word => s.toggleSessionNoAutoPause word
  | .view panes => { s with mgr := s.mgr.setVisibleSet panes }
  | .resync pane => { s with mgr := s.mgr.resync pane }
  | .gone pane =>
    { s with
      mgr :=
        { s.mgr.forgetPane pane with visiblePanes := s.mgr.visiblePanes.filter fun p ↦ p ≠ pane } }
  | .linkLost => { s with mgr := s.mgr.linkLost }
  | .dropLink => { s with mgr := s.mgr.dropLink }
  | .linkUp daemon => { s with mgr := s.mgr.applyOutcome daemon }
  | .disconnect => { s with mgr := s.mgr.disconnect }

/-! ## When the two stay together -/

/-- A mark can be flipped on a pane that is attached: it is not taken while the other one stands; it
is not taken under an auto-pause that the daemon does not have on the pane; and it is not given
under an auto-pause that withholds the pane. -/
def Flips (s : AppCore) (mark other : Bool) (a : Attachment) : Prop :=
  if mark then
    other = false ∧ (s.pause = (true, true) → s.mgr.pauseApplied ≠ s.pause ∨ a.paused = true)
  else s.pause = (true, true) → other = true

instance Flips.decidable (s : AppCore) (mark other : Bool) (a : Attachment) :
    Decidable (s.Flips mark other a) :=
  inferInstanceAs (Decidable (if mark then _ ∧ _ else _ → _))

/-- The condition on a step. -/
def Agreeable (s : AppCore) : Step → Prop
  | .view panes => s.mgr.linked = true → ∀ p ∈ panes, p ∉ s.mgr.visiblePanes →
    s.isPanePaused p = false
  | .resync pane => s.mgr.linked = true → pane ∈ s.mgr.visiblePanes ∧ s.isPanePaused pane = false
  | .linkUp _ => ∀ p ∈ s.mgr.visiblePanes, s.isPanePaused p = false
  | .togglePane pane => s.mgr.linked = true → ∀ a ∈ attachments s.mgr.log pane,
    s.Flips (s.mgr.autoPauseExemptPanes pane) (s.mgr.autoPauseExemptSessions pane.1) a
  | .toggleSession word => s.mgr.linked = true → ∀ p ∈ s.mgr.visiblePanes, p.1 = word →
    ∀ a ∈ attachments s.mgr.log p,
      s.Flips (s.mgr.autoPauseExemptSessions word) (s.mgr.autoPauseExemptPanes p) a
  | _ => True

instance Agreeable.decidable (s : AppCore) : ∀ e, Decidable (s.Agreeable e)
  | .view _ => inferInstanceAs (Decidable (_ = _ → ∀ _ ∈ _, _ → _))
  | .resync _ => inferInstanceAs (Decidable (_ = _ → _ ∧ _))
  | .linkUp _ => inferInstanceAs (Decidable (∀ _ ∈ _, _))
  | .togglePane _ => inferInstanceAs (Decidable (_ = _ → ∀ _ ∈ _, _))
  | .toggleSession _ => inferInstanceAs (Decidable (_ = _ → ∀ _ ∈ _, _ → ∀ _ ∈ _, _))
  | .toggleManualPause | .setAutoPause _ | .gone _ | .linkLost | .dropLink | .disconnect =>
    inferInstanceAs (Decidable True)

/-- With every message handled, the daemon withholds what the rule withholds. -/
def Agrees (s : AppCore) : Prop :=
  s.mgr.linked = true → ∀ p, ∀ a ∈ attachments s.mgr.log p, a.outputPaused = s.isPanePaused p

/-- Whatever makes the daemon stream a pane again, a fresh `Attach` of the pane is sent with it or
after it. -/
def Refreshed (log : List Wire) : Prop :=
  ∀ pre e post, log = pre ++ e :: post → ∀ p, Resumes (attachments pre) e p →
    .sent (.attach p none) ∈ e :: post

end AppCore

/-! ## The attachments over a log -/

theorem attachments_append (log more : List Wire) :
    attachments (log ++ more) = more.foldl Attachments.apply (attachments log) := by
  rw [attachments, List.foldl_append, ← attachments]

/-- `Refreshed` from some attachments on, entry by entry. -/
def FreshFrom (att : Attachments) : List Wire → Prop
  | [] => True
  | e :: es =>
    (∀ p, Resumes att e p → .sent (.attach p none) ∈ e :: es) ∧ FreshFrom (att.apply e) es

theorem FreshFrom.append {more : List Wire} :
    ∀ {log : List Wire} {att : Attachments}, FreshFrom att log →
      FreshFrom (log.foldl Attachments.apply att) more → FreshFrom att (log ++ more)
  | [], _, _, hmore => hmore
  | _ :: _, _, ⟨he, hes⟩, hmore =>
    ⟨fun p hp ↦ List.mem_append_left more (he p hp), hes.append hmore⟩

theorem FreshFrom.resumes {log : List Wire} {att : Attachments} (h : FreshFrom att log)
    {pre post : List Wire} {e : Wire} (hlog : log = pre ++ e :: post) {p : PaneId}
    (hp : Resumes (pre.foldl Attachments.apply att) e p) : .sent (.attach p none) ∈ e :: post := by
  induction pre generalizing att log with
  | nil =>
    subst hlog
    exact h.1 p hp
  | cons w pre ih =>
    subst hlog
    exact ih h.2 rfl hp

theorem refreshed_of_freshFrom {log : List Wire} (h : FreshFrom (fun _ ↦ none) log) :
    AppCore.Refreshed log :=
  fun _ _ _ hlog _ hp ↦ h.resumes hlog hp

/-- What was logged since `m` is fresh. -/
def Freshly (m m' : SessionManager) : Prop :=
  ∃ more, m'.log = m.log ++ more ∧ FreshFrom (attachments m.log) more

theorem Freshly.refl (m : SessionManager) : Freshly m m :=
  ⟨[], (List.append_nil _).symm, trivial⟩

theorem Freshly.trans {m m' m'' : SessionManager} (h : Freshly m m') (h' : Freshly m' m'') :
    Freshly m m'' := by
  obtain ⟨more, hlog, hmore⟩ := h
  obtain ⟨more', hlog', hmore'⟩ := h'
  rw [hlog, attachments_append] at hmore'
  exact ⟨more ++ more', by rw [hlog', hlog, List.append_assoc], hmore.append hmore'⟩

theorem Freshly.fresh {m m' : SessionManager} (h : Freshly m m')
    (hm : FreshFrom (fun _ ↦ none) m.log) : FreshFrom (fun _ ↦ none) m'.log := by
  obtain ⟨more, hlog, hmore⟩ := h
  rw [hlog]
  exact hm.append hmore

/-- One entry that lets no withheld pane go on. -/
theorem freshFrom_singleton {att : Attachments} {e : Wire} (h : ∀ p, ¬Resumes att e p) :
    FreshFrom att [e] :=
  ⟨fun p hp ↦ absurd hp (h p), trivial⟩

/-- An entry after which a pane has no attachment does not resume it. -/
theorem not_resumes_of_eq_none {att : Attachments} {e : Wire} {p : PaneId}
    (h : att.apply e p = none) : ¬Resumes att e p := by
  rintro ⟨_, b, _, _, hb, _⟩
  rw [h] at hb
  exact absurd hb.symm (Option.some_ne_none b)

/-- An entry that leaves a pane's attachment alone does not resume it. -/
theorem not_resumes_of_eq {att : Attachments} {e : Wire} {p : PaneId}
    (h : att.apply e p = att p) : ¬Resumes att e p := by
  rintro ⟨a, b, ha, hw, hb, hb'⟩
  rw [h, ha, Option.some_inj] at hb
  subst hb
  exact absurd (hw.symm.trans hb') (by decide)

/-! ## What the client has told the daemon -/

open SessionManager

/-- The flags of one attachment, under the pause `pr` with `ap` the last one that was pushed. -/
structure Flagged (pr ap : Bool × Bool) (exempt : Bool) (a : Attachment) : Prop where
  mark : a.noAutoPause = exempt
  rule : a.outputPaused = withheld pr.1 pr.2 exempt
  flags : (a.paused, a.pauseAuto) = ap ∨ a.paused = false

/-- With a link up, every attachment is of a pane in `U`, and has the flags it should have. -/
def Told (pr ap : Bool × Bool) (U : PaneId → Prop) (m : SessionManager) : Prop :=
  m.linked = true →
    ∀ p, ∀ a ∈ attachments m.log p, U p ∧ Flagged pr ap (m.isPaneAutoPauseExempt p) a

/-- `m'` comes from `m` by attaching and detaching panes. -/
structure Follows (pr ap : Bool × Bool) (U : PaneId → Prop) (m m' : SessionManager) : Prop where
  told : Told pr ap U m'
  fresh : Freshly m m'
  unmoved : Unmoved m m'

variable {pr ap : Bool × Bool} {U V : PaneId → Prop} {m m' : SessionManager}

theorem Told.mono (h : Told pr ap U m) (hUV : ∀ p, U p → V p) : Told pr ap V m :=
  fun hl p a ha ↦ ⟨hUV p (h hl p a ha).1, (h hl p a ha).2⟩

theorem told_of_unlinked (h : m.linked = false) : Told pr ap U m :=
  fun hl ↦ absurd (h.symm.trans hl) Bool.false_ne_true

theorem Follows.refl (h : Told pr ap U m) : Follows pr ap U m m :=
  ⟨h, Freshly.refl m, Unmoved.refl m⟩

theorem Follows.trans {m'' : SessionManager} (h : Follows pr ap U m m')
    (h' : Follows pr ap V m' m'') : Follows pr ap V m m'' :=
  ⟨h'.told, h.fresh.trans h'.fresh, h.unmoved.trans h'.unmoved⟩

/-- Without a link an operation that logs nothing tells nothing. -/
theorem follows_of_unlinked (h : m.linked = false) (hlog : m'.log = m.log) (hm : Unmoved m m') :
    Follows pr ap U m m' :=
  ⟨told_of_unlinked (hm.linked.trans h), ⟨[], by rw [hlog, List.append_nil], trivial⟩, hm⟩

/-- A fold of operations, each of which follows from any state that the others can lead to. -/
theorem follows_foldl {f : SessionManager → PaneId → SessionManager} (ps : List PaneId)
    (hf : ∀ m', Unmoved m m' → Told pr ap U m' → ∀ p ∈ ps, Follows pr ap U m' (f m' p))
    (h : Told pr ap U m) : Follows pr ap U m (ps.foldl f m) := by
  induction ps generalizing m with
  | nil => exact Follows.refl h
  | cons p ps ih =>
    have hp := hf m (Unmoved.refl m) h p List.mem_cons_self
    refine hp.trans (ih ?_ hp.told)
    intro m' hm' ht q hq
    exact hf m' (hp.unmoved.trans hm') ht q (List.mem_cons_of_mem p hq)

/-! ### Attaching and detaching -/

/-- The flags that an `Attach` leaves, with the exemption behind it. -/
theorem apply_outbound_attach (att : Attachments) (m : SessionManager) (p : PaneId)
    (seq : Option SequenceNo) :
    ((m.outbound p (.attach seq)).map Wire.sent).foldl Attachments.apply att =
      Function.update att p (some ⟨false, false, m.isPaneAutoPauseExempt p⟩) := by
  rw [outbound]
  split
  case isTrue h =>
    simp [Attachments.apply, h]
  case isFalse h =>
    simp [Attachments.apply, h]

/-- Attaching a pane that is not withheld resumes nothing. -/
private theorem freshFrom_outbound_attach {att : Attachments} {m : SessionManager} {p : PaneId}
    {seq : Option SequenceNo} (h : ∀ a ∈ att p, a.outputPaused = false) :
    FreshFrom att ((m.outbound p (.attach seq)).map Wire.sent) := by
  have hattach : ∀ q, ¬Resumes att (.sent (.attach p seq)) q := by
    intro q
    by_cases hq : q = p
    · subst hq
      rintro ⟨a, _, ha, hw, -⟩
      exact absurd (hw.symm.trans (h a ha)) (by decide)
    · exact not_resumes_of_eq (Function.update_of_ne hq _ _)
  rw [outbound]
  split
  · refine ⟨fun q hq ↦ absurd hq (hattach q), freshFrom_singleton fun q ↦ ?_⟩
    by_cases hq : q = p
    · subst hq
      rintro ⟨a, _, ha, hw, -⟩
      rw [Attachments.apply, Function.update_self, Option.some_inj] at ha
      subst ha
      exact absurd hw (by decide)
    · exact not_resumes_of_eq (Function.update_of_ne hq _ _)
  · exact freshFrom_singleton hattach

/-- An attach of a pane that the rule does not withhold. -/
theorem follows_attach {p : PaneId} {f : PaneSession → PaneSession} {seq : Option SequenceNo}
    (hf : (f (m.pane p)).sent = [.attach seq]) (hU : m.linked = true → U p)
    (hrule : m.linked = true → withheld pr.1 pr.2 (m.isPaneAutoPauseExempt p) = false)
    (h : Told pr ap U m) : Follows pr ap U m (m.onPane p f) := by
  cases hl : m.linked with
  | false => exact follows_of_unlinked hl (log_onPane_of_unlinked hl p f) (unmoved_onPane m p f)
  | true =>
    have hlog : (m.onPane p f).log = m.log ++ (m.outbound p (.attach seq)).map .sent := by
      rw [log_onPane hl, hf, List.flatMap_singleton]
    have hstreams : ∀ a ∈ attachments m.log p, a.outputPaused = false := by
      intro a ha
      rw [(h hl p a ha).2.rule, hrule hl]
    refine ⟨?_, ⟨_, hlog, freshFrom_outbound_attach hstreams⟩, unmoved_onPane m p f⟩
    intro _ q a ha
    rw [hlog, attachments_append, apply_outbound_attach] at ha
    rw [(unmoved_onPane m p f).exempt]
    by_cases hq : q = p
    · subst hq
      rw [Function.update_self, Option.mem_some_iff] at ha
      subst ha
      exact ⟨hU hl, rfl, (hrule hl).symm, .inr rfl⟩
    · rw [Function.update_of_ne hq] at ha
      exact h hl q a ha

theorem sent_attachFresh (m : SessionManager) (p : PaneId) :
    ((m.pane p).attachFresh).sent = [.attach none] := rfl

theorem sent_resync (m : SessionManager) (p : PaneId) :
    ((m.pane p).resync).sent = [.attach none] := rfl

/-- An entry that takes an attachment away. -/
private theorem follows_drop {p : PaneId} {e : Wire}
    (he : ∀ att, Attachments.apply att e = Function.update att p none)
    (hlog : m'.log = m.log ++ [e]) (hm : Unmoved m m') (h : Told pr ap U m) :
    Follows pr ap (fun q ↦ U q ∧ q ≠ p) m m' := by
  refine ⟨?_, ⟨[e], hlog, freshFrom_singleton fun q ↦ ?_⟩, hm⟩
  · intro hl q a ha
    rw [hlog, attachments_append, List.foldl_cons, List.foldl_nil, he] at ha
    rw [hm.exempt]
    by_cases hq : q = p
    · subst hq
      rw [Function.update_self] at ha
      exact absurd ha (Option.not_mem_none a)
    · rw [Function.update_of_ne hq] at ha
      have hkept := h (hm.linked.symm.trans hl) q a ha
      exact ⟨⟨hkept.1, hq⟩, hkept.2⟩
  · by_cases hq : q = p
    · subst hq
      exact not_resumes_of_eq_none (by rw [he, Function.update_self])
    · exact not_resumes_of_eq (by rw [he, Function.update_of_ne hq])

theorem follows_forgetPane (p : PaneId) (h : Told pr ap U m) :
    Follows pr ap (fun q ↦ U q ∧ q ≠ p) m (m.forgetPane p) :=
  follows_drop (fun _ ↦ rfl) rfl ⟨rfl, rfl, rfl, rfl⟩ h

theorem follows_detachPane (p : PaneId) (h : Told pr ap U m) :
    Follows pr ap (fun q ↦ U q ∧ q ≠ p) m (m.detachPane p) := by
  cases hl : m.linked with
  | false =>
    have hlog : (m.send [.detach p]).log = m.log := congrArg log (send_of_unlinked hl _)
    exact follows_of_unlinked hl hlog (unmoved_detachPane m p)
  | true => exact follows_drop (fun _ ↦ rfl) (log_send hl _) (unmoved_detachPane m p) h

theorem follows_detachPanes (ps : List PaneId) (h : Told pr ap U m) :
    Follows pr ap (fun q ↦ U q ∧ q ∉ ps) m (ps.foldl detachPane m) := by
  induction ps generalizing m U with
  | nil => exact Follows.refl (h.mono fun q hq ↦ ⟨hq, List.not_mem_nil⟩)
  | cons p ps ih =>
    have hp := follows_detachPane p h
    have hps := hp.trans (ih hp.told)
    refine ⟨hps.told.mono ?_, hps.fresh, hps.unmoved⟩
    rintro q ⟨⟨hq, hne⟩, hps⟩
    exact ⟨hq, List.not_mem_cons_of_ne_of_not_mem hne hps⟩

/-! ### The operations that attach -/

/-- The view moves to panes that the rule does not withhold. -/
theorem told_setVisibleSet (panes : List PaneId)
    (hrule : m.linked = true → ∀ p ∈ panes, p ∉ m.visiblePanes →
      withheld pr.1 pr.2 (m.isPaneAutoPauseExempt p) = false)
    (h : Told pr ap (· ∈ m.visiblePanes) m) :
    Told pr ap (· ∈ panes) (m.setVisibleSet panes) ∧ Freshly m (m.setVisibleSet panes) ∧
      (m.setVisibleSet panes).pauseApplied = m.pauseApplied := by
  have hdetached := follows_detachPanes (m.visiblePanes.filter fun p ↦ p ∉ panes) h
  have hleft := hdetached.told.mono (V := (· ∈ panes)) <| by
    rintro q ⟨hq, hstay⟩
    by_contra hnew
    exact hstay (List.mem_filter.mpr ⟨hq, decide_eq_true hnew⟩)
  have hattached := follows_foldl (f := resync) (panes.filter fun p ↦ p ∉ m.visiblePanes) (by
    intro m' hm' ht p hp
    obtain ⟨hp, hnew⟩ := List.mem_filter.mp hp
    refine follows_attach (sent_resync m' p) (fun _ ↦ hp) (fun hl ↦ ?_) ht
    rw [hm'.exempt, hdetached.unmoved.exempt]
    rw [hm'.linked, hdetached.unmoved.linked] at hl
    exact hrule hl p hp (of_decide_eq_true hnew)) hleft
  exact ⟨hattached.told, hdetached.fresh.trans hattached.fresh,
    hattached.unmoved.applied.trans hdetached.unmoved.applied⟩

theorem follows_resumePane {p : PaneId} {sameDaemon : Bool} (hU : U p)
    (hrule : m.linked = true → withheld pr.1 pr.2 (m.isPaneAutoPauseExempt p) = false)
    (h : Told pr ap U m) : Follows pr ap U m (m.resumePane sameDaemon p) := by
  rw [resumePane.eq_def]
  split
  · exact follows_attach rfl (fun _ ↦ hU) hrule h
  · exact follows_attach (sent_attachFresh m p) (fun _ ↦ hU) hrule h

/-- A new link starts without attachments, and gets those of the visible panes. -/
theorem told_applyOutcome (daemon : Option ℕ)
    (hrule : ∀ p ∈ m.visiblePanes, withheld pr.1 pr.2 (m.isPaneAutoPauseExempt p) = false) :
    Told pr ap (· ∈ m.visiblePanes) (m.applyOutcome daemon) ∧
      Freshly m (m.applyOutcome daemon) ∧
      Unmoved { m with linked := true } (m.applyOutcome daemon) := by
  let up := { m with linked := true, log := m.log ++ [Wire.linked] }.requestSessionList
  let known := { up with previousDaemonInstance := up.daemonInstance, daemonInstance := daemon }
  have hlog : known.log = m.log ++ [Wire.linked, .sent (.sessionList m.nextRequestId)] := by
    refine (log_send rfl _).trans ?_
    exact List.append_assoc m.log [.linked] _
  have hsent := unmoved_send
    { m with linked := true, log := m.log ++ [Wire.linked], nextRequestId := m.nextRequestId + 1 }
    [.sessionList m.nextRequestId]
  have hup : Unmoved { m with linked := true } known :=
    ⟨hsent.linked, hsent.visible, hsent.exempt, hsent.applied⟩
  have hfresh : Freshly m known :=
    ⟨_, hlog, fun _ hp ↦ absurd hp (not_resumes_of_eq_none rfl),
      freshFrom_singleton fun _ ↦ not_resumes_of_eq_none rfl⟩
  have hnone : Told pr ap (· ∈ m.visiblePanes) known := by
    intro _ p a ha
    rw [hlog, attachments_append] at ha
    exact absurd ha (Option.not_mem_none a)
  have hresumed := follows_foldl (f := resumePane known.linkReachedSameDaemon) m.visiblePanes (by
    intro m' hm' ht p hp
    refine follows_resumePane hp (fun _ ↦ ?_) ht
    rw [hm'.exempt, hup.exempt]
    exact hrule p hp) hnone
  have hvisible : known.visiblePanes = m.visiblePanes := hup.visible
  have heq : m.applyOutcome daemon =
      m.visiblePanes.foldl (resumePane known.linkReachedSameDaemon) known := by
    rw [← hvisible]
    rfl
  rw [heq]
  exact ⟨hresumed.told, hfresh.trans hresumed.fresh, hup.trans hresumed.unmoved⟩

/-! ### The pause is pushed -/

theorem unmoved_resumeStreaming (was pause : Bool × Bool) (m : SessionManager) (p : PaneId) :
    Unmoved m (m.resumeStreaming was pause p) := by
  rw [resumeStreaming]
  split
  · exact unmoved_onPane m p _
  · exact Unmoved.refl m

/-- Every pane that goes on is attached afresh. -/
private theorem log_resumeStreaming (was pause : Bool × Bool) (hl : m.linked = true)
    (ps : List PaneId) :
    ∃ more, (ps.foldl (resumeStreaming was pause) m).log = m.log ++ more ∧
      ∀ p ∈ ps, withheld was.1 was.2 (m.isPaneAutoPauseExempt p) = true →
        withheld pause.1 pause.2 (m.isPaneAutoPauseExempt p) = false →
          .sent (.attach p none) ∈ more := by
  induction ps generalizing m with
  | nil => exact ⟨[], (List.append_nil _).symm, fun p hp ↦ absurd hp List.not_mem_nil⟩
  | cons q ps ih =>
    have hm := unmoved_resumeStreaming was pause m q
    obtain ⟨more, hlog, hmore⟩ := ih (hm.linked.trans hl)
    rw [hm.exempt] at hmore
    rw [List.foldl_cons, hlog]
    cases hgo : withheld was.1 was.2 (m.isPaneAutoPauseExempt q) &&
        !withheld pause.1 pause.2 (m.isPaneAutoPauseExempt q) with
    | true =>
      have hattach : m.resumeStreaming was pause q = m.attachFresh q := if_pos hgo
      have hsent : .sent (.attach q none) ∈ (m.outbound q (.attach none)).map Wire.sent := by
        rw [outbound]
        split <;> exact List.mem_cons_self
      refine ⟨(m.outbound q (.attach none)).map Wire.sent ++ more, ?_, ?_⟩
      · rw [hattach, attachFresh, log_onPane hl, sent_attachFresh, List.flatMap_singleton,
          List.append_assoc]
      · intro p hp hw hn
        rcases List.mem_cons.mp hp with rfl | hp
        · exact List.mem_append_left more hsent
        · exact List.mem_append_right _ (hmore p hp hw hn)
    | false =>
      have hstay : m.resumeStreaming was pause q = m :=
        if_neg (ne_true_of_eq_false hgo)
      refine ⟨more, by rw [hstay], ?_⟩
      intro p hp hw hn
      rcases List.mem_cons.mp hp with rfl | hp
      · rw [hw, hn] at hgo
        exact absurd hgo (by decide)
      · exact hmore p hp hw hn

theorem follows_resumeStreaming {pause : Bool × Bool} (was : Bool × Bool) (ps : List PaneId)
    (hps : ∀ p ∈ ps, U p) (h : Told pause ap U m) :
    Follows pause ap U m (ps.foldl (resumeStreaming was pause) m) := by
  refine follows_foldl ps ?_ h
  intro m' _ ht p hp
  rw [resumeStreaming]
  split
  case isTrue hgo =>
    rw [Bool.and_eq_true, Bool.not_eq_true'] at hgo
    exact follows_attach (sent_attachFresh m' p) (fun _ ↦ hps p hp) (fun _ ↦ hgo.2) ht
  case isFalse => exact Follows.refl ht

/-- What the attachments are like before a pause is pushed: as the client believes, except that the
rule may have changed. -/
def Pushable (pause : Bool × Bool) (m : SessionManager) : Prop :=
  m.linked = true → ∀ p, ∀ a ∈ attachments m.log p, p ∈ m.visiblePanes ∧
    a.noAutoPause = m.isPaneAutoPauseExempt p ∧
    ((a.paused, a.pauseAuto) = m.pauseApplied ∨ a.paused = false) ∧
    (m.pauseApplied = pause →
      a.outputPaused = withheld pause.1 pause.2 (m.isPaneAutoPauseExempt p))

/-- Pushing the pause brings all the attachments to it. -/
private theorem told_setPaused {paused auto : Bool} (hl : m.linked = true)
    (h : Pushable (paused, auto) m) :
    Told (paused, auto) (paused, auto) (· ∈ m.visiblePanes) (m.send [.setPaused paused auto]) := by
  intro _ p a ha
  rw [log_send hl, attachments_append] at ha
  obtain ⟨b, hb, rfl⟩ := Option.map_eq_some_iff.mp ha
  obtain ⟨hvisible, hmark, -, -⟩ := h hl p b hb
  rw [(unmoved_send m _).exempt]
  exact ⟨hvisible, hmark, by rw [Attachment.outputPaused, hmark, withheld], .inl rfl⟩

/-- A pane that goes on is followed by its `Attach`, and the others stay as they were. -/
theorem told_reconcilePause {paused auto : Bool} (h : Pushable (paused, auto) m) :
    Told (paused, auto) (paused, auto) (· ∈ m.visiblePanes) (m.reconcilePause paused auto) ∧
      Freshly m (m.reconcilePause paused auto) ∧
      (m.reconcilePause paused auto).visiblePanes = m.visiblePanes := by
  by_cases hsend : (paused, auto) ≠ m.pauseApplied ∧ m.linked = true
  -- the pause is pushed, and the panes that it lets go are attached afresh
  · obtain ⟨hnew, hl⟩ := hsend
    have hrec : m.reconcilePause paused auto =
        { m.visiblePanes.foldl (resumeStreaming m.pauseApplied (paused, auto))
            (m.send [.setPaused paused auto]) with pauseApplied := (paused, auto) } := by
      rw [reconcilePause, if_pos hnew]
    have hsent := unmoved_send m [.setPaused paused auto]
    have hs := follows_resumeStreaming m.pauseApplied m.visiblePanes (fun _ hp ↦ hp)
      (told_setPaused hl h)
    obtain ⟨more, hlog, hfresh⟩ := hs.fresh
    obtain ⟨more', hlog', hattach⟩ := log_resumeStreaming m.pauseApplied (paused, auto)
      (hsent.linked.trans hl) m.visiblePanes
    obtain rfl : more' = more := List.append_cancel_left (hlog'.symm.trans hlog)
    rw [log_send hl] at hlog hfresh
    rw [hsent.exempt] at hattach
    rw [hrec]
    refine ⟨hs.told, ⟨.sent (.setPaused paused auto) :: more', ?_, ?_, ?_⟩,
      hs.unmoved.visible.trans hsent.visible⟩
    · exact hlog.trans (List.append_assoc _ _ _)
    -- a pane that goes on was withheld under the pause applied before
    · rintro p ⟨a, b, ha, hw, hb, hgo⟩
      obtain ⟨hvisible, hmark, hflags, -⟩ := h hl p a ha
      obtain ⟨c, hc, rfl⟩ := Option.map_eq_some_iff.mp hb
      obtain rfl : c = a := Option.some_inj.mp (hc.symm.trans ha)
      rw [Attachment.outputPaused, hmark] at hw hgo
      have hpaused : c.paused = true := (Bool.and_eq_true _ _ ▸ hw).1
      have hwas : (c.paused, c.pauseAuto) = m.pauseApplied :=
        hflags.resolve_right (by rw [hpaused]; exact Bool.true_eq_false_eq_False)
      refine List.mem_cons_of_mem _ (hattach p hvisible ?_ hgo)
      rw [← hwas]
      exact hw
    · rw [attachments_append] at hfresh
      exact hfresh
  -- nothing is pushed: no link, or the daemon knows the pause already
  · have hfollows : Follows (paused, auto) (paused, auto) (· ∈ m.visiblePanes) m
        (m.visiblePanes.foldl (resumeStreaming m.pauseApplied (paused, auto)) m) := by
      refine follows_resumeStreaming m.pauseApplied m.visiblePanes (fun _ hp ↦ hp) ?_
      intro hl p a ha
      have hsame : m.pauseApplied = (paused, auto) := by
        by_contra hnew
        exact hsend ⟨Ne.symm hnew, hl⟩
      obtain ⟨hvisible, hmark, hflags, hrule⟩ := h hl p a ha
      exact ⟨hvisible, hmark, hrule hsame, hsame ▸ hflags⟩
    have hrec : m.reconcilePause paused auto =
        { m.visiblePanes.foldl (resumeStreaming m.pauseApplied (paused, auto)) m with
            pauseApplied := (paused, auto) } := by
      rw [reconcilePause]
      by_cases hnew : (paused, auto) ≠ m.pauseApplied
      · have hl : m.linked = false := by
          rw [← Bool.not_eq_true]
          exact fun hl ↦ hsend ⟨hnew, hl⟩
        rw [if_pos hnew, send_of_unlinked hl]
      · rw [if_neg hnew]
    rw [hrec]
    exact ⟨hfollows.told, hfollows.fresh, hfollows.unmoved.visible⟩

/-! ### Marks -/

/-- Asserting one exemption on several panes. -/
private theorem foldl_setPaneNoAutoPause (exempt : Bool) (ps : List PaneId) (att : Attachments)
    (p : PaneId) :
    ((ps.map fun q ↦ Wire.sent (.setPaneNoAutoPause q exempt)).foldl Attachments.apply att) p =
      if p ∈ ps then (att p).map fun a ↦ { a with noAutoPause := exempt } else att p := by
  induction ps generalizing att with
  | nil => rfl
  | cons q ps ih =>
    rw [List.map_cons, List.foldl_cons, ih, Attachments.apply]
    by_cases hq : p = q
    · subst hq
      rw [Function.update_self, Option.map_map, if_pos List.mem_cons_self]
      exact ite_id _
    · rw [Function.update_of_ne hq]
      exact if_congr (by rw [List.mem_cons, or_iff_right hq]) rfl rfl

/-- It resumes nothing when it resumes none of them. -/
private theorem freshFrom_setPaneNoAutoPause (exempt : Bool) (ps : List PaneId) (att : Attachments)
    (h : ∀ p ∈ ps, ∀ a ∈ att p, a.outputPaused = true →
      ({ a with noAutoPause := exempt } : Attachment).outputPaused = true) :
    FreshFrom att (ps.map fun q ↦ Wire.sent (.setPaneNoAutoPause q exempt)) := by
  induction ps generalizing att with
  | nil => trivial
  | cons q ps ih =>
    refine ⟨fun p hp ↦ ?_, ih _ fun p hp a ha hw ↦ ?_⟩
    · by_cases hq : p = q
      · subst hq
        obtain ⟨a, b, ha, hw, hb, hgo⟩ := hp
        rw [Attachments.apply, Function.update_self, ha, Option.map_some, Option.some_inj] at hb
        subst hb
        exact absurd (hgo.symm.trans (h p List.mem_cons_self a ha hw)) (by decide)
      · exact absurd hp (not_resumes_of_eq (Function.update_of_ne hq _ _))
    · rw [Attachments.apply] at ha
      by_cases hq : p = q
      · subst hq
        rw [Function.update_self] at ha
        obtain ⟨b, _, rfl⟩ := Option.map_eq_some_iff.mp ha
        exact hw
      · rw [Function.update_of_ne hq] at ha
        exact h p (List.mem_cons_of_mem q hp) a ha hw

namespace AppCore

variable {s : AppCore}

theorem isPanePaused_eq (s : AppCore) (p : PaneId) :
    s.isPanePaused p = withheld s.pause.1 s.pause.2 (s.mgr.isPaneAutoPauseExempt p) := by
  rw [isPanePaused, withheld, pause, isPaused, pauseIsAuto]
  cases s.manualPause <;> cases s.autoPause <;> rfl

/-- The last pause that was pushed is the one in effect, unless the link was lost since. -/
structure Inv (s : AppCore) : Prop where
  applied : s.mgr.pauseApplied = s.pause ∨ s.mgr.pauseApplied = (false, false)
  told : Told s.pause s.mgr.pauseApplied (· ∈ s.mgr.visiblePanes) s.mgr
  fresh : FreshFrom (fun _ ↦ none) s.mgr.log

/-- Only an auto-pause looks at the exemption. -/
private theorem withheld_of_ne {pause : Bool × Bool} (h : pause ≠ (true, true)) (exempt : Bool) :
    withheld pause.1 pause.2 exempt = pause.1 := by
  obtain ⟨paused, auto⟩ := pause
  cases paused with
  | false => rfl
  | true =>
    have hauto : auto = false := eq_false_of_ne_true fun hauto ↦ h (congrArg _ hauto)
    subst hauto
    rfl

/-- Taking the only mark: the daemon withholds the pane under every pause. -/
private theorem Flips.keeps_taken {a : Attachment} {other : Bool} (h : s.Flips true other a)
    (ha : Flagged s.pause s.mgr.pauseApplied (true || other) a)
    (happlied : s.mgr.pauseApplied = s.pause) :
    a.paused = s.pause.1 := by
  obtain ⟨-, htaken⟩ := h
  obtain ⟨-, hrule, hflags⟩ := ha
  rw [happlied] at hflags htaken
  cases hp : s.pause.1 with
  | false =>
    rcases hflags with hflags | hpaused
    · exact (congrArg Prod.fst hflags).trans hp
    · exact hpaused
  | true =>
    cases hauto : s.pause.2 with
    | true => exact (htaken (Prod.ext hp hauto)).resolve_left (fun hne ↦ hne rfl)
    | false =>
      rw [hp, hauto] at hrule
      exact (Bool.and_eq_true _ _ ▸ hrule).1

/-- A mark that can be flipped: the assertion is the exemption, it resumes nothing, and the flags
are those of the rule when the pause was pushed. -/
theorem Flips.keeps {mark other : Bool} {a : Attachment} (h : s.Flips mark other a)
    (happlied : s.mgr.pauseApplied = s.pause ∨ s.mgr.pauseApplied = (false, false))
    (ha : Flagged s.pause s.mgr.pauseApplied (mark || other) a) :
    (!mark) = (!mark || other) ∧
      (a.outputPaused = true →
        ({ a with noAutoPause := !mark } : Attachment).outputPaused = true) ∧
      (s.mgr.pauseApplied = s.pause →
        ({ a with noAutoPause := !mark } : Attachment).outputPaused =
          withheld s.pause.1 s.pause.2 (!mark)) := by
  cases mark with
  | true =>
    have hother : other = false := h.1
    subst hother
    have hout : ({ a with noAutoPause := !true } : Attachment).outputPaused = a.paused := by
      rw [Attachment.outputPaused, Bool.not_true, Bool.and_false, Bool.not_false, Bool.and_true]
    rw [hout]
    refine ⟨rfl, fun hw ↦ (Bool.and_eq_true _ _ ▸ hw).1, fun hap ↦ ?_⟩
    rw [h.keeps_taken ha hap, withheld, Bool.not_true, Bool.and_false, Bool.not_false,
      Bool.and_true]
  | false =>
    obtain ⟨hmark, hrule, hflags⟩ := ha
    refine ⟨rfl, ?_⟩
    by_cases hpause : s.pause = (true, true)
    · -- The pane is exempt already, so the assertion changes nothing.
      have hother : other = true := h hpause
      subst hother
      have hsame : ({ a with noAutoPause := !false } : Attachment) = a := by
        obtain ⟨paused, pauseAuto, noAutoPause⟩ := a
        obtain rfl : noAutoPause = true := hmark
        rfl
      rw [hsame]
      exact ⟨fun hw ↦ hw, fun _ ↦ hrule⟩
    · have hwithheld := withheld_of_ne hpause
      rw [hwithheld] at hrule
      refine ⟨fun hw ↦ ?_, fun hap ↦ ?_⟩
      · have hpaused : a.paused = true := (Bool.and_eq_true _ _ ▸ hw).1
        have hfirst : s.pause.1 = true := hrule.symm.trans hw
        have hsecond : s.pause.2 = false :=
          eq_false_of_ne_true fun h2 ↦ hpause (Prod.ext hfirst h2)
        have hauto : a.pauseAuto = false := by
          have hflags := hflags.resolve_right (by rw [hpaused]; exact Bool.true_eq_false_eq_False)
          rcases happlied with hap | hap
          · exact (congrArg Prod.snd (hflags.trans hap)).trans hsecond
          · exact congrArg Prod.snd (hflags.trans hap)
        rw [Attachment.outputPaused, hpaused, hauto]
        rfl
      · rw [hwithheld]
        rcases hflags with hflags | hpaused
        · rw [Attachment.outputPaused, ← hwithheld true, ← hap, ← hflags]
          rfl
        · rw [← hrule, Attachment.outputPaused, Attachment.outputPaused, hpaused]
          rfl

/-! ### What a step keeps -/

theorem Inv.pushable (h : Inv s) (pause : Bool × Bool) : Pushable pause s.mgr := by
  intro hl p a ha
  obtain ⟨hvisible, hmark, hrule, hflags⟩ := h.told hl p a ha
  refine ⟨hvisible, hmark, hflags, ?_⟩
  rintro rfl
  rcases h.applied with hap | hap
  · rw [hap]
    exact hrule
  · have hpaused : a.paused = false := by
      rcases hflags with hflags | hpaused
      · exact congrArg Prod.fst (hflags.trans hap)
      · exact hpaused
    rw [hap, Attachment.outputPaused, hpaused]
    rfl

theorem Inv.of_told {m' : SessionManager} (h : Inv s)
    (happlied : m'.pauseApplied = s.mgr.pauseApplied)
    (htold : Told s.pause s.mgr.pauseApplied (· ∈ m'.visiblePanes) m') (hfresh : Freshly s.mgr m') :
    Inv { s with mgr := m' } where
  applied := happlied ▸ h.applied
  told := happlied ▸ htold
  fresh := hfresh.fresh h.fresh

theorem inv_reconcilePause (h : Pushable s.pause s.mgr)
    (hfresh : FreshFrom (fun _ ↦ none) s.mgr.log) : Inv s.reconcilePause := by
  obtain ⟨htold, hfreshly, hvisible⟩ := told_reconcilePause h
  refine ⟨.inl rfl, ?_, hfreshly.fresh hfresh⟩
  exact htold.mono fun p hp ↦ hvisible ▸ hp

/-- Flipping a mark that can be flipped on every visible pane it is about. -/
theorem pushable_flip (marked : SessionManager) (mark : Bool) (ps : List PaneId) (h : Inv s)
    (hlinked : marked.linked = s.mgr.linked) (hvisible : marked.visiblePanes = s.mgr.visiblePanes)
    (happlied : marked.pauseApplied = s.mgr.pauseApplied) (hlog : marked.log = s.mgr.log)
    (hps : s.mgr.linked = true → ∀ p ∈ ps, ∀ a ∈ attachments s.mgr.log p, ∃ other,
      s.Flips mark other a ∧ s.mgr.isPaneAutoPauseExempt p = (mark || other) ∧
        marked.isPaneAutoPauseExempt p = (!mark || other))
    (hrest : ∀ p ∈ s.mgr.visiblePanes, p ∉ ps →
      marked.isPaneAutoPauseExempt p = s.mgr.isPaneAutoPauseExempt p) :
    Pushable s.pause (marked.send (ps.map (.setPaneNoAutoPause · (!mark)))) ∧
      FreshFrom (fun _ ↦ none) (marked.send (ps.map (.setPaneNoAutoPause · (!mark)))).log := by
  have hsent := unmoved_send marked (ps.map (.setPaneNoAutoPause · (!mark)))
  cases hl : s.mgr.linked with
  | false =>
    refine ⟨fun hl' ↦ ?_, ?_⟩
    · rw [hsent.linked, hlinked, hl] at hl'
      exact absurd hl' Bool.false_ne_true
    · rw [send_of_unlinked (hlinked.trans hl), hlog]
      exact h.fresh
  | true =>
    -- on each pane of the list the assertion is the exemption that the client reads
    have hkeeps : ∀ p ∈ ps, ∀ a ∈ attachments s.mgr.log p, ∃ other,
        marked.isPaneAutoPauseExempt p = (!mark || other) ∧ s.Flips mark other a ∧
          Flagged s.pause s.mgr.pauseApplied (mark || other) a := by
      intro p hp a ha
      obtain ⟨other, hflips, hold, hnew⟩ := hps hl p hp a ha
      exact ⟨other, hnew, hflips, hold ▸ (h.told hl p a ha).2⟩
    have hmore : (marked.send (ps.map (.setPaneNoAutoPause · (!mark)))).log =
        s.mgr.log ++ ps.map fun p ↦ Wire.sent (.setPaneNoAutoPause p (!mark)) := by
      rw [log_send (hlinked.trans hl), hlog, List.map_map]
      rfl
    rw [hmore]
    refine ⟨?_, h.fresh.append (freshFrom_setPaneNoAutoPause (!mark) ps _ ?_)⟩
    · intro _ p a ha
      rw [hmore, attachments_append, foldl_setPaneNoAutoPause] at ha
      rw [hsent.visible, hsent.exempt, hsent.applied, hvisible, happlied]
      split at ha
      case isTrue hp =>
        obtain ⟨b, hb, rfl⟩ := Option.map_eq_some_iff.mp ha
        obtain ⟨other, hnew, hflips, hb'⟩ := hkeeps p hp b hb
        obtain ⟨hmark, -, hrule⟩ := hflips.keeps h.applied hb'
        rw [hnew, ← hmark]
        exact ⟨(h.told hl p b hb).1, rfl, hb'.flags, hrule⟩
      -- the mark is not about this pane
      case isFalse hp =>
        have hvis := (h.told hl p a ha).1
        rw [hrest p hvis hp]
        exact h.pushable s.pause hl p a ha
    · intro p hp a ha
      obtain ⟨other, -, hflips, ha'⟩ := hkeeps p hp a ha
      exact (hflips.keeps h.applied ha').2.1

private theorem exempt_updatePane (m : SessionManager) (p q : PaneId) (b : Bool) :
    { m with
      autoPauseExemptPanes := Function.update m.autoPauseExemptPanes p b }.isPaneAutoPauseExempt q =
      ((if q = p then b else m.autoPauseExemptPanes q) || m.autoPauseExemptSessions q.1) := by
  rw [← Function.update_apply m.autoPauseExemptPanes p b q]
  rfl

private theorem exempt_updateSession (m : SessionManager) (w : WordId) (q : PaneId) (b : Bool) :
    { m with
      autoPauseExemptSessions :=
        Function.update m.autoPauseExemptSessions w b }.isPaneAutoPauseExempt q =
      (m.autoPauseExemptPanes q || (if q.1 = w then b else m.autoPauseExemptSessions q.1)) := by
  rw [← Function.update_apply m.autoPauseExemptSessions w b q.1]
  rfl

theorem inv_togglePane {p : PaneId} (h : Inv s) (hok : s.Agreeable (.togglePane p)) :
    Inv (s.togglePaneNoAutoPause p) := by
  have hflip := pushable_flip
    { s.mgr with
      autoPauseExemptPanes :=
        Function.update s.mgr.autoPauseExemptPanes p (!s.mgr.autoPauseExemptPanes p) }
    (s.mgr.autoPauseExemptPanes p) (if p ∈ s.mgr.visiblePanes then [p] else []) h rfl rfl rfl rfl
    (by
      intro hl q hq a ha
      obtain rfl : q = p := by
        split at hq
        · exact List.mem_singleton.mp hq
        · exact absurd hq List.not_mem_nil
      refine ⟨s.mgr.autoPauseExemptSessions q.1, hok hl a ha, rfl, ?_⟩
      rw [exempt_updatePane, if_pos rfl])
    (by
      intro q hq hnot
      have hne : q ≠ p := by
        rintro rfl
        rw [if_pos hq] at hnot
        exact hnot List.mem_cons_self
      rw [exempt_updatePane, if_neg hne, isPaneAutoPauseExempt])
  -- the source sends to the pane only if it is visible
  have hsend : s.mgr.togglePaneAutoPauseExempt p = SessionManager.send
      { s.mgr with
        autoPauseExemptPanes :=
          Function.update s.mgr.autoPauseExemptPanes p (!s.mgr.autoPauseExemptPanes p) }
      ((if p ∈ s.mgr.visiblePanes then [p] else []).map
        (.setPaneNoAutoPause · (!s.mgr.autoPauseExemptPanes p))) := by
    rw [togglePaneAutoPauseExempt]
    split
    · rfl
    · rw [List.map_nil, send, List.map_nil, List.append_nil, ite_self]
  rw [← hsend] at hflip
  exact inv_reconcilePause hflip.1 hflip.2

theorem inv_toggleSession {word : WordId} (h : Inv s) (hok : s.Agreeable (.toggleSession word)) :
    Inv (s.toggleSessionNoAutoPause word) := by
  have hflip := pushable_flip
    { s.mgr with
      autoPauseExemptSessions :=
        Function.update s.mgr.autoPauseExemptSessions word (!s.mgr.autoPauseExemptSessions word) }
    (s.mgr.autoPauseExemptSessions word)
    (s.mgr.visiblePanes.filter fun p ↦ decide (p.1 = word)) h rfl rfl rfl rfl
    (by
      intro hl q hq a ha
      obtain ⟨hvisible, hword⟩ := List.mem_filter.mp hq
      have hword : q.1 = word := of_decide_eq_true hword
      subst hword
      refine ⟨s.mgr.autoPauseExemptPanes q, hok hl q hvisible rfl a ha, Bool.or_comm _ _, ?_⟩
      rw [exempt_updateSession, if_pos rfl, Bool.or_comm])
    (by
      intro q hq hnot
      have hne : q.1 ≠ word := fun hword ↦ hnot (List.mem_filter.mpr ⟨hq, decide_eq_true hword⟩)
      rw [exempt_updateSession, if_neg hne, isPaneAutoPauseExempt])
  exact inv_reconcilePause hflip.1 hflip.2

theorem inv_step (s : AppCore) (e : Step) (h : Inv s) (hok : s.Agreeable e) : Inv (s.step e) := by
  cases e with
  | toggleManualPause => exact inv_reconcilePause (h.pushable _) h.fresh
  | setAutoPause on =>
    rw [step, setAutoPause]
    split
    · exact h
    · split
      · exact h
      · exact inv_reconcilePause (h.pushable _) h.fresh
  | togglePane p => exact inv_togglePane h hok
  | toggleSession word => exact inv_toggleSession h hok
  | view panes =>
    have hrule : s.mgr.linked = true → ∀ p ∈ panes, p ∉ s.mgr.visiblePanes →
        withheld s.pause.1 s.pause.2 (s.mgr.isPaneAutoPauseExempt p) = false := by
      intro hl p hp hnew
      rw [← isPanePaused_eq]
      exact hok hl p hp hnew
    obtain ⟨htold, hfresh, happlied⟩ := told_setVisibleSet panes hrule h.told
    exact h.of_told happlied htold hfresh
  | resync p =>
    have hfollows := follows_attach (sent_resync s.mgr p) (fun hl ↦ (hok hl).1)
      (fun hl ↦ (isPanePaused_eq s p).symm.trans (hok hl).2) h.told
    exact h.of_told hfollows.unmoved.applied
      (hfollows.told.mono fun q hq ↦ hfollows.unmoved.visible ▸ hq) hfollows.fresh
  | gone p =>
    have hfollows := follows_forgetPane p h.told
    refine h.of_told rfl (hfollows.told.mono ?_) hfollows.fresh
    rintro q ⟨hq, hne⟩
    exact List.mem_filter.mpr ⟨hq, decide_eq_true hne⟩
  | linkLost => exact ⟨.inr rfl, told_of_unlinked rfl, h.fresh⟩
  | dropLink => exact ⟨h.applied, told_of_unlinked rfl, h.fresh⟩
  | linkUp daemon =>
    have hrule : ∀ p ∈ s.mgr.visiblePanes,
        withheld s.pause.1 s.pause.2 (s.mgr.isPaneAutoPauseExempt p) = false :=
      fun p hp ↦ (isPanePaused_eq s p).symm.trans (hok p hp)
    obtain ⟨htold, hfresh, hm⟩ := told_applyOutcome daemon hrule
    exact h.of_told hm.applied (htold.mono fun q hq ↦ hm.visible.symm ▸ hq) hfresh
  | disconnect => exact ⟨.inr rfl, told_of_unlinked rfl, h.fresh⟩

theorem inv_new (isLocal : Bool) : Inv (new isLocal) :=
  ⟨.inl rfl, told_of_unlinked rfl, trivial⟩

/-- **Pause agreement.** In a run whose steps all meet the condition, once the daemon has handled
every message it withholds what the client's rule withholds, and every pane that it goes on with
gets a fresh `Attach`. -/
theorem pause_agreement (isLocal : Bool) (es : List Step)
    (hok : Run.Ok step Agreeable (new isLocal) es) :
    Agrees (Run.exec step (new isLocal) es) ∧
      Refreshed (Run.exec step (new isLocal) es).mgr.log := by
  have hinv := Run.invariant_of_ok inv_step es (new isLocal) (inv_new isLocal) hok
  refine ⟨fun hl p a ha ↦ ?_, refreshed_of_freshFrom hinv.fresh⟩
  rw [isPanePaused_eq]
  exact (hinv.told hl p a ha).2.rule

/-- A pane is exempt through an auto-pause and a manual pause, is attached again on the second link,
and goes on after a full pause. -/
def agreeableRun : List Step :=
  [.linkUp (some 1), .view [("a", 0), ("a", 1)], .togglePane ("a", 0), .setAutoPause true,
    .toggleManualPause, .toggleManualPause, .setAutoPause false, .linkLost, .linkUp (some 1),
    .toggleSession "a", .setAutoPause true, .gone ("a", 1), .resync ("a", 0)]

theorem pause_agreement_agreeableRun :
    Agrees (Run.exec step (new false) agreeableRun) ∧
      Refreshed (Run.exec step (new false) agreeableRun).mgr.log :=
  pause_agreement false agreeableRun (by decide)

/-- A pane has both marks, and the session's is taken: the daemon is told that the pane is not
exempt, and withholds it under the next auto-pause. -/
theorem not_pause_agreement : ¬∀ isLocal es,
    Agrees (Run.exec step (new isLocal) es) ∧
      Refreshed (Run.exec step (new isLocal) es).mgr.log := by
  intro h
  have hfalse := (h false [.linkUp none, .view [("a", 0)], .togglePane ("a", 0),
    .toggleSession "a", .toggleSession "a", .setAutoPause true]).1 rfl ("a", 0)
    ⟨true, true, false⟩ (by decide)
  exact absurd hfalse (by decide)

end AppCore

end Client

end Kmux
