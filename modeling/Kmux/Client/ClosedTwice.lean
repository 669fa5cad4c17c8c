import Kmux.Client.GoneTab
import Kmux.Lib.Run

/-!
# A close that is reported twice

The daemon reports the close of a pane, a tab or a session as a reply and as a broadcast, with other
messages before, between and after the two. The second report changes nothing and no event is
emitted for it, as long as nothing in between brings the thing back. Of a pane, a late frame does:
the handlers of the data stream make sync state and a grid for any pane. A list, a reply or a layout
that was made before the close does, when it arrives after it; and so does moving the view to a tab
whose cached layout still contains the pane.

`Quiet` is the condition on a message, `Absent` what the client keeps of the thing until it is
brought back, and `closed_twice` the law about the two reports.
-/

namespace Kmux

namespace Client

/-- What was closed. -/
inductive Closed
  | pane (pane : PaneId)
  | tab (word : WordId) (tabIndex : ℕ)
  | session (word : WordId)

namespace Closed

/-- Either of the two reports. -/
def report : Closed → Inbound
  | .pane p => .paneClosed p
  | .tab word tabIndex => .tabClosed word tabIndex
  | .session word => .sessionClosed word

/-- The event that the UI sees. There is none for a tab. -/
def event : Closed → Option SessionEvent
  | .pane p => some (.paneClosed p)
  | .tab _ _ => none
  | .session word => some (.sessionClosed word)

/-- The message tells the client that the thing is gone: either report, or a list without the
session. -/
def Tells : Closed → Inbound → Prop
  | .session word, .sessionListResult sessions => ∀ e ∈ sessions, e.wordId ≠ word
  | c, msg => msg = c.report

end Closed

namespace SessionManager

/-! ## What brings it back -/

/-- The message does not bring back a session. -/
def QuietSession (word : WordId) : Inbound → Prop
  | .sessionListResult sessions => ∀ e ∈ sessions, e.wordId ≠ word
  | .sessionCreated entry => entry.wordId ≠ word
  | _ => True

/-- The message does not bring back what was closed. -/
def Quiet : Closed → SessionManager → Inbound → Prop
  | .pane pane, m, msg => m.QuietPane pane msg
  | .tab word tabIndex, m, msg => m.QuietTab word tabIndex msg
  | .session word, _, msg => QuietSession word msg

/-- The client can take the first report: a visible pane is one it knows, and moving the view off
the pane does not show it again. -/
def Closable (m : SessionManager) : Closed → Prop
  | .pane pane => (m.knowsPane pane = false → pane ∉ m.visiblePanes) ∧
      (m.activePane = some pane → (m.visiblePanes.filter fun p ↦ p ≠ pane) = [] →
        (m.dropPane pane).LeaveSpares pane)
  | _ => True

/-! ## Runs -/

/-- The events of a run. -/
def events : SessionManager → List Inbound → List SessionEvent
  | _, [] => []
  | m, msg :: msgs => (m.handleServerMessage msg).2 ++ events (m.receive msg) msgs

/-- Nothing is kept of what was closed. -/
def Absent (m : SessionManager) : Closed → Prop
  | .pane pane => m.NoPane pane ∧ Unlisted pane m.sessionList
  | .tab word tabIndex => m.NoTab word tabIndex
  | .session word => ∀ e ∈ m.sessionList, e.wordId ≠ word

/-- A run in which nothing brings the thing back once the client has been told that it is gone. -/
def Orderly (c : Closed) : SessionManager → List Inbound → Prop
  | _, [] => True
  | m, msg :: msgs =>
      (c.Tells msg → m.Closable c ∧ Run.Ok receive (Quiet c) (m.receive msg) msgs) ∧
      (¬c.Tells msg → Orderly c (m.receive msg) msgs)

/-! ## A quiet message keeps a session away -/

theorem absent_listAfter {sessions : List SessionEntry} {word : WordId}
    (h : ∀ e ∈ sessions, e.wordId ≠ word) {msg : Inbound} (hquiet : QuietSession word msg) :
    ∀ e ∈ listAfter sessions msg, e.wordId ≠ word := by
  have hmodify : ∀ (f : SessionEntry → SessionEntry) (w : WordId),
      (∀ e, (f e).wordId = e.wordId) → ∀ e ∈ modifySession w f sessions, e.wordId ≠ word := by
    intro f w hf e he
    rcases mem_modifyFirst he with hin | ⟨e', hin, rfl⟩
    · exact h e hin
    · rw [hf]
      exact h e' hin
  cases msg with
  | sessionListResult listed => exact hquiet
  | sessionCreated entry =>
    intro e he
    rcases List.mem_append.mp he with he | he
    · exact h e he
    · exact List.mem_singleton.mp he ▸ hquiet
  | sessionClosed w => exact fun e he ↦ h e (List.mem_filter.mp he).1
  | paneCreated q w => exact hmodify _ w fun e ↦ wordId_withPane e _
  | paneClosed q =>
    intro e he
    obtain ⟨e', hin, rfl⟩ := List.mem_map.mp he
    exact h e' hin
  | paneSplit w i newPane layout => exact hmodify _ w fun e ↦ wordId_withPane e newPane
  | layoutUpdate w i layout focusedPane => exact hmodify _ w fun _ ↦ rfl
  | tabCreated w tab => exact hmodify _ w fun e ↦ wordId_withTab e tab
  | tabClosed w i => exact hmodify _ w fun _ ↦ rfl
  | tabsReordered w tabIndices => exact hmodify _ w fun _ ↦ rfl
  | stream | sessionKicked | sessionCreatedEvent | tabCreatedEvent | paneSpawned => exact h

/-! ## The reports -/

/-- What any quiet message leaves of a thing that is gone. -/
theorem absent_receive {m : SessionManager} {c : Closed} (h : m.Absent c) {msg : Inbound}
    (hquiet : Quiet c m msg) : (m.receive msg).Absent c := by
  cases c with
  | pane pane =>
    refine ⟨h.1.receive h.2 hquiet, ?_⟩
    rw [SessionManager.receive, sessionList_handleServerMessage]
    exact Unlisted.listAfter h.2 hquiet
  | tab word tabIndex => exact NoTab.receive h hquiet
  | session word =>
    rw [Absent, SessionManager.receive, sessionList_handleServerMessage]
    exact absent_listAfter h hquiet

/-- **The first report** leaves nothing. -/
theorem absent_of_tells {m : SessionManager} {c : Closed} {msg : Inbound} (hclosable : m.Closable c)
    (htells : c.Tells msg) : (m.receive msg).Absent c := by
  cases c with
  | pane pane =>
    obtain rfl : msg = .paneClosed pane := htells
    refine ⟨?_, ?_⟩
    · rcases Bool.eq_false_or_eq_true (m.knowsPane pane) with hknown | hknown
      · exact noPane_onPaneGone hknown (noPane_dropPane m pane) hclosable.2
      · rw [SessionManager.receive, handleServerMessage, onPaneGone_of_unknown hknown]
        have hvisible := hclosable.1 hknown
        rw [knowsPane, Bool.or_eq_false_iff, Bool.or_eq_false_iff, Option.isSome_eq_false_iff,
          Option.isSome_eq_false_iff, Option.isNone_iff_eq_none,
          Option.isNone_iff_eq_none] at hknown
        exact ⟨hknown.1.1, hknown.1.2, hvisible⟩
    · rw [SessionManager.receive, sessionList_handleServerMessage]
      intro e he q hq
      obtain ⟨e', -, rfl⟩ := List.mem_map.mp he
      exact of_decide_eq_true (List.mem_filter.mp hq).2
  | tab word tabIndex =>
    obtain rfl : msg = .tabClosed word tabIndex := htells
    exact noTab_onTabGone m word tabIndex
  | session word =>
    rw [Absent, SessionManager.receive, sessionList_handleServerMessage]
    cases msg with
    | sessionListResult sessions => exact htells
    | sessionClosed w =>
      obtain rfl : w = word := Inbound.sessionClosed.inj htells
      exact fun e he ↦ of_decide_eq_true (List.mem_filter.mp he).2
    | _ => exact absurd htells (by simp [Closed.Tells, Closed.report])

theorem knowsSession_eq_false {m : SessionManager} {word : WordId}
    (h : ∀ e ∈ m.sessionList, e.wordId ≠ word) : m.knowsSession word = false :=
  List.any_eq_false.mpr fun e he htrue ↦ h e he (of_decide_eq_true htrue)

/-- **The second report** changes nothing, and no event is emitted for it. -/
theorem report_of_absent {m : SessionManager} {c : Closed} (h : m.Absent c) :
    m.handleServerMessage c.report = (m, []) := by
  cases c with
  | pane pane =>
    rw [Closed.report, handleServerMessage, onPaneGone_of_unknown (knowsPane_eq_false h.1 h.2)]
    rfl
  | tab word tabIndex =>
    rw [Closed.report, handleServerMessage, NoTab.onTabGone_eq h]
  | session word =>
    rw [Closed.report, handleServerMessage,
      onSessionGone_of_unknown (knowsSession_eq_false h)]
    rfl

/-! ## The events -/

theorem event_onPaneGone (m : SessionManager) (pane : PaneId) :
    (m.onPaneGone pane).2 = if m.knowsPane pane then some (.paneClosed pane) else none := by
  rw [SessionManager.onPaneGone]
  split <;> rfl

theorem event_onSessionGone (m : SessionManager) (word : WordId) :
    (m.onSessionGone word).2 =
      if m.knowsSession word then some (.sessionClosed word) else none := by
  rw [SessionManager.onSessionGone]
  split <;> rfl

private theorem count_event (known : Bool) (e ev : SessionEvent) :
    (if known then some e else none).toList.count ev =
      if e = ev ∧ known = true then 1 else 0 := by
  cases known with
  | true => by_cases h : e = ev <;> simp [h]
  | false => simp

/-- The loop over the sessions that are not listed reports each that is known once. -/
private theorem count_foldl_forgetOne (word : WordId) (ws : List WordId)
    (r : SessionManager × List SessionEvent) :
    (ws.foldl forgetOne r).2.count (.sessionClosed word) ≤
      r.2.count (.sessionClosed word) +
        if word ∈ ws ∧ r.1.knowsSession word = true then 1 else 0 := by
  induction ws generalizing r with
  | nil => exact Nat.le_add_right _ _
  | cons w ws ih =>
    have hstep : (forgetOne r w).2.count (.sessionClosed word) = r.2.count (.sessionClosed word) +
        if w = word ∧ r.1.knowsSession word = true then 1 else 0 := by
      rw [forgetOne, event_onSessionGone, List.count_append, count_event]
      refine congrArg _ (if_congr ?_ rfl rfl)
      rw [SessionEvent.sessionClosed.injEq]
      exact and_congr_right fun hw ↦ hw ▸ Iff.rfl
    refine (ih (forgetOne r w)).trans ?_
    rw [hstep]
    by_cases hw : w = word
    · subst hw
      have hgone : (forgetOne r w).1.knowsSession w = false := knowsSession_onSessionGone r.1 w
      simp [hgone]
    · have hkept : (forgetOne r w).1.knowsSession word = true → r.1.knowsSession word = true :=
        knowsSession_of_onSessionGone
      rw [if_neg fun h ↦ hw h.1, Nat.add_zero]
      refine Nat.add_le_add_left ?_ _
      by_cases hrest : word ∈ ws ∧ (forgetOne r w).1.knowsSession word = true
      · rw [if_pos hrest, if_pos ⟨List.mem_cons_of_mem w hrest.1, hkept hrest.2⟩]
      · rw [if_neg hrest]
        exact Nat.zero_le _

private theorem mem_foldl_forgetOne {ev : SessionEvent} (ws : List WordId)
    (r : SessionManager × List SessionEvent) (h : ev ∈ (ws.foldl forgetOne r).2) :
    ev ∈ r.2 ∨ ∃ w, ev = .sessionClosed w := by
  induction ws generalizing r with
  | nil => exact .inl h
  | cons w ws ih =>
    rcases ih _ h with h | h
    · rcases List.mem_append.mp h with h | h
      · exact .inl h
      · rw [event_onSessionGone] at h
        split at h
        · exact .inr ⟨w, List.mem_singleton.mp h⟩
        · exact absurd h List.not_mem_nil
    · exact .inr h

/-- A list reports no pane. -/
theorem paneClosed_not_mem_onSessionListResult (m : SessionManager) (sessions : List SessionEntry)
    (pane : PaneId) : SessionEvent.paneClosed pane ∉ (m.onSessionListResult sessions).2 := by
  intro hmem
  rcases List.mem_append.mp hmem with hmem | hmem
  · rcases mem_foldl_forgetOne _ _ hmem with hmem | ⟨w, hw⟩
    · exact List.not_mem_nil hmem
    · exact SessionEvent.noConfusion hw
  · exact SessionEvent.noConfusion (List.mem_singleton.mp hmem)

/-- A list reports a session that it does not name once, if the client knows it. -/
theorem count_onSessionListResult (m : SessionManager) (sessions : List SessionEntry)
    (word : WordId) :
    (m.onSessionListResult sessions).2.count (.sessionClosed word) ≤
      if (∀ e ∈ sessions, e.wordId ≠ word) ∧ m.knowsSession word = true then 1 else 0 := by
  rw [onSessionListResult, List.count_append]
  refine (Nat.add_le_add_right (count_foldl_forgetOne word _ (m, [])) _).trans ?_
  have hother : [SessionEvent.sessionListReceived].count (.sessionClosed word) = 0 := rfl
  rw [hother, Nat.add_zero, List.count_nil, Nat.zero_add]
  by_cases hgone : (∀ e ∈ sessions, e.wordId ≠ word) ∧ m.knowsSession word = true
  · rw [if_pos hgone]
    split
    · exact le_rfl
    · exact Nat.zero_le 1
  · rw [if_neg hgone, if_neg]
    rintro ⟨hmem, hknown⟩
    refine hgone ⟨fun e he ↦ ?_, hknown⟩
    have hunlisted : word ∈ (m.sessionList.map (·.wordId)).filter fun w ↦
        sessions.all fun e ↦ e.wordId ≠ w := by
      rcases List.mem_append.mp hmem with hmem | hmem
      · exact (List.mem_filter.mp hmem).1
      · exact (List.mem_filter.mp hmem).1
    exact of_decide_eq_true (List.all_eq_true.mp (List.mem_filter.mp hunlisted).2 e he)

/-- A message reports the close at most once, and only if it is one that tells of it and the thing
is there. -/
theorem count_handleServerMessage {c : Closed} {ev : SessionEvent} (hev : c.event = some ev)
    (m : SessionManager) (msg : Inbound) :
    (m.handleServerMessage msg).2.count ev ≤ 1 ∧
      (¬c.Tells msg ∨ m.Absent c → (m.handleServerMessage msg).2.count ev = 0) := by
  have hatmost : ∀ {p : Prop} [Decidable p], (if p then 1 else 0) ≤ 1 := fun {p} _ ↦ by
    split
    · exact le_rfl
    · exact Nat.zero_le 1
  cases c with
  | pane pane =>
    obtain rfl : SessionEvent.paneClosed pane = ev := Option.some_inj.mp hev
    cases msg with
    | sessionListResult sessions =>
      have hnone := List.count_eq_zero.mpr
        (paneClosed_not_mem_onSessionListResult m sessions pane)
      exact ⟨hnone.le.trans (Nat.zero_le 1), fun _ ↦ hnone⟩
    | paneClosed q =>
      rw [handleServerMessage, event_onPaneGone, count_event]
      refine ⟨hatmost, fun h ↦ if_neg ?_⟩
      rintro ⟨heq, hknown⟩
      obtain rfl : q = pane := SessionEvent.paneClosed.inj heq
      rcases h with h | h
      · exact h rfl
      · exact ne_true_of_eq_false (knowsPane_eq_false h.1 h.2) hknown
    | sessionClosed w =>
      rw [handleServerMessage, event_onSessionGone, count_event]
      exact ⟨hatmost, fun _ ↦ if_neg fun h ↦ SessionEvent.noConfusion h.1⟩
    | _ => exact ⟨by simp [handleServerMessage], fun _ ↦ by simp [handleServerMessage]⟩
  | tab word tabIndex => exact absurd hev (Option.some_ne_none ev).symm
  | session word =>
    obtain rfl : SessionEvent.sessionClosed word = ev := Option.some_inj.mp hev
    cases msg with
    | sessionListResult sessions =>
      have hcount := count_onSessionListResult m sessions word
      refine ⟨hcount.trans hatmost, fun h ↦ Nat.le_zero.mp (hcount.trans (if_neg ?_).le)⟩
      rintro ⟨hunlisted, hknown⟩
      rcases h with h | h
      · exact h hunlisted
      · exact ne_true_of_eq_false (knowsSession_eq_false h) hknown
    | sessionClosed w =>
      rw [handleServerMessage, event_onSessionGone, count_event]
      refine ⟨hatmost, fun h ↦ if_neg ?_⟩
      rintro ⟨heq, hknown⟩
      obtain rfl : w = word := SessionEvent.sessionClosed.inj heq
      rcases h with h | h
      · exact h rfl
      · exact ne_true_of_eq_false (knowsSession_eq_false h) hknown
    | paneClosed q =>
      rw [handleServerMessage, event_onPaneGone, count_event]
      exact ⟨hatmost, fun _ ↦ if_neg fun h ↦ SessionEvent.noConfusion h.1⟩
    | _ => exact ⟨by simp [handleServerMessage], fun _ ↦ by simp [handleServerMessage]⟩

/-! ## Both reports -/

theorem closed_tells_report (c : Closed) : c.Tells c.report := by
  cases c <;> rfl

theorem absent_exec {m : SessionManager} {c : Closed} (h : m.Absent c) {msgs : List Inbound}
    (hquiet : Run.Ok receive (Quiet c) m msgs) : (Run.exec receive m msgs).Absent c :=
  @Run.invariant_of_ok _ _ receive (Quiet c) (·.Absent c) (fun _ _ hs hq ↦ absent_receive hs hq)
    msgs m h hquiet

theorem count_events_of_absent {m : SessionManager} {c : Closed} {ev : SessionEvent}
    (hev : c.event = some ev) (h : m.Absent c) {msgs : List Inbound}
    (hquiet : Run.Ok receive (Quiet c) m msgs) : (events m msgs).count ev = 0 := by
  induction msgs generalizing m with
  | nil => rfl
  | cons msg msgs ih =>
    rw [events, List.count_append, (count_handleServerMessage hev m msg).2 (.inr h),
      ih (absent_receive h hquiet.1) hquiet.2]

theorem count_events {m : SessionManager} {c : Closed} {ev : SessionEvent}
    (hev : c.event = some ev) {msgs : List Inbound} (h : Orderly c m msgs) :
    (events m msgs).count ev ≤ 1 := by
  induction msgs generalizing m with
  | nil => exact Nat.zero_le 1
  | cons msg msgs ih =>
    have hcount := count_handleServerMessage hev m msg
    rw [events, List.count_append]
    by_cases htells : c.Tells msg
    · obtain ⟨hclosable, hquiet⟩ := h.1 htells
      rw [count_events_of_absent hev (absent_of_tells hclosable htells) hquiet]
      exact hcount.1
    · rw [hcount.2 (.inl htells), Nat.zero_add]
      exact ih (h.2 htells)

/-- Once a report was delivered nothing is left. -/
theorem absent_of_report {m : SessionManager} {c : Closed} {before after : List Inbound}
    (h : Orderly c m (before ++ after)) (hreport : c.report ∈ before) :
    (Run.exec receive m before).Absent c := by
  induction before generalizing m with
  | nil => exact absurd hreport List.not_mem_nil
  | cons msg before ih =>
    by_cases htells : c.Tells msg
    · obtain ⟨hclosable, hquiet⟩ := h.1 htells
      have hgone := absent_of_tells hclosable htells
      exact absent_exec hgone ((Run.ok_append _ _ _).mp hquiet).1
    · refine ih (h.2 htells) ((List.mem_cons.mp hreport).resolve_left fun heq ↦ htells ?_)
      exact heq ▸ closed_tells_report c

/-- **A close that is reported twice.** In a run in which nothing brings the thing back once the
client has been told that it is gone, its event is emitted at most once, a report after the first
changes nothing and emits nothing, and of a pane neither the grid nor the sync state nor the place
on screen comes back. -/
theorem closed_twice (c : Closed) (m : SessionManager) (msgs : List Inbound)
    (h : Orderly c m msgs) :
    (∀ ev, c.event = some ev → (events m msgs).count ev ≤ 1) ∧
      ∀ before after, msgs = before ++ after → c.report ∈ before →
        (Run.exec receive m before).handleServerMessage c.report =
            (Run.exec receive m before, []) ∧
          ∀ pane, c = .pane pane → (Run.exec receive m before).NoPane pane := by
  refine ⟨fun ev hev ↦ count_events hev h, ?_⟩
  rintro before after rfl hreport
  have hgone := absent_of_report h hreport
  refine ⟨report_of_absent hgone, ?_⟩
  rintro pane rfl
  exact hgone.1

/-- One pane is on screen beside another when its close is reported; the layout without it comes
between the two reports. -/
theorem closed_twice_of_split :
    let p : PaneId := ("a", 0)
    let entry : SessionEntry :=
      { wordId := "a", peer := none, activeTab := 0, panes := [⟨p, 0⟩, ⟨("a", 1), 1⟩],
        tabs := [⟨0, .split .horizontal [500, 500] [.leaf 0, .leaf 1], 0⟩] }
    let m := { new with linked := true }.receive (.sessionListResult [entry])
    let msgs : List Inbound := [.paneClosed p, .layoutUpdate "a" 0 (.leaf 1) 1, .paneClosed p]
    m.visiblePanes = [p, ("a", 1)] ∧
      (∀ ev, (Closed.pane p).event = some ev → (events m msgs).count ev ≤ 1) ∧
      ∀ before after, msgs = before ++ after → .paneClosed p ∈ before →
        (Run.exec receive m before).handleServerMessage (.paneClosed p) =
            (Run.exec receive m before, []) ∧
          ∀ pane, Closed.pane p = .pane pane → (Run.exec receive m before).NoPane pane := by
  refine ⟨by decide, closed_twice (.pane ("a", 0)) _ _ ⟨fun _ ↦ ⟨⟨?_, ?_⟩, ?_, ?_, trivial⟩, ?_⟩⟩
  · exact fun h ↦ absurd h (by decide)
  · exact fun _ h ↦ absurd h (by decide)
  · exact fun _ _ _ ↦ by decide
  · exact fun h ↦ absurd rfl h
  · exact fun h ↦ absurd rfl h

/-- A late `SyncReset` gives a closed pane sync state again: the second report emits the event once
more. -/
theorem closed_twice_reported :
    let p : PaneId := ("a", 0)
    let entry : SessionEntry :=
      { wordId := "a", peer := none, activeTab := 0, panes := [⟨p, 0⟩], tabs := [⟨0, .leaf 0, 0⟩] }
    let m := { new with linked := true }.receive (.sessionListResult [entry])
    let msgs : List Inbound := [.paneClosed p, .stream p .syncReset, .paneClosed p]
    (events m msgs).count (.paneClosed p) = 2 ∧
      (Run.exec receive m [.paneClosed p, .stream p .syncReset]).paneSync p =
        some .awaitingSync := by
  decide

end SessionManager

end Client

end Kmux
