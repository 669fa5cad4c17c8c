import Kmux.Federation.Answers
import Kmux.Federation.Keyed

/-!
# No foreign name crosses the hub

What each kind of frame is passed on as, and so when all that the clients are sent of it is in the
hub's words for what it names. The words of an open peer are in no other hands in any state that a
hub reaches (`Hub.Inv`), so a word that is still the session's is nobody else's.
-/

namespace Kmux

namespace Federation

namespace PeerConnection

variable {c : PeerConnection} {word remote : WordId}

/-! ## What an answer is passed on as -/

theorem replies_eq {c' : PeerConnection} {relayed told : List Delivery}
    (hrelayed : c'.relayed = c.relayed ++ relayed) (htold : c'.told = c.told ++ told) :
    c.replies c' = (relayed ++ told).map fun d ↦ .reply d.msg := by
  rw [replies, hrelayed, htold, List.drop_left, List.drop_left]

theorem afterReply_told (c : PeerConnection) (outside : Outside) (msg : ServerMessage) :
    (c.afterReply outside msg).told = c.told := by
  rw [afterReply.eq_def]
  split
  · rw [remoteSessionClosed]
    split
    · split <;> rfl
    · rfl
  · rfl

/-- An answer passed on, and nothing else. -/
theorem replies_relay {c' : PeerConnection} (hrelayed : c'.relayed = c.relayed)
    (htold : c'.told = c.told) (recipient : Requester) (msg : ServerMessage) (call : Option ℕ) :
    c.replies (c'.relay recipient msg call) =
      (recipient.answer msg call).map fun d ↦ .reply d.msg := by
  have hrelay : (c'.relay recipient msg call).relayed =
      c.relayed ++ recipient.answer msg call := by rw [relay, hrelayed]
  have hnone : (c'.relay recipient msg call).told = c.told ++ [] := by
    rw [relay, List.append_nil, htold]
  rw [replies_eq hrelay hnone, List.append_nil]

theorem mem_map_answer {recipient : Requester} {msg : ServerMessage} {call : Option ℕ}
    {sent : Frame} : sent ∈ (recipient.answer msg call).map (fun d ↦ Frame.reply d.msg) ↔
      recipient ≠ .hub ∧ sent = .reply msg := by
  rcases recipient with _ | ⟨client, ctrl⟩
  · exact ⟨fun h ↦ absurd h List.not_mem_nil, fun h ↦ absurd rfl h.1⟩
  · rw [Requester.answer, List.map_singleton, List.mem_singleton]
    exact (and_iff_right Requester.noConfusion).symm

variable {msg : ServerMessage} {route : Route}

theorem onUpstream_of_routeOf (hroute : c.routeOf msg = some route) (outside : Outside) :
    ∃ routes, c.onUpstream outside msg =
      ((({ c with routes }.routedReply outside route msg).1.relay route.sender
        (({ c with routes }.routedReply outside route msg).2.setReplyRequestId route.requestId)
          outside.call).afterReply outside msg) := by
  obtain ⟨id, hid, hlookup⟩ := Option.bind_eq_some_iff.mp hroute
  have htake : (c.routes.take id).2 = some route := hlookup
  refine ⟨(c.routes.take id).1, ?_⟩
  have hrouted : c.answerRouted outside msg = some
      (((({ c with routes := (c.routes.take id).1 }.routedReply outside route msg).1.relay
        route.sender (({ c with routes := (c.routes.take id).1 }.routedReply outside route
          msg).2.setReplyRequestId route.requestId) outside.call).afterReply outside msg)) := by
    rw [answerRouted, hid, Option.bind_eq_bind, Option.bind_some, htake, Option.bind_eq_bind,
      Option.bind_some]
  rw [onUpstream.eq_def]
  split
  · cases hid
  · cases hid
  · rw [hrouted]
    rfl

theorem routedReply_of_lists (hlists : msg.lists = false) (outside : Outside) :
    c.routedReply outside route msg = (c, msg.under route.localWord) := by
  rw [routedReply.eq_def]
  split
  · cases hlists
  · rcases route.localWord with _ | word <;> rfl

/-- An answer that lists nothing goes to whoever asked, in the word it was asked under. -/
theorem onUpstream_routed (hroute : c.routeOf msg = some route) (hlists : msg.lists = false)
    (outside : Outside) :
    ∃ c₁, c.SameBook c₁ ∧ c.onUpstream outside msg = c₁.afterReply outside msg ∧
      c.replies (c.onUpstream outside msg) = (route.sender.answer
        ((msg.under route.localWord).setReplyRequestId route.requestId) outside.call).map
          fun d ↦ .reply d.msg := by
  obtain ⟨routes, hup⟩ := onUpstream_of_routeOf hroute outside
  rw [routedReply_of_lists hlists] at hup
  dsimp only at hup
  refine ⟨{ c with routes }.relay route.sender _ outside.call, ⟨rfl, rfl, rfl⟩, hup, ?_⟩
  rw [hup, replies, (Plain.afterReply _ outside msg).relayed, afterReply_told]
  exact replies_relay rfl rfl _ _ _

/-- The answer to a create is the session's listing here, or an error. -/
theorem onUpstream_created {id : RequestId} {entry : SessionEntry}
    (hroute : c.routeOf (.sessionCreated id entry) = some route) (outside : Outside) :
    ∃ c₁, c.SameBook c₁ ∧
      let registered := if outside.isOpen
        then c₁.registerCreated outside.peer entry outside.drawn.head? else (c₁, none)
      registered.1.SameBook (c.onUpstream outside (.sessionCreated id entry)) ∧
      ∀ sent ∈ c.replies (c.onUpstream outside (.sessionCreated id entry)),
        (∃ e' ∈ registered.2, sent = .reply (.sessionCreated route.requestId e')) ∨
          sent.names = [] := by
  obtain ⟨routes, hup⟩ := onUpstream_of_routeOf hroute outside
  refine ⟨{ c with routes }, ⟨rfl, rfl, rfl⟩, ?_⟩
  set c₁ : PeerConnection := { c with routes } with hc₁
  have hplain : Plain c₁ (if outside.isOpen
      then c₁.registerCreated outside.peer entry outside.drawn.head? else (c₁, none)).1 := by
    split
    · exact Plain.registerCreated c₁ _ entry _
    · exact Plain.refl c₁
  have htold : (if outside.isOpen
      then c₁.registerCreated outside.peer entry outside.drawn.head? else (c₁, none)).1.told =
        c₁.told := by
    split
    · rw [registerCreated.eq_def]
      split
      · rfl
      · split <;> rfl
    · rfl
  dsimp only
  rw [routedReply.eq_def] at hup
  dsimp only at hup
  revert hup hplain htold
  generalize (if outside.isOpen
    then c₁.registerCreated outside.peer entry outside.drawn.head? else (c₁, none)) = registered
  intro hup hplain htold
  have hreplies : ∀ (c₂ : PeerConnection) (reply : ServerMessage), c₂.relayed = c.relayed →
      c₂.told = c.told → ∀ sent ∈ c.replies (c₂.relay route.sender reply outside.call),
        sent = .reply reply := by
    intro c₂ reply hrelayed htold sent hsent
    rw [replies_relay hrelayed htold] at hsent
    exact (mem_map_answer.mp hsent).2
  rcases registered with ⟨c₂, _ | e'⟩
  · rw [hup]
    refine ⟨⟨rfl, rfl, rfl⟩, fun sent hsent ↦ .inr ?_⟩
    rw [hreplies c₂ _ hplain.relayed htold sent hsent]
    rfl
  · rw [hup]
    refine ⟨⟨rfl, rfl, rfl⟩, fun sent hsent ↦ .inl ⟨e', rfl, ?_⟩⟩
    exact hreplies c₂ _ hplain.relayed htold sent hsent

/-- Nobody is told of a message that answers nothing. -/
theorem onUpstream_ignored (hroute : c.routeOf msg = none) (h : msg.unrequested = false)
    (hlist : msg.kind ≠ .sessionListResult) (outside : Outside) :
    c.SameBook (c.onUpstream outside msg) ∧ c.replies (c.onUpstream outside msg) = [] := by
  have hnone : c.replies c = [] := by rw [replies, List.drop_length, List.drop_length]; rfl
  have hrouted : c.answerRouted outside msg = none := answerRouted_none outside fun id hid ↦ by
    rw [routeOf, hid] at hroute
    exact hroute
  have hunrequested : c.answerUnrequested outside msg = none := by
    rw [answerUnrequested, h, if_neg Bool.false_ne_true]
  rw [onUpstream.eq_def]
  split
  · exact ⟨⟨rfl, rfl, rfl⟩, hnone⟩
  · exact absurd rfl hlist
  · rw [hrouted, hunrequested]
    exact ⟨SameBook.refl c, hnone⟩

theorem onUpstream_of_unrequested (h : msg.unrequested = true) (outside : Outside) :
    c.onUpstream outside msg = match c.routes.front with
      | none => c
      | some sender =>
        let reply := c.onLockReply sender
          (msg.under (msg.replyWord.bind fun word ↦ c.remoteToLocal.lookup word))
        reply.1.relay sender reply.2 outside.call := by
  rw [onUpstream_unrequested c outside h, answerUnrequested, h, if_pos rfl]
  rcases c.routes.front with _ | sender
  · rfl
  · rcases (msg.replyWord.bind fun word ↦ c.remoteToLocal.lookup word) with _ | word
    · rfl
    · rfl

/-- The names in an answer without an id, as it is passed on. -/
theorem names_under_callWord (h : msg.unrequested = true) :
    (msg.under (msg.replyWord.bind fun word ↦ c.remoteToLocal.lookup word)).names =
      msg.names.map fun n ↦ n.under (c.callWord n.word) := by
  have hlists : msg.lists = false := by
    cases msg with
    | sessionCreated | sessionListResult => cases h
    | _ => rfl
  rw [ServerMessage.names_under hlists]
  refine List.map_congr_left fun n hn ↦ ?_
  rw [ServerMessage.replyWord_of_mem_names h hn]
  rfl

/-- What a refusal of the lock to the hub itself tells the holder. -/
def bereaved (c : PeerConnection) (sender : Requester) : ServerMessage → List Delivery
  | .inputLockDenied pane _ =>
    match sender, c.inputLocks.lookup pane with
    | .hub, some requester => requester.answer (.inputLockReleased pane) none
    | _, _ => []
  | _ => []

private theorem lockReleased_told (c : PeerConnection) (pane : PaneId) (sender : Requester) :
    (c.lockReleased pane sender).told = c.told := by
  rw [lockReleased]
  split
  · rfl
  · split
    · rfl
    · split
      · rw [relock]
        split
        · exact send_told c .hub _ none
        · rfl
      · rfl

private theorem recordGrant_told (c : PeerConnection) (sender : Requester) (pane : PaneId) :
    (c.recordGrant sender pane).told = c.told := by
  rw [recordGrant]
  split
  · rfl
  · split
    · exact send_told c .hub _ none
    · rfl

private theorem lockRefused_told (c : PeerConnection) (pane : PaneId) (sender : Requester)
    (holder : ClientId) : (c.lockRefused pane sender).told =
      c.told ++ c.bereaved sender (.inputLockDenied pane holder) := by
  rw [lockRefused, PeerConnection.holder, bereaved.eq_def]
  dsimp only
  rcases hlock : c.inputLocks.lookup pane with _ | requester
  · rw [Option.bind_none]
    rcases sender with _ | ⟨client, ctrl⟩ <;> exact (List.append_nil _).symm
  · rw [Option.bind_some]
    rcases requester with _ | ⟨client', ctrl'⟩
    · rcases sender with _ | ⟨client, ctrl⟩ <;> exact (List.append_nil _).symm
    · have hholder : Requester.clientId (.client client' ctrl') = some client' := rfl
      rw [hholder]
      dsimp only
      rcases sender with _ | ⟨client, ctrl⟩
      · have hhub : Requester.clientId .hub = none := rfl
        rw [if_pos (Or.inl hhub), if_pos hhub]
        rfl
      · have hclient : Requester.clientId (.client client ctrl) ≠ none := Option.some_ne_none client
        rw [if_neg hclient]
        split
        · exact (List.append_nil _).symm
        · exact (List.append_nil _).symm

theorem onLockReply_told (c : PeerConnection) (sender : Requester) (msg : ServerMessage) :
    (c.onLockReply sender msg).1.told = c.told ++ c.bereaved sender msg := by
  cases msg with
  | inputLockGranted pane =>
    rw [bereaved.eq_def, List.append_nil, onLockReply.eq_def]
    dsimp only
    split
    · split
      · rfl
      · exact recordGrant_told c sender pane
    · exact recordGrant_told c sender pane
  | inputLockReleased pane =>
    exact (lockReleased_told c pane sender).trans (List.append_nil _).symm
  | inputLockDenied pane holder => exact lockRefused_told c pane sender holder
  | _ => exact (List.append_nil _).symm

theorem names_onLockReply (c : PeerConnection) (sender : Requester) (msg : ServerMessage) :
    (c.onLockReply sender msg).2.names = msg.names := by
  rw [onLockReply.eq_def]
  split
  · split
    · split <;> rfl
    · rfl
  · rfl
  · rfl
  · rfl

private theorem mem_bereaved {sender : Requester} {d : Delivery} :
    d ∈ c.bereaved sender msg ↔ sender = .hub ∧ ∃ pane holder client ctrl,
      msg = .inputLockDenied pane holder ∧ c.inputLocks.lookup pane = some (.client client ctrl) ∧
        d = { client, ctrl, msg := .inputLockReleased pane, call := none } := by
  constructor
  · intro h
    cases msg with
    | inputLockDenied pane holder =>
      rw [bereaved.eq_def] at h
      dsimp only at h
      split at h
      next requester hlookup =>
        rcases requester with _ | ⟨client, ctrl⟩
        · exact absurd h List.not_mem_nil
        · exact ⟨rfl, pane, holder, client, ctrl, rfl, hlookup, List.mem_singleton.mp h⟩
      next => exact absurd h List.not_mem_nil
    | _ => exact absurd h List.not_mem_nil
  · rintro ⟨rfl, pane, holder, client, ctrl, rfl, hlookup, rfl⟩
    rw [bereaved.eq_def]
    dsimp only
    rw [hlookup]
    exact List.mem_singleton_self _

private theorem under_denied (c : PeerConnection) (pane : PaneId) (holder : ClientId) :
    (ServerMessage.inputLockDenied pane holder).under
      ((ServerMessage.inputLockDenied pane holder).replyWord.bind fun word ↦
        c.remoteToLocal.lookup word) = .inputLockDenied (c.callWord pane.1, pane.2) holder := by
  rw [ServerMessage.replyWord, Option.bind_some, callWord]
  rcases c.remoteToLocal.lookup pane.1 with _ | word <;> rfl

private theorem eq_denied_of_under {word : Option WordId} {pane : PaneId} {holder : ClientId}
    (h : msg.under word = .inputLockDenied pane holder) :
    ∃ pane', msg = .inputLockDenied pane' holder := by
  rcases word with _ | word
  · exact ⟨pane, h⟩
  · cases msg with
    | inputLockDenied pane' holder' =>
      rw [(ServerMessage.inputLockDenied.inj h).2]
      exact ⟨pane', rfl⟩
    | _ => cases h

private theorem replies_onLockReply (c : PeerConnection) (sender : Requester) (m : ServerMessage)
    (call : Option ℕ) :
    c.replies ((c.onLockReply sender m).1.relay sender (c.onLockReply sender m).2 call) =
      (sender.answer (c.onLockReply sender m).2 call).map (fun d ↦ .reply d.msg) ++
        (c.bereaved sender m).map fun d ↦ .reply d.msg := by
  have hrelayed : ((c.onLockReply sender m).1.relay sender (c.onLockReply sender m).2
      call).relayed = c.relayed ++ sender.answer (c.onLockReply sender m).2 call := by
    rw [relay, (Plain.onLockReply c sender m).relayed]
  rw [replies_eq hrelayed (onLockReply_told c sender m), List.map_append]

/-- What is passed on of an answer without an id: the names in it are under the words they are
mapped to, or under their own. -/
theorem names_of_mem_replies {sender : Requester} (h : msg.unrequested = true)
    (hfront : c.routes.front = some sender) (outside : Outside) {sent : Frame}
    (hsent : sent ∈ c.replies (c.onUpstream outside msg)) : c.Heeds sender msg ∧
      sent.names = msg.names.map fun n ↦ n.under (c.callWord n.word) := by
  set m := msg.under (msg.replyWord.bind fun word ↦ c.remoteToLocal.lookup word) with hm
  rw [onUpstream_of_unrequested h, hfront] at hsent
  dsimp only at hsent
  rw [← hm, replies_onLockReply, List.mem_append, mem_map_answer] at hsent
  rw [← names_under_callWord h, ← hm]
  rcases hsent with ⟨hsender, rfl⟩ | hsent
  · refine ⟨?_, names_onLockReply c sender m⟩
    cases msg with
    | inputLockDenied => exact .inl hsender
    | _ => exact hsender
  · obtain ⟨d, hd, rfl⟩ := List.mem_map.mp hsent
    obtain ⟨rfl, pane, holder, client, ctrl, heq, hlookup, rfl⟩ := mem_bereaved.mp hd
    obtain ⟨pane', rfl⟩ := eq_denied_of_under heq
    rw [under_denied] at hm
    obtain ⟨hpane, _⟩ := ServerMessage.inputLockDenied.inj (heq.symm.trans hm)
    refine ⟨.inr ?_, ?_⟩
    · rw [← hpane, PeerConnection.holder, hlookup]
      rfl
    · rw [heq]
      rfl

/-- And something is, when anyone is told. -/
theorem exists_mem_replies {sender : Requester} (h : msg.unrequested = true)
    (hfront : c.routes.front = some sender) (outside : Outside) (hheeds : c.Heeds sender msg) :
    ∃ sent, sent ∈ c.replies (c.onUpstream outside msg) := by
  set m := msg.under (msg.replyWord.bind fun word ↦ c.remoteToLocal.lookup word) with hm
  rw [onUpstream_of_unrequested h, hfront]
  dsimp only
  rw [← hm, replies_onLockReply]
  by_cases hsender : sender = .hub
  · cases msg with
    | inputLockDenied pane holder =>
      have hholder := hheeds.resolve_left (not_not_intro hsender)
      rw [under_denied] at hm
      rw [PeerConnection.holder] at hholder
      rcases hlookup : c.inputLocks.lookup (c.callWord pane.1, pane.2) with _ | requester
      · rw [hlookup] at hholder
        cases hholder
      · rcases requester with _ | ⟨client, ctrl⟩
        · rw [hlookup] at hholder
          cases hholder
        · have hd := mem_bereaved.mpr ⟨hsender, _, holder, client, ctrl, hm, hlookup, rfl⟩
          exact ⟨_, List.mem_append_right _ (List.mem_map_of_mem hd)⟩
    | _ => exact absurd hsender hheeds
  · exact ⟨_, List.mem_append_left _ (mem_map_answer.mpr ⟨hsender, rfl⟩)⟩

/-! ## What the other frames are passed on as -/

/-- A frame of a pane is sent to its viewers under the pane's name here. -/
theorem names_of_mem_onPaneFrame {around : Around} {kind : StreamKind} {pane : PaneId}
    {sent : Frame} (h : sent ∈ (c.onPaneFrame around kind pane).2) :
    c.Watched around kind pane ∧ ∃ localPane, c.toLocalPane pane = some localPane ∧
      sent.names = [.ofPane localPane] := by
  rw [onPaneFrame.eq_def] at h
  split at h
  next => exact absurd h List.not_mem_nil
  next localPane hlocal =>
    split at h
    next => exact absurd h List.not_mem_nil
    next p hpane =>
      have hwatched : ∀ client ∈ p.viewers.keys, around.Watches client kind →
          c.Watched around kind pane := fun client hclient hwatches ↦
        ⟨localPane, p, hlocal, hpane, client, hclient, hwatches⟩
      split at h
      · split at h
        next hagrees =>
          obtain ⟨client, hclient, hdigest⟩ := List.mem_filterMap.mp h
          rw [Lane.digest.eq_def] at hdigest
          split at hdigest
          next hlane =>
            rw [← Option.some.inj hdigest]
            exact ⟨hwatched client hclient ⟨hagrees, hlane⟩, localPane, hlocal, rfl⟩
          all_goals cases hdigest
        next => exact absurd h List.not_mem_nil
      · exact absurd h List.not_mem_nil
      next hdigest hlagged =>
        obtain ⟨client, hclient, hshown⟩ := List.mem_filterMap.mp h
        have hwatches : around.lanes client ≠ .paused ∧ around.lanes client ≠ .closed := by
          constructor <;> intro hlane <;> rw [hlane] at hshown <;> cases hshown
        refine ⟨hwatched client hclient ?_, localPane, hlocal, ?_⟩
        · cases kind with
          | gridDigest => exact absurd rfl hdigest
          | lagged => exact absurd rfl hlagged
          | _ => exact hwatches
        · rw [Lane.shown.eq_def] at hshown
          split at hshown
          · rw [← Option.some.inj hshown]
            rfl
          · rw [← Option.some.inj hshown]
            rfl
          · rw [← Option.some.inj hshown]
            rfl
          · cases hshown
          · cases hshown

/-- And to every viewer that takes it. -/
theorem exists_mem_onPaneFrame {around : Around} {kind : StreamKind} {pane : PaneId}
    (h : c.Watched around kind pane) : ∃ sent, sent ∈ (c.onPaneFrame around kind pane).2 := by
  obtain ⟨localPane, p, hlocal, hpane, client, hclient, hwatches⟩ := h
  rw [onPaneFrame.eq_def, hlocal]
  dsimp only
  rw [hpane]
  dsimp only
  have hshown : around.lanes client ≠ .paused ∧ around.lanes client ≠ .closed →
      ∃ sent, sent ∈ (c.fanOut around.lanes kind localPane p).2 := by
    intro hlane
    have hsome : ∃ sent, (around.lanes client).shown kind localPane = some sent := by
      rcases hclient : around.lanes client with _ | _ | _ | _ | _
      · exact ⟨_, rfl⟩
      · exact absurd hclient hlane.1
      · exact ⟨_, rfl⟩
      · exact ⟨_, rfl⟩
      · exact absurd hclient hlane.2
    obtain ⟨sent, hsent⟩ := hsome
    exact ⟨sent, List.mem_filterMap.mpr ⟨client, hclient, hsent⟩⟩
  cases kind with
  | gridDigest =>
    obtain ⟨hagrees, hlane⟩ := hwatches
    dsimp only
    rw [if_pos hagrees]
    exact ⟨_, List.mem_filterMap.mpr ⟨client, hclient, by rw [hlane]; rfl⟩⟩
  | lagged => exact absurd hwatches id
  | _ => exact hshown hwatches

/-- How a frame may change the words: while the peer is open by words drawn, and else not at all. -/
structure Rebooked (c : PeerConnection) (outside : Outside) (c' : PeerConnection) : Prop where
  keyed : c'.Keyed
  drawn : outside.isOpen = true → ∀ w ∈ c'.words, w ∈ c.words ∨ w ∈ outside.drawn
  kept : outside.isOpen = false → c'.words = c.words

theorem SameBook.rebooked {c' : PeerConnection} (h : c.SameBook c') (hkeyed : c.Keyed)
    (outside : Outside) : c.Rebooked outside c' where
  keyed := h.keyed hkeyed
  drawn := fun _ _ hw ↦ .inl (h.words ▸ hw)
  kept := fun _ ↦ h.words

theorem Rebooked.sameBook_left {c₁ c' : PeerConnection} {outside : Outside}
    (h : c₁.Rebooked outside c') (hsame : c.SameBook c₁) : c.Rebooked outside c' where
  keyed := h.keyed
  drawn := hsame.words ▸ h.drawn
  kept := hsame.words ▸ h.kept

theorem Rebooked.sameBook_right {c₁ c' : PeerConnection} {outside : Outside}
    (h : c.Rebooked outside c₁) (hsame : c₁.SameBook c') : c.Rebooked outside c' where
  keyed := hsame.keyed h.keyed
  drawn := hsame.words ▸ h.drawn
  kept := hsame.words ▸ h.kept

theorem rebooked_remoteSessionClosed (h : c.Keyed) (outside : Outside) (remote : WordId) :
    c.Rebooked outside (c.remoteSessionClosed outside.isOpen remote) where
  keyed := h.remoteSessionClosed outside.isOpen remote
  drawn := fun _ _ hw ↦ .inl (mem_words_remoteSessionClosed hw)
  kept := fun hclosed ↦ by
    rw [remoteSessionClosed, hclosed]
    split <;> rfl

theorem rebooked_afterReply (h : c.Keyed) (outside : Outside) (msg : ServerMessage) :
    c.Rebooked outside (c.afterReply outside msg) := by
  rw [afterReply.eq_def]
  split
  · exact rebooked_remoteSessionClosed h outside _
  · exact (SameBook.refl c).rebooked h outside

theorem rebooked_onUpstream (h : c.Keyed) (outside : Outside) (hnodup : outside.drawn.Nodup)
    (hfresh : outside.isOpen = true → ∀ w ∈ outside.drawn, w ∉ c.words) (msg : ServerMessage) :
    c.Rebooked outside (c.onUpstream outside msg) := by
  by_cases hlist : msg.kind = .sessionListResult
  · cases msg with
    | sessionListResult requestId listed =>
      rw [onUpstream.eq_def]
      dsimp only
      split
      next hopen =>
        obtain ⟨left, hbooking⟩ := booking_reconcileSessions outside.peer listed h hnodup
          (hfresh hopen)
        refine ⟨hbooking.keyed, fun _ ↦ hbooking.words, fun hclosed ↦ ?_⟩
        exact absurd (hopen.symm.trans hclosed) Bool.false_ne_true.symm
      next => exact (SameBook.refl c).rebooked h outside
    | _ => cases hlist
  rcases hroute : c.routeOf msg with _ | route
  · rcases hunrequested : msg.unrequested with _ | _
    · exact (onUpstream_ignored hroute hunrequested hlist outside).1.rebooked h outside
    · rw [onUpstream_of_unrequested hunrequested]
      split
      · exact (SameBook.refl c).rebooked h outside
      next sender _ =>
        have hreply := SameBook.onLockReply c sender
          (msg.under (msg.replyWord.bind fun word ↦ c.remoteToLocal.lookup word))
        exact (hreply.rebooked h outside).sameBook_right ⟨rfl, rfl, rfl⟩
  · cases msg with
    | sessionCreated id entry =>
      obtain ⟨c₁, hsame, hafter, _⟩ := onUpstream_created hroute outside
      refine Rebooked.sameBook_left (Rebooked.sameBook_right ?_ hafter) hsame
      split
      next hopen =>
        have hfresh₁ : ∀ w ∈ outside.drawn, w ∉ c₁.words := hsame.words ▸ hfresh hopen
        obtain ⟨hkeyed, hwords, _⟩ :=
          registerCreated_spec outside.peer entry (hsame.keyed h) hfresh₁
        refine ⟨hkeyed, fun _ ↦ hwords, fun hclosed ↦ ?_⟩
        exact absurd (hopen.symm.trans hclosed) Bool.false_ne_true.symm
      next => exact (SameBook.refl c₁).rebooked (hsame.keyed h) outside
    | sessionListResult => exact absurd rfl hlist
    | _ =>
      obtain ⟨c₁, hsame, hup, _⟩ := onUpstream_routed hroute rfl outside
      rw [hup]
      exact (rebooked_afterReply (hsame.keyed h) outside _).sameBook_left hsame

end PeerConnection

/-! ## The words of a hub -/

namespace Hub

open PeerConnection

/-- A word of an open peer is in no other hands, and in no pool. -/
structure Inv (s : Hub) : Prop where
  keyed : s.conn.Keyed
  pool : s.pool.Nodup
  held : s.held.Nodup
  apart : ∀ w ∈ s.pool, w ∉ s.held
  mine : s.isOpen = true → ∀ w ∈ s.conn.words, w ∉ s.pool ∧ w ∉ s.held

variable {s : Hub} {remote word : WordId}

/-- The hub's word for a session is nobody else's. -/
theorem Inv.names_iff (h : s.Inv) : s.Names remote word ↔ s.Current remote word := by
  constructor
  · exact fun hnames ↦ ⟨hnames.1, hnames.2.1⟩
  · rintro ⟨hopen, hlookup⟩
    exact ⟨hopen, hlookup, (h.mine hopen word (mem_words.mpr (mem_of_lookup hlookup))).2⟩

theorem inv_new (peer : PeerId) {pool : List WordId} (hpool : pool.Nodup) :
    (new peer pool).Inv where
  keyed := keyed_new
  pool := hpool
  held := List.nodup_nil
  apart := fun _ _ ↦ List.not_mem_nil
  mine := fun _ _ hw ↦ absurd hw List.not_mem_nil

theorem mem_drawn {order : List WordId} (h : word ∈ s.drawn order) : word ∈ s.pool := by
  rcases List.mem_append.mp h with h | h
  · exact of_decide_eq_true (List.mem_filter.mp (List.mem_dedup.mp h)).2
  · exact (List.mem_filter.mp h).1

theorem Inv.drawn_nodup (h : s.Inv) (order : List WordId) : (s.drawn order).Nodup := by
  refine List.nodup_append.mpr ⟨List.nodup_dedup _, h.pool.filter _, fun w hw w' hw' ↦ ?_⟩
  rintro rfl
  have horder := (List.mem_filter.mp (List.mem_dedup.mp hw)).1
  exact of_decide_eq_true (List.mem_filter.mp hw').2 horder

theorem Inv.drawn_fresh (h : s.Inv) (hopen : s.isOpen = true) (order : List WordId) :
    ∀ w ∈ s.drawn order, w ∉ s.conn.words :=
  fun w hw hmem ↦ (h.mine hopen w hmem).1 (mem_drawn hw)

/-- The connection has taken words from the pool, or given some back. -/
theorem Inv.settle (h : s.Inv) {c : PeerConnection} (hkeyed : c.Keyed)
    (hopen : s.isOpen = true → ∀ w ∈ c.words, w ∈ s.conn.words ∨ w ∈ s.pool)
    (hclosed : s.isOpen = false → c.words = s.conn.words) : (s.settle c).Inv := by
  have hleft : ∀ w ∈ s.conn.words, w ∉ c.words → s.isOpen = true := by
    intro w hw hnot
    by_contra hclose
    rw [hclosed (Bool.not_eq_true _ |>.mp hclose)] at hnot
    exact hnot hw
  have hmem : ∀ w ∈ (s.settle c).pool, (w ∈ s.pool ∨ w ∈ s.conn.words ∧ w ∉ c.words) ∧
      (w ∈ c.words → w ∈ s.conn.words) := by
    intro w hw
    obtain ⟨hw, hnew⟩ := List.mem_filter.mp hw
    rw [List.mem_append, List.mem_filter, decide_eq_true_iff] at hw
    exact ⟨hw, (of_decide_eq_true hnew).resolve_left ∘ not_not_intro⟩
  refine ⟨hkeyed, ?_, h.held, fun w hw ↦ ?_, fun hopen' w hw ↦ ?_⟩
  · refine List.Nodup.filter _ (List.nodup_append.mpr ⟨h.pool, ?_, fun w hw w' hw' ↦ ?_⟩)
    · exact (words_nodup s.conn).filter _
    · rintro rfl
      obtain ⟨hw', hnot⟩ := List.mem_filter.mp hw'
      exact (h.mine (hleft w hw' (of_decide_eq_true hnot)) w hw').1 hw
  · rcases (hmem w hw).1 with hpool | ⟨hwords, hnot⟩
    · exact h.apart w hpool
    · exact (h.mine (hleft w hwords hnot) w hwords).2
  · constructor
    · intro hpool
      obtain ⟨hback, hold⟩ := hmem w hpool
      rcases hback with hback | ⟨_, hnot⟩
      · exact (h.mine hopen' w (hold hw)).1 hback
      · exact hnot hw
    · rcases hopen hopen' w hw with hold | hpool
      · exact (h.mine hopen' w hold).2
      · exact h.apart w hpool

theorem Inv.sameBook (h : s.Inv) {s' : Hub} (hconn : s.conn.SameBook s'.conn)
    (hopen : s'.isOpen = s.isOpen) (hpool : s'.pool = s.pool) (hheld : s'.held = s.held) :
    s'.Inv where
  keyed := hconn.keyed h.keyed
  pool := hpool ▸ h.pool
  held := hheld ▸ h.held
  apart := by
    rw [hpool, hheld]
    exact h.apart
  mine := by
    rw [hopen, hconn.words, hpool, hheld]
    exact h.mine

/-- What an answer does to the words. -/
theorem Inv.reply (h : s.Inv) (around : Around) (msg : ServerMessage) :
    (s.settle (s.conn.onUpstream (s.outside around) msg)).Inv := by
  have hbook := rebooked_onUpstream h.keyed (s.outside around) (h.drawn_nodup around.order)
    (fun hopen ↦ h.drawn_fresh hopen around.order) msg
  refine h.settle hbook.keyed (fun hopen w hw ↦ ?_) hbook.kept
  exact (hbook.drawn hopen w hw).imp_right mem_drawn

theorem Inv.receive (h : s.Inv) (around : Around) (frame : Frame) :
    (s.receive around frame).1.Inv := by
  rw [Hub.receive.eq_def]
  split
  · exact h.reply around _
  · exact h.sameBook (SameBook.onPaneFrame s.conn around _ _) rfl rfl rfl
  next word =>
    have hbook := rebooked_remoteSessionClosed h.keyed (s.outside around) word
    refine h.settle hbook.keyed (fun hopen w hw ↦ ?_) hbook.kept
    exact (hbook.drawn hopen w hw).imp_right mem_drawn
  · refine h.sameBook ?_ rfl rfl rfl
    dsimp only
    split
    · exact SameBook.requestSessionList s.conn
    · exact SameBook.refl s.conn
  · exact h
  · split
    · exact h.sameBook (SameBook.refl s.conn) rfl rfl rfl
    · exact h
  · exact h

theorem Inv.step (h : s.Inv) (e : HubEvent) : (s.step e).Inv := by
  cases e with
  | draw word =>
    rw [Hub.step]
    split
    next hword =>
      refine ⟨h.keyed, h.pool.erase word, ?_, fun w hw ↦ ?_, fun hopen w hw ↦ ?_⟩
      · exact List.nodup_cons.mpr ⟨h.apart word hword, h.held⟩
      · obtain ⟨hne, hw⟩ := (h.pool.mem_erase_iff).mp hw
        exact fun hheld ↦ (List.mem_cons.mp hheld).elim hne (h.apart w hw)
      · obtain ⟨hpool, hheld⟩ := h.mine hopen w hw
        refine ⟨fun hmem ↦ hpool (List.mem_of_mem_erase hmem), fun hmem ↦ ?_⟩
        rcases List.mem_cons.mp hmem with rfl | hmem
        · exact hpool hword
        · exact hheld hmem
    next => exact h
  | release word =>
    rw [Hub.step]
    split
    next hword =>
      refine ⟨h.keyed, ?_, h.held.erase word, fun w hw ↦ ?_, fun hopen w hw ↦ ?_⟩
      · exact List.nodup_cons.mpr ⟨fun hpool ↦ h.apart word hpool hword, h.pool⟩
      · intro hheld
        obtain ⟨hne, hheld⟩ := (h.held.mem_erase_iff).mp hheld
        exact (List.mem_cons.mp hw).elim hne fun hw ↦ h.apart w hw hheld
      · obtain ⟨hpool, hheld⟩ := h.mine hopen w hw
        refine ⟨fun hmem ↦ ?_, fun hmem ↦ hheld (List.mem_of_mem_erase hmem)⟩
        rcases List.mem_cons.mp hmem with rfl | hmem
        · exact hheld hword
        · exact hpool hmem
    next => exact h
  | register entry order =>
    rw [Hub.step.eq_def]
    dsimp only
    split
    next word words hopen hdrawn =>
      have hmem : word ∈ s.drawn order := hdrawn ▸ List.mem_cons_self
      have hfresh := h.drawn_fresh hopen order word hmem
      refine h.settle (h.keyed.registerSession hfresh entry s.peer) (fun _ w hw ↦ ?_)
        fun hclosed ↦ ?_
      · rw [words_registerSession hfresh] at hw
        rcases List.mem_cons.mp hw with rfl | hw
        · exact .inr (mem_drawn hmem)
        · exact .inl hw
      · exact absurd (hopen.symm.trans hclosed) Bool.false_ne_true.symm
    next => exact h
  | traffic conn pendingOverviews => exact h.sameBook ⟨rfl, rfl, rfl⟩ rfl rfl rfl
  | receive around frame => exact h.receive around frame
  | closePeer =>
    rw [Hub.step]
    split
    next hopen =>
      refine ⟨h.keyed, ?_, h.held, fun w hw ↦ ?_, fun hclosed ↦ absurd hclosed Bool.false_ne_true⟩
      · refine List.nodup_append.mpr ⟨h.pool, words_nodup s.conn, fun w hw w' hw' ↦ ?_⟩
        rintro rfl
        exact (h.mine hopen w hw').1 hw
      · rcases List.mem_append.mp hw with hw | hw
        · exact h.apart w hw
        · exact (h.mine hopen w hw).2
    next => exact h

/-- In every state that a hub can reach. -/
theorem inv_exec (peer : PeerId) {pool : List WordId} (hpool : pool.Nodup) (es : List HubEvent) :
    (Run.exec Hub.step (new peer pool) es).Inv :=
  Run.invariant (fun _ e hs ↦ hs.step e) es _ (inv_new peer hpool)

/-! ## Each frame -/

variable {around : Around}

theorem Inv.names_of_mapped (h : s.Inv) (hopen : s.isOpen = true)
    (hlookup : s.conn.remoteToLocal.lookup remote = some word) : s.Names remote word :=
  h.names_iff.mpr ⟨hopen, h.keyed.back remote word hlookup⟩

/-- What is not a list is held against the names before it. -/
theorem localises_reply {before after : WordId → WordId → Prop} {msg : ServerMessage} {sent : Frame}
    (hlists : msg.lists = false) : (Frame.reply msg).Localises before after sent ↔
      ∀ n ∈ sent.names, ∃ remote ∈ msg.names, remote.Localises before n := by
  cases msg with
  | sessionCreated | sessionListResult => cases hlists
  | _ => exact Iff.rfl

theorem keepsNames_stream (h : s.Inv) (kind : StreamKind) (pane : PaneId) :
    s.KeepsNames around (.stream kind pane) ↔ s.Recognises around (.stream kind pane) := by
  constructor
  · intro hkeeps hwatched
    obtain ⟨sent, hsent⟩ := exists_mem_onPaneFrame hwatched
    obtain ⟨_, localPane, _, hnames⟩ := names_of_mem_onPaneFrame hsent
    have hlocalises : ∀ n ∈ sent.names, ∃ remote ∈ [Name.ofPane pane],
      remote.Localises s.Names n := hkeeps sent hsent
    obtain ⟨remote, _, hnamed, _⟩ := hlocalises (.ofPane localPane)
      (hnames ▸ List.mem_singleton_self _)
    exact hnamed.1
  · intro hrecognises sent hsent
    obtain ⟨hwatched, localPane, hlocal, hnames⟩ := names_of_mem_onPaneFrame hsent
    obtain ⟨word, hlookup, rfl⟩ := Option.map_eq_some_iff.mp hlocal
    have hlocalises : ∀ n ∈ sent.names, ∃ remote ∈ [Name.ofPane pane],
        remote.Localises s.Names n := by
      intro n hn
      rw [hnames, List.mem_singleton] at hn
      rw [hn]
      exact ⟨_, List.mem_singleton_self _, h.names_of_mapped (hrecognises hwatched) hlookup, rfl⟩
    exact hlocalises

theorem receive_event (s : Hub) (around : Around) (e : SessionEventMsg) :
    (s.receive around (.event e)).2 = (s.conn.rewriteEventToLocal e).toList.map .event := by
  rw [Hub.receive.eq_def]
  split
  next heq => cases heq
  next heq => cases heq
  next word heq =>
    cases heq
    rw [rewriteEventToLocal, onRemoteSessionClosed]
    rcases s.conn.remoteToLocal.lookup word with _ | w <;> rfl
  next e' _ heq =>
    cases heq
    rfl
  next heq => cases heq
  next heq => cases heq
  next heq => cases heq

theorem rewriteEventToLocal_some {e e' : SessionEventMsg}
    (h : s.conn.rewriteEventToLocal e = some e') : ∃ n word, e.names = [n] ∧
      s.conn.remoteToLocal.lookup n.word = some word ∧ e'.names = [n.under word] := by
  cases e with
  | pane kind pane =>
    obtain ⟨localPane, hlocal, rfl⟩ := Option.map_eq_some_iff.mp h
    obtain ⟨word, hlookup, rfl⟩ := Option.map_eq_some_iff.mp hlocal
    exact ⟨_, word, rfl, hlookup, rfl⟩
  | session kind remote =>
    obtain ⟨word, hlookup, rfl⟩ := Option.map_eq_some_iff.mp h
    exact ⟨_, word, rfl, hlookup, rfl⟩
  | unknown => cases h

theorem rewriteEventToLocal_none {e : SessionEventMsg} (h : s.conn.rewriteEventToLocal e = none)
    {n : Name} (hn : n ∈ e.names) : s.conn.remoteToLocal.lookup n.word = none := by
  cases e with
  | pane kind pane =>
    rw [List.mem_singleton.mp hn]
    exact Option.map_eq_none_iff.mp (Option.map_eq_none_iff.mp h)
  | session kind remote =>
    rw [List.mem_singleton.mp hn]
    exact Option.map_eq_none_iff.mp h
  | unknown => exact absurd hn List.not_mem_nil

theorem keepsNames_event (h : s.Inv) (e : SessionEventMsg) :
    s.KeepsNames around (.event e) ↔ s.Recognises around (.event e) := by
  constructor
  · intro hkeeps n hn
    rcases hrewrite : s.conn.rewriteEventToLocal e with _ | e'
    · exact .inr (rewriteEventToLocal_none hrewrite hn)
    · obtain ⟨n', word, _, _, hnames⟩ := rewriteEventToLocal_some hrewrite
      have hsent : Frame.event e' ∈ (s.receive around (.event e)).2 := by
        rw [receive_event, hrewrite]
        exact List.mem_singleton_self _
      have hlocalises : ∀ n ∈ e'.names, ∃ remote ∈ e.names, remote.Localises s.Names n :=
        hkeeps _ hsent
      obtain ⟨remote, _, hnamed, _⟩ := hlocalises (n'.under word)
        (hnames ▸ List.mem_singleton_self _)
      exact .inl hnamed.1
  · intro hrecognises sent hsent
    rw [receive_event] at hsent
    obtain ⟨e', he', rfl⟩ := List.mem_map.mp hsent
    obtain ⟨n, word, hn, hlookup, hnames⟩ := rewriteEventToLocal_some (Option.mem_toList.mp he')
    have hopen : s.isOpen = true :=
      (hrecognises n (hn ▸ List.mem_singleton_self n)).resolve_right fun hnone ↦ by
        rw [hnone] at hlookup
        cases hlookup
    have hlocalises : ∀ n' ∈ e'.names, ∃ remote ∈ e.names, remote.Localises s.Names n' := by
      intro n' hn'
      rw [hnames, List.mem_singleton] at hn'
      rw [hn', hn]
      exact ⟨n, List.mem_singleton_self n, h.names_of_mapped hopen hlookup, rfl⟩
    exact hlocalises

theorem keepsNames_layoutUpdate (h : s.Inv) (remote : WordId) (tabIndex : ℕ) :
    s.KeepsNames around (.layoutUpdate remote tabIndex) ↔
      s.Recognises around (.layoutUpdate remote tabIndex) := by
  constructor
  · intro hkeeps
    rcases hlookup : s.conn.remoteToLocal.lookup remote with _ | word
    · exact .inr hlookup
    · have hsent : Frame.layoutUpdate word tabIndex ∈
          (s.receive around (.layoutUpdate remote tabIndex)).2 := by
        rw [Hub.receive, hlookup]
        exact List.mem_singleton_self _
      have hlocalises : ∀ n ∈ [Name.ofWord word], ∃ r ∈ [Name.ofWord remote],
        r.Localises s.Names n := hkeeps _ hsent
      obtain ⟨_, _, hnamed, _⟩ := hlocalises _ (List.mem_singleton_self _)
      exact .inl hnamed.1
  · intro hrecognises sent hsent
    rw [Hub.receive] at hsent
    obtain ⟨word, hword, rfl⟩ := List.mem_map.mp hsent
    have hlookup := Option.mem_toList.mp hword
    have hopen : s.isOpen = true := hrecognises.resolve_right fun hnone ↦ by
      rw [hnone] at hlookup
      cases hlookup
    have hlocalises : ∀ n ∈ [Name.ofWord word], ∃ r ∈ [Name.ofWord remote],
        r.Localises s.Names n := by
      intro n hn
      rw [List.mem_singleton.mp hn]
      exact ⟨_, List.mem_singleton_self _, h.names_of_mapped hopen hlookup, rfl⟩
    exact hlocalises

theorem mem_localizeProcesses {c : PeerConnection} {panes : List PaneProcesses}
    {p' : PaneProcesses} : p' ∈ c.localizeProcesses panes ↔
      ∃ p ∈ panes, ∃ word, c.remoteToLocal.lookup p.paneId.1 = some word ∧
        p' = { p with paneId := (word, p.paneId.2) } := by
  rw [localizeProcesses, List.mem_filterMap]
  refine exists_congr fun p ↦ and_congr_right fun _ ↦ ?_
  rw [toLocalPane, Option.map_map, Option.map_eq_some_iff]
  exact exists_congr fun word ↦ and_congr_right fun _ ↦ eq_comm

theorem keepsNames_processes (h : s.Inv) (requestId : RequestId) (panes : List PaneProcesses) :
    s.KeepsNames around (.processOverviewResult requestId panes) ↔
      s.Recognises around (.processOverviewResult requestId panes) := by
  rw [KeepsNames, Hub.receive]
  by_cases hpending : requestId ∈ s.pendingOverviews
  · rw [if_pos hpending]
    constructor
    · intro hkeeps _ p hp
      rcases hlookup : s.conn.remoteToLocal.lookup p.paneId.1 with _ | word
      · exact .inr hlookup
      · have hlocalises : ∀ p' ∈ s.conn.localizeProcesses panes, ∃ p ∈ panes,
          p.Localises s.Names p' := hkeeps _ (List.mem_singleton_self _)
        obtain ⟨_, _, _, hnamed, _⟩ :=
          hlocalises _ (mem_localizeProcesses.mpr ⟨p, hp, word, hlookup, rfl⟩)
        exact .inl hnamed.1
    · intro hrecognises sent hsent
      rw [List.mem_singleton.mp hsent]
      have hlocalises : ∀ p' ∈ s.conn.localizeProcesses panes, ∃ p ∈ panes,
          p.Localises s.Names p' := by
        intro p' hp'
        obtain ⟨p, hp, word, hlookup, rfl⟩ := mem_localizeProcesses.mp hp'
        have hopen : s.isOpen = true := (hrecognises hpending p hp).resolve_right fun hnone ↦ by
          rw [hnone] at hlookup
          cases hlookup
        exact ⟨p, hp, rfl, h.names_of_mapped hopen hlookup, rfl⟩
      exact hlocalises
  · rw [if_neg hpending]
    exact ⟨fun _ hmem ↦ absurd hmem hpending, fun _ sent hsent ↦ absurd hsent List.not_mem_nil⟩

/-! ## Each answer -/

/-- Nothing is broadcast but the end of a session and a list. -/
theorem mem_broadcasts {c : PeerConnection} {msg : ServerMessage} {sent : Frame}
    (hlist : msg.kind ≠ .sessionListResult) (h : sent ∈ s.broadcasts c msg) :
    ∃ id remote word, msg = .sessionClosed id remote ∧ (s.conn.routeOf msg).isSome ∧
      s.conn.remoteToLocal.lookup remote = some word ∧ sent = .closure word := by
  cases msg with
  | sessionClosed id remote =>
    rw [broadcasts.eq_def] at h
    dsimp only at h
    split at h
    next hroute =>
      obtain ⟨word, hword, rfl⟩ := List.mem_map.mp h
      exact ⟨id, remote, word, rfl, hroute, Option.mem_toList.mp hword, rfl⟩
    next => exact absurd h List.not_mem_nil
  | sessionListResult => exact absurd rfl hlist
  | _ => exact absurd h List.not_mem_nil

variable {msg : ServerMessage} {route : Route}

theorem keepsNames_routed (h : s.Inv) (hroute : s.conn.routeOf msg = some route)
    (hlists : msg.lists = false) :
    s.KeepsNames around (.reply msg) ↔ s.Recognises around (.reply msg) := by
  have hlist : msg.kind ≠ .sessionListResult := by
    cases msg with
    | sessionListResult => cases hlists
    | _ => exact Kind.noConfusion
  obtain ⟨_, _, _, hreplies⟩ := onUpstream_routed hroute hlists (s.outside around)
  have hnames : ((msg.under route.localWord).setReplyRequestId route.requestId).names =
      msg.names.map fun n ↦ n.under (route.localWord.getD n.word) := by
    rw [ServerMessage.names_setReplyRequestId, ServerMessage.names_under hlists]
  -- the answer goes to whoever waits, the closure to everybody
  have hmem : ∀ sent, sent ∈ (s.receive around (.reply msg)).2 ↔
      (route.sender ≠ .hub ∧
        sent = .reply ((msg.under route.localWord).setReplyRequestId route.requestId)) ∨
      sent ∈ s.broadcasts (s.conn.onUpstream (s.outside around) msg) msg := by
    intro sent
    rw [Hub.receive, List.mem_append, hreplies, mem_map_answer]
  rw [Recognises, RecognisesReply, hroute]
  dsimp only
  constructor
  · intro hkeeps
    refine ⟨fun _ hsender n hn ↦ ?_, fun hclosed n hn ↦ ?_⟩
    · have hlocalises := (localises_reply hlists).mp
        (hkeeps _ ((hmem _).mpr (.inl ⟨hsender, rfl⟩)))
      obtain ⟨remote, hremote, hnamed, hindex⟩ := hlocalises
        (n.under (route.localWord.getD n.word)) (by
          rw [Frame.names, hnames]
          exact List.mem_map_of_mem hn)
      obtain rfl := ServerMessage.names_inj hlists hn hremote hindex
      exact h.names_iff.mp hnamed
    · cases msg with
      | sessionClosed id remote =>
        rw [List.mem_singleton.mp hn]
        -- a session the connection does not know is closed silently
        rcases hlookup : s.conn.remoteToLocal.lookup remote with _ | word
        · exact .inr hlookup
        · have hsent : Frame.closure word ∈ s.broadcasts
              (s.conn.onUpstream (s.outside around) (.sessionClosed id remote))
                (.sessionClosed id remote) := by
            rw [broadcasts.eq_def]
            dsimp only
            rw [if_pos (by rw [hroute]; rfl), hlookup]
            exact List.mem_singleton_self _
          have hlocalises := (localises_reply hlists).mp (hkeeps _ ((hmem _).mpr (.inr hsent)))
          obtain ⟨_, _, hnamed, _⟩ := hlocalises _ (List.mem_singleton_self _)
          exact .inl hnamed.1
      | _ => cases hclosed
  · rintro ⟨hanswer, hclosed⟩ sent hsent
    rw [localises_reply hlists]
    intro n' hn'
    rcases (hmem sent).mp hsent with ⟨hsender, rfl⟩ | hsent
    · rw [Frame.names, hnames] at hn'
      obtain ⟨n, hn, rfl⟩ := List.mem_map.mp hn'
      exact ⟨n, hn, h.names_iff.mpr (hanswer hlists hsender n hn), rfl⟩
    · obtain ⟨id, remote, word, rfl, _, hlookup, rfl⟩ := mem_broadcasts hlist hsent
      rw [List.mem_singleton.mp hn']
      have hopen : s.isOpen = true :=
        (hclosed rfl _ (List.mem_singleton_self _)).resolve_right fun hnone ↦ by
          rw [Name.ofWord] at hnone
          dsimp only at hnone
          rw [hnone] at hlookup
          cases hlookup
      exact ⟨_, List.mem_singleton_self _, h.names_of_mapped hopen hlookup, rfl⟩

/-- The answer to a create is in the session's own word, or names none. -/
theorem keepsNames_created (h : s.Inv) {id : RequestId} {entry : SessionEntry}
    (hroute : s.conn.routeOf (.sessionCreated id entry) = some route) :
    s.KeepsNames around (.reply (.sessionCreated id entry)) := by
  intro sent hsent
  rw [Hub.receive, broadcasts.eq_def, List.append_nil] at hsent
  have hinv := h.reply around (.sessionCreated id entry)
  obtain ⟨c₁, hsame, hafter, hmem⟩ := onUpstream_created hroute (s.outside around)
  rcases hmem sent hsent with ⟨e', he', rfl⟩ | hnil
  · by_cases hopen : (s.outside around).isOpen = true
    · rw [if_pos hopen] at he' hafter
      have hfresh : ∀ w ∈ (s.outside around).drawn, w ∉ c₁.words :=
        hsame.words ▸ h.drawn_fresh hopen around.order
      obtain ⟨_, _, hlocalises⟩ :=
        registerCreated_spec (s.outside around).peer entry (hsame.keyed h.keyed) hfresh
      obtain ⟨hlookup, hpanes⟩ := hlocalises e' he'
      rw [← hafter.localToRemote] at hlookup
      have hlisted : entry.Localises (s.receive around (.reply (.sessionCreated id entry))).1.Names
          e' := ⟨hinv.names_iff.mpr ⟨hopen, hlookup⟩, hpanes⟩
      exact hlisted
    · rw [if_neg hopen] at he'
      exact absurd he' (Option.not_mem_none e')
  · rw [Frame.Localises.eq_def]
    split
    next heq => cases heq
    next heq => cases heq
    next heq _ =>
      cases hnil
    next heq => cases heq
    next =>
      rw [hnil]
      exact fun n hn ↦ absurd hn List.not_mem_nil

theorem keepsNames_unrequested (h : s.Inv) (hunrequested : msg.unrequested = true) :
    s.KeepsNames around (.reply msg) ↔ s.Recognises around (.reply msg) := by
  have hroute : s.conn.routeOf msg = none := by
    rw [routeOf, ServerMessage.replyRequestId_eq_none_of_unrequested hunrequested]
    rfl
  have hlists : msg.lists = false := by
    cases msg with
    | sessionCreated | sessionListResult => cases hunrequested
    | _ => rfl
  have hlist : msg.kind ≠ .sessionListResult := by
    cases msg with
    | sessionListResult => cases hunrequested
    | _ => exact Kind.noConfusion
  have hmem : ∀ sent, sent ∈ (s.receive around (.reply msg)).2 ↔
      sent ∈ s.conn.replies (s.conn.onUpstream (s.outside around) msg) := by
    intro sent
    rw [Hub.receive, List.mem_append]
    refine or_iff_left fun hsent ↦ ?_
    obtain ⟨_, _, _, _, hsome, _⟩ := mem_broadcasts hlist hsent
    rw [hroute] at hsome
    cases hsome
  rw [Recognises, RecognisesReply, hroute]
  dsimp only
  constructor
  · intro hkeeps _ sender hsender hheeds n hn
    obtain ⟨sent, hsent⟩ := exists_mem_replies hunrequested hsender (s.outside around) hheeds
    obtain ⟨_, hnames⟩ := names_of_mem_replies hunrequested hsender (s.outside around) hsent
    have hlocalises := (localises_reply hlists).mp (hkeeps sent ((hmem sent).mpr hsent))
    obtain ⟨remote, hremote, hnamed, hindex⟩ :=
      hlocalises (n.under (s.conn.callWord n.word)) (hnames ▸ List.mem_map_of_mem hn)
    obtain rfl := ServerMessage.names_inj hlists hn hremote hindex
    exact h.names_iff.mp hnamed
  · intro hrecognises sent hsent
    rw [localises_reply hlists]
    intro n' hn'
    rcases hfront : s.conn.routes.front with _ | sender
    · have hnone := (hmem sent).mp hsent
      rw [onUpstream_of_unrequested hunrequested, hfront, replies, List.drop_length,
        List.drop_length] at hnone
      exact absurd hnone List.not_mem_nil
    · obtain ⟨hheeds, hnames⟩ :=
        names_of_mem_replies hunrequested hfront (s.outside around) ((hmem sent).mp hsent)
      rw [hnames] at hn'
      obtain ⟨n, hn, rfl⟩ := List.mem_map.mp hn'
      exact ⟨n, hn, h.names_iff.mpr (hrecognises hunrequested sender hfront hheeds n hn), rfl⟩

theorem keepsNames_ignored (hroute : s.conn.routeOf msg = none)
    (hunrequested : msg.unrequested = false) (hlist : msg.kind ≠ .sessionListResult) :
    s.KeepsNames around (.reply msg) := by
  intro sent hsent
  rw [Hub.receive, (onUpstream_ignored hroute hunrequested hlist (s.outside around)).2,
    List.nil_append] at hsent
  obtain ⟨_, _, _, _, hsome, _⟩ := mem_broadcasts hlist hsent
  rw [hroute] at hsome
  cases hsome

theorem told_reconcileSessions (c : PeerConnection) (peer : PeerId) (listed : List SessionEntry)
    (drawn : List WordId) : (c.reconcileSessions peer listed drawn).told = c.told := by
  have hgone : ∀ (l : List WordId) (c : PeerConnection),
      (l.foldl unregisterSession c).told = c.told := by
    intro l
    induction l with
    | nil => exact fun _ ↦ rfl
    | cons w l ih => exact fun c ↦ ih (c.unregisterSession w)
  have hlisted : ∀ (l : List SessionEntry) (t : PeerConnection × List WordId),
      (l.foldl (reconcileSessions.step peer) t).1.told = t.1.told := by
    intro l
    induction l with
    | nil => exact fun _ ↦ rfl
    | cons e l ih =>
      intro t
      refine (ih _).trans ?_
      obtain ⟨c, words⟩ := t
      rw [reconcileSessions.step.eq_def]
      dsimp only
      split <;> rfl
  rw [reconcileSessions]
  exact (hlisted listed _).trans (hgone _ c)

/-- A list shows the peer's sessions under their own words, and closes the others. -/
theorem keepsNames_list (h : s.Inv) (id : RequestId) (listed : List SessionEntry) :
    s.KeepsNames around (.reply (.sessionListResult id listed)) := by
  intro sent hsent
  have hinv := h.reply around (.sessionListResult id listed)
  rw [Hub.receive] at hsent ⊢
  dsimp only at hsent hinv ⊢
  rcases hopen : s.isOpen with _ | _
  · have hkept : s.conn.onUpstream (s.outside around) (.sessionListResult id listed) = s.conn := by
      have hclosed : (s.outside around).isOpen ≠ true := by
        rw [outside, hopen]
        exact Bool.false_ne_true
      rw [onUpstream.eq_def]
      exact if_neg hclosed
    rw [hkept, broadcasts.eq_def, replies, List.drop_length, List.drop_length] at hsent
    dsimp only at hsent
    rw [hopen, if_neg Bool.false_ne_true] at hsent
    exact absurd hsent List.not_mem_nil
  · have hup : s.conn.onUpstream (s.outside around) (.sessionListResult id listed) =
        s.conn.reconcileSessions s.peer listed (s.drawn around.order) := by
      rw [onUpstream.eq_def]
      exact if_pos hopen
    rw [hup] at hsent hinv ⊢
    obtain ⟨left, hbooking⟩ := booking_reconcileSessions s.peer listed h.keyed
      (h.drawn_nodup around.order) (h.drawn_fresh hopen around.order)
    set c := s.conn.reconcileSessions s.peer listed (s.drawn around.order) with hc
    have hsilent : s.conn.replies c = [] := by
      have hplain := Plain.reconcileSessions s.conn s.peer listed (s.drawn around.order)
      rw [replies, hc, hplain.relayed, told_reconcileSessions, List.drop_length, List.drop_length]
      rfl
    rw [hsilent, List.nil_append, broadcasts.eq_def] at hsent
    dsimp only at hsent
    rw [hopen, if_pos rfl, List.mem_append, List.mem_singleton] at hsent
    rcases hsent with hsent | rfl
    · obtain ⟨word, hword, rfl⟩ := List.mem_map.mp hsent
      obtain ⟨remote, hlookup, hnot⟩ := not_listed_of_gone hword
      exact ⟨remote, h.names_iff.mpr ⟨hopen, hlookup⟩, hnot⟩
    · have hlocalises : ∀ e' ∈ c.sessions.entries.map fun e ↦ e.2, ∃ e ∈ listed,
          e.Localises (s.settle c).Names e' := by
        intro e' he'
        obtain ⟨⟨word, entry⟩, hentry, rfl⟩ := List.mem_map.mp he'
        have hsession := AList.mem_lookup_iff.mpr hentry
        obtain ⟨hword, hpanes⟩ := hbooking.keyed.entry word entry hsession
        obtain ⟨remote, hlookup⟩ := Option.isSome_iff_exists.mp
          (AList.lookup_isSome.mpr (hbooking.keyed.mapped word entry hsession))
        obtain ⟨e, he, rfl⟩ := hbooking.listed word remote hlookup
        refine ⟨e, he, ?_⟩
        rw [SessionEntry.Localises, hword]
        exact ⟨hinv.names_iff.mpr ⟨hopen, hlookup⟩, hpanes⟩
      exact hlocalises

/-- **Which frames reach the clients in the hub's words.** -/
theorem Inv.keepsNames_iff (h : s.Inv) (around : Around) (frame : Frame) :
    s.KeepsNames around frame ↔ s.Recognises around frame := by
  cases frame with
  | stream kind pane => exact keepsNames_stream h kind pane
  | event e => exact keepsNames_event h e
  | layoutUpdate word tabIndex => exact keepsNames_layoutUpdate h word tabIndex
  | processOverviewResult requestId panes => exact keepsNames_processes h requestId panes
  | other => exact ⟨fun _ ↦ trivial, fun _ sent hsent ↦ absurd hsent List.not_mem_nil⟩
  | reply msg =>
    rcases hunrequested : msg.unrequested with _ | _
    · rcases hroute : s.conn.routeOf msg with _ | route
      · have hrecognises : s.Recognises around (.reply msg) := by
          rw [Recognises, RecognisesReply, hroute]
          exact fun hun ↦ absurd (hunrequested.symm.trans hun) Bool.false_ne_true
        refine iff_of_true ?_ hrecognises
        by_cases hlist : msg.kind = .sessionListResult
        · cases msg with
          | sessionListResult id listed => exact keepsNames_list h id listed
          | _ => cases hlist
        · exact keepsNames_ignored hroute hunrequested hlist
      · rcases hlists : msg.lists with _ | _
        · exact keepsNames_routed h hroute hlists
        · cases msg with
          | sessionCreated id entry =>
            refine iff_of_true (keepsNames_created h hroute) ?_
            rw [Recognises, RecognisesReply, hroute]
            exact ⟨fun hnot ↦ absurd hnot Bool.noConfusion, fun hkind ↦ Kind.noConfusion hkind⟩
          | sessionListResult => cases hroute
          | _ => cases hlists
    · exact keepsNames_unrequested h hunrequested

end Hub

/-! ## What goes up the link -/

/-- What a client asks of a proxied session. -/
inductive Request
  | forward (call : ℕ) (sender : Requester) (msg : ClientMessage)
  | requestInputLock (call : ℕ) (sender : Requester) (pane : PaneId)
  | releaseInputLock (sender : Requester) (pane : PaneId)
  | attachViewer (pane : PaneId) (client : ClientId) (ctrl : ChannelId) (size : TermSize)
  | resizeViewer (pane : PaneId) (client : ClientId) (size : TermSize)
  | detachViewer (pane : PaneId) (client : ClientId)
  deriving DecidableEq, Repr

/-- What the request is about, in the hub's words. -/
def Request.names : Request → List Name
  | forward _ _ msg => msg.names
  | requestInputLock _ _ pane | releaseInputLock _ pane | attachViewer pane _ _ _
  | resizeViewer pane _ _ | detachViewer pane _ => [.ofPane pane]

namespace PeerConnection

variable {c : PeerConnection}

/-- What a request does to the connection. -/
def request (c : PeerConnection) : Request → PeerConnection
  | .forward call sender msg =>
    match msg.federation with
    | .forward target requestId => (c.forward call sender msg target requestId).1
    | _ => c
  | .requestInputLock call sender pane => (c.requestInputLock call sender pane).1
  | .releaseInputLock sender pane => (c.releaseInputLock sender pane).1
  | .attachViewer pane client ctrl size => c.attachViewer pane client ctrl size
  | .resizeViewer pane client size => c.resizeViewer pane client size
  | .detachViewer pane client => c.releaseViewer pane client

/-- The peer's name for what a request is about. -/
def RemoteName (c : PeerConnection) (names : List Name) (n : Name) : Prop :=
  ∃ l ∈ names, c.localToRemote.lookup l.word = some n.word ∧ n.index = l.index

/-- What a connection has sent names nothing but what is allowed. -/
def Sends (ok : Name → Prop) (c c' : PeerConnection) : Prop :=
  ∃ sents, c'.clientTx.queue = c.clientTx.queue ++ sents ∧ ∀ x ∈ sents, ∀ n ∈ x.msg.names, ok n

namespace Sends

variable {ok : Name → Prop} {c' c'' : PeerConnection}

theorem keep (h : c'.clientTx.queue = c.clientTx.queue) : Sends ok c c' :=
  ⟨[], by rw [h, List.append_nil], fun _ hx ↦ absurd hx List.not_mem_nil⟩

theorem trans (h : Sends ok c c') (h' : Sends ok c' c'') : Sends ok c c'' := by
  obtain ⟨sents, hqueue, hsents⟩ := h
  obtain ⟨sents', hqueue', hsents'⟩ := h'
  refine ⟨sents ++ sents', by rw [hqueue', hqueue, List.append_assoc], fun x hx ↦ ?_⟩
  rcases List.mem_append.mp hx with hx | hx
  · exact hsents x hx
  · exact hsents' x hx

theorem outlet {tx tx' : Outlet} {x : Sent} (h : tx.send x = some tx') :
    tx'.queue = tx.queue ++ [x] := by
  rw [Outlet.send] at h
  split at h
  · cases h
  · rw [← Option.some.inj h]

theorem push (c : PeerConnection) {x : Sent} (hx : ∀ n ∈ x.msg.names, ok n) :
    Sends ok c (c.push x) := by
  rw [PeerConnection.push]
  rcases hsend : c.clientTx.send x with _ | tx
  · exact keep rfl
  · refine ⟨[x], outlet hsend, fun y hy ↦ ?_⟩
    rw [List.mem_singleton.mp hy]
    exact hx

theorem barrier (c : PeerConnection) (sender : Requester) : Sends ok c (c.barrier sender) := by
  rw [PeerConnection.barrier]
  split
  next routes seq _ =>
    exact push { c with routes } (x := pingSent seq) fun n hn ↦ absurd hn List.not_mem_nil
  next => exact keep rfl

theorem send (c : PeerConnection) (sender : Requester) {msg : ClientMessage} (call : Option ℕ)
    (hmsg : ∀ n ∈ msg.names, ok n) : Sends ok c (c.send sender msg call) :=
  (barrier c sender).trans (push _ hmsg)

/-- A message about one pane. -/
theorem send_pane (c : PeerConnection) (sender : Requester) {msg : ClientMessage} {pane : PaneId}
    (call : Option ℕ) (hnames : msg.names = [.ofPane pane]) (hpane : ok (.ofPane pane)) :
    Sends ok c (c.send sender msg call) :=
  send c sender call fun n hn ↦ by
    rw [hnames, List.mem_singleton] at hn
    rw [hn]
    exact hpane

theorem reconcileSize (c : PeerConnection) (pane remote : PaneId) (h : ok (.ofPane remote)) :
    Sends ok c (c.reconcileSize pane remote) := by
  rw [PeerConnection.reconcileSize]
  split
  · split
    · exact keep rfl
    · exact (keep rfl).trans (send_pane _ .hub none rfl h)
  · exact keep rfl

end Sends

theorem remoteName_of_toRemotePane {pane remote : PaneId} (h : c.toRemotePane pane = some remote) :
    c.RemoteName [.ofPane pane] (.ofPane remote) := by
  obtain ⟨word, hlookup, rfl⟩ := Option.map_eq_some_iff.mp h
  exact ⟨_, List.mem_singleton_self _, hlookup, rfl⟩

theorem retarget_session {writer : Option Requester} {word : WordId} {remote : Target}
    (h : c.retarget writer (.session word) = .ok remote) :
    ∃ r, remote = .session r ∧ c.localToRemote.lookup word = some r := by
  rw [retarget] at h
  split at h
  next r hlookup => exact ⟨r, (Except.ok.inj h).symm, hlookup⟩
  next => cases h

theorem retarget_pane {writer : Option Requester} {pane : PaneId} {remote : Target}
    (h : c.retarget writer (.pane pane) = .ok remote) :
    ∃ r, remote = .pane r ∧ c.toRemotePane pane = some r := by
  have hremote : ∀ remote, c.remotePane pane = .ok remote →
      ∃ r, remote = .pane r ∧ c.toRemotePane pane = some r := by
    intro remote h
    rw [remotePane] at h
    split at h
    next r hpane => exact ⟨r, (Except.ok.inj h).symm, hpane⟩
    next => cases h
  rw [retarget.eq_def] at h
  dsimp only at h
  split at h
  · split at h
    · cases h
    · exact hremote remote h
  · exact hremote remote h

/-- A message with its target rewritten names what it named, in the peer's words. -/
theorem names_of_retarget {writer : Option Requester} {msg : ClientMessage} {target remote : Target}
    {requestId hubId : Option RequestId} (hfederation : msg.federation = .forward target requestId)
    (h : c.retarget writer target = .ok remote) (hid : hubId.isSome = requestId.isSome) {n : Name}
    (hn : n ∈ (msg.rewrite remote hubId).names) : c.RemoteName msg.names n := by
  cases msg with
  | sessionCreate id peer =>
    have hnil : ((ClientMessage.sessionCreate id peer).rewrite remote hubId).names = [] := by
      rw [ClientMessage.rewrite.eq_def]
      split <;> first | rfl | (next heq => cases heq)
    rw [hnil] at hn
    exact absurd hn List.not_mem_nil
  | sessionRequest kind id word =>
    obtain ⟨htarget, hrequest⟩ := Disposition.forward.inj hfederation
    rw [← htarget] at h
    rw [← hrequest] at hid
    obtain ⟨r, rfl, hlookup⟩ := retarget_session h
    rcases hubId with _ | hubId
    · cases hid
    · rw [List.mem_singleton.mp hn]
      exact ⟨_, List.mem_singleton_self _, hlookup, rfl⟩
  | sessionNudge kind word =>
    obtain ⟨htarget, _⟩ := Disposition.forward.inj hfederation
    rw [← htarget] at h
    obtain ⟨r, rfl, hlookup⟩ := retarget_session h
    rw [List.mem_singleton.mp hn]
    exact ⟨_, List.mem_singleton_self _, hlookup, rfl⟩
  | paneRequest kind id pane =>
    obtain ⟨htarget, hrequest⟩ := Disposition.forward.inj hfederation
    rw [← htarget] at h
    rw [← hrequest] at hid
    obtain ⟨r, rfl, hpane⟩ := retarget_pane h
    rcases hubId with _ | hubId
    · cases hid
    · rw [List.mem_singleton.mp hn]
      exact remoteName_of_toRemotePane hpane
  | paneInput kind pane =>
    obtain ⟨htarget, _⟩ := Disposition.forward.inj hfederation
    rw [← htarget] at h
    obtain ⟨r, rfl, hpane⟩ := retarget_pane h
    rw [List.mem_singleton.mp hn]
    exact remoteName_of_toRemotePane hpane
  | _ => cases hfederation

theorem sends_forward (call : ℕ) (sender : Requester) {msg : ClientMessage} {target : Target}
    {requestId : Option RequestId} (hfederation : msg.federation = .forward target requestId) :
    Sends (c.RemoteName msg.names) c (c.forward call sender msg target requestId).1 := by
  rw [forward.eq_def]
  split
  · exact .keep rfl
  · split
    · exact .keep rfl
    next remote hremote =>
      dsimp only
      refine (Sends.barrier c sender).trans ?_
      split
      next clientId =>
        split
        next tx htx =>
          refine ⟨_, Sends.outlet htx, fun x hx n hn ↦ ?_⟩
          rw [List.mem_singleton.mp hx] at hn
          exact names_of_retarget hfederation hremote (by rfl) hn
        next => exact .keep rfl
      next =>
        split
        next tx htx =>
          refine ⟨_, Sends.outlet htx, fun x hx n hn ↦ ?_⟩
          rw [List.mem_singleton.mp hx] at hn
          exact names_of_retarget hfederation hremote (by rfl) hn
        next => exact .keep rfl

theorem sends_giveBack (pane : PaneId) :
    Sends (c.RemoteName [.ofPane pane]) c (c.giveBack pane) := by
  rw [giveBack]
  split
  next remote hremote =>
    exact (Sends.keep rfl).trans (Sends.send_pane _ .hub none rfl
      (remoteName_of_toRemotePane hremote))
  next => exact .keep rfl

/-- **A request goes up the link under the peer's names for what it is about.** -/
theorem sends_request (c : PeerConnection) (q : Request) :
    Sends (c.RemoteName q.names) c (c.request q) := by
  cases q with
  | forward call sender msg =>
    rw [request.eq_def]
    dsimp only
    split
    next target requestId hfederation => exact sends_forward call sender hfederation
    next => exact .keep rfl
  | requestInputLock call sender pane =>
    -- the question is put under the name the peer knows the pane by, or not at all
    have hask : Sends (c.RemoteName [.ofPane pane]) c (c.askForLock call sender pane).1 := by
      rw [askForLock]
      split
      next remote hremote =>
        exact Sends.send_pane c sender _ rfl (remoteName_of_toRemotePane hremote)
      next => exact .keep rfl
    rw [request, PeerConnection.requestInputLock]
    split
    · split
      · exact .keep rfl
      · exact hask
    · exact hask
  | releaseInputLock sender pane =>
    rw [request, PeerConnection.releaseInputLock]
    split
    · split
      next remote hremote =>
        exact Sends.send_pane c sender _ rfl (remoteName_of_toRemotePane hremote)
      next => exact .keep rfl
    · exact .keep rfl
  | attachViewer pane client ctrl size =>
    rw [request, PeerConnection.attachViewer]
    split
    · exact .keep rfl
    next remote hremote =>
      -- coming back on another channel moves the lock there, and sends nothing
      have hlock : Sends (c.RemoteName [.ofPane pane]) c (if c.holder pane = some client then
          { c with inputLocks := c.inputLocks.insert pane (.client client ctrl) } else c) := by
        split <;> exact .keep rfl
      refine hlock.trans ?_
      generalize (if c.holder pane = some client then
        { c with inputLocks := c.inputLocks.insert pane (.client client ctrl) } else c) = c'
      dsimp only
      split
      · exact (Sends.keep rfl).trans
          (Sends.reconcileSize _ pane remote (remoteName_of_toRemotePane hremote))
      · exact (Sends.keep rfl).trans
          (Sends.send_pane _ _ none rfl (remoteName_of_toRemotePane hremote))
  | resizeViewer pane client size =>
    rw [request, PeerConnection.resizeViewer]
    split
    · exact .keep rfl
    next remote hremote =>
      have hname := remoteName_of_toRemotePane hremote
      split
      · split
        · exact (Sends.keep rfl).trans (Sends.reconcileSize _ pane remote hname)
        · exact Sends.reconcileSize c pane remote hname
      · exact .keep rfl
  | detachViewer pane client =>
    rw [request, PeerConnection.releaseViewer]
    split
    · exact .keep rfl
    next remote hremote =>
      have hname := remoteName_of_toRemotePane hremote
      have hlock : Sends (c.RemoteName [.ofPane pane]) c
          (if c.holder pane = some client then c.giveBack pane else c) := by
        split
        · exact sends_giveBack pane
        · exact .keep rfl
      refine hlock.trans ?_
      generalize (if c.holder pane = some client then c.giveBack pane else c) = c'
      dsimp only
      split
      · exact .keep rfl
      · split
        · exact (Sends.keep rfl).trans (Sends.send_pane _ .hub none rfl hname)
        · exact (Sends.keep rfl).trans (Sends.reconcileSize _ pane remote hname)

end PeerConnection

namespace Hub

/-- **No foreign name crosses a hub, but in four kinds of frames**, in every state that it can
reach: an answer for a request whose word is not the session's any more, or that was for no session,
an answer without an id for a session that is not mapped any more, and any frame that names a
session of a peer that has been closed. Requests go up under the peer's names, always. -/
theorem no_foreign_name_iff (peer : PeerId) {pool : List WordId} (hpool : pool.Nodup)
    (es : List HubEvent) :
    (∀ around frame, (Run.exec Hub.step (new peer pool) es).KeepsNames around frame ↔
      (Run.exec Hub.step (new peer pool) es).Recognises around frame) ∧
    ∀ q : Request, PeerConnection.Sends
      ((Run.exec Hub.step (new peer pool) es).conn.RemoteName q.names)
      (Run.exec Hub.step (new peer pool) es).conn
      ((Run.exec Hub.step (new peer pool) es).conn.request q) :=
  ⟨fun around frame ↦ (inv_exec peer hpool es).keepsNames_iff around frame,
    fun q ↦ PeerConnection.sends_request _ q⟩

/-- The peer's session `oak` is the hub's `elm`, and the connection has gone through `traffic`. -/
def opened (traffic : PeerConnection → PeerConnection) : List HubEvent :=
  let entry : SessionEntry := ⟨"oak", "work", none, []⟩
  [.register entry [],
    .traffic (traffic (PeerConnection.new.registerSession "elm" "oak" entry "p")) []]

/-- Nobody views a pane. -/
def quiet : Around := { order := [], lanes := fun _ ↦ .takes, agrees := true }

/-- Client 1 asks for a tab. -/
def tabAsked (c : PeerConnection) : PeerConnection :=
  c.request (.forward 0 (.client 1 0) (.sessionRequest .tabCreate 7 "elm"))

/-- And for the lock of a pane. -/
def lockAsked (c : PeerConnection) : PeerConnection :=
  c.request (.requestInputLock 0 (.client 1 0) ("elm", 0))

-- the answer comes while the session is mapped
theorem no_foreign_name_tab :
    (Run.exec Hub.step (new "p" ["elm", "fir"]) (opened tabAsked)).KeepsNames quiet
      (.reply (.tabCreated 2 "oak")) ∧
    ((Run.exec Hub.step (new "p" ["elm", "fir"]) (opened tabAsked)).receive quiet
      (.reply (.tabCreated 2 "oak"))).2 = [.reply (.tabCreated 7 "elm")] := by
  refine ⟨((no_foreign_name_iff "p" (by decide) (opened tabAsked)).1 quiet _).mpr ?_, by decide⟩
  have hroute : (Run.exec Hub.step (new "p" ["elm", "fir"]) (opened tabAsked)).conn.routeOf
      (.tabCreated 2 "oak") = some ⟨.client 1 0, 7, some "elm", 0⟩ := by decide
  rw [Recognises, RecognisesReply, hroute]
  refine ⟨fun _ _ n hn ↦ ?_, fun hkind ↦ Kind.noConfusion hkind⟩
  rw [List.mem_singleton.mp hn]
  exact ⟨by decide, by decide⟩

/-- A lock is granted after the session was closed, and `oak` is a session of the hub's own; a tab
is made after it, and `elm` is; and the peer is closed, and `elm` is. -/
theorem foreign_name_crosses :
    (let s := Run.exec Hub.step (new "p" ["elm", "oak"])
      (opened lockAsked ++ [.receive quiet (.event (.session .sessionClosed "oak")), .draw "oak"])
    ¬ s.KeepsNames quiet (.reply (.inputLockGranted ("oak", 0))) ∧ "oak" ∈ s.held ∧
      (s.receive quiet (.reply (.inputLockGranted ("oak", 0)))).2 =
        [.reply (.inputLockGranted ("oak", 0))]) ∧
    (let s := Run.exec Hub.step (new "p" ["elm"])
      (opened tabAsked ++ [.receive quiet (.event (.session .sessionClosed "oak")), .draw "elm"])
    ¬ s.KeepsNames quiet (.reply (.tabCreated 2 "oak")) ∧ "elm" ∈ s.held ∧
      (s.receive quiet (.reply (.tabCreated 2 "oak"))).2 = [.reply (.tabCreated 7 "elm")]) ∧
    (let s := Run.exec Hub.step (new "p" ["elm"]) (opened id ++ [.closePeer, .draw "elm"])
    ¬ s.KeepsNames quiet (.layoutUpdate "oak" 0) ∧ "elm" ∈ s.held ∧
      (s.receive quiet (.layoutUpdate "oak" 0)).2 = [.layoutUpdate "elm" 0]) := by
  refine ⟨⟨fun h ↦ ?_, by decide, by decide⟩, ⟨fun h ↦ ?_, by decide, by decide⟩,
    ⟨fun h ↦ ?_, by decide, by decide⟩⟩
  · have hsaid : ∀ n ∈ [Name.ofPane ("oak", 0)], ∃ remote ∈ [Name.ofPane ("oak", 0)],
      remote.Localises _ n := h (.reply (.inputLockGranted ("oak", 0))) (by decide)
    obtain ⟨remote, _, ⟨_, hlookup, _⟩, _⟩ := hsaid _ (List.mem_singleton_self _)
    exact absurd (mem_of_lookup hlookup) (by decide)
  · have hsaid : ∀ n ∈ [Name.ofWord "elm"], ∃ remote ∈ [Name.ofWord "oak"],
      remote.Localises _ n := h (.reply (.tabCreated 7 "elm")) (by decide)
    obtain ⟨remote, _, ⟨_, hlookup, _⟩, _⟩ := hsaid _ (List.mem_singleton_self _)
    exact absurd (mem_of_lookup hlookup) (by decide)
  · have hsaid : ∀ n ∈ [Name.ofWord "elm"], ∃ remote ∈ [Name.ofWord "oak"],
      remote.Localises _ n := h (.layoutUpdate "elm" 0) (by decide)
    obtain ⟨remote, _, ⟨hopen, _⟩, _⟩ := hsaid _ (List.mem_singleton_self _)
    exact absurd hopen (by decide)

end Hub

end Federation

end Kmux
