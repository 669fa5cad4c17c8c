import Kmux.Federation.Names
import Kmux.Federation.Words

/-!
# The listings of a connection

A connection finds its word for a session of the peer by `remoteToLocal`, and lists the session
under that word, its panes included (`Keyed`). Only three operations touch this: a session is
registered under a word that is fresh, its listing is refreshed, or it is forgotten. A list of the
peer's does all three (`Booking`); everything else that a frame does leaves the listings alone
(`SameBook`).
-/

namespace Kmux

namespace Federation

/-! ## The words a connection lists its sessions under -/

namespace PeerConnection

/-- The words are mapped back to the sessions they are found by, and every listing is under its own
word throughout. -/
structure Keyed (c : PeerConnection) : Prop where
  back : ∀ remote word, c.remoteToLocal.lookup remote = some word →
    c.localToRemote.lookup word = some remote
  mapped : ∀ word entry, c.sessions.lookup word = some entry → word ∈ c.localToRemote
  entry : ∀ word entry, c.sessions.lookup word = some entry →
    entry.wordId = word ∧ ∀ p ∈ entry.panes, p.paneId = (word, p.paneIndex)

/-- Two connections with the same words and the same listings. -/
structure SameBook (c c' : PeerConnection) : Prop where
  localToRemote : c'.localToRemote = c.localToRemote
  remoteToLocal : c'.remoteToLocal = c.remoteToLocal
  sessions : c'.sessions = c.sessions

namespace SameBook

variable {c c' c'' : PeerConnection}

theorem refl (c : PeerConnection) : c.SameBook c := ⟨rfl, rfl, rfl⟩

theorem trans (h : c.SameBook c') (h' : c'.SameBook c'') : c.SameBook c'' where
  localToRemote := h'.localToRemote.trans h.localToRemote
  remoteToLocal := h'.remoteToLocal.trans h.remoteToLocal
  sessions := h'.sessions.trans h.sessions

theorem words (h : c.SameBook c') : c'.words = c.words := by
  rw [PeerConnection.words, PeerConnection.words, h.localToRemote]

theorem keyed (h : c.SameBook c') (hkeyed : c.Keyed) : c'.Keyed where
  back := by
    rw [h.localToRemote, h.remoteToLocal]
    exact hkeyed.back
  mapped := by
    rw [h.localToRemote, h.sessions]
    exact hkeyed.mapped
  entry := by
    rw [h.sessions]
    exact hkeyed.entry

theorem foldl {α : Type*} {f : PeerConnection → α → PeerConnection}
    (hf : ∀ (c : PeerConnection) a, c.SameBook (f c a)) (l : List α) (c : PeerConnection) :
    c.SameBook (l.foldl f c) := by
  induction l generalizing c with
  | nil => exact refl c
  | cons a l ih => exact (hf c a).trans (ih (f c a))

theorem barrier (c : PeerConnection) (sender : Requester) : c.SameBook (c.barrier sender) := by
  rw [PeerConnection.barrier]
  split <;> exact ⟨rfl, rfl, rfl⟩

theorem send (c : PeerConnection) (sender : Requester) (msg : ClientMessage) (call : Option ℕ) :
    c.SameBook (c.send sender msg call) := (barrier c sender).trans ⟨rfl, rfl, rfl⟩

theorem resync (c : PeerConnection) (pane : PaneId) : c.SameBook (c.resync pane) := by
  rw [PeerConnection.resync]
  split
  · exact send c .hub _ none
  · exact refl c

theorem dropViewer (c : PeerConnection) (pane : PaneId) (client : ClientId) :
    c.SameBook (c.dropViewer pane client) := by
  rw [PeerConnection.dropViewer]
  split
  · exact ⟨rfl, rfl, rfl⟩
  · exact refl c

theorem requestSessionList (c : PeerConnection) : c.SameBook c.requestSessionList := by
  rw [PeerConnection.requestSessionList]
  refine SameBook.trans ?_ (send _ .hub _ none)
  exact ⟨rfl, rfl, rfl⟩

theorem relock (c : PeerConnection) (pane : PaneId) : c.SameBook (c.relock pane) := by
  rw [PeerConnection.relock]
  split
  · exact send c .hub _ none
  · exact refl c

theorem lockReleased (c : PeerConnection) (pane : PaneId) (sender : Requester) :
    c.SameBook (c.lockReleased pane sender) := by
  rw [PeerConnection.lockReleased]
  split
  · exact refl c
  · split
    · exact ⟨rfl, rfl, rfl⟩
    · split
      · exact relock c pane
      · exact refl c

theorem lockRefused (c : PeerConnection) (pane : PaneId) (sender : Requester) :
    c.SameBook (c.lockRefused pane sender) := by
  rw [PeerConnection.lockRefused]
  split
  · exact refl c
  · split
    · split
      · split <;> exact ⟨rfl, rfl, rfl⟩
      · exact refl c
    · exact refl c

theorem recordGrant (c : PeerConnection) (sender : Requester) (pane : PaneId) :
    c.SameBook (c.recordGrant sender pane) := by
  rw [PeerConnection.recordGrant]
  split
  · exact ⟨rfl, rfl, rfl⟩
  · split
    · exact send c .hub _ none
    · exact refl c

theorem onLockReply (c : PeerConnection) (sender : Requester) (msg : ServerMessage) :
    c.SameBook (c.onLockReply sender msg).1 := by
  rw [PeerConnection.onLockReply.eq_def]
  split
  · split
    · split
      · exact refl c
      · exact recordGrant c sender _
    · exact recordGrant c sender _
  · exact lockReleased c _ sender
  · exact lockRefused c _ sender
  · exact refl c

theorem onPaneFrame (c : PeerConnection) (around : Around) (kind : StreamKind) (pane : PaneId) :
    c.SameBook (c.onPaneFrame around kind pane).1 := by
  rw [PeerConnection.onPaneFrame.eq_def]
  split
  · exact refl c
  · split
    · exact refl c
    · split
      · split
        · exact refl c
        · exact resync c _
      · exact resync c _
      · exact foldl (fun c client ↦ dropViewer c _ client) _ c

end SameBook

variable {c : PeerConnection} {word remote : WordId}

theorem keyed_new : PeerConnection.new.Keyed where
  back := fun _ _ h ↦ by cases h
  mapped := fun _ _ h ↦ by cases h
  entry := fun _ _ h ↦ by cases h

theorem entry_localizeEntry (entry : SessionEntry) (word : WordId) (peer : PeerId) :
    (localizeEntry entry word peer).wordId = word ∧
      ∀ p ∈ (localizeEntry entry word peer).panes, p.paneId = (word, p.paneIndex) := by
  refine ⟨rfl, fun p hp ↦ ?_⟩
  obtain ⟨q, _, rfl⟩ := List.mem_map.mp hp
  rfl

theorem Keyed.registerSession (h : c.Keyed) (hword : word ∉ c.words) (entry : SessionEntry)
    (peer : PeerId) : (c.registerSession word remote entry peer).Keyed where
  back := fun remote' word' hlookup ↦ by
    rw [PeerConnection.registerSession] at hlookup ⊢
    rcases lookup_insert_some hlookup with ⟨rfl, rfl⟩ | ⟨_, hlookup⟩
    · exact AList.lookup_insert _
    · have hback := h.back remote' word' hlookup
      have hne : word' ≠ word := by
        rintro rfl
        exact hword (mem_words.mpr (mem_of_lookup hback))
      exact (AList.lookup_insert_ne hne).trans hback
  mapped := fun word' entry' hlookup ↦ by
    rw [PeerConnection.registerSession] at hlookup ⊢
    refine AList.mem_insert _ |>.mpr ?_
    rcases lookup_insert_some hlookup with ⟨rfl, _⟩ | ⟨_, hlookup⟩
    · exact .inl rfl
    · exact .inr (h.mapped word' entry' hlookup)
  entry := fun word' entry' hlookup ↦ by
    rw [PeerConnection.registerSession] at hlookup
    rcases lookup_insert_some hlookup with ⟨rfl, rfl⟩ | ⟨_, hlookup⟩
    · exact entry_localizeEntry entry word' peer
    · exact h.entry word' entry' hlookup

theorem Keyed.unregisterSession (h : c.Keyed) (word : WordId) :
    (c.unregisterSession word).Keyed where
  back := fun remote' word' hlookup ↦ by
    have hmem : c.remoteToLocal.lookup remote' = some word' ∧ word' ≠ word := by
      rw [PeerConnection.unregisterSession] at hlookup
      dsimp only at hlookup
      split at hlookup
      next remote hremote =>
        obtain ⟨hne, hlookup⟩ := lookup_erase_some hlookup
        refine ⟨hlookup, fun heq ↦ hne ?_⟩
        have hback := h.back remote' word' hlookup
        rw [heq, hremote, Option.some.injEq] at hback
        exact hback.symm
      next hnone =>
        refine ⟨hlookup, fun heq ↦ ?_⟩
        have hback := h.back remote' word' hlookup
        rw [heq, hnone] at hback
        cases hback
    exact (AList.lookup_erase_ne hmem.2).trans (h.back remote' word' hmem.1)
  mapped := fun word' entry' hlookup ↦ by
    obtain ⟨hne, hlookup⟩ := lookup_erase_some hlookup
    exact AList.mem_erase.mpr ⟨hne, h.mapped word' entry' hlookup⟩
  entry := fun word' entry' hlookup ↦ h.entry word' entry' (lookup_erase_some hlookup).2

/-- The listing of a session is refreshed. -/
theorem Keyed.refresh (h : c.Keyed) (hword : c.remoteToLocal.lookup remote = some word)
    (entry : SessionEntry) (peer : PeerId) :
    { c with sessions := c.sessions.insert word (localizeEntry entry word peer) }.Keyed where
  back := h.back
  mapped := fun word' entry' hlookup ↦ by
    rcases lookup_insert_some hlookup with ⟨rfl, _⟩ | ⟨_, hlookup⟩
    · exact mem_of_lookup (h.back remote word' hword)
    · exact h.mapped word' entry' hlookup
  entry := fun word' entry' hlookup ↦ by
    rcases lookup_insert_some hlookup with ⟨rfl, rfl⟩ | ⟨_, hlookup⟩
    · exact entry_localizeEntry entry word' peer
    · exact h.entry word' entry' hlookup

theorem Keyed.remoteSessionClosed (h : c.Keyed) (isOpen : Bool) (remote : WordId) :
    (c.remoteSessionClosed isOpen remote).Keyed := by
  rw [PeerConnection.remoteSessionClosed]
  split
  · split
    · exact h.unregisterSession _
    · exact h
  · exact h

theorem mem_words_unregisterSession {word' : WordId}
    (h : word' ∈ (c.unregisterSession word).words) : word' ∈ c.words := by
  rw [words_unregisterSession] at h
  exact List.mem_of_mem_erase h

theorem mem_words_remoteSessionClosed {isOpen : Bool} {word' : WordId}
    (h : word' ∈ (c.remoteSessionClosed isOpen remote).words) : word' ∈ c.words := by
  rw [PeerConnection.remoteSessionClosed] at h
  split at h
  · split at h
    · exact mem_words_unregisterSession h
    · exact h
  · exact h

/-- A connection that has taken some of the words `drawn`, and gone through some of a list. -/
structure Booking (c : PeerConnection) (drawn : List WordId) (listed : List SessionEntry)
    (s : PeerConnection × List WordId) : Prop where
  keyed : s.1.Keyed
  nodup : s.2.Nodup
  left : ∀ w ∈ s.2, w ∈ drawn ∧ w ∉ s.1.words
  words : ∀ w ∈ s.1.words, w ∈ c.words ∨ w ∈ drawn
  listed : ∀ w remote, s.1.localToRemote.lookup w = some remote →
    ∃ e ∈ listed, e.wordId = remote

private theorem lookup_foldl_unregister (l : List WordId) (c : PeerConnection)
    (h : (l.foldl unregisterSession c).localToRemote.lookup word = some remote) :
    word ∉ l ∧ c.localToRemote.lookup word = some remote := by
  induction l generalizing c with
  | nil => exact ⟨List.not_mem_nil, h⟩
  | cons w l ih =>
    obtain ⟨hl, hlookup⟩ := ih (c.unregisterSession w) h
    obtain ⟨hne, hlookup⟩ := lookup_erase_some hlookup
    exact ⟨fun hmem ↦ (List.mem_cons.mp hmem).elim hne hl, hlookup⟩

private theorem keyed_foldl_unregister (l : List WordId) (h : c.Keyed) :
    (l.foldl unregisterSession c).Keyed := by
  induction l generalizing c with
  | nil => exact h
  | cons w l ih => exact ih (h.unregisterSession w)

private theorem words_foldl_unregister (l : List WordId)
    (h : word ∈ (l.foldl unregisterSession c).words) : word ∈ c.words := by
  induction l generalizing c with
  | nil => exact h
  | cons w l ih => exact mem_words_unregisterSession (ih h)

/-- A word that is not gone is of a session on the list. -/
theorem listed_of_not_gone {listed : List SessionEntry}
    (hlookup : c.localToRemote.lookup word = some remote) (h : word ∉ c.gone listed) :
    ∃ e ∈ listed, e.wordId = remote := by
  by_contra hnone
  refine h (List.mem_filter.mpr ⟨mem_words.mpr (mem_of_lookup hlookup), ?_⟩)
  rw [hlookup, Option.any_some, List.all_eq_true]
  exact fun e he ↦ decide_eq_true fun heq ↦ hnone ⟨e, he, heq⟩

theorem not_listed_of_gone {listed : List SessionEntry} (h : word ∈ c.gone listed) :
    ∃ remote, c.localToRemote.lookup word = some remote ∧ ∀ e ∈ listed, e.wordId ≠ remote := by
  obtain ⟨_, hany⟩ := List.mem_filter.mp h
  rw [Option.any_eq_true] at hany
  obtain ⟨remote, hlookup, hall⟩ := hany
  exact ⟨remote, hlookup, fun e he ↦ of_decide_eq_true (List.all_eq_true.mp hall e he)⟩

theorem booking_gone {drawn : List WordId} (listed : List SessionEntry) (h : c.Keyed)
    (hnodup : drawn.Nodup) (hfresh : ∀ w ∈ drawn, w ∉ c.words) :
    c.Booking drawn listed ((c.gone listed).foldl unregisterSession c, drawn) where
  keyed := keyed_foldl_unregister _ h
  nodup := hnodup
  left := fun w hw ↦ ⟨hw, fun hmem ↦ hfresh w hw (words_foldl_unregister _ hmem)⟩
  words := fun w hw ↦ .inl (words_foldl_unregister _ hw)
  listed := fun w remote hlookup ↦ by
    obtain ⟨hgone, hlookup⟩ := lookup_foldl_unregister _ c hlookup
    exact listed_of_not_gone hlookup hgone

/-- A session of the peer is listed under a word drawn for it. -/
theorem Booking.register {drawn words : List WordId} {listed : List SessionEntry}
    {c₁ : PeerConnection} (h : c.Booking drawn listed (c₁, word :: words)) {entry : SessionEntry}
    (hentry : entry ∈ listed) (peer : PeerId) :
    c.Booking drawn listed (c₁.registerSession word entry.wordId entry peer, words) := by
  obtain ⟨hdrawn, hword⟩ := h.left word List.mem_cons_self
  obtain ⟨hnot, hnodup⟩ := List.nodup_cons.mp h.nodup
  have hwords : (c₁.registerSession word entry.wordId entry peer).words = word :: c₁.words :=
    words_registerSession hword entry peer
  refine ⟨h.keyed.registerSession hword entry peer, hnodup, ?_, ?_, ?_⟩
  · intro w hw
    obtain ⟨hw', hfresh⟩ := h.left w (List.mem_cons_of_mem word hw)
    refine ⟨hw', ?_⟩
    rw [hwords, List.mem_cons, not_or]
    exact ⟨fun heq ↦ hnot (heq ▸ hw), hfresh⟩
  · intro w hw
    rw [hwords, List.mem_cons] at hw
    rcases hw with rfl | hw
    · exact .inr hdrawn
    · exact h.words w hw
  · intro w remote hlookup
    rcases lookup_insert_some hlookup with ⟨_, rfl⟩ | ⟨_, hlookup⟩
    · exact ⟨entry, hentry, rfl⟩
    · exact h.listed w remote hlookup

theorem Booking.step {drawn : List WordId} {listed : List SessionEntry}
    {s : PeerConnection × List WordId} (h : c.Booking drawn listed s) {entry : SessionEntry}
    (hentry : entry ∈ listed) (peer : PeerId) :
    c.Booking drawn listed (reconcileSessions.step peer s entry) := by
  obtain ⟨c₁, words⟩ := s
  rw [reconcileSessions.step.eq_def]
  dsimp only
  split
  next w _ hlookup =>
    exact ⟨h.keyed.refresh hlookup entry peer, h.nodup, h.left, h.words, h.listed⟩
  next => exact ⟨h.keyed, h.nodup, h.left, h.words, h.listed⟩
  next => exact h.register hentry peer

theorem booking_reconcileSessions {drawn : List WordId} (peer : PeerId)
    (listed : List SessionEntry) (h : c.Keyed) (hnodup : drawn.Nodup)
    (hfresh : ∀ w ∈ drawn, w ∉ c.words) :
    ∃ left, c.Booking drawn listed (c.reconcileSessions peer listed drawn, left) := by
  have hfold : ∀ (l : List SessionEntry) (s : PeerConnection × List WordId),
      (∀ e ∈ l, e ∈ listed) → c.Booking drawn listed s →
        c.Booking drawn listed (l.foldl (reconcileSessions.step peer) s) := by
    intro l
    induction l with
    | nil => exact fun _ _ hs ↦ hs
    | cons entry l ih =>
      intro s hl hs
      exact ih _ (fun e he ↦ hl e (List.mem_cons_of_mem entry he))
        (hs.step (hl entry List.mem_cons_self) peer)
  exact ⟨_, hfold listed _ (fun _ he ↦ he) (booking_gone listed h hnodup hfresh)⟩

/-- A session that the peer created is listed, under a word of its own, when it is listed at all. -/
theorem registerCreated_spec {drawn : List WordId} (peer : PeerId) (entry : SessionEntry)
    (h : c.Keyed) (hfresh : ∀ w ∈ drawn, w ∉ c.words) :
    (c.registerCreated peer entry drawn.head?).1.Keyed ∧
      (∀ w ∈ (c.registerCreated peer entry drawn.head?).1.words, w ∈ c.words ∨ w ∈ drawn) ∧
      ∀ e' ∈ (c.registerCreated peer entry drawn.head?).2, entry.Localises
        (fun remote word ↦ (c.registerCreated peer entry drawn.head?).1.localToRemote.lookup word =
          some remote) e' := by
  rw [registerCreated.eq_def]
  split
  next registered hregistered =>
    obtain ⟨word, hword, hlookup⟩ := Option.bind_eq_some_iff.mp hregistered
    refine ⟨h, fun w hw ↦ .inl hw, fun e' he' ↦ ?_⟩
    obtain rfl := Option.some.inj he'
    obtain ⟨hid, hpanes⟩ := h.entry word registered hlookup
    rw [SessionEntry.Localises, hid]
    exact ⟨h.back _ _ hword, hpanes⟩
  next =>
    rcases drawn with _ | ⟨word, drawn⟩
    · exact ⟨h, fun w hw ↦ .inl hw, fun e' he' ↦ absurd he' (Option.not_mem_none e')⟩
    · have hword := hfresh word List.mem_cons_self
      refine ⟨h.registerSession hword entry peer, fun w hw ↦ ?_, fun e' he' ↦ ?_⟩
      · dsimp only [List.head?_cons] at hw
        rw [words_registerSession hword, List.mem_cons] at hw
        rcases hw with rfl | hw
        · exact .inr List.mem_cons_self
        · exact .inl hw
      · have he : localizeEntry entry word peer = e' := by
          rw [← Option.some.injEq, ← Option.mem_def.mp he']
          exact (AList.lookup_insert c.sessions).symm
        rw [← he]
        exact ⟨AList.lookup_insert c.localToRemote, (entry_localizeEntry entry word peer).2⟩

end PeerConnection

end Federation

end Kmux
