import Kmux.Federation.PeerManager
import Kmux.Lib.Ownership

/-!
# The words of federated sessions

The two word maps of a connection are inverse to each other and name the sessions it lists, the word
index leads from every word of an open peer to that peer, every word has one owner (`Ownership`),
and the end of a listed session is broadcast once, when nobody else has its word. This survives
every step but three: a frame that closes a session of a connection that is not a peer's, which
broadcasts a second time, and may take a word from its new owner; a first list that names a session
twice; and a draw of a word between its release and the broadcast that names it.
-/

namespace Kmux

namespace Federation

section Maps

variable {κ α : Type*} [DecidableEq κ]

theorem lookup_insert_some {m : AList fun _ : κ ↦ α} {k k' : κ} {a b : α}
    (h : (m.insert k a).lookup k' = some b) :
    k' = k ∧ b = a ∨ k' ≠ k ∧ m.lookup k' = some b := by
  by_cases hk : k' = k
  · rw [hk, AList.lookup_insert, Option.some.injEq] at h
    exact .inl ⟨hk, h.symm⟩
  · rw [AList.lookup_insert_ne hk] at h
    exact .inr ⟨hk, h⟩

theorem lookup_erase_some {m : AList fun _ : κ ↦ α} {k k' : κ} {b : α}
    (h : (m.erase k).lookup k' = some b) : k' ≠ k ∧ m.lookup k' = some b := by
  by_cases hk : k' = k
  · rw [hk, AList.lookup_erase] at h
    cases h
  · rw [AList.lookup_erase_ne hk] at h
    exact ⟨hk, h⟩

theorem mem_of_lookup {m : AList fun _ : κ ↦ α} {k : κ} {a : α} (h : m.lookup k = some a) :
    k ∈ m := AList.lookup_isSome.mp (by rw [h]; rfl)

end Maps

/-! ## The maps of a connection -/

namespace PeerConnection

/-- The word maps are inverse to each other, and list the sessions. -/
structure Mapped (c : PeerConnection) : Prop where
  inverse : ∀ word remote, c.localToRemote.lookup word = some remote ↔
    c.remoteToLocal.lookup remote = some word
  sessions : ∀ word, word ∈ c.sessions ↔ word ∈ c.localToRemote

variable {c : PeerConnection} {word remote : WordId}

theorem mem_words : word ∈ c.words ↔ word ∈ c.localToRemote := AList.mem_keys.symm

theorem words_nodup (c : PeerConnection) : c.words.Nodup := AList.keys_nodup _

theorem mapped_new : PeerConnection.new.Mapped where
  inverse := fun word remote ↦ ⟨fun h ↦ (by cases h), fun h ↦ (by cases h)⟩
  sessions := fun _ ↦ Iff.rfl

theorem words_registerSession (hword : word ∉ c.words) (entry : SessionEntry) (peer : PeerId) :
    (c.registerSession word remote entry peer).words = word :: c.words := by
  rw [words, registerSession, AList.keys_insert, ← words, List.erase_of_not_mem hword]

theorem words_unregisterSession (c : PeerConnection) (word : WordId) :
    (c.unregisterSession word).words = c.words.erase word := AList.keys_erase _ _

theorem Mapped.registerSession (h : c.Mapped) (hword : word ∉ c.words)
    (hremote : c.remoteToLocal.lookup remote = none) (entry : SessionEntry) (peer : PeerId) :
    (c.registerSession word remote entry peer).Mapped where
  inverse := fun word' remote' ↦ by
    have hfresh : c.localToRemote.lookup word = none :=
      AList.lookup_eq_none.mpr fun hmem ↦ hword (mem_words.mpr hmem)
    rw [PeerConnection.registerSession]
    dsimp only
    constructor
    · intro hlookup
      rcases lookup_insert_some hlookup with ⟨rfl, rfl⟩ | ⟨hne, hlookup⟩
      · exact AList.lookup_insert _
      · have hback := (h.inverse word' remote').mp hlookup
        rw [AList.lookup_insert_ne]
        · exact hback
        · rintro rfl
          rw [hremote] at hback
          cases hback
    · intro hlookup
      rcases lookup_insert_some hlookup with ⟨rfl, rfl⟩ | ⟨hne, hlookup⟩
      · exact AList.lookup_insert _
      · have hback := (h.inverse word' remote').mpr hlookup
        rw [AList.lookup_insert_ne]
        · exact hback
        · rintro rfl
          rw [hfresh] at hback
          cases hback
  sessions := fun word' ↦ by
    rw [PeerConnection.registerSession]
    dsimp only
    rw [AList.mem_insert, AList.mem_insert, h.sessions]

theorem Mapped.unregisterSession (h : c.Mapped) (word : WordId) :
    (c.unregisterSession word).Mapped where
  inverse := fun word' remote' ↦ by
    rw [PeerConnection.unregisterSession]
    dsimp only
    rcases hword : c.localToRemote.lookup word with _ | remote
    · dsimp only
      rw [← h.inverse]
      constructor
      · exact fun hlookup ↦ (lookup_erase_some hlookup).2
      · intro hlookup
        rw [AList.lookup_erase_ne]
        · exact hlookup
        · rintro rfl
          rw [hword] at hlookup
          cases hlookup
    · dsimp only
      constructor
      · intro hlookup
        obtain ⟨hne, hlookup⟩ := lookup_erase_some hlookup
        rw [AList.lookup_erase_ne]
        · exact (h.inverse word' remote').mp hlookup
        · rintro rfl
          have hback := (h.inverse word remote').mp hword
          rw [(h.inverse word' remote').mp hlookup, Option.some.injEq] at hback
          exact hne hback
      · intro hlookup
        obtain ⟨hne, hlookup⟩ := lookup_erase_some hlookup
        rw [AList.lookup_erase_ne]
        · exact (h.inverse word' remote').mpr hlookup
        · rintro rfl
          have hback := (h.inverse word' remote').mpr hlookup
          rw [hword, Option.some.injEq] at hback
          exact hne hback.symm
  sessions := fun word' ↦ by
    rw [PeerConnection.unregisterSession]
    dsimp only
    rw [AList.mem_erase, AList.mem_erase, h.sessions]

/-- The listing of a session is refreshed. -/
theorem Mapped.refresh (h : c.Mapped) (hword : c.remoteToLocal.lookup remote = some word)
    (entry : SessionEntry) : { c with sessions := c.sessions.insert word entry }.Mapped where
  inverse := h.inverse
  sessions := fun word' ↦ by
    dsimp only
    rw [AList.mem_insert, h.sessions, or_iff_right_of_imp]
    rintro rfl
    exact mem_of_lookup ((h.inverse word' remote).mpr hword)

end PeerConnection

/-! ## The property -/

namespace Act

/-- The word of a closed peer that has still to return to the pool. -/
def forgotten? : Act → Option WordId
  | .forget _ word => some word
  | _ => none

def unregistered? : Act → Option WordId
  | .unregister _ word => some word
  | _ => none

/-- The session whose end has still to be broadcast, and that is not listed any more. -/
def leaving? : Act → Option (ℕ × WordId)
  | .forget id word | .announce id word => some (id, word)
  | _ => none

def isAnnounce : Act → Bool
  | .announce _ _ => true
  | _ => false

end Act

namespace PeerManager

/-- The words of a peer being closed that have not returned to the pool. -/
def closing (s : PeerManager) : List WordId := s.gate.filterMap Act.forgotten?

def leaving (s : PeerManager) : List (ℕ × WordId) := s.gate.filterMap Act.leaving?

/-- Whether a connection lists a session under a word, as one of an open peer. -/
def Lists (s : PeerManager) (id : ℕ) (word : WordId) : Prop :=
  id ∈ s.peerIds ∧ word ∈ (s.conn id).words

instance decidableLists (s : PeerManager) (id : ℕ) (word : WordId) : Decidable (s.Lists id word) :=
  inferInstanceAs (Decidable (_ ∧ _))

/-- How often the end of a session has been broadcast. -/
def broadcasts (s : PeerManager) (id : ℕ) (word : WordId) : ℕ :=
  s.closed.countP fun a ↦ decide (a.id = id ∧ a.word = word)

/-- The words of the federated sessions are in order. -/
structure Federated (s : PeerManager) : Prop where
  mapped : ∀ peer id, s.peers.lookup peer = some id → (s.conn id).Mapped
  /-- The words of a peer are those the index leads to it, but for what a peer being closed has not
  taken out yet. -/
  index : ∀ peer id, s.peers.lookup peer = some id → ∀ word,
    word ∈ (s.conn id).words ↔ s.wordIndex.lookup word = some peer ∧ word ∉ s.closing
  /-- No word of a peer is in the pool, a local session's, or another connection's. -/
  owner : ∀ peer id, s.peers.lookup peer = some id → ∀ word ∈ (s.conn id).words,
    word ∉ s.pool ∧ word ∉ s.locals ∧ (∀ o ∈ s.opening, word ∉ (s.conn o.1).words) ∧
      ∀ peer' id', s.peers.lookup peer' = some id' → word ∈ (s.conn id').words → peer' = peer
  /-- A session is listed, on its way out, or has been broadcast as closed: each of its times. -/
  once : ∀ id word, s.listed.count (id, word) =
    s.broadcasts id word + s.leaving.count (id, word) + if s.Lists id word then 1 else 0
  /-- Every broadcast named a word that no other session had. -/
  clear : ∀ a ∈ s.closed, a.clear

/-- The word that has been released and not yet been announced. -/
def awaiting (s : PeerManager) : Option WordId :=
  match s.gate with
  | .announce _ word :: _ => some word
  | _ => none

/-- What the hub keeps order through. -/
def Guarded (s : PeerManager) : PeerEvent → Prop
  | .localCreate choice => ∀ word ∈ s.draw choice, s.awaiting ≠ some word
  | .register id entry choice => id ∈ s.opening.map Prod.fst → ∀ word ∈ s.draw choice,
    s.awaiting ≠ some word ∧ (s.conn id).remoteToLocal.lookup entry.wordId = none
  | .remoteClosed id remoteWord => s.gate = [] →
    ((s.conn id).remoteToLocal.lookup remoteWord).isSome → id ∈ s.peerIds
  | _ => True

instance decidableGuarded (s : PeerManager) : (e : PeerEvent) → Decidable (s.Guarded e)
  | .localCreate _ => inferInstanceAs (Decidable (∀ word ∈ _, _))
  | .register .. => inferInstanceAs (Decidable (_ → ∀ word ∈ _, _))
  | .remoteClosed .. => inferInstanceAs (Decidable (_ → _ → _))
  | .localClose .. | .connect .. | .publish .. | .reconcile .. | .relink .. | .created ..
  | .closePeer .. | .work .. => .isTrue trivial

/-! ## The invariant -/

/-- Who may have a word. -/
inductive Owner
  | pool
  | locals
  | conn (id : ℕ)
  /-- The peer being closed. -/
  | gate

def holds (s : PeerManager) : Owner → List WordId
  | .pool => s.pool
  | .locals => s.locals
  | .conn id => if id ∈ s.live then (s.conn id).words else []
  | .gate => s.closing

structure Inv (s : PeerManager) : Prop where
  ids : s.live.Nodup
  made : ∀ id ∈ s.live, id < s.made
  mapped : ∀ id, (s.conn id).Mapped
  custody : Ownership s.holds
  indexed : ∀ peer id, s.peers.lookup peer = some id → ∀ word ∈ (s.conn id).words,
    s.wordIndex.lookup word = some peer
  index : ∀ word peer, s.wordIndex.lookup word = some peer →
    (∃ id, s.peers.lookup peer = some id ∧ word ∈ (s.conn id).words) ∨ word ∈ s.closing
  /-- Only what comes next may be an announcement, -/
  orderly : ∀ a ∈ s.gate.tail, a.isAnnounce = false
  /-- of a word that is still in the pool. -/
  awaited : ∀ word, s.awaiting = some word → word ∈ s.pool
  unregistering : ∀ id word, .unregister id word ∈ s.gate → s.Lists id word
  unregistering_nodup : (s.gate.filterMap Act.unregistered?).Nodup
  entering : ∀ id peer entry, .enter id peer entry ∈ s.gate ∨ .create id peer entry ∈ s.gate →
    s.peers.lookup peer = some id
  once : ∀ id word, s.listed.count (id, word) =
    s.broadcasts id word + s.leaving.count (id, word) + if s.Lists id word then 1 else 0
  clear : ∀ a ∈ s.closed, a.clear

variable {s s' : PeerManager} {id : ℕ} {peer : PeerId} {word : WordId}

theorem mem_peerIds : id ∈ s.peerIds ↔ ∃ peer, s.peers.lookup peer = some id := by
  constructor
  · intro h
    obtain ⟨e, he, rfl⟩ := List.mem_map.mp h
    exact ⟨e.1, AList.mem_lookup_iff.mpr he⟩
  · rintro ⟨peer, h⟩
    exact List.mem_map.mpr ⟨⟨peer, id⟩, AList.mem_lookup_iff.mp h, rfl⟩

theorem live_of_peers (h : s.peers.lookup peer = some id) : id ∈ s.live :=
  List.mem_append_right _ (mem_peerIds.mpr ⟨peer, h⟩)

theorem holds_live (h : id ∈ s.live) : s.holds (.conn id) = (s.conn id).words := if_pos h

theorem holds_not_live (h : id ∉ s.live) : s.holds (.conn id) = [] := if_neg h

theorem mem_draw {choice : WordId} (h : word ∈ s.draw choice) : word ∈ s.pool := by
  rw [draw] at h
  split at h
  next hchoice =>
    rw [← Option.mem_some_iff.mp h]
    exact hchoice
  next => exact List.mem_of_mem_head? h

/-- A connection is one peer's. -/
theorem Inv.peer_unique (h : s.Inv) {peer' : PeerId} (hpeer : s.peers.lookup peer = some id)
    (hpeer' : s.peers.lookup peer' = some id) : peer' = peer := by
  have hnodup : s.peerIds.Nodup := (List.nodup_append.mp h.ids).2.1
  have heq := List.inj_on_of_nodup_map hnodup (AList.mem_lookup_iff.mp hpeer)
    (AList.mem_lookup_iff.mp hpeer') rfl
  exact (congrArg Sigma.fst heq).symm

/-- A connection that is being opened is no peer's. -/
theorem Inv.not_peer_of_opening (h : s.Inv) (hid : id ∈ s.opening.map Prod.fst) :
    id ∉ s.peerIds :=
  fun hmem ↦ (List.nodup_append.mp h.ids).2.2 id hid id hmem rfl

/-- A word that a live connection has is nobody else's. -/
theorem Inv.owner_eq (h : s.Inv) (hlive : id ∈ s.live) (hword : word ∈ (s.conn id).words)
    {o : Owner} (ho : word ∈ s.holds o) : o = .conn id :=
  h.custody.unique o (.conn id) word ho (by rw [holds_live hlive]; exact hword)

theorem Inv.conn_eq (h : s.Inv) (hlive : id ∈ s.live) (hword : word ∈ (s.conn id).words) {id' : ℕ}
    (hlive' : id' ∈ s.live) (hword' : word ∈ (s.conn id').words) : id' = id :=
  Owner.conn.inj (h.owner_eq hlive hword (by rw [holds_live hlive']; exact hword'))

/-- A word of the pool is no connection's. -/
theorem Inv.not_mem_of_pool (h : s.Inv) (hpool : word ∈ s.pool) (hlive : id ∈ s.live) :
    word ∉ (s.conn id).words := fun hword ↦ by
  cases h.owner_eq (o := .pool) hlive hword hpool

/-- The peers left when one is taken out. -/
theorem Inv.mem_peerIds_erase (h : s.Inv) (hpeer : s.peers.lookup peer = some id) (id' : ℕ) :
    id' ∈ { s with peers := s.peers.erase peer }.peerIds ↔ id' ∈ s.peerIds ∧ id' ≠ id := by
  rw [mem_peerIds, mem_peerIds]
  constructor
  · rintro ⟨peer', hpeer'⟩
    obtain ⟨hne, hold⟩ := lookup_erase_some hpeer'
    refine ⟨⟨peer', hold⟩, ?_⟩
    rintro rfl
    exact hne (h.peer_unique hpeer hold)
  · rintro ⟨⟨peer', hpeer'⟩, hne⟩
    refine ⟨peer', ?_⟩
    rw [AList.lookup_erase_ne]
    · exact hpeer'
    · rintro rfl
      exact hne (Option.some.inj (hpeer'.symm.trans hpeer))

theorem Inv.mem_live_erase (h : s.Inv) (hpeer : s.peers.lookup peer = some id) (id' : ℕ) :
    id' ∈ { s with peers := s.peers.erase peer }.live ↔ id' ∈ s.live ∧ id' ≠ id := by
  have hopening : id ∉ s.opening.map Prod.fst := fun hmem ↦
    h.not_peer_of_opening hmem (mem_peerIds.mpr ⟨peer, hpeer⟩)
  rw [live, live, List.mem_append, List.mem_append, h.mem_peerIds_erase hpeer]
  constructor
  · rintro (hid' | ⟨hid', hne⟩)
    · exact ⟨.inl hid', fun heq ↦ hopening (heq ▸ hid')⟩
    · exact ⟨.inr hid', hne⟩
  · rintro ⟨hid' | hid', hne⟩
    · exact .inl hid'
    · exact .inr ⟨hid', hne⟩

theorem inv_new {pool : List WordId} (hpool : pool.Nodup) : (new pool).Inv where
  ids := List.nodup_nil
  made := fun id hid ↦ (by cases hid)
  mapped := fun _ ↦ PeerConnection.mapped_new
  custody := {
    nodup := fun o ↦ by
      cases o with
      | pool => exact hpool
      | locals | gate | conn => exact List.nodup_nil
    unique := fun o o' w hw hw' ↦ by
      cases o with
      | pool =>
        cases o' with
        | pool => rfl
        | locals | gate | conn => cases hw'
      | locals | gate | conn => cases hw }
  indexed := fun peer id h ↦ (by cases h)
  index := fun word peer h ↦ (by cases h)
  orderly := fun a ha ↦ (by cases ha)
  awaited := fun word h ↦ (by cases h)
  unregistering := fun id word h ↦ (by cases h)
  unregistering_nodup := List.nodup_nil
  entering := fun id peer entry h ↦ (by rcases h with h | h <;> cases h)
  once := fun id word ↦ rfl
  clear := fun a ha ↦ (by cases ha)

/-! ### Outside the gate -/

/-- What the local sessions and the connections being opened do is not seen by the peers. -/
theorem Inv.outside (h : s.Inv) (peers : s'.peers = s.peers)
    (wordIndex : s'.wordIndex = s.wordIndex)
    (gate : s'.gate = s.gate) (listed : s'.listed = s.listed) (closed : s'.closed = s.closed)
    (conn : ∀ id ∈ s.peerIds, s'.conn id = s.conn id) (ids : s'.live.Nodup)
    (made : ∀ id ∈ s'.live, id < s'.made) (mapped : ∀ id, (s'.conn id).Mapped)
    (custody : Ownership s'.holds) (awaited : ∀ word, s.awaiting = some word → word ∈ s'.pool) :
    s'.Inv := by
  have hids : s'.peerIds = s.peerIds := by rw [peerIds, peers, ← peerIds]
  have hlists : ∀ id word, s'.Lists id word ↔ s.Lists id word := fun id word ↦ by
    rw [Lists, hids]
    exact and_congr_right fun hid ↦ by rw [conn id hid]
  have hconn : ∀ peer id, s.peers.lookup peer = some id → s'.conn id = s.conn id :=
    fun peer id hpeer ↦ conn id (mem_peerIds.mpr ⟨peer, hpeer⟩)
  refine ⟨ids, made, mapped, custody, ?_, ?_, ?_, ?_, ?_, ?_, ?_, ?_, ?_⟩
  · intro peer id hpeer word hword
    rw [peers] at hpeer
    rw [hconn peer id hpeer] at hword
    rw [wordIndex]
    exact h.indexed peer id hpeer word hword
  · intro word peer hword
    rw [wordIndex] at hword
    rw [closing, gate, peers]
    rcases h.index word peer hword with ⟨id, hpeer, hmem⟩ | hmem
    · refine .inl ⟨id, hpeer, ?_⟩
      rw [hconn peer id hpeer]
      exact hmem
    · exact .inr hmem
  · rw [gate]
    exact h.orderly
  · rw [awaiting, gate]
    exact awaited
  · intro id word hmem
    rw [gate] at hmem
    exact (hlists id word).mpr (h.unregistering id word hmem)
  · rw [gate]
    exact h.unregistering_nodup
  · rw [gate, peers]
    exact h.entering
  · intro id word
    rw [listed, broadcasts, closed, leaving, gate]
    simp only [hlists]
    exact h.once id word
  · rw [closed]
    exact h.clear

theorem Inv.localCreate (h : s.Inv) {choice : WordId} (hguard : s.Guarded (.localCreate choice)) :
    (s.step (.localCreate choice)).Inv := by
  rw [step]
  split
  next word hword =>
    have hpool : word ∈ s.pool := mem_draw hword
    refine h.outside rfl rfl rfl rfl rfl (fun _ _ ↦ rfl) h.ids h.made h.mapped ?_ ?_
    · refine h.custody.move (a := .pool) (b := .locals) (l := [word]) Owner.noConfusion ?_ ?_ ?_
      · exact List.perm_cons_erase hpool
      · exact List.perm_append_singleton word s.locals
      · rintro (_ | _ | id | _) hpool hlocals
        · exact absurd rfl hpool
        · exact absurd rfl hlocals
        · rfl
        · rfl
    · intro word' hword'
      refine (List.mem_erase_of_ne ?_).mpr (h.awaited word' hword')
      rintro rfl
      exact hguard word' hword hword'
  next => exact h

theorem Inv.localClose (h : s.Inv) (word : WordId) : (s.step (.localClose word)).Inv := by
  rw [step]
  split
  next hword =>
    refine h.outside rfl rfl rfl rfl rfl (fun _ _ ↦ rfl) h.ids h.made h.mapped ?_ ?_
    · refine h.custody.move (a := .locals) (b := .pool) (l := [word]) Owner.noConfusion ?_ ?_ ?_
      · exact List.perm_cons_erase hword
      · exact List.perm_append_singleton word s.pool
      · rintro (_ | _ | id | _) hlocals hpool
        · exact absurd rfl hpool
        · exact absurd rfl hlocals
        · rfl
        · rfl
    · exact fun word' hword' ↦ List.mem_append_left _ (h.awaited word' hword')
  next => exact h

theorem Inv.connect (h : s.Inv) (peer : PeerId) : (s.step (.connect peer)).Inv := by
  rw [step]
  split
  next => exact h
  next =>
    have hfresh : s.made ∉ s.live := fun hmem ↦ Nat.lt_irrefl _ (h.made _ hmem)
    set s' : PeerManager := { s.setConn s.made PeerConnection.new with
      made := s.made + 1, opening := s.opening ++ [(s.made, peer)] } with hs'
    have hlive : s'.live.Perm (s.made :: s.live) := by
      rw [live, List.map_append, List.append_assoc]
      exact List.perm_middle
    have hconn : ∀ id, id ≠ s.made → s'.conn id = s.conn id := fun id hne ↦
      setConn_ne s hne _
    have hnew : s'.conn s.made = PeerConnection.new := setConn_self s _ _
    refine h.outside rfl rfl rfl rfl rfl (fun id hid ↦ hconn id ?_) ?_ ?_ ?_ ?_ h.awaited
    · rintro rfl
      exact hfresh (List.mem_append_right _ hid)
    · exact hlive.nodup_iff.mpr (List.nodup_cons.mpr ⟨hfresh, h.ids⟩)
    · intro id hid
      rcases List.mem_cons.mp (hlive.mem_iff.mp hid) with rfl | hid
      · exact Nat.lt_succ_self _
      · exact Nat.lt_succ_of_lt (h.made id hid)
    · intro id
      by_cases hid : id = s.made
      · rw [hid, hnew]
        exact PeerConnection.mapped_new
      · rw [hconn id hid]
        exact h.mapped id
    · refine h.custody.congr fun o ↦ ?_
      rcases o with _ | _ | id | _
      · exact .refl _
      · exact .refl _
      · by_cases hid : id = s.made
        · rw [hid, holds_not_live hfresh, holds_live (hlive.mem_iff.mpr List.mem_cons_self), hnew]
          exact .refl _
        · rw [holds, holds, hconn id hid]
          simp only [hlive.mem_iff, List.mem_cons, hid, false_or]
          exact .refl _
      · exact .refl _

/-- A connection leaves the ones being opened. -/
private theorem opening_perm (h : s.Inv) (hid : id ∈ s.opening.map Prod.fst) :
    (s.opening.map Prod.fst).Perm
      (id :: (s.opening.filter fun o ↦ decide (o.1 ≠ id)).map Prod.fst) := by
  have hnodup : (s.opening.map Prod.fst).Nodup := (List.nodup_append.mp h.ids).1
  have herase : (s.opening.filter fun o ↦ decide (o.1 ≠ id)).map Prod.fst =
      (s.opening.map Prod.fst).erase id := by
    rw [hnodup.erase_eq_filter, List.filter_map]
    refine congrArg (List.map Prod.fst) (List.filter_congr fun o _ ↦ ?_)
    by_cases heq : o.1 = id <;> simp [heq]
  rw [herase]
  exact List.perm_cons_erase hid

/-- A connection is given up before it was published. -/
theorem Inv.discard (h : s.Inv) (hid : id ∈ s.opening.map Prod.fst) : (s.discard id).Inv := by
  have hlive : s.live.Perm (id :: (s.discard id).live) :=
    (opening_perm h hid).append_right s.peerIds
  have hnodup := hlive.nodup_iff.mp h.ids
  have hgone : id ∉ (s.discard id).live := (List.nodup_cons.mp hnodup).1
  have hkept : ∀ id', id' ≠ id → (id' ∈ (s.discard id).live ↔ id' ∈ s.live) := fun id' hne ↦ by
    rw [hlive.mem_iff, List.mem_cons]
    exact (or_iff_right hne).symm
  refine h.outside rfl rfl rfl rfl rfl (fun _ _ ↦ rfl) (List.nodup_cons.mp hnodup).2 ?_ h.mapped
    ?_ fun word hword ↦ List.mem_append_left _ (h.awaited word hword)
  · exact fun id' hid' ↦ h.made id' (hlive.mem_iff.mpr (List.mem_cons_of_mem id hid'))
  · refine h.custody.move (a := .conn id) (b := .pool) (l := (s.conn id).words)
      Owner.noConfusion ?_ List.perm_append_comm ?_
    · rw [holds_live (List.mem_append_left _ hid), holds_not_live hgone, List.append_nil]
    · rintro (_ | _ | id' | _) hconn hpool
      · exact absurd rfl hpool
      · rfl
      · have hne : id' ≠ id := fun heq ↦ hconn (heq ▸ rfl)
        rw [holds, holds]
        simp only [hkept id' hne]
        rfl
      · rfl

private theorem mem_opening_of_find {o : ℕ × PeerId}
    (h : s.opening.find? (fun o ↦ decide (o.1 = id)) = some o) : o ∈ s.opening ∧ o.1 = id :=
  ⟨List.mem_of_find?_eq_some h,
    of_decide_eq_true (List.find?_some (p := fun o : ℕ × PeerId ↦ decide (o.1 = id)) h)⟩

theorem Inv.register (h : s.Inv) {entry : SessionEntry} {choice : WordId}
    (hguard : s.Guarded (.register id entry choice)) :
    (s.step (.register id entry choice)).Inv := by
  rw [step]
  split
  next id' peer hfind =>
    obtain ⟨hmem, rfl⟩ := mem_opening_of_find hfind
    have hid : id' ∈ s.opening.map Prod.fst := List.mem_map_of_mem hmem
    have hlive : id' ∈ s.live := List.mem_append_left _ hid
    dsimp only
    split
    next word hword =>
      obtain ⟨hawaits, hremote⟩ := hguard hid word hword
      have hpool : word ∈ s.pool := mem_draw hword
      have hfresh : word ∉ (s.conn id').words := h.not_mem_of_pool hpool hlive
      set c := (s.conn id').registerSession word entry.wordId entry peer with hc
      have hwords : c.words = word :: (s.conn id').words :=
        PeerConnection.words_registerSession hfresh entry peer
      set s' : PeerManager := { s.setConn id' c with pool := s.pool.erase word } with hs'
      have hconn : ∀ id, id ≠ id' → s'.conn id = s.conn id := fun id hne ↦
        setConn_ne s hne _
      have hnew : s'.conn id' = c := setConn_self s _ _
      have hlive' : id' ∈ s'.live := hlive
      refine h.outside rfl rfl rfl rfl rfl (fun id hid' ↦ hconn id ?_) h.ids h.made ?_ ?_ ?_
      · rintro rfl
        exact h.not_peer_of_opening hid hid'
      · intro id
        by_cases heq : id = id'
        · rw [heq, hnew]
          exact (h.mapped id').registerSession hfresh hremote entry peer
        · rw [hconn id heq]
          exact h.mapped id
      · refine h.custody.move (a := .pool) (b := .conn id') (l := [word]) Owner.noConfusion ?_ ?_ ?_
        · exact List.perm_cons_erase hpool
        · rw [holds_live hlive, holds_live hlive', hnew, hwords]
          exact .refl _
        · rintro (_ | _ | id | _) hpool hconn'
          · exact absurd rfl hpool
          · rfl
          · have hne : id ≠ id' := fun heq ↦ hconn' (heq ▸ rfl)
            rw [holds, holds, hconn id hne]
            rfl
          · rfl
      · intro word' hword'
        refine (List.mem_erase_of_ne ?_).mpr (h.awaited word' hword')
        rintro rfl
        exact hawaits hword'
    next => exact h.discard hid
  next => exact h

/-! ### Publishing -/

private theorem lookup_foldl_insert (words : List WordId) (index : WordMap PeerId)
    (peer : PeerId) (word : WordId) :
    (words.foldl (fun index word ↦ index.insert word peer) index).lookup word =
      if word ∈ words then some peer else index.lookup word := by
  induction words generalizing index with
  | nil => rfl
  | cons w words ih =>
    rw [List.foldl_cons, ih]
    by_cases hmem : word ∈ words
    · rw [if_pos hmem, if_pos (List.mem_cons_of_mem w hmem)]
    · rw [if_neg hmem]
      by_cases heq : word = w
      · rw [heq, AList.lookup_insert, if_pos List.mem_cons_self]
      · rw [AList.lookup_insert_ne heq, if_neg]
        rw [List.mem_cons, not_or]
        exact ⟨heq, hmem⟩

private theorem count_cons_pair (l : List (ℕ × WordId)) (id id' : ℕ) (word word' : WordId) :
    ((id, word) :: l).count (id', word') =
      l.count (id', word') + if id' = id ∧ word' = word then 1 else 0 := by
  rw [List.count_cons]
  by_cases heq : id' = id ∧ word' = word
  · obtain ⟨rfl, rfl⟩ := heq
    rw [if_pos (beq_self_eq_true _), if_pos ⟨rfl, rfl⟩]
  · rw [if_neg heq, if_neg]
    intro hbeq
    obtain ⟨rfl, rfl⟩ := Prod.mk.inj (beq_iff_eq.mp hbeq)
    exact heq ⟨rfl, rfl⟩

/-- A listed session counts once. -/
private theorem count_listed (c : PeerConnection) (id id' : ℕ) (word : WordId) :
    (c.words.map (Prod.mk id)).count (id', word) =
      if id' = id ∧ word ∈ c.words then 1 else 0 := by
  by_cases hid : id' = id
  · rw [hid, List.count_map_of_injective _ _ (Prod.mk_right_injective id),
      (PeerConnection.words_nodup c).count]
    simp only [true_and]
  · rw [if_neg fun h ↦ hid h.1]
    refine List.count_eq_zero.mpr fun hmem ↦ hid ?_
    obtain ⟨w, -, heq⟩ := List.mem_map.mp hmem
    exact (congrArg Prod.fst heq).symm

theorem Inv.insertPeer (h : s.Inv) (hid : id ∈ s.opening.map Prod.fst)
    (hpeer : s.peers.lookup peer = none) : (s.insertPeer id peer).Inv := by
  have hnot : id ∉ s.peerIds := h.not_peer_of_opening hid
  have hids : (s.insertPeer id peer).peerIds = id :: s.peerIds := by
    rw [peerIds, PeerManager.insertPeer,
      AList.entries_insert_of_notMem (AList.lookup_eq_none.mp hpeer)]
    rfl
  -- a connection that opens was alive already
  have hlive : (s.insertPeer id peer).live.Perm s.live := by
    rw [live, hids]
    exact List.perm_middle.trans ((opening_perm h hid).append_right s.peerIds).symm
  have hlookup : ∀ peer' id', s.peers.lookup peer' = some id' →
      (s.insertPeer id peer).peers.lookup peer' = some id' := by
    intro peer' id' hpeer'
    rw [PeerManager.insertPeer, AList.lookup_insert_ne]
    · exact hpeer'
    · rintro rfl
      rw [hpeer] at hpeer'
      cases hpeer'
  have hindex : ∀ word, (s.insertPeer id peer).wordIndex.lookup word =
      if word ∈ (s.conn id).words then some peer else s.wordIndex.lookup word :=
    lookup_foldl_insert _ _ _
  have hlists : ∀ id' word, (s.insertPeer id peer).Lists id' word ↔
      s.Lists id' word ∨ id' = id ∧ word ∈ (s.conn id).words := by
    intro id' word
    rw [Lists, Lists, hids, List.mem_cons]
    constructor
    · rintro ⟨rfl | hid', hword⟩
      · exact .inr ⟨rfl, hword⟩
      · exact .inl ⟨hid', hword⟩
    · rintro (⟨hid', hword⟩ | ⟨rfl, hword⟩)
      · exact ⟨.inr hid', hword⟩
      · exact ⟨.inl rfl, hword⟩
  refine ⟨hlive.nodup_iff.mpr h.ids, fun id' hid' ↦ h.made id' (hlive.mem_iff.mp hid'), h.mapped,
    ?_, ?_, ?_, h.orderly, h.awaited, ?_, h.unregistering_nodup, ?_, ?_, h.clear⟩
  · refine h.custody.congr fun o ↦ ?_
    rcases o with _ | _ | id' | _
    · exact .refl _
    · exact .refl _
    · rw [holds, holds]
      simp only [hlive.mem_iff]
      exact .refl _
    · exact .refl _
  · intro peer' id' hpeer' word hword
    rw [hindex]
    rcases lookup_insert_some hpeer' with ⟨rfl, rfl⟩ | ⟨-, hpeer'⟩
    · exact if_pos hword
    -- the words of another peer keep their entry, since no two connections share a word
    · rw [if_neg, h.indexed peer' id' hpeer' word hword]
      intro hword'
      have howner : id = id' :=
        h.conn_eq (live_of_peers hpeer') hword (List.mem_append_left _ hid) hword'
      exact hnot (mem_peerIds.mpr ⟨peer', howner ▸ hpeer'⟩)
  · intro word peer' hword
    rw [hindex] at hword
    split at hword
    next hmem =>
      rw [← Option.some.inj hword]
      exact .inl ⟨id, AList.lookup_insert _, hmem⟩
    next =>
      rcases h.index word peer' hword with ⟨id', hpeer', hmem⟩ | hmem
      · exact .inl ⟨id', hlookup peer' id' hpeer', hmem⟩
      · exact .inr hmem
  · exact fun id' word hmem ↦ (hlists id' word).mpr (.inl (h.unregistering id' word hmem))
  · exact fun id' peer' entry hmem ↦ hlookup peer' id' (h.entering id' peer' entry hmem)
  · intro id' word
    have hold := h.once id' word
    have hcount : (s.insertPeer id peer).listed.count (id', word) = s.listed.count (id', word) +
        if id' = id ∧ word ∈ (s.conn id).words then 1 else 0 := by
      rw [PeerManager.insertPeer, List.count_append, count_listed]
    -- the words the new peer brings were listed by nobody
    have hexcl : id' = id ∧ word ∈ (s.conn id).words → ¬ s.Lists id' word := by
      rintro ⟨rfl, -⟩ hmem
      exact hnot hmem.1
    rw [hcount, hold]
    simp only [hlists]
    by_cases hnew : id' = id ∧ word ∈ (s.conn id).words
    · rw [if_pos hnew, if_neg (hexcl hnew), if_pos (.inr hnew)]
      rfl
    · rw [if_neg hnew]
      simp only [hnew, or_false]
      rfl

theorem Inv.publish (h : s.Inv) (id : ℕ) : (s.step (.publish id)).Inv := by
  rw [step]
  split
  next id' peer hfind =>
    obtain ⟨hmem, rfl⟩ := mem_opening_of_find hfind
    have hid : id' ∈ s.opening.map Prod.fst := List.mem_map_of_mem hmem
    split
    · exact h.discard hid
    next hpeer => exact h.insertPeer hid (Option.not_isSome_iff_eq_none.mp hpeer)
  next => exact h

/-! ### Taking the gate -/

private theorem forgotten_eq_none {a : Act} (h : a.leaving? = none) :
    a.forgotten? = none ∧ a.isAnnounce = false := by
  cases a with
  | forget | announce => cases h
  | unregister | enter | create => exact ⟨rfl, rfl⟩

/-- Nothing waits for its announcement when none comes next. -/
private theorem awaiting_eq_none (h : ∀ a ∈ s.gate.head?, a.isAnnounce = false) :
    s.awaiting = none := by
  rw [awaiting]
  split
  next id word gate heq =>
    rw [heq] at h
    cases h _ rfl
  next => rfl

/-- Who has which word does not depend on the gate, but for what is being closed. -/
private theorem Inv.custody_of_closing (h : s.Inv) {gate : List Act} {closed : List Closure}
    (hclosing : { s with gate, closed }.closing = s.closing) :
    Ownership { s with gate, closed }.holds := by
  refine h.custody.congr fun o ↦ ?_
  rcases o with _ | _ | id | _
  · exact .refl _
  · exact .refl _
  · exact .refl _
  · rw [holds, hclosing]
    exact .refl _

/-- No announcement stands behind what comes next. -/
private theorem Inv.orderly_of_gate (h : s.Inv) {a : Act} {gate : List Act}
    (hgate : s.gate = a :: gate) : ∀ b ∈ gate, b.isAnnounce = false := by
  have hall := h.orderly
  rw [hgate] at hall
  exact hall

/-- The gate is taken, by an operation that has not closed anything yet. -/
theorem Inv.acquire (h : s.Inv) (hfree : s.gate = []) {acts : List Act}
    (hacts : ∀ a ∈ acts, a.leaving? = none)
    (hunregister : ∀ id word, .unregister id word ∈ acts → s.Lists id word)
    (hnodup : (acts.filterMap Act.unregistered?).Nodup)
    (henter : ∀ id peer entry, .enter id peer entry ∈ acts ∨ .create id peer entry ∈ acts →
      s.peers.lookup peer = some id) : { s with gate := acts }.Inv := by
  have hclosing : { s with gate := acts }.closing = s.closing := by
    rw [closing, closing, hfree]
    exact List.filterMap_eq_nil_iff.mpr fun a ha ↦ (forgotten_eq_none (hacts a ha)).1
  have hleaving : { s with gate := acts }.leaving = s.leaving := by
    rw [leaving, leaving, hfree]
    exact List.filterMap_eq_nil_iff.mpr hacts
  have hawaiting : { s with gate := acts }.awaiting = none :=
    awaiting_eq_none fun a ha ↦ (forgotten_eq_none (hacts a (List.mem_of_mem_head? ha))).2
  refine { h with
    custody := h.custody_of_closing hclosing, index := ?_, orderly := ?_, awaited := ?_
    unregistering := hunregister, unregistering_nodup := hnodup, entering := henter, once := ?_ }
  · rw [hclosing]
    exact h.index
  · exact fun a ha ↦ (forgotten_eq_none (hacts a (List.mem_of_mem_tail ha))).2
  · rw [hawaiting]
    exact fun word hword ↦ (by cases hword)
  · rw [hleaving]
    exact h.once

theorem Inv.remoteClosed (h : s.Inv) {remoteWord : WordId}
    (hguard : s.Guarded (.remoteClosed id remoteWord)) :
    (s.step (.remoteClosed id remoteWord)).Inv := by
  rw [step.eq_def]
  dsimp only
  split
  next word hfree hword =>
    have hlists : s.Lists id word := by
      refine ⟨hguard hfree (by rw [hword]; rfl), PeerConnection.mem_words.mpr ?_⟩
      exact mem_of_lookup (((h.mapped id).inverse word remoteWord).mpr hword)
    refine h.acquire hfree ?_ ?_ (List.nodup_singleton word) ?_
    · intro a ha
      rw [List.mem_singleton.mp ha]
      rfl
    · intro id' word' hmem
      obtain ⟨rfl, rfl⟩ := Act.unregister.inj (List.mem_singleton.mp hmem)
      exact hlists
    · intro id' peer entry hmem
      rcases hmem with hmem | hmem <;> cases List.mem_singleton.mp hmem
  next => exact h

theorem Inv.reconcile (h : s.Inv) (id : ℕ) (peer : PeerId) (listed : List SessionEntry) :
    (s.reconcile id peer listed).Inv := by
  rw [PeerManager.reconcile]
  split
  next hopen =>
    have hacts : ∀ a ∈ reconcileActs (s.conn id) id peer listed,
        (∃ word ∈ (s.conn id).words, a = .unregister id word) ∨
          ∃ entry, a = .enter id peer entry := by
      intro a ha
      rcases List.mem_append.mp ha with ha | ha
      · obtain ⟨word, hword, rfl⟩ := List.mem_map.mp ha
        exact .inl ⟨word, (List.mem_filter.mp hword).1, rfl⟩
      · obtain ⟨entry, -, rfl⟩ := List.mem_map.mp ha
        exact .inr ⟨entry, rfl⟩
    refine h.acquire hopen.1 ?_ ?_ ?_ ?_
    · intro a ha
      rcases hacts a ha with ⟨word, -, rfl⟩ | ⟨entry, rfl⟩ <;> rfl
    · intro id' word hmem
      rcases hacts _ hmem with ⟨word', hword', heq⟩ | ⟨entry, heq⟩
      · obtain ⟨rfl, rfl⟩ := Act.unregister.inj heq
        exact ⟨mem_peerIds.mpr ⟨peer, hopen.2⟩, hword'⟩
      · cases heq
    · rw [reconcileActs, List.filterMap_append, List.filterMap_map, List.filterMap_map]
      have henters : listed.filterMap (Act.unregistered? ∘ Act.enter id peer) = [] :=
        List.filterMap_eq_nil_iff.mpr fun _ _ ↦ rfl
      rw [henters, List.append_nil]
      have hid : (Act.unregistered? ∘ Act.unregister id) = some := rfl
      rw [hid, List.filterMap_some]
      exact (PeerConnection.words_nodup _).filter _
    · intro id' peer' entry hmem
      rcases hmem with hmem | hmem
      · rcases hacts _ hmem with ⟨word', -, heq⟩ | ⟨entry', heq⟩
        · cases heq
        · obtain ⟨rfl, rfl, -⟩ := Act.enter.inj heq
          exact hopen.2
      · rcases hacts _ hmem with ⟨word', -, heq⟩ | ⟨entry', heq⟩ <;> cases heq
  next => exact h

theorem Inv.created (h : s.Inv) (id : ℕ) (peer : PeerId) (entry : SessionEntry) :
    (s.step (.created id peer entry)).Inv := by
  rw [step]
  split
  next hopen =>
    refine h.acquire hopen.1 ?_ ?_ List.nodup_nil ?_
    · intro a ha
      rw [List.mem_singleton.mp ha]
      rfl
    · intro id' word hmem
      cases List.mem_singleton.mp hmem
    · intro id' peer' entry' hmem
      rcases hmem with hmem | hmem
      · cases List.mem_singleton.mp hmem
      · obtain ⟨rfl, rfl, -⟩ := Act.create.inj (List.mem_singleton.mp hmem)
        exact hopen.2
  next => exact h

/-- A peer is closed: its words are the gate's to return. -/
theorem Inv.closePeer (h : s.Inv) (peer : PeerId) : (s.step (.closePeer peer)).Inv := by
  rw [step.eq_def]
  dsimp only
  split
  next id hfree hpeer =>
    set s' : PeerManager :=
      { s with peers := s.peers.erase peer, gate := (s.conn id).words.map (.forget id) } with hs'
    have hids : ∀ id', id' ∈ s'.peerIds ↔ id' ∈ s.peerIds ∧ id' ≠ id := h.mem_peerIds_erase hpeer
    have hlive : ∀ id', id' ∈ s'.live ↔ id' ∈ s.live ∧ id' ≠ id := h.mem_live_erase hpeer
    have hsub : s'.live.Sublist s.live :=
      List.Sublist.append_left ((List.kerase_sublist peer s.peers.entries).map _) _
    have hclosing : s'.closing = (s.conn id).words := by
      rw [closing, List.filterMap_map]
      exact List.filterMap_some
    have hleaving : s'.leaving = (s.conn id).words.map (Prod.mk id) := by
      rw [leaving, List.filterMap_map, ← List.filterMap_eq_map]
      rfl
    have hforget : ∀ a ∈ s'.gate, ∃ word, a = .forget id word := by
      intro a ha
      obtain ⟨word, -, rfl⟩ := List.mem_map.mp ha
      exact ⟨word, rfl⟩
    have hnone : s.closing = [] ∧ s.leaving = [] := by
      rw [closing, leaving, hfree]
      exact ⟨rfl, rfl⟩
    -- the words of the closed peer pass to the gate, and every clause follows them there
    refine ⟨h.ids.sublist hsub, fun id' hid' ↦ h.made id' (hsub.subset hid'), h.mapped, ?_, ?_, ?_,
      ?_, ?_, ?_, ?_, ?_, ?_, h.clear⟩
    · refine h.custody.move (a := .conn id) (b := .gate) (l := (s.conn id).words)
        Owner.noConfusion ?_ ?_ ?_
      · rw [holds_live (live_of_peers hpeer), holds_not_live fun hmem ↦ ((hlive id).mp hmem).2 rfl,
          List.append_nil]
      · rw [holds, holds, hclosing, hnone.1, List.append_nil]
      · rintro (_ | _ | id' | _) hconn hgate
        · rfl
        · rfl
        · have hne : id' ≠ id := fun heq ↦ hconn (heq ▸ rfl)
          rw [holds, holds]
          simp only [hlive, hne, ne_eq, not_false_eq_true, and_true]
          rfl
        · exact absurd rfl hgate
    · intro peer' id' hpeer' word hword
      exact h.indexed peer' id' (lookup_erase_some hpeer').2 word hword
    · intro word peer' hword
      rw [hclosing]
      -- an index entry of the closed peer survives until its word is forgotten
      rcases h.index word peer' hword with ⟨id', hpeer', hmem⟩ | hmem
      · by_cases heq : peer' = peer
        · right
          rw [heq, hpeer, Option.some.injEq] at hpeer'
          rw [hpeer']
          exact hmem
        · left
          refine ⟨id', ?_, hmem⟩
          rw [hs', AList.lookup_erase_ne heq]
          exact hpeer'
      · rw [hnone.1] at hmem
        cases hmem
    · intro a ha
      obtain ⟨word, rfl⟩ := hforget a (List.mem_of_mem_tail ha)
      rfl
    · rw [awaiting_eq_none fun a ha ↦ ?_]
      · exact fun word hword ↦ (by cases hword)
      · obtain ⟨word, rfl⟩ := hforget a (List.mem_of_mem_head? ha)
        rfl
    · intro id' word hmem
      obtain ⟨word', heq⟩ := hforget _ hmem
      cases heq
    · have hnil : s'.gate.filterMap Act.unregistered? = [] := by
        refine List.filterMap_eq_nil_iff.mpr fun a ha ↦ ?_
        obtain ⟨word, rfl⟩ := hforget a ha
        rfl
      rw [hnil]
      exact List.nodup_nil
    · intro id' peer' entry hmem
      rcases hmem with hmem | hmem <;> obtain ⟨word', heq⟩ := hforget _ hmem <;> cases heq
    · intro id' word
      have hold := h.once id' word
      rw [hnone.2, List.count_nil] at hold
      -- each listed word of the peer is now on its way out, once
      have hlists : s'.Lists id' word ↔ s.Lists id' word ∧ id' ≠ id := by
        rw [Lists, Lists, hids]
        exact and_right_comm
      rw [hleaving, count_listed]
      simp only [hlists]
      refine hold.trans ?_
      by_cases heq : id' = id
      · have hsame : s.Lists id word ↔ word ∈ (s.conn id).words :=
          and_iff_right (mem_peerIds.mpr ⟨peer, hpeer⟩)
        simp only [heq, hsame, ne_eq, not_true_eq_false, and_false, if_false, true_and]
        rfl
      · simp only [heq, ne_eq, not_false_eq_true, and_true, false_and, if_false]
        rfl
  next => exact h

/-! ### Working behind the gate -/

/-- What comes next is taken off, when it is not a session on its way out. -/
theorem Inv.pop (h : s.Inv) {a : Act} {gate : List Act} (hgate : s.gate = a :: gate)
    (ha : a.leaving? = none) : { s with gate }.Inv := by
  have hclosing : { s with gate }.closing = s.closing := by
    rw [closing, closing, hgate, List.filterMap_cons_none (forgotten_eq_none ha).1]
  have hleaving : { s with gate }.leaving = s.leaving := by
    rw [leaving, leaving, hgate, List.filterMap_cons_none ha]
  have horderly := h.orderly_of_gate hgate
  have hmem : ∀ b ∈ gate, b ∈ s.gate := fun b hb ↦ by
    rw [hgate]
    exact List.mem_cons_of_mem a hb
  refine { h with
    custody := h.custody_of_closing hclosing, index := ?_, orderly := ?_, awaited := ?_
    unregistering := ?_, unregistering_nodup := ?_, entering := ?_, once := ?_ }
  · rw [hclosing]
    exact h.index
  · exact fun b hb ↦ horderly b (List.mem_of_mem_tail hb)
  · rw [awaiting_eq_none fun b hb ↦ horderly b (List.mem_of_mem_head? hb)]
    exact fun word hword ↦ (by cases hword)
  · exact fun id word hin ↦ h.unregistering id word (hmem _ hin)
  · have hnodup := h.unregistering_nodup
    rw [hgate] at hnodup
    exact hnodup.sublist ((List.sublist_cons_self a gate).filterMap _)
  · exact fun id peer entry hin ↦ h.entering id peer entry (hin.imp (hmem _) (hmem _))
  · rw [hleaving]
    exact h.once

/-- `unregister_session`, of a session that a peer lists. -/
theorem Inv.unregister (h : s.Inv) (hlists : s.Lists id word)
    (horderly : ∀ a ∈ s.gate, a.isAnnounce = false)
    (hother : word ∉ s.gate.filterMap Act.unregistered?) :
    { s.unregister word with gate := .announce id word :: s.gate }.Inv := by
  obtain ⟨hid, hword⟩ := hlists
  obtain ⟨peer, hpeer⟩ := mem_peerIds.mp hid
  have hindex := h.indexed peer id hpeer word hword
  have heq : s.unregister word = { s.setConn id ((s.conn id).unregisterSession word) with
      wordIndex := s.wordIndex.erase word, pool := s.pool ++ [word] } := by
    rw [PeerManager.unregister, hindex, Option.bind_some, hpeer]
  rw [heq]
  set c := (s.conn id).unregisterSession word with hc
  set s' : PeerManager := { s.setConn id c with
    wordIndex := s.wordIndex.erase word, pool := s.pool ++ [word]
    gate := .announce id word :: s.gate } with hs'
  have hwords : c.words = (s.conn id).words.erase word :=
    PeerConnection.words_unregisterSession _ _
  have hconn : ∀ id', id' ≠ id → s'.conn id' = s.conn id' := fun id' hne ↦
    setConn_ne s hne _
  have hnew : s'.conn id = c := setConn_self s _ _
  -- nobody else has the word
  have howner : ∀ id', id' ∈ s.live → word ∈ (s.conn id').words → id' = id :=
    fun id' ↦ h.conn_eq (List.mem_append_right _ hid) hword
  have hmem : ∀ id' ∈ s.live, ∀ word', word' ∈ (s'.conn id').words ↔
      word' ∈ (s.conn id').words ∧ word' ≠ word := by
    intro id' hlive word'
    by_cases hne : id' = id
    · rw [hne, hnew, hwords, (PeerConnection.words_nodup _).mem_erase_iff, and_comm]
    · rw [hconn id' hne]
      refine ⟨fun hword' ↦ ⟨hword', ?_⟩, And.left⟩
      rintro rfl
      exact hne (howner id' hlive hword')
  have hlists' : ∀ id' word', s'.Lists id' word' ↔ s.Lists id' word' ∧ word' ≠ word := by
    intro id' word'
    rw [Lists, Lists, and_assoc]
    exact and_congr_right fun hid' ↦ hmem id' (List.mem_append_right _ hid') word'
  have hclosing : s'.closing = s.closing := rfl
  have hnotclosing : word ∉ s.closing := by
    intro hin
    cases h.owner_eq (o := .gate) (List.mem_append_right _ hid) hword hin
  -- the word passes from the connection to the pool, and its announcement comes next
  refine ⟨h.ids, h.made, ?_, ?_, ?_, ?_, horderly, ?_, ?_, ?_, ?_, ?_, h.clear⟩
  · intro id'
    by_cases hne : id' = id
    · rw [hne, hnew]
      exact (h.mapped id).unregisterSession word
    · rw [hconn id' hne]
      exact h.mapped id'
  · refine h.custody.move (a := .conn id) (b := .pool) (l := [word]) Owner.noConfusion ?_
      (List.perm_append_singleton word s.pool) ?_
    · have hlive : id ∈ s'.live := List.mem_append_right _ hid
      rw [holds_live (s := s) hlive, holds_live hlive, hnew, hwords]
      exact List.perm_cons_erase hword
    · rintro (_ | _ | id' | _) hconn' hpool
      · exact absurd rfl hpool
      · rfl
      · have hne : id' ≠ id := fun heq ↦ hconn' (heq ▸ rfl)
        rw [holds, holds, hconn id' hne]
        rfl
      · rfl
  · intro peer' id' hpeer' word' hword'
    obtain ⟨hword', hne⟩ := (hmem id' (live_of_peers hpeer') word').mp hword'
    rw [hs', AList.lookup_erase_ne hne]
    exact h.indexed peer' id' hpeer' word' hword'
  · intro word' peer' hword'
    obtain ⟨hne, hword'⟩ := lookup_erase_some hword'
    rcases h.index word' peer' hword' with ⟨id', hpeer', hin⟩ | hin
    · exact .inl ⟨id', hpeer', (hmem id' (live_of_peers hpeer') word').mpr ⟨hin, hne⟩⟩
    · exact .inr hin
  · intro word' hword'
    obtain rfl : word = word' := Option.some.inj hword'
    exact List.mem_append_right _ List.mem_cons_self
  · intro id' word' hin
    rcases List.mem_cons.mp hin with hhead | hrest
    · cases hhead
    · refine (hlists' id' word').mpr ⟨h.unregistering id' word' hrest, fun heq ↦ ?_⟩
      exact hother (List.mem_filterMap.mpr ⟨.unregister id' word', hrest, by rw [← heq]; rfl⟩)
  · exact h.unregistering_nodup
  · intro id' peer' entry hin
    refine h.entering id' peer' entry ?_
    rcases hin with hin | hin
    · rcases List.mem_cons.mp hin with hin | hin
      · cases hin
      · exact .inl hin
    · rcases List.mem_cons.mp hin with hin | hin
      · cases hin
      · exact .inr hin
  · intro id' word'
    have hold := h.once id' word'
    have hleaving : s'.leaving.count (id', word') = s.leaving.count (id', word') +
        if id' = id ∧ word' = word then 1 else 0 := by
      rw [leaving, List.filterMap_cons_some (show Act.leaving? _ = some (id, word) from rfl)]
      exact count_cons_pair _ id id' word word'
    -- one listing fewer, one announcement more
    have hother' : s.Lists id' word → id' = id := fun hin ↦
      howner id' (List.mem_append_right _ hin.1) hin.2
    rw [hleaving]
    simp only [hlists']
    refine hold.trans ?_
    by_cases hw : word' = word
    · rw [hw]
      by_cases hi : id' = id
      · rw [hi, if_pos ⟨hid, hword⟩, if_pos ⟨rfl, rfl⟩, if_neg fun hin ↦ hin.2 rfl]
        rfl
      · rw [if_neg fun hin ↦ hi (hother' hin), if_neg fun hin ↦ hi hin.1,
          if_neg fun hin ↦ hin.2 rfl]
        rfl
    · simp only [hw, and_false, if_false, ne_eq, not_false_eq_true, and_true, Nat.add_zero]
      rfl

/-- A word of the closed peer returns to the pool. -/
theorem Inv.forget (h : s.Inv) {gate : List Act} (hgate : s.gate = .forget id word :: gate) :
    { s with
      wordIndex := s.wordIndex.erase word, pool := s.pool ++ [word]
      gate := .announce id word :: gate }.Inv := by
  set s' : PeerManager := { s with
    wordIndex := s.wordIndex.erase word, pool := s.pool ++ [word]
    gate := .announce id word :: gate } with hs'
  -- the gate held the word, and lets it go to the pool
  have hclosing : s.closing = word :: s'.closing := by
    rw [closing, hgate, List.filterMap_cons_some (show Act.forgotten? _ = some word from rfl)]
    rfl
  have hleaving : s'.leaving = s.leaving := by
    rw [leaving, leaving, hgate]
    rfl
  have hin : word ∈ s.closing := by
    rw [hclosing]
    exact List.mem_cons_self
  -- so no open peer can have an entry under it
  have howner : ∀ peer' id', s.peers.lookup peer' = some id' → word ∉ (s.conn id').words := by
    intro peer' id' hpeer' hmem
    cases h.owner_eq (o := .gate) (live_of_peers hpeer') hmem hin
  have horderly := h.orderly_of_gate hgate
  have hmem : ∀ a ∈ s'.gate, a ∈ s.gate ∨ a = .announce id word := fun a ha ↦ by
    rw [hgate]
    rcases List.mem_cons.mp ha with ha | ha
    · exact .inr ha
    · exact .inl (List.mem_cons_of_mem _ ha)
  refine { h with
    custody := ?_, indexed := ?_, index := ?_, orderly := horderly, awaited := ?_
    unregistering := ?_, unregistering_nodup := ?_, entering := ?_, once := ?_ }
  · refine h.custody.move (a := .gate) (b := .pool) (l := [word]) Owner.noConfusion ?_
      (List.perm_append_singleton word s.pool) ?_
    · rw [holds, holds, hclosing]
      exact .refl _
    · rintro (_ | _ | id' | _) hgate' hpool
      · exact absurd rfl hpool
      · rfl
      · rfl
      · exact absurd rfl hgate'
  · intro peer' id' hpeer' word' hword'
    rw [hs', AList.lookup_erase_ne]
    · exact h.indexed peer' id' hpeer' word' hword'
    · intro heq
      rw [heq] at hword'
      exact howner peer' id' hpeer' hword'
  · intro word' peer' hword'
    obtain ⟨hne, hold⟩ := lookup_erase_some hword'
    rcases h.index word' peer' hold with hleft | hright
    · exact .inl hleft
    · rw [hclosing] at hright
      rcases List.mem_cons.mp hright with heq | hright
      · exact absurd heq hne
      · exact .inr hright
  · intro word' hword'
    rw [← Option.some.inj hword']
    exact List.mem_append_right _ List.mem_cons_self
  · intro id' word' hact
    rcases hmem _ hact with hact | hact
    · exact h.unregistering id' word' hact
    · cases hact
  · have hnodup := h.unregistering_nodup
    rw [hgate] at hnodup
    exact hnodup
  · intro id' peer' entry hact
    refine h.entering id' peer' entry ?_
    rcases hact with hact | hact
    · rcases hmem _ hact with hact | hact
      · exact .inl hact
      · cases hact
    · rcases hmem _ hact with hact | hact
      · exact .inr hact
      · cases hact
  · rw [hleaving]
    exact h.once

/-- The end of a session is broadcast: its word is still in the pool, so nobody has it. -/
theorem Inv.announce (h : s.Inv) {gate : List Act} (hgate : s.gate = .announce id word :: gate) :
    { s with gate, closed := s.closed ++ [Closure.mk id word (!s.owned word)] }.Inv := by
  set s' : PeerManager :=
    { s with gate, closed := s.closed ++ [Closure.mk id word (!s.owned word)] } with hs'
  have hpool : word ∈ s.pool := h.awaited word (by rw [awaiting, hgate])
  -- the word is in the pool, so neither a local session nor a connection has it
  have hfree : s.owned word = false := by
    rw [owned, Bool.or_eq_false_iff]
    constructor
    · refine decide_eq_false fun hmem ↦ ?_
      cases h.custody.unique .pool .locals word hpool hmem
    · refine List.any_eq_false.mpr fun id' hlive hmem ↦ ?_
      exact h.not_mem_of_pool hpool hlive (of_decide_eq_true hmem)
  have hclosing : s'.closing = s.closing := by
    rw [closing, closing, hgate]
    rfl
  have horderly := h.orderly_of_gate hgate
  have hmem : ∀ a ∈ gate, a ∈ s.gate := fun a ha ↦ by
    rw [hgate]
    exact List.mem_cons_of_mem _ ha
  refine { h with
    custody := h.custody_of_closing hclosing, index := ?_, orderly := ?_, awaited := ?_
    unregistering := ?_, unregistering_nodup := ?_, entering := ?_, once := ?_, clear := ?_ }
  · rw [hclosing]
    exact h.index
  · exact fun a ha ↦ horderly a (List.mem_of_mem_tail ha)
  · rw [awaiting_eq_none fun a ha ↦ horderly a (List.mem_of_mem_head? ha)]
    exact fun word' hword' ↦ (by cases hword')
  · exact fun id' word' hact ↦ h.unregistering id' word' (hmem _ hact)
  · have hnodup := h.unregistering_nodup
    rw [hgate] at hnodup
    exact hnodup
  · exact fun id' peer' entry hact ↦ h.entering id' peer' entry (hact.imp (hmem _) (hmem _))
  · intro id' word'
    have hold := h.once id' word'
    -- what leaves the gate is what is broadcast
    have hleaving : s.leaving.count (id', word') = s'.leaving.count (id', word') +
        if id' = id ∧ word' = word then 1 else 0 := by
      rw [leaving, hgate,
        List.filterMap_cons_some (show Act.leaving? _ = some (id, word) from rfl)]
      exact count_cons_pair _ id id' word word'
    have hbroadcasts : s'.broadcasts id' word' = s.broadcasts id' word' +
        if id' = id ∧ word' = word then 1 else 0 := by
      rw [broadcasts, List.countP_append]
      by_cases heq : id' = id ∧ word' = word
      · rw [if_pos heq, List.countP_cons_of_pos]
        · rfl
        · exact decide_eq_true ⟨heq.1.symm, heq.2.symm⟩
      · rw [if_neg heq, List.countP_cons_of_neg]
        · rfl
        · exact fun hsame ↦ heq ((of_decide_eq_true hsame).imp Eq.symm Eq.symm)
    have hlists : (if s'.Lists id' word' then 1 else 0 : ℕ) = if s.Lists id' word' then 1 else 0 :=
      rfl
    rw [hbroadcasts, hold, hleaving, hlists]
    omega
  · intro a ha
    rcases List.mem_append.mp ha with ha | ha
    · exact h.clear a ha
    · rw [List.mem_singleton.mp ha, hfree]
      rfl

/-- A session of an open peer gets a word. -/
theorem Inv.list (h : s.Inv) (hpeer : s.peers.lookup peer = some id) (hpool : word ∈ s.pool)
    (hawaiting : s.awaiting = none) {entry : SessionEntry}
    (hremote : (s.conn id).remoteToLocal.lookup entry.wordId = none) :
    (s.list id peer word entry).Inv := by
  have hlive : id ∈ s.live := live_of_peers hpeer
  have hid : id ∈ s.peerIds := mem_peerIds.mpr ⟨peer, hpeer⟩
  -- a word of the pool is held by nobody else, which is what makes the listing fresh
  have hfresh : ∀ id' ∈ s.live, word ∉ (s.conn id').words := fun id' ↦ h.not_mem_of_pool hpool
  set c := (s.conn id).registerSession word entry.wordId entry peer with hc
  have hwords : c.words = word :: (s.conn id).words :=
    PeerConnection.words_registerSession (hfresh id hlive) entry peer
  set s' := s.list id peer word entry with hs'
  have hconn : ∀ id', id' ≠ id → s'.conn id' = s.conn id' := fun id' hne ↦
    setConn_ne s hne _
  have hnew : s'.conn id = c := setConn_self s _ _
  have hmem : ∀ id' word', word' ∈ (s'.conn id').words ↔
      word' ∈ (s.conn id').words ∨ id' = id ∧ word' = word := by
    intro id' word'
    by_cases hne : id' = id
    · rw [hne, hnew, hwords, List.mem_cons, or_comm]
      simp only [true_and]
    · rw [hconn id' hne]
      simp only [hne, false_and, or_false]
  have hlists : ∀ id' word', s'.Lists id' word' ↔
      s.Lists id' word' ∨ id' = id ∧ word' = word := by
    intro id' word'
    rw [Lists, Lists, hmem]
    constructor
    · rintro ⟨hid', hin | heq⟩
      · exact .inl ⟨hid', hin⟩
      · exact .inr heq
    · rintro (⟨hid', hin⟩ | ⟨rfl, rfl⟩)
      · exact ⟨hid', .inl hin⟩
      · exact ⟨hid, .inr ⟨rfl, rfl⟩⟩
  -- the word passes from the pool to the connection
  refine ⟨h.ids, h.made, ?_, ?_, ?_, ?_, h.orderly, ?_, ?_, h.unregistering_nodup, h.entering, ?_,
    h.clear⟩
  · intro id'
    by_cases hne : id' = id
    · rw [hne, hnew]
      exact (h.mapped id).registerSession (hfresh id hlive) hremote entry peer
    · rw [hconn id' hne]
      exact h.mapped id'
  · refine h.custody.move (a := .pool) (b := .conn id) (l := [word]) Owner.noConfusion
      (List.perm_cons_erase hpool) ?_ ?_
    · have hlive' : id ∈ s'.live := hlive
      rw [holds_live hlive, holds_live hlive', hnew, hwords]
      exact .refl _
    · rintro (_ | _ | id' | _) hpool' hconn'
      · exact absurd rfl hpool'
      · rfl
      · have hne : id' ≠ id := fun heq ↦ hconn' (heq ▸ rfl)
        rw [holds, holds, hconn id' hne]
        rfl
      · rfl
  · intro peer' id' hpeer' word' hword'
    have hindex : s'.wordIndex = s.wordIndex.insert word peer := rfl
    rw [hindex]
    rcases (hmem id' word').mp hword' with hin | ⟨rfl, rfl⟩
    · rw [AList.lookup_insert_ne]
      · exact h.indexed peer' id' hpeer' word' hin
      · rintro rfl
        exact hfresh id' (live_of_peers hpeer') hin
    · rw [AList.lookup_insert, h.peer_unique hpeer hpeer']
  · intro word' peer' hword'
    rcases lookup_insert_some hword' with ⟨rfl, rfl⟩ | ⟨-, hold⟩
    · exact .inl ⟨id, hpeer, (hmem id word').mpr (.inr ⟨rfl, rfl⟩)⟩
    · rcases h.index word' peer' hold with ⟨id', hpeer', hin⟩ | hin
      · exact .inl ⟨id', hpeer', (hmem id' word').mpr (.inl hin)⟩
      · exact .inr hin
  · intro word' hword'
    have hnone : s'.awaiting = s.awaiting := rfl
    rw [hnone, hawaiting] at hword'
    cases hword'
  · exact fun id' word' hact ↦ (hlists id' word').mpr (.inl (h.unregistering id' word' hact))
  · intro id' word'
    have hcount : s'.listed.count (id', word') = s.listed.count (id', word') +
        if id' = id ∧ word' = word then 1 else 0 := by
      rw [hs', PeerManager.list, (List.perm_append_singleton _ _).count_eq]
      exact count_cons_pair _ id id' word word'
    -- nothing was listed under it before, so the listing is counted once
    have hexcl : id' = id ∧ word' = word → ¬ s.Lists id' word' := by
      rintro ⟨rfl, rfl⟩ hin
      exact hfresh id' hlive hin.2
    rw [hcount, h.once]
    simp only [hlists]
    by_cases hsame : id' = id ∧ word' = word
    · rw [if_pos hsame, if_neg (hexcl hsame), if_pos (.inr hsame)]
      rfl
    · rw [if_neg hsame]
      simp only [hsame, or_false]
      rfl

/-- The listing of a session is refreshed. -/
theorem Inv.refresh (h : s.Inv) {remote : WordId}
    (hword : (s.conn id).remoteToLocal.lookup remote = some word) (entry : SessionEntry) :
    (s.setConn id { s.conn id with
      sessions := (s.conn id).sessions.insert word entry }).Inv := by
  set c : PeerConnection := { s.conn id with
    sessions := (s.conn id).sessions.insert word entry } with hc
  have hwords : ∀ id', ((s.setConn id c).conn id').words = (s.conn id').words := by
    intro id'
    by_cases hne : id' = id
    · rw [hne, setConn_self]
      rfl
    · rw [setConn_ne s hne]
  have hmapped : ∀ id', ((s.setConn id c).conn id').Mapped := by
    intro id'
    by_cases hne : id' = id
    · rw [hne, setConn_self]
      exact (h.mapped id).refresh hword entry
    · rw [setConn_ne s hne]
      exact h.mapped id'
  have hlists : ∀ id' word', (s.setConn id c).Lists id' word' ↔ s.Lists id' word' := by
    intro id' word'
    rw [Lists, hwords]
    exact Iff.rfl
  refine { h with
    mapped := hmapped, custody := ?_, indexed := ?_, index := ?_, unregistering := ?_, once := ?_ }
  · refine h.custody.congr fun o ↦ ?_
    rcases o with _ | _ | id' | _
    · exact .refl _
    · exact .refl _
    · rw [holds, hwords]
      exact .refl _
    · exact .refl _
  · intro peer' id' hpeer' word' hword'
    rw [hwords] at hword'
    exact h.indexed peer' id' hpeer' word' hword'
  · intro word' peer' hword'
    simp only [hwords]
    exact h.index word' peer' hword'
  · exact fun id' word' hact ↦ (hlists id' word').mpr (h.unregistering id' word' hact)
  · intro id' word'
    simp only [hlists]
    exact h.once id' word'

/-- **One act** of the gate's holder. -/
theorem Inv.work (h : s.Inv) (choice : WordId) : (s.step (.work choice)).Inv := by
  rw [step]
  split
  next => exact h
  next a gate hgate =>
    have horderly : ∀ b ∈ gate, b.isAnnounce = false := fun b hb ↦ by
      have hall := h.orderly
      rw [hgate] at hall
      exact hall b hb
    have hnext : a ∈ s.gate := by
      rw [hgate]
      exact List.mem_cons_self
    have hawaiting : { s with gate }.awaiting = none :=
      awaiting_eq_none fun b hb ↦ horderly b (List.mem_of_mem_head? hb)
    -- a session of an open peer, under a word drawn for it
    have hlist : ∀ (id : ℕ) (peer : PeerId) (entry : SessionEntry) (word : WordId),
        s.peers.lookup peer = some id → (s.conn id).remoteToLocal.lookup entry.wordId = none →
        { s with gate }.Inv → { s with gate }.draw choice = some word →
        ({ s with gate }.list id peer word entry).Inv := by
      intro id peer entry word hpeer hremote hinv hword
      exact hinv.list hpeer (mem_draw hword) hawaiting hremote
    cases a with
    | unregister id word =>
      have hnodup := h.unregistering_nodup
      rw [hgate, List.filterMap_cons_some (show Act.unregistered? _ = some word from rfl),
        List.nodup_cons] at hnodup
      exact (h.pop hgate rfl).unregister (h.unregistering id word hnext) horderly hnodup.1
    | forget id word => exact h.forget hgate
    | announce id word => exact h.announce hgate
    | enter id peer entry =>
      have hpeer := h.entering id peer entry (.inl hnext)
      rw [act]
      split
      next word hword => exact (h.pop hgate rfl).refresh hword _
      next hremote =>
        split
        next word hword => exact hlist id peer entry word hpeer hremote (h.pop hgate rfl) hword
        next => exact h.pop hgate rfl
    | create id peer entry =>
      have hpeer := h.entering id peer entry (.inr hnext)
      rw [act]
      split
      next => exact h.pop hgate rfl
      next hnone =>
        suffices hremote : (s.conn id).remoteToLocal.lookup entry.wordId = none by
          split
          next word hword => exact hlist id peer entry word hpeer hremote (h.pop hgate rfl) hword
          next => exact h.pop hgate rfl
        rcases hremote : (s.conn id).remoteToLocal.lookup entry.wordId with _ | word
        · rfl
        · -- a word that leads back has its session listed
          have hmem : word ∈ (s.conn id).sessions := ((h.mapped id).sessions word).mpr
            (mem_of_lookup (((h.mapped id).inverse word entry.wordId).mpr hremote))
          dsimp only at hnone
          rw [hremote, Option.bind_some] at hnone
          exact absurd hmem (AList.lookup_eq_none.mp hnone)

/-- **One step.** -/
theorem Inv.step (h : s.Inv) (e : PeerEvent) (hguard : s.Guarded e) : (s.step e).Inv := by
  cases e with
  | localCreate choice => exact h.localCreate hguard
  | localClose word => exact h.localClose word
  | connect peer => exact h.connect peer
  | register id entry choice => exact h.register hguard
  | publish id => exact h.publish id
  | remoteClosed id remoteWord => exact h.remoteClosed hguard
  | reconcile id peer listed => exact h.reconcile id peer listed
  | relink id peer listed => exact h.reconcile id peer listed
  | created id peer entry => exact h.created id peer entry
  | closePeer peer => exact h.closePeer peer
  | work choice => exact h.work choice

theorem Inv.federated (h : s.Inv) : s.Federated where
  mapped := fun _ id _ ↦ h.mapped id
  index := fun peer id hpeer word ↦ by
    constructor
    · refine fun hword ↦ ⟨h.indexed peer id hpeer word hword, fun hclosing ↦ ?_⟩
      cases h.owner_eq (o := .gate) (live_of_peers hpeer) hword hclosing
    · rintro ⟨hword, hclosing⟩
      rcases h.index word peer hword with ⟨id', hpeer', hmem⟩ | hmem
      · rw [hpeer, Option.some.injEq] at hpeer'
        rw [hpeer']
        exact hmem
      · exact absurd hmem hclosing
  owner := fun peer id hpeer word hword ↦ by
    have hlive : id ∈ s.live := live_of_peers hpeer
    refine ⟨fun hin ↦ ?_, fun hin ↦ ?_, fun o ho hin ↦ ?_, fun peer' id' hpeer' hin ↦ ?_⟩
    · cases h.owner_eq (o := .pool) hlive hword hin
    · cases h.owner_eq (o := .locals) hlive hword hin
    · have hmem : o.1 ∈ s.opening.map Prod.fst := List.mem_map_of_mem ho
      have heq := h.conn_eq hlive hword (List.mem_append_left _ hmem) hin
      exact h.not_peer_of_opening hmem (mem_peerIds.mpr ⟨peer, heq ▸ hpeer⟩)
    · have heq := h.conn_eq hlive hword (live_of_peers hpeer') hin
      rw [heq] at hpeer'
      exact h.peer_unique hpeer hpeer'
  once := h.once
  clear := h.clear

/-- **The words of federated sessions are in order** after every step of a run, as long as no frame
closes a session of a connection that is not a peer's, no first list names a session twice, and no
word is drawn before the end of its last session has been announced. -/
theorem words_federated {pool : List WordId} (hpool : pool.Nodup) (es : List PeerEvent)
    (h : Run.Ok PeerManager.step Guarded (new pool) es) (n : ℕ) :
    (Run.exec PeerManager.step (new pool) (es.take n)).Federated := by
  have hstep : ∀ (s : PeerManager) (e : PeerEvent), s.Inv → s.Guarded e → (s.step e).Inv :=
    fun _ e hs hguard ↦ hs.step e hguard
  rw [← List.take_append_drop n es, Run.ok_append] at h
  exact (Run.invariant_of_ok hstep _ (new pool) (inv_new hpool) h.1).federated

-- two opens race; a session is created, two lists come in, a session and then the peer is closed
theorem words_federated_closed :
    let es : List PeerEvent :=
      [.connect "p", .connect "p", .register 1 ⟨"oak", "work", none, []⟩ "elm",
        .register 0 ⟨"oak", "work", none, []⟩ "fir", .publish 1, .publish 0,
        .created 1 "p" ⟨"ash", "play", none, []⟩, .work "fir",
        .reconcile 1 "p" [⟨"ash", "play", none, []⟩, ⟨"yew", "rest", none, []⟩], .work "",
        .localCreate "yew",
        .work "", .work "", .work "elm", .remoteClosed 1 "ash", .work "", .work "",
        .relink 1 "p" [⟨"yew", "rest", none, []⟩], .work "", .closePeer "p", .work "", .work ""]
    (Run.exec PeerManager.step (new ["elm", "fir", "yew"]) (es.take 22)).Federated ∧
      (Run.exec PeerManager.step (new ["elm", "fir", "yew"]) es).closed =
        [⟨1, "elm", true⟩, ⟨1, "fir", true⟩, ⟨1, "elm", true⟩] :=
  ⟨words_federated (by decide) _ (by decide +kernel) 22, by decide +kernel⟩

/-- A peer with one session is open. -/
def openedPeer : List PeerEvent :=
  [.connect "p", .register 0 ⟨"oak", "work", none, []⟩ "elm", .publish 0]

/-- A frame handled after its peer was closed broadcasts the end of its session again, or takes a
session of the peer that has drawn the word since; a first list that names a session twice breaks
the maps; and a word may be a new session's when the end of its last is broadcast. -/
theorem words_not_federated :
    ¬ (Run.exec PeerManager.step (new ["elm", "fir"]) (openedPeer ++
      [.closePeer "p", .work "", .work "", .remoteClosed 0 "oak", .work "", .work ""])).Federated ∧
    ¬ (Run.exec PeerManager.step (new ["elm", "fir"]) (openedPeer ++
      [.closePeer "p", .work "", .work "", .connect "q",
        .register 1 ⟨"yew", "rest", none, []⟩ "elm", .publish 1,
        .remoteClosed 0 "oak", .work "", .work ""])).Federated ∧
    ¬ (Run.exec PeerManager.step (new ["elm", "fir"])
      [.connect "p", .register 0 ⟨"oak", "work", none, []⟩ "elm",
        .register 0 ⟨"oak", "work", none, []⟩ "fir", .publish 0]).Federated ∧
    ¬ (Run.exec PeerManager.step (new ["elm", "fir"]) (openedPeer ++
      [.closePeer "p", .work "", .localCreate "elm", .work ""])).Federated := by
  refine ⟨fun h ↦ ?_, fun h ↦ ?_, fun h ↦ ?_, fun h ↦ ?_⟩
  · exact absurd (h.once 0 "elm") (by decide +kernel)
  · exact absurd (h.once 1 "elm") (by decide +kernel)
  · exact absurd ((h.mapped "p" 0 (by decide +kernel)).inverse "elm" "oak") (by decide +kernel)
  · exact absurd (h.clear ⟨0, "elm", false⟩ (by decide +kernel)) Bool.false_ne_true

end PeerManager

end Federation

end Kmux
