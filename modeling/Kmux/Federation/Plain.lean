import Kmux.Federation.Connection

/-!
# What the operations on viewers, sessions and locks send

Most operations of a connection answer no request: they change the panes, the words or the locks,
and tell the peer in messages that carry no id. `Plain` says so once. The routing reads nothing else
of them, so a property of the routes and of the channel that survives one such message survives
every operation below.
-/

namespace Kmux

namespace Federation

/-- A connection has sent plain messages, and changed in what routing does not read. -/
inductive Plain : PeerConnection → PeerConnection → Prop
  | keep {c c' : PeerConnection} (routes : c'.routes = c.routes)
      (clientTx : c'.clientTx = c.clientTx) (dead : c'.dead = c.dead)
      (relayed : c'.relayed = c.relayed)
      (told : ∃ notes, c'.told = c.told ++ notes ∧ ∀ d ∈ notes, d.call = none) : Plain c c'
  | send (c : PeerConnection) (sender : Requester) (msg : ClientMessage)
      (ping : msg.isPing = false) (id : msg.requestId? = none) : Plain c (c.send sender msg none)
  | trans {c₁ c₂ c₃ : PeerConnection} (h : Plain c₁ c₂) (h' : Plain c₂ c₃) : Plain c₁ c₃

namespace Plain

variable {c : PeerConnection}

theorem refl (c : PeerConnection) : Plain c c :=
  .keep rfl rfl rfl rfl ⟨[], (List.append_nil _).symm, by simp⟩

/-- The words, the sessions, the panes and the locks are not read. -/
theorem maps {c c' : PeerConnection} (routes : c'.routes = c.routes)
    (clientTx : c'.clientTx = c.clientTx) (dead : c'.dead = c.dead)
    (relayed : c'.relayed = c.relayed) (told : c'.told = c.told) : Plain c c' :=
  .keep routes clientTx dead relayed ⟨[], by rw [told, List.append_nil], by simp⟩

/-- A change of the maps, then an operation. -/
theorem after_maps {c c' c'' : PeerConnection} (h : Plain c' c'')
    (routes : c'.routes = c.routes := by rfl) (clientTx : c'.clientTx = c.clientTx := by rfl)
    (dead : c'.dead = c.dead := by rfl) (relayed : c'.relayed = c.relayed := by rfl)
    (told : c'.told = c.told := by rfl) : Plain c c'' :=
  (maps routes clientTx dead relayed told).trans h

theorem foldl {α : Type*} {f : PeerConnection → α → PeerConnection}
    (hf : ∀ c a, Plain c (f c a)) (l : List α) (c : PeerConnection) : Plain c (l.foldl f c) := by
  induction l generalizing c with
  | nil => exact refl c
  | cons a l ih => exact (hf c a).trans (ih (f c a))

theorem tell (c : PeerConnection) (sender : Requester) (msg : ServerMessage) :
    Plain c (c.tell sender msg none) := by
  refine .keep rfl rfl rfl rfl ⟨_, rfl, ?_⟩
  rcases sender with _ | ⟨client, ctrl⟩ <;> simp [Requester.answer]

theorem relayed {c c' : PeerConnection} (h : Plain c c') : c'.relayed = c.relayed := by
  induction h with
  | keep _ _ _ relayed _ => exact relayed
  | send c sender msg _ _ => exact PeerConnection.send_relayed c sender msg none
  | trans _ _ ih ih' => exact ih'.trans ih

/-! ## Sessions -/

theorem registerSession (c : PeerConnection) (localWord remoteWord : WordId)
    (entry : SessionEntry) (peer : PeerId) :
    Plain c (c.registerSession localWord remoteWord entry peer) := maps rfl rfl rfl rfl rfl

theorem unregisterSession (c : PeerConnection) (word : WordId) :
    Plain c (c.unregisterSession word) := maps rfl rfl rfl rfl rfl

theorem remoteSessionClosed (c : PeerConnection) (isOpen : Bool) (word : WordId) :
    Plain c (c.remoteSessionClosed isOpen word) := by
  rw [PeerConnection.remoteSessionClosed]
  split
  · split
    · exact unregisterSession c _
    · exact refl c
  · exact refl c

private theorem reconcile_step (peer : PeerId) (s : PeerConnection × List WordId)
    (entry : SessionEntry) :
    Plain s.1 (PeerConnection.reconcileSessions.step peer s entry).1 := by
  obtain ⟨c, words⟩ := s
  rw [PeerConnection.reconcileSessions.step.eq_def]
  dsimp only
  split
  · exact maps rfl rfl rfl rfl rfl
  · exact refl c
  · exact registerSession c _ _ entry peer

theorem reconcileSessions (c : PeerConnection) (peer : PeerId) (listed : List SessionEntry)
    (drawn : List WordId) : Plain c (c.reconcileSessions peer listed drawn) := by
  have hlisted : ∀ (listed : List SessionEntry) (s : PeerConnection × List WordId),
      Plain s.1 (listed.foldl (PeerConnection.reconcileSessions.step peer) s).1 := by
    intro listed
    induction listed with
    | nil => exact fun s ↦ refl s.1
    | cons entry listed ih => exact fun s ↦ (reconcile_step peer s entry).trans (ih _)
  rw [PeerConnection.reconcileSessions]
  exact (foldl unregisterSession _ c).trans (hlisted listed (_, drawn))

theorem registerCreated (c : PeerConnection) (peer : PeerId) (entry : SessionEntry)
    (drawn : Option WordId) : Plain c (c.registerCreated peer entry drawn).1 := by
  rw [PeerConnection.registerCreated.eq_def]
  split
  · exact refl c
  · split
    · exact refl c
    · exact registerSession c _ _ entry peer

theorem routedReply (c : PeerConnection) (outside : PeerConnection.Outside) (route : Route)
    (msg : ServerMessage) : Plain c (c.routedReply outside route msg).1 := by
  rw [PeerConnection.routedReply.eq_def]
  split
  next requestId entry =>
    have hcreated : Plain c (if outside.isOpen
        then c.registerCreated outside.peer entry outside.drawn.head? else (c, none)).1 := by
      split
      · exact registerCreated c _ entry _
      · exact refl c
    revert hcreated
    dsimp only
    generalize (if outside.isOpen
      then c.registerCreated outside.peer entry outside.drawn.head? else (c, none)) = registered
    rcases registered with ⟨c', _ | entry'⟩
    · exact id
    · exact id
  next =>
    split
    · exact refl c
    · exact refl c

theorem afterReply (c : PeerConnection) (outside : PeerConnection.Outside) (msg : ServerMessage) :
    Plain c (c.afterReply outside msg) := by
  rw [PeerConnection.afterReply.eq_def]
  split
  · exact remoteSessionClosed c outside.isOpen _
  · exact refl c

/-! ## Locks -/

theorem relock (c : PeerConnection) (pane : PaneId) : Plain c (c.relock pane) := by
  rw [PeerConnection.relock]
  split
  · exact .send c .hub _ rfl rfl
  · exact refl c

theorem lockReleased (c : PeerConnection) (pane : PaneId) (sender : Requester) :
    Plain c (c.lockReleased pane sender) := by
  rw [PeerConnection.lockReleased]
  split
  · exact refl c
  · split
    · exact maps rfl rfl rfl rfl rfl
    · split
      · exact relock c pane
      · exact refl c

theorem lockRefused (c : PeerConnection) (pane : PaneId) (sender : Requester) :
    Plain c (c.lockRefused pane sender) := by
  rw [PeerConnection.lockRefused]
  split
  · exact refl c
  · split
    · split
      · split
        · exact after_maps (tell _ _ _)
        · exact maps rfl rfl rfl rfl rfl
      · exact refl c
    · exact refl c

theorem recordGrant (c : PeerConnection) (sender : Requester) (pane : PaneId) :
    Plain c (c.recordGrant sender pane) := by
  rw [PeerConnection.recordGrant]
  split
  · exact maps rfl rfl rfl rfl rfl
  · split
    · exact .send c .hub _ rfl rfl
    · exact refl c

theorem onLockReply (c : PeerConnection) (sender : Requester) (msg : ServerMessage) :
    Plain c (c.onLockReply sender msg).1 := by
  rw [PeerConnection.onLockReply.eq_def]
  split
  · split
    · split
      · exact refl c
      · exact recordGrant c sender _
    · exact recordGrant c sender _
  · exact lockReleased c _ sender
  · exact lockRefused c _ sender
  · exact refl c

theorem giveBack (c : PeerConnection) (pane : PaneId) : Plain c (c.giveBack pane) := by
  rw [PeerConnection.giveBack]
  split
  · exact after_maps (.send _ .hub _ rfl rfl)
  · exact maps rfl rfl rfl rfl rfl

theorem releaseLocksOf (c : PeerConnection) (holder : Requester) :
    Plain c (c.releaseLocksOf holder) := foldl giveBack _ c

theorem releaseInputLock (c : PeerConnection) (sender : Requester) (pane : PaneId) :
    Plain c (c.releaseInputLock sender pane).1 := by
  rw [PeerConnection.releaseInputLock]
  split
  · split
    · exact .send c sender _ rfl rfl
    · exact refl c
  · exact refl c

/-! ## Viewers -/

theorem resync (c : PeerConnection) (pane : PaneId) : Plain c (c.resync pane) := by
  rw [PeerConnection.resync]
  split
  · exact .send c .hub _ rfl rfl
  · exact refl c

theorem reattachPanes (c : PeerConnection) : Plain c c.reattachPanes := foldl resync _ c

theorem reconcileSize (c : PeerConnection) (pane remote : PaneId) :
    Plain c (c.reconcileSize pane remote) := by
  rw [PeerConnection.reconcileSize]
  split
  · split
    · exact refl c
    · exact after_maps (.send _ .hub _ rfl rfl)
  · exact refl c

theorem releaseViewer (c : PeerConnection) (pane : PaneId) (client : ClientId) :
    Plain c (c.releaseViewer pane client) := by
  rw [PeerConnection.releaseViewer]
  split
  · exact refl c
  · next remote _ =>
    have hlock : Plain c (if c.holder pane = some client then c.giveBack pane else c) := by
      split
      · exact giveBack c pane
      · exact refl c
    refine hlock.trans ?_
    generalize (if c.holder pane = some client then c.giveBack pane else c) = c'
    dsimp only
    split
    · exact refl c'
    · split
      · exact after_maps (.send _ .hub _ rfl rfl)
      · exact after_maps (reconcileSize _ pane remote)

theorem detachChannel (c : PeerConnection) (client : ClientId) (ctrl : ChannelId) :
    Plain c (c.detachChannel client ctrl) := by
  rw [PeerConnection.detachChannel]
  exact (foldl (fun c pane ↦ releaseViewer c pane client) _ c).trans (releaseLocksOf _ _)

theorem attachViewer (c : PeerConnection) (pane : PaneId) (client : ClientId) (ctrl : ChannelId)
    (size : TermSize) : Plain c (c.attachViewer pane client ctrl size) := by
  rw [PeerConnection.attachViewer]
  split
  · exact refl c
  · next remote _ =>
    have hlock : Plain c (if c.holder pane = some client then
        { c with inputLocks := c.inputLocks.insert pane (.client client ctrl) } else c) := by
      split
      · exact maps rfl rfl rfl rfl rfl
      · exact refl c
    refine hlock.trans ?_
    generalize (if c.holder pane = some client then
      { c with inputLocks := c.inputLocks.insert pane (.client client ctrl) } else c) = c'
    dsimp only
    split
    · exact after_maps (reconcileSize _ pane remote)
    · exact after_maps (.send _ (.client client ctrl) _ rfl rfl)

theorem resizeViewer (c : PeerConnection) (pane : PaneId) (client : ClientId) (size : TermSize) :
    Plain c (c.resizeViewer pane client size) := by
  rw [PeerConnection.resizeViewer]
  split
  · exact refl c
  · split
    · split
      · exact after_maps (reconcileSize _ pane _)
      · exact reconcileSize c pane _
    · exact refl c

theorem dropViewer (c : PeerConnection) (pane : PaneId) (client : ClientId) :
    Plain c (c.dropViewer pane client) := by
  rw [PeerConnection.dropViewer]
  split
  · exact maps rfl rfl rfl rfl rfl
  · exact refl c

end Plain

end Federation

end Kmux
