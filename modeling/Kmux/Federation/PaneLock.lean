import Kmux.Daemon.Clients

/-!
# The input lock of one proxied pane

What the hub and the peer do to the lock of a pane, as a protocol of its own. The hub records which
of its clients holds the lock, and whether it proxies the pane; the peer has one lock, which is the
hub's, a direct client's or free, and knows whether the hub is attached. Messages and replies travel
in order. A client's request carries whether its grant may be recorded: it is *clean* while the hub
has sent, after it, neither another client's release nor anything that makes the peer drop the lock
without a word.

The two copies of the lock agree whenever nothing is on its way (`Inv.agrees`). One direction holds
whatever the hub does: a grant ends with a holder or is given back. The other needs that a holder is
*backed*: by the peer's lock, by a message on its way whose answer unseats the holder or makes the
hub ask again, or by such an answer.
-/

namespace Kmux

namespace Federation

/-- Who has the peer's lock. -/
inductive PeerLock
  | free
  | ours
  | theirs
  deriving DecidableEq, Repr

/-- What the hub sends about the lock of a pane. -/
inductive LockMsg
  /-- A client's request. -/
  | ask (client : ClientId) (clean : Bool)
  /-- The hub's own, for a client that holds the lock here. -/
  | relock
  /-- A client's release. -/
  | free (client : ClientId)
  /-- The hub's own, of a grant nobody needs. -/
  | giveBack
  /-- The first viewer's attach. -/
  | attach
  /-- The attach for a fresh snapshot. -/
  | resync
  | detach
  deriving DecidableEq, Repr

/-- What the peer answers. -/
inductive LockReply
  | granted (client : ClientId) (clean : Bool)
  | regranted
  /-- A request was denied; `none` is the hub's own. -/
  | denied (client : Option ClientId)
  | freed (client : ClientId)
  | gaveBack
  deriving DecidableEq, Repr

/-- A message after which another client's grant is not to be trusted. -/
def LockMsg.spoils (m : LockMsg) (client : ClientId) : Bool :=
  match m with
  | .free c => decide (c ≠ client)
  | .resync | .detach => true
  | _ => false

/-- What a request is worth once `m` has been sent after it. -/
def LockMsg.soil (m : LockMsg) : LockMsg → LockMsg
  | .ask client clean => .ask client (clean && !m.spoils client)
  | msg => msg

/-- What a grant is worth. -/
def LockReply.soil (m : LockMsg) : LockReply → LockReply
  | .granted client clean => .granted client (clean && !m.spoils client)
  | reply => reply

def LockReply.isGrant : LockReply → Bool
  | .granted _ _ | .regranted => true
  | _ => false

/-- An answer that unseats a holder, or makes the hub ask again for it. -/
def LockReply.mends (client : ClientId) : LockReply → Bool
  | .denied none | .gaveBack => true
  | .denied (some c) | .freed c => decide (c = client)
  | _ => false

structure PaneLock where
  /-- The client recorded as the holder. -/
  holder : Option ClientId
  /-- The hub proxies the pane. -/
  shown : Bool
  /-- The oldest first, as for the replies. -/
  up : List LockMsg
  down : List LockReply
  lock : PeerLock
  /-- The peer has the hub attached to the pane. -/
  attached : Bool

namespace PaneLock

def send (k : PaneLock) (m : LockMsg) : PaneLock :=
  { k with up := k.up.map m.soil ++ [m], down := k.down.map (LockReply.soil m) }

/-- The peer's lock when the hub's attachment ends. -/
def unlocked (k : PaneLock) : PeerLock :=
  if k.attached = true ∧ k.lock = .ours then .free else k.lock

/-- The peer handles a message. -/
def serve (k : PaneLock) : LockMsg → PaneLock
  | .ask client clean =>
    if k.lock = .theirs then { k with down := k.down ++ [.denied (some client)] }
    else { k with lock := .ours, down := k.down ++ [.granted client clean] }
  | .relock =>
    if k.lock = .theirs then { k with down := k.down ++ [.denied none] }
    else { k with lock := .ours, down := k.down ++ [.regranted] }
  | .free client =>
    if k.lock = .ours then { k with lock := .free, down := k.down ++ [.freed client] } else k
  | .giveBack =>
    if k.lock = .ours then { k with lock := .free, down := k.down ++ [.gaveBack] } else k
  | .attach | .resync => { k with lock := k.unlocked, attached := true }
  | .detach => { k with lock := k.unlocked, attached := false }

/-! ## Moves -/

/-- What may happen to the lock of a pane. -/
inductive Move : PaneLock → PaneLock → Prop
  | ask (k : PaneLock) (client : ClientId) (clean : Bool) : Move k (k.send (.ask client clean))
  | giveBack (k : PaneLock) : Move k (k.send .giveBack)
  | free (k : PaneLock) (client : ClientId) (holds : k.holder = some client) :
      Move k (k.send (.free client))
  | attach (k : PaneLock) (hidden : k.shown = false) :
      Move k ({ k with shown := true }.send .attach)
  | resync (k : PaneLock) (shown : k.shown = true) (holds : k.holder = none) :
      Move k (k.send .resync)
  | detach (k : PaneLock) (shown : k.shown = true) (holds : k.holder = none) :
      Move k ({ k with shown := false }.send .detach)
  /-- The holder leaves. -/
  | leave (k : PaneLock) : Move k ({ k with holder := none }.send .giveBack)
  | serve (k : PaneLock) (m : LockMsg) (up : List LockMsg) (next : k.up = m :: up) :
      Move k ({ k with up }.serve m)
  /-- A grant is recorded. -/
  | record (k : PaneLock) (client : ClientId) (clean : Bool) (down : List LockReply)
      (next : k.down = .granted client clean :: down)
      (holds : k.holder = some client ∨ k.holder = none ∧ clean = true) :
      Move k { k with down, holder := some client }
  /-- A grant finds a holder. -/
  | keep (k : PaneLock) (reply : LockReply) (down : List LockReply) (next : k.down = reply :: down)
      (grant : reply.isGrant) (holds : k.holder ≠ none) : Move k { k with down }
  /-- A grant is given back. -/
  | decline (k : PaneLock) (reply : LockReply) (down : List LockReply)
      (next : k.down = reply :: down) (grant : reply.isGrant) :
      Move k ({ k with down }.send .giveBack)
  /-- The holder is unseated. -/
  | unseat (k : PaneLock) (reply : LockReply) (down : List LockReply)
      (next : k.down = reply :: down)
      (reason : (∃ client, reply = .denied client) ∨ ∃ client, reply = .freed client) :
      Move k { k with down, holder := none }
  /-- An answer that does not concern the holder. -/
  | ignore (k : PaneLock) (reply : LockReply) (down : List LockReply)
      (next : k.down = reply :: down)
      (other : (∃ client, reply = .denied (some client) ∧ k.holder ≠ some client) ∨
        ∃ client, reply = .freed client ∧ k.holder ≠ some client) : Move k { k with down }
  /-- Nobody holds the lock here. -/
  | vacant (k : PaneLock) (reply : LockReply) (down : List LockReply)
      (next : k.down = reply :: down)
      (reason : (∃ client, reply = .denied client) ∨ (∃ client, reply = .freed client) ∨
        reply = .gaveBack) (holds : k.holder = none) : Move k { k with down }
  /-- The give-back of a stale grant took the holder's lock: the hub asks again. -/
  | relock (k : PaneLock) (down : List LockReply) (next : k.down = .gaveBack :: down) :
      Move k ({ k with down }.send .relock)
  /-- A direct client takes the peer's lock, or leaves it. -/
  | take (k : PaneLock) (free : k.lock = .free) : Move k { k with lock := .theirs }
  | quit (k : PaneLock) (theirs : k.lock = .theirs) : Move k { k with lock := .free }

/-! ## The invariant -/

/-- A holder is backed by what is on its way up to a lock that is the hub's, or is not. -/
def Backs (client : ClientId) : Bool → List LockMsg → Prop
  | ours, [] => ours
  | ours, .ask c _ :: up => Backs client (ours || decide (c = client)) up
  | _, .relock :: up => Backs client true up
  | ours, .free c :: up => (ours = true ∧ c = client) ∨ Backs client false up
  | ours, .giveBack :: up => ours = true ∨ Backs client false up
  | ours, .attach :: up => Backs client ours up
  | _, .resync :: up | _, .detach :: up => Backs client false up

/-- Every answer that ends a hold is followed by a grant. -/
def Renewed : List LockReply → Prop
  | [] => True
  | reply :: down => (reply.isGrant = false → ∃ grant ∈ down, grant.isGrant) ∧ Renewed down

/-- Every clean grant stands for the peer's lock, or is followed by an answer that mends it. -/
def Valid (ours : Bool) : List LockReply → Prop
  | [] => True
  | reply :: down => (∀ client, reply = .granted client true →
      ours = true ∨ ∃ mend ∈ down, mend.mends client) ∧ Valid ours down

/-- The clients with a clean grant on its way down. -/
def trusted (down : List LockReply) : List ClientId :=
  down.filterMap fun reply ↦
    match reply with
    | .granted client true => some client
    | _ => none

/-- Nothing on its way up comes after a clean request that it spoils. -/
def Clean : List ClientId → List LockMsg → Prop
  | _, [] => True
  | clients, .ask client true :: up => Clean (client :: clients) up
  | clients, m :: up => (∀ client ∈ clients, m.spoils client = false) ∧ Clean clients up

/-- The peer will have the hub attached exactly when the hub shows the pane. -/
def Attaches (shown : Bool) : Bool → List LockMsg → Prop
  | attached, [] => attached = shown
  | attached, .attach :: up => attached = false ∧ Attaches shown true up
  | attached, .resync :: up => attached = true ∧ Attaches shown true up
  | attached, .detach :: up => attached = true ∧ Attaches shown false up
  | attached, _ :: up => Attaches shown attached up

/-- What is on its way fits the peer's lock. -/
structure Orderly (lock : PeerLock) (up : List LockMsg) (down : List LockReply) : Prop where
  renewed : lock = .ours → Renewed down
  valid : Valid (decide (lock = .ours)) down
  clean : Clean (trusted down) up

structure Inv (k : PaneLock) : Prop where
  /-- Who holds the lock here has it at the peer, or will lose it or have it asked for. -/
  backed : ∀ client, k.holder = some client →
    (∃ reply ∈ k.down, reply.mends client) ∨ Backs client (decide (k.lock = .ours)) k.up
  /-- The hub's lock at the peer that nobody holds here is on its way to somebody, or back. -/
  unleaked : k.holder = none → k.lock = .ours →
    (∃ reply ∈ k.down, reply.isGrant) ∨ .giveBack ∈ k.up
  orderly : Orderly k.lock k.up k.down
  attaches : Attaches k.shown k.attached k.up

/-- **The two copies of the lock agree** when nothing is on its way. -/
theorem Inv.agrees {k : PaneLock} (h : k.Inv) (hup : k.up = []) (hdown : k.down = []) :
    k.holder.isSome ↔ k.lock = .ours := by
  constructor
  · intro hholder
    obtain ⟨client, hclient⟩ := Option.isSome_iff_exists.mp hholder
    rcases h.backed client hclient with ⟨reply, hmem, -⟩ | hbacks
    · rw [hdown] at hmem
      cases hmem
    · rw [hup] at hbacks
      exact of_decide_eq_true hbacks
  · intro hours
    rcases hholder : k.holder with _ | client
    · rcases h.unleaked hholder hours with ⟨reply, hmem, -⟩ | hmem
      · rw [hdown] at hmem
        cases hmem
      · rw [hup] at hmem
        cases hmem
    · rfl

/-! ### What is on its way up -/

section Up

variable {client : ClientId} {up : List LockMsg} {m : LockMsg}

/-- A lock that is the hub's backs whatever one that is not does. -/
theorem Backs.mono (h : Backs client false up) : Backs client true up := by
  induction up with
  | nil => cases h
  | cons m up ih =>
    cases m with
    | ask c clean =>
      rw [Backs, Bool.true_or]
      rw [Backs, Bool.false_or] at h
      rcases hc : decide (c = client) with _ | _
      · rw [hc] at h
        exact ih h
      · rw [hc] at h
        exact h
    | relock => exact h
    | free c =>
      rcases h with ⟨hours, -⟩ | h
      · cases hours
      · exact .inr h
    | giveBack => exact .inl rfl
    | attach => exact ih h
    | resync => exact h
    | detach => exact h

theorem Backs.of_false (h : Backs client false up) (ours : Bool) : Backs client ours up := by
  rcases ours with _ | _
  · exact h
  · exact h.mono

/-- What is sent after it takes no backing away, if it is not another client's release and does not
make the peer drop the lock. -/
theorem Backs.concat {ours : Bool} (h : Backs client ours up) (hm : m.spoils client = false) :
    Backs client ours (up ++ [m]) := by
  induction up generalizing ours with
  | nil =>
    obtain rfl : ours = true := h
    cases m with
    | ask c clean => exact rfl
    | relock => exact rfl
    | free c =>
      refine .inl ⟨rfl, ?_⟩
      rw [LockMsg.spoils, decide_eq_false_iff_not, not_not] at hm
      exact hm
    | giveBack => exact .inl rfl
    | attach => exact rfl
    | resync | detach => cases hm
  | cons m' up ih =>
    cases m' with
    | ask c clean => exact ih h
    | relock => exact ih h
    | free c => exact h.imp_right ih
    | giveBack => exact h.imp_right ih
    | attach => exact ih h
    | resync => exact ih h
    | detach => exact ih h

/-- Asking again backs the holder. -/
theorem Backs.concat_relock (client : ClientId) (ours : Bool) (up : List LockMsg) :
    Backs client ours (up ++ [.relock]) := by
  induction up generalizing ours with
  | nil => exact rfl
  | cons m up ih =>
    cases m with
    | ask c clean => exact ih _
    | relock => exact ih _
    | free c => exact .inr (ih _)
    | giveBack => exact .inr (ih _)
    | attach => exact ih _
    | resync => exact ih _
    | detach => exact ih _

/-- Whether requests are clean makes no difference. -/
theorem Backs.map_soil {ours : Bool} :
    Backs client ours (up.map m.soil) ↔ Backs client ours up := by
  induction up generalizing ours with
  | nil => exact Iff.rfl
  | cons m' up ih =>
    cases m' with
    | ask c clean => exact ih
    | relock => exact ih
    | free c => exact or_congr_right ih
    | giveBack => exact or_congr_right ih
    | attach => exact ih
    | resync => exact ih
    | detach => exact ih

/-- A clean grant of a lock that is still the hub's backs its holder. -/
theorem Clean.backs {clients : List ClientId} (h : Clean clients up) (hclient : client ∈ clients) :
    Backs client true up := by
  induction up generalizing clients with
  | nil => exact rfl
  | cons m up ih =>
    cases m with
    | ask c clean =>
      rcases clean with _ | _
      · exact ih h.2 hclient
      · exact ih h (List.mem_cons_of_mem c hclient)
    | relock => exact ih h.2 hclient
    | free c =>
      have hspoils := h.1 client hclient
      rw [LockMsg.spoils, decide_eq_false_iff_not, not_not] at hspoils
      exact .inl ⟨rfl, hspoils⟩
    | giveBack => exact .inl rfl
    | attach => exact ih h.2 hclient
    | resync | detach => cases h.1 client hclient

theorem Clean.mono {clients clients' : List ClientId} (h : Clean clients up)
    (hsub : clients' ⊆ clients) : Clean clients' up := by
  induction up generalizing clients clients' with
  | nil => trivial
  | cons m up ih =>
    cases m with
    | ask c clean =>
      rcases clean with _ | _
      · exact ⟨fun client hclient ↦ h.1 client (hsub hclient), ih h.2 hsub⟩
      · exact ih h (List.cons_subset_cons c hsub)
    | _ => exact ⟨fun client hclient ↦ h.1 client (hsub hclient), ih h.2 hsub⟩

/-- What is sent soils the requests that it spoils. -/
theorem Clean.send {clients : List ClientId} (h : Clean clients up) :
    Clean (clients.filter fun client ↦ !m.spoils client) (up.map m.soil ++ [m]) := by
  have hkept : ∀ {clients : List ClientId} {m' : LockMsg},
      (∀ client ∈ clients, m'.spoils client = false) →
        ∀ client ∈ clients.filter fun client ↦ !m.spoils client, m'.spoils client = false :=
    fun h client hclient ↦ h client (List.mem_filter.mp hclient).1
  induction up generalizing clients with
  | nil =>
    have hself : ∀ client ∈ clients.filter fun client ↦ !m.spoils client,
        m.spoils client = false := fun client hclient ↦
      Bool.not_eq_true' _ |>.mp (List.mem_filter.mp hclient).2
    cases m with
    | ask c clean =>
      rcases clean with _ | _
      · exact ⟨hself, trivial⟩
      · exact trivial
    | _ => exact ⟨hself, trivial⟩
  | cons m' up ih =>
    cases m' with
    | ask c clean =>
      rcases clean with _ | _
      · exact ⟨hkept h.1, ih h.2⟩
      · have hrest := ih h
        rw [List.map_cons, List.cons_append, LockMsg.soil, Bool.true_and]
        rcases hspoils : m.spoils c with _ | _
        · rw [List.filter_cons_of_pos (by rw [hspoils]; rfl)] at hrest
          exact hrest
        · rw [List.filter_cons_of_neg (by rw [hspoils]; exact Bool.false_ne_true)] at hrest
          exact ⟨fun _ _ ↦ rfl, hrest⟩
    | _ => exact ⟨hkept h.1, ih h.2⟩

theorem Attaches.map_soil {shown attached : Bool} :
    Attaches shown attached (up.map m.soil) ↔ Attaches shown attached up := by
  induction up generalizing attached with
  | nil => exact Iff.rfl
  | cons m' up ih =>
    cases m' with
    | attach | resync | detach => exact and_congr_right fun _ ↦ ih
    | _ => exact ih

/-- A message that neither attaches nor detaches. -/
theorem Attaches.concat {shown attached : Bool} (h : Attaches shown attached up)
    (hm : m ≠ .attach ∧ m ≠ .resync ∧ m ≠ .detach) : Attaches shown attached (up ++ [m]) := by
  induction up generalizing attached with
  | nil =>
    cases m with
    | attach => exact absurd rfl hm.1
    | resync => exact absurd rfl hm.2.1
    | detach => exact absurd rfl hm.2.2
    | _ => exact h
  | cons m' up ih =>
    cases m' with
    | attach | resync | detach => exact ⟨h.1, ih h.2⟩
    | _ => exact ih h

/-- One that does, at the right time. -/
theorem Attaches.concat_change {shown shown' attached : Bool} (h : Attaches shown attached up)
    (hm : Attaches shown' shown [m]) : Attaches shown' attached (up ++ [m]) := by
  induction up generalizing attached with
  | nil =>
    obtain rfl : attached = shown := h
    exact hm
  | cons m' up ih =>
    cases m' with
    | attach | resync | detach => exact ⟨h.1, ih h.2⟩
    | _ => exact ih h

end Up

/-! ### What is on its way down -/

section Down

variable {client : ClientId} {down : List LockReply} {reply : LockReply} {m : LockMsg}

/-- A grant renews everything before it. -/
theorem Renewed.concat (h : reply.isGrant) : Renewed (down ++ [reply]) := by
  induction down with
  | nil =>
    refine ⟨fun hnot ↦ ?_, trivial⟩
    rw [h] at hnot
    cases hnot
  | cons d down ih =>
    exact ⟨fun _ ↦ ⟨reply, List.mem_append_right _ List.mem_cons_self, h⟩, ih⟩

theorem isGrant_soil : (reply.soil m).isGrant = reply.isGrant := by cases reply <;> rfl

theorem mends_soil : (reply.soil m).mends client = reply.mends client := by
  cases reply with
  | denied c => rcases c with _ | c <;> rfl
  | _ => rfl

theorem exists_isGrant_map_soil :
    (∃ reply ∈ down.map (LockReply.soil m), reply.isGrant) ↔ ∃ reply ∈ down, reply.isGrant := by
  simp only [List.mem_map, exists_exists_and_eq_and, isGrant_soil]

theorem exists_mends_map_soil :
    (∃ reply ∈ down.map (LockReply.soil m), reply.mends client) ↔
      ∃ reply ∈ down, reply.mends client := by
  simp only [List.mem_map, exists_exists_and_eq_and, mends_soil]

theorem Renewed.map_soil : Renewed (down.map (LockReply.soil m)) ↔ Renewed down := by
  induction down with
  | nil => exact Iff.rfl
  | cons d down ih =>
    rw [List.map_cons, Renewed, Renewed, isGrant_soil, exists_isGrant_map_soil, ih]

theorem Valid.map_soil {ours : Bool} (h : Valid ours down) :
    Valid ours (down.map (LockReply.soil m)) := by
  induction down with
  | nil => trivial
  | cons d down ih =>
    refine ⟨fun client hclean ↦ ?_, ih h.2⟩
    rw [exists_mends_map_soil]
    refine h.1 client ?_
    cases d with
    | granted c clean =>
      obtain ⟨rfl, hkept⟩ := LockReply.granted.inj hclean
      rw [Bool.and_eq_true] at hkept
      rw [hkept.1]
    | _ => cases hclean

/-- An answer that is not a clean grant may follow. -/
theorem Valid.concat {ours : Bool} (h : Valid ours down)
    (hreply : ∀ client, reply ≠ .granted client true) : Valid ours (down ++ [reply]) := by
  induction down with
  | nil => exact ⟨fun client heq ↦ absurd heq (hreply client), trivial⟩
  | cons d down ih =>
    refine ⟨fun client hclean ↦ ?_, ih h.2⟩
    rcases h.1 client hclean with hours | ⟨mend, hmem, hmend⟩
    · exact .inl hours
    · exact .inr ⟨mend, List.mem_append_left _ hmem, hmend⟩

/-- While the lock is the hub's, every grant is valid. -/
theorem Valid.of_ours (down : List LockReply) : Valid true down := by
  induction down with
  | nil => trivial
  | cons d down ih => exact ⟨fun _ _ ↦ .inl rfl, ih⟩

/-- The lock is lost, with an answer that mends every clean grant. -/
theorem Valid.lose {ours : Bool} (hmends : ∀ client ∈ trusted down, reply.mends client)
    (hreply : reply.isGrant = false) : Valid ours (down ++ [reply]) := by
  induction down with
  | nil =>
    refine ⟨fun client heq ↦ ?_, trivial⟩
    rw [heq] at hreply
    cases hreply
  | cons d down ih =>
    refine ⟨fun client hclean ↦ .inr ⟨reply, List.mem_append_right _ List.mem_cons_self, ?_⟩,
      ih fun client hclient ↦ hmends client ?_⟩
    · refine hmends client ?_
      rw [hclean]
      exact List.mem_cons_self
    · exact (List.Sublist.filterMap _ (List.sublist_cons_self d down)).subset hclient

/-- The lock is lost, and no grant is clean. -/
theorem Valid.of_untrusted {ours : Bool} (h : trusted down = []) : Valid ours down := by
  induction down with
  | nil => trivial
  | cons d down ih =>
    have hrest : trusted down = [] := List.filterMap_eq_nil_iff.mpr fun reply hreply ↦
      List.filterMap_eq_nil_iff.mp h reply (List.mem_cons_of_mem d hreply)
    refine ⟨fun client hclean ↦ ?_, ih hrest⟩
    rw [hclean] at h
    cases h

theorem trusted_map_soil :
    trusted (down.map (LockReply.soil m)) =
      (trusted down).filter fun client ↦ !m.spoils client := by
  induction down with
  | nil => rfl
  | cons d down ih =>
    cases d with
    | granted c clean =>
      rcases clean with _ | _
      · exact ih
      · rw [show trusted (.granted c true :: down) = c :: trusted down from rfl, List.map_cons,
          LockReply.soil, Bool.true_and]
        rcases hspoils : m.spoils c with _ | _
        · rw [List.filter_cons_of_pos (by rw [hspoils]; rfl)]
          exact congrArg (c :: ·) ih
        · rw [List.filter_cons_of_neg (by rw [hspoils]; exact Bool.false_ne_true)]
          exact ih
    | _ => exact ih

theorem trusted_concat (h : ∀ client, reply ≠ .granted client true) :
    trusted (down ++ [reply]) = trusted down := by
  rw [trusted, List.filterMap_append, List.filterMap_cons_none, List.filterMap_nil, List.append_nil]
  · rfl
  · cases reply with
    | granted c clean =>
      rcases clean with _ | _
      · rfl
      · exact absurd rfl (h c)
    | _ => rfl

/-- A grant does not mend. -/
theorem mends_eq_false_of_isGrant (h : reply.isGrant) : reply.mends client = false := by
  cases reply with
  | granted | regranted => rfl
  | denied | freed | gaveBack => cases h

/-- The answer at the head does not mend, so one after it does. -/
theorem exists_mends_tail (h : ∃ d ∈ reply :: down, d.mends client)
    (hreply : reply.mends client = false) : ∃ d ∈ down, d.mends client := by
  obtain ⟨d, hd, hmends⟩ := h
  rcases List.mem_cons.mp hd with rfl | hd
  · rw [hreply] at hmends
    cases hmends
  · exact ⟨d, hd, hmends⟩

end Down

/-! ### Orderly answers -/

namespace Orderly

variable {lock : PeerLock} {up : List LockMsg} {down : List LockReply} {reply : LockReply}
  {m : LockMsg}

theorem send (h : Orderly lock up down) (m : LockMsg) :
    Orderly lock (up.map m.soil ++ [m]) (down.map (LockReply.soil m)) where
  renewed := fun hours ↦ Renewed.map_soil.mpr (h.renewed hours)
  valid := h.valid.map_soil
  clean := by
    rw [trusted_map_soil]
    exact h.clean.send

theorem tail (h : Orderly lock up (reply :: down)) : Orderly lock up down where
  renewed := fun hours ↦ (h.renewed hours).2
  valid := h.valid.2
  clean := h.clean.mono (List.Sublist.filterMap _ (List.sublist_cons_self reply down)).subset

/-- Some other client has the lock instead of nobody, or the other way round. -/
theorem congr {lock' : PeerLock} (h : Orderly lock up down) (hlock : lock ≠ .ours)
    (hlock' : lock' ≠ .ours) : Orderly lock' up down where
  renewed := fun hours ↦ absurd hours hlock'
  valid := by
    rw [decide_eq_false hlock']
    rw [← decide_eq_false hlock]
    exact h.valid
  clean := h.clean

/-- What the peer has handled is forgotten. -/
private theorem clean_of_cons {clients : List ClientId} (h : Clean clients (m :: up)) :
    Clean clients up := by
  cases m with
  | ask c clean =>
    rcases clean with _ | _
    · exact h.2
    · exact Clean.mono h (List.subset_cons_self c clients)
  | _ => exact h.2

/-- The peer grants a request. -/
theorem grant (h : Orderly lock (m :: up) down) (hreply : reply.isGrant)
    (hm : ∀ client, reply = .granted client true → m = .ask client true) :
    Orderly .ours up (down ++ [reply]) where
  renewed := fun _ ↦ Renewed.concat hreply
  valid := by
    rw [decide_eq_true rfl]
    exact Valid.of_ours _
  clean := by
    by_cases htrusted : ∃ client, reply = .granted client true
    · obtain ⟨client, rfl⟩ := htrusted
      have hclean := h.clean
      rw [hm client rfl] at hclean
      refine Clean.mono hclean fun c hc ↦ ?_
      rw [trusted, List.filterMap_append] at hc
      rcases List.mem_append.mp hc with hc | hc
      · exact List.mem_cons_of_mem _ hc
      · exact List.mem_cons.mpr (.inl (List.mem_singleton.mp hc))
    · rw [trusted_concat fun client heq ↦ htrusted ⟨client, heq⟩]
      exact clean_of_cons h.clean

/-- The peer refuses one: the lock is somebody else's. -/
theorem refuse (h : Orderly lock (m :: up) down) (hlock : lock ≠ .ours)
    (hreply : reply.isGrant = false) : Orderly lock up (down ++ [reply]) := by
  have hother : ∀ client, reply ≠ .granted client true := by
    rintro client rfl
    cases hreply
  refine ⟨fun hours ↦ absurd hours hlock, h.valid.concat hother, ?_⟩
  rw [trusted_concat hother]
  exact clean_of_cons h.clean

/-- The peer releases the lock, and says so to whoever has a clean grant. -/
theorem release (h : Orderly lock (m :: up) down) (hreply : reply.isGrant = false)
    (hmends : ∀ client ∈ trusted down, reply.mends client) :
    Orderly .free up (down ++ [reply]) where
  renewed := fun hours ↦ by cases hours
  valid := Valid.lose hmends hreply
  clean := by
    rw [trusted_concat (by rintro client rfl; cases hreply)]
    exact clean_of_cons h.clean

/-- The peer handles a message without an answer, and keeps the lock. -/
theorem pass (h : Orderly lock (m :: up) down) : Orderly lock up down :=
  ⟨h.renewed, h.valid, clean_of_cons h.clean⟩

/-- The peer drops the lock without an answer: no clean grant is on its way. -/
theorem drop {lock' : PeerLock} (h : Orderly lock (m :: up) down) (hm : m = .resync ∨ m = .detach)
    (hlock' : lock' ≠ .ours) : Orderly lock' up down := by
  have hnone : trusted down = [] := by
    refine List.eq_nil_iff_forall_not_mem.mpr fun client hclient ↦ ?_
    have hclean := h.clean
    rcases hm with rfl | rfl <;> cases hclean.1 client hclient
  exact ⟨fun hours ↦ absurd hours hlock', Valid.of_untrusted hnone, clean_of_cons h.clean⟩

end Orderly

/-! ### One move -/

namespace Inv

variable {k : PaneLock} {m : LockMsg} {reply : LockReply} {up : List LockMsg}
  {down : List LockReply}

/-- What backs a holder still does once a message follows that does not spoil it. -/
private theorem backed_send {client : ClientId} {ours : Bool}
    (h : (∃ reply ∈ down, reply.mends client) ∨ Backs client ours up)
    (hm : m.spoils client = false) :
    (∃ reply ∈ down.map (LockReply.soil m), reply.mends client) ∨
      Backs client ours (up.map m.soil ++ [m]) := by
  rw [exists_mends_map_soil]
  exact h.imp_right fun hbacks ↦ (Backs.map_soil.mpr hbacks).concat hm

private theorem unleaked_send (h : (∃ reply ∈ down, reply.isGrant) ∨ .giveBack ∈ up) :
    (∃ reply ∈ down.map (LockReply.soil m), reply.isGrant) ∨
      .giveBack ∈ up.map m.soil ++ [m] := by
  rw [exists_isGrant_map_soil]
  refine h.imp_right fun hmem ↦ List.mem_append_left _ ?_
  exact List.mem_map.mpr ⟨.giveBack, hmem, rfl⟩

private theorem attaches_send {shown attached : Bool} (h : Attaches shown attached up)
    (hm : m ≠ .attach ∧ m ≠ .resync ∧ m ≠ .detach) :
    Attaches shown attached (up.map m.soil ++ [m]) :=
  (Attaches.map_soil.mpr h).concat hm

/-- The hub asks for the lock, releases it or gives it back. -/
private theorem send (h : k.Inv) (hspoils : ∀ client, k.holder = some client →
    m.spoils client = false) (hm : m ≠ .attach ∧ m ≠ .resync ∧ m ≠ .detach) : (k.send m).Inv where
  backed := fun client hholder ↦ backed_send (h.backed client hholder) (hspoils client hholder)
  unleaked := fun hholder hours ↦ unleaked_send (h.unleaked hholder hours)
  orderly := h.orderly.send m
  attaches := attaches_send h.attaches hm

/-- The hub attaches the pane or detaches it. -/
private theorem display (h : k.Inv) {shown : Bool} (hspoils : ∀ client, k.holder = some client →
    m.spoils client = false) (hm : Attaches shown k.shown [m]) :
    ({ k with shown }.send m).Inv where
  backed := fun client hholder ↦ backed_send (h.backed client hholder) (hspoils client hholder)
  unleaked := fun hholder hours ↦ unleaked_send (h.unleaked hholder hours)
  orderly := h.orderly.send m
  attaches := (Attaches.map_soil.mpr h.attaches).concat_change hm

private theorem leave (h : k.Inv) : ({ k with holder := none }.send .giveBack).Inv where
  backed := fun client hholder ↦ by cases hholder
  unleaked := fun _ _ ↦ .inr (List.mem_append_right _ List.mem_cons_self)
  orderly := h.orderly.send .giveBack
  attaches := attaches_send h.attaches ⟨LockMsg.noConfusion, LockMsg.noConfusion,
    LockMsg.noConfusion⟩

/-- An answer is handled, and who holds the lock is backed without it. -/
private theorem receive (h : k.Inv) (hdown : k.down = reply :: down) {holder : Option ClientId}
    (hbacked : ∀ client, holder = some client →
      (∃ reply ∈ down, reply.mends client) ∨ Backs client (decide (k.lock = .ours)) k.up)
    (hunleaked : holder = none → reply.isGrant = false) : { k with down, holder }.Inv where
  backed := hbacked
  unleaked := fun hholder hours ↦ by
    have hrenewed := h.orderly.renewed hours
    rw [hdown] at hrenewed
    exact .inl (hrenewed.1 (hunleaked hholder))
  orderly := by
    have horderly := h.orderly
    rw [hdown] at horderly
    exact horderly.tail
  attaches := h.attaches

/-- The holder stays, and the answer at the head did not mend its hold. -/
private theorem backed_tail (h : k.Inv) (hdown : k.down = reply :: down) {client : ClientId}
    (hholder : k.holder = some client) (hreply : reply.mends client = false) :
    (∃ reply ∈ down, reply.mends client) ∨ Backs client (decide (k.lock = .ours)) k.up := by
  have hbacked := h.backed client hholder
  rw [hdown] at hbacked
  exact hbacked.imp_left fun hmends ↦ exists_mends_tail hmends hreply

private theorem record (h : k.Inv) {client : ClientId} {clean : Bool}
    (hdown : k.down = .granted client clean :: down)
    (holds : k.holder = some client ∨ k.holder = none ∧ clean = true) :
    { k with down, holder := some client }.Inv := by
  refine h.receive hdown (fun client' hholder ↦ ?_) fun hholder ↦ by cases hholder
  obtain rfl := Option.some.inj hholder
  rcases holds with holds | ⟨-, rfl⟩
  · exact h.backed_tail hdown holds rfl
  · -- the grant is clean, so what it granted is still there or about to be mended
    have horderly := h.orderly
    rw [hdown] at horderly
    rcases horderly.valid.1 client rfl with hours | hmends
    · right
      rw [hours]
      exact horderly.clean.backs List.mem_cons_self
    · exact .inl hmends

/-- A grant that is not recorded is given back. -/
private theorem decline (h : k.Inv) (hdown : k.down = reply :: down) (hgrant : reply.isGrant) :
    ({ k with down }.send .giveBack).Inv where
  backed := fun client hholder ↦
    backed_send (h.backed_tail hdown hholder (mends_eq_false_of_isGrant hgrant)) rfl
  unleaked := fun _ _ ↦ .inr (List.mem_append_right _ List.mem_cons_self)
  orderly := by
    have horderly := h.orderly
    rw [hdown] at horderly
    exact horderly.tail.send .giveBack
  attaches := attaches_send h.attaches ⟨LockMsg.noConfusion, LockMsg.noConfusion,
    LockMsg.noConfusion⟩

private theorem relock (h : k.Inv) (hdown : k.down = .gaveBack :: down) :
    ({ k with down }.send .relock).Inv where
  backed := fun client _ ↦ .inr (Backs.concat_relock client _ _)
  unleaked := fun _ hours ↦ by
    have hrenewed := h.orderly.renewed hours
    rw [hdown] at hrenewed
    exact unleaked_send (.inl (hrenewed.1 rfl))
  orderly := by
    have horderly := h.orderly
    rw [hdown] at horderly
    exact horderly.tail.send .relock
  attaches := attaches_send h.attaches ⟨LockMsg.noConfusion, LockMsg.noConfusion,
    LockMsg.noConfusion⟩

/-- The peer's lock passes between its direct clients and nobody. -/
private theorem direct (h : k.Inv) {lock : PeerLock} (hlock : k.lock ≠ .ours)
    (hlock' : lock ≠ .ours) : { k with lock }.Inv where
  backed := fun client hholder ↦ by
    have hbacked := h.backed client hholder
    rw [decide_eq_false hlock] at hbacked
    dsimp only
    rw [decide_eq_false hlock']
    exact hbacked
  unleaked := fun _ hours ↦ absurd hours hlock'
  orderly := h.orderly.congr hlock hlock'
  attaches := h.attaches

/-! #### The peer handles a message -/

/-- The peer grants a request. -/
private theorem grant (h : k.Inv) (hup : k.up = m :: up)
    (hm : (∃ client clean, m = .ask client clean ∧ reply = .granted client clean) ∨
      m = .relock ∧ reply = .regranted) :
    { k with up, lock := .ours, down := k.down ++ [reply] }.Inv := by
  have hgrant : reply.isGrant := by
    rcases hm with ⟨client, clean, -, rfl⟩ | ⟨-, rfl⟩ <;> rfl
  refine ⟨fun client hholder ↦ ?_, fun _ _ ↦ .inl ?_, ?_, ?_⟩
  · rcases h.backed client hholder with ⟨d, hd, hmends⟩ | hbacks
    · exact .inl ⟨d, List.mem_append_left _ hd, hmends⟩
    · right
      dsimp only
      rw [decide_eq_true rfl]
      rw [hup] at hbacks
      rcases hm with ⟨c, clean, rfl, -⟩ | ⟨rfl, -⟩
      · rw [Backs] at hbacks
        rcases hours : decide (k.lock = .ours) || decide (c = client) with _ | _
        · rw [hours] at hbacks
          exact hbacks.mono
        · rw [hours] at hbacks
          exact hbacks
      · exact hbacks
  · exact ⟨reply, List.mem_append_right _ List.mem_cons_self, hgrant⟩
  · have horderly := h.orderly
    rw [hup] at horderly
    refine horderly.grant hgrant fun client heq ↦ ?_
    rcases hm with ⟨c, clean, rfl, hreply⟩ | ⟨-, hreply⟩
    · obtain ⟨rfl, rfl⟩ := LockReply.granted.inj (hreply.symm.trans heq)
      rfl
    · cases hreply.symm.trans heq
  · have hattaches := h.attaches
    rw [hup] at hattaches
    rcases hm with ⟨c, clean, rfl, -⟩ | ⟨rfl, -⟩ <;> exact hattaches

/-- The peer refuses one. -/
private theorem refuse (h : k.Inv) (hup : k.up = m :: up) (hlock : k.lock = .theirs)
    (hm : (∃ client clean, m = .ask client clean ∧ reply = .denied (some client)) ∨
      m = .relock ∧ reply = .denied none) :
    { k with up, down := k.down ++ [reply] }.Inv := by
  have hother : k.lock ≠ .ours := by
    rw [hlock]
    exact PeerLock.noConfusion
  refine ⟨fun client hholder ↦ ?_, fun _ hours ↦ absurd hours hother, ?_, ?_⟩
  · rcases h.backed client hholder with ⟨d, hd, hmends⟩ | hbacks
    · exact .inl ⟨d, List.mem_append_left _ hd, hmends⟩
    · rw [hup, decide_eq_false hother] at hbacks
      rcases hm with ⟨c, clean, rfl, rfl⟩ | ⟨rfl, rfl⟩
      · rw [Backs, Bool.false_or] at hbacks
        by_cases hc : c = client
        · exact .inl ⟨_, List.mem_append_right _ List.mem_cons_self, decide_eq_true hc⟩
        · right
          rw [decide_eq_false hc] at hbacks
          exact hbacks.of_false _
      · exact .inl ⟨_, List.mem_append_right _ List.mem_cons_self, rfl⟩
  · have horderly := h.orderly
    rw [hup] at horderly
    refine horderly.refuse hother ?_
    rcases hm with ⟨c, clean, -, rfl⟩ | ⟨-, rfl⟩ <;> rfl
  · have hattaches := h.attaches
    rw [hup] at hattaches
    rcases hm with ⟨c, clean, rfl, -⟩ | ⟨rfl, -⟩ <;> exact hattaches

/-- The peer releases the hub's lock, and answers. -/
private theorem release (h : k.Inv) (hup : k.up = m :: up)
    (hm : (∃ client, m = .free client ∧ reply = .freed client) ∨
      m = .giveBack ∧ reply = .gaveBack) :
    { k with up, lock := .free, down := k.down ++ [reply] }.Inv := by
  refine ⟨fun client hholder ↦ ?_, fun _ hours ↦ (by cases hours), ?_, ?_⟩
  · rcases h.backed client hholder with ⟨d, hd, hmends⟩ | hbacks
    · exact .inl ⟨d, List.mem_append_left _ hd, hmends⟩
    · rw [hup] at hbacks
      rcases hm with ⟨c, rfl, rfl⟩ | ⟨rfl, rfl⟩
      · rcases hbacks with ⟨-, hc⟩ | hbacks
        · exact .inl ⟨_, List.mem_append_right _ List.mem_cons_self, decide_eq_true hc⟩
        · exact .inr hbacks
      · exact .inl ⟨_, List.mem_append_right _ List.mem_cons_self, rfl⟩
  · have horderly := h.orderly
    rw [hup] at horderly
    rcases hm with ⟨c, rfl, rfl⟩ | ⟨rfl, rfl⟩
    · refine horderly.release rfl fun client hclient ↦ ?_
      have hspoils := horderly.clean.1 client hclient
      rw [LockMsg.spoils, decide_eq_false_iff_not, not_not] at hspoils
      exact decide_eq_true hspoils
    · exact horderly.release rfl fun _ _ ↦ rfl
  · have hattaches := h.attaches
    rw [hup] at hattaches
    rcases hm with ⟨c, rfl, -⟩ | ⟨rfl, -⟩ <;> exact hattaches

/-- A release of a lock that the hub does not have is answered nothing. -/
private theorem unheld (h : k.Inv) (hup : k.up = m :: up) (hlock : k.lock ≠ .ours)
    (hm : (∃ client, m = .free client) ∨ m = .giveBack) : { k with up }.Inv := by
  refine ⟨fun client hholder ↦ ?_, fun _ hours ↦ absurd hours hlock, ?_, ?_⟩
  · refine (h.backed client hholder).imp_right fun hbacks ↦ ?_
    rw [hup, decide_eq_false hlock] at hbacks
    dsimp only
    rw [decide_eq_false hlock]
    rcases hm with ⟨c, rfl⟩ | rfl
    · rcases hbacks with ⟨hours, -⟩ | hbacks
      · cases hours
      · exact hbacks
    · rcases hbacks with hours | hbacks
      · cases hours
      · exact hbacks
  · have horderly := h.orderly
    rw [hup] at horderly
    exact horderly.pass
  · have hattaches := h.attaches
    rw [hup] at hattaches
    rcases hm with ⟨c, rfl⟩ | rfl <;> exact hattaches

/-- The first attach finds nothing to drop. -/
private theorem attach (h : k.Inv) (hup : k.up = .attach :: up) :
    { k with up, lock := k.unlocked, attached := true }.Inv := by
  have hattaches := h.attaches
  rw [hup] at hattaches
  have hlock : k.unlocked = k.lock := by
    rw [unlocked, hattaches.1, if_neg fun hboth ↦ Bool.false_ne_true hboth.1]
  rw [hlock]
  refine ⟨fun client hholder ↦ ?_, fun hholder hours ↦ ?_, ?_, hattaches.2⟩
  · have hbacked := h.backed client hholder
    rw [hup] at hbacked
    exact hbacked
  · refine (h.unleaked hholder hours).imp_right fun hmem ↦ ?_
    rw [hup] at hmem
    rcases List.mem_cons.mp hmem with heq | hmem
    · cases heq
    · exact hmem
  · have horderly := h.orderly
    rw [hup] at horderly
    exact horderly.pass

/-- Attaching again, and detaching, drop the hub's lock without a word. -/
private theorem drop (h : k.Inv) (hup : k.up = m :: up) {attached : Bool}
    (hm : m = .resync ∧ attached = true ∨ m = .detach ∧ attached = false) :
    { k with up, lock := k.unlocked, attached }.Inv := by
  have hattaches := h.attaches
  rw [hup] at hattaches
  have hattached : k.attached = true ∧ Attaches k.shown attached up := by
    rcases hm with ⟨rfl, rfl⟩ | ⟨rfl, rfl⟩ <;> exact hattaches
  have hlock : k.unlocked ≠ .ours := by
    rw [unlocked]
    split
    next => exact PeerLock.noConfusion
    next hnot => exact fun hours ↦ hnot ⟨hattached.1, hours⟩
  refine ⟨fun client hholder ↦ ?_, fun _ hours ↦ absurd hours hlock, ?_, hattached.2⟩
  · refine (h.backed client hholder).imp_right fun hbacks ↦ ?_
    rw [hup] at hbacks
    dsimp only
    rw [decide_eq_false hlock]
    rcases hm with ⟨rfl, -⟩ | ⟨rfl, -⟩ <;> exact hbacks
  · have horderly := h.orderly
    rw [hup] at horderly
    exact horderly.drop (hm.imp And.left And.left) hlock

private theorem serve (h : k.Inv) (hup : k.up = m :: up) : ({ k with up }.serve m).Inv := by
  cases m with
  | ask client clean =>
    rw [PaneLock.serve]
    split
    next hlock => exact h.refuse hup hlock (.inl ⟨client, clean, rfl, rfl⟩)
    next => exact h.grant hup (.inl ⟨client, clean, rfl, rfl⟩)
  | relock =>
    rw [PaneLock.serve]
    split
    next hlock => exact h.refuse hup hlock (.inr ⟨rfl, rfl⟩)
    next => exact h.grant hup (.inr ⟨rfl, rfl⟩)
  | free client =>
    rw [PaneLock.serve]
    split
    next => exact h.release hup (.inl ⟨client, rfl, rfl⟩)
    next hlock => exact h.unheld hup hlock (.inl ⟨client, rfl⟩)
  | giveBack =>
    rw [PaneLock.serve]
    split
    next => exact h.release hup (.inr ⟨rfl, rfl⟩)
    next hlock => exact h.unheld hup hlock (.inr rfl)
  | attach => exact h.attach hup
  | resync => exact h.drop hup (.inl ⟨rfl, rfl⟩)
  | detach => exact h.drop hup (.inr ⟨rfl, rfl⟩)

/-- **Every move** keeps the invariant. -/
theorem move {k' : PaneLock} (h : k.Inv) (hmove : Move k k') : k'.Inv := by
  have hplain : ∀ m : LockMsg, (∃ c clean, m = .ask c clean) ∨ (∃ c, m = .free c) ∨
      m = .giveBack → m ≠ .attach ∧ m ≠ .resync ∧ m ≠ .detach := by
    rintro m (⟨c, clean, rfl⟩ | ⟨c, rfl⟩ | rfl) <;>
      exact ⟨LockMsg.noConfusion, LockMsg.noConfusion, LockMsg.noConfusion⟩
  cases hmove with
  | ask client clean => exact h.send (fun _ _ ↦ rfl) (hplain _ (.inl ⟨client, clean, rfl⟩))
  | giveBack => exact h.send (fun _ _ ↦ rfl) (hplain _ (.inr (.inr rfl)))
  | free client holds =>
    refine h.send (fun client' hholder ↦ ?_) (hplain _ (.inr (.inl ⟨client, rfl⟩)))
    obtain rfl : client = client' := Option.some.inj (holds.symm.trans hholder)
    exact decide_eq_false fun hne ↦ hne rfl
  | attach hidden => exact h.display (fun _ _ ↦ rfl) ⟨hidden, rfl⟩
  | resync shown holds =>
    have hsame : Attaches k.shown k.shown [.resync] := ⟨shown, shown.symm⟩
    refine h.display (fun client hholder ↦ ?_) hsame
    rw [holds] at hholder
    cases hholder
  | detach shown holds =>
    refine h.display (fun client hholder ↦ ?_) ⟨shown, rfl⟩
    rw [holds] at hholder
    cases hholder
  | leave => exact h.leave
  | serve m up next => exact h.serve next
  | record client clean down next holds => exact h.record next holds
  | keep reply down next grant holds =>
    refine h.receive next (fun client hholder ↦ ?_) fun hnone ↦ absurd hnone holds
    exact h.backed_tail next hholder (mends_eq_false_of_isGrant grant)
  | decline reply down next grant => exact h.decline next grant
  | unseat reply down next reason =>
    refine h.receive next (fun client hholder ↦ by cases hholder) fun _ ↦ ?_
    rcases reason with ⟨client, rfl⟩ | ⟨client, rfl⟩ <;> rfl
  | ignore reply down next other =>
    refine h.receive next (fun client hholder ↦ h.backed_tail next hholder ?_) fun _ ↦ ?_
    · rcases other with ⟨c, rfl, hne⟩ | ⟨c, rfl, hne⟩
      all_goals
        refine decide_eq_false fun heq ↦ hne ?_
        rw [heq]
        exact hholder
    · rcases other with ⟨c, rfl, -⟩ | ⟨c, rfl, -⟩ <;> rfl
  | vacant reply down next reason holds =>
    refine h.receive next (fun client hholder ↦ ?_) fun _ ↦ ?_
    · rw [holds] at hholder
      cases hholder
    · rcases reason with ⟨client, rfl⟩ | ⟨client, rfl⟩ | rfl <;> rfl
  | relock down next => exact h.relock next
  | take free => exact h.direct (by rw [free]; exact PeerLock.noConfusion) PeerLock.noConfusion
  | quit theirs => exact h.direct (by rw [theirs]; exact PeerLock.noConfusion) PeerLock.noConfusion

end Inv

/-- Nothing has happened. -/
theorem inv_empty {k : PaneLock} (holder : k.holder = none) (up : k.up = []) (down : k.down = [])
    (lock : k.lock ≠ .ours) (attached : k.attached = k.shown) : k.Inv where
  backed := fun client hholder ↦ by rw [holder] at hholder; cases hholder
  unleaked := fun _ hours ↦ absurd hours lock
  orderly := by
    rw [up, down]
    exact ⟨fun _ ↦ trivial, trivial, trivial⟩
  attaches := by
    rw [up]
    exact attached

end PaneLock

end Federation

end Kmux
