import Kmux.Daemon.Outbound
import Kmux.Stream.Delivery

/-!
# Forwarding a pane to a client that may not keep up

The diff loop of a pane, one client's attach, the connection's queue and the stream that feeds it,
interleaved in any order. The diff loop draws its numbers, records and broadcasts in separate steps;
the attach chooses what to replay, takes its snapshot, reads the counter and enters the client map
in separate steps; a channel without room costs the client its place in the map.

After a `SyncReset` and a snapshot labelled `s`, what the stream puts on the queue up to the next
`SyncReset` should be the relay's frames `s + 1`, `s + 2`, … without a gap: this is `NoGap`. The
second half of the file says how one more message on the queue bears on it, and when the messages of
a channel are in step with the relay's numbers.
-/

namespace Kmux

/-! ## The interleaving -/

/-- Where the diff loop is. -/
inductive RelayPhase (B : Type*)
  | idle
  /-- Output has been fed and not yet diffed. -/
  | fed
  /-- A dispatch under way: the pane it leads to, how many numbers are still to be drawn, whether
  the diff has been pushed to the replay buffer, the frames still to be broadcast, and the seqno a
  digest will certify after them. -/
  | dispatching (target : Pane B) (toNumber : ℕ) (pushed : Bool) (toSend : List ServerMessage)
      (toCertify : Option SequenceNo)

/-- Where the attach is. -/
inductive AttachPhase
  | start
  /-- A snapshot is called for, after a reset or not. -/
  | chosen (reset : Bool)
  | snapped (reset : Bool) (snapshot : GridSnapshot)
  | answered (result : AttachResult)
  /-- In the client map, and streaming. -/
  | inserted
  deriving DecidableEq, Repr

/-- The frames a dispatch has still to broadcast. -/
def RelayPhase.toSend {B : Type*} : RelayPhase B → List ServerMessage
  | .dispatching _ _ _ toSend _ => toSend
  | _ => []

/-- The seqno a digest has still to certify. -/
def RelayPhase.toCertify {B : Type*} : RelayPhase B → Option SequenceNo
  | .dispatching _ _ _ _ toCertify => toCertify
  | _ => none

/-- The frame that is broadcast next. -/
def RelayPhase.nextFrame? {B : Type*} : RelayPhase B → Option ServerMessage
  | .dispatching _ 0 true (frame :: _) _ => some frame
  | _ => none

/-- A dispatch with every number drawn, or the end of one. -/
def RelayPhase.sending {B : Type*} (target : Pane B) (toSend : List ServerMessage)
    (toCertify : Option SequenceNo) : RelayPhase B :=
  if toSend = [] ∧ toCertify = none then .idle else .dispatching target 0 true toSend toCertify

/-- The label of a reset whose client is not in the map yet. -/
def AttachPhase.uninserted? : AttachPhase → Option SequenceNo
  | .answered (.syncReset _ seqno) => some seqno
  | _ => none

/-- A pane with its diff loop, one attaching client and its stream. -/
structure Forwarding (B : Type*) where
  pane : Pane B
  relay : RelayPhase B
  attach : AttachPhase
  /-- The sending end of the stream's channel is in the client map. -/
  inMap : Bool
  stream : PaneStream
  /-- The frames broadcast so far. -/
  sent : List ServerMessage

/-- The steps of all parties. -/
inductive ForwardEvent (B : Type*)
  | feed (b : B)
  | computeDiff
  | allocate
  | push
  | broadcast
  /-- Broadcast the digest that is due. -/
  | certify
  | resize (sz : BackendSize)
  /-- The attach chooses what to replay. -/
  | choose (lastSeqno : Option SequenceNo)
  | attachSnapshot
  | attachSeqno
  | insert
  /-- The client leaves the map, or its entry is replaced. -/
  | detach
  | queue (e : OutboundEvent)
  | stream (e : StreamEvent)

namespace Forwarding

variable {B : Type*}

/-- Offer a message to the client's channel, and drop it if there is no room. -/
def post (channelCapacity : ℕ) (x : Forwarding B) (msg : ServerMessage) : Forwarding B :=
  if x.inMap = true ∧ x.stream.pc ≠ .ended ∧ x.stream.clientRx.length < channelCapacity then
    { x with stream := { x.stream with clientRx := x.stream.clientRx ++ [msg] } }
  else x

/-- Broadcast a frame. A client whose channel has no room is told that it lagged and leaves the map;
one whose stream is over leaves it too. -/
def broadcastTo (channelCapacity : ℕ) (x : Forwarding B) (frame : ServerMessage) : Forwarding B :=
  if x.inMap then
    if x.stream.pc = .ended then { x with inMap := false }
    else if x.stream.clientRx.length < channelCapacity then
      { x with stream := { x.stream with clientRx := x.stream.clientRx ++ [frame] } }
    else { x with inMap := false, stream := { x.stream with out := x.stream.out.send.1 } }
  else x

variable [TerminalBackend B]

/-- A freshly spawned pane, and a client that has not attached yet. -/
def new (outboundCapacity : ℕ) (b₀ : B) : Forwarding B :=
  { pane := Pane.new b₀
    relay := .idle
    attach := .start
    inMap := false
    stream := PaneStream.new outboundCapacity
    sent := [] }

/-- One step. An event whose party is elsewhere does nothing. -/
def step (interval channelCapacity : ℕ) (x : Forwarding B) : ForwardEvent B → Forwarding B
  | .feed b =>
    match x.relay with
    | .idle => { x with pane := x.pane.feed b, relay := .fed }
    | _ => x
  | .computeDiff =>
    match x.relay with
    | .fed =>
      let d := x.pane.engine.computeDiff
      let pane : Pane B := { x.pane with engine := d.1 }
      let out := pane.dispatchDiffResult d.2
      { x with
        pane
        relay := if out.2.frames = [] then .idle
          else .dispatching out.1 out.2.frames.length false out.2.frames
            (out.2.certified.filter (digestDue interval)) }
    | _ => x
  | .allocate =>
    match x.relay with
    | .dispatching target (todo + 1) pushed toSend toCertify =>
      { x with
        pane := { x.pane with seqnoCounter := x.pane.seqnoCounter + 1 }
        relay := .dispatching target todo pushed toSend toCertify }
    | _ => x
  | .push =>
    match x.relay with
    -- the emulator may have been resized since the diff was computed
    | .dispatching target 0 false toSend toCertify =>
      { x with
        pane := { target with engine := x.pane.engine }
        relay := .dispatching target 0 true toSend toCertify }
    | _ => x
  | .broadcast =>
    match x.relay with
    | .dispatching target 0 true (frame :: rest) toCertify =>
      { x.broadcastTo channelCapacity frame with
        relay := .sending target rest toCertify
        sent := x.sent ++ [frame] }
    | _ => x
  | .certify =>
    match x.relay with
    | .dispatching _ 0 true [] (some seqno) =>
      { x.post channelCapacity (.gridDigest seqno x.pane.engine.snapshot.liveDigest) with
        relay := .idle }
    | _ => x
  | .resize sz =>
    (x.pane.resize sz).2.foldl (post channelCapacity) { x with pane := (x.pane.resize sz).1 }
  | .choose lastSeqno =>
    match x.attach with
    | .start =>
      { x with
        attach := match x.pane.computeReplay lastSeqno with
          | .delta diffs => .answered (.delta diffs)
          | .fullSnapshot _ _ => .chosen false
          | .syncReset _ _ => .chosen true }
    | _ => x
  | .attachSnapshot =>
    match x.attach with
    | .chosen reset => { x with attach := .snapped reset x.pane.engine.snapshot }
    | _ => x
  | .attachSeqno =>
    match x.attach with
    -- the snapshot's lock has been released: the counter may have moved on
    | .snapped true snapshot =>
      { x with attach := .answered (.syncReset snapshot x.pane.currentSeqno) }
    | .snapped false snapshot =>
      { x with attach := .answered (.fullSnapshot snapshot x.pane.currentSeqno) }
    | _ => x
  | .insert =>
    match x.attach with
    | .answered result =>
      { x with attach := .inserted, inMap := true, stream := x.stream.start result }
    | _ => x
  | .detach => { x with inMap := false }
  | .queue e => { x with stream := { x.stream with out := x.stream.out.step e } }
  | .stream e => { x with stream := x.stream.step x.inMap x.pane e }

/-- The state an interleaving leads to. -/
def run (interval channelCapacity : ℕ) (x : Forwarding B) (es : List (ForwardEvent B)) :
    Forwarding B :=
  Run.exec (step interval channelCapacity) x es

end Forwarding

/-! ## What the client sees -/

/-- The sequence numbers of the frames in a stretch of messages. A digest has none of its own. -/
def frameNumbers (msgs : List ServerMessage) : List SequenceNo :=
  msgs.filterMap ServerMessage.seqno?

/-- After a snapshot labelled `s` the stretch holds the relay's frames `s + 1`, `s + 2`, … without a
gap, and digests only of frames among them. -/
structure Contiguous (sent : List ServerMessage) (s : SequenceNo) (msgs : List ServerMessage) :
    Prop where
  numbers : frameNumbers msgs = List.range' (s + 1) (frameNumbers msgs).length
  relayed : ∀ m ∈ msgs, m.seqno?.isSome → m ∈ sent
  digests : ∀ n hash, .gridDigest n hash ∈ msgs → s < n ∧ n ≤ s + (frameNumbers msgs).length

/-- Every stretch from a `SyncReset` and its snapshot to the next `SyncReset` is contiguous. -/
def NoGap (sent forwarded : List ServerMessage) : Prop :=
  ∀ earlier snapshot s later,
    forwarded = earlier ++ .syncReset :: .terminalSnapshot snapshot s :: later →
    Contiguous sent s (later.takeWhile fun m ↦ decide (m ≠ .syncReset))

namespace Forwarding

/-- While an attach that was answered with a reset labelled `s` waits to enter the map, no frame
above `s` is broadcast; and when it enters, no frame or digest up to `s` is still to be. -/
def Guarded {B : Type*} (x : Forwarding B) : ForwardEvent B → Prop
  | .broadcast => ∀ s ∈ x.attach.uninserted?, ∀ m ∈ x.relay.nextFrame?, ∀ n ∈ m.seqno?, n ≤ s
  | .insert => ∀ s ∈ x.attach.uninserted?,
      (∀ m ∈ x.relay.toSend, ∀ n ∈ m.seqno?, s < n) ∧ ∀ n ∈ x.relay.toCertify, s < n
  | _ => True

instance {B : Type*} (x : Forwarding B) : ∀ e : ForwardEvent B, Decidable (x.Guarded e)
  | .broadcast => inferInstanceAs (Decidable (∀ s ∈ _, ∀ m ∈ _, ∀ n ∈ _, n ≤ s))
  | .insert => inferInstanceAs (Decidable (∀ s ∈ _, (∀ m ∈ _, ∀ n ∈ _, s < n) ∧ ∀ n ∈ _, s < n))
  | .feed _ | .computeDiff | .allocate | .push | .certify | .resize _ | .choose _
  | .attachSnapshot | .attachSeqno | .detach | .queue _ | .stream _ =>
    inferInstanceAs (Decidable True)

end Forwarding

/-! ## Open stretches -/

/-- The last `SyncReset` with its snapshot, labelled `s`, is followed by `msgs`. -/
def OpenRun (forwarded : List ServerMessage) (s : SequenceNo) (msgs : List ServerMessage) : Prop :=
  .syncReset ∉ msgs ∧
    ∃ earlier snapshot, forwarded = earlier ++ .syncReset :: .terminalSnapshot snapshot s :: msgs

theorem openRun_concat {forwarded msgs : List ServerMessage} {m : ServerMessage} {s : SequenceNo}
    (h : OpenRun (forwarded ++ [m]) s msgs) :
    (∃ init, msgs = init ++ [m] ∧ OpenRun forwarded s init) ∨
      msgs = [] ∧ [.syncReset] <:+ forwarded ∧ ∃ snapshot, m = .terminalSnapshot snapshot s := by
  obtain ⟨hreset, earlier, snapshot, heq⟩ := h
  rcases List.eq_nil_or_concat' msgs with rfl | ⟨init, last, rfl⟩
  · right
    have hsplit : forwarded ++ [m] = (earlier ++ [ServerMessage.syncReset])
        ++ [ServerMessage.terminalSnapshot snapshot s] := by
      rw [heq, List.append_assoc, List.singleton_append]
    obtain ⟨hinit, hlast⟩ := List.append_inj' hsplit rfl
    exact ⟨rfl, ⟨earlier, hinit.symm⟩, snapshot, List.singleton_inj.mp hlast⟩
  · left
    have hsplit : forwarded ++ [m] =
        (earlier ++ ServerMessage.syncReset :: .terminalSnapshot snapshot s :: init) ++ [last] := by
      rw [heq, List.append_assoc, List.cons_append, List.cons_append]
    obtain ⟨hinit, hlast⟩ := List.append_inj' hsplit rfl
    obtain rfl := List.singleton_inj.mp hlast
    exact ⟨init, rfl, fun h ↦ hreset (List.mem_append_left _ h), earlier, snapshot, hinit⟩

theorem not_openRun_of_not_mem {forwarded msgs : List ServerMessage} {s : SequenceNo}
    (h : .syncReset ∉ forwarded) : ¬OpenRun forwarded s msgs := by
  rintro ⟨-, earlier, snapshot, rfl⟩
  exact h (List.mem_append_right _ List.mem_cons_self)

theorem contiguous_nil (sent : List ServerMessage) (s : SequenceNo) : Contiguous sent s [] :=
  ⟨rfl, fun _ h ↦ absurd h List.not_mem_nil, fun _ _ h ↦ absurd h List.not_mem_nil⟩

/-- A stretch without a `SyncReset` is its own beginning. -/
private theorem takeWhile_of_not_mem {msgs : List ServerMessage} (h : .syncReset ∉ msgs) :
    msgs.takeWhile (fun m ↦ decide (m ≠ .syncReset)) = msgs := by
  rw [List.takeWhile_eq_self_iff]
  intro m hm
  exact decide_eq_true fun heq ↦ h (heq ▸ hm)

theorem NoGap.contiguous {sent forwarded msgs : List ServerMessage} {s : SequenceNo}
    (h : NoGap sent forwarded) (hopen : OpenRun forwarded s msgs) : Contiguous sent s msgs := by
  obtain ⟨hreset, earlier, snapshot, heq⟩ := hopen
  rw [← takeWhile_of_not_mem hreset]
  exact h earlier snapshot s msgs heq

/-- A message lengthens the open stretch, if there is one, and no other. -/
theorem noGap_concat {sent forwarded : List ServerMessage} {m : ServerMessage}
    (h : NoGap sent forwarded)
    (hopen : m ≠ .syncReset → ∀ s msgs, OpenRun forwarded s msgs →
      Contiguous sent s (msgs ++ [m])) :
    NoGap sent (forwarded ++ [m]) := by
  intro earlier snapshot s later heq
  rcases List.eq_nil_or_concat' later with rfl | ⟨init, last, rfl⟩
  · exact contiguous_nil sent s
  have hsplit : forwarded ++ [m] =
      (earlier ++ ServerMessage.syncReset :: .terminalSnapshot snapshot s :: init) ++ [last] := by
    rw [heq, List.append_assoc, List.cons_append, List.cons_append]
  obtain ⟨hinit, hlast⟩ := List.append_inj' hsplit rfl
  obtain rfl := List.singleton_inj.mp hlast
  have hbefore := h earlier snapshot s init hinit
  rw [List.takeWhile_append]
  by_cases hmem : .syncReset ∈ init
  · -- the stretch was closed before: nothing is added to it
    rw [if_neg]
    · exact hbefore
    · intro hlength
      have hself : init.takeWhile (fun m ↦ decide (m ≠ .syncReset)) = init :=
        (List.takeWhile_prefix _).eq_of_length hlength
      exact of_decide_eq_true (List.takeWhile_eq_self_iff.mp hself _ hmem) rfl
  · rw [takeWhile_of_not_mem hmem] at hbefore ⊢
    rw [if_pos rfl]
    by_cases hm : m = .syncReset
    · rw [List.takeWhile_cons_of_neg (by rw [hm]; simp), List.append_nil]
      exact hbefore
    · rw [List.takeWhile_cons_of_pos (by simpa using hm), List.takeWhile_nil]
      exact hopen hm s init ⟨hmem, earlier, snapshot, hinit⟩

theorem NoGap.mono {sent sent' forwarded : List ServerMessage} (h : NoGap sent forwarded)
    (hsub : sent ⊆ sent') : NoGap sent' forwarded := by
  intro earlier snapshot s later heq
  have hcontiguous := h earlier snapshot s later heq
  exact ⟨hcontiguous.numbers, fun m hm hnumbered ↦ hsub (hcontiguous.relayed m hm hnumbered),
    hcontiguous.digests⟩

theorem frameNumbers_concat_frame (msgs : List ServerMessage) {m : ServerMessage} {n : SequenceNo}
    (h : m.seqno? = some n) : frameNumbers (msgs ++ [m]) = frameNumbers msgs ++ [n] := by
  rw [frameNumbers, List.filterMap_append, List.filterMap_cons_some h, List.filterMap_nil,
    ← frameNumbers]

theorem frameNumbers_concat_other (msgs : List ServerMessage) {m : ServerMessage}
    (h : m.seqno? = none) : frameNumbers (msgs ++ [m]) = frameNumbers msgs := by
  rw [frameNumbers, List.filterMap_append, List.filterMap_cons_none h, List.filterMap_nil,
    List.append_nil, ← frameNumbers]

namespace Contiguous

variable {sent msgs : List ServerMessage} {m : ServerMessage} {s : SequenceNo}

/-- The next frame continues a contiguous stretch. -/
theorem concat_frame (h : Contiguous sent s msgs)
    (hm : m.seqno? = some (s + (frameNumbers msgs).length + 1)) (hsent : m ∈ sent) :
    Contiguous sent s (msgs ++ [m]) := by
  have hnumbers := frameNumbers_concat_frame msgs hm
  refine ⟨?_, ?_, ?_⟩
  · rw [hnumbers, List.length_append, List.length_singleton, List.range'_1_concat, ← h.numbers,
      Nat.add_right_comm]
  · intro m' hm' hnumbered
    rcases List.mem_append.mp hm' with hm' | hm'
    · exact h.relayed m' hm' hnumbered
    · rw [List.mem_singleton.mp hm']
      exact hsent
  · intro n hash hdigest
    rw [hnumbers, List.length_append]
    rcases List.mem_append.mp hdigest with hdigest | hdigest
    · have hn := h.digests n hash hdigest
      exact ⟨hn.1, hn.2.trans (Nat.add_le_add_left (Nat.le_add_right _ _) s)⟩
    · rw [← List.mem_singleton.mp hdigest] at hm
      exact absurd hm nofun

/-- A message that is no frame leaves it contiguous, if it is no digest of a frame outside. -/
theorem concat_other (h : Contiguous sent s msgs) (hm : m.seqno? = none)
    (hdigest : ∀ n hash, m = .gridDigest n hash → s < n ∧ n ≤ s + (frameNumbers msgs).length) :
    Contiguous sent s (msgs ++ [m]) := by
  have hnumbers := frameNumbers_concat_other msgs hm
  refine ⟨?_, ?_, ?_⟩
  · rw [hnumbers]
    exact h.numbers
  · intro m' hm' hnumbered
    rcases List.mem_append.mp hm' with hm' | hm'
    · exact h.relayed m' hm' hnumbered
    · rw [List.mem_singleton.mp hm', hm] at hnumbered
      exact absurd hnumbered nofun
  · intro n hash hmem
    rw [hnumbers]
    rcases List.mem_append.mp hmem with hmem | hmem
    · exact h.digests n hash hmem
    · exact hdigest n hash (List.mem_singleton.mp hmem).symm

end Contiguous

/-! ## The channel -/

/-- The messages hold the frames numbered from `lo` up to `hi` in order, digests only of numbers
before the next frame, and no reset. -/
inductive Paced : ℕ → List ServerMessage → ℕ → Prop
  | nil (lo : ℕ) : Paced lo [] lo
  | frame {lo hi : ℕ} {m : ServerMessage} {ms : List ServerMessage} (hm : m.seqno? = some lo)
      (h : Paced (lo + 1) ms hi) : Paced lo (m :: ms) hi
  | other {lo hi : ℕ} {m : ServerMessage} {ms : List ServerMessage} (hm : m.seqno? = none)
      (hreset : m ≠ .syncReset) (hdigest : ∀ n hash, m = .gridDigest n hash → n < lo)
      (h : Paced lo ms hi) : Paced lo (m :: ms) hi

namespace Paced

variable {lo mid hi : ℕ} {ms ms' : List ServerMessage}

theorem append (h : Paced lo ms mid) (h' : Paced mid ms' hi) : Paced lo (ms ++ ms') hi := by
  induction h with
  | nil lo => exact h'
  | frame hm _ ih => exact .frame hm (ih h')
  | other hm hreset hdigest _ ih => exact .other hm hreset hdigest (ih h')

theorem le (h : Paced lo ms hi) : lo ≤ hi := by
  induction h with
  | nil lo => exact le_rfl
  | frame _ _ ih => exact (Nat.le_succ _).trans ih
  | other _ _ _ _ ih => exact ih

end Paced

/-- A list that ends with a reset has no open stretch. -/
theorem not_openRun_of_reset {forwarded msgs : List ServerMessage} {s : SequenceNo}
    (h : [.syncReset] <:+ forwarded) : ¬OpenRun forwarded s msgs := by
  intro hopen
  obtain ⟨init, rfl⟩ := h
  rcases openRun_concat hopen with ⟨rest, rfl, -⟩ | ⟨-, -, snapshot, hsnapshot⟩
  · exact hopen.1 (List.mem_append_right _ List.mem_cons_self)
  · exact absurd hsnapshot nofun

theorem seqno?_eq_incrementalSeqno {m : ServerMessage} {n : SequenceNo} (h : m.seqno? = some n) :
    m.incrementalSeqno = some n := by
  cases m with
  | terminalUpdate diff seqno => exact h
  | cursorUpdate cursor modes seqno => exact h
  | scrollbackAppend firstIndex lines seqno => exact h
  | terminalSnapshot _ _ | gridDigest _ _ | syncReset | lagged _ | historyLines _ _ _ _ =>
    exact absurd h nofun

end Kmux
