import Kmux.Stream.Forward
import Kmux.VtCore.MockBackend

/-!
# No gap after a reset

What keeps the queue free of gaps over every interleaving. The channel of a client in the map holds
the relay's frames in order, up to the one broadcast next. A resync of a lagged stream reads its
label after it has emptied the channel, so that the channel starts no later than the frame after the
label, and skips what the label covers. The reset an attach answers with has no such skip, and
nothing ties its label to the moment the client enters the map. `Guarded` asks for exactly that, and
only of attaches that are answered with a reset; under it every stretch is contiguous in every state
of every interleaving.
-/

namespace Kmux

namespace Forwarding

variable {B : Type*}

/-! ## The invariant -/

/-- The number of the frame broadcast next. -/
def upcoming (x : Forwarding B) : ℕ := x.sent.length + 1

/-- What the diff loop's position promises: the frames still to be broadcast are numbered from the
upcoming one on, and every number below the counter has been drawn. -/
def RelayInv (x : Forwarding B) : Prop :=
  match x.relay with
  | .dispatching target toNumber _ toSend toCertify =>
    target.seqnoCounter = x.pane.seqnoCounter + toNumber ∧
      x.upcoming ≤ x.pane.seqnoCounter ∧
      toSend.map ServerMessage.seqno? = (List.range' x.upcoming toSend.length).map some ∧
      x.upcoming + toSend.length = target.seqnoCounter ∧
      ∀ n ∈ toCertify, n < target.seqnoCounter
  | _ => x.upcoming = x.pane.seqnoCounter

/-- What a reset that waits to enter the map promises: its label was drawn, and nothing above it has
been broadcast. -/
def AttachInv (x : Forwarding B) : Prop :=
  ∀ s ∈ x.attach.uninserted?, s < x.pane.seqnoCounter ∧ x.sent.length ≤ s

/-- Everything on its way to the client, or still to be certified, is numbered above `s`. -/
structure Above (x : Forwarding B) (s : ℕ) : Prop where
  drawn : s < x.pane.seqnoCounter
  waiting : ∀ m ∈ x.stream.clientRx, ∀ n, m.incrementalSeqno = some n → s < n
  certifying : ∀ n ∈ x.relay.toCertify, s < n

/-- How the channel, whose first frame is numbered `lo`, continues a stretch that has followed the
label `s` for `k` frames: after skipping what the label covers, or at once. -/
def Continues (x : Forwarding B) (lo s k : ℕ) : Prop :=
  x.stream.coveredThrough = some s ∧ max lo (s + 1) = s + k + 1 ∨
    x.stream.coveredThrough = none ∧ lo = s + k + 1 ∧ x.Above s

/-- What a live stream promises. -/
inductive Live (x : Forwarding B) (lo : ℕ) : Prop
  /-- There has been no reset. -/
  | plain (hforwarded : .syncReset ∉ x.stream.forwarded) (hreplay : .syncReset ∉ x.stream.replay)
  /-- The attach was answered with a reset: both messages are to be sent, -/
  | resetNext (snapshot : GridSnapshot) (s : SequenceNo) (hforwarded : x.stream.forwarded = [])
      (hreplay : x.stream.replay = [.syncReset, .terminalSnapshot snapshot s])
      (hcontinues : x.Continues lo s 0)
  /-- or only the snapshot. -/
  | snapshotNext (snapshot : GridSnapshot) (s : SequenceNo)
      (hforwarded : x.stream.forwarded = [.syncReset])
      (hreplay : x.stream.replay = [.terminalSnapshot snapshot s])
      (hcontinues : x.Continues lo s 0)
  /-- The stream is fed from the channel. -/
  | running (hreplay : x.stream.replay = []) (hlast : ¬[.syncReset] <:+ x.stream.forwarded)
      (hopen : ∀ s msgs, OpenRun x.stream.forwarded s msgs →
        x.Continues lo s (frameNumbers msgs).length)

/-- What the stream's position promises. -/
def StreamInv (x : Forwarding B) (lo : ℕ) : Prop :=
  match x.stream.pc with
  | .idle => x.stream.clientRx = [] ∧ x.inMap = false ∧ x.stream.forwarded = []
  | .live => x.Live lo
  | .lagged _ | .ended => True
  | .draining _ | .resyncing _ => x.stream.replay = []
  | .labelled _ s | .snapped _ _ s => x.stream.replay = [] ∧ lo ≤ s + 1
  | .reset _ _ s =>
    x.stream.replay = [] ∧ lo ≤ s + 1 ∧ [.syncReset] <:+ x.stream.forwarded

/-- The channel holds the relay's frames from `lo` on, up to the upcoming one while the client is in
the map; and the queue shows no gap. -/
structure Carrying (x : Forwarding B) (lo : ℕ) : Prop where
  channel : ∃ hi, Paced lo x.stream.clientRx hi ∧ hi ≤ x.upcoming ∧
    (x.inMap = true → hi = x.upcoming)
  recorded : ∀ m ∈ x.stream.clientRx, m.seqno?.isSome → m ∈ x.sent
  noGap : NoGap x.sent x.stream.forwarded

/-- The stream's side of the invariant. -/
structure Delivering (x : Forwarding B) (lo : ℕ) : Prop extends Carrying x lo where
  stream : x.StreamInv lo

/-- The invariant of the interleaving. -/
structure Inv (x : Forwarding B) : Prop where
  relay : x.RelayInv
  attach : x.AttachInv
  /-- No stream before the client is in the map. -/
  waiting : x.attach ≠ .inserted → x.stream.pc = .idle
  delivering : ∃ lo, x.Delivering lo

theorem RelayInv.upcoming_le {x : Forwarding B} (h : x.RelayInv) :
    x.upcoming ≤ x.pane.seqnoCounter := by
  rw [RelayInv] at h
  cases hrelay : x.relay with
  | idle | fed =>
    rw [hrelay] at h
    exact h.le
  | dispatching target toNumber pushed toSend toCertify =>
    rw [hrelay] at h
    exact h.2.1

/-! ## The stream's steps -/

theorem Above.mono {x y : Forwarding B} {s : ℕ} (h : x.Above s)
    (hcounter : x.pane.seqnoCounter ≤ y.pane.seqnoCounter)
    (hwaiting : ∀ m ∈ y.stream.clientRx, m ∈ x.stream.clientRx ∨
      ∀ n, m.incrementalSeqno = some n → s < n)
    (hcertifying : ∀ n ∈ y.relay.toCertify, n ∈ x.relay.toCertify ∨ s < n) : y.Above s := by
  refine ⟨lt_of_lt_of_le h.drawn hcounter, ?_, ?_⟩
  · intro m hm
    exact (hwaiting m hm).elim (h.waiting m) id
  · intro n hn
    exact (hcertifying n hn).elim (h.certifying n) id

theorem Continues.congr {x y : Forwarding B} {lo s k : ℕ} (h : x.Continues lo s k)
    (hcovered : y.stream.coveredThrough = x.stream.coveredThrough)
    (habove : s < lo → x.Above s → y.Above s) : y.Continues lo s k := by
  rw [Continues] at h ⊢
  rw [hcovered]
  rcases h with h | ⟨hnone, hlo, hx⟩
  · exact .inl h
  · refine .inr ⟨hnone, hlo, habove ?_ hx⟩
    rw [hlo]
    exact Nat.lt_succ_of_le (Nat.le_add_right s k)

variable {x : Forwarding B} {lo : ℕ}

/-- A stream that only moves to another position. -/
theorem Carrying.moved (h : x.Carrying lo) {t : PaneStream}
    (hrx : t.clientRx = x.stream.clientRx) (hforwarded : t.forwarded = x.stream.forwarded)
    (hinv : StreamInv { x with stream := t } lo) : Delivering { x with stream := t } lo := by
  refine ⟨⟨?_, ?_, ?_⟩, hinv⟩
  · change ∃ hi, Paced lo t.clientRx hi ∧ _
    rw [hrx]
    exact h.channel
  · change ∀ m ∈ t.clientRx, _
    rw [hrx]
    exact h.recorded
  · change NoGap x.sent t.forwarded
    rw [hforwarded]
    exact h.noGap

/-- A refused offer stops the stream or makes it lag. -/
theorem Carrying.offered (h : x.Carrying lo) (m : ServerMessage) (meanwhile : List OutboundEvent)
    (dropped : ℕ) {accepted : PaneStream → PaneStream}
    (haccepted : ∀ out, Delivering { x with
      stream := accepted { x.stream with out, forwarded := x.stream.forwarded ++ [m] } } lo) :
    Delivering { x with stream := x.stream.offer m meanwhile dropped accepted } lo := by
  obtain ⟨out, heq | heq | heq⟩ := x.stream.offer_cases m meanwhile dropped accepted
  · rw [heq]
    exact haccepted out
  · rw [heq]
    exact h.moved rfl rfl trivial
  · rw [heq]
    exact h.moved rfl rfl trivial

/-- Taking the first message out of the channel. -/
theorem Carrying.popped (h : x.Carrying lo) {m : ServerMessage} {rest : List ServerMessage}
    (hrx : x.stream.clientRx = m :: rest) (pc : StreamPc) :
    Carrying { x with stream := { x.stream with pc, clientRx := rest } }
      (if m.seqno?.isSome then lo + 1 else lo) := by
  obtain ⟨hi, hpaced, hle, heq⟩ := h.channel
  rw [hrx] at hpaced
  refine ⟨⟨hi, ?_, hle, heq⟩, ?_, h.noGap⟩
  · cases hpaced with
    | frame hm hrest =>
      rw [if_pos (by rw [hm]; rfl)]
      exact hrest
    | other hm _ _ hrest =>
      rw [if_neg (by rw [hm]; exact Bool.false_ne_true)]
      exact hrest
  · intro m' hm'
    exact h.recorded m' (hrx ▸ List.mem_cons_of_mem m hm')

/-- Dropping what the channel holds, for a position that promises nothing about it. -/
theorem Carrying.discarded (h : x.Carrying lo) {received empty : StreamPc}
    (hreceived : ∀ rest lo', StreamInv { x with
      stream := { x.stream with pc := received, clientRx := rest } } lo')
    (hempty : StreamInv { x with stream := { x.stream with pc := empty } } lo) :
    ∃ lo', Delivering { x with stream := x.stream.discard x.inMap received empty } lo' := by
  cases hrx : x.stream.clientRx with
  | nil =>
    rw [PaneStream.discard_nil hrx]
    by_cases hconnected : x.inMap = true
    · rw [if_pos hconnected]
      exact ⟨lo, h.moved rfl rfl hempty⟩
    · rw [if_neg hconnected]
      exact ⟨lo, h.moved rfl rfl trivial⟩
  | cons m rest =>
    rw [PaneStream.discard_cons hrx]
    exact ⟨_, h.popped hrx received, hreceived rest _⟩

/-- The snapshot after a reset opens a stretch. -/
theorem live_of_snapshot {forwarded : List ServerMessage} {snapshot : GridSnapshot} {s : SequenceNo}
    (hreplay : x.stream.replay = []) (hreset : [.syncReset] <:+ forwarded)
    (hforwarded : x.stream.forwarded = forwarded ++ [ServerMessage.terminalSnapshot snapshot s])
    (hcontinues : x.Continues lo s 0) : x.Live lo := by
  refine .running hreplay ?_ ?_
  · rintro ⟨init, hinit⟩
    rw [hforwarded] at hinit
    exact absurd (List.singleton_inj.mp (List.append_inj' hinit rfl).2) nofun
  · intro s' msgs hopen
    rw [hforwarded] at hopen
    rcases openRun_concat hopen with ⟨init, -, hinit⟩ | ⟨rfl, -, snapshot', heq⟩
    · exact absurd hinit (not_openRun_of_reset hreset)
    · obtain ⟨-, rfl⟩ := ServerMessage.terminalSnapshot.inj heq
      exact hcontinues

/-- A message after a reset adds to no stretch. -/
private theorem noGap_after_reset {sent forwarded : List ServerMessage} (h : NoGap sent forwarded)
    (hreset : [.syncReset] <:+ forwarded) (m : ServerMessage) : NoGap sent (forwarded ++ [m]) :=
  noGap_concat h fun _ _ _ hopen ↦ absurd hopen (not_openRun_of_reset hreset)

private theorem noGap_reset {sent forwarded : List ServerMessage} (h : NoGap sent forwarded) :
    NoGap sent (forwarded ++ [ServerMessage.syncReset]) :=
  noGap_concat h fun hne ↦ absurd rfl hne

theorem StreamInv.live (h : x.StreamInv lo) (hpc : x.stream.pc = .live) : x.Live lo := by
  rw [StreamInv, hpc] at h
  exact h

theorem Live.streamInv (h : x.Live lo) (hpc : x.stream.pc = .live) : x.StreamInv lo := by
  rw [StreamInv, hpc]
  exact h

/-- A message that no resync covers is passed on. -/
private theorem pass_of_none {t : PaneStream} {m : ServerMessage} (h : m.incrementalSeqno = none)
    (meanwhile : List OutboundEvent) : t.pass m meanwhile = t.offer m meanwhile 1 id := by
  rw [PaneStream.pass, if_neg]
  rw [PaneStream.superseded_iff]
  rintro ⟨n, c, hn, -⟩
  exact absurd (h.symm.trans hn) nofun

/-- Passing on a message of the replay. -/
theorem Delivering.passed_replay (h : x.Delivering lo) (hpc : x.stream.pc = .live)
    {m : ServerMessage} {rest : List ServerMessage} (hreplay : x.stream.replay = m :: rest)
    (meanwhile : List OutboundEvent) :
    Delivering { x with
      stream := PaneStream.pass { x.stream with replay := rest } m meanwhile } lo := by
  have hcarry : Carrying { x with stream := { x.stream with replay := rest } } lo :=
    ⟨h.channel, h.recorded, h.noGap⟩
  cases h.stream.live hpc with
  -- no stretch is open before the first reset
  | plain hforwarded hplain =>
    rw [hreplay] at hplain
    have hne : m ≠ .syncReset := fun heq ↦ hplain (heq ▸ List.mem_cons_self)
    have hrest : .syncReset ∉ rest := fun hmem ↦ hplain (List.mem_cons_of_mem m hmem)
    rw [PaneStream.pass]
    split
    · exact ⟨hcarry, Live.streamInv (.plain hforwarded hrest) hpc⟩
    · refine hcarry.offered m meanwhile 1 fun out ↦ ?_
      refine ⟨⟨h.channel, h.recorded, ?_⟩, Live.streamInv (.plain ?_ hrest) hpc⟩
      · exact noGap_concat h.noGap fun _ _ _ hopen ↦
          absurd hopen (not_openRun_of_not_mem hforwarded)
      · intro hmem
        rcases List.mem_append.mp hmem with hmem | hmem
        · exact hforwarded hmem
        · exact hne (List.mem_singleton.mp hmem).symm
  | resetNext snapshot s hforwarded hreset hcontinues =>
    obtain ⟨rfl, rfl⟩ := List.cons.inj (hreplay.symm.trans hreset)
    rw [pass_of_none rfl]
    refine hcarry.offered .syncReset meanwhile 1 fun out ↦ ?_
    refine ⟨⟨h.channel, h.recorded, noGap_reset h.noGap⟩, Live.streamInv ?_ hpc⟩
    refine .snapshotNext snapshot s ?_ rfl (hcontinues.congr rfl fun _ habove ↦ ?_)
    · change x.stream.forwarded ++ [ServerMessage.syncReset] = _
      rw [hforwarded, List.nil_append]
    · exact ⟨habove.drawn, habove.waiting, habove.certifying⟩
  -- the snapshot follows its reset, and opens the stretch
  | snapshotNext snapshot s hforwarded hsnapshot hcontinues =>
    obtain ⟨rfl, rfl⟩ := List.cons.inj (hreplay.symm.trans hsnapshot)
    have hreset : [.syncReset] <:+ x.stream.forwarded := hforwarded ▸ List.suffix_refl _
    rw [pass_of_none rfl]
    refine hcarry.offered _ meanwhile 1 fun out ↦ ?_
    refine ⟨⟨h.channel, h.recorded, noGap_after_reset h.noGap hreset _⟩,
      Live.streamInv ?_ hpc⟩
    refine live_of_snapshot rfl hreset rfl (hcontinues.congr rfl fun _ habove ↦ ?_)
    exact ⟨habove.drawn, habove.waiting, habove.certifying⟩
  | running hempty _ _ => exact absurd (hreplay.symm.trans hempty) nofun

/-- A frame below the label is skipped, and the stretch stays where it was. -/
private theorem Continues.skip {s c k : ℕ} (h : x.Continues lo s k)
    (hc : x.stream.coveredThrough = some c) (hle : lo ≤ c) : x.Continues (lo + 1) s k := by
  rcases h with ⟨hcovered, hmax⟩ | ⟨hnone, -⟩
  · obtain rfl : c = s := Option.some.inj (hc.symm.trans hcovered)
    exact .inl ⟨hcovered, by omega⟩
  · exact absurd (hnone.symm.trans hc) nofun

/-- A frame that is not skipped is the next one of the stretch. -/
private theorem Continues.next {s k : ℕ} (h : x.Continues lo s k)
    (hkept : ∀ c, x.stream.coveredThrough = some c → c < lo) :
    lo = s + k + 1 ∧ x.Continues (lo + 1) s (k + 1) := by
  rcases h with ⟨hcovered, hmax⟩ | ⟨hnone, hlo, habove⟩
  · have hlt : s < lo := hkept s hcovered
    exact ⟨by omega, .inl ⟨hcovered, by omega⟩⟩
  · exact ⟨hlo, .inr ⟨hnone, by omega, habove⟩⟩

/-- A digest that is not skipped certifies a frame of the stretch. -/
private theorem Continues.digest {s n k : ℕ} {hash : Fnv1a128}
    (h : x.Continues lo s k) (hmem : .gridDigest n hash ∈ x.stream.clientRx) (hn : n < lo)
    (hkept : ∀ c, x.stream.coveredThrough = some c → c < n) : s < n ∧ n ≤ s + k := by
  rcases h with ⟨hcovered, hmax⟩ | ⟨-, hlo, habove⟩
  · have hlt : s < n := hkept s hcovered
    exact ⟨hlt, by omega⟩
  · exact ⟨habove.waiting _ hmem n rfl, by omega⟩

/-- Taking a message out of the channel, and whatever is done to the queue, leaves the rest of the
channel where it was. -/
private theorem Continues.taken {s k : ℕ} (h : x.Continues lo s k) {t : PaneStream}
    (hrx : t.clientRx ⊆ x.stream.clientRx) (hcovered : t.coveredThrough = x.stream.coveredThrough) :
    Continues { x with stream := t } lo s k :=
  h.congr hcovered fun _ habove ↦
    habove.mono le_rfl (fun _ hm ↦ .inl (hrx hm)) fun _ hn ↦ .inl hn

/-- Lengthening the open stretch of a running stream by a message that is no reset. -/
private theorem live_concat {forwarded : List ServerMessage} {m : ServerMessage}
    (hreplay : x.stream.replay = []) (hforwarded : x.stream.forwarded = forwarded ++ [m])
    (hm : m ≠ .syncReset) (hlast : ¬[.syncReset] <:+ forwarded)
    (hopen : ∀ s msgs, OpenRun forwarded s msgs →
      x.Continues lo s (frameNumbers (msgs ++ [m])).length) : x.Live lo := by
  refine .running hreplay ?_ ?_
  · rintro ⟨init, hinit⟩
    rw [hforwarded] at hinit
    exact hm (List.singleton_inj.mp (List.append_inj' hinit rfl).2).symm
  · intro s msgs h
    rw [hforwarded] at h
    rcases openRun_concat h with ⟨init, rfl, hinit⟩ | ⟨-, hreset, -⟩
    · exact hopen s init hinit
    · exact absurd hreset hlast

/-- A live stream without a replay is running. -/
private theorem Live.of_replay_nil (h : x.Live lo) (hreplay : x.stream.replay = []) :
    ¬[.syncReset] <:+ x.stream.forwarded ∧ ∀ s msgs, OpenRun x.stream.forwarded s msgs →
      x.Continues lo s (frameNumbers msgs).length := by
  cases h with
  | plain hforwarded _ =>
    exact ⟨fun hsuffix ↦ hforwarded (hsuffix.subset List.mem_cons_self),
      fun s msgs hrun ↦ absurd hrun (not_openRun_of_not_mem hforwarded)⟩
  | resetNext _ _ _ hnext _ => exact absurd (hreplay.symm.trans hnext) nofun
  | snapshotNext _ _ _ hnext _ => exact absurd (hreplay.symm.trans hnext) nofun
  | running _ hlast hopen => exact ⟨hlast, hopen⟩

/-- What is not superseded lies above what the last resync covers. -/
private theorem lt_of_not_superseded {t : PaneStream} {m : ServerMessage} {n : ℕ}
    (h : ¬t.superseded m = true) (hn : m.incrementalSeqno = some n) :
    ∀ c, t.coveredThrough = some c → c < n := by
  intro c hc
  by_contra hle
  exact h (PaneStream.superseded_iff.mpr ⟨n, c, hn, hc, Nat.le_of_not_lt hle⟩)

/-- Passing on a message of the channel: a frame is the next of the open stretch or below its label,
and anything else leaves the stretch as it is. -/
theorem Delivering.passed_clientRx (h : x.Delivering lo) (hpc : x.stream.pc = .live)
    (hreplay : x.stream.replay = []) {m : ServerMessage} {rest : List ServerMessage}
    (hrx : x.stream.clientRx = m :: rest) (meanwhile : List OutboundEvent) :
    ∃ lo', Delivering { x with
      stream := PaneStream.pass { x.stream with clientRx := rest } m meanwhile } lo' := by
  obtain ⟨hlast, hopen⟩ := (h.stream.live hpc).of_replay_nil hreplay
  have hrest : rest ⊆ x.stream.clientRx := hrx ▸ List.subset_cons_self m rest
  have hcarry := h.popped hrx x.stream.pc
  obtain ⟨hi, hpaced, -⟩ := h.channel
  rw [hrx] at hpaced
  cases hpaced with
  | frame hm _ =>
    rw [hm, Option.isSome_some, if_pos rfl] at hcarry
    have hnumber := seqno?_eq_incrementalSeqno hm
    refine ⟨lo + 1, ?_⟩
    rw [PaneStream.pass]
    split
    -- below the label: the snapshot has it already
    case isTrue hsuperseded =>
      obtain ⟨n, c, hn, hc, hle⟩ := PaneStream.superseded_iff.mp hsuperseded
      obtain rfl : n = lo := Option.some.inj (hn.symm.trans hnumber)
      exact ⟨hcarry, Live.streamInv (.running hreplay hlast fun s msgs hrun ↦
        ((hopen s msgs hrun).skip hc hle).taken hrest rfl) hpc⟩
    -- above the label, so it is the one the stretch waits for
    case isFalse hsuperseded =>
      have hkept := lt_of_not_superseded hsuperseded hnumber
      have hne : m ≠ .syncReset := by
        rintro rfl
        exact absurd hm nofun
      refine hcarry.offered m meanwhile 1 fun out ↦ ?_
      refine ⟨⟨hcarry.channel, hcarry.recorded, noGap_concat h.noGap fun _ s msgs hrun ↦ ?_⟩,
        Live.streamInv (live_concat hreplay rfl hne hlast fun s msgs hrun ↦ ?_) hpc⟩
      · obtain ⟨hlo, -⟩ := (hopen s msgs hrun).next hkept
        have hsent : m ∈ x.sent := h.recorded m (hrx ▸ List.mem_cons_self) (by rw [hm]; rfl)
        exact (h.noGap.contiguous hrun).concat_frame (hm.trans (congrArg some hlo)) hsent
      · rw [frameNumbers_concat_frame msgs hm, List.length_append, List.length_singleton]
        exact ((hopen s msgs hrun).next hkept).2.taken hrest rfl
  | other hm hreset hdigest _ =>
    rw [hm, Option.isSome_none, if_neg Bool.false_ne_true] at hcarry
    refine ⟨lo, ?_⟩
    rw [PaneStream.pass]
    split
    case isTrue hsuperseded =>
      exact ⟨hcarry, Live.streamInv (.running hreplay hlast fun s msgs hrun ↦
        (hopen s msgs hrun).taken hrest rfl) hpc⟩
    case isFalse hsuperseded =>
      refine hcarry.offered m meanwhile 1 fun out ↦ ?_
      refine ⟨⟨hcarry.channel, hcarry.recorded, noGap_concat h.noGap fun _ s msgs hrun ↦ ?_⟩,
        Live.streamInv (live_concat hreplay rfl hreset hlast fun s msgs hrun ↦ ?_) hpc⟩
      -- a digest that is passed on is of a frame of the stretch
      · refine (h.noGap.contiguous hrun).concat_other hm fun n hash heq ↦ ?_
        subst heq
        exact (hopen s msgs hrun).digest (hrx ▸ List.mem_cons_self) (hdigest n hash rfl)
          (lt_of_not_superseded hsuperseded rfl)
      · rw [frameNumbers_concat_other msgs hm]
        exact (hopen s msgs hrun).taken hrest rfl

/-- A live stream forwards its next message. -/
theorem Delivering.forwarded (h : x.Delivering lo) (hpc : x.stream.pc = .live)
    (meanwhile : List OutboundEvent) :
    ∃ lo', Delivering { x with stream := x.stream.forward x.inMap meanwhile } lo' := by
  cases hreplay : x.stream.replay with
  | cons m rest =>
    rw [PaneStream.forward_replay hreplay]
    exact ⟨lo, h.passed_replay hpc hreplay meanwhile⟩
  | nil =>
    cases hrx : x.stream.clientRx with
    | cons m rest =>
      rw [PaneStream.forward_clientRx hreplay hrx]
      exact h.passed_clientRx hpc hreplay hrx meanwhile
    | nil =>
      rw [PaneStream.forward_nil hreplay hrx]
      by_cases hconnected : x.inMap = true
      · rw [if_pos hconnected]
        exact ⟨lo, h⟩
      · rw [if_neg hconnected]
        exact ⟨lo, h.moved rfl rfl trivial⟩

/-- A resync without a snapshot announces the lag and ends the stream. -/
theorem Carrying.gaveUp (h : x.Carrying lo) (dropped : ℕ) :
    Delivering { x with stream := x.stream.giveUp dropped } lo := by
  refine ⟨⟨h.channel, h.recorded, ?_⟩, trivial⟩
  change NoGap x.sent (if x.stream.out.send.2
    then x.stream.forwarded ++ [ServerMessage.lagged dropped] else x.stream.forwarded)
  split
  · exact noGap_concat h.noGap fun _ s msgs hrun ↦
      (h.noGap.contiguous hrun).concat_other rfl fun _ _ heq ↦ absurd heq nofun
  · exact h.noGap

/-- **One step of the stream.** A resync reads its label when everything broadcast so far is below
the counter, so that whatever is in the channel then starts no later than the frame after it. -/
theorem Delivering.stepped [TerminalBackend B] (h : x.Delivering lo)
    (hdrawn : x.upcoming ≤ x.pane.seqnoCounter) (e : StreamEvent) :
    ∃ lo', Delivering { x with stream := x.stream.step x.inMap x.pane e } lo' := by
  have hinv := h.stream
  rw [StreamInv] at hinv
  cases e with
  | next meanwhile =>
    rw [PaneStream.step]
    split
    case h_1 hpc => exact h.forwarded hpc meanwhile
    case h_2 => exact ⟨lo, h⟩
  | skip =>
    rw [PaneStream.step]
    split
    case h_1 dropped hpc => exact h.discarded (fun _ _ ↦ trivial) trivial
    case h_2 => exact ⟨lo, h⟩
  | room =>
    rw [PaneStream.step]
    split
    case h_1 dropped hpc =>
      split
      · exact ⟨lo, h.moved rfl rfl rfl⟩
      · exact ⟨lo, h⟩
    case h_2 => exact ⟨lo, h⟩
  | drain =>
    rw [PaneStream.step]
    split
    case h_1 dropped hpc =>
      rw [hpc] at hinv
      exact h.discarded (fun _ _ ↦ hinv) hinv
    case h_2 => exact ⟨lo, h⟩
  | readSeqno =>
    rw [PaneStream.step]
    split
    case h_1 dropped hpc =>
      rw [hpc] at hinv
      refine ⟨lo, h.moved rfl rfl ⟨hinv, ?_⟩⟩
      obtain ⟨hi, hpaced, hle, -⟩ := h.channel
      calc lo ≤ x.pane.seqnoCounter := (hpaced.le.trans hle).trans hdrawn
        _ ≤ x.pane.seqnoCounter - 1 + 1 := Nat.sub_le_iff_le_add.mp le_rfl
    case h_2 => exact ⟨lo, h⟩
  | snapshot =>
    rw [PaneStream.step]
    split
    case h_1 dropped seqno hpc =>
      rw [hpc] at hinv
      exact ⟨lo, h.moved rfl rfl hinv⟩
    case h_2 => exact ⟨lo, h⟩
  | gone =>
    rw [PaneStream.step]
    split
    case h_1 dropped hpc => exact ⟨lo, h.gaveUp dropped⟩
    case h_2 => exact ⟨lo, h⟩
  | sendReset meanwhile =>
    rw [PaneStream.step]
    split
    case h_1 dropped snapshot seqno hpc =>
      rw [hpc] at hinv
      refine ⟨lo, h.offered .syncReset meanwhile dropped fun out ↦ ?_⟩
      exact ⟨⟨h.channel, h.recorded, noGap_reset h.noGap⟩, hinv.1, hinv.2,
        List.suffix_append _ _⟩
    case h_2 => exact ⟨lo, h⟩
  | sendSnapshot meanwhile =>
    rw [PaneStream.step]
    split
    case h_1 dropped snapshot seqno hpc =>
      rw [hpc] at hinv
      obtain ⟨hreplay, hlo, hreset⟩ := hinv
      refine ⟨lo, h.offered _ meanwhile dropped fun out ↦ ?_⟩
      refine ⟨⟨h.channel, h.recorded, noGap_after_reset h.noGap hreset _⟩, ?_⟩
      exact live_of_snapshot hreplay hreset rfl (.inl ⟨rfl, max_eq_right hlo⟩)
    case h_2 => exact ⟨lo, h⟩
  | abort =>
    rw [PaneStream.step]
    split
    case h_1 => exact ⟨lo, h⟩
    case h_2 => exact ⟨lo, h.moved rfl rfl trivial⟩

/-! ## The other parties' steps -/

/-- What another party's step has to leave alone: the stream's own position, replay, label and
output. It may put messages into the channel and move the queue. -/
theorem StreamInv.unmoved {y : Forwarding B} (h : x.StreamInv lo)
    (hstream : y.stream = { x.stream with clientRx := y.stream.clientRx, out := y.stream.out })
    (habove : ∀ s, s < lo → x.Above s → y.Above s)
    (hidle : x.stream.pc = .idle → y.stream.clientRx = [] ∧ y.inMap = false) :
    y.StreamInv lo := by
  have hpc : y.stream.pc = x.stream.pc := by rw [hstream]
  have hreplay : y.stream.replay = x.stream.replay := by rw [hstream]
  have hforwarded : y.stream.forwarded = x.stream.forwarded := by rw [hstream]
  have hcontinues : ∀ s k, x.Continues lo s k → y.Continues lo s k := fun s k hx ↦
    hx.congr (by rw [hstream]) (habove s)
  rw [StreamInv] at h ⊢
  rw [hpc, hreplay, hforwarded]
  cases hposition : x.stream.pc with
  | idle =>
    rw [hposition] at h
    exact ⟨(hidle hposition).1, (hidle hposition).2, h.2.2⟩
  | live =>
    rw [hposition] at h
    cases h with
    | plain hplain hrest => exact .plain (hforwarded ▸ hplain) (hreplay ▸ hrest)
    | resetNext snapshot s hnothing hnext hx =>
      exact .resetNext snapshot s (hforwarded.trans hnothing) (hreplay.trans hnext)
        (hcontinues s 0 hx)
    | snapshotNext snapshot s hreset hnext hx =>
      exact .snapshotNext snapshot s (hforwarded.trans hreset) (hreplay.trans hnext)
        (hcontinues s 0 hx)
    | running hempty hlast hopen =>
      refine .running (hreplay.trans hempty) (hforwarded ▸ hlast) fun s msgs hrun ↦ ?_
      exact hcontinues s _ (hopen s msgs (hforwarded ▸ hrun))
  | lagged _ | ended => trivial
  | draining _ | resyncing _ | labelled _ _ | snapped _ _ _ | reset _ _ _ =>
    rw [hposition] at h
    exact h

/-- A step that puts nothing into the channel: nothing was broadcast, or the client is not in the
map. -/
theorem Delivering.quiet {y : Forwarding B} (h : x.Delivering lo)
    (hstream : y.stream = { x.stream with out := y.stream.out })
    (hmap : y.inMap = true → x.inMap = true ∧ y.sent = x.sent) (hsent : x.sent <+: y.sent)
    (hcounter : x.pane.seqnoCounter ≤ y.pane.seqnoCounter)
    (hcertifying : ∀ n ∈ y.relay.toCertify, n ∈ x.relay.toCertify ∨ x.pane.seqnoCounter ≤ n) :
    y.Delivering lo := by
  have hrx : y.stream.clientRx = x.stream.clientRx := by rw [hstream]
  have hforwarded : y.stream.forwarded = x.stream.forwarded := by rw [hstream]
  refine ⟨⟨?_, ?_, ?_⟩, h.stream.unmoved (by rw [hstream]) ?_ ?_⟩
  · obtain ⟨hi, hpaced, hle, heq⟩ := h.channel
    refine ⟨hi, hrx ▸ hpaced, hle.trans (Nat.succ_le_succ hsent.length_le), fun hy ↦ ?_⟩
    rw [heq (hmap hy).1, upcoming, upcoming, (hmap hy).2]
  · intro m hm hnumbered
    exact hsent.subset (h.recorded m (hrx ▸ hm) hnumbered)
  · rw [hforwarded]
    exact h.noGap.mono hsent.subset
  · intro s _ habove
    refine habove.mono hcounter (fun m hm ↦ .inl (hrx ▸ hm)) fun n hn ↦ ?_
    exact (hcertifying n hn).imp_right (lt_of_lt_of_le habove.drawn)
  · intro hpc
    have hinv := h.stream
    rw [StreamInv, hpc] at hinv
    refine ⟨hrx.trans hinv.1, Bool.eq_false_iff.mpr fun hy ↦ ?_⟩
    exact absurd (hinv.2.1.symm.trans (hmap hy).1) nofun

/-- The channel takes one more message. -/
theorem Delivering.pushed {y : Forwarding B} (h : x.Delivering lo) {m : ServerMessage}
    (hstream : y.stream = { x.stream with clientRx := x.stream.clientRx ++ [m] })
    (hinMap : x.inMap = true) (hsent : x.sent ⊆ y.sent)
    (hpaced : Paced x.upcoming [m] y.upcoming) (hrecorded : m.seqno?.isSome → m ∈ y.sent)
    (hpane : y.pane = x.pane)
    (hcertifying : ∀ n ∈ y.relay.toCertify, n ∈ x.relay.toCertify)
    (habove : ∀ s, s < lo → x.Above s → ∀ n, m.incrementalSeqno = some n → s < n) :
    y.Delivering lo := by
  have hrx : y.stream.clientRx = x.stream.clientRx ++ [m] := congrArg PaneStream.clientRx hstream
  refine ⟨⟨?_, ?_, ?_⟩, h.stream.unmoved ?_ ?_ ?_⟩
  · obtain ⟨hi, hchannel, -, heq⟩ := h.channel
    rw [heq hinMap] at hchannel
    exact ⟨y.upcoming, hrx ▸ hchannel.append hpaced, le_rfl, fun _ ↦ rfl⟩
  · intro m' hm' hnumbered
    rw [hrx] at hm'
    rcases List.mem_append.mp hm' with hm' | hm'
    · exact hsent (h.recorded m' hm' hnumbered)
    · obtain rfl := List.mem_singleton.mp hm'
      exact hrecorded hnumbered
  · rw [congrArg PaneStream.forwarded hstream]
    exact h.noGap.mono hsent
  · rw [hstream]
  · intro s hs hx
    refine hx.mono (by rw [hpane]) (fun m' hm' ↦ ?_) fun n hn ↦ .inl (hcertifying n hn)
    rw [hrx] at hm'
    rcases List.mem_append.mp hm' with hm' | hm'
    · exact .inl hm'
    · rw [List.mem_singleton.mp hm']
      exact .inr (habove s hs hx)
  · intro hpc
    have hinv := h.stream
    rw [StreamInv, hpc] at hinv
    exact absurd (hinv.2.1.symm.trans hinMap) nofun

/-- A broadcast frame reaches the channel, or finds the client gone or makes it leave. -/
theorem broadcastTo_cases (channelCapacity : ℕ) (x : Forwarding B) (frame : ServerMessage) :
    x.inMap = true ∧ x.broadcastTo channelCapacity frame
        = { x with stream := { x.stream with clientRx := x.stream.clientRx ++ [frame] } } ∨
      ∃ out, x.broadcastTo channelCapacity frame
        = { x with inMap := false, stream := { x.stream with out } } := by
  rw [broadcastTo]
  by_cases hmap : x.inMap = true
  · rw [if_pos hmap]
    split
    · exact .inr ⟨x.stream.out, rfl⟩
    · split
      · exact .inl ⟨hmap, rfl⟩
      · exact .inr ⟨x.stream.out.send.1, rfl⟩
  · rw [if_neg hmap]
    refine .inr ⟨x.stream.out, ?_⟩
    rw [← Bool.eq_false_iff.mpr hmap]

theorem post_cases (channelCapacity : ℕ) (x : Forwarding B) (msg : ServerMessage) :
    x.inMap = true ∧ x.post channelCapacity msg
        = { x with stream := { x.stream with clientRx := x.stream.clientRx ++ [msg] } } ∨
      x.post channelCapacity msg = x := by
  rw [post]
  split
  case isTrue h => exact .inl ⟨h.1, rfl⟩
  case isFalse => exact .inr rfl

/-- Posting a message that is no frame. -/
theorem Inv.posted {x : Forwarding B} (h : x.Inv) (channelCapacity : ℕ) {m : ServerMessage}
    (hm : m.seqno? = none) (hreset : m ≠ .syncReset)
    (hdigest : ∀ n hash, m = .gridDigest n hash → n < x.upcoming ∧ n ∈ x.relay.toCertify) :
    (x.post channelCapacity m).Inv := by
  rcases x.post_cases channelCapacity m with ⟨hmap, heq⟩ | heq
  · rw [heq]
    obtain ⟨lo, hdelivering⟩ := h.delivering
    refine ⟨h.relay, h.attach, h.waiting, lo, ?_⟩
    refine hdelivering.pushed rfl hmap (List.Subset.refl _)
      (.other hm hreset (fun n hash hn ↦ (hdigest n hash hn).1) (.nil _))
      (fun hnumbered ↦ ?_) rfl (fun _ hn ↦ hn) fun s _ habove n hn ↦ ?_
    · rw [hm] at hnumbered
      exact absurd hnumbered nofun
    · cases m with
      | gridDigest seqno hash =>
        obtain rfl : seqno = n := Option.some.inj hn
        exact habove.certifying seqno (hdigest seqno hash rfl).2
      | terminalUpdate _ _ | cursorUpdate _ _ _ | scrollbackAppend _ _ _ => exact absurd hm nofun
      | terminalSnapshot _ _ | syncReset | lagged _ | historyLines _ _ _ _ => exact absurd hn nofun
  · rw [heq]
    exact h

/-- A step of the attach that only moves it to `attach`. -/
theorem Inv.attached {x : Forwarding B} (h : x.Inv) {attach : AttachPhase}
    (hstarted : x.attach ≠ .inserted)
    (hattach : ∀ s ∈ attach.uninserted?, s < x.pane.seqnoCounter ∧ x.sent.length ≤ s) :
    Inv { x with attach } := by
  obtain ⟨lo, hdelivering⟩ := h.delivering
  exact ⟨h.relay, hattach, fun _ ↦ h.waiting hstarted, lo, hdelivering.quiet rfl
    (fun hy ↦ ⟨hy, rfl⟩) (List.prefix_refl _) le_rfl fun _ hn ↦ .inl hn⟩

/-! ## One lemma per step -/

/-- A dispatch numbers its frames from the counter on, and certifies one of them. -/
theorem dispatch_numbers (p : Pane B) (r : DiffResult) :
    (p.dispatchDiffResult r).2.frames.map ServerMessage.seqno?
        = (List.range' p.seqnoCounter (p.dispatchDiffResult r).2.frames.length).map some ∧
      (p.dispatchDiffResult r).1.seqnoCounter
        = p.seqnoCounter + (p.dispatchDiffResult r).2.frames.length ∧
      ∀ n ∈ (p.dispatchDiffResult r).2.certified,
        p.seqnoCounter ≤ n ∧ n < (p.dispatchDiffResult r).1.seqnoCounter := by
  have hone : p.seqnoCounter < p.seqnoCounter + 1 := Nat.lt_succ_self _
  have htwo : p.seqnoCounter + 1 < p.seqnoCounter + 2 := Nat.lt_succ_self _
  have hsingle : ∀ n ∈ some p.seqnoCounter, p.seqnoCounter ≤ n ∧ n < p.seqnoCounter + 1 :=
    fun n hn ↦ Option.some.inj hn ▸ ⟨le_rfl, hone⟩
  cases r with
  | cellDiff diff lines =>
    rw [Pane.dispatchDiffResult]
    by_cases hlines : lines = []
    · subst hlines
      exact ⟨rfl, rfl, hsingle⟩
    · by_cases hreset : diff.scrollbackReset.isSome
      · simp only [if_pos (show lines ≠ [] from hlines), if_pos hreset]
        exact ⟨rfl, rfl, fun n hn ↦ Option.some.inj hn ▸ ⟨le_rfl, hone.trans htwo⟩⟩
      · simp only [if_pos (show lines ≠ [] from hlines), if_neg hreset]
        exact ⟨rfl, rfl, fun n hn ↦ Option.some.inj hn ▸ ⟨hone.le, htwo⟩⟩
  | cursorOnly cursor modes historyTotal =>
    rw [Pane.dispatchDiffResult]
    split
    · exact ⟨rfl, rfl, hsingle⟩
    · exact ⟨rfl, rfl, fun n hn ↦ absurd hn (Option.not_mem_none n)⟩
  | none => exact ⟨rfl, rfl, fun n hn ↦ absurd hn (Option.not_mem_none n)⟩

theorem sending_toCertify (target : Pane B) (toSend : List ServerMessage)
    (toCertify : Option SequenceNo) :
    (RelayPhase.sending target toSend toCertify).toCertify = toCertify := by
  rw [RelayPhase.sending]
  split
  case isTrue h => exact h.2.symm
  case isFalse => rfl

/-- Broadcasting the upcoming frame, whatever it does to the client. -/
theorem RelayInv.broadcast {x : Forwarding B} (h : x.RelayInv) {target : Pane B}
    {frame : ServerMessage} {rest : List ServerMessage} {toCertify : Option SequenceNo}
    (hrelay : x.relay = .dispatching target 0 true (frame :: rest) toCertify) :
    frame.seqno? = some x.upcoming ∧ ∀ attach inMap stream,
      RelayInv ⟨x.pane, .sending target rest toCertify, attach, inMap, stream,
        x.sent ++ [frame]⟩ := by
  rw [RelayInv, hrelay] at h
  obtain ⟨hcounter, -, hnumbers, hend, hcertify⟩ := h
  rw [List.map_cons, List.length_cons, List.range'_succ, List.map_cons] at hnumbers
  obtain ⟨hframe, hrest⟩ := List.cons.inj hnumbers
  refine ⟨hframe, fun attach inMap stream ↦ ?_⟩
  have hupcoming : x.sent.length + 1 + 1 = (x.sent ++ [frame]).length + 1 := by
    rw [List.length_append, List.length_singleton]
  have hcount : x.sent.length + 1 + (rest.length + 1) = x.pane.seqnoCounter := hend.trans hcounter
  rw [RelayInv, RelayPhase.sending]
  by_cases hdone : rest = [] ∧ toCertify = none
  · obtain ⟨rfl, rfl⟩ := hdone
    rw [if_pos ⟨rfl, rfl⟩]
    exact hupcoming.symm.trans hcount
  · rw [if_neg hdone]
    refine ⟨hcounter, ?_, ?_, ?_, hcertify⟩
    · rw [upcoming, ← hupcoming, ← hcount]
      omega
    · rw [upcoming, ← hupcoming]
      exact hrest
    · rw [upcoming, ← hupcoming, ← hend, upcoming, List.length_cons]
      omega

/-- If the label was drawn and nothing up to it is still to be broadcast, it has been. -/
theorem RelayInv.lt_upcoming {x : Forwarding B} (h : x.RelayInv) {s : SequenceNo}
    (hdrawn : s < x.pane.seqnoCounter) (hsend : ∀ m ∈ x.relay.toSend, ∀ n ∈ m.seqno?, s < n) :
    s < x.upcoming := by
  rw [RelayInv] at h
  cases hrelay : x.relay with
  | idle | fed =>
    rw [hrelay] at h
    exact lt_of_lt_of_eq hdrawn h.symm
  | dispatching target toNumber pushed toSend toCertify =>
    rw [hrelay] at h hsend
    obtain ⟨hcounter, -, hnumbers, hend, -⟩ := h
    cases toSend with
    | nil =>
      have hle : x.pane.seqnoCounter ≤ target.seqnoCounter := hcounter ▸ Nat.le_add_right _ _
      exact lt_of_lt_of_eq (lt_of_lt_of_le hdrawn hle) hend.symm
    | cons frame rest =>
      rw [List.map_cons, List.length_cons, List.range'_succ, List.map_cons] at hnumbers
      exact hsend frame List.mem_cons_self x.upcoming (List.cons.inj hnumbers).1

variable [TerminalBackend B]

theorem inv_new (outboundCapacity : ℕ) (b₀ : B) : (new outboundCapacity b₀).Inv := by
  refine ⟨rfl, nofun, fun _ ↦ rfl, 1, ⟨⟨1, .nil 1, le_rfl, fun _ ↦ rfl⟩, nofun, ?_⟩, rfl, rfl, rfl⟩
  intro earlier snapshot s later heq
  exact absurd heq (by simp [new, PaneStream.new])

theorem inv_feed (h : x.Inv) (interval channelCapacity : ℕ) (b : B) :
    (x.step interval channelCapacity (.feed b)).Inv := by
  rw [step]
  split
  case h_1 hrelay =>
    obtain ⟨lo, hdelivering⟩ := h.delivering
    have hidle := h.relay
    rw [RelayInv, hrelay] at hidle
    exact ⟨hidle, h.attach, h.waiting, lo,
      hdelivering.quiet rfl (fun hy ↦ ⟨hy, rfl⟩) (List.prefix_refl _) le_rfl nofun⟩
  case h_2 => exact h

theorem inv_computeDiff (h : x.Inv) (interval channelCapacity : ℕ) :
    (x.step interval channelCapacity .computeDiff).Inv := by
  rw [step]
  split
  case h_1 hrelay =>
    obtain ⟨lo, hdelivering⟩ := h.delivering
    have hfed := h.relay
    rw [RelayInv, hrelay] at hfed
    set d := x.pane.engine.computeDiff
    set pane : Pane B := { x.pane with engine := d.1 }
    obtain ⟨hnumbers, hcounter, hcertified⟩ := dispatch_numbers pane d.2
    have hphase : ∀ phase : RelayPhase B, RelayInv { x with pane, relay := phase } →
        (∀ n ∈ phase.toCertify, x.pane.seqnoCounter ≤ n) → Inv { x with pane, relay := phase } :=
      fun phase hinv hcertify ↦ ⟨hinv, h.attach, h.waiting, lo,
        hdelivering.quiet rfl (fun hy ↦ ⟨hy, rfl⟩) (List.prefix_refl _) le_rfl
          fun n hn ↦ .inr (hcertify n hn)⟩
    change Inv { x with
      pane
      relay := if (pane.dispatchDiffResult d.2).2.frames = [] then _ else _ }
    by_cases hnone : (pane.dispatchDiffResult d.2).2.frames = []
    · rw [if_pos hnone]
      exact hphase .idle hfed nofun
    · rw [if_neg hnone]
      refine hphase _ ⟨hcounter, hfed.le, ?_, ?_, ?_⟩ ?_
      · rw [hnumbers]
        exact congrArg (fun n ↦ (List.range' n _).map some) hfed.symm
      · rw [hcounter]
        exact congrArg (· + _) hfed
      · exact fun n hn ↦ (hcertified n (Option.mem_filter_iff.mp hn).1).2
      · exact fun n hn ↦ (hcertified n (Option.mem_filter_iff.mp hn).1).1
  case h_2 => exact h

theorem inv_allocate (h : x.Inv) (interval channelCapacity : ℕ) :
    (x.step interval channelCapacity .allocate).Inv := by
  rw [step]
  split
  case h_1 target todo pushed toSend toCertify hrelay =>
    obtain ⟨lo, hdelivering⟩ := h.delivering
    have hinv := h.relay
    rw [RelayInv, hrelay] at hinv
    obtain ⟨hcounter, hle, hnumbers, hend, hcertify⟩ := hinv
    refine ⟨⟨?_, Nat.le_succ_of_le hle, hnumbers, hend, hcertify⟩, ?_, h.waiting, lo, ?_⟩
    · rw [hcounter]
      exact Nat.add_right_comm _ _ 1
    · exact fun s hs ↦ ⟨Nat.lt_succ_of_lt (h.attach s hs).1, (h.attach s hs).2⟩
    · refine hdelivering.quiet rfl (fun hy ↦ ⟨hy, rfl⟩) (List.prefix_refl _) (Nat.le_succ _) ?_
      exact fun n hn ↦ .inl (by rw [hrelay]; exact hn)
  case h_2 => exact h

theorem inv_push (h : x.Inv) (interval channelCapacity : ℕ) :
    (x.step interval channelCapacity .push).Inv := by
  rw [step]
  split
  case h_1 target toSend toCertify hrelay =>
    obtain ⟨lo, hdelivering⟩ := h.delivering
    have hinv := h.relay
    rw [RelayInv, hrelay] at hinv
    obtain ⟨hcounter, hle, hnumbers, hend, hcertify⟩ := hinv
    have hpane : x.pane.seqnoCounter = target.seqnoCounter := hcounter.symm
    refine ⟨⟨rfl, hpane ▸ hle, hnumbers, hend, hcertify⟩, ?_, h.waiting, lo, ?_⟩
    · exact fun s hs ↦ ⟨lt_of_lt_of_eq (h.attach s hs).1 hpane, (h.attach s hs).2⟩
    · refine hdelivering.quiet rfl (fun hy ↦ ⟨hy, rfl⟩) (List.prefix_refl _) hpane.le ?_
      exact fun n hn ↦ .inl (by rw [hrelay]; exact hn)
  case h_2 => exact h

/-- The client that waits to enter the map needs the guard here: what is broadcast now never reaches
its channel. -/
theorem inv_broadcast (h : x.Inv) (hguard : x.Guarded .broadcast) (interval channelCapacity : ℕ) :
    (x.step interval channelCapacity .broadcast).Inv := by
  rw [step]
  split
  case h_1 target frame rest toCertify hrelay =>
    obtain ⟨lo, hdelivering⟩ := h.delivering
    obtain ⟨hframe, hrelay'⟩ := h.relay.broadcast hrelay
    have hupcoming : x.sent.length + 1 + 1 = (x.sent ++ [frame]).length + 1 := by
      rw [List.length_append, List.length_singleton]
    -- the client between its label and the map: the guard rules this frame out for it
    have hattach : ∀ inMap stream, AttachInv ⟨x.pane, .sending target rest toCertify, x.attach,
        inMap, stream, x.sent ++ [frame]⟩ := by
      intro inMap stream s hs
      refine ⟨(h.attach s hs).1, ?_⟩
      rw [List.length_append, List.length_singleton]
      exact hguard s hs frame (by rw [hrelay]; rfl) (x.sent.length + 1) hframe
    have hcertifying : ∀ n ∈ (RelayPhase.sending target rest toCertify).toCertify,
        n ∈ x.relay.toCertify := by
      intro n hn
      rw [sending_toCertify] at hn
      rw [hrelay]
      exact hn
    rcases x.broadcastTo_cases channelCapacity frame with ⟨hmap, heq⟩ | ⟨out, heq⟩
    · rw [heq]
      refine ⟨hrelay' _ _ _, hattach _ _, h.waiting, lo, hdelivering.pushed rfl hmap
        (List.subset_append_left _ _) ?_ (fun _ ↦ ?_) rfl hcertifying fun s hs _ n hn ↦ ?_⟩
      · refine .frame hframe ?_
        change Paced (x.sent.length + 1 + 1) [] ((x.sent ++ [frame]).length + 1)
        rw [hupcoming]
        exact .nil _
      · exact List.mem_append_right _ List.mem_cons_self
      · -- the channel reaches up to the upcoming frame, so that one lies above the label
        obtain rfl : x.upcoming = n :=
          Option.some.inj ((seqno?_eq_incrementalSeqno hframe).symm.trans hn)
        obtain ⟨hi, hpaced, -, hup⟩ := hdelivering.channel
        exact lt_of_lt_of_le hs (hpaced.le.trans_eq (hup hmap))
    · rw [heq]
      exact ⟨hrelay' _ _ _, hattach _ _, h.waiting, lo, hdelivering.quiet rfl nofun
        (List.prefix_append _ _) le_rfl fun n hn ↦ .inl (hcertifying n hn)⟩
  case h_2 => exact h

theorem inv_certify (h : x.Inv) (interval channelCapacity : ℕ) :
    (x.step interval channelCapacity .certify).Inv := by
  rw [step]
  split
  case h_1 target seqno hrelay =>
    have hinv := h.relay
    rw [RelayInv, hrelay] at hinv
    obtain ⟨hcounter, -, -, hend, hcertify⟩ := hinv
    have hposted := h.posted channelCapacity (m := .gridDigest seqno
      x.pane.engine.snapshot.liveDigest) rfl nofun fun n hash heq ↦ by
        obtain ⟨rfl, -⟩ := ServerMessage.gridDigest.inj heq
        exact ⟨lt_of_lt_of_eq (hcertify seqno rfl) hend.symm, by rw [hrelay]; rfl⟩
    obtain ⟨lo, hdelivering⟩ := hposted.delivering
    refine ⟨?_, hposted.attach, hposted.waiting, lo,
      hdelivering.quiet rfl (fun hy ↦ ⟨hy, rfl⟩) (List.prefix_refl _) le_rfl nofun⟩
    rcases x.post_cases channelCapacity (.gridDigest seqno x.pane.engine.snapshot.liveDigest) with
      ⟨-, heq⟩ | heq
    · rw [heq]
      exact hend.trans hcounter
    · rw [heq]
      exact hend.trans hcounter
  case h_2 => exact h

theorem inv_resize (h : x.Inv) (interval channelCapacity : ℕ) (sz : BackendSize) :
    (x.step interval channelCapacity (.resize sz)).Inv := by
  have hresized : Inv { x with pane := (x.pane.resize sz).1 } := by
    obtain ⟨lo, hdelivering⟩ := h.delivering
    exact ⟨h.relay, h.attach, h.waiting, lo, hdelivering.quiet rfl (fun hy ↦ ⟨hy, rfl⟩)
      (List.prefix_refl _) le_rfl fun _ hn ↦ .inl hn⟩
  exact hresized.posted channelCapacity rfl nofun fun _ _ heq ↦ absurd heq nofun

theorem inv_choose (h : x.Inv) (interval channelCapacity : ℕ) (lastSeqno : Option SequenceNo) :
    (x.step interval channelCapacity (.choose lastSeqno)).Inv := by
  rw [step]
  split
  case h_1 hattach =>
    refine h.attached (by rw [hattach]; exact nofun) ?_
    split
    · exact nofun
    · exact nofun
    · exact nofun
  case h_2 => exact h

theorem inv_attachSnapshot (h : x.Inv) (interval channelCapacity : ℕ) :
    (x.step interval channelCapacity .attachSnapshot).Inv := by
  rw [step]
  split
  case h_1 reset hattach => exact h.attached (by rw [hattach]; exact nofun) nofun
  case h_2 => exact h

/-- The counter is read when everything broadcast so far lies below it. -/
theorem inv_attachSeqno (h : x.Inv) (interval channelCapacity : ℕ) :
    (x.step interval channelCapacity .attachSeqno).Inv := by
  rw [step]
  split
  case h_1 snapshot hattach =>
    refine h.attached (by rw [hattach]; exact nofun) ?_
    rintro s hs
    obtain rfl : x.pane.seqnoCounter - 1 = s := Option.some.inj hs
    have hdrawn : x.sent.length + 1 ≤ x.pane.seqnoCounter := h.relay.upcoming_le
    exact ⟨Nat.sub_lt (Nat.lt_of_lt_of_le (Nat.succ_pos _) hdrawn) Nat.one_pos,
      Nat.le_sub_of_add_le hdrawn⟩
  case h_2 snapshot hattach => exact h.attached (by rw [hattach]; exact nofun) nofun
  case h_3 => exact h

/-- Entering the map. A client that was answered with a reset needs the guards here: with them the
upcoming frame is the one after the label. -/
theorem inv_insert (h : x.Inv) (hguard : x.Guarded .insert) (interval channelCapacity : ℕ) :
    (x.step interval channelCapacity .insert).Inv := by
  rw [step]
  split
  case h_1 result hattach =>
    have hidle : x.stream.pc = .idle := h.waiting (by rw [hattach]; exact nofun)
    obtain ⟨lo, hdelivering⟩ := h.delivering
    have hinv := hdelivering.stream
    rw [StreamInv, hidle] at hinv
    obtain ⟨hrx, -, hforwarded⟩ := hinv
    refine ⟨h.relay, nofun, fun hne ↦ absurd rfl hne, x.upcoming, ⟨⟨x.upcoming, ?_, le_rfl,
      fun _ ↦ rfl⟩, ?_, hdelivering.noGap⟩, ?_⟩
    · change Paced x.upcoming x.stream.clientRx x.upcoming
      rw [hrx]
      exact .nil _
    · change ∀ m ∈ x.stream.clientRx, _
      rw [hrx]
      exact nofun
    · have hnone : .syncReset ∉ x.stream.forwarded := by
        rw [hforwarded]
        exact List.not_mem_nil
      cases result with
      | fullSnapshot snapshot s =>
        exact .plain hnone fun hmem ↦ absurd (List.mem_singleton.mp hmem) nofun
      | delta diffs =>
        refine .plain hnone fun hmem ↦ ?_
        obtain ⟨entry, -, heq⟩ := List.mem_map.mp hmem
        exact absurd heq nofun
      | syncReset snapshot s =>
        have hs : s ∈ x.attach.uninserted? := by rw [hattach]; rfl
        obtain ⟨hdrawn, hsent⟩ := h.attach s hs
        -- the label is the last frame broadcast
        have hpassed : s < x.sent.length + 1 := h.relay.lt_upcoming hdrawn (hguard s hs).1
        refine .resetNext snapshot s hforwarded rfl (.inr ⟨rfl, ?_, hdrawn, ?_, (hguard s hs).2⟩)
        · exact congrArg (· + 1) (le_antisymm hsent (Nat.le_of_lt_succ hpassed))
        · change ∀ m ∈ x.stream.clientRx, _
          rw [hrx]
          exact nofun
  case h_2 => exact h

theorem inv_stream (h : x.Inv) (interval channelCapacity : ℕ) (e : StreamEvent) :
    (x.step interval channelCapacity (.stream e)).Inv := by
  obtain ⟨lo, hdelivering⟩ := h.delivering
  refine ⟨h.relay, h.attach, fun hne ↦ ?_, hdelivering.stepped h.relay.upcoming_le e⟩
  change (x.stream.step x.inMap x.pane e).pc = .idle
  rw [PaneStream.step_of_idle (h.waiting hne)]
  exact h.waiting hne

/-- **One step.** -/
theorem inv_step (interval channelCapacity : ℕ) (x : Forwarding B) (e : ForwardEvent B) (h : x.Inv)
    (hguard : x.Guarded e) : (x.step interval channelCapacity e).Inv := by
  cases e with
  | feed b => exact inv_feed h interval channelCapacity b
  | computeDiff => exact inv_computeDiff h interval channelCapacity
  | allocate => exact inv_allocate h interval channelCapacity
  | push => exact inv_push h interval channelCapacity
  | broadcast => exact inv_broadcast h hguard interval channelCapacity
  | certify => exact inv_certify h interval channelCapacity
  | resize sz => exact inv_resize h interval channelCapacity sz
  | choose lastSeqno => exact inv_choose h interval channelCapacity lastSeqno
  | attachSnapshot => exact inv_attachSnapshot h interval channelCapacity
  | attachSeqno => exact inv_attachSeqno h interval channelCapacity
  | insert => exact inv_insert h hguard interval channelCapacity
  | detach =>
    obtain ⟨lo, hdelivering⟩ := h.delivering
    exact ⟨h.relay, h.attach, h.waiting, lo, hdelivering.quiet rfl nofun (List.prefix_refl _)
      le_rfl fun _ hn ↦ .inl hn⟩
  | queue e =>
    obtain ⟨lo, hdelivering⟩ := h.delivering
    exact ⟨h.relay, h.attach, h.waiting, lo, hdelivering.quiet rfl (fun hy ↦ ⟨hy, rfl⟩)
      (List.prefix_refl _) le_rfl fun _ hn ↦ .inl hn⟩
  | stream e => exact inv_stream h interval channelCapacity e

/-- **No undetectable gap.** In every interleaving that meets the guard, whatever the capacities of
the queue and of the channel, what the stream has put on the queue after a reset and its snapshot is
the relay's frames after the label, one by one. -/
theorem noGap_of_guarded (interval channelCapacity outboundCapacity : ℕ) (b₀ : B)
    (es : List (ForwardEvent B))
    (hguarded : Run.Ok (step interval channelCapacity) Guarded (new outboundCapacity b₀) es) :
    NoGap ((new outboundCapacity b₀).run interval channelCapacity es).sent
      ((new outboundCapacity b₀).run interval channelCapacity es).stream.forwarded := by
  have hinv : Inv (Run.exec (step interval channelCapacity) (new outboundCapacity b₀) es) :=
    Run.invariant_of_ok (inv_step interval channelCapacity) es _ (inv_new outboundCapacity b₀)
      hguarded
  obtain ⟨lo, hdelivering⟩ := hinv.delivering
  exact hdelivering.noGap

end Forwarding

/-! ## Three interleavings -/

/-- A character is put into the only cell of the screen. -/
def typed (c : Char) : ForwardEvent MockBackend :=
  .feed { MockBackend.new 1 1 with cells := [{ (default : CellState) with c }] }

/-- The client comes with a number of an earlier daemon run, is answered with a reset, and the
outbound queue has four slots. The digest of the first frame finds it congested; during the resync
the second frame is numbered before the counter is read and broadcast after it. -/
def congestedRun : List (ForwardEvent MockBackend) :=
  [.choose (some 5), .attachSnapshot, .attachSeqno, .insert, .stream (.next []),
    .stream (.next []), typed 'a', .computeDiff, .allocate, .push, .broadcast, .certify,
    .stream (.next []), .stream (.next []), .queue .take, .queue .take, .stream .room,
    .stream .drain, typed 'b', .computeDiff, .allocate, .stream .readSeqno, .stream .snapshot,
    .push, .broadcast, .certify, .stream (.sendReset []), .stream (.sendSnapshot []),
    .queue .take, .stream (.next []), .stream (.next []), typed 'c', .computeDiff, .allocate,
    .push, .broadcast, .stream (.next [])]

theorem noGap_congestedRun :
    let x := (Forwarding.new 4 (MockBackend.new 1 1)).run 1 8 congestedRun
    frameNumbers x.sent = [1, 2, 3] ∧ frameNumbers x.stream.forwarded = [1, 3] ∧
      x.stream.coveredThrough = some 2 ∧ NoGap x.sent x.stream.forwarded := by
  intro x
  refine ⟨by decide +kernel, by decide +kernel, by decide +kernel, ?_⟩
  exact Forwarding.noGap_of_guarded 1 8 4 (MockBackend.new 1 1) congestedRun (by decide +kernel)

/-- The first frame is broadcast after the label was read and before the client is in the map. -/
def missedFrame : Forwarding MockBackend :=
  (Forwarding.new outboundCapacity (MockBackend.new 1 1)).run digestSeqnoInterval
    clientChannelCapacity
    [.choose (some 5), .attachSnapshot, .attachSeqno, typed 'a', .computeDiff, .allocate, .push,
      .broadcast, .insert, typed 'b', .computeDiff, .allocate, .push, .broadcast,
      .stream (.next []), .stream (.next []), .stream (.next [])]

/-- The first frame is numbered before the label is read and broadcast when the client is in the
map. -/
def coveredFrame : Forwarding MockBackend :=
  (Forwarding.new outboundCapacity (MockBackend.new 1 1)).run digestSeqnoInterval
    clientChannelCapacity
    [typed 'a', .computeDiff, .allocate, .choose (some 5), .attachSnapshot, .attachSeqno, .insert,
      .push, .broadcast, .stream (.next []), .stream (.next []), .stream (.next [])]

/-- After the label 0 comes frame 2; and after the label 1 comes frame 1. -/
theorem not_noGap_of_attach :
    ¬NoGap missedFrame.sent missedFrame.stream.forwarded ∧
      ¬NoGap coveredFrame.sent coveredFrame.stream.forwarded := by
  constructor
  · intro h
    have hshape : missedFrame.stream.forwarded = [] ++ ServerMessage.syncReset ::
        .terminalSnapshot (DiffEngine.new (MockBackend.new 1 1)).snapshot 0 ::
        missedFrame.stream.forwarded.drop 2 := by decide +kernel
    exact absurd (h [] _ 0 _ hshape).numbers (by decide +kernel)
  · intro h
    have hshape : coveredFrame.stream.forwarded = [] ++ ServerMessage.syncReset ::
        .terminalSnapshot coveredFrame.pane.engine.snapshot 1 ::
        coveredFrame.stream.forwarded.drop 2 := by decide +kernel
    exact absurd (h [] _ 1 _ hshape).numbers (by decide +kernel)

end Kmux
