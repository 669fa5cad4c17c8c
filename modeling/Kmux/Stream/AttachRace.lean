import Kmux.Daemon.Attach
import Kmux.Stream.Heard
import Kmux.VtCore.MockBackend

/-!
# Attaching while the relay runs

An attach takes a snapshot, reads the sequence counter and enters the client map, each under a lock
of its own, while the diff loop feeds, diffs, draws numbers, records and broadcasts. The model
interleaves the two in any order. Ghost fields record how often the emulator was fed, what each
number drawn covers, and what was broadcast.

The label of a full snapshot is sound when everything numbered up to it is in the snapshot and
everything above it reaches the client. The counter is read after the snapshot is taken, so a diff
numbered between the two is labelled as covered without being in the snapshot; and a frame broadcast
between the reading and the insertion is sent to a map the client is not in. `Guarded` excludes
exactly these two, and under it the label is sound in every state of every interleaving.
-/

namespace Kmux

/-- How far a diff or a snapshot reaches: how often the emulator had been fed, and the end of the
captured history. -/
structure Coverage where
  fed : ℕ
  historyTotal : ℕ
  deriving DecidableEq, Repr

/-- Everything `c` covers, `d` covers too. -/
def Coverage.Within (c d : Coverage) : Prop := c.fed ≤ d.fed ∧ c.historyTotal ≤ d.historyTotal

instance (c d : Coverage) : Decidable (c.Within d) := inferInstanceAs (Decidable (_ ∧ _))

theorem Coverage.Within.trans {c d e : Coverage} (h : c.Within d) (h' : d.Within e) : c.Within e :=
  ⟨h.1.trans h'.1, h.2.trans h'.2⟩

/-- Where the diff loop is. -/
inductive RelayPc (B : Type*)
  | idle
  /-- Output has been fed and not yet diffed. -/
  | fed
  /-- A dispatch under way: the pane it leads to, how many numbers are still to be drawn, whether
  the diff has been pushed to the replay buffer, the frames still to be broadcast, and what they
  cover. -/
  | dispatching (target : Pane B) (toNumber : ℕ) (pushed : Bool) (toSend : List ServerMessage)
      (covers : Coverage)

/-- Where the attach is. -/
inductive AttachPc
  | start
  | snapped (snapshot : GridSnapshot) (covers : Coverage)
  | labelled (snapshot : GridSnapshot) (covers : Coverage) (seqno : SequenceNo)
  /-- In the client map. -/
  | inserted (snapshot : GridSnapshot) (covers : Coverage) (seqno : SequenceNo)
  /-- Told that it lagged, and dropped from the map. -/
  | lagged (snapshot : GridSnapshot) (covers : Coverage) (seqno : SequenceNo)
  deriving DecidableEq, Repr

/-- What the diff whose number is drawn next covers. -/
def RelayPc.numbering? {B : Type*} : RelayPc B → Option Coverage
  | .dispatching _ (_ + 1) _ _ covers => some covers
  | _ => none

/-- The frame that is broadcast next. -/
def RelayPc.nextFrame? {B : Type*} : RelayPc B → Option ServerMessage
  | .dispatching _ 0 true (frame :: _) _ => some frame
  | _ => none

/-- What a snapshot without a label yet covers. -/
def AttachPc.unlabelled? : AttachPc → Option Coverage
  | .snapped _ covers => some covers
  | _ => none

/-- The label of a client that is not in the map yet. -/
def AttachPc.uninserted? : AttachPc → Option SequenceNo
  | .labelled _ _ seqno => some seqno
  | _ => none

/-- A pane with its diff loop and one attaching client. -/
structure Race (B : Type*) where
  pane : Pane B
  relay : RelayPc B
  attach : AttachPc
  /-- How often the emulator has been fed. -/
  fed : ℕ
  /-- The numbers drawn so far, with what the diff of each covers. -/
  numbered : List (SequenceNo × Coverage)
  /-- The frames broadcast so far. -/
  sent : List ServerMessage
  /-- The frames put into the client's channel so far. -/
  received : List ServerMessage

/-- The steps of the two parties. -/
inductive RaceEvent (B : Type*)
  | feed (b : B)
  | computeDiff
  | allocate
  | push
  /-- Broadcast the next frame; `full` says whether the client's channel had no room. -/
  | broadcast (full : Bool)
  | snapshot
  | readSeqno
  | insert

namespace Race

variable {B : Type*} [TerminalBackend B]

/-- A freshly spawned pane, and a client that has not attached yet. -/
def new (b₀ : B) : Race B :=
  { pane := Pane.new b₀
    relay := .idle
    attach := .start
    fed := 0
    numbered := []
    sent := []
    received := [] }

/-- What a snapshot or a diff taken now covers. -/
def covers (r : Race B) : Coverage := ⟨r.fed, r.pane.engine.mirror.historyTotal⟩

/-- The client's end of a broadcast: a client in the map gets the frame, or is told that it lagged
and dropped. -/
def deliver (r : Race B) (frame : ServerMessage) (full : Bool) : Race B :=
  match r.attach with
  | .inserted snapshot covers seqno =>
    if full then { r with attach := .lagged snapshot covers seqno }
    else { r with received := r.received ++ [frame] }
  | _ => r

/-- One step. An event whose party is elsewhere does nothing. -/
def step (r : Race B) : RaceEvent B → Race B
  | .feed b =>
    match r.relay with
    | .idle => { r with pane := r.pane.feed b, relay := .fed, fed := r.fed + 1 }
    | _ => r
  | .computeDiff =>
    match r.relay with
    | .fed =>
      let d := r.pane.engine.computeDiff
      let pane : Pane B := { r.pane with engine := d.1 }
      let out := pane.dispatchDiffResult d.2
      { r with
        pane
        relay := if out.2.frames = [] then .idle
          else .dispatching out.1 out.2.frames.length false out.2.frames
            ⟨r.fed, d.1.mirror.historyTotal⟩ }
    | _ => r
  | .allocate =>
    match r.relay with
    | .dispatching target (todo + 1) pushed toSend covers =>
      { r with
        pane := { r.pane with seqnoCounter := r.pane.seqnoCounter + 1 }
        relay := .dispatching target todo pushed toSend covers
        numbered := r.numbered ++ [(r.pane.seqnoCounter, covers)] }
    | _ => r
  | .push =>
    match r.relay with
    -- the buffer is written once every number has been drawn
    | .dispatching target 0 false toSend covers =>
      { r with pane := target, relay := .dispatching target 0 true toSend covers }
    | _ => r
  | .broadcast full =>
    match r.relay with
    | .dispatching target 0 true (frame :: rest) covers =>
      { r.deliver frame full with
        relay := if rest = [] then .idle else .dispatching target 0 true rest covers
        sent := r.sent ++ [frame] }
    | _ => r
  | .snapshot =>
    match r.attach with
    | .start => { r with attach := .snapped r.pane.engine.snapshot r.covers }
    | _ => r
  | .readSeqno =>
    match r.attach with
    -- a relaxed load of its own, after the snapshot's lock was released
    | .snapped snapshot covers => { r with attach := .labelled snapshot covers r.pane.currentSeqno }
    | _ => r
  | .insert =>
    match r.attach with
    | .labelled snapshot covers seqno => { r with attach := .inserted snapshot covers seqno }
    | _ => r

/-- The state an interleaving leads to. -/
def run (r : Race B) (es : List (RaceEvent B)) : Race B := Run.exec step r es

end Race

/-- The label `seqno` of a snapshot that covers `covers` is sound: every frame numbered up to it is
in the snapshot, and every frame above it that was broadcast has reached the client, or a later one
has and shows the gap. -/
structure LabelSound {B : Type*} (r : Race B) (covers : Coverage) (seqno : SequenceNo) : Prop where
  reflected : ∀ f ∈ r.numbered, f.1 ≤ seqno → f.2.Within covers
  delivered : ∀ m ∈ r.sent, ∀ n, m.seqno? = some n → seqno < n →
    m ∈ r.received ∨ ∃ m' ∈ r.received, ∃ n', m'.seqno? = some n' ∧ n < n'

namespace Race

/-- Once the client is in the map its label is sound; a client told that it lagged only needs what
the label covers, since it was told of the rest. -/
structure Sound {B : Type*} (r : Race B) : Prop where
  inserted : ∀ snapshot covers seqno, r.attach = .inserted snapshot covers seqno →
    LabelSound r covers seqno
  lagged : ∀ snapshot covers seqno, r.attach = .lagged snapshot covers seqno →
    ∀ f ∈ r.numbered, f.1 ≤ seqno → f.2.Within covers

/-- The step draws no number, between the snapshot and the reading of the counter, for a diff that
reaches further than the snapshot; and broadcasts no frame above the label between the reading and
the insertion. -/
def Guarded {B : Type*} (r : Race B) : RaceEvent B → Prop
  | .allocate => ∀ c ∈ r.attach.unlabelled?, ∀ d ∈ r.relay.numbering?, d.Within c
  | .broadcast _ => ∀ seqno ∈ r.attach.uninserted?, ∀ m ∈ r.relay.nextFrame?,
      ∀ n ∈ m.seqno?, n ≤ seqno
  | _ => True

instance {B : Type*} (r : Race B) : ∀ e : RaceEvent B, Decidable (r.Guarded e)
  | .allocate => inferInstanceAs (Decidable (∀ c ∈ _, ∀ d ∈ _, Coverage.Within d c))
  | .broadcast _ => inferInstanceAs (Decidable (∀ seqno ∈ _, ∀ m ∈ _, ∀ n ∈ _, n ≤ seqno))
  | .feed _ | .computeDiff | .push | .snapshot | .readSeqno | .insert =>
    inferInstanceAs (Decidable True)

/-! ## The invariant -/

/-- What the diff loop's position promises: numbers drawn in order up to the target's counter, and
frames that lie below it. -/
def RelayInv {B : Type*} (r : Race B) : Prop :=
  match r.relay with
  | .dispatching target toNumber _ toSend covers =>
    target.seqnoCounter = r.pane.seqnoCounter + toNumber ∧ target.engine = r.pane.engine ∧
      (∀ m ∈ toSend, ∀ n, m.seqno? = some n → n < target.seqnoCounter) ∧ covers.Within r.covers
  | _ => True

/-- What the attach's position promises. -/
def AttachInv {B : Type*} (r : Race B) : Prop :=
  match r.attach with
  | .start => True
  | .snapped _ covers => ∀ f ∈ r.numbered, f.2.Within covers
  | .labelled _ covers seqno => seqno < r.pane.seqnoCounter ∧
      (∀ f ∈ r.numbered, f.1 ≤ seqno → f.2.Within covers) ∧
      ∀ m ∈ r.sent, ∀ n, m.seqno? = some n → n ≤ seqno
  | .inserted _ covers seqno => seqno < r.pane.seqnoCounter ∧ LabelSound r covers seqno
  | .lagged _ covers seqno => seqno < r.pane.seqnoCounter ∧
      ∀ f ∈ r.numbered, f.1 ≤ seqno → f.2.Within covers

/-- The invariant of the interleaving. -/
structure Inv {B : Type*} (r : Race B) : Prop where
  counter_pos : 0 < r.pane.seqnoCounter
  numbered_lt : ∀ f ∈ r.numbered, f.1 < r.pane.seqnoCounter
  numbered_within : ∀ f ∈ r.numbered, f.2.Within r.covers
  sent_lt : ∀ m ∈ r.sent, ∀ n, m.seqno? = some n → n < r.pane.seqnoCounter
  relay : RelayInv r
  attach : AttachInv r

theorem sound_of_inv {B : Type*} {r : Race B} (h : Inv r) : r.Sound := by
  have hattach := h.attach
  rw [AttachInv] at hattach
  constructor
  · intro snapshot covers seqno hpc
    rw [hpc] at hattach
    exact hattach.2
  · intro snapshot covers seqno hpc
    rw [hpc] at hattach
    exact hattach.2

/-- A step of the diff loop that draws no number and broadcasts nothing. -/
private theorem attachInv_of_quiet {B : Type*} {r r' : Race B} (h : AttachInv r)
    (hcounter : r'.pane.seqnoCounter = r.pane.seqnoCounter) (hattach : r'.attach = r.attach)
    (hnumbered : r'.numbered = r.numbered) (hsent : r'.sent = r.sent)
    (hreceived : r'.received = r.received) : AttachInv r' := by
  rw [AttachInv] at h ⊢
  rw [hattach]
  cases hpc : r.attach with
  | start => trivial
  | snapped snapshot covers =>
    rw [hpc] at h
    rw [hnumbered]
    exact h
  | labelled snapshot covers seqno =>
    rw [hpc] at h
    rw [hcounter, hnumbered, hsent]
    exact h
  | inserted snapshot covers seqno =>
    rw [hpc] at h
    rw [hcounter]
    refine ⟨h.1, ?_, ?_⟩
    · rw [hnumbered]
      exact h.2.reflected
    · rw [hsent, hreceived]
      exact h.2.delivered
  | lagged snapshot covers seqno =>
    rw [hpc] at h
    rw [hcounter, hnumbered]
    exact h

/-! ## One lemma per step -/

variable {B : Type*} [TerminalBackend B] {r : Race B}

theorem inv_new (b₀ : B) : Inv (new b₀) :=
  ⟨Nat.one_pos, fun _ h ↦ absurd h List.not_mem_nil, fun _ h ↦ absurd h List.not_mem_nil,
    fun _ h ↦ absurd h List.not_mem_nil, trivial, trivial⟩

theorem inv_feed (h : Inv r) (b : B) : Inv (r.step (.feed b)) := by
  rw [step]
  split
  · have hgrow : r.covers.Within ⟨r.fed + 1, r.pane.engine.mirror.historyTotal⟩ :=
      ⟨Nat.le_succ _, le_rfl⟩
    exact ⟨h.counter_pos, h.numbered_lt, fun f hf ↦ (h.numbered_within f hf).trans hgrow,
      h.sent_lt, trivial, attachInv_of_quiet h.attach rfl rfl rfl rfl rfl⟩
  · exact h

theorem inv_computeDiff (h : Inv r) : Inv (r.step .computeDiff) := by
  rw [step]
  split
  · set d := r.pane.engine.computeDiff with hd
    set pane : Pane B := { r.pane with engine := d.1 } with hpane
    have hgrow : r.covers.Within ⟨r.fed, d.1.mirror.historyTotal⟩ := by
      refine ⟨le_rfl, ?_⟩
      rw [hd, DiffEngine.computeDiff_mirror, ScrollbackMirror.append_historyTotal,
        DiffEngine.historyStep_mirror_historyTotal]
      exact Nat.le_add_right _ _
    have hrelay : RelayInv { r with
        pane
        relay := if (pane.dispatchDiffResult d.2).2.frames = [] then .idle
          else .dispatching (pane.dispatchDiffResult d.2).1
            (pane.dispatchDiffResult d.2).2.frames.length false
            (pane.dispatchDiffResult d.2).2.frames ⟨r.fed, d.1.mirror.historyTotal⟩ } := by
      rw [RelayInv]
      by_cases hnone : (pane.dispatchDiffResult d.2).2.frames = []
      · rw [if_pos hnone]
        trivial
      · rw [if_neg hnone]
        exact ⟨pane.dispatch_seqnoCounter d.2, pane.dispatch_engine d.2,
          (pane.numbered_dispatch d.2).seqno_lt, le_rfl, le_rfl⟩
    exact ⟨h.counter_pos, h.numbered_lt, fun f hf ↦ (h.numbered_within f hf).trans hgrow,
      h.sent_lt, hrelay, attachInv_of_quiet h.attach rfl rfl rfl rfl rfl⟩
  · exact h

/-- A number drawn now lies above every label read so far, and is covered by a snapshot that has no
label yet. -/
private theorem attachInv_of_drawn {B : Type*} {r r' : Race B} {covers : Coverage}
    (h : AttachInv r) (hsnapped : ∀ c ∈ r.attach.unlabelled?, covers.Within c)
    (hcounter : r'.pane.seqnoCounter = r.pane.seqnoCounter + 1) (hattach : r'.attach = r.attach)
    (hnumbered : r'.numbered = r.numbered ++ [(r.pane.seqnoCounter, covers)])
    (hsent : r'.sent = r.sent) (hreceived : r'.received = r.received) : AttachInv r' := by
  have hnew : ∀ {seqno : SequenceNo} {c : Coverage}, seqno < r.pane.seqnoCounter →
      (∀ f ∈ r.numbered, f.1 ≤ seqno → f.2.Within c) →
      ∀ f ∈ r'.numbered, f.1 ≤ seqno → f.2.Within c := by
    intro seqno c hlt hold
    rw [hnumbered, List.forall_mem_append]
    refine ⟨hold, List.forall_mem_singleton.mpr fun hle ↦ ?_⟩
    exact absurd hlt (not_lt.mpr hle)
  rw [AttachInv] at h ⊢
  rw [hattach, hcounter]
  cases hpc : r.attach with
  | start => trivial
  | snapped snapshot c =>
    rw [hpc] at h hsnapped
    simp only [hnumbered]
    exact List.forall_mem_append.mpr ⟨h, List.forall_mem_singleton.mpr (hsnapped c rfl)⟩
  | labelled snapshot c seqno =>
    rw [hpc] at h
    rw [hsent]
    exact ⟨Nat.lt_succ_of_lt h.1, hnew h.1 h.2.1, h.2.2⟩
  | inserted snapshot c seqno =>
    rw [hpc] at h
    refine ⟨Nat.lt_succ_of_lt h.1, hnew h.1 h.2.reflected, ?_⟩
    rw [hsent, hreceived]
    exact h.2.delivered
  | lagged snapshot c seqno =>
    rw [hpc] at h
    exact ⟨Nat.lt_succ_of_lt h.1, hnew h.1 h.2⟩

theorem inv_allocate (h : Inv r) (hguard : r.Guarded .allocate) : Inv (r.step .allocate) := by
  rw [step]
  rw [Guarded] at hguard
  split
  · rename_i target todo pushed toSend covers heq
    have hrelay := h.relay
    rw [RelayInv, heq] at hrelay
    obtain ⟨hcounter, hengine, hbelow, hcovers⟩ := hrelay
    refine ⟨Nat.succ_pos _, ?_, ?_, ?_, ?_, ?_⟩
    · exact List.forall_mem_append.mpr ⟨fun f hf ↦ Nat.lt_succ_of_lt (h.numbered_lt f hf),
        List.forall_mem_singleton.mpr (Nat.lt_succ_self _)⟩
    · exact List.forall_mem_append.mpr ⟨h.numbered_within,
        List.forall_mem_singleton.mpr hcovers⟩
    · exact fun m hm n hn ↦ Nat.lt_succ_of_lt (h.sent_lt m hm n hn)
    · refine ⟨?_, hengine, hbelow, hcovers⟩
      rw [hcounter]
      exact (Nat.succ_add_eq_add_succ _ _).symm
    · refine attachInv_of_drawn h.attach (fun c hc ↦ ?_) rfl rfl rfl rfl rfl
      rw [heq] at hguard
      exact hguard c hc covers rfl
  · exact h

theorem inv_push (h : Inv r) : Inv (r.step .push) := by
  rw [step]
  split
  · rename_i target toSend covers heq
    have hrelay := h.relay
    rw [RelayInv, heq] at hrelay
    obtain ⟨hcounter, hengine, hbelow, hcovers⟩ := hrelay
    rw [Nat.add_zero] at hcounter
    have hsame : (⟨r.fed, target.engine.mirror.historyTotal⟩ : Coverage) = r.covers := by
      rw [hengine]
      rfl
    refine ⟨?_, ?_, ?_, ?_, ?_, attachInv_of_quiet h.attach hcounter rfl rfl rfl rfl⟩
    · change 0 < target.seqnoCounter
      rw [hcounter]
      exact h.counter_pos
    · intro f hf
      change f.1 < target.seqnoCounter
      rw [hcounter]
      exact h.numbered_lt f hf
    · intro f hf
      change f.2.Within ⟨r.fed, target.engine.mirror.historyTotal⟩
      rw [hsame]
      exact h.numbered_within f hf
    · intro m hm n hn
      change n < target.seqnoCounter
      rw [hcounter]
      exact h.sent_lt m hm n hn
    · refine ⟨rfl, rfl, hbelow, ?_⟩
      change covers.Within ⟨r.fed, target.engine.mirror.historyTotal⟩
      rw [hsame]
      exact hcovers
  · exact h

/-- A frame that is sent and received. -/
private theorem labelSound_of_received {B : Type*} {r r' : Race B} {covers : Coverage}
    {seqno : SequenceNo} {frame : ServerMessage} (h : LabelSound r covers seqno)
    (hnumbered : r'.numbered = r.numbered) (hsent : r'.sent = r.sent ++ [frame])
    (hreceived : r'.received = r.received ++ [frame]) : LabelSound r' covers seqno := by
  constructor
  · rw [hnumbered]
    exact h.reflected
  · rw [hsent, hreceived]
    intro m hm n hn hlt
    rcases List.mem_append.mp hm with hm | hm
    · rcases h.delivered m hm n hn hlt with hgot | ⟨m', hm', n', hn', hlt'⟩
      · exact Or.inl (List.mem_append_left _ hgot)
      · exact Or.inr ⟨m', List.mem_append_left _ hm', n', hn', hlt'⟩
    · exact Or.inl (List.mem_append_right _ hm)

/-- A broadcast reaches a client in the map, or tells it that it lagged. -/
private theorem attachInv_broadcast {B : Type*} {r r' : Race B} {frame : ServerMessage}
    {full : Bool} (h : AttachInv r)
    (hlabel : ∀ snapshot covers seqno, r.attach = .labelled snapshot covers seqno →
      ∀ n, frame.seqno? = some n → n ≤ seqno)
    (hpane : r'.pane = (r.deliver frame full).pane)
    (hattach : r'.attach = (r.deliver frame full).attach)
    (hnumbered : r'.numbered = (r.deliver frame full).numbered)
    (hsent : r'.sent = r.sent ++ [frame])
    (hreceived : r'.received = (r.deliver frame full).received) : AttachInv r' := by
  rw [AttachInv] at h ⊢
  rw [deliver] at hpane hattach hnumbered hreceived
  cases hpc : r.attach with
  | start =>
    rw [hpc] at hattach
    rw [hattach, hpc]
    trivial
  | snapped snapshot covers =>
    rw [hpc] at h hattach hnumbered
    rw [hattach, hpc]
    simp only [hnumbered]
    exact h
  | labelled snapshot covers seqno =>
    rw [hpc] at h hattach hnumbered hpane
    rw [hattach, hpc]
    simp only [hnumbered, hpane, hsent]
    refine ⟨h.1, h.2.1, fun m hm n hn ↦ ?_⟩
    rcases List.mem_append.mp hm with hm | hm
    · exact h.2.2 m hm n hn
    · rw [List.mem_singleton.mp hm] at hn
      exact hlabel snapshot covers seqno hpc n hn
  | inserted snapshot covers seqno =>
    rw [hpc] at h hattach hnumbered hpane hreceived
    cases full with
    | true =>
      simp only [if_true] at hattach hnumbered hpane
      rw [hattach]
      simp only [hnumbered, hpane]
      exact ⟨h.1, h.2.reflected⟩
    | false =>
      simp only [Bool.false_eq_true, if_false] at hattach hnumbered hpane hreceived
      rw [hattach]
      simp only [hpane]
      exact ⟨h.1, labelSound_of_received h.2 hnumbered hsent hreceived⟩
  | lagged snapshot covers seqno =>
    rw [hpc] at h hattach hnumbered hpane
    rw [hattach, hpc]
    simp only [hnumbered, hpane]
    exact h

omit [TerminalBackend B] in
/-- A broadcast leaves the pane, the ghost counters and the numbers alone. -/
private theorem deliver_frame (r : Race B) (frame : ServerMessage) (full : Bool) :
    (r.deliver frame full).pane = r.pane ∧ (r.deliver frame full).fed = r.fed ∧
      (r.deliver frame full).numbered = r.numbered := by
  rw [deliver]
  split
  · split <;> exact ⟨rfl, rfl, rfl⟩
  · exact ⟨rfl, rfl, rfl⟩

theorem inv_broadcast {full : Bool} (h : Inv r) (hguard : r.Guarded (.broadcast full)) :
    Inv (r.step (.broadcast full)) := by
  rw [step]
  rw [Guarded] at hguard
  split
  · rename_i target frame rest covers heq
    obtain ⟨hpane, hfed, hnumbered⟩ := r.deliver_frame frame full
    have hrelay := h.relay
    rw [RelayInv, heq] at hrelay
    obtain ⟨hcounter, hengine, hbelow, hcovers⟩ := hrelay
    refine ⟨?_, ?_, ?_, ?_, ?_, ?_⟩
    · change 0 < (r.deliver frame full).pane.seqnoCounter
      rw [hpane]
      exact h.counter_pos
    · change ∀ f ∈ (r.deliver frame full).numbered, f.1 < (r.deliver frame full).pane.seqnoCounter
      rw [hpane, hnumbered]
      exact h.numbered_lt
    · change ∀ f ∈ (r.deliver frame full).numbered, f.2.Within ⟨(r.deliver frame full).fed,
        (r.deliver frame full).pane.engine.mirror.historyTotal⟩
      rw [hpane, hnumbered, hfed]
      exact h.numbered_within
    · intro m hm n hn
      change n < (r.deliver frame full).pane.seqnoCounter
      rw [hpane]
      rcases List.mem_append.mp hm with hm | hm
      · exact h.sent_lt m hm n hn
      · rw [List.mem_singleton.mp hm] at hn
        exact (hbelow frame List.mem_cons_self n hn).trans_eq hcounter
    · rw [RelayInv]
      by_cases hrest : rest = []
      · simp only [if_pos hrest]
      · simp only [if_neg hrest, Race.covers, hpane, hfed]
        exact ⟨hcounter, hengine, fun m hm ↦ hbelow m (List.mem_cons_of_mem _ hm), hcovers⟩
    · refine attachInv_broadcast h.attach ?_ rfl rfl rfl rfl rfl
      intro snapshot c seqno hpc
      rw [hpc, heq] at hguard
      exact hguard seqno rfl frame rfl
  · exact h

theorem inv_snapshot (h : Inv r) : Inv (r.step .snapshot) := by
  rw [step]
  split
  · exact ⟨h.counter_pos, h.numbered_lt, h.numbered_within, h.sent_lt, h.relay,
      h.numbered_within⟩
  · exact h

/-- The label is the last number drawn, so everything numbered or sent so far lies up to it. -/
theorem inv_readSeqno (h : Inv r) : Inv (r.step .readSeqno) := by
  rw [step]
  split
  · rename_i snapshot covers heq
    have hattach := h.attach
    rw [AttachInv, heq] at hattach
    have hlabel : r.pane.currentSeqno + 1 = r.pane.seqnoCounter :=
      Pane.currentSeqno_add_one h.counter_pos
    refine ⟨h.counter_pos, h.numbered_lt, h.numbered_within, h.sent_lt, h.relay, ?_, ?_, ?_⟩
    · exact hlabel ▸ Nat.lt_succ_self _
    · exact fun f hf _ ↦ hattach f hf
    · intro m hm n hn
      exact Nat.le_of_lt_succ ((h.sent_lt m hm n hn).trans_eq hlabel.symm)
  · exact h

theorem inv_insert (h : Inv r) : Inv (r.step .insert) := by
  rw [step]
  split
  · rename_i snapshot covers seqno heq
    have hattach := h.attach
    rw [AttachInv, heq] at hattach
    obtain ⟨hlt, hreflected, hsent⟩ := hattach
    exact ⟨h.counter_pos, h.numbered_lt, h.numbered_within, h.sent_lt, h.relay, hlt, hreflected,
      fun m hm n hn hgt ↦ absurd (hsent m hm n hn) (not_le.mpr hgt)⟩
  · exact h

theorem inv_step (h : Inv r) {e : RaceEvent B} (he : r.Guarded e) : Inv (r.step e) := by
  cases e with
  | feed b => exact inv_feed h b
  | computeDiff => exact inv_computeDiff h
  | allocate => exact inv_allocate h he
  | push => exact inv_push h
  | broadcast full => exact inv_broadcast h he
  | snapshot => exact inv_snapshot h
  | readSeqno => exact inv_readSeqno h
  | insert => exact inv_insert h

/-- **Label soundness.** In every interleaving of the relay with an attach in which both gaps are
guarded, the client's label is sound in the state reached. -/
theorem label_sound (b₀ : B) (es : List (RaceEvent B))
    (hguarded : Run.Ok step Guarded (new b₀) es) : ((new b₀).run es).Sound := by
  have hinv : Inv (Run.exec step (new b₀) es) :=
    Run.invariant_of_ok (fun r e (h : Inv r) he ↦ inv_step h he) es (new b₀) (inv_new b₀) hguarded
  exact sound_of_inv hinv

/-! ## Uninterrupted

Without the other party in between, the two sequences of steps are the operations of the sequential
model. -/

/-- Snapshot and reading of the counter in one go answer what `computeReplay` does. -/
theorem computeReplay_eq_of_uninterrupted (h : r.attach = .start) :
    ∃ snapshot seqno, ((r.step .snapshot).step .readSeqno).attach
        = .labelled snapshot r.covers seqno ∧
      r.pane.computeReplay none = .fullSnapshot snapshot seqno :=
  ⟨r.pane.engine.snapshot, r.pane.currentSeqno, by simp only [step, h], rfl⟩

omit [TerminalBackend B] in
/-- A dispatch without frames leaves the pane as it was. -/
private theorem eq_of_dispatched_nil {p p' : Pane B} {d : DiffResult}
    (h : p.Dispatched d p' []) : p' = p := by
  cases h with
  | same historyTotal => rfl
  | none => rfl

private theorem run_allocate (n : ℕ) : ∀ (r : Race B) (target : Pane B) (pushed : Bool)
    (toSend : List ServerMessage) (covers : Coverage),
    r.relay = .dispatching target n pushed toSend covers →
    (r.run (List.replicate n .allocate)).relay = .dispatching target 0 pushed toSend covers ∧
      (r.run (List.replicate n .allocate)).sent = r.sent := by
  induction n with
  | zero => exact fun r target pushed toSend covers h ↦ ⟨h, rfl⟩
  | succ n ih =>
    intro r target pushed toSend covers h
    have hstep : r.step .allocate =
        { r with
          pane := { r.pane with seqnoCounter := r.pane.seqnoCounter + 1 }
          relay := .dispatching target n pushed toSend covers
          numbered := r.numbered ++ [(r.pane.seqnoCounter, covers)] } := by
      simp only [step, h]
    rw [List.replicate_succ, run, Run.exec_cons, ← run, hstep]
    exact ih _ target pushed toSend covers rfl

private theorem run_broadcast : ∀ (frames : List ServerMessage) (r : Race B) (target : Pane B)
    (covers : Coverage), frames ≠ [] → r.relay = .dispatching target 0 true frames covers →
    (r.run (List.replicate frames.length (.broadcast false))).relay = .idle ∧
      (r.run (List.replicate frames.length (.broadcast false))).pane = r.pane ∧
      (r.run (List.replicate frames.length (.broadcast false))).sent = r.sent ++ frames := by
  intro frames
  induction frames with
  | nil => exact fun r target covers h ↦ absurd rfl h
  | cons frame rest ih =>
    intro r target covers _ h
    have hpane := (r.deliver_frame frame false).1
    have hstep : r.step (.broadcast false) =
        { r.deliver frame false with
          relay := if rest = [] then .idle else .dispatching target 0 true rest covers
          sent := r.sent ++ [frame] } := by
      simp only [step, h]
    rw [List.length_cons, List.replicate_succ, run, Run.exec_cons, ← run, hstep]
    by_cases hrest : rest = []
    · subst hrest
      exact ⟨rfl, hpane, rfl⟩
    · simp only [if_neg hrest]
      obtain ⟨h₁, h₂, h₃⟩ := ih
        { r.deliver frame false with
          relay := .dispatching target 0 true rest covers
          sent := r.sent ++ [frame] } target covers hrest rfl
      refine ⟨h₁, h₂.trans hpane, ?_⟩
      rw [h₃, List.append_assoc]
      rfl

/-- The relay's steps in one go are the cycle of the sequential model. -/
theorem run_cycle (h : r.relay = .idle) (b : B) :
    let frames := (r.pane.cycle b).2.frames
    let r' := r.run ([RaceEvent.feed b, .computeDiff]
      ++ List.replicate frames.length RaceEvent.allocate ++ [RaceEvent.push]
      ++ List.replicate frames.length (RaceEvent.broadcast false))
    r'.relay = .idle ∧ r'.pane = (r.pane.cycle b).1 ∧ r'.sent = r.sent ++ frames := by
  intro frames r'
  set fedPane : Pane B := { r.pane with engine := (r.pane.engine.feed b).computeDiff.1 }
  set out := fedPane.dispatchDiffResult (r.pane.engine.feed b).computeDiff.2
  have hframes : frames = out.2.frames := rfl
  have hcycle : (r.pane.cycle b).1 = out.1 := rfl
  set computed : Race B :=
    { r with
      pane := fedPane
      fed := r.fed + 1
      relay := if out.2.frames = [] then .idle
        else .dispatching out.1 out.2.frames.length false out.2.frames
          ⟨r.fed + 1, fedPane.engine.mirror.historyTotal⟩ }
  have hprefix : r.run [.feed b, .computeDiff] = computed := by
    rw [run, Run.exec_cons, Run.exec_cons, Run.exec_nil]
    simp only [step, h]
    rfl
  -- feed and diff, then the numbers, the push, and the broadcasts
  have hsplit : r' = ((computed.run (List.replicate frames.length .allocate)).run [.push]).run
      (List.replicate frames.length (.broadcast false)) := by
    change Run.exec step r _ = _
    rw [run] at hprefix
    rw [Run.exec_append, Run.exec_append, Run.exec_append, hprefix]
    rfl
  rw [hsplit, hcycle]
  by_cases hnone : out.2.frames = []
  · have hpane : out.1 = fedPane := eq_of_dispatched_nil (hnone ▸ fedPane.dispatched _)
    have hidle : computed.relay = .idle := if_pos hnone
    have hpush : computed.run [.push] = computed := by
      rw [run, Run.exec_cons, Run.exec_nil]
      simp only [step, hidle]
    rw [hframes, hnone, List.length_nil, List.replicate_zero, List.replicate_zero]
    change ((computed.run [.push]).run []).relay = _ ∧ ((computed.run [.push]).run []).pane = _ ∧
      ((computed.run [.push]).run []).sent = _
    rw [hpush, List.append_nil, hpane]
    exact ⟨hidle, rfl, rfl⟩
  · have hrelay : computed.relay = .dispatching out.1 frames.length false frames
        ⟨r.fed + 1, fedPane.engine.mirror.historyTotal⟩ := if_neg hnone
    obtain ⟨halloc, hsent⟩ := run_allocate _ computed _ _ _ _ hrelay
    set drawn := computed.run (List.replicate frames.length .allocate)
    have hpush : drawn.run [.push] = { drawn with
        pane := out.1
        relay := .dispatching out.1 0 true frames
          ⟨r.fed + 1, fedPane.engine.mirror.historyTotal⟩ } := by
      rw [run, Run.exec_cons, Run.exec_nil]
      simp only [step, halloc]
    rw [hpush]
    obtain ⟨h₁, h₂, h₃⟩ := run_broadcast frames { drawn with
        pane := out.1
        relay := .dispatching out.1 0 true frames
          ⟨r.fed + 1, fedPane.engine.mirror.historyTotal⟩ } _ _ hnone rfl
    exact ⟨h₁, h₂, h₃.trans (by rw [hsent])⟩

end Race

/-! ## Two interleavings -/

/-- A letter appears on a blank screen. -/
def letterFeed : RaceEvent MockBackend := .feed { MockBackend.new 1 1 with cells := [letterA] }

/-- The whole attach falls between the feed and the diff. -/
theorem label_sound_of_early_attach :
    let es := [letterFeed, .snapshot, .readSeqno, .insert, .computeDiff, .allocate, .push,
      .broadcast false]
    Run.Ok Race.step Race.Guarded (Race.new (MockBackend.new 1 1)) es ∧
      ((Race.new (MockBackend.new 1 1)).run es).Sound := by
  intro es
  have hguarded : Run.Ok Race.step Race.Guarded (Race.new (MockBackend.new 1 1)) es := by
    decide +kernel
  exact ⟨hguarded, Race.label_sound (MockBackend.new 1 1) es hguarded⟩

/-- The snapshot is taken before the letter is fed and labelled after its frame was numbered; the
frame is broadcast before the client is in the map. It is labelled as covered, it is not in the
snapshot, and it is never delivered. -/
def lateLabel : Race MockBackend :=
  (Race.new (MockBackend.new 1 1)).run [.snapshot, letterFeed, .computeDiff, .allocate, .readSeqno,
    .push, .broadcast false, .insert]

theorem not_label_sound_of_late_label :
    lateLabel.attach = .inserted (DiffEngine.new (MockBackend.new 1 1)).snapshot ⟨0, 0⟩ 1 ∧
      lateLabel.received = [] ∧ ¬lateLabel.Sound := by
  have hattach : lateLabel.attach
      = .inserted (DiffEngine.new (MockBackend.new 1 1)).snapshot ⟨0, 0⟩ 1 := by decide +kernel
  have hnumbered : ((1, ⟨1, 0⟩) : SequenceNo × Coverage) ∈ lateLabel.numbered := by decide +kernel
  refine ⟨hattach, by decide +kernel, fun hsound ↦ ?_⟩
  have hcovered : Coverage.Within ⟨1, 0⟩ ⟨0, 0⟩ :=
    (hsound.inserted _ _ _ hattach).reflected _ hnumbered le_rfl
  exact absurd hcovered (by decide)

end Kmux
