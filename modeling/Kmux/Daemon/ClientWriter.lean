import Kmux.Daemon.Recover
import Kmux.Lib.Run
import Kmux.Protocol.Codec
import Mathlib.Algebra.GroupWithZero.Nat

/-!
# The writer of a connection

Everything a connection sends goes through one queue and one task, which takes what is queued in
batches, writes each message as a frame of its own and flushes once. Meanwhile authentication turns
compression on, a watchdog checks two deadlines, and the peer may stop reading or go away in the
middle of a frame.

`ClientConnection` is what these tasks share, beside a record of what has happened: which messages
were queued, and when the pings went out that no frame has come after. The two results are
statements about this record. What is on the wire is a beginning of what was queued, as whole frames
and at most one that is cut; and the watchdog goes by the pings on the wire, not by those queued.
-/

namespace Kmux

/-- The most messages that one flush takes. -/
def maxWriteBatch : ℕ := 256

/-- How long a connection may take to authenticate. -/
def authDeadline : ℕ := seconds 30

/-- How long a client may leave a ping unanswered. -/
def clientPongDeadline : ℕ := seconds 30

/-- Why a connection was closed. -/
inductive CloseReason
  | outboundOverflow
  | writeTimeout
  | writeFailed
  | authDeadline
  | pongDeadline
  deriving DecidableEq, Repr

/-! ## Liveness -/

inductive Verdict
  | keep
  | close (reason : CloseReason)
  deriving DecidableEq, Repr

def authVerdict (connectedAt : ℕ) (authenticated : Bool) (now deadline : ℕ) : Verdict :=
  if authenticated ∨ now - connectedAt ≤ deadline then .keep else .close .authDeadline

def pongVerdict (unansweredSince : Option ℕ) (now deadline : ℕ) : Verdict :=
  match unansweredSince with
  | some sent => if deadline < now - sent then .close .pongDeadline else .keep
  | none => .keep

structure Liveness where
  connectedAt : ℕ
  authenticated : Bool
  /-- When the oldest ping sent since the last inbound frame went out. -/
  unansweredSince : Option ℕ
  deriving DecidableEq, Repr

namespace Liveness

def onInbound (l : Liveness) : Liveness := { l with unansweredSince := none }

def onAuthenticated (l : Liveness) : Liveness := { l with authenticated := true }

/-- Only the oldest unanswered ping counts. -/
def onPingSent (l : Liveness) (now : ℕ) : Liveness :=
  { l with unansweredSince := some (l.unansweredSince.getD now) }

def verdict (l : Liveness) (now : ℕ) : Verdict :=
  match authVerdict l.connectedAt l.authenticated now authDeadline with
  | .keep => pongVerdict l.unansweredSince now clientPongDeadline
  | .close reason => .close reason

end Liveness

/-! ## The connection -/

/-- The policy of a connection: off until the daemon has decided. -/
structure OutboundCompression where
  enabled : Bool
  level : Int
  minSize : ℕ
  deriving DecidableEq, Repr

def OutboundCompression.compressor (comp : OutboundCompression) : Compressor :=
  if comp.enabled then .zstd comp.level comp.minSize else .off

structure ConnectionMetrics where
  bytesOut : ℕ := 0
  bytesOutUncompressed : ℕ := 0
  msgsOut : ℕ := 0
  deriving DecidableEq, Repr

/-- The messages of the protocol, as the writer looks at them. -/
structure MessageCodec (M : Type) where
  encodeServer : M → Option (List UInt8)
  isPing : M → Bool

/-- The tasks of a connection, and what has happened so far. -/
structure ClientConnection (M : Type) where
  queue : List M
  /-- The messages taken off the queue that are not written yet. -/
  batch : List M
  /-- A batch was taken that has not been flushed. -/
  writing : Bool
  /-- The writer has ended. -/
  ended : Bool
  /-- The bytes handed to the transport. -/
  wire : List UInt8
  comp : OutboundCompression
  metrics : ConnectionMetrics
  liveness : Liveness
  closed : Option CloseReason
  now : ℕ
  /-- The messages that were queued. -/
  sent : List M
  /-- When the pings were written that no frame has come after. -/
  unanswered : List ℕ

/-- How a write or a flush goes. One that does not finish leaves some of its bytes. -/
inductive WriteOutcome
  | done
  | failed (written : ℕ)
  | timedOut (written : ℕ)
  deriving DecidableEq, Repr

inductive ConnectionEvent (M : Type)
  /-- Time passes. -/
  | elapse (nanos : ℕ)
  | send (msg : M)
  | setEnabled (on : Bool)
  /-- The writer takes a batch, of one message and up to so many that were there too. -/
  | recv (more : ℕ)
  | write (outcome : WriteOutcome)
  | flush (outcome : WriteOutcome)
  /-- The task is aborted, which may be in the middle of a frame. -/
  | abort (written : ℕ)
  | inbound
  | authenticated
  | tick
  /-- Another task closes the connection. -/
  | close (reason : CloseReason)

namespace ClientConnection

variable {M : Type} (z : Zstd) (codec : MessageCodec M)

def new (comp : OutboundCompression) (now : ℕ) : ClientConnection M where
  queue := []
  batch := []
  writing := false
  ended := false
  wire := []
  comp := { comp with enabled := false }
  metrics := {}
  liveness := ⟨now, false, none⟩
  closed := none
  now := now
  sent := []
  unanswered := []

/-- `Closer::close`: the first reason wins. -/
def close (c : ClientConnection M) (reason : CloseReason) : ClientConnection M :=
  { c with closed := some (c.closed.getD reason) }

/-- The writer ends, with what of a frame it had written. -/
def stop (c : ClientConnection M) (torn : List UInt8) : ClientConnection M :=
  { c with batch := [], writing := false, ended := true, wire := c.wire ++ torn }

/-- What of a frame is written when its write does not finish. -/
def torn (frame : List UInt8) (written : ℕ) : List UInt8 := frame.dropLast.take written

/-- One message of `write_batch`. A message that does not encode is left out. -/
def writeNext (c : ClientConnection M) (outcome : WriteOutcome) : ClientConnection M :=
  match c.batch with
  | [] => c
  | msg :: rest =>
    match codec.encodeServer msg with
    | none => { c with batch := rest }
    | some bytes =>
      match writeFrameCompressedInto z [] bytes c.comp.compressor with
      | .error _ => (c.stop []).close .writeFailed
      | .ok (frame, wireLen) =>
        match outcome with
        | .failed written => (c.stop (torn frame written)).close .writeFailed
        | .timedOut written => (c.stop (torn frame written)).close .writeTimeout
        | .done =>
          { c with
            batch := rest
            wire := c.wire ++ frame
            liveness := if codec.isPing msg then c.liveness.onPingSent c.now else c.liveness
            unanswered := if codec.isPing msg then c.unanswered ++ [c.now] else c.unanswered
            metrics :=
              { bytesOut := c.metrics.bytesOut + wireLen
                bytesOutUncompressed := c.metrics.bytesOutUncompressed + (5 + bytes.length)
                msgsOut := c.metrics.msgsOut + 1 } }

/-- The part of a frame that is on the wire when the writer is aborted. -/
def interrupted (c : ClientConnection M) (written : ℕ) : List UInt8 :=
  match c.batch with
  | [] => []
  | msg :: _ =>
    match codec.encodeServer msg with
    | none => []
    | some bytes =>
      match writeFrameCompressedInto z [] bytes c.comp.compressor with
      | .error _ => []
      | .ok (frame, _) => torn frame written

def step (c : ClientConnection M) : ConnectionEvent M → ClientConnection M
  | .elapse nanos => { c with now := c.now + nanos }
  | .send msg =>
    if c.ended then c else { c with queue := c.queue ++ [msg], sent := c.sent ++ [msg] }
  | .setEnabled on => { c with comp := { c.comp with enabled := on } }
  | .recv more =>
    if c.ended ∨ c.writing ∨ c.queue = [] then c
    else
      let taken := 1 + min more (maxWriteBatch - 1)
      { c with batch := c.queue.take taken, queue := c.queue.drop taken, writing := true }
  | .write outcome => if c.ended then c else writeNext z codec c outcome
  | .flush outcome =>
    if c.ended ∨ ¬ c.writing ∨ c.batch ≠ [] then c
    else
      match outcome with
      | .done => { c with writing := false }
      | .failed _ => (c.stop []).close .writeFailed
      | .timedOut _ => (c.stop []).close .writeTimeout
  | .abort written => if c.ended then c else c.stop (c.interrupted z codec written)
  | .inbound => { c with liveness := c.liveness.onInbound, unanswered := [] }
  | .authenticated => { c with liveness := c.liveness.onAuthenticated }
  | .tick =>
    match c.liveness.verdict c.now with
    | .keep => c
    | .close reason => c.close reason
  | .close reason => c.close reason

def run (comp : OutboundCompression) (start : ℕ) (es : List (ConnectionEvent M)) :
    ClientConnection M :=
  Run.exec (step z codec) (new comp start) es

end ClientConnection

/-! ## Frames that are cut -/

/-- A frame as a write puts it on the wire: its bytes, what it reads back as, and what it counts. -/
structure WrittenFrame (z : Zstd) (bytes frame : List UInt8) (wireLen : ℕ) : Prop where
  isFrame : (frameReader z).IsFrame frame bytes
  length : frame.length = wireLen
  tagged : ∃ tag payload, payload.length < maxFrameSize ∧ frame = Kmux.frame tag payload

theorem length_frame (tag : UInt8) (payload : List UInt8) :
    (frame tag payload).length = 4 + (payload.length + 1) := by
  rw [frame, List.length_append, List.length_cons]
  rfl

theorem writtenFrame_of_ok {z : Zstd} (hz : z.Undoes) {bytes w : List UInt8} {wireLen : ℕ}
    {comp : Compressor} (hbytes : bytes.length ≤ maxDecompressedSize)
    (h : writeFrameCompressedInto z [] bytes comp = .ok (w, wireLen)) :
    WrittenFrame z bytes w wireLen := by
  have hinto : (FrameWrite.mk bytes (.compressed comp)).into z [] = .ok w := by
    simp only [FrameWrite.into, h]
    rfl
  obtain ⟨bs, rfl, hbs⟩ :=
    FrameWrite.isFrame_of_into hz (FrameWrite.not_overlong_of_le hbytes) hinto
  have htagged : ∀ {tag : UInt8} {payload : List UInt8},
      writeTaggedInto [] tag payload = .ok (w, wireLen) →
      w.length = wireLen ∧ ∃ tag payload, payload.length < maxFrameSize ∧
        w = frame tag payload := by
    intro tag payload ht
    by_cases hp : payload.length < maxFrameSize
    · rw [writeTaggedInto_of_le [] tag hp, List.nil_append] at ht
      obtain ⟨rfl, rfl⟩ := Prod.mk.inj (Except.ok.inj ht)
      exact ⟨length_frame tag payload, tag, payload, hp, rfl⟩
    · rw [writeTaggedInto_of_lt [] tag (Nat.not_lt.mp hp)] at ht
      cases ht
  have hwritten : w.length = wireLen ∧ ∃ tag payload, payload.length < maxFrameSize ∧
      w = frame tag payload := by
    rcases comp with _ | ⟨level, minSize⟩
    · exact htagged h
    · rw [writeFrameCompressedInto] at h
      by_cases hmin : minSize ≤ bytes.length
      · rw [if_pos hmin] at h
        rcases hc : z.compress level bytes with e | c
        · rw [hc] at h
          cases h
        · rw [hc] at h
          dsimp only at h
          split_ifs at h
          · exact htagged h
          · exact htagged h
      · rw [if_neg hmin] at h
        exact htagged h
  exact ⟨hbs, hwritten.1, hwritten.2⟩

/-- What was written of a frame that was cut reads as the end of the stream or as an error, never as
a frame. -/
theorem readFrame_torn {z : Zstd} {tag : UInt8} {payload : List UInt8}
    (hpayload : payload.length < maxFrameSize) (written : ℕ) :
    readFrame z (ClientConnection.torn (frame tag payload) written) = .ok none ∨
      readFrame z (ClientConnection.torn (frame tag payload) written) = .error .io := by
  have htorn : ClientConnection.torn (frame tag payload) written =
      (frame tag payload).take (min written (payload.length + 4)) := by
    have hlast : 4 + (payload.length + 1) - 1 = payload.length + 4 := by omega
    rw [ClientConnection.torn, List.dropLast_eq_take, List.take_take, length_frame, hlast]
  rw [htorn]
  have hlen : payload.length + 1 < 0x100000000 := Nat.lt_of_le_of_lt hpayload (by decide)
  rcases Nat.lt_or_ge (min written (payload.length + 4)) 5 with hshort | hlong
  · left
    rcases hcut : min written (payload.length + 4) with _ | _ | _ | _ | _ | n
    · rfl
    · rfl
    · rfl
    · rfl
    · rfl
    · omega
  · right
    obtain ⟨n, hn⟩ := Nat.exists_eq_add_of_le' hlong
    have hn' : n < payload.length := by omega
    have htake : (frame tag payload).take (n + 5) =
        toBeBytes (payload.length + 1) ++ tag :: payload.take n := rfl
    have hio : (payload.take n).length < payload.length := by
      rw [List.length_take]
      omega
    rw [hn, htake]
    simp only [toBeBytes, List.cons_append, List.nil_append, readFrame, fromBeBytes_toBeBytes hlen,
      Nat.add_sub_cancel]
    rw [if_neg (Nat.not_lt.mpr hpayload), if_neg (Nat.succ_ne_zero _), if_pos hio]

/-! ## What is on the wire -/

section Wire

variable {M : Type} {z : Zstd} {codec : MessageCodec M} {c : ClientConnection M}
  {handled : List M} {whole : List UInt8} {metrics : ConnectionMetrics}

/-- The messages that were handled, as whole frames of those that encode, and counted. -/
structure Posted (z : Zstd) (codec : MessageCodec M) (handled : List M) (whole : List UInt8)
    (metrics : ConnectionMetrics) : Prop where
  frames : ∃ ws : List (List UInt8 × List UInt8), whole = (ws.map Prod.fst).flatten ∧
    ws.map Prod.snd = handled.filterMap codec.encodeServer ∧
    ∀ w ∈ ws, (frameReader z).IsFrame w.1 w.2
  bytesOut : metrics.bytesOut = whole.length
  bytesOutUncompressed : metrics.bytesOutUncompressed =
    ((handled.filterMap codec.encodeServer).map fun bytes ↦ 5 + bytes.length).sum
  msgsOut : metrics.msgsOut = (handled.filterMap codec.encodeServer).length

theorem posted_nil : Posted z codec [] [] {} :=
  ⟨⟨[], rfl, rfl, nofun⟩, rfl, rfl, rfl⟩

theorem Posted.skip (h : Posted z codec handled whole metrics) {msg : M}
    (hmsg : codec.encodeServer msg = none) :
    Posted z codec (handled ++ [msg]) whole metrics := by
  have hsame : (handled ++ [msg]).filterMap codec.encodeServer =
      handled.filterMap codec.encodeServer := by
    rw [List.filterMap_append, List.filterMap_cons_none hmsg, List.filterMap_nil, List.append_nil]
  obtain ⟨hframes, hbytes, hplain, hmsgs⟩ := h
  rw [← hsame] at hframes hplain hmsgs
  exact ⟨hframes, hbytes, hplain, hmsgs⟩

theorem Posted.write (h : Posted z codec handled whole metrics) {msg : M}
    {bytes frame : List UInt8} {wireLen : ℕ} (hmsg : codec.encodeServer msg = some bytes)
    (hframe : WrittenFrame z bytes frame wireLen) :
    Posted z codec (handled ++ [msg]) (whole ++ frame)
      { bytesOut := metrics.bytesOut + wireLen
        bytesOutUncompressed := metrics.bytesOutUncompressed + (5 + bytes.length)
        msgsOut := metrics.msgsOut + 1 } := by
  have hmore : (handled ++ [msg]).filterMap codec.encodeServer =
      handled.filterMap codec.encodeServer ++ [bytes] := by
    rw [List.filterMap_append, List.filterMap_cons_some hmsg, List.filterMap_nil]
  obtain ⟨⟨ws, hwhole, hpayloads, hws⟩, hbytes, hplain, hmsgs⟩ := h
  refine ⟨⟨ws ++ [(frame, bytes)], ?_, ?_, fun w hw ↦ ?_⟩, ?_, ?_, ?_⟩
  · rw [List.map_append, List.flatten_append, hwhole, List.map_singleton, List.flatten_singleton]
  · rw [List.map_append, hpayloads, List.map_singleton, hmore]
  · rcases List.mem_append.mp hw with hw | hw
    · exact hws w hw
    · rw [List.mem_singleton.mp hw]
      exact hframe.isFrame
  · rw [List.length_append, hframe.length, hbytes]
  · rw [hmore, List.map_append, List.sum_append, hplain]
    rfl
  · rw [hmore, List.length_append, hmsgs]
    rfl

/-- What reads as no frame. -/
def Unreadable (z : Zstd) (torn : List UInt8) : Prop :=
  readFrame z torn = .ok none ∨ readFrame z torn = .error .io

/-- The record against the wire. -/
structure ClientConnection.OnWire (z : Zstd) (codec : MessageCodec M) (c : ClientConnection M)
    (handled : List M) (whole torn : List UInt8) : Prop where
  wire : c.wire = whole ++ torn
  posted : Posted z codec handled whole c.metrics
  handled_prefix : handled <+: c.sent
  /-- While the writer runs, every message is on the wire or on its way. -/
  running : c.ended = false → handled ++ (c.batch ++ c.queue) = c.sent ∧ torn = []
  torn : Unreadable z torn

/-- A message that is not too large for its frame. -/
def MessageCodec.Fits (codec : MessageCodec M) (msg : M) : Prop :=
  ∀ bytes, codec.encodeServer msg = some bytes → bytes.length ≤ maxDecompressedSize

structure ClientConnection.Inv (z : Zstd) (codec : MessageCodec M) (c : ClientConnection M) :
    Prop where
  fits : ∀ msg ∈ c.sent, codec.Fits msg
  idle : c.writing = false → c.batch = []
  onWire : ∃ handled whole torn, c.OnWire z codec handled whole torn

namespace ClientConnection

theorem unreadable_nil : Unreadable z [] := Or.inl rfl

theorem inv_new (comp : OutboundCompression) (start : ℕ) :
    (new comp start : ClientConnection M).Inv z codec :=
  ⟨nofun, fun _ ↦ rfl, [], [], [], rfl, posted_nil, List.nil_prefix, fun _ ↦ ⟨rfl, rfl⟩,
    unreadable_nil⟩

/-- The writer ends: what was on its way is lost, and the frame it was writing is cut. -/
theorem OnWire.stop {torn torn' : List UInt8} (h : c.OnWire z codec handled whole torn)
    (hrunning : c.ended = false) (htorn' : Unreadable z torn') :
    (c.stop torn').OnWire z codec handled whole torn' := by
  obtain ⟨-, rfl⟩ := h.running hrunning
  refine ⟨?_, h.posted, h.handled_prefix, nofun, htorn'⟩
  rw [ClientConnection.stop, h.wire, List.append_nil]

theorem OnWire.close {torn : List UInt8} (h : c.OnWire z codec handled whole torn)
    (reason : CloseReason) : (c.close reason).OnWire z codec handled whole torn :=
  ⟨h.wire, h.posted, h.handled_prefix, h.running, h.torn⟩

/-- The next message and its frame, as far as they are there. -/
theorem Inv.writtenFrame (hz : z.Undoes) (h : c.Inv z codec) (hrunning : c.ended = false) {msg : M}
    {rest : List M} (hbatch : c.batch = msg :: rest) {bytes frame : List UInt8} {wireLen : ℕ}
    (hmsg : codec.encodeServer msg = some bytes)
    (hframe : writeFrameCompressedInto z [] bytes c.comp.compressor = .ok (frame, wireLen)) :
    WrittenFrame z bytes frame wireLen := by
  obtain ⟨handled, _, _, honWire⟩ := h.onWire
  obtain ⟨hsent, -⟩ := honWire.running hrunning
  have hmem : msg ∈ c.sent := by
    rw [← hsent, hbatch]
    exact List.mem_append_right _ (List.mem_append_left _ List.mem_cons_self)
  exact writtenFrame_of_ok hz (h.fits msg hmem bytes hmsg) hframe

theorem WrittenFrame.unreadable_torn {bytes frame : List UInt8} {wireLen : ℕ}
    (h : WrittenFrame z bytes frame wireLen) (written : ℕ) : Unreadable z (torn frame written) := by
  obtain ⟨tag, payload, hpayload, rfl⟩ := h.tagged
  exact readFrame_torn hpayload written

theorem Inv.writeNext (hz : z.Undoes) (h : c.Inv z codec) (hrunning : c.ended = false)
    (outcome : WriteOutcome) : (writeNext z codec c outcome).Inv z codec := by
  obtain ⟨handled, whole, torn, honWire⟩ := h.onWire
  obtain ⟨hsent, rfl⟩ := honWire.running hrunning
  rw [ClientConnection.writeNext]
  rcases hbatch : c.batch with _ | ⟨msg, rest⟩
  · exact h
  · rw [hbatch] at hsent
    have hidle : c.writing = false → rest = [] := by
      intro hwriting
      cases hbatch.symm.trans (h.idle hwriting)
    have hsent' : handled ++ [msg] ++ (rest ++ c.queue) = c.sent := by
      rw [← hsent, List.append_assoc]
      rfl
    dsimp only
    rcases hmsg : codec.encodeServer msg with _ | bytes
    · exact ⟨h.fits, hidle, handled ++ [msg], whole, [], honWire.wire, honWire.posted.skip hmsg,
        ⟨rest ++ c.queue, hsent'⟩, fun _ ↦ ⟨hsent', rfl⟩, unreadable_nil⟩
    · dsimp only
      rcases hframe : writeFrameCompressedInto z [] bytes c.comp.compressor with
        e | ⟨frame, wireLen⟩
      · exact ⟨h.fits, fun _ ↦ rfl, handled, whole, [],
          (honWire.stop hrunning unreadable_nil).close _⟩
      · have hwritten := h.writtenFrame hz hrunning hbatch hmsg hframe
        match outcome with
        | .failed written =>
          exact ⟨h.fits, fun _ ↦ rfl, handled, whole, _,
            (honWire.stop hrunning (WrittenFrame.unreadable_torn hwritten written)).close _⟩
        | .timedOut written =>
          exact ⟨h.fits, fun _ ↦ rfl, handled, whole, _,
            (honWire.stop hrunning (WrittenFrame.unreadable_torn hwritten written)).close _⟩
        | .done =>
          refine ⟨h.fits, hidle, handled ++ [msg], whole ++ frame, [], ?_,
            honWire.posted.write hmsg hwritten, ⟨rest ++ c.queue, hsent'⟩,
            fun _ ↦ ⟨hsent', rfl⟩, unreadable_nil⟩
          dsimp only
          rw [honWire.wire, List.append_nil, List.append_nil]

/-- What is left of a frame in whose middle the writer is aborted. -/
theorem Inv.unreadable_interrupted (hz : z.Undoes) (h : c.Inv z codec) (hrunning : c.ended = false)
    (written : ℕ) : Unreadable z (c.interrupted z codec written) := by
  rw [interrupted]
  rcases hbatch : c.batch with _ | ⟨msg, rest⟩
  · exact unreadable_nil
  · dsimp only
    rcases hmsg : codec.encodeServer msg with _ | bytes
    · exact unreadable_nil
    · dsimp only
      rcases hframe : writeFrameCompressedInto z [] bytes c.comp.compressor with
        e | ⟨frame, wireLen⟩
      · exact unreadable_nil
      · exact WrittenFrame.unreadable_torn (h.writtenFrame hz hrunning hbatch hmsg hframe) written

theorem Inv.step (hz : z.Undoes) (h : c.Inv z codec) (e : ConnectionEvent M)
    (he : ∀ msg, e = .send msg → codec.Fits msg) : (c.step z codec e).Inv z codec := by
  have hend : ∀ {b : Bool}, ¬ b = true → b = false := Bool.eq_false_of_not_eq_true
  obtain ⟨handled, whole, torn, honWire⟩ := h.onWire
  match e with
  | .elapse nanos =>
    exact ⟨h.fits, h.idle, handled, whole, torn, honWire.wire, honWire.posted,
      honWire.handled_prefix, honWire.running, honWire.torn⟩
  | .setEnabled on =>
    exact ⟨h.fits, h.idle, handled, whole, torn, honWire.wire, honWire.posted,
      honWire.handled_prefix, honWire.running, honWire.torn⟩
  | .inbound =>
    exact ⟨h.fits, h.idle, handled, whole, torn, honWire.wire, honWire.posted,
      honWire.handled_prefix, honWire.running, honWire.torn⟩
  | .authenticated =>
    exact ⟨h.fits, h.idle, handled, whole, torn, honWire.wire, honWire.posted,
      honWire.handled_prefix, honWire.running, honWire.torn⟩
  | .close reason => exact ⟨h.fits, h.idle, handled, whole, torn, honWire.close reason⟩
  | .tick =>
    rw [ClientConnection.step]
    split
    · exact h
    · exact ⟨h.fits, h.idle, handled, whole, torn, honWire.close _⟩
  | .send msg =>
    rw [ClientConnection.step]
    split_ifs with hended
    · exact h
    · refine ⟨fun m hm ↦ ?_, h.idle, handled, whole, torn, honWire.wire, honWire.posted,
        honWire.handled_prefix.trans (List.prefix_append _ _), fun hrunning ↦ ⟨?_, ?_⟩,
        honWire.torn⟩
      · rcases List.mem_append.mp hm with hm | hm
        · exact h.fits m hm
        · rw [List.mem_singleton.mp hm]
          exact he msg rfl
      · dsimp only
        rw [← (honWire.running (hend hended)).1, List.append_assoc, List.append_assoc]
      · exact (honWire.running (hend hended)).2
  | .recv more =>
    rw [ClientConnection.step]
    split_ifs with hwait
    · exact h
    · refine ⟨h.fits, nofun, handled, whole, torn, honWire.wire, honWire.posted,
        honWire.handled_prefix, fun hrunning ↦ ⟨?_, (honWire.running hrunning).2⟩, honWire.torn⟩
      -- the batch before it is written
      have hempty : c.batch = [] := h.idle (hend fun hw ↦ hwait (Or.inr (Or.inl hw)))
      dsimp only
      rw [List.take_append_drop, ← (honWire.running hrunning).1, hempty, List.nil_append]
  | .write outcome =>
    rw [ClientConnection.step]
    split_ifs with hended
    · exact h
    · exact h.writeNext hz (hend hended) outcome
  | .flush outcome =>
    rw [ClientConnection.step.eq_def]
    dsimp only
    split_ifs with hwait
    · exact h
    · have hrunning : c.ended = false := hend fun hended ↦ hwait (Or.inl hended)
      match outcome with
      | .done =>
        have hempty : c.batch = [] :=
          Classical.byContradiction fun hne ↦ hwait (Or.inr (Or.inr hne))
        exact ⟨h.fits, fun _ ↦ hempty, handled, whole, torn, honWire.wire, honWire.posted,
          honWire.handled_prefix, honWire.running, honWire.torn⟩
      | .failed _ =>
        exact ⟨h.fits, fun _ ↦ rfl, handled, whole, [],
          (honWire.stop hrunning unreadable_nil).close _⟩
      | .timedOut _ =>
        exact ⟨h.fits, fun _ ↦ rfl, handled, whole, [],
          (honWire.stop hrunning unreadable_nil).close _⟩
  | .abort written =>
    rw [ClientConnection.step]
    split_ifs with hended
    · exact h
    · exact ⟨h.fits, fun _ ↦ rfl, handled, whole, _,
        honWire.stop (hend hended) (h.unreadable_interrupted hz (hend hended) written)⟩

theorem inv_run (hz : z.Undoes) (comp : OutboundCompression) (start : ℕ)
    {es : List (ConnectionEvent M)} (hfits : ∀ msg, .send msg ∈ es → codec.Fits msg) :
    (run z codec comp start es).Inv z codec := by
  have hstep : ∀ (c : ClientConnection M) (e : ConnectionEvent M), c.Inv z codec →
      (∀ msg, e = .send msg → codec.Fits msg) → (c.step z codec e).Inv z codec :=
    fun _ e h he ↦ h.step hz e he
  refine Run.invariant_of_ok hstep es _ (inv_new comp start) ?_
  refine (Run.ok_iff_forall _ _).mpr fun n e he msg hmsg ↦ hfits msg ?_
  rw [← hmsg]
  exact List.mem_of_getElem? he

/-- The wire has the frames of the first messages that were queued, each one whole, in order and
once, and after them at most a cut frame, which no reader takes for a message. Nothing is cut while
the writer runs, and when it has nothing left to write, everything queued is on the wire. The
counters count the whole frames. -/
def InOrder (z : Zstd) (codec : MessageCodec M) (c : ClientConnection M) : Prop :=
  ∃ handled whole torn, c.wire = whole ++ torn ∧ handled <+: c.sent ∧
    (frameReader z).readAll whole = .ok (handled.filterMap codec.encodeServer) ∧
    Unreadable z torn ∧ (c.ended = false → torn = []) ∧
    (c.ended = false → c.batch = [] → c.queue = [] → handled = c.sent) ∧
    c.metrics.bytesOut = whole.length ∧
    c.metrics.msgsOut = (handled.filterMap codec.encodeServer).length ∧
    c.metrics.bytesOutUncompressed =
      ((handled.filterMap codec.encodeServer).map fun bytes ↦ 5 + bytes.length).sum

end ClientConnection

end Wire

/-! ## What the watchdog goes by -/

namespace ClientConnection

section Watchdog

variable {M : Type} {z : Zstd} {codec : MessageCodec M} {c : ClientConnection M} {start : ℕ}

/-- The pong clock against the pings that went out. -/
structure Clock (start : ℕ) (c : ClientConnection M) : Prop where
  connectedAt : c.liveness.connectedAt = start
  oldest : c.liveness.unansweredSince = c.unanswered.head?
  sorted : c.unanswered.Pairwise (· ≤ ·)
  past : ∀ t ∈ c.unanswered, t ≤ c.now

theorem Clock.of_eq {c' : ClientConnection M} (h : c.Clock start)
    (hliveness : c'.liveness = c.liveness) (hunanswered : c'.unanswered = c.unanswered)
    (hnow : c.now ≤ c'.now) : c'.Clock start := by
  refine ⟨?_, ?_, ?_, fun t ht ↦ ?_⟩
  · rw [hliveness, h.connectedAt]
  · rw [hliveness, hunanswered, h.oldest]
  · rw [hunanswered]
    exact h.sorted
  · rw [hunanswered] at ht
    exact (h.past t ht).trans hnow

/-- What the writer does to the pong clock: at most that a ping went out now. -/
theorem writeNext_clock (c : ClientConnection M) (outcome : WriteOutcome) :
    (writeNext z codec c outcome).now = c.now ∧
      ((writeNext z codec c outcome).liveness = c.liveness ∧
          (writeNext z codec c outcome).unanswered = c.unanswered ∨
        (writeNext z codec c outcome).liveness = c.liveness.onPingSent c.now ∧
          (writeNext z codec c outcome).unanswered = c.unanswered ++ [c.now]) := by
  rw [writeNext]
  rcases c.batch with _ | ⟨msg, rest⟩
  · exact ⟨rfl, Or.inl ⟨rfl, rfl⟩⟩
  · dsimp only
    rcases codec.encodeServer msg with _ | bytes
    · exact ⟨rfl, Or.inl ⟨rfl, rfl⟩⟩
    · dsimp only
      rcases writeFrameCompressedInto z [] bytes c.comp.compressor with _ | ⟨frame, wireLen⟩
      · exact ⟨rfl, Or.inl ⟨rfl, rfl⟩⟩
      · match outcome with
        | .failed _ => exact ⟨rfl, Or.inl ⟨rfl, rfl⟩⟩
        | .timedOut _ => exact ⟨rfl, Or.inl ⟨rfl, rfl⟩⟩
        | .done =>
          dsimp only
          split_ifs
          · exact ⟨rfl, Or.inr ⟨rfl, rfl⟩⟩
          · exact ⟨rfl, Or.inl ⟨rfl, rfl⟩⟩

theorem Clock.ping (h : c.Clock start) {c' : ClientConnection M}
    (hliveness : c'.liveness = c.liveness.onPingSent c.now)
    (hunanswered : c'.unanswered = c.unanswered ++ [c.now]) (hnow : c'.now = c.now) :
    c'.Clock start := by
  refine ⟨?_, ?_, ?_, fun t ht ↦ ?_⟩
  · rw [hliveness]
    exact h.connectedAt
  · rw [hliveness, hunanswered, Liveness.onPingSent, h.oldest]
    rcases c.unanswered with _ | ⟨t, ts⟩
    · rfl
    · rfl
  · rw [hunanswered]
    refine List.pairwise_append.mpr ⟨h.sorted, List.pairwise_singleton _ _, fun t ht t' ht' ↦ ?_⟩
    rw [List.mem_singleton.mp ht']
    exact h.past t ht
  · rw [hunanswered] at ht
    rw [hnow]
    rcases List.mem_append.mp ht with ht | ht
    · exact h.past t ht
    · exact Nat.le_of_eq (List.mem_singleton.mp ht)

theorem Clock.step (h : c.Clock start) (e : ConnectionEvent M) :
    (c.step z codec e).Clock start := by
  match e with
  | .elapse nanos => exact h.of_eq rfl rfl (Nat.le_add_right _ _)
  | .setEnabled _ => exact h.of_eq rfl rfl le_rfl
  | .close _ => exact h.of_eq rfl rfl le_rfl
  | .send _ =>
    rw [ClientConnection.step]
    split_ifs
    · exact h
    · exact h.of_eq rfl rfl le_rfl
  | .recv _ =>
    rw [ClientConnection.step]
    split_ifs
    · exact h
    · exact h.of_eq rfl rfl le_rfl
  | .write outcome =>
    rw [ClientConnection.step]
    split_ifs
    · exact h
    · obtain ⟨hnow, ⟨hliveness, hunanswered⟩ | ⟨hliveness, hunanswered⟩⟩ :=
        @writeNext_clock M z codec c outcome
      · exact h.of_eq hliveness hunanswered (Nat.le_of_eq hnow.symm)
      · exact h.ping hliveness hunanswered hnow
  | .flush outcome =>
    rw [ClientConnection.step.eq_def]
    dsimp only
    split_ifs
    · exact h
    · match outcome with
      | .done => exact h.of_eq rfl rfl le_rfl
      | .failed _ => exact h.of_eq rfl rfl le_rfl
      | .timedOut _ => exact h.of_eq rfl rfl le_rfl
  | .abort _ =>
    rw [ClientConnection.step]
    split_ifs
    · exact h
    · exact h.of_eq rfl rfl le_rfl
  | .inbound => exact ⟨h.connectedAt, rfl, List.Pairwise.nil, nofun⟩
  | .authenticated => exact ⟨h.connectedAt, h.oldest, h.sorted, h.past⟩
  | .tick =>
    rw [ClientConnection.step]
    split
    · exact h
    · exact h.of_eq rfl rfl le_rfl

theorem clock_run (comp : OutboundCompression) (start : ℕ) (es : List (ConnectionEvent M)) :
    (run z codec comp start es).Clock start :=
  Run.invariant (fun _ e h ↦ h.step e) es _ ⟨rfl, rfl, List.Pairwise.nil, nofun⟩

/-- **The watchdog's verdict.** In every run, a check closes the connection for its authentication
exactly when it has not authenticated and is past the deadline, and for its silence exactly when
that is not so and some ping has been on the wire for longer than the deadline with no frame since.
However long pings have been queued does not count. -/
theorem watchdog_verdict (comp : OutboundCompression) (start : ℕ)
    (es : List (ConnectionEvent M)) :
    let c := run z codec comp start es
    let late := c.liveness.authenticated = false ∧ authDeadline < c.now - start
    (c.liveness.verdict c.now = .close .authDeadline ↔ late) ∧
      (c.liveness.verdict c.now = .close .pongDeadline ↔
        ¬ late ∧ ∃ t ∈ c.unanswered, clientPongDeadline < c.now - t) := by
  intro c late
  have h : c.Clock start := clock_run comp start es
  have hpong : pongVerdict c.liveness.unansweredSince c.now clientPongDeadline =
      if ∃ t ∈ c.unanswered, clientPongDeadline < c.now - t then .close .pongDeadline
      else .keep := by
    have hsorted := h.sorted
    rw [h.oldest]
    generalize c.unanswered = pings at hsorted ⊢
    rcases pings with _ | ⟨t, ts⟩
    · rw [if_neg (by rintro ⟨_, ht, _⟩; exact absurd ht List.not_mem_nil)]
      rfl
    · rw [List.head?_cons, pongVerdict]
      refine if_congr ⟨fun hdue ↦ ⟨t, List.mem_cons_self, hdue⟩, ?_⟩ rfl rfl
      -- a later ping is due only when the oldest is
      rintro ⟨t', ht', hdue⟩
      rcases List.mem_cons.mp ht' with rfl | ht'
      · exact hdue
      · have hle := List.rel_of_pairwise_cons hsorted ht'
        omega
  rw [Liveness.verdict, authVerdict, h.connectedAt]
  by_cases hlate : late
  · have hnot : ¬ (c.liveness.authenticated = true ∨ c.now - start ≤ authDeadline) := by
      rintro (hauth | hin)
      · rw [hlate.1] at hauth
        cases hauth
      · exact absurd hlate.2 (Nat.not_lt.mpr hin)
    rw [if_neg hnot]
    exact ⟨iff_of_true rfl hlate, iff_of_false (fun h ↦ by cases h) fun h ↦ h.1 hlate⟩
  · have hin : c.liveness.authenticated = true ∨ c.now - start ≤ authDeadline := by
      rcases hauth : c.liveness.authenticated with _ | _
      · exact Or.inr (Nat.not_lt.mp fun hlt ↦ hlate ⟨hauth, hlt⟩)
      · exact Or.inl rfl
    rw [if_pos hin]
    dsimp only
    rw [hpong]
    split_ifs with hdue
    · exact ⟨iff_of_false (fun h ↦ by cases h) hlate, iff_of_true rfl ⟨hlate, hdue⟩⟩
    · exact ⟨iff_of_false (fun h ↦ by cases h) hlate,
        iff_of_false (fun h ↦ by cases h) fun h ↦ hdue h.2⟩

end Watchdog

end ClientConnection

end Kmux
