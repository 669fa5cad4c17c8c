import Kmux.Lib.Framing
import Mathlib.Data.List.Basic

/-!
# The frame codec

A frame is a four-byte big-endian length, a tag and a payload; the length counts the tag. The reader
goes by the tag alone. There are three writers, all of which end in `writeTaggedInto`: the plain
one, and the compressing ones, which keep the compressed form only when it is shorter.

The two sides check different sizes. The writers check what they put on the wire, the reader checks
that and what it decompresses to. So a payload over the limit which compresses below it is written
and cannot be read; this is the only way in which the two disagree.

The compressor is a library's and stands here as a parameter.
-/

namespace Kmux

/-! ## Sizes, tags and errors -/

/-- The largest length prefix: the tag and the payload. -/
def maxFrameSize : ℕ := 64 * 1024 * 1024

/-- The largest payload after decompression. -/
def maxDecompressedSize : ℕ := 64 * 1024 * 1024

def frameRaw : UInt8 := 2
def frameZstd : UInt8 := 3
def frameLegacyPostcardRaw : UInt8 := 0
def frameLegacyPostcardZstd : UInt8 := 1

/-- The errors of the framing layer. -/
inductive ProtocolError
  | io
  | frameTooLarge (size max : ℕ)
  | malformedFrame
  | unknownCodec (tag : UInt8)
  | legacyPostcardCodec (tag : UInt8)
  | compress (message : String)
  | decompress (message : String)
  | decompressedTooLarge (size max : ℕ)
  deriving DecidableEq, Repr

/-- The compression library. -/
structure Zstd where
  /-- `zstd::bulk::compress`, at a level. -/
  compress : Int → List UInt8 → Except String (List UInt8)
  /-- A streaming decoder: the bytes it yields, and the failure it meets after them, if any. -/
  decode : List UInt8 → Except String (List UInt8 × Option String)

/-- Decompressing undoes compressing. -/
def Zstd.Undoes (z : Zstd) : Prop :=
  ∀ level data c, z.compress level data = .ok c → z.decode c = .ok (data, none)

/-- The outbound policy of a connection. -/
inductive Compressor
  | off
  | zstd (level : Int) (minSize : ℕ)
  deriving DecidableEq, Repr

/-! ## Length prefixes -/

/-- `u32::to_be_bytes`. -/
def toBeBytes (n : ℕ) : List UInt8 :=
  [.ofNat (n / 0x1000000), .ofNat (n / 0x10000), .ofNat (n / 0x100), .ofNat n]

/-- `u32::from_be_bytes`. -/
def fromBeBytes (b₀ b₁ b₂ b₃ : UInt8) : ℕ :=
  b₀.toNat * 0x1000000 + b₁.toNat * 0x10000 + b₂.toNat * 0x100 + b₃.toNat

theorem fromBeBytes_toBeBytes {n : ℕ} (hn : n < 0x100000000) :
    fromBeBytes (.ofNat (n / 0x1000000)) (.ofNat (n / 0x10000)) (.ofNat (n / 0x100)) (.ofNat n)
      = n := by
  simp only [fromBeBytes, UInt8.toNat_ofNat']
  omega

/-! ## Writing -/

/-- The bytes of one frame. -/
def frame (tag : UInt8) (payload : List UInt8) : List UInt8 :=
  toBeBytes (payload.length + 1) ++ tag :: payload

/-- `write_tagged_into`: what the writer holds afterwards, and how many bytes that added. -/
def writeTaggedInto (w : List UInt8) (tag : UInt8) (payload : List UInt8) :
    Except ProtocolError (List UInt8 × ℕ) :=
  let len := payload.length + 1
  if maxFrameSize < len then .error (.frameTooLarge (min len 0xffffffff) maxFrameSize)
  else .ok (w ++ frame tag payload, 4 + len)

/-- `write_frame`. -/
def writeFrame (w data : List UInt8) : Except ProtocolError (List UInt8) :=
  (writeTaggedInto w frameRaw data).map Prod.fst

/-- `write_frame_compressed_into`. A flush adds nothing, so this is `write_frame_compressed` too. -/
def writeFrameCompressedInto (z : Zstd) (w data : List UInt8) :
    Compressor → Except ProtocolError (List UInt8 × ℕ)
  | .off => writeTaggedInto w frameRaw data
  | .zstd level minSize =>
    if minSize ≤ data.length then
      match z.compress level data with
      | .error e => .error (.compress e)
      | .ok compressed =>
        if compressed.length < data.length then writeTaggedInto w frameZstd compressed
        else writeTaggedInto w frameRaw data
    else writeTaggedInto w frameRaw data

/-! ## Reading -/

/-- `decompress_frame`. -/
def decompressFrame (z : Zstd) (payload : List UInt8) : Except ProtocolError (List UInt8) :=
  match z.decode payload with
  | .error e => .error (.decompress e)
  | .ok (bytes, failure) =>
    let out := bytes.take (maxDecompressedSize + 1)
    -- Past the limit the decoder is not asked for more, and so its failure is not met.
    if maxDecompressedSize < out.length then
      .error (.decompressedTooLarge out.length maxDecompressedSize)
    else
      match failure with
      | some e => .error (.decompress e)
      | none => .ok out

/-- `read_frame`, with what is left of the stream. A stream that ends within a header has ended. -/
def readFrame (z : Zstd) : List UInt8 → Except ProtocolError (Option (List UInt8 × List UInt8))
  | b₀ :: b₁ :: b₂ :: b₃ :: tag :: rest =>
    let len := fromBeBytes b₀ b₁ b₂ b₃
    if maxFrameSize < len then .error (.frameTooLarge len maxFrameSize)
    else if len = 0 then .error .malformedFrame
    else if rest.length < len - 1 then .error .io
    else if tag = frameRaw then .ok (some (rest.take (len - 1), rest.drop (len - 1)))
    else if tag = frameZstd then
      (decompressFrame z (rest.take (len - 1))).map fun out ↦ some (out, rest.drop (len - 1))
    else if tag = frameLegacyPostcardRaw ∨ tag = frameLegacyPostcardZstd then
      .error (.legacyPostcardCodec tag)
    else .error (.unknownCodec tag)
  | _ => .ok none

theorem length_lt_of_readFrame {z : Zstd} {input out rest : List UInt8}
    (h : readFrame z input = .ok (some (out, rest))) : rest.length < input.length := by
  unfold readFrame at h
  split at h
  next b₀ b₁ b₂ b₃ tag tail =>
    have hdrop (n : ℕ) : (tail.drop n).length < (b₀ :: b₁ :: b₂ :: b₃ :: tag :: tail).length := by
      rw [List.length_drop]
      simp only [List.length_cons]
      omega
    simp only at h
    split at h
    · cases h
    split at h
    · cases h
    split at h
    · cases h
    split at h
    · cases h
      exact hdrop _
    split at h
    · rcases hd : decompressFrame z (tail.take (fromBeBytes b₀ b₁ b₂ b₃ - 1)) with e | bytes
      · rw [hd] at h
        cases h
      · rw [hd] at h
        cases h
        exact hdrop _
    split at h
    · cases h
    · cases h
  · cases h

/-- The reader of a connection. -/
def frameReader (z : Zstd) : FrameReader UInt8 (List UInt8) ProtocolError where
  read := readFrame z
  read_nil := rfl
  length_lt := length_lt_of_readFrame

/-! ## What a written frame reads back as -/

theorem writeTaggedInto_of_le (w : List UInt8) (tag : UInt8) {payload : List UInt8}
    (h : payload.length < maxFrameSize) :
    writeTaggedInto w tag payload = .ok (w ++ frame tag payload, 4 + (payload.length + 1)) :=
  if_neg (Nat.not_lt.mpr h)

theorem writeTaggedInto_of_lt (w : List UInt8) (tag : UInt8) {payload : List UInt8}
    (h : maxFrameSize ≤ payload.length) :
    writeTaggedInto w tag payload =
      .error (.frameTooLarge (min (payload.length + 1) 0xffffffff) maxFrameSize) :=
  if_pos (Nat.lt_succ_of_le h)

/-- The reader gets through the header of a frame, and is left with the tag. -/
private theorem readFrame_frame (z : Zstd) (tag : UInt8) {payload : List UInt8}
    (h : payload.length < maxFrameSize) (rest : List UInt8) :
    readFrame z (frame tag payload ++ rest) =
      if tag = frameRaw then .ok (some (payload, rest))
      else if tag = frameZstd then
        (decompressFrame z payload).map fun out ↦ some (out, rest)
      else if tag = frameLegacyPostcardRaw ∨ tag = frameLegacyPostcardZstd then
        .error (.legacyPostcardCodec tag)
      else .error (.unknownCodec tag) := by
  have hlen : payload.length + 1 < 0x100000000 :=
    Nat.lt_of_le_of_lt h (by decide)
  have hfits : ¬ (payload ++ rest).length < payload.length := by
    rw [List.length_append]
    omega
  simp only [frame, toBeBytes, List.cons_append, List.nil_append, readFrame,
    fromBeBytes_toBeBytes hlen, Nat.add_sub_cancel]
  rw [if_neg (Nat.not_lt.mpr h), if_neg (Nat.succ_ne_zero _), if_neg hfits, List.take_left,
    List.drop_left]

theorem isFrame_frameRaw (z : Zstd) {payload : List UInt8} (h : payload.length < maxFrameSize) :
    (frameReader z).IsFrame (frame frameRaw payload) payload := by
  intro rest
  exact (readFrame_frame z frameRaw h rest).trans (if_pos rfl)

theorem readFrame_frameZstd (z : Zstd) {payload : List UInt8} (h : payload.length < maxFrameSize)
    (rest : List UInt8) :
    readFrame z (frame frameZstd payload ++ rest) =
      (decompressFrame z payload).map fun out ↦ some (out, rest) := by
  rw [readFrame_frame z frameZstd h rest, if_neg (by decide), if_pos rfl]

variable {z : Zstd}

/-- **Decompression is exact up to the limit** and refused beyond it. -/
theorem decompressFrame_of_undoes (hz : z.Undoes) {level : Int} {data c : List UInt8}
    (hc : z.compress level data = .ok c) :
    decompressFrame z c =
      if maxDecompressedSize < data.length then
        .error (.decompressedTooLarge (maxDecompressedSize + 1) maxDecompressedSize)
      else .ok data := by
  rw [decompressFrame, hz level data c hc]
  simp only
  by_cases h : maxDecompressedSize < data.length
  · have hlen : (data.take (maxDecompressedSize + 1)).length = maxDecompressedSize + 1 := by
      rw [List.length_take, Nat.min_eq_left h]
    rw [if_pos h, hlen, if_pos (Nat.lt_succ_self _)]
  · have htake : data.take (maxDecompressedSize + 1) = data :=
      List.take_of_length_le (Nat.le_succ_of_le (Nat.not_lt.mp h))
    rw [if_neg h, htake, if_neg h]

/-! ## Writes of either kind -/

/-- Which of the writers is used. -/
inductive FrameWriter
  | plain
  | compressed (comp : Compressor)
  deriving DecidableEq, Repr

/-- A payload and how it is written. -/
structure FrameWrite where
  data : List UInt8
  writer : FrameWriter
  deriving DecidableEq, Repr

namespace FrameWrite

/-- Write one payload. -/
def into (z : Zstd) (w : List UInt8) (f : FrameWrite) : Except ProtocolError (List UInt8) :=
  match f.writer with
  | .plain => writeFrame w f.data
  | .compressed comp => (writeFrameCompressedInto z w f.data comp).map Prod.fst

/-- Write a batch, and stop at the first error. -/
def writeAll (z : Zstd) : List UInt8 → List FrameWrite → Except ProtocolError (List UInt8)
  | w, [] => .ok w
  | w, f :: fs =>
    match f.into z w with
    | .error e => .error e
    | .ok w' => writeAll z w' fs

/-- The payload is over the limit and the writer makes a frame of it that is not: compression
applies to it, and brings it below the limit. -/
def Overlong (z : Zstd) (f : FrameWrite) : Prop :=
  maxDecompressedSize < f.data.length ∧ ∃ level minSize c,
    f.writer = .compressed (.zstd level minSize) ∧ minSize ≤ f.data.length ∧
    z.compress level f.data = .ok c ∧ c.length < maxFrameSize

/-- What a write that succeeds puts on the wire: the payload itself, within the frame limit, or its
compressed form, which is within that limit and shorter. -/
theorem into_eq_ok {f : FrameWrite} {w out : List UInt8} (h : f.into z w = .ok out) :
    (f.data.length < maxFrameSize ∧ out = w ++ frame frameRaw f.data) ∨
    ∃ level minSize c, f.writer = .compressed (.zstd level minSize) ∧ minSize ≤ f.data.length ∧
      z.compress level f.data = .ok c ∧ c.length < maxFrameSize ∧
      out = w ++ frame frameZstd c := by
  -- Every writer ends in `writeTaggedInto`, which either refuses or appends one frame.
  have htagged : ∀ {tag : UInt8} {payload : List UInt8},
      (writeTaggedInto w tag payload).map Prod.fst = .ok out →
      payload.length < maxFrameSize ∧ out = w ++ frame tag payload := by
    intro tag payload ht
    by_cases hp : payload.length < maxFrameSize
    · rw [writeTaggedInto_of_le w tag hp] at ht
      exact ⟨hp, (Except.ok.inj ht).symm⟩
    · rw [writeTaggedInto_of_lt w tag (Nat.not_lt.mp hp)] at ht
      cases ht
  rcases hw : f.writer with _ | (_ | ⟨level, minSize⟩)
  · rw [into, hw] at h
    exact .inl (htagged h)
  · rw [into, hw] at h
    exact .inl (htagged h)
  · simp only [into, hw, writeFrameCompressedInto] at h
    by_cases hmin : minSize ≤ f.data.length
    · rw [if_pos hmin] at h
      rcases hc : z.compress level f.data with e | c
      · rw [hc] at h
        cases h
      · rw [hc] at h
        simp only at h
        by_cases hshrinks : c.length < f.data.length
        · rw [if_pos hshrinks] at h
          obtain ⟨hlen, hout⟩ := htagged h
          exact .inr ⟨level, minSize, c, rfl, hmin, hc, hlen, hout⟩
        · rw [if_neg hshrinks] at h
          exact .inl (htagged h)
    · rw [if_neg hmin] at h
      exact .inl (htagged h)

/-- **One frame.** What a write adds is a frame of its payload, unless the payload is overlong. -/
theorem isFrame_of_into (hz : z.Undoes) {f : FrameWrite} (hf : ¬ f.Overlong z) {w out : List UInt8}
    (h : f.into z w = .ok out) :
    ∃ bs, out = w ++ bs ∧ (frameReader z).IsFrame bs f.data := by
  rcases into_eq_ok h with ⟨hlen, rfl⟩ | ⟨level, minSize, c, hw, hmin, hc, hlen, rfl⟩
  · exact ⟨_, rfl, isFrame_frameRaw z hlen⟩
  · refine ⟨_, rfl, fun rest ↦ ?_⟩
    have hfits : ¬ maxDecompressedSize < f.data.length :=
      fun hlong ↦ hf ⟨hlong, level, minSize, c, hw, hmin, hc, hlen⟩
    refine (readFrame_frameZstd z hlen rest).trans ?_
    rw [decompressFrame_of_undoes hz hc, if_neg hfits]
    rfl

/-- **A batch.** Frames laid end to end, one for each payload. -/
theorem frames_of_writeAll (hz : z.Undoes) {fs : List FrameWrite}
    (hfs : ∀ f ∈ fs, ¬ f.Overlong z) : ∀ {w out : List UInt8}, writeAll z w fs = .ok out →
    ∃ ws : List (List UInt8 × List UInt8), out = w ++ (ws.map Prod.fst).flatten ∧
      ws.map Prod.snd = fs.map data ∧ ∀ v ∈ ws, (frameReader z).IsFrame v.1 v.2 := by
  induction fs with
  | nil =>
    intro w out h
    exact ⟨[], by rw [← Except.ok.inj h, List.map_nil, List.flatten_nil, List.append_nil], rfl,
      fun _ hv ↦ absurd hv List.not_mem_nil⟩
  | cons f fs ih =>
    intro w out h
    rw [writeAll] at h
    rcases hi : f.into z w with e | w'
    · rw [hi] at h
      cases h
    · rw [hi] at h
      obtain ⟨bs, rfl, hbs⟩ := isFrame_of_into hz (hfs f List.mem_cons_self) hi
      obtain ⟨ws, rfl, hsnd, hws⟩ := ih (fun g hg ↦ hfs g (List.mem_cons_of_mem f hg)) h
      refine ⟨(bs, f.data) :: ws, ?_, ?_, ?_⟩
      · rw [List.map_cons, List.flatten_cons, List.append_assoc]
      · rw [List.map_cons, List.map_cons, hsnd]
      · intro v hv
        rcases List.mem_cons.mp hv with rfl | hv
        · exact hbs
        · exact hws v hv

/-- A payload that fits into a raw frame is refused only when the compressor itself fails. -/
theorem compress_of_into_error {f : FrameWrite} (hf : f.data.length < maxFrameSize)
    {w : List UInt8} {e : ProtocolError} (h : f.into z w = .error e) : ∃ m, e = .compress m := by
  have hraw : (writeTaggedInto w frameRaw f.data).map Prod.fst ≠ .error e := by
    rw [writeTaggedInto_of_le w frameRaw hf]
    intro he
    cases he
  rcases hw : f.writer with _ | (_ | ⟨level, minSize⟩)
  · rw [into, hw] at h
    exact absurd h hraw
  · rw [into, hw] at h
    exact absurd h hraw
  · simp only [into, hw, writeFrameCompressedInto] at h
    by_cases hmin : minSize ≤ f.data.length
    · rw [if_pos hmin] at h
      rcases hc : z.compress level f.data with m | c
      · rw [hc] at h
        exact ⟨m, (Except.error.inj h).symm⟩
      · rw [hc] at h
        simp only at h
        by_cases hshrinks : c.length < f.data.length
        · rw [if_pos hshrinks, writeTaggedInto_of_le w frameZstd (Nat.lt_trans hshrinks hf)] at h
          cases h
        · rw [if_neg hshrinks] at h
          exact absurd h hraw
    · rw [if_neg hmin] at h
      exact absurd h hraw

/-- What the two sides owe each other over a batch. Payloads within the limits are written, unless
the compressor fails, and the concatenation reads back as them, followed by the end of the stream;
and whatever a writer accepts the reader accepts. -/
structure Contract (z : Zstd) (fs : List FrameWrite) : Prop where
  written : ∀ f ∈ fs, f.data.length < maxFrameSize → ∀ w e, f.into z w = .error e →
    ∃ m, e = .compress m
  round_trip : (∀ f ∈ fs, f.data.length ≤ maxDecompressedSize) → ∀ out,
    writeAll z [] fs = .ok out → (frameReader z).readAll out = .ok (fs.map data)
  accepted : ∀ f ∈ fs, ∀ out, f.into z [] = .ok out → ∀ rest,
    readFrame z (out ++ rest) = .ok (some (f.data, rest))

/-- An overlong payload is written and not read. -/
theorem readFrame_of_overlong (hz : z.Undoes) {f : FrameWrite} (hf : f.Overlong z)
    (rest : List UInt8) :
    ∃ out, f.into z [] = .ok out ∧ readFrame z (out ++ rest) =
      .error (.decompressedTooLarge (maxDecompressedSize + 1) maxDecompressedSize) := by
  obtain ⟨hlong, level, minSize, c, hw, hmin, hc, hlen⟩ := hf
  have hshrinks : c.length < f.data.length := Nat.lt_trans hlen hlong
  refine ⟨frame frameZstd c, ?_, ?_⟩
  · simp only [into, hw, writeFrameCompressedInto, if_pos hmin, hc, if_pos hshrinks]
    rw [writeTaggedInto_of_le [] frameZstd hlen]
    rfl
  · rw [readFrame_frameZstd z hlen, decompressFrame_of_undoes hz hc, if_pos hlong]
    rfl

theorem not_overlong_of_le {f : FrameWrite} (h : f.data.length ≤ maxDecompressedSize) :
    ¬ f.Overlong z := fun hf ↦ absurd hf.1 (Nat.not_lt.mpr h)

/-- **The codec keeps its contract** over a batch exactly when no payload of it is overlong. -/
theorem contract_iff_not_overlong (hz : z.Undoes) (fs : List FrameWrite) :
    Contract z fs ↔ ∀ f ∈ fs, ¬ f.Overlong z := by
  constructor
  · intro h f hf hlong
    obtain ⟨out, hout, hread⟩ := readFrame_of_overlong hz hlong []
    cases hread.symm.trans (h.accepted f hf out hout [])
  · intro h
    refine ⟨fun f hf hlen w e he ↦ compress_of_into_error hlen he, fun hlim out hout ↦ ?_,
      fun f hf out hout rest ↦ ?_⟩
    · obtain ⟨ws, rfl, hsnd, hws⟩ :=
        frames_of_writeAll hz (fun f hf ↦ not_overlong_of_le (hlim f hf)) hout
      rw [List.nil_append, FrameReader.readAll_flatten hws, hsnd]
    · obtain ⟨bs, rfl, hbs⟩ := isFrame_of_into hz (h f hf) hout
      exact hbs rest

end FrameWrite

/-! ## A codec that stores runs

A run of one byte is stored as the byte and its length, and anything else verbatim. Like the real
library it undoes what it does and makes a long run short. -/

/-- Compress a run of one byte to six bytes. -/
def Zstd.runLength : Zstd where
  compress := fun _ data ↦
    match data with
    | b :: _ =>
      if data.length < 0x100000000 ∧ data = List.replicate data.length b then
        .ok (1 :: b :: toBeBytes data.length)
      else .ok (0 :: data)
    | [] => .ok [0]
  decode := fun
    | [1, b, b₀, b₁, b₂, b₃] => .ok (List.replicate (fromBeBytes b₀ b₁ b₂ b₃) b, none)
    | 0 :: data => .ok (data, none)
    | _ => .error "unknown block"

theorem Zstd.undoes_runLength : Zstd.runLength.Undoes := by
  intro level data c hc
  rcases data with _ | ⟨b, tail⟩
  · cases hc
    rfl
  · simp only [Zstd.runLength] at hc
    by_cases hrun : (b :: tail).length < 0x100000000 ∧
        b :: tail = List.replicate (b :: tail).length b
    · rw [if_pos hrun] at hc
      cases hc
      simp only [Zstd.runLength, toBeBytes, fromBeBytes_toBeBytes hrun.1]
      rw [← hrun.2]
    · rw [if_neg hrun] at hc
      cases hc
      rfl

theorem Zstd.compress_runLength_replicate (level : Int) {n : ℕ} (hn : n + 1 < 0x100000000)
    (b : UInt8) :
    Zstd.runLength.compress level (List.replicate (n + 1) b) =
      .ok (1 :: b :: toBeBytes (n + 1)) := by
  rw [List.replicate_succ]
  refine (if_pos ?_).trans ?_
  · rw [List.length_cons, List.length_replicate]
    exact ⟨hn, rfl⟩
  · rw [List.length_cons, List.length_replicate]

namespace FrameWrite

/-- A plain write and a compressed one. -/
def twoWrites : List FrameWrite :=
  [⟨[104, 105], .plain⟩, ⟨List.replicate 4096 97, .compressed (.zstd 3 256)⟩]

theorem contract_twoWrites : Contract Zstd.runLength twoWrites := by
  refine (contract_iff_not_overlong Zstd.undoes_runLength twoWrites).mpr fun f hf ↦ ?_
  refine not_overlong_of_le ?_
  rcases List.mem_cons.mp hf with rfl | hf
  · decide
  · rw [List.mem_singleton.mp hf, List.length_replicate]
    decide

/-- One byte more than the reader allows, all of them zero. -/
def overlongWrite : FrameWrite :=
  ⟨List.replicate (maxDecompressedSize + 1) 0, .compressed (.zstd 3 256)⟩

/-- The overlong write is accepted by the writer and refused by the reader. -/
theorem not_contract_overlongWrite :
    ¬ ∀ z : Zstd, z.Undoes → ∀ fs, Contract z fs := by
  intro h
  have hlong : overlongWrite.Overlong Zstd.runLength := by
    have hlen : overlongWrite.data.length = maxDecompressedSize + 1 := List.length_replicate
    refine ⟨?_, 3, 256, _, rfl, ?_,
      Zstd.compress_runLength_replicate 3 (by decide) 0, by decide⟩
    · rw [hlen]
      exact Nat.lt_succ_self _
    · rw [hlen]
      decide
  obtain ⟨out, hout, hread⟩ := readFrame_of_overlong Zstd.undoes_runLength hlong []
  have hok := (h _ Zstd.undoes_runLength [overlongWrite]).accepted overlongWrite
    List.mem_cons_self out hout []
  cases hread.symm.trans hok

end FrameWrite

end Kmux
