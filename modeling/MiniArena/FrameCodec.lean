/-
MiniArena/FrameCodec.lean

The wire format of `network/frame_codec.cpp`:

    [total_length:4] [message_id:4] [flags:2] [sequence:8] [payload:N]

with every header field big-endian.  `encode`, `parseHeader` and `decode`
follow the source.  `scan` is what `decode` does to the unread bytes alone,
with the buffer taken away; `decode_eq_scan` is the refinement, and
`frameFraming` packages encoder and scanner as a `Framing`, so that the
stream results of `StreamFraming` apply to frames.
-/
import MiniArena.Buffer
import MiniArena.BigEndian
import MiniArena.StreamFraming

namespace MiniArena

open BigEndian

def kHeaderSize : ℕ := 18
def kMaxPayload : ℕ := 64 * 1024

structure Frame where
  totalLength : UInt32 := 0
  messageId : UInt32 := 0
  flags : UInt16 := 0
  sequence : UInt64 := 0
  payload : List UInt8 := []
  deriving DecidableEq, Repr

namespace FrameCodec

/-! ### Header -/

/-- `writeHeader`: the 18 header bytes.  The sequence is written as its high
and its low half. -/
def writeHeader (totalLength msgId : UInt32) (flags : UInt16) (seq : UInt64) : List UInt8 :=
  toBE 4 totalLength.toNat ++ toBE 4 msgId.toNat ++ toBE 2 flags.toNat ++
    toBE 4 (seq.toNat >>> 32) ++ toBE 4 (seq.toNat &&& 0xFFFFFFFF)

/-- The big-endian field of `w` bytes at offset `off`. -/
def field (src : List UInt8) (off w : ℕ) : ℕ := ofBE ((src.drop off).take w)

/-- `parseHeader`: length, message id, flags and sequence. -/
def parseHeader (src : List UInt8) : UInt32 × UInt32 × UInt16 × UInt64 :=
  (UInt32.ofNat (field src 0 4), UInt32.ofNat (field src 4 4), UInt16.ofNat (field src 8 2),
    UInt64.ofNat (field src 10 4 <<< 32 ||| field src 14 4))

@[simp] theorem length_writeHeader (t m : UInt32) (f : UInt16) (s : UInt64) :
    (writeHeader t m f s).length = kHeaderSize := by
  simp [writeHeader, kHeaderSize]

theorem parseHeader_writeHeader (t m : UInt32) (f : UInt16) (s : UInt64) (rest : List UInt8) :
    parseHeader (writeHeader t m f s ++ rest) = (t, m, f, s) := by
  have ht : field (writeHeader t m f s ++ rest) 0 4 = t.toNat := by
    rw [field, writeHeader]
    simp only [List.append_assoc, List.drop_zero]
    rw [List.take_left' (length_toBE _ _), ofBE_toBE_of_lt t.toNat_lt]
  have hm : field (writeHeader t m f s ++ rest) 4 4 = m.toNat := by
    rw [field, writeHeader]
    simp only [List.append_assoc]
    rw [List.drop_left' (length_toBE _ _), List.take_left' (length_toBE _ _),
      ofBE_toBE_of_lt m.toNat_lt]
  have hf : field (writeHeader t m f s ++ rest) 8 2 = f.toNat := by
    rw [field, writeHeader, show (8 : ℕ) = 4 + 4 from rfl, ← List.drop_drop]
    simp only [List.append_assoc]
    rw [List.drop_left' (length_toBE _ _), List.drop_left' (length_toBE _ _),
      List.take_left' (length_toBE _ _), ofBE_toBE_of_lt f.toNat_lt]
  have hhi : field (writeHeader t m f s ++ rest) 10 4 = s.toNat >>> 32 := by
    rw [field, writeHeader, show (10 : ℕ) = 4 + (4 + 2) from rfl, ← List.drop_drop,
      ← List.drop_drop]
    simp only [List.append_assoc]
    rw [List.drop_left' (length_toBE _ _), List.drop_left' (length_toBE _ _),
      List.drop_left' (length_toBE _ _), List.take_left' (length_toBE _ _), ofBE_toBE_of_lt]
    have := s.toNat_lt
    rw [Nat.shiftRight_eq_div_pow]
    omega
  have hlo : field (writeHeader t m f s ++ rest) 14 4 = s.toNat &&& 0xFFFFFFFF := by
    rw [field, writeHeader, show (14 : ℕ) = 4 + (4 + (2 + 4)) from rfl, ← List.drop_drop,
      ← List.drop_drop, ← List.drop_drop]
    simp only [List.append_assoc]
    rw [List.drop_left' (length_toBE _ _), List.drop_left' (length_toBE _ _),
      List.drop_left' (length_toBE _ _), List.drop_left' (length_toBE _ _),
      List.take_left' (length_toBE _ _), ofBE_toBE_of_lt]
    exact lt_of_le_of_lt Nat.and_le_right (by norm_num)
  have hseq : s.toNat >>> 32 <<< 32 ||| s.toNat &&& 0xFFFFFFFF = s.toNat := by
    have hland : s.toNat &&& 0xFFFFFFFF = s.toNat % 2 ^ 32 :=
      Nat.and_two_pow_sub_one_eq_mod s.toNat 32
    rw [hland, ← Nat.shiftLeft_add_eq_or_of_lt (Nat.mod_lt _ (by norm_num)),
      Nat.shiftLeft_eq, Nat.shiftRight_eq_div_pow]
    exact Nat.div_add_mod' _ _
  rw [parseHeader, ht, hm, hf, hhi, hlo, hseq]
  simp

/-! ### Encoding and decoding -/

def encode (msgId : UInt32) (flags : UInt16) (seq : UInt64) (payload : List UInt8) :
    Except String (List UInt8) :=
  if kMaxPayload < payload.length then
    .error "FrameCodec::encode: payload exceeds max size"
  else
    let total := UInt32.ofNat (kHeaderSize + payload.length)
    .ok (writeHeader total msgId flags seq ++ payload)

/-- `decode`: a frame, or `none` for a half packet; an invalid length throws
and leaves the buffer alone. -/
def decode (b : Buffer) : Except String (Option Frame × Buffer) :=
  if b.readable < kHeaderSize then .ok (none, b)
  else
    let (totalLength, msgId, flags, seq) := parseHeader b.unread
    if totalLength.toNat < kHeaderSize then
      .error "FrameCodec::decode: total_length < header size"
    else if kHeaderSize + kMaxPayload < totalLength.toNat then
      .error "FrameCodec::decode: total_length exceeds max packet size"
    else if b.readable < totalLength.toNat then .ok (none, b)
    else
      let b := b.skip kHeaderSize
      let payloadLen := totalLength.toNat - kHeaderSize
      if 0 < payloadLen then
        let (b, payload) := b.read payloadLen
        .ok (some ⟨totalLength, msgId, flags, seq, payload⟩, b)
      else
        .ok (some ⟨totalLength, msgId, flags, seq, []⟩, b)

/-- What `decode` does to the unread bytes: the frame at their front and the
bytes after it. -/
def scan (bs : List UInt8) : Except String (Option (Frame × List UInt8)) :=
  if bs.length < kHeaderSize then .ok none
  else
    let (totalLength, msgId, flags, seq) := parseHeader bs
    if totalLength.toNat < kHeaderSize then
      .error "FrameCodec::decode: total_length < header size"
    else if kHeaderSize + kMaxPayload < totalLength.toNat then
      .error "FrameCodec::decode: total_length exceeds max packet size"
    else if bs.length < totalLength.toNat then .ok none
    else
      .ok (some (⟨totalLength, msgId, flags, seq,
        (bs.drop kHeaderSize).take (totalLength.toNat - kHeaderSize)⟩, bs.drop totalLength.toNat))

/-- **`decode` refines `scan`.** -/
theorem decode_eq_scan {b : Buffer} (h : b.WF) :
    match scan b.unread with
    | .error e => decode b = .error e
    | .ok none => decode b = .ok (none, b)
    | .ok (some (f, rest)) => ∃ b', decode b = .ok (some f, b') ∧ b'.WF ∧ b'.unread = rest ∧
        b'.buf.length = b.buf.length := by
  have hlen := h.length_unread
  unfold scan decode
  rw [hlen]
  by_cases h1 : b.readable < kHeaderSize
  · simp [h1]
  rcases hp : parseHeader b.unread with ⟨totalLength, msgId, flags, seq⟩
  simp only [h1, if_false]
  by_cases h2 : totalLength.toNat < kHeaderSize
  · simp [h2]
  by_cases h3 : kHeaderSize + kMaxPayload < totalLength.toNat
  · simp [h2, h3]
  by_cases h4 : b.readable < totalLength.toNat
  · simp [h2, h3, h4]
  simp only [h2, h3, h4, if_false]
  obtain ⟨hwf, hun, hcap⟩ := Buffer.skip_spec h kHeaderSize (by omega)
  have hreadable : (b.skip kHeaderSize).readable = b.readable - kHeaderSize := by
    rw [← hwf.length_unread, hun, List.length_drop, hlen]
  by_cases h5 : 0 < totalLength.toNat - kHeaderSize
  · obtain ⟨hwf', hun', hcap', hout⟩ :=
      Buffer.read_spec hwf (totalLength.toNat - kHeaderSize) (by omega)
    refine ⟨((b.skip kHeaderSize).read (totalLength.toNat - kHeaderSize)).1, ?_, hwf', ?_, ?_⟩
    · rw [if_pos h5]
      simp only [hout, hun]
    · rw [hun', hun, List.drop_drop]
      congr 1
      omega
    · rw [hcap', hcap]
  · have hzero : totalLength.toNat - kHeaderSize = 0 := by omega
    have htotal : totalLength.toNat = kHeaderSize := by omega
    refine ⟨b.skip kHeaderSize, ?_, hwf, ?_, hcap⟩
    · rw [if_neg h5]
      simp [hzero]
    · rw [hun, htotal]

/-- The length field of a scanned frame counts its header and payload. -/
theorem scan_totalLength {bs rest : List UInt8} {f : Frame} (h : scan bs = .ok (some (f, rest))) :
    f.totalLength.toNat = kHeaderSize + f.payload.length := by
  unfold scan at h
  rcases hp : parseHeader bs with ⟨totalLength, msgId, flags, seq⟩
  rw [hp] at h
  dsimp only at h
  split at h
  · cases h
  split at h
  · cases h
  split at h
  · cases h
  split at h
  · cases h
  · obtain ⟨rfl, -⟩ := Prod.mk.injEq .. ▸ Option.some.inj (Except.ok.inj h)
    simp only [List.length_take, List.length_drop]
    omega

end FrameCodec

/-! ### Encodable frames -/

/-- The arguments of `FrameCodec::encode` for which it does not throw. -/
structure WireFrame where
  messageId : UInt32
  flags : UInt16
  sequence : UInt64
  payload : List UInt8
  payload_le : payload.length ≤ kMaxPayload

namespace WireFrame

open FrameCodec

def totalLength (f : WireFrame) : UInt32 := UInt32.ofNat (kHeaderSize + f.payload.length)

/-- The frame the receiver sees. -/
def toFrame (f : WireFrame) : Frame :=
  ⟨f.totalLength, f.messageId, f.flags, f.sequence, f.payload⟩

def bytes (f : WireFrame) : List UInt8 :=
  writeHeader f.totalLength f.messageId f.flags f.sequence ++ f.payload

theorem encode_eq (f : WireFrame) :
    encode f.messageId f.flags f.sequence f.payload = .ok f.bytes := by
  simp [encode, Nat.not_lt.mpr f.payload_le, bytes, totalLength]

@[simp] theorem toNat_totalLength (f : WireFrame) :
    f.totalLength.toNat = kHeaderSize + f.payload.length := by
  have := f.payload_le
  simp only [kMaxPayload] at this
  exact UInt32.toNat_ofNat_of_lt (by simp only [kHeaderSize, UInt32.size]; omega)

@[simp] theorem length_bytes (f : WireFrame) :
    f.bytes.length = kHeaderSize + f.payload.length := by
  simp [bytes]

theorem scan_bytes_append (f : WireFrame) (rest : List UInt8) :
    scan (f.bytes ++ rest) = .ok (some (f.toFrame, rest)) := by
  have hparse : parseHeader (f.bytes ++ rest)
      = (f.totalLength, f.messageId, f.flags, f.sequence) := by
    rw [bytes, List.append_assoc]
    exact parseHeader_writeHeader _ _ _ _ _
  have hle := f.payload_le
  have h1 : ¬ (f.bytes ++ rest).length < kHeaderSize := by simp; omega
  have h4 : ¬ (f.bytes ++ rest).length < kHeaderSize + f.payload.length := by simp
  rw [scan, if_neg h1, hparse]
  simp only [toNat_totalLength]
  rw [if_neg (by omega), if_neg (by omega), if_neg h4]
  have hdrop : (f.bytes ++ rest).drop kHeaderSize = f.payload ++ rest := by
    rw [bytes, List.append_assoc, List.drop_left' (length_writeHeader _ _ _ _)]
  rw [hdrop, Nat.add_sub_cancel_left, List.take_left,
    List.drop_left' (length_bytes f)]
  rfl

theorem scan_incomplete (f : WireFrame) {p s : List UInt8} (h : f.bytes = p ++ s) (hs : s ≠ []) :
    scan p = .ok none := by
  by_cases hp : p.length < kHeaderSize
  · simp [scan, hp]
  -- the header is complete, so it is the header of `f`
  have hlen : p.length + s.length = kHeaderSize + f.payload.length := by
    rw [← length_bytes, h, List.length_append]
  have hpos := List.length_pos_of_ne_nil hs
  have hle := f.payload_le
  have hparse : parseHeader p = (f.totalLength, f.messageId, f.flags, f.sequence) := by
    have hhead : p = writeHeader f.totalLength f.messageId f.flags f.sequence
        ++ p.drop kHeaderSize := by
      have htake : (f.bytes).take kHeaderSize
          = writeHeader f.totalLength f.messageId f.flags f.sequence := by
        rw [bytes, List.take_left' (length_writeHeader _ _ _ _)]
      rw [← htake, h, List.take_append_of_le_length (by omega), List.take_append_drop]
    rw [hhead]
    exact parseHeader_writeHeader _ _ _ _ _
  rw [scan, if_neg hp, hparse]
  simp only [toNat_totalLength]
  rw [if_neg (by omega), if_neg (by omega), if_pos (by omega)]

/-- Frames as a self-delimiting code on the byte stream.  The scanner of the
code stops at an invalid header; an encoding never has one. -/
def framing : Framing UInt8 WireFrame where
  encode := bytes
  scan bs := match scan bs with
    | .ok (some (f, rest)) =>
        if h : f.payload.length ≤ kMaxPayload then
          some (⟨f.messageId, f.flags, f.sequence, f.payload, h⟩, rest)
        else none
    | _ => none
  encode_ne_nil f := by
    apply List.ne_nil_of_length_pos
    rw [length_bytes, kHeaderSize]
    omega
  scan_encode f rest := by
    rw [scan_bytes_append]
    simp [toFrame, f.payload_le]
  scan_incomplete h hs := by
    rw [scan_incomplete _ h hs]

/-- Scanning an item off the code is scanning its frame. -/
theorem scan_of_framing_scan {bs rest : List UInt8} {f : WireFrame}
    (h : framing.scan bs = some (f, rest)) :
    scan bs = .ok (some (f.toFrame, rest)) := by
  simp only [framing] at h
  split at h
  · rename_i fr r hs
    split at h
    · rename_i hle
      obtain ⟨rfl, rfl⟩ := Prod.mk.injEq .. ▸ Option.some.inj h
      rw [hs]
      have htotal : fr.totalLength = UInt32.ofNat (kHeaderSize + fr.payload.length) := by
        rw [← scan_totalLength hs, UInt32.ofNat_toNat]
      simp [toFrame, totalLength, ← htotal]
    · cases h
  · cases h

end WireFrame

end MiniArena
