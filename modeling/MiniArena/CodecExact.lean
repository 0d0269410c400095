/-
MiniArena/CodecExact.lean

The codec is a bijection between argument tuples and the byte strings it
produces: `decode` returns what `encode` was given and stops exactly behind
it, and whatever `decode` accepts is the encoding of what it returns.

`decode` of `FrameCodec` gives back no buffer when it throws.  `decodeOn` is
the same function over the buffer it is called with, as an exception on top
of a state, so that what a throw leaves behind can be said too
(`decodeRun_eq`).

The direction from bytes to fields needs `toBE_ofBE`: a header is determined
by the five numbers read from it.
-/
import MiniArena.FrameCodec

namespace MiniArena

open BigEndian

namespace FrameCodec

/-! ### The header is determined by its fields -/

theorem length_field {src : List UInt8} {off w : ℕ} (h : off + w ≤ src.length) :
    ((src.drop off).take w).length = w := by
  simp only [List.length_take, List.length_drop]
  omega

theorem field_lt {src : List UInt8} {off w : ℕ} (h : off + w ≤ src.length) :
    field src off w < 256 ^ w := by
  have := ofBE_lt ((src.drop off).take w)
  rwa [length_field h] at this

theorem toBE_field {src : List UInt8} {off w : ℕ} (h : off + w ≤ src.length) :
    toBE w (field src off w) = (src.drop off).take w := by
  have := toBE_ofBE ((src.drop off).take w)
  rwa [length_field h] at this

/-- The two halves of a sequence number are read back as they were stored. -/
theorem seq_halves {hi lo : ℕ} (hhi : hi < 2 ^ 32) (hlo : lo < 2 ^ 32) :
    (UInt64.ofNat (hi <<< 32 ||| lo)).toNat >>> 32 = hi ∧
      (UInt64.ofNat (hi <<< 32 ||| lo)).toNat &&& 0xFFFFFFFF = lo := by
  have hor : hi <<< 32 ||| lo = hi * 2 ^ 32 + lo := by
    rw [← Nat.shiftLeft_add_eq_or_of_lt hlo, Nat.shiftLeft_eq]
  have hsmall : hi * 2 ^ 32 + lo < 2 ^ 64 := by omega
  have hnat : (UInt64.ofNat (hi * 2 ^ 32 + lo)).toNat = hi * 2 ^ 32 + lo :=
    UInt64.toNat_ofNat_of_lt hsmall
  rw [hor, hnat]
  constructor
  · rw [Nat.shiftRight_eq_div_pow]
    omega
  · have hmask : (0xFFFFFFFF : ℕ) = 2 ^ 32 - 1 := rfl
    rw [hmask, Nat.and_two_pow_sub_one_eq_mod]
    omega

theorem writeHeader_parseHeader {src : List UInt8} (h : kHeaderSize ≤ src.length) :
    writeHeader (parseHeader src).1 (parseHeader src).2.1 (parseHeader src).2.2.1
      (parseHeader src).2.2.2 = src.take kHeaderSize := by
  simp only [kHeaderSize] at h
  have ht : (UInt32.ofNat (field src 0 4)).toNat = field src 0 4 :=
    UInt32.toNat_ofNat_of_lt (field_lt (by omega))
  have hm : (UInt32.ofNat (field src 4 4)).toNat = field src 4 4 :=
    UInt32.toNat_ofNat_of_lt (field_lt (by omega))
  have hf : (UInt16.ofNat (field src 8 2)).toNat = field src 8 2 :=
    UInt16.toNat_ofNat_of_lt (field_lt (by omega))
  obtain ⟨hhi, hlo⟩ := @seq_halves (field src 10 4) (field src 14 4) (field_lt (by omega))
    (field_lt (by omega))
  have hcut : src.take kHeaderSize = (src.drop 0).take 4 ++ (src.drop 4).take 4 ++
      (src.drop 8).take 2 ++ (src.drop 10).take 4 ++ (src.drop 14).take 4 := by
    simp only [kHeaderSize, List.drop_zero, ← List.take_add, Nat.reduceAdd]
  rw [hcut, parseHeader, writeHeader]
  dsimp only
  rw [ht, hm, hf, hhi, hlo, toBE_field (by omega), toBE_field (by omega), toBE_field (by omega),
    toBE_field (by omega), toBE_field (by omega)]

/-! ### The scanner -/

/-- The length field of a byte string that has a header. -/
def lengthField (bs : List UInt8) : ℕ := ofBE (bs.take 4)

theorem toNat_parseHeader {bs : List UInt8} (h : kHeaderSize ≤ bs.length) :
    (parseHeader bs).1.toNat = lengthField bs := by
  simp only [kHeaderSize] at h
  exact UInt32.toNat_ofNat_of_lt (@field_lt bs 0 4 (by omega))

/-- **What is scanned is an encoding**: the bytes in front of the rest are the
header of the frame and its payload. -/
theorem bytes_of_scan {bs rest : List UInt8} {f : Frame} (h : scan bs = .ok (some (f, rest))) :
    bs = writeHeader f.totalLength f.messageId f.flags f.sequence ++ f.payload ++ rest ∧
      f.payload.length ≤ kMaxPayload := by
  unfold scan at h
  split at h
  · cases h
  rename_i hhead
  have hheader := writeHeader_parseHeader (Nat.le_of_not_lt hhead)
  rcases hp : parseHeader bs with ⟨totalLength, msgId, flags, seq⟩
  rw [hp] at h hheader
  dsimp only at h hheader
  split at h
  · cases h
  split at h
  · cases h
  split at h
  · cases h
  · obtain ⟨rfl, rfl⟩ := Prod.mk.injEq .. ▸ Option.some.inj (Except.ok.inj h)
    dsimp only
    constructor
    · have htotal : totalLength.toNat = kHeaderSize + (totalLength.toNat - kHeaderSize) := by omega
      rw [hheader, ← List.take_add, ← htotal, List.take_append_drop]
    · simp only [List.length_take, List.length_drop]
      omega

/-- The three outcomes of the scanner, by the length field. -/
theorem scan_none_iff {bs : List UInt8} :
    scan bs = .ok none ↔ bs.length < kHeaderSize ∨
      (kHeaderSize ≤ lengthField bs ∧ lengthField bs ≤ kHeaderSize + kMaxPayload ∧
        bs.length < lengthField bs) := by
  by_cases h1 : bs.length < kHeaderSize
  · simp [scan, h1]
  have hlen := toNat_parseHeader (Nat.le_of_not_lt h1)
  rcases hp : parseHeader bs with ⟨totalLength, msgId, flags, seq⟩
  rw [hp] at hlen
  dsimp only at hlen
  rw [scan, if_neg h1, hp, ← hlen]
  dsimp only
  split
  · simp only [reduceCtorEq, false_iff]
    omega
  split
  · simp only [reduceCtorEq, false_iff]
    omega
  split
  · simp only [true_iff]
    omega
  · simp only [Except.ok.injEq, reduceCtorEq, false_iff]
    omega

theorem scan_error_iff {bs : List UInt8} :
    (∃ e, scan bs = .error e) ↔ kHeaderSize ≤ bs.length ∧
      (lengthField bs < kHeaderSize ∨ kHeaderSize + kMaxPayload < lengthField bs) := by
  by_cases h1 : bs.length < kHeaderSize
  · simp [scan, h1]
  have hlen := toNat_parseHeader (Nat.le_of_not_lt h1)
  rcases hp : parseHeader bs with ⟨totalLength, msgId, flags, seq⟩
  rw [hp] at hlen
  dsimp only at hlen
  rw [scan, if_neg h1, hp, ← hlen]
  dsimp only
  split
  · simp only [Except.error.injEq, exists_eq', true_iff]
    omega
  split
  · simp only [Except.error.injEq, exists_eq', true_iff]
    omega
  split
  · simp only [reduceCtorEq, exists_false, false_iff]
    omega
  · simp only [reduceCtorEq, exists_false, false_iff]
    omega

/-! ### Decoding in place -/

/-- `decode(Buffer& buf)`: the buffer is the state, `throw` keeps it as it is. -/
def decodeOn : ExceptT String (StateM Buffer) (Option Frame) := do
  let buf ← get
  if buf.readable < kHeaderSize then
    return none
  let (totalLength, msgId, flags, seq) := parseHeader buf.unread
  if totalLength.toNat < kHeaderSize then
    throw "FrameCodec::decode: total_length < header size"
  if kHeaderSize + kMaxPayload < totalLength.toNat then
    throw "FrameCodec::decode: total_length exceeds max packet size"
  if buf.readable < totalLength.toNat then
    return none
  modify fun buf => buf.skip kHeaderSize
  let payloadLen := totalLength.toNat - kHeaderSize
  if 0 < payloadLen then
    let payload ← modifyGet fun buf => ((buf.read payloadLen).2, (buf.read payloadLen).1)
    return some ⟨totalLength, msgId, flags, seq, payload⟩
  return some ⟨totalLength, msgId, flags, seq, []⟩

/-- The result of `decode(buf)` and what `buf` is afterwards. -/
def decodeRun (b : Buffer) : Except String (Option Frame) × Buffer := decodeOn.run.run b

/-- `decodeOn` is `decode`, with the buffer kept where `decode` throws. -/
theorem decodeRun_eq (b : Buffer) :
    decodeRun b = match decode b with
      | .error e => (.error e, b)
      | .ok (f, b') => (.ok f, b') := by
  rcases hp : parseHeader b.unread with ⟨totalLength, msgId, flags, seq⟩
  have hget : ∀ k : Buffer → ExceptT String (StateM Buffer) (Option Frame),
      (get >>= k).run.run b = (k b).run.run b := fun k => rfl
  rw [decodeRun, decodeOn, hget, decode, hp]
  by_cases h1 : b.readable < kHeaderSize
  · rw [if_pos h1, if_pos h1]
    rfl
  rw [if_neg h1, if_neg h1]
  dsimp only
  by_cases h2 : totalLength.toNat < kHeaderSize
  · rw [if_pos h2, if_pos h2]
    rfl
  rw [if_neg h2, if_neg h2]
  by_cases h3 : kHeaderSize + kMaxPayload < totalLength.toNat
  · rw [if_pos h3, if_pos h3]
    rfl
  rw [if_neg h3, if_neg h3]
  by_cases h4 : b.readable < totalLength.toNat
  · rw [if_pos h4, if_pos h4]
    rfl
  rw [if_neg h4, if_neg h4]
  by_cases h5 : 0 < totalLength.toNat - kHeaderSize
  · rw [if_pos h5, if_pos h5]
    rfl
  · rw [if_neg h5, if_neg h5]
    rfl

/-- The four directions of the correspondence, at a buffer. -/
structure ExactAt (b : Buffer) : Prop where
  /-- What was encoded is decoded, and exactly the rest stays unread. -/
  decode_encode : ∀ msgId flags seq payload, payload.length ≤ kMaxPayload →
    ∃ data, encode msgId flags seq payload = .ok data ∧ ∀ rest, b.unread = data ++ rest →
      ∃ b', decodeRun b = (.ok (some ⟨UInt32.ofNat (kHeaderSize + payload.length), msgId,
          flags, seq, payload⟩), b') ∧ b'.unread = rest
  /-- What is decoded was encoded. -/
  encode_decode : ∀ f b', decodeRun b = (.ok (some f), b') →
    ∃ data, encode f.messageId f.flags f.sequence f.payload = .ok data ∧
      b.unread = data ++ b'.unread ∧ f.totalLength.toNat = kHeaderSize + f.payload.length
  throws_iff : (∃ e b', decodeRun b = (.error e, b')) ↔ kHeaderSize ≤ b.unread.length ∧
    (lengthField b.unread < kHeaderSize ∨ kHeaderSize + kMaxPayload < lengthField b.unread)
  half_iff : (∃ b', decodeRun b = (.ok none, b')) ↔ b.unread.length < kHeaderSize ∨
    (kHeaderSize ≤ lengthField b.unread ∧ lengthField b.unread ≤ kHeaderSize + kMaxPayload ∧
      b.unread.length < lengthField b.unread)
  unchanged : ∀ r b', decodeRun b = (r, b') → (∀ f, r ≠ .ok (some f)) →
    b'.unread = b.unread

/-- What decoding in place does, by the scanner on the unread bytes. -/
theorem decodeRun_of_scan {b : Buffer} (h : b.WF) :
    match scan b.unread with
    | .error e => decodeRun b = (.error e, b)
    | .ok none => decodeRun b = (.ok none, b)
    | .ok (some (f, rest)) => ∃ b', decodeRun b = (.ok (some f), b') ∧ b'.unread = rest := by
  have hdec := decode_eq_scan h
  rw [decodeRun_eq]
  rcases hs : scan b.unread with e | (- | ⟨f, rest⟩)
  · rw [hs] at hdec
    simp only [hdec]
  · rw [hs] at hdec
    simp only [hdec]
  · rw [hs] at hdec
    obtain ⟨b', hb', -, hun, -⟩ := hdec
    refine ⟨b', ?_, hun⟩
    simp only [hb']

/-- **The codec is exact** at every buffer. -/
theorem codec_exact {b : Buffer} (h : b.WF) : ExactAt b where
  decode_encode := by
    intro msgId flags seq payload hle
    let f : WireFrame := ⟨msgId, flags, seq, payload, hle⟩
    refine ⟨f.bytes, f.encode_eq, ?_⟩
    intro rest hun
    have hdec := decodeRun_of_scan h
    rw [hun, f.scan_bytes_append] at hdec
    exact hdec
  encode_decode := by
    intro f b' hb'
    have hdec := decodeRun_of_scan h
    rcases hs : scan b.unread with e | (- | ⟨g, rest⟩)
    · rw [hs] at hdec
      cases hdec.symm.trans hb'
    · rw [hs] at hdec
      cases hdec.symm.trans hb'
    · rw [hs] at hdec
      obtain ⟨b'', hb'', rfl⟩ := hdec
      cases hb''.symm.trans hb'
      obtain ⟨hbytes, hle⟩ := bytes_of_scan hs
      have htotal := scan_totalLength hs
      -- a frame that was decoded has the length its header says
      have hlen : UInt32.ofNat (kHeaderSize + f.payload.length) = f.totalLength := by
        rw [← htotal, UInt32.ofNat_toNat]
      refine ⟨_, ?_, hbytes, htotal⟩
      rw [encode, if_neg (Nat.not_lt.mpr hle), hlen]
  throws_iff := by
    rw [← scan_error_iff]
    have hdec := decodeRun_of_scan h
    rcases hs : scan b.unread with e | (- | ⟨g, rest⟩)
    · rw [hs] at hdec
      simp [hdec]
    · rw [hs] at hdec
      simp [hdec]
    · rw [hs] at hdec
      obtain ⟨b', hb', -⟩ := hdec
      simp [hb']
  half_iff := by
    rw [← scan_none_iff]
    have hdec := decodeRun_of_scan h
    rcases hs : scan b.unread with e | (- | ⟨g, rest⟩)
    · rw [hs] at hdec
      simp [hdec]
    · rw [hs] at hdec
      simp [hdec]
    · rw [hs] at hdec
      obtain ⟨b', hb', -⟩ := hdec
      simp [hb']
  unchanged := by
    intro r b' hb' hr
    have hdec := decodeRun_of_scan h
    rcases hs : scan b.unread with e | (- | ⟨g, rest⟩)
    · rw [hs] at hdec
      cases hdec.symm.trans hb'
      rfl
    · rw [hs] at hdec
      cases hdec.symm.trans hb'
      rfl
    · rw [hs] at hdec
      obtain ⟨b'', hb'', -⟩ := hdec
      cases hb''.symm.trans hb'
      exact absurd rfl (hr g)

/-- A buffer that holds a frame with the payload `hi` and the first byte of the next. -/
theorem codec_exact_oneFrame :
    ExactAt ⟨(WireFrame.mk 1001 0 7 [104, 105] (by decide)).bytes ++ [0], 0, 21⟩ :=
  codec_exact ⟨by decide, by decide, by decide⟩

end FrameCodec

end MiniArena
