/-
MiniArena/RobotFrame.lean

The robot client's framing (`robot/frame.go`): `EncodeFrame` and the
`FrameReader`, which keeps what it has read in a byte slice and calls
`conn.Read` until a header, then a whole frame, is there.

A connection is the list of what its `Read` calls will return; after the last
one `Read` fails.  The result of one call is a `Chunk`, which carries the
bound the code's own 4096 byte slice puts on it.  The bound matters: the
second loop compares `uint32(len(r.buf))`, and a buffer of `2 ^ 32` bytes
would not compare as one.
-/
import MiniArena.Connection

namespace MiniArena

namespace Robot

open BigEndian FrameCodec

def frameHeaderSize : ℕ := 18
def maxPayload : ℕ := 64 * 1024

theorem frameHeaderSize_eq : frameHeaderSize = kHeaderSize := rfl

theorem maxPayload_eq : maxPayload = kMaxPayload := rfl

/-! ### Encoding -/

/-- `EncodeFrame`; `.error` is the panic. -/
def encodeFrame (msgID : UInt32) (flags : UInt16) (seq : UInt64) (payload : List UInt8) :
    Except String (List UInt8) :=
  if maxPayload < payload.length then .error "payload too large"
  else
    let totalLen := UInt32.ofNat (frameHeaderSize + payload.length)
    let buf := List.replicate totalLen.toNat 0
    let buf := Buffer.poke buf 0 (toBE 4 totalLen.toNat)
    let buf := Buffer.poke buf 4 (toBE 4 msgID.toNat)
    let buf := Buffer.poke buf 8 (toBE 2 flags.toNat)
    let buf := Buffer.poke buf 10 (toBE 8 seq.toNat)
    .ok (Buffer.poke buf 18 payload)

/-! ### Reading -/

/-- What one `conn.Read(chunk)` puts into the 4096 bytes of `chunk`. -/
structure Chunk where
  bytes : List UInt8
  length_le : bytes.length ≤ 4096

/-- The bytes a connection will still deliver. -/
def Chunk.stream (conn : List Chunk) : List UInt8 := (conn.map Chunk.bytes).flatten

@[simp] theorem Chunk.stream_nil : Chunk.stream [] = [] := rfl

@[simp] theorem Chunk.stream_cons (c : Chunk) (conn : List Chunk) :
    Chunk.stream (c :: conn) = c.bytes ++ Chunk.stream conn := rfl

structure DecodedFrame where
  totalLength : UInt32
  msgID : UInt32
  flags : UInt16
  sequence : UInt64
  payload : List UInt8
  deriving DecidableEq, Repr

/-- The same frame as the server's decoder writes it. -/
def DecodedFrame.toFrame (f : DecodedFrame) : Frame :=
  ⟨f.totalLength, f.msgID, f.flags, f.sequence, f.payload⟩

inductive ReadError
  /-- The error of `conn.Read`. -/
  | conn
  /-- `invalid total_length: %d` -/
  | invalidTotalLength (totalLen : UInt32)
  deriving DecidableEq, Repr

structure FrameReader where
  buf : List UInt8 := []
  deriving DecidableEq, Repr

/-- The loop `for short(len(r.buf)) { .. }`: whether it ended without an error,
the bytes read so far, and what is left of the connection. -/
def fill (short : ℕ → Bool) : List UInt8 → List Chunk → Bool × List UInt8 × List Chunk
  | buf, [] => (!short buf.length, buf, [])
  | buf, chunk :: conn =>
      if short buf.length then fill short (buf ++ chunk.bytes) conn else (true, buf, chunk :: conn)

/-- `ReadFrame`: the result, the reader after it, and the rest of the connection. -/
def FrameReader.readFrame (r : FrameReader) (conn : List Chunk) :
    Except ReadError DecodedFrame × FrameReader × List Chunk :=
  match fill (fun n => decide (n < frameHeaderSize)) r.buf conn with
  | (false, buf, conn) => (.error .conn, ⟨buf⟩, conn)
  | (true, buf, conn) =>
      let totalLen := UInt32.ofNat (field buf 0 4)
      let msgID := UInt32.ofNat (field buf 4 4)
      let flags := UInt16.ofNat (field buf 8 2)
      let seq := UInt64.ofNat (field buf 10 8)
      if totalLen.toNat < frameHeaderSize ∨ frameHeaderSize + maxPayload < totalLen.toNat then
        (.error (.invalidTotalLength totalLen), ⟨buf⟩, conn)
      else
        match fill (fun n => decide (UInt32.ofNat n < totalLen)) buf conn with
        | (false, buf, conn) => (.error .conn, ⟨buf⟩, conn)
        | (true, buf, conn) =>
            let payload := (buf.take totalLen.toNat).drop frameHeaderSize
            (.ok ⟨totalLen, msgID, flags, seq, payload⟩, ⟨buf.drop totalLen.toNat⟩, conn)

/-! ### What the two loops do -/

/-- A loop moves bytes from the connection to the reader, until it has enough
or the connection has no more. -/
theorem fill_spec {short : ℕ → Bool} {buf buf' : List UInt8} {conn conn' : List Chunk} {ok : Bool}
    (h : fill short buf conn = (ok, buf', conn')) :
    buf' ++ Chunk.stream conn' = buf ++ Chunk.stream conn ∧ short buf'.length = !ok ∧
      (ok = false → conn' = []) := by
  induction conn generalizing buf with
  | nil =>
    obtain ⟨rfl, rfl, rfl⟩ : (!short buf.length) = ok ∧ buf = buf' ∧ [] = conn' := by
      simpa [fill] using h
    exact ⟨rfl, by simp, fun _ => rfl⟩
  | cons chunk conn ih =>
    rw [fill] at h
    split at h
    · obtain ⟨hstream, hrest⟩ := ih h
      refine ⟨?_, hrest⟩
      rw [hstream, Chunk.stream_cons, List.append_assoc]
    · rename_i hs
      obtain ⟨rfl, rfl, rfl⟩ : true = ok ∧ buf = buf' ∧ chunk :: conn = conn' := by
        simpa using h
      exact ⟨rfl, by simpa using hs, fun hok => nomatch hok⟩

/-- A loop that asks for more only where another chunk fits keeps the bound. -/
theorem fill_le {short : ℕ → Bool} {buf buf' : List UInt8} {conn conn' : List Chunk} {ok : Bool}
    {bound : ℕ} (hshort : ∀ n ≤ bound, short n = true → n + 4096 ≤ bound)
    (hbuf : buf.length ≤ bound) (h : fill short buf conn = (ok, buf', conn')) :
    buf'.length ≤ bound := by
  induction conn generalizing buf with
  | nil =>
    obtain ⟨-, rfl, -⟩ : (!short buf.length) = ok ∧ buf = buf' ∧ [] = conn' := by
      simpa [fill] using h
    exact hbuf
  | cons chunk conn ih =>
    rw [fill] at h
    split at h
    · rename_i hs
      have hroom := hshort _ hbuf hs
      have hchunk := chunk.length_le
      apply ih _ h
      rw [List.length_append]
      omega
    · obtain ⟨-, rfl, -⟩ : true = ok ∧ buf = buf' ∧ chunk :: conn = conn' := by
        simpa using h
      exact hbuf

/-! ### The header in the reader and in the stream -/

theorem field_append {buf : List UInt8} (more : List UInt8) {off w : ℕ}
    (h : off + w ≤ buf.length) : field (buf ++ more) off w = field buf off w := by
  rw [field, field, List.drop_append_of_le_length (by omega),
    List.take_append_of_le_length (by rw [List.length_drop]; omega)]

/-- `binary.BigEndian.Uint64` reads what `parseHeader` puts together from two halves. -/
theorem field_seq {buf : List UInt8} (h : 18 ≤ buf.length) :
    field buf 10 8 = field buf 10 4 <<< 32 ||| field buf 14 4 := by
  have hcut : (buf.drop 10).take 8 = (buf.drop 10).take 4 ++ (buf.drop 14).take 4 := by
    rw [show (8 : ℕ) = 4 + 4 from rfl, List.take_add, List.drop_drop]
  have hlen : ((buf.drop 14).take 4).length = 4 := by
    simp only [List.length_take, List.length_drop]
    omega
  have hlt : field buf 14 4 < 2 ^ 32 := by
    have := ofBE_lt ((buf.drop 14).take 4)
    rwa [hlen] at this
  rw [← Nat.shiftLeft_add_eq_or_of_lt hlt, Nat.shiftLeft_eq, field, hcut, ofBE_append, hlen]
  rfl

/-- The header the reader looks at is the one `parseHeader` finds in the stream. -/
theorem parseHeader_append {buf : List UInt8} (more : List UInt8) (h : 18 ≤ buf.length) :
    parseHeader (buf ++ more) = (UInt32.ofNat (field buf 0 4), UInt32.ofNat (field buf 4 4),
      UInt16.ofNat (field buf 8 2), UInt64.ofNat (field buf 10 8)) := by
  rw [parseHeader, field_append more (by omega), field_append more (by omega),
    field_append more (by omega), field_append more (by omega), field_append more (by omega),
    field_seq h]

/-! ### One frame -/

/-- No loop of `ReadFrame` holds more than this: a packet and one chunk. -/
def readerBound : ℕ := 18 + 64 * 1024 + 4096

/-- Up to `readerBound` the comparison of the second loop does not wrap. -/
theorem ofNat_lt_iff {n : ℕ} (hn : n ≤ readerBound) (totalLen : UInt32) :
    UInt32.ofNat n < totalLen ↔ n < totalLen.toNat := by
  have hsmall : n < UInt32.size := by
    simp only [readerBound] at hn
    simp only [UInt32.size]
    omega
  have hnat : (UInt32.ofNat n).toNat = n := UInt32.toNat_ofNat_of_lt hsmall
  rw [UInt32.lt_iff_toNat_lt, hnat]

/-- While a header is incomplete, one more read stays within the bound. -/
theorem header_fits : ∀ n ≤ readerBound, decide (n < frameHeaderSize) = true →
    n + 4096 ≤ readerBound := by
  intro n _ hn
  have := of_decide_eq_true hn
  simp only [frameHeaderSize, readerBound] at *
  omega

/-- While a frame of an allowed length is incomplete, one more read stays within
the bound. -/
theorem body_fits {totalLen : UInt32} (hle : totalLen.toNat ≤ kHeaderSize + kMaxPayload) :
    ∀ n ≤ readerBound, decide (UInt32.ofNat n < totalLen) = true → n + 4096 ≤ readerBound := by
  intro n hn hlt
  have := (ofNat_lt_iff hn totalLen).mp (of_decide_eq_true hlt)
  simp only [kHeaderSize, kMaxPayload, readerBound] at *
  omega

/-- **One `ReadFrame`** is one scan of everything the reader and the
connection still have. -/
theorem readFrame_spec {r : FrameReader} {conn : List Chunk} (hr : r.buf.length ≤ readerBound) :
    match scan (r.buf ++ Chunk.stream conn) with
    | .error _ => ∃ n r' conn', r.readFrame conn = (.error (.invalidTotalLength n), r', conn') ∧
        r'.buf ++ Chunk.stream conn' = r.buf ++ Chunk.stream conn
    | .ok none => ∃ r' conn', r.readFrame conn = (.error .conn, r', conn') ∧
        r'.buf ++ Chunk.stream conn' = r.buf ++ Chunk.stream conn
    | .ok (some (f, rest)) => ∃ g r' conn', r.readFrame conn = (.ok g, r', conn') ∧
        g.toFrame = f ∧ r'.buf ++ Chunk.stream conn' = rest ∧ r'.buf.length ≤ readerBound := by
  rcases hfill : fill (fun n => decide (n < frameHeaderSize)) r.buf conn with ⟨ok, buf, conn₁⟩
  obtain ⟨hstream, hok, hend⟩ := fill_spec hfill
  have hle := fill_le header_fits hr hfill
  rw [← hstream, FrameReader.readFrame, hfill]
  cases ok with
  | false =>
    -- the connection ends inside a header
    obtain rfl := hend rfl
    have hshort : buf.length < kHeaderSize := of_decide_eq_true hok
    rw [Chunk.stream_nil, List.append_nil, scan, if_pos hshort]
    exact ⟨⟨buf⟩, [], rfl, List.append_nil _⟩
  | true =>
    have hhead : 18 ≤ buf.length := Nat.le_of_not_lt (of_decide_eq_false hok)
    have hlong : ¬ (buf ++ Chunk.stream conn₁).length < kHeaderSize := by
      rw [List.length_append, kHeaderSize]
      omega
    rw [scan, if_neg hlong, parseHeader_append _ hhead]
    simp only [frameHeaderSize_eq, maxPayload_eq]
    generalize UInt32.ofNat (field buf 0 4) = totalLen
    by_cases h1 : totalLen.toNat < kHeaderSize
    · rw [if_pos h1]
      exact ⟨totalLen, ⟨buf⟩, conn₁, if_pos (Or.inl h1), rfl⟩
    by_cases h2 : kHeaderSize + kMaxPayload < totalLen.toNat
    · rw [if_neg h1, if_pos h2]
      exact ⟨totalLen, ⟨buf⟩, conn₁, if_pos (Or.inr h2), rfl⟩
    simp only [h1, h2, or_self, if_false]
    rcases hfill₂ : fill (fun n => decide (UInt32.ofNat n < totalLen)) buf conn₁ with
      ⟨ok₂, buf₂, conn₂⟩
    obtain ⟨hstream₂, hok₂, hend₂⟩ := fill_spec hfill₂
    have hle₂ := fill_le (body_fits (Nat.le_of_not_lt h2)) hle hfill₂
    rw [← hstream₂]
    cases ok₂ with
    | false =>
      -- the connection ends inside a frame
      obtain rfl := hend₂ rfl
      have hshort := (ofNat_lt_iff hle₂ totalLen).mp (of_decide_eq_true hok₂)
      rw [Chunk.stream_nil, List.append_nil, if_pos hshort]
      exact ⟨⟨buf₂⟩, [], rfl, List.append_nil _⟩
    | true =>
      have hall : totalLen.toNat ≤ buf₂.length := by
        have := of_decide_eq_false hok₂
        rw [ofNat_lt_iff hle₂] at this
        omega
      have hfull : ¬ (buf₂ ++ Chunk.stream conn₂).length < totalLen.toNat := by
        rw [List.length_append]
        omega
      rw [if_neg hfull]
      refine ⟨_, ⟨buf₂.drop totalLen.toNat⟩, conn₂, rfl, ?_, ?_, ?_⟩
      · rw [DecodedFrame.toFrame, List.drop_take, List.drop_append_of_le_length (by omega),
          List.take_append_of_le_length (by rw [List.length_drop]; omega)]
      · rw [List.drop_append_of_le_length hall]
      · rw [List.length_drop]
        omega

/-! ### All frames -/

/-- A returned frame takes at least its header off the stream. -/
theorem readFrame_lt {r r' : FrameReader} {conn conn' : List Chunk} {f : DecodedFrame}
    (h : r.readFrame conn = (.ok f, r', conn')) :
    (r'.buf ++ Chunk.stream conn').length < (r.buf ++ Chunk.stream conn).length := by
  rcases hfill : fill (fun n => decide (n < frameHeaderSize)) r.buf conn with ⟨ok, buf, conn₁⟩
  rw [FrameReader.readFrame, hfill] at h
  rw [← (fill_spec hfill).1]
  cases ok with
  | false => cases h
  | true =>
    dsimp only at h
    split at h
    · cases h
    rename_i hvalid
    generalize UInt32.ofNat (field buf 0 4) = totalLen at h hvalid
    rcases hfill₂ : fill (fun n => decide (UInt32.ofNat n < totalLen)) buf conn₁ with
      ⟨ok₂, buf₂, conn₂⟩
    rw [hfill₂] at h
    obtain ⟨hstream₂, hok₂, -⟩ := fill_spec hfill₂
    rw [← hstream₂]
    cases ok₂ with
    | false => cases h
    | true =>
      obtain ⟨-, rfl, rfl⟩ : _ ∧ (⟨buf₂.drop totalLen.toNat⟩ : FrameReader) = r' ∧
          conn₂ = conn' := by simpa using h
      have hlen : totalLen.toNat ≤ buf₂.length := by
        have hcmp := of_decide_eq_false hok₂
        rw [UInt32.lt_iff_toNat_lt, Nat.not_lt] at hcmp
        exact hcmp.trans (Nat.mod_le _ _)
      simp only [frameHeaderSize] at hvalid
      rw [List.length_append, List.length_append, List.length_drop]
      omega

set_option linter.unusedVariables false in
/-- `ReadFrame` until its first error: the frames, the error, and what the
reader and the connection have then. -/
def readFrames (r : FrameReader) (conn : List Chunk) :
    List DecodedFrame × ReadError × FrameReader × List Chunk :=
  match h : r.readFrame conn with
  | (.error e, r', conn') => ([], e, r', conn')
  | (.ok f, r', conn') =>
      let p := readFrames r' conn'
      (f :: p.1, p.2)
termination_by (r.buf ++ Chunk.stream conn).length
decreasing_by exact readFrame_lt h

set_option linter.unusedVariables false in
/-- `FrameCodec::decode` until it returns no frame: the frames, what it threw
if it did, and the buffer it left. -/
def decodeAll (b : Buffer) : List Frame × Option String × Buffer :=
  match h : decode b with
  | .error e => ([], some e, b)
  | .ok (none, b') => ([], none, b')
  | .ok (some f, b') =>
      let p := decodeAll b'
      (f :: p.1, p.2)
termination_by b.readable
decreasing_by exact Connection.readable_decode_lt h

theorem readFrames_error {r r' : FrameReader} {conn conn' : List Chunk} {e : ReadError}
    (h : r.readFrame conn = (.error e, r', conn')) : readFrames r conn = ([], e, r', conn') := by
  rw [readFrames]
  split
  · rename_i h'
    cases h.symm.trans h'
    rfl
  · rename_i h'
    cases h.symm.trans h'

theorem readFrames_ok {r r' : FrameReader} {conn conn' : List Chunk} {f : DecodedFrame}
    (h : r.readFrame conn = (.ok f, r', conn')) :
    readFrames r conn = (f :: (readFrames r' conn').1, (readFrames r' conn').2) := by
  rw [readFrames]
  split
  · rename_i h'
    cases h.symm.trans h'
  · rename_i h'
    cases h.symm.trans h'
    rfl

theorem decodeAll_error {b : Buffer} {e : String} (h : decode b = .error e) :
    decodeAll b = ([], some e, b) := by
  rw [decodeAll]
  split
  · rename_i h'
    cases h.symm.trans h'
    rfl
  · rename_i h'
    cases h.symm.trans h'
  · rename_i h'
    cases h.symm.trans h'

theorem decodeAll_none {b b' : Buffer} (h : decode b = .ok (none, b')) :
    decodeAll b = ([], none, b') := by
  rw [decodeAll]
  split
  · rename_i h'
    cases h.symm.trans h'
  · rename_i h'
    cases h.symm.trans h'
    rfl
  · rename_i h'
    cases h.symm.trans h'

theorem decodeAll_some {b b' : Buffer} {f : Frame} (h : decode b = .ok (some f, b')) :
    decodeAll b = (f :: (decodeAll b').1, (decodeAll b').2) := by
  rw [decodeAll]
  split
  · rename_i h'
    cases h.symm.trans h'
  · rename_i h'
    cases h.symm.trans h'
  · rename_i h'
    cases h.symm.trans h'
    rfl

/-- What the reader returns on a stream, against what the decoder does on it:
the same frames, an invalid length for a throw, and the same bytes unread. -/
structure Agree (p : List DecodedFrame × ReadError × FrameReader × List Chunk)
    (q : List Frame × Option String × Buffer) : Prop where
  frames : p.1.map DecodedFrame.toFrame = q.1
  stops : (∃ n, p.2.1 = .invalidTotalLength n) ↔ ∃ e, q.2.1 = some e
  offset : p.2.2.1.buf ++ Chunk.stream p.2.2.2 = q.2.2.unread

/-- `decode_eq_scan`, read from the side of `decode`. -/
theorem scan_of_decode {b : Buffer} (hb : b.WF) :
    match decode b with
    | .error e => scan b.unread = .error e
    | .ok (none, b') => scan b.unread = .ok none ∧ b' = b
    | .ok (some f, b') => scan b.unread = .ok (some (f, b'.unread)) ∧ b'.WF := by
  have hscan := decode_eq_scan hb
  rcases hs : scan b.unread with e | (- | ⟨f, rest⟩)
  · rw [hs] at hscan
    rw [hscan]
  · rw [hs] at hscan
    rw [hscan]
    exact ⟨rfl, rfl⟩
  · rw [hs] at hscan
    obtain ⟨b', hb', hwf, rfl, -⟩ := hscan
    rw [hb']
    exact ⟨rfl, hwf⟩

/-- **Agreement**, along the decoder's run; between two frames both sides
have the same bytes ahead of them. -/
theorem agree_from {b : Buffer} {r : FrameReader} {conn : List Chunk} (hb : b.WF)
    (hr : r.buf.length ≤ readerBound) (hun : b.unread = r.buf ++ Chunk.stream conn) :
    Agree (readFrames r conn) (decodeAll b) := by
  have hread := @readFrame_spec r conn hr
  have hscan := scan_of_decode hb
  induction b using decodeAll.induct generalizing r conn with
  | case1 b e h =>
    rw [h] at hscan
    rw [← hun, hscan] at hread
    obtain ⟨n, r', conn', hgo, hrest⟩ := hread
    rw [readFrames_error hgo, decodeAll_error h]
    refine ⟨rfl, ?_, hrest⟩
    simp
  | case2 b b' h =>
    rw [h] at hscan
    obtain ⟨hnone, rfl⟩ := hscan
    rw [← hun, hnone] at hread
    obtain ⟨r', conn', hgo, hrest⟩ := hread
    rw [readFrames_error hgo, decodeAll_none h]
    refine ⟨rfl, ?_, hrest⟩
    simp
  | case3 b f b' h ih =>
    rw [h] at hscan
    obtain ⟨hsome, hb'⟩ := hscan
    rw [← hun, hsome] at hread
    obtain ⟨g, r', conn', hgo, hg, hrest, hr'⟩ := hread
    obtain ⟨hframes, hstops, hoffset⟩ :=
      ih hb' hr' hrest.symm (readFrame_spec hr') (scan_of_decode hb')
    rw [readFrames_ok hgo, decodeAll_some h]
    refine ⟨?_, hstops, hoffset⟩
    rw [List.map_cons, hg, hframes]

/-! ### Both encoders -/

theorem poke_at_end {front rest data : List UInt8} {pos : ℕ} (hpos : front.length = pos) :
    Buffer.poke (front ++ rest) pos data = (front ++ data) ++ rest.drop data.length := by
  subst hpos
  rw [Buffer.poke, List.take_left, ← List.drop_drop, List.drop_left]

/-- The sequence as one field of 8 bytes, or as two of 4. -/
theorem toBE_seq (seq : UInt64) :
    toBE 8 seq.toNat = toBE 4 (seq.toNat >>> 32) ++ toBE 4 (seq.toNat &&& 0xFFFFFFFF) := by
  have hlow : seq.toNat &&& 0xFFFFFFFF = seq.toNat % 2 ^ 32 :=
    Nat.and_two_pow_sub_one_eq_mod seq.toNat 32
  rw [show (8 : ℕ) = 4 + 4 from rfl, toBE_add, Nat.shiftRight_eq_div_pow, hlow]
  congr 1
  apply toBE_congr
  exact (Nat.mod_mod _ _).symm

theorem encodeFrame_eq (msgID : UInt32) (flags : UInt16) (seq : UInt64) {payload : List UInt8}
    (h : payload.length ≤ maxPayload) :
    encodeFrame msgID flags seq payload = encode msgID flags seq payload := by
  have hsmall : frameHeaderSize + payload.length < UInt32.size := by
    simp only [frameHeaderSize, maxPayload, UInt32.size] at *
    omega
  have htotal : (UInt32.ofNat (frameHeaderSize + payload.length)).toNat
      = frameHeaderSize + payload.length := UInt32.toNat_ofNat_of_lt hsmall
  rw [encodeFrame, encode, if_neg (Nat.not_lt.mpr h),
    if_neg (Nat.not_lt.mpr (maxPayload_eq ▸ h))]
  dsimp only
  rw [← frameHeaderSize_eq, writeHeader, htotal]
  generalize hzero : List.replicate (frameHeaderSize + payload.length) (0 : UInt8) = zeros
  have hlen : zeros.length = 18 + payload.length := by
    rw [← hzero, List.length_replicate]
    rfl
  -- the slice is filled from the left, field by field, and has no byte left over
  rw [← List.nil_append zeros, poke_at_end List.length_nil, poke_at_end (by simp),
    poke_at_end (by simp), poke_at_end (by simp), poke_at_end (by simp)]
  have hend : zeros.drop (4 + (4 + (2 + (8 + payload.length)))) = [] := by
    rw [List.drop_eq_nil_iff]
    omega
  simp only [length_toBE, List.drop_drop, Nat.add_assoc] at hend ⊢
  rw [hend, toBE_seq]
  simp only [List.append_assoc, List.nil_append, List.append_nil]

/-- **The two framings agree**: on every stream, however it is cut, the reader
returns the frames the decoder returns and stops where it stops; and the two
encoders fail on the same arguments and otherwise write the same bytes. -/
theorem framing_agrees {b : Buffer} (hb : b.WF) {conn : List Chunk}
    (hun : b.unread = Chunk.stream conn) :
    Agree (readFrames {} conn) (decodeAll b) ∧
      ∀ msgID flags seq payload,
        ((∃ e, encodeFrame msgID flags seq payload = .error e) ↔
          ∃ e, encode msgID flags seq payload = .error e) ∧
        ∀ data, encodeFrame msgID flags seq payload = .ok data ↔
          encode msgID flags seq payload = .ok data := by
  refine ⟨agree_from hb (Nat.zero_le _) hun, ?_⟩
  intro msgID flags seq payload
  by_cases h : payload.length ≤ maxPayload
  · rw [encodeFrame_eq msgID flags seq h]
    exact ⟨Iff.rfl, fun _ => Iff.rfl⟩
  · have hlong := Nat.lt_of_not_le h
    have hlong' : kMaxPayload < payload.length := hlong
    rw [encodeFrame, encode, if_pos hlong, if_pos hlong']
    simp

/-- A frame cut in its header, and an invalid length behind it. -/
theorem framing_agrees_twoChunks :
    Agree (readFrames {} [⟨[0, 0, 0], by decide⟩, ⟨19 :: List.replicate 14 0 ++ [7] ++
        List.replicate 18 0, by decide⟩])
      (decodeAll ⟨[0, 0, 0, 19] ++ List.replicate 14 0 ++ [7] ++ List.replicate 18 0, 0, 37⟩) :=
  (framing_agrees ⟨by decide, by decide, by decide⟩ (by decide)).1

end Robot

end MiniArena
