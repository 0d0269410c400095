/-
MiniArena/Receive.lean

The receive path end to end: a fresh connection, fed the encodings of a list
of frames in arbitrary pieces by successive `::read` calls.

`Receiving` is the invariant between two `onReadable` calls: the pending
bytes are a half packet, no header was ever invalid, and the receive buffer
is small enough that growing it ends.  The connection's state is no part of
it: a read makes every connection `active`.  One call is one `Framing.Drains`
(`onReadable_data`), the sequence of calls is a `Framing.Feeds`
(`receive_feeds`), and `Framing.feeds_exact` gives the frames.
-/
import MiniArena.Connection

namespace MiniArena

open FrameCodec WireFrame

/-! ### Half packets -/

theorem length_lt_of_scan_none {bs : List UInt8} (h : scan bs = .ok none) :
    bs.length < kHeaderSize + kMaxPayload := by
  unfold scan at h
  rcases hp : parseHeader bs with ⟨totalLength, msgId, flags, seq⟩
  rw [hp] at h
  dsimp only at h
  split at h
  · rename_i hlt
    simp only [kHeaderSize, kMaxPayload] at *
    omega
  split at h
  · cases h
  split at h
  · cases h
  split at h
  · omega
  · cases h

/-- What stays pending of a well-formed stream is a half packet, not an
invalid header. -/
theorem scan_none_of_pending {bs rest : List UInt8} {fs : List WireFrame}
    (h : bs ++ rest = framing.encodeAll fs) (hs : framing.scan bs = none) :
    scan bs = .ok none := by
  cases fs with
  | nil =>
    obtain ⟨rfl, -⟩ : bs = [] ∧ rest = [] := by simpa using h
    simp [scan, kHeaderSize]
  | cons f fs =>
    rw [Framing.encodeAll_cons, List.append_eq_append_iff] at h
    rcases h with ⟨as, hf, -⟩ | ⟨cs, rfl, -⟩
    · by_cases has : as = []
      · subst has
        rw [List.append_nil] at hf
        have := framing.scan_encode f []
        rw [List.append_nil, hf, hs] at this
        cases this
      · exact WireFrame.scan_incomplete f hf has
    · rw [framing.scan_encode] at hs
      cases hs

namespace Connection

variable {c : Connection}

/-- The decode loop is the inner loop of the code on the unread bytes. -/
theorem decodeLoop_of_drains {bs rest : List UInt8} {fs : List WireFrame}
    (hd : framing.Drains bs fs rest) (hrest : scan rest = .ok none)
    (hwf : c.recvBuf.WF) (hbs : c.recvBuf.unread = bs) :
    ∃ b, c.decodeLoop = ({ c with recvBuf := b }, fs.map toFrame) ∧ b.WF ∧ b.unread = rest ∧
      b.buf.length = c.recvBuf.buf.length := by
  induction hd generalizing c with
  | stop _ =>
    have hdec := decode_eq_scan hwf
    rw [hbs, hrest] at hdec
    exact ⟨c.recvBuf, decodeLoop_none hdec, hwf, hbs, rfl⟩
  | @next bs f bs' fs rest hscan _ ih =>
    have hdec := decode_eq_scan hwf
    rw [hbs, scan_of_framing_scan hscan] at hdec
    obtain ⟨b', hdec, hwf', hun', hcap'⟩ := hdec
    obtain ⟨b, hloop, hwfb, hunb, hcapb⟩ := ih hrest (c := { c with recvBuf := b' }) hwf' hun'
    refine ⟨b, ?_, hwfb, hunb, hcapb.trans hcap'⟩
    rw [decodeLoop_some hdec, hloop]
    rfl

/-! ### The invariant between two reads -/

/-- Capacities that growing for one more read never leaves. -/
def recvCapacityBound : ℕ := 2 ^ 18

structure Receiving (c : Connection) : Prop where
  wf : c.recvBuf.WF
  capacity_le : c.recvBuf.buf.length ≤ recvCapacityBound
  half : scan c.recvBuf.unread = .ok none
  no_illegal : c.illegalCount = 0

/-- The writable space `readFromFd` hands to `::read`. -/
def offered (c : Connection) : ℕ := ((c.recvBuf.ensureWrite 4096).map Buffer.writable).getD 0

/-- The constructor: `c.recvBuf` and `c.sendBuf` are new buffers of 4096 bytes. -/
def fresh (id : ConnectionId) (fd : Fd) (nowMs : UInt64) : Connection :=
  { id := id, fd := fd, lastActiveMs := nowMs }

theorem receiving_fresh (id : ConnectionId) (fd : Fd) (nowMs : UInt64) :
    Receiving (fresh id fd nowMs) where
  wf := Buffer.wf_ofInitial 4096
  capacity_le := by
    show (List.replicate (max 4096 64) (0 : UInt8)).length ≤ 2 ^ 18
    rw [List.length_replicate]
    norm_num
  half := by
    show scan (Buffer.ofInitial 4096).unread = .ok none
    rw [Buffer.unread_ofInitial]
    rfl
  no_illegal := rfl

/-- The first bytes a new connection is given to send. -/
theorem sendRaw_fresh (id : ConnectionId) (fd : Fd) (nowMs : UInt64) {data : List UInt8}
    (hdata : data.length ≤ kSendQueueMax) :
    ∃ b, (fresh id fd nowMs).sendRaw data = some { fresh id fd nowMs with sendBuf := b } ∧
      b.WF ∧ b.unread = data := by
  have hwf : (fresh id fd nowMs).sendBuf.WF := Buffer.wf_ofInitial 4096
  have hzero : (fresh id fd nowMs).sendBuf.readable = 0 := rfl
  have hcap : (fresh id fd nowMs).sendBuf.buf.length < 2 ^ 63 := by
    show (List.replicate (max 4096 64) (0 : UInt8)).length < 2 ^ 63
    rw [List.length_replicate]
    norm_num
  have hroom : ¬ kSendQueueMax < (fresh id fd nowMs).sendBuf.readable + data.length := by
    rw [hzero]
    omega
  obtain ⟨b, hwrite, hb, hun, -⟩ := Buffer.write_spec hwf data hcap (by
    rw [hzero]
    simp only [kSendQueueMax] at hdata
    omega)
  refine ⟨b, ?_, hb, hun.trans ?_⟩
  · rw [sendRaw, if_pos (show (fresh id fd nowMs).canSend = true from rfl), if_neg hroom, hwrite]
    rfl
  · rw [show (fresh id fd nowMs).sendBuf.unread = [] from Buffer.unread_ofInitial 4096,
      List.nil_append]

/-- **One read.**  On a part of a well-formed stream, `onReadable` drains the
pending bytes and keeps the invariant. -/
theorem onReadable_data (hc : Receiving c) {bytes rest : List UInt8} {fs : List WireFrame}
    (nowMs : UInt64) (hfit : bytes.length ≤ c.offered)
    (h : (c.recvBuf.unread ++ bytes) ++ rest = framing.encodeAll fs) :
    ∃ c' ys zs, c.onReadable (.data bytes) nowMs = some (c', ys.map toFrame) ∧
      fs = ys ++ zs ∧ framing.Drains (c.recvBuf.unread ++ bytes) ys c'.recvBuf.unread ∧
      c'.recvBuf.unread ++ rest = framing.encodeAll zs ∧ Receiving c' ∧ c'.state = .active := by
  have hshort := length_lt_of_scan_none hc.half
  rw [hc.wf.length_unread] at hshort
  have hcap := hc.capacity_le
  simp only [kHeaderSize, kMaxPayload, recvCapacityBound] at hshort hcap
  obtain ⟨b₁, hb₁, hwf₁, hun₁, hroom, hgrow⟩ :=
    Buffer.ensureWrite_spec hc.wf 4096 (by omega) (by omega)
  have hfit₁ : bytes.length ≤ b₁.writable := by simpa [offered, hb₁] using hfit
  obtain ⟨hwf₂, hun₂, hcap₂⟩ := Buffer.append_spec hwf₁ hfit₁
  obtain ⟨ys, zs, bs', hfs, hd, hz⟩ := framing.drains_initial h
  have hhalf : scan bs' = .ok none := scan_none_of_pending hz (hd.scan_rest framing)
  -- the connection the decode loop starts from
  let c₁ : Connection := ({ c with recvBuf :=
    { b₁ with buf := Buffer.poke b₁.buf b₁.writeIdx bytes,
              writeIdx := b₁.writeIdx + bytes.length } }).updateActive nowMs
  have hun : c₁.recvBuf.unread = c.recvBuf.unread ++ bytes := by
    rw [← hun₁]; exact hun₂
  obtain ⟨b, hloop, hwfb, hunb, hcapb⟩ := decodeLoop_of_drains (c := c₁) hd hhalf hwf₂ hun
  have hread : c.onReadable (.data bytes) nowMs = some c₁.decodeLoop := by
    have hspace : b₁.writable ≠ 0 := by omega
    simp [onReadable, Buffer.readFromFd, hb₁, hspace, c₁]
  refine ⟨{ c₁ with recvBuf := b }, ys, zs, by rw [hread, hloop], hfs, ?_, ?_, ?_, rfl⟩
  · show framing.Drains _ ys b.unread
    rw [hunb]
    exact hd
  · show b.unread ++ rest = _
    rw [hunb]
    exact hz
  · refine ⟨hwfb, ?_, ?_, hc.no_illegal⟩
    · show b.buf.length ≤ 2 ^ 18
      have hlen : b.buf.length = b₁.buf.length := hcapb.trans hcap₂
      omega
    · show scan b.unread = .ok none
      rw [hunb]
      exact hhalf

end Connection

/-! ### A sequence of reads -/

/-- One successful `::read`: its bytes, and the clock `onReadable` reads. -/
structure SocketRead where
  bytes : List UInt8
  nowMs : UInt64
  deriving DecidableEq, Repr

namespace Connection

/-- Successive `onReadable` calls: the connection after each call and the
frames the call returns. -/
def receive : Connection → List SocketRead → Option (List (Connection × List Frame))
  | _, [] => some []
  | c, r :: rs =>
      (c.onReadable (.data r.bytes) r.nowMs).bind fun p =>
        (receive p.1 rs).map fun ps => p :: ps

/-- Each read returns between 1 and the offered number of bytes. -/
def ReadsFit : Connection → List SocketRead → Prop
  | _, [] => True
  | c, r :: rs => 0 < r.bytes.length ∧ r.bytes.length ≤ c.offered ∧
      ∀ p, c.onReadable (.data r.bytes) r.nowMs = some p → ReadsFit p.1 rs

/-- The connection after the last call. -/
def afterAll : Connection → List (Connection × List Frame) → Connection
  | c, [] => c
  | _, p :: trace => afterAll p.1 trace

theorem receive_feeds {c : Connection} {reads : List SocketRead} {fs : List WireFrame}
    (hc : Receiving c) (hfit : ReadsFit c reads)
    (h : c.recvBuf.unread ++ (reads.map SocketRead.bytes).flatten = framing.encodeAll fs) :
    ∃ trace fss, c.receive reads = some trace ∧
      trace.map Prod.snd = fss.map (List.map toFrame) ∧
      framing.Feeds c.recvBuf.unread (reads.map SocketRead.bytes) fss
        (afterAll c trace).recvBuf.unread ∧
      (afterAll c trace).Receiving ∧
      ∀ p ∈ trace, p.1.illegalCount = 0 ∧ p.1.state = .active := by
  induction reads generalizing c fs with
  | nil => exact ⟨[], [], rfl, rfl, .nil, hc, by simp⟩
  | cons r rs ih =>
    obtain ⟨-, hle, hnext⟩ := hfit
    have h' : (c.recvBuf.unread ++ r.bytes) ++ (rs.map SocketRead.bytes).flatten
        = framing.encodeAll fs := by simpa using h
    obtain ⟨c', ys, zs, hread, -, hd, hz, hc', hact⟩ := onReadable_data hc r.nowMs hle h'
    obtain ⟨trace, fss, hrec, hframes, hfeeds, hlast, hall⟩ := ih hc' (hnext _ hread) hz
    refine ⟨(c', ys.map toFrame) :: trace, ys :: fss, ?_, ?_, ?_, ?_, ?_⟩
    · simp [receive, hread, hrec]
    · simp [hframes]
    · exact .cons hd hfeeds
    · exact hlast
    · intro p hp
      rcases List.mem_cons.mp hp with rfl | hp
      · exact ⟨hc'.no_illegal, hact⟩
      · exact hall p hp

/-- A connection between two reads always offers 4096 bytes. -/
theorem offered_of_receiving {c : Connection} (hc : Receiving c) : 4096 ≤ c.offered := by
  have hshort := length_lt_of_scan_none hc.half
  rw [hc.wf.length_unread] at hshort
  have hcap := hc.capacity_le
  simp only [kHeaderSize, kMaxPayload, recvCapacityBound] at hshort hcap
  obtain ⟨b, hb, -, -, hroom, -⟩ :=
    Buffer.ensureWrite_spec hc.wf 4096 (by omega) (by omega)
  simpa [offered, hb] using hroom

/-- Pieces of at most 4096 bytes always fit. -/
theorem readsFit_of_le {c : Connection} {reads : List SocketRead} (fs : List WireFrame)
    (hc : Receiving c) (hle : ∀ r ∈ reads, 0 < r.bytes.length ∧ r.bytes.length ≤ 4096)
    (h : c.recvBuf.unread ++ (reads.map SocketRead.bytes).flatten = framing.encodeAll fs) :
    ReadsFit c reads := by
  induction reads generalizing c fs with
  | nil => trivial
  | cons r rs ih =>
    obtain ⟨hpos, hsmall⟩ := hle r List.mem_cons_self
    have hfit : r.bytes.length ≤ c.offered := hsmall.trans (offered_of_receiving hc)
    refine ⟨hpos, hfit, ?_⟩
    intro p hp
    have h' : (c.recvBuf.unread ++ r.bytes) ++ (rs.map SocketRead.bytes).flatten
        = framing.encodeAll fs := by simpa using h
    obtain ⟨c', ys, zs, hread, -, -, hz, hc', -⟩ := onReadable_data hc r.nowMs hfit h'
    obtain rfl := Option.some.inj (hread.symm.trans hp)
    exact ih zs hc' (fun q hq => hle q (List.mem_cons_of_mem _ hq)) hz

end Connection

/-- `FrameCodec::encode` on the fields of a frame that fits. -/
def WireFrame.encode (f : WireFrame) : Except String (List UInt8) :=
  FrameCodec.encode f.messageId f.flags f.sequence f.payload

theorem mapM_encode (fs : List WireFrame) :
    fs.mapM WireFrame.encode = .ok (fs.map WireFrame.bytes) := by
  induction fs with
  | nil => rfl
  | cons f fs ih =>
    rw [List.mapM_cons, ih]
    show (FrameCodec.encode _ _ _ _ >>= _) = _
    rw [encode_eq]
    rfl

/-- **Chunking never matters on the receive path.**  However the encodings of
`fs` are cut into reads, a fresh connection returns exactly the frames of
`fs` in order; no header counts as illegal, the connection stays active, and
nothing stays unread after the last piece. -/
theorem receive_exact (id : ConnectionId) (fd : Fd) (t₀ : UInt64) (fs : List WireFrame)
    (encodings : List (List UInt8)) (reads : List SocketRead)
    (henc : fs.mapM WireFrame.encode = .ok encodings)
    (hcut : (reads.map SocketRead.bytes).flatten = encodings.flatten)
    (hfit : (Connection.fresh id fd t₀).ReadsFit reads) :
    ∃ trace, (Connection.fresh id fd t₀).receive reads = some trace ∧
      (trace.map Prod.snd).flatten = fs.map WireFrame.toFrame ∧
      (∀ p ∈ trace, p.1.illegalCount = 0 ∧ p.1.state ≠ .closing) ∧
      ((Connection.fresh id fd t₀).afterAll trace).recvBuf.readable = 0 := by
  have hcut' : (Connection.fresh id fd t₀).recvBuf.unread
      ++ (reads.map SocketRead.bytes).flatten = framing.encodeAll fs := by
    rw [mapM_encode] at henc
    obtain rfl := Except.ok.inj henc
    have hnil : (Connection.fresh id fd t₀).recvBuf.unread = [] := Buffer.unread_ofInitial 4096
    rw [hcut, hnil, List.nil_append]
    rfl
  have hfresh := Connection.receiving_fresh id fd t₀
  obtain ⟨trace, fss, hrec, hframes, hfeeds, hlast, hall⟩ :=
    Connection.receive_feeds hfresh hfit hcut'
  have hpending : framing.scan (Connection.fresh id fd t₀).recvBuf.unread = none := by
    simp only [framing, hfresh.half]
  obtain ⟨hfs, hempty⟩ := framing.feeds_exact hfeeds hpending hcut'
  refine ⟨trace, hrec, ?_, ?_, ?_⟩
  · rw [hframes, ← List.map_flatten, hfs]
  · intro p hp
    obtain ⟨hill, hact⟩ := hall p hp
    exact ⟨hill, by rw [hact]; decide⟩
  · rw [← hlast.wf.length_unread, hempty]
    rfl

/-- A frame with the payload `move`, and two reads that cut it in its header. -/
def moveFrame : WireFrame := ⟨4001, 0, 1, [109, 111, 118, 101], by decide⟩

def moveReads : List SocketRead :=
  [⟨moveFrame.bytes.take 5, 10⟩, ⟨moveFrame.bytes.drop 5, 20⟩]

theorem receive_exact_moveReads :
    ∃ trace, (Connection.fresh 1 7 0).receive moveReads = some trace ∧
      (trace.map Prod.snd).flatten = [moveFrame].map WireFrame.toFrame ∧
      (∀ p ∈ trace, p.1.illegalCount = 0 ∧ p.1.state ≠ .closing) ∧
      ((Connection.fresh 1 7 0).afterAll trace).recvBuf.readable = 0 :=
  receive_exact 1 7 0 [moveFrame] [moveFrame.bytes] moveReads (mapM_encode [moveFrame]) rfl
    (Connection.readsFit_of_le [moveFrame] (Connection.receiving_fresh 1 7 0) (by decide)
      (by
        have hnil : (Connection.fresh 1 7 0).recvBuf.unread = [] := Buffer.unread_ofInitial 4096
        rw [hnil]
        rfl))

end MiniArena
