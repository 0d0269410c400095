/-
MiniArena/Connection.lean

One TCP connection (`network/connection.cpp`): the receive path with its
decode loop, the send queue, and the lifecycle

    CONNECTED --read--> ACTIVE --close--> CLOSING --(queue flushed)--> removed

Clock readings and the kernel's answers to `::read` and `::write` are
arguments.  An operation is partial only where growing a buffer need not
end; the decode loop itself is total, by the measure it is defined with: a
decoded frame shortens the unread bytes, a thrown header brings the
connection one step closer to the ban.
-/
import MiniArena.FrameCodec

namespace MiniArena

abbrev ConnectionId := UInt64
abbrev Fd := Int

def kSendQueueMax : ℕ := 256 * 1024
def kMaxIllegalCount : UInt32 := 10

inductive ConnectionState
  | connected
  | active
  | closing
  | closed
  deriving DecidableEq, Repr

structure Connection where
  id : ConnectionId
  fd : Fd
  state : ConnectionState := .connected
  recvBuf : Buffer := Buffer.ofInitial 4096
  sendBuf : Buffer := Buffer.ofInitial 4096
  lastActiveMs : UInt64
  illegalCount : UInt32 := 0
  deriving DecidableEq, Repr

namespace Connection

variable {c c' : Connection}

/-! ### Lifecycle and counters -/

def updateActive (c : Connection) (nowMs : UInt64) : Connection :=
  { c with lastActiveMs := nowMs, state := .active }

/-- The subtraction is on `uint64_t` and wraps. -/
def isTimeout (c : Connection) (nowMs timeoutMs : UInt64) : Bool :=
  decide (timeoutMs < nowMs - c.lastActiveMs)

def recordIllegal (c : Connection) : Connection :=
  { c with illegalCount := c.illegalCount + 1 }

def isBanned (c : Connection) : Bool := decide (kMaxIllegalCount ≤ c.illegalCount)

def close (c : Connection) : Connection :=
  if c.state = .closed ∨ c.state = .closing then c else { c with state := .closing }

def hasPendingWrites (c : Connection) : Bool := decide (0 < c.sendBuf.readable)

def shouldCleanup (c : Connection) : Bool :=
  decide (c.state = .closing ∧ c.sendBuf.readable = 0)

/-! ### Receiving -/

theorem readable_skip_lt (b : Buffer) (len : ℕ) (hlen : 0 < len) (h : len ≤ b.readable) :
    (b.skip len).readable < b.readable := by
  unfold Buffer.skip
  dsimp only
  split
  · rw [Buffer.readable_reset]
    omega
  · simp only [Buffer.readable] at *
    omega

theorem readable_read_le (b : Buffer) (len : ℕ) : (b.read len).1.readable ≤ b.readable := by
  unfold Buffer.read
  dsimp only
  split
  · rw [Buffer.readable_reset]
    omega
  · simp only [Buffer.readable]
    omega

/-- A decoded frame shortens what is unread. -/
theorem readable_decode_lt {b b' : Buffer} {f : Frame}
    (h : FrameCodec.decode b = .ok (some f, b')) : b'.readable < b.readable := by
  unfold FrameCodec.decode at h
  split at h
  · cases h
  rename_i hhead
  rcases hp : FrameCodec.parseHeader b.unread with ⟨totalLength, msgId, flags, seq⟩
  rw [hp] at h
  dsimp only at h
  have hskip := readable_skip_lt b kHeaderSize (by decide) (by omega)
  split at h
  · cases h
  split at h
  · cases h
  split at h
  · cases h
  split at h
  · obtain ⟨-, rfl⟩ := Prod.mk.injEq .. ▸ Except.ok.inj h
    exact lt_of_le_of_lt (readable_read_le _ _) hskip
  · obtain ⟨-, rfl⟩ := Prod.mk.injEq .. ▸ Except.ok.inj h
    exact hskip

/-- How many more headers may throw before the connection is banned.  The
counter is a `uint32_t`: from its last value it wraps to `0` first. -/
def throwsLeft (c : Connection) : ℕ :=
  if c.illegalCount.toNat = 2 ^ 32 - 1 then 11 else 10 - c.illegalCount.toNat

theorem throwsLeft_recordIllegal (h : c.recordIllegal.isBanned = false) :
    c.recordIllegal.throwsLeft < c.throwsLeft := by
  have hlt := c.illegalCount.toNat_lt
  have hban : (c.illegalCount.toNat + 1) % 2 ^ 32 < 10 := by
    simpa [isBanned, recordIllegal, kMaxIllegalCount, UInt32.le_iff_toNat_le] using h
  have hnext : c.recordIllegal.illegalCount.toNat = (c.illegalCount.toNat + 1) % 2 ^ 32 := by
    simp [recordIllegal]
  unfold throwsLeft
  rw [hnext]
  split <;> split <;> omega

set_option linter.unusedVariables false in
/-- The decode loop of `onReadable`. -/
def decodeLoop (c : Connection) : Connection × List Frame :=
  if c.recvBuf.readable < kHeaderSize then (c, [])
  else match h : FrameCodec.decode c.recvBuf with
    | .ok (none, _) => (c, [])  -- half packet
    | .ok (some f, b) =>
        let r := decodeLoop { c with recvBuf := b }
        (r.1, f :: r.2)
    | .error _ =>
        if hban : c.recordIllegal.isBanned then (c.recordIllegal.close, [])
        else decodeLoop c.recordIllegal
termination_by (c.recvBuf.readable, c.throwsLeft)
decreasing_by
  · exact Prod.Lex.left _ _ (readable_decode_lt h)
  · exact Prod.Lex.right _ (throwsLeft_recordIllegal (by simpa using hban))

/-- `onReadable`: the frames decoded from one `::read`. -/
def onReadable (c : Connection) (r : ReadResult) (nowMs : UInt64) :
    Option (Connection × List Frame) :=
  (c.recvBuf.readFromFd r).map fun (b, r) =>
    let c := { c with recvBuf := b }
    match r with
    | .eof => (c.close, [])
    | .again => (c, [])
    | .error => (c.close, [])
    | .data _ => (c.updateActive nowMs).decodeLoop

/-! ### Sending -/

def onWritable (c : Connection) (r : WriteResult) : Connection :=
  if c.sendBuf.readable = 0 then c
  else
    let (b, r) := c.sendBuf.writeToFd r
    let c := { c with sendBuf := b }
    if r = .error then c.close else c

/-- Both send functions refuse a connection that is closing. -/
def canSend (c : Connection) : Bool :=
  decide (c.state = .connected ∨ c.state = .active)

def sendRaw (c : Connection) (data : List UInt8) : Option Connection :=
  if c.canSend then
    if kSendQueueMax < c.sendBuf.readable + data.length then some c.close
    else (c.sendBuf.write data).map fun (b, _) => { c with sendBuf := b }
  else some c

def sendFrame (c : Connection) (msgId : UInt32) (flags : UInt16) (seq : UInt64)
    (payload : List UInt8) : Option Connection :=
  if c.canSend then
    match FrameCodec.encode msgId flags seq payload with
    | .ok data =>
        if kSendQueueMax < c.sendBuf.readable + data.length then some c.close
        else (c.sendBuf.write data).map fun (b, _) => { c with sendBuf := b }
    | .error _ => some c
  else some c

/-! ### What the operations do to the lifecycle -/

@[simp] theorem id_close (c : Connection) : c.close.id = c.id := by
  unfold close; split <;> rfl

@[simp] theorem fd_close (c : Connection) : c.close.fd = c.fd := by
  unfold close; split <;> rfl

@[simp] theorem recvBuf_close (c : Connection) : c.close.recvBuf = c.recvBuf := by
  unfold close; split <;> rfl

@[simp] theorem sendBuf_close (c : Connection) : c.close.sendBuf = c.sendBuf := by
  unfold close; split <;> rfl

@[simp] theorem lastActiveMs_close (c : Connection) : c.close.lastActiveMs = c.lastActiveMs := by
  unfold close; split <;> rfl

@[simp] theorem illegalCount_close (c : Connection) : c.close.illegalCount = c.illegalCount := by
  unfold close; split <;> rfl

@[simp] theorem state_close (c : Connection) :
    c.close.state = if c.state = .closed then .closed else .closing := by
  unfold close
  split
  · rename_i h
    rcases h with h | h <;> simp [h]
  · rename_i h
    rw [if_neg (fun hc => h (Or.inl hc))]

/-! ### The decode loop, case by case -/

theorem kHeaderSize_le_of_decode {b b' : Buffer} {f : Frame}
    (h : FrameCodec.decode b = .ok (some f, b')) : ¬ b.readable < kHeaderSize := by
  intro hlt
  simp [FrameCodec.decode, hlt] at h

theorem kHeaderSize_le_of_decode_error {b : Buffer} {e : String}
    (h : FrameCodec.decode b = .error e) : ¬ b.readable < kHeaderSize := by
  intro hlt
  simp [FrameCodec.decode, hlt] at h

theorem decodeLoop_none {b : Buffer} (h : FrameCodec.decode c.recvBuf = .ok (none, b)) :
    c.decodeLoop = (c, []) := by
  rw [decodeLoop]
  split
  · rfl
  · split
    · rfl
    · rename_i h'
      rw [h] at h'
      cases h'
    · rename_i h'
      rw [h] at h'
      cases h'

theorem decodeLoop_some {f : Frame} {b : Buffer}
    (h : FrameCodec.decode c.recvBuf = .ok (some f, b)) :
    c.decodeLoop = (({ c with recvBuf := b } : Connection).decodeLoop.1,
      f :: ({ c with recvBuf := b } : Connection).decodeLoop.2) := by
  rw [decodeLoop, if_neg (kHeaderSize_le_of_decode h)]
  split
  · rename_i h'
    rw [h] at h'
    cases h'
  · rename_i h'
    rw [h] at h'
    cases h'
    rfl
  · rename_i h'
    rw [h] at h'
    cases h'

theorem decodeLoop_error {e : String} (h : FrameCodec.decode c.recvBuf = .error e) :
    c.decodeLoop = if c.recordIllegal.isBanned then (c.recordIllegal.close, [])
      else c.recordIllegal.decodeLoop := by
  rw [decodeLoop, if_neg (kHeaderSize_le_of_decode_error h)]
  split
  · rename_i h'
    rw [h] at h'
    cases h'
  · rename_i h'
    rw [h] at h'
    cases h'
  · by_cases hban : c.recordIllegal.isBanned = true <;> simp [hban]

/-- Induction along the decode loop, one case per outcome of `decode`. -/
theorem decodeLoop_induction {motive : Connection → Prop}
    (half : ∀ c b, FrameCodec.decode c.recvBuf = .ok (none, b) → motive c)
    (frame : ∀ c f b, FrameCodec.decode c.recvBuf = .ok (some f, b) →
      motive { c with recvBuf := b } → motive c)
    (banned : ∀ c e, FrameCodec.decode c.recvBuf = .error e →
      c.recordIllegal.isBanned = true → motive c)
    (illegal : ∀ c e, FrameCodec.decode c.recvBuf = .error e →
      c.recordIllegal.isBanned = false → motive c.recordIllegal → motive c)
    (c : Connection) : motive c := by
  induction c using decodeLoop.induct with
  | case1 c h => exact half c c.recvBuf (by simp [FrameCodec.decode, h])
  | case2 c _ b h => exact half c b h
  | case3 c _ f b h ih => exact frame c f b h ih
  | case4 c _ e h hban => exact banned c e h hban
  | case5 c _ e h hban ih => exact illegal c e h (by simpa using hban) ih

/-- The decode loop keeps identity, socket, send queue and clock; it leaves
the state alone or closes. -/
theorem decodeLoop_frame (c : Connection) :
    c.decodeLoop.1.id = c.id ∧ c.decodeLoop.1.fd = c.fd ∧
      c.decodeLoop.1.sendBuf = c.sendBuf ∧ c.decodeLoop.1.lastActiveMs = c.lastActiveMs ∧
      (c.decodeLoop.1.state = c.state ∨ c.decodeLoop.1.state = c.close.state) := by
  induction c using decodeLoop_induction with
  | half c b h => simp [decodeLoop_none h]
  | frame c f b h ih =>
    rw [decodeLoop_some h]
    simpa using ih
  | banned c e h hban =>
    rw [decodeLoop_error h, if_pos hban]
    simp [recordIllegal]
  | illegal c e h hban ih =>
    rw [decodeLoop_error h, if_neg (by simp [hban])]
    simpa [recordIllegal] using ih

end Connection

end MiniArena
