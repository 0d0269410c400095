/-
MiniArena/ReceiveBound.lean

How many received bytes a connection keeps unread.

The decode loop takes whole frames off the front of the receive buffer until
it comes to a half packet or to a header that `decode` rejects (`leftover`).
A half packet is shorter than the largest frame.  A rejected header is never
consumed: it throws until the connection is banned, stays at the front with
everything behind it, and later reads add to it.

So the buffer stays below 65554 bytes exactly as long as no read brings
that many from a rejected header on.
-/
import MiniArena.ConnectionMoves
import MiniArena.Receive

namespace MiniArena

open FrameCodec

/-! ### What the decode loop leaves -/

theorem length_lt_of_scan_some {bs rest : List UInt8} {f : Frame}
    (h : scan bs = .ok (some (f, rest))) : rest.length < bs.length := by
  unfold scan at h
  rcases hp : parseHeader bs with ⟨totalLength, msgId, flags, seq⟩
  rw [hp] at h
  dsimp only at h
  split at h
  · cases h
  split at h
  · cases h
  split at h
  · cases h
  split at h
  · cases h
  · obtain ⟨-, rfl⟩ := Prod.mk.injEq .. ▸ Option.some.inj (Except.ok.inj h)
    rw [List.length_drop]
    simp only [kHeaderSize] at *
    omega

set_option linter.unusedVariables false in
/-- The unread bytes from the first half packet or rejected header on. -/
def leftover (bs : List UInt8) : List UInt8 :=
  match h : scan bs with
  | .ok (some (_, rest)) => leftover rest
  | _ => bs
termination_by bs.length
decreasing_by exact length_lt_of_scan_some h

/-- There is a rejected header among the bytes, with whole frames before it. -/
def MeetsRejected (bs : List UInt8) : Prop := ∃ e, scan (leftover bs) = .error e

theorem leftover_of_some {bs rest : List UInt8} {f : Frame}
    (h : scan bs = .ok (some (f, rest))) : leftover bs = leftover rest := by
  rw [leftover]
  split
  · rename_i h'
    rw [h] at h'
    cases h'
    rfl
  · rename_i hne
    exact absurd h (hne f rest)

theorem leftover_of_stop {bs : List UInt8} (h : ∀ f rest, scan bs ≠ .ok (some (f, rest))) :
    leftover bs = bs := by
  rw [leftover]
  split
  · rename_i f rest h'
    exact absurd h' (h f rest)
  · rfl

theorem leftover_of_none {bs : List UInt8} (h : scan bs = .ok none) : leftover bs = bs := by
  apply leftover_of_stop
  simp [h]

theorem leftover_of_error {bs : List UInt8} {e : String} (h : scan bs = .error e) :
    leftover bs = bs := by
  apply leftover_of_stop
  simp [h]

/-- A half packet is what is left, if there is no rejected header. -/
theorem scan_leftover (bs : List UInt8) (h : ¬ MeetsRejected bs) :
    scan (leftover bs) = .ok none := by
  induction bs using leftover.induct with
  | case1 bs f rest hscan ih =>
    rw [leftover_of_some hscan]
    apply ih
    rwa [MeetsRejected, leftover_of_some hscan] at h
  | case2 bs hstop =>
    rw [MeetsRejected, leftover_of_stop hstop] at h
    rw [leftover_of_stop hstop]
    rcases hscan : scan bs with e | - | ⟨f, rest⟩
    · exact absurd ⟨e, hscan⟩ h
    · rfl
    · exact absurd hscan (hstop f rest)

theorem length_leftover_lt {bs : List UInt8} (h : ¬ MeetsRejected bs) :
    (leftover bs).length < kHeaderSize + kMaxPayload :=
  length_lt_of_scan_none (scan_leftover bs h)

/-! ### The decode loop and one read -/

namespace FrameCodec

variable {b b' : Buffer}

theorem scan_of_decode_none (hwf : b.WF) (h : decode b = .ok (none, b')) :
    scan b.unread = .ok none := by
  have hdec := decode_eq_scan hwf
  rcases hscan : scan b.unread with e | - | ⟨f, rest⟩
  · rw [hscan] at hdec
    rw [show decode b = .error e from hdec] at h
    cases h
  · rfl
  · rw [hscan] at hdec
    obtain ⟨b₁, hb₁, -⟩ := hdec
    rw [hb₁] at h
    cases h

theorem scan_of_decode_some {f : Frame} (hwf : b.WF) (h : decode b = .ok (some f, b')) :
    scan b.unread = .ok (some (f, b'.unread)) ∧ b'.WF ∧ b'.buf.length = b.buf.length := by
  have hdec := decode_eq_scan hwf
  rcases hscan : scan b.unread with e | - | ⟨f', rest⟩
  · rw [hscan] at hdec
    rw [show decode b = .error e from hdec] at h
    cases h
  · rw [hscan] at hdec
    rw [show decode b = .ok (none, b) from hdec] at h
    cases h
  · rw [hscan] at hdec
    obtain ⟨b₁, hb₁, hwf₁, hun₁, hcap₁⟩ := hdec
    rw [hb₁] at h
    cases h
    exact ⟨by rw [hun₁], hwf₁, hcap₁⟩

theorem scan_of_decode_error {e : String} (hwf : b.WF) (h : decode b = .error e) :
    scan b.unread = .error e := by
  have hdec := decode_eq_scan hwf
  rcases hscan : scan b.unread with e' | - | ⟨f, rest⟩
  · rw [hscan] at hdec
    rw [show decode b = .error e' from hdec] at h
    cases h
    rfl
  · rw [hscan] at hdec
    rw [show decode b = .ok (none, b) from hdec] at h
    cases h
  · rw [hscan] at hdec
    obtain ⟨b₁, hb₁, -⟩ := hdec
    rw [hb₁] at h
    cases h

end FrameCodec

namespace Connection

variable {c c' : Connection}

/-- What the decode loop makes of the receive buffer and of the state. -/
structure Decoded (c c' : Connection) : Prop where
  wf : c'.recvBuf.WF
  unread : c'.recvBuf.unread = leftover c.recvBuf.unread
  capacity : c'.recvBuf.buf.length = c.recvBuf.buf.length
  closes : MeetsRejected c.recvBuf.unread → c'.state = c.close.state
  stays : ¬ MeetsRejected c.recvBuf.unread → c'.state = c.state

theorem decoded_decodeLoop (hwf : c.recvBuf.WF) : Decoded c c.decodeLoop.1 := by
  induction c using decodeLoop_induction with
  | half c b h =>
    -- the loop ends at a half packet, which stays
    have hscan := scan_of_decode_none hwf h
    have hnot : ¬ MeetsRejected c.recvBuf.unread := by
      rintro ⟨e, he⟩
      rw [leftover_of_none hscan, hscan] at he
      cases he
    rw [decodeLoop_none h]
    exact ⟨hwf, (leftover_of_none hscan).symm, rfl, fun hmeet => absurd hmeet hnot, fun _ => rfl⟩
  | frame c f b h ih =>
    -- a whole frame is taken, and the loop goes on behind it
    obtain ⟨hscan, hwf', hcap⟩ := scan_of_decode_some hwf h
    have hleft := leftover_of_some hscan
    have hmeet : MeetsRejected c.recvBuf.unread ↔ MeetsRejected b.unread := by
      rw [MeetsRejected, hleft, MeetsRejected]
    obtain ⟨h₁, h₂, h₃, h₄, h₅⟩ := ih hwf'
    rw [decodeLoop_some h]
    refine ⟨h₁, h₂.trans hleft.symm, h₃.trans hcap, ?_, ?_⟩
    · intro hm
      rw [h₄ (hmeet.mp hm), state_close, state_close]
    · exact fun hm => h₅ fun hm' => hm (hmeet.mpr hm')
  | banned c e h hban =>
    -- the error that bans: the header stays, the connection closes
    have hscan := scan_of_decode_error hwf h
    have hmeet : MeetsRejected c.recvBuf.unread := ⟨e, by rw [leftover_of_error hscan, hscan]⟩
    rw [decodeLoop_error h, if_pos hban]
    refine ⟨?_, ?_, ?_, ?_, fun hnot => absurd hmeet hnot⟩
    · rw [recvBuf_close]
      exact hwf
    · rw [recvBuf_close, leftover_of_error hscan]
      rfl
    · rw [recvBuf_close]
      rfl
    · intro _
      rw [state_close, state_close]
      rfl
  | illegal c e h hban ih =>
    -- an error takes nothing, so the loop meets the same header again
    obtain ⟨h₁, h₂, h₃, h₄, h₅⟩ := ih hwf
    rw [decodeLoop_error h, if_neg (by simp [hban])]
    refine ⟨h₁, h₂, h₃, fun hm => ?_, h₅⟩
    rw [h₄ hm, state_close, state_close]
    rfl

/-- The bytes that are unread after a read of `r`. -/
def received (c : Connection) (r : ReadResult) : List UInt8 :=
  match r with
  | .data bytes => leftover (c.recvBuf.unread ++ bytes)
  | _ => c.recvBuf.unread

/-- The kernel fills at most the space it is handed. -/
def Fits (c : Connection) (r : ReadResult) : Prop :=
  ∀ bytes, r = .data bytes → bytes.length ≤ c.offered

/-- What one `onReadable` makes of a connection. -/
structure Reads (c : Connection) (r : ReadResult) (c' : Connection) : Prop where
  wf : c'.recvBuf.WF
  unread : c'.recvBuf.unread = c.received r
  sendBuf : c'.sendBuf = c.sendBuf
  data : ∀ bytes, r = .data bytes →
    (MeetsRejected (c.recvBuf.unread ++ bytes) → c'.state = .closing) ∧
      (¬ MeetsRejected (c.recvBuf.unread ++ bytes) → c'.state = .active)
  other : (∀ bytes, r ≠ .data bytes) →
    c'.state = if r = .again then c.state else c.close.state

/-- The buffer `b` makes room, and `onReadable` fills it as far as the kernel says. -/
theorem reads_of_ensureWrite {b : Buffer} (hwf : c.recvBuf.WF)
    (hcap : c.recvBuf.buf.length < 2 ^ 63) (hb : c.recvBuf.ensureWrite 4096 = some b)
    (r : ReadResult) (nowMs : UInt64) (hfit : c.Fits r) :
    ∃ c' fs, c.onReadable r nowMs = some (c', fs) ∧ c.Reads r c' ∧
      c'.recvBuf.buf.length = b.buf.length := by
  obtain ⟨hwf₁, hun₁, hroom⟩ := Buffer.ensureWrite_keeps hwf hcap (by norm_num) hb
  have hspace : b.writable ≠ 0 := by omega
  -- without data only the buffer is compacted, and the connection perhaps closed
  have hquiet : ∀ c₁ : Connection, c₁.recvBuf = b → c₁.sendBuf = c.sendBuf →
      (∀ bytes, r ≠ .data bytes) → (c₁.state = if r = .again then c.state else c.close.state) →
      c.Reads r c₁ ∧ c₁.recvBuf.buf.length = b.buf.length := by
    intro c₁ hrecv hsend hr hstate
    refine ⟨⟨hrecv ▸ hwf₁, ?_, hsend, fun bytes heq => absurd heq (hr bytes), fun _ => hstate⟩,
      by rw [hrecv]⟩
    rw [hrecv, hun₁]
    cases r with
    | data bytes => exact absurd rfl (hr bytes)
    | _ => rfl
  cases r with
  | data bytes =>
    have hfit₁ : bytes.length ≤ b.writable := by simpa [offered, hb] using hfit bytes rfl
    obtain ⟨hwf₂, hun₂, hcap₂⟩ := Buffer.append_spec hwf₁ hfit₁
    let c₁ : Connection := ({ c with recvBuf :=
      { b with buf := Buffer.poke b.buf b.writeIdx bytes,
               writeIdx := b.writeIdx + bytes.length } }).updateActive nowMs
    have hd : Decoded c₁ c₁.decodeLoop.1 := decoded_decodeLoop hwf₂
    have hun : c₁.recvBuf.unread = c.recvBuf.unread ++ bytes := hun₂.trans (by rw [hun₁])
    refine ⟨c₁.decodeLoop.1, c₁.decodeLoop.2, ?_, ⟨hd.wf, ?_, ?_, ?_, ?_⟩, ?_⟩
    · simp [onReadable, Buffer.readFromFd, hb, hspace, c₁]
    · rw [hd.unread, hun]
      rfl
    · exact (decodeLoop_frame c₁).2.2.1
    · rintro _ heq
      obtain rfl := ReadResult.data.inj heq
      rw [← hun]
      refine ⟨fun hm => ?_, fun hm => hd.stays hm⟩
      rw [hd.closes hm, state_close]
      rfl
    · exact fun hr => absurd rfl (hr bytes)
    · exact hd.capacity.trans hcap₂
  | again =>
    exact ⟨{ c with recvBuf := b }, [], by simp [onReadable, Buffer.readFromFd, hb, hspace],
      hquiet _ rfl rfl (by simp) rfl⟩
  | eof =>
    refine ⟨({ c with recvBuf := b } : Connection).close, [],
      by simp [onReadable, Buffer.readFromFd, hb],
      hquiet _ (recvBuf_close _) (sendBuf_close _) (by simp) ?_⟩
    rw [if_neg (show ReadResult.eof ≠ .again by simp), state_close, state_close]
  | error =>
    refine ⟨({ c with recvBuf := b } : Connection).close, [],
      by simp [onReadable, Buffer.readFromFd, hb, hspace],
      hquiet _ (recvBuf_close _) (sendBuf_close _) (by simp) ?_⟩
    rw [if_neg (show ReadResult.error ≠ .again by simp), state_close, state_close]

/-- A receive buffer within the bounds. -/
structure Bounded (b : Buffer) : Prop where
  wf : b.WF
  capacity_le : b.buf.length ≤ recvCapacityBound
  readable_lt : b.readable < kHeaderSize + kMaxPayload

theorem bounded_ofInitial : Bounded (Buffer.ofInitial 4096) where
  wf := Buffer.wf_ofInitial 4096
  capacity_le := (receiving_fresh 0 0 0).capacity_le
  readable_lt := by decide

/-- Within the bounds a read always ends. -/
theorem reads_onReadable {r : ReadResult} {nowMs : UInt64} (hc : Bounded c.recvBuf)
    (hfit : c.Fits r) : ∃ c' fs, c.onReadable r nowMs = some (c', fs) ∧ c.Reads r c' ∧
      c'.recvBuf.buf.length ≤ recvCapacityBound := by
  have hcap := hc.capacity_le
  have hshort := hc.readable_lt
  simp only [recvCapacityBound, kHeaderSize, kMaxPayload] at hcap hshort
  obtain ⟨b, hb, -, -, -, hgrow⟩ := Buffer.ensureWrite_spec hc.wf 4096 (by omega) (by omega)
  obtain ⟨c', fs, honread, hr, hlen⟩ :=
    reads_of_ensureWrite hc.wf (by omega) hb r nowMs hfit
  refine ⟨c', fs, honread, hr, ?_⟩
  simp only [recvCapacityBound]
  omega

/-- A read within the bounds stays within them, unless it is of rejected bytes. -/
theorem Reads.bounded_iff {r : ReadResult} (h : c.Reads r c')
    (hcap : c'.recvBuf.buf.length ≤ recvCapacityBound) (hc : Bounded c.recvBuf) :
    Bounded c'.recvBuf ↔ ∀ bytes, r = .data bytes →
      MeetsRejected (c.recvBuf.unread ++ bytes) →
      (leftover (c.recvBuf.unread ++ bytes)).length < kHeaderSize + kMaxPayload := by
  have hlen := h.wf.length_unread
  rw [h.unread] at hlen
  constructor
  · rintro hb bytes rfl -
    rw [show leftover (c.recvBuf.unread ++ bytes) = c.received (.data bytes) from rfl, hlen]
    exact hb.readable_lt
  · intro hq
    refine ⟨h.wf, hcap, ?_⟩
    rw [← hlen]
    cases r with
    | data bytes =>
      -- without a rejected header less than a frame is left
      by_cases hm : MeetsRejected (c.recvBuf.unread ++ bytes)
      · exact hq bytes rfl hm
      · exact length_leftover_lt hm
    | _ =>
      show c.recvBuf.unread.length < _
      rw [hc.wf.length_unread]
      exact hc.readable_lt

end Connection

/-! ### The loop -/

/-- The receive buffer is the same. -/
def SameRecv (c c' : Connection) : Prop := c'.recvBuf = c.recvBuf

theorem sameRecv_sendRaw {c c' : Connection} {data : List UInt8} (h : c.sendRaw data = some c') :
    SameRecv c c' := by
  unfold Connection.sendRaw at h
  split at h
  · split at h
    · obtain rfl := Option.some.inj h
      exact Connection.recvBuf_close c
    · obtain ⟨⟨b, n⟩, -, rfl⟩ := Option.map_eq_some_iff.mp h
      exact rfl
  · obtain rfl := Option.some.inj h
    exact rfl

theorem sameRecv_onWritable (c : Connection) (w : WriteResult) : SameRecv c (c.onWritable w) := by
  unfold Connection.onWritable
  split
  · exact rfl
  · dsimp only
    split
    · exact Connection.recvBuf_close _
    · exact rfl

namespace EventLoop

open Connection

theorem covers_sameRecv : Covers SameRecv where
  refl := fun _ => rfl
  trans := fun _ _ _ h h' => h'.trans h
  close := Connection.recvBuf_close
  sendRaw := sameRecv_sendRaw

variable {l l' : EventLoop}

/-- Every receive buffer is within the bounds. -/
def ReceiveBounded (l : EventLoop) : Prop :=
  ∀ id c, l.conns.lookup id = some c → c.recvBuf.readable < kHeaderSize + kMaxPayload

/-- The connection an epoll event is about. -/
def OfFd (l : EventLoop) (fd : Fd) (c : Connection) : Prop :=
  ∃ id, l.fdToId.lookup fd = some id ∧ l.conns.lookup id = some c

/-- A connection that is handed in has new buffers, and `::read` fills at most
the space it is handed. -/
def Admissible (l : EventLoop) : LoopEvent → Prop
  | .addConnection c => c.recvBuf = Buffer.ofInitial 4096
  | .epoll fd _ _ r _ _ => ∀ c, l.OfFd fd c → c.Fits r
  | _ => True

/-- No read leaves 65554 bytes or more from a rejected header on. -/
def RejectedBounded (l : EventLoop) : LoopEvent → Prop
  | .epoll fd true _ (.data bytes) _ _ => ∀ c, l.OfFd fd c →
      MeetsRejected (c.recvBuf.unread ++ bytes) →
      (leftover (c.recvBuf.unread ++ bytes)).length < kHeaderSize + kMaxPayload
  | _ => True

/-- The connection an epoll event is about reads, then writes. -/
theorem lookup_handleEvent {fd : Fd} {readable writable : Bool} {r : ReadResult} {w : WriteResult}
    {nowMs : UInt64} {outs : List LoopOut} {id : ConnectionId} {c : Connection}
    (h : l.handleEvent fd readable writable r w nowMs = some (l', outs))
    (hid : l.fdToId.lookup fd = some id) (hc : l.conns.lookup id = some c) :
    ∃ c₁, (readable = true → ∃ fs, c.onReadable r nowMs = some (c₁, fs)) ∧
      (readable = false → c₁ = c) ∧ ∀ a, l'.conns.lookup a =
        if a = id then some (if writable then c₁.onWritable w else c₁) else l.conns.lookup a := by
  unfold handleEvent at h
  rw [hid] at h
  dsimp only at h
  rw [hc] at h
  obtain ⟨⟨l₁, outs₁⟩, hfirst, heq⟩ := Option.map_eq_some_iff.mp h
  obtain ⟨rfl, rfl⟩ := Prod.mk.injEq .. ▸ heq
  have hread : ∃ c₁, (readable = true → ∃ fs, c.onReadable r nowMs = some (c₁, fs)) ∧
      (readable = false → c₁ = c) ∧
      ∀ a, l₁.conns.lookup a = if a = id then some c₁ else l.conns.lookup a := by
    cases readable with
    | false =>
      obtain ⟨rfl, -⟩ := Prod.mk.injEq .. ▸ Option.some.inj hfirst
      refine ⟨c, by simp, fun _ => rfl, fun a => ?_⟩
      split
      · rename_i heq
        rw [heq, hc]
      · rfl
    | true =>
      obtain ⟨⟨c₁, fs⟩, honread, heq⟩ := Option.map_eq_some_iff.mp hfirst
      refine ⟨c₁, fun _ => ⟨fs, honread⟩, by simp, fun a => ?_⟩
      dsimp only at heq
      split at heq
      · -- closing again changes nothing
        rename_i hclosing
        obtain ⟨rfl, -⟩ := Prod.mk.injEq .. ▸ heq
        have hsame : c₁.close = c₁ := by rw [Connection.close, if_pos (Or.inr hclosing)]
        show ((l.conns.insert id c₁).modify id Connection.close).lookup a = _
        rw [Finmap.lookup_modify, Finmap.lookup_insert]
        split
        · rw [Option.map_some, hsame]
        · rename_i hne
          exact Finmap.lookup_insert_of_ne _ hne
      split at heq
      · obtain ⟨rfl, -⟩ := Prod.mk.injEq .. ▸ heq
        exact Finmap.lookup_insert_eq ..
      · obtain ⟨rfl, -⟩ := Prod.mk.injEq .. ▸ heq
        exact Finmap.lookup_insert_eq ..
  obtain ⟨c₁, hyes, hno, hlook⟩ := hread
  refine ⟨c₁, hyes, hno, fun a => ?_⟩
  cases writable with
  | false => exact hlook a
  | true =>
    show (l₁.conns.modify id fun c => c.onWritable w).lookup a = _
    rw [Finmap.lookup_modify]
    split
    · rw [hlook id, if_pos rfl]
      rfl
    · rename_i hne
      rw [hlook a, if_neg hne]

/-! ### Steps and runs -/

/-- A step with admissible inputs. -/
def ReadSteps (l : EventLoop) (e : LoopEvent × List LoopOut) (l' : EventLoop) : Prop :=
  Steps l e l' ∧ l.Admissible e.1

/-- The buffers of the registered connections, and of those that wait. -/
structure Buffers (l : EventLoop) : Prop where
  waiting : ∀ c ∈ l.pendingConns, c.recvBuf = Buffer.ofInitial 4096
  bounded : ∀ id c, l.conns.lookup id = some c → Bounded c.recvBuf

/-- The buffers after a step that moves no receive buffer. -/
theorem Buffers.moves (h : Buffers l) (hm : Moves SameRecv l l') : Buffers l' where
  waiting := by
    rw [hm.pending]
    exact h.waiting
  bounded := by
    intro id c' hc'
    obtain ⟨c, hc, heq⟩ := hm.conns.lookup hc'
    rw [show c'.recvBuf = c.recvBuf from heq]
    exact h.bounded id c hc

/-- A step that is no read keeps the buffers within the bounds. -/
theorem Buffers.step (h : Buffers l) {e : LoopEvent} {outs : List LoopOut}
    (hstep : l.step e = some (l', outs)) (hadm : l.Admissible e)
    (hread : ∀ fd writable r w nowMs, e ≠ .epoll fd true writable r w nowMs) : Buffers l' := by
  cases e with
  | addConnection c =>
    obtain ⟨rfl, -⟩ := Prod.mk.injEq .. ▸ Option.some.inj hstep
    refine ⟨fun c' hc' => ?_, h.bounded⟩
    rcases List.mem_append.mp hc' with hc' | hc'
    · exact h.waiting c' hc'
    · rw [List.mem_singleton.mp hc']
      exact hadm
  | drainPending ok =>
    obtain ⟨rfl, -⟩ := Prod.mk.injEq .. ▸ Option.some.inj hstep
    rcases hq : l.pendingConns with - | ⟨c, cs⟩
    · rw [drainPending_nil hq]
      exact h
    have hcs : ∀ c' ∈ cs, c'.recvBuf = Buffer.ofInitial 4096 :=
      fun c' hc' => h.waiting c' (by rw [hq]; exact List.mem_cons_of_mem c hc')
    cases ok with
    | false =>
      rw [drainPending_false hq]
      exact ⟨hcs, h.bounded⟩
    | true =>
      rw [drainPending_true hq]
      refine ⟨hcs, fun id c' hc' => ?_⟩
      rw [Finmap.lookup_insert_eq] at hc'
      split at hc'
      · obtain rfl := Option.some.inj hc'
        rw [h.waiting c (by rw [hq]; exact List.mem_cons_self ..)]
        exact bounded_ofInitial
      · exact h.bounded id c' hc'
  | cleanupClosed due order =>
    obtain ⟨rfl, -⟩ := Prod.mk.injEq .. ▸ Option.some.inj hstep
    refine ⟨?_, fun id c hc => ?_⟩
    · show ∀ c ∈ (l.cleanupClosed due order).1.pendingConns, _
      rw [pendingConns_cleanupClosed]
      exact h.waiting
    · obtain ⟨c₀, hc₀, heq⟩ := covers_sameRecv.lookup_cleanupClosed hc
      rw [show c.recvBuf = c₀.recvBuf from heq]
      exact h.bounded id c₀ hc₀
  | epoll fd readable writable r w nowMs =>
    cases readable with
    | true => exact absurd rfl (hread fd writable r w nowMs)
    | false =>
      apply h.moves (covers_sameRecv.moves_handleEvent hstep ?_ ?_).1
      · intro id c c' fs _ _ hfalse
        cases hfalse
      · exact fun _ _ _ => sameRecv_onWritable _ w
  | _ =>
    exact h.moves (covers_sameRecv.moves_step hstep (by simp) (by simp) (by simp) (by simp))

theorem handleEvent_of_stray {fd : Fd} {readable writable : Bool} {r : ReadResult}
    {w : WriteResult} {nowMs : UInt64} (h : ∀ c, ¬ l.OfFd fd c) :
    l.handleEvent fd readable writable r w nowMs = some (l, []) := by
  unfold handleEvent
  split
  · rfl
  · rename_i id hid
    split
    · rfl
    · rename_i c hc
      exact absurd ⟨id, hid, hc⟩ (h c)

/-- A read keeps the bounds exactly when it brings no 65554 bytes from a
rejected header on. -/
theorem Buffers.read_iff (h : Buffers l) {fd : Fd} {writable : Bool} {r : ReadResult}
    {w : WriteResult} {nowMs : UInt64} {outs : List LoopOut}
    (hstep : l.step (.epoll fd true writable r w nowMs) = some (l', outs))
    (hadm : l.Admissible (.epoll fd true writable r w nowMs)) :
    (l'.ReceiveBounded → Buffers l') ∧
      (l'.ReceiveBounded ↔ l.RejectedBounded (.epoll fd true writable r w nowMs)) := by
  have hwait : ∀ c ∈ l'.pendingConns, c.recvBuf = Buffer.ofInitial 4096 := by
    rw [(keeps_step hstep (by simp) (by simp) (by simp)).1]
    exact h.waiting
  by_cases hof : ∃ c, l.OfFd fd c
  · obtain ⟨c, id, hid, hc⟩ := hof
    have hb := h.bounded id c hc
    have hfit := hadm c ⟨id, hid, hc⟩
    obtain ⟨c₁, hread, -, hlook⟩ := lookup_handleEvent hstep hid hc
    obtain ⟨fs, honread⟩ := hread rfl
    obtain ⟨c₁', fs', honread', hr, hcap⟩ : ∃ c₁' fs', c.onReadable r nowMs = some (c₁', fs') ∧
        c.Reads r c₁' ∧ c₁'.recvBuf.buf.length ≤ recvCapacityBound := reads_onReadable hb hfit
    obtain ⟨rfl, -⟩ := Prod.mk.injEq .. ▸ Option.some.inj (honread'.symm.trans honread)
    -- the connection of the event, after the write that follows the read
    have hsame : (if writable then c₁'.onWritable w else c₁').recvBuf = c₁'.recvBuf := by
      split
      · exact sameRecv_onWritable c₁' w
      · rfl
    have hcases : ∀ a c', l'.conns.lookup a = some c' →
        c'.recvBuf = c₁'.recvBuf ∨ Bounded c'.recvBuf := by
      intro a c' hc'
      rw [hlook] at hc'
      split at hc'
      · obtain rfl := Option.some.inj hc'
        exact Or.inl hsame
      · exact Or.inr (h.bounded a c' hc')
    have hself : l'.conns.lookup id = some (if writable then c₁'.onWritable w else c₁') := by
      rw [hlook, if_pos rfl]
    have hall : l'.ReceiveBounded ↔ Bounded c₁'.recvBuf := by
      constructor
      · intro hl'
        refine ⟨hr.wf, hcap, ?_⟩
        rw [← hsame]
        exact hl' id _ hself
      · intro hb' a c' hc'
        rcases hcases a c' hc' with heq | hbc
        · rw [heq]
          exact hb'.readable_lt
        · exact hbc.readable_lt
    refine ⟨fun hl' => ⟨hwait, fun a c' hc' => ?_⟩, ?_⟩
    · rcases hcases a c' hc' with heq | hbc
      · rw [heq]
        exact hall.mp hl'
      · exact hbc
    · rw [hall, hr.bounded_iff hcap hb]
      constructor
      · intro hq
        cases r with
        | data bytes =>
          rintro c' ⟨id', hid', hc'⟩
          obtain rfl := Option.some.inj (hid.symm.trans hid')
          obtain rfl := Option.some.inj (hc.symm.trans hc')
          exact hq bytes rfl
        | _ => trivial
      · rintro hq bytes rfl
        exact hq c ⟨id, hid, hc⟩
  · have hstray : ∀ c, ¬ l.OfFd fd c := not_exists.mp hof
    obtain ⟨rfl, -⟩ := Prod.mk.injEq .. ▸
      Option.some.inj ((handleEvent_of_stray hstray).symm.trans hstep)
    refine ⟨fun _ => h, iff_of_true (fun id c hc => (h.bounded id c hc).readable_lt) ?_⟩
    cases r with
    | data bytes => exact fun c hc => absurd hc (hstray c)
    | _ => trivial

theorem rejectedBounded_of_other {e : LoopEvent}
    (hread : ∀ fd writable r w nowMs, e ≠ .epoll fd true writable r w nowMs) :
    l.RejectedBounded e := by
  cases e with
  | epoll fd readable writable r w nowMs =>
    cases readable with
    | false => trivial
    | true => exact absurd rfl (hread fd writable r w nowMs)
  | _ => trivial

/-- **One step** keeps the bounds exactly when it meets the condition. -/
theorem receiveBounded_step (h : Buffers l) {a : LoopEvent × List LoopOut}
    (hstep : ReadSteps l a l') :
    (l'.ReceiveBounded → Buffers l') ∧ (l'.ReceiveBounded ↔ l.RejectedBounded a.1) := by
  obtain ⟨ev, outs⟩ := a
  by_cases hread : ∃ fd writable r w nowMs, ev = .epoll fd true writable r w nowMs
  · obtain ⟨fd, writable, r, w, nowMs, rfl⟩ := hread
    exact h.read_iff hstep.1 hstep.2
  · have hne : ∀ fd writable r w nowMs, ev ≠ .epoll fd true writable r w nowMs :=
      fun fd writable r w nowMs heq => hread ⟨fd, writable, r, w, nowMs, heq⟩
    have h' := h.step hstep.1 hstep.2 hne
    exact ⟨fun _ => h', iff_of_true (fun id c hc => (h'.bounded id c hc).readable_lt)
      (rejectedBounded_of_other hne)⟩

theorem buffers_empty : Buffers {} where
  waiting := by simp
  bounded := by
    intro id c hc
    simp at hc

/-- **Receive buffering is bounded** exactly in the runs in which no read leaves
65554 or more bytes from a rejected header on. -/
theorem receive_bounded {l : EventLoop} {as : List (LoopEvent × List LoopOut)} :
    Transition.Run (fun l a l' => ReadSteps l a l' ∧ l'.ReceiveBounded) {} as l ↔
      Transition.Run (fun l a l' => ReadSteps l a l' ∧ l.RejectedBounded a.1) {} as l := by
  apply Transition.Run.guard_congr (J := fun _ => True) (B := Buffers)
  · exact fun _ _ _ _ _ => trivial
  · exact fun l a l' _ h hstep => (receiveBounded_step h hstep).2
  · exact fun l a l' _ h hstep => (receiveBounded_step h hstep).1
  · trivial
  · exact buffers_empty

/-! ### A flood -/

/-- Zero bytes, whose length field is below the header size. -/
theorem scan_zeros {n : ℕ} (h : kHeaderSize ≤ n) :
    scan (List.replicate n 0) = .error "FrameCodec::decode: total_length < header size" := by
  have hlen : ¬ (List.replicate n (0 : UInt8)).length < kHeaderSize := by
    rw [List.length_replicate]
    omega
  have hfield : field (List.replicate n 0) 0 4 = 0 := by
    rw [field, List.drop_zero, List.take_replicate, Nat.min_eq_left (le_trans (by decide) h)]
    rfl
  rw [scan, if_neg hlen, parseHeader, hfield]
  rfl

theorem offered_of_bounded {c : Connection} (hc : Bounded c.recvBuf) : 4096 ≤ c.offered := by
  have hcap := hc.capacity_le
  have hshort := hc.readable_lt
  simp only [recvCapacityBound, kHeaderSize, kMaxPayload] at hcap hshort
  obtain ⟨b, hb, -, -, hroom, -⟩ :=
    Buffer.ensureWrite_spec hc.wf 4096 (by omega) (by omega)
  simpa [offered, hb] using hroom

/-- Connection 1 with `k` reads of 4096 zeros behind it, and output it has not sent. -/
structure Flooded (k : ℕ) (l : EventLoop) (c : Connection) : Prop where
  fd : l.fdToId.lookup 7 = some 1
  conn : l.conns.lookup 1 = some c
  wf : c.recvBuf.WF
  capacity_le : c.recvBuf.buf.length ≤ recvCapacityBound
  unread : c.recvBuf.unread = List.replicate (4096 * k) 0
  unsent : 0 < c.sendBuf.readable

/-- One more iteration: a read, and the pass of `cleanupClosed`. -/
def floodIteration : List (LoopEvent × List LoopOut) :=
  [(.epoll 7 true false (.data (List.replicate 4096 0)) .again 0, []), (.cleanupClosed [] [1], [])]

theorem step_read {fd : Fd} {id : ConnectionId} {c c' : Connection} {r : ReadResult}
    {w : WriteResult} {nowMs : UInt64} {fs : List Frame} (hid : l.fdToId.lookup fd = some id)
    (hc : l.conns.lookup id = some c) (honread : c.onReadable r nowMs = some (c', fs)) :
    l.step (.epoll fd true false r w nowMs) = some
      (if c'.state = .closing then
        (({ l with conns := l.conns.insert id c' } : EventLoop).closeConnection id, [])
      else if fs ≠ [] then ({ l with conns := l.conns.insert id c' }, [.frames id fs])
      else ({ l with conns := l.conns.insert id c' }, [])) := by
  simp only [step, handleEvent, hid, hc, if_true, handleReadable, honread, Option.map_some]
  rfl

theorem flooded_succ {k : ℕ} {l : EventLoop} {c : Connection} (hk : k ≤ 16)
    (h : Flooded k l c) :
    ∃ l' c', Transition.Run ReadSteps l floodIteration l' ∧ Flooded (k + 1) l' c' := by
  -- up to here the bound still holds, so the next read ends
  have hb : Bounded c.recvBuf := by
    refine ⟨h.wf, h.capacity_le, ?_⟩
    rw [← h.wf.length_unread, h.unread, List.length_replicate]
    simp only [kHeaderSize, kMaxPayload]
    omega
  have hfit : c.Fits (.data (List.replicate 4096 0)) := by
    intro bytes heq
    rw [← ReadResult.data.inj heq, List.length_replicate]
    exact offered_of_bounded hb
  obtain ⟨c', fs, honread, hr, hcap⟩ : ∃ c' fs,
      c.onReadable (.data (List.replicate 4096 0)) 0 = some (c', fs) ∧
        c.Reads (.data (List.replicate 4096 0)) c' ∧
        c'.recvBuf.buf.length ≤ recvCapacityBound := reads_onReadable hb hfit
  have hall : c.recvBuf.unread ++ List.replicate 4096 0 = List.replicate (4096 * (k + 1)) 0 := by
    rw [h.unread, List.replicate_append_replicate, Nat.mul_succ]
  have hscan := scan_zeros (n := 4096 * (k + 1)) (by simp only [kHeaderSize]; omega)
  have hmeet : MeetsRejected (List.replicate (4096 * (k + 1)) 0) :=
    ⟨_, by rw [leftover_of_error hscan]; exact hscan⟩
  have hclosing : c'.state = .closing := (hr.data _ rfl).1 (by rw [hall]; exact hmeet)
  have hunsent : 0 < c'.sendBuf.readable := by
    rw [hr.sendBuf]
    exact h.unsent
  -- closing again changes nothing, and unsent output keeps the connection
  have hsame : c'.close = c' := by rw [Connection.close, if_pos (Or.inr hclosing)]
  let l' : EventLoop := { l with conns := (l.conns.insert 1 c').modify 1 Connection.close }
  have hlook : l'.conns.lookup 1 = some c' := by
    show ((l.conns.insert 1 c').modify 1 Connection.close).lookup 1 = _
    rw [Finmap.lookup_modify_self, Finmap.lookup_insert, Option.map_some, hsame]
  have hread : l.step (.epoll 7 true false (.data (List.replicate 4096 0)) .again 0) =
      some (l', []) := by
    rw [step_read h.fd h.conn honread, if_pos hclosing]
    rfl
  have hkeep : c'.shouldCleanup = false := by
    simp only [Connection.shouldCleanup, decide_eq_false_iff_not]
    omega
  have hclean : l'.step (.cleanupClosed [] [1]) = some (l', []) := by
    simp [step, cleanupClosed, cleanup, hlook, hkeep]
  have hadm : l.Admissible (.epoll 7 true false (.data (List.replicate 4096 0)) .again 0) := by
    rintro c₀ ⟨id, hid, hc₀⟩
    obtain rfl := Option.some.inj (h.fd.symm.trans hid)
    obtain rfl := Option.some.inj (h.conn.symm.trans hc₀)
    exact hfit
  refine ⟨l', c', .cons ⟨hread, hadm⟩ (.single ⟨hclean, trivial⟩), h.fd, hlook, hr.wf,
    hcap, ?_, hunsent⟩
  rw [hr.unread, received, hall, leftover_of_error hscan]

theorem flooded_run {k n : ℕ} {l : EventLoop} {c : Connection} (hk : k + n ≤ 17)
    (h : Flooded k l c) :
    ∃ as l' c', Transition.Run ReadSteps l as l' ∧ Flooded (k + n) l' c' := by
  induction n generalizing k l c with
  | zero => exact ⟨[], l, c, .nil, h⟩
  | succ n ih =>
    obtain ⟨l₁, c₁, hfirst, h₁⟩ := flooded_succ (by omega) h
    obtain ⟨as, l', c', hrest, h'⟩ := ih (k := k + 1) (by omega) h₁
    exact ⟨_, l', c', hfirst.append hrest, by rwa [Nat.succ_add_eq_add_succ] at h'⟩

/-- The server has a reply queued that the client does not read, and the client
sends zeros: after 17 reads the closing connection holds 69632 of them. -/
theorem flood : ∃ (as : List (LoopEvent × List LoopOut)) (l : EventLoop) (c : Connection),
    Transition.Run ReadSteps {} as l ∧ l.conns.lookup 1 = some c ∧ c.recvBuf.readable = 69632 ∧
      ¬ l.ReceiveBounded := by
  let fresh := Connection.fresh 1 7 0
  obtain ⟨b, hsend, hwf, hun⟩ : ∃ b, fresh.sendRaw [0] = some { fresh with sendBuf := b } ∧ b.WF ∧
      b.unread = [0] := Connection.sendRaw_fresh 1 7 0 (by decide)
  let registered : EventLoop := EventLoop.drainPending { pendingConns := [fresh] } true
  let queued : EventLoop := { registered with pendingWrites := [(1, [0])] }
  let written : EventLoop :=
    { registered with conns := registered.conns.insert 1 { fresh with sendBuf := b } }
  have hdrain : queued.step .drainPendingWrites = some (written, []) := by
    have hlook : registered.conns.lookup 1 = some fresh := rfl
    simp only [step, queued, drainPendingWrites, hlook, hsend, Option.map_some]
    rfl
  have hpre : Transition.Run ReadSteps {}
      [(.addConnection fresh, []), (.drainPending true, []), (.sendToConnection 1 [0], []),
        (.drainPendingWrites, [])] written :=
    .cons ⟨rfl, rfl⟩ (.cons ⟨rfl, trivial⟩ (.cons ⟨rfl, trivial⟩ (.single ⟨hdrain, trivial⟩)))
  have hstart : Flooded 0 written { fresh with sendBuf := b } := by
    refine ⟨rfl, rfl, Buffer.wf_ofInitial 4096, (receiving_fresh 1 7 0).capacity_le,
      Buffer.unread_ofInitial 4096, ?_⟩
    show 0 < b.readable
    rw [← hwf.length_unread, hun]
    exact Nat.one_pos
  obtain ⟨as, l, c, hrun, h⟩ := flooded_run (n := 17) (by decide) hstart
  have hreadable : c.recvBuf.readable = 69632 := by
    rw [← h.wf.length_unread, h.unread, List.length_replicate]
  refine ⟨_, l, c, hpre.append hrun, h.conn, hreadable, fun hbounded => ?_⟩
  have hlt := hbounded 1 c h.conn
  rw [hreadable] at hlt
  exact absurd hlt (by decide)

end EventLoop

end MiniArena
