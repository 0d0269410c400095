/-
MiniArena/SendQueue.lean

The outgoing byte stream of a connection: what the kernel has taken so far,
followed by what still waits in the send buffer, is what the accepted send
calls put there, in call order.

The step lemmas say what an operation does to the unread bytes of the send
buffer; the run is `Transition.Run.conserved`, with the bytes a call queues as
input and the bytes the kernel accepts as output.  `Sending` keeps the buffer
small enough that a send always finds room (`sendRaw_spec`), so no call is
lost to the growth loop.
-/
import MiniArena.Receive
import MiniArena.Transition

namespace MiniArena

/-! ### The operations of one connection -/

inductive ConnectionEvent
  | sendFrame (msgId : UInt32) (flags : UInt16) (seq : UInt64) (payload : List UInt8)
  | sendRaw (data : List UInt8)
  | onWritable (w : WriteResult)
  | onReadable (r : ReadResult) (nowMs : UInt64)
  | close
  deriving DecidableEq, Repr

/-- The bytes a call moves: from the buffer to the kernel, from the caller to the buffer. -/
structure Traffic where
  accepted : List UInt8 := []
  queued : List UInt8 := []
  deriving DecidableEq, Repr

namespace Connection

variable {c c' : Connection}

/-- The kernel takes at most what it is offered. -/
def Offers (c : Connection) : WriteResult → Prop
  | .accepted n => n ≤ c.sendBuf.readable
  | _ => True

instance (c : Connection) (w : WriteResult) : Decidable (c.Offers w) := by
  cases w <;> unfold Offers <;> infer_instance

def step (c : Connection) : ConnectionEvent → Option Connection
  | .sendFrame msgId flags seq payload => c.sendFrame msgId flags seq payload
  | .sendRaw data => c.sendRaw data
  | .onWritable w => if c.Offers w then some (c.onWritable w) else none
  | .onReadable r nowMs => (c.onReadable r nowMs).map Prod.fst
  | .close => some c.close

/-- A send call is refused in the wrong state, or where it would overflow the queue. -/
def refuses (c : Connection) (data : List UInt8) : Bool :=
  !c.canSend || decide (kSendQueueMax < c.sendBuf.readable + data.length)

/-- What a call moves, seen from outside: an oversized payload has no bytes to queue. -/
def traffic (c : Connection) : ConnectionEvent → Traffic
  | .sendFrame msgId flags seq payload =>
      match FrameCodec.encode msgId flags seq payload with
      | .ok data => if c.refuses data then {} else { queued := data }
      | .error _ => {}
  | .sendRaw data => if c.refuses data then {} else { queued := data }
  | .onWritable (.accepted n) => { accepted := c.sendBuf.unread.take n }
  | _ => {}

/-- The step relation; a label is a call with the bytes it moves. -/
def Steps (c : Connection) (e : ConnectionEvent × Traffic) (c' : Connection) : Prop :=
  c.step e.1 = some c' ∧ e.2 = c.traffic e.1

/-! ### The invariant -/

/-- Capacities that the bound on the queue never leaves. -/
def sendCapacityBound : ℕ := 2 ^ 20

structure Sending (c : Connection) : Prop where
  wf : c.sendBuf.WF
  capacity_le : c.sendBuf.buf.length ≤ sendCapacityBound
  readable_le : c.sendBuf.readable ≤ kSendQueueMax

theorem sending_fresh (id : ConnectionId) (fd : Fd) (nowMs : UInt64) :
    Sending (fresh id fd nowMs) where
  wf := Buffer.wf_ofInitial 4096
  capacity_le := by
    show (List.replicate (max 4096 64) (0 : UInt8)).length ≤ 2 ^ 20
    rw [List.length_replicate]
    norm_num
  readable_le := Nat.zero_le _

/-- Only the send buffer matters to the invariant. -/
theorem Sending.congr (h : Sending c) (hbuf : c'.sendBuf = c.sendBuf) : Sending c' := by
  obtain ⟨hwf, hcap, hread⟩ := h
  exact ⟨hbuf ▸ hwf, hbuf ▸ hcap, hbuf ▸ hread⟩

/-! ### Sending -/

theorem sendFrame_eq (c : Connection) (msgId : UInt32) (flags : UInt16) (seq : UInt64)
    (payload : List UInt8) :
    c.sendFrame msgId flags seq payload = match FrameCodec.encode msgId flags seq payload with
      | .ok data => c.sendRaw data
      | .error _ => some c := by
  unfold sendFrame sendRaw
  by_cases hs : c.canSend = true
  · rw [if_pos hs]
    cases FrameCodec.encode msgId flags seq payload with
    | ok data => simp only [hs, if_true]
    | error e => rfl
  · rw [if_neg hs]
    cases FrameCodec.encode msgId flags seq payload with
    | ok data => simp only [hs, Bool.false_eq_true, if_false]
    | error e => rfl

/-- **A send call** is answered, and queues all of `data` or nothing. -/
theorem sendRaw_spec (h : Sending c) (data : List UInt8) :
    ∃ c', c.sendRaw data = some c' ∧ Sending c' ∧
      c'.sendBuf.unread = c.sendBuf.unread ++ (if c.refuses data then [] else data) := by
  unfold sendRaw
  by_cases hs : c.canSend = true
  · rw [if_pos hs]
    by_cases hfull : kSendQueueMax < c.sendBuf.readable + data.length
    · rw [if_pos hfull]
      refine ⟨c.close, rfl, h.congr (sendBuf_close c), ?_⟩
      simp [refuses, hfull]
    · rw [if_neg hfull]
      have hcap := h.capacity_le
      simp only [kSendQueueMax, sendCapacityBound] at hfull hcap
      obtain ⟨b, hb, hwf, hun, hgrow⟩ :=
        Buffer.write_spec h.wf data (by omega) (by omega)
      have hread : b.readable = c.sendBuf.readable + data.length := by
        rw [← hwf.length_unread, hun, List.length_append, h.wf.length_unread]
      refine ⟨{ c with sendBuf := b }, by rw [hb]; rfl, ⟨hwf, ?_, ?_⟩, ?_⟩
      · show b.buf.length ≤ 2 ^ 20
        omega
      · show b.readable ≤ 256 * 1024
        omega
      · have hopen : c.refuses data = false := by
          simp only [refuses, hs, kSendQueueMax, Bool.not_true, Bool.false_or]
          exact decide_eq_false hfull
        rw [hopen]
        exact hun
  · rw [if_neg hs]
    refine ⟨c, rfl, h, ?_⟩
    simp [refuses, hs]

/-! ### The other operations -/

theorem sendBuf_onWritable (c : Connection) (w : WriteResult) :
    (c.onWritable w).sendBuf = (c.sendBuf.writeToFd w).1 := by
  unfold onWritable
  by_cases hzero : c.sendBuf.readable = 0
  · simp [Buffer.writeToFd, hzero]
  · rw [if_neg hzero]
    dsimp only
    split
    · exact sendBuf_close _
    · rfl

/-- `onWritable` removes from the front what the kernel accepted. -/
theorem onWritable_spec (h : Sending c) {w : WriteResult} (hw : c.Offers w) :
    Sending (c.onWritable w) ∧ c.sendBuf.unread =
      (c.traffic (.onWritable w)).accepted ++ (c.onWritable w).sendBuf.unread := by
  cases w with
  | accepted n =>
    obtain ⟨hwf, hun, hcap⟩ := Buffer.writeToFd_spec h.wf hw
    rw [← sendBuf_onWritable] at hwf hun hcap
    refine ⟨⟨hwf, hcap ▸ h.capacity_le, ?_⟩, ?_⟩
    · rw [← hwf.length_unread, hun, List.length_drop, h.wf.length_unread]
      exact (Nat.sub_le _ _).trans h.readable_le
    · rw [hun]
      exact (List.take_append_drop n _).symm
  | again =>
    have hsame : (c.onWritable .again).sendBuf = c.sendBuf := by
      rw [sendBuf_onWritable, Buffer.writeToFd_of_refused (by simp)]
    exact ⟨h.congr hsame, by rw [hsame]; rfl⟩
  | error =>
    have hsame : (c.onWritable .error).sendBuf = c.sendBuf := by
      rw [sendBuf_onWritable, Buffer.writeToFd_of_refused (by simp)]
    exact ⟨h.congr hsame, by rw [hsame]; rfl⟩

/-- Reading leaves the send buffer alone. -/
theorem sendBuf_onReadable {r : ReadResult} {nowMs : UInt64} {fs : List Frame}
    (h : c.onReadable r nowMs = some (c', fs)) : c'.sendBuf = c.sendBuf := by
  obtain ⟨⟨b, r'⟩, -, heq⟩ := Option.map_eq_some_iff.mp h
  cases r' with
  | data bytes =>
    have hkeep := (decodeLoop_frame
      (({ c with recvBuf := b } : Connection).updateActive nowMs)).2.2.1
    rw [show decodeLoop _ = (c', fs) from heq] at hkeep
    exact hkeep
  | again =>
    obtain ⟨rfl, -⟩ := Prod.mk.injEq .. ▸ heq
    rfl
  | _ =>
    obtain ⟨rfl, -⟩ := Prod.mk.injEq .. ▸ heq
    exact sendBuf_close _

/-! ### Runs -/

/-- **One call** conserves the stream and keeps the invariant. -/
theorem sending_step {e : ConnectionEvent × Traffic} (h : Sending c) (hstep : Steps c e c') :
    Sending c' ∧ c.sendBuf.unread ++ e.2.queued = e.2.accepted ++ c'.sendBuf.unread := by
  obtain ⟨ev, t⟩ := e
  obtain ⟨hstep, rfl⟩ : c.step ev = some c' ∧ t = c.traffic ev := hstep
  cases ev with
  | sendFrame msgId flags seq payload =>
    replace hstep : c.sendFrame msgId flags seq payload = some c' := hstep
    rw [sendFrame_eq] at hstep
    dsimp only [traffic]
    cases hdata : FrameCodec.encode msgId flags seq payload with
    | ok data =>
      rw [hdata] at hstep
      obtain ⟨c'', hsend, hinv, hun⟩ := sendRaw_spec h data
      obtain rfl := Option.some.inj (hsend.symm.trans hstep)
      refine ⟨hinv, ?_⟩
      rw [hun]
      dsimp only
      split <;> rfl
    | error e =>
      rw [hdata] at hstep
      obtain rfl := Option.some.inj hstep
      exact ⟨h, List.append_nil _⟩
  | sendRaw data =>
    obtain ⟨c'', hsend, hinv, hun⟩ := sendRaw_spec h data
    obtain rfl := Option.some.inj (hsend.symm.trans hstep)
    refine ⟨hinv, ?_⟩
    rw [hun]
    dsimp only [traffic]
    split <;> rfl
  | onWritable w =>
    replace hstep : (if c.Offers w then some (c.onWritable w) else none) = some c' := hstep
    split at hstep
    · rename_i hw
      obtain rfl := Option.some.inj hstep
      obtain ⟨hinv, hun⟩ := onWritable_spec h hw
      refine ⟨hinv, ?_⟩
      -- a write queues nothing
      have hnone : (c.traffic (.onWritable w)).queued = [] := by
        cases w <;> rfl
      rw [hnone, List.append_nil]
      exact hun
    · cases hstep
  | onReadable r nowMs =>
    obtain ⟨⟨c'', fs⟩, hread, rfl⟩ := Option.map_eq_some_iff.mp hstep
    have hsame := sendBuf_onReadable hread
    exact ⟨h.congr hsame, by rw [hsame]; exact List.append_nil _⟩
  | close =>
    obtain rfl := Option.some.inj hstep
    have hsame := sendBuf_close c
    exact ⟨h.congr hsame, by rw [hsame]; exact List.append_nil _⟩

/-- **The outgoing stream.**  In every run of calls on a new connection, the
bytes the kernel has accepted followed by the unread bytes of the send buffer
are the byte strings of the calls that were not refused, in call order; and
the queue never exceeds its limit. -/
theorem outgoing_stream {id : ConnectionId} {fd : Fd} {nowMs : UInt64}
    {as : List (ConnectionEvent × Traffic)}
    (h : Transition.Run Steps (fresh id fd nowMs) as c) :
    (as.map fun e => e.2.accepted).flatten ++ c.sendBuf.unread =
        (as.map fun e => e.2.queued).flatten ∧
      c.sendBuf.readable ≤ 262144 := by
  obtain ⟨hinv, hstream⟩ :=
    Transition.Run.conserved (fun _ _ _ hs hst => sending_step hs hst) h
      (sending_fresh id fd nowMs)
  have hempty : (fresh id fd nowMs).sendBuf.unread = [] := Buffer.unread_ofInitial 4096
  rw [hempty, List.nil_append] at hstream
  exact ⟨hstream.symm, hinv.readable_le⟩

/-- Three bytes queued, of which the kernel takes two. -/
def partialWrite : List ConnectionEvent := [.sendRaw [1, 2, 3], .onWritable (.accepted 2), .close]

/-- A call with the bytes it moves. -/
def observe (c : Connection) (ev : ConnectionEvent) : Option (Connection × Traffic) :=
  (c.step ev).map fun c' => (c', c.traffic ev)

theorem steps_of_observe {e : ConnectionEvent × Traffic} (h : c.observe e.1 = some (c', e.2)) :
    Steps c e c' := by
  obtain ⟨c'', hstep, heq⟩ := Option.map_eq_some_iff.mp h
  obtain ⟨rfl, ht⟩ := Prod.mk.injEq .. ▸ heq
  exact ⟨hstep, ht.symm⟩

theorem outgoing_stream_partialWrite :
    ∃ c as, as.map Prod.fst = partialWrite ∧ Transition.Run Steps (fresh 1 7 0) as c ∧
      (as.map fun e => e.2.accepted).flatten ++ c.sendBuf.unread =
        (as.map fun e => e.2.queued).flatten ∧ c.sendBuf.readable ≤ 262144 := by
  have hsome : (Transition.exec observe (fresh 1 7 0) partialWrite).isSome = true := by
    decide +kernel
  obtain ⟨⟨c, as⟩, hexec⟩ := Option.isSome_iff_exists.mp hsome
  have hrun : Transition.Run Steps (fresh 1 7 0) as c :=
    (Transition.run_of_exec hexec).mono fun _ _ _ => steps_of_observe
  exact ⟨c, as, Transition.map_fst_of_exec hexec, hrun, outgoing_stream hrun⟩

end Connection

end MiniArena
