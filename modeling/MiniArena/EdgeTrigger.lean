/-
MiniArena/EdgeTrigger.lean

One registered connection, its kernel receive queue and its epoll
registration (`EventLoop::handleEvents`, `enableWrite`, `disableWrite`).

`addConnectionImpl` registers for `EPOLLIN`, level-triggered.  The first
`enableWrite` or `disableWrite` makes the registration edge-triggered, and it
stays so.  From then on `EPOLLIN` is reported after an arrival or an
`EPOLL_CTL_MOD` only (`armed`), while a readable event does one `::read` of
the space the receive buffer offers.

An iteration of the loop is `wake` (`epoll_wait` returns), any number of
`drainWrite` and one `handle`; after it the connection is `waiting` again.
Bytes arrive at any time, `close` stands for `checkTimeouts` and the heartbeat
timer.  Which bytes count as a rejected header is `MeetsRejected`.
-/
import MiniArena.ReceiveBound
import MiniArena.SendQueue

namespace MiniArena

/-- Where the loop is with the connection. -/
inductive WatchPhase
  | waiting
  /-- `epoll_wait` has returned with these two events, or none. -/
  | woken (readable writable : Bool)

structure Watched where
  conn : Connection
  /-- The bytes the kernel has received and not handed out. -/
  kernel : List UInt8 := []
  /-- `EPOLLET` is set. -/
  edge : Bool := false
  /-- `EPOLLOUT` is set. -/
  out : Bool := false
  /-- Bytes have arrived, or a `EPOLL_CTL_MOD` was made, since the last report. -/
  armed : Bool := false
  phase : WatchPhase := .waiting

inductive WatchEvent
  | arrive (bytes : List UInt8)
  /-- `hup` is an `EPOLLERR` or `EPOLLHUP`, which count as readable. -/
  | wake (hup writable : Bool)
  | drainWrite (data : List UInt8)
  | handle (r : ReadResult) (w : WriteResult) (nowMs : UInt64)
  | close

namespace Watched

/-- An `EPOLLIN` report is pending. -/
def reports (s : Watched) : Bool := decide (s.kernel ≠ []) && (!s.edge || s.armed)

def enableWrite (s : Watched) : Watched := { s with edge := true, out := true, armed := true }

def disableWrite (s : Watched) : Watched := { s with edge := true, out := false, armed := true }

/-- What the kernel may answer to `::read`. -/
def Answers (s : Watched) : ReadResult → Prop
  | .data bytes => s.kernel ≠ [] ∧ bytes = s.kernel.take s.conn.offered
  | .error => True
  | _ => s.kernel = []

/-- What is left in the kernel after the answer. -/
def remaining (s : Watched) : ReadResult → List UInt8
  | .data bytes => s.kernel.drop bytes.length
  | _ => s.kernel

/-- The writable half of `handleEvents`. -/
def handleWritable (s : Watched) (w : WriteResult) : Watched :=
  let s := { s with conn := s.conn.onWritable w }
  let s := if s.conn.shouldCleanup then s.disableWrite else s
  if !s.conn.hasPendingWrites then s.disableWrite else s

/-- `handleEvents` after the readable half. -/
def finish (s : Watched) (writable : Bool) (w : WriteResult) : Watched :=
  if writable then { s with phase := .waiting }.handleWritable w else { s with phase := .waiting }

/-- One step.  A vector is never longer than `max_size()`, so growing the
receive buffer ends below `2 ^ 63`. -/
inductive Steps : Watched → WatchEvent → Watched → Prop
  | arrive (s : Watched) (bytes : List UInt8) :
      Steps s (.arrive bytes) { s with kernel := s.kernel ++ bytes, armed := true }
  | wake {s : Watched} {hup writable : Bool} (hphase : s.phase = .waiting)
      (hout : writable = true → s.out = true) :
      Steps s (.wake hup writable)
        { s with armed := false, phase := .woken (hup || s.reports) writable }
  | drainWrite {s : Watched} {data : List UInt8} {c : Connection} {readable writable : Bool}
      (hphase : s.phase = .woken readable writable) (hsend : s.conn.sendRaw data = some c) :
      Steps s (.drainWrite data) { s with conn := c }.enableWrite
  | read {s : Watched} {r : ReadResult} {w : WriteResult} {nowMs : UInt64} {c : Connection}
      {fs : List Frame} {writable : Bool} (hphase : s.phase = .woken true writable)
      (hans : s.Answers r) (hread : s.conn.onReadable r nowMs = some (c, fs))
      (hsize : c.recvBuf.buf.length < 2 ^ 63) :
      Steps s (.handle r w nowMs) ({ s with conn := c, kernel := s.remaining r }.finish writable w)
  | noRead {s : Watched} {r : ReadResult} {w : WriteResult} {nowMs : UInt64} {writable : Bool}
      (hphase : s.phase = .woken false writable) :
      Steps s (.handle r w nowMs) (s.finish writable w)
  | close {s : Watched} (hphase : s.phase = .waiting) :
      Steps s .close { s with conn := s.conn.close }

/-- After an iteration, an active connection with unread bytes is reported again. -/
def NoneStranded (s : Watched) : Prop :=
  s.phase = .waiting → s.conn.state = .active → s.kernel ≠ [] → s.reports = true

/-- A read takes all there is, unless a further report is due anyway: on a
level-triggered registration, when bytes arrived after `epoll_wait` returned,
or when the event is writable, too, and flushes the send buffer, so that
`disableWrite` follows.  An event that closes the connection is exempt. -/
def ReadsAll (s : Watched) : WatchEvent → Prop
  | .handle (.data bytes) w _ => ∀ writable, s.phase = .woken true writable → s.edge = true →
      s.armed = false → ¬ MeetsRejected (s.conn.recvBuf.unread ++ bytes) →
      ¬ (writable = true ∧ w = .error ∧ 0 < s.conn.sendBuf.readable) →
      s.kernel.length ≤ s.conn.offered ∨
        (writable = true ∧ (s.conn.sendBuf.writeToFd w).1.readable = 0)
  | _ => True

/-! ### The writable half -/

theorem state_onWritable (c : Connection) (w : WriteResult) :
    (c.onWritable w).state = .active ↔
      c.state = .active ∧ ¬ (w = .error ∧ 0 < c.sendBuf.readable) := by
  unfold Connection.onWritable
  split
  · rename_i hzero
    simp [hzero]
  · rename_i hne
    have hpos : 0 < c.sendBuf.readable := Nat.pos_of_ne_zero hne
    have herror : (c.sendBuf.writeToFd w).2 = .error ↔ w = .error := by
      unfold Buffer.writeToFd
      rw [if_neg hne]
      cases w <;> simp
    dsimp only
    split
    · rename_i hw
      have hclosed : ({ c with sendBuf := (c.sendBuf.writeToFd w).1 } : Connection).close.state ≠
          .active := by
        rw [Connection.state_close]
        split <;> simp
      exact iff_of_false hclosed fun h => h.2 ⟨herror.mp hw, hpos⟩
    · rename_i hw
      simp [herror.not.mp hw]

/-- `disableWrite` follows the write exactly when nothing is left to send. -/
theorem handleWritable_eq (s : Watched) (w : WriteResult) :
    s.handleWritable w = if (s.conn.sendBuf.writeToFd w).1.readable = 0
      then { s with conn := s.conn.onWritable w }.disableWrite
      else { s with conn := s.conn.onWritable w } := by
  have hbuf := Connection.sendBuf_onWritable s.conn w
  unfold handleWritable
  dsimp only
  by_cases hzero : (s.conn.sendBuf.writeToFd w).1.readable = 0
  · have hpending : (s.conn.onWritable w).hasPendingWrites = false := by
      simp [Connection.hasPendingWrites, hbuf, hzero]
    rw [if_pos hzero]
    split
    · simp [disableWrite, hpending]
    · simp [hpending]
  · have hpending : (s.conn.onWritable w).hasPendingWrites = true := by
      simpa [Connection.hasPendingWrites, hbuf] using Nat.pos_of_ne_zero hzero
    have hclean : (s.conn.onWritable w).shouldCleanup = false := by
      simp [Connection.shouldCleanup, hbuf, hzero]
    simp [hclean, hpending, hzero]

theorem reports_iff (s : Watched) :
    s.reports = true ↔ s.kernel ≠ [] ∧ (s.edge = true → s.armed = true) := by
  unfold reports
  cases s.edge <;> simp

/-- What the writable half leaves to be reported. -/
theorem noneStranded_handleWritable {s : Watched} {w : WriteResult} (hphase : s.phase = .waiting) :
    (s.handleWritable w).NoneStranded ↔ (s.conn.state = .active →
      ¬ (w = .error ∧ 0 < s.conn.sendBuf.readable) → s.kernel ≠ [] →
      (s.conn.sendBuf.writeToFd w).1.readable = 0 ∨ s.reports = true) := by
  have hstate := state_onWritable s.conn w
  rw [handleWritable_eq]
  split
  · rename_i hzero
    -- `disableWrite` is an `EPOLL_CTL_MOD`, after which the bytes are reported
    refine iff_of_true (fun _ _ hk => ?_) fun _ _ _ => Or.inl hzero
    rw [reports_iff]
    exact ⟨hk, fun _ => rfl⟩
  · rename_i hzero
    constructor
    · exact fun h hact hfail hk => Or.inr (h hphase (hstate.mpr ⟨hact, hfail⟩) hk)
    · intro h _ hact hk
      obtain ⟨hact, hfail⟩ := hstate.mp hact
      exact (h hact hfail hk).resolve_left hzero

/-! ### One step -/

/-- What holds between the steps of an iteration, too: the bytes are
reported, or they have been and the read is to come. -/
def Good (s : Watched) : Prop :=
  s.conn.state = .active → s.kernel ≠ [] →
    s.reports = true ∨ ∃ writable, s.phase = .woken true writable

/-- The receive buffer is one that C++ can have. -/
def Sized (s : Watched) : Prop := s.conn.recvBuf.WF ∧ s.conn.recvBuf.buf.length < 2 ^ 63

theorem Good.noneStranded {s : Watched} (h : Good s) : s.NoneStranded := by
  intro hphase hact hk
  rcases h hact hk with hrep | ⟨writable, hwoken⟩
  · exact hrep
  · rw [hphase] at hwoken
    cases hwoken

theorem good_of_waiting {s : Watched} (hphase : s.phase = .waiting) (h : s.NoneStranded) :
    Good s := fun hact hk => Or.inl (h hphase hact hk)

theorem conn_finish (s : Watched) (writable : Bool) (w : WriteResult) :
    (s.finish writable w).conn = if writable then s.conn.onWritable w else s.conn := by
  unfold finish
  split
  · rw [handleWritable_eq]
    split <;> rfl
  · rfl

/-- The event takes nothing from the kernel and ends the iteration. -/
theorem finish_frame (s : Watched) (writable : Bool) (w : WriteResult) :
    (s.finish writable w).phase = .waiting ∧ (s.finish writable w).kernel = s.kernel ∧
      (s.finish writable w).conn.recvBuf = s.conn.recvBuf ∧
      (s.edge = true → (s.finish writable w).edge = true) := by
  unfold finish
  split
  · rw [handleWritable_eq]
    split
    · exact ⟨rfl, rfl, sameRecv_onWritable s.conn w, fun _ => rfl⟩
    · exact ⟨rfl, rfl, sameRecv_onWritable s.conn w, id⟩
  · exact ⟨rfl, rfl, rfl, id⟩

theorem sized_finish {s : Watched} {writable : Bool} {w : WriteResult} (h : Sized s) :
    Sized (s.finish writable w) := by
  rw [Sized, (finish_frame s writable w).2.2.1]
  exact h

theorem onReadable_ensureWrite {c c' : Connection} {r : ReadResult} {nowMs : UInt64}
    {fs : List Frame} (h : c.onReadable r nowMs = some (c', fs)) :
    ∃ b, c.recvBuf.ensureWrite 4096 = some b := by
  obtain ⟨⟨b, r'⟩, hread, -⟩ := Option.map_eq_some_iff.mp h
  obtain ⟨b', hb, -⟩ := Option.map_eq_some_iff.mp hread
  exact ⟨b', hb⟩

theorem fits_of_answers {s : Watched} {r : ReadResult} (h : s.Answers r) : s.conn.Fits r := by
  rintro bytes rfl
  rw [h.2, List.length_take]
  exact Nat.min_le_left _ _

/-- A read that ends is one the receive path describes. -/
theorem reads_of_answers {s : Watched} {r : ReadResult} {nowMs : UInt64} {c : Connection}
    {fs : List Frame} (hs : Sized s) (hans : s.Answers r)
    (hread : s.conn.onReadable r nowMs = some (c, fs)) : s.conn.Reads r c := by
  obtain ⟨b, hb⟩ := onReadable_ensureWrite hread
  obtain ⟨c', fs', hread', hr, -⟩ :=
    Connection.reads_of_ensureWrite hs.1 hs.2 hb r nowMs (fits_of_answers hans)
  obtain ⟨rfl, -⟩ := Prod.mk.injEq .. ▸ Option.some.inj (hread'.symm.trans hread)
  exact hr

theorem Sized.step {s s' : Watched} {e : WatchEvent} (h : Sized s) (hstep : Steps s e s') :
    Sized s' := by
  cases hstep with
  | arrive bytes => exact h
  | wake hphase hout => exact h
  | drainWrite hphase hsend =>
    have hsame := sameRecv_sendRaw hsend
    exact ⟨hsame ▸ h.1, hsame ▸ h.2⟩
  | read hphase hans hread hsize =>
    exact sized_finish ⟨(reads_of_answers h hans hread).wf, hsize⟩
  | noRead hphase => exact sized_finish h
  | close hphase =>
    have hsame : s.conn.close.recvBuf = s.conn.recvBuf := Connection.recvBuf_close _
    exact ⟨hsame ▸ h.1, hsame ▸ h.2⟩

/-- What is left to be reported after the event. -/
theorem noneStranded_finish {s : Watched} {writable : Bool} {w : WriteResult} :
    (s.finish writable w).NoneStranded ↔ (s.conn.state = .active →
      ¬ (writable = true ∧ w = .error ∧ 0 < s.conn.sendBuf.readable) → s.kernel ≠ [] →
      (writable = true ∧ (s.conn.sendBuf.writeToFd w).1.readable = 0) ∨ s.reports = true) := by
  cases writable with
  | true =>
    show ({ s with phase := .waiting }.handleWritable w).NoneStranded ↔ _
    rw [noneStranded_handleWritable rfl]
    simp only [true_and]
    rfl
  | false =>
    simp only [Bool.false_eq_true, false_and, not_false_eq_true, false_or, true_implies]
    exact ⟨fun h => h rfl, fun h _ => h⟩

/-- **The readable event.** -/
theorem noneStranded_read {s : Watched} {r : ReadResult} {w : WriteResult} {nowMs : UInt64}
    {c : Connection} {fs : List Frame} {writable : Bool} (hs : Sized s)
    (hphase : s.phase = .woken true writable) (hans : s.Answers r)
    (hread : s.conn.onReadable r nowMs = some (c, fs)) :
    ({ s with conn := c, kernel := s.remaining r }.finish writable w).NoneStranded ↔
      s.ReadsAll (.handle r w nowMs) := by
  have hr := reads_of_answers hs hans hread
  rw [noneStranded_finish]
  show (c.state = .active → ¬ (writable = true ∧ w = .error ∧ 0 < c.sendBuf.readable) →
    s.remaining r ≠ [] → (writable = true ∧ (c.sendBuf.writeToFd w).1.readable = 0) ∨ _) ↔ _
  rw [hr.sendBuf]
  cases r with
  | data bytes =>
    obtain ⟨hcloses, hstays⟩ := hr.data bytes rfl
    -- the event closes the connection exactly if the bytes reach a rejected header
    have hact : c.state = .active ↔ ¬ MeetsRejected (s.conn.recvBuf.unread ++ bytes) := by
      refine ⟨fun hact hm => ?_, hstays⟩
      rw [hcloses hm] at hact
      cases hact
    -- one read takes as much as the buffer offers
    have hleft : s.remaining (.data bytes) ≠ [] ↔ ¬ s.kernel.length ≤ s.conn.offered := by
      rw [remaining, hans.2, List.length_take, Ne, List.drop_eq_nil_iff]
      omega
    constructor
    · intro h writable' hp hedge harmed hm hfail
      rw [hphase] at hp
      cases hp
      by_cases hall : s.kernel.length ≤ s.conn.offered
      · exact Or.inl hall
      rcases h (hact.mpr hm) hfail (hleft.mpr hall) with hflush | hrep
      · exact Or.inr hflush
      · have hrearmed := ((reports_iff _).mp hrep).2 hedge
        rw [show s.armed = true from hrearmed] at harmed
        cases harmed
    · intro h hc hfail hk
      by_cases hmode : s.edge = true → s.armed = true
      · exact Or.inr ((reports_iff _).mpr ⟨hk, hmode⟩)
      · obtain ⟨hedge, harmed⟩ := Classical.not_imp.mp hmode
        exact Or.inl ((h writable hphase hedge (Bool.eq_false_iff.mpr harmed) (hact.mp hc)
          hfail).resolve_left (hleft.mp hk))
  -- the kernel answers these two only when it has no bytes
  | again => exact iff_of_true (fun _ _ hk => absurd hans hk) trivial
  | eof => exact iff_of_true (fun _ _ hk => absurd hans hk) trivial
  | error =>
    refine iff_of_true (fun hact => ?_) trivial
    rw [hr.other (by simp), if_neg (by simp), Connection.state_close] at hact
    split at hact <;> cases hact

/-- **One step** strands nothing exactly when it meets the condition. -/
theorem noneStranded_step {s s' : Watched} {e : WatchEvent} (hs : Sized s) (h : Good s)
    (hstep : Steps s e s') :
    (s'.NoneStranded ↔ s.ReadsAll e) ∧ (s'.NoneStranded → Good s') := by
  cases hstep with
  | arrive bytes =>
    have hgood : Good { s with kernel := s.kernel ++ bytes, armed := true } :=
      fun _ hk => Or.inl ((reports_iff _).mpr ⟨hk, fun _ => rfl⟩)
    exact ⟨iff_of_true hgood.noneStranded trivial, fun _ => hgood⟩
  | @wake hup writable hphase hout =>
    have hgood : Good { s with armed := false, phase := .woken (hup || s.reports) writable } := by
      intro hact hk
      refine Or.inr ⟨writable, ?_⟩
      -- what was pending is what `epoll_wait` reports
      show WatchPhase.woken (hup || s.reports) writable = _
      rw [h.noneStranded hphase hact hk, Bool.or_true]
    exact ⟨iff_of_true hgood.noneStranded trivial, fun _ => hgood⟩
  | @drainWrite data c readable writable hphase hsend =>
    have hgood : Good { s with conn := c }.enableWrite :=
      fun _ hk => Or.inl ((reports_iff _).mpr ⟨hk, fun _ => rfl⟩)
    exact ⟨iff_of_true hgood.noneStranded trivial, fun _ => hgood⟩
  | read hphase hans hread hsize =>
    exact ⟨noneStranded_read hs hphase hans hread, good_of_waiting (finish_frame _ _ _).1⟩
  | @noRead r w nowMs writable hphase =>
    -- the bytes that are left were not reported before
    have hnone : (s.finish writable w).NoneStranded := by
      rw [noneStranded_finish]
      intro hact _ hk
      rcases h hact hk with hrep | ⟨writable', hwoken⟩
      · exact Or.inr hrep
      · rw [hphase] at hwoken
        cases hwoken
    have hreads : s.ReadsAll (.handle r w nowMs) := by
      cases r with
      | data bytes =>
        intro writable' hp
        rw [hphase] at hp
        cases hp
      | _ => trivial
    exact ⟨iff_of_true hnone hreads, good_of_waiting (finish_frame _ _ _).1⟩
  | close hphase =>
    have hgood : Good { s with conn := s.conn.close } := by
      intro hact
      have hclosed : s.conn.close.state ≠ .active := by
        rw [Connection.state_close]
        split <;> simp
      exact absurd hact hclosed
    exact ⟨iff_of_true hgood.noneStranded trivial, fun _ => hgood⟩

/-- The connection is the one `handleEvents` leaves in `conns_`. -/
theorem lookup_handleEvent_finish {l l' : EventLoop} {s : Watched} {fd : Fd}
    {readable writable : Bool} {r : ReadResult} {w : WriteResult} {nowMs : UInt64}
    {outs : List LoopOut} {id : ConnectionId}
    (h : l.handleEvent fd readable writable r w nowMs = some (l', outs))
    (hid : l.fdToId.lookup fd = some id) (hc : l.conns.lookup id = some s.conn) :
    ∃ c, (readable = true → ∃ fs, s.conn.onReadable r nowMs = some (c, fs)) ∧
      (readable = false → c = s.conn) ∧
      l'.conns.lookup id = some ({ s with conn := c }.finish writable w).conn := by
  obtain ⟨c, hread, hno, hlook⟩ := EventLoop.lookup_handleEvent h hid hc
  refine ⟨c, hread, hno, ?_⟩
  rw [hlook, if_pos rfl, conn_finish]

/-! ### Runs -/

/-- Just registered, with what the peer has sent already. -/
def registered (id : ConnectionId) (fd : Fd) (nowMs : UInt64) (kernel : List UInt8) : Watched where
  conn := Connection.fresh id fd nowMs
  kernel := kernel

/-- **No input is stranded** exactly in the runs in which every read takes all
there is, or a further report is due anyway.  What a report makes of a watched
connection is what `handleEvents` leaves in `conns_`. -/
theorem none_stranded (id : ConnectionId) (fd : Fd) (nowMs : UInt64) (kernel : List UInt8)
    {s : Watched} {es : List WatchEvent} :
    (Transition.Run (fun s e s' => Steps s e s' ∧ s'.NoneStranded) (registered id fd nowMs kernel)
        es s ↔
      Transition.Run (fun s e s' => Steps s e s' ∧ s.ReadsAll e) (registered id fd nowMs kernel)
        es s) ∧
    ∀ (l l' : EventLoop) (readable writable : Bool) (r : ReadResult) (w : WriteResult)
      (now : UInt64) (outs : List LoopOut),
      l.handleEvent fd readable writable r w now = some (l', outs) →
      l.fdToId.lookup fd = some id → l.conns.lookup id = some s.conn →
      ∃ c, (readable = true → ∃ fs, s.conn.onReadable r now = some (c, fs)) ∧
        (readable = false → c = s.conn) ∧
        l'.conns.lookup id = some ({ s with conn := c }.finish writable w).conn := by
  refine ⟨?_, fun _ _ _ _ _ _ _ _ => lookup_handleEvent_finish⟩
  have hrecv := Connection.receiving_fresh id fd nowMs
  apply Transition.Run.guard_congr (J := Sized) (B := Good)
  · exact fun s e s' h hstep => h.step hstep
  · exact fun s e s' hs h hstep => (noneStranded_step hs h hstep).1
  · exact fun s e s' hs h hstep => (noneStranded_step hs h hstep).2
  · exact ⟨hrecv.wf, lt_of_le_of_lt hrecv.capacity_le (by norm_num [Connection.recvCapacityBound])⟩
  · intro hact
    cases hact

/-! ### A frame that arrives at once -/

/-- A frame that one read of 4096 bytes does not take. -/
def bigFrame : WireFrame := ⟨4001, 0, 1, List.replicate 5000 0, by
  rw [List.length_replicate]; decide⟩

theorem length_bigFrame : bigFrame.bytes.length = 5018 := by
  have hpayload : bigFrame.payload.length = 5000 := List.length_replicate ..
  rw [WireFrame.length_bytes, hpayload]
  rfl

/-- A reply that is queued and flushed leaves the registration edge-triggered. -/
theorem edge_after_reply : ∃ (es : List WatchEvent) (s : Watched),
    Transition.Run Steps (registered 1 7 0 []) es s ∧ s.phase = .waiting ∧ s.kernel = [] ∧
      s.conn.recvBuf = Buffer.ofInitial 4096 ∧ s.edge = true := by
  let fresh := Connection.fresh 1 7 0
  obtain ⟨b, hsend, -⟩ : ∃ b, fresh.sendRaw [0] = some { fresh with sendBuf := b } ∧ b.WF ∧
      b.unread = [0] := Connection.sendRaw_fresh 1 7 0 (by decide)
  let idle : Watched := { registered 1 7 0 [] with phase := .woken false false }
  let queued : Watched := { idle with conn := { fresh with sendBuf := b } }.enableWrite
  obtain ⟨hphase, hkernel, hrecv, hedge⟩ := finish_frame queued false .again
  have hrun : Transition.Run Steps (registered 1 7 0 [])
      [.wake false false, .drainWrite [0], .handle .again .again 0] (queued.finish false .again) :=
    .cons (.wake rfl (by simp)) (.cons (.drainWrite (s := idle) rfl hsend)
      (.single (.noRead (s := queued) rfl)))
  exact ⟨_, _, hrun, hphase, hkernel, hrecv, hedge rfl⟩

/-- A read of a new buffer offers its 4096 bytes. -/
theorem offered_ofInitial {c : Connection} (hrecv : c.recvBuf = Buffer.ofInitial 4096) :
    c.offered = 4096 := by
  have hspace : (Buffer.ofInitial 4096).writable = 4096 := by
    simp only [Buffer.writable, Buffer.ofInitial, List.length_replicate]
    norm_num
  rw [Connection.offered, hrecv, Buffer.ensureWrite, if_pos hspace.ge, Option.map_some, hspace,
    Option.getD_some]

/-- The first 4096 bytes of the frame are a half packet. -/
theorem not_meetsRejected_take : ¬ MeetsRejected (bigFrame.bytes.take 4096) := by
  have hscan : FrameCodec.scan (bigFrame.bytes.take 4096) = .ok none := by
    apply WireFrame.scan_incomplete bigFrame (List.take_append_drop 4096 bigFrame.bytes).symm
    exact List.ne_nil_of_length_pos (by rw [List.length_drop, length_bigFrame]; decide)
  rw [MeetsRejected, leftover_of_none hscan, hscan]
  simp

/-- The frame comes in one piece, the event reads 4096 bytes of it, and the
rest waits for bytes that do not come. -/
theorem stranded_rest {s : Watched} (hphase : s.phase = .waiting) (hkernel : s.kernel = [])
    (hrecv : s.conn.recvBuf = Buffer.ofInitial 4096) (hedge : s.edge = true) :
    ∃ (es : List WatchEvent) (s' : Watched), Transition.Run Steps s es s' ∧
      s'.phase = .waiting ∧ s'.conn.state = .active ∧ s'.kernel ≠ [] ∧ s'.reports = false := by
  have hne : bigFrame.bytes ≠ [] := List.ne_nil_of_length_pos (by rw [length_bigFrame]; decide)
  -- the first 4096 bytes, which is what the read will take
  obtain ⟨chunk, hchunk⟩ : ∃ chunk, chunk = bigFrame.bytes.take 4096 := ⟨_, rfl⟩
  let arrived : Watched := { s with kernel := s.kernel ++ bigFrame.bytes, armed := true }
  have harrived : arrived.kernel = bigFrame.bytes := by
    show s.kernel ++ bigFrame.bytes = _
    rw [hkernel, List.nil_append]
  have hreports : arrived.reports = true :=
    (reports_iff arrived).mpr ⟨harrived ▸ hne, fun _ => rfl⟩
  let woken : Watched :=
    { arrived with armed := false, phase := .woken (false || arrived.reports) false }
  have hwoken : woken.phase = .woken true false := by
    show WatchPhase.woken (false || arrived.reports) false = _
    rw [hreports]
    rfl
  have hoffered : woken.conn.offered = 4096 := offered_ofInitial hrecv
  have hans : woken.Answers (.data chunk) := by
    refine ⟨?_, ?_⟩
    · show arrived.kernel ≠ []
      rw [harrived]
      exact hne
    · rw [hoffered]
      show _ = arrived.kernel.take 4096
      rw [harrived, hchunk]
  have hbounded : Connection.Bounded woken.conn.recvBuf := by
    show Connection.Bounded s.conn.recvBuf
    rw [hrecv]
    exact Connection.bounded_ofInitial
  obtain ⟨c, fs, hread, hr, hcap⟩ : ∃ c fs,
      woken.conn.onReadable (.data chunk) 0 = some (c, fs) ∧
        woken.conn.Reads (.data chunk) c ∧
        c.recvBuf.buf.length ≤ Connection.recvCapacityBound :=
    Connection.reads_onReadable hbounded (fits_of_answers hans)
  have hsize : c.recvBuf.buf.length < 2 ^ 63 :=
    lt_of_le_of_lt hcap (by norm_num [Connection.recvCapacityBound])
  -- what was read is a half packet
  have hhalf : ¬ MeetsRejected (woken.conn.recvBuf.unread ++ chunk) := by
    show ¬ MeetsRejected (s.conn.recvBuf.unread ++ _)
    rw [hrecv, Buffer.unread_ofInitial, List.nil_append, hchunk]
    exact not_meetsRejected_take
  let read : Watched :=
    { woken with conn := c, kernel := woken.remaining (.data chunk) }
  obtain ⟨hdone, hleft, -, hmode⟩ := finish_frame read false .again
  have hrest : read.kernel ≠ [] := by
    show arrived.kernel.drop chunk.length ≠ []
    apply List.ne_nil_of_length_pos
    rw [harrived, hchunk, List.length_drop, List.length_take, length_bigFrame]
    decide
  have hrun : Transition.Run Steps s
      [.arrive bigFrame.bytes, .wake false false,
        .handle (.data chunk) .again 0] (read.finish false .again) :=
    .cons (.arrive s bigFrame.bytes) (.cons (.wake (s := arrived) hphase (by simp))
      (.single (.read hwoken hans hread hsize)))
  refine ⟨_, _, hrun, hdone, (hr.data _ rfl).2 hhalf, ?_, ?_⟩
  · rw [hleft]
    exact hrest
  · have harmed : (read.finish false .again).armed = false := rfl
    rw [reports, hmode hedge, harmed]
    simp

/-- A connection that has had a reply strands the rest of a frame of 5018 bytes. -/
theorem stranded : ∃ (es : List WatchEvent) (s : Watched),
    Transition.Run Steps (registered 1 7 0 []) es s ∧ s.phase = .waiting ∧
      s.conn.state = .active ∧ s.kernel ≠ [] ∧ s.reports = false := by
  obtain ⟨es, s, hrun, hphase, hkernel, hrecv, hedge⟩ := edge_after_reply
  obtain ⟨es', s', hrest, h⟩ := stranded_rest hphase hkernel hrecv hedge
  exact ⟨_, s', hrun.append hrest, h⟩

end Watched

end MiniArena
