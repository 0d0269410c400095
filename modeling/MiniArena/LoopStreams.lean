/-
MiniArena/LoopStreams.lean

The bytes that go through an event loop, connection by connection.

A step of the loop moves bytes on one connection at most.  An epoll event reads
from and writes to the socket of the connection `fd_to_id_` names; an iteration
of `drainPendingWrites` puts one write into the send buffer of the connection
it is for, or drops it.  `Exchange` is what a step moves on the connection
`id`, and `line_cases` says how.

`Down` and `Up` are the two directions.  Down, what the kernel has taken and
what waits in the send buffer are some of the writes for the connection, whole
and in order; a connection is removed when nothing waits.  Up, the frames handed
to the callback are what has been read, but for the half packet in the receive
buffer, if what has been read is a part of a stream of frames.  `Streams` has both
for every connection, and every step of the loop keeps it.
-/
import MiniArena.LoopRegistry
import MiniArena.PendingWrites
import MiniArena.SendQueue

namespace MiniArena

open FrameCodec WireFrame

/-! ### What a step moves -/

/-- The bytes of one `::read`. -/
def ReadResult.bytes : ReadResult → List UInt8
  | .data bytes => bytes
  | _ => []

namespace Connection

/-- What the kernel takes of the send buffer. -/
def accepts (c : Connection) : WriteResult → List UInt8
  | .accepted n => c.sendBuf.unread.take n
  | _ => []

/-- The kernel hands out at most what there is room for. -/
def fits (c : Connection) : ReadResult → Bool
  | .data bytes => decide (bytes.length ≤ c.offered)
  | _ => true

end Connection

/-- What a step of a loop moves on one connection. -/
structure Exchange where
  /-- Writes taken off the queue of the loop. -/
  popped : List (List UInt8) := []
  given : List UInt8 := []
  taken : List UInt8 := []
  heard : List Frame := []

/-- The frames of the callbacks for `id`. -/
def framesOf (id : ConnectionId) (outs : List LoopOut) : List Frame :=
  outs.flatMap fun
    | .frames a fs => if a = id then fs else []
    | .disconnect _ => []

namespace EventLoop

/-- The connection whose socket a step reads from and writes to. -/
def touched (l : EventLoop) : LoopEvent → Option Connection
  | .epoll fd _ _ _ _ _ => (l.fdToId.lookup fd).bind fun id => l.conns.lookup id
  | _ => none

/-- The kernel answers a read and a write with what is possible. -/
def possible (l : EventLoop) (ev : LoopEvent) : Bool :=
  match ev with
  | .epoll _ readable writable r w _ => (l.touched ev).all fun c =>
      (!readable || c.fits r) && (!writable || decide (c.Offers w))
  | _ => true

/-- What a step reads from the socket it touches. -/
def gives : LoopEvent → List UInt8
  | .epoll _ readable _ r _ _ => if readable then r.bytes else []
  | _ => []

/-- What the kernel takes in a step that touches `c`. -/
def takes (c : Connection) : LoopEvent → List UInt8
  | .epoll _ _ writable _ w _ => if writable then c.accepts w else []
  | _ => []

def exchange (l : EventLoop) (id : ConnectionId) (ev : LoopEvent) (outs : List LoopOut) :
    Exchange where
  popped :=
    match ev, l.pendingWrites with
    | .drainPendingWrites, (a, data) :: _ => if a = id then [data] else []
    | _, _ => []
  given :=
    match l.touched ev with
    | some c => if c.id = id then gives ev else []
    | none => []
  taken :=
    match l.touched ev with
    | some c => if c.id = id then takes c ev else []
    | none => []
  heard := framesOf id outs

/-- What waits in the send buffer of `id`. -/
def waiting (l : EventLoop) (id : ConnectionId) : List UInt8 :=
  match l.conns.lookup id with
  | some c => c.sendBuf.unread
  | none => []

/-- The writes for `id` that wait in the queue of the loop. -/
def queued (l : EventLoop) (id : ConnectionId) : List (List UInt8) :=
  l.pendingWrites.filterMap fun p => if p.1 = id then some p.2 else none

/-! ### What a step does to one connection -/

/-- The same buffers; the connection may be closed. -/
def SameBuffers (c c' : Connection) : Prop :=
  c'.sendBuf = c.sendBuf ∧ c'.recvBuf = c.recvBuf ∧ c'.illegalCount = c.illegalCount

theorem sameBuffers_refl (c : Connection) : SameBuffers c c := ⟨rfl, rfl, rfl⟩

theorem sameBuffers_trans (c₁ c₂ c₃ : Connection) (h : SameBuffers c₁ c₂)
    (h' : SameBuffers c₂ c₃) : SameBuffers c₁ c₃ :=
  ⟨h'.1.trans h.1, h'.2.1.trans h.2.1, h'.2.2.trans h.2.2⟩

theorem sameBuffers_close (c : Connection) : SameBuffers c c.close :=
  ⟨Connection.sendBuf_close c, Connection.recvBuf_close c, Connection.illegalCount_close c⟩

/-- **What a step does to the connection `id`.** -/
inductive LineCase (l l' : EventLoop) (id : ConnectionId) : Exchange → Prop
  /-- A write for a connection that is not there is dropped. -/
  | absent (popped : List (List UInt8)) (here : l.conns.lookup id = none)
      (there : l'.conns.lookup id = none) : LineCase l l' id { popped := popped }
  | still {c c' : Connection} (here : l.conns.lookup id = some c)
      (there : l'.conns.lookup id = some c') (same : SameBuffers c c') : LineCase l l' id {}
  | register {c : Connection} (waits : c ∈ l.pendingConns) (here : l.conns.lookup id = none)
      (there : l'.conns.lookup id = some c) : LineCase l l' id {}
  | remove {c : Connection} (here : l.conns.lookup id = some c)
      (there : l'.conns.lookup id = none) (flushed : c.sendBuf.readable = 0) : LineCase l l' id {}
  | queue {c c' : Connection} {data : List UInt8} (here : l.conns.lookup id = some c)
      (there : l'.conns.lookup id = some c') (sends : c.sendRaw data = some c') :
      LineCase l l' id { popped := [data] }
  | event {c c₁ : Connection} {fs : List Frame} {readable writable : Bool} {r : ReadResult}
      {w : WriteResult} {nowMs : UInt64} (here : l.conns.lookup id = some c)
      (there : l'.conns.lookup id = some (if writable then c₁.onWritable w else c₁))
      (reads : if readable then c.onReadable r nowMs = some (c₁, fs) else c₁ = c ∧ fs = [])
      (fits : readable = true → c.fits r = true) (offers : writable = true → c.Offers w) :
      LineCase l l' id
        { given := if readable then r.bytes else []
          taken := if writable then c.accepts w else []
          heard := if c₁.state = .closing then [] else fs }

variable {l l' : EventLoop} {id : ConnectionId} {ev : LoopEvent} {outs : List LoopOut}

/-- Connections that keep their buffers. -/
theorem lineCase_still (h : Finmap.Pointwise SameBuffers l.conns l'.conns) :
    LineCase l l' id {} := by
  rcases hc : l'.conns.lookup id with - | c'
  · refine .absent [] ?_ hc
    rw [Finmap.lookup_eq_none, ← h.mem_iff, ← Finmap.lookup_eq_none]
    exact hc
  · obtain ⟨c, hc₀, hsame⟩ := h.lookup hc
    exact .still hc₀ hc hsame

theorem lineCase_refl (h : l'.conns = l.conns) : LineCase l l' id {} := by
  refine lineCase_still ?_
  rw [h]
  exact .refl sameBuffers_refl _

theorem sameBuffers_closeConnection (l : EventLoop) (id : ConnectionId) :
    Finmap.Pointwise SameBuffers l.conns (l.closeConnection id).conns :=
  .modify sameBuffers_refl id sameBuffers_close

theorem sameBuffers_foldl {f : EventLoop → ConnectionId → EventLoop}
    (hf : ∀ l id, Finmap.Pointwise SameBuffers l.conns (f l id).conns) (l : EventLoop)
    (ids : List ConnectionId) : Finmap.Pointwise SameBuffers l.conns (ids.foldl f l).conns := by
  induction ids generalizing l with
  | nil => exact .refl sameBuffers_refl _
  | cons id ids ih => exact (hf l id).trans sameBuffers_trans (ih (f l id))

theorem sameBuffers_checkTimeout (nowMs timeoutMs : UInt64) (l : EventLoop) (id : ConnectionId) :
    Finmap.Pointwise SameBuffers l.conns (checkTimeout nowMs timeoutMs l id).conns := by
  unfold checkTimeout
  split
  · exact .refl sameBuffers_refl _
  · split
    · split
      · exact sameBuffers_closeConnection l _
      · exact .refl sameBuffers_refl _
    · exact .refl sameBuffers_refl _

/-- The pass of `cleanupClosed` closes some connections, and removes what is flushed. -/
theorem lineCase_cleanupClosed (l : EventLoop) (due order : List ConnectionId)
    (id : ConnectionId) : LineCase l (l.cleanupClosed due order).1 id {} := by
  have hclosed := sameBuffers_foldl sameBuffers_closeConnection l due
  have hlook : (l.cleanupClosed due order).1.conns.lookup id = _ :=
    lookup_cleanups (due.foldl closeConnection l, []) order id
  rcases hc : l.conns.lookup id with - | c
  · have hc' : (due.foldl closeConnection l).conns.lookup id = none := by
      rw [Finmap.lookup_eq_none, hclosed.mem_iff, ← Finmap.lookup_eq_none]
      exact hc
    refine .absent [] hc ?_
    rw [hlook, hc']
    split <;> rfl
  · obtain ⟨c', hc', hsame⟩ := hclosed.lookup_left hc
    rw [hc'] at hlook
    by_cases hgone : id ∈ order ∧ c'.shouldCleanup = true
    · refine .remove hc ?_ ?_
      · rw [hlook, if_pos hgone.1, Option.filter_some, hgone.2]
        rfl
      · have hflushed := (of_decide_eq_true hgone.2).2
        rwa [hsame.1] at hflushed
    · refine .still hc ?_ hsame
      rw [hlook]
      split
      · rename_i hord
        rw [Option.filter_some, Bool.eq_false_iff.mpr fun hclean => hgone ⟨hord, hclean⟩]
        rfl
      · rfl

theorem lineCase_drainPendingWrites (h : l.drainPendingWrites = some l') :
    LineCase l l' id (l.exchange id .drainPendingWrites []) := by
  unfold exchange
  rcases drainPendingWrites_cases h with ⟨hq, rfl⟩ | ⟨a, data, ws, hq, hcase⟩
  · rw [hq]
    exact lineCase_refl rfl
  rw [hq]
  dsimp only
  rcases hcase with ⟨hc, rfl⟩ | ⟨c, c', hc, hsend, rfl⟩
  · by_cases ha : a = id
    · subst ha
      exact .absent _ hc hc
    · rw [if_neg ha]
      exact lineCase_refl rfl
  · by_cases ha : a = id
    · subst ha
      rw [if_pos rfl]
      exact .queue hc (Finmap.lookup_insert ..) hsend
    · rw [if_neg ha]
      have hsame : (l.conns.insert a c').lookup id = l.conns.lookup id :=
        Finmap.lookup_insert_of_ne _ (Ne.symm ha)
      rcases hid : l.conns.lookup id with - | d
      · exact .absent [] hid (hsame.trans hid)
      · exact .still hid (hsame.trans hid) (sameBuffers_refl d)

theorem framesOf_nil (id : ConnectionId) : framesOf id [] = [] := rfl

theorem framesOf_frames (a id : ConnectionId) (fs : List Frame) :
    framesOf id [.frames a fs] = if a = id then fs else [] := List.append_nil _

/-- The read of an event: the other connections are not touched, and no frames are handed out of
one that is closing. -/
theorem handleReadable_spec {c : Connection} {a : ConnectionId} {r : ReadResult} {nowMs : UInt64}
    (h : l.handleReadable a c r nowMs = some (l', outs)) :
    ∃ c₁ fs, c.onReadable r nowMs = some (c₁, fs) ∧ l'.conns = l.conns.insert a c₁ ∧
      ∀ id, framesOf id outs = if a = id then (if c₁.state = .closing then [] else fs) else [] := by
  obtain ⟨⟨c₁, fs⟩, hread, heq⟩ := Option.map_eq_some_iff.mp h
  dsimp only at heq
  refine ⟨c₁, fs, hread, ?_⟩
  split at heq
  · rename_i hstate
    obtain ⟨rfl, rfl⟩ := Prod.mk.injEq .. ▸ heq
    refine ⟨?_, fun id => by rw [if_pos hstate, ite_self, framesOf_nil]⟩
    -- closing once more changes nothing
    have hclose : c₁.close = c₁ := by rw [Connection.close, if_pos (.inr hstate)]
    show (l.conns.insert a c₁).modify a Connection.close = _
    rw [Finmap.modify_of_lookup (Finmap.lookup_insert ..), hclose, Finmap.insert_insert]
  split at heq
  · rename_i hstate _
    obtain ⟨rfl, rfl⟩ := Prod.mk.injEq .. ▸ heq
    exact ⟨rfl, fun id => by rw [if_neg hstate, framesOf_frames]⟩
  · rename_i hstate hfs
    obtain ⟨rfl, rfl⟩ := Prod.mk.injEq .. ▸ heq
    refine ⟨rfl, fun id => ?_⟩
    rw [not_not.mp hfs, ite_self, ite_self, framesOf_nil]

/-- **One event** reads and writes on the connection it is about, and on no other. -/
theorem lineCase_epoll {fd : Fd} {readable writable : Bool} {r : ReadResult} {w : WriteResult}
    {nowMs : UInt64} (hown : l.OwnIds)
    (h : l.handleEvent fd readable writable r w nowMs = some (l', outs))
    (hpossible : l.possible (.epoll fd readable writable r w nowMs) = true) :
    LineCase l l' id (l.exchange id (.epoll fd readable writable r w nowMs) outs) := by
  unfold handleEvent at h
  unfold exchange
  simp only [possible, touched] at hpossible ⊢
  split at h
  · rename_i hfd
    obtain ⟨rfl, rfl⟩ := Prod.mk.injEq .. ▸ Option.some.inj h
    rw [hfd]
    exact lineCase_refl rfl
  rename_i a hfd
  rw [hfd, Option.bind_some] at hpossible ⊢
  split at h
  · rename_i hc
    obtain ⟨rfl, rfl⟩ := Prod.mk.injEq .. ▸ Option.some.inj h
    rw [hc]
    exact lineCase_refl rfl
  rename_i c hc
  rw [hc] at hpossible ⊢
  simp only [Option.all_some, Bool.and_eq_true, Bool.or_eq_true, Bool.not_eq_true',
    decide_eq_true_eq] at hpossible
  obtain ⟨⟨l₁, outs₁⟩, hfirst, heq⟩ := Option.map_eq_some_iff.mp h
  obtain ⟨rfl, rfl⟩ := Prod.mk.injEq .. ▸ heq
  -- the readable half
  obtain ⟨c₁, fs, hreads, hconns, hframes⟩ : ∃ c₁ fs,
      (if readable then c.onReadable r nowMs = some (c₁, fs) else c₁ = c ∧ fs = []) ∧
      l₁.conns = l.conns.insert a c₁ ∧
      ∀ id, framesOf id outs₁ =
        if a = id then (if c₁.state = .closing then [] else fs) else [] := by
    cases readable with
    | true => exact handleReadable_spec hfirst
    | false =>
      obtain ⟨rfl, rfl⟩ := Prod.mk.injEq .. ▸ Option.some.inj hfirst
      refine ⟨c, [], ⟨rfl, rfl⟩, ?_, fun id => by rw [ite_self, ite_self, framesOf_nil]⟩
      apply Finmap.ext_lookup
      intro k
      rw [Finmap.lookup_insert_eq]
      split
      · rename_i hk
        rw [hk, hc]
      · rfl
  have hlook : ∀ k, (if writable then l₁.handleWritable a w else l₁).conns.lookup k =
      if k = a then some (if writable then c₁.onWritable w else c₁) else l.conns.lookup k := by
    intro k
    cases writable with
    | true =>
      show (l₁.conns.modify a fun c => c.onWritable w).lookup k = _
      rw [hconns, Finmap.modify_of_lookup (Finmap.lookup_insert ..), Finmap.insert_insert,
        Finmap.lookup_insert_eq]
      rfl
    | false =>
      show l₁.conns.lookup k = _
      rw [hconns, Finmap.lookup_insert_eq]
      rfl
  by_cases ha : a = id
  · subst ha
    have hid := hown a c hc
    simp only [hframes, if_pos hid, if_true, gives, takes]
    exact .event hc (by rw [hlook, if_pos rfl]) hreads
      (fun hr => (hpossible.1.resolve_left (by rw [hr]; exact Bool.noConfusion)))
      (fun hw => (hpossible.2.resolve_left (by rw [hw]; exact Bool.noConfusion)))
  · have hid : c.id ≠ id := fun heq => ha ((hown a c hc).symm.trans heq)
    have hsame := hlook id
    rw [if_neg (Ne.symm ha)] at hsame
    simp only [hframes, if_neg hid, if_neg ha]
    rcases hd : l.conns.lookup id with - | d
    · exact .absent [] hd (hsame.trans hd)
    · exact .still hd (hsame.trans hd) (sameBuffers_refl d)

theorem framesOf_cleanupClosed (l : EventLoop) (due order : List ConnectionId)
    (id : ConnectionId) : framesOf id (l.cleanupClosed due order).2 = [] := by
  have hfold : ∀ p : EventLoop × List LoopOut, framesOf id p.2 = [] →
      framesOf id (order.foldl cleanup p).2 = [] := by
    intro p hp
    induction order generalizing p with
    | nil => exact hp
    | cons a order ih =>
      apply ih
      unfold cleanup
      split
      · exact hp
      · split
        · rw [framesOf, List.flatMap_append, ← framesOf, hp]
          rfl
        · exact hp
  exact hfold _ rfl

/-- **What a step can do to a connection.** -/
theorem line_cases (hown : l.OwnIds)
    (hnew : ∀ c cs, l.pendingConns = c :: cs → l.conns.lookup c.id = none)
    (h : l.step ev = some (l', outs)) (hpossible : l.possible ev = true) :
    LineCase l l' id (l.exchange id ev outs) := by
  cases ev with
  | addConnection c =>
    obtain ⟨rfl, rfl⟩ := Prod.mk.injEq .. ▸ Option.some.inj h
    exact lineCase_refl rfl
  | sendToConnection a data =>
    obtain ⟨rfl, rfl⟩ := Prod.mk.injEq .. ▸ Option.some.inj h
    exact lineCase_refl rfl
  | drainPending registered =>
    obtain ⟨rfl, rfl⟩ := Prod.mk.injEq .. ▸ Option.some.inj h
    show LineCase l (l.drainPending registered) id {}
    rcases hp : l.pendingConns with - | ⟨c, cs⟩
    · rw [drainPending_nil hp]
      exact lineCase_refl rfl
    · cases registered with
      | false =>
        rw [drainPending_false hp]
        exact lineCase_refl rfl
      | true =>
        rw [drainPending_true hp]
        by_cases hid : c.id = id
        · subst hid
          exact .register (hp ▸ List.mem_cons_self) (hnew c cs hp) (Finmap.lookup_insert ..)
        · have hsame : (l.conns.insert c.id c).lookup id = l.conns.lookup id :=
            Finmap.lookup_insert_of_ne _ (Ne.symm hid)
          rcases hd : l.conns.lookup id with - | d
          · exact .absent [] hd (hsame.trans hd)
          · exact .still hd (hsame.trans hd) (sameBuffers_refl d)
  | drainPendingWrites =>
    obtain ⟨l₁, hl, heq⟩ := Option.map_eq_some_iff.mp h
    obtain ⟨rfl, rfl⟩ := Prod.mk.injEq .. ▸ heq
    exact lineCase_drainPendingWrites hl
  | epoll fd readable writable r w nowMs => exact lineCase_epoll hown h hpossible
  | closeConnection a =>
    obtain ⟨rfl, rfl⟩ := Prod.mk.injEq .. ▸ Option.some.inj h
    exact lineCase_still (sameBuffers_closeConnection l a)
  | checkTimeouts nowMs timeoutMs order =>
    obtain ⟨rfl, rfl⟩ := Prod.mk.injEq .. ▸ Option.some.inj h
    exact lineCase_still (sameBuffers_foldl (sameBuffers_checkTimeout nowMs timeoutMs) l order)
  | cleanupClosed due order =>
    obtain ⟨rfl, rfl⟩ := Prod.mk.injEq .. ▸ Option.some.inj h
    have hquiet : l.exchange id (.cleanupClosed due order) (l.cleanupClosed due order).2 = {} :=
      congrArg (fun heard => ({ heard := heard } : Exchange))
        (framesOf_cleanupClosed l due order id)
    exact hquiet ▸ lineCase_cleanupClosed l due order id

/-! ### Down -/

/-- The writes for `id` that an event hands to the loop. -/
def asks (id : ConnectionId) : LoopEvent → List (List UInt8)
  | .sendToConnection a data => if a = id then [data] else []
  | _ => []

/-- The queue of the loop is first in, first out. -/
theorem queued_step (h : l.step ev = some (l', outs)) (id : ConnectionId) :
    l.queued id ++ asks id ev = (l.exchange id ev outs).popped ++ l'.queued id := by
  by_cases hsend : ∃ a data, ev = .sendToConnection a data
  · obtain ⟨a, data, rfl⟩ := hsend
    obtain ⟨rfl, rfl⟩ := Prod.mk.injEq .. ▸ Option.some.inj h
    simp only [queued, asks, exchange, List.filterMap_append, List.nil_append]
    split <;> rename_i ha <;> simp [ha]
  have hnone : asks id ev = [] := by
    cases ev with
    | sendToConnection a data => exact absurd ⟨a, data, rfl⟩ hsend
    | _ => rfl
  rw [hnone, List.append_nil]
  by_cases hdrain : ev = .drainPendingWrites
  · subst hdrain
    obtain ⟨l₁, hl, heq⟩ := Option.map_eq_some_iff.mp h
    obtain ⟨rfl, rfl⟩ := Prod.mk.injEq .. ▸ heq
    unfold exchange queued
    rw [pendingWrites_drainPendingWrites hl]
    rcases hq : l.pendingWrites with - | ⟨⟨a, data⟩, ws⟩
    · rfl
    · simp only [List.tail_cons]
      split <;> rename_i ha <;> simp [ha]
  · have hpopped : (l.exchange id ev outs).popped = [] := by
      cases ev with
      | drainPendingWrites => exact absurd rfl hdrain
      | _ => rfl
    rw [hpopped, List.nil_append, queued, queued,
      pendingWrites_step h (fun a data heq => hsend ⟨a, data, heq⟩) hdrain]

/-- The acceptor hands in new connections. -/
def Fresh (c : Connection) : Prop := ∃ id fd nowMs, c = .fresh id fd nowMs

/-- What has been taken of the connection `id` in terms of the writes for it. -/
structure Down (l : EventLoop) (id : ConnectionId) (asked : List (List UInt8))
    (taken : List UInt8) : Prop where
  sending : ∀ c, l.conns.lookup id = some c → c.Sending
  stream : ∃ popped sent : List (List UInt8), asked = popped ++ l.queued id ∧ sent.Sublist popped ∧
    taken ++ l.waiting id = sent.flatten

theorem waiting_of_lookup {c : Connection} (h : l.conns.lookup id = some c) :
    l.waiting id = c.sendBuf.unread := by
  rw [waiting, h]

theorem waiting_of_none (h : l.conns.lookup id = none) : l.waiting id = [] := by
  rw [waiting, h]

/-- What a step does to the send buffer: some of the writes it takes off the queue go in, and what
the kernel takes goes out. -/
theorem LineCase.sends {x : Exchange} (h : LineCase l l' id x)
    (hsending : ∀ c, l.conns.lookup id = some c → c.Sending)
    (hfresh : ∀ c ∈ l.pendingConns, Fresh c) :
    (∀ c, l'.conns.lookup id = some c → c.Sending) ∧
      ∃ more : List (List UInt8), more.Sublist x.popped ∧
        x.taken ++ l'.waiting id = l.waiting id ++ more.flatten := by
  have hnothing : ∀ {popped : List (List UInt8)}, l'.waiting id = l.waiting id →
      ∃ more : List (List UInt8), more.Sublist popped ∧
        [] ++ l'.waiting id = l.waiting id ++ more.flatten :=
    fun heq => ⟨[], List.nil_sublist _, by rw [heq, List.flatten_nil, List.append_nil]; rfl⟩
  have honly : ∀ {c'}, l'.conns.lookup id = some c' → c'.Sending →
      ∀ c, l'.conns.lookup id = some c → c.Sending := by
    intro c' hc' hsend c hc
    obtain rfl := Option.some.inj (hc'.symm.trans hc)
    exact hsend
  have hgone : l'.conns.lookup id = none → ∀ c, l'.conns.lookup id = some c → c.Sending := by
    intro hnone c hc
    rw [hnone] at hc
    cases hc
  cases h with
  | absent popped here there =>
    refine ⟨hgone there, hnothing ?_⟩
    rw [waiting_of_none here, waiting_of_none there]
  | still here there same =>
    refine ⟨honly there ((hsending _ here).congr same.1), hnothing ?_⟩
    rw [waiting_of_lookup here, waiting_of_lookup there, same.1]
  | register waits here there =>
    obtain ⟨a, fd, nowMs, rfl⟩ := hfresh _ waits
    refine ⟨honly there (Connection.sending_fresh a fd nowMs), hnothing ?_⟩
    rw [waiting_of_none here, waiting_of_lookup there]
    exact Buffer.unread_ofInitial 4096
  | remove here there flushed =>
    refine ⟨hgone there, hnothing ?_⟩
    have hlen := (hsending _ here).wf.length_unread
    rw [waiting_of_none there, waiting_of_lookup here]
    exact (List.eq_nil_of_length_eq_zero (hlen.trans flushed)).symm
  | @queue c c' data here there sends =>
    obtain ⟨c'', hsend, hinv, hun⟩ := Connection.sendRaw_spec (hsending _ here) data
    obtain rfl := Option.some.inj (hsend.symm.trans sends)
    refine ⟨honly there hinv, ?_⟩
    rw [waiting_of_lookup here, waiting_of_lookup there, hun]
    split
    · exact ⟨[], List.nil_sublist _, rfl⟩
    · exact ⟨[data], List.Sublist.refl _, by rw [List.flatten_singleton]; rfl⟩
  | @event c c₁ fs readable writable r w nowMs here there reads fits offers =>
    -- the read leaves the send buffer alone
    have hsame : c₁.sendBuf = c.sendBuf := by
      cases readable with
      | true => exact Connection.sendBuf_onReadable reads
      | false => rw [reads.1]
    have hsend₁ := (hsending _ here).congr hsame
    cases writable with
    | false =>
      refine ⟨honly there hsend₁, hnothing ?_⟩
      rw [waiting_of_lookup here, waiting_of_lookup there, ← hsame]
      rfl
    | true =>
      have hoffer : c₁.Offers w := by
        have := offers rfl
        cases w with
        | accepted n =>
          show n ≤ c₁.sendBuf.readable
          rw [hsame]
          exact this
        | _ => trivial
      obtain ⟨hinv, hun⟩ := Connection.onWritable_spec hsend₁ hoffer
      refine ⟨honly there hinv, [], List.nil_sublist _, ?_⟩
      rw [waiting_of_lookup here, waiting_of_lookup there, List.flatten_nil, List.append_nil,
        ← hsame, hun]
      congr 1
      cases w with
      | accepted n =>
        show c.sendBuf.unread.take n = c₁.sendBuf.unread.take n
        rw [hsame]
      | _ => rfl

theorem Down.step {x : Exchange} {asked new : List (List UInt8)} {taken : List UInt8}
    (h : Down l id asked taken) (hcase : LineCase l l' id x)
    (hqueue : l.queued id ++ new = x.popped ++ l'.queued id)
    (hfresh : ∀ c ∈ l.pendingConns, Fresh c) :
    Down l' id (asked ++ new) (taken ++ x.taken) := by
  obtain ⟨popped, sent, hasked, hsub, hstream⟩ := h.stream
  obtain ⟨hsending, more, hmore, hmoved⟩ := hcase.sends h.sending hfresh
  refine ⟨hsending, popped ++ x.popped, sent ++ more, ?_, hsub.append hmore, ?_⟩
  · rw [hasked, List.append_assoc, hqueue, List.append_assoc]
  · rw [List.append_assoc, hmoved, ← List.append_assoc, hstream, List.flatten_append]

/-! ### Up -/

/-- A connection between two reads depends on its receive buffer and its count. -/
theorem receiving_congr {c c' : Connection} (h : c.Receiving) (hbuf : c'.recvBuf = c.recvBuf)
    (hcount : c'.illegalCount = c.illegalCount) : c'.Receiving := by
  obtain ⟨hwf, hcap, hhalf, hnone⟩ := h
  exact ⟨hbuf ▸ hwf, hbuf ▸ hcap, hbuf ▸ hhalf, hcount ▸ hnone⟩

/-- A read that brings nothing makes room at most. -/
theorem onReadable_quiet {c c' : Connection} {r : ReadResult} {nowMs : UInt64} {fs : List Frame}
    (hc : c.Receiving) (hr : ∀ bytes, r ≠ .data bytes)
    (h : c.onReadable r nowMs = some (c', fs)) :
    fs = [] ∧ c'.Receiving ∧ c'.recvBuf.unread = c.recvBuf.unread := by
  have hshort := length_lt_of_scan_none hc.half
  rw [hc.wf.length_unread] at hshort
  have hcap := hc.capacity_le
  simp only [kHeaderSize, kMaxPayload, Connection.recvCapacityBound] at hshort hcap
  obtain ⟨b, hb, hwf, hun, hroom, hgrow⟩ :=
    Buffer.ensureWrite_spec hc.wf 4096 (by omega) (by omega)
  have hspace : ¬ b.writable = 0 := by omega
  have hgrown : ({ c with recvBuf := b } : Connection).Receiving := by
    refine ⟨hwf, ?_, ?_, hc.no_illegal⟩
    · show b.buf.length ≤ 2 ^ 18
      omega
    · show scan b.unread = .ok none
      rw [hun]
      exact hc.half
  rw [Connection.onReadable, Buffer.readFromFd, hb, Option.map_some, if_neg hspace] at h
  cases r with
  | data bytes => exact absurd rfl (hr bytes)
  | again =>
    obtain ⟨rfl, rfl⟩ := Prod.mk.injEq .. ▸ Option.some.inj h
    exact ⟨rfl, hgrown, hun⟩
  | eof =>
    obtain ⟨rfl, rfl⟩ := Prod.mk.injEq .. ▸ Option.some.inj h
    exact ⟨rfl, receiving_congr hgrown (Connection.recvBuf_close _)
      (Connection.illegalCount_close _), by rw [Connection.recvBuf_close]; exact hun⟩
  | error =>
    obtain ⟨rfl, rfl⟩ := Prod.mk.injEq .. ▸ Option.some.inj h
    exact ⟨rfl, receiving_congr hgrown (Connection.recvBuf_close _)
      (Connection.illegalCount_close _), by rw [Connection.recvBuf_close]; exact hun⟩

theorem recvBuf_sendRaw {c c' : Connection} {data : List UInt8} (h : c.sendRaw data = some c') :
    c'.recvBuf = c.recvBuf ∧ c'.illegalCount = c.illegalCount := by
  unfold Connection.sendRaw at h
  split at h
  · split at h
    · obtain rfl := Option.some.inj h
      exact ⟨Connection.recvBuf_close c, Connection.illegalCount_close c⟩
    · obtain ⟨⟨b, n⟩, -, rfl⟩ := Option.map_eq_some_iff.mp h
      exact ⟨rfl, rfl⟩
  · obtain rfl := Option.some.inj h
    exact ⟨rfl, rfl⟩

theorem recvBuf_onWritable (c : Connection) (w : WriteResult) :
    (c.onWritable w).recvBuf = c.recvBuf ∧ (c.onWritable w).illegalCount = c.illegalCount := by
  unfold Connection.onWritable
  split
  · exact ⟨rfl, rfl⟩
  · dsimp only
    split
    · exact ⟨Connection.recvBuf_close _, Connection.illegalCount_close _⟩
    · exact ⟨rfl, rfl⟩

/-- The frames that have been handed out of the connection `id` in terms of what has been read from
it; `rest` is the half packet that stays. -/
structure Heard (l : EventLoop) (id : ConnectionId) (heard : List Frame) (flight : List UInt8)
    (ys zs : List WireFrame) (rest : List UInt8) : Prop where
  frames : heard = ys.map toFrame
  left : rest ++ flight = framing.encodeAll zs
  half : scan rest = .ok none
  receiving : ∀ c, l.conns.lookup id = some c → c.Receiving ∧ c.recvBuf.unread = rest

/-- Whatever stream of frames a part has been read of. -/
def Up (l : EventLoop) (id : ConnectionId) (given : List UInt8) (heard : List Frame) : Prop :=
  ∀ flight fs, given ++ flight = framing.encodeAll fs →
    ∃ ys zs rest, fs = ys ++ zs ∧ Heard l id heard flight ys zs rest

theorem Up.step {x : Exchange} {given : List UInt8} {heard : List Frame} (h : Up l id given heard)
    (hcase : LineCase l l' id x) (hfresh : ∀ c ∈ l.pendingConns, Fresh c)
    (hfirst : l.conns.lookup id = none → id ∈ l'.conns → given = []) :
    Up l' id (given ++ x.given) (heard ++ x.heard) := by
  intro flight fs hstream
  rw [List.append_assoc] at hstream
  obtain ⟨ys, zs, rest, rfl, hheard⟩ := h _ fs hstream
  have honly : ∀ {c' : Connection}, l'.conns.lookup id = some c' → c'.Receiving →
      c'.recvBuf.unread = rest → ∀ c, l'.conns.lookup id = some c →
      c.Receiving ∧ c.recvBuf.unread = rest := by
    intro c' hc' hrec hun c hc
    obtain rfl := Option.some.inj (hc'.symm.trans hc)
    exact ⟨hrec, hun⟩
  have hgone : l'.conns.lookup id = none → ∀ c, l'.conns.lookup id = some c →
      c.Receiving ∧ c.recvBuf.unread = rest := by
    intro hnone c hc
    rw [hnone] at hc
    cases hc
  have hquiet : x.given = [] → x.heard = [] →
      (∀ c, l'.conns.lookup id = some c → c.Receiving ∧ c.recvBuf.unread = rest) →
      ∃ ys' zs' rest, ys ++ zs = ys' ++ zs' ∧
        Heard l' id (heard ++ x.heard) flight ys' zs' rest := by
    intro hgiven hnone hrec
    have hleft := hheard.left
    rw [hgiven, List.nil_append] at hleft
    refine ⟨ys, zs, rest, rfl, ?_, hleft, hheard.half, hrec⟩
    rw [hnone, List.append_nil]
    exact hheard.frames
  cases hcase with
  | absent popped here there => exact hquiet rfl rfl (hgone there)
  | still here there same =>
    obtain ⟨hrec, hun⟩ := hheard.receiving _ here
    exact hquiet rfl rfl (honly there (receiving_congr hrec same.2.1 same.2.2)
      (by rw [same.2.1]; exact hun))
  | remove here there flushed => exact hquiet rfl rfl (hgone there)
  | @queue c c' data here there sends =>
    obtain ⟨hrec, hun⟩ := hheard.receiving _ here
    obtain ⟨hbuf, hcount⟩ := recvBuf_sendRaw sends
    exact hquiet rfl rfl (honly there (receiving_congr hrec hbuf hcount) (by rw [hbuf]; exact hun))
  | register waits here there =>
    -- nothing has been read yet, so nothing has been handed out
    have hnone := hfirst here (Finmap.mem_iff.mpr ⟨_, there⟩)
    obtain ⟨ys', zs', rest', hnil, hheard'⟩ := h [] [] (by rw [hnone]; rfl)
    obtain ⟨rfl, rfl⟩ := List.append_eq_nil_iff.mp hnil.symm
    obtain rfl : ys = [] := List.map_eq_nil_iff.mp (hheard.frames.symm.trans hheard'.frames)
    have hrest : rest = [] := by
      have hleft := hheard.left
      rw [hnone, List.nil_append, List.nil_append] at hstream
      rw [List.nil_append, hstream] at hleft
      exact List.append_left_eq_self.mp hleft
    obtain ⟨a, fd, nowMs, rfl⟩ := hfresh _ waits
    exact hquiet rfl rfl (honly there (Connection.receiving_fresh a fd nowMs)
      ((Buffer.unread_ofInitial 4096).trans hrest.symm))
  | @event c c₁ gs readable writable r w nowMs here there reads fits offers =>
    obtain ⟨hrec, hun⟩ := hheard.receiving _ here
    -- the write leaves the receive buffer alone
    have hend : ∀ {rest'}, c₁.Receiving → c₁.recvBuf.unread = rest' →
        ∀ d, l'.conns.lookup id = some d → d.Receiving ∧ d.recvBuf.unread = rest' := by
      intro rest' hrec₁ hun₁ d hd
      obtain rfl := Option.some.inj (there.symm.trans hd)
      cases writable with
      | false => exact ⟨hrec₁, hun₁⟩
      | true =>
        obtain ⟨hbuf, hcount⟩ := recvBuf_onWritable c₁ w
        exact ⟨receiving_congr hrec₁ hbuf hcount, (congrArg Buffer.unread hbuf).trans hun₁⟩
    cases readable with
    | false =>
      obtain ⟨rfl, rfl⟩ := reads
      exact hquiet rfl (ite_self _) (hend hrec hun)
    | true =>
      by_cases hr : ∃ bytes, r = .data bytes
      · obtain ⟨bytes, rfl⟩ := hr
        have hleft := hheard.left
        rw [show Exchange.given _ = bytes from rfl, ← hun, ← List.append_assoc] at hleft
        obtain ⟨c', ys', zs', hread, rfl, hdrains, hz, hrec', hactive⟩ :=
          Connection.onReadable_data hrec nowMs (of_decide_eq_true (fits rfl)) hleft
        obtain ⟨rfl, rfl⟩ := Prod.mk.injEq .. ▸ Option.some.inj (hread.symm.trans reads)
        refine ⟨ys ++ ys', zs', c'.recvBuf.unread, (List.append_assoc ..).symm, ?_, hz, hrec'.half,
          hend hrec' rfl⟩
        rw [hheard.frames, List.map_append]
        congr 1
        exact if_neg (by rw [hactive]; decide)
      · have hnot : ∀ bytes, r ≠ .data bytes := fun bytes heq => hr ⟨bytes, heq⟩
        obtain ⟨rfl, hrec₁, hun₁⟩ := onReadable_quiet hrec hnot reads
        have hbytes : r.bytes = [] := by
          cases r with
          | data bytes => exact absurd rfl (hnot bytes)
          | _ => rfl
        exact hquiet hbytes (ite_self _) (hend hrec₁ (hun₁.trans hun))

/-! ### All connections of the loop -/

/-- The two directions of every connection, in terms of the past. -/
structure Streams (past : List (LoopEvent × List LoopOut)) (l : EventLoop)
    (given taken : ConnectionId → List UInt8) : Prop where
  /-- What has been read from has been registered. -/
  silent : ∀ id, given id ≠ [] → id ∈ registered past
  down : ∀ id, Down l id (past.flatMap fun a => asks id a.1) (taken id)
  up : ∀ id, Up l id (given id) (past.flatMap fun a => framesOf id a.2)

/-- A read touches a registered connection. -/
theorem mem_of_given (hown : l.OwnIds) (h : (l.exchange id ev outs).given ≠ []) :
    id ∈ l.conns := by
  rcases ht : l.touched ev with - | c
  · exact absurd (by simp only [exchange, ht]) h
  by_cases hid : c.id = id
  · cases ev with
    | epoll fd readable writable r w nowMs =>
      obtain ⟨a, -, hc⟩ := Option.bind_eq_some_iff.mp ht
      rw [← hid, hown a c hc]
      exact Finmap.mem_iff.mpr ⟨c, hc⟩
    | _ => cases ht
  · exact absurd (by simp only [exchange, ht, if_neg hid]) h

/-- A connection that is new to the table is new to the loop. -/
theorem Accounts.not_registered {past : List (LoopEvent × List LoopOut)} (h : Accounts past l)
    (hids : (addedIds past).Nodup) (hstep : l.step ev = some (l', outs))
    (hnone : l.conns.lookup id = none) (hin : id ∈ l'.conns) : id ∉ registered past := by
  have hout : id ∉ l.conns := Finmap.lookup_eq_none.mp hnone
  cases step_cases h.registry hstep with
  | enqueue c => exact absurd hin hout
  | register hp =>
    rcases Finmap.mem_insert.mp hin with rfl | hin
    · exact h.head_fresh hids hp
    · exact absurd hin hout
  | drop hp => exact absurd hin hout
  | keep hadd hdrain hkept houts => exact absurd (hkept.conns.mem_iff.mp hin) hout
  | remove hrem => exact absurd ((hrem.mem_iff id).mp hin).1 hout

theorem streams_empty : Streams [] {} (fun _ => []) fun _ => [] where
  silent := fun _ hne => absurd rfl hne
  down := fun id => by
    refine ⟨fun c hc => ?_, [], [], rfl, List.nil_sublist _, rfl⟩
    rw [Finmap.lookup_empty] at hc
    cases hc
  up := fun id flight fs hstream => by
    refine ⟨[], fs, [], rfl, rfl, hstream, rfl, fun c hc => ?_⟩
    rw [Finmap.lookup_empty] at hc
    cases hc

/-- **One step.** -/
theorem Streams.step {past : List (LoopEvent × List LoopOut)}
    {given taken : ConnectionId → List UInt8} (h : Streams past l given taken)
    (haccounts : Accounts past l) (hids : (addedIds past).Nodup)
    (hfresh : ∀ c ∈ l.pendingConns, Fresh c) (hstep : l.step ev = some (l', outs))
    (hpossible : l.possible ev = true) :
    Streams (past ++ [(ev, outs)]) l' (fun id => given id ++ (l.exchange id ev outs).given)
      fun id => taken id ++ (l.exchange id ev outs).taken := by
  have hown := haccounts.registry.own
  have hcase : ∀ id, LineCase l l' id (l.exchange id ev outs) := fun id => by
    refine line_cases hown (fun c cs hp => ?_) hstep hpossible
    rw [Finmap.lookup_eq_none, haccounts.live]
    exact fun hin => haccounts.head_fresh hids hp hin.1
  refine ⟨fun id hne => ?_, fun id => ?_, fun id => ?_⟩
  · apply registered_concat
    by_cases hgiven : given id = []
    · rw [hgiven, List.nil_append] at hne
      exact ((haccounts.live id).mp (mem_of_given hown hne)).1
    · exact h.silent id hgiven
  · rw [List.flatMap_append]
    show Down l' id (_ ++ (asks id ev ++ [])) _
    rw [List.append_nil]
    exact (h.down id).step (hcase id) (queued_step hstep id) hfresh
  · rw [List.flatMap_append]
    show Up l' id _ (_ ++ (framesOf id outs ++ []))
    rw [List.append_nil]
    refine (h.up id).step (hcase id) hfresh fun hnone hin => ?_
    by_contra hgiven
    exact haccounts.not_registered hids hstep hnone hin (h.silent id hgiven)

end EventLoop

end MiniArena
