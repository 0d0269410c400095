/-
MiniArena/PendingWrites.lean

What becomes of the writes other threads hand to an event loop
(`sendToConnection`, `drainPendingWrites`).

The calls of `sendToConnection` are numbered in the order in which they take
`pending_writes_mtx_`; `handed` are the numbers of those whose data was given
to `sendRaw`.  A write is due if it came after the `addConnection` of its
connection and before that connection started to close.

Registrations wait in a queue of their own, which `run` empties after the
writes, and `drainPendingWrites` drops what it finds no connection for.  The
steps here come in any order, that of `run` among them.
-/
import MiniArena.ConnectionMoves
import MiniArena.Receive

namespace MiniArena

/-- One call of `sendToConnection`. -/
structure LoopWrite where
  id : ConnectionId
  data : List UInt8
  due : Prop

structure PendingWrites where
  loop : EventLoop := {}
  /-- The ids handed in by `addConnection`. -/
  added : List ConnectionId := []
  /-- The connections that have started to close. -/
  closing : Set ConnectionId := ∅
  sent : List LoopWrite := []
  popped : ℕ := 0
  handed : List ℕ := []

namespace EventLoop

/-- Handed in, and not registered yet. -/
def Waits (l : EventLoop) (id : ConnectionId) : Prop := id ∈ l.pendingConns.map Connection.id

/-! ### What a step does to the ids and to the queue of writes -/

/-- The pass of `cleanupClosed` over `order`, with the heartbeat timers of `due`, removes `id`. -/
def Removed (l : EventLoop) (due order : List ConnectionId) (id : ConnectionId) : Prop :=
  id ∈ order ∧ ∃ c, l.conns.lookup id = some c ∧
    (if id ∈ due then c.close else c).shouldCleanup = true

theorem mem_conns_cleanupClosed (l : EventLoop) (due order : List ConnectionId)
    (id : ConnectionId) :
    id ∈ (l.cleanupClosed due order).1.conns ↔ id ∈ l.conns ∧ ¬ l.Removed due order id := by
  have hlook : (l.cleanupClosed due order).1.conns.lookup id =
      if id ∈ order then ((due.foldl closeConnection l).conns.lookup id).filter (!·.shouldCleanup)
      else (due.foldl closeConnection l).conns.lookup id := lookup_cleanups _ order id
  rw [lookup_closeConnections] at hlook
  rw [Finmap.mem_iff, Finmap.mem_iff, hlook, Removed]
  rcases hc : l.conns.lookup id with - | c
  · simp
  · by_cases hord : id ∈ order <;> by_cases hdue : id ∈ due <;> simp [hord, hdue]

theorem pendingWrites_closeConnections (l : EventLoop) (due : List ConnectionId) :
    (due.foldl closeConnection l).pendingWrites = l.pendingWrites := by
  induction due generalizing l with
  | nil => rfl
  | cons a due ih => exact ih (l.closeConnection a)

theorem pendingWrites_checkTimeouts (nowMs timeoutMs : UInt64) (l : EventLoop)
    (order : List ConnectionId) :
    (order.foldl (checkTimeout nowMs timeoutMs) l).pendingWrites = l.pendingWrites := by
  induction order generalizing l with
  | nil => rfl
  | cons a order ih =>
    rw [List.foldl_cons, ih]
    unfold checkTimeout
    split
    · rfl
    · split
      · split <;> rfl
      · rfl

theorem pendingWrites_handleEvent {l l' : EventLoop} {fd : Fd} {readable writable : Bool}
    {r : ReadResult} {w : WriteResult} {nowMs : UInt64} {outs : List LoopOut}
    (h : l.handleEvent fd readable writable r w nowMs = some (l', outs)) :
    l'.pendingWrites = l.pendingWrites := by
  unfold handleEvent at h
  split at h
  · obtain ⟨rfl, -⟩ := Prod.mk.injEq .. ▸ Option.some.inj h
    rfl
  split at h
  · obtain ⟨rfl, -⟩ := Prod.mk.injEq .. ▸ Option.some.inj h
    rfl
  rename_i id hid c hc
  obtain ⟨⟨l₁, outs₁⟩, hfirst, heq⟩ := Option.map_eq_some_iff.mp h
  obtain ⟨rfl, rfl⟩ := Prod.mk.injEq .. ▸ heq
  have hread : l₁.pendingWrites = l.pendingWrites := by
    cases readable with
    | false =>
      obtain ⟨rfl, -⟩ := Prod.mk.injEq .. ▸ Option.some.inj hfirst
      rfl
    | true =>
      obtain ⟨⟨c', fs⟩, -, heq⟩ := Option.map_eq_some_iff.mp hfirst
      dsimp only at heq
      split at heq
      · obtain ⟨rfl, -⟩ := Prod.mk.injEq .. ▸ heq
        rfl
      split at heq
      · obtain ⟨rfl, -⟩ := Prod.mk.injEq .. ▸ heq
        rfl
      · obtain ⟨rfl, -⟩ := Prod.mk.injEq .. ▸ heq
        rfl
  cases writable with
  | false => exact hread
  | true => exact hread

/-- **One iteration of `drainPendingWrites`**: the queue is empty, or its first
write is dropped or given to `sendRaw`. -/
theorem drainPendingWrites_cases {l l' : EventLoop} (h : l.drainPendingWrites = some l') :
    (l.pendingWrites = [] ∧ l' = l) ∨
      ∃ id data ws, l.pendingWrites = (id, data) :: ws ∧
        ((l.conns.lookup id = none ∧ l' = { l with pendingWrites := ws }) ∨
          ∃ c c', l.conns.lookup id = some c ∧ c.sendRaw data = some c' ∧
            l' = { l with pendingWrites := ws, conns := l.conns.insert id c' }) := by
  unfold drainPendingWrites at h
  split at h
  · rename_i hq
    exact Or.inl ⟨hq, (Option.some.inj h).symm⟩
  · rename_i id data ws hq
    refine Or.inr ⟨id, data, ws, hq, ?_⟩
    dsimp only at h
    split at h
    · rename_i hc
      exact Or.inl ⟨hc, (Option.some.inj h).symm⟩
    · rename_i c hc
      obtain ⟨c', hsend, rfl⟩ := Option.map_eq_some_iff.mp h
      exact Or.inr ⟨c, c', hc, hsend, rfl⟩

/-- `drainPendingWrites` takes one write off the queue. -/
theorem pendingWrites_drainPendingWrites {l l' : EventLoop} (h : l.drainPendingWrites = some l') :
    l'.pendingWrites = l.pendingWrites.tail := by
  rcases drainPendingWrites_cases h with
    ⟨hq, rfl⟩ | ⟨id, data, ws, hq, ⟨-, rfl⟩ | ⟨c, c', -, -, rfl⟩⟩
  · rw [hq]
    rfl
  · rw [hq]
    rfl
  · rw [hq]
    rfl

/-- All other steps but `sendToConnection` leave the queue of writes alone. -/
theorem pendingWrites_step {l l' : EventLoop} {e : LoopEvent} {outs : List LoopOut}
    (h : l.step e = some (l', outs)) (hsend : ∀ id data, e ≠ .sendToConnection id data)
    (hdrain : e ≠ .drainPendingWrites) : l'.pendingWrites = l.pendingWrites := by
  cases e with
  | sendToConnection id data => exact absurd rfl (hsend id data)
  | drainPendingWrites => exact absurd rfl hdrain
  | epoll fd readable writable r w nowMs => exact pendingWrites_handleEvent h
  | drainPending registered =>
    obtain ⟨rfl, -⟩ := Prod.mk.injEq .. ▸ Option.some.inj h
    unfold drainPending
    split
    · rfl
    · cases registered <;> rfl
  | checkTimeouts nowMs timeoutMs order =>
    obtain ⟨rfl, -⟩ := Prod.mk.injEq .. ▸ Option.some.inj h
    exact pendingWrites_checkTimeouts nowMs timeoutMs l order
  | cleanupClosed due order =>
    obtain ⟨rfl, -⟩ := Prod.mk.injEq .. ▸ Option.some.inj h
    exact (queues_cleanups _ order).2.trans (pendingWrites_closeConnections l due)
  | _ =>
    obtain ⟨rfl, -⟩ := Prod.mk.injEq .. ▸ Option.some.inj h
    rfl

end EventLoop

namespace PendingWrites

open EventLoop

/-! ### The log -/

/-- A write for `id` that is issued now is due. -/
def Due (s : PendingWrites) (id : ConnectionId) : Prop :=
  (s.loop.Waits id ∨ id ∈ s.loop.conns) ∧ id ∉ s.closing

/-- The log after the step `e` of the loop, which leads to `l'`. -/
def record (s : PendingWrites) (e : LoopEvent) (l' : EventLoop) : PendingWrites where
  loop := l'
  added := match e with
    | .addConnection c => s.added ++ [c.id]
    | _ => s.added
  closing := s.closing ∪ {id | ∃ c, l'.conns.lookup id = some c ∧ c.canSend = false}
  sent := match e with
    | .sendToConnection id data => s.sent ++ [⟨id, data, s.Due id⟩]
    | _ => s.sent
  popped := match e, s.loop.pendingWrites with
    | .drainPendingWrites, _ :: _ => s.popped + 1
    | _, _ => s.popped
  handed := match e, s.loop.pendingWrites with
    | .drainPendingWrites, (id, _) :: _ =>
        if id ∈ s.loop.conns then s.handed ++ [s.popped] else s.handed
    | _, _ => s.handed

/-- A step of the loop, logged.  The acceptor gives every connection a number of its own. -/
def Steps (s : PendingWrites) (e : LoopEvent) (s' : PendingWrites) : Prop :=
  (∃ l' outs, s.loop.step e = some (l', outs) ∧ s' = s.record e l') ∧
    ∀ c, e = .addConnection c → c.id ∉ s.added

/-- The step gives the data of the write number `n` to `sendRaw` of its connection. -/
def HandsOver (s : PendingWrites) (n : ℕ) (s' : PendingWrites) : Prop :=
  ∃ w c c', s.sent[n]? = some w ∧ s.loop.conns.lookup w.id = some c ∧
    c.sendRaw w.data = some c' ∧ s'.loop.conns.lookup w.id = some c'

/-- A due write for `id` is still in the queue. -/
def Owes (s : PendingWrites) (id : ConnectionId) : Prop :=
  ∃ n w, s.popped ≤ n ∧ s.sent[n]? = some w ∧ w.due ∧ w.id = id

/-- Writes are handed over once and in order, no due write that has left the
queue was dropped, and one that has not still has its connection. -/
structure Delivered (s : PendingWrites) : Prop where
  in_order : s.handed.Pairwise (· < ·)
  none_lost : ∀ n w, n < s.popped → s.sent[n]? = some w → w.due → n ∈ s.handed
  deliverable : ∀ id, s.Owes id → s.loop.Waits id ∨ id ∈ s.loop.conns

/-- No due write is popped while its connection waits to be registered, and
none is in the queue when its connection goes. -/
def Timely (s : PendingWrites) : LoopEvent → Prop
  | .drainPendingWrites => ∀ w, s.sent[s.popped]? = some w → w.due → ¬ s.loop.Waits w.id
  | .drainPending false => ∀ c, s.loop.pendingConns.head? = some c → ¬ s.Owes c.id
  | .cleanupClosed due order => ∀ id, s.loop.Removed due order id → ¬ s.Owes id
  | _ => True

/-! ### The log is about the queue -/

structure QueueLogged (s : PendingWrites) : Prop where
  popped_le : s.popped ≤ s.sent.length
  pending : (s.sent.drop s.popped).map (fun w => (w.id, w.data)) = s.loop.pendingWrites
  in_order : s.handed.Pairwise (· < ·)
  handed_lt : ∀ n ∈ s.handed, n < s.popped

/-- An id is in one of the queue and the map, if it was handed in. -/
structure IdsLogged (s : PendingWrites) : Prop where
  nodup : (s.loop.pendingConns.map Connection.id).Nodup
  waits_new : ∀ id, s.loop.Waits id → id ∉ s.loop.conns
  known : ∀ id, s.loop.Waits id ∨ id ∈ s.loop.conns → id ∈ s.added

theorem record_of_quiet {s : PendingWrites} {e : LoopEvent} {l' : EventLoop}
    (hsend : ∀ id data, e ≠ .sendToConnection id data) (hdrain : e ≠ .drainPendingWrites) :
    (s.record e l').sent = s.sent ∧ (s.record e l').popped = s.popped ∧
      (s.record e l').handed = s.handed := by
  cases e with
  | sendToConnection id data => exact absurd rfl (hsend id data)
  | drainPendingWrites => exact absurd rfl hdrain
  | _ => exact ⟨rfl, rfl, rfl⟩

/-- The write at the head of the queue is the one that is popped next. -/
theorem QueueLogged.head {s : PendingWrites} (h : s.QueueLogged) {id : ConnectionId}
    {data : List UInt8} {ws : List (ConnectionId × List UInt8)}
    (hq : s.loop.pendingWrites = (id, data) :: ws) :
    s.popped < s.sent.length ∧
      ∃ w, s.sent[s.popped]? = some w ∧ w.id = id ∧ w.data = data := by
  have hdrop := h.pending
  rw [hq] at hdrop
  obtain ⟨w, rest, hw, heq, -⟩ := List.map_eq_cons_iff.mp hdrop
  have hget : s.sent[s.popped]? = some w := by
    rw [← List.head?_drop, hw]
    rfl
  exact ⟨(List.getElem?_eq_some_iff.mp hget).1, w, hget, congrArg Prod.fst heq,
    congrArg Prod.snd heq⟩

/-- `drainPendingWrites` on an empty queue. -/
theorem record_drain_nil {s : PendingWrites} (hq : s.loop.pendingWrites = []) (l' : EventLoop) :
    (s.record .drainPendingWrites l').popped = s.popped ∧
      (s.record .drainPendingWrites l').handed = s.handed := by
  simp only [record, hq, and_self]

/-- `drainPendingWrites` on a write for `id`: without a connection it is dropped. -/
theorem record_drain_cons {s : PendingWrites} {id : ConnectionId} {data : List UInt8}
    {ws : List (ConnectionId × List UInt8)} (hq : s.loop.pendingWrites = (id, data) :: ws)
    (l' : EventLoop) :
    (s.record .drainPendingWrites l').popped = s.popped + 1 ∧
      (s.record .drainPendingWrites l').handed =
        if id ∈ s.loop.conns then s.handed ++ [s.popped] else s.handed := by
  simp only [record, hq, and_self]

/-- The write that is popped next comes after all that were handed over. -/
theorem QueueLogged.in_order_popped {s : PendingWrites} (h : s.QueueLogged) :
    (s.handed ++ [s.popped]).Pairwise (· < ·) := by
  rw [List.pairwise_append]
  refine ⟨h.in_order, List.pairwise_singleton _ _, ?_⟩
  intro n hn m hm
  rw [List.mem_singleton.mp hm]
  exact h.handed_lt n hn

theorem QueueLogged.sendToConnection {s : PendingWrites} (h : s.QueueLogged) (id : ConnectionId)
    (data : List UInt8) {l' : EventLoop}
    (hwrites : l'.pendingWrites = s.loop.pendingWrites ++ [(id, data)]) :
    (s.record (.sendToConnection id data) l').QueueLogged where
  popped_le := by
    show s.popped ≤ (s.sent ++ [_]).length
    rw [List.length_append]
    exact h.popped_le.trans (Nat.le_add_right _ _)
  pending := by
    show ((s.sent ++ [_]).drop s.popped).map _ = l'.pendingWrites
    rw [List.drop_append_of_le_length h.popped_le, List.map_append, h.pending, hwrites]
    rfl
  in_order := h.in_order
  handed_lt := h.handed_lt

theorem QueueLogged.drainPendingWrites {s : PendingWrites} (h : s.QueueLogged) {l' : EventLoop}
    (htail : l'.pendingWrites = s.loop.pendingWrites.tail) :
    (s.record .drainPendingWrites l').QueueLogged := by
  rcases hq : s.loop.pendingWrites with - | ⟨⟨id, data⟩, ws⟩
  · obtain ⟨hpop, hhand⟩ := record_drain_nil hq l'
    rw [hq] at htail
    refine ⟨?_, ?_, ?_, ?_⟩
    · rw [hpop]
      exact h.popped_le
    · rw [hpop]
      exact h.pending.trans (hq.trans htail.symm)
    · rw [hhand]
      exact h.in_order
    · rw [hpop, hhand]
      exact h.handed_lt
  · obtain ⟨hlt, w, hw, -, -⟩ := h.head hq
    obtain ⟨hpop, hhand⟩ := record_drain_cons hq l'
    refine ⟨?_, ?_, ?_, ?_⟩
    · rw [hpop]
      exact hlt
    · rw [hpop]
      show (s.sent.drop (s.popped + 1)).map _ = l'.pendingWrites
      rw [htail, ← List.tail_drop, List.map_tail, h.pending]
    · rw [hhand]
      split
      · exact h.in_order_popped
      · exact h.in_order
    · rw [hpop, hhand]
      intro n hn
      split at hn
      · rcases List.mem_append.mp hn with hn | hn
        · exact Nat.lt_succ_of_lt (h.handed_lt n hn)
        · rw [List.mem_singleton.mp hn]
          exact Nat.lt_succ_self _
      · exact Nat.lt_succ_of_lt (h.handed_lt n hn)

theorem QueueLogged.step {s s' : PendingWrites} {e : LoopEvent} (h : s.QueueLogged)
    (hstep : Steps s e s') : s'.QueueLogged := by
  obtain ⟨⟨l', outs, hl, rfl⟩, -⟩ := hstep
  by_cases hsend : ∃ id data, e = .sendToConnection id data
  · obtain ⟨id, data, rfl⟩ := hsend
    obtain ⟨rfl, -⟩ := Prod.mk.injEq .. ▸ Option.some.inj hl
    exact h.sendToConnection id data rfl
  by_cases hdrain : e = .drainPendingWrites
  · subst hdrain
    obtain ⟨l₁, hl₁, heq⟩ := Option.map_eq_some_iff.mp hl
    obtain ⟨rfl, -⟩ := Prod.mk.injEq .. ▸ heq
    exact h.drainPendingWrites (pendingWrites_drainPendingWrites hl₁)
  -- all other steps leave the queue and the log of writes alone
  have hs : ∀ id data, e ≠ .sendToConnection id data := fun id data heq => hsend ⟨id, data, heq⟩
  obtain ⟨hsent, hpop, hhand⟩ : (s.record e l').sent = s.sent ∧ (s.record e l').popped = s.popped ∧
      (s.record e l').handed = s.handed := record_of_quiet hs hdrain
  have hwrites := pendingWrites_step hl hs hdrain
  refine ⟨?_, ?_, ?_, ?_⟩
  · rw [hsent, hpop]
    exact h.popped_le
  · rw [hsent, hpop]
    exact h.pending.trans hwrites.symm
  · rw [hhand]
    exact h.in_order
  · rw [hpop, hhand]
    exact h.handed_lt

/-- **What is logged as handed over**, and when: the writes that a step gives to
`sendRaw`. -/
theorem QueueLogged.mem_handed {s s' : PendingWrites} {e : LoopEvent} (h : s.QueueLogged)
    (hstep : Steps s e s') (n : ℕ) :
    n ∈ s'.handed ↔ n ∈ s.handed ∨
      (e = .drainPendingWrites ∧ n = s.popped ∧ HandsOver s n s') := by
  obtain ⟨⟨l', outs, hl, rfl⟩, -⟩ := hstep
  have hsame : ¬ (e = .drainPendingWrites ∧ n = s.popped ∧ HandsOver s n (s.record e l')) →
      (s.record e l').handed = s.handed → (n ∈ (s.record e l').handed ↔ n ∈ s.handed ∨
        (e = .drainPendingWrites ∧ n = s.popped ∧ HandsOver s n (s.record e l'))) := by
    intro hnot hhand
    rw [hhand, or_iff_left hnot]
  by_cases hdrain : e = .drainPendingWrites
  · subst hdrain
    obtain ⟨l₁, hl₁, heq⟩ := Option.map_eq_some_iff.mp hl
    obtain ⟨rfl, -⟩ := Prod.mk.injEq .. ▸ heq
    rcases drainPendingWrites_cases hl₁ with ⟨hq, rfl⟩ | ⟨id, data, ws, hq, hcase⟩
    · refine hsame ?_ (record_drain_nil hq _).2
      rintro ⟨-, rfl, w, -, -, hw, -⟩
      have hdrop := h.pending
      rw [hq, List.map_eq_nil_iff, List.drop_eq_nil_iff] at hdrop
      rw [List.getElem?_eq_none hdrop] at hw
      cases hw
    obtain ⟨-, w, hw, rfl, rfl⟩ := h.head hq
    obtain ⟨-, hhand⟩ := record_drain_cons hq l₁
    rcases hcase with ⟨hc, rfl⟩ | ⟨c, c', hc, hsend, rfl⟩
    · -- the write is dropped
      refine hsame ?_ ?_
      · rintro ⟨-, rfl, w', c, -, hw', hc', -⟩
        obtain rfl := Option.some.inj (hw.symm.trans hw')
        cases hc.symm.trans hc'
      · rw [hhand, if_neg (Finmap.lookup_eq_none.mp hc)]
    · rw [hhand, if_pos (Finmap.mem_iff.mpr ⟨c, hc⟩), List.mem_append, List.mem_singleton]
      refine or_congr_right ⟨fun hn => ⟨rfl, hn, ?_⟩, fun hn => hn.2.1⟩
      rw [hn]
      exact ⟨w, c, c', hw, hc, hsend, Finmap.lookup_insert ..⟩
  · refine hsame (fun hnot => hdrain hnot.1) ?_
    by_cases hsend : ∃ id data, e = .sendToConnection id data
    · obtain ⟨id, data, rfl⟩ := hsend
      rfl
    · exact (record_of_quiet (fun id data heq => hsend ⟨id, data, heq⟩) hdrain).2.2

/-! ### The log is about the connections -/

theorem added_of_other {s : PendingWrites} {e : LoopEvent} {l' : EventLoop}
    (hadd : ∀ c, e ≠ .addConnection c) : (s.record e l').added = s.added := by
  cases e with
  | addConnection c => exact absurd rfl (hadd c)
  | _ => rfl

/-- The connections are the same ones, or fewer. -/
theorem IdsLogged.fewer {s s' : PendingWrites} (h : s.IdsLogged) (hadded : s'.added = s.added)
    (hwaits : s'.loop.pendingConns.Sublist s.loop.pendingConns)
    (hconns : ∀ id, id ∈ s'.loop.conns → id ∈ s.loop.conns) : s'.IdsLogged := by
  have hback : ∀ id, s'.loop.Waits id → s.loop.Waits id :=
    fun id hid => (hwaits.map Connection.id).subset hid
  refine ⟨h.nodup.sublist (hwaits.map _), ?_, ?_⟩
  · exact fun id hid hin => h.waits_new id (hback id hid) (hconns id hin)
  · rw [hadded]
    exact fun id hid => h.known id (hid.imp (hback id) (hconns id))

theorem IdsLogged.addConnection {s : PendingWrites} (h : s.IdsLogged) {c : Connection}
    (hnew : c.id ∉ s.added) :
    (s.record (.addConnection c)
      { s.loop with pendingConns := s.loop.pendingConns ++ [c] }).IdsLogged := by
  have hmem : ∀ id, id ∈ (s.loop.pendingConns ++ [c]).map Connection.id ↔
      s.loop.Waits id ∨ id = c.id := by simp [Waits]
  refine ⟨?_, ?_, ?_⟩
  · show ((s.loop.pendingConns ++ [c]).map Connection.id).Nodup
    rw [List.map_append, List.nodup_append]
    refine ⟨h.nodup, List.nodup_singleton _, ?_⟩
    intro a ha b hb heq
    rw [heq, List.mem_singleton.mp hb] at ha
    exact hnew (h.known c.id (Or.inl ha))
  · intro id hid hin
    rcases (hmem id).mp hid with hid | rfl
    · exact h.waits_new id hid hin
    · exact hnew (h.known _ (Or.inr hin))
  · intro id hid
    show id ∈ s.added ++ [c.id]
    rw [List.mem_append, List.mem_singleton]
    rcases hid with hid | hin
    · exact ((hmem id).mp hid).imp_left fun hid => h.known id (Or.inl hid)
    · exact Or.inl (h.known id (Or.inr hin))

theorem IdsLogged.drainPending {s : PendingWrites} (h : s.IdsLogged) (ok : Bool) :
    (s.record (.drainPending ok) (s.loop.drainPending ok)).IdsLogged := by
  rcases hq : s.loop.pendingConns with - | ⟨c, cs⟩
  · rw [drainPending_nil hq]
    exact h.fewer rfl (List.Sublist.refl _) fun _ hin => hin
  have hsub : cs.Sublist s.loop.pendingConns := hq ▸ List.sublist_cons_self c cs
  cases ok with
  | false =>
    rw [drainPending_false hq]
    exact h.fewer rfl hsub fun _ hin => hin
  | true =>
    -- the id at the head goes from the queue to the map
    rw [drainPending_true hq]
    have hnodup := h.nodup
    rw [hq, List.map_cons, List.nodup_cons] at hnodup
    have hhead : s.loop.Waits c.id := by simp [Waits, hq]
    refine ⟨hnodup.2, ?_, ?_⟩
    · intro id hid hin
      rcases Finmap.mem_insert.mp hin with rfl | hin
      · exact hnodup.1 hid
      · exact h.waits_new id ((hsub.map _).subset hid) hin
    · intro id hid
      apply h.known id
      rcases hid with hid | hin
      · exact Or.inl ((hsub.map _).subset hid)
      · rcases Finmap.mem_insert.mp hin with rfl | hin
        · exact Or.inl hhead
        · exact Or.inr hin

theorem IdsLogged.step {s s' : PendingWrites} {e : LoopEvent} (h : s.IdsLogged)
    (hstep : Steps s e s') : s'.IdsLogged := by
  obtain ⟨⟨l', outs, hl, rfl⟩, hnew⟩ := hstep
  cases e with
  | addConnection c =>
    obtain ⟨rfl, -⟩ := Prod.mk.injEq .. ▸ Option.some.inj hl
    exact h.addConnection (hnew c rfl)
  | drainPending ok =>
    obtain ⟨rfl, -⟩ := Prod.mk.injEq .. ▸ Option.some.inj hl
    exact h.drainPending ok
  | cleanupClosed due order =>
    obtain ⟨rfl, -⟩ := Prod.mk.injEq .. ▸ Option.some.inj hl
    have hwaits := pendingConns_cleanupClosed s.loop due order
    refine h.fewer rfl ?_ fun id hin => ((mem_conns_cleanupClosed s.loop due order id).mp hin).1
    show (s.loop.cleanupClosed due order).1.pendingConns.Sublist _
    rw [hwaits]
  | _ =>
    obtain ⟨hwaits, hconns⟩ := keeps_step hl (by simp) (by simp) (by simp)
    refine h.fewer (added_of_other (by simp)) ?_ fun id => (hconns id).mp
    show l'.pendingConns.Sublist _
    rw [hwaits]

/-! ### Delivery -/

/-- A step that takes nothing off the queue of writes and issues none. -/
theorem delivered_of_quiet {s : PendingWrites} {e : LoopEvent} {l' : EventLoop}
    (hsent : (s.record e l').sent = s.sent) (hpop : (s.record e l').popped = s.popped)
    (hhand : (s.record e l').handed = s.handed) (hs : s.Delivered) :
    (s.record e l').Delivered ↔ ∀ id, s.Owes id → l'.Waits id ∨ id ∈ l'.conns := by
  have howes : ∀ id, (s.record e l').Owes id ↔ s.Owes id := by
    intro id
    rw [Owes, Owes, hsent, hpop]
  constructor
  · exact fun h id hid => h.deliverable id ((howes id).mpr hid)
  · intro h
    refine ⟨?_, ?_, fun id hid => h id ((howes id).mp hid)⟩
    · rw [hhand]
      exact hs.in_order
    · rw [hhand, hpop, hsent]
      exact hs.none_lost

theorem delivered_sendToConnection {s : PendingWrites} (hq : s.QueueLogged) (hs : s.Delivered)
    (id : ConnectionId) (data : List UInt8) (l' : EventLoop)
    (hwaits : l'.pendingConns = s.loop.pendingConns) (hconns : l'.conns = s.loop.conns) :
    (s.record (.sendToConnection id data) l').Delivered where
  in_order := hs.in_order
  none_lost := by
    intro n w hn hw hdue
    apply hs.none_lost n w hn _ hdue
    rwa [show (s.record (.sendToConnection id data) l').sent[n]? = s.sent[n]? from
      List.getElem?_append_left (lt_of_lt_of_le hn hq.popped_le)] at hw
  deliverable := by
    rintro a ⟨n, w, hn, hw, hdue, rfl⟩
    show w.id ∈ l'.pendingConns.map Connection.id ∨ w.id ∈ l'.conns
    rw [hwaits, hconns]
    by_cases hlt : n < s.sent.length
    · rw [show (s.record (.sendToConnection id data) l').sent[n]? = s.sent[n]? from
        List.getElem?_append_left hlt] at hw
      exact hs.deliverable w.id ⟨n, w, hn, hw, hdue, rfl⟩
    · -- the write that was issued by this step
      have hlast : w ∈ [(⟨id, data, s.Due id⟩ : LoopWrite)] := by
        rw [show (s.record (.sendToConnection id data) l').sent[n]? = [_][n - s.sent.length]? from
          List.getElem?_append_right (not_lt.mp hlt)] at hw
        exact List.mem_of_getElem? hw
      obtain rfl := List.mem_singleton.mp hlast
      exact hdue.1

theorem delivered_drainPendingWrites {s : PendingWrites} {l' : EventLoop} (hq : s.QueueLogged)
    (hi : s.IdsLogged) (hs : s.Delivered) (hwaits : l'.pendingConns = s.loop.pendingConns)
    (hconns : ∀ id, id ∈ l'.conns ↔ id ∈ s.loop.conns) :
    (s.record .drainPendingWrites l').Delivered ↔ s.Timely .drainPendingWrites := by
  have hthere : ∀ id, l'.Waits id ∨ id ∈ l'.conns ↔ s.loop.Waits id ∨ id ∈ s.loop.conns := by
    intro id
    rw [Waits, Waits, hwaits, hconns]
  rcases hw : s.loop.pendingWrites with - | ⟨⟨id, data⟩, ws⟩
  · have hnone : s.sent[s.popped]? = none := by
      have hdrop := hq.pending
      rw [hw, List.map_eq_nil_iff, List.drop_eq_nil_iff] at hdrop
      exact List.getElem?_eq_none hdrop
    obtain ⟨hpop, hhand⟩ := record_drain_nil hw l'
    refine (delivered_of_quiet rfl hpop hhand hs).trans ?_
    apply iff_of_true
    · exact fun a ha => (hthere a).mpr (hs.deliverable a ha)
    · intro w hget
      rw [hnone] at hget
      cases hget
  · obtain ⟨hlt, w, hget, rfl, -⟩ := hq.head hw
    obtain ⟨hpop, hhand⟩ := record_drain_cons hw l'
    constructor
    · -- a write whose connection still waits is dropped, so it was not due
      intro h w' hget' hdue hwait
      obtain rfl := Option.some.inj (hget.symm.trans hget')
      have hin := h.none_lost s.popped w (by rw [hpop]; exact Nat.lt_succ_self _) hget hdue
      rw [hhand, if_neg (hi.waits_new w.id hwait)] at hin
      exact lt_irrefl _ (hq.handed_lt _ hin)
    · intro h
      refine ⟨?_, ?_, ?_⟩
      · rw [hhand]
        split
        · exact hq.in_order_popped
        · exact hs.in_order
      · intro n w' hn hget' hdue
        rw [hpop] at hn
        rw [hhand]
        rcases Nat.lt_succ_iff_lt_or_eq.mp hn with hlt | rfl
        · have hold := hs.none_lost n w' hlt hget' hdue
          split
          · exact List.mem_append_left _ hold
          · exact hold
        · -- the write popped by this step: it is owed, so its connection is there
          obtain rfl := Option.some.inj (hget.symm.trans hget')
          have howes : s.Owes w.id := ⟨s.popped, w, le_refl _, hget, hdue, rfl⟩
          rw [if_pos ((hs.deliverable w.id howes).resolve_left (h w hget hdue))]
          exact List.mem_append_right _ (List.mem_singleton.mpr rfl)
      · rintro a ⟨n, w', hn, hget', hdue, rfl⟩
        rw [hpop] at hn
        exact (hthere w'.id).mpr (hs.deliverable w'.id ⟨n, w', by omega, hget', hdue, rfl⟩)

theorem delivered_drainPending {s : PendingWrites} {ok : Bool} (hi : s.IdsLogged)
    (hs : s.Delivered) :
    (s.record (.drainPending ok) (s.loop.drainPending ok)).Delivered ↔
      s.Timely (.drainPending ok) := by
  refine (delivered_of_quiet rfl rfl rfl hs).trans ?_
  rcases hq : s.loop.pendingConns with - | ⟨c, cs⟩
  · rw [drainPending_nil hq]
    apply iff_of_true hs.deliverable
    cases ok with
    | true => trivial
    | false =>
      intro c hc
      rw [hq] at hc
      cases hc
  have hnodup := hi.nodup
  rw [hq, List.map_cons, List.nodup_cons] at hnodup
  have hcase : ∀ id, s.loop.Waits id ↔ id = c.id ∨ id ∈ cs.map Connection.id := by
    intro id
    rw [Waits, hq, List.map_cons, List.mem_cons]
  cases ok with
  | true =>
    rw [drainPending_true hq]
    refine iff_of_true ?_ trivial
    intro id hid
    show id ∈ cs.map Connection.id ∨ id ∈ s.loop.conns.insert c.id c
    rw [Finmap.mem_insert]
    rcases hs.deliverable id hid with hwait | hin
    · exact ((hcase id).mp hwait).elim (fun h => Or.inr (Or.inl h)) Or.inl
    · exact Or.inr (Or.inr hin)
  | false =>
    rw [drainPending_false hq]
    constructor
    · intro h c' hc' howes
      rw [hq] at hc'
      obtain rfl := Option.some.inj hc'
      rcases h c.id howes with hwait | hin
      · exact hnodup.1 hwait
      · exact hi.waits_new c.id ((hcase c.id).mpr (Or.inl rfl)) hin
    · intro h id hid
      refine (hs.deliverable id hid).imp_left fun hwait => ?_
      rcases (hcase id).mp hwait with rfl | hmem
      · exact absurd hid (h c (by rw [hq]; rfl))
      · exact hmem

theorem delivered_cleanupClosed {s : PendingWrites} {due order : List ConnectionId}
    (hi : s.IdsLogged) (hs : s.Delivered) :
    (s.record (.cleanupClosed due order) (s.loop.cleanupClosed due order).1).Delivered ↔
      s.Timely (.cleanupClosed due order) := by
  refine (delivered_of_quiet rfl rfl rfl hs).trans ?_
  have hwaits := pendingConns_cleanupClosed s.loop due order
  have hthere : ∀ id, (s.loop.cleanupClosed due order).1.Waits id ↔ s.loop.Waits id := by
    intro id
    rw [Waits, Waits, hwaits]
  constructor
  · rintro h id ⟨hord, c, hc, hclean⟩ howes
    rcases h id howes with hwait | hin
    · exact hi.waits_new id ((hthere id).mp hwait) (Finmap.mem_iff.mpr ⟨c, hc⟩)
    · exact ((mem_conns_cleanupClosed s.loop due order id).mp hin).2 ⟨hord, c, hc, hclean⟩
  · intro h id hid
    apply (hs.deliverable id hid).imp (hthere id).mpr
    exact fun hin =>
      (mem_conns_cleanupClosed s.loop due order id).mpr ⟨hin, fun hrem => h id hrem hid⟩

/-- **One step** keeps the delivery exactly when it is timely. -/
theorem delivered_step {s s' : PendingWrites} {e : LoopEvent} (hq : s.QueueLogged)
    (hi : s.IdsLogged) (hs : s.Delivered) (hstep : Steps s e s') :
    s'.Delivered ↔ s.Timely e := by
  obtain ⟨⟨l', outs, hl, rfl⟩, -⟩ := hstep
  cases e with
  | addConnection c =>
    obtain ⟨rfl, -⟩ := Prod.mk.injEq .. ▸ Option.some.inj hl
    refine (delivered_of_quiet rfl rfl rfl hs).trans ?_
    refine iff_of_true (fun id hid => (hs.deliverable id hid).imp_left fun hwait => ?_) trivial
    show id ∈ (s.loop.pendingConns ++ [c]).map Connection.id
    rw [List.map_append]
    exact List.mem_append_left _ hwait
  | sendToConnection id data =>
    obtain ⟨rfl, -⟩ := Prod.mk.injEq .. ▸ Option.some.inj hl
    exact iff_of_true (delivered_sendToConnection hq hs id data _ rfl rfl) trivial
  | drainPendingWrites =>
    obtain ⟨hwaits, hconns⟩ := keeps_step hl (by simp) (by simp) (by simp)
    exact delivered_drainPendingWrites hq hi hs hwaits hconns
  | drainPending ok =>
    obtain ⟨rfl, -⟩ := Prod.mk.injEq .. ▸ Option.some.inj hl
    exact delivered_drainPending hi hs
  | cleanupClosed due order =>
    obtain ⟨rfl, -⟩ := Prod.mk.injEq .. ▸ Option.some.inj hl
    exact delivered_cleanupClosed hi hs
  | _ =>
    obtain ⟨hwaits, hconns⟩ := keeps_step hl (by simp) (by simp) (by simp)
    refine (delivered_of_quiet rfl rfl rfl hs).trans ?_
    refine iff_of_true (fun id hid => ?_) trivial
    show id ∈ l'.pendingConns.map Connection.id ∨ id ∈ l'.conns
    rw [hwaits, hconns]
    exact hs.deliverable id hid

/-! ### Runs -/

theorem logged_empty : ({} : PendingWrites).QueueLogged ∧ ({} : PendingWrites).IdsLogged := by
  refine ⟨⟨le_refl _, rfl, List.Pairwise.nil, by simp⟩, ⟨List.nodup_nil, ?_, ?_⟩⟩
  · simp [Waits]
  · intro id hid
    rcases hid with hid | hid
    · exact hid
    · exact absurd hid (Finmap.notMem_empty)

theorem delivered_empty : ({} : PendingWrites).Delivered where
  in_order := List.Pairwise.nil
  none_lost := by simp
  deliverable := by
    rintro id ⟨n, w, -, hw, -⟩
    simp at hw

theorem logged_run {s : PendingWrites} {es : List LoopEvent}
    (h : Transition.Run Steps {} es s) : s.QueueLogged ∧ s.IdsLogged :=
  h.invariant (I := fun s => s.QueueLogged ∧ s.IdsLogged)
    (fun _ _ _ hs hstep => ⟨hs.1.step hstep, hs.2.step hstep⟩) logged_empty

/-- **Server writes are handed over** exactly in the runs in which no due write
is popped before its connection is registered, and none is left when its
connection goes; a write is handed over when its data is given to `sendRaw`. -/
theorem writes_delivered {s : PendingWrites} {es : List LoopEvent} :
    (Transition.Run (fun s e s' => Steps s e s' ∧ s'.Delivered) {} es s ↔
      Transition.Run (fun s e s' => Steps s e s' ∧ s.Timely e) {} es s) ∧
    (Transition.Run Steps {} es s → ∀ e s', Steps s e s' → ∀ n, n ∈ s'.handed ↔
      n ∈ s.handed ∨ (e = .drainPendingWrites ∧ n = s.popped ∧ HandsOver s n s')) := by
  constructor
  · apply Transition.Run.target_congr (J := fun s => s.QueueLogged ∧ s.IdsLogged)
    · exact fun s e s' h hstep => ⟨h.1.step hstep, h.2.step hstep⟩
    · exact fun s e s' h hs hstep => delivered_step h.1 h.2 hs hstep
    · exact logged_empty
    · exact delivered_empty
  · exact fun h e s' hstep => (logged_run h).1.mem_handed hstep

/-- A write that is issued right after `addConnection` is popped by the same
iteration of `run` that then registers the connection. -/
theorem dropped_write : ∃ s : PendingWrites, Transition.Run Steps {}
    [.addConnection (Connection.fresh 1 7 0), .sendToConnection 1 [0], .drainPendingWrites,
      .drainPending true] s ∧ 1 ∈ s.loop.conns ∧ ¬ s.Delivered := by
  let c := Connection.fresh 1 7 0
  let added : PendingWrites := record {} (.addConnection c) { pendingConns := [c] }
  let sent : PendingWrites := added.record (.sendToConnection 1 [0])
    { pendingConns := [c], pendingWrites := [(1, [0])] }
  let popped : PendingWrites := sent.record .drainPendingWrites { pendingConns := [c] }
  let registered : PendingWrites := popped.record (.drainPending true)
    (popped.loop.drainPending true)
  have hadd : Steps {} (.addConnection c) added := ⟨⟨_, _, rfl, rfl⟩, by simp⟩
  have hsend : Steps added (.sendToConnection 1 [0]) sent := ⟨⟨_, _, rfl, rfl⟩, by simp⟩
  have hpop : Steps sent .drainPendingWrites popped := ⟨⟨_, _, rfl, rfl⟩, by simp⟩
  have hreg : Steps popped (.drainPending true) registered := ⟨⟨_, _, rfl, rfl⟩, by simp⟩
  refine ⟨registered, .cons hadd (.cons hsend (.cons hpop (.single hreg))), ?_, ?_⟩
  · exact Finmap.mem_insert.mpr (Or.inl rfl)
  · intro h
    have hdue : added.Due 1 := ⟨Or.inl (List.mem_singleton.mpr rfl), by simp [added, record]⟩
    have hlost := h.none_lost 0 ⟨1, [0], added.Due 1⟩ (by decide) rfl hdue
    exact absurd hlost (List.not_mem_nil)

end PendingWrites

end MiniArena
