/-
MiniArena/NetServer.lean

The acceptor (`network/acceptor.cpp`), the I/O loops it deals connections to,
and the descriptors of their sockets (`network/socket.cpp`).

`accept4` gives a descriptor that is not open.  The socket moves into a
connection, the connection into the queue of a loop and from there into
`conns_`, and where it is destroyed, `~Socket` closes the descriptor: after an
`EPOLL_CTL_ADD` that fails, when an id is registered again, and in
`cleanupClosed`.  `Connection::close` closes nothing.

So an open descriptor has one owner (`Holds`), and the acceptor and the kernel
keep what the runs of `ServerIo` assume: ids that are handed in once, and
descriptors that no open connection has.  The rest of the process opens and
closes descriptors of its own.
-/
import MiniArena.ConnToLoop

namespace MiniArena

open Transition

namespace EventLoop

/-! ### Descriptors a loop closes -/

/-- One iteration of the loop of `cleanupClosed`, with the descriptor it closes. -/
def cleanupFd (p : EventLoop × List Fd) (id : ConnectionId) : EventLoop × List Fd :=
  ((cleanup (p.1, []) id).1,
    match p.1.conns.lookup id with
    | none => p.2
    | some c => if c.shouldCleanup then p.2 ++ [c.fd] else p.2)

/-- The descriptors that are closed in a step. -/
def closes (l : EventLoop) : LoopEvent → List Fd
  | .drainPending registered =>
      match l.pendingConns with
      | [] => []
      | c :: _ => if registered then (l.conns.lookup c.id).toList.map Connection.fd else [c.fd]
  | .cleanupClosed due order => (order.foldl cleanupFd (due.foldl closeConnection l, [])).2
  | _ => []

/-- The loop has a connection with this descriptor. -/
def Holds (l : EventLoop) (fd : Fd) : Prop :=
  (∃ c ∈ l.pendingConns, c.fd = fd) ∨ ∃ id c, l.conns.lookup id = some c ∧ c.fd = fd

theorem Registry.mem_fdToId {l : EventLoop} (hr : Registry l) (fd : Fd) :
    fd ∈ l.fdToId ↔ ∃ id c, l.conns.lookup id = some c ∧ c.fd = fd := by
  rw [Finmap.mem_iff]
  exact exists_congr fun id => hr.exact fd id

theorem Registry.holds_iff {l : EventLoop} (hr : Registry l) (fd : Fd) :
    Holds l fd ↔ (∃ c ∈ l.pendingConns, c.fd = fd) ∨ fd ∈ l.fdToId := by
  rw [hr.mem_fdToId]
  rfl

/-- From `l`, the descriptors `p.2` have been closed. -/
structure Freed (l : EventLoop) (p : EventLoop × List Fd) : Prop where
  registry : Registry p.1
  pending : p.1.pendingConns = l.pendingConns
  nodup : p.2.Nodup
  held : ∀ fd ∈ p.2, fd ∈ l.fdToId
  left : ∀ fd, fd ∈ p.1.fdToId ↔ fd ∈ l.fdToId ∧ fd ∉ p.2

theorem Freed.step {l : EventLoop} {p : EventLoop × List Fd} (h : Freed l p) (id : ConnectionId) :
    Freed l (cleanupFd p id) := by
  obtain ⟨m, closed⟩ := p
  rcases hc : m.conns.lookup id with - | c
  · rw [show cleanupFd (m, closed) id = (m, closed) by simp only [cleanupFd, cleanup, hc]]
    exact h
  by_cases hclean : c.shouldCleanup = true
  · have hstep : cleanupFd (m, closed) id =
        ({ m with fdToId := m.fdToId.erase c.fd, conns := m.conns.erase id }, closed ++ [c.fd]) := by
      simp only [cleanupFd, cleanup, hc, hclean, if_true]
    have hin : c.fd ∈ m.fdToId := (h.registry.mem_fdToId c.fd).mpr ⟨id, c, hc, rfl⟩
    obtain ⟨hold, hnot⟩ := (h.left c.fd).mp hin
    rw [hstep]
    refine ⟨⟨?_, h.registry.exact.erase hc⟩, h.pending, ?_, ?_, ?_⟩
    · intro a ca hca
      rw [Finmap.lookup_erase_eq] at hca
      split at hca
      · cases hca
      · exact h.registry.own a ca hca
    · rw [List.nodup_append]
      refine ⟨h.nodup, List.nodup_singleton _, ?_⟩
      rintro a ha b hb rfl
      exact hnot (List.mem_singleton.mp hb ▸ ha)
    · intro fd hfd
      rcases List.mem_append.mp hfd with hfd | hfd
      · exact h.held fd hfd
      · exact List.mem_singleton.mp hfd ▸ hold
    · intro fd
      rw [Finmap.mem_erase, h.left fd, List.mem_append, List.mem_singleton]
      tauto
  · rw [show cleanupFd (m, closed) id = (m, closed) by
      simp only [cleanupFd, cleanup, hc, if_neg hclean]]
    exact h

theorem freed_foldl {l : EventLoop} {p : EventLoop × List Fd} (h : Freed l p)
    (order : List ConnectionId) : Freed l (order.foldl cleanupFd p) := by
  induction order generalizing p with
  | nil => exact h
  | cons id order ih => exact ih (h.step id)

theorem fst_foldl_cleanupFd (p : EventLoop × List Fd) (outs : List LoopOut)
    (order : List ConnectionId) :
    (order.foldl cleanupFd p).1 = (order.foldl cleanup (p.1, outs)).1 := by
  have hone : ∀ (m : EventLoop) outs id, (cleanup (m, outs) id).1 = (cleanup (m, []) id).1 := by
    intro m outs id
    unfold cleanup
    dsimp only
    split
    · rfl
    · split <;> rfl
  induction order generalizing p outs with
  | nil => rfl
  | cons id order ih =>
    have hpair : ((cleanupFd p id).1, (cleanup (p.1, outs) id).2) = cleanup (p.1, outs) id :=
      Prod.ext (hone p.1 outs id).symm rfl
    rw [List.foldl_cons, List.foldl_cons, ih _ (cleanup (p.1, outs) id).2, hpair]

/-- **What a step does to the descriptors of the loop.** -/
structure Handles (l l' : EventLoop) (ev : LoopEvent) : Prop where
  nodup : (l.closes ev).Nodup
  held : ∀ fd ∈ l.closes ev, Holds l fd
  holds : ∀ fd, Holds l' fd ↔
    (Holds l fd ∨ ∃ c, ev = .addConnection c ∧ c.fd = fd) ∧ fd ∉ l.closes ev

theorem handles_cleanupClosed {l : EventLoop} (hr : Registry l)
    (hapart : ∀ c ∈ l.pendingConns, ∀ id c', l.conns.lookup id = some c' → c'.fd ≠ c.fd)
    (due order : List ConnectionId) :
    Handles l (l.cleanupClosed due order).1 (.cleanupClosed due order) := by
  have hkept := covers_sameSocket.moves_closeConnections l due
  have hstart : Freed l (due.foldl closeConnection l, []) :=
    ⟨hkept.registry hr, hkept.pending, List.nodup_nil, nofun, fun fd => by
      show fd ∈ (due.foldl closeConnection l).fdToId ↔ _
      rw [hkept.fds]
      simp⟩
  have hfreed := freed_foldl hstart order
  have hl' : (l.cleanupClosed due order).1 =
      (order.foldl cleanupFd (due.foldl closeConnection l, [])).1 :=
    (fst_foldl_cleanupFd (due.foldl closeConnection l, []) [] order).symm
  refine ⟨hfreed.nodup, fun fd hfd => (hr.holds_iff fd).mpr (.inr (hfreed.held fd hfd)), ?_⟩
  intro fd
  rw [hl', hfreed.registry.holds_iff, hfreed.pending, hfreed.left, hr.holds_iff]
  constructor
  · rintro (⟨c, hc, rfl⟩ | ⟨hin, hnot⟩)
    · refine ⟨.inl (.inl ⟨c, hc, rfl⟩), fun hclosed => ?_⟩
      -- what is still in the queue has a descriptor of its own
      obtain ⟨id, c', hc', heq⟩ := (hr.mem_fdToId c.fd).mp (hfreed.held c.fd hclosed)
      exact hapart c hc id c' hc' heq
    · exact ⟨.inl (.inr hin), hnot⟩
  · rintro ⟨(hpending | hin) | ⟨c, hev, -⟩, hnot⟩
    · exact .inl hpending
    · exact .inr ⟨hin, hnot⟩
    · cases hev

theorem handles_step {past : List (LoopEvent × List LoopOut)} {l l' : EventLoop} {ev : LoopEvent}
    {outs : List LoopOut} (h : Accounts past l) (hnodup : (addedIds past).Nodup)
    (hstep : l.step ev = some (l', outs)) : Handles l l' ev := by
  -- a step that closes nothing and takes nothing in
  have hquiet : l.closes ev = [] → (∀ c, ev ≠ .addConnection c) →
      (∀ fd, Holds l' fd ↔ Holds l fd) → Handles l l' ev := by
    intro hnone hadd hsame
    refine ⟨hnone ▸ List.nodup_nil, hnone ▸ nofun, fun fd => ?_⟩
    rw [hnone, hsame]
    constructor
    · exact fun hold => ⟨.inl hold, List.not_mem_nil⟩
    · rintro ⟨hold | ⟨c, hev, -⟩, -⟩
      · exact hold
      · exact absurd hev (hadd c)
  by_cases hclean : ∃ due order, ev = .cleanupClosed due order
  · obtain ⟨due, order, rfl⟩ := hclean
    obtain rfl := congrArg Prod.fst (Option.some.inj hstep)
    exact handles_cleanupClosed h.registry h.apart due order
  cases step_cases h.registry hstep with
  | enqueue c =>
    refine ⟨List.nodup_nil, nofun, fun fd => ?_⟩
    simp only [Holds, closes, List.mem_append, List.mem_singleton, LoopEvent.addConnection.injEq,
      List.not_mem_nil, not_false_eq_true, and_true]
    constructor
    · rintro (⟨c', hc' | rfl, hfd⟩ | hconn)
      · exact .inl (.inl ⟨c', hc', hfd⟩)
      · exact .inr ⟨c', rfl, hfd⟩
      · exact .inl (.inr hconn)
    · rintro ((⟨c', hc', hfd⟩ | hconn) | ⟨c', rfl, hfd⟩)
      · exact .inl ⟨c', .inl hc', hfd⟩
      · exact .inr hconn
      · exact .inl ⟨c, .inr rfl, hfd⟩
  | @register c cs hp =>
    have habsent : l.conns.lookup c.id = none := by
      rw [Finmap.lookup_eq_none, h.live]
      exact fun hin => h.head_fresh hnodup hp hin.1
    refine hquiet ?_ nofun fun fd => ?_
    · simp only [closes, hp, habsent, if_true]
      rfl
    · rw [(h.register hnodup hp).registry.holds_iff, h.registry.holds_iff, Finmap.mem_insert, hp]
      simp only [List.mem_cons, exists_eq_or_imp]
      rw [@eq_comm _ fd c.fd, or_assoc]
      exact or_left_comm
  | @drop c cs hp =>
    have hcloses : l.closes (.drainPending false) = [c.fd] := by
      simp only [closes, hp]
      rfl
    have hfds := h.fds
    rw [hp, List.map_cons, List.nodup_cons] at hfds
    refine ⟨hcloses ▸ List.nodup_singleton _, ?_, fun fd => ?_⟩
    · rw [hcloses]
      intro fd hfd
      exact .inl ⟨c, hp ▸ List.mem_cons_self, (List.mem_singleton.mp hfd).symm⟩
    · rw [hcloses, List.mem_singleton]
      simp only [Holds, hp, List.mem_cons, exists_eq_or_imp]
      constructor
      · rintro (⟨c', hc', rfl⟩ | ⟨id, c', hc', rfl⟩)
        · exact ⟨.inl (.inl (.inr ⟨c', hc', rfl⟩)), fun heq =>
            hfds.1 (heq ▸ List.mem_map_of_mem hc')⟩
        · exact ⟨.inl (.inr ⟨id, c', hc', rfl⟩),
            h.apart c (hp ▸ List.mem_cons_self) id c' hc'⟩
      · rintro ⟨((rfl | hin) | hconn) | ⟨c', hev, -⟩, hne⟩
        · exact absurd rfl hne
        · exact .inl hin
        · exact .inr hconn
        · cases hev
  | keep hadd hdrain hkept houts =>
    refine hquiet ?_ hadd fun fd => ?_
    · cases ev with
      | drainPending ok => simp only [closes, hdrain ok rfl]
      | cleanupClosed due order => exact absurd ⟨due, order, rfl⟩ hclean
      | _ => rfl
    · rw [(hkept.registry h.registry).holds_iff, h.registry.holds_iff, hkept.pending, hkept.fds]
  | @remove due order outs l' removed hrem => exact absurd ⟨due, order, rfl⟩ hclean

end EventLoop

/-! ### The acceptor and the loops -/

structure NetServer (n : ℕ) [NeZero n] where
  io : ServerIo n := {}
  nextConnId : ConnectionId := 1
  nextLoop : Fin n := 0
  openFds : Finset Fd
  /-- The open descriptors that have nothing to do with connections. -/
  others : Finset Fd

inductive NetEvent (n : ℕ)
  /-- One iteration of the accept loop, with the descriptor `accept4` returns. -/
  | accept (fd : Fd) (nowMs : UInt64)
  | loop (i : Fin n) (event : LoopEvent)
  | otherOpens (fd : Fd)
  | otherCloses (fd : Fd)

/-- What a step shows: what happens to the loops, and the descriptors it closes. -/
structure NetOut (n : ℕ) where
  io : Option ((Fin n × LoopEvent) × List LoopOut) := none
  closed : List Fd := []

namespace NetServer

variable {n : ℕ} [NeZero n]

/-- The process before it accepts, with `fds` open. -/
def init (fds : Finset Fd) : NetServer n := { openFds := fds, others := fds }

def step (s : NetServer n) : NetEvent n → Option (NetServer n × NetOut n)
  | .accept fd nowMs =>
      if 0 ≤ fd ∧ fd ∉ s.openFds then
        let e := (s.nextLoop, LoopEvent.addConnection (.fresh s.nextConnId fd nowMs))
        (s.io.step e).map fun (io, outs) =>
          ({ s with
              io := io
              nextConnId := s.nextConnId + 1
              nextLoop := s.nextLoop + 1
              openFds := insert fd s.openFds },
            { io := some (e, outs) })
      else none
  | .loop i event =>
      match event with
      | .addConnection _ => none  -- only the acceptor adds connections
      | _ =>
          let closed := (s.io.ioLoops i).closes event
          (s.io.step (i, event)).map fun (io, outs) =>
            ({ s with io := io, openFds := closed.foldl Finset.erase s.openFds },
              { io := some ((i, event), outs), closed := closed })
  | .otherOpens fd =>
      if fd ∉ s.openFds then
        some ({ s with openFds := insert fd s.openFds, others := insert fd s.others }, {})
      else none
  | .otherCloses fd =>
      if fd ∈ s.others then
        some ({ s with openFds := s.openFds.erase fd, others := s.others.erase fd }, {})
      else none

/-- The step relation; a label is an event with what it shows. -/
def Steps (s : NetServer n) (a : NetEvent n × NetOut n) (s' : NetServer n) : Prop :=
  s.step a.1 = some (s', a.2)

/-- When each event can happen, and what it does. -/
inductive StepCase (s : NetServer n) : NetEvent n → NetServer n → NetOut n → Prop
  | accept {fd : Fd} {nowMs : UInt64} {io : ServerIo n} {outs : List LoopOut}
      (free : fd ∉ s.openFds)
      (add : s.io.step (s.nextLoop, .addConnection (.fresh s.nextConnId fd nowMs)) = some (io, outs)) :
      StepCase s (.accept fd nowMs)
        { s with
            io := io
            nextConnId := s.nextConnId + 1
            nextLoop := s.nextLoop + 1
            openFds := insert fd s.openFds }
        { io := some ((s.nextLoop, .addConnection (.fresh s.nextConnId fd nowMs)), outs) }
  | loop {i : Fin n} {event : LoopEvent} {io : ServerIo n} {outs : List LoopOut}
      (own : ∀ c, event ≠ .addConnection c) (work : s.io.step (i, event) = some (io, outs)) :
      StepCase s (.loop i event)
        { s with
            io := io
            openFds := ((s.io.ioLoops i).closes event).foldl Finset.erase s.openFds }
        { io := some ((i, event), outs), closed := (s.io.ioLoops i).closes event }
  | otherOpens {fd : Fd} (free : fd ∉ s.openFds) : StepCase s (.otherOpens fd)
      { s with openFds := insert fd s.openFds, others := insert fd s.others } {}
  | otherCloses {fd : Fd} (own : fd ∈ s.others) : StepCase s (.otherCloses fd)
      { s with openFds := s.openFds.erase fd, others := s.others.erase fd } {}

/-- **What a step can do.** -/
theorem step_cases {s s' : NetServer n} {ev : NetEvent n} {out : NetOut n}
    (h : s.step ev = some (s', out)) : StepCase s ev s' out := by
  cases ev with
  | accept fd nowMs =>
    obtain ⟨⟨-, hfree⟩, hadd⟩ := Option.ite_none_right_eq_some.mp h
    obtain ⟨⟨io, outs⟩, hio, heq⟩ := Option.map_eq_some_iff.mp hadd
    obtain ⟨rfl, rfl⟩ := Prod.mk.injEq .. ▸ heq
    exact .accept hfree hio
  | loop i event =>
    have hown : ∀ c, event ≠ .addConnection c := by
      rintro c rfl
      cases h
    have hwork : ((s.io.step (i, event)).map fun (io, outs) =>
        ({ s with io := io, openFds := ((s.io.ioLoops i).closes event).foldl Finset.erase s.openFds },
          ({ io := some ((i, event), outs), closed := (s.io.ioLoops i).closes event } : NetOut n)))
        = some (s', out) := by
      cases event with
      | addConnection c => exact absurd rfl (hown c)
      | _ => exact h
    obtain ⟨⟨io, outs⟩, hio, heq⟩ := Option.map_eq_some_iff.mp hwork
    obtain ⟨rfl, rfl⟩ := Prod.mk.injEq .. ▸ heq
    exact .loop hown hio
  | otherOpens fd =>
    obtain ⟨hfree, heq⟩ := Option.ite_none_right_eq_some.mp h
    obtain ⟨rfl, rfl⟩ := Prod.mk.injEq .. ▸ Option.some.inj heq
    exact .otherOpens hfree
  | otherCloses fd =>
    obtain ⟨hown, heq⟩ := Option.ite_none_right_eq_some.mp h
    obtain ⟨rfl, rfl⟩ := Prod.mk.injEq .. ▸ Option.some.inj heq
    exact .otherCloses hown

/-! ### Dealing connections -/

/-- What happened to the loops. -/
def ioOf (as : List (NetEvent n × NetOut n)) : List ((Fin n × LoopEvent) × List LoopOut) :=
  as.filterMap fun a => a.2.io

/-- The connections handed in so far, each with its loop. -/
def dealt (as : List (NetEvent n × NetOut n)) : List (Fin n × ConnectionId) :=
  (ioOf as).filterMap fun a =>
    match a.1.2 with
    | .addConnection c => some (a.1.1, c.id)
    | _ => none

/-- The first `k` connections, dealt in turn. -/
def inTurn (n : ℕ) [NeZero n] (k : ℕ) : List (Fin n × ConnectionId) :=
  (List.range k).map fun j => (Fin.ofNat n j, UInt64.ofNat (j + 1))

omit [NeZero n] in
theorem ioOf_concat (as : List (NetEvent n × NetOut n)) (a : NetEvent n × NetOut n) :
    ioOf (as ++ [a]) = ioOf as ++ a.2.io.toList := by
  rw [ioOf, List.filterMap_append]
  cases hio : a.2.io <;> simp [ioOf, hio]

omit [NeZero n] in
theorem handedIn_ioOf (as : List (NetEvent n × NetOut n)) :
    ServerIo.handedIn (ioOf as) = (dealt as).map Prod.snd := by
  rw [ServerIo.handedIn, EventLoop.addedIds, dealt, List.filterMap_map, List.map_filterMap]
  congr 1
  funext a
  obtain ⟨⟨i, ev⟩, outs⟩ := a
  cases ev <;> rfl

theorem inTurn_succ (k : ℕ) :
    inTurn n (k + 1) = inTurn n k ++ [(Fin.ofNat n k, UInt64.ofNat (k + 1))] := by
  rw [inTurn, List.range_succ, List.map_append]
  rfl

/-- The ids differ as long as the counter does not come around. -/
theorem nodup_inTurn {k : ℕ} (hk : k ≤ 2 ^ 64) : ((inTurn n k).map Prod.snd).Nodup := by
  rw [inTurn, List.map_map]
  refine List.Nodup.map_on ?_ List.nodup_range
  intro i hi j hj heq
  have hi' := List.mem_range.mp hi
  have hj' := List.mem_range.mp hj
  have hmod := congrArg UInt64.toNat heq
  simp only [Function.comp, UInt64.toNat_ofNat'] at hmod
  omega

theorem ofNat_succ (k : ℕ) : Fin.ofNat n k + 1 = Fin.ofNat n (k + 1) := by
  apply Fin.ext
  simp [Fin.ofNat, Fin.add_def, Nat.add_mod]

/-! ### Owners -/

/-- The state in terms of the past. -/
structure Kept (past : List (NetEvent n × NetOut n)) (s : NetServer n) : Prop where
  run : Run ServerIo.Steps {} (ioOf past) s.io
  dealt : dealt past = inTurn n (dealt past).length
  nextConnId : s.nextConnId = UInt64.ofNat ((NetServer.dealt past).length + 1)
  nextLoop : s.nextLoop = Fin.ofNat n (NetServer.dealt past).length
  /-- What is open belongs to a loop or to the rest of the process. -/
  openFds : ∀ fd, fd ∈ s.openFds ↔ fd ∈ s.others ∨ ∃ i, (s.io.ioLoops i).Holds fd
  apart : ∀ fd i, (s.io.ioLoops i).Holds fd → fd ∉ s.others
  alone : ∀ fd i j, (s.io.ioLoops i).Holds fd → (s.io.ioLoops j).Holds fd → i = j

theorem Kept.nodup {past : List (NetEvent n × NetOut n)} {s : NetServer n} (h : Kept past s)
    (hfew : (NetServer.dealt past).length ≤ 2 ^ 64) : (ServerIo.handedIn (ioOf past)).Nodup := by
  rw [handedIn_ioOf, h.dealt]
  exact nodup_inTurn hfew

omit [NeZero n] in
theorem dealt_concat (as : List (NetEvent n × NetOut n)) (a : NetEvent n × NetOut n)
    (hadd : ∀ i c outs, a.2.io ≠ some ((i, .addConnection c), outs)) :
    NetServer.dealt (as ++ [a]) = NetServer.dealt as := by
  rw [NetServer.dealt, ioOf_concat, List.filterMap_append, ← NetServer.dealt]
  rcases hio : a.2.io with - | ⟨⟨i, ev⟩, outs⟩
  · simp
  · cases ev with
    | addConnection c => exact absurd hio (hadd i c outs)
    | _ => simp

omit [NeZero n] in
theorem dealt_accept (as : List (NetEvent n × NetOut n)) {a : NetEvent n × NetOut n} {i : Fin n}
    {c : Connection} {outs : List LoopOut} (hio : a.2.io = some ((i, .addConnection c), outs)) :
    NetServer.dealt (as ++ [a]) = NetServer.dealt as ++ [(i, c.id)] := by
  rw [NetServer.dealt, ioOf_concat, List.filterMap_append, ← NetServer.dealt, hio]
  rfl

theorem kept_init (fds : Finset Fd) : Kept [] (init fds : NetServer n) where
  run := .nil
  dealt := rfl
  nextConnId := rfl
  nextLoop := rfl
  openFds := by
    intro fd
    simp [init, EventLoop.Holds]
  apart := by simp [init, EventLoop.Holds]
  alone := by simp [init, EventLoop.Holds]

theorem mem_foldl_erase {fd : Fd} (closed : List Fd) (fds : Finset Fd) :
    fd ∈ closed.foldl Finset.erase fds ↔ fd ∈ fds ∧ fd ∉ closed := by
  induction closed generalizing fds with
  | nil => simp
  | cons a closed ih =>
    rw [List.foldl_cons, ih, Finset.mem_erase, List.mem_cons]
    tauto

omit [NeZero n] in
/-- The loop that steps, and the others. -/
theorem io_step {io io' : ServerIo n} {i : Fin n} {ev : LoopEvent} {outs : List LoopOut}
    (h : io.step (i, ev) = some (io', outs)) : ∃ l', (io.ioLoops i).step ev = some (l', outs) ∧
      io'.ioLoops i = l' ∧ ∀ j, j ≠ i → io'.ioLoops j = io.ioLoops j := by
  obtain ⟨⟨l', outs'⟩, hl, heq⟩ := Option.map_eq_some_iff.mp h
  obtain ⟨rfl, rfl⟩ := Prod.mk.injEq .. ▸ heq
  exact ⟨l', hl, Function.update_self .., fun j hj => Function.update_of_ne hj ..⟩

section Step

variable {past : List (NetEvent n × NetOut n)} {s s' : NetServer n}

theorem Kept.accounts (h : Kept past s) (hfew : (NetServer.dealt past).length ≤ 2 ^ 64) (i : Fin n) :
    EventLoop.Accounts (ServerIo.ofLoop i (ioOf past)) (s.io.ioLoops i) :=
  (ServerIo.consistent_run h.run (h.nodup hfew)).accounts i

theorem Kept.handles (h : Kept past s) (hfew : (NetServer.dealt past).length ≤ 2 ^ 64) {i : Fin n}
    {ev : LoopEvent} {l' : EventLoop} {outs : List LoopOut}
    (hstep : (s.io.ioLoops i).step ev = some (l', outs)) :
    EventLoop.Handles (s.io.ioLoops i) l' ev :=
  EventLoop.handles_step (h.accounts hfew i) (ServerIo.nodup_ofLoop (h.nodup hfew) i) hstep

theorem Kept.accept (h : Kept past s) (hfew : (NetServer.dealt past).length ≤ 2 ^ 64) {fd : Fd}
    {nowMs : UInt64} {io : ServerIo n} {outs : List LoopOut} (hfree : fd ∉ s.openFds)
    (hadd : s.io.step (s.nextLoop, .addConnection (.fresh s.nextConnId fd nowMs)) =
      some (io, outs)) :
    Kept (past ++ [(.accept fd nowMs,
        { io := some ((s.nextLoop, .addConnection (.fresh s.nextConnId fd nowMs)), outs) })])
      { s with
          io := io
          nextConnId := s.nextConnId + 1
          nextLoop := s.nextLoop + 1
          openFds := insert fd s.openFds } := by
  obtain ⟨l', hl, hself, hother⟩ := io_step hadd
  have hhandles := h.handles hfew hl
  have hnone : ∀ i, ¬ (s.io.ioLoops i).Holds fd := fun i hold =>
    hfree ((h.openFds fd).mpr (.inr ⟨i, hold⟩))
  -- the loop that gets the connection gets the descriptor
  have hholds : ∀ i fd', (io.ioLoops i).Holds fd' ↔
      (s.io.ioLoops i).Holds fd' ∨ i = s.nextLoop ∧ fd' = fd := by
    intro i fd'
    by_cases hi : i = s.nextLoop
    · subst hi
      rw [hself, hhandles.holds]
      constructor
      · rintro ⟨hold | ⟨c, hev, rfl⟩, -⟩
        · exact .inl hold
        · obtain rfl := LoopEvent.addConnection.inj hev
          exact .inr ⟨rfl, rfl⟩
      · rintro (hold | ⟨-, rfl⟩)
        · exact ⟨.inl hold, List.not_mem_nil⟩
        · exact ⟨.inr ⟨_, rfl, rfl⟩, List.not_mem_nil⟩
    · rw [hother i hi]
      simp [hi]
  have hdealt := dealt_accept past
    (a := (.accept fd nowMs,
      { io := some ((s.nextLoop, .addConnection (.fresh s.nextConnId fd nowMs)), outs) })) rfl
  have hlen : (NetServer.dealt (past ++ [(NetEvent.accept fd nowMs,
      ({ io := some ((s.nextLoop, .addConnection (.fresh s.nextConnId fd nowMs)), outs) } :
        NetOut n))])).length = (NetServer.dealt past).length + 1 := by
    rw [hdealt, List.length_append, List.length_singleton]
  refine ⟨?_, ?_, ?_, ?_, ?_, ?_, ?_⟩
  · rw [ioOf_concat]
    refine h.run.append (.single ⟨hadd, ?_⟩)
    exact ⟨fun c' hc' heq => hnone _ (.inl ⟨c', hc', heq⟩),
      fun id c' hc' heq => hnone _ (.inr ⟨id, c', hc', heq⟩)⟩
  · rw [hlen, inTurn_succ, hdealt, ← h.dealt, ← h.nextLoop, ← h.nextConnId]
    rfl
  · rw [hlen]
    show s.nextConnId + 1 = _
    rw [h.nextConnId, UInt64.ofNat_add ((NetServer.dealt past).length + 1) 1]
    rfl
  · rw [hlen, ← ofNat_succ, ← h.nextLoop]
  · intro fd'
    show fd' ∈ insert fd s.openFds ↔ fd' ∈ s.others ∨ ∃ i, (io.ioLoops i).Holds fd'
    rw [Finset.mem_insert, h.openFds]
    simp only [hholds, exists_or, exists_eq_left]
    tauto
  · intro fd' i hold
    rcases (hholds i fd').mp hold with hold | ⟨-, rfl⟩
    · exact h.apart fd' i hold
    · exact fun hin => hfree ((h.openFds fd').mpr (.inl hin))
  · intro fd' i j hi hj
    rcases (hholds i fd').mp hi with hi' | ⟨hi', heq⟩
    · rcases (hholds j fd').mp hj with hj' | ⟨-, heq'⟩
      · exact h.alone fd' i j hi' hj'
      · exact absurd (heq' ▸ hi') (hnone i)
    · rcases (hholds j fd').mp hj with hj' | ⟨hj', -⟩
      · exact absurd (heq ▸ hj') (hnone j)
      · exact hi'.trans hj'.symm

theorem Kept.loop (h : Kept past s) (hfew : (NetServer.dealt past).length ≤ 2 ^ 64) {i : Fin n}
    {ev : LoopEvent} {io : ServerIo n} {outs : List LoopOut} (hown : ∀ c, ev ≠ .addConnection c)
    (hwork : s.io.step (i, ev) = some (io, outs)) :
    Kept (past ++ [(.loop i ev,
        { io := some ((i, ev), outs), closed := (s.io.ioLoops i).closes ev })])
      { s with
          io := io
          openFds := ((s.io.ioLoops i).closes ev).foldl Finset.erase s.openFds } := by
  obtain ⟨l', hl, hself, hother⟩ := io_step hwork
  have hhandles := h.handles hfew hl
  have hholds : ∀ j fd, (io.ioLoops j).Holds fd ↔
      (s.io.ioLoops j).Holds fd ∧ fd ∉ (s.io.ioLoops i).closes ev := by
    intro j fd
    by_cases hj : j = i
    · subst hj
      rw [hself, hhandles.holds, or_iff_left]
      rintro ⟨c, hev, -⟩
      exact hown c hev
    · rw [hother j hj]
      refine (and_iff_left_of_imp fun hold hclosed => hj ?_).symm
      exact h.alone fd j i hold (hhandles.held fd hclosed)
  have hdealt : NetServer.dealt (past ++ [(NetEvent.loop i ev,
      ({ io := some ((i, ev), outs), closed := (s.io.ioLoops i).closes ev } : NetOut n))]) =
        NetServer.dealt past := by
    refine dealt_concat past _ ?_
    intro j c outs' heq
    exact hown c (congrArg (fun o => o.1.2) (Option.some.inj heq))
  refine ⟨?_, ?_, ?_, ?_, ?_, ?_, ?_⟩
  · rw [ioOf_concat]
    refine h.run.append (.single ⟨hwork, ?_⟩)
    cases ev with
    | addConnection c => exact absurd rfl (hown c)
    | _ => trivial
  · rw [hdealt]
    exact h.dealt
  · rw [hdealt]
    exact h.nextConnId
  · rw [hdealt]
    exact h.nextLoop
  · intro fd
    rw [mem_foldl_erase, h.openFds]
    show _ ↔ fd ∈ s.others ∨ ∃ j, (io.ioLoops j).Holds fd
    simp only [hholds, exists_and_right]
    have hkeep : fd ∈ s.others → fd ∉ (s.io.ioLoops i).closes ev := fun hin hclosed =>
      h.apart fd i (hhandles.held fd hclosed) hin
    tauto
  · exact fun fd j hold => h.apart fd j ((hholds j fd).mp hold).1
  · exact fun fd j k hj hk => h.alone fd j k ((hholds j fd).mp hj).1 ((hholds k fd).mp hk).1

theorem Kept.step {a : NetEvent n × NetOut n} (h : Kept past s) (hstep : Steps s a s')
    (hfew : (NetServer.dealt past).length ≤ 2 ^ 64) : Kept (past ++ [a]) s' := by
  obtain ⟨ev, out⟩ := a
  have hquiet : out = {} → s'.io = s.io → s'.nextConnId = s.nextConnId → s'.nextLoop = s.nextLoop →
      (∀ fd, fd ∈ s'.openFds ↔ fd ∈ s'.others ∨ ∃ i, (s.io.ioLoops i).Holds fd) →
      (∀ fd i, (s.io.ioLoops i).Holds fd → fd ∉ s'.others) → Kept (past ++ [(ev, out)]) s' := by
    rintro rfl hio hid hloop hopen hapart
    have hdealt : NetServer.dealt (past ++ [(ev, ({} : NetOut n))]) = NetServer.dealt past :=
      dealt_concat past _ fun _ _ _ => nofun
    refine ⟨?_, ?_, ?_, ?_, ?_, ?_, ?_⟩
    · rw [ioOf_concat, hio]
      simpa using h.run
    · rw [hdealt]
      exact h.dealt
    · rw [hdealt, hid]
      exact h.nextConnId
    · rw [hdealt, hloop]
      exact h.nextLoop
    · rw [hio]
      exact hopen
    · rw [hio]
      exact hapart
    · rw [hio]
      exact h.alone
  cases step_cases hstep with
  | accept free add => exact h.accept hfew free add
  | loop own work => exact h.loop hfew own work
  | @otherOpens fd free =>
    refine hquiet rfl rfl rfl rfl ?_ ?_
    · intro fd'
      rw [Finset.mem_insert, Finset.mem_insert, h.openFds, or_assoc]
    · intro fd' i hold hin
      rcases Finset.mem_insert.mp hin with rfl | hin
      · exact free ((h.openFds fd').mpr (.inr ⟨i, hold⟩))
      · exact h.apart fd' i hold hin
  | @otherCloses fd own =>
    refine hquiet rfl rfl rfl rfl ?_ ?_
    · intro fd'
      rw [Finset.mem_erase, Finset.mem_erase, h.openFds]
      have hne : (∃ i, (s.io.ioLoops i).Holds fd') → fd' ≠ fd := by
        rintro ⟨i, hold⟩ rfl
        exact h.apart fd' i hold own
      tauto
    · exact fun fd' i hold hin => h.apart fd' i hold (Finset.mem_of_mem_erase hin)

end Step

omit [NeZero n] in
theorem length_dealt_le (past later : List (NetEvent n × NetOut n)) :
    (NetServer.dealt past).length ≤ (NetServer.dealt (past ++ later)).length := by
  rw [NetServer.dealt, NetServer.dealt, ioOf, ioOf, List.filterMap_append, List.filterMap_append,
    List.length_append]
  exact Nat.le_add_right _ _

theorem kept_run {fds : Finset Fd} {as : List (NetEvent n × NetOut n)} {s : NetServer n}
    (h : Run Steps (init fds) as s) (hfew : (NetServer.dealt as).length ≤ 2 ^ 64) : Kept as s := by
  have hstep : ∀ past (s : NetServer n) a s',
      ((NetServer.dealt past).length ≤ 2 ^ 64 → Kept past s) → Steps s a s' →
      (NetServer.dealt (past ++ [a])).length ≤ 2 ^ 64 → Kept (past ++ [a]) s' := by
    intro past s a s' hI hs hfew
    have hpast := (length_dealt_le past [a]).trans hfew
    exact (hI hpast).step hs hpast
  exact h.history (I := fun past s => (NetServer.dealt past).length ≤ 2 ^ 64 → Kept past s) hstep
    (fun _ => kept_init fds) hfew

/-- The connections and their descriptors after `as`. -/
structure Descriptors (fds : Finset Fd) (as : List (NetEvent n × NetOut n)) (s : NetServer n) :
    Prop where
  /-- The loops go through a run of `ServerIo` in which ids are handed in once. -/
  run : Run ServerIo.Steps {} (ioOf as) s.io
  ids : (ServerIo.handedIn (ioOf as)).Nodup
  dealt : NetServer.dealt as = inTurn n (NetServer.dealt as).length
  held : ∀ i fd, (s.io.ioLoops i).Holds fd → fd ∈ s.openFds ∧ fd ∉ s.others
  owner : ∀ fd ∈ s.openFds, fd ∉ s.others → ∃! i, (s.io.ioLoops i).Holds fd
  /-- What is closed is open, a connection's, and closed by one `close`. -/
  closes : ∀ past a later s₁ s₂, as = past ++ a :: later → Run Steps (init fds) past s₁ →
    Steps s₁ a s₂ → a.2.closed.Nodup ∧ ∀ fd ∈ a.2.closed,
      fd ∈ s₁.openFds ∧ fd ∉ s₁.others ∧ ∀ i, ¬ (s₂.io.ioLoops i).Holds fd

theorem Kept.closes {past : List (NetEvent n × NetOut n)} {s s' : NetServer n}
    {a : NetEvent n × NetOut n} (h : Kept past s)
    (hfew : (NetServer.dealt past).length ≤ 2 ^ 64) (hstep : Steps s a s') :
    a.2.closed.Nodup ∧ ∀ fd ∈ a.2.closed,
      fd ∈ s.openFds ∧ fd ∉ s.others ∧ ∀ i, ¬ (s'.io.ioLoops i).Holds fd := by
  obtain ⟨ev, out⟩ := a
  cases step_cases hstep with
  | accept free add => exact ⟨List.nodup_nil, nofun⟩
  | @loop i event io outs own work =>
    obtain ⟨l', hl, hself, hother⟩ := io_step work
    have hhandles := h.handles hfew hl
    refine ⟨hhandles.nodup, fun fd hfd => ?_⟩
    have hold := hhandles.held fd hfd
    refine ⟨(h.openFds fd).mpr (.inr ⟨i, hold⟩), h.apart fd i hold, fun j hj => ?_⟩
    by_cases hji : j = i
    · subst hji
      exact ((hhandles.holds fd).mp (hself ▸ hj)).2 hfd
    · exact hji (h.alone fd j i (hother j hji ▸ hj) hold)
  | otherOpens free => exact ⟨List.nodup_nil, nofun⟩
  | otherCloses own => exact ⟨List.nodup_nil, nofun⟩

/-- **Descriptors have owners.**  The acceptor deals connections to the loops in turn, under ids
that are new until the counter comes around.  Every descriptor the process has open belongs to
the connection of one loop or to the rest of the process, so none leaks, and a loop closes a
descriptor once, while it is open and its own.  What the runs of the loops assume of ids and of
descriptors holds. -/
theorem descriptors_kept {fds : Finset Fd} {as : List (NetEvent n × NetOut n)} {s : NetServer n}
    (h : Run Steps (init fds) as s) (hfew : (NetServer.dealt as).length ≤ 2 ^ 64) :
    Descriptors fds as s := by
  have hkept := kept_run h hfew
  refine ⟨hkept.run, hkept.nodup hfew, hkept.dealt, ?_, ?_, ?_⟩
  · exact fun i fd hold => ⟨(hkept.openFds fd).mpr (.inr ⟨i, hold⟩), hkept.apart fd i hold⟩
  · intro fd hopen hnot
    obtain ⟨i, hold⟩ := ((hkept.openFds fd).mp hopen).resolve_left hnot
    exact ⟨i, hold, fun j hj => hkept.alone fd j i hj hold⟩
  · rintro past a later s₁ s₂ rfl hpast hstep
    have hfew' := (length_dealt_le past (a :: later)).trans hfew
    exact (kept_run hpast hfew').closes hfew' hstep

/-- Two connections; the first one goes and its descriptor is used for a third. -/
def reusedFd : List (NetEvent 2) :=
  [.accept 7 0, .accept 8 0, .loop 0 (.drainPending true), .loop 1 (.drainPending true),
    .loop 0 (.closeConnection 1), .loop 0 (.cleanupClosed [] [1]), .accept 7 0]

theorem descriptors_kept_reusedFd : ∃ (s : NetServer 2) (as : List (NetEvent 2 × NetOut 2)),
    NetServer.dealt as = [(0, 1), (1, 2), (0, 3)] ∧ as.flatMap (fun a => a.2.closed) = [7] ∧
    Descriptors {3} as s := by
  have hexec : (exec NetServer.step (init {3}) reusedFd).map (fun p =>
      (NetServer.dealt p.2, p.2.flatMap fun a => a.2.closed)) =
      some ([(0, 1), (1, 2), (0, 3)], [7]) := by
    decide +kernel
  obtain ⟨⟨s, as⟩, hexec, heq⟩ := Option.map_eq_some_iff.mp hexec
  obtain ⟨hdealt, hclosed⟩ := Prod.mk.injEq .. ▸ heq
  refine ⟨s, as, hdealt, hclosed, descriptors_kept (run_of_exec hexec) ?_⟩
  dsimp only at hdealt
  rw [hdealt]
  decide

end NetServer

end MiniArena
