/-
MiniArena/Clients.lean

The clients at the other ends of the sockets.

The kernel knows a socket by its descriptor, and uses descriptors again.  Behind a
descriptor is the client whom the last `accept4` returned under it; what a
`::read` gives is of this client, and what the kernel takes is for this client.
A client goes by the line it is dealt to, a loop and a connection id.

`Wired`: every connection of a loop has its own client behind its descriptor, as
nothing the process holds open is given away (`NetServer`).  So the two directions of
a connection (`LoopStreams`) are those of one client, whatever the other
connections, loops and earlier users of the descriptor do.
-/
import MiniArena.LoopStreams
import MiniArena.NetServer
import MiniArena.RobotLink

namespace MiniArena

open Transition EventLoop FrameCodec WireFrame

/-- A loop and an id of a connection of it. -/
abbrev Line (n : ℕ) := Fin n × ConnectionId

structure Network (n : ℕ) [NeZero n] where
  server : NetServer n
  /-- The client behind a descriptor. -/
  client : Fd → Line n := fun _ => (0, 0)
  /-- The bytes of a client that have been read. -/
  given : Line n → List UInt8 := fun _ => []
  /-- The bytes for a client that the kernel has taken. -/
  taken : Line n → List UInt8 := fun _ => []

namespace Network

variable {n : ℕ} [NeZero n]

def init (fds : Finset Fd) : Network n := { server := .init fds }

/-- The kernel answers a read and a write with what is possible. -/
def possible (s : Network n) : NetEvent n → Bool
  | .loop i ev => (s.server.io.ioLoops i).possible ev
  | _ => true

/-- What an event is to the clients. -/
def carry (s : Network n) : NetEvent n → Network n
  | .accept fd _ =>
      { s with client := Function.update s.client fd (s.server.nextLoop, s.server.nextConnId) }
  | .loop i ev =>
      match (s.server.io.ioLoops i).touched ev with
      | none => s
      | some c =>
          let who := s.client c.fd
          { s with
              given := Function.update s.given who (s.given who ++ gives ev)
              taken := Function.update s.taken who (s.taken who ++ takes c ev) }
  | _ => s

def step (s : Network n) (ev : NetEvent n) : Option (Network n × NetOut n) :=
  if s.possible ev then
    (s.server.step ev).map fun (server, out) => ({ s.carry ev with server := server }, out)
  else none

/-- The step relation; a label is an event with what it shows. -/
def Steps (s : Network n) (a : NetEvent n × NetOut n) (s' : Network n) : Prop :=
  s.step a.1 = some (s', a.2)

/-- The payloads of the calls of `sendToConnection` for a client. -/
def asked (who : Line n) (as : List (NetEvent n × NetOut n)) : List (List UInt8) :=
  (ServerIo.ofLoop who.1 (NetServer.ioOf as)).flatMap fun a => asks who.2 a.1

/-- The frames of a client that the callback was called with. -/
def heard (who : Line n) (as : List (NetEvent n × NetOut n)) : List Frame :=
  (ServerIo.ofLoop who.1 (NetServer.ioOf as)).flatMap fun a => framesOf who.2 a.2

theorem step_cases {s s' : Network n} {ev : NetEvent n} {out : NetOut n}
    (h : s.step ev = some (s', out)) : s.possible ev = true ∧
      ∃ server, s.server.step ev = some (server, out) ∧
        s' = { s.carry ev with server := server } := by
  obtain ⟨hpossible, hstep⟩ := Option.ite_none_right_eq_some.mp h
  obtain ⟨⟨server, out'⟩, hserver, heq⟩ := Option.map_eq_some_iff.mp hstep
  obtain ⟨rfl, rfl⟩ := Prod.mk.injEq .. ▸ heq
  exact ⟨hpossible, server, hserver, rfl⟩

/-! ### Behind the descriptors -/

omit [NeZero n] in
/-- The connections of loop `i` have their clients behind their descriptors. -/
structure Wired (client : Fd → Line n) (i : Fin n) (l : EventLoop) : Prop where
  pending : ∀ c ∈ l.pendingConns, Fresh c ∧ client c.fd = (i, c.id)
  held : ∀ id c, l.conns.lookup id = some c → client c.fd = (i, id)

section Loop

variable {client client' : Fd → Line n} {i : Fin n} {l l' : EventLoop} {ev : LoopEvent}
variable {outs : List LoopOut}

omit [NeZero n] in
/-- A client who takes a descriptor no connection has changes nothing for the connections. -/
theorem Wired.reassign (h : Wired client i l) (hsame : ∀ fd, l.Holds fd → client' fd = client fd) :
    Wired client' i l where
  pending := by
    intro c hc
    obtain ⟨hfresh, hwho⟩ := h.pending c hc
    exact ⟨hfresh, (hsame c.fd (.inl ⟨c, hc, rfl⟩)).trans hwho⟩
  held := fun id c hc => (hsame c.fd (.inr ⟨id, c, hc, rfl⟩)).trans (h.held id c hc)

omit [NeZero n] in
theorem Wired.moves (h : Wired client i l) (hp : ∀ c ∈ l'.pendingConns, c ∈ l.pendingConns)
    (hl : ∀ id c, l'.conns.lookup id = some c →
      ∃ c₀, l.conns.lookup id = some c₀ ∧ SameSocket c₀ c) : Wired client i l' where
  pending := fun c hc => h.pending c (hp c hc)
  held := by
    intro id c hc
    obtain ⟨c₀, hc₀, -, hfd⟩ := hl id c hc
    rw [hfd]
    exact h.held id c₀ hc₀

omit [NeZero n] in
theorem Wired.step (h : Wired client i l) (hr : Registry l) (hstep : l.step ev = some (l', outs))
    (hadd : ∀ c, ev = .addConnection c → Fresh c ∧ client c.fd = (i, c.id)) :
    Wired client i l' := by
  have hkeep : ∀ id c, l.conns.lookup id = some c →
      ∃ c₀, l.conns.lookup id = some c₀ ∧ SameSocket c₀ c := fun _ c hc => ⟨c, hc, .refl c⟩
  cases EventLoop.step_cases hr hstep with
  | enqueue c =>
    refine ⟨fun c' hc' => ?_, h.held⟩
    rcases List.mem_append.mp hc' with hc' | hc'
    · exact h.pending c' hc'
    · exact List.mem_singleton.mp hc' ▸ hadd c rfl
  | @register c cs hp =>
    refine ⟨fun c' hc' => h.pending c' (hp ▸ List.mem_cons_of_mem _ hc'), fun id c' hc' => ?_⟩
    rw [Finmap.lookup_insert_eq] at hc'
    split at hc'
    · rename_i hid
      obtain rfl := Option.some.inj hc'
      rw [hid]
      exact (h.pending c (hp ▸ List.mem_cons_self)).2
    · exact h.held id c' hc'
  | drop hp => exact h.moves (fun c' hc' => hp ▸ List.mem_cons_of_mem _ hc') hkeep
  | keep hadd hdrain hkept houts =>
    exact h.moves (fun c hc => hkept.pending ▸ hc) fun id c hc => hkept.conns.lookup hc
  | remove hrem => exact h.moves (fun c hc => hrem.pending ▸ hc) hrem.lookup_eq

/-- Whom a step moves bytes of. -/
theorem carry_loop (s : Network n) (hr : Registry (s.server.io.ioLoops i))
    (hwired : Wired s.client i (s.server.io.ioLoops i)) (ev : LoopEvent) (outs : List LoopOut) :
    (∀ id, (s.carry (.loop i ev)).given (i, id) =
        s.given (i, id) ++ ((s.server.io.ioLoops i).exchange id ev outs).given ∧
      (s.carry (.loop i ev)).taken (i, id) =
        s.taken (i, id) ++ ((s.server.io.ioLoops i).exchange id ev outs).taken) ∧
    ∀ j, j ≠ i → ∀ id, (s.carry (.loop i ev)).given (j, id) = s.given (j, id) ∧
      (s.carry (.loop i ev)).taken (j, id) = s.taken (j, id) := by
  rcases ht : (s.server.io.ioLoops i).touched ev with - | c
  · simp only [carry, exchange, ht, List.append_nil, and_self, implies_true]
  have hwho : s.client c.fd = (i, c.id) := by
    cases ev with
    | epoll fd readable writable r w nowMs =>
      obtain ⟨a, -, hc⟩ := Option.bind_eq_some_iff.mp ht
      rw [hr.own a c hc]
      exact hwired.held a c hc
    | _ => cases ht
  refine ⟨fun id => ?_, fun j hj id => ?_⟩
  · simp only [carry, exchange, ht, hwho]
    by_cases hid : c.id = id
    · subst hid
      simp
    · have hne : ((i, id) : Line n) ≠ (i, c.id) := fun heq => hid (congrArg Prod.snd heq).symm
      simp [hid, hne]
  · have hne : ((j, id) : Line n) ≠ (i, c.id) := fun heq => hj (congrArg Prod.fst heq)
    simp [carry, ht, hwho, hne]

end Loop

/-! ### The invariant -/

/-- The state in terms of the past. -/
structure Served (past : List (NetEvent n × NetOut n)) (s : Network n) : Prop where
  kept : NetServer.Kept past s.server
  wired : ∀ i, Wired s.client i (s.server.io.ioLoops i)
  streams : ∀ i, Streams (ServerIo.ofLoop i (NetServer.ioOf past)) (s.server.io.ioLoops i)
    (fun id => s.given (i, id)) fun id => s.taken (i, id)

theorem served_init (fds : Finset Fd) : Served [] (init fds : Network n) where
  kept := NetServer.kept_init fds
  wired := fun i => by
    refine ⟨fun c hc => ?_, fun id c hc => ?_⟩
    · cases hc
    · rw [show ((init fds : Network n).server.io.ioLoops i).conns = ∅ from rfl,
        Finmap.lookup_empty] at hc
      cases hc
  streams := fun i => streams_empty

section Step

variable {past : List (NetEvent n × NetOut n)} {s : Network n} {io : ServerIo n} {i : Fin n}
variable {ev : LoopEvent} {outs : List LoopOut}

/-- The loop that steps moves its streams on, and the others stay. -/
theorem Served.streams_io (h : Served past s)
    (hfew : (NetServer.dealt past).length ≤ 2 ^ 64)
    (hio : s.server.io.step (i, ev) = some (io, outs))
    (hpossible : (s.server.io.ioLoops i).possible ev = true) (j : Fin n) :
    Streams (ServerIo.ofLoop j (NetServer.ioOf past ++ [((i, ev), outs)])) (io.ioLoops j)
      (fun id => (s.carry (.loop i ev)).given (j, id))
      fun id => (s.carry (.loop i ev)).taken (j, id) := by
  obtain ⟨l', hl, hself, hother⟩ := NetServer.io_step hio
  have haccounts := h.kept.accounts hfew i
  obtain ⟨hmoved, hstill⟩ := carry_loop s haccounts.registry (h.wired i) ev outs
  by_cases hj : j = i
  · subst hj
    rw [ServerIo.ofLoop_concat_self (NetServer.ioOf past) ((j, ev), outs), hself]
    simp only [hmoved]
    exact (h.streams j).step haccounts (ServerIo.nodup_ofLoop (h.kept.nodup hfew) j)
      (fun c hc => ((h.wired j).pending c hc).1) hl hpossible
  · rw [ServerIo.ofLoop_concat_of_ne _ (Ne.symm hj), hother j hj]
    simp only [hstill j hj]
    exact h.streams j

theorem Served.wired_io {client : Fd → Line n} (h : Served past s)
    (hfew : (NetServer.dealt past).length ≤ 2 ^ 64)
    (hio : s.server.io.step (i, ev) = some (io, outs))
    (hwired : ∀ j, Wired client j (s.server.io.ioLoops j))
    (hadd : ∀ c, ev = .addConnection c → Fresh c ∧ client c.fd = (i, c.id)) (j : Fin n) :
    Wired client j (io.ioLoops j) := by
  obtain ⟨l', hl, hself, hother⟩ := NetServer.io_step hio
  by_cases hj : j = i
  · subst hj
    rw [hself]
    exact (hwired j).step (h.kept.accounts hfew j).registry hl hadd
  · rw [hother j hj]
    exact hwired j

end Step

/-- **One step.** -/
theorem Served.step {past : List (NetEvent n × NetOut n)} {s s' : Network n}
    {a : NetEvent n × NetOut n} (h : Served past s) (hstep : Steps s a s')
    (hfew : (NetServer.dealt past).length ≤ 2 ^ 64) : Served (past ++ [a]) s' := by
  obtain ⟨ev, out⟩ := a
  obtain ⟨hpossible, server, hserver, rfl⟩ := step_cases hstep
  have hkept : NetServer.Kept (past ++ [(ev, out)]) server := h.kept.step hserver hfew
  refine ⟨hkept, ?_, ?_⟩
  · cases NetServer.step_cases hserver with
    | @accept fd nowMs io outs free add =>
      refine h.wired_io hfew add (fun j => (h.wired j).reassign fun fd' hold => ?_) ?_
      · -- the new descriptor is nobody's
        refine Function.update_of_ne ?_ _ _
        rintro rfl
        exact free ((h.kept.openFds fd').mpr (.inr ⟨j, hold⟩))
      · intro c hc
        obtain rfl := LoopEvent.addConnection.inj hc
        exact ⟨⟨_, _, _, rfl⟩, Function.update_self ..⟩
    | @loop i event io outs own work =>
      have hclient : (s.carry (.loop i event)).client = s.client := by
        unfold carry
        dsimp only
        split <;> rfl
      show ∀ j, Wired (s.carry (.loop i event)).client j (io.ioLoops j)
      rw [hclient]
      exact h.wired_io hfew work h.wired fun c hc => absurd hc (own c)
    | otherOpens free => exact h.wired
    | otherCloses own => exact h.wired
  · intro j
    rw [NetServer.ioOf_concat]
    cases NetServer.step_cases hserver with
    | @accept fd nowMs io outs free add => exact h.streams_io hfew add rfl j
    | loop own work => exact h.streams_io hfew work hpossible j
    | otherOpens free =>
      simp only [Option.toList_none, List.append_nil]
      exact h.streams j
    | otherCloses own =>
      simp only [Option.toList_none, List.append_nil]
      exact h.streams j

theorem served_run {fds : Finset Fd} {as : List (NetEvent n × NetOut n)} {s : Network n}
    (h : Run Steps (init fds) as s) (hfew : (NetServer.dealt as).length ≤ 2 ^ 64) :
    Served as s := by
  have hstep : ∀ past (s : Network n) a s',
      ((NetServer.dealt past).length ≤ 2 ^ 64 → Served past s) → Steps s a s' →
      (NetServer.dealt (past ++ [a])).length ≤ 2 ^ 64 → Served (past ++ [a]) s' := by
    intro past s a s' hI hs hfew
    have hpast := (NetServer.length_dealt_le past [a]).trans hfew
    exact (hI hpast).step hs hpast
  exact h.history (I := fun past s => (NetServer.dealt past).length ≤ 2 ^ 64 → Served past s)
    hstep (fun _ => served_init fds) hfew

/-! ### The streams of one client -/

/-- A client is gone before it gets a write; the next one gets its descriptor. -/
def reusedLine : List (NetEvent 1) :=
  [.accept 7 0, .loop 0 (.drainPending true), .loop 0 (.sendToConnection 1 moveFrame.bytes),
    .loop 0 (.closeConnection 1), .loop 0 (.cleanupClosed [] [1]), .accept 7 0,
    .loop 0 (.drainPending true), .loop 0 (.sendToConnection 2 moveFrame.bytes),
    .loop 0 .drainPendingWrites, .loop 0 .drainPendingWrites,
    .loop 0 (.epoll 7 true true (.data moveFrame.bytes) (.accepted 1) 0)]

/-- **To a client.**  If the payloads for a client are frames, then what the kernel
has taken for it and what waits in the send buffer of its connection are some of these
frames, whole and in order, and of those that have left the queue of the loop.  A
robot reads an initial part of them, however the stream is cut, and no byte meant
for anyone else; all of them once nothing waits or is under way. -/
theorem frames_delivered {fds : Finset Fd} {as : List (NetEvent n × NetOut n)} {s : Network n}
    (h : Run Steps (init fds) as s) (hfew : (NetServer.dealt as).length ≤ 2 ^ 64) (who : Line n)
    {fs : List WireFrame} (hfs : asked who as = fs.map WireFrame.bytes) {conn : List Robot.Chunk}
    {flight : List UInt8} (hnet : Robot.Chunk.stream conn ++ flight = s.taken who) :
    ∃ (sent ys zs : List WireFrame) (gs : List Robot.DecodedFrame) (r : Robot.FrameReader)
        (conn' : List Robot.Chunk),
      sent.Sublist
        (fs.take (fs.length - ((s.server.io.ioLoops who.1).queued who.2).length)) ∧
      s.taken who ++ (s.server.io.ioLoops who.1).waiting who.2 = framing.encodeAll sent ∧
      sent = ys ++ zs ∧ Robot.readFrames {} conn = (gs, .conn, r, conn') ∧
      gs.map Robot.DecodedFrame.toFrame = ys.map toFrame ∧
      (flight = [] → (s.server.io.ioLoops who.1).waiting who.2 = [] → zs = []) := by
  obtain ⟨popped, sent, hasked, hsub, hstream⟩ :=
    (((served_run h hfew).streams who.1).down who.2).stream
  -- what has left the queue
  have hpopped : popped =
      (fs.take (fs.length - ((s.server.io.ioLoops who.1).queued who.2).length)).map
        WireFrame.bytes := by
    have hall : fs.map WireFrame.bytes =
        popped ++ (s.server.io.ioLoops who.1).queued who.2 := hfs.symm.trans hasked
    have hlen : popped.length =
        fs.length - ((s.server.io.ioLoops who.1).queued who.2).length := by
      have := congrArg List.length hall
      rw [List.length_map, List.length_append] at this
      omega
    rw [List.map_take, hall, ← hlen, List.take_left]
  rw [hpopped] at hsub
  obtain ⟨ss, hss, rfl⟩ := List.sublist_map_iff.mp hsub
  have hbytes : s.taken who ++ (s.server.io.ioLoops who.1).waiting who.2 =
      framing.encodeAll ss := hstream
  rw [← hnet, List.append_assoc] at hbytes
  obtain ⟨ys, zs, gs, r, conn', hsplit, hgo, hgs, hall⟩ := Robot.readFrames_initial hbytes
  refine ⟨ss, ys, zs, gs, r, conn', hss, hstream, hsplit, hgo, hgs, ?_⟩
  intro hflight hwait
  exact hall (by rw [hflight, hwait]; rfl)

theorem frames_delivered_reusedLine : ∃ (s : Network 1) (as : List (NetEvent 1 × NetOut 1)),
    asked (0, 1) as = [moveFrame.bytes] ∧ s.taken (0, 1) = [] ∧
    ∃ (sent ys zs : List WireFrame) (gs : List Robot.DecodedFrame) (r : Robot.FrameReader)
        (conn' : List Robot.Chunk),
      sent.Sublist ([moveFrame].take (1 - ((s.server.io.ioLoops 0).queued 2).length)) ∧
      s.taken (0, 2) ++ (s.server.io.ioLoops 0).waiting 2 = framing.encodeAll sent ∧
      sent = ys ++ zs ∧
      Robot.readFrames {} [⟨moveFrame.bytes.take 1, by decide⟩] = (gs, .conn, r, conn') ∧
      gs.map Robot.DecodedFrame.toFrame = ys.map toFrame ∧
      (([] : List UInt8) = [] → (s.server.io.ioLoops 0).waiting 2 = [] → zs = []) := by
  have hexec : (exec Network.step (init {3}) reusedLine).map (fun p =>
      ((NetServer.dealt p.2).length, [asked (0, 1) p.2, asked (0, 2) p.2],
        [p.1.taken (0, 1), p.1.taken (0, 2)])) =
      some (2, [[moveFrame.bytes], [moveFrame.bytes]], [[], moveFrame.bytes.take 1]) := by
    decide +kernel
  obtain ⟨⟨s, as⟩, hexec, heq⟩ := Option.map_eq_some_iff.mp hexec
  simp only [Prod.mk.injEq, List.cons.injEq, and_true] at heq
  obtain ⟨hdealt, ⟨hdropped, hasked⟩, hfirst, htaken⟩ := heq
  refine ⟨s, as, hdropped, hfirst, ?_⟩
  have hfs : asked (0, 2) as = [moveFrame].map WireFrame.bytes := hasked
  refine frames_delivered (run_of_exec hexec) (hdealt.trans_le (by decide)) (0, 2) hfs ?_
  rw [htaken]
  rfl

/-- **From a client.**  If a client sends frames, then the callback has been called with
the first of them, under the id of its connection, in order and unchanged; with all of
them once all bytes have been read. -/
theorem frames_heard {fds : Finset Fd} {as : List (NetEvent n × NetOut n)} {s : Network n}
    (h : Run Steps (init fds) as s) (hfew : (NetServer.dealt as).length ≤ 2 ^ 64) (who : Line n)
    {fs : List WireFrame} {flight : List UInt8}
    (hnet : s.given who ++ flight = framing.encodeAll fs) :
    ∃ ys zs : List WireFrame, fs = ys ++ zs ∧ heard who as = ys.map toFrame ∧
      (flight = [] → zs = []) := by
  obtain ⟨ys, zs, rest, hsplit, hheard⟩ :=
    ((served_run h hfew).streams who.1).up who.2 flight fs hnet
  refine ⟨ys, zs, hsplit, hheard.frames, ?_⟩
  rintro rfl
  exact eq_nil_of_half ((List.append_nil rest).symm.trans hheard.left) hheard.half

theorem frames_heard_reusedLine : ∃ (s : Network 1) (as : List (NetEvent 1 × NetOut 1)),
    s.given (0, 1) = [] ∧ s.client 7 = (0, 2) ∧
    ∃ ys zs : List WireFrame, [moveFrame] = ys ++ zs ∧ heard (0, 2) as = ys.map toFrame ∧
      (([] : List UInt8) = [] → zs = []) := by
  have hexec : (exec Network.step (init {3}) reusedLine).map (fun p =>
      ((NetServer.dealt p.2).length, p.1.given (0, 1), p.1.client 7, p.1.given (0, 2))) =
      some (2, [], (0, 2), moveFrame.bytes) := by
    decide +kernel
  obtain ⟨⟨s, as⟩, hexec, heq⟩ := Option.map_eq_some_iff.mp hexec
  simp only [Prod.mk.injEq] at heq
  obtain ⟨hdealt, hother, hclient, hgiven⟩ := heq
  refine ⟨s, as, hother, hclient, ?_⟩
  refine frames_heard (run_of_exec hexec) (hdealt.trans_le (by decide)) (0, 2) ?_
  rw [hgiven]
  rfl

end Network

end MiniArena
