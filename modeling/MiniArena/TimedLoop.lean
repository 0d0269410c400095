/-
MiniArena/TimedLoop.lean

The event loop together with its timing wheel and the steady clock.

`EventLoop` leaves the wheel out: a pass of `cleanupClosed` there carries the
ids whose heartbeat callback runs.  Here the functions of
`network/event_loop.cpp` are written with their timer lines, and the wheel
decides which callbacks run.  `step_refines` says that the wheel only restricts
the loop: every step is a step of `EventLoop`.

A tick that reads outside its bucket leaves a loop that takes no more steps:
`faulted`.  Times are nanoseconds.
-/
import MiniArena.EventLoop
import MiniArena.TimerWheel

namespace MiniArena

/-- The clock is the one of the last step. -/
structure TimedLoop where
  loop : EventLoop := {}
  wheel : TimerWheel Unit := {}
  now : ℕ := 0
  faulted : Bool := false

namespace TimedLoop

open EventLoop

/-! ### The operations -/

def closeConnection (t : TimedLoop) (id : ConnectionId) : TimedLoop :=
  match t.loop.conns.lookup id with
  | none => t
  | some _ => { t with loop := t.loop.closeConnection id, wheel := t.wheel.remove id }

/-- The callback `addConnectionImpl` gives to the wheel. -/
def heartbeat : TimerWheel.Call Unit EventLoop := fun _ id s =>
  match s.2.conns.lookup id with
  | none => s
  | some _ =>
      let t := closeConnection { loop := s.2, wheel := s.1 } id
      (t.wheel, t.loop)

def addConnectionImpl (heartbeatMs : UInt64) (t : TimedLoop) (c : Connection)
    (registered : Bool) : TimedLoop :=
  if registered then
    { t with
      loop := t.loop.addConnectionImpl c registered
      wheel := t.wheel.add c.id heartbeatMs (some ()) }
  else t

/-- What a step tells besides the callbacks of the loop: the connection whose
timer is set, at its registration or, if it still has one, by a readable event. -/
structure TimedOut where
  outs : List LoopOut := []
  touched : Option ConnectionId := none
  deriving DecidableEq

def drainPending (heartbeatMs : UInt64) (t : TimedLoop) (registered : Bool) :
    TimedLoop × TimedOut :=
  match t.loop.pendingConns with
  | [] => (t, {})
  | c :: cs =>
      (addConnectionImpl heartbeatMs { t with loop := { t.loop with pendingConns := cs } } c
        registered, { touched := if registered then some c.id else none })

def handleReadable (heartbeatMs : UInt64) (t : TimedLoop) (id : ConnectionId) (c : Connection)
    (r : ReadResult) (nowMs : UInt64) : Option (TimedLoop × TimedOut) :=
  (c.onReadable r nowMs).map fun (c, fs) =>
    let t := { t with loop := { t.loop with conns := t.loop.conns.insert id c } }
    let s : TimedLoop × List LoopOut :=
      if c.state = .closing then (t.closeConnection id, [])
      else if fs ≠ [] then (t, [.frames id fs])
      else (t, [])
    ({ s.1 with wheel := s.1.wheel.refresh id heartbeatMs },
      { outs := s.2, touched := if (s.1.wheel.idToSlot.lookup id).isSome then some id else none })

def handleWritable (t : TimedLoop) (id : ConnectionId) (w : WriteResult) : TimedLoop :=
  { t with loop := t.loop.handleWritable id w }

def handleEvent (heartbeatMs : UInt64) (t : TimedLoop) (fd : Fd) (readable writable : Bool)
    (r : ReadResult) (w : WriteResult) (nowMs : UInt64) : Option (TimedLoop × TimedOut) :=
  match t.loop.fdToId.lookup fd with
  | none => some (t, {})
  | some id =>
      match t.loop.conns.lookup id with
      | none => some (t, {})
      | some c =>
          (if readable then t.handleReadable heartbeatMs id c r nowMs
            else some (t, {})).map fun (t, out) =>
              (if writable then t.handleWritable id w else t, out)

def checkTimeout (nowMs timeoutMs : UInt64) (t : TimedLoop) (id : ConnectionId) : TimedLoop :=
  match t.loop.conns.lookup id with
  | none => t
  | some c =>
      if c.state = .active ∨ c.state = .connected then
        if c.isTimeout nowMs timeoutMs then t.closeConnection c.id else t
      else t

/-- `cleanupClosed`, where the tick invokes the callbacks of `due`. -/
def cleanupClosed (t : TimedLoop) (due order : List ConnectionId) :
    Option (TimedLoop × TimedOut) :=
  match t.wheel.tick heartbeat t.loop with
  | .ok p =>
      if p.fired = due then
        let s := order.foldl cleanup (p.rest, [])
        some ({ t with loop := s.1, wheel := p.wheel }, { outs := s.2 })
      else none
  | .error p =>
      if p.fired = due then some ({ t with loop := p.rest, wheel := p.wheel, faulted := true }, {})
      else none

/-- One step of the loop, without the clock. -/
def stepNow (heartbeatMs : UInt64) (t : TimedLoop) : LoopEvent → Option (TimedLoop × TimedOut)
  | .addConnection c =>
      some ({ t with loop := { t.loop with pendingConns := t.loop.pendingConns ++ [c] } }, {})
  | .sendToConnection id data =>
      some ({ t with loop :=
        { t.loop with pendingWrites := t.loop.pendingWrites ++ [(id, data)] } }, {})
  | .drainPending registered => some (t.drainPending heartbeatMs registered)
  | .drainPendingWrites => t.loop.drainPendingWrites.map fun l => ({ t with loop := l }, {})
  | .epoll fd readable writable r w nowMs =>
      t.handleEvent heartbeatMs fd readable writable r w nowMs
  | .closeConnection id => some (t.closeConnection id, {})
  | .checkTimeouts nowMs timeoutMs order =>
      some (order.foldl (checkTimeout nowMs timeoutMs) t, {})
  | .cleanupClosed due order => t.cleanupClosed due order

/-- One step at the time `e.2`. -/
def step (heartbeatMs : UInt64) (t : TimedLoop) (e : LoopEvent × ℕ) :
    Option (TimedLoop × TimedOut) :=
  if t.faulted ∨ e.2 < t.now then none else { t with now := e.2 }.stepNow heartbeatMs e.1

def Steps (heartbeatMs : UInt64) (t : TimedLoop) (a : (LoopEvent × ℕ) × TimedOut)
    (t' : TimedLoop) : Prop :=
  t.step heartbeatMs a.1 = some (t', a.2)

/-! ### The wheel only restricts the loop -/

@[simp] theorem loop_closeConnection (t : TimedLoop) (id : ConnectionId) :
    (t.closeConnection id).loop = t.loop.closeConnection id := by
  unfold closeConnection
  rcases hc : t.loop.conns.lookup id with - | c
  · rw [EventLoop.closeConnection, Finmap.modify, hc]
  · rfl

theorem loop_checkTimeout (nowMs timeoutMs : UInt64) (t : TimedLoop) (id : ConnectionId) :
    (t.checkTimeout nowMs timeoutMs id).loop = t.loop.checkTimeout nowMs timeoutMs id := by
  unfold checkTimeout EventLoop.checkTimeout
  rcases t.loop.conns.lookup id with - | c
  · rfl
  · dsimp only
    split
    · split
      · exact loop_closeConnection _ _
      · rfl
    · rfl

theorem loop_checkTimeouts (nowMs timeoutMs : UInt64) (t : TimedLoop) (order : List ConnectionId) :
    (order.foldl (checkTimeout nowMs timeoutMs) t).loop =
      order.foldl (EventLoop.checkTimeout nowMs timeoutMs) t.loop := by
  induction order generalizing t with
  | nil => rfl
  | cons id order ih => rw [List.foldl_cons, List.foldl_cons, ih, loop_checkTimeout]

theorem loop_handleReadable {heartbeatMs : UInt64} {t t' : TimedLoop} {id : ConnectionId}
    {c : Connection} {r : ReadResult} {nowMs : UInt64} {out : TimedOut}
    (h : t.handleReadable heartbeatMs id c r nowMs = some (t', out)) :
    t.loop.handleReadable id c r nowMs = some (t'.loop, out.outs) := by
  unfold handleReadable at h
  unfold EventLoop.handleReadable
  obtain ⟨⟨c', fs⟩, hc, heq⟩ := Option.map_eq_some_iff.mp h
  obtain ⟨rfl, rfl⟩ := Prod.mk.injEq .. ▸ heq
  rw [hc, Option.map_some]
  dsimp only
  split
  · rw [loop_closeConnection]
  · split <;> rfl

/-- The wheel is touched by the readable half only. -/
theorem loop_handleEvent {heartbeatMs : UInt64} {t t' : TimedLoop} {fd : Fd}
    {readable writable : Bool} {r : ReadResult} {w : WriteResult} {nowMs : UInt64} {out : TimedOut}
    (h : t.handleEvent heartbeatMs fd readable writable r w nowMs = some (t', out)) :
    t.loop.handleEvent fd readable writable r w nowMs = some (t'.loop, out.outs) := by
  unfold handleEvent at h
  unfold EventLoop.handleEvent
  dsimp only at h
  rcases hid : t.loop.fdToId.lookup fd with - | id
  · rw [hid] at h
    obtain ⟨rfl, rfl⟩ := Prod.mk.injEq .. ▸ Option.some.inj h
    rfl
  · rw [hid] at h
    dsimp only at h ⊢
    rcases hc : t.loop.conns.lookup id with - | c
    · rw [hc] at h
      obtain ⟨rfl, rfl⟩ := Prod.mk.injEq .. ▸ Option.some.inj h
      rfl
    · rw [hc] at h
      obtain ⟨⟨t₁, out₁⟩, h₁, heq⟩ := Option.map_eq_some_iff.mp h
      obtain ⟨rfl, rfl⟩ := Prod.mk.injEq .. ▸ heq
      dsimp only
      have hread : (if readable then t.loop.handleReadable id c r nowMs else some (t.loop, [])) =
          some (t₁.loop, out₁.outs) := by
        by_cases hr : readable = true
        · rw [if_pos hr] at h₁ ⊢
          exact loop_handleReadable h₁
        · rw [if_neg hr] at h₁ ⊢
          obtain ⟨rfl, rfl⟩ := Prod.mk.injEq .. ▸ Option.some.inj h₁
          rfl
      rw [hread, Option.map_some]
      cases writable <;> rfl

theorem rest_heartbeat (cb : Unit) (id : ConnectionId) (s : TimerWheel Unit × EventLoop) :
    (heartbeat cb id s).2 = s.2.closeConnection id := by
  unfold heartbeat
  rcases hc : s.2.conns.lookup id with - | c
  · rw [EventLoop.closeConnection, Finmap.modify, hc]
  · exact loop_closeConnection _ _

/-- The callbacks of a tick close their connections, one after the other. -/
theorem rest_loop {slot : Fin kSlots} (n i : ℕ) (p : TimerWheel.Pass Unit EventLoop) :
    ∃ more, (TimerWheel.reached (TimerWheel.loop heartbeat slot n i p)).fired = p.fired ++ more ∧
      (TimerWheel.reached (TimerWheel.loop heartbeat slot n i p)).rest =
        more.foldl EventLoop.closeConnection p.rest := by
  induction n generalizing i p with
  | zero => exact ⟨[], (List.append_nil _).symm, rfl⟩
  | succ n ih =>
    rw [TimerWheel.loop]
    rcases (p.wheel.slots slot)[i]? with - | e
    · exact ⟨[], (List.append_nil _).symm, rfl⟩
    · have hinvoke : ∃ one, (TimerWheel.invoke heartbeat p e).fired = p.fired ++ one ∧
          (TimerWheel.invoke heartbeat p e).rest = one.foldl EventLoop.closeConnection p.rest := by
        unfold TimerWheel.invoke
        rcases e.callback with - | cb
        · exact ⟨[], (List.append_nil _).symm, rfl⟩
        · exact ⟨[e.id], rfl, rest_heartbeat cb e.id _⟩
      obtain ⟨one, hfired, hrest⟩ := hinvoke
      dsimp only
      rcases ((TimerWheel.invoke heartbeat p e).wheel.slots slot)[i]? with - | e'
      · exact ⟨one, hfired, hrest⟩
      · obtain ⟨more, hfired', hrest'⟩ := ih (i + 1)
          (TimerWheel.forget (TimerWheel.invoke heartbeat p e) e')
        refine ⟨one ++ more, ?_, ?_⟩
        · rw [hfired', ← List.append_assoc]
          exact congrArg (· ++ more) hfired
        · rw [hrest', List.foldl_append]
          exact congrArg (more.foldl EventLoop.closeConnection) hrest

theorem rest_tick {w : TimerWheel Unit} {l : EventLoop} {p : TimerWheel.Pass Unit EventLoop}
    (h : w.tick heartbeat l = .ok p) : p.rest = p.fired.foldl EventLoop.closeConnection l := by
  obtain ⟨more, hfired, hrest⟩ := @rest_loop w.nextSlot w.due.length 0 ⟨w.advance, l, [], []⟩
  have htick : (TimerWheel.loop heartbeat w.nextSlot w.due.length 0 ⟨w.advance, l, [], []⟩).map
      (TimerWheel.clear w.nextSlot) = .ok p := h
  rcases hloop : TimerWheel.loop heartbeat w.nextSlot w.due.length 0 ⟨w.advance, l, [], []⟩
    with q | q
  · rw [hloop] at htick
    cases htick
  · rw [hloop] at htick hfired hrest
    obtain rfl := Except.ok.inj htick
    show q.rest = q.fired.foldl _ _
    rw [show q.fired = more from hfired]
    exact hrest

theorem loop_drainPending (heartbeatMs : UInt64) (t : TimedLoop) (registered : Bool) :
    (t.drainPending heartbeatMs registered).1.loop = t.loop.drainPending registered ∧
      (t.drainPending heartbeatMs registered).2.outs = [] := by
  unfold drainPending EventLoop.drainPending
  rcases t.loop.pendingConns with - | ⟨c, cs⟩
  · exact ⟨rfl, rfl⟩
  · cases registered <;> exact ⟨rfl, rfl⟩

theorem stepNow_refines {heartbeatMs : UInt64} {t t' : TimedLoop} {ev : LoopEvent} {out : TimedOut}
    (h : t.stepNow heartbeatMs ev = some (t', out)) (hok : t'.faulted = false) :
    t.loop.step ev = some (t'.loop, out.outs) := by
  unfold stepNow at h
  cases ev with
  | addConnection c =>
    obtain ⟨rfl, rfl⟩ := Prod.mk.injEq .. ▸ Option.some.inj h
    rfl
  | sendToConnection id data =>
    obtain ⟨rfl, rfl⟩ := Prod.mk.injEq .. ▸ Option.some.inj h
    rfl
  | drainPending registered =>
    obtain ⟨hloop, houts⟩ := loop_drainPending heartbeatMs t registered
    rw [Option.some.inj h] at hloop houts
    rw [hloop, houts]
    rfl
  | drainPendingWrites =>
    obtain ⟨l, hl, heq⟩ := Option.map_eq_some_iff.mp h
    obtain ⟨rfl, rfl⟩ := Prod.mk.injEq .. ▸ heq
    show (t.loop.drainPendingWrites).map _ = _
    rw [hl]
    rfl
  | epoll fd readable writable r w nowMs =>
    exact loop_handleEvent h
  | closeConnection id =>
    obtain ⟨rfl, rfl⟩ := Prod.mk.injEq .. ▸ Option.some.inj h
    show some (t.loop.closeConnection id, []) = _
    rw [loop_closeConnection]
  | checkTimeouts nowMs timeoutMs order =>
    obtain ⟨rfl, rfl⟩ := Prod.mk.injEq .. ▸ Option.some.inj h
    show some (order.foldl _ t.loop, []) = _
    rw [loop_checkTimeouts]
  | cleanupClosed due order =>
    show some (t.loop.cleanupClosed due order) = _
    unfold cleanupClosed at h
    dsimp only at h
    split at h
    · rename_i p htick
      split at h
      · rename_i hdue
        obtain ⟨rfl, rfl⟩ := Prod.mk.injEq .. ▸ Option.some.inj h
        rw [EventLoop.cleanupClosed, ← hdue, ← rest_tick htick]
      · cases h
    · -- a tick that does not end leaves the loop faulted
      split at h
      · obtain ⟨rfl, -⟩ := Prod.mk.injEq .. ▸ Option.some.inj h
        cases hok
      · cases h

/-- **The wheel only restricts the loop.** -/
theorem step_refines {heartbeatMs : UInt64} {t t' : TimedLoop} {e : LoopEvent × ℕ} {out : TimedOut}
    (h : t.step heartbeatMs e = some (t', out)) (hok : t'.faulted = false) :
    t.loop.step e.1 = some (t'.loop, out.outs) := by
  unfold step at h
  split at h
  · cases h
  · exact stepNow_refines (t := { t with now := e.2 }) h hok

end TimedLoop

end MiniArena
