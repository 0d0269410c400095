/-
MiniArena/EventLoop.lean

The event loop (`network/event_loop.cpp`) as a state machine.

The state holds the registered connections, the map from descriptors to
connection ids and the two queues other threads fill.  A step is one of the
things that happen to the loop: a call from another thread, one iteration
of a drain loop (the queue's mutex is released between two), one epoll event
with the kernel's answers to the read and the write it causes, a pass of
`checkTimeouts`, or a pass of `cleanupClosed`.

Which heartbeat timers are due in a pass is decided by the timer wheel; here
a pass carries the ids whose callback runs, and any list is allowed.  The
order in which a pass visits an `unordered_map` is part of the step too.
-/
import MiniArena.Connection
import MiniArena.FiniteMap
import MiniArena.Transition

namespace MiniArena

structure EventLoop where
  conns : Finmap fun _ : ConnectionId => Connection := ∅
  fdToId : Finmap fun _ : Fd => ConnectionId := ∅
  pendingConns : List Connection := []
  pendingWrites : List (ConnectionId × List UInt8) := []

/-- What the loop hands to its two callbacks. -/
inductive LoopOut
  | frames (id : ConnectionId) (fs : List Frame)
  | disconnect (id : ConnectionId)
  deriving DecidableEq, Repr

inductive LoopEvent
  | addConnection (c : Connection)
  | sendToConnection (id : ConnectionId) (data : List UInt8)
  /-- `registered` is the outcome of `EPOLL_CTL_ADD`. -/
  | drainPending (registered : Bool)
  | drainPendingWrites
  | epoll (fd : Fd) (readable writable : Bool) (r : ReadResult) (w : WriteResult)
      (nowMs : UInt64)
  | closeConnection (id : ConnectionId)
  | checkTimeouts (nowMs timeoutMs : UInt64) (order : List ConnectionId)
  /-- `due` are the ids whose heartbeat callback `tick()` runs. -/
  | cleanupClosed (due order : List ConnectionId)
  deriving DecidableEq, Repr

namespace EventLoop

/-! ### The operations -/

def closeConnection (l : EventLoop) (id : ConnectionId) : EventLoop :=
  { l with conns := l.conns.modify id Connection.close }

def addConnectionImpl (l : EventLoop) (c : Connection) (registered : Bool) : EventLoop :=
  if registered then
    { l with fdToId := l.fdToId.insert c.fd c.id, conns := l.conns.insert c.id c }
  else l  -- the connection is closed and destroyed

/-- One iteration of the loop of `drainPending`. -/
def drainPending (l : EventLoop) (registered : Bool) : EventLoop :=
  match l.pendingConns with
  | [] => l
  | c :: cs => { l with pendingConns := cs }.addConnectionImpl c registered

/-- One iteration of the loop of `drainPendingWrites`. -/
def drainPendingWrites (l : EventLoop) : Option EventLoop :=
  match l.pendingWrites with
  | [] => some l
  | (id, data) :: ws =>
      let l := { l with pendingWrites := ws }
      match l.conns.lookup id with
      | none => some l
      | some c => (c.sendRaw data).map fun c => { l with conns := l.conns.insert id c }

/-- The readable half of `handleEvents`, for the connection `c` found under `id`. -/
def handleReadable (l : EventLoop) (id : ConnectionId) (c : Connection) (r : ReadResult)
    (nowMs : UInt64) : Option (EventLoop × List LoopOut) :=
  (c.onReadable r nowMs).map fun (c, fs) =>
    let l := { l with conns := l.conns.insert id c }
    if c.state = .closing then (l.closeConnection id, [])
    else if fs ≠ [] then (l, [.frames id fs])
    else (l, [])

/-- The writable half of `handleEvents`. -/
def handleWritable (l : EventLoop) (id : ConnectionId) (w : WriteResult) : EventLoop :=
  { l with conns := l.conns.modify id fun c => c.onWritable w }

/-- One entry of the array `handleEvents` walks through. -/
def handleEvent (l : EventLoop) (fd : Fd) (readable writable : Bool) (r : ReadResult)
    (w : WriteResult) (nowMs : UInt64) : Option (EventLoop × List LoopOut) :=
  match l.fdToId.lookup fd with
  | none => some (l, [])
  | some id =>
      match l.conns.lookup id with
      | none => some (l, [])
      | some c =>
          (if readable then l.handleReadable id c r nowMs else some (l, [])).map fun (l, outs) =>
            (if writable then l.handleWritable id w else l, outs)

/-- The body of the loop of `checkTimeouts`. -/
def checkTimeout (nowMs timeoutMs : UInt64) (l : EventLoop) (id : ConnectionId) : EventLoop :=
  match l.conns.lookup id with
  | none => l
  | some c =>
      if c.state = .active ∨ c.state = .connected then
        if c.isTimeout nowMs timeoutMs then l.closeConnection c.id else l
      else l

/-- The body of the loop of `cleanupClosed`. -/
def cleanup (p : EventLoop × List LoopOut) (id : ConnectionId) : EventLoop × List LoopOut :=
  match p.1.conns.lookup id with
  | none => p
  | some c =>
      if c.shouldCleanup then
        ({ p.1 with fdToId := p.1.fdToId.erase c.fd, conns := p.1.conns.erase id },
          p.2 ++ [.disconnect c.id])
      else p

/-- `cleanupClosed`: the heartbeat callbacks, then the removals. -/
def cleanupClosed (l : EventLoop) (due order : List ConnectionId) : EventLoop × List LoopOut :=
  order.foldl cleanup (due.foldl closeConnection l, [])

/-- One step of the loop: the next state and the callback invocations. -/
def step (l : EventLoop) : LoopEvent → Option (EventLoop × List LoopOut)
  | .addConnection c => some ({ l with pendingConns := l.pendingConns ++ [c] }, [])
  | .sendToConnection id data =>
      some ({ l with pendingWrites := l.pendingWrites ++ [(id, data)] }, [])
  | .drainPending registered => some (l.drainPending registered, [])
  | .drainPendingWrites => l.drainPendingWrites.map fun l => (l, [])
  | .epoll fd readable writable r w nowMs => l.handleEvent fd readable writable r w nowMs
  | .closeConnection id => some (l.closeConnection id, [])
  | .checkTimeouts nowMs timeoutMs order =>
      some (order.foldl (checkTimeout nowMs timeoutMs) l, [])
  | .cleanupClosed due order => some (l.cleanupClosed due order)

/-- The step relation; a label is an event with the callbacks it causes. -/
def Steps (l : EventLoop) (e : LoopEvent × List LoopOut) (l' : EventLoop) : Prop :=
  l.step e.1 = some (l', e.2)

/-! ### The three cases of `drainPending` -/

theorem drainPending_nil {l : EventLoop} (hq : l.pendingConns = []) (ok : Bool) :
    l.drainPending ok = l := by
  rw [drainPending, hq]

theorem drainPending_false {l : EventLoop} {c : Connection} {cs : List Connection}
    (hq : l.pendingConns = c :: cs) : l.drainPending false = { l with pendingConns := cs } := by
  rw [drainPending, hq]
  rfl

theorem drainPending_true {l : EventLoop} {c : Connection} {cs : List Connection}
    (hq : l.pendingConns = c :: cs) :
    l.drainPending true = { l with
      pendingConns := cs
      fdToId := l.fdToId.insert c.fd c.id
      conns := l.conns.insert c.id c } := by
  rw [drainPending, hq]
  rfl

end EventLoop

end MiniArena
