/-
MiniArena/BattleManager.lean

The battle manager (`game/battle_manager.cpp`): the battle workers, the
worker of each running battle, and what the message handlers ask of them.

A function that puts operations on a worker's queue returns them, each with
the number of the worker.
-/
import MiniArena.LogicWorker
import MiniArena.Room
import MiniArena.SessionManager

namespace MiniArena

variable {F : Type} [FloatOps F] {σ : Type} [Storage σ]

namespace LogicWorker

def enqueue (w : LogicWorker F) (op : PendingOp F) : LogicWorker F :=
  { w with pendingOps := w.pendingOps ++ [op] }

def drainPendingOps (w : LogicWorker F) (now : ℤ) : LogicWorker F :=
  w.pendingOps.foldl (fun w op => w.applyOp now op) { w with pendingOps := [] }

end LogicWorker

structure BattleManager (F : Type) where
  workers : List (LogicWorker F)
  roomToWorker : Finmap fun _ : RoomId => ℕ := ∅
  /-- The workers whose thread is started (`flags`). -/
  started : Finset ℕ := ∅

/-- An operation put on the queue of a worker. -/
structure Enqueued (F : Type) where
  worker : ℕ
  op : PendingOp F

/-- The messages at the end of a battle. -/
inductive EndNotify
  | battleEnd (roomId : RoomId) (durationSec : ℤ)
  | settlement (playerId : PlayerId) (kills deaths damageDealt damageTaken rank : ℤ)
  deriving DecidableEq, Repr

namespace BattleManager

/-- The manager as `initBusiness` sets it up, with the send callback. -/
def create (logicThreads : ℕ) : BattleManager F where
  workers := List.replicate logicThreads { bc := Broadcaster.setSendCallback {} }

def assignWorker (b : BattleManager F) (r : RoomId) : ℕ := r % b.workers.length

def push (b : BattleManager F) (i : ℕ) (op : PendingOp F) : BattleManager F :=
  { b with workers := b.workers.modify i fun w => w.enqueue op }

/-! ### Starting a battle -/

/-- The battle player made of a member of the room, `size` being those made before. -/
def spawn (pid : PlayerId) (info : RoomPlayerInfo) (size : ℕ) : BattlePlayer F :=
  { BattlePlayer.default with
    id := pid
    username := info.username
    posX := FloatOps.mul (FloatOps.ofRat size) (FloatOps.ofRat 50) }

/-- `order` is the order in which the loop visits the members. -/
def battlePlayers (room : Room) (order : List PlayerId) : Players F :=
  order.foldl
    (fun bps pid =>
      match room.players.lookup pid with
      | none => bps
      | some info => bps.insert pid (spawn pid info bps.keys.card)) ∅

/-- The loop over the workers: one without rooms applies its queue here, one
with rooms gets its thread. -/
def wake (b : BattleManager F) (now : ℤ) : BattleManager F :=
  let workers := b.workers.map fun w => if w.roomCount = 0 then w.drainPendingOps now else w
  { b with
    workers := workers
    started := b.started ∪ (Finset.range workers.length).filter fun i =>
      1 ≤ ((workers[i]?).map LogicWorker.roomCount).getD 0 }

/-- `setState(.., IN_BATTLE)` of a member, if it has a session. -/
def enterBattle (m : SessionManager σ) (pid : PlayerId) : SessionManager σ :=
  match m.getByPlayer pid with
  | none => m
  | some s => m.setState s.sessionId .inBattle

def startBattle (b : BattleManager F) (room : Room) (m : SessionManager σ) (order : List PlayerId)
    (now : ℤ) : BattleManager F × SessionManager σ × List (Enqueued F) :=
  let i := b.assignWorker room.roomId
  let op := PendingOp.addRoom room.roomId (battlePlayers room order)
  let b := b.push i op
  (({ b with roomToWorker := b.roomToWorker.insert room.roomId i } : BattleManager F).wake now,
    order.foldl enterBattle m, [⟨i, op⟩])

/-! ### While it runs -/

def dispatchCommand (b : BattleManager F) (r : RoomId) (cmd : Command F) : BattleManager F :=
  match b.roomToWorker.lookup r with
  | none => b
  | some i =>
      { b with workers := b.workers.modify i fun w => { w with cmdQueue := w.cmdQueue ++ [cmd] } }

def onPlayerDisconnect (b : BattleManager F) (pid : PlayerId) (r : RoomId) :
    BattleManager F × List (Enqueued F) :=
  match b.roomToWorker.lookup r with
  | none => (b, [])
  | some i => (b.push i (.markDisconnected r pid), [⟨i, .markDisconnected r pid⟩])

/-- The snapshot `sendSnapshot` sends, if there is one. -/
def snapshot (b : BattleManager F) (r : RoomId) (order : List PlayerId) :
    Option (BattlePayload F) :=
  (b.roomToWorker.lookup r).bind fun i => (b.workers[i]?).bind fun w => w.getSnapshot r order

/-! ### Ending it -/

/-- What `endBattle` does for one member, `mysql` being there. -/
def leaveBattle (r : RoomId) (m : SessionManager σ) (pid : PlayerId) : SessionManager σ :=
  let m := match m.getByPlayer pid with
    | none => m
    | some s => (m.setState s.sessionId .inLobby).setCurrentRoom s.sessionId 0
  { m with store := Storage.saveBattleResult pid r 0 0 0 0 1 m.store }

/-- Nothing in the server calls it yet.  `order` is the order in which the
loop visits the members. -/
def endBattle (b : BattleManager F) (r : RoomId) (rooms : RoomManager) (m : SessionManager σ)
    (order : List PlayerId) :
    BattleManager F × RoomManager × SessionManager σ × List (Send EndNotify) × List (Enqueued F) :=
  match b.roomToWorker.lookup r, rooms.getRoom r with
  | some i, some room =>
      let b := b.push i (.removeRoom r)
      ({ b with roomToWorker := b.roomToWorker.erase r },
        rooms.update r room.endBattle,
        order.foldl (leaveBattle r) m,
        order.flatMap fun pid =>
          [⟨pid, 6001, .battleEnd r 60⟩, ⟨pid, 6002, .settlement pid 0 0 0 0 1⟩],
        [⟨i, .removeRoom r⟩])
  | _, _ => (b, rooms, m, [], [])

end BattleManager

end MiniArena
