/-
MiniArena/LogicWorker.lean

A battle worker (`game/logic_worker.cpp`): the rooms it owns, the queue of
room operations, the command queue, and one engine, one grid and one
broadcaster for all its rooms.

`tick()` holds `rooms_mtx_` except while it broadcasts, so one room of a
tick is three steps here: `tickRoom` (`processTick` and the notify),
`broadcast` (without the lock), `checkDisconnected` (with it again).  Other
threads enqueue at any time.  Operations are applied between ticks only: the
worker's own thread drains before it ticks, and `BattleManager::startBattle`
drains from elsewhere only a worker without rooms, whose `tick` has no room
to be in the middle of.

`unordered_map` iteration orders are part of the steps.  Times are
nanoseconds of the steady clock.
-/
import MiniArena.TickEngine
import MiniArena.Transition

namespace MiniArena

variable {F : Type} [FloatOps F]

structure WorkerRoom (F : Type) where
  players : Players F
  disconnected : Finmap fun _ : PlayerId => ℤ := ∅

inductive PendingOp (F : Type)
  | addRoom (roomId : RoomId) (players : Players F)
  | removeRoom (roomId : RoomId)
  | markDisconnected (roomId : RoomId) (playerId : PlayerId)

/-- Where the worker's thread is in `tick()`; `left` are the rooms still to come. -/
inductive Phase (F : Type)
  | idle
  | ticking (cmds : List (Command F)) (left : List RoomId)
  /-- The notify of `room` is built, the lock is released. -/
  | sending (cmds : List (Command F)) (left : List RoomId) (room : RoomId)
      (state : BattlePayload F)
  | checking (cmds : List (Command F)) (left : List RoomId) (room : RoomId)

structure LogicWorker (F : Type) where
  pendingOps : List (PendingOp F) := []
  cmdQueue : List (Command F) := []
  rooms : Finmap fun _ : RoomId => WorkerRoom F := ∅
  tickEngine : TickEngine := {}
  aoi : AoiGrid := {}
  bc : Broadcaster (BattlePayload F) := {}
  phase : Phase F := .idle

inductive WorkerEvent (F : Type)
  | setSendCallback
  | addRoom (roomId : RoomId) (players : Players F)
  | removeRoom (roomId : RoomId)
  | markDisconnected (playerId : PlayerId) (roomId : RoomId)
  | pushCommand (cmd : Command F)
  /-- One iteration of the loop of `drainPendingOps`. -/
  | drainPendingOp (now : ℤ)
  | tickBegin (order : List RoomId)
  | tickRoom (order : List PlayerId)
  | broadcast
  | checkDisconnected (now : ℤ)

/-- What one step hands to the send callback, by the way it gets there. -/
structure WorkerOut (F : Type) where
  toRoom : List (Send (BattlePayload F)) := []
  toAoi : Multiset (Send (BattlePayload F)) := 0
  overrides : Multiset (Send (BattlePayload F)) := 0

namespace LogicWorker

/-! ### Room operations -/

/-- The `switch` of `drainPendingOps`. -/
def applyOp (w : LogicWorker F) (now : ℤ) : PendingOp F → LogicWorker F
  | .addRoom r players => { w with rooms := w.rooms.insert r { players := players } }
  | .removeRoom r => { w with rooms := w.rooms.erase r }
  | .markDisconnected r p =>
      { w with rooms := w.rooms.modify r fun rs =>
          { rs with disconnected := rs.disconnected.insert p now } }

def drainPendingOp (w : LogicWorker F) (now : ℤ) : LogicWorker F :=
  match w.pendingOps with
  | [] => w
  | op :: ops => { w with pendingOps := ops }.applyOp now op

/-! ### One room of a tick -/

/-- The phase in which the next room of a tick is taken. -/
def nextRoom (cmds : List (Command F)) : List RoomId → Phase F
  | [] => .idle
  | left => .ticking cmds left

/-- `processTick` on the room `r`, and the notify of its players. -/
def tickRoom (w : LogicWorker F) (cmds : List (Command F)) (left : List RoomId) (r : RoomId)
    (rs : WorkerRoom F) (order : List PlayerId) : LogicWorker F × WorkerOut F :=
  let result := w.tickEngine.processTick rs.players cmds w.bc w.aoi order
  let state := BattlePayload.battleStateNotify r 0
    (order.filterMap fun pid => (result.players.lookup pid).map BattlePlayer.state)
  ({ w with
      rooms := w.rooms.insert r { rs with players := result.players }
      tickEngine := result.engine
      aoi := result.aoi
      bc := result.bc
      phase := .sending cmds left r state },
    { toRoom := result.sends })

/-- `broadcastToAoi` for each player of the room, then `flushOverrides`. -/
def broadcast (w : LogicWorker F) (cmds : List (Command F)) (left : List RoomId) (r : RoomId)
    (state : BattlePayload F) (rs : WorkerRoom F) : LogicWorker F × WorkerOut F :=
  let flush := w.bc.flushOverrides
  ({ w with bc := flush.1, phase := .checking cmds left r },
    { toAoi := rs.players.keys.val.bind fun pid =>
        w.bc.broadcastToAoi (w.aoi.getNearby pid) 4004 state
      overrides := flush.2 })

/-- More than 30 whole seconds of disconnection. -/
def expired (now since : ℤ) : Bool := decide (30 < (now - since).tdiv 1000000000)

/-- The disconnect timeout of one room. -/
def checkDisconnected (rs : WorkerRoom F) (now : ℤ) : WorkerRoom F where
  players := rs.players.mapVal fun pid p =>
    match rs.disconnected.lookup pid with
    | none => p
    | some since => if expired now since then { p with alive := false, hp := 0 } else p
  disconnected := rs.disconnected.filterVal fun since => !expired now since

/-! ### Steps -/

/-- One step of the worker, where the event can happen. -/
def step (w : LogicWorker F) : WorkerEvent F → Option (LogicWorker F × WorkerOut F)
  | .setSendCallback => some ({ w with bc := w.bc.setSendCallback }, {})
  | .addRoom r players =>
      some ({ w with pendingOps := w.pendingOps ++ [.addRoom r players] }, {})
  | .removeRoom r => some ({ w with pendingOps := w.pendingOps ++ [.removeRoom r] }, {})
  | .markDisconnected p r =>
      some ({ w with pendingOps := w.pendingOps ++ [.markDisconnected r p] }, {})
  | .pushCommand cmd => some ({ w with cmdQueue := w.cmdQueue ++ [cmd] }, {})
  | .drainPendingOp now =>
      match w.phase with
      | .idle => some (w.drainPendingOp now, {})
      | _ => none
  | .tickBegin order =>
      match w.phase with
      | .idle =>
          if (order : Multiset RoomId) = w.rooms.keys.val then
            some ({ w with cmdQueue := [], phase := nextRoom w.cmdQueue order }, {})
          else none
      | _ => none
  | .tickRoom order =>
      match w.phase with
      | .ticking cmds (r :: left) =>
          match w.rooms.lookup r with
          | some rs =>
              if (order : Multiset PlayerId) = rs.players.keys.val then
                some (w.tickRoom cmds left r rs order)
              else none
          | none => none
      | _ => none
  | .broadcast =>
      match w.phase with
      | .sending cmds left r state =>
          (w.rooms.lookup r).map fun rs => w.broadcast cmds left r state rs
      | _ => none
  | .checkDisconnected now =>
      match w.phase with
      | .checking cmds left r =>
          (w.rooms.lookup r).map fun rs =>
            ({ w with
                rooms := w.rooms.insert r (checkDisconnected rs now)
                phase := nextRoom cmds left }, {})
      | _ => none

/-- The step relation; a label is an event with what it sends. -/
def Steps (w : LogicWorker F) (e : WorkerEvent F × WorkerOut F) (w' : LogicWorker F) : Prop :=
  w.step e.1 = some (w', e.2)

/-- When each event can happen, and what it does. -/
inductive StepCase (w : LogicWorker F) : WorkerEvent F → LogicWorker F → WorkerOut F → Prop
  | setSendCallback : StepCase w .setSendCallback { w with bc := w.bc.setSendCallback } {}
  | addRoom (r : RoomId) (players : Players F) : StepCase w (.addRoom r players)
      { w with pendingOps := w.pendingOps ++ [.addRoom r players] } {}
  | removeRoom (r : RoomId) : StepCase w (.removeRoom r)
      { w with pendingOps := w.pendingOps ++ [.removeRoom r] } {}
  | markDisconnected (pid : PlayerId) (r : RoomId) : StepCase w (.markDisconnected pid r)
      { w with pendingOps := w.pendingOps ++ [.markDisconnected r pid] } {}
  | pushCommand (cmd : Command F) : StepCase w (.pushCommand cmd)
      { w with cmdQueue := w.cmdQueue ++ [cmd] } {}
  | drainPendingOp (now : ℤ) (phase : w.phase = .idle) :
      StepCase w (.drainPendingOp now) (w.drainPendingOp now) {}
  | tickBegin (order : List RoomId) (phase : w.phase = .idle)
      (once : (order : Multiset RoomId) = w.rooms.keys.val) : StepCase w (.tickBegin order)
        { w with cmdQueue := [], phase := nextRoom w.cmdQueue order } {}
  | tickRoom {cmds : List (Command F)} {left : List RoomId} {r : RoomId} {rs : WorkerRoom F}
      (order : List PlayerId) (phase : w.phase = .ticking cmds (r :: left))
      (room : w.rooms.lookup r = some rs)
      (members : (order : Multiset PlayerId) = rs.players.keys.val) :
      StepCase w (.tickRoom order) (w.tickRoom cmds left r rs order).1
        (w.tickRoom cmds left r rs order).2
  | broadcast {cmds : List (Command F)} {left : List RoomId} {r : RoomId} {rs : WorkerRoom F}
      {state : BattlePayload F} (phase : w.phase = .sending cmds left r state)
      (room : w.rooms.lookup r = some rs) :
      StepCase w .broadcast (w.broadcast cmds left r state rs).1
        (w.broadcast cmds left r state rs).2
  | checkDisconnected {cmds : List (Command F)} {left : List RoomId} {r : RoomId}
      {rs : WorkerRoom F} (now : ℤ) (phase : w.phase = .checking cmds left r)
      (room : w.rooms.lookup r = some rs) : StepCase w (.checkDisconnected now)
        { w with
            rooms := w.rooms.insert r (checkDisconnected rs now)
            phase := nextRoom cmds left } {}

/-- **What a step can do.** -/
theorem step_cases {w w' : LogicWorker F} {ev : WorkerEvent F} {out : WorkerOut F}
    (h : w.step ev = some (w', out)) : StepCase w ev w' out := by
  unfold step at h
  cases ev with
  | drainPendingOp now =>
    dsimp only at h
    split at h
    · rename_i hphase
      obtain ⟨rfl, rfl⟩ := Prod.mk.injEq .. ▸ Option.some.inj h
      exact .drainPendingOp now hphase
    · cases h
  | tickBegin order =>
    dsimp only at h
    split at h
    · rename_i hphase
      obtain ⟨honce, heq⟩ := Option.ite_none_right_eq_some.mp h
      obtain ⟨rfl, rfl⟩ := Prod.mk.injEq .. ▸ Option.some.inj heq
      exact .tickBegin order hphase honce
    · cases h
  | tickRoom order =>
    dsimp only at h
    split at h
    · rename_i cmds r left hphase
      split at h
      · rename_i rs hroom
        obtain ⟨hmembers, heq⟩ := Option.ite_none_right_eq_some.mp h
        obtain ⟨rfl, rfl⟩ := Prod.mk.injEq .. ▸ Option.some.inj heq
        exact .tickRoom order hphase hroom hmembers
      · cases h
    · cases h
  | broadcast =>
    dsimp only at h
    split at h
    · rename_i cmds left r state hphase
      obtain ⟨rs, hroom, heq⟩ := Option.map_eq_some_iff.mp h
      obtain ⟨rfl, rfl⟩ := Prod.mk.injEq .. ▸ heq
      exact .broadcast hphase hroom
    · cases h
  | checkDisconnected now =>
    dsimp only at h
    split at h
    · rename_i cmds left r hphase
      obtain ⟨rs, hroom, heq⟩ := Option.map_eq_some_iff.mp h
      obtain ⟨rfl, rfl⟩ := Prod.mk.injEq .. ▸ heq
      exact .checkDisconnected now hphase hroom
    · cases h
  | setSendCallback =>
    obtain ⟨rfl, rfl⟩ := Prod.mk.injEq .. ▸ Option.some.inj h
    exact .setSendCallback
  | addRoom r players =>
    obtain ⟨rfl, rfl⟩ := Prod.mk.injEq .. ▸ Option.some.inj h
    exact .addRoom r players
  | removeRoom r =>
    obtain ⟨rfl, rfl⟩ := Prod.mk.injEq .. ▸ Option.some.inj h
    exact .removeRoom r
  | markDisconnected pid r =>
    obtain ⟨rfl, rfl⟩ := Prod.mk.injEq .. ▸ Option.some.inj h
    exact .markDisconnected pid r
  | pushCommand cmd =>
    obtain ⟨rfl, rfl⟩ := Prod.mk.injEq .. ▸ Option.some.inj h
    exact .pushCommand cmd

/-- `getSnapshot`: no text for a room the worker does not have. -/
def getSnapshot (w : LogicWorker F) (r : RoomId) (order : List PlayerId) :
    Option (BattlePayload F) :=
  (w.rooms.lookup r).map fun rs =>
    .battleSnapshotNotify r
      (order.filterMap fun pid => (rs.players.lookup pid).map BattlePlayer.state)

def roomCount (w : LogicWorker F) : ℕ := w.rooms.keys.card

end LogicWorker

end MiniArena
