/-
MiniArena/GameServer.lean

The game server (`game/game_server.cpp`, `game/match_manager.cpp`): the
message handlers, the disconnect callback, the timer thread with its
matchmaker, and the battle workers, as one transition system.

A handler, and the disconnect callback, is one step; what the threads of the
event loops could do to each other inside a handler is left out.  The timer
thread goes step by step: `tryMatch` looks at the queue, then fills a new
room by one player a step, and messages may come in between.  A worker's
thread steps as in `LogicWorker`.

`Protobuf` is the generated code: what the requests in a payload say.  A
reply is what is serialised.  A step answers `none` where it cannot happen,
and where the source throws or follows a null pointer.
-/
import MiniArena.BattleManager
import MiniArena.SessionMaps

namespace MiniArena

variable {F : Type} [FloatOps F] {σ : Type} [Storage σ]

/-- `ParseFromString`, `none` where it fails.  Two handlers do not look at
its answer and go on with the fields as they are then. -/
structure Protobuf (F : Type) where
  /-- Username and password. -/
  loginRequest : List UInt8 → Option (String × String)
  /-- The mode. -/
  matchStartRequest : List UInt8 → ℤ
  enterRoomRequest : List UInt8 → RoomId
  playerMoveRequest : List UInt8 → Option (F × F)
  playerAttackRequest : List UInt8 → Option PlayerId
  /-- The skill and the target. -/
  playerSkillRequest : List UInt8 → Option (ℤ × PlayerId)
  reconnectRequest : List UInt8 → Option SessionId

/-- The messages the server sends. -/
inductive Reply (F : Type)
  | loginResponse (errorCode : ℤ) (sessionId : SessionId) (errorMsg : String)
  | heartbeatResponse (serverTimeMs : ℤ)
  | matchStartResponse (errorCode : ℤ) (errorMsg : String)
  | matchSuccessNotify (roomId : RoomId) (serverAddr : String)
  | enterRoomResponse (errorCode : ℤ) (errorMsg : String) (roomId : RoomId)
  | battleStartNotify (roomId : RoomId) (countdownMs : ℤ)
  | reconnectResponse (errorCode : ℤ) (errorMsg : String)
  | battle (payload : BattlePayload F)

/-- A `sendToConnection` of the event loop with number `loop`. -/
structure Sent (F : Type) where
  loop : ℕ
  connId : ConnectionId
  msgId : UInt32
  reply : Reply F

structure ServerOut (F : Type) where
  sends : List (Sent F) := []
  /-- What a worker sends in a step, in whatever order. -/
  broadcasts : Multiset (Sent F) := 0
  ops : List (Enqueued F) := []

/-- The readings of the clock, the generated session id and the iteration
order a handler may need. -/
structure Env where
  now : ℤ
  /-- The second reading. -/
  later : ℤ
  sid : SessionId
  order : List PlayerId
  deriving DecidableEq, Repr

inductive Handler
  | login
  | heartbeat
  | matchStart
  | matchCancel
  | enterRoom
  | playerReady
  | playerMove
  | playerAttack
  | playerSkill
  | reconnect
  deriving DecidableEq, Repr

/-- `registerHandlers`. -/
def handlers : List (UInt32 × Handler) :=
  [(1001, .login), (1101, .heartbeat), (2001, .matchStart), (2003, .matchCancel),
    (3001, .enterRoom), (3003, .playerReady), (4001, .playerMove), (4002, .playerAttack),
    (4003, .playerSkill), (5001, .reconnect)]

/-- Where the timer thread is. -/
inductive TimerPhase
  | sleeping
  /-- In `tryMatch`, with so many rooms formed. -/
  | checking (formed : ℕ)
  /-- In the loop that fills `room`, before its round `i`. -/
  | filling (formed : ℕ) (room : RoomId) (i : ℕ)
  /-- `tryMatch` is done. -/
  | cleaning
  deriving DecidableEq, Repr

structure GameServer (σ F : Type) where
  sessions : SessionManager σ
  rooms : RoomManager := {}
  battle : BattleManager F
  roomSize : ℤ
  connToLoop : Finmap fun _ : ConnectionId => ℕ := ∅
  timer : TimerPhase := .sleeping

inductive ServerEvent (F : Type)
  /-- A frame handed to the frame callback of an event loop. -/
  | frame (loop : ℕ) (connId : ConnectionId) (frame : Frame) (env : Env)
  | disconnect (connId : ConnectionId) (now : ℤ)
  | timerWakes
  /-- The next step of `tryMatch`. -/
  | tryMatch
  | cleanupExpired (now : ℤ) (order : List SessionId)
  | worker (i : ℕ) (event : WorkerEvent F)

namespace GameServer

/-- The server after `initBusiness`, with two logic threads. -/
def init (store : σ) (roomSize : ℤ) : GameServer σ F where
  sessions := { store := store, hasSendCb := true }
  battle := BattleManager.create 2
  roomSize := roomSize

/-! ### Sending -/

/-- Nothing is sent to a connection without an event loop. -/
def sendResponse (g : GameServer σ F) (connId : ConnectionId) (msgId : UInt32) (reply : Reply F) :
    List (Sent F) :=
  match g.connToLoop.lookup connId with
  | none => []
  | some loop => [⟨loop, connId, msgId, reply⟩]

/-- The match notify callback and the battle send callback. -/
def sendToPlayer (g : GameServer σ F) (pid : PlayerId) (msgId : UInt32) (reply : Reply F) :
    List (Sent F) :=
  match g.sessions.getByPlayer pid with
  | none => []
  | some s => g.sendResponse s.connId msgId reply

/-! ### Matchmaking -/

/-- `none` where the player has no session. -/
def joinQueue (m : SessionManager σ) (pid : PlayerId) (mode : ℤ) :
    Option (SessionManager σ × ℤ) :=
  let m := { m with store := RedisClient.pushMatchQueue mode pid m.store }
  (m.getByPlayer pid).bind fun s =>
    let m := m.setState s.sessionId .matching
    (m.getByPlayer pid).map fun s => (m.setMatchMode s.sessionId mode, 0)

/-- The player stays in the queue. -/
def leaveQueue (m : SessionManager σ) (pid : PlayerId) : SessionManager σ :=
  match m.getByPlayer pid with
  | none => m
  | some s => (m.setState s.sessionId .inLobby).setMatchMode s.sessionId 0

/-- The head of the outer loop of `tryMatch(0)`. -/
def checkQueue (g : GameServer σ F) (formed : ℕ) : GameServer σ F :=
  let (count, st) := RedisClient.matchQueueSize 0 g.sessions.store
  let g := { g with sessions := { g.sessions with store := st } }
  if count < g.roomSize then { g with timer := .cleaning }
  else
    let (rooms, r) := g.rooms.createRoom g.roomSize
    { g with rooms := rooms, timer := .filling formed r 0 }

/-- The player `pid` is taken from the queue and has the session `s`.  Nobody
looks at what `addPlayer` answers. -/
def seat (g : GameServer σ F) (r : RoomId) (room : Room) (pid : PlayerId) (s : Session) :
    GameServer σ F :=
  { g with
    rooms := g.rooms.update r (room.addPlayer pid s.username).1
    sessions := (g.sessions.setState s.sessionId .inRoom).setCurrentRoom s.sessionId r }

/-- Round `i` of the loop that fills the room `r`. -/
def fillRoom (g : GameServer σ F) (formed : ℕ) (r : RoomId) (i : ℕ) :
    Option (GameServer σ F × ServerOut F) :=
  if (i : ℤ) < g.roomSize then
    (RedisClient.popMatchQueue 0 g.sessions.store).bind fun (popped, st) =>
      let g := { g with sessions := { g.sessions with store := st } }
      match popped with
      | none => some ({ g with timer := .checking (formed + 1) }, {})
      | some pid =>
          let g := { g with timer := .filling formed r (i + 1) }
          match g.sessions.getByPlayer pid with
          | none => some (g, {})
          | some s =>
              (g.rooms.getRoom r).map fun room =>
                let g := g.seat r room pid s
                (g, { sends := g.sendToPlayer pid 2004 (.matchSuccessNotify r "127.0.0.1:9000") })
  else some ({ g with timer := .checking (formed + 1) }, {})

def tryMatch (g : GameServer σ F) : Option (GameServer σ F × ServerOut F) :=
  match g.timer with
  | .checking formed => some (g.checkQueue formed, {})
  | .filling formed r i => g.fillRoom formed r i
  | _ => none

/-! ### Handlers -/

variable (pb : Protobuf F)

/-- 1001 -/
def login (g : GameServer σ F) (connId : ConnectionId) (frame : Frame) (env : Env) :
    Option (GameServer σ F × ServerOut F) :=
  match pb.loginRequest frame.payload with
  | none => some (g, {})
  | some (username, password) =>
      (g.sessions.login connId username password env.sid env.now).map fun (m, result, kicks) =>
        let kicked := kicks.flatMap fun k =>
          g.sendResponse k.connId k.msgId (.loginResponse k.errorCode 0 k.errorMsg)
        ({ g with
            sessions :=
              if result.errorCode = 0 then m.setState result.sessionId .inLobby else m },
          { sends := kicked ++ g.sendResponse connId 1002
              (.loginResponse result.errorCode result.sessionId result.errorMsg) })

/-- 1101 -/
def heartbeat (g : GameServer σ F) (connId : ConnectionId) (env : Env) :
    GameServer σ F × ServerOut F :=
  match g.sessions.getByConn connId with
  | none => (g, {})
  | some s =>
      ({ g with sessions := g.sessions.heartbeat s.sessionId env.now },
        { sends := g.sendResponse connId 1102 (.heartbeatResponse (env.later.tdiv 1000000)) })

/-- 2001 -/
def matchStart (g : GameServer σ F) (connId : ConnectionId) (frame : Frame) :
    Option (GameServer σ F × ServerOut F) :=
  match g.sessions.getByConn connId with
  | none =>
      some (g, { sends := g.sendResponse connId 2002 (.matchStartResponse 20002 "Not logged in") })
  | some s =>
      (joinQueue g.sessions s.playerId (pb.matchStartRequest frame.payload)).map fun (m, err) =>
        ({ g with sessions := m },
          { sends := g.sendResponse connId 2002 (.matchStartResponse err "") })

/-- 2003 -/
def matchCancel (g : GameServer σ F) (connId : ConnectionId) : GameServer σ F :=
  match g.sessions.getByConn connId with
  | none => g
  | some s => { g with sessions := leaveQueue g.sessions s.playerId }

/-- 3001 -/
def enterRoom (g : GameServer σ F) (connId : ConnectionId) (frame : Frame) :
    GameServer σ F × ServerOut F :=
  let respond errorCode errorMsg r : ServerOut F :=
    { sends := g.sendResponse connId 3002 (.enterRoomResponse errorCode errorMsg r) }
  match g.sessions.getByConn connId with
  | none => (g, respond 20002 "Not logged in" 0)
  | some s =>
      let r := pb.enterRoomRequest frame.payload
      match g.rooms.getRoom r with
      | none => (g, respond 40001 "Room not found" 0)
      | some room =>
          let added := room.addPlayer s.playerId s.username
          let g := { g with rooms := g.rooms.update r added.1 }
          if added.2 = 0 then
            ({ g with sessions := g.sessions.setCurrentRoom s.sessionId r }, respond 0 "" r)
          else (g, respond added.2 "" 0)

/-- What 3003 does once everybody in `room`, the room `r`, is ready. -/
def startBattle (g : GameServer σ F) (r : RoomId) (room : Room) (env : Env) :
    GameServer σ F × ServerOut F :=
  let room := room.startBattle
  let (battle, m, ops) := g.battle.startBattle room g.sessions env.order env.now
  let g := { g with rooms := g.rooms.update r room, battle := battle, sessions := m }
  (g,
    { sends := env.order.flatMap fun pid =>
        g.sendToPlayer pid 3004 (.battleStartNotify room.roomId 0)
      ops := ops })

/-- The room of the session on `connId`. -/
def currentRoom (g : GameServer σ F) (connId : ConnectionId) : Option (Session × Room) :=
  (g.sessions.getByConn connId).bind fun s =>
    if s.currentRoom = 0 then none
    else (g.rooms.getRoom s.currentRoom).map fun room => (s, room)

/-- 3003 -/
def playerReady (g : GameServer σ F) (connId : ConnectionId) (env : Env) :
    Option (GameServer σ F × ServerOut F) :=
  match g.currentRoom connId with
  | none => some (g, {})
  | some (s, room) =>
      let room := room.playerReady s.playerId
      if room.allReady then
        if (env.order : Multiset PlayerId) = room.players.keys.val then
          some (g.startBattle s.currentRoom room env)
        else none
      else some ({ g with rooms := g.rooms.update s.currentRoom room }, {})

/-- The common part of 4001, 4002 and 4003; `request` fills in the command. -/
def command (g : GameServer σ F) (connId : ConnectionId) (frame : Frame)
    (request : Option (Command F → Command F)) : GameServer σ F :=
  match g.sessions.getByConn connId, request with
  | some s, some fill =>
      if s.state = .inBattle then
        { g with
          battle := g.battle.dispatchCommand s.currentRoom (fill
            { type := .move
              playerId := s.playerId
              sequence := frame.sequence
              moveDirX := FloatOps.ofRat 0
              moveDirY := FloatOps.ofRat 0
              targetId := 0
              skillId := 0 }) }
      else g
  | _, _ => g

/-- 4001 -/
def playerMove (g : GameServer σ F) (connId : ConnectionId) (frame : Frame) : GameServer σ F :=
  g.command connId frame ((pb.playerMoveRequest frame.payload).map fun dir cmd =>
    { cmd with type := .move, moveDirX := dir.1, moveDirY := dir.2 })

/-- 4002 -/
def playerAttack (g : GameServer σ F) (connId : ConnectionId) (frame : Frame) : GameServer σ F :=
  g.command connId frame ((pb.playerAttackRequest frame.payload).map fun target cmd =>
    { cmd with type := .attack, targetId := target })

/-- 4003 -/
def playerSkill (g : GameServer σ F) (connId : ConnectionId) (frame : Frame) : GameServer σ F :=
  g.command connId frame ((pb.playerSkillRequest frame.payload).map fun req cmd =>
    { cmd with type := .skill, skillId := req.1, targetId := req.2 })

/-- `sendSnapshot` for the session `s`; `order` is that of the room's players. -/
def sendSnapshot (g : GameServer σ F) (s : Session) (order : List PlayerId) : List (Sent F) :=
  match g.battle.snapshot s.currentRoom order with
  | none => []
  | some payload => g.sendToPlayer s.playerId 5003 (.battle payload)

/-- 5001 -/
def reconnect (g : GameServer σ F) (connId : ConnectionId) (frame : Frame) (env : Env) :
    GameServer σ F × ServerOut F :=
  match pb.reconnectRequest frame.payload with
  | none => (g, {})
  | some sid =>
      let (m, result) := g.sessions.tryReconnect sid connId env.now env.later
      let g := { g with sessions := m }
      let response := g.sendResponse connId 5002
        (.reconnectResponse result.errorCode result.errorMsg)
      let restore :=
        match g.sessions.getBySession result.sessionId with
        | none => []
        | some s =>
            if result.errorCode = 0 ∧ s.state = .inBattle ∧ 0 < s.currentRoom then
              g.sendSnapshot s env.order
            else []
      (g, { sends := response ++ restore })

/-- `MessageRouter::dispatch`. -/
def dispatch (g : GameServer σ F) (connId : ConnectionId) (frame : Frame) (env : Env) :
    Option (GameServer σ F × ServerOut F) :=
  match handlers.lookup frame.messageId with
  | none => some (g, {})
  | some .login => g.login pb connId frame env
  | some .heartbeat => some (g.heartbeat connId env)
  | some .matchStart => g.matchStart pb connId frame
  | some .matchCancel => some (g.matchCancel connId, {})
  | some .enterRoom => some (g.enterRoom pb connId frame)
  | some .playerReady => g.playerReady connId env
  | some .playerMove => some (g.playerMove pb connId frame, {})
  | some .playerAttack => some (g.playerAttack pb connId frame, {})
  | some .playerSkill => some (g.playerSkill pb connId frame, {})
  | some .reconnect => some (g.reconnect pb connId frame env)

/-! ### Steps -/

/-- The disconnect callback.  `s` points into the table of sessions, so its
state is read after `markDisconnected` has changed it. -/
def onDisconnect (g : GameServer σ F) (connId : ConnectionId) (now : ℤ) :
    GameServer σ F × ServerOut F :=
  let g := { g with connToLoop := g.connToLoop.erase connId }
  match g.sessions.getByConn connId with
  | none => (g, {})
  | some _ =>
      let g := { g with sessions := g.sessions.markDisconnected connId now }
      match g.sessions.getByConn connId with
      | none => (g, {})
      | some s =>
          if s.state = .inBattle ∧ 0 < s.currentRoom then
            let r := g.battle.onPlayerDisconnect s.playerId s.currentRoom
            ({ g with battle := r.1 }, { ops := r.2 })
          else (g, {})

/-- What the thread of a worker does by itself. -/
def ofThread : WorkerEvent F → Bool
  | .drainPendingOp _ => true
  | .tickBegin _ => true
  | .tickRoom _ => true
  | .broadcast => true
  | .checkDisconnected _ => true
  | _ => false

/-- The send callback, for a call a worker makes. -/
def relay (g : GameServer σ F) (s : Send (BattlePayload F)) : List (Sent F) :=
  g.sendToPlayer s.playerId s.msgId (.battle s.payload)

/-- A step of a worker whose thread is started. -/
def workerStep (g : GameServer σ F) (i : ℕ) (event : WorkerEvent F) :
    Option (GameServer σ F × ServerOut F) :=
  if i ∈ g.battle.started ∧ ofThread event = true then
    (g.battle.workers[i]?).bind fun w => (w.step event).map fun (w', out) =>
      ({ g with battle := { g.battle with workers := g.battle.workers.set i w' } },
        { sends := out.toRoom.flatMap g.relay
          broadcasts := (out.toAoi + out.overrides).bind fun s => g.relay s })
  else none

def step (g : GameServer σ F) : ServerEvent F → Option (GameServer σ F × ServerOut F)
  | .frame loop connId frame env =>
      dispatch pb { g with connToLoop := g.connToLoop.insert connId loop } connId frame env
  | .disconnect connId now => some (g.onDisconnect connId now)
  | .timerWakes =>
      match g.timer with
      | .sleeping => some ({ g with timer := .checking 0 }, {})
      | _ => none
  | .tryMatch => g.tryMatch
  | .cleanupExpired now order =>
      match g.timer with
      | .cleaning =>
          if (order : Multiset SessionId) = g.sessions.sessions.keys.val then
            some ({ g with
              sessions := g.sessions.cleanupExpired now order, timer := .sleeping }, {})
          else none
      | _ => none
  | .worker i event => g.workerStep i event

/-- The session id a login gets is not in use. -/
def fresh (g : GameServer σ F) : ServerEvent F → Bool
  | .frame _ connId frame env =>
      match handlers.lookup frame.messageId, pb.loginRequest frame.payload with
      | some .login, some (username, password) =>
          SessionManager.freshId g.sessions (.login connId username password env.sid env.now)
      | _, _ => true
  | _ => true

/-- The step relation; a label is an event with what it sends. -/
def Steps (g : GameServer σ F) (e : ServerEvent F × ServerOut F) (g' : GameServer σ F) : Prop :=
  step pb g e.1 = some (g', e.2) ∧ fresh pb g e.1 = true

end GameServer

end MiniArena
