/-
MiniArena/SessionManager.lean

Player sessions (`game/session_manager.cpp`): the table of sessions, the two
maps that find a session by connection and by player, and the copy of the
sessions in Redis.

An operation takes the clock reading and the generated session id it uses.
It answers `none` where the source throws (`std::stoull` on a cache entry
that is no number).  Times are nanoseconds of the steady clock.
-/
import MiniArena.Connection
import MiniArena.Storage
import MiniArena.TickEngine

namespace MiniArena

inductive SessionState
  | connected
  | authenticated
  | inLobby
  | matching
  | inRoom
  | inBattle
  | settlement
  | disconnected
  deriving DecidableEq, Repr

/-- `static_cast<int>` of the enumeration. -/
def SessionState.toInt : SessionState → ℤ
  | connected => 0
  | authenticated => 1
  | inLobby => 2
  | matching => 3
  | inRoom => 4
  | inBattle => 5
  | settlement => 6
  | disconnected => 7

structure Session where
  sessionId : SessionId
  playerId : PlayerId
  connId : ConnectionId
  state : SessionState
  username : String
  loginTime : ℤ
  lastActive : ℤ
  /-- 0 = no room. -/
  currentRoom : RoomId := 0
  /-- 0 = not matching. -/
  matchMode : ℤ := 0
  deriving DecidableEq, Repr

def Session.isOnline (s : Session) : Bool := decide (s.state ≠ .disconnected)

/-- The result of `login` and `tryReconnect`. -/
structure LoginResult where
  errorCode : ℤ := 0
  sessionId : SessionId := 0
  playerId : PlayerId := 0
  errorMsg : String := ""
  deriving DecidableEq, Repr

/-- A `LoginResponse` sent to a connection that is kicked. -/
structure Kick where
  connId : ConnectionId
  msgId : UInt32
  errorCode : ℤ
  errorMsg : String
  deriving DecidableEq, Repr

structure SessionManager (σ : Type) where
  sessions : Finmap fun _ : SessionId => Session := ∅
  connMap : Finmap fun _ : ConnectionId => SessionId := ∅
  playerMap : Finmap fun _ : PlayerId => SessionId := ∅
  hasSendCb : Bool := false
  store : σ

/-- `duration_cast<seconds>`. -/
def elapsedSeconds (now since : ℤ) : ℤ := (now - since).tdiv 1000000000

namespace SessionManager

variable {σ : Type} [Storage σ]

/-! ### Queries -/

def getBySession (m : SessionManager σ) (sessionId : SessionId) : Option Session :=
  m.sessions.lookup sessionId

def getByConn (m : SessionManager σ) (connId : ConnectionId) : Option Session :=
  (m.connMap.lookup connId).bind m.getBySession

def getByPlayer (m : SessionManager σ) (playerId : PlayerId) : Option Session :=
  (m.playerMap.lookup playerId).bind m.getBySession

/-! ### Redis copy -/

def encodeSession (s : Session) : String :=
  toString s.state.toInt ++ "|" ++ toStringU64 s.playerId ++ "|" ++ toStringU64 s.connId ++ "|"
    ++ s.username ++ "|" ++ toString s.currentRoom ++ "|" ++ toString s.matchMode

def saveToRedis (s : Session) (st : σ) : σ :=
  RedisClient.setOnline s.playerId s.sessionId (RedisClient.setSession s.sessionId (encodeSession s) st)

def removeFromRedis (m : SessionManager σ) (sessionId : SessionId) : σ :=
  RedisClient.delSession sessionId <|
    match m.sessions.lookup sessionId with
    | none => m.store
    | some s => RedisClient.delOnline s.playerId m.store

/-! ### Login and logout -/

/-- What `kickDuplicate` sends to the old connection. -/
def kickNotice (m : SessionManager σ) (connId : ConnectionId) : List Kick :=
  if m.hasSendCb then [⟨connId, 1002, 20003, "Duplicate login - kicked"⟩] else []

def kickDuplicate (m : SessionManager σ) (playerId : PlayerId) : SessionManager σ × List Kick :=
  match m.playerMap.lookup playerId with
  | none => (m, [])
  | some oldSid =>
      match m.sessions.lookup oldSid with
      | none => ({ m with playerMap := m.playerMap.erase playerId }, [])
      | some s =>
          ({ m with
              connMap := m.connMap.erase s.connId
              store := m.removeFromRedis oldSid
              sessions := m.sessions.erase oldSid
              playerMap := m.playerMap.erase playerId },
            m.kickNotice s.connId)

/-- Step 1 of `login`: the player's record, found or created. -/
def findPlayer (st : σ) (username password : String) :
    Option (Except String PlayerRecord × σ) :=
  (RedisClient.getCachedPlayer username st).map fun (cachedPid, st) =>
    -- a cached id only leads to one more query
    let (player, st) := if cachedPid.isSome then Storage.getPlayer username st else (none, st)
    match player with
    | some p => (.ok p, st)
    | none =>
        match Storage.getPlayer username st with
        | (some p, st) => (.ok p, RedisClient.cachePlayer username p.id st)
        | (none, st) =>
            let (pid, st) := Storage.createPlayer username password st
            if pid = 0 then (.error "Failed to create player", st)
            else
              match Storage.getPlayer username (RedisClient.cachePlayer username pid st) with
              | (none, st) => (.error "Player creation failed", st)
              | (some p, st) => (.ok p, st)

/-- Steps 1 and 2: the record of a player whose password is right. -/
def authenticate (st : σ) (username password : String) :
    Option (Except String PlayerRecord × σ) :=
  (findPlayer st username password).map fun (r, st) =>
    match r with
    | .ok p => if p.passwordHash ≠ password then (.error "Invalid password", st) else (.ok p, st)
    | .error e => (.error e, st)

/-- The session `login` creates. -/
def newSession (connId : ConnectionId) (player : PlayerRecord) (sid : SessionId) (now : ℤ) :
    Session where
  sessionId := sid
  playerId := player.id
  connId := connId
  state := .authenticated
  username := player.username
  loginTime := now
  lastActive := now

/-- Step 4: the new session and its entries in the maps. -/
def createSession (m : SessionManager σ) (connId : ConnectionId) (player : PlayerRecord)
    (sid : SessionId) (now : ℤ) : SessionManager σ :=
  let s := newSession connId player sid now
  { m with
    sessions := m.sessions.insert sid s
    connMap := m.connMap.insert connId sid
    playerMap := m.playerMap.insert player.id sid
    store := Storage.recordLogin player.id (saveToRedis s m.store) }

/-- `sid` is what `generateSessionId` returns. -/
def login (m : SessionManager σ) (connId : ConnectionId) (username password : String)
    (sid : SessionId) (now : ℤ) : Option (SessionManager σ × LoginResult × List Kick) :=
  (authenticate m.store username password).map fun (r, st) =>
    let m := { m with store := st }
    match r with
    | .error msg => (m, { errorCode := 20001, errorMsg := msg }, [])
    | .ok player =>
        let (m, kicks) := m.kickDuplicate player.id
        (m.createSession connId player sid now,
          { sessionId := sid, playerId := player.id }, kicks)

/-- Remove the session `s` found under `sid` from all maps. -/
def dropSession (m : SessionManager σ) (sid : SessionId) (s : Session) : SessionManager σ :=
  { m with
    connMap := m.connMap.erase s.connId
    playerMap := m.playerMap.erase s.playerId
    store := m.removeFromRedis sid
    sessions := m.sessions.erase sid }

def logout (m : SessionManager σ) (sid : SessionId) : SessionManager σ :=
  match m.sessions.lookup sid with
  | none => m
  | some s => m.dropSession sid s

/-! ### Changes of one session -/

/-- Write the changed session back, and to Redis. -/
def save (m : SessionManager σ) (sid : SessionId) (s : Session) : SessionManager σ :=
  { m with sessions := m.sessions.insert sid s, store := saveToRedis s m.store }

def heartbeat (m : SessionManager σ) (sid : SessionId) (now : ℤ) : SessionManager σ :=
  match m.sessions.lookup sid with
  | none => m
  | some s => { m with sessions := m.sessions.insert sid { s with lastActive := now } }

def setState (m : SessionManager σ) (sid : SessionId) (newState : SessionState) :
    SessionManager σ :=
  match m.sessions.lookup sid with
  | none => m
  | some s => m.save sid { s with state := newState }

/-- The one setter that leaves Redis alone. -/
def setMatchMode (m : SessionManager σ) (sid : SessionId) (mode : ℤ) : SessionManager σ :=
  match m.sessions.lookup sid with
  | none => m
  | some s => { m with sessions := m.sessions.insert sid { s with matchMode := mode } }

def setCurrentRoom (m : SessionManager σ) (sid : SessionId) (roomId : RoomId) :
    SessionManager σ :=
  match m.sessions.lookup sid with
  | none => m
  | some s => m.save sid { s with currentRoom := roomId }

/-! ### Expiry, disconnect, reconnect -/

/-- One hour. -/
def isExpired (s : Session) (now : ℤ) : Bool := decide (3600 < elapsedSeconds now s.lastActive)

/-- The body of the loop of `cleanupExpired`. -/
def expire (now : ℤ) (m : SessionManager σ) (sid : SessionId) : SessionManager σ :=
  match m.sessions.lookup sid with
  | none => m
  | some s => if isExpired s now then m.dropSession sid s else m

/-- `order` is the order in which the loop visits the sessions. -/
def cleanupExpired (m : SessionManager σ) (now : ℤ) (order : List SessionId) : SessionManager σ :=
  order.foldl (expire now) m

def markDisconnected (m : SessionManager σ) (connId : ConnectionId) (now : ℤ) :
    SessionManager σ :=
  match m.connMap.lookup connId with
  | none => m
  | some sid =>
      match m.sessions.lookup sid with
      | none => m
      | some s => m.save sid { s with state := .disconnected, lastActive := now }

/-- The session after a successful reconnect. -/
def reconnected (s : Session) (newConnId : ConnectionId) (now : ℤ) : Session :=
  { s with connId := newConnId, state := .inLobby, lastActive := now }

/-- `now` is read once; the source reads the clock again for `last_active`,
`restored`. -/
def tryReconnect (m : SessionManager σ) (sid : SessionId) (newConnId : ConnectionId)
    (now restored : ℤ) : SessionManager σ × LoginResult :=
  match m.sessions.lookup sid with
  | none => (m, { errorCode := 20002, errorMsg := "Session not found" })
  | some s =>
      if s.state ≠ .disconnected then
        (m, { errorCode := 20003, errorMsg := "Session not in disconnected state" })
      else if 30 < elapsedSeconds now s.lastActive then
        (m.logout sid, { errorCode := 20002, errorMsg := "Reconnect window expired" })
      else
        let m := { m with connMap := (m.connMap.erase s.connId).insert newConnId sid }
        (m.save sid (reconnected s newConnId restored),
          { sessionId := sid, playerId := s.playerId })

/-! ### The manager as a state machine -/

inductive Op
  | login (connId : ConnectionId) (username password : String) (sid : SessionId) (now : ℤ)
  | logout (sid : SessionId)
  | heartbeat (sid : SessionId) (now : ℤ)
  | setState (sid : SessionId) (newState : SessionState)
  | setMatchMode (sid : SessionId) (mode : ℤ)
  | setCurrentRoom (sid : SessionId) (roomId : RoomId)
  | cleanupExpired (now : ℤ) (order : List SessionId)
  | markDisconnected (connId : ConnectionId) (now : ℤ)
  | tryReconnect (sid : SessionId) (newConnId : ConnectionId) (now restored : ℤ)
  deriving DecidableEq, Repr

def step (m : SessionManager σ) : Op → Option (SessionManager σ)
  | .login connId username password sid now =>
      (m.login connId username password sid now).map fun r => r.1
  | .logout sid => some (m.logout sid)
  | .heartbeat sid now => some (m.heartbeat sid now)
  | .setState sid newState => some (m.setState sid newState)
  | .setMatchMode sid mode => some (m.setMatchMode sid mode)
  | .setCurrentRoom sid roomId => some (m.setCurrentRoom sid roomId)
  | .cleanupExpired now order =>
      if (order : Multiset SessionId) = m.sessions.keys.val then some (m.cleanupExpired now order)
      else none
  | .markDisconnected connId now => some (m.markDisconnected connId now)
  | .tryReconnect sid newConnId now restored => some (m.tryReconnect sid newConnId now restored).1

end SessionManager

end MiniArena
