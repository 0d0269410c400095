/-
MiniArena/Room.lean

Rooms (`game/room.cpp`) and the table of rooms (`game/room_manager.cpp`).

A room counts its ready players in `readyCount`, next to the `ready` flags.
-/
import MiniArena.TickEngine

namespace MiniArena

inductive RoomState
  | created
  | waitingPlayers
  | loading
  | running
  | settling
  | destroyed
  deriving DecidableEq, Repr

structure RoomPlayerInfo where
  playerId : PlayerId
  username : String
  ready : Bool
  deriving DecidableEq, Repr

structure Room where
  roomId : RoomId
  state : RoomState := .created
  maxPlayers : ℤ
  readyCount : ℤ := 0
  players : Finmap fun _ : PlayerId => RoomPlayerInfo := ∅

namespace Room

/-! ### Queries -/

def playerCount (r : Room) : ℤ := r.players.keys.card

def isFull (r : Room) : Bool := decide (r.maxPlayers ≤ r.playerCount)

def hasPlayer (r : Room) (pid : PlayerId) : Bool := decide (pid ∈ r.players)

def allReady (r : Room) : Bool := decide (r.readyCount = r.playerCount ∧ r.players ≠ ∅)

/-! ### Players -/

/-- The entry of a player who is already there is overwritten, and its
`ready` flag with it. -/
def addPlayer (r : Room) (pid : PlayerId) (username : String) : Room × ℤ :=
  if r.state ≠ .created ∧ r.state ≠ .waitingPlayers then (r, 40003)
  else if r.isFull then (r, 40002)
  else
    ({ r with
        players := r.players.insert pid ⟨pid, username, false⟩
        state := if r.state = .created then .waitingPlayers else r.state }, 0)

def removePlayer (r : Room) (pid : PlayerId) : Room :=
  match r.players.lookup pid with
  | none => r
  | some info =>
      { r with
        readyCount := if info.ready then r.readyCount - 1 else r.readyCount
        players := r.players.erase pid }

def playerReady (r : Room) (pid : PlayerId) : Room :=
  match r.players.lookup pid with
  | none => r
  | some info =>
      if info.ready then r
      else
        { r with
          readyCount := r.readyCount + 1
          players := r.players.insert pid { info with ready := true } }

/-! ### State transitions -/

def startLoading (r : Room) : Room :=
  if r.state = .waitingPlayers ∧ r.isFull then { r with state := .loading } else r

def startBattle (r : Room) : Room :=
  if r.state = .loading ∧ r.allReady then { r with state := .running } else r

def endBattle (r : Room) : Room :=
  if r.state = .running then { r with state := .settling } else r

def destroy (r : Room) : Room := { r with state := .destroyed, players := ∅ }

/-! ### Members and state after each operation -/

@[simp] theorem keys_playerReady (r : Room) (pid : PlayerId) :
    (r.playerReady pid).players.keys = r.players.keys := by
  unfold playerReady
  split
  · rfl
  · rename_i info hinfo
    split
    · rfl
    · ext a
      show a ∈ (r.players.insert pid _).keys ↔ _
      rw [Finmap.mem_keys, Finmap.mem_keys, Finmap.mem_insert]
      constructor
      · rintro (rfl | ha)
        · exact Finmap.mem_of_lookup_eq_some hinfo
        · exact ha
      · exact Or.inr

@[simp] theorem mem_playerReady (r : Room) (pid a : PlayerId) :
    a ∈ (r.playerReady pid).players ↔ a ∈ r.players := by
  rw [← Finmap.mem_keys, ← Finmap.mem_keys, keys_playerReady]

@[simp] theorem state_playerReady (r : Room) (pid : PlayerId) :
    (r.playerReady pid).state = r.state := by
  unfold playerReady
  split
  · rfl
  · split <;> rfl

@[simp] theorem roomId_playerReady (r : Room) (pid : PlayerId) :
    (r.playerReady pid).roomId = r.roomId := by
  unfold playerReady
  split
  · rfl
  · split <;> rfl

@[simp] theorem roomId_startBattle (r : Room) : r.startBattle.roomId = r.roomId := by
  unfold startBattle
  split <;> rfl

@[simp] theorem players_startBattle (r : Room) : r.startBattle.players = r.players := by
  unfold startBattle
  split <;> rfl

/-- A room that is not LOADING stays as it is. -/
theorem startBattle_of_ne (r : Room) (h : r.state ≠ .loading) : r.startBattle = r := by
  simp [startBattle, h]

/-- A player is in the room after `addPlayer` who was there, or who is added without error. -/
theorem mem_addPlayer (r : Room) (pid a : PlayerId) (username : String) :
    a ∈ (r.addPlayer pid username).1.players ↔
      a ∈ r.players ∨ a = pid ∧ (r.addPlayer pid username).2 = 0 := by
  unfold addPlayer
  split
  · simp
  · split
    · simp
    · show a ∈ r.players.insert pid _ ↔ _
      rw [Finmap.mem_insert]
      simp [or_comm]

/-- No operation on the players makes a room LOADING or RUNNING. -/
theorem state_addPlayer (r : Room) (pid : PlayerId) (username : String) :
    (r.addPlayer pid username).1.state = r.state ∨
      (r.addPlayer pid username).1.state = .waitingPlayers := by
  unfold addPlayer
  split
  · exact Or.inl rfl
  · split
    · exact Or.inl rfl
    · by_cases h : r.state = .created
      · exact Or.inr (if_pos h)
      · exact Or.inl (if_neg h)

end Room

/-- `next_room_id_` starts at 1, so that 0 can stand for "no room". -/
structure RoomManager where
  rooms : Finmap fun _ : RoomId => Room := ∅
  nextRoomId : RoomId := 1

namespace RoomManager

def createRoom (m : RoomManager) (maxPlayers : ℤ) : RoomManager × RoomId :=
  ({ rooms := m.rooms.insert m.nextRoomId { roomId := m.nextRoomId, maxPlayers := maxPlayers }
     nextRoomId := m.nextRoomId + 1 }, m.nextRoomId)

def getRoom (m : RoomManager) (r : RoomId) : Option Room := m.rooms.lookup r

/-- What a method called through the pointer `getRoom` returned leaves behind. -/
def update (m : RoomManager) (r : RoomId) (room : Room) : RoomManager :=
  { m with rooms := m.rooms.insert r room }

def destroyRoom (m : RoomManager) (r : RoomId) : RoomManager :=
  { m with rooms := m.rooms.erase r }

theorem getRoom_update (m : RoomManager) (r a : RoomId) (room : Room) :
    (m.update r room).getRoom a = if a = r then some room else m.getRoom a :=
  Finmap.lookup_insert_eq ..

/-- A new room is CREATED and empty. -/
theorem getRoom_createRoom (m : RoomManager) (maxPlayers : ℤ) (a : RoomId) :
    (m.createRoom maxPlayers).1.getRoom a =
      if a = m.nextRoomId then some { roomId := m.nextRoomId, maxPlayers := maxPlayers }
      else m.getRoom a :=
  Finmap.lookup_insert_eq ..

end RoomManager

end MiniArena
