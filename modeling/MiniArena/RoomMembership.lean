/-
MiniArena/RoomMembership.lean

Who is in which room.

Nobody is ever taken out of a room, and neither the matchmaker nor the
handler of EnterRoom nor a login asks whether the player is in one already.
`OneRoom` says that nobody is in two rooms and that a session's
`current_room` is the room its player is in; `KeepsRooms` is what an event
must meet for that to stay so.
-/
import MiniArena.BattleStart

namespace MiniArena

variable {F : Type} [FloatOps F] {σ : Type} [Storage σ]

namespace GameServer

open SessionManager (Quiet Tables)

variable (pb : Protobuf F) {g g' : GameServer σ F}

def Member (g : GameServer σ F) (pid : PlayerId) (r : RoomId) : Prop :=
  ∃ room, g.rooms.getRoom r = some room ∧ pid ∈ room.players

structure OneRoom (g : GameServer σ F) : Prop where
  single : ∀ pid r r', g.Member pid r → g.Member pid r' → r = r'
  seated : ∀ sid s r, g.sessions.sessions.lookup sid = some s → g.Member s.playerId r →
    s.currentRoom = r

/-- A login is one of a player who is in no room; a player who is let into a
room, or taken from the queue for one, is in no other. -/
def KeepsRooms (g : GameServer σ F) (e : ServerEvent F) : Prop :=
  match action pb g e with
  | some (.login _ player _ _) => ∀ r, ¬ g.Member player.id r
  | some (.enter s r room) => (room.addPlayer s.playerId s.username).2 = 0 →
      ∀ r', g.Member s.playerId r' → r' = r
  | some (.seat pid _ r _) => ∀ r', g.Member pid r' → r' = r
  | _ => True

variable {pb}

/-! ### What needs no condition -/

/-- The tables of the sessions are sound, and the ids of the rooms are the
ones handed out so far. -/
structure Sound (g : GameServer σ F) : Prop where
  tables : Tables g.sessions
  rooms : ∀ r room, g.rooms.getRoom r = some room → 0 < r ∧ r < g.rooms.nextRoomId
  next : 0 < g.rooms.nextRoomId

omit [FloatOps F] in
omit [Storage σ] in
theorem sound_init (store : σ) (roomSize : ℤ) : Sound (init store roomSize : GameServer σ F) where
  tables := tables_init store roomSize
  rooms := by
    intro r room h
    simp [init, RoomManager.getRoom] at h
  next := Nat.one_pos

omit [FloatOps F] [Storage σ] in
/-- Changing a room that is there. -/
theorem Sound.rooms_update (h : Sound g) {r : RoomId} {room room' : Room}
    (hfound : g.rooms.getRoom r = some room) :
    ∀ a q, (g.rooms.update r room').getRoom a = some q → 0 < a ∧ a < g.rooms.nextRoomId := by
  intro a q hq
  rw [RoomManager.getRoom_update] at hq
  split at hq
  · rename_i ha
    exact ha ▸ h.rooms r room hfound
  · exact h.rooms a q hq

theorem sound_step (h : Sound g) {e : ServerEvent F × ServerOut F} (hstep : Steps pb g e g') :
    Sound g' := by
  have htables := tables_step h.tables hstep
  have heff := step_effect hstep.1
  generalize action pb g e.1 = a at heff
  cases heff with
  | quiet rooms sessions battle => exact ⟨htables, rooms ▸ h.rooms, rooms ▸ h.next⟩
  | login rooms sessions battle => exact ⟨htables, rooms ▸ h.rooms, rooms ▸ h.next⟩
  | enter session found rooms sessions battle =>
    exact ⟨htables, rooms ▸ h.rooms_update found, rooms ▸ h.next⟩
  | ready found waiting rooms sessions battle =>
    exact ⟨htables, rooms ▸ h.rooms_update found, rooms ▸ h.next⟩
  | start found allReady rooms sessions table workers enqueued =>
    exact ⟨htables, rooms ▸ h.rooms_update found, rooms ▸ h.next⟩
  | form rooms sessions battle =>
    refine ⟨htables, ?_, rooms ▸ Nat.succ_pos _⟩
    intro a q hq
    rw [rooms, RoomManager.getRoom_createRoom] at hq
    rw [rooms]
    show 0 < a ∧ a < g.rooms.nextRoomId + 1
    split at hq
    · rename_i ha
      exact ⟨ha ▸ h.next, ha ▸ Nat.lt_succ_self _⟩
    · obtain ⟨hpos, hlt⟩ := h.rooms a q hq
      exact ⟨hpos, Nat.lt_succ_of_lt hlt⟩
  | seat session found rooms sessions battle =>
    exact ⟨htables, rooms ▸ h.rooms_update found, rooms ▸ h.next⟩

/-! ### Members after each change of the rooms -/

omit [FloatOps F] [Storage σ] in
theorem member_update {r : RoomId} {room : Room} (hrooms : g'.rooms = g.rooms.update r room)
    (pid : PlayerId) (a : RoomId) :
    g'.Member pid a ↔ if a = r then pid ∈ room.players else g.Member pid a := by
  unfold Member
  rw [hrooms, RoomManager.getRoom_update]
  by_cases ha : a = r
  · simp [ha]
  · simp [ha]

omit [FloatOps F] [Storage σ] in
/-- Changing a room without changing its members. -/
theorem member_same {r : RoomId} {room room' : Room} (hfound : g.rooms.getRoom r = some room)
    (hrooms : g'.rooms = g.rooms.update r room')
    (hmem : ∀ pid, pid ∈ room'.players ↔ pid ∈ room.players) (pid : PlayerId) (a : RoomId) :
    g'.Member pid a ↔ g.Member pid a := by
  rw [member_update hrooms]
  split
  · rename_i ha
    subst ha
    rw [hmem, Member, hfound]
    simp
  · exact Iff.rfl

omit [FloatOps F] [Storage σ] in
theorem member_addPlayer {r : RoomId} {room : Room} {pid : PlayerId} {username : String}
    (hfound : g.rooms.getRoom r = some room)
    (hrooms : g'.rooms = g.rooms.update r (room.addPlayer pid username).1) (p : PlayerId)
    (a : RoomId) :
    g'.Member p a ↔ g.Member p a ∨ p = pid ∧ a = r ∧ (room.addPlayer pid username).2 = 0 := by
  rw [member_update hrooms]
  split
  · rename_i ha
    subst ha
    rw [Room.mem_addPlayer, Member, hfound]
    simp
  · rename_i ha
    simp [ha]

omit [FloatOps F] [Storage σ] in
theorem member_createRoom (h : Sound g) {maxPlayers : ℤ}
    (hrooms : g'.rooms = (g.rooms.createRoom maxPlayers).1) (pid : PlayerId) (a : RoomId) :
    g'.Member pid a ↔ g.Member pid a := by
  unfold Member
  rw [hrooms, RoomManager.getRoom_createRoom]
  split
  · -- the id is new, and the room is empty
    rename_i ha
    have hnew : g.rooms.getRoom a = none := by
      rcases hroom : g.rooms.getRoom a with - | room
      · rfl
      · exact absurd (h.rooms a room hroom).2 (ha ▸ lt_irrefl _)
    simp [hnew, Finmap.notMem_empty]
  · exact Iff.rfl

/-! ### The three ways a step can go -/

omit [FloatOps F] [Storage σ] in
theorem OneRoom.of_quiet (h : OneRoom g) (hmem : ∀ p a, g'.Member p a ↔ g.Member p a)
    (hq : Quiet g.sessions g'.sessions) : OneRoom g' where
  single := by
    intro p r r' hr hr'
    exact h.single p r r' ((hmem p r).mp hr) ((hmem p r').mp hr')
  seated := by
    intro sid s' r hs' hr
    obtain ⟨s, hs, hp, hc⟩ := hq.kept sid s' hs'
    rw [hc]
    exact h.seated sid s r hs (hp ▸ (hmem _ r).mp hr)

/-- The player `pid` gets the room `r` as its `current_room`, whether or not
it is added to that room; other sessions are as before. -/
structure Joins (g g' : GameServer σ F) (pid : PlayerId) (r : RoomId) (added : Prop) : Prop where
  members : ∀ p a, g'.Member p a ↔ g.Member p a ∨ p = pid ∧ a = r ∧ added
  own : ∃ sid s, g'.sessions.sessions.lookup sid = some s ∧ s.playerId = pid ∧ s.currentRoom = r
  sessions : ∀ sid s', g'.sessions.sessions.lookup sid = some s' →
    (s'.playerId = pid ∧ s'.currentRoom = r) ∨
    s'.playerId ≠ pid ∧ ∃ s, g.sessions.sessions.lookup sid = some s ∧
      s'.playerId = s.playerId ∧ s'.currentRoom = s.currentRoom

omit [FloatOps F] [Storage σ] in
theorem OneRoom.joins_iff (h : OneRoom g) {pid : PlayerId} {r : RoomId} {added : Prop}
    (hj : Joins g g' pid r added) : OneRoom g' ↔ ∀ r', g.Member pid r' → r' = r := by
  constructor
  · intro h' r' hr'
    obtain ⟨sid, s, hs, rfl, hc⟩ := hj.own
    rw [← hc]
    exact (h'.seated sid s r' hs ((hj.members _ _).mpr (Or.inl hr'))).symm
  · intro honly
    have hpid : ∀ a, g'.Member pid a → a = r := by
      intro a ha
      rcases (hj.members pid a).mp ha with hold | ⟨-, hr, -⟩
      · exact honly a hold
      · exact hr
    have hother : ∀ p a, p ≠ pid → g'.Member p a → g.Member p a := by
      intro p a hp ha
      rcases (hj.members p a).mp ha with hold | ⟨heq, -, -⟩
      · exact hold
      · exact absurd heq hp
    constructor
    · intro p a a' ha ha'
      by_cases hp : p = pid
      · subst hp
        exact (hpid a ha).trans (hpid a' ha').symm
      · exact h.single p a a' (hother p a hp ha) (hother p a' hp ha')
    · intro sid s' a hs' ha
      rcases hj.sessions sid s' hs' with ⟨hp, hc⟩ | ⟨hp, s, hs, hps, hcs⟩
      · rw [hc]
        exact (hpid a (hp ▸ ha)).symm
      · rw [hcs]
        exact h.seated sid s a hs (hps ▸ hother _ a hp ha)

omit [FloatOps F] in
/-- The sessions after `setCurrentRoom` of the one session a player has. -/
theorem joins_setCurrentRoom (ht : Tables g.sessions) {m : SessionManager σ}
    (hq : Quiet g.sessions m) {sid : SessionId} {s : Session} {r : RoomId}
    (hs : m.sessions.lookup sid = some s) (hm : g'.sessions = m.setCurrentRoom sid r)
    {added : Prop}
    (hmem : ∀ p a, g'.Member p a ↔ g.Member p a ∨ p = s.playerId ∧ a = r ∧ added) :
    Joins g g' s.playerId r added := by
  have hset : g'.sessions.sessions = m.sessions.insert sid { s with currentRoom := r } := by
    rw [hm, SessionManager.setCurrentRoom, hs]
    rfl
  refine ⟨hmem, ⟨sid, { s with currentRoom := r }, ?_, rfl, rfl⟩, ?_⟩
  · rw [hset]
    exact Finmap.lookup_insert _
  · intro a s' hs'
    rw [hset, Finmap.lookup_insert_eq] at hs'
    split at hs'
    · obtain rfl := Option.some.inj hs'
      exact Or.inl ⟨rfl, rfl⟩
    · rename_i ha
      refine Or.inr ⟨fun hp => ha ((hq.tables ht).players.unique hs' hs hp), hq.kept a s' hs'⟩

omit [FloatOps F] in
/-- A login gives the player a session without a room. -/
theorem joins_login (ht : Tables g.sessions) {connId : ConnectionId} {player : PlayerRecord}
    {st : σ} {env : Env} (hrooms : g'.rooms = g.rooms)
    (hm : g'.sessions = loggedIn g.sessions connId player st env) :
    Joins g g' player.id 0 False := by
  have hstore := Quiet.store g.sessions st
  have hkick : Quiet g.sessions (kicked g.sessions player st) :=
    hstore.trans (SessionManager.quiet_kickDuplicate (hstore.tables ht) player.id)
  obtain ⟨hkt, hgone⟩ := tables_kicked ht player st
  let s := SessionManager.newSession connId player env.sid env.now
  have hset : g'.sessions.sessions =
      ((kicked g.sessions player st).sessions.insert env.sid s).insert env.sid
        { s with state := .inLobby } := by
    rw [hm, loggedIn, SessionManager.setState, SessionManager.createSession]
    simp only [Finmap.lookup_insert]
    rfl
  refine ⟨fun p a => ?_, ⟨env.sid, { s with state := .inLobby }, ?_, rfl, rfl⟩, ?_⟩
  · unfold Member
    rw [hrooms]
    simp
  · rw [hset]
    exact Finmap.lookup_insert _
  · intro a s' hs'
    rw [hset, Finmap.lookup_insert_eq] at hs'
    split at hs'
    · obtain rfl := Option.some.inj hs'
      exact Or.inl ⟨rfl, rfl⟩
    · rename_i ha
      rw [Finmap.lookup_insert_of_ne _ ha] at hs'
      refine Or.inr ⟨fun hp => ?_, hkick.kept a s' hs'⟩
      -- the kicked player has no session
      have hentry := hkt.players.lookup hs'
      rw [hp, hgone] at hentry
      cases hentry

/-! ### One step, and runs -/

/-- **One step.**  From a state in which everybody is in one room, a step
leads to one exactly if it meets `KeepsRooms`. -/
theorem oneRoom_step_iff (hsound : Sound g) (h : OneRoom g) {e : ServerEvent F × ServerOut F}
    (hstep : Steps pb g e g') : OneRoom g' ↔ KeepsRooms pb g e.1 := by
  have heff := step_effect hstep.1
  unfold KeepsRooms
  generalize action pb g e.1 = a at heff
  cases heff with
  | quiet rooms sessions battle =>
    refine iff_of_true (h.of_quiet (fun p a => ?_) sessions) trivial
    unfold Member
    rw [rooms]
  | login rooms sessions battle =>
    rw [h.joins_iff (joins_login hsound.tables rooms sessions)]
    constructor
    · -- a new session is in room 0, which no room is
      intro honly r hr
      obtain ⟨room, hroom, hin⟩ := hr
      have hpos := (hsound.rooms r room hroom).1
      rw [honly r ⟨room, hroom, hin⟩] at hpos
      exact absurd hpos (lt_irrefl 0)
    · exact fun hno r hr => absurd hr (hno r)
  | @enter connId s r room session found rooms sessions battle =>
    have hmem := member_addPlayer found rooms
    by_cases hok : (room.addPlayer s.playerId s.username).2 = 0
    · rw [if_pos hok] at sessions
      rw [h.joins_iff (joins_setCurrentRoom hsound.tables (Quiet.refl _)
        (SessionManager.lookup_of_getByConn hsound.tables session) sessions hmem)]
      exact ⟨fun honly _ => honly, fun honly => honly hok⟩
    · rw [if_neg hok] at sessions
      refine iff_of_true (h.of_quiet (fun p a => ?_) (sessions ▸ Quiet.refl _))
        fun hzero => absurd hzero hok
      rw [hmem]
      exact or_iff_left fun hnew => hok hnew.2.2
  | ready found waiting rooms sessions battle =>
    refine iff_of_true (h.of_quiet (member_same found rooms ?_) (sessions ▸ Quiet.refl _)) trivial
    exact fun pid => Room.mem_playerReady _ _ pid
  | start found allReady rooms sessions table workers enqueued =>
    refine iff_of_true (h.of_quiet (member_same found rooms fun pid => ?_) sessions) trivial
    rw [Room.players_startBattle]
    exact Room.mem_playerReady _ _ pid
  | form rooms sessions battle =>
    exact iff_of_true (h.of_quiet (member_createRoom hsound rooms) sessions) trivial
  | @seat pid s r room st session found rooms sessions battle =>
    obtain ⟨hlook, rfl⟩ := SessionManager.lookup_of_getByPlayer hsound.tables session
    have hq := (Quiet.store g.sessions st).trans
      (SessionManager.quiet_setState _ s.sessionId .inRoom)
    -- the session that `setCurrentRoom` finds is the one that was set IN_ROOM
    have hlook' : (({ g.sessions with store := st } : SessionManager σ).setState s.sessionId
        .inRoom).sessions.lookup s.sessionId = some { s with state := .inRoom } := by
      rw [SessionManager.setState, hlook]
      exact Finmap.lookup_insert _
    exact h.joins_iff (joins_setCurrentRoom hsound.tables hq hlook' sessions
      (member_addPlayer found rooms))

/-- **At most one room per player.**  The runs in which nobody is ever in two
rooms, or in another than its session says, are the runs whose events all
meet `KeepsRooms`. -/
theorem oneRoom_run_iff {store : σ} {roomSize : ℤ} {as : List (ServerEvent F × ServerOut F)} :
    Transition.Run (fun g e g' => Steps pb g e g' ∧ OneRoom g') (init store roomSize) as g ↔
      Transition.Run (fun g e g' => Steps pb g e g' ∧ KeepsRooms pb g e.1)
        (init store roomSize) as g := by
  apply Transition.Run.target_congr (J := Sound)
  · exact fun g e g' h hst => sound_step h hst
  · exact fun g e g' hsound h hst => oneRoom_step_iff hsound h hst
  · exact sound_init store roomSize
  · -- there are no rooms yet
    have hnone : ∀ pid r, ¬ (init store roomSize : GameServer σ F).Member pid r := by
      rintro pid r ⟨room, hroom, -⟩
      simp [init, RoomManager.getRoom] at hroom
    exact ⟨fun pid r _ hr _ => absurd hr (hnone pid r), fun _ _ r _ hr => absurd hr (hnone _ r)⟩

/-! ### A player in two rooms -/

/-- Player 1 logs in and asks for a match twice; rooms are for one player. -/
def queuedTwice : List (ServerEvent ℚ) :=
  [annSends 1001, annSends 2001, annSends 2001, .timerWakes, .tryMatch, .tryMatch, .tryMatch,
    .tryMatch, .tryMatch]

/-- **The queue holds a player twice**, and the matchmaker puts it into two rooms. -/
theorem twoRooms_queuedTwice :
    ¬ ∀ (as : List (ServerEvent ℚ × ServerOut ℚ)) (g : GameServer MemoryStore ℚ),
        Transition.Run (Steps annRequests) (init {} 1) as g → OneRoom g := by
  intro hclaim
  have htwice : (exec annRequests (init ({} : MemoryStore) 1) queuedTwice).map (fun p =>
      [1, 2].map fun r => (p.1.rooms.getRoom r).map fun room => decide (1 ∈ room.players)) =
      some [some true, some true] := by
    decide +kernel
  obtain ⟨⟨g, as⟩, hexec, hrooms⟩ := Option.map_eq_some_iff.mp htwice
  simp only [List.map_cons, List.map_nil, List.cons.injEq, and_true] at hrooms
  obtain ⟨⟨room, hroom, hin⟩, room', hroom', hin'⟩ :=
    And.imp Option.map_eq_some_iff.mp Option.map_eq_some_iff.mp hrooms
  have hone := (hclaim as g (run_of_exec hexec)).single 1 1 2
    ⟨room, hroom, of_decide_eq_true hin⟩ ⟨room', hroom', of_decide_eq_true hin'⟩
  exact absurd hone (by decide)

end GameServer

end MiniArena
