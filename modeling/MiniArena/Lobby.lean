/-
MiniArena/Lobby.lean

What a step of the server does to the rooms, to the rooms of the sessions
and to the battle manager's table.

Six kinds of events touch any of these.  `action` reads off the state and the
event which of them it is, with the player and the room it is about, and
`Effect` says what is changed then; `step_effect` is the one place where the
handlers are taken apart.  All other events are `Quiet`: sessions may go, but
none comes, and no session changes its player or its room.
-/
import MiniArena.GameServer

namespace MiniArena

variable {F : Type} [FloatOps F] {σ : Type} [Storage σ]

namespace SessionManager

variable {m m₁ m₂ m₃ : SessionManager σ}

/-! ### Session operations that leave players and rooms alone -/

structure Quiet (m m' : SessionManager σ) : Prop where
  tables : Tables m → Tables m'
  kept : ∀ sid s', m'.sessions.lookup sid = some s' → ∃ s, m.sessions.lookup sid = some s ∧
    s'.playerId = s.playerId ∧ s'.currentRoom = s.currentRoom

omit [Storage σ] in
theorem Quiet.refl (m : SessionManager σ) : Quiet m m := ⟨id, fun _ s' h => ⟨s', h, rfl, rfl⟩⟩

omit [Storage σ] in
theorem Quiet.trans (h : Quiet m₁ m₂) (h' : Quiet m₂ m₃) : Quiet m₁ m₃ where
  tables := fun ht => h'.tables (h.tables ht)
  kept := by
    intro sid s₃ hs₃
    obtain ⟨s₂, hs₂, hp, hc⟩ := h'.kept sid s₃ hs₃
    obtain ⟨s₁, hs₁, hp', hc'⟩ := h.kept sid s₂ hs₂
    exact ⟨s₁, hs₁, hp.trans hp', hc.trans hc'⟩

omit [Storage σ] in
theorem Quiet.store (m : SessionManager σ) (st : σ) : Quiet m { m with store := st } where
  tables := fun h => ⟨h.own, h.players, h.conns⟩
  kept := fun _ s' h => ⟨s', h, rfl, rfl⟩

omit [Storage σ] in
/-- A session written back with its player and its room. -/
theorem kept_insert {sid : SessionId} {s q : Session} (hs : m.sessions.lookup sid = some s)
    (hp : q.playerId = s.playerId) (hr : q.currentRoom = s.currentRoom) :
    ∀ a s', (m.sessions.insert sid q).lookup a = some s' → ∃ s, m.sessions.lookup a = some s ∧
      s'.playerId = s.playerId ∧ s'.currentRoom = s.currentRoom := by
  intro a s' hs'
  rw [Finmap.lookup_insert_eq] at hs'
  split at hs'
  · rename_i ha
    obtain rfl := Option.some.inj hs'
    exact ⟨s, ha ▸ hs, hp, hr⟩
  · exact ⟨s', hs', rfl, rfl⟩

omit [Storage σ] in
theorem quiet_update {sid : SessionId} {s q : Session} (hs : m.sessions.lookup sid = some s)
    (hid : q.sessionId = s.sessionId) (hp : q.playerId = s.playerId) (hc : q.connId = s.connId)
    (hr : q.currentRoom = s.currentRoom) (st : σ) :
    Quiet m { m with sessions := m.sessions.insert sid q, store := st } where
  tables := fun h => h.update hs hid hp hc st
  kept := kept_insert hs hp hr

theorem quiet_setState (m : SessionManager σ) (sid : SessionId) (newState : SessionState) :
    Quiet m (m.setState sid newState) := by
  unfold setState
  split
  · exact Quiet.refl m
  · rename_i s hs
    apply quiet_update hs <;> rfl

omit [Storage σ] in
theorem quiet_setMatchMode (m : SessionManager σ) (sid : SessionId) (mode : ℤ) :
    Quiet m (m.setMatchMode sid mode) := by
  unfold setMatchMode
  split
  · exact Quiet.refl m
  · rename_i s hs
    apply quiet_update hs <;> rfl

omit [Storage σ] in
theorem quiet_heartbeat (m : SessionManager σ) (sid : SessionId) (now : ℤ) :
    Quiet m (m.heartbeat sid now) := by
  unfold heartbeat
  split
  · exact Quiet.refl m
  · rename_i s hs
    apply quiet_update hs <;> rfl

theorem quiet_markDisconnected (m : SessionManager σ) (connId : ConnectionId) (now : ℤ) :
    Quiet m (m.markDisconnected connId now) := by
  unfold markDisconnected
  split
  · exact Quiet.refl m
  · split
    · exact Quiet.refl m
    · rename_i sid _ s hs
      apply quiet_update hs <;> rfl

theorem quiet_dropSession {sid : SessionId} {s : Session} (hs : m.sessions.lookup sid = some s) :
    Quiet m (m.dropSession sid s) where
  tables := fun h => h.dropSession hs
  kept := by
    intro a q hq
    change (m.sessions.erase sid).lookup a = some q at hq
    rw [Finmap.lookup_erase_eq] at hq
    split at hq
    · cases hq
    · exact ⟨q, hq, rfl, rfl⟩

theorem quiet_cleanupExpired (m : SessionManager σ) (now : ℤ) (order : List SessionId) :
    Quiet m (m.cleanupExpired now order) :=
  cleanupExpired_induction (fun _ _ _ hs h => h.trans (quiet_dropSession hs)) (Quiet.refl m) now order

theorem quiet_tryReconnect (m : SessionManager σ) (sid : SessionId) (newConnId : ConnectionId)
    (now restored : ℤ) : Quiet m (m.tryReconnect sid newConnId now restored).1 := by
  rcases tryReconnect_cases m sid newConnId now restored with
    ⟨-, _, -, heq⟩ | ⟨s, hs, -, ⟨-, heq⟩ | ⟨-, heq⟩⟩
  · rw [heq]
    exact Quiet.refl m
  · rw [heq]
    exact quiet_dropSession hs
  · rw [heq]
    exact ⟨fun h => h.rebind hs newConnId restored _, kept_insert hs rfl rfl⟩

/-- Kicking the player's old session changes no other session. -/
theorem quiet_kickDuplicate (h : Tables m) (pid : PlayerId) : Quiet m (m.kickDuplicate pid).1 := by
  rcases kickDuplicate_eq h pid with ⟨-, heq⟩ | ⟨old, s, -, hs, -, heq⟩
  · rw [heq]
    exact Quiet.refl m
  · rw [heq]
    exact quiet_dropSession hs

theorem quiet_enterBattle (m : SessionManager σ) (order : List PlayerId) :
    Quiet m (order.foldl BattleManager.enterBattle m) := by
  induction order generalizing m with
  | nil => exact Quiet.refl m
  | cons pid order ih =>
    refine Quiet.trans ?_ (ih _)
    unfold BattleManager.enterBattle
    split
    · exact Quiet.refl m
    · exact quiet_setState m _ _

theorem quiet_joinQueue {m' : SessionManager σ} {pid : PlayerId} {mode err : ℤ}
    (h : GameServer.joinQueue m pid mode = some (m', err)) : Quiet m m' := by
  unfold GameServer.joinQueue at h
  obtain ⟨s, -, hrest⟩ := Option.bind_eq_some_iff.mp h
  obtain ⟨s', -, heq⟩ := Option.map_eq_some_iff.mp hrest
  obtain ⟨rfl, -⟩ := Prod.mk.injEq .. ▸ heq
  exact ((Quiet.store m _).trans (quiet_setState _ _ _)).trans (quiet_setMatchMode _ _ _)

theorem quiet_leaveQueue (m : SessionManager σ) (pid : PlayerId) :
    Quiet m (GameServer.leaveQueue m pid) := by
  unfold GameServer.leaveQueue
  split
  · exact Quiet.refl m
  · exact (quiet_setState _ _ _).trans (quiet_setMatchMode _ _ _)

end SessionManager

namespace GameServer

open SessionManager (Quiet)

variable (pb : Protobuf F) {g g' : GameServer σ F}

/-! ### What an event is for the rooms -/

inductive Action (σ : Type)
  /-- `player` logs in with the right password; `st` is the store after the look-ups. -/
  | login (connId : ConnectionId) (player : PlayerRecord) (st : σ) (env : Env)
  /-- The session `s` asks to enter the room `r`, which exists. -/
  | enter (s : Session) (r : RoomId) (room : Room)
  /-- The session `s` is ready, and the room it is in is `room`. -/
  | ready (s : Session) (room : Room)
  /-- `tryMatch` forms a room. -/
  | form
  /-- `tryMatch` takes `pid`, who has the session `s`, for the room `r`. -/
  | seat (pid : PlayerId) (s : Session) (r : RoomId) (room : Room)

def loginAction (g : GameServer σ F) (connId : ConnectionId) (frame : Frame) (env : Env) :
    Option (Action σ) :=
  (pb.loginRequest frame.payload).bind fun req =>
    match SessionManager.authenticate g.sessions.store req.1 req.2 with
    | some (.ok player, st) => some (.login connId player st env)
    | _ => none

def enterAction (g : GameServer σ F) (connId : ConnectionId) (frame : Frame) :
    Option (Action σ) :=
  (g.sessions.getByConn connId).bind fun s =>
    let r := pb.enterRoomRequest frame.payload
    (g.rooms.getRoom r).map fun room => .enter s r room

def readyAction (g : GameServer σ F) (connId : ConnectionId) : Option (Action σ) :=
  (g.currentRoom connId).map fun p => .ready p.1 p.2

def checkAction (g : GameServer σ F) : Option (Action σ) :=
  if (RedisClient.matchQueueSize 0 g.sessions.store).1 < g.roomSize then none else some .form

def fillAction (g : GameServer σ F) (r : RoomId) (i : ℕ) : Option (Action σ) :=
  if (i : ℤ) < g.roomSize then
    match RedisClient.popMatchQueue 0 g.sessions.store with
    | some (some pid, _) =>
        (g.sessions.getByPlayer pid).bind fun s =>
          (g.rooms.getRoom r).map fun room => .seat pid s r room
    | _ => none
  else none

/-- The action of an event, if it is one. -/
def action (g : GameServer σ F) : ServerEvent F → Option (Action σ)
  | .frame _ connId frame env =>
      match handlers.lookup frame.messageId with
      | some .login => g.loginAction pb connId frame env
      | some .enterRoom => g.enterAction pb connId frame
      | some .playerReady => g.readyAction connId
      | _ => none
  | .tryMatch =>
      match g.timer with
      | .checking _ => g.checkAction
      | .filling _ r i => g.fillAction r i
      | _ => none
  | _ => none

/-! ### What a step changes -/

/-- `player`'s old session is kicked. -/
def kicked (m : SessionManager σ) (player : PlayerRecord) (st : σ) : SessionManager σ :=
  (({ m with store := st } : SessionManager σ).kickDuplicate player.id).1

/-- The sessions after a successful login. -/
def loggedIn (m : SessionManager σ) (connId : ConnectionId) (player : PlayerRecord) (st : σ)
    (env : Env) : SessionManager σ :=
  ((kicked m player st).createSession connId player env.sid env.now).setState env.sid .inLobby

/-- A worker stays as it is, gets a command, or makes a step of its thread. -/
def WorkerMoves (w w' : LogicWorker F) : Prop :=
  w' = w ∨ ∃ event out, (ofThread event = true ∨ ∃ cmd, event = .pushCommand cmd) ∧
    w.step event = some (w', out)

/-- No battle is started, and nothing is put on a worker's queue of operations. -/
structure NoStart (g g' : GameServer σ F) (ops : List (Enqueued F)) : Prop where
  table : g'.battle.roomToWorker = g.battle.roomToWorker
  ops : ops = []
  workers : ∀ (i : ℕ) (w' : LogicWorker F), g'.battle.workers[i]? = some w' →
    ∃ w, g.battle.workers[i]? = some w ∧ WorkerMoves w w'

omit [Storage σ] in
theorem noStart_of_eq (h : g'.battle = g.battle) : NoStart g g' [] where
  table := congrArg BattleManager.roomToWorker h
  ops := rfl
  workers := fun _ w' hw => ⟨w', h ▸ hw, Or.inl rfl⟩

inductive Effect (g g' : GameServer σ F) (ops : List (Enqueued F)) : Option (Action σ) → Prop
  | quiet (rooms : g'.rooms = g.rooms) (sessions : Quiet g.sessions g'.sessions)
      (battle : NoStart g g' ops) : Effect g g' ops none
  | login {connId player st env} (rooms : g'.rooms = g.rooms)
      (sessions : g'.sessions = loggedIn g.sessions connId player st env)
      (battle : NoStart g g' ops) : Effect g g' ops (some (.login connId player st env))
  | enter {connId s r room} (session : g.sessions.getByConn connId = some s)
      (found : g.rooms.getRoom r = some room)
      (rooms : g'.rooms = g.rooms.update r (room.addPlayer s.playerId s.username).1)
      (sessions : g'.sessions =
        if (room.addPlayer s.playerId s.username).2 = 0 then g.sessions.setCurrentRoom s.sessionId r
        else g.sessions)
      (battle : NoStart g g' ops) : Effect g g' ops (some (.enter s r room))
  | ready {s room} (found : g.rooms.getRoom s.currentRoom = some room)
      (waiting : (room.playerReady s.playerId).allReady = false)
      (rooms : g'.rooms = g.rooms.update s.currentRoom (room.playerReady s.playerId))
      (sessions : g'.sessions = g.sessions) (battle : NoStart g g' ops) :
      Effect g g' ops (some (.ready s room))
  | start {s room players now} (found : g.rooms.getRoom s.currentRoom = some room)
      (allReady : (room.playerReady s.playerId).allReady = true)
      (rooms : g'.rooms =
        g.rooms.update s.currentRoom (room.playerReady s.playerId).startBattle)
      (sessions : Quiet g.sessions g'.sessions)
      (table : g'.battle.roomToWorker =
        g.battle.roomToWorker.insert room.roomId (g.battle.assignWorker room.roomId))
      (workers : g'.battle.workers =
        (g.battle.push (g.battle.assignWorker room.roomId) (.addRoom room.roomId players)).workers.map
          fun w => if w.roomCount = 0 then w.drainPendingOps now else w)
      (enqueued : ops = [⟨g.battle.assignWorker room.roomId, .addRoom room.roomId players⟩]) :
      Effect g g' ops (some (.ready s room))
  | form (rooms : g'.rooms = (g.rooms.createRoom g.roomSize).1)
      (sessions : Quiet g.sessions g'.sessions) (battle : NoStart g g' ops) :
      Effect g g' ops (some .form)
  | seat {pid s r room st} (session : g.sessions.getByPlayer pid = some s)
      (found : g.rooms.getRoom r = some room)
      (rooms : g'.rooms = g.rooms.update r (room.addPlayer pid s.username).1)
      (sessions : g'.sessions =
        (({ g.sessions with store := st } : SessionManager σ).setState s.sessionId .inRoom).setCurrentRoom
          s.sessionId r)
      (battle : NoStart g g' ops) : Effect g g' ops (some (.seat pid s r room))

variable {pb} {out : ServerOut F}

omit [Storage σ] in
theorem NoStart.of_connToLoop {ops : List (Enqueued F)}
    {conns : Finmap fun _ : ConnectionId => ℕ} (h : NoStart { g with connToLoop := conns } g' ops) :
    NoStart g g' ops :=
  ⟨h.table, h.ops, h.workers⟩

/-- The loops of the connections play no part. -/
theorem Effect.of_connToLoop {ops : List (Enqueued F)} {a : Option (Action σ)}
    (conns : Finmap fun _ : ConnectionId => ℕ) (h : Effect { g with connToLoop := conns } g' ops a) :
    Effect g g' ops a := by
  cases h with
  | quiet rooms sessions battle => exact .quiet rooms sessions battle.of_connToLoop
  | login rooms sessions battle => exact .login rooms sessions battle.of_connToLoop
  | enter session found rooms sessions battle =>
    exact .enter session found rooms sessions battle.of_connToLoop
  | ready found waiting rooms sessions battle =>
    exact .ready found waiting rooms sessions battle.of_connToLoop
  | start found allReady rooms sessions table workers enqueued =>
    exact .start found allReady rooms sessions table workers enqueued
  | form rooms sessions battle => exact .form rooms sessions battle.of_connToLoop
  | seat session found rooms sessions battle =>
    exact .seat session found rooms sessions battle.of_connToLoop

/-! ### The handlers -/

section Handlers

variable {connId : ConnectionId} {frame : Frame} {env : Env}

theorem effect_login (h : g.login pb connId frame env = some (g', out)) :
    Effect g g' out.ops (g.loginAction pb connId frame env) := by
  unfold login at h
  unfold loginAction
  rcases hreq : pb.loginRequest frame.payload with - | ⟨username, password⟩
  · simp only [hreq] at h
    obtain ⟨rfl, rfl⟩ := Prod.mk.injEq .. ▸ Option.some.inj h
    exact .quiet rfl (Quiet.refl _) (noStart_of_eq rfl)
  · simp only [hreq, SessionManager.login, Option.map_map] at h
    obtain ⟨⟨e, st⟩, hauth, heq⟩ := Option.map_eq_some_iff.mp h
    obtain ⟨rfl, rfl⟩ := Prod.mk.injEq .. ▸ heq
    simp only [Option.bind_some, hauth]
    cases e with
    | error msg => exact .quiet rfl (Quiet.store _ st) (noStart_of_eq rfl)
    | ok player => exact .login rfl rfl (noStart_of_eq rfl)

theorem effect_enterRoom :
    Effect g (g.enterRoom pb connId frame).1 (g.enterRoom pb connId frame).2.ops
      (g.enterAction pb connId frame) := by
  unfold enterRoom enterAction
  rcases hconn : g.sessions.getByConn connId with - | s
  · exact .quiet rfl (Quiet.refl _) (noStart_of_eq rfl)
  · rcases hroom : g.rooms.getRoom (pb.enterRoomRequest frame.payload) with - | room
    · simp only [hroom, Option.bind_some, Option.map_none]
      exact .quiet rfl (Quiet.refl _) (noStart_of_eq rfl)
    · simp only [hroom, Option.bind_some, Option.map_some]
      by_cases herr : (room.addPlayer s.playerId s.username).2 = 0
      · rw [if_pos herr]
        exact .enter hconn hroom rfl (if_pos herr).symm (noStart_of_eq rfl)
      · rw [if_neg herr]
        exact .enter hconn hroom rfl (if_neg herr).symm (noStart_of_eq rfl)

omit [FloatOps F] [Storage σ] in
theorem found_of_currentRoom {s : Session} {room : Room}
    (h : g.currentRoom connId = some (s, room)) : g.rooms.getRoom s.currentRoom = some room := by
  obtain ⟨q, -, hrest⟩ := Option.bind_eq_some_iff.mp h
  split at hrest
  · cases hrest
  · obtain ⟨room', hfound, heq⟩ := Option.map_eq_some_iff.mp hrest
    obtain ⟨rfl, rfl⟩ := Prod.mk.injEq .. ▸ heq
    exact hfound

theorem effect_playerReady (h : g.playerReady connId env = some (g', out)) :
    Effect g g' out.ops (g.readyAction connId) := by
  unfold playerReady at h
  unfold readyAction
  rcases hroom : g.currentRoom connId with - | ⟨s, room⟩
  · simp only [hroom] at h
    obtain ⟨rfl, rfl⟩ := Prod.mk.injEq .. ▸ Option.some.inj h
    exact .quiet rfl (Quiet.refl _) (noStart_of_eq rfl)
  · have hfound := found_of_currentRoom hroom
    simp only [hroom] at h
    split at h
    · rename_i hready
      split at h
      · obtain ⟨rfl, rfl⟩ := Prod.mk.injEq .. ▸ Option.some.inj h
        refine @Effect.start F _ σ _ g _ _ s room
          (BattleManager.battlePlayers (room.playerReady s.playerId).startBattle env.order) env.now
          hfound hready rfl (SessionManager.quiet_enterBattle _ _) ?_ ?_ ?_
        · show g.battle.roomToWorker.insert (room.playerReady s.playerId).startBattle.roomId _ = _
          rw [Room.roomId_startBattle, Room.roomId_playerReady]
        · show (List.map _ (g.battle.push
            (g.battle.assignWorker (room.playerReady s.playerId).startBattle.roomId)
            (.addRoom (room.playerReady s.playerId).startBattle.roomId _)).workers) = _
          rw [Room.roomId_startBattle, Room.roomId_playerReady]
        · show [Enqueued.mk (g.battle.assignWorker (room.playerReady s.playerId).startBattle.roomId)
            (.addRoom (room.playerReady s.playerId).startBattle.roomId _)] = _
          rw [Room.roomId_startBattle, Room.roomId_playerReady]
      · cases h
    · rename_i hready
      obtain ⟨rfl, rfl⟩ := Prod.mk.injEq .. ▸ Option.some.inj h
      exact .ready hfound (by simpa using hready) rfl rfl (noStart_of_eq rfl)

theorem quiet_command (request : Option (Command F → Command F)) :
    Effect g (g.command connId frame request) [] (none : Option (Action σ)) := by
  unfold command
  split
  · split
    · refine .quiet rfl (Quiet.refl _) ?_
      unfold BattleManager.dispatchCommand
      split
      · exact noStart_of_eq rfl
      · rename_i i hi
        refine ⟨rfl, rfl, fun a w' hw => ?_⟩
        change (g.battle.workers.modify i _)[a]? = some w' at hw
        rw [List.getElem?_modify] at hw
        obtain ⟨w, hw, heq⟩ := Option.map_eq_some_iff.mp hw
        refine ⟨w, hw, ?_⟩
        split at heq
        · exact Or.inr ⟨.pushCommand _, {}, Or.inr ⟨_, rfl⟩, by rw [← heq]; rfl⟩
        · exact Or.inl heq.symm
    · exact .quiet rfl (Quiet.refl _) (noStart_of_eq rfl)
  · exact .quiet rfl (Quiet.refl _) (noStart_of_eq rfl)

theorem quiet_onHeartbeat :
    Effect g (g.heartbeat connId env).1 (g.heartbeat connId env).2.ops none := by
  unfold heartbeat
  split
  · exact .quiet rfl (Quiet.refl _) (noStart_of_eq rfl)
  · exact .quiet rfl (SessionManager.quiet_heartbeat _ _ _) (noStart_of_eq rfl)

theorem quiet_onReconnect :
    Effect g (g.reconnect pb connId frame env).1 (g.reconnect pb connId frame env).2.ops none := by
  unfold reconnect
  split
  · exact .quiet rfl (Quiet.refl _) (noStart_of_eq rfl)
  · exact .quiet rfl (SessionManager.quiet_tryReconnect _ _ _ _ _) (noStart_of_eq rfl)

theorem effect_dispatch (loop : ℕ) (h : g.dispatch pb connId frame env = some (g', out)) :
    Effect g g' out.ops (action pb g (.frame loop connId frame env)) := by
  unfold dispatch at h
  unfold action
  rcases hl : handlers.lookup frame.messageId with - | handler
  · simp only [hl] at h ⊢
    obtain ⟨rfl, rfl⟩ := Prod.mk.injEq .. ▸ Option.some.inj h
    exact .quiet rfl (Quiet.refl _) (noStart_of_eq rfl)
  · simp only [hl] at h ⊢
    cases handler with
    | login => exact effect_login h
    | heartbeat =>
      obtain ⟨rfl, rfl⟩ := Prod.mk.injEq .. ▸ Option.some.inj h
      exact quiet_onHeartbeat
    | matchStart =>
      dsimp only [matchStart] at h
      split at h
      · obtain ⟨rfl, rfl⟩ := Prod.mk.injEq .. ▸ Option.some.inj h
        exact .quiet rfl (Quiet.refl _) (noStart_of_eq rfl)
      · obtain ⟨⟨m, err⟩, hjoin, heq⟩ := Option.map_eq_some_iff.mp h
        obtain ⟨rfl, rfl⟩ := Prod.mk.injEq .. ▸ heq
        exact .quiet rfl (SessionManager.quiet_joinQueue hjoin) (noStart_of_eq rfl)
    | matchCancel =>
      obtain ⟨rfl, rfl⟩ := Prod.mk.injEq .. ▸ Option.some.inj h
      unfold matchCancel
      split
      · exact .quiet rfl (Quiet.refl _) (noStart_of_eq rfl)
      · exact .quiet rfl (SessionManager.quiet_leaveQueue _ _) (noStart_of_eq rfl)
    | enterRoom =>
      obtain ⟨rfl, rfl⟩ := Prod.mk.injEq .. ▸ Option.some.inj h
      exact effect_enterRoom
    | playerReady => exact effect_playerReady h
    | playerMove =>
      obtain ⟨rfl, rfl⟩ := Prod.mk.injEq .. ▸ Option.some.inj h
      exact quiet_command _
    | playerAttack =>
      obtain ⟨rfl, rfl⟩ := Prod.mk.injEq .. ▸ Option.some.inj h
      exact quiet_command _
    | playerSkill =>
      obtain ⟨rfl, rfl⟩ := Prod.mk.injEq .. ▸ Option.some.inj h
      exact quiet_command _
    | reconnect =>
      obtain ⟨rfl, rfl⟩ := Prod.mk.injEq .. ▸ Option.some.inj h
      exact quiet_onReconnect

end Handlers

/-! ### The other events -/

theorem effect_checkQueue (formed : ℕ) :
    Effect g (g.checkQueue formed) [] g.checkAction := by
  unfold checkQueue checkAction
  rcases hsize : RedisClient.matchQueueSize 0 g.sessions.store with ⟨count, st⟩
  dsimp only
  by_cases hc : count < g.roomSize
  · rw [if_pos hc, if_pos hc]
    exact .quiet rfl (Quiet.store _ st) (noStart_of_eq rfl)
  · rw [if_neg hc, if_neg hc]
    exact .form rfl (Quiet.store _ st) (noStart_of_eq rfl)

theorem effect_fillRoom {formed : ℕ} {r : RoomId} {i : ℕ}
    (h : g.fillRoom formed r i = some (g', out)) : Effect g g' out.ops (g.fillAction r i) := by
  unfold fillRoom at h
  unfold fillAction
  split at h
  · rename_i hi
    obtain ⟨⟨popped, st⟩, hpop, hrest⟩ := Option.bind_eq_some_iff.mp h
    rw [if_pos hi, hpop]
    cases popped with
    | none =>
      obtain ⟨rfl, rfl⟩ := Prod.mk.injEq .. ▸ Option.some.inj hrest
      exact .quiet rfl (Quiet.store _ st) (noStart_of_eq rfl)
    | some pid =>
      dsimp only at hrest ⊢
      rcases hs : g.sessions.getByPlayer pid with - | s
      · have hs' : ({ g.sessions with store := st } : SessionManager σ).getByPlayer pid = none := hs
        rw [hs'] at hrest
        obtain ⟨rfl, rfl⟩ := Prod.mk.injEq .. ▸ Option.some.inj hrest
        exact .quiet rfl (Quiet.store _ st) (noStart_of_eq rfl)
      · have hs' : ({ g.sessions with store := st } : SessionManager σ).getByPlayer pid = some s := hs
        rw [hs'] at hrest
        obtain ⟨room, hroom, heq⟩ := Option.map_eq_some_iff.mp hrest
        obtain ⟨rfl, rfl⟩ := Prod.mk.injEq .. ▸ heq
        have hroom' : g.rooms.getRoom r = some room := hroom
        rw [Option.bind_some, hroom', Option.map_some]
        exact .seat hs hroom rfl rfl (noStart_of_eq rfl)
  · rename_i hi
    rw [if_neg hi]
    obtain ⟨rfl, rfl⟩ := Prod.mk.injEq .. ▸ Option.some.inj h
    exact .quiet rfl (Quiet.refl _) (noStart_of_eq rfl)

/-- The session found on the connection is DISCONNECTED afterwards. -/
theorem getByConn_markDisconnected {m : SessionManager σ} {connId : ConnectionId} {s : Session}
    (now : ℤ) (h : m.getByConn connId = some s) :
    (m.markDisconnected connId now).getByConn connId =
      some { s with state := .disconnected, lastActive := now } := by
  obtain ⟨sid, hsid, hs⟩ := Option.bind_eq_some_iff.mp h
  have hs' : m.sessions.lookup sid = some s := hs
  simp [SessionManager.markDisconnected, hsid, hs', SessionManager.getByConn, SessionManager.save,
    SessionManager.getBySession]

theorem markDisconnected_of_none {m : SessionManager σ} {connId : ConnectionId} (now : ℤ)
    (h : m.getByConn connId = none) : m.markDisconnected connId now = m := by
  unfold SessionManager.markDisconnected
  split
  · rfl
  · rename_i sid hsid
    have hs : m.sessions.lookup sid = none := by
      simpa [SessionManager.getByConn, hsid, SessionManager.getBySession] using h
    rw [hs]

omit [FloatOps F] in
/-- The test for IN_BATTLE comes after the state is overwritten: a
disconnect does what `markDisconnected` does and no more. -/
theorem onDisconnect_eq (g : GameServer σ F) (connId : ConnectionId) (now : ℤ) :
    g.onDisconnect connId now =
      ({ g with
          connToLoop := g.connToLoop.erase connId
          sessions := g.sessions.markDisconnected connId now }, {}) := by
  unfold onDisconnect
  dsimp only
  rcases hconn : g.sessions.getByConn connId with - | s
  · dsimp only
    rw [markDisconnected_of_none now hconn]
  · dsimp only
    rw [getByConn_markDisconnected now hconn]
    exact if_neg fun h => nomatch h.1

theorem quiet_workerStep {i : ℕ} {event : WorkerEvent F}
    (h : g.workerStep i event = some (g', out)) : Effect g g' out.ops none := by
  unfold workerStep at h
  split at h
  · rename_i hthread
    obtain ⟨w, hw, hrest⟩ := Option.bind_eq_some_iff.mp h
    obtain ⟨⟨w', o⟩, hstep, heq⟩ := Option.map_eq_some_iff.mp hrest
    obtain ⟨rfl, rfl⟩ := Prod.mk.injEq .. ▸ heq
    refine .quiet rfl (Quiet.refl _) ⟨rfl, rfl, fun a v hv => ?_⟩
    change (g.battle.workers.set i w')[a]? = some v at hv
    rw [List.getElem?_set] at hv
    split at hv
    · rename_i hia
      split at hv
      · obtain rfl := Option.some.inj hv
        exact ⟨w, hia ▸ hw, Or.inr ⟨event, o, Or.inl hthread.2, hstep⟩⟩
      · cases hv
    · exact ⟨v, hv, Or.inl rfl⟩
  · cases h

/-- **Every step has the effect of its action.** -/
theorem step_effect {e : ServerEvent F} (h : step pb g e = some (g', out)) :
    Effect g g' out.ops (action pb g e) := by
  unfold step at h
  cases e with
  | frame loop connId frame env =>
    exact (effect_dispatch loop h).of_connToLoop _
  | disconnect connId now =>
    have hdisc : g.onDisconnect connId now = (g', out) := Option.some.inj h
    rw [onDisconnect_eq] at hdisc
    obtain ⟨rfl, rfl⟩ := Prod.mk.injEq .. ▸ hdisc
    exact .quiet rfl (SessionManager.quiet_markDisconnected _ connId now) (noStart_of_eq rfl)
  | timerWakes =>
    dsimp only at h
    split at h
    · obtain ⟨rfl, rfl⟩ := Prod.mk.injEq .. ▸ Option.some.inj h
      exact .quiet rfl (Quiet.refl _) (noStart_of_eq rfl)
    · cases h
  | tryMatch =>
    rcases htimer : g.timer with - | formed | ⟨formed, r, i⟩ | -
    · simp [tryMatch, htimer] at h
    · simp only [tryMatch, htimer] at h
      simp only [action, htimer]
      obtain ⟨rfl, rfl⟩ := Prod.mk.injEq .. ▸ Option.some.inj h
      exact effect_checkQueue formed
    · simp only [tryMatch, htimer] at h
      simp only [action, htimer]
      exact effect_fillRoom h
    · simp [tryMatch, htimer] at h
  | cleanupExpired now order =>
    dsimp only at h
    split at h
    · split at h
      · obtain ⟨rfl, rfl⟩ := Prod.mk.injEq .. ▸ Option.some.inj h
        exact .quiet rfl (SessionManager.quiet_cleanupExpired _ _ _) (noStart_of_eq rfl)
      · cases h
    · cases h
  | worker i event => exact quiet_workerStep h

/-! ### The session tables of the server -/

theorem tables_setCurrentRoom {m : SessionManager σ} (h : SessionManager.Tables m)
    (sid : SessionId) (r : RoomId) : SessionManager.Tables (m.setCurrentRoom sid r) := by
  unfold SessionManager.setCurrentRoom
  split
  · exact h
  · rename_i s hs
    apply h.update hs <;> rfl

theorem tables_kicked {m : SessionManager σ} (h : SessionManager.Tables m) (player : PlayerRecord)
    (st : σ) : SessionManager.Tables (kicked m player st) ∧
      (kicked m player st).playerMap.lookup player.id = none :=
  ((Quiet.store m st).tables h).kickDuplicate player.id

omit [FloatOps F] in
/-- Where a login comes from. -/
theorem frame_of_login {e : ServerEvent F} {connId : ConnectionId} {player : PlayerRecord} {st : σ}
    {env : Env} (ha : action pb g e = some (.login connId player st env)) :
    ∃ loop frame username password, e = .frame loop connId frame env ∧
      handlers.lookup frame.messageId = some .login ∧
      pb.loginRequest frame.payload = some (username, password) ∧
      SessionManager.authenticate g.sessions.store username password = some (.ok player, st) := by
  unfold action at ha
  split at ha
  · rename_i loop conn frame env'
    split at ha
    · rename_i hl
      obtain ⟨⟨username, password⟩, hreq, hauth⟩ := Option.bind_eq_some_iff.mp ha
      split at hauth
      · rename_i player' st' hauth'
        obtain ⟨rfl, rfl, rfl, rfl⟩ := Action.login.injEq .. ▸ Option.some.inj hauth
        exact ⟨loop, frame, username, password, rfl, hl, hreq, hauth'⟩
      · cases hauth
    · obtain ⟨s, -, hrest⟩ := Option.bind_eq_some_iff.mp ha
      obtain ⟨room, -, heq⟩ := Option.map_eq_some_iff.mp hrest
      cases heq
    · obtain ⟨p, -, heq⟩ := Option.map_eq_some_iff.mp ha
      cases heq
    · cases ha
  · split at ha
    · unfold checkAction at ha
      split at ha <;> cases ha
    · unfold fillAction at ha
      split at ha
      · split at ha
        · obtain ⟨s, -, hrest⟩ := Option.bind_eq_some_iff.mp ha
          obtain ⟨room, -, heq⟩ := Option.map_eq_some_iff.mp hrest
          cases heq
        · cases ha
      · cases ha
    · cases ha
  · cases ha

omit [FloatOps F] in
/-- After the kick, the id of a login is not in use. -/
theorem fresh_login {e : ServerEvent F} {connId : ConnectionId} {player : PlayerRecord} {st : σ}
    {env : Env} (ha : action pb g e = some (.login connId player st env))
    (hf : fresh pb g e = true) : (kicked g.sessions player st).sessions.lookup env.sid = none := by
  obtain ⟨loop, frame, username, password, rfl, hl, hreq, hauth⟩ := frame_of_login ha
  simp only [fresh, hl, hreq, SessionManager.freshId] at hf
  rw [hauth] at hf
  exact Option.isNone_iff_eq_none.mp hf

theorem tables_step {e : ServerEvent F × ServerOut F} (h : SessionManager.Tables g.sessions)
    (hstep : Steps pb g e g') : SessionManager.Tables g'.sessions := by
  have heff := step_effect hstep.1
  generalize ha : action pb g e.1 = a at heff
  cases heff with
  | quiet rooms sessions battle => exact sessions.tables h
  | @login connId player st env rooms sessions battle =>
    obtain ⟨hkick, hnone⟩ := tables_kicked h player st
    rw [sessions]
    exact (SessionManager.quiet_setState _ _ _).tables
      (hkick.createSession (fresh_login ha hstep.2) hnone _ _)
  | enter session found rooms sessions battle =>
    rw [sessions]
    split
    · exact tables_setCurrentRoom h _ _
    · exact h
  | ready found waiting rooms sessions battle => exact sessions ▸ h
  | start found allReady rooms sessions table workers enqueued => exact sessions.tables h
  | form rooms sessions battle => exact sessions.tables h
  | seat session found rooms sessions battle =>
    rw [sessions]
    exact tables_setCurrentRoom
      (((Quiet.store _ _).trans (SessionManager.quiet_setState _ _ _)).tables h) _ _

/-! ### Runs -/

omit [FloatOps F] in
omit [Storage σ] in
theorem tables_init (store : σ) (roomSize : ℤ) :
    SessionManager.Tables (init store roomSize : GameServer σ F).sessions :=
  ⟨(SessionManager.tables_init store).own, (SessionManager.tables_init store).players,
    (SessionManager.tables_init store).conns⟩

variable (pb) in
/-- Run the events, as long as the generated session ids are fresh. -/
def exec (g : GameServer σ F) (es : List (ServerEvent F)) :
    Option (GameServer σ F × List (ServerEvent F × ServerOut F)) :=
  Transition.exec (fun g e => if fresh pb g e then step pb g e else none) g es

theorem run_of_exec {es : List (ServerEvent F)} {as : List (ServerEvent F × ServerOut F)}
    (h : exec pb g es = some (g', as)) : Transition.Run (Steps pb) g as g' := by
  refine (Transition.run_of_exec h).mono fun g e g' hstep => ?_
  split at hstep
  · rename_i hfresh
    exact ⟨hstep, hfresh⟩
  · cases hstep

end GameServer

end MiniArena
