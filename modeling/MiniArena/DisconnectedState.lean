/-
MiniArena/DisconnectedState.lean

How a session leaves the state DISCONNECTED.

It should be left by a reconnect or with the session.  But `setState` asks
nothing, and matchmaking, the start and the end of a battle and the match
handlers call it for every player of a group: a player who has lost the
connection is IN_ROOM, IN_BATTLE or IN_LOBBY again without having come back,
and `tryReconnect` then refuses the session.

`Tracked` is the server with the set of the sessions that are away: marked
by `markDisconnected`, and neither reconnected nor removed since.
`keptAway_run_iff` says which runs keep all of them DISCONNECTED: those whose
groups contain no player with a DISCONNECTED session.
-/
import MiniArena.BattleStart

namespace MiniArena

variable {F : Type} [FloatOps F] {σ : Type} [Storage σ]

namespace SessionManager

variable {m m' m₁ m₂ m₃ : SessionManager σ}

/-! ### DISCONNECTED sessions under the operations -/

/-- The session is there and DISCONNECTED. -/
def Away (m : SessionManager σ) (sid : SessionId) : Prop :=
  ∃ s, m.sessions.lookup sid = some s ∧ s.state = .disconnected

omit [Storage σ] in
theorem away_congr (h : m'.sessions = m.sessions) (a : SessionId) : Away m' a ↔ Away m a := by
  rw [Away, h, Away]

omit [Storage σ] in
theorem away_insert {sid : SessionId} {q : Session} (h : m'.sessions = m.sessions.insert sid q)
    (a : SessionId) : Away m' a ↔ if a = sid then q.state = .disconnected else Away m a := by
  rw [Away, h, Finmap.lookup_insert_eq]
  split
  · simp
  · rfl

omit [Storage σ] in
theorem away_erase {sid : SessionId} (h : m'.sessions = m.sessions.erase sid) (a : SessionId) :
    Away m' a ↔ Away m a ∧ a ≠ sid := by
  rw [Away, h, Finmap.lookup_erase_eq]
  split
  · rename_i heq
    simp [heq]
  · rename_i hne
    exact (and_iff_left hne).symm

omit [Storage σ] in
theorem Away.mem {a : SessionId} (h : Away m a) : a ∈ m.sessions := by
  obtain ⟨s, hs, -⟩ := h
  exact Finmap.mem_of_lookup_eq_some hs

/-- No session comes or goes, and exactly those in `T` get another state than DISCONNECTED. -/
structure Moves (m m' : SessionManager σ) (T : SessionId → Prop) : Prop where
  tables : Tables m → Tables m'
  players : m'.playerMap = m.playerMap
  mem : ∀ a, a ∈ m'.sessions ↔ a ∈ m.sessions
  away : ∀ a, Away m' a ↔ Away m a ∧ ¬ T a

omit [Storage σ] in
theorem Moves.congr {T T' : SessionId → Prop} (h : Moves m m' T) (hT : ∀ a, T a ↔ T' a) :
    Moves m m' T' :=
  ⟨h.tables, h.players, h.mem, fun a => (h.away a).trans (and_congr_right' (not_congr (hT a)))⟩

omit [Storage σ] in
theorem Moves.trans {T T' : SessionId → Prop} (h : Moves m₁ m₂ T) (h' : Moves m₂ m₃ T') :
    Moves m₁ m₃ fun a => T a ∨ T' a where
  tables := fun ht => h'.tables (h.tables ht)
  players := h'.players.trans h.players
  mem := fun a => (h'.mem a).trans (h.mem a)
  away := fun a => by rw [h'.away, h.away, not_or, and_assoc]

omit [Storage σ] in
/-- Followed by something that leaves the states alone. -/
theorem Moves.trans_still {T : SessionId → Prop} (h : Moves m₁ m₂ T)
    (h' : Moves m₂ m₃ fun _ => False) : Moves m₁ m₃ T :=
  (h.trans h').congr fun _ => or_iff_left not_false

omit [Storage σ] in
theorem moves_store (m : SessionManager σ) (st : σ) :
    Moves m { m with store := st } fun _ => False where
  tables := (Quiet.store m st).tables
  players := rfl
  mem := fun _ => Iff.rfl
  away := fun a => (away_congr rfl a).trans (and_iff_left not_false).symm

omit [Storage σ] in
theorem moves_refl (m : SessionManager σ) : Moves m m fun _ => False := moves_store m m.store

omit [Storage σ] in
/-- A session that is there is written back. -/
theorem mem_insert_of_lookup {sid : SessionId} {s q : Session}
    (hs : m.sessions.lookup sid = some s) (a : SessionId) :
    a ∈ m.sessions.insert sid q ↔ a ∈ m.sessions := by
  rw [Finmap.mem_insert, or_iff_right_iff_imp]
  rintro rfl
  exact Finmap.mem_of_lookup_eq_some hs

theorem moves_setState (m : SessionManager σ) (sid : SessionId) {newState : SessionState}
    (hne : newState ≠ .disconnected) : Moves m (m.setState sid newState) (· = sid) := by
  rcases hs : m.sessions.lookup sid with - | s
  · rw [SessionManager.setState, hs]
    refine ⟨id, rfl, fun _ => Iff.rfl, fun a => (and_iff_left_of_imp ?_).symm⟩
    rintro ⟨s, hs', -⟩ rfl
    cases hs.symm.trans hs'
  · have htables := (quiet_setState m sid newState).tables
    rw [SessionManager.setState, hs] at htables ⊢
    -- the session that is set is not away any more, the others are as before
    refine ⟨htables, rfl, mem_insert_of_lookup hs, fun a => ?_⟩
    rw [away_insert (m := m) rfl]
    split
    · rename_i heq
      simp [heq, hne]
    · rename_i hne'
      simp [hne']

omit [Storage σ] in
/-- A session is written back with its state. -/
theorem moves_insert {sid : SessionId} {s q : Session} (hs : m.sessions.lookup sid = some s)
    (h : m'.sessions = m.sessions.insert sid q) (hstate : q.state = s.state)
    (htables : Tables m → Tables m') (hp : m'.playerMap = m.playerMap) :
    Moves m m' fun _ => False where
  tables := htables
  players := hp
  mem := fun a => h ▸ mem_insert_of_lookup hs a
  away := by
    intro a
    rw [away_insert h, not_false_iff, and_true]
    split
    · rename_i heq
      rw [hstate, heq, Away, hs]
      simp
    · rfl

theorem moves_setCurrentRoom (m : SessionManager σ) (sid : SessionId) (r : RoomId) :
    Moves m (m.setCurrentRoom sid r) fun _ => False := by
  have htables := fun h : Tables m => GameServer.tables_setCurrentRoom h sid r
  unfold SessionManager.setCurrentRoom at htables ⊢
  split
  · exact moves_refl m
  · rename_i s hs
    rw [hs] at htables
    exact moves_insert hs rfl rfl htables rfl

omit [Storage σ] in
theorem moves_setMatchMode (m : SessionManager σ) (sid : SessionId) (mode : ℤ) :
    Moves m (m.setMatchMode sid mode) fun _ => False := by
  have htables := (quiet_setMatchMode m sid mode).tables
  unfold SessionManager.setMatchMode at htables ⊢
  split
  · exact moves_refl m
  · rename_i s hs
    rw [hs] at htables
    exact moves_insert hs rfl rfl htables rfl

omit [Storage σ] in
theorem moves_heartbeat (m : SessionManager σ) (sid : SessionId) (now : ℤ) :
    Moves m (m.heartbeat sid now) fun _ => False := by
  have htables := (quiet_heartbeat m sid now).tables
  unfold SessionManager.heartbeat at htables ⊢
  split
  · exact moves_refl m
  · rename_i s hs
    rw [hs] at htables
    exact moves_insert hs rfl rfl htables rfl

/-! ### Groups of players -/

omit [Storage σ] in
theorem playerMap_eq (ht : Tables m) (pid : PlayerId) :
    m.playerMap.lookup pid = (m.getByPlayer pid).map Session.sessionId := by
  rcases hs : m.getByPlayer pid with - | s
  · rcases hp : m.playerMap.lookup pid with - | sid
    · rfl
    · obtain ⟨s, hs', rfl⟩ := ht.players.sound pid sid hp
      cases hs.symm.trans (getByPlayer_of_lookup ht hs')
  · obtain ⟨hlook, rfl⟩ := lookup_of_getByPlayer ht hs
    exact ht.players.lookup hlook

/-- The session of a player gets another state than DISCONNECTED. -/
theorem moves_setState_player (ht : Tables m) {pid : PlayerId} {s : Session}
    (hs : m.getByPlayer pid = some s) {newState : SessionState} (hne : newState ≠ .disconnected) :
    Moves m (m.setState s.sessionId newState) fun a => m.playerMap.lookup pid = some a := by
  refine (moves_setState m s.sessionId hne).congr fun a => ?_
  rw [playerMap_eq ht, hs, Option.map_some, Option.some_inj, eq_comm]

omit [Storage σ] in
/-- Nothing is done for a player without a session. -/
theorem moves_absent (ht : Tables m) {pid : PlayerId} (hs : m.getByPlayer pid = none) :
    Moves m m fun a => m.playerMap.lookup pid = some a := by
  refine (moves_refl m).congr fun a => ?_
  rw [playerMap_eq ht, hs]
  simp

theorem moves_joinQueue (ht : Tables m) {pid : PlayerId} {mode err : ℤ}
    (h : GameServer.joinQueue m pid mode = some (m', err)) :
    Moves m m' fun a => m.playerMap.lookup pid = some a := by
  obtain ⟨s, hs, hrest⟩ := Option.bind_eq_some_iff.mp h
  obtain ⟨s', -, heq⟩ := Option.map_eq_some_iff.mp hrest
  obtain ⟨rfl, -⟩ := Prod.mk.injEq .. ▸ heq
  have hpushed := moves_store m (RedisClient.pushMatchQueue mode pid m.store)
  refine ((hpushed.trans (moves_setState_player (hpushed.tables ht) hs ?_)).congr fun a => ?_).trans_still
    (moves_setMatchMode _ _ _)
  · simp
  · exact or_iff_right not_false

theorem moves_leaveQueue (ht : Tables m) (pid : PlayerId) :
    Moves m (GameServer.leaveQueue m pid) fun a => m.playerMap.lookup pid = some a := by
  unfold GameServer.leaveQueue
  split
  · rename_i hs
    exact moves_absent ht hs
  · rename_i s hs
    exact (moves_setState_player ht hs (by simp)).trans_still (moves_setMatchMode _ _ _)

theorem moves_enterBattle (ht : Tables m) (pid : PlayerId) :
    Moves m (BattleManager.enterBattle m pid) fun a => m.playerMap.lookup pid = some a := by
  unfold BattleManager.enterBattle
  split
  · rename_i hs
    exact moves_absent ht hs
  · rename_i s hs
    exact moves_setState_player ht hs (by simp)

theorem moves_leaveBattle (ht : Tables m) (r : RoomId) (pid : PlayerId) :
    Moves m (BattleManager.leaveBattle r m pid) fun a => m.playerMap.lookup pid = some a := by
  unfold BattleManager.leaveBattle
  refine Moves.trans_still ?_ (moves_store _ _)
  split
  · rename_i hs
    exact moves_absent ht hs
  · rename_i s hs
    exact (moves_setState_player ht hs (by simp)).trans_still (moves_setCurrentRoom _ _ _)

omit [Storage σ] in
/-- **A loop over a group.** -/
theorem moves_foldl {f : SessionManager σ → PlayerId → SessionManager σ}
    (hf : ∀ m pid, Tables m → Moves m (f m pid) fun a => m.playerMap.lookup pid = some a)
    (ht : Tables m) (order : List PlayerId) :
    Moves m (order.foldl f m) fun a => ∃ pid ∈ order, m.playerMap.lookup pid = some a := by
  induction order generalizing m with
  | nil => exact (moves_refl m).congr (by simp)
  | cons pid order ih =>
    have hone := hf m pid ht
    refine (hone.trans (ih (hone.tables ht))).congr fun a => ?_
    rw [hone.players, List.exists_mem_cons_iff]

/-! ### One step -/

/-- **What a step does to the DISCONNECTED sessions**: those of the group get
another state, one may be reconnected, one kicked, some removed, and one
marked. -/
structure AwayStep (m m' : SessionManager σ) (group : Finset PlayerId)
    (returned kicked marked : Option SessionId) : Prop where
  away : ∀ a, Away m' a ↔
    (Away m a ∧ a ∈ m'.sessions ∧ returned ≠ some a ∧ kicked ≠ some a ∧
      ∀ pid ∈ group, m.playerMap.lookup pid ≠ some a) ∨ marked = some a
  alone : group = ∅ ∨
    (returned = none ∧ kicked = none ∧ marked = none ∧ ∀ a, a ∈ m'.sessions ↔ a ∈ m.sessions)

omit [Storage σ] in
theorem Moves.awayStep {group : Finset PlayerId}
    (h : Moves m m' fun a => ∃ pid ∈ group, m.playerMap.lookup pid = some a) :
    AwayStep m m' group none none none where
  away := by
    intro a
    rw [h.away, h.mem]
    constructor
    · rintro ⟨haway, hno⟩
      refine Or.inl ⟨haway, haway.mem, by simp, by simp, fun pid hpid heq => hno ⟨pid, hpid, heq⟩⟩
    · rintro (⟨haway, -, -, -, hno⟩ | hm)
      · exact ⟨haway, fun ⟨pid, hpid, heq⟩ => hno pid hpid heq⟩
      · cases hm
  alone := Or.inr ⟨rfl, rfl, rfl, h.mem⟩

omit [Storage σ] in
theorem Moves.awayStep_still (h : Moves m m' fun _ => False) : AwayStep m m' ∅ none none none :=
  (h.congr (by simp)).awayStep

theorem awayStep_markDisconnected (ht : Tables m) (connId : ConnectionId) (now : ℤ) :
    AwayStep m (m.markDisconnected connId now) ∅ none none
      ((m.getByConn connId).map Session.sessionId) := by
  rcases hconn : m.getByConn connId with - | s
  · rw [GameServer.markDisconnected_of_none now hconn]
    exact (moves_refl m).awayStep_still
  · -- the session on the connection is written back DISCONNECTED
    obtain ⟨sid, hsid, hs⟩ := Option.bind_eq_some_iff.mp hconn
    have hs' : m.sessions.lookup sid = some s := hs
    obtain rfl := ht.own sid s hs'
    refine ⟨fun a => ?_, Or.inl rfl⟩
    have heq : m.markDisconnected connId now =
        m.save s.sessionId { s with state := .disconnected, lastActive := now } := by
      simp [SessionManager.markDisconnected, hsid, hs']
    rw [heq, @away_insert σ m _ s.sessionId { s with state := .disconnected, lastActive := now } rfl]
    have hmem : a ∈ (m.save s.sessionId { s with state := .disconnected, lastActive := now }).sessions ↔
        a ∈ m.sessions := mem_insert_of_lookup hs' a
    by_cases ha : a = s.sessionId
    · simp [ha]
    · rw [if_neg ha, hmem]
      constructor
      · exact fun h => Or.inl ⟨h, h.mem, by simp, by simp, by simp⟩
      · rintro (⟨h, -⟩ | h)
        · exact h
        · exact absurd (Option.some.inj h).symm ha

/-- Sessions are removed, and nothing else. -/
def Fewer (m m' : SessionManager σ) : Prop :=
  ∀ a, m'.sessions.lookup a = none ∨ m'.sessions.lookup a = m.sessions.lookup a

omit [Storage σ] in
theorem Fewer.refl (m : SessionManager σ) : Fewer m m := fun _ => Or.inr rfl

omit [Storage σ] in
theorem Fewer.trans (h : Fewer m₁ m₂) (h' : Fewer m₂ m₃) : Fewer m₁ m₃ := by
  intro a
  rcases h' a with hnone | heq
  · exact Or.inl hnone
  · rw [heq]
    exact h a

theorem fewer_dropSession (m : SessionManager σ) (sid : SessionId) (s : Session) :
    Fewer m (m.dropSession sid s) := by
  intro a
  show (m.sessions.erase sid).lookup a = none ∨ (m.sessions.erase sid).lookup a = _
  rw [Finmap.lookup_erase_eq]
  split
  · exact Or.inl rfl
  · exact Or.inr rfl

theorem fewer_cleanupExpired (m : SessionManager σ) (now : ℤ) (order : List SessionId) :
    Fewer m (m.cleanupExpired now order) :=
  cleanupExpired_induction (fun m sid s _ h => h.trans (fewer_dropSession m sid s)) (Fewer.refl m)
    now order

omit [Storage σ] in
theorem Fewer.away (h : Fewer m m') (a : SessionId) : Away m' a ↔ Away m a ∧ a ∈ m'.sessions := by
  constructor
  · intro haway
    refine ⟨?_, haway.mem⟩
    obtain ⟨s, hs, hstate⟩ := haway
    rcases h a with hnone | heq
    · cases hs.symm.trans hnone
    · exact ⟨s, heq ▸ hs, hstate⟩
  · rintro ⟨⟨s, hs, hstate⟩, hmem⟩
    rcases h a with hnone | heq
    · exact absurd hmem (Finmap.lookup_eq_none.mp hnone)
    · exact ⟨s, heq.trans hs, hstate⟩

omit [Storage σ] in
theorem Fewer.awayStep (h : Fewer m m') : AwayStep m m' ∅ none none none := by
  refine ⟨fun a => ?_, Or.inl rfl⟩
  rw [h.away]
  simp

theorem awayStep_tryReconnect (m : SessionManager σ) (sid : SessionId) (newConnId : ConnectionId)
    (now restored : ℤ) :
    AwayStep m (m.tryReconnect sid newConnId now restored).1 ∅
      (if (m.tryReconnect sid newConnId now restored).2.errorCode = 0 then some sid else none)
      none none := by
  rcases tryReconnect_cases m sid newConnId now restored with
    ⟨-, result, hfail, heq⟩ | ⟨s, hs, -, ⟨-, heq⟩ | ⟨-, heq⟩⟩
  · rw [heq, if_neg hfail]
    exact (Fewer.refl m).awayStep
  · rw [heq]
    exact (fewer_dropSession m sid s).awayStep
  · -- it succeeds: the session is back, whatever it was
    rw [heq]
    refine ⟨fun a => ?_, Or.inl rfl⟩
    rw [@away_insert σ m _ sid (reconnected s newConnId restored) rfl]
    show _ ↔ (_ ∧ a ∈ m.sessions.insert sid _ ∧ some sid ≠ some a ∧ _) ∨ _
    rw [mem_insert_of_lookup hs]
    by_cases ha : a = sid
    · simp [ha, reconnected]
    · simp only [if_neg ha, ne_eq, Option.some_inj, Ne.symm ha, not_false_eq_true, reduceCtorEq,
        Finset.notMem_empty, false_implies, implies_true, and_true, or_false]
      exact (and_iff_left_of_imp Away.mem).symm

theorem away_kicked (ht : Tables m) (player : PlayerRecord) (st : σ) (a : SessionId) :
    Away (GameServer.kicked m player st) a ↔
      Away m a ∧ m.playerMap.lookup player.id ≠ some a := by
  have hstore : Tables ({ m with store := st } : SessionManager σ) := (Quiet.store m st).tables ht
  rcases kickDuplicate_eq hstore player.id with ⟨hnone, heq⟩ | ⟨old, s, hold, -, -, heq⟩
  · have hnone' : m.playerMap.lookup player.id = none := hnone
    rw [GameServer.kicked, heq, hnone']
    exact (and_iff_left (by simp)).symm
  · have hold' : m.playerMap.lookup player.id = some old := hold
    rw [GameServer.kicked, heq, hold', away_erase (m := m) rfl, ne_eq, ne_eq, Option.some_inj,
      eq_comm]

/-- A login kicks the player's session; the new session is IN_LOBBY. -/
theorem awayStep_loggedIn (ht : Tables m) {connId : ConnectionId} {player : PlayerRecord} {st : σ}
    {env : Env} (hfresh : (GameServer.kicked m player st).sessions.lookup env.sid = none) :
    AwayStep m (GameServer.loggedIn m connId player st env) ∅ none
      ((m.getByPlayer player.id).map Session.sessionId) none := by
  have hmoves := @moves_setState σ _
    ((GameServer.kicked m player st).createSession connId player env.sid env.now) env.sid
    .inLobby (by simp)
  -- a session id that is not in use is not away
  have hnew : ¬ Away (GameServer.kicked m player st) env.sid :=
    fun haway => Finmap.lookup_eq_none.mp hfresh haway.mem
  have haway : ∀ a, Away (GameServer.loggedIn m connId player st env) a ↔
      Away (GameServer.kicked m player st) a := by
    intro a
    rw [GameServer.loggedIn, hmoves.away,
      away_insert (q := newSession connId player env.sid env.now) rfl]
    by_cases ha : a = env.sid
    · rw [ha]
      exact iff_of_false (fun h => h.2 rfl) hnew
    · rw [if_neg ha]
      exact and_iff_left ha
  refine ⟨fun a => ?_, Or.inl rfl⟩
  rw [haway, away_kicked ht, playerMap_eq ht]
  constructor
  · rintro ⟨hm, hne⟩
    refine Or.inl ⟨hm, ?_, by simp, hne, by simp⟩
    exact ((haway a).mpr ((away_kicked ht player st a).mpr ⟨hm, playerMap_eq ht player.id ▸ hne⟩)).mem
  · rintro (⟨hm, -, -, hne, -⟩ | h)
    · exact ⟨hm, hne⟩
    · cases h

end SessionManager

/-! ### The server -/

namespace GameServer

/-- `BattleManager::endBattle` with the server's managers. -/
def endBattle (g : GameServer σ F) (r : RoomId) (order : List PlayerId) :
    Option (GameServer σ F × List (Send EndNotify) × List (Enqueued F)) :=
  if ∀ room ∈ g.rooms.getRoom r, (order : Multiset PlayerId) = room.players.keys.val then
    let (battle, rooms, m, sends, ops) := g.battle.endBattle r g.rooms g.sessions order
    some ({ g with battle := battle, rooms := rooms, sessions := m }, sends, ops)
  else none

end GameServer

/-- An event of the server, or a call of `endBattle`. -/
inductive FullEvent (F : Type)
  | server (e : ServerEvent F)
  | endBattle (r : RoomId) (order : List PlayerId)

namespace GameServer

variable (pb : Protobuf F) {g g' : GameServer σ F}

def fullStep (g : GameServer σ F) : FullEvent F → Option (GameServer σ F)
  | .server e => (step pb g e).map fun p => p.1
  | .endBattle r order => (g.endBattle r order).map fun p => p.1

def fullFresh (g : GameServer σ F) : FullEvent F → Bool
  | .server e => fresh pb g e
  | .endBattle _ _ => true

/-- The session `markDisconnected` marks. -/
def marked (g : GameServer σ F) : FullEvent F → Option SessionId
  | .server (.disconnect connId _) => (g.sessions.getByConn connId).map Session.sessionId
  | _ => none

/-- The session for which `tryReconnect` succeeds. -/
def returned (g : GameServer σ F) : FullEvent F → Option SessionId
  | .server (.frame _ connId frame env) =>
      match handlers.lookup frame.messageId with
      | some .reconnect =>
          (pb.reconnectRequest frame.payload).bind fun sid =>
            if (g.sessions.tryReconnect sid connId env.now env.later).2.errorCode = 0 then some sid
            else none
      | _ => none
  | _ => none

/-- The session a login kicks. -/
def kickedBy (g : GameServer σ F) : FullEvent F → Option SessionId
  | .server (.frame _ connId frame env) =>
      match handlers.lookup frame.messageId with
      | some .login =>
          match g.loginAction pb connId frame env with
          | some (.login _ player _ _) => (g.sessions.getByPlayer player.id).map Session.sessionId
          | _ => none
      | _ => none
  | _ => none

/-- `joinQueue` and `leaveQueue`. -/
def queueGroup (g : GameServer σ F) (connId : ConnectionId) : Finset PlayerId :=
  match g.sessions.getByConn connId with
  | none => ∅
  | some s => {s.playerId}

/-- `startBattle`. -/
def startGroup (g : GameServer σ F) (connId : ConnectionId) : Finset PlayerId :=
  match g.currentRoom connId with
  | none => ∅
  | some (s, room) => if (room.playerReady s.playerId).allReady then room.players.keys else ∅

/-- `tryMatch`. -/
def seatGroup : Option (Action σ) → Finset PlayerId
  | some (.seat pid _ _ _) => {pid}
  | _ => ∅

def endGroup (g : GameServer σ F) (r : RoomId) : Finset PlayerId :=
  match g.battle.roomToWorker.lookup r, g.rooms.getRoom r with
  | some _, some room => room.players.keys
  | _, _ => ∅

/-- The players whose sessions get another state than DISCONNECTED. -/
def group (g : GameServer σ F) : FullEvent F → Finset PlayerId
  | .server (.frame _ connId frame _) =>
      match handlers.lookup frame.messageId with
      | some .matchStart => g.queueGroup connId
      | some .matchCancel => g.queueGroup connId
      | some .playerReady => g.startGroup connId
      | _ => ∅
  | .server .tryMatch => seatGroup (action pb g .tryMatch)
  | .server _ => ∅
  | .endBattle r _ => g.endGroup r

open SessionManager (AwayStep Moves Fewer moves_refl)

/-- What the event does to the DISCONNECTED sessions. -/
def AwayEffect (g : GameServer σ F) (e : FullEvent F) (m' : SessionManager σ) : Prop :=
  AwayStep g.sessions m' (group pb g e) (returned pb g e) (kickedBy pb g e) (marked g e)

variable {pb}

section Handlers

variable {connId : ConnectionId} {frame : Frame} {env : Env} {out : ServerOut F}

omit [FloatOps F] in
theorem awayStep_login (ht : SessionManager.Tables g.sessions)
    (hfresh : ∀ player st, g.loginAction pb connId frame env = some (.login connId player st env) →
      (kicked g.sessions player st).sessions.lookup env.sid = none)
    (h : g.login pb connId frame env = some (g', out)) :
    AwayStep g.sessions g'.sessions ∅ none
      (match g.loginAction pb connId frame env with
        | some (.login _ player _ _) => (g.sessions.getByPlayer player.id).map Session.sessionId
        | _ => none) none := by
  unfold login at h
  unfold loginAction at hfresh ⊢
  rcases hreq : pb.loginRequest frame.payload with - | ⟨username, password⟩
  · simp only [hreq] at h
    obtain ⟨rfl, -⟩ := Prod.mk.injEq .. ▸ Option.some.inj h
    exact (moves_refl _).awayStep_still
  · simp only [hreq, SessionManager.login, Option.map_map] at h
    obtain ⟨⟨e, st⟩, hauth, heq⟩ := Option.map_eq_some_iff.mp h
    obtain ⟨rfl, -⟩ := Prod.mk.injEq .. ▸ heq
    simp only [hreq, Option.bind_some, hauth] at hfresh ⊢
    cases e with
    | error msg => exact (SessionManager.moves_store g.sessions st).awayStep_still
    | ok player => exact SessionManager.awayStep_loggedIn ht (hfresh player st rfl)

omit [Storage σ] in
/-- A group of one. -/
theorem awayStep_single {m m' : SessionManager σ} {pid : PlayerId}
    (h : Moves m m' fun a => m.playerMap.lookup pid = some a) :
    AwayStep m m' {pid} none none none :=
  (h.congr fun a => by simp).awayStep

omit [FloatOps F] in
theorem awayStep_matchStart (ht : SessionManager.Tables g.sessions)
    (h : g.matchStart pb connId frame = some (g', out)) :
    AwayStep g.sessions g'.sessions (g.queueGroup connId) none none none := by
  unfold matchStart at h
  unfold queueGroup
  rcases hconn : g.sessions.getByConn connId with - | s
  · simp only [hconn] at h
    obtain ⟨rfl, -⟩ := Prod.mk.injEq .. ▸ Option.some.inj h
    exact (moves_refl _).awayStep_still
  · simp only [hconn] at h
    obtain ⟨⟨m, err⟩, hjoin, heq⟩ := Option.map_eq_some_iff.mp h
    obtain ⟨rfl, -⟩ := Prod.mk.injEq .. ▸ heq
    exact awayStep_single (SessionManager.moves_joinQueue ht hjoin)

omit [FloatOps F] in
theorem awayStep_matchCancel (ht : SessionManager.Tables g.sessions) (connId : ConnectionId) :
    AwayStep g.sessions (g.matchCancel connId).sessions (g.queueGroup connId) none none none := by
  unfold matchCancel queueGroup
  rcases g.sessions.getByConn connId with - | s
  · exact (moves_refl _).awayStep_still
  · exact awayStep_single (SessionManager.moves_leaveQueue ht s.playerId)

omit [FloatOps F] in
theorem awayStep_enterRoom :
    AwayStep g.sessions (g.enterRoom pb connId frame).1.sessions ∅ none none none := by
  unfold enterRoom
  dsimp only
  split
  · exact (moves_refl _).awayStep_still
  · split
    · exact (moves_refl _).awayStep_still
    · split
      · exact (SessionManager.moves_setCurrentRoom _ _ _).awayStep_still
      · exact (moves_refl _).awayStep_still

theorem awayStep_playerReady (ht : SessionManager.Tables g.sessions)
    (h : g.playerReady connId env = some (g', out)) :
    AwayStep g.sessions g'.sessions (g.startGroup connId) none none none := by
  unfold playerReady at h
  unfold startGroup
  rcases hroom : g.currentRoom connId with - | ⟨s, room⟩
  · simp only [hroom] at h
    obtain ⟨rfl, -⟩ := Prod.mk.injEq .. ▸ Option.some.inj h
    exact (moves_refl _).awayStep_still
  · simp only [hroom] at h ⊢
    split at h
    · rename_i hready
      rw [if_pos hready]
      split at h
      · rename_i horder
        obtain ⟨rfl, -⟩ := Prod.mk.injEq .. ▸ Option.some.inj h
        refine ((SessionManager.moves_foldl (fun m pid hm => SessionManager.moves_enterBattle hm pid)
          ht env.order).congr fun a => ?_).awayStep
        -- the loop of `startBattle` visits every member of the room
        refine exists_congr fun pid => and_congr_left fun _ => ?_
        rw [← Multiset.mem_coe, horder, Finset.mem_val, Room.keys_playerReady]
      · cases h
    · rename_i hready
      rw [if_neg hready]
      obtain ⟨rfl, -⟩ := Prod.mk.injEq .. ▸ Option.some.inj h
      exact (moves_refl _).awayStep_still

omit [Storage σ] in
theorem awayStep_command (request : Option (Command F → Command F)) :
    AwayStep g.sessions (g.command connId frame request).sessions ∅ none none none := by
  unfold command
  split
  · split
    · exact (moves_refl _).awayStep_still
    · exact (moves_refl _).awayStep_still
  · exact (moves_refl _).awayStep_still

omit [FloatOps F] in
theorem awayStep_reconnect :
    AwayStep g.sessions (g.reconnect pb connId frame env).1.sessions ∅
      ((pb.reconnectRequest frame.payload).bind fun sid =>
        if (g.sessions.tryReconnect sid connId env.now env.later).2.errorCode = 0 then some sid
        else none) none none := by
  unfold reconnect
  rcases pb.reconnectRequest frame.payload with - | sid
  · exact (moves_refl _).awayStep_still
  · exact SessionManager.awayStep_tryReconnect g.sessions sid connId env.now env.later

theorem awayEffect_frame {loop : ℕ} (ht : SessionManager.Tables g.sessions)
    (hfresh : fresh pb g (.frame loop connId frame env) = true)
    (h : g.dispatch pb connId frame env = some (g', out)) :
    AwayEffect pb g (.server (.frame loop connId frame env)) g'.sessions := by
  unfold dispatch at h
  unfold AwayEffect
  rcases hl : handlers.lookup frame.messageId with - | handler
  · simp only [hl] at h
    simp only [group, returned, kickedBy, marked, hl]
    obtain ⟨rfl, -⟩ := Prod.mk.injEq .. ▸ Option.some.inj h
    exact (moves_refl _).awayStep_still
  · simp only [hl] at h
    simp only [group, returned, kickedBy, marked, hl]
    cases handler with
    | login =>
      refine awayStep_login ht (fun player st ha => ?_) h
      have haction : action pb g (.frame loop connId frame env) =
          some (.login connId player st env) := by simp only [action, hl, ha]
      exact fresh_login haction hfresh
    | heartbeat =>
      obtain ⟨rfl, -⟩ := Prod.mk.injEq .. ▸ Option.some.inj h
      dsimp only [GameServer.heartbeat]
      split
      · exact (moves_refl _).awayStep_still
      · exact (SessionManager.moves_heartbeat _ _ _).awayStep_still
    | matchStart => exact awayStep_matchStart ht h
    | matchCancel =>
      obtain ⟨rfl, -⟩ := Prod.mk.injEq .. ▸ Option.some.inj h
      exact awayStep_matchCancel ht connId
    | enterRoom =>
      obtain rfl : (g.enterRoom pb connId frame).1 = g' := congrArg Prod.fst (Option.some.inj h)
      exact awayStep_enterRoom
    | playerReady => exact awayStep_playerReady ht h
    | playerMove =>
      obtain ⟨rfl, -⟩ := Prod.mk.injEq .. ▸ Option.some.inj h
      exact awayStep_command _
    | playerAttack =>
      obtain ⟨rfl, -⟩ := Prod.mk.injEq .. ▸ Option.some.inj h
      exact awayStep_command _
    | playerSkill =>
      obtain ⟨rfl, -⟩ := Prod.mk.injEq .. ▸ Option.some.inj h
      exact awayStep_command _
    | reconnect =>
      obtain ⟨rfl, -⟩ := Prod.mk.injEq .. ▸ Option.some.inj h
      exact awayStep_reconnect

end Handlers

variable {out : ServerOut F}

omit [FloatOps F] in
theorem awayStep_checkQueue (formed : ℕ) :
    AwayStep g.sessions (g.checkQueue formed).sessions (seatGroup g.checkAction) none none none := by
  unfold checkQueue checkAction
  rcases RedisClient.matchQueueSize 0 g.sessions.store with ⟨count, st⟩
  dsimp only
  by_cases hc : count < g.roomSize
  · rw [if_pos hc, if_pos hc]
    exact (SessionManager.moves_store g.sessions st).awayStep_still
  · rw [if_neg hc, if_neg hc]
    exact (SessionManager.moves_store g.sessions st).awayStep_still

omit [FloatOps F] in
theorem awayStep_fillRoom (ht : SessionManager.Tables g.sessions) {formed : ℕ} {r : RoomId} {i : ℕ}
    (h : g.fillRoom formed r i = some (g', out)) :
    AwayStep g.sessions g'.sessions (seatGroup (g.fillAction r i)) none none none := by
  unfold fillRoom at h
  unfold fillAction
  split at h
  · rename_i hi
    obtain ⟨⟨popped, st⟩, hpop, hrest⟩ := Option.bind_eq_some_iff.mp h
    rw [if_pos hi, hpop]
    have hst := SessionManager.moves_store g.sessions st
    cases popped with
    | none =>
      obtain ⟨rfl, -⟩ := Prod.mk.injEq .. ▸ Option.some.inj hrest
      exact hst.awayStep_still
    | some pid =>
      dsimp only at hrest ⊢
      rcases hs : g.sessions.getByPlayer pid with - | s
      · have hs' : ({ g.sessions with store := st } : SessionManager σ).getByPlayer pid = none := hs
        rw [hs'] at hrest
        obtain ⟨rfl, -⟩ := Prod.mk.injEq .. ▸ Option.some.inj hrest
        exact hst.awayStep_still
      · have hs' : ({ g.sessions with store := st } : SessionManager σ).getByPlayer pid = some s := hs
        rw [hs'] at hrest
        obtain ⟨room, hroom, heq⟩ := Option.map_eq_some_iff.mp hrest
        obtain ⟨rfl, -⟩ := Prod.mk.injEq .. ▸ heq
        have hroom' : g.rooms.getRoom r = some room := hroom
        rw [Option.bind_some, hroom', Option.map_some]
        -- a player with a session is seated, DISCONNECTED or not
        refine awayStep_single (Moves.trans_still ?_ (SessionManager.moves_setCurrentRoom _ _ _))
        refine (hst.trans (SessionManager.moves_setState_player (hst.tables ht) hs' (by simp))).congr ?_
        exact fun a => or_iff_right not_false
  · rename_i hi
    rw [if_neg hi]
    obtain ⟨rfl, -⟩ := Prod.mk.injEq .. ▸ Option.some.inj h
    exact (moves_refl _).awayStep_still

theorem awayEffect_server (ht : SessionManager.Tables g.sessions) {e : ServerEvent F}
    (hfresh : fresh pb g e = true) (h : step pb g e = some (g', out)) :
    AwayEffect pb g (.server e) g'.sessions := by
  unfold step at h
  cases e with
  | frame loop connId frame env =>
    exact @awayEffect_frame F _ σ _ pb { g with connToLoop := g.connToLoop.insert connId loop } g'
      connId frame env out loop ht hfresh h
  | disconnect connId now =>
    have hdisc : g.onDisconnect connId now = (g', out) := Option.some.inj h
    rw [onDisconnect_eq] at hdisc
    obtain ⟨rfl, -⟩ := Prod.mk.injEq .. ▸ hdisc
    exact SessionManager.awayStep_markDisconnected ht connId now
  | timerWakes =>
    dsimp only at h
    split at h
    · obtain ⟨rfl, -⟩ := Prod.mk.injEq .. ▸ Option.some.inj h
      exact (moves_refl _).awayStep_still
    · cases h
  | tryMatch =>
    rcases htimer : g.timer with - | formed | ⟨formed, r, i⟩ | -
    · simp [tryMatch, htimer] at h
    · simp only [tryMatch, htimer] at h
      simp only [AwayEffect, group, action, htimer]
      obtain ⟨rfl, -⟩ := Prod.mk.injEq .. ▸ Option.some.inj h
      exact awayStep_checkQueue formed
    · simp only [tryMatch, htimer] at h
      simp only [AwayEffect, group, action, htimer]
      exact awayStep_fillRoom ht h
    · simp [tryMatch, htimer] at h
  | cleanupExpired now order =>
    dsimp only at h
    split at h
    · split at h
      · obtain ⟨rfl, -⟩ := Prod.mk.injEq .. ▸ Option.some.inj h
        exact (SessionManager.fewer_cleanupExpired _ _ _).awayStep
      · cases h
    · cases h
  | worker i event =>
    have hs : g'.sessions = g.sessions := by
      simp only [workerStep] at h
      split at h
      · obtain ⟨w, -, hrest⟩ := Option.bind_eq_some_iff.mp h
        obtain ⟨q, -, heq⟩ := Option.map_eq_some_iff.mp hrest
        obtain ⟨rfl, -⟩ := Prod.mk.injEq .. ▸ heq
        rfl
      · cases h
    show AwayStep g.sessions g'.sessions ∅ none none none
    rw [hs]
    exact (moves_refl _).awayStep_still

omit [FloatOps F] in
theorem awayEffect_endBattle (ht : SessionManager.Tables g.sessions) {r : RoomId}
    {order : List PlayerId} {p : GameServer σ F × List (Send EndNotify) × List (Enqueued F)}
    (h : g.endBattle r order = some p) :
    SessionManager.Tables p.1.sessions ∧ AwayEffect pb g (.endBattle r order) p.1.sessions := by
  obtain ⟨horder, heq⟩ := Option.ite_none_right_eq_some.mp h
  obtain rfl := Option.some.inj heq
  show SessionManager.Tables (g.battle.endBattle r g.rooms g.sessions order).2.2.1 ∧
    AwayStep g.sessions (g.battle.endBattle r g.rooms g.sessions order).2.2.1 _ none none none
  show _ ∧ AwayStep g.sessions _ (g.endGroup r) none none none
  unfold endGroup BattleManager.endBattle
  -- without a battle or a room it does nothing
  rcases g.battle.roomToWorker.lookup r with - | i
  · exact ⟨ht, (moves_refl _).awayStep_still⟩
  · rcases hroom : g.rooms.getRoom r with - | room
    · exact ⟨ht, (moves_refl _).awayStep_still⟩
    · have hloop := SessionManager.moves_foldl
        (fun m pid hm => SessionManager.moves_leaveBattle hm r pid) ht order
      refine ⟨hloop.tables ht, (hloop.congr fun a => ?_).awayStep⟩
      -- so does that of `endBattle`
      refine exists_congr fun pid => and_congr_left fun _ => ?_
      rw [← Multiset.mem_coe, horder room hroom, Finset.mem_val]

theorem awayEffect_step (ht : SessionManager.Tables g.sessions) {e : FullEvent F}
    (hfresh : fullFresh pb g e = true) (h : fullStep pb g e = some g') :
    SessionManager.Tables g'.sessions ∧ AwayEffect pb g e g'.sessions := by
  cases e with
  | server e =>
    obtain ⟨⟨g', out⟩, hstep, rfl⟩ := Option.map_eq_some_iff.mp h
    exact ⟨tables_step ht (e := (e, out)) ⟨hstep, hfresh⟩, awayEffect_server ht hfresh hstep⟩
  | endBattle r order =>
    obtain ⟨p, hp, rfl⟩ := Option.map_eq_some_iff.mp h
    exact awayEffect_endBattle ht hp

end GameServer

/-! ### The sessions that are away -/

/-- The server with the sessions that `markDisconnected` has marked and that
are neither reconnected nor removed since. -/
structure Tracked (σ F : Type) where
  server : GameServer σ F
  away : Finset SessionId := ∅

namespace Tracked

open SessionManager (Away)

variable (pb : Protobuf F) {w w' : Tracked σ F} {e : FullEvent F}

def init (store : σ) (roomSize : ℤ) : Tracked σ F where
  server := GameServer.init store roomSize

/-- The sessions away after an event that leads to `g`. -/
def awayAfter (w : Tracked σ F) (e : FullEvent F) (g : GameServer σ F) : Finset SessionId :=
  (w.away.filter fun sid => sid ∈ g.sessions.sessions ∧
    GameServer.returned pb w.server e ≠ some sid ∧ GameServer.kickedBy pb w.server e ≠ some sid) ∪
    (GameServer.marked w.server e).toFinset

def step (w : Tracked σ F) (e : FullEvent F) : Option (Tracked σ F) :=
  (w.server.fullStep pb e).map fun g => ⟨g, w.awayAfter pb e g⟩

def Steps (w : Tracked σ F) (e : FullEvent F) (w' : Tracked σ F) : Prop :=
  w.step pb e = some w' ∧ w.server.fullFresh pb e = true

/-- **Whoever is away is DISCONNECTED**, and no attempt to reconnect is refused with 20003. -/
structure KeptAway (w : Tracked σ F) : Prop where
  state : ∀ sid ∈ w.away, ∃ s, w.server.sessions.sessions.lookup sid = some s ∧
    s.state = .disconnected
  accepted : ∀ sid ∈ w.away, ∀ newConnId now later,
    (w.server.sessions.tryReconnect sid newConnId now later).2.errorCode ≠ 20003

/-- No player of the group has a DISCONNECTED session. -/
def SparesAway (g : GameServer σ F) (e : FullEvent F) : Prop :=
  ∀ pid ∈ GameServer.group pb g e, ∀ s, g.sessions.getByPlayer pid = some s →
    s.state ≠ .disconnected

omit [FloatOps F] in
theorem keptAway_iff : KeptAway w ↔ ∀ sid ∈ w.away, Away w.server.sessions sid := by
  constructor
  · exact fun h => h.state
  · intro h
    refine ⟨h, fun sid hsid newConnId now later => ?_⟩
    obtain ⟨s, hs, hstate⟩ := h sid hsid
    unfold SessionManager.tryReconnect
    simp only [hs, hstate, ne_eq, not_true_eq_false, if_false]
    split
    · simp
    · simp

/-- The tables are sound, and every DISCONNECTED session is away. -/
structure Sound (w : Tracked σ F) : Prop where
  tables : SessionManager.Tables w.server.sessions
  away : ∀ sid, Away w.server.sessions sid → sid ∈ w.away

omit [FloatOps F] [Storage σ] in
theorem sound_init (store : σ) (roomSize : ℤ) : Sound (init store roomSize : Tracked σ F) where
  tables := GameServer.tables_init store roomSize
  away := by
    rintro sid ⟨s, hs, -⟩
    change (∅ : Finmap fun _ : SessionId => Session).lookup sid = some s at hs
    rw [Finmap.lookup_empty] at hs
    cases hs

variable {pb}

omit [FloatOps F] in
theorem sparesAway_iff {g : GameServer σ F} (ht : SessionManager.Tables g.sessions) :
    SparesAway pb g e ↔ ∀ sid, Away g.sessions sid →
      ∀ pid ∈ GameServer.group pb g e, g.sessions.playerMap.lookup pid ≠ some sid := by
  constructor
  · rintro h sid ⟨s, hs, hstate⟩ pid hpid hentry
    obtain ⟨q, hq, hp⟩ := ht.players.sound pid sid hentry
    obtain rfl := Option.some.inj (hs.symm.trans hq)
    exact h pid hpid s (hp ▸ SessionManager.getByPlayer_of_lookup ht hs) hstate
  · intro h pid hpid s hs hstate
    obtain ⟨hlook, -⟩ := SessionManager.lookup_of_getByPlayer ht hs
    apply h s.sessionId ⟨s, hlook, hstate⟩ pid hpid
    rw [SessionManager.playerMap_eq ht, hs, Option.map_some]

theorem step_spec (hs : Sound w) (hstep : Steps pb w e w') :
    SessionManager.Tables w'.server.sessions ∧
      GameServer.AwayEffect pb w.server e w'.server.sessions ∧
      w'.away = w.awayAfter pb e w'.server := by
  obtain ⟨hstep, hfresh⟩ := hstep
  obtain ⟨g, hg, rfl⟩ := Option.map_eq_some_iff.mp hstep
  obtain ⟨ht, heff⟩ := GameServer.awayEffect_step hs.tables hfresh hg
  exact ⟨ht, heff, rfl⟩

omit [FloatOps F] in
theorem mem_awayAfter {g : GameServer σ F} {sid : SessionId} :
    sid ∈ w.awayAfter pb e g ↔
      (sid ∈ w.away ∧ sid ∈ g.sessions.sessions ∧ GameServer.returned pb w.server e ≠ some sid ∧
        GameServer.kickedBy pb w.server e ≠ some sid) ∨
      GameServer.marked w.server e = some sid := by
  rw [awayAfter, Finset.mem_union, Finset.mem_filter, Option.mem_toFinset, Option.mem_def]

theorem sound_step (hs : Sound w) (hstep : Steps pb w e w') : Sound w' := by
  obtain ⟨ht, heff, haway⟩ := step_spec hs hstep
  refine ⟨ht, fun sid h => ?_⟩
  rw [haway, mem_awayAfter]
  refine ((heff.away sid).mp h).imp_left ?_
  rintro ⟨hold, hmem, hr, hk, -⟩
  exact ⟨hs.away sid hold, hmem, hr, hk⟩

/-- **One step.**  If all sessions away are DISCONNECTED, they all are
afterwards exactly if no group has touched one. -/
theorem keptAway_step_iff (hs : Sound w) (h : KeptAway w) (hstep : Steps pb w e w') :
    KeptAway w' ↔ SparesAway pb w.server e := by
  obtain ⟨-, heff, haway⟩ := step_spec hs hstep
  rw [keptAway_iff] at h ⊢
  rw [sparesAway_iff hs.tables, haway]
  constructor
  · intro hkept sid hold pid hpid hentry
    -- a session of the group is there afterwards, and still away
    obtain hempty | ⟨hr, hk, hm, hmem⟩ := heff.alone
    · rw [hempty] at hpid
      exact absurd hpid (Finset.notMem_empty pid)
    · have hin : sid ∈ w.awayAfter pb e w'.server := by
        rw [mem_awayAfter, hr, hk]
        exact Or.inl ⟨hs.away sid hold, (hmem sid).mpr hold.mem, by simp, by simp⟩
      rcases (heff.away sid).mp (hkept sid hin) with ⟨-, -, -, -, hno⟩ | hmarked
      · exact hno pid hpid hentry
      · rw [hm] at hmarked
        cases hmarked
  · intro hspares sid hsid
    rw [heff.away]
    refine (mem_awayAfter.mp hsid).imp_left ?_
    rintro ⟨hold, hmem, hr, hk⟩
    exact ⟨h sid hold, hmem, hr, hk, hspares sid (h sid hold)⟩

omit [FloatOps F] in
theorem keptAway_init (store : σ) (roomSize : ℤ) :
    KeptAway (init store roomSize : Tracked σ F) := by
  rw [keptAway_iff]
  intro sid h
  exact absurd h (Finset.notMem_empty sid)

/-- **DISCONNECTED is left by a reconnect or a removal** in exactly the runs
in which no group contains a player whose session is DISCONNECTED. -/
theorem keptAway_run_iff {store : σ} {roomSize : ℤ} {es : List (FullEvent F)} :
    Transition.Run (fun w e w' => Steps pb w e w' ∧ KeptAway w') (init store roomSize) es w ↔
      Transition.Run (fun w e w' => Steps pb w e w' ∧ SparesAway pb w.server e)
        (init store roomSize) es w :=
  Transition.Run.target_congr (J := Sound) (B := KeptAway)
    (fun _ _ _ hs hstep => sound_step hs hstep)
    (fun _ _ _ hs h hstep => keptAway_step_iff hs h hstep) (sound_init store roomSize)
    (keptAway_init store roomSize)

variable (pb) in
/-- Run the events, as long as the generated session ids are fresh. -/
def exec (w : Tracked σ F) (es : List (FullEvent F)) : Option (Tracked σ F) :=
  es.foldlM (fun w e => if w.server.fullFresh pb e then w.step pb e else none) w

theorem run_of_exec {es : List (FullEvent F)} (h : exec pb w es = some w') :
    Transition.Run (Steps pb) w es w' := by
  refine (Transition.run_of_foldlM h).mono fun w e w' hstep => ?_
  split at hstep
  · rename_i hfresh
    exact ⟨hstep, hfresh⟩
  · cases hstep

/-- Ann asks for a match and loses the connection; the matchmaker comes. -/
def matchedAway : List (FullEvent ℚ) :=
  [.server (GameServer.annSends 1001), .server (GameServer.annSends 2001),
    .server (.disconnect 1 5), .server .timerWakes, .server .tryMatch, .server .tryMatch]

/-- A nanosecond later she asks for the session again, and is refused. -/
theorem refused_matchedAway : ∃ w : Tracked MemoryStore ℚ,
    Transition.Run (Steps GameServer.annRequests) (init {} 1) matchedAway w ∧ 11 ∈ w.away ∧
      (w.server.sessions.tryReconnect 11 2 6 6).2.errorCode = 20003 ∧ ¬ KeptAway w := by
  have hrun : (exec GameServer.annRequests (init ({} : MemoryStore) 1) matchedAway).map (fun w =>
      (decide (11 ∈ w.away), (w.server.sessions.tryReconnect 11 2 6 6).2.errorCode)) =
        some (true, 20003) := by decide +kernel
  obtain ⟨w, hexec, heq⟩ := Option.map_eq_some_iff.mp hrun
  obtain ⟨haway, hcode⟩ := Prod.mk.injEq .. ▸ heq
  have hmem : 11 ∈ w.away := of_decide_eq_true haway
  exact ⟨w, run_of_exec hexec, hmem, hcode, fun h => h.accepted 11 hmem 2 6 6 hcode⟩

end Tracked

end MiniArena
