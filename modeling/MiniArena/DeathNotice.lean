/-
MiniArena/DeathNotice.lean

Who is told that a player has died.

A kill by an attack or by a skill with a single target is handed to the
broadcaster, which calls the send callback once, with the player id 0 for
"all"; a kill by an area skill is not even handed over.  The callback is the
server's: it looks the player 0 up like any other, finds no session, and
sends nothing.  So nobody is told, as `announced_iff` says of every death in
every run.

That no session is one of the player 0 rests on the ids MySQL gives out
(`PositiveIds`).
-/
import MiniArena.BattleStart

namespace MiniArena

variable {F : Type} [FloatOps F] {σ : Type} [Storage σ]

/-! ### Broadcasts to the room go to player 0 -/

namespace TickEngine

variable {bc : Broadcaster (BattlePayload F)}

omit [FloatOps F] in
theorem playerId_deathNotify {target attacker : PlayerId} {deaths : Option ℤ}
    {s : Send (BattlePayload F)} (h : s ∈ deathNotify bc target attacker deaths) :
    s.playerId = 0 := by
  cases deaths with
  | none => cases h
  | some n =>
    rw [deathNotify, Broadcaster.broadcastToRoom] at h
    split at h
    · rw [List.mem_singleton.mp h]
    · cases h

theorem playerId_processAttack {players : Players F} {aid tid : PlayerId} {a t : BattlePlayer F}
    {s : Send (BattlePayload F)} (h : s ∈ (processAttack bc players aid tid a t).2) :
    s.playerId = 0 := by
  unfold processAttack at h
  split at h
  · cases h
  · split at h
    · cases h
    · exact playerId_deathNotify h

theorem playerId_processSkill {players : Players F} {cid tid : PlayerId} {c : BattlePlayer F}
    {t : Option (BattlePlayer F)} {skillId : ℤ} {s : Send (BattlePayload F)}
    (h : s ∈ (processSkill bc players cid tid c t skillId).2) : s.playerId = 0 := by
  unfold processSkill at h
  split at h
  · cases h
  split at h
  · cases h
  split at h
  · cases h
  split at h
  · cases h
  dsimp only at h
  split at h
  · cases h
  split at h
  · cases h
  split at h
  · cases h
  -- the one branch that announces a death
  split at h
  · exact playerId_deathNotify h
  · cases h

theorem playerId_execute {players : Players F} {cmd : Command F} {p : BattlePlayer F}
    {s : Send (BattlePayload F)} (h : s ∈ (execute bc players cmd p).2) : s.playerId = 0 := by
  unfold execute at h
  split at h
  · cases h
  · cases h
  · split at h
    · cases h
    · exact playerId_processAttack h
  · exact playerId_processSkill h
  · cases h

theorem playerId_commands {l : Loop F} (hl : ∀ s ∈ l.sends, s.playerId = 0)
    (cmds : List (Command F)) :
    ∀ s ∈ (cmds.foldl (processCommand bc) l).sends, s.playerId = 0 := by
  induction cmds generalizing l with
  | nil => exact hl
  | cons cmd cmds ih =>
    apply ih
    unfold processCommand
    split
    · exact hl
    · split
      · exact hl
      · dsimp only
        split
        · exact hl
        · intro s hs
          rcases List.mem_append.mp hs with hs | hs
          · exact hl s hs
          · exact playerId_execute hs

end TickEngine

/-! ### No session of player 0 -/

/-- The ids of the players in the database are positive (`AUTO_INCREMENT`). -/
def PositiveIds (σ : Type) [Storage σ] : Prop :=
  ∀ username (st : σ) p, (Storage.getPlayer username st).1 = some p → p.id ≠ 0

namespace SessionManager

variable {m m' : SessionManager σ}

theorem findPlayer_id (hids : PositiveIds σ) {st st' : σ} {username password : String}
    {p : PlayerRecord} (h : findPlayer st username password = some (.ok p, st')) : p.id ≠ 0 := by
  obtain ⟨⟨cachedPid, st₁⟩, -, heq⟩ := Option.map_eq_some_iff.mp h
  rcases hfirst : (if cachedPid.isSome then Storage.getPlayer username st₁ else (none, st₁)) with
    ⟨player, st₂⟩
  simp only [hfirst] at heq
  -- whichever of the three look-ups finds the player, it is a `getPlayer`
  cases player with
  | some q =>
    obtain ⟨hq, -⟩ := Prod.mk.injEq .. ▸ heq
    obtain rfl := Except.ok.inj hq
    split at hfirst
    · exact hids username st₁ q (congrArg Prod.fst hfirst)
    · cases hfirst
  | none =>
    rcases hsecond : Storage.getPlayer username st₂ with ⟨- | q, st₃⟩
    · simp only [hsecond] at heq
      split at heq
      · cases heq
      · rcases hthird : Storage.getPlayer username (RedisClient.cachePlayer username
          (Storage.createPlayer username password st₃).1
          (Storage.createPlayer username password st₃).2) with ⟨- | q, st₄⟩
        · simp only [hthird] at heq
          cases heq
        · simp only [hthird] at heq
          obtain ⟨hq, -⟩ := Prod.mk.injEq .. ▸ heq
          obtain rfl := Except.ok.inj hq
          exact hids username _ q (congrArg Prod.fst hthird)
    · simp only [hsecond] at heq
      obtain ⟨hq, -⟩ := Prod.mk.injEq .. ▸ heq
      obtain rfl := Except.ok.inj hq
      exact hids username st₂ q (congrArg Prod.fst hsecond)

theorem authenticate_id (hids : PositiveIds σ) {st st' : σ} {username password : String}
    {p : PlayerRecord} (h : authenticate st username password = some (.ok p, st')) : p.id ≠ 0 := by
  obtain ⟨⟨e, st₁⟩, hfind, heq⟩ := Option.map_eq_some_iff.mp h
  cases e with
  | error msg => cases heq
  | ok q =>
    dsimp only at heq
    split at heq
    · cases heq
    · obtain ⟨hq, -⟩ := Prod.mk.injEq .. ▸ heq
      obtain rfl := Except.ok.inj hq
      exact findPlayer_id hids hfind

def Positive (m : SessionManager σ) : Prop :=
  ∀ sid s, m.sessions.lookup sid = some s → s.playerId ≠ 0

omit [Storage σ] in
theorem Positive.quiet (h : Positive m) (hq : Quiet m m') : Positive m' := by
  intro sid s hs
  obtain ⟨s₀, hs₀, hp, -⟩ := hq.kept sid s hs
  rw [hp]
  exact h sid s₀ hs₀

omit [Storage σ] in
theorem Positive.insert (h : Positive m) {sid : SessionId} {q : Session} (hq : q.playerId ≠ 0)
    (hm : m'.sessions = m.sessions.insert sid q) : Positive m' := by
  intro a s hs
  rw [hm, Finmap.lookup_insert_eq] at hs
  split at hs
  · obtain rfl := Option.some.inj hs
    exact hq
  · exact h a s hs

theorem Positive.setCurrentRoom (h : Positive m) (sid : SessionId) (r : RoomId) :
    Positive (m.setCurrentRoom sid r) := by
  unfold SessionManager.setCurrentRoom
  split
  · exact h
  · rename_i s hs
    exact h.insert (q := { s with currentRoom := r }) (h sid s hs) rfl

omit [Storage σ] in
theorem Positive.getByPlayer (h : Positive m) (ht : Tables m) : m.getByPlayer 0 = none := by
  rcases hs : m.getByPlayer 0 with - | s
  · rfl
  · obtain ⟨hlook, hp⟩ := lookup_of_getByPlayer ht hs
    exact absurd hp (h s.sessionId s hlook)

end SessionManager

namespace GameServer

open SessionManager (Positive Quiet Tables)

variable {pb : Protobuf F} {g g' : GameServer σ F}

theorem positive_step (hids : PositiveIds σ) (ht : Tables g.sessions) (h : Positive g.sessions)
    {e : ServerEvent F × ServerOut F} (hstep : Steps pb g e g') : Positive g'.sessions := by
  have heff := step_effect hstep.1
  generalize ha : action pb g e.1 = a at heff
  cases heff with
  | quiet rooms sessions battle => exact h.quiet sessions
  | @login connId player st env rooms sessions battle =>
    obtain ⟨-, -, username, password, -, -, -, hauth⟩ := frame_of_login ha
    -- the new session is of the player that was looked up
    have hkicked : Positive (kicked g.sessions player st) :=
      (h.quiet (Quiet.store g.sessions st)).quiet
        (SessionManager.quiet_kickDuplicate ((Quiet.store g.sessions st).tables ht) player.id)
    rw [sessions]
    refine Positive.quiet ?_ (SessionManager.quiet_setState _ env.sid .inLobby)
    exact hkicked.insert (q := SessionManager.newSession connId player env.sid env.now)
      (SessionManager.authenticate_id hids hauth) rfl
  | enter session found rooms sessions battle =>
    rw [sessions]
    split
    · exact h.setCurrentRoom _ _
    · exact h
  | ready found waiting rooms sessions battle => exact sessions ▸ h
  | start found allReady rooms sessions table workers enqueued => exact h.quiet sessions
  | form rooms sessions battle => exact h.quiet sessions
  | seat session found rooms sessions battle =>
    rw [sessions]
    exact ((h.quiet (Quiet.store _ _)).quiet (SessionManager.quiet_setState _ _ _)).setCurrentRoom _ _

/-- **Player 0 never has a session.** -/
theorem getByPlayer_zero_run (hids : PositiveIds σ) {store : σ} {roomSize : ℤ}
    {as : List (ServerEvent F × ServerOut F)}
    (h : Transition.Run (Steps pb) (init store roomSize) as g) : g.sessions.getByPlayer 0 = none := by
  have hinv : Tables g.sessions ∧ Positive g.sessions := by
    refine h.invariant (I := fun g => Tables g.sessions ∧ Positive g.sessions) ?_
      ⟨tables_init store roomSize, ?_⟩
    · rintro g e g' ⟨ht, hp⟩ hstep
      exact ⟨tables_step ht hstep, positive_step hids ht hp hstep⟩
    · intro sid s hs
      change (∅ : Finmap fun _ : SessionId => Session).lookup sid = some s at hs
      rw [Finmap.lookup_empty] at hs
      cases hs
  exact hinv.2.getByPlayer hinv.1

/-! ### Deaths -/

/-- The room a worker's tick has come to, and the commands of the tick. -/
structure Batch (F : Type) where
  worker : LogicWorker F
  cmds : List (Command F)
  roomId : RoomId
  room : WorkerRoom F

/-- What `.tickRoom` works on. -/
def batch (g : GameServer σ F) (i : ℕ) : Option (Batch F) :=
  (g.battle.workers[i]?).bind fun w =>
    match w.phase with
    | .ticking cmds (r :: _) => (w.rooms.lookup r).map fun rs => ⟨w, cmds, r, rs⟩
    | _ => none

/-- The players of the room when the batch has come past `done`. -/
def Batch.after (b : Batch F) (done : List (Command F)) : Players F :=
  (done.foldl (TickEngine.processCommand b.worker.bc)
    ⟨b.worker.tickEngine, b.room.players, []⟩).players

def isAlive (players : Players F) (pid : PlayerId) : Option Bool :=
  (players.lookup pid).map BattlePlayer.alive

/-- A death in the room that is the next of the tick of worker `i`: the
victim is alive before the command and not after it. -/
structure Death (g : GameServer σ F) (i : ℕ) where
  batch : Batch F
  current : g.batch i = some batch
  before : List (Command F)
  cmd : Command F
  later : List (Command F)
  cmds : batch.cmds = before ++ cmd :: later
  damage : cmd.type = .attack ∨ cmd.type = .skill
  victim : PlayerId
  alive : isAlive (batch.after before) victim = some true
  dead : isAlive (batch.after (before ++ [cmd])) victim = some false

/-- A `PlayerDeathNotify` to the connection that names the two players. -/
def isNotice (connId : ConnectionId) (victim killer : PlayerId) (s : Sent F) : Bool :=
  s.connId == connId && s.msgId == 4005 &&
    match s.reply with
    | .battle (.playerDeathNotify p k _) => p == victim && k == killer
    | _ => false

/-- **The death is announced** by what the step sends. -/
def Death.Announced {i : ℕ} (d : Death g i) (out : ServerOut F) : Prop :=
  ∀ pid ∈ d.batch.room.players, ∀ s, g.sessions.getByPlayer pid = some s →
    (out.sends + out.broadcasts).countP (fun m => isNotice s.connId d.victim d.cmd.playerId m) = 1

omit [Storage σ] in
/-- Without a session of player 0, a `.tickRoom` sends nothing at all. -/
theorem silent_tickRoom (hzero : g.sessions.getByPlayer 0 = none) {i : ℕ} {order : List PlayerId}
    {out : ServerOut F} (h : g.workerStep i (.tickRoom order) = some (g', out)) :
    out.sends = [] ∧ out.broadcasts = 0 := by
  unfold workerStep at h
  split at h
  · obtain ⟨w, -, hrest⟩ := Option.bind_eq_some_iff.mp h
    obtain ⟨⟨w', o⟩, hstep, heq⟩ := Option.map_eq_some_iff.mp hrest
    obtain ⟨-, rfl⟩ := Prod.mk.injEq .. ▸ heq
    cases LogicWorker.step_cases hstep with
    | tickRoom order phase room members =>
      refine ⟨List.flatMap_eq_nil_iff.mpr fun s hs => ?_, rfl⟩
      -- the callback looks player 0 up
      have hpid : s.playerId = 0 := TickEngine.playerId_commands (by simp) _ s hs
      rw [relay, hpid, sendToPlayer, hzero]
  · cases h

/-- **Deaths are announced where nobody is to be told.** -/
theorem announced_iff (hids : PositiveIds σ) {store : σ} {roomSize : ℤ}
    {as : List (ServerEvent F × ServerOut F)}
    (hrun : Transition.Run (Steps pb) (init store roomSize) as g) {i : ℕ} {order : List PlayerId}
    {out : ServerOut F} (hstep : Steps pb g (.worker i (.tickRoom order), out) g') (d : Death g i) :
    d.Announced out ↔ ∀ pid ∈ d.batch.room.players, g.sessions.getByPlayer pid = none := by
  obtain ⟨hsends, hbroadcasts⟩ := silent_tickRoom (getByPlayer_zero_run hids hrun) hstep.1
  rw [Death.Announced, hsends, hbroadcasts]
  constructor
  · intro h pid hpid
    rcases hs : g.sessions.getByPlayer pid with - | s
    · rfl
    · exact absurd (h pid hpid s hs) (by simp)
  · intro h pid hpid s hs
    cases (h pid hpid).symm.trans hs

/-! ### A duel -/

/-- A store kept in memory whose players have positive ids. -/
structure KeyedStore where
  memory : MemoryStore := {}
  positive : ∀ p ∈ memory.players, p.id ≠ 0 := by simp

namespace KeyedStore

/-- A player with the next id, while there is one. -/
def createPlayer (username password : String) (st : KeyedStore) : UInt64 × KeyedStore :=
  let id := UInt64.ofNat (st.memory.players.length + 1)
  if hid : id = 0 then (0, st)
  else
    (id,
      { memory := { st.memory with players := st.memory.players ++ [⟨id, username, password⟩] }
        positive := by
          intro p hp
          rcases List.mem_append.mp hp with hp | hp
          · exact st.positive p hp
          · rw [List.mem_singleton.mp hp]
            exact hid })

instance : Storage KeyedStore where
  set key value st :=
    (true, ⟨{ st.memory with strings := st.memory.strings.insert key value }, st.positive⟩)
  setEx key _ value st :=
    (true, ⟨{ st.memory with strings := st.memory.strings.insert key value }, st.positive⟩)
  get key st := (st.memory.strings.lookup key, st)
  del key st :=
    (true, ⟨{ st.memory with
      strings := st.memory.strings.erase key
      lists := st.memory.lists.erase key }, st.positive⟩)
  lpush key value st :=
    ((st.memory.listAt key).length + 1,
      ⟨{ st.memory with lists := st.memory.lists.insert key (value :: st.memory.listAt key) },
        st.positive⟩)
  brpop key _ st :=
    (st.memory.listAt key).getLast?.map fun value =>
      (some value,
        ⟨{ st.memory with lists := st.memory.lists.insert key (st.memory.listAt key).dropLast },
          st.positive⟩)
  llen key st := ((st.memory.listAt key).length, st)
  getPlayer username st := (st.memory.players.find? fun p => p.username == username, st)
  createPlayer := createPlayer
  recordLogin _ st := st
  saveBattleResult _ _ _ _ _ _ _ st := st

theorem positiveIds : PositiveIds KeyedStore :=
  fun _ st p hp => st.positive p (List.mem_of_find?_eq_some hp)

end KeyedStore

/-- Requests whose payload is the connection's number: 2 is bob, whom ann attacks. -/
def duelRequests : Protobuf ℚ where
  loginRequest payload := if payload = [2] then some ("bob", "hidden") else some ("ann", "secret")
  matchStartRequest _ := 0
  enterRoomRequest _ := 0
  playerMoveRequest _ := none
  playerAttackRequest _ := some 2
  playerSkillRequest _ := none
  reconnectRequest _ := none

def duelFrame (connId : ConnectionId) (messageId : UInt32) (sequence : UInt64) : ServerEvent ℚ :=
  .frame 0 connId { messageId := messageId, sequence := sequence, payload := [connId.toUInt8] }
    ⟨0, 0, 10 + connId, [1, 2]⟩

/-- Ann and bob are matched and ready, ann attacks fourteen times, and the tick begins. -/
def duelEvents : List (ServerEvent ℚ) :=
  [duelFrame 1 1001 0, duelFrame 2 1001 0, duelFrame 1 2001 0, duelFrame 2 2001 0, .timerWakes,
    .tryMatch, .tryMatch, .tryMatch, duelFrame 1 3003 0, duelFrame 2 3003 0] ++
    ((List.range 14).map fun n => duelFrame 1 4002 (UInt64.ofNat (n + 1))) ++
    [.worker 1 (.tickBegin [1])]

/-- The fourteenth attack kills bob, and ann, who is in the room, has a session. -/
theorem death_duel : ∃ (as : List (ServerEvent ℚ × ServerOut ℚ)) (g g' : GameServer KeyedStore ℚ)
    (out : ServerOut ℚ) (d : Death g 1),
    Transition.Run (Steps duelRequests) (init {} 2) as g ∧
      Steps duelRequests g (.worker 1 (.tickRoom [1, 2]), out) g' ∧
      1 ∈ d.batch.room.players ∧ (g.sessions.getByPlayer 1).isSome = true := by
  have hrun : (exec duelRequests (init ({} : KeyedStore) 2) duelEvents).bind (fun p =>
      (p.1.batch 1).bind fun b => (b.cmds[13]?).bind fun cmd =>
        (p.1.workerStep 1 (.tickRoom [1, 2])).map fun _ =>
          (cmd.type, isAlive (b.after (b.cmds.take 13)) 2,
            isAlive (b.after (b.cmds.take 13 ++ [cmd])) 2, decide (1 ∈ b.room.players),
            (p.1.sessions.getByPlayer 1).isSome)) =
      some (.attack, some true, some false, true, true) := by decide +kernel
  obtain ⟨⟨g, as⟩, hexec, hrest⟩ := Option.bind_eq_some_iff.mp hrun
  obtain ⟨b, hb, hrest⟩ := Option.bind_eq_some_iff.mp hrest
  obtain ⟨cmd, hcmd, hrest⟩ := Option.bind_eq_some_iff.mp hrest
  obtain ⟨⟨g', out⟩, hstep, heq⟩ := Option.map_eq_some_iff.mp hrest
  simp only [Prod.mk.injEq] at heq
  obtain ⟨htype, halive, hdead, hmem, hsession⟩ := heq
  -- command 13, counted from 0, is the one that kills
  have hcmds : b.cmds = b.cmds.take 13 ++ cmd :: b.cmds.drop 14 := by
    obtain ⟨hlt, rfl⟩ := List.getElem?_eq_some_iff.mp hcmd
    rw [List.getElem_cons_drop, List.take_append_drop]
  exact ⟨as, g, g', out, ⟨b, hb, b.cmds.take 13, cmd, b.cmds.drop 14, hcmds, Or.inl htype, 2, halive,
    hdead⟩, run_of_exec hexec, ⟨hstep, rfl⟩, of_decide_eq_true hmem, hsession⟩

/-- Ann is not told that she has killed bob. -/
theorem unannounced_duel : ∃ (as : List (ServerEvent ℚ × ServerOut ℚ))
    (g g' : GameServer KeyedStore ℚ) (out : ServerOut ℚ) (d : Death g 1),
    Transition.Run (Steps duelRequests) (init {} 2) as g ∧
      Steps duelRequests g (.worker 1 (.tickRoom [1, 2]), out) g' ∧ ¬ d.Announced out := by
  obtain ⟨as, g, g', out, d, hrun, hstep, hmem, hsession⟩ := death_duel
  obtain ⟨hsends, hbroadcasts⟩ :=
    silent_tickRoom (getByPlayer_zero_run KeyedStore.positiveIds hrun) hstep.1
  obtain ⟨s, hs⟩ := Option.isSome_iff_exists.mp hsession
  refine ⟨as, g, g', out, d, hrun, hstep, fun h => ?_⟩
  have hone := h 1 hmem s hs
  rw [hsends, hbroadcasts] at hone
  cases hone

theorem announced_iff_duel : ∃ (g g' : GameServer KeyedStore ℚ) (out : ServerOut ℚ)
    (d : Death g 1), Steps duelRequests g (.worker 1 (.tickRoom [1, 2]), out) g' ∧
      (d.Announced out ↔ ∀ pid ∈ d.batch.room.players, g.sessions.getByPlayer pid = none) := by
  obtain ⟨as, g, g', out, d, hrun, hstep, -, -⟩ := death_duel
  exact ⟨g, g', out, d, hstep, announced_iff KeyedStore.positiveIds hrun hstep d⟩

end GameServer

end MiniArena
