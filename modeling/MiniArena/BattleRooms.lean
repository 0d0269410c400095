/-
MiniArena/BattleRooms.lean

The battle rooms of the server, over whole runs.

`BattleMove` is all a step of the server can do to the battle manager:
nothing, a command for a worker, a new battle, or a step of a worker's
thread.  The commands are MOVE, ATTACK and SKILL, never LEAVE.

`RoomLaw` is a rule for the rooms of all workers at once: what holds of the
players a battle starts with, survives any tick and is not lost while the rest
of the server moves, holds of every battle room in every reachable state
(`roomLaw_run`).
-/
import MiniArena.BattleInboxes
import MiniArena.Combat
import MiniArena.Reconnect
import MiniArena.RoomMembership

namespace MiniArena

variable {F : Type} [FloatOps F] {σ : Type} [Storage σ]

/-! ### The players a battle starts with -/

namespace BattleManager

/-- A player as a battle starts with it, under its own id. -/
def Enlisted (pid : PlayerId) (p : BattlePlayer F) : Prop := p.Fresh ∧ p.id = pid

/-- The body of the loop of `startBattle`. -/
def enlist (room : Room) (bps : Players F) (pid : PlayerId) : Players F :=
  match room.players.lookup pid with
  | none => bps
  | some info => bps.insert pid (spawn pid info bps.keys.card)

theorem enlisted_enlist {room : Room} {bps : Players F}
    (h : ∀ pid p, bps.lookup pid = some p → Enlisted pid p) (a : PlayerId) :
    ∀ pid p, (enlist room bps a).lookup pid = some p → Enlisted pid p := by
  unfold enlist
  split
  · exact h
  · intro pid p hp
    rw [Finmap.lookup_insert_eq] at hp
    split at hp
    · rename_i hpid
      obtain rfl := Option.some.inj hp
      exact ⟨⟨rfl, rfl, rfl, rfl, rfl, rfl, rfl, rfl, rfl⟩, hpid.symm⟩
    · exact h pid p hp

theorem mem_enlist (room : Room) (bps : Players F) (a pid : PlayerId) :
    pid ∈ enlist room bps a ↔ pid ∈ bps ∨ pid = a ∧ pid ∈ room.players := by
  unfold enlist
  rcases hinfo : room.players.lookup a with - | info
  · have ha : a ∉ room.players := Finmap.lookup_eq_none.mp hinfo
    constructor
    · exact Or.inl
    · rintro (h | ⟨rfl, hroom⟩)
      · exact h
      · exact absurd hroom ha
  · have ha : a ∈ room.players := Finmap.mem_of_lookup_eq_some hinfo
    show pid ∈ bps.insert a _ ↔ _
    rw [Finmap.mem_insert]
    constructor
    · rintro (rfl | h)
      · exact Or.inr ⟨rfl, ha⟩
      · exact Or.inl h
    · rintro (h | ⟨rfl, -⟩)
      · exact Or.inr h
      · exact Or.inl rfl

theorem battlePlayers_eq (room : Room) (order : List PlayerId) :
    (battlePlayers room order : Players F) = order.foldl (enlist room) ∅ := rfl

theorem enlisted_battlePlayers (room : Room) (order : List PlayerId) :
    ∀ pid p, (battlePlayers room order : Players F).lookup pid = some p → Enlisted pid p := by
  have hfold : ∀ bps : Players F, (∀ pid p, bps.lookup pid = some p → Enlisted pid p) →
      ∀ pid p, (order.foldl (enlist room) bps).lookup pid = some p → Enlisted pid p := by
    induction order with
    | nil => exact fun bps h => h
    | cons a order ih => exact fun bps h => ih _ (enlisted_enlist h a)
  exact hfold ∅ fun pid p hp => by simp at hp

/-- Everybody in the room who is visited gets a player. -/
theorem mem_battlePlayers (room : Room) (order : List PlayerId) (pid : PlayerId) :
    pid ∈ (battlePlayers room order : Players F) ↔ pid ∈ order ∧ pid ∈ room.players := by
  have hfold : ∀ bps : Players F, pid ∈ order.foldl (enlist room) bps ↔
      pid ∈ bps ∨ pid ∈ order ∧ pid ∈ room.players := by
    induction order with
    | nil => simp
    | cons a order ih =>
      intro bps
      rw [List.foldl_cons, ih, mem_enlist, List.mem_cons, or_and_right, or_assoc]
  rw [battlePlayers_eq, hfold]
  simp only [Finmap.notMem_empty, false_or]

end BattleManager

/-! ### What a step does to the battle manager -/

namespace GameServer

open BattleManager (Enlisted battlePlayers)

variable {pb : Protobuf F} {g g' : GameServer σ F} {out : ServerOut F}

inductive BattleMove (g g' : GameServer σ F) (ops : List (Enqueued F)) : Prop
  | same (battle : g'.battle = g.battle) (quiet : ops = [])
  | command {r cmd} (type : cmd.type ≠ .leave)
      (battle : g'.battle = g.battle.dispatchCommand r cmd) (quiet : ops = [])
  /-- The battle of `room`, whose members are those of the room `r`. -/
  | start {r before room now} {order : List PlayerId} (found : g.rooms.getRoom r = some before)
      (same : room.roomId = before.roomId ∧ room.players.keys = before.players.keys)
      (members : (order : Multiset PlayerId) = room.players.keys.val)
      (battle : g'.battle = (g.battle.startBattle room g.sessions order now).1)
      (enqueued : ops = [⟨g.battle.assignWorker room.roomId,
        .addRoom room.roomId (battlePlayers room order)⟩])
  | worker {i : ℕ} {w w' : LogicWorker F} {event o} (started : i ∈ g.battle.started)
      (thread : ofThread event = true) (worker : g.battle.workers[i]? = some w)
      (step : w.step event = some (w', o))
      (battle : g'.battle = { g.battle with workers := g.battle.workers.set i w' })
      (quiet : ops = [])

section Handlers

variable {connId : ConnectionId} {frame : Frame} {env : Env}

theorem battleMove_command {request : Option (Command F → Command F)}
    (htype : ∀ fill ∈ request, ∀ cmd, (fill cmd).type ≠ .leave) :
    BattleMove g (g.command connId frame request) [] := by
  unfold command
  split
  · rename_i fill _
    split
    · exact .command (htype fill rfl _) rfl rfl
    · exact .same rfl rfl
  · exact .same rfl rfl

omit [FloatOps F] in
/-- A request that has been parsed, with what its handler fills in. -/
theorem type_fill {A : Type} {parsed : Option A} {fill : A → Command F → Command F}
    (h : ∀ a cmd, (fill a cmd).type ≠ .leave) :
    ∀ f ∈ parsed.map fill, ∀ cmd, (f cmd).type ≠ .leave := by
  intro f hf cmd
  obtain ⟨a, -, rfl⟩ := Option.map_eq_some_iff.mp hf
  exact h a cmd

theorem battleMove_playerReady (h : g.playerReady connId env = some (g', out)) :
    BattleMove g g' out.ops := by
  unfold playerReady at h
  rcases hroom : g.currentRoom connId with - | ⟨s, room⟩
  · simp only [hroom] at h
    obtain ⟨rfl, rfl⟩ := Prod.mk.injEq .. ▸ Option.some.inj h
    exact .same rfl rfl
  · simp only [hroom] at h
    split at h
    · obtain ⟨hmembers, heq⟩ := Option.ite_none_right_eq_some.mp h
      obtain rfl := congrArg Prod.fst (Option.some.inj heq)
      obtain rfl := congrArg Prod.snd (Option.some.inj heq)
      refine .start (found_of_currentRoom hroom) ⟨?_, ?_⟩ ?_ rfl rfl
      · rw [Room.roomId_startBattle, Room.roomId_playerReady]
      · rw [Room.players_startBattle, Room.keys_playerReady]
      · rwa [Room.players_startBattle]
    · obtain ⟨rfl, rfl⟩ := Prod.mk.injEq .. ▸ Option.some.inj h
      exact .same rfl rfl

theorem battleMove_heartbeat :
    BattleMove g (g.heartbeat connId env).1 (g.heartbeat connId env).2.ops := by
  unfold heartbeat
  split
  · exact .same rfl rfl
  · exact .same rfl rfl

theorem battleMove_matchCancel : BattleMove g (g.matchCancel connId) [] := by
  unfold matchCancel
  split
  · exact .same rfl rfl
  · exact .same rfl rfl

theorem battleMove_enterRoom :
    BattleMove g (g.enterRoom pb connId frame).1 (g.enterRoom pb connId frame).2.ops := by
  unfold enterRoom
  dsimp only
  split
  · exact .same rfl rfl
  · split
    · exact .same rfl rfl
    · split
      · exact .same rfl rfl
      · exact .same rfl rfl

theorem battleMove_reconnect :
    BattleMove g (g.reconnect pb connId frame env).1 (g.reconnect pb connId frame env).2.ops := by
  unfold reconnect
  split
  · exact .same rfl rfl
  · exact .same rfl rfl

theorem battleMove_dispatch (h : g.dispatch pb connId frame env = some (g', out)) :
    BattleMove g g' out.ops := by
  unfold dispatch at h
  split at h
  · obtain ⟨rfl, rfl⟩ := Prod.mk.injEq .. ▸ Option.some.inj h
    exact .same rfl rfl
  · -- 1001
    unfold login at h
    split at h
    · obtain ⟨rfl, rfl⟩ := Prod.mk.injEq .. ▸ Option.some.inj h
      exact .same rfl rfl
    · obtain ⟨r, -, heq⟩ := Option.map_eq_some_iff.mp h
      obtain ⟨rfl, rfl⟩ := Prod.mk.injEq .. ▸ heq
      exact .same rfl rfl
  · obtain rfl := congrArg Prod.fst (Option.some.inj h)
    obtain rfl := congrArg Prod.snd (Option.some.inj h)
    exact battleMove_heartbeat
  · -- 2001
    unfold matchStart at h
    split at h
    · obtain ⟨rfl, rfl⟩ := Prod.mk.injEq .. ▸ Option.some.inj h
      exact .same rfl rfl
    · obtain ⟨r, -, heq⟩ := Option.map_eq_some_iff.mp h
      obtain ⟨rfl, rfl⟩ := Prod.mk.injEq .. ▸ heq
      exact .same rfl rfl
  · obtain rfl := congrArg Prod.fst (Option.some.inj h)
    obtain rfl := congrArg Prod.snd (Option.some.inj h)
    exact battleMove_matchCancel
  · obtain rfl := congrArg Prod.fst (Option.some.inj h)
    obtain rfl := congrArg Prod.snd (Option.some.inj h)
    exact battleMove_enterRoom
  · exact battleMove_playerReady h
  · obtain ⟨rfl, rfl⟩ := Prod.mk.injEq .. ▸ Option.some.inj h
    exact battleMove_command (type_fill fun _ _ => nofun)
  · obtain ⟨rfl, rfl⟩ := Prod.mk.injEq .. ▸ Option.some.inj h
    exact battleMove_command (type_fill fun _ _ => nofun)
  · obtain ⟨rfl, rfl⟩ := Prod.mk.injEq .. ▸ Option.some.inj h
    exact battleMove_command (type_fill fun _ _ => nofun)
  · obtain rfl := congrArg Prod.fst (Option.some.inj h)
    obtain rfl := congrArg Prod.snd (Option.some.inj h)
    exact battleMove_reconnect

end Handlers

theorem battleMove_tryMatch (h : g.tryMatch = some (g', out)) :
    BattleMove g g' out.ops := by
  unfold tryMatch at h
  split at h
  · obtain ⟨rfl, rfl⟩ := Prod.mk.injEq .. ▸ Option.some.inj h
    unfold checkQueue
    dsimp only
    split
    · exact .same rfl rfl
    · exact .same rfl rfl
  · unfold fillRoom at h
    split at h
    · obtain ⟨⟨popped, st⟩, -, hrest⟩ := Option.bind_eq_some_iff.mp h
      cases popped with
      | none =>
        obtain ⟨rfl, rfl⟩ := Prod.mk.injEq .. ▸ Option.some.inj hrest
        exact .same rfl rfl
      | some pid =>
        dsimp only at hrest
        split at hrest
        · obtain ⟨rfl, rfl⟩ := Prod.mk.injEq .. ▸ Option.some.inj hrest
          exact .same rfl rfl
        · obtain ⟨room, -, heq⟩ := Option.map_eq_some_iff.mp hrest
          obtain ⟨rfl, rfl⟩ := Prod.mk.injEq .. ▸ heq
          exact .same rfl rfl
    · obtain ⟨rfl, rfl⟩ := Prod.mk.injEq .. ▸ Option.some.inj h
      exact .same rfl rfl
  · cases h

/-- **What a step can do to the battles.** -/
theorem battleMove_step {e : ServerEvent F} (h : step pb g e = some (g', out)) :
    BattleMove g g' out.ops := by
  unfold step at h
  cases e with
  | frame loop connId frame env =>
    cases battleMove_dispatch h with
    | same battle quiet => exact .same battle quiet
    | command type battle quiet => exact .command type battle quiet
    | start found same members battle enqueued => exact .start found same members battle enqueued
    | worker started thread worker step battle quiet =>
      exact .worker started thread worker step battle quiet
  | disconnect connId now =>
    have hdisc : g.onDisconnect connId now = (g', out) := Option.some.inj h
    rw [onDisconnect_eq] at hdisc
    obtain ⟨rfl, rfl⟩ := Prod.mk.injEq .. ▸ hdisc
    exact .same rfl rfl
  | timerWakes =>
    dsimp only at h
    split at h
    · obtain ⟨rfl, rfl⟩ := Prod.mk.injEq .. ▸ Option.some.inj h
      exact .same rfl rfl
    · cases h
  | tryMatch => exact battleMove_tryMatch h
  | cleanupExpired now order =>
    dsimp only at h
    split at h
    · obtain ⟨-, heq⟩ := Option.ite_none_right_eq_some.mp h
      obtain rfl := congrArg Prod.fst (Option.some.inj heq)
      obtain rfl := congrArg Prod.snd (Option.some.inj heq)
      exact .same rfl rfl
    · cases h
  | worker i event =>
    obtain ⟨⟨hstarted, hthread⟩, hrest⟩ := Option.ite_none_right_eq_some.mp h
    obtain ⟨w, hw, hrest⟩ := Option.bind_eq_some_iff.mp hrest
    obtain ⟨⟨w', o⟩, hstep, heq⟩ := Option.map_eq_some_iff.mp hrest
    obtain ⟨rfl, rfl⟩ := Prod.mk.injEq .. ▸ heq
    exact .worker hstarted hthread hw hstep rfl rfl

end GameServer

/-! ### What holds of the rooms of a worker -/

/-- The commands of the running tick. -/
def Phase.batch : Phase F → List (Command F)
  | .idle => []
  | .ticking cmds _ => cmds
  | .sending cmds _ _ _ => cmds
  | .checking cmds _ _ => cmds

namespace LogicWorker

/-- Nobody leaves the battle by a command. -/
def NoLeave (cmds : List (Command F)) : Prop := ∀ cmd ∈ cmds, cmd.type ≠ .leave

def KeptByTicks (P : RoomId → Players F → Prop) : Prop :=
  ∀ r players (e : TickEngine) cmds bc aoi order, NoLeave cmds → P r players →
    P r (e.processTick players cmds bc aoi order).players

/-- `P` holds of every room the worker has or is about to get.  Nobody is
marked as disconnected, and no command is a LEAVE. -/
structure UnderLaw (P : RoomId → Players F → Prop) (w : LogicWorker F) : Prop where
  queue : ∀ op ∈ w.pendingOps, ∃ r players, op = .addRoom r players ∧ P r players
  rooms : ∀ r rs, w.rooms.lookup r = some rs → P r rs.players ∧ rs.disconnected = ∅
  commands : NoLeave (w.cmdQueue ++ w.phase.batch)

variable {P Q : RoomId → Players F → Prop} {w w' : LogicWorker F}

omit [FloatOps F] in
theorem UnderLaw.mono (h : UnderLaw P w) (hPQ : ∀ r players, P r players → Q r players) :
    UnderLaw Q w where
  queue := fun op hop => by
    obtain ⟨r, players, heq, hP⟩ := h.queue op hop
    exact ⟨r, players, heq, hPQ r players hP⟩
  rooms := fun r rs hrs => ⟨hPQ r _ (h.rooms r rs hrs).1, (h.rooms r rs hrs).2⟩
  commands := h.commands

omit [FloatOps F] in
theorem underLaw_empty {bc : Broadcaster (BattlePayload F)} : UnderLaw P { bc := bc } where
  queue := fun _ h => nomatch h
  rooms := by
    intro r rs h
    simp at h
  commands := fun _ h => nomatch h

omit [FloatOps F] in
/-- A room is written back or added. -/
theorem UnderLaw.insert (h : UnderLaw P w) {r : RoomId} {rs : WorkerRoom F}
    (hrs : P r rs.players ∧ rs.disconnected = ∅) :
    ∀ a q, (w.rooms.insert r rs).lookup a = some q → P a q.players ∧ q.disconnected = ∅ := by
  intro a q hq
  rw [Finmap.lookup_insert_eq] at hq
  split at hq
  · rename_i ha
    obtain rfl := Option.some.inj hq
    exact ha ▸ hrs
  · exact h.rooms a q hq

omit [FloatOps F] in
theorem UnderLaw.enqueue (h : UnderLaw P w) {r : RoomId} {players : Players F}
    (hP : P r players) : UnderLaw P (w.enqueue (.addRoom r players)) where
  queue := by
    intro op hop
    rcases List.mem_append.mp hop with hop | hop
    · exact h.queue op hop
    · exact ⟨r, players, List.mem_singleton.mp hop, hP⟩
  rooms := h.rooms
  commands := h.commands

omit [FloatOps F] in
theorem UnderLaw.drainPendingOps (h : UnderLaw P w) (now : ℤ) :
    UnderLaw P (w.drainPendingOps now) := by
  have hfold : ∀ (ops : List (PendingOp F)) (u : LogicWorker F), UnderLaw P u →
      (∀ op ∈ ops, ∃ r players, op = .addRoom r players ∧ P r players) →
      UnderLaw P (ops.foldl (fun w op => w.applyOp now op) u) := by
    intro ops
    induction ops with
    | nil => exact fun u hu _ => hu
    | cons op ops ih =>
      intro u hu hops
      obtain ⟨r, players, rfl, hP⟩ := hops op List.mem_cons_self
      apply ih
      · exact ⟨hu.queue, hu.insert ⟨hP, rfl⟩, hu.commands⟩
      · exact fun op hop => hops op (List.mem_cons_of_mem _ hop)
  exact hfold w.pendingOps _ ⟨fun _ hop => (nomatch hop), h.rooms, h.commands⟩ h.queue

omit [FloatOps F] in
theorem UnderLaw.pushCommand (h : UnderLaw P w) {cmd : Command F} (hcmd : cmd.type ≠ .leave) :
    UnderLaw P { w with cmdQueue := w.cmdQueue ++ [cmd] } where
  queue := h.queue
  rooms := h.rooms
  commands := by
    intro c hc
    rcases List.mem_append.mp hc with hc | hc
    · rcases List.mem_append.mp hc with hc | hc
      · exact h.commands c (List.mem_append_left _ hc)
      · exact List.mem_singleton.mp hc ▸ hcmd
    · exact h.commands c (List.mem_append_right _ hc)

omit [FloatOps F] in
theorem batch_nextRoom (cmds : List (Command F)) (left : List RoomId) :
    (nextRoom cmds left).batch ⊆ cmds := by
  unfold nextRoom
  split
  · exact List.nil_subset _
  · exact List.Subset.refl _

omit [FloatOps F] in
/-- Nobody is marked, so nobody is timed out. -/
theorem players_checkDisconnected {rs : WorkerRoom F} (h : rs.disconnected = ∅) (now : ℤ) :
    (checkDisconnected rs now).players = rs.players := by
  refine Finmap.ext_lookup fun pid => ?_
  show (rs.players.mapVal _).lookup pid = _
  rw [Finmap.lookup_mapVal, h]
  simp

/-- **A step of the worker's thread**, or a command, under a law. -/
theorem UnderLaw.step (hP : KeptByTicks P) (h : UnderLaw P w) {event : WorkerEvent F}
    {out : WorkerOut F} (hthread : GameServer.ofThread event = true)
    (hstep : w.step event = some (w', out)) : UnderLaw P w' := by
  have hqueue : NoLeave w.cmdQueue := fun c hc => h.commands c (List.mem_append_left _ hc)
  have hbatch : NoLeave w.phase.batch := fun c hc => h.commands c (List.mem_append_right _ hc)
  have hjoin : ∀ {a b : List (Command F)}, NoLeave a → NoLeave b → NoLeave (a ++ b) :=
    fun ha hb c hc => (List.mem_append.mp hc).elim (ha c) (hb c)
  cases step_cases hstep with
  | drainPendingOp now phase =>
    unfold drainPendingOp
    split
    · exact h
    · rename_i op ops hops
      obtain ⟨r, players, rfl, hop⟩ := h.queue op (hops ▸ List.mem_cons_self)
      exact ⟨fun o ho => h.queue o (hops ▸ List.mem_cons_of_mem _ ho), h.insert ⟨hop, rfl⟩,
        h.commands⟩
  | tickBegin order phase once =>
    refine ⟨h.queue, h.rooms, ?_⟩
    exact hjoin (fun _ hc => nomatch hc) fun c hc => hqueue c (batch_nextRoom _ _ hc)
  | @tickRoom cmds left r rs order phase room members =>
    rw [phase] at hbatch
    obtain ⟨hrs, hmarked⟩ := h.rooms r rs room
    exact ⟨h.queue, h.insert ⟨hP r _ _ cmds w.bc w.aoi order hbatch hrs, hmarked⟩, hjoin hqueue hbatch⟩
  | broadcast phase room =>
    rw [phase] at hbatch
    exact ⟨h.queue, h.rooms, hjoin hqueue hbatch⟩
  | @checkDisconnected cmds left r rs now phase room =>
    rw [phase] at hbatch
    obtain ⟨hrs, hmarked⟩ := h.rooms r rs room
    refine ⟨h.queue, h.insert ⟨?_, disconnected_checkDisconnected hmarked now⟩, ?_⟩
    · rwa [players_checkDisconnected hmarked]
    · exact hjoin hqueue fun c hc => hbatch c (batch_nextRoom _ _ hc)
  | _ => simp [GameServer.ofThread] at hthread

end LogicWorker

/-! ### Laws of battle rooms -/

namespace GameServer

open BattleManager (Enlisted battlePlayers)
open LogicWorker (UnderLaw KeptByTicks)

variable {pb : Protobuf F} {g g' : GameServer σ F}

variable (pb) in
/-- What can be said of the players of the room `r` on the worker `i`. -/
structure RoomLaw (P : GameServer σ F → ℕ → RoomId → Players F → Prop) : Prop where
  /-- A battle starts with new players, one for each member. -/
  start : ∀ g r (players : Players F),
    (∀ pid p, players.lookup pid = some p → Enlisted pid p) →
    (∀ pid, pid ∈ players ↔ g.Member pid r) → P g (g.battle.assignWorker r) r players
  tick : ∀ g i, KeptByTicks (P g i)
  later : ∀ g e g' i r players, Sound g → Steps pb g e g' → P g i r players → P g' i r players

/-- Every room is filed under its id. -/
def Filed (g : GameServer σ F) : Prop :=
  ∀ r room, g.rooms.getRoom r = some room → room.roomId = r

omit [FloatOps F] [Storage σ] in
theorem Filed.update (h : Filed g) {r : RoomId} {room : Room} (hid : room.roomId = r)
    (hrooms : ∀ a, g'.rooms.getRoom a = if a = r then some room else g.rooms.getRoom a) :
    Filed g' := by
  intro a room' ha
  rw [hrooms a] at ha
  split at ha
  · rename_i har
    obtain rfl := Option.some.inj ha
    rw [hid, har]
  · exact h a room' ha

theorem roomId_addPlayer (room : Room) (pid : PlayerId) (username : String) :
    (room.addPlayer pid username).1.roomId = room.roomId := by
  unfold Room.addPlayer
  split
  · rfl
  · split <;> rfl

theorem filed_step (h : Filed g) {e : ServerEvent F × ServerOut F} (hstep : Steps pb g e g') :
    Filed g' := by
  have heff := step_effect hstep.1
  generalize action pb g e.1 = a at heff
  cases heff with
  | quiet rooms sessions battle =>
    unfold Filed
    rw [rooms]
    exact h
  | login rooms sessions battle =>
    unfold Filed
    rw [rooms]
    exact h
  | enter session found rooms sessions battle =>
    exact h.update ((roomId_addPlayer ..).trans (h _ _ found)) (rooms ▸ g.rooms.getRoom_update _ · _)
  | ready found waiting rooms sessions battle =>
    refine h.update ?_ (rooms ▸ g.rooms.getRoom_update _ · _)
    rw [Room.roomId_playerReady]
    exact h _ _ found
  | start found allReady rooms sessions table workers enqueued =>
    refine h.update ?_ (rooms ▸ g.rooms.getRoom_update _ · _)
    rw [Room.roomId_startBattle, Room.roomId_playerReady]
    exact h _ _ found
  | form rooms sessions battle =>
    exact h.update (by rfl) (rooms ▸ g.rooms.getRoom_createRoom g.roomSize)
  | seat session found rooms sessions battle =>
    exact h.update ((roomId_addPlayer ..).trans (h _ _ found)) (rooms ▸ g.rooms.getRoom_update _ · _)

omit [FloatOps F] [Storage σ] in
theorem filed_init (store : σ) (roomSize : ℤ) : Filed (init store roomSize : GameServer σ F) := by
  intro r room h
  simp [init, RoomManager.getRoom] at h

theorem underLaw_step {P : GameServer σ F → ℕ → RoomId → Players F → Prop} (hP : RoomLaw pb P)
    (hsound : Sound g) (hfiled : Filed g) (h : ∀ (i : ℕ) w, g.battle.workers[i]? = some w → UnderLaw (P g i) w)
    {e : ServerEvent F × ServerOut F} (hstep : Steps pb g e g') :
    ∀ (i : ℕ) w, g'.battle.workers[i]? = some w → UnderLaw (P g' i) w := by
  intro i w' hw'
  apply UnderLaw.mono (P := P g i) _ fun r players => hP.later g e g' i r players hsound hstep
  cases battleMove_step hstep.1 with
  | same battle quiet => exact h i w' (battle ▸ hw')
  | @command r cmd type battle quiet =>
    rw [battle, BattleManager.workers_step BattleManager.Steps.dispatchCommand] at hw'
    obtain ⟨w, hw, rfl⟩ := Option.map_eq_some_iff.mp hw'
    unfold BattleManager.after
    dsimp only
    split
    · exact (h i w hw).pushCommand type
    · exact h i w hw
  | @start r before room now order found same members battle enqueued =>
    rw [battle, BattleManager.startBattle_fst,
      BattleManager.workers_step (BattleManager.Steps.startBattle members)] at hw'
    obtain ⟨w, hw, rfl⟩ := Option.map_eq_some_iff.mp hw'
    have hroom : room.roomId = r := same.1.trans (hfiled r before found)
    have hstart : P g (g.battle.assignWorker room.roomId) room.roomId
        (battlePlayers room order) := by
      apply hP.start
      · exact BattleManager.enlisted_battlePlayers room order
      · intro pid
        rw [BattleManager.mem_battlePlayers, ← Multiset.mem_coe, members, Finset.mem_val,
          Finmap.mem_keys, and_self, ← Finmap.mem_keys, same.2, Finmap.mem_keys, hroom]
        constructor
        · exact fun hmem => ⟨before, found, hmem⟩
        · rintro ⟨q, hq, hmem⟩
          obtain rfl := Option.some.inj (found.symm.trans hq)
          exact hmem
    have hpushed : UnderLaw (P g i) (if g.battle.assignWorker room.roomId = i then
        w.enqueue (.addRoom room.roomId (battlePlayers room order)) else w) := by
      split
      · rename_i hi
        exact (h i w hw).enqueue (hi ▸ hstart)
      · exact h i w hw
    unfold BattleManager.after
    dsimp only
    generalize (if g.battle.assignWorker room.roomId = i then
        w.enqueue (.addRoom room.roomId (battlePlayers room order)) else w) = u at hpushed ⊢
    split
    · exact hpushed.drainPendingOps now
    · exact hpushed
  | @worker j w w₁ event o started thread worker step battle quiet =>
    rw [battle] at hw'
    change (g.battle.workers.set j w₁)[i]? = some w' at hw'
    rw [List.getElem?_set] at hw'
    split at hw'
    · rename_i hji
      obtain rfl : w₁ = w' := by
        split at hw'
        · exact Option.some.inj hw'
        · cases hw'
      exact (h i w (hji ▸ worker)).step (hP.tick g i) thread step
    · exact h i w' hw'

/-- **A law of battle rooms holds in every reachable state.** -/
theorem roomLaw_run {P : GameServer σ F → ℕ → RoomId → Players F → Prop} (hP : RoomLaw pb P)
    {store : σ} {roomSize : ℤ} {as : List (ServerEvent F × ServerOut F)}
    (h : Transition.Run (Steps pb) (init store roomSize) as g) :
    ∀ (i : ℕ) w, g.battle.workers[i]? = some w → UnderLaw (P g i) w := by
  refine (h.invariant (I := fun g => Sound g ∧ Filed g ∧
    ∀ (i : ℕ) w, g.battle.workers[i]? = some w → UnderLaw (P g i) w) ?_ ⟨?_, ?_, ?_⟩).2.2
  · rintro g e g' ⟨hsound, hfiled, hlaw⟩ hstep
    exact ⟨sound_step hsound hstep, filed_step hfiled hstep,
      underLaw_step hP hsound hfiled hlaw hstep⟩
  · exact sound_init store roomSize
  · exact filed_init store roomSize
  · intro i w hw
    obtain ⟨-, rfl⟩ := List.mem_replicate.mp (List.mem_of_getElem? hw)
    exact LogicWorker.underLaw_empty

/-! ### Whose players these are -/

/-- Nobody leaves a room. -/
theorem member_step (hsound : Sound g) {e : ServerEvent F × ServerOut F}
    (hstep : Steps pb g e g') {pid : PlayerId} {r : RoomId} (h : g.Member pid r) :
    g'.Member pid r := by
  have heff := step_effect hstep.1
  generalize action pb g e.1 = a at heff
  cases heff with
  | quiet rooms sessions battle =>
    unfold Member
    rwa [rooms]
  | login rooms sessions battle =>
    unfold Member
    rwa [rooms]
  | enter session found rooms sessions battle => exact (member_addPlayer found rooms pid r).mpr (.inl h)
  | ready found waiting rooms sessions battle =>
    exact (member_same found rooms (fun a => Room.mem_playerReady _ _ a) pid r).mpr h
  | start found allReady rooms sessions table workers enqueued =>
    refine (member_same found rooms (fun a => ?_) pid r).mpr h
    rw [Room.players_startBattle, Room.mem_playerReady]
  | form rooms sessions battle => exact (member_createRoom hsound rooms pid r).mpr h
  | seat session found rooms sessions battle => exact (member_addPlayer found rooms pid r).mpr (.inl h)

theorem assignWorker_step {e : ServerEvent F × ServerOut F} (hstep : Steps pb g e g')
    (r : RoomId) : g'.battle.assignWorker r = g.battle.assignWorker r := by
  have hlen : g'.battle.workers.length = g.battle.workers.length := by
    cases battleMove_step hstep.1 with
    | same battle quiet => rw [battle]
    | command type battle quiet =>
      rw [battle, BattleManager.length_step BattleManager.Steps.dispatchCommand]
    | start found same members battle enqueued =>
      rw [battle, BattleManager.startBattle_fst,
        BattleManager.length_step (BattleManager.Steps.startBattle members)]
    | worker started thread worker step battle quiet =>
      rw [battle]
      exact List.length_set
  rw [BattleManager.assignWorker, hlen, BattleManager.assignWorker]

/-- A battle is fought on the worker of its room, by members of the room. -/
theorem memberLaw : RoomLaw pb fun (g : GameServer σ F) i r players =>
    i = g.battle.assignWorker r ∧ ∀ pid ∈ players, g.Member pid r where
  start := fun g r players _ hmem => ⟨rfl, fun pid => (hmem pid).mp⟩
  tick := by
    rintro g i r players e cmds bc aoi order - ⟨hi, hmem⟩
    refine ⟨hi, fun pid hpid => hmem pid ?_⟩
    rw [TickEngine.players_processTick, ← Finmap.mem_keys, Finmap.keys_mapVal,
      TickEngine.keys_acts] at hpid
    exact Finmap.mem_keys.mp hpid
  later := by
    rintro g e g' i r players hsound hstep ⟨hi, hmem⟩
    exact ⟨hi.trans (assignWorker_step hstep r).symm,
      fun pid hpid => member_step hsound hstep (hmem pid hpid)⟩

end GameServer

end MiniArena
