/-
MiniArena/BattleBooks.lean

What holds of the battles of a running server.

`combatLaw` lifts the combat accounting of one room to every room of every
worker, with what the commands of the server add to it: nobody sends LEAVE,
so a player is alive exactly while it has hit points (`combat_reachable`).

From one state to a later one a battle only goes down (`Declines`), whatever
happens on the server, unless it is started again (`battle_declines`).
-/
import MiniArena.BattlePlaces
import MiniArena.DeathNotice

namespace MiniArena

variable {F : Type}

/-! ### Alive while there are hit points -/

/-- Under its own id, and alive exactly while it has hit points. -/
def Upright (pid : PlayerId) (p : BattlePlayer F) : Prop :=
  p.id = pid ∧ (p.alive = true ↔ 1 ≤ p.hp)

def AllUpright (players : Players F) : Prop :=
  ∀ pid p, players.lookup pid = some p → Upright pid p

variable {players : Players F}

theorem AllUpright.modify (h : AllUpright players) (pid : PlayerId)
    {f : BattlePlayer F → BattlePlayer F} (hf : ∀ p, Upright pid p → Upright pid (f p)) :
    AllUpright (players.modify pid f) := by
  intro a p hp
  rw [Finmap.lookup_modify] at hp
  split at hp
  · rename_i ha
    obtain ⟨q, hq, rfl⟩ := Option.map_eq_some_iff.mp hp
    exact ha ▸ hf q (h pid q hq)
  · exact h a p hp

theorem allUpright_of_enlisted
    (h : ∀ pid p, players.lookup pid = some p → BattleManager.Enlisted pid p) :
    AllUpright players := by
  intro pid p hp
  obtain ⟨hfresh, hid⟩ := h pid p hp
  refine ⟨hid, ?_⟩
  rw [hfresh.alive, hfresh.hp_eq]
  decide

namespace TickEngine

theorem upright_settle {dmg : ℤ} (hdmg : 0 ≤ dmg) (pid : PlayerId) (t : BattlePlayer F)
    (h : Upright pid t) : Upright pid (settle dmg t) := by
  obtain ⟨hid, halive⟩ := h
  unfold settle
  split
  · refine ⟨hid, ?_⟩
    show false = true ↔ (1 : ℤ) ≤ 0
    decide
  · refine ⟨hid, ?_⟩
    show t.alive = true ↔ 1 ≤ t.hp - dmg
    rw [halive]
    omega

theorem allUpright_takeDamage (h : AllUpright players) {aid tid : PlayerId} {t : BattlePlayer F}
    (ht : players.lookup tid = some t) {dmg : ℤ} (hdmg : 0 ≤ dmg) :
    AllUpright (takeDamage players aid tid dmg).1 := by
  rw [takeDamage_eq ht]
  exact (h.modify tid (upright_settle hdmg tid)).modify aid fun _ hp => hp

theorem calcDamage_pos (atk def_ : ℤ) : 0 ≤ calcDamage atk def_ := by
  unfold calcDamage
  omega

variable [FloatOps F]

theorem upright_processMove (dirX dirY dtSec : F) (pid : PlayerId) (p : BattlePlayer F)
    (h : Upright pid p) : Upright pid (processMove dirX dirY dtSec p) := by
  unfold processMove
  dsimp only
  split
  · exact h
  · exact h

theorem allUpright_execute (h : AllUpright players) {cmd : Command F} (htype : cmd.type ≠ .leave)
    (p : BattlePlayer F) : AllUpright (execute {} players cmd p).1 := by
  unfold execute
  cases hcmd : cmd.type with
  | move => exact h.modify _ (upright_processMove _ _ _ _)
  | stopMove => exact h.modify _ fun _ hq => hq
  | attack =>
    dsimp only
    split
    · exact h
    · rename_i t ht
      rcases processAttack_cases {} players cmd.playerId cmd.targetId p t with
        heq | ⟨-, -, -, heq⟩
      · rw [heq]
        exact h
      · rw [heq]
        exact allUpright_takeDamage h ht (calcDamage_pos _ _)
  | skill =>
    have hcool : ∀ cooldownMs, AllUpright
        (players.modify cmd.playerId (setCooldown cmd.skillId cooldownMs)) :=
      fun _ => h.modify _ fun _ hq => hq
    rcases processSkill_cases {} players cmd.playerId cmd.targetId p
      (players.lookup cmd.targetId) cmd.skillId with
      ⟨heq, -⟩ | ⟨skill, hmem, -, -, -, ⟨t, ht, -, heq⟩ | ⟨-, heq⟩⟩
    · rw [heq]
      exact h
    · have ht' : ∃ t', (players.modify cmd.playerId
          (setCooldown cmd.skillId skill.cooldownMs)).lookup cmd.targetId = some t' := by
        rw [Finmap.lookup_modify]
        split
        · rename_i hsame
          rw [← hsame, ht]
          exact ⟨_, rfl⟩
        · exact ⟨t, ht⟩
      obtain ⟨t', ht'⟩ := ht'
      rw [heq]
      exact allUpright_takeDamage (hcool _) ht' (scaleDamage_nonneg (calcDamage_pos _ _) hmem)
    · rw [heq]
      exact hcool _
  | leave => exact absurd hcmd htype

theorem allUpright_act {s : TickEngine × Players F} (h : AllUpright s.2) {cmd : Command F}
    (htype : cmd.type ≠ .leave) : AllUpright (act s cmd).2 := by
  rcases act_cases s cmd with ⟨-, heq⟩ | ⟨-, p, -, heq⟩
  · rw [heq]
    exact h
  · rw [heq]
    exact allUpright_execute h htype p

theorem allUpright_acts {s : TickEngine × Players F} (h : AllUpright s.2)
    {cmds : List (Command F)} (hcmds : LogicWorker.NoLeave cmds) :
    AllUpright (cmds.foldl act s).2 := by
  induction cmds generalizing s with
  | nil => exact h
  | cons cmd cmds ih =>
    apply ih
    · exact allUpright_act h (hcmds cmd List.mem_cons_self)
    · exact fun c hc => hcmds c (List.mem_cons_of_mem _ hc)

theorem allUpright_processTick (h : AllUpright players) (e : TickEngine) {cmds : List (Command F)}
    (hcmds : LogicWorker.NoLeave cmds) (bc : Broadcaster (BattlePayload F)) (aoi : AoiGrid)
    (order : List PlayerId) : AllUpright (e.processTick players cmds bc aoi order).players := by
  rw [players_processTick]
  intro pid p hp
  rw [Finmap.lookup_mapVal] at hp
  obtain ⟨q, hq, rfl⟩ := Option.map_eq_some_iff.mp hp
  exact allUpright_acts (s := (e, players)) h hcmds pid q hq

end TickEngine

variable [FloatOps F] {σ : Type} [Storage σ]

namespace GameServer

variable {pb : Protobuf F} {g g' : GameServer σ F}

/-! ### Combat on the server -/

theorem combatLaw : RoomLaw pb fun (_ : GameServer σ F) _ _ players =>
    Books players ∧ AllUpright players where
  start := by
    intro g r players hnew _
    exact ⟨books_of_fresh fun pid p hp => (hnew pid p hp).1, allUpright_of_enlisted hnew⟩
  tick := by
    rintro g i r players e cmds bc aoi order hcmds ⟨hbooks, hup⟩
    obtain ⟨hbooks', -⟩ :=
      TickEngine.advance_ticks (c := ⟨e, cmds, bc, aoi, order⟩) hbooks rfl
    exact ⟨hbooks', TickEngine.allUpright_processTick hup e hcmds bc aoi order⟩
  later := fun _ _ _ _ _ _ _ _ h => h

/-- The battle of `soloBattle`, on the worker 1. -/
theorem room_soloBattle : ∃ (g : GameServer MemoryStore ℚ) (as : List (ServerEvent ℚ × ServerOut ℚ))
    (w : LogicWorker ℚ) (rs : WorkerRoom ℚ),
    exec annRequests (init ({} : MemoryStore) 1) soloBattle = some (g, as) ∧
    g.battle.workers[1]? = some w ∧ w.rooms.lookup 1 = some rs := by
  have hrun : (exec annRequests (init ({} : MemoryStore) 1) soloBattle).map (fun p =>
      (p.1.battle.workers[1]?).map fun w => (w.rooms.lookup 1).isSome) = some (some true) := by
    decide +kernel
  obtain ⟨⟨g, as⟩, hexec, hworker⟩ := Option.map_eq_some_iff.mp hrun
  obtain ⟨w, hw, hsome⟩ := Option.map_eq_some_iff.mp hworker
  obtain ⟨rs, hrs⟩ := Option.isSome_iff_exists.mp hsome
  exact ⟨g, as, w, rs, hexec, hw, hrs⟩

/-- **Combat on the server.**  In every reachable state, in every battle room
of every worker: the players carry their ids, their hit points are what their
damage leaves, they are alive exactly while they have any and have died once
otherwise; kills and damage balance over the room, and no counter of a player
outgrows it; and nobody waits to be timed out. -/
theorem combat_reachable {store : σ} {roomSize : ℤ} {as : List (ServerEvent F × ServerOut F)}
    (h : Transition.Run (Steps pb) (init store roomSize) as g) {i : ℕ} {w : LogicWorker F}
    (hw : g.battle.workers[i]? = some w) {r : RoomId} {rs : WorkerRoom F}
    (hrs : w.rooms.lookup r = some rs) :
    (∀ pid p, rs.players.lookup pid = some p →
      p.id = pid ∧ p.hp = max 0 (1000 - p.damageTaken) ∧ (p.alive = true ↔ 1 ≤ p.hp) ∧
      p.deaths = (if p.alive then 0 else 1) ∧
      p.kills ≤ rs.players.keys.card ∧ p.damageDealt ≤ rs.players.keys.card * 1111) ∧
    rs.players.sumVal BattlePlayer.kills = rs.players.sumVal BattlePlayer.deaths ∧
    rs.players.sumVal BattlePlayer.damageDealt = rs.players.sumVal BattlePlayer.damageTaken ∧
    rs.disconnected = ∅ := by
  obtain ⟨⟨hbooks, hup⟩, hmarked⟩ := (roomLaw_run combatLaw h i w hw).rooms r rs hrs
  refine ⟨?_, hbooks.kills_eq_deaths, hbooks.dealt_eq_taken, hmarked⟩
  intro pid p hp
  have hacc := hbooks.account pid p hp
  obtain ⟨hid, halive⟩ := hup pid p hp
  have hhp := hacc.hp_eq
  rw [hacc.maxHp_eq] at hhp
  refine ⟨hid, hhp, halive, ?_, counters_le hbooks hp⟩
  rw [hacc.deaths_eq]
  by_cases ha : p.alive = true
  · have hpos := halive.mp ha
    rw [if_neg (by omega), if_pos ha]
  · have hpos : ¬ 1 ≤ p.hp := fun hle => ha (halive.mpr hle)
    rw [if_pos (by omega), if_neg ha]

theorem combat_reachable_soloBattle : ∃ (g : GameServer MemoryStore ℚ) (w : LogicWorker ℚ)
    (rs : WorkerRoom ℚ), g.battle.workers[1]? = some w ∧ w.rooms.lookup 1 = some rs ∧
    (∀ pid p, rs.players.lookup pid = some p →
      p.id = pid ∧ p.hp = max 0 (1000 - p.damageTaken) ∧ (p.alive = true ↔ 1 ≤ p.hp) ∧
      p.deaths = (if p.alive then 0 else 1) ∧
      p.kills ≤ rs.players.keys.card ∧ p.damageDealt ≤ rs.players.keys.card * 1111) ∧
    rs.players.sumVal BattlePlayer.kills = rs.players.sumVal BattlePlayer.deaths ∧
    rs.players.sumVal BattlePlayer.damageDealt = rs.players.sumVal BattlePlayer.damageTaken ∧
    rs.disconnected = ∅ := by
  obtain ⟨g, as, w, rs, hexec, hw, hrs⟩ := room_soloBattle
  exact ⟨g, w, rs, hw, hrs, combat_reachable (run_of_exec hexec) hw hrs⟩

end GameServer

/-! ### A battle only goes down -/

omit [FloatOps F] in
/-- `q` is what may become of `p` in a battle. -/
structure Declines (p q : BattlePlayer F) : Prop where
  hp_le : max 0 q.hp ≤ max 0 p.hp
  kills_le : p.kills ≤ q.kills
  deaths_le : p.deaths ≤ q.deaths
  dealt_le : p.damageDealt ≤ q.damageDealt
  taken_le : p.damageTaken ≤ q.damageTaken
  dead : p.alive = false → q.alive = false

namespace Declines

omit [FloatOps F] in
theorem refl (p : BattlePlayer F) : Declines p p := ⟨le_rfl, le_rfl, le_rfl, le_rfl, le_rfl, id⟩

omit [FloatOps F] in
theorem trans (p q q' : BattlePlayer F) (h : Declines p q) (h' : Declines q q') :
    Declines p q' where
  hp_le := h'.hp_le.trans h.hp_le
  kills_le := h.kills_le.trans h'.kills_le
  deaths_le := h.deaths_le.trans h'.deaths_le
  dealt_le := h.dealt_le.trans h'.dealt_le
  taken_le := h.taken_le.trans h'.taken_le
  dead := h'.dead ∘ h.dead

end Declines

namespace TickEngine

open Finmap (Pointwise)

omit [FloatOps F] in
theorem declines_settle {dmg : ℤ} (hdmg : 0 ≤ dmg) (t : BattlePlayer F) :
    Declines t (settle dmg t) := by
  refine ⟨?_, by simp, ?_, by simp, by simp [hdmg], alive_settle⟩
  · unfold settle
    split
    · show max 0 (0 : ℤ) ≤ max 0 t.hp
      omega
    · show max 0 (t.hp - dmg) ≤ max 0 t.hp
      omega
  · rw [deaths_settle]
    have := lethal_nonneg dmg t
    omega

omit [FloatOps F] in
theorem declines_reward {dmg n : ℤ} (hdmg : 0 ≤ dmg) (hn : 0 ≤ n) (a : BattlePlayer F) :
    Declines a (reward dmg n a) := by
  refine ⟨le_rfl, ?_, le_rfl, ?_, le_rfl, id⟩
  · show a.kills ≤ a.kills + n
    omega
  · show a.damageDealt ≤ a.damageDealt + dmg
    omega

omit [FloatOps F] in
theorem declines_takeDamage (players : Players F) {aid tid : PlayerId} {t : BattlePlayer F}
    (ht : players.lookup tid = some t) {dmg : ℤ} (hdmg : 0 ≤ dmg) :
    Pointwise Declines players (takeDamage players aid tid dmg).1 := by
  rw [takeDamage_eq ht]
  have hhit : Pointwise Declines players (players.modify tid (settle dmg)) :=
    Pointwise.modify Declines.refl tid (declines_settle hdmg)
  exact hhit.trans Declines.trans
    (Pointwise.modify Declines.refl aid (declines_reward hdmg (lethal_nonneg dmg t)))

theorem declines_execute (players : Players F) (cmd : Command F) (p : BattlePlayer F) :
    Pointwise Declines players (execute {} players cmd p).1 := by
  have hsame : ∀ f : BattlePlayer F → BattlePlayer F, (∀ q, SameBooks q (f q)) →
      Pointwise Declines players (players.modify cmd.playerId f) := by
    intro f hf
    refine Pointwise.modify Declines.refl _ fun q => ?_
    have hq := hf q
    refine ⟨hq.hp_eq ▸ le_rfl, hq.kills_eq.ge, hq.deaths_eq.ge, hq.dealt_eq.ge, hq.taken_eq.ge, ?_⟩
    intro hdead
    rw [← Bool.not_eq_true] at hdead ⊢
    exact mt hq.alive hdead
  unfold execute
  cases cmd.type with
  | move => exact hsame _ fun q => sameBooks_processMove _ _ _ q
  | stopMove => exact hsame _ fun q => ⟨rfl, rfl, rfl, rfl, rfl, rfl, rfl, rfl, id⟩
  | attack =>
    dsimp only
    split
    · exact Pointwise.refl Declines.refl _
    · rename_i t ht
      rcases processAttack_cases {} players cmd.playerId cmd.targetId p t with
        heq | ⟨-, -, -, heq⟩
      · rw [heq]
        exact Pointwise.refl Declines.refl _
      · rw [heq]
        exact declines_takeDamage players ht (calcDamage_pos _ _)
  | skill =>
    have hcool : ∀ cooldownMs, Pointwise Declines players
        (players.modify cmd.playerId (setCooldown cmd.skillId cooldownMs)) :=
      fun _ => hsame _ fun q => ⟨rfl, rfl, rfl, rfl, rfl, rfl, rfl, rfl, id⟩
    rcases processSkill_cases {} players cmd.playerId cmd.targetId p
      (players.lookup cmd.targetId) cmd.skillId with
      ⟨heq, -⟩ | ⟨skill, hmem, -, -, -, ⟨t, ht, -, heq⟩ | ⟨-, heq⟩⟩
    · rw [heq]
      exact Pointwise.refl Declines.refl _
    · obtain ⟨t', ht', -⟩ := (hcool skill.cooldownMs).lookup_left ht
      rw [heq]
      exact (hcool _).trans Declines.trans
        (declines_takeDamage _ ht' (scaleDamage_nonneg (calcDamage_pos _ _) hmem))
    · rw [heq]
      exact hcool _
  | leave =>
    exact hsame _ fun q => ⟨rfl, rfl, rfl, rfl, rfl, rfl, rfl, rfl, fun h => nomatch h⟩

theorem declines_acts (s : TickEngine × Players F) (cmds : List (Command F)) :
    Pointwise Declines s.2 (cmds.foldl act s).2 := by
  induction cmds generalizing s with
  | nil => exact Pointwise.refl Declines.refl _
  | cons cmd cmds ih =>
    rw [List.foldl_cons]
    refine Pointwise.trans Declines.trans ?_ (ih _)
    rcases act_cases s cmd with ⟨-, heq⟩ | ⟨-, p, -, heq⟩
    · rw [heq]
      exact Pointwise.refl Declines.refl _
    · rw [heq]
      exact declines_execute s.2 cmd p

omit [FloatOps F] in
theorem declines_mapVal (players : Players F) {f : PlayerId → BattlePlayer F → BattlePlayer F}
    (hf : ∀ pid p, Declines p (f pid p)) : Pointwise Declines players (players.mapVal f) := by
  intro pid
  rw [Finmap.lookup_mapVal]
  rcases players.lookup pid with - | p
  · exact .none
  · exact .some (hf pid p)

theorem declines_processTick (e : TickEngine) (players : Players F) (cmds : List (Command F))
    (bc : Broadcaster (BattlePayload F)) (aoi : AoiGrid) (order : List PlayerId) :
    Pointwise Declines players (e.processTick players cmds bc aoi order).players := by
  rw [players_processTick]
  exact (declines_acts (e, players) cmds).trans Declines.trans
    (declines_mapVal _ fun _ p => ⟨le_rfl, le_rfl, le_rfl, le_rfl, le_rfl, id⟩)

end TickEngine

namespace LogicWorker

open Finmap (Pointwise)

omit [FloatOps F] in
theorem declines_checkDisconnected (rs : WorkerRoom F) (now : ℤ) :
    Pointwise Declines rs.players (checkDisconnected rs now).players := by
  refine TickEngine.declines_mapVal rs.players fun pid p => ?_
  split
  · exact Declines.refl p
  · split
    · refine ⟨?_, le_rfl, le_rfl, le_rfl, le_rfl, fun _ => rfl⟩
      show max 0 (0 : ℤ) ≤ max 0 p.hp
      omega
    · exact Declines.refl p

/-- The room `r` goes on, with players that were `players`. -/
def GoesOn (r : RoomId) (players : Players F) (w : LogicWorker F) : Prop :=
  ¬ w.Awaits r ∧ ∃ rs, w.rooms.lookup r = some rs ∧ Pointwise Declines players rs.players

variable {P : RoomId → Players F → Prop} {r : RoomId} {w w' : LogicWorker F} {players : Players F}

omit [FloatOps F] in
/-- A room is written back, perhaps this one. -/
theorem GoesOn.insert (h : GoesOn r players w) {r' : RoomId} {rs' rs : WorkerRoom F}
    (hroom : w.rooms.lookup r' = some rs) (hrs : Pointwise Declines rs.players rs'.players) :
    ∃ q, (w.rooms.insert r' rs').lookup r = some q ∧ Pointwise Declines players q.players := by
  obtain ⟨-, q, hq, hdec⟩ := h
  rw [Finmap.lookup_insert_eq]
  split
  · rename_i hr
    subst hr
    obtain rfl := Option.some.inj (hroom.symm.trans hq)
    exact ⟨rs', rfl, hdec.trans Declines.trans hrs⟩
  · exact ⟨q, hq, hdec⟩

theorem GoesOn.step (h : GoesOn r players w) (hlaw : UnderLaw P w) {event : WorkerEvent F}
    {out : WorkerOut F}
    (hevent : GameServer.ofThread event = true ∨ ∃ cmd, event = .pushCommand cmd)
    (hstep : w.step event = some (w', out)) : GoesOn r players w' := by
  obtain ⟨hno, hrs⟩ := h
  cases step_cases hstep with
  | pushCommand cmd => exact ⟨hno, hrs⟩
  | drainPendingOp now phase =>
    unfold drainPendingOp
    split
    · exact ⟨hno, hrs⟩
    · rename_i op ops hops
      obtain ⟨a, ps, rfl, -⟩ := hlaw.queue op (hops ▸ List.mem_cons_self)
      -- it is another room that comes
      have hne : r ≠ a := by
        rintro rfl
        exact hno ⟨ps, hops ▸ List.mem_cons_self⟩
      refine ⟨?_, ?_⟩
      · rintro ⟨ps', hmem⟩
        exact hno ⟨ps', hops ▸ List.mem_cons_of_mem _ hmem⟩
      · obtain ⟨rs, hlookup, hdec⟩ := hrs
        exact ⟨rs, (Finmap.lookup_insert_of_ne _ hne).trans hlookup, hdec⟩
  | tickBegin order phase once => exact ⟨hno, hrs⟩
  | @tickRoom cmds left r' rs' order phase room members =>
    exact ⟨hno, GoesOn.insert ⟨hno, hrs⟩ room 
      (TickEngine.declines_processTick w.tickEngine rs'.players cmds w.bc w.aoi order)⟩
  | broadcast phase room => exact ⟨hno, hrs⟩
  | checkDisconnected now phase room =>
    exact ⟨hno, GoesOn.insert ⟨hno, hrs⟩ room (declines_checkDisconnected _ now)⟩
  | _ => simp [GameServer.ofThread] at hevent

omit [FloatOps F] in
/-- Another room is started. -/
theorem GoesOn.wake (h : GoesOn r players w) {op : PendingOp F}
    (hop : ∀ ps, op ≠ .addRoom r ps) (now : ℤ) (here : Prop) [Decidable here] :
    GoesOn r players (if (if here then w.enqueue op else w).roomCount = 0 then
      (if here then w.enqueue op else w).drainPendingOps now else if here then w.enqueue op else w) := by
  obtain ⟨hno, rs, hrs, hdec⟩ := h
  have hpushed : GoesOn r players (if here then w.enqueue op else w) := by
    split
    · refine ⟨?_, rs, hrs, hdec⟩
      rw [BattleManager.awaits_enqueue]
      rintro (hold | ⟨ps, heq⟩)
      · exact hno hold
      · exact hop ps heq
    · exact ⟨hno, rs, hrs, hdec⟩
  rw [if_neg]
  · exact hpushed
  · obtain ⟨-, q, hq, -⟩ := hpushed
    have := GameServer.roomCount_pos (Finmap.mem_of_lookup_eq_some hq)
    omega

end LogicWorker

namespace GameServer

open LogicWorker (UnderLaw GoesOn)

variable {pb : Protobuf F} {g g' : GameServer σ F}

theorem goesOn_step {P : ℕ → RoomId → Players F → Prop}
    (hlaw : ∀ (i : ℕ) w, g.battle.workers[i]? = some w → UnderLaw (P i) w) {i : ℕ} {r : RoomId}
    {players : Players F} {w : LogicWorker F} (hw : g.battle.workers[i]? = some w)
    (h : GoesOn r players w) {e : ServerEvent F × ServerOut F} (hstep : Steps pb g e g')
    (hcount : addRooms r [e] = 0) :
    ∃ w', g'.battle.workers[i]? = some w' ∧ GoesOn r players w' := by
  cases battleMove_step hstep.1 with
  | same battle quiet => exact ⟨w, battle ▸ hw, h⟩
  | @command a cmd type battle quiet =>
    refine ⟨g.battle.after i w (.dispatchCommand a cmd), ?_, ?_⟩
    · rw [battle, BattleManager.workers_step BattleManager.Steps.dispatchCommand, hw,
        Option.map_some]
    · unfold BattleManager.after
      dsimp only
      split
      · exact h
      · exact h
  | @start a before room now order found same members battle enqueued =>
    refine ⟨g.battle.after i w (.startBattle room order now), ?_, ?_⟩
    · rw [battle, BattleManager.startBattle_fst,
        BattleManager.workers_step (BattleManager.Steps.startBattle members), hw, Option.map_some]
    · -- another room is started
      rw [addRooms_single, enqueued] at hcount
      refine h.wake (fun ps heq => ?_) now _
      obtain ⟨rfl, -⟩ := PendingOp.addRoom.inj heq
      simp [addsRoom] at hcount
  | @worker j v v' event o started thread worker step battle quiet =>
    by_cases hij : j = i
    · subst hij
      obtain rfl := Option.some.inj (worker.symm.trans hw)
      refine ⟨v', ?_, h.step (hlaw j v hw) (Or.inl thread) step⟩
      obtain ⟨hlt, -⟩ := List.getElem?_eq_some_iff.mp hw
      rw [battle]
      exact List.getElem?_set_self hlt
    · refine ⟨w, ?_, h⟩
      rw [battle]
      exact (List.getElem?_set_ne hij).trans hw

/-- **A battle only goes down.**  A battle that is not started again stays on
its worker with the players it has, whatever happens on the server: hit points
never rise, counters never fall, and the dead stay dead. -/
theorem battle_declines {store : σ} {roomSize : ℤ}
    {past as : List (ServerEvent F × ServerOut F)}
    (hpast : Transition.Run (Steps pb) (init store roomSize) past g)
    (h : Transition.Run (Steps pb) g as g') {i : ℕ} {r : RoomId} {w : LogicWorker F}
    {rs : WorkerRoom F} (hw : g.battle.workers[i]? = some w) (hrs : w.rooms.lookup r = some rs)
    (hno : ¬ w.Awaits r) (hcount : addRooms r as = 0) :
    ∃ w' rs', g'.battle.workers[i]? = some w' ∧ w'.rooms.lookup r = some rs' ∧
      (∀ pid, pid ∈ rs'.players ↔ pid ∈ rs.players) ∧
      ∀ pid p, rs.players.lookup pid = some p → ∃ q, rs'.players.lookup pid = some q ∧
        q.hp ≤ p.hp ∧ p.kills ≤ q.kills ∧ p.deaths ≤ q.deaths ∧
        p.damageDealt ≤ q.damageDealt ∧ p.damageTaken ≤ q.damageTaken ∧
        (p.alive = false → q.alive = false) := by
  have hgoes : ∃ w', g'.battle.workers[i]? = some w' ∧ GoesOn r rs.players w' := by
    have hstart : ∃ w, g.battle.workers[i]? = some w ∧ GoesOn r rs.players w :=
      ⟨w, hw, hno, rs, hrs, Finmap.Pointwise.refl Declines.refl _⟩
    clear hw hrs hno
    induction h generalizing past with
    | nil => exact hstart
    | @cons g e as g₁ g' hstep hrest ih =>
      rw [← List.singleton_append, addRooms_append, Nat.add_eq_zero_iff] at hcount
      obtain ⟨v, hv, hgo⟩ := hstart
      exact ih (hpast.append (.single hstep)) hcount.2
        (goesOn_step (roomLaw_run memberLaw hpast) hv hgo hstep hcount.1)
  obtain ⟨w', hw', -, rs', hrs', hdec⟩ := hgoes
  refine ⟨w', rs', hw', hrs', fun pid => hdec.mem_iff, fun pid p hp => ?_⟩
  obtain ⟨q, hq, hpq⟩ := hdec.lookup_left hp
  -- hit points are never negative, at both ends
  obtain ⟨⟨hbooks, -⟩, -⟩ := (roomLaw_run combatLaw hpast i w hw).rooms r rs hrs
  obtain ⟨⟨hbooks', -⟩, -⟩ := (roomLaw_run combatLaw (hpast.append h) i w' hw').rooms r rs' hrs'
  have hphp := (hbooks.account pid p hp).hp_eq
  have hqhp := (hbooks'.account pid q hq).hp_eq
  have hle := hpq.hp_le
  exact ⟨q, hq, by omega, hpq.kills_le, hpq.deaths_le, hpq.dealt_le, hpq.taken_le, hpq.dead⟩

/-- Ann attacks bob once, and the worker makes its tick. -/
def oneAttack : List (ServerEvent ℚ) :=
  [duelFrame 1 4002 1, .worker 1 (.tickBegin [1]), .worker 1 (.tickRoom [1, 2]),
    .worker 1 .broadcast, .worker 1 (.checkDisconnected 0)]

/-- The battle of `duelEvents`, from its start over one attack: bob loses 75 hit points. -/
theorem battle_declines_oneAttack : ∃ (g' : GameServer KeyedStore ℚ) (w' : LogicWorker ℚ)
    (rs rs' : WorkerRoom ℚ), g'.battle.workers[1]? = some w' ∧ w'.rooms.lookup 1 = some rs' ∧
      ((rs.players.lookup 2).map BattlePlayer.hp = some 1000 ∧
        (rs'.players.lookup 2).map BattlePlayer.hp = some 925) ∧
      (∀ pid, pid ∈ rs'.players ↔ pid ∈ rs.players) ∧
      ∀ pid p, rs.players.lookup pid = some p → ∃ q, rs'.players.lookup pid = some q ∧
        q.hp ≤ p.hp ∧ p.kills ≤ q.kills ∧ p.deaths ≤ q.deaths ∧
        p.damageDealt ≤ q.damageDealt ∧ p.damageTaken ≤ q.damageTaken ∧
        (p.alive = false → q.alive = false) := by
  have hrun : (exec duelRequests (init ({} : KeyedStore) 2) (duelEvents.take 10)).bind (fun a =>
      (a.1.battle.workers[1]?).bind fun w => (w.rooms.lookup 1).bind fun rs =>
        (exec duelRequests a.1 oneAttack).bind fun b => (b.1.battle.workers[1]?).bind fun w' =>
          (w'.rooms.lookup 1).map fun rs' =>
            (w.pendingOps.isEmpty, addRooms 1 b.2, (rs.players.lookup 2).map BattlePlayer.hp,
              (rs'.players.lookup 2).map BattlePlayer.hp)) =
      some (true, 0, some (1000 : ℤ), some (925 : ℤ)) := by
    decide +kernel
  obtain ⟨⟨g, past⟩, hpast, hrun⟩ := Option.bind_eq_some_iff.mp hrun
  obtain ⟨w, hw, hrun⟩ := Option.bind_eq_some_iff.mp hrun
  obtain ⟨rs, hrs, hrun⟩ := Option.bind_eq_some_iff.mp hrun
  obtain ⟨⟨g', as⟩, has, hrun⟩ := Option.bind_eq_some_iff.mp hrun
  obtain ⟨v, hv, hrun⟩ := Option.bind_eq_some_iff.mp hrun
  obtain ⟨rs₁, hrs₁, heq⟩ := Option.map_eq_some_iff.mp hrun
  simp only [Prod.mk.injEq] at heq
  obtain ⟨hempty, hcount, hbefore, hafter⟩ := heq
  have hno : ¬ w.Awaits 1 := by
    rintro ⟨players, hmem⟩
    rw [List.isEmpty_iff.mp hempty] at hmem
    cases hmem
  obtain ⟨w', rs', hw', hrs', h⟩ :=
    battle_declines (run_of_exec hpast) (run_of_exec has) hw hrs hno hcount
  obtain rfl := Option.some.inj (hv.symm.trans hw')
  obtain rfl := Option.some.inj (hrs₁.symm.trans hrs')
  exact ⟨g', v, rs, rs₁, hv, hrs₁, ⟨hbefore, hafter⟩, h⟩

end GameServer

end MiniArena
