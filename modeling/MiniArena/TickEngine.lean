/-
MiniArena/TickEngine.lean

The 20 Hz battle logic (`game/tick_engine.cpp`).

The players of a room are a finite map.  A command names its players by id
and every write goes to the map entry of that id, one write after the other
as in the source, so that a player who attacks itself is read and written
through both names.  The three places that deal damage in `processAttack`
and `processSkill` do the same bookkeeping, `takeDamage`; they differ in
the damage, in the range test, and in whether the death is broadcast.

`int32_t` counters are integers here: the source leaves their overflow
undefined.  Distances are computed in an arbitrary `FloatOps`, the product
of a damage and a skill's ratio in binary32.
-/
import MiniArena.Binary32
import MiniArena.Broadcaster

namespace MiniArena

variable {F : Type} [FloatOps F]

abbrev RoomId := ℕ

/-- Combat attributes for a player inside a battle room. -/
structure BattlePlayer (F : Type) where
  id : PlayerId
  username : String
  posX : F
  posY : F
  dirX : F
  dirY : F
  hp : ℤ
  maxHp : ℤ
  atk : ℤ
  def_ : ℤ
  moveSpeed : F
  alive : Bool
  /-- Skill id to remaining milliseconds. -/
  cooldowns : Finmap fun _ : ℤ => ℤ
  kills : ℤ
  deaths : ℤ
  damageDealt : ℤ
  damageTaken : ℤ

/-- `BattlePlayer bp;` with its default member initialisers. -/
def BattlePlayer.default : BattlePlayer F where
  id := 0
  username := ""
  posX := FloatOps.ofRat 0
  posY := FloatOps.ofRat 0
  dirX := FloatOps.ofRat 0
  dirY := FloatOps.ofRat 1
  hp := 1000
  maxHp := 1000
  atk := 100
  def_ := 50
  moveSpeed := FloatOps.ofRat 200
  alive := true
  cooldowns := ∅
  kills := 0
  deaths := 0
  damageDealt := 0
  damageTaken := 0

abbrev Players (F : Type) := Finmap fun _ : PlayerId => BattlePlayer F

inductive CommandType
  | move
  | stopMove
  | attack
  | skill
  | leave
  deriving DecidableEq, Repr

structure Command (F : Type) where
  type : CommandType
  playerId : PlayerId
  sequence : UInt64
  moveDirX : F
  moveDirY : F
  targetId : PlayerId
  skillId : ℤ

/-- One `BattlePlayerState` entry of a notify. -/
structure PlayerState (F : Type) where
  playerId : PlayerId
  positionX : F
  positionY : F
  directionX : F
  directionY : F
  hp : ℤ
  maxHp : ℤ
  alive : Bool

def BattlePlayer.state (p : BattlePlayer F) : PlayerState F :=
  ⟨p.id, p.posX, p.posY, p.dirX, p.dirY, p.hp, p.maxHp, p.alive⟩

/-- The notifies the battle code serialises. -/
inductive BattlePayload (F : Type)
  | playerDeathNotify (playerId killerId : PlayerId) (deathCount : ℤ)
  | battleStateNotify (roomId : RoomId) (tick : ℕ) (players : List (PlayerState F))
  | battleSnapshotNotify (roomId : RoomId) (players : List (PlayerState F))

/-- Predefined skill definitions. -/
structure SkillDef where
  id : ℤ
  cooldownMs : ℤ
  damageRatio : ℚ
  range : ℚ
  aoe : Bool
  aoeRadius : ℚ
  deriving DecidableEq

/-- The ratio `0.8f` is the binary32 number next to `4 / 5`. -/
def kSkills : List SkillDef :=
  [⟨1, 3000, 3 / 2, 50, false, 0⟩,
    ⟨2, 5000, Binary32.round (4 / 5), 80, true, 60⟩,
    ⟨3, 8000, 1 / 2, 200, false, 0⟩]

def kNumSkills : ℤ := 3
def kTickIntervalMs : ℤ := 50

/-- The engine's own state: the largest sequence number seen of each player. -/
structure TickEngine where
  lastSeq : Finmap fun _ : PlayerId => UInt64 := ∅

namespace TickEngine

/-! ### Damage -/

def calcDamage (atk def_ : ℤ) : ℤ := max 1 (atk - def_.tdiv 2)

/-- `static_cast<int32_t>(calcDamage(..) * skill.damage_ratio)`. -/
def scaleDamage (dmg : ℤ) (ratio : ℚ) : ℤ :=
  Binary32.toInt (Binary32.mul (Binary32.ofInt dmg) ratio)

/-- What damage does to its target before the death test. -/
def hurt (dmg : ℤ) (t : BattlePlayer F) : BattlePlayer F :=
  { t with hp := t.hp - dmg, damageTaken := t.damageTaken + dmg }

def credit (dmg : ℤ) (a : BattlePlayer F) : BattlePlayer F :=
  { a with damageDealt := a.damageDealt + dmg }

def die (t : BattlePlayer F) : BattlePlayer F :=
  { t with hp := 0, alive := false, deaths := t.deaths + 1 }

def creditKill (a : BattlePlayer F) : BattlePlayer F := { a with kills := a.kills + 1 }

/-- The block that follows `int32_t dmg = ..`: the players after it, and the
death count of the target if it died. -/
def takeDamage (players : Players F) (attacker target : PlayerId) (dmg : ℤ) :
    Players F × Option ℤ :=
  let players := (players.modify target (hurt dmg)).modify attacker (credit dmg)
  match players.lookup target with
  | none => (players, none)
  | some t =>
      if t.hp ≤ 0 then
        ((players.modify target die).modify attacker creditKill, some (t.deaths + 1))
      else (players, none)

/-- The `PlayerDeathNotify` of a death, if there was one. -/
def deathNotify (bc : Broadcaster (BattlePayload F)) (target attacker : PlayerId) :
    Option ℤ → List (Send (BattlePayload F))
  | none => []
  | some deaths => bc.broadcastToRoom 4005 (.playerDeathNotify target attacker deaths)

/-! ### One command -/

def distance (a t : BattlePlayer F) : F :=
  FloatOps.hypot (FloatOps.sub t.posX a.posX) (FloatOps.sub t.posY a.posY)

def processMove (dirX dirY dtSec : F) (p : BattlePlayer F) : BattlePlayer F :=
  let len := FloatOps.hypot dirX dirY
  if FloatOps.lt len (FloatOps.ofRat (Binary32.round (1 / 10000))) then p
  else
    let ndx := FloatOps.div dirX len
    let ndy := FloatOps.div dirY len
    let dist := FloatOps.mul p.moveSpeed dtSec
    { p with
      posX := FloatOps.add p.posX (FloatOps.mul ndx dist)
      posY := FloatOps.add p.posY (FloatOps.mul ndy dist)
      dirX := ndx
      dirY := ndy }

/-- `attacker` and `target` are found under `aid` and `tid`. -/
def processAttack (bc : Broadcaster (BattlePayload F)) (players : Players F) (aid tid : PlayerId)
    (attacker target : BattlePlayer F) : Players F × List (Send (BattlePayload F)) :=
  if !attacker.alive || !target.alive then (players, [])
  else if FloatOps.lt (FloatOps.ofRat 60) (distance attacker target) then (players, [])
  else
    let r := takeDamage players aid tid (calcDamage attacker.atk target.def_)
    (r.1, deathNotify bc target.id attacker.id r.2)

/-- The cooldown check. -/
def onCooldown (caster : BattlePlayer F) (skillId : ℤ) : Bool :=
  match caster.cooldowns.lookup skillId with
  | none => false
  | some left => decide (0 < left)

def setCooldown (skillId cooldownMs : ℤ) (p : BattlePlayer F) : BattlePlayer F :=
  { p with cooldowns := p.cooldowns.insert skillId cooldownMs }

/-- `caster` is found under `cid`; `target` is what is found under `tid`. -/
def processSkill (bc : Broadcaster (BattlePayload F)) (players : Players F) (cid tid : PlayerId)
    (caster : BattlePlayer F) (target : Option (BattlePlayer F)) (skillId : ℤ) :
    Players F × List (Send (BattlePayload F)) :=
  if !caster.alive then (players, [])
  else if skillId < 1 ∨ kNumSkills < skillId then (players, [])
  else match kSkills[(skillId - 1).toNat]? with
    | none => (players, [])  -- the range test above excludes it
    | some skill =>
        if onCooldown caster skillId then (players, [])
        else
          let players := players.modify cid (setCooldown skillId skill.cooldownMs)
          match target with
          | none => (players, [])
          | some t =>
              if !t.alive then (players, [])
              else
                let dmg := scaleDamage (calcDamage caster.atk t.def_) skill.damageRatio
                if skill.aoe then
                  -- this branch tests no distance and announces no death
                  ((takeDamage players cid tid dmg).1, [])
                else if FloatOps.le (distance caster t) (FloatOps.ofRat skill.range) then
                  let r := takeDamage players cid tid dmg
                  (r.1, deathNotify bc t.id caster.id r.2)
                else (players, [])

/-! ### One tick -/

def isDuplicate (e : TickEngine) (pid : PlayerId) (seq : UInt64) : TickEngine × Bool :=
  match e.lastSeq.lookup pid with
  | none => ({ e with lastSeq := e.lastSeq.insert pid seq }, false)
  | some last =>
      if seq ≤ last then (e, true)
      else ({ e with lastSeq := e.lastSeq.insert pid seq }, false)

/-- The `switch` on the command type, for the player `p` found under its id. -/
def execute (bc : Broadcaster (BattlePayload F)) (players : Players F) (cmd : Command F)
    (p : BattlePlayer F) : Players F × List (Send (BattlePayload F)) :=
  match cmd.type with
  | .move =>
      let dtSec := FloatOps.div (FloatOps.ofRat kTickIntervalMs) (FloatOps.ofRat 1000)
      (players.modify cmd.playerId (processMove cmd.moveDirX cmd.moveDirY dtSec), [])
  | .stopMove =>
      (players.modify cmd.playerId fun p =>
        { p with dirX := FloatOps.ofRat 0, dirY := FloatOps.ofRat 0 }, [])
  | .attack =>
      match players.lookup cmd.targetId with
      | none => (players, [])
      | some t => processAttack bc players cmd.playerId cmd.targetId p t
  | .skill =>
      processSkill bc players cmd.playerId cmd.targetId p (players.lookup cmd.targetId)
        cmd.skillId
  | .leave => (players.modify cmd.playerId fun p => { p with alive := false }, [])

/-- What the loop over the commands carries. -/
structure Loop (F : Type) where
  engine : TickEngine
  players : Players F
  sends : List (Send (BattlePayload F)) := []

/-- The body of the loop over the commands. -/
def processCommand (bc : Broadcaster (BattlePayload F)) (s : Loop F) (cmd : Command F) : Loop F :=
  match s.players.lookup cmd.playerId with
  | none => s
  | some p =>
      if !p.alive then s
      else
        let d := s.engine.isDuplicate cmd.playerId cmd.sequence
        if d.2 then { s with engine := d.1 }
        else
          let r := execute bc s.players cmd p
          ⟨d.1, r.1, s.sends ++ r.2⟩

/-- The cooldowns of one player; entries that reach zero are erased. -/
def updateCooldowns (dtMs : ℤ) (p : BattlePlayer F) : BattlePlayer F :=
  { p with cooldowns := (p.cooldowns.mapVal fun _ left => left - dtMs).filterVal fun left =>
      !decide (left ≤ 0) }

/-- What one player adds to the broadcaster and the grid at the end of a tick. -/
def report (players : Players F) (s : Broadcaster (BattlePayload F) × AoiGrid) (pid : PlayerId) :
    Broadcaster (BattlePayload F) × AoiGrid :=
  match players.lookup pid with
  | none => s
  | some p =>
      (s.1.queueOverride pid 4004 (.battleStateNotify 0 0 [p.state]),
        s.2.update pid p.posX p.posY)

structure TickResult (F : Type) where
  engine : TickEngine
  players : Players F
  bc : Broadcaster (BattlePayload F)
  aoi : AoiGrid
  sends : List (Send (BattlePayload F))

/-- `processTick`; `order` is the order in which the last loop visits the players. -/
def processTick (e : TickEngine) (players : Players F) (cmds : List (Command F))
    (bc : Broadcaster (BattlePayload F)) (aoi : AoiGrid) (order : List PlayerId) : TickResult F :=
  let s := cmds.foldl (processCommand bc) ⟨e, players, []⟩
  let players := s.players.mapVal fun _ => updateCooldowns kTickIntervalMs
  let r := order.foldl (report players) (bc, aoi)
  ⟨s.engine, players, r.1, r.2, s.sends⟩

end TickEngine

end MiniArena
