/-
MiniArena/AttackRange.lean

Who can be hurt from how far away, in exact arithmetic on positions.

All damage goes through `takeDamage`, which hurts its target if the damage is
positive, and nobody else (`damaged_takeDamage_iff`).  An attack and a skill
with a single target test the distance first.  The branch of the area skill
does not: `range` and `aoe_radius` of the second skill are never looked at.
So damage stays within the reach of the action exactly if no second skill
meets a living target more than 80 away (`damage_in_range_iff`).
-/
import MiniArena.Combat
import MiniArena.RealPositions
import MiniArena.TickPlayers

namespace MiniArena

variable {F : Type}

/-! ### Who is hurt -/

/-- Between two states of the room a player lost hit points, or its count of
damage taken went up. -/
def Damaged (players players' : Players F) (pid : PlayerId) : Prop :=
  ∃ p p', players.lookup pid = some p ∧ players'.lookup pid = some p' ∧
    (p'.hp < p.hp ∨ p.damageTaken < p'.damageTaken)

/-- The two numbers that damage changes. -/
def BattlePlayer.health (p : BattlePlayer F) : ℤ × ℤ := (p.hp, p.damageTaken)

variable {players players' players'' : Players F} {pid : PlayerId}

theorem damaged_iff_health : Damaged players players' pid ↔
    ∃ h h', (players.lookup pid).map BattlePlayer.health = some h ∧
      (players'.lookup pid).map BattlePlayer.health = some h' ∧ (h'.1 < h.1 ∨ h.2 < h'.2) := by
  constructor
  · rintro ⟨p, p', hp, hp', hless⟩
    exact ⟨p.health, p'.health, by rw [hp]; rfl, by rw [hp']; rfl, hless⟩
  · rintro ⟨h, h', hh, hh', hless⟩
    obtain ⟨p, hp, rfl⟩ := Option.map_eq_some_iff.mp hh
    obtain ⟨p', hp', rfl⟩ := Option.map_eq_some_iff.mp hh'
    exact ⟨p, p', hp, hp', hless⟩

/-- Changes that leave the health alone do not show. -/
theorem damaged_modify_left (k : PlayerId) {f : BattlePlayer F → BattlePlayer F}
    (hf : ∀ p, (f p).health = p.health) :
    Damaged (players.modify k f) players' pid ↔ Damaged players players' pid := by
  rw [damaged_iff_health, damaged_iff_health, Finmap.map_lookup_modify hf]

theorem not_damaged_refl (players : Players F) (pid : PlayerId) :
    ¬ Damaged players players pid := by
  rintro ⟨p, p', hp, hp', hless⟩
  obtain rfl := Option.some.inj (hp.symm.trans hp')
  omega

theorem not_damaged_modify (k : PlayerId) {f : BattlePlayer F → BattlePlayer F}
    (hf : ∀ p, (f p).health = p.health) : ¬ Damaged players (players.modify k f) pid := by
  rw [← damaged_modify_left k hf]
  exact not_damaged_refl _ _

/-- An area skill reaches as far as the larger of its two numbers says. -/
def SkillDef.reach (skill : SkillDef) : ℚ :=
  if skill.aoe then max skill.range skill.aoeRadius else skill.range

namespace TickEngine

/-- Damage hurts its target, if it is positive, and nobody else. -/
theorem damaged_takeDamage_iff {aid tid : PlayerId} {t : BattlePlayer F} {dmg : ℤ}
    (ht : players.lookup tid = some t) (hdmg : 0 ≤ dmg) :
    Damaged players (takeDamage players aid tid dmg).1 pid ↔ pid = tid ∧ 0 < dmg := by
  have hlook : ((takeDamage players aid tid dmg).1.lookup pid).map BattlePlayer.health
      = if pid = tid then some (settle dmg t).health
        else (players.lookup pid).map BattlePlayer.health := by
    have hreward : ∀ p : BattlePlayer F, (reward dmg (lethal dmg t) p).health = p.health :=
      fun _ => rfl
    rw [takeDamage_eq ht, Finmap.map_lookup_modify hreward, Finmap.lookup_modify, ht]
    split <;> rfl
  rw [damaged_iff_health, hlook]
  by_cases hpid : pid = tid
  · subst hpid
    have htaken : (settle dmg t).health.2 = t.damageTaken + dmg := damageTaken_settle dmg t
    have hhp : dmg = 0 → t.hp ≤ (settle dmg t).health.1 := by
      rintro rfl
      rw [settle]
      split
      · rename_i hle
        simpa [BattlePlayer.health, die] using hle
      · simp [BattlePlayer.health, hurt]
    simp only [if_true, ht, Option.map_some, Option.some.injEq, true_and]
    constructor
    · rintro ⟨h, h', rfl, rfl, hless⟩
      by_contra hzero
      have := hhp (by omega)
      have hp : t.health.1 = t.hp := rfl
      have htk : t.health.2 = t.damageTaken := rfl
      omega
    · intro hpos
      refine ⟨_, _, rfl, rfl, Or.inr ?_⟩
      have htk : t.health.2 = t.damageTaken := rfl
      omega
  · rw [if_neg hpid]
    constructor
    · rintro ⟨h, h', heq, heq', hless⟩
      obtain rfl := Option.some.inj (heq.symm.trans heq')
      omega
    · rintro ⟨heq, -⟩
      exact absurd heq hpid

/-! ### Reach -/

/-- How far the action of a command reaches. -/
def reach (cmd : Command F) : ℚ :=
  match cmd.type with
  | .attack => 60
  | .skill => (kSkills.find? fun skill => skill.id == cmd.skillId).elim 0 SkillDef.reach
  | _ => 0

theorem reach_of_skill {cmd : Command F} {skill : SkillDef} (htype : cmd.type = .skill)
    (hskill : skill ∈ kSkills) (hid : skill.id = cmd.skillId) : reach cmd = skill.reach := by
  have hfind : ∀ skill ∈ kSkills,
      (kSkills.find? fun skill' => skill'.id == skill.id) = some skill := by decide +kernel
  rw [reach, htype, ← hid]
  dsimp only
  rw [hfind skill hskill]
  rfl

/-- The acting player and the player `pid` are within the reach of the command. -/
def InReach (players : Players ℝ) (cmd : Command ℝ) (pid : PlayerId) : Prop :=
  ∃ a t, players.lookup cmd.playerId = some a ∧ players.lookup pid = some t ∧
    distanceSq a t ≤ (reach cmd : ℝ) ^ 2

/-- The second skill is about to meet a living target more than 80 away, and
the damage does not round to nothing. -/
def SweepsFar (s : Loop ℝ) (cmd : Command ℝ) : Prop :=
  executes s cmd = true ∧ cmd.type = .skill ∧ cmd.skillId = 2 ∧
    ∃ a t, s.players.lookup cmd.playerId = some a ∧ s.players.lookup cmd.targetId = some t ∧
      onCooldown a 2 = false ∧ t.alive = true ∧ 2 ≤ calcDamage a.atk t.def_ ∧
      80 ^ 2 < distanceSq a t

/-- Four fifths of a damage are at least 1 unless it is 1 itself. -/
theorem scaleDamage_pos_iff {dmg : ℤ} (hdmg : 1 ≤ dmg) :
    0 < scaleDamage dmg (Binary32.round (4 / 5)) ↔ 2 ≤ dmg := by
  constructor
  · intro hpos
    by_contra hone
    obtain rfl : dmg = 1 := by omega
    have hzero : scaleDamage 1 (Binary32.round (4 / 5)) = 0 := by decide +kernel
    omega
  · intro htwo
    have hcast : (2 : ℚ) ^ (1 : ℤ) ≤ (dmg : ℚ) := by
      rw [zpow_one]
      exact_mod_cast htwo
    have hfloat : (2 : ℚ) ≤ Binary32.ofInt dmg := by
      have := Binary32.zpow_le_round (by norm_num) hcast
      rwa [zpow_one] at this
    have hratio : (1 / 2 : ℚ) ≤ Binary32.round (4 / 5) := by decide +kernel
    have hproduct : (2 : ℚ) ^ (0 : ℤ) ≤ Binary32.ofInt dmg * Binary32.round (4 / 5) := by
      rw [zpow_zero]
      nlinarith
    have hround := Binary32.zpow_le_round (by norm_num) hproduct
    rw [zpow_zero] at hround
    exact Binary32.one_le_toInt hround

theorem one_le_calcDamage (atk def_ : ℤ) : 1 ≤ calcDamage atk def_ := le_max_left _ _

/-! ### One command -/

section Command

variable (bc : Broadcaster (BattlePayload ℝ)) {room : Players ℝ} {cmd : Command ℝ}
  {a : BattlePlayer ℝ}

/-- An attack tests the distance. -/
theorem inReach_attack {t : BattlePlayer ℝ} (htype : cmd.type = .attack)
    (ha : room.lookup cmd.playerId = some a) (ht : room.lookup cmd.targetId = some t)
    (h : Damaged room (processAttack bc room cmd.playerId cmd.targetId a t).1 pid) :
    InReach room cmd pid := by
  rcases processAttack_cases bc room cmd.playerId cmd.targetId a t with
    heq | ⟨-, -, hnear, heq⟩
  · rw [heq] at h
    exact absurd h (not_damaged_refl _ _)
  rw [heq] at h
  have hdmg : 0 ≤ calcDamage a.atk t.def_ := zero_le_one.trans (one_le_calcDamage _ _)
  obtain ⟨rfl, -⟩ := (damaged_takeDamage_iff ht hdmg).mp h
  refine ⟨a, t, ha, ht, ?_⟩
  have hle : distance a t ≤ ((60 : ℚ) : ℝ) := by
    have hnot : ¬ (((60 : ℚ) : ℝ) < distance a t) := by
      simpa only [FloatOps.lt, FloatOps.ofRat, decide_eq_false_iff_not] using hnear
    exact not_lt.mp hnot
  rw [reach, htype]
  exact (distance_le_iff (by norm_num)).mp hle

/-- A skill that meets a target hurts it, if the damage is positive. -/
theorem damaged_skill_iff {t : BattlePlayer ℝ} {skill : SkillDef} {skillId : ℤ}
    (hskill : skill ∈ kSkills) (ht : room.lookup cmd.targetId = some t) :
    Damaged room (takeDamage (room.modify cmd.playerId (setCooldown skillId skill.cooldownMs))
        cmd.playerId cmd.targetId
        (scaleDamage (calcDamage a.atk t.def_) skill.damageRatio)).1 pid ↔
      pid = cmd.targetId ∧ 0 < scaleDamage (calcDamage a.atk t.def_) skill.damageRatio := by
  have hcool : ∀ p : BattlePlayer ℝ, (setCooldown skillId skill.cooldownMs p).health = p.health :=
    fun _ => rfl
  have hdmg : 0 ≤ scaleDamage (calcDamage a.atk t.def_) skill.damageRatio :=
    scaleDamage_nonneg (zero_le_one.trans (one_le_calcDamage _ _)) hskill
  obtain ⟨t', ht'⟩ : ∃ t', (room.modify cmd.playerId
      (setCooldown skillId skill.cooldownMs)).lookup cmd.targetId = some t' := by
    rw [Finmap.lookup_modify]
    split
    · rename_i heq
      rw [← heq, ht]
      exact ⟨_, rfl⟩
    · exact ⟨t, ht⟩
  rw [← damaged_modify_left cmd.playerId hcool]
  exact damaged_takeDamage_iff ht' hdmg

/-- The one skill that has an area. -/
theorem aoe_iff {skill : SkillDef} (hskill : skill ∈ kSkills) :
    skill.aoe = true ↔ skill.id = 2 := by
  have hall : ∀ skill ∈ kSkills, (skill.aoe = true ↔ skill.id = 2) := by decide +kernel
  exact hall skill hskill

/-- A skill that meets its target: in reach or too weak to be felt, unless it
is the area skill. -/
theorem inReach_skill_iff {t : BattlePlayer ℝ} {skill : SkillDef} (htype : cmd.type = .skill)
    (ha : room.lookup cmd.playerId = some a) (ht : room.lookup cmd.targetId = some t)
    (hskill : skill ∈ kSkills) (hid : skill.id = cmd.skillId) (hmeets : Meets a skill t) :
    (0 < scaleDamage (calcDamage a.atk t.def_) skill.damageRatio → InReach room cmd cmd.targetId) ↔
      ¬ (cmd.skillId = 2 ∧ 2 ≤ calcDamage a.atk t.def_ ∧ 80 ^ 2 < distanceSq a t) := by
  have hreach : InReach room cmd cmd.targetId ↔ distanceSq a t ≤ (skill.reach : ℝ) ^ 2 := by
    rw [InReach, reach_of_skill htype hskill hid]
    constructor
    · rintro ⟨a', t', ha', ht', hle⟩
      obtain rfl := Option.some.inj (ha.symm.trans ha')
      obtain rfl := Option.some.inj (ht.symm.trans ht')
      exact hle
    · exact fun hle => ⟨a, t, ha, ht, hle⟩
  rw [hreach]
  by_cases harea : skill.aoe = true
  · have htwo : skill.id = 2 := (aoe_iff hskill).mp harea
    have hall : ∀ skill ∈ kSkills, skill.id = 2 →
        skill.damageRatio = Binary32.round (4 / 5) ∧ skill.reach = 80 := by decide +kernel
    obtain ⟨hratio, hrange⟩ := hall skill hskill htwo
    have heighty : (((80 : ℚ) : ℝ)) = 80 := by norm_num
    rw [hratio, hrange, heighty, scaleDamage_pos_iff (one_le_calcDamage _ _)]
    constructor
    · rintro h ⟨-, hstrong, hfar⟩
      exact absurd (h hstrong) (not_le.mpr hfar)
    · intro h hstrong
      by_contra hfar
      exact h ⟨hid ▸ htwo, hstrong, not_le.mp hfar⟩
  · -- the distance has been tested
    have hle : distance a t ≤ ((skill.range : ℚ) : ℝ) := by
      have htest := hmeets.2.resolve_left harea
      simpa only [FloatOps.le, FloatOps.ofRat, decide_eq_true_eq] using htest
    have hrange : skill.reach = skill.range := if_neg harea
    have hnonneg : ∀ skill ∈ kSkills, 0 ≤ skill.range := by decide +kernel
    rw [hrange]
    refine iff_of_true (fun _ => ?_) ?_
    · exact (distance_le_iff (by exact_mod_cast hnonneg skill hskill)).mp hle
    · rintro ⟨htwo, -⟩
      exact harea ((aoe_iff hskill).mpr (hid.trans htwo))

end Command

theorem health_processMove {F : Type} [FloatOps F] (dirX dirY dtSec : F) (p : BattlePlayer F) :
    (processMove dirX dirY dtSec p).health = p.health := by
  unfold processMove
  dsimp only
  split <;> rfl

variable (bc : Broadcaster (BattlePayload ℝ)) {s : Loop ℝ} {cmd : Command ℝ}

theorem players_processCommand_skill {a : BattlePlayer ℝ} (hex : executes s cmd = true)
    (ha : s.players.lookup cmd.playerId = some a) (htype : cmd.type = .skill) :
    (processCommand bc s cmd).players = (processSkill bc s.players cmd.playerId cmd.targetId a
      (s.players.lookup cmd.targetId) cmd.skillId).1 := by
  obtain ⟨a', ha', -, -, heq⟩ := processCommand_of_executes bc hex
  obtain rfl := Option.some.inj (ha.symm.trans ha')
  rw [heq]
  simp only [execute, htype]

theorem damaged_of_sweepsFar (h : SweepsFar s cmd) :
    Damaged s.players (processCommand bc s cmd).players cmd.targetId ∧
      ¬ InReach s.players cmd cmd.targetId := by
  obtain ⟨hex, htype, htwo, a, t, ha, ht, hready, htarget, hstrong, hfar⟩ := h
  obtain ⟨a', ha', halive, -, -⟩ := processCommand_of_executes bc hex
  obtain rfl := Option.some.inj (ha.symm.trans ha')
  have hknown : ∃ skill ∈ kSkills, skill.id = cmd.skillId :=
    htwo ▸ ⟨_, List.mem_cons_of_mem _ (List.mem_cons_self ..), rfl⟩
  rw [players_processCommand_skill bc hex ha htype]
  rcases processSkill_cases bc s.players cmd.playerId cmd.targetId a
    (s.players.lookup cmd.targetId) cmd.skillId with
    ⟨-, hno⟩ | ⟨skill, hskill, hid, -, -, ⟨t', ht', hmeets, hhit⟩ | ⟨hmiss, -⟩⟩
  · exact absurd ⟨halive, hknown, htwo ▸ hready⟩ hno
  · obtain rfl := Option.some.inj (ht.symm.trans ht')
    have hgoal := inReach_skill_iff htype ha ht hskill hid hmeets
    have hnot := mt hgoal.mp fun hno => hno ⟨htwo, hstrong, hfar⟩
    rw [Classical.not_imp] at hnot
    rw [hhit]
    exact ⟨(damaged_skill_iff hskill ht).mpr ⟨rfl, hnot.1⟩, hnot.2⟩
  · exact absurd ⟨t, ht, htarget, Or.inl ((aoe_iff hskill).mpr (hid.trans htwo))⟩ hmiss

/-- Every other command tests the distance of whom it hurts. -/
theorem inReach_of_damaged (hno : ¬ SweepsFar s cmd)
    (h : Damaged s.players (processCommand bc s cmd).players pid) :
    InReach s.players cmd pid := by
  by_cases hex : executes s cmd = true
  swap
  · rw [processCommand_of_skipped bc (Bool.not_eq_true _ ▸ hex)] at h
    exact absurd h (not_damaged_refl _ _)
  obtain ⟨a, ha, -, -, heq⟩ := processCommand_of_executes bc hex
  have hplayers : (processCommand bc s cmd).players = (execute bc s.players cmd a).1 := by
    rw [heq]
  cases htype : cmd.type with
  | move =>
    simp only [hplayers, execute, htype] at h
    exact absurd h (not_damaged_modify _ (health_processMove _ _ _))
  | stopMove =>
    simp only [hplayers, execute, htype] at h
    exact absurd h (not_damaged_modify _ fun _ => rfl)
  | leave =>
    simp only [hplayers, execute, htype] at h
    exact absurd h (not_damaged_modify _ fun _ => rfl)
  | attack =>
    simp only [hplayers, execute, htype] at h
    split at h
    · exact absurd h (not_damaged_refl _ _)
    · rename_i t ht
      exact inReach_attack bc htype ha ht h
  | skill =>
    rw [players_processCommand_skill bc hex ha htype] at h
    rcases processSkill_cases bc s.players cmd.playerId cmd.targetId a
      (s.players.lookup cmd.targetId) cmd.skillId with
      ⟨hsame, -⟩ | ⟨skill, hskill, hid, -, hready, ⟨t, ht, hmeets, hhit⟩ | ⟨-, hsame⟩⟩
    · rw [hsame] at h
      exact absurd h (not_damaged_refl _ _)
    · rw [hhit] at h
      obtain ⟨rfl, hpos⟩ := (damaged_skill_iff hskill ht).mp h
      refine (inReach_skill_iff htype ha ht hskill hid hmeets).mpr ?_ hpos
      rintro ⟨htwo, hstrong, hfar⟩
      exact hno ⟨hex, htype, htwo, a, t, ha, ht, htwo ▸ hready, hmeets.1, hstrong, hfar⟩
    · rw [hsame] at h
      exact absurd h (not_damaged_modify _ fun _ => rfl)

/-- **Damage in range.**  Of any players and any command: whoever the command
hurts is within its reach exactly if it is no area skill that meets a living
target from more than 80 away. -/
theorem damage_in_range_iff (bc : Broadcaster (BattlePayload ℝ)) (s : Loop ℝ) (cmd : Command ℝ) :
    (∀ pid, Damaged s.players (processCommand bc s cmd).players pid →
      InReach s.players cmd pid) ↔ ¬ SweepsFar s cmd := by
  constructor
  · intro h hfar
    obtain ⟨hdamaged, hout⟩ := damaged_of_sweepsFar bc hfar
    exact hout (h _ hdamaged)
  · exact fun hno pid h => inReach_of_damaged bc hno h

/-- Two fresh players, 100 apart. -/
noncomputable def farDuel : Players ℝ :=
  (Finmap.singleton 2 { BattlePlayer.default with id := 2, posX := 100 }).insert 1
    { BattlePlayer.default with id := 1 }

/-- **The area skill hurts at any distance**: at 100, with a reach of 80. -/
theorem damaged_farDuel :
    ¬ ∀ (players : Players ℝ) (cmd : Command ℝ) (pid : PlayerId),
      Damaged players (processCommand {} ⟨{}, players, []⟩ cmd).players pid →
        InReach players cmd pid := by
  intro hclaim
  have hfar : SweepsFar ⟨{}, farDuel, []⟩ ⟨.skill, 1, 1, 0, 0, 2, 2⟩ := by
    refine ⟨rfl, rfl, rfl, _, _, rfl, rfl, rfl, rfl, by decide, ?_⟩
    norm_num [distanceSq, BattlePlayer.default, FloatOps.ofRat]
  obtain ⟨hdamaged, hout⟩ := damaged_of_sweepsFar {} hfar
  exact hout (hclaim farDuel ⟨.skill, 1, 1, 0, 0, 2, 2⟩ 2 hdamaged)

end TickEngine

end MiniArena
