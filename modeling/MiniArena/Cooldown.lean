/-
MiniArena/Cooldown.lean

The cooldowns of skills, over any run of `processTick` on the players of one
room.

A run is taken apart into its steps: an engine is put to work on the room,
commands are offered one by one, and the cooldowns are lowered at the end of
the tick (`ticks_iff`).  Of one player and one skill the entry in `cooldowns`
is then a countdown (`counts_cooldown`): a command that gets past the check
loads it, the end of a tick lowers it, and no other command touches it.

So a skill with cooldown `cd` used in tick `t` is refused up to the end of
tick `t + cd / 50 - 1`, and granted from then on (`cooldown_exact`).
-/
import MiniArena.Combat
import MiniArena.Countdown
import MiniArena.TickPlayers

namespace MiniArena

variable {F : Type} [FloatOps F]

namespace TickEngine

/-! ### The steps of a run -/

inductive TickStep (F : Type)
  /-- A tick begins, with an engine that may have served other rooms since. -/
  | begin (e : TickEngine)
  | command (cmd : Command F)
  /-- The tick ends: `updateCooldowns`. -/
  | cool

def TickStep.isCool : TickStep F → Bool
  | .cool => true
  | _ => false

def perform (s : TickEngine × Players F) : TickStep F → TickEngine × Players F
  | .begin e => (e, s.2)
  | .command cmd => act s cmd
  | .cool => (s.1, s.2.mapVal fun _ => updateCooldowns kTickIntervalMs)

omit [FloatOps F] in
def TickCall.steps (c : TickCall F) : List (TickStep F) :=
  .begin c.engine :: (c.cmds.map .command ++ [.cool])

/-- Where a run that starts with the players `start` is after some steps. -/
def reached (start : Players F) (steps : List (TickStep F)) : TickEngine × Players F :=
  steps.foldl perform ({}, start)

theorem perform_commands (s : TickEngine × Players F) (cmds : List (Command F)) :
    (cmds.map TickStep.command).foldl perform s = cmds.foldl act s := by
  rw [List.foldl_map]
  rfl

/-- The steps of a call do what the call does. -/
theorem ticks_iff {players players' : Players F} {c : TickCall F} (e : TickEngine) :
    Ticks players c players' ↔ players' = (c.steps.foldl perform (e, players)).2 := by
  rw [Ticks, players_processTick, TickCall.steps, List.foldl_cons, List.foldl_append,
    perform_commands]
  rfl

theorem run_ticks_iff {start last : Players F} {calls : List (TickCall F)} :
    Transition.Run Ticks start calls last ↔
      last = (reached start (calls.flatMap TickCall.steps)).2 := by
  have key : ∀ (calls : List (TickCall F)) (e : TickEngine) (start : Players F),
      Transition.Run Ticks start calls last ↔
        last = ((calls.flatMap TickCall.steps).foldl perform (e, start)).2 := by
    intro calls
    induction calls with
    | nil =>
      intro e start
      constructor
      · rintro ⟨⟩
        rfl
      · rintro rfl
        exact .nil
    | cons c calls ih =>
      intro e start
      rw [List.flatMap_cons, List.foldl_append]
      obtain ⟨e', players, heq⟩ : ∃ e' players, c.steps.foldl perform (e, start) = (e', players) :=
        ⟨_, _, rfl⟩
      have hstep : ∀ {p}, Ticks start c p ↔ p = players := by
        intro p
        rw [ticks_iff e, heq]
      rw [heq, ← ih e' players]
      constructor
      · rintro (- | ⟨hc, hrest⟩)
        exact hstep.mp hc ▸ hrest
      · exact fun hrest => .cons (hstep.mpr rfl) hrest
  exact key calls {} start

/-! ### One entry -/

/-- What is left of a player's cooldown of a skill. -/
def cooldownAt (players : Players F) (pid : PlayerId) (skillId : ℤ) : Option ℤ :=
  (players.lookup pid).bind fun p => p.cooldowns.lookup skillId

/-- The command is a use of this skill by this player. -/
def Uses (cmd : Command F) (pid : PlayerId) (skillId : ℤ) : Prop :=
  cmd.type = .skill ∧ cmd.playerId = pid ∧ cmd.skillId = skillId

/-- The use is executed and passes the cooldown check. -/
structure Casts (s : TickEngine × Players F) (cmd : Command F) (pid : PlayerId)
    (skillId : ℤ) : Prop where
  uses : Uses cmd pid skillId
  executed : executes ⟨s.1, s.2, []⟩ cmd = true
  known : ∃ skill ∈ kSkills, skill.id = skillId
  ready : ∀ p, s.2.lookup pid = some p → onCooldown p skillId = false

variable {players : Players F} {pid : PlayerId} {skillId : ℤ} {s : TickEngine × Players F}
  {cmd : Command F}

omit [FloatOps F] in
theorem cooldownAt_eq_bind (players : Players F) (pid : PlayerId) (skillId : ℤ) :
    cooldownAt players pid skillId
      = ((players.lookup pid).map BattlePlayer.cooldowns).bind (Finmap.lookup skillId) := by
  rw [Option.bind_map]
  rfl

omit [FloatOps F] in
theorem cooldownAt_modify (players : Players F) (aid pid : PlayerId)
    {f : BattlePlayer F → BattlePlayer F} (hf : ∀ p, (f p).cooldowns = p.cooldowns) :
    cooldownAt (players.modify aid f) pid skillId = cooldownAt players pid skillId := by
  rw [cooldownAt_eq_bind, Finmap.map_lookup_modify hf, ← cooldownAt_eq_bind]

omit [FloatOps F] in
theorem cooldownAt_takeDamage (players : Players F) (aid tid pid : PlayerId) (dmg : ℤ) :
    cooldownAt (takeDamage players aid tid dmg).1 pid skillId
      = cooldownAt players pid skillId := by
  rw [cooldownAt_eq_bind, map_lookup_takeDamage (fun _ _ => rfl) (fun _ _ => rfl)
    (fun _ => rfl) (fun _ => rfl), ← cooldownAt_eq_bind]

omit [FloatOps F] in
theorem cooldownAt_setCooldown {cid : PlayerId} {c : BattlePlayer F}
    (hc : players.lookup cid = some c) (castId cooldownMs : ℤ) (pid : PlayerId) (skillId : ℤ) :
    cooldownAt (players.modify cid (setCooldown castId cooldownMs)) pid skillId
      = if pid = cid ∧ skillId = castId then some cooldownMs
        else cooldownAt players pid skillId := by
  rw [cooldownAt, cooldownAt, Finmap.lookup_modify]
  by_cases hpid : pid = cid
  · subst hpid
    rw [if_pos rfl, hc, Option.map_some, Option.bind_some, Option.bind_some, setCooldown,
      Finmap.lookup_insert_eq]
    by_cases hid : skillId = castId
    · rw [if_pos hid, if_pos ⟨rfl, hid⟩]
    · rw [if_neg hid, if_neg fun h => hid h.2]
  · rw [if_neg hpid, if_neg fun h => hpid h.1]

omit [FloatOps F] in
/-- The end of a tick lowers every entry. -/
theorem cooldownAt_cool (players : Players F) (pid : PlayerId) (skillId : ℤ) :
    cooldownAt (players.mapVal fun _ => updateCooldowns kTickIntervalMs) pid skillId
      = Countdown.lower kTickIntervalMs (cooldownAt players pid skillId) := by
  rw [cooldownAt, cooldownAt, Finmap.lookup_mapVal]
  rcases players.lookup pid with - | p
  · rfl
  · rw [Option.map_some, Option.bind_some, Option.bind_some, updateCooldowns,
      Finmap.lookup_filterVal, Finmap.lookup_mapVal, Countdown.lower]
    rcases p.cooldowns.lookup skillId with - | left
    · rfl
    · rw [Option.map_some, Option.bind_some, Option.filter_some]
      by_cases hleft : left - kTickIntervalMs ≤ 0
      · rw [decide_eq_true hleft, if_pos hleft]
        rfl
      · rw [decide_eq_false hleft, if_neg hleft]
        rfl

/-! ### One command -/

theorem skill_unique {skill skill' : SkillDef} (h : skill ∈ kSkills) (h' : skill' ∈ kSkills)
    (hid : skill.id = skill'.id) : skill = skill' := by
  have hall : ∀ s ∈ kSkills, ∀ s' ∈ kSkills, s.id = s'.id → s = s' := by decide +kernel
  exact hall skill h skill' h' hid

omit [FloatOps F] in
theorem onCooldown_iff {p : BattlePlayer F} (hp : players.lookup pid = some p) :
    onCooldown p skillId = true ↔ ∃ left, cooldownAt players pid skillId = some left ∧ 0 < left := by
  rw [cooldownAt, hp, Option.bind_some, onCooldown]
  rcases p.cooldowns.lookup skillId with - | left
  · simp
  · simp

/-- A command that does not use the skill leaves the entry alone. -/
theorem cooldownAt_act_of_ne (h : ¬ Uses cmd pid skillId) :
    cooldownAt (act s cmd).2 pid skillId = cooldownAt s.2 pid skillId := by
  rcases act_cases s cmd with ⟨-, heq⟩ | ⟨-, p, hp, heq⟩
  · rw [heq]
  rw [heq]
  unfold execute
  cases htype : cmd.type with
  | move =>
    apply cooldownAt_modify
    intro q
    unfold processMove
    dsimp only
    split <;> rfl
  | stopMove => exact cooldownAt_modify _ _ _ fun _ => rfl
  | leave => exact cooldownAt_modify _ _ _ fun _ => rfl
  | attack =>
    dsimp only
    split
    · rfl
    · rename_i t _
      rcases processAttack_cases {} s.2 cmd.playerId cmd.targetId p t with hsame | ⟨-, -, -, hit⟩
      · exact congrArg (cooldownAt · pid skillId) hsame
      · rw [hit, cooldownAt_takeDamage]
  | skill =>
    have hother : ¬ (pid = cmd.playerId ∧ skillId = cmd.skillId) :=
      fun hsame => h ⟨htype, hsame.1.symm, hsame.2.symm⟩
    rcases processSkill_cases {} s.2 cmd.playerId cmd.targetId p (s.2.lookup cmd.targetId)
      cmd.skillId with ⟨hsame, -⟩ | ⟨skill, -, -, -, -, hit | miss⟩
    · exact congrArg (cooldownAt · pid skillId) hsame
    · obtain ⟨t, -, -, hplayers⟩ := hit
      refine (congrArg (cooldownAt · pid skillId) hplayers).trans ?_
      rw [cooldownAt_takeDamage, cooldownAt_setCooldown hp, if_neg hother]
    · refine (congrArg (cooldownAt · pid skillId) miss.2).trans ?_
      rw [cooldownAt_setCooldown hp, if_neg hother]

/-- A use that does not pass the check does nothing to the players. -/
theorem act_of_not_casts (huses : Uses cmd pid skillId) (h : ¬ Casts s cmd pid skillId) :
    (act s cmd).2 = s.2 := by
  rcases act_cases s cmd with ⟨-, heq⟩ | ⟨hex, p, hp, heq⟩
  · rw [heq]
  obtain ⟨htype, rfl, rfl⟩ := huses
  rw [heq]
  simp only [execute, htype]
  rcases processSkill_cases {} s.2 cmd.playerId cmd.targetId p (s.2.lookup cmd.targetId)
    cmd.skillId with ⟨hsame, -⟩ | ⟨skill, hskill, hid, -, hready, -⟩
  · exact hsame
  · refine absurd ⟨⟨htype, rfl, rfl⟩, hex, ⟨skill, hskill, hid⟩, fun p' hp' => ?_⟩ h
    obtain rfl := Option.some.inj (hp.symm.trans hp')
    exact hready

/-- A use that passes the check loads the entry. -/
theorem cooldownAt_act_of_casts {skill : SkillDef} (hskill : skill ∈ kSkills)
    (h : Casts s cmd pid skill.id) :
    cooldownAt (act s cmd).2 pid skill.id = some skill.cooldownMs := by
  obtain ⟨⟨htype, rfl, hid⟩, hex, -, hready⟩ := h
  rcases act_cases s cmd with ⟨hno, -⟩ | ⟨-, p, hp, heq⟩
  · rw [hex] at hno
    cases hno
  have halive : p.alive = true := by
    obtain ⟨p', hp', ha, -⟩ := processCommand_of_executes {} hex
    obtain rfl := Option.some.inj (hp.symm.trans hp')
    exact ha
  have hcool : onCooldown p cmd.skillId = false := hid ▸ hready p hp
  rw [heq]
  simp only [execute, htype]
  rcases processSkill_cases {} s.2 cmd.playerId cmd.targetId p (s.2.lookup cmd.targetId)
    cmd.skillId with ⟨-, hno⟩ | ⟨skill', hskill', hid', -, -, hit | miss⟩
  · exact absurd ⟨halive, ⟨skill, hskill, hid.symm⟩, hcool⟩ hno
  · obtain ⟨t, -, -, hplayers⟩ := hit
    obtain rfl := skill_unique hskill' hskill (hid'.trans hid)
    rw [hplayers, cooldownAt_takeDamage, cooldownAt_setCooldown hp, if_pos ⟨rfl, hid.symm⟩]
  · obtain rfl := skill_unique hskill' hskill (hid'.trans hid)
    rw [miss.2, cooldownAt_setCooldown hp, if_pos ⟨rfl, hid.symm⟩]

omit [FloatOps F] in
/-- A use that is executed while nothing is left passes the check. -/
theorem casts_of_cooldownAt_eq_none {skill : SkillDef} (hskill : skill ∈ kSkills)
    (huses : Uses cmd pid skill.id) (hex : executes ⟨s.1, s.2, []⟩ cmd = true)
    (hnone : cooldownAt s.2 pid skill.id = none) :
    Casts s cmd pid skill.id := by
  refine ⟨huses, hex, ⟨skill, hskill, rfl⟩, fun p hp => ?_⟩
  by_contra hcool
  obtain ⟨left, hleft, -⟩ := (onCooldown_iff hp).mp (Bool.not_eq_false _ ▸ hcool)
  rw [hnone] at hleft
  cases hleft

omit [FloatOps F] in
/-- A use that finds something left does not pass. -/
theorem not_casts_of_cooldownAt_eq_some {left : ℤ} (hleft : cooldownAt s.2 pid skillId = some left)
    (hpos : 0 < left) : ¬ Casts s cmd pid skillId := by
  intro hcast
  obtain ⟨p, hp, -⟩ := Option.bind_eq_some_iff.mp hleft
  have hcool := (onCooldown_iff hp).mpr ⟨left, hleft, hpos⟩
  rw [hcast.ready p hp] at hcool
  cases hcool

/-! ### The entry is a countdown -/

/-- The step is a use that passes the check. -/
def CastsAt (pid : PlayerId) (skillId : ℤ) (s : TickEngine × Players F) : TickStep F → Prop
  | .command cmd => Casts s cmd pid skillId
  | _ => False

theorem counts_cooldown (pid : PlayerId) {skill : SkillDef} (hskill : skill ∈ kSkills) :
    Countdown.Counts (perform (F := F)) (fun s => cooldownAt s.2 pid skill.id)
      (CastsAt pid skill.id) TickStep.isCool skill.cooldownMs kTickIntervalMs where
  amount := by decide
  tick s a ha := by
    cases a with
    | begin e => cases ha
    | command cmd => cases ha
    | cool => exact cooldownAt_cool s.2 pid skill.id
  load s a ha := by
    cases a with
    | begin e => cases ha
    | command cmd => exact cooldownAt_act_of_casts hskill ha
    | cool => cases ha
  keep s a ha hno := by
    cases a with
    | begin e => rfl
    | command cmd =>
      by_cases huses : Uses cmd pid skill.id
      · exact congrArg (cooldownAt · pid skill.id) (act_of_not_casts huses hno)
      · exact cooldownAt_act_of_ne huses
    | cool => cases ha
  idle s a left ha hleft := by
    cases a with
    | begin e => cases ha
    | command cmd =>
      by_contra hpos
      exact not_casts_of_cooldownAt_eq_some hleft (not_le.mp hpos) ha
    | cool => cases ha

/-- Every entry is one of a skill, and between 0 and what the skill loads. -/
def Bounded (players : Players F) : Prop :=
  ∀ pid skillId left, cooldownAt players pid skillId = some left →
    ∃ skill ∈ kSkills, skill.id = skillId ∧ 0 < left ∧ left ≤ skill.cooldownMs

theorem Bounded.perform (h : Bounded s.2) (a : TickStep F) : Bounded (perform s a).2 := by
  intro pid skillId left hleft
  cases a with
  | begin e => exact h pid skillId left hleft
  | cool =>
    replace hleft : Countdown.lower kTickIntervalMs (cooldownAt s.2 pid skillId) = some left :=
      (cooldownAt_cool s.2 pid skillId).symm.trans hleft
    obtain ⟨before, hbefore, heq⟩ := Option.bind_eq_some_iff.mp hleft
    obtain ⟨skill, hskill, hid, hpos, hle⟩ := h pid skillId before hbefore
    have hamount : (0 : ℤ) ≤ kTickIntervalMs := by decide
    split at heq
    · cases heq
    · obtain rfl := Option.some.inj heq
      exact ⟨skill, hskill, hid, by omega, by omega⟩
  | command cmd =>
    by_cases hcast : Casts s cmd pid skillId
    · obtain ⟨skill, hskill, rfl⟩ := hcast.known
      have hload := cooldownAt_act_of_casts hskill hcast
      have hpos : ∀ skill ∈ kSkills, 0 < skill.cooldownMs := by decide +kernel
      obtain rfl := Option.some.inj (hload.symm.trans hleft)
      exact ⟨skill, hskill, rfl, hpos skill hskill, le_refl _⟩
    · have hsame : cooldownAt (act s cmd).2 pid skillId = cooldownAt s.2 pid skillId := by
        by_cases huses : Uses cmd pid skillId
        · exact congrArg (cooldownAt · pid skillId) (act_of_not_casts huses hcast)
        · exact cooldownAt_act_of_ne huses
      exact h pid skillId left (hsame.symm.trans hleft)

/-! ### Runs -/

/-- No step of these passes the check for this player and this skill. -/
def NoCast (pid : PlayerId) (skillId : ℤ) : TickEngine × Players F → List (TickStep F) → Prop :=
  Transition.Along perform fun s a => ¬ CastsAt pid skillId s a

/-- How many ticks end in these steps. -/
def ticksIn (steps : List (TickStep F)) : ℕ := steps.countP TickStep.isCool

theorem reached_append (start : Players F) (past steps : List (TickStep F)) :
    reached start (past ++ steps) = steps.foldl perform (reached start past) :=
  List.foldl_append ..

theorem bounded_reached {start : Players F}
    (hempty : ∀ pid p, start.lookup pid = some p → p.cooldowns = ∅) (steps : List (TickStep F)) :
    Bounded (reached start steps).2 := by
  induction steps using List.reverseRecOn with
  | nil =>
    intro pid skillId left hleft
    obtain ⟨p, hp, hlook⟩ := Option.bind_eq_some_iff.mp hleft
    rw [hempty pid p hp] at hlook
    cases hlook
  | append_singleton steps a ih =>
    rw [reached_append]
    exact ih.perform a

section AfterCast

variable {start : Players F} {past mid : List (TickStep F)} {skill : SkillDef}

theorem cooldownAt_of_casts (hskill : skill ∈ kSkills)
    (hcast : Casts (reached start past) cmd pid skill.id) :
    cooldownAt (reached start (past ++ [.command cmd])).2 pid skill.id
      = Countdown.after skill.cooldownMs kTickIntervalMs 0 := by
  have hpos : ∀ skill ∈ kSkills, 0 < skill.cooldownMs := by decide +kernel
  rw [reached_append, Countdown.after_zero (hpos skill hskill)]
  exact cooldownAt_act_of_casts hskill hcast

/-- What is left after a use and the steps that follow it. -/
theorem cooldownAt_reached (hskill : skill ∈ kSkills)
    (hcast : Casts (reached start past) cmd pid skill.id)
    (hno : NoCast pid skill.id (reached start (past ++ [.command cmd])) mid) :
    cooldownAt (reached start (past ++ .command cmd :: mid)).2 pid skill.id
      = Countdown.after skill.cooldownMs kTickIntervalMs (ticksIn mid) := by
  have hrun := (counts_cooldown pid hskill).cell_run (cooldownAt_of_casts hskill hcast) hno
  rw [List.append_cons, reached_append]
  rw [Nat.zero_add] at hrun
  exact hrun

/-- No second use passes before the cooldown is over. -/
theorem noCast_of_lt (hskill : skill ∈ kSkills)
    (hcast : Casts (reached start past) cmd pid skill.id)
    (hlt : (ticksIn mid : ℤ) * kTickIntervalMs < skill.cooldownMs) :
    NoCast pid skill.id (reached start (past ++ [.command cmd])) mid := by
  refine (counts_cooldown pid hskill).along_of_lt (cooldownAt_of_casts hskill hcast) ?_
  rw [Nat.zero_add]
  exact hlt

end AfterCast

/-- **The cooldown is exact.**  Let the players start without cooldowns, and
let a use of a skill pass the check somewhere in a run of ticks.  A later use
by the same player has no effect on any player if fewer than `cd / 50` ticks
end in between; after that many, and with no use granted in between, it passes
the check if it is executed at all.  What is left depends on nothing but the
player's own uses of the skill and on the ticks. -/
theorem cooldown_exact {start last : Players F} {calls : List (TickCall F)}
    (hempty : ∀ pid p, start.lookup pid = some p → p.cooldowns = ∅)
    (hrun : Transition.Run Ticks start calls last) :
    last = (reached start (calls.flatMap TickCall.steps)).2 ∧
    (∀ past cmd mid cmd' rest pid skill, skill ∈ kSkills →
      calls.flatMap TickCall.steps = past ++ .command cmd :: (mid ++ .command cmd' :: rest) →
      Casts (reached start past) cmd pid skill.id → Uses cmd' pid skill.id →
      ((ticksIn mid : ℤ) < skill.cooldownMs / 50 →
        (act (reached start (past ++ .command cmd :: mid)) cmd').2
          = (reached start (past ++ .command cmd :: mid)).2) ∧
      (NoCast pid skill.id (reached start (past ++ [.command cmd])) mid →
        cooldownAt (reached start (past ++ .command cmd :: mid)).2 pid skill.id
          = Countdown.after skill.cooldownMs 50 (ticksIn mid) ∧
        (skill.cooldownMs / 50 ≤ ticksIn mid →
          executes ⟨(reached start (past ++ .command cmd :: mid)).1,
            (reached start (past ++ .command cmd :: mid)).2, []⟩ cmd' = true →
          Casts (reached start (past ++ .command cmd :: mid)) cmd' pid skill.id))) ∧
    (∀ past rest, calls.flatMap TickCall.steps = past ++ rest → Bounded (reached start past).2) ∧
    (∀ past cmd rest pid skillId,
      calls.flatMap TickCall.steps = past ++ .command cmd :: rest → ¬ Uses cmd pid skillId →
      cooldownAt (act (reached start past) cmd).2 pid skillId
        = cooldownAt (reached start past).2 pid skillId) := by
  refine ⟨run_ticks_iff.mp hrun, ?_, fun past _ _ => bounded_reached hempty past,
    fun _ _ _ _ _ _ => cooldownAt_act_of_ne⟩
  intro past cmd mid cmd' rest pid skill hskill _ hcast huses
  have hwhole : ∀ skill ∈ kSkills, skill.cooldownMs % 50 = 0 := by decide +kernel
  have hmod := hwhole skill hskill
  constructor
  · intro hlt
    have hlt' : (ticksIn mid : ℤ) * kTickIntervalMs < skill.cooldownMs := by
      rw [kTickIntervalMs]
      omega
    have hleft := cooldownAt_reached hskill hcast (noCast_of_lt hskill hcast hlt')
    rw [Countdown.after, if_pos hlt'] at hleft
    exact act_of_not_casts huses (not_casts_of_cooldownAt_eq_some hleft (by omega))
  · intro hno
    have hleft := cooldownAt_reached hskill hcast hno
    refine ⟨hleft, fun hge hex => casts_of_cooldownAt_eq_none hskill huses hex ?_⟩
    rw [hleft, Countdown.after, if_neg]
    rw [kTickIntervalMs]
    omega

/-- Player 1 alone uses its first skill twice in one batch. -/
def heavyTwice : TickCall ℚ where
  engine := {}
  cmds := [⟨.skill, 1, 1, 0, 0, 0, 1⟩, ⟨.skill, 1, 2, 0, 0, 0, 1⟩]

def soloPlayer : Players ℚ := Finmap.singleton 1 { BattlePlayer.default with id := 1 }

theorem cooldown_exact_heavyTwice :
    (act (reached soloPlayer [.begin {}, .command ⟨.skill, 1, 1, 0, 0, 0, 1⟩])
        ⟨.skill, 1, 2, 0, 0, 0, 1⟩).2
      = (reached soloPlayer [.begin {}, .command ⟨.skill, 1, 1, 0, 0, 0, 1⟩]).2 := by
  have hsolo : ∀ pid p, soloPlayer.lookup pid = some p →
      p = { BattlePlayer.default with id := 1 } := by
    intro pid p hp
    rw [soloPlayer, Finmap.lookup_eq_some_iff] at hp
    obtain ⟨rfl, heq⟩ := Sigma.mk.inj_iff.mp (Multiset.mem_singleton.mp hp)
    exact eq_of_heq heq
  have hempty : ∀ pid p, soloPlayer.lookup pid = some p → p.cooldowns = ∅ := by
    intro pid p hp
    rw [hsolo pid p hp]
    rfl
  have hcast : Casts (reached soloPlayer [.begin {}]) ⟨.skill, 1, 1, 0, 0, 0, 1⟩ 1 1 := by
    refine ⟨⟨rfl, rfl, rfl⟩, rfl, ⟨_, List.mem_cons_self .., rfl⟩, fun p hp => ?_⟩
    rw [hsolo 1 p hp]
    rfl
  have hrun : Transition.Run Ticks soloPlayer [heavyTwice]
      (processTick {} soloPlayer heavyTwice.cmds {} {} []).players := .single rfl
  exact ((cooldown_exact hempty hrun).2.1 [.begin {}] _ [] _ [.cool] 1 _ (List.mem_cons_self ..)
    rfl hcast ⟨rfl, rfl, rfl⟩).1 (by decide)

end TickEngine

end MiniArena
