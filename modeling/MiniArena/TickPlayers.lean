/-
MiniArena/TickPlayers.lean

What a tick does to the players of a room and to the sequence history, apart
from what it reports.  What an attack and a skill can do is said once, with
their guards (`processAttack_cases`, `processSkill_cases`).

`act` is the loop body of `processTick` on the engine and the players alone:
nothing it does to them depends on the broadcaster, the grid or the visiting
order (`core_processCommand`, `players_processTick`).  A batch then has three
properties the rooms of a worker rely on: commands of players outside the
room do nothing (`acts_filter`), the history of other players is left alone
(`lookup_acts_of_notMem`), and of the history only the entries of the room's
own players matter (`acts_congr`).
-/
import MiniArena.CommandOrder

namespace MiniArena

variable {F : Type} [FloatOps F]

namespace TickEngine

/-! ### Independence of the reports -/

theorem players_processAttack (bc bc' : Broadcaster (BattlePayload F)) (players : Players F)
    (aid tid : PlayerId) (a t : BattlePlayer F) :
    (processAttack bc players aid tid a t).1 = (processAttack bc' players aid tid a t).1 := by
  unfold processAttack
  split
  · rfl
  · split <;> rfl

theorem players_processSkill (bc bc' : Broadcaster (BattlePayload F)) (players : Players F)
    (cid tid : PlayerId) (c : BattlePlayer F) (t : Option (BattlePlayer F)) (skillId : ℤ) :
    (processSkill bc players cid tid c t skillId).1 =
      (processSkill bc' players cid tid c t skillId).1 := by
  unfold processSkill
  split
  · rfl
  split
  · rfl
  split
  · rfl
  split
  · rfl
  dsimp only
  split
  · rfl
  split
  · rfl
  split
  · rfl
  split <;> rfl

theorem players_execute (bc bc' : Broadcaster (BattlePayload F)) (players : Players F)
    (cmd : Command F) (p : BattlePlayer F) :
    (execute bc players cmd p).1 = (execute bc' players cmd p).1 := by
  unfold execute
  cases cmd.type with
  | attack =>
    dsimp only
    split
    · rfl
    · exact players_processAttack bc bc' _ _ _ _ _
  | skill => exact players_processSkill bc bc' _ _ _ _ _ _
  | _ => rfl

/-- The engine and the players of a loop state. -/
def Loop.core (s : Loop F) : TickEngine × Players F := (s.engine, s.players)

/-- The loop body, without its messages. -/
def act (s : TickEngine × Players F) (cmd : Command F) : TickEngine × Players F :=
  (processCommand {} ⟨s.1, s.2, []⟩ cmd).core

theorem core_processCommand (bc : Broadcaster (BattlePayload F)) (s : Loop F) (cmd : Command F) :
    (processCommand bc s cmd).core = act s.core cmd := by
  by_cases h : executes s cmd = true
  · have h' : executes (⟨s.engine, s.players, []⟩ : Loop F) cmd = true := h
    obtain ⟨p, hp, -, -, heq⟩ := processCommand_of_executes bc h
    obtain ⟨p', hp', -, -, heq'⟩ := processCommand_of_executes {} h'
    obtain rfl := Option.some.inj (hp.symm.trans hp')
    show (processCommand bc s cmd).core = (processCommand {} ⟨s.engine, s.players, []⟩ cmd).core
    rw [heq, heq', Loop.core, Loop.core, players_execute bc {}]
  · rw [Bool.not_eq_true] at h
    have h' : executes (⟨s.engine, s.players, []⟩ : Loop F) cmd = false := h
    show (processCommand bc s cmd).core = (processCommand {} ⟨s.engine, s.players, []⟩ cmd).core
    rw [processCommand_of_skipped bc h, processCommand_of_skipped {} h']
    rfl

theorem core_commands (bc : Broadcaster (BattlePayload F)) (s : Loop F) (cmds : List (Command F)) :
    (cmds.foldl (processCommand bc) s).core = cmds.foldl act s.core := by
  induction cmds generalizing s with
  | nil => rfl
  | cons cmd cmds ih => rw [List.foldl_cons, List.foldl_cons, ih, core_processCommand]

theorem players_processTick (e : TickEngine) (players : Players F) (cmds : List (Command F))
    (bc : Broadcaster (BattlePayload F)) (aoi : AoiGrid) (order : List PlayerId) :
    (e.processTick players cmds bc aoi order).players =
      (cmds.foldl act (e, players)).2.mapVal fun _ => updateCooldowns kTickIntervalMs := by
  have h := core_commands bc ⟨e, players, []⟩ cmds
  rw [← show (⟨e, players, []⟩ : Loop F).core = (e, players) from rfl, ← h]
  rfl

theorem engine_processTick (e : TickEngine) (players : Players F) (cmds : List (Command F))
    (bc : Broadcaster (BattlePayload F)) (aoi : AoiGrid) (order : List PlayerId) :
    (e.processTick players cmds bc aoi order).engine = (cmds.foldl act (e, players)).1 := by
  have h := core_commands bc ⟨e, players, []⟩ cmds
  rw [← show (⟨e, players, []⟩ : Loop F).core = (e, players) from rfl, ← h]
  rfl

/-! ### Attacks and skills -/

omit [FloatOps F] in
/-- An attribute of the players that has nothing to do with damage. -/
theorem map_lookup_takeDamage {W : Type} {g : BattlePlayer F → W}
    (hhurt : ∀ dmg p, g (hurt dmg p) = g p) (hcredit : ∀ dmg p, g (credit dmg p) = g p)
    (hdie : ∀ p, g (die p) = g p) (hkill : ∀ p, g (creditKill p) = g p)
    (players : Players F) (aid tid pid : PlayerId) (dmg : ℤ) :
    ((takeDamage players aid tid dmg).1.lookup pid).map g = (players.lookup pid).map g := by
  have hhit : (((players.modify tid (hurt dmg)).modify aid (credit dmg)).lookup pid).map g
      = (players.lookup pid).map g := by
    rw [Finmap.map_lookup_modify (hcredit dmg), Finmap.map_lookup_modify (hhurt dmg)]
  unfold takeDamage
  dsimp only
  split
  · exact hhit
  · split
    · rw [Finmap.map_lookup_modify hkill, Finmap.map_lookup_modify hdie, hhit]
    · exact hhit

/-- **What an attack does** to the players: nothing, or the target takes damage. -/
theorem processAttack_cases (bc : Broadcaster (BattlePayload F)) (players : Players F)
    (aid tid : PlayerId) (a t : BattlePlayer F) :
    (processAttack bc players aid tid a t).1 = players ∨
    (a.alive = true ∧ t.alive = true ∧
      FloatOps.lt (FloatOps.ofRat 60) (distance a t) = false ∧
      (processAttack bc players aid tid a t).1 =
        (takeDamage players aid tid (calcDamage a.atk t.def_)).1) := by
  unfold processAttack
  split
  · exact Or.inl rfl
  rename_i halive
  split
  · exact Or.inl rfl
  rename_i hnear
  rw [Bool.or_eq_true, not_or] at halive
  exact Or.inr ⟨by simpa using halive.1, by simpa using halive.2, by simpa using hnear, rfl⟩

theorem getElem?_kSkills {skillId : ℤ} {skill : SkillDef} :
    ¬ (skillId < 1 ∨ kNumSkills < skillId) ∧ kSkills[(skillId - 1).toNat]? = some skill ↔
      skill ∈ kSkills ∧ skill.id = skillId := by
  constructor
  · rintro ⟨hvalid, hskill⟩
    refine ⟨List.mem_of_getElem? hskill, ?_⟩
    rw [kNumSkills] at hvalid
    obtain rfl | rfl | rfl : skillId = 1 ∨ skillId = 2 ∨ skillId = 3 := by omega
    · obtain rfl := Option.some.inj hskill
      rfl
    · obtain rfl := Option.some.inj hskill
      rfl
    · obtain rfl := Option.some.inj hskill
      rfl
  · rintro ⟨hskill, rfl⟩
    simp only [kSkills, List.mem_cons, List.not_mem_nil, or_false] at hskill
    rcases hskill with rfl | rfl | rfl
    · exact ⟨by decide, rfl⟩
    · exact ⟨by decide, rfl⟩
    · exact ⟨by decide, rfl⟩

/-- The skill meets its target: one that is alive and, unless it is an area
skill, in range. -/
def Meets (caster : BattlePlayer F) (skill : SkillDef) (t : BattlePlayer F) : Prop :=
  t.alive = true ∧ (skill.aoe = true ∨
    FloatOps.le (distance caster t) (FloatOps.ofRat skill.range) = true)

/-- **What a skill does** to the players: nothing, or the cooldown of the
caster is set and the target, if the skill meets one, takes damage. -/
theorem processSkill_cases (bc : Broadcaster (BattlePayload F)) (players : Players F)
    (cid tid : PlayerId) (c : BattlePlayer F) (target : Option (BattlePlayer F)) (skillId : ℤ) :
    ((processSkill bc players cid tid c target skillId).1 = players ∧
      ¬ (c.alive = true ∧ (∃ skill ∈ kSkills, skill.id = skillId) ∧
        onCooldown c skillId = false)) ∨
    ∃ skill ∈ kSkills, skill.id = skillId ∧ c.alive = true ∧ onCooldown c skillId = false ∧
      ((∃ t, target = some t ∧ Meets c skill t ∧
          (processSkill bc players cid tid c target skillId).1 =
            (takeDamage (players.modify cid (setCooldown skillId skill.cooldownMs)) cid tid
              (scaleDamage (calcDamage c.atk t.def_) skill.damageRatio)).1) ∨
        (¬ (∃ t, target = some t ∧ Meets c skill t) ∧
          (processSkill bc players cid tid c target skillId).1 =
            players.modify cid (setCooldown skillId skill.cooldownMs))) := by
  by_cases hready : c.alive = true ∧ (∃ skill ∈ kSkills, skill.id = skillId) ∧
      onCooldown c skillId = false
  · right
    obtain ⟨halive, ⟨skill, hskill, hid⟩, hcool⟩ := hready
    obtain ⟨hvalid, hget⟩ := getElem?_kSkills.mpr ⟨hskill, hid⟩
    refine ⟨skill, hskill, hid, halive, hcool, ?_⟩
    have hdead : (!c.alive) = false := by rw [halive]; rfl
    simp only [processSkill, hdead, if_neg hvalid, hget, hcool, Bool.false_eq_true, if_false]
    cases target with
    | none =>
      refine Or.inr ⟨?_, rfl⟩
      rintro ⟨t, ht, -⟩
      cases ht
    | some t =>
      by_cases hmeets : Meets c skill t
      · refine Or.inl ⟨t, rfl, hmeets, ?_⟩
        obtain ⟨ht, haoe | hle⟩ := hmeets
        · simp [ht, haoe]
        · simp only [ht, hle, Bool.not_true, Bool.false_eq_true, if_false, if_true]
          split <;> rfl
      · refine Or.inr ⟨?_, ?_⟩
        · rintro ⟨t', ht', hm⟩
          obtain rfl := Option.some.inj ht'
          exact hmeets hm
        · by_cases ht : t.alive = true
          · rw [Meets, not_and, not_or] at hmeets
            obtain ⟨haoe, hle⟩ := hmeets ht
            simp [ht, haoe, hle]
          · simp [ht]
  · left
    refine ⟨?_, hready⟩
    unfold processSkill
    split
    · rfl
    rename_i halive
    split
    · rfl
    rename_i hvalid
    split
    · rfl
    rename_i skill hget
    obtain ⟨hskill, hid⟩ := getElem?_kSkills.mp ⟨hvalid, hget⟩
    have hcool : onCooldown c skillId = true := by
      by_contra hcool
      exact hready ⟨by simpa using halive, ⟨skill, hskill, hid⟩, by simpa using hcool⟩
    rw [hcool]
    rfl

/-- An attribute of the players that damage and cooldowns do not change is the
same after an attack or a skill. -/
theorem map_lookup_combat {W : Type} {g : BattlePlayer F → W}
    (hhurt : ∀ dmg p, g (hurt dmg p) = g p) (hcredit : ∀ dmg p, g (credit dmg p) = g p)
    (hdie : ∀ p, g (die p) = g p) (hkill : ∀ p, g (creditKill p) = g p)
    (hcool : ∀ castId cooldownMs p, g (setCooldown castId cooldownMs p) = g p)
    (bc : Broadcaster (BattlePayload F)) (players : Players F) {cmd : Command F}
    (htype : cmd.type = .attack ∨ cmd.type = .skill) (p : BattlePlayer F) (pid : PlayerId) :
    ((execute bc players cmd p).1.lookup pid).map g = (players.lookup pid).map g := by
  rcases htype with htype | htype
  · simp only [execute, htype]
    split
    · rfl
    · rename_i t _
      rcases processAttack_cases bc players cmd.playerId cmd.targetId p t with
        heq | ⟨-, -, -, heq⟩
      · rw [heq]
      · rw [heq, map_lookup_takeDamage hhurt hcredit hdie hkill]
  · simp only [execute, htype]
    rcases processSkill_cases bc players cmd.playerId cmd.targetId p
      (players.lookup cmd.targetId) cmd.skillId with
      ⟨heq, -⟩ | ⟨skill, -, -, -, -, ⟨t, -, -, heq⟩ | ⟨-, heq⟩⟩
    · rw [heq]
    · rw [heq, map_lookup_takeDamage hhurt hcredit hdie hkill,
        Finmap.map_lookup_modify (hcool _ _)]
    · rw [heq, Finmap.map_lookup_modify (hcool _ _)]

/-! ### Who is in the room -/

omit [FloatOps F] in
theorem keys_takeDamage (players : Players F) (aid tid : PlayerId) (dmg : ℤ) :
    (takeDamage players aid tid dmg).1.keys = players.keys := by
  unfold takeDamage
  dsimp only
  split
  · simp only [Finmap.keys_modify]
  · split <;> simp only [Finmap.keys_modify]

theorem keys_execute (bc : Broadcaster (BattlePayload F)) (players : Players F) (cmd : Command F)
    (p : BattlePlayer F) : (execute bc players cmd p).1.keys = players.keys := by
  unfold execute
  cases cmd.type with
  | attack =>
    dsimp only
    split
    · rfl
    · rename_i t _
      rcases processAttack_cases bc players cmd.playerId cmd.targetId p t with
        heq | ⟨-, -, -, heq⟩
      · rw [heq]
      · rw [heq, keys_takeDamage]
  | skill =>
    rcases processSkill_cases bc players cmd.playerId cmd.targetId p
      (players.lookup cmd.targetId) cmd.skillId with ⟨heq, -⟩ | ⟨skill, -, -, -, -, hit | miss⟩
    · rw [heq]
    · obtain ⟨t, -, -, heq⟩ := hit
      rw [heq, keys_takeDamage, Finmap.keys_modify]
    · rw [miss.2, Finmap.keys_modify]
  | _ => exact Finmap.keys_modify _ _ _

/-! ### One command -/

/-- **What a command does** to the engine and the players of a room: nothing,
or it is executed and its number becomes the mark of its player. -/
theorem act_cases (s : TickEngine × Players F) (cmd : Command F) :
    (executes ⟨s.1, s.2, []⟩ cmd = false ∧ act s cmd = s) ∨
    (executes ⟨s.1, s.2, []⟩ cmd = true ∧ ∃ p, s.2.lookup cmd.playerId = some p ∧
      act s cmd = (⟨s.1.lastSeq.insert cmd.playerId cmd.sequence⟩, (execute {} s.2 cmd p).1)) := by
  rcases h : executes (⟨s.1, s.2, []⟩ : Loop F) cmd with - | -
  · left
    refine ⟨rfl, ?_⟩
    rw [act, processCommand_of_skipped {} h]
    rfl
  · right
    obtain ⟨p, hp, -, -, heq⟩ := processCommand_of_executes {} h
    refine ⟨rfl, p, hp, ?_⟩
    rw [act, heq]
    rfl

omit [FloatOps F] in
theorem not_executes_of_notMem {e : TickEngine} {players : Players F} {cmd : Command F}
    (h : cmd.playerId ∉ players) : executes ⟨e, players, []⟩ cmd = false := by
  unfold executes
  rw [Finmap.lookup_eq_none.mpr h]

theorem act_of_notMem {s : TickEngine × Players F} {cmd : Command F} (h : cmd.playerId ∉ s.2) :
    act s cmd = s := by
  rcases act_cases s cmd with ⟨-, heq⟩ | ⟨hex, -⟩
  · exact heq
  · rw [not_executes_of_notMem h] at hex
    cases hex

theorem keys_act (s : TickEngine × Players F) (cmd : Command F) :
    (act s cmd).2.keys = s.2.keys := by
  rcases act_cases s cmd with ⟨-, heq⟩ | ⟨-, p, -, heq⟩
  · rw [heq]
  · rw [heq]
    exact keys_execute {} _ _ _

theorem lookup_act_of_ne {s : TickEngine × Players F} {cmd : Command F} {pid : PlayerId}
    (h : pid ≠ cmd.playerId) : (act s cmd).1.lastSeq.lookup pid = s.1.lastSeq.lookup pid := by
  rcases act_cases s cmd with ⟨-, heq⟩ | ⟨-, p, -, heq⟩
  · rw [heq]
  · rw [heq]
    exact Finmap.lookup_insert_of_ne _ h

/-- Two histories agree on the players of a room. -/
def AgreeOn (players : Players F) (e e' : TickEngine) : Prop :=
  ∀ pid ∈ players, e.lastSeq.lookup pid = e'.lastSeq.lookup pid

omit [FloatOps F] in
theorem AgreeOn.congr {players players' : Players F} {e e' : TickEngine} (h : AgreeOn players e e')
    (hkeys : players'.keys = players.keys) : AgreeOn players' e e' := by
  intro pid hpid
  apply h
  rwa [← Finmap.mem_keys, ← hkeys, Finmap.mem_keys]

omit [FloatOps F] in
/-- Of the history only the mark of the command's player is looked at. -/
theorem executes_congr {e e' : TickEngine} {players : Players F} {cmd : Command F}
    (h : e.lastSeq.lookup cmd.playerId = e'.lastSeq.lookup cmd.playerId) :
    executes ⟨e, players, []⟩ cmd = executes ⟨e', players, []⟩ cmd := by
  unfold executes isDuplicate
  dsimp only
  rw [h]
  rcases players.lookup cmd.playerId with - | p
  · rfl
  · rcases e'.lastSeq.lookup cmd.playerId with - | last
    · rfl
    · dsimp only
      split <;> rfl

/-- **One command on agreeing histories.** -/
theorem act_congr {e e' : TickEngine} {players : Players F} (h : AgreeOn players e e')
    (cmd : Command F) : (act (e, players) cmd).2 = (act (e', players) cmd).2 ∧
      AgreeOn players (act (e, players) cmd).1 (act (e', players) cmd).1 := by
  by_cases hmem : cmd.playerId ∈ players
  · have hex := @executes_congr F e e' players cmd (h cmd.playerId hmem)
    rcases act_cases (e, players) cmd with ⟨hno, heq⟩ | ⟨hyes, p, hp, heq⟩ <;>
      rcases act_cases (e', players) cmd with ⟨hno', heq'⟩ | ⟨hyes', p', hp', heq'⟩
    · rw [heq, heq']
      exact ⟨rfl, h⟩
    · cases hno.symm.trans (hex.trans hyes')
    · cases hyes.symm.trans (hex.trans hno')
    · obtain rfl := Option.some.inj (hp.symm.trans hp')
      rw [heq, heq']
      refine ⟨rfl, ?_⟩
      intro pid hpid
      rw [Finmap.lookup_insert_eq, Finmap.lookup_insert_eq]
      split
      · rfl
      · exact h pid hpid
  · rw [act_of_notMem (s := (e, players)) hmem, act_of_notMem (s := (e', players)) hmem]
    exact ⟨rfl, h⟩

/-! ### A batch -/

theorem keys_acts (s : TickEngine × Players F) (cmds : List (Command F)) :
    (cmds.foldl act s).2.keys = s.2.keys := by
  induction cmds generalizing s with
  | nil => rfl
  | cons cmd cmds ih => rw [List.foldl_cons, ih, keys_act]

theorem mem_acts {s : TickEngine × Players F} {cmds : List (Command F)} {pid : PlayerId} :
    pid ∈ (cmds.foldl act s).2 ↔ pid ∈ s.2 := by
  rw [← Finmap.mem_keys, keys_acts, Finmap.mem_keys]

/-- A batch on a room leaves the history of the players of other rooms alone. -/
theorem lookup_acts_of_notMem {s : TickEngine × Players F} {pid : PlayerId} (h : pid ∉ s.2)
    (cmds : List (Command F)) :
    (cmds.foldl act s).1.lastSeq.lookup pid = s.1.lastSeq.lookup pid := by
  induction cmds generalizing s with
  | nil => rfl
  | cons cmd cmds ih =>
    have hstill : pid ∉ (act s cmd).2 := by
      rwa [← Finmap.mem_keys, keys_act, Finmap.mem_keys]
    rw [List.foldl_cons, ih hstill]
    by_cases heq : pid = cmd.playerId
    · rw [act_of_notMem (heq ▸ h)]
    · exact lookup_act_of_ne heq

/-- Of the history only the marks of the room's players are looked at. -/
theorem acts_congr {e e' : TickEngine} {players : Players F} (h : AgreeOn players e e')
    (cmds : List (Command F)) :
    (cmds.foldl act (e, players)).2 = (cmds.foldl act (e', players)).2 ∧
      AgreeOn players (cmds.foldl act (e, players)).1 (cmds.foldl act (e', players)).1 := by
  induction cmds generalizing e e' players with
  | nil => exact ⟨rfl, h⟩
  | cons cmd cmds ih =>
    obtain ⟨hplayers, hagree⟩ := act_congr h cmd
    have hkeys := keys_act (e, players) cmd
    obtain ⟨hplayers', hagree'⟩ := ih (hagree.congr hkeys)
    rw [List.foldl_cons, List.foldl_cons]
    rw [show act (e, players) cmd = ((act (e, players) cmd).1, (act (e, players) cmd).2) from rfl,
      show act (e', players) cmd = ((act (e', players) cmd).1, (act (e, players) cmd).2) from
        Prod.ext rfl hplayers.symm]
    exact ⟨hplayers', hagree'.congr hkeys.symm⟩

/-- Commands of players outside the room do nothing. -/
theorem acts_filter (s : TickEngine × Players F) (cmds : List (Command F)) :
    cmds.foldl act s = (cmds.filter fun cmd => decide (cmd.playerId ∈ s.2)).foldl act s := by
  have key : ∀ (keys : Finset PlayerId) (s : TickEngine × Players F), s.2.keys = keys →
      cmds.foldl act s = (cmds.filter fun cmd => decide (cmd.playerId ∈ keys)).foldl act s := by
    intro keys
    induction cmds with
    | nil => exact fun _ _ => rfl
    | cons cmd cmds ih =>
      intro s hs
      rw [List.foldl_cons, List.filter_cons]
      by_cases hmem : cmd.playerId ∈ keys
      · rw [if_pos (by simpa using hmem), List.foldl_cons]
        exact ih _ ((keys_act s cmd).trans hs)
      · rw [if_neg (by simpa using hmem), act_of_notMem (by rwa [← Finmap.mem_keys, hs])]
        exact ih s hs
  simpa only [Finmap.mem_keys] using key s.2.keys s rfl

end TickEngine

end MiniArena
