/-
MiniArena/Combat.lean

The combat bookkeeping over whole battles.

`Account` is what the counters of one player say about each other, `Books`
what they say over the whole room.  All damage goes through `takeDamage`,
which is two independent changes of the map (`takeDamage_eq`): the target
settles, the attacker is rewarded.  Everything else a command does keeps the
books of every player (`SameBooks`).
-/
import MiniArena.TickPlayers
import MiniArena.Transition

namespace MiniArena

variable {F : Type}

/-! ### One player -/

/-- A player as `startBattle` creates it, at any position. -/
structure BattlePlayer.Fresh (p : BattlePlayer F) : Prop where
  hp_eq : p.hp = 1000
  maxHp_eq : p.maxHp = 1000
  atk_eq : p.atk = 100
  def_eq : p.def_ = 50
  alive : p.alive = true
  kills_eq : p.kills = 0
  deaths_eq : p.deaths = 0
  dealt_eq : p.damageDealt = 0
  taken_eq : p.damageTaken = 0

structure Account (p : BattlePlayer F) : Prop where
  maxHp_eq : p.maxHp = 1000
  atk_eq : p.atk = 100
  def_eq : p.def_ = 50
  hp_eq : p.hp = max 0 (p.maxHp - p.damageTaken)
  alive_pos : p.alive = true → 1 ≤ p.hp
  deaths_eq : p.deaths = if p.hp = 0 then 1 else 0
  taken_le : p.damageTaken ≤ 1111
  kills_nonneg : 0 ≤ p.kills
  dealt_nonneg : 0 ≤ p.damageDealt

theorem BattlePlayer.Fresh.account {p : BattlePlayer F} (h : p.Fresh) : Account p where
  maxHp_eq := h.maxHp_eq
  atk_eq := h.atk_eq
  def_eq := h.def_eq
  hp_eq := by rw [h.hp_eq, h.maxHp_eq, h.taken_eq]; rfl
  alive_pos := by rw [h.hp_eq]; omega
  deaths_eq := by rw [h.hp_eq, h.deaths_eq]; rfl
  taken_le := by rw [h.taken_eq]; omega
  kills_nonneg := h.kills_eq.ge
  dealt_nonneg := h.dealt_eq.ge

/-- `q` has the stats, hit points and counters of `p`, and is alive only if `p` is. -/
structure SameBooks (p q : BattlePlayer F) : Prop where
  maxHp_eq : q.maxHp = p.maxHp
  atk_eq : q.atk = p.atk
  def_eq : q.def_ = p.def_
  hp_eq : q.hp = p.hp
  kills_eq : q.kills = p.kills
  deaths_eq : q.deaths = p.deaths
  dealt_eq : q.damageDealt = p.damageDealt
  taken_eq : q.damageTaken = p.damageTaken
  alive : q.alive = true → p.alive = true

theorem SameBooks.refl (p : BattlePlayer F) : SameBooks p p :=
  ⟨rfl, rfl, rfl, rfl, rfl, rfl, rfl, rfl, id⟩

theorem SameBooks.account {p q : BattlePlayer F} (h : SameBooks p q) (hp : Account p) :
    Account q where
  maxHp_eq := h.maxHp_eq.trans hp.maxHp_eq
  atk_eq := h.atk_eq.trans hp.atk_eq
  def_eq := h.def_eq.trans hp.def_eq
  hp_eq := by rw [h.hp_eq, h.maxHp_eq, h.taken_eq, hp.hp_eq]
  alive_pos := fun ha => by rw [h.hp_eq]; exact hp.alive_pos (h.alive ha)
  deaths_eq := by rw [h.deaths_eq, h.hp_eq, hp.deaths_eq]
  taken_le := by rw [h.taken_eq]; exact hp.taken_le
  kills_nonneg := by rw [h.kills_eq]; exact hp.kills_nonneg
  dealt_nonneg := by rw [h.dealt_eq]; exact hp.dealt_nonneg

/-! ### The whole room -/

structure Books (players : Players F) : Prop where
  account : ∀ pid p, players.lookup pid = some p → Account p
  kills_eq_deaths : players.sumVal BattlePlayer.kills = players.sumVal BattlePlayer.deaths
  dealt_eq_taken :
    players.sumVal BattlePlayer.damageDealt = players.sumVal BattlePlayer.damageTaken

/-- Everyone stays in the room, and the dead stay dead. -/
def DeadStay (players players' : Players F) : Prop :=
  ∀ pid p, players.lookup pid = some p →
    ∃ q, players'.lookup pid = some q ∧ (p.alive = false → q.alive = false)

theorem DeadStay.refl (players : Players F) : DeadStay players players :=
  fun _ p hp => ⟨p, hp, id⟩

theorem DeadStay.trans {p₁ p₂ p₃ : Players F} (h : DeadStay p₁ p₂) (h' : DeadStay p₂ p₃) :
    DeadStay p₁ p₃ := by
  intro pid p hp
  obtain ⟨q, hq, hpq⟩ := h pid p hp
  obtain ⟨r, hr, hqr⟩ := h' pid q hq
  exact ⟨r, hr, hqr ∘ hpq⟩

/-- The players may have moved from the first map to the second. -/
def Advance (players players' : Players F) : Prop := Books players' ∧ DeadStay players players'

theorem Books.advance_refl {players : Players F} (h : Books players) : Advance players players :=
  ⟨h, DeadStay.refl players⟩

theorem deadStay_modify (players : Players F) (pid : PlayerId) {f : BattlePlayer F → BattlePlayer F}
    (hf : ∀ p, p.alive = false → (f p).alive = false) : DeadStay players (players.modify pid f) := by
  intro a p hp
  rw [Finmap.lookup_modify]
  by_cases ha : a = pid
  · subst ha
    exact ⟨f p, by simp [hp], hf p⟩
  · exact ⟨p, by simp [ha, hp], id⟩

/-- A sum over the room moves by what one entry moves. -/
theorem sumVal_modify_of_eq (players : Players F) (pid : PlayerId) (f : BattlePlayer F → ℤ)
    {g : BattlePlayer F → BattlePlayer F} (h : ∀ p, f (g p) = f p) :
    (players.modify pid g).sumVal f = players.sumVal f := by
  rcases hp : players.lookup pid with - | p
  · rw [Finmap.modify, hp]
  · rw [Finmap.sumVal_modify f g hp, h p, sub_self, add_zero]

theorem advance_modify {players : Players F} (h : Books players) (pid : PlayerId)
    {f : BattlePlayer F → BattlePlayer F} (hf : ∀ p, SameBooks p (f p)) :
    Advance players (players.modify pid f) := by
  refine ⟨⟨?_, ?_, ?_⟩, deadStay_modify players pid ?_⟩
  · intro a q hq
    rw [Finmap.lookup_modify] at hq
    split at hq
    · obtain ⟨p, hp, rfl⟩ := Option.map_eq_some_iff.mp hq
      exact (hf p).account (h.account pid p hp)
    · exact h.account a q hq
  · rw [sumVal_modify_of_eq _ _ _ fun p => (hf p).kills_eq,
      sumVal_modify_of_eq _ _ _ fun p => (hf p).deaths_eq]
    exact h.kills_eq_deaths
  · rw [sumVal_modify_of_eq _ _ _ fun p => (hf p).dealt_eq,
      sumVal_modify_of_eq _ _ _ fun p => (hf p).taken_eq]
    exact h.dealt_eq_taken
  · intro p hp
    cases ha : (f p).alive with
    | false => rfl
    | true =>
      have := (hf p).alive ha
      rw [hp] at this
      cases this

theorem advance_mapVal {players : Players F} (h : Books players)
    {f : BattlePlayer F → BattlePlayer F} (hf : ∀ p, SameBooks p (f p)) :
    Advance players (players.mapVal fun _ => f) := by
  refine ⟨⟨?_, ?_, ?_⟩, ?_⟩
  · intro a q hq
    rw [Finmap.lookup_mapVal] at hq
    obtain ⟨p, hp, rfl⟩ := Option.map_eq_some_iff.mp hq
    exact (hf p).account (h.account a p hp)
  · rw [Finmap.sumVal_mapVal _ _ _ fun _ p => (hf p).kills_eq,
      Finmap.sumVal_mapVal _ _ _ fun _ p => (hf p).deaths_eq]
    exact h.kills_eq_deaths
  · rw [Finmap.sumVal_mapVal _ _ _ fun _ p => (hf p).dealt_eq,
      Finmap.sumVal_mapVal _ _ _ fun _ p => (hf p).taken_eq]
    exact h.dealt_eq_taken
  · intro a p hp
    refine ⟨f p, by simp [Finmap.lookup_mapVal, hp], fun hdead => ?_⟩
    cases ha : (f p).alive with
    | false => rfl
    | true =>
      have := (hf p).alive ha
      rw [hdead] at this
      cases this

namespace TickEngine

/-! ### Damage -/

/-- What damage does to the target, death included. -/
def settle (dmg : ℤ) (t : BattlePlayer F) : BattlePlayer F :=
  if t.hp - dmg ≤ 0 then die (hurt dmg t) else hurt dmg t

/-- What it does to the attacker; `n` is 1 if the target died. -/
def reward (dmg n : ℤ) (a : BattlePlayer F) : BattlePlayer F :=
  { a with damageDealt := a.damageDealt + dmg, kills := a.kills + n }

/-- 1 if the damage kills. -/
def lethal (dmg : ℤ) (t : BattlePlayer F) : ℤ := if t.hp - dmg ≤ 0 then 1 else 0

theorem lethal_nonneg (dmg : ℤ) (t : BattlePlayer F) : 0 ≤ lethal dmg t := by
  unfold lethal; split <;> omega

@[simp] theorem kills_settle (dmg : ℤ) (t : BattlePlayer F) : (settle dmg t).kills = t.kills := by
  unfold settle; split <;> rfl

@[simp] theorem damageDealt_settle (dmg : ℤ) (t : BattlePlayer F) :
    (settle dmg t).damageDealt = t.damageDealt := by
  unfold settle; split <;> rfl

@[simp] theorem damageTaken_settle (dmg : ℤ) (t : BattlePlayer F) :
    (settle dmg t).damageTaken = t.damageTaken + dmg := by
  unfold settle; split <;> rfl

@[simp] theorem deaths_settle (dmg : ℤ) (t : BattlePlayer F) :
    (settle dmg t).deaths = t.deaths + lethal dmg t := by
  unfold settle lethal; split <;> simp [die, hurt]

theorem alive_settle {dmg : ℤ} {t : BattlePlayer F} (h : t.alive = false) :
    (settle dmg t).alive = false := by
  unfold settle
  split
  · rfl
  · exact h

/-- **Damage is two independent changes**, also when a player hits itself. -/
theorem takeDamage_eq {players : Players F} {aid tid : PlayerId} {t : BattlePlayer F}
    (ht : players.lookup tid = some t) (dmg : ℤ) :
    (takeDamage players aid tid dmg).1 =
      (players.modify tid (settle dmg)).modify aid (reward dmg (lethal dmg t)) := by
  -- the target as the death test sees it
  have hseen : ∃ t', ((players.modify tid (hurt dmg)).modify aid (credit dmg)).lookup tid
      = some t' ∧ t'.hp = t.hp - dmg := by
    rw [Finmap.lookup_modify]
    by_cases h : tid = aid
    · subst h
      exact ⟨credit dmg (hurt dmg t), by simp [ht], rfl⟩
    · exact ⟨hurt dmg t, by simp [ht, h], rfl⟩
  obtain ⟨t', ht', hhp⟩ := hseen
  unfold takeDamage
  simp only [ht', hhp]
  refine Finmap.ext_lookup fun a => ?_
  by_cases hkill : t.hp - dmg ≤ 0
  · rw [if_pos hkill]
    simp only [Finmap.lookup_modify, lethal, if_pos hkill]
    by_cases hat : a = tid
    · subst hat
      by_cases haa : a = aid
      · subst haa
        simp [ht, settle, hkill, reward, credit, creditKill, die, hurt]
      · simp [ht, haa, settle, hkill]
    · by_cases haa : a = aid
      · subst haa
        cases players.lookup a <;> simp [hat, reward, credit, creditKill]
      · simp [hat, haa]
  · rw [if_neg hkill]
    simp only [Finmap.lookup_modify, lethal, if_neg hkill]
    by_cases hat : a = tid
    · subst hat
      by_cases haa : a = aid
      · subst haa
        simp [ht, settle, hkill, reward, credit, hurt]
      · simp [ht, haa, settle, hkill]
    · by_cases haa : a = aid
      · subst haa
        cases players.lookup a <;> simp [hat, reward, credit]
      · simp [hat, haa]

theorem account_reward {p : BattlePlayer F} (h : Account p) {dmg n : ℤ} (hdmg : 0 ≤ dmg)
    (hn : 0 ≤ n) : Account (reward dmg n p) :=
  ⟨h.maxHp_eq, h.atk_eq, h.def_eq, h.hp_eq, h.alive_pos, h.deaths_eq, h.taken_le,
    add_nonneg h.kills_nonneg hn, add_nonneg h.dealt_nonneg hdmg⟩

/-- One hit takes a living player from at most 999 to at most 1111. -/
theorem account_settle {t : BattlePlayer F} (h : Account t) (halive : t.alive = true) {dmg : ℤ}
    (hpos : 0 ≤ dmg) (hle : dmg ≤ 112) : Account (settle dmg t) := by
  have hhp := h.hp_eq
  have hmax := h.maxHp_eq
  have hone := h.alive_pos halive
  have hdeaths := h.deaths_eq
  rw [hmax] at hhp
  have htaken : t.hp = 1000 - t.damageTaken := by omega
  rw [if_neg (by omega)] at hdeaths
  unfold settle
  split
  · refine ⟨hmax, h.atk_eq, h.def_eq, ?_, ?_, ?_, ?_, h.kills_nonneg, h.dealt_nonneg⟩
    · show (0 : ℤ) = max 0 (t.maxHp - (t.damageTaken + dmg))
      omega
    · intro hdead
      cases hdead
    · show t.deaths + 1 = if (0 : ℤ) = 0 then 1 else 0
      rw [if_pos rfl, hdeaths]
      rfl
    · show t.damageTaken + dmg ≤ 1111
      omega
  · refine ⟨hmax, h.atk_eq, h.def_eq, ?_, ?_, ?_, ?_, h.kills_nonneg, h.dealt_nonneg⟩
    · show t.hp - dmg = max 0 (t.maxHp - (t.damageTaken + dmg))
      omega
    · show t.alive = true → 1 ≤ t.hp - dmg
      omega
    · show t.deaths = if t.hp - dmg = 0 then 1 else 0
      rw [if_neg (by omega)]
      exact hdeaths
    · show t.damageTaken + dmg ≤ 1111
      omega

theorem advance_takeDamage {players : Players F} (h : Books players) {aid tid : PlayerId}
    {a t : BattlePlayer F} (ha : players.lookup aid = some a) (ht : players.lookup tid = some t)
    (halive : t.alive = true) {dmg : ℤ} (hpos : 0 ≤ dmg) (hle : dmg ≤ 112) :
    Advance players (takeDamage players aid tid dmg).1 := by
  rw [takeDamage_eq ht]
  have hdead : DeadStay players (players.modify tid (settle dmg)) :=
    deadStay_modify players tid fun _ => alive_settle
  obtain ⟨a', ha', -⟩ := hdead aid a ha
  have hdeaths : ∀ p : BattlePlayer F, (reward dmg (lethal dmg t) p).deaths = p.deaths :=
    fun _ => rfl
  have htaken : ∀ p : BattlePlayer F,
      (reward dmg (lethal dmg t) p).damageTaken = p.damageTaken := fun _ => rfl
  refine ⟨⟨?_, ?_, ?_⟩, hdead.trans (deadStay_modify _ aid fun _ hp => hp)⟩
  · have hsettled : ∀ b p, (players.modify tid (settle dmg)).lookup b = some p → Account p := by
      intro b p hp
      rw [Finmap.lookup_modify] at hp
      split at hp
      · rw [ht] at hp
        obtain rfl := Option.some.inj hp
        exact account_settle (h.account tid t ht) halive hpos hle
      · exact h.account b p hp
    intro pid q hq
    rw [Finmap.lookup_modify] at hq
    split at hq
    · obtain ⟨p, hp, rfl⟩ := Option.map_eq_some_iff.mp hq
      exact account_reward (hsettled aid p hp) hpos (lethal_nonneg dmg t)
    · exact hsettled pid q hq
  · rw [Finmap.sumVal_modify _ _ ha', sumVal_modify_of_eq players tid _ (kills_settle dmg),
      sumVal_modify_of_eq _ aid _ hdeaths, Finmap.sumVal_modify _ _ ht, h.kills_eq_deaths]
    simp [reward]
  · rw [Finmap.sumVal_modify _ _ ha', sumVal_modify_of_eq players tid _ (damageDealt_settle dmg),
      sumVal_modify_of_eq _ aid _ htaken, Finmap.sumVal_modify _ _ ht, h.dealt_eq_taken]
    simp [reward]

/-- The hardest hit of a fresh player on another: the first skill. -/
theorem scaleDamage_bounds :
    ∀ s ∈ kSkills, scaleDamage (calcDamage 100 50) s.damageRatio ≤ 112 := by
  decide +kernel

theorem scaleDamage_nonneg {dmg : ℤ} (h : 0 ≤ dmg) {s : SkillDef} (hs : s ∈ kSkills) :
    0 ≤ scaleDamage dmg s.damageRatio := by
  have hratio : ∀ s ∈ kSkills, 0 ≤ s.damageRatio := by decide +kernel
  have hcast : (0 : ℚ) ≤ dmg := by exact_mod_cast h
  exact Binary32.toInt_nonneg
    (Binary32.round_nonneg (mul_nonneg (Binary32.round_nonneg hcast) (hratio s hs)))

/-! ### Commands -/

variable [FloatOps F]

theorem sameBooks_processMove (dirX dirY dtSec : F) (p : BattlePlayer F) :
    SameBooks p (processMove dirX dirY dtSec p) := by
  unfold processMove
  dsimp only
  split
  · exact SameBooks.refl p
  · exact ⟨rfl, rfl, rfl, rfl, rfl, rfl, rfl, rfl, id⟩

section Command

variable {players : Players F} (bc : Broadcaster (BattlePayload F))

theorem advance_processAttack (h : Books players) {aid tid : PlayerId} {a t : BattlePlayer F}
    (ha : players.lookup aid = some a) (ht : players.lookup tid = some t) :
    Advance players (processAttack bc players aid tid a t).1 := by
  rcases processAttack_cases bc players aid tid a t with heq | ⟨-, htarget, -, heq⟩
  · rw [heq]
    exact h.advance_refl
  · have hdmg : calcDamage a.atk t.def_ = 75 := by
      rw [(h.account aid a ha).atk_eq, (h.account tid t ht).def_eq]
      rfl
    rw [heq, hdmg]
    exact advance_takeDamage h ha ht htarget (by omega) (by omega)

theorem advance_processSkill (h : Books players) {cid tid : PlayerId} {c : BattlePlayer F}
    (hc : players.lookup cid = some c) (skillId : ℤ) :
    Advance players (processSkill bc players cid tid c (players.lookup tid) skillId).1 := by
  rcases processSkill_cases bc players cid tid c (players.lookup tid) skillId with
    ⟨heq, -⟩ | ⟨skill, hmem, -, -, -, hcase⟩
  · rw [heq]
    exact h.advance_refl
  -- the cooldown is set, hit or not
  have hcool : Advance players (players.modify cid (setCooldown skillId skill.cooldownMs)) :=
    advance_modify h cid fun p => ⟨rfl, rfl, rfl, rfl, rfl, rfl, rfl, rfl, id⟩
  rcases hcase with ⟨t, ht, ⟨halive, -⟩, heq⟩ | ⟨-, heq⟩
  · obtain ⟨hbooks, hdead⟩ := hcool
    have hle := scaleDamage_bounds skill hmem
    have hraw : 0 ≤ calcDamage 100 50 := by decide
    have hpos := scaleDamage_nonneg hraw hmem
    have hc' : (players.modify cid (setCooldown skillId skill.cooldownMs)).lookup cid
        = some (setCooldown skillId skill.cooldownMs c) := by simp [hc]
    have ht' : ∃ t', (players.modify cid (setCooldown skillId skill.cooldownMs)).lookup tid
        = some t' ∧ t'.alive = true := by
      rw [Finmap.lookup_modify]
      split
      · rename_i hsame
        rw [← hsame, ht]
        exact ⟨setCooldown skillId skill.cooldownMs t, rfl, halive⟩
      · exact ⟨t, ht, halive⟩
    obtain ⟨t', ht', htarget⟩ := ht'
    rw [heq, (h.account cid c hc).atk_eq, (h.account tid t ht).def_eq]
    obtain ⟨hbooks', hdead'⟩ := advance_takeDamage hbooks hc' ht' htarget hpos hle
    exact ⟨hbooks', hdead.trans hdead'⟩
  · rw [heq]
    exact hcool

theorem advance_execute (h : Books players) (cmd : Command F) {p : BattlePlayer F}
    (hp : players.lookup cmd.playerId = some p) : Advance players (execute bc players cmd p).1 := by
  unfold execute
  cases cmd.type with
  | move => exact advance_modify h _ fun q => sameBooks_processMove _ _ _ q
  | stopMove =>
    exact advance_modify h _ fun q => ⟨rfl, rfl, rfl, rfl, rfl, rfl, rfl, rfl, id⟩
  | attack =>
    dsimp only
    split
    · exact h.advance_refl
    · rename_i t ht
      exact advance_processAttack bc h hp ht
  | skill => exact advance_processSkill bc h hp cmd.skillId
  | leave =>
    refine advance_modify h _ fun q => ⟨rfl, rfl, rfl, rfl, rfl, rfl, rfl, rfl, ?_⟩
    intro hdead
    cases hdead

theorem advance_processCommand {s : Loop F} (h : Books s.players) (cmd : Command F) :
    Advance s.players (processCommand bc s cmd).players := by
  unfold processCommand
  split
  · exact h.advance_refl
  rename_i p hp
  split
  · exact h.advance_refl
  dsimp only
  split
  · exact h.advance_refl
  · exact advance_execute bc h cmd hp

theorem advance_commands {s : Loop F} (h : Books s.players) (cmds : List (Command F)) :
    Advance s.players (cmds.foldl (processCommand bc) s).players := by
  induction cmds generalizing s with
  | nil => exact h.advance_refl
  | cons cmd cmds ih =>
    obtain ⟨hbooks, hdead⟩ := advance_processCommand bc h cmd
    obtain ⟨hbooks', hdead'⟩ := ih hbooks
    exact ⟨hbooks', hdead.trans hdead'⟩

end Command

/-! ### Ticks -/

/-- What one call of `processTick` is given besides the players. -/
structure TickCall (F : Type) where
  engine : TickEngine
  cmds : List (Command F)
  bc : Broadcaster (BattlePayload F) := {}
  aoi : AoiGrid := {}
  order : List PlayerId := []

/-- `processTick` as a step on the players of one room; the engine, the
broadcaster and the grid may be shared with anyone. -/
def Ticks (players : Players F) (c : TickCall F) (players' : Players F) : Prop :=
  players' = (processTick c.engine players c.cmds c.bc c.aoi c.order).players

theorem advance_ticks {players players' : Players F} {c : TickCall F} (h : Books players)
    (hstep : Ticks players c players') : Advance players players' := by
  obtain ⟨hbooks, hdead⟩ := advance_commands c.bc (s := ⟨c.engine, players, []⟩) h c.cmds
  have hcool : ∀ p : BattlePlayer F, SameBooks p (updateCooldowns kTickIntervalMs p) :=
    fun p => ⟨rfl, rfl, rfl, rfl, rfl, rfl, rfl, rfl, id⟩
  obtain ⟨hbooks', hdead'⟩ := advance_mapVal hbooks hcool
  rw [Ticks, processTick] at hstep
  subst hstep
  exact ⟨hbooks', hdead.trans hdead'⟩

theorem advance_run {players players' : Players F} {cs : List (TickCall F)} (h : Books players)
    (hrun : Transition.Run Ticks players cs players') : Advance players players' := by
  induction hrun with
  | nil => exact h.advance_refl
  | cons hstep _ ih =>
    obtain ⟨hbooks, hdead⟩ := advance_ticks h hstep
    obtain ⟨hbooks', hdead'⟩ := ih hbooks
    exact ⟨hbooks', hdead.trans hdead'⟩

end TickEngine

/-- All players fresh: every sum over the room is zero. -/
theorem books_of_fresh {players : Players F}
    (h : ∀ pid p, players.lookup pid = some p → p.Fresh) : Books players := by
  have hzero : ∀ f : BattlePlayer F → ℤ, (∀ p : BattlePlayer F, p.Fresh → f p = 0) →
      players.sumVal f = 0 := by
    intro f hf
    refine Multiset.sum_eq_zero fun x hx => ?_
    obtain ⟨⟨pid, p⟩, hmem, rfl⟩ := Multiset.mem_map.mp hx
    exact hf p (h pid p (Finmap.lookup_eq_some_iff.mpr hmem))
  refine ⟨fun pid p hp => (h pid p hp).account, ?_, ?_⟩
  · rw [hzero _ fun p hp => hp.kills_eq, hzero _ fun p hp => hp.deaths_eq]
  · rw [hzero _ fun p hp => hp.dealt_eq, hzero _ fun p hp => hp.taken_eq]

variable [FloatOps F]

/-- **Combat accounting.**  From any fresh players, after any number of
ticks with any commands, every player's hit points are what its damage
leaves, and kills and damage balance over the room; whoever is not alive
then is not alive in any later state. -/
theorem combat_accounting {start mid last : Players F} {cs cs' : List (TickEngine.TickCall F)}
    (hfresh : ∀ pid p, start.lookup pid = some p → p.Fresh)
    (hmid : Transition.Run TickEngine.Ticks start cs mid)
    (hlast : Transition.Run TickEngine.Ticks mid cs' last) :
    (∀ pid p, mid.lookup pid = some p →
      p.hp = max 0 (p.maxHp - p.damageTaken) ∧ (p.alive = true → 1 ≤ p.hp) ∧
      (p.deaths = 0 ∨ p.deaths = 1) ∧ (p.deaths = 1 ↔ p.hp = 0) ∧ p.damageTaken ≤ 1111 ∧
      (p.alive = false → ∃ q, last.lookup pid = some q ∧ q.alive = false)) ∧
    mid.sumVal BattlePlayer.kills = mid.sumVal BattlePlayer.deaths ∧
    mid.sumVal BattlePlayer.damageDealt = mid.sumVal BattlePlayer.damageTaken := by
  obtain ⟨hbooks, -⟩ := TickEngine.advance_run (books_of_fresh hfresh) hmid
  obtain ⟨-, hdead⟩ := TickEngine.advance_run hbooks hlast
  refine ⟨fun pid p hp => ?_, hbooks.kills_eq_deaths, hbooks.dealt_eq_taken⟩
  have hacc := hbooks.account pid p hp
  refine ⟨hacc.hp_eq, hacc.alive_pos, ?_, ?_, hacc.taken_le, ?_⟩
  · rw [hacc.deaths_eq]
    split
    · exact Or.inr rfl
    · exact Or.inl rfl
  · rw [hacc.deaths_eq]
    split
    · rename_i hz
      exact ⟨fun _ => hz, fun _ => rfl⟩
    · rename_i hz
      exact ⟨fun h => absurd h (by decide), fun h => absurd h hz⟩
  · intro ha
    obtain ⟨q, hq, hqa⟩ := hdead pid p hp
    exact ⟨q, hq, hqa ha⟩

omit [FloatOps F] in
/-- Each counter is at most 1111 times the size of the room, which keeps it
inside `int32_t` up to a million players. -/
theorem counters_le {players : Players F} (h : Books players) {pid : PlayerId}
    {p : BattlePlayer F} (hp : players.lookup pid = some p) :
    p.kills ≤ players.keys.card ∧ p.damageDealt ≤ players.keys.card * 1111 := by
  have hacc : ∀ k v, ⟨k, v⟩ ∈ players.entries → Account v := fun k v hmem =>
    h.account k v (Finmap.lookup_eq_some_iff.mpr hmem)
  have hmem := Finmap.lookup_eq_some_iff.mp hp
  constructor
  · calc p.kills ≤ players.sumVal BattlePlayer.kills :=
        Finmap.le_sumVal (fun k v hv => (hacc k v hv).kills_nonneg) hmem
      _ = players.sumVal BattlePlayer.deaths := h.kills_eq_deaths
      _ ≤ players.keys.card * 1 := Finmap.sumVal_le fun k v hv => by
        rw [(hacc k v hv).deaths_eq]
        split <;> omega
      _ = players.keys.card := mul_one _
  · calc p.damageDealt ≤ players.sumVal BattlePlayer.damageDealt :=
        Finmap.le_sumVal (fun k v hv => (hacc k v hv).dealt_nonneg) hmem
      _ = players.sumVal BattlePlayer.damageTaken := h.dealt_eq_taken
      _ ≤ players.keys.card * 1111 := Finmap.sumVal_le fun k v hv => (hacc k v hv).taken_le

/-- Two players at the origin. -/
def duel : Players ℚ :=
  (Finmap.singleton 2 { BattlePlayer.default with id := 2 }).insert 1
    { BattlePlayer.default with id := 1 }

theorem fresh_duel : ∀ pid p, duel.lookup pid = some p → p.Fresh := by
  intro pid p hp
  rw [duel, Finmap.lookup_insert_eq] at hp
  split at hp
  · obtain rfl := Option.some.inj hp
    exact ⟨rfl, rfl, rfl, rfl, rfl, rfl, rfl, rfl, rfl⟩
  · rw [Finmap.lookup_eq_some_iff] at hp
    obtain ⟨rfl, heq⟩ := Sigma.mk.inj_iff.mp (Multiset.mem_singleton.mp hp)
    obtain rfl := eq_of_heq heq
    exact ⟨rfl, rfl, rfl, rfl, rfl, rfl, rfl, rfl, rfl⟩

/-- Player 1 attacks player 2, and casts its first skill on itself. -/
def duelCommands : List (Command ℚ) :=
  [⟨.attack, 1, 1, 0, 0, 2, 0⟩, ⟨.skill, 1, 2, 0, 0, 1, 1⟩]

def duelCall : TickEngine.TickCall ℚ := ⟨{}, duelCommands, {}, {}, [1, 2]⟩

def afterDuel : Players ℚ :=
  (TickEngine.processTick {} duel duelCommands {} {} [1, 2]).players

theorem combat_accounting_duel :
    (∀ pid p, afterDuel.lookup pid = some p →
      p.hp = max 0 (p.maxHp - p.damageTaken) ∧ (p.alive = true → 1 ≤ p.hp) ∧
      (p.deaths = 0 ∨ p.deaths = 1) ∧ (p.deaths = 1 ↔ p.hp = 0) ∧ p.damageTaken ≤ 1111 ∧
      (p.alive = false → ∃ q, afterDuel.lookup pid = some q ∧ q.alive = false)) ∧
    afterDuel.sumVal BattlePlayer.kills = afterDuel.sumVal BattlePlayer.deaths ∧
    afterDuel.sumVal BattlePlayer.damageDealt = afterDuel.sumVal BattlePlayer.damageTaken :=
  combat_accounting fresh_duel (.single (a := duelCall) rfl) .nil

-- the skill on itself costs player 1 as much as it deals
example : (afterDuel.lookup 1).map (fun p => (p.hp, p.damageDealt, p.damageTaken)) =
    some (888, 187, 112) := by decide +kernel

end MiniArena
