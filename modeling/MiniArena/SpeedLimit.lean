/-
MiniArena/SpeedLimit.lean

How far a tick moves a player, in exact arithmetic.

`processMove` moves the player by `move_speed` times the length of a tick,
in the direction of the command, and every MOVE command of a batch that is
executed calls it.  So a tick moves a player by the sum of the directions of
its executed MOVE commands, at most one step each (`position_tick`): the speed
limit holds exactly if that sum is no longer than 1 (`speed_limit_iff`).
-/
import MiniArena.Combat
import MiniArena.RealPositions
import MiniArena.TickPlayers

namespace MiniArena

namespace TickEngine

/-! ### Directions -/

/-- The normalised direction of a MOVE command; none if it is too short to be
normalised. -/
noncomputable def heading (cmd : Command ℝ) : ℂ :=
  let len := FloatOps.hypot cmd.moveDirX cmd.moveDirY
  if FloatOps.lt len (FloatOps.ofRat (Binary32.round (1 / 10000))) then 0
  else ⟨cmd.moveDirX / len, cmd.moveDirY / len⟩

/-- The command is executed and moves this player. -/
def Moves (s : TickEngine × Players ℝ) (cmd : Command ℝ) (pid : PlayerId) : Prop :=
  executes ⟨s.1, s.2, []⟩ cmd = true ∧ cmd.type = .move ∧ cmd.playerId = pid

instance (s : TickEngine × Players ℝ) (cmd : Command ℝ) (pid : PlayerId) :
    Decidable (Moves s cmd pid) := by
  unfold Moves
  infer_instance

/-- The sum of the directions in which a batch moves a player. -/
noncomputable def travel (pid : PlayerId) : TickEngine × Players ℝ → List (Command ℝ) → ℂ
  | _, [] => 0
  | s, cmd :: cmds => (if Moves s cmd pid then heading cmd else 0) + travel pid (act s cmd) cmds

/-! ### One command -/

/-- What a step of movement depends on and changes. -/
def motion (p : BattlePlayer ℝ) : ℂ × ℝ := (p.position, p.moveSpeed)

theorem motion_processMove (cmd : Command ℝ) (p : BattlePlayer ℝ) :
    motion (processMove cmd.moveDirX cmd.moveDirY
      (FloatOps.div (FloatOps.ofRat kTickIntervalMs) (FloatOps.ofRat 1000)) p)
      = (p.position + (p.moveSpeed / 20 : ℝ) * heading cmd, p.moveSpeed) := by
  have htick : FloatOps.div (FloatOps.ofRat (F := ℝ) kTickIntervalMs) (FloatOps.ofRat 1000)
      = (1 / 20 : ℝ) := by
    show (((50 : ℤ) : ℚ) : ℝ) / ((1000 : ℚ) : ℝ) = 1 / 20
    norm_num
  rw [htick, processMove, heading]
  dsimp only
  split
  · rw [mul_zero, add_zero]
    rfl
  · refine Prod.ext ?_ rfl
    apply Complex.ext
    · simp [motion, BattlePlayer.position, FloatOps.add, FloatOps.mul, FloatOps.div]
      ring
    · simp [motion, BattlePlayer.position, FloatOps.add, FloatOps.mul, FloatOps.div]
      ring

variable {s : TickEngine × Players ℝ} {cmd : Command ℝ} {pid : PlayerId} {p : BattlePlayer ℝ}

theorem motion_combat (hcombat : cmd.type = .attack ∨ cmd.type = .skill) (players : Players ℝ) :
    ((execute {} players cmd p).1.lookup pid).map motion = (players.lookup pid).map motion :=
  map_lookup_combat (fun _ _ => rfl) (fun _ _ => rfl) (fun _ => rfl) (fun _ => rfl)
    (fun _ _ _ => rfl) {} players hcombat p pid

/-- Only a MOVE command moves anybody, and only its own player. -/
theorem motion_act (hp : s.2.lookup pid = some p) :
    ((act s cmd).2.lookup pid).map motion
      = some (p.position + (p.moveSpeed / 20 : ℝ) * (if Moves s cmd pid then heading cmd else 0),
          p.moveSpeed) := by
  have hstill : ¬ Moves s cmd pid → ((act s cmd).2.lookup pid).map motion
      = (s.2.lookup pid).map motion → ((act s cmd).2.lookup pid).map motion
      = some (p.position + (p.moveSpeed / 20 : ℝ) * (if Moves s cmd pid then heading cmd else 0),
          p.moveSpeed) := by
    intro hno hsame
    rw [hsame, hp, if_neg hno, mul_zero, add_zero]
    rfl
  rcases act_cases s cmd with ⟨hex, heq⟩ | ⟨hex, a, ha, heq⟩
  · refine hstill (fun h => ?_) (by rw [heq])
    rw [h.1] at hex
    cases hex
  cases htype : cmd.type with
  | move =>
    by_cases hpid : cmd.playerId = pid
    · have hmove : Moves s cmd pid := ⟨hex, htype, hpid⟩
      rw [if_pos hmove, heq]
      simp only [execute, htype]
      rw [Finmap.lookup_modify, if_pos hpid.symm, hpid, hp, Option.map_some, Option.map_some,
        motion_processMove]
    · refine hstill (fun h => hpid h.2.2) ?_
      rw [heq]
      simp only [execute, htype]
      rw [Finmap.lookup_modify_of_ne _ _ (Ne.symm hpid)]
  | stopMove =>
    refine hstill (fun h => ?_) ?_
    · cases htype.symm.trans h.2.1
    · rw [heq]
      simp only [execute, htype]
      exact Finmap.map_lookup_modify fun _ => rfl
  | leave =>
    refine hstill (fun h => ?_) ?_
    · cases htype.symm.trans h.2.1
    · rw [heq]
      simp only [execute, htype]
      exact Finmap.map_lookup_modify fun _ => rfl
  | attack =>
    refine hstill (fun h => ?_) ?_
    · cases htype.symm.trans h.2.1
    · rw [heq]
      exact motion_combat (Or.inl htype) s.2
  | skill =>
    refine hstill (fun h => ?_) ?_
    · cases htype.symm.trans h.2.1
    · rw [heq]
      exact motion_combat (Or.inr htype) s.2

/-! ### A tick -/

/-- **A batch** moves a player by the sum of its directions. -/
theorem motion_acts (hp : s.2.lookup pid = some p) (cmds : List (Command ℝ)) :
    ((cmds.foldl act s).2.lookup pid).map motion
      = some (p.position + (p.moveSpeed / 20 : ℝ) * travel pid s cmds, p.moveSpeed) := by
  induction cmds generalizing s p with
  | nil =>
    rw [List.foldl_nil, hp, travel, mul_zero, add_zero]
    rfl
  | cons cmd cmds ih =>
    have hfirst : ((act s cmd).2.lookup pid).map motion = _ := motion_act hp
    obtain ⟨q, hq, hmotion⟩ := Option.map_eq_some_iff.mp hfirst
    obtain ⟨hposition, hspeed⟩ := Prod.mk.injEq .. ▸ hmotion
    rw [List.foldl_cons, ih hq, hposition, hspeed, travel]
    congr 2
    ring

theorem position_tick {players players' : Players ℝ} {c : TickCall ℝ}
    (hstep : Ticks players c players') (hp : players.lookup pid = some p) :
    ∃ q, players'.lookup pid = some q ∧ q.moveSpeed = p.moveSpeed ∧
      q.position - p.position
        = (p.moveSpeed / 20 : ℝ) * travel pid (c.engine, players) c.cmds := by
  obtain ⟨q, hq, hmotion⟩ := Option.map_eq_some_iff.mp
    (motion_acts (s := (c.engine, players)) hp c.cmds)
  obtain ⟨hposition, hspeed⟩ := Prod.mk.injEq .. ▸ hmotion
  rw [Ticks, players_processTick] at hstep
  refine ⟨updateCooldowns kTickIntervalMs q, ?_, hspeed, ?_⟩
  · rw [hstep, Finmap.lookup_mapVal, hq, Option.map_some]
  · show q.position - p.position = _
    rw [hposition, add_sub_cancel_left]

/-! ### The limit -/

/-- Nobody has moved by more than its speed allows in one tick. -/
def WithinLimit (players players' : Players ℝ) : Prop :=
  ∀ pid p q, players.lookup pid = some p → players'.lookup pid = some q →
    ‖q.position - p.position‖ ≤ p.moveSpeed * 0.05

/-- The directions in which the batch moves a player do not add up to more
than one step, or its speed is 0; and no speed is negative. -/
def OneStep (players : Players ℝ) (c : TickCall ℝ) : Prop :=
  ∀ pid p, players.lookup pid = some p → 0 ≤ p.moveSpeed ∧
    (p.moveSpeed = 0 ∨ ‖travel pid (c.engine, players) c.cmds‖ ≤ 1)

theorem scaled_le_iff {speed : ℝ} (v : ℂ) :
    ‖((speed / 20 : ℝ) : ℂ) * v‖ ≤ speed * 0.05 ↔ 0 ≤ speed ∧ (speed = 0 ∨ ‖v‖ ≤ 1) := by
  rw [norm_mul, Complex.norm_real, Real.norm_eq_abs, abs_div, abs_of_pos (by norm_num : (0 : ℝ) < 20)]
  have hv := norm_nonneg v
  rcases lt_trichotomy speed 0 with hneg | rfl | hpos
  · refine iff_of_false ?_ fun h => absurd h.1 (not_le.mpr hneg)
    have : 0 ≤ |speed| / 20 * ‖v‖ := by positivity
    linarith
  · norm_num
  · rw [abs_of_pos hpos]
    constructor
    · intro h
      refine ⟨hpos.le, Or.inr ?_⟩
      by_contra hlong
      nlinarith
    · rintro ⟨-, hzero | hle⟩
      · exact absurd hzero hpos.ne'
      · nlinarith

/-- One tick. -/
theorem withinLimit_iff {players players' : Players ℝ} {c : TickCall ℝ}
    (hstep : Ticks players c players') : WithinLimit players players' ↔ OneStep players c := by
  constructor
  · intro h pid p hp
    obtain ⟨q, hq, -, hmoved⟩ := position_tick hstep hp
    have hle := h pid p q hp hq
    rw [hmoved] at hle
    exact (scaled_le_iff _).mp hle
  · intro h pid p q hp hq
    obtain ⟨q', hq', -, hmoved⟩ := position_tick hstep hp
    obtain rfl := Option.some.inj (hq.symm.trans hq')
    rw [hmoved]
    exact (scaled_le_iff _).mpr (h pid p hp)

/-- **Speed limit.**  In a run of ticks nobody ever moves faster than its speed
exactly if in none of the ticks the executed MOVE commands of a player add up
to more than one step; and then nobody gets farther in `n` ticks than its
speed allows. -/
theorem speed_limit_iff (start last : Players ℝ) (calls : List (TickCall ℝ)) :
    (Transition.Run (fun players c players' => Ticks players c players' ∧
        WithinLimit players players') start calls last ↔
      Transition.Run (fun players c players' => Ticks players c players' ∧ OneStep players c)
        start calls last) ∧
    (Transition.Run (fun players c players' => Ticks players c players' ∧ OneStep players c)
        start calls last →
      ∀ pid p, start.lookup pid = some p → ∃ q, last.lookup pid = some q ∧
        ‖q.position - p.position‖ ≤ p.moveSpeed * 0.05 * calls.length) := by
  constructor
  · constructor
    · exact Transition.Run.mono fun _ _ _ h => ⟨h.1, (withinLimit_iff h.1).mp h.2⟩
    · exact Transition.Run.mono fun _ _ _ h => ⟨h.1, (withinLimit_iff h.1).mpr h.2⟩
  · intro hrun pid p hp
    suffices key : ∃ q, last.lookup pid = some q ∧ q.moveSpeed = p.moveSpeed ∧
        ‖q.position - p.position‖ ≤ p.moveSpeed * 0.05 * calls.length by
      obtain ⟨q, hq, -, hle⟩ := key
      exact ⟨q, hq, hle⟩
    induction hrun generalizing p with
    | nil => exact ⟨p, hp, rfl, by simp⟩
    | @cons _ _ mid calls _ hstep _ ih =>
      obtain ⟨r, hr, hspeed, -⟩ := position_tick hstep.1 hp
      obtain ⟨q, hq, hspeed', hrest⟩ := ih r hr
      have hfirst := (withinLimit_iff hstep.1).mpr hstep.2 pid p r hp hr
      refine ⟨q, hq, hspeed'.trans hspeed, ?_⟩
      rw [hspeed] at hrest
      calc ‖q.position - p.position‖
          = ‖(q.position - r.position) + (r.position - p.position)‖ := by rw [sub_add_sub_cancel]
        _ ≤ ‖q.position - r.position‖ + ‖r.position - p.position‖ := norm_add_le _ _
        _ ≤ p.moveSpeed * 0.05 * calls.length + p.moveSpeed * 0.05 := add_le_add hrest hfirst
        _ = p.moveSpeed * 0.05 * (calls.length + 1 : ℕ) := by
          push_cast
          ring

/-! ### Two steps in one tick -/

/-- Player 1 at the origin. -/
noncomputable def runner : Players ℝ := Finmap.singleton 1 { BattlePlayer.default with id := 1 }

/-- A MOVE command of player 1 to the right. -/
def moveRight (sequence : UInt64) : Command ℝ := ⟨.move, 1, sequence, 1, 0, 0, 0⟩

def moveTwice : TickCall ℝ where
  engine := {}
  cmds := [moveRight 1, moveRight 2]

theorem heading_moveRight (sequence : UInt64) : heading (moveRight sequence) = 1 := by
  have hlen : FloatOps.hypot (1 : ℝ) 0 = 1 := by
    rw [hypot_eq_norm]
    exact norm_one
  have hlong : ¬ ((1 : ℝ) < ((Binary32.round (1 / 10000) : ℚ) : ℝ)) := by
    have hsmall : Binary32.round (1 / 10000) ≤ 1 := by decide +kernel
    exact not_lt.mpr (by exact_mod_cast hsmall)
  rw [heading, moveRight]
  simp only [hlen, FloatOps.lt, FloatOps.ofRat, decide_eq_true_eq, if_neg hlong, div_one]
  rfl

theorem travel_moveTwice : travel 1 ({}, runner) moveTwice.cmds = 2 := by
  have hfirst : Moves ({}, runner) (moveRight 1) 1 := ⟨rfl, rfl, rfl⟩
  have hsecond : Moves (act ({}, runner) (moveRight 1)) (moveRight 2) 1 := by
    rcases act_cases ({}, runner) (moveRight 1) with ⟨hno, -⟩ | ⟨-, p, hp, heq⟩
    · cases hfirst.1.symm.trans hno
    refine ⟨?_, rfl, rfl⟩
    have halive : (processMove (1 : ℝ) 0 (FloatOps.div (FloatOps.ofRat kTickIntervalMs)
        (FloatOps.ofRat 1000)) p).alive = true := by
      obtain rfl := Option.some.inj hp
      unfold processMove
      dsimp only
      split <;> rfl
    have hlook : (act ({}, runner) (moveRight 1)).2.lookup 1 = some (processMove (1 : ℝ) 0
        (FloatOps.div (FloatOps.ofRat kTickIntervalMs) (FloatOps.ofRat 1000)) p) := by
      rw [heq]
      exact (Finmap.lookup_modify_self _ _ _).trans (congrArg _ hp)
    refine (executes_iff hlook halive).mpr ?_
    intro last hlast
    rw [heq] at hlast
    obtain rfl := Option.some.inj ((Finmap.lookup_insert _).symm.trans hlast)
    decide
  show (if _ then _ else _) + ((if _ then _ else _) + _) = _
  rw [if_pos hfirst, if_pos hsecond, heading_moveRight, heading_moveRight, travel]
  norm_num

/-- **A batch is not one step.**  The second command moves the player again. -/
theorem faster_moveTwice :
    ¬ ∀ (players players' : Players ℝ) (c : TickCall ℝ), Ticks players c players' →
      WithinLimit players players' := by
  intro hclaim
  obtain ⟨-, hzero | hle⟩ := (withinLimit_iff rfl).mp (hclaim runner _ moveTwice rfl) 1 _ rfl
  · norm_num [BattlePlayer.default, FloatOps.ofRat] at hzero
  · have htravel : travel 1 (moveTwice.engine, runner) moveTwice.cmds = 2 := travel_moveTwice
    rw [htravel] at hle
    norm_num at hle

end TickEngine

end MiniArena
