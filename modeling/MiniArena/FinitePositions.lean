/-
MiniArena/FinitePositions.lean

Positions with the special values of IEEE 754.

The handler of PlayerMove passes the floats of the request on as they are, and
the only test of `processMove` is that the length of the direction is not
below 0.0001.  An infinite direction has an infinite length, one with NaN the
length NaN, and neither is below anything finite.  So such a direction is
normalised, and the position becomes NaN (`located_processMove`), where it
stays: no sum with NaN is a number.

A tick then leaves positions and directions finite exactly if every MOVE
command it executes has a finite direction (`finite_run_iff`).  A player at
NaN is in range of every attack, and of no skill that tests its range
(`tests_of_nan`).
-/
import MiniArena.Combat
import MiniArena.SpecialValues
import MiniArena.TickPlayers

namespace MiniArena

open Ieee754 (Value)

/-- `std::sqrt` on the finite numbers: what number it gives is left open. -/
class SquareRoot where
  root : ℚ → ℚ

section

variable [SquareRoot]

/-- The cast of a special value to an integer is undefined; this is the answer
of the conversion instruction on x86. -/
def floorToInt : Value ℚ → ℤ
  | .finite q => ⌊q⌋
  | _ => -2147483648

instance : FloatOps (Value ℚ) where
  ofRat := .finite
  add := Value.add
  sub := Value.sub
  mul := Value.mul
  div := Value.div
  sqrt := Value.sqrt SquareRoot.root
  lt := Value.lt
  le := Value.le
  floorToInt := floorToInt

namespace BattlePlayer

def Located (p : BattlePlayer (Value ℚ)) : Prop := p.posX.IsFinite ∧ p.posY.IsFinite

def Directed (p : BattlePlayer (Value ℚ)) : Prop := p.dirX.IsFinite ∧ p.dirY.IsFinite

end BattlePlayer

namespace TickEngine

/-- Positions and directions are numbers, and so is everything that the range
tests and `AoiGrid::cellOf` compute from them. -/
structure Numeric (players : Players (Value ℚ)) : Prop where
  position : ∀ pid p, players.lookup pid = some p → p.Located
  direction : ∀ pid p, players.lookup pid = some p → p.Directed
  range : ∀ aid tid a t, players.lookup aid = some a → players.lookup tid = some t →
    (distance a t).IsFinite
  cell : ∀ pid p, players.lookup pid = some p →
    (FloatOps.div p.posX (FloatOps.ofRat 200)).IsFinite ∧
      (FloatOps.div p.posY (FloatOps.ofRat 200)).IsFinite

/-- The direction is too short to be normalised. -/
def tooShort (dirX dirY : Value ℚ) : Bool :=
  FloatOps.lt (FloatOps.hypot dirX dirY) (FloatOps.ofRat (Binary32.round (1 / 10000)))

/-- If the command is executed and a MOVE, its direction is finite, and the speed
of its player as well, unless it does not move. -/
def FiniteMove (s : TickEngine × Players (Value ℚ)) (cmd : Command (Value ℚ)) : Prop :=
  executes ⟨s.1, s.2, []⟩ cmd = true → cmd.type = .move →
    cmd.moveDirX.IsFinite ∧ cmd.moveDirY.IsFinite ∧
      ∀ p, s.2.lookup cmd.playerId = some p →
        tooShort cmd.moveDirX cmd.moveDirY = true ∨ p.moveSpeed.IsFinite

/-- All the commands of a batch are. -/
def FiniteMoves (players : Players (Value ℚ)) (c : TickCall (Value ℚ)) : Prop :=
  Transition.Along act FiniteMove (c.engine, players) c.cmds

/-- Before every command of the batch, behind the last one, and at the end of the tick. -/
def NumericTick (players : Players (Value ℚ)) (c : TickCall (Value ℚ))
    (players' : Players (Value ℚ)) : Prop :=
  (∀ k ≤ c.cmds.length, Numeric ((c.cmds.take k).foldl act (c.engine, players)).2) ∧
    Numeric players'

def AllLocated (players : Players (Value ℚ)) : Prop :=
  ∀ pid p, players.lookup pid = some p → p.Located

def AllDirected (players : Players (Value ℚ)) : Prop :=
  ∀ pid p, players.lookup pid = some p → p.Directed

/-! ### What is computed from finite positions -/

variable {players players' : Players (Value ℚ)} {s : TickEngine × Players (Value ℚ)}
  {cmd : Command (Value ℚ)} {p : BattlePlayer (Value ℚ)} {dirX dirY dtSec : Value ℚ}

theorem isFinite_distance {a t : BattlePlayer (Value ℚ)} (ha : a.Located) (ht : t.Located) :
    (distance a t).IsFinite := by
  apply Value.isFinite_hypot.mpr
  exact ⟨Value.isFinite_sub.mpr ⟨ht.1, ha.1⟩, Value.isFinite_sub.mpr ⟨ht.2, ha.2⟩⟩

theorem isFinite_cell {x : Value ℚ} (hx : x.IsFinite) :
    (FloatOps.div x (FloatOps.ofRat 200)).IsFinite := by
  apply Value.isFinite_div.mpr
  refine ⟨hx, by rintro ⟨⟩, ?_⟩
  intro hzero
  have : (200 : ℚ) = 0 := Value.finite.inj hzero
  norm_num at this

theorem numeric_iff : Numeric players ↔ AllLocated players ∧ AllDirected players := by
  constructor
  · exact fun h => ⟨h.position, h.direction⟩
  · rintro ⟨hpos, hdir⟩
    exact ⟨hpos, hdir,
      fun aid tid a t ha ht => isFinite_distance (hpos aid a ha) (hpos tid t ht),
      fun pid p hp => ⟨isFinite_cell (hpos pid p hp).1, isFinite_cell (hpos pid p hp).2⟩⟩

/-! ### One MOVE -/

/-- A direction that is too short is finite: no special value is below 0.0001. -/
theorem isFinite_of_tooShort (h : tooShort dirX dirY = true) :
    dirX.IsFinite ∧ dirY.IsFinite := by
  apply Value.isFinite_hypot.mp
  exact Value.isFinite_of_lt_finite h Value.sqrt_ne_negInf

/-- A finite direction that is long enough can be divided by its length. -/
theorem length_ne (hx : dirX.IsFinite) (hy : dirY.IsFinite) (h : ¬ tooShort dirX dirY = true) :
    FloatOps.hypot dirX dirY ≠ .nan ∧ FloatOps.hypot dirX dirY ≠ .finite 0 := by
  have hlen : (FloatOps.hypot dirX dirY).IsFinite := Value.isFinite_hypot.mpr ⟨hx, hy⟩
  constructor
  · intro hnan
    rw [hnan] at hlen
    exact hlen
  · intro hzero
    apply h
    have hpos : 0 < Binary32.round (1 / 10000) := by decide +kernel
    rw [tooShort, hzero]
    exact decide_eq_true hpos

theorem processMove_of_short (h : tooShort dirX dirY = true) (p : BattlePlayer (Value ℚ)) :
    processMove dirX dirY dtSec p = p := if_pos h

theorem processMove_of_long (h : ¬ tooShort dirX dirY = true) (p : BattlePlayer (Value ℚ)) :
    processMove dirX dirY dtSec p =
      let ndx := Value.div dirX (FloatOps.hypot dirX dirY)
      let ndy := Value.div dirY (FloatOps.hypot dirX dirY)
      { p with
        posX := Value.add p.posX (Value.mul ndx (Value.mul p.moveSpeed dtSec))
        posY := Value.add p.posY (Value.mul ndy (Value.mul p.moveSpeed dtSec))
        dirX := ndx
        dirY := ndy } := if_neg h

/-- **One MOVE** leaves the position finite exactly if the direction is finite, and
the speed, unless the player does not move. -/
theorem located_processMove (hdt : dtSec.IsFinite) (p : BattlePlayer (Value ℚ)) :
    (processMove dirX dirY dtSec p).Located ↔ p.Located ∧ dirX.IsFinite ∧ dirY.IsFinite ∧
      (tooShort dirX dirY = true ∨ p.moveSpeed.IsFinite) := by
  by_cases hshort : tooShort dirX dirY = true
  · have hdir := isFinite_of_tooShort hshort
    rw [processMove_of_short hshort]
    simp [hdir, hshort]
  · rw [processMove_of_long hshort]
    simp only [BattlePlayer.Located, Value.isFinite_add, Value.isFinite_mul, Value.isFinite_div]
    constructor
    · rintro ⟨⟨hx, ⟨hdx, -⟩, hspeed, -⟩, hy, ⟨hdy, -⟩, -⟩
      exact ⟨⟨hx, hy⟩, hdx, hdy, Or.inr hspeed⟩
    · rintro ⟨⟨hx, hy⟩, hdx, hdy, habs | hspeed⟩
      · exact absurd habs hshort
      · have hlen := length_ne hdx hdy hshort
        exact ⟨⟨hx, ⟨hdx, hlen⟩, hspeed, hdt⟩, hy, ⟨hdy, hlen⟩, hspeed, hdt⟩

/-- The new direction is what the position has been moved along. -/
theorem directed_processMove (hp : p.Directed) (h : (processMove dirX dirY dtSec p).Located) :
    (processMove dirX dirY dtSec p).Directed := by
  by_cases hshort : tooShort dirX dirY = true
  · rw [processMove_of_short hshort]
    exact hp
  · rw [processMove_of_long hshort] at h ⊢
    obtain ⟨hx, hy⟩ := h
    exact ⟨(Value.isFinite_mul.mp (Value.isFinite_add.mp hx).2).1,
      (Value.isFinite_mul.mp (Value.isFinite_add.mp hy).2).1⟩

/-! ### One command -/

/-- The position and the direction. -/
def pose (p : BattlePlayer (Value ℚ)) : (Value ℚ × Value ℚ) × Value ℚ × Value ℚ :=
  ((p.posX, p.posY), p.dirX, p.dirY)

theorem isFinite_tick : (FloatOps.div (FloatOps.ofRat (F := Value ℚ) kTickIntervalMs)
    (FloatOps.ofRat 1000)).IsFinite := by
  apply Value.isFinite_div.mpr
  refine ⟨trivial, by rintro ⟨⟩, ?_⟩
  intro hzero
  have : (1000 : ℚ) = 0 := Value.finite.inj hzero
  norm_num at this

/-- An attack or a skill changes neither the positions nor the directions. -/
theorem pose_combat (htype : cmd.type = .attack ∨ cmd.type = .skill) (pid : PlayerId) :
    ((execute {} players cmd p).1.lookup pid).map pose = (players.lookup pid).map pose :=
  map_lookup_combat (fun _ _ => rfl) (fun _ _ => rfl) (fun _ => rfl) (fun _ => rfl)
    (fun _ _ _ => rfl) {} players htype p pid

omit [SquareRoot] in
theorem allLocated_of_pose
    (h : ∀ pid, (players'.lookup pid).map pose = (players.lookup pid).map pose)
    (hall : AllLocated players) : AllLocated players' := by
  intro pid q hq
  have hpose := h pid
  rw [hq, Option.map_some] at hpose
  obtain ⟨p, hp, heq⟩ := Option.map_eq_some_iff.mp hpose.symm
  have hlocated := hall pid p hp
  obtain ⟨hx, hy⟩ := Prod.mk.injEq .. ▸ congrArg Prod.fst heq
  rwa [BattlePlayer.Located, hx, hy] at hlocated

omit [SquareRoot] in
theorem allDirected_of_pose
    (h : ∀ pid, (players'.lookup pid).map pose = (players.lookup pid).map pose)
    (hall : AllDirected players) : AllDirected players' := by
  intro pid q hq
  have hpose := h pid
  rw [hq, Option.map_some] at hpose
  obtain ⟨p, hp, heq⟩ := Option.map_eq_some_iff.mp hpose.symm
  have hdirected := hall pid p hp
  obtain ⟨hx, hy⟩ := Prod.mk.injEq .. ▸ congrArg Prod.snd heq
  rwa [BattlePlayer.Directed, hx, hy] at hdirected

omit [SquareRoot] in
/-- A change of one player, which keeps its position finite if `C` holds. -/
theorem allLocated_modify {pid : PlayerId} {f : BattlePlayer (Value ℚ) → BattlePlayer (Value ℚ)}
    {C : Prop} (hp : players.lookup pid = some p) (hf : (f p).Located ↔ p.Located ∧ C) :
    AllLocated (players.modify pid f) ↔ AllLocated players ∧ C := by
  rw [AllLocated, Finmap.forall_lookup_modify hp, hf]
  constructor
  · rintro ⟨⟨hlocated, hC⟩, hrest⟩
    refine ⟨?_, hC⟩
    intro a q hq
    by_cases ha : a = pid
    · subst ha
      obtain rfl := Option.some.inj (hp.symm.trans hq)
      exact hlocated
    · exact hrest a q ha hq
  · rintro ⟨hall, hC⟩
    exact ⟨⟨hall pid p hp, hC⟩, fun a q _ hq => hall a q hq⟩

theorem finiteMove_iff (hex : executes ⟨s.1, s.2, []⟩ cmd = true) (htype : cmd.type = .move)
    (hp : s.2.lookup cmd.playerId = some p) : FiniteMove s cmd ↔
      cmd.moveDirX.IsFinite ∧ cmd.moveDirY.IsFinite ∧
        (tooShort cmd.moveDirX cmd.moveDirY = true ∨ p.moveSpeed.IsFinite) := by
  constructor
  · intro h
    obtain ⟨hx, hy, hspeed⟩ := h hex htype
    exact ⟨hx, hy, hspeed p hp⟩
  · rintro ⟨hx, hy, hspeed⟩ - -
    refine ⟨hx, hy, ?_⟩
    intro q hq
    obtain rfl := Option.some.inj (hp.symm.trans hq)
    exact hspeed

/-- **One command.**  The positions are finite after it exactly if they were finite
and it is a `FiniteMove`. -/
theorem allLocated_act (s : TickEngine × Players (Value ℚ)) (cmd : Command (Value ℚ)) :
    AllLocated (act s cmd).2 ↔ AllLocated s.2 ∧ FiniteMove s cmd := by
  have hstill : ¬ (executes ⟨s.1, s.2, []⟩ cmd = true ∧ cmd.type = .move) →
      (AllLocated (act s cmd).2 ↔ AllLocated s.2) →
      (AllLocated (act s cmd).2 ↔ AllLocated s.2 ∧ FiniteMove s cmd) := by
    intro hno hsame
    rw [hsame]
    exact (and_iff_left fun hex htype => absurd ⟨hex, htype⟩ hno).symm
  rcases act_cases s cmd with ⟨hex, heq⟩ | ⟨hex, p, hp, heq⟩
  · refine hstill (fun h => ?_) (by rw [heq])
    rw [h.1] at hex
    cases hex
  have hcombat : cmd.type = .attack ∨ cmd.type = .skill →
      (AllLocated (act s cmd).2 ↔ AllLocated s.2) := by
    intro htype
    rw [heq]
    exact ⟨allLocated_of_pose fun pid => (pose_combat htype pid).symm,
      allLocated_of_pose fun pid => pose_combat htype pid⟩
  cases htype : cmd.type with
  | move =>
    rw [finiteMove_iff hex htype hp, heq]
    simp only [execute, htype]
    exact allLocated_modify hp (located_processMove isFinite_tick p)
  | stopMove =>
    refine hstill (fun h => ?_) ?_
    · cases htype.symm.trans h.2
    · rw [heq]
      simp only [execute, htype]
      exact (allLocated_modify hp (and_true _).symm.to_iff).trans (and_true _).to_iff
  | attack =>
    refine hstill (fun h => ?_) (hcombat (Or.inl htype))
    cases htype.symm.trans h.2
  | skill =>
    refine hstill (fun h => ?_) (hcombat (Or.inr htype))
    cases htype.symm.trans h.2
  | leave =>
    refine hstill (fun h => ?_) ?_
    · cases htype.symm.trans h.2
    · rw [heq]
      simp only [execute, htype]
      exact (allLocated_modify hp (and_true _).symm.to_iff).trans (and_true _).to_iff

/-- With the positions, the directions stay finite. -/
theorem allDirected_act (hdir : AllDirected s.2) (hloc : AllLocated (act s cmd).2) :
    AllDirected (act s cmd).2 := by
  rcases act_cases s cmd with ⟨-, heq⟩ | ⟨-, p, hp, heq⟩
  · rw [heq]
    exact hdir
  have hother : ∀ {f : BattlePlayer (Value ℚ) → BattlePlayer (Value ℚ)}, (f p).Directed →
      AllDirected (s.2.modify cmd.playerId f) := by
    intro f hf
    exact (Finmap.forall_lookup_modify hp f).mpr ⟨hf, fun a q _ hq => hdir a q hq⟩
  have hcombat : cmd.type = .attack ∨ cmd.type = .skill → AllDirected (act s cmd).2 := by
    intro htype
    rw [heq]
    exact allDirected_of_pose (fun pid => pose_combat htype pid) hdir
  cases htype : cmd.type with
  | move =>
    rw [heq] at hloc ⊢
    simp only [execute, htype] at hloc ⊢
    apply hother
    apply directed_processMove (hdir _ p hp)
    exact ((Finmap.forall_lookup_modify hp _).mp hloc).1
  | stopMove =>
    rw [heq]
    simp only [execute, htype]
    exact hother ⟨trivial, trivial⟩
  | attack => exact hcombat (Or.inl htype)
  | skill => exact hcombat (Or.inr htype)
  | leave =>
    rw [heq]
    simp only [execute, htype]
    exact hother (hdir _ p hp)

/-! ### A batch, and a tick -/

/-- **A batch.**  A position that is not finite stays so, so one test at the end
sees every command. -/
theorem allLocated_acts (s : TickEngine × Players (Value ℚ)) (cmds : List (Command (Value ℚ))) :
    AllLocated (cmds.foldl act s).2 ↔
      AllLocated s.2 ∧ Transition.Along act FiniteMove s cmds := by
  induction cmds generalizing s with
  | nil => exact (and_iff_left trivial).symm
  | cons cmd cmds ih =>
    rw [List.foldl_cons, ih, allLocated_act, and_assoc]
    rfl

theorem numeric_acts (h : Numeric s.2) {cmds : List (Command (Value ℚ))}
    (hfinite : Transition.Along act FiniteMove s cmds) : Numeric (cmds.foldl act s).2 := by
  induction cmds generalizing s with
  | nil => exact h
  | cons cmd cmds ih =>
    obtain ⟨hloc, hdir⟩ := numeric_iff.mp h
    have hloc' := (allLocated_act s cmd).mpr ⟨hloc, hfinite.1⟩
    exact ih (numeric_iff.mpr ⟨hloc', allDirected_act hdir hloc'⟩) hfinite.2

omit [SquareRoot] in
/-- The end of the tick lowers the cooldowns only. -/
theorem pose_cool (players : Players (Value ℚ)) (pid : PlayerId) :
    ((players.mapVal fun _ => updateCooldowns kTickIntervalMs).lookup pid).map pose
      = (players.lookup pid).map pose := by
  rw [Finmap.lookup_mapVal, Option.map_map]
  rfl

theorem numeric_cool (h : Numeric players) :
    Numeric (players.mapVal fun _ => updateCooldowns kTickIntervalMs) := by
  obtain ⟨hloc, hdir⟩ := numeric_iff.mp h
  exact numeric_iff.mpr
    ⟨allLocated_of_pose (pose_cool players) hloc, allDirected_of_pose (pose_cool players) hdir⟩

/-- **One tick** from finite positions. -/
theorem numericTick_iff {c : TickCall (Value ℚ)} (h : Numeric players)
    (hstep : Ticks players c players') :
    NumericTick players c players' ↔ FiniteMoves players c := by
  constructor
  · rintro ⟨hbatch, -⟩
    have hlast := (hbatch c.cmds.length le_rfl).position
    rw [List.take_length] at hlast
    exact ((allLocated_acts (c.engine, players) c.cmds).mp hlast).2
  · intro hfinite
    have hstart : Numeric ((c.engine, players) : TickEngine × Players (Value ℚ)).2 := h
    refine ⟨fun k _ => numeric_acts hstart (hfinite.take k), ?_⟩
    rw [Ticks, players_processTick] at hstep
    rw [hstep]
    exact numeric_cool (numeric_acts hstart hfinite)

/-- **Positions stay finite.**  The runs of ticks from finite positions in which
positions and directions stay finite, in every state between two commands and
after every tick, are the runs whose MOVE commands are finite. -/
theorem finite_run_iff {start last : Players (Value ℚ)} {calls : List (TickCall (Value ℚ))}
    (hstart : Numeric start) :
    Transition.Run (fun players c players' => Ticks players c players' ∧
        NumericTick players c players') start calls last ↔
      Transition.Run (fun players c players' => Ticks players c players' ∧ FiniteMoves players c)
        start calls last :=
  Transition.Run.guard_congr (J := fun _ => True) (fun _ _ _ _ _ => trivial)
    (fun _ _ _ _ hnum hstep => numericTick_iff hnum hstep) (fun _ _ _ _ _ _ h => h.2) trivial hstart

/-! ### A player at NaN -/

/-- The two range tests go opposite ways: `processAttack` leaves where the
distance is above 60, `processSkill` goes on where it is not above the range. -/
theorem tests_of_nan {a : BattlePlayer (Value ℚ)} (h : a.posX = .nan) (t : BattlePlayer (Value ℚ))
    (range : ℚ) : FloatOps.lt (FloatOps.ofRat 60) (distance a t) = false ∧
      FloatOps.le (distance a t) (FloatOps.ofRat range) = false := by
  have hdist : distance a t = .nan := by
    show Value.hypot _ (Value.sub t.posX a.posX) _ = _
    rw [h, Value.sub_nan, Value.hypot_nan]
  rw [hdist]
  exact ⟨Value.lt_nan, Value.nan_le⟩

/-- Its attack hits everybody who is alive, at any distance. -/
theorem attack_of_nan {a t : BattlePlayer (Value ℚ)} (h : a.posX = .nan) (ha : a.alive = true)
    (ht : t.alive = true) (bc : Broadcaster (BattlePayload (Value ℚ)))
    (players : Players (Value ℚ)) (aid tid : PlayerId) :
    (processAttack bc players aid tid a t).1 =
      (takeDamage players aid tid (calcDamage a.atk t.def_)).1 := by
  have htest := (tests_of_nan h t 0).1
  simp [processAttack, ha, ht, htest]

end TickEngine

end

namespace TickEngine

instance : SquareRoot where
  root := Rat.sqrt

/-- Player 1 at the origin. -/
def atOrigin : Players (Value ℚ) := Finmap.singleton 1 { BattlePlayer.default with id := 1 }

/-- A tick in which player 1 moves in the given direction. -/
def moveBy (dirX dirY : Value ℚ) : TickCall (Value ℚ) where
  engine := {}
  cmds := [⟨.move, 1, 1, dirX, dirY, 0, 0⟩]

theorem numeric_atOrigin : Numeric atOrigin := by
  have hplayer : ∀ pid p, atOrigin.lookup pid = some p →
      p = { BattlePlayer.default with id := 1 } := by
    intro pid p hp
    have hpid : pid = 1 := by
      have := Finmap.mem_of_lookup_eq_some hp
      rwa [atOrigin, Finmap.mem_singleton] at this
    subst hpid
    exact (Option.some.inj hp).symm
  refine numeric_iff.mpr ⟨?_, ?_⟩
  · intro pid p hp
    obtain rfl := hplayer pid p hp
    exact ⟨trivial, trivial⟩
  · intro pid p hp
    obtain rfl := hplayer pid p hp
    exact ⟨trivial, trivial⟩

/-- A step in the direction (3, 4). -/
theorem finite_run_three_four : Numeric atOrigin ∧ ∃ last,
    Transition.Run (fun players c players' => Ticks players c players' ∧
      NumericTick players c players') atOrigin [moveBy (.finite 3) (.finite 4)] last := by
  have hmove : FiniteMoves atOrigin (moveBy (.finite 3) (.finite 4)) := by
    refine ⟨fun _ _ => ⟨trivial, trivial, ?_⟩, trivial⟩
    intro p hp
    obtain rfl := Option.some.inj hp
    exact Or.inr trivial
  exact ⟨numeric_atOrigin, _, (finite_run_iff numeric_atOrigin).mpr (.single ⟨rfl, hmove⟩)⟩

/-- **An infinite direction** takes the player to NaN. -/
theorem nan_of_infinite_direction :
    ¬ ∀ (start last : Players (Value ℚ)) (calls : List (TickCall (Value ℚ))), Numeric start →
      Transition.Run Ticks start calls last → Numeric last := by
  intro hclaim
  have hlast := hclaim atOrigin _ [moveBy .posInf (.finite 0)] numeric_atOrigin (.single rfl)
  have hlocated := (numeric_iff.mp hlast).1
  rw [players_processTick] at hlocated
  have hbatch := allLocated_of_pose (fun pid => (pose_cool _ pid).symm) hlocated
  obtain ⟨-, hmove, -⟩ := (allLocated_acts _ _).mp hbatch
  exact (hmove rfl rfl).1

end TickEngine

end MiniArena
