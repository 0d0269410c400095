/-
MiniArena/RealPositions.lean

Positions and directions in exact arithmetic: the reading of the battle
code's `float` operations in the real numbers, with the plane as `ℂ`.
-/
import MiniArena.TickEngine

namespace MiniArena

noncomputable instance : FloatOps ℝ where
  ofRat q := q
  add := (· + ·)
  sub := (· - ·)
  mul := (· * ·)
  div := (· / ·)
  sqrt := Real.sqrt
  lt x y := decide (x < y)
  le x y := decide (x ≤ y)
  floorToInt := Int.floor

/-- The length of a vector. -/
theorem hypot_eq_norm (x y : ℝ) : FloatOps.hypot x y = ‖(⟨x, y⟩ : ℂ)‖ := by
  rw [Complex.norm_def, Complex.normSq_apply]
  rfl

namespace BattlePlayer

def position (p : BattlePlayer ℝ) : ℂ := ⟨p.posX, p.posY⟩

end BattlePlayer

/-- The squared distance between two players. -/
def distanceSq (a t : BattlePlayer ℝ) : ℝ := (t.posX - a.posX) ^ 2 + (t.posY - a.posY) ^ 2

theorem distance_eq_sqrt (a t : BattlePlayer ℝ) :
    TickEngine.distance a t = √(distanceSq a t) := by
  rw [distanceSq, sq, sq]
  rfl

/-- A test on the distance is one on its square. -/
theorem distance_le_iff {a t : BattlePlayer ℝ} {r : ℝ} (hr : 0 ≤ r) :
    TickEngine.distance a t ≤ r ↔ distanceSq a t ≤ r ^ 2 := by
  rw [distance_eq_sqrt, Real.sqrt_le_left hr]

end MiniArena
