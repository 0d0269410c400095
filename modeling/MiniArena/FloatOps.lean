/-
MiniArena/FloatOps.lean

The `float` operations the battle code performs on positions and directions.

Nothing that is proved about the combat bookkeeping or the broadcasts
depends on what the distance tests answer, so positions are values of an
arbitrary type with these operations.  `FloatOps ℚ` is the reading in exact
arithmetic, with a square root that is exact on squares.
-/
import Mathlib

namespace MiniArena

class FloatOps (F : Type) where
  /-- The value of a literal. -/
  ofRat : ℚ → F
  add : F → F → F
  sub : F → F → F
  mul : F → F → F
  div : F → F → F
  sqrt : F → F
  lt : F → F → Bool
  le : F → F → Bool
  /-- `static_cast<int32_t>(std::floor(x))`. -/
  floorToInt : F → ℤ

namespace FloatOps

variable {F : Type} [FloatOps F]

/-- `std::sqrt(x * x + y * y)`. -/
def hypot (x y : F) : F := sqrt (add (mul x x) (mul y y))

end FloatOps

instance : FloatOps ℚ where
  ofRat := id
  add := (· + ·)
  sub := (· - ·)
  mul := (· * ·)
  div := (· / ·)
  sqrt := Rat.sqrt
  lt x y := decide (x < y)
  le x y := decide (x ≤ y)
  floorToInt := Int.floor

end MiniArena
