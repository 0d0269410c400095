/-
MiniArena/Binary32.lean

IEEE 754 binary32 arithmetic on finite values, as far as a product and a
conversion to an integer need it.  A finite binary32 number is represented
by its rational value; `round` is round-to-nearest-even to 24 significant
bits, with the exponent range bounded below (subnormals).  Overflow to
infinity is not represented: the results here are meant for values whose
magnitude stays below `2 ^ 128`.
-/
import Mathlib

namespace Binary32

/-- The nearest integer, and of two equally near ones the even one. -/
def roundEven (x : ℚ) : ℤ :=
  if x - ⌊x⌋ < 1 / 2 then ⌊x⌋
  else if 1 / 2 < x - ⌊x⌋ then ⌊x⌋ + 1
  else if ⌊x⌋ % 2 = 0 then ⌊x⌋
  else ⌊x⌋ + 1

/-- The exponent of the last of the 24 significant bits of `x`. -/
def ulpExp (x : ℚ) : ℤ := max (Int.log 2 |x| - 23) (-149)

/-- Round to nearest, ties to even. -/
def round (x : ℚ) : ℚ := roundEven (x / 2 ^ ulpExp x) * 2 ^ ulpExp x

/-- The product of two binary32 numbers. -/
def mul (x y : ℚ) : ℚ := round (x * y)

/-- `static_cast<float>` of an integer. -/
def ofInt (n : ℤ) : ℚ := round n

/-- `static_cast<int32_t>`: rounds towards zero. -/
def toInt (x : ℚ) : ℤ := if 0 ≤ x then ⌊x⌋ else ⌈x⌉

theorem roundEven_nonneg {x : ℚ} (hx : 0 ≤ x) : 0 ≤ roundEven x := by
  have hfloor : 0 ≤ ⌊x⌋ := Int.floor_nonneg.mpr hx
  unfold roundEven
  split
  · exact hfloor
  split
  · omega
  split
  · exact hfloor
  · omega

theorem round_nonneg {x : ℚ} (hx : 0 ≤ x) : 0 ≤ round x := by
  have hscaled : 0 ≤ x / 2 ^ ulpExp x := div_nonneg hx (zpow_nonneg (by norm_num) _)
  have hint : (0 : ℚ) ≤ roundEven (x / 2 ^ ulpExp x) := by
    exact_mod_cast roundEven_nonneg hscaled
  exact mul_nonneg hint (zpow_nonneg (by norm_num) _)

theorem toInt_nonneg {x : ℚ} (hx : 0 ≤ x) : 0 ≤ toInt x := by
  rw [toInt, if_pos hx]
  exact Int.floor_nonneg.mpr hx

theorem one_le_toInt {x : ℚ} (hx : 1 ≤ x) : 1 ≤ toInt x := by
  rw [toInt, if_pos (zero_le_one.trans hx), Int.le_floor, Int.cast_one]
  exact hx

theorem floor_le_roundEven (x : ℚ) : ⌊x⌋ ≤ roundEven x := by
  unfold roundEven
  split
  · exact le_refl _
  split
  · omega
  split
  · exact le_refl _
  · omega

/-- Rounding does not go below a power of two. -/
theorem zpow_le_round {x : ℚ} {k : ℤ} (hk : -126 ≤ k) (hx : (2 : ℚ) ^ k ≤ x) :
    (2 : ℚ) ^ k ≤ round x := by
  have hpos : 0 < x := lt_of_lt_of_le (zpow_pos (by norm_num) k) hx
  have habs : |x| = x := abs_of_pos hpos
  have hlog : k ≤ Int.log 2 x :=
    (Int.zpow_le_iff_le_log (by norm_num) hpos).mp (by exact_mod_cast hx)
  have hulp : ulpExp x = Int.log 2 x - 23 := by
    rw [ulpExp, habs]
    omega
  have hscale : (2 : ℚ) ^ (23 : ℤ) * 2 ^ ulpExp x = 2 ^ Int.log 2 x := by
    rw [hulp, ← zpow_add₀ (by norm_num)]
    congr 1
    omega
  have hdigits : (2 ^ 23 : ℤ) ≤ roundEven (x / 2 ^ ulpExp x) := by
    refine le_trans ?_ (floor_le_roundEven _)
    rw [Int.le_floor, le_div_iff₀ (zpow_pos (by norm_num) _)]
    calc ((2 ^ 23 : ℤ) : ℚ) * 2 ^ ulpExp x = 2 ^ Int.log 2 x := by
          rw [← hscale]
          norm_num
      _ ≤ x := by exact_mod_cast Int.zpow_log_le_self (b := 2) (by norm_num) hpos
  calc (2 : ℚ) ^ k ≤ 2 ^ Int.log 2 x := zpow_le_zpow_right₀ (by norm_num) hlog
    _ = 2 ^ (23 : ℤ) * 2 ^ ulpExp x := hscale.symm
    _ ≤ roundEven (x / 2 ^ ulpExp x) * 2 ^ ulpExp x := by
        refine mul_le_mul_of_nonneg_right ?_ (zpow_nonneg (by norm_num) _)
        exact_mod_cast hdigits
    _ = round x := rfl
-- 0.1f is not the rational 1/10
example : round (1 / 10) = 13421773 / 134217728 := by decide +kernel

end Binary32
