/-
MiniArena/SpecialValues.lean

Numbers with the special values of IEEE 754: the elements of an ordered field,
two infinities, and NaN.

Arithmetic on finite numbers is exact, the special values follow the standard,
and the zeros have no sign (the quotient by zero is the one by the positive
zero).  The square root of a finite number is left to a function `root`.

What is proved is where an operation has a finite result: a sum, a difference
and a product exactly if both operands are finite (`isFinite_add`,
`isFinite_sub`, `isFinite_mul`), a quotient also where the divisor is infinite
(`isFinite_div`), and the length of a vector exactly if both coordinates are
(`isFinite_hypot`).
-/
import Mathlib

namespace Ieee754

inductive Value (K : Type)
  | finite (x : K)
  | posInf
  | negInf
  | nan
  deriving DecidableEq, Repr

namespace Value

variable {K : Type} {x y : Value K}

def IsFinite : Value K → Prop
  | finite _ => True
  | _ => False

@[simp] theorem isFinite_finite (a : K) : (finite a).IsFinite := trivial

@[simp] theorem not_isFinite_posInf : ¬ (posInf : Value K).IsFinite := id

@[simp] theorem not_isFinite_negInf : ¬ (negInf : Value K).IsFinite := id

@[simp] theorem not_isFinite_nan : ¬ (nan : Value K).IsFinite := id

theorem IsFinite.exists_eq (h : x.IsFinite) : ∃ a, x = finite a := by
  cases x with
  | finite a => exact ⟨a, rfl⟩
  | posInf => exact h.elim
  | negInf => exact h.elim
  | nan => exact h.elim

/-! ### Sums -/

section Sums

variable [Field K]

def neg : Value K → Value K
  | finite x => finite (-x)
  | posInf => negInf
  | negInf => posInf
  | nan => nan

def add : Value K → Value K → Value K
  | finite x, finite y => finite (x + y)
  | finite _, y => y
  | x, finite _ => x
  | posInf, posInf => posInf
  | negInf, negInf => negInf
  | _, _ => nan

def sub (x y : Value K) : Value K := add x (neg y)

@[simp] theorem isFinite_neg : (neg x).IsFinite ↔ x.IsFinite := by
  cases x <;> rfl

@[simp] theorem isFinite_add : (add x y).IsFinite ↔ x.IsFinite ∧ y.IsFinite := by
  cases x <;> cases y <;> simp [add]

@[simp] theorem isFinite_sub : (sub x y).IsFinite ↔ x.IsFinite ∧ y.IsFinite := by
  rw [sub, isFinite_add, isFinite_neg]

theorem add_nan : add x nan = nan := by
  cases x <;> rfl

theorem sub_nan : sub x nan = nan := add_nan

end Sums

/-! ### Comparisons -/

section Comparisons

variable [LinearOrder K]

def lt : Value K → Value K → Bool
  | finite x, finite y => decide (x < y)
  | finite _, posInf => true
  | negInf, finite _ => true
  | negInf, posInf => true
  | _, _ => false

def le : Value K → Value K → Bool
  | finite x, finite y => decide (x ≤ y)
  | nan, _ => false
  | _, nan => false
  | negInf, _ => true
  | _, posInf => true
  | _, _ => false

@[simp] theorem lt_nan : lt x nan = false := by
  cases x <;> rfl

@[simp] theorem nan_le : le nan x = false := by
  cases x <;> rfl

/-- What is below a finite number is finite, or the negative infinity. -/
theorem isFinite_of_lt_finite {b : K} (h : lt x (finite b) = true) (hneg : x ≠ negInf) :
    x.IsFinite := by
  cases x with
  | finite a => trivial
  | posInf => cases h
  | negInf => exact absurd rfl hneg
  | nan => cases h

end Comparisons

/-! ### Products, quotients and roots -/

section Products

variable [Field K] [LinearOrder K]

/-- The infinity that has the sign of `x`; zero has none. -/
def signedInf (x : K) : Value K :=
  if 0 < x then posInf else if x < 0 then negInf else nan

def mul : Value K → Value K → Value K
  | finite x, finite y => finite (x * y)
  | finite x, posInf => signedInf x
  | finite x, negInf => signedInf (-x)
  | posInf, finite y => signedInf y
  | negInf, finite y => signedInf (-y)
  | posInf, posInf => posInf
  | posInf, negInf => negInf
  | negInf, posInf => negInf
  | negInf, negInf => posInf
  | _, _ => nan

def div : Value K → Value K → Value K
  | finite x, finite y => if y = 0 then signedInf x else finite (x / y)
  | finite _, posInf => finite 0
  | finite _, negInf => finite 0
  | posInf, finite y => if y < 0 then negInf else posInf
  | negInf, finite y => if y < 0 then posInf else negInf
  | _, _ => nan

def sqrt (root : K → K) : Value K → Value K
  | finite x => if x < 0 then nan else finite (root x)
  | posInf => posInf
  | negInf => nan
  | nan => nan

@[simp] theorem not_isFinite_signedInf (a : K) : ¬ (signedInf a).IsFinite := by
  unfold signedInf
  split
  · exact id
  · split <;> exact id

/-- No product with an infinity is finite: the one with zero is NaN. -/
@[simp] theorem isFinite_mul : (mul x y).IsFinite ↔ x.IsFinite ∧ y.IsFinite := by
  cases x <;> cases y <;> simp [mul]

/-- A finite number by an infinity is zero. -/
theorem isFinite_div : (div x y).IsFinite ↔ x.IsFinite ∧ y ≠ nan ∧ y ≠ finite 0 := by
  have hsigned : ∀ b : K, ¬ (div posInf (finite b)).IsFinite ∧
      ¬ (div negInf (finite b)).IsFinite := by
    intro b
    by_cases hb : b < 0
    · simp [div, hb]
    · simp [div, hb]
  cases x with
  | finite a =>
    cases y with
    | finite b =>
      by_cases hb : b = 0
      · simp [div, hb]
      · simp [div, hb]
    | posInf => simp [div]
    | negInf => simp [div]
    | nan => simp [div]
  | posInf =>
    cases y with
    | finite b => simp [(hsigned b).1]
    | posInf => simp [div]
    | negInf => simp [div]
    | nan => simp [div]
  | negInf =>
    cases y with
    | finite b => simp [(hsigned b).2]
    | posInf => simp [div]
    | negInf => simp [div]
    | nan => simp [div]
  | nan => cases y <;> simp [div]

variable {root : K → K}

theorem isFinite_sqrt : (sqrt root x).IsFinite ↔ ∃ a, x = finite a ∧ 0 ≤ a := by
  cases x with
  | finite a =>
    by_cases ha : a < 0
    · simp [sqrt, ha]
    · simp [sqrt, ha, not_lt.mp ha]
  | posInf => simp [sqrt]
  | negInf => simp [sqrt]
  | nan => simp [sqrt]

theorem sqrt_ne_negInf : sqrt root x ≠ negInf := by
  cases x with
  | finite a =>
    by_cases ha : a < 0
    · simp [sqrt, ha]
    · simp [sqrt, ha]
  | posInf => simp [sqrt]
  | negInf => simp [sqrt]
  | nan => simp [sqrt]

/-- The length of a vector. -/
def hypot (root : K → K) (x y : Value K) : Value K := sqrt root (add (mul x x) (mul y y))

/-- A square is not negative, so the length of finite coordinates is a number. -/
@[simp] theorem isFinite_hypot [IsStrictOrderedRing K] :
    (hypot root x y).IsFinite ↔ x.IsFinite ∧ y.IsFinite := by
  rw [hypot, isFinite_sqrt]
  constructor
  · rintro ⟨a, ha, -⟩
    have hsum : (add (mul x x) (mul y y)).IsFinite := by
      rw [ha]
      trivial
    rw [isFinite_add, isFinite_mul, isFinite_mul] at hsum
    exact ⟨hsum.1.1, hsum.2.1⟩
  · rintro ⟨hx, hy⟩
    obtain ⟨a, rfl⟩ := hx.exists_eq
    obtain ⟨b, rfl⟩ := hy.exists_eq
    exact ⟨a * a + b * b, rfl, add_nonneg (mul_self_nonneg a) (mul_self_nonneg b)⟩

theorem hypot_nan : hypot root nan y = nan := by
  cases y <;> rfl

end Products

end Value

end Ieee754
