/-
MiniArena/BigEndian.lean

Fixed-width big-endian numerals over bytes: `toBE w n` writes the `w` least
significant base-256 digits of `n`, most significant first, and `ofBE` reads
a byte string back.  The two round trips

    ofBE (toBE w n) = n % 256 ^ w          toBE l.length (ofBE l) = l

are what a binary header format needs: the first says that a field is read
back modulo its width, the second that no two byte strings of one width
denote the same number.
-/
import Mathlib

namespace BigEndian

/-- The `w` least significant base-256 digits of `n`, most significant first. -/
def toBE : ℕ → ℕ → List UInt8
  | 0, _ => []
  | w + 1, n => UInt8.ofNat (n / 256 ^ w) :: toBE w n

/-- The number a byte string denotes, most significant byte first. -/
def ofBE : List UInt8 → ℕ
  | [] => 0
  | b :: l => b.toNat * 256 ^ l.length + ofBE l

@[simp] theorem length_toBE (w n : ℕ) : (toBE w n).length = w := by
  induction w with
  | zero => rfl
  | succ w ih => simp [toBE, ih]

theorem ofBE_lt (l : List UInt8) : ofBE l < 256 ^ l.length := by
  induction l with
  | nil => simp [ofBE]
  | cons b l ih =>
    have hb : b.toNat < 256 := b.toNat_lt
    calc ofBE (b :: l) < b.toNat * 256 ^ l.length + 256 ^ l.length := by
          simpa [ofBE] using ih
      _ = (b.toNat + 1) * 256 ^ l.length := by ring
      _ ≤ 256 * 256 ^ l.length := Nat.mul_le_mul_right _ hb
      _ = 256 ^ (b :: l).length := by rw [List.length_cons, pow_succ, mul_comm]

/-- Reading a numeral of width `w` gives the number modulo `256 ^ w`. -/
theorem ofBE_toBE (w n : ℕ) : ofBE (toBE w n) = n % 256 ^ w := by
  induction w with
  | zero => simp [toBE, ofBE, Nat.mod_one]
  | succ w ih =>
    have hdigit : (UInt8.ofNat (n / 256 ^ w)).toNat = n / 256 ^ w % 256 := by simp
    rw [toBE, ofBE, hdigit, length_toBE, ih, pow_succ, Nat.mod_mul]
    ring

theorem ofBE_toBE_of_lt {w n : ℕ} (h : n < 256 ^ w) : ofBE (toBE w n) = n := by
  rw [ofBE_toBE, Nat.mod_eq_of_lt h]

/-- Only the digits below the width matter. -/
theorem toBE_congr {w m n : ℕ} (h : m % 256 ^ w = n % 256 ^ w) : toBE w m = toBE w n := by
  induction w generalizing m n with
  | zero => rfl
  | succ w ih =>
    have hlow : m % 256 ^ w = n % 256 ^ w := by
      have := congrArg (· % 256 ^ w) h
      simpa [pow_succ, Nat.mod_mul_right_mod] using this
    have htop : m / 256 ^ w % 256 = n / 256 ^ w % 256 := by
      have := congrArg (· / 256 ^ w) h
      simpa [pow_succ, Nat.mod_mul_right_div_self] using this
    rw [toBE, toBE, ih hlow]
    congr 1
    apply UInt8.toNat_inj.mp
    simpa using htop

/-- Writing back the number a byte string denotes gives the byte string. -/
theorem toBE_ofBE (l : List UInt8) : toBE l.length (ofBE l) = l := by
  induction l with
  | nil => rfl
  | cons b l ih =>
    have hpos : 0 < 256 ^ l.length := by positivity
    have hdiv : ofBE (b :: l) / 256 ^ l.length = b.toNat := by
      rw [ofBE, mul_comm, Nat.mul_add_div hpos, Nat.div_eq_of_lt (ofBE_lt l), add_zero]
    have hmod : ofBE (b :: l) % 256 ^ l.length = ofBE l % 256 ^ l.length := by
      rw [ofBE, mul_comm, Nat.mul_add_mod]
    rw [List.length_cons, toBE, hdiv, toBE_congr hmod, ih]
    simp

/-! ### Fields side by side -/

theorem toBE_add (v w n : ℕ) : toBE (v + w) n = toBE v (n / 256 ^ w) ++ toBE w n := by
  induction v with
  | zero => simp [toBE]
  | succ v ih =>
    rw [Nat.succ_add, toBE, toBE, ih, pow_add, mul_comm, Nat.div_div_eq_div_mul]
    rfl

theorem ofBE_append (l r : List UInt8) : ofBE (l ++ r) = ofBE l * 256 ^ r.length + ofBE r := by
  induction l with
  | nil => simp [ofBE]
  | cons b l ih =>
    rw [List.cons_append, ofBE, ofBE, ih, List.length_append, pow_add]
    ring

end BigEndian
