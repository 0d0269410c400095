/-
MiniArena/Countdown.lean

A countdown: a cell that is loaded with a full value, loses a fixed amount
`d` at every tick, and is empty when nothing is left of it.

The cell belongs to a deterministic system with steps `step`.  Some of its
labels are ticks, some steps load the cell, and a step can load it only when
the cell holds nothing positive (`Counts`).  As long as nothing loads the
cell, it holds what the ticks since the last load have left (`cell_run`); and
nothing loads it before that is nothing (`along_of_lt`).
-/
import MiniArena.Transition

namespace Countdown

open Transition

variable {S A : Type*}

/-- What a tick leaves. -/
def lower (d : ℤ) (cell : Option ℤ) : Option ℤ :=
  cell.bind fun left => if left - d ≤ 0 then none else some (left - d)

/-- The cell `n` ticks after it was loaded. -/
def after (full d : ℤ) (n : ℕ) : Option ℤ := if n * d < full then some (full - n * d) else none

theorem after_zero {full d : ℤ} (h : 0 < full) : after full d 0 = some full := by
  rw [after, if_pos (by simpa using h)]
  simp

theorem lower_after {full d : ℤ} (hd : 0 ≤ d) (n : ℕ) :
    lower d (after full d n) = after full d (n + 1) := by
  have hnext : ((n + 1 : ℕ) : ℤ) * d = n * d + d := by push_cast; ring
  unfold after
  rw [hnext]
  by_cases h : (n : ℤ) * d < full
  · rw [if_pos h, lower, Option.bind_some]
    by_cases hlast : full - n * d - d ≤ 0
    · rw [if_pos hlast, if_neg (by omega)]
    · rw [if_neg hlast, if_pos (by omega)]
      congr 1
      omega
  · rw [if_neg h, if_neg (by omega)]
    rfl

structure Counts (step : S → A → S) (cell : S → Option ℤ) (Loads : S → A → Prop)
    (isTick : A → Bool) (full d : ℤ) : Prop where
  amount : 0 ≤ d
  tick : ∀ s a, isTick a = true → cell (step s a) = lower d (cell s)
  load : ∀ s a, Loads s a → cell (step s a) = some full
  keep : ∀ s a, isTick a = false → ¬ Loads s a → cell (step s a) = cell s
  idle : ∀ s a left, Loads s a → cell s = some left → left ≤ 0

variable {step : S → A → S} {cell : S → Option ℤ} {Loads : S → A → Prop} {isTick : A → Bool}
  {full d : ℤ}

/-- One step that does not load the cell. -/
theorem Counts.cell_step (h : Counts step cell Loads isTick full d) {s : S} {a : A} {n : ℕ}
    (hs : cell s = after full d n) (hno : ¬ Loads s a) :
    cell (step s a) = after full d (n + if isTick a then 1 else 0) := by
  cases ha : isTick a with
  | true => rw [h.tick s a ha, hs, lower_after h.amount, if_pos rfl]
  | false => rw [h.keep s a ha hno, hs, if_neg Bool.false_ne_true, Nat.add_zero]

theorem Counts.cell_run (h : Counts step cell Loads isTick full d) {s : S} {as : List A} {n : ℕ}
    (hs : cell s = after full d n) (hno : Along step (fun s a => ¬ Loads s a) s as) :
    cell (as.foldl step s) = after full d (n + as.countP isTick) := by
  induction as generalizing s n with
  | nil => simpa using hs
  | cons a as ih =>
    obtain ⟨hfirst, hrest⟩ := hno
    rw [List.foldl_cons, ih (h.cell_step hs hfirst) hrest, List.countP_cons, Nat.add_assoc,
      Nat.add_comm (List.countP isTick as)]

/-- As long as something is left, nothing loads the cell. -/
theorem Counts.along_of_lt (h : Counts step cell Loads isTick full d) {s : S} {as : List A}
    {n : ℕ} (hs : cell s = after full d n) (hlt : ((n + as.countP isTick : ℕ) : ℤ) * d < full) :
    Along step (fun s a => ¬ Loads s a) s as := by
  induction as generalizing s n with
  | nil => trivial
  | cons a as ih =>
    have hd := h.amount
    rw [List.countP_cons] at hlt
    have hsplit : n + (List.countP isTick as + if isTick a then 1 else 0)
        = n + (if isTick a then 1 else 0) + List.countP isTick as := by omega
    have hmore : (n : ℤ) * d ≤ ((n + (List.countP isTick as + if isTick a then 1 else 0) : ℕ) : ℤ) * d :=
      mul_le_mul_of_nonneg_right (by push_cast; omega) hd
    have hleft : cell s = some (full - n * d) := by
      rw [hs, after, if_pos (by omega)]
    have hfirst : ¬ Loads s a := by
      intro hload
      have := h.idle s a _ hload hleft
      omega
    rw [hsplit] at hlt
    exact ⟨hfirst, ih (h.cell_step hs hfirst) hlt⟩

/-! ### Every load is paid for by ticks -/

/-- The cell and `n` ticks make up a full value. -/
def Paid (full d : ℤ) (cell : Option ℤ) (n : ℕ) : Prop := full ≤ cell.getD 0 + n * d

theorem Paid.lower {c : Option ℤ} {n : ℕ} (h : Paid full d c n) (hd : 0 ≤ d) :
    Paid full d (lower d c) (n + 1) := by
  have hnext : ((n + 1 : ℕ) : ℤ) * d = n * d + d := by push_cast; ring
  unfold Paid at *
  rw [hnext]
  rcases c with - | left
  · rw [Countdown.lower, Option.bind_none]
    omega
  · rw [Option.getD_some] at h
    rw [Countdown.lower, Option.bind_some]
    split
    · rw [Option.getD_none]
      omega
    · rw [Option.getD_some]
      omega

theorem Counts.paid_step (h : Counts step cell Loads isTick full d) {s : S} {n : ℕ}
    (hs : Paid full d (cell s) n) (a : A) :
    Paid full d (cell (step s a)) (n + if isTick a then 1 else 0) := by
  cases ha : isTick a with
  | true =>
    rw [h.tick s a ha, if_pos rfl]
    exact hs.lower h.amount
  | false =>
    rw [if_neg Bool.false_ne_true, Nat.add_zero]
    by_cases hload : Loads s a
    · rw [h.load s a hload, Paid, Option.getD_some]
      have : (0 : ℤ) ≤ n * d := mul_nonneg (Int.natCast_nonneg n) h.amount
      omega
    · rw [h.keep s a ha hload]
      exact hs

theorem Counts.paid_run (h : Counts step cell Loads isTick full d) {s : S} {n : ℕ}
    (hs : Paid full d (cell s) n) (as : List A) :
    Paid full d (cell (as.foldl step s)) (n + as.countP isTick) := by
  induction as generalizing s n with
  | nil => exact hs
  | cons a as ih =>
    rw [List.foldl_cons, List.countP_cons, Nat.add_comm (List.countP isTick as), ← Nat.add_assoc]
    exact ih (h.paid_step hs a)

/-- A load finds everything paid. -/
theorem Counts.paid_load (h : Counts step cell Loads isTick full d) {s : S} {a : A} {n : ℕ}
    (hs : Paid full d (cell s) n) (hload : Loads s a) : full ≤ n * d := by
  unfold Paid at hs
  rcases hcell : cell s with - | left
  · rw [hcell, Option.getD_none] at hs
    omega
  · have hle := h.idle s a left hload hcell
    rw [hcell, Option.getD_some] at hs
    omega

end Countdown
