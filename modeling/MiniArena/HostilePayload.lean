/-
MiniArena/HostilePayload.lean

The getters of the client on any bytes.

A scan jumps from field to field.  Over a field of bytes it jumps as far as
the payload says, and a length from `2 ^ 63` on is a negative `int`: the jump
may lead before the payload, where `payload[pos]` panics, or back to a field
where the scan has been, and then it never ends.  A getter ends without a
panic exactly if no jump from the start does either (`getters_total_iff`).
-/
import MiniArena.BoundedLoop
import MiniArena.LoginPayload

namespace MiniArena

namespace Robot

open WireFormat BoundedLoop Relation

variable {num : ℤ} {payload : List UInt8} {p q : ℤ}

/-- The getter's loop, whatever it needs, ends without a panic. -/
def Answers (num : ℤ) (payload : List UInt8) : Prop :=
  ∃ fuel, (scan num payload fuel 0).isSome = true

/-! ### One round -/

/-- The body of the loop of `scan`. -/
def round (num : ℤ) (payload : List UInt8) (pos : ℤ) : Round ℤ (BitVec 64) :=
  if pos < payload.length then
    match parseVarint payload pos with
    | none => .fail
    | some (tag, pos) =>
        if (tag &&& 0x7).toInt = 0 then
          match parseVarint payload pos with
          | none => .fail
          | some (val, next) => if (tag >>> 3).toInt = num then .done val else .next next
        else if (tag &&& 0x7).toInt = 2 then
          match parseVarint payload pos with
          | none => .fail
          | some (length, next) => .next (Int.bmod (next + length.toInt) (2 ^ 64))
        else .done 0
  else .done 0

/-- The field at `p` is not the one sought, and the next one is at `q`. -/
def Jumps (num : ℤ) (payload : List UInt8) (p q : ℤ) : Prop :=
  p < payload.length ∧ ∃ tag pos v next, parseVarint payload p = some (tag, pos) ∧
    parseVarint payload pos = some (v, next) ∧
      (((tag &&& 0x7).toInt = 0 ∧ (tag >>> 3).toInt ≠ num ∧ q = next) ∨
        ((tag &&& 0x7).toInt = 2 ∧ q = Int.bmod (next + v.toInt) (2 ^ 64)))

/-- No jump from the start leads before the payload, or back to where it came from. -/
structure Straight (num : ℤ) (payload : List UInt8) : Prop where
  inside : ∀ p, ReflTransGen (Jumps num payload) 0 p → 0 ≤ p
  once : ∀ p, ReflTransGen (Jumps num payload) 0 p → ¬ TransGen (Jumps num payload) p p

theorem parseVarint_neg (h : p < 0) : parseVarint payload p = none := by
  rw [parseVarint, if_pos h]

theorem parseVarint_nonneg (h : 0 ≤ p) : ∃ v next, parseVarint payload p = some (v, next) ∧
    p ≤ next ∧ (p < payload.length → p < next) := by
  rw [parseVarint, if_neg (not_lt.mpr h)]
  rcases hdecode : decode 0 0 (payload.drop p.toNat) with ⟨v, n⟩
  refine ⟨v, p + n, rfl, by omega, fun hin => ?_⟩
  have hdrop : 0 < (payload.drop p.toNat).length := by
    rw [List.length_drop]
    omega
  obtain ⟨b, rest, hcons⟩ := List.exists_cons_of_length_pos hdrop
  rw [hcons, decode] at hdecode
  dsimp only at hdecode
  split at hdecode
  · obtain ⟨-, rfl⟩ := Prod.mk.injEq .. ▸ hdecode
    omega
  · obtain ⟨-, rfl⟩ := Prod.mk.injEq .. ▸ hdecode
    omega

theorem le_of_parseVarint {v : BitVec 64} (hp : 0 ≤ p)
    (h : parseVarint payload p = some (v, q)) : p ≤ q := by
  obtain ⟨v', next, heq, hle, -⟩ := @parseVarint_nonneg payload p hp
  rw [h] at heq
  obtain ⟨-, rfl⟩ := Prod.mk.injEq .. ▸ Option.some.inj heq
  exact hle

theorem lt_of_parseVarint {v : BitVec 64} (hp : 0 ≤ p)
    (h : parseVarint payload p = some (v, q)) (hin : p < payload.length) : p < q := by
  obtain ⟨v', next, heq, -, hlt⟩ := @parseVarint_nonneg payload p hp
  rw [h] at heq
  obtain ⟨-, rfl⟩ := Prod.mk.injEq .. ▸ Option.some.inj heq
  exact hlt hin

theorem scan_eq_run {fuel : ℕ} (pos : ℤ) :
    scan num payload fuel pos = run (round num payload) fuel pos := by
  induction fuel generalizing pos with
  | zero => rfl
  | succ fuel ih =>
    rw [scan, run, round]
    by_cases hin : pos < payload.length
    · rw [if_pos hin, if_pos hin]
      rcases parseVarint payload pos with - | ⟨tag, pos₁⟩
      · rfl
      · simp only [Option.bind_some]
        by_cases hzero : (tag &&& 0x7).toInt = 0
        · rw [if_pos hzero, if_pos hzero]
          rcases parseVarint payload pos₁ with - | ⟨val, next⟩
          · rfl
          · simp only [Option.bind_some]
            by_cases hnum : (tag >>> 3).toInt = num
            · rw [if_pos hnum, if_pos hnum]
            · rw [if_neg hnum, if_neg hnum]
              exact ih next
        · rw [if_neg hzero, if_neg hzero]
          by_cases htwo : (tag &&& 0x7).toInt = 2
          · rw [if_pos htwo, if_pos htwo]
            rcases parseVarint payload pos₁ with - | ⟨length, next⟩
            · rfl
            · exact ih _
          · rw [if_neg htwo, if_neg htwo]
    · rw [if_neg hin, if_neg hin]

/-- Of the two panics only the first can happen: a number ends where it starts, or after. -/
theorem round_fail_iff : round num payload p = .fail ↔ p < 0 := by
  rw [round]
  constructor
  · intro h
    by_contra hneg
    obtain ⟨tag, pos, htag, hle, -⟩ := @parseVarint_nonneg payload p (not_lt.mp hneg)
    obtain ⟨v, next, hv, -⟩ := @parseVarint_nonneg payload pos (by omega)
    simp only [htag, hv] at h
    split at h
    · split at h
      · split at h
        · cases h
        · cases h
      · split at h
        · cases h
        · cases h
    · cases h
  · intro h
    rw [if_pos (by omega), parseVarint_neg h]

theorem next_iff : Next (round num payload) p q ↔ Jumps num payload p q := by
  rw [Next, round]
  constructor
  · -- every other way through the round ends the loop
    intro h
    by_cases hin : p < payload.length
    · rw [if_pos hin] at h
      rcases htag : parseVarint payload p with - | ⟨tag, pos⟩
      · rw [htag] at h
        cases h
      · rw [htag] at h
        dsimp only at h
        rcases hv : parseVarint payload pos with - | ⟨v, next⟩
        · rw [hv] at h
          dsimp only at h
          split at h
          · cases h
          · split at h
            · cases h
            · cases h
        · rw [hv] at h
          refine ⟨hin, tag, pos, v, next, htag, hv, ?_⟩
          dsimp only at h
          split at h
          · rename_i hzero
            split at h
            · cases h
            · rename_i hnum
              exact Or.inl ⟨hzero, hnum, (Round.next.inj h).symm⟩
          · split at h
            · rename_i htwo
              exact Or.inr ⟨htwo, (Round.next.inj h).symm⟩
            · cases h
    · rw [if_neg hin] at h
      cases h
  · rintro ⟨hin, tag, pos, v, next, htag, hv, hjump⟩
    rw [if_pos hin, htag]
    dsimp only
    rw [hv]
    dsimp only
    rcases hjump with ⟨hzero, hnum, rfl⟩ | ⟨htwo, rfl⟩
    · rw [if_pos hzero, if_neg hnum]
    · have hzero : (tag &&& 0x7).toInt ≠ 0 := by
        rw [htwo]
        decide
      rw [if_neg hzero, if_pos htwo]

/-! ### Whole scans -/

theorem clean_iff : Clean (round num payload) 0 ↔ Straight num payload := by
  have hnext : Next (round num payload) = Jumps num payload := by
    funext p q
    exact propext next_iff
  constructor
  · intro h
    refine ⟨fun p hp => ?_, fun p hp => ?_⟩
    · rw [← hnext] at hp
      exact not_lt.mp fun hneg => h.ok p hp (round_fail_iff.mpr hneg)
    · rw [← hnext] at hp ⊢
      exact h.once p hp
  · intro h
    refine ⟨fun p hp hfail => ?_, fun p hp => ?_⟩
    · rw [hnext] at hp
      exact absurd (round_fail_iff.mp hfail) (not_lt.mpr (h.inside p hp))
    · rw [hnext] at hp ⊢
      exact h.once p hp

/-- As many rounds as there are bytes, and one. -/
theorem isSome_getField_iff : (getField num payload).isSome = true ↔ Straight num payload := by
  rw [getField, scan_eq_run, ← clean_iff]
  constructor
  · exact clean_of_run
  · intro h
    have hcard : (Finset.Ico (0 : ℤ) payload.length).card = payload.length := by
      rw [Int.card_Ico, sub_zero, Int.toNat_natCast]
    -- a round that goes on starts inside the payload
    have hlive : ∀ p q, ReflTransGen (Next (round num payload)) 0 p →
        Next (round num payload) p q → p ∈ Finset.Ico (0 : ℤ) payload.length := by
      intro p q hp hpq
      obtain ⟨hlt, -⟩ := next_iff.mp hpq
      exact Finset.mem_Ico.mpr ⟨not_lt.mp fun hneg => h.ok p hp (round_fail_iff.mpr hneg), hlt⟩
    have hrun := h.run hlive
    rwa [hcard] at hrun

theorem answers_iff : Answers num payload ↔ Straight num payload := by
  constructor
  · rintro ⟨fuel, h⟩
    rw [scan_eq_run] at h
    exact clean_iff.mp (clean_of_run h)
  · intro h
    exact ⟨_, isSome_getField_iff.mpr h⟩

/-- **When the getters end without a panic**: the loop of each does, in
whatever many rounds, exactly if its jumps from the start stay in the payload
and never lead back. -/
theorem getters_total_iff (payload : List UInt8) :
    (∀ num, Answers num payload ↔ Straight num payload) ∧
    ((getErrorCode payload).isSome = true ↔ Straight 1 payload) ∧
    ((getSessionID payload).isSome = true ↔ Straight 2 payload) ∧
    ((getPlayerID payload).isSome = true ↔ Straight 3 payload) ∧
    ((getRoomID payload).isSome = true ↔ Straight 1 payload) := by
  refine ⟨fun _ => answers_iff, ?_, ?_, ?_, ?_⟩
  · rw [getErrorCode, Option.isSome_map, isSome_getField_iff]
  · rw [getSessionID, Option.isSome_map, isSome_getField_iff]
  · rw [getPlayerID, Option.isSome_map, isSome_getField_iff]
  · rw [getRoomID, Option.isSome_map, isSome_getField_iff]

/-- Field 1, a run of `2 ^ 64 - 11` bytes: eleven bytes back from the end. -/
def spin : List UInt8 :=
  [0x0A, 0xF5, 0xFF, 0xFF, 0xFF, 0xFF, 0xFF, 0xFF, 0xFF, 0xFF, 0x01]

theorem jumps_spin (num : ℤ) : Jumps num spin 0 0 := by
  have htag : parseVarint spin 0 = some (0x0A, 1) := by decide
  have hlength : parseVarint spin 1 = some (BitVec.ofInt 64 (-11), 11) := by decide
  refine ⟨by decide, _, _, _, _, htag, hlength, Or.inr ⟨by decide, by decide⟩⟩

/-- **A payload of eleven bytes** that keeps every getter running for ever. -/
theorem unending_spin :
    ¬ ∀ payload : List UInt8, Answers 1 payload ∧ Answers 2 payload ∧ Answers 3 payload := by
  intro hclaim
  have hanswers : Answers 1 spin := (hclaim spin).1
  exact (answers_iff.mp hanswers).once 0 .refl (.single (jumps_spin 1))

/-! ### Lengths -/

/-- Only a length that is no `int`, or leads past the last one, leads back. -/
theorem straight_of_lengths
    (h : ∀ p tag pos length next, parseVarint payload p = some (tag, pos) →
      parseVarint payload pos = some (length, next) → (tag &&& 0x7).toInt = 2 →
      0 ≤ length.toInt ∧ next + length.toInt < 2 ^ 63) : Straight num payload := by
  have hforward : ∀ p q, 0 ≤ p → Jumps num payload p q → p < q := by
    rintro p q hp ⟨hin, tag, pos, v, next, htag, hv, hjump⟩
    have hpos : p < pos := lt_of_parseVarint hp htag hin
    have hnext : pos ≤ next := le_of_parseVarint (by omega) hv
    rcases hjump with ⟨-, -, rfl⟩ | ⟨htwo, rfl⟩
    · omega
    · obtain ⟨hlength, hfits⟩ := h p tag pos v next htag hv htwo
      rw [Int.bmod_eq_of_le (by omega) (by omega)]
      omega
  have hinside : ∀ p, ReflTransGen (Jumps num payload) 0 p → 0 ≤ p := by
    intro p hp
    induction hp with
    | refl => exact le_refl 0
    | tail _ hjump ih => exact le_of_lt (lt_of_le_of_lt ih (hforward _ _ ih hjump))
  refine ⟨hinside, fun p hp hcycle => ?_⟩
  have hlt : ∀ q, TransGen (Jumps num payload) p q → p < q := by
    intro q hq
    induction hq with
    | single hjump => exact hforward _ _ (hinside p hp) hjump
    | tail hq hjump ih =>
      exact ih.trans (hforward _ _ ((hinside p hp).trans (le_of_lt ih)) hjump)
  exact lt_irrefl p (hlt p hcycle)

end Robot

end MiniArena
