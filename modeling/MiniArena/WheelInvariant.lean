/-
MiniArena/WheelInvariant.lean

What the buckets, the id map and the counter of the timer wheel say of each
other after any sequence of calls.

The wheel keeps the three by hand, and its counter is unsigned.  `leaving` and
`entering` are the amounts a call takes from the counter and adds to it; the
counter never has less than what a call takes (`WF.leaving_le`), and the
truncated subtractions of the model are those of the integers
(`WF.perform`).

Main result (`wheel_invariant`): after every sequence of calls, for any ids
and any timeouts and callbacks that leave the wheel alone, the wheel is
`Consistent`, and the next call takes no more from the counter than it has.
-/
import MiniArena.TimerSchedule

namespace MiniArena

namespace TimerWheel

open TimerCall

variable {κ γ : Type}

/-- How many times the wheel stores a timer of the id, over all buckets. -/
def occurrences (w : TimerWheel κ) (id : ConnectionId) : ℕ :=
  ∑ slot, ((w.slots slot).map TimerEntry.id).count id

/-- `total` is the sum of the sizes of the buckets. -/
def total (w : TimerWheel κ) : ℕ := ∑ slot, (w.slots slot).length

structure Consistent (w : TimerWheel κ) : Prop where
  once : ∀ id, w.occurrences id ≤ 1
  stored : ∀ id, id ∈ w.idToSlot ↔ w.occurrences id = 1
  index : ∀ id slot, w.idToSlot.lookup id = some slot →
    (slot : ℕ) < 6000 ∧ ∃ e ∈ w.slots slot, e.id = id
  total : w.size = w.total
  keys : w.size = w.idToSlot.keys.card

/-- What a call takes from `entries_`. -/
def leaving (w : TimerWheel κ) : TimerCall κ → ℕ
  | .add id _ _ => if id ∈ w.idToSlot then 1 else 0
  | .remove id => if id ∈ w.idToSlot then 1 else 0
  | .refresh id _ => if id ∈ w.idToSlot then 1 else 0
  | .tick => w.due.length

/-- What a call adds to `entries_`. -/
def entering (w : TimerWheel κ) : TimerCall κ → ℕ
  | .add _ _ _ => 1
  | .remove _ => 0
  | .refresh id _ => if id ∈ w.idToSlot then 1 else 0
  | .tick => 0

variable {w : TimerWheel κ} {id : ConnectionId}

/-! ### The invariant, counted -/

/-- A bucket has the id once if the map says so, and not at all otherwise. -/
theorem WF.count_slots (h : w.WF) (id : ConnectionId) (slot : Fin kSlots) :
    ((w.slots slot).map TimerEntry.id).count id =
      if w.idToSlot.lookup id = some slot then 1 else 0 := by
  have hmem : id ∈ (w.slots slot).map TimerEntry.id ↔ w.idToSlot.lookup id = some slot := by
    rw [h.mapped, List.mem_map]
  split
  · rename_i hslot
    exact List.count_eq_one_of_mem (h.nodup slot) (hmem.mpr hslot)
  · rename_i hslot
    exact List.count_eq_zero_of_not_mem (mt hmem.mp hslot)

/-- Of all the buckets, the one the map names has the id. -/
theorem WF.occurrences_eq (h : w.WF) (id : ConnectionId) :
    w.occurrences id = if id ∈ w.idToSlot then 1 else 0 := by
  rw [occurrences]
  simp only [h.count_slots]
  rcases hlookup : w.idToSlot.lookup id with - | slot
  · rw [if_neg (Finmap.lookup_eq_none.mp hlookup)]
    simp
  · rw [if_pos (Finmap.mem_of_lookup_eq_some hlookup)]
    simp only [Option.some.injEq]
    rw [Finset.sum_ite_eq Finset.univ slot fun _ => 1, if_pos (Finset.mem_univ slot)]

theorem WF.consistent (h : w.WF) : w.Consistent where
  once := by
    intro id
    rw [h.occurrences_eq]
    split <;> simp
  stored := by
    intro id
    rw [h.occurrences_eq]
    simp
  index := fun id slot hslot => ⟨slot.isLt, (h.mapped id slot).mp hslot⟩
  total := h.counted
  keys := h.card_keys.symm

/-! ### The counter -/

theorem WF.entries_pos (h : w.WF) (hin : id ∈ w.idToSlot) : 1 ≤ w.entries := by
  rw [← h.card_keys]
  exact Finset.card_pos.mpr ⟨id, Finmap.mem_keys.mpr hin⟩

theorem WF.length_le (h : w.WF) (slot : Fin kSlots) : (w.slots slot).length ≤ w.entries := by
  rw [h.counted]
  exact Finset.single_le_sum (f := fun s => (w.slots s).length) (fun _ _ => Nat.zero_le _)
    (Finset.mem_univ slot)

/-- **No underflow**: the counter has what a call takes. -/
theorem WF.leaving_le (h : w.WF) (c : TimerCall κ) : w.leaving c ≤ w.entries := by
  have hone : ∀ id, (if id ∈ w.idToSlot then 1 else 0) ≤ w.entries := by
    intro id
    split
    · rename_i hin
      exact h.entries_pos hin
    · exact Nat.zero_le _
  cases c with
  | add id ms cb => exact hone id
  | remove id => exact hone id
  | refresh id ms => exact hone id
  | tick => exact h.length_le _

theorem WF.entries_remove (h : w.WF) (id : ConnectionId) :
    (w.remove id).entries + (if id ∈ w.idToSlot then 1 else 0) = w.entries := by
  unfold TimerWheel.remove
  rcases hlookup : w.idToSlot.lookup id with - | slot
  · rw [if_neg (Finmap.lookup_eq_none.mp hlookup)]
    rfl
  · have hin := Finmap.mem_of_lookup_eq_some hlookup
    rw [if_pos hin]
    exact Nat.sub_add_cancel (h.entries_pos hin)

/-- A refresh takes a timer out and puts it back. -/
theorem WF.entries_refresh (h : w.WF) (id : ConnectionId) (ms : UInt64) :
    (w.refresh id ms).entries = w.entries := by
  have hremove := h.entries_remove id
  unfold TimerWheel.refresh
  rcases hlookup : w.idToSlot.lookup id with - | slot
  · rfl
  · rw [if_pos (Finmap.mem_of_lookup_eq_some hlookup)] at hremove
    exact hremove

/-- **One call**: it returns, keeps the invariant, and the counter changes by the
amounts of the call, in the integers. -/
theorem WF.perform {call : Call κ γ} {effect : κ → ConnectionId → γ → γ}
    (hcall : LeavesWheel call effect) (h : w.WF) (c : TimerCall κ) (rest : γ) :
    ∃ w' rest', c.perform call (w, rest) = some (w', rest') ∧ w'.WF ∧
      w'.entries + w.leaving c = w.entries + w.entering c := by
  cases c with
  | add id ms cb =>
    refine ⟨_, _, rfl, h.add id ms cb, ?_⟩
    have hremove := h.entries_remove id
    show (w.remove id).entries + 1 + (if id ∈ w.idToSlot then 1 else 0) = w.entries + 1
    omega
  | remove id => exact ⟨_, _, rfl, h.remove id, h.entries_remove id⟩
  | refresh id ms =>
    refine ⟨_, _, rfl, h.refresh id ms, ?_⟩
    rw [h.entries_refresh]
    rfl
  | tick =>
    refine ⟨w.expire, w.due.foldl (ring effect) rest, ?_, h.expire, ?_⟩
    · rw [TimerCall.perform, hcall.tick]
    · exact Nat.sub_add_cancel (h.length_le _)

/-! ### Every sequence of calls -/

theorem wf_foldlM {call : Call κ γ} {effect : κ → ConnectionId → γ → γ}
    (hcall : LeavesWheel call effect) (h : w.WF) (calls : List (TimerCall κ)) (rest : γ) :
    ∃ w' rest', calls.foldlM (TimerCall.perform call) (w, rest) = some (w', rest') ∧ w'.WF := by
  induction calls generalizing w rest with
  | nil => exact ⟨w, rest, rfl, h⟩
  | cons c calls ih =>
    obtain ⟨w₁, rest₁, hstep, h₁, -⟩ := h.perform hcall c rest
    obtain ⟨w', rest', hrun, h'⟩ := ih h₁ rest₁
    refine ⟨w', rest', ?_, h'⟩
    rw [List.foldlM_cons, hstep]
    exact hrun

/-- **The representation of the wheel.**  Every sequence of calls on a new wheel
returns, with a consistent wheel; and whatever the next call is, the counter
has at least what the call takes, and afterwards that much less and what it
adds more. -/
theorem wheel_invariant {call : Call κ γ} {effect : κ → ConnectionId → γ → γ}
    (hcall : LeavesWheel call effect) (calls : List (TimerCall κ)) (rest : γ) :
    ∃ w s, calls.foldlM (TimerCall.perform call) (({} : TimerWheel κ), rest) = some (w, s) ∧
      w.Consistent ∧ ∀ c, w.leaving c ≤ w.size ∧
        ∃ w' s', c.perform call (w, s) = some (w', s') ∧
          w'.size + w.leaving c = w.size + w.entering c := by
  obtain ⟨w, s, hrun, hwf⟩ := wf_foldlM hcall wf_empty calls rest
  refine ⟨w, s, hrun, hwf.consistent, fun c => ⟨hwf.leaving_le c, ?_⟩⟩
  obtain ⟨w', s', hstep, -, hcount⟩ := hwf.perform hcall c s
  exact ⟨w', s', hstep, hcount⟩

/-- A timer is replaced, refreshed into another slot, and a second one added with a
timeout of `2^64 - 1` milliseconds, whose rounding wraps around. -/
theorem wheel_invariant_of_wrap :
    let call : Call ℕ (List ℕ) := fun cb _ p => (p.1, p.2 ++ [cb])
    ∃ w s, [.add 1 30 (some 7), .add 1 60000 none, .refresh 1 10, .add 2 (2 ^ 64 - 1) none,
        .tick].foldlM (TimerCall.perform call) (({} : TimerWheel ℕ), []) = some (w, s) ∧
      w.Consistent := by
  have hcall : LeavesWheel (fun cb _ p => (p.1, p.2 ++ [cb]) : Call ℕ (List ℕ))
      (fun cb _ s => s ++ [cb]) := fun _ _ _ _ => rfl
  obtain ⟨w, s, hrun, hconsistent, -⟩ := wheel_invariant hcall
    [.add 1 30 (some 7), .add 1 60000 none, .refresh 1 10, .add 2 (2 ^ 64 - 1) none, .tick] []
  exact ⟨w, s, hrun, hconsistent⟩

end TimerWheel

end MiniArena
