/-
MiniArena/TimerSchedule.lean

When the timers of the wheel fire.

The wheel knows the slot of a timer and its own position.  What matters of the
two is how many ticks the slot is ahead (`ahead`), and with it every operation
on a timer can be said without slots (`Pending`): it sets the number of ticks
to go, and a tick counts it down.

`Alarm` is the timer of one id as the calls on the wheel define it: its
callback, its timeout, and the ticks since it was set.  `alarmAfter` follows it
through any sequence of calls.

Main result (`fires_on_time`): after every sequence of calls, with timeouts the
wheel covers and callbacks that leave it alone, the next tick fires exactly the
alarms whose time has come.  `alarmAfter_add` and `alarmAfter_refresh` say what
the time is.
-/
import MiniArena.TimerWheel

namespace MiniArena

namespace TimerWheel

variable {κ γ : Type}

/-! ### How many ticks ahead a slot is -/

/-- The number of ticks after the next one until the slot is due. -/
def ahead (w : TimerWheel κ) (slot : Fin kSlots) : ℕ := (slot - w.currentSlot - 1 : Fin kSlots)

theorem ahead_eq (w : TimerWheel κ) (slot : Fin kSlots) :
    w.ahead slot = (slot + 2 * kSlots - 1 - w.currentSlot) % kSlots := by
  have hc := w.currentSlot.isLt
  have hs := slot.isLt
  have hone : ((1 : Fin kSlots) : ℕ) = 1 := rfl
  rw [ahead, Fin.val_sub, Fin.val_sub, hone]
  unfold kSlots at *
  omega

theorem val_nextSlot (w : TimerWheel κ) : (w.nextSlot : ℕ) = (w.currentSlot + 1) % kSlots := by
  have hone : ((1 : Fin kSlots) : ℕ) = 1 := rfl
  rw [nextSlot, Fin.val_add, hone]

theorem ahead_nextSlot (w : TimerWheel κ) : w.ahead w.nextSlot = 0 := by
  have hc := w.currentSlot.isLt
  rw [ahead_eq, val_nextSlot]
  unfold kSlots at *
  omega

theorem ahead_expire (w : TimerWheel κ) {slot : Fin kSlots} (h : slot ≠ w.nextSlot) :
    w.ahead slot = w.expire.ahead slot + 1 := by
  have hc := w.currentSlot.isLt
  have hs := slot.isLt
  have hne : (slot : ℕ) ≠ w.nextSlot := fun heq => h (Fin.ext heq)
  have hcur : (w.expire.currentSlot : ℕ) = (w.currentSlot + 1) % kSlots := val_nextSlot w
  rw [val_nextSlot] at hne
  rw [ahead_eq, ahead_eq, hcur]
  unfold kSlots at *
  omega

theorem ahead_slotOf (w : TimerWheel κ) {ms : UInt64} (h : ticksOf ms ≤ kSlots) :
    w.ahead (w.slotOf ms) + 1 = ticksOf ms := by
  have hpos : 0 < ticksOf ms := by
    unfold ticksOf
    dsimp only
    split
    · exact Nat.one_pos
    · rename_i hne
      exact Nat.pos_of_ne_zero fun h0 => hne (UInt64.toNat_inj.mp h0)
  have hc := w.currentSlot.isLt
  have hslot : (w.slotOf ms : ℕ) = (w.currentSlot + ticksOf ms) % kSlots := rfl
  rw [ahead_eq, hslot]
  unfold kSlots at *
  omega

/-- Where the sum does not wrap, the number of ticks is the quotient rounded up. -/
theorem ticksOf_eq {ms : UInt64} (h : ms ≤ 60000) : ticksOf ms = max 1 (ms.toNat ⌈/⌉ 10) := by
  have hms : ms.toNat ≤ 60000 := UInt64.le_iff_toNat_le.mp h
  have hticks : ((ms + kTickMs - 1) / kTickMs).toNat = (ms.toNat + 9) / 10 := by
    rw [UInt64.toNat_div, UInt64.toNat_sub_of_le, UInt64.toNat_add]
    · show ((ms.toNat + 10) % 2 ^ 64 - 1) / 10 = _
      omega
    · rw [UInt64.le_iff_toNat_le, UInt64.toNat_add]
      show 1 ≤ (ms.toNat + 10) % 2 ^ 64
      omega
  rw [Nat.ceilDiv_eq_add_pred_div]
  unfold ticksOf
  dsimp only
  split
  · rename_i h0
    rw [h0] at hticks
    have : (0 : UInt64).toNat = 0 := rfl
    omega
  · rename_i hne
    have hpos : ((ms + kTickMs - 1) / kTickMs).toNat ≠ 0 :=
      fun h0 => hne (UInt64.toNat_inj.mp h0)
    omega

theorem toNat_ticks {ms : UInt64} (h : ms ≤ 60000) :
    ticksOf ms ≤ kSlots ∧ ms.toNat ≤ 10 * ticksOf ms := by
  have hms : ms.toNat ≤ 60000 := UInt64.le_iff_toNat_le.mp h
  rw [ticksOf_eq h, Nat.ceilDiv_eq_add_pred_div]
  unfold kSlots
  omega

@[simp] theorem currentSlot_remove (w : TimerWheel κ) (id : ConnectionId) :
    (w.remove id).currentSlot = w.currentSlot := by
  unfold remove
  split <;> rfl

@[simp] theorem currentSlot_refresh (w : TimerWheel κ) (id : ConnectionId) (ms : UInt64) :
    (w.refresh id ms).currentSlot = w.currentSlot := by
  unfold refresh
  split
  · rfl
  · exact currentSlot_remove w id

variable {w : TimerWheel κ} {id a : ConnectionId} {cb : Option κ} {n : ℕ} {ms : UInt64}

/-- A timer after a refresh was there before. -/
theorem WF.mem_slots_refresh_iff (h : w.WF) {slot : Fin kSlots} {e : TimerEntry κ} :
    e ∈ (w.refresh id ms).slots slot ↔
      (e ∈ w.slots slot ∧ e.id ≠ id) ∨
        (slot = w.slotOf ms ∧ e.id = id ∧ ∃ slot', e ∈ w.slots slot') := by
  rcases hslot : w.idToSlot.lookup id with - | slot₀
  · have hnone : ∀ slot', ∀ e' ∈ w.slots slot', e'.id ≠ id := by
      rintro slot' e' he' rfl
      rw [(h.mapped e'.id slot').mpr ⟨e', he', rfl⟩] at hslot
      cases hslot
    rw [TimerWheel.refresh, hslot]
    constructor
    · exact fun he => Or.inl ⟨he, hnone slot e he⟩
    · rintro (⟨he, -⟩ | ⟨-, hid, slot', he⟩)
      · exact he
      · exact absurd hid (hnone slot' e he)
  · obtain ⟨e₀, he₀, rfl⟩ := (h.mapped id slot₀).mp hslot
    rw [h.refresh_eq ms he₀, h.mem_slots_add]
    apply or_congr Iff.rfl
    apply and_congr Iff.rfl
    constructor
    · rintro rfl
      exact ⟨rfl, slot₀, he₀⟩
    · rintro ⟨hid, slot', he⟩
      exact h.entry_unique he he₀ hid

/-! ### The ticks to go -/

/-- The timer of `id` has the callback `cb` and fires at the `n`-th tick from now. -/
def Pending (w : TimerWheel κ) (id : ConnectionId) (cb : Option κ) (n : ℕ) : Prop :=
  ∃ slot, (⟨id, cb⟩ : TimerEntry κ) ∈ w.slots slot ∧ w.ahead slot + 1 = n

theorem ahead_congr {w' : TimerWheel κ} (h : w'.currentSlot = w.currentSlot) (slot : Fin kSlots) :
    w'.ahead slot = w.ahead slot := by
  rw [ahead, ahead, h]

theorem WF.pending_remove (h : w.WF) :
    (w.remove id).Pending a cb n ↔ a ≠ id ∧ w.Pending a cb n := by
  unfold Pending
  simp only [h.mem_slots_remove, ahead_congr (currentSlot_remove w id)]
  constructor
  · rintro ⟨slot, ⟨he, hne⟩, hn⟩
    exact ⟨hne, slot, he, hn⟩
  · rintro ⟨hne, slot, he, hn⟩
    exact ⟨slot, ⟨he, hne⟩, hn⟩

theorem WF.pending_add (h : w.WF) (hms : ms ≤ 60000) {cb' : Option κ} :
    (w.add id ms cb').Pending a cb n ↔
      (a ≠ id ∧ w.Pending a cb n) ∨ (a = id ∧ cb = cb' ∧ n = ticksOf ms) := by
  have hcur : (w.add id ms cb').currentSlot = w.currentSlot := currentSlot_remove w id
  have hahead := w.ahead_slotOf (toNat_ticks hms).1
  unfold Pending
  simp only [h.mem_slots_add, ahead_congr hcur, TimerEntry.mk.injEq]
  constructor
  · rintro ⟨slot, ⟨he, hne⟩ | ⟨rfl, rfl, rfl⟩, hn⟩
    · exact Or.inl ⟨hne, slot, he, hn⟩
    · exact Or.inr ⟨rfl, rfl, hn.symm.trans hahead⟩
  · rintro (⟨hne, slot, he, hn⟩ | ⟨rfl, rfl, rfl⟩)
    · exact ⟨slot, Or.inl ⟨he, hne⟩, hn⟩
    · exact ⟨_, Or.inr ⟨rfl, rfl, rfl⟩, hahead⟩

theorem WF.pending_refresh (h : w.WF) (hms : ms ≤ 60000) :
    (w.refresh id ms).Pending a cb n ↔
      (a ≠ id ∧ w.Pending a cb n) ∨ (a = id ∧ (∃ m, w.Pending a cb m) ∧ n = ticksOf ms) := by
  have hahead := w.ahead_slotOf (toNat_ticks hms).1
  unfold Pending
  simp only [h.mem_slots_refresh_iff, ahead_congr (currentSlot_refresh w id ms)]
  constructor
  · rintro ⟨slot, ⟨he, hne⟩ | ⟨rfl, hid, slot', he⟩, hn⟩
    · exact Or.inl ⟨hne, slot, he, hn⟩
    · exact Or.inr ⟨hid, ⟨_, slot', he, rfl⟩, hn.symm.trans hahead⟩
  · rintro (⟨hne, slot, he, hn⟩ | ⟨hid, ⟨_, slot', he, -⟩, rfl⟩)
    · exact ⟨slot, Or.inl ⟨he, hne⟩, hn⟩
    · exact ⟨_, Or.inr ⟨rfl, hid, slot', he⟩, hahead⟩

theorem mem_due_iff : (⟨id, cb⟩ : TimerEntry κ) ∈ w.due ↔ w.Pending id cb 1 := by
  constructor
  · intro he
    exact ⟨w.nextSlot, he, by rw [ahead_nextSlot]⟩
  · rintro ⟨slot, he, hn⟩
    by_cases hslot : slot = w.nextSlot
    · rw [hslot] at he
      exact he
    · have := w.ahead_expire hslot
      omega

theorem pending_expire : w.expire.Pending a cb n ↔ 0 < n ∧ w.Pending a cb (n + 1) := by
  constructor
  · rintro ⟨slot, he, hn⟩
    obtain ⟨he, hslot⟩ := mem_slots_expire.mp he
    have := w.ahead_expire hslot
    exact ⟨by omega, slot, he, by omega⟩
  · rintro ⟨hpos, slot, he, hn⟩
    have hslot : slot ≠ w.nextSlot := by
      rintro rfl
      rw [ahead_nextSlot] at hn
      omega
    have := w.ahead_expire hslot
    exact ⟨slot, mem_slots_expire.mpr ⟨he, hslot⟩, by omega⟩

end TimerWheel

/-! ### The calls on the wheel, and what they mean for one id -/

inductive TimerCall (κ : Type)
  | add (id : ConnectionId) (timeoutMs : UInt64) (cb : Option κ)
  | remove (id : ConnectionId)
  | refresh (id : ConnectionId) (timeoutMs : UInt64)
  | tick

/-- The timer of an id: `age` is the number of ticks since it was set. -/
structure Alarm (κ : Type) where
  callback : Option κ
  timeoutMs : UInt64
  age : ℕ := 0

/-- The tick, counted from the one after it was set, at which the alarm fires. -/
def Alarm.dueAt {κ : Type} (al : Alarm κ) : ℕ := max 1 (al.timeoutMs.toNat ⌈/⌉ 10)

namespace TimerCall

variable {κ γ : Type}

/-- The wheel covers the timeout. -/
def Covered : TimerCall κ → Prop
  | .add _ ms _ => ms ≤ 60000
  | .refresh _ ms => ms ≤ 60000
  | _ => True

def perform (call : TimerWheel.Call κ γ) (s : TimerWheel κ × γ) :
    TimerCall κ → Option (TimerWheel κ × γ)
  | .add id ms cb => some (s.1.add id ms cb, s.2)
  | .remove id => some (s.1.remove id, s.2)
  | .refresh id ms => some (s.1.refresh id ms, s.2)
  | .tick =>
      match s.1.tick call s.2 with
      | .ok p => some (p.wheel, p.rest)
      | .error _ => none

/-- What a call does to the alarm of `id`. -/
def onAlarm (id : ConnectionId) (o : Option (Alarm κ)) : TimerCall κ → Option (Alarm κ)
  | .add a ms cb => if a = id then some ⟨cb, ms, 0⟩ else o
  | .remove a => if a = id then none else o
  | .refresh a ms => if a = id then o.map fun al => ⟨al.callback, ms, 0⟩ else o
  | .tick => o.bind fun al =>
      if al.age + 1 = al.dueAt then none else some { al with age := al.age + 1 }

/-- The alarm of `id` after the calls, on a new wheel. -/
def alarmAfter (id : ConnectionId) (calls : List (TimerCall κ)) : Option (Alarm κ) :=
  calls.foldl (onAlarm id) none

/-- The call is on another timer, or a tick. -/
def Spares (id : ConnectionId) : TimerCall κ → Prop
  | .add a _ _ => a ≠ id
  | .remove a => a ≠ id
  | .refresh a _ => a ≠ id
  | .tick => True

def isTick : TimerCall κ → Bool
  | .tick => true
  | _ => false

variable {id : ConnectionId}

theorem foldl_onAlarm_none {calls : List (TimerCall κ)} (h : ∀ c ∈ calls, c.Spares id) :
    calls.foldl (onAlarm id) none = none := by
  induction calls with
  | nil => rfl
  | cons c calls ih =>
    have hc := h c List.mem_cons_self
    have hstep : onAlarm id none c = none := by
      cases c with
      | add a ms cb => exact if_neg hc
      | remove a => exact if_neg hc
      | refresh a ms => exact if_neg hc
      | tick => rfl
    rw [List.foldl_cons, hstep]
    exact ih fun c' hc' => h c' (List.mem_cons_of_mem _ hc')

/-- **What the time of an alarm is.**  Set `age` ticks ago, it is there until the
tick number `dueAt`, and gone after it, if no other call is on its id. -/
theorem foldl_onAlarm_of_spares {al : Alarm κ} (hyoung : al.age < al.dueAt)
    {calls : List (TimerCall κ)} (h : ∀ c ∈ calls, c.Spares id) :
    calls.foldl (onAlarm id) (some al) =
      if al.age + calls.countP isTick < al.dueAt then
        some { al with age := al.age + calls.countP isTick } else none := by
  induction calls generalizing al with
  | nil => simp [hyoung]
  | cons c calls ih =>
    have hc := h c List.mem_cons_self
    have hrest : ∀ c' ∈ calls, c'.Spares id := fun c' hc' => h c' (List.mem_cons_of_mem _ hc')
    rw [List.foldl_cons]
    cases c with
    | add a ms cb =>
      rw [onAlarm, if_neg hc, ih hyoung hrest, List.countP_cons_of_neg (by simp [isTick])]
    | remove a =>
      rw [onAlarm, if_neg hc, ih hyoung hrest, List.countP_cons_of_neg (by simp [isTick])]
    | refresh a ms =>
      rw [onAlarm, if_neg hc, ih hyoung hrest, List.countP_cons_of_neg (by simp [isTick])]
    | tick =>
      rw [onAlarm, Option.bind_some, List.countP_cons_of_pos rfl]
      by_cases hdue : al.age + 1 = al.dueAt
      · rw [if_pos hdue, foldl_onAlarm_none hrest, if_neg (by omega)]
      · rw [if_neg hdue, ih (by show al.age + 1 < al.dueAt; omega) hrest]
        have hage : al.age + 1 + calls.countP isTick = al.age + (calls.countP isTick + 1) := by ring
        show (if al.age + 1 + calls.countP isTick < al.dueAt then _ else _) = _
        rw [hage]

theorem dueAt_pos (al : Alarm κ) : 0 < al.dueAt := Nat.lt_of_lt_of_le Nat.one_pos (le_max_left _ _)

/-- An added timer is there, with its callback, until its tick. -/
theorem alarmAfter_add {past calls : List (TimerCall κ)} {ms : UInt64} {cb : Option κ}
    (h : ∀ c ∈ calls, c.Spares id) :
    alarmAfter id (past ++ .add id ms cb :: calls) =
      if calls.countP isTick < max 1 (ms.toNat ⌈/⌉ 10) then
        some ⟨cb, ms, calls.countP isTick⟩ else none := by
  rw [alarmAfter, List.foldl_append, List.foldl_cons, onAlarm, if_pos rfl,
    foldl_onAlarm_of_spares (dueAt_pos _) h, Nat.zero_add]
  rfl

/-- A refreshed timer starts again, with the callback it has. -/
theorem alarmAfter_refresh {past calls : List (TimerCall κ)} {ms : UInt64} {al : Alarm κ}
    (hal : alarmAfter id past = some al) (h : ∀ c ∈ calls, c.Spares id) :
    alarmAfter id (past ++ .refresh id ms :: calls) =
      if calls.countP isTick < max 1 (ms.toNat ⌈/⌉ 10) then
        some ⟨al.callback, ms, calls.countP isTick⟩ else none := by
  rw [alarmAfter] at hal
  rw [alarmAfter, List.foldl_append, List.foldl_cons, hal, onAlarm, if_pos rfl, Option.map_some,
    foldl_onAlarm_of_spares (dueAt_pos _) h, Nat.zero_add]
  rfl

end TimerCall

/-! ### The wheel keeps the alarms -/

namespace TimerWheel

open TimerCall

variable {κ γ : Type} {w : TimerWheel κ} {id a : ConnectionId} {o : Option (Alarm κ)}

/-- The wheel has the alarm of `id`, with the ticks to go that its age leaves. -/
def Matches (w : TimerWheel κ) (id : ConnectionId) : Option (Alarm κ) → Prop
  | none => ∀ cb n, ¬ w.Pending id cb n
  | some al => al.age < al.dueAt ∧
      ∀ cb n, w.Pending id cb n ↔ cb = al.callback ∧ al.age + n = al.dueAt

theorem matches_congr {w' : TimerWheel κ} (h : ∀ cb n, w'.Pending id cb n ↔ w.Pending id cb n) :
    w'.Matches id o ↔ w.Matches id o := by
  cases o with
  | none => simp only [Matches, h]
  | some al => simp only [Matches, h]

theorem Matches.add (h : w.WF) (hm : w.Matches id o) {ms : UInt64} (hms : ms ≤ 60000)
    (cb : Option κ) : (w.add a ms cb).Matches id (onAlarm id o (.add a ms cb)) := by
  rw [onAlarm]
  split
  · rename_i ha
    subst ha
    refine ⟨dueAt_pos _, fun cb' n => ?_⟩
    rw [h.pending_add hms, ticksOf_eq hms, Nat.zero_add]
    simp [Alarm.dueAt]
  · rename_i ha
    refine (matches_congr fun cb' n => ?_).mpr hm
    rw [h.pending_add hms]
    simp [Ne.symm ha]

theorem Matches.remove (h : w.WF) (hm : w.Matches id o) :
    (w.remove a).Matches id (onAlarm id o (.remove a)) := by
  rw [onAlarm]
  split
  · rename_i ha
    subst ha
    intro cb n
    rw [h.pending_remove]
    simp
  · rename_i ha
    refine (matches_congr fun cb n => ?_).mpr hm
    rw [h.pending_remove]
    simp [Ne.symm ha]

theorem Matches.refresh (h : w.WF) (hm : w.Matches id o) {ms : UInt64} (hms : ms ≤ 60000) :
    (w.refresh a ms).Matches id (onAlarm id o (.refresh a ms)) := by
  rw [onAlarm]
  split
  · rename_i ha
    subst ha
    cases o with
    | none =>
      intro cb n
      rw [h.pending_refresh hms]
      rintro (⟨hne, -⟩ | ⟨-, ⟨m, hold⟩, -⟩)
      · exact hne rfl
      · exact hm cb m hold
    | some al =>
      refine ⟨dueAt_pos _, fun cb n => ?_⟩
      -- there is a number of ticks to go, as the alarm is not due yet
      have hold : (∃ m, w.Pending a cb m) ↔ cb = al.callback := by
        simp only [hm.2]
        constructor
        · rintro ⟨m, hcb, -⟩
          exact hcb
        · intro hcb
          exact ⟨al.dueAt - al.age, hcb, Nat.add_sub_cancel' hm.1.le⟩
      rw [h.pending_refresh hms, hold, ticksOf_eq hms, Nat.zero_add]
      simp [Alarm.dueAt]
  · rename_i ha
    refine (matches_congr fun cb n => ?_).mpr hm
    rw [h.pending_refresh hms]
    simp [Ne.symm ha]

/-- A tick counts down, and drops the alarm whose time has come. -/
theorem Matches.expire (hm : w.Matches id o) : w.expire.Matches id (onAlarm id o .tick) := by
  rw [onAlarm]
  cases o with
  | none =>
    intro cb n
    rw [pending_expire]
    rintro ⟨-, hold⟩
    exact hm cb _ hold
  | some al =>
    rw [Option.bind_some]
    split
    · rename_i hdue
      intro cb n
      rw [pending_expire, hm.2]
      rintro ⟨hpos, -, heq⟩
      omega
    · rename_i hdue
      have hlt := hm.1
      refine ⟨?_, fun cb n => ?_⟩
      · show al.age + 1 < al.dueAt
        omega
      · rw [pending_expire, hm.2]
        show _ ↔ cb = al.callback ∧ al.age + 1 + n = al.dueAt
        constructor
        · rintro ⟨-, hcb, heq⟩
          exact ⟨hcb, by omega⟩
        · rintro ⟨hcb, heq⟩
          exact ⟨by omega, hcb, by omega⟩

/-- The due timer of `id`. -/
theorem Matches.mem_due (hm : w.Matches id o) {cb : Option κ} :
    (⟨id, cb⟩ : TimerEntry κ) ∈ w.due ↔
      ∃ al, o = some al ∧ cb = al.callback ∧ al.age + 1 = al.dueAt := by
  rw [mem_due_iff]
  cases o with
  | none => simp [hm cb 1]
  | some al => simp [hm.2]

/-! ### Every sequence of calls -/

/-- The callbacks act on the state around the wheel, and leave the wheel alone. -/
def LeavesWheel (call : Call κ γ) (effect : κ → ConnectionId → γ → γ) : Prop :=
  ∀ cb id w s, call cb id (w, s) = (w, effect cb id s)

theorem LeavesWheel.tick {call : Call κ γ} {effect : κ → ConnectionId → γ → γ}
    (h : LeavesWheel call effect) (w : TimerWheel κ) (rest : γ) :
    w.tick call rest = .ok
      { wheel := w.expire
        rest := w.due.foldl (ring effect) rest
        expired := w.due.map TimerEntry.id
        fired := (w.due.filter fun e => e.callback.isSome).map TimerEntry.id } :=
  tick_of_quiet (C := fun _ => True) trivial fun _ _ cb _ w s _ => ⟨h cb _ w s, trivial⟩

/-- **One call** keeps the invariant of the wheel and every alarm. -/
theorem perform_spec {call : Call κ γ} {effect : κ → ConnectionId → γ → γ}
    (hcall : LeavesWheel call effect) (h : w.WF) {o : ConnectionId → Option (Alarm κ)}
    (hm : ∀ id, w.Matches id (o id)) {c : TimerCall κ} (hc : c.Covered) (rest : γ) :
    ∃ w' rest', c.perform call (w, rest) = some (w', rest') ∧ w'.WF ∧
      ∀ id, w'.Matches id (onAlarm id (o id) c) := by
  cases c with
  | add a ms cb => exact ⟨_, _, rfl, h.add a ms cb, fun id => (hm id).add h hc cb⟩
  | remove a => exact ⟨_, _, rfl, h.remove a, fun id => (hm id).remove h⟩
  | refresh a ms => exact ⟨_, _, rfl, h.refresh a ms, fun id => (hm id).refresh h hc⟩
  | tick =>
    refine ⟨w.expire, w.due.foldl (ring effect) rest, ?_, h.expire, fun id => (hm id).expire⟩
    rw [TimerCall.perform, hcall.tick]

/-- Every sequence of covered calls returns, with the alarms in the wheel. -/
theorem foldlM_perform {call : Call κ γ} {effect : κ → ConnectionId → γ → γ}
    (hcall : LeavesWheel call effect) {calls : List (TimerCall κ)} (hc : ∀ c ∈ calls, c.Covered)
    (rest : γ) :
    ∃ w s, calls.foldlM (TimerCall.perform call) (({} : TimerWheel κ), rest) = some (w, s) ∧
      w.WF ∧ ∀ id, w.Matches id (alarmAfter id calls) := by
  induction calls using List.reverseRecOn with
  | nil =>
    refine ⟨_, _, rfl, wf_empty, fun id cb n => ?_⟩
    rintro ⟨slot, he, -⟩
    cases he
  | append_singleton calls c ih =>
    obtain ⟨w, s, hrun, hwf, hm⟩ := ih fun c' hc' => hc c' (List.mem_append_left _ hc')
    obtain ⟨w', s', hstep, hwf', hm'⟩ :=
      perform_spec hcall hwf hm (hc c (List.mem_append_right _ List.mem_cons_self)) s
    refine ⟨w', s', ?_, hwf', fun id => ?_⟩
    · rw [List.foldlM_append, hrun]
      simp [hstep]
    · rw [alarmAfter, List.foldl_append]
      exact hm' id

/-- **Timers fire on time.**  After any calls with covered timeouts, the next tick
returns the ids of `due`, each once, and runs their callbacks: `due` has the
timer of `id` exactly if its alarm was set, with that callback, the right
number of ticks ago. -/
theorem fires_on_time {call : Call κ γ} {effect : κ → ConnectionId → γ → γ}
    (hcall : LeavesWheel call effect) {calls : List (TimerCall κ)} (hc : ∀ c ∈ calls, c.Covered)
    (rest : γ) :
    ∃ w s, calls.foldlM (TimerCall.perform call) (({} : TimerWheel κ), rest) = some (w, s) ∧
      ∃ due : List (TimerEntry κ),
        (∃ p, w.tick call s = .ok p ∧ p.expired = due.map TimerEntry.id ∧
          p.rest = due.foldl (ring effect) s) ∧
        (due.map TimerEntry.id).Nodup ∧
        ∀ id cb, (⟨id, cb⟩ : TimerEntry κ) ∈ due ↔
          ∃ al, alarmAfter id calls = some al ∧ cb = al.callback ∧ al.age + 1 = al.dueAt := by
  obtain ⟨w, s, hrun, hwf, hm⟩ := foldlM_perform hcall hc rest
  exact ⟨w, s, hrun, w.due, ⟨_, hcall.tick w s, rfl, rfl⟩, hwf.nodup _, fun id cb => (hm id).mem_due⟩

/-- A timer of 30 milliseconds is due at the third tick. -/
theorem fires_on_time_at_third :
    let call : Call ℕ (List ℕ) := fun cb _ p => (p.1, p.2 ++ [cb])
    ∃ w s, [.add 1 30 (some 7), .tick, .tick].foldlM (TimerCall.perform call)
        (({} : TimerWheel ℕ), []) = some (w, s) ∧
      ∃ p, w.tick call s = .ok p ∧ 1 ∈ p.expired := by
  have hcall : LeavesWheel (fun cb _ p => (p.1, p.2 ++ [cb]) : Call ℕ (List ℕ))
      (fun cb _ s => s ++ [cb]) := fun _ _ _ _ => rfl
  have hc : ∀ c ∈ [TimerCall.add 1 30 (some 7), .tick, .tick], c.Covered := by
    intro c hc
    simp only [List.mem_cons, List.not_mem_nil, or_false] at hc
    rcases hc with rfl | rfl | rfl
    · show (30 : UInt64) ≤ 60000
      decide
    · trivial
    · trivial
  obtain ⟨w, s, hrun, due, ⟨p, htick, hexpired, -⟩, -, hdue⟩ := fires_on_time hcall hc []
  refine ⟨w, s, hrun, p, htick, ?_⟩
  have hmem : (⟨1, some 7⟩ : TimerEntry ℕ) ∈ due :=
    (hdue 1 (some 7)).mpr ⟨⟨some 7, 30, 2⟩, rfl, rfl, rfl⟩
  rw [hexpired]
  exact List.mem_map_of_mem hmem

end TimerWheel

end MiniArena
