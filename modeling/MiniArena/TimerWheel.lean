/-
MiniArena/TimerWheel.lean

The timing wheel (`network/timer_wheel.cpp`): 6000 buckets of timers, an id
map that says in which bucket the timer of an id is, and a counter.

A callback may use the wheel it is called from, so `tick` works on the wheel
together with the rest of the state, and `call` says what a callback does to
both.  The loop of `tick` is the `for` over the positions the bucket had when
it began; both reads of the element at a position are checked, and one
outside the bucket ends the call as a fault (`Except.error`, with what has
happened so far): what the source does from there on is undefined.

`WF` is the invariant of the wheel: the id map and the buckets say the same,
no bucket holds an id twice, and the counter counts.
-/
import MiniArena.Connection
import MiniArena.FiniteMap

namespace MiniArena

def kTickMs : UInt64 := 10
def kSlots : ℕ := 6000

instance : NeZero kSlots := ⟨by decide⟩

/-- A timer: its id and its callback, which may be empty. -/
structure TimerEntry (κ : Type) where
  id : ConnectionId
  callback : Option κ

structure TimerWheel (κ : Type) where
  slots : Fin kSlots → List (TimerEntry κ) := fun _ => []
  currentSlot : Fin kSlots := 0
  idToSlot : Finmap fun _ : ConnectionId => Fin kSlots := ∅
  entries : ℕ := 0

namespace TimerWheel

variable {κ γ : Type}

/-! ### The operations -/

/-- The number of ticks of a delay: rounded up, at least one. -/
def ticksOf (delayMs : UInt64) : ℕ :=
  let ticks := (delayMs + kTickMs - 1) / kTickMs
  if ticks = 0 then 1 else ticks.toNat

def slotOf (w : TimerWheel κ) (delayMs : UInt64) : Fin kSlots :=
  Fin.ofNat kSlots (w.currentSlot + ticksOf delayMs)

def size (w : TimerWheel κ) : ℕ := w.entries

/-- The first timer with the id leaves the bucket. -/
def eraseId (id : ConnectionId) (bucket : List (TimerEntry κ)) : List (TimerEntry κ) :=
  bucket.eraseP fun e => decide (e.id = id)

def remove (w : TimerWheel κ) (id : ConnectionId) : TimerWheel κ :=
  match w.idToSlot.lookup id with
  | none => w
  | some slot =>
      { w with
        slots := Function.update w.slots slot (eraseId id (w.slots slot))
        idToSlot := w.idToSlot.erase id
        entries := w.entries - 1 }

/-- The last lines of `add` and of `refresh`. -/
def pushBack (w : TimerWheel κ) (id : ConnectionId) (timeoutMs : UInt64) (cb : Option κ) :
    TimerWheel κ :=
  let slot := w.slotOf timeoutMs
  { w with
    slots := Function.update w.slots slot (w.slots slot ++ [⟨id, cb⟩])
    idToSlot := w.idToSlot.insert id slot
    entries := w.entries + 1 }

def add (w : TimerWheel κ) (id : ConnectionId) (timeoutMs : UInt64) (cb : Option κ) :
    TimerWheel κ :=
  (w.remove id).pushBack id timeoutMs cb

/-- The callback is empty if the bucket does not have the timer. -/
def refresh (w : TimerWheel κ) (id : ConnectionId) (timeoutMs : UInt64) : TimerWheel κ :=
  match w.idToSlot.lookup id with
  | none => w
  | some slot =>
      (w.remove id).pushBack id timeoutMs
        (((w.slots slot).find? fun e => decide (e.id = id)).bind TimerEntry.callback)

/-! ### A tick -/

/-- What the loop of `tick` carries: the wheel and the state around it, the ids
to return, and the ids whose callback has been invoked. -/
structure Pass (κ γ : Type) where
  wheel : TimerWheel κ
  rest : γ
  expired : List ConnectionId := []
  fired : List ConnectionId := []

/-- What a callback does. -/
abbrev Call (κ γ : Type) := κ → ConnectionId → TimerWheel κ × γ → TimerWheel κ × γ

/-- The first two statements of the loop, for the element `e`. -/
def invoke (call : Call κ γ) (p : Pass κ γ) (e : TimerEntry κ) : Pass κ γ :=
  match e.callback with
  | none => { p with expired := p.expired ++ [e.id] }
  | some cb =>
      let s := call cb e.id (p.wheel, p.rest)
      ⟨s.1, s.2, p.expired ++ [e.id], p.fired ++ [e.id]⟩

/-- The last statement of the loop, for the element `e`. -/
def forget (p : Pass κ γ) (e : TimerEntry κ) : Pass κ γ :=
  { p with wheel := { p.wheel with idToSlot := p.wheel.idToSlot.erase e.id } }

/-- The loop over `n` positions from `i` on.  The element is read again after
its callback. -/
def loop (call : Call κ γ) (slot : Fin kSlots) : ℕ → ℕ → Pass κ γ → Except (Pass κ γ) (Pass κ γ)
  | 0, _, p => .ok p
  | n + 1, i, p =>
      match (p.wheel.slots slot)[i]? with
      | none => .error p
      | some e =>
          let p := invoke call p e
          match (p.wheel.slots slot)[i]? with
          | none => .error p
          | some e' => loop call slot n (i + 1) (forget p e')

/-- `++current_slot_ % kSlots`. -/
def advance (w : TimerWheel κ) : TimerWheel κ :=
  { w with currentSlot := w.currentSlot + 1 }

/-- The bucket is emptied. -/
def clear (slot : Fin kSlots) (p : Pass κ γ) : Pass κ γ :=
  { p with wheel := { p.wheel with
      entries := p.wheel.entries - (p.wheel.slots slot).length
      slots := Function.update p.wheel.slots slot [] } }

def tick (call : Call κ γ) (w : TimerWheel κ) (rest : γ) : Except (Pass κ γ) (Pass κ γ) :=
  let w := w.advance
  (loop call w.currentSlot (w.slots w.currentSlot).length 0 ⟨w, rest, [], []⟩).map
    (clear w.currentSlot)

/-! ### The invariant -/

structure WF (w : TimerWheel κ) : Prop where
  mapped : ∀ id slot, w.idToSlot.lookup id = some slot ↔ ∃ e ∈ w.slots slot, e.id = id
  nodup : ∀ slot, ((w.slots slot).map TimerEntry.id).Nodup
  counted : w.entries = ∑ slot, (w.slots slot).length

/-- Changing one bucket changes the number of timers. -/
theorem sum_length_update (slots : Fin kSlots → List (TimerEntry κ)) (slot : Fin kSlots)
    (b : List (TimerEntry κ)) :
    ∑ s, (Function.update slots slot b s).length + (slots slot).length =
      ∑ s, (slots s).length + b.length := by
  have hlength : (fun s => (Function.update slots slot b s).length) =
      Function.update (fun s => (slots s).length) slot b.length := by
    funext s
    exact Function.apply_update (fun _ => List.length) slots slot b s
  have hrest := Finset.sum_update_of_mem (Finset.mem_univ slot) (fun s => (slots s).length) b.length
  have hall := Finset.add_sum_erase Finset.univ (fun s => (slots s).length) (Finset.mem_univ slot)
  rw [Finset.sdiff_singleton_eq_erase] at hrest
  rw [hlength, hrest]
  omega

theorem wf_empty : WF ({} : TimerWheel κ) where
  mapped := by simp
  nodup := fun _ => List.nodup_nil
  counted := by simp

/-- The id map has one entry for every timer. -/
theorem WF.card_keys {w : TimerWheel κ} (h : WF w) : w.idToSlot.keys.card = w.entries := by
  have hkeys : w.idToSlot.keys =
      Finset.univ.biUnion fun slot => ((w.slots slot).map TimerEntry.id).toFinset := by
    ext id
    rw [Finmap.mem_keys_iff, Finset.mem_biUnion]
    constructor
    · rintro ⟨slot, hslot⟩
      obtain ⟨e, he, rfl⟩ := (h.mapped id slot).mp hslot
      exact ⟨slot, Finset.mem_univ _, by simpa using ⟨e, he, rfl⟩⟩
    · rintro ⟨slot, -, hid⟩
      exact ⟨slot, (h.mapped id slot).mpr (by simpa using hid)⟩
  rw [hkeys, Finset.card_biUnion, h.counted]
  · apply Finset.sum_congr rfl
    intro slot _
    rw [List.toFinset_card_of_nodup (h.nodup slot), List.length_map]
  · intro slot _ slot' _ hne
    apply Finset.disjoint_left.mpr
    intro id hid hid'
    have h₁ := (h.mapped id slot).mpr (by simpa using hid)
    have h₂ := (h.mapped id slot').mpr (by simpa using hid')
    exact hne (Option.some.inj (h₁.symm.trans h₂))

variable {w : TimerWheel κ} {id : ConnectionId}

/-- There is one timer for an id. -/
theorem WF.entry_unique (h : WF w) {slot slot' : Fin kSlots} {e e' : TimerEntry κ}
    (he : e ∈ w.slots slot) (he' : e' ∈ w.slots slot') (hid : e.id = e'.id) : e = e' := by
  have hslot := (h.mapped e.id slot).mpr ⟨e, he, rfl⟩
  have hslot' := (h.mapped e.id slot').mpr ⟨e', he', hid.symm⟩
  obtain rfl := Option.some.inj (hslot.symm.trans hslot')
  exact List.inj_on_of_nodup_map (h.nodup slot) he he' hid

/-! ### Removing and adding -/

theorem eraseId_eq_filter {bucket : List (TimerEntry κ)}
    (h : (bucket.map TimerEntry.id).Nodup) :
    eraseId id bucket = bucket.filter fun e => decide (e.id ≠ id) := by
  induction bucket with
  | nil => rfl
  | cons e bucket ih =>
    obtain ⟨hnotin, hnodup⟩ := List.nodup_cons.mp h
    by_cases hid : e.id = id
    · have hall : bucket.filter (fun e => decide (e.id ≠ id)) = bucket := by
        apply List.filter_eq_self.mpr
        intro e' he'
        simp only [decide_eq_true_eq]
        rintro rfl
        exact hnotin (hid ▸ List.mem_map_of_mem he')
      rw [eraseId, List.eraseP_cons_of_pos (by simpa using hid),
        List.filter_cons_of_neg (by simpa using hid), hall]
    · have := ih hnodup
      rw [eraseId] at this
      simp [eraseId, hid, this]

/-- **What `remove` leaves.** -/
theorem WF.slots_remove (h : WF w) (slot : Fin kSlots) :
    (w.remove id).slots slot = (w.slots slot).filter fun e => decide (e.id ≠ id) := by
  have hother : w.idToSlot.lookup id ≠ some slot →
      (w.slots slot).filter (fun e => decide (e.id ≠ id)) = w.slots slot := by
    intro hne
    apply List.filter_eq_self.mpr
    intro e he
    simp only [decide_eq_true_eq]
    rintro rfl
    exact hne ((h.mapped e.id slot).mpr ⟨e, he, rfl⟩)
  unfold remove
  rcases hslot : w.idToSlot.lookup id with - | slot'
  · exact (hother (by rw [hslot]; simp)).symm
  · by_cases heq : slot = slot'
    · subst heq
      rw [← eraseId_eq_filter (h.nodup slot)]
      exact Function.update_self _ _ _
    · rw [hother (by rw [hslot]; simpa using Ne.symm heq)]
      exact Function.update_of_ne heq _ _

theorem WF.mem_slots_remove (h : WF w) {slot : Fin kSlots} {e : TimerEntry κ} :
    e ∈ (w.remove id).slots slot ↔ e ∈ w.slots slot ∧ e.id ≠ id := by
  rw [h.slots_remove, List.mem_filter, decide_eq_true_eq]

theorem lookup_remove (a : ConnectionId) :
    (w.remove id).idToSlot.lookup a = if a = id then none else w.idToSlot.lookup a := by
  unfold remove
  rcases hslot : w.idToSlot.lookup id with - | slot
  · dsimp only
    split
    · rename_i ha
      rw [ha, hslot]
    · rfl
  · exact Finmap.lookup_erase_eq _ _ _

theorem WF.remove (h : WF w) (id : ConnectionId) : WF (w.remove id) where
  mapped := by
    intro a slot
    rw [lookup_remove]
    simp only [h.mem_slots_remove]
    split
    · rename_i ha
      subst ha
      simp
    · rename_i ha
      rw [h.mapped]
      constructor
      · rintro ⟨e, he, rfl⟩
        exact ⟨e, ⟨he, ha⟩, rfl⟩
      · rintro ⟨e, ⟨he, -⟩, rfl⟩
        exact ⟨e, he, rfl⟩
  nodup := by
    intro slot
    rw [h.slots_remove]
    exact (h.nodup slot).sublist (List.filter_sublist.map _)
  counted := by
    unfold TimerWheel.remove
    rcases hslot : w.idToSlot.lookup id with - | slot
    · exact h.counted
    · obtain ⟨e, he, hid⟩ := (h.mapped id slot).mp hslot
      have hlen : (eraseId id (w.slots slot)).length + 1 = (w.slots slot).length := by
        have hpos := List.length_pos_of_mem he
        have := List.length_eraseP_of_mem (p := fun e => decide (e.id = id)) he (by simpa using hid)
        rw [eraseId]
        omega
      have hsum := sum_length_update w.slots slot (eraseId id (w.slots slot))
      dsimp only
      rw [h.counted]
      omega

/-- **What `pushBack` adds.** -/
theorem mem_slots_pushBack {timeoutMs : UInt64} {cb : Option κ} {slot : Fin kSlots}
    {e : TimerEntry κ} : e ∈ (w.pushBack id timeoutMs cb).slots slot ↔
      e ∈ w.slots slot ∨ (slot = w.slotOf timeoutMs ∧ e = ⟨id, cb⟩) := by
  show e ∈ Function.update w.slots (w.slotOf timeoutMs) _ slot ↔ _
  rw [Function.update_apply]
  split
  · rename_i hslot
    rw [hslot]
    simp
  · rename_i hslot
    simp [hslot]

theorem WF.pushBack (h : WF w) (hnew : w.idToSlot.lookup id = none) (timeoutMs : UInt64)
    (cb : Option κ) : WF (w.pushBack id timeoutMs cb) where
  mapped := by
    intro a slot
    simp only [mem_slots_pushBack]
    show (w.idToSlot.insert id (w.slotOf timeoutMs)).lookup a = some slot ↔ _
    rw [Finmap.lookup_insert_eq]
    split
    · rename_i ha
      subst ha
      constructor
      · intro hslot
        exact ⟨⟨a, cb⟩, Or.inr ⟨(Option.some.inj hslot).symm, rfl⟩, rfl⟩
      · rintro ⟨e, hold | ⟨rfl, -⟩, hid⟩
        · rw [(h.mapped a slot).mpr ⟨e, hold, hid⟩] at hnew
          cases hnew
        · rfl
    · rename_i ha
      rw [h.mapped]
      constructor
      · rintro ⟨e, he, hid⟩
        exact ⟨e, Or.inl he, hid⟩
      · rintro ⟨e, hold | ⟨-, rfl⟩, hid⟩
        · exact ⟨e, hold, hid⟩
        · exact absurd hid.symm ha
  nodup := by
    intro slot
    show ((Function.update w.slots (w.slotOf timeoutMs) _ slot).map _).Nodup
    rw [Function.update_apply]
    split
    · rename_i hslot
      rw [List.map_append, List.nodup_append]
      refine ⟨h.nodup _, List.nodup_singleton _, ?_⟩
      rintro a ha b hb rfl
      obtain ⟨e, he, rfl⟩ := List.mem_map.mp ha
      obtain rfl := List.mem_singleton.mp hb
      rw [(h.mapped _ _).mpr ⟨e, he, rfl⟩] at hnew
      cases hnew
    · exact h.nodup slot
  counted := by
    have hsum := sum_length_update w.slots (w.slotOf timeoutMs)
      (w.slots (w.slotOf timeoutMs) ++ [⟨id, cb⟩])
    rw [List.length_append, List.length_singleton] at hsum
    show w.entries + 1 = ∑ slot, (Function.update w.slots _ _ slot).length
    rw [h.counted]
    omega

theorem WF.add (h : WF w) (id : ConnectionId) (timeoutMs : UInt64) (cb : Option κ) :
    WF (w.add id timeoutMs cb) := by
  apply (h.remove id).pushBack
  rw [lookup_remove, if_pos rfl]

theorem WF.mem_slots_add (h : WF w) {timeoutMs : UInt64} {cb : Option κ} {slot : Fin kSlots}
    {e : TimerEntry κ} : e ∈ (w.add id timeoutMs cb).slots slot ↔
      (e ∈ w.slots slot ∧ e.id ≠ id) ∨ (slot = w.slotOf timeoutMs ∧ e = ⟨id, cb⟩) := by
  have hslot : (w.remove id).slotOf timeoutMs = w.slotOf timeoutMs := by
    unfold slotOf TimerWheel.remove
    split <;> rfl
  rw [TimerWheel.add, mem_slots_pushBack, h.mem_slots_remove, hslot]

/-- A refresh of a timer that is there adds it anew, with its callback. -/
theorem WF.refresh_eq (h : WF w) (timeoutMs : UInt64) {slot : Fin kSlots} {e : TimerEntry κ}
    (he : e ∈ w.slots slot) : w.refresh e.id timeoutMs = w.add e.id timeoutMs e.callback := by
  have hslot := (h.mapped e.id slot).mpr ⟨e, he, rfl⟩
  have hfind : (w.slots slot).find? (fun e' => decide (e'.id = e.id)) = some e := by
    have hnodup := h.nodup slot
    generalize w.slots slot = bucket at he hnodup
    induction bucket with
    | nil => cases he
    | cons e' bucket ih =>
      obtain ⟨hnotin, hrest⟩ := List.nodup_cons.mp hnodup
      rcases List.mem_cons.mp he with rfl | he
      · simp
      · have hne : e'.id ≠ e.id := fun hid => hnotin (hid ▸ List.mem_map_of_mem he)
        simpa [hne] using ih he hrest
  rw [refresh, hslot]
  dsimp only
  rw [hfind]
  rfl

theorem WF.refresh (h : WF w) (id : ConnectionId) (timeoutMs : UInt64) :
    WF (w.refresh id timeoutMs) := by
  rcases hslot : w.idToSlot.lookup id with - | slot
  · rwa [TimerWheel.refresh, hslot]
  · obtain ⟨e, he, rfl⟩ := (h.mapped id slot).mp hslot
    rw [h.refresh_eq timeoutMs he]
    exact h.add _ _ _

/-! ### A tick whose callbacks do nothing -/

/-- The slot the next tick is for, and its timers. -/
def nextSlot (w : TimerWheel κ) : Fin kSlots := w.currentSlot + 1

def due (w : TimerWheel κ) : List (TimerEntry κ) := w.slots w.nextSlot

/-- The wheel after a tick that drops its due timers. -/
def expire (w : TimerWheel κ) : TimerWheel κ where
  slots := Function.update w.slots w.nextSlot []
  currentSlot := w.nextSlot
  idToSlot := w.due.foldl (fun m e => m.erase e.id) w.idToSlot
  entries := w.entries - w.due.length

theorem lookup_foldl_erase (bucket : List (TimerEntry κ))
    (m : Finmap fun _ : ConnectionId => Fin kSlots) (a : ConnectionId) :
    (bucket.foldl (fun m e => m.erase e.id) m).lookup a =
      if a ∈ bucket.map TimerEntry.id then none else m.lookup a := by
  induction bucket generalizing m with
  | nil => simp
  | cons e bucket ih =>
    rw [List.foldl_cons, ih, Finmap.lookup_erase_eq, List.map_cons]
    by_cases ha : a = e.id
    · simp [ha]
    · simp [ha]

theorem WF.lookup_expire (h : WF w) (a : ConnectionId) :
    w.expire.idToSlot.lookup a =
      if w.idToSlot.lookup a = some w.nextSlot then none else w.idToSlot.lookup a := by
  have hin : a ∈ w.due.map TimerEntry.id ↔ w.idToSlot.lookup a = some w.nextSlot := by
    rw [h.mapped, List.mem_map]
    rfl
  show (w.due.foldl _ w.idToSlot).lookup a = _
  rw [lookup_foldl_erase]
  simp only [hin]

theorem mem_slots_expire {slot : Fin kSlots} {e : TimerEntry κ} :
    e ∈ w.expire.slots slot ↔ e ∈ w.slots slot ∧ slot ≠ w.nextSlot := by
  show e ∈ Function.update w.slots w.nextSlot [] slot ↔ _
  rw [Function.update_apply]
  split
  · rename_i hslot
    simp [hslot]
  · rename_i hslot
    simp [hslot]

theorem WF.expire (h : WF w) : WF w.expire where
  mapped := by
    intro a slot
    rw [h.lookup_expire]
    simp only [mem_slots_expire]
    split
    · rename_i hnext
      constructor
      · intro hnone
        cases hnone
      · rintro ⟨e, ⟨he, hslot⟩, hid⟩
        have := (h.mapped a slot).mpr ⟨e, he, hid⟩
        exact absurd (Option.some.inj (this.symm.trans hnext)) hslot
    · rename_i hnext
      rw [h.mapped]
      constructor
      · rintro ⟨e, he, hid⟩
        refine ⟨e, ⟨he, ?_⟩, hid⟩
        rintro rfl
        exact hnext ((h.mapped a _).mpr ⟨e, he, hid⟩)
      · rintro ⟨e, ⟨he, -⟩, hid⟩
        exact ⟨e, he, hid⟩
  nodup := by
    intro slot
    show ((Function.update w.slots w.nextSlot [] slot).map _).Nodup
    rw [Function.update_apply]
    split
    · exact List.nodup_nil
    · exact h.nodup slot
  counted := by
    have hsum := sum_length_update w.slots w.nextSlot []
    show w.entries - (w.slots w.nextSlot).length = ∑ slot, (Function.update w.slots _ _ slot).length
    rw [h.counted]
    rw [List.length_nil] at hsum
    omega

variable {call : Call κ γ} {slot : Fin kSlots} {done todo : List (TimerEntry κ)} {p : Pass κ γ}

theorem getElem?_done (hslot : p.wheel.slots slot = done ++ todo) {e : TimerEntry κ}
    {rest : List (TimerEntry κ)} (htodo : todo = e :: rest) :
    (p.wheel.slots slot)[done.length]? = some e := by
  rw [hslot, htodo, List.getElem?_append_right (le_refl _), Nat.sub_self, List.getElem?_cons_zero]

/-- What the callback of a timer does to the state around the wheel. -/
def ring (effect : κ → ConnectionId → γ → γ) (s : γ) (e : TimerEntry κ) : γ :=
  match e.callback with
  | none => s
  | some cb => effect cb e.id s

/-- From the states in `C`, the callback of the timer leaves the wheel alone,
and the rest in `C`. -/
def Quiet (call : Call κ γ) (effect : κ → ConnectionId → γ → γ) (C : γ → Prop)
    (e : TimerEntry κ) : Prop :=
  ∀ cb, e.callback = some cb → ∀ w s, C s →
    call cb e.id (w, s) = (w, effect cb e.id s) ∧ C (effect cb e.id s)

theorem invoke_of_quiet {effect : κ → ConnectionId → γ → γ} {C : γ → Prop} {e : TimerEntry κ}
    (h : Quiet call effect C e) (hC : C p.rest) :
    invoke call p e = { p with
      rest := ring effect p.rest e
      expired := p.expired ++ [e.id]
      fired := p.fired ++ (if e.callback.isSome then [e.id] else []) } ∧
      C (ring effect p.rest e) := by
  unfold invoke ring
  rcases hcb : e.callback with - | cb
  · exact ⟨by simp, hC⟩
  · obtain ⟨hcall, hC'⟩ := h cb hcb p.wheel p.rest hC
    exact ⟨by simp [hcall], hC'⟩

/-- **The loop over callbacks that leave the wheel alone**: induction on the
positions to come. -/
theorem loop_of_quiet {effect : κ → ConnectionId → γ → γ} {C : γ → Prop}
    (hslot : p.wheel.slots slot = done ++ todo) (hC : C p.rest)
    (hquiet : ∀ e ∈ todo, Quiet call effect C e) :
    loop call slot todo.length done.length p = .ok
      { wheel := { p.wheel with
          idToSlot := todo.foldl (fun m e => m.erase e.id) p.wheel.idToSlot }
        rest := todo.foldl (ring effect) p.rest
        expired := p.expired ++ todo.map TimerEntry.id
        fired := p.fired ++ (todo.filter fun e => e.callback.isSome).map TimerEntry.id } := by
  induction todo generalizing done p with
  | nil => simp [loop]
  | cons e todo ih =>
    have hread := getElem?_done hslot rfl
    obtain ⟨hinvoke, hC'⟩ := invoke_of_quiet (hquiet e List.mem_cons_self) hC
    have hagain : ((invoke call p e).wheel.slots slot)[done.length]? = some e := by
      rw [hinvoke]
      exact hread
    rw [List.length_cons, loop, hread]
    dsimp only
    rw [hagain, hinvoke]
    dsimp only
    have hnext := @ih (done ++ [e]) (forget { p with
      rest := ring effect p.rest e
      expired := p.expired ++ [e.id]
      fired := p.fired ++ (if e.callback.isSome then [e.id] else []) } e)
      (by rw [List.append_assoc]; exact hslot) hC'
      (fun e' he' => hquiet e' (List.mem_cons_of_mem _ he'))
    rw [List.length_append, List.length_singleton] at hnext
    rw [hnext]
    by_cases hcb : e.callback.isSome
    · simp [forget, hcb]
    · simp [forget, hcb]

/-- **A tick over callbacks that leave the wheel alone.** -/
theorem tick_of_quiet {effect : κ → ConnectionId → γ → γ} {C : γ → Prop} {rest : γ} (hC : C rest)
    (hquiet : ∀ e ∈ w.due, Quiet call effect C e) :
    w.tick call rest = .ok
      { wheel := w.expire
        rest := w.due.foldl (ring effect) rest
        expired := w.due.map TimerEntry.id
        fired := (w.due.filter fun e => e.callback.isSome).map TimerEntry.id } := by
  have hloop := @loop_of_quiet κ γ call w.nextSlot [] w.due ⟨w.advance, rest, [], []⟩ effect C rfl
    hC hquiet
  rw [List.length_nil] at hloop
  show (loop call w.nextSlot w.due.length 0 ⟨w.advance, rest, [], []⟩).map (clear w.nextSlot) = _
  rw [hloop]
  rfl

/-- A callback that does nothing. -/
def Idle (call : Call κ γ) (rest : γ) (e : TimerEntry κ) : Prop :=
  ∀ cb, e.callback = some cb → ∀ w, call cb e.id (w, rest) = (w, rest)

theorem quiet_of_idle {rest : γ} {e : TimerEntry κ} (h : Idle call rest e) :
    Quiet call (fun _ _ s => s) (· = rest) e := by
  rintro cb hcb w s rfl
  exact ⟨h cb hcb w, rfl⟩

theorem invoke_of_idle {e : TimerEntry κ} (h : Idle call p.rest e) :
    invoke call p e = { p with
      expired := p.expired ++ [e.id]
      fired := p.fired ++ (if e.callback.isSome then [e.id] else []) } := by
  obtain ⟨hinvoke, hrest⟩ := invoke_of_quiet (quiet_of_idle h) rfl
  rw [hinvoke, hrest]

/-- **A tick over idle callbacks.** -/
theorem tick_of_idle {rest : γ} (hidle : ∀ e ∈ w.due, Idle call rest e) :
    w.tick call rest = .ok
      { wheel := w.expire
        rest := rest
        expired := w.due.map TimerEntry.id
        fired := (w.due.filter fun e => e.callback.isSome).map TimerEntry.id } := by
  have hrest : w.due.foldl (ring fun _ _ s => s) rest = rest := by
    apply List.foldl_fixed'
    intro e
    unfold ring
    split <;> rfl
  rw [tick_of_quiet (C := (· = rest)) rfl fun e he => quiet_of_idle (hidle e he), hrest]

/-! ### A tick that loses a timer -/

/-- Fewer timers than positions: the loop reads outside the bucket. -/
theorem loop_of_short
    (hle : ∀ cb id s, ((call cb id s).1.slots slot).length ≤ (s.1.slots slot).length)
    {n i : ℕ} (hn : 0 < n) (hshort : (p.wheel.slots slot).length < i + n) :
    ∃ q, loop call slot n i p = .error q := by
  induction n generalizing i p with
  | zero => omega
  | succ n ih =>
    rw [loop]
    rcases hread : (p.wheel.slots slot)[i]? with - | e
    · exact ⟨p, rfl⟩
    · have hi : i < (p.wheel.slots slot).length := (List.getElem?_eq_some_iff.mp hread).1
      have hlen : ((invoke call p e).wheel.slots slot).length ≤ (p.wheel.slots slot).length := by
        unfold invoke
        split
        · exact le_refl _
        · exact hle _ _ _
      dsimp only
      rcases ((invoke call p e).wheel.slots slot)[i]? with - | e'
      · exact ⟨_, rfl⟩
      · apply ih
        · omega
        · show ((invoke call p e).wheel.slots slot).length < _
          omega

/-- **The loop with a callback that removes its own timer**: the positions
before it are passed, and from it on the bucket is too short. -/
theorem loop_of_removal {live : TimerEntry κ → Prop}
    (hslot : p.wheel.slots slot = done ++ todo)
    (hmapped : ∀ e ∈ todo, p.wheel.idToSlot.lookup e.id = some slot)
    (hnodup : (todo.map TimerEntry.id).Nodup)
    (hle : ∀ cb id s, ((call cb id s).1.slots slot).length ≤ (s.1.slots slot).length)
    (hidle : ∀ e ∈ todo, ¬ live e → Idle call p.rest e)
    (hlive : ∀ e ∈ todo, live e → ∃ cb, e.callback = some cb ∧
      ∀ w : TimerWheel κ, w.slots slot = p.wheel.slots slot → w.idToSlot.lookup e.id = some slot →
        ((call cb e.id (w, p.rest)).1.slots slot).length < (w.slots slot).length)
    (hex : ∃ e ∈ todo, live e) :
    ∃ q, loop call slot todo.length done.length p = .error q := by
  induction todo generalizing done p with
  | nil =>
    obtain ⟨e, he, -⟩ := hex
    cases he
  | cons e todo ih =>
    have hread := getElem?_done hslot rfl
    obtain ⟨hnotin, hnodup'⟩ := List.nodup_cons.mp hnodup
    rw [List.length_cons, loop, hread]
    dsimp only
    by_cases hl : live e
    · obtain ⟨cb, hcb, hdrop⟩ := hlive e List.mem_cons_self hl
      have hlt : ((invoke call p e).wheel.slots slot).length < done.length + 1 + todo.length := by
        have := hdrop p.wheel rfl (hmapped e List.mem_cons_self)
        rw [hslot, List.length_append, List.length_cons] at this
        unfold invoke
        rw [hcb]
        show ((call cb e.id (p.wheel, p.rest)).1.slots slot).length < _
        omega
      -- the callback has taken an entry away: the next index is past the end, or the loop gets there
      rcases hagain : ((invoke call p e).wheel.slots slot)[done.length]? with - | e'
      · exact ⟨_, rfl⟩
      · have hi := (List.getElem?_eq_some_iff.mp hagain).1
        apply loop_of_short hle
        · omega
        · exact hlt
    · have hinvoke := invoke_of_idle (hidle e List.mem_cons_self hl)
      have hagain : ((invoke call p e).wheel.slots slot)[done.length]? = some e := by
        rw [hinvoke]
        exact hread
      rw [hagain, hinvoke]
      dsimp only
      -- nothing has moved, so the loop goes on with one entry more behind it
      have hnext := @ih (done ++ [e]) (forget { p with
        expired := p.expired ++ [e.id]
        fired := p.fired ++ (if e.callback.isSome then [e.id] else []) } e)
        (by rw [List.append_assoc]; exact hslot)
        (by
          intro e' he'
          show (p.wheel.idToSlot.erase e.id).lookup e'.id = some slot
          rw [Finmap.lookup_erase_eq, if_neg]
          · exact hmapped e' (List.mem_cons_of_mem _ he')
          · rintro heq
            exact hnotin (heq ▸ List.mem_map_of_mem he'))
        hnodup' (fun e' he' => hidle e' (List.mem_cons_of_mem _ he'))
        (fun e' he' => hlive e' (List.mem_cons_of_mem _ he'))
        (by
          obtain ⟨e', he', hl'⟩ := hex
          rcases List.mem_cons.mp he' with rfl | he'
          · exact absurd hl' hl
          · exact ⟨e', he', hl'⟩)
      rw [List.length_append, List.length_singleton] at hnext
      exact hnext

/-! ### Whose callbacks a tick invokes -/

/-- Where a tick has got to, whether it returned or not. -/
def reached : Except (Pass κ γ) (Pass κ γ) → Pass κ γ
  | .ok p => p
  | .error p => p

theorem fired_loop (hsub : ∀ cb id s, (call cb id s).1.slots slot ⊆ s.1.slots slot) (n i : ℕ) :
    ∀ id ∈ (reached (loop call slot n i p)).fired,
      id ∈ p.fired ∨ id ∈ (p.wheel.slots slot).map TimerEntry.id := by
  induction n generalizing i p with
  | zero => exact fun id hid => Or.inl hid
  | succ n ih =>
    rw [loop]
    rcases hread : (p.wheel.slots slot)[i]? with - | e
    · exact fun id hid => Or.inl hid
    · have he : e ∈ p.wheel.slots slot := List.mem_of_getElem? hread
      have hinvoke : (∀ id ∈ (invoke call p e).fired, id ∈ p.fired ∨ id = e.id) ∧
          (invoke call p e).wheel.slots slot ⊆ p.wheel.slots slot := by
        unfold invoke
        split
        · exact ⟨fun id hid => Or.inl hid, fun _ h => h⟩
        · exact ⟨fun id hid => by simpa using hid, hsub _ _ _⟩
      have hold : ∀ id ∈ (invoke call p e).fired,
          id ∈ p.fired ∨ id ∈ (p.wheel.slots slot).map TimerEntry.id := by
        intro id hid
        rcases hinvoke.1 id hid with hid | rfl
        · exact Or.inl hid
        · exact Or.inr (List.mem_map_of_mem he)
      dsimp only
      rcases ((invoke call p e).wheel.slots slot)[i]? with - | e'
      · exact hold
      · intro id hid
        rcases ih (i + 1) id hid with hid | hid
        · exact hold id hid
        · exact Or.inr (List.map_subset _ hinvoke.2 hid)

/-- The emptying of the bucket invokes no callback. -/
theorem fired_tick_eq (w : TimerWheel κ) (rest : γ) :
    (reached (w.tick call rest)).fired =
      (reached (loop call w.nextSlot w.due.length 0 ⟨w.advance, rest, [], []⟩)).fired := by
  show (reached ((loop call w.nextSlot w.due.length 0 ⟨w.advance, rest, [], []⟩).map _)).fired = _
  rcases loop call w.nextSlot w.due.length 0 ⟨w.advance, rest, [], []⟩ with q | q <;> rfl

/-- A tick invokes callbacks of due timers only. -/
theorem fired_tick {rest : γ} (hsub : ∀ slot cb id s, (call cb id s).1.slots slot ⊆ s.1.slots slot) :
    ∀ id ∈ (reached (w.tick call rest)).fired, id ∈ w.due.map TimerEntry.id := by
  intro id hid
  have hloop := @fired_loop κ γ call w.nextSlot ⟨w.advance, rest, [], []⟩ (hsub w.nextSlot)
    w.due.length 0 id
  rw [fired_tick_eq] at hid
  rcases hloop hid with hid | hid
  · cases hid
  · exact hid

end TimerWheel

end MiniArena
