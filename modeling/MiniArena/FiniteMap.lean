/-
MiniArena/FiniteMap.lean

Additions to Mathlib's `Finmap` for maps whose value type does not depend on
the key: look-ups after an update as one `if`, in-place modification of one
value (`modify`) and of all values (`mapVal`, `filterVal`), maps that agree up
to a relation on their values (`Pointwise`), and the sum of a numeric attribute
over all values (`sumVal`) with its change under `modify`.
-/
import Mathlib

namespace Finmap

variable {K V W : Type*} [DecidableEq K]

/-! ### Look-ups -/

theorem lookup_insert_eq (m : Finmap fun _ : K => V) (k a : K) (v : V) :
    (m.insert k v).lookup a = if a = k then some v else m.lookup a := by
  by_cases h : a = k
  · subst h; simp
  · simp [h]

theorem lookup_erase_eq (m : Finmap fun _ : K => V) (k a : K) :
    (m.erase k).lookup a = if a = k then none else m.lookup a := by
  by_cases h : a = k
  · subst h; simp
  · simp [h]

theorem mem_keys_iff {m : Finmap fun _ : K => V} {a : K} :
    a ∈ m.keys ↔ ∃ v, m.lookup a = some v := by
  rw [mem_keys, mem_iff]

/-! ### Changing one value -/

/-- Apply `f` to the value at `k`, if there is one. -/
def modify (k : K) (f : V → V) (m : Finmap fun _ : K => V) : Finmap fun _ : K => V :=
  match m.lookup k with
  | none => m
  | some v => m.insert k (f v)

theorem lookup_modify (m : Finmap fun _ : K => V) (k a : K) (f : V → V) :
    (m.modify k f).lookup a = if a = k then (m.lookup k).map f else m.lookup a := by
  unfold modify
  rcases h : m.lookup k with - | v
  · by_cases ha : a = k
    · subst ha; simp [h]
    · simp [ha]
  · simp only [lookup_insert_eq, Option.map_some]

/-- An attribute of the values that `f` does not change. -/
theorem map_lookup_modify {m : Finmap fun _ : K => V} {k a : K} {f : V → V} {g : V → W}
    (hf : ∀ v, g (f v) = g v) : ((m.modify k f).lookup a).map g = (m.lookup a).map g := by
  rw [lookup_modify]
  split
  · rename_i heq
    rw [heq, Option.map_map]
    exact congrArg (Option.map · (m.lookup k)) (funext hf)
  · rfl

/-- The values after a change of one entry: the new one, and those of the other keys. -/
theorem forall_lookup_modify {P : V → Prop} {m : Finmap fun _ : K => V} {k : K} {v : V}
    (hv : m.lookup k = some v) (f : V → V) :
    (∀ a w, (m.modify k f).lookup a = some w → P w) ↔
      P (f v) ∧ ∀ a w, a ≠ k → m.lookup a = some w → P w := by
  have hself : (m.modify k f).lookup k = some (f v) := by
    rw [lookup_modify, if_pos rfl, hv, Option.map_some]
  have hother : ∀ a, a ≠ k → (m.modify k f).lookup a = m.lookup a := by
    intro a ha
    rw [lookup_modify, if_neg ha]
  constructor
  · intro h
    refine ⟨h k (f v) hself, ?_⟩
    intro a w ha hw
    exact h a w ((hother a ha).trans hw)
  · rintro ⟨hnew, hrest⟩ a w hw
    by_cases ha : a = k
    · subst ha
      obtain rfl := Option.some.inj (hself.symm.trans hw)
      exact hnew
    · exact hrest a w ha ((hother a ha).symm.trans hw)

theorem modify_of_lookup {m : Finmap fun _ : K => V} {k : K} {v : V} (h : m.lookup k = some v)
    (f : V → V) : m.modify k f = m.insert k (f v) := by
  rw [modify, h]

@[simp] theorem lookup_modify_self (m : Finmap fun _ : K => V) (k : K) (f : V → V) :
    (m.modify k f).lookup k = (m.lookup k).map f := by
  simp [lookup_modify]

theorem lookup_modify_of_ne (m : Finmap fun _ : K => V) {k a : K} (f : V → V) (h : a ≠ k) :
    (m.modify k f).lookup a = m.lookup a := by
  simp [lookup_modify, h]

@[simp] theorem keys_modify (m : Finmap fun _ : K => V) (k : K) (f : V → V) :
    (m.modify k f).keys = m.keys := by
  ext a
  rw [mem_keys_iff, mem_keys_iff, lookup_modify]
  by_cases h : a = k
  · subst h; simp
  · simp [h]

/-! ### Changing all values -/

/-- Apply `f` to every value. -/
def mapVal (f : K → V → W) (m : Finmap fun _ : K => V) : Finmap fun _ : K => W where
  entries := m.entries.map fun e => ⟨e.1, f e.1 e.2⟩
  nodupKeys := by
    have h := m.nodupKeys
    rw [← Multiset.nodup_keys] at h ⊢
    simpa [Multiset.keys, Function.comp_def] using h

theorem lookup_mapVal (f : K → V → W) (m : Finmap fun _ : K => V) (a : K) :
    (m.mapVal f).lookup a = (m.lookup a).map (f a) := by
  ext w
  rw [lookup_eq_some_iff]
  simp only [mapVal, Multiset.mem_map, Option.map_eq_some_iff, lookup_eq_some_iff]
  constructor
  · rintro ⟨⟨k, v⟩, hmem, heq⟩
    cases heq
    exact ⟨v, hmem, rfl⟩
  · rintro ⟨v, hmem, rfl⟩
    exact ⟨⟨a, v⟩, hmem, rfl⟩

@[simp] theorem keys_mapVal (f : K → V → W) (m : Finmap fun _ : K => V) :
    (m.mapVal f).keys = m.keys := by
  ext a
  rw [mem_keys_iff, mem_keys_iff, lookup_mapVal]
  simp

/-- Keep the entries whose value satisfies `p`. -/
def filterVal (p : V → Bool) (m : Finmap fun _ : K => V) : Finmap fun _ : K => V where
  entries := m.entries.filter fun e => p e.2
  nodupKeys := by
    have h := m.nodupKeys
    rw [← Multiset.nodup_keys] at h ⊢
    exact Multiset.nodup_of_le (Multiset.map_le_map (Multiset.filter_le _ _)) h

theorem lookup_filterVal (p : V → Bool) (m : Finmap fun _ : K => V) (a : K) :
    (m.filterVal p).lookup a = (m.lookup a).filter p := by
  ext v
  rw [lookup_eq_some_iff, Option.filter_eq_some_iff, lookup_eq_some_iff]
  exact Multiset.mem_filter

/-! ### Maps with the same keys -/

/-- The maps have the same keys, and related values at each of them. -/
def Pointwise (R : V → W → Prop) (m : Finmap fun _ : K => V) (m' : Finmap fun _ : K => W) : Prop :=
  ∀ k, Option.Rel R (m.lookup k) (m'.lookup k)

namespace Pointwise

variable {R : V → V → Prop} {m m' m'' : Finmap fun _ : K => V}

theorem refl (hR : ∀ v, R v v) (m : Finmap fun _ : K => V) : Pointwise R m m := by
  intro k
  rcases m.lookup k with - | v
  · exact .none
  · exact .some (hR v)

theorem trans (hR : ∀ v v' v'', R v v' → R v' v'' → R v v'') (h : Pointwise R m m')
    (h' : Pointwise R m' m'') : Pointwise R m m'' := by
  intro k
  have h₁ := h k
  have h₂ := h' k
  generalize m.lookup k = o₁ at h₁
  generalize m'.lookup k = o₂ at h₁ h₂
  generalize m''.lookup k = o₃ at h₂
  cases h₁ with
  | none => exact h₂
  | some h₁ =>
    cases h₂ with
    | some h₂ => exact .some (hR _ _ _ h₁ h₂)

/-- Replacing the value at `k`. -/
theorem insert (hR : ∀ v, R v v) {k : K} {v v' : V} (hv : m.lookup k = some v) (h : R v v') :
    Pointwise R m (m.insert k v') := by
  intro a
  rw [lookup_insert_eq]
  split
  · rename_i ha
    rw [ha, hv]
    exact .some h
  · exact Pointwise.refl hR m a

theorem modify (hR : ∀ v, R v v) (k : K) {f : V → V} (h : ∀ v, R v (f v)) :
    Pointwise R m (m.modify k f) := by
  unfold Finmap.modify
  rcases hv : m.lookup k with - | v
  · exact Pointwise.refl hR m
  · exact Pointwise.insert hR hv (h v)

theorem lookup (h : Pointwise R m m') {k : K} {v' : V} (hv : m'.lookup k = some v') :
    ∃ v, m.lookup k = some v ∧ R v v' := by
  have hk := h k
  rw [hv] at hk
  cases hm : m.lookup k with
  | none =>
    rw [hm] at hk
    cases hk
  | some v =>
    rw [hm] at hk
    cases hk with
    | some hr => exact ⟨v, rfl, hr⟩

theorem lookup_left (h : Pointwise R m m') {k : K} {v : V} (hv : m.lookup k = some v) :
    ∃ v', m'.lookup k = some v' ∧ R v v' := by
  have hk := h k
  rw [hv] at hk
  cases hm : m'.lookup k with
  | none =>
    rw [hm] at hk
    cases hk
  | some v' =>
    rw [hm] at hk
    cases hk with
    | some hr => exact ⟨v', rfl, hr⟩

theorem mem_iff (h : Pointwise R m m') {k : K} : k ∈ m' ↔ k ∈ m := by
  rw [Finmap.mem_iff, Finmap.mem_iff]
  constructor
  · rintro ⟨v', hv'⟩
    obtain ⟨v, hv, -⟩ := h.lookup hv'
    exact ⟨v, hv⟩
  · rintro ⟨v, hv⟩
    obtain ⟨v', hv', -⟩ := h.lookup_left hv
    exact ⟨v', hv'⟩

end Pointwise

/-! ### Sums over the values -/

/-- The sum of an integer attribute over all values. -/
def sumVal (f : V → ℤ) (m : Finmap fun _ : K => V) : ℤ :=
  (m.entries.map fun e => f e.2).sum

theorem sumVal_insert_of_notMem {m : Finmap fun _ : K => V} {k : K} {v : V} (f : V → ℤ)
    (h : k ∉ m) : (m.insert k v).sumVal f = f v + m.sumVal f := by
  rw [sumVal, entries_insert_of_notMem h]
  simp [sumVal]

theorem insert_erase_of_lookup {m : Finmap fun _ : K => V} {k : K} {v : V}
    (h : m.lookup k = some v) : (m.erase k).insert k v = m := by
  refine ext_lookup fun a => ?_
  rw [lookup_insert_eq, lookup_erase_eq]
  by_cases ha : a = k
  · subst ha; simp [h]
  · simp [ha]

theorem sumVal_erase {m : Finmap fun _ : K => V} {k : K} {v : V} (f : V → ℤ)
    (h : m.lookup k = some v) : m.sumVal f = f v + (m.erase k).sumVal f := by
  have hins := sumVal_insert_of_notMem (v := v) f (notMem_erase_self (a := k) (s := m))
  rwa [insert_erase_of_lookup h] at hins

theorem sumVal_modify {m : Finmap fun _ : K => V} {k : K} {v : V} (f : V → ℤ) (g : V → V)
    (h : m.lookup k = some v) :
    (m.modify k g).sumVal f = m.sumVal f + (f (g v) - f v) := by
  have hmod : (m.modify k g).erase k = m.erase k := by
    refine ext_lookup fun a => ?_
    rw [lookup_erase_eq, lookup_erase_eq]
    by_cases ha : a = k
    · simp [ha]
    · simp [ha, lookup_modify]
  have hlook : (m.modify k g).lookup k = some (g v) := by simp [h]
  rw [sumVal_erase f hlook, hmod, sumVal_erase f h]
  ring

omit [DecidableEq K] in
theorem sumVal_mapVal (f : V → ℤ) (g : K → V → V) (m : Finmap fun _ : K => V)
    (h : ∀ k v, f (g k v) = f v) : (m.mapVal g).sumVal f = m.sumVal f := by
  simp [sumVal, mapVal, h]

omit [DecidableEq K] in
theorem le_sumVal {m : Finmap fun _ : K => V} {f : V → ℤ} {k : K} {v : V}
    (hf : ∀ k v, ⟨k, v⟩ ∈ m.entries → 0 ≤ f v) (h : ⟨k, v⟩ ∈ m.entries) : f v ≤ m.sumVal f := by
  refine Multiset.single_le_sum ?_ _ (Multiset.mem_map_of_mem (fun e => f e.2) h)
  intro x hx
  obtain ⟨⟨a, w⟩, hmem, rfl⟩ := Multiset.mem_map.mp hx
  exact hf a w hmem

omit [DecidableEq K] in
theorem sumVal_le {m : Finmap fun _ : K => V} {f : V → ℤ} {b : ℤ}
    (hf : ∀ k v, ⟨k, v⟩ ∈ m.entries → f v ≤ b) : m.sumVal f ≤ m.keys.card * b := by
  have hcard : m.keys.card = (m.entries.map fun e => f e.2).card := by
    rw [Multiset.card_map]
    exact Multiset.card_map Sigma.fst m.entries
  rw [hcard, ← nsmul_eq_mul]
  refine Multiset.sum_le_card_nsmul _ _ fun x hx => ?_
  obtain ⟨⟨a, w⟩, hmem, rfl⟩ := Multiset.mem_map.mp hx
  exact hf a w hmem

/-! ### Counting values -/

/-- The number of values that satisfy `p`. -/
def countVal (p : V → Bool) (m : Finmap fun _ : K => V) : ℕ :=
  m.entries.countP fun e => p e.2

variable {p : V → Bool} {m : Finmap fun _ : K => V} {k : K} {v : V}

omit [DecidableEq K] in
@[simp] theorem countVal_empty : countVal p (∅ : Finmap fun _ : K => V) = 0 := rfl

theorem countVal_insert_of_notMem (h : k ∉ m) :
    (m.insert k v).countVal p = m.countVal p + (p v).toNat := by
  rw [countVal, entries_insert_of_notMem h, Multiset.countP_cons, countVal]
  cases p v <;> rfl

theorem countVal_erase (p : V → Bool) (m : Finmap fun _ : K => V) (k : K) :
    (m.erase k).countVal p + ((m.lookup k).any p).toNat = m.countVal p := by
  rcases hlook : m.lookup k with - | v
  · have hsame : m.erase k = m := by
      refine ext_lookup fun a => ?_
      rw [lookup_erase_eq]
      split
      · rename_i ha
        rw [ha, hlook]
      · rfl
    rw [hsame]
    rfl
  · have hins := countVal_insert_of_notMem (p := p) (v := v) (notMem_erase_self (a := k) (s := m))
    rw [insert_erase_of_lookup hlook] at hins
    exact hins.symm

theorem countVal_insert (p : V → Bool) (m : Finmap fun _ : K => V) (k : K) (v : V) :
    (m.insert k v).countVal p + ((m.lookup k).any p).toNat = m.countVal p + (p v).toNat := by
  have hsame : (m.erase k).insert k v = m.insert k v := by
    refine ext_lookup fun a => ?_
    rw [lookup_insert_eq, lookup_insert_eq, lookup_erase_eq]
    split <;> rfl
  rw [← hsame, countVal_insert_of_notMem notMem_erase_self, ← countVal_erase p m k]
  omega

theorem countVal_pos_iff : 0 < m.countVal p ↔ ∃ k v, m.lookup k = some v ∧ p v = true := by
  rw [countVal, Multiset.countP_pos]
  constructor
  · rintro ⟨⟨k, v⟩, hmem, hp⟩
    exact ⟨k, v, lookup_eq_some_iff.mpr hmem, hp⟩
  · rintro ⟨k, v, hv, hp⟩
    exact ⟨⟨k, v⟩, lookup_eq_some_iff.mp hv, hp⟩

theorem countVal_eq_card_iff :
    m.countVal p = m.keys.card ↔ ∀ k v, m.lookup k = some v → p v = true := by
  have hcard : m.keys.card = m.entries.card := Multiset.card_map Sigma.fst m.entries
  rw [countVal, hcard, Multiset.countP_eq_card]
  constructor
  · intro h k v hv
    exact h ⟨k, v⟩ (lookup_eq_some_iff.mp hv)
  · rintro h ⟨k, v⟩ hmem
    exact h k v (lookup_eq_some_iff.mpr hmem)

end Finmap
