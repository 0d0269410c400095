/-
MiniArena/Index.lean

A table (a finite map from keys to values) with a secondary index: a second
map that is to name, for each value of an attribute, the key of the entry
that has it.  The index is maintained by hand next to the table.

* `Sound`: every entry of the index names an entry of the table with that
  attribute.  Several entries of the table may share one, then the index
  names one of them.
* `Exact`: the index and the attribute of the table are inverse to each
  other, so no two entries of the table share an attribute.
-/
import MiniArena.FiniteMap

namespace Index

variable {I K V : Type*} [DecidableEq I] [DecidableEq K]
variable {idx : Finmap fun _ : I => K} {m : Finmap fun _ : K => V} {attr : V → I}

def Sound (idx : Finmap fun _ : I => K) (m : Finmap fun _ : K => V) (attr : V → I) : Prop :=
  ∀ i k, idx.lookup i = some k → ∃ v, m.lookup k = some v ∧ attr v = i

def Exact (idx : Finmap fun _ : I => K) (m : Finmap fun _ : K => V) (attr : V → I) : Prop :=
  ∀ i k, idx.lookup i = some k ↔ ∃ v, m.lookup k = some v ∧ attr v = i

theorem Exact.sound (h : Exact idx m attr) : Sound idx m attr := fun i k => (h i k).mp

theorem exact_empty : Exact (∅ : Finmap fun _ : I => K) (∅ : Finmap fun _ : K => V) attr := by
  intro i k
  simp

theorem sound_empty : Sound (∅ : Finmap fun _ : I => K) (∅ : Finmap fun _ : K => V) attr :=
  exact_empty.sound

/-- The entry of the table that has an attribute. -/
theorem Exact.lookup (h : Exact idx m attr) {k : K} {v : V} (hv : m.lookup k = some v) :
    idx.lookup (attr v) = some k := (h _ k).mpr ⟨v, hv, rfl⟩

/-- No two entries share an attribute. -/
theorem Exact.unique (h : Exact idx m attr) {k k' : K} {v v' : V} (hv : m.lookup k = some v)
    (hv' : m.lookup k' = some v') (heq : attr v = attr v') : k = k' := by
  have hk := h.lookup hv
  rw [heq, h.lookup hv'] at hk
  exact (Option.some.inj hk).symm

/-- The index entry of a key that is in the table is the one of its attribute. -/
theorem Sound.eq_attr (h : Sound idx m attr) {i : I} {k : K} {v : V}
    (hi : idx.lookup i = some k) (hv : m.lookup k = some v) : i = attr v := by
  obtain ⟨v', hv', rfl⟩ := h i k hi
  obtain rfl := Option.some.inj (hv.symm.trans hv')
  rfl

/-! ### Adding an entry -/

theorem Sound.insert (h : Sound idx m attr) {k : K} (v : V) (hk : m.lookup k = none) :
    Sound (idx.insert (attr v) k) (m.insert k v) attr := by
  intro i a hi
  rw [Finmap.lookup_insert_eq] at hi
  split at hi
  · rename_i heq
    obtain rfl := Option.some.inj hi
    exact ⟨v, Finmap.lookup_insert _, heq.symm⟩
  · obtain ⟨w, hw, hwi⟩ := h i a hi
    have hne : a ≠ k := by
      rintro rfl
      rw [hk] at hw
      cases hw
    exact ⟨w, by rwa [Finmap.lookup_insert_of_ne _ hne], hwi⟩

theorem Exact.insert (h : Exact idx m attr) {k : K} {v : V} (hk : m.lookup k = none)
    (hi : idx.lookup (attr v) = none) : Exact (idx.insert (attr v) k) (m.insert k v) attr := by
  intro i a
  constructor
  · exact h.sound.insert v hk i a
  · rintro ⟨w, hw, rfl⟩
    rw [Finmap.lookup_insert_eq] at hw ⊢
    split at hw
    · rename_i ha
      obtain rfl := Option.some.inj hw
      rw [if_pos rfl, ha]
    · have hidx := h.lookup hw
      rw [if_neg]
      · exact hidx
      · intro heq
        rw [heq, hi] at hidx
        cases hidx

/-! ### Removing an entry -/

theorem Sound.erase (h : Sound idx m attr) {k : K} {v : V} (hv : m.lookup k = some v) :
    Sound (idx.erase (attr v)) (m.erase k) attr := by
  intro i a hi
  rw [Finmap.lookup_erase_eq] at hi
  split at hi
  · cases hi
  · rename_i hne
    obtain ⟨w, hw, hwi⟩ := h i a hi
    have hak : a ≠ k := by
      rintro rfl
      exact hne (h.eq_attr hi hv)
    exact ⟨w, by rwa [Finmap.lookup_erase_ne hak], hwi⟩

theorem Exact.erase (h : Exact idx m attr) {k : K} {v : V} (hv : m.lookup k = some v) :
    Exact (idx.erase (attr v)) (m.erase k) attr := by
  intro i a
  constructor
  · exact h.sound.erase hv i a
  · rintro ⟨w, hw, rfl⟩
    rw [Finmap.lookup_erase_eq] at hw ⊢
    split at hw
    · cases hw
    · rename_i hne
      rw [if_neg]
      · exact h.lookup hw
      · intro heq
        exact hne (h.unique hw hv heq)

/-! ### Changing an entry -/

theorem Sound.update (h : Sound idx m attr) {k : K} {v : V} (hv : m.lookup k = some v) (v' : V)
    (hattr : attr v' = attr v) : Sound idx (m.insert k v') attr := by
  intro i a hi
  obtain ⟨w, hw, hwi⟩ := h i a hi
  rw [Finmap.lookup_insert_eq]
  split
  · rename_i ha
    subst ha
    obtain rfl := Option.some.inj (hv.symm.trans hw)
    exact ⟨v', rfl, hattr.trans hwi⟩
  · exact ⟨w, hw, hwi⟩

theorem Exact.update (h : Exact idx m attr) {k : K} {v : V} (hv : m.lookup k = some v) (v' : V)
    (hattr : attr v' = attr v) : Exact idx (m.insert k v') attr := by
  intro i a
  constructor
  · exact h.sound.update hv v' hattr i a
  · rintro ⟨w, hw, rfl⟩
    rw [Finmap.lookup_insert_eq] at hw
    split at hw
    · rename_i ha
      obtain rfl := Option.some.inj hw
      rw [ha, hattr]
      exact h.lookup hv
    · exact h.lookup hw

/-- Changing entries without their attribute. -/
theorem Exact.pointwise {m' : Finmap fun _ : K => V} {R : V → V → Prop} (h : Exact idx m attr)
    (hattr : ∀ v v', R v v' → attr v' = attr v) (hm : Finmap.Pointwise R m m') :
    Exact idx m' attr := by
  intro i k
  rw [h i k]
  have hk := hm k
  generalize m.lookup k = o at hk
  generalize m'.lookup k = o' at hk
  cases hk with
  | none => simp
  | some hr => simp [hattr _ _ hr]

/-- Moving an entry to another attribute. -/
theorem Sound.rebind (h : Sound idx m attr) {k : K} {v : V} (hv : m.lookup k = some v) (v' : V) :
    Sound ((idx.erase (attr v)).insert (attr v') k) (m.insert k v') attr := by
  have hgone : (m.erase k).lookup k = none := Finmap.lookup_erase _ _
  have hins := (h.erase hv).insert v' hgone
  have hm : (m.erase k).insert k v' = m.insert k v' := by
    refine Finmap.ext_lookup fun a => ?_
    rw [Finmap.lookup_insert_eq, Finmap.lookup_insert_eq, Finmap.lookup_erase_eq]
    split <;> rfl
  rwa [hm] at hins

end Index
