/-
MiniArena/HighWater.lean

High-water marks: for every key the largest number admitted so far.  A pair
of a key and a number is admitted if the number is above the mark of its key,
or the key has none, and then becomes the mark.

`Marks m log` relates a table of marks to the log of the pairs admitted so
far: in the log the numbers of a key increase, and the table has the largest
of them.  The one rule is `Marks.record`; `Marks.admits_iff` says what the
table decides in terms of the log.
-/
import MiniArena.FiniteMap

namespace HighWater

variable {K S : Type*} [DecidableEq K] [LinearOrder S]
variable {m m' : Finmap fun _ : K => S} {log : List (K × S)}

/-- The number is above the mark of its key. -/
def Admits (m : Finmap fun _ : K => S) (k : K) (s : S) : Prop :=
  ∀ mark, m.lookup k = some mark → mark < s

/-- The numbers of every key increase along the log. -/
def Increasing (log : List (K × S)) : Prop := log.Pairwise fun p q => p.1 = q.1 → p.2 < q.2

omit [DecidableEq K] in
theorem Increasing.nodup (h : Increasing log) : log.Nodup := by
  refine List.Pairwise.imp ?_ h
  rintro p q hlt rfl
  exact lt_irrefl _ (hlt rfl)

structure Marks (m : Finmap fun _ : K => S) (log : List (K × S)) : Prop where
  increasing : Increasing log
  /-- A mark has been admitted. -/
  admitted : ∀ k mark, m.lookup k = some mark → (k, mark) ∈ log
  /-- Nothing admitted is above the mark. -/
  largest : ∀ k s, (k, s) ∈ log → ∃ mark, m.lookup k = some mark ∧ s ≤ mark

theorem marks_empty : Marks (∅ : Finmap fun _ : K => S) [] where
  increasing := List.Pairwise.nil
  admitted := by simp
  largest := by simp

/-- The table admits what is above everything admitted before. -/
theorem Marks.admits_iff (h : Marks m log) {k : K} {s : S} :
    Admits m k s ↔ ∀ s', (k, s') ∈ log → s' < s := by
  constructor
  · intro hadm s' hs'
    obtain ⟨mark, hmark, hle⟩ := h.largest k s' hs'
    exact lt_of_le_of_lt hle (hadm mark hmark)
  · intro hall mark hmark
    exact hall mark (h.admitted k mark hmark)

/-- **Admitting a pair** keeps the relation. -/
theorem Marks.record (h : Marks m log) {k : K} {s : S} (hadm : Admits m k s) :
    Marks (m.insert k s) (log ++ [(k, s)]) where
  increasing := by
    apply List.pairwise_append.mpr
    refine ⟨h.increasing, List.pairwise_singleton _ _, ?_⟩
    rintro ⟨k', s'⟩ hp q hq heq
    obtain rfl := List.mem_singleton.mp hq
    obtain rfl : k' = k := heq
    exact h.admits_iff.mp hadm s' hp
  admitted := by
    intro k' mark hmark
    rw [Finmap.lookup_insert_eq] at hmark
    apply List.mem_append.mpr
    split at hmark
    · rename_i heq
      subst heq
      obtain rfl := Option.some.inj hmark
      exact Or.inr (List.mem_singleton.mpr rfl)
    · exact Or.inl (h.admitted k' mark hmark)
  largest := by
    intro k' s' hs'
    rw [Finmap.lookup_insert_eq]
    rcases List.mem_append.mp hs' with hold | hnew
    · split
      · rename_i heq
        subst heq
        exact ⟨s, rfl, le_of_lt (h.admits_iff.mp hadm s' hold)⟩
      · exact h.largest k' s' hold
    · obtain ⟨rfl, rfl⟩ := Prod.mk.injEq .. ▸ List.mem_singleton.mp hnew
      exact ⟨s', if_pos rfl, le_refl _⟩

end HighWater
