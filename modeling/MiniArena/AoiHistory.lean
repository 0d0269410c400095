/-
MiniArena/AoiHistory.lean

The area of interest after any sequence of `update` and `remove` calls, with
exact coordinates.

`lastSeen` is where a player was last put, and says all there is to say about
the grid: the recorded cells, the sets of the cells, none of them empty, and
with that what `getNearby` returns (`grid_exact`).  A cell is 200 wide, so
two players at most 200 apart are in neighbouring cells or the same one, and
two players 400 apart are not.
-/
import MiniArena.AoiGrid

namespace MiniArena

namespace CellKey

theorem nodup_block (c : CellKey) : c.block.Nodup := by
  simp [block]

end CellKey

namespace AoiGrid

inductive GridOp (F : Type)
  | update (id : PlayerId) (x y : F)
  | remove (id : PlayerId)

variable {F : Type} [FloatOps F]

def perform (g : AoiGrid) : GridOp F → AoiGrid
  | .update id x y => g.update id x y
  | .remove id => g.remove id

/-- Where the players are, after one more call. -/
def record (seen : PlayerId → Option (F × F)) : GridOp F → PlayerId → Option (F × F)
  | .update id x y => Function.update seen id (some (x, y))
  | .remove id => Function.update seen id none

/-- Where the players were last put. -/
def lastSeen (ops : List (GridOp F)) : PlayerId → Option (F × F) := ops.foldl record fun _ => none

/-! ### What a call does to the two maps -/

variable {g : AoiGrid} {id a : PlayerId}

theorem playerCells_update (g : AoiGrid) (id : PlayerId) (x y : F) (a : PlayerId) :
    (g.update id x y).playerCells.lookup a
      = if a = id then some (cellOf x y) else g.playerCells.lookup a := by
  unfold update
  dsimp only
  split
  · exact Finmap.lookup_insert_eq _ _ _ _
  · rename_i cell hcell
    split
    · rename_i hsame
      split
      · rename_i heq
        rw [heq, hcell, hsame]
      · rfl
    · exact Finmap.lookup_insert_eq _ _ _ _

omit [FloatOps F] in
theorem playerCells_remove (g : AoiGrid) (id a : PlayerId) :
    (g.remove id).playerCells.lookup a = if a = id then none else g.playerCells.lookup a := by
  unfold remove
  split
  · rename_i hnone
    split
    · rename_i heq
      rw [heq, hnone]
    · rfl
  · exact Finmap.lookup_erase_eq _ _ _

/-- No cell is kept for nobody. -/
def NoEmpty (g : AoiGrid) : Prop := ∀ cell, g.grid.lookup cell ≠ some ∅

theorem NoEmpty.leaveCell (h : g.NoEmpty) (cell : CellKey) (id : PlayerId) :
    (g.leaveCell cell id).NoEmpty := by
  intro a
  unfold AoiGrid.leaveCell
  dsimp only
  split
  · rw [Finmap.lookup_erase_eq]
    split
    · nofun
    · exact h a
  · rename_i hleft
    rw [Finmap.lookup_insert_eq]
    split
    · exact fun heq => hleft (Option.some.inj heq)
    · exact h a

theorem NoEmpty.enterCell (h : g.NoEmpty) (cell : CellKey) (id : PlayerId) :
    (g.enterCell cell id).NoEmpty := by
  intro a
  show (g.grid.insert cell _).lookup a ≠ _
  rw [Finmap.lookup_insert_eq]
  split
  · exact fun heq => Finset.insert_ne_empty _ _ (Option.some.inj heq)
  · exact h a

theorem NoEmpty.perform (h : g.NoEmpty) (op : GridOp F) : (g.perform op).NoEmpty := by
  cases op with
  | update id x y =>
    show (g.update id x y).NoEmpty
    unfold AoiGrid.update
    dsimp only
    split
    · exact h.enterCell _ _
    · split
      · exact h
      · exact (h.leaveCell _ _).enterCell _ _
  | remove id =>
    show (g.remove id).NoEmpty
    unfold AoiGrid.remove
    split
    · exact h
    · exact h.leaveCell _ _

theorem Synced.perform (h : g.Synced) (op : GridOp F) : (g.perform op).Synced := by
  cases op with
  | update id x y => exact h.update id x y
  | remove id => exact h.remove id

/-! ### Runs -/

/-- The grid agrees with where the players were last put. -/
structure Exact (g : AoiGrid) (seen : PlayerId → Option (F × F)) : Prop where
  synced : g.Synced
  noEmpty : g.NoEmpty
  cells : ∀ id, g.playerCells.lookup id = (seen id).map fun p => cellOf p.1 p.2

theorem exact_run (ops : List (GridOp F)) : (ops.foldl perform {}).Exact (lastSeen ops) := by
  induction ops using List.reverseRecOn with
  | nil =>
    refine ⟨synced_empty, ?_, fun id => ?_⟩
    · intro cell
      simp
    · simp [lastSeen]
  | append_singleton ops op ih =>
    rw [List.foldl_append, List.foldl_cons, List.foldl_nil]
    refine ⟨ih.synced.perform op, ih.noEmpty.perform op, fun a => ?_⟩
    rw [lastSeen, List.foldl_append, List.foldl_cons, List.foldl_nil, ← lastSeen]
    cases op with
    | update id x y =>
      refine (playerCells_update _ id x y a).trans ?_
      rw [record, Function.update_apply]
      split
      · rfl
      · exact ih.cells a
    | remove id =>
      refine (playerCells_remove _ id a).trans ?_
      rw [record, Function.update_apply]
      split
      · rfl
      · exact ih.cells a

/-! ### Neighbours -/

omit [FloatOps F] in
/-- No player is listed twice: it is in one cell only. -/
theorem nodup_getNearby (h : g.Synced) (id : PlayerId) : (g.getNearby id).Nodup := by
  unfold getNearby
  split
  · exact Multiset.nodup_zero
  · rename_i center _
    refine Multiset.nodup_bind.mpr ⟨fun cell _ => Finset.nodup _, ?_⟩
    refine Multiset.pairwise_coe_iff.mpr ⟨_, .refl _, center.nodup_block.imp fun {c c'} hne => ?_⟩
    refine Multiset.disjoint_left.mpr fun {a} ha ha' => ?_
    have hc := (h a c).mp ha
    have hc' := (h a c').mp ha'
    exact hne (Option.some.inj (hc.symm.trans hc'))

theorem Adjacent.symm {c c' : CellKey} (h : Adjacent c c') : Adjacent c' c := by
  obtain ⟨hx, hy⟩ := h
  exact ⟨abs_sub_comm c'.cx c.cx ▸ hx, abs_sub_comm c'.cy c.cy ▸ hy⟩

omit [FloatOps F] in
theorem getNearby_symm (h : g.Synced) {id a : PlayerId} (ha : a ∈ g.getNearby id) :
    id ∈ g.getNearby a := by
  obtain ⟨c, c', hc, hc', hadj⟩ := (mem_getNearby h).mp ha
  exact (mem_getNearby h).mpr ⟨c', c, hc', hc, hadj.symm⟩

/-- Who is near a player, by where they were last put. -/
theorem Exact.mem_getNearby {seen : PlayerId → Option (F × F)} (h : g.Exact seen)
    {id a : PlayerId} {x y : F} (hid : seen id = some (x, y)) :
    a ∈ g.getNearby id ↔
      ∃ x' y', seen a = some (x', y') ∧ Adjacent (cellOf x y) (cellOf x' y') := by
  rw [AoiGrid.mem_getNearby h.synced, h.cells, h.cells, hid, Option.map_some]
  constructor
  · rintro ⟨c, c', hc, hc', hadj⟩
    obtain ⟨⟨x', y'⟩, ha, rfl⟩ := Option.map_eq_some_iff.mp hc'
    obtain rfl := Option.some.inj hc
    exact ⟨x', y', ha, hadj⟩
  · rintro ⟨x', y', ha, hadj⟩
    exact ⟨_, _, rfl, by rw [ha]; rfl, hadj⟩

/-- Numbers at most 1 apart have floors at most 1 apart. -/
theorem abs_floor_sub_le {x y : ℚ} (h : |y - x| ≤ 1) : |⌊y⌋ - ⌊x⌋| ≤ 1 := by
  obtain ⟨hlow, hhigh⟩ := abs_le.mp h
  have hy : ⌊y⌋ ≤ ⌊x⌋ + 1 := by
    rw [← Int.floor_add_one]
    exact Int.floor_le_floor (by linarith)
  have hx : ⌊x⌋ ≤ ⌊y⌋ + 1 := by
    rw [← Int.floor_add_one]
    exact Int.floor_le_floor (by linarith)
  rw [abs_le]
  omega

/-- Numbers at least 2 apart have floors at least 2 apart. -/
theorem two_le_abs_floor_sub {x y : ℚ} (h : 2 ≤ |y - x|) : 2 ≤ |⌊y⌋ - ⌊x⌋| := by
  rw [le_abs] at h ⊢
  rcases h with h | h
  · left
    have : ⌊x + 2⌋ ≤ ⌊y⌋ := Int.floor_le_floor (by linarith)
    rw [Int.floor_add_ofNat] at this
    omega
  · right
    have : ⌊y + 2⌋ ≤ ⌊x⌋ := Int.floor_le_floor (by linarith)
    rw [Int.floor_add_ofNat] at this
    omega

theorem cellOf_eq (x y : ℚ) : cellOf x y = ⟨⌊x / 200⌋, ⌊y / 200⌋⟩ := rfl

/-- Two points at most 200 apart on both axes. -/
theorem adjacent_of_near {x y x' y' : ℚ} (hx : |x' - x| ≤ 200) (hy : |y' - y| ≤ 200) :
    Adjacent (cellOf x y) (cellOf x' y') := by
  have hscale : ∀ {u v : ℚ}, |v - u| ≤ 200 → |v / 200 - u / 200| ≤ 1 := by
    intro u v h
    rw [← sub_div, abs_div, div_le_one (by norm_num)]
    exact h.trans (by norm_num)
  rw [cellOf_eq, cellOf_eq]
  exact ⟨abs_floor_sub_le (hscale hx), abs_floor_sub_le (hscale hy)⟩

/-- Two points at least 400 apart on an axis. -/
theorem not_adjacent_of_far {x y x' y' : ℚ} (h : 400 ≤ |x' - x| ∨ 400 ≤ |y' - y|) :
    ¬ Adjacent (cellOf x y) (cellOf x' y') := by
  have hscale : ∀ {u v : ℚ}, 400 ≤ |v - u| → 2 ≤ |v / 200 - u / 200| := by
    intro u v h
    rw [← sub_div, abs_div, le_div_iff₀ (by norm_num)]
    exact le_trans (by norm_num) h
  rw [cellOf_eq, cellOf_eq]
  rintro ⟨hx, hy⟩
  rcases h with h | h
  · have := two_le_abs_floor_sub (hscale h)
    dsimp only at hx
    omega
  · have := two_le_abs_floor_sub (hscale h)
    dsimp only at hy
    omega

/-- **The grid is exact.**  After any sequence of `update` and `remove` calls
a player is in the set of its last update's cell and in no other, no empty set
is kept, and `getNearby` lists, once each, the tracked players whose cell is
at most one away on each axis. -/
theorem grid_exact (ops : List (GridOp ℚ)) :
    let g := ops.foldl perform {}
    let seen := lastSeen ops
    (∀ id cell, id ∈ g.members cell ↔ g.playerCells.lookup id = some cell) ∧
    (∀ id, g.playerCells.lookup id = (seen id).map fun p => cellOf p.1 p.2) ∧
    (∀ cell, g.grid.lookup cell ≠ some ∅) ∧
    (∀ id, seen id = none → g.getNearby id = 0) ∧
    (∀ id a, a ∈ g.getNearby id ↔ id ∈ g.getNearby a) ∧
    ∀ id x y, seen id = some (x, y) → (g.getNearby id).Nodup ∧ id ∈ g.getNearby id ∧
      (∀ a, a ∈ g.getNearby id ↔ ∃ x' y', seen a = some (x', y') ∧
        |(cellOf x' y').cx - (cellOf x y).cx| ≤ 1 ∧ |(cellOf x' y').cy - (cellOf x y).cy| ≤ 1) ∧
      ∀ a x' y', seen a = some (x', y') →
        (|x' - x| ≤ 200 → |y' - y| ≤ 200 → a ∈ g.getNearby id) ∧
        (400 ≤ |x' - x| ∨ 400 ≤ |y' - y| → a ∉ g.getNearby id) := by
  intro g seen
  have hexact : g.Exact seen := exact_run ops
  have hsync := hexact.synced
  refine ⟨hsync, hexact.cells, hexact.noEmpty, ?_, fun id a => ⟨getNearby_symm hsync, getNearby_symm hsync⟩, ?_⟩
  · intro id hid
    have hnone : g.playerCells.lookup id = none := by rw [hexact.cells, hid]; rfl
    rw [getNearby, hnone]
  · intro id x y hid
    have hmem : ∀ {a}, a ∈ g.getNearby id ↔
        ∃ x' y', seen a = some (x', y') ∧ Adjacent (cellOf x y) (cellOf x' y') :=
      hexact.mem_getNearby hid
    refine ⟨nodup_getNearby hsync id, hmem.mpr ⟨x, y, hid, ?_⟩, fun a => hmem, ?_⟩
    · exact adjacent_of_near (by norm_num) (by norm_num)
    · intro a x' y' ha
      refine ⟨fun hx hy => hmem.mpr ⟨x', y', ha, adjacent_of_near hx hy⟩, fun hfar hin => ?_⟩
      obtain ⟨x₁, y₁, ha₁, hadj⟩ := hmem.mp hin
      obtain ⟨rfl, rfl⟩ := Prod.mk.injEq .. ▸ Option.some.inj (ha.symm.trans ha₁)
      exact not_adjacent_of_far hfar hadj

end AoiGrid

end MiniArena
