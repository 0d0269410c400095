/-
MiniArena/AoiGrid.lean

The nine-cell area of interest (`game/aoi_grid.cpp`): two maps, from players
to their cell and from cells to the players in them.

`Synced` says that the two agree.  `update` and `remove` keep it, and under
it `getNearby` is described by the recorded cells alone (`mem_getNearby`).
-/
import MiniArena.FiniteMap
import MiniArena.FloatOps

namespace MiniArena

abbrev PlayerId := UInt64

structure CellKey where
  cx : ℤ
  cy : ℤ
  deriving DecidableEq, Repr

/-- The cell of `c` and its eight neighbours, in the order `getNearby` visits them. -/
def CellKey.block (c : CellKey) : List CellKey :=
  [-1, 0, 1].flatMap fun dx => [-1, 0, 1].map fun dy => ⟨c.cx + dx, c.cy + dy⟩

structure AoiGrid where
  grid : Finmap fun _ : CellKey => Finset PlayerId := ∅
  playerCells : Finmap fun _ : PlayerId => CellKey := ∅

namespace AoiGrid

/-! ### The operations -/

/-- `kCellSize = 200.0f`. -/
def cellOf {F : Type} [FloatOps F] (x y : F) : CellKey :=
  ⟨FloatOps.floorToInt (FloatOps.div x (FloatOps.ofRat 200)),
    FloatOps.floorToInt (FloatOps.div y (FloatOps.ofRat 200))⟩

/-- `grid_[cell].erase(id)`, and the cell goes when it is left empty. -/
def leaveCell (g : AoiGrid) (cell : CellKey) (id : PlayerId) : AoiGrid :=
  let left := ((g.grid.lookup cell).getD ∅).erase id
  { g with grid := if left = ∅ then g.grid.erase cell else g.grid.insert cell left }

/-- `grid_[cell].insert(id); player_cells_[id] = cell`. -/
def enterCell (g : AoiGrid) (cell : CellKey) (id : PlayerId) : AoiGrid where
  grid := g.grid.insert cell (insert id ((g.grid.lookup cell).getD ∅))
  playerCells := g.playerCells.insert id cell

def update {F : Type} [FloatOps F] (g : AoiGrid) (id : PlayerId) (x y : F) : AoiGrid :=
  let newCell := cellOf x y
  match g.playerCells.lookup id with
  | none => g.enterCell newCell id
  | some cell =>
      if cell = newCell then g
      else (g.leaveCell cell id).enterCell newCell id

def remove (g : AoiGrid) (id : PlayerId) : AoiGrid :=
  match g.playerCells.lookup id with
  | none => g
  | some cell => { g.leaveCell cell id with playerCells := g.playerCells.erase id }

/-- The order inside one cell is that of an `unordered_set`, so the result is
a multiset. -/
def getNearby (g : AoiGrid) (id : PlayerId) : Multiset PlayerId :=
  match g.playerCells.lookup id with
  | none => 0
  | some center =>
      (center.block : Multiset CellKey).bind fun cell => ((g.grid.lookup cell).getD ∅).val

/-! ### The two maps agree -/

/-- The players recorded in a cell. -/
def members (g : AoiGrid) (cell : CellKey) : Finset PlayerId := (g.grid.lookup cell).getD ∅

/-- A player is in the set of a cell if and only if that is its recorded cell. -/
def Synced (g : AoiGrid) : Prop :=
  ∀ id cell, id ∈ g.members cell ↔ g.playerCells.lookup id = some cell

variable {g : AoiGrid}

theorem synced_empty : Synced {} := by
  intro id cell
  simp [members]

theorem members_leaveCell (g : AoiGrid) (cell a : CellKey) (id : PlayerId) :
    (g.leaveCell cell id).members a = if a = cell then (g.members cell).erase id
      else g.members a := by
  by_cases ha : a = cell
  · subst ha
    by_cases hleft : (g.members a).erase id = ∅
    · have : ((g.grid.lookup a).getD ∅).erase id = ∅ := hleft
      simp [leaveCell, members, this]
    · have : ¬ ((g.grid.lookup a).getD ∅).erase id = ∅ := hleft
      simp [leaveCell, members, this]
  · by_cases hleft : ((g.grid.lookup cell).getD ∅).erase id = ∅
    · simp [leaveCell, members, hleft, ha]
    · simp [leaveCell, members, hleft, ha]

theorem members_enterCell (g : AoiGrid) (cell a : CellKey) (id : PlayerId) :
    (g.enterCell cell id).members a = if a = cell then insert id (g.members cell)
      else g.members a := by
  by_cases ha : a = cell
  · subst ha
    simp [enterCell, members]
  · simp [enterCell, members, ha]

/-- Entering a cell when no other cell holds the player. -/
theorem Synced.enterCell {id : PlayerId} (cell : CellKey)
    (hothers : ∀ a, a ≠ id → ∀ c, a ∈ g.members c ↔ g.playerCells.lookup a = some c)
    (hself : ∀ c, id ∉ g.members c) : (g.enterCell cell id).Synced := by
  intro a c
  rw [members_enterCell]
  show _ ↔ (g.playerCells.insert id cell).lookup a = some c
  rw [Finmap.lookup_insert_eq]
  by_cases ha : a = id
  · subst ha
    by_cases hc : c = cell
    · simp [hc]
    · simp [hc, Ne.symm hc, hself c]
  · by_cases hc : c = cell
    · subst hc
      simp [ha, hothers a ha]
    · simp [ha, hc, hothers a ha]

theorem Synced.update {F : Type} [FloatOps F] (h : g.Synced) (id : PlayerId) (x y : F) :
    (g.update id x y).Synced := by
  unfold AoiGrid.update
  dsimp only
  split
  · rename_i hnone
    refine Synced.enterCell _ (fun a _ c => h a c) ?_
    intro c hc
    rw [h id c, hnone] at hc
    cases hc
  · rename_i cell hcell
    split
    · exact h
    · refine Synced.enterCell _ ?_ ?_
      · intro a ha c
        rw [members_leaveCell]
        by_cases hc : c = cell
        · subst hc
          rw [if_pos rfl, Finset.mem_erase]
          exact ⟨fun hm => (h a c).mp hm.2, fun hl => ⟨ha, (h a c).mpr hl⟩⟩
        · rw [if_neg hc]
          exact h a c
      · intro c
        rw [members_leaveCell]
        by_cases hc : c = cell
        · simp [hc]
        · rw [if_neg hc, h id c, hcell]
          simpa using Ne.symm hc

theorem Synced.remove (h : g.Synced) (id : PlayerId) : (g.remove id).Synced := by
  unfold AoiGrid.remove
  split
  · exact h
  · rename_i cell hcell
    intro a c
    show a ∈ (g.leaveCell cell id).members c ↔ (g.playerCells.erase id).lookup a = some c
    rw [members_leaveCell, Finmap.lookup_erase_eq]
    by_cases ha : a = id
    · subst ha
      by_cases hc : c = cell
      · simp [hc]
      · rw [if_neg hc, h a c, hcell]
        simp [Ne.symm hc]
    · by_cases hc : c = cell
      · subst hc
        simp [ha, h a c]
      · simp [ha, hc, h a c]

/-! ### What `getNearby` returns -/

/-- At most one cell apart on each axis. -/
def Adjacent (c c' : CellKey) : Prop := |c'.cx - c.cx| ≤ 1 ∧ |c'.cy - c.cy| ≤ 1

instance (c c' : CellKey) : Decidable (Adjacent c c') := by
  unfold Adjacent
  infer_instance

theorem mem_block {c c' : CellKey} : c' ∈ c.block ↔ Adjacent c c' := by
  obtain ⟨x, y⟩ := c
  obtain ⟨x', y'⟩ := c'
  simp only [CellKey.block, Adjacent, List.mem_flatMap, List.mem_map, List.mem_cons,
    List.not_mem_nil, or_false, CellKey.mk.injEq, abs_le]
  constructor
  · rintro ⟨dx, hdx, dy, hdy, rfl, rfl⟩
    rcases hdx with rfl | rfl | rfl <;> rcases hdy with rfl | rfl | rfl <;> omega
  · rintro ⟨hx, hy⟩
    refine ⟨x' - x, by omega, y' - y, by omega, by omega, by omega⟩

/-- **The neighbourhood in terms of recorded cells.** -/
theorem mem_getNearby (h : g.Synced) {id a : PlayerId} :
    a ∈ g.getNearby id ↔ ∃ c c', g.playerCells.lookup id = some c ∧
      g.playerCells.lookup a = some c' ∧ Adjacent c c' := by
  unfold getNearby
  split
  · rename_i hnone
    simp [hnone]
  · rename_i c hc
    rw [Multiset.mem_bind]
    constructor
    · rintro ⟨c', hmem, ha⟩
      exact ⟨c, c', hc, (h a c').mp ha, mem_block.mp hmem⟩
    · rintro ⟨c₀, c', hc₀, ha, hadj⟩
      obtain rfl := Option.some.inj (hc.symm.trans hc₀)
      exact ⟨c', mem_block.mpr hadj, (h a c').mpr ha⟩

end AoiGrid

end MiniArena
