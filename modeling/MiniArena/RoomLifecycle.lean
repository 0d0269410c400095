/-
MiniArena/RoomLifecycle.lean

The life of a room: the order of its states, its capacity, and its members.

`Ordered r op` collects what one operation may do to a room: the state stays,
or it becomes the next one, or the room is destroyed.  Nobody joins a room
that is past WAITING_PLAYERS, and what `addPlayer` refuses changes nothing.

Main result (`room_lifecycle`): in every room a run of operations leads to,
`Ordered` holds of every next operation, there are at most `maxPlayers`
players, and whatever happens later the state is the same or a later one.
-/
import MiniArena.ReadyCount

namespace MiniArena

/-- The place of a state in the order of the enumeration. -/
def RoomState.rank : RoomState → ℕ
  | .created => 0
  | .waitingPlayers => 1
  | .loading => 2
  | .running => 3
  | .settling => 4
  | .destroyed => 5

namespace Room

def run (r : Room) (ops : List RoomOp) : Room := ops.foldl Room.perform r

/-- WAITING_PLAYERS is behind the room. -/
def Closed (r : Room) : Prop := RoomState.waitingPlayers.rank < r.state.rank

structure Ordered (r : Room) (op : RoomOp) : Prop where
  forward : (r.perform op).state = r.state ∨ (r.perform op).state.rank = r.state.rank + 1 ∨
    op = .destroy ∧ (r.perform op).state = .destroyed
  full : r.state ≠ .loading → (r.perform op).state = .loading →
    (r.perform op).playerCount = r.maxPlayers
  closed : r.Closed → (r.perform op).players.keys ⊆ r.players.keys
  refused : ∀ pid username, op = .addPlayer pid username →
    (r.addPlayer pid username).2 = 40002 ∨ (r.addPlayer pid username).2 = 40003 → r.perform op = r

/-- The number of seats is that of the new room, and they suffice. -/
structure Fits (maxPlayers : ℤ) (r : Room) : Prop where
  seats : r.maxPlayers = maxPlayers
  count : r.playerCount ≤ maxPlayers

variable {r : Room} {maxPlayers : ℤ}

/-! ### What the operations do to the players -/

theorem keys_removePlayer_subset (r : Room) (pid : PlayerId) :
    (r.removePlayer pid).players.keys ⊆ r.players.keys := by
  unfold removePlayer
  split
  · exact Finset.Subset.refl _
  · show (r.players.erase pid).keys ⊆ _
    rw [Finmap.keys_erase]
    exact Finset.erase_subset _ _

theorem keys_addPlayer {pid : PlayerId} (hacc : r.Accepts) (username : String) :
    (r.addPlayer pid username).1.players.keys = insert pid r.players.keys := by
  rw [(addPlayer_of_accepts hacc pid username).2]
  ext a
  rw [Finmap.mem_keys, Finmap.mem_insert, Finset.mem_insert, Finmap.mem_keys]

/-- The room has a free seat when it accepts, and one call takes at most one. -/
theorem playerCount_addPlayer_le (r : Room) (pid : PlayerId) (username : String) :
    (r.addPlayer pid username).1.playerCount ≤ max r.playerCount r.maxPlayers := by
  by_cases hacc : r.Accepts
  · have hfree : r.playerCount < r.maxPlayers := by
      have hopen := hacc.2
      rw [isFull, decide_eq_false_iff_not] at hopen
      exact not_le.mp hopen
    have hcard := Finset.card_insert_le pid r.players.keys
    rw [← keys_addPlayer hacc username] at hcard
    have hgrow : (r.addPlayer pid username).1.playerCount ≤ r.playerCount + 1 := by
      rw [playerCount, playerCount]
      exact_mod_cast hcard
    exact le_max_of_le_right (by omega)
  · rw [addPlayer_of_not_accepts hacc]
    exact le_max_left _ _

theorem not_accepts_of_closed (h : r.Closed) : ¬ r.Accepts := by
  rintro ⟨hcreated | hwaiting, -⟩
  · rw [Closed, hcreated] at h
    exact absurd h (by decide)
  · rw [Closed, hwaiting] at h
    exact absurd h (by decide)

/-- A code other than 0 says that the room did not accept. -/
theorem addPlayer_of_refused {pid : PlayerId} {username : String}
    (h : (r.addPlayer pid username).2 ≠ 0) : (r.addPlayer pid username).1 = r := by
  apply addPlayer_of_not_accepts
  intro hacc
  have hstate : ¬ (r.state ≠ .created ∧ r.state ≠ .waitingPlayers) := by
    rcases hacc.1 with hs | hs <;> simp [hs]
  rw [addPlayer, if_neg hstate, if_neg (by simp [hacc.2])] at h
  exact h rfl

theorem perform_of_refused {op : RoomOp} (pid : PlayerId) (username : String)
    (hop : op = .addPlayer pid username)
    (hcode : (r.addPlayer pid username).2 = 40002 ∨ (r.addPlayer pid username).2 = 40003) :
    r.perform op = r := by
  subst hop
  apply addPlayer_of_refused
  rcases hcode with hcode | hcode <;> simp [hcode]

/-! ### One operation -/

theorem ordered_addPlayer (r : Room) (pid : PlayerId) (username : String) :
    r.Ordered (.addPlayer pid username) where
  forward := by
    show (r.addPlayer pid username).1.state = r.state ∨ _
    rcases state_addPlayer r pid username with hsame | hwaiting
    · exact Or.inl hsame
    · by_cases hacc : r.Accepts
      · rcases hacc.1 with hcreated | hwas
        · refine Or.inr (Or.inl ?_)
          show (r.addPlayer pid username).1.state.rank = _
          rw [hwaiting, hcreated]
          rfl
        · exact Or.inl (hwaiting.trans hwas.symm)
      · exact Or.inl (congrArg Room.state (addPlayer_of_not_accepts hacc username))
  full := by
    intro hne hloading
    have hnew : (r.addPlayer pid username).1.state = .loading := hloading
    rcases state_addPlayer r pid username with hsame | hwaiting
    · exact absurd (hsame.symm.trans hnew) hne
    · rw [hwaiting] at hnew
      cases hnew
  closed := by
    intro hclosed
    show (r.addPlayer pid username).1.players.keys ⊆ _
    rw [addPlayer_of_not_accepts (not_accepts_of_closed hclosed)]
  refused := fun _ _ => perform_of_refused _ _

/-- An operation that takes nobody in and does not start LOADING is ordered if
it moves the state as it should. -/
theorem ordered_of_forward {op : RoomOp} (hkeys : (r.perform op).players.keys ⊆ r.players.keys)
    (hstate : (r.perform op).state = r.state ∨
      (r.perform op).state.rank = r.state.rank + 1 ∧ (r.perform op).state ≠ .loading ∨
        op = .destroy ∧ (r.perform op).state = .destroyed) : r.Ordered op where
  forward := hstate.imp_right (Or.imp_left And.left)
  full := by
    intro hne hloading
    rcases hstate with hsame | ⟨-, hother⟩ | ⟨-, hdestroyed⟩
    · exact absurd (hsame.symm.trans hloading) hne
    · exact absurd hloading hother
    · rw [hdestroyed] at hloading
      cases hloading
  closed := fun _ => hkeys
  refused := fun _ _ => perform_of_refused _ _

/-- LOADING starts in a room that is full, and a room has no more players than seats. -/
theorem ordered_startLoading (h : r.Fits maxPlayers) : r.Ordered .startLoading := by
  by_cases hstart : r.state = .waitingPlayers ∧ r.isFull
  · have hperform : r.perform .startLoading = { r with state := .loading } := if_pos hstart
    refine ⟨Or.inr (Or.inl ?_), ?_, ?_, fun _ _ => perform_of_refused _ _⟩
    · rw [hperform, hstart.1]
      rfl
    · intro _ _
      rw [hperform]
      have hfull := of_decide_eq_true hstart.2
      exact le_antisymm (h.seats ▸ h.count) hfull
    · intro _
      rw [hperform]
  · have hperform : r.perform .startLoading = r := if_neg hstart
    apply ordered_of_forward
    · rw [hperform]
    · exact Or.inl (congrArg Room.state hperform)

theorem ordered_startBattle (r : Room) : r.Ordered .startBattle := by
  apply ordered_of_forward
  · show r.startBattle.players.keys ⊆ _
    rw [players_startBattle]
  · by_cases hstart : r.state = .loading ∧ r.allReady
    · have hperform : (r.perform .startBattle).state = .running :=
        congrArg Room.state (if_pos hstart)
      refine Or.inr (Or.inl ?_)
      rw [hperform, hstart.1]
      simp [RoomState.rank]
    · exact Or.inl (congrArg Room.state (if_neg hstart))

theorem ordered_endBattle (r : Room) : r.Ordered .endBattle := by
  by_cases hrunning : r.state = .running
  · have hperform : r.perform .endBattle = { r with state := .settling } := if_pos hrunning
    apply ordered_of_forward
    · rw [hperform]
    · rw [hperform, hrunning]
      simp [RoomState.rank]
  · have hperform : r.perform .endBattle = r := if_neg hrunning
    apply ordered_of_forward
    · rw [hperform]
    · exact Or.inl (congrArg Room.state hperform)

theorem state_removePlayer (r : Room) (pid : PlayerId) : (r.removePlayer pid).state = r.state := by
  unfold removePlayer
  split <;> rfl

/-- **One operation** on a room that fits. -/
theorem ordered_perform (h : r.Fits maxPlayers) (op : RoomOp) : r.Ordered op := by
  cases op with
  | addPlayer pid username => exact ordered_addPlayer r pid username
  | removePlayer pid =>
    apply ordered_of_forward
    · exact keys_removePlayer_subset r pid
    · exact Or.inl (state_removePlayer r pid)
  | playerReady pid =>
    apply ordered_of_forward
    · exact (keys_playerReady r pid).subset
    · exact Or.inl (state_playerReady r pid)
  | startLoading => exact ordered_startLoading h
  | startBattle => exact ordered_startBattle r
  | endBattle => exact ordered_endBattle r
  | destroy =>
    apply ordered_of_forward
    · exact Finset.empty_subset _
    · exact Or.inr (Or.inr ⟨rfl, rfl⟩)

theorem maxPlayers_perform (r : Room) (op : RoomOp) :
    (r.perform op).maxPlayers = r.maxPlayers := by
  cases op with
  | addPlayer pid username =>
    show (r.addPlayer pid username).1.maxPlayers = _
    unfold addPlayer
    split
    · rfl
    · split <;> rfl
  | removePlayer pid =>
    show (r.removePlayer pid).maxPlayers = _
    unfold removePlayer
    split <;> rfl
  | playerReady pid =>
    show (r.playerReady pid).maxPlayers = _
    unfold playerReady
    split
    · rfl
    · split <;> rfl
  | startLoading =>
    show r.startLoading.maxPlayers = _
    unfold startLoading
    split <;> rfl
  | startBattle =>
    show r.startBattle.maxPlayers = _
    unfold startBattle
    split <;> rfl
  | endBattle =>
    show r.endBattle.maxPlayers = _
    unfold endBattle
    split <;> rfl
  | destroy => rfl

theorem playerCount_perform_le (r : Room) (op : RoomOp) :
    (r.perform op).playerCount ≤ max r.playerCount r.maxPlayers := by
  have hsubset : (r.perform op).players.keys ⊆ r.players.keys →
      (r.perform op).playerCount ≤ max r.playerCount r.maxPlayers := by
    intro h
    have hcard := Finset.card_le_card h
    apply le_max_of_le_left
    rw [playerCount, playerCount]
    exact_mod_cast hcard
  cases op with
  | addPlayer pid username => exact playerCount_addPlayer_le r pid username
  | removePlayer pid => exact hsubset (keys_removePlayer_subset r pid)
  | playerReady pid => exact hsubset (keys_playerReady r pid).subset
  | startLoading =>
    apply hsubset
    show r.startLoading.players.keys ⊆ _
    unfold startLoading
    split <;> exact Finset.Subset.refl _
  | startBattle =>
    apply hsubset
    show r.startBattle.players.keys ⊆ _
    rw [players_startBattle]
  | endBattle =>
    apply hsubset
    show r.endBattle.players.keys ⊆ _
    unfold endBattle
    split <;> exact Finset.Subset.refl _
  | destroy => exact hsubset (Finset.empty_subset _)

theorem Fits.perform (h : r.Fits maxPlayers) (op : RoomOp) : (r.perform op).Fits maxPlayers where
  seats := (maxPlayers_perform r op).trans h.seats
  count := by
    have hle := playerCount_perform_le r op
    rw [h.seats, max_eq_right h.count] at hle
    exact hle

theorem Ordered.rank_le {op : RoomOp} (h : r.Ordered op) :
    r.state.rank ≤ (r.perform op).state.rank := by
  rcases h.forward with hsame | hnext | ⟨-, hdestroyed⟩
  · rw [hsame]
  · omega
  · rw [hdestroyed]
    cases r.state <;> simp [RoomState.rank]

/-! ### Runs -/

theorem Fits.run (h : r.Fits maxPlayers) (ops : List RoomOp) : (r.run ops).Fits maxPlayers := by
  induction ops generalizing r with
  | nil => exact h
  | cons op ops ih => exact ih (h.perform op)

theorem rank_le_run (h : r.Fits maxPlayers) (ops : List RoomOp) :
    r.state.rank ≤ (r.run ops).state.rank := by
  induction ops generalizing r with
  | nil => exact le_rfl
  | cons op ops ih => exact (ordered_perform h op).rank_le.trans (ih (h.perform op))

/-- A closed room stays closed, so that nobody joins it later either. -/
theorem keys_run_subset (h : r.Fits maxPlayers) (hclosed : r.Closed) (ops : List RoomOp) :
    (r.run ops).players.keys ⊆ r.players.keys := by
  induction ops generalizing r with
  | nil => exact Finset.Subset.refl _
  | cons op ops ih =>
    have hop := ordered_perform h op
    exact (ih (h.perform op) (hclosed.trans_le hop.rank_le)).trans (hop.closed hclosed)

/-- **The life of a room.**  Wherever a run of operations on a new room has
led, the room holds at most `maxPlayers` players and the next operation is
`Ordered`; from there the state goes forward only, and a room that is past
WAITING_PLAYERS gains no member. -/
theorem room_lifecycle (roomId : RoomId) {maxPlayers : ℤ} (hmax : 0 ≤ maxPlayers)
    (ops : List RoomOp) :
    let r := run ⟨roomId, .created, maxPlayers, 0, ∅⟩ ops
    r.Fits maxPlayers ∧ (∀ op, r.Ordered op) ∧ (r.perform .destroy).state = .destroyed ∧
      ∀ later, r.state.rank ≤ (r.run later).state.rank ∧
        (r.Closed → (r.run later).players.keys ⊆ r.players.keys) := by
  intro r
  have hnew : Fits maxPlayers ⟨roomId, .created, maxPlayers, 0, ∅⟩ := ⟨rfl, hmax⟩
  have hfits : r.Fits maxPlayers := hnew.run ops
  exact ⟨hfits, ordered_perform hfits, rfl,
    fun later => ⟨rank_le_run hfits later, fun hclosed => keys_run_subset hfits hclosed later⟩⟩

/-- The two seats of room 1 are taken, and it starts loading: no third player joins. -/
theorem room_lifecycle_of_two :
    (0 : ℤ) ≤ 2 ∧
      let r := run ⟨1, .created, 2, 0, ∅⟩ [.addPlayer 1 "a", .addPlayer 2 "b", .startLoading]
      r.state = .loading ∧ r.Closed ∧ r.playerCount = 2 ∧
        (r.run [.addPlayer 3 "c"]).players.keys ⊆ r.players.keys := by
  have hlife := room_lifecycle 1 (by decide : (0 : ℤ) ≤ 2)
    [.addPlayer 1 "a", .addPlayer 2 "b", .startLoading]
  have hclosed : (run ⟨1, .created, 2, 0, ∅⟩
      [.addPlayer 1 "a", .addPlayer 2 "b", .startLoading]).Closed := by
    show 1 < 2
    decide
  exact ⟨by decide, rfl, hclosed, rfl, (hlife.2.2.2 [.addPlayer 3 "c"]).2 hclosed⟩

end Room

end MiniArena
