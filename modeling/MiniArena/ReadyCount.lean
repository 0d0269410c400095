/-
MiniArena/ReadyCount.lean

The count of ready players against the flags.

A room keeps `readyCount` next to the `ready` flags of its players.  The
difference of the two changes in one way only (`drift_perform`): it grows by
the number of flags an operation drops without counting down, and two
operations do that.  `addPlayer` overwrites the entry of a player who is in
the room already, and `destroy` clears the players.

Main result (`readyCount_run_iff`): the runs on which the count stays exact
are those without such a step.  `readyCount_of_rejoin` is a run that has one.
-/
import MiniArena.Room
import MiniArena.Transition

namespace MiniArena

inductive RoomOp
  | addPlayer (pid : PlayerId) (username : String)
  | removePlayer (pid : PlayerId)
  | playerReady (pid : PlayerId)
  | startLoading
  | startBattle
  | endBattle
  | destroy
  deriving DecidableEq, Repr

namespace Room

def perform (r : Room) : RoomOp → Room
  | .addPlayer pid username => (r.addPlayer pid username).1
  | .removePlayer pid => r.removePlayer pid
  | .playerReady pid => r.playerReady pid
  | .startLoading => r.startLoading
  | .startBattle => r.startBattle
  | .endBattle => r.endBattle
  | .destroy => r.destroy

/-- The number of players whose flag is set. -/
def readyPlayers (r : Room) : ℕ := r.players.countVal RoomPlayerInfo.ready

def isReady (r : Room) (pid : PlayerId) : Bool := (r.players.lookup pid).any RoomPlayerInfo.ready

/-- The count is that of the flags, and `allReady` says what it should. -/
structure ReadyExact (r : Room) : Prop where
  count : r.readyCount = r.readyPlayers
  all : r.allReady = true ↔ r.players ≠ ∅ ∧ ∀ pid ∈ r.players, r.isReady pid = true

/-- `addPlayer` returns 0. -/
def Accepts (r : Room) : Prop :=
  (r.state = .created ∨ r.state = .waitingPlayers) ∧ r.isFull = false

/-- The operation drops a flag that is set: it adds a player who is in the room
and ready, or it destroys a room in which somebody is ready. -/
def DropsFlag (r : Room) : RoomOp → Prop
  | .addPlayer pid _ => r.Accepts ∧ r.isReady pid = true
  | .destroy => ∃ pid, r.isReady pid = true
  | _ => False

variable {r : Room} {pid : PlayerId}

theorem isReady_of_lookup {info : RoomPlayerInfo} (h : r.players.lookup pid = some info) :
    r.isReady pid = info.ready := by
  rw [isReady, h]
  rfl

theorem readyExact_of_count (h : r.readyCount = r.readyPlayers) : r.ReadyExact where
  count := h
  all := by
    have hflags : r.readyCount = r.playerCount ↔ ∀ pid ∈ r.players, r.isReady pid = true := by
      rw [h, playerCount, Nat.cast_inj, readyPlayers, Finmap.countVal_eq_card_iff]
      constructor
      · intro hall pid hmem
        obtain ⟨info, hinfo⟩ := Finmap.mem_iff.mp hmem
        exact (isReady_of_lookup hinfo).trans (hall pid info hinfo)
      · intro hall pid info hinfo
        rw [← isReady_of_lookup hinfo]
        exact hall pid (Finmap.mem_of_lookup_eq_some hinfo)
    rw [allReady, decide_eq_true_iff, hflags]
    exact and_comm

theorem readyPlayers_pos_iff : 0 < r.readyPlayers ↔ ∃ pid, r.isReady pid = true := by
  rw [readyPlayers, Finmap.countVal_pos_iff]
  constructor
  · rintro ⟨pid, info, hinfo, hready⟩
    exact ⟨pid, (isReady_of_lookup hinfo).trans hready⟩
  · rintro ⟨pid, hready⟩
    obtain ⟨info, hinfo, hflag⟩ := (Option.any_eq_true ..).mp hready
    exact ⟨pid, info, hinfo, hflag⟩

/-! ### What an operation does to the difference -/

/-- The count less the flags. -/
def drift (r : Room) : ℤ := r.readyCount - r.readyPlayers

theorem addPlayer_of_accepts (h : r.Accepts) (pid : PlayerId) (username : String) :
    (r.addPlayer pid username).1.readyCount = r.readyCount ∧
      (r.addPlayer pid username).1.players = r.players.insert pid ⟨pid, username, false⟩ := by
  have hstate : ¬ (r.state ≠ .created ∧ r.state ≠ .waitingPlayers) := by
    rcases h.1 with hs | hs <;> simp [hs]
  rw [addPlayer, if_neg hstate, if_neg (by simp [h.2])]
  exact ⟨rfl, rfl⟩

theorem addPlayer_of_not_accepts (h : ¬ r.Accepts) (username : String) :
    (r.addPlayer pid username).1 = r := by
  unfold addPlayer
  split
  · rfl
  · rename_i hstate
    split
    · rfl
    · rename_i hfull
      refine absurd ⟨?_, by simpa using hfull⟩ h
      by_contra hne
      exact hstate (not_or.mp hne)

/-- The new entry of a player is not ready, whatever the old one was. -/
theorem drift_addPlayer (h : r.Accepts) (username : String) :
    (r.addPlayer pid username).1.drift = r.drift + (r.isReady pid).toNat := by
  obtain ⟨hcount, hplayers⟩ := addPlayer_of_accepts h pid username
  have hins := Finmap.countVal_insert RoomPlayerInfo.ready r.players pid ⟨pid, username, false⟩
  rw [Bool.toNat_false, Nat.add_zero] at hins
  rw [drift, drift, readyPlayers, readyPlayers, hcount, hplayers, isReady, ← hins]
  push_cast
  ring

theorem drift_removePlayer (pid : PlayerId) : (r.removePlayer pid).drift = r.drift := by
  have herase := Finmap.countVal_erase RoomPlayerInfo.ready r.players pid
  unfold removePlayer
  split
  · rfl
  · rename_i info hinfo
    rw [hinfo, Option.any_some] at herase
    rw [drift, drift, readyPlayers, readyPlayers, ← herase]
    cases hready : info.ready
    · simp
    · simp only [Bool.toNat_true, if_true]
      push_cast
      ring

theorem drift_playerReady (pid : PlayerId) : (r.playerReady pid).drift = r.drift := by
  unfold playerReady
  split
  · rfl
  · rename_i info hinfo
    split
    · rfl
    · rename_i hready
      have hins := Finmap.countVal_insert RoomPlayerInfo.ready r.players pid
        { info with ready := true }
      rw [hinfo, Option.any_some, eq_false_of_ne_true hready] at hins
      have hcount : (r.players.insert pid { info with ready := true }).countVal
          RoomPlayerInfo.ready = r.players.countVal RoomPlayerInfo.ready + 1 := hins
      rw [drift, drift, readyPlayers, readyPlayers, hcount]
      push_cast
      ring

theorem drift_destroy : r.destroy.drift = r.drift + r.readyPlayers := by
  show r.readyCount - (0 : ℕ) = r.readyCount - r.readyPlayers + r.readyPlayers
  ring

/-- **What one operation does to the difference**: it drops a flag, and the
difference grows, or it keeps it. -/
theorem drift_perform (r : Room) (op : RoomOp) :
    r.drift ≤ (r.perform op).drift ∧ ((r.perform op).drift = r.drift ↔ ¬ r.DropsFlag op) := by
  cases op with
  | addPlayer pid username =>
    simp only [perform, DropsFlag]
    by_cases hacc : r.Accepts
    · rw [drift_addPlayer hacc]
      cases r.isReady pid
      · simp
      · simp [hacc]
    · rw [addPlayer_of_not_accepts hacc]
      simp [hacc]
  | removePlayer pid =>
    simp only [perform, DropsFlag, drift_removePlayer]
    simp
  | playerReady pid =>
    simp only [perform, DropsFlag, drift_playerReady]
    simp
  | startLoading =>
    have hsame : r.startLoading.drift = r.drift := by
      unfold startLoading
      split <;> rfl
    simp [perform, DropsFlag, hsame]
  | startBattle =>
    have hsame : r.startBattle.drift = r.drift := by
      unfold startBattle
      split <;> rfl
    simp [perform, DropsFlag, hsame]
  | endBattle =>
    have hsame : r.endBattle.drift = r.drift := by
      unfold endBattle
      split <;> rfl
    simp [perform, DropsFlag, hsame]
  | destroy =>
    simp only [perform, DropsFlag, drift_destroy, ← readyPlayers_pos_iff]
    omega

theorem readyExact_iff_drift : r.ReadyExact ↔ r.drift = 0 := by
  rw [drift, sub_eq_zero]
  exact ⟨ReadyExact.count, readyExact_of_count⟩

/-! ### Runs -/

/-- **The ready count.**  A new room has it right, and the runs of operations
that keep it right are the runs that drop no flag. -/
theorem readyCount_run_iff (roomId : RoomId) (maxPlayers : ℤ) (ops : List RoomOp) (r : Room) :
    Room.ReadyExact ⟨roomId, .created, maxPlayers, 0, ∅⟩ ∧
      (Transition.Run (fun r op r' => r' = r.perform op ∧ r'.ReadyExact)
          ⟨roomId, .created, maxPlayers, 0, ∅⟩ ops r ↔
        Transition.Run (fun r op r' => r' = r.perform op ∧ ¬ r.DropsFlag op)
          ⟨roomId, .created, maxPlayers, 0, ∅⟩ ops r) := by
  have hnew : Room.ReadyExact ⟨roomId, .created, maxPlayers, 0, ∅⟩ := readyExact_iff_drift.mpr rfl
  refine ⟨hnew, Transition.Run.target_congr (J := fun _ => True) (fun _ _ _ _ _ => trivial) ?_
    trivial hnew⟩
  rintro s op t - hexact rfl
  rw [readyExact_iff_drift, ← readyExact_iff_drift.mp hexact]
  exact (drift_perform s op).2

/-- A player who is ready joins again: the count is 1, nobody is ready, and
`allReady` holds. -/
theorem readyCount_of_rejoin :
    let r := ([.addPlayer 1 "a", .playerReady 1, .addPlayer 1 "a"] : List RoomOp).foldl
      Room.perform ⟨1, .created, 2, 0, ∅⟩
    r.readyCount = 1 ∧ r.readyPlayers = 0 ∧ r.allReady = true ∧ r.isReady 1 = false ∧
      ¬ r.ReadyExact := by
  refine ⟨rfl, rfl, by decide, rfl, ?_⟩
  intro hexact
  have hcount : (1 : ℤ) = (0 : ℕ) := hexact.count
  cases hcount

end Room

end MiniArena
