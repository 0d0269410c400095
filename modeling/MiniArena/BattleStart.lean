/-
MiniArena/BattleStart.lean

How battles start.

A room is created, fills, and waits: `startLoading` is called nowhere, so no
room is ever LOADING, `startBattle` never makes one RUNNING, and the handler
of PlayerReady starts the battle every time it finds all players ready
(`Completes`), also if the room has one.  `battle_started_once_iff` says what
this leaves of "a battle is started once, when its room goes from LOADING to
RUNNING", and `addRoom_once_iff` what it leaves of "once".
-/
import MiniArena.Lobby

namespace MiniArena

variable {F : Type} [FloatOps F] {σ : Type} [Storage σ]

namespace GameServer

variable (pb : Protobuf F) {g g' : GameServer σ F} {out : ServerOut F}

/-- The event is a PlayerReady after which everybody in the room is ready. -/
def Completes (g : GameServer σ F) (e : ServerEvent F) : Prop :=
  ∃ s room, action pb g e = some (.ready s room) ∧
    (room.playerReady s.playerId).allReady = true

/-- The same, in a room whose battle is in `room_to_worker_` already. -/
def Restarts (g : GameServer σ F) (e : ServerEvent F) : Prop :=
  ∃ s room, action pb g e = some (.ready s room) ∧
    (room.playerReady s.playerId).allReady = true ∧ room.roomId ∈ g.battle.roomToWorker

/-- The room `r` is in the given state. -/
def InState (g : GameServer σ F) (r : RoomId) (state : RoomState) : Prop :=
  ∃ room, g.rooms.getRoom r = some room ∧ room.state = state

/-- Battles are started by rooms that go from LOADING to RUNNING, and the
rooms of running battles are RUNNING. -/
structure StartsOnMove (g g' : GameServer σ F) (ops : List (Enqueued F)) : Prop where
  moves : ∀ o ∈ ops, ∀ r players, o.op = .addRoom r players →
    g.InState r .loading ∧ g'.InState r .running
  running : ∀ r ∈ g'.battle.roomToWorker, g'.InState r .running

def addsRoom (r : RoomId) (o : Enqueued F) : Bool :=
  match o.op with
  | .addRoom a _ => decide (a = r)
  | _ => false

/-- How often `AddRoom` is issued for the room `r`. -/
def addRooms (r : RoomId) (as : List (ServerEvent F × ServerOut F)) : ℕ :=
  (as.flatMap fun e => e.2.ops).countP (addsRoom r)

variable {pb}

/-! ### Rooms only gather -/

/-- Every room is CREATED or WAITING_PLAYERS. -/
def Gathering (g : GameServer σ F) : Prop :=
  ∀ r room, g.rooms.getRoom r = some room → room.state = .created ∨ room.state = .waitingPlayers

omit [FloatOps F] [Storage σ] in
theorem Gathering.not_inState (h : Gathering g) {r : RoomId} {state : RoomState}
    (hc : state ≠ .created) (hw : state ≠ .waitingPlayers) : ¬ g.InState r state := by
  rintro ⟨room, hroom, rfl⟩
  rcases h r room hroom with hst | hst
  · exact hc hst
  · exact hw hst

omit [FloatOps F] [Storage σ] in
theorem Gathering.update (h : Gathering g) {r : RoomId} {room : Room}
    (hroom : room.state = .created ∨ room.state = .waitingPlayers)
    (hrooms : ∀ a, g'.rooms.getRoom a = if a = r then some room else g.rooms.getRoom a) :
    Gathering g' := by
  intro a room' ha
  rw [hrooms a] at ha
  split at ha
  · exact Option.some.inj ha ▸ hroom
  · exact h a room' ha

theorem gathering_addPlayer {room : Room}
    (h : room.state = .created ∨ room.state = .waitingPlayers) (pid : PlayerId)
    (username : String) : (room.addPlayer pid username).1.state = .created ∨
      (room.addPlayer pid username).1.state = .waitingPlayers := by
  rcases room.state_addPlayer pid username with hst | hst
  · rwa [hst]
  · exact Or.inr hst

/-- `startBattle` of a room that gathers changes nothing. -/
theorem startBattle_playerReady {room : Room}
    (h : room.state = .created ∨ room.state = .waitingPlayers) (pid : PlayerId) :
    (room.playerReady pid).startBattle = room.playerReady pid := by
  apply Room.startBattle_of_ne
  rw [Room.state_playerReady]
  rcases h with hst | hst <;> rw [hst] <;> decide

theorem gathering_step (h : Gathering g) {e : ServerEvent F} (hstep : step pb g e = some (g', out)) :
    Gathering g' := by
  have heff := step_effect hstep
  generalize action pb g e = a at heff
  cases heff with
  | quiet rooms sessions battle =>
    unfold Gathering
    rw [rooms]
    exact h
  | login rooms sessions battle =>
    unfold Gathering
    rw [rooms]
    exact h
  | enter session found rooms sessions battle =>
    exact h.update (gathering_addPlayer (h _ _ found) _ _) (rooms ▸ g.rooms.getRoom_update _ · _)
  | ready found waiting rooms sessions battle =>
    refine h.update ?_ (rooms ▸ g.rooms.getRoom_update _ · _)
    rw [Room.state_playerReady]
    exact h _ _ found
  | start found allReady rooms sessions table workers enqueued =>
    rw [startBattle_playerReady (h _ _ found)] at rooms
    refine h.update ?_ (rooms ▸ g.rooms.getRoom_update _ · _)
    rw [Room.state_playerReady]
    exact h _ _ found
  | form rooms sessions battle =>
    -- a new room is CREATED
    exact h.update (Or.inl (by rfl)) (rooms ▸ g.rooms.getRoom_createRoom g.roomSize)
  | seat session found rooms sessions battle =>
    exact h.update (gathering_addPlayer (h _ _ found) _ _) (rooms ▸ g.rooms.getRoom_update _ · _)

omit [FloatOps F] [Storage σ] in
theorem gathering_init (store : σ) (roomSize : ℤ) :
    Gathering (init store roomSize : GameServer σ F) := by
  intro r room h
  simp [init, RoomManager.getRoom] at h

/-! ### When battles start -/

/-- A battle starts when a PlayerReady completes its room, and only then. -/
theorem start_cases {e : ServerEvent F} (hstep : step pb g e = some (g', out)) :
    (¬ Completes pb g e ∧ NoStart g g' out.ops) ∨
    ∃ s room i players, action pb g e = some (.ready s room) ∧
      (room.playerReady s.playerId).allReady = true ∧
      g'.battle.roomToWorker = g.battle.roomToWorker.insert room.roomId i ∧
      out.ops = [⟨i, .addRoom room.roomId players⟩] := by
  have heff := step_effect hstep
  generalize ha : action pb g e = a at heff
  -- any other action, and a PlayerReady that leaves somebody waiting
  have hother : (∀ s room, a = some (.ready s room) →
      (room.playerReady s.playerId).allReady = false) → ¬ Completes pb g e := by
    rintro hwaiting ⟨s, room, hready, hall⟩
    rw [hwaiting s room (ha.symm.trans hready)] at hall
    cases hall
  cases heff with
  | quiet rooms sessions battle =>
    exact Or.inl ⟨hother (fun _ _ heq => nomatch heq), battle⟩
  | login rooms sessions battle =>
    exact Or.inl ⟨hother (fun _ _ heq => nomatch heq), battle⟩
  | enter session found rooms sessions battle =>
    exact Or.inl ⟨hother (fun _ _ heq => nomatch heq), battle⟩
  | ready found waiting rooms sessions battle =>
    refine Or.inl ⟨hother ?_, battle⟩
    intro s room heq
    obtain ⟨rfl, rfl⟩ := Action.ready.injEq .. ▸ Option.some.inj heq
    exact waiting
  | @start s room players now found allReady rooms sessions table workers enqueued =>
    exact Or.inr ⟨s, room, g.battle.assignWorker room.roomId, players, rfl, allReady, table,
      enqueued⟩
  | form rooms sessions battle =>
    exact Or.inl ⟨hother (fun _ _ heq => nomatch heq), battle⟩
  | seat session found rooms sessions battle =>
    exact Or.inl ⟨hother (fun _ _ heq => nomatch heq), battle⟩

/-! ### Counting -/

omit [FloatOps F] [Storage σ] in
theorem addRooms_append (r : RoomId) (as bs : List (ServerEvent F × ServerOut F)) :
    addRooms r (as ++ bs) = addRooms r as + addRooms r bs := by
  simp [addRooms]

omit [FloatOps F] [Storage σ] in
theorem addRooms_single (r : RoomId) (e : ServerEvent F × ServerOut F) :
    addRooms r [e] = e.2.ops.countP (addsRoom r) := by
  simp [addRooms]

omit [Storage σ] in
theorem NoStart.countP_eq_zero {ops : List (Enqueued F)} (h : NoStart g g' ops) (r : RoomId) :
    ops.countP (addsRoom r) = 0 := by
  rw [h.ops]
  rfl

/-- No `AddRoom` without a PlayerReady that completes its room. -/
theorem addRooms_eq_zero {as : List (ServerEvent F × ServerOut F)}
    (h : Transition.Run (fun g e g' => Steps pb g e g' ∧ ¬ Completes pb g e.1) g as g')
    (r : RoomId) : addRooms r as = 0 := by
  induction h with
  | nil => rfl
  | @cons g e g' as g'' hst _ ih =>
    rcases start_cases hst.1.1 with ⟨-, hbattle⟩ | ⟨s, room, i, players, ha, hall, -, -⟩
    · rw [← List.singleton_append, addRooms_append, addRooms_single, hbattle.countP_eq_zero, ih]
    · exact absurd ⟨s, room, ha, hall⟩ hst.2

/-- What a step adds to `room_to_worker_` are the rooms it issues `AddRoom`
for, one at most; it restarts a battle if that room is there already. -/
theorem count_step {e : ServerEvent F × ServerOut F} (hstep : Steps pb g e g') :
    (∀ r, r ∈ g'.battle.roomToWorker ↔ r ∈ g.battle.roomToWorker ∨ 0 < addRooms r [e]) ∧
      (∀ r, addRooms r [e] ≤ 1) ∧
      (Restarts pb g e.1 ↔ ∃ r ∈ g.battle.roomToWorker, 0 < addRooms r [e]) := by
  simp only [addRooms_single]
  rcases start_cases hstep.1 with ⟨hnot, hbattle⟩ | ⟨s, room, i, players, ha, hall, htable, hops⟩
  · refine ⟨fun r => ?_, fun r => ?_, ?_⟩
    · rw [hbattle.table, hbattle.countP_eq_zero]
      simp
    · rw [hbattle.countP_eq_zero]
      exact Nat.zero_le 1
    · constructor
      · rintro ⟨s, room, ha, hall, -⟩
        exact absurd ⟨s, room, ha, hall⟩ hnot
      · rintro ⟨r, -, hpos⟩
        rw [hbattle.countP_eq_zero] at hpos
        exact absurd hpos (lt_irrefl 0)
  · have hcount : ∀ r, e.2.ops.countP (addsRoom r) = if room.roomId = r then 1 else 0 := by
      intro r
      rw [hops]
      simp [List.countP_cons, addsRoom]
    refine ⟨fun r => ?_, fun r => ?_, ?_⟩
    · rw [htable, Finmap.mem_insert, hcount, or_comm]
      by_cases hr : room.roomId = r
      · simp [hr]
      · simp [hr, Ne.symm hr]
    · rw [hcount]
      split <;> decide
    · constructor
      · rintro ⟨s', room', ha', -, hin⟩
        obtain ⟨-, rfl⟩ := Action.ready.injEq .. ▸ Option.some.inj (ha.symm.trans ha')
        exact ⟨room.roomId, hin, by rw [hcount, if_pos rfl]; exact Nat.one_pos⟩
      · rintro ⟨r, hr, hpos⟩
        rw [hcount] at hpos
        split at hpos
        · rename_i heq
          exact ⟨s, room, ha, hall, heq ▸ hr⟩
        · cases hpos

/-- `addRoom_once_iff` from a state reached by `past`. -/
theorem addRoom_once_from {past as : List (ServerEvent F × ServerOut F)}
    (htable : ∀ r, r ∈ g.battle.roomToWorker ↔ 0 < addRooms r past)
    (honce : ∀ r, addRooms r past ≤ 1) :
    (Transition.Run (Steps pb) g as g' ∧ ∀ r, addRooms r (past ++ as) ≤ 1) ↔
      Transition.Run (fun g e g' => Steps pb g e g' ∧ ¬ Restarts pb g e.1) g as g' := by
  induction as generalizing g past with
  | nil =>
    constructor
    · rintro ⟨⟨⟩, -⟩
      exact .nil
    · rintro ⟨⟩
      exact ⟨.nil, by simpa using honce⟩
  | cons e as ih =>
    have happ : past ++ e :: as = past ++ [e] ++ as := by simp
    have hnext : ∀ g₁, Steps pb g e g₁ →
        ∀ r, r ∈ g₁.battle.roomToWorker ↔ 0 < addRooms r (past ++ [e]) := by
      intro g₁ hst r
      rw [(count_step hst).1 r, htable, addRooms_append, Nat.add_pos_iff_pos_or_pos]
    rw [happ]
    constructor
    · rintro ⟨hrun, hcount⟩
      cases hrun with
      | @cons _ _ g₁ _ _ hst hrest =>
        have honce' : ∀ r, addRooms r (past ++ [e]) ≤ 1 := by
          intro r
          have hr := hcount r
          rw [addRooms_append] at hr
          exact le_trans (Nat.le_add_right _ _) hr
        have hnot : ¬ Restarts pb g e.1 := by
          intro hre
          obtain ⟨r, hin, hpos⟩ := (count_step hst).2.2.mp hre
          have hr := honce' r
          rw [addRooms_append] at hr
          have hpast := (htable r).mp hin
          omega
        exact .cons ⟨hst, hnot⟩ ((ih (hnext g₁ hst) honce').mp ⟨hrest, hcount⟩)
    · intro hrun
      cases hrun with
      | @cons _ _ g₁ _ _ hst hrest =>
        have honce' : ∀ r, addRooms r (past ++ [e]) ≤ 1 := by
          intro r
          rw [addRooms_append]
          rcases Nat.eq_zero_or_pos (addRooms r [e]) with hzero | hpos
          · rw [hzero]
            exact honce r
          · -- the room is new, or the battle would be restarted
            have hin : r ∉ g.battle.roomToWorker := fun hin =>
              hst.2 ((count_step hst.1).2.2.mpr ⟨r, hin, hpos⟩)
            have hle := (count_step hst.1).2.1 r
            rw [htable] at hin
            omega
        obtain ⟨hrun', hcount⟩ := (ih (hnext g₁ hst.1) honce').mpr hrest
        exact ⟨.cons hst.1 hrun', hcount⟩

/-- **Once.**  `AddRoom` is issued at most once for each room exactly if no
PlayerReady completes a room that has a battle already. -/
theorem addRoom_once_iff {store : σ} {roomSize : ℤ} {as : List (ServerEvent F × ServerOut F)} :
    (Transition.Run (Steps pb) (init store roomSize) as g ∧ ∀ r, addRooms r as ≤ 1) ↔
      Transition.Run (fun g e g' => Steps pb g e g' ∧ ¬ Restarts pb g e.1)
        (init store roomSize) as g := by
  have hstart := @addRoom_once_from F _ σ _ pb (init store roomSize) g [] as
  refine hstart (fun r => ?_) fun r => Nat.zero_le 1
  show r ∈ (∅ : Finmap fun _ : RoomId => ℕ) ↔ 0 < 0
  simp [Finmap.notMem_empty]

/-! ### Once, when the room goes from LOADING to RUNNING -/

/-- **One step.**  As long as no battle has been started, a step meets the
law exactly if it starts none. -/
theorem startsOnMove_iff (h : Gathering g) (hnone : g.battle.roomToWorker = ∅)
    {e : ServerEvent F} (hstep : step pb g e = some (g', out)) :
    StartsOnMove g g' out.ops ↔ ¬ Completes pb g e := by
  rcases start_cases hstep with ⟨hnot, hbattle⟩ | ⟨s, room, i, players, ha, hall, -, hops⟩
  · refine ⟨fun _ => hnot, fun _ => ⟨?_, ?_⟩⟩
    · intro o ho
      rw [hbattle.ops] at ho
      cases ho
    · intro r hr
      rw [hbattle.table, hnone] at hr
      exact absurd hr (Finmap.notMem_empty)
  · have hcomp : Completes pb g e := ⟨s, room, ha, hall⟩
    refine ⟨fun hlaw => ?_, fun hnot => absurd hcomp hnot⟩
    have hmem : ⟨i, .addRoom room.roomId players⟩ ∈ out.ops := hops ▸ List.mem_singleton_self _
    obtain ⟨hloading, -⟩ := hlaw.moves _ hmem room.roomId players rfl
    exact absurd hloading (h.not_inState (by decide) (by decide))

omit [FloatOps F] [Storage σ] in
/-- A step that meets the law leaves `room_to_worker_` empty. -/
theorem roomToWorker_of_startsOnMove (h : Gathering g') (hlaw : StartsOnMove g g' out.ops) :
    g'.battle.roomToWorker = ∅ := by
  refine Finmap.ext_lookup fun r => ?_
  rw [Finmap.lookup_empty]
  rcases hr : g'.battle.roomToWorker.lookup r with - | i
  · rfl
  · have hrunning := hlaw.running r (Finmap.mem_of_lookup_eq_some hr)
    exact absurd hrunning (h.not_inState (by decide) (by decide))

/-- **A battle is started once.**  The runs in which a battle is started at
most once in each room, only as the room goes from LOADING to RUNNING, and
every room with a battle is RUNNING, are the runs in which no PlayerReady
completes its room. -/
theorem battle_started_once_iff {store : σ} {roomSize : ℤ}
    {as : List (ServerEvent F × ServerOut F)} :
    (Transition.Run (fun g e g' => Steps pb g e g' ∧ StartsOnMove g g' e.2.ops)
        (init store roomSize) as g ∧ ∀ r, addRooms r as ≤ 1) ↔
      Transition.Run (fun g e g' => Steps pb g e g' ∧ ¬ Completes pb g e.1)
        (init store roomSize) as g := by
  have hiff : Transition.Run (fun g e g' => Steps pb g e g' ∧ StartsOnMove g g' e.2.ops)
        (init store roomSize) as g ↔
      Transition.Run (fun g e g' => Steps pb g e g' ∧ ¬ Completes pb g e.1)
        (init store roomSize) as g := by
    apply Transition.Run.guard_congr (J := Gathering) (B := fun g => g.battle.roomToWorker = ∅)
    · exact fun g e g' h hst => gathering_step h hst.1
    · exact fun g e g' h hnone hst => startsOnMove_iff h hnone hst.1
    · exact fun g e g' h _ hst hlaw => roomToWorker_of_startsOnMove (gathering_step h hst.1) hlaw
    · exact gathering_init store roomSize
    · rfl
  rw [hiff]
  refine ⟨fun h => h.1, fun h => ⟨h, fun r => ?_⟩⟩
  rw [addRooms_eq_zero h r]
  exact Nat.zero_le 1

/-! ### A room that starts twice -/

/-- Requests in which every user is called "ann"; other fields are as in an empty message. -/
def annRequests : Protobuf ℚ where
  loginRequest _ := some ("ann", "secret")
  matchStartRequest _ := 0
  enterRoomRequest _ := 0
  playerMoveRequest _ := some (0, 0)
  playerAttackRequest _ := some 0
  playerSkillRequest _ := some (0, 0)
  reconnectRequest _ := some 11

/-- A frame without payload on connection 1, with the session id 11 for a login. -/
def annSends (messageId : UInt32) : ServerEvent ℚ :=
  .frame 0 1 { messageId := messageId } ⟨0, 0, 11, [1]⟩

/-- Player 1 logs in, is matched into room 1 and is ready. -/
def soloBattle : List (ServerEvent ℚ) :=
  [annSends 1001, annSends 2001, .timerWakes, .tryMatch, .tryMatch, annSends 3003]

/-- **A second PlayerReady starts the battle again**, with new battle players. -/
theorem addRoom_twice_soloBattle :
    ¬ ∀ (as : List (ServerEvent ℚ × ServerOut ℚ)) (g : GameServer MemoryStore ℚ),
        Transition.Run (Steps annRequests) (init {} 1) as g → ∀ r, addRooms r as ≤ 1 := by
  intro hclaim
  have htwice : (exec annRequests (init ({} : MemoryStore) 1) (soloBattle ++ [annSends 3003])).map
      (fun p => addRooms 1 p.2) = some 2 := by
    decide +kernel
  obtain ⟨⟨g, as⟩, hexec, hcount⟩ := Option.map_eq_some_iff.mp htwice
  have hone := hclaim as g (run_of_exec hexec) 1
  rw [show addRooms 1 as = 2 from hcount] at hone
  exact absurd hone (by decide)

end GameServer

end MiniArena
