/-
MiniArena/RoomBroadcast.lean

Who receives the state notifies of a room.

The receivers are the players the shared grid records near a member of the
room.  The grid is never told that a room or its players are gone, and all
rooms of a worker play on the same coordinates, so a receiver is a member
exactly as long as the grid records no stranger next to a member
(`NoStranger`).
-/
import MiniArena.LogicWorker

namespace MiniArena

variable {F : Type} [FloatOps F]

/-- The room a `BattleStateNotify` is about. -/
def BattlePayload.stateRoom : BattlePayload F → Option RoomId
  | .battleStateNotify r _ _ => some r
  | _ => none

namespace LogicWorker

/-- Every state notify for a room that goes through `broadcastToAoi` is
addressed to a player the room has at that moment. -/
def Isolated (w : LogicWorker F) (out : WorkerOut F) : Prop :=
  ∀ s ∈ out.toAoi, ∀ r, s.payload.stateRoom = some r →
    ∃ rs, w.rooms.lookup r = some rs ∧ s.playerId ∈ rs.players

/-- When the worker is about to broadcast a room, the grid records nobody
from outside the room in a cell next to a member's. -/
def NoStranger (w : LogicWorker F) : WorkerEvent F → Prop
  | .broadcast =>
      match w.phase with
      | .sending _ _ r _ => w.bc.hasSendCb = true → ∀ rs, w.rooms.lookup r = some rs →
          ∀ member stranger c c', member ∈ rs.players → stranger ∉ rs.players →
            w.aoi.playerCells.lookup member = some c →
            w.aoi.playerCells.lookup stranger = some c' → ¬ AoiGrid.Adjacent c c'
      | _ => True
  | _ => True

/-! ### The invariant of the worker -/

/-- The two maps of the grid agree, and a notify about to be sent is about its room. -/
structure GridInv (w : LogicWorker F) : Prop where
  synced : w.aoi.Synced
  about : ∀ cmds left r state, w.phase = .sending cmds left r state → state.stateRoom = some r

omit [FloatOps F] in
theorem gridInv_initial : GridInv ({} : LogicWorker F) where
  synced := AoiGrid.synced_empty
  about := by
    intro cmds left r state h
    cases h

theorem synced_report {players : Players F} {s : Broadcaster (BattlePayload F) × AoiGrid}
    (h : s.2.Synced) (pid : PlayerId) : (TickEngine.report players s pid).2.Synced := by
  unfold TickEngine.report
  split
  · exact h
  · exact h.update pid _ _

theorem synced_processTick {e : TickEngine} {players : Players F} {cmds : List (Command F)}
    {bc : Broadcaster (BattlePayload F)} {aoi : AoiGrid} (h : aoi.Synced) (order : List PlayerId) :
    (e.processTick players cmds bc aoi order).aoi.Synced := by
  have hfold : ∀ (players : Players F) (s : Broadcaster (BattlePayload F) × AoiGrid),
      s.2.Synced → (order.foldl (TickEngine.report players) s).2.Synced := by
    intro players
    induction order with
    | nil => exact fun s hs => hs
    | cons pid order ih => exact fun s hs => ih _ (synced_report hs pid)
  exact hfold _ _ h

theorem gridInv_step {w w' : LogicWorker F} {e : WorkerEvent F × WorkerOut F} (h : GridInv w)
    (hstep : Steps w e w') : GridInv w' := by
  obtain ⟨ev, out⟩ := e
  -- the phases a step can leave without a pending notify
  have hnext : ∀ (cmds : List (Command F)) left cmds' left' r state,
      nextRoom cmds left ≠ Phase.sending cmds' left' r state := by
    intro cmds left cmds' left' r state heq
    cases left <;> cases heq
  cases step_cases hstep with
  | drainPendingOp now phase =>
    unfold drainPendingOp
    split
    · exact h
    · rename_i op ops _
      cases op <;> exact ⟨h.synced, h.about⟩
  | tickBegin order phase once =>
    exact ⟨h.synced, fun _ _ _ _ heq => absurd heq (hnext _ _ _ _ _ _)⟩
  | tickRoom order phase room members =>
    refine ⟨synced_processTick h.synced order, ?_⟩
    intro cmds left r state heq
    obtain ⟨-, -, rfl, rfl⟩ := Phase.sending.injEq .. ▸ heq
    rfl
  | broadcast phase room => exact ⟨h.synced, fun _ _ _ _ heq => nomatch heq⟩
  | checkDisconnected now phase room =>
    exact ⟨h.synced, fun _ _ _ _ heq => absurd heq (hnext _ _ _ _ _ _)⟩
  | _ => exact ⟨h.synced, h.about⟩

/-! ### Receivers -/

/-- Only `broadcast` sends through `broadcastToAoi`. -/
theorem toAoi_of_ne_broadcast {w w' : LogicWorker F} {ev : WorkerEvent F} {out : WorkerOut F}
    (hstep : Steps w (ev, out) w') (hev : ev ≠ .broadcast) : out.toAoi = 0 := by
  cases step_cases hstep with
  | broadcast => exact absurd rfl hev
  | _ => rfl

omit [FloatOps F] in
/-- The receivers of a broadcast: everyone the grid records near a member. -/
theorem mem_broadcast {w : LogicWorker F} (h : w.aoi.Synced) {cmds : List (Command F)}
    {left : List RoomId} {r : RoomId} {state : BattlePayload F} {rs : WorkerRoom F}
    {s : Send (BattlePayload F)} :
    s ∈ (w.broadcast cmds left r state rs).2.toAoi ↔ w.bc.hasSendCb = true ∧
      s.msgId = 4004 ∧ s.payload = state ∧ ∃ member c c', member ∈ rs.players ∧
        w.aoi.playerCells.lookup member = some c ∧
        w.aoi.playerCells.lookup s.playerId = some c' ∧ AoiGrid.Adjacent c c' := by
  simp only [broadcast, Multiset.mem_bind, Finset.mem_val, Finmap.mem_keys,
    Broadcaster.broadcastToAoi]
  cases hcb : w.bc.hasSendCb with
  | false => simp
  | true =>
    simp only [if_true, Multiset.mem_map, true_and]
    constructor
    · rintro ⟨member, hm, pid, hnear, rfl⟩
      obtain ⟨c, c', hc, hc', hadj⟩ := (AoiGrid.mem_getNearby h).mp hnear
      exact ⟨rfl, rfl, member, c, c', hm, hc, hc', hadj⟩
    · rintro ⟨hmsg, hpay, member, c, c', hm, hc, hc', hadj⟩
      refine ⟨member, hm, s.playerId, (AoiGrid.mem_getNearby h).mpr ⟨c, c', hc, hc', hadj⟩, ?_⟩
      rw [← hmsg, ← hpay]

/-- **One step.**  What a step broadcasts stays in its room if and only if
no stranger is recorded near the room. -/
theorem isolated_iff_noStranger {w w' : LogicWorker F} {e : WorkerEvent F × WorkerOut F}
    (h : GridInv w) (hstep : Steps w e w') : Isolated w e.2 ↔ NoStranger w e.1 := by
  obtain ⟨ev, out⟩ := e
  by_cases hev : ev = .broadcast
  · subst hev
    cases step_cases hstep with
    | @broadcast cmds left r rs state hphase hrs =>
      -- the notify that is pending is about the room it is sent for
      have hroom := h.about cmds left r state hphase
      have hmem := @mem_broadcast F w h.synced cmds left r state rs
      simp only [NoStranger, hphase]
      constructor
      · intro hiso hcb rs' hrs' member stranger c c' hm hs hc hc' hadj
        obtain rfl := Option.some.inj (hrs.symm.trans hrs')
        obtain ⟨rs', hrs', hin⟩ := hiso ⟨stranger, 4004, state⟩
          (hmem.mpr ⟨hcb, rfl, rfl, member, c, c', hm, hc, hc', hadj⟩) r hroom
        obtain rfl := Option.some.inj (hrs.symm.trans hrs')
        exact hs hin
      · intro hno s hs r' hr'
        obtain ⟨hcb, -, hpay, member, c, c', hm, hc, hc', hadj⟩ := hmem.mp hs
        rw [hpay, hroom] at hr'
        obtain rfl := Option.some.inj hr'
        refine ⟨rs, hrs, ?_⟩
        by_contra hout
        exact hno hcb rs hrs member s.playerId c c' hm hout hc hc' hadj
  · have hnone := toAoi_of_ne_broadcast hstep hev
    have hclean : NoStranger w ev := by
      cases ev with
      | broadcast => exact absurd rfl hev
      | _ => trivial
    simp [Isolated, hnone, hclean]

/-- **Broadcast isolation.**  The runs of a worker in which every state
notify stays in its room are the runs in which no broadcast happens while
the grid records a stranger near the room. -/
theorem broadcast_isolated_iff {w : LogicWorker F} {as : List (WorkerEvent F × WorkerOut F)} :
    Transition.Run (fun w e w' => Steps w e w' ∧ Isolated w e.2) {} as w ↔
      Transition.Run (fun w e w' => Steps w e w' ∧ NoStranger w e.1) {} as w :=
  Transition.Run.congr (I := GridInv) (fun _ _ _ h hstep => gridInv_step h hstep)
    (fun _ _ _ h hstep => isolated_iff_noStranger h hstep) gridInv_initial

/-! ### Two rooms on one worker -/

/-- Rooms added under different ids share no player. -/
def DisjointRooms (as : List (WorkerEvent F × WorkerOut F)) : Prop :=
  ∀ r ps out r' ps' out', (.addRoom r ps, out) ∈ as → (.addRoom r' ps', out') ∈ as → r ≠ r' →
    ∀ pid, pid ∈ ps → pid ∉ ps'

/-- The players of a room with the one member `pid`, where `startBattle` puts the first player. -/
def alone (pid : PlayerId) : Players ℚ :=
  Finmap.singleton pid { BattlePlayer.default with id := pid }

/-- Rooms 1 and 3, up to the point where the notify of room 3 is ready to go out. -/
def twoRooms : List (WorkerEvent ℚ) :=
  [.setSendCallback, .addRoom 1 (alone 1), .addRoom 3 (alone 2), .drainPendingOp 0,
    .drainPendingOp 0, .tickBegin [1, 3], .tickRoom [1], .broadcast, .checkDisconnected 0,
    .tickRoom [2]]

theorem disjointRooms_twoRooms {as : List (WorkerEvent ℚ × WorkerOut ℚ)}
    (h : as.map Prod.fst = twoRooms) : DisjointRooms as := by
  have hadds : ∀ r ps out, (.addRoom r ps, out) ∈ as →
      (r = 1 ∧ ps = alone 1) ∨ (r = 3 ∧ ps = alone 2) := by
    intro r ps out hmem
    have hev : WorkerEvent.addRoom r ps ∈ twoRooms := h ▸ List.mem_map_of_mem hmem
    simpa [twoRooms] using hev
  have hmem : ∀ pid a : PlayerId, pid ∈ alone a → pid = a := by
    intro pid a h
    exact Finmap.mem_singleton pid a _ |>.mp h
  intro r ps out r' ps' out' h₁ h₂ hne pid hpid hpid'
  rcases hadds r ps out h₁ with ⟨rfl, rfl⟩ | ⟨rfl, rfl⟩ <;>
    rcases hadds r' ps' out' h₂ with ⟨rfl, rfl⟩ | ⟨rfl, rfl⟩
  · exact hne rfl
  · exact absurd ((hmem _ _ hpid).symm.trans (hmem _ _ hpid')) (by decide)
  · exact absurd ((hmem _ _ hpid).symm.trans (hmem _ _ hpid')) (by decide)
  · exact hne rfl

/-- **The shared grid leaks.**  In the first tick after `twoRooms`, the notify
of room 3 also goes to player 1, who spawned in the same cell in room 1. -/
theorem leak_twoRooms :
    ¬ ∀ (as : List (WorkerEvent ℚ × WorkerOut ℚ)) (w w' : LogicWorker ℚ)
        (e : WorkerEvent ℚ × WorkerOut ℚ), Transition.Run Steps {} as w → DisjointRooms as →
        Steps w e w' → Isolated w e.2 := by
  intro hclaim
  have hleak : ((Transition.exec step {} twoRooms).bind fun p => (p.1.step .broadcast).map fun q =>
      decide ((1, some 3) ∈ q.2.toAoi.map (fun s => (s.playerId, s.payload.stateRoom)) ∧
        (p.1.rooms.lookup 3).map (fun rs => decide (1 ∈ rs.players)) = some false)) =
      some true := by
    decide +kernel
  obtain ⟨⟨w, as⟩, hexec, hrest⟩ := Option.bind_eq_some_iff.mp hleak
  obtain ⟨⟨w', out⟩, hstep, hbool⟩ := Option.map_eq_some_iff.mp hrest
  obtain ⟨hsent, hout⟩ := of_decide_eq_true hbool
  obtain ⟨s, hs, heq⟩ := Multiset.mem_map.mp hsent
  obtain ⟨hpid, hroom⟩ := Prod.mk.injEq .. ▸ heq
  obtain ⟨rs, hrs, hin⟩ := hclaim as w w' (.broadcast, out) (Transition.run_of_exec hexec)
    (disjointRooms_twoRooms (Transition.map_fst_of_exec hexec)) hstep s hs 3 hroom
  rw [hrs, Option.map_some, Option.some.injEq, decide_eq_false_iff_not] at hout
  exact hout (hpid ▸ hin)

end LogicWorker

end MiniArena
