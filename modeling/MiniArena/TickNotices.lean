/-
MiniArena/TickNotices.lean

What the clients are sent of a tick.

`processTick` queues an override for each player and moves it in the grid;
`tick` releases `rooms_mtx_`, sends the state of the room around each member
and flushes the overrides.  The two halves are two steps, and messages come in
between.  `Prepared` is what the second half finds, in every reachable state
of the server: the override, the recorded cell and the entry in the notify of
a player are all those of the player the room has then.
-/
import MiniArena.AoiHistory
import MiniArena.BattleRooms
import MiniArena.RoomBroadcast

namespace MiniArena

variable {F : Type} [FloatOps F] {σ : Type} [Storage σ]

/-! ### The last loop of a tick -/

/-- What is queued for a player: its own state, of no room. -/
def BattlePlayer.ownNotify (p : BattlePlayer F) : BattlePayload F :=
  .battleStateNotify 0 0 [p.state]

/-- The cell of a player's position. -/
def BattlePlayer.cell (p : BattlePlayer F) : CellKey := AoiGrid.cellOf p.posX p.posY

namespace TickEngine

variable {players : Players F}

theorem report_of_lookup {pid : PlayerId} {p : BattlePlayer F} (h : players.lookup pid = some p)
    (s : Broadcaster (BattlePayload F) × AoiGrid) :
    report players s pid =
      (s.1.queueOverride pid 4004 p.ownNotify, s.2.update pid p.posX p.posY) := by
  unfold report
  rw [h]
  rfl

/-- Everybody the loop visits has its override and its cell, the others have what they had. -/
theorem foldl_report {order : List PlayerId} (hin : ∀ pid ∈ order, pid ∈ players)
    (s : Broadcaster (BattlePayload F) × AoiGrid) :
    (order.foldl (report players) s).1.hasSendCb = s.1.hasSendCb ∧
    (∀ a, (order.foldl (report players) s).1.overrides.lookup a =
      if a ∈ order then (players.lookup a).map fun p => (4004, p.ownNotify)
      else s.1.overrides.lookup a) ∧
    ∀ a, (order.foldl (report players) s).2.playerCells.lookup a =
      if a ∈ order then (players.lookup a).map BattlePlayer.cell
      else s.2.playerCells.lookup a := by
  induction order generalizing s with
  | nil => exact ⟨rfl, fun a => rfl, fun a => rfl⟩
  | cons b order ih =>
    obtain ⟨p, hp⟩ := Finmap.mem_iff.mp (hin b List.mem_cons_self)
    have hstep := report_of_lookup hp s
    obtain ⟨hcb, hover, hcells⟩ :=
      ih (fun pid hpid => hin pid (List.mem_cons_of_mem _ hpid)) (report players s b)
    rw [hstep] at hcb hover hcells
    rw [List.foldl_cons, hstep]
    refine ⟨hcb, fun a => ?_, fun a => ?_⟩
    · rw [hover]
      by_cases ha : a ∈ order
      · rw [if_pos ha, if_pos (List.mem_cons_of_mem _ ha)]
      · rw [if_neg ha]
        show (s.1.overrides.insert b _).lookup a = _
        rw [Finmap.lookup_insert_eq]
        by_cases hab : a = b
        · rw [if_pos hab, if_pos (hab ▸ List.mem_cons_self), hab, hp]
          rfl
        · rw [if_neg hab, if_neg (List.not_mem_cons_of_ne_of_not_mem hab ha)]
    · rw [hcells]
      by_cases ha : a ∈ order
      · rw [if_pos ha, if_pos (List.mem_cons_of_mem _ ha)]
      · rw [if_neg ha]
        show (s.2.update b p.posX p.posY).playerCells.lookup a = _
        rw [AoiGrid.playerCells_update]
        by_cases hab : a = b
        · rw [if_pos hab, if_pos (hab ▸ List.mem_cons_self), hab, hp]
          rfl
        · rw [if_neg hab, if_neg (List.not_mem_cons_of_ne_of_not_mem hab ha)]

theorem keys_processTick (e : TickEngine) (players : Players F) (cmds : List (Command F))
    (bc : Broadcaster (BattlePayload F)) (aoi : AoiGrid) (order : List PlayerId) :
    (e.processTick players cmds bc aoi order).players.keys = players.keys := by
  rw [players_processTick, Finmap.keys_mapVal, keys_acts]

end TickEngine

/-! ### Between the two halves of a tick -/

namespace LogicWorker

/-- The notifies of the room `r` are ready to go out. -/
structure Staged (w : LogicWorker F) (r : RoomId) (state : BattlePayload F) (rs : WorkerRoom F) :
    Prop where
  room : w.rooms.lookup r = some rs
  notify : ∃ order : List PlayerId, (order : Multiset PlayerId) = rs.players.keys.val ∧
    state = .battleStateNotify r 0
      (order.filterMap fun pid => (rs.players.lookup pid).map BattlePlayer.state)
  overrides : w.bc.overrides = rs.players.mapVal fun _ p => (4004, p.ownNotify)
  cells : ∀ pid p, rs.players.lookup pid = some p → w.aoi.playerCells.lookup pid = some p.cell

/-- The broadcaster and the grid in every phase of the worker. -/
structure Prepared (w : LogicWorker F) : Prop where
  callback : w.bc.hasSendCb = true
  synced : w.aoi.Synced
  flushed : (∀ cmds left r state, w.phase ≠ .sending cmds left r state) → w.bc.overrides = ∅
  staged : ∀ cmds left r state, w.phase = .sending cmds left r state → ∃ rs, w.Staged r state rs

variable {w w' : LogicWorker F}

theorem prepared_empty : Prepared ({ bc := Broadcaster.setSendCallback {} } : LogicWorker F) where
  callback := rfl
  synced := AoiGrid.synced_empty
  flushed := fun _ => rfl
  staged := by
    intro cmds left r state h
    cases h

/-- A worker that is not about to send has no override, whatever its rooms are. -/
theorem Prepared.calm (h : Prepared w) (hbc : w'.bc = w.bc) (haoi : w'.aoi = w.aoi)
    (hcalm : ∀ cmds left r state, w.phase ≠ .sending cmds left r state)
    (hcalm' : ∀ cmds left r state, w'.phase ≠ .sending cmds left r state) : Prepared w' where
  callback := hbc ▸ h.callback
  synced := haoi ▸ h.synced
  flushed := fun _ => hbc ▸ h.flushed hcalm
  staged := fun cmds left r state hphase => absurd hphase (hcalm' cmds left r state)

/-- Nothing here depends on the two queues. -/
theorem Prepared.congr (h : Prepared w) (hbc : w'.bc = w.bc) (haoi : w'.aoi = w.aoi)
    (hphase : w'.phase = w.phase) (hrooms : w'.rooms = w.rooms) : Prepared w' where
  callback := hbc ▸ h.callback
  synced := haoi ▸ h.synced
  flushed := fun hcalm => hbc ▸ h.flushed (hphase ▸ hcalm)
  staged := by
    intro cmds left r state heq
    obtain ⟨rs, hs⟩ := h.staged cmds left r state (hphase ▸ heq)
    exact ⟨rs, hrooms ▸ hs.room, hs.notify, hbc ▸ hs.overrides, haoi ▸ hs.cells⟩

omit [FloatOps F] in
theorem nextRoom_ne_sending {cmds cmds' : List (Command F)} {left left' : List RoomId}
    {r : RoomId} {state : BattlePayload F} :
    nextRoom cmds left ≠ Phase.sending cmds' left' r state := by
  intro h
  cases left <;> cases h

/-- What `processTick` leaves behind, and the notify that is built from it. -/
theorem staged_tickRoom {cmds : List (Command F)} {left : List RoomId} {r : RoomId}
    {rs : WorkerRoom F} {order : List PlayerId} (hflushed : w.bc.overrides = ∅)
    (hmembers : (order : Multiset PlayerId) = rs.players.keys.val) :
    (w.tickRoom cmds left r rs order).1.Staged r
      (.battleStateNotify r 0 (order.filterMap fun pid =>
        ((w.tickEngine.processTick rs.players cmds w.bc w.aoi order).players.lookup pid).map
          BattlePlayer.state))
      { rs with players :=
          (w.tickEngine.processTick rs.players cmds w.bc w.aoi order).players } := by
  have hkeys := TickEngine.keys_processTick w.tickEngine rs.players cmds w.bc w.aoi order
  have horder : ∀ pid, pid ∈ order ↔
      pid ∈ (w.tickEngine.processTick rs.players cmds w.bc w.aoi order).players := by
    intro pid
    rw [← Finmap.mem_keys, hkeys, ← Finset.mem_val, ← hmembers, Multiset.mem_coe]
  obtain ⟨-, hover, hcells⟩ :=
    TickEngine.foldl_report (fun pid hpid => (horder pid).mp hpid) (w.bc, w.aoi)
  refine ⟨Finmap.lookup_insert _, ⟨order, hmembers.trans (congrArg Finset.val hkeys.symm), rfl⟩,
    Finmap.ext_lookup fun pid => ?_, fun pid p hp => ?_⟩
  · refine (hover pid).trans ?_
    rw [Finmap.lookup_mapVal]
    split
    · rfl
    · rename_i hout
      have hnone := Finmap.lookup_eq_none.mpr (mt (horder pid).mpr hout)
      show w.bc.overrides.lookup pid = _
      rw [hflushed, hnone]
      exact Finmap.lookup_empty _
  · refine (hcells pid).trans ?_
    rw [if_pos ((horder pid).mpr (Finmap.mem_of_lookup_eq_some hp))]
    exact congrArg (Option.map BattlePlayer.cell) hp

theorem hasSendCb_tickRoom {cmds : List (Command F)} {left : List RoomId} {r : RoomId}
    {rs : WorkerRoom F} {order : List PlayerId}
    (hmembers : (order : Multiset PlayerId) = rs.players.keys.val) :
    (w.tickRoom cmds left r rs order).1.bc.hasSendCb = w.bc.hasSendCb := by
  apply (TickEngine.foldl_report _ (w.bc, w.aoi)).1
  intro pid hpid
  have hkeys := TickEngine.keys_processTick w.tickEngine rs.players cmds w.bc w.aoi order
  show pid ∈ (w.tickEngine.processTick rs.players cmds w.bc w.aoi order).players
  rw [← Finmap.mem_keys, hkeys, ← Finset.mem_val, ← hmembers]
  exact hpid

omit [FloatOps F] in
theorem drainPendingOp_frame (w : LogicWorker F) (now : ℤ) :
    (w.drainPendingOp now).bc = w.bc ∧ (w.drainPendingOp now).aoi = w.aoi ∧
      (w.drainPendingOp now).phase = w.phase := by
  unfold drainPendingOp
  split
  · exact ⟨rfl, rfl, rfl⟩
  · rename_i op ops _
    cases op <;> exact ⟨rfl, rfl, rfl⟩

omit [FloatOps F] in
theorem drainPendingOps_frame (w : LogicWorker F) (now : ℤ) :
    (w.drainPendingOps now).bc = w.bc ∧ (w.drainPendingOps now).aoi = w.aoi := by
  have hfold : ∀ (ops : List (PendingOp F)) (u : LogicWorker F),
      (ops.foldl (fun w op => w.applyOp now op) u).bc = u.bc ∧
        (ops.foldl (fun w op => w.applyOp now op) u).aoi = u.aoi := by
    intro ops
    induction ops with
    | nil => exact fun u => ⟨rfl, rfl⟩
    | cons op ops ih =>
      intro u
      rw [List.foldl_cons, (ih _).1, (ih _).2]
      cases op <;> exact ⟨rfl, rfl⟩
  exact hfold w.pendingOps _

/-- A step of the worker's thread. -/
theorem prepared_step (h : Prepared w) {event : WorkerEvent F} {out : WorkerOut F}
    (hthread : GameServer.ofThread event = true) (hstep : w.step event = some (w', out)) :
    Prepared w' := by
  cases step_cases hstep with
  | drainPendingOp now phase =>
    obtain ⟨hbc, haoi, hphase⟩ := drainPendingOp_frame w now
    refine h.calm hbc haoi ?_ ?_
    · intro cmds left r state heq
      rw [phase] at heq
      cases heq
    · intro cmds left r state heq
      rw [hphase, phase] at heq
      cases heq
  | tickBegin order phase once =>
    refine h.calm rfl rfl ?_ fun _ _ _ _ => nextRoom_ne_sending
    intro cmds left r state heq
    rw [phase] at heq
    cases heq
  | tickRoom order phase room members =>
    have hflushed : w.bc.overrides = ∅ := by
      apply h.flushed
      intro cmds left r state heq
      rw [phase] at heq
      cases heq
    refine ⟨(hasSendCb_tickRoom members).trans h.callback, synced_processTick h.synced order,
      fun hcalm => absurd rfl (hcalm _ _ _ _), ?_⟩
    intro cmds left r state heq
    obtain ⟨-, -, rfl, rfl⟩ := Phase.sending.injEq .. ▸ heq
    exact ⟨_, staged_tickRoom hflushed members⟩
  | broadcast phase room =>
    refine ⟨h.callback, h.synced, fun _ => rfl, ?_⟩
    intro cmds left r state heq
    cases heq
  | checkDisconnected now phase room =>
    refine h.calm rfl rfl ?_ fun _ _ _ _ => nextRoom_ne_sending
    intro cmds left r state heq
    rw [phase] at heq
    cases heq
  | _ => simp [GameServer.ofThread] at hthread

/-! ### What the second half sends -/

/-- The members of the room around a cell. -/
def around (rs : WorkerRoom F) (c : CellKey) : Finset PlayerId :=
  rs.players.keys.filter fun m =>
    ((rs.players.lookup m).any fun q => decide (AoiGrid.Adjacent q.cell c)) = true

omit [FloatOps F] in
theorem count_bind_getNearby {g : AoiGrid} (hsynced : g.Synced) (s : Finset PlayerId)
    (pid : PlayerId) : (s.val.bind g.getNearby).count pid =
      (s.filter fun m => pid ∈ g.getNearby m).card := by
  rw [Multiset.count_bind]
  have hone : ∀ m, (g.getNearby m).count pid = if pid ∈ g.getNearby m then 1 else 0 :=
    fun m => Multiset.count_eq_of_nodup (AoiGrid.nodup_getNearby hsynced m)
  rw [Multiset.map_congr rfl fun m _ => hone m]
  exact (Finset.card_filter _ s).symm

/-- How often the state of the room goes to whoever is recorded in the cell `c`. -/
theorem count_receivers {r : RoomId} {state : BattlePayload F} {rs : WorkerRoom F}
    (hsynced : w.aoi.Synced) (h : w.Staged r state rs) {pid : PlayerId} {c : CellKey}
    (hc : w.aoi.playerCells.lookup pid = some c) :
    (rs.players.keys.val.bind w.aoi.getNearby).count pid = (around rs c).card := by
  rw [count_bind_getNearby hsynced]
  refine congrArg Finset.card (Finset.filter_congr fun m hm => ?_)
  obtain ⟨q, hq⟩ := Finmap.mem_iff.mp (Finmap.mem_keys.mp hm)
  rw [AoiGrid.mem_getNearby hsynced, h.cells m q hq, hc, hq]
  simp

omit [FloatOps F] in
theorem toAoi_eq (hcb : w.bc.hasSendCb = true) (s : Finset PlayerId) (state : BattlePayload F) :
    (s.val.bind fun pid => w.bc.broadcastToAoi (w.aoi.getNearby pid) 4004 state) =
      (s.val.bind w.aoi.getNearby).map fun pid => ⟨pid, 4004, state⟩ := by
  rw [Multiset.map_bind]
  apply Multiset.bind_congr
  intro pid _
  exact if_pos hcb

theorem overrides_eq (hcb : w.bc.hasSendCb = true) {r : RoomId} {state : BattlePayload F}
    {rs : WorkerRoom F} (h : w.Staged r state rs) :
    w.bc.flushOverrides.2 = rs.players.entries.map fun e => ⟨e.1, 4004, e.2.ownNotify⟩ := by
  refine (if_pos hcb).trans ?_
  rw [h.overrides]
  exact Multiset.map_map _ _ _

theorem self_mem_around {rs : WorkerRoom F} {pid : PlayerId} {p : BattlePlayer F}
    (hp : rs.players.lookup pid = some p) : pid ∈ around rs p.cell := by
  refine Finset.mem_filter.mpr ⟨Finmap.mem_keys.mpr (Finmap.mem_of_lookup_eq_some hp), ?_⟩
  rw [hp]
  simp [AoiGrid.Adjacent]

end LogicWorker

/-! ### On the server -/

namespace GameServer

open LogicWorker (Prepared around)

variable {pb : Protobuf F} {g g' : GameServer σ F}

theorem prepared_move (h : ∀ (i : ℕ) w, g.battle.workers[i]? = some w → Prepared w)
    {e : ServerEvent F × ServerOut F} (hstep : Steps pb g e g') :
    ∀ (i : ℕ) w, g'.battle.workers[i]? = some w → Prepared w := by
  intro i w' hw'
  cases battleMove_step hstep.1 with
  | same battle quiet => exact h i w' (battle ▸ hw')
  | command type battle quiet =>
    rw [battle, BattleManager.workers_step BattleManager.Steps.dispatchCommand] at hw'
    obtain ⟨w, hw, rfl⟩ := Option.map_eq_some_iff.mp hw'
    unfold BattleManager.after
    dsimp only
    split
    · exact (h i w hw).congr rfl rfl rfl rfl
    · exact h i w hw
  | @start r before room now order found same members battle enqueued =>
    rw [battle, BattleManager.startBattle_fst,
      BattleManager.workers_step (BattleManager.Steps.startBattle members)] at hw'
    obtain ⟨w, hw, rfl⟩ := Option.map_eq_some_iff.mp hw'
    have hpushed : Prepared (if g.battle.assignWorker room.roomId = i then
        w.enqueue (.addRoom room.roomId (BattleManager.battlePlayers room order)) else w) := by
      split
      · exact (h i w hw).congr rfl rfl rfl rfl
      · exact h i w hw
    unfold BattleManager.after
    dsimp only
    generalize (if g.battle.assignWorker room.roomId = i then
        w.enqueue (.addRoom room.roomId (BattleManager.battlePlayers room order)) else w) = u
      at hpushed ⊢
    split
    · rename_i hcount
      -- a worker without rooms is not about to send
      have hcalm : ∀ cmds left r state, u.phase ≠ .sending cmds left r state := by
        intro cmds left r state heq
        obtain ⟨rs, hs⟩ := hpushed.staged cmds left r state heq
        exact LogicWorker.roomCount_eq_zero.mp hcount r (Finmap.mem_of_lookup_eq_some hs.room)
      obtain ⟨hbc, haoi⟩ := LogicWorker.drainPendingOps_frame u now
      exact hpushed.calm hbc haoi hcalm ((LogicWorker.drainPendingOps_spec u now).2.2 ▸ hcalm)
    · exact hpushed
  | @worker j w w₁ event o started thread worker step battle quiet =>
    rw [battle] at hw'
    change (g.battle.workers.set j w₁)[i]? = some w' at hw'
    rw [List.getElem?_set] at hw'
    split at hw'
    · rename_i hji
      split at hw'
      · obtain rfl := Option.some.inj hw'
        exact LogicWorker.prepared_step (h i w (hji ▸ worker)) thread step
      · cases hw'
    · exact h i w' hw'

theorem prepared_run {store : σ} {roomSize : ℤ} {as : List (ServerEvent F × ServerOut F)}
    (h : Transition.Run (Steps pb) (init store roomSize) as g) :
    ∀ (i : ℕ) w, g.battle.workers[i]? = some w → Prepared w := by
  refine h.invariant (I := fun g => ∀ (i : ℕ) w, g.battle.workers[i]? = some w → Prepared w)
    (fun _ _ _ hprep hstep => prepared_move hprep hstep) ?_
  intro i w hw
  obtain ⟨-, rfl⟩ := List.mem_replicate.mp (List.mem_of_getElem? hw)
  exact LogicWorker.prepared_empty

/-- `out` is what goes to the clients of a tick of the room `r`, whose members
are listed in `order`; `receivers` are those who get the state of the room. -/
structure Announces (g : GameServer σ F) (w : LogicWorker F) (r : RoomId) (rs : WorkerRoom F)
    (order : List PlayerId) (receivers : Multiset PlayerId) (out : ServerOut F) : Prop where
  members : (order : Multiset PlayerId) = rs.players.keys.val
  /-- A receiver gets the state once for each member around it. -/
  near : ∀ pid c, w.aoi.playerCells.lookup pid = some c →
    receivers.count pid = (around rs c).card
  unseen : ∀ pid, w.aoi.playerCells.lookup pid = none → receivers.count pid = 0
  /-- The grid is up to date, and each member is around itself. -/
  present : ∀ pid p, rs.players.lookup pid = some p →
    w.aoi.playerCells.lookup pid = some p.cell ∧ pid ∈ around rs p.cell
  sends : out.sends = []
  broadcasts : out.broadcasts =
    (receivers.bind fun pid => (g.sendToPlayer pid 4004 (.battle (.battleStateNotify r 0
      (order.filterMap fun a => (rs.players.lookup a).map BattlePlayer.state))) :
        Multiset (Sent F))) +
    rs.players.entries.bind fun e =>
      (g.sendToPlayer e.1 4004 (.battle e.2.ownNotify) : Multiset (Sent F))

/-- **What a tick sends.**  In every reachable state, when a worker sends the
notifies of a room, the notify of the room has the present state of each
member, once.  It goes to whoever the grid records near a member, once for
each member near the receiver, so at least once to every member; and each
member gets its own present state, once.  Nothing else is sent. -/
theorem broadcast_notices {store : σ} {roomSize : ℤ} {as : List (ServerEvent F × ServerOut F)}
    (h : Transition.Run (Steps pb) (init store roomSize) as g) {i : ℕ} {out : ServerOut F}
    (hstep : Steps pb g (.worker i .broadcast, out) g') :
    ∃ (w : LogicWorker F) (r : RoomId) (rs : WorkerRoom F) (order : List PlayerId)
        (receivers : Multiset PlayerId),
      g.battle.workers[i]? = some w ∧ w.rooms.lookup r = some rs ∧
      Announces g w r rs order receivers out := by
  obtain ⟨-, hrest⟩ := Option.ite_none_right_eq_some.mp hstep.1
  obtain ⟨w, hw, hrest⟩ := Option.bind_eq_some_iff.mp hrest
  obtain ⟨⟨w', o⟩, hwork, heq⟩ := Option.map_eq_some_iff.mp hrest
  obtain rfl := congrArg Prod.snd heq
  have hprep := prepared_run h i w hw
  cases LogicWorker.step_cases hwork with
  | @broadcast cmds left r rs' state phase room =>
    obtain ⟨rs, hs⟩ := hprep.staged cmds left r state phase
    obtain rfl := Option.some.inj (hs.room.symm.trans room)
    obtain ⟨order, horder, rfl⟩ := hs.notify
    refine ⟨w, r, rs, order, rs.players.keys.val.bind w.aoi.getNearby, hw, hs.room, horder,
      fun pid c hc => LogicWorker.count_receivers hprep.synced hs hc, ?_,
      fun pid p hp => ⟨hs.cells pid p hp, LogicWorker.self_mem_around hp⟩, by rfl, ?_⟩
    · intro pid hnone
      refine Multiset.count_eq_zero.mpr fun hmem => ?_
      obtain ⟨m, -, hnear⟩ := Multiset.mem_bind.mp hmem
      obtain ⟨c, c', -, hc', -⟩ := (AoiGrid.mem_getNearby hprep.synced).mp hnear
      rw [hnone] at hc'
      cases hc'
    · show (((rs.players.keys.val.bind fun pid =>
          w.bc.broadcastToAoi (w.aoi.getNearby pid) 4004 _) + w.bc.flushOverrides.2).bind
          fun s => (g.relay s : Multiset (Sent F))) = _
      rw [LogicWorker.toAoi_eq hprep.callback, LogicWorker.overrides_eq hprep.callback hs,
        Multiset.add_bind, Multiset.bind_map, Multiset.bind_map]
      rfl

/-- The battle of `soloBattle`, about to send the notifies of its first tick. -/
def soloTick : List (ServerEvent ℚ) :=
  soloBattle ++ [.worker 1 (.tickBegin [1]), .worker 1 (.tickRoom [1])]

theorem broadcast_notices_soloTick : ∃ (g : GameServer MemoryStore ℚ) (out : ServerOut ℚ)
    (w : LogicWorker ℚ) (r : RoomId) (rs : WorkerRoom ℚ) (order : List PlayerId)
    (receivers : Multiset PlayerId), out.broadcasts.card = 2 ∧
      g.battle.workers[1]? = some w ∧ w.rooms.lookup r = some rs ∧
      Announces g w r rs order receivers out := by
  have hrun : ((exec annRequests (init ({} : MemoryStore) 1) soloTick).bind fun p =>
      (step annRequests p.1 (.worker 1 .broadcast)).map fun q => q.2.broadcasts.card) = some 2 := by
    decide +kernel
  obtain ⟨⟨g, as⟩, hexec, hrest⟩ := Option.bind_eq_some_iff.mp hrun
  obtain ⟨⟨g', out⟩, hstep, hcard⟩ := Option.map_eq_some_iff.mp hrest
  obtain ⟨w, r, rs, order, receivers, h⟩ := broadcast_notices (run_of_exec hexec) ⟨hstep, rfl⟩
  exact ⟨g, out, w, r, rs, order, receivers, hcard, h⟩

end GameServer

end MiniArena
