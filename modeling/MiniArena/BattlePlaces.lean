/-
MiniArena/BattlePlaces.lean

Where the battles of the server are.

`startBattle` writes the worker of a room into `room_to_worker_`, puts the
room on that worker's queue and wakes the workers; the worker's thread takes
it from there.  `Placed` says that the table, the queues and the rooms agree
in every reachable state, so that no battle is lost between them, none is on
two workers, and none waits for a thread that was never started.
-/
import MiniArena.BattleRooms

namespace MiniArena

variable {F : Type} [FloatOps F] {σ : Type} [Storage σ]

/-! ### The rooms of one worker -/

namespace LogicWorker

variable {P : RoomId → Players F → Prop} {w w' : LogicWorker F}

/-- The worker has the room, or is about to get it. -/
def Hosts (w : LogicWorker F) (r : RoomId) : Prop := r ∈ w.rooms ∨ w.Awaits r

omit [FloatOps F] in
theorem UnderLaw.keepsRooms (h : UnderLaw P w) : w.KeepsRooms := by
  intro r hr
  obtain ⟨a, players, heq, -⟩ := h.queue _ hr
  cases heq

omit [FloatOps F] in
theorem hosts_enqueue {r a : RoomId} {players : Players F} :
    (w.enqueue (.addRoom r players)).Hosts a ↔ w.Hosts a ∨ a = r := by
  rw [Hosts, BattleManager.awaits_enqueue, ← or_assoc]
  refine or_congr Iff.rfl ?_
  constructor
  · rintro ⟨players', heq⟩
    obtain ⟨rfl, -⟩ := PendingOp.addRoom.inj heq
    rfl
  · rintro rfl
    exact ⟨players, rfl⟩

omit [FloatOps F] in
theorem hosts_drainPendingOps (h : w.KeepsRooms) (now : ℤ) (r : RoomId) :
    (w.drainPendingOps now).Hosts r ↔ w.Hosts r := by
  have hnone : ¬ (w.drainPendingOps now).Awaits r := by
    rintro ⟨players, hmem⟩
    rw [(drainPendingOps_spec w now).1] at hmem
    cases hmem
  rw [Hosts, or_iff_left hnone, mem_rooms_drainPendingOps h, Hosts]

/-- What a step of the thread does to the rooms: none goes, and those that come
were awaited. -/
theorem hosts_step (h : UnderLaw P w) {event : WorkerEvent F} {out : WorkerOut F}
    (hthread : GameServer.ofThread event = true) (hstep : w.step event = some (w', out)) :
    (∀ r, w'.Hosts r ↔ w.Hosts r) ∧ (∀ r, r ∈ w.rooms → r ∈ w'.rooms) ∧
      w'.pendingOps <:+ w.pendingOps := by
  have hinsert : ∀ {r rs rs'}, w.rooms.lookup r = some rs →
      ∀ a, a ∈ w.rooms.insert r rs' ↔ a ∈ w.rooms := by
    intro r rs rs' hr a
    rw [Finmap.mem_insert, or_iff_right_of_imp]
    rintro rfl
    exact Finmap.mem_of_lookup_eq_some hr
  cases step_cases hstep with
  | drainPendingOp now phase =>
    unfold drainPendingOp
    split
    · exact ⟨fun r => Iff.rfl, fun r hr => hr, List.suffix_refl _⟩
    · rename_i op ops hops
      obtain ⟨r, players, rfl, -⟩ := h.queue op (hops ▸ List.mem_cons_self)
      refine ⟨fun a => ?_, fun a ha => ?_, hops ▸ List.suffix_cons _ _⟩
      · show a ∈ w.rooms.insert r _ ∨ (∃ ps, PendingOp.addRoom a ps ∈ ops) ↔
          a ∈ w.rooms ∨ ∃ ps, PendingOp.addRoom a ps ∈ w.pendingOps
        rw [Finmap.mem_insert, hops]
        constructor
        · rintro ((rfl | ha) | ⟨ps, hps⟩)
          · exact Or.inr ⟨players, List.mem_cons_self⟩
          · exact Or.inl ha
          · exact Or.inr ⟨ps, List.mem_cons_of_mem _ hps⟩
        · rintro (ha | ⟨ps, hps⟩)
          · exact Or.inl (Or.inr ha)
          · rcases List.mem_cons.mp hps with heq | hps
            · exact Or.inl (Or.inl (PendingOp.addRoom.inj heq).1)
            · exact Or.inr ⟨ps, hps⟩
      · exact Finmap.mem_insert.mpr (Or.inr ha)
  | tickBegin order phase once => exact ⟨fun r => Iff.rfl, fun r hr => hr, List.suffix_refl _⟩
  | tickRoom order phase room members =>
    exact ⟨fun a => or_congr (hinsert room a) Iff.rfl, fun a ha => (hinsert room a).mpr ha,
      List.suffix_refl _⟩
  | broadcast phase room => exact ⟨fun r => Iff.rfl, fun r hr => hr, List.suffix_refl _⟩
  | checkDisconnected now phase room =>
    exact ⟨fun a => or_congr (hinsert room a) Iff.rfl, fun a ha => (hinsert room a).mpr ha,
      List.suffix_refl _⟩
  | _ => simp [GameServer.ofThread] at hthread

end LogicWorker

/-! ### The routes and the rooms -/

namespace GameServer

open LogicWorker (UnderLaw)

variable {pb : Protobuf F} {g g' : GameServer σ F}

/-- Every battle is on the worker `room_to_worker_` names, and on no other; the
thread of a worker that has or awaits a battle is started. -/
structure Placed (b : BattleManager F) : Prop where
  two : b.workers.length = 2
  routes : ∀ r i, b.roomToWorker.lookup r = some i → i = b.assignWorker r
  hosts : ∀ (i : ℕ) w, b.workers[i]? = some w → ∀ r,
    w.Hosts r ↔ b.roomToWorker.lookup r = some i
  started : ∀ (i : ℕ) w, b.workers[i]? = some w → (∃ r, w.Hosts r) → i ∈ b.started

omit [FloatOps F] in
theorem placed_create : Placed (BattleManager.create 2 : BattleManager F) := by
  have hempty : ∀ (i : ℕ) w, (BattleManager.create 2 : BattleManager F).workers[i]? = some w →
      ∀ r, ¬ w.Hosts r := by
    intro i w hw r hr
    obtain ⟨-, rfl⟩ := List.mem_replicate.mp (List.mem_of_getElem? hw)
    rcases hr with hr | ⟨players, hr⟩
    · exact absurd hr Finmap.notMem_empty
    · cases hr
  have htable : ∀ r, (BattleManager.create 2 : BattleManager F).roomToWorker.lookup r = none :=
    fun r => Finmap.lookup_empty r
  refine ⟨rfl, ?_, ?_, ?_⟩
  · intro r i hi
    rw [htable] at hi
    cases hi
  · intro i w hw r
    rw [htable, iff_false_right nofun]
    exact hempty i w hw r
  · rintro i w hw ⟨r, hr⟩
    exact absurd hr (hempty i w hw r)

section Moves

variable {b b' : BattleManager F} {P : ℕ → RoomId → Players F → Prop}

omit [FloatOps F] in
theorem roomCount_pos {w : LogicWorker F} {r : RoomId} (h : r ∈ w.rooms) : 1 ≤ w.roomCount := by
  rw [Nat.one_le_iff_ne_zero, Ne, LogicWorker.roomCount_eq_zero]
  exact fun hnone => hnone r h

theorem Placed.dispatchCommand (h : Placed b) (r : RoomId) (cmd : Command F) :
    Placed (b.dispatchCommand r cmd) := by
  have hstep : BattleManager.Steps b (.dispatchCommand r cmd) (b.dispatchCommand r cmd) :=
    .dispatchCommand
  have hworker : ∀ (i : ℕ) w', (b.dispatchCommand r cmd).workers[i]? = some w' →
      ∃ w, b.workers[i]? = some w ∧ ∀ a, w'.Hosts a ↔ w.Hosts a := by
    intro i w' hw'
    rw [BattleManager.workers_step hstep] at hw'
    obtain ⟨w, hw, rfl⟩ := Option.map_eq_some_iff.mp hw'
    refine ⟨w, hw, fun a => ?_⟩
    unfold BattleManager.after
    dsimp only
    split
    · exact Iff.rfl
    · exact Iff.rfl
  have hstarted : (b.dispatchCommand r cmd).started = b.started := by
    unfold BattleManager.dispatchCommand
    split
    · rfl
    · rfl
  have htable : (b.dispatchCommand r cmd).roomToWorker = b.roomToWorker :=
    BattleManager.roomToWorker_step hstep
  have hlen := BattleManager.length_step hstep
  refine ⟨hlen.trans h.two, ?_, ?_, ?_⟩
  · intro a i hi
    rw [BattleManager.assignWorker, hlen]
    exact h.routes a i (htable ▸ hi)
  · intro i w' hw' a
    obtain ⟨w, hw, hiff⟩ := hworker i w' hw'
    rw [hiff, htable, h.hosts i w hw]
  · rintro i w' hw' ⟨a, ha⟩
    obtain ⟨w, hw, hiff⟩ := hworker i w' hw'
    exact hstarted ▸ h.started i w hw ⟨a, (hiff a).mp ha⟩

omit [FloatOps F] in
/-- The loop of `startBattle` leaves no worker waiting that has no room. -/
theorem hosts_wake {w : LogicWorker F} (hkeeps : w.KeepsRooms) (now : ℤ) :
    (∀ a, (if w.roomCount = 0 then w.drainPendingOps now else w).Hosts a ↔ w.Hosts a) ∧
      ((∃ a, w.Hosts a) → 1 ≤ (if w.roomCount = 0 then w.drainPendingOps now else w).roomCount) := by
  by_cases hcount : w.roomCount = 0
  · rw [if_pos hcount]
    refine ⟨LogicWorker.hosts_drainPendingOps hkeeps now, ?_⟩
    rintro ⟨a, ha⟩
    exact roomCount_pos ((LogicWorker.mem_rooms_drainPendingOps hkeeps now a).mpr ha)
  · rw [if_neg hcount]
    exact ⟨fun a => Iff.rfl, fun _ => Nat.one_le_iff_ne_zero.mpr hcount⟩

theorem Placed.launch (h : Placed b) (hlaw : ∀ (i : ℕ) w, b.workers[i]? = some w → UnderLaw (P i) w)
    {room : Room} {order : List PlayerId}
    (hmembers : (order : Multiset PlayerId) = room.players.keys.val) (now : ℤ) :
    Placed (b.launch room order now) := by
  have hstep : BattleManager.Steps b (.startBattle room order now) (b.launch room order now) :=
    .startBattle hmembers
  have hlen := BattleManager.length_step hstep
  have htable := BattleManager.roomToWorker_step hstep
  dsimp only at htable
  have hworker : ∀ (i : ℕ) w', (b.launch room order now).workers[i]? = some w' →
      ∃ w, b.workers[i]? = some w ∧
        (∀ a, w'.Hosts a ↔ w.Hosts a ∨ a = room.roomId ∧ b.assignWorker room.roomId = i) ∧
        ((∃ a, w'.Hosts a) → 1 ≤ w'.roomCount) := by
    intro i w' hw'
    rw [BattleManager.workers_step hstep] at hw'
    obtain ⟨w, hw, rfl⟩ := Option.map_eq_some_iff.mp hw'
    refine ⟨w, hw, ?_⟩
    have hkeeps := (hlaw i w hw).keepsRooms
    unfold BattleManager.after
    dsimp only
    by_cases hi : b.assignWorker room.roomId = i
    · rw [if_pos hi]
      have hkeeps' : (w.enqueue
          (.addRoom room.roomId (BattleManager.battlePlayers room order))).KeepsRooms :=
        BattleManager.keepsRooms_enqueue hkeeps nofun
      obtain ⟨hsame, hcount⟩ := hosts_wake hkeeps' now
      refine ⟨fun a => ?_, fun ⟨a, ha⟩ => hcount ⟨a, (hsame a).mp ha⟩⟩
      rw [hsame, LogicWorker.hosts_enqueue, and_iff_left hi]
    · rw [if_neg hi]
      obtain ⟨hsame, hcount⟩ := hosts_wake hkeeps now
      refine ⟨fun a => ?_, fun ⟨a, ha⟩ => hcount ⟨a, (hsame a).mp ha⟩⟩
      rw [hsame, or_iff_left fun hand => hi hand.2]
  have hassign : ∀ a, (b.launch room order now).assignWorker a = b.assignWorker a := by
    intro a
    rw [BattleManager.assignWorker, hlen, BattleManager.assignWorker]
  refine ⟨hlen.trans h.two, ?_, ?_, ?_⟩
  · intro a i hi
    rw [htable, Finmap.lookup_insert_eq] at hi
    rw [hassign]
    split at hi
    · rename_i ha
      rw [ha]
      exact (Option.some.inj hi).symm
    · exact h.routes a i hi
  · intro i w' hw' a
    obtain ⟨w, hw, hiff, -⟩ := hworker i w' hw'
    rw [hiff, h.hosts i w hw, htable, Finmap.lookup_insert_eq]
    by_cases ha : a = room.roomId
    · subst ha
      rw [if_pos rfl, Option.some_inj]
      constructor
      · rintro (hold | ⟨-, hi⟩)
        · exact (h.routes _ i hold).symm
        · exact hi
      · exact fun hi => Or.inr ⟨rfl, hi⟩
    · rw [if_neg ha, or_iff_left fun hand => ha hand.1]
  · rintro i w' hw' hex
    obtain ⟨w, -, -, hcount⟩ := hworker i w' hw'
    have hpos := hcount hex
    obtain ⟨hlt, -⟩ := List.getElem?_eq_some_iff.mp hw'
    apply Finset.mem_union_right
    refine Finset.mem_filter.mpr ⟨Finset.mem_range.mpr hlt, ?_⟩
    change 1 ≤ (((b.launch room order now).workers[i]?).map LogicWorker.roomCount).getD 0
    rw [hw']
    exact hpos

omit [FloatOps F] in
theorem Placed.set (h : Placed b) {i : ℕ} {w w' : LogicWorker F} (hw : b.workers[i]? = some w)
    (hsame : ∀ r, w'.Hosts r ↔ w.Hosts r) : Placed { b with workers := b.workers.set i w' } := by
  have hworker : ∀ (j : ℕ) u, (b.workers.set i w')[j]? = some u →
      ∃ v, b.workers[j]? = some v ∧ ∀ r, u.Hosts r ↔ v.Hosts r := by
    intro j u hu
    rw [List.getElem?_set] at hu
    split at hu
    · rename_i hij
      split at hu
      · obtain rfl := Option.some.inj hu
        exact ⟨w, hij ▸ hw, hsame⟩
      · cases hu
    · exact ⟨u, hu, fun r => Iff.rfl⟩
  have hlen : (b.workers.set i w').length = b.workers.length := List.length_set
  refine ⟨hlen.trans h.two, ?_, ?_, ?_⟩
  · intro r j hj
    show j = r % (b.workers.set i w').length
    rw [hlen]
    exact h.routes r j hj
  · intro j u hu r
    obtain ⟨v, hv, hiff⟩ := hworker j u hu
    rw [hiff]
    exact h.hosts j v hv r
  · rintro j u hu ⟨r, hr⟩
    obtain ⟨v, hv, hiff⟩ := hworker j u hu
    exact h.started j v hv ⟨r, (hiff r).mp hr⟩

end Moves

theorem placed_step (h : Placed g.battle) {P : ℕ → RoomId → Players F → Prop}
    (hlaw : ∀ (i : ℕ) w, g.battle.workers[i]? = some w → UnderLaw (P i) w)
    {e : ServerEvent F × ServerOut F} (hstep : Steps pb g e g') : Placed g'.battle := by
  cases battleMove_step hstep.1 with
  | same battle quiet => rwa [battle]
  | command type battle quiet =>
    rw [battle]
    exact h.dispatchCommand _ _
  | start found same members battle enqueued =>
    rw [battle, BattleManager.startBattle_fst]
    exact h.launch hlaw members _
  | worker started thread worker step battle quiet =>
    rw [battle]
    exact h.set worker (LogicWorker.hosts_step (hlaw _ _ worker) thread step).1

theorem placed_run {store : σ} {roomSize : ℤ} {as : List (ServerEvent F × ServerOut F)}
    (h : Transition.Run (Steps pb) (init store roomSize) as g) : Placed g.battle := by
  refine (h.record (I := fun as g => Transition.Run (Steps pb) (init store roomSize) as g ∧
    Placed g.battle) ?_ ⟨.nil, placed_create⟩).2
  rintro past g e g' ⟨hpast, hplaced⟩ hstep
  exact ⟨hpast.append (.single hstep),
    placed_step hplaced (roomLaw_run memberLaw hpast) hstep⟩

/-- **Where the battles are.**  In every reachable state the battle of a room
is on the worker of its number, whose thread is started, and on no other; and
those who fight in it are members of the room. -/
theorem battles_placed {store : σ} {roomSize : ℤ} {as : List (ServerEvent F × ServerOut F)}
    (h : Transition.Run (Steps pb) (init store roomSize) as g) (r : RoomId) :
    (∀ i, g.battle.roomToWorker.lookup r = some i → i = r % 2 ∧ i ∈ g.battle.started) ∧
    (∀ (i : ℕ) w, g.battle.workers[i]? = some w →
      (w.Hosts r ↔ g.battle.roomToWorker.lookup r = some i) ∧
      ∀ rs, w.rooms.lookup r = some rs → ∀ pid ∈ rs.players, g.Member pid r) := by
  have hplaced := placed_run h
  refine ⟨?_, ?_⟩
  · intro i hi
    have hroute := hplaced.routes r i hi
    rw [BattleManager.assignWorker, hplaced.two] at hroute
    have hlt : i < g.battle.workers.length := by
      rw [hplaced.two, hroute]
      exact Nat.mod_lt r Nat.two_pos
    have hw := List.getElem?_eq_getElem hlt
    exact ⟨hroute, hplaced.started i _ hw ⟨r, (hplaced.hosts i _ hw r).mpr hi⟩⟩
  · intro i w hw
    refine ⟨hplaced.hosts i w hw r, ?_⟩
    intro rs hrs
    exact ((roomLaw_run memberLaw h i w hw).rooms r rs hrs).1.2

/-- After `soloBattle` the battle of room 1 is on the worker 1. -/
theorem battles_placed_soloBattle : ∃ g : GameServer MemoryStore ℚ,
    g.battle.roomToWorker.lookup 1 = some 1 ∧
    (∀ i, g.battle.roomToWorker.lookup 1 = some i → i = 1 % 2 ∧ i ∈ g.battle.started) ∧
    (∀ (i : ℕ) w, g.battle.workers[i]? = some w →
      (w.Hosts 1 ↔ g.battle.roomToWorker.lookup 1 = some i) ∧
      ∀ rs, w.rooms.lookup 1 = some rs → ∀ pid ∈ rs.players, g.Member pid 1) := by
  have hrun : (exec annRequests (init ({} : MemoryStore) 1) soloBattle).map (fun p =>
      p.1.battle.roomToWorker.lookup 1) = some (some 1) := by
    decide +kernel
  obtain ⟨⟨g, as⟩, hexec, htable⟩ := Option.map_eq_some_iff.mp hrun
  exact ⟨g, htable, battles_placed (run_of_exec hexec) 1⟩

end GameServer

end MiniArena
