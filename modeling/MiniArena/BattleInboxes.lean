/-
MiniArena/BattleInboxes.lean

The two inboxes of a battle worker.

`startBattle` puts the room on `pending_ops_` and a command goes to
`cmd_queue_`.  The worker's loop empties the one in `drainPendingOps` and the
other at the head of `tick`, so a command may be drained before the room it
was sent to, although it was sent later: the tick finds no such room and the
command is gone.

A `Passage` is a run in which a battle is started, a command is dispatched to
it, and the next tick of the worker drains the command.  `executed_iff` says
which passages end well: those in which the worker had no room when the
battle was started, so that `startBattle` drained the queue itself, and those
in which somebody drained it before the tick.
-/
import MiniArena.CommandRouting

namespace MiniArena

variable {F : Type}

open TickEngine LogicWorker

namespace LogicWorker

/-! ### Applying the operations -/

/-- `AddRoom` of the room `r` is in the queue. -/
def Awaits (w : LogicWorker F) (r : RoomId) : Prop :=
  ∃ players, PendingOp.addRoom r players ∈ w.pendingOps

/-- No room is about to be removed. -/
def KeepsRooms (w : LogicWorker F) : Prop := ∀ r, PendingOp.removeRoom r ∉ w.pendingOps

theorem roomCount_eq_zero {w : LogicWorker F} : w.roomCount = 0 ↔ ∀ r, r ∉ w.rooms := by
  rw [roomCount, Finset.card_eq_zero, Finset.eq_empty_iff_forall_notMem]
  simp only [Finmap.mem_keys]

theorem mem_rooms_applyOp {w : LogicWorker F} {now : ℤ} {op : PendingOp F} {r : RoomId}
    (hop : op ≠ .removeRoom r) :
    r ∈ (w.applyOp now op).rooms ↔ r ∈ w.rooms ∨ ∃ players, op = .addRoom r players := by
  cases op with
  | addRoom r' players =>
    show r ∈ w.rooms.insert r' _ ↔ _
    rw [Finmap.mem_insert]
    by_cases h : r = r'
    · simp [h]
    · simp [h, Ne.symm h]
  | removeRoom r' =>
    have hne : r ≠ r' := by
      rintro rfl
      exact hop rfl
    show r ∈ w.rooms.erase r' ↔ _
    simp [Finmap.mem_erase, hne]
  | markDisconnected r' pid =>
    show r ∈ w.rooms.modify r' _ ↔ _
    rw [← Finmap.mem_keys, Finmap.keys_modify, Finmap.mem_keys]
    simp

theorem mem_rooms_applyOps {w : LogicWorker F} {now : ℤ} {ops : List (PendingOp F)} {r : RoomId}
    (hops : .removeRoom r ∉ ops) :
    r ∈ (ops.foldl (fun w op => w.applyOp now op) w).rooms ↔
      r ∈ w.rooms ∨ ∃ players, .addRoom r players ∈ ops := by
  induction ops generalizing w with
  | nil => simp
  | cons op ops ih =>
    rw [List.mem_cons, not_or] at hops
    rw [List.foldl_cons, ih hops.2, mem_rooms_applyOp (Ne.symm hops.1), or_assoc]
    simp only [List.mem_cons, exists_or, eq_comm]

/-- **Draining**: the rooms waiting are there, and nothing waits. -/
theorem mem_rooms_drainPendingOps {w : LogicWorker F} (hw : w.KeepsRooms) (now : ℤ) (r : RoomId) :
    r ∈ (w.drainPendingOps now).rooms ↔ r ∈ w.rooms ∨ w.Awaits r := by
  rw [drainPendingOps, mem_rooms_applyOps (hw r)]
  rfl

/-- Only the rooms and the queue of operations are touched. -/
theorem drainPendingOps_spec (w : LogicWorker F) (now : ℤ) :
    (w.drainPendingOps now).pendingOps = [] ∧ (w.drainPendingOps now).cmdQueue = w.cmdQueue ∧
      (w.drainPendingOps now).phase = w.phase := by
  have key : ∀ (ops : List (PendingOp F)) (u : LogicWorker F),
      (ops.foldl (fun w op => w.applyOp now op) u).pendingOps = u.pendingOps ∧
        (ops.foldl (fun w op => w.applyOp now op) u).cmdQueue = u.cmdQueue ∧
        (ops.foldl (fun w op => w.applyOp now op) u).phase = u.phase := by
    intro ops
    induction ops with
    | nil => exact fun u => ⟨rfl, rfl, rfl⟩
    | cons op ops ih =>
      intro u
      rw [List.foldl_cons, (ih _).1, (ih _).2.1, (ih _).2.2]
      cases op <;> exact ⟨rfl, rfl, rfl⟩
  exact key _ _

variable [FloatOps F]

theorem mem_rooms_tick {w w' : LogicWorker F} {visits : List Visit} (hidle : w.phase = .idle)
    (hc : Covers visits w.rooms) (h : w.tick visits = some w') (r : RoomId) :
    r ∈ w'.rooms ↔ r ∈ w.rooms := by
  have hmembers : members w'.rooms r = members w.rooms r := by
    rw [BattleManager.rooms_tick hidle hc h, members_visits]
    rfl
  have hiff : ∀ rooms : WorkerRooms F, r ∈ rooms ↔ (members rooms r).isSome := by
    intro rooms
    rw [members, Option.isSome_map, Finmap.lookup_isSome]
  rw [hiff, hmembers, ← hiff]

/-! ### The turn of a command -/

/-- The engine and the players of the room `r` when the batch of the tick has
come to the command after `ahead`.  There is no such moment for a room the
worker does not have. -/
def turn (w : LogicWorker F) (visits : List Visit) (r : RoomId) (ahead : List (Command F)) :
    Option (TickEngine × Players F) :=
  let s := (visits.takeWhile fun v => v.room ≠ r).foldl (visit w.cmdQueue) w.core
  (s.2.lookup r).map fun rs => ahead.foldl act (s.1, rs.players)

theorem turn_isSome {w : LogicWorker F} {visits : List Visit} {r : RoomId}
    {ahead : List (Command F)} : (w.turn visits r ahead).isSome = true ↔ r ∈ w.rooms := by
  have hr : r ∉ (visits.takeWhile fun v => v.room ≠ r).map Visit.room := by
    intro h
    obtain ⟨v, hv, rfl⟩ := List.mem_map.mp h
    have := List.mem_takeWhile_imp hv
    simp at this
  rw [turn, Option.isSome_map, lookup_visits_of_notMem _ _ hr, Finmap.lookup_isSome]
  rfl

/-- What the tick makes of the room from there on. -/
theorem players_tick {w w' : LogicWorker F} {visits : List Visit} {r : RoomId}
    {ahead later : List (Command F)} {s : TickEngine × Players F} (hidle : w.phase = .idle)
    (hc : Covers visits w.rooms) (h : w.tick visits = some w')
    (hqueue : w.cmdQueue = ahead ++ later) (hturn : w.turn visits r ahead = some s) :
    ∃ rs now, playersOf w'.rooms r =
      some (checkDisconnected (afterCommands rs (later.foldl act s).2) now).players := by
  have hmem : r ∈ visits.map Visit.room := by
    have hr : r ∈ w.rooms := turn_isSome.mp (Option.isSome_iff_exists.mpr ⟨s, hturn⟩)
    rw [← Finmap.mem_keys, ← Finset.mem_val, ← hc.once] at hr
    exact Multiset.mem_coe.mp hr
  obtain ⟨v, after, hsplit, rfl⟩ : ∃ v after,
      visits = (visits.takeWhile fun v => v.room ≠ r) ++ v :: after ∧ v.room = r := by
    rcases hdrop : visits.dropWhile fun v => v.room ≠ r with - | ⟨v, after⟩
    · obtain ⟨v, hv, rfl⟩ := List.mem_map.mp hmem
      have := List.dropWhile_eq_nil_iff.mp hdrop v hv
      simp at this
    · refine ⟨v, after, ?_, ?_⟩
      · rw [← hdrop, List.takeWhile_append_dropWhile]
      · have hne : (visits.dropWhile fun v => v.room ≠ r) ≠ [] := by
          rw [hdrop]
          exact List.cons_ne_nil _ _
        have := List.head_dropWhile_not (fun v : Visit => decide (v.room ≠ r)) hne
        simp only [hdrop, List.head_cons] at this
        simpa using this
  rw [turn] at hturn
  -- the room is visited once, so nothing later touches it
  generalize (visits.takeWhile fun u => u.room ≠ v.room) = before at hsplit hturn
  subst hsplit
  have hnodup := hc.nodup
  rw [List.map_append, List.map_cons] at hnodup
  have hafter : v.room ∉ after.map Visit.room :=
    (List.nodup_cons.mp (List.nodup_append.mp hnodup).2.1).1
  obtain ⟨rs, hrs, rfl⟩ := Option.map_eq_some_iff.mp hturn
  refine ⟨rs, v.now, ?_⟩
  rw [playersOf, BattleManager.rooms_tick hidle hc h, List.foldl_append, List.foldl_cons,
    lookup_visits_of_notMem _ _ hafter, visit_eq hrs, Finmap.lookup_insert, Option.map_some,
    hqueue, List.foldl_append]

end LogicWorker

namespace BattleManager

variable [FloatOps F]

/-- `startBattle`, as far as the battles are concerned. -/
def launch (b : BattleManager F) (room : Room) (order : List PlayerId) (now : ℤ) :
    BattleManager F :=
  let i := b.assignWorker room.roomId
  let b := b.push i (.addRoom room.roomId (battlePlayers room order))
  ({ b with roomToWorker := b.roomToWorker.insert room.roomId i } : BattleManager F).wake now

theorem startBattle_fst {σ : Type} [Storage σ] (b : BattleManager F) (room : Room)
    (m : SessionManager σ) (order : List PlayerId) (now : ℤ) :
    (b.startBattle room m order now).1 = b.launch room order now := rfl

/-! ### The workers and the I/O threads -/

inductive InboxEvent (F : Type)
  | startBattle (room : Room) (order : List PlayerId) (now : ℤ)
  | dispatchCommand (r : RoomId) (cmd : Command F)
  | onPlayerDisconnect (pid : PlayerId) (r : RoomId)
  | drainPendingOps (i : ℕ) (now : ℤ)
  /-- `cmd_queue_` is drained and the batch is offered to the rooms. -/
  | tick (i : ℕ) (visits : List Visit)

/-- One step, of a worker's thread or of an I/O thread. -/
inductive Steps : BattleManager F → InboxEvent F → BattleManager F → Prop
  | startBattle {b room} {order : List PlayerId} {now} (members : (order : Multiset PlayerId) = room.players.keys.val) :
      Steps b (.startBattle room order now) (b.launch room order now)
  | dispatchCommand {b r cmd} : Steps b (.dispatchCommand r cmd) (b.dispatchCommand r cmd)
  | onPlayerDisconnect {b pid r} :
      Steps b (.onPlayerDisconnect pid r) (b.onPlayerDisconnect pid r).1
  | drainPendingOps {b i now} :
      Steps b (.drainPendingOps i now)
        { b with workers := b.workers.modify i fun w => w.drainPendingOps now }
  | tick {b i visits w w'} (started : i ∈ b.started) (worker : b.workers[i]? = some w)
      (covers : Covers visits w.rooms) (tick : w.tick visits = some w') :
      Steps b (.tick i visits) { b with workers := b.workers.set i w' }

/-- What a step makes of the worker `j`. -/
def after (b : BattleManager F) (j : ℕ) (w : LogicWorker F) : InboxEvent F → LogicWorker F
  | .startBattle room order now =>
      let w := if b.assignWorker room.roomId = j then
          w.enqueue (.addRoom room.roomId (battlePlayers room order)) else w
      if w.roomCount = 0 then w.drainPendingOps now else w
  | .dispatchCommand r cmd => if b.roomToWorker.lookup r = some j then w.pushCommands [cmd] else w
  | .onPlayerDisconnect pid r =>
      if b.roomToWorker.lookup r = some j then w.enqueue (.markDisconnected r pid) else w
  | .drainPendingOps i now => if i = j then w.drainPendingOps now else w
  | .tick i visits => if i = j then (w.tick visits).getD w else w

variable {b b' : BattleManager F} {e : InboxEvent F} {j : ℕ}

theorem getElem?_modify_ite {α : Type*} (l : List α) (f : α → α) (i j : ℕ) :
    (l.modify i f)[j]? = (l[j]?).map fun a => if i = j then f a else a := by
  rw [List.getElem?_modify]
  split <;> simp

theorem workers_step (h : Steps b e b') (j : ℕ) :
    b'.workers[j]? = (b.workers[j]?).map fun w => b.after j w e := by
  cases h with
  | @startBattle room order now _ =>
    show (List.map _ ((b.workers.modify _ _)))[j]? = _
    rw [List.getElem?_map, getElem?_modify_ite, Option.map_map]
    rfl
  | @dispatchCommand r cmd =>
    rcases hi : b.roomToWorker.lookup r with - | i
    · simp [dispatchCommand, after, hi]
    · simp [dispatchCommand, after, hi, getElem?_modify_ite, LogicWorker.pushCommands]
  | @onPlayerDisconnect pid r =>
    rcases hi : b.roomToWorker.lookup r with - | i
    · simp [onPlayerDisconnect, after, hi]
    · simp [onPlayerDisconnect, after, hi, push, getElem?_modify_ite]
  | drainPendingOps => exact getElem?_modify_ite _ _ _ _
  | @tick i visits w w' _ worker _ tick =>
    show (b.workers.set i w')[j]? = _
    rw [List.getElem?_set]
    by_cases hij : i = j
    · subst hij
      obtain ⟨hlt, -⟩ := List.getElem?_eq_some_iff.mp worker
      rw [if_pos rfl, if_pos hlt, worker, Option.map_some]
      simp only [after, if_pos, tick, Option.getD_some]
    · simp [after, hij]

/-! ### Invariants -/

/-- Between two steps no worker is in the middle of a tick, no room is about to be
removed, and a room on a worker, or on its way there, is in `room_to_worker_`. -/
structure Tidy (b : BattleManager F) : Prop where
  idle : ∀ (j : ℕ) w, b.workers[j]? = some w → w.phase = .idle
  keeps : ∀ (j : ℕ) w, b.workers[j]? = some w → w.KeepsRooms
  started : ∀ (j : ℕ) w, b.workers[j]? = some w → ∀ r, (r ∈ w.rooms ∨ w.Awaits r) →
    r ∈ b.roomToWorker
  routes : ∀ r i, b.roomToWorker.lookup r = some i → i = b.assignWorker r

omit [FloatOps F] in
theorem tidy_create (logicThreads : ℕ) : Tidy (create logicThreads : BattleManager F) := by
  have hfresh : ∀ (j : ℕ) w, (create logicThreads : BattleManager F).workers[j]? = some w →
      w = { bc := Broadcaster.setSendCallback {} } := by
    intro j w hw
    exact List.eq_of_mem_replicate (List.mem_of_getElem? hw)
  refine ⟨?_, ?_, ?_, ?_⟩
  · intro j w hw
    rw [hfresh j w hw]
  · intro j w hw r
    rw [hfresh j w hw]
    exact List.not_mem_nil
  · intro j w hw r hr
    rw [hfresh j w hw] at hr
    rcases hr with hmem | ⟨players, hmem⟩
    · exact absurd hmem (Finmap.notMem_empty)
    · exact absurd hmem List.not_mem_nil
  · intro r i h
    rw [show (create logicThreads : BattleManager F).roomToWorker = ∅ from rfl,
      Finmap.lookup_empty] at h
    cases h

/-- The table of the routes after a step. -/
theorem roomToWorker_step (h : Steps b e b') : b'.roomToWorker = match e with
    | .startBattle room _ _ => b.roomToWorker.insert room.roomId (b.assignWorker room.roomId)
    | _ => b.roomToWorker := by
  cases h with
  | startBattle => rfl
  | @dispatchCommand r cmd =>
    dsimp only
    unfold dispatchCommand
    split <;> rfl
  | @onPlayerDisconnect pid r =>
    dsimp only
    unfold onPlayerDisconnect
    split <;> rfl
  | drainPendingOps => rfl
  | tick => rfl

theorem length_step (h : Steps b e b') : b'.workers.length = b.workers.length := by
  have hlen := fun j => congrArg Option.isSome (workers_step h j)
  simp only [Option.isSome_map] at hlen
  apply le_antisymm
  · by_contra hlt
    have := hlen b.workers.length
    simp at this
    omega
  · by_contra hlt
    have := hlen b'.workers.length
    simp at this
    omega

/-! ### What one step does to one worker -/

/-- The step applies the operations of the worker `w`, which is number `j`. -/
def Drains (j : ℕ) (w : LogicWorker F) : InboxEvent F → Prop
  | .startBattle _ _ _ => w.roomCount = 0
  | .drainPendingOps i _ => i = j
  | _ => False

/-- The step puts `AddRoom` of the room `r` on the queue of the worker `j`. -/
def Starts (b : BattleManager F) (j : ℕ) (r : RoomId) : InboxEvent F → Prop
  | .startBattle room _ _ => room.roomId = r ∧ b.assignWorker r = j
  | _ => False

structure Moves (b : BattleManager F) (j : ℕ) (e : InboxEvent F) (w u : LogicWorker F) :
    Prop where
  idle : u.phase = .idle
  keeps : u.KeepsRooms
  rooms : ∀ r, r ∈ u.rooms ↔ r ∈ w.rooms ∨ Drains j w e ∧ (w.Awaits r ∨ Starts b j r e)
  awaits : ∀ r, u.Awaits r ↔ ¬ Drains j w e ∧ (w.Awaits r ∨ Starts b j r e)
  /-- Only a tick takes commands from the queue. -/
  queue : (∀ visits, e ≠ .tick j visits) → ∃ more, u.cmdQueue = w.cmdQueue ++ more

omit [FloatOps F] in
theorem moves_same {w u : LogicWorker F} (hidle : w.phase = .idle) (hkeeps : w.KeepsRooms)
    (hphase : u.phase = w.phase) (hrooms : ∀ r, r ∈ u.rooms ↔ r ∈ w.rooms)
    (hops : u.pendingOps = w.pendingOps) (hdrains : ¬ Drains j w e) (hstarts : ∀ r, ¬ Starts b j r e)
    (hqueue : (∀ visits, e ≠ .tick j visits) → ∃ more, u.cmdQueue = w.cmdQueue ++ more) :
    Moves b j e w u where
  idle := hphase.trans hidle
  keeps := by
    intro r
    rw [hops]
    exact hkeeps r
  rooms := by
    intro r
    simp [hrooms r, hdrains]
  awaits := by
    intro r
    unfold Awaits
    simp [hops, hdrains, hstarts r]
  queue := hqueue

omit [FloatOps F] in
/-- A worker that a step does not touch. -/
theorem moves_refl {w : LogicWorker F} (hidle : w.phase = .idle) (hkeeps : w.KeepsRooms)
    (hdrains : ¬ Drains j w e) (hstarts : ∀ r, ¬ Starts b j r e) : Moves b j e w w :=
  moves_same hidle hkeeps rfl (fun _ => Iff.rfl) rfl hdrains hstarts
    fun _ => ⟨[], (List.append_nil _).symm⟩

omit [FloatOps F] in
theorem awaits_enqueue {w : LogicWorker F} {op : PendingOp F} {r : RoomId} :
    (w.enqueue op).Awaits r ↔ w.Awaits r ∨ ∃ players, op = .addRoom r players := by
  unfold Awaits LogicWorker.enqueue
  simp only [List.mem_append, List.mem_singleton, exists_or, eq_comm]

omit [FloatOps F] in
theorem keepsRooms_enqueue {w : LogicWorker F} (h : w.KeepsRooms) {op : PendingOp F}
    (hop : ∀ r, op ≠ .removeRoom r) : (w.enqueue op).KeepsRooms := by
  intro r hmem
  rcases List.mem_append.mp hmem with hold | hnew
  · exact h r hold
  · exact hop r (List.mem_singleton.mp hnew).symm

omit [FloatOps F] in
/-- Draining a worker on which the starts of this step are already enqueued. -/
theorem moves_drain {w u : LogicWorker F} (hidle : u.phase = .idle) (hkeeps : u.KeepsRooms)
    (hrooms : u.rooms = w.rooms) (hqueue : u.cmdQueue = w.cmdQueue)
    (hawaits : ∀ r, u.Awaits r ↔ w.Awaits r ∨ Starts b j r e) (hdrains : Drains j w e) (now : ℤ) :
    Moves b j e w (u.drainPendingOps now) := by
  obtain ⟨hops, hcmds, hphase⟩ := drainPendingOps_spec u now
  refine ⟨hphase.trans hidle, ?_, ?_, ?_, ?_⟩
  · intro r
    rw [hops]
    exact List.not_mem_nil
  · intro r
    rw [mem_rooms_drainPendingOps hkeeps, hrooms, hawaits]
    simp [hdrains]
  · intro r
    unfold Awaits
    simp [hops, hdrains]
  · intro _
    exact ⟨[], by rw [hcmds, hqueue, List.append_nil]⟩

omit [FloatOps F] in
/-- The first half of `startBattle`, seen from a worker: the room is enqueued here,
or on another worker. -/
theorem enqueued_startBattle {w : LogicWorker F} (hkeeps : w.KeepsRooms) (room : Room)
    (order : List PlayerId) (now : ℤ) (op : PendingOp F)
    (hop : ∃ players, op = .addRoom room.roomId players) :
    ∃ u, (if b.assignWorker room.roomId = j then w.enqueue op else w) = u ∧
      u.phase = w.phase ∧ u.rooms = w.rooms ∧ u.cmdQueue = w.cmdQueue ∧ u.KeepsRooms ∧
      ∀ r, u.Awaits r ↔ w.Awaits r ∨ Starts b j r (.startBattle room order now) := by
  obtain ⟨players, rfl⟩ := hop
  refine ⟨_, rfl, ?_⟩
  split
  · rename_i hj
    refine ⟨rfl, rfl, rfl, keepsRooms_enqueue hkeeps (by simp), ?_⟩
    intro r
    rw [awaits_enqueue, Starts]
    refine or_congr_right ?_
    constructor
    · rintro ⟨players', heq⟩
      obtain ⟨rfl, -⟩ := PendingOp.addRoom.inj heq
      exact ⟨rfl, hj⟩
    · rintro ⟨rfl, -⟩
      exact ⟨_, rfl⟩
  · rename_i hj
    refine ⟨rfl, rfl, rfl, hkeeps, ?_⟩
    intro r
    have hno : ¬ Starts b j r (.startBattle room order now) := by
      rintro ⟨rfl, hj'⟩
      exact hj hj'
    simp [hno]

theorem moves_step (h : Steps b e b') (ht : Tidy b) {w : LogicWorker F}
    (hw : b.workers[j]? = some w) : Moves b j e w (b.after j w e) := by
  have hidle := ht.idle j w hw
  have hkeeps := ht.keeps j w hw
  cases h with
  | @startBattle room order now _ =>
    obtain ⟨u, hu, hphase, hrooms, hqueue, hukeeps, hawaits⟩ :=
      enqueued_startBattle (b := b) (j := j) hkeeps room order now
        (.addRoom room.roomId (battlePlayers room order)) ⟨_, rfl⟩
    have hcount : u.roomCount = w.roomCount := by rw [roomCount, hrooms, roomCount]
    simp only [after, hu]
    split
    · rename_i hzero
      have hdrains : Drains j w (.startBattle room order now) := hcount.symm.trans hzero
      exact moves_drain (hphase.trans hidle) hukeeps hrooms hqueue hawaits hdrains now
    · rename_i hzero
      have hdrains : ¬ Drains j w (.startBattle room order now) := fun h => hzero (hcount.trans h)
      refine ⟨hphase.trans hidle, hukeeps, ?_, ?_, ?_⟩
      · intro r
        simp [hrooms, hdrains]
      · intro r
        simp [hawaits r, hdrains]
      · intro _
        exact ⟨[], by rw [hqueue, List.append_nil]⟩
  | @dispatchCommand r cmd =>
    simp only [after]
    split
    · exact moves_same hidle hkeeps rfl (fun _ => Iff.rfl) rfl id (fun _ => id)
        fun _ => ⟨[cmd], rfl⟩
    · exact moves_refl hidle hkeeps id fun _ => id
  | @onPlayerDisconnect pid r =>
    simp only [after]
    split
    · refine ⟨hidle, keepsRooms_enqueue hkeeps (by simp), ?_, ?_, ?_⟩
      · intro r'
        simp [Drains, LogicWorker.enqueue]
      · intro r'
        simp [awaits_enqueue, Drains, Starts]
      · intro _
        exact ⟨[], (List.append_nil _).symm⟩
    · exact moves_refl hidle hkeeps id fun _ => id
  | @drainPendingOps i now =>
    simp only [after]
    split
    · rename_i hij
      have hdrains : Drains j w (.drainPendingOps i now) := hij
      exact moves_drain hidle hkeeps rfl rfl (fun r => by simp [Starts]) hdrains now
    · rename_i hij
      exact moves_refl hidle hkeeps hij fun _ => id
  -- a tick takes the commands; rooms and operations stay
  | @tick i visits w₀ w' started worker covers tick =>
    simp only [after]
    split
    · rename_i hij
      subst hij
      obtain rfl := Option.some.inj (worker.symm.trans hw)
      rw [tick, Option.getD_some]
      exact moves_same hidle hkeeps ((idle_tick hidle covers tick).trans hidle.symm)
        (mem_rooms_tick hidle covers tick) (pendingOps_tick tick) id (fun _ => id)
        fun hno => absurd rfl (hno visits)
    · exact moves_refl hidle hkeeps id fun _ => id

theorem workers_of_step (h : Steps b e b') {u : LogicWorker F} (hu : b'.workers[j]? = some u) :
    ∃ w, b.workers[j]? = some w ∧ u = b.after j w e := by
  rw [workers_step h j] at hu
  obtain ⟨w, hw, rfl⟩ := Option.map_eq_some_iff.mp hu
  exact ⟨w, hw, rfl⟩

theorem tidy_step (h : Steps b e b') (ht : Tidy b) : Tidy b' := by
  refine ⟨?_, ?_, ?_, ?_⟩
  · intro j u hu
    obtain ⟨w, hw, rfl⟩ := workers_of_step h hu
    exact (moves_step h ht hw).idle
  · intro j u hu
    obtain ⟨w, hw, rfl⟩ := workers_of_step h hu
    exact (moves_step h ht hw).keeps
  · intro j u hu r hr
    obtain ⟨w, hw, rfl⟩ := workers_of_step h hu
    have hm := moves_step h ht hw
    have hcases : (r ∈ w.rooms ∨ w.Awaits r) ∨ Starts b j r e := by
      rcases hr with hrooms | hawaits
      · rcases (hm.rooms r).mp hrooms with hold | ⟨-, hold | hnew⟩
        · exact Or.inl (Or.inl hold)
        · exact Or.inl (Or.inr hold)
        · exact Or.inr hnew
      · rcases ((hm.awaits r).mp hawaits).2 with hold | hnew
        · exact Or.inl (Or.inr hold)
        · exact Or.inr hnew
    rw [roomToWorker_step h]
    cases e with
    | startBattle room order now =>
      show r ∈ b.roomToWorker.insert _ _
      rw [Finmap.mem_insert]
      rcases hcases with hold | ⟨rfl, -⟩
      · exact Or.inr (ht.started j w hw r hold)
      · exact Or.inl rfl
    | _ =>
      rcases hcases with hold | hnew
      · exact ht.started j w hw r hold
      · exact hnew.elim
  · intro r i hi
    rw [assignWorker, length_step h]
    rw [roomToWorker_step h] at hi
    cases e with
    | startBattle room order now =>
      dsimp only at hi
      rw [Finmap.lookup_insert_eq] at hi
      split at hi
      · rename_i heq
        obtain rfl := Option.some.inj hi
        rw [heq]
        rfl
      · exact ht.routes r i hi
    | _ => exact ht.routes r i hi

/-! ### Runs -/

variable {es : List (InboxEvent F)}

theorem tidy_run (h : Transition.Run Steps b es b') (ht : Tidy b) : Tidy b' :=
  h.invariant (fun _ _ _ ht hstep => tidy_step hstep ht) ht

/-- A room on a worker stays there. -/
theorem mem_rooms_run (h : Transition.Run Steps b es b') (ht : Tidy b) {w w' : LogicWorker F}
    (hw : b.workers[j]? = some w) (hw' : b'.workers[j]? = some w') {r : RoomId} (hr : r ∈ w.rooms) :
    r ∈ w'.rooms := by
  induction h generalizing w with
  | nil =>
    obtain rfl := Option.some.inj (hw.symm.trans hw')
    exact hr
  | cons hstep _ ih =>
    have hu := workers_step hstep j
    rw [hw, Option.map_some] at hu
    exact ih (tidy_step hstep ht) hu hw' (((moves_step hstep ht hw).rooms r).mpr (Or.inl hr))

/-- **A room that waits** at a worker with rooms gets there when somebody
drains the worker. -/
theorem mem_rooms_of_awaits (h : Transition.Run Steps b es b') (ht : Tidy b)
    {w w' : LogicWorker F} (hw : b.workers[j]? = some w) (hw' : b'.workers[j]? = some w')
    {r : RoomId} (hcount : w.roomCount ≠ 0) (hawaits : w.Awaits r) :
    r ∈ w'.rooms ↔ r ∈ w.rooms ∨ ∃ now, .drainPendingOps j now ∈ es := by
  induction h generalizing w with
  | nil =>
    obtain rfl := Option.some.inj (hw.symm.trans hw')
    simp
  | @cons b e b₁ es b' hstep hrest ih =>
    have hu := workers_step hstep j
    rw [hw, Option.map_some] at hu
    have hm := moves_step hstep ht hw
    have ht₁ := tidy_step hstep ht
    -- the worker has rooms, so no `startBattle` drains it
    by_cases hdrains : Drains j w e
    · obtain ⟨now, rfl⟩ : ∃ now, e = .drainPendingOps j now := by
        cases e with
        | startBattle => exact absurd hdrains hcount
        | drainPendingOps i now => exact ⟨now, congrArg (InboxEvent.drainPendingOps · now) hdrains⟩
        | _ => exact hdrains.elim
      have hr := mem_rooms_run hrest ht₁ hu hw'
        ((hm.rooms r).mpr (Or.inr ⟨hdrains, Or.inl hawaits⟩))
      exact iff_of_true hr (Or.inr ⟨now, List.mem_cons_self⟩)
    · -- the room waits on, and the worker keeps the rooms it has
      have hcount₁ : (b.after j w e).roomCount ≠ 0 := by
        intro hzero
        apply hcount
        rw [roomCount_eq_zero] at hzero ⊢
        exact fun r' hr' => hzero r' ((hm.rooms r').mpr (Or.inl hr'))
      have hne : ∀ now, e ≠ .drainPendingOps j now := by
        rintro now rfl
        exact hdrains rfl
      rw [ih ht₁ hu hw' hcount₁ ((hm.awaits r).mpr ⟨hdrains, Or.inl hawaits⟩), hm.rooms r]
      simp [hdrains, fun now => (hne now).symm]

/-- Without a tick the queue of commands only grows. -/
theorem cmdQueue_run (h : Transition.Run Steps b es b') (ht : Tidy b) {w w' : LogicWorker F}
    (hw : b.workers[j]? = some w) (hw' : b'.workers[j]? = some w')
    (hno : ∀ visits, .tick j visits ∉ es) : ∃ more, w'.cmdQueue = w.cmdQueue ++ more := by
  induction h generalizing w with
  | nil =>
    obtain rfl := Option.some.inj (hw.symm.trans hw')
    exact ⟨[], (List.append_nil _).symm⟩
  | cons hstep _ ih =>
    have hu := workers_step hstep j
    rw [hw, Option.map_some] at hu
    obtain ⟨more, hmore⟩ := (moves_step hstep ht hw).queue
      fun visits heq => hno visits (heq ▸ List.mem_cons_self)
    obtain ⟨rest, hrest⟩ := ih (tidy_step hstep ht) hu hw'
      fun visits hmem => hno visits (List.mem_cons_of_mem _ hmem)
    exact ⟨more ++ rest, by rw [hrest, hmore, List.append_assoc]⟩

/-! ### From the start of a battle to the tick that drains a command for it -/

/-- A run up to a tick: the first battle of a room is started, a command is
dispatched to the room, and the tick is the first of the worker after that. -/
structure Passage (F : Type) [FloatOps F] where
  logicThreads : ℕ
  room : Room
  order : List PlayerId
  now : ℤ
  cmd : Command F
  visits : List Visit
  past : List (InboxEvent F)
  before : BattleManager F
  history : Transition.Run Steps (create logicThreads) past before
  first : room.roomId ∉ before.roomToWorker
  started : BattleManager F
  start : Steps before (.startBattle room order now) started
  between : List (InboxEvent F)
  middle : BattleManager F
  run_between : Transition.Run Steps started between middle
  /-- The worker of the room, when the command is dispatched. -/
  inbox : LogicWorker F
  atDispatch : middle.workers[before.assignWorker room.roomId]? = some inbox
  late : List (InboxEvent F)
  last : BattleManager F
  run_late : Transition.Run Steps (middle.dispatchCommand room.roomId cmd) late last
  untouched : ∀ visits', .tick (before.assignWorker room.roomId) visits' ∉ late
  /-- The worker of the room, when the tick begins. -/
  worker : LogicWorker F
  atTick : last.workers[before.assignWorker room.roomId]? = some worker
  running : before.assignWorker room.roomId ∈ last.started
  covers : Covers visits worker.rooms

namespace Passage

/-- Where the batch of the tick, in the room, has come to the command. -/
def turn (p : Passage F) : Option (TickEngine × Players F) :=
  p.worker.turn p.visits p.room.roomId p.inbox.cmdQueue

/-- The tick drains the command and executes it in the room: the number of the
command becomes its player's mark, and what it makes of the players, followed
by the commands `later` and the disconnect timeout, is what the room has after
the tick. -/
def Executed (p : Passage F) : Prop :=
  ∃ later s q w' rs now, p.worker.cmdQueue = p.inbox.cmdQueue ++ p.cmd :: later ∧
    p.turn = some s ∧ executes ⟨s.1, s.2, []⟩ p.cmd = true ∧
    s.2.lookup p.cmd.playerId = some q ∧ p.worker.tick p.visits = some w' ∧
    playersOf w'.rooms p.room.roomId = some (checkDisconnected (afterCommands rs
      (later.foldl act (⟨s.1.lastSeq.insert p.cmd.playerId p.cmd.sequence⟩,
        (execute {} s.2 p.cmd q).1)).2) now).players

/-- The command is of a member of the room, its number is new to the worker,
and when its turn comes the member lives and the number is still new. -/
structure LivingNew (p : Passage F) : Prop where
  member : p.cmd.playerId ∈ (battlePlayers p.room p.order : Players F)
  unused : HighWater.Admits p.worker.tickEngine.lastSeq p.cmd.playerId p.cmd.sequence
  living : ∀ s, p.turn = some s → ∃ q, s.2.lookup p.cmd.playerId = some q ∧ q.alive = true
  new : ∀ s, p.turn = some s → HighWater.Admits s.1.lastSeq p.cmd.playerId p.cmd.sequence

/-- The worker had no room when the battle was started, or somebody drains its
operations between the start and the tick. -/
def DrainedInTime (p : Passage F) : Prop :=
  (∀ w, p.before.workers[p.before.assignWorker p.room.roomId]? = some w → w.roomCount = 0) ∨
    ∃ now, .drainPendingOps (p.before.assignWorker p.room.roomId) now ∈ p.between ++ p.late

variable (p : Passage F)

theorem tidy : Tidy p.before ∧ Tidy p.started ∧ Tidy p.middle := by
  have hbefore := tidy_run p.history (tidy_create p.logicThreads)
  have hstarted := tidy_step p.start hbefore
  exact ⟨hbefore, hstarted, tidy_run p.run_between hstarted⟩

/-- The route of the room. -/
theorem route : p.middle.roomToWorker.lookup p.room.roomId =
    some (p.before.assignWorker p.room.roomId) := by
  obtain ⟨hbefore, hstarted, hmiddle⟩ := p.tidy
  have hmem : p.room.roomId ∈ p.started.roomToWorker := by
    rw [roomToWorker_step p.start]
    exact (Finmap.mem_insert).mpr (Or.inl rfl)
  have hkept : p.room.roomId ∈ p.middle.roomToWorker ∧
      p.middle.workers.length = p.before.workers.length := by
    refine p.run_between.invariant (I := fun b => p.room.roomId ∈ b.roomToWorker ∧
      b.workers.length = p.before.workers.length) ?_ ⟨hmem, length_step p.start⟩
    rintro b e b' ⟨hin, hlen⟩ hstep
    refine ⟨?_, (length_step hstep).trans hlen⟩
    rw [roomToWorker_step hstep]
    cases e with
    | startBattle => exact (Finmap.mem_insert).mpr (Or.inr hin)
    | _ => exact hin
  obtain ⟨i, hi⟩ := Finmap.mem_iff.mp hkept.1
  rw [hi, hmiddle.routes _ _ hi, assignWorker, assignWorker, hkept.2]

/-- The worker of the room right after the dispatch. -/
theorem dispatched : (p.middle.dispatchCommand p.room.roomId p.cmd).workers[
    p.before.assignWorker p.room.roomId]? = some (p.inbox.pushCommands [p.cmd]) := by
  rw [workers_step Steps.dispatchCommand, p.atDispatch, Option.map_some, after, if_pos p.route]

theorem tidy_last : Tidy p.last :=
  tidy_run p.run_late (tidy_step .dispatchCommand p.tidy.2.2)

/-- **The tick drains the command.** -/
theorem drains : ∃ later, p.worker.cmdQueue = p.inbox.cmdQueue ++ p.cmd :: later := by
  obtain ⟨-, -, hmiddle⟩ := p.tidy
  obtain ⟨later, hlater⟩ := cmdQueue_run p.run_late (tidy_step .dispatchCommand hmiddle)
    p.dispatched p.atTick p.untouched
  refine ⟨later, ?_⟩
  rw [hlater, LogicWorker.pushCommands, List.append_assoc, List.singleton_append]

/-- **When the room is there at the tick.** -/
theorem mem_rooms_iff : p.room.roomId ∈ p.worker.rooms ↔ p.DrainedInTime := by
  obtain ⟨hbefore, hstarted, -⟩ := p.tidy
  have hrun : Transition.Run Steps p.started
      (p.between ++ .dispatchCommand p.room.roomId p.cmd :: p.late) p.last :=
    p.run_between.append (.cons .dispatchCommand p.run_late)
  obtain ⟨w, hw⟩ : ∃ w, p.before.workers[p.before.assignWorker p.room.roomId]? = some w := by
    have hlen : p.last.workers.length = p.before.workers.length := by
      refine hrun.invariant (I := fun b => b.workers.length = p.before.workers.length)
        (fun b e b' hlen hstep => (length_step hstep).trans hlen) (length_step p.start)
    obtain ⟨hlt, -⟩ := List.getElem?_eq_some_iff.mp p.atTick
    exact ⟨_, List.getElem?_eq_getElem (hlen ▸ hlt)⟩
  have hu := workers_step p.start (p.before.assignWorker p.room.roomId)
  rw [hw, Option.map_some] at hu
  have hm := moves_step p.start hbefore hw
  -- the room is neither on the worker nor waiting before it is started
  have hfirst : p.room.roomId ∉ w.rooms := fun h => p.first (hbefore.started _ w hw _ (Or.inl h))
  by_cases hzero : w.roomCount = 0
  · -- `startBattle` drains a worker without rooms itself, and the room stays
    have hr := mem_rooms_run hrun hstarted hu p.atTick
      ((hm.rooms p.room.roomId).mpr (Or.inr ⟨hzero, Or.inr ⟨rfl, rfl⟩⟩))
    refine iff_of_true hr (Or.inl ?_)
    intro w' hw'
    obtain rfl := Option.some.inj (hw.symm.trans hw')
    exact hzero
  · have hcount : (p.before.after (p.before.assignWorker p.room.roomId) w
        (.startBattle p.room p.order p.now)).roomCount ≠ 0 := by
      intro hzero'
      apply hzero
      rw [roomCount_eq_zero] at hzero' ⊢
      exact fun r' hr' => hzero' r' ((hm.rooms r').mpr (Or.inl hr'))
    rw [mem_rooms_of_awaits hrun hstarted hu p.atTick hcount
      ((hm.awaits p.room.roomId).mpr ⟨hzero, Or.inr ⟨rfl, rfl⟩⟩), hm.rooms]
    have hbusy : ¬ ∀ w', p.before.workers[p.before.assignWorker p.room.roomId]? = some w' →
        w'.roomCount = 0 := fun h => hzero (h w hw)
    simp only [hfirst, hzero, Drains, DrainedInTime, hbusy, false_and, false_or, or_false,
      List.mem_append, List.mem_cons, reduceCtorEq]

end Passage

/-- **When a command is executed.**  The command of a living member with a new
number is executed by the tick that drains it if and only if the operations
of the worker are drained in time. -/
theorem executed_iff (p : Passage F) (h : p.LivingNew) : p.Executed ↔ p.DrainedInTime := by
  have hthere : (∃ s, p.turn = some s) ↔ p.room.roomId ∈ p.worker.rooms := by
    rw [← Option.isSome_iff_exists]
    exact turn_isSome
  rw [← p.mem_rooms_iff, ← hthere]
  constructor
  · rintro ⟨-, s, -, -, -, -, -, hturn, -⟩
    exact ⟨s, hturn⟩
  · rintro ⟨s, hturn⟩
    obtain ⟨later, hlater⟩ := p.drains
    obtain ⟨q, hq, halive⟩ := h.living s hturn
    have hex : executes ⟨s.1, s.2, []⟩ p.cmd = true := (executes_iff hq halive).mpr (h.new s hturn)
    have hidle := p.tidy_last.idle _ _ p.atTick
    obtain ⟨w', hw', -⟩ := core_tick hidle p.covers
    -- the tick goes on with what the command has made of the room
    obtain ⟨rs, now, hplayers⟩ := players_tick hidle p.covers hw' hlater hturn
    refine ⟨later, s, q, w', rs, now, hlater, hturn, hex, hq, hw', ?_⟩
    rcases act_cases s p.cmd with ⟨hno, -⟩ | ⟨-, q', hq', heq⟩
    · cases hex.symm.trans hno
    · obtain rfl := Option.some.inj (hq.symm.trans hq')
      rw [hplayers, List.foldl_cons, heq]

/-- A room of one player. -/
def solo (r : RoomId) (pid : PlayerId) : Room where
  roomId := r
  maxPlayers := 1
  players := Finmap.singleton pid ⟨pid, "", true⟩

/-- One worker, and the battle of room 1, which `startBattle` hands over by itself. -/
def oneBattle : BattleManager ℚ := (create 1).launch (solo 1 1) [1] 0

/-- The battle of room 2 is started too; its room waits for the worker's thread. -/
def twoBattles : BattleManager ℚ := oneBattle.launch (solo 2 2) [2] 0

/-- Player 2 stops. -/
def stopTwo : Command ℚ := ⟨.stopMove, 2, 1, 0, 0, 0, 0⟩

/-- The worker's thread is between `drainPendingOps` and `tick`. -/
def betweenDrainAndTick : Passage ℚ where
  logicThreads := 1
  room := solo 2 2
  order := [2]
  now := 0
  cmd := stopTwo
  visits := [⟨1, [1], 0⟩]
  past := [.startBattle (solo 1 1) [1] 0]
  before := oneBattle
  history := .single (.startBattle (by decide +kernel))
  first := by decide +kernel
  started := twoBattles
  start := .startBattle (by decide +kernel)
  between := []
  middle := twoBattles
  run_between := .nil
  inbox := (twoBattles.workers[0]?).getD {}
  atDispatch := rfl
  late := []
  last := twoBattles.dispatchCommand 2 stopTwo
  run_late := .nil
  untouched := fun _ => List.not_mem_nil
  worker := ((twoBattles.dispatchCommand 2 stopTwo).workers[0]?).getD {}
  atTick := rfl
  running := by decide +kernel
  covers := by
    refine ⟨by decide +kernel, ?_⟩
    intro v hv ps hps
    obtain rfl := List.mem_singleton.mp hv
    obtain rfl := Option.some.inj (hps.symm.trans (show _ = some {1} by decide +kernel))
    rfl

/-- The tick finds no room 2, and the command is gone. -/
theorem not_executed_betweenDrainAndTick :
    betweenDrainAndTick.LivingNew ∧ ¬ betweenDrainAndTick.Executed := by
  have hnone : betweenDrainAndTick.turn = none := by
    rw [← Option.not_isSome_iff_eq_none, Passage.turn, turn_isSome]
    decide +kernel
  refine ⟨⟨by decide +kernel, ?_, ?_, ?_⟩, ?_⟩
  · intro mark hmark
    cases hmark.symm.trans (show _ = none by decide +kernel)
  · intro s hs
    cases hnone.symm.trans hs
  · intro s hs
    cases hnone.symm.trans hs
  · rintro ⟨-, s, -, -, -, -, -, hs, -⟩
    cases hnone.symm.trans hs

/-- The worker's thread drains both inboxes after the dispatch. -/
def drainedAfterDispatch : Passage ℚ :=
  let last : BattleManager ℚ := { twoBattles.dispatchCommand 2 stopTwo with
    workers := (twoBattles.dispatchCommand 2 stopTwo).workers.modify 0 fun w =>
      w.drainPendingOps 0 }
  { betweenDrainAndTick with
    visits := [⟨1, [1], 0⟩, ⟨2, [2], 0⟩]
    late := [.drainPendingOps 0 0]
    last := last
    run_late := .single .drainPendingOps
    untouched := by
      intro visits' h
      cases List.mem_singleton.mp h
    worker := (last.workers[0]?).getD {}
    atTick := rfl
    running := by decide +kernel
    covers := by
      refine ⟨by decide +kernel, ?_⟩
      intro v hv ps hps
      rcases List.mem_pair.mp hv with rfl | rfl
      · obtain rfl := Option.some.inj (hps.symm.trans (show _ = some {1} by decide +kernel))
        rfl
      · obtain rfl := Option.some.inj (hps.symm.trans (show _ = some {2} by decide +kernel))
        rfl }

theorem executed_iff_drainedAfterDispatch :
    drainedAfterDispatch.LivingNew ∧
      (drainedAfterDispatch.Executed ↔ drainedAfterDispatch.DrainedInTime) := by
  have hlive : drainedAfterDispatch.LivingNew := by
    refine ⟨by decide +kernel, ?_, ?_, ?_⟩
    · intro mark hmark
      cases hmark.symm.trans (show _ = none by decide +kernel)
    · intro s hs
      have halive : (drainedAfterDispatch.turn.bind fun s =>
          (s.2.lookup 2).map BattlePlayer.alive) = some true := by decide +kernel
      rw [hs] at halive
      exact Option.map_eq_some_iff.mp halive
    · intro s hs mark hmark
      have hfresh : (drainedAfterDispatch.turn.bind fun s => s.1.lastSeq.lookup 2) = none := by
        decide +kernel
      rw [hs] at hfresh
      cases hmark.symm.trans hfresh
  exact ⟨hlive, executed_iff drainedAfterDispatch hlive⟩

end BattleManager

end MiniArena
