/-
MiniArena/WorkerTick.lean

One whole `tick()` of a worker, as the run of its steps: the batch is drained,
then every room is ticked, reported and checked for timeouts, in the order of
the map.

What a tick does to the engine and the rooms is a fold over the rooms
(`visit`): the same batch is offered to each of them, and the sequence history
is handed from one to the next (`exec_visits`, `core_tick`).
-/
import MiniArena.RoomSimulation

namespace MiniArena

variable {F : Type} [FloatOps F]

open TickEngine

abbrev WorkerRooms (F : Type) := Finmap fun _ : RoomId => WorkerRoom F

namespace LogicWorker

/-- The visit of one room by a tick. -/
structure Visit where
  room : RoomId
  /-- The order in which `processTick` reports the players. -/
  order : List PlayerId
  /-- The clock at the timeout check. -/
  now : ℤ

def Visit.events (v : Visit) : List (WorkerEvent F) :=
  [.tickRoom v.order, .broadcast, .checkDisconnected v.now]

/-- `tick()` with the rooms in the order `order`, up to the end of the given visits. -/
def tickUntil (w : LogicWorker F) (order : List RoomId) (visits : List Visit) :
    Option (LogicWorker F) :=
  (Transition.exec step w (.tickBegin order :: visits.flatMap Visit.events)).map Prod.fst

def tick (w : LogicWorker F) (visits : List Visit) : Option (LogicWorker F) :=
  w.tickUntil (visits.map Visit.room) visits

/-! ### The rooms and who is in them -/

/-- The people of a room, if the room is there. -/
def members (rooms : WorkerRooms F) (r : RoomId) : Option (Finset PlayerId) :=
  (rooms.lookup r).map fun rs => rs.players.keys

/-- The players of a room, if the room is there. -/
def playersOf (rooms : WorkerRooms F) (r : RoomId) : Option (Players F) :=
  (rooms.lookup r).map WorkerRoom.players

/-- The visits take every room once, and report every player of it once. -/
structure Covers (visits : List Visit) (rooms : WorkerRooms F) : Prop where
  once : (visits.map Visit.room : Multiset RoomId) = rooms.keys.val
  players : ∀ v ∈ visits, ∀ ps, members rooms v.room = some ps →
    (v.order : Multiset PlayerId) = ps.val

/-- The visit can be made. -/
def Visitable (rooms : WorkerRooms F) (v : Visit) : Prop :=
  ∃ ps, members rooms v.room = some ps ∧ (v.order : Multiset PlayerId) = ps.val

omit [FloatOps F] in
theorem Covers.visitable {visits : List Visit} {rooms : WorkerRooms F} (h : Covers visits rooms) :
    ∀ v ∈ visits, Visitable rooms v := by
  intro v hv
  have hmem : v.room ∈ rooms.keys := by
    apply Finset.mem_val.mp
    rw [← h.once]
    exact Multiset.mem_coe.mpr (List.mem_map_of_mem hv)
  obtain ⟨rs, hrs⟩ := Finmap.mem_keys_iff.mp hmem
  have hps : members rooms v.room = some rs.players.keys := by rw [members, hrs, Option.map_some]
  exact ⟨_, hps, h.players v hv _ hps⟩

omit [FloatOps F] in
theorem Covers.nodup {visits : List Visit} {rooms : WorkerRooms F} (h : Covers visits rooms) :
    (visits.map Visit.room).Nodup := by
  rw [← Multiset.coe_nodup, h.once]
  exact rooms.keys.nodup

/-! ### What a tick does -/

/-- A visit, on the engine and the rooms alone. -/
def visit (cmds : List (Command F)) (s : TickEngine × WorkerRooms F) (v : Visit) :
    TickEngine × WorkerRooms F :=
  match s.2.lookup v.room with
  | none => s
  | some rs =>
      let after := cmds.foldl act (s.1, rs.players)
      (after.1, s.2.insert v.room (checkDisconnected (afterCommands rs after.2) v.now))

/-- A visit replaces no player. -/
theorem keys_visited (rs : WorkerRoom F) (cmds : List (Command F)) (e : TickEngine) (now : ℤ) :
    (checkDisconnected (afterCommands rs (cmds.foldl act (e, rs.players)).2) now).players.keys =
      rs.players.keys := by
  rw [checkDisconnected, Finmap.keys_mapVal, afterCommands, Finmap.keys_mapVal, keys_acts]

theorem visit_eq {cmds : List (Command F)} {s : TickEngine × WorkerRooms F} {v : Visit}
    {rs : WorkerRoom F} (hrs : s.2.lookup v.room = some rs) :
    visit cmds s v = ((cmds.foldl act (s.1, rs.players)).1,
      s.2.insert v.room
        (checkDisconnected (afterCommands rs (cmds.foldl act (s.1, rs.players)).2) v.now)) := by
  rw [visit, hrs]

/-- A visit leaves the other rooms alone. -/
theorem lookup_visit_of_ne (cmds : List (Command F)) (s : TickEngine × WorkerRooms F) {v : Visit}
    {r : RoomId} (h : r ≠ v.room) : (visit cmds s v).2.lookup r = s.2.lookup r := by
  rcases hrs : s.2.lookup v.room with - | rs
  · rw [visit, hrs]
  · rw [visit_eq hrs]
    exact Finmap.lookup_insert_of_ne _ h

/-- A visit moves nobody in or out. -/
theorem members_visit (cmds : List (Command F)) (s : TickEngine × WorkerRooms F) (v : Visit) :
    members (visit cmds s v).2 = members s.2 := by
  funext r
  rcases hrs : s.2.lookup v.room with - | rs
  · rw [visit, hrs]
  · rw [visit_eq hrs, members, members]
    dsimp only
    rw [Finmap.lookup_insert_eq]
    split
    · rename_i heq
      rw [heq, hrs, Option.map_some, Option.map_some, keys_visited]
    · rfl

theorem members_visits (cmds : List (Command F)) (s : TickEngine × WorkerRooms F)
    (visits : List Visit) : members (visits.foldl (visit cmds) s).2 = members s.2 := by
  induction visits generalizing s with
  | nil => rfl
  | cons v visits ih => rw [List.foldl_cons, ih, members_visit]

theorem lookup_visits_of_notMem (cmds : List (Command F)) (s : TickEngine × WorkerRooms F)
    {visits : List Visit} {r : RoomId} (h : r ∉ visits.map Visit.room) :
    (visits.foldl (visit cmds) s).2.lookup r = s.2.lookup r := by
  induction visits generalizing s with
  | nil => rfl
  | cons v visits ih =>
    rw [List.map_cons, List.mem_cons, not_or] at h
    rw [List.foldl_cons, ih _ h.2, lookup_visit_of_ne cmds s h.1]

/-- The engine and the rooms of a worker. -/
def core (w : LogicWorker F) : TickEngine × WorkerRooms F := (w.tickEngine, w.rooms)

/-- **One visit.** -/
theorem exec_visit {w : LogicWorker F} {cmds : List (Command F)} {left : List RoomId} {v : Visit}
    (hphase : w.phase = .ticking cmds (v.room :: left)) (hv : Visitable w.rooms v) :
    ∃ w' outs, Transition.exec step w v.events = some (w', outs) ∧
      w'.phase = nextRoom cmds left ∧ w'.core = visit cmds w.core v := by
  obtain ⟨ps, hps, horder⟩ := hv
  obtain ⟨rs, hrs, rfl⟩ := Option.map_eq_some_iff.mp hps
  obtain ⟨hengine, hrooms⟩ := tickRoom_eq w cmds left v.room rs v.order
  have htick : w.step (.tickRoom v.order) = some (w.tickRoom cmds left v.room rs v.order) := by
    simp only [step, hphase, hrs, if_pos horder]
  generalize hw₁ : w.tickRoom cmds left v.room rs v.order = r₁ at *
  obtain ⟨state, hsending⟩ : ∃ state, r₁.1.phase = .sending cmds left v.room state := by
    rw [← hw₁]
    exact ⟨_, rfl⟩
  have hlook : r₁.1.rooms.lookup v.room =
      some (afterCommands rs (cmds.foldl act (w.tickEngine, rs.players)).2) := by
    rw [hrooms, Finmap.lookup_insert]
  have hbroadcast : r₁.1.step .broadcast = some (r₁.1.broadcast cmds left v.room state
      (afterCommands rs (cmds.foldl act (w.tickEngine, rs.players)).2)) := by
    simp only [step, hsending, hlook, Option.map_some]
  generalize hw₂ : r₁.1.broadcast cmds left v.room state _ = r₂ at *
  have hcheck : r₂.1.step (.checkDisconnected v.now) = some ({ r₂.1 with
      rooms := r₂.1.rooms.insert v.room (checkDisconnected
        (afterCommands rs (cmds.foldl act (w.tickEngine, rs.players)).2) v.now)
      phase := nextRoom cmds left }, {}) := by
    subst hw₂
    show Option.map _ (r₁.1.rooms.lookup v.room) = _
    rw [hlook]
    rfl
  refine ⟨_, _, Transition.exec_cons htick
    (Transition.exec_cons hbroadcast (Transition.exec_cons hcheck rfl)), rfl, ?_⟩
  rw [core, core, visit_eq hrs, ← hengine]
  subst hw₂
  apply Prod.ext
  · rfl
  · show Finmap.insert v.room _ r₁.1.rooms = _
    rw [hrooms, Finmap.insert_insert]

/-- **The visits of a tick**, as far as it has got. -/
theorem exec_visits {w : LogicWorker F} {cmds : List (Command F)} {visits : List Visit}
    {left : List RoomId} (hphase : w.phase = nextRoom cmds (visits.map Visit.room ++ left))
    (hv : ∀ v ∈ visits, Visitable w.rooms v) :
    ∃ w' outs, Transition.exec step w (visits.flatMap Visit.events) = some (w', outs) ∧
      w'.phase = nextRoom cmds left ∧ w'.core = visits.foldl (visit cmds) w.core := by
  induction visits generalizing w with
  | nil => exact ⟨w, [], rfl, hphase, rfl⟩
  | cons v visits ih =>
    obtain ⟨w₁, outs₁, hexec₁, hphase₁, hcore₁⟩ := exec_visit hphase (hv v List.mem_cons_self)
    have hmembers : members w₁.rooms = members w.rooms := by
      have := congrArg (fun s => members s.2) hcore₁
      exact this.trans (members_visit cmds w.core v)
    have hv₁ : ∀ v ∈ visits, Visitable w₁.rooms v := by
      intro v' hv'
      have := hv v' (List.mem_cons_of_mem _ hv')
      rwa [Visitable, ← hmembers] at this
    obtain ⟨w₂, outs₂, hexec₂, hphase₂, hcore₂⟩ := ih hphase₁ hv₁
    refine ⟨w₂, outs₁ ++ outs₂, Transition.exec_append hexec₁ hexec₂, hphase₂, ?_⟩
    rw [hcore₂, hcore₁, List.foldl_cons]

/-- **A tick**, up to the end of the visits `before`. -/
theorem core_tickUntil {w : LogicWorker F} {before after : List Visit} (hidle : w.phase = .idle)
    (hc : Covers (before ++ after) w.rooms) :
    ∃ w', w.tickUntil ((before ++ after).map Visit.room) before = some w' ∧
      w'.core = before.foldl (visit w.cmdQueue) w.core := by
  have hbegin : w.step (.tickBegin ((before ++ after).map Visit.room)) =
      some ({ w with
        cmdQueue := [], phase := nextRoom w.cmdQueue ((before ++ after).map Visit.room) }, {}) := by
    simp only [step, hidle, if_pos hc.once]
  obtain ⟨w', outs, hexec, -, hcore⟩ := @exec_visits F _
    { w with cmdQueue := [], phase := nextRoom w.cmdQueue ((before ++ after).map Visit.room) }
    w.cmdQueue before (after.map Visit.room) (by rw [List.map_append])
    (fun v hv => hc.visitable v (List.mem_append_left _ hv))
  refine ⟨w', ?_, hcore⟩
  rw [tickUntil, Transition.exec_cons hbegin hexec]
  rfl

theorem core_tick {w : LogicWorker F} {visits : List Visit} (hidle : w.phase = .idle)
    (hc : Covers visits w.rooms) :
    ∃ w', w.tick visits = some w' ∧ w'.core = visits.foldl (visit w.cmdQueue) w.core := by
  have := @core_tickUntil F _ w visits [] hidle (by rwa [List.append_nil])
  rwa [List.append_nil] at this

/-! ### What a tick leaves alone -/

/-- What `tick()` is made of. -/
def ofTick : WorkerEvent F → Bool
  | .tickBegin _ => true
  | .tickRoom _ => true
  | .broadcast => true
  | .checkDisconnected _ => true
  | _ => false

/-- A tick looks at no operation. -/
theorem pendingOps_step {w w' : LogicWorker F} {ev : WorkerEvent F} {out : WorkerOut F}
    (hev : ofTick ev = true) (h : w.step ev = some (w', out)) : w'.pendingOps = w.pendingOps := by
  cases step_cases h with
  | tickBegin => rfl
  | tickRoom => rfl
  | broadcast => rfl
  | checkDisconnected => rfl
  | _ => cases hev

theorem pendingOps_tick {w w' : LogicWorker F} {visits : List Visit}
    (h : w.tick visits = some w') : w'.pendingOps = w.pendingOps := by
  obtain ⟨⟨_, outs⟩, hexec, rfl⟩ := Option.map_eq_some_iff.mp h
  have hevs : ∀ ev ∈ WorkerEvent.tickBegin (visits.map Visit.room) :: visits.flatMap Visit.events,
      ofTick (ev : WorkerEvent F) = true := by
    intro ev hev
    rcases List.mem_cons.mp hev with rfl | hev
    · rfl
    · obtain ⟨v, -, hv⟩ := List.mem_flatMap.mp hev
      simp only [Visit.events, List.mem_cons, List.not_mem_nil, or_false] at hv
      rcases hv with rfl | rfl | rfl <;> rfl
  generalize WorkerEvent.tickBegin (visits.map Visit.room) :: visits.flatMap Visit.events = evs
    at hexec hevs
  clear h
  induction evs generalizing w outs with
  | nil =>
    obtain ⟨rfl, -⟩ := Prod.mk.injEq .. ▸ Option.some.inj hexec
    rfl
  | cons ev evs ih =>
    obtain ⟨⟨w₁, o⟩, hstep, hrest⟩ := Option.bind_eq_some_iff.mp hexec
    obtain ⟨⟨w₂, outs₂⟩, hexec₂, heq⟩ := Option.map_eq_some_iff.mp hrest
    obtain ⟨rfl, -⟩ := Prod.mk.injEq .. ▸ heq
    rw [ih _ hexec₂ fun e he => hevs e (List.mem_cons_of_mem _ he),
      pendingOps_step (hevs ev List.mem_cons_self) hstep]

/-- After a tick the worker is idle again. -/
theorem idle_tick {w w' : LogicWorker F} {visits : List Visit} (hidle : w.phase = .idle)
    (hc : Covers visits w.rooms) (h : w.tick visits = some w') : w'.phase = .idle := by
  have hbegin : w.step (.tickBegin (visits.map Visit.room)) =
      some ({ w with cmdQueue := [], phase := nextRoom w.cmdQueue (visits.map Visit.room) }, {}) := by
    simp only [step, hidle, if_pos hc.once]
  obtain ⟨w₁, outs, hexec, hphase, -⟩ := @exec_visits F _
    { w with cmdQueue := [], phase := nextRoom w.cmdQueue (visits.map Visit.room) }
    w.cmdQueue visits [] (by rw [List.append_nil]) hc.visitable
  rw [tick, tickUntil, Transition.exec_cons hbegin hexec] at h
  obtain rfl := Option.some.inj h
  exact hphase

end LogicWorker

end MiniArena
