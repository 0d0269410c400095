/-
MiniArena/RoomSimulation.lean

Rooms that share a worker do not notice each other, as long as they share no
player.

`PrivateRoom` is a room alone with an engine of its own.  From a run of the
worker, `inputs r` picks what concerns the room `r`: its addition and removal,
the batches of the ticks that reach it, the marks and the timeout checks.
Of a batch the private room takes the commands of its own players only.

The simulation `Sim` has two parts.  The room itself is equal on both sides,
and the shared history agrees with the private one on the room's players
(`Matches`).  The rest keeps this true: every mark of the shared history is
of a player of a room applied so far, and the rooms added in the whole run
are pairwise disjoint, so a room that is applied finds no mark of its players
and no other room ever sets one.
-/
import MiniArena.RoomBroadcast
import MiniArena.TickPlayers

namespace MiniArena

variable {F : Type} [FloatOps F]

open TickEngine

/-! ### A room alone -/

structure PrivateRoom (F : Type) where
  room : WorkerRoom F
  engine : TickEngine := {}

inductive RoomInput (F : Type)
  | add (players : Players F)
  | remove
  | markDisconnected (pid : PlayerId) (now : ℤ)
  | tick (cmds : List (Command F))
  | checkDisconnected (now : ℤ)

namespace PrivateRoom

/-- A tick of the room alone, on its players' commands of the batch. -/
def tick (p : PrivateRoom F) (cmds : List (Command F)) : PrivateRoom F :=
  let own := cmds.filter fun cmd => decide (cmd.playerId ∈ p.room.players)
  let result := p.engine.processTick p.room.players own {} {} []
  { room := { p.room with players := result.players }, engine := result.engine }

/-- `none` is a room that is not there. -/
def step : Option (PrivateRoom F) → RoomInput F → Option (PrivateRoom F)
  | _, .add players => some { room := { players := players } }
  | _, .remove => none
  | p, .markDisconnected pid now => p.map fun p =>
      { p with room := { p.room with disconnected := p.room.disconnected.insert pid now } }
  | p, .tick cmds => p.map fun p => p.tick cmds
  | p, .checkDisconnected now => p.map fun p =>
      { p with room := LogicWorker.checkDisconnected p.room now }

/-- An input that is there only under a condition. -/
theorem foldl_step_ite (p : Option (PrivateRoom F)) (c : Prop) [Decidable c] (i : RoomInput F) :
    (if c then [i] else []).foldl step p = if c then step p i else p := by
  split <;> rfl

end PrivateRoom

namespace LogicWorker

/-! ### What a run gives to one room -/

def inputOfOp (r : RoomId) (now : ℤ) : PendingOp F → List (RoomInput F)
  | .addRoom r' players => if r' = r then [.add players] else []
  | .removeRoom r' => if r' = r then [.remove] else []
  | .markDisconnected r' pid => if r' = r then [.markDisconnected pid now] else []

/-- What an event of the worker `w` is for the room `r`. -/
def input (r : RoomId) (w : LogicWorker F) : WorkerEvent F → List (RoomInput F)
  | .drainPendingOp now =>
      match w.pendingOps with
      | [] => []
      | op :: _ => inputOfOp r now op
  | .tickRoom _ =>
      match w.phase with
      | .ticking cmds (r' :: _) => if r' = r then [.tick cmds] else []
      | _ => []
  | .checkDisconnected now =>
      match w.phase with
      | .checking _ _ r' => if r' = r then [.checkDisconnected now] else []
      | _ => []
  | _ => []

def inputs (r : RoomId) : LogicWorker F → List (WorkerEvent F) → List (RoomInput F)
  | _, [] => []
  | w, ev :: evs => input r w ev ++
      match w.step ev with
      | none => []
      | some (w', _) => inputs r w' evs

/-! ### The rooms a run adds -/

/-- The rooms added by a list of events, with their players. -/
def added : List (WorkerEvent F) → List (RoomId × Players F)
  | [] => []
  | .addRoom r players :: evs => (r, players) :: added evs
  | _ :: evs => added evs

/-- The rooms whose addition waits in the queue. -/
def waiting : List (PendingOp F) → List (RoomId × Players F)
  | [] => []
  | .addRoom r players :: ops => (r, players) :: waiting ops
  | _ :: ops => waiting ops

/-- Each id is added at most once, and no two rooms share a player. -/
structure Apart (rooms : List (RoomId × Players F)) : Prop where
  once : (rooms.map Prod.fst).Nodup
  disjoint : rooms.Pairwise fun a b => ∀ pid ∈ a.2, pid ∉ b.2

omit [FloatOps F] in
theorem Apart.left {rooms rooms' : List (RoomId × Players F)} (h : Apart (rooms ++ rooms')) :
    Apart rooms where
  once := by
    have := h.once
    rw [List.map_append] at this
    exact this.of_append_left
  disjoint := (List.pairwise_append.mp h.disjoint).1

omit [FloatOps F] in
theorem added_append (evs evs' : List (WorkerEvent F)) :
    added (evs ++ evs') = added evs ++ added evs' := by
  induction evs with
  | nil => rfl
  | cons ev evs ih => cases ev <;> simp [added, ih]

omit [FloatOps F] in
theorem waiting_append (ops ops' : List (PendingOp F)) :
    waiting (ops ++ ops') = waiting ops ++ waiting ops' := by
  induction ops with
  | nil => rfl
  | cons op ops ih => cases op <;> simp [waiting, ih]

/-! ### The simulation -/

/-- The room on the worker with the engine `e`, and the room alone. -/
structure Matches (e : TickEngine) (rs : WorkerRoom F) (p : PrivateRoom F) : Prop where
  room : p.room = rs
  agree : AgreeOn rs.players e p.engine

/-- `applied` are the rooms added and applied so far. -/
structure Sim (r : RoomId) (applied : List (RoomId × Players F)) (w : LogicWorker F)
    (p : Option (PrivateRoom F)) : Prop where
  rel : Option.Rel (Matches w.tickEngine) (w.rooms.lookup r) p
  known : ∀ pid seq, w.tickEngine.lastSeq.lookup pid = some seq → ∃ a ∈ applied, pid ∈ a.2
  members : ∀ r' rs, w.rooms.lookup r' = some rs →
    ∃ a ∈ applied, a.1 = r' ∧ a.2.keys = rs.players.keys

omit [FloatOps F] in
theorem sim_initial (r : RoomId) : Sim r [] ({} : LogicWorker F) none where
  rel := by
    show Option.Rel _ ((∅ : Finmap fun _ : RoomId => WorkerRoom F).lookup r) none
    rw [Finmap.lookup_empty]
    exact .none
  known := by
    intro pid seq h
    rw [show ({} : LogicWorker F).tickEngine.lastSeq = ∅ from rfl, Finmap.lookup_empty] at h
    cases h
  members := by
    intro r' rs h
    rw [show ({} : LogicWorker F).rooms = ∅ from rfl, Finmap.lookup_empty] at h
    cases h

variable {r : RoomId} {applied : List (RoomId × Players F)} {w w' : LogicWorker F}
  {p p' : Option (PrivateRoom F)}

omit [FloatOps F] in
/-- Only the rooms and the engine matter. -/
theorem Sim.congr (h : Sim r applied w p) (hrooms : w'.rooms = w.rooms)
    (hengine : w'.tickEngine = w.tickEngine) : Sim r applied w' p := by
  obtain ⟨hrel, hknown, hmembers⟩ := h
  refine ⟨?_, ?_, ?_⟩
  · rwa [hrooms, hengine]
  · rwa [hengine]
  · rwa [hrooms]

omit [FloatOps F] in
/-- Two rooms of the worker share no player. -/
theorem Sim.foreign (h : Sim r applied w p) (hap : Apart applied) {r₁ r₂ : RoomId}
    {rs₁ rs₂ : WorkerRoom F} (h₁ : w.rooms.lookup r₁ = some rs₁) (h₂ : w.rooms.lookup r₂ = some rs₂)
    (hne : r₁ ≠ r₂) : ∀ pid ∈ rs₁.players, pid ∉ rs₂.players := by
  obtain ⟨a, ha, rfl, hakeys⟩ := h.members r₁ rs₁ h₁
  obtain ⟨b, hb, rfl, hbkeys⟩ := h.members r₂ rs₂ h₂
  have : Std.Symm fun a b : RoomId × Players F => ∀ pid ∈ a.2, pid ∉ b.2 :=
    ⟨fun a b hab pid hb ha => hab pid ha hb⟩
  have hab := hap.disjoint.forall ha hb (fun heq => hne (congrArg Prod.fst heq))
  intro pid hpid hpid'
  rw [← Finmap.mem_keys, ← hakeys, Finmap.mem_keys] at hpid
  rw [← Finmap.mem_keys, ← hbkeys, Finmap.mem_keys] at hpid'
  exact hab pid hpid hpid'

omit [FloatOps F] in
/-- **A step on one room** `r'`: its players stay the same people, and only
their marks change. -/
theorem Sim.update (h : Sim r applied w p) (hap : Apart applied) {r' : RoomId}
    {rs rs' : WorkerRoom F} (hrs : w.rooms.lookup r' = some rs)
    (hkeys : rs'.players.keys = rs.players.keys)
    (hframe : ∀ pid ∉ rs.players,
      w'.tickEngine.lastSeq.lookup pid = w.tickEngine.lastSeq.lookup pid)
    (hrooms : w'.rooms = w.rooms.insert r' rs')
    (hown : r' = r → Option.Rel (Matches w'.tickEngine) (some rs') p')
    (hother : r' ≠ r → p' = p) : Sim r applied w' p' := by
  refine ⟨?_, ?_, ?_⟩
  · rw [hrooms, Finmap.lookup_insert_eq]
    by_cases hr : r = r'
    · rw [if_pos hr]
      exact hown hr.symm
    · rw [if_neg hr, hother (Ne.symm hr)]
      have hrel := h.rel
      rcases hlook : w.rooms.lookup r with - | rs₂
      · rw [hlook] at hrel
        cases hrel
        exact .none
      · rw [hlook] at hrel
        cases hrel with
        | some hm =>
          refine .some ⟨hm.room, ?_⟩
          intro pid hpid
          -- the players of this room are in no other room, so their marks stay
          rw [hframe pid (h.foreign hap hlook hrs hr pid hpid)]
          exact hm.agree pid hpid
  · intro pid seq hseq
    by_cases hpid : pid ∈ rs.players
    · obtain ⟨a, ha, -, hakeys⟩ := h.members r' rs hrs
      exact ⟨a, ha, by rwa [← Finmap.mem_keys, hakeys, Finmap.mem_keys]⟩
    · rw [hframe pid hpid] at hseq
      exact h.known pid seq hseq
  · intro r₂ rs₂ hlook
    rw [hrooms, Finmap.lookup_insert_eq] at hlook
    split at hlook
    · rename_i heq
      obtain rfl := Option.some.inj hlook
      obtain ⟨a, ha, har, hakeys⟩ := h.members r' rs hrs
      exact ⟨a, ha, har.trans heq.symm, hakeys.trans hkeys.symm⟩
    · exact h.members r₂ rs₂ hlook

/-! ### One step -/

/-- A room after the commands of a tick. -/
def afterCommands (rs : WorkerRoom F) (players : Players F) : WorkerRoom F :=
  { rs with players := players.mapVal fun _ => updateCooldowns kTickIntervalMs }

theorem tickRoom_eq (w : LogicWorker F) (cmds : List (Command F)) (left : List RoomId) (r : RoomId)
    (rs : WorkerRoom F) (order : List PlayerId) :
    (w.tickRoom cmds left r rs order).1.tickEngine =
        (cmds.foldl act (w.tickEngine, rs.players)).1 ∧
      (w.tickRoom cmds left r rs order).1.rooms =
        w.rooms.insert r (afterCommands rs (cmds.foldl act (w.tickEngine, rs.players)).2) := by
  refine ⟨engine_processTick w.tickEngine rs.players cmds w.bc w.aoi order, ?_⟩
  rw [afterCommands, ← players_processTick w.tickEngine rs.players cmds w.bc w.aoi order]
  rfl

/-- The private room sees the same batch, as far as it goes. -/
theorem tick_eq (p : PrivateRoom F) (cmds : List (Command F)) :
    (p.tick cmds).engine = (cmds.foldl act (p.engine, p.room.players)).1 ∧
      (p.tick cmds).room =
        afterCommands p.room (cmds.foldl act (p.engine, p.room.players)).2 := by
  rw [acts_filter (p.engine, p.room.players) cmds]
  refine ⟨engine_processTick p.engine p.room.players _ {} {} [], ?_⟩
  rw [afterCommands, ← players_processTick p.engine p.room.players _ {} {} []]
  rfl

/-- **A tick of the room `r'`.** -/
theorem Sim.tickRoom (h : Sim r applied w p) (hap : Apart applied) {r' : RoomId}
    {rs : WorkerRoom F} (hrs : w.rooms.lookup r' = some rs) (cmds : List (Command F))
    (left : List RoomId) (order : List PlayerId) :
    Sim r applied (w.tickRoom cmds left r' rs order).1
      (if r' = r then p.map fun p => p.tick cmds else p) := by
  obtain ⟨hengine, hrooms⟩ := tickRoom_eq w cmds left r' rs order
  have hkeys : (afterCommands rs (cmds.foldl act (w.tickEngine, rs.players)).2).players.keys =
      rs.players.keys := by
    show (Finmap.mapVal _ _).keys = _
    rw [Finmap.keys_mapVal, keys_acts]
  apply h.update hap hrs hkeys
  · intro pid hpid
    rw [hengine]
    apply lookup_acts_of_notMem
    exact hpid
  · exact hrooms
  · intro hr
    subst hr
    rw [if_pos rfl]
    have hrel := h.rel
    rw [hrs] at hrel
    cases hrel with
    | @some _ q hm =>
      obtain ⟨rfl, hagree⟩ := hm
      obtain ⟨hsame, hagree'⟩ := acts_congr hagree cmds
      obtain ⟨hqengine, hqroom⟩ := tick_eq q cmds
      refine .some ⟨?_, ?_⟩
      · rw [hqroom, hsame]
      · rw [hengine, hqengine]
        exact hagree'.congr hkeys
  · intro hr
    rw [if_neg hr]

omit [FloatOps F] in
/-- **The disconnect timeout of the room `r'`.** -/
theorem Sim.checkDisconnected (h : Sim r applied w p) (hap : Apart applied) {r' : RoomId}
    {rs : WorkerRoom F} (hrs : w.rooms.lookup r' = some rs) (now : ℤ) (phase : Phase F) :
    Sim r applied
      { w with rooms := w.rooms.insert r' (LogicWorker.checkDisconnected rs now), phase := phase }
      (if r' = r then
        p.map fun p => { p with room := LogicWorker.checkDisconnected p.room now } else p) := by
  have hkeys : (LogicWorker.checkDisconnected rs now).players.keys = rs.players.keys :=
    Finmap.keys_mapVal _ _
  apply h.update hap hrs hkeys
  · exact fun _ _ => rfl
  · rfl
  · intro hr
    subst hr
    rw [if_pos rfl]
    have hrel := h.rel
    rw [hrs] at hrel
    cases hrel with
    | some hm =>
      obtain ⟨rfl, hagree⟩ := hm
      exact .some ⟨rfl, hagree.congr hkeys⟩
  · intro hr
    rw [if_neg hr]

omit [FloatOps F] in
/-- **Adding a room.**  Its players have no mark yet, on neither side. -/
theorem Sim.addRoom (h : Sim r applied w p) {r' : RoomId} {players : Players F}
    (hap : Apart (applied ++ [(r', players)])) {ops : List (PendingOp F)} :
    Sim r (applied ++ [(r', players)])
      { w with pendingOps := ops, rooms := w.rooms.insert r' { players := players } }
      (if r' = r then some { room := { players := players } } else p) := by
  refine ⟨?_, ?_, ?_⟩
  · show Option.Rel (Matches w.tickEngine)
      ((w.rooms.insert r' { players := players }).lookup r) _
    rw [Finmap.lookup_insert_eq]
    by_cases hr : r = r'
    · rw [if_pos hr, if_pos hr.symm]
      refine .some ⟨rfl, ?_⟩
      intro pid hpid
      show w.tickEngine.lastSeq.lookup pid = (∅ : Finmap fun _ : PlayerId => UInt64).lookup pid
      rw [Finmap.lookup_empty]
      rcases hseq : w.tickEngine.lastSeq.lookup pid with - | seq
      · rfl
      · obtain ⟨a, ha, hin⟩ := h.known pid seq hseq
        have hapart := (List.pairwise_append.mp hap.disjoint).2.2 a ha _ (List.mem_singleton_self _)
        exact absurd hpid (hapart pid hin)
    · rw [if_neg hr, if_neg (Ne.symm hr)]
      exact h.rel
  · intro pid seq hseq
    obtain ⟨a, ha, hin⟩ := h.known pid seq hseq
    exact ⟨a, List.mem_append_left _ ha, hin⟩
  · intro r₂ rs₂ hlook
    rw [show Finmap.lookup r₂ _ = Finmap.lookup r₂ (w.rooms.insert r' { players := players }) from
      rfl, Finmap.lookup_insert_eq] at hlook
    split at hlook
    · rename_i heq
      obtain rfl := Option.some.inj hlook
      exact ⟨(r', players), by simp, heq.symm, rfl⟩
    · obtain ⟨a, ha, har, hakeys⟩ := h.members r₂ rs₂ hlook
      exact ⟨a, List.mem_append_left _ ha, har, hakeys⟩

omit [FloatOps F] in
theorem Sim.removeRoom (h : Sim r applied w p) {r' : RoomId} {ops : List (PendingOp F)} :
    Sim r applied { w with pendingOps := ops, rooms := w.rooms.erase r' }
      (if r' = r then none else p) := by
  refine ⟨?_, h.known, ?_⟩
  · show Option.Rel (Matches w.tickEngine) ((w.rooms.erase r').lookup r) _
    rw [Finmap.lookup_erase_eq]
    by_cases hr : r = r'
    · rw [if_pos hr, if_pos hr.symm]
      exact .none
    · rw [if_neg hr, if_neg (Ne.symm hr)]
      exact h.rel
  · intro r₂ rs₂ hlook
    rw [show Finmap.lookup r₂ _ = Finmap.lookup r₂ (w.rooms.erase r') from rfl,
      Finmap.lookup_erase_eq] at hlook
    split at hlook
    · cases hlook
    · exact h.members r₂ rs₂ hlook

omit [FloatOps F] in
theorem Sim.markDisconnected (h : Sim r applied w p) (hap : Apart applied) {r' : RoomId}
    {pid : PlayerId} {now : ℤ} {ops : List (PendingOp F)} :
    Sim r applied
      { w with
        pendingOps := ops
        rooms := w.rooms.modify r' fun rs =>
          { rs with disconnected := rs.disconnected.insert pid now } }
      (if r' = r then
        p.map fun p => { p with room :=
          { p.room with disconnected := p.room.disconnected.insert pid now } } else p) := by
  rcases hrs : w.rooms.lookup r' with - | rs
  · -- an unknown room: nothing is marked on either side
    have hsame : (w.rooms.modify r' fun rs =>
        { rs with disconnected := rs.disconnected.insert pid now }) = w.rooms := by
      rw [Finmap.modify, hrs]
    have hnone : (if r' = r then p.map fun p => { p with room :=
        { p.room with disconnected := p.room.disconnected.insert pid now } } else p) = p := by
      split
      · rename_i hr
        have hrel := h.rel
        rw [← hr, hrs] at hrel
        cases hrel
        rfl
      · rfl
    rw [hnone]
    apply h.congr
    · exact hsame
    · rfl
  · have hkeys : ({ rs with disconnected := rs.disconnected.insert pid now } :
        WorkerRoom F).players.keys = rs.players.keys := rfl
    apply h.update hap hrs hkeys
    · exact fun _ _ => rfl
    · show Finmap.modify _ _ _ = _
      rw [Finmap.modify, hrs]
    · intro hr
      subst hr
      rw [if_pos rfl]
      have hrel := h.rel
      rw [hrs] at hrel
      cases hrel with
      | some hm =>
        obtain ⟨rfl, hagree⟩ := hm
        exact .some ⟨rfl, hagree⟩
    · intro hr
      rw [if_neg hr]

omit [FloatOps F] in
/-- A request joins the queue. -/
theorem Sim.push (h : Sim r applied w p) (op : PendingOp F) :
    Sim r applied { w with pendingOps := w.pendingOps ++ [op] } p ∧
      applied ++ waiting (w.pendingOps ++ [op]) =
        applied ++ waiting w.pendingOps ++ waiting [op] := by
  refine ⟨h.congr rfl rfl, ?_⟩
  rw [waiting_append, List.append_assoc]

/-- The request at the head of the queue is carried out. -/
theorem Sim.drainPendingOp (h : Sim r applied w p) (now : ℤ)
    (hap : Apart (applied ++ waiting w.pendingOps)) :
    ∃ applied', Sim r applied' (w.drainPendingOp now)
        ((input r w (.drainPendingOp now)).foldl PrivateRoom.step p) ∧
      applied' ++ waiting (w.drainPendingOp now).pendingOps = applied ++ waiting w.pendingOps := by
  rcases hops : w.pendingOps with - | ⟨op, ops⟩
  · refine ⟨applied, ?_, ?_⟩
    · simp only [input, LogicWorker.drainPendingOp, hops, List.foldl_nil]
      exact h
    · simp [LogicWorker.drainPendingOp, hops]
  rw [hops] at hap
  simp only [input, LogicWorker.drainPendingOp, hops]
  cases op with
  | addRoom r' players =>
    have hnew : Apart (applied ++ [(r', players)]) := by
      rw [waiting, List.append_cons] at hap
      exact hap.left
    refine ⟨applied ++ [(r', players)], ?_, ?_⟩
    · rw [inputOfOp, PrivateRoom.foldl_step_ite]
      exact h.addRoom hnew
    · show applied ++ [(r', players)] ++ waiting ops = _
      simp [waiting]
  | removeRoom r' =>
    refine ⟨applied, ?_, by simp [applyOp, waiting]⟩
    rw [inputOfOp, PrivateRoom.foldl_step_ite]
    exact h.removeRoom
  | markDisconnected r' pid =>
    refine ⟨applied, ?_, by simp [applyOp, waiting]⟩
    rw [inputOfOp, PrivateRoom.foldl_step_ite]
    exact h.markDisconnected hap.left

/-- **One step.**  The private room takes the input the event is for it; a
room moves from the waiting ones to the applied ones when it is drained. -/
theorem sim_step (h : Sim r applied w p) {ev : WorkerEvent F} {out : WorkerOut F}
    (hstep : Steps w (ev, out) w')
    (hap : Apart (applied ++ waiting w.pendingOps ++ added [ev])) :
    ∃ applied', Sim r applied' w' ((input r w ev).foldl PrivateRoom.step p) ∧
      applied' ++ waiting w'.pendingOps = applied ++ waiting w.pendingOps ++ added [ev] := by
  have happlied : Apart applied := hap.left.left
  cases step_cases hstep with
  | setSendCallback => exact ⟨applied, h.congr rfl rfl, (List.append_nil _).symm⟩
  | addRoom r' players => exact ⟨applied, h.push (.addRoom r' players)⟩
  | removeRoom r' => exact ⟨applied, h.push (.removeRoom r')⟩
  | markDisconnected pid r' => exact ⟨applied, h.push (.markDisconnected r' pid)⟩
  | pushCommand cmd => exact ⟨applied, h.congr rfl rfl, (List.append_nil _).symm⟩
  | drainPendingOp now phase =>
    obtain ⟨applied', hsim, hrooms⟩ := h.drainPendingOp now hap.left
    exact ⟨applied', hsim, hrooms.trans (List.append_nil _).symm⟩
  | tickBegin order phase once => exact ⟨applied, h.congr rfl rfl, (List.append_nil _).symm⟩
  | @tickRoom cmds left r' rs order phase room members =>
    refine ⟨applied, ?_, (List.append_nil _).symm⟩
    simp only [input, phase]
    rw [PrivateRoom.foldl_step_ite]
    exact h.tickRoom happlied room cmds left order
  | broadcast phase room => exact ⟨applied, h.congr rfl rfl, (List.append_nil _).symm⟩
  | @checkDisconnected cmds left r' rs now phase room =>
    refine ⟨applied, ?_, (List.append_nil _).symm⟩
    simp only [input, phase]
    rw [PrivateRoom.foldl_step_ite]
    exact h.checkDisconnected happlied room now (nextRoom cmds left)

/-! ### Runs -/

theorem inputs_cons {ev : WorkerEvent F} {out : WorkerOut F} (hstep : Steps w (ev, out) w')
    (evs : List (WorkerEvent F)) :
    inputs r w (ev :: evs) = input r w ev ++ inputs r w' evs := by
  rw [inputs, show w.step ev = some (w', out) from hstep]

theorem sim_run {as : List (WorkerEvent F × WorkerOut F)} (h : Sim r applied w p)
    (hrun : Transition.Run Steps w as w')
    (hap : Apart (applied ++ waiting w.pendingOps ++ added (as.map Prod.fst))) :
    ∃ applied', Sim r applied' w'
      ((inputs r w (as.map Prod.fst)).foldl PrivateRoom.step p) := by
  induction hrun generalizing applied p with
  | nil => exact ⟨applied, h⟩
  | @cons w a w₁ as w' hstep _ ih =>
    obtain ⟨ev, out⟩ := a
    rw [List.map_cons, ← List.singleton_append, added_append, ← List.append_assoc] at hap
    obtain ⟨applied₁, h₁, hsplit⟩ := sim_step h hstep hap.left
    rw [← hsplit] at hap
    rw [List.map_cons, inputs_cons hstep, List.foldl_append]
    exact ih h₁ hap

/-- **A shared worker simulates private rooms.**  In every run whose rooms are
added once and share no player, the players of each room are, after every
step, those of the room run alone with an engine of its own, on its players'
commands of every batch. -/
theorem shared_simulates_private {as : List (WorkerEvent F × WorkerOut F)}
    (hrun : Transition.Run Steps {} as w) (hap : Apart (added (as.map Prod.fst)))
    {rs : WorkerRoom F} (hrs : w.rooms.lookup r = some rs) :
    ∃ p, (inputs r {} (as.map Prod.fst)).foldl PrivateRoom.step none = some p ∧
      p.room.players = rs.players := by
  obtain ⟨applied, hsim⟩ := sim_run (sim_initial r) hrun hap
  have hrel := hsim.rel
  rw [hrs] at hrel
  generalize (inputs r {} (as.map Prod.fst)).foldl PrivateRoom.step none = q at hrel ⊢
  cases hrel with
  | some hm => exact ⟨_, rfl, by rw [hm.room]⟩

/-- Two rooms of one player each, and a tick with a command for the second. -/
def sharedTick : List (WorkerEvent ℚ) :=
  [.addRoom 1 (alone 1), .addRoom 3 (alone 2), .drainPendingOp 0, .drainPendingOp 0,
    .pushCommand ⟨.stopMove, 2, 1, 0, 0, 0, 0⟩, .tickBegin [1, 3], .tickRoom [1], .broadcast,
    .checkDisconnected 0, .tickRoom [2]]

theorem shared_simulates_private_sharedTick :
    ∃ (w : LogicWorker ℚ) (as : List (WorkerEvent ℚ × WorkerOut ℚ)) (rs : WorkerRoom ℚ),
      as.map Prod.fst = sharedTick ∧ Transition.Run Steps {} as w ∧ w.rooms.lookup 3 = some rs ∧
        ∃ p, (inputs 3 {} (as.map Prod.fst)).foldl PrivateRoom.step none = some p ∧
          p.room.players = rs.players := by
  have hsome : ((Transition.exec step {} sharedTick).bind fun p => p.1.rooms.lookup 3).isSome =
      true := by
    decide +kernel
  obtain ⟨rs, hbind⟩ := Option.isSome_iff_exists.mp hsome
  obtain ⟨⟨w, as⟩, hexec, hrs⟩ := Option.bind_eq_some_iff.mp hbind
  have hevs := Transition.map_fst_of_exec hexec
  have hap : Apart (added (as.map Prod.fst)) := by
    rw [hevs]
    refine ⟨by decide, List.pairwise_pair.mpr ?_⟩
    intro pid hpid hpid'
    obtain rfl := (Finmap.mem_singleton pid 1 _).mp hpid
    exact absurd ((Finmap.mem_singleton _ 2 _).mp hpid') (by decide)
  have hrun := Transition.run_of_exec hexec
  exact ⟨w, as, rs, hevs, hrun, hrs, shared_simulates_private hrun hap hrs⟩

end LogicWorker

end MiniArena
