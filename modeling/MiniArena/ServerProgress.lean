/-
MiniArena/ServerProgress.lean

The server never gets stuck.

A handler crashes where it follows a pointer that is null or where
`std::stoull` throws, and the timer thread hangs where it pops from an empty
queue; in the model these have no step.  With a Redis whose commands succeed,
none of them is reachable: every frame is handled (`isSome_dispatch`), the timer
thread gets through `tryMatch` and `cleanupExpired` back to sleep
(`timer_returns`), and a worker through its tick (`worker_returns`).
-/
import MiniArena.BattlePlaces
import MiniArena.MatchBatch
import MiniArena.ServerStore

namespace MiniArena

variable {F : Type} [FloatOps F] {σ : Type} [Storage σ]

open RedisClient

/-- A Redis that works: its lists are queues, and `GET` answers with what is there. -/
structure RedisView.Works (R : RedisView σ) : Prop extends R.Fifo where
  get : ∀ key st text, (Storage.get key st).1 = some text → (R.strings st).lookup key = some text

/-- The stores the server may be started on: what an earlier run left in the
queues and in the login cache are decimal ids. -/
structure RedisView.Clean (R : RedisView σ) (st : σ) : Prop where
  queues : ∀ mode, ∃ q, R.Queue st mode q
  cache : R.Decimal st

namespace GameServer

variable {pb : Protobuf F} {g g' : GameServer σ F} {out : ServerOut F} {R : RedisView σ}

/-! ### Frames -/

/-- The iteration order that 3003 may need is one of the members of the room. -/
def Visits (g : GameServer σ F) (connId : ConnectionId) (env : Env) : Prop :=
  ∀ s room, g.currentRoom connId = some (s, room) →
    (env.order : Multiset PlayerId) = room.players.keys.val

omit [FloatOps F] in
theorem isSome_login (hR : R.Works) (hcache : R.Decimal g.sessions.store)
    (connId : ConnectionId) (frame : Frame) (env : Env) :
    (g.login pb connId frame env).isSome = true := by
  unfold login
  split
  · rfl
  · rename_i username password _
    have hread : (getCachedPlayer username g.sessions.store).isSome = true := by
      unfold getCachedPlayer
      split
      · rfl
      · rename_i text st hget
        obtain ⟨id, rfl⟩ := hcache username text (hR.get _ g.sessions.store text (by rw [hget]))
        rw [stoull_toStringU64]
        rfl
    rw [Option.isSome_map, SessionManager.login, Option.isSome_map, SessionManager.authenticate,
      Option.isSome_map, SessionManager.findPlayer, Option.isSome_map]
    exact hread

omit [FloatOps F] in
/-- The player of a session is found again, also after the push. -/
theorem isSome_matchStart (ht : SessionManager.Tables g.sessions) (connId : ConnectionId)
    (frame : Frame) : (g.matchStart pb connId frame).isSome = true := by
  unfold matchStart
  split
  · rfl
  · rename_i s hs
    rw [Option.isSome_map, joinQueue]
    dsimp only
    have hfound : g.sessions.getByPlayer s.playerId = some s :=
      SessionManager.getByPlayer_of_lookup ht (SessionManager.lookup_of_getByConn ht hs)
    have hpushed : SessionManager.Tables ({ g.sessions with
        store := pushMatchQueue (pb.matchStartRequest frame.payload) s.playerId g.sessions.store } :
        SessionManager σ) := (SessionManager.Quiet.store _ _).tables ht
    have hlook := SessionManager.lookup_of_getByConn ht hs
    show ((g.sessions.getByPlayer s.playerId).bind _).isSome = true
    rw [hfound, Option.bind_some, Option.isSome_map, SessionManager.setState]
    dsimp only
    rw [hlook]
    dsimp only
    rw [MatchManager.getByPlayer_save hpushed hfound]
    rfl

theorem isSome_playerReady {connId : ConnectionId} {env : Env} (hvisits : g.Visits connId env) :
    (g.playerReady connId env).isSome = true := by
  unfold playerReady
  split
  · rfl
  · rename_i s room hroom
    dsimp only
    split
    · rw [if_pos]
      · rfl
      · rw [Room.keys_playerReady]
        exact hvisits s room hroom
    · rfl

/-- **Every frame is handled.** -/
theorem isSome_dispatch (hR : R.Works) (hcache : R.Decimal g.sessions.store)
    (ht : SessionManager.Tables g.sessions) {connId : ConnectionId} (frame : Frame) {env : Env}
    (hvisits : g.Visits connId env) : (g.dispatch pb connId frame env).isSome = true := by
  unfold dispatch
  split
  · rfl
  · exact isSome_login hR hcache connId frame env
  · rfl
  · exact isSome_matchStart ht connId frame
  · rfl
  · rfl
  · exact isSome_playerReady hvisits
  · rfl
  · rfl
  · rfl
  · rfl

/-! ### The timer thread -/

/-- What the timer thread does by itself. -/
def OfTimer : ServerEvent F → Prop
  | .timerWakes => True
  | .tryMatch => True
  | .cleanupExpired _ _ => True
  | _ => False

variable (pb) in
/-- The end of `tryMatch` is the sweep, which takes every session once. -/
theorem sweeps (hphase : g.timer = .cleaning) :
    ∃ e g', Steps pb g e g' ∧ OfTimer e.1 ∧ g'.timer = .sleeping := by
  have horder : ((g.sessions.sessions.keys.toList : List SessionId) : Multiset SessionId) =
      g.sessions.sessions.keys.val := Finset.coe_toList _
  refine ⟨(.cleanupExpired 0 g.sessions.sessions.keys.toList, {}),
    { g with
      sessions := g.sessions.cleanupExpired 0 g.sessions.sessions.keys.toList
      timer := .sleeping }, ⟨?_, rfl⟩, trivial, rfl⟩
  dsimp only [step]
  rw [hphase]
  dsimp only
  rw [if_pos horder]

open MatchManager (measure)

variable (pb) in
theorem advances_timer (hR : R.Fifo) (h : MatchManager.Sound R g.toMatchManager)
    (hbusy : g.toMatchManager.phase ≠ .idle) :
    ∃ g' out, Steps pb g (.tryMatch, out) g' ∧ MatchManager.Sound R g'.toMatchManager ∧
      measure R g'.toMatchManager < measure R g.toMatchManager := by
  obtain ⟨m', notes, hadvance, hsound, hlt⟩ := h.proceeds hR hbusy
  have hlink := tryMatch_toMatchManager g
  rw [hadvance, Option.map_some] at hlink
  obtain ⟨⟨g', out⟩, htry, hg'⟩ := Option.map_eq_some_iff.mp hlink
  dsimp only at hg'
  exact ⟨g', out, ⟨htry, rfl⟩, hg' ▸ hsound, hg' ▸ hlt⟩

/-- **The timer thread gets back to sleep**, left alone.  By induction on what
is left of the call of `tryMatch`. -/
theorem timer_returns (hR : R.Fifo) (h : MatchManager.Sound R g.toMatchManager) :
    ∃ as g', Transition.Run (Steps pb) g as g' ∧ (∀ a ∈ as, OfTimer a.1) ∧
      g'.timer = .sleeping := by
  induction hk : measure R g.toMatchManager using Nat.strong_induction_on generalizing g with
  | _ k ih =>
    by_cases hidle : g.toMatchManager.phase = .idle
    · rcases htimer : g.timer with - | formed | ⟨formed, r, i⟩ | -
      · exact ⟨[], g, .nil, by simp, htimer⟩
      · simp [toMatchManager, htimer] at hidle
      · simp [toMatchManager, htimer] at hidle
      · obtain ⟨e, g', hstep, hof, hsleep⟩ := sweeps pb htimer
        refine ⟨[e], g', .single hstep, ?_, hsleep⟩
        rintro a ha
        obtain rfl := List.mem_singleton.mp ha
        exact hof
    · obtain ⟨g₁, out, hstep, hsound, hlt⟩ := advances_timer pb hR h hidle
      obtain ⟨as, g', hrun, hof, hsleep⟩ := ih _ (hk ▸ hlt) hsound rfl
      refine ⟨(.tryMatch, out) :: as, g', .cons hstep hrun, ?_, hsleep⟩
      rintro a (_ | ⟨_, ha⟩)
      · trivial
      · exact hof a ha

end GameServer

/-! ### The threads of the workers -/

/-- The rooms a tick still needs. -/
def Phase.todo : Phase F → List RoomId
  | .idle => []
  | .ticking _ left => left
  | .sending _ left r _ => r :: left
  | .checking _ left r => r :: left

/-- How many steps a tick still takes. -/
def Phase.steps : Phase F → ℕ
  | .idle => 0
  | .ticking _ left => 3 * left.length
  | .sending _ left _ _ => 3 * left.length + 2
  | .checking _ left _ => 3 * left.length + 1

namespace LogicWorker

variable {P : RoomId → Players F → Prop} {w w' : LogicWorker F}

/-- The rooms a tick still needs are there, and a tick that needs none is over. -/
structure Ready (w : LogicWorker F) : Prop where
  rooms : ∀ r ∈ w.phase.todo, r ∈ w.rooms
  ended : ∀ cmds, w.phase ≠ .ticking cmds []

omit [FloatOps F] in
theorem todo_nextRoom (cmds : List (Command F)) (left : List RoomId) :
    (nextRoom cmds left).todo = left ∧ ∀ cs, nextRoom cmds left ≠ .ticking cs [] := by
  cases left with
  | nil => exact ⟨rfl, nofun⟩
  | cons r left => exact ⟨rfl, nofun⟩

omit [FloatOps F] in
theorem steps_nextRoom (cmds : List (Command F)) (left : List RoomId) :
    (nextRoom cmds left).steps = 3 * left.length := by
  cases left with
  | nil => rfl
  | cons r left => rfl

omit [FloatOps F] in
theorem Ready.mono (h : Ready w) (hphase : w'.phase = w.phase) (hrooms : ∀ r ∈ w.rooms, r ∈ w'.rooms) :
    Ready w' where
  rooms := fun r hr => hrooms r (h.rooms r (hphase ▸ hr))
  ended := fun cmds heq => h.ended cmds (hphase ▸ heq)

theorem Ready.step (h : Ready w) (hlaw : UnderLaw P w) {event : WorkerEvent F} {out : WorkerOut F}
    (hthread : GameServer.ofThread event = true) (hstep : w.step event = some (w', out)) :
    Ready w' := by
  obtain ⟨-, hkeeps, -⟩ := hosts_step hlaw hthread hstep
  have hrest : ∀ left cmds, w'.phase = nextRoom cmds left → (∀ r ∈ left, r ∈ w.rooms) → Ready w' := by
    intro left cmds hphase hleft
    obtain ⟨htodo, hended⟩ := todo_nextRoom cmds left
    exact ⟨fun r hr => hkeeps r (hleft r (htodo ▸ hphase ▸ hr)), fun cs heq => hended cs (hphase ▸ heq)⟩
  have hneeds := h.rooms
  cases step_cases hstep with
  | drainPendingOp now phase =>
    have hphase : (w.drainPendingOp now).phase = w.phase := by
      unfold drainPendingOp
      split
      · rfl
      · rename_i op ops _
        cases op <;> rfl
    exact h.mono hphase hkeeps
  | tickBegin order phase once =>
    refine hrest order w.cmdQueue rfl fun r hr => ?_
    rw [← Finmap.mem_keys, ← Finset.mem_val, ← once]
    exact Multiset.mem_coe.mpr hr
  | tickRoom order phase room members =>
    rw [phase] at hneeds
    exact ⟨fun a ha => hkeeps a (hneeds a ha), nofun⟩
  | broadcast phase room =>
    rw [phase] at hneeds
    exact ⟨fun a ha => hkeeps a (hneeds a ha), nofun⟩
  | checkDisconnected now phase room =>
    rw [phase] at hneeds
    exact hrest _ _ rfl fun a ha => hneeds a (List.mem_cons_of_mem _ ha)
  | _ => simp [GameServer.ofThread] at hthread

/-- **The next step of a tick** can be taken, and brings its end closer. -/
theorem Ready.proceeds (h : Ready w) (hbusy : w.phase ≠ .idle) (now : ℤ) :
    ∃ event out w', ((∃ order, event = .tickRoom order) ∨ event = .broadcast ∨
        event = .checkDisconnected now) ∧
      w.step event = some (w', out) ∧ w'.phase.steps < w.phase.steps := by
  have hneeds := h.rooms
  rcases hphase : w.phase with - | ⟨cmds, left⟩ | ⟨cmds, left, r, state⟩ | ⟨cmds, left, r⟩
  · exact absurd hphase hbusy
  · rcases left with - | ⟨r, left⟩
    · exact absurd hphase (h.ended cmds)
    · rw [hphase] at hneeds
      obtain ⟨rs, hrs⟩ := Finmap.mem_iff.mp (hneeds r List.mem_cons_self)
      refine ⟨.tickRoom rs.players.keys.toList, (w.tickRoom cmds left r rs rs.players.keys.toList).2,
        (w.tickRoom cmds left r rs rs.players.keys.toList).1, .inl ⟨_, rfl⟩, ?_, ?_⟩
      · simp only [LogicWorker.step, hphase, hrs]
        rw [if_pos (Finset.coe_toList _)]
      · show 3 * left.length + 2 < 3 * (left.length + 1)
        omega
  · rw [hphase] at hneeds
    obtain ⟨rs, hrs⟩ := Finmap.mem_iff.mp (hneeds r List.mem_cons_self)
    refine ⟨.broadcast, (w.broadcast cmds left r state rs).2, (w.broadcast cmds left r state rs).1,
      .inr (.inl rfl), ?_, ?_⟩
    · simp only [LogicWorker.step, hphase, hrs, Option.map_some]
    · show 3 * left.length + 1 < 3 * left.length + 2
      omega
  · rw [hphase] at hneeds
    obtain ⟨rs, hrs⟩ := Finmap.mem_iff.mp (hneeds r List.mem_cons_self)
    refine ⟨.checkDisconnected now, {}, { w with
        rooms := w.rooms.insert r (checkDisconnected rs now)
        phase := nextRoom cmds left }, .inr (.inr rfl), ?_, ?_⟩
    · simp only [LogicWorker.step, hphase, hrs, Option.map_some]
    · show (nextRoom cmds left).steps < 3 * left.length + 1
      rw [steps_nextRoom]
      omega

end LogicWorker

namespace GameServer

open LogicWorker (UnderLaw Ready)

variable {pb : Protobuf F} {g g' : GameServer σ F} {R : RedisView σ}

theorem ready_step {P : ℕ → RoomId → Players F → Prop}
    (hlaw : ∀ (i : ℕ) w, g.battle.workers[i]? = some w → UnderLaw (P i) w)
    (h : ∀ (i : ℕ) w, g.battle.workers[i]? = some w → Ready w) {e : ServerEvent F × ServerOut F}
    (hstep : Steps pb g e g') : ∀ (i : ℕ) w, g'.battle.workers[i]? = some w → Ready w := by
  intro i w' hw'
  cases battleMove_step hstep.1 with
  | same battle quiet => exact h i w' (battle ▸ hw')
  | @command r cmd type battle quiet =>
    rw [battle, BattleManager.workers_step BattleManager.Steps.dispatchCommand] at hw'
    obtain ⟨w, hw, rfl⟩ := Option.map_eq_some_iff.mp hw'
    unfold BattleManager.after
    dsimp only
    split
    · exact (h i w hw).mono rfl fun r hr => hr
    · exact h i w hw
  | @start r before room now order found same members battle enqueued =>
    rw [battle, BattleManager.startBattle_fst,
      BattleManager.workers_step (BattleManager.Steps.startBattle members)] at hw'
    obtain ⟨w, hw, rfl⟩ := Option.map_eq_some_iff.mp hw'
    have hkeeps : (if g.battle.assignWorker room.roomId = i then
        w.enqueue (.addRoom room.roomId (BattleManager.battlePlayers room order)) else w).KeepsRooms := by
      split
      · exact BattleManager.keepsRooms_enqueue (hlaw i w hw).keepsRooms nofun
      · exact (hlaw i w hw).keepsRooms
    have hready : Ready (if g.battle.assignWorker room.roomId = i then
        w.enqueue (.addRoom room.roomId (BattleManager.battlePlayers room order)) else w) := by
      split
      · exact (h i w hw).mono rfl fun r hr => hr
      · exact h i w hw
    unfold BattleManager.after
    dsimp only
    generalize (if g.battle.assignWorker room.roomId = i then
        w.enqueue (.addRoom room.roomId (BattleManager.battlePlayers room order)) else w) = u
      at hkeeps hready ⊢
    split
    · refine hready.mono (LogicWorker.drainPendingOps_spec u now).2.2 fun a ha => ?_
      exact (LogicWorker.mem_rooms_drainPendingOps hkeeps now a).mpr (Or.inl ha)
    · exact hready
  | @worker j w w₁ event o started thread worker step battle quiet =>
    rw [battle] at hw'
    change (g.battle.workers.set j w₁)[i]? = some w' at hw'
    rw [List.getElem?_set] at hw'
    split at hw'
    · obtain rfl : w₁ = w' := by
        split at hw'
        · exact Option.some.inj hw'
        · cases hw'
      exact (h j w worker).step (hlaw j w worker) thread step
    · exact h i w' hw'

theorem ready_run {store : σ} {roomSize : ℤ} {as : List (ServerEvent F × ServerOut F)}
    (h : Transition.Run (Steps pb) (init store roomSize) as g) :
    ∀ (i : ℕ) w, g.battle.workers[i]? = some w → Ready w := by
  refine (h.record (I := fun as g => Transition.Run (Steps pb) (init store roomSize) as g ∧
    ∀ (i : ℕ) w, g.battle.workers[i]? = some w → Ready w) ?_ ⟨.nil, ?_⟩).2
  · rintro past g e g' ⟨hpast, hready⟩ hstep
    exact ⟨hpast.append (.single hstep), ready_step (roomLaw_run memberLaw hpast) hready hstep⟩
  · intro i w hw
    obtain ⟨-, rfl⟩ := List.mem_replicate.mp (List.mem_of_getElem? hw)
    exact ⟨nofun, nofun⟩

/-- **A worker gets through its tick**, left alone.  By induction on the steps
the tick still takes. -/
theorem worker_returns {store : σ} {roomSize : ℤ} {past : List (ServerEvent F × ServerOut F)}
    (hpast : Transition.Run (Steps pb) (init store roomSize) past g) {i : ℕ}
    (hstarted : i ∈ g.battle.started) {w : LogicWorker F} (hw : g.battle.workers[i]? = some w) :
    ∃ as g' w', Transition.Run (Steps pb) g as g' ∧ (∀ a ∈ as, ∃ event, a.1 = .worker i event) ∧
      g'.battle.workers[i]? = some w' ∧ w'.phase = .idle := by
  induction hk : w.phase.steps using Nat.strong_induction_on generalizing g w past with
  | _ k ih =>
    by_cases hidle : w.phase = .idle
    · exact ⟨[], g, w, .nil, by simp, hw, hidle⟩
    · obtain ⟨event, out, w₁, hevent, hstep, hlt⟩ := (ready_run hpast i w hw).proceeds hidle 0
      have hthread : ofThread event = true := by
        rcases hevent with ⟨order, rfl⟩ | rfl | rfl <;> rfl
      obtain ⟨o, hserver⟩ : ∃ o, Steps pb g (.worker i event, o)
          { g with battle := { g.battle with workers := g.battle.workers.set i w₁ } } := by
        refine ⟨{ sends := out.toRoom.flatMap g.relay
                  broadcasts := (out.toAoi + out.overrides).bind fun s => g.relay s }, ?_, rfl⟩
        show g.workerStep i event = _
        rw [workerStep, if_pos ⟨hstarted, hthread⟩, hw, Option.bind_some, hstep, Option.map_some]
      obtain ⟨hi, -⟩ := List.getElem?_eq_some_iff.mp hw
      obtain ⟨as, g', w', hrun, hof, hw', hdone⟩ := ih _ (hk ▸ hlt) (hpast.append (.single hserver))
        hstarted (List.getElem?_set_self hi) rfl
      refine ⟨(.worker i event, o) :: as, g', w', .cons hserver hrun, ?_, hw', hdone⟩
      rintro a (_ | ⟨_, ha⟩)
      · exact ⟨event, rfl⟩
      · exact hof a ha

/-! ### The server -/

/-- **The server never gets stuck**, on a Redis that works: in every reachable
state every frame is handled, the timer thread finds its way back to sleep,
and every started worker to the end of its tick. -/
theorem server_progress (hR : R.Works) {store : σ} (hclean : R.Clean store) {roomSize : ℤ}
    (hsize : 1 ≤ roomSize) {as : List (ServerEvent F × ServerOut F)}
    (h : Transition.Run (Steps pb) (init store roomSize) as g) :
    (∀ loop connId frame env, g.Visits connId env →
      (step pb g (.frame loop connId frame env)).isSome = true) ∧
    (∃ bs g', Transition.Run (Steps pb) g bs g' ∧ (∀ b ∈ bs, OfTimer b.1) ∧
      g'.timer = .sleeping) ∧
    ∀ i ∈ g.battle.started, ∀ w, g.battle.workers[i]? = some w →
      ∃ bs g' w', Transition.Run (Steps pb) g bs g' ∧
        (∀ b ∈ bs, ∃ event, b.1 = .worker i event) ∧ g'.battle.workers[i]? = some w' ∧
        w'.phase = .idle := by
  have hsound := sound_server hR.toFifo hsize hclean.queues h
  refine ⟨?_, timer_returns hR.toFifo hsound, ?_⟩
  · intro loop connId frame env hvisits
    have hcache := decimal_server hclean.cache h
    exact isSome_dispatch (g := { g with connToLoop := g.connToLoop.insert connId loop }) hR
      hcache hsound.tables frame hvisits
  · exact fun i hi w hw => worker_returns h hi hw

end GameServer

theorem MemoryStore.works_redisView : MemoryStore.redisView.Works where
  toFifo := MemoryStore.fifo_redisView
  get _ _ _ h := h

theorem MemoryStore.clean_empty : MemoryStore.redisView.Clean ({} : MemoryStore) where
  queues mode := by
    refine ⟨[], ?_⟩
    show (((∅ : Finmap fun _ : String => List String).lookup (matchQueueKey mode)).getD []) = []
    rw [Finmap.lookup_empty]
    rfl
  cache username text htext := by
    change (∅ : Finmap fun _ : String => String).lookup _ = some text at htext
    rw [Finmap.lookup_empty] at htext
    cases htext

namespace GameServer

/-- Where player 1 has a battle on the worker 1. -/
theorem server_progress_soloBattle : ∃ g : GameServer MemoryStore ℚ, 1 ∈ g.battle.started ∧
    (∀ loop connId frame env, g.Visits connId env →
      (step annRequests g (.frame loop connId frame env)).isSome = true) ∧
    (∃ bs g', Transition.Run (Steps annRequests) g bs g' ∧ (∀ b ∈ bs, OfTimer b.1) ∧
      g'.timer = .sleeping) ∧
    ∀ i ∈ g.battle.started, ∀ w, g.battle.workers[i]? = some w →
      ∃ bs g' w', Transition.Run (Steps annRequests) g bs g' ∧
        (∀ b ∈ bs, ∃ event, b.1 = .worker i event) ∧ g'.battle.workers[i]? = some w' ∧
        w'.phase = .idle := by
  have hrun : (exec annRequests (init ({} : MemoryStore) 1) soloBattle).map (fun p =>
      decide (1 ∈ p.1.battle.started)) = some true := by
    decide +kernel
  obtain ⟨⟨g, as⟩, hexec, hstarted⟩ := Option.map_eq_some_iff.mp hrun
  exact ⟨g, of_decide_eq_true hstarted, server_progress MemoryStore.works_redisView
    MemoryStore.clean_empty (by decide) (run_of_exec hexec)⟩

end GameServer

end MiniArena
