/-
MiniArena/Reconnect.lean

Players who lose their connection in a battle, and who come back.

The disconnect callback writes DISCONNECTED into the session before it asks
whether the session was IN_BATTLE, so no disconnect is ever reported to a
worker (`disconnect_unreported`), and no worker ever has a player to time out
(`unmarked_run`).  `tryReconnect` writes IN_LOBBY before the handler asks for
IN_BATTLE, so no reconnect ever leads back into the battle
(`reconnect_unrestored`).
-/
import MiniArena.BattleStart

namespace MiniArena

variable {F : Type} [FloatOps F] {σ : Type} [Storage σ]

namespace LogicWorker

/-! ### Workers without disconnected players -/

/-- Nobody is marked as disconnected, and nothing in the queue will mark one. -/
structure Unmarked (w : LogicWorker F) : Prop where
  queue : ∀ r p, PendingOp.markDisconnected r p ∉ w.pendingOps
  rooms : ∀ r rs, w.rooms.lookup r = some rs → rs.disconnected = ∅

variable {w w' : LogicWorker F}

omit [FloatOps F] in
theorem unmarked_empty {bc : Broadcaster (BattlePayload F)} : Unmarked { bc := bc } where
  queue := fun _ _ h => nomatch h
  rooms := by
    intro r rs h
    simp at h

omit [FloatOps F] in
/-- Writing back a room in which nobody is marked. -/
theorem Unmarked.insert (h : Unmarked w) {r : RoomId} {rs : WorkerRoom F}
    (hrs : rs.disconnected = ∅) :
    ∀ a q, (w.rooms.insert r rs).lookup a = some q → q.disconnected = ∅ := by
  intro a q hq
  rw [Finmap.lookup_insert_eq] at hq
  split at hq
  · obtain rfl := Option.some.inj hq
    exact hrs
  · exact h.rooms a q hq

omit [FloatOps F] in
theorem Unmarked.enqueue (h : Unmarked w) (r : RoomId) (players : Players F) :
    Unmarked (w.enqueue (.addRoom r players)) where
  queue := by
    intro a p hmem
    rcases List.mem_append.mp hmem with hmem | hmem
    · exact h.queue a p hmem
    · cases List.mem_singleton.mp hmem
  rooms := h.rooms

omit [FloatOps F] in
/-- Applying an operation that marks nobody. -/
theorem Unmarked.applyOp (h : Unmarked w) (now : ℤ) {op : PendingOp F}
    (hop : ∀ r p, op ≠ .markDisconnected r p) : Unmarked (w.applyOp now op) := by
  cases op with
  | addRoom r players => exact ⟨h.queue, h.insert rfl⟩
  | removeRoom r =>
    refine ⟨h.queue, fun a q hq => ?_⟩
    change (w.rooms.erase r).lookup a = some q at hq
    rw [Finmap.lookup_erase_eq] at hq
    split at hq
    · cases hq
    · exact h.rooms a q hq
  | markDisconnected r p => exact absurd rfl (hop r p)

omit [FloatOps F] in
theorem Unmarked.drainPendingOps (h : Unmarked w) (now : ℤ) : Unmarked (w.drainPendingOps now) := by
  have hfold : ∀ (ops : List (PendingOp F)) (w : LogicWorker F), Unmarked w →
      (∀ r p, PendingOp.markDisconnected r p ∉ ops) →
      Unmarked (ops.foldl (fun w op => w.applyOp now op) w) := by
    intro ops
    induction ops with
    | nil => exact fun w hw _ => hw
    | cons op ops ih =>
      intro w hw hops
      apply ih
      · apply hw.applyOp now
        rintro r p rfl
        exact hops r p List.mem_cons_self
      · exact fun r p hmem => hops r p (List.mem_cons_of_mem op hmem)
  exact hfold w.pendingOps _ ⟨fun _ _ hmem => (nomatch hmem), h.rooms⟩ h.queue

omit [FloatOps F] in
/-- Nobody is timed out, so nobody is taken off the list. -/
theorem disconnected_checkDisconnected {rs : WorkerRoom F} (h : rs.disconnected = ∅) (now : ℤ) :
    (checkDisconnected rs now).disconnected = ∅ := by
  unfold checkDisconnected
  rw [h]
  rfl

theorem Unmarked.step (h : Unmarked w) {event : WorkerEvent F} {out : WorkerOut F}
    (hevent : GameServer.ofThread event = true ∨ ∃ cmd, event = .pushCommand cmd)
    (hstep : w.step event = some (w', out)) : Unmarked w' := by
  cases step_cases hstep with
  | pushCommand cmd => exact ⟨h.queue, h.rooms⟩
  | drainPendingOp now phase =>
    unfold drainPendingOp
    split
    · exact h
    · rename_i op ops hops
      have hrest : Unmarked { w with pendingOps := ops } :=
        ⟨fun r p hmem => h.queue r p (hops ▸ List.mem_cons_of_mem op hmem), h.rooms⟩
      apply hrest.applyOp now
      rintro r p rfl
      exact h.queue r p (hops ▸ List.mem_cons_self)
  | tickBegin order phase once => exact ⟨h.queue, h.rooms⟩
  | @tickRoom cmds left r rs order phase room members =>
    exact ⟨h.queue, h.insert (h.rooms r rs room)⟩
  | broadcast phase room => exact ⟨h.queue, h.rooms⟩
  | @checkDisconnected cmds left r rs now phase room =>
    exact ⟨h.queue, h.insert (disconnected_checkDisconnected (h.rooms r rs room) now)⟩
  | _ => simp [GameServer.ofThread] at hevent

end LogicWorker

namespace GameServer

open LogicWorker (Unmarked)

variable {pb : Protobuf F} {g g' : GameServer σ F} {out : ServerOut F}

theorem unmarked_step (h : ∀ w ∈ g.battle.workers, Unmarked w)
    {e : ServerEvent F × ServerOut F} (hstep : Steps pb g e g') :
    ∀ w ∈ g'.battle.workers, Unmarked w := by
  have hquiet : NoStart g g' e.2.ops → ∀ w ∈ g'.battle.workers, Unmarked w := by
    intro hno w' hmem
    obtain ⟨i, hi⟩ := List.mem_iff_getElem?.mp hmem
    obtain ⟨w, hw, rfl | ⟨event, out, hevent, hmove⟩⟩ := hno.workers i w' hi
    · exact h w' (List.mem_of_getElem? hw)
    · exact (h w (List.mem_of_getElem? hw)).step hevent hmove
  have heff := step_effect hstep.1
  generalize action pb g e.1 = a at heff
  cases heff with
  | quiet rooms sessions battle => exact hquiet battle
  | login rooms sessions battle => exact hquiet battle
  | enter session found rooms sessions battle => exact hquiet battle
  | ready found waiting rooms sessions battle => exact hquiet battle
  | start found allReady rooms sessions table workers enqueued =>
    rw [workers]
    intro w' hmem
    obtain ⟨w, hw, rfl⟩ := List.mem_map.mp hmem
    have hpushed : Unmarked w := by
      obtain ⟨i, hi⟩ := List.mem_iff_getElem?.mp hw
      change (g.battle.workers.modify _ _)[i]? = some w at hi
      rw [List.getElem?_modify] at hi
      obtain ⟨v, hv, rfl⟩ := Option.map_eq_some_iff.mp hi
      have hun := h v (List.mem_of_getElem? hv)
      split
      · exact hun.enqueue _ _
      · exact hun
    split
    · exact hpushed.drainPendingOps _
    · exact hpushed
  | form rooms sessions battle => exact hquiet battle
  | seat session found rooms sessions battle => exact hquiet battle

/-- **No player is ever marked as disconnected**, in any run of the server. -/
theorem unmarked_run {store : σ} {roomSize : ℤ} {as : List (ServerEvent F × ServerOut F)}
    (h : Transition.Run (Steps pb) (init store roomSize) as g) :
    ∀ w ∈ g.battle.workers, Unmarked w := by
  apply h.invariant (I := fun g => ∀ w ∈ g.battle.workers, Unmarked w)
  · exact fun g e g' h hstep => unmarked_step h hstep
  · intro w hw
    obtain ⟨-, rfl⟩ := List.mem_replicate.mp hw
    exact LogicWorker.unmarked_empty

/-! ### Losing the connection -/

/-- The session on `connId` is that of the player `pid`, in the battle of the room `r`. -/
def InBattle (g : GameServer σ F) (connId : ConnectionId) (pid : PlayerId) (r : RoomId) : Prop :=
  ∃ s, g.sessions.getByConn connId = some s ∧ s.playerId = pid ∧ s.state = .inBattle ∧
    s.currentRoom = r ∧ 0 < r ∧ r ∈ g.battle.roomToWorker

def marks (pid : PlayerId) (r : RoomId) (i : ℕ) (o : Enqueued F) : Bool :=
  match o.op with
  | .markDisconnected a p => decide (a = r ∧ p = pid ∧ o.worker = i)
  | _ => false

/-- The worker of the room `r` is told once that `pid` is disconnected. -/
def Reported (g : GameServer σ F) (ops : List (Enqueued F)) (pid : PlayerId) (r : RoomId) : Prop :=
  ∃ i, g.battle.roomToWorker.lookup r = some i ∧ ops.countP (marks pid r i) = 1

/-- **No disconnect reaches the battle.**  The session is found DISCONNECTED
and still in its room, but the worker is not told. -/
theorem disconnect_unreported {connId : ConnectionId} {pid : PlayerId} {r : RoomId} {now : ℤ}
    (hbattle : InBattle g connId pid r) (hstep : Steps pb g (.disconnect connId now, out) g') :
    (∃ s, g'.sessions.getByConn connId = some s ∧ s.playerId = pid ∧ s.state = .disconnected ∧
      s.currentRoom = r) ∧ g'.battle = g.battle ∧ ¬ Reported g out.ops pid r := by
  have hdisc : g.onDisconnect connId now = (g', out) := Option.some.inj hstep.1
  rw [onDisconnect_eq] at hdisc
  obtain ⟨rfl, rfl⟩ := Prod.mk.injEq .. ▸ hdisc
  obtain ⟨s, hs, rfl, -, rfl, -⟩ := hbattle
  refine ⟨⟨_, getByConn_markDisconnected now hs, rfl, rfl, rfl⟩, rfl, ?_⟩
  rintro ⟨i, -, hone⟩
  cases hone

/-- After `soloBattle`, player 1 is in the battle of room 1, and could come
back to its session 11 after a disconnect. -/
theorem inBattle_soloBattle : ∃ (g : GameServer MemoryStore ℚ)
    (as : List (ServerEvent ℚ × ServerOut ℚ)),
    Transition.Run (Steps annRequests) (init {} 1) as g ∧ InBattle g 1 1 1 ∧
      ((g.sessions.markDisconnected 1 5).tryReconnect 11 2 6 6).2 =
        { sessionId := 11, playerId := 1 } := by
  have hrun : (exec annRequests (init ({} : MemoryStore) 1) soloBattle).map (fun p =>
      ((p.1.sessions.getByConn 1).map fun s => (s.playerId, s.state, s.currentRoom),
        decide (1 ∈ p.1.battle.roomToWorker),
        ((p.1.sessions.markDisconnected 1 5).tryReconnect 11 2 6 6).2)) =
      some (some (1, .inBattle, 1), true, { sessionId := 11, playerId := 1 }) := by
    decide +kernel
  obtain ⟨⟨g, as⟩, hexec, hfacts⟩ := Option.map_eq_some_iff.mp hrun
  simp only [Prod.mk.injEq] at hfacts
  obtain ⟨hsession, htable, hback⟩ := hfacts
  obtain ⟨s, hs, hfields⟩ := Option.map_eq_some_iff.mp hsession
  simp only [Prod.mk.injEq] at hfields
  obtain ⟨hp, hst, hr⟩ := hfields
  exact ⟨g, as, run_of_exec hexec,
    ⟨s, hs, hp, hst, hr, Nat.one_pos, of_decide_eq_true htable⟩, hback⟩

theorem disconnect_unreported_soloBattle : ∃ g g' : GameServer MemoryStore ℚ,
    (∃ s, g'.sessions.getByConn 1 = some s ∧ s.playerId = 1 ∧ s.state = .disconnected ∧
      s.currentRoom = 1) ∧ g'.battle = g.battle ∧ ¬ Reported g [] 1 1 := by
  obtain ⟨g, as, -, hbattle, -⟩ := inBattle_soloBattle
  have hstep : Steps annRequests g (.disconnect 1 5, (g.onDisconnect 1 5).2) (g.onDisconnect 1 5).1 :=
    ⟨rfl, rfl⟩
  rw [onDisconnect_eq] at hstep
  exact ⟨g, _, disconnect_unreported hbattle hstep⟩

/-- **The law fails in a reachable state.** -/
theorem unreported_soloBattle :
    ¬ ∀ (as : List (ServerEvent ℚ × ServerOut ℚ)) (g g' : GameServer MemoryStore ℚ)
        (out : ServerOut ℚ) (connId : ConnectionId) (pid : PlayerId) (r : RoomId) (now : ℤ),
        Transition.Run (Steps annRequests) (init {} 1) as g → InBattle g connId pid r →
        Steps annRequests g (.disconnect connId now, out) g' → Reported g out.ops pid r := by
  intro hclaim
  obtain ⟨g, as, hrun, hbattle, -⟩ := inBattle_soloBattle
  have hstep : Steps annRequests g (.disconnect 1 5, (g.onDisconnect 1 5).2) (g.onDisconnect 1 5).1 :=
    ⟨rfl, rfl⟩
  obtain ⟨i, -, hone⟩ := hclaim as g _ _ 1 1 1 5 hrun hbattle hstep
  rw [onDisconnect_eq] at hone
  cases hone

/-! ### Coming back -/

/-- The event is a ReconnectRequest of the session `sid`, on `connId`. -/
def Requests (pb : Protobuf F) (e : ServerEvent F) (sid : SessionId) (connId : ConnectionId)
    (env : Env) : Prop :=
  ∃ loop frame, e = .frame loop connId frame env ∧
    handlers.lookup frame.messageId = some .reconnect ∧ pb.reconnectRequest frame.payload = some sid

/-- In a run of the server `pid` loses the connection `old` in the battle of
the room `r`, and later, `r` still having its worker, a ReconnectRequest for
it on another connection is accepted. -/
structure Reconnects (pb : Protobuf F) (g : GameServer σ F) (e : ServerEvent F × ServerOut F)
    (g' : GameServer σ F) (old : ConnectionId) (pid : PlayerId) (r : RoomId) : Prop where
  lost : ∃ store roomSize before g₁ now out g₂ between,
    Transition.Run (Steps pb) (init store roomSize) before g₁ ∧ InBattle g₁ old pid r ∧
    Steps pb g₁ (.disconnect old now, out) g₂ ∧ Transition.Run (Steps pb) g₂ between g
  running : r ∈ g.battle.roomToWorker
  accepted : ∃ sid connId env, Requests pb e.1 sid connId env ∧ connId ≠ old ∧
    (g.sessions.tryReconnect sid connId env.now env.later).2.errorCode = 0 ∧
    (g.sessions.tryReconnect sid connId env.now env.later).2.playerId = pid
  step : Steps pb g e g'

/-- The player is back in the battle. -/
structure Restored (g : GameServer σ F) (out : ServerOut F) (pid : PlayerId) (r : RoomId) :
    Prop where
  snapshot : ∃ s q players, s ∈ out.sends ∧ g.sessions.getByPlayer pid = some q ∧
    s.connId = q.connId ∧ s.msgId = 5003 ∧ s.reply = .battle (.battleSnapshotNotify r players)
  session : ∃ s, g.sessions.getByPlayer pid = some s ∧ s.state = .inBattle ∧ s.currentRoom = r
  /-- No pending or recorded disconnect is left that could time the player out. -/
  timeout : ∀ i w, g.battle.roomToWorker.lookup r = some i → g.battle.workers[i]? = some w →
    .markDisconnected r pid ∉ w.pendingOps ∧
    ∀ rs, w.rooms.lookup r = some rs → pid ∉ rs.disconnected

/-- What an accepted reconnect does to the sessions. -/
theorem tryReconnect_accepted {m : SessionManager σ} {sid : SessionId} {connId : ConnectionId}
    {now later : ℤ} (h : (m.tryReconnect sid connId now later).2.errorCode = 0) :
    ∃ s, m.sessions.lookup sid = some s ∧
      (m.tryReconnect sid connId now later).2 = { sessionId := sid, playerId := s.playerId } ∧
      (m.tryReconnect sid connId now later).1.sessions =
        m.sessions.insert sid (SessionManager.reconnected s connId later) := by
  rcases SessionManager.tryReconnect_cases m sid connId now later with
    ⟨-, _, hfail, heq⟩ | ⟨s, hs, -, ⟨-, heq⟩ | ⟨-, heq⟩⟩
  · rw [heq] at h
    exact absurd h hfail
  · rw [heq] at h
    cases h
  · rw [heq]
    exact ⟨s, hs, rfl, rfl⟩

omit [FloatOps F] in
/-- The handler of an accepted request: the response, and nothing else. -/
theorem reconnect_accepted {connId : ConnectionId} {frame : Frame} {env : Env} {sid : SessionId}
    (hreq : pb.reconnectRequest frame.payload = some sid)
    (hok : (g.sessions.tryReconnect sid connId env.now env.later).2.errorCode = 0) :
    (g.reconnect pb connId frame env).1.sessions =
        (g.sessions.tryReconnect sid connId env.now env.later).1 ∧
      (g.reconnect pb connId frame env).2.sends =
        g.sendResponse connId 5002 (.reconnectResponse 0 "") := by
  obtain ⟨s, -, hresult, hsessions⟩ := tryReconnect_accepted hok
  unfold reconnect
  rcases htry : g.sessions.tryReconnect sid connId env.now env.later with ⟨m, result⟩
  rw [htry] at hresult hsessions
  dsimp only at hresult hsessions
  subst hresult
  have hfound : m.getBySession sid = some (SessionManager.reconnected s connId env.later) := by
    rw [SessionManager.getBySession, hsessions]
    exact Finmap.lookup_insert _
  simp only [hreq, htry, hfound]
  refine ⟨trivial, ?_⟩
  -- the session is IN_LOBBY by now
  rw [if_neg]
  · exact List.append_nil _
  · rintro ⟨-, hstate, -⟩
    cases hstate

/-- What the step of an accepted reconnect sends, and to whom the session belongs. -/
theorem reconnects_spec {e : ServerEvent F × ServerOut F} {old : ConnectionId}
    {pid : PlayerId} {r : RoomId} (h : Reconnects pb g e g' old pid r) :
    (∃ g₀ : GameServer σ F, ∃ connId,
      e.2.sends = g₀.sendResponse connId 5002 (.reconnectResponse 0 "")) ∧
    ∃ sid s, g'.sessions.sessions.lookup sid = some s ∧ s.playerId = pid ∧ s.state = .inLobby := by
  obtain ⟨event, out⟩ := e
  obtain ⟨sid, connId, env, ⟨loop, frame, rfl, hroute, hreq⟩, -, hok, rfl⟩ := h.accepted
  have hstep : reconnect pb { g with connToLoop := g.connToLoop.insert connId loop } connId frame
      env = (g', out) := by
    have hstep := h.step.1
    simp only [step, dispatch, hroute] at hstep
    exact Option.some.inj hstep
  obtain ⟨hsessions, hsends⟩ :=
    reconnect_accepted (g := { g with connToLoop := g.connToLoop.insert connId loop }) hreq hok
  rw [hstep] at hsessions hsends
  obtain ⟨s, -, hresult, hinsert⟩ := tryReconnect_accepted hok
  refine ⟨⟨_, connId, hsends⟩, sid, SessionManager.reconnected s connId env.later, ?_, ?_, rfl⟩
  · rw [hsessions, hinsert]
    exact Finmap.lookup_insert _
  · rw [hresult]
    rfl

theorem no_snapshot {e : ServerEvent F × ServerOut F} {old : ConnectionId}
    {pid : PlayerId} {r : RoomId} (h : Reconnects pb g e g' old pid r) : ∀ s ∈ e.2.sends, s.msgId ≠ 5003 := by
  obtain ⟨⟨g₀, connId, hsends⟩, -⟩ := reconnects_spec h
  intro s hs
  rw [hsends] at hs
  unfold sendResponse at hs
  split at hs
  · cases hs
  · obtain rfl := List.mem_singleton.mp hs
    exact fun heq => absurd (show (5002 : UInt32) = 5003 from heq) (by decide)

omit [FloatOps F] [Storage σ] in
theorem Restored.sends {pid : PlayerId} {r : RoomId} (h : Restored g out pid r) :
    ∃ s ∈ out.sends, s.msgId = 5003 := by
  obtain ⟨s, -, -, hmem, -, -, hmsg, -⟩ := h.snapshot
  exact ⟨s, hmem, hmsg⟩

/-- The tables of the sessions are sound, so the player has this one session. -/
theorem inLobby_of_reconnects {e : ServerEvent F × ServerOut F} {old : ConnectionId}
    {pid : PlayerId} {r : RoomId} (h : Reconnects pb g e g' old pid r) :
    ∃ s, g'.sessions.getByPlayer pid = some s ∧ s.state = .inLobby := by
  obtain ⟨store, roomSize, before, g₁, now, out, g₂, between, hrun, -, hlost, hrest⟩ := h.lost
  have hall := (hrun.append (.cons hlost hrest)).append (.single h.step)
  have htables : SessionManager.Tables g'.sessions :=
    hall.invariant (I := fun g => SessionManager.Tables g.sessions)
      (fun _ _ _ ht hst => tables_step ht hst) (tables_init store roomSize)
  obtain ⟨-, sid, s, hs, rfl, hlobby⟩ := reconnects_spec h
  refine ⟨s, ?_, hlobby⟩
  rw [SessionManager.getByPlayer, htables.players.lookup hs]
  exact hs

/-- **No reconnect leads back into the battle.**  The accepted request gets
its response and no snapshot, and the session is IN_LOBBY. -/
theorem reconnect_unrestored {e : ServerEvent F × ServerOut F} {old : ConnectionId}
    {pid : PlayerId} {r : RoomId} (h : Reconnects pb g e g' old pid r) :
    (∀ s ∈ e.2.sends, s.msgId ≠ 5003) ∧
      (∃ s, g'.sessions.getByPlayer pid = some s ∧ s.state = .inLobby) ∧
      ¬ Restored g' e.2 pid r := by
  refine ⟨no_snapshot h, inLobby_of_reconnects h, fun hback => ?_⟩
  obtain ⟨s, hmem, hmsg⟩ := hback.sends
  exact no_snapshot h s hmem hmsg

/-- Player 1 loses the connection 1 in the battle of room 1 and asks for its
session again on connection 2. -/
def comesBack : ServerEvent ℚ := .frame 0 2 { messageId := 5001 } ⟨6, 6, 0, []⟩

theorem reconnects_soloBattle : ∃ (g g' : GameServer MemoryStore ℚ) (out : ServerOut ℚ),
    Reconnects annRequests g (comesBack, out) g' 1 1 1 := by
  obtain ⟨g₁, before, hrun, hbattle, hback⟩ := inBattle_soloBattle
  have hlost : Steps annRequests g₁ (.disconnect 1 5, (g₁.onDisconnect 1 5).2)
      (g₁.onDisconnect 1 5).1 := ⟨rfl, rfl⟩
  rw [onDisconnect_eq] at hlost
  have hrunning : 1 ∈ g₁.battle.roomToWorker := by
    obtain ⟨s, -, -, -, -, -, hmem⟩ := hbattle
    exact hmem
  refine ⟨_, _, _, ⟨{}, 1, before, g₁, 5, _, _, [], hrun, hbattle, hlost, .nil⟩, hrunning,
    ⟨11, 2, ⟨6, 6, 0, []⟩, ⟨0, { messageId := 5001 }, rfl, rfl, rfl⟩, by decide, ?_, ?_⟩, rfl, rfl⟩
  · exact congrArg LoginResult.errorCode hback
  · exact congrArg LoginResult.playerId hback

theorem reconnect_unrestored_soloBattle : ∃ (g' : GameServer MemoryStore ℚ) (out : ServerOut ℚ),
    (∀ s ∈ out.sends, s.msgId ≠ 5003) ∧
      (∃ s, g'.sessions.getByPlayer 1 = some s ∧ s.state = .inLobby) ∧ ¬ Restored g' out 1 1 := by
  obtain ⟨g, g', out, h⟩ := reconnects_soloBattle
  exact ⟨g', out, reconnect_unrestored h⟩

/-- **A run in which the player does not get back.** -/
theorem unrestored_soloBattle :
    ¬ ∀ (g g' : GameServer MemoryStore ℚ) (e : ServerEvent ℚ × ServerOut ℚ) (pid : PlayerId)
        (r : RoomId) (old : ConnectionId), Reconnects annRequests g e g' old pid r → Restored g' e.2 pid r := by
  intro hclaim
  obtain ⟨g, g', out, h⟩ := reconnects_soloBattle
  obtain ⟨s, hmem, hmsg⟩ := (hclaim g g' _ 1 1 1 h).sends
  exact no_snapshot h s hmem hmsg

end GameServer

end MiniArena
