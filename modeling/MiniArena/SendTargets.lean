/-
MiniArena/SendTargets.lean

Where the messages of the server go.

`conn_to_loop_` is written when a loop hands over a connection's frames and
erased when the connection is gone; `sendResponse` looks there for the event
loop to queue a message on.  So a message goes to the loop its connection was
last heard on, and none goes to a connection that was never heard or is gone.
Handlers and workers name the message ids by hand; each message carries the
id of its kind, the one the robot waits for.
-/
import MiniArena.TickNotices

namespace MiniArena

variable {F : Type} [FloatOps F] {σ : Type} [Storage σ]

/-! ### The id of a message -/

/-- The ids of the messages the server sends (`robot/frame.go`). -/
def Reply.msgId : Reply F → UInt32
  | .loginResponse .. => 1002
  | .heartbeatResponse .. => 1102
  | .matchStartResponse .. => 2002
  | .matchSuccessNotify .. => 2004
  | .enterRoomResponse .. => 3002
  | .battleStartNotify .. => 3004
  | .battle (.battleStateNotify ..) => 4004
  | .battle (.playerDeathNotify ..) => 4005
  | .reconnectResponse .. => 5002
  | .battle (.battleSnapshotNotify ..) => 5003

/-- The broadcaster is given the id of the payload. -/
def Send.Labelled (s : Send (BattlePayload F)) : Prop := s.msgId = (Reply.battle s.payload).msgId

namespace TickEngine

variable {bc : Broadcaster (BattlePayload F)}

omit [FloatOps F] in
theorem labelled_deathNotify {target attacker : PlayerId} {deaths : Option ℤ} :
    ∀ s ∈ deathNotify bc target attacker deaths, s.Labelled := by
  intro s hs
  cases deaths with
  | none => cases hs
  | some n =>
    rw [deathNotify, Broadcaster.broadcastToRoom] at hs
    split at hs
    · rw [List.mem_singleton.mp hs]
      rfl
    · cases hs

/-- Only deaths are announced while the commands run. -/
theorem labelled_execute {players : Players F} {cmd : Command F} {p : BattlePlayer F} :
    ∀ s ∈ (execute bc players cmd p).2, s.Labelled := by
  unfold execute
  split
  · exact nofun
  · exact nofun
  · split
    · exact nofun
    · unfold processAttack
      split
      · exact nofun
      · split
        · exact nofun
        · exact labelled_deathNotify
  · unfold processSkill
    split
    · exact nofun
    split
    · exact nofun
    split
    · exact nofun
    split
    · exact nofun
    dsimp only
    split
    · exact nofun
    split
    · exact nofun
    split
    · exact nofun
    split
    · exact labelled_deathNotify
    · exact nofun
  · exact nofun

theorem labelled_commands (cmds : List (Command F)) {l : Loop F}
    (h : ∀ s ∈ l.sends, s.Labelled) :
    ∀ s ∈ (cmds.foldl (processCommand bc) l).sends, s.Labelled := by
  induction cmds generalizing l with
  | nil => exact h
  | cons cmd cmds ih =>
    apply ih
    unfold processCommand
    split
    · exact h
    · split
      · exact h
      · dsimp only
        split
        · exact h
        · intro s hs
          rcases List.mem_append.mp hs with hs | hs
          · exact h s hs
          · exact labelled_execute s hs

end TickEngine

namespace LogicWorker

/-- Everything a prepared worker hands to the send callback is labelled. -/
theorem labelled_step {w w' : LogicWorker F} (h : Prepared w) {event : WorkerEvent F}
    {out : WorkerOut F} (hstep : w.step event = some (w', out)) :
    (∀ s ∈ out.toRoom, s.Labelled) ∧ ∀ s ∈ out.toAoi + out.overrides, s.Labelled := by
  cases step_cases hstep with
  | tickRoom order phase room members =>
    refine ⟨?_, fun s hs => absurd hs (Multiset.notMem_zero s)⟩
    exact TickEngine.labelled_commands _ fun s hs => absurd hs List.not_mem_nil
  | @broadcast cmds left r rs' state phase room =>
    obtain ⟨rs, hs⟩ := h.staged cmds left r state phase
    obtain ⟨order, -, rfl⟩ := hs.notify
    refine ⟨fun s hs => absurd hs List.not_mem_nil, fun s hsend => ?_⟩
    rcases Multiset.mem_add.mp hsend with hsend | hsend
    · obtain ⟨pid, -, hsend⟩ := Multiset.mem_bind.mp hsend
      rw [Broadcaster.broadcastToAoi, if_pos h.callback] at hsend
      obtain ⟨receiver, -, rfl⟩ := Multiset.mem_map.mp hsend
      rfl
    · change s ∈ w.bc.flushOverrides.2 at hsend
      rw [overrides_eq h.callback hs] at hsend
      obtain ⟨e, -, rfl⟩ := Multiset.mem_map.mp hsend
      rfl
  | _ =>
    exact ⟨fun s hs => absurd hs List.not_mem_nil, fun s hs => absurd hs (Multiset.notMem_zero s)⟩

end LogicWorker

namespace GameServer

variable {pb : Protobuf F} {g g' : GameServer σ F} {out : ServerOut F}

/-! ### One step -/

/-- The message is for a connection in the table, under the id of its kind. -/
structure Addressed (loops : Finmap fun _ : ConnectionId => ℕ) (m : Sent F) : Prop where
  loop : loops.lookup m.connId = some m.loop
  label : m.msgId = m.reply.msgId

omit [FloatOps F] [Storage σ] in
theorem addressed_sendResponse {connId : ConnectionId} {msgId : UInt32} {reply : Reply F}
    (h : msgId = reply.msgId) :
    ∀ m ∈ g.sendResponse connId msgId reply, Addressed g.connToLoop m := by
  intro m hm
  unfold sendResponse at hm
  split at hm
  · cases hm
  · rename_i loop hloop
    obtain rfl := List.mem_singleton.mp hm
    exact ⟨hloop, h⟩

omit [FloatOps F] [Storage σ] in
theorem addressed_sendToPlayer {pid : PlayerId} {msgId : UInt32} {reply : Reply F}
    (h : msgId = reply.msgId) :
    ∀ m ∈ g.sendToPlayer pid msgId reply, Addressed g.connToLoop m := by
  unfold sendToPlayer
  split
  · exact nofun
  · exact addressed_sendResponse h

/-- The table stays, and everything sent is addressed by it. -/
structure SendsBy (g g' : GameServer σ F) (out : ServerOut F) : Prop where
  loops : g'.connToLoop = g.connToLoop
  sends : ∀ m ∈ out.sends, Addressed g.connToLoop m
  broadcasts : ∀ m ∈ out.broadcasts, Addressed g.connToLoop m

omit [FloatOps F] [Storage σ] in
theorem sendsBy_nothing (h : g'.connToLoop = g.connToLoop) : SendsBy g g' ({} : ServerOut F) :=
  ⟨h, nofun, nofun⟩

section Handlers

variable {connId : ConnectionId} {frame : Frame} {env : Env}

omit [FloatOps F] in
theorem msgId_kickDuplicate (m : SessionManager σ) (pid : PlayerId) :
    ∀ k ∈ (m.kickDuplicate pid).2, k.msgId = 1002 := by
  intro k hk
  unfold SessionManager.kickDuplicate at hk
  split at hk
  · cases hk
  · split at hk
    · cases hk
    · unfold SessionManager.kickNotice at hk
      split at hk
      · rw [List.mem_singleton.mp hk]
      · cases hk

omit [FloatOps F] in
theorem sendsBy_login (h : g.login pb connId frame env = some (g', out)) : SendsBy g g' out := by
  unfold login at h
  split at h
  · obtain ⟨rfl, rfl⟩ := Prod.mk.injEq .. ▸ Option.some.inj h
    exact sendsBy_nothing rfl
  · obtain ⟨⟨m, result, kicks⟩, hlogin, heq⟩ := Option.map_eq_some_iff.mp h
    obtain ⟨rfl, rfl⟩ := Prod.mk.injEq .. ▸ heq
    have hkicks : ∀ k ∈ kicks, k.msgId = 1002 := by
      obtain ⟨⟨r, st⟩, -, hrest⟩ := Option.map_eq_some_iff.mp hlogin
      cases r with
      | error msg =>
        obtain ⟨-, -, rfl⟩ := Prod.mk.injEq .. ▸ Prod.mk.injEq .. ▸ hrest
        exact nofun
      | ok player =>
        obtain ⟨-, -, rfl⟩ := Prod.mk.injEq .. ▸ Prod.mk.injEq .. ▸ hrest
        exact msgId_kickDuplicate _ _
    refine ⟨rfl, fun m hm => ?_, nofun⟩
    rcases List.mem_append.mp hm with hm | hm
    · obtain ⟨k, hk, hm⟩ := List.mem_flatMap.mp hm
      exact addressed_sendResponse (hkicks k hk) m hm
    · exact addressed_sendResponse (by rfl) m hm

omit [FloatOps F] in
theorem sendsBy_matchStart (h : g.matchStart pb connId frame = some (g', out)) :
    SendsBy g g' out := by
  unfold matchStart at h
  split at h
  · obtain ⟨rfl, rfl⟩ := Prod.mk.injEq .. ▸ Option.some.inj h
    exact ⟨rfl, addressed_sendResponse rfl, nofun⟩
  · obtain ⟨r, -, heq⟩ := Option.map_eq_some_iff.mp h
    obtain ⟨rfl, rfl⟩ := Prod.mk.injEq .. ▸ heq
    exact ⟨rfl, addressed_sendResponse rfl, nofun⟩

omit [FloatOps F] [Storage σ] in
theorem sendsBy_heartbeat :
    SendsBy g (g.heartbeat connId env).1 (g.heartbeat connId env).2 := by
  unfold heartbeat
  split
  · exact sendsBy_nothing rfl
  · exact ⟨rfl, addressed_sendResponse rfl, nofun⟩

omit [FloatOps F] in
theorem sendsBy_matchCancel : SendsBy g (g.matchCancel connId) ({} : ServerOut F) := by
  unfold matchCancel
  split
  · exact sendsBy_nothing rfl
  · exact sendsBy_nothing rfl

omit [FloatOps F] in
theorem sendsBy_enterRoom :
    SendsBy g (g.enterRoom pb connId frame).1 (g.enterRoom pb connId frame).2 := by
  unfold enterRoom
  dsimp only
  split
  · exact ⟨rfl, addressed_sendResponse rfl, nofun⟩
  · split
    · exact ⟨rfl, addressed_sendResponse rfl, nofun⟩
    · split
      · exact ⟨rfl, addressed_sendResponse (g := g) rfl, nofun⟩
      · exact ⟨rfl, addressed_sendResponse (g := g) rfl, nofun⟩

theorem sendsBy_playerReady (h : g.playerReady connId env = some (g', out)) :
    SendsBy g g' out := by
  unfold playerReady at h
  split at h
  · obtain ⟨rfl, rfl⟩ := Prod.mk.injEq .. ▸ Option.some.inj h
    exact sendsBy_nothing rfl
  · dsimp only at h
    split at h
    · obtain ⟨-, heq⟩ := Option.ite_none_right_eq_some.mp h
      obtain rfl := congrArg Prod.fst (Option.some.inj heq)
      obtain rfl := congrArg Prod.snd (Option.some.inj heq)
      refine ⟨rfl, fun m hm => ?_, nofun⟩
      obtain ⟨pid, -, hm⟩ := List.mem_flatMap.mp hm
      have hsent := addressed_sendToPlayer (by rfl) m hm
      exact hsent
    · obtain ⟨rfl, rfl⟩ := Prod.mk.injEq .. ▸ Option.some.inj h
      exact sendsBy_nothing rfl

omit [Storage σ] in
theorem sendsBy_command (request : Option (Command F → Command F)) :
    SendsBy g (g.command connId frame request) ({} : ServerOut F) := by
  unfold command
  split
  · split
    · exact sendsBy_nothing rfl
    · exact sendsBy_nothing rfl
  · exact sendsBy_nothing rfl

omit [FloatOps F] [Storage σ] in
/-- What a client that is back gets, the state of the battle if it is in one. -/
theorem addressed_sendSnapshot (s : Session) (order : List PlayerId) :
    ∀ m ∈ g.sendSnapshot s order, Addressed g.connToLoop m := by
  unfold sendSnapshot
  split
  · exact nofun
  · rename_i payload hpayload
    obtain ⟨i, -, hrest⟩ := Option.bind_eq_some_iff.mp hpayload
    obtain ⟨w, -, hsnap⟩ := Option.bind_eq_some_iff.mp hrest
    obtain ⟨rs, -, rfl⟩ := Option.map_eq_some_iff.mp hsnap
    exact addressed_sendToPlayer rfl

omit [FloatOps F] in
theorem sendsBy_reconnect :
    SendsBy g (g.reconnect pb connId frame env).1 (g.reconnect pb connId frame env).2 := by
  unfold reconnect
  split
  · exact sendsBy_nothing rfl
  · refine ⟨rfl, fun m hm => ?_, nofun⟩
    rcases List.mem_append.mp hm with hm | hm
    · exact addressed_sendResponse (by rfl) m hm
    · split at hm
      · cases hm
      · split at hm
        · have hsent := addressed_sendSnapshot _ _ m hm
          exact hsent
        · cases hm

theorem sendsBy_dispatch (h : g.dispatch pb connId frame env = some (g', out)) :
    SendsBy g g' out := by
  unfold dispatch at h
  split at h
  · obtain ⟨rfl, rfl⟩ := Prod.mk.injEq .. ▸ Option.some.inj h
    exact sendsBy_nothing rfl
  · exact sendsBy_login h
  · obtain rfl := congrArg Prod.fst (Option.some.inj h)
    obtain rfl := congrArg Prod.snd (Option.some.inj h)
    exact sendsBy_heartbeat
  · exact sendsBy_matchStart h
  · obtain ⟨rfl, rfl⟩ := Prod.mk.injEq .. ▸ Option.some.inj h
    exact sendsBy_matchCancel
  · obtain rfl := congrArg Prod.fst (Option.some.inj h)
    obtain rfl := congrArg Prod.snd (Option.some.inj h)
    exact sendsBy_enterRoom
  · exact sendsBy_playerReady h
  · obtain ⟨rfl, rfl⟩ := Prod.mk.injEq .. ▸ Option.some.inj h
    exact sendsBy_command _
  · obtain ⟨rfl, rfl⟩ := Prod.mk.injEq .. ▸ Option.some.inj h
    exact sendsBy_command _
  · obtain ⟨rfl, rfl⟩ := Prod.mk.injEq .. ▸ Option.some.inj h
    exact sendsBy_command _
  · obtain rfl := congrArg Prod.fst (Option.some.inj h)
    obtain rfl := congrArg Prod.snd (Option.some.inj h)
    exact sendsBy_reconnect

end Handlers

omit [FloatOps F] in
theorem sendsBy_tryMatch (h : g.tryMatch = some (g', out)) : SendsBy g g' out := by
  unfold tryMatch at h
  split at h
  · obtain ⟨rfl, rfl⟩ := Prod.mk.injEq .. ▸ Option.some.inj h
    unfold checkQueue
    dsimp only
    split
    · exact sendsBy_nothing rfl
    · exact sendsBy_nothing rfl
  · unfold fillRoom at h
    split at h
    · obtain ⟨⟨popped, st⟩, -, hrest⟩ := Option.bind_eq_some_iff.mp h
      cases popped with
      | none =>
        obtain ⟨rfl, rfl⟩ := Prod.mk.injEq .. ▸ Option.some.inj hrest
        exact sendsBy_nothing rfl
      | some pid =>
        dsimp only at hrest
        split at hrest
        · obtain ⟨rfl, rfl⟩ := Prod.mk.injEq .. ▸ Option.some.inj hrest
          exact sendsBy_nothing rfl
        · obtain ⟨room, -, heq⟩ := Option.map_eq_some_iff.mp hrest
          obtain ⟨rfl, rfl⟩ := Prod.mk.injEq .. ▸ heq
          exact ⟨rfl, addressed_sendToPlayer (by rfl), nofun⟩
    · obtain ⟨rfl, rfl⟩ := Prod.mk.injEq .. ▸ Option.some.inj h
      exact sendsBy_nothing rfl
  · cases h

/-! ### Whole runs -/

/-- The loop each connection was last heard on, after one more event. -/
def hear (last : ConnectionId → Option ℕ) (e : ServerEvent F × ServerOut F) :
    ConnectionId → Option ℕ :=
  match e.1 with
  | .frame loop connId _ _ => Function.update last connId (some loop)
  | .disconnect connId _ => Function.update last connId none
  | _ => last

/-- `none` for a connection that was never heard, or is gone since. -/
def heard (past : List (ServerEvent F × ServerOut F)) : ConnectionId → Option ℕ :=
  past.foldl hear fun _ => none

omit [FloatOps F] in
theorem heard_concat (past : List (ServerEvent F × ServerOut F))
    (e : ServerEvent F × ServerOut F) : heard (past ++ [e]) = hear (heard past) e := by
  rw [heard, List.foldl_concat]
  rfl

/-- **One step.**  The table follows what is heard, and addresses what is sent. -/
theorem addressed_step {past : List (ServerEvent F × ServerOut F)}
    (hprep : ∀ (i : ℕ) w, g.battle.workers[i]? = some w → LogicWorker.Prepared w)
    (h : ∀ c, g.connToLoop.lookup c = heard past c) {e : ServerEvent F × ServerOut F}
    (hstep : Steps pb g e g') :
    (∀ c, g'.connToLoop.lookup c = heard (past ++ [e]) c) ∧
      (∀ m ∈ e.2.sends, Addressed g'.connToLoop m) ∧
      ∀ m ∈ e.2.broadcasts, Addressed g'.connToLoop m := by
  rw [heard_concat]
  obtain ⟨ev, out⟩ := e
  have hrun := hstep.1
  have hkept : SendsBy g g' out → (∀ c, g'.connToLoop.lookup c = heard past c) ∧
      (∀ m ∈ out.sends, Addressed g'.connToLoop m) ∧
      ∀ m ∈ out.broadcasts, Addressed g'.connToLoop m := by
    rintro ⟨hloops, hsends, hbroadcasts⟩
    rw [hloops]
    exact ⟨h, hsends, hbroadcasts⟩
  cases ev with
  | frame loop connId frame env =>
    obtain ⟨hloops, hsends, hbroadcasts⟩ := sendsBy_dispatch hrun
    rw [hloops]
    refine ⟨fun c => ?_, hsends, hbroadcasts⟩
    show (g.connToLoop.insert connId loop).lookup c = Function.update (heard past) connId _ c
    rw [Finmap.lookup_insert_eq, Function.update_apply, h]
  | disconnect connId now =>
    have hdisc : g.onDisconnect connId now = (g', out) := Option.some.inj hrun
    rw [onDisconnect_eq] at hdisc
    obtain ⟨rfl, rfl⟩ := Prod.mk.injEq .. ▸ hdisc
    refine ⟨fun c => ?_, nofun, nofun⟩
    show (g.connToLoop.erase connId).lookup c = Function.update (heard past) connId none c
    rw [Finmap.lookup_erase_eq, Function.update_apply, h]
  | timerWakes =>
    dsimp only [step] at hrun
    split at hrun
    · obtain ⟨rfl, rfl⟩ := Prod.mk.injEq .. ▸ Option.some.inj hrun
      exact hkept (sendsBy_nothing rfl)
    · cases hrun
  | tryMatch => exact hkept (sendsBy_tryMatch hrun)
  | cleanupExpired now order =>
    dsimp only [step] at hrun
    split at hrun
    · obtain ⟨-, heq⟩ := Option.ite_none_right_eq_some.mp hrun
      obtain rfl := congrArg Prod.fst (Option.some.inj heq)
      obtain rfl := congrArg Prod.snd (Option.some.inj heq)
      exact hkept (sendsBy_nothing rfl)
    · cases hrun
  | worker i event =>
    obtain ⟨-, hrest⟩ := Option.ite_none_right_eq_some.mp hrun
    obtain ⟨w, hw, hrest⟩ := Option.bind_eq_some_iff.mp hrest
    obtain ⟨⟨w', o⟩, hwork, heq⟩ := Option.map_eq_some_iff.mp hrest
    obtain ⟨rfl, rfl⟩ := Prod.mk.injEq .. ▸ heq
    obtain ⟨hroom, hrest⟩ := LogicWorker.labelled_step (hprep i w hw) hwork
    refine hkept ⟨rfl, fun m hm => ?_, fun m hm => ?_⟩
    · obtain ⟨s, hs, hm⟩ := List.mem_flatMap.mp hm
      exact addressed_sendToPlayer (hroom s hs) m hm
    · obtain ⟨s, hs, hm⟩ := Multiset.mem_bind.mp hm
      exact addressed_sendToPlayer (hrest s hs) m hm

/-- **Where the messages go.**  In every run of the server, every message goes
to the event loop its connection was last heard on, carries the id of its
kind, and none goes to a connection that was never heard or is gone. -/
theorem messages_addressed {store : σ} {roomSize : ℤ} {as : List (ServerEvent F × ServerOut F)}
    (h : Transition.Run (Steps pb) (init store roomSize) as g) :
    Transition.Throughout (fun past e => ∀ m, m ∈ e.2.sends ∨ m ∈ e.2.broadcasts →
      heard (past ++ [e]) m.connId = some m.loop ∧ m.msgId = m.reply.msgId) as := by
  refine (h.record (I := fun past g => (∀ (i : ℕ) w, g.battle.workers[i]? = some w →
    LogicWorker.Prepared w) ∧ (∀ c, g.connToLoop.lookup c = heard past c) ∧
    Transition.Throughout (fun past e => ∀ m, m ∈ e.2.sends ∨ m ∈ e.2.broadcasts →
      heard (past ++ [e]) m.connId = some m.loop ∧ m.msgId = m.reply.msgId) past) ?_
    ⟨?_, ?_, Transition.throughout_nil⟩).2.2
  · rintro past g e g' ⟨hprep, hloops, hall⟩ hstep
    obtain ⟨hnext, hsends, hbroadcasts⟩ := addressed_step hprep hloops hstep
    refine ⟨prepared_move hprep hstep, hnext, Transition.throughout_concat.mpr ⟨hall, ?_⟩⟩
    rintro m (hm | hm)
    · exact ⟨(hnext m.connId).symm.trans (hsends m hm).loop, (hsends m hm).label⟩
    · exact ⟨(hnext m.connId).symm.trans (hbroadcasts m hm).loop, (hbroadcasts m hm).label⟩
  · intro i w hw
    obtain ⟨-, rfl⟩ := List.mem_replicate.mp (List.mem_of_getElem? hw)
    exact LogicWorker.prepared_empty
  · exact fun c => Finmap.lookup_empty c

/-- In `soloTick` the handlers and the matchmaker send four messages. -/
theorem messages_addressed_soloTick : ∃ as : List (ServerEvent ℚ × ServerOut ℚ),
    (as.map fun e => e.2.sends.length).sum = 4 ∧
    Transition.Throughout (fun past e => ∀ m, m ∈ e.2.sends ∨ m ∈ e.2.broadcasts →
      heard (past ++ [e]) m.connId = some m.loop ∧ m.msgId = m.reply.msgId) as := by
  have hrun : (exec annRequests (init ({} : MemoryStore) 1) soloTick).map (fun p =>
      (p.2.map fun e => e.2.sends.length).sum) = some 4 := by
    decide +kernel
  obtain ⟨⟨g, as⟩, hexec, hcount⟩ := Option.map_eq_some_iff.mp hrun
  exact ⟨as, hcount, messages_addressed (run_of_exec hexec)⟩

end GameServer

end MiniArena
