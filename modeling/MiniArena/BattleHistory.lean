/-
MiniArena/BattleHistory.lean

Whether the sequence history of a worker outlives a battle.

`last_seq_` belongs to the engine, which all rooms and all ticks of a worker
share and nothing ever resets.  A room that is added finds in it the numbers
its players used in earlier battles, and ignores their commands until they
pass these numbers.

`FreshStart` says that the room executes what it would execute on a freshly
constructed worker, whatever batches come; `freshStart_iff` that this is so if
and only if no living player of the room has a mark when the room is added.
The two runs are compared by `Twin`: the same room on both sides, and marks
that agree on its living players.
-/
import MiniArena.Combat
import MiniArena.CommandRouting

namespace MiniArena

variable {F : Type} [FloatOps F]

open TickEngine

namespace TickEngine

/-! ### The commands of a batch that are executed -/

/-- `executed`, on the engine and the players alone. -/
def carried : TickEngine × Players F → List (Command F) → List (Command F)
  | _, [] => []
  | s, cmd :: cmds =>
      if executes ⟨s.1, s.2, []⟩ cmd then cmd :: carried (act s cmd) cmds
      else carried (act s cmd) cmds

theorem executed_eq (bc : Broadcaster (BattlePayload F)) (s : Loop F) (cmds : List (Command F)) :
    executed bc s cmds = carried s.core cmds := by
  induction cmds generalizing s with
  | nil => rfl
  | cons cmd cmds ih =>
    rw [executed, carried, ih, core_processCommand]
    rfl

/-! ### Nobody comes back to life -/

omit [FloatOps F] in
theorem deadStay_takeDamage (players : Players F) (aid tid : PlayerId) (dmg : ℤ) :
    DeadStay players (takeDamage players aid tid dmg).1 := by
  have hhit : DeadStay players ((players.modify tid (hurt dmg)).modify aid (credit dmg)) :=
    (deadStay_modify players tid (f := hurt dmg) fun _ hp => hp).trans
      (deadStay_modify _ aid (f := credit dmg) fun _ hp => hp)
  unfold takeDamage
  dsimp only
  split
  · exact hhit
  · split
    · exact hhit.trans ((deadStay_modify _ tid (f := die) fun _ _ => rfl).trans
        (deadStay_modify _ aid (f := creditKill) fun _ hp => hp))
    · exact hhit

theorem deadStay_execute (bc : Broadcaster (BattlePayload F)) (players : Players F)
    (cmd : Command F) (p : BattlePlayer F) : DeadStay players (execute bc players cmd p).1 := by
  unfold execute
  cases cmd.type with
  | move =>
    apply deadStay_modify
    intro q hq
    unfold processMove
    dsimp only
    split
    · exact hq
    · exact hq
  | stopMove => exact deadStay_modify _ _ fun _ hq => hq
  | attack =>
    dsimp only
    split
    · exact .refl _
    · rename_i t _
      rcases processAttack_cases bc players cmd.playerId cmd.targetId p t with
        heq | ⟨-, -, -, heq⟩
      · rw [heq]
        exact .refl _
      · rw [heq]
        exact deadStay_takeDamage _ _ _ _
  | skill =>
    have hcool : ∀ cooldownMs, DeadStay players
        (players.modify cmd.playerId (setCooldown cmd.skillId cooldownMs)) :=
      fun _ => deadStay_modify _ _ fun _ hq => hq
    rcases processSkill_cases bc players cmd.playerId cmd.targetId p
      (players.lookup cmd.targetId) cmd.skillId with ⟨heq, -⟩ | ⟨skill, -, -, -, -, hit | miss⟩
    · rw [heq]
      exact .refl _
    · obtain ⟨t, -, -, heq⟩ := hit
      rw [heq]
      exact (hcool _).trans (deadStay_takeDamage _ _ _ _)
    · rw [miss.2]
      exact hcool _
  | leave => exact deadStay_modify _ _ fun _ _ => rfl

/-! ### Histories that agree on the living -/

/-- Two histories agree on the living players of a room. -/
def AgreeLiving (players : Players F) (e e' : TickEngine) : Prop :=
  ∀ pid p, players.lookup pid = some p → p.alive = true →
    e.lastSeq.lookup pid = e'.lastSeq.lookup pid

omit [FloatOps F] in
theorem AgreeLiving.of_deadStay {players players' : Players F} {e e' : TickEngine}
    (h : AgreeLiving players e e') (hkeys : players'.keys = players.keys)
    (hdead : DeadStay players players') : AgreeLiving players' e e' := by
  intro pid q hq halive
  obtain ⟨p, hp⟩ : ∃ p, players.lookup pid = some p := by
    rw [← Finmap.mem_keys_iff, ← hkeys, Finmap.mem_keys_iff]
    exact ⟨q, hq⟩
  apply h pid p hp
  -- who lives afterwards has lived before
  cases hp' : p.alive with
  | true => rfl
  | false =>
    obtain ⟨q', hq', hqdead⟩ := hdead pid p hp
    obtain rfl := Option.some.inj (hq.symm.trans hq')
    exact halive.symm.trans (hqdead hp') |>.symm

/-- **One command.**  Both sides execute it or neither does. -/
theorem act_living {players : Players F} {e e' : TickEngine} (h : AgreeLiving players e e')
    (cmd : Command F) :
    executes ⟨e, players, []⟩ cmd = executes ⟨e', players, []⟩ cmd ∧
      (act (e, players) cmd).2 = (act (e', players) cmd).2 ∧
      AgreeLiving (act (e, players) cmd).2 (act (e, players) cmd).1 (act (e', players) cmd).1 := by
  have hex : executes ⟨e, players, []⟩ cmd = executes ⟨e', players, []⟩ cmd := by
    rcases hp : players.lookup cmd.playerId with - | p
    · simp [executes, hp]
    · cases halive : p.alive with
      | false => simp [executes, hp, halive]
      | true => exact executes_congr (h _ p hp halive)
  refine ⟨hex, ?_⟩
  -- executing sets the same mark on both sides, whatever was there
  rcases act_cases (e, players) cmd with ⟨hno, heq⟩ | ⟨hyes, p, hp, heq⟩ <;>
    rcases act_cases (e', players) cmd with ⟨hno', heq'⟩ | ⟨hyes', p', hp', heq'⟩
  · rw [heq, heq']
    exact ⟨rfl, h⟩
  · cases hno.symm.trans (hex.trans hyes')
  · cases hyes.symm.trans (hex.trans hno')
  · obtain rfl := Option.some.inj (hp.symm.trans hp')
    rw [heq, heq']
    refine ⟨rfl, ?_⟩
    intro pid q hq halive
    show Finmap.lookup pid (Finmap.insert _ _ _) = Finmap.lookup pid (Finmap.insert _ _ _)
    rw [Finmap.lookup_insert_eq, Finmap.lookup_insert_eq]
    split
    · rfl
    · exact h.of_deadStay (keys_execute {} players cmd p) (deadStay_execute {} players cmd p)
        pid q hq halive

/-- **A batch.** -/
theorem acts_living {players : Players F} {e e' : TickEngine} (h : AgreeLiving players e e')
    (cmds : List (Command F)) :
    carried (e, players) cmds = carried (e', players) cmds ∧
      (cmds.foldl act (e, players)).2 = (cmds.foldl act (e', players)).2 ∧
      AgreeLiving (cmds.foldl act (e, players)).2 (cmds.foldl act (e, players)).1
        (cmds.foldl act (e', players)).1 := by
  induction cmds generalizing e e' players with
  | nil => exact ⟨rfl, rfl, h⟩
  | cons cmd cmds ih =>
    obtain ⟨hex, hplayers, hagree⟩ := act_living h cmd
    have hpair : act (e', players) cmd =
        ((act (e', players) cmd).1, (act (e, players) cmd).2) := Prod.ext rfl hplayers.symm
    obtain ⟨hlog, hsame, hafter⟩ := ih hagree
    rw [List.foldl_cons, List.foldl_cons, carried, carried, hex, hpair]
    refine ⟨?_, hsame, hafter⟩
    rw [← hlog]

end TickEngine

namespace LogicWorker

/-! ### What is executed in one room -/

/-- What an event of the worker `w` executes in the room `r`. -/
def executedAt (r : RoomId) (w : LogicWorker F) : WorkerEvent F → List (Command F)
  | .tickRoom _ =>
      match w.phase with
      | .ticking cmds (r' :: _) =>
          if r' = r then
            match w.rooms.lookup r with
            | some rs => executed w.bc ⟨w.tickEngine, rs.players, []⟩ cmds
            | none => []
          else []
      | _ => []
  | _ => []

def executedIn (r : RoomId) : LogicWorker F → List (WorkerEvent F) → List (Command F)
  | _, [] => []
  | w, ev :: evs => executedAt r w ev ++
      match w.step ev with
      | none => []
      | some (w', _) => executedIn r w' evs

end LogicWorker

namespace PrivateRoom

/-- What an input executes in a room alone. -/
def executedAt (p : Option (PrivateRoom F)) : RoomInput F → List (Command F)
  | .tick cmds =>
      match p with
      | some p => executed {} ⟨p.engine, p.room.players, []⟩ cmds
      | none => []
  | _ => []

def executedOn : Option (PrivateRoom F) → List (RoomInput F) → List (Command F)
  | _, [] => []
  | p, i :: is => executedAt p i ++ executedOn (step p i) is

theorem executedOn_append (p : Option (PrivateRoom F)) (is is' : List (RoomInput F)) :
    executedOn p (is ++ is') = executedOn p is ++ executedOn (is.foldl step p) is' := by
  induction is generalizing p with
  | nil => rfl
  | cons i is ih => rw [List.cons_append, executedOn, executedOn, ih, List.foldl_cons,
      List.append_assoc]

end PrivateRoom

namespace LogicWorker

variable {r : RoomId} {players : Players F} {w w' : LogicWorker F}

/-- No other room of the worker has a player of the room `r`. -/
def Alone (r : RoomId) (players : Players F) (w : LogicWorker F) : Prop :=
  ∀ r' rs, r' ≠ r → w.rooms.lookup r' = some rs → ∀ pid ∈ players, pid ∉ rs.players

/-- The event adds the room `r` again, or removes it. -/
def Replaces (r : RoomId) (w : LogicWorker F) : WorkerEvent F → Prop
  | .drainPendingOp _ => ∃ op ops, w.pendingOps = op :: ops ∧
      (op = .removeRoom r ∨ ∃ players, op = .addRoom r players)
  | _ => False

/-- The steps while the room `r` lasts and its players are in no other room. -/
def StepsIn (r : RoomId) (players : Players F) (w : LogicWorker F)
    (a : WorkerEvent F × WorkerOut F) (w' : LogicWorker F) : Prop :=
  Steps w a w' ∧ Alone r players w ∧ ¬ Replaces r w a.1

/-- From `w` on, where the room `r` has just been added with `players`, and
whatever commands come, each of these players has the commands executed in
`r` that a freshly constructed worker would execute. -/
def FreshStart (w : LogicWorker F) (r : RoomId) (players : Players F) : Prop :=
  ∀ (queue : List (Command F)) as w',
    Transition.Run (StepsIn r players) { w with cmdQueue := queue } as w' → ∀ pid ∈ players,
      (executedIn r { w with cmdQueue := queue } (as.map Prod.fst)).filter (·.playerId = pid) =
        (PrivateRoom.executedOn (some { room := { players := players } })
          (inputs r { w with cmdQueue := queue } (as.map Prod.fst))).filter (·.playerId = pid)

/-! ### The two sides -/

/-- The room `r` on the worker, and the room alone. -/
structure Twin (r : RoomId) (players : Players F) (w : LogicWorker F) (p : PrivateRoom F) :
    Prop where
  room : w.rooms.lookup r = some p.room
  agree : AgreeLiving p.room.players w.tickEngine p.engine
  people : p.room.players.keys = players.keys

variable {p : PrivateRoom F}

omit [FloatOps F] in
theorem Twin.congr (h : Twin r players w p) (hrooms : w'.rooms.lookup r = w.rooms.lookup r)
    (hengine : w'.tickEngine = w.tickEngine) : Twin r players w' p where
  room := hrooms.trans h.room
  agree := hengine ▸ h.agree
  people := h.people

/-- **A tick of the room itself.** -/
theorem Twin.tickRoom (h : Twin r players w p) (cmds : List (Command F)) (left : List RoomId)
    (order : List PlayerId) :
    executed w.bc ⟨w.tickEngine, p.room.players, []⟩ cmds =
        executed {} ⟨p.engine, p.room.players, []⟩ cmds ∧
      Twin r players (w.tickRoom cmds left r p.room order).1 (p.tick cmds) := by
  obtain ⟨hengine, hrooms⟩ := tickRoom_eq w cmds left r p.room order
  obtain ⟨hpengine, hproom⟩ := tick_eq p cmds
  obtain ⟨hlog, hplayers, hagree⟩ := acts_living h.agree cmds
  refine ⟨?_, ?_, ?_, ?_⟩
  · rw [executed_eq, executed_eq]
    exact hlog
  · rw [hrooms, Finmap.lookup_insert, hproom, hplayers]
  · rw [hengine, hpengine, hproom, ← hplayers]
    intro pid q hq halive
    obtain ⟨q', hq', rfl⟩ := Option.map_eq_some_iff.mp
      ((Finmap.lookup_mapVal _ _ pid).symm.trans hq)
    exact hagree pid q' hq' halive
  · rw [hproom]
    exact (Finmap.keys_mapVal _ _).trans ((keys_acts _ cmds).trans h.people)

/-- **A tick of another room**, which has none of the players. -/
theorem Twin.tickOther (h : Twin r players w p) {r' : RoomId} {rs : WorkerRoom F}
    (hne : r' ≠ r) (hapart : ∀ pid ∈ players, pid ∉ rs.players) (cmds : List (Command F))
    (left : List RoomId) (order : List PlayerId) :
    Twin r players (w.tickRoom cmds left r' rs order).1 p := by
  obtain ⟨hengine, hrooms⟩ := tickRoom_eq w cmds left r' rs order
  refine ⟨?_, ?_, h.people⟩
  · rw [hrooms, Finmap.lookup_insert_of_ne _ hne.symm]
    exact h.room
  · intro pid q hq halive
    -- a command sets the mark of its own player only, who is in the other room
    have hpid : pid ∈ players := by
      rw [← Finmap.mem_keys, ← h.people]
      exact Finmap.mem_keys_iff.mpr ⟨q, hq⟩
    rw [hengine, lookup_acts_of_notMem (hapart pid hpid)]
    exact h.agree pid q hq halive

omit [FloatOps F] in
/-- **The disconnect timeout** kills on both sides. -/
theorem Twin.checkDisconnected (h : Twin r players w p) (now : ℤ) (phase : Phase F) :
    Twin r players
      { w with rooms := w.rooms.insert r (LogicWorker.checkDisconnected p.room now), phase := phase }
      { p with room := LogicWorker.checkDisconnected p.room now } where
  room := Finmap.lookup_insert _
  agree := by
    intro pid q hq halive
    obtain ⟨q', hq', rfl⟩ := Option.map_eq_some_iff.mp
      ((Finmap.lookup_mapVal _ _ pid).symm.trans hq)
    -- who is alive after the check was alive before it
    apply h.agree pid q' hq'
    split at halive
    · exact halive
    · split at halive
      · cases halive
      · exact halive
  people := (Finmap.keys_mapVal _ _).trans h.people

/-- **One step.**  The room alone takes the input the event is for it, and
executes the same commands. -/
theorem twin_step (h : Twin r players w p) {ev : WorkerEvent F} {out : WorkerOut F}
    (hstep : StepsIn r players w (ev, out) w') :
    ∃ p', (input r w ev).foldl PrivateRoom.step (some p) = some p' ∧ Twin r players w' p' ∧
      executedAt r w ev = PrivateRoom.executedOn (some p) (input r w ev) := by
  obtain ⟨hstep, halone, hreplaces⟩ := hstep
  cases step_cases hstep with
  | drainPendingOp now phase =>
    rcases hops : w.pendingOps with - | ⟨op, ops⟩
    · simp only [input, LogicWorker.drainPendingOp, hops]
      exact ⟨p, rfl, h, rfl⟩
    simp only [input, LogicWorker.drainPendingOp, hops]
    cases op with
    | addRoom r' players' =>
      -- the room itself is not added again while it lasts
      have hne : r' ≠ r := by
        rintro rfl
        exact hreplaces ⟨_, _, hops, Or.inr ⟨_, rfl⟩⟩
      rw [inputOfOp, if_neg hne]
      exact ⟨p, rfl, h.congr (Finmap.lookup_insert_of_ne _ hne.symm) rfl, rfl⟩
    | removeRoom r' =>
      have hne : r' ≠ r := by
        rintro rfl
        exact hreplaces ⟨_, _, hops, Or.inl rfl⟩
      rw [inputOfOp, if_neg hne]
      exact ⟨p, rfl, h.congr (Finmap.lookup_erase_ne hne.symm) rfl, rfl⟩
    | markDisconnected r' pid =>
      rw [inputOfOp]
      by_cases hr : r' = r
      · subst hr
        rw [if_pos rfl]
        refine ⟨_, rfl, ⟨?_, h.agree, h.people⟩, rfl⟩
        show (w.rooms.modify r' _).lookup r' = _
        rw [Finmap.lookup_modify_self, h.room]
        rfl
      · rw [if_neg hr]
        exact ⟨p, rfl, h.congr (Finmap.lookup_modify_of_ne _ _ (Ne.symm hr)) rfl, rfl⟩
  | @tickRoom cmds left r' rs order phase room members =>
    simp only [input, executedAt, phase]
    by_cases hr : r' = r
    · subst hr
      obtain rfl := Option.some.inj (room.symm.trans h.room)
      obtain ⟨hlog, htwin⟩ := h.tickRoom cmds left order
      rw [if_pos rfl, if_pos rfl, room]
      refine ⟨_, rfl, htwin, ?_⟩
      show _ = PrivateRoom.executedAt (some p) (.tick cmds) ++ []
      rw [List.append_nil]
      exact hlog
    · rw [if_neg hr, if_neg hr]
      exact ⟨p, rfl, h.tickOther hr (halone r' rs hr room) cmds left order, rfl⟩
  | @checkDisconnected cmds left r' rs now phase room =>
    simp only [input, executedAt, phase]
    by_cases hr : r' = r
    · subst hr
      obtain rfl := Option.some.inj (room.symm.trans h.room)
      rw [if_pos rfl]
      exact ⟨_, rfl, h.checkDisconnected now _, rfl⟩
    · rw [if_neg hr]
      exact ⟨p, rfl, h.congr (Finmap.lookup_insert_of_ne _ (Ne.symm hr)) rfl, rfl⟩
  | _ => exact ⟨p, rfl, h.congr rfl rfl, rfl⟩

/-- **A run** executes the same commands on both sides. -/
theorem executedIn_run (h : Twin r players w p) {as : List (WorkerEvent F × WorkerOut F)}
    (hrun : Transition.Run (StepsIn r players) w as w') :
    executedIn r w (as.map Prod.fst) =
      PrivateRoom.executedOn (some p) (inputs r w (as.map Prod.fst)) := by
  induction hrun generalizing p with
  | nil => rfl
  | @cons w a w₁ as w' hstep _ ih =>
    obtain ⟨ev, out⟩ := a
    obtain ⟨p₁, hp₁, htwin, hlog⟩ := twin_step h hstep
    rw [List.map_cons, inputs_cons hstep.1, PrivateRoom.executedOn_append, hp₁, ← ih htwin, ← hlog,
      executedIn, show w.step ev = some (w₁, out) from hstep.1]

theorem executedIn_cons {ev : WorkerEvent F} {out : WorkerOut F} (hstep : Steps w (ev, out) w')
    (evs : List (WorkerEvent F)) :
    executedIn r w (ev :: evs) = executedAt r w ev ++ executedIn r w' evs := by
  rw [executedIn, show w.step ev = some (w', out) from hstep]

/-! ### A room that is added -/

/-- `AddRoom` is the operation to be applied next, and none of the players is in
another room of the worker. -/
structure Enters (w : LogicWorker F) (r : RoomId) (players : Players F) : Prop where
  idle : w.phase = .idle
  next : ∃ ops, w.pendingOps = .addRoom r players :: ops
  alone : Alone r players w

/-- Player `pid` stops. -/
def stop (pid : PlayerId) (seq : UInt64) : Command F :=
  ⟨.stopMove, pid, seq, FloatOps.ofRat 0, FloatOps.ofRat 0, 0, 0⟩

/-- The number of the command decides whether a living player executes it. -/
theorem executed_stop {bc : Broadcaster (BattlePayload F)} {e : TickEngine} {pid : PlayerId}
    {q : BattlePlayer F} (hq : players.lookup pid = some q) (halive : q.alive = true)
    (seq : UInt64) [Decidable (HighWater.Admits e.lastSeq pid seq)] :
    executed bc ⟨e, players, []⟩ [stop pid seq] =
      if HighWater.Admits e.lastSeq pid seq then [stop pid seq] else [] := by
  have hiff : executes ⟨e, players, []⟩ (stop pid seq) = true ↔
      HighWater.Admits e.lastSeq pid seq := executes_iff hq halive
  simp only [executed, hiff]

/-- **Sufficiency.**  Without marks of its living players the room starts as a
fresh worker would start it. -/
theorem freshStart_of_unmarked (h : Enters w r players) (now : ℤ)
    (hnone : ∀ pid q, players.lookup pid = some q → q.alive = true →
      w.tickEngine.lastSeq.lookup pid = none) :
    FreshStart (w.drainPendingOp now) r players := by
  intro queue as w' hrun pid _
  obtain ⟨ops, hops⟩ := h.next
  have htwin : Twin r players { w.drainPendingOp now with cmdQueue := queue }
      { room := { players := players } } := by
    simp only [LogicWorker.drainPendingOp, hops]
    refine ⟨Finmap.lookup_insert _, ?_, rfl⟩
    intro a q hq halive
    show w.tickEngine.lastSeq.lookup a = (∅ : Finmap fun _ : PlayerId => UInt64).lookup a
    rw [hnone a q hq halive, Finmap.lookup_empty]
  rw [executedIn_run htwin hrun]

/-- **A probe**: one command and a tick that takes the room `r` first. -/
theorem exists_probe {u : LogicWorker F} {rs : WorkerRoom F} (hidle : u.phase = .idle)
    (hqueue : u.cmdQueue = []) (hrs : u.rooms.lookup r = some rs) (halone : Alone r players u)
    (cmd : Command F) :
    ∃ as u', Transition.Run (StepsIn r players) u as u' ∧
      executedIn r u (as.map Prod.fst) = executed u.bc ⟨u.tickEngine, rs.players, []⟩ [cmd] ∧
      inputs r u (as.map Prod.fst) = [.tick [cmd]] := by
  obtain ⟨before, after, hc, hbefore⟩ := BattleManager.exists_covers u.rooms
    (List.nodup_singleton r) (by simpa using Finmap.mem_keys_iff.mpr ⟨_, hrs⟩)
  obtain ⟨v, rfl, rfl⟩ := List.map_eq_singleton_iff.mp hbefore
  have horder : (v.order : Multiset PlayerId) = rs.players.keys.val := by
    apply hc.players v List.mem_cons_self
    rw [members, hrs, Option.map_some]
  have honce : ((v.room :: after.map Visit.room : List RoomId) : Multiset RoomId) =
      u.rooms.keys.val := hc.once
  -- push the command, begin the tick, visit the room
  let u₁ : LogicWorker F := { u with cmdQueue := [cmd] }
  let u₂ : LogicWorker F :=
    { u with cmdQueue := [], phase := .ticking [cmd] (v.room :: after.map Visit.room) }
  have hpush : Steps u (.pushCommand cmd, {}) u₁ := by
    show some ({ u with cmdQueue := u.cmdQueue ++ [cmd] }, ({} : WorkerOut F)) = _
    rw [hqueue]
    rfl
  have hbegin : Steps u₁ (.tickBegin (v.room :: after.map Visit.room), {}) u₂ := by
    simp only [Steps, step, u₁, hidle, if_pos honce]
    rfl
  let t := u₂.tickRoom [cmd] (after.map Visit.room) v.room rs v.order
  have htick : Steps u₂ (.tickRoom v.order, t.2) t.1 := by
    simp only [Steps, step, u₂, hrs, if_pos horder]
    rfl
  refine ⟨_, _, .cons ⟨hpush, halone, id⟩ (.cons ⟨hbegin, halone, id⟩
    (.single ⟨htick, halone, id⟩)), ?_, ?_⟩
  · rw [List.map_cons, List.map_cons, List.map_singleton, executedIn_cons hpush,
      executedIn_cons hbegin, executedIn_cons htick]
    simp only [executedAt, executedIn, u₂, if_pos, hrs, List.append_nil, List.nil_append]
  · rw [List.map_cons, List.map_cons, List.map_singleton, inputs_cons hpush, inputs_cons hbegin,
      inputs_cons htick]
    simp only [input, inputs, u₂, if_pos, List.append_nil, List.nil_append]

/-- **Necessity.**  A player with a mark who repeats its number is ignored. -/
theorem unmarked_of_freshStart (h : Enters w r players) (now : ℤ)
    (hlaw : FreshStart (w.drainPendingOp now) r players) {pid : PlayerId} {q : BattlePlayer F}
    (hq : players.lookup pid = some q) (halive : q.alive = true) :
    w.tickEngine.lastSeq.lookup pid = none := by
  rcases hmark : w.tickEngine.lastSeq.lookup pid with - | mark
  · rfl
  exfalso
  obtain ⟨ops, hops⟩ := h.next
  obtain ⟨u, hu, hidle, hrooms, hengine⟩ : ∃ u : LogicWorker F,
      { w.drainPendingOp now with cmdQueue := [] } = u ∧ u.phase = .idle ∧
        u.rooms = w.rooms.insert r { players := players } ∧ u.tickEngine = w.tickEngine := by
    refine ⟨_, rfl, ?_⟩
    simp only [LogicWorker.drainPendingOp, hops]
    exact ⟨h.idle, rfl, rfl⟩
  have hrs : u.rooms.lookup r = some { players := players } := by
    rw [hrooms, Finmap.lookup_insert]
  have halone : Alone r players u := by
    intro r' rs hne hlook
    rw [hrooms, Finmap.lookup_insert_of_ne _ hne] at hlook
    exact h.alone r' rs hne hlook
  obtain ⟨as, u', hrun, hlog, hinputs⟩ :=
    exists_probe hidle (hu ▸ rfl) hrs halone (stop pid mark)
  -- the probe uses the number of the mark, which only a fresh worker accepts
  have heq := hlaw [] as u' (hu ▸ hrun) pid (Finmap.mem_iff.mpr ⟨q, hq⟩)
  rw [hu, hlog, hinputs] at heq
  have hignored : executed u.bc ⟨u.tickEngine, players, []⟩ [stop pid mark] = [] := by
    classical
    rw [executed_stop hq halive, if_neg]
    intro hadm
    rw [hengine] at hadm
    exact lt_irrefl _ (hadm mark hmark)
  have hfresh : executed {} ⟨{}, players, []⟩ [stop pid mark] = [stop pid mark] := by
    classical
    rw [executed_stop hq halive, if_pos]
    intro mark' hmark'
    cases hmark'.symm.trans (Finmap.lookup_empty pid)
  rw [hignored, PrivateRoom.executedOn, PrivateRoom.executedOn, PrivateRoom.executedAt, hfresh,
    List.append_nil, List.filter_nil, List.filter_cons_of_pos] at heq
  · cases heq
  · exact decide_eq_true rfl

/-- **When the history does not outlive a battle.**  A room that is added starts as on
a freshly constructed worker, whatever commands come, if and only if none of
its living players has a mark.  The commands a batch executes are performed, one
after the other, and the others change nothing. -/
theorem freshStart_iff (h : Enters w r players) (now : ℤ) :
    (FreshStart (w.drainPendingOp now) r players ↔
      ∀ pid q, players.lookup pid = some q → q.alive = true →
        w.tickEngine.lastSeq.lookup pid = none) ∧
    ∀ (bc : Broadcaster (BattlePayload F)) (s : Loop F) (cmds : List (Command F)),
      cmds.foldl (processCommand bc) s = (executed bc s cmds).foldl (carryOut bc) s := by
  refine ⟨?_, foldl_processCommand⟩
  constructor
  · intro hlaw pid q hq halive
    exact unmarked_of_freshStart h now hlaw hq halive
  · exact freshStart_of_unmarked h now

/-- Player 1 fights in room 1 up to command number 5, the room is removed, and
the player comes back in room 2. -/
def secondBattle : List (WorkerEvent ℚ) :=
  [.addRoom 1 (alone 1), .drainPendingOp 0, .pushCommand (stop 1 5), .tickBegin [1],
    .tickRoom [1], .broadcast, .checkDisconnected 0, .removeRoom 1, .drainPendingOp 0,
    .addRoom 2 (alone 1)]

/-- The thread is between two ticks. -/
def isIdle (w : LogicWorker F) : Bool :=
  match w.phase with
  | .idle => true
  | _ => false

theorem exists_secondBattle : ∃ as w, Transition.Run (S := LogicWorker ℚ) Steps {} as w ∧
    as.map Prod.fst = secondBattle ∧ Enters w 2 (alone 1) ∧
    w.tickEngine.lastSeq.lookup 1 = some 5 := by
  let before := secondBattle.dropLast
  have hsome : (Transition.exec step {} before).isSome = true := by decide +kernel
  obtain ⟨⟨w, as⟩, hexec⟩ := Option.isSome_iff_exists.mp hsome
  have hfacts : (Transition.exec step {} before).map (fun p =>
      (p.1.isIdle, p.1.pendingOps.isEmpty,
        p.1.rooms.keys, p.1.tickEngine.lastSeq.lookup 1)) = some (true, true, ∅, some 5) := by
    decide +kernel
  rw [hexec, Option.map_some] at hfacts
  obtain ⟨hphase, hops, hrooms, hmark⟩ : _ ∧ _ ∧ _ ∧ _ := by
    simpa only [Option.some.injEq, Prod.mk.injEq] using hfacts
  have hadd : Steps w (.addRoom 2 (alone 1), {})
      { w with pendingOps := w.pendingOps ++ [.addRoom 2 (alone 1)] } := rfl
  refine ⟨_, _, (Transition.run_of_exec hexec).append (.single hadd), ?_, ⟨?_, ?_, ?_⟩, hmark⟩
  · rw [List.map_append, Transition.map_fst_of_exec hexec]
    rfl
  · show w.phase = .idle
    unfold isIdle at hphase
    split at hphase
    · assumption
    · cases hphase
  · rw [List.isEmpty_iff.mp hops]
    exact ⟨[], rfl⟩
  · intro r' rs _ hlook
    have hmem : r' ∈ w.rooms.keys := Finmap.mem_keys_iff.mpr ⟨rs, hlook⟩
    rw [hrooms] at hmem
    exact absurd hmem (Finset.notMem_empty r')

/-- Player 1 starts to count at 1 again, and room 2 does not listen. -/
theorem not_freshStart_secondBattle : ∃ as w, Transition.Run (S := LogicWorker ℚ) Steps {} as w ∧
    as.map Prod.fst = secondBattle ∧ Enters w 2 (alone 1) ∧
    ¬ FreshStart (w.drainPendingOp 0) 2 (alone 1) := by
  obtain ⟨as, w, hrun, has, henters, hmark⟩ := exists_secondBattle
  refine ⟨as, w, hrun, has, henters, ?_⟩
  intro hlaw
  have hnone := unmarked_of_freshStart henters 0 hlaw (Finmap.lookup_singleton_eq) rfl
  cases hmark.symm.trans hnone

theorem freshStart_iff_secondBattle : ∃ as w, Transition.Run (S := LogicWorker ℚ) Steps {} as w ∧
    as.map Prod.fst = secondBattle ∧ Enters w 2 (alone 1) ∧
    (FreshStart (w.drainPendingOp 0) 2 (alone 1) ↔
      ∀ pid q, (alone 1).lookup pid = some q → q.alive = true →
        w.tickEngine.lastSeq.lookup pid = none) := by
  obtain ⟨as, w, hrun, has, henters, -⟩ := exists_secondBattle
  exact ⟨as, w, hrun, has, henters, (freshStart_iff henters 0).1⟩

end LogicWorker

end MiniArena
