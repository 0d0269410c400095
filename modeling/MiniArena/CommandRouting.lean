/-
MiniArena/CommandRouting.lean

Which rooms a dispatched command acts on.

`dispatchCommand` uses the room id to find a worker and drops it there: the
command joins the batch that the worker offers to all its rooms, whatever
room it was sent to.  So it acts on every room that has its player, and through
the shared history also on rooms that have none of them: whether a later
command of a second player counts as a duplicate in one room depends on
whether it was executed in another.

`acts_on_its_room_iff` says for which memberships of the rooms this is
harmless: those in which no other room of the worker has the player, and the
room itself, if it has the player, shares nobody with another room.
-/
import MiniArena.BattleManager
import MiniArena.WorkerTick

namespace MiniArena

variable {F : Type} [FloatOps F]

open TickEngine LogicWorker

/-! ### A command that meets no player of its own -/

namespace TickEngine

/-- A command of a player outside the room can be left out of a batch. -/
theorem acts_drop {s : TickEngine × Players F} {cmd : Command F} (h : cmd.playerId ∉ s.2)
    (before later : List (Command F)) :
    (before ++ cmd :: later).foldl act s = (before ++ later).foldl act s := by
  rw [List.foldl_append, List.foldl_cons, List.foldl_append, act_of_notMem]
  rwa [mem_acts]

/-- A number above the mark and above those of the batch is still above the
mark after the batch. -/
theorem admits_acts {s : TickEngine × Players F} {pid : PlayerId} {seq : UInt64}
    {cmds : List (Command F)} (hadm : HighWater.Admits s.1.lastSeq pid seq)
    (hnew : ∀ q ∈ cmds, q.playerId = pid → q.sequence < seq) :
    HighWater.Admits (cmds.foldl act s).1.lastSeq pid seq := by
  induction cmds generalizing s with
  | nil => exact hadm
  | cons q cmds ih =>
    rw [List.foldl_cons]
    apply ih
    · intro mark hmark
      rcases act_cases s q with ⟨-, heq⟩ | ⟨-, p, -, heq⟩
      · rw [heq] at hmark
        exact hadm mark hmark
      · rw [heq, Finmap.lookup_insert_eq] at hmark
        split at hmark
        · rename_i hpid
          obtain rfl := Option.some.inj hmark
          exact hnew q List.mem_cons_self hpid.symm
        · exact hadm mark hmark
    · exact fun q' hq' => hnew q' (List.mem_cons_of_mem _ hq')

end TickEngine

/-! ### One visit, with and without the command -/

namespace LogicWorker

variable {cmd : Command F} {before later : List (Command F)} {r : RoomId}

/-- The rooms other than `r` are the same, and of the history only the marks of
the people `ps` of the room `r` differ. -/
structure SameElsewhere (r : RoomId) (ps : Finset PlayerId) (s s₀ : TickEngine × WorkerRooms F) :
    Prop where
  rooms : ∀ r' ≠ r, s.2.lookup r' = s₀.2.lookup r'
  marks : ∀ pid ∉ ps, s.1.lastSeq.lookup pid = s₀.1.lastSeq.lookup pid

/-- A visit of a room without the player: the command can be left out. -/
theorem visit_drop {s : TickEngine × WorkerRooms F} {v : Visit}
    (h : ∀ ps, members s.2 v.room = some ps → cmd.playerId ∉ ps) :
    visit (before ++ cmd :: later) s v = visit (before ++ later) s v := by
  rcases hrs : s.2.lookup v.room with - | rs
  · rw [visit, visit, hrs]
  · have hnot : cmd.playerId ∉ rs.players := by
      rw [← Finmap.mem_keys]
      apply h
      rw [members, hrs, Option.map_some]
    rw [visit_eq hrs, visit_eq hrs, acts_drop hnot]

/-- A visit changes the marks of the room's own people only. -/
theorem marks_visit (cmds : List (Command F)) {s : TickEngine × WorkerRooms F} {v : Visit}
    {pid : PlayerId} (h : ∀ ps, members s.2 v.room = some ps → pid ∉ ps) :
    (visit cmds s v).1.lastSeq.lookup pid = s.1.lastSeq.lookup pid := by
  rcases hrs : s.2.lookup v.room with - | rs
  · rw [visit, hrs]
  · rw [visit_eq hrs]
    apply lookup_acts_of_notMem
    show pid ∉ rs.players
    rw [← Finmap.mem_keys]
    apply h
    rw [members, hrs, Option.map_some]

/-- **The visit of the room itself** keeps the difference inside the room. -/
theorem SameElsewhere.visit_self {ps : Finset PlayerId} {s s₀ : TickEngine × WorkerRooms F}
    (h : SameElsewhere r ps s s₀) (hps : members s.2 r = some ps) (hps₀ : members s₀.2 r = some ps)
    {v : Visit} (hv : v.room = r) (cmds cmds₀ : List (Command F)) :
    SameElsewhere r ps (visit cmds s v) (visit cmds₀ s₀ v) where
  rooms := by
    intro r' hne
    rw [lookup_visit_of_ne cmds s (hv ▸ hne), lookup_visit_of_ne cmds₀ s₀ (hv ▸ hne)]
    exact h.rooms r' hne
  marks := by
    intro pid hpid
    rw [marks_visit, marks_visit]
    · exact h.marks pid hpid
    · rw [hv, hps₀]
      rintro _ ⟨⟩
      exact hpid
    · rw [hv, hps]
      rintro _ ⟨⟩
      exact hpid

/-- **The visit of another room**, which has neither the player nor anybody of
the room `r`: it is the same visit, with or without the command. -/
theorem SameElsewhere.visit_other {ps : Finset PlayerId} {s s₀ : TickEngine × WorkerRooms F}
    (h : SameElsewhere r ps s s₀) {v : Visit} (hv : v.room ≠ r)
    (hapart : ∀ ps', members s₀.2 v.room = some ps' → cmd.playerId ∉ ps' ∧ Disjoint ps ps') :
    SameElsewhere r ps (visit (before ++ cmd :: later) s v) (visit (before ++ later) s₀ v) := by
  have hsame := h.rooms v.room hv
  rcases hrs : s₀.2.lookup v.room with - | rs
  · rw [visit, visit, hsame, hrs]
    exact h
  · obtain ⟨hnot, hdisj⟩ := hapart rs.players.keys (by rw [members, hrs, Option.map_some])
    have hagree : AgreeOn rs.players s.1 s₀.1 := by
      intro pid hpid
      apply h.marks
      exact Finset.disjoint_right.mp hdisj (Finmap.mem_keys.mpr hpid)
    obtain ⟨hplayers, hmarks⟩ := acts_congr hagree (before ++ later)
    rw [visit_drop, visit_eq (hsame.trans hrs), visit_eq hrs]
    · refine ⟨?_, ?_⟩
      · intro r' hne
        dsimp only
        rw [Finmap.lookup_insert_eq, Finmap.lookup_insert_eq, hplayers, h.rooms r' hne]
      · intro pid hpid
        by_cases hmem : pid ∈ rs.players
        · exact hmarks pid hmem
        · dsimp only
          rw [lookup_acts_of_notMem hmem, lookup_acts_of_notMem hmem]
          exact h.marks pid hpid
    · intro ps' hps'
      rw [members, hsame, hrs] at hps'
      cases hps'
      exact hnot

/-! ### A whole tick -/

theorem marks_visits (cmds : List (Command F)) {s : TickEngine × WorkerRooms F}
    {visits : List Visit} {pid : PlayerId}
    (h : ∀ v ∈ visits, ∀ ps, members s.2 v.room = some ps → pid ∉ ps) :
    (visits.foldl (visit cmds) s).1.lastSeq.lookup pid = s.1.lastSeq.lookup pid := by
  induction visits generalizing s with
  | nil => rfl
  | cons v visits ih =>
    rw [List.foldl_cons, ih, marks_visit cmds (h v List.mem_cons_self)]
    rw [members_visit]
    exact fun v' hv' => h v' (List.mem_cons_of_mem _ hv')

theorem visits_drop {s : TickEngine × WorkerRooms F} {visits : List Visit}
    (h : ∀ v ∈ visits, ∀ ps, members s.2 v.room = some ps → cmd.playerId ∉ ps) :
    visits.foldl (visit (before ++ cmd :: later)) s = visits.foldl (visit (before ++ later)) s := by
  induction visits generalizing s with
  | nil => rfl
  | cons v visits ih =>
    rw [List.foldl_cons, List.foldl_cons, visit_drop (h v List.mem_cons_self)]
    apply ih
    rw [members_visit]
    exact fun v' hv' => h v' (List.mem_cons_of_mem _ hv')

theorem SameElsewhere.visits {ps : Finset PlayerId} {s s₀ : TickEngine × WorkerRooms F}
    (h : SameElsewhere r ps s s₀) (hps : members s.2 r = some ps) (hps₀ : members s₀.2 r = some ps)
    {visits : List Visit}
    (hapart : ∀ r' ≠ r, ∀ ps', members s₀.2 r' = some ps' → cmd.playerId ∉ ps' ∧ Disjoint ps ps') :
    SameElsewhere r ps (visits.foldl (visit (before ++ cmd :: later)) s)
      (visits.foldl (visit (before ++ later)) s₀) := by
  induction visits generalizing s s₀ with
  | nil => exact h
  | cons v visits ih =>
    rw [List.foldl_cons, List.foldl_cons]
    apply ih
    · by_cases hv : v.room = r
      · exact h.visit_self hps hps₀ hv _ _
      · exact h.visit_other hv (hapart v.room hv)
    · rwa [members_visit]
    · rwa [members_visit]
    · rwa [members_visit]

/-- No other room has the player; and the room, if it has the player, shares
nobody with another room. -/
def Separate (rooms : WorkerRooms F) (r : RoomId) (pid : PlayerId) : Prop :=
  ∀ r' ≠ r, ∀ ps', members rooms r' = some ps' →
    pid ∉ ps' ∧ ∀ ps, members rooms r = some ps → pid ∈ ps → Disjoint ps ps'

/-- **The frame.**  A tick with the command and one without it leave the other
rooms in the same state. -/
theorem lookup_visits_of_separate {e : TickEngine} {rooms : WorkerRooms F} {visits : List Visit}
    (hsep : Separate rooms r cmd.playerId) {r' : RoomId} (hne : r' ≠ r) :
    (visits.foldl (visit (before ++ cmd :: later)) (e, rooms)).2.lookup r' =
      (visits.foldl (visit (before ++ later)) (e, rooms)).2.lookup r' := by
  by_cases hin : ∃ ps, members rooms r = some ps ∧ cmd.playerId ∈ ps
  · obtain ⟨ps, hps, hpid⟩ := hin
    have hstart : SameElsewhere r ps (e, rooms) (e, rooms) := ⟨fun _ _ => rfl, fun _ _ => rfl⟩
    have hend := @SameElsewhere.visits F _ cmd before later r ps _ _ hstart hps hps visits ?_
    · exact hend.rooms r' hne
    · intro r₂ hr₂ ps₂ hps₂
      obtain ⟨hnot, hdisj⟩ := hsep r₂ hr₂ ps₂ hps₂
      exact ⟨hnot, hdisj ps hps hpid⟩
  · -- the player is nowhere on this worker
    rw [visits_drop]
    intro v _ ps hps hpid
    by_cases hv : v.room = r
    · exact hin ⟨ps, hv ▸ hps, hpid⟩
    · exact (hsep v.room hv ps hps).1 hpid

/-- **The effect.**  When the tick reaches the room, the mark of the player is
still the one from before the tick. -/
theorem marks_visits_of_separate {e : TickEngine} {rooms : WorkerRooms F} {visits : List Visit}
    {pid : PlayerId} (cmds : List (Command F)) (hsep : Separate rooms r pid)
    (hr : r ∉ visits.map Visit.room) :
    (visits.foldl (visit cmds) (e, rooms)).1.lastSeq.lookup pid = e.lastSeq.lookup pid := by
  apply marks_visits
  intro v hv ps hps
  apply (hsep v.room _ ps hps).1
  rintro rfl
  exact hr (List.mem_map_of_mem hv)

end LogicWorker

/-- Commands pushed one after the other. -/
def LogicWorker.pushCommands (w : LogicWorker F) (cmds : List (Command F)) : LogicWorker F :=
  { w with cmdQueue := w.cmdQueue ++ cmds }

namespace BattleManager

/-! ### Dispatching -/

/-- Dispatches one after the other. -/
def dispatchAll (b : BattleManager F) (ds : List (RoomId × Command F)) : BattleManager F :=
  ds.foldl (fun b d => b.dispatchCommand d.1 d.2) b

/-- What a list of dispatches puts on the queue of the worker `j`. -/
def queued (b : BattleManager F) (j : ℕ) (ds : List (RoomId × Command F)) : List (Command F) :=
  ds.filterMap fun d => if b.roomToWorker.lookup d.1 = some j then some d.2 else none

omit [FloatOps F] in
/-- **What dispatches do**: they fill the queues. -/
theorem workers_dispatchAll (b : BattleManager F) (ds : List (RoomId × Command F)) (j : ℕ) :
    (b.dispatchAll ds).workers[j]? =
      (b.workers[j]?).map fun w => w.pushCommands (b.queued j ds) := by
  induction ds generalizing b with
  | nil => simp [dispatchAll, queued, pushCommands]
  | cons d ds ih =>
    obtain ⟨r, cmd⟩ := d
    show ((b.dispatchCommand r cmd).dispatchAll ds).workers[j]? = _
    rw [ih]
    rcases hi : b.roomToWorker.lookup r with - | i
    · simp [dispatchCommand, queued, hi]
    · have hone : b.dispatchCommand r cmd =
          { b with workers := b.workers.modify i fun w => w.pushCommands [cmd] } := by
        unfold dispatchCommand
        rw [hi]
        rfl
      rw [hone, List.getElem?_modify]
      by_cases hij : i = j
      · simp [queued, hi, hij, pushCommands, Function.comp_def]
      · simp [queued, hi, hij]

/-! ### The law -/

/-- The number of the command is above the mark of its player and above its
numbers in the queue. -/
def New (w : LogicWorker F) (cmd : Command F) : Prop :=
  HighWater.Admits w.tickEngine.lastSeq cmd.playerId cmd.sequence ∧
    ∀ q ∈ w.cmdQueue, q.playerId = cmd.playerId → q.sequence < cmd.sequence

/-- The dispatch of `cmd` to the room `r`, followed by the dispatches `later`,
acts on the room `r` only and does act on it: the next tick of any worker
leaves the players of every other room as they would be without it; and a
new command is performed by the next tick of the room's worker, if its player is
there and alive when the loop over the batch reaches it in the room `r`. -/
structure ActsOnRoom (b : BattleManager F) (r : RoomId) (cmd : Command F)
    (later : List (RoomId × Command F)) : Prop where
  frame : ∀ (j : ℕ) (w w₀ : LogicWorker F),
    ((b.dispatchCommand r cmd).dispatchAll later).workers[j]? = some w →
    (b.dispatchAll later).workers[j]? = some w₀ → w₀.phase = .idle →
    ∀ (visits : List Visit) (w' w₀' : LogicWorker F), Covers visits w₀.rooms →
      w.tick visits = some w' → w₀.tick visits = some w₀' →
      ∀ r' ≠ r, playersOf w'.rooms r' = playersOf w₀'.rooms r'
  effect : ∀ (j : ℕ) (w₀ w : LogicWorker F), b.roomToWorker.lookup r = some j →
    b.workers[j]? = some w₀ →
    ((b.dispatchCommand r cmd).dispatchAll later).workers[j]? = some w → w₀.phase = .idle →
    New w₀ cmd →
    ∀ (before after : List Visit) (v : Visit) (w' : LogicWorker F) (rs : WorkerRoom F),
      Covers (before ++ v :: after) w₀.rooms → v.room = r →
      w.tickUntil ((before ++ v :: after).map Visit.room) before = some w' →
      w'.rooms.lookup r = some rs →
      let s := w₀.cmdQueue.foldl (processCommand w'.bc) ⟨w'.tickEngine, rs.players, []⟩
      ∀ p, s.players.lookup cmd.playerId = some p → p.alive = true →
        executes s cmd = true ∧ processCommand w'.bc s cmd = carryOut w'.bc s cmd

/-- The same routes and the same people in the rooms of every worker. -/
structure SameMembers (b b' : BattleManager F) : Prop where
  routes : b'.roomToWorker = b.roomToWorker
  workers : b'.workers.map (fun w => members w.rooms) = b.workers.map fun w => members w.rooms

/-- On the worker of the room `r` the player keeps to this room. -/
def KeepsApart (b : BattleManager F) (r : RoomId) (pid : PlayerId) : Prop :=
  ∀ j w, b.roomToWorker.lookup r = some j → b.workers[j]? = some w → Separate w.rooms r pid

omit [FloatOps F] in
theorem KeepsApart.congr {b b' : BattleManager F} {r : RoomId} {pid : PlayerId}
    (h : b.KeepsApart r pid) (hsame : SameMembers b b') : b'.KeepsApart r pid := by
  intro j w' hj hw'
  rw [hsame.routes] at hj
  have hmap : (b'.workers.map fun w => members w.rooms)[j]? =
      (b.workers.map fun w => members w.rooms)[j]? := by
    rw [hsame.workers]
  rw [List.getElem?_map, List.getElem?_map, hw', Option.map_some] at hmap
  obtain ⟨w, hw, hmembers⟩ := Option.map_eq_some_iff.mp hmap.symm
  have := h j w hj hw
  rwa [Separate, hmembers] at this

theorem rooms_tick {w w' : LogicWorker F} {visits : List Visit} (hidle : w.phase = .idle)
    (hc : Covers visits w.rooms) (htick : w.tick visits = some w') :
    w'.rooms = (visits.foldl (visit w.cmdQueue) w.core).2 := by
  obtain ⟨w₁, htick₁, hcore⟩ := core_tick hidle hc
  obtain rfl := Option.some.inj (htick.symm.trans htick₁)
  rw [← hcore]
  rfl

/-- **Sufficiency.** -/
theorem actsOnRoom_of_keepsApart {b : BattleManager F} {r : RoomId} {cmd : Command F}
    (h : b.KeepsApart r cmd.playerId) (later : List (RoomId × Command F)) :
    ActsOnRoom b r cmd later where
  frame := by
    intro j w w₀ hw hw₀ hidle visits w' w₀' hc htick htick₀ r' hne
    obtain ⟨u, hu, rfl⟩ := Option.map_eq_some_iff.mp ((workers_dispatchAll b later j).symm.trans hw₀)
    obtain ⟨u', hu', rfl⟩ := Option.map_eq_some_iff.mp
      ((workers_dispatchAll b ((r, cmd) :: later) j).symm.trans hw)
    obtain rfl := Option.some.inj (hu.symm.trans hu')
    rw [playersOf, playersOf, rooms_tick hidle hc htick₀,
      @rooms_tick F _ (u.pushCommands (b.queued j ((r, cmd) :: later))) w' visits hidle hc htick]
    by_cases hj : b.roomToWorker.lookup r = some j
    · have hqueued : b.queued j ((r, cmd) :: later) = cmd :: b.queued j later := by
        simp [queued, hj]
      rw [hqueued]
      congr 1
      apply lookup_visits_of_separate _ hne
      exact h j u hj hu
    · have hqueued : b.queued j ((r, cmd) :: later) = b.queued j later := by
        simp [queued, hj]
      rw [hqueued]
  effect := by
    intro j w₀ w hj hw₀ hw hidle hnew before after v w' rs hc hv htick hrs s p hp halive
    have hpush := workers_dispatchAll b ((r, cmd) :: later) j
    rw [hw₀, Option.map_some] at hpush
    obtain rfl := Option.some.inj (hw.symm.trans hpush)
    obtain ⟨w₁, htick₁, hcore⟩ := @core_tickUntil F _
      (w₀.pushCommands (b.queued j ((r, cmd) :: later))) before (v :: after) hidle hc
    obtain rfl := Option.some.inj (htick.symm.trans htick₁)
    have hr : r ∉ before.map Visit.room := by
      have hnodup := hc.nodup
      rw [List.map_append, List.map_cons, hv] at hnodup
      intro hin
      exact (List.nodup_append.mp hnodup).2.2 r hin r List.mem_cons_self rfl
    -- up to here the tick has left the mark of the player alone
    have hmark : w'.tickEngine.lastSeq.lookup cmd.playerId =
        w₀.tickEngine.lastSeq.lookup cmd.playerId := by
      rw [show w'.tickEngine = w'.core.1 from rfl, hcore]
      exact marks_visits_of_separate _ (h j w₀ hj hw₀) hr
    have hex : executes s cmd = true := by
      apply (executes_iff hp halive).mpr
      have hs : s.engine = (w₀.cmdQueue.foldl act (w'.tickEngine, rs.players)).1 :=
        congrArg Prod.fst (core_commands w'.bc ⟨w'.tickEngine, rs.players, []⟩ w₀.cmdQueue)
      rw [hs]
      apply admits_acts
      · intro mark hm
        apply hnew.1
        rwa [← hmark]
      · exact hnew.2
    exact ⟨hex, (processCommand_eq ..).trans (if_pos hex)⟩

/-! ### Where it fails -/

/-- A living player with one hit point left. -/
def recruit : BattlePlayer F := { BattlePlayer.default with hp := 1 }

/-- The worker with recruits in its rooms, idle, and with no history. -/
def refresh (w : LogicWorker F) : LogicWorker F where
  rooms := w.rooms.mapVal fun _ rs => { players := rs.players.mapVal fun _ _ => recruit }

/-- The command `leave` with number 1. -/
def leave (pid : PlayerId) : Command F :=
  ⟨.leave, pid, 1, FloatOps.ofRat 0, FloatOps.ofRat 0, 0, 0⟩

/-- The area skill on `target`, with number 1. -/
def areaSkill (pid target : PlayerId) : Command F :=
  ⟨.skill, pid, 1, FloatOps.ofRat 0, FloatOps.ofRat 0, target, 2⟩

def aliveIn (players : Players F) (pid : PlayerId) : Option Bool :=
  (players.lookup pid).map BattlePlayer.alive

/-- A recruit without a mark executes every command. -/
theorem act_recruit {e : TickEngine} {players : Players F} {cmd : Command F}
    (hp : players.lookup cmd.playerId = some recruit)
    (hnone : e.lastSeq.lookup cmd.playerId = none) :
    act (e, players) cmd =
      (⟨e.lastSeq.insert cmd.playerId cmd.sequence⟩, (execute {} players cmd recruit).1) := by
  have hex : executes ⟨e, players, []⟩ cmd = true := by
    apply (executes_iff hp rfl).mpr
    intro mark hmark
    rw [hnone] at hmark
    cases hmark
  rcases act_cases (e, players) cmd with ⟨hno, -⟩ | ⟨-, p, hp', heq⟩
  · rw [hex] at hno
    cases hno
  · obtain rfl := Option.some.inj (hp.symm.trans hp')
    exact heq

/-- A dead player executes no command. -/
theorem act_dead {e : TickEngine} {players : Players F} {cmd : Command F}
    (hdead : aliveIn players cmd.playerId = some false) :
    act (e, players) cmd = (e, players) := by
  rcases act_cases (e, players) cmd with ⟨-, heq⟩ | ⟨hex, -⟩
  · exact heq
  · obtain ⟨p, hp, halive⟩ := Option.map_eq_some_iff.mp hdead
    simp [executes, hp, halive] at hex

/-- A number that is not above the mark is not executed. -/
theorem act_marked {e : TickEngine} {players : Players F} {cmd : Command F}
    (hmark : e.lastSeq.lookup cmd.playerId = some cmd.sequence) :
    act (e, players) cmd = (e, players) := by
  rcases act_cases (e, players) cmd with ⟨-, heq⟩ | ⟨hex, -⟩
  · exact heq
  · obtain ⟨p, hp, -, hadm, -⟩ := processCommand_of_executes {} hex
    exact absurd (hadm _ hmark) (lt_irrefl _)

theorem aliveIn_leave {players : Players F} {pid : PlayerId}
    (hp : players.lookup pid = some recruit) :
    aliveIn (execute {} players (leave pid) recruit).1 pid = some false := by
  show Option.map _ ((players.modify pid _).lookup pid) = _
  rw [Finmap.lookup_modify_self, hp]
  rfl

omit [FloatOps F] in
/-- Damage that takes all hit points kills. -/
theorem aliveIn_takeDamage {players : Players F} {aid tid : PlayerId} {dmg : ℤ}
    {t : BattlePlayer F} (hne : tid ≠ aid) (ht : players.lookup tid = some t) (hdmg : t.hp ≤ dmg) :
    aliveIn (takeDamage players aid tid dmg).1 tid = some false := by
  have hlook : ((players.modify tid (hurt dmg)).modify aid (credit dmg)).lookup tid =
      some (hurt dmg t) := by
    rw [Finmap.lookup_modify_of_ne _ _ hne, Finmap.lookup_modify_self, ht, Option.map_some]
  have hdead : (hurt dmg t).hp ≤ 0 := Int.sub_nonpos_of_le hdmg
  rw [takeDamage, hlook]
  dsimp only
  rw [if_pos hdead, aliveIn]
  dsimp only
  rw [Finmap.lookup_modify_of_ne _ _ hne, Finmap.lookup_modify_self, hlook]
  rfl

/-- The area skill tests no distance and kills a recruit. -/
theorem aliveIn_areaSkill {players : Players F} {pid x : PlayerId} (hne : x ≠ pid)
    (hx : players.lookup x = some recruit) :
    aliveIn (execute {} players (areaSkill pid x) recruit).1 x = some false := by
  have hexec : (execute {} players (areaSkill pid x) recruit).1 =
      (takeDamage (players.modify pid (setCooldown 2 5000)) pid x
        (scaleDamage (calcDamage 100 50) (Binary32.round (4 / 5)))).1 := by
    show (processSkill {} players pid x recruit (players.lookup x) 2).1 = _
    rw [hx]
    rfl
  rw [hexec]
  apply aliveIn_takeDamage hne
  · rwa [Finmap.lookup_modify_of_ne _ _ hne]
  · show (1 : ℤ) ≤ scaleDamage (calcDamage 100 50) (Binary32.round (4 / 5))
    decide +kernel

omit [FloatOps F] in
/-- A tick may take its rooms in any order. -/
theorem exists_covers (rooms : WorkerRooms F) {first : List RoomId} (hnodup : first.Nodup)
    (hfirst : ∀ r ∈ first, r ∈ rooms.keys) :
    ∃ before after, Covers (before ++ after) rooms ∧ before.map Visit.room = first := by
  have hle : (first : Multiset RoomId) ≤ rooms.keys.val :=
    (Multiset.le_iff_subset (Multiset.coe_nodup.mpr hnodup)).mpr hfirst
  obtain ⟨rest, hrest⟩ := Multiset.le_iff_exists_add.mp hle
  obtain ⟨rest, rfl⟩ := Quot.exists_rep rest
  let make : RoomId → Visit := fun r => ⟨r, ((members rooms r).getD ∅).toList, 0⟩
  have hrooms : ∀ rs : List RoomId, (rs.map make).map Visit.room = rs := by
    intro rs
    rw [List.map_map]
    exact List.map_id _
  refine ⟨first.map make, rest.map make, ⟨?_, ?_⟩, hrooms first⟩
  · rw [← List.map_append, hrooms, hrest]
    rfl
  · intro v hv ps hps
    rw [← List.map_append] at hv
    obtain ⟨r, -, rfl⟩ := List.mem_map.mp hv
    show (((members rooms r).getD ∅).toList : Multiset PlayerId) = ps.val
    rw [hps]
    exact Finset.coe_toList ps

/-- A player of a room after a visit, where nobody is marked as disconnected. -/
theorem aliveIn_visit {cmds : List (Command F)} {s : TickEngine × WorkerRooms F} {v : Visit}
    {players : Players F} (hrs : s.2.lookup v.room = some { players := players }) (pid : PlayerId) :
    (playersOf (visit cmds s v).2 v.room).bind (aliveIn · pid) =
      aliveIn (cmds.foldl act (s.1, players)).2 pid := by
  rw [visit_eq hrs, playersOf, Finmap.lookup_insert]
  show Option.map BattlePlayer.alive
    ((checkDisconnected (afterCommands { players := players } _) v.now).players.lookup pid) = _
  rw [checkDisconnected, Finmap.lookup_mapVal, afterCommands, Finmap.lookup_mapVal, aliveIn,
    Option.map_map, Option.map_map]
  congr 1

/-- What the law says of one worker's tick. -/
theorem ActsOnRoom.visits_eq {b : BattleManager F} {r r' : RoomId} {cmd : Command F}
    {later : List (RoomId × Command F)} (h : ActsOnRoom b r cmd later) {j : ℕ} {u : LogicWorker F}
    (hj : b.roomToWorker.lookup r = some j) (hu : b.workers[j]? = some u) (hidle : u.phase = .idle)
    (hne : r' ≠ r) {before after : List Visit} (hc : Covers (before ++ after) u.rooms)
    (hr' : r' ∈ before.map Visit.room) :
    playersOf (before.foldl (visit (u.cmdQueue ++ cmd :: b.queued j later)) u.core).2 r' =
      playersOf (before.foldl (visit (u.cmdQueue ++ b.queued j later)) u.core).2 r' := by
  have hqueued : b.queued j ((r, cmd) :: later) = cmd :: b.queued j later := by
    simp [queued, hj]
  have hw := workers_dispatchAll b ((r, cmd) :: later) j
  have hw₀ := workers_dispatchAll b later j
  rw [hu, Option.map_some] at hw hw₀
  rw [hqueued] at hw
  obtain ⟨w', htick, hcore⟩ := @core_tick F _
    (u.pushCommands (cmd :: b.queued j later)) (before ++ after) hidle hc
  obtain ⟨w₀', htick₀, hcore₀⟩ := @core_tick F _
    (u.pushCommands (b.queued j later)) (before ++ after) hidle hc
  have heq := h.frame j _ _ hw hw₀ hidle _ w' w₀' hc htick htick₀ r' hne
  have hafter : r' ∉ after.map Visit.room := by
    have hnodup := hc.nodup
    rw [List.map_append] at hnodup
    intro hin
    exact (List.nodup_append.mp hnodup).2.2 r' hr' r' hin rfl
  rw [show w'.rooms = w'.core.2 from rfl, show w₀'.rooms = w₀'.core.2 from rfl, hcore, hcore₀,
    List.foldl_append, List.foldl_append, playersOf, playersOf,
    lookup_visits_of_notMem _ _ hafter, lookup_visits_of_notMem _ _ hafter] at heq
  exact heq

omit [FloatOps F] in
theorem lookup_refresh [FloatOps F] {w : LogicWorker F} {r : RoomId} {ps : Finset PlayerId}
    (hps : members w.rooms r = some ps) :
    ∃ players, (refresh w).rooms.lookup r = some { players := players } ∧
      ∀ pid, (pid ∈ ps → players.lookup pid = some recruit) ∧ (pid ∉ ps → pid ∉ players) := by
  obtain ⟨rs, hrs, rfl⟩ := Option.map_eq_some_iff.mp hps
  refine ⟨rs.players.mapVal fun _ _ => recruit, ?_, ?_⟩
  · rw [refresh, Finmap.lookup_mapVal, hrs, Option.map_some]
  · intro pid
    refine ⟨?_, ?_⟩
    · intro hpid
      obtain ⟨p, hp⟩ := Finmap.mem_keys_iff.mp hpid
      rw [Finmap.lookup_mapVal, hp, Option.map_some]
    · intro hpid
      rwa [← Finmap.mem_keys, Finmap.keys_mapVal]

/-- **Necessity, the player.**  A command of a player of another room is
executed there. -/
theorem not_actsOnRoom_of_member {b : BattleManager F} {r r' : RoomId} {pid : PlayerId} {j : ℕ}
    {w : LogicWorker F} {ps : Finset PlayerId} (hj : b.roomToWorker.lookup r = some j)
    (hw : b.workers[j]? = some w) (hne : r' ≠ r) (hps : members w.rooms r' = some ps)
    (hpid : pid ∈ ps) :
    ¬ ActsOnRoom { b with workers := b.workers.map refresh } r (leave pid) [] := by
  intro h
  obtain ⟨players, hrs, hplayers⟩ := lookup_refresh hps
  have hp := (hplayers pid).1 hpid
  have hu : (b.workers.map refresh)[j]? = some (refresh w) := by
    rw [List.getElem?_map, hw, Option.map_some]
  obtain ⟨before, after, hc, hbefore⟩ := exists_covers (refresh w).rooms
    (List.nodup_singleton r') (by simpa using Finmap.mem_keys_iff.mpr ⟨_, hrs⟩)
  obtain ⟨v, rfl, hv⟩ := List.map_eq_singleton_iff.mp hbefore
  subst hv
  have heq := h.visits_eq hj hu rfl hne hc (by simp)
  have halive := congrArg (fun o => o.bind (aliveIn · pid)) heq
  have hempty : ({} : TickEngine).lastSeq.lookup (leave pid : Command F).playerId = none :=
    Finmap.lookup_empty _
  have hwith : aliveIn (act ({}, players) (leave pid)).2 pid = some false := by
    rw [act_recruit hp hempty]
    exact aliveIn_leave hp
  have hwithout : aliveIn players pid = some true := by
    rw [aliveIn, hp]
    rfl
  have key : some false = some true := by
    rw [← hwith, ← hwithout]
    refine (aliveIn_visit hrs pid).symm.trans (halive.trans (aliveIn_visit hrs pid))
  cases key

/-- A player whom the first room's area skill kills leaves in the second room:
dead in the first, the player is not marked there. -/
theorem aliveIn_second_of_killed {w : LogicWorker F} {v : Visit} {pid x : PlayerId}
    {players players' : Players F}
    (hrs : (refresh w).core.2.lookup v.room = some { players := players }) (hxp : x ≠ pid)
    (hpid : players.lookup pid = some recruit) (hx : players.lookup x = some recruit)
    (hpid' : pid ∉ players') (hx' : players'.lookup x = some recruit) :
    aliveIn (([areaSkill pid x, leave x].foldl act
      ((visit [areaSkill pid x, leave x] (refresh w).core v).1, players')).2) x = some false := by
  have hmark : (visit [areaSkill pid x, leave x] (refresh w).core v).1.lastSeq.lookup x = none := by
    have hdead : aliveIn (execute {} players (areaSkill pid x) recruit).1
        (leave x : Command F).playerId = some false := aliveIn_areaSkill hxp hx
    rw [visit_eq hrs]
    show (act (act ({}, players) (areaSkill pid x)) (leave x)).1.lastSeq.lookup x = none
    rw [act_recruit hpid (Finmap.lookup_empty _), act_dead hdead]
    show ((∅ : Finmap fun _ : PlayerId => UInt64).insert pid 1).lookup x = none
    rw [Finmap.lookup_insert_of_ne _ hxp, Finmap.lookup_empty]
  rw [← List.nil_append [areaSkill pid x, leave x], acts_drop hpid']
  show aliveIn (act _ (leave x)).2 x = some false
  rw [act_recruit hx' hmark]
  exact aliveIn_leave hx'

/-- A player who has left in the first room is marked and stays in the second. -/
theorem aliveIn_second_of_left {w : LogicWorker F} {v : Visit} {x : PlayerId}
    {players players' : Players F}
    (hrs : (refresh w).core.2.lookup v.room = some { players := players })
    (hx : players.lookup x = some recruit) (hx' : players'.lookup x = some recruit) :
    aliveIn (([leave x].foldl act
      ((visit [leave x] (refresh w).core v).1, players')).2) x = some true := by
  have hmark : (visit [leave x] (refresh w).core v).1.lastSeq.lookup x = some 1 := by
    rw [visit_eq hrs]
    show (act ({}, players) (leave x)).1.lastSeq.lookup x = some 1
    rw [act_recruit hx (Finmap.lookup_empty _)]
    exact Finmap.lookup_insert _
  show aliveIn (act _ (leave x)).2 x = some true
  rw [act_marked hmark, aliveIn, hx']
  rfl

/-- **Necessity, the room.**  A command that kills a second player of the room
keeps the later commands of this player out of the history, and so changes
what they do in another room. -/
theorem not_actsOnRoom_of_shared {b : BattleManager F} {r r' : RoomId} {pid x : PlayerId} {j : ℕ}
    {w : LogicWorker F} {ps ps' : Finset PlayerId} (hj : b.roomToWorker.lookup r = some j)
    (hw : b.workers[j]? = some w) (hne : r' ≠ r) (hps : members w.rooms r = some ps)
    (hps' : members w.rooms r' = some ps') (hpid : pid ∈ ps) (hpid' : pid ∉ ps') (hx : x ∈ ps)
    (hx' : x ∈ ps') :
    ¬ ActsOnRoom { b with workers := b.workers.map refresh } r (areaSkill pid x)
      [(r, leave x)] := by
  intro h
  have hxp : x ≠ pid := by
    rintro rfl
    exact hpid' hx'
  obtain ⟨players, hrs, hplayers⟩ := lookup_refresh hps
  obtain ⟨players', hrs', hplayers'⟩ := lookup_refresh hps'
  have hu : (b.workers.map refresh)[j]? = some (refresh w) := by
    rw [List.getElem?_map, hw, Option.map_some]
  have hrooms : ∀ r₂ ∈ [r, r'], r₂ ∈ (refresh w).rooms.keys := by
    intro r₂ hr₂
    rcases List.mem_pair.mp hr₂ with rfl | rfl
    · exact Finmap.mem_keys_iff.mpr ⟨_, hrs⟩
    · exact Finmap.mem_keys_iff.mpr ⟨_, hrs'⟩
  obtain ⟨before, after, hc, hbefore⟩ := exists_covers (refresh w).rooms (by simpa using hne.symm)
    hrooms
  obtain ⟨v, v', rfl, rfl, rfl⟩ : ∃ v v' : Visit, v.room = r ∧ v'.room = r' ∧ before = [v, v'] := by
    obtain ⟨v, l, rfl, hv, hl⟩ := List.map_eq_cons_iff.mp hbefore
    obtain ⟨v', rfl, hv'⟩ := List.map_eq_singleton_iff.mp hl
    exact ⟨v, v', hv, hv', rfl⟩
  have heq := h.visits_eq hj hu rfl hne hc (by simp)
  rw [show BattleManager.queued _ j [(v.room, leave x)] = [leave x] by simp [queued, hj]] at heq
  have halive := congrArg (fun o => o.bind (aliveIn · x)) heq
  have hx₁ := (hplayers x).1 hx
  have hx₂ := (hplayers' x).1 hx'
  have hthere : ∀ cmds : List (Command F),
      (visit cmds (refresh w).core v).2.lookup v'.room = some { players := players' } := by
    intro cmds
    rw [lookup_visit_of_ne cmds _ hne]
    exact hrs'
  have hwith := aliveIn_second_of_killed (v := v) hrs hxp ((hplayers pid).1 hpid) hx₁
    ((hplayers' pid).2 hpid') hx₂
  have hwithout := aliveIn_second_of_left (v := v) hrs hx₁ hx₂
  have key : some false = some true := by
    rw [← hwith, ← hwithout]
    exact (aliveIn_visit (hthere _) x).symm.trans (halive.trans (aliveIn_visit (hthere _) x))
  cases key

omit [FloatOps F] in
theorem sameMembers_refresh [FloatOps F] (b : BattleManager F) :
    SameMembers b { b with workers := b.workers.map refresh } where
  routes := rfl
  workers := by
    rw [List.map_map]
    apply List.map_congr_left
    intro w _
    funext r
    show Option.map _ (Finmap.lookup r (Finmap.mapVal _ _)) = _
    rw [Finmap.lookup_mapVal, Option.map_map, members]
    congr 1
    funext rs
    exact Finmap.keys_mapVal _ _

/-- **When a command acts on its room.**  For the routes and the people in the
rooms of `b`, every command that `pid` dispatches to the room `r` acts on this
room and on no other, whatever the state of the players, the history, the other
commands and the orders of the tick, if and only if `pid` keeps to the room: no
other room of its worker has `pid`, and if the room has `pid`, it shares
nobody with another room. -/
theorem acts_on_its_room_iff (b : BattleManager F) (r : RoomId) (pid : PlayerId) :
    (∀ b', SameMembers b b' → ∀ (cmd : Command F) (later : List (RoomId × Command F)),
      cmd.playerId = pid → ActsOnRoom b' r cmd later) ↔ b.KeepsApart r pid := by
  constructor
  · intro hlaw j w hj hw r' hne ps' hps'
    have hfresh := hlaw _ (sameMembers_refresh b)
    have hpid' : pid ∉ ps' := fun hmem =>
      not_actsOnRoom_of_member hj hw hne hps' hmem (hfresh (leave pid) [] rfl)
    refine ⟨hpid', ?_⟩
    intro ps hps hpid
    rw [Finset.disjoint_left]
    intro x hx hx'
    exact not_actsOnRoom_of_shared hj hw hne hps hps' hpid hpid' hx hx'
      (hfresh (areaSkill pid x) [(r, leave x)] rfl)
  · rintro h b' hsame cmd later rfl
    exact actsOnRoom_of_keepsApart (h.congr hsame) later

/-- One worker with the rooms 1 and 3, both of which have player 1. -/
def sharedPlayer : BattleManager ℚ where
  workers := [{ rooms :=
    (Finmap.singleton 1 { players := alone 1 }).insert 3 { players := alone 1 } }]
  roomToWorker := (Finmap.singleton 1 0).insert 3 0

/-- Player 1 leaves the battle of room 1, and dies in room 3. -/
theorem not_actsOnRoom_sharedPlayer : ¬ ActsOnRoom sharedPlayer 1 (leave 1) [] := by
  intro h
  have hc : Covers ([⟨3, [1], 0⟩] ++ [⟨1, [1], 0⟩])
      ((Finmap.singleton 1 { players := alone 1 }).insert 3 { players := alone 1 } :
        WorkerRooms ℚ) := by
    refine ⟨by decide +kernel, ?_⟩
    intro v hv ps hps
    rcases List.mem_pair.mp hv with rfl | rfl
    · obtain rfl := Option.some.inj (hps.symm.trans (show _ = some {1} by decide +kernel))
      rfl
    · obtain rfl := Option.some.inj (hps.symm.trans (show _ = some {1} by decide +kernel))
      rfl
  have hroute : sharedPlayer.roomToWorker.lookup 1 = some 0 := by decide +kernel
  have hne : (3 : RoomId) ≠ 1 := by decide
  have heq := h.visits_eq hroute rfl rfl hne hc List.mem_cons_self
  have halive := congrArg (fun o => o.bind (aliveIn · 1)) heq
  revert halive
  decide +kernel

end BattleManager

end MiniArena
