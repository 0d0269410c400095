/-
MiniArena/ServerStore.lean

The stores behind a running server.

`store_step` says what a step does to them: apart from the matchmaker's own
steps, the commands of the session manager, in 2001 after one push.  Two
readings of the stores follow the server through every run: its match queues
hold enough entries for the room the matchmaker fills (`sound_server`), and
what its login cache answers is a decimal id (`decimal_server`).
-/
import MiniArena.BattleStart
import MiniArena.MatchCall

namespace MiniArena

variable {F : Type} [FloatOps F] {σ : Type} [Storage σ]

open RedisClient

namespace GameServer

open SessionManager (Commands)

variable {pb : Protobuf F} {g g' : GameServer σ F} {out : ServerOut F}

/-! ### What a step does to the stores -/

variable (pb) in
/-- The player a message puts in a queue, and the mode. -/
def asks (g : GameServer σ F) : ServerEvent F → Option (PlayerId × ℤ)
  | .frame _ connId frame _ =>
      match handlers.lookup frame.messageId with
      | some .matchStart =>
          (g.sessions.getByConn connId).map fun s =>
            (s.playerId, pb.matchStartRequest frame.payload)
      | _ => none
  | _ => none

def pushed : Option (PlayerId × ℤ) → σ → σ
  | none, st => st
  | some (pid, mode), st => pushMatchQueue mode pid st

section Commands

variable {Rel : σ → σ → Prop} (h : Commands Rel)
include h

theorem store_enterBattle (m : SessionManager σ) (order : List PlayerId) :
    Rel m.store (order.foldl BattleManager.enterBattle m).store := by
  induction order generalizing m with
  | nil => exact h.refl m.store
  | cons pid order ih =>
    refine h.trans ?_ (ih _)
    unfold BattleManager.enterBattle
    split
    · exact h.refl m.store
    · exact h.setState m _ _

variable {connId : ConnectionId} {frame : Frame} {env : Env}

omit [FloatOps F] in
theorem store_login (hstep : g.login pb connId frame env = some (g', out)) :
    Rel g.sessions.store g'.sessions.store := by
  unfold login at hstep
  split at hstep
  · obtain ⟨rfl, -⟩ := Prod.mk.injEq .. ▸ Option.some.inj hstep
    exact h.refl _
  · rename_i username password _
    obtain ⟨⟨m, result, kicks⟩, hlogin, heq⟩ := Option.map_eq_some_iff.mp hstep
    obtain ⟨rfl, -⟩ := Prod.mk.injEq .. ▸ heq
    have hop : g.sessions.step (.login connId username password env.sid env.now) = some m := by
      rw [SessionManager.step, hlogin, Option.map_some]
    have hlogged := h.step hop
    dsimp only
    split
    · exact h.trans hlogged (h.setState m _ _)
    · exact hlogged

omit [FloatOps F] in
theorem store_enterRoom : Rel g.sessions.store (g.enterRoom pb connId frame).1.sessions.store := by
  unfold enterRoom
  dsimp only
  split
  · exact h.refl _
  · split
    · exact h.refl _
    · split
      · exact h.setCurrentRoom _ _ _
      · exact h.refl _

theorem store_playerReady (hstep : g.playerReady connId env = some (g', out)) :
    Rel g.sessions.store g'.sessions.store := by
  unfold playerReady at hstep
  split at hstep
  · obtain ⟨rfl, -⟩ := Prod.mk.injEq .. ▸ Option.some.inj hstep
    exact h.refl _
  · dsimp only at hstep
    split at hstep
    · obtain ⟨-, heq⟩ := Option.ite_none_right_eq_some.mp hstep
      obtain rfl := congrArg Prod.fst (Option.some.inj heq)
      exact store_enterBattle h _ _
    · obtain ⟨rfl, -⟩ := Prod.mk.injEq .. ▸ Option.some.inj hstep
      exact h.refl _

theorem store_command (request : Option (Command F → Command F)) :
    Rel g.sessions.store (g.command connId frame request).sessions.store := by
  unfold command
  split
  · split
    · exact h.refl _
    · exact h.refl _
  · exact h.refl _

omit [FloatOps F] in
theorem store_reconnect :
    Rel g.sessions.store (g.reconnect pb connId frame env).1.sessions.store := by
  unfold reconnect
  split
  · exact h.refl _
  · exact h.tryReconnect _ _ _ _ _

omit [FloatOps F] in
theorem store_heartbeat : Rel g.sessions.store (g.heartbeat connId env).1.sessions.store := by
  unfold heartbeat
  split
  · exact h.refl _
  · exact h.heartbeat _ _ _

omit [FloatOps F] in
theorem store_matchCancel : Rel g.sessions.store (g.matchCancel connId).sessions.store := by
  unfold matchCancel
  split
  · exact h.refl _
  · exact h.leaveQueue _ _

theorem store_dispatch (hstep : g.dispatch pb connId frame env = some (g', out)) (loop : ℕ) :
    Rel (pushed (asks pb g (.frame loop connId frame env)) g.sessions.store) g'.sessions.store := by
  have hnone : handlers.lookup frame.messageId ≠ some .matchStart →
      pushed (asks pb g (.frame loop connId frame env)) g.sessions.store = g.sessions.store := by
    intro hne
    dsimp only [asks]
    split
    · rename_i heq
      exact absurd heq hne
    · rfl
  unfold dispatch at hstep
  split at hstep
  · rename_i hhandler
    rw [hnone (by rw [hhandler]; nofun)]
    obtain ⟨rfl, -⟩ := Prod.mk.injEq .. ▸ Option.some.inj hstep
    exact h.refl _
  · rename_i hhandler
    rw [hnone (by rw [hhandler]; nofun)]
    exact store_login h hstep
  · rename_i hhandler
    rw [hnone (by rw [hhandler]; nofun)]
    obtain rfl := congrArg Prod.fst (Option.some.inj hstep)
    exact store_heartbeat h
  · rename_i hhandler
    dsimp only [asks]
    rw [hhandler]
    unfold matchStart at hstep
    split at hstep
    · rename_i hconn
      obtain ⟨rfl, -⟩ := Prod.mk.injEq .. ▸ Option.some.inj hstep
      rw [hconn]
      exact h.refl _
    · rename_i hconn
      obtain ⟨⟨m, err⟩, hjoin, heq⟩ := Option.map_eq_some_iff.mp hstep
      obtain ⟨rfl, -⟩ := Prod.mk.injEq .. ▸ heq
      rw [hconn]
      exact h.joinQueue hjoin
  · rename_i hhandler
    rw [hnone (by rw [hhandler]; nofun)]
    obtain rfl := congrArg Prod.fst (Option.some.inj hstep)
    exact store_matchCancel h
  · rename_i hhandler
    rw [hnone (by rw [hhandler]; nofun)]
    obtain rfl := congrArg Prod.fst (Option.some.inj hstep)
    exact store_enterRoom h
  · rename_i hhandler
    rw [hnone (by rw [hhandler]; nofun)]
    exact store_playerReady h hstep
  · rename_i hhandler
    rw [hnone (by rw [hhandler]; nofun)]
    obtain ⟨rfl, -⟩ := Prod.mk.injEq .. ▸ Option.some.inj hstep
    exact store_command h _
  · rename_i hhandler
    rw [hnone (by rw [hhandler]; nofun)]
    obtain ⟨rfl, -⟩ := Prod.mk.injEq .. ▸ Option.some.inj hstep
    exact store_command h _
  · rename_i hhandler
    rw [hnone (by rw [hhandler]; nofun)]
    obtain ⟨rfl, -⟩ := Prod.mk.injEq .. ▸ Option.some.inj hstep
    exact store_command h _
  · rename_i hhandler
    rw [hnone (by rw [hhandler]; nofun)]
    obtain rfl := congrArg Prod.fst (Option.some.inj hstep)
    exact store_reconnect h

/-- **What a step does to the stores**, the matchmaker's own steps apart. -/
theorem store_step {e : ServerEvent F} (hstep : step pb g e = some (g', out))
    (hother : e ≠ .tryMatch) :
    Rel (pushed (asks pb g e) g.sessions.store) g'.sessions.store := by
  cases e with
  | frame loop connId frame env =>
    have hdispatch : dispatch pb { g with connToLoop := g.connToLoop.insert connId loop } connId
        frame env = some (g', out) := hstep
    exact store_dispatch h hdispatch loop
  | disconnect connId now =>
    have hdisc : g.onDisconnect connId now = (g', out) := Option.some.inj hstep
    rw [onDisconnect_eq] at hdisc
    obtain ⟨rfl, -⟩ := Prod.mk.injEq .. ▸ hdisc
    exact h.markDisconnected _ _ _
  | timerWakes =>
    dsimp only [step] at hstep
    split at hstep
    · obtain ⟨rfl, -⟩ := Prod.mk.injEq .. ▸ Option.some.inj hstep
      exact h.refl _
    · cases hstep
  | tryMatch => exact absurd rfl hother
  | cleanupExpired now order =>
    dsimp only [step] at hstep
    split at hstep
    · obtain ⟨-, heq⟩ := Option.ite_none_right_eq_some.mp hstep
      obtain rfl := congrArg Prod.fst (Option.some.inj heq)
      exact h.cleanupExpired _ _ _
    · cases hstep
  | worker i event =>
    obtain ⟨-, hrest⟩ := Option.ite_none_right_eq_some.mp hstep
    obtain ⟨w, -, hrest⟩ := Option.bind_eq_some_iff.mp hrest
    obtain ⟨r, -, heq⟩ := Option.map_eq_some_iff.mp hrest
    obtain ⟨rfl, -⟩ := Prod.mk.injEq .. ▸ heq
    exact h.refl _

end Commands

/-! ### What a step does to the timer and the table of rooms -/

omit [Storage σ] in
theorem timer_command {connId : ConnectionId} {frame : Frame}
    (request : Option (Command F → Command F)) :
    (g.command connId frame request).timer = g.timer ∧
      (g.command connId frame request).roomSize = g.roomSize := by
  unfold command
  split
  · split
    · exact ⟨rfl, rfl⟩
    · exact ⟨rfl, rfl⟩
  · exact ⟨rfl, rfl⟩

theorem timer_dispatch {connId : ConnectionId} {frame : Frame} {env : Env}
    (hstep : g.dispatch pb connId frame env = some (g', out)) :
    g'.timer = g.timer ∧ g'.roomSize = g.roomSize := by
  unfold dispatch at hstep
  split at hstep
  · obtain ⟨rfl, -⟩ := Prod.mk.injEq .. ▸ Option.some.inj hstep
    exact ⟨rfl, rfl⟩
  · unfold login at hstep
    split at hstep
    · obtain ⟨rfl, -⟩ := Prod.mk.injEq .. ▸ Option.some.inj hstep
      exact ⟨rfl, rfl⟩
    · obtain ⟨r, -, heq⟩ := Option.map_eq_some_iff.mp hstep
      obtain ⟨rfl, -⟩ := Prod.mk.injEq .. ▸ heq
      exact ⟨rfl, rfl⟩
  · obtain rfl := congrArg Prod.fst (Option.some.inj hstep)
    unfold heartbeat
    split
    · exact ⟨rfl, rfl⟩
    · exact ⟨rfl, rfl⟩
  · unfold matchStart at hstep
    split at hstep
    · obtain ⟨rfl, -⟩ := Prod.mk.injEq .. ▸ Option.some.inj hstep
      exact ⟨rfl, rfl⟩
    · obtain ⟨r, -, heq⟩ := Option.map_eq_some_iff.mp hstep
      obtain ⟨rfl, -⟩ := Prod.mk.injEq .. ▸ heq
      exact ⟨rfl, rfl⟩
  · obtain rfl := congrArg Prod.fst (Option.some.inj hstep)
    show (g.matchCancel connId).timer = _ ∧ (g.matchCancel connId).roomSize = _
    unfold matchCancel
    split
    · exact ⟨rfl, rfl⟩
    · exact ⟨rfl, rfl⟩
  · obtain rfl := congrArg Prod.fst (Option.some.inj hstep)
    unfold enterRoom
    dsimp only
    split
    · exact ⟨rfl, rfl⟩
    · split
      · exact ⟨rfl, rfl⟩
      · split
        · exact ⟨rfl, rfl⟩
        · exact ⟨rfl, rfl⟩
  · unfold playerReady at hstep
    split at hstep
    · obtain ⟨rfl, -⟩ := Prod.mk.injEq .. ▸ Option.some.inj hstep
      exact ⟨rfl, rfl⟩
    · dsimp only at hstep
      split at hstep
      · obtain ⟨-, heq⟩ := Option.ite_none_right_eq_some.mp hstep
        obtain rfl := congrArg Prod.fst (Option.some.inj heq)
        exact ⟨rfl, rfl⟩
      · obtain ⟨rfl, -⟩ := Prod.mk.injEq .. ▸ Option.some.inj hstep
        exact ⟨rfl, rfl⟩
  · obtain rfl := congrArg Prod.fst (Option.some.inj hstep)
    exact timer_command _
  · obtain rfl := congrArg Prod.fst (Option.some.inj hstep)
    exact timer_command _
  · obtain rfl := congrArg Prod.fst (Option.some.inj hstep)
    exact timer_command _
  · obtain rfl := congrArg Prod.fst (Option.some.inj hstep)
    unfold reconnect
    split
    · exact ⟨rfl, rfl⟩
    · exact ⟨rfl, rfl⟩

/-- What can be said of every step but those of the matchmaker: the timer
thread stays where it is, wakes or falls asleep. -/
theorem timer_step {e : ServerEvent F} (hstep : step pb g e = some (g', out))
    (hother : e ≠ .tryMatch) :
    g'.roomSize = g.roomSize ∧
      (g'.timer = g.timer ∨ g'.timer = .sleeping ∨ g'.timer = .checking 0) := by
  cases e with
  | frame loop connId frame env =>
    have hdispatch : dispatch pb { g with connToLoop := g.connToLoop.insert connId loop } connId
        frame env = some (g', out) := hstep
    obtain ⟨htimer, hsize⟩ := timer_dispatch hdispatch
    exact ⟨hsize, Or.inl htimer⟩
  | disconnect connId now =>
    have hdisc : g.onDisconnect connId now = (g', out) := Option.some.inj hstep
    rw [onDisconnect_eq] at hdisc
    obtain ⟨rfl, -⟩ := Prod.mk.injEq .. ▸ hdisc
    exact ⟨rfl, Or.inl rfl⟩
  | timerWakes =>
    dsimp only [step] at hstep
    split at hstep
    · obtain ⟨rfl, -⟩ := Prod.mk.injEq .. ▸ Option.some.inj hstep
      exact ⟨rfl, Or.inr (Or.inr rfl)⟩
    · cases hstep
  | tryMatch => exact absurd rfl hother
  | cleanupExpired now order =>
    dsimp only [step] at hstep
    split at hstep
    · obtain ⟨-, heq⟩ := Option.ite_none_right_eq_some.mp hstep
      obtain rfl := congrArg Prod.fst (Option.some.inj heq)
      exact ⟨rfl, Or.inr (Or.inl rfl)⟩
    · cases hstep
  | worker i event =>
    obtain ⟨-, hrest⟩ := Option.ite_none_right_eq_some.mp hstep
    obtain ⟨w, -, hrest⟩ := Option.bind_eq_some_iff.mp hrest
    obtain ⟨r, -, heq⟩ := Option.map_eq_some_iff.mp hrest
    obtain ⟨rfl, -⟩ := Prod.mk.injEq .. ▸ heq
    exact ⟨rfl, Or.inl rfl⟩

omit [FloatOps F] in
variable (pb) (g) in
/-- Rooms are formed and seats given by the matchmaker only. -/
theorem action_of_ne_tryMatch {e : ServerEvent F} (hother : e ≠ .tryMatch) :
    action pb g e ≠ some .form ∧ ∀ pid s r room, action pb g e ≠ some (.seat pid s r room) := by
  have hlogin : ∀ (connId : ConnectionId) (frame : Frame) (env : Env) a,
      g.loginAction pb connId frame env = some a → ∃ player st, a = .login connId player st env := by
    intro connId frame env a ha
    obtain ⟨req, -, hrest⟩ := Option.bind_eq_some_iff.mp ha
    split at hrest
    · obtain rfl := Option.some.inj hrest
      exact ⟨_, _, rfl⟩
    · cases hrest
  have henter : ∀ (connId : ConnectionId) (frame : Frame) a,
      g.enterAction pb connId frame = some a → ∃ s r room, a = .enter s r room := by
    intro connId frame a ha
    obtain ⟨s, -, hrest⟩ := Option.bind_eq_some_iff.mp ha
    obtain ⟨room, -, rfl⟩ := Option.map_eq_some_iff.mp hrest
    exact ⟨_, _, _, rfl⟩
  have hready : ∀ (connId : ConnectionId) a, g.readyAction connId = some a →
      ∃ s room, a = .ready s room := by
    intro connId a ha
    obtain ⟨p, -, rfl⟩ := Option.map_eq_some_iff.mp ha
    exact ⟨_, _, rfl⟩
  have hnot : ∀ a, action pb g e = some a → a ≠ .form ∧ ∀ pid s r room, a ≠ .seat pid s r room := by
    intro a ha
    cases e with
    | frame loop connId frame env =>
      dsimp only [action] at ha
      split at ha
      · obtain ⟨player, st, rfl⟩ := hlogin _ _ _ a ha
        exact ⟨nofun, nofun⟩
      · obtain ⟨s, r, room, rfl⟩ := henter _ _ a ha
        exact ⟨nofun, nofun⟩
      · obtain ⟨s, room, rfl⟩ := hready _ a ha
        exact ⟨nofun, nofun⟩
      · cases ha
    | tryMatch => exact absurd rfl hother
    | _ => cases ha
  exact ⟨fun ha => (hnot _ ha).1 rfl, fun pid s r room ha => (hnot _ ha).2 pid s r room rfl⟩

theorem rooms_step {e : ServerEvent F} (hstep : step pb g e = some (g', out))
    (hother : e ≠ .tryMatch) :
    g'.rooms.nextRoomId = g.rooms.nextRoomId ∧
      ∀ a, (g'.rooms.getRoom a).isSome = (g.rooms.getRoom a).isSome := by
  have heff := step_effect hstep
  obtain ⟨hform, hseat⟩ := action_of_ne_tryMatch pb g hother
  generalize action pb g e = a at heff hform hseat
  cases heff with
  | quiet rooms sessions battle => exact ⟨by rw [rooms], fun a => by rw [rooms]⟩
  | login rooms sessions battle => exact ⟨by rw [rooms], fun a => by rw [rooms]⟩
  | enter session found rooms sessions battle =>
    exact ⟨by rw [rooms]; rfl, rooms ▸ MatchManager.isSome_update found _⟩
  | ready found waiting rooms sessions battle =>
    exact ⟨by rw [rooms]; rfl, rooms ▸ MatchManager.isSome_update found _⟩
  | start found allReady rooms sessions table workers enqueued =>
    exact ⟨by rw [rooms]; rfl, rooms ▸ MatchManager.isSome_update found _⟩
  | form rooms sessions battle => exact absurd rfl hform
  | seat session found rooms sessions battle => exact absurd rfl (hseat _ _ _ _)

/-! ### The queues behind the matchmaker -/

variable {R : RedisView σ}

omit [FloatOps F] in
/-- Of the rooms only their ids matter. -/
theorem sound_rooms {m : MatchManager σ} (h : MatchManager.Sound R m) {rooms : RoomManager}
    (hnext : rooms.nextRoomId = m.rooms.nextRoomId)
    (hsame : ∀ a, (rooms.getRoom a).isSome = (m.rooms.getRoom a).isSome) :
    MatchManager.Sound R { m with rooms := rooms } where
  size := h.size
  tables := h.tables
  queues := h.queues
  rooms := by
    intro r room hroom
    have hsome := hsame r
    rw [show rooms.getRoom r = some room from hroom, Option.isSome_some] at hsome
    obtain ⟨old, hold⟩ := Option.isSome_iff_exists.mp hsome.symm
    show r < rooms.nextRoomId
    rw [hnext]
    exact h.rooms r old hold
  filling := by
    intro mode formed r i hphase
    obtain ⟨⟨room, hroom⟩, henough⟩ := h.filling mode formed r i hphase
    have hsome := hsame r
    rw [hroom, Option.isSome_some] at hsome
    exact ⟨Option.isSome_iff_exists.mp hsome, henough⟩

/-- The entries of the queue `mode` among those asked for. -/
def entries (mode : ℤ) : Option (PlayerId × ℤ) → List PlayerId
  | none => []
  | some (pid, mode') => if mode' = mode then [pid] else []

theorem queue_pushed {st st' : σ} {mode : ℤ} {q : List PlayerId} (hq : R.Queue st mode q)
    (asked : Option (PlayerId × ℤ)) (hsame : R.SameQueues (pushed asked st) st') :
    R.Queue st' mode (q ++ entries mode asked) := by
  apply RedisView.Queue.of_same _ hsame
  cases asked with
  | none =>
    rw [entries, List.append_nil]
    exact hq
  | some a =>
    obtain ⟨pid, mode'⟩ := a
    dsimp only [entries]
    split
    · rename_i hmode
      subst hmode
      exact RedisView.queue_pushMatchQueue hq
    · rename_i hmode
      rw [List.append_nil]
      exact RedisView.queue_pushMatchQueue_of_ne hq hmode

theorem sound_step_server (hR : R.Fifo) (h : MatchManager.Sound R g.toMatchManager)
    {e : ServerEvent F × ServerOut F} (hstep : Steps pb g e g') :
    MatchManager.Sound R g'.toMatchManager := by
  by_cases hmatch : e.1 = .tryMatch
  · have htry : g.tryMatch = some (g', e.2) := by
      have := hstep.1
      rwa [hmatch] at this
    have hlink := tryMatch_toMatchManager g
    rw [htry, Option.map_some] at hlink
    obtain ⟨⟨m', notes⟩, hadvance, hm'⟩ := Option.map_eq_some_iff.mp hlink.symm
    have hbusy : g.toMatchManager.phase ≠ .idle := by
      intro hidle
      unfold MatchManager.advance at hadvance
      rw [hidle] at hadvance
      cases hadvance
    obtain ⟨m₁, notes₁, hadvance₁, hsound, -⟩ := h.proceeds hR hbusy
    obtain ⟨rfl, -⟩ := Prod.mk.injEq .. ▸ Option.some.inj (hadvance₁.symm.trans hadvance)
    rw [← hm']
    exact hsound
  · have hsame := store_step (RedisView.sameQueues_commands (R := R)) hstep.1 hmatch
    obtain ⟨hsize, htimer⟩ := timer_step hstep.1 hmatch
    obtain ⟨hnext, hrooms⟩ := rooms_step hstep.1 hmatch
    have ht : SessionManager.Tables g'.sessions := tables_step h.tables hstep
    -- the same call, in the new rooms and with the new sessions
    have hcall : MatchManager.Sound R { g'.toMatchManager with phase := g.toMatchManager.phase } := by
      refine MatchManager.Sound.others (sound_rooms h hnext hrooms) ht rfl hsize rfl ?_
      exact fun mode q hq => ⟨_, queue_pushed hq _ hsame⟩
    rcases htimer with htimer | htimer | htimer
    · have hphase : g'.toMatchManager.phase = g.toMatchManager.phase := by
        simp only [toMatchManager, htimer]
      rwa [← hphase] at hcall
    · refine ⟨hcall.size, hcall.tables, hcall.queues, hcall.rooms, ?_⟩
      intro mode formed r i hphase
      simp [toMatchManager, htimer] at hphase
    · refine ⟨hcall.size, hcall.tables, hcall.queues, hcall.rooms, ?_⟩
      intro mode formed r i hphase
      simp [toMatchManager, htimer] at hphase

/-- **There are always enough entries** for the room being filled. -/
theorem sound_server (hR : R.Fifo) {store : σ} {roomSize : ℤ} (hsize : 1 ≤ roomSize)
    (htext : ∀ mode, ∃ q, R.Queue store mode q) {as : List (ServerEvent F × ServerOut F)}
    (h : Transition.Run (Steps pb) (init store roomSize) as g) :
    MatchManager.Sound R g.toMatchManager := by
  apply h.invariant (I := fun g => MatchManager.Sound R g.toMatchManager)
  · exact fun g e g' hsound hstep => sound_step_server hR hsound hstep
  · refine ⟨hsize, tables_init (F := F) store roomSize, htext, ?_, nofun⟩
    intro r room hroom
    simp [toMatchManager, init, RoomManager.getRoom] at hroom

/-! ### The login cache -/

end GameServer

namespace RedisView

variable {R : RedisView σ} {st st' : σ}

/-- Every `player:` entry is a decimal id. -/
def Decimal (R : RedisView σ) (st : σ) : Prop :=
  ∀ username text, (R.strings st).lookup ("player:" ++ username) = some text →
    ∃ id, text = toStringU64 id

/-- No command makes a bad entry. -/
def KeepsDecimal (R : RedisView σ) (st st' : σ) : Prop := R.Decimal st → R.Decimal st'

theorem keepsDecimal_of_strings (h : R.strings st' = R.strings st) : R.KeepsDecimal st st' := by
  intro hst
  rwa [Decimal, h]

theorem keepsDecimal_insert {key value : String}
    (hkey : ∀ username, key = "player:" ++ username → ∃ id, value = toStringU64 id)
    (h : R.strings st' = (R.strings st).insert key value) : R.KeepsDecimal st st' := by
  intro hst username text htext
  rw [h, Finmap.lookup_insert_eq] at htext
  split at htext
  · rename_i heq
    obtain rfl := Option.some.inj htext
    exact hkey username heq.symm
  · exact hst username text htext

theorem keepsDecimal_erase {key : String} (h : R.strings st' = (R.strings st).erase key) :
    R.KeepsDecimal st st' := by
  intro hst username text htext
  rw [h, Finmap.lookup_erase_eq] at htext
  split at htext
  · cases htext
  · exact hst username text htext

theorem keepsDecimal_commands : SessionManager.Commands (R.KeepsDecimal) where
  refl _ := id
  trans h h' := h' ∘ h
  get key st := keepsDecimal_of_strings (R.get key st).1
  getPlayer username st := keepsDecimal_of_strings (R.getPlayer username st).1
  createPlayer username password st :=
    keepsDecimal_of_strings (R.createPlayer username password st).1
  cachePlayer username pid st := keepsDecimal_insert (fun _ _ => ⟨pid, rfl⟩) (R.set _ _ st).1
  saveToRedis s st := by
    have hsession : R.KeepsDecimal st
        (RedisClient.setSession s.sessionId (SessionManager.encodeSession s) st) :=
      keepsDecimal_insert (fun username heq => absurd heq (session_ne_player _ username))
        (R.setEx _ _ _ st).1
    have honline := keepsDecimal_insert (R := R)
      (fun username heq => absurd heq (online_ne_player s.playerId username))
      (R.set _ (toStringU64 s.sessionId)
        (RedisClient.setSession s.sessionId (SessionManager.encodeSession s) st)).1
    exact honline ∘ hsession
  delSession _ st := keepsDecimal_erase (R.del _ st).1
  delOnline _ st := keepsDecimal_erase (R.del _ st).1
  recordLogin _ st := keepsDecimal_of_strings (R.recordLogin _ st).1

theorem keepsDecimal_pop {mode : ℤ} {popped : Option PlayerId}
    (h : popMatchQueue mode st = some (popped, st')) : R.KeepsDecimal st st' := by
  obtain ⟨⟨text, st₁⟩, hpop, hrest⟩ := Option.bind_eq_some_iff.mp h
  cases text with
  | none =>
    obtain ⟨-, rfl⟩ := Prod.mk.injEq .. ▸ Option.some.inj hrest
    exact keepsDecimal_of_strings (R.brpop_none _ _ _ _ hpop).1
  | some text =>
    obtain ⟨pid, -, heq⟩ := Option.map_eq_some_iff.mp hrest
    obtain ⟨-, rfl⟩ := Prod.mk.injEq .. ▸ heq
    exact keepsDecimal_of_strings (R.brpop _ _ _ _ _ hpop).1

end RedisView

namespace GameServer

open RedisView (Decimal)

variable {pb : Protobuf F} {g g' : GameServer σ F} {out : ServerOut F} {R : RedisView σ}

omit [FloatOps F] in
theorem decimal_tryMatch (h : R.Decimal g.sessions.store) (hstep : g.tryMatch = some (g', out)) :
    R.Decimal g'.sessions.store := by
  unfold tryMatch at hstep
  split at hstep
  · obtain ⟨rfl, -⟩ := Prod.mk.injEq .. ▸ Option.some.inj hstep
    have hcount := RedisView.keepsDecimal_of_strings (R.llen (matchQueueKey 0) g.sessions.store).1 h
    unfold checkQueue
    dsimp only
    split
    · exact hcount
    · exact hcount
  · rename_i formed r i _
    unfold fillRoom at hstep
    split at hstep
    · obtain ⟨⟨popped, st⟩, hpop, hrest⟩ := Option.bind_eq_some_iff.mp hstep
      have hst := RedisView.keepsDecimal_pop hpop h
      cases popped with
      | none =>
        obtain ⟨rfl, -⟩ := Prod.mk.injEq .. ▸ Option.some.inj hrest
        exact hst
      | some pid =>
        dsimp only at hrest
        split at hrest
        · obtain ⟨rfl, -⟩ := Prod.mk.injEq .. ▸ Option.some.inj hrest
          exact hst
        · rename_i s _
          obtain ⟨room, -, heq⟩ := Option.map_eq_some_iff.mp hrest
          obtain ⟨rfl, -⟩ := Prod.mk.injEq .. ▸ heq
          have hstate := RedisView.keepsDecimal_commands (R := R).setState
            { g.sessions with store := st } s.sessionId .inRoom
          exact RedisView.keepsDecimal_commands (R := R).setCurrentRoom _ s.sessionId r (hstate hst)
    · obtain ⟨rfl, -⟩ := Prod.mk.injEq .. ▸ Option.some.inj hstep
      exact h
  · cases hstep

/-- **The login cache is readable** in every reachable state. -/
theorem decimal_server {store : σ} {roomSize : ℤ} (hstore : R.Decimal store)
    {as : List (ServerEvent F × ServerOut F)}
    (h : Transition.Run (Steps pb) (init store roomSize) as g) : R.Decimal g.sessions.store := by
  apply h.invariant (I := fun g => R.Decimal g.sessions.store)
  · intro g e g' hdecimal hstep
    by_cases hmatch : e.1 = .tryMatch
    · have htry := hstep.1
      rw [hmatch] at htry
      exact decimal_tryMatch hdecimal htry
    · apply store_step (RedisView.keepsDecimal_commands (R := R)) hstep.1 hmatch
      rcases asks pb g e.1 with - | ⟨pid, mode⟩
      · exact hdecimal
      · exact RedisView.keepsDecimal_of_strings (R.lpush _ _ _).1 hdecimal
  · exact hstore

end GameServer

end MiniArena
