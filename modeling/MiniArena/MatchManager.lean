/-
MiniArena/MatchManager.lean

The match manager (`game/match_manager.cpp`) for all modes, together with the
session manager it shares with the rest of the server.

The server matches players of mode 0 only, and `GameServer` says how; here
the mode is an argument, as in the source.  A call of `tryMatch` goes step by
step, and between two steps anything else may happen to the sessions and to
the queues.  `tryMatch_toMatchManager` is the link between the two: what the
server's timer thread does in `tryMatch` is what a call with mode 0 does.
-/
import MiniArena.Lobby

namespace MiniArena

variable {F : Type} [FloatOps F] {σ : Type} [Storage σ]

/-- Where a call of `tryMatch` is. -/
inductive MatchPhase
  | idle
  | checking (mode : ℤ) (formed : ℕ)
  | filling (mode : ℤ) (formed : ℕ) (room : RoomId) (i : ℕ)
  deriving DecidableEq, Repr

/-- The mode of the call. -/
def MatchPhase.mode : MatchPhase → Option ℤ
  | .idle => none
  | .checking mode _ => some mode
  | .filling mode _ _ _ => some mode

structure MatchManager (σ : Type) where
  sessions : SessionManager σ
  rooms : RoomManager := {}
  roomSize : ℤ
  phase : MatchPhase := .idle

/-- A `MatchSuccessNotify` given to the notify callback. -/
structure MatchNotify where
  playerId : PlayerId
  roomId : RoomId
  deriving DecidableEq, Repr

namespace MatchManager

def joinQueue (m : MatchManager σ) (pid : PlayerId) (mode : ℤ) : Option (MatchManager σ) :=
  (GameServer.joinQueue m.sessions pid mode).map fun r => { m with sessions := r.1 }

def leaveQueue (m : MatchManager σ) (pid : PlayerId) : MatchManager σ :=
  { m with sessions := GameServer.leaveQueue m.sessions pid }

def withStore (m : MatchManager σ) (st : σ) : MatchManager σ :=
  { m with sessions := { m.sessions with store := st } }

/-- The head of the outer loop of `tryMatch(mode)`. -/
def checkQueue (m : MatchManager σ) (mode : ℤ) (formed : ℕ) : MatchManager σ :=
  let (count, st) := RedisClient.matchQueueSize mode m.sessions.store
  let m := m.withStore st
  if count < m.roomSize then { m with phase := .idle }
  else
    let (rooms, r) := m.rooms.createRoom m.roomSize
    { m with rooms := rooms, phase := .filling mode formed r 0 }

/-- The player `pid`, with the session `s`, is put in the room `r`. -/
def seat (m : MatchManager σ) (r : RoomId) (room : Room) (pid : PlayerId) (s : Session) :
    MatchManager σ :=
  { m with
    rooms := m.rooms.update r (room.addPlayer pid s.username).1
    sessions := (m.sessions.setState s.sessionId .inRoom).setCurrentRoom s.sessionId r }

/-- Round `i` of the loop that fills the room `r`. -/
def fillRoom (m : MatchManager σ) (mode : ℤ) (formed : ℕ) (r : RoomId) (i : ℕ) :
    Option (MatchManager σ × List MatchNotify) :=
  if (i : ℤ) < m.roomSize then
    (RedisClient.popMatchQueue mode m.sessions.store).bind fun (popped, st) =>
      let m := m.withStore st
      match popped with
      | none => some ({ m with phase := .checking mode (formed + 1) }, [])
      | some pid =>
          let m := { m with phase := .filling mode formed r (i + 1) }
          match m.sessions.getByPlayer pid with
          | none => some (m, [])
          | some s => (m.rooms.getRoom r).map fun room => (m.seat r room pid s, [⟨pid, r⟩])
  else some ({ m with phase := .checking mode (formed + 1) }, [])

/-- The next step of the call of `tryMatch` under way. -/
def advance (m : MatchManager σ) : Option (MatchManager σ × List MatchNotify) :=
  match m.phase with
  | .idle => none
  | .checking mode formed => some (m.checkQueue mode formed, [])
  | .filling mode formed r i => m.fillRoom mode formed r i

end MatchManager

inductive MatchOp
  | session (op : SessionManager.Op)
  | joinQueue (pid : PlayerId) (mode : ℤ)
  | leaveQueue (pid : PlayerId)
  /-- `tryMatch(mode)` is called. -/
  | tryMatch (mode : ℤ)
  | advance
  deriving DecidableEq, Repr

namespace MatchManager

/-- The managers as constructed. -/
def init (store : σ) (roomSize : ℤ) : MatchManager σ where
  sessions := SessionManager.init store
  roomSize := roomSize

def step (m : MatchManager σ) : MatchOp → Option (MatchManager σ × List MatchNotify)
  | .session op => (m.sessions.step op).map fun s => ({ m with sessions := s }, [])
  | .joinQueue pid mode => (m.joinQueue pid mode).map fun m => (m, [])
  | .leaveQueue pid => some (m.leaveQueue pid, [])
  | .tryMatch mode =>
      match m.phase with
      | .idle => some ({ m with phase := .checking mode 0 }, [])
      | _ => none
  | .advance => m.advance

/-- The session id a login gets is not in use. -/
def fresh (m : MatchManager σ) : MatchOp → Bool
  | .session op => SessionManager.freshId m.sessions op
  | _ => true

/-- The step relation; a label is an operation with the notifies it causes. -/
def Steps (m : MatchManager σ) (a : MatchOp × List MatchNotify) (m' : MatchManager σ) : Prop :=
  m.step a.1 = some (m', a.2) ∧ fresh m a.1 = true

/-- Run the operations, as long as the generated ids are fresh. -/
def exec (m : MatchManager σ) (ops : List MatchOp) :
    Option (MatchManager σ × List (MatchOp × List MatchNotify)) :=
  Transition.exec (fun m op => if fresh m op then m.step op else none) m ops

theorem run_of_exec {m m' : MatchManager σ} {ops : List MatchOp}
    {as : List (MatchOp × List MatchNotify)} (h : m.exec ops = some (m', as)) :
    Transition.Run Steps m as m' := by
  refine (Transition.run_of_exec h).mono fun m a m' hstep => ?_
  split at hstep
  · rename_i hfresh
    exact ⟨hstep, hfresh⟩
  · cases hstep

/-! ### What the steps of a call do -/

/-- **A step of `tryMatch`**: the store is read, a room is formed, a player without a
session is dropped, or a player is seated. -/
inductive Advances (m : MatchManager σ) : MatchManager σ → List MatchNotify → Prop
  | check {mode formed} (phase : m.phase = .checking mode formed) (rooms : RoomManager)
      (people : ∀ r room, rooms.getRoom r = some room → room.players = ∅ ∨
        m.rooms.getRoom r = some room) (next : MatchPhase) :
      Advances m { m with
        sessions := { m.sessions with
          store := (RedisClient.matchQueueSize mode m.sessions.store).2 }
        rooms := rooms, phase := next } []
  | full {mode formed r i} (phase : m.phase = .filling mode formed r i) :
      Advances m { m with phase := .checking mode (formed + 1) } []
  | pop {mode formed r i popped st} (phase : m.phase = .filling mode formed r i)
      (pop : RedisClient.popMatchQueue mode m.sessions.store = some (popped, st))
      (absent : ∀ pid, popped = some pid → m.sessions.getByPlayer pid = none)
      (next : MatchPhase) :
      Advances m { m with sessions := { m.sessions with store := st }, phase := next } []
  | seat {mode formed r i pid st s room} (phase : m.phase = .filling mode formed r i)
      (pop : RedisClient.popMatchQueue mode m.sessions.store = some (some pid, st))
      (session : m.sessions.getByPlayer pid = some s) (found : m.rooms.getRoom r = some room) :
      Advances m
        ({ m.withStore st with phase := .filling mode formed r (i + 1) }.seat r room pid s)
        [⟨pid, r⟩]

theorem advances {m m' : MatchManager σ} {out : List MatchNotify}
    (h : m.advance = some (m', out)) : Advances m m' out := by
  unfold advance at h
  split at h
  · cases h
  · rename_i mode formed hphase
    obtain ⟨rfl, rfl⟩ := Prod.mk.injEq .. ▸ Option.some.inj h
    unfold checkQueue
    dsimp only
    split
    · exact .check hphase m.rooms (fun r room hroom => Or.inr hroom) .idle
    · refine .check hphase (m.rooms.createRoom m.roomSize).1 ?_ _
      intro r room hroom
      rw [RoomManager.getRoom_createRoom] at hroom
      split at hroom
      · obtain rfl := Option.some.inj hroom
        exact Or.inl rfl
      · exact Or.inr hroom
  · rename_i mode formed r i hphase
    unfold fillRoom at h
    split at h
    · obtain ⟨⟨popped, st⟩, hpop, hrest⟩ := Option.bind_eq_some_iff.mp h
      cases popped with
      | none =>
        obtain ⟨rfl, rfl⟩ := Prod.mk.injEq .. ▸ Option.some.inj hrest
        exact .pop hphase hpop (by simp) _
      | some pid =>
        dsimp only at hrest
        split at hrest
        · rename_i hnone
          obtain ⟨rfl, rfl⟩ := Prod.mk.injEq .. ▸ Option.some.inj hrest
          refine .pop hphase hpop ?_ _
          rintro _ ⟨⟩
          exact hnone
        · rename_i s hs
          obtain ⟨room, hroom, heq⟩ := Option.map_eq_some_iff.mp hrest
          obtain ⟨rfl, rfl⟩ := Prod.mk.injEq .. ▸ heq
          exact .seat hphase hpop hs hroom
    · obtain ⟨rfl, rfl⟩ := Prod.mk.injEq .. ▸ Option.some.inj h
      exact .full hphase

theorem tables_step {m m' : MatchManager σ} {a : MatchOp × List MatchNotify}
    (ht : SessionManager.Tables m.sessions) (hstep : Steps m a m') :
    SessionManager.Tables m'.sessions := by
  obtain ⟨op, out⟩ := a
  obtain ⟨hstep, hfresh⟩ := hstep
  cases op with
  | session op =>
    obtain ⟨s, hs, heq⟩ := Option.map_eq_some_iff.mp hstep
    obtain ⟨rfl, -⟩ := Prod.mk.injEq .. ▸ heq
    exact ht.step ⟨hs, hfresh⟩
  | joinQueue pid mode =>
    obtain ⟨m₁, hjoin, heq⟩ := Option.map_eq_some_iff.mp hstep
    obtain ⟨rfl, -⟩ := Prod.mk.injEq .. ▸ heq
    obtain ⟨⟨s, err⟩, hs, rfl⟩ := Option.map_eq_some_iff.mp hjoin
    exact (SessionManager.quiet_joinQueue hs).tables ht
  | leaveQueue pid =>
    obtain ⟨rfl, -⟩ := Prod.mk.injEq .. ▸ Option.some.inj hstep
    exact (SessionManager.quiet_leaveQueue _ _).tables ht
  | tryMatch mode =>
    dsimp only [step] at hstep
    split at hstep
    · obtain ⟨rfl, -⟩ := Prod.mk.injEq .. ▸ Option.some.inj hstep
      exact ht
    · cases hstep
  | advance =>
    cases advances hstep with
    | check phase rooms people next => exact (SessionManager.Quiet.store _ _).tables ht
    | full phase => exact ht
    | pop phase pop absent next => exact (SessionManager.Quiet.store _ _).tables ht
    | seat phase pop session found =>
      exact GameServer.tables_setCurrentRoom
        ((SessionManager.quiet_setState _ _ _).tables
          ((SessionManager.Quiet.store _ _).tables ht)) _ _

end MatchManager

/-! ### The server's matchmaker -/

namespace GameServer

/-- What the match manager sees of the server. -/
def toMatchManager (g : GameServer σ F) : MatchManager σ where
  sessions := g.sessions
  rooms := g.rooms
  roomSize := g.roomSize
  phase :=
    match g.timer with
    | .checking formed => .checking 0 formed
    | .filling formed r i => .filling 0 formed r i
    | _ => .idle

omit [FloatOps F] in
/-- **The timer thread in `tryMatch`** makes the steps of a call with mode 0. -/
theorem tryMatch_toMatchManager (g : GameServer σ F) :
    g.tryMatch.map (fun r => r.1.toMatchManager) =
      g.toMatchManager.advance.map (fun r => r.1) := by
  unfold tryMatch
  rcases htimer : g.timer with - | formed | ⟨formed, r, i⟩ | -
  · simp [MatchManager.advance, toMatchManager, htimer]
  · simp only [MatchManager.advance, toMatchManager, htimer, Option.map_some, checkQueue,
      MatchManager.checkQueue, MatchManager.withStore]
    split
    · rfl
    · rfl
  · simp only [MatchManager.advance, toMatchManager, htimer, fillRoom, MatchManager.fillRoom,
      MatchManager.withStore]
    by_cases hi : (i : ℤ) < g.roomSize
    · rw [if_pos hi, if_pos hi]
      rcases RedisClient.popMatchQueue 0 g.sessions.store with - | ⟨- | pid, st⟩
      · rfl
      · rfl
      · simp only [Option.bind_some]
        rcases ({ g.sessions with store := st } : SessionManager σ).getByPlayer pid with - | s
        · rfl
        · dsimp only
          rcases g.rooms.getRoom r with - | room
          · rfl
          · rfl
    · rw [if_neg hi, if_neg hi]
      rfl
  · simp [MatchManager.advance, toMatchManager, htimer]

end GameServer

end MiniArena
