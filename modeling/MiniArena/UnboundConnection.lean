/-
MiniArena/UnboundConnection.lean

What a connection without a session can do.

Every handler but two begins with `getByConn`, and ends there for a connection
that has no session; login and reconnect are the two.  So a frame from such a
connection changes nothing, and is answered to the connection itself or not at
all (`dispatch_of_unbound`).  A connection loses its session when the session
is removed: by a login elsewhere, by a logout, or when it expires.
-/
import MiniArena.BattleStart

namespace MiniArena

variable {F : Type} [FloatOps F] {σ : Type} [Storage σ]

namespace SessionManager

variable {m m' : SessionManager σ}

/-! ### How a connection loses its session -/

theorem getByConn_dropSession (m : SessionManager σ) (sid : SessionId) (s : Session) :
    (m.dropSession sid s).getByConn s.connId = none := by
  show ((m.connMap.erase s.connId).lookup s.connId).bind _ = none
  rw [Finmap.lookup_erase]
  rfl

theorem getByConn_logout {sid : SessionId} {s : Session} (hs : m.sessions.lookup sid = some s) :
    (m.logout sid).getByConn s.connId = none := by
  rw [logout, hs]
  exact getByConn_dropSession m sid s

theorem getByConn_expire {sid : SessionId} {s : Session} {now : ℤ}
    (hs : m.sessions.lookup sid = some s) (hexp : isExpired s now = true) :
    (expire now m sid).getByConn s.connId = none := by
  rw [expire, hs]
  dsimp only
  rw [if_pos hexp]
  exact getByConn_dropSession m sid s

/-- The connection that is told it is kicked has no entry any more. -/
theorem lookup_kickDuplicate (m : SessionManager σ) (pid : PlayerId) :
    ∀ k ∈ (m.kickDuplicate pid).2, (m.kickDuplicate pid).1.connMap.lookup k.connId = none := by
  intro k hk
  rw [kickDuplicate] at hk ⊢
  rcases hold : m.playerMap.lookup pid with - | old
  · rw [hold] at hk
    cases hk
  · rw [hold] at hk
    dsimp only at hk ⊢
    rcases hs : m.sessions.lookup old with - | s
    · rw [hs] at hk
      cases hk
    · rw [hs] at hk
      dsimp only [kickNotice] at hk ⊢
      split at hk
      · obtain rfl := List.mem_singleton.mp hk
        exact Finmap.lookup_erase ..
      · cases hk

theorem getByConn_createSession {connId c : ConnectionId} {player : PlayerRecord} {sid : SessionId}
    {now : ℤ} (hne : c ≠ connId) (h : m.connMap.lookup c = none) :
    (m.createSession connId player sid now).getByConn c = none := by
  rw [getByConn, createSession, Finmap.lookup_insert_of_ne _ hne, h]
  rfl

/-- A login takes the session from the connection the player had before. -/
theorem getByConn_login {connId : ConnectionId} {username password : String} {sid : SessionId}
    {now : ℤ} {result : LoginResult} {kicks : List Kick}
    (h : m.login connId username password sid now = some (m', result, kicks)) :
    ∀ k ∈ kicks, k.connId ≠ connId → m'.getByConn k.connId = none := by
  obtain ⟨⟨r, st⟩, -, heq⟩ := Option.map_eq_some_iff.mp h
  cases r with
  | error msg =>
    obtain ⟨-, hrest⟩ := Prod.mk.inj heq
    obtain ⟨-, rfl⟩ := Prod.mk.inj hrest
    simp
  | ok player =>
    obtain ⟨rfl, hrest⟩ := Prod.mk.inj heq
    obtain ⟨-, rfl⟩ := Prod.mk.inj hrest
    intro k hk hne
    exact getByConn_createSession hne (lookup_kickDuplicate _ player.id k hk)

end SessionManager

namespace GameServer

variable (pb : Protobuf F) {g : GameServer σ F} {c : ConnectionId}

/-! ### What it can do -/

/-- The server sends to `c` only, and hands nothing to the workers. -/
structure AnswersOnly (c : ConnectionId) (out : ServerOut F) : Prop where
  sends : ∀ s ∈ out.sends, s.connId = c
  broadcasts : out.broadcasts = 0
  ops : out.ops = []

omit [FloatOps F] in
theorem answersOnly_empty (c : ConnectionId) : AnswersOnly c ({} : ServerOut F) where
  sends := by simp
  broadcasts := rfl
  ops := rfl

omit [FloatOps F] [Storage σ] in
theorem connId_sendResponse {msgId : UInt32} {reply : Reply F} :
    ∀ s ∈ g.sendResponse c msgId reply, s.connId = c := by
  intro s hs
  unfold sendResponse at hs
  split at hs
  · cases hs
  · obtain rfl := List.mem_singleton.mp hs
    rfl

omit [FloatOps F] [Storage σ] in
theorem answersOnly_sendResponse (g : GameServer σ F) (c : ConnectionId) (msgId : UInt32)
    (reply : Reply F) : AnswersOnly c { sends := g.sendResponse c msgId reply } where
  sends := connId_sendResponse
  broadcasts := rfl
  ops := rfl

omit [Storage σ] in
theorem command_of_unbound (hc : g.sessions.getByConn c = none) (frame : Frame)
    (request : Option (Command F → Command F)) : g.command c frame request = g := by
  unfold command
  rw [hc]

theorem mem_handlers {msgId : UInt32} {handler : Handler}
    (h : handlers.lookup msgId = some handler) : (msgId, handler) ∈ handlers := by
  obtain ⟨before, later, heq, -⟩ := List.lookup_eq_some_iff.mp h
  rw [heq]
  exact List.mem_append_right _ List.mem_cons_self

/-- **A connection without a session is powerless.**  Whatever it sends, other
than a login or a reconnect, leaves the sessions, the rooms, the workers, the
queue and the stores as they are, and is answered to itself or not at all. -/
theorem dispatch_of_unbound {frame : Frame} (env : Env) (hc : g.sessions.getByConn c = none)
    (hlogin : frame.messageId ≠ 1001) (hreconnect : frame.messageId ≠ 5001) :
    ∃ out, dispatch pb g c frame env = some (g, out) ∧ AnswersOnly c out := by
  unfold dispatch
  rcases hl : handlers.lookup frame.messageId with - | handler
  · exact ⟨_, rfl, answersOnly_empty c⟩
  · cases handler with
    | login => exact absurd (by simpa [handlers] using mem_handlers hl) hlogin
    | heartbeat =>
      exact ⟨_, by rw [heartbeat, hc], answersOnly_empty c⟩
    | matchStart =>
      exact ⟨_, by rw [matchStart, hc], answersOnly_sendResponse g c _ _⟩
    | matchCancel =>
      exact ⟨_, by rw [matchCancel, hc], answersOnly_empty c⟩
    | enterRoom =>
      exact ⟨_, by rw [enterRoom, hc], answersOnly_sendResponse g c _ _⟩
    | playerReady =>
      exact ⟨_, by rw [playerReady, currentRoom, hc]; rfl, answersOnly_empty c⟩
    | playerMove =>
      exact ⟨_, by rw [playerMove, command_of_unbound hc], answersOnly_empty c⟩
    | playerAttack =>
      exact ⟨_, by rw [playerAttack, command_of_unbound hc], answersOnly_empty c⟩
    | playerSkill =>
      exact ⟨_, by rw [playerSkill, command_of_unbound hc], answersOnly_empty c⟩
    | reconnect => exact absurd (by simpa [handlers] using mem_handlers hl) hreconnect

/-- A match request on a new connection, which loop 0 serves. -/
theorem dispatch_of_unbound_matchStart :
    let g : GameServer MemoryStore ℚ :=
      { init {} 2 with connToLoop := (∅ : Finmap fun _ : ConnectionId => ℕ).insert 5 0 }
    ∃ out, dispatch annRequests g 5 { messageId := 2001 } ⟨0, 0, 11, []⟩ = some (g, out) ∧
      AnswersOnly 5 out := by
  intro g
  exact dispatch_of_unbound annRequests _ rfl (by decide) (by decide)

end GameServer

end MiniArena
