/-
MiniArena/SessionMaps.lean

The three maps of the session manager over whole runs.

`player_map_` is an exact index of the sessions by player, `conn_map_` a
sound one by connection (`Tables`): every operation keeps both.  What is not
kept is that a live session is the one its connection's entry names
(`Bound`): a login or a reconnect takes over an entry of `conn_map_` without
asking whose it is, and a removal erases the entry at the session's
connection whoever it names by then.  `Replaces` and `Writes` say which
sessions and entries an operation replaces, and `bound_iff` that a binding
survives exactly if the entry of no other live session is written.
-/
import MiniArena.Index
import MiniArena.SessionManager
import MiniArena.Transition

namespace MiniArena

namespace SessionManager

variable {σ : Type} [Storage σ] {m m' : SessionManager σ}

/-- The manager as constructed. -/
def init (store : σ) : SessionManager σ := { store := store }

/-! ### What every operation keeps -/

structure Tables (m : SessionManager σ) : Prop where
  own : ∀ sid s, m.sessions.lookup sid = some s → s.sessionId = sid
  players : Index.Exact m.playerMap m.sessions Session.playerId
  conns : Index.Sound m.connMap m.sessions Session.connId

omit [Storage σ] in
theorem tables_init (store : σ) : Tables (init store) where
  own := by
    intro sid s h
    simp [init] at h
  players := Index.exact_empty
  conns := Index.sound_empty

/-! ### Queries -/

section
variable (h : Tables m)
include h

omit [Storage σ] in
theorem lookup_of_getByConn {connId : ConnectionId} {s : Session} (hs : m.getByConn connId = some s) :
    m.sessions.lookup s.sessionId = some s := by
  obtain ⟨sid, -, hlook⟩ := Option.bind_eq_some_iff.mp hs
  have hlook' : m.sessions.lookup sid = some s := hlook
  rw [h.own sid s hlook']
  exact hlook'

omit [Storage σ] in
theorem lookup_of_getByPlayer {pid : PlayerId} {s : Session} (hs : m.getByPlayer pid = some s) :
    m.sessions.lookup s.sessionId = some s ∧ s.playerId = pid := by
  obtain ⟨sid, hsid, hlook⟩ := Option.bind_eq_some_iff.mp hs
  have hlook' : m.sessions.lookup sid = some s := hlook
  rw [h.own sid s hlook']
  exact ⟨hlook', (h.players.sound.eq_attr hsid hlook').symm⟩

omit [Storage σ] in
theorem getByPlayer_of_lookup {sid : SessionId} {s : Session} (hs : m.sessions.lookup sid = some s) :
    m.getByPlayer s.playerId = some s := by
  rw [getByPlayer, h.players.lookup hs]
  exact hs

/-- What `getByPlayer` finds, when the session of another player is changed. -/
theorem getByPlayer_save_of_ne {sid : SessionId} {s : Session} (hs : m.sessions.lookup sid = some s)
    {pid : PlayerId} (hne : s.playerId ≠ pid) (q : Session) :
    (m.save sid q).getByPlayer pid = m.getByPlayer pid := by
  show (m.playerMap.lookup pid).bind (fun a => (m.sessions.insert sid q).lookup a) = _
  rw [getByPlayer]
  rcases hp : m.playerMap.lookup pid with - | a
  · rfl
  · obtain ⟨s', hs', hpid⟩ := h.players.sound pid a hp
    have ha : a ≠ sid := by
      rintro rfl
      obtain rfl := Option.some.inj (hs.symm.trans hs')
      exact hne hpid
    show (m.sessions.insert sid q).lookup a = m.sessions.lookup a
    exact Finmap.lookup_insert_of_ne _ ha

theorem getByPlayer_setState_of_ne {sid : SessionId} {pid : PlayerId}
    (hne : ∀ s, m.sessions.lookup sid = some s → s.playerId ≠ pid) (newState : SessionState) :
    (m.setState sid newState).getByPlayer pid = m.getByPlayer pid := by
  rcases hs : m.sessions.lookup sid with - | s
  · rw [setState, hs]
  · rw [setState, hs]
    exact getByPlayer_save_of_ne h hs (hne s hs) _

theorem getByPlayer_setCurrentRoom_of_ne {sid : SessionId} {pid : PlayerId}
    (hne : ∀ s, m.sessions.lookup sid = some s → s.playerId ≠ pid) (r : RoomId) :
    (m.setCurrentRoom sid r).getByPlayer pid = m.getByPlayer pid := by
  rcases hs : m.sessions.lookup sid with - | s
  · rw [setCurrentRoom, hs]
  · rw [setCurrentRoom, hs]
    exact getByPlayer_save_of_ne h hs (hne s hs) _

end

omit [Storage σ] in
/-- Writing a changed session back under its id. -/
theorem Tables.update (h : Tables m) {sid : SessionId} {s s' : Session}
    (hs : m.sessions.lookup sid = some s) (hid : s'.sessionId = s.sessionId)
    (hp : s'.playerId = s.playerId) (hc : s'.connId = s.connId) (store : σ) :
    Tables { m with sessions := m.sessions.insert sid s', store := store } where
  own := by
    intro a q hq
    rw [Finmap.lookup_insert_eq] at hq
    split at hq
    · rename_i ha
      obtain rfl := Option.some.inj hq
      rw [ha, hid]
      exact h.own sid s hs
    · exact h.own a q hq
  players := h.players.update hs s' hp
  conns := h.conns.update hs s' hc

theorem Tables.dropSession (h : Tables m) {sid : SessionId} {s : Session}
    (hs : m.sessions.lookup sid = some s) : Tables (m.dropSession sid s) where
  own := by
    intro a q hq
    apply h.own a q
    change (m.sessions.erase sid).lookup a = some q at hq
    rw [Finmap.lookup_erase_eq] at hq
    split at hq
    · cases hq
    · exact hq
  players := h.players.erase hs
  conns := h.conns.erase hs

/-- `kickDuplicate` does to the maps what dropping the player's session does. -/
theorem kickDuplicate_eq (h : Tables m) (pid : PlayerId) :
    (m.playerMap.lookup pid = none ∧ (m.kickDuplicate pid).1 = m) ∨
    ∃ old s, m.playerMap.lookup pid = some old ∧ m.sessions.lookup old = some s ∧
      s.playerId = pid ∧ (m.kickDuplicate pid).1 = m.dropSession old s := by
  rcases hp : m.playerMap.lookup pid with - | old
  · left
    exact ⟨rfl, by simp [kickDuplicate, hp]⟩
  · right
    obtain ⟨s, hs, hpid⟩ := h.players.sound pid old hp
    refine ⟨old, s, rfl, hs, hpid, ?_⟩
    simp [kickDuplicate, hp, hs, SessionManager.dropSession, hpid]

theorem Tables.kickDuplicate (h : Tables m) (pid : PlayerId) :
    Tables (m.kickDuplicate pid).1 ∧ (m.kickDuplicate pid).1.playerMap.lookup pid = none := by
  rcases kickDuplicate_eq h pid with ⟨hnone, heq⟩ | ⟨old, s, -, hs, hpid, heq⟩
  · rw [heq]
    exact ⟨h, hnone⟩
  · rw [heq]
    refine ⟨h.dropSession hs, ?_⟩
    show (m.playerMap.erase s.playerId).lookup pid = none
    rw [hpid]
    exact Finmap.lookup_erase _ _

theorem Tables.createSession (h : Tables m) {sid : SessionId} {player : PlayerRecord}
    (hsid : m.sessions.lookup sid = none) (hp : m.playerMap.lookup player.id = none)
    (connId : ConnectionId) (now : ℤ) : Tables (m.createSession connId player sid now) where
  own := by
    intro a q hq
    change (m.sessions.insert sid _).lookup a = some q at hq
    rw [Finmap.lookup_insert_eq] at hq
    split at hq
    · rename_i ha
      obtain rfl := Option.some.inj hq
      exact ha.symm
    · exact h.own a q hq
  players := h.players.insert (v := newSession connId player sid now) hsid hp
  conns := h.conns.insert (newSession connId player sid now) hsid

omit [Storage σ] in
theorem Tables.rebind (h : Tables m) {sid : SessionId} {s : Session}
    (hs : m.sessions.lookup sid = some s) (newConnId : ConnectionId) (now : ℤ) (store : σ) :
    Tables { m with
      connMap := (m.connMap.erase s.connId).insert newConnId sid
      sessions := m.sessions.insert sid (reconnected s newConnId now)
      store := store } where
  own := by
    intro a q hq
    rw [Finmap.lookup_insert_eq] at hq
    split at hq
    · rename_i ha
      obtain rfl := Option.some.inj hq
      rw [ha]
      exact h.own sid s hs
    · exact h.own a q hq
  players := h.players.update hs _ rfl
  conns := h.conns.rebind hs (reconnected s newConnId now)

theorem Tables.logout (h : Tables m) (sid : SessionId) : Tables (m.logout sid) := by
  unfold SessionManager.logout
  split
  · exact h
  · rename_i s hs
    exact h.dropSession hs

/-- What every removal of a session keeps, `cleanupExpired` keeps. -/
theorem cleanupExpired_induction {P : SessionManager σ → Prop}
    (hdrop : ∀ m sid s, m.sessions.lookup sid = some s → P m → P (m.dropSession sid s))
    (h : P m) (now : ℤ) (order : List SessionId) : P (m.cleanupExpired now order) := by
  unfold SessionManager.cleanupExpired
  induction order generalizing m with
  | nil => exact h
  | cons sid order ih =>
    apply ih
    unfold SessionManager.expire
    split
    · exact h
    · rename_i s hs
      split
      · exact hdrop m sid s hs h
      · exact h

theorem Tables.cleanupExpired (h : Tables m) (now : ℤ) (order : List SessionId) :
    Tables (m.cleanupExpired now order) :=
  cleanupExpired_induction (fun _ _ _ hs h => h.dropSession hs) h now order

/-- `generateSessionId` returns an id that is not in `sessions_` when it is called. -/
def freshId (m : SessionManager σ) : Op → Bool
  | .login _ username password sid _ =>
      match authenticate m.store username password with
      | some (.ok player, st) =>
          let kicked := (({ m with store := st } : SessionManager σ).kickDuplicate player.id).1
          (kicked.sessions.lookup sid).isNone
      | _ => true
  | _ => true

/-- The operations, with fresh session ids. -/
def Steps (m : SessionManager σ) (op : Op) (m' : SessionManager σ) : Prop :=
  m.step op = some m' ∧ freshId m op = true

/-- What a login does, by the outcome of the authentication. -/
theorem login_cases {connId : ConnectionId} {username password : String} {sid : SessionId}
    {now : ℤ} (hstep : m.step (.login connId username password sid now) = some m') :
    (∃ msg st, authenticate m.store username password = some (.error msg, st) ∧
      m' = { m with store := st }) ∨
    ∃ player st, authenticate m.store username password = some (.ok player, st) ∧
      m' = (({ m with store := st } : SessionManager σ).kickDuplicate player.id).1.createSession
        connId player sid now := by
  obtain ⟨r, hlogin, rfl⟩ := Option.map_eq_some_iff.mp hstep
  obtain ⟨⟨e, st⟩, hauth, rfl⟩ := Option.map_eq_some_iff.mp hlogin
  cases e with
  | error msg => exact Or.inl ⟨msg, st, hauth, rfl⟩
  | ok player => exact Or.inr ⟨player, st, hauth, rfl⟩

/-- What a reconnect does, by the session it asks for. -/
theorem tryReconnect_cases (m : SessionManager σ) (sid : SessionId) (newConnId : ConnectionId)
    (now restored : ℤ) :
    ((∀ s, m.sessions.lookup sid = some s → s.state ≠ .disconnected) ∧
      ∃ result, result.errorCode ≠ 0 ∧ m.tryReconnect sid newConnId now restored = (m, result)) ∨
    ∃ s, m.sessions.lookup sid = some s ∧ s.state = .disconnected ∧
      ((30 < elapsedSeconds now s.lastActive ∧ m.tryReconnect sid newConnId now restored =
          (m.dropSession sid s, { errorCode := 20002, errorMsg := "Reconnect window expired" })) ∨
        (elapsedSeconds now s.lastActive ≤ 30 ∧ m.tryReconnect sid newConnId now restored =
          (({ m with connMap := (m.connMap.erase s.connId).insert newConnId sid }
            : SessionManager σ).save sid (reconnected s newConnId restored),
            { sessionId := sid, playerId := s.playerId }))) := by
  unfold tryReconnect
  rcases hs : m.sessions.lookup sid with - | s
  · left
    refine ⟨fun s h => ?_, { errorCode := 20002, errorMsg := "Session not found" }, by decide, rfl⟩
    cases h
  · by_cases hstate : s.state = .disconnected
    · right
      refine ⟨s, rfl, hstate, ?_⟩
      dsimp only
      rw [if_neg (not_not_intro hstate), logout, hs]
      by_cases hwindow : 30 < elapsedSeconds now s.lastActive
      · left
        exact ⟨hwindow, if_pos hwindow⟩
      · right
        exact ⟨not_lt.mp hwindow, if_neg hwindow⟩
    · left
      refine ⟨fun q h => ?_,
        { errorCode := 20003, errorMsg := "Session not in disconnected state" }, by decide,
        if_pos hstate⟩
      obtain rfl := Option.some.inj h
      exact hstate

theorem Tables.step {op : Op} (h : Tables m) (hstep : Steps m op m') : Tables m' := by
  obtain ⟨hstep, hfresh⟩ := hstep
  cases op with
  | login connId username password sid now =>
    rcases login_cases hstep with ⟨msg, st, -, rfl⟩ | ⟨player, st, hauth, rfl⟩
    · exact ⟨h.own, h.players, h.conns⟩
    · have hst : Tables ({ m with store := st } : SessionManager σ) := ⟨h.own, h.players, h.conns⟩
      obtain ⟨hkick, hnone⟩ := hst.kickDuplicate player.id
      simp only [freshId, hauth, Option.isNone_iff_eq_none] at hfresh
      exact hkick.createSession hfresh hnone connId now
  | logout sid =>
    obtain rfl := Option.some.inj hstep
    exact h.logout sid
  | heartbeat sid now =>
    obtain rfl := Option.some.inj hstep
    unfold SessionManager.heartbeat
    split
    · exact h
    · rename_i s hs
      apply h.update hs <;> rfl
  | setState sid newState =>
    obtain rfl := Option.some.inj hstep
    unfold SessionManager.setState
    split
    · exact h
    · rename_i s hs
      apply h.update hs <;> rfl
  | setMatchMode sid mode =>
    obtain rfl := Option.some.inj hstep
    unfold SessionManager.setMatchMode
    split
    · exact h
    · rename_i s hs
      apply h.update hs <;> rfl
  | setCurrentRoom sid roomId =>
    obtain rfl := Option.some.inj hstep
    unfold SessionManager.setCurrentRoom
    split
    · exact h
    · rename_i s hs
      apply h.update hs <;> rfl
  | cleanupExpired now order =>
    simp only [SessionManager.step] at hstep
    split at hstep
    · obtain rfl := Option.some.inj hstep
      exact h.cleanupExpired now order
    · cases hstep
  | markDisconnected connId now =>
    obtain rfl := Option.some.inj hstep
    unfold SessionManager.markDisconnected
    split
    · exact h
    · split
      · exact h
      · rename_i sid _ s hs
        apply h.update hs <;> rfl
  | tryReconnect sid newConnId now restored =>
    obtain rfl := Option.some.inj hstep
    rcases tryReconnect_cases m sid newConnId now restored with
      ⟨-, _, -, heq⟩ | ⟨s, hs, -, ⟨-, heq⟩ | ⟨-, heq⟩⟩
    · rwa [heq]
    · rw [heq]
      exact h.dropSession hs
    · rw [heq]
      exact h.rebind hs newConnId restored _

theorem tables_run {store : σ} {ops : List Op}
    (h : Transition.Run Steps (init store) ops m) : Tables m :=
  h.invariant (fun _ _ _ ht hst => ht.step hst) (tables_init store)

/-- **One session per player.**  After any operations, `player_map_` is the
inverse of the sessions: it names a session of its player and only that, no
player has two sessions, `getByPlayer` finds the session of every player who
has one, and no entry outlives its session. -/
theorem one_session_per_player {store : σ} {ops : List Op}
    (h : Transition.Run Steps (init store) ops m) :
    (∀ pid sid, m.playerMap.lookup pid = some sid ↔
      ∃ s, m.sessions.lookup sid = some s ∧ s.sessionId = sid ∧ s.playerId = pid) ∧
    (∀ sid sid' s s', m.sessions.lookup sid = some s → m.sessions.lookup sid' = some s' →
      s.playerId = s'.playerId → sid = sid') ∧
    (∀ sid s, m.sessions.lookup sid = some s → m.getByPlayer s.playerId = some s) ∧
    (∀ sid, m.sessions.lookup sid = none → ∀ pid, m.playerMap.lookup pid ≠ some sid) := by
  have ht := tables_run h
  refine ⟨fun pid sid => ?_, ?_, ?_, ?_⟩
  · rw [ht.players pid sid]
    constructor
    · rintro ⟨s, hs, hp⟩
      exact ⟨s, hs, ht.own sid s hs, hp⟩
    · rintro ⟨s, hs, -, hp⟩
      exact ⟨s, hs, hp⟩
  · intro sid sid' s s' hs hs' heq
    exact ht.players.unique hs hs' heq
  · intro sid s hs
    exact getByPlayer_of_lookup ht hs
  · intro sid hnone pid hp
    obtain ⟨s, hs, -⟩ := ht.players.sound pid sid hp
    rw [hnone] at hs
    cases hs

/-- Run the operations, as long as the generated ids are fresh. -/
def runOps (m : SessionManager σ) (ops : List Op) : Option (SessionManager σ) :=
  ops.foldlM (fun m op => if freshId m op then m.step op else none) m

theorem run_of_runOps {ops : List Op} (h : m.runOps ops = some m') :
    Transition.Run Steps m ops m' := by
  refine (Transition.run_of_foldlM h).mono fun m op m' hstep => ?_
  split at hstep
  · rename_i hfresh
    exact ⟨hstep, hfresh⟩
  · cases hstep

/-- One player logs in twice, from two connections. -/
def twoLogins : List Op := [.login 1 "ann" "secret" 11 0, .login 2 "ann" "secret" 12 5]

theorem one_session_per_player_twoLogins :
    ∃ m : SessionManager MemoryStore, (init {}).runOps twoLogins = some m ∧
    (∀ pid sid, m.playerMap.lookup pid = some sid ↔
      ∃ s, m.sessions.lookup sid = some s ∧ s.sessionId = sid ∧ s.playerId = pid) ∧
    (∀ sid sid' s s', m.sessions.lookup sid = some s → m.sessions.lookup sid' = some s' →
      s.playerId = s'.playerId → sid = sid') ∧
    (∀ sid s, m.sessions.lookup sid = some s → m.getByPlayer s.playerId = some s) ∧
    (∀ sid, m.sessions.lookup sid = none → ∀ pid, m.playerMap.lookup pid ≠ some sid) := by
  have hrun : ((init ({} : MemoryStore)).runOps twoLogins).isSome = true := by decide +kernel
  obtain ⟨m, hm⟩ := Option.isSome_iff_exists.mp hrun
  exact ⟨m, hm, one_session_per_player (run_of_runOps hm)⟩

/-! ### Bindings -/

/-- Every live session is the one `conn_map_` names at its connection. -/
def Bound (m : SessionManager σ) : Prop :=
  ∀ sid s, m.sessions.lookup sid = some s → s.isOnline = true →
    m.connMap.lookup s.connId = some sid

/-- The live session `sid` owns the entry of the connection `c`. -/
def Owns (m : SessionManager σ) (c : ConnectionId) (sid : SessionId) : Prop :=
  m.connMap.lookup c = some sid ∧ ∃ s, m.sessions.lookup sid = some s ∧ s.isOnline = true

/-- The part of a session a binding is about. -/
def binding (s : Session) : ConnectionId × Bool := (s.connId, s.isOnline)

/-- What an operation does to the bindings, `W` being the entries of
`conn_map_` it writes and `R` the sessions it removes, creates or rebinds. -/
structure Effect (m m' : SessionManager σ) (W : ConnectionId → Prop) (R : SessionId → Prop) :
    Prop where
  kept_entry : ∀ c, ¬ W c → m'.connMap.lookup c = m.connMap.lookup c
  lost_entry : ∀ c sid, W c → ¬ R sid → m'.connMap.lookup c ≠ some sid
  kept : ∀ sid, ¬ R sid →
    (m'.sessions.lookup sid).map binding = (m.sessions.lookup sid).map binding
  replaced : ∀ sid s, R sid → m'.sessions.lookup sid = some s → s.isOnline = true →
    m'.connMap.lookup s.connId = some sid

variable {W W' : ConnectionId → Prop} {R R' : SessionId → Prop}

omit [Storage σ] in
theorem Effect.exists_kept (h : Effect m m' W R) {sid : SessionId} {s : Session}
    (hR : ¬ R sid) (hs : m.sessions.lookup sid = some s) :
    ∃ s', m'.sessions.lookup sid = some s' ∧ s'.connId = s.connId ∧ s'.isOnline = s.isOnline := by
  have hk := h.kept sid hR
  rw [hs, Option.map_some] at hk
  obtain ⟨s', hs', hb⟩ := Option.map_eq_some_iff.mp hk
  obtain ⟨hc, ho⟩ := Prod.mk.injEq .. ▸ hb
  exact ⟨s', hs', hc, ho⟩

omit [Storage σ] in
theorem Effect.exists_old (h : Effect m m' W R) {sid : SessionId} {s' : Session}
    (hR : ¬ R sid) (hs' : m'.sessions.lookup sid = some s') :
    ∃ s, m.sessions.lookup sid = some s ∧ s'.connId = s.connId ∧ s'.isOnline = s.isOnline := by
  have hk := h.kept sid hR
  rw [hs', Option.map_some] at hk
  obtain ⟨s, hs, hb⟩ := Option.map_eq_some_iff.mp hk.symm
  obtain ⟨hc, ho⟩ := Prod.mk.injEq .. ▸ hb
  exact ⟨s, hs, hc.symm, ho.symm⟩

omit [Storage σ] in
/-- **Bindings survive exactly if nobody else's entry is written.** -/
theorem Effect.bound_iff (ht : Tables m) (hb : Bound m) (h : Effect m m' W R) :
    Bound m' ↔ ∀ c sid, W c → Owns m c sid → R sid := by
  constructor
  · rintro hb' c sid hW ⟨hc, s, hs, ho⟩
    by_contra hR
    obtain ⟨s', hs', hconn, honline⟩ := h.exists_kept hR hs
    have hbound := hb' sid s' hs' (honline.trans ho)
    have hcs : c = s.connId := ht.conns.eq_attr hc hs
    rw [hconn, ← hcs] at hbound
    exact h.lost_entry c sid hW hR hbound
  · intro hown sid s' hs' ho
    by_cases hR : R sid
    · exact h.replaced sid s' hR hs' ho
    · obtain ⟨s, hs, hconn, honline⟩ := h.exists_old hR hs'
      have hbound := hb sid s hs (honline.symm.trans ho)
      have hW : ¬ W s.connId := fun hW =>
        hR (hown s.connId sid hW ⟨hbound, s, hs, honline.symm.trans ho⟩)
      rw [hconn, h.kept_entry _ hW]
      exact hbound

omit [Storage σ] in
/-- An operation that writes no entry keeps all bindings. -/
theorem Effect.bound (ht : Tables m) (hb : Bound m) (h : Effect m m' (fun _ => False) R) :
    Bound m' := (h.bound_iff ht hb).mpr fun _ _ hW => hW.elim

omit [Storage σ] in
theorem Effect.refl (m : SessionManager σ) : Effect m m (fun _ => False) fun _ => False where
  kept_entry := fun _ _ => rfl
  lost_entry := fun _ _ h => h.elim
  kept := fun _ _ => rfl
  replaced := fun _ _ h => h.elim

omit [Storage σ] in
theorem Effect.trans {m₁ m₂ m₃ : SessionManager σ} (h : Effect m₁ m₂ W R)
    (h' : Effect m₂ m₃ W' R') (hgone : ∀ sid, R sid → m₂.sessions.lookup sid = none) :
    Effect m₁ m₃ (fun c => W c ∨ W' c) fun sid => R sid ∨ R' sid where
  kept_entry := by
    intro c hc
    rw [not_or] at hc
    rw [h'.kept_entry c hc.2, h.kept_entry c hc.1]
  lost_entry := by
    intro c sid hc hR
    rw [not_or] at hR
    by_cases hW' : W' c
    · exact h'.lost_entry c sid hW' hR.2
    · rw [h'.kept_entry c hW']
      exact h.lost_entry c sid (hc.resolve_right hW') hR.1
  kept := by
    intro sid hR
    rw [not_or] at hR
    rw [h'.kept sid hR.2, h.kept sid hR.1]
  replaced := by
    intro sid s hR hs ho
    by_cases hR' : R' sid
    · exact h'.replaced sid s hR' hs ho
    · -- removed by the first and not put back by the second
      obtain ⟨s₂, hs₂, -⟩ := h'.exists_old hR' hs
      rw [hgone sid (hR.resolve_right hR')] at hs₂
      cases hs₂

omit [Storage σ] in
theorem Effect.congr (h : Effect m m' W R) (hW : ∀ c, W c ↔ W' c) (hR : ∀ sid, R sid ↔ R' sid) :
    Effect m m' W' R' := by
  have hWW : W = W' := funext fun c => propext (hW c)
  have hRR : R = R' := funext fun sid => propext (hR sid)
  rw [← hWW, ← hRR]
  exact h

omit [Storage σ] in
/-- Writing a session back, bound as before. -/
theorem effect_update {sid : SessionId} {s : Session} (hs : m.sessions.lookup sid = some s)
    (s' : Session) (hb : binding s' = binding s) (store : σ) :
    Effect m { m with sessions := m.sessions.insert sid s', store := store } (fun _ => False)
      fun _ => False where
  kept_entry := fun _ _ => rfl
  lost_entry := fun _ _ h => h.elim
  kept := by
    intro a _
    show ((m.sessions.insert sid s').lookup a).map binding = _
    rw [Finmap.lookup_insert_eq]
    split
    · rename_i ha
      rw [ha, hs, Option.map_some, Option.map_some, hb]
    · rfl
  replaced := fun _ _ h => h.elim

omit [Storage σ] in
/-- Writing a session back in another state. -/
theorem effect_setState {sid : SessionId} (s' : Session)
    (hon : s'.isOnline = true → m.connMap.lookup s'.connId = some sid) (store : σ) :
    Effect m { m with sessions := m.sessions.insert sid s', store := store } (fun _ => False)
      (· = sid) where
  kept_entry := fun _ _ => rfl
  lost_entry := fun _ _ h => h.elim
  kept := by
    intro a ha
    show ((m.sessions.insert sid s').lookup a).map binding = _
    rw [Finmap.lookup_insert_of_ne _ ha]
  replaced := by
    rintro a q rfl hq ho
    change (m.sessions.insert a s').lookup a = some q at hq
    rw [Finmap.lookup_insert] at hq
    obtain rfl := Option.some.inj hq
    exact hon ho

theorem effect_dropSession {sid : SessionId} (s : Session) :
    Effect m (m.dropSession sid s) (s.connId = ·) (· = sid) where
  kept_entry := fun _ hc => Finmap.lookup_erase_ne (Ne.symm hc)
  lost_entry := by
    rintro c a rfl _ hlook
    change (m.connMap.erase s.connId).lookup s.connId = some a at hlook
    rw [Finmap.lookup_erase] at hlook
    cases hlook
  kept := fun a ha => congrArg (Option.map binding) (Finmap.lookup_erase_ne ha)
  replaced := by
    rintro a q rfl hq _
    change (m.sessions.erase a).lookup a = some q at hq
    rw [Finmap.lookup_erase] at hq
    cases hq

theorem effect_createSession (connId : ConnectionId) (player : PlayerRecord) (sid : SessionId)
    (now : ℤ) :
    Effect m (m.createSession connId player sid now) (· = connId) (· = sid) where
  kept_entry := fun _ hc => Finmap.lookup_insert_of_ne _ hc
  lost_entry := by
    rintro c a rfl ha hlook
    change (m.connMap.insert c sid).lookup c = some a at hlook
    rw [Finmap.lookup_insert] at hlook
    exact ha (Option.some.inj hlook).symm
  kept := fun a ha => congrArg (Option.map binding) (Finmap.lookup_insert_of_ne _ ha)
  replaced := by
    rintro a q rfl hq _
    change (m.sessions.insert a _).lookup a = some q at hq
    rw [Finmap.lookup_insert] at hq
    obtain rfl := Option.some.inj hq
    exact Finmap.lookup_insert _

omit [Storage σ] in
theorem effect_rebind {sid : SessionId} (s : Session) (newConnId : ConnectionId) (now : ℤ)
    (store : σ) :
    Effect m { m with
        connMap := (m.connMap.erase s.connId).insert newConnId sid
        sessions := m.sessions.insert sid (reconnected s newConnId now)
        store := store }
      (fun c => s.connId = c ∨ c = newConnId) (· = sid) where
  kept_entry := by
    intro c hc
    rw [not_or] at hc
    show ((m.connMap.erase s.connId).insert newConnId sid).lookup c = _
    rw [Finmap.lookup_insert_of_ne _ hc.2, Finmap.lookup_erase_ne (Ne.symm hc.1)]
  lost_entry := by
    intro c a hc ha hlook
    change ((m.connMap.erase s.connId).insert newConnId sid).lookup c = some a at hlook
    rw [Finmap.lookup_insert_eq] at hlook
    split at hlook
    · exact ha (Option.some.inj hlook).symm
    · rename_i hne
      rw [← hc.resolve_right hne, Finmap.lookup_erase] at hlook
      cases hlook
  kept := fun a ha => congrArg (Option.map binding) (Finmap.lookup_insert_of_ne _ ha)
  replaced := by
    rintro a q rfl hq _
    change (m.sessions.insert a _).lookup a = some q at hq
    rw [Finmap.lookup_insert] at hq
    obtain rfl := Option.some.inj hq
    exact Finmap.lookup_insert _

/-! ### The entries an operation writes -/

/-- The operation erases or overwrites `conn_map_[c]`. -/
def Writes (m : SessionManager σ) (c : ConnectionId) : Op → Prop
  | .login connId username password _ _ =>
      ∃ player st, authenticate m.store username password = some (.ok player, st) ∧
        ((∃ old s, m.playerMap.lookup player.id = some old ∧ m.sessions.lookup old = some s ∧
          s.connId = c) ∨ c = connId)
  | .logout sid => ∃ s, m.sessions.lookup sid = some s ∧ s.connId = c
  | .cleanupExpired now _ =>
      ∃ sid s, m.sessions.lookup sid = some s ∧ isExpired s now = true ∧ s.connId = c
  | .tryReconnect sid newConnId now _ =>
      ∃ s, m.sessions.lookup sid = some s ∧ s.state = .disconnected ∧
        (s.connId = c ∨ c = newConnId ∧ ¬ 30 < elapsedSeconds now s.lastActive)
  | _ => False

/-- The operation removes, creates or rebinds the session `sid`. -/
def Replaces (m : SessionManager σ) (sid : SessionId) : Op → Prop
  | .login _ username password newSid _ =>
      ∃ player st, authenticate m.store username password = some (.ok player, st) ∧
        (m.playerMap.lookup player.id = some sid ∨ sid = newSid)
  | .logout a => sid = a
  | .cleanupExpired now _ => ∃ s, m.sessions.lookup sid = some s ∧ isExpired s now = true
  | .tryReconnect a _ _ _ => sid = a
  | _ => False

/-- If the operation brings a DISCONNECTED session back to life, `conn_map_`
still names that session at its connection. -/
def RevivesBound (m : SessionManager σ) : Op → Prop
  | .setState sid newState => ∀ s, m.sessions.lookup sid = some s → s.isOnline = false →
      newState ≠ .disconnected → m.connMap.lookup s.connId = some sid
  | _ => True

/-- The operation writes no entry of a live session it does not itself
replace, and revives no session whose entry is gone. -/
def KeepsBindings (m : SessionManager σ) (op : Op) : Prop :=
  (∀ c sid, Writes m c op → Owns m c sid → Replaces m sid op) ∧ RevivesBound m op

/-- `s` is a session in `order` that a cleanup finds expired. -/
def Expiring (m : SessionManager σ) (now : ℤ) (order : List SessionId) (sid : SessionId)
    (s : Session) : Prop :=
  sid ∈ order ∧ m.sessions.lookup sid = some s ∧ isExpired s now = true

/-- An expired session leaves the others as they are. -/
theorem expiring_cons_of_expired {now : ℤ} (order : List SessionId) {a : SessionId} {s : Session}
    (hs : m.sessions.lookup a = some s) (he : isExpired s now = true) (sid : SessionId)
    (q : Session) :
    Expiring m now (a :: order) sid q ↔
      (sid = a ∧ q = s) ∨ Expiring (m.dropSession a s) now order sid q := by
  have hleft : (m.dropSession a s).sessions.lookup sid = some q ↔
      sid ≠ a ∧ m.sessions.lookup sid = some q := by
    show (m.sessions.erase a).lookup sid = some q ↔ _
    rw [Finmap.lookup_erase_eq]
    split <;> simp [*]
  rw [Expiring, Expiring, hleft]
  constructor
  · rintro ⟨hmem, hq, hqe⟩
    by_cases ha : sid = a
    · subst ha
      exact Or.inl ⟨rfl, (Option.some.inj (hs.symm.trans hq)).symm⟩
    · exact Or.inr ⟨(List.mem_cons.mp hmem).resolve_left ha, ⟨ha, hq⟩, hqe⟩
  · rintro (⟨rfl, rfl⟩ | ⟨hmem, ⟨-, hq⟩, hqe⟩)
    · exact ⟨List.mem_cons_self, hs, he⟩
    · exact ⟨List.mem_cons_of_mem _ hmem, hq, hqe⟩

omit [Storage σ] in
theorem expiring_cons_of_not {now : ℤ} (order : List SessionId) {a : SessionId}
    (hexp : ¬ ∃ s, m.sessions.lookup a = some s ∧ isExpired s now = true) (sid : SessionId)
    (q : Session) : Expiring m now (a :: order) sid q ↔ Expiring m now order sid q := by
  constructor
  · rintro ⟨hmem, hq, hqe⟩
    rcases List.mem_cons.mp hmem with rfl | hmem
    · exact absurd ⟨q, hq, hqe⟩ hexp
    · exact ⟨hmem, hq, hqe⟩
  · rintro ⟨hmem, hq, hqe⟩
    exact ⟨List.mem_cons_of_mem _ hmem, hq, hqe⟩

theorem effect_cleanupExpired (m : SessionManager σ) (now : ℤ) (order : List SessionId) :
    Effect m (m.cleanupExpired now order)
      (fun c => ∃ sid s, Expiring m now order sid s ∧ s.connId = c)
      fun sid => ∃ s, Expiring m now order sid s := by
  unfold cleanupExpired
  induction order generalizing m with
  | nil => exact (Effect.refl m).congr (fun c => by simp [Expiring]) fun sid => by simp [Expiring]
  | cons a order ih =>
    rw [List.foldl_cons]
    by_cases hexp : ∃ s, m.sessions.lookup a = some s ∧ isExpired s now = true
    · obtain ⟨s, hs, he⟩ := hexp
      have hstep : expire now m a = m.dropSession a s := by simp [expire, hs, he]
      have hgone : ∀ sid, sid = a → (m.dropSession a s).sessions.lookup sid = none := by
        rintro sid rfl
        exact Finmap.lookup_erase _ _
      have hcons := expiring_cons_of_expired order hs he
      rw [hstep]
      refine ((effect_dropSession s).trans (ih _) hgone).congr ?_ ?_
      · intro c
        simp only [hcons, or_and_right, exists_or, and_assoc, exists_and_left, exists_eq_left]
      · intro sid
        simp only [hcons, exists_or, exists_eq_right]
    · have hstep : expire now m a = m := by
        unfold expire
        split
        · rfl
        · rename_i s hs
          rw [if_neg fun he => hexp ⟨s, hs, he⟩]
      have hcons := expiring_cons_of_not order hexp
      rw [hstep]
      refine (ih m).congr ?_ ?_
      · intro c
        simp only [hcons]
      · intro sid
        simp only [hcons]

theorem effect_kickDuplicate (h : Tables m) (pid : PlayerId) :
    Effect m (m.kickDuplicate pid).1
      (fun c => ∃ old s, m.playerMap.lookup pid = some old ∧ m.sessions.lookup old = some s ∧
        s.connId = c)
      (fun sid => m.playerMap.lookup pid = some sid) ∧
    ∀ sid, m.playerMap.lookup pid = some sid → (m.kickDuplicate pid).1.sessions.lookup sid = none := by
  rcases kickDuplicate_eq h pid with ⟨hnone, heq⟩ | ⟨old, s, hp, hs, -, heq⟩
  · rw [heq, hnone]
    refine ⟨(Effect.refl m).congr ?_ ?_, ?_⟩
    · exact fun c => ⟨False.elim, fun ⟨_, _, h, _⟩ => nomatch h⟩
    · exact fun sid => ⟨False.elim, fun h => nomatch h⟩
    · exact fun sid h => nomatch h
  · rw [heq]
    refine ⟨(effect_dropSession s).congr ?_ ?_, ?_⟩
    · intro c
      constructor
      · rintro rfl
        exact ⟨old, s, hp, hs, rfl⟩
      · rintro ⟨old', s', hp', hs', rfl⟩
        obtain rfl := Option.some.inj (hp.symm.trans hp')
        obtain rfl := Option.some.inj (hs.symm.trans hs')
        rfl
    · intro sid
      rw [hp, Option.some.injEq]
      exact eq_comm
    · intro sid hsid
      obtain rfl := Option.some.inj (hp.symm.trans hsid)
      exact Finmap.lookup_erase _ _

/-! ### What the operations of the manager write and replace -/

omit [Storage σ] in
/-- An operation that finds no session changes nothing. -/
theorem effect_of_absent {sid : SessionId} {W : ConnectionId → Prop}
    (hnone : m.sessions.lookup sid = none) (hW : ∀ c, W c → ∃ s, m.sessions.lookup sid = some s) :
    Effect m m W (fun a => a = sid) := by
  refine ⟨fun _ _ => rfl, ?_, fun _ _ => rfl, ?_⟩
  · intro c a hc
    obtain ⟨s, hs⟩ := hW c hc
    rw [hnone] at hs
    cases hs
  · rintro a q rfl hq
    rw [hnone] at hq
    cases hq

theorem effect_login {connId : ConnectionId} {username password : String} {sid : SessionId}
    {now : ℤ} (ht : Tables m) (hstep : m.step (.login connId username password sid now) = some m') :
    Effect m m' (fun c => Writes m c (.login connId username password sid now))
      fun a => Replaces m a (.login connId username password sid now) := by
  rcases login_cases hstep with ⟨msg, st, hauth, rfl⟩ | ⟨player, st, hauth, rfl⟩
  · -- refused: only the stores change
    have hrefl : Effect m { m with store := st } (fun _ => False) fun _ => False :=
      ⟨fun _ _ => rfl, fun _ _ h => h.elim, fun _ _ => rfl, fun _ _ h => h.elim⟩
    refine hrefl.congr ?_ ?_
    · intro c
      simp [Writes, hauth]
    · intro a
      simp [Replaces, hauth]
  · have hst : Tables ({ m with store := st } : SessionManager σ) := ⟨ht.own, ht.players, ht.conns⟩
    obtain ⟨hkick, hgone⟩ := effect_kickDuplicate hst player.id
    have h := hkick.trans (effect_createSession connId player sid now) hgone
    refine Effect.congr ⟨h.kept_entry, h.lost_entry, h.kept, h.replaced⟩ ?_ ?_
    · intro c
      simp [Writes, hauth]
    · intro a
      simp [Replaces, hauth]

theorem effect_logout (sid : SessionId) :
    Effect m (m.logout sid) (fun c => Writes m c (.logout sid))
      fun a => Replaces m a (.logout sid) := by
  unfold SessionManager.logout
  split
  · rename_i hnone
    exact effect_of_absent hnone fun _ ⟨s, hs, _⟩ => ⟨s, hs⟩
  · rename_i s hs
    refine (effect_dropSession s).congr ?_ fun _ => Iff.rfl
    intro c
    simp [Writes, hs]

theorem effect_cleanup {now : ℤ} {order : List SessionId}
    (hstep : m.step (.cleanupExpired now order) = some m') :
    Effect m m' (fun c => Writes m c (.cleanupExpired now order))
      fun a => Replaces m a (.cleanupExpired now order) := by
  simp only [SessionManager.step] at hstep
  split at hstep
  · rename_i horder
    obtain rfl := Option.some.inj hstep
    have hmem : ∀ sid s, m.sessions.lookup sid = some s → sid ∈ order := by
      intro sid s hs
      rw [← Multiset.mem_coe, horder, Finset.mem_val, Finmap.mem_keys_iff]
      exact ⟨s, hs⟩
    refine (effect_cleanupExpired m now order).congr ?_ ?_
    · intro c
      constructor
      · rintro ⟨sid, s, ⟨-, h⟩, hc⟩
        exact ⟨sid, s, h.1, h.2, hc⟩
      · rintro ⟨sid, s, hs, he, hc⟩
        exact ⟨sid, s, ⟨hmem sid s hs, hs, he⟩, hc⟩
    · intro sid
      constructor
      · rintro ⟨s, h⟩
        exact ⟨s, h.2⟩
      · rintro ⟨s, h⟩
        exact ⟨s, hmem sid s h.1, h⟩
  · cases hstep

theorem effect_tryReconnect (hb : Bound m) (sid : SessionId) (newConnId : ConnectionId) (now : ℤ)
    (restored : ℤ) :
    Effect m (m.tryReconnect sid newConnId now restored).1
      (fun c => Writes m c (.tryReconnect sid newConnId now restored))
      fun a => Replaces m a (.tryReconnect sid newConnId now restored) := by
  rcases tryReconnect_cases m sid newConnId now restored with
    ⟨hrefused, _, -, heq⟩ | ⟨s, hs, hdisc, ⟨hlate, heq⟩ | ⟨hintime, heq⟩⟩
  · rw [heq]
    refine ⟨fun _ _ => rfl, ?_, fun _ _ => rfl, ?_⟩
    · rintro c a ⟨q, hq, hdisc, -⟩
      exact absurd hdisc (hrefused q hq)
    · rintro a q rfl hq ho
      exact hb a q hq ho
  · rw [heq]
    refine (effect_dropSession s).congr ?_ fun _ => Iff.rfl
    intro c
    simp [Writes, hs, hdisc, hlate]
  · rw [heq]
    refine (effect_rebind s newConnId restored _).congr ?_ fun _ => Iff.rfl
    intro c
    simp [Writes, hs, hdisc, hintime]

/-- A session that goes offline stays bound, whatever it was. -/
theorem bound_markDisconnected (ht : Tables m) (hb : Bound m) (connId : ConnectionId) (now : ℤ) :
    Bound (m.markDisconnected connId now) := by
  unfold SessionManager.markDisconnected
  split
  · exact hb
  · split
    · exact hb
    · rename_i sid _ s hs
      refine (effect_setState { s with state := .disconnected, lastActive := now } ?_ _).bound ht hb
      intro hon
      cases hon

/-- `setState` can revive a session whose entry is gone. -/
theorem bound_setState_iff (ht : Tables m) (hb : Bound m) (sid : SessionId)
    (newState : SessionState) :
    Bound (m.setState sid newState) ↔ KeepsBindings m (.setState sid newState) := by
  unfold SessionManager.setState
  split
  · rename_i hnone
    refine ⟨fun _ => ⟨fun _ _ h => h.elim, ?_⟩, fun _ => hb⟩
    intro s hs
    rw [hnone] at hs
    cases hs
  · rename_i s hs
    constructor
    · intro hb'
      refine ⟨fun _ _ h => h.elim, ?_⟩
      intro q hq _ hne
      obtain rfl := Option.some.inj (hs.symm.trans hq)
      exact hb' sid { s with state := newState } (Finmap.lookup_insert _) (by simp [Session.isOnline, hne])
    · rintro ⟨-, hrev⟩
      refine (effect_setState { s with state := newState } ?_ _).bound ht hb
      intro hon
      have hne : newState ≠ .disconnected := by simpa [Session.isOnline] using hon
      by_cases hlive : s.isOnline = true
      · exact hb sid s hs hlive
      · exact hrev s hs (by simpa using hlive) hne

/-- **One operation.**  From bound sessions, the sessions are bound after an
operation if and only if it keeps the bindings. -/
theorem bound_step_iff {op : Op} (ht : Tables m) (hb : Bound m) (hstep : Steps m op m') :
    Bound m' ↔ KeepsBindings m op := by
  obtain ⟨hstep, -⟩ := hstep
  -- an operation that writes no entry and cannot revive a session
  have hquiet : (∀ c, ¬ Writes m c op) → RevivesBound m op → Bound m' →
      (Bound m' ↔ KeepsBindings m op) := by
    intro hW hrev hb'
    exact ⟨fun _ => ⟨fun c _ h _ => absurd h (hW c), hrev⟩, fun _ => hb'⟩
  -- an operation whose effect is the one `Writes` and `Replaces` describe
  have heffect : RevivesBound m op →
      Effect m m' (fun c => Writes m c op) (fun sid => Replaces m sid op) →
      (Bound m' ↔ KeepsBindings m op) := by
    intro hrev h
    rw [h.bound_iff ht hb]
    exact ⟨fun h => ⟨h, hrev⟩, fun h => h.1⟩
  cases op with
  | login connId username password sid now => exact heffect trivial (effect_login ht hstep)
  | logout sid =>
    obtain rfl := Option.some.inj hstep
    exact heffect trivial (effect_logout sid)
  | heartbeat sid now =>
    obtain rfl := Option.some.inj hstep
    apply hquiet (fun _ h => h) trivial
    unfold SessionManager.heartbeat
    split
    · exact hb
    · rename_i s hs
      have heff := effect_update hs { s with lastActive := now } rfl m.store
      exact heff.bound ht hb
  | setState sid newState =>
    obtain rfl := Option.some.inj hstep
    exact bound_setState_iff ht hb sid newState
  | setMatchMode sid mode =>
    obtain rfl := Option.some.inj hstep
    apply hquiet (fun _ h => h) trivial
    unfold SessionManager.setMatchMode
    split
    · exact hb
    · rename_i s hs
      have heff := effect_update hs { s with matchMode := mode } rfl m.store
      exact heff.bound ht hb
  | setCurrentRoom sid roomId =>
    obtain rfl := Option.some.inj hstep
    apply hquiet (fun _ h => h) trivial
    unfold SessionManager.setCurrentRoom
    split
    · exact hb
    · rename_i s hs
      have heff := effect_update hs { s with currentRoom := roomId } rfl
        (saveToRedis { s with currentRoom := roomId } m.store)
      exact heff.bound ht hb
  | cleanupExpired now order => exact heffect trivial (effect_cleanup hstep)
  | markDisconnected connId now =>
    obtain rfl := Option.some.inj hstep
    exact hquiet (fun _ h => h) trivial (bound_markDisconnected ht hb connId now)
  | tryReconnect sid newConnId now restored =>
    obtain rfl := Option.some.inj hstep
    exact heffect trivial (effect_tryReconnect hb sid newConnId now restored)

/-! ### Runs -/

/-- `conn_map_` names the session of every live connection, and names
nothing but sessions at their connections. -/
def Consistent (m : SessionManager σ) : Prop :=
  (∀ sid s, m.sessions.lookup sid = some s → s.state ≠ .disconnected →
    m.connMap.lookup s.connId = some s.sessionId) ∧
  ∀ c sid, m.connMap.lookup c = some sid → ∃ s, m.sessions.lookup sid = some s ∧ s.connId = c

omit [Storage σ] in
theorem consistent_iff_bound (h : Tables m) : Consistent m ↔ Bound m := by
  constructor
  · rintro ⟨hlive, -⟩ sid s hs ho
    rw [hlive sid s hs (by simpa [Session.isOnline] using ho), h.own sid s hs]
  · intro hb
    refine ⟨fun sid s hs hne => ?_, h.conns⟩
    rw [h.own sid s hs]
    exact hb sid s hs (by simpa [Session.isOnline] using hne)

/-- **Bindings over runs.**  The runs in which `conn_map_` stays consistent
with the sessions are the runs whose operations all keep the bindings. -/
theorem consistent_run_iff {store : σ} {ops : List Op} :
    Transition.Run (fun m op m' => Steps m op m' ∧ Consistent m') (init store) ops m ↔
      Transition.Run (fun m op m' => Steps m op m' ∧ KeepsBindings m op) (init store) ops m := by
  apply Transition.Run.target_congr (J := Tables)
  · exact fun m op m' ht hst => ht.step hst
  · intro m op m' ht hcons hst
    rw [consistent_iff_bound (ht.step hst)]
    exact bound_step_iff ht ((consistent_iff_bound ht).mp hcons) hst
  · exact tables_init store
  · rw [consistent_iff_bound (tables_init store)]
    intro sid s hs
    simp [init] at hs

/-- The second half of consistency needs no condition. -/
theorem conns_sound_run {store : σ} {ops : List Op}
    (h : Transition.Run Steps (init store) ops m) :
    Index.Sound m.connMap m.sessions Session.connId := (tables_run h).conns

/-- Two players log in on one connection. -/
def sharedConnection : List Op := [.login 1 "ann" "secret" 11 0, .login 1 "bob" "hidden" 12 5]

/-- **A second login takes the connection over.**  The first player's session
stays, live and with that connection, but `conn_map_` names the second. -/
theorem stolen_sharedConnection :
    ¬ ∀ (ops : List Op) (m : SessionManager MemoryStore),
        Transition.Run Steps (init {}) ops m → Consistent m := by
  intro hclaim
  have hrun : ((init ({} : MemoryStore)).runOps sharedConnection).map (fun m =>
      ((m.sessions.lookup 11).map fun s => (s.connId, s.state, s.sessionId), m.connMap.lookup 1))
      = some (some (1, .authenticated, 11), some 12) := by
    decide +kernel
  obtain ⟨m, hm, heq⟩ := Option.map_eq_some_iff.mp hrun
  obtain ⟨hsession, hentry⟩ := Prod.mk.injEq .. ▸ heq
  obtain ⟨s, hs, hfields⟩ := Option.map_eq_some_iff.mp hsession
  obtain ⟨hlive, -⟩ := hclaim sharedConnection m (run_of_runOps hm)
  simp only [Prod.mk.injEq] at hfields
  obtain ⟨hconn, hstate, hid⟩ := hfields
  have hbound := hlive 11 s hs (by rw [hstate]; decide)
  rw [hconn, hid, hentry] at hbound
  exact absurd hbound (by decide)

end SessionManager

end MiniArena
