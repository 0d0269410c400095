/-
MiniArena/FailedLogin.lean

What a login or a reconnect that fails changes.

A `KeyView` is a reading of the store as the keys of a Redis whose commands
may fail: a `SET` touches no other key, the queries of MySQL touch none, and a
`DEL` removes its key if it is carried out.

A failed login stops before it touches a session (`login_failure`).  A failed
reconnect stops before that too, unless the session's window has expired: then
it logs the session out (`tryReconnect_failure`).  `RedisClient::del` ignores
the reply, so a key whose `DEL` fails outlives its session
(`keys_kept_outage`).
-/
import MiniArena.RedisView
import MiniArena.SessionMaps

namespace MiniArena

structure KeyView (σ : Type) [Storage σ] where
  value : σ → String → Option String
  get : ∀ key st, value (Storage.get key st).2 = value st
  set : ∀ key text st k, k ≠ key → value (Storage.set key text st).2 k = value st k
  /-- Whether a `DEL` is carried out. -/
  deletes : String → σ → Bool
  del : ∀ key st, value (Storage.del key st).2
    = if deletes key st then Function.update (value st) key none else value st
  getPlayer : ∀ username st, value (Storage.getPlayer username st).2 = value st
  createPlayer : ∀ username password st,
    value (Storage.createPlayer username password st).2 = value st

/-! ### A Redis that goes away -/

/-- Redis carries out `live` more commands, and none after that. -/
structure OutageStore where
  memory : MemoryStore := {}
  live : ℕ

namespace OutageStore

def redis {α : Type} (failed : α) (command : MemoryStore → α × MemoryStore) (st : OutageStore) :
    α × OutageStore :=
  match st.live with
  | 0 => (failed, st)
  | n + 1 => ((command st.memory).1, ⟨(command st.memory).2, n⟩)

def mysql {α : Type} (query : MemoryStore → α × MemoryStore) (st : OutageStore) : α × OutageStore :=
  ((query st.memory).1, { st with memory := (query st.memory).2 })

instance : Storage OutageStore where
  set key value := redis false (Storage.set key value)
  setEx key seconds value := redis false (Storage.setEx key seconds value)
  get key := redis none (Storage.get key)
  -- `RedisClient::del` answers true whatever the reply
  del key := redis true (Storage.del key)
  lpush key value := redis 0 (Storage.lpush key value)
  brpop key timeout st :=
    match st.live with
    | 0 => some (none, st)
    | n + 1 => (Storage.brpop key timeout st.memory).map fun r => (r.1, ⟨r.2, n⟩)
  llen key := redis 0 (Storage.llen key)
  getPlayer username := mysql (Storage.getPlayer username)
  createPlayer username password := mysql (Storage.createPlayer username password)
  recordLogin playerId st := { st with memory := Storage.recordLogin playerId st.memory }
  saveBattleResult playerId room kills deaths dealt taken rank st :=
    { st with
      memory := Storage.saveBattleResult playerId room kills deaths dealt taken rank st.memory }

def keyView : KeyView OutageStore where
  value st key := st.memory.strings.lookup key
  deletes _ st := decide (st.live ≠ 0)
  get key st := by
    rcases st with ⟨memory, - | n⟩
    · rfl
    · rfl
  set key text st k hne := by
    rcases st with ⟨memory, - | n⟩
    · rfl
    · exact Finmap.lookup_insert_of_ne _ hne
  del key st := by
    rcases st with ⟨memory, - | n⟩
    · rfl
    · funext k
      show (memory.strings.erase key).lookup k
        = Function.update (fun k => memory.strings.lookup k) key none k
      rw [Finmap.lookup_erase_eq, Function.update_apply]
  getPlayer _ _ := rfl
  createPlayer _ _ _ := rfl

end OutageStore

/-- The keys under which sessions are stored. -/
def SessionKey (key : String) : Prop :=
  ∃ id, key = RedisClient.makeKey "session" id ∨ key = RedisClient.makeKey "online" id

theorem SessionKey.ne_player {key : String} (h : SessionKey key) (username : String) :
    key ≠ "player:" ++ username := by
  obtain ⟨id, rfl | rfl⟩ := h
  · exact RedisClient.session_ne_player id username
  · exact RedisClient.online_ne_player id username

namespace KeyView

variable {σ : Type} [Storage σ] (V : KeyView σ)

/-- No session key differs. -/
def Same (st st' : σ) : Prop := ∀ key, SessionKey key → V.value st' key = V.value st key

theorem lookups : SessionManager.Lookups V.Same where
  refl _ _ _ := rfl
  trans h h' key hkey := (h' key hkey).trans (h key hkey)
  get key st k _ := congrFun (V.get key st) k
  getPlayer username st k _ := congrFun (V.getPlayer username st) k
  createPlayer username password st k _ := congrFun (V.createPlayer username password st) k
  cachePlayer username _ st k hk := V.set _ _ st k (hk.ne_player username)

theorem value_del_of_ne {key k : String} (hne : k ≠ key) (st : σ) :
    V.value (Storage.del key st).2 k = V.value st k := by
  rw [V.del]
  split
  · exact Function.update_of_ne hne _ _
  · rfl

theorem value_del_self (key : String) (st : σ) :
    V.value (Storage.del key st).2 key = if V.deletes key st then none else V.value st key := by
  rw [V.del]
  split
  · exact Function.update_self _ _ _
  · rfl

end KeyView

namespace SessionManager

variable {σ : Type} [Storage σ] {V : KeyView σ} {m m' : SessionManager σ}

/-! ### Attempts to get a session -/

inductive Attempt
  | login (connId : ConnectionId) (username password : String) (sid : SessionId) (now : ℤ)
  | tryReconnect (sid : SessionId) (newConnId : ConnectionId) (now restored : ℤ)
  deriving DecidableEq, Repr

/-- `tryReconnect` has no message to send. -/
def attempt (m : SessionManager σ) : Attempt → Option (SessionManager σ × LoginResult × List Kick)
  | .login connId username password sid now => m.login connId username password sid now
  | .tryReconnect sid newConnId now restored =>
      let r := m.tryReconnect sid newConnId now restored
      some (r.1, r.2, [])

/-- The disconnected session that is asked for after its window. -/
def expiredSession (m : SessionManager σ) : Attempt → Option (SessionId × Session)
  | .login _ _ _ _ _ => none
  | .tryReconnect sid _ now _ =>
      (m.sessions.lookup sid).bind fun s =>
        if s.state = .disconnected ∧ 30 < elapsedSeconds now s.lastActive then some (sid, s) else none

structure Unchanged (V : KeyView σ) (m m' : SessionManager σ) : Prop where
  sessions : m'.sessions = m.sessions
  connMap : m'.connMap = m.connMap
  playerMap : m'.playerMap = m.playerMap
  keys : V.Same m.store m'.store

/-- The session is gone, and with it the two keys whose `DEL` is carried out. -/
structure Removed (V : KeyView σ) (m m' : SessionManager σ) (sid : SessionId) (s : Session) :
    Prop where
  sessions : m'.sessions = m.sessions.erase sid
  connMap : m'.connMap = m.connMap.erase s.connId
  playerMap : m'.playerMap = m.playerMap.erase s.playerId
  store : m'.store = RedisClient.delSession sid (RedisClient.delOnline s.playerId m.store)
  onlineKey : V.value m'.store (RedisClient.makeKey "online" s.playerId)
    = if V.deletes (RedisClient.makeKey "online" s.playerId) m.store then none
      else V.value m.store (RedisClient.makeKey "online" s.playerId)
  sessionKey : V.value m'.store (RedisClient.makeKey "session" sid)
    = if V.deletes (RedisClient.makeKey "session" sid) (RedisClient.delOnline s.playerId m.store)
      then none else V.value m.store (RedisClient.makeKey "session" sid)
  otherKeys : ∀ key, key ≠ RedisClient.makeKey "online" s.playerId →
    key ≠ RedisClient.makeKey "session" sid → V.value m'.store key = V.value m.store key

theorem Unchanged.refl (V : KeyView σ) (m : SessionManager σ) : Unchanged V m m :=
  ⟨rfl, rfl, rfl, fun _ _ => rfl⟩

theorem removed_dropSession (V : KeyView σ) {sid : SessionId} {s : Session}
    (hs : m.sessions.lookup sid = some s) : Removed V m (m.dropSession sid s) sid s := by
  have hstore : m.removeFromRedis sid
      = RedisClient.delSession sid (RedisClient.delOnline s.playerId m.store) := by
    rw [removeFromRedis, hs]
  have hkeys : RedisClient.makeKey "session" sid ≠ RedisClient.makeKey "online" s.playerId :=
    RedisClient.session_ne_online sid s.playerId
  refine ⟨rfl, rfl, rfl, hstore, ?_, ?_, ?_⟩
  · show V.value (m.removeFromRedis sid) _ = _
    rw [hstore, RedisClient.delSession, V.value_del_of_ne hkeys.symm, RedisClient.delOnline,
      V.value_del_self]
  · show V.value (m.removeFromRedis sid) _ = _
    rw [hstore, RedisClient.delSession, V.value_del_self, RedisClient.delOnline,
      V.value_del_of_ne hkeys]
  · intro key honline hsession
    show V.value (m.removeFromRedis sid) key = _
    rw [hstore, RedisClient.delSession, V.value_del_of_ne hsession, RedisClient.delOnline,
      V.value_del_of_ne honline]

/-! ### Failures -/

/-- All four failures of a login come from its authentication. -/
theorem login_failure (V : KeyView σ) {connId : ConnectionId} {username password : String}
    {sid : SessionId} {now : ℤ} {result : LoginResult} {kicks : List Kick}
    (h : m.login connId username password sid now = some (m', result, kicks))
    (hfail : result.errorCode ≠ 0) : kicks = [] ∧ Unchanged V m m' := by
  obtain ⟨⟨e, st⟩, hauth, heq⟩ := Option.map_eq_some_iff.mp h
  have hkeys : V.Same m.store st := V.lookups.authenticate hauth
  cases e with
  | error msg =>
    simp only [Prod.mk.injEq] at heq
    obtain ⟨rfl, -, rfl⟩ := heq
    exact ⟨rfl, rfl, rfl, rfl, hkeys⟩
  | ok player =>
    -- from here on the login succeeds
    simp only [Prod.mk.injEq] at heq
    obtain ⟨-, rfl, -⟩ := heq
    exact absurd rfl hfail

theorem tryReconnect_failure (V : KeyView σ) {sid : SessionId} {newConnId : ConnectionId}
    {now restored : ℤ} (hfail : (m.tryReconnect sid newConnId now restored).2.errorCode ≠ 0) :
    (m.expiredSession (.tryReconnect sid newConnId now restored) = none ∧
      Unchanged V m (m.tryReconnect sid newConnId now restored).1) ∨
    ∃ s, m.expiredSession (.tryReconnect sid newConnId now restored) = some (sid, s) ∧
      Removed V m (m.tryReconnect sid newConnId now restored).1 sid s := by
  rcases tryReconnect_cases m sid newConnId now restored with
    ⟨hrefused, _, -, heq⟩ | ⟨s, hs, hdisc, ⟨hlate, heq⟩ | ⟨-, heq⟩⟩
  · left
    rw [heq]
    refine ⟨?_, Unchanged.refl V m⟩
    rw [expiredSession, Option.bind_eq_none_iff]
    intro s hs
    rw [if_neg fun h => hrefused s hs h.1]
  · right
    rw [heq]
    refine ⟨s, ?_, removed_dropSession V hs⟩
    rw [expiredSession, hs, Option.bind_some, if_pos ⟨hdisc, hlate⟩]
  · -- within the window the reconnect succeeds
    rw [heq] at hfail
    exact absurd rfl hfail

/-- **A failure changes no session**, and kicks nobody.  The one exception is a
reconnect after the window, which removes the session, its entries and its
keys, as far as Redis carries out the two `DEL` commands. -/
theorem failure_changes_nothing (V : KeyView σ) {a : Attempt} {result : LoginResult}
    {kicks : List Kick} (h : m.attempt a = some (m', result, kicks))
    (hfail : result.errorCode ≠ 0) :
    kicks = [] ∧ (m.expiredSession a = none → Unchanged V m m') ∧
      ∀ sid s, m.expiredSession a = some (sid, s) → Removed V m m' sid s := by
  cases a with
  | login connId username password sid now =>
    obtain ⟨hkicks, hsame⟩ := login_failure V h hfail
    refine ⟨hkicks, fun _ => hsame, fun sid s hs => ?_⟩
    cases hs
  | tryReconnect sid newConnId now restored =>
    simp only [attempt, Option.some.injEq, Prod.mk.injEq] at h
    obtain ⟨rfl, rfl, rfl⟩ := h
    rcases tryReconnect_failure V hfail with ⟨hnone, hsame⟩ | ⟨s, hsome, hremoved⟩
    · refine ⟨rfl, fun _ => hsame, fun sid s hs => ?_⟩
      rw [hnone] at hs
      cases hs
    · refine ⟨rfl, fun hs => ?_, fun sid' s' hs => ?_⟩
      · rw [hsome] at hs
        cases hs
      · rw [hsome] at hs
        obtain ⟨rfl, rfl⟩ := Prod.mk.injEq .. ▸ Option.some.inj hs
        exact hremoved

/-- A login and the loss of its connection: six commands of Redis. -/
def loginAndLoss : List Op := [.login 1 "ann" "secret" 11 0, .markDisconnected 1 5]

def lostSession : Session :=
  { newSession 1 ⟨1, "ann", "secret"⟩ 11 0 with state := .disconnected, lastActive := 5 }

/-- A minute later. -/
def lateReconnect : Attempt := .tryReconnect 11 2 60000000000 60000000000

theorem lateReconnect_outage : ∃ m result,
    (init ({ live := 6 } : OutageStore)).runOps loginAndLoss = some m ∧
      m.attempt lateReconnect = some (m.logout 11, result, []) ∧ result.errorCode ≠ 0 ∧
      m.expiredSession lateReconnect = some (11, lostSession) ∧
      OutageStore.keyView.value (m.logout 11).store (RedisClient.makeKey "session" 11) ≠ none := by
  have hrun : (((init ({ live := 6 } : OutageStore)).runOps loginAndLoss).any fun m =>
      decide (m.sessions.lookup 11 = some lostSession) &&
        (OutageStore.keyView.value (m.logout 11).store
          (RedisClient.makeKey "session" 11)).isSome) = true := by decide +kernel
  obtain ⟨m, hm, hboth⟩ := (Option.any_eq_true _ _).mp hrun
  obtain ⟨hs, hkey⟩ := Bool.and_eq_true_iff.mp hboth
  have hlook := of_decide_eq_true hs
  refine ⟨m, { errorCode := 20002, errorMsg := "Reconnect window expired" }, hm, ?_, by decide, ?_,
    Option.isSome_iff_ne_none.mp hkey⟩
  · rw [lateReconnect, attempt, tryReconnect, logout, hlook]
    rfl
  · rw [lateReconnect, expiredSession, hlook]
    rfl

theorem failure_changes_nothing_outage : ∃ (m m' : SessionManager OutageStore) (kicks : List Kick),
    kicks = [] ∧ (m.expiredSession lateReconnect = none → Unchanged OutageStore.keyView m m') ∧
      (∀ sid s, m.expiredSession lateReconnect = some (sid, s) →
        Removed OutageStore.keyView m m' sid s) ∧
      m.expiredSession lateReconnect = some (11, lostSession) := by
  obtain ⟨m, result, -, hattempt, hfail, hexpired, -⟩ := lateReconnect_outage
  obtain ⟨hkicks, hsame, hremoved⟩ := failure_changes_nothing OutageStore.keyView hattempt hfail
  exact ⟨m, m.logout 11, [], hkicks, hsame, hremoved, hexpired⟩

/-- **Keys can outlive their session**: Redis is gone when the window expires. -/
theorem keys_kept_outage :
    ¬ ∀ (m m' : SessionManager OutageStore) (ops : List Op) (a : Attempt) (result : LoginResult)
        (kicks : List Kick) (sid : SessionId) (s : Session),
      Transition.Run Steps (init { live := 6 }) ops m → m.attempt a = some (m', result, kicks) →
      result.errorCode ≠ 0 → m.expiredSession a = some (sid, s) →
        OutageStore.keyView.value m'.store (RedisClient.makeKey "session" sid) = none ∧
          OutageStore.keyView.value m'.store (RedisClient.makeKey "online" s.playerId) = none := by
  intro hclaim
  obtain ⟨m, result, hrun, hattempt, hfail, hexpired, hkept⟩ := lateReconnect_outage
  exact hkept (hclaim m _ _ _ _ _ _ _ (run_of_runOps hrun) hattempt hfail hexpired).1

end SessionManager

end MiniArena
