/-
MiniArena/RedisMirror.lean

The copy of the sessions in Redis.

Every operation that changes or removes a session writes through, except
`setMatchMode`: the encoding of a session ends in its match mode, and the key
keeps the old one until some later operation saves the session for another
reason.  `mirror_step_iff` says that this is the only way to lose the mirror,
and `mirrors_run_iff` which runs keep it: those that never change a match
mode.

`Copy` is the mirror in terms of the two maps, one look-up on each side.
-/
import MiniArena.MatchManager
import MiniArena.RedisView

namespace MiniArena

variable {σ : Type} [Storage σ]

open RedisClient SessionManager

namespace RedisView

variable (R : RedisView σ)

/-- What `session:<sid>` holds. -/
def sessionAt (st : σ) (sid : SessionId) : Option String :=
  (R.strings st).lookup (makeKey "session" sid)

/-- What `online:<pid>` holds. -/
def onlineAt (st : σ) (pid : PlayerId) : Option String :=
  (R.strings st).lookup (makeKey "online" pid)

/-- Neither kind of key is touched. -/
def SameKeys (st st' : σ) : Prop :=
  R.sessionAt st' = R.sessionAt st ∧ R.onlineAt st' = R.onlineAt st

variable {R}

theorem SameKeys.refl (st : σ) : R.SameKeys st st := ⟨rfl, rfl⟩

theorem SameKeys.trans {st₁ st₂ st₃ : σ} (h : R.SameKeys st₁ st₂) (h' : R.SameKeys st₂ st₃) :
    R.SameKeys st₁ st₃ :=
  ⟨h'.1.trans h.1, h'.2.trans h.2⟩

theorem sameKeys_of_strings {st st' : σ} (h : R.strings st' = R.strings st) : R.SameKeys st st' := by
  refine ⟨?_, ?_⟩
  · funext sid
    rw [sessionAt, h, sessionAt]
  · funext pid
    rw [onlineAt, h, onlineAt]

/-! ### The commands -/

theorem sessionAt_setSession (sid a : SessionId) (data : String) (st : σ) :
    R.sessionAt (setSession sid data st) a = if a = sid then some data else R.sessionAt st a := by
  rw [sessionAt, setSession, (R.setEx _ _ _ _).1, Finmap.lookup_insert_eq]
  simp only [makeKey_inj, sessionAt]

theorem onlineAt_setSession (sid : SessionId) (data : String) (st : σ) :
    R.onlineAt (setSession sid data st) = R.onlineAt st := by
  funext pid
  rw [onlineAt, setSession, (R.setEx _ _ _ _).1,
    Finmap.lookup_insert_of_ne _ (session_ne_online _ _).symm, onlineAt]

theorem sessionAt_setOnline (pid : PlayerId) (sid : SessionId) (st : σ) :
    R.sessionAt (setOnline pid sid st) = R.sessionAt st := by
  funext a
  rw [sessionAt, setOnline, (R.set _ _ _).1, Finmap.lookup_insert_of_ne _ (session_ne_online _ _),
    sessionAt]

theorem onlineAt_setOnline (pid a : PlayerId) (sid : SessionId) (st : σ) :
    R.onlineAt (setOnline pid sid st) a =
      if a = pid then some (toStringU64 sid) else R.onlineAt st a := by
  rw [onlineAt, setOnline, (R.set _ _ _).1, Finmap.lookup_insert_eq]
  simp only [makeKey_inj, onlineAt]

theorem sessionAt_delSession (sid a : SessionId) (st : σ) :
    R.sessionAt (delSession sid st) a = if a = sid then none else R.sessionAt st a := by
  rw [sessionAt, delSession, (R.del _ _).1, Finmap.lookup_erase_eq]
  simp only [makeKey_inj, sessionAt]

theorem onlineAt_delSession (sid : SessionId) (st : σ) :
    R.onlineAt (delSession sid st) = R.onlineAt st := by
  funext pid
  rw [onlineAt, delSession, (R.del _ _).1,
    Finmap.lookup_erase_ne (session_ne_online _ _).symm, onlineAt]

theorem sessionAt_delOnline (pid : PlayerId) (st : σ) :
    R.sessionAt (delOnline pid st) = R.sessionAt st := by
  funext a
  rw [sessionAt, delOnline, (R.del _ _).1, Finmap.lookup_erase_ne (session_ne_online _ _), sessionAt]

theorem onlineAt_delOnline (pid a : PlayerId) (st : σ) :
    R.onlineAt (delOnline pid st) a = if a = pid then none else R.onlineAt st a := by
  rw [onlineAt, delOnline, (R.del _ _).1, Finmap.lookup_erase_eq]
  simp only [makeKey_inj, onlineAt]

theorem sameKeys_cachePlayer (username : String) (pid : PlayerId) (st : σ) :
    R.SameKeys st (cachePlayer username pid st) := by
  refine ⟨?_, ?_⟩
  · funext sid
    rw [sessionAt, cachePlayer, (R.set _ _ _).1,
      Finmap.lookup_insert_of_ne _ (session_ne_player _ _), sessionAt]
  · funext a
    rw [onlineAt, cachePlayer, (R.set _ _ _).1,
      Finmap.lookup_insert_of_ne _ (online_ne_player _ _), onlineAt]

theorem lookups_sameKeys : SessionManager.Lookups (R.SameKeys) where
  refl := SameKeys.refl
  trans := SameKeys.trans
  get key st := sameKeys_of_strings (R.get key st).1
  getPlayer username st := sameKeys_of_strings (R.getPlayer username st).1
  createPlayer username password st := sameKeys_of_strings (R.createPlayer username password st).1
  cachePlayer := sameKeys_cachePlayer

theorem sameKeys_pushMatchQueue (mode : ℤ) (pid : PlayerId) (st : σ) :
    R.SameKeys st (pushMatchQueue mode pid st) := sameKeys_of_strings (R.lpush _ _ _).1

theorem sameKeys_matchQueueSize (mode : ℤ) (st : σ) :
    R.SameKeys st (matchQueueSize mode st).2 := sameKeys_of_strings (R.llen _ _).1

theorem sameKeys_popMatchQueue {mode : ℤ} {st : σ} {r : Option PlayerId × σ}
    (h : popMatchQueue mode st = some r) : R.SameKeys st r.2 := by
  obtain ⟨⟨popped, st'⟩, hbrpop, hrest⟩ := Option.bind_eq_some_iff.mp h
  cases popped with
  | none =>
    obtain rfl := Option.some.inj hrest
    exact sameKeys_of_strings (R.brpop_none _ _ _ _ hbrpop).1
  | some text =>
    obtain ⟨pid, -, rfl⟩ := Option.map_eq_some_iff.mp hrest
    exact sameKeys_of_strings (R.brpop _ _ _ _ _ hbrpop).1

end RedisView

/-! ### The mirror -/

/-- **Redis mirrors the sessions.** -/
structure Mirrors (R : RedisView σ) (m : SessionManager σ) : Prop where
  session : ∀ sid s, m.sessions.lookup sid = some s →
    R.sessionAt m.store sid = some (encodeSession s)
  online : ∀ sid s, m.sessions.lookup sid = some s →
    R.onlineAt m.store s.playerId = some (toStringU64 s.sessionId)
  noSession : ∀ sid, m.sessions.lookup sid = none → R.sessionAt m.store sid = none
  noOnline : ∀ pid, (∀ sid s, m.sessions.lookup sid = some s → s.playerId ≠ pid) →
    R.onlineAt m.store pid = none

/-- The same, look-up by look-up. -/
structure Copy (R : RedisView σ) (m : SessionManager σ) : Prop where
  session : ∀ sid, R.sessionAt m.store sid = (m.sessions.lookup sid).map encodeSession
  online : ∀ pid, R.onlineAt m.store pid = (m.playerMap.lookup pid).map toStringU64

variable {R : RedisView σ} {m m' : SessionManager σ}

theorem mirrors_iff_copy (ht : Tables m) : Mirrors R m ↔ Copy R m := by
  constructor
  · intro h
    refine ⟨?_, ?_⟩
    · intro sid
      rcases hs : m.sessions.lookup sid with - | s
      · exact h.noSession sid hs
      · exact h.session sid s hs
    · intro pid
      rcases hp : m.playerMap.lookup pid with - | sid
      · apply h.noOnline
        rintro sid s hs rfl
        cases hp.symm.trans (ht.players.lookup hs)
      · -- the entry of a player is of a session of theirs
        obtain ⟨s, hs, rfl⟩ := ht.players.sound pid sid hp
        rw [h.online sid s hs, ht.own sid s hs, Option.map_some]
  · intro h
    refine ⟨?_, ?_, ?_, ?_⟩
    · intro sid s hs
      rw [h.session, hs, Option.map_some]
    · intro sid s hs
      rw [h.online, ht.players.lookup hs, Option.map_some, ht.own sid s hs]
    · intro sid hs
      rw [h.session, hs, Option.map_none]
    · intro pid hnone
      rw [h.online]
      rcases hp : m.playerMap.lookup pid with - | sid
      · rfl
      · obtain ⟨s, hs, hpid⟩ := ht.players.sound pid sid hp
        exact absurd hpid (hnone sid s hs)

/-! ### Operations that write through -/

theorem Copy.store (h : Copy R m) {st : σ} (hst : R.SameKeys m.store st) :
    Copy R { m with store := st } where
  session := fun sid => (congrFun hst.1 sid).trans (h.session sid)
  online := fun pid => (congrFun hst.2 pid).trans (h.online pid)

theorem sessionAt_saveToRedis (s : Session) (st : σ) (a : SessionId) :
    R.sessionAt (saveToRedis s st) a =
      if a = s.sessionId then some (encodeSession s) else R.sessionAt st a := by
  rw [saveToRedis, RedisView.sessionAt_setOnline, RedisView.sessionAt_setSession]

theorem onlineAt_saveToRedis (s : Session) (st : σ) (a : PlayerId) :
    R.onlineAt (saveToRedis s st) a =
      if a = s.playerId then some (toStringU64 s.sessionId) else R.onlineAt st a := by
  rw [saveToRedis, RedisView.onlineAt_setOnline, RedisView.onlineAt_setSession]

/-- **Saving a session** under its id and for its player. -/
theorem Copy.save (ht : Tables m) (h : Copy R m) {sid : SessionId} {s q : Session}
    (hs : m.sessions.lookup sid = some s) (hid : q.sessionId = s.sessionId)
    (hp : q.playerId = s.playerId) : Copy R (m.save sid q) where
  session := by
    intro a
    show R.sessionAt (saveToRedis q m.store) a = ((m.sessions.insert sid q).lookup a).map _
    rw [sessionAt_saveToRedis, hid, ht.own sid s hs, Finmap.lookup_insert_eq, h.session]
    split
    · rfl
    · rfl
  online := by
    intro pid
    show R.onlineAt (saveToRedis q m.store) pid = (m.playerMap.lookup pid).map _
    rw [onlineAt_saveToRedis, hp, hid, ht.own sid s hs, h.online]
    split
    · rename_i heq
      rw [heq, ht.players.lookup hs, Option.map_some]
    · rfl

theorem Copy.dropSession (h : Copy R m) {sid : SessionId} {s : Session}
    (hs : m.sessions.lookup sid = some s) : Copy R (m.dropSession sid s) where
  session := by
    intro a
    show R.sessionAt (m.removeFromRedis sid) a = ((m.sessions.erase sid).lookup a).map _
    rw [removeFromRedis, hs, RedisView.sessionAt_delSession, RedisView.sessionAt_delOnline,
      Finmap.lookup_erase_eq, h.session]
    split
    · rfl
    · rfl
  online := by
    intro pid
    show R.onlineAt (m.removeFromRedis sid) pid = ((m.playerMap.erase s.playerId).lookup pid).map _
    rw [removeFromRedis, hs, RedisView.onlineAt_delSession, RedisView.onlineAt_delOnline,
      Finmap.lookup_erase_eq, h.online]
    split
    · rfl
    · rfl

theorem Copy.createSession (h : Copy R m) (connId : ConnectionId) (player : PlayerRecord)
    (sid : SessionId) (now : ℤ) : Copy R (m.createSession connId player sid now) where
  session := by
    intro a
    show R.sessionAt (Storage.recordLogin player.id (saveToRedis _ m.store)) a =
      ((m.sessions.insert sid _).lookup a).map _
    rw [(RedisView.sameKeys_of_strings (R.recordLogin _ _).1).1, sessionAt_saveToRedis,
      Finmap.lookup_insert_eq, h.session]
    -- the new session is the one the key of its id holds
    by_cases heq : a = sid
    · rw [if_pos heq]
      exact if_pos heq
    · rw [if_neg heq]
      exact if_neg heq
  online := by
    intro pid
    show R.onlineAt (Storage.recordLogin player.id (saveToRedis _ m.store)) pid =
      ((m.playerMap.insert player.id sid).lookup pid).map _
    rw [(RedisView.sameKeys_of_strings (R.recordLogin _ _).1).2, onlineAt_saveToRedis,
      Finmap.lookup_insert_eq, h.online]
    by_cases heq : pid = player.id
    · rw [if_pos heq]
      exact if_pos heq
    · rw [if_neg heq]
      exact if_neg heq

theorem Copy.setState (ht : Tables m) (h : Copy R m) (sid : SessionId) (newState : SessionState) :
    Copy R (m.setState sid newState) := by
  unfold SessionManager.setState
  split
  · exact h
  · rename_i s hs
    apply h.save ht hs <;> rfl

theorem Copy.setCurrentRoom (ht : Tables m) (h : Copy R m) (sid : SessionId) (r : RoomId) :
    Copy R (m.setCurrentRoom sid r) := by
  unfold SessionManager.setCurrentRoom
  split
  · exact h
  · rename_i s hs
    apply h.save ht hs <;> rfl

/-- The encoding does not tell when the session was last active. -/
theorem Copy.heartbeat (h : Copy R m) (sid : SessionId) (now : ℤ) :
    Copy R (m.heartbeat sid now) := by
  unfold SessionManager.heartbeat
  split
  · exact h
  · rename_i s hs
    refine ⟨?_, h.online⟩
    intro a
    show R.sessionAt m.store a = ((m.sessions.insert sid _).lookup a).map _
    rw [Finmap.lookup_insert_eq, h.session]
    split
    · rename_i heq
      rw [heq, hs]
      rfl
    · rfl

theorem Copy.markDisconnected (ht : Tables m) (h : Copy R m) (connId : ConnectionId) (now : ℤ) :
    Copy R (m.markDisconnected connId now) := by
  unfold SessionManager.markDisconnected
  split
  · exact h
  · split
    · exact h
    · rename_i s hs
      apply h.save ht hs <;> rfl

theorem Copy.logout (h : Copy R m) (sid : SessionId) : Copy R (m.logout sid) := by
  unfold SessionManager.logout
  split
  · exact h
  · rename_i s hs
    exact h.dropSession hs

theorem Copy.cleanupExpired (h : Copy R m) (now : ℤ) (order : List SessionId) :
    Copy R (m.cleanupExpired now order) :=
  cleanupExpired_induction (fun _ _ _ hs h => h.dropSession hs) h now order

theorem Copy.tryReconnect (ht : Tables m) (h : Copy R m) (sid : SessionId)
    (newConnId : ConnectionId) (now restored : ℤ) :
    Copy R (m.tryReconnect sid newConnId now restored).1 := by
  rcases tryReconnect_cases m sid newConnId now restored with
    ⟨-, _, -, heq⟩ | ⟨s, hs, -, ⟨-, heq⟩ | ⟨-, heq⟩⟩
  · rwa [heq]
  · rw [heq]
    exact h.dropSession hs
  · rw [heq]
    -- the connection's entry is in neither copy
    obtain ⟨hsession, honline⟩ := h.save ht hs (q := reconnected s newConnId restored) rfl rfl
    exact ⟨hsession, honline⟩

theorem Copy.kickDuplicate (ht : Tables m) (h : Copy R m) (pid : PlayerId) :
    Copy R (m.kickDuplicate pid).1 := by
  rcases kickDuplicate_eq ht pid with ⟨-, heq⟩ | ⟨old, s, -, hs, -, heq⟩
  · rwa [heq]
  · rw [heq]
    exact h.dropSession hs

/-! ### The setter that does not -/

/-- The encoding ends in the match mode. -/
theorem encodeSession_matchMode (s : Session) (mode : ℤ) :
    encodeSession { s with matchMode := mode } = encodeSession s ↔ s.matchMode = mode := by
  constructor
  · intro h
    have hlist := congrArg String.toList h
    -- cancel what comes before the mode
    simp only [encodeSession, String.toList_append] at hlist
    exact (Int.repr_inj.mp (String.toList_inj.mp (List.append_cancel_left hlist))).symm
  · rintro rfl
    rfl

theorem copy_setMatchMode_iff (h : Copy R m) (sid : SessionId) (mode : ℤ) :
    Copy R (m.setMatchMode sid mode) ↔
      ∀ s, m.sessions.lookup sid = some s → s.matchMode = mode := by
  rcases hs : m.sessions.lookup sid with - | s
  · simp only [SessionManager.setMatchMode, hs, reduceCtorEq, false_implies, implies_true, iff_true]
    exact h
  · have hmode : (∀ s', some s = some s' → s'.matchMode = mode) ↔ s.matchMode = mode :=
      ⟨fun hall => hall s rfl, fun heq s' hs' => Option.some.inj hs' ▸ heq⟩
    rw [hmode, ← encodeSession_matchMode]
    simp only [SessionManager.setMatchMode, hs]
    -- the key keeps the old encoding, so it must be the new one, too
    constructor
    · intro hcopy
      have hsid := hcopy.session sid
      change R.sessionAt m.store sid = ((m.sessions.insert sid _).lookup sid).map _ at hsid
      rw [Finmap.lookup_insert, h.session, hs] at hsid
      exact (Option.some.inj hsid).symm
    · intro heq
      refine ⟨?_, h.online⟩
      intro a
      show R.sessionAt m.store a = ((m.sessions.insert sid _).lookup a).map _
      rw [Finmap.lookup_insert_eq, h.session]
      by_cases ha : a = sid
      · rw [if_pos ha, ha, hs]
        exact congrArg some heq.symm
      · rw [if_neg ha]

/-! ### One operation -/

/-- No match mode is changed. -/
def KeepsSessionMode (m : SessionManager σ) : Op → Prop
  | .setMatchMode sid mode => ∀ s, m.sessions.lookup sid = some s → s.matchMode = mode
  | _ => True

def KeepsMode (m : MatchManager σ) : MatchOp → Prop
  | .session op => KeepsSessionMode m.sessions op
  | .joinQueue pid mode => ∀ s, m.sessions.getByPlayer pid = some s → s.matchMode = mode
  | .leaveQueue pid => ∀ s, m.sessions.getByPlayer pid = some s → s.matchMode = 0
  | _ => True

/-- Setting the mode of the session of a player. -/
theorem copy_setMode_iff (ht : Tables m) (h : Copy R m) {pid : PlayerId} {s : Session}
    (hs : m.getByPlayer pid = some s) (newState : SessionState) (mode : ℤ) :
    Copy R ((m.setState s.sessionId newState).setMatchMode s.sessionId mode) ↔
      s.matchMode = mode := by
  have hlook := (lookup_of_getByPlayer ht hs).1
  have hset : (m.setState s.sessionId newState).sessions.lookup s.sessionId =
      some { s with state := newState } := by
    rw [SessionManager.setState, hlook]
    exact Finmap.lookup_insert _
  rw [copy_setMatchMode_iff (h.setState ht s.sessionId newState), hset]
  constructor
  · exact fun hall => hall { s with state := newState } rfl
  · rintro heq s' hs'
    obtain rfl := Option.some.inj hs'
    exact heq

theorem copy_login (ht : Tables m) (h : Copy R m) {connId : ConnectionId}
    {username password : String} {sid : SessionId} {now : ℤ}
    (hstep : m.step (.login connId username password sid now) = some m') : Copy R m' := by
  rcases login_cases hstep with ⟨msg, st, hauth, rfl⟩ | ⟨player, st, hauth, rfl⟩
  · exact h.store (RedisView.lookups_sameKeys.authenticate hauth)
  · have ht' : Tables ({ m with store := st } : SessionManager σ) := ⟨ht.own, ht.players, ht.conns⟩
    exact ((h.store (RedisView.lookups_sameKeys.authenticate hauth)).kickDuplicate ht' player.id).createSession
      connId player sid now

theorem copy_session_iff (ht : Tables m) (h : Copy R m) {op : Op} (hstep : m.step op = some m') :
    Copy R m' ↔ KeepsSessionMode m op := by
  cases op with
  | setMatchMode sid mode =>
    obtain rfl := Option.some.inj hstep
    exact copy_setMatchMode_iff h sid mode
  | login => exact iff_of_true (copy_login ht h hstep) trivial
  | logout sid =>
    obtain rfl := Option.some.inj hstep
    exact iff_of_true (h.logout sid) trivial
  | heartbeat sid now =>
    obtain rfl := Option.some.inj hstep
    exact iff_of_true (h.heartbeat sid now) trivial
  | setState sid newState =>
    obtain rfl := Option.some.inj hstep
    exact iff_of_true (h.setState ht sid newState) trivial
  | setCurrentRoom sid r =>
    obtain rfl := Option.some.inj hstep
    exact iff_of_true (h.setCurrentRoom ht sid r) trivial
  | cleanupExpired now order =>
    obtain ⟨-, heq⟩ := Option.ite_none_right_eq_some.mp hstep
    obtain rfl := Option.some.inj heq
    exact iff_of_true (h.cleanupExpired now order) trivial
  | markDisconnected connId now =>
    obtain rfl := Option.some.inj hstep
    exact iff_of_true (h.markDisconnected ht connId now) trivial
  | tryReconnect sid newConnId now restored =>
    obtain rfl := Option.some.inj hstep
    exact iff_of_true (h.tryReconnect ht sid newConnId now restored) trivial

theorem copy_joinQueue_iff (ht : Tables m) (h : Copy R m) {pid : PlayerId} {mode err : ℤ}
    (hjoin : GameServer.joinQueue m pid mode = some (m', err)) :
    Copy R m' ↔ ∀ s, m.getByPlayer pid = some s → s.matchMode = mode := by
  obtain ⟨s, hs, hrest⟩ := Option.bind_eq_some_iff.mp hjoin
  obtain ⟨s', hs', heq⟩ := Option.map_eq_some_iff.mp hrest
  obtain ⟨rfl, -⟩ := Prod.mk.injEq .. ▸ heq
  have hs₀ : m.getByPlayer pid = some s := hs
  have hpushed := h.store (RedisView.sameKeys_pushMatchQueue mode pid m.store)
  have ht' : Tables ({ m with store := pushMatchQueue mode pid m.store } : SessionManager σ) :=
    ⟨ht.own, ht.players, ht.conns⟩
  -- the session found the second time is the one found the first time
  have hid : s'.sessionId = s.sessionId := by
    obtain ⟨hlook, rfl⟩ := lookup_of_getByPlayer ht' hs
    have ht'' := (quiet_setState { m with store := pushMatchQueue mode s.playerId m.store }
      s.sessionId .matching).tables ht'
    obtain ⟨hlook', hp⟩ := lookup_of_getByPlayer ht'' hs'
    have hentry := ht''.players.lookup hlook'
    rw [hp, SessionManager.setState, hlook] at hentry
    exact Option.some.inj (hentry.symm.trans (ht'.players.lookup hlook))
  rw [hid, copy_setMode_iff ht' hpushed hs]
  constructor
  · intro hmode q hq
    obtain rfl := Option.some.inj (hs₀.symm.trans hq)
    exact hmode
  · exact fun hall => hall s hs₀

theorem copy_leaveQueue_iff (ht : Tables m) (h : Copy R m) (pid : PlayerId) :
    Copy R (GameServer.leaveQueue m pid) ↔ ∀ s, m.getByPlayer pid = some s → s.matchMode = 0 := by
  rcases hs : m.getByPlayer pid with - | s
  · rw [GameServer.leaveQueue, hs]
    exact iff_of_true h (by simp)
  · rw [GameServer.leaveQueue, hs]
    show Copy R ((m.setState s.sessionId .inLobby).setMatchMode s.sessionId 0) ↔ _
    rw [copy_setMode_iff ht h hs]
    constructor
    · rintro hmode q hq
      obtain rfl := Option.some.inj hq
      exact hmode
    · exact fun hall => hall s rfl

/-- **One step.**  From a state that Redis mirrors, a step leads to one
exactly if it changes no match mode. -/
theorem mirror_step_iff {m m' : MatchManager σ} (ht : Tables m.sessions)
    (h : Mirrors R m.sessions) {a : MatchOp × List MatchNotify}
    (hstep : MatchManager.Steps m a m') : Mirrors R m'.sessions ↔ KeepsMode m a.1 := by
  rw [mirrors_iff_copy (MatchManager.tables_step ht hstep)]
  rw [mirrors_iff_copy ht] at h
  obtain ⟨op, out⟩ := a
  obtain ⟨hstep, -⟩ := hstep
  cases op with
  | session op =>
    obtain ⟨s, hs, heq⟩ := Option.map_eq_some_iff.mp hstep
    obtain ⟨rfl, -⟩ := Prod.mk.injEq .. ▸ heq
    exact copy_session_iff ht h hs
  | joinQueue pid mode =>
    obtain ⟨m₁, hjoin, heq⟩ := Option.map_eq_some_iff.mp hstep
    obtain ⟨rfl, -⟩ := Prod.mk.injEq .. ▸ heq
    obtain ⟨⟨s, err⟩, hs, rfl⟩ := Option.map_eq_some_iff.mp hjoin
    exact copy_joinQueue_iff ht h hs
  | leaveQueue pid =>
    obtain ⟨rfl, -⟩ := Prod.mk.injEq .. ▸ Option.some.inj hstep
    exact copy_leaveQueue_iff ht h pid
  | tryMatch mode =>
    refine iff_of_true ?_ trivial
    dsimp only [MatchManager.step] at hstep
    split at hstep
    · obtain ⟨rfl, -⟩ := Prod.mk.injEq .. ▸ Option.some.inj hstep
      exact h
    · cases hstep
  | advance =>
    refine iff_of_true ?_ trivial
    cases MatchManager.advances hstep with
    | check => exact h.store (RedisView.sameKeys_matchQueueSize _ _)
    | full => exact h
    | pop phase pop => exact h.store (RedisView.sameKeys_popMatchQueue pop)
    | @seat _ _ _ _ pid st s room phase pop =>
      have ht' := (Quiet.store m.sessions st).tables ht
      -- both setters of a seating save the session
      have hstored := h.store (RedisView.sameKeys_popMatchQueue pop)
      exact (hstored.setState ht' _ _).setCurrentRoom ((quiet_setState _ _ _).tables ht') _ _

theorem mirrors_init {store : σ} (hempty : R.strings store = ∅) : Mirrors R (init store) := by
  rw [mirrors_iff_copy (tables_init store)]
  refine ⟨?_, ?_⟩
  · intro sid
    rw [RedisView.sessionAt, init, hempty]
    rfl
  · intro pid
    rw [RedisView.onlineAt, init, hempty]
    rfl

/-- **The mirror.**  The runs in which Redis always mirrors the sessions are
those that never change a match mode. -/
theorem mirrors_run_iff (R : RedisView σ) {store : σ} (hempty : R.strings store = ∅)
    {roomSize : ℤ} {as : List (MatchOp × List MatchNotify)} {m : MatchManager σ} :
    Transition.Run (fun m a m' => MatchManager.Steps m a m' ∧ Mirrors R m'.sessions)
        (MatchManager.init store roomSize) as m ↔
      Transition.Run (fun m a m' => MatchManager.Steps m a m' ∧ KeepsMode m a.1)
        (MatchManager.init store roomSize) as m :=
  Transition.Run.target_congr (J := fun m : MatchManager σ => Tables m.sessions)
    (B := fun m : MatchManager σ => Mirrors R m.sessions)
    (fun _ _ _ ht hstep => MatchManager.tables_step ht hstep)
    (fun _ _ _ ht h hstep => mirror_step_iff ht h hstep) (tables_init store) (mirrors_init hempty)

/-- A login, and a match in mode 1. -/
def joinOther : List MatchOp := [.session (.login 1 "ann" "secret" 11 0), .joinQueue 1 1]

/-- The key of the session keeps the mode 0. -/
theorem stale_joinOther : ∃ as m,
    Transition.Run MatchManager.Steps (MatchManager.init ({} : MemoryStore) 2) as m ∧
      ¬ Mirrors MemoryStore.redisView m.sessions := by
  have hboth : ((MatchManager.init ({} : MemoryStore) 2).exec joinOther).map (fun r =>
      ((r.1.sessions.sessions.lookup 11).map encodeSession,
        MemoryStore.redisView.sessionAt r.1.sessions.store 11)) =
      some (some "3|1|1|ann|0|1", some "3|1|1|ann|0|0") := by decide +kernel
  obtain ⟨⟨m, as⟩, hexec, heq⟩ := Option.map_eq_some_iff.mp hboth
  obtain ⟨hencoded, hkey⟩ := Prod.mk.injEq .. ▸ heq
  refine ⟨as, m, MatchManager.run_of_exec hexec, fun h => ?_⟩
  obtain ⟨s, hs, hs'⟩ := Option.map_eq_some_iff.mp hencoded
  have hsession := h.session 11 s hs
  rw [hkey, hs'] at hsession
  exact absurd hsession (by decide +kernel)

theorem mirrors_run_iff_joinOther : ∃ as m,
    Transition.Run MatchManager.Steps (MatchManager.init ({} : MemoryStore) 2) as m ∧
      (Transition.Run (fun m a m' => MatchManager.Steps m a m' ∧
          Mirrors MemoryStore.redisView m'.sessions) (MatchManager.init {} 2) as m ↔
        Transition.Run (fun m a m' => MatchManager.Steps m a m' ∧ KeepsMode m a.1)
          (MatchManager.init {} 2) as m) := by
  obtain ⟨⟨m, as⟩, hexec⟩ := Option.isSome_iff_exists.mp
    (show ((MatchManager.init ({} : MemoryStore) 2).exec joinOther).isSome = true by decide +kernel)
  exact ⟨as, m, MatchManager.run_of_exec hexec, mirrors_run_iff MemoryStore.redisView rfl⟩

end MiniArena
