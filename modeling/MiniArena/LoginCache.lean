/-
MiniArena/LoginCache.lean

The player cache of `login`.

MySQL is seen as a table of players: a state with a query and an insertion,
which no Redis command touches (`MysqlView`).  On the table alone, a login
looks the player up and registers a new one (`findIn`).  `findPlayer` does
just that whatever the cache says (`findPlayer_eq`): a cached id leads to one
more query of the same row, and is never used.  So two servers with the same
sessions and the same table log a player in alike (`login_transparent`).
-/
import MiniArena.RedisView

namespace MiniArena

/-- A reading of the stores as a table of players, in a state `M`.  The query
and the insertion are those of MySQL, whatever its collation. -/
structure MysqlView (σ M : Type) [Storage σ] where
  table : σ → M
  find : M → String → Option PlayerRecord
  insert : M → String → String → UInt64 × M
  getPlayer : ∀ username st, (Storage.getPlayer username st).1 = find (table st) username ∧
    table (Storage.getPlayer username st).2 = table st
  createPlayer : ∀ username password st,
    (Storage.createPlayer username password st).1 = (insert (table st) username password).1 ∧
      table (Storage.createPlayer username password st).2
        = (insert (table st) username password).2
  recordLogin : ∀ playerId st, table (Storage.recordLogin playerId st) = table st
  set : ∀ key value st, table (Storage.set key value st).2 = table st
  setEx : ∀ key seconds value st, table (Storage.setEx key seconds value st).2 = table st
  get : ∀ key st, table (Storage.get key st).2 = table st
  del : ∀ key st, table (Storage.del key st).2 = table st

/-- The store kept in memory: the rows in the order of their insertion. -/
def MemoryStore.mysqlView : MysqlView MemoryStore (List PlayerRecord) where
  table := MemoryStore.players
  find rows username := rows.find? fun p => p.username == username
  insert rows username password :=
    (UInt64.ofNat (rows.length + 1), rows ++ [⟨UInt64.ofNat (rows.length + 1), username, password⟩])
  getPlayer _ _ := ⟨rfl, rfl⟩
  createPlayer _ _ _ := ⟨rfl, rfl⟩
  recordLogin _ _ := rfl
  set _ _ _ := rfl
  setEx _ _ _ _ := rfl
  get _ _ := rfl
  del _ _ := rfl

namespace MysqlView

variable {σ M : Type} [Storage σ] (V : MysqlView σ M)

/-- Step 1 of `login` on the table alone. -/
def findIn (rows : M) (username password : String) : Except String PlayerRecord × M :=
  match V.find rows username with
  | some p => (.ok p, rows)
  | none =>
      let r := V.insert rows username password
      if r.1 = 0 then (.error "Failed to create player", r.2)
      else
        match V.find r.2 username with
        | none => (.error "Player creation failed", r.2)
        | some p => (.ok p, r.2)

variable {st : σ} {username password : String}

theorem table_cachePlayer (username : String) (pid : PlayerId) (st : σ) :
    V.table (RedisClient.cachePlayer username pid st) = V.table st := V.set _ _ _

theorem table_saveToRedis (s : Session) (st : σ) :
    V.table (SessionManager.saveToRedis s st) = V.table st := by
  rw [SessionManager.saveToRedis, RedisClient.setOnline, V.set, RedisClient.setSession, V.setEx]

theorem table_removeFromRedis (m : SessionManager σ) (sid : SessionId) :
    V.table (m.removeFromRedis sid) = V.table m.store := by
  rw [SessionManager.removeFromRedis, RedisClient.delSession, V.del]
  split
  · rfl
  · rw [RedisClient.delOnline, V.del]

end MysqlView

/-- The `player:` entry of the username, if Redis answers with one, is a decimal id. -/
def DecimalCache {σ : Type} [Storage σ] (st : σ) (username : String) : Prop :=
  ∀ text, (Storage.get ("player:" ++ username) st).1 = some text → ∃ id, text = toStringU64 id

namespace SessionManager

variable {σ M : Type} [Storage σ] {V : MysqlView σ M} {st : σ} {username password : String}

theorem getCachedPlayer_eq (V : MysqlView σ M) (hcache : DecimalCache st username) :
    ∃ cachedPid st', RedisClient.getCachedPlayer username st = some (cachedPid, st') ∧
      V.table st' = V.table st := by
  have htable := V.get ("player:" ++ username) st
  have hdecimal := hcache
  unfold DecimalCache at hdecimal
  unfold RedisClient.getCachedPlayer
  rcases hget : Storage.get ("player:" ++ username) st with ⟨- | text, st'⟩
  · rw [hget] at htable
    exact ⟨none, st', rfl, htable⟩
  · rw [hget] at htable hdecimal
    obtain ⟨id, rfl⟩ := hdecimal text rfl
    exact ⟨some id, st', by dsimp only; rw [stoull_toStringU64]; rfl, htable⟩

/-- The block of `login` under `if (!player)`. -/
def queryOrCreate (st : σ) (username password : String) : Except String PlayerRecord × σ :=
  match Storage.getPlayer username st with
  | (some p, st) => (.ok p, RedisClient.cachePlayer username p.id st)
  | (none, st) =>
      let (pid, st) := Storage.createPlayer username password st
      if pid = 0 then (.error "Failed to create player", st)
      else
        match Storage.getPlayer username (RedisClient.cachePlayer username pid st) with
        | (none, st) => (.error "Player creation failed", st)
        | (some p, st) => (.ok p, st)

theorem queryOrCreate_eq (V : MysqlView σ M) (st : σ) (username password : String) :
    (queryOrCreate st username password).1 = (V.findIn (V.table st) username password).1 ∧
      V.table (queryOrCreate st username password).2
        = (V.findIn (V.table st) username password).2 := by
  unfold queryOrCreate
  obtain ⟨hfind, htable⟩ := V.getPlayer username st
  rcases hget : Storage.getPlayer username st with ⟨- | p, st₁⟩
  · rw [hget] at hfind htable
    obtain ⟨hid, hrows⟩ := V.createPlayer username password st₁
    rcases hnew : Storage.createPlayer username password st₁ with ⟨pid, st₂⟩
    rw [hnew, htable] at hid hrows
    simp only [hnew]
    obtain rfl : pid = _ := hid
    rw [MysqlView.findIn, ← hfind]
    dsimp only
    by_cases hzero : (V.insert (V.table st) username password).1 = 0
    · rw [if_pos hzero, if_pos hzero]
      exact ⟨rfl, hrows⟩
    · rw [if_neg hzero, if_neg hzero]
      obtain ⟨hfind', htable'⟩ := V.getPlayer username
        (RedisClient.cachePlayer username (V.insert (V.table st) username password).1 st₂)
      rw [V.table_cachePlayer, hrows] at hfind' htable'
      rcases hlast : Storage.getPlayer username (RedisClient.cachePlayer username
        (V.insert (V.table st) username password).1 st₂) with ⟨- | p, st₃⟩
      · rw [hlast] at hfind' htable'
        rw [← hfind']
        exact ⟨rfl, htable'⟩
      · rw [hlast] at hfind' htable'
        rw [← hfind']
        exact ⟨rfl, htable'⟩
  · rw [hget] at hfind htable
    rw [MysqlView.findIn, ← hfind]
    exact ⟨rfl, (V.table_cachePlayer _ _ _).trans htable⟩

/-- **The cache does not matter**: of the stores, only the table does. -/
theorem findPlayer_eq (V : MysqlView σ M) (hcache : DecimalCache st username)
    (password : String) :
    ∃ st', findPlayer st username password
        = some ((V.findIn (V.table st) username password).1, st') ∧
      V.table st' = (V.findIn (V.table st) username password).2 := by
  obtain ⟨cachedPid, st₁, hcached, htable₁⟩ := getCachedPlayer_eq V hcache
  have hquery : ∀ st, V.table st = V.table st₁ →
      ∃ st', queryOrCreate st username password
          = ((V.findIn (V.table st₁) username password).1, st') ∧
        V.table st' = (V.findIn (V.table st₁) username password).2 := by
    intro st htable
    obtain ⟨hresult, hrows⟩ := queryOrCreate_eq V st username password
    rw [htable] at hresult hrows
    exact ⟨_, Prod.ext hresult rfl, hrows⟩
  rw [findPlayer, hcached, Option.map_some, ← htable₁]
  cases cachedPid with
  | none =>
    obtain ⟨st', heq, htable⟩ := hquery st₁ rfl
    exact ⟨st', congrArg some heq, htable⟩
  | some pid =>
    -- the query that a cached id leads to
    obtain ⟨hfind, htable⟩ := V.getPlayer username st₁
    simp only [Option.isSome_some, if_true]
    rcases hget : Storage.getPlayer username st₁ with ⟨- | p, st₂⟩
    · rw [hget] at htable
      obtain ⟨st', heq, htable'⟩ := hquery st₂ htable
      exact ⟨st', congrArg some heq, htable'⟩
    · rw [hget] at hfind htable
      rw [MysqlView.findIn, ← hfind]
      exact ⟨st₂, rfl, htable⟩

/-! ### A login -/

/-- Two managers with the same sessions, maps and table of players. -/
structure SameData (V : MysqlView σ M) (m m' : SessionManager σ) : Prop where
  sessions : m.sessions = m'.sessions
  connMap : m.connMap = m'.connMap
  playerMap : m.playerMap = m'.playerMap
  hasSendCb : m.hasSendCb = m'.hasSendCb
  table : V.table m.store = V.table m'.store

variable {m m' : SessionManager σ}

theorem SameData.kickDuplicate (h : SameData V m m') (pid : PlayerId) :
    (m.kickDuplicate pid).2 = (m'.kickDuplicate pid).2 ∧
      SameData V (m.kickDuplicate pid).1 (m'.kickDuplicate pid).1 := by
  unfold SessionManager.kickDuplicate
  rw [← h.playerMap, ← h.sessions]
  split
  · exact ⟨rfl, h⟩
  · rename_i oldSid _
    split
    · exact ⟨rfl, ⟨rfl, h.connMap, rfl, h.hasSendCb, h.table⟩⟩
    · rename_i s _
      have hnotice : m.kickNotice s.connId = m'.kickNotice s.connId := by
        rw [kickNotice, kickNotice, h.hasSendCb]
      have htable : V.table (m.removeFromRedis oldSid) = V.table (m'.removeFromRedis oldSid) := by
        rw [V.table_removeFromRedis, V.table_removeFromRedis, h.table]
      have hconns : m.connMap.erase s.connId = m'.connMap.erase s.connId := by rw [h.connMap]
      exact ⟨hnotice, ⟨rfl, hconns, rfl, h.hasSendCb, htable⟩⟩

theorem SameData.createSession (h : SameData V m m') (connId : ConnectionId)
    (player : PlayerRecord) (sid : SessionId) (now : ℤ) :
    SameData V (m.createSession connId player sid now)
      (m'.createSession connId player sid now) where
  sessions := by
    show m.sessions.insert sid _ = m'.sessions.insert sid _
    rw [h.sessions]
  connMap := by
    show m.connMap.insert connId sid = m'.connMap.insert connId sid
    rw [h.connMap]
  playerMap := by
    show m.playerMap.insert player.id sid = m'.playerMap.insert player.id sid
    rw [h.playerMap]
  hasSendCb := h.hasSendCb
  table := by
    show V.table (Storage.recordLogin _ _) = V.table (Storage.recordLogin _ _)
    rw [V.recordLogin, V.recordLogin, V.table_saveToRedis, V.table_saveToRedis, h.table]

/-- **The cache is transparent.**  Two session managers have the same sessions
and the same table of players; their caches hold any decimal ids under the
username, or nothing.  A login ends in the same result, the same kick
messages, the same sessions and maps and the same table. -/
theorem login_transparent (V : MysqlView σ M) (h : SameData V m m')
    (hcache : DecimalCache m.store username) (hcache' : DecimalCache m'.store username)
    (connId : ConnectionId) (password : String) (sid : SessionId) (now : ℤ) :
    ∃ r r', m.login connId username password sid now = some r ∧
      m'.login connId username password sid now = some r' ∧ r.2 = r'.2 ∧
      SameData V r.1 r'.1 := by
  obtain ⟨st, hfind, htable⟩ := findPlayer_eq V hcache password
  obtain ⟨st', hfind', htable'⟩ := findPlayer_eq V hcache' password
  rw [← h.table] at hfind' htable'
  have hstart : SameData V { m with store := st } { m' with store := st' } :=
    ⟨h.sessions, h.connMap, h.playerMap, h.hasSendCb, htable.trans htable'.symm⟩
  rw [login, login, authenticate, authenticate, hfind, hfind', Option.map_some, Option.map_some,
    Option.map_some, Option.map_some]
  rcases (V.findIn (V.table m.store) username password).1 with msg | player
  · exact ⟨_, _, rfl, rfl, rfl, hstart⟩
  · dsimp only
    by_cases hpassword : player.passwordHash ≠ password
    · rw [if_pos hpassword, if_pos hpassword]
      exact ⟨_, _, rfl, rfl, rfl, hstart⟩
    · rw [if_neg hpassword, if_neg hpassword]
      obtain ⟨hkicks, hkicked⟩ := hstart.kickDuplicate player.id
      exact ⟨_, _, rfl, rfl, Prod.ext rfl hkicks, hkicked.createSession connId player sid now⟩

/-- Player 1 is in the table; the cache of `staleCache` names another id. -/
def emptyCache : MemoryStore := { players := [⟨1, "ann", "secret"⟩] }

def staleCache : MemoryStore := RedisClient.cachePlayer "ann" 7 emptyCache

theorem login_transparent_staleCache :
    ∃ r r', ({ store := emptyCache } : SessionManager MemoryStore).login 1 "ann" "secret" 11 0
        = some r ∧
      ({ store := staleCache } : SessionManager MemoryStore).login 1 "ann" "secret" 11 0
        = some r' ∧ r.2 = r'.2 ∧ SameData MemoryStore.mysqlView r.1 r'.1 := by
  have hsame : SameData MemoryStore.mysqlView ({ store := emptyCache } : SessionManager MemoryStore)
      { store := staleCache } := ⟨rfl, rfl, rfl, rfl, rfl⟩
  refine login_transparent MemoryStore.mysqlView hsame ?_ ?_ 1 "secret" 11 0
  · intro text htext
    cases htext
  · intro text htext
    have hget : (Storage.get ("player:" ++ "ann") staleCache).1 = some (toStringU64 7) := by
      rw [staleCache, RedisClient.cachePlayer]
      simp [Storage.get, Storage.set]
    obtain rfl := Option.some.inj (hget.symm.trans htext)
    exact ⟨7, rfl⟩

end SessionManager

end MiniArena
