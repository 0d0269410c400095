/-
MiniArena/Storage.lean

The two data stores behind the server.

`Storage` is what the server relies on being there: the commands of a Redis
server and the queries of a MySQL server, with the outcomes `RedisClient`
and `MysqlClient` hand on (a failed command is one of the outcomes).
`σ` is the state of both, and whatever else decides an outcome;
`MemoryStore` is one in which every command succeeds.

`RedisClient` is the layer the game code calls: key names, decimal ids, and
`std::stoull` on the way back, which throws on text that is no number.
-/
import MiniArena.AoiGrid

namespace MiniArena

abbrev SessionId := UInt64

/-- Persistent player record. -/
structure PlayerRecord where
  id : UInt64
  username : String
  passwordHash : String
  deriving DecidableEq, Repr

class Storage (σ : Type) where
  set : String → String → σ → Bool × σ
  setEx : String → ℤ → String → σ → Bool × σ
  get : String → σ → Option String × σ
  del : String → σ → Bool × σ
  lpush : String → String → σ → ℤ × σ
  /-- `none` if the command does not return: a timeout of 0 waits for ever. -/
  brpop : String → ℤ → σ → Option (Option String × σ)
  llen : String → σ → ℤ × σ
  getPlayer : String → σ → Option PlayerRecord × σ
  /-- The new id, 0 if the query failed. -/
  createPlayer : String → String → σ → UInt64 × σ
  recordLogin : UInt64 → σ → σ
  saveBattleResult : UInt64 → ℕ → (kills deaths damageDealt damageTaken rank : ℤ) → σ → σ

/-! ### Stores kept in memory -/

/-- A Redis and a MySQL whose commands succeed, keys never expiring. -/
structure MemoryStore where
  strings : Finmap fun _ : String => String := ∅
  lists : Finmap fun _ : String => List String := ∅
  players : List PlayerRecord := []

namespace MemoryStore

def listAt (st : MemoryStore) (key : String) : List String := (st.lists.lookup key).getD []

instance : Storage MemoryStore where
  set key value st := (true, { st with strings := st.strings.insert key value })
  setEx key _ value st := (true, { st with strings := st.strings.insert key value })
  get key st := (st.strings.lookup key, st)
  del key st := (true, { st with strings := st.strings.erase key, lists := st.lists.erase key })
  lpush key value st :=
    ((st.listAt key).length + 1, { st with lists := st.lists.insert key (value :: st.listAt key) })
  brpop key _ st :=
    (st.listAt key).getLast?.map fun value =>
      (some value, { st with lists := st.lists.insert key (st.listAt key).dropLast })
  llen key st := ((st.listAt key).length, st)
  getPlayer username st := (st.players.find? fun p => p.username == username, st)
  createPlayer username password st :=
    let id := UInt64.ofNat (st.players.length + 1)
    (id, { st with players := st.players ++ [⟨id, username, password⟩] })
  recordLogin _ st := st
  saveBattleResult _ _ _ _ _ _ _ st := st

end MemoryStore

/-! ### Decimal text -/

/-- `std::to_string` of an unsigned 64-bit integer. -/
def toStringU64 (n : UInt64) : String := toString n.toNat

/-- `std::isspace` in the C locale. -/
def isSpace (c : Char) : Bool :=
  c == ' ' || c == '\t' || c == '\n' || c == '\r' || c == '\x0b' || c == '\x0c'

/-- The number of a string of digits. -/
def digitsValue (cs : List Char) : ℕ :=
  cs.foldl (fun n c => n * 10 + (c.toNat - '0'.toNat)) 0

/-- `std::stoull` in base 10: leading blanks, a sign, the longest run of
digits.  `none` where it throws. -/
def stoull (text : String) : Option UInt64 :=
  let cs := text.toList.dropWhile isSpace
  let (neg, cs) := match cs with
    | '-' :: rest => (true, rest)
    | '+' :: rest => (false, rest)
    | _ => (false, cs)
  let digits := cs.takeWhile Char.isDigit
  if digits = [] then none  -- std::invalid_argument
  else if 2 ^ 64 ≤ digitsValue digits then none  -- std::out_of_range
  else
    let n := UInt64.ofNat (digitsValue digits)
    some (if neg then 0 - n else n)

namespace RedisClient

variable {σ : Type} [Storage σ]

def makeKey (head : String) (id : UInt64) : String := head ++ ":" ++ toStringU64 id

/-! ### Sessions and online status -/

def setSession (sessionId : SessionId) (data : String) (st : σ) : σ :=
  (Storage.setEx (makeKey "session" sessionId) 3600 data st).2

def delSession (sessionId : SessionId) (st : σ) : σ :=
  (Storage.del (makeKey "session" sessionId) st).2

def setOnline (playerId : PlayerId) (sessionId : SessionId) (st : σ) : σ :=
  (Storage.set (makeKey "online" playerId) (toStringU64 sessionId) st).2

def delOnline (playerId : PlayerId) (st : σ) : σ :=
  (Storage.del (makeKey "online" playerId) st).2

/-! ### Player cache -/

def cachePlayer (username : String) (playerId : PlayerId) (st : σ) : σ :=
  (Storage.set ("player:" ++ username) (toStringU64 playerId) st).2

/-- The outer `none` is the exception of `std::stoull`. -/
def getCachedPlayer (username : String) (st : σ) : Option (Option PlayerId × σ) :=
  match Storage.get ("player:" ++ username) st with
  | (none, st) => some (none, st)
  | (some text, st) => (stoull text).map fun pid => (some pid, st)

/-! ### Match queue -/

def matchQueueKey (mode : ℤ) : String := "match_queue:" ++ toString mode

def pushMatchQueue (mode : ℤ) (playerId : PlayerId) (st : σ) : σ :=
  (Storage.lpush (matchQueueKey mode) (toStringU64 playerId) st).2

/-- The outer `none` is a command that does not return, or the exception of `std::stoull`. -/
def popMatchQueue (mode : ℤ) (st : σ) : Option (Option PlayerId × σ) :=
  (Storage.brpop (matchQueueKey mode) 0 st).bind fun r =>
    match r.1 with
    | none => some (none, r.2)
    | some text => (stoull text).map fun pid => (some pid, r.2)

/-- `static_cast<int>` of a 64-bit length keeps its low 32 bits. -/
def matchQueueSize (mode : ℤ) (st : σ) : ℤ × σ :=
  let r := Storage.llen (matchQueueKey mode) st
  (Int.bmod r.1 (2 ^ 32), r.2)

end RedisClient

end MiniArena
