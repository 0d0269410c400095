/-
MiniArena/LoginPayload.lean

A login as the robot client sees it: the `LoginResponse` the 1001 handler
fills in, its bytes, and the getters of `robot/frame.go` that read them.

The getters are one scan with different field numbers.  A scan goes from
field to field and stops at the first varint with its number, so on an
encoded message it finds what `WireFormat.firstVarint` finds
(`scan_encodeFields`).  What a client cannot find is the player id: the
handler never sets it.
-/
import MiniArena.BattleStart
import MiniArena.WireFormat

namespace MiniArena

open WireFormat

/-! ### The getters of the client -/

namespace Robot

/-- `none` is the panic of `payload[pos]`.  A Go `int` is a signed 64-bit number. -/
def parseVarint (payload : List UInt8) (pos : ℤ) : Option (BitVec 64 × ℤ) :=
  if pos < 0 then none
  else
    let (v, n) := decode 0 0 (payload.drop pos.toNat)
    some (v, pos + n)

/-- The loop of a getter.  `none` where it panics, or is still running after
`fuel` rounds. -/
def scan (num : ℤ) (payload : List UInt8) : (fuel : ℕ) → (pos : ℤ) → Option (BitVec 64)
  | 0, _ => none
  | fuel + 1, pos =>
      if pos < payload.length then
        (parseVarint payload pos).bind fun (tag, pos) =>
          let fieldNum := (tag >>> 3).toInt
          let wireType := (tag &&& 0x7).toInt
          if wireType = 0 then
            (parseVarint payload pos).bind fun (val, next) =>
              if fieldNum = num then some val else scan num payload fuel next
          else if wireType = 2 then
            (parseVarint payload pos).bind fun (length, next) =>
              scan num payload fuel (Int.bmod (next + length.toInt) (2 ^ 64))
          else some 0
      else some 0

/-- Each round starts at another position, or the loop never ends: a getter
that answers does so within one round more than there are bytes. -/
def getField (num : ℤ) (payload : List UInt8) : Option (BitVec 64) :=
  scan num payload (payload.length + 1) 0

def getErrorCode (payload : List UInt8) : Option ℤ :=
  (getField 1 payload).map fun val => (val.setWidth 32).toInt

def getSessionID (payload : List UInt8) : Option UInt64 :=
  (getField 2 payload).map UInt64.ofBitVec

def getPlayerID (payload : List UInt8) : Option UInt64 :=
  (getField 3 payload).map UInt64.ofBitVec

def getRoomID (payload : List UInt8) : Option UInt64 :=
  (getField 1 payload).map UInt64.ofBitVec

/-! ### Scanning an encoded message -/

variable {payload pre rest : List UInt8}

theorem parseVarint_at {n : ℕ} (h : payload = pre ++ (encode n ++ rest)) :
    parseVarint payload pre.length = some (BitVec.ofNat 64 n, ((pre ++ encode n).length : ℤ)) := by
  have hpos : ¬ (pre.length : ℤ) < 0 := by omega
  have hdrop : payload.drop pre.length = encode n ++ rest := by rw [h, List.drop_left]
  rw [parseVarint, if_neg hpos, Int.toNat_natCast, hdrop, decode_encode, List.length_append,
    Nat.cast_add]

theorem toInt_fieldNum {num typ : ℕ} (hnum : num < 2 ^ 60) (htyp : typ < 8) :
    (BitVec.ofNat 64 (num * 8 + typ) >>> 3).toInt = num := by
  have htag : (num * 8 + typ) % 2 ^ 64 = num * 8 + typ := Nat.mod_eq_of_lt (by omega)
  have hval : (BitVec.ofNat 64 (num * 8 + typ) >>> 3).toNat = num := by
    rw [BitVec.toNat_ushiftRight, BitVec.toNat_ofNat, htag, Nat.shiftRight_eq_div_pow]
    omega
  rw [BitVec.toInt_eq_toNat_of_lt (by rw [hval]; omega), hval]

theorem toInt_wireType {num typ : ℕ} (hnum : num < 2 ^ 60) (htyp : typ < 8) :
    (BitVec.ofNat 64 (num * 8 + typ) &&& 0x7).toInt = typ := by
  have htag : (num * 8 + typ) % 2 ^ 64 = num * 8 + typ := Nat.mod_eq_of_lt (by omega)
  have hval : (BitVec.ofNat 64 (num * 8 + typ) &&& 0x7).toNat = typ := by
    rw [BitVec.toNat_and, BitVec.toNat_ofNat, htag]
    calc (num * 8 + typ) &&& 7 = (num * 8 + typ) % 2 ^ 3 := Nat.and_two_pow_sub_one_eq_mod _ 3
      _ = typ := by omega
  rw [BitVec.toInt_eq_toNat_of_lt (by rw [hval]; omega), hval]

/-- One field: a varint with the number sought ends the scan. -/
theorem scan_varint {num k value fuel : ℕ} (hk : k < 2 ^ 60)
    (h : payload = pre ++ ((Field.varint k value).encode ++ rest)) :
    scan num payload (fuel + 1) pre.length
      = if k = num then some (BitVec.ofNat 64 value)
        else scan num payload fuel (pre ++ (Field.varint k value).encode).length := by
  have htag : payload = pre ++ (encode (k * 8 + 0) ++ (encode value ++ rest)) := by
    simpa [Field.encode] using h
  have hvalue : payload = (pre ++ encode (k * 8 + 0)) ++ (encode value ++ rest) := by
    simpa using htag
  have hin : (pre.length : ℤ) < payload.length := by
    have := (Field.varint k value).length_encode_pos
    rw [h, List.length_append, List.length_append]
    omega
  have hend : (pre ++ encode (k * 8 + 0)) ++ encode value
      = pre ++ (Field.varint k value).encode := by simp [Field.encode]
  rw [scan, if_pos hin, parseVarint_at htag]
  simp only [Option.bind_some, toInt_fieldNum hk (by norm_num : 0 < 8),
    toInt_wireType hk (by norm_num : 0 < 8), Nat.cast_zero, if_true, parseVarint_at hvalue, hend,
    Nat.cast_inj]

/-- One field: a run of bytes is passed over, in a payload that a Go slice can hold. -/
theorem scan_bytes {num k fuel : ℕ} {data : List UInt8} (hk : k < 2 ^ 60)
    (hlen : payload.length < 2 ^ 63)
    (h : payload = pre ++ ((Field.bytes k data).encode ++ rest)) :
    scan num payload (fuel + 1) pre.length
      = scan num payload fuel (pre ++ (Field.bytes k data).encode).length := by
  have htag : payload = pre ++ (encode (k * 8 + 2) ++ (encode data.length ++ (data ++ rest))) := by
    simpa [Field.encode] using h
  have hlength : payload
      = (pre ++ encode (k * 8 + 2)) ++ (encode data.length ++ (data ++ rest)) := by
    simpa using htag
  have hsize := congrArg List.length h
  rw [List.length_append, List.length_append] at hsize
  have hin : (pre.length : ℤ) < payload.length := by
    have := (Field.bytes k data).length_encode_pos
    omega
  have hdata : data.length ≤ (Field.bytes k data).encode.length := by
    rw [Field.encode, List.length_append]
    omega
  have hint : (BitVec.ofNat 64 data.length).toInt = data.length := by
    have hval : (BitVec.ofNat 64 data.length).toNat = data.length := by
      rw [BitVec.toNat_ofNat, Nat.mod_eq_of_lt (by omega)]
    rw [BitVec.toInt_eq_toNat_of_lt (by rw [hval]; omega), hval]
  have hend : (((pre ++ encode (k * 8 + 2)) ++ encode data.length).length : ℤ) + data.length
      = (pre ++ (Field.bytes k data).encode).length := by
    simp only [Field.encode, List.length_append]
    omega
  have hwrap : Int.bmod ((pre ++ (Field.bytes k data).encode).length : ℤ) (2 ^ 64)
      = (pre ++ (Field.bytes k data).encode).length := by
    rw [List.length_append]
    apply Int.bmod_eq_of_le <;> omega
  rw [scan, if_pos hin, parseVarint_at htag]
  simp only [Option.bind_some, toInt_wireType hk (by norm_num : 2 < 8), parseVarint_at hlength,
    hint, hend, hwrap]
  rfl

/-- **What a scan finds.**  By induction on the fields that are left: the scan
stands where the first of them starts. -/
theorem scan_encodeFields {num fuel : ℕ} {fields : List Field} (hlen : payload.length < 2 ^ 63)
    (hnums : ∀ f ∈ fields, f.num < 2 ^ 60) (h : payload = pre ++ encodeFields fields)
    (hfuel : fields.length < fuel) :
    scan num payload fuel pre.length = some (BitVec.ofNat 64 (firstVarint num fields)) := by
  induction fields generalizing pre fuel with
  | nil =>
    obtain ⟨fuel, rfl⟩ := Nat.exists_eq_add_of_lt hfuel
    have hend : ¬ (pre.length : ℤ) < payload.length := by simp [h]
    rw [scan, if_neg hend]
    rfl
  | cons f fields ih =>
    obtain ⟨fuel, rfl⟩ : ∃ n, fuel = n + 1 := ⟨fuel - 1, by omega⟩
    have hf := hnums f (List.mem_cons_self ..)
    have hnext : payload = (pre ++ f.encode) ++ encodeFields fields := by simpa using h
    have hleft : fields.length < fuel := by
      rw [List.length_cons] at hfuel
      omega
    have hrest : scan num payload fuel (pre ++ f.encode).length
        = some (BitVec.ofNat 64 (firstVarint num fields)) :=
      ih (fun f hf => hnums f (List.mem_cons_of_mem _ hf)) hnext hleft
    cases f with
    | varint k value =>
      have hk : k < 2 ^ 60 := hf
      rw [scan_varint hk h, firstVarint]
      by_cases heq : k = num
      · rw [if_pos heq, if_pos heq]
      · rw [if_neg heq, if_neg heq]
        exact hrest
    | bytes k data =>
      have hk : k < 2 ^ 60 := hf
      rw [scan_bytes hk hlen h, firstVarint]
      exact hrest

theorem getField_encodeFields {num : ℕ} {fields : List Field}
    (hlen : (encodeFields fields).length < 2 ^ 63) (hnums : ∀ f ∈ fields, f.num < 2 ^ 60) :
    getField num (encodeFields fields) = some (BitVec.ofNat 64 (firstVarint num fields)) := by
  have hfuel : fields.length < (encodeFields fields).length + 1 :=
    Nat.lt_succ_of_le (length_le_length_encodeFields fields)
  exact @scan_encodeFields _ [] _ _ _ hlen hnums rfl hfuel

/-- An `int32` survives the extension to 64 bits and the cut back to 32. -/
theorem toInt_int32 {code : ℤ} (hlow : -2 ^ 31 ≤ code) (hhigh : code < 2 ^ 31) :
    ((BitVec.ofNat 64 (code % 2 ^ 64).toNat).setWidth 32).toInt = code := by
  have hcast : (((code % 2 ^ 64).toNat : ℕ) : ℤ) = code % 2 ^ 64 := by omega
  rw [BitVec.setWidth_ofNat_of_le (by norm_num), BitVec.toInt_ofNat', hcast]
  rw [Int.bmod_def]
  omega

theorem ofBitVec_toNat (n : UInt64) : UInt64.ofBitVec (BitVec.ofNat 64 n.toNat) = n := by
  rw [UInt64.toNat, BitVec.ofNat_toNat, BitVec.setWidth_eq]

section
variable {fields : List Field} (hlen : (encodeFields fields).length < 2 ^ 63)
  (hnums : ∀ f ∈ fields, f.num < 2 ^ 60)
include hlen hnums

theorem getErrorCode_encodeFields {code : ℤ} (hlow : -2 ^ 31 ≤ code) (hhigh : code < 2 ^ 31)
    (h : firstVarint 1 fields = (code % 2 ^ 64).toNat) :
    getErrorCode (encodeFields fields) = some code := by
  have hfield : getField 1 (encodeFields fields) = some (BitVec.ofNat 64 (firstVarint 1 fields)) :=
    @getField_encodeFields 1 _ hlen hnums
  rw [getErrorCode, hfield, h, Option.map_some, toInt_int32 hlow hhigh]

theorem getUInt64_encodeFields {num : ℕ} {n : UInt64} (h : firstVarint num fields = n.toNat) :
    (getField num (encodeFields fields)).map UInt64.ofBitVec = some n := by
  rw [getField_encodeFields hlen hnums, h, Option.map_some, ofBitVec_toNat]

end

end Robot

/-! ### The message -/

/-- `LoginResponse` of `messages.proto`. -/
structure LoginResponse where
  errorCode : ℤ := 0
  sessionId : UInt64 := 0
  playerId : UInt64 := 0
  errorMsg : String := ""
  deriving DecidableEq, Repr

namespace LoginResponse

/-- An `int32` is sign-extended to 64 bits. -/
def fields (r : LoginResponse) : List Field :=
  varintField 1 (r.errorCode % 2 ^ 64).toNat ++ (varintField 2 r.sessionId.toNat ++
    (varintField 3 r.playerId.toNat ++ (bytesField 4 r.errorMsg.toUTF8.data.toList ++ [])))

/-- `SerializeToString`. -/
def encode (r : LoginResponse) : List UInt8 := encodeFields r.fields

variable {r : LoginResponse}

theorem num_fields : ∀ f ∈ r.fields, f.num < 2 ^ 60 := by
  apply num_lt_varintField (by norm_num)
  apply num_lt_varintField (by norm_num)
  apply num_lt_varintField (by norm_num)
  apply num_lt_bytesField (by norm_num)
  exact List.forall_mem_nil _

theorem length_encode (hmsg : r.errorMsg.utf8ByteSize < 2 ^ 32) : r.encode.length < 2 ^ 63 := by
  have hdata : r.errorMsg.toUTF8.data.toList.length = r.errorMsg.utf8ByteSize := rfl
  have hcode : (r.errorCode % 2 ^ 64).toNat < 2 ^ 64 := by omega
  have h1 : (encodeFields (varintField 1 _)).length ≤ 20 := length_varintField (by norm_num) hcode
  have h2 : (encodeFields (varintField 2 _)).length ≤ 20 :=
    length_varintField (by norm_num) r.sessionId.toNat_lt
  have h3 : (encodeFields (varintField 3 _)).length ≤ 20 :=
    length_varintField (by norm_num) r.playerId.toNat_lt
  have h4 : (encodeFields (bytesField 4 r.errorMsg.toUTF8.data.toList)).length ≤ 20 + _ :=
    length_bytesField (by norm_num) (by omega)
  simp only [encode, fields, encodeFields_append, List.length_append, encodeFields_nil,
    List.length_nil]
  omega

theorem firstVarint_errorCode : firstVarint 1 r.fields = (r.errorCode % 2 ^ 64).toNat := by
  apply firstVarint_varintField
  rw [firstVarint_varintField_of_ne (by norm_num), firstVarint_varintField_of_ne (by norm_num),
    firstVarint_bytesField]
  rfl

theorem firstVarint_sessionId : firstVarint 2 r.fields = r.sessionId.toNat := by
  rw [fields, firstVarint_varintField_of_ne (by norm_num)]
  apply firstVarint_varintField
  rw [firstVarint_varintField_of_ne (by norm_num), firstVarint_bytesField]
  rfl

theorem firstVarint_playerId : firstVarint 3 r.fields = r.playerId.toNat := by
  rw [fields, firstVarint_varintField_of_ne (by norm_num),
    firstVarint_varintField_of_ne (by norm_num)]
  apply firstVarint_varintField
  rw [firstVarint_bytesField]
  rfl

section
variable (hlen : r.encode.length < 2 ^ 63)
include hlen

/-- **The client reads every message as it is**, in a payload that a Go slice can hold. -/
theorem getErrorCode_encode (hlow : -2 ^ 31 ≤ r.errorCode) (hhigh : r.errorCode < 2 ^ 31) :
    Robot.getErrorCode r.encode = some r.errorCode :=
  Robot.getErrorCode_encodeFields hlen num_fields hlow hhigh firstVarint_errorCode

theorem getSessionID_encode : Robot.getSessionID r.encode = some r.sessionId :=
  Robot.getUInt64_encodeFields hlen num_fields firstVarint_sessionId

theorem getPlayerID_encode : Robot.getPlayerID r.encode = some r.playerId :=
  Robot.getUInt64_encodeFields hlen num_fields firstVarint_playerId

end

end LoginResponse

/-! ### What a login answers -/

/-- What the 1001 handler copies into its message. -/
def LoginResult.response (result : LoginResult) : LoginResponse where
  errorCode := result.errorCode
  sessionId := result.sessionId
  errorMsg := result.errorMsg

/-- The getters give the fields of `result`. -/
structure Robot.Reads (payload : List UInt8) (result : LoginResult) : Prop where
  errorCode : getErrorCode payload = some result.errorCode
  sessionId : getSessionID payload = some result.sessionId
  playerId : getPlayerID payload = some result.playerId

/-- The error code and the session id always come through. -/
theorem LoginResult.reads_response_iff {result : LoginResult}
    (hmsg : result.errorMsg.utf8ByteSize < 2 ^ 32)
    (hlow : -2 ^ 31 ≤ result.errorCode) (hhigh : result.errorCode < 2 ^ 31) :
    Robot.Reads result.response.encode result ↔ result.playerId = 0 := by
  have hlen : result.response.encode.length < 2 ^ 63 := LoginResponse.length_encode hmsg
  have hplayer : Robot.getPlayerID result.response.encode = some 0 :=
    LoginResponse.getPlayerID_encode hlen
  constructor
  · intro h
    exact Option.some.inj (h.playerId.symm.trans hplayer)
  · intro h
    exact {
      errorCode := LoginResponse.getErrorCode_encode hlen hlow hhigh
      sessionId := LoginResponse.getSessionID_encode hlen
      playerId := by rw [hplayer, h] }

namespace SessionManager

variable {σ : Type} [Storage σ] {st st' : σ} {username password msg : String}

theorem findPlayer_error (h : findPlayer st username password = some (.error msg, st')) :
    msg = "Failed to create player" ∨ msg = "Player creation failed" := by
  obtain ⟨⟨cached, st₁⟩, -, heq⟩ := Option.map_eq_some_iff.mp h
  dsimp only at heq
  split at heq
  · cases heq
  · split at heq
    · cases heq
    · split at heq
      · obtain ⟨he, -⟩ := Prod.mk.injEq .. ▸ heq
        exact Or.inl (Except.error.inj he).symm
      · split at heq
        · obtain ⟨he, -⟩ := Prod.mk.injEq .. ▸ heq
          exact Or.inr (Except.error.inj he).symm
        · cases heq

/-- A login is refused with one of three texts. -/
theorem authenticate_error (h : authenticate st username password = some (.error msg, st')) :
    msg = "Failed to create player" ∨ msg = "Player creation failed" ∨ msg = "Invalid password" := by
  obtain ⟨⟨e, st₁⟩, hfind, heq⟩ := Option.map_eq_some_iff.mp h
  cases e with
  | error e =>
    obtain ⟨he, -⟩ := Prod.mk.injEq .. ▸ heq
    obtain rfl := Except.error.inj he
    exact (findPlayer_error hfind).imp_right Or.inl
  | ok p =>
    dsimp only at heq
    split at heq
    · obtain ⟨he, -⟩ := Prod.mk.injEq .. ▸ heq
      obtain rfl := Except.error.inj he
      exact Or.inr (Or.inr rfl)
    · cases heq

variable {m m' : SessionManager σ} {connId : ConnectionId} {sid : SessionId} {now : ℤ}
  {result : LoginResult} {kicks : List Kick}

/-- What a login answers, by the outcome of the authentication. -/
theorem result_login (h : m.login connId username password sid now = some (m', result, kicks)) :
    (∃ msg st, authenticate m.store username password = some (.error msg, st) ∧
      result = { errorCode := 20001, errorMsg := msg }) ∨
    ∃ player st, authenticate m.store username password = some (.ok player, st) ∧
      result = { sessionId := sid, playerId := player.id } := by
  obtain ⟨⟨e, st⟩, hauth, heq⟩ := Option.map_eq_some_iff.mp h
  cases e with
  | error msg =>
    obtain ⟨-, hr, -⟩ := by simpa only [Prod.mk.injEq] using heq
    exact Or.inl ⟨msg, st, hauth, hr.symm⟩
  | ok player =>
    obtain ⟨-, hr, -⟩ := by simpa only [Prod.mk.injEq] using heq
    exact Or.inr ⟨player, st, hauth, hr.symm⟩

/-- The message of a login reads as its result when that names no player. -/
theorem reads_login_iff
    (h : m.login connId username password sid now = some (m', result, kicks)) :
    Robot.Reads result.response.encode result ↔
      ∀ player st, authenticate m.store username password = some (.ok player, st) →
        player.id = 0 := by
  rcases result_login h with ⟨msg, st, hauth, rfl⟩ | ⟨player, st, hauth, rfl⟩
  · have hmsg : msg.utf8ByteSize < 2 ^ 32 := by
      rcases authenticate_error hauth with rfl | rfl | rfl <;> decide
    rw [LoginResult.reads_response_iff hmsg (by norm_num) (by norm_num)]
    simp [hauth]
  · have hmsg : "".utf8ByteSize < 2 ^ 32 := by decide
    rw [LoginResult.reads_response_iff hmsg (by norm_num) (by norm_num)]
    simp [hauth]

end SessionManager

namespace GameServer

variable {F : Type} [FloatOps F] {σ : Type} [Storage σ] {pb : Protobuf F} {g : GameServer σ F}
  {connId : ConnectionId} {frame : Frame} {env : Env} {username password : String}
  {m : SessionManager σ} {result : LoginResult} {kicks : List Kick}

omit [FloatOps F] in
/-- **The client does not learn its player id.**  What the 1001 handler sends
last is the response to `result`; the client reads `result` from it if the
login is refused, or the player has the id 0, and otherwise it does not. -/
theorem login_read_iff (hreq : pb.loginRequest frame.payload = some (username, password))
    (hlogin : g.sessions.login connId username password env.sid env.now
      = some (m, result, kicks)) :
    (∃ kicked, (g.login pb connId frame env).map (fun r => r.2.sends)
      = some (kicked ++ g.sendResponse connId 1002 (.loginResponse result.response.errorCode
          result.response.sessionId result.response.errorMsg))) ∧
    (Robot.Reads result.response.encode result ↔
      ∀ player st,
        SessionManager.authenticate g.sessions.store username password = some (.ok player, st) →
          player.id = 0) := by
  constructor
  · rw [login, hreq]
    dsimp only
    rw [hlogin]
    exact ⟨_, rfl⟩
  · exact SessionManager.reads_login_iff hlogin

/-- Ann's login on a new server creates player 1. -/
theorem login_ann : ((init ({} : MemoryStore) 2 : GameServer MemoryStore ℚ).sessions.login
    1 "ann" "secret" 11 0).map (fun r => r.2.1) = some { sessionId := 11, playerId := 1 } := by
  decide +kernel

theorem login_read_ann :
    (∃ kicked, ((init ({} : MemoryStore) 2 : GameServer MemoryStore ℚ).login annRequests 1
        { messageId := 1001 } ⟨0, 0, 11, []⟩).map (fun r => r.2.sends)
      = some (kicked ++ (init ({} : MemoryStore) 2 : GameServer MemoryStore ℚ).sendResponse 1 1002
          (.loginResponse 0 11 ""))) ∧
    (Robot.Reads (LoginResult.response { sessionId := 11, playerId := 1 }).encode
        { sessionId := 11, playerId := 1 } ↔
      ∀ player st,
        SessionManager.authenticate ({} : MemoryStore) "ann" "secret" = some (.ok player, st) →
          player.id = 0) := by
  obtain ⟨⟨m, result, kicks⟩, hlogin, rfl⟩ := Option.map_eq_some_iff.mp login_ann
  exact login_read_iff rfl hlogin

/-- **Ann reads 0.**  The server gave her the id 1. -/
theorem unread_ann :
    ¬ ∀ (g : GameServer MemoryStore ℚ) (connId : ConnectionId) (frame : Frame) (env : Env)
        (username password : String) (m : SessionManager MemoryStore) (result : LoginResult)
        (kicks : List Kick),
        (annRequests : Protobuf ℚ).loginRequest frame.payload = some (username, password) →
        g.sessions.login connId username password env.sid env.now = some (m, result, kicks) →
        Robot.Reads result.response.encode result := by
  intro hclaim
  obtain ⟨⟨m, result, kicks⟩, hlogin, rfl⟩ := Option.map_eq_some_iff.mp login_ann
  have hreads := hclaim (init {} 2) 1 { messageId := 1001 } ⟨0, 0, 11, []⟩ "ann" "secret" m
    { sessionId := 11, playerId := 1 } kicks rfl hlogin
  have hzero : Robot.getPlayerID (LoginResult.response { sessionId := 11, playerId := 1 }).encode
      = some 0 := LoginResponse.getPlayerID_encode (LoginResponse.length_encode (by decide))
  exact absurd (hzero.symm.trans hreads.playerId) (by decide)

end GameServer

end MiniArena
