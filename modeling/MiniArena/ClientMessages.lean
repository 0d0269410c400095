/-
MiniArena/ClientMessages.lean

The messages of `messages.proto` that the client reads with its getters.

Each getter reads the first varint field with its number, so what it says of a
message depends on where `messages.proto` puts the fields: `error_code` is
field 1 of the three responses, and `room_id` is field 1 of
`MatchSuccessNotify`.
-/
import MiniArena.LoginPayload

namespace MiniArena

open WireFormat

structure MatchStartResponse where
  errorCode : ℤ := 0
  errorMsg : String := ""
  deriving DecidableEq, Repr

structure EnterRoomResponse where
  errorCode : ℤ := 0
  errorMsg : String := ""
  roomId : UInt64 := 0
  deriving DecidableEq, Repr

structure MatchSuccessNotify where
  roomId : UInt64 := 0
  serverAddr : String := ""
  deriving DecidableEq, Repr

def MatchStartResponse.fields (r : MatchStartResponse) : List Field :=
  varintField 1 (r.errorCode % 2 ^ 64).toNat ++ (bytesField 2 r.errorMsg.toUTF8.data.toList ++ [])

def EnterRoomResponse.fields (r : EnterRoomResponse) : List Field :=
  varintField 1 (r.errorCode % 2 ^ 64).toNat ++ (bytesField 2 r.errorMsg.toUTF8.data.toList ++
    (varintField 3 r.roomId.toNat ++ []))

def MatchSuccessNotify.fields (n : MatchSuccessNotify) : List Field :=
  varintField 1 n.roomId.toNat ++ (bytesField 2 n.serverAddr.toUTF8.data.toList ++ [])

inductive ClientMessage
  | loginResponse (r : LoginResponse)
  | matchStartResponse (r : MatchStartResponse)
  | enterRoomResponse (r : EnterRoomResponse)
  | matchSuccessNotify (n : MatchSuccessNotify)
  deriving DecidableEq, Repr

namespace ClientMessage

def fields : ClientMessage → List Field
  | loginResponse r => r.fields
  | matchStartResponse r => r.fields
  | enterRoomResponse r => r.fields
  | matchSuccessNotify n => n.fields

/-- `SerializeToString`. -/
def encode (m : ClientMessage) : List UInt8 := encodeFields m.fields

def errorCode : ClientMessage → Option ℤ
  | loginResponse r => some r.errorCode
  | matchStartResponse r => some r.errorCode
  | enterRoomResponse r => some r.errorCode
  | matchSuccessNotify _ => none

/-- The type of `error_code`. -/
def Int32Code (m : ClientMessage) : Prop := ∀ code ∈ m.errorCode, -2 ^ 31 ≤ code ∧ code < 2 ^ 31

variable {m : ClientMessage}

theorem num_fields : ∀ f ∈ m.fields, f.num < 2 ^ 60 := by
  cases m with
  | loginResponse r => exact LoginResponse.num_fields
  | matchStartResponse r =>
    apply num_lt_varintField (by norm_num)
    apply num_lt_bytesField (by norm_num)
    exact List.forall_mem_nil _
  | enterRoomResponse r =>
    apply num_lt_varintField (by norm_num)
    apply num_lt_bytesField (by norm_num)
    apply num_lt_varintField (by norm_num)
    exact List.forall_mem_nil _
  | matchSuccessNotify n =>
    apply num_lt_varintField (by norm_num)
    apply num_lt_bytesField (by norm_num)
    exact List.forall_mem_nil _

theorem firstVarint_errorCode {code : ℤ} (h : m.errorCode = some code) :
    firstVarint 1 m.fields = (code % 2 ^ 64).toNat := by
  cases m with
  | loginResponse r =>
    obtain rfl := Option.some.inj h
    exact LoginResponse.firstVarint_errorCode
  | matchStartResponse r =>
    obtain rfl := Option.some.inj h
    apply firstVarint_varintField
    rw [firstVarint_bytesField]
    rfl
  | enterRoomResponse r =>
    obtain rfl := Option.some.inj h
    apply firstVarint_varintField
    rw [firstVarint_bytesField, firstVarint_varintField_of_ne (by norm_num)]
    rfl
  | matchSuccessNotify n => cases h

theorem firstVarint_roomId (n : MatchSuccessNotify) : firstVarint 1 n.fields = n.roomId.toNat := by
  apply firstVarint_varintField
  rw [firstVarint_bytesField]
  rfl

theorem getErrorCode_encode (hcode : m.Int32Code) (hlen : m.encode.length < 2 ^ 63) {code : ℤ}
    (h : m.errorCode = some code) : Robot.getErrorCode m.encode = some code := by
  obtain ⟨hlow, hhigh⟩ := hcode code h
  exact Robot.getErrorCode_encodeFields hlen num_fields hlow hhigh (firstVarint_errorCode h)

end ClientMessage

/-- The getters give the fields of the message. -/
def Robot.ReadsMessage (payload : List UInt8) : ClientMessage → Prop
  | .loginResponse r => getErrorCode payload = some r.errorCode ∧
      getSessionID payload = some r.sessionId ∧ getPlayerID payload = some r.playerId
  | .matchStartResponse r => getErrorCode payload = some r.errorCode
  | .enterRoomResponse r => getErrorCode payload = some r.errorCode
  | .matchSuccessNotify n => getRoomID payload = some n.roomId

/-- **The client reads what the server writes.**  The payload is one that a Go
slice can hold. -/
theorem ClientMessage.readsMessage_encode (m : ClientMessage) (hcode : m.Int32Code)
    (hlen : m.encode.length < 2 ^ 63) : Robot.ReadsMessage m.encode m := by
  cases m with
  | loginResponse r =>
    exact ⟨getErrorCode_encode hcode hlen rfl, LoginResponse.getSessionID_encode hlen,
      LoginResponse.getPlayerID_encode hlen⟩
  | matchStartResponse r => exact getErrorCode_encode hcode hlen rfl
  | enterRoomResponse r => exact getErrorCode_encode hcode hlen rfl
  | matchSuccessNotify n =>
    exact Robot.getUInt64_encodeFields hlen num_fields (firstVarint_roomId n)

/-- A negative code takes ten bytes. -/
def refusal : LoginResponse := { errorCode := -1, sessionId := 11, errorMsg := "no" }

theorem ClientMessage.readsMessage_encode_refusal :
    Robot.ReadsMessage (loginResponse refusal).encode (loginResponse refusal) := by
  have hlen : refusal.encode.length < 2 ^ 63 := LoginResponse.length_encode (by decide)
  refine readsMessage_encode (loginResponse refusal) ?_ hlen
  rintro code hcode
  obtain rfl := Option.some.inj hcode
  decide

end MiniArena
