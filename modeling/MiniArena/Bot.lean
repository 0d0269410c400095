/-
MiniArena/Bot.lean

One robot (`robot/bot.go`): `Bot.Run`, from the dial to the commands of a
battle, and the requests it encodes by hand.

A state says where the goroutine is (`BotPc`).  A step is one call that talks
to the outside, a `conn.Write` or a `ReadFrame`, or one update of a counter
that the robots share.  Every `return` of `Run` is a place of its own, so that
the place says which counters this robot has updated; `Fleet` adds them up.
A getter that panics, or never ends, leaves the robot without a step.

`script` is what a robot says and waits for until the battle starts.  The run
lemma: what it has said and taken so far is an initial part of the script, and
after all of it only commands (`bot_conversation`).
-/
import MiniArena.ClientMessages
import MiniArena.DecodeLoop
import MiniArena.RobotLink
import MiniArena.VarintCodec

namespace MiniArena

open WireFormat Transition

namespace Robot

/-! ### Requests -/

/-- `fmt.Sprintf("bot_%d", id)`, which is ASCII. -/
def botName (id : ℕ) : List UInt8 :=
  (['b', 'o', 't', '_'] ++ Nat.toDigits 10 id).map fun c => UInt8.ofNat c.toNat

def encodeLoginRequest (username password : List UInt8) : List UInt8 :=
  let buf := [0x0a, UInt8.ofNat username.length]
  let buf := buf ++ username
  let buf := buf ++ [0x12, UInt8.ofNat password.length]
  buf ++ password

/-- `encodeMoveRequest`, given `Float32bits` of the direction. -/
def encodeMoveRequest (dirX dirY : UInt32) : List UInt8 :=
  let buf := List.replicate 10 0
  let buf := Buffer.poke buf 0 [0x0d]
  let buf := Buffer.poke buf 1 (BigEndian.toBE 4 dirX.toNat).reverse
  let buf := Buffer.poke buf 5 [0x15]
  Buffer.poke buf 6 (BigEndian.toBE 4 dirY.toNat).reverse

def encodeAttackRequest (targetID : UInt64) : List UInt8 :=
  encodeVarint [0x08] targetID.toBitVec

def encodeSkillRequest (skillID : ℤ) (targetID : UInt64) : List UInt8 :=
  let buf := encodeVarint [0x08] (BitVec.ofInt 64 skillID)
  encodeVarint (buf ++ [0x10]) targetID.toBitVec

/-! ### The program -/

/-- The counters of `BotStats` and `GlobalStats`, and the samples of `LatencyStats`. -/
inductive Counter
  | loginOK | loginFail | matchOK | matchFail | roomOK | battleStart
  | movesSent | attacksSent | skillsSent | deathReceived | endReceived
  | connected | disconnected | errors
  | samples
  deriving DecidableEq, Repr

/-- `sendRandomCommand`, after the dice: the directions are bits of floats. -/
inductive BotCommand
  | move (dirX dirY : UInt32)
  | attack
  | skill (dice : Fin 3)
  deriving DecidableEq, Repr

namespace BotCommand

def request : BotCommand → UInt32 × List UInt8
  | .move dirX dirY => (4001, encodeMoveRequest dirX dirY)
  | .attack => (4002, encodeAttackRequest 2)
  | .skill dice => (4003, encodeSkillRequest (dice.val + 1) 2)

def counter : BotCommand → Counter
  | .move _ _ => .movesSent
  | .attack => .attacksSent
  | .skill _ => .skillsSent

end BotCommand

/-- The `return`s of `Run` and of what it calls. -/
inductive Return
  | connect
  | loginSend | loginRead | loginRefused | loginOnly
  | matchSend | matchRead | matchRefused | notifyRead
  | readySend | startRead
  deriving DecidableEq, Repr

/-- Whether `Run` returns an error. -/
def Return.isError : Return → Bool
  | .loginOnly => false
  | _ => true

/-- Where a robot is; the counters are updated behind `connected`, `..Taken`,
`..Refused`, `loginCounted` and `sent`. -/
inductive BotPc
  | dial | connected
  | loginSend | loginWait | loginRefused | loginTaken | loginCounted
  | matchSend | matchWait | matchRefused | matchTaken | notifyWait | notifyTaken
  | readySend | startWait | startTaken
  | battle | sent (cmd : BotCommand)
  | returned (why : Return)
  deriving DecidableEq, Repr

structure Bot where
  id : ℕ
  cmdRate : ℤ := 5
  pc : BotPc := .dial
  reader : FrameReader := {}
  sessionID : UInt64 := 0
  playerID : UInt64 := 0
  roomID : UInt64 := 0
  seq : UInt64 := 0
  deriving DecidableEq, Repr

inductive BotEvent
  /-- `net.DialTimeout` -/
  | dial (ok : Bool)
  /-- `SendFrame` -/
  | send (ok : Bool)
  /-- One `ReadFrame`, with what its `conn.Read`s return. -/
  | read (conn : List Chunk)
  /-- One `Add(1)` or `Record`. -/
  | count
  /-- One tick of `battleLoop`. -/
  | command (cmd : BotCommand)

/-- What a robot says on its connection, and a frame it has waited for. -/
inductive Talk
  | call (msgID : UInt32) (payload : List UInt8)
  | answer (msgID : UInt32)
  deriving DecidableEq, Repr

/-- What a step shows. -/
structure BotOut where
  said : Option Talk := none
  /-- What is passed to `conn.Write`. -/
  wrote : Option (List UInt8) := none
  /-- What `ReadFrame` returns. -/
  frame : Option DecodedFrame := none
  counts : Option Counter := none
  deriving DecidableEq, Repr

namespace Bot

def username (b : Bot) : List UInt8 := botName b.id

/-- `SendFrame(b.conn, msgID, 0, b.nextSeq(), payload)` -/
def sendFrame (b : Bot) (msgID : UInt32) (payload : List UInt8) (next : BotPc) :
    Option (Bot × BotOut) :=
  match encodeFrame msgID 0 (nextSeq b.seq) payload with
  | .error _ => none  -- the panic
  | .ok data => some ({ b with seq := nextSeq b.seq, pc := next },
      { said := some (.call msgID payload), wrote := some data })

/-- One iteration of `DiscardUntil`. -/
def discardUntil (b : Bot) (msgID : UInt32) (conn : List Chunk) (fails : Return)
    (taken : Bot → DecodedFrame → Option Bot) : Option (Bot × BotOut) :=
  match b.reader.readFrame conn with
  | (.error _, reader, []) => some ({ b with reader := reader, pc := .returned fails }, {})
  | (.ok f, reader, []) =>
      if f.msgID = msgID then
        (taken { b with reader := reader } f).map fun b' =>
          (b', { said := some (.answer msgID), frame := some f })
      else some ({ b with reader := reader }, { frame := some f })
  | _ => none  -- what `Read` would return next

def loginAnswer (b : Bot) (f : DecodedFrame) : Option Bot :=
  (getErrorCode f.payload).bind fun code =>
    if code ≠ 0 then some { b with pc := .loginRefused }
    else
      (getSessionID f.payload).bind fun sessionID =>
        (getPlayerID f.payload).map fun playerID =>
          { b with sessionID := sessionID, playerID := playerID, pc := .loginTaken }

def matchAnswer (b : Bot) (f : DecodedFrame) : Option Bot :=
  (getErrorCode f.payload).map fun code =>
    if code ≠ 0 then { b with pc := .matchRefused } else { b with pc := .matchTaken }

def notifyAnswer (b : Bot) (f : DecodedFrame) : Option Bot :=
  (getRoomID f.payload).map fun roomID => { b with roomID := roomID, pc := .notifyTaken }

def startAnswer (b : Bot) (_ : DecodedFrame) : Option Bot := some { b with pc := .startTaken }

/-- The next update of a counter, and where it leads. -/
def update (b : Bot) : Option (Counter × BotPc) :=
  match b.pc with
  | .connected => some (.samples, .loginSend)
  | .loginRefused => some (.loginFail, .returned .loginRefused)
  | .loginTaken => some (.loginOK, .loginCounted)
  | .loginCounted => some (.samples, if b.cmdRate ≤ 0 then .returned .loginOnly else .matchSend)
  | .matchRefused => some (.matchFail, .returned .matchRefused)
  | .matchTaken => some (.matchOK, .notifyWait)
  | .notifyTaken => some (.roomOK, .readySend)
  | .startTaken => some (.battleStart, .battle)
  | .sent cmd => some (cmd.counter, .battle)
  | _ => none

/-- One step of `Run`. -/
def step (b : Bot) : BotEvent → Option (Bot × BotOut)
  | .dial ok =>
      if b.pc = .dial then
        some ({ b with pc := if ok then .connected else .returned .connect }, {})
      else none
  | .send ok =>
      match b.pc with
      | .loginSend => b.sendFrame 1001 (encodeLoginRequest b.username b.username)
          (if ok then .loginWait else .returned .loginSend)
      | .matchSend => b.sendFrame 2001 [0x08, 0x00]
          (if ok then .matchWait else .returned .matchSend)
      | .readySend => b.sendFrame 3003 [] (if ok then .startWait else .returned .readySend)
      | _ => none
  | .read conn =>
      match b.pc with
      | .loginWait => b.discardUntil 1002 conn .loginRead loginAnswer
      | .matchWait => b.discardUntil 2002 conn .matchRead matchAnswer
      | .notifyWait => b.discardUntil 2004 conn .notifyRead notifyAnswer
      | .startWait => b.discardUntil 3004 conn .startRead startAnswer
      | _ => none
  | .count =>
      match b.update with
      | some (counter, pc) => some ({ b with pc := pc }, { counts := some counter })
      | none => none
  | .command cmd =>
      -- an error of `SendFrame` is not looked at
      if b.pc = .battle then b.sendFrame cmd.request.1 cmd.request.2 (.sent cmd) else none

/-- The step relation; a label is an event with what it shows. -/
def Steps (b : Bot) (a : BotEvent × BotOut) (b' : Bot) : Prop := b.step a.1 = some (b', a.2)

end Bot

/-! ### The script -/

/-- What a robot says, and waits for, until the battle starts. -/
def script (id : ℕ) : List Talk :=
  [.call 1001 (encodeFields [.bytes 1 (botName id), .bytes 2 (botName id)]), .answer 1002,
    .call 2001 (encodeFields [.varint 1 0]), .answer 2002, .answer 2004,
    .call 3003 [], .answer 3004]

/-- What a robot says in the battle. -/
inductive Talk.IsCommand : Talk → Prop
  | move (dirX dirY : UInt32) : IsCommand (.call 4001
      (0x0d :: (BigEndian.toBE 4 dirX.toNat).reverse ++
        0x15 :: (BigEndian.toBE 4 dirY.toNat).reverse))
  | attack : IsCommand (.call 4002 (encodeFields [.varint 1 2]))
  | skill (id : ℕ) (least : 1 ≤ id) (most : id ≤ 3) :
      IsCommand (.call 4003 (encodeFields [.varint 1 id, .varint 2 2]))

/-- How much of the script is done where `Run` returns. -/
def Return.progress : Return → ℕ
  | .connect => 0
  | .loginSend | .loginRead => 1
  | .loginRefused | .loginOnly => 2
  | .matchSend | .matchRead => 3
  | .matchRefused | .notifyRead => 4
  | .readySend | .startRead => 6

def BotPc.progress : BotPc → ℕ
  | .dial | .connected | .loginSend => 0
  | .loginWait => 1
  | .loginRefused | .loginTaken | .loginCounted | .matchSend => 2
  | .matchWait => 3
  | .matchRefused | .matchTaken | .notifyWait => 4
  | .notifyTaken | .readySend => 5
  | .startWait => 6
  | .startTaken | .battle | .sent _ => 7
  | .returned why => why.progress

/-- The counters a robot has updated before the battle, in order. -/
def Return.counted : Return → List Counter
  | .connect => []
  | .loginSend | .loginRead => [.samples]
  | .loginRefused => [.samples, .loginFail]
  | .loginOnly | .matchSend | .matchRead => [.samples, .loginOK, .samples]
  | .matchRefused => [.samples, .loginOK, .samples, .matchFail]
  | .notifyRead => [.samples, .loginOK, .samples, .matchOK]
  | .readySend | .startRead => [.samples, .loginOK, .samples, .matchOK, .roomOK]

def BotPc.counted : BotPc → List Counter
  | .dial | .connected => []
  | .loginSend | .loginWait | .loginRefused | .loginTaken => [.samples]
  | .loginCounted => [.samples, .loginOK]
  | .matchSend | .matchWait | .matchRefused | .matchTaken => [.samples, .loginOK, .samples]
  | .notifyWait | .notifyTaken => [.samples, .loginOK, .samples, .matchOK]
  | .readySend | .startWait | .startTaken => [.samples, .loginOK, .samples, .matchOK, .roomOK]
  | .battle | .sent _ => [.samples, .loginOK, .samples, .matchOK, .roomOK, .battleStart]
  | .returned why => why.counted

/-! ### The requests by hand are those of the protocol -/

theorem length_botName {id : ℕ} (hid : id < 2 ^ 63) : (botName id).length < 128 := by
  have hdigits : (Nat.toDigits 10 id).length ≤ 19 :=
    (Nat.length_toDigits_le_iff (by norm_num) (by norm_num)).mpr (by omega)
  rw [botName, List.length_map, List.length_append]
  simp only [List.length_cons, List.length_nil]
  omega

/-- One byte is enough for the length of a short name. -/
theorem encodeLoginRequest_eq {username password : List UInt8} (hname : username.length < 128)
    (hword : password.length < 128) : encodeLoginRequest username password =
      encodeFields [.bytes 1 username, .bytes 2 password] := by
  simp only [encodeLoginRequest, encodeFields_cons, encodeFields_nil, Field.encode,
    encode_of_lt hname, encode_of_lt hword, encode_of_lt (show 1 * 8 + 2 < 128 by norm_num),
    encode_of_lt (show 2 * 8 + 2 < 128 by norm_num)]
  simp

theorem encodeAttackRequest_eq (targetID : UInt64) :
    encodeAttackRequest targetID = encodeFields [.varint 1 targetID.toNat] := by
  rw [encodeAttackRequest, encodeVarint_eq, encodeFields_cons, encodeFields_nil, Field.encode,
    encode_of_lt (show 1 * 8 < 128 by norm_num), List.append_nil]
  rfl

theorem encodeSkillRequest_eq {skillID : ℤ} {n : ℕ} (targetID : UInt64)
    (hn : (BitVec.ofInt 64 skillID).toNat = n) :
    encodeSkillRequest skillID targetID = encodeFields [.varint 1 n, .varint 2 targetID.toNat] := by
  simp only [encodeSkillRequest, encodeVarint_eq, encodeFields_cons, encodeFields_nil, Field.encode,
    encode_of_lt (show 1 * 8 < 128 by norm_num), encode_of_lt (show 2 * 8 < 128 by norm_num), hn,
    List.append_nil, List.append_assoc]
  rfl

theorem encodeMoveRequest_eq (dirX dirY : UInt32) : encodeMoveRequest dirX dirY =
    0x0d :: (BigEndian.toBE 4 dirX.toNat).reverse ++
      0x15 :: (BigEndian.toBE 4 dirY.toNat).reverse := by
  unfold encodeMoveRequest
  dsimp only
  generalize hx : (BigEndian.toBE 4 dirX.toNat).reverse = x
  generalize hy : (BigEndian.toBE 4 dirY.toNat).reverse = y
  have hlx : x.length = 4 := by rw [← hx, List.length_reverse, BigEndian.length_toBE]
  have hly : y.length = 4 := by rw [← hy, List.length_reverse, BigEndian.length_toBE]
  rw [← List.nil_append (List.replicate 10 0), poke_at_end List.length_nil,
    poke_at_end (by simp), poke_at_end (by simp [hlx]), poke_at_end (by simp [hlx])]
  simp [hlx, hly]

theorem BotCommand.isCommand (cmd : BotCommand) :
    Talk.IsCommand (.call cmd.request.1 cmd.request.2) := by
  cases cmd with
  | move dirX dirY =>
    show Talk.IsCommand (.call 4001 (encodeMoveRequest dirX dirY))
    rw [encodeMoveRequest_eq]
    exact .move dirX dirY
  | attack =>
    show Talk.IsCommand (.call 4002 (encodeAttackRequest 2))
    rw [encodeAttackRequest_eq]
    exact .attack
  | skill dice =>
    have hsmall : (BitVec.ofInt 64 ((dice.val : ℤ) + 1)).toNat = dice.val + 1 := by
      have := dice.isLt
      rw [BitVec.toNat_ofInt]
      omega
    show Talk.IsCommand (.call 4003 (encodeSkillRequest ((dice.val : ℤ) + 1) 2))
    rw [encodeSkillRequest_eq 2 hsmall]
    exact .skill (dice.val + 1) (Nat.le_add_left 1 _) dice.isLt

/-! ### One step -/

/-- What a robot that sends no commands gets to. -/
def Return.early : Return → Bool
  | .connect | .loginSend | .loginRead | .loginRefused | .loginOnly => true
  | _ => false

def BotPc.early : BotPc → Bool
  | .dial | .connected | .loginSend | .loginWait | .loginRefused | .loginTaken
  | .loginCounted => true
  | .returned why => why.early
  | _ => false

/-- The places a robot with this command rate gets to. -/
def BotPc.Fits (rate : ℤ) (pc : BotPc) : Prop :=
  (rate ≤ 0 → pc.early = true) ∧ (0 < rate → pc ≠ .returned .loginOnly)

/-- From `pc` to `pc'`, `n` lines of the script and the counters `counts` further. -/
structure BotPc.Leads (rate : ℤ) (pc : BotPc) (n : ℕ) (counts : List Counter) (pc' : BotPc) :
    Prop where
  running : ∀ why, pc ≠ .returned why
  progress : pc'.progress = pc.progress + n
  counted : pc'.counted = pc.counted ++ counts
  fits : pc.Fits rate → pc'.Fits rate

/-- `Run` has not returned. -/
def BotPc.running : BotPc → Bool
  | .returned _ => false
  | _ => true

theorem BotPc.leads_of_early {rate : ℤ} {pc pc' : BotPc} {n : ℕ} {counts : List Counter}
    (hrunning : pc.running = true) (hprogress : pc'.progress = pc.progress + n)
    (hcounted : pc'.counted = pc.counted ++ counts)
    (hearly : pc.early = true → pc'.early = true)
    (hother : decide (pc' = .returned .loginOnly) = false) :
    pc.Leads rate n counts pc' := by
  refine ⟨fun why heq => ?_, hprogress, hcounted, fun h => ⟨fun hrate => hearly (h.1 hrate), ?_⟩⟩
  · rw [heq] at hrunning
    cases hrunning
  · exact fun _ => of_decide_eq_false hother

namespace Bot

variable {b b' : Bot} {out : BotOut}

/-- **What a step can do.** -/
inductive StepCase (b : Bot) : BotEvent → Bot → BotOut → Prop
  | dial {pc : BotPc} (ok : Bool) (leads : b.pc.Leads b.cmdRate 0 [] pc) :
      StepCase b (.dial ok) { b with pc := pc } {}
  | call {pc : BotPc} {msgID : UInt32} {payload data : List UInt8} (ok : Bool)
      (line : (script b.id)[b.pc.progress]? = some (.call msgID payload))
      (leads : b.pc.Leads b.cmdRate 1 [] pc)
      (encodes : encodeFrame msgID 0 (nextSeq b.seq) payload = .ok data) :
      StepCase b (.send ok) { b with seq := nextSeq b.seq, pc := pc }
        { said := some (.call msgID payload), wrote := some data }
  | answer {b' : Bot} {conn : List Chunk} {f : DecodedFrame}
      (waits : (script b.id)[b.pc.progress]? = some (.answer f.msgID))
      (leads : b.pc.Leads b.cmdRate 1 [] b'.pc)
      (same : b'.id = b.id ∧ b'.cmdRate = b.cmdRate ∧ b'.seq = b.seq)
      (reads : b.reader.readFrame conn = (.ok f, b'.reader, [])) :
      StepCase b (.read conn) b' { said := some (.answer f.msgID), frame := some f }
  | discard {conn : List Chunk} {f : DecodedFrame} {reader : FrameReader} {msgID : UInt32}
      (running : ∀ why, b.pc ≠ .returned why)
      (waits : (script b.id)[b.pc.progress]? = some (.answer msgID)) (other : f.msgID ≠ msgID)
      (reads : b.reader.readFrame conn = (.ok f, reader, [])) :
      StepCase b (.read conn) { b with reader := reader } { frame := some f }
  | fails {conn : List Chunk} {e : ReadError} {reader : FrameReader} {why : Return}
      (leads : b.pc.Leads b.cmdRate 0 [] (.returned why))
      (reads : b.reader.readFrame conn = (.error e, reader, [])) :
      StepCase b (.read conn) { b with reader := reader, pc := .returned why } {}
  | count {pc : BotPc} {counter : Counter} (leads : b.pc.Leads b.cmdRate 0 [counter] pc) :
      StepCase b .count { b with pc := pc } { counts := some counter }
  | command {cmd : BotCommand} {data : List UInt8} (here : b.pc = .battle)
      (encodes : encodeFrame cmd.request.1 0 (nextSeq b.seq) cmd.request.2 = .ok data) :
      StepCase b (.command cmd) { b with seq := nextSeq b.seq, pc := .sent cmd }
        { said := some (.call cmd.request.1 cmd.request.2), wrote := some data }
  | commanded {cmd : BotCommand} (here : b.pc = .sent cmd) :
      StepCase b .count { b with pc := .battle } { counts := some cmd.counter }

theorem sendFrame_eq_some {msgID : UInt32} {payload : List UInt8} {next : BotPc}
    (h : b.sendFrame msgID payload next = some (b', out)) :
    ∃ data, encodeFrame msgID 0 (nextSeq b.seq) payload = .ok data ∧
      b' = { b with seq := nextSeq b.seq, pc := next } ∧
      out = { said := some (.call msgID payload), wrote := some data } := by
  unfold sendFrame at h
  split at h
  · cases h
  · rename_i data hdata
    obtain ⟨rfl, rfl⟩ := Prod.mk.injEq .. ▸ Option.some.inj h
    exact ⟨data, hdata, rfl, rfl⟩

/-- A call of the script. -/
theorem stepCase_call {here next : BotPc} {why : Return} {msgID : UInt32}
    {payload payload' : List UInt8} {ok : Bool} (hpc : b.pc = here) (heq : payload = payload')
    (h : b.sendFrame msgID payload (if ok then next else .returned why) = some (b', out))
    (hline : (script b.id)[here.progress]? = some (.call msgID payload'))
    (hnext : here.Leads b.cmdRate 1 [] next) (hfails : here.Leads b.cmdRate 1 [] (.returned why)) :
    StepCase b (.send ok) b' out := by
  obtain ⟨data, hdata, rfl, rfl⟩ := sendFrame_eq_some h
  subst heq hpc
  refine .call ok hline ?_ hdata
  cases ok with
  | true => exact hnext
  | false => exact hfails

/-- What a handler of an answer does to the robot. -/
structure Takes (taken : Bot → DecodedFrame → Option Bot) (b : Bot) : Prop where
  leads : ∀ {reader f b'}, taken { b with reader := reader } f = some b' →
    b.pc.Leads b.cmdRate 1 [] b'.pc
  same : ∀ {reader f b'}, taken { b with reader := reader } f = some b' →
    b'.id = b.id ∧ b'.cmdRate = b.cmdRate ∧ b'.seq = b.seq ∧ b'.reader = reader

/-- A frame that is waited for, or another one, or an error. -/
theorem stepCase_read {here : BotPc} {fails : Return} {msgID : UInt32} {conn : List Chunk}
    {taken : Bot → DecodedFrame → Option Bot} (hpc : b.pc = here)
    (h : b.discardUntil msgID conn fails taken = some (b', out)) (htaken : Takes taken b)
    (hwaits : (script b.id)[here.progress]? = some (.answer msgID))
    (hfails : here.Leads b.cmdRate 0 [] (.returned fails)) : StepCase b (.read conn) b' out := by
  subst hpc
  unfold discardUntil at h
  split at h
  · rename_i e reader hread
    obtain ⟨rfl, rfl⟩ := Prod.mk.injEq .. ▸ Option.some.inj h
    exact .fails hfails hread
  · rename_i f reader hread
    by_cases hid : f.msgID = msgID
    · rw [if_pos hid] at h
      obtain ⟨b₁, htook, heq⟩ := Option.map_eq_some_iff.mp h
      obtain ⟨rfl, rfl⟩ := Prod.mk.injEq .. ▸ heq
      obtain ⟨hsame, hrate, hseq, hreader⟩ := htaken.same htook
      subst hid
      exact .answer hwaits (htaken.leads htook) ⟨hsame, hrate, hseq⟩ (hreader ▸ hread)
    · rw [if_neg hid] at h
      obtain ⟨rfl, rfl⟩ := Prod.mk.injEq .. ▸ Option.some.inj h
      exact .discard hfails.running hwaits hid hread
  · cases h

theorem takes_loginAnswer (hpc : b.pc = .loginWait) : Takes loginAnswer b := by
  have hcases : ∀ {reader f b'}, loginAnswer { b with reader := reader } f = some b' →
      ∃ pc sessionID playerID, (pc = BotPc.loginRefused ∨ pc = .loginTaken) ∧
        b' = { b with
          reader := reader
          pc := pc
          sessionID := sessionID
          playerID := playerID } := by
    intro reader f b' h
    obtain ⟨code, -, hrest⟩ := Option.bind_eq_some_iff.mp h
    split at hrest
    · exact ⟨_, _, _, .inl rfl, (Option.some.inj hrest).symm⟩
    · obtain ⟨sessionID, -, hrest⟩ := Option.bind_eq_some_iff.mp hrest
      obtain ⟨playerID, -, heq⟩ := Option.map_eq_some_iff.mp hrest
      exact ⟨_, _, _, .inr rfl, heq.symm⟩
  refine ⟨fun h => ?_, fun h => ?_⟩
  · obtain ⟨pc, sessionID, playerID, hpc', rfl⟩ := hcases h
    rw [hpc]
    rcases hpc' with rfl | rfl
    · exact BotPc.leads_of_early rfl rfl rfl (fun _ => rfl) rfl
    · exact BotPc.leads_of_early rfl rfl rfl (fun _ => rfl) rfl
  · obtain ⟨pc, sessionID, playerID, -, rfl⟩ := hcases h
    exact ⟨rfl, rfl, rfl, rfl⟩

theorem takes_matchAnswer (hpc : b.pc = .matchWait) : Takes matchAnswer b := by
  have hcases : ∀ {reader f b'}, matchAnswer { b with reader := reader } f = some b' →
      ∃ pc, (pc = BotPc.matchRefused ∨ pc = .matchTaken) ∧
        b' = { b with reader := reader, pc := pc } := by
    intro reader f b' h
    obtain ⟨code, -, heq⟩ := Option.map_eq_some_iff.mp h
    split at heq
    · exact ⟨_, .inl rfl, heq.symm⟩
    · exact ⟨_, .inr rfl, heq.symm⟩
  refine ⟨fun h => ?_, fun h => ?_⟩
  · obtain ⟨pc, hpc', rfl⟩ := hcases h
    rw [hpc]
    rcases hpc' with rfl | rfl
    · exact BotPc.leads_of_early rfl rfl rfl (fun h => h) rfl
    · exact BotPc.leads_of_early rfl rfl rfl (fun h => h) rfl
  · obtain ⟨pc, -, rfl⟩ := hcases h
    exact ⟨rfl, rfl, rfl, rfl⟩

theorem takes_notifyAnswer (hpc : b.pc = .notifyWait) : Takes notifyAnswer b := by
  refine ⟨fun h => ?_, fun h => ?_⟩
  · obtain ⟨roomID, -, rfl⟩ := Option.map_eq_some_iff.mp h
    rw [hpc]
    exact BotPc.leads_of_early rfl rfl rfl (fun h => h) rfl
  · obtain ⟨roomID, -, rfl⟩ := Option.map_eq_some_iff.mp h
    exact ⟨rfl, rfl, rfl, rfl⟩

theorem takes_startAnswer (hpc : b.pc = .startWait) : Takes startAnswer b := by
  refine ⟨fun h => ?_, fun h => ?_⟩
  · obtain rfl := Option.some.inj h
    rw [hpc]
    exact BotPc.leads_of_early rfl rfl rfl (fun h => h) rfl
  · obtain rfl := Option.some.inj h
    exact ⟨rfl, rfl, rfl, rfl⟩

/-- An update on the way to the battle. -/
theorem stepCase_count {here next pc : BotPc} {c counter : Counter} (hpc : b.pc = here)
    (h : some (c, next) = some (counter, pc)) (hleads : here.Leads b.cmdRate 0 [c] next) :
    StepCase b .count { b with pc := pc } { counts := some counter } := by
  obtain ⟨rfl, rfl⟩ := Prod.mk.injEq .. ▸ Option.some.inj h
  subst hpc
  exact .count hleads

theorem stepCase_update {counter : Counter} {pc : BotPc} (h : b.update = some (counter, pc)) :
    StepCase b .count { b with pc := pc } { counts := some counter } := by
  unfold update at h
  split at h
  next hpc => exact stepCase_count hpc h (BotPc.leads_of_early rfl rfl rfl (fun h => h) rfl)
  next hpc => exact stepCase_count hpc h (BotPc.leads_of_early rfl rfl rfl (fun h => h) rfl)
  next hpc => exact stepCase_count hpc h (BotPc.leads_of_early rfl rfl rfl (fun h => h) rfl)
  next hpc =>
    refine stepCase_count hpc h ?_
    -- the one place where the command rate matters
    by_cases hrate : b.cmdRate ≤ 0
    · rw [if_pos hrate]
      exact ⟨fun _ h => BotPc.noConfusion h, rfl, rfl, fun _ =>
        ⟨fun _ => rfl, fun hpos => absurd hrate (not_le.mpr hpos)⟩⟩
    · rw [if_neg hrate]
      exact ⟨fun _ h => BotPc.noConfusion h, rfl, rfl, fun _ =>
        ⟨fun hle => absurd hle hrate, fun _ h => BotPc.noConfusion h⟩⟩
  next hpc => exact stepCase_count hpc h (BotPc.leads_of_early rfl rfl rfl (fun h => h) rfl)
  next hpc => exact stepCase_count hpc h (BotPc.leads_of_early rfl rfl rfl (fun h => h) rfl)
  next hpc => exact stepCase_count hpc h (BotPc.leads_of_early rfl rfl rfl (fun h => h) rfl)
  next hpc => exact stepCase_count hpc h (BotPc.leads_of_early rfl rfl rfl (fun h => h) rfl)
  next cmd hpc =>
    obtain ⟨rfl, rfl⟩ := Prod.mk.injEq .. ▸ Option.some.inj h
    exact .commanded hpc
  next => cases h

theorem step_cases (hid : b.id < 2 ^ 63) {ev : BotEvent} (h : b.step ev = some (b', out)) :
    StepCase b ev b' out := by
  cases ev with
  | dial ok =>
    obtain ⟨hpc, heq⟩ := Option.ite_none_right_eq_some.mp h
    obtain ⟨rfl, rfl⟩ := Prod.mk.injEq .. ▸ Option.some.inj heq
    refine .dial ok ?_
    rw [hpc]
    cases ok with
    | true => exact BotPc.leads_of_early rfl rfl rfl (fun h => h) rfl
    | false => exact BotPc.leads_of_early rfl rfl rfl (fun h => h) rfl
  | send ok =>
    dsimp only [step] at h
    split at h
    next hpc =>
      have hname := length_botName hid
      exact stepCase_call hpc (encodeLoginRequest_eq hname hname) h rfl
        (BotPc.leads_of_early rfl rfl rfl (fun h => h) rfl)
        (BotPc.leads_of_early rfl rfl rfl (fun h => h) rfl)
    next hpc =>
      have hpayload : [0x08, 0x00] = encodeFields [.varint 1 0] := by
        rw [encodeFields_cons, encodeFields_nil, Field.encode,
          encode_of_lt (show 1 * 8 < 128 by norm_num), encode_of_lt (show 0 < 128 by norm_num)]
        rfl
      exact stepCase_call hpc hpayload h rfl (BotPc.leads_of_early rfl rfl rfl (fun h => h) rfl)
        (BotPc.leads_of_early rfl rfl rfl (fun h => h) rfl)
    next hpc =>
      exact stepCase_call hpc rfl h rfl (BotPc.leads_of_early rfl rfl rfl (fun h => h) rfl)
        (BotPc.leads_of_early rfl rfl rfl (fun h => h) rfl)
    next => cases h
  | read conn =>
    dsimp only [step] at h
    split at h
    next hpc =>
      exact stepCase_read hpc h (takes_loginAnswer hpc) rfl
        (BotPc.leads_of_early rfl rfl rfl (fun h => h) rfl)
    next hpc =>
      exact stepCase_read hpc h (takes_matchAnswer hpc) rfl
        (BotPc.leads_of_early rfl rfl rfl (fun h => h) rfl)
    next hpc =>
      exact stepCase_read hpc h (takes_notifyAnswer hpc) rfl
        (BotPc.leads_of_early rfl rfl rfl (fun h => h) rfl)
    next hpc =>
      exact stepCase_read hpc h (takes_startAnswer hpc) rfl
        (BotPc.leads_of_early rfl rfl rfl (fun h => h) rfl)
    next => cases h
  | count =>
    dsimp only [step] at h
    split at h
    next counter pc hupdate =>
      obtain ⟨rfl, rfl⟩ := Prod.mk.injEq .. ▸ Option.some.inj h
      exact stepCase_update hupdate
    next => cases h
  | command cmd =>
    obtain ⟨hpc, heq⟩ := Option.ite_none_right_eq_some.mp h
    obtain ⟨data, hdata, rfl, rfl⟩ := sendFrame_eq_some heq
    exact .command hpc hdata

end Bot

/-! ### Reading from the connection -/

theorem readFrame_ok {r r' : FrameReader} {conn : List Chunk} {f : DecodedFrame}
    (hr : r.buf.length ≤ readerBound) (h : r.readFrame conn = (.ok f, r', [])) :
    r.buf ++ Chunk.stream conn = f.toFrame.bytes ++ r'.buf ∧ r'.buf.length ≤ readerBound := by
  have hspec := @readFrame_spec r conn hr
  split at hspec
  · obtain ⟨n, r₁, conn₁, hread, -⟩ := hspec
    rw [h] at hread
    cases hread
  · obtain ⟨r₁, conn₁, hread, -⟩ := hspec
    rw [h] at hread
    cases hread
  · rename_i fr rest hscan
    obtain ⟨g, r₁, conn₁, hread, rfl, hleft, hbound⟩ := hspec
    rw [h] at hread
    cases hread
    rw [Chunk.stream_nil, List.append_nil] at hleft
    subst hleft
    exact ⟨(FrameCodec.bytes_of_scan hscan).1, hbound⟩

theorem readFrame_error {r r' : FrameReader} {conn : List Chunk} {e : ReadError}
    (hr : r.buf.length ≤ readerBound) (h : r.readFrame conn = (.error e, r', [])) :
    r.buf ++ Chunk.stream conn = r'.buf := by
  have hspec := @readFrame_spec r conn hr
  split at hspec
  · obtain ⟨n, r₁, conn₁, hread, hleft⟩ := hspec
    rw [h] at hread
    cases hread
    rw [← hleft, Chunk.stream_nil, List.append_nil]
  · obtain ⟨r₁, conn₁, hread, hleft⟩ := hspec
    rw [h] at hread
    cases hread
    rw [← hleft, Chunk.stream_nil, List.append_nil]
  · obtain ⟨g, r₁, conn₁, hread, -⟩ := hspec
    rw [h] at hread
    cases hread

/-! ### Whole runs -/

namespace Talk

def asCall : Talk → Option (UInt32 × List UInt8)
  | .call msgID payload => some (msgID, payload)
  | .answer _ => none

def asAnswer : Talk → Option UInt32
  | .call _ _ => none
  | .answer msgID => some msgID

theorem IsCommand.asAnswer {t : Talk} (h : t.IsCommand) : t.asAnswer = none := by
  cases h <;> rfl

end Talk

/-- The ids a robot waits for, in turn. -/
def awaited : List UInt32 := [1002, 2002, 2004, 3004]

/-- A frame comes while these ids are still waited for. -/
def await (waits : List UInt32) (msgID : UInt32) : List UInt32 :=
  if waits.head? = some msgID then waits.tail else waits

namespace Bot

variable {b b' : Bot}

def said (as : List (BotEvent × BotOut)) : List Talk := as.filterMap fun a => a.2.said

/-- The calls of `SendFrame`. -/
def calls (as : List (BotEvent × BotOut)) : List (UInt32 × List UInt8) :=
  (said as).filterMap Talk.asCall

def answers (as : List (BotEvent × BotOut)) : List UInt32 := (said as).filterMap Talk.asAnswer

def wrote (as : List (BotEvent × BotOut)) : List (List UInt8) := as.filterMap fun a => a.2.wrote

/-- The frames `ReadFrame` has returned. -/
def frames (as : List (BotEvent × BotOut)) : List DecodedFrame := as.filterMap fun a => a.2.frame

/-- What `conn.Read` has returned. -/
def received (as : List (BotEvent × BotOut)) : List UInt8 :=
  as.flatMap fun a =>
    match a.1 with
    | .read conn => Chunk.stream conn
    | _ => []

def stillAwaited (as : List (BotEvent × BotOut)) : List UInt32 :=
  ((frames as).map DecodedFrame.msgID).foldl await awaited

/-- What a robot has done so far. -/
structure Spoken (id : ℕ) (past : List (BotEvent × BotOut)) (b : Bot) : Prop where
  same : b.id = id
  talk : ∃ cmds, said past = (script id).take b.pc.progress ++ cmds ∧
    (∀ t ∈ cmds, t.IsCommand) ∧ (cmds ≠ [] → b.pc.progress = 7)
  seq : b.seq = UInt64.ofNat (calls past).length
  writes : sendFrames 0 (calls past) = .ok (wrote past)
  waits : stillAwaited past = ((script id).drop b.pc.progress).filterMap Talk.asAnswer
  stream : received past = ((frames past).flatMap fun f => f.toFrame.bytes) ++ b.reader.buf
  bound : (∀ why, b.pc ≠ .returned why) → b.reader.buf.length ≤ readerBound

theorem said_concat (past : List (BotEvent × BotOut)) (a : BotEvent × BotOut) :
    said (past ++ [a]) = said past ++ a.2.said.toList := by
  rw [said, List.filterMap_append]
  rcases hsaid : a.2.said with - | t <;> simp [said, hsaid]

theorem frames_concat (past : List (BotEvent × BotOut)) (a : BotEvent × BotOut) :
    frames (past ++ [a]) = frames past ++ a.2.frame.toList := by
  rw [frames, List.filterMap_append]
  rcases hframe : a.2.frame with - | f <;> simp [frames, hframe]

theorem wrote_concat (past : List (BotEvent × BotOut)) (a : BotEvent × BotOut) :
    wrote (past ++ [a]) = wrote past ++ a.2.wrote.toList := by
  rw [wrote, List.filterMap_append]
  rcases hwrote : a.2.wrote with - | data <;> simp [wrote, hwrote]

theorem received_concat (past : List (BotEvent × BotOut)) (a : BotEvent × BotOut) :
    received (past ++ [a]) = received past ++ received [a] :=
  List.flatMap_append

/-- A step that says nothing and reads no frame. -/
theorem Spoken.quiet {id : ℕ} {past : List (BotEvent × BotOut)} (h : Spoken id past b)
    {a : BotEvent × BotOut} (hsaid : a.2.said = none) (hwrote : a.2.wrote = none)
    (hframe : a.2.frame = none) (hid : b'.id = b.id) (hseq : b'.seq = b.seq)
    (hprogress : b'.pc.progress = b.pc.progress)
    (hstream : b.reader.buf ++ received [a] = b'.reader.buf)
    (hbound : (∀ why, b'.pc ≠ .returned why) → b'.reader.buf.length ≤ readerBound) :
    Spoken id (past ++ [a]) b' := by
  have hs : said (past ++ [a]) = said past := by
    rw [said_concat, hsaid, Option.toList_none, List.append_nil]
  have hf : frames (past ++ [a]) = frames past := by
    rw [frames_concat, hframe, Option.toList_none, List.append_nil]
  have hw : wrote (past ++ [a]) = wrote past := by
    rw [wrote_concat, hwrote, Option.toList_none, List.append_nil]
  refine ⟨hid.trans h.same, ?_, ?_, ?_, ?_, ?_, hbound⟩
  · rw [hs, hprogress]
    exact h.talk
  · rw [hseq, h.seq, calls, calls, hs]
  · rw [calls, hs, hw]
    exact h.writes
  · rw [stillAwaited, hf, hprogress]
    exact h.waits
  · rw [received_concat, hf, h.stream, List.append_assoc, hstream]

/-- A call of `SendFrame`, of the script or in the battle. -/
theorem Spoken.call {id : ℕ} {past : List (BotEvent × BotOut)} (h : Spoken id past b)
    {a : BotEvent × BotOut} {msgID : UInt32} {payload data : List UInt8} {pc : BotPc}
    (hsaid : a.2.said = some (.call msgID payload)) (hwrote : a.2.wrote = some data)
    (hframe : a.2.frame = none) (hread : received [a] = [])
    (hencodes : encodeFrame msgID 0 (nextSeq b.seq) payload = .ok data)
    (hline : ∃ cmds, said past ++ [.call msgID payload] = (script id).take pc.progress ++ cmds ∧
      (∀ t ∈ cmds, t.IsCommand) ∧ (cmds ≠ [] → pc.progress = 7))
    (hwaits : ((script id).drop pc.progress).filterMap Talk.asAnswer =
      ((script id).drop b.pc.progress).filterMap Talk.asAnswer)
    (hbound : (∀ why, pc ≠ .returned why) → b.reader.buf.length ≤ readerBound) :
    Spoken id (past ++ [a]) { b with seq := nextSeq b.seq, pc := pc } := by
  have hs : said (past ++ [a]) = said past ++ [.call msgID payload] := by
    rw [said_concat, hsaid, Option.toList_some]
  have hc : calls (past ++ [a]) = calls past ++ [(msgID, payload)] := by
    rw [calls, hs, List.filterMap_append]
    rfl
  have hf : frames (past ++ [a]) = frames past := by
    rw [frames_concat, hframe, Option.toList_none, List.append_nil]
  refine ⟨h.same, ?_, ?_, ?_, ?_, ?_, hbound⟩
  · rw [hs]
    exact hline
  · show nextSeq b.seq = _
    rw [hc, List.length_append, h.seq, nextSeq, UInt64.ofNat_add]
    rfl
  · rw [hc, wrote_concat, hwrote, Option.toList_some]
    refine sendFrames_concat h.writes ?_
    rw [UInt64.zero_add, ← h.seq]
    exact hencodes
  · rw [stillAwaited, hf, hwaits]
    exact h.waits
  · rw [received_concat, hf, hread, List.append_nil]
    exact h.stream

/-- On a line of the script no command has been sent yet. -/
theorem Spoken.on_script {id : ℕ} {past : List (BotEvent × BotOut)} (h : Spoken id past b)
    {t : Talk} (hline : (script id)[b.pc.progress]? = some t) :
    Bot.said past = (script id).take b.pc.progress ∧
      (script id).take (b.pc.progress + 1) = (script id).take b.pc.progress ++ [t] ∧
      (script id).drop b.pc.progress = t :: (script id).drop (b.pc.progress + 1) := by
  obtain ⟨hlt, heq⟩ := List.getElem?_eq_some_iff.mp hline
  obtain ⟨cmds, hsaid, -, hseven⟩ := h.talk
  refine ⟨?_, ?_, ?_⟩
  · have hnone : cmds = [] := by
      by_contra hne
      rw [hseven hne] at hlt
      exact absurd hlt (lt_irrefl 7)
    rw [hsaid, hnone, List.append_nil]
  · rw [List.take_add_one, hline, Option.toList_some]
  · rw [List.drop_eq_getElem_cons hlt, heq]

theorem stillAwaited_frame {past : List (BotEvent × BotOut)} {a : BotEvent × BotOut}
    {f : DecodedFrame} (hframe : a.2.frame = some f) :
    stillAwaited (past ++ [a]) = await (stillAwaited past) f.msgID := by
  rw [stillAwaited, frames_concat, hframe, Option.toList_some, List.map_append, List.foldl_append]
  rfl

/-- A frame that `ReadFrame` returns. -/
theorem Spoken.frame {id : ℕ} {past : List (BotEvent × BotOut)} (h : Spoken id past b)
    {a : BotEvent × BotOut} {f : DecodedFrame} {conn : List Chunk} (hev : a.1 = .read conn)
    (hwrote : a.2.wrote = none) (hframe : a.2.frame = some f)
    (hcalls : Bot.calls (past ++ [a]) = Bot.calls past)
    (hsame : b'.id = b.id ∧ b'.cmdRate = b.cmdRate ∧ b'.seq = b.seq)
    (hrunning : ∀ why, b.pc ≠ .returned why)
    (hreads : b.reader.readFrame conn = (.ok f, b'.reader, []))
    (htalk : ∃ cmds, Bot.said (past ++ [a]) = (script id).take b'.pc.progress ++ cmds ∧
      (∀ t ∈ cmds, t.IsCommand) ∧ (cmds ≠ [] → b'.pc.progress = 7))
    (hwaits : await (stillAwaited past) f.msgID =
      ((script id).drop b'.pc.progress).filterMap Talk.asAnswer) :
    Spoken id (past ++ [a]) b' := by
  obtain ⟨hstream, hbound⟩ := readFrame_ok (h.bound hrunning) hreads
  refine ⟨hsame.1.trans h.same, htalk, ?_, ?_, ?_, ?_, fun _ => hbound⟩
  · rw [hsame.2.2, hcalls]
    exact h.seq
  · rw [hcalls, wrote_concat, hwrote, Option.toList_none, List.append_nil]
    exact h.writes
  · rw [stillAwaited_frame hframe, hwaits]
  · have hone : received [a] = Chunk.stream conn := by
      rw [received, List.flatMap_cons, List.flatMap_nil, List.append_nil, hev]
    rw [received_concat, hone, h.stream, List.append_assoc, hstream, frames_concat, hframe,
      Option.toList_some, List.flatMap_append, List.append_assoc]
    simp

theorem Spoken.step {id : ℕ} (hid : id < 2 ^ 63) {past : List (BotEvent × BotOut)}
    (h : Spoken id past b) {a : BotEvent × BotOut} (hstep : Steps b a b') :
    Spoken id (past ++ [a]) b' := by
  obtain ⟨ev, out⟩ := a
  have hsame := h.same
  subst hsame
  cases step_cases hid hstep with
  | @dial pc ok leads =>
    have hprogress : pc.progress = b.pc.progress := leads.progress
    refine h.quiet rfl rfl rfl rfl rfl hprogress (List.append_nil _) fun _ => ?_
    exact h.bound leads.running
  | @call pc msgID payload data ok line leads encodes =>
    obtain ⟨hsaid, htake, hdrop⟩ := h.on_script line
    refine h.call rfl rfl rfl rfl encodes
      ⟨[], ?_, List.forall_mem_nil _, fun hne => absurd rfl hne⟩ ?_ ?_
    · rw [hsaid, leads.progress, htake, List.append_nil]
    · rw [leads.progress, hdrop]
      rfl
    · exact fun _ => h.bound leads.running
  | @answer _ conn f waits leads same reads =>
    obtain ⟨hsaid, htake, hdrop⟩ := h.on_script waits
    have htalk : Bot.said (past ++ [(.read conn,
        { said := some (.answer f.msgID), frame := some f })]) =
        (script b.id).take b'.pc.progress := by
      rw [said_concat, hsaid, leads.progress, htake]
      rfl
    refine h.frame rfl rfl rfl ?_ same leads.running reads
      ⟨[], ?_, List.forall_mem_nil _, fun hne => absurd rfl hne⟩ ?_
    · rw [calls, calls, said_concat, List.filterMap_append]
      exact List.append_nil _
    · rw [htalk, List.append_nil]
    · rw [h.waits, leads.progress, hdrop]
      exact if_pos rfl
  | @discard conn f reader msgID running waits other reads =>
    obtain ⟨-, -, hdrop⟩ := h.on_script waits
    have hs : Bot.said (past ++ [(.read conn, { frame := some f })]) = Bot.said past := by
      rw [said_concat]
      exact List.append_nil _
    refine h.frame rfl rfl rfl ?_ ⟨rfl, rfl, rfl⟩ running reads ?_ ?_
    · rw [calls, calls, hs]
    · rw [hs]
      exact h.talk
    · rw [h.waits, hdrop]
      exact if_neg fun heq => other (Option.some.inj heq).symm
  | @fails conn e reader why leads reads =>
    have hprogress : (BotPc.returned why).progress = b.pc.progress := leads.progress
    refine h.quiet rfl rfl rfl rfl rfl hprogress ?_ fun hpc => absurd rfl (hpc why)
    rw [received, List.flatMap_cons, List.flatMap_nil, List.append_nil]
    exact readFrame_error (h.bound leads.running) reads
  | @count pc counter leads =>
    have hprogress : pc.progress = b.pc.progress := leads.progress
    refine h.quiet rfl rfl rfl rfl rfl hprogress (List.append_nil _) fun _ => ?_
    exact h.bound leads.running
  | @command cmd data here encodes =>
    have hprogress : b.pc.progress = 7 := by rw [here]; rfl
    obtain ⟨cmds, hsaid, hcmds, -⟩ := h.talk
    refine h.call rfl rfl rfl rfl encodes ⟨cmds ++ [.call cmd.request.1 cmd.request.2], ?_, ?_,
      fun _ => rfl⟩ ?_ ?_
    · rw [hsaid, hprogress, List.append_assoc]
      rfl
    · intro t ht
      rcases List.mem_append.mp ht with ht | ht
      · exact hcmds t ht
      · rw [List.mem_singleton.mp ht]
        exact cmd.isCommand
    · rw [hprogress]
      rfl
    · exact fun _ => h.bound fun why heq => BotPc.noConfusion (here.symm.trans heq)
  | @commanded cmd here =>
    have hprogress : BotPc.battle.progress = b.pc.progress := by rw [here]; rfl
    refine h.quiet rfl rfl rfl rfl rfl hprogress (List.append_nil _) fun _ => ?_
    exact h.bound fun why heq => BotPc.noConfusion (here.symm.trans heq)

theorem spoken_run {id : ℕ} (hid : id < 2 ^ 63) {rate : ℤ} {as : List (BotEvent × BotOut)}
    (h : Run Steps { id := id, cmdRate := rate } as b) : Spoken id as b := by
  have hstart : Spoken id [] { id := id, cmdRate := rate } :=
    ⟨rfl, ⟨[], rfl, List.forall_mem_nil _, fun hne => absurd rfl hne⟩, rfl, rfl, rfl, rfl,
      fun _ => Nat.zero_le _⟩
  exact h.record (fun past s a t hs hst => hs.step hid hst) hstart

/-- **What a robot says.**  In every run, what a robot has said and taken so far is an initial
part of the script and, after all of it, commands; the bytes it has written are those of its
calls, numbered from 1.  Of the frames it reads it takes the first with the id it waits for and
throws the others away, and the bytes it was sent are the frames it has read and what its reader
holds. -/
theorem bot_conversation {id : ℕ} (hid : id < 2 ^ 63) {rate : ℤ} {as : List (BotEvent × BotOut)}
    (h : Run Steps { id := id, cmdRate := rate } as b) :
    (∃ k cmds, Bot.said as = (script id).take k ++ cmds ∧ (∀ t ∈ cmds, t.IsCommand) ∧
      (cmds ≠ [] → k = 7)) ∧
    sendFrames 0 (Bot.calls as) = .ok (Bot.wrote as) ∧
    Bot.answers as ++ stillAwaited as = awaited ∧
    received as = ((Bot.frames as).flatMap fun f => f.toFrame.bytes) ++ b.reader.buf := by
  have hspoken := spoken_run hid h
  obtain ⟨cmds, hsaid, hcmds, hseven⟩ := hspoken.talk
  refine ⟨⟨_, cmds, hsaid, hcmds, hseven⟩, hspoken.writes, ?_, hspoken.stream⟩
  have hnone : cmds.filterMap Talk.asAnswer = [] :=
    List.filterMap_eq_nil_iff.mpr fun t ht => (hcmds t ht).asAnswer
  rw [answers, hsaid, List.filterMap_append, hnone, List.append_nil, hspoken.waits,
    ← List.filterMap_append, List.take_append_drop]
  rfl

/-- A packet with a short payload, as one `Read` returns it. -/
def packet (high low : UInt8) (payload : List UInt8) (hlen : payload.length ≤ 100) :
    Chunk where
  bytes := [0, 0, 0, 18 + UInt8.ofNat payload.length, 0, 0, high, low] ++
    List.replicate 10 0 ++ payload
  length_le := by
    simp only [List.length_append, List.length_cons, List.length_nil, List.length_replicate]
    omega

/-- A robot on the way to its first command; a 2004 comes too early and is lost. -/
def firstMove : List BotEvent :=
  [.dial true, .count, .send true, .read [packet 7 0xD4 [8, 1] (by decide)],
    .read [packet 3 0xEA [16, 11, 24, 7] (by decide)], .count, .count,
    .send true, .read [packet 7 0xD2 [] (by decide)], .count,
    .read [packet 7 0xD4 [8, 2] (by decide)], .count,
    .send true, .read [packet 11 0xBC [8, 2] (by decide)], .count, .command (.move 0 0)]

theorem bot_conversation_firstMove : ∃ (b : Bot) (as : List (BotEvent × BotOut)),
    b.roomID = 2 ∧ b.seq = 4 ∧ (frames as).length = 5 ∧ stillAwaited as = [] ∧
    (∃ k cmds, Bot.said as = (script 1).take k ++ cmds ∧ (∀ t ∈ cmds, t.IsCommand) ∧
      (cmds ≠ [] → k = 7)) ∧
    sendFrames 0 (Bot.calls as) = .ok (Bot.wrote as) ∧
    Bot.answers as ++ stillAwaited as = awaited ∧
    received as = ((Bot.frames as).flatMap fun f => f.toFrame.bytes) ++ b.reader.buf := by
  have hexec : (exec Bot.step { id := 1, cmdRate := 5 } firstMove).map (fun p =>
      (p.1.roomID, p.1.seq, (frames p.2).length, stillAwaited p.2)) = some (2, 4, 5, []) := by
    decide +kernel
  obtain ⟨⟨b, as⟩, hexec, heq⟩ := Option.map_eq_some_iff.mp hexec
  simp only [Prod.mk.injEq] at heq
  obtain ⟨hroom, hseq, hframes, hwaits⟩ := heq
  exact ⟨b, as, hroom, hseq, hframes, hwaits, bot_conversation (by norm_num) (run_of_exec hexec)⟩

end Bot

end Robot

end MiniArena
