/-
MiniArena/Broadcaster.lean

Battle broadcasting (`game/broadcaster.cpp`).  A function that sends returns
the calls of the send callback it makes; without a callback there are none.
`P` is the type of payloads.
-/
import MiniArena.AoiGrid

namespace MiniArena

/-- One call of the send callback. -/
structure Send (P : Type) where
  playerId : PlayerId
  msgId : UInt32
  payload : P
  deriving DecidableEq, Repr

structure Broadcaster (P : Type) where
  /-- Whether `send_cb_` is set. -/
  hasSendCb : Bool := false
  overrides : Finmap fun _ : PlayerId => UInt32 × P := ∅

namespace Broadcaster

variable {P : Type}

def setSendCallback (b : Broadcaster P) : Broadcaster P := { b with hasSendCb := true }

/-- Player id 0 stands for "broadcast to all". -/
def broadcastToRoom (b : Broadcaster P) (msgId : UInt32) (payload : P) : List (Send P) :=
  if b.hasSendCb then [⟨0, msgId, payload⟩] else []

def broadcastToAoi (b : Broadcaster P) (receivers : Multiset PlayerId) (msgId : UInt32)
    (payload : P) : Multiset (Send P) :=
  if b.hasSendCb then receivers.map fun pid => ⟨pid, msgId, payload⟩ else 0

def queueOverride (b : Broadcaster P) (playerId : PlayerId) (msgId : UInt32) (payload : P) :
    Broadcaster P :=
  { b with overrides := b.overrides.insert playerId (msgId, payload) }

/-- The calls come in the order of an `unordered_map`. -/
def flushOverrides (b : Broadcaster P) : Broadcaster P × Multiset (Send P) :=
  ({ b with overrides := ∅ },
    if b.hasSendCb then b.overrides.entries.map fun e => ⟨e.1, e.2.1, e.2.2⟩ else 0)

end Broadcaster

end MiniArena
