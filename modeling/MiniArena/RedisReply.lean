/-
MiniArena/RedisReply.lean

The replies of Redis and who frees them (`storage/redis_client.cpp`).

`redisCommand` returns a reply that its caller has to free, or null.  A
command of `RedisClient` is written as a function of that reply: its result,
and its uses of the handle in their order.  `checkReply` frees a reply it does
not accept, and so does every caller when the check has failed, so such a
reply is freed twice (`released_iff`).
-/
import Mathlib

namespace MiniArena

/-! ### Replies -/

/-- The reply types of hiredis that the client names. -/
def redisReplyArray : ℤ := 2
def redisReplyInteger : ℤ := 3
def redisReplyNil : ℤ := 4
def redisReplyStatus : ℤ := 5
def redisReplyError : ℤ := 6

structure RedisReply where
  type : ℤ
  integer : ℤ := 0
  /-- `str` and `len`. -/
  str : String := ""
  element : List RedisReply := []

/-- A read of a field of the reply, or `freeReplyObject`. -/
inductive ReplyUse
  | read
  | free
  deriving DecidableEq, Repr

namespace RedisReply

/-- `if (reply) freeReplyObject(reply);` -/
def release : Option RedisReply → List ReplyUse
  | none => []
  | some _ => [.free]

def checkReply (reply : Option RedisReply) (expectedType : ℤ) : Bool × List ReplyUse :=
  match reply with
  | none => (false, [])
  | some r =>
      -- the type is read for each comparison, and the log reads the text or the type
      if r.type = redisReplyError then (false, [.read, .read, .free])
      else if 0 ≤ expectedType ∧ r.type ≠ expectedType then (false, [.read, .read, .read, .free])
      else (true, if 0 ≤ expectedType then [.read, .read] else [.read])

/-! ### Commands -/

/-- A command that answers whether its reply passed the check. -/
def status (expectedType : ℤ) (reply : Option RedisReply) : Bool × List ReplyUse :=
  ((checkReply reply expectedType).1, (checkReply reply expectedType).2 ++ release reply)

/-- A command that goes on with a reply that passed. -/
def checked {α : Type} (expectedType : ℤ) (failed : α) (body : RedisReply → α × List ReplyUse)
    (reply : Option RedisReply) : α × List ReplyUse :=
  match checkReply reply expectedType, reply with
  | (true, uses), some r => ((body r).1, uses ++ (body r).2)
  | (_, uses), reply => (failed, uses ++ release reply)

def set : Option RedisReply → Bool × List ReplyUse := status redisReplyStatus

def setEx : Option RedisReply → Bool × List ReplyUse := status redisReplyStatus

/-- Any type but an error will do. -/
def get : Option RedisReply → Option String × List ReplyUse :=
  checked (-1) none fun r =>
    if r.type = redisReplyNil then (none, [.read, .free])
    else (some r.str, [.read, .read, .read, .free])

/-- The one command without a check. -/
def del (reply : Option RedisReply) : Bool × List ReplyUse := (true, release reply)

def expire : Option RedisReply → Bool × List ReplyUse := status redisReplyInteger

def existsKey : Option RedisReply → Bool × List ReplyUse :=
  checked redisReplyInteger false fun r => (decide (r.integer = 1), [.read, .free])

def lpush : Option RedisReply → ℤ × List ReplyUse :=
  checked redisReplyInteger 0 fun r => (r.integer, [.read, .free])

def brpop : Option RedisReply → Option String × List ReplyUse :=
  checked redisReplyArray none fun r =>
    match r.element with
    | _ :: value :: _ => (some value.str, [.read, .read, .read, .free])
    | _ => (none, [.read, .free])

def llen : Option RedisReply → ℤ × List ReplyUse :=
  checked redisReplyInteger 0 fun r => (r.integer, [.read, .free])

/-- The commands that go through `checkReply`. -/
inductive Command
  | set
  | setEx
  | get
  | expire
  | existsKey
  | lpush
  | brpop
  | llen
  deriving DecidableEq, Repr

namespace Command

def expectedType : Command → ℤ
  | set => redisReplyStatus
  | setEx => redisReplyStatus
  | get => -1
  | expire => redisReplyInteger
  | existsKey => redisReplyInteger
  | lpush => redisReplyInteger
  | brpop => redisReplyArray
  | llen => redisReplyInteger

def uses (c : Command) (reply : Option RedisReply) : List ReplyUse :=
  match c with
  | set => (RedisReply.set reply).2
  | setEx => (RedisReply.setEx reply).2
  | get => (RedisReply.get reply).2
  | expire => (RedisReply.expire reply).2
  | existsKey => (RedisReply.existsKey reply).2
  | lpush => (RedisReply.lpush reply).2
  | brpop => (RedisReply.brpop reply).2
  | llen => (RedisReply.llen reply).2

end Command

/-! ### Uses of a handle -/

/-- A reply is freed once and not read after that; there is no reply to free in null. -/
def Released : Option RedisReply → List ReplyUse → Prop
  | none, uses => ReplyUse.free ∉ uses
  | some _, uses => uses.count .free = 1 ∧
      ∀ before after, uses = before ++ .free :: after → ReplyUse.read ∉ after

/-- The reads before the reply is freed. -/
def reads (n : ℕ) : List ReplyUse := List.replicate n .read

theorem reads_append (m n : ℕ) : reads m ++ reads n = reads (m + n) :=
  List.replicate_append_replicate

theorem count_reads (n : ℕ) : (reads n).count .free = 0 := by
  rw [reads, List.count_replicate]
  rfl

/-- What follows the only free. -/
theorem after_free {n : ℕ} {before after : List ReplyUse}
    (h : reads n ++ [.free] = before ++ .free :: after) : after = [] := by
  induction n generalizing before with
  | zero =>
    cases before with
    | nil => exact (List.cons.inj h).2.symm
    | cons u before =>
      have hlength := congrArg List.length h
      simp [reads] at hlength
  | succ n ih =>
    cases before with
    | nil => cases (List.cons.inj h).1
    | cons u before => exact ih (List.cons.inj h).2

theorem released_reads (r : RedisReply) (n : ℕ) : Released (some r) (reads n ++ [.free]) := by
  refine ⟨?_, fun before after h => ?_⟩
  · rw [List.count_append, count_reads]
    rfl
  · rw [after_free h]
    exact List.not_mem_nil

theorem not_released_twice (r : RedisReply) (n : ℕ) :
    ¬ Released (some r) (reads n ++ [.free, .free]) := by
  rintro ⟨hcount, -⟩
  rw [List.count_append, count_reads] at hcount
  exact absurd hcount (by decide)

/-! ### Who frees what -/

/-- `checkReply` lets the reply pass. -/
def Accepts (expectedType : ℤ) (r : RedisReply) : Prop :=
  r.type ≠ redisReplyError ∧ (0 ≤ expectedType → r.type = expectedType)

theorem checkReply_accepted {expectedType : ℤ} {r : RedisReply} (h : Accepts expectedType r) :
    ∃ n, checkReply (some r) expectedType = (true, reads n) := by
  obtain ⟨herror, htype⟩ := h
  rw [checkReply, if_neg herror, if_neg fun hne => hne.2 (htype hne.1)]
  split
  · exact ⟨2, rfl⟩
  · exact ⟨1, rfl⟩

theorem checkReply_rejected {expectedType : ℤ} {r : RedisReply} (h : ¬ Accepts expectedType r) :
    ∃ n, checkReply (some r) expectedType = (false, reads n ++ [.free]) := by
  rw [checkReply]
  by_cases herror : r.type = redisReplyError
  · rw [if_pos herror]
    exact ⟨2, rfl⟩
  · have htype : 0 ≤ expectedType ∧ r.type ≠ expectedType := by
      by_contra hnot
      exact h ⟨herror, fun hle => by_contra fun hne => hnot ⟨hle, hne⟩⟩
    rw [if_neg herror, if_pos htype]
    exact ⟨3, rfl⟩

/-- What a command does with a reply, by the outcome of the check. -/
structure Handles (expectedType : ℤ) (uses : Option RedisReply → List ReplyUse) : Prop where
  null : uses none = []
  accepted : ∀ r, Accepts expectedType r → ∃ n, uses (some r) = reads n ++ [.free]
  /-- The second free is the caller's. -/
  rejected : ∀ r, ¬ Accepts expectedType r → ∃ n, uses (some r) = reads n ++ [.free, .free]

theorem handles_status (expectedType : ℤ) :
    Handles expectedType fun reply => (status expectedType reply).2 where
  null := rfl
  accepted r h := by
    obtain ⟨n, heq⟩ := checkReply_accepted h
    refine ⟨n, ?_⟩
    rw [status, heq]
    rfl
  rejected r h := by
    obtain ⟨n, heq⟩ := checkReply_rejected h
    refine ⟨n, ?_⟩
    rw [status, heq]
    exact List.append_assoc _ _ _

theorem handles_checked {α : Type} (expectedType : ℤ) (failed : α)
    {body : RedisReply → α × List ReplyUse} (hbody : ∀ r, ∃ n, (body r).2 = reads n ++ [.free]) :
    Handles expectedType fun reply => (checked expectedType failed body reply).2 where
  null := rfl
  accepted r h := by
    obtain ⟨n, heq⟩ := checkReply_accepted h
    obtain ⟨k, hk⟩ := hbody r
    refine ⟨n + k, ?_⟩
    unfold checked
    rw [heq]
    show reads n ++ (body r).2 = _
    rw [hk, ← List.append_assoc, reads_append]
  rejected r h := by
    obtain ⟨n, heq⟩ := checkReply_rejected h
    refine ⟨n, ?_⟩
    unfold checked
    rw [heq]
    exact List.append_assoc _ _ _

theorem Command.handles (c : Command) : Handles c.expectedType c.uses := by
  cases c with
  | set => exact handles_status redisReplyStatus
  | setEx => exact handles_status redisReplyStatus
  | get =>
    apply handles_checked (-1) none
    intro r
    split
    · exact ⟨1, rfl⟩
    · exact ⟨3, rfl⟩
  | expire => exact handles_status redisReplyInteger
  | existsKey => exact handles_checked redisReplyInteger false fun r => ⟨1, rfl⟩
  | lpush => exact handles_checked redisReplyInteger 0 fun r => ⟨1, rfl⟩
  | brpop =>
    apply handles_checked redisReplyArray none
    intro r
    split
    · exact ⟨3, rfl⟩
    · exact ⟨1, rfl⟩
  | llen => exact handles_checked redisReplyInteger 0 fun r => ⟨1, rfl⟩

/-- **A reply is released exactly if it is accepted**: every other one is freed
by `checkReply`, and by its caller once more. -/
theorem released_iff (c : Command) (reply : Option RedisReply) :
    Released reply (c.uses reply) ↔ ∀ r, reply = some r → Accepts c.expectedType r := by
  cases reply with
  | none =>
    refine iff_of_true ?_ fun r h => by cases h
    rw [Released, c.handles.null]
    exact List.not_mem_nil
  | some r =>
    constructor
    · rintro h r' heq
      obtain rfl := Option.some.inj heq
      by_contra hreject
      obtain ⟨n, huses⟩ := c.handles.rejected r hreject
      rw [huses] at h
      exact not_released_twice r n h
    · intro h
      obtain ⟨n, huses⟩ := c.handles.accepted r (h r rfl)
      rw [huses]
      exact released_reads r n

/-- `DEL` does not check its reply, and always releases it. -/
theorem released_del (reply : Option RedisReply) : Released reply (del reply).2 := by
  cases reply with
  | none => exact List.not_mem_nil
  | some r => exact released_reads r 0

/-- **`BRPOP` at its timeout**: the reply is nil, and freed twice. -/
theorem freed_twice_brpop :
    ¬ ∀ (c : Command) (reply : Option RedisReply), Released reply (c.uses reply) := by
  intro hclaim
  have hnil : Released (some { type := redisReplyNil }) [.read, .read, .read, .free, .free] :=
    hclaim .brpop (some { type := redisReplyNil })
  exact not_released_twice _ 3 hnil

end RedisReply

end MiniArena
