/-
MiniArena/MatchQueue.lean

The match queue of a Redis that works.

`LPUSH` puts an entry before the others and `BRPOP` takes the last one, so
the list under a queue's key is the queue backwards, each player id as
decimal text (`Queue`).  `Fifo` is what `RedisView` leaves open: that a
command on a list that is there does not fail.  The session manager's own
commands leave every queue alone (`sameQueues_commands`).
-/
import MiniArena.StoreCommands

namespace MiniArena

variable {σ : Type} [Storage σ]

open RedisClient

namespace RedisView

/-- `LLEN` counts, and `BRPOP` answers as long as there is an entry. -/
structure Fifo (R : RedisView σ) : Prop where
  llen : ∀ key st, (Storage.llen key st).1 = (R.lists st key).length
  brpop : ∀ key timeout st rest text, R.lists st key = rest ++ [text] →
    ∃ st', Storage.brpop key timeout st = some (some text, st')

/-- The list under the queue's key holds the entries `q`, oldest entry first. -/
def Queue (R : RedisView σ) (st : σ) (mode : ℤ) (q : List PlayerId) : Prop :=
  R.lists st (matchQueueKey mode) = (q.map toStringU64).reverse

/-- No queue has changed. -/
def SameQueues (R : RedisView σ) (st st' : σ) : Prop :=
  ∀ mode, R.lists st' (matchQueueKey mode) = R.lists st (matchQueueKey mode)

variable {R : RedisView σ} {st st' : σ} {mode mode' : ℤ} {pid : PlayerId} {q q' : List PlayerId}

theorem Queue.of_same (h : R.Queue st mode q) (hsame : R.SameQueues st st') :
    R.Queue st' mode q := by
  rw [Queue, hsame mode]
  exact h

/-- The text says which players wait, and in which order. -/
theorem Queue.unique (h : R.Queue st mode q) (h' : R.Queue st mode q') : q = q' := by
  have htext : q.map toStringU64 = q'.map toStringU64 := List.reverse_inj.mp (h.symm.trans h')
  exact List.map_injective_iff.mpr (fun _ _ => toStringU64_inj.mp) htext

theorem sameQueues_of_lists (h : R.lists st' = R.lists st) : R.SameQueues st st' := by
  intro mode
  rw [h]

theorem session_ne_matchQueue (id : UInt64) (mode : ℤ) :
    makeKey "session" id ≠ matchQueueKey mode := by
  rw [makeKey, String.append_assoc]
  exact @append_ne _ _ _ _ 's' 'm' rfl rfl (by decide)

theorem online_ne_matchQueue (id : UInt64) (mode : ℤ) :
    makeKey "online" id ≠ matchQueueKey mode := by
  rw [makeKey, String.append_assoc]
  exact @append_ne _ _ _ _ 'o' 'm' rfl rfl (by decide)

theorem sameQueues_del {key : String} (hkey : ∀ mode, key ≠ matchQueueKey mode) :
    R.SameQueues st (Storage.del key st).2 := by
  intro mode
  rw [(R.del key st).2, Function.update_of_ne (hkey mode).symm]

/-- Keys of sessions and players are no keys of queues. -/
theorem sameQueues_commands : SessionManager.Commands (R.SameQueues) where
  refl _ _ := rfl
  trans h h' mode := (h' mode).trans (h mode)
  get key st := sameQueues_of_lists (R.get key st).2
  getPlayer username st := sameQueues_of_lists (R.getPlayer username st).2
  createPlayer username password st := sameQueues_of_lists (R.createPlayer username password st).2
  cachePlayer _ _ st := sameQueues_of_lists (R.set _ _ st).2
  saveToRedis _ st := by
    intro mode
    rw [SessionManager.saveToRedis, RedisClient.setOnline, (R.set _ _ _).2, RedisClient.setSession,
      (R.setEx _ _ _ st).2]
  delSession id _ := sameQueues_del (session_ne_matchQueue id)
  delOnline id _ := sameQueues_del (online_ne_matchQueue id)
  recordLogin _ st := sameQueues_of_lists (R.recordLogin _ st).2

/-! ### The queue's own commands -/

theorem sameQueues_matchQueueSize : R.SameQueues st (matchQueueSize mode st).2 :=
  sameQueues_of_lists (R.llen _ st).2

theorem matchQueueSize_eq (hR : R.Fifo) (h : R.Queue st mode q) :
    (matchQueueSize mode st).1 = Int.bmod q.length (2 ^ 32) := by
  rw [matchQueueSize, hR.llen, h, List.length_reverse, List.length_map]

theorem queue_pushMatchQueue (h : R.Queue st mode q) :
    R.Queue (pushMatchQueue mode pid st) mode (q ++ [pid]) := by
  rw [Queue, pushMatchQueue, (R.lpush _ _ st).2, Function.update_self, h]
  simp

theorem queue_pushMatchQueue_of_ne (h : R.Queue st mode q) (hne : mode' ≠ mode) :
    R.Queue (pushMatchQueue mode' pid st) mode q := by
  rw [Queue, pushMatchQueue, (R.lpush _ _ st).2, Function.update_of_ne]
  · exact h
  · intro heq
    exact hne (matchQueueKey_inj.mp heq).symm

/-- The oldest entry is popped. -/
theorem popMatchQueue_eq (hR : R.Fifo) (h : R.Queue st mode (pid :: q)) :
    ∃ st', popMatchQueue mode st = some (some pid, st') ∧ R.Queue st' mode q ∧
      ∀ mode', mode' ≠ mode → R.lists st' (matchQueueKey mode')
        = R.lists st (matchQueueKey mode') := by
  have hlist : R.lists st (matchQueueKey mode) = (q.map toStringU64).reverse ++ [toStringU64 pid] := by
    rw [h, List.map_cons, List.reverse_cons]
  obtain ⟨st', hpop⟩ := hR.brpop _ 0 _ _ _ hlist
  obtain ⟨-, rest, hrest, hlists⟩ := R.brpop _ _ _ _ _ hpop
  obtain rfl := List.append_left_injective _ (hlist.symm.trans hrest)
  refine ⟨st', ?_, ?_, fun mode' hne => ?_⟩
  · rw [popMatchQueue, hpop, Option.bind_some]
    dsimp only
    rw [stoull_toStringU64, Option.map_some]
  · rw [Queue, hlists, Function.update_self]
  · rw [hlists, Function.update_of_ne]
    intro heq
    exact hne (matchQueueKey_inj.mp heq)

end RedisView

theorem MemoryStore.fifo_redisView : MemoryStore.redisView.Fifo where
  llen _ _ := rfl
  brpop key timeout st rest text h := by
    have hlast : (st.listAt key).getLast? = some text := by
      rw [show st.listAt key = rest ++ [text] from h, List.getLast?_concat]
    refine ⟨{ st with lists := st.lists.insert key (st.listAt key).dropLast }, ?_⟩
    show (st.listAt key).getLast?.map _ = _
    rw [hlast]
    rfl

end MiniArena
