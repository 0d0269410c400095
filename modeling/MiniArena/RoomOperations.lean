/-
MiniArena/RoomOperations.lean

The drainers of one battle worker's room operations (`drainPendingOps`).

`pending_mtx_` covers the pop of an operation and `rooms_mtx_` its
application, one after the other, so between the two a thread holds an
operation that is in the queue no more.  The worker's thread drains in its
loop; an I/O thread drains in `startBattle`, if it finds the worker without
rooms.  Any number of them may be under way at a time.

The operations are numbered in the order in which they are put on the queue.
The numbers, `enqueued` and `applied` are there to speak about the order; the
program has none of them.  The ticks of the worker are left out: they change
players, and apply no operation.
-/
import MiniArena.BattleManager

namespace MiniArena

variable {F : Type}

/-- The threads that may drain. -/
inductive Drainer
  | worker
  | io (i : ℕ)
  deriving DecidableEq

/-- Where a thread is in `drainPendingOps`. -/
inductive DrainStage (F : Type)
  | outside
  | looping
  /-- It has popped operation number `n` and not applied it yet. -/
  | holding (n : ℕ) (op : PendingOp F)

/-- Operation number `number` was applied when the clock read `now`. -/
structure Applied (F : Type) where
  number : ℕ
  op : PendingOp F
  now : ℤ

structure RoomOperations (F : Type) where
  worker : LogicWorker F := {}
  stage : Drainer → DrainStage F := fun _ => .outside
  popped : ℕ := 0
  enqueued : List (PendingOp F) := []
  applied : List (Applied F) := []

inductive DrainEvent (F : Type)
  /-- `addRoom`, `removeRoom` or `markDisconnected`, from any thread. -/
  | enqueue (op : PendingOp F)
  | enter (t : Drainer)
  | pop (t : Drainer)
  | apply (t : Drainer) (now : ℤ)
  | leave (t : Drainer)

namespace RoomOperations

def setStage (d : RoomOperations F) (t : Drainer) (st : DrainStage F) : RoomOperations F :=
  { d with stage := Function.update d.stage t st }

/-- One step of one thread. -/
inductive Steps : RoomOperations F → DrainEvent F → RoomOperations F → Prop
  | enqueue (d : RoomOperations F) (op : PendingOp F) :
      Steps d (.enqueue op)
        { d with worker := d.worker.enqueue op, enqueued := d.enqueued ++ [op] }
  | enter {d : RoomOperations F} {t : Drainer} (hout : d.stage t = .outside)
      (hempty : t ≠ .worker → d.worker.roomCount = 0) :
      Steps d (.enter t) (d.setStage t .looping)
  | pop {d : RoomOperations F} {t : Drainer} {op : PendingOp F} {ops : List (PendingOp F)}
      (hloop : d.stage t = .looping) (hq : d.worker.pendingOps = op :: ops) :
      Steps d (.pop t)
        { d.setStage t (.holding d.popped op) with
          worker := { d.worker with pendingOps := ops }
          popped := d.popped + 1 }
  | apply {d : RoomOperations F} {t : Drainer} {n : ℕ} {op : PendingOp F} (now : ℤ)
      (hhold : d.stage t = .holding n op) :
      Steps d (.apply t now)
        { d.setStage t .looping with
          worker := d.worker.applyOp now op
          applied := d.applied ++ [⟨n, op, now⟩] }
  | leave {d : RoomOperations F} {t : Drainer} (hloop : d.stage t = .looping)
      (hq : d.worker.pendingOps = []) :
      Steps d (.leave t) (d.setStage t .outside)

/-- The operations have taken effect in the order of the queue. -/
structure InOrder (d : RoomOperations F) : Prop where
  numbers : d.applied.map Applied.number = List.range d.applied.length
  ops : d.applied.map Applied.op = d.enqueued.take d.applied.length
  rooms : d.worker.rooms =
    (d.applied.foldl (fun w a => w.applyOp a.now a.op) ({} : LogicWorker F)).rooms
  /-- Once nothing is under way, the fold is that of all operations. -/
  all : d.worker.pendingOps = [] → (∀ t n op, d.stage t ≠ .holding n op) →
    d.applied.map Applied.op = d.enqueued

/-- What `t` applies, it has popped before what the other threads hold. -/
def OldestFirst (d : RoomOperations F) : DrainEvent F → Prop
  | .apply t _ => ∀ n op, d.stage t = .holding n op →
      ∀ t' n' op', t' ≠ t → d.stage t' = .holding n' op' → n < n'
  | _ => True

/-! ### The numbers of the operations -/

/-- An operation that was popped is applied, or one thread holds it. -/
structure Numbered (d : RoomOperations F) : Prop where
  pending : d.enqueued.drop d.popped = d.worker.pendingOps
  rooms : d.worker.rooms =
    (d.applied.foldl (fun w a => w.applyOp a.now a.op) ({} : LogicWorker F)).rooms
  held_op : ∀ t n op, d.stage t = .holding n op → n < d.popped ∧ d.enqueued[n]? = some op
  held_once : ∀ t t' n op op', d.stage t = .holding n op → d.stage t' = .holding n op' → t = t'
  held_new : ∀ t n op, d.stage t = .holding n op → n ∉ d.applied.map Applied.number
  applied_op : ∀ a ∈ d.applied, a.number < d.popped ∧ d.enqueued[a.number]? = some a.op
  accounted : ∀ n < d.popped, n ∈ d.applied.map Applied.number ∨ ∃ t op, d.stage t = .holding n op

theorem stage_setStage (d : RoomOperations F) (t t' : Drainer) (st : DrainStage F) :
    (d.setStage t st).stage t' = if t' = t then st else d.stage t' :=
  Function.update_apply ..

/-- A thread that holds something after another stage was set held it before. -/
theorem stage_of_setStage {d : RoomOperations F} {t t' : Drainer} {st : DrainStage F} {n : ℕ}
    {op : PendingOp F} (hst : st ≠ .holding n op)
    (h : (d.setStage t st).stage t' = .holding n op) : t' ≠ t ∧ d.stage t' = .holding n op := by
  rw [stage_setStage] at h
  split at h
  · exact absurd h hst
  · rename_i hne
    exact ⟨hne, h⟩

/-! ### One step -/

theorem pendingOps_applyOp (w : LogicWorker F) (now : ℤ) (op : PendingOp F) :
    (w.applyOp now op).pendingOps = w.pendingOps := by
  cases op <;> rfl

/-- What an operation does to the rooms depends on nothing else. -/
theorem rooms_applyOp {w w' : LogicWorker F} (h : w.rooms = w'.rooms) (now : ℤ)
    (op : PendingOp F) : (w.applyOp now op).rooms = (w'.applyOp now op).rooms := by
  cases op <;> simp only [LogicWorker.applyOp, h]

theorem numbered_empty : Numbered ({} : RoomOperations F) where
  pending := rfl
  rooms := rfl
  held_op := by simp
  held_once := by simp
  held_new := by simp
  applied_op := by simp
  accounted := by simp

/-- A stage that changes without an operation in it. -/
theorem Numbered.setStage {d : RoomOperations F} (h : Numbered d) {t : Drainer}
    {st : DrainStage F} (hbefore : ∀ n op, d.stage t ≠ .holding n op)
    (hafter : ∀ n op, st ≠ .holding n op) : Numbered (d.setStage t st) where
  pending := h.pending
  rooms := h.rooms
  held_op := fun t' n op h' => h.held_op t' n op (stage_of_setStage (hafter n op) h').2
  held_once := fun t₁ t₂ n op op' h₁ h₂ => h.held_once t₁ t₂ n op op'
    (stage_of_setStage (hafter n op) h₁).2 (stage_of_setStage (hafter n op') h₂).2
  held_new := fun t' n op h' => h.held_new t' n op (stage_of_setStage (hafter n op) h').2
  applied_op := h.applied_op
  accounted := by
    intro n hn
    apply (h.accounted n hn).imp_right
    rintro ⟨t', op, h'⟩
    refine ⟨t', op, ?_⟩
    rw [stage_setStage, if_neg]
    · exact h'
    · rintro rfl
      exact hbefore n op h'

/-- No more operations were popped than enqueued. -/
theorem Numbered.popped_le {d : RoomOperations F} (h : Numbered d) :
    d.popped ≤ d.enqueued.length := by
  by_contra hlt
  rcases h.accounted d.enqueued.length (not_le.mp hlt) with hmem | ⟨t, op, hold⟩
  · obtain ⟨a, ha, heq⟩ := List.mem_map.mp hmem
    have hget := (h.applied_op a ha).2
    rw [heq, List.getElem?_eq_none (le_refl _)] at hget
    cases hget
  · have hget := (h.held_op t _ op hold).2
    rw [List.getElem?_eq_none (le_refl _)] at hget
    cases hget

/-- An operation that is put on the queue gets the next number. -/
theorem Numbered.enqueue {d : RoomOperations F} (h : Numbered d) (op : PendingOp F) :
    Numbered { d with worker := d.worker.enqueue op, enqueued := d.enqueued ++ [op] } where
  pending := by
    show (d.enqueued ++ [op]).drop d.popped = d.worker.pendingOps ++ [op]
    rw [List.drop_append_of_le_length h.popped_le, h.pending]
  rooms := h.rooms
  held_op := by
    intro t n op' h'
    obtain ⟨hn, hop⟩ := h.held_op t n op' h'
    exact ⟨hn, by rw [List.getElem?_append_left (hn.trans_le h.popped_le), hop]⟩
  held_once := h.held_once
  held_new := h.held_new
  applied_op := by
    intro a ha
    obtain ⟨hn, hop⟩ := h.applied_op a ha
    exact ⟨hn, by rw [List.getElem?_append_left (hn.trans_le h.popped_le), hop]⟩
  accounted := h.accounted

theorem Numbered.pop {d : RoomOperations F} (h : Numbered d) {t : Drainer} {op : PendingOp F}
    {ops : List (PendingOp F)} (hloop : d.stage t = .looping) (hq : d.worker.pendingOps = op :: ops) :
    Numbered { d.setStage t (.holding d.popped op) with
      worker := { d.worker with pendingOps := ops }
      popped := d.popped + 1 } := by
  have hdrop : d.enqueued.drop d.popped = op :: ops := h.pending.trans hq
  have hget : d.enqueued[d.popped]? = some op := by
    rw [← List.head?_drop, hdrop]
    rfl
  -- a thread holds the new number, or held its operation before
  have hcases : ∀ t' n op', (d.setStage t (.holding d.popped op)).stage t' = .holding n op' →
      (t' = t ∧ n = d.popped ∧ op' = op) ∨ d.stage t' = .holding n op' := by
    intro t' n op' h'
    rw [stage_setStage] at h'
    split at h'
    · obtain ⟨rfl, rfl⟩ := DrainStage.holding.inj h'
      exact Or.inl ⟨‹_›, rfl, rfl⟩
    · exact Or.inr h'
  refine ⟨?_, h.rooms, ?_, ?_, ?_, ?_, ?_⟩
  · show d.enqueued.drop (d.popped + 1) = ops
    rw [← List.tail_drop, hdrop]
    rfl
  · intro t' n op' h'
    rcases hcases t' n op' h' with ⟨-, rfl, rfl⟩ | hold
    · exact ⟨Nat.lt_succ_self _, hget⟩
    · exact ⟨Nat.lt_succ_of_lt (h.held_op t' n op' hold).1, (h.held_op t' n op' hold).2⟩
  · intro t₁ t₂ n op₁ op₂ h₁ h₂
    rcases hcases t₁ n op₁ h₁ with ⟨rfl, rfl, rfl⟩ | hold₁
    · rcases hcases t₂ _ op₂ h₂ with ⟨rfl, -, -⟩ | hold₂
      · rfl
      · exact absurd (h.held_op t₂ _ op₂ hold₂).1 (lt_irrefl _)
    · rcases hcases t₂ n op₂ h₂ with ⟨rfl, rfl, rfl⟩ | hold₂
      · exact absurd (h.held_op t₁ _ op₁ hold₁).1 (lt_irrefl _)
      · exact h.held_once t₁ t₂ n op₁ op₂ hold₁ hold₂
  · intro t' n op' h' hmem
    rcases hcases t' n op' h' with ⟨-, rfl, -⟩ | hold
    · obtain ⟨a, ha, heq⟩ := List.mem_map.mp hmem
      have := (h.applied_op a ha).1
      omega
    · exact h.held_new t' n op' hold hmem
  · exact fun a ha => ⟨Nat.lt_succ_of_lt (h.applied_op a ha).1, (h.applied_op a ha).2⟩
  · intro n hn
    rcases Nat.lt_succ_iff_lt_or_eq.mp hn with hlt | rfl
    · apply (h.accounted n hlt).imp_right
      rintro ⟨t', op', hold⟩
      refine ⟨t', op', ?_⟩
      show (d.setStage t _).stage t' = _
      rw [stage_setStage, if_neg]
      · exact hold
      · rintro rfl
        rw [hloop] at hold
        cases hold
    · refine Or.inr ⟨t, op, ?_⟩
      show (d.setStage t _).stage t = _
      rw [stage_setStage, if_pos rfl]

theorem Numbered.apply {d : RoomOperations F} (h : Numbered d) {t : Drainer} {n : ℕ}
    {op : PendingOp F} (now : ℤ) (hhold : d.stage t = .holding n op) :
    Numbered { d.setStage t .looping with
      worker := d.worker.applyOp now op
      applied := d.applied ++ [⟨n, op, now⟩] } := by
  have hback : ∀ t' n' op', (d.setStage t .looping).stage t' = .holding n' op' →
      t' ≠ t ∧ d.stage t' = .holding n' op' :=
    fun t' n' op' h' => stage_of_setStage (by simp) h'
  refine ⟨?_, ?_, ?_, ?_, ?_, ?_, ?_⟩
  · rw [pendingOps_applyOp]
    exact h.pending
  · rw [List.foldl_append]
    exact rooms_applyOp h.rooms now op
  · exact fun t' n' op' h' => h.held_op t' n' op' (hback t' n' op' h').2
  · exact fun t₁ t₂ n' op₁ op₂ h₁ h₂ =>
      h.held_once t₁ t₂ n' op₁ op₂ (hback t₁ n' op₁ h₁).2 (hback t₂ n' op₂ h₂).2
  · intro t' n' op' h' hmem
    obtain ⟨hne, hold⟩ := hback t' n' op' h'
    rw [List.map_append, List.mem_append, List.map_singleton, List.mem_singleton] at hmem
    rcases hmem with hmem | rfl
    · exact h.held_new t' n' op' hold hmem
    · exact hne (h.held_once t' t _ op' op hold hhold)
  · intro a ha
    rcases List.mem_append.mp ha with ha | ha
    · exact h.applied_op a ha
    · obtain rfl := List.mem_singleton.mp ha
      exact h.held_op t n op hhold
  · intro n' hn'
    rw [List.map_append, List.mem_append, List.map_singleton, List.mem_singleton]
    rcases h.accounted n' hn' with hmem | ⟨t', op', hold⟩
    · exact Or.inl (Or.inl hmem)
    by_cases ht : t' = t
    · subst ht
      rw [hhold] at hold
      obtain ⟨rfl, -⟩ := DrainStage.holding.inj hold
      exact Or.inl (Or.inr rfl)
    · refine Or.inr ⟨t', op', ?_⟩
      show (d.setStage t _).stage t' = _
      rw [stage_setStage, if_neg ht]
      exact hold

theorem Numbered.step {d d' : RoomOperations F} {e : DrainEvent F} (h : Numbered d)
    (hstep : Steps d e d') : Numbered d' := by
  cases hstep with
  | enqueue op => exact h.enqueue op
  | enter hout hempty =>
    apply h.setStage
    · simp [hout]
    · simp
  | pop hloop hq => exact h.pop hloop hq
  | apply now hhold => exact h.apply now hhold
  | leave hloop hq =>
    apply h.setStage
    · simp [hloop]
    · simp

/-! ### The order -/

/-- It is enough that the numbers come in order. -/
theorem inOrder_iff {d : RoomOperations F} (h : Numbered d) :
    InOrder d ↔ d.applied.map Applied.number = List.range d.applied.length := by
  refine ⟨InOrder.numbers, fun hnum => ?_⟩
  -- the numbers are those below the length, and each of them was popped
  have hlen : d.applied.length ≤ d.popped := by
    rcases Nat.eq_zero_or_pos d.applied.length with h0 | hpos
    · omega
    have hlast : d.applied.length - 1 ∈ d.applied.map Applied.number := by
      rw [hnum, List.mem_range]
      omega
    obtain ⟨a, ha, heq⟩ := List.mem_map.mp hlast
    have := (h.applied_op a ha).1
    omega
  have hops : d.applied.map Applied.op = d.enqueued.take d.applied.length := by
    apply List.ext_getElem?
    intro i
    rw [List.getElem?_map, List.getElem?_take]
    split
    · rename_i hi
      have hget : d.applied[i]? = some d.applied[i] := List.getElem?_eq_getElem hi
      have hi' : (d.applied.map Applied.number)[i]? = some i := by
        rw [hnum, List.getElem?_range hi]
      rw [List.getElem?_map, hget, Option.map_some] at hi'
      rw [hget, Option.map_some]
      have hop := (h.applied_op _ (List.getElem_mem hi)).2
      rw [Option.some.inj hi'] at hop
      exact hop.symm
    · rename_i hi
      rw [List.getElem?_eq_none (not_lt.mp hi)]
      rfl
  refine ⟨hnum, hops, h.rooms, fun hq hidle => ?_⟩
  -- everything popped is applied, and everything enqueued is popped
  have hall : d.popped ≤ d.applied.length := by
    by_contra hlt
    rcases h.accounted d.applied.length (not_le.mp hlt) with hmem | ⟨t, op, hold⟩
    · rw [hnum, List.mem_range] at hmem
      exact lt_irrefl _ hmem
    · exact hidle t _ op hold
  have hdrop := h.pending
  rw [hq, List.drop_eq_nil_iff] at hdrop
  rw [hops, List.take_of_length_le (hdrop.trans hall)]

/-- **One step** keeps the order exactly when it applies the oldest operation. -/
theorem inOrder_step {d d' : RoomOperations F} {e : DrainEvent F} (h : Numbered d)
    (hd : InOrder d) (hstep : Steps d e d') : InOrder d' ↔ OldestFirst d e := by
  rw [inOrder_iff (h.step hstep)]
  cases hstep with
  | apply now hhold =>
    rename_i t n op
    have hnew := h.held_new t n op hhold
    rw [hd.numbers, List.mem_range, not_lt] at hnew
    show (d.applied ++ [_]).map Applied.number = List.range (d.applied ++ [_]).length ↔ _
    rw [List.map_append, hd.numbers, List.length_append, List.length_singleton,
      List.range_succ, List.append_cancel_left_eq, List.map_singleton, List.singleton_inj]
    -- the order is kept iff `n` is the number of operations applied so far
    constructor
    · rintro rfl n' op' h' t' n'' op'' hne hold
      rw [hhold] at h'
      obtain ⟨rfl, -⟩ := DrainStage.holding.inj h'
      have hle := h.held_new t' n'' op'' hold
      rw [hd.numbers, List.mem_range, not_lt] at hle
      rcases hle.lt_or_eq with hlt | rfl
      · exact hlt
      · exact absurd (h.held_once t' t _ op'' op hold hhold) hne
    · intro hold
      by_contra hne
      -- the operation that should have been next is older, and another thread holds it
      have hlt : d.applied.length < n := lt_of_le_of_ne hnew (Ne.symm hne)
      rcases h.accounted _ (hlt.trans (h.held_op t n op hhold).1) with hmem | ⟨t', op', h'⟩
      · rw [hd.numbers, List.mem_range] at hmem
        exact lt_irrefl _ hmem
      · have ht : t' ≠ t := by
          rintro rfl
          rw [hhold] at h'
          exact hne (DrainStage.holding.inj h').1
        exact absurd (hold n op hhold t' _ op' ht h') (not_lt.mpr hnew)
  | _ => exact iff_of_true hd.numbers trivial

/-- **Room operations take effect in order** exactly in the runs in which no
drainer applies an operation while another one holds an older one. -/
theorem operations_in_order {d : RoomOperations F} {es : List (DrainEvent F)} :
    Transition.Run (fun d e d' => Steps d e d' ∧ InOrder d') {} es d ↔
      Transition.Run (fun d e d' => Steps d e d' ∧ OldestFirst d e) {} es d := by
  apply Transition.Run.target_congr (J := Numbered)
  · exact fun d e d' h hstep => h.step hstep
  · exact fun d e d' h hd hstep => inOrder_step h hd hstep
  · exact numbered_empty
  · exact (inOrder_iff numbered_empty).mpr rfl

/-- A thread that drains undisturbed does what `LogicWorker.drainPendingOps` says. -/
theorem drain_alone {d : RoomOperations F} {t : Drainer} {ops : List (PendingOp F)} (now : ℤ)
    (hloop : d.stage t = .looping) (hq : d.worker.pendingOps = ops) :
    ∃ d', Transition.Run Steps d (ops.flatMap fun _ => [.pop t, .apply t now]) d' ∧
      d'.worker = d.worker.drainPendingOps now ∧ d'.stage t = .looping := by
  induction ops generalizing d with
  | nil =>
    refine ⟨d, .nil, ?_, hloop⟩
    rw [LogicWorker.drainPendingOps, hq, List.foldl_nil, ← hq]
  | cons op ops ih =>
    let d₁ : RoomOperations F := { d.setStage t (.holding d.popped op) with
      worker := { d.worker with pendingOps := ops }
      popped := d.popped + 1 }
    have hhold : d₁.stage t = .holding d.popped op := Function.update_self ..
    let d₂ : RoomOperations F := { d₁.setStage t .looping with
      worker := d₁.worker.applyOp now op
      applied := d₁.applied ++ [⟨d.popped, op, now⟩] }
    have hnext : d₂.stage t = .looping := Function.update_self ..
    have hops : d₂.worker.pendingOps = ops := pendingOps_applyOp d₁.worker now op
    obtain ⟨d', hrun, hworker, hstage⟩ := ih hnext hops
    refine ⟨d', .cons (.pop hloop hq) (.cons (.apply now hhold) hrun), hworker.trans ?_, hstage⟩
    rw [LogicWorker.drainPendingOps, LogicWorker.drainPendingOps, hq, hops, List.foldl_cons]
    congr 1
    cases op <;> rfl

/-- Thread 0 starts the battle of room 1 and has popped its `AddRoom`; player 7
disconnects; thread 1 starts another battle, finds the worker still without
rooms, and applies the disconnect mark before the room is there. -/
theorem lost_mark : ∃ (es : List (DrainEvent ℚ)) (d : RoomOperations ℚ),
    Transition.Run Steps {} es d ∧ d.worker.pendingOps = [] ∧
      (d.worker.rooms.lookup 1).map WorkerRoom.disconnected = some ∅ ∧ ¬ InOrder d := by
  let es : List (DrainEvent ℚ) :=
    [.enqueue (.addRoom 1 ∅), .enter (.io 0), .pop (.io 0), .enqueue (.markDisconnected 1 7),
      .enqueue (.addRoom 2 ∅), .enter (.io 1), .pop (.io 1), .apply (.io 1) 5, .apply (.io 0) 6,
      .pop (.io 1), .apply (.io 1) 7]
  have hrun : ∃ d, Transition.Run Steps ({} : RoomOperations ℚ) es d ∧ d.worker.pendingOps = [] ∧
      (d.worker.rooms.lookup 1).map WorkerRoom.disconnected = some ∅ ∧
      d.applied.map Applied.number = [1, 0, 2] :=
    ⟨_, .cons (.enqueue _ _) (.cons (.enter rfl fun _ => rfl) (.cons (.pop rfl rfl)
      (.cons (.enqueue _ _) (.cons (.enqueue _ _) (.cons (.enter rfl fun _ => rfl)
      (.cons (.pop rfl rfl) (.cons (.apply 5 rfl) (.cons (.apply 6 rfl) (.cons (.pop rfl rfl)
      (.cons (.apply 7 rfl) .nil)))))))))), rfl, rfl, rfl⟩
  -- the mark, operation 1, took effect before operation 0
  obtain ⟨d, hrun, hq, hroom, hnum⟩ := hrun
  refine ⟨es, d, hrun, hq, hroom, fun h => ?_⟩
  have hlen : d.applied.length = 3 := by
    rw [← List.length_map (f := Applied.number), hnum]
    rfl
  have hrange := h.numbers
  rw [hnum, hlen] at hrange
  exact absurd hrange (by decide)

end RoomOperations

end MiniArena
