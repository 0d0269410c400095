/-
MiniArena/RunLoop.lean

The thread of a battle worker (`LogicWorker::run`).

The loop drains the pending operations, looks at the clock, ticks if 50 whole
milliseconds have passed since the last tick was due, and otherwise waits to
be notified or for the rest of the interval.  After a tick it does not wait.
`last_tick` becomes the time at which the tick was found due, so ticks are
never made up for.  The durations of the last ticks are kept until there are
200 of them, then sorted and reported.

Other threads act on the worker at any time.  A reading of the steady clock is
never below an earlier one of the thread.  Times are nanoseconds.
-/
import MiniArena.GameServer

namespace MiniArena

variable {F : Type} [FloatOps F]

/-- Where the thread is in `run()`. -/
inductive RunPc
  /-- At `while (running_)`. -/
  | head
  /-- In the loop of `drainPendingOps`. -/
  | draining
  /-- Before the reading that decides on a tick. -/
  | timing
  /-- A tick found due at `now`; `begun` once `tick()` has taken its commands. -/
  | ticking (now t0 : ℤ) (begun : Bool)
  | waiting
  | stopped
  deriving DecidableEq, Repr

structure RunLoop (F : Type) where
  worker : LogicWorker F
  pc : RunPc := .head
  running : Bool := true
  /-- The last reading of the clock. -/
  clock : ℤ
  lastTick : ℤ
  tickCount : ℕ := 0
  tickDurations : List ℤ := []

/-- What every 200th tick prints. -/
structure TickReport where
  tickCount : ℕ
  p50 : ℤ
  p95 : ℤ
  p99 : ℤ
  max : ℤ
  deriving DecidableEq, Repr

inductive RunEvent (F : Type)
  | enter
  | drain (now : ℤ)
  | drained
  /-- `now`, and `t0` if there is a tick. -/
  | time (now t0 : ℤ)
  /-- A step of `tick()`. -/
  | tick (event : WorkerEvent F)
  | ticked (t1 : ℤ)
  /-- `wait_for` returns. -/
  | wake
  | stop
  /-- Another thread. -/
  | other (event : WorkerEvent F)

/-- What a step shows: a tick found due, how long one lasted, a report, and what happens to
the worker. -/
structure RunOut (F : Type) where
  due : Option ℤ := none
  us : Option ℤ := none
  report : Option TickReport := none
  work : Option (WorkerEvent F × WorkerOut F) := none

/-- Times at least `d` apart, the first not before `lo` and the last not after `hi`. -/
theorem length_of_spaced {d lo hi : ℤ} {ts : List ℤ} (hspaced : ts.Pairwise fun t t' => t + d ≤ t')
    (hlo : ∀ t ∈ ts, lo ≤ t) (hhi : ∀ t ∈ ts, t ≤ hi) (hle : lo ≤ hi + d) :
    d * ts.length ≤ hi - lo + d := by
  induction ts generalizing lo with
  | nil =>
    simp only [List.length_nil, Nat.cast_zero, mul_zero]
    omega
  | cons t ts ih =>
    obtain ⟨hfirst, hrest⟩ := List.pairwise_cons.mp hspaced
    have ht := hhi t List.mem_cons_self
    have := ih hrest hfirst (fun t' ht' => hhi t' (List.mem_cons_of_mem t ht')) (by omega)
    have hlo' := hlo t List.mem_cons_self
    rw [List.length_cons, Nat.cast_succ, mul_add, mul_one]
    omega

namespace RunLoop

open Transition

/-- The thread of `w` enters `run` at the time `start`. -/
def entered (w : LogicWorker F) (start : ℤ) : RunLoop F :=
  { worker := w, clock := start, lastTick := start }

def elapsedMs (l : RunLoop F) (now : ℤ) : ℤ := (now - l.lastTick).tdiv 1000000

/-- The sorted durations at the four places; `none` where one is out of range. -/
def percentiles (tickCount : ℕ) (durations : List ℤ) : Option TickReport :=
  let cp := durations.mergeSort
  let n := cp.length
  match cp[n * 50 / 100]?, cp[n * 95 / 100]?, cp[n * 99 / 100]?, cp.getLast? with
  | some p50, some p95, some p99, some max => some ⟨tickCount, p50, p95, p99, max⟩
  | _, _, _, _ => none

/-- The bookkeeping after `tick()` returns. -/
def account (l : RunLoop F) (now t0 t1 : ℤ) : Option (RunLoop F × RunOut F) :=
  let us := (t1 - t0).tdiv 1000
  let durations := l.tickDurations ++ [us]
  let count := l.tickCount + 1
  let l := { l with pc := .head, clock := t1, lastTick := now, tickCount := count }
  if count % 200 = 0 then
    (percentiles count durations).map fun r =>
      ({ l with tickDurations := [] }, { us := some us, report := some r })
  else some ({ l with tickDurations := durations }, { us := some us })

/-- Whether `tick()` can do this next. -/
def inTick (begun : Bool) : WorkerEvent F → Bool
  | .tickBegin _ => !begun
  | .tickRoom _ => begun
  | .broadcast => begun
  | .checkDisconnected _ => begun
  | _ => false

/-- The clock at a step of the thread. -/
def reading (clock : ℤ) : WorkerEvent F → ℤ
  | .drainPendingOp now => now
  | .checkDisconnected now => now
  | _ => clock

/-- A step of the worker, seen from outside. -/
def work (l : RunLoop F) (event : WorkerEvent F) : Option (RunLoop F × RunOut F) :=
  (l.worker.step event).map fun (w, out) => ({ l with worker := w }, { work := some (event, out) })

def step (l : RunLoop F) : RunEvent F → Option (RunLoop F × RunOut F)
  | .enter =>
      if l.pc = .head then some ({ l with pc := if l.running then .draining else .stopped }, {})
      else none
  | .drain now =>
      if l.pc = .draining ∧ l.worker.pendingOps ≠ [] ∧ l.clock ≤ now then
        work { l with clock := now } (.drainPendingOp now)
      else none
  | .drained =>
      if l.pc = .draining ∧ l.worker.pendingOps = [] then some ({ l with pc := .timing }, {})
      else none
  | .time now t0 =>
      if l.pc = .timing ∧ l.clock ≤ now ∧ now ≤ t0 then
        if kTickIntervalMs ≤ l.elapsedMs now then
          some ({ l with pc := .ticking now t0 false, clock := t0 }, { due := some now })
        else some ({ l with pc := .waiting, clock := now }, {})
      else none
  | .tick event =>
      match l.pc with
      | .ticking now t0 begun =>
          if inTick begun event ∧ l.clock ≤ reading l.clock event then
            work { l with pc := .ticking now t0 true, clock := reading l.clock event } event
          else none
      | _ => none
  | .ticked t1 =>
      match l.pc with
      | .ticking now t0 true =>
          match l.worker.phase with
          | .idle => if l.clock ≤ t1 then l.account now t0 t1 else none
          | _ => none
      | _ => none
  | .wake => if l.pc = .waiting then some ({ l with pc := .head }, {}) else none
  | .stop => some ({ l with running := false }, {})
  | .other event => if GameServer.ofThread event then none else l.work event

/-- The step relation; a label is an event with what it shows. -/
def Steps (l : RunLoop F) (e : RunEvent F × RunOut F) (l' : RunLoop F) : Prop :=
  l.step e.1 = some (l', e.2)

/-- When each event can happen, and what it does. -/
inductive StepCase (l : RunLoop F) : RunEvent F → RunLoop F → RunOut F → Prop
  | enter (pc : l.pc = .head) : StepCase l .enter
      { l with pc := if l.running then .draining else .stopped } {}
  | drain {w : LogicWorker F} {out : WorkerOut F} (now : ℤ) (pc : l.pc = .draining)
      (clock : l.clock ≤ now) (work : l.worker.step (.drainPendingOp now) = some (w, out)) :
      StepCase l (.drain now) { l with worker := w, clock := now }
        { work := some (.drainPendingOp now, out) }
  | drained (pc : l.pc = .draining) (empty : l.worker.pendingOps = []) :
      StepCase l .drained { l with pc := .timing } {}
  | due (now t0 : ℤ) (pc : l.pc = .timing) (clock : l.clock ≤ now) (later : now ≤ t0)
      (due : kTickIntervalMs ≤ l.elapsedMs now) : StepCase l (.time now t0)
        { l with pc := .ticking now t0 false, clock := t0 } { due := some now }
  | early (now t0 : ℤ) (pc : l.pc = .timing) (clock : l.clock ≤ now)
      (early : l.elapsedMs now < kTickIntervalMs) : StepCase l (.time now t0)
        { l with pc := .waiting, clock := now } {}
  | tick {now t0 : ℤ} {begun : Bool} {event : WorkerEvent F} {w : LogicWorker F}
      {out : WorkerOut F} (pc : l.pc = .ticking now t0 begun) (mine : inTick begun event = true)
      (clock : l.clock ≤ reading l.clock event) (work : l.worker.step event = some (w, out)) :
      StepCase l (.tick event)
        { l with worker := w, pc := .ticking now t0 true, clock := reading l.clock event }
        { work := some (event, out) }
  | ticked {now t0 : ℤ} {l' : RunLoop F} {out : RunOut F} (t1 : ℤ)
      (pc : l.pc = .ticking now t0 true) (idle : l.worker.phase = .idle) (clock : l.clock ≤ t1)
      (account : l.account now t0 t1 = some (l', out)) : StepCase l (.ticked t1) l' out
  | wake (pc : l.pc = .waiting) : StepCase l .wake { l with pc := .head } {}
  | stop : StepCase l .stop { l with running := false } {}
  | other {event : WorkerEvent F} {w : LogicWorker F} {out : WorkerOut F}
      (theirs : GameServer.ofThread event = false) (work : l.worker.step event = some (w, out)) :
      StepCase l (.other event) { l with worker := w } { work := some (event, out) }

theorem work_eq_some {l l' : RunLoop F} {event : WorkerEvent F} {out : RunOut F}
    (h : l.work event = some (l', out)) : ∃ w o, l.worker.step event = some (w, o) ∧
      l' = { l with worker := w } ∧ out = { work := some (event, o) } := by
  obtain ⟨⟨w, o⟩, hw, heq⟩ := Option.map_eq_some_iff.mp h
  obtain ⟨rfl, rfl⟩ := Prod.mk.injEq .. ▸ heq
  exact ⟨w, o, hw, rfl, rfl⟩

/-- **What a step can do.** -/
theorem step_cases {l l' : RunLoop F} {ev : RunEvent F} {out : RunOut F}
    (h : l.step ev = some (l', out)) : StepCase l ev l' out := by
  cases ev with
  | enter =>
    obtain ⟨hpc, heq⟩ := Option.ite_none_right_eq_some.mp h
    obtain ⟨rfl, rfl⟩ := Prod.mk.injEq .. ▸ Option.some.inj heq
    exact .enter hpc
  | drain now =>
    obtain ⟨⟨hpc, -, hclock⟩, hwork⟩ := Option.ite_none_right_eq_some.mp h
    obtain ⟨w, o, hw, rfl, rfl⟩ := work_eq_some hwork
    exact .drain now hpc hclock hw
  | drained =>
    obtain ⟨⟨hpc, hempty⟩, heq⟩ := Option.ite_none_right_eq_some.mp h
    obtain ⟨rfl, rfl⟩ := Prod.mk.injEq .. ▸ Option.some.inj heq
    exact .drained hpc hempty
  | time now t0 =>
    obtain ⟨⟨hpc, hclock, hlater⟩, heq⟩ := Option.ite_none_right_eq_some.mp h
    by_cases hdue : kTickIntervalMs ≤ l.elapsedMs now
    · rw [if_pos hdue] at heq
      obtain ⟨rfl, rfl⟩ := Prod.mk.injEq .. ▸ Option.some.inj heq
      exact .due now t0 hpc hclock hlater hdue
    · rw [if_neg hdue] at heq
      obtain ⟨rfl, rfl⟩ := Prod.mk.injEq .. ▸ Option.some.inj heq
      exact .early now t0 hpc hclock (not_le.mp hdue)
  | tick event =>
    dsimp only [step] at h
    split at h
    next now t0 begun hpc =>
      obtain ⟨⟨hmine, hclock⟩, hwork⟩ := Option.ite_none_right_eq_some.mp h
      obtain ⟨w, o, hw, rfl, rfl⟩ := work_eq_some hwork
      exact .tick hpc hmine hclock hw
    next => cases h
  | ticked t1 =>
    dsimp only [step] at h
    split at h
    next now t0 hpc =>
      split at h
      next hidle =>
        obtain ⟨hclock, haccount⟩ := Option.ite_none_right_eq_some.mp h
        exact .ticked t1 hpc hidle hclock haccount
      next => cases h
    next => cases h
  | wake =>
    obtain ⟨hpc, heq⟩ := Option.ite_none_right_eq_some.mp h
    obtain ⟨rfl, rfl⟩ := Prod.mk.injEq .. ▸ Option.some.inj heq
    exact .wake hpc
  | stop =>
    obtain ⟨rfl, rfl⟩ := Prod.mk.injEq .. ▸ Option.some.inj h
    exact .stop
  | other event =>
    obtain ⟨hnot, hwork⟩ := Option.ite_none_left_eq_some.mp h
    obtain ⟨w, o, hw, rfl, rfl⟩ := work_eq_some hwork
    exact .other (Bool.not_eq_true _ ▸ hnot) hw

/-! ### Pacing -/

/-- The times at which ticks were found due. -/
def dues (as : List (RunEvent F × RunOut F)) : List ℤ := as.filterMap fun a => a.2.due

/-- The last time at which a tick was due. -/
def mark (l : RunLoop F) : ℤ :=
  match l.pc with
  | .ticking now _ _ => now
  | _ => l.lastTick

omit [FloatOps F] in
theorem dues_concat (as : List (RunEvent F × RunOut F)) (a : RunEvent F × RunOut F) :
    dues (as ++ [a]) = dues as ++ a.2.due.toList := by
  rw [dues, List.filterMap_append]
  cases hdue : a.2.due <;> simp [dues, hdue]

omit [FloatOps F] in
/-- A tick is due when 50 milliseconds have gone by. -/
theorem due_iff {l : RunLoop F} {now : ℤ} (hclock : l.lastTick ≤ now) :
    kTickIntervalMs ≤ l.elapsedMs now ↔ l.lastTick + 50000000 ≤ now := by
  rw [elapsedMs, Int.tdiv_eq_ediv_of_nonneg (by omega), kTickIntervalMs]
  omega

omit [FloatOps F] in
theorem account_eq_some {l l' : RunLoop F} {now t0 t1 : ℤ} {out : RunOut F}
    (h : l.account now t0 t1 = some (l', out)) :
    l'.worker = l.worker ∧ l'.pc = .head ∧ l'.clock = t1 ∧ l'.lastTick = now ∧
      l'.tickCount = l.tickCount + 1 ∧ out.due = none ∧ out.work = none ∧
      out.us = some ((t1 - t0).tdiv 1000) := by
  unfold account at h
  dsimp only at h
  split at h
  · obtain ⟨r, -, heq⟩ := Option.map_eq_some_iff.mp h
    obtain ⟨rfl, rfl⟩ := Prod.mk.injEq .. ▸ heq
    exact ⟨rfl, rfl, rfl, rfl, rfl, rfl, rfl, rfl⟩
  · obtain ⟨rfl, rfl⟩ := Prod.mk.injEq .. ▸ Option.some.inj h
    exact ⟨rfl, rfl, rfl, rfl, rfl, rfl, rfl, rfl⟩

/-- What a step does to the clock and to the last tick. -/
inductive Paces (l l' : RunLoop F) (due : Option ℤ) : RunEvent F → Prop
  /-- It is neither a time for a tick nor the end of one. -/
  | quiet {ev : RunEvent F} (other : ∀ now t0, ev ≠ .time now t0) (none : due = none)
      (mark : l'.mark = l.mark) (clock : l.clock ≤ l'.clock) : Paces l l' due ev
  | due {now t0 : ℤ} (some : due = some now) (before : l.mark + 50000000 ≤ now)
      (mark : l'.mark = now) (clock : l.clock ≤ now) (later : now ≤ l'.clock) :
      Paces l l' due (.time now t0)
  | early {now t0 : ℤ} (none : due = none) (before : now < l.mark + 50000000)
      (mark : l'.mark = l.mark) (clock : l.clock ≤ l'.clock) : Paces l l' due (.time now t0)

theorem paces_step {l l' : RunLoop F} {ev : RunEvent F} {out : RunOut F}
    (hclock : l.mark ≤ l.clock) (h : l.step ev = some (l', out)) : Paces l l' out.due ev := by
  cases step_cases h with
  | enter pc =>
    refine .quiet nofun rfl ?_ le_rfl
    cases hrun : l.running <;> simp [mark, pc]
  | drain now pc clock work =>
    refine .quiet nofun rfl ?_ clock
    simp only [mark, pc]
  | drained pc empty =>
    refine .quiet nofun rfl ?_ le_rfl
    simp only [mark, pc]
  | due now t0 pc clock later due =>
    have hmark : l.mark = l.lastTick := by simp only [mark, pc]
    rw [hmark] at hclock
    exact .due rfl (hmark ▸ (due_iff (hclock.trans clock)).mp due) rfl clock later
  | early now t0 pc clock early =>
    have hmark : l.mark = l.lastTick := by simp only [mark, pc]
    rw [hmark] at hclock
    refine .early rfl ?_ hmark.symm clock
    rw [hmark]
    exact not_le.mp fun hle => not_le.mpr early ((due_iff (hclock.trans clock)).mpr hle)
  | tick pc mine clock work =>
    refine .quiet nofun rfl ?_ clock
    simp only [mark, pc]
  | ticked t1 pc idle clock account =>
    obtain ⟨-, hpc, hclock', hlast, -, hdue, -⟩ := account_eq_some account
    refine .quiet nofun hdue ?_ (hclock' ▸ clock)
    simp only [mark, pc, hpc, hlast]
  | wake pc =>
    refine .quiet nofun rfl ?_ le_rfl
    simp only [mark, pc]
  | stop => exact .quiet nofun rfl rfl le_rfl
  | other theirs work => exact .quiet nofun rfl rfl le_rfl

structure Paced (start : ℤ) (past : List (RunEvent F × RunOut F)) (l : RunLoop F) : Prop where
  last : l.mark ∈ start :: dues past
  before : ∀ t ∈ start :: dues past, t ≤ l.mark
  clock : l.mark ≤ l.clock
  spaced : (start :: dues past).Pairwise fun t t' => t + 50000000 ≤ t'
  due : Throughout (fun past a => ∀ now t0, a.1 = .time now t0 →
    (a.2.due = some now ↔ ∀ t ∈ start :: dues past, t + 50000000 ≤ now)) past

theorem Paced.step {start : ℤ} {past : List (RunEvent F × RunOut F)} {l l' : RunLoop F}
    {a : RunEvent F × RunOut F} (hp : Paced start past l) (h : Steps l a l') :
    Paced start (past ++ [a]) l' := by
  obtain ⟨ev, out⟩ := a
  have hall : ∀ now, (∀ t ∈ start :: dues past, t + 50000000 ≤ now) ↔ l.mark + 50000000 ≤ now := by
    intro now
    refine ⟨fun hle => hle _ hp.last, fun hle t ht => ?_⟩
    have := hp.before t ht
    omega
  -- without a tick the times stay as they are
  have hkept : out.due = none → l'.mark = l.mark → l.clock ≤ l'.clock →
      (∀ now t0, ev = .time now t0 → now < l.mark + 50000000) → Paced start (past ++ [(ev, out)]) l' := by
    intro hnone hmark hclock hearly
    have hdues : dues (past ++ [(ev, out)]) = dues past := by
      rw [dues_concat, hnone, Option.toList_none, List.append_nil]
    refine ⟨?_, ?_, ?_, ?_, throughout_concat.mpr ⟨hp.due, ?_⟩⟩
    · rw [hdues, hmark]
      exact hp.last
    · rw [hdues, hmark]
      exact hp.before
    · rw [hmark]
      exact hp.clock.trans hclock
    · rw [hdues]
      exact hp.spaced
    · intro now t0 hev
      rw [hall, hnone]
      exact iff_of_false nofun (not_le.mpr (hearly now t0 hev))
  cases paces_step hp.clock h with
  | quiet other none mark clock =>
    exact hkept none mark clock fun now t0 hev => absurd hev (other now t0)
  | early none before mark clock =>
    refine hkept none mark clock fun now' t0' hev => ?_
    obtain ⟨rfl, rfl⟩ := RunEvent.time.inj hev
    exact before
  | @due now t0 some before mark clock later =>
    have hdues : start :: dues (past ++ [(.time now t0, out)]) = (start :: dues past) ++ [now] := by
      dsimp only at some
      rw [dues_concat, some, Option.toList_some, List.cons_append]
    have hbefore := (hall now).mpr before
    refine ⟨?_, ?_, ?_, ?_, throughout_concat.mpr ⟨hp.due, ?_⟩⟩
    · rw [hdues, mark]
      exact List.mem_append_right _ (List.mem_singleton_self now)
    · rw [hdues, mark]
      intro t ht
      rcases List.mem_append.mp ht with ht | ht
      · have := hbefore t ht
        omega
      · exact (List.mem_singleton.mp ht).le
    · rw [mark]
      exact later
    · rw [hdues]
      refine List.pairwise_append.mpr ⟨hp.spaced, List.pairwise_singleton _ _, fun t ht t' ht' => ?_⟩
      rw [List.mem_singleton.mp ht']
      exact hbefore t ht
    · intro now' t0' hev
      obtain ⟨rfl, rfl⟩ := RunEvent.time.inj hev
      exact iff_of_true some hbefore

theorem paced_run {w : LogicWorker F} {start : ℤ} {as : List (RunEvent F × RunOut F)}
    {l : RunLoop F} (h : Run Steps (entered w start) as l) : Paced start as l := by
  have hstart : Paced start [] (entered w start : RunLoop F) := by
    refine ⟨List.mem_cons_self, ?_, le_rfl, List.pairwise_singleton _ _, throughout_nil⟩
    intro t ht
    exact (List.mem_singleton.mp ht).le
  exact h.history (fun past s a t hs hst => hs.step hst) hstart

/-- The ticks of a run are found due between its ends. -/
theorem dues_between {start : ℤ} {past as : List (RunEvent F × RunOut F)} {l l' : RunLoop F}
    (hp : Paced start past l) (h : Run Steps l as l') :
    l.clock ≤ l'.clock ∧ ∀ t ∈ dues as, l.clock ≤ t ∧ t ≤ l'.clock := by
  have hrun : Paced start (past ++ as) l' ∧
      l.clock ≤ l'.clock ∧ ∀ t ∈ dues as, l.clock ≤ t ∧ t ≤ l'.clock := by
    refine h.record
      (I := fun as s => Paced start (past ++ as) s ∧ l.clock ≤ s.clock ∧
        ∀ t ∈ dues as, l.clock ≤ t ∧ t ≤ s.clock) ?_ ⟨by simpa using hp, le_rfl, nofun⟩
    rintro as s ⟨ev, out⟩ s' ⟨hs, hle, hin⟩ hst
    have hclock : s.clock ≤ s'.clock ∧ ∀ t, out.due = some t → s.clock ≤ t ∧ t ≤ s'.clock := by
      cases paces_step hs.clock hst with
      | quiet other none mark clock => exact ⟨clock, fun t ht => absurd (none ▸ ht) nofun⟩
      | early none before mark clock => exact ⟨clock, fun t ht => absurd (none ▸ ht) nofun⟩
      | due some before mark clock later =>
        refine ⟨clock.trans later, fun t ht => ?_⟩
        obtain rfl := Option.some.inj (some.symm.trans ht)
        exact ⟨clock, later⟩
    refine ⟨by rw [← List.append_assoc]; exact hs.step hst, hle.trans hclock.1, fun t ht => ?_⟩
    rw [dues_concat] at ht
    rcases List.mem_append.mp ht with ht | ht
    · exact ⟨(hin t ht).1, (hin t ht).2.trans hclock.1⟩
    · obtain ⟨h₁, h₂⟩ := hclock.2 t (Option.mem_toList.mp ht)
      exact ⟨hle.trans h₁, h₂⟩
  exact hrun.2

/-- **The ticks of a worker keep their pace.**  A look at the clock finds a tick due exactly
when 50 ms have gone by since every tick before it and since the thread was started; so ticks are
50 ms apart, a late tick is never made up for, and in no stretch of a run are there more ticks
than fit. -/
theorem tick_pacing {w : LogicWorker F} {start : ℤ} {as bs : List (RunEvent F × RunOut F)}
    {l l' : RunLoop F} (h : Run Steps (entered w start) as l) (h' : Run Steps l bs l') :
    Throughout (fun past a => ∀ now t0, a.1 = .time now t0 →
      (a.2.due = some now ↔ ∀ t ∈ start :: dues past, t + 50000000 ≤ now)) (as ++ bs) ∧
    (start :: dues (as ++ bs)).Pairwise (fun t t' => t + 50000000 ≤ t') ∧
    50000000 * ((dues bs).length : ℤ) ≤ l'.clock - l.clock + 50000000 := by
  have hpaced := paced_run (h.append h')
  refine ⟨hpaced.due, hpaced.spaced, ?_⟩
  obtain ⟨hclock, hin⟩ := dues_between (paced_run h) h'
  have hsub : (dues bs).Pairwise fun t t' => t + 50000000 ≤ t' := by
    have := (List.pairwise_cons.mp hpaced.spaced).2
    rw [dues, List.filterMap_append] at this
    exact (List.pairwise_append.mp this).2.1
  exact length_of_spaced hsub (fun t ht => (hin t ht).1) (fun t ht => (hin t ht).2) (by omega)

/-- One turn of the loop of a worker without rooms, with a tick of a millisecond. -/
def soloTurn (now : ℤ) : List (RunEvent ℚ) :=
  [.enter, .drained, .time now now, .tick (.tickBegin []), .ticked (now + 1000000)]

/-- After a tick at 60 ms one is due at 110, not at 100. -/
theorem tick_pacing_soloTurn : ∃ (l l' : RunLoop ℚ) (as bs : List (RunEvent ℚ × RunOut ℚ)),
    dues as = [60000000] ∧ l.clock = 61000000 ∧ dues bs = [110000000] ∧ l'.clock = 111000000 ∧
    Throughout (fun past a => ∀ now t0, a.1 = .time now t0 →
      (a.2.due = some now ↔ ∀ t ∈ 0 :: dues past, t + 50000000 ≤ now)) (as ++ bs) ∧
    (0 :: dues (as ++ bs)).Pairwise (fun t t' => t + 50000000 ≤ t') ∧
    50000000 * ((dues bs).length : ℤ) ≤ l'.clock - l.clock + 50000000 := by
  have hrun : ((exec step (entered {} 0) (soloTurn 60000000)).bind fun p =>
      (exec step p.1 ([.enter, .drained, .time 100000000 100000000, .wake] ++
        soloTurn 110000000)).map fun q => (dues p.2, p.1.clock, dues q.2, q.1.clock))
      = some ([60000000], 61000000, [110000000], 111000000) := by
    decide +kernel
  obtain ⟨⟨l, as⟩, hexec, hrest⟩ := Option.bind_eq_some_iff.mp hrun
  obtain ⟨⟨l', bs⟩, hexec', heq⟩ := Option.map_eq_some_iff.mp hrest
  simp only [Prod.mk.injEq] at heq
  obtain ⟨has, hl, hbs, hl'⟩ := heq
  exact ⟨l, l', as, bs, has, hl, hbs, hl', tick_pacing (run_of_exec hexec) (run_of_exec hexec')⟩

end RunLoop

end MiniArena
