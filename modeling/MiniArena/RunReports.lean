/-
MiniArena/RunReports.lean

The bookkeeping of `LogicWorker::run`, and that its thread never gets stuck.

Every 200th tick the durations of the last 200 are sorted and read at the
indices 100, 190, 198 and 199 (`report_block`).  The list is cleared then, so
`tickCount % 200` of them are in it (`Booked`), and no index is out of range.

`run_loop_returns` puts this together with the tick itself: the room a tick
comes to is there, so the loop is through in finitely many steps.
-/
import MiniArena.RunLoop
import MiniArena.ServerProgress

namespace MiniArena

variable {F : Type} [FloatOps F]

open Transition

/-! ### Sorted lists -/

theorem le_of_sorted {cp : List ℤ} (hsorted : cp.Pairwise (· ≤ ·)) {i j : ℕ} {u v : ℤ}
    (hij : i ≤ j) (hu : cp[i]? = some u) (hv : cp[j]? = some v) : u ≤ v := by
  obtain ⟨hi, rfl⟩ := List.getElem?_eq_some_iff.mp hu
  obtain ⟨hj, rfl⟩ := List.getElem?_eq_some_iff.mp hv
  rcases Nat.lt_or_eq_of_le hij with hlt | rfl
  · exact List.pairwise_iff_getElem.mp hsorted i j hi hj hlt
  · exact le_rfl

/-- At least `i + 1` of a sorted list are at most its entry at `i`. -/
theorem countP_le_of_sorted {cp : List ℤ} (hsorted : cp.Pairwise (· ≤ ·)) {i : ℕ} {v : ℤ}
    (hv : cp[i]? = some v) : i + 1 ≤ cp.countP (· ≤ v) := by
  have hall : ∀ a ∈ cp.take (i + 1), decide (a ≤ v) = true := by
    intro a ha
    obtain ⟨j, hj, rfl⟩ := List.mem_iff_getElem.mp ha
    rw [List.length_take] at hj
    rw [List.getElem_take, decide_eq_true_eq]
    exact le_of_sorted hsorted (show j ≤ i by omega) (List.getElem?_eq_getElem _) hv
  have hi := (List.getElem?_eq_some_iff.mp hv).1
  calc i + 1 = (cp.take (i + 1)).length := by rw [List.length_take]; omega
    _ = (cp.take (i + 1)).countP (· ≤ v) := (List.countP_eq_length.mpr hall).symm
    _ ≤ cp.countP (· ≤ v) := (List.take_sublist _ _).countP_le

namespace RunLoop

variable {l l' : RunLoop F}

/-! ### Reports -/

/-- The durations of the ticks, in microseconds. -/
def spans (as : List (RunEvent F × RunOut F)) : List ℤ := as.filterMap fun a => a.2.us

def reports (as : List (RunEvent F × RunOut F)) : List TickReport :=
  as.filterMap fun a => a.2.report

/-- The `k`-th 200 durations. -/
def block (k : ℕ) (us : List ℤ) : List ℤ := (us.drop (200 * k)).take 200

/-- `r` is the report of the 200 durations `us`. -/
structure ReportOf (us : List ℤ) (r : TickReport) : Prop where
  entries : r.p50 ∈ us ∧ r.p95 ∈ us ∧ r.p99 ∈ us ∧ r.max ∈ us
  half : 101 ≤ us.countP (· ≤ r.p50)
  most : 191 ≤ us.countP (· ≤ r.p95)
  almostAll : 199 ≤ us.countP (· ≤ r.p99)
  all : ∀ u ∈ us, u ≤ r.max
  ordered : r.p50 ≤ r.p95 ∧ r.p95 ≤ r.p99 ∧ r.p99 ≤ r.max

/-- **The report of 200 durations** is there, and says what its names say. -/
theorem report_block (count : ℕ) {us : List ℤ} (hlen : us.length = 200) :
    ∃ r, percentiles count us = some r ∧ r.tickCount = count ∧ ReportOf us r := by
  unfold percentiles
  have hperm : us.mergeSort.Perm us := List.mergeSort_perm us _
  have hsorted : us.mergeSort.Pairwise (· ≤ ·) := List.pairwise_mergeSort' (· ≤ ·) us
  generalize us.mergeSort = cp at hperm hsorted
  have hcp : cp.length = 200 := hperm.length_eq.trans hlen
  have hget : ∀ i < 200, ∃ v, cp[i]? = some v := fun i hi =>
    ⟨_, List.getElem?_eq_getElem (hcp ▸ hi)⟩
  obtain ⟨p50, h50⟩ := hget 100 (by omega)
  obtain ⟨p95, h95⟩ := hget 190 (by omega)
  obtain ⟨p99, h99⟩ := hget 198 (by omega)
  obtain ⟨max, hmax⟩ := hget 199 (by omega)
  have hentry : ∀ {i : ℕ} {v : ℤ}, cp[i]? = some v → v ∈ us := fun h =>
    hperm.mem_iff.mp (List.mem_of_getElem? h)
  have hcount : ∀ {i : ℕ} {v : ℤ}, cp[i]? = some v → i + 1 ≤ us.countP (· ≤ v) := fun h =>
    hperm.countP_eq _ ▸ countP_le_of_sorted hsorted h
  refine ⟨⟨count, p50, p95, p99, max⟩, ?_, rfl, ?_⟩
  · dsimp only
    rw [List.getLast?_eq_getElem?, hcp]
    simp only [Nat.reduceMul, Nat.reduceDiv, Nat.reduceSub, h50, h95, h99, hmax]
  · refine ⟨⟨hentry h50, hentry h95, hentry h99, hentry hmax⟩, hcount h50, hcount h95,
      hcount h99, ?_, le_of_sorted hsorted (by omega) h50 h95,
      le_of_sorted hsorted (by omega) h95 h99, le_of_sorted hsorted (by omega) h99 hmax⟩
    intro u hu
    obtain ⟨i, hi, rfl⟩ := List.mem_iff_getElem.mp (hperm.mem_iff.mpr hu)
    exact le_of_sorted hsorted (by omega) (List.getElem?_eq_getElem hi) hmax

/-! ### Bookkeeping -/

/-- The reports of the durations `us`. -/
def reported (us : List ℤ) : List (Option TickReport) :=
  (List.range (us.length / 200)).map fun k => percentiles (200 * (k + 1)) (block k us)

theorem block_append {k : ℕ} {us : List ℤ} (hk : 200 * (k + 1) ≤ us.length) (vs : List ℤ) :
    block k (us ++ vs) = block k us := by
  have hdrop : 200 ≤ (us.drop (200 * k)).length := by
    rw [List.length_drop]
    omega
  rw [block, List.drop_append_of_le_length (by omega), List.take_append_of_le_length hdrop, block]

theorem length_block {us : List ℤ} (k : ℕ) (hk : 200 * (k + 1) ≤ us.length) :
    (block k us).length = 200 := by
  rw [block, List.length_take, List.length_drop]
  omega

theorem reported_concat (us : List ℤ) (u : ℤ) :
    reported (us ++ [u]) = if (us.length + 1) % 200 = 0 then
        reported us ++ [percentiles (us.length + 1) ((us ++ [u]).drop (200 * (us.length / 200)))]
      else reported us := by
  have hold : ((List.range (us.length / 200)).map fun k =>
      percentiles (200 * (k + 1)) (block k (us ++ [u]))) = reported us := by
    refine List.map_congr_left fun k hk => ?_
    have hk' := List.mem_range.mp hk
    rw [block_append (by omega)]
  have hlen : (us ++ [u]).length = us.length + 1 := by
    rw [List.length_append, List.length_singleton]
  split
  · rename_i hfull
    have hdiv : (us.length + 1) / 200 = us.length / 200 + 1 := by omega
    have hcount : 200 * (us.length / 200 + 1) = us.length + 1 := by omega
    have hblock : block (us.length / 200) (us ++ [u]) =
        (us ++ [u]).drop (200 * (us.length / 200)) := by
      rw [block, List.take_of_length_le]
      rw [List.length_drop, hlen]
      omega
    rw [reported, hlen, hdiv, List.range_succ, List.map_append, hold, List.map_singleton, hblock,
      hcount]
  · rename_i hnot
    have hdiv : (us.length + 1) / 200 = us.length / 200 := by omega
    rw [reported, hlen, hdiv, hold]

structure Booked (past : List (RunEvent F × RunOut F)) (l : RunLoop F) : Prop where
  count : l.tickCount = (spans past).length
  durations : l.tickDurations = (spans past).drop (200 * (l.tickCount / 200))
  reports : (reports past).map some = reported (spans past)

omit [FloatOps F] in
theorem spans_concat (as : List (RunEvent F × RunOut F)) (a : RunEvent F × RunOut F) :
    spans (as ++ [a]) = spans as ++ a.2.us.toList := by
  rw [spans, List.filterMap_append]
  cases hus : a.2.us <;> simp [spans, hus]

omit [FloatOps F] in
theorem reports_concat (as : List (RunEvent F × RunOut F)) (a : RunEvent F × RunOut F) :
    reports (as ++ [a]) = reports as ++ a.2.report.toList := by
  rw [reports, List.filterMap_append]
  cases hreport : a.2.report <;> simp [reports, hreport]

omit [FloatOps F] in
/-- The books are kept where no tick ends. -/
theorem Booked.quiet {past : List (RunEvent F × RunOut F)} (hb : Booked past l)
    (ev : RunEvent F) {out : RunOut F} (hus : out.us = none) (hreport : out.report = none)
    (hcount : l'.tickCount = l.tickCount) (hdurations : l'.tickDurations = l.tickDurations) :
    Booked (past ++ [(ev, out)]) l' := by
  have hspans : spans (past ++ [(ev, out)]) = spans past := by
    rw [spans_concat, hus, Option.toList_none, List.append_nil]
  have hreports : RunLoop.reports (past ++ [(ev, out)]) = RunLoop.reports past := by
    rw [reports_concat, hreport, Option.toList_none, List.append_nil]
  refine ⟨?_, ?_, ?_⟩
  · rw [hspans, hcount, hb.count]
  · rw [hspans, hcount, hdurations, hb.durations]
  · rw [hspans, hreports, hb.reports]

omit [FloatOps F] in
/-- The end of a tick. -/
theorem Booked.account {past : List (RunEvent F × RunOut F)} (hb : Booked past l)
    (ev : RunEvent F) {out : RunOut F} {now t0 t1 : ℤ}
    (h : l.account now t0 t1 = some (l', out)) : Booked (past ++ [(ev, out)]) l' := by
  have hcount := hb.count
  have hus : out.us = some ((t1 - t0).tdiv 1000) := (account_eq_some h).2.2.2.2.2.2.2
  have hspans : spans (past ++ [(ev, out)]) = spans past ++ [(t1 - t0).tdiv 1000] := by
    rw [spans_concat, hus, Option.toList_some]
  unfold RunLoop.account at h
  dsimp only at h
  generalize (t1 - t0).tdiv 1000 = us at h hspans
  have hlen : (spans past ++ [us]).length = l.tickCount + 1 := by
    rw [List.length_append, List.length_singleton, hcount]
  have hdurations : l.tickDurations ++ [us] =
      (spans past ++ [us]).drop (200 * (l.tickCount / 200)) := by
    rw [hb.durations, List.drop_append_of_le_length (by omega)]
  split at h
  · rename_i hfull
    obtain ⟨r, hr, heq⟩ := Option.map_eq_some_iff.mp h
    obtain ⟨rfl, rfl⟩ := Prod.mk.injEq .. ▸ heq
    refine ⟨by rw [hspans, hlen], ?_, ?_⟩
    · rw [hspans]
      refine (List.drop_of_length_le ?_).symm
      rw [hlen]
      dsimp only
      omega
    · rw [hspans, reports_concat, Option.toList_some, List.map_append, hb.reports, reported_concat,
        ← hcount, if_pos hfull, ← hdurations, hr, List.map_singleton]
  · rename_i hnot
    obtain ⟨rfl, rfl⟩ := Prod.mk.injEq .. ▸ Option.some.inj h
    have hdiv : (l.tickCount + 1) / 200 = l.tickCount / 200 := by omega
    refine ⟨by rw [hspans, hlen], ?_, ?_⟩
    · rw [hspans]
      dsimp only
      rw [hdiv, hdurations]
    · rw [hspans, reports_concat, Option.toList_none, List.append_nil, hb.reports, reported_concat,
        ← hcount, if_neg hnot]

theorem Booked.step {past : List (RunEvent F × RunOut F)} {a : RunEvent F × RunOut F}
    (hb : Booked past l) (h : Steps l a l') : Booked (past ++ [a]) l' := by
  obtain ⟨ev, out⟩ := a
  cases step_cases h with
  | ticked t1 pc idle clock account => exact hb.account _ account
  | _ => exact hb.quiet _ rfl rfl rfl rfl

theorem booked_run {w : LogicWorker F} {start : ℤ} {as : List (RunEvent F × RunOut F)}
    (h : Run Steps (entered w start) as l) : Booked as l := by
  have hstart : Booked [] (entered w start : RunLoop F) := by
    refine ⟨rfl, List.drop_nil.symm, ?_⟩
    simp [reports, spans, reported]
  exact h.history (fun _ _ _ _ => Booked.step) hstart

omit [FloatOps F] in
theorem Booked.full {past : List (RunEvent F × RunOut F)} (hb : Booked past l) :
    l.tickDurations.length = l.tickCount % 200 := by
  rw [hb.durations, List.length_drop, ← hb.count]
  omega

omit [FloatOps F] in
/-- The end of a tick: the report is there when there is one to print. -/
theorem isSome_account (hfull : l.tickDurations.length = l.tickCount % 200) (now t0 t1 : ℤ) :
    (l.account now t0 t1).isSome = true := by
  unfold account
  dsimp only
  split
  · have hlen : (l.tickDurations ++ [(t1 - t0).tdiv 1000]).length = 200 := by
      rw [List.length_append, List.length_singleton, hfull]
      omega
    obtain ⟨r, hr, -⟩ := report_block (l.tickCount + 1) hlen
    rw [hr]
    rfl
  · rfl

/-- **What the worker prints about its ticks.**  After every 200 ticks there is one report, and it
is about these 200: half of them took at most P50, and so on, and none took longer than Max. -/
theorem tick_reports {w : LogicWorker F} {start : ℤ} {as : List (RunEvent F × RunOut F)}
    (h : Run Steps (entered w start) as l) :
    (reports as).length = (spans as).length / 200 ∧
      ∀ k < (spans as).length / 200, ∃ r, (reports as)[k]? = some r ∧
        r.tickCount = 200 * (k + 1) ∧ ReportOf (block k (spans as)) r := by
  have hreports := (booked_run h).reports
  have hlen := congrArg List.length hreports
  rw [List.length_map, reported, List.length_map, List.length_range] at hlen
  refine ⟨hlen, fun k hk => ?_⟩
  have hblock : (block k (spans as)).length = 200 := length_block k (by omega)
  obtain ⟨r, hr, hcount, hreport⟩ := report_block (200 * (k + 1)) hblock
  refine ⟨r, ?_, hcount, hreport⟩
  have hk' := congrArg (fun xs => xs[k]?) hreports
  rw [reported, List.getElem?_map, List.getElem?_map, List.getElem?_range hk, Option.map_some,
    hr] at hk'
  obtain ⟨r', hr', heq⟩ := Option.map_eq_some_iff.mp hk'
  rw [hr', Option.some.inj heq]

/-- The first report. -/
theorem tick_reports_soloTurn : ∃ (l : RunLoop ℚ) (as : List (RunEvent ℚ × RunOut ℚ)),
    (spans as).length = 200 ∧ l.tickDurations = [] ∧
    (reports as).length = (spans as).length / 200 ∧
      ∀ k < (spans as).length / 200, ∃ r, (reports as)[k]? = some r ∧
        r.tickCount = 200 * (k + 1) ∧ ReportOf (block k (spans as)) r := by
  have hexec : ((exec step (entered {} 0) (((List.range 199).flatMap fun k : ℕ =>
      soloTurn (50000000 * (k + 1))) ++ (soloTurn 10000000000).take 4)).map fun p =>
        ((spans p.2).length, p.1.pc, (p.1.worker.step (.tickBegin [])).isSome))
      = some (199, .ticking 10000000000 10000000000 true, true) := by
    decide +kernel
  obtain ⟨⟨l, as⟩, hexec, heq⟩ := Option.map_eq_some_iff.mp hexec
  simp only [Prod.mk.injEq] at heq
  obtain ⟨hspans, hpc, hbegin⟩ := heq
  -- a tick could begin, so none is under way
  have hidle : l.worker.phase = .idle := by
    obtain ⟨⟨w, out⟩, hbegin⟩ := Option.isSome_iff_exists.mp hbegin
    cases LogicWorker.step_cases hbegin with
    | tickBegin order phase once => exact phase
  have hrun := run_of_exec hexec
  obtain ⟨⟨l', out⟩, haccount⟩ := Option.isSome_iff_exists.mp
    (isSome_account (booked_run hrun).full 10000000000 10000000000 l.clock)
  have hstep : l.step (.ticked l.clock) = some (l', out) := by
    dsimp only [RunLoop.step]
    rw [hpc]
    dsimp only
    rw [hidle]
    dsimp only
    rw [if_pos le_rfl, haccount]
  have hall : Run Steps (entered {} 0) (as ++ [(.ticked l.clock, out)]) l' :=
    hrun.append (.single hstep)
  have hlen : (spans (as ++ [(.ticked l.clock, out)])).length = 200 := by
    rw [spans_concat, List.length_append, hspans, (account_eq_some haccount).2.2.2.2.2.2.2]
    rfl
  have hempty : l'.tickDurations = [] := by
    rw [(booked_run hall).durations, (booked_run hall).count, hlen]
    exact List.drop_of_length_le hlen.le
  exact ⟨l', _, hlen, hempty, tick_reports hall⟩

end RunLoop

/-! ### Progress -/

namespace LogicWorker

variable {w w' : LogicWorker F}

omit [FloatOps F] in
theorem ready_of_idle (hphase : w.phase = .idle) : Ready w := by
  refine ⟨?_, ?_⟩
  · rw [hphase]
    exact nofun
  · rw [hphase]
    exact nofun

omit [FloatOps F] in
theorem phase_drainPendingOp (w : LogicWorker F) (now : ℤ) :
    (w.drainPendingOp now).phase = w.phase := by
  unfold drainPendingOp
  split
  · rfl
  · rename_i op ops _
    cases op <;> rfl

/-- The steps of a tick leave it ready for the next one, whatever other threads do. -/
theorem ready_step (h : Ready w) {event : WorkerEvent F} {out : WorkerOut F}
    (hstep : w.step event = some (w', out)) : Ready w' := by
  have hneeds := h.rooms
  have hrest : ∀ (u : LogicWorker F) left cmds, u.phase = nextRoom cmds left →
      (∀ r ∈ left, r ∈ u.rooms) → Ready u := by
    intro u left cmds hphase hleft
    obtain ⟨htodo, hended⟩ := todo_nextRoom cmds left
    exact ⟨fun r hr => hleft r (htodo ▸ hphase ▸ hr), fun cs heq => hended cs (hphase ▸ heq)⟩
  cases step_cases hstep with
  | setSendCallback => exact h.mono rfl fun _ hr => hr
  | addRoom r players => exact h.mono rfl fun _ hr => hr
  | removeRoom r => exact h.mono rfl fun _ hr => hr
  | markDisconnected pid r => exact h.mono rfl fun _ hr => hr
  | pushCommand cmd => exact h.mono rfl fun _ hr => hr
  | drainPendingOp now phase => exact ready_of_idle ((phase_drainPendingOp w now).trans phase)
  | tickBegin order phase once =>
    refine hrest _ order w.cmdQueue rfl fun r hr => ?_
    show r ∈ w.rooms
    rw [← Finmap.mem_keys, ← Finset.mem_val, ← once]
    exact Multiset.mem_coe.mpr hr
  | tickRoom order phase room members =>
    rw [phase] at hneeds
    exact ⟨fun a ha => Finmap.mem_insert.mpr (.inr (hneeds a ha)), nofun⟩
  | broadcast phase room =>
    rw [phase] at hneeds
    exact ⟨hneeds, nofun⟩
  | checkDisconnected now phase room =>
    rw [phase] at hneeds
    exact hrest _ _ _ rfl fun a ha =>
      Finmap.mem_insert.mpr (.inr (hneeds a (List.mem_cons_of_mem _ ha)))

end LogicWorker

namespace RunLoop

open LogicWorker (Ready)

variable {l l' : RunLoop F}

/-- What the thread does by itself. -/
def ofLoop : RunEvent F → Bool
  | .stop => false
  | .other _ => false
  | _ => true

/-- The worker is in a tick only while `tick()` runs. -/
structure Able (l : RunLoop F) : Prop where
  ready : Ready l.worker
  idle : (∀ now t0, l.pc ≠ .ticking now t0 true) → l.worker.phase = .idle

theorem Able.step {ev : RunEvent F} {out : RunOut F} (h : Able l)
    (hstep : l.step ev = some (l', out)) : Able l' := by
  cases step_cases hstep with
  | enter pc => exact ⟨h.ready, fun _ => h.idle (by simp [pc])⟩
  | drain now pc clock work =>
    have hphase := h.idle (by simp [pc])
    refine ⟨LogicWorker.ready_step h.ready work, fun _ => ?_⟩
    cases LogicWorker.step_cases work
    exact (LogicWorker.phase_drainPendingOp l.worker now).trans hphase
  | drained pc empty => exact ⟨h.ready, fun _ => h.idle (by simp [pc])⟩
  | due now t0 pc clock later due => exact ⟨h.ready, fun _ => h.idle (by simp [pc])⟩
  | early now t0 pc clock early => exact ⟨h.ready, fun _ => h.idle (by simp [pc])⟩
  | @tick now t0 begun event w out pc mine clock work =>
    exact ⟨LogicWorker.ready_step h.ready work, fun hpc => absurd rfl (hpc now t0)⟩
  | ticked t1 pc idle clock account =>
    have hworker := (account_eq_some account).1
    exact ⟨hworker ▸ h.ready, fun _ => hworker ▸ idle⟩
  | wake pc => exact ⟨h.ready, fun _ => h.idle (by simp [pc])⟩
  | stop => exact ⟨h.ready, h.idle⟩
  | @other event w out theirs work =>
    refine ⟨LogicWorker.ready_step h.ready work, fun hpc => ?_⟩
    have hphase := h.idle hpc
    cases LogicWorker.step_cases work with
    | setSendCallback => exact hphase
    | addRoom r players => exact hphase
    | removeRoom r => exact hphase
    | markDisconnected pid r => exact hphase
    | pushCommand cmd => exact hphase
    | _ => simp [GameServer.ofThread] at theirs

theorem able_run {w : LogicWorker F} {start : ℤ} {as : List (RunEvent F × RunOut F)}
    (hidle : w.phase = .idle) (h : Run Steps (entered w start) as l) : Able l :=
  h.invariant (fun _ _ _ hs hst => hs.step hst)
    (⟨LogicWorker.ready_of_idle hidle, fun _ => hidle⟩ : Able (entered w start))

/-- The thread can get from `l` to its `while`, or out of the loop. -/
def Returns (l : RunLoop F) : Prop :=
  ∃ b bs l', Run Steps l (b :: bs) l' ∧ (∀ a ∈ b :: bs, ofLoop a.1 = true) ∧
    (l'.pc = .head ∨ l'.pc = .stopped)

theorem returns_of_step {ev : RunEvent F} {out : RunOut F} (hstep : l.step ev = some (l', out))
    (hown : ofLoop ev = true) (hend : (l'.pc = .head ∨ l'.pc = .stopped) ∨ Returns l') :
    Returns l := by
  rcases hend with hend | ⟨b, bs, m, hrun, hof, hend⟩
  · refine ⟨(ev, out), [], l', .single hstep, ?_, hend⟩
    intro a ha
    rw [List.mem_singleton.mp ha]
    exact hown
  · refine ⟨(ev, out), b :: bs, m, .cons hstep hrun, ?_, hend⟩
    intro a ha
    rcases List.mem_cons.mp ha with rfl | ha
    · exact hown
    · exact hof a ha

theorem returns_waiting (hpc : l.pc = .waiting) : Returns l := by
  have hstep : l.step .wake = some ({ l with pc := .head }, {}) := if_pos hpc
  exact returns_of_step hstep rfl (.inl (.inl rfl))

theorem returns_ticking {now t0 : ℤ} (h : Able l) (hfull : l.tickDurations.length = l.tickCount % 200)
    (hpc : l.pc = .ticking now t0 true) : Returns l := by
  induction hk : l.worker.phase.steps using Nat.strong_induction_on generalizing l with
  | _ k ih =>
    by_cases hidle : l.worker.phase = .idle
    · obtain ⟨⟨l', out⟩, haccount⟩ := Option.isSome_iff_exists.mp (isSome_account hfull now t0 l.clock)
      have hstep : l.step (.ticked l.clock) = some (l', out) := by
        dsimp only [RunLoop.step]
        rw [hpc]
        dsimp only
        rw [hidle]
        dsimp only
        rw [if_pos le_rfl, haccount]
      exact returns_of_step hstep rfl (.inl (.inl (account_eq_some haccount).2.1))
    · obtain ⟨event, out, w, hevent, hwork, hlt⟩ := h.ready.proceeds hidle l.clock
      have hmine : inTick true event = true := by
        rcases hevent with ⟨order, rfl⟩ | rfl | rfl <;> rfl
      have hclock : reading l.clock event = l.clock := by
        rcases hevent with ⟨order, rfl⟩ | rfl | rfl <;> rfl
      have hstep : l.step (.tick event) =
          some ({ l with worker := w }, { work := some (event, out) }) := by
        dsimp only [RunLoop.step]
        rw [hpc]
        dsimp only
        rw [hclock, if_pos ⟨hmine, le_rfl⟩, work, hwork, ← hpc]
        rfl
      exact returns_of_step hstep rfl
        (.inr (ih _ (hk ▸ hlt) (h.step hstep) hfull hpc rfl))

theorem returns_due {now t0 : ℤ} (h : Able l) (hfull : l.tickDurations.length = l.tickCount % 200)
    (hpc : l.pc = .ticking now t0 false) : Returns l := by
  have hidle := h.idle (by simp [hpc])
  have hwork : l.worker.step (.tickBegin l.worker.rooms.keys.toList) = some ({ l.worker with
      cmdQueue := []
      phase := LogicWorker.nextRoom l.worker.cmdQueue l.worker.rooms.keys.toList }, {}) := by
    simp only [LogicWorker.step, hidle]
    rw [if_pos (Finset.coe_toList _)]
  have hstep : l.step (.tick (.tickBegin l.worker.rooms.keys.toList)) = some
      ({ l with
          worker := { l.worker with
            cmdQueue := []
            phase := LogicWorker.nextRoom l.worker.cmdQueue l.worker.rooms.keys.toList }
          pc := .ticking now t0 true },
        { work := some (.tickBegin l.worker.rooms.keys.toList, {}) }) := by
    dsimp only [RunLoop.step]
    rw [hpc]
    dsimp only
    rw [if_pos ⟨rfl, le_rfl⟩, work, hwork]
    rfl
  exact returns_of_step hstep rfl (.inr (returns_ticking (h.step hstep) hfull rfl))

theorem returns_timing (h : Able l) (hfull : l.tickDurations.length = l.tickCount % 200)
    (hpc : l.pc = .timing) : Returns l := by
  by_cases hdue : kTickIntervalMs ≤ l.elapsedMs l.clock
  · have hstep : l.step (.time l.clock l.clock) = some
        ({ l with pc := .ticking l.clock l.clock false }, { due := some l.clock }) := by
      dsimp only [RunLoop.step]
      rw [if_pos ⟨hpc, le_rfl, le_rfl⟩, if_pos hdue]
    exact returns_of_step hstep rfl (.inr (returns_due (h.step hstep) hfull rfl))
  · have hstep : l.step (.time l.clock l.clock) = some ({ l with pc := .waiting }, {}) := by
      dsimp only [RunLoop.step]
      rw [if_pos ⟨hpc, le_rfl, le_rfl⟩, if_neg hdue]
    exact returns_of_step hstep rfl (.inr (returns_waiting rfl))

/-- By induction on the operations still pending. -/
theorem returns_draining (h : Able l) (hfull : l.tickDurations.length = l.tickCount % 200)
    (hpc : l.pc = .draining) : Returns l := by
  induction hops : l.worker.pendingOps generalizing l with
  | nil =>
    have hstep : l.step .drained = some ({ l with pc := .timing }, {}) := if_pos ⟨hpc, hops⟩
    exact returns_of_step hstep rfl (.inr (returns_timing (h.step hstep) hfull rfl))
  | cons op ops ih =>
    have hidle := h.idle (by simp [hpc])
    have hstep : l.step (.drain l.clock) = some
        ({ l with worker := l.worker.drainPendingOp l.clock },
          { work := some (.drainPendingOp l.clock, {}) }) := by
      dsimp only [RunLoop.step]
      rw [if_pos ⟨hpc, by rw [hops]; exact List.cons_ne_nil _ _, le_rfl⟩, work]
      simp only [LogicWorker.step, hidle, Option.map_some]
    have hrest : (l.worker.drainPendingOp l.clock).pendingOps = ops := by
      unfold LogicWorker.drainPendingOp
      rw [hops]
      cases op <;> rfl
    exact returns_of_step hstep rfl (.inr (ih (h.step hstep) hfull hpc hrest))

/-- **The thread of a worker never gets stuck.**  Wherever another thread leaves it, it gets back
to its `while` by its own steps: no room of a tick is missing, no percentile is read out of range,
and what it waits for comes. -/
theorem run_loop_returns {w : LogicWorker F} (hidle : w.phase = .idle) {start : ℤ}
    {as : List (RunEvent F × RunOut F)} (h : Run Steps (entered w start) as l)
    (hrunning : l.pc ≠ .stopped) : Returns l := by
  have hable := able_run hidle h
  have hfull := (booked_run h).full
  rcases hpc : l.pc with - | - | - | ⟨now, t0, begun⟩ | - | -
  · have hstep : l.step .enter =
        some ({ l with pc := if l.running then .draining else .stopped }, {}) := if_pos hpc
    refine returns_of_step hstep rfl ?_
    rcases hrun : l.running with - | -
    · exact .inl (.inr rfl)
    · refine .inr (returns_draining ?_ hfull rfl)
      rw [hrun] at hstep
      exact hable.step hstep
  · exact returns_draining hable hfull hpc
  · exact returns_timing hable hfull hpc
  · rcases begun with - | -
    · exact returns_due hable hfull hpc
    · exact returns_ticking hable hfull hpc
  · exact returns_waiting hpc
  · exact absurd hpc hrunning

theorem run_loop_returns_soloTurn : ∃ (l : RunLoop ℚ), l.pc = .ticking 60000000 60000000 false ∧
    Returns l := by
  have hexec : ((exec RunLoop.step (entered {} 0) ((soloTurn 60000000).take 3)).map fun p => p.1.pc)
      = some (.ticking 60000000 60000000 false) := by
    decide +kernel
  obtain ⟨⟨l, as⟩, hexec, hpc⟩ := Option.map_eq_some_iff.mp hexec
  refine ⟨l, hpc, run_loop_returns (w := {}) rfl (run_of_exec hexec) ?_⟩
  dsimp only at hpc
  rw [hpc]
  exact nofun

end RunLoop

end MiniArena
