/-
MiniArena/HeartbeatTimeout.lean

When the heartbeat callback of a connection runs, on the steady clock.

The wheel counts calls of `tick`, one in every iteration of the loop, and
takes each of them for 10 milliseconds.  A timer of `n` ticks fires at the
`n`-th tick after it was set, whatever the clock says: so the callback is early
as soon as that tick is (`no_early_heartbeat`).  Where the ticks keep 10
milliseconds from each other, and from the settings of the connection's own
timer, that tick is late enough (`onTime_of_paced`), whatever the other
connections do.

The invariant is `Armed`: the wheel has a timer of a connection only since its
last setting, and the ticks since then and the ticks to go are `ticksOf`.
-/
import MiniArena.HeartbeatTick
import MiniArena.TimerSchedule

namespace MiniArena

/-- Milliseconds as nanoseconds. -/
def nsOfMs (ms : UInt64) : ℕ := ms.toNat * 1000000

namespace TimerWheel

open TimedLoop

/-! ### What the operations do to the timers -/

section

variable {κ : Type} {w : TimerWheel κ} {c : ConnectionId}

/-- The second wheel has lost timers, and nothing else has changed. -/
structure Shrunk (w w' : TimerWheel κ) : Prop where
  wf : w.WF → w'.WF
  pending : w.WF → ∀ c cb n, w'.Pending c cb n → w.Pending c cb n

theorem Shrunk.refl (w : TimerWheel κ) : Shrunk w w := ⟨id, fun _ _ _ _ => id⟩

theorem Shrunk.trans {w w' w'' : TimerWheel κ} (h : Shrunk w w') (h' : Shrunk w' w'') :
    Shrunk w w'' where
  wf := fun hwf => h'.wf (h.wf hwf)
  pending := fun hwf c cb n hp => h.pending hwf c cb n (h'.pending (h.wf hwf) c cb n hp)

theorem shrunk_remove (w : TimerWheel κ) (id : ConnectionId) : Shrunk w (w.remove id) where
  wf := fun h => h.remove id
  pending := fun h _ _ _ hp => (h.pending_remove.mp hp).2

/-- A connection the id map knows has a timer to go. -/
theorem WF.pending_of_lookup (h : w.WF) (hc : w.idToSlot.lookup c ≠ none) :
    ∃ cb n, w.Pending c cb n := by
  obtain ⟨slot, hslot⟩ := Option.ne_none_iff_exists'.mp hc
  obtain ⟨e, he, rfl⟩ := (h.mapped c slot).mp hslot
  exact ⟨e.callback, _, slot, he, rfl⟩

theorem WF.lookup_of_pending (h : w.WF) {cb : Option κ} {n : ℕ} (hp : w.Pending c cb n) :
    w.idToSlot.lookup c ≠ none := by
  obtain ⟨slot, he, -⟩ := hp
  rw [(h.mapped c slot).mpr ⟨_, he, rfl⟩]
  exact Option.some_ne_none slot

end

/-! ### The callbacks a tick does not miss -/

variable {w : TimerWheel Unit} {l : EventLoop} {slot : Fin kSlots}
  {p : Pass Unit EventLoop} {done todo : List (TimerEntry Unit)}

/-- No timer before that of `c` in the bucket is live: the tick gets to it. -/
def Foremost (c : ConnectionId) (bucket : List (TimerEntry Unit)) (l : EventLoop) : Prop :=
  ∀ e ∈ bucket.takeWhile (fun e => decide (e.id ≠ c)), ¬ Live l e

/-- Timers that are not live do not move the others, so the loop gets to the
first one that is. -/
theorem fired_of_foremost {c : ConnectionId} (hslot : p.wheel.slots slot = done ++ todo)
    (hcb : ∀ e ∈ todo, e.callback = some ()) (hfirst : Foremost c todo p.rest)
    (hc : c ∈ todo.map TimerEntry.id) :
    c ∈ (reached (loop heartbeat slot todo.length done.length p)).fired := by
  induction todo generalizing done p with
  | nil => cases hc
  | cons e todo ih =>
    have hread := getElem?_done hslot rfl
    rw [List.length_cons, loop, hread]
    dsimp only
    by_cases hid : e.id = c
    · -- what comes after the callback takes nothing off the list
      have hfired : c ∈ (invoke heartbeat p e).fired := by
        rw [invoke, hcb e List.mem_cons_self]
        simp [hid]
      rcases ((invoke heartbeat p e).wheel.slots slot)[done.length]? with - | e'
      · exact hfired
      · obtain ⟨more, hmore, -⟩ := @rest_loop slot todo.length (done.length + 1)
          (forget (invoke heartbeat p e) e')
        dsimp only
        rw [hmore]
        exact List.mem_append_left _ hfired
    · rw [Foremost, List.takeWhile_cons_of_pos (by simpa using hid)] at hfirst
      have hinvoke := invoke_of_idle (idle_of_not_live (hfirst e List.mem_cons_self))
      have hagain : ((invoke heartbeat p e).wheel.slots slot)[done.length]? = some e := by
        rw [hinvoke]
        exact hread
      rw [hagain]
      dsimp only
      have hnext := @ih (forget (invoke heartbeat p e) e) (done ++ [e])
        (by rw [hinvoke, List.append_assoc]; exact hslot)
        (fun e' he' => hcb e' (List.mem_cons_of_mem _ he'))
        (by rw [hinvoke]; exact fun e' he' => hfirst e' (List.mem_cons_of_mem _ he'))
        (by
          rcases List.mem_cons.mp hc with heq | hc
          · exact absurd heq.symm hid
          · exact hc)
      rw [List.length_append, List.length_singleton] at hnext
      exact hnext

theorem mem_fired_tick {c : ConnectionId} (hcb : ∀ e ∈ w.due, e.callback = some ())
    (hfirst : Foremost c w.due l) (hc : c ∈ w.due.map TimerEntry.id) :
    c ∈ (reached (w.tick heartbeat l)).fired := by
  rw [fired_tick_eq]
  exact @fired_of_foremost w.nextSlot ⟨w.advance, l, [], []⟩ [] w.due c rfl hcb hfirst hc

end TimerWheel

namespace TimedLoop

/-! ### What a run says about timers -/

/-- An event with its time, and what the step tells. -/
abbrev Label := (LoopEvent × ℕ) × TimedOut

def isTick : LoopEvent → Bool
  | .cleanupClosed _ _ => true
  | _ => false

/-- The ids whose heartbeat callback the event invokes. -/
def fired : LoopEvent → List ConnectionId
  | .cleanupClosed due _ => due
  | _ => []

/-- When the timer of a connection was last set, at its registration or by a
readable event. -/
def lastTouch (c : ConnectionId) (past : List Label) : Option ℕ :=
  ((past.filter fun a => decide (a.2.touched = some c)).getLast?).map fun a => a.1.2

/-- How many ticks there have been since. -/
def ticksSince (c : ConnectionId) (past : List Label) : ℕ :=
  past.foldl (fun n a => if a.2.touched = some c then 0 else
    if isTick a.1.1 = true then n + 1 else n) 0

/-- If `a` invokes the callback of `c`, it comes `heartbeatMs` after the last setting of
its timer. -/
def NotEarly (heartbeatMs : UInt64) (c : ConnectionId) (past : List Label) (a : Label) : Prop :=
  c ∈ fired a.1.1 → ∃ since, lastTouch c past = some since ∧ since + nsOfMs heartbeatMs ≤ a.1.2

/-- If `a` is the tick number `ticksOf heartbeatMs` since the timer of `c` was
last set, and the wheel still has it, the tick comes `heartbeatMs` after that
setting. -/
def OnTime (heartbeatMs : UInt64) (c : ConnectionId) (past : List Label) (a : Label) : Prop :=
  isTick a.1.1 = true → ticksSince c past + 1 = TimerWheel.ticksOf heartbeatMs →
    (∃ s, Transition.Run (Steps heartbeatMs) {} past s ∧ s.wheel.idToSlot.lookup c ≠ none) →
      ∀ since, lastTouch c past = some since → since + nsOfMs heartbeatMs ≤ a.1.2

/-- A tick comes at least `kTickMs` after every earlier tick, and after every
setting of the timer of `c`. -/
def Paced (c : ConnectionId) (past : List Label) (a : Label) : Prop :=
  isTick a.1.1 = true → ∀ b ∈ past, isTick b.1.1 = true ∨ b.2.touched = some c →
    b.1.2 + nsOfMs kTickMs ≤ a.1.2

instance (c : ConnectionId) (past : List Label) (a : Label) : Decidable (Paced c past a) :=
  inferInstanceAs (Decidable (isTick a.1.1 = true → ∀ b ∈ past,
    isTick b.1.1 = true ∨ b.2.touched = some c → b.1.2 + nsOfMs kTickMs ≤ a.1.2))

/-- No tick has a live timer before that of `c` in its bucket. -/
def Unskipped (heartbeatMs : UInt64) (c : ConnectionId) (past : List Label) (a : Label) : Prop :=
  isTick a.1.1 = true → ∀ s, Transition.Run (Steps heartbeatMs) {} past s →
    TimerWheel.Foremost c s.wheel.due s.loop

theorem lastTouch_concat (c : ConnectionId) (past : List Label) (a : Label) :
    lastTouch c (past ++ [a]) =
      if a.2.touched = some c then some a.1.2 else lastTouch c past := by
  rw [lastTouch, List.filter_append, lastTouch]
  split
  · rename_i h
    simp [h]
  · rename_i h
    simp [h]

theorem ticksSince_concat (c : ConnectionId) (past : List Label) (a : Label) :
    ticksSince c (past ++ [a]) =
      if a.2.touched = some c then 0 else
        if isTick a.1.1 = true then ticksSince c past + 1 else ticksSince c past := by
  rw [ticksSince, List.foldl_append]
  rfl

/-! ### Paced ticks are late enough -/

variable {heartbeatMs : UInt64} {c : ConnectionId} {past : List Label} {a : Label}

/-- Every tick since the timer was set has taken at least `kTickMs`, and so has
the one that comes at `time`. -/
theorem le_of_paced (h : Transition.Throughout (Paced c) past) {since time : ℕ}
    (hsince : lastTouch c past = some since)
    (htime : ∀ b ∈ past, isTick b.1.1 = true ∨ b.2.touched = some c →
      b.1.2 + nsOfMs kTickMs ≤ time) :
    since + nsOfMs kTickMs * (ticksSince c past + 1) ≤ time := by
  induction past using List.reverseRecOn generalizing time with
  | nil => cases hsince
  | append_singleton past a ih =>
    obtain ⟨hpast, ha⟩ := Transition.throughout_concat.mp h
    have hnow := htime a (List.mem_append_right _ List.mem_cons_self)
    rw [lastTouch_concat] at hsince
    rw [ticksSince_concat]
    by_cases htouched : a.2.touched = some c
    · rw [if_pos htouched] at hsince ⊢
      obtain rfl := Option.some.inj hsince
      rw [Nat.zero_add, Nat.mul_one]
      exact hnow (Or.inr htouched)
    · rw [if_neg htouched] at hsince ⊢
      by_cases htick : isTick a.1.1 = true
      · rw [if_pos htick, Nat.mul_add, Nat.mul_one, ← Nat.add_assoc]
        exact (Nat.add_le_add_right (ih hpast hsince (ha htick)) _).trans (hnow (Or.inl htick))
      · rw [if_neg htick]
        exact ih hpast hsince fun b hb => htime b (List.mem_append_left _ hb)

/-- **Paced ticks are on time.** -/
theorem onTime_of_paced (hms : heartbeatMs ≤ 60000) {as : List Label}
    (h : Transition.Throughout (Paced c) as) :
    Transition.Throughout (OnTime heartbeatMs c) as := by
  rintro past a later rfl htick hcount - since hsince
  have hpast : Transition.Throughout (Paced c) past := by
    rintro before b after rfl
    exact h before b (after ++ a :: later) (by simp)
  have hle := le_of_paced hpast hsince (h past a later rfl htick)
  have hticks := (TimerWheel.toNat_ticks hms).2
  rw [hcount] at hle
  have htick : nsOfMs kTickMs = 10000000 := by decide
  rw [htick] at hle
  rw [nsOfMs]
  omega

/-! ### The invariant -/

/-- A timer of the wheel has the heartbeat callback, and was set as many ticks
ago as it has fewer to go than `ticksOf heartbeatMs`. -/
structure Armed (heartbeatMs : UInt64) (past : List Label) (w : TimerWheel Unit) : Prop where
  wf : w.WF
  callback : ∀ c cb n, w.Pending c cb n → cb = some ()
  since : ∀ c cb n, w.Pending c cb n → lastTouch c past ≠ none
  count : ∀ c cb n, w.Pending c cb n → ticksSince c past + n = TimerWheel.ticksOf heartbeatMs

variable {w w' : TimerWheel Unit}

theorem Armed.empty : Armed heartbeatMs [] ({} : TimerWheel Unit) := by
  have hnone : ∀ c cb n, ¬ ({} : TimerWheel Unit).Pending c cb n := by
    rintro c cb n ⟨slot, he, -⟩
    cases he
  refine ⟨TimerWheel.wf_empty, ?_, ?_, ?_⟩
  · exact fun c cb n hp => absurd hp (hnone c cb n)
  · exact fun c cb n hp => absurd hp (hnone c cb n)
  · exact fun c cb n hp => absurd hp (hnone c cb n)

/-- A step that sets no timer and does not tick. -/
theorem Armed.of_shrunk (h : Armed heartbeatMs past w) (htick : isTick a.1.1 = false)
    (htouched : a.2.touched = none) (hs : TimerWheel.Shrunk w w') :
    Armed heartbeatMs (past ++ [a]) w' := by
  refine ⟨hs.wf h.wf, ?_, ?_, ?_⟩
  · exact fun c cb n hp => h.callback c cb n (hs.pending h.wf c cb n hp)
  · intro c cb n hp
    rw [lastTouch_concat, htouched, if_neg (by simp)]
    exact h.since c cb n (hs.pending h.wf c cb n hp)
  · intro c cb n hp
    rw [ticksSince_concat, htouched, if_neg (by simp), if_neg (by simp [htick])]
    exact h.count c cb n (hs.pending h.wf c cb n hp)

/-- A step that sets the timer of `c`, and leaves the others. -/
theorem Armed.touch (h : Armed heartbeatMs past w) (htick : isTick a.1.1 = false)
    (htouched : a.2.touched = some c) (hwf : w'.WF)
    (hset : ∀ c' cb n, w'.Pending c' cb n → (c' ≠ c ∧ w.Pending c' cb n) ∨
      (c' = c ∧ cb = some () ∧ n = TimerWheel.ticksOf heartbeatMs)) :
    Armed heartbeatMs (past ++ [a]) w' := by
  refine ⟨hwf, ?_, ?_, ?_⟩
  · intro c' cb n hp
    rcases hset c' cb n hp with ⟨-, hold⟩ | ⟨-, hcb, -⟩
    · exact h.callback c' cb n hold
    · exact hcb
  · intro c' cb n hp
    rw [lastTouch_concat, htouched]
    rcases hset c' cb n hp with ⟨hne, hold⟩ | ⟨rfl, -, -⟩
    · rw [if_neg fun heq => hne (Option.some.inj heq).symm]
      exact h.since c' cb n hold
    · rw [if_pos rfl]
      exact Option.some_ne_none _
  · intro c' cb n hp
    rw [ticksSince_concat, htouched]
    rcases hset c' cb n hp with ⟨hne, hold⟩ | ⟨rfl, -, hn⟩
    · rw [if_neg fun heq => hne (Option.some.inj heq).symm, if_neg (by simp [htick])]
      exact h.count c' cb n hold
    · rw [if_pos rfl, hn, Nat.zero_add]

/-- A tick that returns: every timer left has one tick less to go. -/
theorem Armed.expire (h : Armed heartbeatMs past w) (htick : isTick a.1.1 = true)
    (htouched : a.2.touched = none) : Armed heartbeatMs (past ++ [a]) w.expire := by
  refine ⟨h.wf.expire, ?_, ?_, ?_⟩
  · intro c cb n hp
    exact h.callback c cb _ (TimerWheel.pending_expire.mp hp).2
  · intro c cb n hp
    rw [lastTouch_concat, htouched, if_neg (by simp)]
    exact h.since c cb _ (TimerWheel.pending_expire.mp hp).2
  · intro c cb n hp
    have hcount := h.count c cb _ (TimerWheel.pending_expire.mp hp).2
    rw [ticksSince_concat, htouched, if_neg (by simp), if_pos htick]
    omega

/-- The next tick is for the timer of `c` exactly if it is the last one to count. -/
theorem Armed.mem_due_iff (h : Armed heartbeatMs past w) :
    c ∈ w.due.map TimerEntry.id ↔ w.idToSlot.lookup c ≠ none ∧
      ticksSince c past + 1 = TimerWheel.ticksOf heartbeatMs := by
  constructor
  · intro hc
    obtain ⟨⟨id, cb⟩, he, rfl⟩ := List.mem_map.mp hc
    have hp := TimerWheel.mem_due_iff.mp he
    exact ⟨h.wf.lookup_of_pending hp, h.count _ _ _ hp⟩
  · rintro ⟨hlookup, hcount⟩
    obtain ⟨cb, n, hp⟩ := h.wf.pending_of_lookup hlookup
    have hn : n = 1 := by
      have := h.count c cb n hp
      omega
    rw [hn] at hp
    exact List.mem_map.mpr ⟨⟨c, cb⟩, TimerWheel.mem_due_iff.mpr hp, rfl⟩

theorem Armed.callback_due (h : Armed heartbeatMs past w) : ∀ e ∈ w.due, e.callback = some () :=
  fun e he => h.callback e.id e.callback 1 (TimerWheel.mem_due_iff.mp he)

/-! ### The steps -/

theorem shrunk_closeConnection (t : TimedLoop) (id : ConnectionId) :
    TimerWheel.Shrunk t.wheel (t.closeConnection id).wheel := by
  unfold closeConnection
  split
  · exact TimerWheel.Shrunk.refl _
  · exact TimerWheel.shrunk_remove _ _

theorem shrunk_checkTimeout (nowMs timeoutMs : UInt64) (t : TimedLoop) (id : ConnectionId) :
    TimerWheel.Shrunk t.wheel (t.checkTimeout nowMs timeoutMs id).wheel := by
  unfold checkTimeout
  split
  · exact TimerWheel.Shrunk.refl _
  · split
    · split
      · exact shrunk_closeConnection _ _
      · exact TimerWheel.Shrunk.refl _
    · exact TimerWheel.Shrunk.refl _

theorem shrunk_checkTimeouts (nowMs timeoutMs : UInt64) (t : TimedLoop)
    (order : List ConnectionId) :
    TimerWheel.Shrunk t.wheel (order.foldl (checkTimeout nowMs timeoutMs) t).wheel := by
  induction order generalizing t with
  | nil => exact TimerWheel.Shrunk.refl _
  | cons id order ih => exact (shrunk_checkTimeout nowMs timeoutMs t id).trans (ih _)

/-- A readable event: the connection may be closed first, which removes its
timer, and then there is nothing to refresh. -/
theorem Armed.refresh (h : Armed heartbeatMs past w) (hms : heartbeatMs ≤ 60000)
    (htick : isTick a.1.1 = false)
    (htouched : a.2.touched = if (w'.idToSlot.lookup c).isSome then some c else none)
    (hs : TimerWheel.Shrunk w w') : Armed heartbeatMs (past ++ [a]) (w'.refresh c heartbeatMs) := by
  rcases hlookup : w'.idToSlot.lookup c with - | slot
  · rw [hlookup] at htouched
    rw [TimerWheel.refresh, hlookup]
    exact h.of_shrunk htick htouched hs
  · rw [hlookup] at htouched
    apply h.touch htick htouched ((hs.wf h.wf).refresh _ _)
    intro c' cb n hp
    rcases ((hs.wf h.wf).pending_refresh hms).mp hp with ⟨hne, hold⟩ | ⟨rfl, ⟨m, hold⟩, hn⟩
    · exact Or.inl ⟨hne, hs.pending h.wf c' cb n hold⟩
    · exact Or.inr ⟨rfl, h.callback c' cb m (hs.pending h.wf c' cb m hold), hn⟩

/-- One connection of `pending_conns_`: its timer is set when it is registered. -/
theorem Armed.drainPending {t t' : TimedLoop} {ev : LoopEvent} {time : ℕ} {out : TimedOut}
    {registered : Bool} (h : Armed heartbeatMs past t.wheel) (hms : heartbeatMs ≤ 60000)
    (htick : isTick ev = false) (hstep : t.drainPending heartbeatMs registered = (t', out)) :
    Armed heartbeatMs (past ++ [((ev, time), out)]) t'.wheel := by
  unfold TimedLoop.drainPending at hstep
  split at hstep
  · obtain ⟨rfl, rfl⟩ := Prod.mk.injEq .. ▸ hstep
    exact h.of_shrunk htick rfl (TimerWheel.Shrunk.refl _)
  · rename_i c cs hp
    obtain ⟨rfl, rfl⟩ := Prod.mk.injEq .. ▸ hstep
    cases registered
    · exact h.of_shrunk htick rfl (TimerWheel.Shrunk.refl _)
    · apply h.touch htick rfl (h.wf.add _ _ _)
      exact fun c' cb n hp => (h.wf.pending_add hms).mp hp

/-- An event of epoll: a readable one sets the timer again. -/
theorem Armed.handleEvent {t t' : TimedLoop} {ev : LoopEvent} {time : ℕ} {out : TimedOut}
    {fd : Fd} {readable writable : Bool} {r : ReadResult} {w : WriteResult} {nowMs : UInt64}
    (h : Armed heartbeatMs past t.wheel) (hms : heartbeatMs ≤ 60000) (htick : isTick ev = false)
    (hstep : t.handleEvent heartbeatMs fd readable writable r w nowMs = some (t', out)) :
    Armed heartbeatMs (past ++ [((ev, time), out)]) t'.wheel := by
  unfold TimedLoop.handleEvent at hstep
  dsimp only at hstep
  split at hstep
  · obtain ⟨rfl, rfl⟩ := Prod.mk.injEq .. ▸ Option.some.inj hstep
    exact h.of_shrunk htick rfl (TimerWheel.Shrunk.refl _)
  split at hstep
  · obtain ⟨rfl, rfl⟩ := Prod.mk.injEq .. ▸ Option.some.inj hstep
    exact h.of_shrunk htick rfl (TimerWheel.Shrunk.refl _)
  rename_i id _ _ c hc
  obtain ⟨⟨t₁, out₁⟩, hread, heq⟩ := Option.map_eq_some_iff.mp hstep
  obtain ⟨rfl, rfl⟩ := Prod.mk.injEq .. ▸ heq
  -- the writable half does not touch the wheel
  have hwheel : (if writable then t₁.handleWritable id w else t₁).wheel = t₁.wheel := by
    split <;> rfl
  rw [hwheel]
  split at hread
  · unfold TimedLoop.handleReadable at hread
    obtain ⟨⟨c', fs⟩, -, heq'⟩ := Option.map_eq_some_iff.mp hread
    obtain ⟨rfl, rfl⟩ := Prod.mk.injEq .. ▸ heq'
    apply h.refresh hms htick rfl
    split
    · exact shrunk_closeConnection
        { t with loop := { t.loop with conns := t.loop.conns.insert id c' } } id
    · split <;> exact TimerWheel.Shrunk.refl _
  · obtain ⟨rfl, rfl⟩ := Prod.mk.injEq .. ▸ Option.some.inj hread
    exact h.of_shrunk htick rfl (TimerWheel.Shrunk.refl _)

/-- **One step** that does not tick. -/
theorem Armed.stepNow {t t' : TimedLoop} {ev : LoopEvent} {time : ℕ} {out : TimedOut}
    (h : Armed heartbeatMs past t.wheel) (hms : heartbeatMs ≤ 60000)
    (hstep : t.stepNow heartbeatMs ev = some (t', out)) (htick : isTick ev = false) :
    Armed heartbeatMs (past ++ [((ev, time), out)]) t'.wheel := by
  unfold TimedLoop.stepNow at hstep
  cases ev with
  | addConnection c =>
    obtain ⟨rfl, rfl⟩ := Prod.mk.injEq .. ▸ Option.some.inj hstep
    exact h.of_shrunk htick rfl (TimerWheel.Shrunk.refl _)
  | sendToConnection id data =>
    obtain ⟨rfl, rfl⟩ := Prod.mk.injEq .. ▸ Option.some.inj hstep
    exact h.of_shrunk htick rfl (TimerWheel.Shrunk.refl _)
  | drainPending registered =>
    exact h.drainPending hms htick (Option.some.inj hstep)
  | drainPendingWrites =>
    obtain ⟨l, -, heq⟩ := Option.map_eq_some_iff.mp hstep
    obtain ⟨rfl, rfl⟩ := Prod.mk.injEq .. ▸ heq
    exact h.of_shrunk htick rfl (TimerWheel.Shrunk.refl _)
  | epoll fd readable writable r w nowMs =>
    exact h.handleEvent hms htick hstep
  | closeConnection id =>
    obtain ⟨rfl, rfl⟩ := Prod.mk.injEq .. ▸ Option.some.inj hstep
    exact h.of_shrunk htick rfl (shrunk_closeConnection _ _)
  | checkTimeouts nowMs timeoutMs order =>
    obtain ⟨rfl, rfl⟩ := Prod.mk.injEq .. ▸ Option.some.inj hstep
    exact h.of_shrunk htick rfl (shrunk_checkTimeouts _ _ _ _)
  | cleanupClosed due order => cases htick

/-- What a pass of `cleanupClosed` says of its tick. -/
theorem cleanupClosed_cases {t t' : TimedLoop} {due order : List ConnectionId} {out : TimedOut}
    (h : t.cleanupClosed due order = some (t', out)) :
    due = (TimerWheel.reached (t.wheel.tick heartbeat t.loop)).fired ∧ out.touched = none ∧
      (t'.faulted = false → ∃ p, t.wheel.tick heartbeat t.loop = .ok p ∧ t'.wheel = p.wheel) := by
  unfold TimedLoop.cleanupClosed at h
  split at h
  · rename_i p htick
    split at h
    · rename_i hfired
      obtain ⟨rfl, rfl⟩ := Prod.mk.injEq .. ▸ Option.some.inj h
      rw [htick]
      exact ⟨hfired.symm, rfl, fun _ => ⟨p, rfl, rfl⟩⟩
    · cases h
  · rename_i p htick
    split at h
    · rename_i hfired
      obtain ⟨rfl, rfl⟩ := Prod.mk.injEq .. ▸ Option.some.inj h
      rw [htick]
      exact ⟨hfired.symm, rfl, fun hok => Bool.noConfusion hok⟩
    · cases h

/-- A step from a loop that has not faulted. -/
theorem Armed.step {t t' : TimedLoop} (h : t.faulted = false → Armed heartbeatMs past t.wheel)
    (hms : heartbeatMs ≤ 60000) (hstep : Steps heartbeatMs t a t') (hok : t'.faulted = false) :
    Armed heartbeatMs (past ++ [a]) t'.wheel := by
  obtain ⟨⟨ev, time⟩, out⟩ := a
  unfold Steps TimedLoop.step at hstep
  split at hstep
  · cases hstep
  rename_i hgo
  have harmed := h (Bool.eq_false_iff.mpr fun hf => hgo (Or.inl hf))
  by_cases htick : isTick ev = true
  · cases ev with
    | cleanupClosed due order =>
      obtain ⟨-, htouched, hwheel⟩ := cleanupClosed_cases hstep
      obtain ⟨p, hp, hwheel⟩ := hwheel hok
      rw [hwheel, (harmed.wf.tick_ok hp).1]
      exact harmed.expire htick htouched
    | _ => cases htick
  · exact Armed.stepNow (t := { t with now := time }) harmed hms hstep
      (Bool.eq_false_iff.mpr htick)

/-! ### Runs -/

theorem armed_run {t : TimedLoop} {as : List Label} (hms : heartbeatMs ≤ 60000)
    (hrun : Transition.Run (Steps heartbeatMs) {} as t) (hok : t.faulted = false) :
    Armed heartbeatMs as t.wheel := by
  have hinv := @Transition.Run.record _ _ (Steps heartbeatMs)
    (fun past t => t.faulted = false → Armed heartbeatMs past t.wheel) {} t as ?_ hrun
    (fun _ => Armed.empty)
  · exact hinv hok
  · exact fun past s a s' h hstep hok => Armed.step h hms hstep hok

theorem run_unique {t t' : TimedLoop} {as : List Label}
    (h : Transition.Run (Steps heartbeatMs) {} as t)
    (h' : Transition.Run (Steps heartbeatMs) {} as t') : t = t' :=
  h.unique (fun _ _ _ _ hs hs' => congrArg Prod.fst (Option.some.inj (hs.symm.trans hs'))) h'

/-- A tick of the run is made from a loop whose wheel is armed, and `fired` is
what it has invoked. -/
theorem tick_of_run {t : TimedLoop} {past later : List Label} (hms : heartbeatMs ≤ 60000)
    (hrun : Transition.Run (Steps heartbeatMs) {} (past ++ a :: later) t)
    (htick : isTick a.1.1 = true) :
    ∃ s, Transition.Run (Steps heartbeatMs) {} past s ∧ Armed heartbeatMs past s.wheel ∧
      fired a.1.1 = (TimerWheel.reached (s.wheel.tick heartbeat s.loop)).fired := by
  obtain ⟨s, hbefore, hafter⟩ := hrun.split
  cases hafter with
  | cons hstep _ =>
    obtain ⟨⟨ev, time⟩, out⟩ := a
    unfold Steps TimedLoop.step at hstep
    split at hstep
    · cases hstep
    rename_i hgo
    have hok : s.faulted = false := Bool.eq_false_iff.mpr fun hf => hgo (Or.inl hf)
    refine ⟨s, hbefore, armed_run hms hbefore hok, ?_⟩
    cases ev with
    | cleanupClosed due order => exact (cleanupClosed_cases hstep).1
    | _ => cases htick

/-- **No early heartbeat timeout**, of any one connection, in any run.  If the
tick number `ticksOf heartbeatMs` after every setting of its timer comes
`heartbeatMs` later, whenever the timer is still there, its heartbeat callback
is never early.  Where no tick skips the timer for one that is live before it
in the bucket, the callback is never early exactly then. -/
theorem no_early_heartbeat {t : TimedLoop} {as : List Label} (hms : heartbeatMs ≤ 60000)
    (hrun : Transition.Run (Steps heartbeatMs) {} as t) (c : ConnectionId) :
    (Transition.Throughout (OnTime heartbeatMs c) as →
      Transition.Throughout (NotEarly heartbeatMs c) as) ∧
    (Transition.Throughout (Unskipped heartbeatMs c) as →
      Transition.Throughout (NotEarly heartbeatMs c) as →
      Transition.Throughout (OnTime heartbeatMs c) as) := by
  constructor
  · rintro honTime past a later rfl hc
    have htick : isTick a.1.1 = true := by
      obtain ⟨⟨ev, time⟩, out⟩ := a
      cases ev with
      | cleanupClosed due order => rfl
      | _ => cases hc
    obtain ⟨s, hbefore, harmed, hfired⟩ := tick_of_run hms hrun htick
    rw [hfired] at hc
    have hdue := TimerWheel.fired_tick
      (fun slot cb id s => (TimerWheel.slots_heartbeat cb id s slot).subset) c hc
    obtain ⟨hlookup, hcount⟩ := harmed.mem_due_iff.mp hdue
    obtain ⟨cb, n, hp⟩ := harmed.wf.pending_of_lookup hlookup
    obtain ⟨since, hsince⟩ := Option.ne_none_iff_exists'.mp (harmed.since c cb n hp)
    exact ⟨since, hsince,
      honTime past a later rfl htick hcount ⟨s, hbefore, hlookup⟩ since hsince⟩
  · rintro hunskipped hnotEarly past a later rfl htick hcount ⟨s', hbefore', hlookup⟩ since hsince
    obtain ⟨s, hbefore, harmed, hfired⟩ := tick_of_run hms hrun htick
    obtain rfl := run_unique hbefore' hbefore
    have hmem := TimerWheel.mem_fired_tick harmed.callback_due
      (hunskipped past a later rfl htick _ hbefore) (harmed.mem_due_iff.mpr ⟨hlookup, hcount⟩)
    obtain ⟨since', hsince', hle⟩ := hnotEarly past a later rfl (hfired ▸ hmem)
    obtain rfl := Option.some.inj (hsince'.symm.trans hsince)
    exact hle

/-! ### Runs of two connections -/

theorem exists_run {as : List Label}
    (h : (Transition.exec (step heartbeatMs) {} (as.map Prod.fst)).map
      (fun p => p.2.map Prod.snd) = some (as.map Prod.snd)) :
    ∃ t, Transition.Run (Steps heartbeatMs) {} as t := by
  obtain ⟨⟨t, bs⟩, hexec, houts⟩ := Option.map_eq_some_iff.mp h
  have hlabels : bs = as := by
    rw [← List.zip_unzip bs, List.unzip_fst, List.unzip_snd, Transition.map_fst_of_exec hexec,
      houts, ← List.unzip_fst, ← List.unzip_snd, List.zip_unzip]
  rw [hlabels] at hexec
  exact ⟨t, Transition.run_of_exec hexec⟩

/-- A readable event of connection 8, whose read finds nothing. -/
def heard (time : ℕ) : Label := ((.epoll 6 true false .again .again 0, time), ⟨[], some 8⟩)

/-- Connections 7 and 8 are registered.  While 7 is silent, 8 has two readable
events, each just before a tick. -/
def busyNeighbour : List Label :=
  [] ++ [((.addConnection { id := 7, fd := 5, lastActiveMs := 0 }, 0), ⟨[], none⟩)] ++
    [((.addConnection { id := 8, fd := 6, lastActiveMs := 0 }, 0), ⟨[], none⟩)] ++
    [((.drainPending true, 0), ⟨[], some 7⟩)] ++ [((.drainPending true, 0), ⟨[], some 8⟩)] ++
    [heard 9000000] ++ [((.cleanupClosed [] [7, 8], 10000000), ⟨[], none⟩)] ++
    [heard 19000000] ++ [((.cleanupClosed [7] [], 20000000), ⟨[], none⟩)]

/-- The second tick invokes the callback of a timer of 20 milliseconds, just in time. -/
theorem no_early_heartbeat_busyNeighbour :
    Transition.Throughout (NotEarly 20 7) busyNeighbour := by
  have houts : (Transition.exec (step 20) {} (busyNeighbour.map Prod.fst)).map
      (fun p => p.2.map Prod.snd) = some (busyNeighbour.map Prod.snd) := by
    decide +kernel
  obtain ⟨t, hrun⟩ := exists_run houts
  apply (no_early_heartbeat (by decide) hrun 7).1
  apply onTime_of_paced (by decide)
  rw [busyNeighbour]
  simp only [Transition.throughout_concat]
  exact ⟨⟨⟨⟨⟨⟨⟨⟨Transition.throughout_nil, by decide⟩, by decide⟩, by decide⟩, by decide⟩,
    by decide⟩, by decide⟩, by decide⟩, by decide⟩

/-- Two passes of iterations that return at once. -/
def twoPasses : List Label :=
  [((.addConnection { id := 7, fd := 5, lastActiveMs := 0 }, 0), ⟨[], none⟩),
    ((.drainPending true, 0), ⟨[], some 7⟩), ((.cleanupClosed [] [7], 0), ⟨[], none⟩)] ++
    [((.cleanupClosed [7] [], 0), ⟨[], none⟩)]

/-- The callback of a timer of 20 milliseconds runs at the time of the registration. -/
theorem early_heartbeat_twoPasses :
    ∃ t, Transition.Run (Steps 20) {} twoPasses t ∧
      ¬ Transition.Throughout (NotEarly 20 7) twoPasses := by
  have houts : (Transition.exec (step 20) {} (twoPasses.map Prod.fst)).map
      (fun p => p.2.map Prod.snd) = some (twoPasses.map Prod.snd) := by
    decide +kernel
  obtain ⟨t, hrun⟩ := exists_run houts
  refine ⟨t, hrun, ?_⟩
  rw [twoPasses, Transition.throughout_concat]
  rintro ⟨-, hlast⟩
  obtain ⟨since, hsince, hle⟩ := hlast List.mem_cons_self
  obtain rfl := Option.some.inj (hsince.symm.trans (show _ = some 0 by decide))
  exact absurd hle (by decide)

end TimedLoop

end MiniArena
