/-
MiniArena/HeartbeatTick.lean

A tick of the event loop's wheel.

The heartbeat callback of a registered connection closes the connection, and
this removes its timer from the very bucket `tick` walks through.  From there
on the loop is one position ahead of the bucket, and it ends outside of it:
a tick survives its callbacks if and only if none of them finds its
connection (`survives_iff`), and then it does all it should.
-/
import MiniArena.TimedLoop

namespace MiniArena

namespace TimerWheel

open TimedLoop

variable {w : TimerWheel Unit} {l : EventLoop}

/-! ### What a callback does to the buckets -/

/-- The timer's connection is registered, so its callback closes it. -/
def Live (l : EventLoop) (e : TimerEntry Unit) : Prop :=
  e.callback = some () ∧ e.id ∈ l.conns

theorem slots_remove_subset (w : TimerWheel Unit) (id : ConnectionId) (slot : Fin kSlots) :
    List.Sublist ((w.remove id).slots slot) (w.slots slot) := by
  unfold remove
  rcases w.idToSlot.lookup id with - | slot'
  · exact List.Sublist.refl _
  · show List.Sublist (Function.update w.slots slot' _ slot) _
    rw [Function.update_apply]
    split
    · rename_i heq
      rw [heq]
      exact List.eraseP_sublist
    · exact List.Sublist.refl _

theorem slots_heartbeat (cb : Unit) (id : ConnectionId) (s : TimerWheel Unit × EventLoop)
    (slot : Fin kSlots) : List.Sublist ((heartbeat cb id s).1.slots slot) (s.1.slots slot) := by
  unfold heartbeat closeConnection
  rcases hc : s.2.conns.lookup id with - | c
  · exact List.Sublist.refl _
  · dsimp only
    exact slots_remove_subset s.1 id slot

theorem idle_of_not_live {e : TimerEntry Unit} (h : ¬ Live l e) : Idle heartbeat l e := by
  intro cb hcb w
  have hnot : e.id ∉ l.conns := fun hmem => h ⟨hcb, hmem⟩
  unfold heartbeat
  rw [Finmap.lookup_eq_none.mpr hnot]

/-- A live callback takes its timer out of the bucket. -/
theorem length_heartbeat {e : TimerEntry Unit} {slot : Fin kSlots} (hmem : e.id ∈ l.conns)
    (he : e ∈ w.slots slot) (hmapped : w.idToSlot.lookup e.id = some slot) :
    ((heartbeat () e.id (w, l)).1.slots slot).length < (w.slots slot).length := by
  obtain ⟨c, hc⟩ := Finmap.mem_iff.mp hmem
  have hremove : (heartbeat () e.id (w, l)).1 = w.remove e.id := by
    simp only [heartbeat, closeConnection, hc]
  have hslot : (w.remove e.id).slots slot = eraseId e.id (w.slots slot) := by
    simp only [remove, hmapped, Function.update_self]
  have hpos := List.length_pos_of_mem he
  rw [hremove, hslot, eraseId, List.length_eraseP_of_mem he (by simp)]
  omega

/-! ### When a tick returns -/

/-- **A tick returns if and only if no due callback is live.** -/
theorem WF.tick_returns_iff (h : WF w) :
    (∃ p, w.tick heartbeat l = .ok p) ↔ ∀ e ∈ w.due, ¬ Live l e := by
  constructor
  · rintro ⟨p, hp⟩ e he hlive
    obtain ⟨q, hq⟩ := @loop_of_removal Unit EventLoop heartbeat w.nextSlot [] w.due
      ⟨w.advance, l, [], []⟩ (Live l) rfl
      (fun e he => (h.mapped e.id w.nextSlot).mpr ⟨e, he, rfl⟩) (h.nodup w.nextSlot)
      (fun cb id s => (slots_heartbeat cb id s _).length_le)
      (fun e _ hnot => idle_of_not_live hnot)
      (by
        intro e he hlive
        refine ⟨(), hlive.1, ?_⟩
        intro w' hslots hmapped
        apply length_heartbeat hlive.2 _ hmapped
        rw [hslots]
        exact he)
      ⟨e, he, hlive⟩
    have htick : (loop heartbeat w.nextSlot w.due.length 0 ⟨w.advance, l, [], []⟩).map
        (clear w.nextSlot) = .ok p := hp
    rw [show loop heartbeat w.nextSlot w.due.length 0 ⟨w.advance, l, [], []⟩ = .error q from hq]
      at htick
    cases htick
  · intro hnone
    exact ⟨_, tick_of_idle fun e he => idle_of_not_live (hnone e he)⟩

/-- What a tick that returns has done. -/
theorem WF.tick_ok (h : WF w) {p : Pass Unit EventLoop} (hp : w.tick heartbeat l = .ok p) :
    p.wheel = w.expire ∧ p.rest = l ∧
      p.fired = (w.due.filter fun e => e.callback.isSome).map TimerEntry.id := by
  have hnone := h.tick_returns_iff.mp ⟨p, hp⟩
  have hidle := tick_of_idle fun e he => idle_of_not_live (hnone e he)
  obtain rfl := Except.ok.inj (hp.symm.trans hidle)
  exact ⟨rfl, rfl, rfl⟩

/-! ### Every state of the wheel -/

/-- The states of a wheel in an event loop. -/
inductive Reachable : TimerWheel Unit → Prop
  | init : Reachable {}
  | add {v : TimerWheel Unit} (id : ConnectionId) (timeoutMs : UInt64) (cb : Option Unit) :
      Reachable v → Reachable (v.add id timeoutMs cb)
  | remove {v : TimerWheel Unit} (id : ConnectionId) : Reachable v → Reachable (v.remove id)
  | refresh {v : TimerWheel Unit} (id : ConnectionId) (timeoutMs : UInt64) :
      Reachable v → Reachable (v.refresh id timeoutMs)
  | tick {v : TimerWheel Unit} (l : EventLoop) (p : Pass Unit EventLoop) :
      Reachable v → v.tick heartbeat l = .ok p → Reachable p.wheel

theorem Reachable.wf (h : Reachable w) : WF w := by
  induction h with
  | init => exact wf_empty
  | add id timeoutMs cb _ ih => exact ih.add id timeoutMs cb
  | remove id _ ih => exact ih.remove id
  | refresh id timeoutMs _ ih => exact ih.refresh id timeoutMs
  | tick l p _ hp ih =>
    rw [(ih.tick_ok hp).1]
    exact ih.expire

/-! ### Surviving the callbacks -/

/-- The tick returns the pass `p`: it has read inside the bucket only, has
invoked the callback of every due timer exactly once, has left no due timer
and no other change, and counts right. -/
structure Survives (w : TimerWheel Unit) (l : EventLoop) (p : Pass Unit EventLoop) : Prop where
  returns : w.tick heartbeat l = .ok p
  once : p.fired.Perm (w.due.map TimerEntry.id)
  nodup : p.fired.Nodup
  none_left : p.wheel.slots w.nextSlot = []
  unmapped : ∀ e ∈ w.due, p.wheel.idToSlot.lookup e.id = none
  counted : p.wheel.entries = ∑ slot, (p.wheel.slots slot).length
  indexed : p.wheel.entries = p.wheel.idToSlot.keys.card
  others : ∀ slot ≠ w.nextSlot, p.wheel.slots slot = w.slots slot ∧
    ∀ e ∈ w.slots slot, p.wheel.idToSlot.lookup e.id = some slot

/-- **When a tick survives its callbacks.**  For every state of the wheel whose
due timers are heartbeat timers: if and only if no due timer has its
connection registered. -/
theorem survives_iff (h : Reachable w) (hdue : ∀ e ∈ w.due, e.callback = some ())
    (l : EventLoop) : (∃ p, Survives w l p) ↔ ∀ e ∈ w.due, e.id ∉ l.conns := by
  have hwf := h.wf
  constructor
  · rintro ⟨p, hp⟩ e he hmem
    exact hwf.tick_returns_iff.mp ⟨p, hp.returns⟩ e he ⟨hdue e he, hmem⟩
  · intro hnone
    obtain ⟨p, hp⟩ := (@WF.tick_returns_iff w l hwf).mpr fun e he hlive => hnone e he hlive.2
    obtain ⟨hwheel, -, hfired⟩ := hwf.tick_ok hp
    have hall : (w.due.filter fun e => e.callback.isSome) = w.due := by
      apply List.filter_eq_self.mpr
      intro e he
      rw [hdue e he]
      rfl
    rw [hall] at hfired
    have hafter : WF p.wheel := by
      rw [hwheel]
      exact hwf.expire
    refine ⟨p, hp, by rw [hfired], ?_, ?_, ?_, hafter.counted, hafter.card_keys.symm, ?_⟩
    · rw [hfired]
      exact hwf.nodup _
    · rw [hwheel]
      exact Function.update_self _ _ _
    · intro e he
      rw [hwheel, hwf.lookup_expire, if_pos ((hwf.mapped e.id _).mpr ⟨e, he, rfl⟩)]
    · intro slot hslot
      refine ⟨?_, ?_⟩
      · rw [hwheel]
        exact Function.update_of_ne hslot _ _
      · intro e he
        have hmapped := (hwf.mapped e.id slot).mpr ⟨e, he, rfl⟩
        rw [hwheel, hwf.lookup_expire, hmapped, if_neg]
        exact fun heq => hslot (Option.some.inj heq)

/-- Two heartbeat timers of 10 milliseconds. -/
def twoTimers : TimerWheel Unit := (({} : TimerWheel Unit).add 7 10 (some ())).add 8 10 (some ())

/-- Connections 7 and 8, registered. -/
def twoConnections : EventLoop where
  conns := (Finmap.singleton 7 { id := 7, fd := 5, lastActiveMs := 0 }).insert 8
    { id := 8, fd := 6, lastActiveMs := 0 }

/-- The callback of 7 is invoked, the one of 8 is not, and the tick does not return. -/
theorem not_survives_twoTimers : ¬ ∃ p, Survives twoTimers twoConnections p := by
  rintro ⟨p, hp⟩
  have hfault : (twoTimers.tick heartbeat twoConnections).toBool = false := by decide +kernel
  rw [hp.returns] at hfault
  cases hfault

/-- The same tick after both connections are gone. -/
theorem survives_twoTimers : (∃ p, Survives twoTimers {} p) ↔
    ∀ e ∈ twoTimers.due, e.id ∉ ({} : EventLoop).conns := by
  apply survives_iff
  · exact .add 8 10 _ (.add 7 10 _ .init)
  · have hall : (twoTimers.due.all fun e => decide (e.callback = some ())) = true := by
      decide +kernel
    simpa using hall

end TimerWheel

end MiniArena
