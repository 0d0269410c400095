/-
MiniArena/MatchCancel.lean

Leaving the match queue.

`leaveQueue` leaves the player's entries in the queue; its comment says that
the player is filtered out when matched.  `tryMatch` filters out players
without a session only: whoever leaves and is still logged in is seated when
the entry comes up, as `seated_leftWaiting` shows.

And only then: along every run, no call touches a player who has left and not
joined again if and only if no call pops an entry of such a player with a
session (`cancel_sticks`).  The state carries the labels so far, which say who
has left.
-/
import MiniArena.MatchCall

namespace MiniArena

variable {σ : Type} [Storage σ]

open RedisClient SessionManager

namespace MatchManager

variable {m m' : MatchManager σ} {out : List MatchNotify} {mode : ℤ} {pid : PlayerId}

/-! ### Players who have left -/

/-- The latest of the player's queue actions for the mode is `leaveQueue`. -/
def Cancelled (mode : ℤ) (pid : PlayerId) (ops : List MatchOp) : Prop :=
  ∃ before later, ops = before ++ .leaveQueue pid :: later ∧ .joinQueue pid mode ∉ later

/-- The player is added to no room, notified of no match and not moved to IN_ROOM. -/
structure Untouched (m m' : MatchManager σ) (out : List MatchNotify) (pid : PlayerId) : Prop where
  rooms : ∀ r room', m'.rooms.getRoom r = some room' → pid ∈ room'.players →
    ∃ room, m.rooms.getRoom r = some room ∧ pid ∈ room.players
  notifies : ∀ n ∈ out, n.playerId ≠ pid
  session : m'.sessions.getByPlayer pid = m.sessions.getByPlayer pid

/-- The match manager, with the operations performed so far and their notifies. -/
abbrev Logged (σ : Type) := MatchManager σ × List (MatchOp × List MatchNotify)

/-- The player's latest queue action for the mode, in the operations performed
so far, is `leaveQueue`. -/
def HasLeft (w : Logged σ) (mode : ℤ) (pid : PlayerId) : Prop :=
  Cancelled mode pid (w.2.map Prod.fst)

/-- The step is not one of a call of `tryMatch`, or touches nobody who has left its queue. -/
def Sticks (w : Logged σ) (a : MatchOp × List MatchNotify) (w' : Logged σ) : Prop :=
  a.1 = .advance → ∀ mode pid, w.1.phase.mode = some mode → HasLeft w mode pid →
    Untouched w.1 w'.1 a.2 pid

/-- If the step pops an entry of a player who has left, the player has no session. -/
def FiltersLeft (w : Logged σ) (a : MatchOp × List MatchNotify) : Prop :=
  a.1 = .advance → ∀ mode formed r i pid st, w.1.phase = .filling mode formed r i →
    (i : ℤ) < w.1.roomSize → popMatchQueue mode w.1.sessions.store = some (some pid, st) →
    HasLeft w mode pid → w.1.sessions.getByPlayer pid = none

/-! ### The steps of a call -/

/-- Players are seated while the room has rounds to go. -/
theorem lt_roomSize_of_notifies {formed i : ℕ} {r : RoomId} (h : m.advance = some (m', out))
    (hphase : m.phase = .filling mode formed r i) (hout : out ≠ []) : (i : ℤ) < m.roomSize := by
  by_contra hi
  rw [advance_full hphase (not_lt.mp hi)] at h
  obtain ⟨-, rfl⟩ := Prod.mk.injEq .. ▸ Option.some.inj h
  exact hout rfl

/-- Whoever is popped and has a session is notified. -/
theorem notifies_of_pop {formed i : ℕ} {r : RoomId} {st : σ} {s : Session}
    (h : m.advance = some (m', out)) (hphase : m.phase = .filling mode formed r i)
    (hi : (i : ℤ) < m.roomSize) (hpop : popMatchQueue mode m.sessions.store = some (some pid, st))
    (hs : m.sessions.getByPlayer pid = some s) : out = [⟨pid, r⟩] := by
  rcases hroom : m.rooms.getRoom r with - | room
  · have hs' : (m.withStore st).sessions.getByPlayer pid = some s := hs
    have hroom' : (m.withStore st).rooms.getRoom r = none := hroom
    rw [advance, hphase] at h
    dsimp only at h
    rw [fillRoom, if_pos hi, hpop, Option.bind_some] at h
    dsimp only at h
    rw [hs'] at h
    dsimp only at h
    rw [hroom'] at h
    cases h
  · rw [advance_seat hphase hi hpop hs hroom] at h
    obtain ⟨-, rfl⟩ := Prod.mk.injEq .. ▸ Option.some.inj h
    rfl

/-- **A step of `tryMatch`** touches nobody but the player who is seated. -/
theorem untouched_of_advances (ht : Tables m.sessions) (h : Advances m m' out)
    (hno : ∀ r, out ≠ [⟨pid, r⟩]) : Untouched m m' out pid := by
  cases h with
  | check phase rooms people next =>
    refine ⟨?_, by simp, rfl⟩
    intro r room' hroom hpid
    rcases people r room' hroom with hnew | hold
    · rw [hnew] at hpid
      exact absurd hpid Finmap.notMem_empty
    · exact ⟨room', hold, hpid⟩
  | full => exact ⟨fun r room' hroom hpid => ⟨room', hroom, hpid⟩, by simp, rfl⟩
  | pop => exact ⟨fun r room' hroom hpid => ⟨room', hroom, hpid⟩, by simp, rfl⟩
  | @seat mode formed r i pid' st s room phase pop session found =>
    have hne : pid' ≠ pid := by
      rintro rfl
      exact hno r rfl
    refine ⟨?_, ?_, ?_⟩
    · intro a room' hroom hpid
      change (m.rooms.update r _).getRoom a = some room' at hroom
      rw [RoomManager.getRoom_update] at hroom
      split at hroom
      · rename_i ha
        obtain rfl := Option.some.inj hroom
        rw [Room.mem_addPlayer] at hpid
        refine ⟨room, ha ▸ found, hpid.resolve_right ?_⟩
        rintro ⟨rfl, -⟩
        exact hne rfl
      · exact ⟨room', hroom, hpid⟩
    · simpa using hne
    · have ht' := (Quiet.store m.sessions st).tables ht
      have hq := quiet_setState { m.sessions with store := st } s.sessionId .inRoom
      obtain ⟨hlook, hpid⟩ := lookup_of_getByPlayer ht session
      have hother : ∀ q, m.sessions.sessions.lookup s.sessionId = some q → q.playerId ≠ pid := by
        intro q hq'
        obtain rfl := Option.some.inj (hlook.symm.trans hq')
        rwa [hpid]
      refine (getByPlayer_setCurrentRoom_of_ne (hq.tables ht') ?_ r).trans
        (getByPlayer_setState_of_ne ht' hother _)
      intro q hq'
      obtain ⟨q₀, hq₀, hsame, -⟩ := hq.kept _ _ hq'
      rw [hsame]
      exact hother q₀ hq₀

/-- A player who is notified was popped by a call with rounds to go, and has a session. -/
theorem popped_of_notifies {r : RoomId} (h : m.advance = some (m', [⟨pid, r⟩])) :
    ∃ mode formed i st, m.phase = .filling mode formed r i ∧ (i : ℤ) < m.roomSize ∧
      popMatchQueue mode m.sessions.store = some (some pid, st) ∧
      m.sessions.getByPlayer pid ≠ none := by
  cases advances h with
  | @seat mode formed _ i _ st s _ phase pop session _ =>
    refine ⟨mode, formed, i, st, phase, lt_roomSize_of_notifies h phase ?_, pop, ?_⟩
    · exact List.cons_ne_nil _ _
    · rw [session]
      exact Option.some_ne_none s

/-- **What a step makes of those who have left.** -/
theorem sticks_iff {w w' : Logged σ} {a : MatchOp × List MatchNotify} (ht : Tables w.1.sessions)
    (hstep : Steps w.1 a w'.1) : Sticks w a w' ↔ FiltersLeft w a := by
  obtain ⟨op, out⟩ := a
  constructor
  · rintro h rfl mode formed r i pid st hphase hi hpop hleft
    rcases hs : w.1.sessions.getByPlayer pid with - | s
    · rfl
    · obtain rfl := notifies_of_pop hstep.1 hphase hi hpop hs
      have hmode : w.1.phase.mode = some mode := by rw [hphase]; rfl
      exact absurd rfl ((h rfl mode pid hmode hleft).notifies ⟨pid, r⟩ (List.mem_singleton_self _))
  · rintro h rfl mode pid hmode hleft
    apply untouched_of_advances ht (advances hstep.1)
    rintro r rfl
    obtain ⟨mode', formed, i, st, hphase, hi, hpop, hs⟩ := popped_of_notifies hstep.1
    rw [hphase] at hmode
    obtain rfl := Option.some.inj hmode
    exact hs (h rfl mode' formed r i pid st hphase hi hpop hleft)

/-! ### Runs -/

/-- **When cancelling sticks.**  Along every run, no step of a call of `tryMatch`
touches a player who has left its queue, if and only if none pops an entry of
such a player with a session. -/
theorem cancel_sticks (store : σ) (roomSize : ℤ) {as : List (MatchOp × List MatchNotify)}
    {w : Logged σ} :
    Transition.Run (fun w a w' => Transition.Recorded Steps w a w' ∧ Sticks w a w')
        (init store roomSize, []) as w ↔
      Transition.Run (fun w a w' => Transition.Recorded Steps w a w' ∧ FiltersLeft w a)
        (init store roomSize, []) as w := by
  apply Transition.Run.guard_congr (J := fun w => Tables w.1.sessions) (B := fun _ => True)
  · exact fun w a w' ht hstep => tables_step ht hstep.1
  · exact fun w a w' ht _ hstep => sticks_iff ht hstep.1
  · exact fun _ _ _ _ _ _ _ => trivial
  · exact tables_init store
  · trivial

/-- Ann and bob ask for a match, and ann cancels before the matchmaker comes. -/
def leftWaiting : List MatchOp :=
  [.session (.login 1 "ann" "secret" 11 0), .session (.login 2 "bob" "hidden" 12 5),
    .joinQueue 1 0, .joinQueue 2 0, .leaveQueue 1, .tryMatch 0, .advance]

/-- Ann is put in the room 1 nevertheless, and told so. -/
theorem seated_leftWaiting : ∃ as m m',
    Transition.Run Steps (init ({} : MemoryStore) 2) as m ∧
      Steps m (.advance, [⟨1, 1⟩]) m' ∧ m.phase.mode = some 0 ∧
      Cancelled 0 1 (as.map Prod.fst) ∧ ¬ Untouched m m' [⟨1, 1⟩] 1 := by
  have hrun : ((init ({} : MemoryStore) 2).exec leftWaiting).bind (fun r =>
      r.1.advance.map fun q => (r.1.phase.mode, q.2)) = some (some 0, [⟨1, 1⟩]) := by decide +kernel
  obtain ⟨⟨m, as⟩, hexec, hrest⟩ := Option.bind_eq_some_iff.mp hrun
  obtain ⟨⟨m', out⟩, hadvance, heq⟩ := Option.map_eq_some_iff.mp hrest
  obtain ⟨hmode, rfl⟩ := Prod.mk.injEq .. ▸ heq
  refine ⟨as, m, m', run_of_exec hexec, ⟨hadvance, rfl⟩, hmode, ?_, ?_⟩
  · rw [Transition.map_fst_of_exec hexec]
    exact ⟨leftWaiting.take 4, [.tryMatch 0, .advance], rfl, by decide⟩
  · intro h
    exact h.notifies ⟨1, 1⟩ (List.mem_singleton_self _) rfl

/-- Ann asks for a match and cancels.  A call finds her entry, and too few; she
logs out before bob asks, and the next call passes her over. -/
def leftGone : List MatchOp :=
  [.session (.login 1 "ann" "secret" 11 0), .joinQueue 1 0, .leaveQueue 1, .tryMatch 0, .advance,
    .session (.logout 11), .session (.login 2 "bob" "hidden" 12 5), .joinQueue 2 0, .tryMatch 0,
    .advance, .advance, .advance]

/-- The next pop gives nobody who has a session and has ever called `leaveQueue`. -/
def popsNoneLeft (w : Logged MemoryStore) : Bool :=
  match w.1.phase with
  | .filling mode _ _ _ =>
      match popMatchQueue mode w.1.sessions.store with
      | some (some pid, _) =>
          (w.1.sessions.getByPlayer pid).isNone || decide (.leaveQueue pid ∉ w.2.map Prod.fst)
      | _ => true
  | _ => true

theorem filtersLeft_of_pops {w : Logged MemoryStore} (h : popsNoneLeft w = true)
    (a : MatchOp × List MatchNotify) : FiltersLeft w a := by
  rintro - mode formed r i pid st hphase - hpop ⟨before, later, hops, -⟩
  rw [popsNoneLeft, hphase] at h
  dsimp only at h
  rw [hpop] at h
  dsimp only at h
  rw [hops, Bool.or_eq_true, Option.isNone_iff_eq_none, decide_eq_true_eq] at h
  exact h.resolve_right fun hnot => hnot (List.mem_append_right _ List.mem_cons_self)

theorem cancel_sticks_leftGone : ∃ as w,
    Transition.Run (fun w a w' => Transition.Recorded Steps w a w' ∧ Sticks w a w')
        (init ({} : MemoryStore) 2, []) as w ∧
      as.map Prod.fst = leftGone ∧ as.getLast? = some (.advance, [⟨2, 1⟩]) ∧ HasLeft w 0 1 := by
  have hrun : (Transition.exec (fun (w : Logged MemoryStore) op =>
        if popsNoneLeft w && fresh w.1 op then
          (w.1.step op).map fun r => ((r.1, w.2 ++ [(op, r.2)]), r.2)
        else none) (init {} 2, []) leftGone).map (fun r => (r.2.getLast?, r.1.2.map Prod.fst)) =
      some (some (.advance, [⟨2, 1⟩]), leftGone) := by
    decide +kernel
  obtain ⟨⟨w, as⟩, hexec, heq⟩ := Option.map_eq_some_iff.mp hrun
  obtain ⟨hlast, hops⟩ := Prod.mk.injEq .. ▸ heq
  refine ⟨as, w, (cancel_sticks _ _).mpr ?_, Transition.map_fst_of_exec hexec, hlast, ?_⟩
  · refine (Transition.run_of_exec hexec).mono fun w a w' hstep => ?_
    obtain ⟨hguard, hstep⟩ := Option.ite_none_right_eq_some.mp hstep
    rw [Bool.and_eq_true] at hguard
    obtain ⟨⟨m', out⟩, hm, heq⟩ := Option.map_eq_some_iff.mp hstep
    obtain ⟨rfl, rfl⟩ := Prod.mk.injEq .. ▸ heq
    exact ⟨⟨⟨hm, hguard.2⟩, rfl⟩, filtersLeft_of_pops hguard.1 a⟩
  · rw [HasLeft, hops]
    exact ⟨leftGone.take 2, leftGone.drop 3, rfl, by decide⟩

end MatchManager

end MiniArena
