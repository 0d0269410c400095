/-
MiniArena/MatchFifo.lean

First come, first served, on the running server.

A player enters a match queue when its 2001 is handled, and leaves it when
the timer thread pops its entry.  Between the two the entry is text in Redis,
and messages, logins and battles go on.  `Observes` puts beside every step who
entered a queue by it and who was taken, and the run theorem says that those
taken are those who entered, in that order, and the rest still waits.
-/
import MiniArena.ServerStore

namespace MiniArena

variable {F : Type} [FloatOps F] {σ : Type} [Storage σ]

open RedisClient

namespace GameServer

variable {pb : Protobuf F} {g g' : GameServer σ F} {out : ServerOut F} {R : RedisView σ}

/-- The entry of the queue 0 a step of the matchmaker pops. -/
def pops (g : GameServer σ F) : ServerEvent F → List PlayerId
  | .tryMatch =>
      match g.timer with
      | .filling _ _ i =>
          if (i : ℤ) < g.roomSize then
            match popMatchQueue 0 g.sessions.store with
            | some (some pid, _) => [pid]
            | _ => []
          else []
      | _ => []
  | _ => []

/-- A step, with what passes through the match queues. -/
structure Observed (F : Type) where
  step : ServerEvent F × ServerOut F
  asked : Option (PlayerId × ℤ)
  popped : List PlayerId

variable (pb) in
def Observes (g : GameServer σ F) (o : Observed F) (g' : GameServer σ F) : Prop :=
  Steps pb g o.step g' ∧ o.asked = asks pb g o.step.1 ∧ o.popped = pops g o.step.1

/-- Who enters the queue of a mode. -/
def Observed.entered (mode : ℤ) (o : Observed F) : List PlayerId := entries mode o.asked

/-- Only the queue 0 is ever looked at. -/
def Observed.taken (mode : ℤ) (o : Observed F) : List PlayerId := if mode = 0 then o.popped else []

/-- Every run can be observed. -/
theorem exists_observed {as : List (ServerEvent F × ServerOut F)}
    (h : Transition.Run (Steps pb) g as g') :
    ∃ os : List (Observed F), os.map Observed.step = as ∧
      Transition.Run (Observes pb) g os g' := by
  induction h with
  | nil => exact ⟨[], rfl, .nil⟩
  | @cons g a _ as _ hstep _ ih =>
    obtain ⟨os, hos, hrun⟩ := ih
    refine ⟨⟨a, asks pb g a.1, pops g a.1⟩ :: os, ?_, .cons ⟨hstep, rfl, rfl⟩ hrun⟩
    rw [List.map_cons, hos]

/-! ### One step -/

section Pop

variable {st st' : σ} {mode : ℤ} {q : List PlayerId}

omit [Storage σ] in
theorem text_concat {pid : PlayerId} (q : List PlayerId) :
    ((pid :: q).map toStringU64).reverse = (q.map toStringU64).reverse ++ [toStringU64 pid] := by
  rw [List.map_cons, List.reverse_cons]

/-- What `BRPOP` answers is the oldest entry, and it reads back as the player. -/
theorem queue_pop {popped : Option PlayerId} (hq : R.Queue st 0 q)
    (hpop : popMatchQueue 0 st = some (popped, st')) :
    (∃ rest, q = popped.toList ++ rest ∧ R.Queue st' 0 rest) ∧
      ∀ mode, mode ≠ 0 → R.lists st' (matchQueueKey mode) = R.lists st (matchQueueKey mode) := by
  obtain ⟨⟨text, st₁⟩, hbrpop, hrest⟩ := Option.bind_eq_some_iff.mp hpop
  cases text with
  | none =>
    obtain ⟨rfl, rfl⟩ := Prod.mk.injEq .. ▸ Option.some.inj hrest
    obtain ⟨-, hlists⟩ := R.brpop_none _ _ _ _ hbrpop
    refine ⟨⟨q, rfl, ?_⟩, fun mode _ => by rw [hlists]⟩
    rw [RedisView.Queue, hlists]
    exact hq
  | some text =>
    obtain ⟨pid, hread, heq⟩ := Option.map_eq_some_iff.mp hrest
    obtain ⟨rfl, rfl⟩ := Prod.mk.injEq .. ▸ heq
    obtain ⟨-, left, hleft, hlists⟩ := R.brpop _ _ _ _ _ hbrpop
    refine ⟨?_, fun mode hmode => ?_⟩
    · cases q with
      | nil =>
        have hlen := congrArg List.length (hq.symm.trans hleft)
        rw [List.length_append, List.length_singleton] at hlen
        cases hlen
      | cons first q =>
        obtain ⟨rfl, htext⟩ := List.append_inj' ((text_concat q).symm.trans (hq.symm.trans hleft)) rfl
        obtain rfl := List.singleton_inj.mp htext
        obtain rfl := Option.some.inj ((stoull_toStringU64 first).symm.trans hread)
        refine ⟨q, rfl, ?_⟩
        rw [RedisView.Queue, hlists, Function.update_self]
    · rw [hlists, Function.update_of_ne]
      exact fun heq => hmode (matchQueueKey_inj.mp heq)

end Pop

omit [FloatOps F] in
/-- A step of the matchmaker. -/
theorem queue_tryMatch {q : ℤ → List PlayerId} (hq : ∀ mode, R.Queue g.sessions.store mode (q mode))
    (hstep : g.tryMatch = some (g', out)) (mode : ℤ) :
    ∃ rest, q mode = (if mode = 0 then pops g .tryMatch else []) ++ rest ∧
      R.Queue g'.sessions.store mode rest := by
  have hquiet : ∀ st, R.SameQueues g.sessions.store st → pops g .tryMatch = [] →
      g'.sessions.store = st → ∃ rest, q mode = (if mode = 0 then pops g .tryMatch else []) ++ rest ∧
        R.Queue g'.sessions.store mode rest := by
    rintro st hsame hnone rfl
    refine ⟨q mode, ?_, (hq mode).of_same hsame⟩
    rw [hnone, ite_self, List.nil_append]
  unfold tryMatch at hstep
  split at hstep
  · rename_i formed hphase
    obtain ⟨rfl, -⟩ := Prod.mk.injEq .. ▸ Option.some.inj hstep
    refine hquiet (matchQueueSize 0 g.sessions.store).2 RedisView.sameQueues_matchQueueSize ?_ ?_
    · rw [pops, hphase]
    · unfold checkQueue
      dsimp only
      split
      · rfl
      · rfl
  · rename_i formed r i hphase
    unfold fillRoom at hstep
    split at hstep
    · rename_i hi
      obtain ⟨⟨popped, st⟩, hpop, hrest⟩ := Option.bind_eq_some_iff.mp hstep
      obtain ⟨⟨rest, hsplit, hqueue⟩, hother⟩ := queue_pop (hq 0) hpop
      have hpops : pops g .tryMatch = popped.toList := by
        rw [pops, hphase]
        dsimp only
        rw [if_pos hi, hpop]
        cases popped <;> rfl
      -- what is left to the step only saves sessions
      have hsame : R.SameQueues st g'.sessions.store := by
        cases popped with
        | none =>
          obtain ⟨rfl, -⟩ := Prod.mk.injEq .. ▸ Option.some.inj hrest
          exact fun _ => rfl
        | some pid =>
          dsimp only at hrest
          split at hrest
          · obtain ⟨rfl, -⟩ := Prod.mk.injEq .. ▸ Option.some.inj hrest
            exact fun _ => rfl
          · obtain ⟨room, -, heq⟩ := Option.map_eq_some_iff.mp hrest
            obtain ⟨rfl, -⟩ := Prod.mk.injEq .. ▸ heq
            exact RedisView.sameQueues_commands.trans
              (RedisView.sameQueues_commands.setState { g.sessions with store := st } _ _)
              (RedisView.sameQueues_commands.setCurrentRoom _ _ _)
      rw [hpops]
      by_cases hmode : mode = 0
      · subst hmode
        exact ⟨rest, hsplit, hqueue.of_same hsame⟩
      · refine ⟨q mode, by rw [if_neg hmode, List.nil_append], ?_⟩
        rw [RedisView.Queue, hsame mode, hother mode hmode]
        exact hq mode
    · rename_i hi
      obtain ⟨rfl, -⟩ := Prod.mk.injEq .. ▸ Option.some.inj hstep
      refine hquiet _ (fun _ => rfl) ?_ rfl
      rw [pops, hphase]
      exact if_neg hi
  · cases hstep

/-- **One step.**  Who enters goes to the end, who is taken was in front. -/
theorem queue_step {q : ℤ → List PlayerId} (hq : ∀ mode, R.Queue g.sessions.store mode (q mode))
    {o : Observed F} (hstep : Observes pb g o g') (mode : ℤ) :
    ∃ rest, q mode ++ o.entered mode = o.taken mode ++ rest ∧
      R.Queue g'.sessions.store mode rest := by
  obtain ⟨⟨hrun, -⟩, hasked, hpopped⟩ := hstep
  rw [Observed.entered, Observed.taken, hasked, hpopped]
  by_cases hmatch : o.step.1 = .tryMatch
  · rw [hmatch] at hrun ⊢
    obtain ⟨rest, hsplit, hrest⟩ := queue_tryMatch hq hrun mode
    refine ⟨rest, ?_, hrest⟩
    rw [← hsplit]
    exact List.append_nil _
  · have hsame := store_step (RedisView.sameQueues_commands (R := R)) hrun hmatch
    have hnone : pops g o.step.1 = [] := by
      cases hev : o.step.1 with
      | tryMatch => exact absurd hev hmatch
      | _ => rfl
    refine ⟨_, ?_, queue_pushed (hq mode) _ hsame⟩
    rw [hnone, ite_self, List.nil_append]

/-! ### Whole runs -/

/-- **First come, first served.**  In every run of the server, over a Redis
that keeps its lists, those taken from a match queue are those who were in it
and those who entered it, in that order, and the others still wait there.
From the queue of a mode other than 0 nobody is ever taken. -/
theorem queue_fifo {store : σ} {roomSize : ℤ} {q : ℤ → List PlayerId}
    (hq : ∀ mode, R.Queue store mode (q mode)) {os : List (Observed F)}
    (h : Transition.Run (Observes pb) (init store roomSize) os g) (mode : ℤ) :
    ∃ waiting, R.Queue g.sessions.store mode waiting ∧
      q mode ++ (os.map (Observed.entered mode)).flatten =
        (os.map (Observed.taken mode)).flatten ++ waiting := by
  have hrun : ∀ {g g' : GameServer σ F} {os : List (Observed F)} {q : ℤ → List PlayerId},
      (∀ mode, R.Queue g.sessions.store mode (q mode)) → Transition.Run (Observes pb) g os g' →
      ∀ mode, ∃ waiting, R.Queue g'.sessions.store mode waiting ∧
        q mode ++ (os.map (Observed.entered mode)).flatten =
          (os.map (Observed.taken mode)).flatten ++ waiting := by
    intro g g' os q hq h
    induction h generalizing q with
    | nil =>
      intro mode
      refine ⟨q mode, hq mode, ?_⟩
      simp
    | @cons g o g₁ os g' hstep _ ih =>
      intro mode
      choose rest hsplit hrest using fun mode => queue_step hq hstep mode
      obtain ⟨waiting, hwaiting, heq⟩ := ih hrest mode
      refine ⟨waiting, hwaiting, ?_⟩
      rw [List.map_cons, List.map_cons, List.flatten_cons, List.flatten_cons, ← List.append_assoc,
        hsplit, List.append_assoc, heq, List.append_assoc]
  exact hrun hq h mode

/-- In `soloBattle` player 1 enters the queue and is taken. -/
theorem queue_fifo_soloBattle : ∃ (g : GameServer MemoryStore ℚ) (os : List (Observed ℚ))
    (waiting : List PlayerId), os.map (fun o => o.step.1) = soloBattle ∧
      MemoryStore.redisView.Queue g.sessions.store 0 waiting ∧
      [] ++ (os.map (Observed.entered 0)).flatten =
        (os.map (Observed.taken 0)).flatten ++ waiting := by
  have hrun : (exec annRequests (init ({} : MemoryStore) 1) soloBattle).isSome = true := by
    decide +kernel
  obtain ⟨⟨g, as⟩, hexec⟩ := Option.isSome_iff_exists.mp hrun
  obtain ⟨os, hos, hobs⟩ := exists_observed (run_of_exec hexec)
  have hempty : ∀ mode, MemoryStore.redisView.Queue ({} : MemoryStore) mode [] := fun _ => rfl
  obtain ⟨waiting, hwaiting, heq⟩ := queue_fifo hempty hobs 0
  refine ⟨g, os, waiting, ?_, hwaiting, heq⟩
  have hevents := Transition.map_fst_of_exec hexec
  rwa [← hos, List.map_map] at hevents

end GameServer

end MiniArena
