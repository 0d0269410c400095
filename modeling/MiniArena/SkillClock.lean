/-
MiniArena/SkillClock.lean

The cooldown of a skill in real time.

`cooldowns` counts ticks, 50 milliseconds each, and a tick is never found due
before 50 milliseconds have gone by.  So between two uses of a skill that pass
the check, the ticks due are at least the cooldown apart (`skill_paced`), with
whatever happens to the other rooms of the worker and however late its thread
runs.

The bookkeeping: what is left of the cooldown and the ticks that came to the
room make up the whole cooldown (`Countdown.Paid`), and a tick comes to a room
once.  Nothing is said of a room that is put in place of this one.
-/
import MiniArena.Cooldown
import MiniArena.RunReports

namespace MiniArena

variable {F : Type} [FloatOps F]

open Transition TickEngine

/-- The rooms a tick has yet to come to. -/
def Phase.ahead : Phase F → List RoomId
  | .idle => []
  | .ticking _ left => left
  | .sending _ left _ _ => left
  | .checking _ left _ => left

/-- The operation puts another room in the place of `r`, or none. -/
def PendingOp.Replaces (r : RoomId) : PendingOp F → Prop
  | .addRoom r' _ => r' = r
  | .removeRoom r' => r' = r
  | .markDisconnected _ _ => False

def WorkerEvent.Replaces (r : RoomId) : WorkerEvent F → Prop
  | .addRoom r' _ => r' = r
  | .removeRoom r' => r' = r
  | _ => False

def RunEvent.Replaces (r : RoomId) : RunEvent F → Prop
  | .other event => event.Replaces r
  | _ => False

namespace TickEngine

omit [FloatOps F] in
theorem countP_commands (cmds : List (Command F)) :
    (cmds.map TickStep.command).countP TickStep.isCool = 0 := by
  rw [List.countP_eq_zero]
  intro a ha
  obtain ⟨cmd, -, rfl⟩ := List.mem_map.mp ha
  exact Bool.false_ne_true

omit [FloatOps F] in
/-- A call ends one tick. -/
theorem countP_steps (c : TickCall F) : c.steps.countP TickStep.isCool = 1 := by
  rw [TickCall.steps, List.countP_cons, List.countP_append, countP_commands]
  rfl

end TickEngine

namespace LogicWorker

variable {w w' : LogicWorker F} {r : RoomId} {pid : PlayerId} {skill : SkillDef}

/-! ### One room -/

/-- Nothing is pending that would replace the room. -/
def Settled (r : RoomId) (w : LogicWorker F) : Prop := ∀ op ∈ w.pendingOps, ¬ op.Replaces r

/-- What a step does to the room `r`. -/
inductive Treats (r : RoomId) (w : LogicWorker F) (rs rs' : WorkerRoom F) : WorkerEvent F → Prop
  | other {event : WorkerEvent F}
      (cooldowns : ∀ pid skillId,
        cooldownAt rs'.players pid skillId = cooldownAt rs.players pid skillId)
      (elsewhere : ∀ cmds left, w.phase = .ticking cmds (r :: left) →
        ∀ order, event ≠ .tickRoom order) : Treats r w rs rs' event
  | tick {cmds : List (Command F)} {left : List RoomId} (order : List PlayerId)
      (phase : w.phase = .ticking cmds (r :: left))
      (players : rs'.players = (({ engine := w.tickEngine, cmds := cmds } : TickCall F).steps.foldl
        perform (w.tickEngine, rs.players)).2) : Treats r w rs rs' (.tickRoom order)

omit [FloatOps F] in
theorem cooldownAt_checkDisconnected (rs : WorkerRoom F) (now : ℤ) (pid : PlayerId) (skillId : ℤ) :
    cooldownAt (checkDisconnected rs now).players pid skillId = cooldownAt rs.players pid skillId := by
  rw [cooldownAt, cooldownAt, checkDisconnected, Finmap.lookup_mapVal]
  rcases rs.players.lookup pid with - | p
  · rfl
  · rw [Option.map_some, Option.bind_some, Option.bind_some]
    rcases rs.disconnected.lookup pid with - | since
    · rfl
    · dsimp only
      split <;> rfl

/-- A step replaces the room only where an operation says so. -/
theorem treats_step {rs : WorkerRoom F} {event : WorkerEvent F} {out : WorkerOut F}
    (hsettled : Settled r w) (hrs : w.rooms.lookup r = some rs)
    (hstep : w.step event = some (w', out)) :
    ∃ rs', w'.rooms.lookup r = some rs' ∧ Treats r w rs rs' event := by
  cases step_cases hstep with
  | drainPendingOp now phase =>
    have hquiet : ∀ rs', (∀ pid skillId,
        cooldownAt rs'.players pid skillId = cooldownAt rs.players pid skillId) →
        Treats r w rs rs' (.drainPendingOp now) := by
      intro rs' hsame
      refine .other hsame ?_
      intro cmds left hphase order heq
      cases heq
    rcases hops : w.pendingOps with - | ⟨op, ops⟩
    · refine ⟨rs, ?_, hquiet rs fun _ _ => rfl⟩
      rw [drainPendingOp, hops]
      exact hrs
    · have hop := hsettled op (hops ▸ List.mem_cons_self)
      rw [drainPendingOp, hops]
      cases op with
      | addRoom r' players =>
        refine ⟨rs, ?_, hquiet rs fun _ _ => rfl⟩
        show (w.rooms.insert r' _).lookup r = some rs
        rw [Finmap.lookup_insert_of_ne _ (Ne.symm hop)]
        exact hrs
      | removeRoom r' =>
        refine ⟨rs, ?_, hquiet rs fun _ _ => rfl⟩
        show (w.rooms.erase r').lookup r = some rs
        rw [Finmap.lookup_erase_ne (Ne.symm hop)]
        exact hrs
      | markDisconnected r' pid =>
        by_cases hr : r = r'
        · subst hr
          refine ⟨{ rs with disconnected := rs.disconnected.insert pid now }, ?_,
            hquiet _ fun _ _ => rfl⟩
          show (w.rooms.modify r _).lookup r = _
          rw [Finmap.lookup_modify, if_pos rfl, hrs, Option.map_some]
        · refine ⟨rs, ?_, hquiet rs fun _ _ => rfl⟩
          show (w.rooms.modify r' _).lookup r = _
          rw [Finmap.lookup_modify, if_neg hr, hrs]
  | @tickRoom cmds left r' rs₀ order phase room members =>
    by_cases hr : r = r'
    · subst hr
      obtain rfl := Option.some.inj (hrs.symm.trans room)
      refine ⟨_, Finmap.lookup_insert _, .tick order phase ?_⟩
      exact (ticks_iff (c := { engine := w.tickEngine, cmds := cmds }) w.tickEngine).mp (by
        rw [Ticks, players_processTick, players_processTick])
    · refine ⟨rs, ?_, .other (fun _ _ => rfl) ?_⟩
      · show (w.rooms.insert r' _).lookup r = some rs
        rw [Finmap.lookup_insert_of_ne _ hr]
        exact hrs
      · intro cmds' left' hphase
        rw [phase] at hphase
        obtain ⟨-, heq⟩ := Phase.ticking.inj hphase
        exact absurd (List.cons.inj heq).1.symm hr
  | @checkDisconnected cmds left r' rs₀ now phase room =>
    by_cases hr : r = r'
    · subst hr
      obtain rfl := Option.some.inj (hrs.symm.trans room)
      refine ⟨_, Finmap.lookup_insert _, .other (cooldownAt_checkDisconnected rs now) ?_⟩
      intro cmds' left' hphase order heq
      cases heq
    · refine ⟨rs, ?_, .other (fun _ _ => rfl) ?_⟩
      · show (w.rooms.insert r' _).lookup r = some rs
        rw [Finmap.lookup_insert_of_ne _ hr]
        exact hrs
      · intro cmds' left' hphase order heq
        cases heq
  | _ =>
    refine ⟨rs, hrs, .other (fun _ _ => rfl) ?_⟩
    intro cmds' left' hphase order heq
    cases heq

theorem settled_step {event : WorkerEvent F} {out : WorkerOut F} (hsettled : Settled r w)
    (hevent : ¬ event.Replaces r) (hstep : w.step event = some (w', out)) : Settled r w' := by
  have hsame : w'.pendingOps = w.pendingOps → Settled r w' := fun heq op hop =>
    hsettled op (heq ▸ hop)
  have hpush : ∀ op, w'.pendingOps = w.pendingOps ++ [op] → ¬ op.Replaces r → Settled r w' := by
    intro op heq hop op' hop'
    rcases List.mem_append.mp (heq ▸ hop') with hop' | hop'
    · exact hsettled op' hop'
    · exact List.mem_singleton.mp hop' ▸ hop
  cases step_cases hstep with
  | addRoom r' players => exact hpush _ rfl hevent
  | removeRoom r' => exact hpush _ rfl hevent
  | markDisconnected pid r' => exact hpush _ rfl id
  | drainPendingOp now phase =>
    intro op hop
    rcases hops : w.pendingOps with - | ⟨op', ops⟩
    · rw [drainPendingOp, hops] at hop
      exact hsettled op hop
    · refine hsettled op ?_
      rw [hops]
      refine List.mem_cons_of_mem _ ?_
      rw [drainPendingOp, hops] at hop
      cases op' <;> exact hop
  | _ => exact hsame rfl

/-! ### The rooms ahead -/

omit [FloatOps F] in
theorem ahead_nextRoom (cmds : List (Command F)) (left : List RoomId) :
    (nextRoom cmds left).ahead = left := by
  cases left with
  | nil => rfl
  | cons r left => rfl

/-- A step of a tick does not add to the rooms ahead, and a tick comes to the first of them. -/
theorem ahead_step {event : WorkerEvent F} {out : WorkerOut F}
    (hstep : w.step event = some (w', out)) :
    w'.phase.ahead = w.phase.ahead ∨
    (∃ order, event = .tickBegin order ∧ w.phase = .idle ∧ w'.phase.ahead.Nodup) ∨
    ∃ order cmds r left, event = .tickRoom order ∧ w.phase = .ticking cmds (r :: left) ∧
      w'.phase.ahead = left := by
  cases step_cases hstep with
  | drainPendingOp now phase => exact .inl (congrArg Phase.ahead (phase_drainPendingOp w now))
  | tickBegin order phase once =>
    refine .inr (.inl ⟨order, rfl, phase, ?_⟩)
    show (nextRoom w.cmdQueue order).ahead.Nodup
    rw [ahead_nextRoom, ← Multiset.coe_nodup, once]
    exact w.rooms.keys.nodup
  | tickRoom order phase room members => exact .inr (.inr ⟨order, _, _, _, rfl, phase, rfl⟩)
  | broadcast phase room =>
    refine .inl ?_
    rw [phase]
    rfl
  | checkDisconnected now phase room =>
    refine .inl ?_
    rw [phase]
    exact ahead_nextRoom _ _
  | _ => exact .inl rfl

/-! ### What is left and what has been ticked -/

/-- A tick is coming to the room, and one of its commands is a use that passes the check. -/
def CastsIn (w : LogicWorker F) (r : RoomId) (pid : PlayerId) (skill : SkillDef) : Prop :=
  ∃ cmds left rs pre cmd post, w.phase = .ticking cmds (r :: left) ∧ w.rooms.lookup r = some rs ∧
    cmds = pre ++ cmd :: post ∧ Casts (pre.foldl act (w.tickEngine, rs.players)) cmd pid skill.id

/-- What is left in the room and the `n` ticks that came to it make up a cooldown; `due` ticks
were due in the meantime, and one before. -/
structure Makes (r : RoomId) (pid : PlayerId) (skill : SkillDef) (n due : ℕ) (w : LogicWorker F) :
    Prop where
  settled : Settled r w
  once : w.phase.ahead.Nodup
  paid : ∃ rs, w.rooms.lookup r = some rs ∧
    Countdown.Paid skill.cooldownMs kTickIntervalMs (cooldownAt rs.players pid skill.id) n
  ticks : n ≤ due + 1
  ahead : r ∈ w.phase.ahead → n ≤ due

omit [FloatOps F] in
theorem Makes.mono {n due due' : ℕ} (h : Makes r pid skill n due w) (hle : due ≤ due') :
    Makes r pid skill n due' w :=
  ⟨h.settled, h.once, h.paid, h.ticks.trans (by omega), fun hmem => (h.ahead hmem).trans hle⟩

theorem Makes.step {n due : ℕ} (hskill : skill ∈ kSkills) (h : Makes r pid skill n due w)
    {event : WorkerEvent F} {out : WorkerOut F} (hevent : ¬ event.Replaces r)
    (hbegin : ∀ order, event = .tickBegin order → n ≤ due)
    (hstep : w.step event = some (w', out)) :
    ∃ n', Makes r pid skill n' due w' ∧ ((∀ order, event ≠ .tickRoom order) → n' = n) := by
  obtain ⟨rs, hrs, hpaid⟩ := h.paid
  obtain ⟨rs', hrs', htreats⟩ := treats_step h.settled hrs hstep
  have hsettled := settled_step h.settled hevent hstep
  cases htreats with
  | other cooldowns elsewhere =>
    refine ⟨n, ⟨hsettled, ?_, ⟨rs', hrs', cooldowns pid skill.id ▸ hpaid⟩, h.ticks, ?_⟩,
      fun _ => rfl⟩
    · rcases ahead_step hstep with heq | ⟨-, -, -, hnodup⟩ | ⟨-, cmds, r', left, -, hphase, heq⟩
      · rw [heq]
        exact h.once
      · exact hnodup
      · have honce := h.once
        rw [hphase] at honce
        rw [heq]
        exact honce.of_cons
    · intro hmem
      rcases ahead_step hstep with heq | ⟨order, hev, -, -⟩ | ⟨-, cmds, r', left, -, hphase, heq⟩
      · exact h.ahead (heq ▸ hmem)
      · exact hbegin order hev
      · refine h.ahead ?_
        rw [hphase]
        exact List.mem_cons_of_mem r' (heq ▸ hmem)
  | @tick cmds left order phase players =>
    have hle := h.ahead (by rw [phase]; exact List.mem_cons_self)
    have honce := h.once
    rw [phase] at honce
    obtain ⟨hnot, hnodup⟩ := List.nodup_cons.mp honce
    have hahead : w'.phase.ahead = left := by
      cases step_cases hstep with
      | tickRoom order' phase' room members =>
        rw [phase] at phase'
        obtain ⟨-, heq⟩ := Phase.ticking.inj phase'
        exact (List.cons.inj heq).2.symm
    refine ⟨n + 1, ⟨hsettled, hahead ▸ hnodup, ⟨rs', hrs', ?_⟩, by omega, fun hmem => ?_⟩,
      fun hne => absurd rfl (hne order)⟩
    · have hrun := (counts_cooldown pid hskill).paid_run (s := (w.tickEngine, rs.players)) hpaid
        ({ engine := w.tickEngine, cmds := cmds } : TickCall F).steps
      rw [countP_steps] at hrun
      rw [players]
      exact hrun
    · exact absurd (hahead ▸ hmem) hnot

/-- The tick in which a use passed the check. -/
theorem makes_of_castsIn (hskill : skill ∈ kSkills) (hcast : CastsIn w r pid skill)
    (hsettled : Settled r w) (honce : w.phase.ahead.Nodup) {order : List PlayerId}
    {out : WorkerOut F} (hstep : w.step (.tickRoom order) = some (w', out)) :
    Makes r pid skill 1 0 w' := by
  obtain ⟨cmds, left, rs, pre, cmd, post, hphase, hrs, rfl, hcasts⟩ := hcast
  have hsettled' := settled_step hsettled id hstep
  obtain ⟨rs', hrs', htreats⟩ := treats_step hsettled hrs hstep
  rw [hphase] at honce
  obtain ⟨hnot, hnodup⟩ := List.nodup_cons.mp honce
  cases htreats with
  | other cooldowns elsewhere => exact absurd rfl (elsewhere _ _ hphase order)
  | tick order phase players =>
    rw [hphase] at phase
    obtain ⟨rfl, -⟩ := Phase.ticking.inj phase
    have hahead : w'.phase.ahead = left := by
      cases step_cases hstep with
      | tickRoom order' phase' room members =>
        rw [hphase] at phase'
        obtain ⟨-, heq⟩ := Phase.ticking.inj phase'
        exact (List.cons.inj heq).2.symm
    refine ⟨hsettled', hahead ▸ hnodup, ⟨rs', hrs', ?_⟩, le_rfl, fun hmem =>
      absurd (hahead ▸ hmem) hnot⟩
    -- the use loads the entry, and the end of this tick is the first to lower it
    have hload := cooldownAt_act_of_casts hskill hcasts
    have hpaid : Countdown.Paid skill.cooldownMs kTickIntervalMs (cooldownAt
        (act (pre.foldl act (w.tickEngine, rs.players)) cmd).2 pid skill.id) 0 := by
      rw [hload, Countdown.Paid, Option.getD_some]
      simp
    have hrun := (counts_cooldown pid hskill).paid_run hpaid
      (post.map TickStep.command ++ [TickStep.cool])
    rw [List.countP_append, countP_commands] at hrun
    have hfold : (({ engine := w.tickEngine, cmds := pre ++ cmd :: post } : TickCall F).steps.foldl
        perform (w.tickEngine, rs.players)) = (post.map TickStep.command ++
          [TickStep.cool]).foldl perform (act (pre.foldl act (w.tickEngine, rs.players)) cmd) := by
      rw [TickCall.steps, List.foldl_cons, List.map_append, List.map_cons, List.append_assoc,
        List.foldl_append, perform_commands, List.cons_append, List.foldl_cons]
      rfl
    rw [players, hfold]
    exact hrun

/-- A use that passes the check finds a whole cooldown of ticks due. -/
theorem Makes.of_castsIn {n due : ℕ} (hskill : skill ∈ kSkills) (h : Makes r pid skill n due w)
    (hcast : CastsIn w r pid skill) : skill.cooldownMs ≤ due * kTickIntervalMs := by
  obtain ⟨cmds, left, rs, pre, cmd, post, hphase, hrs, rfl, hcasts⟩ := hcast
  obtain ⟨rs', hrs', hpaid⟩ := h.paid
  obtain rfl := Option.some.inj (hrs.symm.trans hrs')
  have hrun := (counts_cooldown pid hskill).paid_run (s := (w.tickEngine, rs.players)) hpaid
    (pre.map .command)
  rw [countP_commands, perform_commands, Nat.add_zero] at hrun
  have hle := h.ahead (by rw [hphase]; exact List.mem_cons_self)
  calc skill.cooldownMs ≤ n * kTickIntervalMs :=
        (counts_cooldown pid hskill).paid_load (a := .command cmd) hrun hcasts
    _ ≤ due * kTickIntervalMs := by
        rw [kTickIntervalMs]
        omega

end LogicWorker

/-! ### The loop -/

namespace RunLoop

open LogicWorker (Settled CastsIn Makes ready_step)

variable {l l' : RunLoop F} {r : RoomId} {pid : PlayerId} {skill : SkillDef}

/-- `past` leads here from a tick in which a use passed the check. -/
structure Since (r : RoomId) (pid : PlayerId) (skill : SkillDef)
    (past : List (RunEvent F × RunOut F)) (l : RunLoop F) : Prop where
  able : Able l
  makes : ∃ n, Makes r pid skill n (dues past).length l.worker ∧
    ((∃ now t0, l.pc = .ticking now t0 false) → n ≤ (dues past).length)

theorem Since.step (hskill : skill ∈ kSkills) {past : List (RunEvent F × RunOut F)}
    {a : RunEvent F × RunOut F} (h : Since r pid skill past l) (ha : ¬ a.1.Replaces r)
    (hstep : Steps l a l') : Since r pid skill (past ++ [a]) l' := by
  obtain ⟨ev, out⟩ := a
  have hable := h.able.step hstep
  obtain ⟨n, hmakes, hdue⟩ := h.makes
  -- without a tick due
  have hquiet : out.due = none → dues (past ++ [(ev, out)]) = dues past := by
    intro hnone
    rw [dues_concat, hnone, Option.toList_none, List.append_nil]
  have hsame : out.due = none → l'.worker = l.worker → (∀ now t0, l'.pc ≠ .ticking now t0 false) →
      Since r pid skill (past ++ [(ev, out)]) l' := by
    intro hnone hworker hpc
    refine ⟨hable, n, ?_, ?_⟩
    · rw [hquiet hnone, hworker]
      exact hmakes
    · rintro ⟨now, t0, heq⟩
      exact absurd heq (hpc now t0)
  cases step_cases hstep with
  | enter pc => exact hsame rfl rfl (by intro now t0; dsimp only; split <;> exact nofun)
  | drain now pc clock work =>
    have hbegin : ∀ order, (WorkerEvent.drainPendingOp now : WorkerEvent F) = .tickBegin order →
        n ≤ (dues past).length := nofun
    obtain ⟨n', hmakes', -⟩ := hmakes.step hskill id hbegin work
    refine ⟨hable, n', (hquiet rfl).symm ▸ hmakes', ?_⟩
    rintro ⟨now', t0, heq⟩
    exact absurd (pc.symm.trans heq) nofun
  | drained pc empty => exact hsame rfl rfl nofun
  | due now t0 pc clock later due =>
    have hlen : (dues (past ++ [(.time now t0, { due := some now })])).length =
        (dues past).length + 1 := by
      rw [dues_concat, Option.toList_some, List.length_append, List.length_singleton]
    refine ⟨hable, n, ?_, fun _ => ?_⟩
    · rw [hlen]
      exact hmakes.mono (Nat.le_succ _)
    · rw [hlen]
      exact hmakes.ticks
  | early now t0 pc clock early => exact hsame rfl rfl nofun
  | @tick now t0 begun event w out pc mine clock work =>
    have hevent : ¬ event.Replaces r := by
      cases event with
      | addRoom => cases mine
      | removeRoom => cases mine
      | _ => exact id
    obtain ⟨n', hmakes', -⟩ := hmakes.step hskill hevent (by
      rintro order rfl
      rcases begun with - | -
      · exact hdue ⟨now, t0, pc⟩
      · cases mine) work
    refine ⟨hable, n', (hquiet rfl).symm ▸ hmakes', ?_⟩
    rintro ⟨now', t0', heq⟩
    cases heq
  | ticked t1 pc idle clock account =>
    obtain ⟨hworker, hpc, -, -, -, hnone, -⟩ := account_eq_some account
    exact hsame hnone hworker (by rw [hpc]; exact nofun)
  | wake pc => exact hsame rfl rfl nofun
  | stop => exact ⟨hable, n, (hquiet rfl).symm ▸ hmakes, fun hpc => (hquiet rfl).symm ▸ hdue hpc⟩
  | @other event w out theirs work =>
    obtain ⟨n', hmakes', hsame'⟩ := hmakes.step hskill ha (by
      rintro order rfl
      cases theirs) work
    obtain rfl := hsame' (by
      rintro order rfl
      cases theirs)
    exact ⟨hable, n', (hquiet rfl).symm ▸ hmakes', fun hpc => (hquiet rfl).symm ▸ hdue hpc⟩

theorem once_run {w : LogicWorker F} (hidle : w.phase = .idle) {start : ℤ}
    {as : List (RunEvent F × RunOut F)} (h : Run Steps (entered w start) as l) :
    l.worker.phase.ahead.Nodup := by
  have hwork : ∀ {u u' : LogicWorker F} {event : WorkerEvent F} {out : WorkerOut F},
      u.phase.ahead.Nodup → u.step event = some (u', out) → u'.phase.ahead.Nodup := by
    intro u u' event out hu hstep
    rcases LogicWorker.ahead_step hstep with heq | ⟨-, -, -, hnodup⟩ | ⟨-, _, _, _, -, hphase, heq⟩
    · exact heq ▸ hu
    · exact hnodup
    · rw [hphase] at hu
      exact heq ▸ hu.of_cons
  refine h.invariant (I := fun s => s.worker.phase.ahead.Nodup) ?_ ?_
  · rintro s ⟨ev, out⟩ t hs hst
    cases step_cases hst with
    | drain now pc clock work => exact hwork hs work
    | tick pc mine clock work => exact hwork hs work
    | other theirs work => exact hwork hs work
    | ticked t1 pc idle clock account => exact (account_eq_some account).1.symm ▸ hs
    | _ => exact hs
  · show w.phase.ahead.Nodup
    rw [hidle]
    exact List.nodup_nil

/-- **A cooldown takes its time.**  Between two uses of a skill by one player that pass the check,
the ticks were found due at least the cooldown of the skill apart, in real time: however late the
thread of the worker runs, whatever its other rooms do, and whatever becomes of the player.  The
room must not be replaced in between. -/
theorem skill_paced {w : LogicWorker F} (hidle : w.phase = .idle) {start : ℤ}
    {as bs : List (RunEvent F × RunOut F)} {l₁ l₁' l₂ : RunLoop F} {order : List PlayerId}
    {out : RunOut F} (hskill : skill ∈ kSkills) (h : Run Steps (entered w start) as l₁)
    (hcast : CastsIn l₁.worker r pid skill) (hstep : Steps l₁ (.tick (.tickRoom order), out) l₁')
    (hrest : Run Steps l₁' bs l₂) (hcast' : CastsIn l₂.worker r pid skill)
    (hsettled : Settled r l₁.worker) (hkept : ∀ b ∈ bs, ¬ b.1.Replaces r) :
    l₁.mark + skill.cooldownMs * 1000000 ≤ l₂.mark := by
  have hpaced := paced_run h
  have hfirst : Since r pid skill [] l₁' := by
    refine ⟨(able_run hidle h).step hstep, 1, ?_, ?_⟩
    · cases step_cases hstep with
      | tick pc mine clock work =>
        exact LogicWorker.makes_of_castsIn hskill hcast hsettled (once_run hidle h) work
    · cases step_cases hstep with
      | tick pc mine clock work =>
        rintro ⟨now, t0, heq⟩
        cases heq
  have hlast : Since r pid skill bs l₂ := by
    have hrun := hrest.record
      (I := fun past s => (∀ b ∈ past, ¬ b.1.Replaces r) → Since r pid skill past s) ?_
      (fun _ => hfirst)
    · exact hrun hkept
    · intro past s a t hs hst hall
      exact (hs fun b hb => hall b (List.mem_append_left _ hb)).step hskill
        (hall a (List.mem_append_right _ (List.mem_singleton_self a))) hst
  obtain ⟨n, hmakes, -⟩ := hlast.makes
  have hdue := hmakes.of_castsIn hskill hcast'
  -- the ticks due since then are spaced, and come after the first
  have hdues : dues (as ++ (.tick (.tickRoom order), out) :: bs) = dues as ++ dues bs := by
    cases step_cases hstep with
    | tick pc mine clock work => rw [dues, List.filterMap_append]; rfl
  have hall := paced_run (h.append (.cons hstep hrest))
  have hspaced := hall.spaced
  have hbefore := hall.before
  rw [hdues, ← List.cons_append] at hspaced hbefore
  obtain ⟨-, hbs, hacross⟩ := List.pairwise_append.mp hspaced
  have hlen := length_of_spaced hbs (fun t ht => hacross _ hpaced.last t ht)
    (fun t ht => hbefore t (List.mem_append_right _ ht))
    (by have := hbefore _ (List.mem_append_left _ hpaced.last); omega)
  rw [kTickIntervalMs] at hdue
  omega

/-- The first command of the tick is a use that passes the check, read off the state. -/
def castsFirst (w : LogicWorker F) (r : RoomId) (pid : PlayerId) (skillId : ℤ) : Bool :=
  match w.phase with
  | .ticking (cmd :: _) (r' :: _) => decide (r' = r) && (w.rooms.lookup r).any fun rs =>
      decide (cmd.type = .skill ∧ cmd.playerId = pid ∧ cmd.skillId = skillId) &&
        executes ⟨w.tickEngine, rs.players, []⟩ cmd &&
        (rs.players.lookup pid).all fun p => !onCooldown p skillId
  | _ => false

theorem castsIn_of_castsFirst {w : LogicWorker F} (hskill : skill ∈ kSkills)
    (h : castsFirst w r pid skill.id = true) : CastsIn w r pid skill := by
  unfold castsFirst at h
  split at h
  · rename_i cmd cmds r' left hphase
    simp only [Bool.and_eq_true, decide_eq_true_eq, Option.any_eq_true] at h
    obtain ⟨rfl, rs, hrs, ⟨huses, hexec⟩, hready⟩ := h
    refine ⟨cmd :: cmds, left, rs, [], cmd, cmds, hphase, hrs, rfl, huses, hexec, ⟨skill, hskill, rfl⟩, ?_⟩
    intro p hp
    have hp' : rs.players.lookup pid = some p := hp
    rw [hp', Option.all_some, Bool.not_eq_true'] at hready
    exact hready
  · cases h

/-- A turn of the loop with a tick of one room. -/
def roomTurn (now : ℤ) : List (RunEvent ℚ) :=
  [.enter, .drained, .time now now, .tick (.tickBegin [1]), .tick (.tickRoom [1]),
    .tick .broadcast, .tick (.checkDisconnected now), .ticked now]

theorem not_replaces_roomTurn (now : ℤ) : ∀ e ∈ roomTurn now, ¬ e.Replaces 1 := by
  intro e he
  simp only [roomTurn, List.mem_cons, List.not_mem_nil, or_false] at he
  rcases he with rfl | rfl | rfl | rfl | rfl | rfl | rfl | rfl <;> exact id

/-- The player uses its first skill at 50 ms and again at 3050 ms. -/
theorem skill_paced_roomTurn : ∃ (l₁ l₂ : RunLoop ℚ), l₁.mark = 50000000 ∧
    l₂.mark = 3050000000 ∧ l₁.mark + 3000 * 1000000 ≤ l₂.mark := by
  have hexec : ((exec RunLoop.step (entered {} 0) ([.other (.addRoom 1 soloPlayer),
      .other (.pushCommand ⟨.skill, 1, 1, 0, 0, 0, 1⟩), .enter, .drain 0] ++
        ((roomTurn 50000000).drop 1).take 3)).bind fun p =>
      (RunLoop.step p.1 (.tick (.tickRoom [1]))).bind fun q =>
      (exec RunLoop.step q.1 ((roomTurn 50000000).drop 5 ++ (List.range 59).flatMap (fun k : ℕ =>
        roomTurn (50000000 * (k + 2))) ++ .other (.pushCommand ⟨.skill, 1, 2, 0, 0, 0, 1⟩) ::
          (roomTurn 3050000000).take 4)).map fun t =>
        (castsFirst p.1.worker 1 1 1, castsFirst t.1.worker 1 1 1, p.1.worker.pendingOps.length,
          p.1.mark, t.1.mark))
      = some (true, true, 0, 50000000, 3050000000) := by
    decide +kernel
  obtain ⟨⟨l₁, as⟩, hfirst, hrest⟩ := Option.bind_eq_some_iff.mp hexec
  obtain ⟨⟨l₁', out⟩, hstep, hrest⟩ := Option.bind_eq_some_iff.mp hrest
  obtain ⟨⟨l₂, bs⟩, hlast, heq⟩ := Option.map_eq_some_iff.mp hrest
  simp only [Prod.mk.injEq, List.length_eq_zero_iff] at heq
  obtain ⟨hcast, hcast', hops, hmark, hmark'⟩ := heq
  have hskill : (⟨1, 3000, 3 / 2, 50, false, 0⟩ : SkillDef) ∈ kSkills := List.mem_cons_self
  have hkept : ∀ b ∈ bs, ¬ b.1.Replaces 1 := by
    intro b hb
    have he := List.mem_map_of_mem (f := Prod.fst) hb
    rw [map_fst_of_exec hlast] at he
    rcases List.mem_append.mp he with he | he
    · rcases List.mem_append.mp he with he | he
      · exact not_replaces_roomTurn _ _ (List.mem_of_mem_drop he)
      · obtain ⟨k, -, hk⟩ := List.mem_flatMap.mp he
        exact not_replaces_roomTurn _ _ hk
    · rcases List.mem_cons.mp he with he | he
      · rw [he]
        exact id
      · exact not_replaces_roomTurn _ _ (List.mem_of_mem_take he)
  refine ⟨l₁, l₂, hmark, hmark', skill_paced (w := {}) rfl hskill (run_of_exec hfirst)
    (castsIn_of_castsFirst hskill hcast) hstep (run_of_exec hlast)
    (castsIn_of_castsFirst hskill hcast') ?_ hkept⟩
  intro op hop
  rw [hops] at hop
  cases hop

end RunLoop

end MiniArena
