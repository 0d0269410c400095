/-
MiniArena/Fleet.lean

The pressure test (`robot/controller.go`): `Controller.Run` starts a robot
after another, each in a goroutine of its own, and all of them update the
same atomic counters, which `PrintReport` prints.

A step is one update of a counter, or one step of a robot, in any order.
What a goroutine has added to a counter can be read off where it is
(`Goroutine.tally`), so at any moment a counter is the sum over the
goroutines (`Tallied`).  What the report says of the test follows from what
one goroutine can have added (`fleet_report`).

`MovesSent`, `AttacksSent` and `SkillsSent` are not among them: a robot adds
to these for ever.
-/
import MiniArena.Bot

namespace MiniArena

open Transition

namespace Robot

/-- Where a goroutine is behind `bot.Run`, among the deferred calls. -/
inductive Stage
  | running
  | failed    -- before liveCount.Add(-1)
  | offLive   -- before Disconnected.Add(1)
  | counted   -- before wg.Done()
  | done
  deriving DecidableEq, Repr

structure Goroutine where
  bot : Bot
  stage : Stage := .running
  deriving DecidableEq, Repr

/-- Where `Controller.Run` is. -/
inductive MainPc
  | launching
  | connected  -- before liveCount.Add(1)
  | live       -- before go
  | waiting
  | reporting
  deriving DecidableEq, Repr

structure Controller where
  botCount : ℤ
  commandRate : ℤ
  pc : MainPc := .launching
  bots : List Goroutine := []
  stats : Counter → ℤ := fun _ => 0
  liveCount : ℤ := 0

inductive FleetEvent
  /-- The next step of the loop that starts the robots. -/
  | main
  /-- One step of the `i`-th robot. -/
  | bot (i : ℕ) (event : BotEvent)
  /-- The next call behind its `Run`. -/
  | leave (i : ℕ)
  /-- `wg.Wait()` has returned. -/
  | allDone
  /-- `timer.C` -/
  | timeout

namespace Controller

/-- `Add(1)` -/
def add (s : Controller) (counter : Counter) : Controller :=
  { s with stats := Function.update s.stats counter (s.stats counter + 1) }

/-- The body of the loop, and its end. -/
def launch (s : Controller) : Option Controller :=
  match s.pc with
  | .launching =>
      if (s.bots.length : ℤ) < s.botCount then some { s.add .connected with pc := .connected }
      else some { s with pc := .waiting }
  | .connected => some { s with liveCount := s.liveCount + 1, pc := .live }
  | .live =>
      let bot : Bot := { id := s.bots.length + 1, cmdRate := s.commandRate }
      some { s with bots := s.bots ++ [{ bot := bot }], pc := .launching }
  | _ => none

/-- Behind `bot.Run`: the error, then the deferred calls. -/
def leave (s : Controller) (i : ℕ) : Option Controller :=
  s.bots[i]?.bind fun g =>
    match g.stage, g.bot.pc with
    | .running, .returned why =>
        let s' := { s with bots := s.bots.set i { g with stage := .failed } }
        some (if why.isError then s'.add .errors else s')
    | .failed, _ => some { s with
        bots := s.bots.set i { g with stage := .offLive }
        liveCount := s.liveCount - 1 }
    | .offLive, _ =>
        let s' := { s with bots := s.bots.set i { g with stage := .counted } }
        some (s'.add .disconnected)
    | .counted, _ => some { s with bots := s.bots.set i { g with stage := .done } }
    | _, _ => none

/-- One step, and what the robot shows whose step it is. -/
def step (s : Controller) : FleetEvent → Option (Controller × BotOut)
  | .main => s.launch.map fun s' => (s', {})
  | .bot i event =>
      s.bots[i]?.bind fun g =>
        (g.bot.step event).map fun (b, out) =>
          let s' := { s with bots := s.bots.set i { g with bot := b } }
          (out.counts.elim s' s'.add, out)
  | .leave i => (s.leave i).map fun s' => (s', {})
  | .allDone =>
      if s.pc = .waiting ∧ ∀ g ∈ s.bots, g.stage = .done then
        some ({ s with pc := .reporting }, {})
      else none
  | .timeout => if s.pc = .waiting then some ({ s with pc := .reporting }, {}) else none

/-- The step relation; a label is an event with what it shows. -/
def Steps (s : Controller) (a : FleetEvent × BotOut) (s' : Controller) : Prop :=
  s.step a.1 = some (s', a.2)

end Controller

/-! ### What a goroutine has added -/

/-- The counters of the battle. -/
def Counter.ofCommand : Counter → Bool
  | .movesSent | .attacksSent | .skillsSent => true
  | _ => false

/-- The error `Run` has returned, if it has returned one. -/
def Goroutine.hasFailed (g : Goroutine) : Bool :=
  match g.bot.pc with
  | .returned why => why.isError
  | _ => false

/-- `Errors.Add(1)` is behind it, or there was no error. -/
def Stage.over : Stage → ℤ
  | .running => 0
  | _ => 1

def Stage.live : Stage → ℤ
  | .running | .failed => 1
  | _ => 0

def Stage.gone : Stage → ℤ
  | .counted | .done => 1
  | _ => 0

/-- What the goroutine has added to a counter, together with the loop that has started it. -/
def Goroutine.tally (g : Goroutine) : Counter → ℤ
  | .connected => 1
  | .disconnected => g.stage.gone
  | .errors => if g.hasFailed then g.stage.over else 0
  | c => (g.bot.pc.counted.count c : ℤ)

theorem Goroutine.tally_start {bot : Bot} (hpc : bot.pc = .dial) (c : Counter) :
    ({ bot := bot } : Goroutine).tally c = if c = .connected then 1 else 0 := by
  cases c with
  | connected => rfl
  | disconnected => rfl
  | errors => exact ite_self 0
  | _ =>
    show (bot.pc.counted.count _ : ℤ) = 0
    rw [hpc]
    rfl

/-- On the way out only two of the counters change. -/
theorem Goroutine.tally_stage (g : Goroutine) (stage : Stage) (c : Counter) :
    ({ g with stage := stage } : Goroutine).tally c - g.tally c =
      (if c = .disconnected then stage.gone - g.stage.gone else 0) +
        if c = .errors then (if g.hasFailed then stage.over - g.stage.over else 0) else 0 := by
  cases c with
  | disconnected => exact (add_zero _).symm
  | errors =>
    show (if g.hasFailed then stage.over else 0) - (if g.hasFailed then g.stage.over else 0) =
      0 + if g.hasFailed then stage.over - g.stage.over else 0
    split
    · exact (zero_add _).symm
    · rfl
  | _ => exact (sub_self _).trans rfl

/-- Of the counters of `GlobalStats` a robot updates none. -/
theorem BotPc.count_global (pc : BotPc) {c : Counter}
    (hc : c = .connected ∨ c = .disconnected ∨ c = .errors) : pc.counted.count c = 0 := by
  rcases hc with rfl | rfl | rfl
  all_goals
    cases pc with
    | returned why => cases why <;> rfl
    | _ => rfl

/-- What one step of a robot adds. -/
structure Bot.Adds (b b' : Bot) (out : BotOut) : Prop where
  running : ∀ why, b.pc ≠ .returned why
  same : b'.id = b.id ∧ b'.cmdRate = b.cmdRate
  fits : b.pc.Fits b.cmdRate → b'.pc.Fits b.cmdRate
  counts : ∀ c, c.ofCommand = false → b'.pc.counted.count c =
    b.pc.counted.count c + if out.counts = some c then 1 else 0

theorem BotCommand.ofCommand_counter (cmd : BotCommand) : cmd.counter.ofCommand = true := by
  cases cmd <;> rfl

theorem Bot.adds_step {b b' : Bot} (hid : b.id < 2 ^ 63) {ev : BotEvent} {out : BotOut}
    (h : b.step ev = some (b', out)) : b.Adds b' out := by
  have hquiet : ∀ {pc pc' : BotPc} {n : ℕ}, pc.Leads b.cmdRate n [] pc' → ∀ c : Counter,
      pc'.counted.count c =
        pc.counted.count c + if (none : Option Counter) = some c then 1 else 0 := by
    intro pc pc' n hleads c
    rw [hleads.counted, List.append_nil]
    rfl
  cases step_cases hid h with
  | dial ok leads =>
    exact ⟨leads.running, ⟨rfl, rfl⟩, leads.fits, fun c _ => hquiet leads c⟩
  | call ok line leads encodes =>
    exact ⟨leads.running, ⟨rfl, rfl⟩, leads.fits, fun c _ => hquiet leads c⟩
  | answer waits leads same reads =>
    exact ⟨leads.running, ⟨same.1, same.2.1⟩, leads.fits, fun c _ => hquiet leads c⟩
  | discard running waits other reads =>
    exact ⟨running, ⟨rfl, rfl⟩, fun h => h, fun c _ => rfl⟩
  | fails leads reads =>
    exact ⟨leads.running, ⟨rfl, rfl⟩, leads.fits, fun c _ => hquiet leads c⟩
  | @count pc counter leads =>
    refine ⟨leads.running, ⟨rfl, rfl⟩, leads.fits, fun c _ => ?_⟩
    show pc.counted.count c = _
    rw [leads.counted, List.count_append, List.count_singleton]
    simp
  | command here encodes =>
    refine ⟨?_, ⟨rfl, rfl⟩, ?_, ?_⟩
    · rw [here]
      exact nofun
    · rw [here]
      exact fun h => ⟨fun hrate => absurd (h.1 hrate) nofun, fun _ => nofun⟩
    · intro c _
      rw [here]
      rfl
  | @commanded cmd here =>
    refine ⟨?_, ⟨rfl, rfl⟩, ?_, ?_⟩
    · rw [here]
      exact nofun
    · rw [here]
      exact fun h => ⟨fun hrate => absurd (h.1 hrate) nofun, fun _ => nofun⟩
    · intro c hc
      have hne : ¬ some cmd.counter = some c := by
        intro heq
        rw [← Option.some.inj heq, cmd.ofCommand_counter] at hc
        cases hc
      show BotPc.battle.counted.count c =
        b.pc.counted.count c + if some cmd.counter = some c then 1 else 0
      rw [if_neg hne, here]
      rfl

/-- A step of one goroutine changes its own summand. -/
theorem sum_map_set {l : List Goroutine} {i : ℕ} {g : Goroutine} (h : l[i]? = some g)
    (g' : Goroutine) (f : Goroutine → ℤ) :
    ((l.set i g').map f).sum = (l.map f).sum + (f g' - f g) := by
  obtain ⟨hlt, rfl⟩ := List.getElem?_eq_some_iff.mp h
  have hlt' : i < (l.map f).length := by rwa [List.length_map]
  rw [List.map_set, List.sum_set', dif_pos hlt', List.getElem_map]
  ring

namespace Controller

variable {s s' : Controller}

/-- The loop has counted a robot that it has not started yet. -/
def ahead (pc : MainPc) (c : Counter) : ℤ :=
  if c = .connected ∧ (pc = .connected ∨ pc = .live) then 1 else 0

/-- **The counters are the sums of what the goroutines have added.** -/
structure Tallied (s : Controller) : Prop where
  stats : ∀ c, c.ofCommand = false →
    s.stats c = (s.bots.map fun g => g.tally c).sum + ahead s.pc c
  live : s.liveCount = (s.bots.map fun g => g.stage.live).sum + if s.pc = .live then 1 else 0
  robots : ∀ i g, s.bots[i]? = some g → g.bot.id = i + 1 ∧ g.bot.cmdRate = s.commandRate ∧
    g.bot.pc.Fits s.commandRate ∧ (g.stage ≠ .running → ∃ why, g.bot.pc = .returned why)
  fewer : (s.bots.length : ℤ) ≤ max 0 s.botCount
  more : s.pc = .connected ∨ s.pc = .live → (s.bots.length : ℤ) < s.botCount
  all : s.pc = .waiting ∨ s.pc = .reporting → s.botCount ≤ s.bots.length

/-- One goroutine goes on, and the counters with it. -/
theorem Tallied.set (h : Tallied s) {i : ℕ} {g g' : Goroutine} (hg : s.bots[i]? = some g)
    {stats : Counter → ℤ} {liveCount : ℤ}
    (hstats : ∀ c, c.ofCommand = false → stats c = s.stats c + (g'.tally c - g.tally c))
    (hlive : liveCount = s.liveCount + (g'.stage.live - g.stage.live))
    (hsame : g'.bot.id = g.bot.id ∧ g'.bot.cmdRate = g.bot.cmdRate)
    (hfits : g.bot.pc.Fits g.bot.cmdRate → g'.bot.pc.Fits g.bot.cmdRate)
    (hreturned : g'.stage ≠ .running → ∃ why, g'.bot.pc = .returned why) :
    Tallied { s with bots := s.bots.set i g', stats := stats, liveCount := liveCount } := by
  refine ⟨?_, ?_, ?_, ?_, ?_, ?_⟩
  · intro c hc
    show stats c = ((s.bots.set i g').map fun g => g.tally c).sum + ahead s.pc c
    rw [hstats c hc, h.stats c hc, sum_map_set hg g' fun g => g.tally c]
    ring
  · show liveCount =
      ((s.bots.set i g').map fun g => g.stage.live).sum + if s.pc = .live then 1 else 0
    rw [hlive, h.live, sum_map_set hg g' fun g => g.stage.live]
    ring
  · intro j k hk
    dsimp only at hk
    rw [List.getElem?_set] at hk
    split at hk
    · rename_i hij
      subst hij
      split at hk
      · obtain rfl := Option.some.inj hk
        obtain ⟨hid, hrate, hfit, -⟩ := h.robots i g hg
        refine ⟨hsame.1.trans hid, hsame.2.trans hrate, ?_, hreturned⟩
        rw [hrate] at hfits
        exact hfits hfit
      · cases hk
    · exact h.robots j k hk
  · show ((s.bots.set i g').length : ℤ) ≤ _
    rw [List.length_set]
    exact h.fewer
  · show _ → ((s.bots.set i g').length : ℤ) < _
    rw [List.length_set]
    exact h.more
  · show _ → _ ≤ ((s.bots.set i g').length : ℤ)
    rw [List.length_set]
    exact h.all

theorem stats_add (s : Controller) (counter c : Counter) :
    (s.add counter).stats c = s.stats c + if c = counter then 1 else 0 := by
  show Function.update s.stats counter (s.stats counter + 1) c = _
  rw [Function.update_apply]
  split
  · rename_i heq
    rw [heq]
  · rw [add_zero]

/-- The loop starts a robot, in three steps. -/
theorem Tallied.launch (h : Tallied s) (hstep : s.launch = some s') : Tallied s' := by
  unfold Controller.launch at hstep
  split at hstep
  next hpc =>
    split at hstep
    next hmore =>
      obtain rfl := Option.some.inj hstep
      refine ⟨?_, ?_, h.robots, h.fewer, fun _ => hmore, ?_⟩
      · intro c hc
        show (s.add .connected).stats c = (s.bots.map fun g => g.tally c).sum + ahead .connected c
        rw [stats_add, h.stats c hc, hpc, ahead, ahead]
        simp
      · show s.liveCount = _
        rw [h.live, hpc]
        rfl
      · rintro (hpc' | hpc') <;> cases hpc'
    next hmore =>
      obtain rfl := Option.some.inj hstep
      refine ⟨?_, ?_, h.robots, h.fewer, ?_, fun _ => not_lt.mp hmore⟩
      · intro c hc
        show s.stats c = (s.bots.map fun g => g.tally c).sum + ahead .waiting c
        rw [h.stats c hc, hpc, ahead, ahead]
        simp
      · show s.liveCount = _
        rw [h.live, hpc]
        rfl
      · rintro (hpc' | hpc') <;> cases hpc'
  next hpc =>
    obtain rfl := Option.some.inj hstep
    refine ⟨?_, ?_, h.robots, h.fewer, fun _ => h.more (.inl hpc), ?_⟩
    · intro c hc
      show s.stats c = (s.bots.map fun g => g.tally c).sum + ahead .live c
      rw [h.stats c hc, hpc, ahead, ahead]
      simp
    · show s.liveCount + 1 = _
      rw [h.live, hpc]
      simp
    · rintro (hpc' | hpc') <;> cases hpc'
  next hpc =>
    obtain rfl := Option.some.inj hstep
    have hlt := h.more (.inr hpc)
    refine ⟨?_, ?_, ?_, ?_, ?_, ?_⟩
    · intro c hc
      show s.stats c = ((s.bots ++ [_]).map fun g : Goroutine => g.tally c).sum + ahead .launching c
      rw [h.stats c hc, hpc, List.map_append, List.sum_append, List.map_singleton,
        List.sum_singleton, Goroutine.tally_start rfl, ahead, ahead]
      simp
    · show s.liveCount = ((s.bots ++ [_]).map fun g : Goroutine => g.stage.live).sum + _
      rw [h.live, hpc, List.map_append, List.sum_append]
      simp [Stage.live]
    · intro i g hg
      dsimp only at hg
      rw [List.getElem?_append] at hg
      split at hg
      · exact h.robots i g hg
      · rename_i hlen
        have hi : i = s.bots.length := by
          have := (List.getElem?_eq_some_iff.mp hg).1
          simp only [List.length_singleton] at this
          omega
        subst hi
        rw [Nat.sub_self] at hg
        obtain rfl := Option.some.inj hg
        exact ⟨rfl, rfl, ⟨fun _ => rfl, fun _ => nofun⟩, fun hne => absurd rfl hne⟩
    · show ((s.bots ++ [_]).length : ℤ) ≤ max 0 s.botCount
      rw [List.length_append, List.length_singleton]
      push_cast
      exact le_max_of_le_right hlt
    · rintro (hpc' | hpc') <;> cases hpc'
    · rintro (hpc' | hpc') <;> cases hpc'
  next => cases hstep

theorem Tallied.bot (h : Tallied s) {i : ℕ} {g : Goroutine} (hg : s.bots[i]? = some g) {b : Bot}
    {out : BotOut} (hadds : g.bot.Adds b out) :
    Tallied (out.counts.elim { s with bots := s.bots.set i { g with bot := b } }
      ({ s with bots := s.bots.set i { g with bot := b } } : Controller).add) := by
  have hrunning : g.stage = .running := by
    by_contra hne
    obtain ⟨why, hwhy⟩ := (h.robots i g hg).2.2.2 hne
    exact hadds.running why hwhy
  have hglobal : ∀ c : Counter, c = .connected ∨ c = .disconnected ∨ c = .errors →
      c.ofCommand = false → ¬ out.counts = some c := by
    intro c hc hcommand hcounts
    have hadd := hadds.counts c hcommand
    rw [BotPc.count_global _ hc, BotPc.count_global _ hc, if_pos hcounts] at hadd
    cases hadd
  have htally : ∀ c : Counter, c.ofCommand = false →
      ({ g with bot := b } : Goroutine).tally c - g.tally c =
        if out.counts = some c then 1 else 0 := by
    intro c hc
    cases c with
    | connected =>
      rw [if_neg (hglobal _ (.inl rfl) hc)]
      exact sub_self 1
    | disconnected =>
      rw [if_neg (hglobal _ (.inr (.inl rfl)) hc)]
      exact sub_self _
    | errors =>
      rw [if_neg (hglobal _ (.inr (.inr rfl)) hc)]
      simp [Goroutine.tally, Stage.over, hrunning]
    | _ =>
      show (b.pc.counted.count _ : ℤ) - (g.bot.pc.counted.count _ : ℤ) = _
      rw [hadds.counts _ hc]
      push_cast
      ring
  have hlive : s.liveCount = s.liveCount + (g.stage.live - g.stage.live) := by
    rw [sub_self, add_zero]
  rcases hcounts : out.counts with - | counter
  · refine h.set hg (fun c hc => ?_) hlive hadds.same hadds.fits fun hne => absurd hrunning hne
    rw [htally c hc, hcounts, if_neg nofun, add_zero]
  · refine h.set hg (fun c hc => ?_) hlive hadds.same hadds.fits fun hne => absurd hrunning hne
    rw [htally c hc, hcounts]
    refine (stats_add s counter c).trans ?_
    simp only [Option.some.injEq, eq_comm]

/-- A goroutine goes from one call behind `Run` to the next. -/
theorem Tallied.next (h : Tallied s) {i : ℕ} {g : Goroutine} (hg : s.bots[i]? = some g)
    {stage : Stage} {stats : Counter → ℤ} {liveCount : ℤ} {why : Return}
    (hpc : g.bot.pc = .returned why)
    (hstats : ∀ c, stats c =
      s.stats c + (({ g with stage := stage } : Goroutine).tally c - g.tally c))
    (hlive : liveCount = s.liveCount + (stage.live - g.stage.live)) :
    Tallied { s with
      bots := s.bots.set i { g with stage := stage }, stats := stats, liveCount := liveCount } :=
  h.set hg (fun c _ => hstats c) hlive ⟨rfl, rfl⟩ (fun h => h) fun _ => ⟨why, hpc⟩

/-- The calls behind `Run`, one after the other. -/
theorem Tallied.leave (h : Tallied s) {i : ℕ} (hstep : s.leave i = some s') : Tallied s' := by
  obtain ⟨g, hg, hstep⟩ := Option.bind_eq_some_iff.mp hstep
  have hreturned := (h.robots i g hg).2.2.2
  split at hstep
  next why hstage hpc =>
    have hfailed : g.hasFailed = why.isError := by rw [Goroutine.hasFailed, hpc]
    have hlive : s.liveCount = s.liveCount + (Stage.failed.live - g.stage.live) := by
      rw [hstage]
      exact (add_zero _).symm
    obtain rfl := Option.some.inj hstep
    by_cases herr : why.isError = true
    · rw [if_pos herr]
      refine h.next hg hpc (fun c => (stats_add s .errors c).trans ?_) hlive
      rw [Goroutine.tally_stage, hfailed, if_pos herr, hstage]
      simp [Stage.gone, Stage.over]
    · rw [if_neg herr]
      refine h.next hg hpc (fun c => ?_) hlive
      rw [Goroutine.tally_stage, hfailed, if_neg herr, hstage]
      simp [Stage.gone]
  next hstage =>
    obtain ⟨why, hpc⟩ := hreturned (hstage ▸ nofun)
    obtain rfl := Option.some.inj hstep
    refine h.next hg hpc (fun c => ?_) ?_
    · rw [Goroutine.tally_stage, hstage]
      simp [Stage.gone, Stage.over]
    · rw [hstage]
      rfl
  next hstage =>
    obtain ⟨why, hpc⟩ := hreturned (hstage ▸ nofun)
    obtain rfl := Option.some.inj hstep
    refine h.next hg hpc (fun c => (stats_add s .disconnected c).trans ?_) ?_
    · rw [Goroutine.tally_stage, hstage]
      simp [Stage.gone, Stage.over]
    · rw [hstage]
      exact (add_zero _).symm
  next hstage =>
    obtain ⟨why, hpc⟩ := hreturned (hstage ▸ nofun)
    obtain rfl := Option.some.inj hstep
    refine h.next hg hpc (fun c => ?_) ?_
    · rw [Goroutine.tally_stage, hstage]
      simp [Stage.gone, Stage.over]
    · rw [hstage]
      exact (add_zero _).symm
  next => cases hstep

/-- `Run` goes on to the report. -/
theorem Tallied.report (h : Tallied s) (hpc : s.pc = .waiting) :
    Tallied { s with pc := .reporting } := by
  refine ⟨?_, ?_, h.robots, h.fewer, ?_, fun _ => h.all (.inl hpc)⟩
  · intro c hc
    rw [h.stats c hc, hpc, ahead, ahead]
    simp
  · rw [h.live, hpc]
    rfl
  · rintro (hpc' | hpc') <;> cases hpc'

/-- The arguments of `NewController` do not change. -/
theorem same_step {a : FleetEvent × BotOut} (hstep : Steps s a s') :
    s'.botCount = s.botCount ∧ s'.commandRate = s.commandRate := by
  obtain ⟨ev, out⟩ := a
  cases ev with
  | main =>
    obtain ⟨s₁, hlaunch, heq⟩ := Option.map_eq_some_iff.mp hstep
    obtain rfl := congrArg Prod.fst heq
    unfold Controller.launch at hlaunch
    split at hlaunch
    next =>
      split at hlaunch
      · exact Option.some.inj hlaunch ▸ ⟨rfl, rfl⟩
      · exact Option.some.inj hlaunch ▸ ⟨rfl, rfl⟩
    next => exact Option.some.inj hlaunch ▸ ⟨rfl, rfl⟩
    next => exact Option.some.inj hlaunch ▸ ⟨rfl, rfl⟩
    next => cases hlaunch
  | bot i event =>
    obtain ⟨g, -, hrest⟩ := Option.bind_eq_some_iff.mp hstep
    obtain ⟨⟨b, out'⟩, -, heq⟩ := Option.map_eq_some_iff.mp hrest
    obtain ⟨rfl, rfl⟩ := Prod.mk.injEq .. ▸ heq
    cases out'.counts with
    | none => exact ⟨rfl, rfl⟩
    | some counter => exact ⟨rfl, rfl⟩
  | leave i =>
    obtain ⟨s₁, hleave, heq⟩ := Option.map_eq_some_iff.mp hstep
    obtain rfl := congrArg Prod.fst heq
    obtain ⟨g, -, hleave⟩ := Option.bind_eq_some_iff.mp hleave
    split at hleave
    next why _ _ =>
      obtain rfl := Option.some.inj hleave
      cases why.isError with
      | true => exact ⟨rfl, rfl⟩
      | false => exact ⟨rfl, rfl⟩
    next => exact Option.some.inj hleave ▸ ⟨rfl, rfl⟩
    next => exact Option.some.inj hleave ▸ ⟨rfl, rfl⟩
    next => exact Option.some.inj hleave ▸ ⟨rfl, rfl⟩
    next => cases hleave
  | allDone =>
    obtain ⟨-, heq⟩ := Option.ite_none_right_eq_some.mp hstep
    obtain rfl := congrArg Prod.fst (Option.some.inj heq)
    exact ⟨rfl, rfl⟩
  | timeout =>
    obtain ⟨-, heq⟩ := Option.ite_none_right_eq_some.mp hstep
    obtain rfl := congrArg Prod.fst (Option.some.inj heq)
    exact ⟨rfl, rfl⟩

theorem Tallied.step (hcount : s.botCount < 2 ^ 63) (h : Tallied s) {a : FleetEvent × BotOut}
    (hstep : Steps s a s') : Tallied s' := by
  obtain ⟨ev, out⟩ := a
  cases ev with
  | main =>
    obtain ⟨s₁, hlaunch, heq⟩ := Option.map_eq_some_iff.mp hstep
    obtain rfl := congrArg Prod.fst heq
    exact h.launch hlaunch
  | bot i event =>
    obtain ⟨g, hg, hrest⟩ := Option.bind_eq_some_iff.mp hstep
    obtain ⟨⟨b, out'⟩, hbot, heq⟩ := Option.map_eq_some_iff.mp hrest
    obtain ⟨rfl, rfl⟩ := Prod.mk.injEq .. ▸ heq
    have hid : g.bot.id < 2 ^ 63 := by
      have hlt := (List.getElem?_eq_some_iff.mp hg).1
      have := h.fewer
      rw [(h.robots i g hg).1]
      omega
    exact h.bot hg (Bot.adds_step hid hbot)
  | leave i =>
    obtain ⟨s₁, hleave, heq⟩ := Option.map_eq_some_iff.mp hstep
    obtain rfl := congrArg Prod.fst heq
    exact h.leave hleave
  | allDone =>
    obtain ⟨⟨hpc, -⟩, heq⟩ := Option.ite_none_right_eq_some.mp hstep
    obtain rfl := congrArg Prod.fst (Option.some.inj heq)
    exact h.report hpc
  | timeout =>
    obtain ⟨hpc, heq⟩ := Option.ite_none_right_eq_some.mp hstep
    obtain rfl := congrArg Prod.fst (Option.some.inj heq)
    exact h.report hpc

theorem tallied_run {botCount commandRate : ℤ} (hcount : botCount < 2 ^ 63)
    {as : List (FleetEvent × BotOut)}
    (h : Run Steps { botCount := botCount, commandRate := commandRate } as s) :
    s.botCount = botCount ∧ s.commandRate = commandRate ∧ Tallied s := by
  refine h.invariant (I := fun s => s.botCount = botCount ∧ s.commandRate = commandRate ∧ Tallied s)
    ?_ ⟨rfl, rfl, ⟨fun c _ => ?_, rfl, nofun, le_max_left _ _, ?_, ?_⟩⟩
  · rintro s a t ⟨hbots, hrate, htallied⟩ hstep
    obtain ⟨hbots', hrate'⟩ := same_step hstep
    exact ⟨hbots'.trans hbots, hrate'.trans hrate, htallied.step (hbots ▸ hcount) hstep⟩
  · rw [ahead]
    simp
  · rintro (hpc | hpc) <;> cases hpc
  · rintro (hpc | hpc) <;> cases hpc

end Controller

/-! ### The report -/

/-- The counters of one robot on the way to the battle. -/
theorem BotPc.count_flow (pc : BotPc) :
    pc.counted.count .battleStart ≤ pc.counted.count .roomOK ∧
    pc.counted.count .roomOK ≤ pc.counted.count .matchOK ∧
    pc.counted.count .matchOK + pc.counted.count .matchFail ≤ pc.counted.count .loginOK ∧
    pc.counted.count .loginOK + pc.counted.count .loginFail ≤ 1 ∧
    pc.counted.count .loginOK ≤ pc.counted.count .samples ∧
    pc.counted.count .samples ≤ 1 + pc.counted.count .loginOK ∧
    pc.counted.count .deathReceived = 0 ∧ pc.counted.count .endReceived = 0 := by
  generalize hway : pc.counted = way
  have hmem : way ∈ ([[], [.samples], [.samples, .loginFail], [.samples, .loginOK],
      [.samples, .loginOK, .samples], [.samples, .loginOK, .samples, .matchFail],
      [.samples, .loginOK, .samples, .matchOK], [.samples, .loginOK, .samples, .matchOK, .roomOK],
      [.samples, .loginOK, .samples, .matchOK, .roomOK, .battleStart]] : List (List Counter)) := by
    rw [← hway]
    cases pc with
    | returned why => cases why <;> decide
    | sent cmd => exact List.mem_of_getElem? (i := 8) rfl
    | _ => decide
  clear hway
  revert way
  decide

/-- A robot that has returned was in no battle. -/
theorem Return.count_battleStart (why : Return) : why.counted.count .battleStart = 0 := by
  cases why <;> rfl

/-- Without commands a robot that has returned has failed, or has logged in. -/
theorem Return.count_loginOK {why : Return} (h : why.early = true) :
    (if why.isError then 1 else 0) + why.counted.count .loginOK = 1 := by
  cases why <;> first | rfl | cases h

namespace Controller

variable {s s' : Controller}

/-- What holds of every goroutine holds of the counters. -/
theorem sum_le {f f' : Goroutine → ℤ}
    (hle : ∀ (i : ℕ) g, s.bots[i]? = some g → f g ≤ f' g) :
    (s.bots.map f).sum ≤ (s.bots.map f').sum := by
  apply List.sum_le_sum
  intro g hg
  obtain ⟨i, hi⟩ := List.getElem?_of_mem hg
  exact hle i g hi

theorem Tallied.stats_flow (h : Tallied s) (c : Counter) (hc : c.ofCommand = false)
    (hne : c ≠ .connected) : s.stats c = (s.bots.map fun g => g.tally c).sum := by
  rw [h.stats c hc, ahead, if_neg fun hand => hne hand.1, add_zero]

/-- Every robot that the loop has started, and the one it is about to start. -/
theorem Tallied.stats_connected (h : Tallied s) :
    s.stats .connected = (s.bots.map fun _ => (1 : ℤ)).sum + ahead s.pc .connected :=
  h.stats .connected rfl

theorem sum_one (l : List Goroutine) : (l.map fun _ => (1 : ℤ)).sum = l.length := by
  rw [List.map_const', List.sum_replicate, nsmul_one]

theorem ahead_nonneg (pc : MainPc) (c : Counter) : 0 ≤ ahead pc c := by
  unfold ahead
  split
  · exact zero_le_one
  · exact le_rfl

/-- A goroutine that is counted as gone has counted no battle. -/
theorem Tallied.gone_or_battle (h : Tallied s) {i : ℕ} {g : Goroutine} (hg : s.bots[i]? = some g) :
    g.tally .battleStart + g.tally .disconnected ≤ 1 := by
  obtain ⟨hroom, hmatch, hlogin, hone, -⟩ := g.bot.pc.count_flow
  show (g.bot.pc.counted.count .battleStart : ℤ) + g.stage.gone ≤ 1
  by_cases hstage : g.stage = .running
  · rw [hstage]
    show (g.bot.pc.counted.count .battleStart : ℤ) + 0 ≤ 1
    omega
  · obtain ⟨why, hpc⟩ := (h.robots i g hg).2.2.2 hstage
    have hnone : g.bot.pc.counted.count .battleStart = 0 := by
      rw [hpc]
      exact why.count_battleStart
    have hgone : g.stage.gone ≤ 1 := by
      cases g.stage <;> decide
    rw [hnone]
    omega

/-- The way of the robots, at any moment. -/
theorem Tallied.chain (h : Tallied s) :
    s.stats .battleStart ≤ s.stats .roomOK ∧ s.stats .roomOK ≤ s.stats .matchOK ∧
    s.stats .matchOK + s.stats .matchFail ≤ s.stats .loginOK ∧
    s.stats .loginOK + s.stats .loginFail ≤ s.stats .connected ∧
    s.stats .battleStart + s.stats .disconnected ≤ s.stats .connected := by
  have hflow : ∀ g : Goroutine, _ := fun g => g.bot.pc.count_flow
  have hahead := ahead_nonneg s.pc .connected
  refine ⟨?_, ?_, ?_, ?_, ?_⟩
  · rw [h.stats_flow .battleStart rfl nofun, h.stats_flow .roomOK rfl nofun]
    exact sum_le fun i g _ => Int.ofNat_le.mpr (hflow g).1
  · rw [h.stats_flow .roomOK rfl nofun, h.stats_flow .matchOK rfl nofun]
    exact sum_le fun i g _ => Int.ofNat_le.mpr (hflow g).2.1
  · rw [h.stats_flow .matchOK rfl nofun, h.stats_flow .matchFail rfl nofun,
      h.stats_flow .loginOK rfl nofun, ← List.sum_map_add]
    refine sum_le fun i g _ => ?_
    have hle := (hflow g).2.2.1
    show (g.bot.pc.counted.count .matchOK : ℤ) + g.bot.pc.counted.count .matchFail ≤
      g.bot.pc.counted.count .loginOK
    omega
  · rw [h.stats_flow .loginOK rfl nofun, h.stats_flow .loginFail rfl nofun, ← List.sum_map_add,
      h.stats_connected]
    refine le_add_of_le_of_nonneg (sum_le fun i g _ => ?_) hahead
    have hle := (hflow g).2.2.2.1
    show (g.bot.pc.counted.count .loginOK : ℤ) + g.bot.pc.counted.count .loginFail ≤ 1
    omega
  · rw [h.stats_flow .battleStart rfl nofun, h.stats_flow .disconnected rfl nofun,
      ← List.sum_map_add, h.stats_connected]
    exact le_add_of_le_of_nonneg (sum_le fun i g hg => h.gone_or_battle hg) hahead

/-- Who has left has failed, or has logged in and had no commands to send. -/
theorem Tallied.left (h : Tallied s) {i : ℕ} {g : Goroutine} (hg : s.bots[i]? = some g)
    (hdone : g.stage = .done) :
    g.tally .disconnected = 1 ∧ g.stage.live = 0 ∧
      (0 < s.commandRate → g.tally .errors = 1) ∧
      (s.commandRate ≤ 0 → g.tally .errors + g.tally .loginOK = 1) := by
  obtain ⟨-, -, hfits, hreturned⟩ := h.robots i g hg
  obtain ⟨why, hpc⟩ := hreturned (hdone ▸ nofun)
  have hfailed : g.hasFailed = why.isError := by rw [Goroutine.hasFailed, hpc]
  have herrors : g.tally .errors = if why.isError then 1 else 0 := by
    rw [Goroutine.tally, hfailed, hdone]
    rfl
  rw [hpc] at hfits
  refine ⟨?_, ?_, fun hrate => ?_, fun hrate => ?_⟩
  · rw [Goroutine.tally, hdone]
    rfl
  · rw [hdone]
    rfl
  · have hne := hfits.2 hrate
    rw [herrors, if_pos]
    cases why <;> first | rfl | exact absurd rfl hne
  · have hsum := Return.count_loginOK (hfits.1 hrate)
    rw [herrors]
    show _ + (g.bot.pc.counted.count .loginOK : ℤ) = 1
    rw [hpc]
    show _ + (why.counted.count .loginOK : ℤ) = 1
    split at hsum
    next herr => rw [if_pos herr]; omega
    next herr => rw [if_neg herr]; omega

/-- **What the report says.**  In whatever order the robots go on, at any moment: no robot is in a
battle that has not got a room, a match and a login, in this order; each counts one outcome of its
login, and one of its match; and who has left was in no battle.  When all have left, every robot
that was started is counted as gone, all of them with an error if they were to send commands, and
otherwise all that could not log in. -/
theorem fleet_report {botCount commandRate : ℤ} (hcount : botCount < 2 ^ 63)
    {as : List (FleetEvent × BotOut)}
    (h : Run Steps { botCount := botCount, commandRate := commandRate } as s) :
    (s.stats .battleStart ≤ s.stats .roomOK ∧ s.stats .roomOK ≤ s.stats .matchOK ∧
      s.stats .matchOK + s.stats .matchFail ≤ s.stats .loginOK ∧
      s.stats .loginOK + s.stats .loginFail ≤ s.stats .connected ∧
      s.stats .battleStart + s.stats .disconnected ≤ s.stats .connected ∧
      s.stats .connected ≤ max 0 botCount) ∧
    (s.pc = .waiting ∨ s.pc = .reporting → (∀ g ∈ s.bots, g.stage = .done) →
      s.stats .connected = max 0 botCount ∧ s.stats .disconnected = s.stats .connected ∧
      s.liveCount = 0 ∧ (0 < commandRate → s.stats .errors = s.stats .connected) ∧
      (commandRate ≤ 0 → s.stats .errors + s.stats .loginOK = s.stats .connected)) := by
  obtain ⟨rfl, rfl, htallied⟩ := tallied_run hcount h
  obtain ⟨hroom, hmatch, hlogin, hone, hgone⟩ := htallied.chain
  have hconnected := htallied.stats_connected
  rw [sum_one] at hconnected
  have hfewer := htallied.fewer
  refine ⟨⟨hroom, hmatch, hlogin, hone, hgone, ?_⟩, fun hpc hdone => ?_⟩
  · rw [hconnected, ahead]
    split
    · rename_i hmore
      have := htallied.more hmore.2
      exact le_max_of_le_right this
    · rw [add_zero]
      exact hfewer
  · have hahead : ahead s.pc .connected = 0 := by
      rw [ahead, if_neg]
      rintro ⟨-, hpc' | hpc'⟩ <;> rw [hpc'] at hpc <;> rcases hpc with hpc | hpc <;> cases hpc
    have hleft : ∀ g ∈ s.bots, _ := fun g hg =>
      let ⟨_, hi⟩ := List.getElem?_of_mem hg
      htallied.left hi (hdone g hg)
    rw [hahead, add_zero] at hconnected
    -- every goroutine adds the same, and the sum is their number
    have hsum : ∀ f : Goroutine → ℤ, (∀ g ∈ s.bots, f g = 1) →
        (s.bots.map f).sum = s.stats .connected := by
      intro f hf
      rw [hconnected, ← sum_one, List.map_congr_left hf]
    refine ⟨?_, ?_, ?_, fun hrate => ?_, fun hrate => ?_⟩
    · rw [hconnected]
      exact le_antisymm hfewer (max_le (Int.natCast_nonneg _) (htallied.all hpc))
    · rw [htallied.stats_flow .disconnected rfl nofun]
      exact hsum _ fun g hg => (hleft g hg).1
    · have hlive : s.pc ≠ .live := by
        rintro hpc'
        rw [hpc'] at hpc
        rcases hpc with hpc | hpc <;> cases hpc
      rw [htallied.live, if_neg hlive, add_zero,
        List.map_congr_left fun g hg => (hleft g hg).2.1, List.map_const', List.sum_replicate,
        nsmul_zero]
    · rw [htallied.stats_flow .errors rfl nofun]
      exact hsum _ fun g hg => (hleft g hg).2.2.1 hrate
    · rw [htallied.stats_flow .errors rfl nofun, htallied.stats_flow .loginOK rfl nofun,
        ← List.sum_map_add]
      exact hsum _ fun g hg => (hleft g hg).2.2.2 hrate

/-- Two robots without commands: the first cannot connect, the second logs in. -/
def twoRobots : List FleetEvent :=
  [.main, .main, .main, .bot 0 (.dial false), .main, .main, .main, .leave 0, .bot 1 (.dial true),
    .bot 1 .count, .bot 1 (.send true), .leave 0,
    .bot 1 (.read [Bot.packet 3 0xEA [16, 12, 24, 8] (by decide)]), .leave 0, .bot 1 .count,
    .leave 0, .main, .bot 1 .count, .leave 1, .leave 1, .leave 1, .leave 1, .allDone]

theorem fleet_report_twoRobots : ∃ (s : Controller) (as : List (FleetEvent × BotOut)),
    Run Steps { botCount := 2, commandRate := 0 } as s ∧ s.stats .connected = 2 ∧
    s.stats .disconnected = 2 ∧ s.stats .errors = 1 ∧ s.stats .loginOK = 1 ∧
    s.stats .errors + s.stats .loginOK = s.stats .connected := by
  have hexec : (exec Controller.step { botCount := 2, commandRate := 0 } twoRobots).map (fun p =>
      (p.1.pc, decide (∀ g ∈ p.1.bots, g.stage = .done), p.1.stats .connected,
        p.1.stats .disconnected, p.1.stats .errors, p.1.stats .loginOK)) =
      some (.reporting, true, 2, 2, 1, 1) := by
    decide +kernel
  obtain ⟨⟨s, as⟩, hexec, heq⟩ := Option.map_eq_some_iff.mp hexec
  simp only [Prod.mk.injEq, decide_eq_true_eq] at heq
  obtain ⟨hpc, hdone, hconnected, hgone, herrors, hlogin⟩ := heq
  have hrun := run_of_exec hexec
  obtain ⟨-, hend⟩ := fleet_report (by norm_num) hrun
  obtain ⟨-, -, -, -, hsum⟩ := hend (.inr hpc) hdone
  exact ⟨s, as, hrun, hconnected, hgone, herrors, hlogin, hsum le_rfl⟩

end Controller

end Robot

end MiniArena
