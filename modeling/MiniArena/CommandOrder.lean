/-
MiniArena/CommandOrder.lean

Which commands an engine executes, over any sequence of `processTick` calls.

The loop of `processTick` executes a command if its player is in the map it
was given, is alive, and `isDuplicate` says no; otherwise the command changes
nothing, not even the sequence history (`processCommand_of_skipped`).  So the
history is a table of high-water marks of the executed commands, across all
rooms and ticks the engine is used for (`marks_calls`).
-/
import MiniArena.HighWater
import MiniArena.TickEngine

namespace MiniArena

/-- The order of sequence numbers. -/
instance linearOrderUInt64 : LinearOrder UInt64 where
  le_refl := UInt64.le_refl
  le_trans := fun _ _ _ => UInt64.le_trans
  le_antisymm := fun _ _ => UInt64.le_antisymm
  le_total := UInt64.le_total
  lt_iff_le_not_ge := by
    intro a b
    rw [UInt64.lt_iff_toNat_lt, UInt64.le_iff_toNat_le, UInt64.le_iff_toNat_le]
    omega
  toDecidableLE := inferInstance

variable {F : Type} [FloatOps F]

namespace TickEngine

/-! ### Executed and skipped commands -/

/-- The loop body executes the command. -/
def executes (s : Loop F) (cmd : Command F) : Bool :=
  match s.players.lookup cmd.playerId with
  | none => false
  | some p => p.alive && !(s.engine.isDuplicate cmd.playerId cmd.sequence).2

theorem isDuplicate_eq (e : TickEngine) (pid : PlayerId) (seq : UInt64) :
    (HighWater.Admits e.lastSeq pid seq ∧
      e.isDuplicate pid seq = ({ e with lastSeq := e.lastSeq.insert pid seq }, false)) ∨
    (¬ HighWater.Admits e.lastSeq pid seq ∧ e.isDuplicate pid seq = (e, true)) := by
  unfold isDuplicate HighWater.Admits
  rcases e.lastSeq.lookup pid with - | last
  · left
    simp
  · by_cases hle : seq ≤ last
    · right
      simp [hle]
    · left
      simp only [Option.some.injEq, forall_eq', hle, if_false, and_true]
      exact not_le.mp hle

omit [FloatOps F] in
theorem executes_iff {s : Loop F} {cmd : Command F} {p : BattlePlayer F}
    (hp : s.players.lookup cmd.playerId = some p) (halive : p.alive = true) :
    executes s cmd = true ↔ HighWater.Admits s.engine.lastSeq cmd.playerId cmd.sequence := by
  unfold executes
  rw [hp]
  rcases isDuplicate_eq s.engine cmd.playerId cmd.sequence with ⟨hadm, heq⟩ | ⟨hadm, heq⟩
  · simp [heq, halive, hadm]
  · simp [heq, hadm]

/-- An executed command: its player is there and alive, its number becomes the
mark of the player. -/
theorem processCommand_of_executes (bc : Broadcaster (BattlePayload F)) {s : Loop F}
    {cmd : Command F} (h : executes s cmd = true) :
    ∃ p, s.players.lookup cmd.playerId = some p ∧ p.alive = true ∧
      HighWater.Admits s.engine.lastSeq cmd.playerId cmd.sequence ∧
      processCommand bc s cmd =
        ⟨{ s.engine with lastSeq := s.engine.lastSeq.insert cmd.playerId cmd.sequence },
          (execute bc s.players cmd p).1, s.sends ++ (execute bc s.players cmd p).2⟩ := by
  rcases hp : s.players.lookup cmd.playerId with - | p
  · simp [executes, hp] at h
  · have halive : p.alive = true := by
      by_contra hdead
      simp [executes, hp, hdead] at h
    have hadm := (executes_iff hp halive).mp h
    refine ⟨p, rfl, halive, hadm, ?_⟩
    rcases isDuplicate_eq s.engine cmd.playerId cmd.sequence with ⟨-, heq⟩ | ⟨hnot, -⟩
    · simp [processCommand, hp, halive, heq]
    · exact absurd hadm hnot

/-- A command that is not executed changes nothing. -/
theorem processCommand_of_skipped (bc : Broadcaster (BattlePayload F)) {s : Loop F}
    {cmd : Command F} (h : executes s cmd = false) : processCommand bc s cmd = s := by
  rcases hp : s.players.lookup cmd.playerId with - | p
  · simp [processCommand, hp]
  · rcases isDuplicate_eq s.engine cmd.playerId cmd.sequence with ⟨-, heq⟩ | ⟨-, heq⟩
    · have hdead : p.alive = false := by simpa [executes, hp, heq] using h
      simp [processCommand, hp, hdead]
    · simp [processCommand, hp, heq]

/-- What the execution of a command does: the number is the mark of the player,
and the handler has its effect. -/
def carryOut (bc : Broadcaster (BattlePayload F)) (s : Loop F) (cmd : Command F) : Loop F :=
  match s.players.lookup cmd.playerId with
  | none => s
  | some p =>
      ⟨{ s.engine with lastSeq := s.engine.lastSeq.insert cmd.playerId cmd.sequence },
        (execute bc s.players cmd p).1, s.sends ++ (execute bc s.players cmd p).2⟩

/-- The loop body performs a command or skips it. -/
theorem processCommand_eq (bc : Broadcaster (BattlePayload F)) (s : Loop F) (cmd : Command F) :
    processCommand bc s cmd = if executes s cmd then carryOut bc s cmd else s := by
  by_cases h : executes s cmd = true
  · obtain ⟨p, hp, -, -, heq⟩ := processCommand_of_executes bc h
    rw [if_pos h, heq, carryOut, hp]
  · rw [if_neg h, processCommand_of_skipped bc (Bool.not_eq_true _ ▸ h)]

/-! ### The log of a run -/

/-- The commands of a batch that the loop executes. -/
def executed (bc : Broadcaster (BattlePayload F)) : Loop F → List (Command F) → List (Command F)
  | _, [] => []
  | s, cmd :: cmds =>
      if executes s cmd then cmd :: executed bc (processCommand bc s cmd) cmds
      else executed bc (processCommand bc s cmd) cmds

/-- **A batch** does what its executed commands do, one after the other. -/
theorem foldl_processCommand (bc : Broadcaster (BattlePayload F)) (s : Loop F)
    (cmds : List (Command F)) :
    cmds.foldl (processCommand bc) s = (executed bc s cmds).foldl (carryOut bc) s := by
  induction cmds generalizing s with
  | nil => rfl
  | cons cmd cmds ih =>
    rw [List.foldl_cons, executed, ih, processCommand_eq]
    by_cases h : executes s cmd = true
    · rw [if_pos h, if_pos h, List.foldl_cons]
    · rw [if_neg h, if_neg h]

/-- The arguments of one `processTick` call. -/
structure EngineCall (F : Type) where
  players : Players F
  cmds : List (Command F)
  bc : Broadcaster (BattlePayload F)
  aoi : AoiGrid
  order : List PlayerId

/-- The engine after a call. -/
def afterCall (e : TickEngine) (call : EngineCall F) : TickEngine :=
  (e.processTick call.players call.cmds call.bc call.aoi call.order).engine

/-- What a sequence of calls executes. -/
def executedBy : TickEngine → List (EngineCall F) → List (Command F)
  | _, [] => []
  | e, call :: calls =>
      executed call.bc ⟨e, call.players, []⟩ call.cmds ++ executedBy (e.afterCall call) calls

/-- The player and the number of a command. -/
def stamp (cmd : Command F) : PlayerId × UInt64 := (cmd.playerId, cmd.sequence)

/-- **One batch** extends the log by what it executes. -/
theorem marks_commands {bc : Broadcaster (BattlePayload F)} {s : Loop F} {cmds : List (Command F)}
    {log : List (Command F)} (h : HighWater.Marks s.engine.lastSeq (log.map stamp)) :
    HighWater.Marks (cmds.foldl (processCommand bc) s).engine.lastSeq
      ((log ++ executed bc s cmds).map stamp) := by
  induction cmds generalizing s log with
  | nil => simpa [executed] using h
  | cons cmd cmds ih =>
    rw [List.foldl_cons, executed]
    by_cases hex : executes s cmd = true
    · obtain ⟨p, -, -, hadm, heq⟩ := processCommand_of_executes bc hex
      have hnext := h.record hadm
      have hlog : (log ++ [cmd]).map stamp = log.map stamp ++ [(cmd.playerId, cmd.sequence)] := by
        rw [List.map_append]
        rfl
      rw [← hlog] at hnext
      have := @ih (processCommand bc s cmd) (log ++ [cmd]) (heq ▸ hnext)
      rw [if_pos hex]
      simpa using this
    · rw [Bool.not_eq_true] at hex
      rw [processCommand_of_skipped bc hex, if_neg (by simp [hex])]
      exact ih h

/-- **A run of calls** extends the log by what the calls execute. -/
theorem marks_calls {e : TickEngine} {calls : List (EngineCall F)} {log : List (Command F)}
    (h : HighWater.Marks e.lastSeq (log.map stamp)) :
    HighWater.Marks (calls.foldl afterCall e).lastSeq
      ((log ++ executedBy e calls).map stamp) := by
  induction calls generalizing e log with
  | nil => simpa [executedBy] using h
  | cons call calls ih =>
    have := @ih (e.afterCall call) _ (@marks_commands F _ call.bc ⟨e, call.players, []⟩ _ _ h)
    rw [List.foldl_cons, executedBy]
    simpa using this

/-- **Exactly once, in order.**  Over every sequence of calls of one engine the
executed commands of a player have increasing numbers, so none is executed
twice.  Wherever in a batch a command comes, it is executed and its number
becomes the mark of its player, or it is skipped and nothing changes; and a
command of a present and living player is skipped if and only if a command of
the player with its number or a larger one has been executed before. -/
theorem commands_once_in_order (calls : List (EngineCall F)) :
    HighWater.Increasing ((executedBy {} calls).map stamp) ∧
      ((executedBy {} calls).map stamp).Nodup ∧
      ∀ (players : Players F) (bc : Broadcaster (BattlePayload F)) (before : List (Command F))
        (cmd : Command F),
        let start : Loop F := ⟨calls.foldl afterCall {}, players, []⟩
        let s := before.foldl (processCommand bc) start
        (executes s cmd = true → ∃ p, s.players.lookup cmd.playerId = some p ∧ p.alive = true ∧
          processCommand bc s cmd =
            ⟨{ s.engine with lastSeq := s.engine.lastSeq.insert cmd.playerId cmd.sequence },
              (execute bc s.players cmd p).1, s.sends ++ (execute bc s.players cmd p).2⟩) ∧
        (executes s cmd = false → processCommand bc s cmd = s) ∧
        ∀ p : BattlePlayer F, s.players.lookup cmd.playerId = some p → p.alive = true →
          (executes s cmd = false ↔ ∃ q ∈ executedBy {} calls ++ executed bc start before,
            q.playerId = cmd.playerId ∧ cmd.sequence ≤ q.sequence) := by
  have hmarks := @marks_calls F _ {} calls [] HighWater.marks_empty
  rw [List.nil_append] at hmarks
  refine ⟨hmarks.increasing, hmarks.increasing.nodup, ?_⟩
  intro players bc before cmd start s
  refine ⟨fun hex => ?_, processCommand_of_skipped bc, fun p hp halive => ?_⟩
  · obtain ⟨p, hp, halive, -, heq⟩ := processCommand_of_executes bc hex
    exact ⟨p, hp, halive, heq⟩
  have hnow : HighWater.Marks s.engine.lastSeq
      ((executedBy {} calls ++ executed bc start before).map stamp) :=
    marks_commands (s := start) hmarks
  rw [← Bool.not_eq_true, executes_iff hp halive, hnow.admits_iff]
  constructor
  · intro hnot
    push Not at hnot
    obtain ⟨s', hs', hle⟩ := hnot
    obtain ⟨q, hq, heq⟩ := List.mem_map.mp hs'
    obtain ⟨hid, rfl⟩ := Prod.mk.injEq .. ▸ heq
    exact ⟨q, hq, hid, hle⟩
  · rintro ⟨q, hq, hid, hle⟩ hall
    exact absurd hle (not_le.mpr (hall q.sequence (List.mem_map.mpr ⟨q, hq, by rw [← hid]; rfl⟩)))

/-- Player 1 alone, and the command `stop` of player 1 with number 1. -/
def stopOne : EngineCall ℚ where
  players := Finmap.singleton 1 { BattlePlayer.default with id := 1 }
  cmds := [⟨.stopMove, 1, 1, 0, 0, 0, 0⟩]
  bc := {}
  aoi := {}
  order := [1]

/-- After `stopOne`, the same command again: it is skipped. -/
theorem commands_once_in_order_stopOne :
    processCommand {} (⟨[stopOne].foldl afterCall {}, stopOne.players, []⟩ : Loop ℚ)
        ⟨.stopMove, 1, 1, 0, 0, 0, 0⟩ =
      ⟨[stopOne].foldl afterCall {}, stopOne.players, []⟩ := by
  have hlog : executedBy {} [stopOne] = [⟨.stopMove, 1, 1, 0, 0, 0, 0⟩] := rfl
  obtain ⟨-, hskipped, hiff⟩ := (commands_once_in_order [stopOne]).2.2 stopOne.players {} []
    ⟨.stopMove, 1, 1, 0, 0, 0, 0⟩
  refine hskipped ((hiff _ rfl rfl).mpr ⟨⟨.stopMove, 1, 1, 0, 0, 0, 0⟩, ?_, rfl, le_refl _⟩)
  rw [hlog]
  exact List.mem_append_left _ (List.mem_singleton_self _)

end TickEngine

end MiniArena
