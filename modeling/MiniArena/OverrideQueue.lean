/-
MiniArena/OverrideQueue.lean

Overridable messages: what `flushOverrides` sends of the calls of
`queueOverride` since the last flush.

A later call is documented to replace an earlier one with the same player and
the same message id (`Merged`), but the queue has one place for each player:
the last call of a player replaces all others.  So the queue merges as
documented exactly if no player is queued under two message ids
(`merged_iff`).
-/
import MiniArena.Broadcaster

namespace MiniArena

namespace Broadcaster

variable {P : Type}

/-- A sequence of calls of `queueOverride`, each with the message it queues. -/
def queueAll (b : Broadcaster P) (calls : List (Send P)) : Broadcaster P :=
  calls.foldl (fun b s => b.queueOverride s.playerId s.msgId s.payload) b

/-- The last call for a player. -/
def lastOf (calls : List (Send P)) (playerId : PlayerId) : Option (Send P) :=
  (calls.filter fun s => s.playerId == playerId).getLast?

/-- The last call for a player and a message id. -/
def lastFor (calls : List (Send P)) (playerId : PlayerId) (msgId : UInt32) : Option (Send P) :=
  (calls.filter fun s => s.playerId == playerId && s.msgId == msgId).getLast?

/-- One message for every player and message id that was queued, with the
payload of the last call, and nothing else. -/
structure Merged (calls : List (Send P)) (sent : Multiset (Send P)) : Prop where
  once : (sent.map fun s => (s.playerId, s.msgId)).Nodup
  mem_iff : ∀ s, s ∈ sent ↔ lastFor calls s.playerId s.msgId = some s

/-! ### The queue -/

variable {b : Broadcaster P} {calls : List (Send P)}

theorem lookup_queueAll (b : Broadcaster P) (calls : List (Send P)) (pid : PlayerId) :
    (b.queueAll calls).overrides.lookup pid
      = ((lastOf calls pid).map fun s => (s.msgId, s.payload)).or (b.overrides.lookup pid) := by
  induction calls using List.reverseRecOn with
  | nil => rfl
  | append_singleton calls s ih =>
    rw [queueAll, List.foldl_append, List.foldl_cons, List.foldl_nil, ← queueAll, queueOverride]
    dsimp only
    rw [Finmap.lookup_insert_eq, lastOf, List.filter_append]
    by_cases hpid : s.playerId = pid
    · rw [if_pos hpid.symm, List.filter_cons_of_pos (by simp [hpid]), List.filter_nil,
        List.getLast?_concat]
      rfl
    · rw [if_neg (Ne.symm hpid), List.filter_cons_of_neg (by simp [hpid]), List.filter_nil,
        List.append_nil]
      exact ih

theorem mem_flushOverrides (hcb : b.hasSendCb = true) {s : Send P} :
    s ∈ b.flushOverrides.2 ↔ b.overrides.lookup s.playerId = some (s.msgId, s.payload) := by
  rw [flushOverrides, hcb, Finmap.lookup_eq_some_iff]
  simp only [if_true, Multiset.mem_map]
  constructor
  · rintro ⟨⟨pid, msg⟩, hmem, rfl⟩
    exact hmem
  · intro hmem
    exact ⟨_, hmem, rfl⟩

/-- No player is sent two messages. -/
theorem nodup_flushOverrides (b : Broadcaster P) :
    (b.flushOverrides.2.map fun s => (s.playerId, s.msgId)).Nodup := by
  have hkeys : (b.flushOverrides.2.map Send.playerId).Nodup := by
    rw [flushOverrides]
    dsimp only
    split
    · rw [Multiset.map_map]
      exact Multiset.nodup_keys.mpr b.overrides.nodupKeys
    · exact Multiset.nodup_zero
  have hpairs : b.flushOverrides.2.map Send.playerId
      = (b.flushOverrides.2.map fun s => (s.playerId, s.msgId)).map Prod.fst := by
    rw [Multiset.map_map]
    rfl
  exact Multiset.Nodup.of_map _ (hpairs ▸ hkeys)

/-- A flush sends the last message of each player queued since the one before. -/
theorem mem_flush_queueAll (hempty : b.overrides = ∅) {s : Send P} :
    s ∈ (b.queueAll calls).setSendCallback.flushOverrides.2 ↔
      lastOf calls s.playerId = some s := by
  have hlook : (b.queueAll calls).setSendCallback.overrides.lookup s.playerId
      = (lastOf calls s.playerId).map fun s => (s.msgId, s.payload) := by
    refine (lookup_queueAll b calls s.playerId).trans ?_
    rw [hempty, Finmap.lookup_empty, Option.or_none]
  rw [mem_flushOverrides rfl, hlook, Option.map_eq_some_iff]
  constructor
  · rintro ⟨t, ht, heq⟩
    have hpid : t.playerId = s.playerId :=
      beq_iff_eq.mp (List.mem_filter.mp (List.mem_of_getLast? ht)).2
    obtain ⟨hmsg, hpayload⟩ := Prod.mk.inj heq
    obtain ⟨tpid, tmsg, tload⟩ := t
    obtain rfl : tpid = s.playerId := hpid
    obtain rfl : tmsg = s.msgId := hmsg
    obtain rfl : tload = s.payload := hpayload
    exact ht
  · exact fun hs => ⟨s, hs, rfl⟩

/-! ### Merging -/

theorem lastFor_isSome {s : Send P} (h : s ∈ calls) :
    ∃ t, lastFor calls s.playerId s.msgId = some t ∧ t.playerId = s.playerId ∧
      t.msgId = s.msgId := by
  have hmem : s ∈ calls.filter fun t => t.playerId == s.playerId && t.msgId == s.msgId :=
    List.mem_filter.mpr ⟨h, by simp⟩
  have ht := List.getLast?_eq_some_getLast (List.ne_nil_of_mem hmem)
  have hkeys := (List.mem_filter.mp (List.mem_of_getLast? ht)).2
  rw [Bool.and_eq_true, beq_iff_eq, beq_iff_eq] at hkeys
  exact ⟨_, ht, hkeys⟩

/-- Where no player is queued under two message ids, the last call of the
player is the last call for the pair. -/
theorem lastFor_iff (huniform : ∀ s ∈ calls, ∀ t ∈ calls, s.playerId = t.playerId →
    s.msgId = t.msgId) {s : Send P} :
    lastFor calls s.playerId s.msgId = some s ↔ lastOf calls s.playerId = some s := by
  by_cases hqueued : ∃ t ∈ calls, t.playerId = s.playerId ∧ t.msgId = s.msgId
  · obtain ⟨t, ht, hpid, hmsg⟩ := hqueued
    have hsame : (calls.filter fun u => u.playerId == s.playerId && u.msgId == s.msgId)
        = calls.filter fun u => u.playerId == s.playerId := by
      apply List.filter_congr
      intro u hu
      by_cases hpid' : u.playerId = s.playerId
      · have hmsg' := huniform u hu t ht (hpid'.trans hpid.symm)
        simp [hpid', hmsg'.trans hmsg]
      · simp [hpid']
    rw [lastFor, lastOf, hsame]
  · refine iff_of_false (fun h => ?_) (fun h => ?_)
    · have hs := List.mem_filter.mp (List.mem_of_getLast? h)
      exact hqueued ⟨s, hs.1, rfl, rfl⟩
    · have hs := List.mem_filter.mp (List.mem_of_getLast? h)
      exact hqueued ⟨s, hs.1, rfl, rfl⟩

/-- **Merging.**  After any flush, and any calls of `queueOverride` since, the
next flush with a callback empties the queue; what it sends is one message for
each player and message id exactly if no player was queued under two message
ids. -/
theorem merged_iff (b : Broadcaster P) (calls : List (Send P)) :
    let queued := (b.flushOverrides.1.queueAll calls).setSendCallback
    queued.flushOverrides.1.overrides = ∅ ∧
    (Merged calls queued.flushOverrides.2 ↔
      ∀ s ∈ calls, ∀ t ∈ calls, s.playerId = t.playerId → s.msgId = t.msgId) := by
  intro queued
  have hmem : ∀ {s}, s ∈ queued.flushOverrides.2 ↔ lastOf calls s.playerId = some s :=
    mem_flush_queueAll rfl
  refine ⟨rfl, fun hmerged s hs t ht hpid => ?_, fun huniform => ?_⟩
  · -- both pairs are answered, out of the one place of the player
    obtain ⟨s', hs', hspid, hsmsg⟩ := lastFor_isSome hs
    obtain ⟨t', ht', htpid, htmsg⟩ := lastFor_isSome ht
    have hsent : lastOf calls s'.playerId = some s' :=
      hmem.mp ((hmerged.mem_iff s').mpr (by rw [hspid, hsmsg]; exact hs'))
    have hsent' : lastOf calls t'.playerId = some t' :=
      hmem.mp ((hmerged.mem_iff t').mpr (by rw [htpid, htmsg]; exact ht'))
    rw [hspid] at hsent
    rw [htpid, ← hpid] at hsent'
    obtain rfl := Option.some.inj (hsent.symm.trans hsent')
    exact hsmsg.symm.trans htmsg
  · exact ⟨nodup_flushOverrides _, fun s => hmem.trans (lastFor_iff huniform).symm⟩

/-- A battle state and a death notice for player 1. -/
def stateAndDeath : List (Send String) := [⟨1, 4004, "state"⟩, ⟨1, 4005, "death"⟩]

/-- **The second message displaces the first**, with another message id. -/
theorem displaced_stateAndDeath :
    ¬ ∀ (b : Broadcaster String) (calls : List (Send String)), b.hasSendCb = true →
      b.overrides = ∅ → Merged calls (b.queueAll calls).flushOverrides.2 := by
  intro hclaim
  have hmerged := hclaim ({} : Broadcaster String).setSendCallback stateAndDeath rfl rfl
  have hfirst := (hmerged.mem_iff ⟨1, 4004, "state"⟩).mpr rfl
  rw [mem_flushOverrides rfl, lookup_queueAll] at hfirst
  cases hfirst

end Broadcaster

end MiniArena
