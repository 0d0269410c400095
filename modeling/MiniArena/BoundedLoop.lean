/-
MiniArena/BoundedLoop.lean

Loops, in the abstract, and when they end.

A round of a loop ends it with a value, fails, or goes on in another state;
`run` allows it a number of rounds.  A round is a function of the state, so a
loop that comes back to a state never ends.  If only finitely many states go
on, nothing else can keep it from ending:

    (∃ fuel, run round fuel s is a value) ↔ Clean round s

where `Clean` says that no state reached from `s` fails or is reached from
itself (`clean_of_run`).  One round more than there are such states is
enough (`Clean.run`).
-/
import Mathlib

namespace BoundedLoop

open Relation

inductive Round (S V : Type*)
  | done (v : V)
  | fail
  | next (s : S)

variable {S V : Type*}

/-- `none` if the loop fails, or is still running after `fuel` rounds. -/
def run (round : S → Round S V) : ℕ → S → Option V
  | 0, _ => none
  | fuel + 1, s =>
      match round s with
      | .done v => some v
      | .fail => none
      | .next t => run round fuel t

def Next (round : S → Round S V) (s t : S) : Prop := round s = .next t

structure Clean (round : S → Round S V) (s : S) : Prop where
  ok : ∀ t, ReflTransGen (Next round) s t → round t ≠ .fail
  once : ∀ t, ReflTransGen (Next round) s t → ¬ TransGen (Next round) t t

variable {round : S → Round S V} {s t : S}

theorem Clean.step (h : Clean round s) (hst : Next round s t) : Clean round t where
  ok u hu := h.ok u (hu.head hst)
  once u hu := h.once u (hu.head hst)

theorem clean_of_done {v : V} (h : round s = .done v) : Clean round s := by
  -- a loop that is done goes nowhere, so `s` is all that is reached
  have hstuck : ∀ t, ¬ Next round s t := by
    intro t hst
    rw [Next, h] at hst
    cases hst
  have hself : ∀ t, ReflTransGen (Next round) s t → t = s := by
    intro t ht
    rcases ht.cases_head with heq | ⟨u, hsu, -⟩
    · exact heq.symm
    · exact absurd hsu (hstuck u)
  refine ⟨fun t ht => ?_, fun t ht hcycle => ?_⟩
  · rw [hself t ht, h]
    intro hfail
    cases hfail
  · rw [hself t ht] at hcycle
    obtain ⟨u, hsu, -⟩ := TransGen.head'_iff.mp hcycle
    exact hstuck u hsu

theorem clean_of_next (hst : Next round s t) (h : Clean round t) : Clean round s where
  ok u hu := by
    rcases hu.cases_head with rfl | ⟨w, hsw, hwu⟩
    · rw [show round s = .next t from hst]
      intro hfail
      cases hfail
    · obtain rfl := Round.next.inj (hst.symm.trans hsw)
      exact h.ok u hwu
  once u hu hcycle := by
    rcases hu.cases_head with rfl | ⟨w, hsw, hwu⟩
    · -- a cycle through `s` is one through `t`
      obtain ⟨w, hsw, hws⟩ := TransGen.head'_iff.mp hcycle
      obtain rfl := Round.next.inj (hst.symm.trans hsw)
      exact h.once t .refl (TransGen.tail' hws hst)
    · obtain rfl := Round.next.inj (hst.symm.trans hsw)
      exact h.once u hwu hcycle

theorem clean_of_run {fuel : ℕ} (h : (run round fuel s).isSome = true) : Clean round s := by
  induction fuel generalizing s with
  | zero => cases h
  | succ fuel ih =>
    rw [run] at h
    rcases hround : round s with v | - | t
    · exact clean_of_done hround
    · rw [hround] at h
      cases h
    · rw [hround] at h
      exact clean_of_next hround (ih h)

/-- By induction on the number of states that may still go on. -/
theorem Clean.run [DecidableEq S] {live : Finset S} (h : Clean round s)
    (hlive : ∀ t u, ReflTransGen (Next round) s t → Next round t u → t ∈ live) :
    (run round (live.card + 1) s).isSome = true := by
  induction hn : live.card generalizing live s with
  | zero =>
    rw [BoundedLoop.run]
    rcases hround : round s with v | - | t
    · rfl
    · exact absurd hround (h.ok s .refl)
    · have hs := hlive s t .refl hround
      rw [Finset.card_eq_zero.mp hn] at hs
      exact absurd hs (Finset.notMem_empty s)
  | succ n ih =>
    rw [BoundedLoop.run]
    rcases hround : round s with v | - | t
    · rfl
    · exact absurd hround (h.ok s .refl)
    · have hs := hlive s t .refl hround
      have hcard : (live.erase s).card = n := by
        rw [Finset.card_erase_of_mem hs, hn, Nat.add_sub_cancel]
      -- `s` is not reached again, so the rest of the loop does without it
      have hrest : ∀ u w, ReflTransGen (Next round) t u → Next round u w → u ∈ live.erase s := by
        intro u w htu huw
        refine Finset.mem_erase.mpr ⟨?_, hlive u w (htu.head hround) huw⟩
        rintro rfl
        exact h.once u .refl (TransGen.head' hround htu)
      exact ih (h.step hround) hrest hcard

end BoundedLoop
