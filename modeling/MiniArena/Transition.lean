/-
MiniArena/Transition.lean

Finite runs of a labelled transition relation `R s a t`.

`Run R s as t` is a run from `s` to `t` that performs the labels `as` in
order.  The rules are the usual ones: runs compose and split at a label
boundary, an invariant of the steps is an invariant of the runs, and so is
one that also speaks of the labels performed so far (`Run.history`), and a
refinement mapping of the steps is one of the runs (`Run.refine`).

`Throughout P as` says that every label of `as` has the property `P`, which
may also look at the labels before it.  `Recorded R` has them in the state.

For a deterministic system given by a function, `Along step Q s as` says
that `Q` holds at every step of the run of `as` from `s`.
-/
import Mathlib

namespace Transition

variable {S A : Type*} {R R' : S → A → S → Prop}

/-- A run of `R` with its labels. -/
inductive Run (R : S → A → S → Prop) : S → List A → S → Prop
  | nil {s} : Run R s [] s
  | cons {s a t as u} : R s a t → Run R t as u → Run R s (a :: as) u

theorem Run.append {s t u : S} {as bs : List A} (h₁ : Run R s as t) (h₂ : Run R t bs u) :
    Run R s (as ++ bs) u := by
  induction h₁ with
  | nil => exact h₂
  | cons hstep _ ih => exact .cons hstep (ih h₂)

theorem Run.split {s u : S} {as bs : List A} (h : Run R s (as ++ bs) u) :
    ∃ t, Run R s as t ∧ Run R t bs u := by
  induction as generalizing s with
  | nil => exact ⟨s, .nil, h⟩
  | cons a as ih =>
    cases h with
    | cons hstep hrest =>
      obtain ⟨t, h₁, h₂⟩ := ih hrest
      exact ⟨t, .cons hstep h₁, h₂⟩

theorem Run.single {s t : S} {a : A} (h : R s a t) : Run R s [a] t := .cons h .nil

theorem Run.mono {s t : S} {as : List A} (hR : ∀ s a t, R s a t → R' s a t)
    (h : Run R s as t) : Run R' s as t := by
  induction h with
  | nil => exact .nil
  | cons hstep _ ih => exact .cons (hR _ _ _ hstep) ih

/-- Two restrictions of the steps have the same runs, if they agree at every
step from a state with `J` and `B`: `J` is kept by all steps, `B` by those
the restriction lets through. -/
theorem Run.guard_congr {J B : S → Prop} {P : S → A → S → Prop} {Q : S → A → Prop} {s t : S}
    {as : List A} (hJ : ∀ s a t, J s → R s a t → J t)
    (hPQ : ∀ s a t, J s → B s → R s a t → (P s a t ↔ Q s a))
    (hB : ∀ s a t, J s → B s → R s a t → P s a t → B t) (hs : J s) (hBs : B s) :
    Run (fun s a t => R s a t ∧ P s a t) s as t ↔ Run (fun s a t => R s a t ∧ Q s a) s as t := by
  constructor
  · intro h
    induction h with
    | nil => exact .nil
    | cons hst _ ih =>
      exact .cons ⟨hst.1, (hPQ _ _ _ hs hBs hst.1).mp hst.2⟩
        (ih (hJ _ _ _ hs hst.1) (hB _ _ _ hs hBs hst.1 hst.2))
  · intro h
    induction h with
    | nil => exact .nil
    | cons hst _ ih =>
      have hP := (hPQ _ _ _ hs hBs hst.1).mpr hst.2
      exact .cons ⟨hst.1, hP⟩ (ih (hJ _ _ _ hs hst.1) (hB _ _ _ hs hBs hst.1 hP))

/-- Two restrictions of the steps that agree on the invariant states have the same runs. -/
theorem Run.congr {I : S → Prop} {P Q : S → A → Prop} {s t : S} {as : List A}
    (hstep : ∀ s a t, I s → R s a t → I t) (hPQ : ∀ s a t, I s → R s a t → (P s a ↔ Q s a))
    (hs : I s) :
    Run (fun s a t => R s a t ∧ P s a) s as t ↔ Run (fun s a t => R s a t ∧ Q s a) s as t :=
  Run.guard_congr (B := I) hstep (fun s a t hs _ hst => hPQ s a t hs hst)
    (fun s a t hs _ hst _ => hstep s a t hs hst) hs hs

/-- If, as long as `B` has held, a step leads to `B` exactly when it meets
`Q`, then the runs that stay in `B` are the runs whose steps meet `Q`. -/
theorem Run.target_congr {J B : S → Prop} {Q : S → A → Prop} {s t : S} {as : List A}
    (hJ : ∀ s a t, J s → R s a t → J t) (hB : ∀ s a t, J s → B s → R s a t → (B t ↔ Q s a))
    (hs : J s) (hBs : B s) :
    Run (fun s a t => R s a t ∧ B t) s as t ↔ Run (fun s a t => R s a t ∧ Q s a) s as t :=
  Run.guard_congr hJ hB (fun _ _ _ _ _ _ h => h) hs hBs

/-- An invariant of the steps is an invariant of the runs. -/
theorem Run.invariant {I : S → Prop} {s t : S} {as : List A}
    (hstep : ∀ s a t, I s → R s a t → I t) (h : Run R s as t) (hs : I s) : I t := by
  induction h with
  | nil => exact hs
  | cons hst _ ih => exact ih (hstep _ _ _ hs hst)

/-- A relation with one target for every state and label has one run. -/
theorem Run.unique (hR : ∀ s a t t', R s a t → R s a t' → t = t') {s t t' : S} {as : List A}
    (h : Run R s as t) (h' : Run R s as t') : t = t' := by
  induction h with
  | nil =>
    cases h'
    rfl
  | cons hst _ ih =>
    cases h' with
    | cons hst' hrest =>
      obtain rfl := hR _ _ _ _ hst' hst
      exact ih hrest

/-- **Refinement.**  If every step from an invariant state is, seen through
`f`, a step of `R'` with the same label, so is every run. -/
theorem Run.refine {T : Type*} {Q : T → A → T → Prop} {I : S → Prop} {f : S → T} {s t : S}
    {as : List A} (hstep : ∀ s a t, I s → R s a t → I t ∧ Q (f s) a (f t)) (h : Run R s as t)
    (hs : I s) : I t ∧ Run Q (f s) as (f t) := by
  induction h with
  | nil => exact ⟨hs, .nil⟩
  | cons hst _ ih =>
    obtain ⟨ht, hq⟩ := hstep _ _ _ hs hst
    obtain ⟨hu, hrest⟩ := ih ht
    exact ⟨hu, .cons hq hrest⟩

/-- An invariant that also speaks of the labels performed so far. -/
theorem Run.history {I : List A → S → Prop} {s t : S} {past as : List A}
    (hstep : ∀ past s a t, I past s → R s a t → I (past ++ [a]) t)
    (h : Run R s as t) (hs : I past s) : I (past ++ as) t := by
  induction h generalizing past with
  | nil => simpa using hs
  | @cons s a t as u hst _ ih =>
    have := ih (hstep past s a t hs hst)
    simpa using this

/-- The same from the beginning, when nothing has been performed yet. -/
theorem Run.record {I : List A → S → Prop} {s t : S} {as : List A}
    (hstep : ∀ past s a t, I past s → R s a t → I (past ++ [a]) t)
    (h : Run R s as t) (hs : I [] s) : I as t :=
  h.history hstep hs

/-- **Conservation.**  If every step appends its input to the contents of a
queue and removes its output from the front, so does the run. -/
theorem Run.conserved {α : Type*} {I : S → Prop} {content : S → List α} {input output : A → List α}
    {s t : S} {as : List A}
    (hstep : ∀ s a t, I s → R s a t → I t ∧ content s ++ input a = output a ++ content t)
    (h : Run R s as t) (hs : I s) :
    I t ∧ content s ++ (as.map input).flatten = (as.map output).flatten ++ content t := by
  induction h with
  | nil => exact ⟨hs, by simp⟩
  | cons hst _ ih =>
    obtain ⟨ht, heq⟩ := hstep _ _ _ hs hst
    obtain ⟨hu, hrest⟩ := ih ht
    refine ⟨hu, ?_⟩
    rw [List.map_cons, List.map_cons, List.flatten_cons, List.flatten_cons, ← List.append_assoc,
      heq, List.append_assoc, hrest, List.append_assoc]

/-- The steps of `R`, with the labels performed so far beside the state. -/
def Recorded (R : S → A → S → Prop) (s : S × List A) (a : A) (t : S × List A) : Prop :=
  R s.1 a t.1 ∧ t.2 = s.2 ++ [a]

/-! ### Properties of every position of a run -/

/-- `P past a` holds at every label `a`, `past` being the labels before it. -/
def Throughout (P : List A → A → Prop) (as : List A) : Prop :=
  ∀ past a later, as = past ++ a :: later → P past a

theorem throughout_nil {P : List A → A → Prop} : Throughout P [] := by
  intro past a later heq
  simp at heq

theorem throughout_concat {P : List A → A → Prop} {as : List A} {a : A} :
    Throughout P (as ++ [a]) ↔ Throughout P as ∧ P as a := by
  constructor
  · intro h
    refine ⟨?_, h as a [] rfl⟩
    intro past b later heq
    apply h past b (later ++ [a])
    rw [heq, List.append_assoc, List.cons_append]
  · rintro ⟨hall, hlast⟩ past b later heq
    rcases List.eq_nil_or_concat later with rfl | ⟨later', b', rfl⟩
    · obtain ⟨rfl, hone⟩ := List.append_inj' heq rfl
      obtain rfl := List.singleton_inj.mp hone
      exact hlast
    · rw [List.concat_eq_append, ← List.cons_append, ← List.append_assoc] at heq
      obtain ⟨rfl, -⟩ := List.append_inj' heq rfl
      exact hall past b later' rfl

/-! ### Partial step functions -/

theorem run_of_foldlM {step : S → A → Option S} {s t : S} {as : List A}
    (h : as.foldlM step s = some t) : Run (fun s a t => step s a = some t) s as t := by
  induction as generalizing s with
  | nil =>
    obtain rfl := Option.some.inj h
    exact .nil
  | cons a as ih =>
    rw [List.foldlM_cons] at h
    obtain ⟨s', hstep, hrest⟩ := Option.bind_eq_some_iff.mp h
    exact .cons hstep (ih hrest)

/-- Run the events `es`, collecting the outputs. -/
def exec {E O : Type*} (step : S → E → Option (S × O)) : S → List E → Option (S × List (E × O))
  | s, [] => some (s, [])
  | s, e :: es =>
      (step s e).bind fun p => (exec step p.1 es).map fun q => (q.1, (e, p.2) :: q.2)

theorem run_of_exec {E O : Type*} {step : S → E → Option (S × O)} {s t : S} {es : List E}
    {as : List (E × O)} (h : exec step s es = some (t, as)) :
    Run (fun s (a : E × O) t => step s a.1 = some (t, a.2)) s as t := by
  induction es generalizing s as with
  | nil =>
    obtain ⟨rfl, rfl⟩ := Prod.mk.injEq .. ▸ Option.some.inj h
    exact .nil
  | cons e es ih =>
    obtain ⟨⟨s', o⟩, hstep, hrest⟩ := Option.bind_eq_some_iff.mp h
    obtain ⟨⟨t', as'⟩, hexec, heq⟩ := Option.map_eq_some_iff.mp hrest
    obtain ⟨rfl, rfl⟩ := Prod.mk.injEq .. ▸ heq
    exact .cons hstep (ih hexec)

theorem map_fst_of_exec {E O : Type*} {step : S → E → Option (S × O)} {s t : S} {es : List E}
    {as : List (E × O)} (h : exec step s es = some (t, as)) : as.map Prod.fst = es := by
  induction es generalizing s as with
  | nil =>
    obtain ⟨-, rfl⟩ := Prod.mk.injEq .. ▸ Option.some.inj h
    rfl
  | cons e es ih =>
    obtain ⟨⟨s', o⟩, -, hrest⟩ := Option.bind_eq_some_iff.mp h
    obtain ⟨⟨t', as'⟩, hexec, heq⟩ := Option.map_eq_some_iff.mp hrest
    obtain ⟨rfl, rfl⟩ := Prod.mk.injEq .. ▸ heq
    rw [List.map_cons, ih hexec]

theorem exec_cons {E O : Type*} {step : S → E → Option (S × O)} {s t : S} {e : E} {p : S × O}
    {es : List E} {as : List (E × O)} (hstep : step s e = some p)
    (h : exec step p.1 es = some (t, as)) : exec step s (e :: es) = some (t, (e, p.2) :: as) := by
  rw [exec, hstep, Option.bind_some, h]
  rfl

theorem exec_append {E O : Type*} {step : S → E → Option (S × O)} {s t u : S} {es es' : List E}
    {as bs : List (E × O)} (h₁ : exec step s es = some (t, as))
    (h₂ : exec step t es' = some (u, bs)) : exec step s (es ++ es') = some (u, as ++ bs) := by
  induction es generalizing s as with
  | nil =>
    obtain ⟨rfl, rfl⟩ := Prod.mk.injEq .. ▸ Option.some.inj h₁
    exact h₂
  | cons e es ih =>
    obtain ⟨⟨s', o⟩, hstep, hrest⟩ := Option.bind_eq_some_iff.mp h₁
    obtain ⟨⟨t', as'⟩, hexec, heq⟩ := Option.map_eq_some_iff.mp hrest
    obtain ⟨rfl, rfl⟩ := Prod.mk.injEq .. ▸ heq
    exact exec_cons hstep (ih hexec)

/-! ### Deterministic systems -/

variable {step : S → A → S}

/-- `Q` holds at every step of the run of `as` from `s`. -/
def Along (step : S → A → S) (Q : S → A → Prop) : S → List A → Prop
  | _, [] => True
  | s, a :: as => Q s a ∧ Along step Q (step s a) as

theorem Along.take {Q : S → A → Prop} {s : S} {as : List A} (h : Along step Q s as) (k : ℕ) :
    Along step Q s (as.take k) := by
  induction as generalizing s k with
  | nil =>
    rw [List.take_nil]
    trivial
  | cons a as ih =>
    cases k with
    | zero => trivial
    | succ k => exact ⟨h.1, ih h.2 k⟩

end Transition
