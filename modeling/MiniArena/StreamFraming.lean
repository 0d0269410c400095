/-
MiniArena/StreamFraming.lean

Self-delimiting codes on a stream, read in pieces.

A `Framing` is an encoder together with a scanner that looks at the front of
a pending string: it either produces the first item and the remaining
string, or asks for more input.  Two laws are required: scanning an encoding
followed by anything gives the item back, and a proper prefix of an encoding
is never enough.

`Drains` is the inner loop of a reader (scan until more input is needed) and
`Feeds` the outer one (append a piece, then drain).  The main result,
`Framing.feeds_exact`, says that the cuts between the pieces do not matter:
every feed of the concatenated encodings of `xs` delivers exactly `xs`, in
order, and leaves nothing pending.
-/
import Mathlib

/-- A self-delimiting code over the alphabet `α` for items `β`. -/
structure Framing (α β : Type*) where
  encode : β → List α
  /-- `none` asks for more input. -/
  scan : List α → Option (β × List α)
  encode_ne_nil : ∀ x, encode x ≠ []
  scan_encode : ∀ x rest, scan (encode x ++ rest) = some (x, rest)
  scan_incomplete : ∀ {x p s}, encode x = p ++ s → s ≠ [] → scan p = none

namespace Framing

variable {α β : Type*} (C : Framing α β)

/-- The concatenated encodings of a list of items. -/
def encodeAll (xs : List β) : List α := (xs.map C.encode).flatten

@[simp] theorem encodeAll_nil : C.encodeAll [] = [] := rfl

@[simp] theorem encodeAll_cons (x : β) (xs : List β) :
    C.encodeAll (x :: xs) = C.encode x ++ C.encodeAll xs := rfl

@[simp] theorem encodeAll_append (xs ys : List β) :
    C.encodeAll (xs ++ ys) = C.encodeAll xs ++ C.encodeAll ys := by
  simp [encodeAll]

/-- The inner loop of a reader: scan until more input is needed. -/
inductive Drains : List α → List β → List α → Prop
  | stop {bs} : C.scan bs = none → Drains bs [] bs
  | next {bs x bs' xs rest} :
      C.scan bs = some (x, bs') → Drains bs' xs rest → Drains bs (x :: xs) rest

/-- The outer loop of a reader: append the next piece, then drain. -/
inductive Feeds : List α → List (List α) → List (List β) → List α → Prop
  | nil {pending} : Feeds pending [] [] pending
  | cons {pending piece pieces xs xss rest last} :
      C.Drains (pending ++ piece) xs rest → Feeds rest pieces xss last →
      Feeds pending (piece :: pieces) (xs :: xss) last

/-- A drained string needs more input. -/
theorem Drains.scan_rest {bs : List α} {xs : List β} {rest : List α}
    (h : C.Drains bs xs rest) : C.scan rest = none := by
  induction h with
  | stop h => exact h
  | next _ _ ih => exact ih

/-- Draining is deterministic. -/
theorem Drains.unique {bs : List α} {xs ys : List β} {r s : List α}
    (h₁ : C.Drains bs xs r) (h₂ : C.Drains bs ys s) : xs = ys ∧ r = s := by
  induction h₁ generalizing ys s with
  | stop h =>
    cases h₂ with
    | stop => exact ⟨rfl, rfl⟩
    | next h' => rw [h] at h'; cases h'
  | next h _ ih =>
    cases h₂ with
    | stop h' => rw [h] at h'; cases h'
    | next h' hd =>
      rw [h] at h'
      cases h'
      obtain ⟨rfl, rfl⟩ := ih hd
      exact ⟨rfl, rfl⟩

/-- **A prefix of a well-formed stream drains into whole items.**  If `bs` is
the part received so far of the encodings of `xs`, draining it delivers an
initial part of `xs`, and what stays pending is the received part of the
encodings of the others. -/
theorem drains_initial {bs rest : List α} {xs : List β}
    (h : bs ++ rest = C.encodeAll xs) :
    ∃ ys zs bs', xs = ys ++ zs ∧ C.Drains bs ys bs' ∧ bs' ++ rest = C.encodeAll zs := by
  induction xs generalizing bs with
  | nil =>
    obtain ⟨rfl, rfl⟩ : bs = [] ∧ rest = [] := by simpa using h
    rcases hs : C.scan [] with - | ⟨x, bs'⟩
    · exact ⟨[], [], [], rfl, .stop hs, rfl⟩
    · -- an item scanned from nothing would be scanned from its own empty prefix
      rw [C.scan_incomplete (x := x) (p := []) (s := C.encode x) rfl (C.encode_ne_nil x)] at hs
      cases hs
  | cons x xs ih =>
    rw [encodeAll_cons, List.append_eq_append_iff] at h
    rcases h with ⟨as, hx, hrest⟩ | ⟨cs, hbs, hrest⟩
    · by_cases has : as = []
      · -- the cut is exactly at the end of the first item
        subst has
        obtain ⟨ys, zs, bs', hxs, hd, hz⟩ := @ih [] (by simpa using hrest)
        refine ⟨x :: ys, zs, bs', by simp [hxs], .next ?_ hd, hz⟩
        have hbs : bs = C.encode x ++ [] := by simpa using hx.symm
        rw [hbs]
        exact C.scan_encode x []
      · -- the cut is inside the first item
        exact ⟨[], x :: xs, bs, rfl, .stop (C.scan_incomplete hx has), by
          rw [hrest, encodeAll_cons, hx, List.append_assoc]⟩
    · obtain ⟨ys, zs, bs', hxs, hd, hz⟩ := ih hrest.symm
      refine ⟨x :: ys, zs, bs', by simp [hxs], .next ?_ hd, hz⟩
      rw [hbs]
      exact C.scan_encode x cs

/-- **The cuts do not matter.**  Feeding the encodings of `xs` in any pieces
delivers exactly `xs`, in order, and leaves nothing pending. -/
theorem feeds_exact {pending last : List α} {pieces : List (List α)} {xss : List (List β)}
    {xs : List β} (hf : C.Feeds pending pieces xss last) (hp : C.scan pending = none)
    (h : pending ++ pieces.flatten = C.encodeAll xs) : xss.flatten = xs ∧ last = [] := by
  induction hf generalizing xs with
  | nil =>
    cases xs with
    | nil => simpa using h
    | cons x xs =>
      rw [List.flatten_nil, List.append_nil, encodeAll_cons] at h
      rw [h, C.scan_encode] at hp
      cases hp
  | @cons pending piece pieces ys yss rest last hd _ ih =>
    have h' : (pending ++ piece) ++ pieces.flatten = C.encodeAll xs := by
      simpa using h
    obtain ⟨ys', zs, rest', rfl, hd', hz⟩ := C.drains_initial h'
    obtain ⟨rfl, rfl⟩ := hd.unique C hd'
    obtain ⟨hzs, hlast⟩ := ih (hd.scan_rest C) hz
    exact ⟨by rw [List.flatten_cons, hzs], hlast⟩

end Framing
