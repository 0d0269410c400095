/-
MiniArena/BufferGrowth.lean

The arithmetic of `Buffer::grow`.

`products` are the numbers the call of `grow` computes, before they are
reduced to a `size_t`: the double of the capacity, and one for every round of
the loop.  The loop doubles only numbers below its bound, so up to a bound of
`2 ^ 63` none of them is `2 ^ 64` or more (`products_lt`), and the capacity
becomes the last of them.

`Occurs` are the calls on a buffer whose capacity a vector can have, with a
kernel that transfers no more than it is offered; what is asked for may be any
number.  They keep the positions inside the vector (`Occurs.wf`).

Main result (`ensureWrite_growth`): after any run of such calls on a new
buffer, `ensureWrite` returns with the room that was asked for.
-/
import MiniArena.BufferQueue

namespace MiniArena

namespace Buffer

/-! ### The calls, and the products of `grow` -/

/-- The kernel reads at most the space and writes at most the bytes it is offered. -/
def Honest (b : Buffer) : Call → Prop
  | .readFromFd r => ∀ b', b.ensureWrite 4096 = some b' → (given r).length ≤ b'.writable
  | .writeToFd (.accepted n) => n ≤ b.readable
  | _ => True

/-- No vector of bytes is longer than `2 ^ 63 - 1`. -/
def Occurs (b : Buffer) (a : Call × Answer) (b' : Buffer) : Prop :=
  b.capacity < 2 ^ 63 ∧ b.Honest a.1 ∧ b.perform a.1 = some (b', a.2)

/-- `ensureWrite(len)` gets as far as the call of `grow`. -/
def Grows (b : Buffer) (len : ℕ) : Prop := b.writable < len ∧ b.compact.writable < len

/-- The products of `growLoop`, round by round. -/
def loopProducts : ℕ → ℕ → ℕ → List ℕ
  | 0, _, _ => []
  | fuel + 1, newCap, minCapacity =>
      if newCap < minCapacity then
        newCap * 2 :: loopProducts fuel (newCap * 2 % sizeRange) minCapacity
      else []

/-- The products of `grow(min_capacity)`. -/
def products (b : Buffer) (minCapacity : ℕ) : List ℕ :=
  b.capacity * 2 :: loopProducts 64 (b.capacity * 2 % sizeRange) minCapacity

variable {b b' : Buffer}

/-! ### No product wraps -/

/-- A round doubles a number below the bound. -/
theorem loopProducts_lt {fuel c m : ℕ} (hm : m ≤ 2 ^ 63) :
    ∀ p ∈ loopProducts fuel c m, p < sizeRange := by
  induction fuel generalizing c with
  | zero =>
    intro p hp
    cases hp
  | succ fuel ih =>
    intro p hp
    rw [loopProducts] at hp
    split at hp
    · rename_i hlt
      rcases List.mem_cons.mp hp with rfl | hp
      · rw [sizeRange]
        omega
      · exact ih p hp
    · cases hp

theorem products_lt (hcap : b.capacity < 2 ^ 63) {m : ℕ} (hm : m ≤ 2 ^ 63) :
    ∀ p ∈ b.products m, p < sizeRange := by
  intro p hp
  rcases List.mem_cons.mp hp with rfl | hp
  · rw [sizeRange]
    omega
  · exact loopProducts_lt hm p hp

/-- The loop ends with the last product, if none of them wraps. -/
theorem growLoop_eq_getLast {fuel c m c' : ℕ} (hm : m ≤ 2 ^ 63) (h : growLoop fuel c m = some c') :
    (c :: loopProducts fuel c m).getLast? = some c' := by
  induction fuel generalizing c with
  | zero =>
    rw [growLoop] at h
    split at h
    · cases h
    · exact h
  | succ fuel ih =>
    rw [growLoop] at h
    rw [loopProducts]
    split
    · rename_i hlt
      rw [if_pos hlt] at h
      have hwrap : c * 2 % sizeRange = c * 2 := Nat.mod_eq_of_lt (by rw [sizeRange]; omega)
      rw [hwrap] at h ⊢
      rw [List.getLast?_cons_cons]
      exact ih h
    · rename_i hge
      rw [if_neg hge] at h
      exact h

/-- The loop does not end below its start, even where it wraps. -/
theorem start_le_growLoop {fuel c m c' : ℕ} (h : growLoop fuel c m = some c') : c ≤ c' := by
  have hm := le_growLoop h
  rcases lt_or_ge c m with hlt | hge
  · exact hlt.le.trans hm
  · have hstart : growLoop fuel c m = some c := by
      cases fuel with
      | zero => exact if_neg (not_lt.mpr hge)
      | succ fuel => exact if_neg (not_lt.mpr hge)
    exact (Option.some.inj (hstart.symm.trans h)).le

/-! ### The buffers that can be reached -/

/-- Where `ensureWrite` returns, whatever was asked for, the vector is no
shorter than it was and the unread bytes are the same. -/
theorem ensureWrite_wf (h : b.WF) (hcap : b.capacity < 2 ^ 63) {len : ℕ}
    (hb : b.ensureWrite len = some b') : b'.WF ∧ b'.unread = b.unread := by
  obtain ⟨hwf, hun, hblen, -⟩ := compact_spec h
  unfold ensureWrite at hb
  split at hb
  · obtain rfl := Option.some.inj hb
    exact ⟨h, rfl⟩
  split at hb
  · obtain rfl := Option.some.inj hb
    exact ⟨hwf, hun⟩
  obtain ⟨newCap, hgrow, rfl⟩ := Option.map_eq_some_iff.mp hb
  have hle := start_le_growLoop hgrow
  rw [hblen, Nat.mod_eq_of_lt (by rw [capacity] at hcap; rw [sizeRange]; omega)] at hle
  obtain ⟨hwf', hun', -⟩ := @resize_spec b.compact hwf newCap (by omega)
  exact ⟨hwf', hun'.trans hun⟩

theorem wf_write (h : b.WF) (hcap : b.capacity < 2 ^ 63) {data : List UInt8} {n : ℕ}
    (hb : b.write data = some (b', n)) : b'.WF := by
  unfold write at hb
  split at hb
  · obtain ⟨rfl, -⟩ := Prod.mk.injEq .. ▸ Option.some.inj hb
    exact h
  · obtain ⟨b₁, hb₁, heq⟩ := Option.map_eq_some_iff.mp hb
    obtain ⟨rfl, -⟩ := Prod.mk.injEq .. ▸ heq
    have hwf₁ := (ensureWrite_wf h hcap hb₁).1
    -- the bytes that are copied are those there is room for
    have hlen : (data.take (min data.length b₁.writable)).length = min data.length b₁.writable := by
      rw [List.length_take, min_eq_left (min_le_left _ _)]
    have hroom : (data.take (min data.length b₁.writable)).length ≤ b₁.writable := by
      rw [hlen]
      exact min_le_right _ _
    have hwf := (append_spec hwf₁ hroom).1
    rw [hlen] at hwf
    exact hwf

theorem wf_readFromFd (h : b.WF) (hcap : b.capacity < 2 ^ 63) {r r' : ReadResult}
    (hhonest : b.Honest (.readFromFd r)) (hb : b.readFromFd r = some (b', r')) : b'.WF := by
  obtain ⟨b₁, hb₁, heq⟩ := Option.map_eq_some_iff.mp hb
  have hwf₁ := (ensureWrite_wf h hcap hb₁).1
  have hroom := hhonest b₁ hb₁
  split at heq
  · obtain ⟨rfl, -⟩ := Prod.mk.injEq .. ▸ heq
    exact hwf₁
  · cases r with
    | data bytes =>
      obtain ⟨rfl, -⟩ := Prod.mk.injEq .. ▸ heq
      exact (append_spec hwf₁ hroom).1
    | eof | again | error =>
      obtain ⟨rfl, -⟩ := Prod.mk.injEq .. ▸ heq
      exact hwf₁

/-- **One call** keeps the positions in order and inside the vector. -/
theorem Occurs.wf {a : Call × Answer} (h : b.WF) (hstep : b.Occurs a b') : b'.WF := by
  obtain ⟨hcap, hhonest, hperform⟩ := hstep
  rcases a with ⟨c, answer⟩
  cases c with
  | write data =>
    obtain ⟨⟨b₁, n⟩, hb₁, heq⟩ := Option.map_eq_some_iff.mp hperform
    obtain ⟨rfl, -⟩ := Prod.mk.injEq .. ▸ heq
    exact wf_write h hcap hb₁
  | read len =>
    obtain ⟨rfl, -⟩ := Prod.mk.injEq .. ▸ Option.some.inj hperform
    exact (read_all h len).1
  | skip len =>
    obtain ⟨rfl, -⟩ := Prod.mk.injEq .. ▸ Option.some.inj hperform
    exact (skip_all h len).1
  | compact =>
    obtain ⟨rfl, -⟩ := Prod.mk.injEq .. ▸ Option.some.inj hperform
    exact (compact_spec h).1
  | ensureWrite len =>
    obtain ⟨b₁, hb₁, heq⟩ := Option.map_eq_some_iff.mp hperform
    obtain ⟨rfl, -⟩ := Prod.mk.injEq .. ▸ heq
    exact (ensureWrite_wf h hcap hb₁).1
  | reset =>
    obtain ⟨rfl, -⟩ := Prod.mk.injEq .. ▸ Option.some.inj hperform
    exact h.reset
  | readFromFd r =>
    obtain ⟨⟨b₁, r'⟩, hb₁, heq⟩ := Option.map_eq_some_iff.mp hperform
    obtain ⟨rfl, -⟩ := Prod.mk.injEq .. ▸ heq
    exact wf_readFromFd h hcap hhonest hb₁
  | writeToFd r =>
    obtain ⟨rfl, -⟩ := Prod.mk.injEq .. ▸ Option.some.inj hperform
    apply (writeToFd_of_fits h _).1
    cases r with
    | accepted n => exact hhonest
    | again => trivial
    | error => trivial

/-! ### Growing a buffer that has been reached -/

/-- Where the room is there, no bound on what is asked for is needed. -/
theorem readable_add_le (h : b.WF) (hcap : b.capacity < 2 ^ 63) {len : ℕ}
    (hgrow : b.Grows len → b.compact.writeIdx + len ≤ 2 ^ 63) : b.readable + len ≤ 2 ^ 63 := by
  obtain ⟨-, -, hblen, -, hw0⟩ := compact_spec h
  have hwrite := h.write_le
  have hread := h.read_le
  rw [capacity] at hcap
  by_cases hroom : b.writable < len
  · by_cases hroom' : b.compact.writable < len
    · rw [← hw0]
      exact hgrow ⟨hroom, hroom'⟩
    · rw [writable, hblen, hw0, readable] at hroom'
      rw [readable]
      omega
  · rw [writable] at hroom
    rw [readable]
    omega

/-- The capacity after `grow` is the last product. -/
theorem capacity_of_grows (h : b.WF) (hcap : b.capacity < 2 ^ 63) {len : ℕ} (hgrows : b.Grows len)
    (hlen : b.compact.writeIdx + len ≤ 2 ^ 63) (hb : b.ensureWrite len = some b') :
    (b.products (b.compact.writeIdx + len)).getLast? = some b'.capacity := by
  obtain ⟨hwf, -, hblen, -⟩ := compact_spec h
  have hmin : (b.compact.writeIdx + len) % sizeRange = b.compact.writeIdx + len :=
    Nat.mod_eq_of_lt (by rw [sizeRange]; omega)
  have hstart : b.capacity * 2 % sizeRange = b.capacity * 2 :=
    Nat.mod_eq_of_lt (by rw [sizeRange]; omega)
  rw [ensureWrite, if_neg (not_le.mpr hgrows.1), if_neg (not_le.mpr hgrows.2), hmin] at hb
  obtain ⟨newCap, hloop, rfl⟩ := Option.map_eq_some_iff.mp hb
  have hcompact : b.compact.buf.length * 2 % sizeRange = b.capacity * 2 := by
    rw [hblen]
    exact hstart
  rw [hcompact] at hloop
  have hle := start_le_growLoop hloop
  have hlength := (@resize_spec b.compact hwf newCap (by rw [hblen]; rw [capacity] at hle; omega)).2.2
  rw [products, hstart, growLoop_eq_getLast hlen hloop]
  exact congrArg some hlength.symm

/-- **Growing a buffer.**  After any run of calls on a new buffer, with any
initial capacity, and for every `len` that keeps the argument of `grow` at
`2 ^ 63` or below: no product of `grow` wraps, `ensureWrite` returns, and
there is room for `len` bytes behind the unread ones.  The capacity is the
same, or the last product: it is doubled, or less than twice the argument. -/
theorem ensureWrite_growth {initial : ℕ} {calls : List (Call × Answer)}
    (hrun : Transition.Run Occurs (ofInitial initial) calls b) (hcap : b.capacity < 2 ^ 63)
    (len : ℕ) (hlen : b.Grows len → b.compact.writeIdx + len ≤ 2 ^ 63) :
    (b.Grows len → ∀ p ∈ b.products (b.compact.writeIdx + len), p < sizeRange) ∧
      ∃ b', b.ensureWrite len = some b' ∧ len ≤ b'.writable ∧ b'.unread = b.unread ∧
        (b.Grows len →
          (b.products (b.compact.writeIdx + len)).getLast? = some b'.capacity) ∧
        (b'.capacity = b.capacity ∨ b'.capacity = 2 * b.capacity ∨
          b'.capacity < 2 * (b.compact.writeIdx + len)) := by
  have hwf : b.WF := hrun.invariant (fun _ _ _ h hstep => hstep.wf h) (wf_ofInitial initial)
  obtain ⟨b', hb', -, hun, hroom, hsize⟩ :=
    ensureWrite_spec hwf len hcap (readable_add_le hwf hcap hlen)
  have hw0 := (compact_spec hwf).2.2.2.2
  refine ⟨fun hgrows => products_lt hcap (hlen hgrows), b', hb', hroom, hun, ?_, ?_⟩
  · intro hgrows
    exact capacity_of_grows hwf hcap hgrows (hlen hgrows) hb'
  · rw [hw0]
    rcases hsize with hsame | ⟨-, hdouble | hless⟩
    · exact Or.inl hsame
    · exact Or.inr (Or.inl hdouble)
    · exact Or.inr (Or.inr hless)

/-- Behind three bytes there is no room for 200: the 64 bytes become 128, and then 256. -/
theorem ensureWrite_growth_to_256 : ∃ b b' : Buffer,
    Transition.Run Occurs (ofInitial 0) [(.write [1, 2, 3], .written 3)] b ∧
      b.Grows 200 ∧ b.compact.writeIdx + 200 ≤ 2 ^ 63 ∧ b.products 203 = [128, 256] ∧
      b.ensureWrite 200 = some b' ∧ 200 ≤ b'.writable ∧ b'.capacity = 256 := by
  have hrun : Transition.Run Occurs (ofInitial 0) [(.write [1, 2, 3], .written 3)]
      ⟨1 :: 2 :: 3 :: List.replicate 61 0, 0, 3⟩ :=
    .single ⟨show 64 < 2 ^ 63 by norm_num, trivial, rfl⟩
  have hlen : 3 + 200 ≤ 2 ^ 63 := by norm_num
  obtain ⟨-, b', hb', hroom, -, hlast, -⟩ :=
    ensureWrite_growth hrun (show 64 < 2 ^ 63 by norm_num) 200 fun _ => hlen
  have hgrows : Grows ⟨1 :: 2 :: 3 :: List.replicate 61 0, 0, 3⟩ 200 := ⟨by decide, by decide⟩
  have hproducts : products ⟨1 :: 2 :: 3 :: List.replicate 61 0, 0, 3⟩ 203 = [128, 256] := by
    decide
  have hcapacity : (products ⟨1 :: 2 :: 3 :: List.replicate 61 0, 0, 3⟩ 203).getLast?
      = some b'.capacity := hlast hgrows
  rw [hproducts] at hcapacity
  exact ⟨_, b', hrun, hgrows, hlen, hproducts, hb', hroom, (Option.some.inj hcapacity).symm⟩

end Buffer

end MiniArena
