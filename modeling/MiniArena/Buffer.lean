/-
MiniArena/Buffer.lean

The gap buffer of `network/buffer.cpp`: a vector of bytes with a read and a
write position.  Sizes are `size_t`, so the two places that compute a new
capacity (`grow` and its argument) wrap at `2 ^ 64`; the doubling loop of
`grow` need not end, and `growLoop` answers `none` where it does not
(`growLoop_eq_none_iff`).  Allocation itself is taken to succeed.

`Buffer.unread` is the byte string between the two positions.  Under the
representation invariant `Buffer.WF` every operation is described by what it
does to `unread`:

* `ensureWrite` and `compact` leave it alone,
* `write` and `readFromFd` append to it,
* `read`, `skip` and `writeToFd` remove a prefix of it.
-/
import Mathlib

namespace MiniArena

/-- One past the largest `size_t`. -/
def sizeRange : ℕ := 2 ^ 64

/-- The outcome of one `::read` on a socket. -/
inductive ReadResult
  | data (bytes : List UInt8)
  | eof
  | again
  | error
  deriving DecidableEq, Repr

/-- The outcome of one `::write` on a socket. -/
inductive WriteResult
  | accepted (n : ℕ)
  | again
  | error
  deriving DecidableEq, Repr

structure Buffer where
  buf : List UInt8
  readIdx : ℕ
  writeIdx : ℕ
  deriving DecidableEq, Repr

namespace Buffer

/-! ### The operations -/

/-- `Buffer::Buffer(initial)`. -/
def ofInitial (initial : ℕ) : Buffer := ⟨List.replicate (max initial 64) 0, 0, 0⟩

def readable (b : Buffer) : ℕ := b.writeIdx - b.readIdx

def writable (b : Buffer) : ℕ := b.buf.length - b.writeIdx

def capacity (b : Buffer) : ℕ := b.buf.length

/-- The bytes from `readPtr()` to `readPtr() + readable()`. -/
def unread (b : Buffer) : List UInt8 := (b.buf.drop b.readIdx).take b.readable

def reset (b : Buffer) : Buffer := { b with readIdx := 0, writeIdx := 0 }

/-- `memcpy` / `memmove` of `data` to position `at` of the vector. -/
def poke (buf : List UInt8) (pos : ℕ) (data : List UInt8) : List UInt8 :=
  buf.take pos ++ data ++ buf.drop (pos + data.length)

def compact (b : Buffer) : Buffer :=
  if 0 < b.readIdx ∧ 0 < b.readable then
    { buf := poke b.buf 0 b.unread, readIdx := 0, writeIdx := b.readable }
  else if 0 < b.readIdx then b.reset
  else b

/-- `while (new_cap < min_capacity) new_cap *= 2`, for at most `fuel` rounds.
After 64 doublings a `size_t` is `0` and stays `0`, so 64 rounds decide
whether the loop ends. -/
def growLoop : ℕ → ℕ → ℕ → Option ℕ
  | 0, newCap, minCapacity => if newCap < minCapacity then none else some newCap
  | fuel + 1, newCap, minCapacity =>
      if newCap < minCapacity then growLoop fuel (newCap * 2 % sizeRange) minCapacity
      else some newCap

/-- `buf_.resize(new_cap)`. -/
def resize (buf : List UInt8) (n : ℕ) : List UInt8 :=
  buf.take n ++ List.replicate (n - buf.length) 0

def grow (b : Buffer) (minCapacity : ℕ) : Option Buffer :=
  (growLoop 64 (b.buf.length * 2 % sizeRange) minCapacity).map fun newCap =>
    { b with buf := resize b.buf newCap }

def ensureWrite (b : Buffer) (len : ℕ) : Option Buffer :=
  if len ≤ b.writable then some b
  else if len ≤ b.compact.writable then some b.compact
  else b.compact.grow ((b.compact.writeIdx + len) % sizeRange)

/-- `write(data, len)`: the new buffer and the number of bytes written. -/
def write (b : Buffer) (data : List UInt8) : Option (Buffer × ℕ) :=
  if data.length = 0 then some (b, 0)
  else (b.ensureWrite data.length).map fun b =>
    let n := min data.length b.writable
    ({ b with buf := poke b.buf b.writeIdx (data.take n), writeIdx := b.writeIdx + n }, n)

/-- `readFromFd`: `r` is what the kernel answers to the one `::read` call. -/
def readFromFd (b : Buffer) (r : ReadResult) : Option (Buffer × ReadResult) :=
  (b.ensureWrite 4096).map fun b =>
    if b.writable = 0 then (b, .eof)
    else match r with
      | .data bytes =>
          ({ b with buf := poke b.buf b.writeIdx bytes,
                    writeIdx := b.writeIdx + bytes.length }, r)
      | _ => (b, r)

/-- `read(data, len)`: the new buffer and the bytes copied out. -/
def read (b : Buffer) (len : ℕ) : Buffer × List UInt8 :=
  let n := min len b.readable
  let b' := { b with readIdx := b.readIdx + n }
  (if b'.readIdx = b'.writeIdx then b'.reset else b', b.unread.take n)

/-- `writeToFd`: `r` is what the kernel answers to the one `::write` call. -/
def writeToFd (b : Buffer) (r : WriteResult) : Buffer × WriteResult :=
  if b.readable = 0 then (b, .accepted 0)
  else match r with
    | .accepted n =>
        let b' := { b with readIdx := b.readIdx + n }
        (if 0 < n ∧ b'.readIdx = b'.writeIdx then b'.reset else b', r)
    | _ => (b, r)

def skip (b : Buffer) (len : ℕ) : Buffer :=
  let b' := { b with readIdx := b.readIdx + min len b.readable }
  if b'.readIdx = b'.writeIdx then b'.reset else b'

/-! ### The representation invariant -/

/-- The positions are in order and inside the vector, which is not empty. -/
structure WF (b : Buffer) : Prop where
  read_le : b.readIdx ≤ b.writeIdx
  write_le : b.writeIdx ≤ b.buf.length
  capacity_pos : 0 < b.buf.length

variable {b b' : Buffer}

theorem wf_ofInitial (initial : ℕ) : (ofInitial initial).WF where
  read_le := le_refl _
  write_le := Nat.zero_le _
  capacity_pos := by simp [ofInitial]

@[simp] theorem unread_ofInitial (initial : ℕ) : (ofInitial initial).unread = [] := by
  simp [unread, ofInitial, readable]

theorem WF.length_unread (h : b.WF) : b.unread.length = b.readable := by
  have := h.write_le
  have := h.read_le
  simp only [unread, List.length_take, List.length_drop, readable]
  omega

@[simp] theorem readable_reset (b : Buffer) : b.reset.readable = 0 := rfl

@[simp] theorem unread_reset (b : Buffer) : b.reset.unread = [] := by
  simp [unread]

theorem WF.reset (h : b.WF) : b.reset.WF := ⟨le_refl _, Nat.zero_le _, h.capacity_pos⟩

theorem readable_eq_zero_of_eq (h : b.readIdx = b.writeIdx) : b.readable = 0 := by
  simp [readable, h]

theorem unread_eq_nil_of_eq (h : b.readIdx = b.writeIdx) : b.unread = [] := by
  simp [unread, readable_eq_zero_of_eq h]

/-! ### Compaction and growth -/

@[simp] theorem length_poke {buf data : List UInt8} {pos : ℕ}
    (h : pos + data.length ≤ buf.length) : (poke buf pos data).length = buf.length := by
  simp only [poke, List.length_append, List.length_take, List.length_drop]
  omega

theorem compact_spec (h : b.WF) :
    b.compact.WF ∧ b.compact.unread = b.unread ∧ b.compact.buf.length = b.buf.length ∧
      b.compact.readIdx = 0 ∧ b.compact.writeIdx = b.readable := by
  have hlen := h.length_unread
  have hread := h.read_le
  have hwrite := h.write_le
  have hle : 0 + b.unread.length ≤ b.buf.length := by
    rw [hlen, readable]; omega
  unfold compact
  by_cases hpos : 0 < b.readIdx ∧ 0 < b.readable
  · rw [if_pos hpos]
    refine ⟨⟨Nat.zero_le _, ?_, ?_⟩, ?_, length_poke hle, rfl, rfl⟩
    · show b.readable ≤ (poke b.buf 0 b.unread).length
      rw [length_poke hle]
      omega
    · show 0 < (poke b.buf 0 b.unread).length
      rw [length_poke hle]
      exact h.capacity_pos
    · show ((poke b.buf 0 b.unread).drop 0).take b.readable = b.unread
      rw [← hlen]
      simp [poke]
  · rw [if_neg hpos]
    by_cases hread0 : 0 < b.readIdx
    · have hempty : b.readable = 0 := by
        rcases Nat.eq_zero_or_pos b.readable with h0 | h0
        · exact h0
        · exact absurd ⟨hread0, h0⟩ hpos
      have hnil : b.unread = [] := List.eq_nil_of_length_eq_zero (by rw [hlen, hempty])
      rw [if_pos hread0]
      exact ⟨h.reset, by simp [hnil], rfl, rfl, hempty.symm⟩
    · rw [if_neg hread0]
      have hzero : b.readIdx = 0 := by omega
      exact ⟨h, rfl, rfl, hzero, by simp [readable, hzero]⟩

/-- Enough fuel takes the doubling loop to its bound: the result is the start
itself or less than twice the bound. -/
theorem growLoop_spec (fuel : ℕ) {c m : ℕ} (hm : m ≤ 2 ^ 63) (hc : 0 < c)
    (hfuel : m ≤ c * 2 ^ fuel) :
    ∃ c', growLoop fuel c m = some c' ∧ m ≤ c' ∧ c ≤ c' ∧ (c' = c ∨ c' < 2 * m) := by
  induction fuel generalizing c with
  | zero =>
    have hle : m ≤ c := by simpa using hfuel
    exact ⟨c, by simp [growLoop, hle], hle, le_refl _, Or.inl rfl⟩
  | succ fuel ih =>
    by_cases hlt : c < m
    · -- no product wraps: the loop only doubles numbers below `2 ^ 63`
      have hwrap : c * 2 % sizeRange = c * 2 := Nat.mod_eq_of_lt (by rw [sizeRange]; omega)
      obtain ⟨c', hc', hmc, hcc, hcase⟩ := ih (c := c * 2) (by omega) (by
        calc m ≤ c * 2 ^ (fuel + 1) := hfuel
          _ = c * 2 * 2 ^ fuel := by ring)
      refine ⟨c', by simpa [growLoop, hlt, hwrap] using hc', hmc, by omega, Or.inr ?_⟩
      rcases hcase with rfl | hcase
      · omega
      · exact hcase
    · exact ⟨c, by simp [growLoop, hlt], by omega, le_refl _, Or.inl rfl⟩

/-- 64 rounds decide the loop: `growLoop 64` has no result exactly when no
number of doublings reaches the bound. -/
theorem growLoop_eq_none_iff {c m : ℕ} (hc : c < sizeRange) :
    growLoop 64 c m = none ↔ ∀ k, c * 2 ^ k % sizeRange < m := by
  have key : ∀ fuel c, c < sizeRange →
      (growLoop fuel c m = none ↔ ∀ k ≤ fuel, c * 2 ^ k % sizeRange < m) := by
    intro fuel
    induction fuel with
    | zero =>
      intro c hc
      simp [growLoop, Nat.mod_eq_of_lt hc]
    | succ fuel ih =>
      intro c hc
      have hshift : ∀ k, c * 2 % sizeRange * 2 ^ k % sizeRange = c * 2 ^ (k + 1) % sizeRange := by
        intro k
        rw [Nat.mod_mul_mod, pow_succ]
        congr 1
        ring
      have hlt : c * 2 % sizeRange < sizeRange := Nat.mod_lt _ (by simp [sizeRange])
      by_cases h0 : c < m
      · rw [growLoop, if_pos h0, ih _ hlt]
        constructor
        · intro h k hk
          cases k with
          | zero => simpa [Nat.mod_eq_of_lt hc] using h0
          | succ k => rw [← hshift]; exact h k (by omega)
        · intro h k hk
          rw [hshift]
          exact h (k + 1) (by omega)
      · rw [growLoop, if_neg h0]
        constructor
        · intro h; cases h
        · intro h
          have := h 0 (Nat.zero_le _)
          rw [pow_zero, mul_one, Nat.mod_eq_of_lt hc] at this
          exact absurd this h0
  rw [key 64 c hc]
  constructor
  · intro h k
    by_cases hk : k ≤ 64
    · exact h k hk
    · -- from the 64th doubling on the word is zero
      have hzero : ∀ j, 64 ≤ j → c * 2 ^ j % sizeRange = 0 := by
        intro j hj
        obtain ⟨i, rfl⟩ := Nat.exists_eq_add_of_le hj
        rw [sizeRange, pow_add, mul_comm (2 ^ 64), ← mul_assoc]
        exact Nat.mul_mod_left _ _
      rw [hzero k (by omega), ← hzero 64 (le_refl _)]
      exact h 64 (le_refl _)
  · intro h k _
    exact h k

/-- A vector that is not made shorter keeps the unread bytes. -/
theorem resize_spec (h : b.WF) {n : ℕ} (hn : b.buf.length ≤ n) :
    let b' : Buffer := { b with buf := resize b.buf n }
    b'.WF ∧ b'.unread = b.unread ∧ b'.buf.length = n := by
  have hread := h.read_le
  have hwrite := h.write_le
  have hpos := h.capacity_pos
  have hbuf : resize b.buf n = b.buf ++ List.replicate (n - b.buf.length) 0 := by
    rw [resize, List.take_of_length_le hn]
  have hlen : (resize b.buf n).length = n := by
    rw [hbuf, List.length_append, List.length_replicate, Nat.add_sub_cancel' hn]
  refine ⟨⟨hread, ?_, ?_⟩, ?_, hlen⟩
  · show b.writeIdx ≤ (resize b.buf n).length
    rw [hlen]
    exact hwrite.trans hn
  · show 0 < (resize b.buf n).length
    rw [hlen]
    exact hpos.trans_le hn
  · show ((resize b.buf n).drop b.readIdx).take b.readable = b.unread
    have hin : b.readable ≤ (b.buf.drop b.readIdx).length := by
      rw [List.length_drop, readable]
      omega
    rw [hbuf, List.drop_append_of_le_length (hread.trans hwrite),
      List.take_append_of_le_length hin, unread]

/-- **`ensureWrite` makes room and changes nothing else.**  The capacity stays
what it was, is doubled, or is less than twice what was asked for. -/
theorem ensureWrite_spec (h : b.WF) (len : ℕ) (hcap : b.buf.length < 2 ^ 63)
    (hlen : b.readable + len ≤ 2 ^ 63) :
    ∃ b', b.ensureWrite len = some b' ∧ b'.WF ∧ b'.unread = b.unread ∧ len ≤ b'.writable ∧
      (b'.buf.length = b.buf.length ∨
        b.buf.length < b.readable + len ∧
          (b'.buf.length = 2 * b.buf.length ∨ b'.buf.length < 2 * (b.readable + len))) := by
  obtain ⟨hwf, hun, hblen, hr0, hw0⟩ := compact_spec h
  unfold ensureWrite
  by_cases h1 : len ≤ b.writable
  · exact ⟨b, by simp [h1], h, rfl, h1, Or.inl rfl⟩
  · rw [if_neg h1]
    by_cases h2 : len ≤ b.compact.writable
    · exact ⟨b.compact, by simp [h2], hwf, hun, h2, Or.inl hblen⟩
    · rw [if_neg h2]
      have hshort : b.buf.length < b.readable + len := by
        have := hwf.write_le
        simp only [writable, hblen, hw0] at h2
        omega
      have hpos := h.capacity_pos
      have hmin : (b.compact.writeIdx + len) % sizeRange = b.readable + len := by
        rw [hw0]
        exact Nat.mod_eq_of_lt (by rw [sizeRange]; omega)
      have hstart : b.compact.buf.length * 2 % sizeRange = b.buf.length * 2 := by
        rw [hblen]
        exact Nat.mod_eq_of_lt (by rw [sizeRange]; omega)
      -- compacting does not make enough room: the loop doubles the size until it does
      obtain ⟨c, hc, hmc, hcc, hcase⟩ :=
        growLoop_spec 64 (c := b.buf.length * 2) hlen (by omega) (by
          calc b.readable + len ≤ 2 ^ 63 := hlen
            _ ≤ 1 * 2 ^ 64 := by norm_num
            _ ≤ b.buf.length * 2 * 2 ^ 64 := Nat.mul_le_mul_right _ (by omega))
      obtain ⟨hwf', hun', hres⟩ := @resize_spec b.compact hwf c (by omega)
      refine ⟨{ b.compact with buf := resize b.compact.buf c }, ?_, hwf', hun'.trans hun, ?_,
        Or.inr ⟨hshort, ?_⟩⟩
      · rw [hmin, grow, hstart, hc]
        rfl
      · show len ≤ (resize b.compact.buf c).length - b.compact.writeIdx
        rw [hres, hw0]
        omega
      · show (resize b.compact.buf c).length = 2 * b.buf.length ∨
          (resize b.compact.buf c).length < 2 * (b.readable + len)
        rw [hres]
        rcases hcase with rfl | hcase
        · left; ring
        · right; exact hcase

theorem le_growLoop {fuel c m c' : ℕ} (h : growLoop fuel c m = some c') : m ≤ c' := by
  induction fuel generalizing c with
  | zero =>
    rw [growLoop] at h
    split at h
    · cases h
    · obtain rfl := Option.some.inj h
      omega
  | succ fuel ih =>
    rw [growLoop] at h
    split at h
    · exact ih h
    · obtain rfl := Option.some.inj h
      omega

/-- Where `ensureWrite` ends, it has made room and changed nothing else, whatever the capacity. -/
theorem ensureWrite_keeps (h : b.WF) {len : ℕ} (hcap : b.buf.length < 2 ^ 63) (hlen : len ≤ 2 ^ 63)
    (hb : b.ensureWrite len = some b') : b'.WF ∧ b'.unread = b.unread ∧ len ≤ b'.writable := by
  obtain ⟨hwf, hun, hblen, hr0, hw0⟩ := compact_spec h
  unfold ensureWrite at hb
  split at hb
  · rename_i hroom
    obtain rfl := Option.some.inj hb
    exact ⟨h, rfl, hroom⟩
  rename_i hshort
  split at hb
  · rename_i hroom
    obtain rfl := Option.some.inj hb
    exact ⟨hwf, hun, hroom⟩
  rename_i hshort'
  obtain ⟨newCap, hgrow, rfl⟩ := Option.map_eq_some_iff.mp hb
  have hwrite := hwf.write_le
  rw [hblen] at hwrite
  have hle : b.compact.writeIdx + len ≤ newCap := by
    have := le_growLoop hgrow
    rwa [Nat.mod_eq_of_lt (by rw [sizeRange]; omega)] at this
  have hlonger : b.compact.buf.length ≤ newCap := by
    rw [writable] at hshort'
    omega
  obtain ⟨hwf', hun', hres⟩ := resize_spec hwf hlonger
  refine ⟨hwf', hun'.trans hun, ?_⟩
  show len ≤ (resize b.compact.buf newCap).length - b.compact.writeIdx
  rw [hres]
  omega

/-! ### Appending -/

/-- Writing `data` at the write position appends it to the unread bytes. -/
theorem append_spec (h : b.WF) {data : List UInt8} (hfit : data.length ≤ b.writable) :
    let b' := { b with buf := poke b.buf b.writeIdx data, writeIdx := b.writeIdx + data.length }
    b'.WF ∧ b'.unread = b.unread ++ data ∧ b'.buf.length = b.buf.length := by
  have hread := h.read_le
  have hwrite := h.write_le
  have hend : b.writeIdx + data.length ≤ b.buf.length := by
    simp only [writable] at hfit; omega
  have hlen := length_poke hend
  refine ⟨⟨?_, ?_, ?_⟩, ?_, hlen⟩
  · show b.readIdx ≤ b.writeIdx + data.length
    omega
  · show b.writeIdx + data.length ≤ (poke b.buf b.writeIdx data).length
    rw [hlen]; exact hend
  · show 0 < (poke b.buf b.writeIdx data).length
    rw [hlen]; exact h.capacity_pos
  · -- the bytes before the write position stay, the new ones follow them
    have hsum : b.writeIdx + data.length - b.readIdx = b.readable + data.length := by
      simp only [readable]; omega
    have hfront : (b.buf.take b.writeIdx).drop b.readIdx = b.unread := by
      rw [unread, readable, List.drop_take]
    have hfl : ((b.buf.take b.writeIdx).drop b.readIdx).length = b.readable := by
      rw [hfront, h.length_unread]
    show ((poke b.buf b.writeIdx data).drop b.readIdx).take
      (b.writeIdx + data.length - b.readIdx) = b.unread ++ data
    rw [hsum, poke, List.append_assoc, List.drop_append_of_le_length (by
        simp only [List.length_take]; omega),
      List.take_append, hfl, Nat.add_sub_cancel_left, hfront,
      List.take_of_length_le (by rw [h.length_unread]; omega), List.take_left]

/-- A write that finds room, or can make some, appends all of `data`. -/
theorem write_spec (h : b.WF) (data : List UInt8) (hcap : b.buf.length < 2 ^ 63)
    (hlen : b.readable + data.length ≤ 2 ^ 63) :
    ∃ b', b.write data = some (b', data.length) ∧ b'.WF ∧ b'.unread = b.unread ++ data ∧
      (b'.buf.length = b.buf.length ∨ b'.buf.length < 2 * (b.readable + data.length)) := by
  unfold write
  split
  · rename_i hnil
    obtain rfl := List.eq_nil_of_length_eq_zero hnil
    exact ⟨b, rfl, h, (List.append_nil _).symm, Or.inl rfl⟩
  · obtain ⟨b₁, hb₁, hwf₁, hun₁, hroom, hgrow⟩ := ensureWrite_spec h data.length hcap hlen
    obtain ⟨hwf₂, hun₂, hcap₂⟩ := append_spec hwf₁ hroom
    refine ⟨_, ?_, hwf₂, hun₂.trans (by rw [hun₁]), ?_⟩
    · simp only [hb₁, Option.map_some, min_eq_left hroom, List.take_length]
    · rw [hcap₂]
      omega

/-! ### Removing -/

/-- Advancing the read position, then resetting both if nothing is left. -/
theorem advance_spec (h : b.WF) {n : ℕ} (hn : n ≤ b.readable) :
    let b' := { b with readIdx := b.readIdx + n }
    let b'' := if b'.readIdx = b'.writeIdx then b'.reset else b'
    b''.WF ∧ b''.unread = b.unread.drop n ∧ b''.buf.length = b.buf.length := by
  have hread := h.read_le
  have hwf : ({ b with readIdx := b.readIdx + n } : Buffer).WF := by
    refine ⟨?_, h.write_le, h.capacity_pos⟩
    show b.readIdx + n ≤ b.writeIdx
    simp only [readable] at hn
    omega
  have hun : ({ b with readIdx := b.readIdx + n } : Buffer).unread = b.unread.drop n := by
    simp only [unread, readable, List.drop_take, List.drop_drop]
    congr 1
    omega
  by_cases heq : b.readIdx + n = b.writeIdx
  · simp only [heq, if_true]
    rw [← heq]
    refine ⟨hwf.reset, ?_, rfl⟩
    rw [unread_reset, ← hun, unread_eq_nil_of_eq heq]
  · simp only [heq, if_false]
    exact ⟨hwf, hun, trivial⟩

theorem skip_spec (h : b.WF) (len : ℕ) (hlen : len ≤ b.readable) :
    (b.skip len).WF ∧ (b.skip len).unread = b.unread.drop len ∧
      (b.skip len).buf.length = b.buf.length := by
  have := advance_spec h (n := min len b.readable) (min_le_right _ _)
  rw [min_eq_left hlen] at this
  simpa [skip, min_eq_left hlen] using this

theorem read_spec (h : b.WF) (len : ℕ) (hlen : len ≤ b.readable) :
    (b.read len).1.WF ∧ (b.read len).1.unread = b.unread.drop len ∧
      (b.read len).1.buf.length = b.buf.length ∧ (b.read len).2 = b.unread.take len := by
  have := advance_spec h (n := min len b.readable) (min_le_right _ _)
  rw [min_eq_left hlen] at this
  simpa [read, min_eq_left hlen, and_assoc] using this

/-- A partial write removes what the kernel accepted. -/
theorem writeToFd_spec (h : b.WF) {n : ℕ} (hn : n ≤ b.readable) :
    (b.writeToFd (.accepted n)).1.WF ∧ (b.writeToFd (.accepted n)).1.unread = b.unread.drop n ∧
      (b.writeToFd (.accepted n)).1.buf.length = b.buf.length := by
  unfold writeToFd
  by_cases hzero : b.readable = 0
  · obtain rfl : n = 0 := by omega
    rw [if_pos hzero]
    exact ⟨h, rfl, rfl⟩
  · rw [if_neg hzero]
    have hadv := advance_spec h hn
    dsimp only at hadv ⊢
    -- with nothing accepted the positions still differ, so both tests fail
    have htest : (0 < n ∧ b.readIdx + n = b.writeIdx) ↔ b.readIdx + n = b.writeIdx := by
      simp only [readable] at hzero
      constructor
      · exact fun h => h.2
      · intro h
        exact ⟨by omega, h⟩
    simpa only [htest] using hadv

/-- Without an answer from the kernel the buffer stays as it is. -/
theorem writeToFd_of_refused {r : WriteResult} (hr : ∀ n, r ≠ .accepted n) :
    (b.writeToFd r).1 = b := by
  unfold writeToFd
  split
  · rfl
  · cases r with
    | accepted n => exact absurd rfl (hr n)
    | again => rfl
    | error => rfl

end Buffer

end MiniArena
