/-
MiniArena/BufferQueue.lean

The buffer as a byte queue.

`Buffer.Call` is a call on the buffer, with the kernel's answer where it makes
a system call, and `Answer` is what it hands back: the number it returns, or
the bytes that leave the buffer.  `Fits` says which calls are considered: the
bytes that are there and the room that is asked for are at most `2 ^ 63`
together, and the kernel transfers no more than it is offered.

`ByteQueue.perform` says what the same calls mean on a plain list of bytes.

Main result (`run_steps`): every run of calls on a new buffer is, seen through
`unread`, a run on the empty queue with the same answers.  No bound on the
capacity is needed: a buffer of more than `2 ^ 63` bytes never grows
(`ensureWrite_of_fits`).
-/
import MiniArena.Buffer
import MiniArena.Transition

namespace MiniArena

namespace Buffer

/-! ### Calls and answers -/

inductive Call
  | write (data : List UInt8)
  | read (len : ℕ)
  | skip (len : ℕ)
  | compact
  | ensureWrite (len : ℕ)
  | reset
  | readFromFd (r : ReadResult)
  | writeToFd (r : WriteResult)
  deriving DecidableEq, Repr

inductive Answer
  | done
  | written (n : ℕ)
  | bytes (data : List UInt8)
  | received (r : ReadResult)
  | sent (r : WriteResult) (data : List UInt8)
  deriving DecidableEq, Repr

/-- What the kernel takes of the bytes it is offered. -/
def taken (offered : List UInt8) : WriteResult → List UInt8
  | .accepted n => offered.take n
  | .again => []
  | .error => []

/-- What the kernel puts into the buffer. -/
def given : ReadResult → List UInt8
  | .data bytes => bytes
  | .eof => []
  | .again => []
  | .error => []

def perform (b : Buffer) : Call → Option (Buffer × Answer)
  | .write data => (b.write data).map fun p => (p.1, .written p.2)
  | .read len => some ((b.read len).1, .bytes (b.read len).2)
  | .skip len => some (b.skip len, .done)
  | .compact => some (b.compact, .done)
  | .ensureWrite len => (b.ensureWrite len).map fun b => (b, .done)
  | .reset => some (b.reset, .done)
  | .readFromFd r => (b.readFromFd r).map fun p => (p.1, .received p.2)
  | .writeToFd r => some ((b.writeToFd r).1, .sent (b.writeToFd r).2 (taken b.unread r))

/-- The sizes are at most `2 ^ 63`, and the kernel reads at most the space and
writes at most the bytes it is offered. -/
def Fits (b : Buffer) : Call → Prop
  | .write data => b.readable + data.length ≤ 2 ^ 63
  | .ensureWrite len => b.readable + len ≤ 2 ^ 63
  | .readFromFd r => b.readable + 4096 ≤ 2 ^ 63 ∧
      ∀ b', b.ensureWrite 4096 = some b' → (given r).length ≤ b'.writable
  | .writeToFd (.accepted n) => n ≤ b.readable
  | _ => True

def Steps (b : Buffer) (a : Call × Answer) (b' : Buffer) : Prop :=
  b.Fits a.1 ∧ b.perform a.1 = some (b', a.2)

end Buffer

/-! ### The queue -/

namespace ByteQueue

open Buffer

/-- The calls on a list of bytes, oldest first. -/
def perform (q : List UInt8) : Call → List UInt8 × Answer
  | .write data => (q ++ data, .written data.length)
  | .read len => (q.drop len, .bytes (q.take len))
  | .skip len => (q.drop len, .done)
  | .compact => (q, .done)
  | .ensureWrite _ => (q, .done)
  | .reset => ([], .done)
  | .readFromFd r => (q ++ given r, .received r)
  | .writeToFd r =>
      (q.drop (taken q r).length, .sent (if q = [] then .accepted 0 else r) (taken q r))

def Steps (q : List UInt8) (a : Call × Answer) (q' : List UInt8) : Prop :=
  perform q a.1 = (q', a.2)

end ByteQueue

namespace Buffer

variable {b b' : Buffer}

/-! ### One call -/

/-- Where the bytes there and the room asked for are at most `2 ^ 63`, the call
returns, whatever the capacity: it only grows a buffer that is smaller. -/
theorem ensureWrite_of_fits (h : b.WF) {len : ℕ} (hlen : b.readable + len ≤ 2 ^ 63) :
    ∃ b', b.ensureWrite len = some b' ∧ b'.WF ∧ b'.unread = b.unread ∧ len ≤ b'.writable := by
  by_cases hcap : b.buf.length < 2 ^ 63
  · obtain ⟨b', hb', hwf, hun, hroom, -⟩ := ensureWrite_spec h len hcap hlen
    exact ⟨b', hb', hwf, hun, hroom⟩
  · obtain ⟨hwf, hun, hblen, -, hw0⟩ := compact_spec h
    have hroom : len ≤ b.compact.writable := by
      rw [writable, hblen, hw0]
      omega
    by_cases h1 : len ≤ b.writable
    · exact ⟨b, by rw [ensureWrite, if_pos h1], h, rfl, h1⟩
    · exact ⟨b.compact, by rw [ensureWrite, if_neg h1, if_pos hroom], hwf, hun, hroom⟩

theorem write_of_fits (h : b.WF) {data : List UInt8} (hlen : b.readable + data.length ≤ 2 ^ 63) :
    ∃ b', b.write data = some (b', data.length) ∧ b'.WF ∧ b'.unread = b.unread ++ data := by
  unfold write
  split
  · rename_i hnil
    obtain rfl := List.eq_nil_of_length_eq_zero hnil
    exact ⟨b, rfl, h, (List.append_nil _).symm⟩
  · obtain ⟨b₁, hb₁, hwf₁, hun₁, hroom⟩ := ensureWrite_of_fits h hlen
    obtain ⟨hwf₂, hun₂, -⟩ := append_spec hwf₁ hroom
    refine ⟨_, ?_, hwf₂, hun₂.trans (by rw [hun₁])⟩
    simp only [hb₁, Option.map_some, min_eq_left hroom, List.take_length]

/-- A read of the socket always has space, so the kernel is asked. -/
theorem readFromFd_of_fits (h : b.WF) {r : ReadResult} (hlen : b.readable + 4096 ≤ 2 ^ 63)
    (hspace : ∀ b', b.ensureWrite 4096 = some b' → (given r).length ≤ b'.writable) :
    ∃ b', b.readFromFd r = some (b', r) ∧ b'.WF ∧ b'.unread = b.unread ++ given r := by
  obtain ⟨b₁, hb₁, hwf₁, hun₁, hroom⟩ := ensureWrite_of_fits h hlen
  have hpos : b₁.writable ≠ 0 := by omega
  have hfit := hspace b₁ hb₁
  rw [readFromFd, hb₁, Option.map_some, if_neg hpos]
  cases r with
  | data bytes =>
    obtain ⟨hwf₂, hun₂, -⟩ := append_spec hwf₁ hfit
    exact ⟨_, rfl, hwf₂, hun₂.trans (by rw [hun₁])⟩
  | eof => exact ⟨b₁, rfl, hwf₁, hun₁.trans (List.append_nil _).symm⟩
  | again => exact ⟨b₁, rfl, hwf₁, hun₁.trans (List.append_nil _).symm⟩
  | error => exact ⟨b₁, rfl, hwf₁, hun₁.trans (List.append_nil _).symm⟩

/-- Asking for more than there is gives all there is. -/
theorem read_all (h : b.WF) (len : ℕ) :
    (b.read len).1.WF ∧ (b.read len).1.unread = b.unread.drop len ∧
      (b.read len).2 = b.unread.take len := by
  obtain ⟨hwf, hun, -⟩ := advance_spec h (n := min len b.readable) (min_le_right _ _)
  have hlen := h.length_unread
  refine ⟨hwf, hun.trans ?_, ?_⟩
  · rw [← hlen, ← List.drop_eq_drop_min]
  · show b.unread.take (min len b.readable) = b.unread.take len
    rw [← hlen, ← List.take_eq_take_min]

theorem skip_all (h : b.WF) (len : ℕ) :
    (b.skip len).WF ∧ (b.skip len).unread = b.unread.drop len := by
  obtain ⟨hwf, hun, -⟩ := read_all h len
  exact ⟨hwf, hun⟩

theorem length_taken {offered : List UInt8} {n : ℕ} (hn : n ≤ offered.length) :
    (taken offered (.accepted n)).length = n := by
  rw [taken, List.length_take, min_eq_left hn]

/-- What the kernel takes leaves the buffer; an empty buffer makes no call. -/
theorem writeToFd_of_fits (h : b.WF) {r : WriteResult} (hfit : b.Fits (.writeToFd r)) :
    (b.writeToFd r).1.WF ∧ (b.writeToFd r).1.unread = b.unread.drop (taken b.unread r).length ∧
      (b.writeToFd r).2 = if b.unread = [] then .accepted 0 else r := by
  have hlen := h.length_unread
  have hnil : b.unread = [] ↔ b.readable = 0 := by
    rw [← hlen, List.length_eq_zero_iff]
  have hanswer : (b.writeToFd r).2 = if b.unread = [] then .accepted 0 else r := by
    simp only [hnil]
    unfold writeToFd
    split
    · rfl
    · cases r <;> rfl
  cases r with
  | accepted n =>
    have hn : n ≤ b.readable := hfit
    obtain ⟨hwf, hun, -⟩ := writeToFd_spec h hn
    refine ⟨hwf, ?_, hanswer⟩
    rw [length_taken (by rw [hlen]; exact hn)]
    exact hun
  | again =>
    rw [writeToFd_of_refused (by rintro n ⟨⟩)]
    exact ⟨h, rfl, hanswer⟩
  | error =>
    rw [writeToFd_of_refused (by rintro n ⟨⟩)]
    exact ⟨h, rfl, hanswer⟩

/-- **One call.**  It returns, keeps the positions in order and inside the
vector, and does to the unread bytes what it does to a queue. -/
theorem perform_spec (h : b.WF) {c : Call} (hfit : b.Fits c) :
    ∃ b' a, b.perform c = some (b', a) ∧ b'.WF ∧ ByteQueue.perform b.unread c = (b'.unread, a) := by
  cases c with
  | write data =>
    obtain ⟨b', hb', hwf, hun⟩ := write_of_fits h hfit
    exact ⟨b', _, by rw [perform, hb']; rfl, hwf, by rw [ByteQueue.perform, hun]⟩
  | read len =>
    obtain ⟨hwf, hun, hout⟩ := read_all h len
    exact ⟨_, _, rfl, hwf, by rw [ByteQueue.perform, hun, hout]⟩
  | skip len =>
    obtain ⟨hwf, hun⟩ := skip_all h len
    exact ⟨_, _, rfl, hwf, by rw [ByteQueue.perform, hun]⟩
  | compact =>
    obtain ⟨hwf, hun, -⟩ := compact_spec h
    exact ⟨_, _, rfl, hwf, by rw [ByteQueue.perform, hun]⟩
  | ensureWrite len =>
    obtain ⟨b', hb', hwf, hun, -⟩ := ensureWrite_of_fits h hfit
    exact ⟨b', _, by rw [perform, hb']; rfl, hwf, by rw [ByteQueue.perform, hun]⟩
  | reset => exact ⟨_, _, rfl, h.reset, by rw [ByteQueue.perform, unread_reset]⟩
  | readFromFd r =>
    obtain ⟨b', hb', hwf, hun⟩ := readFromFd_of_fits h hfit.1 hfit.2
    exact ⟨b', _, by rw [perform, hb']; rfl, hwf, by rw [ByteQueue.perform, hun]⟩
  | writeToFd r =>
    obtain ⟨hwf, hun, hanswer⟩ := writeToFd_of_fits h hfit
    exact ⟨_, _, rfl, hwf, by rw [ByteQueue.perform, hun, hanswer]⟩

/-! ### Runs of calls -/

theorem steps_spec {a : Call × Answer} (h : b.WF) (hstep : b.Steps a b') :
    b'.WF ∧ ByteQueue.Steps b.unread a b'.unread := by
  obtain ⟨b'', answer, hperform, hwf, hqueue⟩ := perform_spec h hstep.1
  obtain ⟨rfl, rfl⟩ := Prod.mk.injEq .. ▸ Option.some.inj (hstep.2.symm.trans hperform)
  exact ⟨hwf, hqueue⟩

/-- **The buffer is a byte queue.**  After any run of calls on a new buffer the
positions are in order, the same calls on the empty queue give the same
answers and the unread bytes, and the next call returns, `ensureWrite` with
the room it was asked for. -/
theorem run_steps {initial : ℕ} {calls : List (Call × Answer)}
    (h : Transition.Run Steps (ofInitial initial) calls b) :
    (b.readIdx ≤ b.writeIdx ∧ b.writeIdx ≤ b.capacity) ∧
      Transition.Run ByteQueue.Steps [] calls b.unread ∧
      (∀ c, b.Fits c → ∃ b' a, b.Steps (c, a) b') ∧
      ∀ len a b', b.Steps (.ensureWrite len, a) b' → len ≤ b'.writable := by
  obtain ⟨hwf, hrun⟩ := Transition.Run.refine (I := WF) (f := unread) (Q := ByteQueue.Steps)
    (fun b a b' => steps_spec) h (wf_ofInitial initial)
  rw [unread_ofInitial] at hrun
  refine ⟨⟨hwf.read_le, hwf.write_le⟩, hrun, ?_, ?_⟩
  · intro c hfit
    obtain ⟨b', a, hperform, -⟩ := perform_spec hwf hfit
    exact ⟨b', a, hfit, hperform⟩
  · rintro len a b' ⟨hfit, hperform⟩
    obtain ⟨b'', hb'', -, -, hroom⟩ := ensureWrite_of_fits hwf hfit
    obtain ⟨b₁, hb₁, heq⟩ := Option.map_eq_some_iff.mp hperform
    obtain ⟨rfl, -⟩ := Prod.mk.injEq .. ▸ heq
    obtain rfl := Option.some.inj (hb₁.symm.trans hb'')
    exact hroom

/-- Three bytes in, two out, and then room for more than the capacity. -/
theorem run_steps_of_growth : ∃ b : Buffer,
    Transition.Run ByteQueue.Steps []
      [(.write [1, 2, 3], .written 3), (.read 2, .bytes [1, 2]), (.ensureWrite 64, .done)]
      b.unread ∧ b.writable = 127 := by
  have hrun : Transition.Run Steps (ofInitial 0)
      [(.write [1, 2, 3], .written 3), (.read 2, .bytes [1, 2]), (.ensureWrite 64, .done)]
      ⟨3 :: 2 :: 3 :: List.replicate 125 0, 0, 1⟩ :=
    .cons ⟨show 0 + 3 ≤ _ by decide, rfl⟩
      (.cons ⟨trivial, rfl⟩ (.cons ⟨show 1 + 64 ≤ _ by decide, rfl⟩ .nil))
  exact ⟨_, (run_steps hrun).2.1, rfl⟩

end Buffer

end MiniArena
