/-
MiniArena/DecodeLoop.lean

The decode loop of `onReadable`, turn by turn.

A turn that goes round either takes a frame off the buffer or counts a rejected
header, which takes nothing.  So the measure has two parts: the unread bytes,
and the throws that are left until the ban (`Turn.measure_lt`).  The counter is
a `uint32_t` and may be anywhere when the loop begins; above the limit the first
throw bans, at its last value it wraps and ten more throws are needed.

Main result (`decodeLoop_ends`): no connection goes round forever, and where
the loop is left there is no whole frame in front, or the connection is banned
and closing.  What is gone from the buffer are the bytes of the frames.
-/
import MiniArena.CodecExact
import MiniArena.ReceiveBound

namespace MiniArena

open FrameCodec

/-- The bytes of a frame on the wire. -/
def Frame.bytes (f : Frame) : List UInt8 :=
  writeHeader f.totalLength f.messageId f.flags f.sequence ++ f.payload

/-- A valid header in front, and less than its frame. -/
def HalfFrame (bs : List UInt8) : Prop :=
  kHeaderSize ≤ bs.length ∧ kHeaderSize ≤ lengthField bs ∧
    lengthField bs ≤ kHeaderSize + kMaxPayload ∧ bs.length < lengthField bs

namespace Connection

/-! ### One turn -/

/-- A turn after which the loop goes round, and the frames it pushes. -/
inductive Turn : Connection → List Frame → Connection → Prop
  | frame {c : Connection} {f : Frame} {b : Buffer} (h : decode c.recvBuf = .ok (some f, b)) :
      Turn c [f] { c with recvBuf := b }
  | illegal {c : Connection} {e : String} (h : decode c.recvBuf = .error e)
      (hban : c.recordIllegal.isBanned = false) : Turn c [] c.recordIllegal

/-- The turn in which the loop is left. -/
inductive Exits : Connection → Connection → Prop
  | half {c : Connection} {b : Buffer} (h : decode c.recvBuf = .ok (none, b)) : Exits c c
  | banned {c : Connection} {e : String} (h : decode c.recvBuf = .error e)
      (hban : c.recordIllegal.isBanned = true) : Exits c c.recordIllegal.close

variable {c c' : Connection} {fs : List Frame}

/-- **The measure.**  A frame shortens the unread bytes, a throw leaves them and
brings the ban closer. -/
theorem Turn.measure_lt (h : c.Turn fs c') :
    Prod.Lex (· < ·) (· < ·) (c'.recvBuf.readable, c'.throwsLeft)
      (c.recvBuf.readable, c.throwsLeft) := by
  cases h with
  | frame h => exact Prod.Lex.left _ _ (readable_decode_lt h)
  | illegal h hban => exact Prod.Lex.right _ (throwsLeft_recordIllegal hban)

theorem turn_wellFounded : WellFounded fun c' c : Connection => ∃ fs, c.Turn fs c' := by
  have hlex : WellFounded (Prod.Lex (· < ·) (· < ·) : ℕ × ℕ → ℕ × ℕ → Prop) :=
    WellFounded.prod_lex Nat.lt_wfRel.wf Nat.lt_wfRel.wf
  apply Subrelation.wf (r := InvImage _ fun c : Connection => (c.recvBuf.readable, c.throwsLeft))
  · rintro c' c ⟨fs, h⟩
    exact h.measure_lt
  · exact InvImage.wf _ hlex

/-- A turn takes the bytes of its frames off the front, and no others. -/
theorem Turn.unread (hwf : c.recvBuf.WF) (h : c.Turn fs c') :
    c'.recvBuf.WF ∧ c.recvBuf.unread = (fs.map Frame.bytes).flatten ++ c'.recvBuf.unread := by
  cases h with
  | frame h =>
    obtain ⟨hscan, hwf', -⟩ := scan_of_decode_some hwf h
    refine ⟨hwf', ?_⟩
    rw [List.map_singleton, List.flatten_singleton]
    exact (bytes_of_scan hscan).1
  | illegal h hban => exact ⟨hwf, rfl⟩

theorem Turn.state (h : c.Turn fs c') : c'.state = c.state := by
  cases h <;> rfl

/-! ### The whole loop -/

/-- The loop is a run of turns, and its exit. -/
theorem decodeLoop_run (c : Connection) :
    ∃ fss c', Transition.Run Turn c fss c' ∧ Exits c' c.decodeLoop.1 ∧
      c.decodeLoop.2 = fss.flatten := by
  induction c using decodeLoop_induction with
  | half c b h =>
    rw [decodeLoop_none h]
    exact ⟨[], c, .nil, .half h, rfl⟩
  | frame c f b h ih =>
    obtain ⟨fss, c', hrun, hexit, hfs⟩ := ih
    rw [decodeLoop_some h]
    exact ⟨[f] :: fss, c', .cons (.frame h) hrun, hexit, by rw [hfs]; rfl⟩
  | banned c e h hban =>
    rw [decodeLoop_error h, if_pos hban]
    exact ⟨[], c, .nil, .banned h hban, rfl⟩
  | illegal c e h hban ih =>
    obtain ⟨fss, c', hrun, hexit, hfs⟩ := ih
    rw [decodeLoop_error h, if_neg (by simp [hban])]
    exact ⟨[] :: fss, c', .cons (.illegal h hban) hrun, hexit, by rw [hfs]; rfl⟩

theorem run_unread {fss : List (List Frame)} (h : Transition.Run Turn c fss c')
    (hwf : c.recvBuf.WF) :
    c'.recvBuf.WF ∧ c.recvBuf.unread = (fss.flatten.map Frame.bytes).flatten ++ c'.recvBuf.unread := by
  have hkept : ∀ c fs c', c.recvBuf.WF → Turn c fs c' → c'.recvBuf.WF ∧
      c.recvBuf.unread ++ [] = (fs.map Frame.bytes).flatten ++ c'.recvBuf.unread := by
    intro c fs c' hwf h
    rw [List.append_nil]
    exact h.unread hwf
  obtain ⟨hwf', hbytes⟩ := @Transition.Run.conserved _ _ _ _ (fun c => c.recvBuf.WF)
    (fun c => c.recvBuf.unread) (fun _ => []) (fun fs => (fs.map Frame.bytes).flatten) _ _ _
    hkept h hwf
  refine ⟨hwf', ?_⟩
  simpa [List.map_flatten, List.flatten_flatten, Function.comp_def] using hbytes

/-- What is in front when the loop is left. -/
theorem Exits.front (hwf : c.recvBuf.WF) (hstate : c.state = .active) (h : Exits c c') :
    c'.recvBuf = c.recvBuf ∧
      (c'.recvBuf.unread.length < kHeaderSize ∨ HalfFrame c'.recvBuf.unread ∨
        (c'.isBanned = true ∧ c'.state = .closing)) := by
  cases h with
  | half h =>
    refine ⟨rfl, ?_⟩
    have hscan := scan_of_decode_none hwf h
    by_cases hshort : c.recvBuf.unread.length < kHeaderSize
    · exact Or.inl hshort
    · rcases scan_none_iff.mp hscan with h' | ⟨h₁, h₂, h₃⟩
      · exact absurd h' hshort
      · exact Or.inr (Or.inl ⟨Nat.le_of_not_lt hshort, h₁, h₂, h₃⟩)
  | banned h hban =>
    refine ⟨recvBuf_close _, Or.inr (Or.inr ⟨?_, ?_⟩)⟩
    · show (c.recordIllegal.close).isBanned = true
      rwa [isBanned, illegalCount_close]
    · rw [state_close, if_neg]
      show c.state ≠ .closed
      rw [hstate]
      decide

/-- **The decode loop ends.**  There is no endless run of turns; from every
connection the loop is a run of turns and an exit, after which fewer bytes than
a header are unread, or a valid header with less than its frame is in front, or
the connection is banned and CLOSING; and the bytes that were consumed are those
of the frames that are returned. -/
theorem decodeLoop_ends :
    (WellFounded fun c' c : Connection => ∃ fs, c.Turn fs c') ∧
      ∀ (c : Connection) (nowMs : UInt64), c.recvBuf.WF →
        let r := (c.updateActive nowMs).decodeLoop
        (∃ fss c', Transition.Run Turn (c.updateActive nowMs) fss c' ∧ Exits c' r.1 ∧
            r.2 = fss.flatten) ∧
          (r.1.recvBuf.unread.length < kHeaderSize ∨ HalfFrame r.1.recvBuf.unread ∨
            (r.1.isBanned = true ∧ r.1.state = .closing)) ∧
          c.recvBuf.unread = (r.2.map Frame.bytes).flatten ++ r.1.recvBuf.unread := by
  refine ⟨turn_wellFounded, fun c nowMs hwf => ?_⟩
  obtain ⟨fss, c', hrun, hexit, hfs⟩ := decodeLoop_run (c.updateActive nowMs)
  have hstate : c'.state = .active :=
    Transition.Run.invariant (I := fun c => c.state = .active)
      (fun _ _ _ hs h => h.state.trans hs) hrun rfl
  obtain ⟨hwf', hbytes⟩ := run_unread hrun hwf
  obtain ⟨hbuf, hfront⟩ := hexit.front hwf' hstate
  refine ⟨⟨fss, c', hrun, hexit, hfs⟩, hfront, ?_⟩
  show (c.updateActive nowMs).recvBuf.unread = _
  rw [hbytes, hfs, hbuf]

/-- With one frame in the buffer, at a counter that is about to wrap. -/
theorem decodeLoop_ends_oneFrame :
    let c : Connection :=
      { id := 1, fd := 5, recvBuf := ⟨moveFrame.bytes, 0, 22⟩, lastActiveMs := 0,
        illegalCount := 4294967295 }
    let r := (c.updateActive 7).decodeLoop
    moveFrame.bytes = (r.2.map Frame.bytes).flatten ++ r.1.recvBuf.unread := by
  intro c
  have hwf : c.recvBuf.WF := ⟨by decide, by decide, by decide⟩
  exact (decodeLoop_ends.2 c 7 hwf).2.2

end Connection

end MiniArena
