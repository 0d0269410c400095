/-
MiniArena/IllegalCount.lean

How often a malformed header is counted.

A header that `decode` rejects stays in front of the receive buffer, so the
loop of `onReadable` meets it again in its next turn, and again, until the
connection is banned: one read takes the counter from `k` to `bannedCount k`,
which is the limit for every `k` below `kMaxIllegalCount - 1`
(`illegalCount_decodeLoop`).  A later read judges the same header once more.

Main result (`countsOnce_run_iff`): the runs in which every malformed header
counts once are those whose reads meet none, or meet a new one with the counter
so high that the first throw bans.
-/
import MiniArena.ReceiveBound
import MiniArena.SendQueue

namespace MiniArena

open FrameCodec

/-- `decode` throws on these bytes. -/
def rejects (bs : List UInt8) : Bool :=
  match scan bs with
  | .error _ => true
  | .ok _ => false

theorem rejects_iff {bs : List UInt8} : rejects bs = true ↔ ∃ e, scan bs = .error e := by
  unfold rejects
  rcases scan bs with e | o
  · simp
  · simp

theorem meetsRejected_iff {bs : List UInt8} : MeetsRejected bs ↔ rejects (leftover bs) = true :=
  rejects_iff.symm

/-- The counter after the throws that ban a connection whose counter is `k`. -/
def bannedCount (k : UInt32) : UInt32 :=
  if 9 ≤ k.toNat ∧ k.toNat + 1 < 2 ^ 32 then k + 1 else kMaxIllegalCount

/-- The header counts once: the first throw bans. -/
theorem toNat_bannedCount {k : UInt32} :
    (bannedCount k).toNat = k.toNat + 1 ↔ 9 ≤ k.toNat ∧ k.toNat + 1 < 2 ^ 32 := by
  unfold bannedCount
  split
  · rename_i h
    refine iff_of_true ?_ h
    rw [UInt32.toNat_add]
    exact Nat.mod_eq_of_lt h.2
  · rename_i h
    refine iff_of_false ?_ h
    have hlt := k.toNat_lt
    show ¬ 10 = k.toNat + 1
    omega

theorem toNat_bannedCount_ne (k : UInt32) : (bannedCount k).toNat ≠ k.toNat := by
  unfold bannedCount
  split
  · rename_i h
    rw [UInt32.toNat_add]
    show (k.toNat + 1) % 2 ^ 32 ≠ k.toNat
    omega
  · have hlt := k.toNat_lt
    show ¬ 10 = k.toNat
    omega

/-- As long as the next value does not ban, the end is the same. -/
theorem bannedCount_next {k k' : UInt32} (hnext : k'.toNat = (k.toNat + 1) % 2 ^ 32)
    (hlow : k'.toNat < 10) : bannedCount k' = bannedCount k := by
  have hlt := k.toNat_lt
  rw [bannedCount, bannedCount, if_neg (show ¬ (9 ≤ k.toNat ∧ _) by omega)]
  split
  · apply UInt32.toNat_inj.mp
    rw [UInt32.toNat_add]
    show (k'.toNat + 1) % 2 ^ 32 = 10
    omega
  · rfl

namespace Connection

variable {c c' : Connection}

/-! ### One read -/

theorem isBanned_iff : c.isBanned = true ↔ 10 ≤ c.illegalCount.toNat := by
  rw [isBanned, decide_eq_true_iff, UInt32.le_iff_toNat_le]
  rfl

theorem toNat_recordIllegal :
    c.recordIllegal.illegalCount.toNat = (c.illegalCount.toNat + 1) % 2 ^ 32 :=
  UInt32.toNat_add ..

/-- **The loop counts a rejected header until it bans.** -/
theorem illegalCount_decodeLoop (hwf : c.recvBuf.WF) :
    c.decodeLoop.1.illegalCount =
      if rejects (leftover c.recvBuf.unread) then bannedCount c.illegalCount
      else c.illegalCount := by
  induction c using decodeLoop_induction with
  | half c b h =>
    have hscan := scan_of_decode_none hwf h
    rw [decodeLoop_none h, leftover_of_none hscan, if_neg (by simp [rejects, hscan])]
  | frame c f b h ih =>
    obtain ⟨hscan, hwf', -⟩ := scan_of_decode_some hwf h
    rw [decodeLoop_some h, leftover_of_some hscan]
    exact ih hwf'
  | banned c e h hban =>
    have hscan := scan_of_decode_error hwf h
    have hnext := isBanned_iff.mp hban
    rw [toNat_recordIllegal] at hnext
    have hlt := c.illegalCount.toNat_lt
    rw [decodeLoop_error h, if_pos hban, leftover_of_error hscan, if_pos (by simp [rejects, hscan]),
      illegalCount_close, bannedCount, if_pos (by omega)]
    rfl
  | illegal c e h hban ih =>
    -- not banned yet: the counter is below the limit, and the loop meets the header again
    have hscan := scan_of_decode_error hwf h
    have hrej : rejects (leftover c.recvBuf.unread) = true := by
      rw [leftover_of_error hscan]
      simp [rejects, hscan]
    have hlow : ¬ 10 ≤ c.recordIllegal.illegalCount.toNat := by
      rw [← isBanned_iff, hban]
      exact Bool.false_ne_true
    rw [decodeLoop_error h, if_neg (by simp [hban]), if_pos hrej,
      ← bannedCount_next toNat_recordIllegal (not_le.mp hlow)]
    exact (ih hwf).trans (if_pos hrej)

/-- A read that brings bytes appends them, and runs the loop. -/
theorem onReadable_of_data {b : Buffer} {bytes : List UInt8} {nowMs : UInt64} (hwf : c.recvBuf.WF)
    (hcap : c.recvBuf.buf.length < 2 ^ 63) (hb : c.recvBuf.ensureWrite 4096 = some b)
    (hfit : c.Fits (.data bytes)) :
    ∃ c₁ : Connection, c.onReadable (.data bytes) nowMs = some c₁.decodeLoop ∧ c₁.recvBuf.WF ∧
      c₁.recvBuf.unread = c.recvBuf.unread ++ bytes ∧ c₁.illegalCount = c.illegalCount := by
  obtain ⟨hwf₁, hun₁, hroom⟩ := Buffer.ensureWrite_keeps hwf hcap (by norm_num) hb
  have hspace : b.writable ≠ 0 := by omega
  have hfit₁ : bytes.length ≤ b.writable := by simpa [offered, hb] using hfit bytes rfl
  obtain ⟨hwf₂, hun₂, -⟩ := Buffer.append_spec hwf₁ hfit₁
  let c₁ : Connection := ({ c with recvBuf :=
    { b with buf := Buffer.poke b.buf b.writeIdx bytes,
             writeIdx := b.writeIdx + bytes.length } }).updateActive nowMs
  refine ⟨c₁, ?_, hwf₂, hun₂.trans (by rw [hun₁]), rfl⟩
  simp [onReadable, Buffer.readFromFd, hb, hspace, c₁]

/-- Without bytes the counter stays. -/
theorem illegalCount_onReadable {r : ReadResult} {nowMs : UInt64} {fs : List Frame}
    (hr : ∀ bytes, r ≠ .data bytes) (h : c.onReadable r nowMs = some (c', fs)) :
    c'.illegalCount = c.illegalCount := by
  obtain ⟨⟨b, r'⟩, hread, heq⟩ := Option.map_eq_some_iff.mp h
  obtain ⟨b', -, hb'⟩ := Option.map_eq_some_iff.mp hread
  have hr' : ∀ bytes, r' ≠ .data bytes := by
    split at hb'
    · obtain ⟨-, rfl⟩ := Prod.mk.injEq .. ▸ hb'
      simp
    · cases r with
      | data bytes => exact absurd rfl (hr bytes)
      | _ =>
        obtain ⟨-, rfl⟩ := Prod.mk.injEq .. ▸ hb'
        simp
  cases r' with
  | data bytes => exact absurd rfl (hr' bytes)
  | eof =>
    obtain ⟨rfl, -⟩ := Prod.mk.injEq .. ▸ heq
    exact illegalCount_close _
  | again =>
    obtain ⟨rfl, -⟩ := Prod.mk.injEq .. ▸ heq
    rfl
  | error =>
    obtain ⟨rfl, -⟩ := Prod.mk.injEq .. ▸ heq
    exact illegalCount_close _

/-! ### Counting -/

/-- The malformed headers an event meets that were not met before: what is in
front when a read begins has been in front at the end of another. -/
def newHeaders (c : Connection) : ConnectionEvent → ℕ
  | .onReadable (.data bytes) _ =>
      (rejects (leftover (c.recvBuf.unread ++ bytes)) && !rejects c.recvBuf.unread).toNat
  | _ => 0

/-- The counter goes up by the new headers, and below the limit the connection
is not banned, nor closed by what it reads. -/
structure CountsOnce (c : Connection) (e : ConnectionEvent) (c' : Connection) : Prop where
  count : c'.illegalCount.toNat = c.illegalCount.toNat + c.newHeaders e
  spared : c.illegalCount.toNat + c.newHeaders e < kMaxIllegalCount.toNat →
    c'.isBanned = false ∧ ∀ bytes nowMs, e = .onReadable (.data bytes) nowMs → c'.state = .active

/-- A read that meets a malformed header meets a new one, and the next throw
bans the connection. -/
def MeetsOnce (c : Connection) : ConnectionEvent → Prop
  | .onReadable (.data bytes) _ => rejects (leftover (c.recvBuf.unread ++ bytes)) = true →
      rejects c.recvBuf.unread = false ∧ kMaxIllegalCount.toNat ≤ c.illegalCount.toNat + 1 ∧
        c.illegalCount.toNat + 1 < 2 ^ 32
  | _ => True

/-- A step of the connection: `::read` fills at most the space it is handed, and
the receive buffer ends below `2 ^ 63`. -/
def Moves (c : Connection) (e : ConnectionEvent) (c' : Connection) : Prop :=
  c.step e = some c' ∧ (∀ r nowMs, e = .onReadable r nowMs → c.Fits r) ∧
    c'.recvBuf.buf.length < 2 ^ 63

/-- What a read of bytes makes of the buffer, the counter and the state. -/
theorem moves_data {bytes : List UInt8} {nowMs : UInt64} (hwf : c.recvBuf.WF)
    (hcap : c.recvBuf.buf.length < 2 ^ 63) (h : c.Moves (.onReadable (.data bytes) nowMs) c') :
    c'.recvBuf.WF ∧
      c'.illegalCount = (if rejects (leftover (c.recvBuf.unread ++ bytes))
        then bannedCount c.illegalCount else c.illegalCount) ∧
      c'.state = if rejects (leftover (c.recvBuf.unread ++ bytes)) then .closing else .active := by
  obtain ⟨hstep, hfit, -⟩ := h
  obtain ⟨⟨c₂, fs⟩, hread, rfl⟩ := Option.map_eq_some_iff.mp hstep
  obtain ⟨⟨b, r'⟩, hbuf, -⟩ := Option.map_eq_some_iff.mp hread
  obtain ⟨b', hb, -⟩ := Option.map_eq_some_iff.mp hbuf
  obtain ⟨c₁, hc₁, hwf₁, hun₁, hcount₁⟩ := onReadable_of_data hwf hcap hb (hfit _ _ rfl)
  obtain ⟨c₃, fs', hread', hreads, -⟩ :=
    reads_of_ensureWrite hwf hcap hb (.data bytes) nowMs (hfit _ _ rfl)
  have hloop := Option.some.inj (hread.symm.trans hc₁)
  obtain ⟨rfl, -⟩ := Prod.mk.injEq .. ▸ Option.some.inj (hread'.symm.trans hread)
  refine ⟨hreads.wf, ?_, ?_⟩
  · show c₃.illegalCount = _
    rw [show c₃ = c₁.decodeLoop.1 from congrArg Prod.fst hloop, illegalCount_decodeLoop hwf₁, hun₁,
      hcount₁]
  · have hstate := hreads.data bytes rfl
    rw [meetsRejected_iff] at hstate
    split
    · rename_i hmeet
      exact hstate.1 hmeet
    · rename_i hnot
      exact hstate.2 hnot

theorem illegalCount_sendRaw {data : List UInt8} (h : c.sendRaw data = some c') :
    c'.illegalCount = c.illegalCount := by
  unfold sendRaw at h
  split at h
  · split at h
    · obtain rfl := Option.some.inj h
      exact illegalCount_close c
    · obtain ⟨⟨b, n⟩, -, rfl⟩ := Option.map_eq_some_iff.mp h
      rfl
  · obtain rfl := Option.some.inj h
    rfl

theorem illegalCount_onWritable (c : Connection) (w : WriteResult) :
    (c.onWritable w).illegalCount = c.illegalCount := by
  unfold onWritable
  split
  · rfl
  · dsimp only
    split
    · exact illegalCount_close _
    · rfl

/-- Every other event leaves the counter. -/
theorem moves_other {e : ConnectionEvent} (hwf : c.recvBuf.WF)
    (hcap : c.recvBuf.buf.length < 2 ^ 63) (he : ∀ bytes nowMs, e ≠ .onReadable (.data bytes) nowMs)
    (h : c.Moves e c') : c'.recvBuf.WF ∧ c'.illegalCount = c.illegalCount := by
  obtain ⟨hstep, hfit, -⟩ := h
  cases e with
  | sendFrame msgId flags seq payload =>
    rw [step, sendFrame_eq] at hstep
    split at hstep
    · rw [sameRecv_sendRaw hstep]
      exact ⟨hwf, illegalCount_sendRaw hstep⟩
    · obtain rfl := Option.some.inj hstep
      exact ⟨hwf, rfl⟩
  | sendRaw data =>
    rw [sameRecv_sendRaw hstep]
    exact ⟨hwf, illegalCount_sendRaw hstep⟩
  | onWritable w =>
    rw [step] at hstep
    split at hstep
    · obtain rfl := Option.some.inj hstep
      rw [sameRecv_onWritable c w]
      exact ⟨hwf, illegalCount_onWritable c w⟩
    · cases hstep
  | onReadable r nowMs =>
    have hr : ∀ bytes, r ≠ .data bytes := by
      rintro bytes rfl
      exact he bytes nowMs rfl
    obtain ⟨⟨c₂, fs⟩, hread, rfl⟩ := Option.map_eq_some_iff.mp hstep
    obtain ⟨⟨b, r'⟩, hbuf, -⟩ := Option.map_eq_some_iff.mp hread
    obtain ⟨b', hb, -⟩ := Option.map_eq_some_iff.mp hbuf
    obtain ⟨c₃, fs', hread', hreads, -⟩ :=
      reads_of_ensureWrite hwf hcap hb r nowMs (hfit _ _ rfl)
    obtain ⟨rfl, -⟩ := Prod.mk.injEq .. ▸ Option.some.inj (hread'.symm.trans hread)
    exact ⟨hreads.wf, illegalCount_onReadable hr hread⟩
  | close =>
    obtain rfl := Option.some.inj hstep
    rw [recvBuf_close]
    exact ⟨hwf, illegalCount_close c⟩

theorem isBanned_eq_false (h : c.illegalCount.toNat < kMaxIllegalCount.toNat) :
    c.isBanned = false := by
  rw [isBanned, decide_eq_false_iff_not, UInt32.le_iff_toNat_le]
  exact not_le.mpr h

/-- An event that reads no bytes meets no header. -/
theorem countsOnce_other {e : ConnectionEvent} (hwf : c.recvBuf.WF)
    (hcap : c.recvBuf.buf.length < 2 ^ 63) (h : c.Moves e c')
    (he : ∀ bytes nowMs, e ≠ .onReadable (.data bytes) nowMs) :
    c'.recvBuf.WF ∧ CountsOnce c e c' ∧ MeetsOnce c e := by
  obtain ⟨hwf', hcount⟩ := moves_other hwf hcap he h
  have hnew : c.newHeaders e = 0 := by
    unfold newHeaders
    split
    · exact absurd rfl (he _ _)
    · rfl
  have hmeets : MeetsOnce c e := by
    unfold MeetsOnce
    split
    · exact absurd rfl (he _ _)
    · trivial
  refine ⟨hwf', ⟨?_, ?_⟩, hmeets⟩
  · rw [hcount, hnew, Nat.add_zero]
  · intro hlow
    rw [hnew, Nat.add_zero, ← hcount] at hlow
    exact ⟨isBanned_eq_false hlow, fun bytes nowMs heq => absurd heq (he bytes nowMs)⟩

/-- **One event.**  A malformed header counts once exactly where the condition says. -/
theorem countsOnce_iff {e : ConnectionEvent} (hwf : c.recvBuf.WF)
    (hcap : c.recvBuf.buf.length < 2 ^ 63) (h : c.Moves e c') :
    c'.recvBuf.WF ∧ (CountsOnce c e c' ↔ MeetsOnce c e) := by
  by_cases hdata : ∃ bytes nowMs, e = .onReadable (.data bytes) nowMs
  · obtain ⟨bytes, nowMs, rfl⟩ := hdata
    obtain ⟨hwf', hcount, hstate⟩ := moves_data hwf hcap h
    refine ⟨hwf', ?_⟩
    simp only [MeetsOnce]
    cases hmeet : rejects (leftover (c.recvBuf.unread ++ bytes)) with
    | false =>
      -- no malformed header: the counter stays, and the connection is ACTIVE
      have hnew : c.newHeaders (.onReadable (.data bytes) nowMs) = 0 := by
        simp [newHeaders, hmeet]
      rw [hmeet, if_neg Bool.false_ne_true] at hcount
      refine iff_of_true ⟨?_, ?_⟩ (by simp)
      · rw [hcount, hnew, Nat.add_zero]
      · intro hlow
        rw [hnew, Nat.add_zero, ← hcount] at hlow
        exact ⟨isBanned_eq_false hlow, fun _ _ _ => hstate.trans (by simp [hmeet])⟩
    | true =>
      rw [hmeet, if_pos rfl] at hcount
      simp only [true_implies]
      cases hold : rejects c.recvBuf.unread with
      | true =>
        -- the header was counted before, and the loop counts it again
        have hnew : c.newHeaders (.onReadable (.data bytes) nowMs) = 0 := by
          simp [newHeaders, hold]
        refine iff_of_false ?_ (by simp)
        intro hc
        have := hc.count
        rw [hcount, hnew] at this
        exact toNat_bannedCount_ne _ this
      | false =>
        have hnew : c.newHeaders (.onReadable (.data bytes) nowMs) = 1 := by
          simp [newHeaders, hold, hmeet]
        have hten : kMaxIllegalCount.toNat = 10 := rfl
        have honce := @toNat_bannedCount c.illegalCount
        constructor
        · intro hc
          have heq := hc.count
          rw [hcount, hnew, honce] at heq
          exact ⟨rfl, by omega, heq.2⟩
        · rintro ⟨-, hhigh, hlast⟩
          refine ⟨?_, fun hlow => ?_⟩
          · rw [hcount, hnew, honce]
            exact ⟨by omega, hlast⟩
          · rw [hnew] at hlow
            omega
  · obtain ⟨hwf', hcounts, hmeets⟩ := countsOnce_other hwf hcap h
      fun bytes nowMs heq => hdata ⟨bytes, nowMs, heq⟩
    exact ⟨hwf', iff_of_true hcounts hmeets⟩

/-! ### Runs -/

/-- **A malformed header counts once.**  From any connection, the runs in which
every event counts the malformed headers it meets once are the runs whose reads
meet none, or a new one with the counter at its limit. -/
theorem countsOnce_run_iff {as : List ConnectionEvent} (hwf : c.recvBuf.WF)
    (hcap : c.recvBuf.buf.length < 2 ^ 63) :
    Transition.Run (fun c e c' => c.Moves e c' ∧ CountsOnce c e c') c as c' ↔
      Transition.Run (fun c e c' => c.Moves e c' ∧ MeetsOnce c e) c as c' := by
  apply Transition.Run.guard_congr (J := fun c => c.recvBuf.WF ∧ c.recvBuf.buf.length < 2 ^ 63)
    (B := fun _ => True)
  · exact fun _ _ _ hs hst => ⟨(countsOnce_iff hs.1 hs.2 hst).1, hst.2.2⟩
  · exact fun _ _ _ hs _ hst => (countsOnce_iff hs.1 hs.2 hst).2
  · exact fun _ _ _ _ _ _ _ => trivial
  · exact ⟨hwf, hcap⟩
  · trivial

/-- A header whose length field is 4. -/
def badHeader : List UInt8 := [0, 0, 0, 4] ++ List.replicate 14 0

theorem rejects_badHeader : rejects badHeader = true ∧ leftover badHeader = badHeader := by
  have hscan : scan badHeader = .error "FrameCodec::decode: total_length < header size" := rfl
  exact ⟨by rw [rejects, hscan], leftover_of_error hscan⟩

theorem length_recvBuf_fresh : (fresh 1 7 0).recvBuf.buf.length < 2 ^ 63 :=
  lt_of_le_of_lt bounded_ofInitial.capacity_le (by decide)

/-- A new connection reads it, whatever its counter. -/
theorem moves_badHeader (k : UInt32) : ∃ c', Moves { fresh 1 7 0 with illegalCount := k }
    (.onReadable (.data badHeader) 0) c' := by
  let c : Connection := { fresh 1 7 0 with illegalCount := k }
  have hb : Bounded c.recvBuf := bounded_ofInitial
  have hfit : c.Fits (.data badHeader) := by
    intro bytes heq
    obtain rfl := ReadResult.data.inj heq
    exact le_trans (by decide) (EventLoop.offered_of_bounded hb)
  obtain ⟨c', fs, hread, -, hcap⟩ : ∃ c' fs, c.onReadable (.data badHeader) 0 = some (c', fs) ∧
      c.Reads (.data badHeader) c' ∧ c'.recvBuf.buf.length ≤ recvCapacityBound :=
    reads_onReadable hb hfit
  refine ⟨c', ?_, ?_, ?_⟩
  · rw [step, hread]
    rfl
  · intro r nowMs heq
    obtain ⟨rfl, -⟩ := ConnectionEvent.onReadable.inj heq
    exact hfit
  · exact lt_of_le_of_lt hcap (by decide)

/-- One malformed header takes the counter of a new connection to 10, and closes it. -/
theorem countsOnce_fails : ∃ c',
    Moves (fresh 1 7 0) (.onReadable (.data badHeader) 0) c' ∧
      (fresh 1 7 0).newHeaders (.onReadable (.data badHeader) 0) = 1 ∧
      c'.illegalCount = 10 ∧ c'.isBanned = true ∧ c'.state = .closing ∧
      ¬ CountsOnce (fresh 1 7 0) (.onReadable (.data badHeader) 0) c' := by
  obtain ⟨c', hmoves⟩ := moves_badHeader 0
  have hwf : (fresh 1 7 0).recvBuf.WF := Buffer.wf_ofInitial 4096
  have hnil : (fresh 1 7 0).recvBuf.unread = [] := Buffer.unread_ofInitial 4096
  obtain ⟨-, hcount, hstate⟩ := moves_data hwf length_recvBuf_fresh hmoves
  rw [hnil, List.nil_append, rejects_badHeader.2, if_pos rejects_badHeader.1] at hcount hstate
  have hten : c'.illegalCount = 10 := hcount
  have hnew : (fresh 1 7 0).newHeaders (.onReadable (.data badHeader) 0) = 1 := by
    rw [newHeaders, hnil, List.nil_append, rejects_badHeader.2, rejects_badHeader.1]
    rfl
  refine ⟨c', hmoves, hnew, hten, by rw [isBanned, hten]; rfl, hstate, fun hc => ?_⟩
  have heq := hc.count
  rw [hten, hnew] at heq
  exact absurd heq (by decide)

/-- With the counter one below the limit, the malformed header counts once. -/
theorem countsOnce_run_iff_nine : ∃ c',
    Transition.Run (fun c e c' => Moves c e c' ∧ CountsOnce c e c')
      { fresh 1 7 0 with illegalCount := 9 } [.onReadable (.data badHeader) 0] c' := by
  obtain ⟨c', hmoves⟩ := moves_badHeader 9
  have hnil : (fresh 1 7 0).recvBuf.unread = [] := Buffer.unread_ofInitial 4096
  have hold : rejects (fresh 1 7 0).recvBuf.unread = false := by
    rw [hnil]
    rfl
  have hmeets : MeetsOnce { fresh 1 7 0 with illegalCount := 9 }
      (.onReadable (.data badHeader) 0) := by
    rw [MeetsOnce]
    exact fun _ => ⟨hold, by decide⟩
  refine ⟨c', (countsOnce_run_iff ?_ ?_).mpr (.single ⟨hmoves, hmeets⟩)⟩
  · exact Buffer.wf_ofInitial 4096
  · exact length_recvBuf_fresh

end Connection

end MiniArena
