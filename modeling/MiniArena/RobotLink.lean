/-
MiniArena/RobotLink.lean

The two directions of a connection between the server and a robot.

Down: the calls of one connection queue encoded frames, the kernel takes them
in pieces, and the robot's `FrameReader` gets pieces cut in other places.  Up:
the robot numbers its frames, `EncodeFrame`s them, and the connection reads
them in pieces.  Encoder and decoder of a direction are different programs.
Each direction delivers an initial part of the frames, in order and
unchanged, at any moment, and all of them once the bytes are through.
-/
import MiniArena.RobotFrame
import MiniArena.SendQueue

namespace MiniArena

open FrameCodec WireFrame

/-! ### A cut stream of frames -/

/-- What stays of a stream of frames that is through is nothing. -/
theorem eq_nil_of_half {bs : List UInt8} {fs : List WireFrame} (h : bs = framing.encodeAll fs)
    (hhalf : scan bs = .ok none) : fs = [] := by
  cases fs with
  | nil => rfl
  | cons f fs =>
    have hscan := scan_bytes_append f (framing.encodeAll fs)
    rw [show f.bytes ++ framing.encodeAll fs = bs from h.symm, hhalf] at hscan
    cases hscan

namespace Robot

/-- The reader on bytes that drain into the frames `ys`. -/
theorem readFrames_of_drains {bs rest : List UInt8} {ys : List WireFrame}
    (hd : framing.Drains bs ys rest) (hrest : scan rest = .ok none) {r : FrameReader}
    {conn : List Chunk} (hr : r.buf.length ≤ readerBound) (hbs : r.buf ++ Chunk.stream conn = bs) :
    ∃ gs r' conn', readFrames r conn = (gs, .conn, r', conn') ∧
      gs.map DecodedFrame.toFrame = ys.map toFrame ∧ r'.buf ++ Chunk.stream conn' = rest := by
  induction hd generalizing r conn with
  | stop _ =>
    have hread := @readFrame_spec r conn hr
    rw [hbs, hrest] at hread
    obtain ⟨r', conn', hgo, hleft⟩ := hread
    exact ⟨[], r', conn', readFrames_error hgo, rfl, hleft⟩
  | @next bs f bs' ys rest hscan _ ih =>
    have hread := @readFrame_spec r conn hr
    rw [hbs, scan_of_framing_scan hscan] at hread
    obtain ⟨g, r', conn', hgo, hg, hleft, hr'⟩ := hread
    obtain ⟨gs, r'', conn'', hmore, hgs, hend⟩ := ih hrest hr' hleft
    refine ⟨g :: gs, r'', conn'', ?_, ?_, hend⟩
    · rw [readFrames_ok hgo, hmore]
    · rw [List.map_cons, List.map_cons, hg, hgs]

/-- **The reader on a part of a stream of frames**, however it is cut. -/
theorem readFrames_initial {conn : List Chunk} {rest : List UInt8} {fs : List WireFrame}
    (h : Chunk.stream conn ++ rest = framing.encodeAll fs) :
    ∃ ys zs gs r conn', fs = ys ++ zs ∧ readFrames {} conn = (gs, .conn, r, conn') ∧
      gs.map DecodedFrame.toFrame = ys.map toFrame ∧ (rest = [] → zs = []) := by
  obtain ⟨ys, zs, bs, hfs, hd, hz⟩ := framing.drains_initial h
  have hhalf : scan bs = .ok none := scan_none_of_pending hz (hd.scan_rest framing)
  obtain ⟨gs, r, conn', hgo, hgs, -⟩ :=
    readFrames_of_drains hd hhalf (r := {}) (Nat.zero_le _) (List.nil_append _)
  refine ⟨ys, zs, gs, r, conn', hfs, hgo, hgs, ?_⟩
  rintro rfl
  rw [List.append_nil] at hz
  exact eq_nil_of_half hz hhalf

end Robot

/-! ### Down -/

namespace Connection

variable {c c' : Connection}

/-- `sendResponse` hands over whole frames. -/
def WholeFrames (as : List (ConnectionEvent × Traffic)) : Prop :=
  ∀ data t, (.sendRaw data, t) ∈ as → ∃ f : WireFrame, data = f.bytes

/-- What a call queues is a frame, or nothing. -/
theorem queued_frame {e : ConnectionEvent × Traffic} (hstep : Steps c e c')
    (hwhole : ∀ data, e.1 = .sendRaw data → ∃ f : WireFrame, data = f.bytes) :
    ∃ fs : List WireFrame, e.2.queued = framing.encodeAll fs ∧ fs.length ≤ 1 := by
  obtain ⟨ev, t⟩ := e
  obtain ⟨-, rfl⟩ : c.step ev = some c' ∧ t = c.traffic ev := hstep
  have hnone : ∃ fs : List WireFrame, ([] : List UInt8) = framing.encodeAll fs ∧ fs.length ≤ 1 :=
    ⟨[], rfl, Nat.zero_le 1⟩
  have hone : ∀ f : WireFrame, ∃ fs : List WireFrame, f.bytes = framing.encodeAll fs ∧
      fs.length ≤ 1 := fun f => ⟨[f], (List.append_nil _).symm, le_refl 1⟩
  cases ev with
  | sendFrame msgId flags seq payload =>
    dsimp only [traffic]
    by_cases hle : payload.length ≤ kMaxPayload
    · have henc := encode_eq ⟨msgId, flags, seq, payload, hle⟩
      rw [show FrameCodec.encode msgId flags seq payload = _ from henc]
      dsimp only
      split
      · exact hnone
      · exact hone ⟨msgId, flags, seq, payload, hle⟩
    · rw [FrameCodec.encode, if_pos (Nat.lt_of_not_le hle)]
      exact hnone
  | sendRaw data =>
    obtain ⟨f, rfl⟩ := hwhole data rfl
    dsimp only [traffic]
    split
    · exact hnone
    · exact hone f
  | onWritable w => cases w <;> exact hnone
  | onReadable r nowMs => exact hnone
  | close => exact hnone

/-- The frames the calls of a run queue, call by call. -/
theorem queued_frames {as : List (ConnectionEvent × Traffic)} (h : Transition.Run Steps c as c')
    (hwhole : WholeFrames as) :
    ∃ fss : List (List WireFrame), List.Forall₂
      (fun e fs => e.2.queued = framing.encodeAll fs ∧ fs.length ≤ 1) as fss := by
  induction h with
  | nil => exact ⟨[], .nil⟩
  | @cons c e _ as _ hstep _ ih =>
    obtain ⟨ev, t⟩ := e
    obtain ⟨fs, hfs⟩ := queued_frame hstep
      fun data hev => hwhole data t (List.mem_cons.mpr (Or.inl (by rw [← hev])))
    obtain ⟨fss, hfss⟩ := ih fun data t hmem => hwhole data t (List.mem_cons_of_mem _ hmem)
    exact ⟨fs :: fss, .cons hfs hfss⟩

theorem flatten_queued {as : List (ConnectionEvent × Traffic)} {fss : List (List WireFrame)}
    (h : List.Forall₂ (fun e fs => e.2.queued = framing.encodeAll fs ∧ fs.length ≤ 1) as fss) :
    (as.map fun e => e.2.queued).flatten = framing.encodeAll fss.flatten := by
  induction h with
  | nil => rfl
  | cons hhead _ ih =>
    rw [List.map_cons, List.flatten_cons, List.flatten_cons, Framing.encodeAll_append, hhead.1, ih]

end Connection

namespace Robot

open Connection (Steps fresh WholeFrames)

/-- **From the server to the robot.**  In every run of calls on a connection,
whatever part of the bytes the kernel took has reached the robot, and however
it is cut, the robot reads an initial part of the frames that were queued, in
order, and never an invalid length; once all bytes are there it has read all. -/
theorem downlink {id : ConnectionId} {fd : Fd} {nowMs : UInt64} {c : Connection}
    {as : List (ConnectionEvent × Traffic)} (h : Transition.Run Steps (fresh id fd nowMs) as c)
    (hwhole : WholeFrames as) {conn : List Chunk} {flight : List UInt8}
    (hnet : Chunk.stream conn ++ flight = (as.map fun e => e.2.accepted).flatten) :
    ∃ (fss : List (List WireFrame)) (ys zs : List WireFrame) (gs : List DecodedFrame)
        (r : FrameReader) (conn' : List Chunk),
      List.Forall₂ (fun e fs => e.2.queued = framing.encodeAll fs ∧ fs.length ≤ 1) as fss ∧
      fss.flatten = ys ++ zs ∧ readFrames {} conn = (gs, .conn, r, conn') ∧
      gs.map DecodedFrame.toFrame = ys.map toFrame ∧
      (flight = [] → c.sendBuf.readable = 0 → zs = []) := by
  obtain ⟨hinv, hstream⟩ := h.conserved (fun _ _ _ hs hst => Connection.sending_step hs hst)
    (Connection.sending_fresh id fd nowMs)
  obtain ⟨fss, hfss⟩ := Connection.queued_frames h hwhole
  rw [show (fresh id fd nowMs).sendBuf.unread = [] from Buffer.unread_ofInitial 4096,
    List.nil_append, Connection.flatten_queued hfss, ← hnet, List.append_assoc] at hstream
  obtain ⟨ys, zs, gs, r, conn', hsplit, hgo, hgs, hall⟩ := readFrames_initial hstream.symm
  refine ⟨fss, ys, zs, gs, r, conn', hfss, hsplit, hgo, hgs, ?_⟩
  rintro rfl hempty
  apply hall
  rw [List.nil_append]
  exact List.eq_nil_of_length_eq_zero (hinv.wf.length_unread.trans hempty)

/-- A response and half of a second one, of which the robot has one byte so far. -/
theorem downlink_moveFrame : ∃ (c : Connection) (as : List (ConnectionEvent × Traffic)),
    as.map Prod.fst = [.sendRaw moveFrame.bytes, .onWritable (.accepted 1)] ∧
    ∃ (fss : List (List WireFrame)) (ys zs : List WireFrame) (gs : List DecodedFrame)
        (r : FrameReader) (conn' : List Chunk),
      List.Forall₂ (fun e fs => e.2.queued = framing.encodeAll fs ∧ fs.length ≤ 1) as fss ∧
      fss.flatten = ys ++ zs ∧
      readFrames {} [⟨moveFrame.bytes.take 1, by decide⟩] = (gs, .conn, r, conn') ∧
      gs.map DecodedFrame.toFrame = ys.map toFrame ∧
      (([] : List UInt8) = [] → c.sendBuf.readable = 0 → zs = []) := by
  have hexec : (Transition.exec Connection.observe (fresh 1 7 0)
      [.sendRaw moveFrame.bytes, .onWritable (.accepted 1)]).map (fun p =>
        (p.2.map fun e => e.2.accepted).flatten) = some (moveFrame.bytes.take 1) := by
    decide +kernel
  obtain ⟨⟨c, as⟩, hexec, haccepted⟩ := Option.map_eq_some_iff.mp hexec
  have hevents := Transition.map_fst_of_exec hexec
  have hrun : Transition.Run Steps (fresh 1 7 0) as c :=
    (Transition.run_of_exec hexec).mono fun _ _ _ => Connection.steps_of_observe
  refine ⟨c, as, hevents, downlink hrun ?_ ?_⟩
  · intro data t hmem
    have hev : ConnectionEvent.sendRaw data ∈ as.map Prod.fst := List.mem_map_of_mem hmem
    rw [hevents] at hev
    rcases List.mem_cons.mp hev with heq | hev
    · exact ⟨moveFrame, ConnectionEvent.sendRaw.inj heq⟩
    · simp at hev
  · rw [List.append_nil]
    exact haccepted.symm

/-! ### Up -/

/-- `nextSeq` -/
def nextSeq (seq : UInt64) : UInt64 := seq + 1

/-- Successive `SendFrame(conn, msgID, 0, b.nextSeq(), payload)` calls: what each
writes.  `.error` is the panic. -/
def sendFrames : UInt64 → List (UInt32 × List UInt8) → Except String (List (List UInt8))
  | _, [] => .ok []
  | seq, (msgID, payload) :: calls =>
      match encodeFrame msgID 0 (nextSeq seq) payload, sendFrames (nextSeq seq) calls with
      | .ok data, .ok more => .ok (data :: more)
      | .error e, _ => .error e
      | _, .error e => .error e

/-- One more call. -/
theorem sendFrames_concat {seq : UInt64} {calls : List (UInt32 × List UInt8)}
    {writes : List (List UInt8)} {msgID : UInt32} {payload data : List UInt8}
    (h : sendFrames seq calls = .ok writes)
    (hdata : encodeFrame msgID 0 (nextSeq (seq + UInt64.ofNat calls.length)) payload = .ok data) :
    sendFrames seq (calls ++ [(msgID, payload)]) = .ok (writes ++ [data]) := by
  induction calls generalizing seq writes with
  | nil =>
    obtain rfl := Except.ok.inj h
    rw [show seq + UInt64.ofNat ([] : List (UInt32 × List UInt8)).length = seq from
      UInt64.add_zero seq] at hdata
    rw [List.nil_append, sendFrames, hdata]
    rfl
  | cons call calls ih =>
    obtain ⟨msgID', payload'⟩ := call
    rw [sendFrames] at h
    split at h
    · rename_i first more hfirst hmore
      obtain rfl := Except.ok.inj h
      have hseq : seq + UInt64.ofNat ((msgID', payload') :: calls).length =
          nextSeq seq + UInt64.ofNat calls.length := by
        rw [List.length_cons, UInt64.ofNat_add, nextSeq, UInt64.add_assoc,
          UInt64.add_comm (UInt64.ofNat calls.length)]
        rfl
      rw [hseq] at hdata
      rw [List.cons_append, sendFrames, hfirst, ih hmore hdata]
      rfl
    · cases h
    · cases h

/-- The frames of the calls, numbered from `seq`. -/
def numbered (seq : UInt64) : List (UInt32 × List UInt8) → List Frame
  | [] => []
  | (msgID, payload) :: calls =>
      ⟨UInt32.ofNat (kHeaderSize + payload.length), msgID, 0, nextSeq seq, payload⟩ ::
        numbered (nextSeq seq) calls

/-- What the robot writes is what the server's encoder would write. -/
theorem sendFrames_eq {seq : UInt64} {calls : List (UInt32 × List UInt8)}
    {writes : List (List UInt8)} (h : sendFrames seq calls = .ok writes) :
    ∃ fs : List WireFrame, writes.flatten = framing.encodeAll fs ∧
      fs.map toFrame = numbered seq calls := by
  induction calls generalizing seq writes with
  | nil =>
    obtain rfl := Except.ok.inj h
    exact ⟨[], rfl, rfl⟩
  | cons call calls ih =>
    obtain ⟨msgID, payload⟩ := call
    rw [sendFrames] at h
    split at h
    · rename_i data more hdata hmore
      obtain rfl := Except.ok.inj h
      obtain ⟨fs, hfs, hnum⟩ := ih hmore
      have hle : payload.length ≤ kMaxPayload := by
        by_contra hlong
        rw [encodeFrame, if_pos (maxPayload_eq ▸ Nat.lt_of_not_le hlong)] at hdata
        cases hdata
      rw [encodeFrame_eq msgID 0 (nextSeq seq) hle] at hdata
      have henc := encode_eq ⟨msgID, 0, nextSeq seq, payload, hle⟩
      obtain rfl := Except.ok.inj (hdata.symm.trans henc)
      refine ⟨⟨msgID, 0, nextSeq seq, payload, hle⟩ :: fs, ?_, ?_⟩
      · rw [List.flatten_cons, hfs]
        rfl
      · rw [List.map_cons, hnum]
        rfl
    · cases h
    · cases h

theorem numbered_getElem {seq : UInt64} {calls : List (UInt32 × List UInt8)} {k : ℕ} {f : Frame}
    (h : (numbered seq calls)[k]? = some f) :
    f.sequence = seq + UInt64.ofNat (k + 1) ∧ f.flags = 0 ∧
      calls[k]? = some (f.messageId, f.payload) := by
  induction calls generalizing seq k with
  | nil => cases h
  | cons call calls ih =>
    obtain ⟨msgID, payload⟩ := call
    cases k with
    | zero =>
      obtain rfl := Option.some.inj h
      exact ⟨rfl, rfl, rfl⟩
    | succ k =>
      obtain ⟨hseq, hflags, hcall⟩ := ih (show (numbered (nextSeq seq) calls)[k]? = some f from h)
      refine ⟨?_, hflags, hcall⟩
      rw [hseq, nextSeq, UInt64.ofNat_add (k + 1) 1, add_assoc, add_comm 1]
      rfl

end Robot

namespace Connection

variable {c : Connection}

/-- Reads of a part of a stream of frames. -/
theorem receive_initial {reads : List SocketRead} {rest : List UInt8} {fs : List WireFrame}
    (hc : Receiving c) (hfit : ReadsFit c reads)
    (h : (c.recvBuf.unread ++ (reads.map SocketRead.bytes).flatten) ++ rest =
      framing.encodeAll fs) :
    ∃ trace ys zs, c.receive reads = some trace ∧ fs = ys ++ zs ∧
      (trace.map Prod.snd).flatten = ys.map toFrame ∧ (afterAll c trace).Receiving ∧
      (afterAll c trace).recvBuf.unread ++ rest = framing.encodeAll zs := by
  induction reads generalizing c fs with
  | nil =>
    rw [List.map_nil, List.flatten_nil, List.append_nil] at h
    exact ⟨[], [], fs, rfl, rfl, rfl, hc, h⟩
  | cons r rs ih =>
    obtain ⟨-, hle, hnext⟩ := hfit
    have h' : (c.recvBuf.unread ++ r.bytes) ++ ((rs.map SocketRead.bytes).flatten ++ rest)
        = framing.encodeAll fs := by
      rw [← h]
      simp only [List.map_cons, List.flatten_cons, List.append_assoc]
    obtain ⟨c', ys, zs, hread, rfl, -, hz, hc', -⟩ := onReadable_data hc r.nowMs hle h'
    rw [← List.append_assoc] at hz
    obtain ⟨trace, ys', zs', hrec, rfl, hframes, hlast, hleft⟩ := ih hc' (hnext _ hread) hz
    refine ⟨(c', ys.map toFrame) :: trace, ys ++ ys', zs', ?_, ?_, ?_, hlast, hleft⟩
    · rw [receive, hread, Option.bind_some, hrec]
      rfl
    · rw [List.append_assoc]
    · rw [List.map_cons, List.flatten_cons, hframes, List.map_append]

end Connection

namespace Robot

open Connection (fresh ReadsFit afterAll)

/-- **From the robot to the server.**  The robot makes the calls `calls`, one
after the other, and a new connection has read a part of the bytes, in pieces.
The frames it has handed out are those of the first calls, unchanged, the
`k`-th with the number `k`, and no header counts as illegal; once all bytes
are read they are the frames of all calls. -/
theorem uplink (id : ConnectionId) (fd : Fd) (t₀ : UInt64) {calls : List (UInt32 × List UInt8)}
    {writes : List (List UInt8)} (hwrites : sendFrames 0 calls = .ok writes)
    {reads : List SocketRead} {flight : List UInt8}
    (hnet : (reads.map SocketRead.bytes).flatten ++ flight = writes.flatten)
    (hfit : (fresh id fd t₀).ReadsFit reads) :
    ∃ trace, (fresh id fd t₀).receive reads = some trace ∧
      (trace.map Prod.snd).flatten <+: numbered 0 calls ∧
      (∀ k f, (trace.map Prod.snd).flatten[k]? = some f →
        f.sequence = UInt64.ofNat (k + 1) ∧ f.flags = 0 ∧
          calls[k]? = some (f.messageId, f.payload)) ∧
      ((fresh id fd t₀).afterAll trace).illegalCount = 0 ∧
      (flight = [] → (trace.map Prod.snd).flatten = numbered 0 calls) := by
  obtain ⟨fs, hfs, hnum⟩ := sendFrames_eq hwrites
  have hstream : ((fresh id fd t₀).recvBuf.unread ++ (reads.map SocketRead.bytes).flatten) ++
      flight = framing.encodeAll fs := by
    rw [show (fresh id fd t₀).recvBuf.unread = [] from Buffer.unread_ofInitial 4096,
      List.nil_append, hnet, hfs]
  obtain ⟨trace, ys, zs, hrec, rfl, hframes, hlast, hleft⟩ :=
    Connection.receive_initial (Connection.receiving_fresh id fd t₀) hfit hstream
  have hprefix : (trace.map Prod.snd).flatten <+: numbered 0 calls := by
    rw [hframes, ← hnum, List.map_append]
    exact List.prefix_append _ _
  refine ⟨trace, hrec, hprefix, ?_, hlast.no_illegal, ?_⟩
  · intro k f hk
    obtain ⟨rest, hrest⟩ := hprefix
    have hget : (numbered 0 calls)[k]? = some f := by
      rw [← hrest, List.getElem?_append_left (List.getElem?_eq_some_iff.mp hk).1, hk]
    obtain ⟨hseq, hflags, hcall⟩ := numbered_getElem hget
    exact ⟨by rw [hseq, zero_add], hflags, hcall⟩
  · rintro rfl
    rw [List.append_nil] at hleft
    obtain rfl := eq_nil_of_half hleft hlast.half
    rw [hframes, ← hnum, List.append_nil]

/-- A ready request, of which the server has read five bytes. -/
theorem uplink_ready : ∃ trace, (fresh 1 7 0).receive [⟨[0, 0, 0, 18, 0], 5⟩] = some trace ∧
    (trace.map Prod.snd).flatten <+: numbered 0 [(3003, [])] := by
  have hwrites : sendFrames 0 [(3003, [])] =
      .ok [[0, 0, 0, 18, 0, 0, 11, 187, 0, 0, 0, 0, 0, 0, 0, 0, 0, 1]] := by
    decide +kernel
  have hfit : (fresh 1 7 0).ReadsFit [⟨[0, 0, 0, 18, 0], 5⟩] :=
    ⟨by decide, le_trans (by decide)
      (Connection.offered_of_receiving (Connection.receiving_fresh 1 7 0)), fun _ _ => trivial⟩
  have hnet : [0, 0, 0, 18, 0] ++ [0, 11, 187, 0, 0, 0, 0, 0, 0, 0, 0, 0, 1] =
      [[0, 0, 0, 18, 0, 0, 11, 187, 0, 0, 0, 0, 0, 0, 0, 0, 0, (1 : UInt8)]].flatten := rfl
  obtain ⟨trace, hrec, hprefix, -⟩ := uplink 1 7 0 hwrites hnet hfit
  exact ⟨trace, hrec, hprefix⟩

end Robot

end MiniArena
