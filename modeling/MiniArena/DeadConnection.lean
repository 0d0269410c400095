/-
MiniArena/DeadConnection.lean

What becomes of a connection whose socket is dead.

When `::write` fails for good, `onWritable` closes the connection and leaves
the bytes it could not write in the send buffer.  `shouldCleanup` waits for
that buffer to become empty, `close` and the sends do nothing any more, and
`checkTimeouts` looks at open connections only: such a connection (`Dead`) is
left exactly as it is by every step but an event on its own socket
(`dead_step`).  So the pass of `cleanupClosed` that ends the iteration does
not remove it, and no later pass does, until the kernel reports the socket
again (`dead_run`).
-/
import MiniArena.LoopRegistry
import MiniArena.SendQueue

namespace MiniArena

/-! ### One connection -/

namespace Connection

variable {c : Connection}

/-- Closing, with bytes that are still queued. -/
def Dead (c : Connection) : Prop :=
  (c.state = .closing ∨ c.state = .closed) ∧ 0 < c.sendBuf.readable

theorem dead_onWritable (h : 0 < c.sendBuf.readable) : (c.onWritable .error).Dead := by
  have hbuf : (c.onWritable .error).sendBuf = c.sendBuf := by
    rw [sendBuf_onWritable, Buffer.writeToFd_of_refused (by simp)]
  refine ⟨?_, by rwa [hbuf]⟩
  have hne : c.sendBuf.readable ≠ 0 := Nat.ne_of_gt h
  have herror : (c.sendBuf.writeToFd .error).2 = .error := by
    simp [Buffer.writeToFd, hne]
  rw [onWritable, if_neg hne]
  dsimp only
  rw [if_pos herror, state_close]
  split
  · exact Or.inr rfl
  · exact Or.inl rfl

theorem Dead.close (h : c.Dead) : c.close = c := by
  rw [Connection.close, if_pos h.1.symm]

theorem Dead.sendRaw (h : c.Dead) (data : List UInt8) : c.sendRaw data = some c := by
  have hcan : c.canSend = false := by
    rcases h.1 with hs | hs
    · simp [canSend, hs]
    · simp [canSend, hs]
  rw [Connection.sendRaw, hcan]
  rfl

theorem Dead.shouldCleanup (h : c.Dead) : c.shouldCleanup = false := by
  have hbytes := h.2
  simp only [Connection.shouldCleanup, decide_eq_false_iff_not]
  omega

end Connection

/-- The connection of the socket `fd` stays as it is, if it is dead. -/
def Undisturbed (fd : Fd) (c c' : Connection) : Prop :=
  SameSocket c c' ∧ (c.fd = fd → c.Dead → c' = c)

theorem Undisturbed.trans {fd : Fd} (c₁ c₂ c₃ : Connection) (h : Undisturbed fd c₁ c₂)
    (h' : Undisturbed fd c₂ c₃) : Undisturbed fd c₁ c₃ := by
  refine ⟨h.1.trans _ _ _ h'.1, fun hfd hdead => ?_⟩
  obtain rfl := h.2 hfd hdead
  exact h'.2 hfd hdead

/-- Another connection may do what it likes. -/
theorem SameSocket.undisturbed {fd : Fd} {c c' : Connection} (h : SameSocket c c')
    (hfd : c.fd ≠ fd) : Undisturbed fd c c' :=
  ⟨h, fun heq => absurd heq hfd⟩

namespace EventLoop

theorem covers_undisturbed (fd : Fd) : Covers (Undisturbed fd) where
  refl := fun c => ⟨SameSocket.refl c, fun _ _ => rfl⟩
  trans := Undisturbed.trans
  close := fun c => ⟨sameSocket_close c, fun _ hdead => hdead.close⟩
  sendRaw := by
    intro c c' data hsend
    refine ⟨sameSocket_sendRaw hsend, fun _ hdead => ?_⟩
    rw [hdead.sendRaw] at hsend
    exact (Option.some.inj hsend).symm

variable {l l' : EventLoop} {id : ConnectionId} {c : Connection}

/-! ### Steps elsewhere -/

theorem lookup_of_undisturbed (hm : Moves (Undisturbed c.fd) l l')
    (hc : l.conns.lookup id = some c) (hdead : c.Dead) : l'.conns.lookup id = some c := by
  obtain ⟨c', hc', -, hsame⟩ := hm.conns.lookup_left hc
  rw [hc', hsame rfl hdead]

theorem dead_cleanup {p : EventLoop × List LoopOut} (hc : p.1.conns.lookup id = some c)
    (hdead : c.Dead) (a : ConnectionId) : (cleanup p a).1.conns.lookup id = some c := by
  unfold cleanup
  split
  · exact hc
  · rename_i c' hc'
    split
    · rename_i hclean
      have hne : id ≠ a := by
        rintro rfl
        obtain rfl := Option.some.inj (hc.symm.trans hc')
        rw [hdead.shouldCleanup] at hclean
        cases hclean
      show (p.1.conns.erase a).lookup id = _
      rw [Finmap.lookup_erase_ne hne, hc]
    · exact hc

theorem dead_cleanupClosed (hc : l.conns.lookup id = some c) (hdead : c.Dead)
    (due order : List ConnectionId) : (l.cleanupClosed due order).1.conns.lookup id = some c := by
  have hmoves := (covers_undisturbed c.fd).moves_closeConnections l due
  have hdue := lookup_of_undisturbed hmoves hc hdead
  unfold cleanupClosed
  exact List.foldlRecOn (motive := fun p : EventLoop × List LoopOut => p.1.conns.lookup id = some c)
    order cleanup (b := (due.foldl closeConnection l, [])) hdue
    fun _ hp a _ => dead_cleanup hp hdead a

/-- The event is one of the socket `fd`. -/
def OnSocket (fd : Fd) : LoopEvent → Prop
  | .epoll fd' _ _ _ _ _ => fd' = fd
  | _ => False

/-- An event of another socket is about another connection. -/
theorem dead_handleEvent {fd fd' : Fd} {readable writable : Bool} {r : ReadResult} {w : WriteResult}
    {nowMs : UInt64} {outs : List LoopOut} (hr : Registry l) (hfd : fd' ≠ fd)
    (h : l.handleEvent fd' readable writable r w nowMs = some (l', outs)) :
    Moves (Undisturbed fd) l l' := by
  have hother : ∀ {id c}, l.fdToId.lookup fd' = some id → l.conns.lookup id = some c →
      c.fd ≠ fd := by
    intro id c hid hc
    obtain ⟨c', hc', rfl⟩ := (hr.exact fd' id).mp hid
    obtain rfl := Option.some.inj (hc.symm.trans hc')
    exact hfd
  refine ((covers_undisturbed fd).moves_handleEvent h ?_ ?_).1
  · intro id c c' fs hid hc _ honread
    exact (sameSocket_onReadable honread).undisturbed (hother hid hc)
  · intro id c c' hid hc hmoved
    apply (sameSocket_onWritable c' w).undisturbed
    rw [hmoved.1.2]
    exact hother hid hc

/-- **A dead connection stays as it is**, whatever happens elsewhere. -/
theorem dead_step {past : List (LoopEvent × List LoopOut)} {ev : LoopEvent} {outs : List LoopOut}
    (h : Accounts past l) (hnodup : (addedIds past).Nodup) (hc : l.conns.lookup id = some c)
    (hdead : c.Dead) (hev : ¬ OnSocket c.fd ev) (hstep : l.step ev = some (l', outs)) :
    l'.conns.lookup id = some c := by
  have hcovers := covers_undisturbed c.fd
  unfold step at hstep
  cases ev with
  | addConnection c' =>
    obtain ⟨rfl, -⟩ := Prod.mk.injEq .. ▸ Option.some.inj hstep
    exact hc
  | sendToConnection a data =>
    obtain ⟨rfl, -⟩ := Prod.mk.injEq .. ▸ Option.some.inj hstep
    exact hc
  | drainPending ok =>
    obtain ⟨rfl, -⟩ := Prod.mk.injEq .. ▸ Option.some.inj hstep
    rcases hp : l.pendingConns with - | ⟨c', cs⟩
    · rw [drainPending_nil hp]
      exact hc
    · -- the id of the new connection has never been registered
      have hne : id ≠ c'.id := by
        rintro rfl
        have hin := (h.live c'.id).mp (Finmap.mem_iff.mpr ⟨c, hc⟩)
        exact h.head_fresh hnodup hp hin.1
      have hother := (lookup_drainPending ok hp id).resolve_right fun heq => hne heq.1
      rw [hother, hc]
  | drainPendingWrites =>
    obtain ⟨l₁, hl, heq⟩ := Option.map_eq_some_iff.mp hstep
    obtain ⟨rfl, -⟩ := Prod.mk.injEq .. ▸ heq
    exact lookup_of_undisturbed (hcovers.moves_drainPendingWrites hl) hc hdead
  | epoll fd readable writable r w nowMs =>
    exact lookup_of_undisturbed (dead_handleEvent h.registry hev hstep) hc hdead
  | closeConnection a =>
    obtain ⟨rfl, -⟩ := Prod.mk.injEq .. ▸ Option.some.inj hstep
    exact lookup_of_undisturbed (hcovers.moves_closeConnection l a) hc hdead
  | checkTimeouts nowMs timeoutMs order =>
    obtain ⟨rfl, -⟩ := Prod.mk.injEq .. ▸ Option.some.inj hstep
    have hmoves := hcovers.moves_checkTimeouts nowMs timeoutMs l order
    exact lookup_of_undisturbed hmoves hc hdead
  | cleanupClosed due order =>
    obtain ⟨rfl, -⟩ := Prod.mk.injEq .. ▸ Option.some.inj hstep
    exact dead_cleanupClosed hc hdead due order

/-! ### How a connection dies -/

/-- The event has `onWritable` of connection `id` call `::write`, which fails
for good.  A readable half before it leaves the send buffer alone. -/
def FatalWrite (l : EventLoop) (fd : Fd) (id : ConnectionId) (ev : LoopEvent) : Prop :=
  ∃ readable r nowMs c, ev = .epoll fd readable true r .error nowMs ∧
    l.fdToId.lookup fd = some id ∧ l.conns.lookup id = some c ∧ 0 < c.sendBuf.readable

/-- Reading leaves the bytes that wait to be sent. -/
theorem lookup_handleReadable {r : ReadResult} {nowMs : UInt64} {outs : List LoopOut}
    (h : l.handleReadable id c r nowMs = some (l', outs)) :
    ∃ c', l'.conns.lookup id = some c' ∧ SameSocket c c' ∧ c'.sendBuf = c.sendBuf := by
  obtain ⟨⟨c₁, fs⟩, hread, heq⟩ := Option.map_eq_some_iff.mp h
  have hsocket := sameSocket_onReadable hread
  have hbuf := Connection.sendBuf_onReadable hread
  dsimp only at heq
  split at heq
  · obtain ⟨rfl, -⟩ := Prod.mk.injEq .. ▸ heq
    refine ⟨c₁.close, ?_, hsocket.trans _ _ _ (sameSocket_close c₁), ?_⟩
    · show (Finmap.modify id Connection.close (l.conns.insert id c₁)).lookup id = _
      rw [Finmap.lookup_modify_self, Finmap.lookup_insert]
      rfl
    · rw [Connection.sendBuf_close, hbuf]
  split at heq
  · obtain ⟨rfl, -⟩ := Prod.mk.injEq .. ▸ heq
    exact ⟨c₁, Finmap.lookup_insert _, hsocket, hbuf⟩
  · obtain ⟨rfl, -⟩ := Prod.mk.injEq .. ▸ heq
    exact ⟨c₁, Finmap.lookup_insert _, hsocket, hbuf⟩

theorem dead_of_fatalWrite {fd : Fd} {ev : LoopEvent} {outs : List LoopOut} (hr : Registry l)
    (h : FatalWrite l fd id ev) (hstep : l.step ev = some (l', outs)) :
    ∃ c, l'.conns.lookup id = some c ∧ c.fd = fd ∧ c.Dead := by
  obtain ⟨readable, r, nowMs, c, rfl, hfd, hc, hbytes⟩ := h
  obtain ⟨c₀, hc₀, hfd₀⟩ := (hr.exact fd id).mp hfd
  obtain rfl := Option.some.inj (hc.symm.trans hc₀)
  simp only [step, handleEvent, hfd, hc] at hstep
  obtain ⟨⟨l₁, outs₁⟩, hread, heq⟩ := Option.map_eq_some_iff.mp hstep
  obtain ⟨rfl, -⟩ := Prod.mk.injEq .. ▸ heq
  have hfirst : ∃ c', l₁.conns.lookup id = some c' ∧ SameSocket c c' ∧ c'.sendBuf = c.sendBuf := by
    cases readable with
    | false =>
      obtain ⟨rfl, -⟩ := Prod.mk.injEq .. ▸ Option.some.inj hread
      exact ⟨c, hc, SameSocket.refl c, rfl⟩
    | true => exact lookup_handleReadable hread
  obtain ⟨c', hc', hsocket, hbuf⟩ := hfirst
  refine ⟨c'.onWritable .error, ?_, ?_, ?_⟩
  · show (l₁.conns.modify id _).lookup id = _
    rw [Finmap.lookup_modify_self, hc', Option.map_some]
  · rw [(sameSocket_onWritable c' .error).2, hsocket.2, hfd₀]
  · apply Connection.dead_onWritable
    rwa [hbuf]

/-! ### Runs -/

theorem dead_run {past rest : List (LoopEvent × List LoopOut)} (h : Accounts past l)
    (hc : l.conns.lookup id = some c) (hdead : c.Dead) (hrun : Transition.Run SocketSteps l rest l')
    (hrest : ∀ p ∈ rest, ¬ OnSocket c.fd p.1) (hids : (addedIds (past ++ rest)).Nodup) :
    Accounts (past ++ rest) l' ∧ l'.conns.lookup id = some c := by
  induction hrun generalizing past with
  | nil =>
    rw [List.append_nil]
    exact ⟨h, hc⟩
  | @cons l a l₁ as l' hstep _ ih =>
    have hsplit : past ++ a :: as = (past ++ [a]) ++ as := by simp
    rw [hsplit] at hids ⊢
    have hnodup : (addedIds past).Nodup := by
      rw [List.append_assoc, addedIds_append] at hids
      exact hids.of_append_left
    apply ih (h.step hstep.1 hstep.2 hnodup)
    · exact dead_step h hnodup hc hdead (hrest a (List.mem_cons_self ..)) hstep.1
    · exact fun p hp => hrest p (List.mem_cons_of_mem a hp)
    · exact hids

/-- **Dead connections are never reaped.**  After a fatal write error on a
connection, no pass of `cleanupClosed` takes it out of `conns_` or
`fd_to_id_`, or reports it, as long as the kernel does not return its socket
once more: neither the pass of the same iteration, with nothing but other
events before it, nor a later one. -/
theorem never_reaped {pre rest : List (LoopEvent × List LoopOut)} {a : LoopEvent × List LoopOut}
    {l₁ l₂ l₃ l₄ : EventLoop} {fd : Fd} {id : ConnectionId} {due order : List ConnectionId}
    {outs : List LoopOut} (hpre : Transition.Run SocketSteps {} pre l₁)
    (hfatal : FatalWrite l₁ fd id a.1) (ha : SocketSteps l₁ a l₂)
    (hrun : Transition.Run SocketSteps l₂ rest l₃) (hrest : ∀ p ∈ rest, ¬ OnSocket fd p.1)
    (hclean : SocketSteps l₃ (.cleanupClosed due order, outs) l₄)
    (hids : (addedIds (pre ++ a :: rest)).Nodup) :
    id ∈ l₄.conns ∧ l₄.fdToId.lookup fd = some id ∧ .disconnect id ∉ outs := by
  have hpast : (addedIds pre).Nodup := by
    rw [addedIds_append] at hids
    exact hids.of_append_left
  have h₁ := accounts_run hpre hpast
  obtain ⟨c, hc, rfl, hdead⟩ := dead_of_fatalWrite h₁.registry hfatal ha.1
  let k : LoopEvent × List LoopOut := (.cleanupClosed due order, outs)
  have hall : (addedIds ((pre ++ [a]) ++ (rest ++ [k]))).Nodup := by
    have hnone : addedIds [k] = [] := rfl
    rw [show (pre ++ [a]) ++ (rest ++ [k]) = (pre ++ a :: rest) ++ [k] by simp, addedIds_append,
      hnone, List.append_nil]
    exact hids
  have hquiet : ∀ p ∈ rest ++ [k], ¬ OnSocket c.fd p.1 := by
    intro p hp
    rcases List.mem_append.mp hp with hp | hp
    · exact hrest p hp
    · rw [List.mem_singleton.mp hp]
      exact fun h => h
  obtain ⟨h₄, hc₄⟩ := dead_run (h₁.step ha.1 ha.2 hpast) hc hdead (hrun.append (.single hclean))
    hquiet hall
  have hin : id ∈ l₄.conns := Finmap.mem_iff.mpr ⟨c, hc₄⟩
  refine ⟨hin, (h₄.registry.exact _ _).mpr ⟨c, hc₄, rfl⟩, fun hdis => ?_⟩
  apply ((h₄.live id).mp hin).2
  rw [← List.append_assoc, callbacks_concat]
  exact List.mem_append_right _ hdis

/-! ### A broken pipe -/

/-- A connection is registered in one iteration, and one byte is queued for it in the next. -/
def queueByte : List (LoopEvent × List LoopOut) :=
  [(.addConnection (Connection.fresh 1 7 0), []), (.drainPending true, []),
    (.checkTimeouts 0 15000 [1], []), (.cleanupClosed [] [1], []),
    (.sendToConnection 1 [0], []), (.drainPendingWrites, [])]

/-- The kernel reports the socket writable, and `::write` fails with `EPIPE`. -/
def brokenPipe : LoopEvent := .epoll 7 false true .again .error 0

theorem run_brokenPipe : ∃ l₁ l₂, Transition.Run SocketSteps {} queueByte l₁ ∧
    FatalWrite l₁ 7 1 brokenPipe ∧ SocketSteps l₁ (brokenPipe, []) l₂ := by
  let fresh := Connection.fresh 1 7 0
  obtain ⟨b, hsend, hwf, hun⟩ : ∃ b, fresh.sendRaw [0] = some { fresh with sendBuf := b } ∧ b.WF ∧
      b.unread = [0] := Connection.sendRaw_fresh 1 7 0 (by decide)
  have hbytes : 0 < b.readable := by
    rw [← hwf.length_unread, hun]
    exact Nat.one_pos
  -- the states of the run
  let registered : EventLoop := EventLoop.drainPending { pendingConns := [fresh] } true
  let queued : EventLoop := { registered with pendingWrites := [(1, [0])] }
  let written : EventLoop :=
    { registered with conns := registered.conns.insert 1 { fresh with sendBuf := b } }
  have hdrain : queued.step .drainPendingWrites = some (written, []) := by
    have hlook : registered.conns.lookup 1 = some fresh := rfl
    simp only [step, queued, drainPendingWrites, hlook, hsend, Option.map_some]
    rfl
  have hfree : FreshFd {} (.addConnection fresh) := by simp [FreshFd]
  have hrun : Transition.Run SocketSteps {} queueByte written :=
    .cons ⟨rfl, hfree⟩ (.cons ⟨rfl, trivial⟩ (.cons ⟨rfl, trivial⟩ (.cons ⟨rfl, trivial⟩
      (.cons (t := queued) ⟨rfl, trivial⟩ (.cons ⟨hdrain, trivial⟩ .nil)))))
  exact ⟨written, written.handleWritable 1 .error, hrun,
    ⟨false, .again, 0, { fresh with sendBuf := b }, rfl, rfl, rfl, hbytes⟩, rfl, trivial⟩

theorem never_reaped_brokenPipe : ∃ l₃ l₄ : EventLoop, ∃ outs,
    l₃.cleanupClosed [] [1] = (l₄, outs) ∧
      1 ∈ l₄.conns ∧ l₄.fdToId.lookup 7 = some 1 ∧ .disconnect 1 ∉ outs := by
  obtain ⟨l₁, l₂, hpre, hfatal, hstep⟩ := run_brokenPipe
  have hrest : Transition.Run SocketSteps l₂ [(.checkTimeouts 0 15000 [1], [])]
      (checkTimeout 0 15000 l₂ 1) := .single ⟨rfl, trivial⟩
  have hclean : SocketSteps (checkTimeout 0 15000 l₂ 1) (.cleanupClosed [] [1], _) _ :=
    ⟨rfl, trivial⟩
  exact ⟨_, _, _, rfl, never_reaped hpre hfatal hstep hrest (by simp [OnSocket]) hclean (by decide)⟩

/-- Between an event of the socket `fd` and the `cleanupClosed` of the same
iteration: `epoll_wait` has returned the socket once. -/
def SameIteration (fd : Fd) (rest : List (LoopEvent × List LoopOut)) : Prop :=
  ∀ p ∈ rest, ¬ OnSocket fd p.1 ∧ ∀ due order, p.1 ≠ .cleanupClosed due order

/-- The connection is gone, from both maps, and its owner told so. -/
structure Reaped (fd : Fd) (id : ConnectionId) (l : EventLoop) (outs : List LoopOut) : Prop where
  conns : id ∉ l.conns
  fds : l.fdToId.lookup fd = none
  told : .disconnect id ∈ outs

/-- The broken pipe is found in an iteration whose `cleanupClosed` visits every connection. -/
theorem not_reaped_brokenPipe :
    ¬ ∀ (pre rest : List (LoopEvent × List LoopOut)) (a : LoopEvent × List LoopOut)
        (l₁ l₂ l₃ l₄ : EventLoop) (fd : Fd) (id : ConnectionId) (due order : List ConnectionId)
        (outs : List LoopOut), Transition.Run SocketSteps {} pre l₁ → FatalWrite l₁ fd id a.1 →
        SocketSteps l₁ a l₂ → Transition.Run SocketSteps l₂ rest l₃ → SameIteration fd rest →
        (∀ id ∈ l₃.conns, id ∈ order) → SocketSteps l₃ (.cleanupClosed due order, outs) l₄ →
        (addedIds (pre ++ a :: rest)).Nodup → Reaped fd id l₄ outs := by
  intro hclaim
  obtain ⟨l₁, l₂, hpre, hfatal, hstep⟩ := run_brokenPipe
  let sweep : LoopEvent × List LoopOut := (.checkTimeouts 0 15000 [1], [])
  let l₃ := checkTimeout 0 15000 l₂ 1
  have hrest : Transition.Run SocketSteps l₂ [sweep] l₃ := .single ⟨rfl, trivial⟩
  have hids : (addedIds (queueByte ++ (brokenPipe, []) :: [sweep])).Nodup := by decide
  have horder : ∀ id ∈ l₃.conns, id ∈ [(1 : ConnectionId)] := by
    intro id hid
    have h₃ := accounts_run (hpre.append (.cons hstep hrest)) hids
    exact ((h₃.live id).mp hid).1
  have hclean : SocketSteps l₃ (.cleanupClosed [] [1], (l₃.cleanupClosed [] [1]).2)
      (l₃.cleanupClosed [] [1]).1 := ⟨rfl, trivial⟩
  have hreaped := hclaim _ _ _ l₁ l₂ l₃ _ 7 1 [] [1] _ hpre hfatal hstep hrest
    (by simp [SameIteration, OnSocket, sweep]) horder hclean hids
  obtain ⟨c, hc, -, hdead⟩ :=
    dead_of_fatalWrite (accounts_run hpre (by decide)).registry hfatal hstep.1
  have hmoves := (covers_undisturbed c.fd).moves_checkTimeout 0 15000 l₂ 1
  have hc₃ := lookup_of_undisturbed hmoves hc hdead
  exact hreaped.conns (Finmap.mem_iff.mpr ⟨c, dead_cleanupClosed hc₃ hdead [] [1]⟩)

end EventLoop

end MiniArena
