/-
MiniArena/ConnectionMoves.lean

What the loop does to its connections, in terms of what a connection does.

Most steps of the loop keep the queue, the descriptors and the ids, and move
some connections by calls of `close`, `sendRaw`, `onReadable` and `onWritable`.
`Moves R l l'` says that they move along a relation `R`.  A relation that has
`close` and `sendRaw` in it (`Covers`) has all the steps of the loop in it that
are no epoll events; for these, `moves_handleEvent` asks about the read and the
write of the connection the event is about.  The passes of `cleanupClosed` are
described by what a look-up returns after them.
-/
import MiniArena.EventLoop

namespace MiniArena

namespace EventLoop

variable {R : Connection → Connection → Prop} {l l' l'' : EventLoop} {id : ConnectionId}
variable {c : Connection}

/-- The same queue and descriptors, and connections that are moved along `R`. -/
structure Moves (R : Connection → Connection → Prop) (l l' : EventLoop) : Prop where
  pending : l'.pendingConns = l.pendingConns
  fds : l'.fdToId = l.fdToId
  conns : Finmap.Pointwise R l.conns l'.conns

/-- `R` has what the loop does on its own account to a connection. -/
structure Covers (R : Connection → Connection → Prop) : Prop where
  refl : ∀ c, R c c
  trans : ∀ c₁ c₂ c₃, R c₁ c₂ → R c₂ c₃ → R c₁ c₃
  close : ∀ c, R c c.close
  sendRaw : ∀ {c c' data}, c.sendRaw data = some c' → R c c'

theorem Covers.moves_refl (h : Covers R) (l : EventLoop) : Moves R l l :=
  ⟨rfl, rfl, .refl h.refl _⟩

theorem Covers.moves_trans (h : Covers R) (h₁ : Moves R l l') (h₂ : Moves R l' l'') :
    Moves R l l'' :=
  ⟨h₂.pending.trans h₁.pending, h₂.fds.trans h₁.fds, h₁.conns.trans h.trans h₂.conns⟩

/-- Replacing the connection found under `id`. -/
theorem Covers.moves_insert (h : Covers R) (hc : l.conns.lookup id = some c) {c' : Connection}
    (hR : R c c') : Moves R l { l with conns := l.conns.insert id c' } :=
  ⟨rfl, rfl, .insert h.refl hc hR⟩

theorem Covers.moves_closeConnection (h : Covers R) (l : EventLoop) (id : ConnectionId) :
    Moves R l (l.closeConnection id) :=
  ⟨rfl, rfl, .modify h.refl id h.close⟩

theorem Covers.moves_checkTimeout (h : Covers R) (nowMs timeoutMs : UInt64) (l : EventLoop)
    (id : ConnectionId) : Moves R l (checkTimeout nowMs timeoutMs l id) := by
  unfold checkTimeout
  split
  · exact h.moves_refl l
  · split
    · split
      · exact h.moves_closeConnection l _
      · exact h.moves_refl l
    · exact h.moves_refl l

theorem Covers.moves_foldl (h : Covers R) {f : EventLoop → ConnectionId → EventLoop}
    (hf : ∀ l id, Moves R l (f l id)) (l : EventLoop) (ids : List ConnectionId) :
    Moves R l (ids.foldl f l) := by
  induction ids generalizing l with
  | nil => exact h.moves_refl l
  | cons id ids ih => exact h.moves_trans (hf l id) (ih (f l id))

theorem Covers.moves_closeConnections (h : Covers R) (l : EventLoop) (due : List ConnectionId) :
    Moves R l (due.foldl closeConnection l) :=
  h.moves_foldl h.moves_closeConnection l due

theorem Covers.moves_checkTimeouts (h : Covers R) (nowMs timeoutMs : UInt64) (l : EventLoop)
    (order : List ConnectionId) : Moves R l (order.foldl (checkTimeout nowMs timeoutMs) l) :=
  h.moves_foldl (h.moves_checkTimeout nowMs timeoutMs) l order

theorem Covers.moves_drainPendingWrites (h : Covers R) (hl : l.drainPendingWrites = some l') :
    Moves R l l' := by
  unfold drainPendingWrites at hl
  split at hl
  · obtain rfl := Option.some.inj hl
    exact h.moves_refl l
  · dsimp only at hl
    split at hl
    · obtain rfl := Option.some.inj hl
      exact ⟨rfl, rfl, .refl h.refl _⟩
    · rename_i c hc
      obtain ⟨c', hsend, rfl⟩ := Option.map_eq_some_iff.mp hl
      exact ⟨rfl, rfl, .insert h.refl hc (h.sendRaw hsend)⟩

/-- The readable half: the frames handed out are the ones the connection has decoded. -/
theorem Covers.moves_handleReadable (h : Covers R) {r : ReadResult} {nowMs : UInt64}
    {outs : List LoopOut} (hl : l.handleReadable id c r nowMs = some (l', outs))
    (hc : l.conns.lookup id = some c)
    (hread : ∀ {c' fs}, c.onReadable r nowMs = some (c', fs) → R c c') :
    Moves R l l' ∧ (outs = [] ∨ ∃ c' fs, c.onReadable r nowMs = some (c', fs) ∧ fs ≠ [] ∧
      outs = [.frames id fs]) := by
  obtain ⟨⟨c', fs⟩, honread, heq⟩ := Option.map_eq_some_iff.mp hl
  dsimp only at heq
  have hmoves := h.moves_insert hc (hread honread)
  split at heq
  · obtain ⟨rfl, rfl⟩ := Prod.mk.injEq .. ▸ heq
    exact ⟨h.moves_trans hmoves (h.moves_closeConnection _ id), Or.inl rfl⟩
  split at heq
  · rename_i hfs
    obtain ⟨rfl, rfl⟩ := Prod.mk.injEq .. ▸ heq
    exact ⟨hmoves, Or.inr ⟨c', fs, honread, hfs, rfl⟩⟩
  · obtain ⟨rfl, rfl⟩ := Prod.mk.injEq .. ▸ heq
    exact ⟨hmoves, Or.inl rfl⟩

/-- One epoll event, which is about the connection `fd_to_id_` names, if it names one. -/
theorem Covers.moves_handleEvent (h : Covers R) {fd : Fd} {readable writable : Bool}
    {r : ReadResult} {w : WriteResult} {nowMs : UInt64} {outs : List LoopOut}
    (hl : l.handleEvent fd readable writable r w nowMs = some (l', outs))
    (hread : ∀ {id c c' fs}, l.fdToId.lookup fd = some id → l.conns.lookup id = some c →
      readable = true → c.onReadable r nowMs = some (c', fs) → R c c')
    (hwrite : ∀ {id c c'}, l.fdToId.lookup fd = some id → l.conns.lookup id = some c → R c c' →
      R c' (c'.onWritable w)) :
    Moves R l l' ∧ (outs = [] ∨ ∃ id c c' fs, l.fdToId.lookup fd = some id ∧
      l.conns.lookup id = some c ∧ readable = true ∧ c.onReadable r nowMs = some (c', fs) ∧
      fs ≠ [] ∧ outs = [.frames id fs]) := by
  unfold handleEvent at hl
  split at hl
  · obtain ⟨rfl, rfl⟩ := Prod.mk.injEq .. ▸ Option.some.inj hl
    exact ⟨h.moves_refl l, Or.inl rfl⟩
  rename_i id hid
  split at hl
  · obtain ⟨rfl, rfl⟩ := Prod.mk.injEq .. ▸ Option.some.inj hl
    exact ⟨h.moves_refl l, Or.inl rfl⟩
  rename_i c hc
  obtain ⟨⟨l₁, outs₁⟩, hfirst, heq⟩ := Option.map_eq_some_iff.mp hl
  obtain ⟨hl', rfl⟩ := Prod.mk.injEq .. ▸ heq
  -- the readable half, when there is one
  have hhalf : Moves R l l₁ ∧ (outs₁ = [] ∨ ∃ id c c' fs, l.fdToId.lookup fd = some id ∧
      l.conns.lookup id = some c ∧ readable = true ∧ c.onReadable r nowMs = some (c', fs) ∧
      fs ≠ [] ∧ outs₁ = [.frames id fs]) := by
    cases readable with
    | false =>
      obtain ⟨rfl, rfl⟩ := Prod.mk.injEq .. ▸ Option.some.inj hfirst
      exact ⟨h.moves_refl l, Or.inl rfl⟩
    | true =>
      obtain ⟨hmoves, houts⟩ := h.moves_handleReadable hfirst hc (hread hid hc rfl)
      refine ⟨hmoves, houts.imp_right ?_⟩
      rintro ⟨c', fs, hrest⟩
      exact ⟨id, c, c', fs, hid, hc, rfl, hrest⟩
  obtain ⟨hmoves, houts⟩ := hhalf
  refine ⟨?_, houts⟩
  subst hl'
  split
  · obtain ⟨c₁, hc₁, hR⟩ := hmoves.conns.lookup_left hc
    refine h.moves_trans hmoves ⟨rfl, rfl, ?_⟩
    show Finmap.Pointwise R l₁.conns (l₁.conns.modify id fun c => c.onWritable w)
    rw [Finmap.modify_of_lookup hc₁]
    exact .insert h.refl hc₁ (hwrite hid hc hR)
  · exact hmoves

/-- All steps move connections, but the epoll events and those that add or remove some. -/
theorem Covers.moves_step (h : Covers R) {e : LoopEvent} {outs : List LoopOut}
    (hstep : l.step e = some (l', outs)) (hadd : ∀ c, e ≠ .addConnection c)
    (hdrain : ∀ ok, e ≠ .drainPending ok) (hclean : ∀ due order, e ≠ .cleanupClosed due order)
    (hepoll : ∀ fd readable writable r w nowMs, e ≠ .epoll fd readable writable r w nowMs) :
    Moves R l l' := by
  cases e with
  | addConnection c => exact absurd rfl (hadd c)
  | drainPending ok => exact absurd rfl (hdrain ok)
  | cleanupClosed due order => exact absurd rfl (hclean due order)
  | epoll fd readable writable r w nowMs =>
    exact absurd rfl (hepoll fd readable writable r w nowMs)
  | sendToConnection id data =>
    obtain ⟨rfl, -⟩ := Prod.mk.injEq .. ▸ Option.some.inj hstep
    exact ⟨rfl, rfl, (h.moves_refl l).conns⟩
  | drainPendingWrites =>
    obtain ⟨l₁, hl, heq⟩ := Option.map_eq_some_iff.mp hstep
    obtain ⟨rfl, -⟩ := Prod.mk.injEq .. ▸ heq
    exact h.moves_drainPendingWrites hl
  | closeConnection id =>
    obtain ⟨rfl, -⟩ := Prod.mk.injEq .. ▸ Option.some.inj hstep
    exact h.moves_closeConnection l id
  | checkTimeouts nowMs timeoutMs order =>
    obtain ⟨rfl, -⟩ := Prod.mk.injEq .. ▸ Option.some.inj hstep
    exact h.moves_checkTimeouts nowMs timeoutMs l order

theorem covers_any : Covers fun _ _ => True where
  refl := fun _ => trivial
  trans := fun _ _ _ _ _ => trivial
  close := fun _ => trivial
  sendRaw := fun _ => trivial

/-- Connections come by `addConnection` and `drainPending` and go by `cleanupClosed` only. -/
theorem keeps_step {e : LoopEvent} {outs : List LoopOut}
    (h : l.step e = some (l', outs)) (hadd : ∀ c, e ≠ .addConnection c)
    (hdrain : ∀ ok, e ≠ .drainPending ok) (hclean : ∀ due order, e ≠ .cleanupClosed due order) :
    l'.pendingConns = l.pendingConns ∧ ∀ id, id ∈ l'.conns ↔ id ∈ l.conns := by
  have hmoves : Moves (fun _ _ => True) l l' := by
    by_cases hepoll : ∃ fd readable writable r w nowMs, e = .epoll fd readable writable r w nowMs
    · obtain ⟨fd, readable, writable, r, w, nowMs, rfl⟩ := hepoll
      exact (covers_any.moves_handleEvent h (fun _ _ _ _ => trivial) fun _ _ _ => trivial).1
    · apply covers_any.moves_step h hadd hdrain hclean
      intro fd readable writable r w nowMs heq
      exact hepoll ⟨fd, readable, writable, r, w, nowMs, heq⟩
  exact ⟨hmoves.pending, fun id => hmoves.conns.mem_iff⟩

/-! ### The passes of `cleanupClosed` -/

theorem lookup_cleanup (p : EventLoop × List LoopOut) (a id : ConnectionId) :
    (cleanup p a).1.conns.lookup id =
      if id = a then (p.1.conns.lookup id).filter (!·.shouldCleanup) else p.1.conns.lookup id := by
  unfold cleanup
  rcases hc : p.1.conns.lookup a with - | c
  · dsimp only
    split
    · rename_i heq
      rw [heq, hc]
      rfl
    · rfl
  · dsimp only
    split
    · rename_i hclean
      show (p.1.conns.erase a).lookup id = _
      rw [Finmap.lookup_erase_eq]
      split
      · rename_i heq
        rw [heq, hc, Option.filter_some, hclean]
        rfl
      · rfl
    · rename_i hclean
      split
      · rename_i heq
        rw [heq, hc, Option.filter_some]
        simp [hclean]
      · rfl

/-- The removals of a pass over `order`. -/
theorem lookup_cleanups (p : EventLoop × List LoopOut) (order : List ConnectionId)
    (id : ConnectionId) :
    (order.foldl cleanup p).1.conns.lookup id =
      if id ∈ order then (p.1.conns.lookup id).filter (!·.shouldCleanup)
      else p.1.conns.lookup id := by
  induction order generalizing p with
  | nil => simp
  | cons a order ih =>
    rw [List.foldl_cons, ih, lookup_cleanup]
    by_cases hid : id = a
    · subst hid
      simp
    · simp [hid]

theorem close_close (c : Connection) : c.close.close = c.close := by
  have hstate : c.close.state = .closed ∨ c.close.state = .closing := by
    rw [Connection.state_close]
    split
    · exact Or.inl rfl
    · exact Or.inr rfl
  rw [Connection.close, if_pos hstate]

theorem lookup_closeConnections (l : EventLoop) (due : List ConnectionId) (id : ConnectionId) :
    (due.foldl closeConnection l).conns.lookup id =
      if id ∈ due then (l.conns.lookup id).map Connection.close else l.conns.lookup id := by
  induction due generalizing l with
  | nil => simp
  | cons a due ih =>
    rw [List.foldl_cons, ih]
    show (if id ∈ due then ((l.conns.modify a Connection.close).lookup id).map Connection.close
      else (l.conns.modify a Connection.close).lookup id) = _
    by_cases hid : id = a
    · subst hid
      rw [Finmap.lookup_modify_self, Option.map_map,
        show Connection.close ∘ Connection.close = Connection.close from funext close_close]
      simp
    · rw [Finmap.lookup_modify_of_ne _ _ hid]
      simp [hid]

theorem queues_cleanups (p : EventLoop × List LoopOut) (order : List ConnectionId) :
    (order.foldl cleanup p).1.pendingConns = p.1.pendingConns ∧
      (order.foldl cleanup p).1.pendingWrites = p.1.pendingWrites := by
  induction order generalizing p with
  | nil => exact ⟨rfl, rfl⟩
  | cons a order ih =>
    have hone : (cleanup p a).1.pendingConns = p.1.pendingConns ∧
        (cleanup p a).1.pendingWrites = p.1.pendingWrites := by
      unfold cleanup
      split
      · exact ⟨rfl, rfl⟩
      · split <;> exact ⟨rfl, rfl⟩
    rw [List.foldl_cons]
    exact ⟨(ih _).1.trans hone.1, (ih _).2.trans hone.2⟩

theorem pendingConns_cleanupClosed (l : EventLoop) (due order : List ConnectionId) :
    (l.cleanupClosed due order).1.pendingConns = l.pendingConns :=
  (queues_cleanups _ order).1.trans (covers_any.moves_closeConnections l due).pending

/-- `cleanupClosed` closes connections and removes some; the others it keeps. -/
theorem Covers.lookup_cleanupClosed (h : Covers R) {due order : List ConnectionId}
    (hc : (l.cleanupClosed due order).1.conns.lookup id = some c) :
    ∃ c₀, l.conns.lookup id = some c₀ ∧ R c₀ c := by
  apply (h.moves_closeConnections l due).conns.lookup
  have hlook : (l.cleanupClosed due order).1.conns.lookup id = _ := lookup_cleanups _ order id
  rw [hlook] at hc
  split at hc
  · exact (Option.filter_eq_some_iff.mp hc).1
  · exact hc

end EventLoop

end MiniArena
