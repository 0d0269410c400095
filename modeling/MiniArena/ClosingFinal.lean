/-
MiniArena/ClosingFinal.lean

What becomes of a connection that is CLOSING.

Every step of the loop moves the connections one by one, and all steps but
the removals move them along `Later`, which keeps CLOSING connections
CLOSING, with one exception: a read event that delivers bytes on a CLOSING
connection (`LateRead`) goes through `updateActive`, which stores ACTIVE
whatever the state was.  Runs without late reads keep CLOSING final
(`closing_final`); `reopening` is a run with one late read that does not.

`Numbered` is the part of the invariant that is about ids: a connection is
stored under its own id, and an id is registered at most once if the
acceptor hands it out once.
-/
import MiniArena.Receive
import MiniArena.ConnectionMoves

namespace MiniArena

/-! ### One connection -/

/-- `c'` is the connection `c`, and is CLOSING if `c` is. -/
def Later (c c' : Connection) : Prop :=
  c'.id = c.id ∧ (c.state = .closing → c'.state = .closing)

theorem Later.refl (c : Connection) : Later c c := ⟨rfl, id⟩

theorem Later.trans {c₁ c₂ c₃ : Connection} (h : Later c₁ c₂) (h' : Later c₂ c₃) : Later c₁ c₃ :=
  ⟨h'.1.trans h.1, h'.2 ∘ h.2⟩

theorem later_close (c : Connection) : Later c c.close := by
  refine ⟨by simp, fun h => ?_⟩
  simp [h]

theorem later_onWritable (c : Connection) (w : WriteResult) : Later c (c.onWritable w) := by
  unfold Connection.onWritable
  split
  · exact Later.refl c
  · dsimp only
    split
    · exact later_close _
    · exact ⟨rfl, id⟩

theorem later_sendRaw {c c' : Connection} {data : List UInt8} (h : c.sendRaw data = some c') :
    Later c c' := by
  unfold Connection.sendRaw at h
  split at h
  · split at h
    · obtain rfl := Option.some.inj h
      exact later_close c
    · obtain ⟨⟨b, n⟩, -, rfl⟩ := Option.map_eq_some_iff.mp h
      exact ⟨rfl, id⟩
  · obtain rfl := Option.some.inj h
    exact Later.refl c

/-- Only bytes take `onReadable` past its first two tests. -/
theorem later_onReadable {c c' : Connection} {r : ReadResult} {nowMs : UInt64} {fs : List Frame}
    (h : c.onReadable r nowMs = some (c', fs)) (hr : ∀ bytes, r ≠ .data bytes) :
    Later c c' ∧ fs = [] := by
  obtain ⟨⟨b, r'⟩, hread, heq⟩ := Option.map_eq_some_iff.mp h
  obtain ⟨b₁, -, hb₁⟩ := Option.map_eq_some_iff.mp hread
  have hkeep : Later c { c with recvBuf := b } := ⟨rfl, id⟩
  have hclose : Later c ({ c with recvBuf := b } : Connection).close :=
    hkeep.trans (later_close _)
  cases r' with
  | eof =>
    obtain ⟨rfl, rfl⟩ := Prod.mk.injEq .. ▸ heq
    exact ⟨hclose, rfl⟩
  | again =>
    obtain ⟨rfl, rfl⟩ := Prod.mk.injEq .. ▸ heq
    exact ⟨⟨rfl, id⟩, rfl⟩
  | error =>
    obtain ⟨rfl, rfl⟩ := Prod.mk.injEq .. ▸ heq
    exact ⟨hclose, rfl⟩
  | data bytes =>
    split at hb₁
    · cases hb₁
    · split at hb₁
      · exact absurd rfl (hr _)
      · obtain ⟨-, rfl⟩ := Prod.mk.injEq .. ▸ hb₁
        exact absurd rfl (hr _)

/-- Whatever it reads, `onReadable` keeps the id. -/
theorem id_onReadable {c c' : Connection} {r : ReadResult} {nowMs : UInt64} {fs : List Frame}
    (h : c.onReadable r nowMs = some (c', fs)) : c'.id = c.id := by
  obtain ⟨⟨b, r'⟩, -, heq⟩ := Option.map_eq_some_iff.mp h
  cases r' with
  | data bytes =>
    have hid := (Connection.decodeLoop_frame
      (({ c with recvBuf := b } : Connection).updateActive nowMs)).1
    rw [show Connection.decodeLoop _ = (c', fs) from heq] at hid
    exact hid
  | again =>
    obtain ⟨rfl, -⟩ := Prod.mk.injEq .. ▸ heq
    rfl
  | _ =>
    obtain ⟨rfl, -⟩ := Prod.mk.injEq .. ▸ heq
    exact Connection.id_close _

namespace EventLoop

/-! ### All connections of a loop -/

/-- A read event that delivers bytes on a CLOSING connection. -/
def LateRead (l : EventLoop) : LoopEvent → Prop
  | .epoll fd true _ (.data _) _ _ =>
      ∃ id c, l.fdToId.lookup fd = some id ∧ l.conns.lookup id = some c ∧ c.state = .closing
  | _ => False

/-- Every connection of `l'` is one of `l`, moved along `Later`, and the other way round. -/
def Moved (l l' : EventLoop) : Prop :=
  ∀ id, Option.Rel Later (l.conns.lookup id) (l'.conns.lookup id)

theorem covers_later : Covers Later where
  refl := Later.refl
  trans := fun _ _ _ h h' => h.trans h'
  close := later_close
  sendRaw := later_sendRaw

/-- One epoll event without a late read: connections move along `Later`, and
frames come from a connection that is not CLOSING. -/
theorem moved_handleEvent {l l' : EventLoop} {fd : Fd} {readable writable : Bool} {r : ReadResult}
    {w : WriteResult} {nowMs : UInt64} {outs : List LoopOut}
    (h : l.handleEvent fd readable writable r w nowMs = some (l', outs))
    (hlate : ¬ l.LateRead (.epoll fd readable writable r w nowMs)) :
    Moves Later l l' ∧ ∀ o ∈ outs, ∃ id c fs, o = .frames id fs ∧ l.conns.lookup id = some c ∧
      c.state ≠ .closing := by
  have hbytes : ∀ {id c}, l.fdToId.lookup fd = some id → l.conns.lookup id = some c →
      readable = true → c.state = .closing → ∀ bytes, r ≠ .data bytes := by
    rintro id c hid hc rfl hcl bytes rfl
    exact hlate ⟨id, c, hid, hc, hcl⟩
  have hread : ∀ {id c c' fs}, l.fdToId.lookup fd = some id → l.conns.lookup id = some c →
      readable = true → c.onReadable r nowMs = some (c', fs) → Later c c' := by
    intro id c c' fs hid hc hreadable honread
    by_cases hcl : c.state = .closing
    · exact (later_onReadable honread (hbytes hid hc hreadable hcl)).1
    · exact ⟨id_onReadable honread, fun h => absurd h hcl⟩
  obtain ⟨hm, houts⟩ := covers_later.moves_handleEvent h hread fun _ _ _ => later_onWritable _ w
  refine ⟨hm, fun o ho => ?_⟩
  rcases houts with rfl | ⟨id, c, c', fs, hid, hc, hreadable, honread, hfs, rfl⟩
  · cases ho
  · refine ⟨id, c, fs, List.mem_singleton.mp ho, hc, fun hcl => hfs ?_⟩
    exact (later_onReadable honread (hbytes hid hc hreadable hcl)).2

/-! ### Removals -/

/-- What a stretch of the removal loop of `cleanupClosed` does. -/
structure Swept (p p' : EventLoop × List LoopOut) : Prop where
  pending_eq : p'.1.pendingConns = p.1.pendingConns
  outs_subset : ∀ o ∈ p.2, o ∈ p'.2
  outs_new : ∀ o ∈ p'.2, o ∈ p.2 ∨ ∃ id, o = .disconnect id
  fate : ∀ id, (p'.1.conns.lookup id = p.1.conns.lookup id ∧
      (.disconnect id ∈ p'.2 → .disconnect id ∈ p.2)) ∨
    (p'.1.conns.lookup id = none ∧ .disconnect id ∈ p'.2)

theorem Swept.refl (p : EventLoop × List LoopOut) : Swept p p where
  pending_eq := rfl
  outs_subset := fun _ ho => ho
  outs_new := fun _ ho => Or.inl ho
  fate := fun _ => Or.inl ⟨rfl, id⟩

theorem Swept.trans {p₁ p₂ p₃ : EventLoop × List LoopOut} (h : Swept p₁ p₂)
    (h' : Swept p₂ p₃) : Swept p₁ p₃ where
  pending_eq := h'.pending_eq.trans h.pending_eq
  outs_subset := fun o ho => h'.outs_subset o (h.outs_subset o ho)
  outs_new := by
    intro o ho
    rcases h'.outs_new o ho with ho | ho
    · exact h.outs_new o ho
    · exact Or.inr ho
  fate := by
    intro id
    rcases h'.fate id with ⟨hlook', hout'⟩ | ⟨hlook', hout'⟩
    · rcases h.fate id with ⟨hlook, hout⟩ | ⟨hlook, hout⟩
      · exact Or.inl ⟨hlook'.trans hlook, hout ∘ hout'⟩
      · exact Or.inr ⟨hlook'.trans hlook, h'.outs_subset _ hout⟩
    · exact Or.inr ⟨hlook', hout'⟩

/-- Connections are stored under their own ids. -/
def OwnIds (l : EventLoop) : Prop := ∀ id c, l.conns.lookup id = some c → c.id = id

theorem swept_cleanup {p : EventLoop × List LoopOut} (hown : p.1.OwnIds) (id : ConnectionId) :
    Swept p (cleanup p id) ∧ (cleanup p id).1.OwnIds := by
  unfold cleanup
  split
  · exact ⟨Swept.refl p, hown⟩
  rename_i c hc
  split
  · refine ⟨⟨rfl, fun o ho => List.mem_append_left _ ho, ?_, ?_⟩, ?_⟩
    · intro o ho
      rcases List.mem_append.mp ho with ho | ho
      · exact Or.inl ho
      · exact Or.inr ⟨c.id, List.mem_singleton.mp ho⟩
    · intro a
      rw [hown id c hc]
      by_cases ha : a = id
      · subst ha
        exact Or.inr ⟨Finmap.lookup_erase _ _, by simp⟩
      · exact Or.inl ⟨Finmap.lookup_erase_ne ha, by simp [ha]⟩
    · intro a ca hca
      rw [Finmap.lookup_erase_eq] at hca
      split at hca
      · cases hca
      · exact hown a ca hca
  · exact ⟨Swept.refl p, hown⟩

theorem swept_foldl {p : EventLoop × List LoopOut} (hown : p.1.OwnIds)
    (order : List ConnectionId) : Swept p (order.foldl cleanup p) := by
  induction order generalizing p with
  | nil => exact Swept.refl p
  | cons id order ih =>
    obtain ⟨hsw, hown'⟩ := swept_cleanup hown id
    exact hsw.trans (ih hown')

theorem Moved.lookup {l l' : EventLoop} (h : Moved l l') {id : ConnectionId} {c' : Connection}
    (hc' : l'.conns.lookup id = some c') : ∃ c, l.conns.lookup id = some c ∧ Later c c' :=
  Finmap.Pointwise.lookup h hc'

theorem Moved.ownIds {l l' : EventLoop} (h : Moved l l') (hown : l.OwnIds) : l'.OwnIds := by
  intro id c' hc'
  obtain ⟨c, hc, hl⟩ := h.lookup hc'
  exact hl.1.trans (hown id c hc)

/-! ### Ids are registered once -/

/-- The ids of the connections handed to `addConnection`, in order. -/
def addedIds (past : List (LoopEvent × List LoopOut)) : List ConnectionId :=
  past.filterMap fun p =>
    match p.1 with
    | .addConnection c => some c.id
    | _ => none

/-- `done` are the ids `drainPending` has taken off its queue. -/
structure Numbered (past : List (LoopEvent × List LoopOut)) (done : List ConnectionId)
    (l : EventLoop) : Prop where
  added_eq : addedIds past = done ++ l.pendingConns.map Connection.id
  registered : ∀ id c, l.conns.lookup id = some c → id ∈ done
  own : l.OwnIds

/-- What a step without a late read does, seen from one connection `id`. -/
structure StepFor (id : ConnectionId) (l : EventLoop) (outs : List LoopOut) (l' : EventLoop) :
    Prop where
  closing : ∀ c, l.conns.lookup id = some c → c.state = .closing →
    (∃ c', l'.conns.lookup id = some c' ∧ c'.state = .closing ∧ .disconnect id ∉ outs) ∨
      (l'.conns.lookup id = none ∧ .disconnect id ∈ outs)
  absent : l.conns.lookup id = none → l'.conns.lookup id = none
  frames : ∀ fs, .frames id fs ∈ outs → ∃ c, l.conns.lookup id = some c ∧ c.state ≠ .closing

theorem Moved.stepFor {l l' : EventLoop} {outs : List LoopOut} (h : Moved l l')
    (id : ConnectionId) (hd : .disconnect id ∉ outs)
    (hf : ∀ fs, .frames id fs ∈ outs → ∃ c, l.conns.lookup id = some c ∧ c.state ≠ .closing) :
    StepFor id l outs l' where
  closing := by
    intro c hc hcl
    obtain ⟨c', hc', hl⟩ := Finmap.Pointwise.lookup_left h hc
    exact Or.inl ⟨c', hc', hl.2 hcl, hd⟩
  absent := by
    intro hc
    rcases hc' : l'.conns.lookup id with - | c'
    · rfl
    · obtain ⟨c, hc₀, -⟩ := h.lookup hc'
      rw [hc] at hc₀
      cases hc₀
  frames := hf

theorem Moved.registered {l l' : EventLoop} {done : List ConnectionId} (h : Moved l l')
    (hreg : ∀ id c, l.conns.lookup id = some c → id ∈ done) :
    ∀ id c, l'.conns.lookup id = some c → id ∈ done := by
  intro id c' hc'
  obtain ⟨c, hc, -⟩ := h.lookup hc'
  exact hreg id c hc

/-- What a step leads to: the ids stay numbered, and every connection whose
id was already taken off the queue makes a `StepFor`, unless its id was
handed in twice. -/
def Advances (past : List (LoopEvent × List LoopOut)) (done : List ConnectionId)
    (l : EventLoop) (e : LoopEvent × List LoopOut) (l' : EventLoop) : Prop :=
  ∃ done', (∀ id ∈ done, id ∈ done') ∧ Numbered (past ++ [e]) done' l' ∧
    ∀ id ∈ done, (addedIds past).Nodup → StepFor id l e.2 l'

section Step

variable {past : List (LoopEvent × List LoopOut)} {done : List ConnectionId} {l l' : EventLoop}

theorem addedIds_append (past past' : List (LoopEvent × List LoopOut)) :
    addedIds (past ++ past') = addedIds past ++ addedIds past' := List.filterMap_append

/-- A step that moves the connections and leaves the queue alone. -/
theorem advances_of_moves {e : LoopEvent × List LoopOut} (hm : Moves Later l l')
    (hn : Numbered past done l) (hnone : addedIds [e] = []) (hd : ∀ id, .disconnect id ∉ e.2)
    (hf : ∀ id fs, .frames id fs ∈ e.2 → ∃ c, l.conns.lookup id = some c ∧ c.state ≠ .closing) :
    Advances past done l e l' := by
  have hmoved : Moved l l' := hm.conns
  refine ⟨done, fun _ h => h, ⟨?_, hmoved.registered hn.registered, hmoved.ownIds hn.own⟩, ?_⟩
  · rw [addedIds_append, hnone, hm.pending, List.append_nil, hn.added_eq]
  · intro id _ _
    exact hmoved.stepFor id (hd id) (hf id)

theorem advances_addConnection (hn : Numbered past done l) (c : Connection) :
    Advances past done l (.addConnection c, [])
      { l with pendingConns := l.pendingConns ++ [c] } := by
  refine ⟨done, fun _ h => h, ⟨?_, hn.registered, hn.own⟩, ?_⟩
  · rw [addedIds_append, hn.added_eq]
    simp [addedIds]
  · intro id _ _
    have hm : Moved l { l with pendingConns := l.pendingConns ++ [c] } :=
      (covers_later.moves_refl l).conns
    exact hm.stepFor id (by simp) (by simp)

/-- Registering the connection at the head of the queue leaves the others alone. -/
theorem lookup_drainPending {c : Connection} {cs : List Connection} (registered : Bool)
    (hq : l.pendingConns = c :: cs) (a : ConnectionId) :
    (l.drainPending registered).conns.lookup a = l.conns.lookup a ∨
      a = c.id ∧ (l.drainPending registered).conns.lookup a = some c := by
  cases registered with
  | false =>
    rw [drainPending_false hq]
    exact Or.inl rfl
  | true =>
    rw [drainPending_true hq, Finmap.lookup_insert_eq]
    by_cases ha : a = c.id
    · right; simp [ha]
    · left; simp [ha]

theorem advances_drainPending (hn : Numbered past done l) (registered : Bool) :
    Advances past done l (.drainPending registered, []) (l.drainPending registered) := by
  rcases hq : l.pendingConns with - | ⟨c, cs⟩
  · rw [drainPending_nil hq]
    exact advances_of_moves (covers_later.moves_refl l) hn rfl (by simp) (by simp)
  have hlook := lookup_drainPending registered hq
  have hids : addedIds past = (done ++ [c.id]) ++ cs.map Connection.id := by
    rw [hn.added_eq, hq]
    simp
  have hcs : (l.drainPending registered).pendingConns = cs := by
    cases registered with
    | false => rw [drainPending_false hq]
    | true => rw [drainPending_true hq]
  refine ⟨done ++ [c.id], fun _ h => List.mem_append_left _ h, ⟨?_, ?_, ?_⟩, ?_⟩
  · rw [addedIds_append, hids, hcs]
    simp [addedIds]
  · intro a ca hca
    rcases hlook a with heq | ⟨rfl, -⟩
    · exact List.mem_append_left _ (hn.registered a ca (heq ▸ hca))
    · simp
  · intro a ca hca
    rcases hlook a with heq | ⟨rfl, heq⟩
    · exact hn.own a ca (heq ▸ hca)
    · obtain rfl := Option.some.inj (heq.symm.trans hca)
      rfl
  · -- a queued connection has none of the ids of `done`
    intro id hid hnodup
    have hne : id ≠ c.id := by
      rintro rfl
      rw [hids, List.nodup_append, List.nodup_append] at hnodup
      exact hnodup.1.2.2 _ hid _ (by simp) rfl
    have heq : (l.drainPending registered).conns.lookup id = l.conns.lookup id :=
      (hlook id).resolve_right fun h => hne h.1
    exact ⟨fun c hc hcl => Or.inl ⟨c, heq ▸ hc, hcl, by simp⟩, fun hc => heq ▸ hc, by simp⟩

/-- The heartbeat callbacks move the connections, then the removals sweep them. -/
theorem advances_cleanupClosed (hn : Numbered past done l) (due order : List ConnectionId) :
    Advances past done l (.cleanupClosed due order, (l.cleanupClosed due order).2)
      (l.cleanupClosed due order).1 := by
  have hmoves := covers_later.moves_closeConnections l due
  have hm : Moved l (due.foldl closeConnection l) := hmoves.conns
  have hsw : Swept (due.foldl closeConnection l, []) (l.cleanupClosed due order) :=
    swept_foldl (hm.ownIds hn.own) order
  have hback : ∀ id c, (l.cleanupClosed due order).1.conns.lookup id = some c →
      (due.foldl closeConnection l).conns.lookup id = some c := by
    intro id c hc
    rcases hsw.fate id with ⟨heq, -⟩ | ⟨hnone, -⟩
    · exact heq ▸ hc
    · rw [hnone] at hc
      cases hc
  refine ⟨done, fun _ h => h, ⟨?_, ?_, ?_⟩, ?_⟩
  · rw [addedIds_append, hsw.pending_eq, hmoves.pending, hn.added_eq]
    simp [addedIds]
  · intro id c hc
    exact hm.registered hn.registered id c (hback id c hc)
  · intro id c hc
    exact hm.ownIds hn.own id c (hback id c hc)
  · intro id _ _
    -- first what the callbacks close, then whether the sweep takes it
    have hclosed : StepFor id l [] (due.foldl closeConnection l) :=
      hm.stepFor id (by simp) (by simp)
    refine ⟨?_, ?_, ?_⟩
    · intro c hc hcl
      rcases hclosed.closing c hc hcl with ⟨c', hc', hcl', -⟩ | ⟨-, h⟩
      · rcases hsw.fate id with ⟨heq, hout⟩ | hgone
        · exact Or.inl ⟨c', heq ▸ hc', hcl', fun h => by simpa using hout h⟩
        · exact Or.inr hgone
      · simp at h
    · intro hc
      rcases hsw.fate id with ⟨heq, -⟩ | ⟨hnone, -⟩
      · exact heq.trans (hclosed.absent hc)
      · exact hnone
    · intro fs hfs
      rcases hsw.outs_new _ hfs with h | ⟨_, h⟩
      · simp at h
      · cases h

/-- **One step** that is not a late read. -/
theorem advances_step {e : LoopEvent × List LoopOut} (hn : Numbered past done l)
    (hstep : Steps l e l') (hlate : ¬ l.LateRead e.1) : Advances past done l e l' := by
  obtain ⟨ev, outs⟩ := e
  cases ev with
  | addConnection c =>
    obtain ⟨rfl, rfl⟩ := Prod.mk.injEq .. ▸ Option.some.inj hstep
    exact advances_addConnection hn c
  | sendToConnection id data =>
    obtain ⟨rfl, rfl⟩ := Prod.mk.injEq .. ▸ Option.some.inj hstep
    have hm : Moves Later l { l with pendingWrites := l.pendingWrites ++ [(id, data)] } :=
      ⟨rfl, rfl, (covers_later.moves_refl l).conns⟩
    exact advances_of_moves hm hn rfl (by simp) (by simp)
  | drainPending registered =>
    obtain ⟨rfl, rfl⟩ := Prod.mk.injEq .. ▸ Option.some.inj hstep
    exact advances_drainPending hn registered
  | drainPendingWrites =>
    obtain ⟨l₁, hdrain, heq⟩ := Option.map_eq_some_iff.mp hstep
    obtain ⟨rfl, rfl⟩ := Prod.mk.injEq .. ▸ heq
    exact advances_of_moves (covers_later.moves_drainPendingWrites hdrain) hn rfl (by simp) (by simp)
  | epoll fd readable writable r w nowMs =>
    obtain ⟨hm, ho⟩ := moved_handleEvent hstep hlate
    refine advances_of_moves hm hn rfl ?_ ?_
    · intro id hid
      obtain ⟨_, _, _, heq, -, -⟩ := ho _ hid
      cases heq
    · intro id fs hid
      obtain ⟨_, c, _, heq, hc, hcl⟩ := ho _ hid
      cases heq
      exact ⟨c, hc, hcl⟩
  | closeConnection id =>
    obtain ⟨rfl, rfl⟩ := Prod.mk.injEq .. ▸ Option.some.inj hstep
    exact advances_of_moves (covers_later.moves_closeConnection l id) hn rfl (by simp) (by simp)
  | checkTimeouts nowMs timeoutMs order =>
    obtain ⟨rfl, rfl⟩ := Prod.mk.injEq .. ▸ Option.some.inj hstep
    have hm := covers_later.moves_checkTimeouts nowMs timeoutMs l order
    exact advances_of_moves hm hn rfl (by simp) (by simp)
  | cleanupClosed due order =>
    obtain ⟨rfl, rfl⟩ := Prod.mk.injEq .. ▸ Option.some.inj hstep
    exact advances_cleanupClosed hn due order

end Step

/-! ### Runs -/

/-- The steps that are no late reads. -/
def TimelySteps (l : EventLoop) (e : LoopEvent × List LoopOut) (l' : EventLoop) : Prop :=
  Steps l e l' ∧ ¬ l.LateRead e.1

/-- `id`, once CLOSING, after the labels `past`: still CLOSING, or removed by
`cleanupClosed` for good; no frames were handed out for it. -/
structure StaysClosed (id : ConnectionId) (past : List (LoopEvent × List LoopOut))
    (l : EventLoop) : Prop where
  closing_or_removed :
    (∃ c, l.conns.lookup id = some c ∧ c.state = .closing ∧
        ∀ p ∈ past, .disconnect id ∉ p.2) ∨
      (l.conns.lookup id = none ∧
        ∃ due order outs, (.cleanupClosed due order, outs) ∈ past ∧ .disconnect id ∈ outs)
  no_frames : ∀ p ∈ past, ∀ fs, .frames id fs ∉ p.2

/-- Only `cleanupClosed` reports a disconnect. -/
theorem cleanupClosed_of_disconnect {l l' : EventLoop} {e : LoopEvent × List LoopOut}
    {id : ConnectionId} (hstep : TimelySteps l e l') (h : .disconnect id ∈ e.2) :
    ∃ due order, e.1 = .cleanupClosed due order := by
  obtain ⟨ev, outs⟩ := e
  obtain ⟨hstep, hlate⟩ := hstep
  cases ev with
  | cleanupClosed due order => exact ⟨due, order, rfl⟩
  | drainPendingWrites =>
    obtain ⟨l₁, -, heq⟩ := Option.map_eq_some_iff.mp hstep
    obtain ⟨-, rfl⟩ := Prod.mk.injEq .. ▸ heq
    cases h
  | epoll fd readable writable r w nowMs =>
    obtain ⟨-, ho⟩ := moved_handleEvent hstep hlate
    obtain ⟨_, _, _, heq, -, -⟩ := ho _ h
    cases heq
  | _ =>
    obtain ⟨-, rfl⟩ := Prod.mk.injEq .. ▸ Option.some.inj hstep
    cases h

theorem staysClosed_step {l l' : EventLoop} {past : List (LoopEvent × List LoopOut)}
    {e : LoopEvent × List LoopOut} {id : ConnectionId} (h : StaysClosed id past l)
    (hstep : TimelySteps l e l') (hfor : StepFor id l e.2 l') : StaysClosed id (past ++ [e]) l' := by
  have hno : ∀ fs, .frames id fs ∉ e.2 := by
    intro fs hfs
    obtain ⟨c, hc, hncl⟩ := hfor.frames fs hfs
    rcases h.closing_or_removed with ⟨c', hc', hcl', -⟩ | ⟨hnone, -⟩
    · obtain rfl := Option.some.inj (hc.symm.trans hc')
      exact hncl hcl'
    · rw [hnone] at hc
      cases hc
  refine ⟨?_, ?_⟩
  · rcases h.closing_or_removed with ⟨c, hc, hcl, hpast⟩ | ⟨hnone, due, order, outs, hmem, hout⟩
    · rcases hfor.closing c hc hcl with ⟨c', hc', hcl', hout⟩ | ⟨hgone, hout⟩
      · left
        refine ⟨c', hc', hcl', fun p hp => ?_⟩
        rcases List.mem_append.mp hp with hp | hp
        · exact hpast p hp
        · rwa [List.mem_singleton.mp hp]
      · right
        obtain ⟨due, order, hev⟩ := cleanupClosed_of_disconnect hstep hout
        exact ⟨hgone, due, order, e.2, by simp [← hev], hout⟩
    · right
      exact ⟨hfor.absent hnone, due, order, outs, List.mem_append_left _ hmem, hout⟩
  · intro p hp
    rcases List.mem_append.mp hp with hp | hp
    · exact h.no_frames p hp
    · rwa [List.mem_singleton.mp hp]

theorem numbered_run {past : List (LoopEvent × List LoopOut)} {l : EventLoop}
    (h : Transition.Run TimelySteps {} past l) : ∃ done, Numbered past done l := by
  have hstart : ∃ done, Numbered [] done ({} : EventLoop) := by
    refine ⟨[], rfl, ?_, ?_⟩
    · intro id c hc
      simp at hc
    · intro id c hc
      simp at hc
  refine h.history (I := fun past l => ∃ done, Numbered past done l) ?_ hstart
  rintro past l e l' ⟨done, hn⟩ ⟨hstep, hlate⟩
  obtain ⟨done', -, hn', -⟩ := advances_step hn hstep hlate
  exact ⟨done', hn'⟩

/-- **Closing is final without late reads.**  In every run of the loop whose
read events deliver no bytes on a CLOSING connection, a connection that has
become CLOSING stays so until `cleanupClosed` removes it, and no frames are
handed out for it. -/
theorem closing_final {pre post : List (LoopEvent × List LoopOut)} {l₁ l₂ : EventLoop}
    {id : ConnectionId} {c : Connection} (hids : (addedIds (pre ++ post)).Nodup)
    (hpre : Transition.Run TimelySteps {} pre l₁) (hc : l₁.conns.lookup id = some c)
    (hcl : c.state = .closing) (hpost : Transition.Run TimelySteps l₁ post l₂) :
    StaysClosed id post l₂ := by
  obtain ⟨done, hn⟩ := numbered_run hpre
  -- ids handed out once stay distinct along the run
  let I : List (LoopEvent × List LoopOut) → EventLoop → Prop := fun past l =>
    (addedIds (pre ++ past)).Nodup →
      StaysClosed id past l ∧ ∃ done, Numbered (pre ++ past) done l ∧ id ∈ done
  have hstart : I [] l₁ := by
    intro _
    refine ⟨⟨Or.inl ⟨c, hc, hcl, by simp⟩, by simp⟩, done, by rwa [List.append_nil], ?_⟩
    exact hn.registered id c hc
  have hrun : I ([] ++ post) l₂ := by
    refine hpost.history (I := I) ?_ hstart
    intro past l e l' hI hstep hnodup
    rw [← List.append_assoc, addedIds_append, List.nodup_append] at hnodup
    obtain ⟨hclosed, done, hn, hid⟩ := hI hnodup.1
    obtain ⟨done', hmono, hn', hfor⟩ := advances_step hn hstep.1 hstep.2
    refine ⟨staysClosed_step hclosed hstep (hfor id hid hnodup.1), done', ?_, hmono id hid⟩
    rwa [← List.append_assoc]
  exact (hrun hids).1

/-! ### A connection that closes, and one that comes back -/

/-- One connection, registered and closed before anything was sent. -/
def closedLoop : EventLoop :=
  (EventLoop.drainPending { pendingConns := [Connection.fresh 1 7 0] } true).closeConnection 1

theorem closing_final_closedLoop :
    StaysClosed 1 [(.cleanupClosed [] [1], [.disconnect 1])] (closedLoop.cleanupClosed [] [1]).1 := by
  have hpre : Transition.Run TimelySteps {}
      [(.addConnection (Connection.fresh 1 7 0), []), (.drainPending true, []),
        (.closeConnection 1, [])] closedLoop :=
    .cons ⟨rfl, id⟩ (.cons ⟨rfl, id⟩ (.cons ⟨rfl, id⟩ .nil))
  have hlook : closedLoop.conns.lookup 1 = some (Connection.fresh 1 7 0).close := rfl
  exact closing_final (by decide) hpre hlook rfl (.cons ⟨rfl, id⟩ .nil)

/-- A reply is queued, the connection is closed, and then the kernel still
delivers the client's last frame: `updateActive` reopens the connection and
the frame goes to `frame_cb_`. -/
theorem reopening :
    ¬ ∀ (pre post : List (LoopEvent × List LoopOut)) (l₁ l₂ : EventLoop) (id : ConnectionId)
        (c : Connection), (addedIds (pre ++ post)).Nodup → Transition.Run Steps {} pre l₁ →
        l₁.conns.lookup id = some c → c.state = .closing → Transition.Run Steps l₁ post l₂ →
        StaysClosed id post l₂ := by
  intro hclaim
  let fresh := Connection.fresh 1 7 0
  obtain ⟨b, hsend, -⟩ : ∃ b, fresh.sendRaw [0] = some { fresh with sendBuf := b } ∧ b.WF ∧
      b.unread = [0] := Connection.sendRaw_fresh 1 7 0 (by decide)
  let closing : Connection := { fresh with sendBuf := b, state := .closing }
  -- the states of the run
  let registered : EventLoop := EventLoop.drainPending { pendingConns := [fresh] } true
  let queued : EventLoop := { registered with pendingWrites := [(1, [0])] }
  let written : EventLoop :=
    { registered with conns := registered.conns.insert 1 { fresh with sendBuf := b } }
  let closed := written.closeConnection 1
  have hdrain : queued.step .drainPendingWrites = some (written, []) := by
    have hlook : registered.conns.lookup 1 = some fresh := rfl
    simp only [step, queued, drainPendingWrites, hlook, hsend, Option.map_some]
    rfl
  have hlook : closed.conns.lookup 1 = some closing := rfl
  have hpre : Transition.Run Steps {}
      [(.addConnection fresh, []), (.drainPending true, []), (.sendToConnection 1 [0], []),
        (.drainPendingWrites, []), (.closeConnection 1, [])] closed :=
    .cons rfl (.cons rfl (.cons rfl (.cons hdrain (.cons rfl .nil))))
  -- the late read
  have hrecv : closing.Receiving := by
    have h := Connection.receiving_fresh 1 7 0
    exact ⟨h.wf, h.capacity_le, h.half, h.no_illegal⟩
  have hnil : closing.recvBuf.unread = [] := Buffer.unread_ofInitial 4096
  have hfit : moveFrame.bytes.length ≤ closing.offered :=
    le_trans (by decide) (Connection.offered_of_receiving hrecv)
  have hbytes : (closing.recvBuf.unread ++ moveFrame.bytes) ++ []
      = WireFrame.framing.encodeAll [moveFrame] := by
    rw [hnil]
    rfl
  obtain ⟨c', ys, zs, hread, -, hd, -, -, hact⟩ :=
    Connection.onReadable_data hrecv 0 hfit hbytes
  have hys : ys = [moveFrame] := by
    have hpending : WireFrame.framing.scan closing.recvBuf.unread = none := by
      rw [hnil]
      rfl
    have hfeeds : WireFrame.framing.Feeds closing.recvBuf.unread [moveFrame.bytes] [ys]
        c'.recvBuf.unread := .cons hd .nil
    have hcut : closing.recvBuf.unread ++ [moveFrame.bytes].flatten =
        WireFrame.framing.encodeAll [moveFrame] := by
      rw [hnil]
      rfl
    obtain ⟨hall, -⟩ := WireFrame.framing.feeds_exact hfeeds hpending hcut
    simpa using hall
  subst hys
  let reopened : EventLoop := { closed with conns := closed.conns.insert 1 c' }
  have hlate : Steps closed (.epoll 7 true false (.data moveFrame.bytes) .again 0,
      [.frames 1 [moveFrame.toFrame]]) reopened := by
    have hfd : closed.fdToId.lookup 7 = some 1 := rfl
    have hne : c'.state ≠ .closing := by rw [hact]; decide
    simp [Steps, step, handleEvent, hfd, hlook, handleReadable, hread, hne, reopened]
  have hids : (addedIds ([(.addConnection fresh, []), (.drainPending true, []),
      (.sendToConnection 1 [0], []), (.drainPendingWrites, []), (.closeConnection 1, [])] ++
      [(.epoll 7 true false (.data moveFrame.bytes) .again 0,
        [.frames 1 [moveFrame.toFrame]])])).Nodup := List.nodup_singleton _
  have hstays := hclaim _ _ closed reopened 1 closing hids hpre hlook rfl (.single hlate)
  exact hstays.no_frames _ (List.mem_singleton.mpr rfl) [moveFrame.toFrame]
    (List.mem_singleton.mpr rfl)

end EventLoop

end MiniArena
