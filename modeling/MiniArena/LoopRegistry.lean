/-
MiniArena/LoopRegistry.lean

The two maps of an event loop, `conns_` and `fd_to_id_`, and what its callbacks
tell about them.

A step of the loop does one of three things to the maps: it registers the
connection at the head of the queue, it keeps all connections at their ids and
descriptors (`Moves SameSocket`), or it removes some of them, with one
disconnect callback each (`Removes`).  `step_cases` says so; everything else
here follows from it and from what the events so far have put into the queue
and taken out of it (`enrolled`).

The kernel gives a descriptor to one open socket at a time, so a connection
that is handed in has a descriptor no other one of the loop has (`FreshFd`).
-/
import MiniArena.ClosingFinal
import MiniArena.Index

namespace MiniArena

/-! ### One connection keeps its socket -/

def SameSocket (c c' : Connection) : Prop := c'.id = c.id ∧ c'.fd = c.fd

theorem SameSocket.refl (c : Connection) : SameSocket c c := ⟨rfl, rfl⟩

theorem SameSocket.trans (c₁ c₂ c₃ : Connection) (h : SameSocket c₁ c₂) (h' : SameSocket c₂ c₃) :
    SameSocket c₁ c₃ := ⟨h'.1.trans h.1, h'.2.trans h.2⟩

theorem sameSocket_close (c : Connection) : SameSocket c c.close :=
  ⟨Connection.id_close c, Connection.fd_close c⟩

theorem sameSocket_onWritable (c : Connection) (w : WriteResult) :
    SameSocket c (c.onWritable w) := by
  unfold Connection.onWritable
  split
  · exact SameSocket.refl c
  · dsimp only
    split
    · exact sameSocket_close _
    · exact ⟨rfl, rfl⟩

theorem sameSocket_sendRaw {c c' : Connection} {data : List UInt8}
    (h : c.sendRaw data = some c') : SameSocket c c' := by
  unfold Connection.sendRaw at h
  split at h
  · split at h
    · obtain rfl := Option.some.inj h
      exact sameSocket_close c
    · obtain ⟨⟨b, n⟩, -, rfl⟩ := Option.map_eq_some_iff.mp h
      exact ⟨rfl, rfl⟩
  · obtain rfl := Option.some.inj h
    exact SameSocket.refl c

theorem sameSocket_onReadable {c c' : Connection} {r : ReadResult} {nowMs : UInt64}
    {fs : List Frame} (h : c.onReadable r nowMs = some (c', fs)) : SameSocket c c' := by
  obtain ⟨⟨b, r'⟩, -, heq⟩ := Option.map_eq_some_iff.mp h
  cases r' with
  | data bytes =>
    obtain ⟨hid, hfd, -⟩ := Connection.decodeLoop_frame
      (({ c with recvBuf := b } : Connection).updateActive nowMs)
    rw [show Connection.decodeLoop _ = (c', fs) from heq] at hid hfd
    exact ⟨hid, hfd⟩
  | again =>
    obtain ⟨rfl, -⟩ := Prod.mk.injEq .. ▸ heq
    exact SameSocket.refl _
  | eof =>
    obtain ⟨rfl, -⟩ := Prod.mk.injEq .. ▸ heq
    exact sameSocket_close _
  | error =>
    obtain ⟨rfl, -⟩ := Prod.mk.injEq .. ▸ heq
    exact sameSocket_close _

/-- The connection a callback is about. -/
def LoopOut.conn : LoopOut → ConnectionId
  | .frames id _ => id
  | .disconnect id => id

namespace EventLoop

/-! ### Steps that keep the connections -/

theorem covers_sameSocket : Covers SameSocket where
  refl := SameSocket.refl
  trans := SameSocket.trans
  close := sameSocket_close
  sendRaw := sameSocket_sendRaw

/-- An epoll event moves connections, and hands out the frames of a registered one. -/
theorem kept_handleEvent {l l' : EventLoop} {fd : Fd} {readable writable : Bool} {r : ReadResult}
    {w : WriteResult} {nowMs : UInt64} {outs : List LoopOut}
    (h : l.handleEvent fd readable writable r w nowMs = some (l', outs)) :
    Moves SameSocket l l' ∧ (outs = [] ∨ ∃ id ∈ l.conns, ∃ fs, outs = [.frames id fs]) := by
  obtain ⟨hmoves, houts⟩ := covers_sameSocket.moves_handleEvent h
    (fun _ _ _ honread => sameSocket_onReadable honread) fun _ _ _ => sameSocket_onWritable _ w
  refine ⟨hmoves, houts.imp_right ?_⟩
  rintro ⟨id, c, -, fs, -, hc, -, -, -, rfl⟩
  exact ⟨id, Finmap.mem_iff.mpr ⟨c, hc⟩, fs, rfl⟩

/-! ### Steps that remove connections -/

/-- The maps are inverse to each other, and connections are stored under their ids. -/
structure Registry (l : EventLoop) : Prop where
  own : l.OwnIds
  exact : Index.Exact l.fdToId l.conns Connection.fd

theorem Moves.registry {l l' : EventLoop} (h : Moves SameSocket l l') (hr : Registry l) : Registry l' where
  own := by
    intro id c' hc'
    obtain ⟨c, hc, hid, -⟩ := h.conns.lookup hc'
    exact hid.trans (hr.own id c hc)
  exact := by
    rw [h.fds]
    exact hr.exact.pointwise (fun _ _ hs => hs.2) h.conns

/-- The connections `removed` are gone, each with one disconnect callback. -/
structure Removes (l l' : EventLoop) (outs : List LoopOut) (removed : List ConnectionId) :
    Prop where
  pending : l'.pendingConns = l.pendingConns
  registry : Registry l'
  outs_eq : outs = removed.map LoopOut.disconnect
  nodup : removed.Nodup
  present : ∀ id ∈ removed, id ∈ l.conns
  mem_iff : ∀ id, id ∈ l'.conns ↔ id ∈ l.conns ∧ id ∉ removed
  lookup_eq : ∀ id c, l'.conns.lookup id = some c → ∃ c₀, l.conns.lookup id = some c₀ ∧
    SameSocket c₀ c

theorem Removes.count_disconnect {l l' : EventLoop} {outs : List LoopOut}
    {removed : List ConnectionId} (h : Removes l l' outs removed) (id : ConnectionId) :
    outs.count (.disconnect id) = removed.count id := by
  rw [h.outs_eq]
  exact List.count_map_of_injective _ _ (fun _ _ => LoopOut.disconnect.inj) id

theorem removes_foldl {l l' : EventLoop} {outs : List LoopOut} {removed : List ConnectionId}
    (h : Removes l l' outs removed) (order : List ConnectionId) :
    ∃ removed', Removes l (order.foldl cleanup (l', outs)).1 (order.foldl cleanup (l', outs)).2
      removed' := by
  induction order generalizing l' outs removed with
  | nil => exact ⟨removed, h⟩
  | cons id order ih =>
    rw [List.foldl_cons]
    rcases hc : l'.conns.lookup id with - | c
    · rw [show cleanup (l', outs) id = (l', outs) by simp only [cleanup, hc]]
      exact ih h
    by_cases hclean : c.shouldCleanup = true
    · have hid := h.registry.own id c hc
      have hin : id ∈ l'.conns := Finmap.mem_iff.mpr ⟨c, hc⟩
      obtain ⟨hl, hnot⟩ := (h.mem_iff id).mp hin
      have hstep : cleanup (l', outs) id =
          ({ l' with fdToId := l'.fdToId.erase c.fd, conns := l'.conns.erase id },
            outs ++ [.disconnect id]) := by
        simp only [cleanup, hc, hclean, if_true, hid]
      -- the connection and its descriptor go, and the callback is told its id
      have hnext : Removes l
          { l' with fdToId := l'.fdToId.erase c.fd, conns := l'.conns.erase id }
          (outs ++ [.disconnect id]) (removed ++ [id]) := by
        refine ⟨h.pending, ⟨?_, h.registry.exact.erase hc⟩, ?_, ?_, ?_, ?_, ?_⟩
        · intro a ca hca
          rw [Finmap.lookup_erase_eq] at hca
          split at hca
          · cases hca
          · exact h.registry.own a ca hca
        · rw [h.outs_eq, List.map_append]
          rfl
        · rw [List.nodup_append]
          refine ⟨h.nodup, List.nodup_singleton _, ?_⟩
          rintro a ha b hb rfl
          obtain rfl := List.mem_singleton.mp hb
          exact hnot ha
        · intro a ha
          rcases List.mem_append.mp ha with ha | ha
          · exact h.present a ha
          · obtain rfl := List.mem_singleton.mp ha
            exact hl
        · intro a
          rw [Finmap.mem_erase, h.mem_iff a, List.mem_append, List.mem_singleton]
          tauto
        · intro a ca hca
          rw [Finmap.lookup_erase_eq] at hca
          split at hca
          · cases hca
          · exact h.lookup_eq a ca hca
      rw [hstep]
      exact ih hnext
    · rw [show cleanup (l', outs) id = (l', outs) by simp only [cleanup, hc, if_neg hclean]]
      exact ih h

/-! ### One step -/

/-- What a step of the loop does to the queue and to the two maps. -/
inductive StepCase (l : EventLoop) : LoopEvent → List LoopOut → EventLoop → Prop
  | enqueue (c : Connection) :
      StepCase l (.addConnection c) [] { l with pendingConns := l.pendingConns ++ [c] }
  | register {c : Connection} {cs : List Connection} (hp : l.pendingConns = c :: cs) :
      StepCase l (.drainPending true) [] { l with
        pendingConns := cs
        fdToId := l.fdToId.insert c.fd c.id
        conns := l.conns.insert c.id c }
  | drop {c : Connection} {cs : List Connection} (hp : l.pendingConns = c :: cs) :
      StepCase l (.drainPending false) [] { l with pendingConns := cs }
  | keep {ev : LoopEvent} {outs : List LoopOut} {l' : EventLoop}
      (hadd : ∀ c, ev ≠ .addConnection c) (hdrain : ∀ ok, ev = .drainPending ok → l.pendingConns = [])
      (hkept : Moves SameSocket l l') (houts : outs = [] ∨ ∃ id ∈ l.conns, ∃ fs, outs = [.frames id fs]) :
      StepCase l ev outs l'
  | remove {due order : List ConnectionId} {outs : List LoopOut} {l' : EventLoop}
      {removed : List ConnectionId} (h : Removes l l' outs removed) :
      StepCase l (.cleanupClosed due order) outs l'

/-- **What a step can do.** -/
theorem step_cases {l l' : EventLoop} {ev : LoopEvent} {outs : List LoopOut} (hr : Registry l)
    (h : l.step ev = some (l', outs)) : StepCase l ev outs l' := by
  unfold step at h
  cases ev with
  | addConnection c =>
    obtain ⟨rfl, rfl⟩ := Prod.mk.injEq .. ▸ Option.some.inj h
    exact .enqueue c
  | sendToConnection id data =>
    obtain ⟨rfl, rfl⟩ := Prod.mk.injEq .. ▸ Option.some.inj h
    exact .keep nofun nofun ⟨rfl, rfl, (covers_sameSocket.moves_refl l).conns⟩ (Or.inl rfl)
  | drainPending registered =>
    obtain ⟨rfl, rfl⟩ := Prod.mk.injEq .. ▸ Option.some.inj h
    rcases hp : l.pendingConns with - | ⟨c, cs⟩
    · rw [drainPending_nil hp]
      exact .keep nofun (fun _ _ => hp) (covers_sameSocket.moves_refl l) (Or.inl rfl)
    · cases registered with
      | true =>
        rw [drainPending_true hp]
        exact .register hp
      | false =>
        rw [drainPending_false hp]
        exact .drop hp
  | drainPendingWrites =>
    obtain ⟨l₁, hl, heq⟩ := Option.map_eq_some_iff.mp h
    obtain ⟨rfl, rfl⟩ := Prod.mk.injEq .. ▸ heq
    exact .keep nofun nofun (covers_sameSocket.moves_drainPendingWrites hl) (Or.inl rfl)
  | epoll fd readable writable r w nowMs =>
    obtain ⟨hkept, houts⟩ := kept_handleEvent h
    exact .keep nofun nofun hkept houts
  | closeConnection id =>
    obtain ⟨rfl, rfl⟩ := Prod.mk.injEq .. ▸ Option.some.inj h
    exact .keep nofun nofun (covers_sameSocket.moves_closeConnection l id) (Or.inl rfl)
  | checkTimeouts nowMs timeoutMs order =>
    obtain ⟨rfl, rfl⟩ := Prod.mk.injEq .. ▸ Option.some.inj h
    have hmoves := covers_sameSocket.moves_checkTimeouts nowMs timeoutMs l order
    exact .keep nofun nofun hmoves (Or.inl rfl)
  | cleanupClosed due order =>
    have hkept := covers_sameSocket.moves_closeConnections l due
    have hstart : Removes l (due.foldl closeConnection l) [] [] := by
      refine ⟨hkept.pending, hkept.registry hr, rfl, List.nodup_nil, nofun, ?_, ?_⟩
      · intro id
        rw [hkept.conns.mem_iff]
        simp
      · exact fun id c hc => hkept.conns.lookup hc
    obtain ⟨removed, hremoved⟩ := removes_foldl hstart order
    obtain ⟨rfl, rfl⟩ := Prod.mk.injEq .. ▸ Option.some.inj h
    exact .remove hremoved

/-! ### What the events so far have done -/

/-- The ids in the queue and the registered ids, as the events make them. -/
def enroll (q : List ConnectionId × List ConnectionId) (a : LoopEvent × List LoopOut) :
    List ConnectionId × List ConnectionId :=
  match a.1 with
  | .addConnection c => (q.1 ++ [c.id], q.2)
  | .drainPending ok =>
      match q.1 with
      | [] => q
      | id :: ids => (ids, if ok then q.2 ++ [id] else q.2)
  | _ => q

def enrolled (past : List (LoopEvent × List LoopOut)) : List ConnectionId × List ConnectionId :=
  past.foldl enroll ([], [])

/-- The ids registered so far. -/
def registered (past : List (LoopEvent × List LoopOut)) : List ConnectionId := (enrolled past).2

/-- The callbacks so far. -/
def callbacks (past : List (LoopEvent × List LoopOut)) : List LoopOut := past.flatMap Prod.snd

theorem enrolled_concat (past : List (LoopEvent × List LoopOut)) (a : LoopEvent × List LoopOut) :
    enrolled (past ++ [a]) = enroll (enrolled past) a := by
  rw [enrolled, List.foldl_append]
  rfl

/-- What is registered has been registered. -/
theorem registered_concat {past : List (LoopEvent × List LoopOut)} {id : ConnectionId}
    (h : id ∈ registered past) (a : LoopEvent × List LoopOut) : id ∈ registered (past ++ [a]) := by
  obtain ⟨ev, outs⟩ := a
  rw [registered, enrolled_concat]
  rw [registered] at h
  cases ev with
  | drainPending ok =>
    rcases hq : enrolled past with ⟨- | ⟨head, queue⟩, reg⟩ <;> rw [hq] at h
    · exact h
    · cases ok with
      | true => exact List.mem_append_left _ h
      | false => exact h
  | _ => exact h

theorem callbacks_concat (past : List (LoopEvent × List LoopOut)) (a : LoopEvent × List LoopOut) :
    callbacks (past ++ [a]) = callbacks past ++ a.2 := by
  simp [callbacks]

/-- Nothing is enrolled more often than it has been handed in. -/
theorem count_enrolled (past : List (LoopEvent × List LoopOut)) (id : ConnectionId) :
    (enrolled past).1.count id + (enrolled past).2.count id ≤ (addedIds past).count id := by
  induction past using List.reverseRecOn with
  | nil => exact le_refl _
  | append_singleton past a ih =>
    obtain ⟨ev, outs⟩ := a
    rw [enrolled_concat, addedIds_append, List.count_append]
    rcases hq : enrolled past with ⟨queue, reg⟩
    rw [hq] at ih
    cases ev with
    | addConnection c =>
      show (queue ++ [c.id]).count id + reg.count id ≤ _ + [c.id].count id
      rw [List.count_append]
      dsimp only at ih
      omega
    | drainPending ok =>
      cases queue with
      | nil => exact ih.trans (Nat.le_add_right _ _)
      | cons head queue =>
        have hhead := List.count_cons (a := id) (b := head) (l := queue)
        dsimp only at ih
        rw [hhead] at ih
        cases ok with
        | true =>
          show queue.count id + (reg ++ [head]).count id ≤ _
          rw [List.count_append, List.count_singleton]
          omega
        | false =>
          show queue.count id + reg.count id ≤ _
          omega
    | _ => exact ih.trans (Nat.le_add_right _ _)

/-- Ids that are handed in once are in the queue or registered, and not both. -/
theorem nodup_enrolled {past : List (LoopEvent × List LoopOut)} (h : (addedIds past).Nodup) :
    ((enrolled past).1 ++ (enrolled past).2).Nodup := by
  rw [List.nodup_iff_count_le_one] at h ⊢
  intro id
  rw [List.count_append]
  exact (count_enrolled past id).trans (h id)

/-- The connection handed in has a descriptor no open connection of the loop has. -/
def FreshFd (l : EventLoop) : LoopEvent → Prop
  | .addConnection c => (∀ c' ∈ l.pendingConns, c'.fd ≠ c.fd) ∧
      ∀ id c', l.conns.lookup id = some c' → c'.fd ≠ c.fd
  | _ => True

/-- A frame callback comes after the registration and before the disconnect callback. -/
def FramesInTime (before : List (LoopEvent × List LoopOut)) (a : LoopEvent × List LoopOut) : Prop :=
  ∀ id fs, .frames id fs ∈ a.2 → id ∈ registered before ∧ .disconnect id ∉ callbacks (before ++ [a])

/-- The ids of the table in terms of the past. -/
structure Ledger (past : List (LoopEvent × List LoopOut)) (l : EventLoop) : Prop where
  live : ∀ id, id ∈ l.conns ↔ id ∈ registered past ∧ .disconnect id ∉ callbacks past
  once : ∀ id, (callbacks past).count (.disconnect id) ≤ 1
  known : ∀ o ∈ callbacks past, o.conn ∈ registered past
  frames : Transition.Throughout FramesInTime past

/-- A step without disconnect callbacks, which registers the connections `new`. -/
theorem Ledger.extend {past : List (LoopEvent × List LoopOut)} {l l' : EventLoop}
    {a : LoopEvent × List LoopOut} (h : Ledger past l) (new : List ConnectionId)
    (hreg : registered (past ++ [a]) = registered past ++ new)
    (hnew : ∀ id ∈ new, id ∉ registered past)
    (hmem : ∀ id, id ∈ l'.conns ↔ id ∈ l.conns ∨ id ∈ new)
    (hquiet : ∀ id, .disconnect id ∉ a.2) (hframes : ∀ id fs, .frames id fs ∈ a.2 → id ∈ l.conns) :
    Ledger (past ++ [a]) l' := by
  have hsame : ∀ id, .disconnect id ∈ callbacks (past ++ [a]) ↔ .disconnect id ∈ callbacks past := by
    intro id
    rw [callbacks_concat, List.mem_append]
    exact or_iff_left (hquiet id)
  refine ⟨?_, ?_, ?_, ?_⟩
  · intro id
    rw [hmem, hsame, hreg, List.mem_append, h.live]
    constructor
    · rintro (⟨hin, hnot⟩ | hin)
      · exact ⟨Or.inl hin, hnot⟩
      · exact ⟨Or.inr hin, fun hdis => hnew id hin (h.known _ hdis)⟩
    · rintro ⟨hin | hin, hnot⟩
      · exact Or.inl ⟨hin, hnot⟩
      · exact Or.inr hin
  · intro id
    rw [callbacks_concat, List.count_append, List.count_eq_zero_of_not_mem (hquiet id)]
    exact h.once id
  · intro o ho
    rw [hreg]
    apply List.mem_append_left
    rw [callbacks_concat, List.mem_append] at ho
    rcases ho with ho | ho
    · exact h.known o ho
    · cases o with
      | frames id fs => exact ((h.live id).mp (hframes id fs ho)).1
      | disconnect id => exact absurd ho (hquiet id)
  · rw [Transition.throughout_concat]
    refine ⟨h.frames, fun id fs hfs => ?_⟩
    rw [hsame]
    exact (h.live id).mp (hframes id fs hfs)

/-- A step that removes connections. -/
theorem Ledger.remove {past : List (LoopEvent × List LoopOut)} {l l' : EventLoop}
    {a : LoopEvent × List LoopOut} {removed : List ConnectionId} (h : Ledger past l)
    (hreg : registered (past ++ [a]) = registered past) (hrem : Removes l l' a.2 removed) :
    Ledger (past ++ [a]) l' := by
  have hout : ∀ id, .disconnect id ∈ a.2 ↔ id ∈ removed := by
    intro id
    rw [← List.count_pos_iff, hrem.count_disconnect, List.count_pos_iff]
  refine ⟨?_, ?_, ?_, ?_⟩
  · intro id
    rw [hrem.mem_iff, h.live, hreg, callbacks_concat, List.mem_append, hout]
    tauto
  · intro id
    rw [callbacks_concat, List.count_append, hrem.count_disconnect]
    by_cases hid : id ∈ removed
    · have hlive := (h.live id).mp (hrem.present id hid)
      rw [List.count_eq_zero_of_not_mem hlive.2]
      have := List.nodup_iff_count_le_one.mp hrem.nodup id
      omega
    · rw [List.count_eq_zero_of_not_mem hid]
      exact h.once id
  · intro o ho
    rw [hreg]
    rw [callbacks_concat, List.mem_append] at ho
    rcases ho with ho | ho
    · exact h.known o ho
    · rw [hrem.outs_eq] at ho
      obtain ⟨id, hid, rfl⟩ := List.mem_map.mp ho
      exact ((h.live id).mp (hrem.present id hid)).1
  · rw [Transition.throughout_concat]
    refine ⟨h.frames, fun id fs hfs => ?_⟩
    rw [hrem.outs_eq] at hfs
    obtain ⟨_, -, heq⟩ := List.mem_map.mp hfs
    cases heq

/-- The loop in terms of its past. -/
structure Accounts (past : List (LoopEvent × List LoopOut)) (l : EventLoop) : Prop
    extends Ledger past l where
  queue : (enrolled past).1 = l.pendingConns.map Connection.id
  registry : Registry l
  fds : (l.pendingConns.map Connection.fd).Nodup
  apart : ∀ c ∈ l.pendingConns, ∀ id c', l.conns.lookup id = some c' → c'.fd ≠ c.fd

theorem accounts_empty : Accounts [] {} where
  queue := rfl
  registry := ⟨by simp [OwnIds], Index.exact_empty⟩
  fds := List.nodup_nil
  apart := nofun
  live := by simp [registered, enrolled, Finmap.notMem_empty]
  once := by simp [callbacks]
  known := by simp [callbacks]
  frames := Transition.throughout_nil

section Step

variable {past : List (LoopEvent × List LoopOut)} {l l' : EventLoop} {ev : LoopEvent}
variable {outs : List LoopOut} {c : Connection} {cs : List Connection}

theorem Accounts.enrolled_eq (h : Accounts past l) :
    enrolled past = (l.pendingConns.map Connection.id, registered past) := Prod.ext h.queue rfl

/-- The head of the queue is registered for the first time. -/
theorem Accounts.head_fresh (h : Accounts past l) (hnodup : (addedIds past).Nodup)
    (hp : l.pendingConns = c :: cs) : c.id ∉ registered past := by
  have hids := nodup_enrolled hnodup
  rw [h.queue, hp] at hids
  intro hin
  exact (List.nodup_append.mp hids).2.2 c.id (List.mem_cons_self ..) c.id hin rfl

/-- Its descriptor is free. -/
theorem Accounts.head_free (h : Accounts past l) (hp : l.pendingConns = c :: cs) :
    l.fdToId.lookup c.fd = none := by
  rcases hfd : l.fdToId.lookup c.fd with - | id
  · rfl
  · obtain ⟨c', hc', heq⟩ := (h.registry.exact _ _).mp hfd
    exact absurd heq (h.apart c (hp ▸ List.mem_cons_self ..) id c' hc')

theorem Accounts.enqueue (h : Accounts past l) (hfd : FreshFd l (.addConnection c)) :
    Accounts (past ++ [(.addConnection c, [])])
      { l with pendingConns := l.pendingConns ++ [c] } := by
  obtain ⟨hpending, hconns⟩ := hfd
  have hen : enrolled (past ++ [(.addConnection c, [])]) =
      ((l.pendingConns ++ [c]).map Connection.id, registered past) := by
    rw [enrolled_concat, h.enrolled_eq, List.map_append]
    rfl
  have hledger : Ledger (past ++ [(.addConnection c, [])]) l :=
    h.toLedger.extend [] (by rw [registered, hen]; simp) nofun (by simp) nofun nofun
  refine { toLedger := ⟨hledger.live, hledger.once, hledger.known, hledger.frames⟩
           queue := by rw [hen], registry := ⟨h.registry.own, h.registry.exact⟩
           fds := ?_, apart := ?_ }
  · rw [List.map_append, List.nodup_append]
    refine ⟨h.fds, List.nodup_singleton _, ?_⟩
    rintro fd hfd _ hone rfl
    obtain ⟨c', hc', heq⟩ := List.mem_map.mp hfd
    obtain rfl := List.mem_singleton.mp hone
    exact hpending c' hc' heq
  · intro c' hc'
    rcases List.mem_append.mp hc' with hc' | hc'
    · exact h.apart c' hc'
    · obtain rfl := List.mem_singleton.mp hc'
      exact hconns

theorem Accounts.register (h : Accounts past l) (hnodup : (addedIds past).Nodup)
    (hp : l.pendingConns = c :: cs) :
    Accounts (past ++ [(.drainPending true, [])]) { l with
      pendingConns := cs
      fdToId := l.fdToId.insert c.fd c.id
      conns := l.conns.insert c.id c } := by
  have hen : enrolled (past ++ [(.drainPending true, [])]) =
      (cs.map Connection.id, registered past ++ [c.id]) := by
    rw [enrolled_concat, h.enrolled_eq, hp]
    rfl
  have hfresh := h.head_fresh hnodup hp
  have habsent : l.conns.lookup c.id = none := by
    rw [Finmap.lookup_eq_none, h.live]
    exact fun hin => hfresh hin.1
  have hledger : Ledger (past ++ [(.drainPending true, [])])
      { l with conns := l.conns.insert c.id c } := h.toLedger.extend [c.id]
    (by rw [registered, hen]) (by simpa using hfresh) (by simp [or_comm]) nofun nofun
  have hfds := h.fds
  rw [hp, List.map_cons, List.nodup_cons] at hfds
  refine { toLedger := ⟨hledger.live, hledger.once, hledger.known, hledger.frames⟩
           queue := by rw [hen]
           registry := ⟨?_, h.registry.exact.insert habsent (h.head_free hp)⟩
           fds := hfds.2, apart := ?_ }
  · intro id c' hc'
    rw [Finmap.lookup_insert_eq] at hc'
    split at hc'
    · obtain rfl := Option.some.inj hc'
      exact Eq.symm ‹_›
    · exact h.registry.own id c' hc'
  · intro c' hc' id c'' hc''
    rw [Finmap.lookup_insert_eq] at hc''
    split at hc''
    · obtain rfl := Option.some.inj hc''
      exact fun heq => hfds.1 (heq ▸ List.mem_map_of_mem hc')
    · exact h.apart c' (hp ▸ List.mem_cons_of_mem c hc') id c'' hc''

theorem Accounts.drop (h : Accounts past l) (hp : l.pendingConns = c :: cs) :
    Accounts (past ++ [(.drainPending false, [])]) { l with pendingConns := cs } := by
  have hen : enrolled (past ++ [(.drainPending false, [])]) =
      (cs.map Connection.id, registered past) := by
    rw [enrolled_concat, h.enrolled_eq, hp]
    rfl
  have hledger : Ledger (past ++ [(.drainPending false, [])]) l :=
    h.toLedger.extend [] (by rw [registered, hen]; simp) nofun (by simp) nofun nofun
  have hfds := h.fds
  rw [hp, List.map_cons, List.nodup_cons] at hfds
  refine { toLedger := ⟨hledger.live, hledger.once, hledger.known, hledger.frames⟩
           queue := by rw [hen], registry := ⟨h.registry.own, h.registry.exact⟩
           fds := hfds.2, apart := ?_ }
  intro c' hc'
  exact h.apart c' (hp ▸ List.mem_cons_of_mem c hc')

/-- What a step that leaves the queue alone keeps of it. -/
theorem Accounts.apart_of_lookup (h : Accounts past l) (hp : l'.pendingConns = l.pendingConns)
    (hl : ∀ id c, l'.conns.lookup id = some c → ∃ c₀, l.conns.lookup id = some c₀ ∧ SameSocket c₀ c) :
    ∀ c ∈ l'.pendingConns, ∀ id c', l'.conns.lookup id = some c' → c'.fd ≠ c.fd := by
  intro c hc id c' hc'
  rw [hp] at hc
  obtain ⟨c₀, hc₀, -, hfd₀⟩ := hl id c' hc'
  rw [hfd₀]
  exact h.apart c hc id c₀ hc₀

theorem Accounts.keep (h : Accounts past l) (hadd : ∀ c, ev ≠ .addConnection c)
    (hdrain : ∀ ok, ev = .drainPending ok → l.pendingConns = []) (hkept : Moves SameSocket l l')
    (houts : outs = [] ∨ ∃ id ∈ l.conns, ∃ fs, outs = [.frames id fs]) :
    Accounts (past ++ [(ev, outs)]) l' := by
  have hen : enrolled (past ++ [(ev, outs)]) =
      (l.pendingConns.map Connection.id, registered past) := by
    rw [enrolled_concat, h.enrolled_eq]
    cases ev with
    | addConnection c => exact absurd rfl (hadd c)
    | drainPending ok =>
      rw [hdrain ok rfl]
      rfl
    | _ => rfl
  have hquiet : ∀ id, .disconnect id ∉ outs := by
    rcases houts with rfl | ⟨id, -, fs, rfl⟩
    · nofun
    · simp
  have hframes : ∀ id fs, .frames id fs ∈ outs → id ∈ l.conns := by
    rcases houts with rfl | ⟨id, hid, fs, rfl⟩
    · nofun
    · rintro id' fs' hmem
      obtain ⟨rfl, -⟩ := LoopOut.frames.inj (List.mem_singleton.mp hmem)
      exact hid
  have hmem : ∀ id, id ∈ l'.conns ↔ id ∈ l.conns ∨ id ∈ [] := by
    intro id
    rw [hkept.conns.mem_iff]
    simp
  exact { toLedger := h.toLedger.extend [] (by rw [registered, hen]; simp) nofun hmem hquiet hframes
          queue := by rw [hen, hkept.pending], registry := hkept.registry h.registry
          fds := by rw [hkept.pending]; exact h.fds
          apart := h.apart_of_lookup hkept.pending fun _ _ hc => hkept.conns.lookup hc }

theorem Accounts.remove {due order : List ConnectionId} {removed : List ConnectionId}
    (h : Accounts past l) (hrem : Removes l l' outs removed) :
    Accounts (past ++ [(.cleanupClosed due order, outs)]) l' := by
  have hen : enrolled (past ++ [(.cleanupClosed due order, outs)]) =
      (l.pendingConns.map Connection.id, registered past) := by
    rw [enrolled_concat, h.enrolled_eq]
    rfl
  exact { toLedger := h.toLedger.remove (by rw [registered, hen]) hrem
          queue := by rw [hen, hrem.pending], registry := hrem.registry
          fds := by rw [hrem.pending]; exact h.fds
          apart := h.apart_of_lookup hrem.pending hrem.lookup_eq }

/-- **One step.** -/
theorem Accounts.step (h : Accounts past l) (hstep : l.step ev = some (l', outs))
    (hfd : FreshFd l ev) (hnodup : (addedIds past).Nodup) : Accounts (past ++ [(ev, outs)]) l' := by
  cases step_cases h.registry hstep with
  | enqueue c => exact h.enqueue hfd
  | register hp => exact h.register hnodup hp
  | drop hp => exact h.drop hp
  | keep hadd hdrain hkept houts => exact h.keep hadd hdrain hkept houts
  | remove hrem => exact h.remove hrem

end Step

/-! ### Runs -/

/-- A step of the loop; the kernel gives the descriptor of an open socket to no other one. -/
def SocketSteps (l : EventLoop) (a : LoopEvent × List LoopOut) (l' : EventLoop) : Prop :=
  Steps l a l' ∧ FreshFd l a.1

theorem nodup_of_concat {past : List (LoopEvent × List LoopOut)} {a : LoopEvent × List LoopOut}
    (h : (addedIds (past ++ [a])).Nodup) : (addedIds past).Nodup := by
  rw [addedIds_append] at h
  exact h.of_append_left

theorem accounts_run {past : List (LoopEvent × List LoopOut)} {l : EventLoop}
    (h : Transition.Run SocketSteps {} past l) (hids : (addedIds past).Nodup) : Accounts past l := by
  have hstep : ∀ past l a l', ((addedIds past).Nodup → Accounts past l) → SocketSteps l a l' →
      (addedIds (past ++ [a])).Nodup → Accounts (past ++ [a]) l' := by
    intro past l a l' hI hs hnodup
    have hpast := nodup_of_concat hnodup
    exact (hI hpast).step hs.1 hs.2 hpast
  exact h.history (I := fun past l => (addedIds past).Nodup → Accounts past l) hstep
    (fun _ => accounts_empty) hids

/-! ### What a step tells -/

/-- A step tells nothing, hands out the frames of one connection, or reports
connections as gone. -/
theorem outs_cases {l l' : EventLoop} {ev : LoopEvent} {outs : List LoopOut} (hr : Registry l)
    (h : l.step ev = some (l', outs)) :
    outs = [] ∨ (∃ id ∈ l.conns, ∃ fs, outs = [.frames id fs]) ∨
      ∃ removed : List ConnectionId, (∀ id ∈ removed, id ∈ l.conns) ∧
        outs = removed.map LoopOut.disconnect := by
  cases step_cases hr h with
  | enqueue | register | drop => exact Or.inl rfl
  | keep _ _ _ houts => exact houts.imp_right Or.inl
  | remove hrem => exact Or.inr (Or.inr ⟨_, hrem.present, hrem.outs_eq⟩)

/-- **One disconnect callback per removal.** -/
theorem count_disconnect {l l' : EventLoop} {ev : LoopEvent} {outs : List LoopOut}
    (hr : Registry l) (h : l.step ev = some (l', outs)) (id : ConnectionId) :
    outs.count (.disconnect id) = if id ∈ l.conns ∧ id ∉ l'.conns then 1 else 0 := by
  cases step_cases hr h with
  | enqueue c | drop hp => simp
  | register hp => simp +contextual
  | keep _ _ hkept houts =>
    rw [if_neg (fun hid => hid.2 (hkept.conns.mem_iff.mpr hid.1))]
    rcases houts with rfl | ⟨id', -, fs, rfl⟩
    · rfl
    · simp
  | @remove _ _ _ _ removed hrem =>
    rw [hrem.count_disconnect]
    split
    · rename_i hid
      have hin : id ∈ removed := by
        by_contra hnot
        exact hid.2 ((hrem.mem_iff id).mpr ⟨hid.1, hnot⟩)
      exact List.count_eq_one_of_mem hrem.nodup hin
    · rename_i hid
      refine List.count_eq_zero_of_not_mem fun hin => hid ⟨hrem.present id hin, ?_⟩
      exact fun hin' => ((hrem.mem_iff id).mp hin').2 hin

end EventLoop

end MiniArena
