/-
MiniArena/ConnToLoop.lean

The I/O loops of the server and `conn_to_loop_` (`GameServer::initNetwork`).

`ServerIo n` has the `io_threads` loops and the map their callbacks keep: the
frame callback enters the loop under the connection, the disconnect callback
erases the entry.  A step is a step of one of the loops with the callbacks it
causes; loops have no connection in common, so nothing is lost by taking the
callbacks of a step together.

The steps of one loop in a run of the server are a run of that loop
(`ofLoop`), and what `Accounts` says of it holds there.  The map is then a
matter of the callbacks alone (`Routed`), because an id that is handed in once
is known to one loop only.
-/
import MiniArena.LoopRegistry

namespace MiniArena

open EventLoop

structure ServerIo (n : ℕ) where
  ioLoops : Fin n → EventLoop := fun _ => {}
  connToLoop : Finmap fun _ : ConnectionId => Fin n := ∅

namespace ServerIo

variable {n : ℕ}

/-- The callbacks set on loop `i`, as far as they concern `conn_to_loop_`. -/
def callback (i : Fin n) (m : Finmap fun _ : ConnectionId => Fin n) :
    LoopOut → Finmap fun _ : ConnectionId => Fin n
  | .frames id _ => m.insert id i
  | .disconnect id => m.erase id

def step (s : ServerIo n) (e : Fin n × LoopEvent) : Option (ServerIo n × List LoopOut) :=
  ((s.ioLoops e.1).step e.2).map fun (l, outs) =>
    ({ ioLoops := Function.update s.ioLoops e.1 l
       connToLoop := outs.foldl (callback e.1) s.connToLoop }, outs)

/-- A step of the server; the kernel gives the descriptor of an open socket to
no other one. -/
def Steps (s : ServerIo n) (a : (Fin n × LoopEvent) × List LoopOut) (s' : ServerIo n) : Prop :=
  s.step a.1 = some (s', a.2) ∧ (s.ioLoops a.1.1).FreshFd a.1.2

/-! ### The steps of one loop -/

/-- What happened to loop `i`. -/
def ofLoop (i : Fin n) (as : List ((Fin n × LoopEvent) × List LoopOut)) :
    List (LoopEvent × List LoopOut) :=
  as.filterMap fun a => if a.1.1 = i then some (a.1.2, a.2) else none

/-- The ids handed in, to any loop. -/
def handedIn (as : List ((Fin n × LoopEvent) × List LoopOut)) : List ConnectionId :=
  addedIds (as.map fun a => (a.1.2, a.2))

theorem ofLoop_concat_self (as : List ((Fin n × LoopEvent) × List LoopOut))
    (a : (Fin n × LoopEvent) × List LoopOut) :
    ofLoop a.1.1 (as ++ [a]) = ofLoop a.1.1 as ++ [(a.1.2, a.2)] := by
  simp [ofLoop]

theorem ofLoop_concat_of_ne {i : Fin n} (as : List ((Fin n × LoopEvent) × List LoopOut))
    {a : (Fin n × LoopEvent) × List LoopOut} (h : a.1.1 ≠ i) :
    ofLoop i (as ++ [a]) = ofLoop i as := by
  simp [ofLoop, h]

theorem handedIn_concat (as : List ((Fin n × LoopEvent) × List LoopOut))
    (a : (Fin n × LoopEvent) × List LoopOut) :
    handedIn (as ++ [a]) = handedIn as ++ addedIds [(a.1.2, a.2)] := by
  rw [handedIn, List.map_append, addedIds_append]
  rfl

/-- An id that two loops got was handed in twice. -/
theorem count_ofLoop {i j : Fin n} (hij : i ≠ j) (as : List ((Fin n × LoopEvent) × List LoopOut))
    (id : ConnectionId) :
    (addedIds (ofLoop i as)).count id + (addedIds (ofLoop j as)).count id ≤
      (handedIn as).count id := by
  induction as using List.reverseRecOn with
  | nil => exact le_refl _
  | append_singleton as a ih =>
    rw [handedIn_concat, List.count_append]
    by_cases hi : a.1.1 = i
    · subst hi
      rw [ofLoop_concat_self, ofLoop_concat_of_ne as hij, addedIds_append, List.count_append]
      omega
    · rw [ofLoop_concat_of_ne as hi]
      by_cases hj : a.1.1 = j
      · subst hj
        rw [ofLoop_concat_self, addedIds_append, List.count_append]
        omega
      · rw [ofLoop_concat_of_ne as hj]
        omega

theorem count_ofLoop_le (i : Fin n) (as : List ((Fin n × LoopEvent) × List LoopOut))
    (id : ConnectionId) : (addedIds (ofLoop i as)).count id ≤ (handedIn as).count id := by
  induction as using List.reverseRecOn with
  | nil => exact le_refl _
  | append_singleton as a ih =>
    rw [handedIn_concat, List.count_append]
    by_cases hi : a.1.1 = i
    · subst hi
      rw [ofLoop_concat_self, addedIds_append, List.count_append]
      omega
    · rw [ofLoop_concat_of_ne as hi]
      omega

theorem nodup_ofLoop {as : List ((Fin n × LoopEvent) × List LoopOut)} (h : (handedIn as).Nodup)
    (i : Fin n) : (addedIds (ofLoop i as)).Nodup := by
  rw [List.nodup_iff_count_le_one] at h ⊢
  exact fun id => (count_ofLoop_le i as id).trans (h id)

/-- A connection is registered with one loop. -/
theorem loop_unique {as : List ((Fin n × LoopEvent) × List LoopOut)} (h : (handedIn as).Nodup)
    {i j : Fin n} {id : ConnectionId} (hi : id ∈ registered (ofLoop i as))
    (hj : id ∈ registered (ofLoop j as)) : i = j := by
  by_contra hij
  have hci := count_enrolled (ofLoop i as) id
  have hcj := count_enrolled (ofLoop j as) id
  have hone := List.nodup_iff_count_le_one.mp h id
  have htwo := count_ofLoop hij as id
  have hpi := List.count_pos_iff.mpr hi
  have hpj := List.count_pos_iff.mpr hj
  rw [registered] at hpi hpj
  omega

/-! ### The map -/

/-- Connection `id` has delivered frames to its loop, and is still there. -/
def Delivering (id : ConnectionId) (past : List (LoopEvent × List LoopOut)) : Prop :=
  (∃ fs, .frames id fs ∈ callbacks past) ∧ .disconnect id ∉ callbacks past

theorem delivering_of_quiet {id : ConnectionId} {past : List (LoopEvent × List LoopOut)}
    {a : LoopEvent × List LoopOut} (h : ∀ o ∈ a.2, o.conn ≠ id) :
    Delivering id (past ++ [a]) ↔ Delivering id past := by
  have hf : ∀ fs, .frames id fs ∉ a.2 := fun fs hfs => h _ hfs rfl
  have hd : .disconnect id ∉ a.2 := fun hdis => h _ hdis rfl
  simp only [Delivering, callbacks_concat, List.mem_append, hf, hd, or_false]

/-- The map is what the callbacks of the loops make of it. -/
def Routed (as : List ((Fin n × LoopEvent) × List LoopOut)) (s : ServerIo n) : Prop :=
  ∀ id i, s.connToLoop.lookup id = some i ↔ Delivering id (ofLoop i as)

/-- Callbacks about other connections leave the entry of `id` alone. -/
theorem lookup_callbacks_of_quiet (i : Fin n) (m : Finmap fun _ : ConnectionId => Fin n)
    {outs : List LoopOut} {id : ConnectionId} (h : ∀ o ∈ outs, o.conn ≠ id) :
    (outs.foldl (callback i) m).lookup id = m.lookup id := by
  induction outs generalizing m with
  | nil => rfl
  | cons o outs ih =>
    rw [List.foldl_cons, ih _ fun o' ho' => h o' (List.mem_cons_of_mem o ho')]
    have hne := Ne.symm (h o (List.mem_cons_self ..))
    cases o with
    | frames id' fs => exact Finmap.lookup_insert_of_ne _ hne
    | disconnect id' => exact Finmap.lookup_erase_ne hne

theorem lookup_foldl_disconnect (i : Fin n) (m : Finmap fun _ : ConnectionId => Fin n)
    {removed : List ConnectionId} {id : ConnectionId} (h : id ∈ removed) :
    ((removed.map LoopOut.disconnect).foldl (callback i) m).lookup id = none := by
  induction removed using List.reverseRecOn with
  | nil => simp at h
  | append_singleton removed a ih =>
    rw [List.map_append, List.foldl_append]
    show (Finmap.erase a _).lookup id = none
    rw [Finmap.lookup_erase_eq]
    split
    · rfl
    · rename_i hne
      exact ih ((List.mem_append.mp h).resolve_right (by simpa using hne))

/-- The entry of a connection the step's callbacks are about. -/
theorem lookup_callbacks {i : Fin n} {m : Finmap fun _ : ConnectionId => Fin n} {l l' : EventLoop}
    {past : List (LoopEvent × List LoopOut)} {ev : LoopEvent} {outs : List LoopOut}
    {id : ConnectionId} (h : Accounts past l) (hstep : l.step ev = some (l', outs))
    (hid : ∃ o ∈ outs, o.conn = id) :
    id ∈ l.conns ∧ ((outs.foldl (callback i) m).lookup id = some i ∧ Delivering id (past ++ [(ev, outs)])
      ∨ (outs.foldl (callback i) m).lookup id = none ∧ ¬ Delivering id (past ++ [(ev, outs)])) := by
  obtain ⟨o, ho, rfl⟩ := hid
  rcases outs_cases h.registry hstep with rfl | ⟨id, hid, fs, rfl⟩ | ⟨removed, hrem, rfl⟩
  · cases ho
  · obtain rfl := List.mem_singleton.mp ho
    refine ⟨hid, Or.inl ⟨Finmap.lookup_insert _, ?_⟩⟩
    have hnot := ((h.live id).mp hid).2
    simp [Delivering, callbacks_concat, LoopOut.conn, hnot]
  · obtain ⟨id, hid, rfl⟩ := List.mem_map.mp ho
    refine ⟨hrem id hid, Or.inr ⟨lookup_foldl_disconnect i m hid, fun hdel => hdel.2 ?_⟩⟩
    rw [callbacks_concat]
    exact List.mem_append_right _ ho

/-- The invariant of the server's runs. -/
structure Consistent (as : List ((Fin n × LoopEvent) × List LoopOut)) (s : ServerIo n) : Prop where
  accounts : ∀ i, Accounts (ofLoop i as) (s.ioLoops i)
  routed : Routed as s

theorem consistent_empty : Consistent [] ({} : ServerIo n) where
  accounts := fun _ => accounts_empty
  routed := by
    intro id i
    simp [Delivering, ofLoop, callbacks]

/-- **One step.** -/
theorem Consistent.step {past : List ((Fin n × LoopEvent) × List LoopOut)} {s s' : ServerIo n}
    {a : (Fin n × LoopEvent) × List LoopOut} (h : Consistent past s) (hstep : Steps s a s')
    (hids : (handedIn (past ++ [a])).Nodup) : Consistent (past ++ [a]) s' := by
  obtain ⟨⟨i, ev⟩, outs⟩ := a
  obtain ⟨hs, hfd⟩ := hstep
  obtain ⟨⟨l, outs'⟩, hl, heq⟩ := Option.map_eq_some_iff.mp hs
  obtain ⟨rfl, rfl⟩ := Prod.mk.injEq .. ▸ heq
  have hpast : (handedIn past).Nodup := by
    rw [handedIn_concat] at hids
    exact hids.of_append_left
  have hself := ofLoop_concat_self past ((i, ev), outs')
  have hother : ∀ {j}, i ≠ j → ofLoop j (past ++ [((i, ev), outs')]) = ofLoop j past :=
    fun hij => ofLoop_concat_of_ne past hij
  have haccount := h.accounts i
  refine ⟨?_, ?_⟩
  · intro j
    show Accounts _ (Function.update s.ioLoops i l j)
    by_cases hij : i = j
    · subst hij
      rw [hself, Function.update_self]
      exact haccount.step hl hfd (nodup_ofLoop hpast i)
    · rw [hother hij, Function.update_of_ne (Ne.symm hij)]
      exact h.accounts j
  · intro id j
    show (outs'.foldl (callback i) s.connToLoop).lookup id = some j ↔ _
    by_cases hid : ∃ o ∈ outs', o.conn = id
    · obtain ⟨hin, hcase⟩ := lookup_callbacks (i := i) (m := s.connToLoop) haccount hl hid
      by_cases hij : i = j
      · subst hij
        rw [hself]
        rcases hcase with ⟨hsome, hdel⟩ | ⟨hnone, hdel⟩
        · simp [hsome, hdel]
        · simp [hnone, hdel]
      · -- another loop has told nothing about a connection of loop `i`
        have hforeign : ¬ Delivering id (ofLoop j past) := by
          rintro ⟨⟨fs, hfs⟩, -⟩
          exact hij (loop_unique hpast ((haccount.live id).mp hin).1 ((h.accounts j).known _ hfs))
        rw [hother hij]
        rcases hcase with ⟨hsome, -⟩ | ⟨hnone, -⟩
        · simp [hsome, hij, hforeign]
        · simp [hnone, hforeign]
    · have hquiet : ∀ o ∈ outs', o.conn ≠ id := fun o ho heq => hid ⟨o, ho, heq⟩
      rw [lookup_callbacks_of_quiet i s.connToLoop hquiet, h.routed id j]
      by_cases hij : i = j
      · subst hij
        rw [hself, delivering_of_quiet hquiet]
      · rw [hother hij]

theorem consistent_run {as : List ((Fin n × LoopEvent) × List LoopOut)} {s : ServerIo n}
    (h : Transition.Run Steps {} as s) (hids : (handedIn as).Nodup) : Consistent as s := by
  have hstep : ∀ past (s : ServerIo n) a s', ((handedIn past).Nodup → Consistent past s) →
      Steps s a s' → (handedIn (past ++ [a])).Nodup → Consistent (past ++ [a]) s' := by
    intro past s a s' hI hs hnodup
    refine (hI ?_).step hs hnodup
    rw [handedIn_concat] at hnodup
    exact hnodup.of_append_left
  exact h.history (I := fun past s => (handedIn past).Nodup → Consistent past s) hstep
    (fun _ => consistent_empty) hids

/-! ### The registries of the loops -/

/-- The maps of the loops and of the server after the steps `as`. -/
structure RegistryKept (as : List ((Fin n × LoopEvent) × List LoopOut)) (s : ServerIo n) :
    Prop where
  inverse : ∀ i fd id, (s.ioLoops i).fdToId.lookup fd = some id ↔
    ∃ c, (s.ioLoops i).conns.lookup id = some c ∧ c.fd = fd
  live : ∀ i id, id ∈ (s.ioLoops i).conns ↔
    id ∈ registered (ofLoop i as) ∧ .disconnect id ∉ callbacks (ofLoop i as)
  once : ∀ i id, (callbacks (ofLoop i as)).count (.disconnect id) =
    if id ∈ registered (ofLoop i as) ∧ id ∉ (s.ioLoops i).conns then 1 else 0
  /-- The one callback comes with the step that removes the connection. -/
  at_removal : ∀ past a later s₁ s₂, as = past ++ a :: later → Transition.Run Steps {} past s₁ →
    Steps s₁ a s₂ → ∀ id, a.2.count (.disconnect id) =
      if id ∈ (s₁.ioLoops a.1.1).conns ∧ id ∉ (s₂.ioLoops a.1.1).conns then 1 else 0
  frames : ∀ i, Transition.Throughout FramesInTime (ofLoop i as)
  /-- `conn_to_loop_` has the connections that have delivered and are not gone. -/
  delivered : ∀ id, id ∈ s.connToLoop ↔
    (∃ a ∈ as, ∃ fs, .frames id fs ∈ a.2) ∧ ∀ a ∈ as, .disconnect id ∉ a.2
  owner : ∀ id i, s.connToLoop.lookup id = some i → id ∈ (s.ioLoops i).conns

theorem mem_callbacks_ofLoop {i : Fin n} {as : List ((Fin n × LoopEvent) × List LoopOut)}
    {o : LoopOut} : o ∈ callbacks (ofLoop i as) ↔ ∃ a ∈ as, a.1.1 = i ∧ o ∈ a.2 := by
  simp only [callbacks, List.mem_flatMap, ofLoop, List.mem_filterMap, Option.ite_none_right_eq_some]
  constructor
  · rintro ⟨_, ⟨a, ha, hi, heq⟩, ho⟩
    obtain rfl := Option.some.inj heq
    exact ⟨a, ha, hi, ho⟩
  · rintro ⟨a, ha, hi, ho⟩
    exact ⟨_, ⟨a, ha, hi, rfl⟩, ho⟩

theorem Consistent.delivered {as : List ((Fin n × LoopEvent) × List LoopOut)} {s : ServerIo n}
    (h : Consistent as s) (hids : (handedIn as).Nodup) (id : ConnectionId) :
    id ∈ s.connToLoop ↔
      (∃ a ∈ as, ∃ fs, .frames id fs ∈ a.2) ∧ ∀ a ∈ as, .disconnect id ∉ a.2 := by
  rw [Finmap.mem_iff]
  constructor
  · rintro ⟨i, hi⟩
    obtain ⟨⟨fs, hfs⟩, hnot⟩ := (h.routed id i).mp hi
    obtain ⟨a, ha, -, ho⟩ := mem_callbacks_ofLoop.mp hfs
    refine ⟨⟨a, ha, fs, ho⟩, fun b hb hdis => ?_⟩
    -- the disconnect callback would come from the loop the frames came from
    have hb' := mem_callbacks_ofLoop.mpr ⟨b, hb, rfl, hdis⟩
    have hhere : id ∈ registered (ofLoop i as) := (h.accounts i).known _ hfs
    have hthere : id ∈ registered (ofLoop b.1.1 as) := (h.accounts b.1.1).known _ hb'
    exact hnot (loop_unique hids hhere hthere ▸ hb')
  · rintro ⟨⟨a, ha, fs, hfs⟩, hnot⟩
    refine ⟨a.1.1, (h.routed id a.1.1).mpr ⟨⟨fs, mem_callbacks_ofLoop.mpr ⟨a, ha, rfl, hfs⟩⟩, ?_⟩⟩
    intro hdis
    obtain ⟨b, hb, -, ho⟩ := mem_callbacks_ofLoop.mp hdis
    exact hnot b hb ho

/-- **The registries are consistent.**  In every run of the loops in which
connection ids are handed in once and open sockets have distinct descriptors,
`conns_` and `fd_to_id_` of each loop are inverse to each other, a connection
is reported as disconnected once, by the step that removes it, its frames are
handed out between its registration and that report, and `conn_to_loop_` names
the owner of exactly the connections that have delivered frames and have not
been reported. -/
theorem registry_kept {as : List ((Fin n × LoopEvent) × List LoopOut)} {s : ServerIo n}
    (h : Transition.Run Steps {} as s) (hids : (handedIn as).Nodup) : RegistryKept as s := by
  have hs := consistent_run h hids
  refine ⟨fun i => (hs.accounts i).registry.exact, fun i => (hs.accounts i).live, ?_, ?_,
    fun i => (hs.accounts i).frames, hs.delivered hids, ?_⟩
  · intro i id
    have hlive := (hs.accounts i).live id
    have hle := (hs.accounts i).once id
    split
    · rename_i hgone
      have hdis : .disconnect id ∈ callbacks (ofLoop i as) := by
        by_contra hnot
        exact hgone.2 (hlive.mpr ⟨hgone.1, hnot⟩)
      have := List.count_pos_iff.mpr hdis
      omega
    · rename_i hgone
      refine List.count_eq_zero_of_not_mem fun hdis => hgone ⟨(hs.accounts i).known _ hdis, ?_⟩
      exact fun hin => (hlive.mp hin).2 hdis
  · rintro past a later s₁ s₂ rfl hpast ⟨hstep, -⟩ id
    have hnodup : (handedIn past).Nodup := by
      rw [handedIn, List.map_append, addedIds_append] at hids
      exact hids.of_append_left
    obtain ⟨⟨l, outs⟩, hl, heq⟩ := Option.map_eq_some_iff.mp hstep
    obtain ⟨rfl, hout⟩ := Prod.mk.injEq .. ▸ heq
    have hcount := count_disconnect ((consistent_run hpast hnodup).accounts a.1.1).registry hl id
    rw [← hout, hcount]
    simp only [Function.update_self]
  · intro id i hi
    obtain ⟨⟨fs, hfs⟩, hnot⟩ := (hs.routed id i).mp hi
    exact ((hs.accounts i).live id).mpr ⟨(hs.accounts i).known _ hfs, hnot⟩

/-- Two loops with a connection each; the second one is closed and removed. -/
theorem registry_kept_twoLoops : ∃ s : ServerIo 2, RegistryKept
    [((0, .addConnection (Connection.fresh 1 7 0)), []),
      ((1, .addConnection (Connection.fresh 2 8 0)), []), ((0, .drainPending true), []),
      ((1, .drainPending true), []), ((1, .closeConnection 2), []),
      ((1, .cleanupClosed [] [2]), [.disconnect 2])] s := by
  have hfree : ∀ c, FreshFd {} (.addConnection c) := by simp [FreshFd]
  exact ⟨_, registry_kept (.cons ⟨rfl, hfree _⟩ (.cons ⟨rfl, hfree _⟩ (.cons ⟨rfl, trivial⟩
    (.cons ⟨rfl, trivial⟩ (.cons ⟨rfl, trivial⟩ (.cons ⟨rfl, trivial⟩ .nil)))))) (by decide)⟩

end ServerIo

end MiniArena
