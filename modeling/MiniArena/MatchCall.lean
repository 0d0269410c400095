/-
MiniArena/MatchCall.lean

The steps of a call of `tryMatch` one by one, and that the call ends.

With other threads at work between its steps, the call never waits on an
empty queue: when it forms a room there are enough entries for it, and the
others only add entries (`Sound`).  Every step lowers `measure`, so the call
ends once the others are quiet.
-/
import MiniArena.MatchManager
import MiniArena.MatchQueue

namespace MiniArena

variable {σ : Type} [Storage σ]

open RedisClient SessionManager

/-! ### Rooms that take players -/

namespace Room

variable {room : Room} {size : ℤ}

def Open (room : Room) (size : ℤ) : Prop :=
  room.maxPlayers = size ∧ (room.state = .created ∨ room.state = .waitingPlayers)

/-- A player is added to an open room that is not full. -/
theorem addPlayer_open (hopen : room.Open size) (hroom : room.playerCount < size)
    (pid : PlayerId) (username : String) : (room.addPlayer pid username).1.Open size ∧
      (room.addPlayer pid username).1.players.keys = insert pid room.players.keys := by
  obtain ⟨hmax, hstate⟩ := hopen
  have hstate' : ¬ (room.state ≠ .created ∧ room.state ≠ .waitingPlayers) := by
    rcases hstate with hs | hs
    · simp [hs]
    · simp [hs]
  have hfull : room.isFull = false := by
    rw [Room.isFull, decide_eq_false_iff_not, hmax]
    omega
  rw [Room.addPlayer, if_neg hstate', hfull]
  refine ⟨⟨hmax, ?_⟩, ?_⟩
  · rcases hstate with hs | hs
    · exact Or.inr (if_pos hs)
    · exact Or.inr ((if_neg (by rw [hs]; nofun)).trans hs)
  · ext p
    show p ∈ (room.players.insert pid _).keys ↔ _
    rw [Finmap.mem_keys, Finmap.mem_insert, Finset.mem_insert, Finmap.mem_keys]

end Room

namespace MatchManager

variable {R : RedisView σ} {m m' : MatchManager σ} {out : List MatchNotify} {mode : ℤ}
  {formed i : ℕ} {r : RoomId} {pid : PlayerId} {st : σ} {q : List PlayerId}

/-! ### The steps of a call, one by one -/

theorem advance_break (hphase : m.phase = .checking mode formed)
    (hcount : (matchQueueSize mode m.sessions.store).1 < m.roomSize) :
    m.advance = some ({ m with
      sessions := { m.sessions with store := (matchQueueSize mode m.sessions.store).2 }
      phase := .idle }, []) := by
  rw [advance, hphase]
  dsimp only
  rw [checkQueue]
  dsimp only [withStore]
  rw [if_pos hcount]

theorem advance_form (hphase : m.phase = .checking mode formed)
    (hcount : m.roomSize ≤ (matchQueueSize mode m.sessions.store).1) :
    m.advance = some ({ m with
      sessions := { m.sessions with store := (matchQueueSize mode m.sessions.store).2 }
      rooms := (m.rooms.createRoom m.roomSize).1
      phase := .filling mode formed m.rooms.nextRoomId 0 }, []) := by
  rw [advance, hphase]
  dsimp only
  rw [checkQueue]
  dsimp only [withStore]
  rw [if_neg (not_lt.mpr hcount)]
  rfl

theorem advance_full (hphase : m.phase = .filling mode formed r i) (hi : m.roomSize ≤ i) :
    m.advance = some ({ m with phase := .checking mode (formed + 1) }, []) := by
  rw [advance, hphase]
  dsimp only
  rw [fillRoom, if_neg (not_lt.mpr hi)]

theorem advance_absent (hphase : m.phase = .filling mode formed r i) (hi : i < m.roomSize)
    (hpop : popMatchQueue mode m.sessions.store = some (some pid, st))
    (hs : m.sessions.getByPlayer pid = none) :
    m.advance = some ({ m with
      sessions := { m.sessions with store := st }
      phase := .filling mode formed r (i + 1) }, []) := by
  have hs' : (m.withStore st).sessions.getByPlayer pid = none := hs
  rw [advance, hphase]
  dsimp only
  rw [fillRoom, if_pos hi, hpop, Option.bind_some]
  dsimp only
  rw [hs']
  rfl

theorem advance_seat {s : Session} {room : Room} (hphase : m.phase = .filling mode formed r i)
    (hi : i < m.roomSize) (hpop : popMatchQueue mode m.sessions.store = some (some pid, st))
    (hs : m.sessions.getByPlayer pid = some s) (hroom : m.rooms.getRoom r = some room) :
    m.advance = some ({ m with
      sessions := (({ m.sessions with store := st } : SessionManager σ).setState
        s.sessionId .inRoom).setCurrentRoom s.sessionId r
      rooms := m.rooms.update r (room.addPlayer pid s.username).1
      phase := .filling mode formed r (i + 1) }, [⟨pid, r⟩]) := by
  have hs' : (m.withStore st).sessions.getByPlayer pid = some s := hs
  have hroom' : (m.withStore st).rooms.getRoom r = some room := hroom
  rw [advance, hphase]
  dsimp only
  rw [fillRoom, if_pos hi, hpop, Option.bind_some]
  dsimp only
  rw [hs']
  dsimp only
  rw [hroom', Option.map_some]
  rfl

/-! ### A call among other threads -/

/-- What holds in every state. -/
structure Sound (R : RedisView σ) (m : MatchManager σ) : Prop where
  size : 1 ≤ m.roomSize
  tables : Tables m.sessions
  queues : ∀ mode, ∃ q, R.Queue m.sessions.store mode q
  rooms : ∀ r room, m.rooms.getRoom r = some room → r < m.rooms.nextRoomId
  /-- The room is there, and enough entries to go round. -/
  filling : ∀ mode formed r i, m.phase = .filling mode formed r i →
    (∃ room, m.rooms.getRoom r = some room) ∧
      ∀ q, R.Queue m.sessions.store mode q → m.roomSize ≤ i + q.length

theorem sound_init {store : σ} {roomSize : ℤ} (hsize : 1 ≤ roomSize)
    (htext : ∀ mode, ∃ q, R.Queue store mode q) : Sound R (init store roomSize) where
  size := hsize
  tables := tables_init store
  queues := htext
  rooms r room h := by
    change (∅ : Finmap fun _ : RoomId => Room).lookup r = some room at h
    rw [Finmap.lookup_empty] at h
    cases h
  filling mode formed r i h := by cases h

/-- The others leave the rooms and the call alone, and only add to the queues. -/
theorem Sound.others (h : Sound R m) (ht : Tables m'.sessions) (hrooms : m'.rooms = m.rooms)
    (hsize : m'.roomSize = m.roomSize) (hphase : m'.phase = m.phase)
    (hqueues : ∀ mode q, R.Queue m.sessions.store mode q →
      ∃ more, R.Queue m'.sessions.store mode (q ++ more)) : Sound R m' where
  size := by
    rw [hsize]
    exact h.size
  tables := ht
  queues mode := by
    obtain ⟨q, hq⟩ := h.queues mode
    obtain ⟨more, hmore⟩ := hqueues mode q hq
    exact ⟨_, hmore⟩
  rooms r room hr := by
    rw [hrooms] at hr ⊢
    exact h.rooms r room hr
  filling mode formed r i hp := by
    rw [hphase] at hp
    obtain ⟨hroom, henough⟩ := h.filling mode formed r i hp
    rw [hrooms, hsize]
    refine ⟨hroom, fun q hq => ?_⟩
    obtain ⟨q₀, hq₀⟩ := h.queues mode
    obtain ⟨more, hmore⟩ := hqueues mode q₀ hq₀
    obtain rfl := hq.unique hmore
    have hlen := henough q₀ hq₀
    rw [List.length_append]
    omega

theorem queues_of_same {st' : σ} (hsame : R.SameQueues st st') (hq : R.Queue st mode q) :
    ∃ more, R.Queue st' mode (q ++ more) :=
  ⟨[], by rw [List.append_nil]; exact hq.of_same hsame⟩

/-- How many entries wait. -/
def entries (R : RedisView σ) (m : MatchManager σ) (mode : ℤ) : ℕ :=
  (R.lists m.sessions.store (matchQueueKey mode)).length

theorem entries_eq (hq : R.Queue m.sessions.store mode q) : entries R m mode = q.length := by
  rw [entries, hq, List.length_reverse, List.length_map]

/-- A pop costs three; the steps between two pops cost less. -/
def measure (R : RedisView σ) (m : MatchManager σ) : ℕ :=
  match m.phase with
  | .idle => 0
  | .checking mode _ => 3 * entries R m mode + 2
  | .filling mode _ _ i => 3 * entries R m mode + if i < m.roomSize then 1 else 3

theorem measure_checking (hphase : m.phase = .checking mode formed) :
    measure R m = 3 * entries R m mode + 2 := by
  rw [measure, hphase]

theorem measure_filling (hphase : m.phase = .filling mode formed r i) (hi : i < m.roomSize) :
    measure R m = 3 * entries R m mode + 1 := by
  rw [measure, hphase]
  dsimp only
  rw [if_pos hi]

theorem measure_filled (hphase : m.phase = .filling mode formed r i) (hi : m.roomSize ≤ i) :
    measure R m = 3 * entries R m mode + 3 := by
  rw [measure, hphase]
  dsimp only
  rw [if_neg (not_lt.mpr hi)]

/-- The next step can be taken, and brings the end of the call closer. -/
def Proceeds (R : RedisView σ) (m : MatchManager σ) : Prop :=
  ∃ m' out, m.advance = some (m', out) ∧ Sound R m' ∧ measure R m' < measure R m

/-- As seen through `static_cast<int>`, a queue is never longer than it is. -/
theorem bmod_le (n : ℕ) : Int.bmod n (2 ^ 32) ≤ n := by
  rw [Int.bmod_def]
  split
  · omega
  · omega

theorem Sound.proceeds_checking (hR : R.Fifo) (h : Sound R m)
    (hphase : m.phase = .checking mode formed) : Proceeds R m := by
  obtain ⟨q, hq⟩ := h.queues mode
  have hsame : R.SameQueues m.sessions.store (matchQueueSize mode m.sessions.store).2 :=
    RedisView.sameQueues_matchQueueSize
  have ht := (Quiet.store m.sessions (matchQueueSize mode m.sessions.store).2).tables h.tables
  have hqueues : ∀ mode', ∃ q, R.Queue (matchQueueSize mode m.sessions.store).2 mode' q := by
    intro mode'
    obtain ⟨q', hq'⟩ := h.queues mode'
    exact ⟨q', hq'.of_same hsame⟩
  rcases lt_or_ge (matchQueueSize mode m.sessions.store).1 m.roomSize with hcount | hcount
  · refine ⟨_, _, advance_break hphase hcount, ⟨h.size, ht, hqueues, h.rooms, nofun⟩, ?_⟩
    rw [measure_checking hphase]
    exact Nat.succ_pos _
  · refine ⟨_, _, advance_form hphase hcount, ⟨h.size, ht, hqueues, ?_, ?_⟩, ?_⟩
    · intro r room hr
      change (m.rooms.createRoom m.roomSize).1.getRoom r = some room at hr
      rw [RoomManager.getRoom_createRoom] at hr
      show r < m.rooms.nextRoomId + 1
      split at hr
      · rename_i heq
        rw [heq]
        exact Nat.lt_succ_self _
      · exact Nat.lt_succ_of_lt (h.rooms r room hr)
    · intro mode' formed' r i hp
      obtain ⟨rfl, rfl, rfl, rfl⟩ := MatchPhase.filling.inj hp
      refine ⟨⟨_, (m.rooms.getRoom_createRoom m.roomSize _).trans (if_pos rfl)⟩, fun q' hq' => ?_⟩
      -- what was counted is still there
      obtain rfl := hq'.unique (hq.of_same hsame)
      rw [RedisView.matchQueueSize_eq hR hq] at hcount
      have hle := bmod_le q'.length
      show m.roomSize ≤ 0 + _
      omega
    · have hfirst : ((0 : ℕ) : ℤ) < m.roomSize := by
        have := h.size
        omega
      refine lt_of_eq_of_lt (measure_filling rfl ?_) ?_
      · exact hfirst
      · rw [measure_checking hphase, entries_eq hq, entries_eq (hq.of_same hsame)]
        omega

theorem measure_le (hphase : m.phase = .filling mode formed r i) :
    measure R m ≤ 3 * entries R m mode + 3 := by
  rw [measure, hphase]
  dsimp only
  split
  · omega
  · omega

/-- After a pop the same room is filled from a shorter queue. -/
theorem Sound.popped (h : Sound R m) (hphase : m.phase = .filling mode formed r i)
    (hi : i < m.roomSize) (hq : R.Queue m.sessions.store mode (pid :: q))
    (ht : Tables m'.sessions) (hq' : R.Queue m'.sessions.store mode q)
    (hothers : ∀ mode', mode' ≠ mode → R.lists m'.sessions.store (matchQueueKey mode')
      = R.lists m.sessions.store (matchQueueKey mode'))
    (hrooms : ∀ a, (m'.rooms.getRoom a).isSome = (m.rooms.getRoom a).isSome)
    (hnext : m'.rooms.nextRoomId = m.rooms.nextRoomId) (hsize : m'.roomSize = m.roomSize)
    (hphase' : m'.phase = .filling mode formed r (i + 1)) :
    Sound R m' ∧ measure R m' < measure R m := by
  obtain ⟨⟨room, hroom⟩, henough⟩ := h.filling mode formed r i hphase
  have hlen := henough _ hq
  rw [List.length_cons] at hlen
  refine ⟨⟨hsize ▸ h.size, ht, ?_, ?_, ?_⟩, ?_⟩
  · intro mode'
    by_cases hmode : mode' = mode
    · exact ⟨q, hmode ▸ hq'⟩
    · obtain ⟨q', hmore⟩ := h.queues mode'
      exact ⟨q', (hothers mode' hmode).trans hmore⟩
  · intro a room' hroom'
    have hsome := hrooms a
    rw [hroom', Option.isSome_some] at hsome
    obtain ⟨old, hold⟩ := Option.isSome_iff_exists.mp hsome.symm
    rw [hnext]
    exact h.rooms a old hold
  · intro mode' formed' r' i' hp
    obtain ⟨rfl, rfl, rfl, rfl⟩ := MatchPhase.filling.inj (hphase'.symm.trans hp)
    refine ⟨?_, fun q'' hq'' => ?_⟩
    · have hsome := hrooms r
      rw [hroom, Option.isSome_some] at hsome
      exact Option.isSome_iff_exists.mp hsome
    · obtain rfl := hq'.unique hq''
      rw [hsize]
      push_cast
      omega
  · have hle := @measure_le _ _ R m' _ _ _ _ hphase'
    rw [measure_filling hphase hi, entries_eq hq, List.length_cons]
    rw [entries_eq hq'] at hle
    omega

theorem isSome_update {rooms : RoomManager} {r : RoomId} {room : Room}
    (h : rooms.getRoom r = some room) (room' : Room) (a : RoomId) :
    ((rooms.update r room').getRoom a).isSome = (rooms.getRoom a).isSome := by
  rw [RoomManager.getRoom_update]
  split
  · rename_i heq
    rw [heq, h]
    rfl
  · rfl

theorem Sound.proceeds_filling (hR : R.Fifo) (h : Sound R m)
    (hphase : m.phase = .filling mode formed r i) : Proceeds R m := by
  obtain ⟨⟨room, hroom⟩, henough⟩ := h.filling mode formed r i hphase
  obtain ⟨q, hq⟩ := h.queues mode
  have hlen := henough q hq
  rcases lt_or_ge (i : ℤ) m.roomSize with hi | hi
  · -- there is an entry to pop
    obtain ⟨pid, rest, rfl⟩ : ∃ pid rest, q = pid :: rest := by
      cases q with
      | nil =>
        rw [List.length_nil] at hlen
        omega
      | cons pid rest => exact ⟨pid, rest, rfl⟩
    obtain ⟨st, hpop, hrest, hothers⟩ := RedisView.popMatchQueue_eq hR hq
    have ht := (Quiet.store m.sessions st).tables h.tables
    rcases hs : m.sessions.getByPlayer pid with - | s
    · refine ⟨_, _, advance_absent hphase hi hpop hs, ?_⟩
      exact h.popped hphase hi hq ht hrest hothers (fun _ => rfl) rfl rfl rfl
    · refine ⟨_, _, advance_seat hphase hi hpop hs hroom, ?_⟩
      have hseated : R.SameQueues st (({ m.sessions with store := st } : SessionManager σ).setState
          s.sessionId .inRoom |>.setCurrentRoom s.sessionId r).store :=
        RedisView.sameQueues_commands.trans (RedisView.sameQueues_commands.setState _ _ _)
          (RedisView.sameQueues_commands.setCurrentRoom _ _ _)
      refine h.popped hphase hi hq ?_ (hrest.of_same hseated) ?_ (isSome_update hroom _) rfl rfl rfl
      · exact GameServer.tables_setCurrentRoom ((quiet_setState _ _ _).tables ht) _ _
      · intro mode' hmode
        exact (hseated mode').trans (hothers mode' hmode)
  · refine ⟨_, _, advance_full hphase hi, ⟨h.size, h.tables, h.queues, h.rooms, nofun⟩, ?_⟩
    refine lt_of_eq_of_lt (measure_checking rfl) ?_
    rw [measure_filled hphase hi, entries_eq hq, entries_eq (m := { m with
      phase := .checking mode (formed + 1) }) hq]
    omega

theorem Sound.proceeds (hR : R.Fifo) (h : Sound R m) (hphase : m.phase ≠ .idle) :
    Proceeds R m := by
  cases hp : m.phase with
  | idle => exact absurd hp hphase
  | checking mode formed => exact h.proceeds_checking hR hp
  | filling mode formed r i => exact h.proceeds_filling hR hp

theorem Sound.step (hR : R.Fifo) (h : Sound R m) {a : MatchOp × List MatchNotify}
    (hstep : Steps m a m') : Sound R m' := by
  have ht := tables_step h.tables hstep
  obtain ⟨op, out⟩ := a
  obtain ⟨hstep, hfresh⟩ := hstep
  cases op with
  | session op =>
    obtain ⟨s, hs, heq⟩ := Option.map_eq_some_iff.mp hstep
    obtain ⟨rfl, -⟩ := Prod.mk.injEq .. ▸ heq
    exact h.others ht rfl rfl rfl fun _ _ =>
      queues_of_same (RedisView.sameQueues_commands.step hs)
  | joinQueue pid mode =>
    obtain ⟨m₁, hjoin, heq⟩ := Option.map_eq_some_iff.mp hstep
    obtain ⟨rfl, -⟩ := Prod.mk.injEq .. ▸ heq
    obtain ⟨⟨s, err⟩, hs, rfl⟩ := Option.map_eq_some_iff.mp hjoin
    have hsame := RedisView.sameQueues_commands (R := R).joinQueue hs
    apply h.others ht rfl rfl rfl
    intro mode' q hq
    by_cases hmode : mode = mode'
    · subst hmode
      exact ⟨[pid], (RedisView.queue_pushMatchQueue hq).of_same hsame⟩
    · refine ⟨[], ?_⟩
      rw [List.append_nil]
      exact (RedisView.queue_pushMatchQueue_of_ne hq hmode).of_same hsame
  | leaveQueue pid =>
    obtain ⟨rfl, -⟩ := Prod.mk.injEq .. ▸ Option.some.inj hstep
    exact h.others ht rfl rfl rfl fun _ _ =>
      queues_of_same (RedisView.sameQueues_commands.leaveQueue m.sessions pid)
  | tryMatch mode =>
    dsimp only [MatchManager.step] at hstep
    split at hstep
    · obtain ⟨rfl, -⟩ := Prod.mk.injEq .. ▸ Option.some.inj hstep
      exact ⟨h.size, h.tables, h.queues, h.rooms, nofun⟩
    · cases hstep
  | advance =>
    have hbusy : m.phase ≠ .idle := by
      intro hidle
      dsimp only [MatchManager.step, advance] at hstep
      rw [hidle] at hstep
      cases hstep
    obtain ⟨m'', out', hadvance, hsound, -⟩ := h.proceeds hR hbusy
    obtain ⟨rfl, -⟩ := Prod.mk.injEq .. ▸ Option.some.inj (hadvance.symm.trans hstep)
    exact hsound

theorem sound_run (hR : R.Fifo) (h : Sound R m) {as : List (MatchOp × List MatchNotify)}
    (hrun : Transition.Run Steps m as m') : Sound R m' :=
  hrun.invariant (fun _ _ _ hs hstep => hs.step hR hstep) h

/-- The labels of a call that is left alone. -/
def Alone (as : List (MatchOp × List MatchNotify)) : Prop := ∀ a ∈ as, a.1 = .advance

/-- **The call ends** when the others are quiet.  By induction on `measure`. -/
theorem Sound.ends (hR : R.Fifo) (h : Sound R m) :
    ∃ as m', Transition.Run Steps m as m' ∧ Alone as ∧ m'.phase = .idle := by
  induction hk : measure R m using Nat.strong_induction_on generalizing m with
  | _ k ih =>
    by_cases hidle : m.phase = .idle
    · exact ⟨[], m, .nil, by simp [Alone], hidle⟩
    · obtain ⟨m₁, out, hadvance, hsound, hlt⟩ := h.proceeds hR hidle
      obtain ⟨as, m', hrun, halone, hend⟩ := ih _ (hk ▸ hlt) hsound rfl
      refine ⟨(.advance, out) :: as, m', .cons ⟨hadvance, rfl⟩ hrun, ?_, hend⟩
      rintro a (_ | ⟨_, ha⟩)
      · rfl
      · exact halone a ha

/-- **No pop has to wait.** -/
theorem Sound.pop_nonempty (h : Sound R m) (hphase : m.phase = .filling mode formed r i)
    (hi : i < m.roomSize) : R.lists m.sessions.store (matchQueueKey mode) ≠ [] := by
  obtain ⟨q, hq⟩ := h.queues mode
  have hlen := (h.filling mode formed r i hphase).2 q hq
  rw [← entries_eq hq, entries] at hlen
  intro hempty
  rw [hempty, List.length_nil] at hlen
  omega

end MatchManager

end MiniArena
