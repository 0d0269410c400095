/-
MiniArena/FullRooms.lean

How many players a matched room has.

`tryMatch` pops `room_size_` entries for a room and seats whoever they are
of.  An entry is wasted if its player has no session, or is in the room
already, and a room that wastes an entry stays short of a player for ever:
`RoomsFull` holds at the end of a call exactly if no entry was wasted so far
(`roomsFull_run_iff`).

Up to the round the loop is in, a room is as full as it can be (`Full`) or
short of a player (`Short`).  A step keeps a short room short, and makes one
exactly if it wastes an entry.
-/
import MiniArena.MatchCall

namespace MiniArena

variable {σ : Type} [Storage σ]

open RedisClient SessionManager

namespace Room

variable {room : Room} {size : ℤ}

/-- The room gains a player, unless the player is there already. -/
theorem playerCount_addPlayer (hopen : room.Open size) (hroom : room.playerCount < size)
    (pid : PlayerId) (username : String) : (room.addPlayer pid username).1.playerCount
      = room.playerCount + if pid ∈ room.players then 0 else 1 := by
  have hkeys := (addPlayer_open hopen hroom pid username).2
  rw [playerCount, hkeys, playerCount]
  split
  · rename_i hin
    rw [Finset.insert_eq_of_mem (Finmap.mem_keys.mpr hin), add_zero]
  · rename_i hout
    rw [Finset.card_insert_of_notMem (mt Finmap.mem_keys.mp hout), Nat.cast_succ]

end Room

namespace MatchManager

variable {m m' : MatchManager σ} {out : List MatchNotify} {mode : ℤ} {formed i : ℕ} {r : RoomId}
  {room room' : Room} {pid : PlayerId} {st : σ}

/-- Every room has `room_size_` players. -/
def RoomsFull (m : MatchManager σ) : Prop :=
  ∀ r room, m.rooms.getRoom r = some room → room.playerCount = m.roomSize

/-- The pop gives an entry of a player who has a session and is not in the room. -/
def Useful (m : MatchManager σ) (mode : ℤ) (r : RoomId) : Prop :=
  ∃ pid st, popMatchQueue mode m.sessions.store = some (some pid, st) ∧
    (m.sessions.getByPlayer pid).isSome = true ∧
    ∀ room, m.rooms.getRoom r = some room → pid ∉ room.players

/-- If the step pops an entry, the entry is not wasted. -/
def WastesNone (m : MatchManager σ) : MatchOp → Prop
  | .advance => ∀ mode formed r i, m.phase = .filling mode formed r i → i < m.roomSize →
      m.Useful mode r
  | _ => True

/-! ### How full a room is -/

/-- The number of entries popped for the room so far. -/
def popped (m : MatchManager σ) (r : RoomId) : ℤ :=
  match m.phase with
  | .filling _ _ a i => if r = a then i else m.roomSize
  | _ => m.roomSize

structure Counted (m : MatchManager σ) : Prop where
  size : 1 ≤ m.roomSize
  fresh : ∀ r room, m.rooms.getRoom r = some room → r < m.rooms.nextRoomId
  isOpen : ∀ r room, m.rooms.getRoom r = some room → room.Open m.roomSize
  count_le : ∀ r room, m.rooms.getRoom r = some room → room.playerCount ≤ m.popped r
  filling : ∀ mode formed r i, m.phase = .filling mode formed r i →
    i ≤ m.roomSize ∧ ∃ room, m.rooms.getRoom r = some room

def Full (m : MatchManager σ) : Prop :=
  ∀ r room, m.rooms.getRoom r = some room → room.playerCount = m.popped r

def Short (m : MatchManager σ) : Prop :=
  ∃ r room, m.rooms.getRoom r = some room ∧ room.playerCount < m.popped r

omit [Storage σ] in
theorem Counted.full_iff (h : Counted m) : Full m ↔ ¬ Short m := by
  constructor
  · rintro hfull ⟨r, room, hroom, hlt⟩
    exact hlt.ne (hfull r room hroom)
  · intro hshort r room hroom
    by_contra hne
    exact hshort ⟨r, room, hroom, lt_of_le_of_ne (h.count_le r room hroom) hne⟩

omit [Storage σ] in
theorem popped_idle (hphase : m.phase = .idle) (r : RoomId) : m.popped r = m.roomSize := by
  rw [popped, hphase]

omit [Storage σ] in
theorem popped_checking (hphase : m.phase = .checking mode formed) (r : RoomId) :
    m.popped r = m.roomSize := by
  rw [popped, hphase]

omit [Storage σ] in
theorem popped_filling (hphase : m.phase = .filling mode formed r i) (a : RoomId) :
    m.popped a = if a = r then (i : ℤ) else m.roomSize := by
  rw [popped, hphase]

omit [Storage σ] in
/-- When no call is under way, full is full. -/
theorem roomsFull_iff_full (hphase : m.phase = .idle) : RoomsFull m ↔ Full m := by
  apply forall_congr'
  intro r
  rw [popped_idle hphase]

/-! ### One step -/

/-- What a step may do to the rooms. -/
structure Outcome (m : MatchManager σ) (op : MatchOp) (m' : MatchManager σ) : Prop where
  counted : Counted m'
  full_iff : Full m → (Full m' ↔ WastesNone m op)
  short : Short m → Short m'

/-- The rooms are left alone, and nothing is popped. -/
theorem Counted.outcome_of_same (h : Counted m) {op : MatchOp} (hrooms : m'.rooms = m.rooms)
    (hsize : m'.roomSize = m.roomSize) (hpopped : ∀ r, m'.popped r = m.popped r)
    (hfilling : ∀ mode formed r i, m'.phase = .filling mode formed r i →
      m.phase = .filling mode formed r i) (hop : WastesNone m op) : Outcome m op m' where
  counted := {
    size := by rw [hsize]; exact h.size
    fresh := by rw [hrooms]; exact h.fresh
    isOpen := by rw [hrooms, hsize]; exact h.isOpen
    count_le := by
      intro r room hroom
      rw [hrooms] at hroom
      rw [hpopped]
      exact h.count_le r room hroom
    filling := by
      intro mode formed r i hphase
      rw [hrooms, hsize]
      exact h.filling mode formed r i (hfilling mode formed r i hphase) }
  full_iff := by
    intro hfull
    refine iff_of_true ?_ hop
    intro r room hroom
    rw [hrooms] at hroom
    rw [hpopped]
    exact hfull r room hroom
  short := by
    rintro ⟨r, room, hroom, hlt⟩
    refine ⟨r, room, ?_, ?_⟩
    · rw [hrooms]
      exact hroom
    · rw [hpopped]
      exact hlt

/-- The room `r` is new or has changed to `room'`, and the others have had their entries. -/
theorem Counted.outcome_of_touched (h : Counted m) {op : MatchOp} (hsize : m'.roomSize = m.roomSize)
    (hself : m'.rooms.getRoom r = some room')
    (hold : ∀ a, a ≠ r → m'.rooms.getRoom a = m.rooms.getRoom a)
    (hpopped : ∀ a, a ≠ r → m'.popped a = m.popped a)
    (hnext : m.rooms.nextRoomId ≤ m'.rooms.nextRoomId) (hr : r < m'.rooms.nextRoomId)
    (hopen : room'.Open m.roomSize) (hcount : room'.playerCount ≤ m'.popped r)
    (hfilling : ∀ mode formed a i, m'.phase = .filling mode formed a i → a = r ∧ i ≤ m.roomSize)
    (hfull : Full m → (room'.playerCount = m'.popped r ↔ WastesNone m op))
    (hshort : ∀ room, m.rooms.getRoom r = some room → room.playerCount < m.popped r →
      room'.playerCount < m'.popped r) : Outcome m op m' := by
  have hcases : ∀ a q, m'.rooms.getRoom a = some q →
      a = r ∧ q = room' ∨ a ≠ r ∧ m.rooms.getRoom a = some q := by
    intro a q ha
    by_cases har : a = r
    · subst har
      exact Or.inl ⟨rfl, Option.some.inj (ha.symm.trans hself)⟩
    · exact Or.inr ⟨har, (hold a har).symm.trans ha⟩
  refine ⟨⟨by rw [hsize]; exact h.size, ?_, ?_, ?_, ?_⟩, fun hm => ?_, ?_⟩
  · intro a q ha
    rcases hcases a q ha with ⟨rfl, -⟩ | ⟨-, hq⟩
    · exact hr
    · exact (h.fresh a q hq).trans_le hnext
  · intro a q ha
    rw [hsize]
    rcases hcases a q ha with ⟨-, rfl⟩ | ⟨-, hq⟩
    · exact hopen
    · exact h.isOpen a q hq
  · intro a q ha
    rcases hcases a q ha with ⟨rfl, rfl⟩ | ⟨har, hq⟩
    · exact hcount
    · rw [hpopped a har]
      exact h.count_le a q hq
  · intro mode formed a i hphase
    obtain ⟨rfl, hi⟩ := hfilling mode formed a i hphase
    rw [hsize]
    exact ⟨hi, room', hself⟩
  · rw [← hfull hm]
    constructor
    · intro hm'
      exact hm' r room' hself
    · intro heq a q ha
      rcases hcases a q ha with ⟨rfl, rfl⟩ | ⟨har, hq⟩
      · exact heq
      · rw [hpopped a har]
        exact hm a q hq
  · rintro ⟨a, q, ha, hlt⟩
    by_cases har : a = r
    · subst har
      exact ⟨a, room', hself, hshort q ha hlt⟩
    · refine ⟨a, q, (hold a har).trans ha, ?_⟩
      rw [hpopped a har]
      exact hlt

/-- A room is formed. -/
theorem Counted.outcome_form (h : Counted m) (hphase : m.phase = .checking mode formed)
    (hrooms : m'.rooms = (m.rooms.createRoom m.roomSize).1) (hsize : m'.roomSize = m.roomSize)
    (hphase' : m'.phase = .filling mode formed m.rooms.nextRoomId 0) :
    Outcome m .advance m' := by
  have hnext : m'.rooms.nextRoomId = m.rooms.nextRoomId + 1 := by
    rw [hrooms]
    rfl
  have hself : m'.rooms.getRoom m.rooms.nextRoomId
      = some { roomId := m.rooms.nextRoomId, maxPlayers := m.roomSize } := by
    rw [hrooms, RoomManager.getRoom_createRoom, if_pos rfl]
  have hpopped : m'.popped m.rooms.nextRoomId = 0 := by
    rw [popped_filling hphase', if_pos rfl, Nat.cast_zero]
  apply h.outcome_of_touched hsize hself
  · intro a ha
    rw [hrooms, RoomManager.getRoom_createRoom, if_neg ha]
  · intro a ha
    rw [popped_filling hphase', if_neg ha, popped_checking hphase, hsize]
  · rw [hnext]
    exact Nat.le_succ _
  · rw [hnext]
    exact Nat.lt_succ_self _
  · exact ⟨rfl, Or.inl rfl⟩
  · rw [hpopped]
    exact le_rfl
  · intro mode' formed' a i ha
    obtain ⟨rfl, rfl, rfl, rfl⟩ := MatchPhase.filling.inj (hphase'.symm.trans ha)
    exact ⟨rfl, (Int.zero_le_ofNat 1).trans h.size⟩
  · intro _
    refine iff_of_true ?_ ?_
    · rw [hpopped]
      rfl
    · intro mode' formed' a i ha
      cases hphase.symm.trans ha
  · intro room hroom
    exact absurd (h.fresh _ room hroom) (lt_irrefl _)

/-- A round of the loop that fills the room `r`. -/
theorem Counted.outcome_fill (h : Counted m) (hphase : m.phase = .filling mode formed r i)
    (hi : i < m.roomSize) (hroom : m.rooms.getRoom r = some room)
    (hget : ∀ a, m'.rooms.getRoom a = if a = r then some room' else m.rooms.getRoom a)
    (hopen : room'.Open m.roomSize) (hnext : m'.rooms.nextRoomId = m.rooms.nextRoomId)
    (hsize : m'.roomSize = m.roomSize)
    (hcases : m.Useful mode r ∧ room'.playerCount = room.playerCount + 1 ∧
        m'.phase = .filling mode formed r (i + 1) ∨
      ¬ m.Useful mode r ∧ room'.playerCount = room.playerCount ∧
        (m'.phase = .filling mode formed r (i + 1) ∨ m'.phase = .checking mode (formed + 1))) :
    Outcome m .advance m' := by
  have hpopped : m.popped r = i := by rw [popped_filling hphase, if_pos rfl]
  have hle := h.count_le r room hroom
  rw [hpopped] at hle
  have hround : m'.phase = .filling mode formed r (i + 1) ∨
      m'.phase = .checking mode (formed + 1) := by
    rcases hcases with ⟨-, -, hp⟩ | ⟨-, -, hp⟩
    · exact Or.inl hp
    · exact hp
  -- one entry more for `r`, or all the entries it will have
  have hmore : (i : ℤ) + 1 ≤ m'.popped r := by
    rcases hround with hp | hp
    · rw [popped_filling hp, if_pos rfl, Nat.cast_succ]
    · rw [popped_checking hp, hsize]
      omega
  have hgain : room'.playerCount ≤ room.playerCount + 1 := by
    rcases hcases with ⟨-, hc, -⟩ | ⟨-, hc, -⟩
    · exact hc.le
    · omega
  have hwastes : WastesNone m .advance ↔ m.Useful mode r := by
    constructor
    · intro hop
      exact hop mode formed r i hphase hi
    · intro huseful mode' formed' a j ha _
      obtain ⟨rfl, rfl, rfl, rfl⟩ := MatchPhase.filling.inj (hphase.symm.trans ha)
      exact huseful
  apply h.outcome_of_touched hsize ((hget r).trans (if_pos rfl))
  · intro a ha
    rw [hget a, if_neg ha]
  · intro a ha
    rw [popped_filling hphase, if_neg ha]
    rcases hround with hp | hp
    · rw [popped_filling hp, if_neg ha, hsize]
    · rw [popped_checking hp, hsize]
  · exact hnext.ge
  · rw [hnext]
    exact h.fresh r room hroom
  · exact hopen
  · exact hgain.trans ((add_le_add_left hle 1).trans hmore)
  · intro mode' formed' a j ha
    rcases hround with hp | hp
    · obtain ⟨rfl, rfl, rfl, rfl⟩ := MatchPhase.filling.inj (hp.symm.trans ha)
      exact ⟨rfl, by rw [Nat.cast_succ]; omega⟩
    · cases hp.symm.trans ha
  · intro hfull
    have hcount := hfull r room hroom
    rw [hpopped] at hcount
    rw [hwastes]
    rcases hcases with ⟨huseful, hc, hp⟩ | ⟨hwasted, hc, -⟩
    · refine iff_of_true ?_ huseful
      rw [popped_filling hp, if_pos rfl, hc, hcount, Nat.cast_succ]
    · refine iff_of_false ?_ hwasted
      omega
  · intro q hq hlt
    obtain rfl := Option.some.inj (hroom.symm.trans hq)
    omega

/-- The pop fails, and the loop that fills the room is left. -/
theorem advance_dry (hphase : m.phase = .filling mode formed r i) (hi : i < m.roomSize)
    (hpop : popMatchQueue mode m.sessions.store = some (none, st)) :
    m.advance = some ({ m with
      sessions := { m.sessions with store := st }
      phase := .checking mode (formed + 1) }, []) := by
  rw [advance, hphase]
  dsimp only
  rw [fillRoom, if_pos hi, hpop, Option.bind_some]
  rfl

/-- What is popped decides. -/
theorem useful_iff (hpop : popMatchQueue mode m.sessions.store = some (some pid, st))
    (hroom : m.rooms.getRoom r = some room) :
    m.Useful mode r ↔ (m.sessions.getByPlayer pid).isSome = true ∧ pid ∉ room.players := by
  constructor
  · rintro ⟨pid', st', hpop', hsome, hout⟩
    obtain ⟨hp, -⟩ := Prod.mk.injEq .. ▸ Option.some.inj (hpop.symm.trans hpop')
    obtain rfl := Option.some.inj hp
    exact ⟨hsome, hout room hroom⟩
  · rintro ⟨hsome, hout⟩
    refine ⟨pid, st, hpop, hsome, fun room' hroom' => ?_⟩
    obtain rfl := Option.some.inj (hroom.symm.trans hroom')
    exact hout

theorem Counted.advance_fill (h : Counted m) (hphase : m.phase = .filling mode formed r i)
    (hi : i < m.roomSize) (hroom : m.rooms.getRoom r = some room)
    (hadv : m.advance = some (m', out)) : Outcome m .advance m' := by
  have hsame : ∀ a, m.rooms.getRoom a = if a = r then some room else m.rooms.getRoom a := by
    intro a
    split
    · rename_i heq
      rw [heq, hroom]
    · rfl
  have hopen := h.isOpen r room hroom
  rcases hpop : popMatchQueue mode m.sessions.store with - | ⟨- | pid, st⟩
  · rw [MatchManager.advance, hphase] at hadv
    dsimp only at hadv
    rw [fillRoom, if_pos hi, hpop, Option.bind_none] at hadv
    cases hadv
  · -- the pop fails, and the room gets no more entries
    obtain ⟨rfl, -⟩ := Prod.mk.injEq .. ▸
      Option.some.inj ((advance_dry hphase hi hpop).symm.trans hadv)
    refine h.outcome_fill hphase hi hroom hsame hopen rfl rfl (Or.inr ⟨?_, rfl, Or.inr rfl⟩)
    rintro ⟨pid, st', hpop', -⟩
    cases hpop.symm.trans hpop'
  · rcases hs : m.sessions.getByPlayer pid with - | s
    · -- the player has no session
      obtain ⟨rfl, -⟩ := Prod.mk.injEq .. ▸
        Option.some.inj ((advance_absent hphase hi hpop hs).symm.trans hadv)
      refine h.outcome_fill hphase hi hroom hsame hopen rfl rfl (Or.inr ⟨?_, rfl, Or.inl rfl⟩)
      rw [useful_iff hpop hroom, hs]
      rintro ⟨hsome, -⟩
      cases hsome
    · obtain ⟨rfl, -⟩ := Prod.mk.injEq .. ▸
        Option.some.inj ((advance_seat hphase hi hpop hs hroom).symm.trans hadv)
      have hle := h.count_le r room hroom
      rw [popped_filling hphase, if_pos rfl] at hle
      have hlt : room.playerCount < m.roomSize := hle.trans_lt hi
      have hcount := Room.playerCount_addPlayer hopen hlt pid s.username
      refine h.outcome_fill hphase hi hroom (m.rooms.getRoom_update r · _)
        (Room.addPlayer_open hopen hlt pid s.username).1 rfl rfl ?_
      rw [useful_iff hpop hroom, hs]
      by_cases hin : pid ∈ room.players
      · -- the player is in the room already
        rw [if_pos hin, add_zero] at hcount
        exact Or.inr ⟨fun hn => hn.2 hin, hcount, Or.inl rfl⟩
      · rw [if_neg hin] at hcount
        exact Or.inl ⟨⟨rfl, hin⟩, hcount, rfl⟩

theorem Counted.advance (h : Counted m) (hadv : m.advance = some (m', out)) :
    Outcome m .advance m' := by
  cases hphase : m.phase with
  | idle =>
    rw [MatchManager.advance, hphase] at hadv
    cases hadv
  | checking mode formed =>
    rcases lt_or_ge (matchQueueSize mode m.sessions.store).1 m.roomSize with hfew | hmany
    · obtain ⟨rfl, -⟩ := Prod.mk.injEq .. ▸
        Option.some.inj ((advance_break hphase hfew).symm.trans hadv)
      refine h.outcome_of_same rfl rfl (fun r => ?_) (fun _ _ _ _ ha => ?_) ?_
      · rw [popped_checking hphase]
        rfl
      · cases ha
      · intro mode' formed' a i ha
        cases hphase.symm.trans ha
    · obtain ⟨rfl, -⟩ := Prod.mk.injEq .. ▸
        Option.some.inj ((advance_form hphase hmany).symm.trans hadv)
      exact h.outcome_form hphase rfl rfl rfl
  | filling mode formed r i =>
    obtain ⟨hile, room, hroom⟩ := h.filling mode formed r i hphase
    rcases lt_or_eq_of_le hile with hi | hi
    · exact h.advance_fill hphase hi hroom hadv
    · -- the room has had its entries
      obtain ⟨rfl, -⟩ := Prod.mk.injEq .. ▸
        Option.some.inj ((advance_full hphase hi.ge).symm.trans hadv)
      refine h.outcome_of_same rfl rfl (fun a => ?_) (fun _ _ _ _ ha => ?_) ?_
      · rw [popped_filling hphase]
        show m.roomSize = _
        split
        · exact hi.symm
        · rfl
      · cases ha
      · intro mode' formed' a j ha hlt
        obtain ⟨rfl, rfl, rfl, rfl⟩ := MatchPhase.filling.inj (hphase.symm.trans ha)
        omega

theorem Counted.step (h : Counted m) {a : MatchOp × List MatchNotify} (hstep : Steps m a m') :
    Outcome m a.1 m' := by
  obtain ⟨op, out⟩ := a
  obtain ⟨hstep, -⟩ := hstep
  cases op with
  | session op =>
    obtain ⟨s, hs, heq⟩ := Option.map_eq_some_iff.mp hstep
    obtain ⟨rfl, -⟩ := Prod.mk.injEq .. ▸ heq
    exact h.outcome_of_same rfl rfl (fun _ => rfl) (fun _ _ _ _ hp => hp) trivial
  | joinQueue pid mode =>
    obtain ⟨m₁, hjoin, heq⟩ := Option.map_eq_some_iff.mp hstep
    obtain ⟨rfl, -⟩ := Prod.mk.injEq .. ▸ heq
    obtain ⟨⟨s, err⟩, hs, rfl⟩ := Option.map_eq_some_iff.mp hjoin
    exact h.outcome_of_same rfl rfl (fun _ => rfl) (fun _ _ _ _ hp => hp) trivial
  | leaveQueue pid =>
    obtain ⟨rfl, -⟩ := Prod.mk.injEq .. ▸ Option.some.inj hstep
    exact h.outcome_of_same rfl rfl (fun _ => rfl) (fun _ _ _ _ hp => hp) trivial
  | tryMatch mode =>
    dsimp only [MatchManager.step] at hstep
    split at hstep
    · rename_i hphase
      obtain ⟨rfl, -⟩ := Prod.mk.injEq .. ▸ Option.some.inj hstep
      refine h.outcome_of_same rfl rfl (fun r => ?_) nofun trivial
      rw [popped_idle hphase]
      rfl
    · cases hstep
  | advance => exact h.advance hstep

/-! ### Runs -/

omit [Storage σ] in
theorem counted_init {store : σ} {roomSize : ℤ} (hsize : 1 ≤ roomSize) :
    Counted (init store roomSize) ∧ Full (init store roomSize) := by
  have hnone : ∀ r, (init store roomSize).rooms.getRoom r = none := fun r => Finmap.lookup_empty r
  refine ⟨⟨hsize, ?_, ?_, ?_, nofun⟩, ?_⟩
  · intro r room hr
    cases (hnone r).symm.trans hr
  · intro r room hr
    cases (hnone r).symm.trans hr
  · intro r room hr
    cases (hnone r).symm.trans hr
  · intro r room hr
    cases (hnone r).symm.trans hr

/-- A run that ends with full rooms has had full rooms all along. -/
theorem full_throughout {as : List (MatchOp × List MatchNotify)}
    (hrun : Transition.Run Steps m as m') (h : Counted m) (hend : Full m') :
    Transition.Run (fun m a m' => Steps m a m' ∧ Full m') m as m' := by
  induction hrun with
  | nil => exact .nil
  | @cons m a m₁ as m' hstep hrun ih =>
    have hcounted := (h.step hstep).counted
    refine .cons ⟨hstep, ?_⟩ (ih hcounted hend)
    -- a room that is short now would be short at the end
    rw [hcounted.full_iff]
    intro hshort
    have hlast := hrun.invariant (I := fun m => Counted m ∧ Short m)
      (fun _ _ _ hs hst => ⟨(hs.1.step hst).counted, (hs.1.step hst).short hs.2⟩)
      ⟨hcounted, hshort⟩
    exact hlast.1.full_iff.mp hend hlast.2

/-- **Matched rooms are full** at the end of a call if and only if no entry was wasted. -/
theorem roomsFull_run_iff {store : σ} {roomSize : ℤ} (hsize : 1 ≤ roomSize)
    {as : List (MatchOp × List MatchNotify)}
    (hrun : Transition.Run Steps (init store roomSize) as m) (hidle : m.phase = .idle) :
    RoomsFull m ↔ Transition.Run (fun m a m' => Steps m a m' ∧ WastesNone m a.1)
      (init store roomSize) as m := by
  obtain ⟨hcounted, hfull⟩ : Counted (init store roomSize) ∧ Full (init store roomSize) :=
    counted_init hsize
  rw [roomsFull_iff_full hidle]
  have htarget : Transition.Run (fun m a m' => Steps m a m' ∧ Full m') (init store roomSize) as m ↔
      Transition.Run (fun m a m' => Steps m a m' ∧ WastesNone m a.1) (init store roomSize) as m := by
    apply Transition.Run.target_congr (J := Counted)
    · exact fun m a m' h hst => (h.step hst).counted
    · exact fun m a m' h hB hst => (h.step hst).full_iff hB
    · exact hcounted
    · exact hfull
  rw [← htarget]
  constructor
  · exact full_throughout hrun hcounted
  · intro h
    have hkept : Full (init store roomSize) → Full m := by
      intro hstart
      exact h.invariant (fun _ _ _ _ hst => hst.2) hstart
    exact hkept hfull

/-- Ann asks twice for a match of two. -/
def askedTwice : List MatchOp :=
  [.session (.login 1 "ann" "secret" 11 0), .joinQueue 1 0, .joinQueue 1 0, .tryMatch 0,
    .advance, .advance, .advance, .advance, .advance]

/-- **She is alone in her room.** -/
theorem notFull_askedTwice :
    ¬ ∀ (roomSize : ℤ) (as : List (MatchOp × List MatchNotify)) (m : MatchManager MemoryStore),
        1 ≤ roomSize → Transition.Run Steps (init {} roomSize) as m → m.phase = .idle →
          RoomsFull m := by
  intro hclaim
  have hexec : ((init ({} : MemoryStore) 2).exec askedTwice).map (fun r =>
      (r.1.phase, r.1.roomSize, (r.1.rooms.getRoom 1).map Room.playerCount))
      = some (.idle, 2, some 1) := by
    decide +kernel
  obtain ⟨⟨m, as⟩, hm, heq⟩ := Option.map_eq_some_iff.mp hexec
  simp only [Prod.mk.injEq] at heq
  obtain ⟨hphase, hsize, hcount⟩ := heq
  obtain ⟨room, hroom, hone⟩ := Option.map_eq_some_iff.mp hcount
  have hfull := hclaim 2 as m (by norm_num) (run_of_exec hm) hphase 1 room hroom
  rw [hone, hsize] at hfull
  exact absurd hfull (by norm_num)

theorem roomsFull_run_iff_askedTwice : ∃ as m,
    Transition.Run Steps (init ({} : MemoryStore) 2) as m ∧ m.phase = .idle ∧
      (RoomsFull m ↔ Transition.Run (fun m a m' => Steps m a m' ∧ WastesNone m a.1)
        (init ({} : MemoryStore) 2) as m) := by
  have hexec : ((init ({} : MemoryStore) 2).exec askedTwice).map (fun r => r.1.phase)
      = some .idle := by
    decide +kernel
  obtain ⟨⟨m, as⟩, hm, hphase⟩ := Option.map_eq_some_iff.mp hexec
  exact ⟨as, m, run_of_exec hm, hphase, roomsFull_run_iff (by norm_num) (run_of_exec hm) hphase⟩

end MatchManager

end MiniArena
