/-
MiniArena/MatchBatch.lean

A call of `tryMatch` as a loop over the match queue.

A call that is alone with a queue `q` takes it apart: entry `t` goes to the
room `roomOf t`, players without a session are left out, and less than one
room's entries stay.  The loop invariant (`Batch`) ties the entries popped
so far to the rooms, the sessions and the notifies.
-/
import MiniArena.MatchCall

namespace MiniArena

variable {σ : Type} [Storage σ]

open RedisClient SessionManager

namespace MatchManager

variable {R : RedisView σ} {m m' : MatchManager σ} {out : List MatchNotify} {mode : ℤ}
  {formed i : ℕ} {r : RoomId} {pid : PlayerId} {st : σ} {q : List PlayerId}

/-! ### What seating a player does to the sessions -/

/-- The session after the player was put in a room. -/
def seated (s : Session) (r : RoomId) : Session := { s with state := .inRoom, currentRoom := r }

theorem getByPlayer_save {ms : SessionManager σ} (ht : Tables ms) {s : Session}
    (hs : ms.getByPlayer pid = some s) (s' : Session) :
    (ms.save s.sessionId s').getByPlayer pid = some s' := by
  obtain ⟨sid, hsid, hlook⟩ := Option.bind_eq_some_iff.mp hs
  have hown : s.sessionId = sid := ht.own sid s hlook
  show (ms.playerMap.lookup pid).bind (fun a => (ms.sessions.insert s.sessionId s').lookup a) = _
  rw [hsid, Option.bind_some, hown, Finmap.lookup_insert]

theorem save_seat {ms : SessionManager σ} {s : Session}
    (hlook : ms.sessions.lookup s.sessionId = some s) (r : RoomId) :
    (ms.setState s.sessionId .inRoom).setCurrentRoom s.sessionId r
      = (ms.save s.sessionId { s with state := .inRoom }).save s.sessionId (seated s r) := by
  have hstate : ms.setState s.sessionId .inRoom = ms.save s.sessionId { s with state := .inRoom } := by
    rw [SessionManager.setState, hlook]
  have hsaved : (ms.save s.sessionId { s with state := .inRoom }).sessions.lookup s.sessionId
      = some { s with state := .inRoom } := Finmap.lookup_insert ..
  rw [hstate, SessionManager.setCurrentRoom, hsaved]
  rfl

theorem getByPlayer_seat {ms : SessionManager σ} (ht : Tables ms) {s : Session}
    (hs : ms.getByPlayer pid = some s) (r : RoomId) (p : PlayerId) :
    ((ms.setState s.sessionId .inRoom).setCurrentRoom s.sessionId r).getByPlayer p
      = if pid = p then some (seated s r) else ms.getByPlayer p := by
  obtain ⟨hlook, hpid⟩ := lookup_of_getByPlayer ht hs
  have hsaved : Tables (ms.save s.sessionId { s with state := .inRoom }) := by
    apply ht.update hlook <;> rfl
  rw [save_seat hlook]
  split
  · rename_i heq
    subst heq
    exact getByPlayer_save hsaved (getByPlayer_save ht hs _) (seated s r)
  · rename_i hne
    have hother : s.playerId ≠ p := by rwa [hpid]
    rw [getByPlayer_save_of_ne hsaved (Finmap.lookup_insert ..) hother,
      getByPlayer_save_of_ne ht hlook hother]

/-! ### Where the entries of a queue go

`m₀` is the manager when the call starts, `taken` what the call has popped from the
queue since. -/

/-- The room entry `t` goes to. -/
def roomOf (m₀ : MatchManager σ) (t : ℕ) : RoomId :=
  m₀.rooms.nextRoomId + t / m₀.roomSize.toNat

def hasSession (m₀ : MatchManager σ) (pid : PlayerId) : Bool :=
  (m₀.sessions.getByPlayer pid).isSome

/-- The room the player's last entry goes to. -/
def lastRoom (m₀ : MatchManager σ) (taken : List PlayerId) (pid : PlayerId) : Option RoomId :=
  (taken.zipIdx.filter fun e => e.1 = pid).getLast?.map fun e => m₀.roomOf e.2

/-- One notify for each entry whose player has a session. -/
def notifies (m₀ : MatchManager σ) (taken : List PlayerId) : List MatchNotify :=
  taken.zipIdx.filterMap fun e => if m₀.hasSession e.1 then some ⟨e.1, m₀.roomOf e.2⟩ else none

/-- The player has a session, and an entry for the `k`-th room. -/
def Seated (m₀ : MatchManager σ) (taken : List PlayerId) (k : ℕ) (pid : PlayerId) : Prop :=
  m₀.hasSession pid = true ∧ ∃ t, taken[t]? = some pid ∧ t / m₀.roomSize.toNat = k

variable {m₀ : MatchManager σ} {taken rest : List PlayerId} {p : PlayerId} {count k t : ℕ}

omit [Storage σ] in
theorem lastRoom_concat : m₀.lastRoom (taken ++ [p]) pid
    = if p = pid then some (m₀.roomOf taken.length) else m₀.lastRoom taken pid := by
  unfold lastRoom
  rw [List.zipIdx_append, List.filter_append]
  split
  · rename_i heq
    simp [heq]
  · rename_i hne
    simp [hne]

omit [Storage σ] in
theorem notifies_concat : m₀.notifies (taken ++ [p])
    = m₀.notifies taken ++ if m₀.hasSession p then [⟨p, m₀.roomOf taken.length⟩] else [] := by
  unfold notifies
  rw [List.zipIdx_append, List.filterMap_append]
  cases hp : m₀.hasSession p
  · simp [hp]
  · simp [hp]

omit [Storage σ] in
theorem seated_concat : m₀.Seated (taken ++ [p]) k pid ↔ m₀.Seated taken k pid ∨
    m₀.hasSession pid = true ∧ p = pid ∧ taken.length / m₀.roomSize.toNat = k := by
  unfold Seated
  rw [← and_or_left]
  apply and_congr_right
  intro _
  constructor
  · rintro ⟨t, ht, hk⟩
    rcases lt_trichotomy t taken.length with hlt | rfl | hgt
    · rw [List.getElem?_append_left hlt] at ht
      exact Or.inl ⟨t, ht, hk⟩
    · rw [List.getElem?_concat_length] at ht
      exact Or.inr ⟨Option.some.inj ht, hk⟩
    · rw [List.getElem?_eq_none (by rw [List.length_append, List.length_singleton]; omega)] at ht
      cases ht
  · rintro (⟨t, ht, hk⟩ | ⟨rfl, hk⟩)
    · have hlt := (List.getElem?_eq_some_iff.mp ht).1
      exact ⟨t, by rw [List.getElem?_append_left hlt, ht], hk⟩
    · exact ⟨taken.length, List.getElem?_concat_length, hk⟩

omit [Storage σ] in
/-- The last entry of a player is the last one. -/
theorem lastRoom_eq (ht : taken[t]? = some pid) (hlast : ∀ u, t < u → taken[u]? ≠ some pid) :
    m₀.lastRoom taken pid = some (m₀.roomOf t) := by
  induction taken using List.reverseRecOn with
  | nil => simp at ht
  | append_singleton taken p ih =>
    rw [lastRoom_concat]
    rcases lt_trichotomy t taken.length with hlt | rfl | hgt
    · have hne : p ≠ pid := by
        rintro rfl
        exact hlast taken.length hlt List.getElem?_concat_length
      rw [if_neg hne]
      rw [List.getElem?_append_left hlt] at ht
      refine ih ht fun u hu hsome => ?_
      have hlen := (List.getElem?_eq_some_iff.mp hsome).1
      exact hlast u hu (by rw [List.getElem?_append_left hlen, hsome])
    · rw [List.getElem?_concat_length] at ht
      rw [if_pos (Option.some.inj ht)]
    · rw [List.getElem?_eq_none (by rw [List.length_append, List.length_singleton]; omega)] at ht
      cases ht

/-- The session of a player, with the room of the last entry popped. -/
def moved (r : Option RoomId) (s : Session) : Session :=
  match r with
  | none => s
  | some r => seated s r

/-! ### The loop invariant -/

/-- The call has popped the entries `taken` and formed `count` rooms; `rest` is still queued. -/
structure Batch (R : RedisView σ) (m₀ : MatchManager σ) (mode : ℤ) (taken rest : List PlayerId)
    (count : ℕ) (m : MatchManager σ) : Prop where
  queue : R.Queue m.sessions.store mode rest
  tables : Tables m.sessions
  size : m.roomSize = m₀.roomSize
  next : m.rooms.nextRoomId = m₀.rooms.nextRoomId + count
  sessions : ∀ pid, m.sessions.getByPlayer pid
    = (m₀.sessions.getByPlayer pid).map (moved (m₀.lastRoom taken pid))
  old : ∀ r < m₀.rooms.nextRoomId, m.rooms.getRoom r = m₀.rooms.getRoom r
  formed : ∀ k < count, ∃ room, m.rooms.getRoom (m₀.rooms.nextRoomId + k) = some room ∧
    room.Open m₀.roomSize ∧ ∀ pid, pid ∈ room.players ↔ m₀.Seated taken k pid

/-- Where the call is, by the entries popped. -/
def Stage (m₀ : MatchManager σ) (mode : ℤ) (taken rest : List PlayerId) (count : ℕ) :
    MatchPhase → Prop
  | .idle => taken.length = count * m₀.roomSize.toNat ∧ rest.length < m₀.roomSize.toNat
  | .checking mode' formed =>
      mode' = mode ∧ count = formed ∧ taken.length = count * m₀.roomSize.toNat
  | .filling mode' formed r i =>
      mode' = mode ∧ count = formed + 1 ∧ r = m₀.rooms.nextRoomId + formed ∧
        taken.length = formed * m₀.roomSize.toNat + i ∧ i ≤ m₀.roomSize.toNat ∧
        m₀.roomSize.toNat ≤ i + rest.length

/-- The loop invariant holds, with the notifies `sent` so far. -/
def Invariant (R : RedisView σ) (m₀ : MatchManager σ) (mode : ℤ) (q : List PlayerId)
    (sent : List MatchNotify) (m : MatchManager σ) : Prop :=
  ∃ taken rest count, q = taken ++ rest ∧ Batch R m₀ mode taken rest count m ∧
    Stage m₀ mode taken rest count m.phase ∧ sent = m₀.notifies taken

theorem invariant_start (ht : Tables m₀.sessions) (hq : R.Queue m₀.sessions.store mode q)
    (hphase : m₀.phase = .checking mode 0) : Invariant R m₀ mode q [] m₀ := by
  refine ⟨[], q, 0, rfl, ⟨hq, ht, rfl, rfl, fun pid => ?_, fun _ _ => rfl, nofun⟩, ?_, rfl⟩
  · show _ = (m₀.sessions.getByPlayer pid).map (moved none)
    rcases m₀.sessions.getByPlayer pid with - | s
    · rfl
    · rfl
  · rw [hphase]
    exact ⟨rfl, rfl, (Nat.zero_mul _).symm⟩

omit [Storage σ] in
/-- No entry has gone to a room that is still to be formed. -/
theorem not_seated (hsize : 1 ≤ m₀.roomSize) (htaken : taken.length = k * m₀.roomSize.toNat) :
    ¬ m₀.Seated taken k pid := by
  rintro ⟨-, t, ht, hk⟩
  have hpos : 0 < m₀.roomSize.toNat := by omega
  have hlt := (List.getElem?_eq_some_iff.mp ht).1
  rw [htaken, ← Nat.div_lt_iff_lt_mul hpos, hk] at hlt
  exact lt_irrefl k hlt

theorem Batch.form (hsize : 1 ≤ m₀.roomSize) (h : Batch R m₀ mode taken rest count m)
    (htaken : taken.length = count * m₀.roomSize.toNat)
    (hq : R.Queue m'.sessions.store mode rest) (ht : Tables m'.sessions)
    (hsessions : ∀ pid, m'.sessions.getByPlayer pid = m.sessions.getByPlayer pid)
    (hrooms : m'.rooms = (m.rooms.createRoom m.roomSize).1) (hsame : m'.roomSize = m.roomSize) :
    Batch R m₀ mode taken rest (count + 1) m' where
  queue := hq
  tables := ht
  size := hsame.trans h.size
  next := by
    rw [hrooms]
    show m.rooms.nextRoomId + 1 = _
    rw [h.next, Nat.add_assoc]
  sessions pid := (hsessions pid).trans (h.sessions pid)
  old r hr := by
    have hne : r ≠ m.rooms.nextRoomId := by
      rw [h.next]
      exact (Nat.lt_add_right count hr).ne
    rw [hrooms, RoomManager.getRoom_createRoom, if_neg hne, h.old r hr]
  formed k hk := by
    rw [hrooms, RoomManager.getRoom_createRoom, h.next]
    rcases Nat.lt_succ_iff_lt_or_eq.mp hk with hlt | rfl
    · rw [if_neg (fun heq => hlt.ne (Nat.add_left_cancel heq))]
      exact h.formed k hlt
    · refine ⟨_, if_pos rfl, ⟨h.size, Or.inl rfl⟩, fun pid => ?_⟩
      constructor
      · intro hmem
        exact absurd hmem Finmap.notMem_empty
      · intro hseated
        exact absurd hseated (not_seated hsize htaken)

theorem Batch.isSome (h : Batch R m₀ mode taken rest count m) (pid : PlayerId) :
    (m.sessions.getByPlayer pid).isSome = m₀.hasSession pid := by
  rw [h.sessions pid, Option.isSome_map, hasSession]

/-- The oldest entry is of a player without a session. -/
theorem Batch.absent (h : Batch R m₀ mode taken (pid :: rest) count m)
    (hs : m.sessions.getByPlayer pid = none) (hq : R.Queue st mode rest) {phase : MatchPhase} :
    Batch R m₀ mode (taken ++ [pid]) rest count
      { m with sessions := { m.sessions with store := st }, phase := phase } where
  queue := hq
  tables := (Quiet.store m.sessions st).tables h.tables
  size := h.size
  next := h.next
  sessions p := by
    show m.sessions.getByPlayer p = _
    rw [lastRoom_concat]
    split
    · rename_i heq
      subst heq
      have hnone := h.sessions pid
      rw [hs, eq_comm, Option.map_eq_none_iff] at hnone
      rw [hs, hnone]
      rfl
    · exact h.sessions p
  old := h.old
  formed k hk := by
    obtain ⟨room, hroom, hopen, hmem⟩ := h.formed k hk
    refine ⟨room, hroom, hopen, fun p => ?_⟩
    rw [hmem p, seated_concat]
    constructor
    · exact Or.inl
    · rintro (hseated | ⟨hsome, rfl, -⟩)
      · exact hseated
      · rw [← h.isSome, hs] at hsome
        cases hsome

omit [Storage σ] in
/-- A room never has more players than entries went to it. -/
theorem card_le {room : Room} (hmem : ∀ pid, pid ∈ room.players ↔ m₀.Seated taken k pid)
    (htaken : taken.length = k * m₀.roomSize.toNat + i) :
    room.players.keys.card ≤ i := by
  have hsub : room.players.keys ⊆ (taken.drop (k * m₀.roomSize.toNat)).toFinset := by
    intro pid hpid
    obtain ⟨-, t, ht, hk⟩ := (hmem pid).mp (Finmap.mem_keys.mp hpid)
    have hge : k * m₀.roomSize.toNat ≤ t := by
      rw [← hk]
      exact Nat.div_mul_le_self t _
    rw [List.mem_toFinset, List.mem_iff_getElem?]
    refine ⟨t - k * m₀.roomSize.toNat, ?_⟩
    rw [List.getElem?_drop, Nat.add_sub_cancel' hge, ht]
  calc room.players.keys.card ≤ (taken.drop (k * m₀.roomSize.toNat)).toFinset.card :=
        Finset.card_le_card hsub
    _ ≤ (taken.drop (k * m₀.roomSize.toNat)).length := List.toFinset_card_le _
    _ = i := by rw [List.length_drop, htaken, Nat.add_sub_cancel_left]

omit [Storage σ] in
/-- The entry popped in round `i` goes to the room that is being filled. -/
theorem div_round (htaken : taken.length = k * m₀.roomSize.toNat + i)
    (hi : i < m₀.roomSize.toNat) : taken.length / m₀.roomSize.toNat = k := by
  rw [htaken, Nat.mul_comm, Nat.mul_add_div (by omega), Nat.div_eq_of_lt hi, Nat.add_zero]

theorem seated_moved (x : Option RoomId) (s : Session) (r : RoomId) :
    seated (moved x s) r = seated s r := by
  cases x with
  | none => rfl
  | some a => rfl

/-- The player joins the room that is being filled. -/
theorem Batch.formed_seat {room : Room} (h : Batch R m₀ mode taken rest (formed + 1) m)
    (hroom : m.rooms.getRoom (m₀.rooms.nextRoomId + formed) = some room)
    (htaken : taken.length = formed * m₀.roomSize.toNat + i) (hi : i < m₀.roomSize.toNat)
    (hsome : m₀.hasSession pid = true) (username : String) (hk : k < formed + 1) :
    ∃ room', (m.rooms.update (m₀.rooms.nextRoomId + formed)
        (room.addPlayer pid username).1).getRoom (m₀.rooms.nextRoomId + k) = some room' ∧
      room'.Open m₀.roomSize ∧ ∀ p, p ∈ room'.players ↔ m₀.Seated (taken ++ [pid]) k p := by
  have hdiv := div_round htaken hi
  obtain ⟨room', hroom', hopen, hmem⟩ := h.formed k hk
  rw [RoomManager.getRoom_update]
  by_cases heq : k = formed
  · subst heq
    obtain rfl := Option.some.inj (hroom.symm.trans hroom')
    have hcard : room.playerCount < m₀.roomSize := by
      have hle := card_le hmem htaken
      rw [Room.playerCount]
      omega
    obtain ⟨hopen', hkeys⟩ := Room.addPlayer_open hopen hcard pid username
    refine ⟨_, if_pos rfl, hopen', fun p => ?_⟩
    rw [← Finmap.mem_keys, hkeys, Finset.mem_insert, Finmap.mem_keys, hmem p, seated_concat]
    constructor
    · rintro (rfl | hseated)
      · exact Or.inr ⟨hsome, rfl, hdiv⟩
      · exact Or.inl hseated
    · rintro (hseated | ⟨-, rfl, -⟩)
      · exact Or.inr hseated
      · exact Or.inl rfl
  · refine ⟨room', (if_neg fun h => heq (Nat.add_left_cancel h)).trans hroom', hopen, fun p => ?_⟩
    rw [hmem p, seated_concat]
    constructor
    · exact Or.inl
    · rintro (hseated | ⟨-, -, hk'⟩)
      · exact hseated
      · exact absurd (hk'.symm.trans hdiv) heq

/-- The oldest entry is of a player with a session. -/
theorem Batch.seat {s : Session} {room : Room}
    (h : Batch R m₀ mode taken (pid :: rest) (formed + 1) m)
    (hs : m.sessions.getByPlayer pid = some s)
    (hroom : m.rooms.getRoom (m₀.rooms.nextRoomId + formed) = some room)
    (htaken : taken.length = formed * m₀.roomSize.toNat + i) (hi : i < m₀.roomSize.toNat)
    (hq : R.Queue st mode rest) {phase : MatchPhase} :
    Batch R m₀ mode (taken ++ [pid]) rest (formed + 1) { m with
      sessions := (({ m.sessions with store := st } : SessionManager σ).setState
        s.sessionId .inRoom).setCurrentRoom s.sessionId (m₀.rooms.nextRoomId + formed)
      rooms := m.rooms.update (m₀.rooms.nextRoomId + formed) (room.addPlayer pid s.username).1
      phase := phase } := by
  have ht := (Quiet.store m.sessions st).tables h.tables
  have hroomOf : m₀.roomOf taken.length = m₀.rooms.nextRoomId + formed := by
    rw [roomOf, div_round htaken hi]
  have hseat := getByPlayer_seat ht hs (m₀.rooms.nextRoomId + formed)
  have hsame : R.SameQueues st (({ m.sessions with store := st } : SessionManager σ).setState
      s.sessionId .inRoom |>.setCurrentRoom s.sessionId (m₀.rooms.nextRoomId + formed)).store :=
    RedisView.sameQueues_commands.trans (RedisView.sameQueues_commands.setState _ _ _)
      (RedisView.sameQueues_commands.setCurrentRoom _ _ _)
  have hsome : m₀.hasSession pid = true := by
    rw [← h.isSome, hs]
    rfl
  exact {
    queue := hq.of_same hsame
    tables := GameServer.tables_setCurrentRoom ((quiet_setState _ _ _).tables ht) _ _
    size := h.size
    next := h.next
    sessions := by
      intro p
      refine (hseat p).trans ?_
      rw [lastRoom_concat, hroomOf]
      split
      · rename_i heq
        subst heq
        obtain ⟨s₀, hs₀, rfl⟩ := Option.map_eq_some_iff.mp ((h.sessions pid).symm.trans hs)
        rw [hs₀, Option.map_some, seated_moved]
        rfl
      · exact h.sessions p
    old := by
      intro a ha
      have hne : a ≠ m₀.rooms.nextRoomId + formed := (Nat.lt_add_right formed ha).ne
      show (m.rooms.update _ _).getRoom a = _
      rw [RoomManager.getRoom_update, if_neg hne]
      exact h.old a ha
    formed := fun k => h.formed_seat hroom htaken hi hsome s.username }

/-- The loop looks at the queue. -/
theorem Batch.check (hR : R.Fifo) (hsize : 1 ≤ m₀.roomSize) (h : Batch R m₀ mode taken rest count m)
    (hlen : rest.length < 2 ^ 31) (hphase : m.phase = .checking mode formed) (hcount : count = formed)
    (htaken : taken.length = count * m₀.roomSize.toNat) (hadv : m.advance = some (m', out)) :
    Invariant R m₀ mode (taken ++ rest) (m₀.notifies taken ++ out) m' := by
  have hsame : R.SameQueues m.sessions.store (matchQueueSize mode m.sessions.store).2 :=
    RedisView.sameQueues_matchQueueSize
  have ht := (Quiet.store m.sessions (matchQueueSize mode m.sessions.store).2).tables h.tables
  have hread : (matchQueueSize mode m.sessions.store).1 = rest.length := by
    rw [RedisView.matchQueueSize_eq hR h.queue, Int.bmod_eq_of_le (by omega) (by omega)]
  rcases lt_or_ge (matchQueueSize mode m.sessions.store).1 m.roomSize with hfew | hmany
  · obtain ⟨rfl, rfl⟩ := Prod.mk.injEq .. ▸ Option.some.inj ((advance_break hphase hfew).symm.trans hadv)
    rw [hread, h.size] at hfew
    refine ⟨taken, rest, count, rfl, ?_, ⟨htaken, by omega⟩, List.append_nil _⟩
    exact ⟨h.queue.of_same hsame, ht, h.size, h.next, h.sessions, h.old, h.formed⟩
  · obtain ⟨rfl, rfl⟩ := Prod.mk.injEq .. ▸ Option.some.inj ((advance_form hphase hmany).symm.trans hadv)
    rw [hread, h.size] at hmany
    refine ⟨taken, rest, count + 1, rfl, ?_, ?_, List.append_nil _⟩
    · exact h.form hsize htaken (h.queue.of_same hsame) ht (fun _ => rfl) rfl rfl
    · refine ⟨rfl, by rw [hcount], by rw [h.next, hcount], by rw [htaken, hcount, Nat.add_zero],
        Nat.zero_le _, by omega⟩

/-- A round of the loop that fills a room. -/
theorem Batch.fill (hR : R.Fifo) (h : Batch R m₀ mode taken rest (formed + 1) m)
    (hphase : m.phase = .filling mode formed (m₀.rooms.nextRoomId + formed) i)
    (htaken : taken.length = formed * m₀.roomSize.toNat + i) (hi : i ≤ m₀.roomSize.toNat)
    (henough : m₀.roomSize.toNat ≤ i + rest.length) (hadv : m.advance = some (m', out)) :
    Invariant R m₀ mode (taken ++ rest) (m₀.notifies taken ++ out) m' := by
  have hsize := h.size
  obtain ⟨room, hroom, -⟩ := h.formed formed (Nat.lt_succ_self formed)
  rcases lt_or_eq_of_le hi with hlt | rfl
  · -- an entry is popped
    obtain ⟨pid, rest, rfl⟩ : ∃ pid rest', rest = pid :: rest' := by
      cases rest with
      | nil =>
        rw [List.length_nil] at henough
        omega
      | cons pid rest => exact ⟨pid, rest, rfl⟩
    have hround : (i : ℤ) < m.roomSize := by omega
    have hsplit : taken ++ pid :: rest = (taken ++ [pid]) ++ rest := by simp
    have hstage : Stage m₀ mode (taken ++ [pid]) rest (formed + 1)
        (.filling mode formed (m₀.rooms.nextRoomId + formed) (i + 1)) := by
      rw [List.length_cons] at henough
      refine ⟨rfl, rfl, rfl, ?_, hlt, by omega⟩
      rw [List.length_append, List.length_singleton, htaken, Nat.add_assoc]
    obtain ⟨st, hpop, hq, -⟩ := RedisView.popMatchQueue_eq hR h.queue
    rcases hs : m.sessions.getByPlayer pid with - | s
    · obtain ⟨rfl, rfl⟩ := Prod.mk.injEq .. ▸
        Option.some.inj ((advance_absent hphase hround hpop hs).symm.trans hadv)
      refine ⟨_, _, _, hsplit, h.absent hs hq, hstage, ?_⟩
      have hnone : m₀.hasSession pid = false := by
        rw [← h.isSome, hs]
        rfl
      rw [notifies_concat, hnone]
      rfl
    · obtain ⟨rfl, rfl⟩ := Prod.mk.injEq .. ▸
        Option.some.inj ((advance_seat hphase hround hpop hs hroom).symm.trans hadv)
      refine ⟨_, _, _, hsplit, h.seat hs hroom htaken hlt hq, hstage, ?_⟩
      have hsome : m₀.hasSession pid = true := by
        rw [← h.isSome, hs]
        rfl
      rw [notifies_concat, hsome, roomOf, div_round htaken hlt]
      rfl
  · -- the room has had its entries
    have hround : m.roomSize ≤ (m₀.roomSize.toNat : ℕ) := by omega
    obtain ⟨rfl, rfl⟩ := Prod.mk.injEq .. ▸
      Option.some.inj ((advance_full hphase hround).symm.trans hadv)
    refine ⟨taken, rest, formed + 1, rfl, ?_, ⟨rfl, rfl, ?_⟩, List.append_nil _⟩
    · exact ⟨h.queue, h.tables, h.size, h.next, h.sessions, h.old, h.formed⟩
    · rw [htaken, Nat.succ_mul]

theorem Invariant.step (hR : R.Fifo) (hsize : 1 ≤ m₀.roomSize) (hlen : q.length < 2 ^ 31)
    {sent : List MatchNotify} (h : Invariant R m₀ mode q sent m)
    (hadv : m.advance = some (m', out)) : Invariant R m₀ mode q (sent ++ out) m' := by
  obtain ⟨taken, rest, count, rfl, hbatch, hstage, rfl⟩ := h
  cases hphase : m.phase with
  | idle =>
    rw [advance, hphase] at hadv
    cases hadv
  | checking mode' formed =>
    rw [hphase] at hstage
    obtain ⟨rfl, hcount, htaken⟩ := hstage
    rw [List.length_append] at hlen
    exact hbatch.check hR hsize (by omega) hphase hcount htaken hadv
  | filling mode' formed r i =>
    rw [hphase] at hstage
    obtain ⟨rfl, rfl, rfl, htaken, hi, henough⟩ := hstage
    exact hbatch.fill hR hphase htaken hi henough hadv

/-- The loop invariant along a call that is left alone. -/
theorem invariant_run (hR : R.Fifo) (hsize : 1 ≤ m₀.roomSize) (hlen : q.length < 2 ^ 31)
    {sent : List MatchNotify} {as : List (MatchOp × List MatchNotify)}
    (h : Invariant R m₀ mode q sent m) (hrun : Transition.Run Steps m as m') (halone : Alone as) :
    Invariant R m₀ mode q (sent ++ as.flatMap Prod.snd) m' := by
  induction hrun generalizing sent with
  | nil =>
    rw [List.flatMap_nil, List.append_nil]
    exact h
  | @cons m a m₁ as m' hstep hrun ih =>
    obtain ⟨op, out⟩ := a
    obtain rfl : op = .advance := halone _ List.mem_cons_self
    rw [List.flatMap_cons, ← List.append_assoc]
    exact ih (h.step hR hsize hlen hstep.1) fun a ha => halone a (List.mem_cons_of_mem _ ha)

/-! ### The result of a call -/

/-- The `k`-th `room_size_` entries. -/
def block (m₀ : MatchManager σ) (q : List PlayerId) (k : ℕ) : List PlayerId :=
  (q.drop (k * m₀.roomSize.toNat)).take m₀.roomSize.toNat

/-- How many rooms can be formed from `q`. -/
def roomCount (m₀ : MatchManager σ) (q : List PlayerId) : ℕ := q.length / m₀.roomSize.toNat

/-- The entries that go to these rooms. -/
def matched (m₀ : MatchManager σ) (q : List PlayerId) : List PlayerId :=
  q.take (m₀.roomCount q * m₀.roomSize.toNat)

/-- What a call that starts in `m₀` with the queue `q` has done when it ends in `m`, after
the notifies `sent`. -/
structure Partitioned (R : RedisView σ) (m₀ : MatchManager σ) (mode : ℤ) (q : List PlayerId)
    (sent : List MatchNotify) (m : MatchManager σ) : Prop where
  left : ∃ rest, rest <:+ q ∧ rest.length = q.length % m₀.roomSize.toNat ∧
    R.Queue m.sessions.store mode rest
  fresh : ∀ k, m₀.rooms.getRoom (m₀.rooms.nextRoomId + k) = none
  created : ∀ k, (m.rooms.getRoom (m₀.rooms.nextRoomId + k)).isSome ↔ k < m₀.roomCount q
  old : ∀ r < m₀.rooms.nextRoomId, m.rooms.getRoom r = m₀.rooms.getRoom r
  members : ∀ k room, m.rooms.getRoom (m₀.rooms.nextRoomId + k) = some room →
    ∀ pid, pid ∈ room.players ↔ pid ∈ m₀.block q k ∧ m₀.hasSession pid = true
  sent : sent = (m₀.matched q).zipIdx.filterMap fun e =>
    if m₀.hasSession e.1 then
      some ⟨e.1, m₀.rooms.nextRoomId + e.2 / m₀.roomSize.toNat⟩
    else none
  moved : ∀ t pid, (m₀.matched q)[t]? = some pid → (∀ u, t < u → (m₀.matched q)[u]? ≠ some pid) →
    m₀.hasSession pid = true → ∃ s, m.sessions.getByPlayer pid = some s ∧ s.state = .inRoom ∧
      s.currentRoom = m₀.rooms.nextRoomId + t / m₀.roomSize.toNat

omit [Storage σ] in
/-- What is in a block was popped for its room. -/
theorem seated_iff_mem_block (hsize : 1 ≤ m₀.roomSize) (hk : k < m₀.roomCount q) :
    m₀.Seated (m₀.matched q) k pid ↔ pid ∈ m₀.block q k ∧ m₀.hasSession pid = true := by
  have hpos : 0 < m₀.roomSize.toNat := by omega
  rw [Seated, and_comm]
  apply and_congr_left
  intro _
  rw [block, List.mem_iff_getElem?]
  constructor
  · rintro ⟨t, ht, rfl⟩
    rw [matched, List.getElem?_take] at ht
    obtain ⟨-, ht⟩ := Option.ite_none_right_eq_some.mp ht
    refine ⟨t % m₀.roomSize.toNat, ?_⟩
    rw [List.getElem?_take_of_lt (Nat.mod_lt _ hpos), List.getElem?_drop, Nat.div_add_mod', ht]
  · rintro ⟨j, hj⟩
    rw [List.getElem?_take, List.getElem?_drop] at hj
    obtain ⟨hjn, hj⟩ := Option.ite_none_right_eq_some.mp hj
    have hlt : k * m₀.roomSize.toNat + j < m₀.roomCount q * m₀.roomSize.toNat :=
      calc k * m₀.roomSize.toNat + j < (k + 1) * m₀.roomSize.toNat := by
            rw [Nat.succ_mul]
            omega
        _ ≤ m₀.roomCount q * m₀.roomSize.toNat := Nat.mul_le_mul_right _ hk
    refine ⟨k * m₀.roomSize.toNat + j, ?_, ?_⟩
    · rw [matched, List.getElem?_take_of_lt hlt, hj]
    · rw [Nat.mul_comm, Nat.mul_add_div hpos, Nat.div_eq_of_lt hjn, Nat.add_zero]

/-- **The loop invariant at the end of the call.** -/
theorem Invariant.partitioned (hsize : 1 ≤ m₀.roomSize) (h₀ : Sound R m₀) (hm : Sound R m)
    {sent : List MatchNotify} (h : Invariant R m₀ mode q sent m) (hend : m.phase = .idle) :
    Partitioned R m₀ mode q sent m := by
  obtain ⟨taken, rest, count, rfl, hbatch, hstage, rfl⟩ := h
  rw [hend] at hstage
  obtain ⟨htaken, hrest⟩ := hstage
  have hlen : (taken ++ rest).length = m₀.roomSize.toNat * count + rest.length := by
    rw [List.length_append, htaken, Nat.mul_comm]
  have hcount : m₀.roomCount (taken ++ rest) = count := by
    rw [roomCount, hlen, Nat.mul_add_div (by omega), Nat.div_eq_of_lt hrest, Nat.add_zero]
  have hmatched : m₀.matched (taken ++ rest) = taken := by
    rw [matched, hcount, ← htaken, List.take_left]
  exact {
    left := by
      refine ⟨rest, List.suffix_append taken rest, ?_, hbatch.queue⟩
      rw [hlen, Nat.mul_add_mod, Nat.mod_eq_of_lt hrest]
    fresh := by
      intro k
      by_contra hsome
      obtain ⟨room, hroom⟩ := Option.ne_none_iff_exists'.mp hsome
      exact absurd (h₀.rooms _ room hroom) (Nat.not_lt.mpr (Nat.le_add_right _ _))
    created := by
      intro k
      rw [hcount]
      constructor
      · intro hsome
        obtain ⟨room, hroom⟩ := Option.isSome_iff_exists.mp hsome
        have hlt := hm.rooms _ room hroom
        rw [hbatch.next] at hlt
        exact Nat.lt_of_add_lt_add_left hlt
      · intro hk
        obtain ⟨room, hroom, -⟩ := hbatch.formed k hk
        rw [hroom]
        rfl
    old := hbatch.old
    members := by
      intro k room hroom pid
      have hlt := hm.rooms _ room hroom
      rw [hbatch.next] at hlt
      have hk := Nat.lt_of_add_lt_add_left hlt
      obtain ⟨room', hroom', -, hmem⟩ := hbatch.formed k hk
      obtain rfl := Option.some.inj (hroom.symm.trans hroom')
      rw [hmem pid, ← seated_iff_mem_block hsize (by rw [hcount]; exact hk), hmatched]
    sent := by
      rw [hmatched]
      rfl
    moved := by
      intro t pid ht hlast hsome
      rw [hmatched] at ht hlast
      obtain ⟨s₀, hs₀⟩ := Option.isSome_iff_exists.mp hsome
      refine ⟨seated s₀ (m₀.roomOf t), ?_, rfl, rfl⟩
      rw [hbatch.sessions pid, hs₀, lastRoom_eq ht hlast]
      rfl }

/-- **`tryMatch` partitions the queue.**  In every run, with whatever the other threads do
between its steps, a call pops only what is there, and ends once the others are quiet; a call
that nobody disturbs forms a room of every `room_size_` entries. -/
theorem tryMatch_partitions (R : RedisView σ) (hR : R.Fifo) {store : σ} {roomSize : ℤ}
    (hsize : 1 ≤ roomSize) (htext : ∀ mode, ∃ q, R.Queue store mode q)
    {as : List (MatchOp × List MatchNotify)}
    (hrun : Transition.Run Steps (init store roomSize) as m) :
    (∀ mode formed r i, m.phase = .filling mode formed r i → i < m.roomSize →
      R.lists m.sessions.store (matchQueueKey mode) ≠ []) ∧
    (∃ bs m', Transition.Run Steps m bs m' ∧ Alone bs ∧ m'.phase = .idle) ∧
    ∀ mode q, m.phase = .checking mode 0 → R.Queue m.sessions.store mode q →
      q.length < 2 ^ 31 →
      ∃ bs m', Transition.Run Steps m bs m' ∧ Alone bs ∧ m'.phase = .idle ∧
        Partitioned R m mode q (bs.flatMap Prod.snd) m' := by
  have hsound := sound_run hR (sound_init hsize htext) hrun
  refine ⟨fun mode formed r i => hsound.pop_nonempty, hsound.ends hR, ?_⟩
  intro mode q hphase hq hlen
  obtain ⟨bs, m', hbs, halone, hend⟩ := hsound.ends hR
  refine ⟨bs, m', hbs, halone, hend, ?_⟩
  have hinv := invariant_run hR hsound.size hlen (invariant_start hsound.tables hq hphase) hbs halone
  exact hinv.partitioned hsound.size hsound (sound_run hR hsound hbs) hend

/-- Three players ask for matches of two. -/
def threeWaiting : List MatchOp :=
  [.session (.login 1 "ann" "secret" 11 0), .session (.login 2 "bob" "hidden" 12 5),
    .session (.login 3 "cat" "purr" 13 7), .joinQueue 1 0, .joinQueue 2 0, .joinQueue 3 0,
    .tryMatch 0]

theorem tryMatch_partitions_three : ∃ as bs m m',
    Transition.Run Steps (init ({} : MemoryStore) 2) as m ∧ Transition.Run Steps m bs m' ∧
      Alone bs ∧ m'.phase = .idle ∧
      Partitioned MemoryStore.redisView m 0 [1, 2, 3] (bs.flatMap Prod.snd) m' := by
  have hexec : ((init ({} : MemoryStore) 2).exec threeWaiting).map (fun r =>
      (r.1.phase, r.1.sessions.store.listAt (matchQueueKey 0)))
      = some (.checking 0 0, ["3", "2", "1"]) := by
    decide +kernel
  obtain ⟨⟨m, as⟩, hm, heq⟩ := Option.map_eq_some_iff.mp hexec
  obtain ⟨hphase, hlist⟩ := Prod.mk.injEq .. ▸ heq
  have hq : MemoryStore.redisView.Queue m.sessions.store 0 [1, 2, 3] :=
    hlist.trans (by decide)
  have hempty : ∀ mode, ∃ q, MemoryStore.redisView.Queue ({} : MemoryStore) mode q :=
    fun _ => ⟨[], rfl⟩
  obtain ⟨bs, m', hbs, halone, hend, hpart⟩ := (tryMatch_partitions MemoryStore.redisView
    MemoryStore.fifo_redisView (by norm_num) hempty (run_of_exec hm)).2.2
      0 [1, 2, 3] hphase hq (by norm_num)
  exact ⟨as, bs, m, m', run_of_exec hm, hbs, halone, hend, hpart⟩

end MatchManager

end MiniArena
