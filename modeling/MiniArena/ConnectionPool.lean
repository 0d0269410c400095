/-
MiniArena/ConnectionPool.lean

The pool of connections (`storage/connection_pool.h`): its constructor, and
the guards that borrow a connection and give it back.

Threads meet in the queue only, under its lock; a guard is used by one thread
at a time.  So an operation is one step where it enters the lock at most once
and touches its own guards otherwise.  `operator=` is two, since it gives a
connection back before it takes the other guard's over, and any thread may
borrow that connection in between.

What a guard answers for is `Guard.owned`.  Every step keeps the sum of what
is idle and what is owned (`Conserved`), connection by connection, and for
connections that are all different this is the partition of `Partition`.
-/
import MiniArena.FiniteMap
import MiniArena.Transition

namespace MiniArena

/-- What a move-assignment that is under way does with a guard. -/
inductive GuardUse
  | free
  /-- It has given its connection back and takes over that of the guard `other`. -/
  | target (other : ℕ)
  | source (target : ℕ)
  deriving DecidableEq, Repr

/-- `Guard`.  Its two pointers are null together. -/
structure Guard (T : Type) where
  /-- `pool_` is not null. -/
  hasPool : Bool
  conn : Option T
  use : GuardUse := .free
  hasPool_eq : hasPool = conn.isSome

structure ConnectionPool (T : Type) where
  pool : List T
  /-- The guards alive, by address. -/
  guards : Finmap fun _ : ℕ => Guard T := ∅

namespace Guard

variable {T : Type}

def holding (conn : T) : Guard T := ⟨true, some conn, .free, rfl⟩

def movedFrom : Guard T := ⟨false, none, .free, rfl⟩

def setUse (g : Guard T) (use : GuardUse) : Guard T := { g with use := use }

/-- The connection the guard answers for. -/
def owned (g : Guard T) : Option T :=
  match g.use with
  | .target _ => none
  | _ => g.conn

@[simp] theorem owned_holding (conn : T) : (holding conn).owned = some conn := rfl

@[simp] theorem owned_movedFrom : (movedFrom : Guard T).owned = none := rfl

@[simp] theorem owned_setUse_free (g : Guard T) : (g.setUse .free).owned = g.conn := rfl

@[simp] theorem owned_setUse_target (g : Guard T) (other : ℕ) :
    (g.setUse (.target other)).owned = none := rfl

@[simp] theorem owned_setUse_source (g : Guard T) (target : ℕ) :
    (g.setUse (.source target)).owned = g.conn := rfl

end Guard

namespace ConnectionPool

variable {T : Type}

/-! ### The constructor -/

/-- `while (!pool_.empty())`: the calls of `destroy_`, in order. -/
def drain : List T → List T
  | [] => []
  | conn :: pool => conn :: drain pool

@[simp] theorem drain_eq (pool : List T) : drain pool = pool := by
  induction pool with
  | nil => rfl
  | cons conn pool ih => rw [drain, ih]

/-- The exception of the constructor, after the connections it destroyed. -/
structure Failure (T : Type) where
  destroyed : List T
  message : String
  deriving DecidableEq, Repr

/-- Rounds `i` to `i + left` of the constructor's loop; `create i` is what call `i` returns,
`none` for a null pointer. -/
def fill (create : ℕ → Option T) : (left i : ℕ) → List T → Except (Failure T) (ConnectionPool T)
  | 0, _, pool => .ok { pool := pool }
  | left + 1, i, pool =>
      match create i with
      | none =>
          .error ⟨drain pool, "ConnectionPool: failed to create connection " ++ toString i⟩
      | some conn => fill create left (i + 1) (pool ++ [conn])

def construct (size : ℕ) (create : ℕ → Option T) : Except (Failure T) (ConnectionPool T) :=
  fill create size 0 []

/-! ### Borrowing and returning -/

def returnConn (s : ConnectionPool T) (conn : T) : ConnectionPool T :=
  { s with pool := s.pool ++ [conn] }

/-- `if (pool_ && conn_) pool_->returnConn(conn_)`. -/
def release (s : ConnectionPool T) (g : Guard T) : ConnectionPool T :=
  if g.hasPool then
    match g.conn with
    | none => s
    | some conn => s.returnConn conn
  else s

/-- The guard `name`, if no thread is at work on it. -/
def free (s : ConnectionPool T) (name : ℕ) : Option (Guard T) :=
  (s.guards.lookup name).filter fun g => g.use = .free

end ConnectionPool

/-- The operations of the threads; `name` is the guard they make or work on. -/
inductive PoolOp
  | borrow (name : ℕ)
  | moveConstruct (name other : ℕ)
  /-- `operator=`, up to the end of `returnConn`. -/
  | moveAssign (name other : ℕ)
  /-- The rest of `operator=`. -/
  | takeOver (name : ℕ)
  | destroy (name : ℕ)
  deriving DecidableEq, Repr

namespace ConnectionPool

variable {T : Type}

/-- `none` where the operation cannot happen, or has to wait. -/
def step (s : ConnectionPool T) : PoolOp → Option (ConnectionPool T)
  | .borrow name =>
      if name ∈ s.guards then none
      else
        match s.pool with
        | [] => none
        | conn :: pool => some { pool := pool, guards := s.guards.insert name (.holding conn) }
  | .moveConstruct name other =>
      if name ∈ s.guards then none
      else (s.free other).map fun o =>
        { s with guards := (s.guards.insert other .movedFrom).insert name (o.setUse .free) }
  | .moveAssign name other =>
      (s.free name).bind fun g => (s.free other).map fun o =>
        if name = other then s
        else
          { s.release g with
            guards := (s.guards.insert name (g.setUse (.target other))).insert other
              (o.setUse (.source name)) }
  | .takeOver name =>
      (s.guards.lookup name).bind fun g =>
        match g.use with
        | .target other =>
            (s.guards.lookup other).map fun o =>
              { s with guards := (s.guards.insert other .movedFrom).insert name (o.setUse .free) }
        | _ => none
  | .destroy name =>
      (s.free name).map fun g => { s.release g with guards := s.guards.erase name }

def Steps (s : ConnectionPool T) (op : PoolOp) (s' : ConnectionPool T) : Prop := s.step op = some s'

variable {s s' : ConnectionPool T}

theorem free_eq_some_iff {name : ℕ} {g : Guard T} :
    s.free name = some g ↔ s.guards.lookup name = some g ∧ g.use = .free := by
  rw [free, Option.filter_eq_some_iff, decide_eq_true_iff]

/-- A guard gives back what it holds. -/
theorem pool_release (g : Guard T) : (s.release g).pool = s.pool ++ g.conn.toList := by
  rcases g with ⟨hasPool, - | conn, use, rfl⟩
  · simp [release]
  · rfl

/-- What each operation does. -/
inductive Effect (s : ConnectionPool T) : PoolOp → ConnectionPool T → Prop
  | borrow {name : ℕ} {conn : T} {pool : List T} (hnew : name ∉ s.guards)
      (hpool : s.pool = conn :: pool) :
      Effect s (.borrow name) { pool := pool, guards := s.guards.insert name (.holding conn) }
  | moveConstruct {name other : ℕ} {o : Guard T} (hnew : name ∉ s.guards)
      (ho : s.guards.lookup other = some o) (hfree : o.use = .free) :
      Effect s (.moveConstruct name other)
        { s with guards := (s.guards.insert other .movedFrom).insert name (o.setUse .free) }
  | selfAssign {name : ℕ} : Effect s (.moveAssign name name) s
  | moveAssign {name other : ℕ} {g o : Guard T} (hg : s.guards.lookup name = some g)
      (hgfree : g.use = .free) (ho : s.guards.lookup other = some o) (hofree : o.use = .free)
      (hne : name ≠ other) :
      Effect s (.moveAssign name other) { s.release g with
        guards := (s.guards.insert name (g.setUse (.target other))).insert other
          (o.setUse (.source name)) }
  | takeOver {name other : ℕ} {g o : Guard T} (hg : s.guards.lookup name = some g)
      (huse : g.use = .target other) (ho : s.guards.lookup other = some o) :
      Effect s (.takeOver name)
        { s with guards := (s.guards.insert other .movedFrom).insert name (o.setUse .free) }
  | destroy {name : ℕ} {g : Guard T} (hg : s.guards.lookup name = some g)
      (hfree : g.use = .free) :
      Effect s (.destroy name) { s.release g with guards := s.guards.erase name }

theorem step_cases {op : PoolOp} (hstep : Steps s op s') : Effect s op s' := by
  cases op with
  | borrow name =>
    simp only [Steps, step] at hstep
    split at hstep
    · cases hstep
    · rename_i hnew
      split at hstep
      · cases hstep
      · rename_i conn pool hpool
        obtain rfl := Option.some.inj hstep
        exact .borrow hnew hpool
  | moveConstruct name other =>
    simp only [Steps, step] at hstep
    split at hstep
    · cases hstep
    · rename_i hnew
      obtain ⟨o, ho, rfl⟩ := Option.map_eq_some_iff.mp hstep
      obtain ⟨ho, hfree⟩ := free_eq_some_iff.mp ho
      exact .moveConstruct hnew ho hfree
  | moveAssign name other =>
    obtain ⟨g, hg, hrest⟩ := Option.bind_eq_some_iff.mp hstep
    obtain ⟨o, ho, rfl⟩ := Option.map_eq_some_iff.mp hrest
    obtain ⟨hg, hgfree⟩ := free_eq_some_iff.mp hg
    obtain ⟨ho, hofree⟩ := free_eq_some_iff.mp ho
    split
    · rename_i heq
      subst heq
      exact .selfAssign
    · rename_i hne
      exact .moveAssign hg hgfree ho hofree hne
  | takeOver name =>
    obtain ⟨g, hg, hrest⟩ := Option.bind_eq_some_iff.mp hstep
    split at hrest
    · rename_i other huse
      obtain ⟨o, ho, rfl⟩ := Option.map_eq_some_iff.mp hrest
      exact .takeOver hg huse ho
    · cases hrest
  | destroy name =>
    obtain ⟨g, hg, rfl⟩ := Option.map_eq_some_iff.mp hstep
    obtain ⟨hg, hfree⟩ := free_eq_some_iff.mp hg
    exact .destroy hg hfree

/-! ### What a move-assignment under way relies on -/

/-- The guard it takes from is another one, alive, and knows of it. -/
def Paired (s : ConnectionPool T) : Prop :=
  ∀ name g other, s.guards.lookup name = some g → g.use = .target other →
    other ≠ name ∧ ∃ o, s.guards.lookup other = some o ∧ o.use = .source name

/-- A step that touches free guards only, and leaves no move-assignment open. -/
theorem Paired.of_free (h : Paired s) (touched : ℕ → Prop)
    (htouched : ∀ name, touched name → ∀ g, s.guards.lookup name = some g → g.use = .free)
    (hleft : ∀ name g, touched name → s'.guards.lookup name = some g → g.use = .free)
    (hrest : ∀ name, ¬ touched name → s'.guards.lookup name = s.guards.lookup name) :
    Paired s' := by
  intro name g other hg huse
  have hname : ¬ touched name := by
    intro ht
    rw [hleft name g ht hg] at huse
    cases huse
  rw [hrest name hname] at hg
  obtain ⟨hne, o, ho, hsource⟩ := h name g other hg huse
  refine ⟨hne, o, ?_, hsource⟩
  rw [hrest other, ho]
  intro ht
  rw [htouched other ht o ho] at hsource
  cases hsource

/-- A free guard has no part in a move-assignment under way. -/
theorem Paired.ne_of_free {name : ℕ} {g : Guard T} (hg : s.guards.lookup name = some g)
    (hfree : g.use = .free) {other target : ℕ} {o : Guard T}
    (ho : s.guards.lookup other = some o) (hsource : o.use = .source target) : other ≠ name := by
  rintro rfl
  rw [← Option.some.inj (hg.symm.trans ho), hfree] at hsource
  cases hsource

theorem Paired.moveAssign (h : Paired s) {name other : ℕ} {g o : Guard T}
    (hg : s.guards.lookup name = some g) (hgfree : g.use = .free)
    (ho : s.guards.lookup other = some o) (hofree : o.use = .free) (hne : name ≠ other)
    (hs' : s'.guards = (s.guards.insert name (g.setUse (.target other))).insert other
      (o.setUse (.source name))) : Paired s' := by
  intro a ga b ha huse
  rw [hs', Finmap.lookup_insert_eq, Finmap.lookup_insert_eq] at ha
  rw [hs']
  split at ha
  · obtain rfl := Option.some.inj ha
    cases huse
  · split at ha
    · rename_i hname
      subst hname
      obtain rfl := Option.some.inj ha
      obtain rfl := GuardUse.target.inj huse
      exact ⟨Ne.symm hne, o.setUse (.source a), Finmap.lookup_insert _, rfl⟩
    · obtain ⟨hba, q, hq, hsource⟩ := h a ga b ha huse
      refine ⟨hba, q, ?_, hsource⟩
      rw [Finmap.lookup_insert_of_ne _ (ne_of_free ho hofree hq hsource),
        Finmap.lookup_insert_of_ne _ (ne_of_free hg hgfree hq hsource), hq]

theorem Paired.takeOver (h : Paired s) {name other : ℕ} {g o : Guard T}
    (hg : s.guards.lookup name = some g) (huse : g.use = .target other)
    (ho : s.guards.lookup other = some o)
    (hs' : s'.guards = (s.guards.insert other .movedFrom).insert name (o.setUse .free)) :
    Paired s' := by
  obtain ⟨-, o', ho', hsource⟩ := h name g other hg huse
  obtain rfl := Option.some.inj (ho.symm.trans ho')
  intro a ga b ha hause
  rw [hs', Finmap.lookup_insert_eq, Finmap.lookup_insert_eq] at ha
  rw [hs']
  split at ha
  · obtain rfl := Option.some.inj ha
    cases hause
  · split at ha
    · obtain rfl := Option.some.inj ha
      cases hause
    · rename_i haname haother
      obtain ⟨hba, q, hq, hqsource⟩ := h a ga b ha hause
      have hbname : b ≠ name := by
        rintro rfl
        rw [← Option.some.inj (hg.symm.trans hq), huse] at hqsource
        cases hqsource
      -- `other` is the source of `name`, so it is not that of `a`
      have hbother : b ≠ other := by
        rintro rfl
        rw [← Option.some.inj (ho.symm.trans hq), hsource] at hqsource
        exact haname (GuardUse.source.inj hqsource).symm
      refine ⟨hba, q, ?_, hqsource⟩
      rw [Finmap.lookup_insert_of_ne _ hbname, Finmap.lookup_insert_of_ne _ hbother, hq]

theorem Paired.step {op : PoolOp} (h : Paired s) (hstep : Steps s op s') : Paired s' := by
  cases step_cases hstep with
  | @borrow name conn pool hnew hpool =>
    apply h.of_free (· = name)
    · rintro _ rfl g hg
      exact absurd (Finmap.mem_of_lookup_eq_some hg) hnew
    · rintro _ g rfl hg
      rw [Finmap.lookup_insert] at hg
      obtain rfl := Option.some.inj hg
      rfl
    · intro a ha
      exact Finmap.lookup_insert_of_ne _ ha
  | @moveConstruct name other o hnew ho hfree =>
    apply h.of_free fun a => a = name ∨ a = other
    · rintro _ (rfl | rfl) g hg
      · exact absurd (Finmap.mem_of_lookup_eq_some hg) hnew
      · obtain rfl := Option.some.inj (ho.symm.trans hg)
        exact hfree
    · intro a g ha hg
      rw [Finmap.lookup_insert_eq, Finmap.lookup_insert_eq] at hg
      split at hg
      · obtain rfl := Option.some.inj hg
        rfl
      · rename_i hne
        rw [if_pos (ha.resolve_left hne)] at hg
        obtain rfl := Option.some.inj hg
        rfl
    · intro a ha
      obtain ⟨hname, hother⟩ := not_or.mp ha
      rw [Finmap.lookup_insert_of_ne _ hname, Finmap.lookup_insert_of_ne _ hother]
  | selfAssign => exact h
  | moveAssign hg hgfree ho hofree hne => exact h.moveAssign hg hgfree ho hofree hne rfl
  | takeOver hg huse ho => exact h.takeOver hg huse ho rfl
  | @destroy name g hg hfree =>
    apply h.of_free (· = name)
    · rintro _ rfl g' hg'
      obtain rfl := Option.some.inj (hg.symm.trans hg')
      exact hfree
    · rintro _ g' rfl hg'
      rw [Finmap.lookup_erase] at hg'
      cases hg'
    · intro a ha
      exact Finmap.lookup_erase_ne ha

/-! ### Conservation -/

variable [DecidableEq T] {created : List T}

/-- How many guards answer for `conn`. -/
def owners (guards : Finmap fun _ : ℕ => Guard T) (conn : T) : ℕ :=
  guards.countVal fun g => g.owned = some conn

theorem toNat_owned (owned : Option T) (conn : T) :
    (decide (owned = some conn)).toNat = owned.toList.count conn := by
  cases owned with
  | none => rfl
  | some c =>
    rw [Option.toList_some, List.count_singleton]
    by_cases h : c = conn <;> simp [h]

theorem owners_insert_new {guards : Finmap fun _ : ℕ => Guard T} {name : ℕ} (g : Guard T)
    (conn : T) (hnew : name ∉ guards) :
    owners (guards.insert name g) conn = owners guards conn + g.owned.toList.count conn := by
  rw [owners, Finmap.countVal_insert_of_notMem hnew, toNat_owned, owners]

theorem owners_insert {guards : Finmap fun _ : ℕ => Guard T} {name : ℕ} {g₀ : Guard T}
    (g : Guard T) (conn : T) (hg : guards.lookup name = some g₀) :
    owners (guards.insert name g) conn + g₀.owned.toList.count conn
      = owners guards conn + g.owned.toList.count conn := by
  have hcount := Finmap.countVal_insert (fun g : Guard T => g.owned = some conn) guards name g
  rw [hg, Option.any_some, toNat_owned, toNat_owned] at hcount
  exact hcount

theorem owners_erase {guards : Finmap fun _ : ℕ => Guard T} {name : ℕ} {g : Guard T}
    (conn : T) (hg : guards.lookup name = some g) :
    owners (guards.erase name) conn + g.owned.toList.count conn = owners guards conn := by
  have hcount := Finmap.countVal_erase (fun g : Guard T => g.owned = some conn) guards name
  rw [hg, Option.any_some, toNat_owned] at hcount
  exact hcount

/-- Every connection is idle or answered for as often as it was created. -/
def Conserved (created : List T) (s : ConnectionPool T) : Prop :=
  ∀ conn, s.pool.count conn + owners s.guards conn = created.count conn

omit [DecidableEq T] in
theorem owned_of_free {g : Guard T} (h : g.use = .free) : g.owned = g.conn := by
  rw [Guard.owned, h]

omit [DecidableEq T] in
theorem owned_of_source {g : Guard T} {target : ℕ} (h : g.use = .source target) :
    g.owned = g.conn := by
  rw [Guard.owned, h]

omit [DecidableEq T] in
theorem owned_of_target {g : Guard T} {other : ℕ} (h : g.use = .target other) :
    g.owned = none := by
  rw [Guard.owned, h]

theorem Conserved.step {op : PoolOp} (hp : Paired s) (h : Conserved created s)
    (hstep : Steps s op s') : Conserved created s' := by
  intro c
  have hc := h c
  cases step_cases hstep with
  | @borrow name conn pool hnew hpool =>
    have hin := owners_insert_new (.holding conn) c hnew
    rw [hpool, List.count_cons] at hc
    rw [Guard.owned_holding, Option.toList_some, List.count_singleton] at hin
    dsimp only
    omega
  | @moveConstruct name other o hnew ho hfree =>
    have hother := owners_insert .movedFrom c ho
    have hnew' : name ∉ s.guards.insert other .movedFrom := by
      rw [Finmap.mem_insert]
      rintro (rfl | hmem)
      · exact hnew (Finmap.mem_of_lookup_eq_some ho)
      · exact hnew hmem
    have hname := owners_insert_new (o.setUse .free) c hnew'
    rw [owned_of_free hfree, Guard.owned_movedFrom] at hother
    rw [Guard.owned_setUse_free] at hname
    dsimp only
    simp only [Option.toList_none, List.count_nil] at hother
    omega
  | selfAssign => exact hc
  | @moveAssign name other g o hg hgfree ho hofree hne =>
    have hname := owners_insert (g.setUse (.target other)) c hg
    have ho' : (s.guards.insert name (g.setUse (.target other))).lookup other = some o := by
      rw [Finmap.lookup_insert_of_ne _ (Ne.symm hne), ho]
    have hother := owners_insert (o.setUse (.source name)) c ho'
    rw [owned_of_free hgfree, Guard.owned_setUse_target] at hname
    rw [owned_of_free hofree, Guard.owned_setUse_source] at hother
    simp only [Option.toList_none, List.count_nil] at hname
    rw [pool_release, List.count_append]
    dsimp only
    omega
  | @takeOver name other g o hg huse ho =>
    obtain ⟨hne, o', ho', hsource⟩ := hp name g other hg huse
    obtain rfl := Option.some.inj (ho.symm.trans ho')
    have hother := owners_insert .movedFrom c ho
    have hg' : (s.guards.insert other .movedFrom).lookup name = some g := by
      rw [Finmap.lookup_insert_of_ne _ (Ne.symm hne), hg]
    have hname := owners_insert (o.setUse .free) c hg'
    rw [owned_of_source hsource, Guard.owned_movedFrom] at hother
    rw [owned_of_target huse, Guard.owned_setUse_free] at hname
    simp only [Option.toList_none, List.count_nil] at hother hname
    dsimp only
    omega
  | @destroy name g hg hfree =>
    have herase := owners_erase c hg
    rw [owned_of_free hfree] at herase
    rw [pool_release, List.count_append]
    dsimp only
    omega

/-! ### The partition -/

def Holds (s : ConnectionPool T) (name : ℕ) (conn : T) : Prop :=
  ∃ g, s.guards.lookup name = some g ∧ g.owned = some conn

/-- Each of the connections created is in one place. -/
structure Partition (created : List T) (s : ConnectionPool T) : Prop where
  created_iff : ∀ conn, conn ∈ created ↔ conn ∈ s.pool ∨ ∃ name, s.Holds name conn
  idle_nodup : s.pool.Nodup
  idle_unheld : ∀ conn ∈ s.pool, ∀ name, ¬ s.Holds name conn
  holder_unique : ∀ conn name name', s.Holds name conn → s.Holds name' conn → name = name'

theorem owners_pos_iff {conn : T} : 0 < owners s.guards conn ↔ ∃ name, s.Holds name conn := by
  rw [owners, Finmap.countVal_pos_iff]
  constructor
  · rintro ⟨name, g, hg, howned⟩
    exact ⟨name, g, hg, of_decide_eq_true howned⟩
  · rintro ⟨name, g, hg, howned⟩
    exact ⟨name, g, hg, decide_eq_true howned⟩

/-- Two holders of one connection count twice. -/
theorem two_le_owners {conn : T} {name name' : ℕ} (h : s.Holds name conn)
    (h' : s.Holds name' conn) (hne : name ≠ name') : 2 ≤ owners s.guards conn := by
  obtain ⟨g, hg, howned⟩ := h
  obtain ⟨g', hg', howned'⟩ := h'
  have herase := owners_erase conn hg
  rw [howned, Option.toList_some, List.count_singleton_self] at herase
  have hrest : 0 < owners (s.guards.erase name) conn := by
    rw [owners, Finmap.countVal_pos_iff]
    refine ⟨name', g', ?_, decide_eq_true howned'⟩
    rw [Finmap.lookup_erase_ne (Ne.symm hne), hg']
  omega

/-- Connections that are all different are partitioned. -/
theorem Conserved.partition (h : Conserved created s) (hnodup : created.Nodup) :
    Partition created s where
  created_iff conn := by
    have hc := h conn
    rw [← List.count_pos_iff, ← List.count_pos_iff, ← owners_pos_iff]
    omega
  idle_nodup := by
    rw [List.nodup_iff_count_le_one] at hnodup ⊢
    intro conn
    have hc := h conn
    have hone := hnodup conn
    omega
  idle_unheld conn hidle name hheld := by
    have hc := h conn
    have hone := List.nodup_iff_count_le_one.mp hnodup conn
    have hpos := List.count_pos_iff.mpr hidle
    have hown := owners_pos_iff.mpr ⟨name, hheld⟩
    omega
  holder_unique conn name name' hheld hheld' := by
    by_contra hne
    have hc := h conn
    have hone := List.nodup_iff_count_le_one.mp hnodup conn
    have htwo := two_le_owners hheld hheld' hne
    omega

/-- The destructor: the calls of `destroy_`, in order. -/
def destruct (s : ConnectionPool T) : List T := drain s.pool

omit [DecidableEq T] in
/-- Once all guards are gone, the destructor destroys every connection once. -/
theorem Partition.destruct_perm (h : Partition created s) (hnodup : created.Nodup)
    (hguards : s.guards = ∅) : s.destruct.Perm created := by
  rw [destruct, drain_eq, List.perm_ext_iff_of_nodup h.idle_nodup hnodup]
  intro conn
  rw [h.created_iff conn]
  constructor
  · exact Or.inl
  · rintro (hidle | ⟨name, g, hg, -⟩)
    · exact hidle
    · rw [hguards, Finmap.lookup_empty] at hg
      cases hg

theorem conserved_run {ops : List PoolOp} (hp : Paired s) (h : Conserved created s)
    (hrun : Transition.Run Steps s ops s') : Conserved created s' :=
  (hrun.invariant (I := fun s => Paired s ∧ Conserved created s)
    (fun _ _ _ hs hstep => ⟨hs.1.step hstep, hs.2.step hs.1 hstep⟩) ⟨hp, h⟩).2

/-! ### What the constructor leaves -/

omit [DecidableEq T] in
theorem fill_ok {create : ℕ → Option T} {conns : ℕ → T} {left i : ℕ} {pool : List T}
    (h : ∀ j < left, create (i + j) = some (conns (i + j))) :
    fill create left i pool = .ok { pool := pool ++ (List.range' i left).map conns } := by
  induction left generalizing i pool with
  | zero => simp [fill]
  | succ left ih =>
    have hi : create i = some (conns i) := h 0 (Nat.succ_pos left)
    have hrest : ∀ j < left, create (i + 1 + j) = some (conns (i + 1 + j)) := by
      intro j hj
      have := h (j + 1) (Nat.succ_lt_succ hj)
      rwa [← Nat.add_assoc, Nat.add_right_comm] at this
    rw [fill, hi]
    dsimp only
    rw [ih hrest, List.range'_succ, List.map_cons, List.append_assoc, List.singleton_append]

omit [DecidableEq T] in
theorem fill_error {create : ℕ → Option T} {conns : ℕ → T} {left i k : ℕ} {pool : List T}
    (hk : k < left) (h : ∀ j < k, create (i + j) = some (conns (i + j)))
    (hfail : create (i + k) = none) :
    fill create left i pool = .error ⟨pool ++ (List.range' i k).map conns,
      "ConnectionPool: failed to create connection " ++ toString (i + k)⟩ := by
  induction left generalizing i k pool with
  | zero => omega
  | succ left ih =>
    cases k with
    | zero =>
      have hi : create i = none := hfail
      rw [fill, hi]
      simp
    | succ k =>
      have hi : create i = some (conns i) := h 0 (Nat.succ_pos k)
      have hrest : ∀ j < k, create (i + 1 + j) = some (conns (i + 1 + j)) := by
        intro j hj
        have := h (j + 1) (Nat.succ_lt_succ hj)
        rwa [← Nat.add_assoc, Nat.add_right_comm] at this
      have hfail' : create (i + 1 + k) = none := by
        rwa [Nat.add_right_comm]
      rw [fill, hi]
      dsimp only
      rw [ih (Nat.lt_of_succ_lt_succ hk) hrest hfail', List.range'_succ, List.map_cons,
        List.append_assoc, List.singleton_append, Nat.add_right_comm]
      rfl

omit [DecidableEq T] in
theorem paired_new (pool : List T) : Paired ({ pool := pool } : ConnectionPool T) := by
  intro name g other hg
  rw [Finmap.lookup_empty] at hg
  cases hg

theorem conserved_new (pool : List T) : Conserved pool ({ pool := pool } : ConnectionPool T) := by
  intro conn
  rw [owners, Finmap.countVal_empty, Nat.add_zero]

omit [DecidableEq T] in
/-- **Conservation.**  A pool whose creator returns `n` different connections
keeps them partitioned whatever the threads do with their guards, and its
destructor destroys each of them once, when no guard is left.  If call `k` of
the creator fails, the constructor destroys the connections it has, each once,
and throws. -/
theorem construct_conserves (n : ℕ) (create : ℕ → Option T) (conns : ℕ → T) :
    ((∀ i < n, create i = some (conns i)) → Set.InjOn conns (Set.Iio n) →
      ∃ s, construct n create = .ok s ∧ ∀ ops s', Transition.Run Steps s ops s' →
        Partition ((List.range n).map conns) s' ∧
          (s'.guards = ∅ → s'.destruct.Perm ((List.range n).map conns))) ∧
    ∀ k < n, (∀ i < k, create i = some (conns i)) → create k = none →
      construct n create = .error ⟨(List.range k).map conns,
        "ConnectionPool: failed to create connection " ++ toString k⟩ := by
  classical
  constructor
  · intro hcreate hinj
    have hok : fill create n 0 [] = .ok { pool := [] ++ (List.range' 0 n).map conns } :=
      fill_ok (by simpa using hcreate)
    rw [List.nil_append, ← List.range_eq_range'] at hok
    have hnodup : ((List.range n).map conns).Nodup := by
      apply List.Nodup.map_on _ List.nodup_range
      intro i hi j hj heq
      exact hinj (List.mem_range.mp hi) (List.mem_range.mp hj) heq
    refine ⟨_, hok, fun ops s' hrun => ?_⟩
    have hpart := (conserved_run (paired_new _) (conserved_new _) hrun).partition hnodup
    exact ⟨hpart, hpart.destruct_perm hnodup⟩
  · intro k hk hcreate hfail
    have herror : fill create n 0 [] = .error ⟨[] ++ (List.range' 0 k).map conns,
        "ConnectionPool: failed to create connection " ++ toString (0 + k)⟩ :=
      fill_error hk (by simpa using hcreate) (by rwa [Nat.zero_add])
    rw [construct, herror, List.range_eq_range', List.nil_append, Nat.zero_add]

/-- Guard 10 is assigned from guard 11 and its first connection is borrowed again in between. -/
def overwriting : List PoolOp :=
  [.borrow 10, .borrow 11, .moveAssign 10 11, .borrow 12, .takeOver 10, .destroy 11, .destroy 10]

theorem construct_conserves_overwriting : ∃ s s' : ConnectionPool ℕ,
    construct 2 some = .ok s ∧ Transition.Run Steps s overwriting s' ∧
      Partition ((List.range 2).map id) s' := by
  obtain ⟨s, hs, hpart⟩ := (construct_conserves 2 some id).1 (fun _ _ => rfl) (fun _ _ _ _ h => h)
  obtain rfl := Except.ok.inj hs
  have hsome : (overwriting.foldlM step ({ pool := [0, 1] } : ConnectionPool ℕ)).isSome = true := by
    decide
  obtain ⟨s', hs'⟩ := Option.isSome_iff_exists.mp hsome
  have hrun : Transition.Run Steps { pool := [0, 1] } overwriting s' := Transition.run_of_foldlM hs'
  exact ⟨_, s', rfl, hrun, (hpart _ _ hrun).1⟩

end ConnectionPool

end MiniArena
