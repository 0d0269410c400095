/-
MiniArena/RedisView.lean

What a Redis does with its keys.

A `RedisView` of a store is a reading of it as a Redis whose commands
succeed and whose keys do not expire: a map of strings and a list under every
key, which each command changes as documented and which MySQL leaves alone.
`MemoryStore.redisView` is the reading of the store kept in memory.

The keys of `RedisClient` rely on decimal text: it determines its number,
`std::stoull` reads it back, and keys with different heads are different.
-/
import MiniArena.SessionManager

namespace MiniArena

structure RedisView (σ : Type) [Storage σ] where
  strings : σ → Finmap fun _ : String => String
  lists : σ → String → List String
  set : ∀ key value st, strings (Storage.set key value st).2 = (strings st).insert key value ∧
    lists (Storage.set key value st).2 = lists st
  setEx : ∀ key seconds value st,
    strings (Storage.setEx key seconds value st).2 = (strings st).insert key value ∧
      lists (Storage.setEx key seconds value st).2 = lists st
  get : ∀ key st, strings (Storage.get key st).2 = strings st ∧
    lists (Storage.get key st).2 = lists st
  /-- `DEL` removes whatever is under the key. -/
  del : ∀ key st, strings (Storage.del key st).2 = (strings st).erase key ∧
    lists (Storage.del key st).2 = Function.update (lists st) key []
  lpush : ∀ key value st, strings (Storage.lpush key value st).2 = strings st ∧
    lists (Storage.lpush key value st).2 = Function.update (lists st) key (value :: lists st key)
  brpop : ∀ key timeout st text st', Storage.brpop key timeout st = some (some text, st') →
    strings st' = strings st ∧
      ∃ rest, lists st key = rest ++ [text] ∧ lists st' = Function.update (lists st) key rest
  brpop_none : ∀ key timeout st st', Storage.brpop key timeout st = some (none, st') →
    strings st' = strings st ∧ lists st' = lists st
  llen : ∀ key st, strings (Storage.llen key st).2 = strings st ∧
    lists (Storage.llen key st).2 = lists st
  getPlayer : ∀ username st, strings (Storage.getPlayer username st).2 = strings st ∧
    lists (Storage.getPlayer username st).2 = lists st
  createPlayer : ∀ username password st,
    strings (Storage.createPlayer username password st).2 = strings st ∧
      lists (Storage.createPlayer username password st).2 = lists st
  recordLogin : ∀ playerId (st : σ), strings (Storage.recordLogin playerId st) = strings st ∧
    lists (Storage.recordLogin playerId st) = lists st

/-- The store kept in memory. -/
def MemoryStore.redisView : RedisView MemoryStore where
  strings := MemoryStore.strings
  lists := MemoryStore.listAt
  set _ _ _ := ⟨rfl, rfl⟩
  setEx _ _ _ _ := ⟨rfl, rfl⟩
  get _ _ := ⟨rfl, rfl⟩
  del key st := by
    refine ⟨rfl, ?_⟩
    funext k
    show ((st.lists.erase key).lookup k).getD [] = _
    rw [Finmap.lookup_erase_eq, Function.update_apply]
    split
    · rfl
    · rfl
  lpush key value st := by
    refine ⟨rfl, ?_⟩
    funext k
    show ((st.lists.insert key _).lookup k).getD [] = _
    rw [Finmap.lookup_insert_eq, Function.update_apply]
    split
    · rfl
    · rfl
  brpop key timeout st text st' h := by
    obtain ⟨value, hlast, heq⟩ := Option.map_eq_some_iff.mp h
    obtain ⟨hvalue, rfl⟩ := Prod.mk.injEq .. ▸ heq
    obtain rfl := Option.some.inj hvalue
    refine ⟨rfl, (st.listAt key).dropLast, ?_, ?_⟩
    · exact (List.dropLast_append_getLast? value hlast).symm
    · funext k
      show ((st.lists.insert key _).lookup k).getD [] = _
      rw [Finmap.lookup_insert_eq, Function.update_apply]
      split
      · rfl
      · rfl
  brpop_none key timeout st st' h := by
    obtain ⟨value, -, heq⟩ := Option.map_eq_some_iff.mp h
    cases heq
  llen _ _ := ⟨rfl, rfl⟩
  getPlayer _ _ := ⟨rfl, rfl⟩
  createPlayer _ _ _ := ⟨rfl, rfl⟩
  recordLogin _ _ := ⟨rfl, rfl⟩

/-! ### Decimal text -/

theorem toStringU64_inj {a b : UInt64} : toStringU64 a = toStringU64 b ↔ a = b := by
  constructor
  · intro h
    exact UInt64.toNat_inj.mp (Nat.repr_inj.mp h)
  · exact congrArg toStringU64

theorem digitsValue_toDigits (n : ℕ) : digitsValue (Nat.toDigits 10 n) = n := by
  have h := @Nat.ofDigitChars_ten_toDigits n
  rw [Nat.ofDigitChars_eq_foldl] at h
  simp only [mul_comm 10] at h
  exact h

/-- A digit is no blank and no sign. -/
theorem isDigit_not_special {c : Char} (hc : c.isDigit = true) :
    isSpace c = false ∧ c ≠ '-' ∧ c ≠ '+' := by
  refine ⟨?_, ?_, ?_⟩
  · by_contra hspace
    rw [Bool.not_eq_false] at hspace
    simp only [isSpace, Bool.or_eq_true, beq_iff_eq] at hspace
    rcases hspace with ((((rfl | rfl) | rfl) | rfl) | rfl) | rfl <;> exact absurd hc (by decide)
  · rintro rfl
    exact absurd hc (by decide)
  · rintro rfl
    exact absurd hc (by decide)

/-- **`std::stoull` undoes `std::to_string`.** -/
theorem stoull_toStringU64 (n : UInt64) : stoull (toStringU64 n) = some n := by
  have hlist : (toStringU64 n).toList = Nat.toDigits 10 n.toNat := Nat.toList_repr
  have hdigits : ∀ c ∈ Nat.toDigits 10 n.toNat, c.isDigit = true :=
    fun c hc => Nat.isDigit_of_mem_toDigits (by omega) (by omega) hc
  have hvalue := digitsValue_toDigits n.toNat
  have hne : Nat.toDigits 10 n.toNat ≠ [] := Nat.toDigits_ne_nil
  unfold stoull
  rw [hlist]
  generalize Nat.toDigits 10 n.toNat = ds at hdigits hvalue hne
  obtain ⟨c, cs, rfl⟩ := List.exists_cons_of_ne_nil hne
  obtain ⟨hspace, hminus, hplus⟩ := isDigit_not_special (hdigits c List.mem_cons_self)
  have htake : (c :: cs).takeWhile Char.isDigit = c :: cs := List.takeWhile_eq_self_iff.mpr hdigits
  have hlt : ¬ 2 ^ 64 ≤ digitsValue (c :: cs) := by
    rw [hvalue]
    exact not_le.mpr n.toNat_lt
  rw [List.dropWhile_cons_of_neg (by simp [hspace])]
  dsimp only
  split
  · rename_i heq
    exact absurd (List.cons.inj heq).1 hminus
  · rename_i heq
    exact absurd (List.cons.inj heq).1 hplus
  · dsimp only
    rw [htake, if_neg (List.cons_ne_nil c cs), if_neg hlt, hvalue, UInt64.ofNat_toNat]
    rfl

/-! ### Keys -/

namespace RedisClient

theorem makeKey_inj {head : String} {a b : UInt64} : makeKey head a = makeKey head b ↔ a = b := by
  constructor
  · intro h
    have hlist := congrArg String.toList h
    simp only [makeKey, String.toList_append] at hlist
    exact toStringU64_inj.mp (String.toList_inj.mp (List.append_cancel_left hlist))
  · exact congrArg (makeKey head)

theorem matchQueueKey_inj {a b : ℤ} : matchQueueKey a = matchQueueKey b ↔ a = b := by
  constructor
  · intro h
    have hlist := congrArg String.toList h
    simp only [matchQueueKey, String.toList_append] at hlist
    exact Int.repr_inj.mp (String.toList_inj.mp (List.append_cancel_left hlist))
  · exact congrArg matchQueueKey

/-- Keys whose first letters differ. -/
theorem append_ne {head head' tail tail' : String} {c c' : Char}
    (hc : head.toList.head? = some c) (hc' : head'.toList.head? = some c') (hne : c ≠ c') :
    head ++ tail ≠ head' ++ tail' := by
  intro h
  have hlist := congrArg (fun s => s.toList.head?) h
  simp only [String.toList_append, List.head?_append, hc, hc', Option.some_or] at hlist
  exact hne (Option.some.inj hlist)

theorem session_ne_online (a b : UInt64) : makeKey "session" a ≠ makeKey "online" b := by
  rw [makeKey, makeKey, String.append_assoc, String.append_assoc]
  exact @append_ne _ _ _ _ 's' 'o' rfl rfl (by decide)

theorem session_ne_player (a : UInt64) (username : String) :
    makeKey "session" a ≠ "player:" ++ username := by
  rw [makeKey, String.append_assoc]
  exact @append_ne _ _ _ _ 's' 'p' rfl rfl (by decide)

theorem online_ne_player (a : UInt64) (username : String) :
    makeKey "online" a ≠ "player:" ++ username := by
  rw [makeKey, String.append_assoc]
  exact @append_ne _ _ _ _ 'o' 'p' rfl rfl (by decide)

end RedisClient

/-! ### What a login does to the store before it has a session -/

namespace SessionManager

variable {σ : Type} [Storage σ] {Rel : σ → σ → Prop}

/-- `Rel` holds across every command `authenticate` is made of. -/
structure Lookups (Rel : σ → σ → Prop) : Prop where
  refl : ∀ st, Rel st st
  trans : ∀ {st₁ st₂ st₃}, Rel st₁ st₂ → Rel st₂ st₃ → Rel st₁ st₃
  get : ∀ key st, Rel st (Storage.get key st).2
  getPlayer : ∀ username st, Rel st (Storage.getPlayer username st).2
  createPlayer : ∀ username password st, Rel st (Storage.createPlayer username password st).2
  cachePlayer : ∀ username pid st, Rel st (RedisClient.cachePlayer username pid st)

theorem Lookups.getCachedPlayer (h : Lookups Rel) {username : String} {st : σ}
    {r : Option PlayerId × σ} (hr : RedisClient.getCachedPlayer username st = some r) :
    Rel st r.2 := by
  have hget := h.get ("player:" ++ username) st
  unfold RedisClient.getCachedPlayer at hr
  split at hr
  · rename_i st' heq
    obtain rfl := Option.some.inj hr
    rwa [heq] at hget
  · rename_i text st' heq
    obtain ⟨pid, -, rfl⟩ := Option.map_eq_some_iff.mp hr
    rwa [heq] at hget

theorem Lookups.findPlayer (h : Lookups Rel) {st : σ} {username password : String}
    {r : Except String PlayerRecord × σ} (hr : findPlayer st username password = some r) :
    Rel st r.2 := by
  obtain ⟨⟨cachedPid, st₁⟩, hcached, rfl⟩ := Option.map_eq_some_iff.mp hr
  apply h.trans (h.getCachedPlayer hcached)
  -- the query that a cached id leads to
  rcases hfirst : (if cachedPid.isSome then Storage.getPlayer username st₁ else (none, st₁)) with
    ⟨player, st₂⟩
  have hquery : Rel st₁ st₂ := by
    by_cases hc : cachedPid.isSome = true
    · have hget := h.getPlayer username st₁
      rw [if_pos hc] at hfirst
      rwa [hfirst] at hget
    · rw [if_neg hc] at hfirst
      obtain ⟨-, rfl⟩ := Prod.mk.injEq .. ▸ hfirst
      exact h.refl st₁
  simp only [hfirst]
  apply h.trans hquery
  cases player with
  | some p => exact h.refl st₂
  | none =>
    have hsecond := h.getPlayer username st₂
    rcases hget : Storage.getPlayer username st₂ with ⟨- | p, st₃⟩
    · rw [hget] at hsecond
      apply h.trans hsecond
      have hcreate := h.createPlayer username password st₃
      rcases hnew : Storage.createPlayer username password st₃ with ⟨pid, st₄⟩
      rw [hnew] at hcreate
      simp only [hnew]
      apply h.trans hcreate
      by_cases hzero : pid = 0
      · rw [if_pos hzero]
        exact h.refl st₄
      · rw [if_neg hzero]
        apply h.trans (h.cachePlayer username pid st₄)
        have hthird := h.getPlayer username (RedisClient.cachePlayer username pid st₄)
        rcases hlast : Storage.getPlayer username (RedisClient.cachePlayer username pid st₄) with
          ⟨- | p, st₅⟩
        · rwa [hlast] at hthird
        · rwa [hlast] at hthird
    · rw [hget] at hsecond
      exact h.trans hsecond (h.cachePlayer username p.id st₃)

theorem Lookups.authenticate (h : Lookups Rel) {st : σ} {username password : String}
    {r : Except String PlayerRecord × σ} (hr : authenticate st username password = some r) :
    Rel st r.2 := by
  obtain ⟨⟨e, st'⟩, hfind, rfl⟩ := Option.map_eq_some_iff.mp hr
  apply h.trans (h.findPlayer hfind)
  cases e with
  | error msg => exact h.refl st'
  | ok p =>
    dsimp only
    split
    · exact h.refl st'
    · exact h.refl st'

end SessionManager

end MiniArena
