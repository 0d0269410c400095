/-
MiniArena/StoreCommands.lean

What the session manager does to the stores.

`Commands Rel` says that `Rel` holds across every command the session manager
issues, and that it is reflexive and transitive.  Then `Rel` holds across
every operation of the session manager (`Commands.step`), and across what the
match queue's operations do besides pushing.
-/
import MiniArena.GameServer
import MiniArena.RedisView

namespace MiniArena

variable {σ : Type} [Storage σ]

namespace SessionManager

structure Commands (Rel : σ → σ → Prop) : Prop extends Lookups Rel where
  saveToRedis : ∀ s st, Rel st (saveToRedis s st)
  delSession : ∀ sid st, Rel st (RedisClient.delSession sid st)
  delOnline : ∀ pid st, Rel st (RedisClient.delOnline pid st)
  recordLogin : ∀ pid st, Rel st (Storage.recordLogin pid st)

namespace Commands

variable {Rel : σ → σ → Prop} {m m' : SessionManager σ}

theorem removeFromRedis (h : Commands Rel) (m : SessionManager σ) (sid : SessionId) :
    Rel m.store (m.removeFromRedis sid) := by
  unfold SessionManager.removeFromRedis
  refine h.trans ?_ (h.delSession sid _)
  split
  · exact h.refl m.store
  · exact h.delOnline _ _

theorem setState (h : Commands Rel) (m : SessionManager σ) (sid : SessionId)
    (newState : SessionState) : Rel m.store (m.setState sid newState).store := by
  unfold SessionManager.setState
  split
  · exact h.refl m.store
  · exact h.saveToRedis _ _

theorem setMatchMode (h : Commands Rel) (m : SessionManager σ) (sid : SessionId) (mode : ℤ) :
    Rel m.store (m.setMatchMode sid mode).store := by
  unfold SessionManager.setMatchMode
  split
  · exact h.refl m.store
  · exact h.refl m.store

theorem setCurrentRoom (h : Commands Rel) (m : SessionManager σ) (sid : SessionId) (r : RoomId) :
    Rel m.store (m.setCurrentRoom sid r).store := by
  unfold SessionManager.setCurrentRoom
  split
  · exact h.refl m.store
  · exact h.saveToRedis _ _

theorem heartbeat (h : Commands Rel) (m : SessionManager σ) (sid : SessionId) (now : ℤ) :
    Rel m.store (m.heartbeat sid now).store := by
  unfold SessionManager.heartbeat
  split
  · exact h.refl m.store
  · exact h.refl m.store

theorem markDisconnected (h : Commands Rel) (m : SessionManager σ) (connId : ConnectionId) (now : ℤ) :
    Rel m.store (m.markDisconnected connId now).store := by
  unfold SessionManager.markDisconnected
  split
  · exact h.refl m.store
  · split
    · exact h.refl m.store
    · exact h.saveToRedis _ _

theorem logout (h : Commands Rel) (m : SessionManager σ) (sid : SessionId) :
    Rel m.store (m.logout sid).store := by
  unfold SessionManager.logout
  split
  · exact h.refl m.store
  · exact h.removeFromRedis m sid

theorem cleanupExpired (h : Commands Rel) (m : SessionManager σ) (now : ℤ) (order : List SessionId) :
    Rel m.store (m.cleanupExpired now order).store :=
  cleanupExpired_induction (fun m' sid _ _ hrel => h.trans hrel (h.removeFromRedis m' sid))
    (h.refl m.store) now order

theorem tryReconnect (h : Commands Rel) (m : SessionManager σ) (sid : SessionId)
    (newConnId : ConnectionId) (now restored : ℤ) :
    Rel m.store (m.tryReconnect sid newConnId now restored).1.store := by
  rcases tryReconnect_cases m sid newConnId now restored with
    ⟨-, _, -, heq⟩ | ⟨s, hs, -, ⟨-, heq⟩ | ⟨-, heq⟩⟩
  · rw [heq]
    exact h.refl m.store
  · rw [heq]
    exact h.removeFromRedis m sid
  · rw [heq]
    exact h.saveToRedis _ _

theorem kickDuplicate (h : Commands Rel) (m : SessionManager σ) (pid : PlayerId) :
    Rel m.store (m.kickDuplicate pid).1.store := by
  unfold SessionManager.kickDuplicate
  split
  · exact h.refl m.store
  · split
    · exact h.refl m.store
    · exact h.removeFromRedis m _

theorem step (h : Commands Rel) {op : Op} (hstep : m.step op = some m') : Rel m.store m'.store := by
  cases op with
  | login connId username password sid now =>
    rcases login_cases hstep with ⟨msg, st, hauth, rfl⟩ | ⟨player, st, hauth, rfl⟩
    · exact h.toLookups.authenticate hauth
    · apply h.trans (h.toLookups.authenticate hauth)
      apply h.trans (h.kickDuplicate { m with store := st } player.id)
      exact h.trans (h.saveToRedis _ _) (h.recordLogin _ _)
  | logout sid =>
    obtain rfl := Option.some.inj hstep
    exact h.logout m sid
  | heartbeat sid now =>
    obtain rfl := Option.some.inj hstep
    exact h.heartbeat m sid now
  | setState sid newState =>
    obtain rfl := Option.some.inj hstep
    exact h.setState m sid newState
  | setMatchMode sid mode =>
    obtain rfl := Option.some.inj hstep
    exact h.setMatchMode m sid mode
  | setCurrentRoom sid r =>
    obtain rfl := Option.some.inj hstep
    exact h.setCurrentRoom m sid r
  | cleanupExpired now order =>
    obtain ⟨-, heq⟩ := Option.ite_none_right_eq_some.mp hstep
    obtain rfl := Option.some.inj heq
    exact h.cleanupExpired m now order
  | markDisconnected connId now =>
    obtain rfl := Option.some.inj hstep
    exact h.markDisconnected m connId now
  | tryReconnect sid newConnId now restored =>
    obtain rfl := Option.some.inj hstep
    exact h.tryReconnect m sid newConnId now restored

/-- After the push, `joinQueue` only changes the session. -/
theorem joinQueue (h : Commands Rel) {pid : PlayerId} {mode err : ℤ}
    (hjoin : GameServer.joinQueue m pid mode = some (m', err)) :
    Rel (RedisClient.pushMatchQueue mode pid m.store) m'.store := by
  obtain ⟨s₁, -, hrest⟩ := Option.bind_eq_some_iff.mp hjoin
  obtain ⟨s₂, -, heq⟩ := Option.map_eq_some_iff.mp hrest
  obtain ⟨rfl, -⟩ := Prod.mk.injEq .. ▸ heq
  have hstate := h.setState { m with store := RedisClient.pushMatchQueue mode pid m.store }
    s₁.sessionId .matching
  exact h.trans hstate (h.setMatchMode _ _ _)

theorem leaveQueue (h : Commands Rel) (m : SessionManager σ) (pid : PlayerId) :
    Rel m.store (GameServer.leaveQueue m pid).store := by
  unfold GameServer.leaveQueue
  split
  · exact h.refl m.store
  · exact h.trans (h.setState _ _ _) (h.setMatchMode _ _ _)

end Commands

end SessionManager

end MiniArena
