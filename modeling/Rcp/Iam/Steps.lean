/-
What one statement of the identity service can do.

A token row is inserted or revoked, and what happens to the other tables is left open.
So a row that is locked and was committed before is locked with a revoked version.
-/
import Rcp.Iam.Services
import Rcp.Sql.Growth

namespace Rcp
namespace Iam

open Sql Growth

/-- A step of session `t`. -/
inductive Moves (t : Sid) (s : Db) : Db → Prop
  | stay : Moves t s s
  | tenants (T : Table Tenant) : Moves t s { s with tenants := T }
  | users (T : Table User) : Moves t s { s with users := T }
  | outbox (T : Table (Outbox Message)) : Moves t s { s with outbox := T }
  | issue (token : RefreshToken) : Moves t s { s with tokens := s.tokens.insert t token }
  | revoke (k : Nat) (token : RefreshToken) (now : Time)
      (hread : s.tokens.read t k = some token) :
      Moves t s { s with tokens := s.tokens.write t k (revoke now token) }
  | commit : Moves t s (Transactional.commit t s)

section Programs

theorem only_commit : (commit : Prog Db Error Unit).Only Moves := by
  refine only_stmt fun t s b s' hrun => ?_
  cases hrun
  exact .commit

theorem only_read {β : Type} (f : Sid → Db → β) : (query f : Prog Db Error β).Only Moves :=
  only_query (fun _ _ => .stay) f

theorem only_update {V : Type} {T : Access Db V} {k : Nat} {p : V → Bool} {f : V → V}
    (h : ∀ t s v, (T.get s).read t k = some v →
      Moves t s (T.set s ((T.get s).write t k (f v)))) :
    (updateWhere T k p f : Prog Db Error (Option V)).Only Moves := by
  refine only_stmt fun t s b s' hrun => ?_
  cases b with
  | none =>
      obtain ⟨rfl, -⟩ := runUpdate_none hrun
      exact .stay
  | some v' =>
      obtain ⟨v, hv, -, -, -, rfl⟩ := runUpdate_some hrun
      exact h t s v hv

theorem only_insertUnique {V : Type} {T : Access Db V} {conflict : V → Bool} {row : Sid → V}
    (h : ∀ t s, Moves t s (T.set s ((T.get s).insert t (row t)))) :
    (insertUnique T conflict row : Prog Db Error (Option Nat)).Only Moves := by
  refine only_stmt fun t s b s' hrun => ?_
  cases b with
  | none =>
      rw [runInsertUnique_none hrun]
      exact .stay
  | some n =>
      obtain ⟨-, -, -, rfl⟩ := runInsertUnique_some hrun
      exact h t s

theorem only_revokeEach {p : RefreshToken → Bool} {now : Time} (keys : List Nat) :
    (updateEach Db.tokensT p (revoke now) keys : Prog Db Error Unit).Only Moves := by
  induction keys with
  | nil => trivial
  | cons k rest ih =>
      exact only_bind (only_update fun t s v hv => .revoke k v now hv) fun _ => ih

theorem only_revokeAll {p : RefreshToken → Bool} {now : Time} :
    (updateAll Db.tokensT p (revoke now) : Prog Db Error Unit).Only Moves :=
  only_bind (only_read _) fun _ => only_revokeEach _

theorem only_emit {routingKey : String} {tenantId : Option Uuid} {m : Message} :
    (emit Db.outboxT routingKey tenantId m : Prog Db Error Nat).Only Moves := by
  refine only_stmt fun t s b s' hrun => ?_
  cases hrun
  exact .outbox _

theorem only_loadRoles (userId : Uuid) : (loadRoles userId).Only Moves :=
  only_bind (only_read _) fun _ => trivial

theorem only_getUserById (userId : Uuid) : (getUserById userId).Only Moves := by
  refine only_bind (only_read _) fun found => ?_
  cases found with
  | none => trivial
  | some user => exact only_bind (only_loadRoles userId) fun _ => trivial

theorem only_refreshRow {V : Type} (T : Access Db V) (k : Nat) :
    (refreshRow T k).Only Moves := by
  refine only_bind (only_read _) fun found => ?_
  cases found with
  | none => trivial
  | some v => trivial

/-- The end of most calls. -/
theorem only_finish {V : Type} {T : Access Db V} {k : Nat} {f : V → Reply} :
    (do
      commit
      let row ← refreshRow T k
      return f row : Prog Db Error Reply).Only Moves :=
  only_bind only_commit fun _ => only_bind (only_refreshRow T k) fun _ => trivial

theorem only_flushUser {userId : Uuid} {changed : Bool} {assign : User → User} {clock : Clock} :
    (flushUser userId changed assign clock).Only Moves := by
  unfold flushUser
  split
  · exact only_bind (only_update fun t s v _ => .users _) fun _ => trivial
  · trivial

theorem only_addUser (user : User) (constraint : String) :
    (addUser user constraint).Only Moves := by
  refine only_bind (only_insertUnique fun t s => .users _) fun found => ?_
  cases found with
  | none => trivial
  | some id =>
      refine only_bind (only_refreshRow _ id) fun user => ?_
      refine only_bind (only_loadRoles id) fun roles => ?_
      exact only_bind only_emit fun _ => only_finish

theorem only_issuePair {security : Security} {userId : Uuid} {user : User} {roles : List String}
    {rotatedFrom : Option Uuid} {draw : Draw} {clock : Clock} :
    (issuePair security userId user roles rotatedFrom draw clock).Only Moves := by
  refine only_bind (only_insertUnique fun t s => .issue _) fun found => ?_
  cases found with
  | none => trivial
  | some id => exact only_bind only_commit fun _ => trivial

theorem only_login (security : Security) (data : LoginRequest) (draw : Draw) (clock : Clock) :
    (login security data draw clock).Only Moves := by
  refine only_bind ?_ fun tenant => ?_
  · unfold loginTenant
    split
    · trivial
    · refine only_bind (only_read _) fun rows => ?_
      split
      · trivial
      · split <;> trivial
  · cases tenant with
    | none => trivial
    | some tenantId =>
        refine only_bind ?_ fun found => ?_
        · refine only_bind (only_read _) fun rows => ?_
          split
          · trivial
          · exact only_bind (only_loadRoles _) fun _ => trivial
        · cases found with
          | none => trivial
          | some found =>
              show (if _ then _ else if _ then _ else _ : Prog Db Error Reply).Only Moves
              split
              · trivial
              · split
                · trivial
                · exact only_issuePair

theorem only_refresh (security : Security) (rawToken : String) (draw : Draw) (clock : Clock) :
    (refresh security rawToken draw clock).Only Moves := by
  refine only_bind (only_read _) fun rows => ?_
  split
  · trivial
  · split
    · trivial
    · split
      · exact only_bind only_revokeAll fun _ => only_bind only_commit fun _ => trivial
      · refine only_bind (only_getUserById _) fun found => ?_
        cases found with
        | none => trivial
        | some found =>
            show (if _ then _ else _ : Prog Db Error Reply).Only Moves
            split
            · trivial
            · exact only_bind (only_update fun t s v hv => .revoke _ v clock.now hv)
                fun _ => only_issuePair

theorem only_setUserStatus (userId : Uuid) (status : String) (clock : Clock) :
    (setUserStatus userId status clock).Only Moves := by
  refine only_bind (only_getUserById userId) fun found => ?_
  cases found with
  | none => trivial
  | some found =>
      refine only_bind ?_ fun _ => only_bind only_flushUser fun _ => only_bind ?_ fun _ =>
        only_bind only_emit fun _ => only_finish
      · unfold shutOut
        split
        · exact only_revokeAll
        · trivial
      · unfold emitDeactivated
        split
        · exact only_bind only_emit fun _ => trivial
        · trivial

theorem only_setTenantStatus (tenantId : Uuid) (status : String) (clock : Clock) :
    (setTenantStatus tenantId status clock).Only Moves := by
  refine only_bind (only_read _) fun found => ?_
  cases found with
  | none => trivial
  | some tenant =>
      refine only_bind ?_ fun _ => only_bind ?_ fun _ => only_bind ?_ fun _ =>
        only_bind only_emit fun _ => only_finish
      · unfold suspend
        split
        · exact only_bind (only_read _) fun found => only_revokeEach _
        · trivial
      · unfold flushTenant
        split
        · exact only_bind (only_update fun t s v _ => .tenants _) fun _ => trivial
        · trivial
      · unfold emitSuspended
        split
        · exact only_bind only_emit fun _ => trivial
        · trivial

theorem only_body (env : Env) (a : Call) : (a.body env).Only Moves := by
  cases a with
  | registerGlobalUser data salt clock =>
      show (registerGlobalUser env.security env.nearest data salt clock).Only Moves
      unfold registerGlobalUser
      split
      · refine only_bind ?_ fun _ => only_addUser _ _
        unfold getNearestTenantId
        split
        · exact only_bind (only_read _) fun _ => trivial
        · trivial
      · trivial
  | registerTenantUser tenantId data salt clock =>
      show (registerTenantUser env.security tenantId data salt clock).Only Moves
      unfold registerTenantUser
      split
      · exact only_addUser _ _
      · trivial
  | login data draw clock => exact only_login env.security data draw clock
  | refresh rawToken draw clock => exact only_refresh env.security rawToken draw clock
  | updateUserProfile userId data clock =>
      refine only_bind (only_getUserById userId) fun found => ?_
      cases found with
      | none => trivial
      | some found =>
          exact only_bind only_flushUser fun _ => only_bind only_emit fun _ => only_finish
  | changeUserPassword userId data salt clock =>
      refine only_bind (only_getUserById userId) fun found => ?_
      cases found with
      | none => trivial
      | some found =>
          show (if _ then _ else _ : Prog Db Error Reply).Only Moves
          split
          · trivial
          · exact only_bind only_revokeAll fun _ => only_bind only_flushUser fun _ =>
              only_bind only_commit fun _ => trivial
  | adminResetUserPassword userId newPassword salt clock =>
      refine only_bind (only_getUserById userId) fun found => ?_
      cases found with
      | none => trivial
      | some found =>
          exact only_bind only_revokeAll fun _ => only_bind only_flushUser fun _ => only_finish
  | setUserStatus userId status clock => exact only_setUserStatus userId status clock
  | setTenantStatus tenantId status clock => exact only_setTenantStatus tenantId status clock

end Programs

/-! ## Locked tokens -/

/-- A locked version of a committed token is a revoked one. -/
structure LocksRevoked (s : Db) : Prop where
  bounded : s.tokens.Bounded
  revoked : ∀ k o token, s.tokens.pending k = some (o, token) → s.tokens.committed k ≠ none →
    token.revokedAt ≠ none

/-- What remains locked when session `t` ends its transaction. -/
theorem LocksRevoked.release {s s' : Db} (hs : LocksRevoked s) {t : Sid}
    (hbounded : s'.tokens.Bounded)
    (hpending : s'.tokens.pending = fun k =>
      if s.tokens.lockedFor t k then s.tokens.pending k else none)
    (hcommitted : ∀ k, s.tokens.lockedFor t k = true →
      s'.tokens.committed k = s.tokens.committed k) : LocksRevoked s' := by
  refine ⟨hbounded, fun k o token hk hcommit => ?_⟩
  simp only [hpending] at hk
  split at hk
  · rename_i hlocked
    rw [hcommitted k hlocked] at hcommit
    exact hs.revoked k o token hk hcommit
  · cases hk

theorem Moves.locksRevoked {t : Sid} {s s' : Db} (hs : LocksRevoked s) (h : Moves t s s') :
    LocksRevoked s' := by
  cases h with
  | stay => exact hs
  | tenants T => exact ⟨hs.bounded, hs.revoked⟩
  | users T => exact ⟨hs.bounded, hs.revoked⟩
  | outbox T => exact ⟨hs.bounded, hs.revoked⟩
  | issue token =>
      refine ⟨hs.bounded.insert t token, fun k o x hk hcommit => ?_⟩
      have hk' : Function.update s.tokens.pending s.tokens.next (some (t, token)) k =
          some (o, x) := hk
      by_cases hnext : k = s.tokens.next
      · rw [hnext] at hcommit
        exact absurd (hs.bounded s.tokens.next (Nat.le_refl _)).1 hcommit
      · rw [Function.update_of_ne hnext] at hk'
        exact hs.revoked k o x hk' hcommit
  | revoke j token now hread =>
      refine ⟨hs.bounded.write _ (hs.bounded.lt_of_read hread), fun k o x hk hcommit => ?_⟩
      have hk' : Function.update s.tokens.pending j (some (t, Iam.revoke now token)) k =
          some (o, x) := hk
      by_cases hkj : k = j
      · rw [hkj, Function.update_self] at hk'
        cases hk'
        exact fun hnone => by cases hnone
      · rw [Function.update_of_ne hkj] at hk'
        exact hs.revoked k o x hk' hcommit
  | commit =>
      refine hs.release (t := t) (hs.bounded.commit t) rfl fun k hlocked => ?_
      show s.tokens.read t k = s.tokens.committed k
      refine Table.read_of_not_written ?_
      cases hw : s.tokens.writes t k with
      | none => rfl
      | some v => simp [Table.lockedFor, Table.writes_eq_some.mp hw] at hlocked

def locks : Growth Db where
  Inv := LocksRevoked
  Le _ _ := True
  refl _ := trivial
  trans _ _ _ _ _ := trivial
  rollback t s hs := ⟨hs.release (t := t) (hs.bounded.rollback t) rfl fun _ _ => rfl, trivial⟩

/-- In every state a service can reach, locked tokens are revoked. -/
theorem run_locksRevoked (env : Env) {s : Db} (hs : LocksRevoked s)
    {c : Config Db Error Reply Call} (h : Run (Call.body env) (Config.start s) c) :
    LocksRevoked c.store := by
  have hverified : (locks.discipline (ε := Error) (fun (_ : Call) (_ : Reply) _ => True)
      fun _ _ _ _ _ _ => trivial).Verified (fun _ _ _ _ => True) (Call.body env) :=
    Growth.verified fun a _ hs _ =>
      takes_only (only_body env a) (fun _ _ _ hs hm => ⟨hm.locksRevoked hs, trivial⟩) hs
  exact (Run.sound hverified (Config.start_sound hs fun _ => trivial) h).inv

end Iam
end Rcp
