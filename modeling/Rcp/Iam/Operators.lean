/-
The operators of the platform (`create_super_admin` of `services/iam/app/services/admin.py`,
the gate and the status route of `app/api`, and `scripts/bootstrap_superadmin.py`).

The console is open to whoever has the role `super_admin` in the token.  The route refuses to
disable the caller's own account and leaves the rest to `set_user_status`.  The HTTP
exceptions of the routes are value errors here.
-/
import Rcp.Iam.Replication
import Rcp.Iam.Services
import Rcp.Sql.Growth

namespace Rcp
namespace Iam

open Sql Growth

/-- The caller, as `current_principal` reads it from the token. -/
structure Principal where
  userId : Uuid
  tenantId : Option Uuid
  userType : Option String
  roles : List String

def Claims.principal (claims : Claims) : Principal :=
  { userId := claims.sub
    tenantId := claims.tenantId
    userType := some claims.userType
    roles := claims.roles }

/-- `SuperAdminCreate` after validation. -/
structure SuperAdminCreate where
  email : String
  password : String
  fullName : String
  phone : Option String := none

/-- `UserStatusUpdate` after validation. -/
structure UserStatusUpdate where
  status : String
  pattern : status = "active" ∨ status = "disabled"

theorem superAdmin_not_tenant : UserType.superAdmin ∉ tenantUserTypes := by
  simp [tenantUserTypes]

theorem superAdmin_tenancy :
    UserType.superAdmin ∈ tenantUserTypes ↔ (none : Option Uuid).isSome = true :=
  iff_of_false superAdmin_not_tenant Bool.false_ne_true

/-- The row of a new operator. -/
def newSuperAdmin (security : Security) (data : SuperAdminCreate) (salt : String)
    (clock : Clock) : User :=
  { tenantId := none
    userType := .superAdmin
    email := data.email
    passwordHash := security.hashPassword salt data.password
    fullName := data.fullName
    phone := data.phone
    updatedAt := clock.transaction
    tenancy := superAdmin_tenancy }

/-- `SELECT ... WHERE tenant_id IS NULL AND email = ...`. -/
def globalUser (email : String) : Prog Db Error (Option (Uuid × User)) := do
  let rows ← select Db.usersT fun _ user => user.tenantId == none && user.email == email
  return rows.head?

def createSuperAdmin (security : Security) (data : SuperAdminCreate) (salt : String)
    (clock : Clock) : Prog Db Error Reply := do
  match ← globalUser data.email with
  | some _ => return .user none
  | none => addUser (newSuperAdmin security data salt clock) "uq_users_global_email"

/-- `require_super_admin`. -/
def requireSuperAdmin (principal : Principal) : Prog Db Error Unit :=
  if "super_admin" ∉ principal.roles then .raise (.valueError "Super admin access required")
  else return ()

/-- The route `update_user_status`. -/
def updateUserStatus (principal : Principal) (userId : Uuid) (data : UserStatusUpdate)
    (clock : Clock) : Prog Db Error Reply := do
  requireSuperAdmin principal
  if userId = principal.userId ∧ data.status = "disabled" then
    .raise (.valueError "You cannot disable your own account")
  else setUserStatus userId data.status clock

/-- `main` of the script on its arguments, and its exit code.  `usable` is the check of
`EmailStr`.  The commit announces nothing. -/
def bootstrapSuperadmin (security : Security) (usable : String → Bool)
    (email password name salt : String) (clock : Clock) : Prog Db Error Nat :=
  if email = "" ∨ usable email = false ∨ password.length < 10 then return 2
  else do
    match ← globalUser email with
    | some (_, existing) => if existing.userType = .superAdmin then return 0 else return 1
    | none => do
        let data : SuperAdminCreate := { email := email, password := password, fullName := name }
        match ← insertUnique Db.usersT
            (fun other => other.tenantId == none && other.email == email)
            (fun _ => newSuperAdmin security data salt clock) with
        | none => .raise (.integrityError "uq_users_global_email")
        | some id => do
            commit
            let _ ← refreshRow Db.usersT id
            return 0

/-! ## Actions -/

/-- A call of the service, or a run of the script. -/
inductive Action
  | call (a : Call)
  | createSuperAdmin (principal : Principal) (data : SuperAdminCreate) (salt : String)
      (clock : Clock)
  | updateUserStatus (principal : Principal) (userId : Uuid) (data : UserStatusUpdate)
      (clock : Clock)
  | bootstrapSuperadmin (usable : String → Bool) (email password name salt : String)
      (clock : Clock)

def Action.body (env : Env) : Action → Prog Db Error Unit
  | call a => do
      let _ ← a.body env
      return ()
  | createSuperAdmin principal data salt clock => do
      requireSuperAdmin principal
      let _ ← Iam.createSuperAdmin env.security data salt clock
      return ()
  | updateUserStatus principal userId data clock => do
      let _ ← Iam.updateUserStatus principal userId data clock
      return ()
  | bootstrapSuperadmin usable email password name salt clock => do
      let _ ← Iam.bootstrapSuperadmin env.security usable email password name salt clock
      return ()

/-- The user whose status the action sets, and what to. -/
def Action.sets? : Action → Option (Uuid × String)
  | call (.setUserStatus userId status _) => some (userId, status)
  | updateUserStatus principal userId data _ =>
      if userId = principal.userId ∧ data.status = "disabled" then none
      else some (userId, data.status)
  | _ => none

/-! ## Statements -/

/-- What one statement can do if the session sets the status `sets?`. -/
inductive Does (sets? : Option (Uuid × String)) (t : Sid) (s : Db) : Db → Prop
  | stay : Does sets? t s s
  | tenants (T : Table Tenant) : Does sets? t s { s with tenants := T }
  | tokens (T : Table RefreshToken) : Does sets? t s { s with tokens := T }
  | enrol (user : User) : Does sets? t s { s with users := s.users.insert t user }
  /-- A user's type stays, and the status too unless it is set. -/
  | rewrite (k : Nat) (user changed : User) (hread : s.users.read t k = some user)
      (hfree : s.users.lockedFor t k = false) (htype : changed.userType = user.userType)
      (hstatus : changed.status = user.status ∨ sets? = some (k, changed.status)) :
      Does sets? t s { s with users := s.users.write t k changed }
  | emit (routingKey : String) (tenantId : Option Uuid) (data : Message)
      (hfits : data.FitsType routingKey) :
      Does sets? t s
        { s with outbox := s.outbox.insert t (outboxRow routingKey tenantId data s.outbox.next) }
  | commit : Does sets? t s (Transactional.commit t s)

namespace Does

section Programs

variable {sets? : Option (Uuid × String)}

theorem only_commit : (Sql.commit : Prog Db Error Unit).Only (Does sets?) := by
  refine only_stmt fun t s b s' hrun => ?_
  cases hrun
  exact .commit

theorem only_read {β : Type} (f : Sid → Db → β) :
    (query f : Prog Db Error β).Only (Does sets?) := only_query (fun _ _ => .stay) f

theorem only_emit {routingKey : String} {tenantId : Option Uuid} {m : Message}
    (h : m.FitsType routingKey) :
    (Rcp.emit Db.outboxT routingKey tenantId m : Prog Db Error Nat).Only (Does sets?) := by
  refine only_stmt fun t s b s' hrun => ?_
  cases hrun
  exact .emit routingKey tenantId m h

theorem only_insertUser {conflict : User → Bool} {row : Sid → User} :
    (insertUnique Db.usersT conflict row : Prog Db Error (Option Nat)).Only (Does sets?) := by
  refine only_stmt fun t s b s' hrun => ?_
  cases b with
  | none =>
      rw [runInsertUnique_none hrun]
      exact .stay
  | some n =>
      obtain ⟨-, -, -, rfl⟩ := runInsertUnique_some hrun
      exact .enrol (row t)

theorem only_insertToken {conflict : RefreshToken → Bool} {row : Sid → RefreshToken} :
    (insertUnique Db.tokensT conflict row : Prog Db Error (Option Nat)).Only (Does sets?) := by
  refine only_stmt fun t s b s' hrun => ?_
  cases b with
  | none =>
      rw [runInsertUnique_none hrun]
      exact .stay
  | some n =>
      obtain ⟨-, -, -, rfl⟩ := runInsertUnique_some hrun
      exact .tokens _

theorem only_updateToken {k : Nat} {p : RefreshToken → Bool} {f : RefreshToken → RefreshToken} :
    (updateWhere Db.tokensT k p f : Prog Db Error (Option RefreshToken)).Only (Does sets?) := by
  refine only_stmt fun t s b s' hrun => ?_
  cases b with
  | none =>
      obtain ⟨rfl, -⟩ := runUpdate_none hrun
      exact .stay
  | some v' =>
      obtain ⟨v, -, -, -, -, rfl⟩ := runUpdate_some hrun
      exact .tokens _

theorem only_updateTokens {p : RefreshToken → Bool} {f : RefreshToken → RefreshToken}
    (keys : List Nat) :
    (updateEach Db.tokensT p f keys : Prog Db Error Unit).Only (Does sets?) := by
  induction keys with
  | nil => trivial
  | cons k rest ih => exact only_bind only_updateToken fun _ => ih

theorem only_revokeAll {p : RefreshToken → Bool} {f : RefreshToken → RefreshToken} :
    (updateAll Db.tokensT p f : Prog Db Error Unit).Only (Does sets?) :=
  only_bind (only_read _) fun _ => only_updateTokens _

theorem only_loadRoles (userId : Uuid) : (loadRoles userId).Only (Does sets?) :=
  only_bind (only_read _) fun _ => trivial

theorem only_getUserById (userId : Uuid) : (getUserById userId).Only (Does sets?) := by
  refine only_bind (only_read _) fun found => ?_
  cases found with
  | none => trivial
  | some user => exact only_bind (only_loadRoles userId) fun _ => trivial

theorem only_refreshRow {V : Type} (T : Access Db V) (k : Nat) :
    (refreshRow T k).Only (Does sets?) := by
  refine only_bind (only_read _) fun found => ?_
  cases found with
  | none => trivial
  | some v => trivial

/-- The end of most calls. -/
theorem only_finish {V β : Type} {T : Access Db V} {k : Nat} {f : V → β} :
    (do
      Sql.commit
      let row ← refreshRow T k
      return f row : Prog Db Error β).Only (Does sets?) :=
  only_bind only_commit fun _ => only_bind (only_refreshRow T k) fun _ => trivial

theorem only_flushUser {userId : Uuid} {changed : Bool} {assign : User → User} {clock : Clock}
    (htype : ∀ user, (assign user).userType = user.userType)
    (hstatus : ∀ user, (assign user).status = user.status ∨
      sets? = some (userId, (assign user).status)) :
    (flushUser userId changed assign clock).Only (Does sets?) := by
  unfold flushUser
  split
  · refine only_bind (only_stmt fun t s b s' hrun => ?_) fun _ => trivial
    cases b with
    | none =>
        obtain ⟨rfl, -⟩ := runUpdate_none hrun
        exact .stay
    | some v' =>
        obtain ⟨user, hread, -, hfree, -, rfl⟩ := runUpdate_some hrun
        exact .rewrite userId user _ hread hfree (htype user) (hstatus user)
  · trivial

theorem only_addUser (user : User) (constraint : String) :
    (addUser user constraint).Only (Does sets?) := by
  refine only_bind only_insertUser fun found => ?_
  cases found with
  | none => trivial
  | some id =>
      refine only_bind (only_refreshRow _ id) fun user => ?_
      refine only_bind (only_loadRoles id) fun roles => ?_
      exact only_bind (only_emit (.head _)) fun _ => only_finish

theorem only_issuePair {security : Security} {userId : Uuid} {user : User} {roles : List String}
    {rotatedFrom : Option Uuid} {draw : Draw} {clock : Clock} :
    (issuePair security userId user roles rotatedFrom draw clock).Only (Does sets?) := by
  refine only_bind only_insertToken fun found => ?_
  cases found with
  | none => trivial
  | some id => exact only_bind only_commit fun _ => trivial

theorem only_login (security : Security) (data : LoginRequest) (draw : Draw) (clock : Clock) :
    (login security data draw clock).Only (Does sets?) := by
  refine only_bind ?_ fun tenant => ?_
  · unfold loginTenant
    split
    · trivial
    · refine only_bind (only_read _) fun rows => ?_
      split
      · trivial
      · split <;> trivial
  · cases tenant with
    | none => trivial
    | some tenantId =>
        refine only_bind ?_ fun found => ?_
        · refine only_bind (only_read _) fun rows => ?_
          split
          · trivial
          · exact only_bind (only_loadRoles _) fun _ => trivial
        · cases found with
          | none => trivial
          | some found =>
              show (if _ then _ else if _ then _ else _ : Prog Db Error Reply).Only (Does sets?)
              split
              · trivial
              · split
                · trivial
                · exact only_issuePair

theorem only_refresh (security : Security) (rawToken : String) (draw : Draw) (clock : Clock) :
    (refresh security rawToken draw clock).Only (Does sets?) := by
  refine only_bind (only_read _) fun rows => ?_
  split
  · trivial
  · split
    · trivial
    · split
      · exact only_bind only_revokeAll fun _ => only_bind only_commit fun _ => trivial
      · refine only_bind (only_getUserById _) fun found => ?_
        cases found with
        | none => trivial
        | some found =>
            show (if _ then _ else _ : Prog Db Error Reply).Only (Does sets?)
            split
            · trivial
            · exact only_bind only_updateToken fun _ => only_issuePair

theorem only_setUserStatus (userId : Uuid) (status : String) (clock : Clock) :
    (setUserStatus userId status clock).Only (Does (some (userId, status))) := by
  refine only_bind (only_getUserById userId) fun found => ?_
  cases found with
  | none => trivial
  | some found =>
      refine only_bind ?_ fun _ => only_bind (only_flushUser (fun _ => rfl) fun _ => .inr rfl)
        fun _ => only_bind ?_ fun _ => only_bind (only_emit (.tail _ (.head _))) fun _ =>
          only_finish
      · unfold shutOut
        split
        · exact only_revokeAll
        · trivial
      · unfold emitDeactivated
        split
        · exact only_bind (only_emit rfl) fun _ => trivial
        · trivial

theorem only_setTenantStatus (tenantId : Uuid) (status : String) (clock : Clock) :
    (setTenantStatus tenantId status clock).Only (Does sets?) := by
  refine only_bind (only_read _) fun found => ?_
  cases found with
  | none => trivial
  | some tenant =>
      refine only_bind ?_ fun _ => only_bind ?_ fun _ => only_bind ?_ fun _ =>
        only_bind (only_emit rfl) fun _ => only_finish
      · unfold suspend
        split
        · exact only_bind (only_read _) fun found => only_updateTokens _
        · trivial
      · unfold flushTenant
        split
        · refine only_bind (only_stmt fun t s b s' hrun => ?_) fun _ => trivial
          cases b with
          | none =>
              obtain ⟨rfl, -⟩ := runUpdate_none hrun
              exact .stay
          | some v' =>
              obtain ⟨v, -, -, -, -, rfl⟩ := runUpdate_some hrun
              exact .tenants _
        · trivial
      · unfold emitSuspended
        split
        · exact only_bind (only_emit rfl) fun _ => trivial
        · trivial

theorem only_call (env : Env) (a : Call) :
    (a.body env).Only (Does (Action.sets? (.call a))) := by
  cases a with
  | registerGlobalUser data salt clock =>
      show (registerGlobalUser env.security env.nearest data salt clock).Only _
      unfold registerGlobalUser
      split
      · refine only_bind ?_ fun _ => only_addUser _ _
        unfold getNearestTenantId
        split
        · exact only_bind (only_read _) fun _ => trivial
        · trivial
      · trivial
  | registerTenantUser tenantId data salt clock =>
      show (registerTenantUser env.security tenantId data salt clock).Only _
      unfold registerTenantUser
      split
      · exact only_addUser _ _
      · trivial
  | login data draw clock => exact only_login env.security data draw clock
  | refresh rawToken draw clock => exact only_refresh env.security rawToken draw clock
  | updateUserProfile userId data clock =>
      refine only_bind (only_getUserById userId) fun found => ?_
      cases found with
      | none => trivial
      | some found =>
          exact only_bind (only_flushUser (fun _ => rfl) fun _ => .inl rfl) fun _ =>
            only_bind (only_emit (.tail _ (.head _))) fun _ => only_finish
  | changeUserPassword userId data salt clock =>
      refine only_bind (only_getUserById userId) fun found => ?_
      cases found with
      | none => trivial
      | some found =>
          show (if _ then _ else _ : Prog Db Error Reply).Only _
          split
          · trivial
          · exact only_bind only_revokeAll fun _ =>
              only_bind (only_flushUser (fun _ => rfl) fun _ => .inl rfl) fun _ =>
              only_bind only_commit fun _ => trivial
  | adminResetUserPassword userId newPassword salt clock =>
      refine only_bind (only_getUserById userId) fun found => ?_
      cases found with
      | none => trivial
      | some found =>
          exact only_bind only_revokeAll fun _ =>
            only_bind (only_flushUser (fun _ => rfl) fun _ => .inl rfl) fun _ => only_finish
  | setUserStatus userId status clock => exact only_setUserStatus userId status clock
  | setTenantStatus tenantId status clock => exact only_setTenantStatus tenantId status clock

theorem only_globalUser (email : String) : (globalUser email).Only (Does sets?) :=
  only_bind (only_read _) fun _ => trivial

theorem only_requireSuperAdmin (principal : Principal) :
    (requireSuperAdmin principal).Only (Does sets?) := by
  unfold requireSuperAdmin
  split <;> trivial

theorem only_body (env : Env) (a : Action) : (a.body env).Only (Does a.sets?) := by
  cases a with
  | call a => exact only_bind (only_call env a) fun _ => trivial
  | createSuperAdmin principal data salt clock =>
      refine only_bind (only_requireSuperAdmin principal) fun _ =>
        only_bind (only_bind (only_globalUser data.email) fun found => ?_) fun _ => trivial
      cases found with
      | none => exact only_addUser _ _
      | some found => trivial
  | updateUserStatus principal userId data clock =>
      refine only_bind (only_bind (only_requireSuperAdmin principal) fun _ => ?_) fun _ => trivial
      by_cases hself : userId = principal.userId ∧ data.status = "disabled"
      · rw [if_pos hself]
        trivial
      · rw [if_neg hself, Action.sets?, if_neg hself]
        exact only_setUserStatus userId data.status clock
  | bootstrapSuperadmin usable email password name salt clock =>
      refine only_bind ?_ fun _ => trivial
      unfold Iam.bootstrapSuperadmin
      split
      · trivial
      · refine only_bind (only_globalUser email) fun found => ?_
        cases found with
        | some found =>
            show (if _ then _ else _ : Prog Db Error Nat).Only _
            split <;> trivial
        | none =>
            refine only_bind only_insertUser fun id => ?_
            cases id with
            | none => trivial
            | some id => exact only_finish

end Programs

end Does

end Iam
end Rcp
