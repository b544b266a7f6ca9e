/-
The identity services (`services/iam/app/services/auth.py` and `admin.py`) as
transaction programs.

The session has `autoflush=False`, so a changed object is written when the call
commits, by an UPDATE of the changed columns that also sets `updated_at` to `now()`.
`db.query(...).update` runs at once.  Loading a user loads its role assignments with
a second select.  No row is locked when it is read.
-/
import Rcp.Iam.Model

namespace Rcp
namespace Iam

open Sql

/-- The hash functions of `app/core/security.py`.  `hashPassword` draws a salt. -/
structure Security where
  sha256 : String → String
  hashPassword : (salt password : String) → String
  verifyPassword : (password hashed : String) → Bool

inductive Error
  | valueError (text : String)
  | integrityError (constraint : String)
  | noResult

inductive Reply
  | pair (issued : Option TokenPair)
  | changed (found : Bool)
  | user (found : Option (Uuid × User))
  | tenant (found : Option (Uuid × Tenant))

/-- `db.refresh`. -/
def refreshRow {V : Type} (T : Access Db V) (k : Nat) : Prog Db Error V := do
  match ← selectKey T k with
  | none => .raise .noResult
  | some v => return v

/-- `selectinload(User.role_assignments)`. -/
def loadRoles (userId : Uuid) : Prog Db Error (List RoleAssignment) := do
  let rows ← select Db.roleAssignmentsT fun _ assignment => assignment.userId == userId
  return rows.map Prod.snd

/-- `get_user_by_id`. -/
def getUserById (userId : Uuid) : Prog Db Error (Option (User × List String)) := do
  match ← selectKey Db.usersT userId with
  | none => return none
  | some user => do
      let assignments ← loadRoles userId
      return some (user, user.roles assignments)

/-! ## Registration -/

def userRegisteredPayload (id : Uuid) (user : User) (roles : List String) : Message :=
  .user
    { userId := id
      tenantId := user.tenantId
      userType := user.userType
      email := user.email
      fullName := user.fullName
      phone := user.phone
      roles := roles
      isActive := user.isActive
      updatedAt := user.updatedAt }

/-- The common end of both registrations: the INSERT, `db.refresh`, the event and the
commit. -/
def addUser (user : User) (constraint : String) : Prog Db Error Reply := do
  match ← insertUnique Db.usersT
      (fun other => other.tenantId == user.tenantId && other.email == user.email)
      (fun _ => user) with
  | none => .raise (.integrityError constraint)
  | some id => do
      let user ← refreshRow Db.usersT id
      let assignments ← loadRoles id
      let _ ← emit Db.outboxT "iam.user.registered" user.tenantId
        (userRegisteredPayload id user (user.roles assignments))
      commit
      let user ← refreshRow Db.usersT id
      return .user (some (id, user))

theorem not_tenant_of_global {userType : UserType} (h : userType ∈ globalUserTypes) :
    userType ∉ tenantUserTypes := by
  cases userType <;> revert h <;> decide

/-- `register_tenant_user`, `tenantId` being the tenant the route has found. -/
def registerTenantUser (security : Security) (tenantId : Uuid) (data : TenantUserRegister)
    (salt : String) (clock : Clock) : Prog Db Error Reply :=
  if h : data.userType ∈ tenantUserTypes then
    addUser
      { tenantId := some tenantId
        userType := data.userType
        email := data.email
        passwordHash := security.hashPassword salt data.password
        fullName := data.fullName
        phone := data.phone
        updatedAt := clock.transaction
        tenancy := iff_of_true h rfl }
      "uq_users_tenant_email"
  else
    .raise (.valueError
      ("UserType." ++ data.userType.value ++ " cannot be registered under a tenant"))

/-- The rows of `get_nearest_tenant_id`. -/
def locatedTenants : Prog Db Error (List (Uuid × Tenant)) :=
  select Db.tenantsT fun _ tenant => tenant.status == "active" && tenant.latitude.isSome

/-- `get_nearest_tenant_id`, if the user has a location.  The search among the located
tenants computes great-circle distances in floating point and is taken as `nearest`. -/
def getNearestTenantId (nearest : List (Uuid × Tenant) → PyFloat → PyFloat → Option Uuid)
    (data : GlobalUserRegister) : Prog Db Error (Option Uuid) :=
  match data.latitude, data.longitude with
  | some latitude, some longitude => do
      let tenants ← locatedTenants
      return nearest tenants latitude longitude
  | _, _ => return none

def registerGlobalUser (security : Security)
    (nearest : List (Uuid × Tenant) → PyFloat → PyFloat → Option Uuid)
    (data : GlobalUserRegister) (salt : String) (clock : Clock) : Prog Db Error Reply :=
  if h : data.userType ∈ globalUserTypes then do
    let nearestTenantId ← getNearestTenantId nearest data
    addUser
      { tenantId := none
        userType := data.userType
        email := data.email
        passwordHash := security.hashPassword salt data.password
        fullName := data.fullName
        phone := data.phone
        latitude := data.latitude
        longitude := data.longitude
        assignedTenantId := nearestTenantId
        updatedAt := clock.transaction
        tenancy := iff_of_false (not_tenant_of_global h) Bool.false_ne_true }
      "uq_users_global_email"
  else
    .raise (.valueError
      ("UserType." ++ data.userType.value ++ " must be registered under a tenant"))

/-! ## Tokens -/

def accessTokenTtl : Time := 15 * 60 * 1000000

def refreshTokenTtl : Time := 14 * 24 * 60 * 60 * 1000000

def createAccessToken (userId : Uuid) (user : User) (roles : List String) (draw : Draw)
    (now : Time) : Claims :=
  { sub := userId
    userType := user.userType.value
    roles := roles
    iat := now
    exp := now + accessTokenTtl
    jti := draw.jti
    tenantId := user.assignedTenantId.or user.tenantId }

/-- `_issue_pair`. -/
def issuePair (security : Security) (userId : Uuid) (user : User) (roles : List String)
    (rotatedFrom : Option Uuid) (draw : Draw) (clock : Clock) : Prog Db Error Reply := do
  let tokenHash := security.sha256 draw.refreshToken
  match ← insertUnique Db.tokensT (fun token => token.tokenHash == tokenHash) (fun t =>
      { userId := userId
        tokenHash := tokenHash
        expiresAt := clock.later + refreshTokenTtl
        rotatedFrom := rotatedFrom
        insertedBy := t }) with
  | none => .raise (.integrityError "token_hash")
  | some _ => do
      commit
      return .pair (some
        { accessToken := createAccessToken userId user roles draw clock.later
          refreshToken := draw.refreshToken
          expiresIn := 15 * 60 })

/-- The user of `login`, in the tenant or in the global pool. -/
def loginUser (tenantId : Option Uuid) (email : String) :
    Prog Db Error (Option (Uuid × User × List String)) := do
  match (← select Db.usersT fun _ user =>
      user.tenantId == tenantId && user.email == email).head? with
  | none => return none
  | some (id, user) => do
      let assignments ← loadRoles id
      return some (id, user, user.roles assignments)

/-- The tenant of `login`: none at all for the global pool, and nothing if the slug is
unknown. -/
def loginTenant (tenantSlug : Option String) : Prog Db Error (Option (Option Uuid)) :=
  match tenantSlug with
  | none => return some none
  | some slug => do
      match (← select Db.tenantsT fun _ tenant => tenant.slug == slug).head? with
      | none => return none
      | some (id, tenant) =>
          if tenant.status ≠ "active" then .raise (.valueError "TENANT_SUSPENDED")
          else return some (some id)

def login (security : Security) (data : LoginRequest) (draw : Draw) (clock : Clock) :
    Prog Db Error Reply := do
  match ← loginTenant data.tenantSlug with
  | none => return .pair none
  | some tenantId => do
      match ← loginUser tenantId data.email with
      | none => return .pair none
      | some (id, user, roles) =>
          if security.verifyPassword data.password user.passwordHash = false then
            return .pair none
          else if user.isActive = false then .raise (.valueError "USER_DISABLED")
          else issuePair security id user roles none draw clock

/-- `revoked_at = now`. -/
def revoke (now : Time) (token : RefreshToken) : RefreshToken :=
  { token with revokedAt := some now }

/-- `UPDATE refresh_tokens SET revoked_at WHERE user_id AND revoked_at IS NULL`. -/
def revokeTokens (userId : Uuid) (now : Time) : Prog Db Error Unit :=
  updateAll Db.tokensT (fun token => token.userId == userId && token.revokedAt.isNone)
    (revoke now)

def refresh (security : Security) (rawToken : String) (draw : Draw) (clock : Clock) :
    Prog Db Error Reply := do
  let tokenHash := security.sha256 rawToken
  match (← select Db.tokensT fun _ token => token.tokenHash == tokenHash).head? with
  | none => return .pair none
  | some (id, record) =>
      if record.expiresAt < clock.now then return .pair none
      else if record.revokedAt.isSome then do
        -- reuse of a rotated token
        updateAll Db.tokensT (fun token => token.userId == record.userId) (revoke clock.now)
        commit
        return .pair none
      else do
        match ← getUserById record.userId with
        | none => return .pair none
        | some (user, roles) =>
            if user.isActive = false then return .pair none
            else do
              -- the flush of `record.revoked_at`, which the commit of `_issue_pair` makes
              let _ ← update Db.tokensT id (revoke clock.now)
              issuePair security record.userId user roles (some id) draw clock

/-! ## Changes of a user -/

/-- The flush of a user's changed columns. -/
def flushUser (userId : Uuid) (changed : Bool) (assign : User → User) (clock : Clock) :
    Prog Db Error Unit :=
  if changed then do
    let _ ← update Db.usersT userId fun user =>
      { assign user with
        updatedAt := clock.transaction }
    return ()
  else return ()

/-- The assignments of `update_user_profile`. -/
def ProfileUpdate.apply (data : ProfileUpdate) (user : User) : User :=
  { user with
    fullName := data.fullName.getD user.fullName
    phone := data.phone.or user.phone }

/-- A column of the loaded row gets another value. -/
def ProfileUpdate.changes (data : ProfileUpdate) (user : User) : Bool :=
  (data.apply user).fullName ≠ user.fullName || (data.apply user).phone ≠ user.phone

def updateUserProfile (userId : Uuid) (data : ProfileUpdate) (clock : Clock) :
    Prog Db Error Reply := do
  match ← getUserById userId with
  | none => return .user none
  | some (user, roles) => do
      flushUser userId (data.changes user) data.apply clock
      let _ ← emit Db.outboxT "iam.user.updated" user.tenantId
        (userRegisteredPayload userId (data.apply user) roles)
      commit
      let user ← refreshRow Db.usersT userId
      return .user (some (userId, user))

def setPassword (hashed : String) (user : User) : User := { user with passwordHash := hashed }

def changeUserPassword (security : Security) (userId : Uuid) (data : PasswordChange)
    (salt : String) (clock : Clock) : Prog Db Error Reply := do
  match ← getUserById userId with
  | none => return .changed false
  | some (user, _) =>
      if security.verifyPassword data.currentPassword user.passwordHash = false then
        .raise (.valueError "INVALID_CURRENT_PASSWORD")
      else do
        let hashed := security.hashPassword salt data.newPassword
        revokeTokens userId clock.now
        flushUser userId (user.passwordHash ≠ hashed) (setPassword hashed) clock
        commit
        return .changed true

def adminResetUserPassword (security : Security) (userId : Uuid) (newPassword salt : String)
    (clock : Clock) : Prog Db Error Reply := do
  match ← getUserById userId with
  | none => return .user none
  | some (user, _) => do
      let hashed := security.hashPassword salt newPassword
      revokeTokens userId clock.now
      flushUser userId (user.passwordHash ≠ hashed) (setPassword hashed) clock
      commit
      let user ← refreshRow Db.usersT userId
      return .user (some (userId, user))

def setStatus (status : String) (user : User) : User := { user with status := status }

/-- The data of the `iam.user.updated` event of `set_user_status`. -/
def statusPayload (userId : Uuid) (user : User) (roles : List String) (now : Time) : Message :=
  .user
    { userId := userId
      tenantId := user.tenantId
      userType := user.userType
      email := user.email
      fullName := user.fullName
      phone := user.phone
      roles := roles
      isActive := user.isActive
      updatedAt := now
      status := some user.status }

def deactivates (status : String) : Bool := status == "disabled" || status == "banned"

/-- The part of `set_user_status` for a user that is shut out. -/
def shutOut (userId : Uuid) (status : String) (now : Time) : Prog Db Error Unit :=
  if deactivates status then revokeTokens userId now else return ()

def emitDeactivated (userId : Uuid) (user : User) (status : String) (now : Time) :
    Prog Db Error Unit :=
  if deactivates status then do
    let _ ← emit Db.outboxT "iam.user.deactivated" user.tenantId
      (.userDeactivated userId user.tenantId status now)
    return ()
  else return ()

def setUserStatus (userId : Uuid) (status : String) (clock : Clock) : Prog Db Error Reply := do
  match ← getUserById userId with
  | none => return .user none
  | some (user, roles) => do
      shutOut userId status clock.now
      -- the flush of the commit
      flushUser userId (user.status ≠ status) (setStatus status) clock
      emitDeactivated userId user status clock.now
      let _ ← emit Db.outboxT "iam.user.updated" user.tenantId
        (statusPayload userId (setStatus status user) roles clock.later)
      commit
      let user ← refreshRow Db.usersT userId
      return .user (some (userId, user))

/-! ## Changes of a tenant -/

/-- The status of a tenant whose users are shut out. -/
def suspends (status : String) : Bool :=
  status == "suspended" || status == "disabled" || status == "inactive"

/-- `UPDATE refresh_tokens SET revoked_at WHERE user_id IN (SELECT ...)`, whose rows are
found in one snapshot. -/
def revokeTenantTokens (tenantId : Uuid) (now : Time) : Prog Db Error Unit := do
  let found ← query fun t s =>
    let ids := ((s.users.scan t).filter fun row => row.2.tenantId == some tenantId).map Prod.fst
    let rows := (s.tokens.scan t).filter fun row => ids.contains row.2.userId &&
      row.2.revokedAt.isNone
    (ids, rows.map Prod.fst)
  updateEach Db.tokensT (fun token => found.1.contains token.userId && token.revokedAt.isNone)
    (revoke now) found.2

/-- The part of `set_tenant_status` for a tenant that is suspended. -/
def suspend (tenantId : Uuid) (status : String) (now : Time) : Prog Db Error Unit :=
  if suspends status then revokeTenantTokens tenantId now else return ()

def emitSuspended (tenantId : Uuid) (status : String) (now : Time) : Prog Db Error Unit :=
  if suspends status then do
    let _ ← emit Db.outboxT "iam.tenant.deactivated" (some tenantId)
      (.tenantDeactivated tenantId status now)
    return ()
  else return ()

def flushTenant (tenantId : Uuid) (loaded status : String) : Prog Db Error Unit :=
  if loaded ≠ status then do
    let _ ← update Db.tenantsT tenantId fun tenant => { tenant with status := status }
    return ()
  else return ()

def setTenantStatus (tenantId : Uuid) (status : String) (clock : Clock) :
    Prog Db Error Reply := do
  match ← selectKey Db.tenantsT tenantId with
  | none => return .tenant none
  | some tenant => do
      suspend tenantId status clock.now
      -- the flush of the commit
      flushTenant tenantId tenant.status status
      emitSuspended tenantId status clock.now
      let _ ← emit Db.outboxT "iam.tenant.status_changed" (some tenantId)
        (.tenantStatusChanged tenantId status)
      commit
      let tenant ← refreshRow Db.tenantsT tenantId
      return .tenant (some (tenantId, tenant))

/-! ## Calls -/

inductive Call
  | registerGlobalUser (data : GlobalUserRegister) (salt : String) (clock : Clock)
  | registerTenantUser (tenantId : Uuid) (data : TenantUserRegister) (salt : String)
      (clock : Clock)
  | login (data : LoginRequest) (draw : Draw) (clock : Clock)
  | refresh (rawToken : String) (draw : Draw) (clock : Clock)
  | updateUserProfile (userId : Uuid) (data : ProfileUpdate) (clock : Clock)
  | changeUserPassword (userId : Uuid) (data : PasswordChange) (salt : String) (clock : Clock)
  | adminResetUserPassword (userId : Uuid) (newPassword salt : String) (clock : Clock)
  | setUserStatus (userId : Uuid) (status : String) (clock : Clock)
  | setTenantStatus (tenantId : Uuid) (status : String) (clock : Clock)

/-- What the services use from outside: the hash functions and the search for the nearest
tenant. -/
structure Env where
  security : Security
  nearest : List (Uuid × Tenant) → PyFloat → PyFloat → Option Uuid

def Call.body (env : Env) : Call → Prog Db Error Reply
  | registerGlobalUser data salt clock =>
      Iam.registerGlobalUser env.security env.nearest data salt clock
  | registerTenantUser tenantId data salt clock =>
      Iam.registerTenantUser env.security tenantId data salt clock
  | login data draw clock => Iam.login env.security data draw clock
  | refresh rawToken draw clock => Iam.refresh env.security rawToken draw clock
  | updateUserProfile userId data clock => Iam.updateUserProfile userId data clock
  | changeUserPassword userId data salt clock =>
      Iam.changeUserPassword env.security userId data salt clock
  | adminResetUserPassword userId newPassword salt clock =>
      Iam.adminResetUserPassword env.security userId newPassword salt clock
  | setUserStatus userId status clock => Iam.setUserStatus userId status clock
  | setTenantStatus tenantId status clock => Iam.setTenantStatus tenantId status clock

end Iam
end Rcp
