/-
The tables of the identity service (`services/iam/app/models`), the data of its
events, and what its calls receive.

Left out are the columns that no modelled function reads: a tenant's name and
description, who granted a role, and all `created_at` and `updated_at` stamps but the
`updated_at` of a user.
-/
import Rcp.Common.Outbox

namespace Rcp
namespace Iam

open Sql

inductive UserType
  | superAdmin
  | volunteer
  | victim
  | donator
  | tenantAdmin
  | coordinator
  deriving DecidableEq, Repr

def UserType.value : UserType → String
  | superAdmin => "SUPER_ADMIN"
  | volunteer => "VOLUNTEER"
  | victim => "VICTIM"
  | donator => "DONATOR"
  | tenantAdmin => "TENANT_ADMIN"
  | coordinator => "COORDINATOR"

def globalUserTypes : List UserType := [.volunteer, .victim, .donator]

def tenantUserTypes : List UserType := [.tenantAdmin, .coordinator]

structure Tenant where
  slug : String
  status : String := "active"
  latitude : Option PyFloat
  longitude : Option PyFloat

/-- A user.  The constraint `ck_users_type_tenancy` says that exactly the portal actors
belong to a tenant. -/
structure User where
  tenantId : Option Uuid
  userType : UserType
  email : String
  passwordHash : String
  fullName : String
  phone : Option String
  status : String := "active"
  latitude : Option PyFloat := none
  longitude : Option PyFloat := none
  assignedTenantId : Option Uuid := none
  updatedAt : Time
  tenancy : userType ∈ tenantUserTypes ↔ tenantId.isSome = true

def User.isActive (user : User) : Bool := user.status == "active"

structure RoleAssignment where
  userId : Uuid
  role : String

/-- The property `User.roles` over the loaded role assignments. -/
def User.roles (user : User) (assignments : List RoleAssignment) : List String :=
  let implicit := lower user.userType.value
  implicit :: (assignments.map RoleAssignment.role).filter (· ≠ implicit)

structure RefreshToken where
  userId : Uuid
  tokenHash : String
  expiresAt : Time
  rotatedFrom : Option Uuid
  revokedAt : Option Time := none
  /-- The session that inserted the row.  No statement reads it. -/
  insertedBy : Sid

/-! ## Events -/

/-- The data of `iam.user.registered` and `iam.user.updated`. -/
structure UserData where
  userId : Uuid
  tenantId : Option Uuid
  userType : UserType
  email : String
  fullName : String
  phone : Option String
  roles : List String
  isActive : Bool
  updatedAt : Time
  /-- Only the events of `set_user_status` carry it. -/
  status : Option String := none
  deriving DecidableEq

inductive Message
  | user (data : UserData)
  | userDeactivated (userId : Uuid) (tenantId : Option Uuid) (status : String)
      (occurredAt : Time)
  | tenantDeactivated (tenantId : Uuid) (status : String) (occurredAt : Time)
  | tenantStatusChanged (tenantId : Uuid) (status : String)
  deriving DecidableEq

/-! ## The store -/

structure Db where
  tenants : Table Tenant
  users : Table User
  roleAssignments : Table RoleAssignment
  tokens : Table RefreshToken
  outbox : Table (Outbox Message)

namespace Db

def tenantsT : Access Db Tenant :=
  { get := Db.tenants, set := fun s T => { s with tenants := T } }

def usersT : Access Db User :=
  { get := Db.users, set := fun s T => { s with users := T } }

def roleAssignmentsT : Access Db RoleAssignment :=
  { get := Db.roleAssignments, set := fun s T => { s with roleAssignments := T } }

def tokensT : Access Db RefreshToken :=
  { get := Db.tokens, set := fun s T => { s with tokens := T } }

def outboxT : Access Db (Outbox Message) :=
  { get := Db.outbox, set := fun s T => { s with outbox := T } }

instance : Transactional Db where
  commit t s :=
    { tenants := s.tenants.commit t
      users := s.users.commit t
      roleAssignments := s.roleAssignments.commit t
      tokens := s.tokens.commit t
      outbox := s.outbox.commit t }
  rollback t s :=
    { tenants := s.tenants.rollback t
      users := s.users.rollback t
      roleAssignments := s.roleAssignments.rollback t
      tokens := s.tokens.rollback t
      outbox := s.outbox.rollback t }

/-- A database with tenants, users and role assignments. -/
def initial (tenants : List Tenant) (users : List User)
    (roleAssignments : List RoleAssignment) : Db :=
  { tenants := .ofList tenants
    users := .ofList users
    roleAssignments := .ofList roleAssignments
    tokens := .empty
    outbox := .empty }

end Db

/-! ## Inputs -/

/-- The clocks a call reads: `now()` of the database, which is the start of the
transaction, and the application clock once and again. -/
structure Clock where
  transaction : Time
  now : Time
  later : Time
  started : transaction < now
  ordered : now ≤ later

/-- What a call draws at random. -/
structure Draw where
  refreshToken : String
  jti : Uuid

/-- `GlobalUserRegister` after validation. -/
structure GlobalUserRegister where
  email : String
  password : String
  fullName : String
  phone : Option String := none
  userType : UserType
  latitude : Option PyFloat := none
  longitude : Option PyFloat := none

/-- `TenantUserRegister` after validation. -/
structure TenantUserRegister where
  email : String
  password : String
  fullName : String
  phone : Option String := none
  userType : UserType := .coordinator

structure LoginRequest where
  tenantSlug : Option String := none
  email : String
  password : String

structure ProfileUpdate where
  fullName : Option String := none
  phone : Option String := none

structure PasswordChange where
  currentPassword : String
  newPassword : String

/-- The claims of an access token, which `create_access_token` signs. -/
structure Claims where
  sub : Uuid
  userType : String
  roles : List String
  iss : String := "rcp-iam"
  aud : String := "rcp-services"
  iat : Time
  exp : Time
  jti : Uuid
  tenantId : Option Uuid
  deriving DecidableEq

structure TokenPair where
  accessToken : Claims
  refreshToken : String
  tokenType : String := "bearer"
  expiresIn : Int

end Iam
end Rcp
