/-
The events of the identity service against their contracts.

A user is announced in the form of the contracts, but the contract of a registration does not
know the type `SUPER_ADMIN`.  There is no contract for a deactivation or a change of a
tenant, and the name `iam.tenant.status_changed` is no event type at all.
-/
import Rcp.Common.Wire
import Rcp.Iam.Exchange
import Rcp.Iam.Operators
import Rcp.Sql.Keeps

namespace Rcp
namespace Iam
namespace Contract

open Sql Contracts JsonSchema

/-- The dict that the call passes to `emit`. -/
def data (texts : Texts) : Message → Object
  | .user data =>
      [("user_id", .str (texts.uuid data.userId)),
        ("tenant_id", texts.uuidOrNull data.tenantId),
        ("user_type", .str data.userType.value),
        ("email", .str data.email),
        ("full_name", .str data.fullName),
        ("phone", optionalText data.phone)] ++
      (data.status.elim [] fun status => [("status", .str status)]) ++
      [("roles", .arr (data.roles.map .str)),
        ("is_active", .bool data.isActive),
        ("updated_at", .str (texts.isoformat data.updatedAt))]
  | .userDeactivated userId tenantId status occurredAt =>
      [("user_id", .str (texts.uuid userId)),
        ("tenant_id", texts.uuidOrNull tenantId),
        ("status", .str status),
        ("occurred_at", .str (texts.isoformat occurredAt))]
  | .tenantDeactivated tenantId status occurredAt =>
      [("tenant_id", .str (texts.uuid tenantId)),
        ("status", .str status),
        ("occurred_at", .str (texts.isoformat occurredAt))]
  | .tenantStatusChanged tenantId status =>
      [("tenant_id", .str (texts.uuid tenantId)), ("status", .str status)]

/-- An event as the relay publishes it. -/
def published (codec : Wire.Codec) (occurredAt : Envelope Message → String)
    (traceId : Envelope Message → Option String) (event : Envelope Message) : Object :=
  Wire.envelopeEntries codec.toTexts "iam-service" (occurredAt event) (traceId event) event
    (.obj (data codec.toTexts event.data))

section Data

variable {texts : Texts}

example : eventTypePattern "iam.user.registered" = true := by decide +kernel

end Data

/-! ## Runs -/

/-- Every event of the outbox, committed or not, has the type of its data. -/
def Fits (s : Db) : Prop :=
  s.outbox.All fun _ row => row.payload.data.FitsType row.payload.eventType

theorem Fits.does {sets? : Option (Uuid × String)} {t : Sid} {s s' : Db} (hs : Fits s)
    (h : Does sets? t s s') : Fits s' := by
  cases h with
  | stay | tenants | tokens | enrol | rewrite => exact hs
  | emit routingKey tenantId data hfits => exact Table.All.insert hs (t := t) hfits
  | commit => exact Table.All.commit hs t

theorem keeps_of_only {γ : Type} {sets? : Option (Uuid × String)} {p : Prog Db Error γ}
    (h : p.Only (Does sets?)) : p.Keeps Fits (fun _ => True) := by
  induction p with
  | ret b => exact trivial
  | raise e => exact trivial
  | stmt run k ih =>
      intro t s b s' hs hrun
      obtain ⟨hdoes, hk⟩ := h t s b s' hrun
      exact ⟨hs.does hdoes, ih b hk⟩

theorem run_fits {env : Env} {tenants : List Tenant} {users : List User}
    {roleAssignments : List RoleAssignment} {c : Config Db Error Unit Action}
    (h : Run (Action.body env) (Config.start (Db.initial tenants users roleAssignments)) c) :
    Fits c.store :=
  Run.keeps_inv (fun t _ hs => Table.All.rollback hs t)
    (fun a => keeps_of_only (Does.only_body env a)) Table.empty_all h

/-- A caller with the role of an operator. -/
def console (userId : Uuid) : Principal :=
  { userId := userId, tenantId := none, userType := none, roles := ["super_admin"] }

def ops : SuperAdminCreate :=
  { email := "ops@example.org"
    password := "long enough"
    fullName := "Ops" }

/-- A new operator and Amara register at the same time. -/
def registrations : List (Move Action) :=
  [[.begin (.createSuperAdmin (console 9) ops "salt" (tick 0)),
      .begin (.call (.registerGlobalUser amara "salt" (tick 5)))],
    List.replicate 7 (.next 0), List.replicate 6 (.next 1)].flatten

end Contract
end Iam
end Rcp
