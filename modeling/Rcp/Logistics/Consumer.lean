/-
The consumer of the IAM events of the logistics service (`services/logistics/app/events/
consumers/iam.py`), as a transaction program.

The rows that an event adds or changes are written when `db.commit()` flushes them, so a
replica is decided upon as it was loaded, and the flush writes the columns that have changed.
-/
import Rcp.Logistics.Replicas
import Rcp.Sql.Markers

namespace Rcp
namespace Logistics

open Sql

namespace Consumer

inductive Error
  | keyError
  | integrityError (constraint : String)
  deriving DecidableEq

/-- The row that `_upsert_replica` adds. -/
def newReplica (tenantId : Option Uuid) (data : Iam.UserData) : UserReplica :=
  { tenantId := tenantId
    fullName := data.fullName
    phone := data.phone
    roles := data.roles
    isActive := data.isActive
    sourceUpdatedAt := data.updatedAt }

/-- The assignments of `_upsert_replica`. -/
def assign (data : Iam.UserData) (replica : UserReplica) : UserReplica :=
  { replica with
    fullName := data.fullName
    phone := data.phone
    roles := data.roles
    isActive := data.isActive
    sourceUpdatedAt := data.updatedAt }

/-- The row of an UPDATE with the changed columns. -/
def mergeColumns (loaded new current : UserReplica) : UserReplica :=
  { current with
    fullName := column loaded.fullName new.fullName current.fullName
    phone := column loaded.phone new.phone current.phone
    roles := column loaded.roles new.roles current.roles
    isActive := column loaded.isActive new.isActive current.isActive
    sourceUpdatedAt := column loaded.sourceUpdatedAt new.sourceUpdatedAt
      current.sourceUpdatedAt }

def flush (k : Uuid) (loaded new : UserReplica) : Prog Db Error Unit :=
  if new = loaded then return ()
  else do
    let _ ← update Db.replicasT k (mergeColumns loaded new)
    return ()

/-- `_upsert_replica`, with what it leaves to the flush. -/
def upsertReplica (tenantId : Option Uuid) (data : Iam.UserData) : Prog Db Error Unit := do
  match ← selectKey Db.replicasT data.userId with
  | none => do
      match ← insertKey Db.replicasT data.userId (newReplica tenantId data) with
      | false => .raise (.integrityError "user_replicas_pkey")
      | true => return ()
  | some replica =>
      if replica.sourceUpdatedAt ≤ data.updatedAt then
        flush data.userId replica (assign data replica)
      else return ()

/-- `_deactivate_replica`. -/
def deactivateReplica (userId : Uuid) : Prog Db Error Unit := do
  match ← selectKey Db.replicasT userId with
  | none => return ()
  | some replica => flush userId replica { replica with isActive := false }

/-- What `_handle` does with the data. -/
def dispatch (event : Envelope Iam.Message) : Prog Db Error Unit :=
  if event.eventType ∈ ["iam.user.registered", "iam.user.updated"] then
    match event.data with
    | .user data => upsertReplica event.tenantId data
    | _ => .raise .keyError
  else if event.eventType = "iam.user.deactivated" then
    match event.data.userId? with
    | some userId => deactivateReplica userId
    | none => .raise .keyError
  else return ()

/-- `_handle`. -/
def handle (event : Envelope Iam.Message) : Prog Db Error Unit :=
  checked Db.processedT event.eventId () (.integrityError "processed_events_pkey")
    (dispatch event) ()

end Consumer

/-! ## The tables of the database -/

inductive DbTable
  | categories
  | items
  | requests
  | tasks
  | payments
  | replicas
  | outbox
  | processed
  deriving DecidableEq

@[reducible] def DbTable.Row : DbTable → Type
  | categories => ResourceCategory
  | items => InventoryItem
  | requests => HelpRequest
  | tasks => DispatchTask
  | payments => PaymentDonation
  | replicas => UserReplica
  | outbox => Outbox Message
  | processed => Unit

@[reducible] def family : Family Db DbTable where
  Row := DbTable.Row
  table
    | .categories => Db.categoriesT
    | .items => Db.itemsT
    | .requests => Db.requestsT
    | .tasks => Db.tasksT
    | .payments => Db.paymentsT
    | .replicas => Db.replicasT
    | .outbox => Db.outboxT
    | .processed => Db.processedT
  get_set_self i _ _ := by cases i <;> rfl
  get_set_ne i j _ _ h := by cases i <;> cases j <;> first | rfl | exact absurd rfl h
  get_commit i _ _ := by cases i <;> rfl
  get_rollback i _ _ := by cases i <;> rfl

/-! ## Effectively once -/

namespace Consumer

open Family

end Consumer
end Logistics
end Rcp
