/-
The consumer of the real-time service on the events as they come over the wire
(`services/rto/internal/consumer/consumer.go`).

`json.Unmarshal` fills the text fields of a struct: a missing key and a `null` leave the empty
text, and any other value is an error, which some handlers ignore.  The raw data goes into the
tables and the frames unread.  A key is taken by its exact name.
-/
import Rcp.Common.Wire
import Rcp.Iam.Contracts
import Rcp.Logistics.Contracts
import Rcp.Rto.Model

namespace Rcp
namespace Rto
namespace Wire

open Sql
open Rcp.Wire hiding onMessage onMessage_eq foldl_onMessage

/-! ## Decoding -/

/-- A text field of a struct. -/
def textField (entries : Object) (key : String) : Except Raised String :=
  match entries.get? key with
  | none | some .null => .ok ""
  | some (.str s) => .ok s
  | some _ => .error .typeError

/-- An integer field of a struct. -/
def intField (entries : Object) (key : String) : Except Raised Int :=
  match entries.get? key with
  | none | some .null => .ok 0
  | some (.int n) => .ok n
  | some _ => .error .typeError

/-- The fields of a struct that is itself a field. -/
def structField (entries : Object) (key : String) : Except Raised Object :=
  match entries.get? key with
  | none | some .null => .ok []
  | some (.obj entries) => .ok entries
  | some _ => .error .typeError

/-- The fields of `env.Data`.  An event without data has no text to decode. -/
def dataFields : Option Json → Except Raised Object
  | none => .error .valueError
  | some .null => .ok []
  | some (.obj entries) => .ok entries
  | some _ => .error .typeError

/-- What is decoded if errors are ignored. -/
def ignored {α : Type} (default : α) : Except Raised α → α
  | .ok a => a
  | .error _ => default

variable (codec : Codec) (rfc3339 : String → Bool)

/-- A field of type `time.Time`. -/
def timeField (entries : Object) (key : String) : Except Raised Unit :=
  match entries.get? key with
  | none | some .null => .ok ()
  | some (.str s) => if rfc3339 s then .ok () else .error .valueError
  | some _ => .error .typeError

/-- The part of an envelope that the handlers get. -/
structure Header where
  eventId : Uuid
  eventType : String
  tenantId : Option Uuid
  data : Option Json

/-- The decoding of the envelope in `handle`. -/
def header (envelope : Object) : Except Raised Header := do
  let eventId ← textField envelope "event_id"
  let eventType ← textField envelope "event_type"
  let _ ← intField envelope "schema_version"
  let _ ← timeField rfc3339 envelope "occurred_at"
  let tenantId ← textField envelope "tenant_id"
  let _ ← textField envelope "producer"
  let _ ← textField envelope "trace_id"
  let eventId ← codec.uuidOf (.str eventId)
  return {
    eventId := eventId
    eventType := eventType
    tenantId := if tenantId ≠ "" ∧ tenantId ≠ "null" then codec.parseUuid tenantId else none
    data := envelope.get? "data" }

/-- The id in a text column.  The texts that arrive are empty or those of UUIDs. -/
def idOf (s : String) : Option Uuid := if s = "" then none else codec.parseUuid s

/-- The fields that `onTaskAssigned` decodes. -/
structure TaskFields where
  taskId : String
  title : String
  volunteerId : Uuid

def taskFields (data : Option Json) : Except Raised TaskFields := do
  let entries ← dataFields data
  let taskId ← textField entries "task_id"
  let title ← textField entries "title"
  let volunteer ← structField entries "volunteer"
  let userId ← textField volunteer "user_id"
  let volunteerId ← codec.uuidOf (.str userId)
  return { taskId := taskId, title := title, volunteerId := volunteerId }

/-- The fields that `onAlertCreated` decodes. -/
structure AlertFields where
  alertId : String
  title : String
  message : String
  severity : String
  createdBy : String
  createdAt : String

def alertFields (data : Option Json) : Except Raised AlertFields := do
  let entries ← dataFields data
  let alertId ← textField entries "alert_id"
  let title ← textField entries "title"
  let message ← textField entries "message"
  let severity ← textField entries "severity"
  let createdBy ← textField entries "created_by"
  let createdAt ← textField entries "created_at"
  return {
    alertId := alertId
    title := title
    message := message
    severity := severity
    createdBy := createdBy
    createdAt := createdAt }

/-- The frame of a disaster alert. -/
def AlertFields.frame (alert : AlertFields) : Frame :=
  .alert (idOf codec alert.alertId) alert.title alert.message alert.severity alert.createdBy
    alert.createdAt

/-- The `entityType` and `entityID` of `onGenericDomainEvent`. -/
def entityFields (h : Header) : String × Option Uuid :=
  let entries := ignored [] (dataFields h.data)
  let taskId := ignored "" (textField entries "task_id")
  let requestId := ignored "" (textField entries "request_id")
  if taskId ≠ "" then ("task", idOf codec taskId)
  else if requestId ≠ "" then ("request", idOf codec requestId)
  else ("event", some h.eventId)

/-- The fields that `onRevocation` decodes. -/
def revocationFields (data : Option Json) : Except Raised (String × String) := do
  let entries ← dataFields data
  let userId ← textField entries "user_id"
  let jti ← textField entries "jti"
  return (userId, jti)

/-! ## Handlers -/

variable (server : Nat)

def onTaskAssigned (h : Header) (raw : Payload) : Prog World Error Unit :=
  match taskFields codec h.data with
  | .error _ => .raise .invalidUuid
  | .ok task => do
      let title := "New task: " ++ task.title
      match ← processEvent h.eventId (do
          let id ← insertNotification h.tenantId task.volunteerId "task_assigned" title raw
          appendSyncEvent h.tenantId "task" (idOf codec task.taskId) "assigned" raw
          return id) with
      | none => return ()
      | some id => do
          let frame := .notification id h.eventType title raw
          let delivered ← effect fun w => w.sendToUser server h.tenantId task.volunteerId frame
          if delivered then return ()
          else effect fun w => ((), { w with
            pushed := ⟨h.tenantId, task.volunteerId, title, raw⟩ :: w.pushed })

def onAlertCreated (h : Header) (raw : Payload) : Prog World Error Unit :=
  match alertFields h.data with
  | .error _ => .raise .invalidUuid
  | .ok alert => do
      match ← processEvent h.eventId
          (appendSyncEvent h.tenantId "alert" (idOf codec alert.alertId) "created" raw) with
      | none => return ()
      | some _ => effect fun w => ((), w.broadcastTenant server h.tenantId (alert.frame codec))

/- The column of the payload refuses an event without data. -/
def onGenericDomainEvent (h : Header) (raw : Payload) : Prog World Error Unit := do
  match ← processEvent h.eventId (if h.data.isNone then .raise .invalidUuid else
      appendSyncEvent h.tenantId (entityFields codec h).1 (entityFields codec h).2 h.eventType
        raw) with
  | none => return ()
  | some _ => effect fun w =>
      ((), w.broadcastTenant server h.tenantId (.domainEvent h.eventType raw))

def onRevocation (h : Header) : Prog World Error Unit :=
  match revocationFields h.data with
  | .error _ => .raise .invalidUuid
  | .ok (userId, jti) => do
      revokeUser server h.tenantId (idOf codec userId)
      revokeJti server (idOf codec jti)

def onTenantDeactivated (h : Header) : Prog World Error Unit :=
  let status := ignored "" (textField (ignored [] (dataFields h.data)) "status")
  if status ≠ "active" then effect fun w => ((), w.dropTenant server h.tenantId)
  else return ()

/-- The switch of `handle`. -/
def dispatch (h : Header) (raw : Payload) : Prog World Error Unit :=
  if h.eventType = "logistics.task.assigned" then onTaskAssigned codec server h raw
  else if h.eventType = "logistics.alert.created" then onAlertCreated codec server h raw
  else if h.eventType = "iam.user.deactivated" ∨ h.eventType = "iam.token.revoked" then
    onRevocation codec server h
  else if h.eventType = "iam.tenant.deactivated" ∨
      h.eventType = "iam.tenant.status_changed" then onTenantDeactivated server h
  else onGenericDomainEvent codec server h raw

/-- `handle`.  `raw` is the text of `env.Data`, and every error leads to the same nack. -/
def handle (envelope : Object) (raw : Payload) : Prog World Error Unit :=
  match header codec rfc3339 envelope with
  | .error _ => .raise .invalidUuid
  | .ok h => dispatch codec server h raw

/-! ## What the producers write -/

section Written

variable {codec} {rfc3339} {entries : Object} {key : String}

theorem textField_none (h : entries.get? key = none) : textField entries key = .ok "" := by
  rw [textField, h]

section Logistics

open Logistics.Contract (data)

variable {event : Envelope Logistics.Message}

end Logistics

/-! ### The identity service -/

section Iam

open Iam.Contract (data)

variable {event : Envelope Iam.Message} {server : Nat}

end Iam

end Written

/-! ## Runs -/

end Wire
end Rto
end Rcp
