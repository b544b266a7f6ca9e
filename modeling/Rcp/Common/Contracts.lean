/-
The event contracts (`packages/contracts/events`) and their check
(`packages/contracts/validate_examples.py`).

Every event on the bus is an envelope whose data follows the contract of its type, if
there is one.  The file of a contract is named after the type and the version.
-/
import Rcp.Common.JsonSchema
import Rcp.Common.Outbox

namespace Rcp
namespace Contracts

open JsonSchema

/-! ## Documents -/

/-- `str(uuid)` and `isoformat()`. -/
structure Texts where
  uuid : Uuid → String
  isoformat : Time → String

def optionalText : Option String → Json
  | none => .null
  | some s => .str s

def Texts.uuidOrNull (texts : Texts) (id : Option Uuid) : Json :=
  optionalText (id.map texts.uuid)

def optionalFloat : Option PyFloat → Json
  | none => .null
  | some x => .float x

/-- The envelope of `build_envelope`. -/
def envelopeJson {D : Type} (texts : Texts) (producer occurredAt : String)
    (traceId : Option String) (event : Envelope D) (data : Json) : Json :=
  .obj
    [("event_id", .str (texts.uuid event.eventId)),
      ("event_type", .str event.eventType),
      ("schema_version", .int 1),
      ("occurred_at", .str occurredAt),
      ("tenant_id", texts.uuidOrNull event.tenantId),
      ("producer", .str producer),
      ("trace_id", optionalText traceId),
      ("data", data)]

/-! ## Contracts -/

/-- A nonempty run of allowed characters. -/
def run (allowed : Char → Bool) (cs : List Char) : Bool := !cs.isEmpty && cs.all allowed

def isLower (c : Char) : Bool := decide ('a' ≤ c) && decide (c ≤ 'z')

/-- `re.search("^[a-z]+\\.[a-z-]+\\.[a-z-]+$", s)`.  A `$` also matches before a newline at
the end. -/
def eventTypePattern (s : String) : Bool :=
  let cs := if s.toList.getLast? = some '\n' then s.toList.dropLast else s.toList
  match cs.splitOn '.' with
  | [producer, entity, action] => run isLower producer &&
      run (fun c => isLower c || c == '-') entity && run (fun c => isLower c || c == '-') action
  | _ => false

/-- `events/envelope.schema.json`. -/
def envelope : Schema :=
  sealedRecord
    ["event_id", "event_type", "schema_version", "occurred_at", "tenant_id", "producer", "data"]
    [("event_id", text),
      ("event_type", leaf { type := [.string], pattern := some eventTypePattern }),
      ("schema_version", atLeast 1),
      ("occurred_at", text),
      ("tenant_id", textOrNull),
      ("producer", oneOf ["iam-service", "logistics-service", "rto-service", "volunteer-service"]),
      ("trace_id", textOrNull),
      ("data", leaf { type := [.object] })]

def requestStatuses : List String :=
  ["pending", "verified", "approved", "in_progress", "fulfilled", "rejected", "cancelled"]

def itemStatuses : List String := ["available", "reserved", "depleted", "expired"]

def urgencies : List String := ["low", "medium", "high", "critical"]

/-- `events/logistics/request-submitted.v1.schema.json`. -/
def requestSubmitted : Schema :=
  record ["request_id", "category_id", "urgency", "quantity_needed", "status"]
    [("request_id", text), ("category_id", text), ("urgency", oneOf urgencies),
      ("quantity_needed", atLeast 1), ("area", textOrNull), ("status", oneOf requestStatuses),
      ("updated_at", textOrNull)]

/-- `events/logistics/request-status-changed.v1.schema.json`. -/
def requestStatusChanged : Schema :=
  record ["request_id", "category_id", "quantity_needed", "status", "old_status", "new_status",
      "changed_by_user_id", "updated_at"]
    [("request_id", text), ("category_id", text), ("quantity_needed", atLeast 1),
      ("status", oneOf requestStatuses), ("old_status", oneOf requestStatuses),
      ("new_status", oneOf requestStatuses), ("requester_user_id", textOrNull),
      ("changed_by_user_id", text), ("updated_at", text)]

/-- `events/logistics/inventory-item-updated.v1.schema.json`. -/
def inventoryItemUpdated : Schema :=
  record ["item_id", "category_id", "name", "quantity_total", "quantity_reserved",
      "quantity_available", "status"]
    [("item_id", text), ("category_id", text), ("name", text), ("quantity_total", atLeast 0),
      ("quantity_reserved", atLeast 0), ("quantity_available", atLeast 0),
      ("status", oneOf itemStatuses),
      ("updated_at", textOrNull)]

/-- `events/logistics/resource-category-created.v1.schema.json`, and the same for `updated`. -/
def resourceCategory : Schema :=
  record ["category_id", "name", "unit", "is_active"]
    [("category_id", text), ("name", text), ("description", textOrNull), ("unit", text),
      ("is_active", boolean), ("updated_at", textOrNull)]

/-- The volunteer and the assigner of a task. -/
def person : Schema := record ["user_id"] [("user_id", text), ("full_name", textOrNull)]

/-- `events/logistics/task-assigned.v1.schema.json`. -/
def taskAssigned : Schema :=
  record ["task_id", "request_id", "title", "priority", "volunteer", "assigned_by", "assigned_at"]
    [("task_id", text), ("request_id", text),
      ("title", leaf { type := [.string], maxLength := some 200 }),
      ("instructions", textOrNull), ("priority", oneOf urgencies),
      ("category", record ["id", "name"] [("id", text), ("name", text)]),
      ("location", recordOrNull [("area", textOrNull), ("lat", numberOrNull),
        ("lng", numberOrNull)]),
      ("volunteer", person), ("assigned_by", person), ("assigned_at", text),
      ("expires_at", textOrNull)]

/-- `events/iam/user-registered.v1.schema.json`. -/
def userRegistered : Schema :=
  record ["user_id", "user_type", "email", "full_name", "roles", "is_active", "updated_at"]
    [("user_id", text), ("tenant_id", textOrNull),
      ("user_type", oneOf ["VOLUNTEER", "VICTIM", "DONATOR", "TENANT_ADMIN", "COORDINATOR"]),
      ("email", text), ("full_name", text), ("phone", textOrNull), ("roles", listOf text),
      ("is_active", boolean), ("updated_at", text)]

/-- `events/iam/user-updated.v1.schema.json`. -/
def userUpdated : Schema :=
  record ["user_id", "full_name", "roles", "is_active", "updated_at"]
    [("user_id", text), ("email", textOrNull), ("full_name", text), ("phone", textOrNull),
      ("roles", listOf text), ("is_active", boolean), ("updated_at", text)]

/-- `events/volunteer/assignment-notified.v1.schema.json`. -/
def assignmentNotified : Schema :=
  record ["event_id", "requirement_id", "volunteer_user_id", "skill", "source_district"]
    [("event_id", text), ("requirement_id", text), ("volunteer_user_id", text), ("skill", text),
      ("source_district", text), ("title", text)]

/-- `events/volunteer/disaster-declared.v1.schema.json`. -/
def disasterDeclared : Schema :=
  record ["event_id", "tenant_id", "title", "source_district", "broadcast_type",
      "resolved_districts", "requirements"]
    [("event_id", text), ("tenant_id", text), ("title", text), ("source_district", text),
      ("latitude", numberOrNull), ("longitude", numberOrNull),
      ("broadcast_type", oneOf ["RADIUS_L1", "RADIUS_L2", "TARGETED"]),
      ("resolved_districts", listOf text),
      ("requirements", listOf (record ["skill", "required_count"]
        [("skill", text), ("required_count", atLeast 1)])),
      ("occurred_at", text)]

/-- `events/volunteer/team-formed.v1.schema.json`. -/
def teamFormed : Schema :=
  record ["event_id", "title", "source_district", "team"]
    [("event_id", text), ("title", text), ("source_district", text),
      ("team", listOf (record ["volunteer_user_id", "full_name", "skill"]
        [("volunteer_user_id", text), ("full_name", text), ("phone", textOrNull), ("skill", text),
          ("base_district", textOrNull)]))]

/-- Where the contract of an event type is looked for, and what is found there. -/
def found : List (String × String × Option Schema) :=
  [("logistics.request.submitted", "events/logistics/request-submitted.v1.schema.json",
      some requestSubmitted),
    ("logistics.request.status-changed",
      "events/logistics/request-status-changed.v1.schema.json", some requestStatusChanged),
    ("logistics.task.assigned", "events/logistics/task-assigned.v1.schema.json",
      some taskAssigned),
    ("logistics.inventory.item-updated",
      "events/logistics/inventory-item-updated.v1.schema.json", some inventoryItemUpdated),
    ("logistics.inventory.low-stock", "events/logistics/inventory-low-stock.v1.schema.json",
      none),
    ("logistics.resource-category.created",
      "events/logistics/resource-category-created.v1.schema.json", some resourceCategory),
    ("logistics.resource-category.updated",
      "events/logistics/resource-category-updated.v1.schema.json", some resourceCategory),
    ("iam.user.registered", "events/iam/user-registered.v1.schema.json", some userRegistered),
    ("iam.user.updated", "events/iam/user-updated.v1.schema.json", some userUpdated),
    ("iam.user.deactivated", "events/iam/user-deactivated.v1.schema.json", none),
    ("iam.tenant.deactivated", "events/iam/tenant-deactivated.v1.schema.json", none),
    ("volunteer.assignment.notified", "events/volunteer/assignment-notified.v1.schema.json",
      some assignmentNotified),
    ("volunteer.disaster.declared", "events/volunteer/disaster-declared.v1.schema.json",
      some disasterDeclared),
    ("volunteer.team.formed", "events/volunteer/team-formed.v1.schema.json", some teamFormed)]

section Check

variable {D : Type} {texts : Texts} {producer occurredAt : String} {traceId : Option String}
  {event : Envelope D}

@[simp] theorem optionalText_accepts (s : Option String) :
    textOrNull.accepts (optionalText s) = true := by
  cases s <;> rfl

@[simp] theorem optionalFloat_accepts (x : Option PyFloat) :
    numberOrNull.accepts (optionalFloat x) = true := by
  cases x <;> rfl

end Check

end Contracts
end Rcp
