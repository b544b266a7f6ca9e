/-
The analytics projections and their consumer (`services/analytics/app/models/
projection.py` and `events/consumer.py`).

The typed messages of the logistics service stand for the `data` dictionaries, so a
key that an event does not carry is an absent field.  The integer columns and the
foreign key of an inventory row to its category are checked when the transaction is
flushed.
-/
import Rcp.Common.Inbox
import Rcp.Logistics.Services

namespace Rcp
namespace Analytics

open Logistics (Message InventoryStatus FitsInteger)

structure CategoryProjection where
  tenantId : Uuid
  name : String
  description : Option String
  unit : String
  isActive : Bool
  updatedAt : Option Time
  deriving DecidableEq

structure InventoryProjection where
  tenantId : Uuid
  categoryId : Uuid
  name : String
  quantityTotal : Int
  quantityReserved : Int
  quantityAvailable : Int
  status : String
  updatedAt : Option Time
  deriving DecidableEq

/-- The values fit the `INTEGER` columns. -/
def InventoryProjection.Fits (row : InventoryProjection) : Prop :=
  FitsInteger row.quantityTotal ∧ FitsInteger row.quantityReserved ∧
    FitsInteger row.quantityAvailable

instance (row : InventoryProjection) : Decidable row.Fits :=
  inferInstanceAs (Decidable (_ ∧ _))

structure RequestProjection where
  tenantId : Uuid
  categoryId : Uuid
  quantityNeeded : Int
  status : String
  urgency : String
  updatedAt : Option Time
  deriving DecidableEq

structure Projections where
  categories : Uuid → Option CategoryProjection := fun _ => none
  items : Uuid → Option InventoryProjection := fun _ => none
  requests : Uuid → Option RequestProjection := fun _ => none

inductive Error
  | typeError
  | keyError
  | dataError
  | integrityError (constraint : String)

/-- `_is_stale`. -/
def isStale (rowUpdatedAt incomingUpdatedAt : Option Time) : Bool :=
  match rowUpdatedAt, incomingUpdatedAt with
  | some row, some incoming => incoming < row
  | _, _ => false

/-! ## Upserts -/

/-- The row of `_upsert_category` that keeps the tenant of the row there is. -/
def categoryRow (tenantId : Uuid) (name : String) (description : Option String) (unit : String)
    (isActive : Bool) (updatedAt : Time) : CategoryProjection :=
  { tenantId := tenantId
    name := name
    description := description
    unit := unit
    isActive := isActive
    updatedAt := some updatedAt }

def upsertCategory (tenantId categoryId : Uuid) (name : String) (description : Option String)
    (unit : String) (isActive : Bool) (updatedAt : Time) (rows : Projections) : Projections :=
  match rows.categories categoryId with
  | none =>
      { rows with
        categories := Function.update rows.categories categoryId
          (some (categoryRow tenantId name description unit isActive updatedAt)) }
  | some row =>
      if isStale row.updatedAt (some updatedAt) then rows
      else
        { rows with
          categories := Function.update rows.categories categoryId
            (some (categoryRow row.tenantId name description unit isActive updatedAt)) }

/-- The payload of `_upsert_inventory`. -/
def inventoryRow (tenantId categoryId : Uuid) (name : String) (total reserved available : Int)
    (status : InventoryStatus) (updatedAt : Time) : InventoryProjection :=
  { tenantId := tenantId
    categoryId := categoryId
    name := name
    quantityTotal := total
    quantityReserved := reserved
    quantityAvailable := available
    status := status.value
    updatedAt := some updatedAt }

/-- The row `_upsert_inventory` writes, as far as the columns and the foreign key take it. -/
def flushInventory (itemId : Uuid) (row : InventoryProjection) (rows : Projections) :
    Except Error Projections :=
  if ¬ row.Fits then .error .dataError
  else if (rows.categories row.categoryId).isNone then
    .error (.integrityError "analytics_inventory_items_category_id_fkey")
  else .ok { rows with items := Function.update rows.items itemId (some row) }

def upsertInventory (itemId : Uuid) (row : InventoryProjection) (rows : Projections) :
    Except Error Projections :=
  match rows.items itemId with
  | none => flushInventory itemId row rows
  | some old =>
      if isStale old.updatedAt row.updatedAt then .ok rows
      else flushInventory itemId row rows

/-- What `_upsert_request` reads of an event.  A key may be absent. -/
structure RequestData where
  requestId : Uuid
  categoryId : Uuid
  quantityNeeded : Option Int := none
  status : Option String := none
  urgency : Option String := none
  updatedAt : Option Time := none

def RequestData.row (data : RequestData) (tenantId : Uuid) : RequestProjection :=
  { tenantId := tenantId
    categoryId := data.categoryId
    quantityNeeded := data.quantityNeeded.getD 0
    status := data.status.getD "pending"
    urgency := data.urgency.getD "medium"
    updatedAt := data.updatedAt }

def flushRequest (requestId : Uuid) (row : RequestProjection) (rows : Projections) :
    Except Error Projections :=
  if ¬ FitsInteger row.quantityNeeded then .error .dataError
  else .ok { rows with requests := Function.update rows.requests requestId (some row) }

def upsertRequest (data : RequestData) (tenantId : Uuid) (rows : Projections) :
    Except Error Projections :=
  match rows.requests data.requestId with
  | none => flushRequest data.requestId (data.row tenantId) rows
  | some old =>
      if isStale old.updatedAt data.updatedAt then .ok rows
      else flushRequest data.requestId (data.row tenantId) rows

/-- The keys of a `logistics.request.*` event. -/
def requestData? : Message → Option RequestData
  | .requestSubmitted requestId categoryId urgency quantityNeeded _ status updatedAt =>
      some
        { requestId := requestId
          categoryId := categoryId
          quantityNeeded := some quantityNeeded
          status := some status.value
          urgency := some urgency.value
          updatedAt := some updatedAt }
  | .requestStatusChanged requestId categoryId quantityNeeded _ newStatus _ _ updatedAt =>
      some
        { requestId := requestId
          categoryId := categoryId
          quantityNeeded := some quantityNeeded
          status := some newStatus.value
          updatedAt := some updatedAt }
  | _ => none

/-! ## The handler -/

def applyCategory (tenantId : Uuid) (data : Message) (rows : Projections) :
    Except Error Projections :=
  match data with
  | .resourceCategory categoryId name description unit isActive updatedAt =>
      .ok (upsertCategory tenantId categoryId name description unit isActive updatedAt rows)
  | _ => .error .keyError

def applyInventory (tenantId : Uuid) (data : Message) (rows : Projections) :
    Except Error Projections :=
  match data with
  | .itemUpdated itemId categoryId name total reserved available status updatedAt =>
      upsertInventory itemId
        (inventoryRow tenantId categoryId name total reserved available status updatedAt) rows
  | _ => .error .keyError

def applyRequest (tenantId : Uuid) (data : Message) (rows : Projections) :
    Except Error Projections :=
  match requestData? data with
  | some data => upsertRequest data tenantId rows
  | none => .error .keyError

def applyEvent (tenantId : Uuid) (event : Envelope Message) (rows : Projections) :
    Except Error Projections :=
  if event.eventType ∈ ["logistics.resource-category.created",
      "logistics.resource-category.updated"] then applyCategory tenantId event.data rows
  else if event.eventType = "logistics.inventory.item-updated" then
    applyInventory tenantId event.data rows
  else if event.eventType = "logistics.request.submitted" then
    applyRequest tenantId event.data rows
  else if event.eventType = "logistics.request.status-changed" then
    applyRequest tenantId event.data rows
  else .ok rows

/-- `_handle`.  An envelope without a tenant is no UUID. -/
def handle (event : Envelope Message) (s : Inbox Projections) :
    Except Error (Inbox Projections) :=
  match event.tenantId with
  | none => .error .typeError
  | some tenantId => Inbox.handle (applyEvent tenantId) event s

/-- The consumer after one more message. -/
def deliver (s : Inbox Projections) (event : Envelope Message) : Inbox Projections :=
  Inbox.onMessage handle s event

/-- A consumer that has received nothing. -/
def newInbox : Inbox Projections := { rows := {} }

/-- What the handler does with an event in a new transaction. -/
def applyEnvelope (event : Envelope Message) (rows : Projections) : Except Error Projections :=
  match event.tenantId with
  | none => .error .typeError
  | some tenantId => applyEvent tenantId event rows

theorem deliver_eq {event : Envelope Message} (h : event.tenantId.isSome = true)
    (s : Inbox Projections) :
    deliver s event = Inbox.onMessage (Inbox.handle applyEnvelope) s event := by
  obtain ⟨tenantId, htenant⟩ := Option.isSome_iff_exists.mp h
  unfold deliver Inbox.onMessage handle Inbox.handle applyEnvelope
  rw [htenant]

/-- What an upsert makes of a stored row: an event with an older stamp leaves the rows, any other
writes its own. -/
theorem upsert_stored {R : Type} {rows : Projections} {content : Option R}
    {out : Except Error Projections} {stamp stored : Time} {mark mark' : WithBot Time}
    (row : Projections → Option R) (written : Projections)
    (hmark : mark = stamp) (hmark' : mark' = stored)
    (hout : out = if isStale (some stored) (some stamp) then .ok rows else .ok written)
    (hwritten : row written = content) :
    ∃ rows', out = .ok rows' ∧ row rows' = if mark < mark' then row rows else content := by
  subst hmark hmark'
  have hstale : isStale (some stored) (some stamp) = decide (stamp < stored) := rfl
  rw [hstale] at hout
  by_cases hlt : stamp < stored
  · refine ⟨rows, ?_, ?_⟩
    · rw [hout, if_pos (decide_eq_true hlt)]
    · rw [if_pos (WithBot.coe_lt_coe.mpr hlt)]
  · refine ⟨written, ?_, ?_⟩
    · rw [hout, if_neg (by simpa using hlt)]
    · rw [if_neg fun h => hlt (WithBot.coe_lt_coe.mp h)]
      exact hwritten

end Analytics
end Rcp
