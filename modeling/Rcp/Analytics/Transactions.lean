/-
The consumer of the analytics service (`services/analytics/app/events/consumer.py`) as a
transaction program over the tables of the projections.

An upsert decides on the row that the session has loaded, and the flush at the commit writes
the columns that have changed.  The columns and the foreign key are checked there too.
-/
import Rcp.Analytics.Consumer
import Rcp.Sql.Markers

namespace Rcp
namespace Analytics

open Sql
open Logistics (Message InventoryStatus FitsInteger)

structure ProjectionDb where
  categories : Table CategoryProjection
  items : Table InventoryProjection
  requests : Table RequestProjection
  /-- The types of the handled events, by their ids. -/
  processed : Table String

namespace ProjectionDb

def categoriesT : Access ProjectionDb CategoryProjection :=
  { get := ProjectionDb.categories, set := fun s T => { s with categories := T } }

def itemsT : Access ProjectionDb InventoryProjection :=
  { get := ProjectionDb.items, set := fun s T => { s with items := T } }

def requestsT : Access ProjectionDb RequestProjection :=
  { get := ProjectionDb.requests, set := fun s T => { s with requests := T } }

def processedT : Access ProjectionDb String :=
  { get := ProjectionDb.processed, set := fun s T => { s with processed := T } }

instance : Transactional ProjectionDb where
  commit t s :=
    { categories := s.categories.commit t
      items := s.items.commit t
      requests := s.requests.commit t
      processed := s.processed.commit t }
  rollback t s :=
    { categories := s.categories.rollback t
      items := s.items.rollback t
      requests := s.requests.rollback t
      processed := s.processed.rollback t }

/-- A database without projections. -/
def initial : ProjectionDb :=
  { categories := .empty, items := .empty, requests := .empty, processed := .empty }

end ProjectionDb

/-! ## Flushes -/

namespace Transaction

/-- The INSERT of an added object. -/
def add {V : Type} (T : Access ProjectionDb V) (k : Uuid) (row : V) (constraint : String) :
    Prog ProjectionDb Error Unit := do
  match ← insertKey T k row with
  | false => .raise (.integrityError constraint)
  | true => return ()

/-- The UPDATE of a changed object. -/
def save {V : Type} (T : Access ProjectionDb V) (merge : V → V → V → V) (k : Uuid)
    (loaded new : V) : Prog ProjectionDb Error Unit := do
  let _ ← update T k (merge loaded new)
  return ()

def mergeCategory (loaded new current : CategoryProjection) : CategoryProjection :=
  { current with
    name := column loaded.name new.name current.name
    description := column loaded.description new.description current.description
    unit := column loaded.unit new.unit current.unit
    isActive := column loaded.isActive new.isActive current.isActive
    updatedAt := column loaded.updatedAt new.updatedAt current.updatedAt }

def mergeItem (loaded new current : InventoryProjection) : InventoryProjection :=
  { tenantId := column loaded.tenantId new.tenantId current.tenantId
    categoryId := column loaded.categoryId new.categoryId current.categoryId
    name := column loaded.name new.name current.name
    quantityTotal := column loaded.quantityTotal new.quantityTotal current.quantityTotal
    quantityReserved := column loaded.quantityReserved new.quantityReserved
      current.quantityReserved
    quantityAvailable := column loaded.quantityAvailable new.quantityAvailable
      current.quantityAvailable
    status := column loaded.status new.status current.status
    updatedAt := column loaded.updatedAt new.updatedAt current.updatedAt }

def mergeRequest (loaded new current : RequestProjection) : RequestProjection :=
  { tenantId := column loaded.tenantId new.tenantId current.tenantId
    categoryId := column loaded.categoryId new.categoryId current.categoryId
    quantityNeeded := column loaded.quantityNeeded new.quantityNeeded current.quantityNeeded
    status := column loaded.status new.status current.status
    urgency := column loaded.urgency new.urgency current.urgency
    updatedAt := column loaded.updatedAt new.updatedAt current.updatedAt }

/-- The foreign key of an item. -/
def checkCategory (categoryId : Uuid) : Prog ProjectionDb Error Unit := do
  match ← selectKey ProjectionDb.categoriesT categoryId with
  | none => .raise (.integrityError "analytics_inventory_items_category_id_fkey")
  | some _ => return ()

/-! ## Upserts -/

/-- `_upsert_category`, with what it leaves to the flush. -/
def upsertCategory (tenantId categoryId : Uuid) (name : String) (description : Option String)
    (unit : String) (isActive : Bool) (updatedAt : Time) : Prog ProjectionDb Error Unit := do
  match ← selectKey ProjectionDb.categoriesT categoryId with
  | none =>
      add ProjectionDb.categoriesT categoryId
        (categoryRow tenantId name description unit isActive updatedAt)
        "analytics_categories_pkey"
  | some row =>
      let new := categoryRow row.tenantId name description unit isActive updatedAt
      if isStale row.updatedAt (some updatedAt) then return ()
      else if new = row then return ()
      else save ProjectionDb.categoriesT mergeCategory categoryId row new

/-- `_upsert_inventory`. -/
def upsertInventory (itemId : Uuid) (payload : InventoryProjection) :
    Prog ProjectionDb Error Unit := do
  match ← selectKey ProjectionDb.itemsT itemId with
  | none =>
      if ¬ payload.Fits then .raise .dataError
      else do
        add ProjectionDb.itemsT itemId payload "analytics_inventory_items_pkey"
        checkCategory payload.categoryId
  | some row =>
      if isStale row.updatedAt payload.updatedAt then return ()
      else if payload = row then return ()
      else if ¬ payload.Fits then .raise .dataError
      else do
        save ProjectionDb.itemsT mergeItem itemId row payload
        if payload.categoryId = row.categoryId then return ()
        else checkCategory payload.categoryId

/-- `_upsert_request`. -/
def upsertRequest (data : RequestData) (tenantId : Uuid) : Prog ProjectionDb Error Unit := do
  let payload := data.row tenantId
  match ← selectKey ProjectionDb.requestsT data.requestId with
  | none =>
      if ¬ FitsInteger payload.quantityNeeded then .raise .dataError
      else add ProjectionDb.requestsT data.requestId payload "analytics_requests_pkey"
  | some row =>
      if isStale row.updatedAt data.updatedAt then return ()
      else if payload = row then return ()
      else if ¬ FitsInteger payload.quantityNeeded then .raise .dataError
      else save ProjectionDb.requestsT mergeRequest data.requestId row payload

/-! ## The handler -/

def applyCategory (tenantId : Uuid) (data : Message) : Prog ProjectionDb Error Unit :=
  match data with
  | .resourceCategory categoryId name description unit isActive updatedAt =>
      upsertCategory tenantId categoryId name description unit isActive updatedAt
  | _ => .raise .keyError

def applyInventory (tenantId : Uuid) (data : Message) : Prog ProjectionDb Error Unit :=
  match data with
  | .itemUpdated itemId categoryId name total reserved available status updatedAt =>
      upsertInventory itemId
        (inventoryRow tenantId categoryId name total reserved available status updatedAt)
  | _ => .raise .keyError

def applyRequest (tenantId : Uuid) (data : Message) : Prog ProjectionDb Error Unit :=
  match requestData? data with
  | some data => upsertRequest data tenantId
  | none => .raise .keyError

/-- What `_handle` does with the data. -/
def dispatch (tenantId : Uuid) (event : Envelope Message) : Prog ProjectionDb Error Unit :=
  if event.eventType ∈ ["logistics.resource-category.created",
      "logistics.resource-category.updated"] then applyCategory tenantId event.data
  else if event.eventType = "logistics.inventory.item-updated" then
    applyInventory tenantId event.data
  else if event.eventType = "logistics.request.submitted" then applyRequest tenantId event.data
  else if event.eventType = "logistics.request.status-changed" then
    applyRequest tenantId event.data
  else return ()

/-- `_handle`.  An envelope without a tenant is no UUID. -/
def handle (event : Envelope Message) : Prog ProjectionDb Error Unit :=
  match event.tenantId with
  | none => .raise .typeError
  | some tenantId =>
      checked ProjectionDb.processedT event.eventId event.eventType
        (.integrityError "processed_events_pkey") (dispatch tenantId event) ()

end Transaction

/-! ## The tables of the database -/

inductive DbTable
  | categories
  | items
  | requests
  | processed
  deriving DecidableEq

@[reducible] def DbTable.Row : DbTable → Type
  | categories => CategoryProjection
  | items => InventoryProjection
  | requests => RequestProjection
  | processed => String

@[reducible] def family : Family ProjectionDb DbTable where
  Row := DbTable.Row
  table
    | .categories => ProjectionDb.categoriesT
    | .items => ProjectionDb.itemsT
    | .requests => ProjectionDb.requestsT
    | .processed => ProjectionDb.processedT
  get_set_self i _ _ := by cases i <;> rfl
  get_set_ne i j _ _ h := by cases i <;> cases j <;> first | rfl | exact absurd rfl h
  get_commit i _ _ := by cases i <;> rfl
  get_rollback i _ _ := by cases i <;> rfl

/-! ## Effectively once -/

namespace Transaction

open Family

section Tables

variable {i : DbTable} (hi : DbTable.processed ≠ i)

include hi

end Tables

end Transaction
end Analytics
end Rcp
