/-
The tables of the logistics service (`services/logistics/app/models`) and the data
it receives.

Left out are the columns that no modelled function reads: an item's expiry date,
storage and donor, a task's later stamps, and the `created_at` and `updated_at` stamps
that no event carries.
-/
import Rcp.Common.Outbox
import Rcp.Logistics.Workflow

namespace Rcp
namespace Logistics

open Sql

inductive UrgencyLevel
  | low
  | medium
  | high
  | critical
  deriving DecidableEq, Repr

def UrgencyLevel.value : UrgencyLevel → String
  | low => "low"
  | medium => "medium"
  | high => "high"
  | critical => "critical"

inductive InventoryStatus
  | available
  | reserved
  | depleted
  | expired
  deriving DecidableEq, Repr

def InventoryStatus.value : InventoryStatus → String
  | available => "available"
  | reserved => "reserved"
  | depleted => "depleted"
  | expired => "expired"

inductive TaskStatus
  | assigned
  | accepted
  | inProgress
  | completed
  | declined
  | cancelled
  deriving DecidableEq, Repr

/-- A category and its approval flow, which was validated before it was written. -/
structure ResourceCategory where
  tenantId : Uuid
  name : String
  description : Option String := none
  unit : String := "unit"
  formSchema : Option (List Json)
  workflow : Option Object
  isActive : Bool := true
  updatedAt : Time
  accepted : Workflow.Accepted workflow

structure InventoryItem where
  tenantId : Uuid
  categoryId : Uuid
  name : String
  quantityTotal : Int
  quantityReserved : Int := 0
  status : InventoryStatus := .available
  createdAt : Time
  updatedAt : Time
  deriving DecidableEq

def InventoryItem.quantityAvailable (item : InventoryItem) : Int :=
  item.quantityTotal - item.quantityReserved

structure HelpRequest where
  tenantId : Uuid
  requesterUserId : Option Uuid
  verifiedByUserId : Option Uuid := none
  requesterName : Option String
  requesterPhone : Option String
  categoryId : Uuid
  description : String
  quantityNeeded : Int
  urgency : UrgencyLevel
  status : RequestStatus
  extraFields : Option Object
  area : Option String
  latitude : Option PyFloat
  longitude : Option PyFloat
  isSensitive : Bool
  verifiedAt : Option Time := none
  fulfilledAt : Option Time := none
  createdAt : Time

structure DispatchTask where
  tenantId : Uuid
  requestId : Uuid
  volunteerUserId : Uuid
  assignedByUserId : Option Uuid
  title : String
  instructions : Option String
  status : TaskStatus := .assigned

inductive PaymentStatus
  | pending
  | success
  | failed
  deriving DecidableEq, Repr

structure PaymentDonation where
  tenantId : Uuid
  donorUserId : Uuid
  categoryId : Uuid
  amount : PyFloat
  currency : String := "LKR"
  payhereOrderId : String
  status : PaymentStatus := .pending
  quantity : Int := 1

/-- The replica of an IAM user, under the user's id. -/
structure UserReplica where
  tenantId : Option Uuid
  fullName : String
  phone : Option String
  roles : List String
  isActive : Bool
  sourceUpdatedAt : Time
  deriving DecidableEq

/-- The data part of the events this service emits. -/
inductive Message
  | requestSubmitted (requestId categoryId : Uuid) (urgency : UrgencyLevel)
      (quantityNeeded : Int) (area : Option String) (status : RequestStatus) (updatedAt : Time)
  | requestStatusChanged (requestId categoryId : Uuid) (quantityNeeded : Int)
      (oldStatus newStatus : RequestStatus) (requesterUserId : Option Uuid)
      (changedByUserId : Uuid) (updatedAt : Time)
  | taskAssigned (taskId requestId : Uuid) (title : String) (instructions : Option String)
      (priority : UrgencyLevel) (categoryId : Uuid) (categoryName area : Option String)
      (latitude longitude : Option PyFloat) (volunteerUserId : Uuid)
      (volunteerName : Option String) (assignedBy : Uuid) (assignedByName : Option String)
      (assignedAt : Time)
  | itemUpdated (itemId categoryId : Uuid) (name : String)
      (quantityTotal quantityReserved quantityAvailable : Int) (status : InventoryStatus)
      (updatedAt : Time)
  | lowStock (itemId categoryId : Uuid) (name : String) (quantityAvailable : Int)
  /-- Sent when a category is created and when it is updated. -/
  | resourceCategory (categoryId : Uuid) (name : String) (description : Option String)
      (unit : String) (isActive : Bool) (updatedAt : Time)
  deriving DecidableEq

/-- The request an event is about. -/
def Message.request? : Message → Option Uuid
  | requestSubmitted requestId .. => some requestId
  | requestStatusChanged requestId .. => some requestId
  | taskAssigned _ requestId .. => some requestId
  | itemUpdated .. => none
  | lowStock .. => none
  | resourceCategory .. => none

/-- The task an event is about. -/
def Message.task? : Message → Option Uuid
  | taskAssigned taskId .. => some taskId
  | requestSubmitted .. | requestStatusChanged .. | itemUpdated .. | lowStock ..
  | resourceCategory .. => none

/-- The volunteer an event names. -/
def Message.volunteer? : Message → Option Uuid
  | taskAssigned _ _ _ _ _ _ _ _ _ _ volunteerUserId .. => some volunteerUserId
  | requestSubmitted .. | requestStatusChanged .. | itemUpdated .. | lowStock ..
  | resourceCategory .. => none

/-- The change of status that an event announces for request `r`. -/
def Message.statusChange? (r : Uuid) : Message → Option (RequestStatus × RequestStatus)
  | requestStatusChanged requestId _ _ oldStatus newStatus .. =>
      if requestId = r then some (oldStatus, newStatus) else none
  | _ => none

structure Db where
  categories : Table ResourceCategory
  items : Table InventoryItem
  requests : Table HelpRequest
  tasks : Table DispatchTask
  payments : Table PaymentDonation
  replicas : Table UserReplica
  outbox : Table (Outbox Message)
  /-- The handled event ids. -/
  processed : Table Unit

namespace Db

def categoriesT : Access Db ResourceCategory :=
  { get := Db.categories, set := fun s T => { s with categories := T } }

def itemsT : Access Db InventoryItem :=
  { get := Db.items, set := fun s T => { s with items := T } }

def requestsT : Access Db HelpRequest :=
  { get := Db.requests, set := fun s T => { s with requests := T } }

def tasksT : Access Db DispatchTask :=
  { get := Db.tasks, set := fun s T => { s with tasks := T } }

def paymentsT : Access Db PaymentDonation :=
  { get := Db.payments, set := fun s T => { s with payments := T } }

def replicasT : Access Db UserReplica :=
  { get := Db.replicas, set := fun s T => { s with replicas := T } }

def outboxT : Access Db (Outbox Message) :=
  { get := Db.outbox, set := fun s T => { s with outbox := T } }

def processedT : Access Db Unit :=
  { get := Db.processed, set := fun s T => { s with processed := T } }

instance : Transactional Db where
  commit t s :=
    { categories := s.categories.commit t
      items := s.items.commit t
      requests := s.requests.commit t
      tasks := s.tasks.commit t
      payments := s.payments.commit t
      replicas := s.replicas.commit t
      outbox := s.outbox.commit t
      processed := s.processed.commit t }
  rollback t s :=
    { categories := s.categories.rollback t
      items := s.items.rollback t
      requests := s.requests.rollback t
      tasks := s.tasks.rollback t
      payments := s.payments.rollback t
      replicas := s.replicas.rollback t
      outbox := s.outbox.rollback t
      processed := s.processed.rollback t }

/-- A database that holds categories and user replicas and nothing else. -/
def initial (categories : List ResourceCategory) (replicas : List UserReplica) : Db :=
  { categories := .ofList categories
    items := .empty
    requests := .empty
    tasks := .empty
    payments := .empty
    replicas := .ofList replicas
    outbox := .empty
    processed := .empty }

end Db

/-- The caller.  Global actors have no tenant. -/
structure Principal where
  userId : Uuid
  tenantId : Option Uuid

/-- `HelpRequestCreate` after validation. -/
structure HelpRequestCreate where
  categoryId : Uuid
  description : String
  quantityNeeded : Int := 1
  urgency : UrgencyLevel := .medium
  requesterName : Option String := none
  requesterPhone : Option String := none
  area : Option String := none
  latitude : Option PyFloat := none
  longitude : Option PyFloat := none
  isSensitive : Bool := false
  extraFields : Option Object := none
  quantity_pos : 1 ≤ quantityNeeded

structure PaymentCheckoutRequest where
  tenantId : Uuid
  categoryId : Uuid
  amount : PyFloat
  quantity : Int

structure DispatchTaskCreate where
  requestId : Uuid
  volunteerUserId : Uuid
  title : String
  instructions : Option String := none

/-- `InventoryItemCreate` after validation. -/
structure InventoryItemCreate where
  categoryId : Uuid
  name : String
  quantityTotal : Int
  quantity_nonneg : 0 ≤ quantityTotal

end Logistics
end Rcp
