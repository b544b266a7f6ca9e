/-
The committed rows of the logistics service, and the commits of its calls.

`Commit strict a w W` says that call `a` may publish the writes `W` over the rows
`w`.  A request row is read without a lock, so a status change may be checked on an
outdated row `loaded`; under `strict` the status it was checked on is still the
committed one.
-/
import Rcp.Sql.Solo
import Rcp.Sql.Tables
import Rcp.Logistics.Services

namespace Rcp
namespace Logistics

open Sql Sql.Table

structure Rows where
  categories : Nat → Option ResourceCategory
  replicas : Nat → Option UserReplica
  items : Nat → Option InventoryItem
  requests : Nat → Option HelpRequest
  outbox : Nat → Option (Outbox Message)

namespace Rows

def overlay (W w : Rows) : Rows :=
  { categories := fun k => (W.categories k).or (w.categories k)
    replicas := fun k => (W.replicas k).or (w.replicas k)
    items := fun k => (W.items k).or (w.items k)
    requests := fun k => (W.requests k).or (w.requests k)
    outbox := fun k => (W.outbox k).or (w.outbox k) }

def nothing : Rows :=
  { categories := noRows
    replicas := noRows
    items := noRows
    requests := noRows
    outbox := noRows }

/-- A write set that leaves the categories and the replicas. -/
def writing (I : Nat → Option InventoryItem) (R : Nat → Option HelpRequest)
    (O : Nat → Option (Outbox Message)) : Rows :=
  { categories := noRows, replicas := noRows, items := I, requests := R, outbox := O }

/-- The workflow of a request: that of its category. -/
def workflowOf (w : Rows) (request : HelpRequest) : Option Object :=
  (w.categories request.categoryId).bind ResourceCategory.workflow

theorem workflowOf_congr (w : Rows) {request other : HelpRequest}
    (h : request.categoryId = other.categoryId) : w.workflowOf request = w.workflowOf other := by
  unfold workflowOf
  rw [h]

theorem workflowOf_accepted (w : Rows) (request : HelpRequest) :
    Workflow.Accepted (w.workflowOf request) := by
  unfold workflowOf
  cases w.categories request.categoryId with
  | none => exact Workflow.accepted_none
  | some category => exact category.accepted

end Rows

/-! ## The tables -/

def Db.rows (s : Db) : Rows :=
  { categories := s.categories.committed
    replicas := s.replicas.committed
    items := s.items.committed
    requests := s.requests.committed
    outbox := s.outbox.committed }

inductive Tab
  | categories
  | replicas
  | items
  | requests
  | outbox
  deriving DecidableEq

@[reducible] def Tab.Row : Tab → Type
  | categories => ResourceCategory
  | replicas => UserReplica
  | items => InventoryItem
  | requests => HelpRequest
  | outbox => Outbox Message

@[reducible] def tables : Tables Db Rows Tab where
  Row := Tab.Row
  table
    | .categories => Db.categoriesT
    | .replicas => Db.replicasT
    | .items => Db.itemsT
    | .requests => Db.requestsT
    | .outbox => Db.outboxT
  part
    | .categories => Rows.categories
    | .replicas => Rows.replicas
    | .items => Rows.items
    | .requests => Rows.requests
    | .outbox => Rows.outbox
  build f :=
    { categories := f .categories
      replicas := f .replicas
      items := f .items
      requests := f .requests
      outbox := f .outbox }
  put
    | .categories, C, w => { w with categories := C }
    | .replicas, U, w => { w with replicas := U }
    | .items, I, w => { w with items := I }
    | .requests, R, w => { w with requests := R }
    | .outbox, O, w => { w with outbox := O }
  ext w w' h := by
    have hC : w.categories = w'.categories := h .categories
    have hU : w.replicas = w'.replicas := h .replicas
    have hI : w.items = w'.items := h .items
    have hR : w.requests = w'.requests := h .requests
    have hO : w.outbox = w'.outbox := h .outbox
    cases w
    simp only at hC hU hI hR hO
    rw [hC, hU, hI, hR, hO]
  part_build i _ := by cases i <;> rfl
  part_put_self i _ _ := by cases i <;> rfl
  part_put_ne i j _ _ h := by cases i <;> cases j <;> first | rfl | exact absurd rfl h
  get_set_self i _ _ := by cases i <;> rfl
  get_set_ne i j _ _ h := by cases i <;> cases j <;> first | rfl | exact absurd rfl h
  get_commit i _ _ := by cases i <;> rfl
  get_rollback i _ _ := by cases i <;> rfl

abbrev schema : Schema Db Rows := tables.schema

namespace Column

def categories : Column schema ResourceCategory := tables.column .categories

def replicas : Column schema UserReplica := tables.column .replicas

def items : Column schema InventoryItem := tables.column .items

def requests : Column schema HelpRequest := tables.column .requests

def outbox : Column schema (Outbox Message) := tables.column .outbox

end Column

/-! ## Commits -/

/-- The row after the flush of a changed item. -/
def stamped (item changed : InventoryItem) (now : Time) : InventoryItem :=
  if changed = item then item else { changed with updatedAt := now }

/-- Call `a` turns the stock of item `k` from `item` into `changed`. -/
inductive StockCall : Call → Nat → InventoryItem → InventoryItem → Time → Prop
  | reserved {principal : Principal} {k : Nat} {quantity : Int} {now : Time} {item : InventoryItem}
      (h : quantity ≤ item.quantityAvailable) :
      StockCall (.reserveStock principal k quantity now) k item (reserveItem quantity item) now
  | released {tenantId : Option Uuid} {k : Nat} {quantity : Int} {now : Time}
      {item : InventoryItem} :
      StockCall (.releaseStock tenantId k quantity now) k item (releaseItem quantity item) now

/-- What an event says of the stock of an item. -/
def Message.Reports (k : Nat) (item : InventoryItem) : Message → Prop
  | itemUpdated id _ _ total reserved available _ _ =>
      id = k ∧ total = item.quantityTotal ∧ reserved = item.quantityReserved ∧
        available = item.quantityAvailable
  | lowStock id _ _ available => id = k ∧ available = item.quantityAvailable
  | requestSubmitted .. | requestStatusChanged .. | taskAssigned .. | resourceCategory .. => False

/-- New outbox rows that report the stock of an item. -/
def Reported (w : Rows) (k : Nat) (item : InventoryItem) (O : Nat → Option (Outbox Message)) :
    Prop :=
  ∀ o row, O o = some row → w.outbox o = none ∧ row.payload.data.Reports k item

inductive Commit (strict : Prop) : Call → Rows → Rows → Prop
  | submitted {principal : Principal} {data : HelpRequestCreate} {now : Time} {w : Rows}
      {category : ResourceCategory} {status : RequestStatus} {extraFields : Option Object}
      {r o : Nat} (hcategory : w.categories data.categoryId = some category)
      (hstatus : Workflow.initialStatus category.workflow = .ok status)
      (hr : w.requests r = none) (ho : w.outbox o = none) :
      Commit strict (.createRequest principal data now) w (.writing noRows
        (single r (newRequest category.tenantId principal data status extraFields now))
        (single o (outboxRow "logistics.request.submitted" principal.tenantId
          (submittedMessage r
            (newRequest category.tenantId principal data status extraFields now)) o)))
  | moved {r o : Nat} {loaded request : HelpRequest} {newStatus : RequestStatus}
      {principal : Principal} {now : Time} {w : Rows} {allowed : List RequestStatus}
      (hallowed : Workflow.allowedNext (w.workflowOf loaded) loaded.status = .ok allowed)
      (hnew : newStatus ∈ allowed) (hr : w.requests r = some request)
      (hcategory : request.categoryId = loaded.categoryId)
      (hstrict : strict → request.status = loaded.status) (ho : w.outbox o = none) :
      Commit strict (.updateStatus r newStatus principal now) w (.writing noRows
        (single r (applyStatus newStatus principal now request))
        (single o (outboxRow "logistics.request.status-changed" (some loaded.tenantId)
          (statusChangedMessage r loaded newStatus principal now) o)))
  | started {principal : Principal} {data : DispatchTaskCreate} {now : Time} {w : Rows} {o : Nat}
      {request : HelpRequest} {row : Outbox Message}
      (hr : w.requests data.requestId = some request)
      (htenant : some request.tenantId = principal.tenantId)
      (hvolunteer : volunteerError (w.replicas data.volunteerUserId) = none)
      (hstrict : strict → request.status = .approved) (ho : w.outbox o = none)
      (hrow : row.payload.data.request? = some data.requestId)
      (hassigned : ∀ r, row.payload.data.statusChange? r = none) :
      Commit strict (.assignTask principal data now) w (.writing noRows
        (single data.requestId { request with status := .inProgress }) (single o row))
  | joined {principal : Principal} {data : DispatchTaskCreate} {now : Time} {w : Rows} {o : Nat}
      {request : HelpRequest} {row : Outbox Message}
      (hr : w.requests data.requestId = some request)
      (hstrict : strict → request.status = .inProgress) (ho : w.outbox o = none)
      (hrow : row.payload.data.request? = some data.requestId)
      (hassigned : ∀ r, row.payload.data.statusChange? r = none) :
      Commit strict (.assignTask principal data now) w (.writing noRows noRows (single o row))
  | added {tenantId : Option Uuid} {data : InventoryItemCreate} {now : Time} {w : Rows}
      {item : InventoryItem} {k : Nat} {O : Nat → Option (Outbox Message)}
      (htotal : item.quantityTotal = data.quantityTotal) (hreserved : item.quantityReserved = 0)
      (hk : w.items k = none) (hO : Reported w k item O) :
      Commit strict (.addInventoryItem tenantId data now) w (.writing (single k item) noRows O)
  | stocked {a : Call} {k : Nat} {item changed : InventoryItem} {now : Time} {w : Rows}
      {O : Nat → Option (Outbox Message)} (ha : StockCall a k item changed now)
      (hk : w.items k = some item) (hO : Reported w k changed O) :
      Commit strict a w (.writing (single k (stamped item changed now)) noRows O)

@[reducible] def policy (strict : Prop) : Policy Rows Call where
  Commit := Commit strict
  WellFormed _ := True

theorem policy_lawful (strict : Prop) : (policy strict).Lawful schema := fun _ _ _ _ _ => trivial

section Facts

variable {strict : Prop} {a : Call} {w W : Rows}

/-- No call writes categories or replicas. -/
theorem Commit.fixed (h : Commit strict a w W) : W.categories = noRows ∧ W.replicas = noRows := by
  cases h <;> exact ⟨rfl, rfl⟩

theorem Commit.over_categories (h : Commit strict a w W) :
    (W.overlay w).categories = w.categories := by
  simp [Rows.overlay, h.fixed.1]

@[simp] theorem applyStatus_status (newStatus : RequestStatus) (principal : Principal)
    (now : Time) (request : HelpRequest) :
    (applyStatus newStatus principal now request).status = newStatus := by
  cases newStatus <;> rfl

@[simp] theorem applyStatus_categoryId (newStatus : RequestStatus) (principal : Principal)
    (now : Time) (request : HelpRequest) :
    (applyStatus newStatus principal now request).categoryId = request.categoryId := by
  cases newStatus <;> rfl

@[simp] theorem applyStatus_tenantId (newStatus : RequestStatus) (principal : Principal)
    (now : Time) (request : HelpRequest) :
    (applyStatus newStatus principal now request).tenantId = request.tenantId := by
  cases newStatus <;> rfl

/-! ### Stock -/

theorem reserveItem_columns (quantity : Int) (item : InventoryItem) :
    { item with
      quantityReserved := (reserveItem quantity item).quantityReserved
      status := (reserveItem quantity item).status } = reserveItem quantity item := by
  simp only [reserveItem]
  split <;> rfl

theorem releaseItem_columns (quantity : Int) (item : InventoryItem) :
    { item with
      quantityReserved := (releaseItem quantity item).quantityReserved
      status := (releaseItem quantity item).status } = releaseItem quantity item := by
  simp only [releaseItem]
  split <;> rfl

theorem StockCall.columns {k : Nat} {item changed : InventoryItem} {now : Time}
    (h : StockCall a k item changed now) :
    { item with
      quantityReserved := changed.quantityReserved
      status := changed.status } = changed := by
  cases h with
  | reserved => exact reserveItem_columns _ item
  | released => exact releaseItem_columns _ item

theorem reported_nothing (w : Rows) (k : Nat) (item : InventoryItem) :
    Reported w k item noRows := by
  intro o row ho
  cases ho

theorem itemMessage_reports (k : Nat) (item : InventoryItem) (updatedAt : Time) :
    (itemMessage k item updatedAt).Reports k item := ⟨rfl, rfl, rfl, rfl⟩

theorem Reported.emit {k o : Nat} {item : InventoryItem} {O : Nat → Option (Outbox Message)}
    (h : Reported w k item O) (ho : w.outbox o = none) {m : Message} (hm : m.Reports k item)
    (routingKey : String) (tenantId : Option Uuid) :
    Reported w k item (Function.update O o (some (outboxRow routingKey tenantId m o))) := by
  intro o' row' ho'
  rw [Function.update_apply] at ho'
  split at ho'
  · rename_i heq
    cases ho'
    rw [heq]
    exact ⟨ho, hm⟩
  · exact h o' row' ho'

end Facts

end Logistics
end Rcp
