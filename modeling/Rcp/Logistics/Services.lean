/-
The logistics services (`services/logistics/app/services/requests.py`,
`dispatch.py` and `inventory.py`) as transaction programs.

The session has `autoflush=False`, so a changed object is written where `flush` or
`commit` stands, and an UPDATE writes only the columns whose loaded value changed.
No request row is locked when it is read.  Stock rows are read `FOR UPDATE`.  The
routes turn the exceptions into HTTP answers, which is left out.
-/
import Rcp.Logistics.Model

namespace Rcp
namespace Logistics

open Sql

/-- The errors a form check reports, by field. -/
abbrev FormErrors := List (String × String)

inductive Error
  | valueError (text : String)
  | notFoundError (text : String)
  | conflictError (text : String)
  | formValidationError (errors : FormErrors)
  | workflowReadError (error : Workflow.ReadError)
  | httpException (code : Nat) (detail : String)
  /-- The database refuses a number that an `INTEGER` column cannot hold. -/
  | dataError
  | integrityError (constraint : String)
  | noResult

inductive Reply
  | request (id : Uuid) (row : HelpRequest)
  | task (id : Uuid) (row : DispatchTask)
  | item (id : Uuid) (row : InventoryItem)

/-- `db.refresh`. -/
def refresh {V : Type} (T : Access Db V) (k : Nat) : Prog Db Error V := do
  match ← selectKey T k with
  | none => .raise .noResult
  | some v => return v

/-- The range of an `INTEGER` column. -/
def FitsInteger (n : Int) : Prop := -2147483648 ≤ n ∧ n ≤ 2147483647

instance (n : Int) : Decidable (FitsInteger n) := inferInstanceAs (Decidable (_ ∧ _))

/-! ## Help requests -/

/-- The row of `get_category`, in the tenant of the caller. -/
def getCategory (tenantId : Option Uuid) (categoryId : Uuid) : Prog Db Error ResourceCategory := do
  match ← selectKey Db.categoriesT categoryId with
  | none => .raise (.notFoundError "Resource category not found")
  | some category =>
      if some category.tenantId = tenantId then return category
      else .raise (.notFoundError "Resource category not found")

/-- The row that `create_request` adds. -/
def newRequest (tenantId : Uuid) (principal : Principal) (data : HelpRequestCreate)
    (status : RequestStatus) (extraFields : Option Object) (now : Time) : HelpRequest :=
  { tenantId := tenantId
    requesterUserId := some principal.userId
    requesterName := data.requesterName
    requesterPhone := data.requesterPhone
    categoryId := data.categoryId
    description := data.description
    quantityNeeded := data.quantityNeeded
    urgency := data.urgency
    status := status
    extraFields := extraFields
    area := data.area
    latitude := data.latitude
    longitude := data.longitude
    isSensitive := data.isSensitive
    createdAt := now }

def submittedMessage (id : Uuid) (request : HelpRequest) : Message :=
  .requestSubmitted id request.categoryId request.urgency request.quantityNeeded request.area
    request.status request.createdAt

/-- `create_request`, over the payload check of the category's form. -/
def createRequest (validatePayload : Option (List Json) → Option Object →
      Except FormErrors (Option Object))
    (principal : Principal) (data : HelpRequestCreate) (now : Time) : Prog Db Error Reply := do
  let category ← getCategory principal.tenantId data.categoryId
  if category.isActive = false then
    .raise (.conflictError ("Resource category '" ++ category.name ++
      "' is no longer accepting requests"))
  else
    match validatePayload category.formSchema data.extraFields with
    | .error errors => .raise (.formValidationError errors)
    | .ok extraFields =>
        match Workflow.initialStatus category.workflow with
        | .error e => .raise (.workflowReadError e)
        | .ok status => do
            if ¬ FitsInteger data.quantityNeeded then .raise .dataError
            else do
              let request :=
                newRequest category.tenantId principal data status extraFields now
              let id ← insert Db.requestsT fun _ => request
              let _ ← emit Db.outboxT "logistics.request.submitted" principal.tenantId
                (submittedMessage id request)
              commit
              let request ← refresh Db.requestsT id
              return .request id request

/-- The assignments of `change_status` to the row. -/
def applyStatus (newStatus : RequestStatus) (principal : Principal) (now : Time)
    (request : HelpRequest) : HelpRequest :=
  match newStatus with
  | .verified =>
      { request with
        status := .verified
        verifiedByUserId := some principal.userId
        verifiedAt := some now }
  | .fulfilled => { request with status := .fulfilled, fulfilledAt := some now }
  | other => { request with status := other }

def statusChangedMessage (id : Uuid) (request : HelpRequest) (newStatus : RequestStatus)
    (principal : Principal) (now : Time) : Message :=
  .requestStatusChanged id request.categoryId request.quantityNeeded request.status newStatus
    request.requesterUserId principal.userId now

/-- The text of the error of `change_status`. -/
def refusedMove (current newStatus : RequestStatus) (allowed : List RequestStatus) : String :=
  let options := (allowed.map RequestStatus.value).insertionSort (· ≤ ·)
  "Cannot move request from " ++ current.value ++ " to " ++ newStatus.value ++
    "; this category allows: " ++
    ", ".intercalate (if options = [] then ["none — this state is final"] else options)

/-- `change_status` on the row the route has loaded. -/
def changeStatus (id : Uuid) (request : HelpRequest) (category : Option ResourceCategory)
    (newStatus : RequestStatus) (principal : Principal) (now : Time) : Prog Db Error Reply :=
  match Workflow.allowedNext (category.bind ResourceCategory.workflow) request.status with
  | .error e => .raise (.workflowReadError e)
  | .ok allowed =>
      if newStatus ∉ allowed then
        .raise (.valueError (refusedMove request.status newStatus allowed))
      else do
        let _ ← update Db.requestsT id (applyStatus newStatus principal now)
        let _ ← emit Db.outboxT "logistics.request.status-changed" (some request.tenantId)
          (statusChangedMessage id request newStatus principal now)
        commit
        let request ← refresh Db.requestsT id
        return .request id request

/-- The route `update_status`: `get_request`, which loads the category with the
row, and then `change_status`. -/
def updateStatus (requestId : Uuid) (newStatus : RequestStatus) (principal : Principal)
    (now : Time) : Prog Db Error Reply := do
  match ← selectKey Db.requestsT requestId with
  | none => .raise (.httpException 404 "Request not found")
  | some request =>
      if some request.tenantId ≠ principal.tenantId then
        .raise (.httpException 404 "Request not found")
      else do
        let category ← selectKey Db.categoriesT request.categoryId
        changeStatus requestId request category newStatus principal now

/-! ## Dispatch -/

/-- What the replica of the volunteer is refused for. -/
def volunteerError : Option UserReplica → Option String
  | none => none
  | some replica =>
      if replica.isActive = false then some "Volunteer is deactivated"
      else if "volunteer" ∉ replica.roles then some "User is not a volunteer"
      else none

def assignedMessage (taskId : Uuid) (request : HelpRequest) (data : DispatchTaskCreate)
    (category : Option ResourceCategory) (volunteer assigner : Option UserReplica)
    (principal : Principal) (now : Time) : Message :=
  .taskAssigned taskId data.requestId data.title data.instructions request.urgency
    request.categoryId (category.map ResourceCategory.name) request.area request.latitude
    request.longitude data.volunteerUserId (volunteer.map UserReplica.fullName)
    principal.userId (assigner.map UserReplica.fullName) now

/-- The flush of `request.status = IN_PROGRESS`, `loaded` being the value the
session has read. -/
def startProgress (requestId : Uuid) (loaded : RequestStatus) : Prog Db Error Unit :=
  if loaded = .inProgress then return ()
  else do
    let _ ← update Db.requestsT requestId fun request => { request with status := .inProgress }
    return ()

/-- The replica of the caller, which the session may have loaded as the volunteer's. -/
def assignerReplica (principal : Principal) (data : DispatchTaskCreate)
    (volunteer : Option UserReplica) : Prog Db Error (Option UserReplica) :=
  if data.volunteerUserId = principal.userId ∧ volunteer.isSome then return volunteer
  else selectKey Db.replicasT principal.userId

def assignTask (principal : Principal) (data : DispatchTaskCreate) (now : Time) :
    Prog Db Error Reply := do
  match ← selectKey Db.requestsT data.requestId with
  | none => .raise (.valueError "Request not found")
  | some request =>
      if some request.tenantId ≠ principal.tenantId then
        .raise (.valueError "Request not found")
      else if request.status ≠ .approved ∧ request.status ≠ .inProgress then
        .raise (.valueError "Request must be approved before dispatching a volunteer")
      else do
        let volunteer ← selectKey Db.replicasT data.volunteerUserId
        match volunteerError volunteer with
        | some text => .raise (.valueError text)
        | none => do
            startProgress data.requestId request.status
            let taskId ← insert Db.tasksT fun _ =>
              { tenantId := request.tenantId
                requestId := data.requestId
                volunteerUserId := data.volunteerUserId
                assignedByUserId := some principal.userId
                title := data.title
                instructions := data.instructions }
            let assigner ← assignerReplica principal data volunteer
            let category ← selectKey Db.categoriesT request.categoryId
            let _ ← emit Db.outboxT "logistics.task.assigned" principal.tenantId
              (assignedMessage taskId request data category volunteer assigner principal now)
            commit
            let task ← refresh Db.tasksT taskId
            return .task taskId task

/-! ## Stock -/

def lowStockThreshold : Int := 5

def itemMessage (id : Uuid) (item : InventoryItem) (updatedAt : Time) : Message :=
  .itemUpdated id item.categoryId item.name item.quantityTotal item.quantityReserved
    item.quantityAvailable item.status updatedAt

def addInventoryItem (tenantId : Option Uuid) (data : InventoryItemCreate) (now : Time) :
    Prog Db Error Reply :=
  match tenantId with
  | none => .raise (.integrityError "tenant_id")
  | some tenant =>
      if ¬ FitsInteger data.quantityTotal then .raise .dataError
      else do
        let item : InventoryItem :=
          { tenantId := tenant
            categoryId := data.categoryId
            name := data.name
            quantityTotal := data.quantityTotal
            createdAt := now
            updatedAt := now }
        match ← selectKey Db.categoriesT data.categoryId with
        | none => .raise (.integrityError "inventory_items_category_id_fkey")
        | some _ => do
            let id ← insert Db.itemsT fun _ => item
            let _ ← emit Db.outboxT "logistics.inventory.item-updated" tenantId
              (itemMessage id item item.createdAt)
            commit
            let item ← refresh Db.itemsT id
            return .item id item

/-- `SELECT ... WHERE id AND tenant_id FOR UPDATE`: the write of the row's own value
is its lock. -/
def lockItem (tenantId : Option Uuid) (itemId : Uuid) : Prog Db Error (Option InventoryItem) :=
  updateWhere Db.itemsT itemId (fun item => some item.tenantId == tenantId) id

/-- The assignments of `reserve_stock` to the item. -/
def reserveItem (quantity : Int) (item : InventoryItem) : InventoryItem :=
  let item := { item with quantityReserved := item.quantityReserved + quantity }
  if item.quantityAvailable = 0 then { item with status := .reserved } else item

/-- The assignments of `release_stock` to the item. -/
def releaseItem (quantity : Int) (item : InventoryItem) : InventoryItem :=
  let item := { item with quantityReserved := max 0 (item.quantityReserved - quantity) }
  if 0 < item.quantityAvailable ∧ item.status = .reserved then
    { item with status := .available }
  else item

/-- The flush of a changed item.  The UPDATE also stamps the row. -/
def flushItem (itemId : Uuid) (loaded changed : InventoryItem) (now : Time) :
    Prog Db Error Unit :=
  if changed = loaded then return ()
  else if ¬ FitsInteger changed.quantityReserved then .raise .dataError
  else do
    let _ ← update Db.itemsT itemId fun item =>
      { item with
        quantityReserved := changed.quantityReserved
        status := changed.status
        updatedAt := now }
    return ()

def emitLowStock (itemId : Uuid) (item : InventoryItem) (tenantId : Option Uuid) :
    Prog Db Error Unit :=
  if item.quantityAvailable ≤ lowStockThreshold then do
    let _ ← emit Db.outboxT "logistics.inventory.low-stock" tenantId
      (.lowStock itemId item.categoryId item.name item.quantityAvailable)
    return ()
  else return ()

def reserveStock (principal : Principal) (itemId : Uuid) (quantity : Int) (now : Time) :
    Prog Db Error Reply := do
  match ← lockItem principal.tenantId itemId with
  | none => .raise (.valueError "Inventory item not found")
  | some item =>
      if item.quantityAvailable < quantity then
        .raise (.valueError ("Only " ++ toString item.quantityAvailable ++ " available, " ++
          toString quantity ++ " requested"))
      else do
        let changed := reserveItem quantity item
        flushItem itemId item changed now
        emitLowStock itemId changed principal.tenantId
        let _ ← emit Db.outboxT "logistics.inventory.item-updated" principal.tenantId
          (itemMessage itemId changed item.updatedAt)
        commit
        let item ← refresh Db.itemsT itemId
        return .item itemId item

def releaseStock (tenantId : Option Uuid) (itemId : Uuid) (quantity : Int) (now : Time) :
    Prog Db Error Reply := do
  match ← lockItem tenantId itemId with
  | none => .raise (.valueError "Inventory item not found")
  | some item => do
      let changed := releaseItem quantity item
      flushItem itemId item changed now
      let _ ← emit Db.outboxT "logistics.inventory.item-updated" tenantId
        (itemMessage itemId changed item.updatedAt)
      commit
      let item ← refresh Db.itemsT itemId
      return .item itemId item

/-! ## Calls -/

inductive Call
  | createRequest (principal : Principal) (data : HelpRequestCreate) (now : Time)
  | updateStatus (requestId : Uuid) (newStatus : RequestStatus) (principal : Principal)
      (now : Time)
  | assignTask (principal : Principal) (data : DispatchTaskCreate) (now : Time)
  | addInventoryItem (tenantId : Option Uuid) (data : InventoryItemCreate) (now : Time)
  | reserveStock (principal : Principal) (itemId : Uuid) (quantity : Int) (now : Time)
  | releaseStock (tenantId : Option Uuid) (itemId : Uuid) (quantity : Int) (now : Time)

def Call.body (validatePayload : Option (List Json) → Option Object →
    Except FormErrors (Option Object)) : Call → Prog Db Error Reply
  | createRequest principal data now =>
      Logistics.createRequest validatePayload principal data now
  | updateStatus requestId newStatus principal now =>
      Logistics.updateStatus requestId newStatus principal now
  | assignTask principal data now => Logistics.assignTask principal data now
  | addInventoryItem tenantId data now => Logistics.addInventoryItem tenantId data now
  | reserveStock principal itemId quantity now =>
      Logistics.reserveStock principal itemId quantity now
  | releaseStock tenantId itemId quantity now =>
      Logistics.releaseStock tenantId itemId quantity now

end Logistics
end Rcp
