/-
The analytics consumer on the events as they come over the wire
(`services/analytics/app/events/consumer.py`).

The handler takes the dict of `json.loads` apart key by key, with a default where a key may be
missing.  On what the logistics service writes it does what the handler of the typed messages
does.
-/
import Rcp.Analytics.Consumer
import Rcp.Common.Wire
import Rcp.Logistics.Contracts

namespace Rcp
namespace Analytics
namespace Wire

open Rcp.Wire
open Logistics (Message)

variable (codec : Codec)

/-- `value.replace("Z", "+00:00")`. -/
def replaceZ (s : String) : String :=
  String.ofList (s.toList.flatMap fun c => if c = 'Z' then "+00:00".toList else [c])

/-- `_parse_dt`. -/
def parseDt : Json → Option Time
  | .str s => if s = "" then none else codec.fromisoformat (replaceZ s)
  | _ => none

/-- The values that `_upsert_category` writes. -/
def categoryValues (data : Object) (tenantId : Uuid) : Except Raised CategoryProjection := do
  let name ← textColumn (← item data "name")
  let description ← optionalTextColumn (getD data "description" .null)
  let unit ← textColumn (getD data "unit" (.str "unit"))
  return {
    tenantId := tenantId
    name := name
    description := description
    unit := unit
    isActive := truth (getD data "is_active" (.bool true))
    updatedAt := parseDt codec (getD data "updated_at" .null) }

def storeCategory (categoryId : Uuid) (row : CategoryProjection) (rows : Projections) :
    Projections :=
  { rows with categories := Function.update rows.categories categoryId (some row) }

/-- `_upsert_category`. -/
def upsertCategory (data : Object) (tenantId : Uuid) (rows : Projections) :
    Except Raised Projections := do
  let categoryId ← codec.uuidOf (← item data "category_id")
  match rows.categories categoryId with
  | none => return storeCategory categoryId (← categoryValues codec data tenantId) rows
  | some row =>
      if isStale row.updatedAt (parseDt codec (getD data "updated_at" .null)) then return rows
      else return storeCategory categoryId (← categoryValues codec data row.tenantId) rows

/-- The `payload` of `_upsert_inventory`. -/
def inventoryValues (data : Object) (tenantId : Uuid) : Except Raised InventoryProjection := do
  let categoryId ← codec.uuidOf (← item data "category_id")
  let name ← textColumn (← item data "name")
  let total ← codec.intOf (getD data "quantity_total" (.int 0))
  let reserved ← codec.intOf (getD data "quantity_reserved" (.int 0))
  let available ← codec.intOf (getD data "quantity_available" (.int 0))
  let status ← textColumn (getD data "status" (.str "available"))
  return {
    tenantId := tenantId
    categoryId := categoryId
    name := name
    quantityTotal := total
    quantityReserved := reserved
    quantityAvailable := available
    status := status
    updatedAt := parseDt codec (getD data "updated_at" .null) }

/-- The database refuses the row. -/
def refused {α ε : Type} : Except ε α → Except Raised α
  | .ok a => .ok a
  | .error _ => .error .databaseError

/-- `_upsert_inventory`. -/
def upsertInventory (data : Object) (tenantId : Uuid) (rows : Projections) :
    Except Raised Projections := do
  let itemId ← codec.uuidOf (← item data "item_id")
  match rows.items itemId with
  | none => refused (flushInventory itemId (← inventoryValues codec data tenantId) rows)
  | some row =>
      if isStale row.updatedAt (parseDt codec (getD data "updated_at" .null)) then return rows
      else refused (flushInventory itemId (← inventoryValues codec data tenantId) rows)

/-- The `payload` of `_upsert_request`. -/
def requestValues (data : Object) (tenantId : Uuid) : Except Raised RequestProjection := do
  let categoryId ← codec.uuidOf (← item data "category_id")
  let quantityNeeded ← codec.intOf (getD data "quantity_needed" (.int 0))
  let status ← textColumn (getD data "status" (.str "pending"))
  let urgency ← textColumn (getD data "urgency" (.str "medium"))
  return {
    tenantId := tenantId
    categoryId := categoryId
    quantityNeeded := quantityNeeded
    status := status
    urgency := urgency
    updatedAt := parseDt codec (getD data "updated_at" .null) }

/-- `_upsert_request`. -/
def upsertRequest (data : Object) (tenantId : Uuid) (rows : Projections) :
    Except Raised Projections := do
  let requestId ← codec.uuidOf (← item data "request_id")
  match rows.requests requestId with
  | none => refused (flushRequest requestId (← requestValues codec data tenantId) rows)
  | some row =>
      if isStale row.updatedAt (parseDt codec (getD data "updated_at" .null)) then return rows
      else refused (flushRequest requestId (← requestValues codec data tenantId) rows)

/-- The branches of `_handle`. -/
def applyEvent (eventType : String) (tenantId : Uuid) (data : Object) (rows : Projections) :
    Except Raised Projections :=
  if eventType ∈ ["logistics.resource-category.created",
      "logistics.resource-category.updated"] then upsertCategory codec data tenantId rows
  else if eventType = "logistics.inventory.item-updated" then
    upsertInventory codec data tenantId rows
  else if eventType = "logistics.request.submitted" then upsertRequest codec data tenantId rows
  else if eventType = "logistics.request.status-changed" then
    upsertRequest codec data tenantId rows
  else .ok rows

/-- What `_handle` does for an event it has not seen.  An event type that is no text reaches no
branch, and the database refuses it. -/
def perform (eventId : Uuid) (eventType : Json) (tenantId : Uuid) (data : Object)
    (s : Inbox Projections) : Except Raised (Inbox Projections) :=
  match eventType with
  | .str eventType => do
      let rows ← applyEvent codec eventType tenantId data s.rows
      return { rows := rows, processed := eventId :: s.processed }
  | _ => .error .databaseError

/-- `_handle`. -/
def handle (envelope : Object) (s : Inbox Projections) : Except Raised (Inbox Projections) := do
  let eventId ← codec.uuidOf (← item envelope "event_id")
  let eventType ← item envelope "event_type"
  let tenantId ← codec.uuidOf (← item envelope "tenant_id")
  let data ← item envelope "data"
  if eventId ∈ s.processed then return s
  else perform codec eventId eventType tenantId (keysOf data) s

/-- The consumer after one more message. -/
def deliver : Inbox Projections → Object → Inbox Projections := onMessage (handle codec)

/-! ## What is read -/

section Reading

variable {codec}

@[simp] theorem parseDt_isoformat (t : Time) :
    parseDt codec (.str (codec.isoformat t)) = some t := by
  have hkept : replaceZ (codec.isoformat t) = codec.isoformat t := by
    unfold replaceZ
    have hchars : ∀ cs : List Char, 'Z' ∉ cs →
        (cs.flatMap fun c => if c = 'Z' then "+00:00".toList else [c]) = cs := by
      intro cs hcs
      induction cs with
      | nil => rfl
      | cons c rest ih =>
          obtain ⟨hc, hrest⟩ := not_or.mp fun h => hcs (List.mem_cons.mpr h)
          rw [List.flatMap_cons, if_neg (Ne.symm hc), ih hrest]
          rfl
    rw [hchars _ (codec.isoformat_no_Z t), String.ofList_toList]
  simp [parseDt, codec.isoformat_ne_empty, hkept, codec.fromisoformat_isoformat]

section Entries

variable {entries : Object} {tenantId : Uuid} {rows : Projections}

theorem parseDt_entry {updatedAt : Time}
    (h : entries.get? "updated_at" = some (.str (codec.isoformat updatedAt))) :
    parseDt codec (getD entries "updated_at" .null) = some updatedAt := by
  rw [getD_of_get? h, parseDt_isoformat]

theorem upsertCategory_entries {categoryId : Uuid} {name unit : String}
    {description : Option String} {isActive : Bool} {updatedAt : Time}
    (hid : entries.get? "category_id" = some (.str (codec.uuid categoryId)))
    (hname : entries.get? "name" = some (.str name))
    (hdescription : entries.get? "description" = some (Contracts.optionalText description))
    (hunit : entries.get? "unit" = some (.str unit))
    (hactive : entries.get? "is_active" = some (.bool isActive))
    (hupdated : entries.get? "updated_at" = some (.str (codec.isoformat updatedAt))) :
    upsertCategory codec entries tenantId rows =
      .ok (Analytics.upsertCategory tenantId categoryId name description unit isActive updatedAt
        rows) := by
  have hvalues : ∀ tenantId, categoryValues codec entries tenantId =
      .ok (categoryRow tenantId name description unit isActive updatedAt) := by
    intro tenantId
    unfold categoryValues
    simp only [item_of_get? hname, getD_of_get? hdescription, getD_of_get? hunit,
      getD_of_get? hactive, parseDt_entry hupdated, ok_bind, textColumn,
      optionalTextColumn_optionalText]
    rfl
  unfold upsertCategory Analytics.upsertCategory
  simp only [item_of_get? hid, parseDt_entry hupdated, ok_bind, uuidOf_uuid]
  cases rows.categories categoryId with
  | none => simp only [hvalues, ok_bind, pure_eq_ok, storeCategory]
  | some row =>
      simp only [hvalues, ok_bind, pure_eq_ok, storeCategory]
      split <;> rfl

theorem refused_ok_iff {α ε : Type} {out : Except ε α} :
    (refused out).toOption = out.toOption := by
  cases out <;> rfl

theorem upsertInventory_entries {itemId categoryId : Uuid} {name : String}
    {total reserved available : Int} {status : Logistics.InventoryStatus} {updatedAt : Time}
    (hid : entries.get? "item_id" = some (.str (codec.uuid itemId)))
    (hcategory : entries.get? "category_id" = some (.str (codec.uuid categoryId)))
    (hname : entries.get? "name" = some (.str name))
    (htotal : entries.get? "quantity_total" = some (.int total))
    (hreserved : entries.get? "quantity_reserved" = some (.int reserved))
    (havailable : entries.get? "quantity_available" = some (.int available))
    (hstatus : entries.get? "status" = some (.str status.value))
    (hupdated : entries.get? "updated_at" = some (.str (codec.isoformat updatedAt))) :
    (upsertInventory codec entries tenantId rows).toOption =
      (Analytics.upsertInventory itemId
        (inventoryRow tenantId categoryId name total reserved available status updatedAt)
        rows).toOption := by
  have hvalues : inventoryValues codec entries tenantId =
      .ok (inventoryRow tenantId categoryId name total reserved available status updatedAt) := by
    unfold inventoryValues
    simp only [item_of_get? hcategory, item_of_get? hname, getD_of_get? htotal,
      getD_of_get? hreserved, getD_of_get? havailable, getD_of_get? hstatus,
      parseDt_entry hupdated, ok_bind, textColumn, Codec.intOf, uuidOf_uuid]
    rfl
  unfold upsertInventory Analytics.upsertInventory
  simp only [item_of_get? hid, parseDt_entry hupdated, ok_bind, uuidOf_uuid, hvalues]
  cases rows.items itemId with
  | none => exact refused_ok_iff
  | some row =>
      have hstamp : (inventoryRow tenantId categoryId name total reserved available status
        updatedAt).updatedAt = some updatedAt := rfl
      rw [hstamp]
      show (if _ then _ else _ : Except Raised Projections).toOption =
        (if _ then _ else _ : Except Error Projections).toOption
      split
      · rfl
      · exact refused_ok_iff

theorem upsertRequest_entries {request : RequestData} {quantityNeeded : Int}
    {status : String} {updatedAt : Time}
    (hquantity' : request.quantityNeeded = some quantityNeeded)
    (hstatus' : request.status = some status) (hupdated' : request.updatedAt = some updatedAt)
    (hid : entries.get? "request_id" = some (.str (codec.uuid request.requestId)))
    (hcategory : entries.get? "category_id" = some (.str (codec.uuid request.categoryId)))
    (hquantity : entries.get? "quantity_needed" = some (.int quantityNeeded))
    (hstatus : entries.get? "status" = some (.str status))
    (hurgency : entries.get? "urgency" = request.urgency.map .str)
    (hupdated : entries.get? "updated_at" = some (.str (codec.isoformat updatedAt))) :
    (upsertRequest codec entries tenantId rows).toOption =
      (Analytics.upsertRequest request tenantId rows).toOption := by
  have hvalues : requestValues codec entries tenantId = .ok (request.row tenantId) := by
    have hread : textColumn (getD entries "urgency" (.str "medium")) =
        .ok (request.urgency.getD "medium") := by
      unfold getD
      rw [hurgency]
      cases request.urgency <;> rfl
    unfold requestValues RequestData.row
    simp only [item_of_get? hcategory, getD_of_get? hquantity, getD_of_get? hstatus,
      parseDt_entry hupdated, ok_bind, hread, Codec.intOf, uuidOf_uuid, hquantity', hstatus',
      hupdated']
    rfl
  unfold upsertRequest Analytics.upsertRequest
  simp only [item_of_get? hid, parseDt_entry hupdated, ok_bind, uuidOf_uuid, hvalues]
  cases rows.requests request.requestId with
  | none => exact refused_ok_iff
  | some row =>
      rw [hupdated']
      show (if _ then _ else _ : Except Raised Projections).toOption =
        (if _ then _ else _ : Except Error Projections).toOption
      split
      · rfl
      · exact refused_ok_iff

end Entries

/-! ## What the logistics service writes -/

open Logistics.Contract (data published)

section Data

variable {tenantId : Uuid} {rows : Projections}

theorem category_data {categoryId : Uuid} {name unit : String} {description : Option String}
    {isActive : Bool} {updatedAt : Time} :
    upsertCategory codec (data codec.toTexts (.resourceCategory categoryId name description unit
      isActive updatedAt)) tenantId rows =
      .ok (Analytics.upsertCategory tenantId categoryId name description unit isActive updatedAt
        rows) := by
  apply upsertCategory_entries <;> simp [data, JsonSchema.get?_cons]

theorem inventory_data {itemId categoryId : Uuid} {name : String}
    {total reserved available : Int} {status : Logistics.InventoryStatus} {updatedAt : Time} :
    (upsertInventory codec (data codec.toTexts (.itemUpdated itemId categoryId name total reserved
      available status updatedAt)) tenantId rows).toOption =
      (Analytics.upsertInventory itemId
        (inventoryRow tenantId categoryId name total reserved available status updatedAt)
        rows).toOption := by
  apply upsertInventory_entries <;> simp [data, JsonSchema.get?_cons]

theorem request_data {m : Message} {request : RequestData} (h : requestData? m = some request) :
    (upsertRequest codec (data codec.toTexts m) tenantId rows).toOption =
      (Analytics.upsertRequest request tenantId rows).toOption := by
  cases m with
  | requestSubmitted requestId categoryId urgency quantityNeeded area status updatedAt =>
      obtain rfl := Option.some.inj h
      apply upsertRequest_entries rfl rfl rfl <;> simp [data, JsonSchema.get?_cons]
  | requestStatusChanged requestId categoryId quantityNeeded oldStatus newStatus requesterUserId
      changedByUserId updatedAt =>
      obtain rfl := Option.some.inj h
      apply upsertRequest_entries rfl rfl rfl <;>
        simp [data, JsonSchema.get?_cons, JsonSchema.get?_nil]
  | taskAssigned => cases h
  | itemUpdated => cases h
  | lowStock => cases h
  | resourceCategory => cases h

theorem applyEvent_data {event : Envelope Message}
    (hfits : event.data.FitsType event.eventType) :
    (applyEvent codec event.eventType tenantId (data codec.toTexts event.data) rows).toOption =
      (Analytics.applyEvent tenantId event rows).toOption := by
  obtain ⟨eventId, eventType, tenantId', m⟩ := event
  cases m with
  | resourceCategory categoryId name description unit isActive updatedAt =>
      have htype : eventType ∈ ["logistics.resource-category.created",
        "logistics.resource-category.updated"] := hfits
      simp only [applyEvent, Analytics.applyEvent, if_pos htype, category_data]
      rfl
  | itemUpdated itemId categoryId name total reserved available status updatedAt =>
      have htype : eventType = "logistics.inventory.item-updated" := hfits
      subst htype
      exact inventory_data
  | requestSubmitted requestId categoryId urgency quantityNeeded area status updatedAt =>
      have htype : eventType = "logistics.request.submitted" := hfits.1
      subst htype
      exact request_data rfl
  | requestStatusChanged requestId categoryId quantityNeeded oldStatus newStatus requesterUserId
      changedByUserId updatedAt =>
      have htype : eventType = "logistics.request.status-changed" := hfits.1
      subst htype
      exact request_data rfl
  | taskAssigned =>
      have htype : eventType = "logistics.task.assigned" := hfits
      subst htype
      rfl
  | lowStock =>
      have htype : eventType = "logistics.inventory.low-stock" := hfits
      subst htype
      rfl

end Data


theorem handle_published {event : Envelope Message} (hfits : event.data.FitsType event.eventType)
    (occurredAt : Envelope Message → String) (traceId : Envelope Message → Option String)
    (s : Inbox Projections) :
    (handle codec (published codec occurredAt traceId event) s).toOption =
      (Analytics.handle event s).toOption := by
  unfold handle published Analytics.handle
  rw [envelope_eventId, envelope_eventType, envelope_tenantId, envelope_data]
  simp only [ok_bind, uuidOf_uuid]
  cases htenant : event.tenantId with
  | none => rfl
  | some tenantId =>
      have htext : codec.uuidOf (codec.uuidOrNull (some tenantId)) = .ok tenantId :=
        uuidOf_uuid tenantId
      rw [htext]
      exact seen_or_applied (applyEvent_data hfits)

end Reading

/-! ## Runs -/

open Logistics Logistics.Contract Sql in
/-- However the calls of the logistics service interleave, and whichever of the committed events
arrive, in whichever order and however often, the consumer of the dicts keeps what the handler
of the typed messages keeps. -/
theorem committed_events_read (validatePayload : Option (List Json) → Option Object →
      Except FormErrors (Option Object)) (replicas : List UserReplica)
    {c : Config Db Logistics.Error Unit Operation}
    (h : Run (Operation.body validatePayload) (Config.start (Db.initial [] replicas)) c)
    {d : List (Envelope Message)}
    (hd : ∀ e ∈ d, ∃ o row, c.store.outbox.committed o = some row ∧ row.payload = e)
    (codec : Codec) (occurredAt : Envelope Message → String)
    (traceId : Envelope Message → Option String) :
    (d.map (published codec occurredAt traceId)).foldl (deliver codec) newInbox =
      d.foldl Analytics.deliver newInbox := by
  refine foldl_onMessage (fun e he s => ?_) newInbox
  obtain ⟨o, row, hrow, rfl⟩ := hd e he
  exact handle_published ((run_emits h).outbox.committed hrow).data occurredAt traceId s

open Logistics Logistics.Contract Sql in
/-- The item of the tents arrives before its category, and the category twice. -/
theorem committed_events_read_tents : ∃ (c : Config Db Logistics.Error Unit Operation)
    (category item : Envelope Message),
    (∃ o row, c.store.outbox.committed o = some row ∧ row.payload = category) ∧
    (∃ o row, c.store.outbox.committed o = some row ∧ row.payload = item) ∧
    (((([item, category, category].map (published .decimal (fun _ => "2026-01-01") fun _ =>
        none)).foldl (deliver .decimal) newInbox).rows.categories 0).map CategoryProjection.name,
      ((([item, category, category].map (published .decimal (fun _ => "2026-01-01") fun _ =>
        none)).foldl (deliver .decimal) newInbox).processed)) = (some "Tents", [0]) := by
  have hplay : ((Config.start (Db.initial [] [])).play
      (Operation.body fun _ fields => .ok fields) tentRun).map
      (fun c => ((c.store.outbox.committed 0).map Outbox.payload,
        (c.store.outbox.committed 1).map Outbox.payload)) =
      some (some ⟨0, "logistics.resource-category.created", some 1,
          .resourceCategory 0 "Tents" none "unit" true 0⟩,
        some ⟨1, "logistics.inventory.item-updated", some 1,
          .itemUpdated 0 0 "Tent" 10 0 10 .available 1⟩) := by
    decide +kernel
  obtain ⟨c, hc, hrows⟩ := Option.map_eq_some_iff.mp hplay
  obtain ⟨category, hcategory, hcategory'⟩ := Option.map_eq_some_iff.mp (Prod.mk.inj hrows).1
  obtain ⟨item, hitem, hitem'⟩ := Option.map_eq_some_iff.mp (Prod.mk.inj hrows).2
  refine ⟨c, category.payload, item.payload, ⟨0, category, hcategory, rfl⟩,
    ⟨1, item, hitem, rfl⟩, ?_⟩
  rw [committed_events_read (fun _ fields => .ok fields) [] (Config.play_run hc)
    (d := [item.payload, category.payload, category.payload]) ?_ .decimal _ _, hcategory', hitem']
  · rfl
  · intro e he
    simp only [List.mem_cons, List.not_mem_nil, or_false] at he
    rcases he with rfl | rfl | rfl
    · exact ⟨1, item, hitem, rfl⟩
    · exact ⟨0, category, hcategory, rfl⟩
    · exact ⟨0, category, hcategory, rfl⟩

end Wire
end Analytics
end Rcp
