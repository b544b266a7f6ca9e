/-
The events of the logistics service against their contracts.

The data of an event is built by hand in every call, and only the examples of the contracts
are ever checked.  What the contracts ask of the numbers holds of every row: a request is for
at least one unit, and the stock of an item stays between zero and its total as long as no
call passes a negative quantity.
-/
import Rcp.Common.Wire
import Rcp.Logistics.Emitted
import Rcp.Logistics.Stock
import Rcp.Sql.Growth
import Rcp.Sql.Identity

namespace Rcp
namespace Logistics
namespace Contract

open Sql Sql.Growth Contracts JsonSchema

/-! ## The data of the events -/

/-- The `category` and the `location` of a task. -/
def categoryJson (texts : Texts) (categoryId : Uuid) (name : Option String) : Json :=
  .obj [("id", .str (texts.uuid categoryId)), ("name", optionalText name)]

def locationJson (area : Option String) (latitude longitude : Option PyFloat) : Json :=
  .obj [("area", optionalText area), ("lat", optionalFloat latitude),
    ("lng", optionalFloat longitude)]

def personJson (texts : Texts) (userId : Uuid) (fullName : Option String) : Json :=
  .obj [("user_id", .str (texts.uuid userId)), ("full_name", optionalText fullName)]

/-- The dict that the call passes to `emit`. -/
def data (texts : Texts) : Message → Object
  | .requestSubmitted requestId categoryId urgency quantityNeeded area status updatedAt =>
      [("request_id", .str (texts.uuid requestId)),
        ("category_id", .str (texts.uuid categoryId)),
        ("urgency", .str urgency.value),
        ("quantity_needed", .int quantityNeeded),
        ("area", optionalText area),
        ("status", .str status.value),
        ("updated_at", .str (texts.isoformat updatedAt))]
  | .requestStatusChanged requestId categoryId quantityNeeded oldStatus newStatus
      requesterUserId changedByUserId updatedAt =>
      [("request_id", .str (texts.uuid requestId)),
        ("category_id", .str (texts.uuid categoryId)),
        ("quantity_needed", .int quantityNeeded),
        ("status", .str newStatus.value),
        ("old_status", .str oldStatus.value),
        ("new_status", .str newStatus.value),
        ("requester_user_id", texts.uuidOrNull requesterUserId),
        ("changed_by_user_id", .str (texts.uuid changedByUserId)),
        ("updated_at", .str (texts.isoformat updatedAt))]
  | .taskAssigned taskId requestId title instructions priority categoryId categoryName area
      latitude longitude volunteerUserId volunteerName assignedBy assignedByName assignedAt =>
      [("task_id", .str (texts.uuid taskId)),
        ("request_id", .str (texts.uuid requestId)),
        ("title", .str title),
        ("instructions", optionalText instructions),
        ("priority", .str priority.value),
        ("category", categoryJson texts categoryId categoryName),
        ("location", locationJson area latitude longitude),
        ("volunteer", personJson texts volunteerUserId volunteerName),
        ("assigned_by", personJson texts assignedBy assignedByName),
        ("assigned_at", .str (texts.isoformat assignedAt)),
        ("expires_at", .null)]
  | .itemUpdated itemId categoryId name quantityTotal quantityReserved quantityAvailable status
      updatedAt =>
      [("item_id", .str (texts.uuid itemId)),
        ("category_id", .str (texts.uuid categoryId)),
        ("name", .str name),
        ("quantity_total", .int quantityTotal),
        ("quantity_reserved", .int quantityReserved),
        ("quantity_available", .int quantityAvailable),
        ("status", .str status.value),
        ("updated_at", .str (texts.isoformat updatedAt))]
  | .lowStock itemId categoryId name quantityAvailable =>
      [("item_id", .str (texts.uuid itemId)),
        ("category_id", .str (texts.uuid categoryId)),
        ("name", .str name),
        ("quantity_available", .int quantityAvailable)]
  | .resourceCategory categoryId name description unit isActive updatedAt =>
      [("category_id", .str (texts.uuid categoryId)),
        ("name", .str name),
        ("description", optionalText description),
        ("unit", .str unit),
        ("is_active", .bool isActive),
        ("updated_at", .str (texts.isoformat updatedAt))]

/-- An event as the relay publishes it. -/
def published (codec : Wire.Codec) (occurredAt : Envelope Message → String)
    (traceId : Envelope Message → Option String) (event : Envelope Message) : Object :=
  Wire.envelopeEntries codec.toTexts "logistics-service" (occurredAt event) (traceId event) event
    (.obj (data codec.toTexts event.data))

/-- The numbers of an event are within the bounds of its contract. -/
def Counted : Message → Prop
  | .requestSubmitted _ _ _ quantityNeeded _ _ _ => 1 ≤ quantityNeeded
  | .requestStatusChanged _ _ quantityNeeded _ _ _ _ _ => 1 ≤ quantityNeeded
  | .itemUpdated _ _ _ quantityTotal quantityReserved quantityAvailable _ _ =>
      0 ≤ quantityTotal ∧ 0 ≤ quantityReserved ∧ 0 ≤ quantityAvailable
  | .taskAssigned .. | .lowStock .. | .resourceCategory .. => True

section Data

variable {texts : Texts}

@[simp] theorem value_mem_urgencies (urgency : UrgencyLevel) : urgency.value ∈ urgencies := by
  cases urgency <;> simp [urgencies, UrgencyLevel.value]

@[simp] theorem value_mem_requestStatuses (status : RequestStatus) :
    status.value ∈ requestStatuses := by
  cases status <;> simp [requestStatuses, RequestStatus.value]

@[simp] theorem value_mem_itemStatuses (status : InventoryStatus) :
    status.value ∈ itemStatuses := by
  cases status <;> simp [itemStatuses, InventoryStatus.value]

@[simp] theorem person_accepts (userId : Uuid) (fullName : Option String) :
    person.accepts (personJson texts userId fullName) = true := by
  unfold person personJson
  rw [record_accepts]
  simp [get?_cons, get?_nil, Dict.keys]

@[simp] theorem location_accepts (area : Option String) (latitude longitude : Option PyFloat) :
    (recordOrNull [("area", textOrNull), ("lat", numberOrNull), ("lng", numberOrNull)]).accepts
      (locationJson area latitude longitude) = true := by
  unfold locationJson
  rw [recordOrNull_accepts]
  simp [get?_cons, get?_nil]

@[simp] theorem category_accepts_iff {categoryId : Uuid} {name : Option String} :
    (record ["id", "name"] [("id", text), ("name", text)]).accepts
      (categoryJson texts categoryId name) = true ↔ name.isSome := by
  unfold categoryJson
  rw [record_accepts]
  cases name with
  | none => simp [get?_cons, get?_nil, Dict.keys, optionalText]
  | some name => simp [get?_cons, get?_nil, Dict.keys, optionalText]

/-! What each contract asks of the data that the code builds. -/

end Data

/-! ## Counts -/

/-- What holds of every version of a row. -/
structure Counts (s : Db) : Prop where
  totals : s.items.Agrees InventoryItem.quantityTotal
  items : s.items.All fun _ item => item.InStock
  requests : s.requests.All fun _ request => 1 ≤ request.quantityNeeded
  outbox : s.outbox.All fun _ row => Counted row.payload.data

/-- What is known of the total of an item stays known. -/
def Grows (s s' : Db) : Prop := Table.Identifies InventoryItem.quantityTotal s.items s'.items

theorem Counts.commit {s : Db} (h : Counts s) (t : Sid) : Counts (Transactional.commit t s) :=
  ⟨h.totals.commit t, h.items.commit t, h.requests.commit t, h.outbox.commit t⟩

theorem Counts.rollback {s : Db} (h : Counts s) (t : Sid) :
    Counts (Transactional.rollback t s) :=
  ⟨h.totals.rollback t, h.items.rollback t, h.requests.rollback t, h.outbox.rollback t⟩

def counting : Growth Db where
  Inv := Counts
  Le := Grows
  refl _ := Table.Identifies.refl _
  trans _ _ _ := Table.Identifies.trans
  rollback t _ h := ⟨h.rollback t, Table.identifies_rollback⟩

/-! ### Statements -/

section Statements

variable {s : Db} {t : Sid}

/-- Statements on the tables that hold no numbers. -/
theorem up_categories (hs : Counts s) (T : Table ResourceCategory) :
    counting.Up s { s with categories := T } :=
  ⟨⟨hs.totals, hs.items, hs.requests, hs.outbox⟩, Table.Identifies.refl _⟩

theorem up_tasks (hs : Counts s) (T : Table DispatchTask) :
    counting.Up s { s with tasks := T } :=
  ⟨⟨hs.totals, hs.items, hs.requests, hs.outbox⟩, Table.Identifies.refl _⟩

theorem up_requests (hs : Counts s) {T : Table HelpRequest}
    (hT : T.All fun _ request => 1 ≤ request.quantityNeeded) :
    counting.Up s { s with requests := T } :=
  ⟨⟨hs.totals, hs.items, hT, hs.outbox⟩, Table.Identifies.refl _⟩

theorem up_write (hs : Counts s) {k : Nat} {item item' : InventoryItem}
    (hread : s.items.read t k = some item) (htotal : item'.quantityTotal = item.quantityTotal)
    (hstock : item'.InStock) : counting.Up s { s with items := s.items.write t k item' } :=
  ⟨⟨hs.totals.write hread htotal, hs.items.write hstock, hs.requests, hs.outbox⟩,
    Table.identifies_write hread htotal⟩

theorem takes_emit (hs : Counts s) {routingKey : String} {tenantId : Option Uuid}
    {message : Message} (hmessage : Counted message) : counting.Takes (fun _ _ => True)
      (emit Db.outboxT routingKey tenantId message : Prog Db Error Nat) s := by
  refine takes_insert fun t s' hs' => ⟨?_, fun _ _ => trivial⟩
  rw [hs']
  exact ⟨⟨hs.totals, hs.items, hs.requests, hs.outbox.insert (t := t) hmessage⟩,
    Table.Identifies.refl _⟩

theorem takes_read (hs : Counts s) {β : Type} (f : Sid → Db → β) :
    counting.Takes (fun _ _ => True) (query f : Prog Db Error β) s :=
  takes_query hs fun _ _ _ => trivial

theorem takes_request (hs : Counts s) (k : Uuid) :
    counting.Takes (fun found _ => ∀ request, found = some request → 1 ≤ request.quantityNeeded)
      (selectKey Db.requestsT k : Prog Db Error (Option HelpRequest)) s :=
  takes_query hs fun _ _ _ _ hread => hs.requests.read hread

theorem takes_updateRequest (hs : Counts s) {k : Nat} {p : HelpRequest → Bool}
    {f : HelpRequest → HelpRequest}
    (hf : ∀ request, (f request).quantityNeeded = request.quantityNeeded) :
    counting.Takes (fun _ _ => True)
      (updateWhere Db.requestsT k p f : Prog Db Error (Option HelpRequest)) s := by
  refine takes_updateWhere hs fun t request hread => ?_
  have hread' : s.requests.read t k = some request := hread
  refine up_requests hs (hs.requests.write ?_)
  rw [hf]
  exact hs.requests.read hread'

theorem takes_refresh (hs : Counts s) {V : Type} {T : Access Db V} {k : Nat} :
    counting.Takes (fun _ _ => True) (refresh T k) s := by
  refine takes_bind hs (takes_read hs _) fun found u _ _ => ?_
  cases found with
  | none => exact takes_raise
  | some row => exact takes_ret trivial

theorem takes_commit_refresh (hs : Counts s) {V γ : Type} {T : Access Db V} {k : Nat}
    {f : V → γ} : counting.Takes (fun _ _ => True) (do
      commit
      let row ← refresh T k
      return f row) s := by
  refine takes_bind hs (takes_commit fun t => ⟨hs.commit t, Table.identifies_commit⟩)
    fun _ u hu _ => ?_
  exact takes_bind hu.1 (takes_refresh hu.1) fun _ _ _ _ => takes_ret trivial

theorem takes_getCategory (hs : Counts s) (tenantId : Option Uuid) (k : Uuid) :
    counting.Takes (fun _ _ => True) (getCategory tenantId k) s := by
  refine takes_bind hs (takes_read hs _) fun found u hu _ => ?_
  cases found with
  | none => exact takes_raise
  | some category =>
      show counting.Takes _ (if _ then _ else _) u
      split
      · exact takes_ret trivial
      · exact takes_raise

end Statements

/-! ### Stock -/

/-- The stock of item `k` is known. -/
def Known (k : Uuid) (item : InventoryItem) (s : Db) : Prop :=
  item.InStock ∧ s.items.Identified InventoryItem.quantityTotal k item.quantityTotal

section Stock

variable {s : Db} {k : Uuid} {item changed : InventoryItem}

theorem itemMessage_counted {updatedAt : Time} (h : item.InStock) :
    Counted (itemMessage k item updatedAt) := by
  obtain ⟨hge, hle⟩ := h
  show 0 ≤ item.quantityTotal ∧ 0 ≤ item.quantityReserved ∧ 0 ≤ item.quantityAvailable
  unfold InventoryItem.quantityAvailable
  omega

theorem takes_lockItem (hs : Counts s) (tenantId : Option Uuid) :
    counting.Takes (fun found u => ∀ item, found = some item → Known k item u)
      (lockItem tenantId k) s := by
  refine takes_stmt fun t found s' hrun => ?_
  cases found with
  | none =>
      obtain ⟨rfl, -⟩ := runUpdate_none hrun
      exact ⟨.refl hs, fun _ _ _ hfound => by cases hfound⟩
  | some item =>
      obtain ⟨row, hread, -, -, hrow, rfl⟩ := runUpdate_some hrun
      have hread' : s.items.read t k = some item := hread.trans (congrArg some hrow.symm)
      have hup := up_write (t := t) hs hread' rfl (hs.items.read hread')
      rw [hrow] at hup
      refine ⟨hup, fun u hu found hfound => ?_⟩
      cases hfound
      exact ⟨hs.items.read hread', hu.2 _ _ (hup.2 _ _ (hs.totals.read hread'))⟩

/-- The flush writes what the call has made of the item. -/
theorem takes_flushItem (hs : Counts s) (hknown : Known k item s)
    (htotal : changed.quantityTotal = item.quantityTotal) (hstock : changed.InStock) (now : Time) :
    counting.Takes (fun _ _ => True) (flushItem k item changed now) s := by
  unfold flushItem
  split
  · exact takes_ret trivial
  · split
    · exact takes_raise
    · refine takes_bind hs (takes_updateWhere hs fun t row hread => ?_)
        fun _ _ _ _ => takes_ret trivial
      have hread' : s.items.read t k = some row := hread
      have hrow : row.quantityTotal = changed.quantityTotal :=
        (hknown.2.2 row (Table.Has.of_read hread')).trans htotal.symm
      refine up_write hs hread' rfl ?_
      obtain ⟨hge, hle⟩ := hstock
      exact ⟨hge, hle.trans hrow.ge⟩

theorem takes_emitLowStock (hs : Counts s) (tenantId : Option Uuid) :
    counting.Takes (fun _ _ => True) (emitLowStock k item tenantId) s := by
  unfold emitLowStock
  split
  · exact takes_bind hs (takes_emit hs trivial) fun _ _ _ _ => takes_ret trivial
  · exact takes_ret trivial

theorem takes_reserveStock (hs : Counts s) (principal : Principal) {quantity : Int}
    (hquantity : 0 ≤ quantity) (now : Time) :
    counting.Takes (fun _ _ => True) (reserveStock principal k quantity now) s := by
  refine takes_bind hs (takes_lockItem hs _) fun found u hu hfound => ?_
  cases found with
  | none => exact takes_raise
  | some item =>
      have hknown := hfound item rfl
      show counting.Takes _ (if _ then _ else _) u
      split
      · exact takes_raise
      · rename_i hle
        have hge : -item.quantityReserved ≤ quantity := by
          have hreserved := hknown.1.1
          omega
        have hstock := reserveItem_inStock quantity item (not_lt.mp hle) hge
        refine takes_bind hu.1 (takes_flushItem hu.1 hknown
          (reserveItem_quantityTotal quantity item) hstock now) fun _ v hv _ => ?_
        refine takes_bind hv.1 (takes_emitLowStock hv.1 _) fun _ w hw _ => ?_
        refine takes_bind hw.1 (takes_emit hw.1 (itemMessage_counted hstock)) fun _ x hx _ => ?_
        exact takes_commit_refresh hx.1

theorem takes_releaseStock (hs : Counts s) (tenantId : Option Uuid) {quantity : Int}
    (hquantity : 0 ≤ quantity) (now : Time) :
    counting.Takes (fun _ _ => True) (releaseStock tenantId k quantity now) s := by
  refine takes_bind hs (takes_lockItem hs _) fun found u hu hfound => ?_
  cases found with
  | none => exact takes_raise
  | some item =>
      have hknown := hfound item rfl
      have hge : item.quantityReserved - item.quantityTotal ≤ quantity := by
        have hreserved := hknown.1.2
        omega
      have hstock := releaseItem_inStock quantity item hknown.1 hge
      refine takes_bind hu.1 (takes_flushItem hu.1 hknown
        (releaseItem_quantityTotal quantity item) hstock now) fun _ v hv _ => ?_
      refine takes_bind hv.1 (takes_emit hv.1 (itemMessage_counted hstock)) fun _ w hw _ => ?_
      exact takes_commit_refresh hw.1

theorem takes_addInventoryItem (hs : Counts s) (tenantId : Option Uuid)
    (data : InventoryItemCreate) (now : Time) :
    counting.Takes (fun _ _ => True) (addInventoryItem tenantId data now) s := by
  unfold addInventoryItem
  split
  · exact takes_raise
  · split
    · exact takes_raise
    · refine takes_bind hs (takes_read hs _) fun found u hu _ => ?_
      cases found with
      | none => exact takes_raise
      | some category =>
          refine takes_bind (R := fun _ _ => True) hu.1 ?_ fun id v hv _ => ?_
          · refine takes_insert fun t s' hs' => ⟨?_, fun _ _ => trivial⟩
            rw [hs']
            refine ⟨⟨hu.1.totals.insert t _, hu.1.items.insert (t := t) ?_, hu.1.requests,
              hu.1.outbox⟩, Table.identifies_insert⟩
            exact ⟨le_refl _, data.quantity_nonneg⟩
          · refine takes_bind hv.1 (takes_emit hv.1 (itemMessage_counted ?_)) fun _ w hw _ => ?_
            · exact ⟨le_refl _, data.quantity_nonneg⟩
            · exact takes_commit_refresh hw.1

end Stock

/-! ### Calls -/

section Calls

variable {s : Db}

theorem takes_createRequest (hs : Counts s) (validatePayload : Option (List Json) →
      Option Object → Except FormErrors (Option Object)) (principal : Principal)
    (data : HelpRequestCreate) (now : Time) :
    counting.Takes (fun _ _ => True) (createRequest validatePayload principal data now) s := by
  refine takes_bind hs (takes_getCategory hs _ _) fun category u hu _ => ?_
  split
  · exact takes_raise
  · split
    · exact takes_raise
    · split
      · exact takes_raise
      · split
        · exact takes_raise
        · refine takes_bind (R := fun _ _ => True) hu.1 ?_ fun id v hv _ => ?_
          · refine takes_insert fun t s' hs' => ⟨?_, fun _ _ => trivial⟩
            rw [hs']
            exact up_requests hu.1 (hu.1.requests.insert (t := t) data.quantity_pos)
          · refine takes_bind hv.1 (takes_emit hv.1 data.quantity_pos) fun _ w hw _ => ?_
            exact takes_commit_refresh hw.1

theorem takes_updateStatus (hs : Counts s) (requestId : Uuid) (newStatus : RequestStatus)
    (principal : Principal) (now : Time) :
    counting.Takes (fun _ _ => True) (updateStatus requestId newStatus principal now) s := by
  refine takes_bind hs (takes_request hs _) fun found u hu hfound => ?_
  cases found with
  | none => exact takes_raise
  | some request =>
      show counting.Takes _ (if _ then _ else _) u
      split
      · exact takes_raise
      · refine takes_bind hu.1 (takes_read hu.1 _) fun category v hv _ => ?_
        unfold changeStatus
        split
        · exact takes_raise
        · split
          · exact takes_raise
          · refine takes_bind hv.1 (takes_updateRequest hv.1 fun request => ?_) fun _ w hw _ => ?_
            · cases newStatus <;> rfl
            · refine takes_bind hw.1 (takes_emit hw.1 (hfound request rfl)) fun _ x hx _ => ?_
              exact takes_commit_refresh hx.1

theorem takes_assignTask (hs : Counts s) (principal : Principal) (data : DispatchTaskCreate)
    (now : Time) : counting.Takes (fun _ _ => True) (assignTask principal data now) s := by
  refine takes_bind hs (takes_read hs _) fun found u hu _ => ?_
  cases found with
  | none => exact takes_raise
  | some request =>
      show counting.Takes _ (if _ then _ else if _ then _ else _) u
      split
      · exact takes_raise
      · split
        · exact takes_raise
        · refine takes_bind hu.1 (takes_read hu.1 _) fun volunteer v hv _ => ?_
          split
          · exact takes_raise
          · refine takes_bind (R := fun _ _ => True) hv.1 ?_ fun _ w hw _ => ?_
            · unfold startProgress
              split
              · exact takes_ret trivial
              · exact takes_bind hv.1 (takes_updateRequest hv.1 fun _ => rfl)
                  fun _ _ _ _ => takes_ret trivial
            refine takes_bind (R := fun _ _ => True) hw.1 ?_ fun taskId x hx _ => ?_
            · refine takes_insert fun t s' hs' => ⟨?_, fun _ _ => trivial⟩
              rw [hs']
              exact up_tasks hw.1 _
            refine takes_bind (R := fun _ _ => True) hx.1 ?_ fun assigner y hy _ => ?_
            · unfold assignerReplica
              split
              · exact takes_ret trivial
              · exact takes_read hx.1 _
            refine takes_bind hy.1 (takes_read hy.1 _) fun category z hz _ => ?_
            refine takes_bind hz.1 (takes_emit hz.1 trivial) fun _ z' hz' _ => ?_
            exact takes_commit_refresh hz'.1

theorem takes_saveCategory (hs : Counts s) (tenantId : Option Uuid) (k : Uuid)
    (loaded changed : ResourceCategory) (now : Time) :
    counting.Takes (fun _ _ => True) (saveCategory tenantId k loaded changed now) s := by
  refine takes_bind (R := fun _ _ => True) hs ?_ fun updatedAt u hu _ => ?_
  · unfold flushCategory
    split
    · exact takes_ret trivial
    · refine takes_bind hs (takes_updateWhere hs fun t category _ => up_categories hs _)
        fun _ u hu _ => ?_
      exact takes_bind hu.1 (takes_refresh hu.1) fun _ _ _ _ => takes_ret trivial
  · refine takes_bind hu.1 (takes_emit hu.1 trivial) fun _ v hv _ => ?_
    exact takes_commit_refresh hv.1

theorem takes_category (hs : Counts s) (a : CategoryCall) :
    counting.Takes (fun _ _ => True) a.body s := by
  cases a with
  | createCategory tenantId data now =>
      show counting.Takes _ (createCategory tenantId data now) s
      unfold createCategory
      split
      · exact takes_raise
      · refine takes_bind (R := fun _ _ => True) hs ?_ fun id u hu _ => ?_
        · refine takes_insert fun t s' hs' => ⟨?_, fun _ _ => trivial⟩
          rw [hs']
          exact up_categories hs _
        · refine takes_bind hu.1 (takes_emit hu.1 trivial) fun _ v hv _ => ?_
          exact takes_commit_refresh hv.1
  | updateCategory tenantId k data now =>
      refine takes_bind hs (takes_getCategory hs tenantId k) fun category u hu _ => ?_
      split
      · exact takes_raise
      · exact takes_saveCategory hu.1 tenantId k category _ now
  | deactivateCategory tenantId k now =>
      refine takes_bind hs (takes_getCategory hs tenantId k) fun category u hu _ => ?_
      split
      · exact takes_saveCategory hu.1 tenantId k category _ now
      · exact takes_ret trivial

end Calls

/-! ## Runs -/

/-- The call passes no negative quantity. -/
def Nonnegative : Operation → Prop
  | .call (.reserveStock _ _ quantity _) => 0 ≤ quantity
  | .call (.releaseStock _ _ quantity _) => 0 ≤ quantity
  | _ => True

theorem takes_body {s : Db} (hs : Counts s) (validatePayload : Option (List Json) →
      Option Object → Except FormErrors (Option Object)) (a : Operation) (ha : Nonnegative a) :
    counting.Takes (fun _ _ => True) (a.body validatePayload) s := by
  have hunit : ∀ {β : Type} {p : Prog Db Error β}, counting.Takes (fun _ _ => True) p s →
      counting.Takes (fun _ _ => True) (p >>= fun _ => pure ()) s :=
    fun hp => takes_bind hs hp fun _ _ _ _ => takes_ret trivial
  cases a with
  | category a => exact hunit (takes_category hs a)
  | call a =>
      cases a with
      | createRequest principal data now => exact hunit (takes_createRequest hs _ _ _ _)
      | updateStatus requestId newStatus principal now =>
          exact hunit (takes_updateStatus hs _ _ _ _)
      | assignTask principal data now => exact hunit (takes_assignTask hs _ _ _)
      | addInventoryItem tenantId data now => exact hunit (takes_addInventoryItem hs _ _ _)
      | reserveStock principal k quantity now => exact hunit (takes_reserveStock hs _ ha _)
      | releaseStock tenantId k quantity now => exact hunit (takes_releaseStock hs _ ha _)

instance (a : Operation) : Decidable (Nonnegative a) := by
  unfold Nonnegative
  split <;> infer_instance

/-- Two coordinators reserve tents at the same time. -/
def tentRun : List (Move Operation) :=
  [[.begin (.category (.createCategory (some 1)
      { name := "Tents", accepted := Workflow.accepted_none } 0))], List.replicate 4 (.next 0),
    [.close 0, .begin (.call (.addInventoryItem (some 1) tents 1))], List.replicate 5 (.next 1),
    [.close 1, .begin (.call (.reserveStock coordinator 0 4 2)),
      .begin (.call (.reserveStock coordinator 0 3 3))],
    List.replicate 5 (.next 2), List.replicate 6 (.next 3)].flatten

end Contract
end Logistics
end Rcp
