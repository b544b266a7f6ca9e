/-
What becomes of events that arrive in any order.

An inventory row refers to the row of its category.  An item-updated event that comes
before every event of its category violates the foreign key and goes to the dead-letter
queue.  All other events of the service are taken in any order.
-/
import Rcp.Analytics.Inventory
import Rcp.Analytics.Requests
import Rcp.Logistics.CategoryHistory
import Rcp.Logistics.Emitted

namespace Rcp
namespace Analytics

open Sql Delivery
open Logistics (Message Operation Db FormErrors FitsInteger)

inductive Entity
  | category (categoryId : Uuid)
  | item (itemId : Uuid)
  | request (requestId : Uuid)
  deriving DecidableEq

/-- What an event names, for the events that the projections are made of. -/
def mentions : Message → List Entity
  | .resourceCategory categoryId .. => [.category categoryId]
  | .itemUpdated itemId categoryId .. => [.item itemId, .category categoryId]
  | .requestSubmitted requestId categoryId .. => [.request requestId, .category categoryId]
  | .requestStatusChanged requestId categoryId .. => [.request requestId, .category categoryId]
  | .taskAssigned .. | .lowStock .. => []

/-- There is a row for the entity. -/
def Projections.has (rows : Projections) : Entity → Bool
  | .category k => (rows.categories k).isSome
  | .item k => (rows.items k).isSome
  | .request k => (rows.requests k).isSome

/-- The category of the item that an event is about. -/
def itemCategory? : Message → Option Uuid
  | .itemUpdated _ categoryId .. => some categoryId
  | _ => none

/-- The projection can hold the event, and one of its category came before it. -/
def Placed (d : List (Envelope Message)) (x : Envelope Message) : Prop :=
  Storable x ∧ ∃ k ∈ itemCategory? x.data, ∃ c ∈ d,
    c.data.describes k = true ∧ d.idxOf c < d.idxOf x

/-- Every item has an event that comes after one of its category, and no category is only
referred to. -/
structure CategoriesFirst (d : List (Envelope Message)) : Prop where
  items : ∀ e ∈ d, ∀ k, e.data.updates k = true →
    ∃ x ∈ d, x.data.updates k = true ∧ Placed d x
  categories : ∀ e ∈ d, ∀ k, Entity.category k ∈ mentions e.data →
    ∃ c ∈ d, c.data.describes k = true

section Presence

variable {e : Envelope Message} {p : Inbox Projections} {tenantId : Uuid}

/-- An event that was not handled before changes the rows unless it is refused. -/
theorem deliver_rows (hnew : e.eventId ∉ p.processed) (htenant : e.tenantId = some tenantId) :
    (deliver p e).rows =
      match applyEvent tenantId e p.rows with
      | .ok rows => rows
      | .error _ => p.rows := by
  have hsome : e.tenantId.isSome = true := by
    rw [htenant]
    rfl
  have happly : applyEnvelope e p.rows = applyEvent tenantId e p.rows := by
    unfold applyEnvelope
    rw [htenant]
  rw [deliver_eq hsome]
  cases hresult : applyEvent tenantId e p.rows with
  | ok rows => rw [Inbox.onMessage_ok hnew (happly.trans hresult)]
  | error err => rw [Inbox.onMessage_error hnew (happly.trans hresult)]

/-- The rows there are after one more event. -/
structure Adds (e : Envelope Message) (rows rows' : Projections) : Prop where
  categories : ∀ k, (rows'.categories k).isSome = true ↔
    (rows.categories k).isSome = true ∨ e.data.describes k = true
  requests : ∀ k, (rows'.requests k).isSome = true ↔
    (rows.requests k).isSome = true ∨ e.data.tells k = true
  items : ∀ k, (rows'.items k).isSome = true ↔ (rows.items k).isSome = true ∨
    (e.data.updates k = true ∧ Storable e ∧
      ∃ j ∈ itemCategory? e.data, (rows.categories j).isSome = true)

theorem isSome_update {α : Type} (f : Uuid → Option α) (k j : Uuid) (v : α) :
    (Function.update f k (some v) j).isSome = true ↔ (f j).isSome = true ∨ (k == j) = true := by
  by_cases hj : j = k
  · subst hj
    simp
  · have hkj : ¬ k = j := fun h => hj h.symm
    simp [hj, hkj]

theorem isSome_or_iff {α : Type} {f : Uuid → Option α} {k j : Uuid} (h : (f k).isSome = true) :
    (f j).isSome = true ↔ (f j).isSome = true ∨ (k == j) = true := by
  refine ⟨.inl, fun hor => ?_⟩
  rcases hor with hj | hj
  · exact hj
  · rwa [← beq_iff_eq.mp hj]

theorem adds_category {k : Uuid} {name : String} {description : Option String} {unit : String}
    {isActive : Bool} {updatedAt : Time} (rows : Projections)
    (hdata : e.data = .resourceCategory k name description unit isActive updatedAt) :
    Adds e rows (upsertCategory tenantId k name description unit isActive updatedAt rows) := by
  have hothers : (upsertCategory tenantId k name description unit isActive updatedAt rows).items =
      rows.items ∧ (upsertCategory tenantId k name description unit isActive updatedAt
        rows).requests = rows.requests := by
    unfold upsertCategory
    split
    · exact ⟨rfl, rfl⟩
    · split
      · exact ⟨rfl, rfl⟩
      · exact ⟨rfl, rfl⟩
  refine ⟨fun j => ?_, fun j => ?_, fun j => ?_⟩
  · rw [hdata]
    show _ ↔ _ ∨ (k == j) = true
    unfold upsertCategory
    split
    · exact isSome_update ..
    · rename_i old hold
      split
      · exact isSome_or_iff (by rw [hold]; rfl)
      · exact isSome_update ..
  · rw [hothers.2, hdata]
    simp [Message.tells]
  · rw [hothers.1, hdata]
    simp [Message.updates]

theorem adds_request {data : RequestData} (rows : Projections)
    (hdata : requestData? e.data = some data)
    (hfits : FitsInteger (data.row tenantId).quantityNeeded) :
    ∃ rows', upsertRequest data tenantId rows = .ok rows' ∧ Adds e rows rows' := by
  have hkind : (∀ k, e.data.tells k = (data.requestId == k)) ∧
      (∀ k, e.data.describes k = false) ∧ ∀ k, e.data.updates k = false := by
    cases hmessage : e.data with
    | requestSubmitted requestId categoryId urgency quantityNeeded area status updatedAt =>
        rw [hmessage] at hdata
        cases hdata
        exact ⟨fun _ => rfl, fun _ => rfl, fun _ => rfl⟩
    | requestStatusChanged requestId categoryId quantityNeeded old new requester by' updatedAt =>
        rw [hmessage] at hdata
        cases hdata
        exact ⟨fun _ => rfl, fun _ => rfl, fun _ => rfl⟩
    | taskAssigned =>
        rw [hmessage] at hdata
        cases hdata
    | itemUpdated =>
        rw [hmessage] at hdata
        cases hdata
    | lowStock =>
        rw [hmessage] at hdata
        cases hdata
    | resourceCategory =>
        rw [hmessage] at hdata
        cases hdata
  obtain ⟨htells, hdescribes, hupdates⟩ := hkind
  have hrows : ∃ rows', upsertRequest data tenantId rows = .ok rows' ∧
      rows'.categories = rows.categories ∧ rows'.items = rows.items ∧
      ∀ j, (rows'.requests j).isSome = true ↔
        (rows.requests j).isSome = true ∨ (data.requestId == j) = true := by
    unfold upsertRequest
    rw [flushRequest_ok hfits]
    split
    · exact ⟨_, rfl, rfl, rfl, fun j => isSome_update ..⟩
    · rename_i old hold
      split
      · exact ⟨_, rfl, rfl, rfl, fun j => isSome_or_iff (by rw [hold]; rfl)⟩
      · exact ⟨_, rfl, rfl, rfl, fun j => isSome_update ..⟩
  obtain ⟨rows', hupsert, hcategories, hitems, hrequests⟩ := hrows
  refine ⟨rows', hupsert, fun j => ?_, fun j => ?_, fun j => ?_⟩
  · rw [hcategories, hdescribes]
    simp
  · rw [htells]
    exact hrequests j
  · rw [hitems, hupdates]
    simp

/-- An item-updated event that is taken leaves a row, and one that is refused leaves all. -/
theorem adds_item {k : Uuid} {row : InventoryProjection} {rows rows' : Projections}
    (hupdates : ∀ j, e.data.updates j = (k == j))
    (hcategory : itemCategory? e.data = some row.categoryId)
    (hothers : ∀ j, e.data.describes j = false ∧ e.data.tells j = false)
    (hstorable : Storable e ↔ row.Fits)
    (h : rows' = match upsertInventory k row rows with
      | .ok rows' => rows'
      | .error _ => rows) : Adds e rows rows' := by
  have hflush : ∀ rows', (rows' = match flushInventory k row rows with
      | .ok rows' => rows'
      | .error _ => rows) → rows'.categories = rows.categories ∧ rows'.requests = rows.requests ∧
      ∀ j, (rows'.items j).isSome = true ↔ (rows.items j).isSome = true ∨
        ((k == j) = true ∧ row.Fits ∧ (rows.categories row.categoryId).isSome = true) := by
    rintro _ rfl
    by_cases hok : row.Fits ∧ (rows.categories row.categoryId).isSome = true
    · rw [flushInventory_ok hok.1 hok.2]
      refine ⟨rfl, rfl, fun j => ?_⟩
      rw [and_iff_left hok]
      exact isSome_update ..
    · have herror : ∃ err, flushInventory k row rows = .error err := by
        unfold flushInventory
        split
        · exact ⟨_, rfl⟩
        · rename_i hfits
          split
          · exact ⟨_, rfl⟩
          · rename_i hnone
            refine absurd ⟨not_not.mp hfits, ?_⟩ hok
            simpa [Option.isSome_iff_ne_none] using hnone
      obtain ⟨err, herr⟩ := herror
      rw [herr]
      refine ⟨rfl, rfl, fun j => ?_⟩
      simp only [hok, and_false, or_false]
  have hrows : rows'.categories = rows.categories ∧ rows'.requests = rows.requests ∧
      ∀ j, (rows'.items j).isSome = true ↔ (rows.items j).isSome = true ∨
        ((k == j) = true ∧ row.Fits ∧ (rows.categories row.categoryId).isSome = true) := by
    unfold upsertInventory at h
    cases hold : rows.items k with
    | none =>
        rw [hold] at h
        exact hflush rows' h
    | some old =>
        rw [hold] at h
        by_cases hstale : isStale old.updatedAt row.updatedAt = true
        · simp only [if_pos hstale] at h
          subst h
          refine ⟨rfl, rfl, fun j => ⟨.inl, fun hor => ?_⟩⟩
          rcases hor with hj | ⟨hj, -⟩
          · exact hj
          · rw [← beq_iff_eq.mp hj, hold]
            rfl
        · simp only [if_neg hstale] at h
          exact hflush rows' h
  obtain ⟨hcategories, hrequests, hitems⟩ := hrows
  refine ⟨fun j => ?_, fun j => ?_, fun j => ?_⟩
  · rw [hcategories, (hothers j).1]
    simp
  · rw [hrequests, (hothers j).2]
    simp
  · rw [hitems j, hupdates j, hstorable, hcategory]
    simp

/-- The types of the events, and what the handler does with each. -/
theorem deliver_adds (hnew : e.eventId ∉ p.processed) (htenant : e.tenantId.isSome = true)
    (hfits : e.data.FitsType e.eventType) (hkind : mentions e.data ≠ []) :
    Adds e p.rows (deliver p e).rows := by
  obtain ⟨tenantId, htenant⟩ := Option.isSome_iff_exists.mp htenant
  rw [deliver_rows hnew htenant]
  cases hdata : e.data with
  | resourceCategory k name description unit isActive updatedAt =>
      rw [hdata] at hfits
      have happly : applyEvent tenantId e p.rows =
          .ok (upsertCategory tenantId k name description unit isActive updatedAt p.rows) := by
        unfold applyEvent
        refine (if_pos hfits).trans ?_
        rw [hdata]
        rfl
      rw [happly]
      exact adds_category p.rows hdata
  | itemUpdated k categoryId name total reserved available status updatedAt =>
      rw [hdata] at hfits
      have htype : e.eventType = "logistics.inventory.item-updated" := hfits
      have happly : applyEvent tenantId e p.rows = upsertInventory k (inventoryRow tenantId
          categoryId name total reserved available status updatedAt) p.rows := by
        unfold applyEvent
        rw [htype, hdata]
        rfl
      rw [happly]
      refine adds_item (k := k) (fun j => ?_) ?_ (fun j => ?_) ?_ rfl
      · rw [hdata]
        rfl
      · rw [hdata]
        rfl
      · rw [hdata]
        exact ⟨rfl, rfl⟩
      · unfold Storable itemRow?
        rw [htenant, hdata]
        simp
  | requestSubmitted r categoryId urgency quantityNeeded area status updatedAt =>
      rw [hdata] at hfits
      obtain ⟨htype, hquantity⟩ := hfits
      have hread : ∃ data, requestData? e.data = some data ∧
          FitsInteger (data.row tenantId).quantityNeeded := by
        rw [hdata]
        exact ⟨_, rfl, hquantity⟩
      obtain ⟨data, hread, hfits⟩ := hread
      obtain ⟨rows', hupsert, hadds⟩ := adds_request p.rows hread hfits
      have happly : applyEvent tenantId e p.rows = applyRequest tenantId e.data p.rows := by
        unfold applyEvent
        rw [htype]
        rfl
      rw [happly, applyRequest, hread]
      simp only [hupsert]
      exact hadds
  | requestStatusChanged r categoryId quantityNeeded old new requester changedBy updatedAt =>
      rw [hdata] at hfits
      obtain ⟨htype, hquantity⟩ := hfits
      have hread : ∃ data, requestData? e.data = some data ∧
          FitsInteger (data.row tenantId).quantityNeeded := by
        rw [hdata]
        exact ⟨_, rfl, hquantity⟩
      obtain ⟨data, hread, hfits⟩ := hread
      obtain ⟨rows', hupsert, hadds⟩ := adds_request p.rows hread hfits
      have happly : applyEvent tenantId e p.rows = applyRequest tenantId e.data p.rows := by
        unfold applyEvent
        rw [htype]
        rfl
      rw [happly, applyRequest, hread]
      simp only [hupsert]
      exact hadds
  | taskAssigned =>
      rw [hdata] at hkind
      exact absurd rfl hkind
  | lowStock =>
      rw [hdata] at hkind
      exact absurd rfl hkind

end Presence

/-! ## Deliveries -/

section Deliveries

variable {d : List (Envelope Message)} {e x : Envelope Message} {p : Inbox Projections}

/-- A later event does not help those before it. -/
theorem placed_snoc_of_mem (hnew : e ∉ d) (hx : x ∈ d) : Placed (d ++ [e]) x ↔ Placed d x := by
  have hidx := idxOf_append_of_mem (e := e) hx
  have hlt : d.idxOf x < d.length := List.idxOf_lt_length_iff.mpr hx
  unfold Placed
  constructor
  · rintro ⟨hstorable, k, hk, c, hc, hdescribes, hbefore⟩
    rw [hidx] at hbefore
    rcases List.mem_append.mp hc with hc | hc
    · rw [idxOf_append_of_mem hc] at hbefore
      exact ⟨hstorable, k, hk, c, hc, hdescribes, hbefore⟩
    · rw [List.mem_singleton.mp hc, idxOf_append_last hnew] at hbefore
      omega
  · rintro ⟨hstorable, k, hk, c, hc, hdescribes, hbefore⟩
    refine ⟨hstorable, k, hk, c, List.mem_append_left _ hc, hdescribes, ?_⟩
    rw [hidx, idxOf_append_of_mem hc]
    exact hbefore

/-- All events there are come before the new one. -/
theorem placed_snoc (hnew : e ∉ d) : Placed (d ++ [e]) e ↔
    Storable e ∧ ∃ k ∈ itemCategory? e.data, ∃ c ∈ d, c.data.describes k = true := by
  unfold Placed
  rw [idxOf_append_last hnew]
  constructor
  · rintro ⟨hstorable, k, hk, c, hc, hdescribes, hbefore⟩
    rcases List.mem_append.mp hc with hc | hc
    · exact ⟨hstorable, k, hk, c, hc, hdescribes⟩
    · rw [List.mem_singleton.mp hc, idxOf_append_last hnew] at hbefore
      omega
  · rintro ⟨hstorable, k, hk, c, hc, hdescribes⟩
    refine ⟨hstorable, k, hk, c, List.mem_append_left _ hc, hdescribes, ?_⟩
    rw [idxOf_append_of_mem hc]
    exact List.idxOf_lt_length_iff.mpr hc

/-- The rows there are after the deliveries `d`. -/
structure Received (d : List (Envelope Message)) (p : Inbox Projections) : Prop where
  processed : ∀ id ∈ p.processed, ∃ e ∈ d, e.eventId = id
  categories : ∀ k, (p.rows.categories k).isSome = true ↔ ∃ c ∈ d, c.data.describes k = true
  requests : ∀ k, (p.rows.requests k).isSome = true ↔ ∃ x ∈ d, x.data.tells k = true
  items : ∀ k, (p.rows.items k).isSome = true ↔
    ∃ x ∈ d, x.data.updates k = true ∧ Placed d x

theorem deliver_processed {id : Uuid} (h : id ∈ (deliver p e).processed) :
    id ∈ p.processed ∨ e.eventId = id := by
  unfold deliver Inbox.onMessage handle Inbox.handle at h
  cases htenant : e.tenantId with
  | none =>
      rw [htenant] at h
      exact .inl h
  | some tenantId =>
      rw [htenant] at h
      by_cases hseen : e.eventId ∈ p.processed
      · simp only [if_pos hseen] at h
        exact .inl h
      · simp only [if_neg hseen] at h
        cases happly : applyEvent tenantId e p.rows with
        | error err =>
            rw [happly] at h
            exact .inl h
        | ok rows =>
            rw [happly] at h
            rcases List.mem_cons.mp h with rfl | h
            · exact .inr rfl
            · exact .inl h

theorem Received.deliver (h : Received d p) (hnew : e ∉ d)
    (hids : ∀ x ∈ d, x.eventId = e.eventId → x = e) (htenant : e.tenantId.isSome = true)
    (hfits : e.data.FitsType e.eventType) (hkind : mentions e.data ≠ []) :
    Received (d ++ [e]) (deliver p e) := by
  have hfresh : e.eventId ∉ p.processed := by
    intro hseen
    obtain ⟨x, hx, hid⟩ := h.processed _ hseen
    exact hnew (hids x hx hid ▸ hx)
  have hadds := deliver_adds hfresh htenant hfits hkind
  have hsnoc : ∀ q : Envelope Message → Prop, (∃ x ∈ d ++ [e], q x) ↔ (∃ x ∈ d, q x) ∨ q e := by
    intro q
    simp [or_and_right, exists_or]
  refine ⟨fun id hid => ?_, fun k => ?_, fun k => ?_, fun k => ?_⟩
  · rcases deliver_processed hid with hid | hid
    · obtain ⟨x, hx, hxid⟩ := h.processed id hid
      exact ⟨x, List.mem_append_left _ hx, hxid⟩
    · exact ⟨e, List.mem_append_right _ List.mem_cons_self, hid⟩
  · rw [hadds.categories k, h.categories k, hsnoc]
  · rw [hadds.requests k, h.requests k, hsnoc]
  · rw [hadds.items k, h.items k, hsnoc, placed_snoc hnew]
    refine or_congr ?_ ?_
    · refine exists_congr fun x => and_congr_right fun hx => and_congr_right fun _ => ?_
      exact (placed_snoc_of_mem hnew hx).symm
    · refine and_congr_right fun _ => and_congr_right fun _ => exists_congr fun j => ?_
      rw [h.categories j]

theorem received {d : List (Envelope Message)} (hnodup : d.Nodup)
    (hids : ∀ x ∈ d, ∀ y ∈ d, x.eventId = y.eventId → x = y)
    (hd : ∀ e ∈ d, e.tenantId.isSome = true ∧ e.data.FitsType e.eventType ∧ mentions e.data ≠ []) :
    Received d (d.foldl deliver newInbox) := by
  induction d using List.reverseRecOn with
  | nil =>
      refine ⟨fun id hid => ?_, fun k => ?_, fun k => ?_, fun k => ?_⟩
      · cases hid
      · simp [newInbox]
      · simp [newInbox]
      · simp [newInbox]
  | append_singleton d e ih =>
      have he : e ∈ d ++ [e] := List.mem_append_right _ List.mem_cons_self
      rw [List.nodup_append] at hnodup
      have hnew : e ∉ d := fun hmem => hnodup.2.2 e hmem e List.mem_cons_self rfl
      have hreceived := ih hnodup.1
        (fun x hx y hy => hids x (List.mem_append_left _ hx) y (List.mem_append_left _ hy))
        fun x hx => hd x (List.mem_append_left _ hx)
      obtain ⟨htenant, hfits, hkind⟩ := hd e he
      rw [List.foldl_append]
      exact hreceived.deliver hnew (fun x hx => hids x (List.mem_append_left _ hx) e he) htenant
        hfits hkind

theorem item_mem_mentions {m : Message} {k : Uuid} :
    Entity.item k ∈ mentions m ↔ m.updates k = true := by
  cases m with
  | itemUpdated itemId => simpa [mentions, Message.updates] using eq_comm
  | _ => simp [mentions, Message.updates]

theorem request_mem_mentions {m : Message} {k : Uuid} :
    Entity.request k ∈ mentions m ↔ m.tells k = true := by
  cases m with
  | requestSubmitted requestId => simpa [mentions, Message.tells] using eq_comm
  | requestStatusChanged requestId => simpa [mentions, Message.tells] using eq_comm
  | _ => simp [mentions, Message.tells]

/-- Everything that is named has a row exactly if the categories come first. -/
theorem Received.all_iff (h : Received d p) :
    (∀ e ∈ d, ∀ x ∈ mentions e.data, p.rows.has x = true) ↔ CategoriesFirst d := by
  constructor
  · intro hall
    refine ⟨fun e he k hk => ?_, fun e he k hk => ?_⟩
    · exact (h.items k).mp (hall e he (.item k) (item_mem_mentions.mpr hk))
    · exact (h.categories k).mp (hall e he (.category k) hk)
  · intro hfirst e he x hx
    cases x with
    | category k => exact (h.categories k).mpr (hfirst.categories e he k hx)
    | item k => exact (h.items k).mpr (hfirst.items e he k (item_mem_mentions.mp hx))
    | request k => exact (h.requests k).mpr ⟨e, he, request_mem_mentions.mp hx⟩

end Deliveries

/-- In every run of the service, and for all deliveries of events that it has emitted, each
event being delivered once: all that the events name has a row exactly if the categories come
first. -/
theorem nothing_lost_iff {validatePayload : Option (List Json) → Option Object →
      Except FormErrors (Option Object)} {replicas : List Logistics.UserReplica}
    {c : Config Db Logistics.Error Unit Operation}
    (hrun : Run (Operation.body validatePayload) (Config.start (Db.initial [] replicas)) c)
    {d : List (Envelope Message)} (hnodup : d.Nodup)
    (hd : ∀ e ∈ d, e ∈ c.store.events ∧ mentions e.data ≠ []) :
    (∀ e ∈ d, ∀ x ∈ mentions e.data, (d.foldl deliver newInbox).rows.has x = true) ↔
      CategoriesFirst d := by
  have hemits := Logistics.run_emits hrun
  have hnumbered : Numbered c.store.outbox.committed :=
    fun o row ho => (hemits.outbox.committed ho).eventId
  refine (received hnodup (fun x hx y hy => ?_) fun e he => ?_).all_iff
  · exact Logistics.event_eq_of_id hnumbered (hd x hx).1 (hd y hy).1
  · obtain ⟨hevent, hkind⟩ := hd e he
    obtain ⟨row, hrow, rfl⟩ := List.mem_map.mp hevent
    obtain ⟨o, ho⟩ := Table.committed_of_mem_values hrow
    have hemitted := hemits.outbox.committed ho
    exact ⟨hemitted.tenantId, hemitted.data, hkind⟩

/-- A category is created, ten tents are added under it and four are reserved. -/
def campCalls : List Operation :=
  [.category (.createCategory (some 1)
      { name := "Tents", accepted := Logistics.Workflow.accepted_none } 0),
    .call (.addInventoryItem (some 1) Logistics.tents 1),
    .call (.reserveStock Logistics.coordinator 0 4 2)]

def tentsCreated : Envelope Message :=
  { eventId := 0
    eventType := "logistics.resource-category.created"
    tenantId := some 1
    data := .resourceCategory 0 "Tents" none "unit" true 0 }

def tentsAdded : Envelope Message :=
  { eventId := 1
    eventType := "logistics.inventory.item-updated"
    tenantId := some 1
    data := .itemUpdated 0 0 "Tent" 10 0 10 .available 1 }

def tentsReserved : Envelope Message :=
  { eventId := 2
    eventType := "logistics.inventory.item-updated"
    tenantId := some 1
    data := .itemUpdated 0 0 "Tent" 10 4 6 .available 1 }

theorem camp_run (n : Nat) {events : List (Envelope Message)}
    (h : (calls (Operation.body fun _ fields => .ok fields) (campCalls.take n) 0
      (Db.initial [] [])).map Db.events = some events) :
    ∃ c : Config Db Logistics.Error Unit Operation,
      Run (Operation.body fun _ fields => .ok fields) (Config.start (Db.initial [] [])) c ∧
      c.store.events = events := by
  obtain ⟨s, hcalls, hevents⟩ := Option.map_eq_some_iff.mp h
  obtain ⟨c, hrun, rfl⟩ := Run.calls (c := Config.start _) (fun _ => rfl) hcalls
  exact ⟨c, hrun, hevents⟩

/-- The creation of the item comes first and is lost, and the reservation that comes after
the category makes its row. -/
theorem nothing_lost_camp : ∃ c : Config Db Logistics.Error Unit Operation,
    Run (Operation.body fun _ fields => .ok fields) (Config.start (Db.initial [] [])) c ∧
    c.store.events = [tentsCreated, tentsAdded, tentsReserved] ∧
    ∀ e ∈ [tentsAdded, tentsCreated, tentsReserved], ∀ x ∈ mentions e.data,
      ([tentsAdded, tentsCreated, tentsReserved].foldl deliver newInbox).rows.has x = true := by
  obtain ⟨c, hrun, hevents⟩ := camp_run 3 (by decide +kernel :
    _ = some [tentsCreated, tentsAdded, tentsReserved])
  refine ⟨c, hrun, hevents, ?_⟩
  have hd : ∀ e ∈ [tentsAdded, tentsCreated, tentsReserved],
      e ∈ c.store.events ∧ mentions e.data ≠ [] := by
    rw [hevents]
    decide
  refine (nothing_lost_iff hrun (by decide) hd).mpr ⟨fun e he k hk => ?_, fun e he k hk => ?_⟩
  · have hzero : k = 0 := by
      simp only [List.mem_cons, List.not_mem_nil, or_false] at he
      rcases he with rfl | rfl | rfl
      · exact (beq_iff_eq.mp hk).symm
      · cases hk
      · exact (beq_iff_eq.mp hk).symm
    subst hzero
    exact ⟨tentsReserved, by decide, by decide, by decide, 0, rfl, tentsCreated, by decide,
      by decide, by decide⟩
  · have hzero : k = 0 := by
      simp only [List.mem_cons, List.not_mem_nil, or_false] at he
      rcases he with rfl | rfl | rfl <;> simpa [tentsAdded, tentsCreated, tentsReserved, mentions]
        using hk
    subst hzero
    exact ⟨tentsCreated, by decide, by decide⟩

/-- The item arrives before its category. -/
theorem item_lost : ¬ ∀ (c : Config Db Logistics.Error Unit Operation) (tenantId : Uuid)
    (d : List (Envelope Message)),
    Run (Operation.body fun _ fields => .ok fields) (Config.start (Db.initial [] [])) c →
    d.Nodup →
    (∀ e, e ∈ d ↔ e ∈ c.store.events ∧ e.tenantId = some tenantId ∧ mentions e.data ≠ []) →
    ∀ e ∈ d, ∀ x ∈ mentions e.data, (d.foldl deliver newInbox).rows.has x = true := by
  intro hclaim
  obtain ⟨c, hrun, hevents⟩ := camp_run 2 (by decide +kernel :
    _ = some [tentsCreated, tentsAdded])
  have hd : ∀ e, e ∈ [tentsAdded, tentsCreated] ↔
      e ∈ c.store.events ∧ e.tenantId = some 1 ∧ mentions e.data ≠ [] := by
    rw [hevents]
    intro e
    constructor
    · intro he
      simp only [List.mem_cons, List.not_mem_nil, or_false] at he
      rcases he with rfl | rfl
      · decide
      · decide
    · rintro ⟨he, -⟩
      simpa [or_comm] using he
  have hall := hclaim c 1 [tentsAdded, tentsCreated] hrun (by decide) hd tentsAdded
    List.mem_cons_self (.item 0) (by decide)
  exact absurd hall (by decide)

end Analytics
end Rcp
