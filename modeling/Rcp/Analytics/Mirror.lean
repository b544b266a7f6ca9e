/-
The projections follow the tables of the logistics service.

The operations are made one after the other and their events delivered in the order of
the outbox.  Every operation of the service, its events then delivered, is a step of the
projections that keeps them in agreement with the tables.  `assign_task` moves an
approved request to `in_progress` and sends no status change, so a projection may still
say `approved` then.
-/
import Rcp.Analytics.Categories
import Rcp.Analytics.Order
import Rcp.Analytics.Requests
import Rcp.Sql.Aggregate

namespace Rcp
namespace Analytics

open Sql Sql.Table
open Logistics (Message ResourceCategory InventoryItem HelpRequest Operation CategoryCall Call Db
  FormErrors FitsInteger Rows Effect CategoryEffect CategoryResult itemMessage newItem newCategory
  stamped StockCall schema)

structure CategoryMirrored (category : ResourceCategory) (row : CategoryProjection) : Prop where
  tenantId : row.tenantId = category.tenantId
  content : Reflects row category

structure ItemMirrored (item : InventoryItem) (row : InventoryProjection) : Prop where
  tenantId : row.tenantId = item.tenantId
  categoryId : row.categoryId = item.categoryId
  stock : row.stock = item.stock
  stamp : ∃ stamp ≤ item.updatedAt, row.updatedAt = some stamp

structure RequestMirrored (request : HelpRequest) (row : RequestProjection) : Prop where
  tenantId : row.tenantId = request.tenantId
  categoryId : row.categoryId = request.categoryId
  quantityNeeded : row.quantityNeeded = request.quantityNeeded
  fits : FitsInteger request.quantityNeeded
  status : row.status = request.status.value ∨
    (row.status = "approved" ∧ request.status = .inProgress)

/-- The time of an operation made so far, or before it. -/
def Since (past : List Operation) (stamp : Time) : Prop := ∃ a ∈ past, stamp ≤ a.now

/-- The projections `p` agree with the tables `w` after the events `E`. -/
structure Agree (past : List Operation) (w : Rows) (E : List (Envelope Message))
    (p : Inbox Projections) : Prop where
  categories : ∀ k, Option.Rel CategoryMirrored (w.categories k) (p.rows.categories k)
  items : ∀ k, Option.Rel ItemMirrored (w.items k) (p.rows.items k)
  requests : ∀ r, Option.Rel RequestMirrored (w.requests r) (p.rows.requests r)
  /-- The category of an item is there, in whatever tenant. -/
  filed : ∀ k item, w.items k = some item → (w.categories item.categoryId).isSome = true
  /-- The category of a request is there, in the tenant of the request. -/
  belongs : ∀ r request, w.requests r = some request →
    ∃ category, w.categories request.categoryId = some category ∧
      category.tenantId = request.tenantId
  categoryStamps : ∀ k category, w.categories k = some category → Since past category.updatedAt
  itemStamps : ∀ k item, w.items k = some item → Since past item.updatedAt
  requestStamps : ∀ r row, p.rows.requests r = some row →
    ∃ stamp, row.updatedAt = some stamp ∧ Since past stamp
  handled : ∀ id ∈ p.processed, ∃ e ∈ E, e.eventId = id

section Steps

variable {past : List Operation} {op : Operation} {w w' W : Rows} {E : List (Envelope Message)}
  {p : Inbox Projections} {e : Envelope Message} {tenantId : Uuid}

theorem Since.snoc {stamp : Time} (h : Since past stamp) : Since (past ++ [op]) stamp := by
  obtain ⟨a, ha, hle⟩ := h
  exact ⟨a, List.mem_append_left _ ha, hle⟩

theorem Since.now {stamp : Time} (h : stamp ≤ op.now) : Since (past ++ [op]) stamp :=
  ⟨op, List.mem_append_right _ List.mem_cons_self, h⟩

theorem Since.le {stamp now : Time} (h : Since past stamp) (hclock : ∀ a ∈ past, a.now ≤ now) :
    stamp ≤ now := by
  obtain ⟨a, ha, hle⟩ := h
  exact le_trans hle (hclock a ha)

/-- One more row on either side. -/
theorem rel_single {V V' : Type} {R : V → V' → Prop} {f : Nat → Option V} {g : Nat → Option V'}
    (h : ∀ j, Option.Rel R (f j) (g j)) {k : Nat} {v : V} {v' : V'} (hv : R v v') (j : Nat) :
    Option.Rel R ((single k v j).or (f j)) (Function.update g k (some v') j) := by
  by_cases hj : j = k
  · subst hj
    rw [single_self, Function.update_self]
    exact .some hv
  · rw [single_of_ne _ hj, Function.update_of_ne hj]
    exact h j

theorem single_cases {V : Type} {f : Nat → Option V} {k j : Nat} {v u : V}
    (h : (single k v j).or (f j) = some u) : (j = k ∧ u = v) ∨ f j = some u := by
  by_cases hj : j = k
  · subst hj
    rw [single_self] at h
    cases h
    exact .inl ⟨rfl, rfl⟩
  · rw [single_of_ne _ hj] at h
    exact .inr h

theorem update_cases {V : Type} {f : Nat → Option V} {k j : Nat} {v u : V}
    (h : Function.update f k (some v) j = some u) : (j = k ∧ u = v) ∨ f j = some u := by
  by_cases hj : j = k
  · subst hj
    rw [Function.update_self] at h
    cases h
    exact .inl ⟨rfl, rfl⟩
  · rw [Function.update_of_ne hj] at h
    exact .inr h

theorem rel_left {V V' : Type} {R : V → V' → Prop} {x : Option V} {y : Option V'} {v : V}
    (h : Option.Rel R x y) (hx : x = some v) : ∃ v', y = some v' ∧ R v v' := by
  subst hx
  cases h with
  | some hR => exact ⟨_, rfl, hR⟩

theorem rel_none {V V' : Type} {R : V → V' → Prop} {x : Option V} {y : Option V'}
    (h : Option.Rel R x y) (hx : x = none) : y = none := by
  subst hx
  cases h with
  | none => rfl

theorem not_stale {stored stamp : Time} (h : stored ≤ stamp) :
    isStale (some stored) (some stamp) = false :=
  decide_eq_false (not_lt.mpr h)

/-- An event whose handler changes no row, or fails. -/
theorem Agree.quiet (h : Agree past w E p)
    (hquiet : ∀ tenantId rows, applyEvent tenantId e p.rows = .ok rows → rows = p.rows)
    (hnew : e.eventId ∉ p.processed) : Agree past w (E ++ [e]) (deliver p e) := by
  have hrows : (deliver p e).rows = p.rows := by
    cases htenant : e.tenantId with
    | none =>
        unfold deliver Inbox.onMessage handle
        rw [htenant]
    | some tenantId =>
        rw [deliver_rows hnew htenant]
        cases happly : applyEvent tenantId e p.rows with
        | error err => rfl
        | ok rows => exact hquiet tenantId rows happly
  have hhandled : ∀ id ∈ (deliver p e).processed, ∃ x ∈ E ++ [e], x.eventId = id := by
    intro id hid
    rcases deliver_processed hid with hid | hid
    · obtain ⟨x, hx, hxid⟩ := h.handled id hid
      exact ⟨x, List.mem_append_left _ hx, hxid⟩
    · exact ⟨e, List.mem_append_right _ List.mem_cons_self, hid⟩
  exact
    { categories := hrows ▸ h.categories
      items := hrows ▸ h.items
      requests := hrows ▸ h.requests
      filed := h.filed
      belongs := h.belongs
      categoryStamps := h.categoryStamps
      itemStamps := h.itemStamps
      requestStamps := hrows ▸ h.requestStamps
      handled := hhandled }

/-- The operation has written nothing and sent nothing. -/
theorem Agree.past_snoc (h : Agree past w E p) (op : Operation) : Agree (past ++ [op]) w E p :=
  { h with
    categoryStamps := fun k c hc => (h.categoryStamps k c hc).snoc
    itemStamps := fun k i hi => (h.itemStamps k i hi).snoc
    requestStamps := fun r row hr => by
      obtain ⟨stamp, hstamp, hsince⟩ := h.requestStamps r row hr
      exact ⟨stamp, hstamp, hsince.snoc⟩ }

/-- The operation has written neither of these tables. -/
theorem Agree.congr (h : Agree past w E p) (hcategories : w'.categories = w.categories)
    (hitems : w'.items = w.items) (hrequests : w'.requests = w.requests) :
    Agree past w' E p := by
  refine ⟨?_, ?_, ?_, ?_, ?_, ?_, ?_, h.requestStamps, h.handled⟩
  · rw [hcategories]
    exact h.categories
  · rw [hitems]
    exact h.items
  · rw [hrequests]
    exact h.requests
  · rw [hcategories, hitems]
    exact h.filed
  · rw [hcategories, hrequests]
    exact h.belongs
  · rw [hcategories]
    exact h.categoryStamps
  · rw [hitems]
    exact h.itemStamps

theorem handled_snoc (h : ∀ id ∈ p.processed, ∃ x ∈ E, x.eventId = id) :
    ∀ id ∈ (deliver p e).processed, ∃ x ∈ E ++ [e], x.eventId = id := by
  intro id hid
  rcases deliver_processed hid with hid | hid
  · obtain ⟨x, hx, hxid⟩ := h id hid
    exact ⟨x, List.mem_append_left _ hx, hxid⟩
  · exact ⟨e, List.mem_append_right _ List.mem_cons_self, hid⟩

/-- An event that the consumer applies. -/
theorem deliver_applies {rows : Projections} (hnew : e.eventId ∉ p.processed)
    (htenant : e.tenantId.isSome = true) (happly : applyEnvelope e p.rows = .ok rows) :
    (deliver p e).rows = rows := by
  rw [deliver_eq htenant, Inbox.onMessage_ok hnew happly]

/-! ## One event -/

theorem deliver_category {k : Uuid} {category : ResourceCategory}
    (hevent : Logistics.CategoryEvent k category.tenantId e)
    (hshows : Logistics.Shows k category e) (hnew : e.eventId ∉ p.processed)
    (hstored : ∀ old, p.rows.categories k = some old → old.tenantId = category.tenantId ∧
      ∃ stamp ≤ category.updatedAt, old.updatedAt = some stamp) :
    ∃ row, CategoryMirrored category row ∧ (deliver p e).rows =
      { p.rows with categories := Function.update p.rows.categories k (some row) } := by
  obtain ⟨row, stamp, hrow, htenant, hat, hstamp, happly⟩ := CategoryEvent.row hevent
  have hreflects := Shows.reflects hshows hrow
  refine ⟨row, ⟨htenant, hreflects⟩, deliver_applies hnew (by rw [hevent.2.1]; rfl) ?_⟩
  rw [happly p.rows fun old hold => (hstored old hold).1]
  cases hold : p.rows.categories k with
  | none => rfl
  | some old =>
      obtain ⟨-, stored, hle, hstored⟩ := hstored old hold
      show (if isStale old.updatedAt row.updatedAt = true then _ else _) = _
      rw [hstored, hreflects.updatedAt, not_stale hle]
      rfl

theorem deliver_item {k : Uuid} (item : InventoryItem) {changed : InventoryItem}
    (hkept : changed.tenantId = item.tenantId ∧ changed.categoryId = item.categoryId)
    {stamp : Time} (htype : e.eventType = "logistics.inventory.item-updated")
    (htenant : e.tenantId = some item.tenantId) (hdata : e.data = itemMessage k changed stamp)
    (hnew : e.eventId ∉ p.processed) (hfits : Storable e)
    (hcategory : (p.rows.categories item.categoryId).isSome = true)
    (hstored : ∀ old, p.rows.items k = some old → ∃ at' ≤ stamp, old.updatedAt = some at') :
    ∃ row, (row.tenantId = changed.tenantId ∧ row.categoryId = changed.categoryId ∧
      row.stock = changed.stock ∧ row.updatedAt = some stamp) ∧ (deliver p e).rows =
      { p.rows with items := Function.update p.rows.items k (some row) } := by
  let row := inventoryRow item.tenantId changed.categoryId changed.name changed.quantityTotal
    changed.quantityReserved changed.quantityAvailable changed.status stamp
  have hrow : row.Fits := by
    refine hfits row ?_
    unfold itemRow?
    rw [htenant, hdata]
    rfl
  have hflush : flushInventory k row p.rows =
      .ok { p.rows with items := Function.update p.rows.items k (some row) } :=
    flushInventory_ok hrow (show (p.rows.categories changed.categoryId).isSome = true by
      rw [hkept.2]
      exact hcategory)
  refine ⟨row, ⟨hkept.1.symm, rfl, rfl, rfl⟩, deliver_applies hnew (by rw [htenant]; rfl) ?_⟩
  have happly : applyEnvelope e p.rows = upsertInventory k row p.rows := by
    unfold applyEnvelope
    rw [htenant]
    unfold applyEvent
    rw [htype, hdata]
    rfl
  rw [happly]
  unfold upsertInventory
  cases hold : p.rows.items k with
  | none => exact hflush
  | some old =>
      obtain ⟨stored, hle, hstored⟩ := hstored old hold
      show (if isStale old.updatedAt (some stamp) = true then _ else _) = _
      rw [hstored, not_stale hle]
      exact hflush

theorem deliver_request {r : Uuid} {request : HelpRequest} {row : RequestProjection}
    (hupsert : RequestUpsert r request e row) (htenant : e.tenantId.isSome = true)
    (hfits : FitsInteger request.quantityNeeded) (hnew : e.eventId ∉ p.processed)
    (hstored : ∀ old, p.rows.requests r = some old → ∃ stored stamp : Time,
      old.updatedAt = some stored ∧ row.updatedAt = some stamp ∧ stored ≤ stamp) :
    (deliver p e).rows =
      { p.rows with requests := Function.update p.rows.requests r (some row) } := by
  have hflush := flushRequest_ok (r := r) (hupsert.quantityNeeded ▸ hfits) p.rows
  refine deliver_applies hnew htenant ?_
  rw [hupsert.applied]
  cases hold : p.rows.requests r with
  | none => exact hflush
  | some old =>
      obtain ⟨stored, stamp, hat, hrow, hle⟩ := hstored old hold
      show (if isStale old.updatedAt row.updatedAt = true then _ else _) = _
      rw [hat, hrow, not_stale hle]
      exact hflush

/-! ## One operation -/

theorem Agree.fresh (h : Agree past w E p) (hids : ∀ x ∈ E, x.eventId ≠ e.eventId) :
    e.eventId ∉ p.processed := by
  intro hmem
  obtain ⟨x, hx, hid⟩ := h.handled e.eventId hmem
  exact hids x hx hid

/-- A request is written and its event tells the row. -/
theorem Agree.request (h : Agree past w E p) (op : Operation) {r : Uuid} {request : HelpRequest}
    {row : RequestProjection} (hcategories : w'.categories = w.categories)
    (hitems : w'.items = w.items)
    (hrequests : ∀ j, w'.requests j = (single r request j).or (w.requests j))
    (hupsert : RequestUpsert r request e row) (htenant : e.tenantId.isSome = true)
    (hfits : FitsInteger request.quantityNeeded) (hstatus : row.status = request.status.value)
    (hnow : e.data.stamp = op.now) (hbelongs : ∃ category,
      w.categories request.categoryId = some category ∧ category.tenantId = request.tenantId)
    (hclock : ∀ a ∈ past, a.now ≤ op.now) (hids : ∀ x ∈ E, x.eventId ≠ e.eventId) :
    Agree (past ++ [op]) w' (E ++ [e]) (deliver p e) := by
  have hnew := h.fresh hids
  obtain ⟨stamp, hat, hstamp⟩ := hupsert.stamp
  have hstampNow : stamp = op.now := WithBot.coe_injective (hstamp.symm.trans hnow)
  have hrows := deliver_request hupsert htenant hfits hnew fun old hold => by
    obtain ⟨stored, hstored, hsince⟩ := h.requestStamps r old hold
    exact ⟨stored, stamp, hstored, hat, hstampNow ▸ hsince.le hclock⟩
  have hmirrored : RequestMirrored request row :=
    ⟨hupsert.tenantId, hupsert.categoryId, hupsert.quantityNeeded, hfits, .inl hstatus⟩
  have h' : Agree (past ++ [op]) w E p := h.past_snoc op
  refine ⟨?_, ?_, ?_, ?_, ?_, ?_, ?_, ?_, handled_snoc h.handled⟩
  · rw [hcategories, hrows]
    exact h.categories
  · rw [hitems, hrows]
    exact h.items
  · intro j
    rw [hrequests, hrows]
    exact rel_single h.requests hmirrored j
  · rw [hcategories, hitems]
    exact h.filed
  · rw [hcategories]
    intro j x hj
    rw [hrequests] at hj
    rcases single_cases hj with ⟨rfl, rfl⟩ | hj
    · exact hbelongs
    · exact h.belongs j x hj
  · rw [hcategories]
    exact h'.categoryStamps
  · rw [hitems]
    exact h'.itemStamps
  · rw [hrows]
    intro j x hj
    rcases update_cases hj with ⟨rfl, rfl⟩ | hj
    · exact ⟨stamp, hat, .now (le_of_eq hstampNow)⟩
    · exact h'.requestStamps j x hj

/-- A request is written and the projection of the old row will do for the new one. -/
theorem Agree.silent (h : Agree past w E p) {r : Uuid} {old request : HelpRequest}
    (hcategories : w'.categories = w.categories) (hitems : w'.items = w.items)
    (hrequests : ∀ j, w'.requests j = (single r request j).or (w.requests j))
    (hold : w.requests r = some old) (htenant : request.tenantId = old.tenantId)
    (hcategory : request.categoryId = old.categoryId)
    (hmirrored : ∀ row, RequestMirrored old row → RequestMirrored request row) :
    Agree past w' E p := by
  refine ⟨?_, ?_, fun j => ?_, ?_, fun j x hj => ?_, ?_, ?_, h.requestStamps, h.handled⟩
  · rw [hcategories]
    exact h.categories
  · rw [hitems]
    exact h.items
  · rw [hrequests]
    by_cases hj : j = r
    · subst hj
      rw [single_self]
      obtain ⟨row, hrow, hrel⟩ := rel_left (h.requests j) hold
      rw [hrow]
      exact .some (hmirrored row hrel)
    · rw [single_of_ne _ hj]
      exact h.requests j
  · rw [hcategories, hitems]
    exact h.filed
  · rw [hrequests] at hj
    rw [hcategories]
    rcases single_cases hj with ⟨rfl, rfl⟩ | hj
    · rw [htenant, hcategory]
      exact h.belongs j old hold
    · exact h.belongs j x hj
  · rw [hcategories]
    exact h.categoryStamps
  · rw [hitems]
    exact h.itemStamps

/-- An item is written and its event shows its stock with an earlier stamp. -/
theorem Agree.item (h : Agree past w E p) (op : Operation) {k : Uuid}
    (changed written : InventoryItem) (stamp : Time) (hcategories : w'.categories = w.categories)
    (hrequests : w'.requests = w.requests)
    (hitems : ∀ j, w'.items j = (single k written j).or (w.items j))
    (hwritten : written.tenantId = changed.tenantId ∧ written.categoryId = changed.categoryId ∧
      written.stock = changed.stock)
    (hle : stamp ≤ written.updatedAt) (hsince : Since (past ++ [op]) written.updatedAt)
    (hcategory : (w.categories changed.categoryId).isSome = true)
    (hold : ∀ old, w.items k = some old → old.updatedAt ≤ stamp)
    (htype : e.eventType = "logistics.inventory.item-updated")
    (htenant : e.tenantId = some changed.tenantId) (hdata : e.data = itemMessage k changed stamp)
    (hfits : Storable e) (hids : ∀ x ∈ E, x.eventId ≠ e.eventId) :
    Agree (past ++ [op]) w' (E ++ [e]) (deliver p e) := by
  have hprojected : (p.rows.categories changed.categoryId).isSome = true := by
    obtain ⟨category, hsome⟩ := Option.isSome_iff_exists.mp hcategory
    obtain ⟨row, hrow, -⟩ := rel_left (h.categories changed.categoryId) hsome
    rw [hrow]
    rfl
  have hstored : ∀ old, p.rows.items k = some old → ∃ stored ≤ stamp,
      old.updatedAt = some stored := by
    intro old hprojection
    cases hitem : w.items k with
    | none =>
        rw [rel_none (h.items k) hitem] at hprojection
        cases hprojection
    | some item =>
        obtain ⟨row, hrow, hrel⟩ := rel_left (h.items k) hitem
        rw [hrow] at hprojection
        cases hprojection
        obtain ⟨stored, hstored, hat⟩ := hrel.stamp
        exact ⟨stored, le_trans hstored (hold item hitem), hat⟩
  obtain ⟨row, ⟨hrowTenant, hrowCategory, hrowStock, hrowStamp⟩, hrows⟩ :=
    deliver_item changed ⟨rfl, rfl⟩ htype htenant hdata (h.fresh hids) hfits hprojected
      hstored
  have hmirrored : ItemMirrored written row :=
    ⟨hrowTenant.trans hwritten.1.symm, hrowCategory.trans hwritten.2.1.symm,
      hrowStock.trans hwritten.2.2.symm, stamp, hle, hrowStamp⟩
  have h' : Agree (past ++ [op]) w E p := h.past_snoc op
  refine ⟨?_, ?_, ?_, ?_, ?_, ?_, ?_, ?_, handled_snoc h.handled⟩
  · rw [hcategories, hrows]
    exact h.categories
  · intro j
    rw [hitems, hrows]
    exact rel_single h.items hmirrored j
  · rw [hrequests, hrows]
    exact h.requests
  · rw [hcategories]
    intro j x hj
    rw [hitems] at hj
    rcases single_cases hj with ⟨rfl, rfl⟩ | hj
    · rw [hwritten.2.1]
      exact hcategory
    · exact h.filed j x hj
  · rw [hcategories, hrequests]
    exact h.belongs
  · rw [hcategories]
    exact h'.categoryStamps
  · intro j x hj
    rw [hitems] at hj
    rcases single_cases hj with ⟨rfl, rfl⟩ | hj
    · exact hsince
    · exact h'.itemStamps j x hj
  · rw [hrows]
    exact h'.requestStamps

/-- A category is written, or left as it is, and its event shows it. -/
theorem Agree.category (h : Agree past w E p) (op : Operation) {k : Uuid}
    {category : ResourceCategory}
    (hcategories : ∀ j, w'.categories j = (single k category j).or (w.categories j))
    (hitems : w'.items = w.items) (hrequests : w'.requests = w.requests)
    (hold : ∀ old, w.categories k = some old → old.tenantId = category.tenantId ∧
      old.updatedAt ≤ category.updatedAt)
    (hsince : Since (past ++ [op]) category.updatedAt)
    (hevent : Logistics.CategoryEvent k category.tenantId e)
    (hshows : Logistics.Shows k category e) (hids : ∀ x ∈ E, x.eventId ≠ e.eventId) :
    Agree (past ++ [op]) w' (E ++ [e]) (deliver p e) := by
  have hstored : ∀ old, p.rows.categories k = some old → old.tenantId = category.tenantId ∧
      ∃ stamp ≤ category.updatedAt, old.updatedAt = some stamp := by
    intro old hprojection
    cases hcategory : w.categories k with
    | none =>
        rw [rel_none (h.categories k) hcategory] at hprojection
        cases hprojection
    | some stored =>
        obtain ⟨row, hrow, hrel⟩ := rel_left (h.categories k) hcategory
        rw [hrow] at hprojection
        cases hprojection
        obtain ⟨htenant, hle⟩ := hold stored hcategory
        exact ⟨hrel.tenantId.trans htenant, stored.updatedAt, hle, hrel.content.updatedAt⟩
  obtain ⟨row, hmirrored, hrows⟩ := deliver_category hevent hshows (h.fresh hids) hstored
  have h' : Agree (past ++ [op]) w E p := h.past_snoc op
  have hstays : ∀ j old, w.categories j = some old →
      ∃ new, w'.categories j = some new ∧ new.tenantId = old.tenantId := by
    intro j old hj
    rw [hcategories]
    by_cases hjk : j = k
    · subst hjk
      rw [single_self]
      exact ⟨category, rfl, (hold old hj).1.symm⟩
    · rw [single_of_ne _ hjk]
      exact ⟨old, hj, rfl⟩
  refine ⟨fun j => ?_, ?_, ?_, ?_, ?_, ?_, ?_, ?_, handled_snoc h.handled⟩
  · rw [hcategories, hrows]
    exact rel_single h.categories hmirrored j
  · rw [hitems, hrows]
    exact h.items
  · rw [hrequests, hrows]
    exact h.requests
  · rw [hitems]
    intro j x hj
    obtain ⟨old, hold⟩ := Option.isSome_iff_exists.mp (h.filed j x hj)
    obtain ⟨new, hnew, -⟩ := hstays _ old hold
    rw [hnew]
    rfl
  · rw [hrequests]
    intro j x hj
    obtain ⟨old, hold, htenant⟩ := h.belongs j x hj
    obtain ⟨new, hnew, hsame⟩ := hstays _ old hold
    exact ⟨new, hnew, hsame.trans htenant⟩
  · intro j x hj
    rw [hcategories] at hj
    rcases single_cases hj with ⟨rfl, rfl⟩ | hj
    · exact hsince
    · exact h'.categoryStamps j x hj
  · rw [hitems]
    exact h'.itemStamps
  · rw [hrows]
    exact h'.requestStamps

/-- The data of an event that tells the projections nothing. -/
def Quiet : Message → Prop
  | .taskAssigned .. | .lowStock .. => True
  | _ => False

theorem quiet_applies {rows rows' : Projections} (h : Quiet e.data)
    (happly : applyEvent tenantId e rows = .ok rows') : rows' = rows := by
  have hrefused : applyCategory tenantId e.data rows = .error .keyError ∧
      applyInventory tenantId e.data rows = .error .keyError ∧
      applyRequest tenantId e.data rows = .error .keyError := by
    cases hdata : e.data with
    | taskAssigned => exact ⟨rfl, rfl, rfl⟩
    | lowStock => exact ⟨rfl, rfl, rfl⟩
    | requestSubmitted | requestStatusChanged | itemUpdated | resourceCategory =>
        rw [hdata] at h
        exact h.elim
  unfold applyEvent at happly
  rw [hrefused.1, hrefused.2.1, hrefused.2.2] at happly
  repeat (split at happly; · cases happly)
  cases happly
  rfl

theorem Agree.hush (h : Agree past w E p) (hquiet : Quiet e.data)
    (hids : ∀ x ∈ E, x.eventId ≠ e.eventId) : Agree past w (E ++ [e]) (deliver p e) :=
  h.quiet (fun _ _ => quiet_applies hquiet) (h.fresh hids)

/-- Any number of such events. -/
theorem Agree.hushAll {l : List (Envelope Message)} (h : Agree past w E p)
    (hquiet : ∀ x ∈ l, Quiet x.data) (hids : ((E ++ l).map Envelope.eventId).Nodup) :
    Agree past w (E ++ l) (l.foldl deliver p) := by
  induction l generalizing E p with
  | nil => simpa using h
  | cons x rest ih =>
      have hsplit : E ++ x :: rest = E ++ [x] ++ rest := by simp
      rw [hsplit] at hids ⊢
      have hx : ∀ y ∈ E, y.eventId ≠ x.eventId := by
        intro y hy heq
        rw [List.map_append, List.map_append, List.nodup_append] at hids
        have hdisjoint := (List.nodup_append.mp hids.1).2.2
        exact hdisjoint _ (List.mem_map.mpr ⟨y, hy, rfl⟩) _ (by simp) heq
      exact ih (h.hush (hquiet x List.mem_cons_self) hx)
        (fun y hy => hquiet y (List.mem_cons_of_mem _ hy)) hids

/-- An item is added to a category that is there. -/
def Shelved (a : Operation) (w w' : Rows) : Prop :=
  match a with
  | .call (.addInventoryItem _ data _) => w' = w ∨ (w.categories data.categoryId).isSome = true
  | _ => True

theorem fresh_of_nodup (hids : ((E ++ [e]).map Envelope.eventId).Nodup) :
    ∀ x ∈ E, x.eventId ≠ e.eventId := by
  intro x hx heq
  rw [List.map_append, List.nodup_append] at hids
  exact hids.2.2 _ (List.mem_map.mpr ⟨x, hx, rfl⟩) _ (by simp) heq

theorem Agree.call {a : Call} {l : List (Outbox Message)} (h : Agree past w E p)
    (he : Effect a w W l) (hshelved : Shelved (.call a) w (W.overlay w))
    (hclock : ∀ b ∈ past, b.now ≤ a.now) (hfits : ∀ x ∈ l, Storable x.payload)
    (hids : ((E ++ l.map Outbox.payload).map Envelope.eventId).Nodup) :
    Agree (past ++ [.call a]) (W.overlay w) (E ++ l.map Outbox.payload)
      ((l.map Outbox.payload).foldl deliver p) := by
  cases he with
  | @submitted principal data now _ category status extraFields r o request x hcategory htenant
      hstatus hquantity hrequest hr ho hrow =>
      subst hrequest
      have hids := fresh_of_nodup hids
      have hform : Logistics.submission r
          (Logistics.newRequest category.tenantId principal data status extraFields now)
          x.payload := by
        rw [hrow]
        exact ⟨rfl, htenant.symm, _, _, _, rfl⟩
      obtain ⟨row, hupsert, -⟩ := submission_upsert hform
      refine h.request (.call _) rfl rfl (fun _ => rfl) hupsert (by rw [hform.2.1]; rfl)
        hquantity ?_ (by rw [hrow]; rfl) ⟨_, hcategory, rfl⟩ hclock hids
      refine hupsert.status status status ?_
      rw [hrow]
      show (if r = r then some status else _) = _
      rw [if_pos rfl]
  | @moved r o request newStatus principal now _ allowed x hallowed hnew hr ho hrow =>
      have hids := fresh_of_nodup hids
      have hquantity := (Logistics.applyStatus_kept newStatus principal now request).2
      have hform : Logistics.statusChange r
          (Logistics.applyStatus newStatus principal now request) x.payload := by
        rw [hrow]
        refine ⟨rfl, congrArg some (Logistics.applyStatus_tenantId ..).symm, request.status,
          newStatus, request.requesterUserId, principal.userId, now, ?_⟩
        rw [Logistics.applyStatus_categoryId, hquantity]
        rfl
      obtain ⟨row, hupsert, -⟩ := statusChange_upsert hform
      obtain ⟨old, -, hold⟩ := rel_left (h.requests r) hr
      refine h.request (.call _) rfl rfl (fun _ => rfl) hupsert (by rw [hform.2.1]; rfl)
        (hquantity ▸ hold.fits) ?_ (by rw [hrow]; rfl) ?_ hclock hids
      · rw [Logistics.applyStatus_status]
        refine hupsert.status request.status newStatus ?_
        rw [hrow]
        show (if r = r then _ else _) = _
        simp
      · rw [Logistics.applyStatus_categoryId, Logistics.applyStatus_tenantId]
        exact h.belongs r request hr
  | @started principal data now _ o request taskId category assigner x hr htenant hvolunteer
      happroved ho hrow =>
      have hids := fresh_of_nodup hids
      have hsilent : Agree past ((Rows.writing noRows (single data.requestId
          { request with status := .inProgress }) (single o x)).overlay w) E p :=
        h.silent rfl rfl (fun _ => rfl) hr rfl rfl fun row hrow => by
          refine ⟨hrow.tenantId, hrow.categoryId, hrow.quantityNeeded, hrow.fits, .inr ⟨?_, rfl⟩⟩
          rcases hrow.status with hstatus | ⟨-, hstatus⟩
          · rw [hstatus, happroved]
            rfl
          · rw [happroved] at hstatus
            cases hstatus
      exact (hsilent.past_snoc _).hush (by rw [hrow]; trivial) hids
  | joined hr htenant hvolunteer hprogress ho hrow =>
      have hsame := fun op => (h.past_snoc op).hush (by rw [hrow]; trivial) (fresh_of_nodup hids)
      exact (hsame (.call _)).congr rfl rfl rfl
  | @added tenant data now _ k o x hk ho hrow =>
      have hids := fresh_of_nodup hids
      have hcategory : (w.categories data.categoryId).isSome = true := by
        rcases hshelved with hsame | hsome
        · have hadded : ((Rows.writing (single k (newItem tenant data now)) noRows
              (single o _)).overlay w).items k = w.items k := congrArg (fun w => w.items k) hsame
          rw [hk.fresh] at hadded
          simp [Rows.overlay, Rows.writing, single_self] at hadded
        · exact hsome
      refine h.item (.call _) (newItem tenant data now) (newItem tenant data now) now rfl rfl
        (fun _ => rfl) ⟨rfl, rfl, rfl⟩ le_rfl
        (.now le_rfl) hcategory (fun old hold => ?_) (by rw [hrow]; rfl) (by rw [hrow]; rfl)
        (by rw [hrow]; rfl) (hfits x List.mem_cons_self) hids
      rw [hk.fresh] at hold
      cases hold
  | @stocked _ k o item changed now _ O alarm row ha hk halarm hrow hO hidsO =>
      have hsplit : E ++ (alarm ++ [row]).map Outbox.payload =
          (E ++ alarm.map Outbox.payload) ++ [row.payload] := by simp
      have hfold : ((alarm ++ [row]).map Outbox.payload).foldl deliver p =
          deliver ((alarm.map Outbox.payload).foldl deliver p) row.payload := by simp
      rw [hsplit] at hids
      have hidsAlarm : ((E ++ alarm.map Outbox.payload).map Envelope.eventId).Nodup := by
        rw [List.map_append, List.nodup_append] at hids
        exact hids.1
      have hmiddle := h.hushAll (l := alarm.map Outbox.payload) (fun x hx => by
        obtain ⟨y, hy, rfl⟩ := List.mem_map.mp hx
        rw [halarm y hy]
        trivial) hidsAlarm
      have hfresh := fresh_of_nodup hids
      rw [hsplit, hfold]
      obtain ⟨htenant, hcategory, hname, hupdated⟩ := ha.kept
      obtain ⟨hstock, htenant', hcategory', -⟩ := Logistics.stamped_kept item changed now
      have hnow : a.now = now := ha.now_eq
      have hsince : item.updatedAt ≤ now :=
        hnow ▸ (h.itemStamps k item hk).le hclock
      have hle : item.updatedAt ≤ (stamped item changed now).updatedAt := by
        unfold stamped
        split
        · exact le_rfl
        · exact hsince
      have hpast : Since (past ++ [.call a]) (stamped item changed now).updatedAt := by
        unfold stamped
        split
        · exact (h.itemStamps k item hk).snoc
        · exact .now (le_of_eq hnow.symm)
      refine hmiddle.item (.call a) changed (stamped item changed now) item.updatedAt rfl rfl
        (fun _ => rfl) ⟨htenant', hcategory', hstock⟩ hle hpast ?_ (fun old hold => ?_) ?_ ?_ ?_
        (hfits row (by simp)) hfresh
      · rw [hcategory]
        exact h.filed k item hk
      · rw [hk] at hold
        cases hold
        exact le_rfl
      · rw [hrow]
        rfl
      · rw [hrow, htenant]
        rfl
      · rw [hrow]
        rfl

theorem Agree.categoryCall {a : CategoryCall} {x : Outbox Message} (h : Agree past w E p)
    (he : CategoryEffect a w W x) (hclock : ∀ b ∈ past, b.now ≤ a.now)
    (hids : ((E ++ [x.payload]).map Envelope.eventId).Nodup) :
    Agree (past ++ [.category a]) (W.overlay w) (E ++ [x.payload]) (deliver p x.payload) := by
  have hids := fresh_of_nodup hids
  cases he with
  | @created tenant data now _ k o x hk ho hx =>
      have hshows : Logistics.Shows k (newCategory tenant data now) x.payload := by
        rw [hx]
        rfl
      refine h.category (.category _) (fun _ => rfl) rfl rfl (fun old hold => ?_)
        (.now le_rfl) ?_ hshows hids
      · rw [hk.fresh] at hold
        cases hold
      · exact hshows.event (by rw [hx]; simp [outboxRow, buildEnvelope]) (by rw [hx]; rfl)
  | @saved _ _ k o loaded category C x hk htenant hC ho hx =>
      have hshows : Logistics.Shows k category x.payload := by
        rw [hx]
        rfl
      have hevent : Logistics.CategoryEvent k category.tenantId x.payload := by
        refine hshows.event ?_ ?_
        · rw [hx]
          simp [outboxRow, buildEnvelope]
        · rw [hx, htenant]
          rfl
      rcases hC with ⟨rfl, rfl⟩ | ⟨rfl, hnow⟩
      · -- The row was not written, so writing it again changes nothing.
        refine h.category (.category _) (fun j => ?_) rfl rfl (fun old hold => ?_)
          ((h.categoryStamps k category hk).snoc) hevent hshows hids
        · by_cases hj : j = k
          · subst hj
            rw [single_self]
            exact hk
          · rw [single_of_ne _ hj]
            rfl
        · rw [hk] at hold
          cases hold
          exact ⟨rfl, le_rfl⟩
      · refine h.category (.category _) (fun _ => rfl) rfl rfl (fun old hold => ?_)
          (.now (le_of_eq hnow)) hevent hshows hids
        rw [hk] at hold
        cases hold
        exact ⟨htenant.symm, hnow ▸ (h.categoryStamps k loaded hk).le hclock⟩

theorem events_append {s s' : Db} {l : List (Outbox Message)}
    (h : s'.outbox.values = s.outbox.values ++ l) :
    s'.events = s.events ++ l.map Outbox.payload := by
  unfold Logistics.Db.events
  rw [h, List.map_append]

theorem Agree.step {s s' : Db} {a : Operation} (h : Agree past w s.events p)
    (hs : Rested schema w s) (hs' : Rested schema w' s') (hresult : a.Result w w')
    (hshelved : Shelved a w w') (hnum : Numbered s'.outbox.committed)
    (hclock : ∀ b ∈ past, b.now ≤ a.now) (hfits : ∀ x ∈ s'.events, Storable x) :
    ∃ l, s'.events = s.events ++ l ∧ Agree (past ++ [a]) w' s'.events (l.foldl deliver p) := by
  have hids : (s'.events.map Envelope.eventId).Nodup := hnum.nodup
  cases a with
  | category a =>
      obtain ⟨l, hvalues, hcase⟩ := CategoryResult.events hs hs' hresult
      have hevents := events_append hvalues
      refine ⟨_, hevents, ?_⟩
      rcases hcase with ⟨rfl, rfl⟩ | ⟨W, x, rfl, he, rfl⟩
      · rw [hevents]
        simpa using h.past_snoc _
      · rw [hevents] at hids ⊢
        exact h.categoryCall he hclock hids
  | call a =>
      obtain ⟨l, hvalues, hcase⟩ := Logistics.Result.events hs hs' hresult
      have hevents := events_append hvalues
      refine ⟨_, hevents, ?_⟩
      rcases hcase with ⟨rfl, rfl, -⟩ | ⟨W, he, rfl⟩
      · rw [hevents]
        simpa using h.past_snoc _
      · rw [hevents] at hids hfits ⊢
        refine h.call he hshelved hclock (fun x hx => hfits _ ?_) hids
        exact List.mem_append_right _ (List.mem_map.mpr ⟨x, hx, rfl⟩)

end Steps

/-! ## Runs -/

/-- The category of an item is looked up before the item is added. -/
theorem solo_shelved {t : Sid} {w : Rows} {s : Db} (tenantId : Option Uuid)
    (data : Logistics.InventoryItemCreate) (now : Time) (h : Solo schema t .nothing w s) :
    Meets t (fun _ s' => ∃ W w', Solo schema t W w' s' ∧
        Shelved (.call (.addInventoryItem tenantId data now)) w w')
      (Logistics.addInventoryItem tenantId data now) s := by
  have hsame : ∀ {W : Rows} {s' : Db}, Solo schema t W w s' → ∃ W w', Solo schema t W w' s' ∧
      Shelved (.call (.addInventoryItem tenantId data now)) w w' :=
    fun hs' => ⟨_, _, hs', .inl rfl⟩
  unfold Logistics.addInventoryItem
  split
  · exact meets_raise (hsame h)
  · split
    · exact meets_raise (hsame h)
    · refine h.selectKey Logistics.Column.categories ?_
      split
      · exact meets_raise (hsame h)
      · rename_i category hcategory
        have hshelved : (w.categories data.categoryId).isSome = true := by
          have hread : w.categories data.categoryId = some category := hcategory
          rw [hread]
          rfl
        refine h.insert Logistics.Column.items (.free fun _ => trivial) fun k hk _ s₁ h₁ => ?_
        refine h₁.insert Logistics.Column.outbox (.free fun _ => trivial) fun o ho _ s₂ h₂ => ?_
        refine h₂.commit fun s₃ h₃ => meets_bind (h₃.query ?_)
        split
        · exact meets_raise ⟨_, _, h₃, .inr hshelved⟩
        · exact meets_ret (meets_ret ⟨_, _, h₃, .inr hshelved⟩)

theorem operations_shelve (validatePayload : Option (List Json) → Option Object →
      Except FormErrors (Option Object)) :
    Leads schema (Operation.body validatePayload) Shelved := by
  intro a t w s hs
  obtain ⟨r, s₁, hx, W, w', hs₁, -⟩ := Logistics.operations_lead validatePayload a t w s hs
  cases a with
  | category a => exact ⟨r, s₁, hx, W, w', hs₁, trivial⟩
  | call a =>
      cases a with
      | addInventoryItem tenantId data now =>
          obtain ⟨r', s₂, hx', hshelved⟩ := solo_shelved tenantId data now (hs.solo t)
          refine meets_bind ⟨r', s₂, hx', ?_⟩
          cases r' with
          | ok reply => exact meets_ret hshelved
          | error e => exact hshelved
      | createRequest | updateStatus | assignTask | reserveStock | releaseStock =>
          exact ⟨r, s₁, hx, W, w', hs₁, trivial⟩

/-- After operations made one after the other, and after their events were delivered in the
order of the outbox, the projections agree with the tables, provided that they can hold what
the events say. -/
theorem projections_agree (validatePayload : Option (List Json) → Option Object →
      Except FormErrors (Option Object)) (replicas : List Logistics.UserReplica)
    (l : List Operation) (hclock : (l.map Operation.now).Pairwise (· ≤ ·)) :
    ∃ w s, calls (Operation.body validatePayload) l 0 (Db.initial [] replicas) = some s ∧
      Rested schema w s ∧ ((∀ x ∈ s.events, Storable x) →
        Agree l w s.events (s.events.foldl deliver newInbox)) := by
  let J : List Operation → Db → Prop := fun past s => Numbered s.outbox.committed ∧
    ((past.map Operation.now).Pairwise (· ≤ ·) → (∀ x ∈ s.events, Storable x) →
      Agree past s.rows s.events (s.events.foldl deliver newInbox))
  have hstep : ∀ past a w w' s s', Rested schema w s → Rested schema w' s' →
      (Operation.Result a w w' ∧ Shelved a w w') → J past s → J (past ++ [a]) s' := by
    intro past a w w' s s' hs hs' hresult hJ
    have hnum := Logistics.Operation.numbered_store hresult.1 hs hs' hJ.1
    refine ⟨hnum, fun hpast hfits => ?_⟩
    rw [List.map_append, List.pairwise_append] at hpast
    have hbefore : ∀ b ∈ past, b.now ≤ a.now := fun b hb =>
      hpast.2.2 b.now (List.mem_map.mpr ⟨b, hb, rfl⟩) a.now List.mem_cons_self
    have hrows : s.rows = w := hs.rows
    have hrows' : s'.rows = w' := hs'.rows
    have hprefix : ∃ l, s'.events = s.events ++ l := by
      cases a with
      | category a =>
          obtain ⟨l, hvalues, -⟩ := Logistics.CategoryResult.events hs hs' hresult.1
          exact ⟨_, events_append hvalues⟩
      | call a =>
          obtain ⟨l, hvalues, -⟩ := Logistics.Result.events hs hs' hresult.1
          exact ⟨_, events_append hvalues⟩
    obtain ⟨l, hl⟩ := hprefix
    have hagree := hJ.2 hpast.1 fun x hx => hfits x (hl ▸ List.mem_append_left _ hx)
    rw [hrows] at hagree
    obtain ⟨l', hl', hagree'⟩ := hagree.step hs hs' hresult.1 hresult.2 hnum hbefore hfits
    rw [hrows', hl', List.foldl_append, ← hl']
    exact hagree'
  have hstart : J [] (Db.initial [] replicas) := by
    refine ⟨Numbered.nothing, fun _ _ => ?_⟩
    exact
      { categories := fun _ => .none
        items := fun _ => .none
        requests := fun _ => .none
        filed := fun _ _ h => by cases h
        belongs := fun _ _ h => by cases h
        categoryStamps := fun _ _ h => by cases h
        itemStamps := fun _ _ h => by cases h
        requestStamps := fun _ _ h => by cases h
        handled := fun _ h => by cases h }
  obtain ⟨w, s, hcalls, hs, -, hagree⟩ :=
    ((Logistics.operations_lead validatePayload).and (operations_shelve validatePayload)).history
      hstep (Logistics.initial_rested [] replicas) hstart l 0
  have hrows : s.rows = w := hs.rows
  exact ⟨w, s, hcalls, hs, hrows ▸ hagree hclock⟩

end Analytics
end Rcp
