/-
What the reports of the analytics service say of the logistics service.

The projections agree with the tables, so the aggregates over them are those over the
tables.  The reports do not tell `approved` and `in_progress` requests apart where it
matters: both are open.
-/
import Rcp.Analytics.Mirror
import Rcp.Analytics.Reporting

namespace Rcp
namespace Analytics

open Sql
open Logistics (ResourceCategory InventoryItem HelpRequest RequestStatus Operation Db FormErrors)

/-- The request still waits for what it asks for. -/
def waiting : RequestStatus → Bool
  | .pending | .verified | .approved | .inProgress => true
  | .fulfilled | .rejected | .cancelled => false

/-- The entry of one category as the tables of the logistics service give it. -/
def tablesEntry (requests : List (Uuid × HelpRequest)) (items : List (Uuid × InventoryItem))
    (tenantId : Uuid) (c : Uuid × ResourceCategory) : NeedVsFulfillment :=
  { categoryId := c.1
    category := c.2.name
    openRequests := requests.countP fun r => r.2.categoryId == c.1 && waiting r.2.status
    fulfilledRequests := requests.countP fun r =>
      r.2.categoryId == c.1 && r.2.status == .fulfilled
    quantityNeeded := ((requests.filter fun r => r.2.categoryId == c.1 &&
      waiting r.2.status).map fun r => r.2.quantityNeeded).sum
    stockAvailable := ((items.filter fun i => i.2.tenantId == tenantId &&
      i.2.categoryId == c.1).map fun i => i.2.quantityAvailable).sum }

section Reports

variable {past : List Operation} {w : Logistics.Rows} {E : List (Envelope Logistics.Message)}
  {p : Inbox Projections} {request : HelpRequest} {row : RequestProjection}

theorem RequestMirrored.waiting (h : RequestMirrored request row) :
    decide (row.status ∈ openStatuses) = waiting request.status := by
  rcases h.status with hstatus | ⟨hstatus, hprogress⟩
  · rw [hstatus]
    cases request.status <;> rfl
  · rw [hstatus, hprogress]
    rfl

/-- Of the statuses, the projection may confuse `in_progress` with `approved` only. -/
theorem RequestMirrored.status_iff (h : RequestMirrored request row) (status : RequestStatus)
    (happroved : status ≠ .approved) (hprogress : status ≠ .inProgress) :
    (row.status == status.value) = (request.status == status) := by
  rcases h.status with hstatus | ⟨hstatus, hin⟩
  · rw [hstatus]
    cases status <;> cases request.status <;> rfl
  · rw [hstatus, hin]
    cases status with
    | approved => exact absurd rfl happroved
    | inProgress => exact absurd rfl hprogress
    | pending | verified | fulfilled | rejected | cancelled => rfl

theorem RequestMirrored.moving (h : RequestMirrored request row) :
    decide (row.status ∈ ["approved", "in_progress"]) =
      decide (request.status ∈ [RequestStatus.approved, .inProgress]) := by
  rcases h.status with hstatus | ⟨hstatus, hprogress⟩
  · rw [hstatus]
    cases request.status <;> rfl
  · rw [hstatus, hprogress]
    rfl

section Scanned

variable {categories : List (Uuid × ResourceCategory)} {requests : List (Uuid × HelpRequest)}
  {items : List (Uuid × InventoryItem)} {categoryRows : List (Uuid × CategoryProjection)}
  {requestRows : List (Uuid × RequestProjection)} {itemRows : List (Uuid × InventoryProjection)}

theorem Agree.report (h : Agree past w E p) (hcategories : Scan w.categories categories)
    (hrequests : Scan w.requests requests) (hitems : Scan w.items items)
    (hcategoryRows : Scan p.rows.categories categoryRows)
    (hrequestRows : Scan p.rows.requests requestRows) (hitemRows : Scan p.rows.items itemRows)
    (collate : String → String → Bool) (tenantId : Uuid) :
    (needVsFulfillment collate categoryRows requestRows itemRows tenantId).Perm
      ((categories.filter fun c => c.2.tenantId == tenantId).map
        (tablesEntry requests items tenantId)) := by
  let stock := fun row : NeedRow =>
    ((stockByCategory itemRows tenantId).lookup row.categoryId).getD 0
  let entry := fun row : NeedRow => ({ row with stockAvailable := stock row } : NeedVsFulfillment)
  have hreport := (needRows_perm requestRows tenantId collate hcategoryRows.nodup).map entry
  refine hreport.trans ?_
  rw [List.map_map]
  obtain ⟨pairs, hleft, hright, hrel⟩ := hcategories.align hcategoryRows h.categories
  refine ((hright.symm.filter _).map _).trans (.trans ?_ ((hleft.filter _).map _))
  rw [List.filter_map, List.filter_map, List.map_map, List.map_map]
  have hfilter : pairs.filter ((fun c : Uuid × CategoryProjection => c.2.tenantId == tenantId) ∘
        fun pair => (pair.1, pair.2.2)) =
      pairs.filter ((fun c : Uuid × ResourceCategory => c.2.tenantId == tenantId) ∘
        fun pair => (pair.1, pair.2.1)) := by
    refine List.filter_congr fun pair hpair => ?_
    show (pair.2.2.tenantId == tenantId) = (pair.2.1.tenantId == tenantId)
    rw [(hrel pair hpair).tenantId]
  rw [hfilter]
  refine .of_eq (List.map_congr_left fun pair hpair => ?_)
  have hmirrored := hrel pair (List.mem_filter.mp hpair).1
  have hopen := hrequests.countP_eq hrequestRows h.requests
    (p := fun r => r.categoryId == pair.1 && waiting r.status)
    (q := fun r => r.categoryId == pair.1 && decide (r.status ∈ openStatuses))
    fun r r' hr => by rw [hr.categoryId, hr.waiting]
  have hfulfilled := hrequests.countP_eq hrequestRows h.requests
    (p := fun r => r.categoryId == pair.1 && r.status == .fulfilled)
    (q := fun r => r.categoryId == pair.1 && r.status == "fulfilled")
    fun r r' hr => by
      rw [hr.categoryId, ← hr.status_iff .fulfilled (by decide) (by decide)]
      rfl
  have hneeded := hrequests.sum_eq hrequestRows h.requests
    (p := fun r => r.categoryId == pair.1 && waiting r.status)
    (q := fun r => r.categoryId == pair.1 && decide (r.status ∈ openStatuses))
    (f := fun r => r.quantityNeeded) (g := fun r => r.quantityNeeded)
    (fun r r' hr => by rw [hr.categoryId, hr.waiting]) fun r r' hr => hr.quantityNeeded.symm
  have hstock := hitems.sum_eq hitemRows h.items
    (p := fun i => i.tenantId == tenantId && i.categoryId == pair.1)
    (q := fun i => i.tenantId == tenantId && i.categoryId == pair.1)
    (f := fun i => i.quantityAvailable) (g := fun i => i.quantityTotal - i.quantityReserved)
    (fun i i' hi => by rw [hi.tenantId, hi.categoryId]) fun i i' hi => by
      have htotal := congrArg Logistics.Stock.quantityTotal hi.stock
      have hreserved := congrArg Logistics.Stock.quantityReserved hi.stock
      simp only [InventoryProjection.stock, InventoryItem.stock] at htotal hreserved
      rw [htotal, hreserved]
      rfl
  show entry (categoryNeed requestRows (pair.1, pair.2.2)) = tablesEntry requests items tenantId _
  simp only [entry, stock, categoryNeed, tablesEntry, stockByCategory_lookup, hopen, hfulfilled, hneeded,
    hstock, hmirrored.content.name]

theorem Agree.summary (h : Agree past w E p) (hrequests : Scan w.requests requests)
    (hrequestRows : Scan p.rows.requests requestRows) (tenantId : Uuid) {status : RequestStatus}
    (happroved : status ≠ .approved) (hprogress : status ≠ .inProgress) :
    ((requestStatusSummary requestRows tenantId).lookup status.value).getD 0 =
      requests.countP fun r => r.2.status == status && r.2.tenantId == tenantId := by
  rw [requestStatusSummary_lookup]
  refine (hrequests.countP_eq hrequestRows h.requests
    (p := fun r => r.status == status && r.tenantId == tenantId)
    (q := fun r => r.status == status.value && r.tenantId == tenantId) fun r r' hr => ?_).symm
  rw [hr.tenantId, hr.status_iff status happroved hprogress]

/-- Requests that are approved or in progress, counted together. -/
theorem Agree.summary_moving (h : Agree past w E p) (hrequests : Scan w.requests requests)
    (hrequestRows : Scan p.rows.requests requestRows) (tenantId : Uuid) :
    ((requestStatusSummary requestRows tenantId).lookup "approved").getD 0 +
        ((requestStatusSummary requestRows tenantId).lookup "in_progress").getD 0 =
      requests.countP fun r => decide (r.2.status ∈ [RequestStatus.approved, .inProgress]) &&
        r.2.tenantId == tenantId := by
  rw [requestStatusSummary_lookup, requestStatusSummary_lookup]
  have hsum := sum_countP (fun r : Uuid × RequestProjection => r.2.status)
    (fun r => r.2.tenantId == tenantId) requestRows
    (show ["approved", "in_progress"].Nodup by decide)
  simp only [List.map_cons, List.map_nil, List.sum_cons, List.sum_nil, Nat.add_zero] at hsum
  rw [hsum]
  refine (hrequests.countP_eq hrequestRows h.requests
    (p := fun r => decide (r.status ∈ [RequestStatus.approved, .inProgress]) &&
      r.tenantId == tenantId)
    (q := fun r => decide (r.status ∈ ["approved", "in_progress"]) && r.tenantId == tenantId)
    fun r r' hr => ?_).symm
  rw [hr.tenantId, hr.moving]

/-- The two reports of a tenant add up: the open requests of its categories are those of its
open statuses. -/
theorem Agree.adds_up (h : Agree past w E p) (hcategoryRows : Scan p.rows.categories categoryRows)
    (hrequestRows : Scan p.rows.requests requestRows) (collate : String → String → Bool)
    (tenantId : Uuid) :
    ((needVsFulfillment collate categoryRows requestRows itemRows tenantId).map fun c =>
        c.openRequests).sum =
      (openStatuses.map fun status =>
        ((requestStatusSummary requestRows tenantId).lookup status).getD 0).sum := by
  have hleft : ((needVsFulfillment collate categoryRows requestRows itemRows tenantId).map fun c =>
      c.openRequests).Perm ((categoryRows.filter fun c => c.2.tenantId == tenantId).map fun c =>
        requestRows.countP fun r => r.2.categoryId == c.1 &&
          decide (r.2.status ∈ openStatuses)) := by
    unfold needVsFulfillment
    rw [List.map_map]
    have hrows := (needRows_perm requestRows tenantId collate hcategoryRows.nodup).map
      fun row => row.openRequests
    rw [List.map_map] at hrows
    exact hrows
  have hkeys : ((categoryRows.filter fun c => c.2.tenantId == tenantId).map Prod.fst).Nodup :=
    hcategoryRows.nodup.sublist (List.filter_sublist.map _)
  have hcategories := sum_countP (fun r : Uuid × RequestProjection => r.2.categoryId)
    (fun r => decide (r.2.status ∈ openStatuses)) requestRows hkeys
  rw [List.map_map] at hcategories
  have hstatuses := sum_countP (fun r : Uuid × RequestProjection => r.2.status)
    (fun r => r.2.tenantId == tenantId) requestRows (show openStatuses.Nodup by decide)
  simp only [requestStatusSummary_lookup]
  rw [hleft.sum_eq, hstatuses]
  refine hcategories.trans (List.countP_congr fun r hr => ?_)
  -- A request is of the tenant exactly if its category is.
  have hrow := (hrequestRows.mem r.1 r.2).mp hr
  have hrel := h.requests r.1
  rw [hrow] at hrel
  cases hrequest : w.requests r.1 with
  | none =>
      rw [hrequest] at hrel
      cases hrel
  | some request =>
      rw [hrequest] at hrel
      cases hrel with
      | some hmirrored =>
          obtain ⟨category, hcategory, htenant⟩ := h.belongs r.1 request hrequest
          obtain ⟨c, hc, hreflects⟩ := rel_left (h.categories _) hcategory
          have howner : c.tenantId = r.2.tenantId := by
            rw [hreflects.tenantId, htenant, hmirrored.tenantId]
          have hmem : r.2.categoryId ∈
              (categoryRows.filter fun c => c.2.tenantId == tenantId).map Prod.fst ↔
              r.2.tenantId = tenantId := by
            rw [← howner]
            simp only [List.mem_map, List.mem_filter, beq_iff_eq]
            constructor
            · rintro ⟨c', ⟨hc', htenant'⟩, hid⟩
              have hfound := (hcategoryRows.mem c'.1 c'.2).mp hc'
              rw [hid, hmirrored.categoryId, hc] at hfound
              cases hfound
              exact htenant'
            · intro howned
              rw [hmirrored.categoryId]
              exact ⟨(request.categoryId, c), ⟨(hcategoryRows.mem _ _).mpr hc, howned⟩, rfl⟩
          simp only [Bool.and_eq_true, decide_eq_true_eq, beq_iff_eq, hmem]
          exact and_comm

end Scanned
/-- The tables and their projections read in the order of the keys. -/
theorem Agree.scans {s : Db} (h : Agree past w E p) (hs : Rested Logistics.schema w s) :
    (Scan s.categories.committed (scanBelow s.categories.committed s.categories.next) ∧
      Scan s.requests.committed (scanBelow s.requests.committed s.requests.next) ∧
      Scan s.items.committed (scanBelow s.items.committed s.items.next)) ∧
    Scan p.rows.categories (scanBelow p.rows.categories s.categories.next) ∧
      Scan p.rows.requests (scanBelow p.rows.requests s.requests.next) ∧
      Scan p.rows.items (scanBelow p.rows.items s.items.next) := by
  have hrows : s.rows = w := hs.rows
  subst hrows
  have hcategories : ∀ k, s.categories.next ≤ k → s.categories.committed k = none :=
    fun k hk => ((hs.bounded .categories).1 k hk).1
  have hrequests : ∀ k, s.requests.next ≤ k → s.requests.committed k = none :=
    fun k hk => ((hs.bounded .requests).1 k hk).1
  have hitems : ∀ k, s.items.next ≤ k → s.items.committed k = none :=
    fun k hk => ((hs.bounded .items).1 k hk).1
  exact ⟨⟨scan_scanBelow hcategories, scan_scanBelow hrequests, scan_scanBelow hitems⟩,
    scan_scanBelow fun k hk => rel_none (h.categories k) (hcategories k hk),
    scan_scanBelow fun k hk => rel_none (h.requests k) (hrequests k hk),
    scan_scanBelow fun k hk => rel_none (h.items k) (hitems k hk)⟩

end Reports
/-! ## Runs -/

/-- After any operations of the logistics service made one after the other, and after their
events were delivered in the order of the outbox, the need-versus-fulfillment report of a
tenant is what the tables of the logistics service say. -/
theorem report_shows_tables (validatePayload : Option (List Json) → Option Object →
      Except FormErrors (Option Object)) (replicas : List Logistics.UserReplica)
    (l : List Operation) (hclock : (l.map Operation.now).Pairwise (· ≤ ·)) :
    ∃ s, calls (Operation.body validatePayload) l 0 (Db.initial [] replicas) = some s ∧
      ∀ rows, rows = (s.events.foldl deliver newInbox).rows → (∀ x ∈ s.events, Storable x) →
        ∀ collate tenantId categories requests items categoryRows requestRows itemRows,
          Scan s.categories.committed categories → Scan s.requests.committed requests →
          Scan s.items.committed items → Scan rows.categories categoryRows →
          Scan rows.requests requestRows → Scan rows.items itemRows →
          (needVsFulfillment collate categoryRows requestRows itemRows tenantId).Perm
            ((categories.filter fun c => c.2.tenantId == tenantId).map
              (tablesEntry requests items tenantId)) := by
  obtain ⟨w, s, hcalls, hs, hagree⟩ := projections_agree validatePayload replicas l hclock
  have hrows : s.rows = w := hs.rows
  subst hrows
  refine ⟨s, hcalls, ?_⟩
  rintro rows rfl hfits collate tenantId categories requests items categoryRows requestRows
    itemRows hcategories hrequests hitems hcategoryRows hrequestRows hitemRows
  exact (hagree hfits).report hcategories hrequests hitems hcategoryRows hrequestRows hitemRows
    collate tenantId

/-- The summary counts the requests of the tenant, except that an assigned volunteer may leave
a request counted as approved, and it adds up with the report. -/
theorem summary_shows_tables (validatePayload : Option (List Json) → Option Object →
      Except FormErrors (Option Object)) (replicas : List Logistics.UserReplica)
    (l : List Operation) (hclock : (l.map Operation.now).Pairwise (· ≤ ·)) :
    ∃ s, calls (Operation.body validatePayload) l 0 (Db.initial [] replicas) = some s ∧
      ∀ rows, rows = (s.events.foldl deliver newInbox).rows → (∀ x ∈ s.events, Storable x) →
        ∀ tenantId requests requestRows, Scan s.requests.committed requests →
          Scan rows.requests requestRows →
          (∀ status : RequestStatus, status ≠ .approved → status ≠ .inProgress →
            ((requestStatusSummary requestRows tenantId).lookup status.value).getD 0 =
              requests.countP fun r => r.2.status == status && r.2.tenantId == tenantId) ∧
          ((requestStatusSummary requestRows tenantId).lookup "approved").getD 0 +
              ((requestStatusSummary requestRows tenantId).lookup "in_progress").getD 0 =
            (requests.countP fun r => decide (r.2.status ∈ [RequestStatus.approved, .inProgress])
              && r.2.tenantId == tenantId) ∧
          ∀ collate categoryRows itemRows, Scan rows.categories categoryRows →
            ((needVsFulfillment collate categoryRows requestRows itemRows tenantId).map fun c =>
                c.openRequests).sum =
              (openStatuses.map fun status =>
                ((requestStatusSummary requestRows tenantId).lookup status).getD 0).sum := by
  obtain ⟨w, s, hcalls, hs, hagree⟩ := projections_agree validatePayload replicas l hclock
  have hrows : s.rows = w := hs.rows
  subst hrows
  refine ⟨s, hcalls, ?_⟩
  rintro rows rfl hfits tenantId requests requestRows hrequests hrequestRows
  refine ⟨fun status happroved hprogress => ?_, ?_, fun collate categoryRows itemRows hrows => ?_⟩
  · exact (hagree hfits).summary hrequests hrequestRows tenantId happroved hprogress
  · exact (hagree hfits).summary_moving hrequests hrequestRows tenantId
  · exact (hagree hfits).adds_up hrows hrequestRows collate tenantId

/-- Food parcels of tenant 1: one request is dispatched, one is verified, ten parcels are
stored and four of them reserved. -/
def parcelCalls : List Operation :=
  [.category (.createCategory (some 1)
      { name := "Food parcels", accepted := Logistics.Workflow.accepted_none } 0),
    .call (.createRequest Logistics.coordinator Logistics.parcel 1),
    .call (.createRequest Logistics.coordinator
      { Logistics.parcel with quantityNeeded := 5, quantity_pos := by decide } 2),
    .call (.updateStatus 0 .verified Logistics.coordinator 3),
    .call (.updateStatus 1 .verified Logistics.coordinator 3),
    .call (.updateStatus 0 .approved Logistics.coordinator 4),
    .call (.assignTask Logistics.coordinator
      { requestId := 0, volunteerUserId := 9, title := "Deliver" } 5),
    .call (.addInventoryItem (some 1) Logistics.tents 6),
    .call (.reserveStock Logistics.coordinator 0 4 7)]

theorem report_shows_parcels : ∃ s rows,
    calls (Operation.body fun _ fields => .ok fields) parcelCalls 0 (Db.initial [] []) = some s ∧
    rows = (s.events.foldl deliver newInbox).rows ∧
    needVsFulfillment (fun _ _ => true) (scanBelow rows.categories s.categories.next)
      (scanBelow rows.requests s.requests.next) (scanBelow rows.items s.items.next) 1 =
        [{ categoryId := 0, category := "Food parcels", openRequests := 2, fulfilledRequests := 0
           quantityNeeded := 6, stockAvailable := 6 }] := by
  obtain ⟨s, hcalls, hreport⟩ := report_shows_tables (fun _ fields => .ok fields) [] parcelCalls
    (by decide)
  obtain ⟨w, s', hcalls', hs, hagree⟩ := projections_agree (fun _ fields => .ok fields) []
    parcelCalls (by decide)
  have hsame : s' = s := Option.some.inj (hcalls'.symm.trans hcalls)
  subst hsame
  have hfacts : (calls (Operation.body fun _ fields => .ok fields) parcelCalls 0
      (Db.initial [] [])).map (fun s => (decide (∀ x ∈ s.events, Storable x),
        ((scanBelow s.categories.committed s.categories.next).filter fun c =>
          c.2.tenantId == 1).map (tablesEntry (scanBelow s.requests.committed s.requests.next)
            (scanBelow s.items.committed s.items.next) 1))) =
      some (true, [{ categoryId := 0, category := "Food parcels", openRequests := 2
                     fulfilledRequests := 0, quantityNeeded := 6, stockAvailable := 6 }]) := by
    decide +kernel
  rw [hcalls] at hfacts
  simp only [Option.map_some, Option.some.injEq, Prod.mk.injEq, decide_eq_true_eq] at hfacts
  obtain ⟨⟨hcategories, hrequests, hitems⟩, hcategoryRows, hrequestRows, hitemRows⟩ :=
    (hagree hfacts.1).scans hs
  have hperm := hreport _ rfl hfacts.1 (fun _ _ => true) 1 _ _ _ _ _ _ hcategories hrequests hitems
    hcategoryRows hrequestRows hitemRows
  rw [hfacts.2] at hperm
  exact ⟨s', _, hcalls, rfl, List.perm_singleton.mp hperm⟩

/-- The dispatched request is still counted as approved. -/
theorem summary_shows_parcels : ∃ s rows,
    calls (Operation.body fun _ fields => .ok fields) parcelCalls 0 (Db.initial [] []) = some s ∧
    rows = (s.events.foldl deliver newInbox).rows ∧
    ((requestStatusSummary (scanBelow rows.requests s.requests.next) 1).lookup
      "verified").getD 0 = 1 ∧
    ((requestStatusSummary (scanBelow rows.requests s.requests.next) 1).lookup
        "approved").getD 0 +
      ((requestStatusSummary (scanBelow rows.requests s.requests.next) 1).lookup
        "in_progress").getD 0 = 1 := by
  obtain ⟨s, hcalls, hsummary⟩ := summary_shows_tables (fun _ fields => .ok fields) [] parcelCalls
    (by decide)
  obtain ⟨w, s', hcalls', hs, hagree⟩ := projections_agree (fun _ fields => .ok fields) []
    parcelCalls (by decide)
  have hsame : s' = s := Option.some.inj (hcalls'.symm.trans hcalls)
  subst hsame
  have hfacts : (calls (Operation.body fun _ fields => .ok fields) parcelCalls 0
      (Db.initial [] [])).map (fun s => (decide (∀ x ∈ s.events, Storable x),
        ((scanBelow s.requests.committed s.requests.next).countP fun r =>
          r.2.status == .verified && r.2.tenantId == 1),
        ((scanBelow s.requests.committed s.requests.next).countP fun r =>
          decide (r.2.status ∈ [RequestStatus.approved, .inProgress]) && r.2.tenantId == 1))) =
      some (true, 1, 1) := by
    decide +kernel
  rw [hcalls] at hfacts
  simp only [Option.map_some, Option.some.injEq, Prod.mk.injEq, decide_eq_true_eq] at hfacts
  obtain ⟨⟨-, hrequests, -⟩, -, hrequestRows, -⟩ := (hagree hfacts.1).scans hs
  obtain ⟨hstatus, hmoving, -⟩ := hsummary _ rfl hfacts.1 1 _ _ hrequests hrequestRows
  refine ⟨s', _, hcalls, rfl, ?_, hmoving.trans hfacts.2.2⟩
  exact (hstatus .verified (by decide) (by decide)).trans hfacts.2.1

end Analytics
end Rcp
