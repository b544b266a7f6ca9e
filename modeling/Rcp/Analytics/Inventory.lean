/-
The projection of an inventory item.

The consumer keeps the event with the newest stamp.  Since a stock event carries the
stamp of the state before its change, the creation and the first reservation of an
item carry the same one, and so do the events before and after a call that changed
nothing.  The projection then ends with the event delivered last of those.
-/
import Rcp.Analytics.Consumer
import Rcp.Delivery.LastWriter
import Rcp.Logistics.ItemHistory
import Rcp.Logistics.Stock

namespace Rcp
namespace Analytics

open Sql Delivery
open Logistics (Message InventoryItem ItemEvent Stock Call Db FormErrors FitsInteger)

/-- The row that an item-updated event writes. -/
def itemRow? (event : Envelope Message) : Option InventoryProjection :=
  match event.tenantId, event.data with
  | some tenantId, .itemUpdated _ categoryId name total reserved available status updatedAt =>
      some (inventoryRow tenantId categoryId name total reserved available status updatedAt)
  | _, _ => none

/-- The projection can hold what the event says. -/
def Storable (event : Envelope Message) : Prop := ∀ row ∈ itemRow? event, row.Fits

instance (event : Envelope Message) : Decidable (Storable event) :=
  inferInstanceAs (Decidable (∀ row ∈ itemRow? event, row.Fits))

def InventoryProjection.stock (row : InventoryProjection) : Stock :=
  { quantityTotal := row.quantityTotal
    quantityReserved := row.quantityReserved
    quantityAvailable := row.quantityAvailable
    status := row.status }

section Deliveries

variable {k : Uuid} {item : InventoryItem} {e : Envelope Message}

/-- An event of the item is an upsert of one row. -/
theorem ItemEvent.row (h : ItemEvent k item e) : ∃ (row : InventoryProjection) (stamp : Time),
    itemRow? e = some row ∧ row.categoryId = item.categoryId ∧
    e.data.stock? = some row.stock ∧ row.updatedAt = some stamp ∧ e.data.stamp = stamp ∧
    ∀ rows, applyEnvelope e rows = upsertInventory k row rows := by
  obtain ⟨htype, htenant, total, reserved, available, status, updatedAt, hdata⟩ := h
  refine ⟨inventoryRow item.tenantId item.categoryId item.name total reserved available status
    updatedAt, updatedAt, ?_, rfl, ?_, rfl, ?_, fun rows => ?_⟩
  · unfold itemRow?
    rw [htenant, hdata]
  · rw [hdata]
    rfl
  · rw [hdata]
    rfl
  · unfold applyEnvelope
    rw [htenant]
    unfold applyEvent
    rw [htype, hdata]
    rfl

theorem flushInventory_ok {row : InventoryProjection} {rows : Projections} (hfits : row.Fits)
    (hcategory : (rows.categories row.categoryId).isSome = true) :
    flushInventory k row rows =
      .ok { rows with items := Function.update rows.items k (some row) } := by
  unfold flushInventory
  rw [if_neg (not_not.mpr hfits), if_neg]
  intro hnone
  rw [Option.isNone_iff_eq_none.mp hnone] at hcategory
  cases hcategory

/-- An upsert that goes through keeps the row or writes one that fits. -/
theorem upsertInventory_cases {row : InventoryProjection} {rows rows' : Projections}
    (h : upsertInventory k row rows = .ok rows') :
    rows' = rows ∨
      (row.Fits ∧ rows' = { rows with items := Function.update rows.items k (some row) }) := by
  have hflush : flushInventory k row rows = .ok rows' →
      row.Fits ∧ rows' = { rows with items := Function.update rows.items k (some row) } := by
    intro hflush
    unfold flushInventory at hflush
    split at hflush
    · cases hflush
    · rename_i hfits
      split at hflush
      · cases hflush
      · cases hflush
        exact ⟨not_not.mp hfits, rfl⟩
  unfold upsertInventory at h
  split at h
  · exact .inr (hflush h)
  · split at h
    · cases h
      exact .inl rfl
    · exact .inr (hflush h)

/-- Whether the projection can hold an event depends on the stock it shows. -/
theorem storable_iff (h : ItemEvent k item e) {stock : Stock} (hstock : e.data.stock? = some stock) :
    Storable e ↔ FitsInteger stock.quantityTotal ∧ FitsInteger stock.quantityReserved ∧
      FitsInteger stock.quantityAvailable := by
  obtain ⟨row, stamp, hrow, -, hstock', -⟩ := ItemEvent.row h
  rw [hstock] at hstock'
  cases hstock'
  unfold Storable
  rw [hrow]
  simp only [Option.mem_def, Option.some.injEq, forall_eq']
  rfl

/-- The consumer of the events of one item whose category is projected. -/
theorem inventory_upserts {A : Envelope Message → Prop}
    (hform : ∀ e, A e → ItemEvent k item e) :
    Inbox.Upserts A Storable (fun e => e.data.stamp) itemRow? applyEnvelope
      (fun rows => rows.items k)
      (fun rows => (rows.categories item.categoryId).isSome = true) where
  keep := by
    intro e rows rows' hrows he happly
    obtain ⟨row, stamp, -, -, -, -, -, hupsert⟩ := ItemEvent.row (hform e he)
    rw [hupsert] at happly
    rcases upsertInventory_cases happly with rfl | ⟨-, rfl⟩
    · exact hrows
    · exact hrows
  refused := by
    intro e rows rows' _ he hunfit happly
    obtain ⟨row, stamp, hrow, -, -, -, -, hupsert⟩ := ItemEvent.row (hform e he)
    rw [hupsert] at happly
    rcases upsertInventory_cases happly with rfl | ⟨hfits, -⟩
    · rfl
    · refine absurd (fun row' hrow' => ?_) hunfit
      rw [hrow] at hrow'
      cases hrow'
      exact hfits
  first := by
    intro e rows hrows he hfits hnone
    obtain ⟨row, stamp, hrow, hcategory, -, -, -, hupsert⟩ := ItemEvent.row (hform e he)
    rw [← hcategory] at hrows
    refine ⟨{ rows with items := Function.update rows.items k (some row) }, ?_, ?_⟩
    · rw [hupsert]
      unfold upsertInventory
      rw [hnone]
      exact flushInventory_ok (hfits row hrow) hrows
    · rw [hrow]
      exact Function.update_self ..
  overwrites := by
    intro e x rows hrows he hfits hx hxrow
    obtain ⟨row, stamp, hrow, hcategory, -, hat, hstamp, hupsert⟩ := ItemEvent.row (hform e he)
    obtain ⟨old, stamp', hold, -, -, hat', hstamp', -⟩ := ItemEvent.row (hform x hx)
    rw [← hcategory] at hrows
    rw [hold] at hxrow
    refine upsert_stored (fun rows => rows.items k)
      { rows with items := Function.update rows.items k (some row) }
      hstamp hstamp' ?_ ?_
    · rw [hupsert]
      unfold upsertInventory
      rw [hxrow, ← hat, ← hat', ← flushInventory_ok (hfits row hrow) hrows]
    · rw [hrow]
      exact Function.update_self ..
  accepts := by
    intro e rows hrows he hfits
    obtain ⟨row, stamp, hrow, hcategory, -, -, -, hupsert⟩ := ItemEvent.row (hform e he)
    rw [← hcategory] at hrows
    rw [hupsert]
    unfold upsertInventory
    split
    · exact ⟨_, flushInventory_ok (hfits row hrow) hrows⟩
    · split
      · exact ⟨_, rfl⟩
      · exact ⟨_, flushInventory_ok (hfits row hrow) hrows⟩

end Deliveries

/-! ## Histories -/

/-- The projection can hold the last event `f`, and the events with its stamp that show
another stock were all delivered before it for the first time. -/
def ArrivesLast (d : List (Envelope Message)) (f : Envelope Message) : Prop :=
  Storable f ∧ ∀ x ∈ d, Storable x → x.data.stamp = f.data.stamp →
    x.data.stock? ≠ f.data.stock? → d.idxOf x < d.idxOf f

instance (d : List (Envelope Message)) (f : Envelope Message) : Decidable (ArrivesLast d f) :=
  inferInstanceAs (Decidable (_ ∧ _))

/-- After any calls made one after the other at growing times, and after any deliveries of
all events of an item, the projection shows the stock of the item exactly if the last event
arrives last. -/
theorem inventory_converges_iff (validatePayload : Option (List Json) → Option Object →
      Except FormErrors (Option Object)) (categories : List Logistics.ResourceCategory)
    (replicas : List Logistics.UserReplica) (l : List Call)
    (hclock : (l.map Call.now).Pairwise (· < ·)) :
    ∃ s, calls (Call.body validatePayload) l 0 (Db.initial categories replicas) = some s ∧
      ∀ k item, s.items.committed k = some item →
        ∃ f, (Logistics.itemEvents k s.events).getLast? = some f ∧
          ∀ (p : Inbox Projections) (d : List (Envelope Message)),
            (p.rows.categories item.categoryId).isSome = true → p.rows.items k = none →
            (∀ e ∈ Logistics.itemEvents k s.events, e.eventId ∉ p.processed) →
            (∀ e, e ∈ d ↔ e ∈ Logistics.itemEvents k s.events) →
            ((∃ row, (d.foldl deliver p).rows.items k = some row ∧ row.stock = item.stock) ↔
              ArrivesLast d f) := by
  obtain ⟨w, s, hcalls, hs, hnum, htold⟩ :=
    Logistics.item_history validatePayload categories replicas l hclock
  refine ⟨s, hcalls, fun k item hk => ?_⟩
  have htold := htold k
  unfold Logistics.Told at htold
  rw [hk] at htold
  obtain ⟨-, E, f, hE, hstory⟩ := htold
  refine ⟨f, by rw [hE]; simp, fun p d hcategory hnone hnew hd => ?_⟩
  rw [hE] at hnew hd
  have hmem : ∀ x ∈ E ++ [f], x ∈ s.events := by
    intro x hx
    rw [← hE] at hx
    exact (List.mem_filter.mp hx).1
  have hids : ∀ x y, x ∈ E ++ [f] → y ∈ E ++ [f] → x.eventId = y.eventId → x = y :=
    fun x y hx hy => Logistics.event_eq_of_id hnum (hmem x hx) (hmem y hy)
  have hwriter := (inventory_upserts (A := fun e => e ∈ E ++ [f]) hstory.form).lastWriter
    hids fun p e he => deliver_eq (by rw [(hstory.form e he).2.1]; rfl) p
  have hreached := hwriter.reached hcategory hnone (fun x hx _ => hnew x hx) d
    fun x hx => (hd x).mp hx
  have hf : f ∈ E ++ [f] := List.mem_append_right _ List.mem_cons_self
  have hshown := hstory.shown
  rcases hreached.row with ⟨e, he, hlead, hrow⟩ | ⟨hrefused, hrow⟩
  · obtain ⟨row, stamp, hcontent, -, hstock, -, -, -⟩ := ItemEvent.row (hstory.form e he)
    have hleft : (∃ row, (d.foldl deliver p).rows.items k = some row ∧ row.stock = item.stock) ↔
        e.data.stock? = f.data.stock? := by
      rw [hrow, hcontent, hstock, hshown]
      simp
    rw [hleft]
    by_cases hok : Storable f
    · have hview := hlead.view_iff (fun x => x.data.stock?) ((hd f).mpr hf) hok
        (fun x hx _ => hstory.newest x ((hd x).mp hx)) fun x hx y hy hxf hyf hxs hys => ?_
      · rw [hview]
        exact ⟨fun h => ⟨hok, h⟩, fun h => h.2⟩
      · refine hstory.ties x ?_ y ?_ hxs hys
        · simpa [hxf] using (hd x).mp hx
        · simpa [hyf] using (hd y).mp hy
    · refine iff_of_false (fun heq => hok ?_) fun h => hok h.1
      rw [storable_iff (hstory.form f hf) hshown]
      rw [hshown] at heq
      exact (storable_iff (hstory.form e he) heq).mp hlead.accepted
  · have hunfit : ¬ Storable f := hrefused f ((hd f).mpr hf)
    refine iff_of_false ?_ fun h => hunfit h.1
    rintro ⟨row, hsome, -⟩
    rw [hrow] at hsome
    cases hsome

/-- The category of the tents, projected. -/
def camp : Inbox Projections :=
  { rows :=
      { categories := fun k =>
          if k = 0 then some (categoryRow 1 "Food parcels" none "unit" true 0) else none } }

/-- Ten tents are added and then reserved twice. -/
def tentCalls : List Call :=
  [.addInventoryItem (some 1) Logistics.tents 0, .reserveStock Logistics.coordinator 0 4 1,
    .reserveStock Logistics.coordinator 0 3 2]

/-- The deliveries of all events of item 0, the last one first, and then all again. -/
def backwards (s : Db) : List (Envelope Message) :=
  (Logistics.itemEvents 0 s.events).reverse ++ Logistics.itemEvents 0 s.events

theorem inventory_converges_tents : ∃ s item row,
    calls (Call.body fun _ fields => .ok fields) tentCalls 0
      (Db.initial [Logistics.foodBank none Logistics.Workflow.accepted_none] []) = some s ∧
    s.items.committed 0 = some item ∧
    ((backwards s).foldl deliver camp).rows.items 0 = some row ∧ row.stock = item.stock := by
  obtain ⟨s, hcalls, hconverges⟩ := inventory_converges_iff (fun _ fields => .ok fields)
    [Logistics.foodBank none Logistics.Workflow.accepted_none] [] tentCalls (by decide)
  have hfacts : (calls (Call.body fun _ fields => .ok fields) tentCalls 0
      (Db.initial [Logistics.foodBank none Logistics.Workflow.accepted_none] [])).map (fun s =>
        ((s.items.committed 0).map fun item => item.categoryId,
          (Logistics.itemEvents 0 s.events).getLast?.map fun f =>
            decide (ArrivesLast (backwards s) f))) = some (some 0, some true) := by
    decide +kernel
  rw [hcalls] at hfacts
  simp only [Option.map_some, Option.some.injEq, Prod.mk.injEq, Option.map_eq_some_iff,
    decide_eq_true_eq] at hfacts
  obtain ⟨⟨item, hitem, hcategory⟩, f, hf, hlast⟩ := hfacts
  obtain ⟨f', hf', hiff⟩ := hconverges 0 item hitem
  rw [hf] at hf'
  cases hf'
  have hrow := (hiff camp (backwards s) (by rw [hcategory]; rfl) rfl
    (fun _ _ h => by cases h) (fun e => by simp [backwards])).mpr hlast
  obtain ⟨row, hrow, hstock⟩ := hrow
  exact ⟨s, item, row, hcalls, hitem, hrow, hstock⟩

/-- Four of ten tents are reserved.  Both events carry the creation time, and the one of
the creation is delivered last. -/
theorem reservation_overwritten : ¬ ∀ (l : List Call) (s : Db) (k : Uuid) (item : InventoryItem)
    (p : Inbox Projections) (d : List (Envelope Message)),
    (l.map Call.now).Pairwise (· < ·) →
    calls (Call.body fun _ fields => .ok fields) l 0
      (Db.initial [Logistics.foodBank none Logistics.Workflow.accepted_none] []) = some s →
    s.items.committed k = some item →
    (p.rows.categories item.categoryId).isSome = true → p.rows.items k = none →
    (∀ e ∈ Logistics.itemEvents k s.events, e.eventId ∉ p.processed) →
    (∀ e, e ∈ d ↔ e ∈ Logistics.itemEvents k s.events) →
    ∃ row, (d.foldl deliver p).rows.items k = some row ∧ row.stock = item.stock := by
  intro hclaim
  have hfacts : (calls (Call.body fun _ fields => .ok fields) (tentCalls.take 2) 0
      (Db.initial [Logistics.foodBank none Logistics.Workflow.accepted_none] [])).map (fun s =>
        ((s.items.committed 0).map fun item => (item.categoryId, item.stock.quantityReserved),
          ((backwards s).foldl deliver camp).rows.items 0 |>.map fun row =>
            row.stock.quantityReserved)) = some (some (0, 4), some 0) := by
    decide +kernel
  obtain ⟨s, hcalls, hfacts⟩ := Option.map_eq_some_iff.mp hfacts
  simp only [Prod.mk.injEq, Option.map_eq_some_iff] at hfacts
  obtain ⟨⟨item, hitem, hcategory, hfour⟩, row, hrow, hzero⟩ := hfacts
  obtain ⟨row', hrow', hstock⟩ := hclaim (tentCalls.take 2) s 0 item camp (backwards s) (by decide)
    hcalls hitem (by rw [hcategory]; rfl) rfl (fun _ _ h => by cases h)
    (fun e => by simp [backwards])
  rw [hrow] at hrow'
  cases hrow'
  rw [hstock, hfour] at hzero
  cases hzero

end Analytics
end Rcp
