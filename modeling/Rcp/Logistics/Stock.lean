/-
The stock of an item under concurrent reservations.

The row lock serialises the calls on one item, and `reserve_stock` compares the
quantity with what is available.  Neither call looks at the sign of the quantity, so
the bounds hold as long as no negative quantity reaches past them.
-/
import Rcp.Logistics.Verified

namespace Rcp
namespace Logistics

open Sql Sql.Table

/-- The stock of an item is neither oversold nor credited beyond its total. -/
def InventoryItem.InStock (item : InventoryItem) : Prop :=
  0 ≤ item.quantityReserved ∧ item.quantityReserved ≤ item.quantityTotal

/-- The quantities of an item-updated event are those of its contract. -/
def Message.WithinContract : Message → Prop
  | itemUpdated _ _ _ total reserved available _ _ =>
      0 ≤ reserved ∧ reserved ≤ total ∧ 0 ≤ available ∧ available ≤ total
  | _ => True

structure StockSound (w : Rows) : Prop where
  items : ∀ k item, w.items k = some item → item.InStock
  events : ∀ o row, w.outbox o = some row → row.payload.data.WithinContract

/-- A step that changes the stock of the call's item takes back no more than is reserved
and reserves no more, by a release, than there is. -/
def StaysWithin (a : Call) (w w' : Rows) : Prop :=
  match a with
  | .reserveStock _ k quantity _ =>
      match w.items k with
      | none => True
      | some item => w'.items k = some item ∨ -item.quantityReserved ≤ quantity
  | .releaseStock _ k quantity _ =>
      match w.items k with
      | none => True
      | some item =>
          w'.items k = some item ∨ item.quantityReserved - item.quantityTotal ≤ quantity
  | _ => True

instance (a : Call) (w w' : Rows) : Decidable (StaysWithin a w w') := by
  unfold StaysWithin
  split
  · split <;> infer_instance
  · split <;> infer_instance
  · infer_instance

section Quantities

variable (quantity : Int) (item : InventoryItem)

@[simp] theorem reserveItem_quantityReserved :
    (reserveItem quantity item).quantityReserved = item.quantityReserved + quantity := by
  simp only [reserveItem]
  split <;> rfl

@[simp] theorem reserveItem_quantityTotal :
    (reserveItem quantity item).quantityTotal = item.quantityTotal := by
  simp only [reserveItem]
  split <;> rfl

@[simp] theorem releaseItem_quantityReserved :
    (releaseItem quantity item).quantityReserved = max 0 (item.quantityReserved - quantity) := by
  simp only [releaseItem]
  split <;> rfl

@[simp] theorem releaseItem_quantityTotal :
    (releaseItem quantity item).quantityTotal = item.quantityTotal := by
  simp only [releaseItem]
  split <;> rfl

theorem reserveItem_inStock (hle : quantity ≤ item.quantityAvailable)
    (hge : -item.quantityReserved ≤ quantity) : (reserveItem quantity item).InStock := by
  unfold InventoryItem.quantityAvailable at hle
  show 0 ≤ (reserveItem quantity item).quantityReserved ∧ _
  rw [reserveItem_quantityReserved, reserveItem_quantityTotal]
  omega

theorem releaseItem_inStock (h : item.InStock)
    (hge : item.quantityReserved - item.quantityTotal ≤ quantity) :
    (releaseItem quantity item).InStock := by
  have htotal : 0 ≤ item.quantityTotal := Int.le_trans h.1 h.2
  show 0 ≤ (releaseItem quantity item).quantityReserved ∧ _
  rw [releaseItem_quantityReserved, releaseItem_quantityTotal]
  omega

end Quantities

section Commits

variable {strict : Prop} {a : Call} {w W : Rows} {k : Nat} {item changed : InventoryItem}
  {now : Time}

theorem stamped_inStock (h : item.InStock) (h' : changed.InStock) :
    (stamped item changed now).InStock := by
  unfold stamped
  split
  · exact h
  · exact h'

/-- The flush stamps a changed row only, so the row stays only if the stock does. -/
theorem StockCall.same (h : StockCall a k item changed now)
    (hsame : stamped item changed now = item) : changed = item := by
  by_contra hne
  rw [stamped, if_neg hne] at hsame
  have hcolumns := h.columns
  have hreserved := congrArg InventoryItem.quantityReserved hsame
  have hstatus := congrArg InventoryItem.status hsame
  simp only at hreserved hstatus
  apply hne
  rw [← hcolumns, hreserved, hstatus]

theorem StockCall.inStock {O : Nat → Option (Outbox Message)}
    (h : StockCall a k item changed now) (hitem : item.InStock) (hk : w.items k = some item)
    (hwithin : StaysWithin a w
      ((Rows.writing (single k (stamped item changed now)) noRows O).overlay w)) :
    changed.InStock := by
  have hstamped : ((Rows.writing (single k (stamped item changed now)) noRows O).overlay w).items k =
      some (stamped item changed now) := by
    simp [Rows.overlay, Rows.writing, single_self]
  have hsame := h.same
  cases h with
  | reserved hle =>
      simp only [StaysWithin, hk, hstamped, Option.some.injEq] at hwithin
      rcases hwithin with hstays | hge
      · rw [hsame hstays]
        exact hitem
      · exact reserveItem_inStock _ item hle hge
  | released =>
      simp only [StaysWithin, hk, hstamped, Option.some.injEq] at hwithin
      rcases hwithin with hstays | hge
      · rw [hsame hstays]
        exact hitem
      · exact releaseItem_inStock _ item hitem hge

theorem Message.Reports.withinContract {m : Message} (h : m.Reports k item)
    (hitem : item.InStock) : m.WithinContract := by
  cases m with
  | itemUpdated id categoryId name total reserved available status updatedAt =>
      obtain ⟨-, rfl, rfl, rfl⟩ := h
      obtain ⟨hge, hle⟩ := hitem
      unfold InventoryItem.quantityAvailable
      show _ ∧ _ ∧ _ ∧ _
      omega
  | requestSubmitted | requestStatusChanged | taskAssigned | lowStock | resourceCategory => trivial

theorem withinContract_of_request {m : Message} {r : Uuid} (h : m.request? = some r) :
    m.WithinContract := by
  cases m with
  | itemUpdated => cases h
  | requestSubmitted | requestStatusChanged | taskAssigned | lowStock | resourceCategory => trivial

/-- A commit that writes one item and reports it. -/
theorem StockSound.written {R : Nat → Option HelpRequest} {O : Nat → Option (Outbox Message)}
    (h : StockSound w) (hitem : item.InStock) (hchanged : changed.InStock)
    (hO : Reported w k changed O) :
    StockSound ((Rows.writing (single k item) R O).overlay w) where
  items := by
    intro j v hj
    have hj' : (single k item j).or (w.items j) = some v := hj
    by_cases hjk : j = k
    · subst hjk
      rw [single_self] at hj'
      cases hj'
      exact hitem
    · rw [single_of_ne item hjk] at hj'
      exact h.items j v hj'
  events := by
    intro o row ho
    have ho' : (O o).or (w.outbox o) = some row := ho
    cases hnew : O o with
    | some row' =>
        rw [hnew] at ho'
        cases ho'
        exact (hO o row hnew).2.withinContract hchanged
    | none =>
        rw [hnew] at ho'
        exact h.events o row ho'

/-- A commit about a request. -/
theorem StockSound.aside {R : Nat → Option HelpRequest} {o : Nat} {row : Outbox Message}
    (h : StockSound w) (hrow : row.payload.data.WithinContract) :
    StockSound ((Rows.writing noRows R (single o row)).overlay w) where
  items := h.items
  events := by
    intro o' row' ho
    have ho' : (single o row o').or (w.outbox o') = some row' := ho
    by_cases hne : o' = o
    · subst hne
      rw [single_self] at ho'
      cases ho'
      exact hrow
    · rw [single_of_ne row hne] at ho'
      exact h.events o' row' ho'

theorem Commit.stockSound (h : Commit strict a w W) (hwithin : StaysWithin a w (W.overlay w))
    (hw : StockSound w) : StockSound (W.overlay w) := by
  cases h with
  | submitted => exact hw.aside trivial
  | moved => exact hw.aside trivial
  | started hr htenant hvolunteer hstrict ho hrow => exact hw.aside (withinContract_of_request hrow)
  | joined hr hstrict ho hrow => exact hw.aside (withinContract_of_request hrow)
  | @added tenantId data now _ item k O htotal hreserved hk hO =>
      have hitem : item.InStock := by
        have hnonneg := data.quantity_nonneg
        unfold InventoryItem.InStock
        omega
      exact hw.written hitem hitem hO
  | stocked ha hk hO =>
      have hitem := hw.items _ _ hk
      have hchanged := ha.inStock hitem hk hwithin
      exact hw.written (stamped_inStock hitem hchanged) hchanged hO

end Commits

/-! ## Runs -/

abbrev Cluster := Config Db Error Reply Call

theorem start_sound (strict : Prop) (adm : Call → Db → Db → Db → Prop)
    (categories : List ResourceCategory) (replicas : List UserReplica) :
    (Config.start (Db.initial categories replicas) : Cluster).Sound (discipline strict) adm :=
  have hrested := initial_rested categories replicas
  Config.start_sound ⟨hrested.bounded, trivial⟩ hrested.settled

/-- The steps of a run that change the stock stay within it. -/
def WithinStock (a : Call) (_ s s' : Db) : Prop := StaysWithin a s.rows s'.rows

instance (a : Call) (s₀ s s' : Db) : Decidable (WithinStock a s₀ s s') :=
  inferInstanceAs (Decidable (StaysWithin a s.rows s'.rows))

theorem stock_bounds (validatePayload : Option (List Json) → Option Object →
      Except FormErrors (Option Object)) (categories : List ResourceCategory)
    (replicas : List UserReplica) {c : Cluster}
    (h : RunWith (Call.body validatePayload) WithinStock
      (Config.start (Db.initial categories replicas)) c) :
    (∀ k item, c.store.items.committed k = some item →
      0 ≤ item.quantityReserved ∧ item.quantityReserved ≤ item.quantityTotal ∧
        0 ≤ item.quantityAvailable ∧ item.quantityAvailable ≤ item.quantityTotal) ∧
    ∀ o row, c.store.outbox.committed o = some row → row.payload.data.WithinContract := by
  have hsound : StockSound (schema.rows c.store) := by
    refine RunWith.rows_keep (verified False validatePayload fun hfalse => hfalse.elim) ?_
      (start_sound False _ categories replicas) h ?_
    · intro a s₀ s s' W _ _ hc heq hadm hs
      have hrows : s'.rows = W.overlay s.rows := heq
      exact hc.stockSound (hrows ▸ hadm) hs
    · refine ⟨fun k item hk => ?_, fun o row ho => ?_⟩
      · cases hk
      · cases ho
  refine ⟨fun k item hk => ?_, hsound.events⟩
  obtain ⟨hge, hle⟩ := hsound.items k item hk
  unfold InventoryItem.quantityAvailable
  omega

/-- Ten tents. -/
def tents : InventoryItemCreate :=
  { categoryId := 0, name := "Tent", quantityTotal := 10, quantity_nonneg := by decide }

/-- Two coordinators reserve tents at the same time, and one of them gives some back. -/
def tentSchedule : List (Move Call) :=
  [[.begin (.addInventoryItem (some 1) tents 0)], List.replicate 5 (.next 0), [.close 0],
    [.begin (.reserveStock coordinator 0 4 1), .begin (.reserveStock coordinator 0 3 2)],
    List.replicate 5 (.next 1), List.replicate 6 (.next 2), [.close 1, .close 2],
    [.begin (.releaseStock (some 1) 0 5 3)], List.replicate 5 (.next 3), [.close 3]].flatten

theorem stock_bounds_tents : ∃ c : Cluster,
    RunWith (Call.body fun _ fields => .ok fields) WithinStock
      (Config.start (Db.initial [foodBank none Workflow.accepted_none] [])) c ∧
    ∃ item, c.store.items.committed 0 = some item ∧ item.quantityReserved = 2 ∧
      0 ≤ item.quantityReserved ∧ item.quantityReserved ≤ item.quantityTotal ∧
      0 ≤ item.quantityAvailable ∧ item.quantityAvailable ≤ item.quantityTotal := by
  have hplay : ((Config.start (Db.initial [foodBank none Workflow.accepted_none] [])).playWith
      (Call.body fun _ fields => .ok fields) WithinStock tentSchedule).map (fun c =>
        (c.store.items.committed 0).map InventoryItem.quantityReserved) = some (some 2) := by
    decide +kernel
  obtain ⟨c, hc, hreserved⟩ := Option.map_eq_some_iff.mp hplay
  obtain ⟨item, hitem, htwo⟩ := Option.map_eq_some_iff.mp hreserved
  have hrun := Config.playWith_run hc
  exact ⟨c, hrun, item, hitem, htwo, (stock_bounds _ _ _ hrun).1 0 item hitem⟩

/-- A reservation of minus five tents and a release of minus twenty pass all checks. -/
theorem negative_quantity_breaks_stock :
    ¬ ∀ (categories : List ResourceCategory) (c : Cluster) (k : Nat) (item : InventoryItem),
      Run (Call.body fun _ fields => .ok fields) (Config.start (Db.initial categories [])) c →
      c.store.items.committed k = some item →
      0 ≤ item.quantityReserved ∧ item.quantityReserved ≤ item.quantityTotal := by
  intro hclaim
  have hcalls : (calls (Call.body fun _ fields => .ok fields)
      [.addInventoryItem (some 1) tents 0, .reserveStock coordinator 0 (-5) 1,
        .addInventoryItem (some 1) tents 2, .releaseStock (some 1) 1 (-20) 3] 0
      (Db.initial [foodBank none Workflow.accepted_none] [])).map (fun s =>
        ((s.items.committed 0).map InventoryItem.quantityReserved,
          (s.items.committed 1).map InventoryItem.quantityReserved)) =
      some (some (-5), some 20) := by
    decide +kernel
  obtain ⟨s, hs, hrows⟩ := Option.map_eq_some_iff.mp hcalls
  obtain ⟨item, hitem, hfive⟩ := Option.map_eq_some_iff.mp (Prod.mk.inj hrows).1
  obtain ⟨c, hrun, rfl⟩ := Run.calls (c := Config.start _) (fun _ => rfl) hs
  have hbounds := (hclaim _ c 0 item hrun hitem).1
  rw [hfive] at hbounds
  omega

end Logistics
end Rcp
