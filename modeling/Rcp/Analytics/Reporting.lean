/-
The reports of the analytics service (`services/analytics/app/services/reporting.py`).

A query sees the rows of a projection in some order.  The collation that `ORDER BY`
uses is a parameter.  `category_id` is written out as text in the answer, which is left
out here.
-/
import Mathlib.Data.List.Sort
import Rcp.Analytics.Consumer
import Rcp.Sql.Aggregate

namespace Rcp
namespace Analytics

open Sql

/-- `_OPEN_STATUSES`. -/
def openStatuses : List String := ["pending", "verified", "approved", "in_progress"]

/-- A row of `_NEED_VS_FULFILLMENT_SQL`. -/
structure NeedRow where
  categoryId : Uuid
  category : String
  openRequests : Nat
  fulfilledRequests : Nat
  quantityNeeded : Int
  deriving DecidableEq

/-- An entry of the answer of `need_vs_fulfillment`. -/
structure NeedVsFulfillment extends NeedRow where
  stockAvailable : Int
  deriving DecidableEq

/-- The aggregates over the joined rows of one category. -/
def needRow (key : Uuid × String) (requests : List (Option (Uuid × RequestProjection))) :
    NeedRow :=
  { categoryId := key.1
    category := key.2
    openRequests :=
      requests.countP fun r => r.any fun r => decide (r.2.status ∈ openStatuses)
    fulfilledRequests := requests.countP fun r => r.any fun r => r.2.status == "fulfilled"
    quantityNeeded :=
      (sum? (((requests.filterMap id).filter fun r => decide (r.2.status ∈ openStatuses)).map
        fun r => r.2.quantityNeeded)).getD 0 }

/-- `_NEED_VS_FULFILLMENT_SQL`. -/
def needRows (collate : String → String → Bool) (categories : List (Uuid × CategoryProjection))
    (requests : List (Uuid × RequestProjection)) (tenantId : Uuid) : List NeedRow :=
  let joined := leftJoin (fun c r => r.2.categoryId == c.1) categories requests
  let groups := groupBy (fun row => (row.1.1, row.1.2.name))
    (joined.filter fun row => row.1.2.tenantId == tenantId)
  (groups.map fun group => needRow group.1 (group.2.map Prod.snd)).mergeSort
    fun x y => collate x.category y.category

/-- `_STOCK_SQL`. -/
def stockByCategory (items : List (Uuid × InventoryProjection)) (tenantId : Uuid) :
    List (Uuid × Int) :=
  (groupBy (fun i => i.2.categoryId) (items.filter fun i => i.2.tenantId == tenantId)).map
    fun group => (group.1, (sum? (group.2.map fun i =>
      i.2.quantityTotal - i.2.quantityReserved)).getD 0)

def needVsFulfillment (collate : String → String → Bool)
    (categories : List (Uuid × CategoryProjection)) (requests : List (Uuid × RequestProjection))
    (items : List (Uuid × InventoryProjection)) (tenantId : Uuid) : List NeedVsFulfillment :=
  let stock := stockByCategory items tenantId
  (needRows collate categories requests tenantId).map fun row =>
    { row with stockAvailable := (stock.lookup row.categoryId).getD 0 }

/-- `_STATUS_SUMMARY_SQL`, as the dictionary of `request_status_summary`. -/
def requestStatusSummary (requests : List (Uuid × RequestProjection)) (tenantId : Uuid) :
    List (String × Nat) :=
  (groupBy (fun r => r.2.status) (requests.filter fun r => r.2.tenantId == tenantId)).map
    fun group => (group.1, group.2.length)

/-! ## What the queries compute -/

section Queries

variable {categories : List (Uuid × CategoryProjection)}
  {requests : List (Uuid × RequestProjection)} {items : List (Uuid × InventoryProjection)}
  {tenantId : Uuid}

/-- The row of one category, without the join. -/
def categoryNeed (requests : List (Uuid × RequestProjection)) (c : Uuid × CategoryProjection) :
    NeedRow :=
  { categoryId := c.1
    category := c.2.name
    openRequests := requests.countP fun r =>
      r.2.categoryId == c.1 && decide (r.2.status ∈ openStatuses)
    fulfilledRequests := requests.countP fun r =>
      r.2.categoryId == c.1 && r.2.status == "fulfilled"
    quantityNeeded := ((requests.filter fun r => r.2.categoryId == c.1 &&
      decide (r.2.status ∈ openStatuses)).map fun r => r.2.quantityNeeded).sum }

theorem countP_filterMap {A : Type} (p : A → Bool) (l : List (Option A)) :
    (l.countP fun x => x.any p) = (l.filterMap id).countP p := by
  induction l with
  | nil => rfl
  | cons x rest ih =>
      cases x with
      | none => simpa using ih
      | some a =>
          rw [List.countP_cons, ih]
          simp [List.countP_cons]

theorem needRow_eq {c : Uuid × CategoryProjection}
    {joined : List (Option (Uuid × RequestProjection))}
    (h : joined.filterMap id = requests.filter fun r => r.2.categoryId == c.1) :
    needRow (c.1, c.2.name) joined = categoryNeed requests c := by
  unfold needRow categoryNeed
  simp only [countP_filterMap, h, List.countP_filter, List.filter_filter, sum?_getD]
  simp only [Bool.and_comm]

/-- The query lists every category of the tenant once. -/
theorem needRows_perm (requests : List (Uuid × RequestProjection)) (tenantId : Uuid)
    (collate : String → String → Bool) (hkeys : (categories.map Prod.fst).Nodup) :
    (needRows collate categories requests tenantId).Perm
      ((categories.filter fun c => c.2.tenantId == tenantId).map (categoryNeed requests)) := by
  let on := fun (c : Uuid × CategoryProjection) (r : Uuid × RequestProjection) =>
    r.2.categoryId == c.1
  let own := categories.filter fun c => c.2.tenantId == tenantId
  have hown : (own.map fun c => (c.1, c.2.name)).Nodup := by
    refine List.Nodup.of_map Prod.fst ?_
    rw [List.map_map]
    exact hkeys.sublist (List.filter_sublist.map _)
  have hgroups := groupBy_leftJoin (fun c : Uuid × CategoryProjection => (c.1, c.2.name)) on
    requests hown
  -- the aggregates look at the matches only
  have hrow : ∀ group : (Uuid × String) × List ((Uuid × CategoryProjection) ×
        Option (Uuid × RequestProjection)),
      needRow group.1 (group.2.map Prod.snd) =
        needRow group.1 ((group.2.filterMap Prod.snd).map some) := by
    intro group
    unfold needRow
    simp only [countP_filterMap, List.filterMap_map, Function.comp_def, id, List.filterMap_some]
  have hperm := hgroups.map fun group => needRow group.1 (group.2.map some)
  rw [List.map_map, List.map_map] at hperm
  unfold needRows
  refine (List.mergeSort_perm _ _).trans ?_
  rw [leftJoin_filter (fun c : Uuid × CategoryProjection => c.2.tenantId == tenantId)]
  refine (List.Perm.of_eq (List.map_congr_left fun group _ => hrow group)).trans ?_
  refine hperm.trans (.of_eq (List.map_congr_left fun c _ => ?_))
  refine needRow_eq ?_
  rw [List.filterMap_map]
  exact List.filterMap_some

/-- The stock of one category. -/
theorem stockByCategory_lookup (k : Uuid) :
    ((stockByCategory items tenantId).lookup k).getD 0 =
      ((items.filter fun i => i.2.tenantId == tenantId && i.2.categoryId == k).map fun i =>
        i.2.quantityTotal - i.2.quantityReserved).sum := by
  have hlookup := groupBy_lookup
    (fun group : List (Uuid × InventoryProjection) =>
      (sum? (group.map fun i => i.2.quantityTotal - i.2.quantityReserved)).getD 0)
    (fun i => i.2.categoryId) (items.filter fun i => i.2.tenantId == tenantId) k
  unfold stockByCategory
  rw [hlookup]
  have hfilter : (items.filter fun i => i.2.tenantId == tenantId && i.2.categoryId == k) =
      (items.filter fun i => i.2.tenantId == tenantId).filter fun i =>
        decide (i.2.categoryId = k) := by
    rw [List.filter_filter]
    refine List.filter_congr fun i _ => ?_
    rw [Bool.and_comm, beq_eq_decide]
  rw [hfilter]
  split
  · exact sum?_getD _
  · rename_i hnone
    have hempty : (items.filter fun i => i.2.tenantId == tenantId).filter
        (fun i => decide (i.2.categoryId = k)) = [] := by
      refine List.filter_eq_nil_iff.mpr fun i hi heq => hnone ⟨i, hi, of_decide_eq_true heq⟩
    rw [hempty]
    rfl

/-- The count of one status, which is absent if there is none. -/
theorem requestStatusSummary_lookup (status : String) :
    ((requestStatusSummary requests tenantId).lookup status).getD 0 =
      requests.countP fun r => r.2.status == status && r.2.tenantId == tenantId := by
  have hlookup := groupBy_lookup (fun group : List (Uuid × RequestProjection) => group.length)
    (fun r => r.2.status) (requests.filter fun r => r.2.tenantId == tenantId) status
  have hcount : (requests.countP fun r => r.2.status == status && r.2.tenantId == tenantId) =
      ((requests.filter fun r => r.2.tenantId == tenantId).filter fun r =>
        decide (r.2.status = status)).length := by
    rw [List.filter_filter, List.countP_eq_length_filter]
    simp only [beq_eq_decide]
  unfold requestStatusSummary
  rw [hlookup, hcount]
  split
  · rfl
  · rename_i hnone
    refine (List.length_eq_zero_iff.mpr (List.filter_eq_nil_iff.mpr fun r hr heq => ?_)).symm
    exact hnone ⟨r, hr, of_decide_eq_true heq⟩

end Queries

end Analytics
end Rcp
