/-
Replay by pages.

A client asks for what stands after its cursor, and asks again with the cursor that
`sync_complete` reports, until a page is empty.
-/
import Rcp.Sql.Paging
import Rcp.Sql.AppendOnly
import Rcp.Rto.Model

namespace Rcp
namespace Rto

open Sql Paging

/-- The requests of a client that follows the reported cursors, up to the first empty
page. -/
def replay (w : World) (tenantId : Option Uuid) (limit fuel : Nat) (cursor : Int) :
    Option (List (Page (Nat × SyncEvent) Int)) :=
  pages (fun cursor => syncSince w tenantId cursor limit) nextCursor fuel cursor

/-- The rows of a tenant, in the order of their `seq`. -/
def World.tenantRows (w : World) (tenantId : Option Uuid) : List (Nat × SyncEvent) :=
  w.syncEvents.rows.filter fun row => row.2.tenantId = tenantId

theorem tenantRows_sorted (w : World) (tenantId : Option Uuid) :
    (w.tenantRows tenantId).Pairwise fun x y => seqOf x.1 < seqOf y.1 := by
  refine (w.syncEvents.rows_sorted.imp fun hlt => ?_).filter _
  unfold seqOf
  omega

theorem syncSince_page (w : World) (tenantId : Option Uuid) (cursor : Int) (limit : Nat) :
    syncSince w tenantId cursor limit =
      (after (fun row => seqOf row.1) (w.tenantRows tenantId) cursor).take limit := by
  unfold syncSince after World.tenantRows
  rw [List.filter_filter]
  congr 1
  refine List.filter_congr fun row _ => ?_
  simp [Bool.and_comm]

theorem nextCursor_nil (cursor : Int) : nextCursor cursor [] = cursor := rfl

theorem nextCursor_last {cursor : Int} {rows : List (Nat × SyncEvent)} {last : Nat × SyncEvent}
    (h : rows.getLast? = some last) : nextCursor cursor rows = seqOf last.1 := by
  simp only [nextCursor, h]

/-- A replay by pages ends with an empty page that leaves its cursor as it is.  Its pages
hold the rows of the tenant after the first cursor, each of them once and in their order. -/
theorem replay_by_pages (w : World) (tenantId : Option Uuid) (cursor : Int) {limit : Nat}
    (hlimit : 1 ≤ limit) :
    ∃ (enough : Nat) (full : List (Page (Nat × SyncEvent) Int)) (last : Int),
      (∀ fuel, enough ≤ fuel →
        replay w tenantId limit fuel cursor = some (full ++ [⟨last, [], last⟩])) ∧
      ((full.map Page.rows).flatten.Pairwise fun x y => seqOf x.1 < seqOf y.1) ∧
      ∀ row, row ∈ (full.map Page.rows).flatten ↔
        row ∈ w.syncEvents.rows ∧ row.2.tenantId = tenantId ∧ cursor < seqOf row.1 := by
  have hsorted := tenantRows_sorted w tenantId
  obtain ⟨full, last, hpages, hflat⟩ := pages_complete hsorted hlimit
    (fun cursor => syncSince_page w tenantId cursor limit) nextCursor_nil
    (fun _ _ _ hlast => nextCursor_last hlast) (Nat.lt_succ_self _) 
  refine ⟨_, full, last, hpages, ?_, fun row => ?_⟩
  · rw [hflat]
    exact hsorted.filter _
  · rw [hflat, mem_after, World.tenantRows, List.mem_filter]
    simp only [decide_eq_true_eq, and_assoc]

/-- The feed of two tenants, with a number that was rolled back. -/
def sharedFeed : World :=
  { World.initial 0 with
    syncEvents :=
      { Table.ofList
          [{ tenantId := some 1, entityType := "task", entityId := none, op := "created",
             payload := .revoked none none, occurredAt := 0 },
           { tenantId := some 2, entityType := "task", entityId := none, op := "created",
             payload := .revoked none none, occurredAt := 0 }] with
        next := 5 } }

theorem replay_by_pages_shared :
    ∃ (enough : Nat) (full : List (Page (Nat × SyncEvent) Int)) (last : Int),
      (∀ fuel, enough ≤ fuel →
        replay sharedFeed (some 2) 1 fuel 0 = some (full ++ [⟨last, [], last⟩])) ∧
      ((full.map Page.rows).flatten.Pairwise fun x y => seqOf x.1 < seqOf y.1) ∧
      ∀ row, row ∈ (full.map Page.rows).flatten ↔
        row ∈ sharedFeed.syncEvents.rows ∧ row.2.tenantId = some 2 ∧ 0 < seqOf row.1 :=
  replay_by_pages sharedFeed (some 2) 0 (by decide)

end Rto
end Rcp
