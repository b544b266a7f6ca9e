/-
What every event of the logistics service looks like, under any interleaving.

An event names a tenant, its type goes with its data, and its id is its key in the
outbox.  The quantity of a request fits an `INTEGER` column, since it was written to
one.
-/
import Rcp.Sql.Keeps
import Rcp.Logistics.Categories

namespace Rcp
namespace Logistics

open Sql Sql.Table

/-- The data goes with the event type. -/
def Message.FitsType (eventType : String) : Message → Prop
  | requestSubmitted _ _ _ quantityNeeded _ _ _ =>
      eventType = "logistics.request.submitted" ∧ FitsInteger quantityNeeded
  | requestStatusChanged _ _ quantityNeeded _ _ _ _ _ =>
      eventType = "logistics.request.status-changed" ∧ FitsInteger quantityNeeded
  | taskAssigned .. => eventType = "logistics.task.assigned"
  | itemUpdated .. => eventType = "logistics.inventory.item-updated"
  | lowStock .. => eventType = "logistics.inventory.low-stock"
  | resourceCategory .. => eventType ∈ ["logistics.resource-category.created",
      "logistics.resource-category.updated"]

/-- An outbox row under key `o`. -/
structure Emitted (o : Nat) (row : Outbox Message) : Prop where
  eventId : row.payload.eventId = o
  tenantId : row.payload.tenantId.isSome = true
  data : row.payload.data.FitsType row.payload.eventType

/-- What holds of every version of the requests and of the outbox. -/
structure Emits (s : Db) : Prop where
  requests : s.requests.All fun _ request => FitsInteger request.quantityNeeded
  outbox : s.outbox.All Emitted

section Statements

variable {γ : Type} {s : Db}

theorem Emits.commit (h : Emits s) (t : Sid) : Emits (Transactional.commit t s) :=
  ⟨h.requests.commit t, h.outbox.commit t⟩

theorem Emits.rollback (h : Emits s) (t : Sid) : Emits (Transactional.rollback t s) :=
  ⟨h.requests.rollback t, h.outbox.rollback t⟩

theorem keeps_emit {key : String} {tenant : Uuid} {data : Message} (h : data.FitsType key) :
    (emit Db.outboxT key (some tenant) data : Prog Db Error Nat).Keeps Emits (fun _ => True) :=
  keeps_insert fun _ _ hs => ⟨hs.requests, hs.outbox.insert ⟨rfl, rfl, h⟩⟩

theorem keeps_commit_refresh {V : Type} (T : Access Db V) (k : Nat) (f : V → γ) :
    (Sql.commit >>= fun _ => refresh T k >>= fun v => pure (f v) : Prog Db Error γ).Keeps Emits
      (fun _ => True) := by
  refine keeps_bind (keeps_commit fun t s hs => hs.commit t) fun _ _ => ?_
  refine keeps_bind (R := fun _ => True) (keeps_bind (R := fun _ => True) ?_ fun r _ => ?_)
    fun _ _ => keeps_ret trivial
  · exact keeps_query fun _ _ _ => trivial
  · cases r with
    | none => exact keeps_raise
    | some v => exact keeps_ret trivial

theorem keeps_getCategory (tenantId : Option Uuid) (k : Uuid) :
    (getCategory tenantId k).Keeps Emits (fun category => some category.tenantId = tenantId) := by
  refine keeps_bind (R := fun _ => True) (keeps_query fun _ _ _ => trivial) fun r _ => ?_
  cases r with
  | none => exact keeps_raise
  | some category =>
      show (if _ then _ else _ : Prog Db Error ResourceCategory).Keeps _ _
      split
      · rename_i htenant
        exact keeps_ret htenant
      · exact keeps_raise

theorem keeps_request (k : Uuid) :
    (selectKey Db.requestsT k : Prog Db Error (Option HelpRequest)).Keeps Emits
      (fun r => ∀ request, r = some request → FitsInteger request.quantityNeeded) :=
  keeps_query fun _ _ hs _ hread => hs.requests.read hread

/-- An update of a table that the invariant does not speak of. -/
theorem keeps_updateItems {k : Uuid} {p : InventoryItem → Bool} {f : InventoryItem → InventoryItem} :
    (updateWhere Db.itemsT k p f : Prog Db Error (Option InventoryItem)).Keeps Emits
      (fun r => ∀ item', r = some item' → ∃ item, p item = true ∧ item' = f item) :=
  keeps_updateWhere fun _ _ _ hs _ => ⟨hs.requests, hs.outbox⟩

theorem keeps_updateRequests {k : Uuid} {f : HelpRequest → HelpRequest}
    (hf : ∀ request, (f request).quantityNeeded = request.quantityNeeded) :
    (update Db.requestsT k f : Prog Db Error (Option HelpRequest)).Keeps Emits
      (fun _ => True) := by
  refine keeps_stmt fun t s r s' hs hrun => ⟨?_, trivial⟩
  refine (keeps_updateWhere (ε := Error) (I := Emits) (fun t s request hs hread => ?_) t s r s' hs
    hrun).1
  refine ⟨hs.requests.write ?_, hs.outbox⟩
  show FitsInteger (f request).quantityNeeded
  rw [hf]
  exact hs.requests.read hread

end Statements

/-! ## The calls -/

section Calls

variable {validatePayload : Option (List Json) → Option Object → Except FormErrors (Option Object)}

theorem keeps_createRequest (principal : Principal) (data : HelpRequestCreate) (now : Time) :
    (createRequest validatePayload principal data now).Keeps Emits (fun _ => True) := by
  unfold createRequest
  refine keeps_bind (keeps_getCategory _ _) fun category htenant => ?_
  rw [← htenant]
  split
  · exact keeps_raise
  · split
    · exact keeps_raise
    · split
      · exact keeps_raise
      · split
        · exact keeps_raise
        · rename_i hfits
          have hfits' : FitsInteger data.quantityNeeded := not_not.mp hfits
          refine keeps_bind (keeps_insert fun t s hs => ?_) fun r _ => ?_
          · exact ⟨hs.requests.insert hfits', hs.outbox⟩
          · refine keeps_bind (keeps_emit ⟨rfl, hfits'⟩) fun _ _ => ?_
            exact keeps_commit_refresh _ _ _

theorem keeps_updateStatus (r : Uuid) (newStatus : RequestStatus) (principal : Principal)
    (now : Time) : (updateStatus r newStatus principal now).Keeps Emits (fun _ => True) := by
  unfold updateStatus
  refine keeps_bind (keeps_request r) fun result hfits => ?_
  cases result with
  | none => exact keeps_raise
  | some request =>
      show (if _ then _ else _ : Prog Db Error Reply).Keeps _ _
      split
      · exact keeps_raise
      · refine keeps_bind (R := fun _ => True) (keeps_query fun _ _ _ => trivial) fun category _ => ?_
        unfold changeStatus
        split
        · exact keeps_raise
        · split
          · exact keeps_raise
          · refine keeps_bind (keeps_updateRequests fun request => ?_) fun _ _ => ?_
            · cases newStatus <;> rfl
            · refine keeps_bind (keeps_emit ⟨rfl, hfits request rfl⟩) fun _ _ => ?_
              exact keeps_commit_refresh _ _ _

theorem keeps_assignTask (principal : Principal) (data : DispatchTaskCreate) (now : Time) :
    (assignTask principal data now).Keeps Emits (fun _ => True) := by
  unfold assignTask
  refine keeps_bind (keeps_request _) fun result _ => ?_
  cases result with
  | none => exact keeps_raise
  | some request =>
      show (if _ then _ else _ : Prog Db Error Reply).Keeps _ _
      split
      · exact keeps_raise
      · rename_i htenant
        split
        · exact keeps_raise
        · refine keeps_bind (R := fun _ => True) (keeps_query fun _ _ _ => trivial)
            fun volunteer _ => ?_
          split
          · exact keeps_raise
          · refine keeps_bind (R := fun _ => True) ?_ fun _ _ => ?_
            · unfold startProgress
              split
              · exact keeps_ret trivial
              · exact keeps_bind (keeps_updateRequests fun _ => rfl) fun _ _ => keeps_ret trivial
            refine keeps_bind (keeps_insert fun _ _ hs => ⟨hs.requests, hs.outbox⟩)
              fun taskId _ => ?_
            refine keeps_bind (R := fun _ => True) ?_ fun assigner _ => ?_
            · unfold assignerReplica
              split
              · exact keeps_ret trivial
              · exact keeps_query fun _ _ _ => trivial
            refine keeps_bind (R := fun _ => True) (keeps_query fun _ _ _ => trivial)
              fun category _ => ?_
            rw [← not_not.mp htenant]
            refine keeps_bind (keeps_emit rfl) fun _ _ => ?_
            exact keeps_commit_refresh _ _ _

theorem keeps_addInventoryItem (tenantId : Option Uuid) (data : InventoryItemCreate)
    (now : Time) : (addInventoryItem tenantId data now).Keeps Emits (fun _ => True) := by
  unfold addInventoryItem
  split
  · exact keeps_raise
  · split
    · exact keeps_raise
    · refine keeps_bind (R := fun _ => True) (keeps_query fun _ _ _ => trivial) fun category _ => ?_
      split
      · exact keeps_raise
      · refine keeps_bind (keeps_insert fun _ _ hs => ⟨hs.requests, hs.outbox⟩) fun id _ => ?_
        refine keeps_bind (keeps_emit rfl) fun _ _ => ?_
        exact keeps_commit_refresh _ _ _

theorem keeps_lockItem (tenantId : Option Uuid) (k : Uuid) :
    (lockItem tenantId k).Keeps Emits
      (fun r => ∀ item, r = some item → some item.tenantId = tenantId) := by
  refine keeps_stmt fun t s r s' hs hrun => ?_
  obtain ⟨hs', hr⟩ := keeps_updateItems t s r s' hs hrun
  refine ⟨hs', fun item hitem => ?_⟩
  obtain ⟨item', htenant, rfl⟩ := hr item hitem
  simpa using htenant

theorem keeps_flushItem (k : Uuid) (loaded changed : InventoryItem) (now : Time) :
    (flushItem k loaded changed now).Keeps Emits (fun _ => True) := by
  unfold flushItem
  split
  · exact keeps_ret trivial
  · split
    · exact keeps_raise
    · exact keeps_bind keeps_updateItems fun _ _ => keeps_ret trivial

theorem keeps_reserveStock (principal : Principal) (k : Uuid) (quantity : Int) (now : Time) :
    (reserveStock principal k quantity now).Keeps Emits (fun _ => True) := by
  unfold reserveStock
  refine keeps_bind (keeps_lockItem _ _) fun result htenant => ?_
  cases result with
  | none => exact keeps_raise
  | some item =>
      rw [← htenant item rfl]
      show (if _ then _ else _ : Prog Db Error Reply).Keeps _ _
      split
      · exact keeps_raise
      · refine keeps_bind (keeps_flushItem _ _ _ _) fun _ _ => ?_
        refine keeps_bind (R := fun _ => True) ?_ fun _ _ => ?_
        · unfold emitLowStock
          split
          · exact keeps_bind (keeps_emit rfl) fun _ _ => keeps_ret trivial
          · exact keeps_ret trivial
        refine keeps_bind (keeps_emit rfl) fun _ _ => ?_
        exact keeps_commit_refresh _ _ _

theorem keeps_releaseStock (tenantId : Option Uuid) (k : Uuid) (quantity : Int) (now : Time) :
    (releaseStock tenantId k quantity now).Keeps Emits (fun _ => True) := by
  unfold releaseStock
  refine keeps_bind (keeps_lockItem _ _) fun result htenant => ?_
  cases result with
  | none => exact keeps_raise
  | some item =>
      rw [← htenant item rfl]
      refine keeps_bind (keeps_flushItem _ _ _ _) fun _ _ => ?_
      refine keeps_bind (keeps_emit rfl) fun _ _ => ?_
      exact keeps_commit_refresh _ _ _

theorem keeps_saveCategory (tenant k : Uuid) (loaded changed : ResourceCategory) (now : Time) :
    (saveCategory (some tenant) k loaded changed now).Keeps Emits (fun _ => True) := by
  unfold saveCategory
  refine keeps_bind (R := fun _ => True) ?_ fun updatedAt _ => ?_
  · unfold flushCategory
    split
    · exact keeps_ret trivial
    · refine keeps_bind (keeps_updateWhere fun _ _ _ hs _ => ⟨hs.requests, hs.outbox⟩) fun _ _ => ?_
      refine keeps_bind (R := fun _ => True) ?_ fun _ _ => keeps_ret trivial
      refine keeps_bind (R := fun _ => True) (keeps_query fun _ _ _ => trivial) fun r _ => ?_
      cases r with
      | none => exact keeps_raise
      | some category => exact keeps_ret trivial
  · refine keeps_bind (keeps_emit (by simp [Message.FitsType, categoryMessage])) fun _ _ => ?_
    exact keeps_commit_refresh _ _ _

theorem keeps_category (a : CategoryCall) : a.body.Keeps Emits (fun _ => True) := by
  cases a with
  | createCategory tenantId data now =>
      show (createCategory tenantId data now).Keeps _ _
      unfold createCategory
      split
      · exact keeps_raise
      · refine keeps_bind (keeps_insert fun _ _ hs => ⟨hs.requests, hs.outbox⟩) fun id _ => ?_
        refine keeps_bind (keeps_emit (by simp [Message.FitsType, categoryMessage])) fun _ _ => ?_
        exact keeps_commit_refresh _ _ _
  | updateCategory tenantId k data now =>
      refine keeps_bind (keeps_getCategory _ _) fun category htenant => ?_
      rw [← htenant]
      split
      · exact keeps_raise
      · exact keeps_saveCategory _ _ _ _ _
  | deactivateCategory tenantId k now =>
      refine keeps_bind (keeps_getCategory _ _) fun category htenant => ?_
      rw [← htenant]
      split
      · exact keeps_saveCategory _ _ _ _ _
      · exact keeps_ret trivial

theorem keeps_call (a : Call) : (a.body validatePayload).Keeps Emits (fun _ => True) := by
  cases a with
  | createRequest principal data now => exact keeps_createRequest principal data now
  | updateStatus r newStatus principal now => exact keeps_updateStatus r newStatus principal now
  | assignTask principal data now => exact keeps_assignTask principal data now
  | addInventoryItem tenantId data now => exact keeps_addInventoryItem tenantId data now
  | reserveStock principal k quantity now => exact keeps_reserveStock principal k quantity now
  | releaseStock tenantId k quantity now => exact keeps_releaseStock tenantId k quantity now

/-- The events of every run. -/
theorem run_emits {replicas : List UserReplica} {c : Config Db Error Unit Operation}
    (h : Run (Operation.body validatePayload) (Config.start (Db.initial [] replicas)) c) :
    Emits c.store := by
  refine Run.keeps_inv (fun t _ hs => hs.rollback t) (fun a => ?_) ⟨empty_all, empty_all⟩ h
  cases a with
  | category a => exact keeps_bind (keeps_category a) fun _ _ => keeps_ret trivial
  | call a => exact keeps_bind (keeps_call a) fun _ _ => keeps_ret trivial

end Calls

end Logistics
end Rcp
