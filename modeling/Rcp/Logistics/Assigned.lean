/-
Whom a task is announced to.

The event of an assignment carries the id of the task, the tenant of the coordinator
and the volunteer.  A task keeps its tenant and its volunteer, so all events about a
task that a call has returned name the tenant and the volunteer of that call.
-/
import Rcp.Logistics.Services
import Rcp.Sql.Growth
import Rcp.Sql.Identity

namespace Rcp
namespace Logistics

open Sql Growth

/-- The tenant and the volunteer of a task. -/
def DispatchTask.addressee (task : DispatchTask) : Option Uuid × Uuid :=
  (some task.tenantId, task.volunteerUserId)

/-- The event of an assignment is addressed like its task. -/
def Addressed (tasks : Table DispatchTask) (row : Outbox Message) : Prop :=
  match row.payload.data with
  | .taskAssigned taskId _ _ _ _ _ _ _ _ _ volunteerUserId _ _ _ _ =>
      row.payload.eventType = "logistics.task.assigned" ∧
        tasks.Identified DispatchTask.addressee taskId (row.payload.tenantId, volunteerUserId)
  | _ => True

theorem Addressed.mono {tasks tasks' : Table DispatchTask} {row : Outbox Message}
    (h : Table.Identifies DispatchTask.addressee tasks tasks') (hrow : Addressed tasks row) :
    Addressed tasks' row := by
  unfold Addressed at hrow ⊢
  split at hrow
  · exact ⟨hrow.1, h _ _ hrow.2⟩
  · trivial

structure Assigns (s : Db) : Prop where
  tasks : s.tasks.Agrees DispatchTask.addressee
  outbox : s.outbox.All fun _ row => Addressed s.tasks row

/-- What is known of a task's addressee stays known. -/
def assignment : Growth Db where
  Inv := Assigns
  Le s s' := Table.Identifies DispatchTask.addressee s.tasks s'.tasks
  refl s := .refl s.tasks
  trans _ _ _ := .trans
  rollback t s h := by
    refine ⟨⟨h.tasks.rollback t, fun k row hrow => ?_⟩, Table.identifies_rollback⟩
    exact Addressed.mono Table.identifies_rollback (h.outbox.rollback t k row hrow)

/-- A call that assigns a task knows its addressee. -/
def Returned : Call → Reply → Db → Prop
  | .assignTask principal data _, .task id _, s =>
      s.tasks.Identified DispatchTask.addressee id (principal.tenantId, data.volunteerUserId)
  | _, _, _ => True

theorem returned_lasting (a : Call) (reply : Reply) : assignment.Lasting (Returned a reply) := by
  intro s s' hup h
  unfold Returned at h ⊢
  split at h
  · exact hup.2 _ _ h
  · trivial

section Steps

variable {s : Db}

theorem up_commit (hs : Assigns s) (t : Sid) : assignment.Up s (Transactional.commit t s) := by
  refine ⟨⟨hs.tasks.commit t, fun k row hrow => ?_⟩, Table.identifies_commit⟩
  exact Addressed.mono Table.identifies_commit (hs.outbox.commit t k row hrow)

/-- Statements on the other tables. -/
theorem up_other (hs : Assigns s) {s' : Db} (htasks : s'.tasks = s.tasks)
    (houtbox : s'.outbox = s.outbox) : assignment.Up s s' := by
  refine ⟨⟨htasks ▸ hs.tasks, ?_⟩, ?_⟩
  · rw [htasks, houtbox]
    exact hs.outbox
  · show Table.Identifies _ s.tasks s'.tasks
    rw [htasks]
    exact .refl _

theorem takes_emit (hs : Assigns s) {routingKey : String} {tenantId : Option Uuid}
    {data : Message} (h : ∀ o, Addressed s.tasks (outboxRow routingKey tenantId data o)) :
    assignment.Takes (fun _ _ => True)
      (emit Db.outboxT routingKey tenantId data : Prog Db Error Nat) s := by
  refine takes_insert fun t s' hs' => ⟨?_, fun _ _ => trivial⟩
  rw [hs']
  exact ⟨⟨hs.tasks, hs.outbox.insert (t := t) (h _)⟩, .refl _⟩

theorem takes_insertOther {V : Type} {T : Access Db V} {row : Nat → V} (hs : Assigns s)
    (hT : ∀ s T', (T.set s T').tasks = s.tasks ∧ (T.set s T').outbox = s.outbox) :
    assignment.Takes (fun _ _ => True) (insert T row : Prog Db Error Nat) s := by
  refine takes_insert fun t s' hs' => ⟨?_, fun _ _ => trivial⟩
  rw [hs']
  exact up_other hs (hT _ _).1 (hT _ _).2

/-- The end of a call: the commit and `db.refresh`. -/
theorem takes_commit_refresh {V : Type} {T : Access Db V} {k : Nat} {f : V → Reply} {a : Call}
    (hs : Assigns s) (hf : ∀ v u, assignment.Up s u → Returned a (f v) u) :
    assignment.Takes (Returned a) (do
      commit
      let row ← refresh T k
      return f row) s := by
  refine takes_bind hs (takes_commit (up_commit hs)) fun _ u hu _ => ?_
  refine takes_bind (R := fun _ _ => True) hu.1 ?_ fun v w hw _ =>
    takes_ret (hf v w (hu.trans hw))
  refine takes_bind (R := fun _ _ => True) hu.1 (takes_query hu.1 fun _ _ _ => trivial) ?_
  intro found v _ _
  cases found with
  | none => exact takes_raise
  | some row => exact takes_ret trivial

end Steps

/-! ## Calls -/

section Calls

variable {s : Db}

theorem takes_createRequest {validatePayload : Option (List Json) → Option Object →
      Except FormErrors (Option Object)} {principal : Principal} {data : HelpRequestCreate}
    {now : Time} (hs : Assigns s) :
    assignment.Takes (Returned (.createRequest principal data now))
      (createRequest validatePayload principal data now) s := by
  refine takes_bind (R := fun _ _ => True) hs ?_ fun category u hu _ => ?_
  · refine takes_bind (R := fun _ _ => True) hs (takes_query hs fun _ _ _ => trivial) ?_
    intro found u _ _
    cases found with
    | none => exact takes_raise
    | some category =>
        show assignment.Takes _ (if _ then _ else _) u
        split
        · exact takes_ret trivial
        · exact takes_raise
  split
  · exact takes_raise
  · split
    · exact takes_raise
    · split
      · exact takes_raise
      · split
        · exact takes_raise
        · refine takes_bind hu.1 (takes_insertOther hu.1 fun _ _ => ⟨rfl, rfl⟩) ?_
          intro id v hv _
          refine takes_bind hv.1 (takes_emit hv.1 fun _ => trivial) fun _ w hw _ => ?_
          exact takes_commit_refresh hw.1 fun _ _ _ => trivial

theorem takes_updateStatus {requestId : Uuid} {newStatus : RequestStatus}
    {principal : Principal} {now : Time} (hs : Assigns s) :
    assignment.Takes (Returned (.updateStatus requestId newStatus principal now))
      (updateStatus requestId newStatus principal now) s := by
  refine takes_bind (R := fun _ _ => True) hs (takes_query hs fun _ _ _ => trivial) ?_
  intro found u hu _
  cases found with
  | none => exact takes_raise
  | some request =>
      show assignment.Takes _ (if _ then _ else _) u
      split
      · exact takes_raise
      · refine takes_bind (R := fun _ _ => True) hu.1 (takes_query hu.1 fun _ _ _ => trivial) ?_
        intro category v hv _
        unfold changeStatus
        split
        · exact takes_raise
        · split
          · exact takes_raise
          · refine takes_bind hv.1 (takes_updateWhere hv.1 fun _ _ _ => up_other hv.1 rfl rfl) ?_
            intro _ w hw _
            refine takes_bind hw.1 (takes_emit hw.1 fun _ => trivial) fun _ x hx _ => ?_
            exact takes_commit_refresh hx.1 fun _ _ _ => trivial

/-- The task is inserted, and its key is known by its addressee. -/
theorem takes_insertTask {task : DispatchTask} (hs : Assigns s) :
    assignment.Takes (fun id u => u.tasks.Identified DispatchTask.addressee id task.addressee)
      (insert Db.tasksT fun _ => task : Prog Db Error Nat) s := by
  refine takes_insert fun t s' hs' => ?_
  have hup : assignment.Up s s' := by
    rw [hs']
    refine ⟨⟨hs.tasks.insert t task, fun k row hrow => ?_⟩, Table.identifies_insert⟩
    exact (hs.outbox k row hrow).mono Table.identifies_insert
  have hid : s'.tasks.Identified DispatchTask.addressee s.tasks.next task.addressee := by
    rw [hs']
    exact hs.tasks.identified_next t task
  exact ⟨hup, fun s'' hup' => hup'.2 _ _ hid⟩

theorem takes_assignTask {principal : Principal} {data : DispatchTaskCreate} {now : Time}
    (hs : Assigns s) :
    assignment.Takes (Returned (.assignTask principal data now))
      (assignTask principal data now) s := by
  refine takes_bind (R := fun _ _ => True) hs (takes_query hs fun _ _ _ => trivial) ?_
  intro found u hu _
  cases found with
  | none => exact takes_raise
  | some request =>
      show assignment.Takes _ (if _ then _ else if _ then _ else _) u
      split
      · exact takes_raise
      · rename_i htenant
        split
        · exact takes_raise
        · refine takes_bind (R := fun _ _ => True) hu.1 (takes_query hu.1 fun _ _ _ => trivial) ?_
          intro volunteer v hv _
          split
          · exact takes_raise
          · refine takes_bind (R := fun _ _ => True) hv.1 ?_ fun _ w hw _ => ?_
            · unfold startProgress
              split
              · exact takes_ret trivial
              · exact takes_bind hv.1 (takes_updateWhere hv.1 fun _ _ _ => up_other hv.1 rfl rfl)
                  fun _ _ _ _ => takes_ret trivial
            refine takes_bind hw.1 (takes_insertTask hw.1) fun taskId x hx hid => ?_
            refine takes_bind (R := fun _ _ => True) hx.1 ?_ fun assigner y hy _ => ?_
            · unfold assignerReplica
              split
              · exact takes_ret trivial
              · exact takes_query hx.1 fun _ _ _ => trivial
            refine takes_bind (R := fun _ _ => True) hy.1 (takes_query hy.1 fun _ _ _ => trivial) ?_
            intro category z hz _
            -- the task's addressee is the caller's tenant and the volunteer of the form
            have hknown : z.tasks.Identified DispatchTask.addressee taskId
                (principal.tenantId, data.volunteerUserId) := by
              rw [← not_not.mp htenant]
              exact hz.2 _ _ (hy.2 _ _ hid)
            refine takes_bind hz.1 (takes_emit hz.1 fun _ => ⟨rfl, hknown⟩) fun _ x' hx' _ => ?_
            exact takes_commit_refresh hx'.1 fun _ _ hu' => hu'.2 _ _ (hx'.2 _ _ hknown)

theorem takes_addInventoryItem {tenantId : Option Uuid} {data : InventoryItemCreate}
    {now : Time} (hs : Assigns s) :
    assignment.Takes (Returned (.addInventoryItem tenantId data now))
      (addInventoryItem tenantId data now) s := by
  unfold addInventoryItem
  split
  · exact takes_raise
  · split
    · exact takes_raise
    · refine takes_bind (R := fun _ _ => True) hs (takes_query hs fun _ _ _ => trivial) ?_
      intro found u hu _
      cases found with
      | none => exact takes_raise
      | some category =>
          refine takes_bind hu.1 (takes_insertOther hu.1 fun _ _ => ⟨rfl, rfl⟩) ?_
          intro id v hv _
          refine takes_bind hv.1 (takes_emit hv.1 fun _ => trivial) fun _ w hw _ => ?_
          exact takes_commit_refresh hw.1 fun _ _ _ => trivial

theorem takes_updateItem {k : Nat} {p : InventoryItem → Bool}
    {f : InventoryItem → InventoryItem} (hs : Assigns s) :
    assignment.Takes (fun _ _ => True)
      (updateWhere Db.itemsT k p f : Prog Db Error (Option InventoryItem)) s :=
  takes_updateWhere hs fun _ _ _ => up_other hs rfl rfl

theorem takes_flushItem {itemId : Uuid} {loaded changed : InventoryItem} {now : Time}
    (hs : Assigns s) :
    assignment.Takes (fun _ _ => True) (flushItem itemId loaded changed now) s := by
  unfold flushItem
  split
  · exact takes_ret trivial
  · split
    · exact takes_raise
    · exact takes_bind hs (takes_updateItem hs) fun _ _ _ _ => takes_ret trivial

theorem takes_reserveStock {principal : Principal} {itemId : Uuid} {quantity : Int}
    {now : Time} (hs : Assigns s) :
    assignment.Takes (Returned (.reserveStock principal itemId quantity now))
      (reserveStock principal itemId quantity now) s := by
  refine takes_bind hs (takes_updateItem hs) fun found u hu _ => ?_
  cases found with
  | none => exact takes_raise
  | some item =>
      show assignment.Takes _ (if _ then _ else _) u
      split
      · exact takes_raise
      · refine takes_bind hu.1 (takes_flushItem hu.1) fun _ v hv _ => ?_
        refine takes_bind (R := fun _ _ => True) hv.1 ?_ fun _ w hw _ => ?_
        · unfold emitLowStock
          split
          · exact takes_bind hv.1 (takes_emit hv.1 fun _ => trivial)
              fun _ _ _ _ => takes_ret trivial
          · exact takes_ret trivial
        refine takes_bind hw.1 (takes_emit hw.1 fun _ => trivial) fun _ x hx _ => ?_
        exact takes_commit_refresh hx.1 fun _ _ _ => trivial

theorem takes_releaseStock {tenantId : Option Uuid} {itemId : Uuid} {quantity : Int}
    {now : Time} (hs : Assigns s) :
    assignment.Takes (Returned (.releaseStock tenantId itemId quantity now))
      (releaseStock tenantId itemId quantity now) s := by
  refine takes_bind hs (takes_updateItem hs) fun found u hu _ => ?_
  cases found with
  | none => exact takes_raise
  | some item =>
      refine takes_bind hu.1 (takes_flushItem hu.1) fun _ v hv _ => ?_
      refine takes_bind hv.1 (takes_emit hv.1 fun _ => trivial) fun _ w hw _ => ?_
      exact takes_commit_refresh hw.1 fun _ _ _ => trivial

end Calls

/-! ## Runs -/

section Runs

variable {validatePayload : Option (List Json) → Option Object →
  Except FormErrors (Option Object)} {categories : List ResourceCategory}
  {replicas : List UserReplica} {c : Config Db Error Reply Call}

theorem assigns_sound
    (h : Run (Call.body validatePayload) (Config.start (Db.initial categories replicas)) c) :
    c.Sound (assignment.discipline Returned returned_lasting) fun _ _ _ _ => True := by
  refine Run.sound (verified fun a s hs _ => ?_) (Config.start_sound ?_ fun _ => trivial) h
  · cases a with
    | createRequest principal data now => exact takes_createRequest hs
    | updateStatus requestId newStatus principal now => exact takes_updateStatus hs
    | assignTask principal data now => exact takes_assignTask hs
    | addInventoryItem tenantId data now => exact takes_addInventoryItem hs
    | reserveStock principal itemId quantity now => exact takes_reserveStock hs
    | releaseStock tenantId itemId quantity now => exact takes_releaseStock hs
  · exact ⟨Table.agrees_empty, Table.empty_all⟩

/-- A call of `principal` has assigned a task to the volunteer, and `event` is in the
outbox for this task. -/
structure Dispatched (c : Config Db Error Reply Call) (principal : Principal)
    (volunteerUserId : Uuid) (event : Envelope Message) : Prop where
  call : ∃ t data now taskId reply task, data.volunteerUserId = volunteerUserId ∧
    (t, Call.assignTask principal data now, Except.ok (.task taskId reply)) ∈ c.log ∧
      c.store.tasks.committed taskId = some task ∧ event.data.task? = some taskId
  row : ∃ o row, c.store.outbox.Has o row ∧ row.payload = event

/-- The event carries the tenant of the coordinator and the volunteer. -/
theorem Dispatched.addressee
    (h : Run (Call.body validatePayload) (Config.start (Db.initial categories replicas)) c)
    {principal : Principal} {volunteerUserId : Uuid} {event : Envelope Message}
    (hevent : Dispatched c principal volunteerUserId event) :
    event.eventType = "logistics.task.assigned" ∧ event.tenantId = principal.tenantId ∧
      event.data.volunteer? = some volunteerUserId := by
  obtain ⟨t, data, now, taskId, reply, task, rfl, hlog, htask, htaskId⟩ := hevent.call
  obtain ⟨o, row, hrow, rfl⟩ := hevent.row
  have hsound := assigns_sound h
  have hcall : c.store.tasks.Identified DispatchTask.addressee taskId
      (principal.tenantId, data.volunteerUserId) := hsound.log _ hlog _ rfl
  have haddressed : Addressed c.store.tasks row := hsound.inv.outbox o row hrow
  unfold Addressed at haddressed
  cases hdata : row.payload.data with
  | taskAssigned id _ _ _ _ _ _ _ _ _ volunteer _ _ _ _ =>
      rw [hdata] at haddressed htaskId
      obtain rfl : id = taskId := Option.some.inj htaskId
      have heq := (haddressed.2.2 task (.inl htask)).symm.trans (hcall.2 task (.inl htask))
      exact ⟨haddressed.1, congrArg Prod.fst heq, congrArg (some ∘ Prod.snd) heq⟩
  | requestSubmitted | requestStatusChanged | itemUpdated | lowStock | resourceCategory =>
      rw [hdata] at htaskId
      cases htaskId

end Runs

end Logistics
end Rcp
