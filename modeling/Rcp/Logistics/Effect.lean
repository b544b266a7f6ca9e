/-
What a call of the logistics service does when it runs on its own.

It makes at most one commit.  What it has read is then still the committed version,
so its effect is known exactly: the row it writes and the events it appends to the
outbox.
-/
import Rcp.Logistics.Commit

namespace Rcp
namespace Logistics

open Sql Sql.Table

/-- `assign_task` dispatches the first volunteer for an approved request. -/
def Starts (w : Rows) : Call → Prop
  | .assignTask principal data _ =>
      ∃ request, w.requests data.requestId = some request ∧
        some request.tenantId = principal.tenantId ∧ request.status = .approved ∧
        volunteerError (w.replicas data.volunteerUserId) = none
  | _ => False

/-- The row that `add_inventory_item` adds. -/
def newItem (tenantId : Uuid) (data : InventoryItemCreate) (now : Time) : InventoryItem :=
  { tenantId := tenantId
    categoryId := data.categoryId
    name := data.name
    quantityTotal := data.quantityTotal
    createdAt := now
    updatedAt := now }

/-- Call `a` on its own writes `W` over the rows `w` and emits the events `l`. -/
inductive Effect : Call → Rows → Rows → List (Outbox Message) → Prop
  | submitted {principal : Principal} {data : HelpRequestCreate} {now : Time} {w : Rows}
      {category : ResourceCategory} {status : RequestStatus} {extraFields : Option Object}
      {r o : Nat} {request : HelpRequest} {row : Outbox Message}
      (hcategory : w.categories data.categoryId = some category)
      (htenant : some category.tenantId = principal.tenantId)
      (hstatus : Workflow.initialStatus category.workflow = .ok status)
      (hfits : FitsInteger data.quantityNeeded)
      (hrequest : request =
        newRequest category.tenantId principal data status extraFields now)
      (hr : Above w.requests r) (ho : Above w.outbox o)
      (hrow : row = outboxRow "logistics.request.submitted" principal.tenantId
        (submittedMessage r request) o) :
      Effect (.createRequest principal data now) w
        (.writing noRows (single r request) (single o row)) [row]
  | moved {r o : Nat} {request : HelpRequest} {newStatus : RequestStatus}
      {principal : Principal} {now : Time} {w : Rows} {allowed : List RequestStatus}
      {row : Outbox Message}
      (hallowed : Workflow.allowedNext (w.workflowOf request) request.status = .ok allowed)
      (hnew : newStatus ∈ allowed) (hr : w.requests r = some request)
      (ho : Above w.outbox o)
      (hrow : row = outboxRow "logistics.request.status-changed" (some request.tenantId)
        (statusChangedMessage r request newStatus principal now) o) :
      Effect (.updateStatus r newStatus principal now) w
        (.writing noRows (single r (applyStatus newStatus principal now request))
          (single o row)) [row]
  | started {principal : Principal} {data : DispatchTaskCreate} {now : Time} {w : Rows} {o : Nat}
      {request : HelpRequest} {taskId : Uuid} {category : Option ResourceCategory}
      {assigner : Option UserReplica} {row : Outbox Message}
      (hr : w.requests data.requestId = some request)
      (htenant : some request.tenantId = principal.tenantId)
      (hvolunteer : volunteerError (w.replicas data.volunteerUserId) = none)
      (happroved : request.status = .approved) (ho : Above w.outbox o)
      (hrow : row = outboxRow "logistics.task.assigned" principal.tenantId
        (assignedMessage taskId request data category (w.replicas data.volunteerUserId)
          assigner principal now) o) :
      Effect (.assignTask principal data now) w (.writing noRows
        (single data.requestId { request with status := .inProgress }) (single o row)) [row]
  | joined {principal : Principal} {data : DispatchTaskCreate} {now : Time} {w : Rows} {o : Nat}
      {request : HelpRequest} {taskId : Uuid} {category : Option ResourceCategory}
      {assigner : Option UserReplica} {row : Outbox Message}
      (hr : w.requests data.requestId = some request)
      (htenant : some request.tenantId = principal.tenantId)
      (hvolunteer : volunteerError (w.replicas data.volunteerUserId) = none)
      (hprogress : request.status = .inProgress) (ho : Above w.outbox o)
      (hrow : row = outboxRow "logistics.task.assigned" principal.tenantId
        (assignedMessage taskId request data category (w.replicas data.volunteerUserId)
          assigner principal now) o) :
      Effect (.assignTask principal data now) w (.writing noRows noRows (single o row)) [row]
  | added {tenant : Uuid} {data : InventoryItemCreate} {now : Time} {w : Rows} {k o : Nat}
      {row : Outbox Message} (hk : Above w.items k) (ho : Above w.outbox o)
      (hrow : row = outboxRow "logistics.inventory.item-updated" (some tenant)
        (itemMessage k (newItem tenant data now) now) o) :
      Effect (.addInventoryItem (some tenant) data now) w
        (.writing (single k (newItem tenant data now)) noRows (single o row)) [row]
  | stocked {a : Call} {k o : Nat} {item changed : InventoryItem} {now : Time} {w : Rows}
      {O : Nat → Option (Outbox Message)} {alarm : List (Outbox Message)} {row : Outbox Message}
      (ha : StockCall a k item changed now) (hk : w.items k = some item)
      (halarm : ∀ x ∈ alarm, x.payload.data =
        .lowStock k changed.categoryId changed.name changed.quantityAvailable)
      (hrow : row = outboxRow "logistics.inventory.item-updated" (some item.tenantId)
        (itemMessage k changed item.updatedAt) o)
      (hO : Appended w.outbox (alarm ++ [row]) O) (hids : Numbered O) :
      Effect a w (.writing (single k (stamped item changed now)) noRows O) (alarm ++ [row])

/-- What a call on its own does to the rows. -/
def Result (a : Call) (w w' : Rows) : Prop :=
  (w' = w ∧ ¬ Starts w a) ∨ ∃ W l, Effect a w W l ∧ w' = W.overlay w

/-- The end of call `a`, made on its own over the rows `w`. -/
def Ended (t : Sid) (a : Call) (w : Rows) (_ : Except Error Reply) (s : Db) : Prop :=
  ∃ W w', Solo schema t W w' s ∧ Result a w w'

section Solo

variable {t : Sid} {a : Call} {w W : Rows} {s : Db}

theorem Ended.unchanged {r : Except Error Reply} (h : Solo schema t W w s)
    (ha : ¬ Starts w a) : Ended t a w r s :=
  ⟨W, w, h, .inl ⟨rfl, ha⟩⟩

/-- After the commit only the refreshed row is read. -/
theorem solo_commit_refresh {V : Type} (T : Access Db V) (k : Nat) (f : V → Reply)
    {l : List (Outbox Message)} (h : Solo schema t W w s) (he : Effect a w W l) :
    Meets t (Ended t a w) (Sql.commit >>= fun _ => refresh T k >>= fun v => pure (f v)) s := by
  refine h.commit fun s' hs' => ?_
  have hended : ∀ r, Ended t a w r s' := fun r => ⟨_, _, hs', .inr ⟨W, l, he, rfl⟩⟩
  refine meets_bind ?_
  refine hs'.query ?_
  split
  · exact meets_raise (hended _)
  · exact meets_ret (meets_ret (hended _))

theorem solo_getCategory {γ : Type} {Q : Except Error γ → Db → Prop} {k : Nat}
    {tenantId : Option Uuid} {g : ResourceCategory → Prog Db Error γ}
    (h : Solo schema t .nothing w s) (hraise : ∀ e, Q (.error e) s)
    (hfound : ∀ category, w.categories k = some category →
      some category.tenantId = tenantId → Meets t Q (g category) s) :
    Meets t Q (getCategory tenantId k >>= g) s := by
  refine meets_bind ?_
  refine h.selectKey Column.categories ?_
  have hget : Column.categories.get (schema.overlay .nothing w) k = w.categories k := rfl
  rw [hget]
  cases hk : w.categories k with
  | none => exact meets_raise (hraise _)
  | some category =>
      by_cases htenant : some category.tenantId = tenantId
      · simp only [if_pos htenant]
        exact meets_ret (hfound category hk htenant)
      · simp only [if_neg htenant]
        exact meets_raise (hraise _)

theorem solo_createRequest {validatePayload : Option (List Json) → Option Object →
    Except FormErrors (Option Object)} (principal : Principal) (data : HelpRequestCreate)
    (now : Time) (h : Solo schema t .nothing w s) :
    Meets t (Ended t (.createRequest principal data now) w)
      (createRequest validatePayload principal data now) s := by
  unfold createRequest
  refine solo_getCategory h (fun _ => .unchanged h id) fun category hcategory htenant => ?_
  split
  · exact meets_raise (.unchanged h id)
  · split
    · exact meets_raise (.unchanged h id)
    · rename_i extraFields _
      split
      · exact meets_raise (.unchanged h id)
      · rename_i status hstatus
        split
        · exact meets_raise (.unchanged h id)
        · rename_i hfits
          refine h.insert Column.requests (.free fun _ => trivial) fun r hr _ s₁ h₁ => ?_
          refine h₁.insert Column.outbox (.free fun _ => trivial) fun o ho _ s₂ h₂ => ?_
          exact solo_commit_refresh _ _ _ h₂
            (.submitted hcategory htenant hstatus (not_not.mp hfits) rfl hr ho rfl)

theorem solo_changeStatus {r : Uuid} {request : HelpRequest} (newStatus : RequestStatus)
    (principal : Principal) (now : Time) (h : Solo schema t .nothing w s)
    (hr : w.requests r = some request) :
    Meets t (Ended t (.updateStatus r newStatus principal now) w)
      (changeStatus r request (w.categories request.categoryId) newStatus principal now) s := by
  unfold changeStatus
  split
  · exact meets_raise (.unchanged h id)
  · rename_i allowed hallowed
    split
    · exact meets_raise (.unchanged h id)
    · rename_i hnew
      have hnew' : newStatus ∈ allowed := not_not.mp hnew
      refine h.update Column.requests (.free fun _ => trivial)
        (fun hno => ?_) fun v hv _ s₁ h₁ => ?_
      · have := hno request hr
        cases this
      · have hv' : w.requests r = some v := hv
        rw [hr] at hv'
        cases hv'
        refine h₁.insert Column.outbox (.free fun _ => trivial) fun o ho _ s₂ h₂ => ?_
        exact solo_commit_refresh _ _ _ h₂ (.moved hallowed hnew' hr ho rfl)

theorem solo_updateStatus (r : Uuid) (newStatus : RequestStatus) (principal : Principal)
    (now : Time) (h : Solo schema t .nothing w s) :
    Meets t (Ended t (.updateStatus r newStatus principal now) w)
      (updateStatus r newStatus principal now) s := by
  unfold updateStatus
  refine h.selectKey Column.requests ?_
  have hget : Column.requests.get (schema.overlay .nothing w) r = w.requests r := rfl
  rw [hget]
  cases hr : w.requests r with
  | none => exact meets_raise (.unchanged h id)
  | some request =>
      by_cases htenant : some request.tenantId ≠ principal.tenantId
      · simp only [if_pos htenant]
        exact meets_raise (.unchanged h id)
      · simp only [if_neg htenant]
        refine h.selectKey Column.categories ?_
        exact solo_changeStatus newStatus principal now h hr

theorem solo_startProgress {γ : Type} {Q : Except Error γ → Db → Prop} {r : Nat}
    {request : HelpRequest} {g : Unit → Prog Db Error γ} (h : Solo schema t .nothing w s)
    (hr : w.requests r = some request)
    (hsame : request.status = .inProgress → Meets t Q (g ()) s)
    (hmoved : request.status ≠ .inProgress → ∀ s', Solo schema t (.writing noRows
      (single r { request with status := .inProgress }) noRows) w s' → Meets t Q (g ()) s') :
    Meets t Q (startProgress r request.status >>= g) s := by
  refine meets_bind ?_
  unfold startProgress
  by_cases hst : request.status = .inProgress
  · rw [if_pos hst]
    exact meets_ret (hsame hst)
  · rw [if_neg hst]
    refine h.update Column.requests (.free fun _ => trivial) (fun hno => ?_) fun v hv _ s₁ h₁ => ?_
    · have := hno request hr
      cases this
    · have hv' : w.requests r = some v := hv
      rw [hr] at hv'
      cases hv'
      exact meets_ret (hmoved hst s₁ h₁)

/-- The table of tasks is none of the schema's. -/
theorem quiet_tasks (t : Sid) (s : Db) (T : Table DispatchTask) :
    Quiet schema t s { s with tasks := T } := by
  refine ⟨fun i => ?_, rfl, fun h i => ?_⟩
  · cases i <;> exact Table.Frame.refl t _
  · cases i with
    | categories => exact h .categories
    | replicas => exact h .replicas
    | items => exact h .items
    | requests => exact h .requests
    | outbox => exact h .outbox

/-- The end of `assign_task`, once the request's row is flushed. -/
theorem solo_dispatch {principal : Principal} {data : DispatchTaskCreate} {now : Time}
    {request : HelpRequest} {volunteer : Option UserReplica} {task : Nat → DispatchTask}
    {R : Nat → Option HelpRequest} (h : Solo schema t (.writing noRows R noRows) w s)
    (he : ∀ o taskId category assigner, Above w.outbox o →
      Effect (.assignTask principal data now) w (.writing noRows R
        (single o (outboxRow "logistics.task.assigned" principal.tenantId
          (assignedMessage taskId request data category volunteer assigner principal now) o)))
        [outboxRow "logistics.task.assigned" principal.tenantId
          (assignedMessage taskId request data category volunteer assigner principal now) o]) :
    Meets t (Ended t (.assignTask principal data now) w) (do
      let taskId ← insert Db.tasksT task
      let assigner ← assignerReplica principal data volunteer
      let category ← selectKey Db.categoriesT request.categoryId
      let _ ← emit Db.outboxT "logistics.task.assigned" principal.tenantId
        (assignedMessage taskId request data category volunteer assigner principal now)
      commit
      let task ← refresh Db.tasksT taskId
      return Reply.task taskId task) s := by
  refine h.stmt rfl (quiet_tasks t s _) fun h₁ => ?_
  have h₁' : Solo schema t (.writing noRows R noRows) w _ := ⟨h₁.bounded, h₁.rows, h.writes, h₁.alone⟩
  have hrest : ∀ assigner, Meets t (Ended t (.assignTask principal data now) w) (do
      let category ← selectKey Db.categoriesT request.categoryId
      let _ ← emit Db.outboxT "logistics.task.assigned" principal.tenantId
        (assignedMessage (Db.tasksT.get s).next request data category volunteer assigner
          principal now)
      commit
      let task ← refresh Db.tasksT (Db.tasksT.get s).next
      return Reply.task (Db.tasksT.get s).next task)
      (Db.tasksT.set s ((Db.tasksT.get s).insert t (task (Db.tasksT.get s).next))) := by
    intro assigner
    refine h₁'.selectKey Column.categories ?_
    refine h₁'.insert Column.outbox (.free fun _ => trivial) fun o ho _ s₂ h₂ => ?_
    exact solo_commit_refresh _ _ _ h₂ (he o _ _ _ ho)
  unfold assignerReplica
  split
  · exact hrest volunteer
  · exact h₁'.selectKey Column.replicas (hrest _)

theorem solo_assignTask (principal : Principal) (data : DispatchTaskCreate) (now : Time)
    (h : Solo schema t .nothing w s) :
    Meets t (Ended t (.assignTask principal data now) w) (assignTask principal data now) s := by
  unfold assignTask
  refine h.selectKey Column.requests ?_
  have hget : Column.requests.get (schema.overlay .nothing w) data.requestId =
      w.requests data.requestId := rfl
  rw [hget]
  cases hr : w.requests data.requestId with
  | none =>
      refine meets_raise (.unchanged h ?_)
      rintro ⟨request, hrequest, -⟩
      rw [hr] at hrequest
      cases hrequest
  | some request =>
      -- What a start would need, said of the row that is there.
      have hstarts : Starts w (.assignTask principal data now) →
          some request.tenantId = principal.tenantId ∧ request.status = .approved ∧
            volunteerError (w.replicas data.volunteerUserId) = none := by
        rintro ⟨request', hrequest, hneeds⟩
        rw [hr] at hrequest
        cases hrequest
        exact hneeds
      by_cases htenant : some request.tenantId ≠ principal.tenantId
      · simp only [if_pos htenant]
        exact meets_raise (.unchanged h fun hs => htenant (hstarts hs).1)
      simp only [if_neg htenant]
      by_cases hst : request.status ≠ .approved ∧ request.status ≠ .inProgress
      · simp only [if_pos hst]
        exact meets_raise (.unchanged h fun hs => hst.1 (hstarts hs).2.1)
      simp only [if_neg hst]
      refine h.selectKey Column.replicas ?_
      have hget : Column.replicas.get (schema.overlay .nothing w) data.volunteerUserId =
        w.replicas data.volunteerUserId := rfl
      rw [hget]
      cases hvolunteer : volunteerError (w.replicas data.volunteerUserId) with
      | some text =>
          refine meets_raise (.unchanged h fun hs => ?_)
          have hnone := (hstarts hs).2.2
          rw [hvolunteer] at hnone
          cases hnone
      | none =>
          refine solo_startProgress h hr (fun hin => ?_) fun hmoved s₁ h₁ => ?_
          · exact solo_dispatch h fun o taskId category assigner ho =>
              .joined hr (not_not.mp htenant) hvolunteer hin ho rfl
          · have happroved : request.status = .approved := by
              by_contra hne
              exact hst ⟨hne, hmoved⟩
            exact solo_dispatch h₁ fun o taskId category assigner ho =>
              .started hr (not_not.mp htenant) hvolunteer happroved ho rfl

theorem solo_addInventoryItem (tenantId : Option Uuid) (data : InventoryItemCreate) (now : Time)
    (h : Solo schema t .nothing w s) :
    Meets t (Ended t (.addInventoryItem tenantId data now) w)
      (addInventoryItem tenantId data now) s := by
  unfold addInventoryItem
  split
  · exact meets_raise (.unchanged h id)
  · split
    · exact meets_raise (.unchanged h id)
    · refine h.selectKey Column.categories ?_
      split
      · exact meets_raise (.unchanged h id)
      · refine h.insert Column.items (.free fun _ => trivial) fun k hk _ s₁ h₁ => ?_
        refine h₁.insert Column.outbox (.free fun _ => trivial) fun o ho _ s₂ h₂ => ?_
        exact solo_commit_refresh _ _ _ h₂ (.added hk ho rfl)

theorem solo_lockItem {γ : Type} {Q : Except Error γ → Db → Prop} {k : Nat}
    {tenantId : Option Uuid} {g : Option InventoryItem → Prog Db Error γ}
    (h : Solo schema t .nothing w s) (hnone : Meets t Q (g none) s)
    (hsome : ∀ item, w.items k = some item → some item.tenantId = tenantId → ∀ s',
      Solo schema t (.writing (single k item) noRows noRows) w s' →
        Meets t Q (g (some item)) s') :
    Meets t Q (lockItem tenantId k >>= g) s :=
  h.update Column.items (.free fun _ => trivial) (fun _ => hnone) fun item hitem htenant s' hs' =>
    hsome item hitem (by simpa using htenant) s' hs'

theorem StockCall.not_starts {k : Nat} {item changed : InventoryItem} {now : Time}
    (h : StockCall a k item changed now) : ¬ Starts w a := by
  cases h with
  | reserved => exact id
  | released => exact id

/-- The flush of the stock, the low-stock alarm if there is one, and the end. -/
theorem solo_flushItem {k : Nat} {item changed : InventoryItem} {now : Time}
    {g : Unit → Prog Db Error Reply} (ha : StockCall a k item changed now)
    (h : Solo schema t (.writing (single k item) noRows noRows) w s)
    (hg : ∀ s', Solo schema t (.writing (single k (stamped item changed now)) noRows noRows) w s' →
      Meets t (Ended t a w) (g ()) s') :
    Meets t (Ended t a w) (flushItem k item changed now >>= g) s := by
  refine meets_bind ?_
  unfold flushItem
  by_cases hsame : changed = item
  · rw [if_pos hsame]
    refine meets_ret (hg s ?_)
    have hstamped : stamped item changed now = item := if_pos hsame
    rw [hstamped]
    exact h
  · rw [if_neg hsame]
    split
    · exact meets_raise (.unchanged h ha.not_starts)
    · refine h.update Column.items (.free fun _ => trivial) (fun hno => ?_) fun v hv _ s₁ h₁ => ?_
      · have hself : Column.items.get (schema.overlay (.writing (single k item) noRows noRows) w) k =
            some item := by
          show (single k item k).or _ = _
          rw [single_self]
          rfl
        have := hno item hself
        cases this
      · have hve : v = item := by
          have hv' : (single k item k).or (w.items k) = some v := hv
          rw [single_self] at hv'
          exact (Option.some.inj hv').symm
        subst hve
        refine meets_ret (hg s₁ ?_)
        have hstamped : stamped v changed now = { v with
            quantityReserved := changed.quantityReserved
            status := changed.status
            updatedAt := now } := by
          conv_lhs => rw [stamped, if_neg hsame, ← ha.columns]
        rw [hstamped, ← update_single k v]
        exact h₁

theorem solo_emitLowStock {k : Nat} {item : InventoryItem} {tenantId : Option Uuid}
    {I : Nat → Option InventoryItem} {g : Unit → Prog Db Error Reply}
    (h : Solo schema t (.writing I noRows noRows) w s)
    (hg : ∀ O alarm s', Appended w.outbox alarm O → Numbered O →
      (∀ x ∈ alarm, x.payload.data =
        .lowStock k item.categoryId item.name item.quantityAvailable) →
      Solo schema t (.writing I noRows O) w s' → Meets t (Ended t a w) (g ()) s') :
    Meets t (Ended t a w) (emitLowStock k item tenantId >>= g) s := by
  refine meets_bind ?_
  unfold emitLowStock
  split
  · refine h.insert Column.outbox (.free fun _ => trivial) fun o ho _ s₁ h₁ => ?_
    refine meets_ret (hg _ _ s₁ (.single ho) (.single rfl) (fun x hx => ?_) h₁)
    rw [List.mem_singleton.mp hx]
    rfl
  · exact meets_ret (hg _ _ s .nil .nothing (fun x hx => by cases hx) h)

/-- The item-updated event and the end of both stock calls. -/
theorem solo_stocked {k : Nat} {item changed : InventoryItem} {now : Time}
    {O : Nat → Option (Outbox Message)} {alarm : List (Outbox Message)}
    (ha : StockCall a k item changed now) (hk : w.items k = some item)
    (hO : Appended w.outbox alarm O) (hids : Numbered O)
    (halarm : ∀ x ∈ alarm, x.payload.data =
      .lowStock k changed.categoryId changed.name changed.quantityAvailable)
    (h : Solo schema t (.writing (single k (stamped item changed now)) noRows O) w s) :
    Meets t (Ended t a w) (do
      let _ ← emit Db.outboxT "logistics.inventory.item-updated" (some item.tenantId)
        (itemMessage k changed item.updatedAt)
      commit
      let item ← refresh Db.itemsT k
      return Reply.item k item) s := by
  refine h.insert Column.outbox (.free fun _ => trivial) fun o ho ho' s₁ h₁ => ?_
  exact solo_commit_refresh _ _ _ h₁
    (.stocked ha hk halarm rfl (hO.snoc ho ho') (hids.update rfl))

theorem solo_reserveStock (principal : Principal) (k : Uuid) (quantity : Int) (now : Time)
    (h : Solo schema t .nothing w s) :
    Meets t (Ended t (.reserveStock principal k quantity now) w)
      (reserveStock principal k quantity now) s := by
  unfold reserveStock
  refine solo_lockItem h (meets_raise (.unchanged h id)) fun item hk htenant s₁ h₁ => ?_
  rw [← htenant]
  by_cases hless : item.quantityAvailable < quantity
  · simp only [if_pos hless]
    exact meets_raise (.unchanged h₁ id)
  · simp only [if_neg hless]
    have ha : StockCall (.reserveStock principal k quantity now) k item
        (reserveItem quantity item) now := .reserved (Int.not_lt.mp hless)
    refine solo_flushItem ha h₁ fun s₂ h₂ => ?_
    refine solo_emitLowStock h₂ fun O alarm s₃ hO hids halarm h₃ => ?_
    exact solo_stocked ha hk hO hids halarm h₃

theorem solo_releaseStock (tenantId : Option Uuid) (k : Uuid) (quantity : Int) (now : Time)
    (h : Solo schema t .nothing w s) :
    Meets t (Ended t (.releaseStock tenantId k quantity now) w)
      (releaseStock tenantId k quantity now) s := by
  unfold releaseStock
  refine solo_lockItem h (meets_raise (.unchanged h id)) fun item hk htenant s₁ h₁ => ?_
  rw [← htenant]
  refine solo_flushItem .released h₁ fun s₂ h₂ => ?_
  exact solo_stocked .released hk .nil .nothing (fun x hx => by cases hx) h₂

end Solo

/-- Every call made on its own makes at most one commit. -/
theorem leads (validatePayload : Option (List Json) → Option Object →
    Except FormErrors (Option Object)) : Leads schema (Call.body validatePayload) Result := by
  intro a t w s hs
  have h := hs.solo t
  cases a with
  | createRequest principal data now => exact solo_createRequest principal data now h
  | updateStatus r newStatus principal now => exact solo_updateStatus r newStatus principal now h
  | assignTask principal data now => exact solo_assignTask principal data now h
  | addInventoryItem tenantId data now => exact solo_addInventoryItem tenantId data now h
  | reserveStock principal k quantity now => exact solo_reserveStock principal k quantity now h
  | releaseStock tenantId k quantity now => exact solo_releaseStock tenantId k quantity now h

/-! ## The events of a call -/

section Events

variable {a : Call} {w w' W : Rows} {l : List (Outbox Message)}

theorem Effect.appended (h : Effect a w W l) : Appended w.outbox l W.outbox := by
  cases h with
  | submitted hcategory htenant hstatus hfits hrequest hr ho hrow => exact .single ho
  | moved hallowed hnew hr ho hrow => exact .single ho
  | started hr htenant hvolunteer happroved ho hrow => exact .single ho
  | joined hr htenant hvolunteer hprogress ho hrow => exact .single ho
  | added hk ho hrow => exact .single ho
  | stocked ha hk halarm hrow hO hids => exact hO

theorem Effect.numbered (h : Effect a w W l) : Numbered W.outbox := by
  cases h with
  | submitted hcategory htenant hstatus hfits hrequest hr ho hrow => exact .single (hrow ▸ rfl)
  | moved hallowed hnew hr ho hrow => exact .single (hrow ▸ rfl)
  | started hr htenant hvolunteer happroved ho hrow => exact .single (hrow ▸ rfl)
  | joined hr htenant hvolunteer hprogress ho hrow => exact .single (hrow ▸ rfl)
  | added hk ho hrow => exact .single (hrow ▸ rfl)
  | stocked ha hk halarm hrow hO hids => exact hids

/-- The events of a call stand after those of the calls before it. -/
theorem Result.events {s s' : Db} (hs : Rested schema w s) (hs' : Rested schema w' s')
    (h : Result a w w') : ∃ l, s'.outbox.values = s.outbox.values ++ l ∧
      ((l = [] ∧ w' = w ∧ ¬ Starts w a) ∨ ∃ W, Effect a w W l ∧ w' = W.overlay w) := by
  rcases h with ⟨rfl, hnot⟩ | ⟨W, l, he, hw'⟩
  · refine ⟨[], ?_, .inl ⟨rfl, rfl, hnot⟩⟩
    rw [List.append_nil]
    exact hs.values_eq Column.outbox hs'
  · exact ⟨l, hs.values_append Column.outbox hs' hw' he.appended, .inr ⟨W, he, hw'⟩⟩

end Events

end Logistics
end Rcp
