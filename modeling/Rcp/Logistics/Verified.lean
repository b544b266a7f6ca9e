/-
Every call of the logistics service keeps the discipline, under any interleaving.

A request row is checked when it is read and written later without a lock in
between.  `Undisturbed` says of the step that commits such a write that the status
is still the one that was read.
-/
import Rcp.Logistics.Sequential

namespace Rcp
namespace Logistics

open Sql Sql.Table

/-! ## How the rows evolve -/

/-- What every commit leaves as it is. -/
structure Evolves (w w' : Rows) : Prop where
  categories : w'.categories = w.categories
  replicas : w'.replicas = w.replicas
  requests : ∀ r request, w.requests r = some request → ∃ request',
    w'.requests r = some request' ∧ request'.categoryId = request.categoryId ∧
      request'.tenantId = request.tenantId

section Evolves

variable {strict : Prop} {a : Call} {w w' w'' W : Rows}

theorem Evolves.refl (w : Rows) : Evolves w w where
  categories := rfl
  replicas := rfl
  requests := fun _ request h => ⟨request, h, rfl, rfl⟩

theorem Evolves.trans (h : Evolves w w') (h' : Evolves w' w'') : Evolves w w'' where
  categories := h'.categories.trans h.categories
  replicas := h'.replicas.trans h.replicas
  requests := by
    intro r request hr
    obtain ⟨request', hr', hcategory, htenant⟩ := h.requests r request hr
    obtain ⟨request'', hr'', hcategory', htenant'⟩ := h'.requests r request' hr'
    exact ⟨request'', hr'', hcategory'.trans hcategory, htenant'.trans htenant⟩

/-- A commit that writes no request. -/
theorem Evolves.aside (I : Nat → Option InventoryItem) (O : Nat → Option (Outbox Message)) :
    Evolves w ((Rows.writing I noRows O).overlay w) where
  categories := rfl
  replicas := rfl
  requests := fun _ request h => ⟨request, h, rfl, rfl⟩

/-- A commit that writes request `r`. -/
theorem Evolves.single {r : Nat} {request : HelpRequest} {O : Nat → Option (Outbox Message)}
    (hold : ∀ old, w.requests r = some old →
      request.categoryId = old.categoryId ∧ request.tenantId = old.tenantId) :
    Evolves w ((Rows.writing noRows (single r request) O).overlay w) where
  categories := rfl
  replicas := rfl
  requests := by
    intro r' old hr'
    show ∃ request', (Table.single r request r').or (w.requests r') = _ ∧ _
    by_cases hne : r' = r
    · subst hne
      obtain ⟨hcategory, htenant⟩ := hold old hr'
      exact ⟨request, by simp [single_self], hcategory, htenant⟩
    · exact ⟨old, by simp [single_of_ne request hne, hr'], rfl, rfl⟩

theorem Commit.evolves (h : Commit strict a w W) : Evolves w (W.overlay w) := by
  cases h with
  | submitted hcategory hstatus hr ho =>
      refine .single fun old hold => ?_
      rw [hr] at hold
      cases hold
  | moved hallowed hnew hr hcategory hstrict ho =>
      refine .single fun old hold => ?_
      rw [hr] at hold
      cases hold
      exact ⟨applyStatus_categoryId .., applyStatus_tenantId ..⟩
  | started hr htenant hvolunteer hstrict ho hrow =>
      refine .single fun old hold => ?_
      rw [hr] at hold
      cases hold
      exact ⟨rfl, rfl⟩
  | joined => exact .aside ..
  | added => exact .aside ..
  | stocked => exact .aside ..

theorem drift_evolves (h : Drift schema (policy strict) W w w') : Evolves w w' :=
  h.lift (.refl w) fun _ _ _ _ hc _ hw => hw.trans hc.evolves

end Evolves

/-! ## Undisturbed steps -/

/-- The events about request `r` in the outbox. -/
def Db.about (s : Db) (r : Uuid) : List Nat :=
  (s.outbox.rows.filter fun x => x.2.payload.data.request? == some r).map Prod.fst

theorem mem_about {s : Db} (hb : s.outbox.Bounded) {r : Uuid} {o : Nat} :
    o ∈ s.about r ↔
      ∃ row, s.rows.outbox o = some row ∧ row.payload.data.request? = some r := by
  simp only [Db.about, List.mem_map, List.mem_filter, Prod.exists, exists_and_right,
    exists_eq_right, mem_rows hb, beq_iff_eq]
  rfl

/-- The request whose status a call checks and writes. -/
def Call.request? : Call → Option Uuid
  | updateStatus requestId .. => some requestId
  | assignTask _ data _ => some data.requestId
  | _ => none

def Db.statusOf (s : Db) (r : Uuid) : Option RequestStatus :=
  (s.requests.committed r).map HelpRequest.status

/-- A step that publishes an event about the call's request finds it in the status it was
in when the call read it, which is the call's first statement. -/
def Undisturbed (a : Call) (s₀ s s' : Db) : Prop :=
  match a.request? with
  | none => True
  | some r => s'.about r ≠ s.about r → s.statusOf r = s₀.statusOf r

instance (a : Call) (s₀ s s' : Db) : Decidable (Undisturbed a s₀ s s') := by
  unfold Undisturbed
  split <;> infer_instance

/-- The request that a call has read has still the same status when the call commits. -/
theorem Undisturbed.unchanged {strict : Prop} {a : Call} {t : Sid} {s z : Db} {W : Rows}
    {r : Uuid} (h : Undisturbed a s z (Transactional.commit t z)) (ha : a.request? = some r)
    (hz : Holding schema (policy strict) t W z) {o : Nat} {row : Outbox Message}
    (ho : W.outbox o = some row) (hnew : z.rows.outbox o = none)
    (hrow : row.payload.data.request? = some r) {loaded current : HelpRequest}
    (hs : s.rows.requests r = some loaded) (hz' : z.rows.requests r = some current) :
    current.status = loaded.status := by
  simp only [Undisturbed, ha] at h
  have hrows : (Transactional.commit t z).rows = W.overlay z.rows := by
    have hcommit := schema.commit_rows t z
    rw [hz.writes] at hcommit
    exact hcommit
  have hpublished : o ∈ (Transactional.commit t z).about r := by
    refine (mem_about (schema.commit_bounded t z hz.bounded .outbox).1).mpr ⟨row, ?_, hrow⟩
    rw [hrows]
    simp [Rows.overlay, ho]
  have hstatus : z.statusOf r = s.statusOf r := by
    refine h fun heq => ?_
    rw [heq] at hpublished
    obtain ⟨row', ho', -⟩ := (mem_about (hz.bounded .outbox).1).mp hpublished
    rw [hnew] at ho'
    cases ho'
  have hs' : s.requests.committed r = some loaded := hs
  have hz'' : z.requests.committed r = some current := hz'
  unfold Db.statusOf at hstatus
  rw [hs', hz''] at hstatus
  exact Option.some.inj hstatus

/-! ## The calls -/

section Safe

variable {strict : Prop} {adm : Db → Db → Prop} {a : Call} {t : Sid} {s : Db} {W w : Rows}

abbrev discipline (strict : Prop) : Discipline Db Error Reply Call :=
  schema.discipline (policy strict) (.nothing schema (policy strict))

theorem resumed_evolves {u : Db} (h : Resumed schema (policy strict) t W (schema.rows s) u) :
    Evolves s.rows u.rows :=
  drift_evolves h.drift

/-- After the commit only the refreshed row is read. -/
theorem safe_commit_refresh {V : Type} (T : Access Db V) (k : Nat) (f : V → Reply)
    (hs : Holding schema (policy strict) t W s)
    (hc : adm s (Transactional.commit t s) → Commit strict a s.rows W) :
    Safe (discipline strict) adm a t Ends
      (Sql.commit >>= fun _ => refresh T k >>= fun v => pure (f v)) s := by
  refine safe_commit (policy_lawful strict) hs (fun hadm => .inl (hc hadm)) fun u hu => ?_
  refine safe_bind (R := fun _ _ => True) ?_ fun _ _ _ => trivial
  refine safe_query hu.toHolding fun v _ => ?_
  split
  · trivial
  · trivial

theorem safe_getCategory {γ : Type} {tenantId : Option Uuid} {k : Uuid}
    {g : ResourceCategory → Prog Db Error γ} (hs : Holding schema (policy strict) t .nothing s)
    (hg : ∀ category u, Resumed schema (policy strict) t .nothing s.rows u →
      u.rows.categories k = some category → Safe (discipline strict) adm a t Ends (g category) u) :
    Safe (discipline strict) adm a t Ends (getCategory tenantId k >>= g) s := by
  refine safe_bind (R := fun category u => Resumed schema (policy strict) t .nothing s.rows u ∧
    u.rows.categories k = some category) ?_ fun category u hu => hg category u hu.1 hu.2
  refine safe_selectKey Column.categories hs fun u hu => ?_
  have hget : Column.categories.get (schema.overlay .nothing (schema.rows s)) k =
      s.rows.categories k := rfl
  rw [hget]
  cases hk : s.rows.categories k with
  | none => trivial
  | some category =>
      by_cases htenant : some category.tenantId = tenantId
      · simp only [if_pos htenant]
        refine ⟨hu, ?_⟩
        rw [(resumed_evolves hu).categories]
        exact hk
      · simp only [if_neg htenant]
        trivial

theorem safe_createRequest {validatePayload : Option (List Json) → Option Object →
    Except FormErrors (Option Object)} (principal : Principal) (data : HelpRequestCreate)
    (now : Time) (hs : Holding schema (policy strict) t .nothing s) :
    Safe (discipline strict) adm (.createRequest principal data now) t Ends
      (createRequest validatePayload principal data now) s := by
  unfold createRequest
  refine safe_getCategory hs fun category u hu hcategory => ?_
  split
  · trivial
  · split
    · trivial
    · split
      · trivial
      · rename_i status hstatus
        split
        · trivial
        · refine safe_insert Column.requests hu.toHolding (.free fun _ => trivial)
            fun r hr _ s₁ h₁ => ?_
          refine safe_insert Column.outbox h₁.toHolding (.free fun _ => trivial)
            fun o ho _ s₂ h₂ => ?_
          have hr₁ : s₁.rows.requests r = none :=
            h₁.locked Column.requests (k := r) (single_self _ _) hr
          have hr₂ : s₂.rows.requests r = none :=
            h₂.locked Column.requests (k := r) (single_self _ _) hr₁
          have ho₂ : s₂.rows.outbox o = none :=
            h₂.locked Column.outbox (k := o) (single_self _ _) ho
          have hev := (resumed_evolves h₁).trans (resumed_evolves h₂)
          refine safe_commit_refresh _ _ _ h₂.toHolding fun _ => .submitted ?_ hstatus hr₂ ho₂
          rw [hev.categories]
          exact hcategory

theorem safe_updateStatus (r : Uuid) (newStatus : RequestStatus) (principal : Principal)
    (now : Time) (hs : Holding schema (policy strict) t .nothing s)
    (hadm : strict → ∀ u v, adm u v → Undisturbed (.updateStatus r newStatus principal now) s u v) :
    Safe (discipline strict) adm (.updateStatus r newStatus principal now) t Ends
      (updateStatus r newStatus principal now) s := by
  unfold updateStatus
  refine safe_selectKey Column.requests hs fun s₁ h₁ => ?_
  have hget : Column.requests.get (schema.overlay .nothing (schema.rows s)) r =
      s.rows.requests r := rfl
  rw [hget]
  cases hr : s.rows.requests r with
  | none => trivial
  | some loaded =>
      by_cases htenant : some loaded.tenantId ≠ principal.tenantId
      · simp only [if_pos htenant]
        trivial
      simp only [if_neg htenant]
      refine safe_selectKey Column.categories h₁.toHolding fun s₂ h₂ => ?_
      have hev₂ := (resumed_evolves h₁).trans (resumed_evolves h₂)
      obtain ⟨current, hcurrent, -⟩ := hev₂.requests r loaded hr
      show Safe _ adm _ t Ends (changeStatus r loaded (s₁.rows.categories loaded.categoryId)
        newStatus principal now) s₂
      unfold changeStatus
      split
      · trivial
      · rename_i allowed hallowed
        split
        · trivial
        · rename_i hnew
          refine safe_update Column.requests h₂.toHolding (.free fun _ => trivial)
            (fun hno => ?_) fun row hrow _ s₃ h₃ => ?_
          · have := hno current hcurrent
            cases this
          · refine safe_insert Column.outbox h₃.toHolding (.free fun _ => trivial)
              fun o ho _ s₄ h₄ => ?_
            have hev₃ := resumed_evolves h₃
            have hev₄ := resumed_evolves h₄
            have hev := hev₂.trans (hev₃.trans hev₄)
            have hrow₃ : s₃.rows.requests r = some row :=
              h₃.locked Column.requests (k := r) (single_self _ _) hrow
            have hrow₄ : s₄.rows.requests r = some row :=
              h₄.locked Column.requests (k := r) (single_self _ _) hrow₃
            have ho₄ : s₄.rows.outbox o = none :=
              h₄.locked Column.outbox (k := o) (single_self _ _) ho
            obtain ⟨row', hrow', hcategory, -⟩ := hev.requests r loaded hr
            rw [hrow₄] at hrow'
            cases hrow'
            have hworkflow : s₄.rows.workflowOf loaded = s₁.rows.workflowOf loaded := by
              unfold Rows.workflowOf
              rw [((resumed_evolves h₂).trans (hev₃.trans hev₄)).categories]
            refine safe_commit_refresh _ _ _ h₄.toHolding fun had =>
              .moved (hworkflow ▸ hallowed) (not_not.mp hnew) hrow₄ hcategory (fun hstrict => ?_) ho₄
            exact (hadm hstrict _ _ had).unchanged rfl h₄.toHolding (o := o) (single_self _ _)
              ho₄ rfl hr hrow₄

/-- The end of `assign_task`, once the request's row is flushed. -/
theorem safe_dispatch {principal : Principal} {data : DispatchTaskCreate} {now : Time}
    {request : HelpRequest} {volunteer : Option UserReplica} {task : Nat → DispatchTask}
    {R : Nat → Option HelpRequest}
    (hs : Holding schema (policy strict) t (.writing noRows R noRows) s)
    (hc : ∀ o row z, Holding schema (policy strict) t (.writing noRows R (single o row)) z →
      Evolves s.rows z.rows → (∀ r v, R r = some v → z.rows.requests r = s.rows.requests r) →
      z.rows.outbox o = none → row.payload.data.request? = some data.requestId →
      (∀ r, row.payload.data.statusChange? r = none) → adm z (Transactional.commit t z) →
      Commit strict (.assignTask principal data now) z.rows
        (.writing noRows R (single o row))) :
    Safe (discipline strict) adm (.assignTask principal data now) t Ends (do
      let taskId ← insert Db.tasksT task
      let assigner ← assignerReplica principal data volunteer
      let category ← selectKey Db.categoriesT request.categoryId
      let _ ← emit Db.outboxT "logistics.task.assigned" principal.tenantId
        (assignedMessage taskId request data category volunteer assigner principal now)
      commit
      let task ← refresh Db.tasksT taskId
      return Reply.task taskId task) s := by
  refine safe_quiet hs.inv fun taskId s' hrun => ?_
  cases hrun
  refine ⟨quiet_tasks t s _, fun u hu => ?_⟩
  have hu' : Resumed schema (policy strict) t (.writing noRows R noRows) (schema.rows s) u := by
    rw [← hs.writes]
    exact hu
  have hrest : ∀ taskId assigner v,
      Resumed schema (policy strict) t (.writing noRows R noRows) (schema.rows s) v →
      Safe (discipline strict) adm (.assignTask principal data now) t Ends (do
        let category ← selectKey Db.categoriesT request.categoryId
        let _ ← emit Db.outboxT "logistics.task.assigned" principal.tenantId
          (assignedMessage taskId request data category volunteer assigner principal now)
        commit
        let task ← refresh Db.tasksT taskId
        return Reply.task taskId task) v := by
    intro taskId assigner v hv
    refine safe_selectKey Column.categories hv.toHolding fun v₁ h₁ => ?_
    refine safe_insert Column.outbox h₁.toHolding (.free fun _ => trivial) fun o ho _ z hz => ?_
    refine safe_commit_refresh _ _ _ hz.toHolding fun had => ?_
    have hv₁ := hv.trans h₁
    have ho' : z.rows.outbox o = none := hz.locked Column.outbox (k := o) (single_self _ _) ho
    refine hc o _ z hz.toHolding ((resumed_evolves hv₁).trans (resumed_evolves hz)) ?_ ho' rfl
      (fun _ => rfl) had
    intro r row hR
    have hlocked : v₁.rows.requests r = s.rows.requests r :=
      hv₁.locked Column.requests (k := r) hR rfl
    exact hz.locked Column.requests (k := r) hR hlocked
  unfold assignerReplica
  split
  · exact hrest _ _ u hu'
  · exact safe_selectKey Column.replicas hu'.toHolding fun v hv => hrest _ _ v (hu'.trans hv)

theorem safe_assignTask (principal : Principal) (data : DispatchTaskCreate) (now : Time)
    (hs : Holding schema (policy strict) t .nothing s)
    (hadm : strict → ∀ u v, adm u v → Undisturbed (.assignTask principal data now) s u v) :
    Safe (discipline strict) adm (.assignTask principal data now) t Ends
      (assignTask principal data now) s := by
  unfold assignTask
  refine safe_selectKey Column.requests hs fun s₁ h₁ => ?_
  have hget : Column.requests.get (schema.overlay .nothing (schema.rows s)) data.requestId =
      s.rows.requests data.requestId := rfl
  rw [hget]
  cases hr : s.rows.requests data.requestId with
  | none => trivial
  | some loaded =>
      by_cases htenant : some loaded.tenantId ≠ principal.tenantId
      · simp only [if_pos htenant]
        trivial
      simp only [if_neg htenant]
      by_cases hst : loaded.status ≠ .approved ∧ loaded.status ≠ .inProgress
      · simp only [if_pos hst]
        trivial
      simp only [if_neg hst]
      refine safe_selectKey Column.replicas h₁.toHolding fun s₂ h₂ => ?_
      have hget : Column.replicas.get (schema.overlay .nothing (schema.rows s₁))
        data.volunteerUserId = s₁.rows.replicas data.volunteerUserId := rfl
      rw [hget]
      cases hvolunteer : volunteerError (s₁.rows.replicas data.volunteerUserId) with
      | some text => trivial
      | none =>
          have hev₁ := resumed_evolves h₁
          have hev₂ := resumed_evolves h₂
          unfold startProgress
          by_cases hin : loaded.status = .inProgress
          · rw [if_pos hin]
            refine safe_dispatch h₂.toHolding fun o row z hz hev _ ho hrow hnone had => ?_
            obtain ⟨current, hcurrent, -⟩ :=
              (hev₁.trans (hev₂.trans hev)).requests _ loaded hr
            refine .joined hcurrent (fun hs' => ?_) ho hrow hnone
            have hsame := (hadm hs' _ _ had).unchanged rfl hz (o := o) (single_self _ _) ho hrow
              hr hcurrent
            exact hsame.trans hin
          · rw [if_neg hin]
            have happroved : loaded.status = .approved := by
              by_contra hne
              exact hst ⟨hne, hin⟩
            obtain ⟨current, hcurrent, -⟩ := (hev₁.trans hev₂).requests _ loaded hr
            refine safe_update Column.requests h₂.toHolding (.free fun _ => trivial) (fun hno => ?_)
              fun row hrow _ s₃ h₃ => ?_
            · have := hno current hcurrent
              cases this
            have hrow₃ : s₃.rows.requests data.requestId = some row :=
              h₃.locked Column.requests (k := data.requestId) (single_self _ _) hrow
            have hev₃ := resumed_evolves h₃
            refine safe_dispatch h₃.toHolding fun o out z hz hev hkeep ho hout hnone had => ?_
            have hrow' : z.rows.requests data.requestId = some row := by
              rw [hkeep data.requestId _ (single_self _ _)]
              exact hrow₃
            have hall := hev₁.trans (hev₂.trans (hev₃.trans hev))
            obtain ⟨found, hfound, -, htenant'⟩ := hall.requests _ loaded hr
            rw [hrow'] at hfound
            cases hfound
            refine .started hrow' ?_ ?_ (fun hs' => ?_) ho hout hnone
            · rw [htenant']
              exact not_not.mp htenant
            · rw [(hev₂.trans (hev₃.trans hev)).replicas]
              exact hvolunteer
            · have hsame := (hadm hs' _ _ had).unchanged rfl hz (o := o) (single_self _ _) ho hout
                hr hrow'
              exact hsame.trans happroved

/-! ### Stock -/

theorem Reported.keep {k : Nat} {item : InventoryItem} {O : Nat → Option (Outbox Message)}
    {w' : Rows} (h : Reported w k item O)
    (hkeep : ∀ o row, O o = some row → w'.outbox o = w.outbox o) : Reported w' k item O := by
  intro o row ho
  obtain ⟨hnone, hreports⟩ := h o row ho
  exact ⟨(hkeep o row ho).trans hnone, hreports⟩

theorem safe_addInventoryItem (tenantId : Option Uuid) (data : InventoryItemCreate) (now : Time)
    (hs : Holding schema (policy strict) t .nothing s) :
    Safe (discipline strict) adm (.addInventoryItem tenantId data now) t Ends
      (addInventoryItem tenantId data now) s := by
  unfold addInventoryItem
  split
  · trivial
  · split
    · trivial
    · refine safe_selectKey Column.categories hs fun s₁ h₁ => ?_
      split
      · trivial
      · refine safe_insert Column.items h₁.toHolding (.free fun _ => trivial) fun k hk _ s₂ h₂ => ?_
        refine safe_insert Column.outbox h₂.toHolding (.free fun _ => trivial)
          fun o ho _ s₃ h₃ => ?_
        have hk₂ : s₂.rows.items k = none := h₂.locked Column.items (k := k) (single_self _ _) hk
        have hk₃ : s₃.rows.items k = none := h₃.locked Column.items (k := k) (single_self _ _) hk₂
        have ho₃ : s₃.rows.outbox o = none :=
          h₃.locked Column.outbox (k := o) (single_self _ _) ho
        refine safe_commit_refresh _ _ _ h₃.toHolding fun _ => .added rfl rfl hk₃ ?_
        exact (reported_nothing s₃.rows k _).emit ho₃ (itemMessage_reports k _ now) _ _

theorem safe_lockItem {γ : Type} {k : Nat} {tenantId : Option Uuid}
    {g : Option InventoryItem → Prog Db Error γ}
    (hs : Holding schema (policy strict) t .nothing s)
    (hnone : ∀ u, Safe (discipline strict) adm a t Ends (g none) u)
    (hsome : ∀ item u, Holding schema (policy strict) t
      (.writing (single k item) noRows noRows) u → u.rows.items k = some item →
        Safe (discipline strict) adm a t Ends (g (some item)) u) :
    Safe (discipline strict) adm a t Ends (lockItem tenantId k >>= g) s := by
  refine safe_update Column.items hs (.free fun _ => trivial)
    (fun _ u _ => hnone u) fun item hitem _ u hu => ?_
  exact hsome item u hu.toHolding (hu.locked Column.items (k := k) (single_self _ _) hitem)

/-- The flush of the stock. -/
theorem safe_flushItem {k : Nat} {item changed : InventoryItem} {now : Time}
    {g : Unit → Prog Db Error Reply} (ha : StockCall a k item changed now)
    (hs : Holding schema (policy strict) t (.writing (single k item) noRows noRows) s)
    (hk : s.rows.items k = some item)
    (hg : ∀ u, Holding schema (policy strict) t
      (.writing (single k (stamped item changed now)) noRows noRows) u →
        u.rows.items k = some item → Safe (discipline strict) adm a t Ends (g ()) u) :
    Safe (discipline strict) adm a t Ends (flushItem k item changed now >>= g) s := by
  unfold flushItem
  by_cases hsame : changed = item
  · rw [if_pos hsame]
    have hstamped : stamped item changed now = item := if_pos hsame
    rw [hstamped] at hg
    exact hg s hs hk
  · rw [if_neg hsame]
    split
    · trivial
    · refine safe_update Column.items hs (.free fun _ => trivial)
        (fun hno => ?_) fun v hv _ u hu => ?_
      · have hself : Column.items.get (schema.overlay (.writing (single k item) noRows noRows)
            (schema.rows s)) k = some item := by
          show (single k item k).or _ = _
          rw [single_self]
          rfl
        have := hno item hself
        cases this
      · have hve : v = item := by
          have hv' : (single k item k).or (s.rows.items k) = some v := hv
          rw [single_self] at hv'
          exact (Option.some.inj hv').symm
        subst hve
        have hstamped : stamped v changed now = { v with
            quantityReserved := changed.quantityReserved
            status := changed.status
            updatedAt := now } := by
          conv_lhs => rw [stamped, if_neg hsame, ← ha.columns]
        have hu' : Resumed schema (policy strict) t (.writing (Function.update (single k v) k
          (some (stamped v changed now))) noRows noRows) (schema.rows s) u := hstamped ▸ hu
        rw [update_single] at hu'
        exact hg u hu'.toHolding (hu'.locked Column.items (k := k) (single_self _ _) hk)

theorem safe_emitLowStock {k : Nat} {item changed v : InventoryItem} {tenantId : Option Uuid}
    {g : Unit → Prog Db Error Reply}
    (hs : Holding schema (policy strict) t (.writing (single k v) noRows noRows) s)
    (hk : s.rows.items k = some item)
    (hg : ∀ O u, Holding schema (policy strict) t (.writing (single k v) noRows O) u →
      u.rows.items k = some item → Reported u.rows k changed O →
        Safe (discipline strict) adm a t Ends (g ()) u) :
    Safe (discipline strict) adm a t Ends (emitLowStock k changed tenantId >>= g) s := by
  unfold emitLowStock
  split
  · refine safe_insert Column.outbox hs (.free fun _ => trivial) fun o ho _ u hu => ?_
    have hm : (Message.lowStock k changed.categoryId changed.name
      changed.quantityAvailable).Reports k changed := ⟨rfl, rfl⟩
    have ho' : u.rows.outbox o = none := hu.locked Column.outbox (k := o) (single_self _ _) ho
    exact hg _ u hu.toHolding (hu.locked Column.items (k := k) (single_self _ _) hk)
      ((reported_nothing u.rows k changed).emit ho' hm _ _)
  · exact hg _ s hs hk (reported_nothing s.rows k changed)

/-- The item-updated event and the end of both stock calls. -/
theorem safe_stocked {k : Nat} {item changed : InventoryItem} {now updatedAt : Time}
    {tenantId : Option Uuid} {O : Nat → Option (Outbox Message)}
    (ha : StockCall a k item changed now)
    (hs : Holding schema (policy strict) t
      (.writing (single k (stamped item changed now)) noRows O) s)
    (hk : s.rows.items k = some item) (hO : Reported s.rows k changed O) :
    Safe (discipline strict) adm a t Ends (do
      let _ ← emit Db.outboxT "logistics.inventory.item-updated" tenantId
        (itemMessage k changed updatedAt)
      commit
      let item ← refresh Db.itemsT k
      return Reply.item k item) s := by
  refine safe_insert Column.outbox hs (.free fun _ => trivial) fun o ho hnew u hu => ?_
  have hk' : u.rows.items k = some item :=
    hu.locked Column.items (k := k) (single_self _ _) hk
  have ho' : u.rows.outbox o = none :=
    hu.locked Column.outbox (k := o) (Function.update_self ..) ho
  have hO' : Reported u.rows k changed O := by
    refine hO.keep fun o₁ row h₁ => ?_
    have hne : o₁ ≠ o := by
      rintro rfl
      have hnone : O o₁ = none := hnew
      rw [h₁] at hnone
      cases hnone
    exact hu.locked Column.outbox (k := o₁) ((Function.update_of_ne hne ..).trans h₁) rfl
  refine safe_commit_refresh _ _ _ hu.toHolding fun _ => .stocked ha hk' ?_
  exact hO'.emit ho' (itemMessage_reports k changed updatedAt) _ _

theorem safe_reserveStock (principal : Principal) (k : Uuid) (quantity : Int) (now : Time)
    (hs : Holding schema (policy strict) t .nothing s) :
    Safe (discipline strict) adm (.reserveStock principal k quantity now) t Ends
      (reserveStock principal k quantity now) s := by
  unfold reserveStock
  refine safe_lockItem hs (fun _ => trivial) fun item s₁ h₁ hk₁ => ?_
  by_cases hless : item.quantityAvailable < quantity
  · simp only [if_pos hless]
    trivial
  · simp only [if_neg hless]
    have ha : StockCall (.reserveStock principal k quantity now) k item
        (reserveItem quantity item) now := .reserved (Int.not_lt.mp hless)
    refine safe_flushItem ha h₁ hk₁ fun s₂ h₂ hk₂ => ?_
    refine safe_emitLowStock h₂ hk₂ fun O s₃ h₃ hk₃ hO => ?_
    exact safe_stocked ha h₃ hk₃ hO

theorem safe_releaseStock (tenantId : Option Uuid) (k : Uuid) (quantity : Int) (now : Time)
    (hs : Holding schema (policy strict) t .nothing s) :
    Safe (discipline strict) adm (.releaseStock tenantId k quantity now) t Ends
      (releaseStock tenantId k quantity now) s := by
  unfold releaseStock
  refine safe_lockItem hs (fun _ => trivial) fun item s₁ h₁ hk₁ => ?_
  refine safe_flushItem .released h₁ hk₁ fun s₂ h₂ hk₂ => ?_
  exact safe_stocked .released h₂ hk₂ (reported_nothing s₂.rows k _)

end Safe

/-- The calls keep the discipline, the strict one if no call is disturbed. -/
theorem verified (strict : Prop) {adm : Call → Db → Db → Db → Prop}
    (validatePayload : Option (List Json) → Option Object → Except FormErrors (Option Object))
    (hadm : strict → ∀ a s₀ s s', adm a s₀ s s' → Undisturbed a s₀ s s') :
    (discipline strict).Verified adm (Call.body validatePayload) := by
  intro a t s hi hidle
  have hs : Holding schema (policy strict) t .nothing s := ⟨hi.1, hi.2, hidle⟩
  show Safe (discipline strict) _ a t Ends _ s
  cases a with
  | createRequest principal data now => exact safe_createRequest principal data now hs
  | updateStatus r newStatus principal now =>
      exact safe_updateStatus r newStatus principal now hs fun h u v => hadm h _ s u v
  | assignTask principal data now =>
      exact safe_assignTask principal data now hs fun h u v => hadm h _ s u v
  | addInventoryItem tenantId data now => exact safe_addInventoryItem tenantId data now hs
  | reserveStock principal k quantity now =>
      exact safe_reserveStock principal k quantity now hs
  | releaseStock tenantId k quantity now =>
      exact safe_releaseStock tenantId k quantity now hs

end Logistics
end Rcp
