/-
The categories of the logistics service (`create_category`, `update_category` and
`deactivate_category` of `services/logistics/app/services/inventory.py`).

The session writes the columns whose value differs from the loaded one, and nothing at
all if none does.  An UPDATE sets `updated_at` in the database, which the session reads
back for the event, so an event carries the stamp of the state it shows.
-/
import Rcp.Logistics.ItemHistory

namespace Rcp
namespace Logistics

open Sql Sql.Table

/-- `ResourceCategoryCreate` after validation. -/
structure ResourceCategoryCreate where
  name : String
  description : Option String := none
  unit : String := "unit"
  formSchema : Option (List Json) := none
  workflow : Option Object := none
  accepted : Workflow.Accepted workflow

/-- `ResourceCategoryUpdate` after validation.  A field that was left out is `none` and
an explicit null is `some none`. -/
structure ResourceCategoryUpdate where
  name : Option (Option String) := none
  description : Option (Option String) := none
  unit : Option (Option String) := none
  formSchema : Option (Option (List Json)) := none
  workflow : Option (Option Object) := none
  isActive : Option (Option Bool) := none
  accepted : ∀ definition ∈ workflow, Workflow.Accepted definition

/-- `_category_event`. -/
def categoryMessage (id : Uuid) (category : ResourceCategory) (updatedAt : Time) : Message :=
  .resourceCategory id category.name category.description category.unit category.isActive
    updatedAt

/-- The row that `create_category` adds. -/
def newCategory (tenantId : Uuid) (data : ResourceCategoryCreate) (now : Time) :
    ResourceCategory :=
  { tenantId := tenantId
    name := data.name
    description := data.description
    unit := data.unit
    formSchema := data.formSchema
    workflow := data.workflow
    updatedAt := now
    accepted := data.accepted }

def createCategory (tenantId : Option Uuid) (data : ResourceCategoryCreate) (now : Time) :
    Prog Db Error (Uuid × ResourceCategory) :=
  match tenantId with
  | none => .raise (.integrityError "tenant_id")
  | some tenant => do
      let category := newCategory tenant data now
      let id ← insert Db.categoriesT fun _ => category
      let _ ← emit Db.outboxT "logistics.resource-category.created" tenantId
        (categoryMessage id category category.updatedAt)
      commit
      let category ← refresh Db.categoriesT id
      return (id, category)

/-! ## Flushing a category -/

/-- `==` on a JSONB column. -/
def sameJson : Option Json → Option Json → Bool
  | none, none => true
  | some x, some y => Json.pyEq x y
  | _, _ => false

def sameSchema (x y : Option (List Json)) : Bool := sameJson (x.map .arr) (y.map .arr)

def sameWorkflow (x y : Option Object) : Bool := sameJson (x.map .obj) (y.map .obj)

/-- No column has changed. -/
def ResourceCategory.same (loaded changed : ResourceCategory) : Bool :=
  changed.name == loaded.name && changed.description == loaded.description &&
    changed.unit == loaded.unit && sameSchema changed.formSchema loaded.formSchema &&
    sameWorkflow changed.workflow loaded.workflow && changed.isActive == loaded.isActive

/-- The UPDATE of the columns that have changed.  The others keep their value. -/
def writeColumns (loaded changed : ResourceCategory) (now : Time) (row : ResourceCategory) :
    ResourceCategory :=
  { tenantId := row.tenantId
    name := if changed.name = loaded.name then row.name else changed.name
    description :=
      if changed.description = loaded.description then row.description else changed.description
    unit := if changed.unit = loaded.unit then row.unit else changed.unit
    formSchema :=
      if sameSchema changed.formSchema loaded.formSchema then row.formSchema
      else changed.formSchema
    workflow :=
      if sameWorkflow changed.workflow loaded.workflow then row.workflow else changed.workflow
    isActive := if changed.isActive = loaded.isActive then row.isActive else changed.isActive
    updatedAt := now
    accepted := by
      split
      · exact row.accepted
      · exact changed.accepted }

/-- The flush, and `updated_at` as the session then reads it. -/
def flushCategory (categoryId : Uuid) (loaded changed : ResourceCategory) (now : Time) :
    Prog Db Error Time :=
  if loaded.same changed then return loaded.updatedAt
  else do
    let _ ← update Db.categoriesT categoryId (writeColumns loaded changed now)
    let category ← refresh Db.categoriesT categoryId
    return category.updatedAt

/-- The common end of `update_category` and `deactivate_category`. -/
def saveCategory (tenantId : Option Uuid) (categoryId : Uuid) (loaded changed : ResourceCategory)
    (now : Time) : Prog Db Error (Uuid × ResourceCategory) := do
  let updatedAt ← flushCategory categoryId loaded changed now
  let _ ← emit Db.outboxT "logistics.resource-category.updated" tenantId
    (categoryMessage categoryId changed updatedAt)
  commit
  let category ← refresh Db.categoriesT categoryId
  return (categoryId, category)

/-! ## Updates -/

/-- A value for a column that is `NOT NULL`. -/
def notNull {α : Type} (column : String) : Option α → Except Error α
  | none => .error (.integrityError column)
  | some value => .ok value

theorem ResourceCategoryUpdate.workflow_accepted (data : ResourceCategoryUpdate)
    (category : ResourceCategory) :
    Workflow.Accepted (data.workflow.getD category.workflow) := by
  cases hworkflow : data.workflow with
  | none => exact category.accepted
  | some definition => exact data.accepted definition hworkflow

/-- The object after `setattr` for each field that was sent, as far as the columns take it. -/
def setAttributes (data : ResourceCategoryUpdate) (category : ResourceCategory) :
    Except Error ResourceCategory := do
  let name ← notNull "name" (data.name.getD (some category.name))
  let unit ← notNull "unit" (data.unit.getD (some category.unit))
  let isActive ← notNull "is_active" (data.isActive.getD (some category.isActive))
  return { tenantId := category.tenantId
           name := name
           description := data.description.getD category.description
           unit := unit
           formSchema := data.formSchema.getD category.formSchema
           workflow := data.workflow.getD category.workflow
           isActive := isActive
           updatedAt := category.updatedAt
           accepted := data.workflow_accepted category }

def updateCategory (tenantId : Option Uuid) (categoryId : Uuid) (data : ResourceCategoryUpdate)
    (now : Time) : Prog Db Error (Uuid × ResourceCategory) := do
  let category ← getCategory tenantId categoryId
  match setAttributes data category with
  | .error e => .raise e
  | .ok changed => saveCategory tenantId categoryId category changed now

def deactivateCategory (tenantId : Option Uuid) (categoryId : Uuid) (now : Time) :
    Prog Db Error (Uuid × ResourceCategory) := do
  let category ← getCategory tenantId categoryId
  if category.isActive then
    saveCategory tenantId categoryId category { category with isActive := false } now
  else return (categoryId, category)

inductive CategoryCall
  | createCategory (tenantId : Option Uuid) (data : ResourceCategoryCreate) (now : Time)
  | updateCategory (tenantId : Option Uuid) (categoryId : Uuid) (data : ResourceCategoryUpdate)
      (now : Time)
  | deactivateCategory (tenantId : Option Uuid) (categoryId : Uuid) (now : Time)

def CategoryCall.body : CategoryCall → Prog Db Error (Uuid × ResourceCategory)
  | createCategory tenantId data now => Logistics.createCategory tenantId data now
  | updateCategory tenantId categoryId data now =>
      Logistics.updateCategory tenantId categoryId data now
  | deactivateCategory tenantId categoryId now =>
      Logistics.deactivateCategory tenantId categoryId now

def CategoryCall.now : CategoryCall → Time
  | createCategory _ _ now => now
  | updateCategory _ _ _ now => now
  | deactivateCategory _ _ now => now

/-! ## What a call does on its own -/

/-- A write set of categories and events. -/
def Rows.filing (C : Nat → Option ResourceCategory) (O : Nat → Option (Outbox Message)) : Rows :=
  { Rows.nothing with categories := C, outbox := O }

/-- Call `a` on its own writes `W` over the rows `w` and emits the event `x`. -/
inductive CategoryEffect : CategoryCall → Rows → Rows → Outbox Message → Prop
  | created {tenant : Uuid} {data : ResourceCategoryCreate} {now : Time} {w : Rows} {k o : Nat}
      {x : Outbox Message} (hk : Above w.categories k) (ho : Above w.outbox o)
      (hx : x = outboxRow "logistics.resource-category.created" (some tenant)
        (categoryMessage k (newCategory tenant data now) now) o) :
      CategoryEffect (.createCategory (some tenant) data now) w
        (.filing (single k (newCategory tenant data now)) (single o x)) x
  /-- The event shows the row as it then is, which was written anew or left alone. -/
  | saved {a : CategoryCall} {w : Rows} {k o : Nat} {loaded category : ResourceCategory}
      {C : Nat → Option ResourceCategory} {x : Outbox Message}
      (hk : w.categories k = some loaded) (htenant : category.tenantId = loaded.tenantId)
      (hC : (C = noRows ∧ category = loaded) ∨
        (C = single k category ∧ category.updatedAt = a.now))
      (ho : Above w.outbox o)
      (hx : x = outboxRow "logistics.resource-category.updated" (some loaded.tenantId)
        (categoryMessage k category category.updatedAt) o) :
      CategoryEffect a w (.filing C (single o x)) x

def CategoryResult (a : CategoryCall) (w w' : Rows) : Prop :=
  w' = w ∨ ∃ W x, CategoryEffect a w W x ∧ w' = W.overlay w

/-- The end of call `a`, made on its own over the rows `w`. -/
def CategoryEnded (t : Sid) (a : CategoryCall) (w : Rows)
    (_ : Except Error (Uuid × ResourceCategory)) (s : Db) : Prop :=
  ∃ W w', Solo schema t W w' s ∧ CategoryResult a w w'

section Solo

variable {t : Sid} {a : CategoryCall} {w W : Rows} {s : Db}

theorem CategoryEnded.unchanged {r : Except Error (Uuid × ResourceCategory)}
    (h : Solo schema t W w s) : CategoryEnded t a w r s :=
  ⟨W, w, h, .inl rfl⟩

theorem solo_commit_category {k : Nat} {x : Outbox Message} (h : Solo schema t W w s)
    (he : CategoryEffect a w W x) :
    Meets t (CategoryEnded t a w)
      (Sql.commit >>= fun _ => refresh Db.categoriesT k >>= fun category => pure (k, category)) s := by
  refine h.commit fun s' hs' => ?_
  have hended : ∀ r, CategoryEnded t a w r s' := fun r => ⟨_, _, hs', .inr ⟨W, x, he, rfl⟩⟩
  refine meets_bind ?_
  refine hs'.query ?_
  split
  · exact meets_raise (hended _)
  · exact meets_ret (meets_ret (hended _))

theorem solo_createCategory (tenantId : Option Uuid) (data : ResourceCategoryCreate) (now : Time)
    (h : Solo schema t .nothing w s) :
    Meets t (CategoryEnded t (.createCategory tenantId data now) w)
      (createCategory tenantId data now) s := by
  unfold createCategory
  split
  · exact meets_raise (.unchanged h)
  · refine h.insert Column.categories (.free fun _ => trivial) fun k hk _ s₁ h₁ => ?_
    refine h₁.insert Column.outbox (.free fun _ => trivial) fun o ho _ s₂ h₂ => ?_
    exact solo_commit_category h₂ (.created hk ho rfl)

/-- The columns in which a changed row differs are written, the others were equal. -/
theorem writeColumns_loaded (loaded changed : ResourceCategory) (now : Time) :
    (writeColumns loaded changed now loaded).name = changed.name ∧
      (writeColumns loaded changed now loaded).description = changed.description ∧
      (writeColumns loaded changed now loaded).unit = changed.unit ∧
      (writeColumns loaded changed now loaded).isActive = changed.isActive := by
  have hcolumn : ∀ {α : Type} [DecidableEq α] (x y : α), (if x = y then y else x) = x := by
    intro α _ x y
    split
    · rename_i heq
      exact heq.symm
    · rfl
  exact ⟨hcolumn _ _, hcolumn _ _, hcolumn _ _, hcolumn _ _⟩

theorem ResourceCategory.same_columns {loaded changed : ResourceCategory}
    (h : loaded.same changed = true) :
    loaded.name = changed.name ∧ loaded.description = changed.description ∧
      loaded.unit = changed.unit ∧ loaded.isActive = changed.isActive := by
  simp only [ResourceCategory.same, Bool.and_eq_true, beq_iff_eq] at h
  obtain ⟨⟨⟨⟨⟨hname, hdescription⟩, hunit⟩, -⟩, -⟩, hactive⟩ := h
  exact ⟨hname.symm, hdescription.symm, hunit.symm, hactive.symm⟩

theorem categoryMessage_congr {k : Nat} {category changed : ResourceCategory} {updatedAt : Time}
    (h : category.name = changed.name ∧ category.description = changed.description ∧
      category.unit = changed.unit ∧ category.isActive = changed.isActive) :
    categoryMessage k changed updatedAt = categoryMessage k category updatedAt := by
  obtain ⟨hname, hdescription, hunit, hactive⟩ := h
  unfold categoryMessage
  rw [hname, hdescription, hunit, hactive]

theorem solo_saveCategory {k : Nat} {loaded changed : ResourceCategory}
    (hk : w.categories k = some loaded) (h : Solo schema t .nothing w s) :
    Meets t (CategoryEnded t a w)
      (saveCategory (some loaded.tenantId) k loaded changed a.now) s := by
  unfold saveCategory
  refine meets_bind ?_
  unfold flushCategory
  by_cases hsame : loaded.same changed = true
  · rw [if_pos hsame]
    refine meets_ret (h.insert Column.outbox (.free fun _ => trivial) fun o ho _ s₁ h₁ => ?_)
    rw [categoryMessage_congr (ResourceCategory.same_columns hsame)] at h₁
    exact solo_commit_category h₁ (.saved hk rfl (.inl ⟨rfl, rfl⟩) ho rfl)
  · rw [if_neg hsame]
    refine h.update Column.categories (.free fun _ => trivial)
      (fun hno => ?_) fun v hv _ s₁ h₁ => ?_
    · have := hno loaded hk
      cases this
    · have hv' : w.categories k = some v := hv
      rw [hk] at hv'
      cases hv'
      -- The session reads the stamp of the row it has just written.
      refine meets_bind ?_
      refine h₁.selectKey Column.categories ?_
      have hread : Column.categories.get (schema.overlay (Column.categories.put
          (Function.update (Column.categories.get Rows.nothing) k
            (some (writeColumns loaded changed a.now loaded))) Rows.nothing) w) k =
          some (writeColumns loaded changed a.now loaded) := by
        show (single k (writeColumns loaded changed a.now loaded) k).or (w.categories k) = _
        rw [single_self]
        rfl
      rw [hread]
      refine meets_ret (meets_ret (h₁.insert Column.outbox (.free fun _ => trivial)
        fun o ho _ s₂ h₂ => ?_))
      rw [categoryMessage_congr (writeColumns_loaded loaded changed a.now)] at h₂
      have htenant : (writeColumns loaded changed a.now loaded).tenantId = loaded.tenantId := rfl
      exact solo_commit_category h₂ (.saved hk htenant (.inr ⟨rfl, rfl⟩) ho rfl)

theorem solo_updateCategory (tenantId : Option Uuid) (k : Uuid) (data : ResourceCategoryUpdate)
    (now : Time) (h : Solo schema t .nothing w s) :
    Meets t (CategoryEnded t (.updateCategory tenantId k data now) w)
      (updateCategory tenantId k data now) s := by
  unfold updateCategory
  refine solo_getCategory h (fun _ => .unchanged h) fun category hk htenant => ?_
  rw [← htenant]
  split
  · exact meets_raise (.unchanged h)
  · exact solo_saveCategory (a := .updateCategory (some category.tenantId) k data now) hk h

theorem solo_deactivateCategory (tenantId : Option Uuid) (k : Uuid) (now : Time)
    (h : Solo schema t .nothing w s) :
    Meets t (CategoryEnded t (.deactivateCategory tenantId k now) w)
      (deactivateCategory tenantId k now) s := by
  unfold deactivateCategory
  refine solo_getCategory h (fun _ => .unchanged h) fun category hk htenant => ?_
  rw [← htenant]
  split
  · exact solo_saveCategory (a := .deactivateCategory (some category.tenantId) k now) hk h
  · exact meets_ret (.unchanged h)

end Solo

theorem category_leads : Leads schema CategoryCall.body CategoryResult := by
  intro a t w s hs
  have h := hs.solo t
  cases a with
  | createCategory tenantId data now => exact solo_createCategory tenantId data now h
  | updateCategory tenantId k data now => exact solo_updateCategory tenantId k data now h
  | deactivateCategory tenantId k now => exact solo_deactivateCategory tenantId k now h

/-! ## All calls of the service -/

inductive Operation
  | category (a : CategoryCall)
  | call (a : Call)

def Operation.body (validatePayload : Option (List Json) → Option Object →
    Except FormErrors (Option Object)) : Operation → Prog Db Error Unit
  | category a => do
      let _ ← a.body
      return ()
  | call a => do
      let _ ← a.body validatePayload
      return ()

def Operation.now : Operation → Time
  | category a => a.now
  | call a => a.now

def Operation.Result : Operation → Rows → Rows → Prop
  | category a => CategoryResult a
  | call a => Logistics.Result a

theorem operations_lead (validatePayload : Option (List Json) → Option Object →
    Except FormErrors (Option Object)) :
    Leads schema (Operation.body validatePayload) Operation.Result := by
  intro a t w s hs
  cases a with
  | category a =>
      obtain ⟨r, s', hx, hr⟩ := category_leads a t w s hs
      refine meets_bind ⟨r, s', hx, ?_⟩
      cases r with
      | ok reply => exact meets_ret hr
      | error e => exact hr
  | call a =>
      obtain ⟨r, s', hx, hr⟩ := leads validatePayload a t w s hs
      refine meets_bind ⟨r, s', hx, ?_⟩
      cases r with
      | ok reply => exact meets_ret hr
      | error e => exact hr

end Logistics
end Rcp
