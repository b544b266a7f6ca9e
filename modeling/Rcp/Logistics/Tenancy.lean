/-
References between the rows of the tenants.

A foreign key names a row by its id alone, so a reference stays inside a tenant only if
the call that makes it has looked the row up under that tenant.  `create_request` and
`assign_task` do.  `add_inventory_item` and `create_checkout_session` take the category
from the form, and with it any category of any tenant.
-/
import Rcp.Logistics.Categories
import Rcp.Logistics.Payment
import Rcp.Logistics.Sequential
import Rcp.Sql.Growth
import Rcp.Sql.Identity

namespace Rcp
namespace Logistics
namespace Tenancy

open Sql Growth

/-- Category `k` is one of the tenant's. -/
def CategoryOf (s : Db) (k tenantId : Uuid) : Prop :=
  s.categories.Identified ResourceCategory.tenantId k tenantId

/-- Request `k` is one of the tenant's. -/
def RequestOf (s : Db) (k tenantId : Uuid) : Prop :=
  s.requests.Identified HelpRequest.tenantId k tenantId

/-- Every reference of every version of a row stays inside its tenant. -/
structure Owned (s : Db) : Prop where
  categories : s.categories.Agrees ResourceCategory.tenantId
  requests : s.requests.Agrees HelpRequest.tenantId
  items : s.items.All fun _ item => CategoryOf s item.categoryId item.tenantId
  asked : s.requests.All fun _ request => CategoryOf s request.categoryId request.tenantId
  payments : s.payments.All fun _ payment => CategoryOf s payment.categoryId payment.tenantId
  tasks : s.tasks.All fun _ task => RequestOf s task.requestId task.tenantId

/-- What is known of the tenant of a row stays known. -/
structure Grows (s s' : Db) : Prop where
  categories : Table.Identifies ResourceCategory.tenantId s.categories s'.categories
  requests : Table.Identifies HelpRequest.tenantId s.requests s'.requests

theorem Grows.refl (s : Db) : Grows s s := ⟨.refl _, .refl _⟩

theorem Grows.trans {s s' s'' : Db} (h : Grows s s') (h' : Grows s' s'') : Grows s s'' :=
  ⟨h.categories.trans h'.categories, h.requests.trans h'.requests⟩

section Steps

variable {s s' : Db} {t : Sid}

theorem CategoryOf.mono {k tenantId : Uuid} (h : CategoryOf s k tenantId) (hle : Grows s s') :
    CategoryOf s' k tenantId := hle.categories k tenantId h

theorem RequestOf.mono {k tenantId : Uuid} (h : RequestOf s k tenantId) (hle : Grows s s') :
    RequestOf s' k tenantId := hle.requests k tenantId h

theorem grows_rollback : Grows s (Transactional.rollback t s) :=
  ⟨Table.identifies_rollback, Table.identifies_rollback⟩

theorem grows_commit : Grows s (Transactional.commit t s) :=
  ⟨Table.identifies_commit, Table.identifies_commit⟩

theorem Owned.rollback (h : Owned s) (t : Sid) : Owned (Transactional.rollback t s) where
  categories := h.categories.rollback t
  requests := h.requests.rollback t
  items k item hitem := (h.items.rollback t k item hitem).mono grows_rollback
  asked k request hrequest := (h.asked.rollback t k request hrequest).mono grows_rollback
  payments k payment hpayment := (h.payments.rollback t k payment hpayment).mono grows_rollback
  tasks k task htask := (h.tasks.rollback t k task htask).mono grows_rollback

theorem Owned.commit (h : Owned s) (t : Sid) : Owned (Transactional.commit t s) where
  categories := h.categories.commit t
  requests := h.requests.commit t
  items k item hitem := (h.items.commit t k item hitem).mono grows_commit
  asked k request hrequest := (h.asked.commit t k request hrequest).mono grows_commit
  payments k payment hpayment := (h.payments.commit t k payment hpayment).mono grows_commit
  tasks k task htask := (h.tasks.commit t k task htask).mono grows_commit

end Steps

def ownership : Growth Db where
  Inv := Owned
  Le := Grows
  refl := Grows.refl
  trans _ _ _ := Grows.trans
  rollback t _ h := ⟨h.rollback t, grows_rollback⟩

/-! ## Statements -/

section Statements

variable {s : Db} {t : Sid}

/-- Statements on the tables that refer to nothing. -/
theorem up_outbox (hs : Owned s) (T : Table (Outbox Message)) :
    ownership.Up s { s with outbox := T } :=
  ⟨⟨hs.categories, hs.requests, hs.items, hs.asked, hs.payments, hs.tasks⟩, .refl _, .refl _⟩

theorem up_categories (hs : Owned s) {T : Table ResourceCategory}
    (hT : T.Agrees ResourceCategory.tenantId)
    (hle : Table.Identifies ResourceCategory.tenantId s.categories T) :
    ownership.Up s { s with categories := T } := by
  have hgrows : Grows s { s with categories := T } := ⟨hle, .refl _⟩
  refine ⟨⟨hT, hs.requests, ?_, ?_, ?_, hs.tasks⟩, hgrows⟩
  · exact fun k item hitem => (hs.items k item hitem).mono hgrows
  · exact fun k request hrequest => (hs.asked k request hrequest).mono hgrows
  · exact fun k payment hpayment => (hs.payments k payment hpayment).mono hgrows

theorem up_requests (hs : Owned s) {T : Table HelpRequest} (hT : T.Agrees HelpRequest.tenantId)
    (hle : Table.Identifies HelpRequest.tenantId s.requests T)
    (hasked : T.All fun _ request => CategoryOf s request.categoryId request.tenantId) :
    ownership.Up s { s with requests := T } := by
  have hgrows : Grows s { s with requests := T } := ⟨.refl _, hle⟩
  refine ⟨⟨hs.categories, hT, hs.items, hasked, hs.payments, ?_⟩, hgrows⟩
  exact fun k task htask => (hs.tasks k task htask).mono hgrows

theorem up_items (hs : Owned s) {T : Table InventoryItem}
    (hT : T.All fun _ item => CategoryOf s item.categoryId item.tenantId) :
    ownership.Up s { s with items := T } :=
  ⟨⟨hs.categories, hs.requests, hT, hs.asked, hs.payments, hs.tasks⟩, .refl _, .refl _⟩

theorem up_payments (hs : Owned s) {T : Table PaymentDonation}
    (hT : T.All fun _ payment => CategoryOf s payment.categoryId payment.tenantId) :
    ownership.Up s { s with payments := T } :=
  ⟨⟨hs.categories, hs.requests, hs.items, hs.asked, hT, hs.tasks⟩, .refl _, .refl _⟩

theorem up_tasks (hs : Owned s) {T : Table DispatchTask}
    (hT : T.All fun _ task => RequestOf s task.requestId task.tenantId) :
    ownership.Up s { s with tasks := T } :=
  ⟨⟨hs.categories, hs.requests, hs.items, hs.asked, hs.payments, hT⟩, .refl _, .refl _⟩

theorem takes_emit (hs : Owned s) {routingKey : String} {tenantId : Option Uuid}
    {data : Message} : ownership.Takes (fun _ _ => True)
      (emit Db.outboxT routingKey tenantId data : Prog Db Error Nat) s := by
  refine takes_insert fun t s' hs' => ⟨?_, fun _ _ => trivial⟩
  rw [hs']
  exact up_outbox hs _

theorem takes_read (hs : Owned s) {β : Type} (f : Sid → Db → β) :
    ownership.Takes (fun _ _ => True) (query f : Prog Db Error β) s :=
  takes_query hs fun _ _ _ => trivial

/-- The rows of a request keep its tenant and its category. -/
theorem takes_updateRequest (hs : Owned s) {k : Nat} {p : HelpRequest → Bool}
    {f : HelpRequest → HelpRequest} (htenant : ∀ request, (f request).tenantId = request.tenantId)
    (hcategory : ∀ request, (f request).categoryId = request.categoryId) :
    ownership.Takes (fun _ _ => True)
      (updateWhere Db.requestsT k p f : Prog Db Error (Option HelpRequest)) s := by
  refine takes_updateWhere hs fun t request hread => ?_
  have hread' : s.requests.read t k = some request := hread
  refine up_requests hs (hs.requests.write hread' (htenant request))
    (Table.identifies_write hread' (htenant request)) (hs.asked.write ?_)
  rw [htenant, hcategory]
  exact hs.asked.read hread'

theorem takes_updateItem (hs : Owned s) {k : Nat} {p : InventoryItem → Bool}
    {f : InventoryItem → InventoryItem} (htenant : ∀ item, (f item).tenantId = item.tenantId)
    (hcategory : ∀ item, (f item).categoryId = item.categoryId) :
    ownership.Takes (fun _ _ => True)
      (updateWhere Db.itemsT k p f : Prog Db Error (Option InventoryItem)) s := by
  refine takes_updateWhere hs fun t item hread => ?_
  have hread' : s.items.read t k = some item := hread
  refine up_items hs (hs.items.write ?_)
  rw [htenant, hcategory]
  exact hs.items.read hread'

theorem takes_refresh (hs : Owned s) {V : Type} {T : Access Db V} {k : Nat} :
    ownership.Takes (fun _ _ => True) (refresh T k) s := by
  refine takes_bind hs (takes_read hs _) fun found u _ _ => ?_
  cases found with
  | none => exact takes_raise
  | some row => exact takes_ret trivial

/-- The end of a call: the commit and `db.refresh`. -/
theorem takes_commit_refresh (hs : Owned s) {V γ : Type} {T : Access Db V} {k : Nat}
    {f : V → γ} : ownership.Takes (fun _ _ => True) (do
      commit
      let row ← refresh T k
      return f row) s := by
  refine takes_bind hs (takes_commit fun t => ⟨hs.commit t, grows_commit⟩) fun _ u hu _ => ?_
  exact takes_bind hu.1 (takes_refresh hu.1) fun _ _ _ _ => takes_ret trivial

/-- `get_category` answers with a category of the tenant. -/
theorem takes_getCategory (hs : Owned s) (tenantId : Option Uuid) (k : Uuid) :
    ownership.Takes (fun category u => some category.tenantId = tenantId ∧
      CategoryOf u k category.tenantId) (getCategory tenantId k) s := by
  refine takes_bind (R := fun found u => ∀ category, found = some category →
    CategoryOf u k category.tenantId) hs (takes_query hs ?_) fun found u _ hfound => ?_
  · intro t s' hup category hread
    exact hup.2.categories _ _ (hs.categories.read hread)
  · cases found with
    | none => exact takes_raise
    | some category =>
        show ownership.Takes _ (if _ then _ else _) u
        split
        · rename_i htenant
          exact takes_ret ⟨htenant, hfound category rfl⟩
        · exact takes_raise

end Statements

/-! ## Calls -/

section Calls

variable {s : Db}

theorem takes_createCategory (hs : Owned s) (tenantId : Option Uuid)
    (data : ResourceCategoryCreate) (now : Time) :
    ownership.Takes (fun _ _ => True) (createCategory tenantId data now) s := by
  unfold createCategory
  split
  · exact takes_raise
  · refine takes_bind (R := fun _ _ => True) hs ?_ fun id u hu _ => ?_
    · refine takes_insert fun t s' hs' => ⟨?_, fun _ _ => trivial⟩
      rw [hs']
      exact up_categories hs (hs.categories.insert t _) Table.identifies_insert
    · refine takes_bind hu.1 (takes_emit hu.1) fun _ v hv _ => ?_
      exact takes_commit_refresh hv.1

theorem takes_saveCategory (hs : Owned s) (tenantId : Option Uuid) (k : Uuid)
    (loaded changed : ResourceCategory) (now : Time) :
    ownership.Takes (fun _ _ => True) (saveCategory tenantId k loaded changed now) s := by
  refine takes_bind (R := fun _ _ => True) hs ?_ fun updatedAt u hu _ => ?_
  · unfold flushCategory
    split
    · exact takes_ret trivial
    · refine takes_bind hs (takes_updateWhere hs fun t category hread => ?_) fun _ u hu _ => ?_
      · have hread' : s.categories.read t k = some category := hread
        exact up_categories hs (hs.categories.write hread' rfl)
          (Table.identifies_write hread' rfl)
      · exact takes_bind hu.1 (takes_refresh hu.1) fun _ _ _ _ => takes_ret trivial
  · refine takes_bind hu.1 (takes_emit hu.1) fun _ v hv _ => ?_
    exact takes_commit_refresh hv.1

theorem takes_category (hs : Owned s) (a : CategoryCall) :
    ownership.Takes (fun _ _ => True) a.body s := by
  cases a with
  | createCategory tenantId data now => exact takes_createCategory hs tenantId data now
  | updateCategory tenantId k data now =>
      refine takes_bind hs (takes_getCategory hs tenantId k) fun category u hu _ => ?_
      split
      · exact takes_raise
      · exact takes_saveCategory hu.1 tenantId k category _ now
  | deactivateCategory tenantId k now =>
      refine takes_bind hs (takes_getCategory hs tenantId k) fun category u hu _ => ?_
      split
      · exact takes_saveCategory hu.1 tenantId k category _ now
      · exact takes_ret trivial

/-- The category was looked up under the tenant of the request. -/
theorem takes_createRequest (hs : Owned s) (validatePayload : Option (List Json) →
      Option Object → Except FormErrors (Option Object)) (principal : Principal)
    (data : HelpRequestCreate) (now : Time) :
    ownership.Takes (fun _ _ => True) (createRequest validatePayload principal data now) s := by
  refine takes_bind hs (takes_getCategory hs _ _) fun category u hu hcategory => ?_
  split
  · exact takes_raise
  · split
    · exact takes_raise
    · split
      · exact takes_raise
      · split
        · exact takes_raise
        · refine takes_bind (R := fun _ _ => True) hu.1 ?_ fun id v hv _ => ?_
          · refine takes_insert fun t s' hs' => ⟨?_, fun _ _ => trivial⟩
            rw [hs']
            exact up_requests hu.1 (hu.1.requests.insert t _) Table.identifies_insert
              (hu.1.asked.insert (t := t) hcategory.2)
          · refine takes_bind hv.1 (takes_emit hv.1) fun _ w hw _ => ?_
            exact takes_commit_refresh hw.1

theorem takes_updateStatus (hs : Owned s) (requestId : Uuid) (newStatus : RequestStatus)
    (principal : Principal) (now : Time) :
    ownership.Takes (fun _ _ => True) (updateStatus requestId newStatus principal now) s := by
  refine takes_bind hs (takes_read hs _) fun found u hu _ => ?_
  cases found with
  | none => exact takes_raise
  | some request =>
      show ownership.Takes _ (if _ then _ else _) u
      split
      · exact takes_raise
      · refine takes_bind hu.1 (takes_read hu.1 _) fun category v hv _ => ?_
        unfold changeStatus
        split
        · exact takes_raise
        · split
          · exact takes_raise
          · refine takes_bind hv.1 (takes_updateRequest hv.1 ?_ ?_) fun _ w hw _ => ?_
            · exact applyStatus_tenantId newStatus principal now
            · exact applyStatus_categoryId newStatus principal now
            · refine takes_bind hw.1 (takes_emit hw.1) fun _ x hx _ => ?_
              exact takes_commit_refresh hx.1

/-- The request was looked up under the tenant of the task. -/
theorem takes_assignTask (hs : Owned s) (principal : Principal) (data : DispatchTaskCreate)
    (now : Time) : ownership.Takes (fun _ _ => True) (assignTask principal data now) s := by
  refine takes_bind (R := fun found u => ∀ request, found = some request →
    RequestOf u data.requestId request.tenantId) hs (takes_query hs ?_) fun found u hu hfound => ?_
  · intro t s' hup request hread
    exact hup.2.requests _ _ (hs.requests.read hread)
  cases found with
  | none => exact takes_raise
  | some request =>
      show ownership.Takes _ (if _ then _ else if _ then _ else _) u
      split
      · exact takes_raise
      · split
        · exact takes_raise
        · refine takes_bind hu.1 (takes_read hu.1 _) fun volunteer v hv _ => ?_
          split
          · exact takes_raise
          · refine takes_bind (R := fun _ _ => True) hv.1 ?_ fun _ w hw _ => ?_
            · unfold startProgress
              split
              · exact takes_ret trivial
              · exact takes_bind hv.1 (takes_updateRequest hv.1 (fun _ => rfl) fun _ => rfl)
                  fun _ _ _ _ => takes_ret trivial
            refine takes_bind (R := fun _ _ => True) hw.1 ?_ fun taskId x hx _ => ?_
            · have hrequest : RequestOf w data.requestId request.tenantId :=
                (hfound request rfl).mono (hv.2.trans hw.2)
              refine takes_insert fun t s' hs' => ⟨?_, fun _ _ => trivial⟩
              rw [hs']
              exact up_tasks hw.1 (hw.1.tasks.insert (t := t) hrequest)
            refine takes_bind (R := fun _ _ => True) hx.1 ?_ fun assigner y hy _ => ?_
            · unfold assignerReplica
              split
              · exact takes_ret trivial
              · exact takes_read hx.1 _
            refine takes_bind hy.1 (takes_read hy.1 _) fun category z hz _ => ?_
            refine takes_bind hz.1 (takes_emit hz.1) fun _ z' hz' _ => ?_
            exact takes_commit_refresh hz'.1

theorem takes_flushItem (hs : Owned s) (itemId : Uuid) (loaded changed : InventoryItem)
    (now : Time) :
    ownership.Takes (fun _ _ => True) (flushItem itemId loaded changed now) s := by
  unfold flushItem
  split
  · exact takes_ret trivial
  · split
    · exact takes_raise
    · exact takes_bind hs (takes_updateItem hs (fun _ => rfl) fun _ => rfl)
        fun _ _ _ _ => takes_ret trivial

theorem takes_reserveStock (hs : Owned s) (principal : Principal) (itemId : Uuid)
    (quantity : Int) (now : Time) :
    ownership.Takes (fun _ _ => True) (reserveStock principal itemId quantity now) s := by
  refine takes_bind hs (takes_updateItem hs (fun _ => rfl) fun _ => rfl) fun found u hu _ => ?_
  cases found with
  | none => exact takes_raise
  | some item =>
      show ownership.Takes _ (if _ then _ else _) u
      split
      · exact takes_raise
      · refine takes_bind hu.1 (takes_flushItem hu.1 _ _ _ _) fun _ v hv _ => ?_
        refine takes_bind (R := fun _ _ => True) hv.1 ?_ fun _ w hw _ => ?_
        · unfold emitLowStock
          split
          · exact takes_bind hv.1 (takes_emit hv.1) fun _ _ _ _ => takes_ret trivial
          · exact takes_ret trivial
        refine takes_bind hw.1 (takes_emit hw.1) fun _ x hx _ => ?_
        exact takes_commit_refresh hx.1

theorem takes_releaseStock (hs : Owned s) (tenantId : Option Uuid) (itemId : Uuid)
    (quantity : Int) (now : Time) :
    ownership.Takes (fun _ _ => True) (releaseStock tenantId itemId quantity now) s := by
  refine takes_bind hs (takes_updateItem hs (fun _ => rfl) fun _ => rfl) fun found u hu _ => ?_
  cases found with
  | none => exact takes_raise
  | some item =>
      refine takes_bind hu.1 (takes_flushItem hu.1 _ _ _ _) fun _ v hv _ => ?_
      refine takes_bind hv.1 (takes_emit hv.1) fun _ w hw _ => ?_
      exact takes_commit_refresh hw.1

/-! ### Categories that a form names -/

/-- The category is one of the tenant's, or there is no such category. -/
def OwnCategory (tenantId : Option Uuid) (k : Uuid) (s : Db) : Prop :=
  (∃ category, s.categories.committed k = some category ∧ some category.tenantId = tenantId) ∨
    ∀ category, ¬ s.categories.Has k category

/-- A category that the foreign key has found is one of the tenant's. -/
theorem OwnCategory.found {tenant : Uuid} {k : Uuid} {t : Sid} {category : ResourceCategory}
    (h : OwnCategory (some tenant) k s) (hs : Owned s)
    (hread : s.categories.read t k = some category) : CategoryOf s k tenant := by
  rcases h with ⟨own, hown, htenant⟩ | hnone
  · have hid := hs.categories k own (.inl hown)
    rw [Option.some.inj htenant] at hid
    exact hid
  · exact absurd (Table.Has.of_read hread) (hnone category)

theorem takes_addInventoryItem (hs : Owned s) (tenantId : Option Uuid)
    (data : InventoryItemCreate) (now : Time)
    (hown : (addInventoryItem tenantId data now).outcome = none →
      OwnCategory tenantId data.categoryId s) :
    ownership.Takes (fun _ _ => True) (addInventoryItem tenantId data now) s := by
  unfold addInventoryItem at hown ⊢
  cases tenantId with
  | none => exact takes_raise
  | some tenant =>
      by_cases hfits : FitsInteger data.quantityTotal
      · simp only [hfits, not_true_eq_false, if_false] at hown ⊢
        replace hown := hown rfl
        refine takes_bind (R := fun found u => found.isSome → CategoryOf u data.categoryId tenant)
          hs (takes_query hs ?_) fun found u hu hfound => ?_
        · intro t s' hup hsome
          obtain ⟨category, hread⟩ := Option.isSome_iff_exists.mp hsome
          exact (hown.found hs hread).mono hup.2
        cases found with
        | none => exact takes_raise
        | some category =>
            refine takes_bind (R := fun _ _ => True) hu.1 ?_ fun id v hv _ => ?_
            · refine takes_insert fun t s' hs' => ⟨?_, fun _ _ => trivial⟩
              rw [hs']
              exact up_items hu.1 (hu.1.items.insert (t := t) (hfound rfl))
            · refine takes_bind hv.1 (takes_emit hv.1) fun _ w hw _ => ?_
              exact takes_commit_refresh hw.1
      · simp only [hfits, not_false_eq_true, if_true]
        exact takes_raise

theorem takes_createCheckout (hs : Owned s)
    (generateHash : String → PyFloat → String → String) (merchantId : String)
    (principal : Principal) (data : PaymentCheckoutRequest) (orderId : String)
    (hown : (createCheckout generateHash merchantId principal data orderId).outcome = none →
      OwnCategory (some data.tenantId) data.categoryId s) :
    ownership.Takes (fun _ _ => True)
      (createCheckout generateHash merchantId principal data orderId) s := by
  unfold createCheckout createCheckoutSession at hown ⊢
  by_cases hfits : FitsInteger data.quantity
  · simp only [hfits, not_true_eq_false, if_false] at hown ⊢
    replace hown := hown rfl
    refine takes_bind (R := fun found u => found.isSome →
      CategoryOf u data.categoryId data.tenantId) hs (takes_query hs ?_) fun found u hu hfound => ?_
    · intro t s' hup hsome
      obtain ⟨category, hread⟩ := Option.isSome_iff_exists.mp hsome
      exact (hown.found hs hread).mono hup.2
    cases found with
    | none => exact takes_raise
    | some category =>
        refine takes_bind hu.1 (takes_insertUnique hu.1 fun t => ?_) fun inserted v hv _ => ?_
        · exact up_payments hu.1 (hu.1.payments.insert (t := t) (hfound rfl))
        · cases inserted with
          | none => exact takes_raise
          | some id =>
              refine takes_bind hv.1 (takes_commit fun t => ⟨hv.1.commit t, grows_commit⟩) ?_
              exact fun _ _ _ _ => takes_ret trivial
  · simp only [hfits, not_false_eq_true, if_true]
    exact takes_raise

end Calls

/-! ## Runs -/

/-- A call of the service. -/
inductive Action
  | operation (a : Operation)
  | checkout (principal : Principal) (data : PaymentCheckoutRequest) (orderId : String)

section Runs

variable (validatePayload : Option (List Json) → Option Object →
    Except FormErrors (Option Object))
  (generateHash : String → PyFloat → String → String) (merchantId : String)

def Action.body : Action → Prog Db Error Unit
  | operation a => a.body validatePayload
  | checkout principal data orderId => do
      let _ ← createCheckout generateHash merchantId principal data orderId
      return ()

/-- The category that the form of the call names is one of the tenant that the new row is
stamped with, or there is none when the foreign key is checked. -/
def Action.NamesOwn : Action → Db → Prop
  | operation (.call (.addInventoryItem tenantId data _)), s =>
      OwnCategory tenantId data.categoryId s
  | checkout _ data _, s => OwnCategory (some data.tenantId) data.categoryId s
  | _, _ => True

/-- Every committed reference stays inside its tenant. -/
structure Inside (s : Db) : Prop where
  items : ∀ k item category, s.items.committed k = some item →
    s.categories.committed item.categoryId = some category → item.tenantId = category.tenantId
  requests : ∀ k request category, s.requests.committed k = some request →
    s.categories.committed request.categoryId = some category →
      request.tenantId = category.tenantId
  payments : ∀ k payment category, s.payments.committed k = some payment →
    s.categories.committed payment.categoryId = some category →
      payment.tenantId = category.tenantId
  tasks : ∀ k task request, s.tasks.committed k = some task →
    s.requests.committed task.requestId = some request → task.tenantId = request.tenantId

theorem Owned.inside {s : Db} (h : Owned s) : Inside s where
  items k item category hitem hcategory :=
    ((h.items.committed hitem).2 category (.inl hcategory)).symm
  requests k request category hrequest hcategory :=
    ((h.asked.committed hrequest).2 category (.inl hcategory)).symm
  payments k payment category hpayment hcategory :=
    ((h.payments.committed hpayment).2 category (.inl hcategory)).symm
  tasks k task request htask hrequest :=
    ((h.tasks.committed htask).2 request (.inl hrequest)).symm

theorem initial_owned (categories : List ResourceCategory) (replicas : List UserReplica) :
    Owned (Db.initial categories replicas) where
  categories := Table.agrees_ofList categories
  requests := Table.agrees_empty
  items := Table.empty_all
  asked := Table.empty_all
  payments := Table.empty_all
  tasks := Table.empty_all

theorem outcome_bind {α β : Type} {p : Prog Db Error α} {g : α → Prog Db Error β}
    (h : p.outcome = none) : (p >>= g).outcome = none := by
  cases p with
  | ret b => cases h
  | raise e => cases h
  | stmt run k => rfl

theorem takes_body {s : Db} (hs : Owned s) (a : Action)
    (hown : (a.body validatePayload generateHash merchantId).outcome = none → a.NamesOwn s) :
    ownership.Takes (fun _ _ => True) (a.body validatePayload generateHash merchantId) s := by
  have hunit : ∀ {β : Type} {p : Prog Db Error β}, ownership.Takes (fun _ _ => True) p s →
      ownership.Takes (fun _ _ => True) (p >>= fun _ => pure ()) s :=
    fun hp => takes_bind hs hp fun _ _ _ _ => takes_ret trivial
  cases a with
  | checkout principal data orderId =>
      refine hunit (takes_createCheckout hs _ _ _ _ _ fun hnone => ?_)
      exact hown (outcome_bind hnone)
  | operation a =>
      cases a with
      | category a => exact hunit (takes_category hs a)
      | call a =>
          cases a with
          | createRequest principal data now => exact hunit (takes_createRequest hs _ _ _ _)
          | updateStatus requestId newStatus principal now =>
              exact hunit (takes_updateStatus hs _ _ _ _)
          | assignTask principal data now => exact hunit (takes_assignTask hs _ _ _)
          | reserveStock principal itemId quantity now =>
              exact hunit (takes_reserveStock hs _ _ _ _)
          | releaseStock tenantId itemId quantity now =>
              exact hunit (takes_releaseStock hs _ _ _ _)
          | addInventoryItem tenantId data now =>
              refine hunit (takes_addInventoryItem hs _ _ _ fun hnone => ?_)
              exact hown (outcome_bind hnone)

end Runs

/-- In every run in which each `add_inventory_item` and each checkout names a category of the
tenant its row is stamped with, or none, every committed reference stays inside its tenant. -/
theorem references_inside_tenant (validatePayload : Option (List Json) → Option Object →
      Except FormErrors (Option Object))
    (generateHash : String → PyFloat → String → String) (merchantId : String)
    (categories : List ResourceCategory) (replicas : List UserReplica)
    {c : Config Db Error Unit Action}
    (h : RunWith (Action.body validatePayload generateHash merchantId)
      (fun a s₀ _ _ => a.NamesOwn s₀) (Config.start (Db.initial categories replicas)) c) :
    Inside c.store := by
  have hverified : (ownership.discipline (ε := Error) (fun (_ : Action) (_ : Unit) _ => True)
      fun _ _ _ _ _ _ => trivial).Verified (fun a s₀ _ _ => a.NamesOwn s₀)
      (Action.body validatePayload generateHash merchantId) :=
    verified fun a s hs hown => takes_body validatePayload generateHash merchantId hs a hown
  have hstart := initial_owned categories replicas
  exact (RunWith.sound hverified (Config.start_sound hstart fun _ => trivial) h).inv.inside

/-! ### Two runs -/

/-- The category of the form is there and is the tenant's. -/
def Action.finds : Action → Db → Bool
  | operation (.call (.addInventoryItem tenantId data _)), s =>
      (s.categories.committed data.categoryId).any fun category =>
        some category.tenantId == tenantId
  | checkout _ data _, s =>
      (s.categories.committed data.categoryId).any fun category =>
        category.tenantId == data.tenantId
  | _, _ => true

theorem Action.namesOwn_of_finds {a : Action} {s : Db} (h : a.finds s = true) : a.NamesOwn s := by
  unfold Action.finds at h
  split at h
  · simp only [Option.any_eq_true, beq_iff_eq] at h
    exact .inl h
  · simp only [Option.any_eq_true, beq_iff_eq] at h
    obtain ⟨category, hcategory, htenant⟩ := h
    exact .inl ⟨category, hcategory, congrArg some htenant⟩
  · unfold Action.NamesOwn
    split
    · simp_all
    · simp_all
    · trivial

/-- Stock and a donation of tenant `tenantId`, for the category of tenant 1. -/
def donations (tenantId : Uuid) : List (Move Action) :=
  [.begin (.operation (.call (.addInventoryItem (some tenantId)
      { categoryId := 0, name := "Rice", quantityTotal := 20, quantity_nonneg := by decide } 0))),
    .next 0, .next 0, .next 0, .next 0, .next 0, .close 0,
    .begin (.checkout { userId := 9, tenantId := none }
      { tenantId := tenantId, categoryId := 0, amount := .finite 5, quantity := 1 } "a1"),
    .next 1, .next 1, .next 1, .close 1]

/-- The configuration after the donations, with the rows that they have added. -/
def donated (tenantId : Uuid) : Option (Config Db Error Unit Action) :=
  (Config.start (Db.initial [foodBank _ Workflow.accepted_none] [])).playWith
    (Action.body (fun _ fields => .ok fields) (fun _ _ _ => "") "1236705")
    (fun a s₀ _ _ => tenantId = 1 → a.finds s₀) (donations tenantId)

theorem references_inside_tenant_foodBank :
    ∃ c : Config Db Error Unit Action, (c.store.items.committed 0).isSome ∧
      (c.store.payments.committed 0).isSome ∧ Inside c.store := by
  have hplay : (donated 1).map (fun c => ((c.store.items.committed 0).isSome,
      (c.store.payments.committed 0).isSome)) = some (true, true) := by
    decide +kernel
  obtain ⟨c, hc, hrows⟩ := Option.map_eq_some_iff.mp hplay
  have hrun := RunWith.mono (fun a s₀ _ _ hfinds => Action.namesOwn_of_finds (hfinds rfl))
    (Config.playWith_run hc)
  exact ⟨c, congrArg Prod.fst hrows, congrArg Prod.snd hrows,
    references_inside_tenant _ _ _ _ _ hrun⟩

/-- A coordinator of tenant 2 files stock under the category of tenant 1, and a donation for
tenant 2 names it too. -/
theorem references_cross_tenants : ∃ c : Config Db Error Unit Action,
    Run (Action.body (fun _ fields => .ok fields) (fun _ _ _ => "") "1236705")
      (Config.start (Db.initial [foodBank _ Workflow.accepted_none] [])) c ∧
      (∃ item category, c.store.items.committed 0 = some item ∧
        c.store.categories.committed item.categoryId = some category ∧
        item.tenantId ≠ category.tenantId) ∧
      ∃ payment category, c.store.payments.committed 0 = some payment ∧
        c.store.categories.committed payment.categoryId = some category ∧
        payment.tenantId ≠ category.tenantId := by
  have hplay : ((donated 2).bind fun c => (c.store.items.committed 0).bind fun item =>
      (c.store.payments.committed 0).bind fun payment =>
      (c.store.categories.committed item.categoryId).bind fun category =>
      (c.store.categories.committed payment.categoryId).map fun category' =>
        decide (item.tenantId ≠ category.tenantId ∧ payment.tenantId ≠ category'.tenantId)) =
      some true := by
    decide +kernel
  simp only [Option.bind_eq_some_iff, Option.map_eq_some_iff, decide_eq_true_eq] at hplay
  obtain ⟨c, hc, item, hitem, payment, hpayment, category, hcategory, category', hcategory',
    hne, hne'⟩ := hplay
  exact ⟨c, (Config.playWith_run hc).run, ⟨item, category, hitem, hcategory, hne⟩,
    payment, category', hpayment, hcategory', hne'⟩

end Tenancy
end Logistics
end Rcp
