/-
The events of one category.

An event is emitted after the flush and carries the `updated_at` that the flush has
set.  So no event has a newer stamp than the committed row, those that have its stamp
show the row, and one of them has it.  This also holds after an update that changed
nothing, whose event repeats the stamp of the row.
-/
import Rcp.Logistics.Categories

namespace Rcp
namespace Logistics

open Sql Sql.Table

def Message.describes (k : Uuid) : Message → Bool
  | resourceCategory categoryId .. => categoryId == k
  | _ => false

/-- The events of category `k`. -/
def categoryEvents (k : Uuid) (events : List (Envelope Message)) : List (Envelope Message) :=
  events.filter fun event => event.data.describes k

/-- An event that the analytics service takes for one of category `k`. -/
def CategoryEvent (k tenantId : Uuid) (event : Envelope Message) : Prop :=
  event.eventType ∈ ["logistics.resource-category.created",
      "logistics.resource-category.updated"] ∧
    event.tenantId = some tenantId ∧ ∃ name description unit isActive updatedAt,
      event.data = .resourceCategory k name description unit isActive updatedAt

/-- The event shows the row. -/
def Shows (k : Uuid) (category : ResourceCategory) (event : Envelope Message) : Prop :=
  event.data = categoryMessage k category category.updatedAt

/-- What the events `E` tell of the category. -/
structure CategoryStory (k : Uuid) (category : ResourceCategory) (E : List (Envelope Message)) :
    Prop where
  form : ∀ x ∈ E, CategoryEvent k category.tenantId x
  newest : ∀ x ∈ E, x.data.stamp ≤ category.updatedAt
  fresh : ∀ x ∈ E, x.data.stamp = category.updatedAt → Shows k category x
  shown : ∃ x ∈ E, Shows k category x

/-- The events of category `k` after the operations `past`. -/
def Described (k : Uuid) (past : List Operation) (s : Db) : Prop :=
  match s.categories.committed k with
  | none => categoryEvents k s.events = []
  | some category => (∃ a ∈ past, category.updatedAt = a.now) ∧
      CategoryStory k category (categoryEvents k s.events)

section Stories

variable {k : Uuid} {category : ResourceCategory} {E : List (Envelope Message)}
  {x : Envelope Message}

theorem Shows.stamp (h : Shows k category x) : x.data.stamp = category.updatedAt := by
  rw [h]
  rfl

theorem Shows.event (h : Shows k category x) (htype : x.eventType ∈
      ["logistics.resource-category.created", "logistics.resource-category.updated"])
    (htenant : x.tenantId = some category.tenantId) : CategoryEvent k category.tenantId x :=
  ⟨htype, htenant, _, _, _, _, _, h⟩

/-- An event that repeats the row. -/
theorem CategoryStory.repeated (h : CategoryStory k category E)
    (hx : CategoryEvent k category.tenantId x) (hshows : Shows k category x) :
    CategoryStory k category (E ++ [x]) := by
  have hcases : ∀ y ∈ E ++ [x], y ∈ E ∨ y = x := by simp
  refine ⟨fun y hy => ?_, fun y hy => ?_, fun y hy hstamp => ?_, ?_⟩
  · rcases hcases y hy with hy | rfl
    · exact h.form y hy
    · exact hx
  · rcases hcases y hy with hy | rfl
    · exact h.newest y hy
    · exact le_of_eq hshows.stamp
  · rcases hcases y hy with hy | rfl
    · exact h.fresh y hy hstamp
    · exact hshows
  · obtain ⟨y, hy, hyshows⟩ := h.shown
    exact ⟨y, List.mem_append_left _ hy, hyshows⟩

/-- The first event with a stamp newer than all others. -/
theorem CategoryStory.renewed (hform : ∀ y ∈ E, CategoryEvent k category.tenantId y)
    (hold : ∀ y ∈ E, y.data.stamp < category.updatedAt)
    (hx : CategoryEvent k category.tenantId x) (hshows : Shows k category x) :
    CategoryStory k category (E ++ [x]) := by
  have hcases : ∀ y ∈ E ++ [x], y ∈ E ∨ y = x := by simp
  refine ⟨fun y hy => ?_, fun y hy => ?_, fun y hy hstamp => ?_, ?_⟩
  · rcases hcases y hy with hy | rfl
    · exact hform y hy
    · exact hx
  · rcases hcases y hy with hy | rfl
    · exact le_of_lt (hold y hy)
    · exact le_of_eq hshows.stamp
  · rcases hcases y hy with hy | rfl
    · exact absurd hstamp (ne_of_lt (hold y hy))
    · exact hshows
  · exact ⟨x, List.mem_append_right _ List.mem_cons_self, hshows⟩

end Stories

/-! ## Steps -/

section Steps

variable {a : CategoryCall} {k : Nat} {past : List Operation} {w w' W : Rows} {s s' : Db}

theorem categoryEvents_append (k : Uuid) (events l : List (Envelope Message)) :
    categoryEvents k (events ++ l) = categoryEvents k events ++ categoryEvents k l :=
  List.filter_append events l

/-- Nothing about category `k` happens. -/
theorem Described.aside (h : Described k past s) {op : Operation} {l : List (Outbox Message)}
    (hcategories : s'.categories.committed k = s.categories.committed k)
    (hvalues : s'.outbox.values = s.outbox.values ++ l)
    (hl : ∀ row ∈ l, row.payload.data.describes k = false) : Described k (past ++ [op]) s' := by
  have hevents : categoryEvents k s'.events = categoryEvents k s.events := by
    unfold Db.events
    rw [hvalues, List.map_append, categoryEvents_append]
    have hnone : categoryEvents k (l.map Outbox.payload) = [] := by
      refine List.filter_eq_nil_iff.mpr fun event hevent => ?_
      obtain ⟨row, hrow, rfl⟩ := List.mem_map.mp hevent
      simp [hl row hrow]
    rw [hnone, List.append_nil]
  unfold Described at h ⊢
  rw [hcategories, hevents]
  cases hk : s.categories.committed k with
  | none =>
      rw [hk] at h
      exact h
  | some category =>
      rw [hk] at h
      obtain ⟨⟨b, hb, hnow⟩, hstory⟩ := h
      exact ⟨⟨b, List.mem_append_left _ hb, hnow⟩, hstory⟩

/-- The events of a call on categories, and what it did to the rows. -/
theorem CategoryResult.events (hs : Rested schema w s) (hs' : Rested schema w' s')
    (h : CategoryResult a w w') : ∃ l, s'.outbox.values = s.outbox.values ++ l ∧
      ((l = [] ∧ w' = w) ∨ ∃ W x, l = [x] ∧ CategoryEffect a w W x ∧ w' = W.overlay w) := by
  rcases h with rfl | ⟨W, x, he, hw'⟩
  · refine ⟨[], ?_, .inl ⟨rfl, rfl⟩⟩
    rw [List.append_nil]
    exact hs.values_eq Column.outbox hs'
  · refine ⟨[x], ?_, .inr ⟨W, x, rfl, he, hw'⟩⟩
    refine hs.values_append Column.outbox hs' hw' ?_
    cases he with
    | created hk ho hx => exact .single ho
    | saved hk htenant hC ho hx => exact .single ho

/-- The event of a call on category `j` is one of category `k` exactly if `k = j`. -/
theorem categoryEvents_single {j o : Nat} {key : String} {tenant : Option Uuid}
    {category : ResourceCategory} {updatedAt : Time} {x : Outbox Message}
    (hx : x = outboxRow key tenant (categoryMessage j category updatedAt) o) :
    x.payload.data.describes k = (j == k) := by
  rw [hx]
  rfl

/-- An event that shows the row of its category stands at the end of the list. -/
theorem Described.shown {category : ResourceCategory} {x : Outbox Message} {op : Operation}
    (hcategory : s'.categories.committed k = some category)
    (hvalues : s'.outbox.values = s.outbox.values ++ [x])
    (hdescribes : x.payload.data.describes k = true)
    (hpast : ∃ b ∈ past ++ [op], category.updatedAt = b.now)
    (hstory : CategoryStory k category (categoryEvents k s.events ++ [x.payload])) :
    Described k (past ++ [op]) s' := by
  have hevents : categoryEvents k s'.events = categoryEvents k s.events ++ [x.payload] := by
    unfold Db.events
    rw [hvalues, List.map_append, categoryEvents_append]
    simp [categoryEvents, hdescribes]
  unfold Described
  rw [hcategory, hevents]
  exact ⟨hpast, hstory⟩

/-- A call on categories continues the story of each. -/
theorem Described.categoryStep (h : Described k past s) (hs : Rested schema w s)
    (hs' : Rested schema w' s') (hresult : CategoryResult a w w')
    (hclock : ∀ b ∈ past, b.now < a.now) : Described k (past ++ [.category a]) s' := by
  have hrows : s.categories.committed = w.categories := congrArg Rows.categories hs.rows
  have hrows' : s'.categories.committed = w'.categories := congrArg Rows.categories hs'.rows
  obtain ⟨l, hvalues, hresult⟩ := hresult.events hs hs'
  rcases hresult with ⟨rfl, rfl⟩ | ⟨W, x, rfl, he, rfl⟩
  · refine h.aside ?_ hvalues fun row hrow => by cases hrow
    rw [hrows, hrows']
  have hover : s'.categories.committed k = (W.categories k).or (w.categories k) :=
    congrFun hrows' k
  have hself : ∃ b ∈ past ++ [Operation.category a], a.now = b.now :=
    ⟨.category a, List.mem_append_right _ List.mem_cons_self, rfl⟩
  cases he with
  | @created tenant data now _ j o x hj ho hx =>
      have hdescribes : x.payload.data.describes k = (j == k) := categoryEvents_single hx
      change s'.categories.committed k = (single j (newCategory tenant data now) k).or _ at hover
      by_cases hkj : k = j
      · subst hkj
        rw [single_self] at hover
        have hnone : categoryEvents k s.events = [] := by
          unfold Described at h
          rw [hrows, hj.fresh] at h
          exact h
        have hshows : Shows k (newCategory tenant data now) x.payload := by
          rw [hx]
          rfl
        refine .shown hover hvalues (by simpa using hdescribes) hself ?_
        rw [hnone]
        refine .renewed (fun y hy => by cases hy) (fun y hy => by cases hy) ?_ hshows
        exact hshows.event (by rw [hx]; simp [outboxRow, buildEnvelope]) (by rw [hx]; rfl)
      · rw [single_of_ne _ hkj] at hover
        refine h.aside (hover.trans (congrFun hrows k).symm) hvalues fun row hrow => ?_
        rw [List.mem_singleton.mp hrow, hdescribes]
        simpa using Ne.symm hkj
  | @saved _ _ j o loaded category C x hj htenant hC ho hx =>
      have hdescribes : x.payload.data.describes k = (j == k) := categoryEvents_single hx
      change s'.categories.committed k = (C k).or _ at hover
      by_cases hkj : k = j
      · subst hkj
        have hshows : Shows k category x.payload := by
          rw [hx]
          rfl
        have hevent : CategoryEvent k category.tenantId x.payload := by
          refine hshows.event ?_ ?_
          · rw [hx]
            simp [outboxRow, buildEnvelope]
          · rw [hx, htenant]
            rfl
        unfold Described at h
        rw [hrows, hj] at h
        obtain ⟨⟨b, hb, hbnow⟩, hstory⟩ := h
        rcases hC with ⟨rfl, rfl⟩ | ⟨rfl, hnow⟩
        · -- The row was not written.
          refine .shown (hover.trans hj) hvalues (by simpa using hdescribes) ?_
            (hstory.repeated hevent hshows)
          exact ⟨b, List.mem_append_left _ hb, hbnow⟩
        · rw [single_self] at hover
          refine .shown hover hvalues (by simpa using hdescribes) (hnow ▸ hself)
            (.renewed (fun y hy => ?_) (fun y hy => ?_) hevent hshows)
          · rw [htenant]
            exact hstory.form y hy
          · refine lt_of_le_of_lt (hstory.newest y hy) (WithBot.coe_lt_coe.mpr ?_)
            rw [hbnow, hnow]
            exact hclock b hb
      · have hleft : C k = none := by
          rcases hC with ⟨rfl, -⟩ | ⟨rfl, -⟩
          · rfl
          · exact single_of_ne _ hkj
        rw [hleft] at hover
        refine h.aside (hover.trans (congrFun hrows k).symm) hvalues fun row hrow => ?_
        rw [List.mem_singleton.mp hrow, hdescribes]
        simpa using Ne.symm hkj

/-- The other calls neither write nor describe a category. -/
theorem Effect.leaves_categories {b : Call} {l : List (Outbox Message)} (h : Effect b w W l) :
    W.categories = noRows ∧ ∀ row ∈ l, row.payload.data.describes k = false := by
  cases h with
  | submitted hcategory htenant hstatus hfits hrequest hr ho hrow => simp [hrow]; exact ⟨rfl, rfl⟩
  | moved hallowed hnew hr ho hrow => simp [hrow]; exact ⟨rfl, rfl⟩
  | started hr htenant hvolunteer happroved ho hrow => simp [hrow]; exact ⟨rfl, rfl⟩
  | joined hr htenant hvolunteer hprogress ho hrow => simp [hrow]; exact ⟨rfl, rfl⟩
  | added hk ho hrow => simp [hrow]; exact ⟨rfl, rfl⟩
  | stocked ha hk halarm hrow hO hids =>
      refine ⟨rfl, fun row hmem => ?_⟩
      rcases List.mem_append.mp hmem with hmem | hmem
      · rw [halarm row hmem]
        rfl
      · rw [List.mem_singleton.mp hmem, hrow]
        rfl

theorem Described.step {op : Operation} (h : Described k past s) (hs : Rested schema w s)
    (hs' : Rested schema w' s') (hresult : op.Result w w')
    (hclock : ∀ b ∈ past, b.now < op.now) : Described k (past ++ [op]) s' := by
  cases op with
  | category a => exact h.categoryStep hs hs' hresult hclock
  | call b =>
      have hrows : s.categories.committed = w.categories := congrArg Rows.categories hs.rows
      have hrows' : s'.categories.committed = w'.categories := congrArg Rows.categories hs'.rows
      obtain ⟨l, hvalues, hcase⟩ := Result.events hs hs' hresult
      rcases hcase with ⟨rfl, rfl, -⟩ | ⟨W, he, rfl⟩
      · refine h.aside ?_ hvalues fun row hrow => by cases hrow
        rw [hrows, hrows']
      · obtain ⟨hleft, hl⟩ := he.leaves_categories (k := k)
        refine h.aside ?_ hvalues hl
        rw [hrows', hrows]
        show (W.categories k).or (w.categories k) = _
        rw [hleft]
        rfl

theorem CategoryResult.numbered (h : CategoryResult a w w') (hw : Numbered w.outbox) :
    Numbered w'.outbox := by
  rcases h with rfl | ⟨W, x, he, rfl⟩
  · exact hw
  · refine Numbered.overlay ?_ hw
    cases he with
    | created hk ho hx => exact .single (hx ▸ rfl)
    | saved hk htenant hC ho hx => exact .single (hx ▸ rfl)

theorem Operation.numbered_store {op : Operation} (h : op.Result w w') (hs : Rested schema w s)
    (hs' : Rested schema w' s') (hnum : Numbered s.outbox.committed) :
    Numbered s'.outbox.committed := by
  cases op with
  | category a =>
      have hout : s.outbox.committed = w.outbox := congrArg Rows.outbox hs.rows
      have hout' : s'.outbox.committed = w'.outbox := congrArg Rows.outbox hs'.rows
      rw [hout']
      exact CategoryResult.numbered h (hout ▸ hnum)
  | call b => exact Result.numbered_store h hs hs' hnum

end Steps

/-- What holds after operations made one after the other at growing times. -/
theorem category_history (validatePayload : Option (List Json) → Option Object →
      Except FormErrors (Option Object)) (replicas : List UserReplica) (l : List Operation)
    (hclock : (l.map Operation.now).Pairwise (· < ·)) :
    ∃ w s, calls (Operation.body validatePayload) l 0 (Db.initial [] replicas) = some s ∧
      Rested schema w s ∧ Numbered s.outbox.committed ∧ ∀ k, Described k l s := by
  let J : List Operation → Db → Prop := fun past s => Numbered s.outbox.committed ∧
    ((past.map Operation.now).Pairwise (· < ·) → ∀ k, Described k past s)
  have hstep : ∀ past a w w' s s', Rested schema w s → Rested schema w' s' →
      Operation.Result a w w' → J past s → J (past ++ [a]) s' := by
    intro past a w w' s s' hs hs' hresult hJ
    obtain ⟨hnum, hdescribed⟩ := hJ
    refine ⟨Operation.numbered_store hresult hs hs' hnum, fun hpast k => ?_⟩
    rw [List.map_append, List.pairwise_append] at hpast
    refine (hdescribed hpast.1 k).step hs hs' hresult fun b hb => ?_
    exact hpast.2.2 b.now (List.mem_map.mpr ⟨b, hb, rfl⟩) a.now List.mem_cons_self
  have hstart : J [] (Db.initial [] replicas) := ⟨Numbered.nothing, fun _ _ => rfl⟩
  obtain ⟨w, s, hcalls, hs, hnum, hdescribed⟩ := (operations_lead validatePayload).history hstep
    (initial_rested [] replicas) hstart l 0
  exact ⟨w, s, hcalls, hs, hnum, hdescribed hclock⟩

end Logistics
end Rcp
