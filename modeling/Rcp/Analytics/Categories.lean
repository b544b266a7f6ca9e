/-
The projection of a category.

The consumer keeps the event with the newest stamp, and all events with the stamp of
the committed row show that row.  So the projection ends with it, whatever the order
of the deliveries.
-/
import Rcp.Analytics.Consumer
import Rcp.Logistics.CategoryHistory

namespace Rcp
namespace Analytics

open Sql Delivery
open Logistics (Message ResourceCategory CategoryEvent Shows Operation Db FormErrors)

/-- The row that an event about a category writes. -/
def categoryRow? (event : Envelope Message) : Option CategoryProjection :=
  match event.tenantId, event.data with
  | some tenantId, .resourceCategory _ name description unit isActive updatedAt =>
      some (categoryRow tenantId name description unit isActive updatedAt)
  | _, _ => none

/-- The projection shows the category. -/
structure Reflects (row : CategoryProjection) (category : ResourceCategory) : Prop where
  name : row.name = category.name
  description : row.description = category.description
  unit : row.unit = category.unit
  isActive : row.isActive = category.isActive
  updatedAt : row.updatedAt = some category.updatedAt

section Deliveries

variable {k tenantId : Uuid} {e : Envelope Message}

/-- An event of the category is an upsert of one row. -/
theorem CategoryEvent.row (h : CategoryEvent k tenantId e) :
    ∃ (row : CategoryProjection) (stamp : Time),
      categoryRow? e = some row ∧ row.tenantId = tenantId ∧ row.updatedAt = some stamp ∧
      e.data.stamp = stamp ∧
      ∀ rows, (∀ old, rows.categories k = some old → old.tenantId = tenantId) →
        applyEnvelope e rows =
          match rows.categories k with
          | none => .ok { rows with categories := Function.update rows.categories k (some row) }
          | some old => if isStale old.updatedAt row.updatedAt then .ok rows
              else .ok
                { rows with categories := Function.update rows.categories k (some row) } := by
  obtain ⟨htype, htenant, name, description, unit, isActive, updatedAt, hdata⟩ := h
  refine ⟨categoryRow tenantId name description unit isActive updatedAt, updatedAt, ?_, rfl, rfl,
    ?_, fun rows hold => ?_⟩
  · unfold categoryRow?
    rw [htenant, hdata]
  · rw [hdata]
    rfl
  · have happly : applyEnvelope e rows =
        .ok (upsertCategory tenantId k name description unit isActive updatedAt rows) := by
      unfold applyEnvelope applyEvent
      rw [htenant]
      refine (if_pos htype).trans ?_
      rw [hdata]
      rfl
    rw [happly]
    unfold upsertCategory
    cases hrow : rows.categories k with
    | none => rfl
    | some old =>
        simp only [categoryRow, hold old hrow]
        by_cases hstale : isStale old.updatedAt (some updatedAt) = true
        · rw [if_pos hstale]
          exact (if_pos hstale).symm
        · rw [if_neg hstale]
          exact (if_neg hstale).symm

/-- The consumer of the events of one category. -/
theorem category_upserts {A : Envelope Message → Prop}
    (hform : ∀ e, A e → CategoryEvent k tenantId e) :
    Inbox.Upserts A (fun _ => True) (fun e => e.data.stamp) categoryRow? applyEnvelope
      (fun rows => rows.categories k)
      (fun rows => ∀ old, rows.categories k = some old → old.tenantId = tenantId) where
  keep := by
    intro e rows rows' hrows he happly
    obtain ⟨row, stamp, -, htenant, -, -, hupsert⟩ := CategoryEvent.row (hform e he)
    rw [hupsert rows hrows] at happly
    have hwritten : ∀ old, Function.update rows.categories k (some row) k = some old →
        old.tenantId = tenantId := by
      intro old hold
      rw [Function.update_self] at hold
      cases hold
      exact htenant
    split at happly
    · cases happly
      exact hwritten
    · split at happly
      · cases happly
        exact hrows
      · cases happly
        exact hwritten
  refused := fun _ _ _ _ _ h => absurd trivial h
  first := by
    intro e rows hrows he _ hnone
    obtain ⟨row, stamp, hrow, -, -, -, hupsert⟩ := CategoryEvent.row (hform e he)
    refine ⟨{ rows with categories := Function.update rows.categories k (some row) }, ?_, ?_⟩
    · rw [hupsert rows hrows, hnone]
    · rw [hrow]
      exact Function.update_self ..
  overwrites := by
    intro e x rows hrows he _ hx hxrow
    obtain ⟨row, stamp, hrow, -, hat, hstamp, hupsert⟩ := CategoryEvent.row (hform e he)
    obtain ⟨old, stamp', hold, -, hat', hstamp', -⟩ := CategoryEvent.row (hform x hx)
    rw [hold] at hxrow
    refine upsert_stored (fun rows => rows.categories k)
      { rows with categories := Function.update rows.categories k (some row) }
      hstamp hstamp' ?_ ?_
    · rw [hupsert rows hrows, hxrow, ← hat, ← hat']
    · rw [hrow]
      exact Function.update_self ..
  accepts := by
    intro e rows hrows he _
    obtain ⟨row, stamp, -, -, -, -, hupsert⟩ := CategoryEvent.row (hform e he)
    rw [hupsert rows hrows]
    split
    · exact ⟨_, rfl⟩
    · split
      · exact ⟨_, rfl⟩
      · exact ⟨_, rfl⟩

/-- What an event that shows the category writes. -/
theorem Shows.reflects {category : ResourceCategory} (h : Shows k category e)
    {row : CategoryProjection} (hrow : categoryRow? e = some row) : Reflects row category := by
  unfold Shows at h
  unfold categoryRow? at hrow
  rw [h] at hrow
  cases htenant : e.tenantId with
  | none =>
      rw [htenant] at hrow
      cases hrow
  | some tenant =>
      rw [htenant] at hrow
      cases hrow
      exact ⟨rfl, rfl, rfl, rfl, rfl⟩

end Deliveries

/-- After any operations made one after the other at growing times, and after any deliveries
of all events of a category, the projection shows the category. -/
theorem category_converges (validatePayload : Option (List Json) → Option Object →
      Except FormErrors (Option Object)) (replicas : List Logistics.UserReplica)
    (l : List Operation) (hclock : (l.map Operation.now).Pairwise (· < ·)) :
    ∃ s, calls (Operation.body validatePayload) l 0 (Db.initial [] replicas) = some s ∧
      ∀ k category, s.categories.committed k = some category →
        ∀ (p : Inbox Projections) (d : List (Envelope Message)),
          p.rows.categories k = none →
          (∀ e ∈ Logistics.categoryEvents k s.events, e.eventId ∉ p.processed) →
          (∀ e, e ∈ d ↔ e ∈ Logistics.categoryEvents k s.events) →
          ∃ row, (d.foldl deliver p).rows.categories k = some row ∧ Reflects row category := by
  obtain ⟨w, s, hcalls, hs, hnum, hdescribed⟩ :=
    Logistics.category_history validatePayload replicas l hclock
  refine ⟨s, hcalls, fun k category hk p d hnone hnew hd => ?_⟩
  have hdescribed := hdescribed k
  unfold Logistics.Described at hdescribed
  rw [hk] at hdescribed
  obtain ⟨-, hstory⟩ := hdescribed
  have hmem : ∀ x ∈ Logistics.categoryEvents k s.events, x ∈ s.events :=
    fun x hx => (List.mem_filter.mp hx).1
  have hids : ∀ x y, x ∈ Logistics.categoryEvents k s.events →
      y ∈ Logistics.categoryEvents k s.events → x.eventId = y.eventId → x = y :=
    fun x y hx hy => Logistics.event_eq_of_id hnum (hmem x hx) (hmem y hy)
  have hwriter := (category_upserts hstory.form).lastWriter hids
    fun p e he => deliver_eq (by rw [(hstory.form e he).2.1]; rfl) p
  have hstart : ∀ old, p.rows.categories k = some old → old.tenantId = category.tenantId := by
    intro old hold
    rw [hnone] at hold
    cases hold
  have hreached := hwriter.reached hstart hnone (fun x hx _ => hnew x hx) d
    fun x hx => (hd x).mp hx
  obtain ⟨f, hf, hshows⟩ := hstory.shown
  rcases hreached.row with ⟨e, he, hlead, hrow⟩ | ⟨hrefused, -⟩
  · have hnewest : e.data.stamp = category.updatedAt := by
      refine le_antisymm (hstory.newest e he) ?_
      rw [← hshows.stamp]
      exact hlead.newest f ((hd f).mpr hf) trivial
    obtain ⟨row, stamp, hcontent, -⟩ := CategoryEvent.row (hstory.form e he)
    refine ⟨row, hrow.trans hcontent, ?_⟩
    exact Shows.reflects (hstory.fresh e he hnewest) hcontent
  · exact absurd trivial (hrefused f ((hd f).mpr hf))

/-- A category is created, renamed, written as it is, and retired twice. -/
def blanketCalls : List Operation :=
  [.category (.createCategory (some 1)
      { name := "Blankets", accepted := Logistics.Workflow.accepted_none } 0),
    .category (.updateCategory (some 1) 0
      { name := some (some "Warm blankets"), description := some (some "Wool")
        accepted := fun _ h => by cases h } 1),
    .category (.updateCategory (some 1) 0
      { unit := some (some "unit"), accepted := fun _ h => by cases h } 2),
    .category (.deactivateCategory (some 1) 0 3), .category (.deactivateCategory (some 1) 0 4)]

/-- All events of category 0, the last one first, and then all again. -/
def categoryBackwards (s : Db) : List (Envelope Message) :=
  (Logistics.categoryEvents 0 s.events).reverse ++ Logistics.categoryEvents 0 s.events

theorem category_converges_blankets : ∃ s category row,
    calls (Operation.body fun _ fields => .ok fields) blanketCalls 0 (Db.initial [] []) = some s ∧
    s.categories.committed 0 = some category ∧ s.events.length = 4 ∧
    ((categoryBackwards s).foldl deliver newInbox).rows.categories 0 = some row ∧
    Reflects row category := by
  obtain ⟨s, hcalls, hconverges⟩ :=
    category_converges (fun _ fields => .ok fields) [] blanketCalls (by decide)
  have hfacts : (calls (Operation.body fun _ fields => .ok fields) blanketCalls 0
      (Db.initial [] [])).map (fun s =>
        ((s.categories.committed 0).isSome, s.events.length)) = some (true, 4) := by
    decide +kernel
  rw [hcalls] at hfacts
  simp only [Option.map_some, Option.some.injEq, Prod.mk.injEq] at hfacts
  obtain ⟨hsome, hlength⟩ := hfacts
  obtain ⟨category, hcategory⟩ := Option.isSome_iff_exists.mp hsome
  obtain ⟨row, hrow, hreflects⟩ := hconverges 0 category hcategory newInbox (categoryBackwards s)
    rfl
    (fun _ _ h => by cases h) fun e => by simp [categoryBackwards]
  exact ⟨s, category, row, hcalls, hcategory, hlength, hrow, hreflects⟩

end Analytics
end Rcp
