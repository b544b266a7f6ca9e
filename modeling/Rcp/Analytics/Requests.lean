/-
The projection of a help request.

One upsert serves the submission and the status changes and fills in a default for
each key an event does not carry.  A status change carries no urgency, so it resets
the urgency of the projection to `medium`.
-/
import Rcp.Analytics.Consumer
import Rcp.Logistics.RequestHistory

namespace Rcp
namespace Analytics

open Sql Delivery
open Logistics (Message HelpRequest Call Db FormErrors FitsInteger submission statusChange)

/-- The row that an event about a request writes. -/
def requestRow? (event : Envelope Message) : Option RequestProjection :=
  match event.tenantId, requestData? event.data with
  | some tenantId, some data => some (data.row tenantId)
  | _, _ => none

/-- The projection shows the request. -/
structure Mirrors (row : RequestProjection) (request : HelpRequest) : Prop where
  tenantId : row.tenantId = request.tenantId
  categoryId : row.categoryId = request.categoryId
  quantityNeeded : row.quantityNeeded = request.quantityNeeded
  status : row.status = request.status.value
  urgency : row.urgency = request.urgency.value

/-- The consumer writes `row` for an event of the request. -/
structure RequestUpsert (r : Uuid) (request : HelpRequest) (event : Envelope Message)
    (row : RequestProjection) : Prop where
  content : requestRow? event = some row
  tenantId : row.tenantId = request.tenantId
  categoryId : row.categoryId = request.categoryId
  quantityNeeded : row.quantityNeeded = request.quantityNeeded
  status : ∀ known status, event.data.follow r (some known) = some status →
    row.status = status.value
  stamp : ∃ stamp : Time, row.updatedAt = some stamp ∧ event.data.stamp = stamp
  applied : ∀ rows, applyEnvelope event rows =
    match rows.requests r with
    | none => flushRequest r row rows
    | some old => if isStale old.updatedAt row.updatedAt then .ok rows
        else flushRequest r row rows

section Deliveries

variable {r : Uuid} {request : HelpRequest} {e : Envelope Message}

theorem submission_upsert (h : submission r request e) :
    ∃ row, RequestUpsert r request e row ∧ row.urgency = request.urgency.value := by
  obtain ⟨htype, htenant, area, status, updatedAt, hdata⟩ := h
  let data : RequestData :=
    { requestId := r
      categoryId := request.categoryId
      quantityNeeded := some request.quantityNeeded
      status := some status.value
      urgency := some request.urgency.value
      updatedAt := some updatedAt }
  refine ⟨data.row request.tenantId, ⟨?_, rfl, rfl, rfl, fun known st hst => ?_,
    ⟨updatedAt, rfl, ?_⟩, fun rows => ?_⟩, rfl⟩
  · unfold requestRow?
    rw [htenant, hdata]
    rfl
  · have hsame : status = st := by
      rw [hdata] at hst
      simpa [Message.follow] using hst
    rw [← hsame]
    rfl
  · rw [hdata]
    rfl
  · unfold applyEnvelope
    rw [htenant]
    unfold applyEvent
    rw [htype, hdata]
    rfl

theorem statusChange_upsert (h : statusChange r request e) :
    ∃ row, RequestUpsert r request e row ∧ row.urgency = "medium" := by
  obtain ⟨htype, htenant, old, new, requester, changedBy, updatedAt, hdata⟩ := h
  let data : RequestData :=
    { requestId := r
      categoryId := request.categoryId
      quantityNeeded := some request.quantityNeeded
      status := some new.value
      updatedAt := some updatedAt }
  refine ⟨data.row request.tenantId, ⟨?_, rfl, rfl, rfl, fun known st hst => ?_,
    ⟨updatedAt, rfl, ?_⟩, fun rows => ?_⟩, rfl⟩
  · unfold requestRow?
    rw [htenant, hdata]
    rfl
  · have hsame : new = st := by
      rw [hdata] at hst
      simpa [Message.follow] using hst
    rw [← hsame]
    rfl
  · rw [hdata]
    rfl
  · unfold applyEnvelope
    rw [htenant]
    unfold applyEvent
    rw [htype, hdata]
    rfl

theorem request_upsert (h : submission r request e ∨ statusChange r request e) :
    ∃ row, RequestUpsert r request e row := by
  rcases h with h | h
  · obtain ⟨row, hrow, -⟩ := submission_upsert h
    exact ⟨row, hrow⟩
  · obtain ⟨row, hrow, -⟩ := statusChange_upsert h
    exact ⟨row, hrow⟩

theorem flushRequest_ok {row : RequestProjection} (hfits : FitsInteger row.quantityNeeded)
    (rows : Projections) : flushRequest r row rows =
      .ok { rows with requests := Function.update rows.requests r (some row) } := by
  unfold flushRequest
  rw [if_neg (not_not.mpr hfits)]

/-- The consumer of the events of one request. -/
theorem request_upserts {A : Envelope Message → Prop}
    (hform : ∀ e, A e → submission r request e ∨ statusChange r request e)
    (hfits : FitsInteger request.quantityNeeded) :
    Inbox.Upserts A (fun _ => True) (fun e => e.data.stamp) requestRow? applyEnvelope
      (fun rows => rows.requests r) (fun _ => True) where
  keep := fun _ _ _ _ _ _ => trivial
  refused := fun _ _ _ _ _ h => absurd trivial h
  first := by
    intro e rows _ he _ hnone
    obtain ⟨row, hrow⟩ := request_upsert (hform e he)
    refine ⟨{ rows with requests := Function.update rows.requests r (some row) }, ?_, ?_⟩
    · rw [hrow.applied, hnone]
      exact flushRequest_ok (hrow.quantityNeeded ▸ hfits) rows
    · rw [hrow.content]
      exact Function.update_self ..
  overwrites := by
    intro e x rows _ he _ hx hxrow
    obtain ⟨row, hrow⟩ := request_upsert (hform e he)
    obtain ⟨old, hold⟩ := request_upsert (hform x hx)
    obtain ⟨stamp, hat, hstamp⟩ := hrow.stamp
    obtain ⟨stamp', hat', hstamp'⟩ := hold.stamp
    rw [hold.content] at hxrow
    refine upsert_stored (fun rows => rows.requests r)
      { rows with requests := Function.update rows.requests r (some row) }
      hstamp hstamp' ?_ ?_
    · rw [hrow.applied, hxrow, ← hat, ← hat',
        ← flushRequest_ok (hrow.quantityNeeded ▸ hfits) rows]
    · rw [hrow.content]
      exact Function.update_self ..
  accepts := by
    intro e rows _ he _
    obtain ⟨row, hrow⟩ := request_upsert (hform e he)
    have hflush := flushRequest_ok (r := r) (hrow.quantityNeeded ▸ hfits) rows
    rw [hrow.applied]
    split
    · exact ⟨_, hflush⟩
    · split
      · exact ⟨_, rfl⟩
      · exact ⟨_, hflush⟩

end Deliveries

/-! ## Histories -/

/-- The last of the events leads if the stamps grow. -/
theorem leader_eq_last {E : List (Envelope Message)} {e f : Envelope Message}
    (h : Leader (fun _ => True) (fun x : Envelope Message => x.data.stamp) (E ++ [f]) e)
    (hstamps : ((E ++ [f]).map fun x => x.data.stamp).Pairwise (· < ·)) : e = f := by
  rcases List.mem_append.mp h.mem with he | he
  · rw [List.map_append, List.pairwise_append] at hstamps
    have hlt : e.data.stamp < f.data.stamp :=
      hstamps.2.2 _ (List.mem_map.mpr ⟨e, he, rfl⟩) _ List.mem_cons_self
    have hle := h.newest f (List.mem_append_right _ List.mem_cons_self) trivial
    exact absurd hlt (not_lt.mpr hle)
  · exact List.mem_singleton.mp he

theorem urgency_medium {urgency : Logistics.UrgencyLevel} (h : "medium" = urgency.value) :
    urgency = .medium := by
  cases urgency with
  | medium => rfl
  | low | high | critical => exact absurd h (by decide)

/-- After any calls of `create_request` and `change_status`, and after the events of a
request were handled once each in the order of the outbox, the projection shows the request
exactly if its urgency is `medium` or its status never changed. -/
theorem request_mirrored_iff (validatePayload : Option (List Json) → Option Object →
      Except FormErrors (Option Object)) (categories : List Logistics.ResourceCategory)
    (replicas : List Logistics.UserReplica) (l : List Call)
    (hl : ∀ a ∈ l, a.lifecycle = true) :
    ∃ s, calls (Call.body validatePayload) l 0 (Db.initial categories replicas) = some s ∧
      ∀ r request, s.requests.committed r = some request →
        ((Logistics.requestEvents r s.events).map fun x => x.data.stamp).Pairwise (· < ·) →
        ∀ p : Inbox Projections, p.rows.requests r = none →
          (∀ e ∈ Logistics.requestEvents r s.events, e.eventId ∉ p.processed) →
          ((∃ row, ((Logistics.requestEvents r s.events).foldl deliver p).rows.requests r =
              some row ∧ Mirrors row request) ↔
            request.urgency = .medium ∨ ∀ e ∈ Logistics.requestEvents r s.events,
              e.eventType ≠ "logistics.request.status-changed") := by
  obtain ⟨w, s, hcalls, hs, hnum, hrecounted⟩ :=
    Logistics.request_history validatePayload categories replicas l hl
  refine ⟨s, hcalls, fun r request hr hstamps p hnone hnew => ?_⟩
  have hrecounted := hrecounted r
  unfold Logistics.Recounted at hrecounted
  rw [hr] at hrecounted
  obtain ⟨E, f, hE, hstory⟩ := hrecounted
  have hmem : ∀ x ∈ E ++ [f], x ∈ s.events := by
    intro x hx
    rw [← hE] at hx
    exact (List.mem_filter.mp hx).1
  rw [hE] at hstamps hnew ⊢
  have hids : ∀ x y, x ∈ E ++ [f] → y ∈ E ++ [f] → x.eventId = y.eventId → x = y :=
    fun x y hx hy => Logistics.event_eq_of_id hnum (hmem x hx) (hmem y hy)
  have htenant : ∀ e ∈ E ++ [f], e.tenantId.isSome = true := by
    intro e he
    rcases hstory.form e he with h | h
    · rw [h.2.1]
      rfl
    · rw [h.2.1]
      rfl
  have hwriter := (request_upserts (A := fun e => e ∈ E ++ [f]) hstory.form
    hstory.fits).lastWriter hids fun p e he => deliver_eq (htenant e he) p
  have hreached := hwriter.reached (s := p) trivial hnone (fun x hx _ => hnew x hx) (E ++ [f])
    fun x hx => hx
  have hf : f ∈ E ++ [f] := List.mem_append_right _ List.mem_cons_self
  rcases hreached.row with ⟨e, he, hlead, hrow⟩ | ⟨hrefused, -⟩
  · have hef := leader_eq_last hlead hstamps
    subst hef
    rcases hstory.form e hf with hform | hform
    · obtain ⟨row, hupsert, hurgency⟩ := submission_upsert hform
      have hempty : E = [] := hstory.first hform
      refine iff_of_true ⟨row, hrow.trans hupsert.content, ?_⟩ (.inr fun x hx => ?_)
      · exact ⟨hupsert.tenantId, hupsert.categoryId, hupsert.quantityNeeded,
          hupsert.status _ _ hstory.shown, hurgency⟩
      · rw [hempty] at hx
        rw [List.mem_singleton.mp hx, hform.1]
        decide
    · obtain ⟨row, hupsert, hurgency⟩ := statusChange_upsert hform
      have hchanged : ¬ ∀ x ∈ E ++ [e], x.eventType ≠ "logistics.request.status-changed" :=
        fun h => h e hf hform.1
      constructor
      · rintro ⟨row', hrow', hmirrors⟩
        rw [hrow, hupsert.content] at hrow'
        cases hrow'
        exact .inl (urgency_medium (hurgency.symm.trans hmirrors.urgency))
      · intro h
        have hmedium : request.urgency = .medium := h.resolve_right hchanged
        refine ⟨row, hrow.trans hupsert.content, ?_⟩
        refine ⟨hupsert.tenantId, hupsert.categoryId, hupsert.quantityNeeded,
          hupsert.status _ _ hstory.shown, ?_⟩
        rw [hurgency, hmedium]
        rfl
  · exact absurd trivial (hrefused f hf)

/-- A request is submitted and verified. -/
def verifiedRequest (urgency : Logistics.UrgencyLevel) : List Call :=
  [.createRequest Logistics.coordinator { Logistics.parcel with urgency := urgency } 0,
    .updateStatus 0 .verified Logistics.coordinator 1]

/-- The consumer handles all events of request 0 in the order of the outbox. -/
def requestMirror (s : Db) : Option RequestProjection :=
  ((Logistics.requestEvents 0 s.events).foldl deliver { rows := {} }).rows.requests 0

theorem request_mirrored_medium : ∃ s request row,
    calls (Call.body fun _ fields => .ok fields) (verifiedRequest .medium) 0
      (Db.initial [Logistics.foodBank none Logistics.Workflow.accepted_none] []) = some s ∧
    s.requests.committed 0 = some request ∧ requestMirror s = some row ∧
    Mirrors row request := by
  obtain ⟨s, hcalls, hmirrored⟩ := request_mirrored_iff (fun _ fields => .ok fields)
    [Logistics.foodBank none Logistics.Workflow.accepted_none] [] (verifiedRequest .medium)
    (by decide)
  have hfacts : (calls (Call.body fun _ fields => .ok fields) (verifiedRequest .medium) 0
      (Db.initial [Logistics.foodBank none Logistics.Workflow.accepted_none] [])).map (fun s =>
        ((s.requests.committed 0).map fun request => request.urgency,
          decide (((Logistics.requestEvents 0 s.events).map fun x => x.data.stamp).Pairwise
            (· < ·)))) = some (some .medium, true) := by
    decide +kernel
  rw [hcalls] at hfacts
  simp only [Option.map_some, Option.some.injEq, Prod.mk.injEq, Option.map_eq_some_iff,
    decide_eq_true_eq] at hfacts
  obtain ⟨⟨request, hrequest, hmedium⟩, hstamps⟩ := hfacts
  have hrow := (hmirrored 0 request hrequest hstamps { rows := {} } rfl
    (fun _ _ h => by cases h)).mpr (.inl hmedium)
  obtain ⟨row, hrow, hmirrors⟩ := hrow
  exact ⟨s, request, row, hcalls, hrequest, hrow, hmirrors⟩

/-- A critical request is verified, and the projection shows it as a medium one. -/
theorem urgency_overwritten : ¬ ∀ (l : List Call) (s : Db) (r : Uuid) (request : HelpRequest)
    (p : Inbox Projections),
    (∀ a ∈ l, a.lifecycle = true) →
    calls (Call.body fun _ fields => .ok fields) l 0
      (Db.initial [Logistics.foodBank none Logistics.Workflow.accepted_none] []) = some s →
    s.requests.committed r = some request →
    ((Logistics.requestEvents r s.events).map fun x => x.data.stamp).Pairwise (· < ·) →
    p.rows.requests r = none →
    (∀ e ∈ Logistics.requestEvents r s.events, e.eventId ∉ p.processed) →
    ∃ row, ((Logistics.requestEvents r s.events).foldl deliver p).rows.requests r = some row ∧
      Mirrors row request := by
  intro hclaim
  have hfacts : (calls (Call.body fun _ fields => .ok fields) (verifiedRequest .critical) 0
      (Db.initial [Logistics.foodBank none Logistics.Workflow.accepted_none] [])).map (fun s =>
        ((s.requests.committed 0).map fun request => request.urgency.value,
          (requestMirror s).map fun row => row.urgency,
          decide (((Logistics.requestEvents 0 s.events).map fun x => x.data.stamp).Pairwise
            (· < ·)))) = some (some "critical", some "medium", true) := by
    decide +kernel
  obtain ⟨s, hcalls, hfacts⟩ := Option.map_eq_some_iff.mp hfacts
  simp only [Prod.mk.injEq, Option.map_eq_some_iff, decide_eq_true_eq] at hfacts
  obtain ⟨⟨request, hrequest, hcritical⟩, ⟨row, hrow, hmedium⟩, hstamps⟩ := hfacts
  obtain ⟨row', hrow', hmirrors⟩ := hclaim (verifiedRequest .critical) s 0 request { rows := {} }
    (by decide) hcalls hrequest hstamps rfl fun _ _ h => by cases h
  have hsame : row = row' := by
    unfold requestMirror at hrow
    rw [hrow] at hrow'
    exact Option.some.inj hrow'
  have hurgency := hmirrors.urgency
  rw [← hsame, hmedium, hcritical] at hurgency
  exact absurd hurgency (by decide)

end Analytics
end Rcp
