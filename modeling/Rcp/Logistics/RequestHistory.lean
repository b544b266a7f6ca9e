/-
The events of one help request.

As long as only `create_request` and `change_status` are called, a request is
submitted once and the last of its events tells its status.  All of them name its
tenant, its category and its quantity.  Only the submission names the urgency.
-/
import Rcp.Logistics.Announce
import Rcp.Logistics.ItemHistory

namespace Rcp
namespace Logistics

open Sql Sql.Table

/-- The calls that move a request and nothing else. -/
def Call.lifecycle : Call → Bool
  | createRequest .. => true
  | updateStatus .. => true
  | assignTask .. | addInventoryItem .. | reserveStock .. | releaseStock .. => false

def Message.tells (r : Uuid) : Message → Bool
  | requestSubmitted requestId .. => requestId == r
  | requestStatusChanged requestId .. => requestId == r
  | taskAssigned .. | itemUpdated .. | lowStock .. | resourceCategory .. => false

/-- The submission of request `r` and its status changes. -/
def requestEvents (r : Uuid) (events : List (Envelope Message)) : List (Envelope Message) :=
  events.filter fun event => event.data.tells r

def submission (r : Uuid) (request : HelpRequest) (x : Envelope Message) : Prop :=
  x.eventType = "logistics.request.submitted" ∧ x.tenantId = some request.tenantId ∧
    ∃ area status updatedAt, x.data = .requestSubmitted r request.categoryId request.urgency
      request.quantityNeeded area status updatedAt

def statusChange (r : Uuid) (request : HelpRequest) (x : Envelope Message) : Prop :=
  x.eventType = "logistics.request.status-changed" ∧ x.tenantId = some request.tenantId ∧
    ∃ old new requester changedBy updatedAt, x.data = .requestStatusChanged r
      request.categoryId request.quantityNeeded old new requester changedBy updatedAt

/-- What the events `E` and the last one `f` tell of the request. -/
structure RequestStory (r : Uuid) (request : HelpRequest) (E : List (Envelope Message))
    (f : Envelope Message) : Prop where
  form : ∀ x ∈ E ++ [f], submission r request x ∨ statusChange r request x
  shown : f.data.follow r (some request.status) = some request.status
  /-- The submission comes first. -/
  first : submission r request f → E = []
  fits : FitsInteger request.quantityNeeded

def Recounted (r : Uuid) (s : Db) : Prop :=
  match s.requests.committed r with
  | none => requestEvents r s.events = []
  | some request => ∃ E f, requestEvents r s.events = E ++ [f] ∧ RequestStory r request E f

section Steps

variable {a : Call} {r : Nat} {w w' : Rows} {s s' : Db}

theorem requestEvents_append (r : Uuid) (events l : List (Envelope Message)) :
    requestEvents r (events ++ l) = requestEvents r events ++ requestEvents r l :=
  List.filter_append events l

theorem applyStatus_kept (newStatus : RequestStatus) (principal : Principal) (now : Time)
    (request : HelpRequest) :
    (applyStatus newStatus principal now request).urgency = request.urgency ∧
      (applyStatus newStatus principal now request).quantityNeeded = request.quantityNeeded := by
  cases newStatus <;> exact ⟨rfl, rfl⟩

/-- Nothing about request `r` happens. -/
theorem Recounted.aside (h : Recounted r s) {row : Outbox Message}
    (hrequests : s'.requests.committed r = s.requests.committed r)
    (hvalues : s'.outbox.values = s.outbox.values ++ [row])
    (hrow : row.payload.data.tells r = false) : Recounted r s' := by
  have hevents : requestEvents r s'.events = requestEvents r s.events := by
    unfold Db.events
    rw [hvalues, List.map_append, requestEvents_append]
    simp [requestEvents, hrow]
  unfold Recounted at h ⊢
  rw [hrequests, hevents]
  exact h

theorem Recounted.submitted {request : HelpRequest} {row : Outbox Message} {o : Nat}
    (h : Recounted r s) (hnone : s.requests.committed r = none)
    (hrequests : s'.requests.committed r = some request)
    (hvalues : s'.outbox.values = s.outbox.values ++ [row])
    (hrow : row = outboxRow "logistics.request.submitted" (some request.tenantId)
      (submittedMessage r request) o) (hfits : FitsInteger request.quantityNeeded) :
    Recounted r s' := by
  have hevents : requestEvents r s'.events = [] ++ [row.payload] := by
    unfold Db.events
    rw [hvalues, List.map_append, requestEvents_append]
    unfold Recounted at h
    rw [hnone] at h
    have hold : requestEvents r (s.outbox.values.map Outbox.payload) = [] := h
    rw [hold, hrow]
    simp [requestEvents, outboxRow, buildEnvelope, submittedMessage, Message.tells]
  unfold Recounted
  rw [hrequests]
  refine ⟨[], row.payload, hevents, fun x hx => ?_, ?_, fun _ => rfl, hfits⟩
  · left
    have hxf : x = row.payload := List.mem_singleton.mp hx
    rw [hxf, hrow]
    exact ⟨rfl, rfl, _, _, _, rfl⟩
  · rw [hrow]
    show (if r = r then some request.status else _) = _
    rw [if_pos rfl]

theorem Recounted.moved {request : HelpRequest} {newStatus : RequestStatus}
    {principal : Principal} {now : Time} {row : Outbox Message} {o : Nat} (h : Recounted r s)
    (hold : s.requests.committed r = some request)
    (hrequests : s'.requests.committed r = some (applyStatus newStatus principal now request))
    (hvalues : s'.outbox.values = s.outbox.values ++ [row])
    (hrow : row = outboxRow "logistics.request.status-changed" (some request.tenantId)
      (statusChangedMessage r request newStatus principal now) o) : Recounted r s' := by
  unfold Recounted at h ⊢
  rw [hold] at h
  obtain ⟨E, f, hE, hstory⟩ := h
  obtain ⟨hurgency, hquantity⟩ := applyStatus_kept newStatus principal now request
  have hevents : requestEvents r s'.events = (E ++ [f]) ++ [row.payload] := by
    unfold Db.events
    rw [hvalues, List.map_append, requestEvents_append]
    have hE' : requestEvents r (s.outbox.values.map Outbox.payload) = E ++ [f] := hE
    rw [hE', hrow]
    simp [requestEvents, outboxRow, buildEnvelope, statusChangedMessage, Message.tells]
  rw [hrequests]
  refine ⟨E ++ [f], row.payload, hevents, fun x hx => ?_, ?_, fun hsubmitted => ?_, ?_⟩
  · unfold submission statusChange
    rw [applyStatus_tenantId, applyStatus_categoryId, hurgency, hquantity]
    rcases List.mem_append.mp hx with hx | hx
    · exact hstory.form x hx
    · right
      rw [List.mem_singleton.mp hx, hrow]
      exact ⟨rfl, rfl, _, _, _, _, _, rfl⟩
  · rw [hrow]
    show (if r = r then (some _).map (fun _ => newStatus) else _) = _
    rw [if_pos rfl, applyStatus_status]
    rfl
  · have htype := hsubmitted.1
    rw [hrow] at htype
    simp [outboxRow, buildEnvelope] at htype
  · rw [hquantity]
    exact hstory.fits

/-- A call of the lifecycle continues the story of every request. -/
theorem Recounted.step (h : Recounted r s) (hs : Rested schema w s) (hs' : Rested schema w' s')
    (hresult : Result a w w') (ha : a.lifecycle = true) : Recounted r s' := by
  have hrequests : s.requests.committed = w.requests := congrArg Rows.requests hs.rows
  have hrequests' : s'.requests.committed = w'.requests := congrArg Rows.requests hs'.rows
  obtain ⟨l, hvalues, hresult⟩ := hresult.events hs hs'
  rcases hresult with ⟨rfl, rfl, -⟩ | ⟨W, he, rfl⟩
  · unfold Recounted Db.events at h ⊢
    rw [hvalues, List.append_nil, hrequests', ← hrequests]
    exact h
  have hover : s'.requests.committed r = (W.requests r).or (w.requests r) := congrFun hrequests' r
  rw [← hrequests] at hover
  cases he with
  | @submitted principal data now _ category status extraFields k o request row
      hcategory htenant hstatus hfits hrequest hk ho hrow =>
      change s'.requests.committed r = (single k request r).or _ at hover
      have htenant' : principal.tenantId = some request.tenantId := by
        rw [← htenant, hrequest]
        rfl
      rw [htenant'] at hrow
      by_cases hrk : r = k
      · subst hrk
        rw [single_self] at hover
        refine h.submitted ?_ hover hvalues hrow ?_
        · rw [hrequests]
          exact hk.fresh
        · rw [hrequest]
          exact hfits
      · rw [single_of_ne _ hrk] at hover
        refine h.aside hover hvalues ?_
        rw [hrow]
        simpa [outboxRow, buildEnvelope, submittedMessage, Message.tells] using Ne.symm hrk
  | @moved k o request newStatus principal now _ allowed row hallowed hnew hk ho hrow =>
      change s'.requests.committed r =
        (single k (applyStatus newStatus principal now request) r).or _ at hover
      by_cases hrk : r = k
      · subst hrk
        rw [single_self] at hover
        refine h.moved ?_ hover hvalues hrow
        rw [hrequests, hk]
      · rw [single_of_ne _ hrk] at hover
        refine h.aside hover hvalues ?_
        rw [hrow]
        simpa [outboxRow, buildEnvelope, statusChangedMessage, Message.tells] using Ne.symm hrk
  | started => cases ha
  | joined => cases ha
  | added => cases ha
  | stocked hstock =>
      cases hstock with
      | reserved => cases ha
      | released => cases ha

end Steps

/-- What holds after calls of the lifecycle made one after the other. -/
theorem request_history (validatePayload : Option (List Json) → Option Object →
      Except FormErrors (Option Object)) (categories : List ResourceCategory)
    (replicas : List UserReplica) (l : List Call) (hl : ∀ a ∈ l, a.lifecycle = true) :
    ∃ w s, calls (Call.body validatePayload) l 0 (Db.initial categories replicas) = some s ∧
      Rested schema w s ∧ Numbered s.outbox.committed ∧ ∀ r, Recounted r s := by
  let J : List Call → Db → Prop := fun past s => Numbered s.outbox.committed ∧
    ((∀ a ∈ past, a.lifecycle = true) → ∀ r, Recounted r s)
  have hstep : ∀ past a w w' s s', Rested schema w s → Rested schema w' s' → Result a w w' →
      J past s → J (past ++ [a]) s' := by
    intro past a w w' s s' hs hs' hresult hJ
    obtain ⟨hnum, hrecounted⟩ := hJ
    refine ⟨hresult.numbered_store hs hs' hnum, fun hpast r => ?_⟩
    refine (hrecounted (fun b hb => hpast b (List.mem_append_left _ hb)) r).step hs hs' hresult ?_
    exact hpast a (List.mem_append_right _ List.mem_cons_self)
  have hstart : J [] (Db.initial categories replicas) := ⟨Numbered.nothing, fun _ _ => rfl⟩
  obtain ⟨w, s, hcalls, hs, hnum, hrecounted⟩ := (leads validatePayload).history hstep
    (initial_rested categories replicas) hstart l 0
  exact ⟨w, s, hcalls, hs, hnum, hrecounted hl⟩

end Logistics
end Rcp
