/-
What the events tell of the status of a request.

Other services know a request by its submission and its status changes.  Following
these events in the order of the outbox gives the committed status, as long as no
`assign_task` starts the progress of a request: that call moves the row and announces
a task, not a status.
-/
import Rcp.Logistics.Sequential

namespace Rcp
namespace Logistics

open Sql Sql.Table

/-- The status of request `r` as an event tells it to a reader who knows it as `known`. -/
def Message.follow (r : Uuid) (known : Option RequestStatus) : Message → Option RequestStatus
  | requestSubmitted requestId _ _ _ _ status _ => if requestId = r then some status else known
  | requestStatusChanged requestId _ _ _ newStatus .. =>
      if requestId = r then known.map fun _ => newStatus else known
  | taskAssigned .. | itemUpdated .. | lowStock .. | resourceCategory .. => known

/-- The status of request `r` after all events, in the order of the outbox. -/
def announcedStatus (r : Uuid) (events : List (Outbox Message)) : Option RequestStatus :=
  events.foldl (fun known row => row.payload.data.follow r known) none

/-- The events tell the committed status of every request. -/
def Announced (s : Db) : Prop :=
  ∀ r, announcedStatus r s.outbox.values = (s.requests.committed r).map HelpRequest.status

theorem announcedStatus_append (r : Uuid) (events l : List (Outbox Message)) :
    announcedStatus r (events ++ l) =
      l.foldl (fun known row => row.payload.data.follow r known) (announcedStatus r events) := by
  unfold announcedStatus
  rw [List.foldl_append]

/-- Events that say nothing of a status. -/
theorem foldl_follow_same {r : Uuid} {known : Option RequestStatus} {l : List (Outbox Message)}
    (h : ∀ row ∈ l, row.payload.data.follow r known = known) :
    l.foldl (fun known row => row.payload.data.follow r known) known = known := by
  induction l with
  | nil => rfl
  | cons row rest ih =>
      have hrow := h row List.mem_cons_self
      simp only [List.foldl_cons, hrow]
      exact ih fun x hx => h x (List.mem_cons_of_mem _ hx)

section Steps

variable {a : Call} {w W : Rows} {l : List (Outbox Message)}

/-- What an effect tells of the statuses and what it does to them. -/
theorem Effect.follow (h : Effect a w W l) (ha : ¬ Starts w a) (r : Uuid)
    {known : Option RequestStatus} (hknown : known = (w.requests r).map HelpRequest.status) :
    l.foldl (fun known row => row.payload.data.follow r known) known =
      ((W.overlay w).requests r).map HelpRequest.status := by
  cases h with
  | @submitted _ _ _ _ _ _ _ k o request row hcategory htenant hstatus hfits hrequest hr ho hrow =>
      subst hrow
      show (if k = r then some request.status else known) =
        ((single k request r).or (w.requests r)).map _
      by_cases hkr : k = r
      · subst hkr
        rw [if_pos rfl, single_self]
        rfl
      · rw [if_neg hkr, single_of_ne _ (Ne.symm hkr), hknown]
        rfl
  | @moved k o request newStatus principal now _ allowed row hallowed hnew hr ho hrow =>
      subst hrow
      show (if k = r then known.map _ else known) =
        ((single k (applyStatus newStatus principal now request) r).or (w.requests r)).map _
      by_cases hkr : k = r
      · subst hkr
        rw [if_pos rfl, single_self, hknown, hr]
        simp
      · rw [if_neg hkr, single_of_ne _ (Ne.symm hkr), hknown]
        rfl
  | started hr htenant hvolunteer happroved ho hrow =>
      exact absurd ⟨_, hr, htenant, happroved, hvolunteer⟩ ha
  | joined hr htenant hvolunteer hprogress ho hrow =>
      subst hrow
      exact hknown
  | added hk ho hrow =>
      subst hrow
      exact hknown
  | @stocked _ k o item changed now _ O alarm row hstock hk halarm hrow hO hids =>
      have hsame : ∀ x ∈ alarm ++ [row], x.payload.data.follow r known = known := by
        intro x hx
        rcases List.mem_append.mp hx with hx | hx
        · rw [halarm x hx]
          rfl
        · rw [List.mem_singleton.mp hx, hrow]
          rfl
      rw [foldl_follow_same hsame]
      exact hknown

/-- The start of a request's progress is not told. -/
theorem Effect.starts_silent (h : Effect a w W l) (ha : Starts w a) :
    ∃ r request, w.requests r = some request ∧
      l.foldl (fun known row => row.payload.data.follow r known) (some request.status) =
        some request.status ∧
      ((W.overlay w).requests r).map HelpRequest.status ≠ some request.status := by
  cases h with
  | @started principal data now _ o request _ _ _ row hr htenant hvolunteer happroved ho hrow =>
      subst hrow
      refine ⟨data.requestId, request, hr, rfl, ?_⟩
      show ((single data.requestId { request with status := .inProgress } data.requestId).or
        _).map _ ≠ _
      rw [single_self, happroved]
      intro heq
      cases heq
  | joined hr htenant hvolunteer hprogress ho hrow =>
      obtain ⟨request', hr', -, happroved, -⟩ := ha
      rw [hr] at hr'
      cases hr'
      rw [hprogress] at happroved
      cases happroved
  | submitted => exact ha.elim
  | moved => exact ha.elim
  | added => exact ha.elim
  | stocked hstock => exact absurd ha hstock.not_starts

end Steps

theorem Result.announced_iff {a : Call} {w w' : Rows} {s s' : Db} (hs : Rested schema w s)
    (hs' : Rested schema w' s') (h : Result a w w') (hann : Announced s) :
    Announced s' ↔ ¬ Starts w a := by
  have hrequests : s.requests.committed = w.requests := congrArg Rows.requests hs.rows
  have hrequests' : s'.requests.committed = w'.requests := congrArg Rows.requests hs'.rows
  obtain ⟨l, hvalues, h⟩ := h.events hs hs'
  constructor
  · intro hann' hstarts
    rcases h with ⟨-, -, hnot⟩ | ⟨W, he, rfl⟩
    · exact hnot hstarts
    · obtain ⟨r, request, hr, hsilent, hmoved⟩ := he.starts_silent hstarts
      have hold := hann r
      have hnew := hann' r
      rw [hvalues, announcedStatus_append, hold, hrequests, hr, Option.map_some, hsilent,
        hrequests'] at hnew
      exact hmoved hnew.symm
  · intro hnot r
    rw [hvalues, announcedStatus_append, hrequests']
    rcases h with ⟨rfl, rfl, -⟩ | ⟨W, he, rfl⟩
    · rw [List.foldl_nil, hann r, hrequests]
    · refine he.follow hnot r ?_
      rw [hann r, hrequests]

/-- Calls made one after the other tell the status of every request throughout exactly if
none of them starts the progress of an approved request. -/
theorem statuses_announced (validatePayload : Option (List Json) → Option Object →
      Except FormErrors (Option Object)) (categories : List ResourceCategory)
    (replicas : List UserReplica) (l : List Call) :
    ∃ states, trace (Call.body validatePayload) l 0 (Db.initial categories replicas) =
        some states ∧
      ((∀ s ∈ states, Announced s) ↔
        CallsMeet (Call.body validatePayload) (fun s a => ¬ Starts s.rows a) l 0
          (Db.initial categories replicas)) :=
  (leads validatePayload).keeps_iff (P := fun w a => ¬ Starts w a)
    (fun _ _ _ _ _ hs hs' h hann => h.announced_iff hs hs' hann)
    (initial_rested categories replicas) (fun _ => rfl) l 0

/-- A request is approved by way of `verified` and then a volunteer is dispatched.  The
default workflow leads from `approved` to `in_progress`, but the events end at `approved`. -/
theorem dispatch_not_announced :
    ∃ states, trace (Call.body fun _ fields => .ok fields)
        [.createRequest coordinator parcel 0, .updateStatus 0 .verified coordinator 1,
          .updateStatus 0 .approved coordinator 2,
          .assignTask coordinator { requestId := 0, volunteerUserId := 9, title := "Deliver" } 3]
        0 (Db.initial [foodBank none Workflow.accepted_none] []) = some states ∧
      ¬ ∀ s ∈ states, Announced s := by
  have hplay : (trace (Call.body fun _ fields => .ok fields)
      [.createRequest coordinator parcel 0, .updateStatus 0 .verified coordinator 1,
        .updateStatus 0 .approved coordinator 2,
        .assignTask coordinator { requestId := 0, volunteerUserId := 9, title := "Deliver" } 3]
      0 (Db.initial [foodBank none Workflow.accepted_none] [])).map (fun states =>
        decide (∀ s ∈ states, announcedStatus 0 s.outbox.values =
          (s.requests.committed 0).map HelpRequest.status)) = some false := by
    decide +kernel
  rw [Option.map_eq_some_iff] at hplay
  obtain ⟨states, htrace, hfails⟩ := hplay
  refine ⟨states, htrace, fun hannounced => ?_⟩
  rw [decide_eq_false_iff_not] at hfails
  exact hfails fun s hs => hannounced s hs 0

end Logistics
end Rcp
