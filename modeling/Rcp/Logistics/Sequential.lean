/-
Calls of the logistics service made one after the other.

A call that runs on its own makes at most one commit, and the status it was checked
on is the committed one.  So the statuses of a request follow the workflow of its
category, except where `assign_task` moves an approved request on by its own rule.
-/
import Rcp.Logistics.Effect

namespace Rcp
namespace Logistics

open Sql Sql.Table

/-- What a call on its own does to the rows, as a commit. -/
def Outcome (a : Call) (w w' : Rows) : Prop :=
  (w' = w ∧ ¬ Starts w a) ∨ ∃ W, Commit True a w W ∧ w' = W.overlay w

/-- What is known of an effect makes it a commit. -/
theorem Effect.commit {a : Call} {w W : Rows} {l : List (Outbox Message)}
    (h : Effect a w W l) : Commit True a w W := by
  cases h with
  | submitted hcategory htenant hstatus hfits hrequest hr ho hrow =>
      subst hrequest hrow
      exact .submitted hcategory hstatus hr.fresh ho.fresh
  | moved hallowed hnew hr ho hrow =>
      subst hrow
      exact .moved hallowed hnew hr rfl (fun _ => rfl) ho.fresh
  | started hr htenant hvolunteer happroved ho hrow =>
      subst hrow
      exact .started hr htenant hvolunteer (fun _ => happroved) ho.fresh rfl fun _ => rfl
  | joined hr htenant hvolunteer hprogress ho hrow =>
      subst hrow
      exact .joined hr (fun _ => hprogress) ho.fresh rfl fun _ => rfl
  | added hk ho hrow =>
      subst hrow
      refine .added rfl rfl hk.fresh ?_
      exact (reported_nothing w _ _).emit ho.fresh (itemMessage_reports _ _ _) _ _
  | stocked ha hk halarm hrow hO hids =>
      refine .stocked ha hk fun o row ho => ⟨hO.fresh ho, ?_⟩
      rcases List.mem_append.mp (hO.mem ho) with hx | hx
      · rw [halarm row hx]
        exact ⟨rfl, rfl⟩
      · rw [List.mem_singleton.mp hx, hrow]
        exact itemMessage_reports _ _ _

theorem Result.outcome {a : Call} {w w' : Rows} (h : Result a w w') : Outcome a w w' := by
  rcases h with hsame | ⟨W, l, he, hw'⟩
  · exact .inl hsame
  · exact .inr ⟨W, he.commit, hw'⟩

/-! ## The statuses of a request -/

/-- The step from the rows `w` to `w'` obeys the workflow of request `r`. -/
def Follows (w w' : Rows) (r : Nat) : Prop :=
  match w.requests r, w'.requests r with
  | none, none => True
  | none, some request => Workflow.Begins (w'.workflowOf request) request.status
  | some _, none => False
  | some old, some new =>
      new.status = old.status ∨ Workflow.Permits (w.workflowOf new) old.status new.status

instance (w w' : Rows) (r : Nat) : Decidable (Follows w w' r) := by
  unfold Follows
  split <;> infer_instance

/-- `assign_task` on an approved request of a category whose workflow does not lead from
`approved` to `in_progress`. -/
def SkipsProgress (w : Rows) : Call → Prop
  | .assignTask principal data now => Starts w (.assignTask principal data now) ∧
      ∃ request, w.requests data.requestId = some request ∧
        ¬ Workflow.Permits (w.workflowOf request) .approved .inProgress
  | _ => False

section Statuses

variable {a : Call} {w w' W : Rows}

theorem follows_refl (w : Rows) (r : Nat) : Follows w w r := by
  unfold Follows
  cases w.requests r with
  | none => trivial
  | some request => exact .inl rfl

/-- A commit that writes one request row. -/
theorem follows_single {I : Nat → Option InventoryItem} {O : Nat → Option (Outbox Message)}
    {k : Nat} {new : HelpRequest}
    (h : match w.requests k with
      | none => Workflow.Begins (w.workflowOf new) new.status
      | some old => new.status = old.status ∨
          Workflow.Permits (w.workflowOf new) old.status new.status) (r : Nat) :
    Follows w ((Rows.writing I (single k new) O).overlay w) r := by
  by_cases hr : r = k
  · subst hr
    have hnew : ((Rows.writing I (single r new) O).overlay w).requests r = some new := by
      simp [Rows.overlay, Rows.writing, single_self]
    unfold Follows
    rw [hnew]
    cases hold : w.requests r with
    | none =>
        rw [hold] at h
        exact h
    | some old =>
        rw [hold] at h
        exact h
  · have hsame : ((Rows.writing I (single k new) O).overlay w).requests r = w.requests r := by
      simp [Rows.overlay, Rows.writing, single_of_ne new hr]
    have hrefl := follows_refl w r
    unfold Follows at hrefl ⊢
    rw [hsame]
    exact hrefl

theorem Commit.follows (h : Commit True a w W) (ha : ¬ SkipsProgress w a) (r : Nat) :
    Follows w (W.overlay w) r := by
  cases h with
  | submitted hcategory hstatus hr ho =>
      refine follows_single ?_ r
      rw [hr]
      refine Workflow.begins_of_initialStatus ?_
      show Workflow.initialStatus ((w.categories _).bind ResourceCategory.workflow) = _
      simp only [newRequest, hcategory]
      exact hstatus
  | moved hallowed hnew hr hcategory hstrict ho =>
      refine follows_single ?_ r
      rw [hr]
      refine .inr ?_
      rw [applyStatus_status, hstrict trivial,
        w.workflowOf_congr ((applyStatus_categoryId ..).trans hcategory)]
      exact Workflow.permits_of_allowedNext hallowed hnew
  | started hr htenant hvolunteer hstrict ho hrow hassigned =>
      refine follows_single ?_ r
      rw [hr]
      refine .inr ?_
      rw [hstrict trivial]
      by_contra hskips
      exact ha ⟨⟨_, hr, htenant, hstrict trivial, hvolunteer⟩, _, hr, hskips⟩
  | joined => exact follows_refl w r
  | added => exact follows_refl w r
  | stocked => exact follows_refl w r

/-- The step that skips the workflow does move the request. -/
theorem Commit.skips (h : Commit True a w W) (ha : SkipsProgress w a) :
    ∃ r, ¬ Follows w (W.overlay w) r := by
  cases h with
  | started hr htenant hvolunteer hstrict ho hrow hassigned =>
      rename_i principal data now o request row
      obtain ⟨-, request', hr', hskips⟩ := ha
      rw [hr] at hr'
      cases hr'
      refine ⟨data.requestId, fun hfollows => ?_⟩
      unfold Follows at hfollows
      simp only [Rows.overlay, Rows.writing, single_self, Option.some_or, hr, hstrict trivial,
        reduceCtorEq, false_or] at hfollows
      exact hskips hfollows
  | joined hr hstrict =>
      obtain ⟨⟨request', hr', -, happroved, -⟩, -⟩ := ha
      rw [hr] at hr'
      cases hr'
      rw [hstrict trivial] at happroved
      cases happroved
  | submitted => exact ha.elim
  | moved => exact ha.elim
  | added => exact ha.elim
  | stocked hstock =>
      cases hstock with
      | reserved => exact ha.elim
      | released => exact ha.elim

/-- A call made on its own obeys the workflows exactly if it does not skip a step. -/
theorem Outcome.follows_iff (h : Outcome a w w') :
    (∀ r, Follows w w' r) ↔ ¬ SkipsProgress w a := by
  rcases h with ⟨rfl, hnot⟩ | ⟨W, hc, rfl⟩
  · refine ⟨fun _ hskips => hnot ?_, fun _ r => follows_refl w' r⟩
    cases a with
    | assignTask principal data now => exact hskips.1
    | createRequest | updateStatus | addInventoryItem | reserveStock | releaseStock =>
        exact hskips.elim
  · refine ⟨fun hfollows hskips => ?_, fun ha r => hc.follows ha r⟩
    obtain ⟨r, hr⟩ := hc.skips hskips
    exact hr (hfollows r)

end Statuses

/-! ## Runs -/

theorem initial_rested (categories : List ResourceCategory) (replicas : List UserReplica) :
    Rested schema (Db.initial categories replicas).rows (Db.initial categories replicas) where
  bounded := by
    intro i
    cases i with
    | categories => exact ⟨ofList_bounded categories, trivial⟩
    | replicas => exact ⟨ofList_bounded replicas, trivial⟩
    | items => exact ⟨empty_bounded, trivial⟩
    | requests => exact ⟨empty_bounded, trivial⟩
    | outbox => exact ⟨empty_bounded, trivial⟩
  rows := rfl
  settled _ := rfl

/-- Calls made one after the other all end, and the status of every request follows the
workflow of its category throughout exactly if no `assign_task` skips a step of it. -/
theorem statuses_follow_workflow (validatePayload : Option (List Json) → Option Object →
      Except FormErrors (Option Object)) (categories : List ResourceCategory)
    (replicas : List UserReplica) (l : List Call) :
    ∃ states, trace (Call.body validatePayload) l 0 (Db.initial categories replicas) =
        some states ∧
      ((Db.initial categories replicas :: states).IsChain
          (fun s s' => ∀ r, Follows s.rows s'.rows r) ↔
        CallsMeet (Call.body validatePayload) (fun s a => ¬ SkipsProgress s.rows a) l 0
          (Db.initial categories replicas)) :=
  (leads validatePayload).trace (G := fun w w' => ∀ r, Follows w w' r)
    (P := fun w a => ¬ SkipsProgress w a) (fun _ _ _ h => h.outcome.follows_iff)
    (initial_rested categories replicas) l 0

/-- A category of tenant 1 without a form. -/
def foodBank (workflow : Option Object) (h : Workflow.Accepted workflow) : ResourceCategory :=
  { tenantId := 1
    name := "Food parcels"
    formSchema := none
    workflow := workflow
    updatedAt := 0
    accepted := h }

def coordinator : Principal := { userId := 7, tenantId := some 1 }

def parcel : HelpRequestCreate :=
  { categoryId := 0, description := "Family of four", quantity_pos := by decide }

/-- `approved` leads to `fulfilled` and `cancelled` only, and dispatching a volunteer makes
the request `in_progress`. -/
theorem fast_track_dispatch_skips_workflow :
    ∃ states, trace (Call.body fun _ fields => .ok fields)
        [.createRequest coordinator parcel 0, .updateStatus 0 .approved coordinator 1,
          .assignTask coordinator { requestId := 0, volunteerUserId := 9, title := "Deliver" } 2]
        0 (Db.initial [foodBank _ Workflow.fastTrack_accepted] []) = some states ∧
      ¬ (Db.initial [foodBank _ Workflow.fastTrack_accepted] [] :: states).IsChain
        fun s s' => ∀ r, Follows s.rows s'.rows r := by
  have hplay : (trace (Call.body fun _ fields => .ok fields)
      [.createRequest coordinator parcel 0, .updateStatus 0 .approved coordinator 1,
        .assignTask coordinator { requestId := 0, volunteerUserId := 9, title := "Deliver" } 2]
      0 (Db.initial [foodBank _ Workflow.fastTrack_accepted] [])).map (fun states =>
        decide ((Db.initial [foodBank _ Workflow.fastTrack_accepted] [] :: states).IsChain
          fun s s' => Follows s.rows s'.rows 0)) = some false := by
    decide +kernel
  rw [Option.map_eq_some_iff] at hplay
  obtain ⟨states, htrace, hfails⟩ := hplay
  refine ⟨states, htrace, fun hchain => ?_⟩
  rw [decide_eq_false_iff_not] at hfails
  exact hfails (hchain.imp fun _ _ hfollows => hfollows 0)

end Logistics
end Rcp
