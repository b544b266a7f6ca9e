/-
The status of a request under concurrent calls.

`change_status` and `assign_task` check the status they have read and write the new
one without looking again.  In a run in which every such write finds the status it
was checked on, every write is permitted from the status committed just before it,
the events tell the chain of statuses, and a final status stays.  Two calls that
overlap on one request break all of it.
-/
import Rcp.Logistics.Stock

namespace Rcp
namespace Logistics

open Sql Sql.Table

/-- Call `a` may move request `r` from `old` to `new` by its own check. -/
def Call.Allows (a : Call) (workflow : Option Object) (r : Uuid) (old new : RequestStatus) :
    Prop :=
  match a with
  | .updateStatus requestId newStatus _ _ =>
      requestId = r ∧ newStatus = new ∧ Workflow.Permits workflow old new
  | .assignTask _ data _ => data.requestId = r ∧ old = .approved ∧ new = .inProgress
  | _ => False

/-- A step of call `a` from the rows `w` to `w'` continues the chain of the statuses of
request `r`. -/
structure Chained (a : Call) (w w' : Rows) (r : Uuid) : Prop where
  row : match w.requests r, w'.requests r with
    | none, none => True
    | none, some new => Workflow.Begins (w.workflowOf new) new.status
    | some _, none => False
    | some old, some new => new.status = old.status ∨
        a.Allows (w.workflowOf old) r old.status new.status
  /-- A new status-changed event names the status before the step and the one after it. -/
  event : ∀ o row old new, w.outbox o = none → w'.outbox o = some row →
    row.payload.data.statusChange? r = some (old, new) → ∃ request request',
      w.requests r = some request ∧ request.status = old ∧
      w'.requests r = some request' ∧ request'.status = new ∧
      a.Allows (w.workflowOf request) r old new
  final : ∀ request, w.requests r = some request → request.status ∈ Workflow.terminalStates →
    ∃ request', w'.requests r = some request' ∧ request'.status = request.status

section Commits

variable {a : Call} {w w' W : Rows}

theorem Call.Allows.not_terminal {request : HelpRequest} {r : Uuid} {old new : RequestStatus}
    (h : a.Allows (w.workflowOf request) r old new) : old ∉ Workflow.terminalStates := by
  intro hold
  cases a with
  | updateStatus requestId newStatus principal now =>
      have hpermits := h.2.2
      unfold Workflow.Permits at hpermits
      rw [(w.workflowOf_accepted request).allowedNext_terminal hold] at hpermits
      cases hpermits
  | assignTask principal data now =>
      rw [h.2.1] at hold
      cases hold with
      | tail _ hold =>
          cases hold with
          | tail _ hold =>
              cases hold with
              | tail _ hold => cases hold
  | createRequest | addInventoryItem | reserveStock | releaseStock => exact h

/-- A step that writes no request and announces no change. -/
theorem Chained.same {r : Uuid} (hr : w'.requests r = w.requests r)
    (hevent : ∀ o row, w.outbox o = none → w'.outbox o = some row →
      row.payload.data.statusChange? r = none) : Chained a w w' r where
  row := by
    rw [hr]
    cases w.requests r with
    | none => trivial
    | some request => exact .inl rfl
  event := by
    intro o row old new hnone ho hchange
    rw [hevent o row hnone ho] at hchange
    cases hchange
  final := by
    intro request hrequest _
    exact ⟨request, hr.trans hrequest, rfl⟩

/-- A step that moves request `r` from its committed status. -/
theorem Chained.moved {r : Uuid} {request request' : HelpRequest}
    (hr : w.requests r = some request) (hr' : w'.requests r = some request')
    (hallows : a.Allows (w.workflowOf request) r request.status request'.status)
    (hevent : ∀ o row old new, w.outbox o = none → w'.outbox o = some row →
      row.payload.data.statusChange? r = some (old, new) →
        old = request.status ∧ new = request'.status) : Chained a w w' r where
  row := by
    rw [hr, hr']
    exact .inr hallows
  event := by
    intro o row old new hnone ho hchange
    obtain ⟨rfl, rfl⟩ := hevent o row old new hnone ho hchange
    exact ⟨request, request', hr, rfl, hr', rfl, hallows⟩
  final := by
    intro request₁ hr₁ hterminal
    rw [hr] at hr₁
    cases hr₁
    exact absurd hterminal hallows.not_terminal

/-- A commit that writes no request and announces no change. -/
theorem Chained.aside {I : Nat → Option InventoryItem} {O : Nat → Option (Outbox Message)}
    (hO : ∀ o row r, O o = some row → row.payload.data.statusChange? r = none) (r : Uuid) :
    Chained a w ((Rows.writing I noRows O).overlay w) r := by
  refine .same rfl fun o row hnone ho => hO o row r ?_
  have ho' : (O o).or (w.outbox o) = some row := ho
  rw [hnone, Option.or_none] at ho'
  exact ho'

/-- A commit that writes request `k` and an event about it. -/
theorem Chained.written {k o : Nat} {request : HelpRequest} {row : Outbox Message}
    (hother : ∀ r, r ≠ k → row.payload.data.statusChange? r = none)
    (hself : ∀ w', w'.requests k = some request →
      (∀ o' row', w.outbox o' = none → w'.outbox o' = some row' → row' = row) →
        Chained a w w' k) (r : Uuid) :
    Chained a w ((Rows.writing noRows (single k request) (single o row)).overlay w) r := by
  have hnew : ∀ o' row', w.outbox o' = none →
      ((Rows.writing noRows (single k request) (single o row)).overlay w).outbox o' = some row' →
        row' = row := by
    intro o' row' hnone ho
    have ho' : (Table.single o row o').or (w.outbox o') = some row' := ho
    rw [hnone, Option.or_none] at ho'
    exact (single_eq_some.mp ho').2
  by_cases hr : r = k
  · subst hr
    refine hself _ ?_ hnew
    show (Table.single r request r).or _ = _
    rw [single_self]
    rfl
  · refine .same ?_ fun o' row' hnone ho => ?_
    · show (Table.single k request r).or _ = _
      rw [single_of_ne request hr]
      rfl
    · rw [hnew o' row' hnone ho]
      exact hother r hr

theorem statusChangedMessage_self (r : Uuid) (loaded : HelpRequest) (new : RequestStatus)
    (principal : Principal) (now : Time) :
    (statusChangedMessage r loaded new principal now).statusChange? r =
      some (loaded.status, new) :=
  if_pos rfl

theorem statusChangedMessage_other {r r' : Uuid} (h : r' ≠ r) (loaded : HelpRequest)
    (new : RequestStatus) (principal : Principal) (now : Time) :
    (statusChangedMessage r loaded new principal now).statusChange? r' = none :=
  if_neg h.symm

theorem Message.Reports.statusChange? {m : Message} {k : Nat} {item : InventoryItem}
    (h : m.Reports k item) (r : Uuid) : m.statusChange? r = none := by
  cases m with
  | requestStatusChanged => exact h.elim
  | requestSubmitted | taskAssigned | itemUpdated | lowStock | resourceCategory => rfl

theorem Commit.chained (h : Commit True a w W) (r : Uuid) : Chained a w (W.overlay w) r := by
  cases h with
  | submitted hcategory hstatus hr ho =>
      refine .written (fun _ _ => rfl) (fun w' hnew hrow => ?_) r
      refine ⟨?_, fun o row old new hnone ho hchange => ?_, fun request hrequest => ?_⟩
      · rw [hr, hnew]
        refine Workflow.begins_of_initialStatus ?_
        show Workflow.initialStatus ((w.categories _).bind ResourceCategory.workflow) = _
        simp only [newRequest, hcategory]
        exact hstatus
      · rw [hrow o row hnone ho] at hchange
        cases hchange
      · rw [hr] at hrequest
        cases hrequest
  | moved hallowed hnew hr hcategory hstrict ho =>
      refine .written ?_ (fun w' hwritten hrow => ?_) r
      · intro r' hne
        exact statusChangedMessage_other hne ..
      have hpermits := Workflow.permits_of_allowedNext hallowed hnew
      rw [← w.workflowOf_congr hcategory, ← hstrict trivial] at hpermits
      refine .moved hr hwritten ⟨rfl, (applyStatus_status ..).symm, ?_⟩ ?_
      · rw [applyStatus_status]
        exact hpermits
      · intro o row old new hnone ho hchange
        rw [hrow o row hnone ho] at hchange
        have hpair := (statusChangedMessage_self ..).symm.trans hchange
        cases hpair
        exact ⟨(hstrict trivial).symm, (applyStatus_status ..).symm⟩
  | started hr htenant hvolunteer hstrict ho hrow hassigned =>
      refine .written (fun r' _ => hassigned r') (fun w' hwritten hnew => ?_) r
      refine .moved hr hwritten ⟨rfl, hstrict trivial, rfl⟩ ?_
      intro o row old new hnone ho hchange
      rw [hnew o row hnone ho, hassigned] at hchange
      cases hchange
  | joined hr hstrict ho hrow hassigned =>
      refine .aside (fun o row r' hk => ?_) r
      rw [(single_eq_some.mp hk).2]
      exact hassigned r'
  | added htotal hreserved hk hO =>
      exact .aside (fun o row r' ho => (hO o row ho).2.statusChange? r') r
  | stocked ha hk hO =>
      exact .aside (fun o row r' ho => (hO o row ho).2.statusChange? r') r

end Commits

/-! ## Runs -/

theorem Chained.refl (a : Call) (w : Rows) (r : Uuid) : Chained a w w r := by
  refine .same rfl fun o row hnone ho => ?_
  rw [hnone] at ho
  cases ho

/-- Every step of an undisturbed run continues the chain of the statuses of every
request, and a final status stays to the end of the run. -/
theorem status_chain (validatePayload : Option (List Json) → Option Object →
      Except FormErrors (Option Object)) (categories : List ResourceCategory)
    (replicas : List UserReplica) {c : Cluster}
    (h : RunWith (Call.body validatePayload) Undisturbed
      (Config.start (Db.initial categories replicas)) c) :
    (∀ t se c', c.sessions t = some se → Step (Call.body validatePayload) c t c' →
      Admissible Undisturbed c t c' → ∀ r, Chained se.call c.store.rows c'.store.rows r) ∧
    ∀ c', RunWith (Call.body validatePayload) Undisturbed c c' → ∀ r request,
      c.store.requests.committed r = some request →
      request.status ∈ Workflow.terminalStates →
      ∃ request', c'.store.requests.committed r = some request' ∧
        request'.status = request.status := by
  have hverified : (discipline True).Verified Undisturbed (Call.body validatePayload) :=
    verified True validatePayload fun _ _ _ _ _ hu => hu
  have hsound := RunWith.sound hverified (start_sound True _ categories replicas) h
  constructor
  · intro t se c' hse hstep hadm r
    rcases (hstep.sound hverified hsound hadm).2 with heq | ⟨se', hse', hguar⟩
    · rw [heq]
      exact .refl _ _ r
    · rw [hse] at hse'
      cases hse'
      rcases hguar.2 with heq | ⟨hcommit, heq⟩
      · have hrows : c'.store.rows = c.store.rows := heq
        rw [hrows]
        exact .refl _ _ r
      · have hrows : c'.store.rows = (schema.writes t c.store).overlay c.store.rows := heq
        rw [hrows]
        exact hcommit.chained r
  · intro c' hrun r request hr hterminal
    refine RunWith.rows_keep (J := fun w => ∃ request', w.requests r = some request' ∧
      request'.status = request.status) hverified ?_ hsound hrun ⟨request, hr, rfl⟩
    intro a s₀ s s' W _ _ hc _ _ hs
    obtain ⟨request₁, hr₁, hst₁⟩ := hs
    have hfinal := (hc.chained r).final request₁ hr₁ (hst₁ ▸ hterminal)
    obtain ⟨request₂, hr₂, hst₂⟩ := hfinal
    exact ⟨request₂, hr₂, hst₂.trans hst₁⟩

/-- Two requests are decided on at the same time.  The second call is about to commit. -/
def parcelSchedule : List (Move Call) :=
  [[.begin (.createRequest coordinator parcel 0)], List.replicate 5 (.next 0), [.close 0],
    [.begin (.createRequest coordinator parcel 1)], List.replicate 5 (.next 1), [.close 1],
    [.begin (.updateStatus 0 .rejected coordinator 2),
      .begin (.updateStatus 1 .verified coordinator 3), .next 2, .next 3],
    List.replicate 3 (.next 2), List.replicate 3 (.next 3), [.next 2]].flatten

theorem status_chain_parcels : ∃ c c' : Cluster, ∃ se,
    RunWith (Call.body fun _ fields => .ok fields) Undisturbed
      (Config.start (Db.initial [foodBank none Workflow.accepted_none] [])) c ∧
    c.sessions 3 = some se ∧ Step (Call.body fun _ fields => .ok fields) c 3 c' ∧
    c.store.statusOf 1 = some .pending ∧ c'.store.statusOf 1 = some .verified ∧
    c.store.statusOf 0 = some .rejected ∧ c'.store.statusOf 0 = some .rejected ∧
    Chained se.call c.store.rows c'.store.rows 1 := by
  have hplay : ((Config.start (Db.initial [foodBank none Workflow.accepted_none] [])).playWith
      (Call.body fun _ fields => .ok fields) Undisturbed parcelSchedule).map (fun c =>
        ((c.sessions 3).isSome, c.store.statusOf 1, c.store.statusOf 0,
          (c.playWith (Call.body fun _ fields => .ok fields) Undisturbed [.next 3]).map fun c' =>
            c'.store.statusOf 1)) =
      some (true, some .pending, some .rejected, some (some .verified)) := by
    decide +kernel
  obtain ⟨c, hc, hfacts⟩ := Option.map_eq_some_iff.mp hplay
  simp only [Prod.mk.injEq] at hfacts
  obtain ⟨hsession, hpending, hrejected, hnext⟩ := hfacts
  obtain ⟨se, hse⟩ := Option.isSome_iff_exists.mp hsession
  obtain ⟨c', hc', hverified⟩ := Option.map_eq_some_iff.mp hnext
  have hrun := Config.playWith_run hc
  have hchain := status_chain _ _ _ hrun
  obtain ⟨request, hrequest, hstatus⟩ := Option.map_eq_some_iff.mp hrejected
  have hfinal := hchain.2 c' (Config.playWith_run hc') 0 request hrequest (by rw [hstatus]; decide)
  obtain ⟨request', hrequest', hstatus'⟩ := hfinal
  have hrejected' : c'.store.statusOf 0 = some .rejected := by
    unfold Db.statusOf
    rw [hrequest', Option.map_some, hstatus', hstatus]
  obtain ⟨hstep, hadm⟩ := Config.playWith_step hc'
  exact ⟨c, c', se, hrun, hse, hstep, hpending, hverified, hrejected, hrejected',
    hchain.1 3 se c' hse hstep hadm 1⟩

/-- Two coordinators read a pending request.  One rejects it and the other verifies it. -/
def raceSchedule : List (Move Call) :=
  [[.begin (.createRequest coordinator parcel 0)], List.replicate 5 (.next 0), [.close 0],
    [.begin (.updateStatus 0 .rejected coordinator 1),
      .begin (.updateStatus 0 .verified coordinator 2), .next 1, .next 2],
    List.replicate 4 (.next 1), List.replicate 3 (.next 2)].flatten

theorem overlapping_decisions_leave_rejected :
    ¬ ∀ (categories : List ResourceCategory) (c c' : Cluster) (t : Sid)
      (se : Session Db Error Reply Call) (r : Uuid),
      Run (Call.body fun _ fields => .ok fields) (Config.start (Db.initial categories [])) c →
      c.sessions t = some se → Step (Call.body fun _ fields => .ok fields) c t c' →
      Chained se.call c.store.rows c'.store.rows r := by
  intro hclaim
  have hplay : ((Config.start (Db.initial [foodBank none Workflow.accepted_none] [])).play
      (Call.body fun _ fields => .ok fields) raceSchedule).map (fun c =>
        ((c.sessions 2).isSome, c.store.statusOf 0,
          (c.move (Call.body fun _ fields => .ok fields) (.next 2)).map fun c' =>
            c'.store.statusOf 0)) =
      some (true, some .rejected, some (some .verified)) := by
    decide +kernel
  obtain ⟨c, hc, hfacts⟩ := Option.map_eq_some_iff.mp hplay
  simp only [Prod.mk.injEq] at hfacts
  obtain ⟨hsession, hrejected, hnext⟩ := hfacts
  obtain ⟨se, hse⟩ := Option.isSome_iff_exists.mp hsession
  obtain ⟨c', hc', hverified⟩ := Option.map_eq_some_iff.mp hnext
  obtain ⟨request, hrequest, hstatus⟩ := Option.map_eq_some_iff.mp hrejected
  obtain ⟨request', hrequest', hstatus'⟩ := Option.map_eq_some_iff.mp hverified
  have hchained := hclaim _ c c' 2 se 0 (Config.play_run hc) hse (Config.move_step hc')
  obtain ⟨kept, hkept, hsame⟩ := hchained.final request hrequest (by rw [hstatus]; decide)
  have hkept' : c'.store.requests.committed 0 = some kept := hkept
  rw [hrequest'] at hkept'
  cases hkept'
  rw [hstatus, hstatus'] at hsame
  cases hsame

end Logistics
end Rcp
