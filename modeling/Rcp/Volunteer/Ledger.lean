/-
Invariants of the committed rows.

`Linked` says that references resolve and that a volunteer has one mapping per
event.  `Ledger` is the quota ledger: the counter of a bucket is the number of
mappings that hold one of its places, within its bounds, and the bucket is
FULFILLED exactly when it is full.  `Announced` counts the events: one
`requirement.fulfilled` for each FULFILLED bucket and one `team.formed` for each
event all of whose buckets are.  Every `Commit` keeps the three together.
-/
import Mathlib.Data.Set.Card
import Rcp.Volunteer.Commit

namespace Rcp
namespace Volunteer

open Sql Sql.Table

/-! ## Rows only evolve -/

structure SameMapping (m m' : EventVolunteerMapping) : Prop where
  event : m'.eventId = m.eventId
  requirement : m'.requirementId = m.requirementId
  volunteer : m'.volunteerId = m.volunteerId
  counted : m.status.counted = true → m'.status.counted = true
  answered : m.status ≠ .notified → m'.status ≠ .notified

structure SameBucket (q q' : EventRequirement) : Prop where
  event : q'.eventId = q.eventId
  skill : q'.skill = q.skill
  required : q'.requiredCount = q.requiredCount
  filled : q.filledCount ≤ q'.filledCount
  fulfilled : q.status = .fulfilled → q'.status = .fulfilled

structure Evolves (w w' : Rows) : Prop where
  events : ∀ e ev, w.events e = some ev → ∃ st, w'.events e = some { ev with status := st }
  requirements : ∀ r q, w.requirements r = some q →
    ∃ q', w'.requirements r = some q' ∧ SameBucket q q'
  mappings : ∀ k m, w.mappings k = some m → ∃ m', w'.mappings k = some m' ∧ SameMapping m m'
  profiles : w'.profiles = w.profiles
  outbox : ∀ o row, w.outbox o = some row → w'.outbox o = some row

theorem SameMapping.refl (m : EventVolunteerMapping) : SameMapping m m :=
  ⟨rfl, rfl, rfl, id, id⟩

theorem SameBucket.refl (q : EventRequirement) : SameBucket q q :=
  ⟨rfl, rfl, rfl, Int.le_refl _, id⟩

theorem sameBucket_fillPlace (q : EventRequirement) : SameBucket q (fillPlace q) :=
  ⟨rfl, rfl, rfl, by simp [fillPlace], id⟩

theorem sameBucket_fillLastPlace (q : EventRequirement) : SameBucket q (fillLastPlace q) :=
  ⟨rfl, rfl, rfl, by simp [fillLastPlace, fillPlace], fun _ => rfl⟩

theorem sameMapping_of_notified {m : EventVolunteerMapping} (h : m.status = .notified)
    (st : AssignmentStatus) (now : Time) : SameMapping m (setMapping st now m) :=
  ⟨rfl, rfl, rfl, fun hc => by simp [h, AssignmentStatus.counted] at hc,
    fun hn => absurd h hn⟩

theorem transitions_counted {new : AssignmentStatus} {allowedFrom : List AssignmentStatus}
    (h : transitions new = some allowedFrom) {st : AssignmentStatus} (hst : st ∈ allowedFrom) :
    new.counted = st.counted ∧ new ≠ .notified := by
  cases new <;> simp only [transitions, Option.some.injEq, reduceCtorEq] at h <;> subst h <;>
    simp only [List.mem_cons, List.not_mem_nil, or_false] at hst <;>
    rcases hst with rfl | rfl <;> exact ⟨rfl, by decide⟩

theorem sameMapping_of_transition {new : AssignmentStatus}
    {allowedFrom : List AssignmentStatus} (h : transitions new = some allowedFrom)
    {m : EventVolunteerMapping} (hm : m.status ∈ allowedFrom) (now : Time) :
    SameMapping m (setMapping new now m) := by
  obtain ⟨hc, hn⟩ := transitions_counted h hm
  exact ⟨rfl, rfl, rfl, fun hcount => hc.trans hcount, fun _ => hn⟩

section Over

variable {V : Type} {f g : Nat → Option V} {k : Nat} {v : V}

/-- A published row replaces the committed one. -/
theorem over_cases (h : (f k).or (g k) = some v) :
    f k = some v ∨ (f k = none ∧ g k = some v) := by
  simpa using h

theorem over_of_fresh (hf : ∀ j u, f j = some u → g j = none) (h : g k = some v) :
    (f k).or (g k) = some v := by
  cases hk : f k with
  | none => simpa using h
  | some u => rw [hf k u hk] at h; cases h

theorem over_single {u : V} {P : V → Prop} (h : g k = some v) {j : Nat}
    (hj : j = k → P u) (hP : P v) :
    ∃ x, ((single j u : Nat → Option V) k).or (g k) = some x ∧ P x := by
  by_cases hjk : k = j
  · subst hjk
    exact ⟨u, by simp [single_self], hj rfl⟩
  · exact ⟨v, by simp [single_of_ne u hjk, h], hP⟩

end Over

theorem event_evolves {w : Rows} {e e' : Uuid} {ev ev' : DisasterEvent} (st : EventStatus)
    (he : w.events e = some ev) (he' : w.events e' = some ev') :
    ∃ st', ((single e' { ev' with status := st } : Nat → Option DisasterEvent) e).or
      (w.events e) = some { ev with status := st' } := by
  by_cases h : e = e'
  · subst h
    rw [he] at he'
    cases he'
    exact ⟨st, by simp [single_self]⟩
  · exact ⟨ev.status, by simp [single_of_ne _ h, he]⟩

theorem Commit.events_evolve {a : Call} {w W : Rows} (h : Commit a w W) (e : Uuid)
    (ev : DisasterEvent) (he : w.events e = some ev) :
    ∃ st, (W.overlay w).events e = some { ev with status := st } := by
  cases h with
  | declared hnew =>
      refine ⟨ev.status, over_of_fresh (fun j u hj => ?_) he⟩
      obtain ⟨rfl, -⟩ := single_eq_some.mp hj
      exact hnew
  | matched hev => exact event_evolves _ he hev
  | fulfilled _ _ _ hev => exact event_evolves _ he hev
  | formed _ _ _ hev => exact event_evolves _ he hev
  | closed hev => exact event_evolves _ he hev
  | rejected | accepted | moved => exact ⟨ev.status, he⟩

theorem Commit.requirements_evolve {a : Call} {w W : Rows} (h : Commit a w W) (r : Uuid)
    (q : EventRequirement) (hq : w.requirements r = some q) :
    ∃ q', (W.overlay w).requirements r = some q' ∧ SameBucket q q' := by
  cases h with
  | declared _ _ hR =>
      exact ⟨q, over_of_fresh (fun j u hj => (hR j u hj).1) hq, SameBucket.refl q⟩
  | matched | rejected | moved | closed =>
      exact ⟨q, hq, SameBucket.refl q⟩
  | accepted h =>
      refine over_single (g := w.requirements) hq (fun hj => ?_) (SameBucket.refl q)
      have hb := h.bucket
      rw [hj, hq] at hb
      cases hb
      exact sameBucket_fillPlace q
  | fulfilled h =>
      refine over_single (g := w.requirements) hq (fun hj => ?_) (SameBucket.refl q)
      have hb := h.bucket
      rw [hj, hq] at hb
      cases hb
      exact sameBucket_fillLastPlace q
  | formed h =>
      refine over_single (g := w.requirements) hq (fun hj => ?_) (SameBucket.refl q)
      have hb := h.bucket
      rw [hj, hq] at hb
      cases hb
      exact sameBucket_fillLastPlace q

theorem Commit.mappings_evolve {a : Call} {w W : Rows} (h : Commit a w W) (k : Nat)
    (m : EventVolunteerMapping) (hm : w.mappings k = some m) :
    ∃ m', (W.overlay w).mappings k = some m' ∧ SameMapping m m' := by
  cases h with
  | declared | closed =>
      exact ⟨m, hm, SameMapping.refl m⟩
  | matched _ _ hM =>
      exact ⟨m, over_of_fresh (fun j u hj => (hM.row j u hj).1) hm, SameMapping.refl m⟩
  | rejected h | accepted h | fulfilled h =>
      refine over_single (g := w.mappings) hm (fun hj => ?_) (SameMapping.refl m)
      have hrow := h.mapping
      rw [hj, hm] at hrow
      cases hrow
      exact sameMapping_of_notified h.notified _ _
  | formed h =>
      refine over_single (g := w.mappings) hm (fun hj => ?_) (SameMapping.refl m)
      have hrow := h.mapping
      rw [hj, hm] at hrow
      cases hrow
      exact sameMapping_of_notified h.notified _ _
  | moved hnew hrow hfrom =>
      refine over_single (g := w.mappings) hm (fun hj => ?_) (SameMapping.refl m)
      rw [hj, hm] at hrow
      cases hrow
      exact sameMapping_of_transition hnew hfrom _

theorem Commit.outbox_evolve {a : Call} {w W : Rows} (h : Commit a w W) (o : Uuid)
    (row : Outbox Message) (hrow : w.outbox o = some row) :
    (W.overlay w).outbox o = some row := by
  cases h with
  | declared _ _ _ _ hO | matched _ _ _ hO =>
      exact over_of_fresh (fun j u hj => (hO j u hj).1) hrow
  | rejected | accepted | closed => exact hrow
  | fulfilled _ _ _ _ _ ho | moved _ _ _ _ _ ho =>
      refine over_of_fresh (fun j u hj => ?_) hrow
      obtain ⟨rfl, -⟩ := single_eq_some.mp hj
      exact ho
  | formed _ _ _ _ _ _ ho ho' =>
      refine over_of_fresh (fun j u hj => ?_) hrow
      simp only [teamWrites, Rows.writing, Function.update_apply] at hj
      split at hj
      · rename_i hjo
        rw [hjo]
        exact ho'
      · obtain ⟨rfl, -⟩ := single_eq_some.mp hj
        exact ho

theorem Commit.evolves {a : Call} {w W : Rows} (h : Commit a w W) : Evolves w (W.overlay w) where
  events := h.events_evolve
  requirements := h.requirements_evolve
  mappings := h.mappings_evolve
  profiles := by cases h <;> rfl
  outbox := h.outbox_evolve

/-! ## The lifecycle of a mapping -/

/-- The steps of the assignment lifecycle. -/
inductive AssignmentStatus.Edge : AssignmentStatus → AssignmentStatus → Prop
  | accept : Edge .notified .accepted
  | decline : Edge .notified .declined
  | turnAway : Edge .notified .rejectedFull
  | setOut : Edge .accepted .enRoute
  | finishAtOnce : Edge .accepted .completed
  | finish : Edge .enRoute .completed

theorem transitions_edge {new : AssignmentStatus} {allowedFrom : List AssignmentStatus}
    (h : transitions new = some allowedFrom) {st : AssignmentStatus} (hst : st ∈ allowedFrom) :
    AssignmentStatus.Edge st new := by
  cases new <;> simp only [transitions, Option.some.injEq, reduceCtorEq] at h <;> subst h <;>
    simp only [List.mem_cons, List.not_mem_nil, or_false] at hst
  · exact hst ▸ .decline
  · exact hst ▸ .setOut
  · rcases hst with rfl | rfl
    · exact .finish
    · exact .finishAtOnce

/-- What a commit of call `a` does to mapping `k`. -/
inductive MappingStep (a : Call) (w W : Rows) (k : Uuid) (m : EventVolunteerMapping) :
    EventVolunteerMapping → Prop
  | kept : MappingStep a w W k m m
  | accepted {user : Uuid} {now : Time} (ha : a = .acceptAssignment k user now)
      (hm : m.status = .notified) (howned : Owned w m user) :
      MappingStep a w W k m (setMapping .accepted now m)
  | rejected {user : Uuid} {now : Time} (ha : a = .acceptAssignment k user now)
      (hm : m.status = .notified) (howned : Owned w m user)
      (hW : W = .writing noRows noRows (single k (setMapping .rejectedFull now m)) noRows) :
      MappingStep a w W k m (setMapping .rejectedFull now m)
  | moved {user : Uuid} {new : AssignmentStatus} {now : Time}
      {allowedFrom : List AssignmentStatus} {ev : DisasterEvent} {o : Uuid}
      (ha : a = .transitionAssignment k user new now)
      (hnew : transitions new = some allowedFrom) (hm : m.status ∈ allowedFrom)
      (howned : Owned w m user) (hev : w.events m.eventId = some ev) (ho : w.outbox o = none)
      (hW : W = .writing noRows noRows (single k (setMapping new now m))
        (single o (outboxRow (transitionKey new) (some ev.tenantId)
          (.assignmentMoved m.eventId m.requirementId user new) o))) :
      MappingStep a w W k m (setMapping new now m)

theorem Commit.mapping_step {a : Call} {w W : Rows} (h : Commit a w W) {k : Nat}
    {m m' : EventVolunteerMapping} (hm : w.mappings k = some m)
    (hm' : (W.overlay w).mappings k = some m') : MappingStep a w W k m m' := by
  rcases over_cases hm' with hnew | ⟨-, hold⟩
  · cases h with
    | declared | closed => cases hnew
    | matched _ _ hM =>
        rw [(hM.row k m' hnew).1] at hm
        cases hm
    | rejected h =>
        obtain ⟨rfl, rfl⟩ := single_eq_some.mp hnew
        cases hm.symm.trans h.mapping
        exact .rejected rfl h.notified h.owned rfl
    | accepted h | fulfilled h =>
        obtain ⟨rfl, rfl⟩ := single_eq_some.mp hnew
        cases hm.symm.trans h.mapping
        exact .accepted rfl h.notified h.owned
    | formed h =>
        obtain ⟨rfl, rfl⟩ := single_eq_some.mp hnew
        cases hm.symm.trans h.mapping
        exact .accepted rfl h.notified h.owned
    | moved hnew' hrow hfrom hown hev ho =>
        obtain ⟨rfl, rfl⟩ := single_eq_some.mp hnew
        cases hm.symm.trans hrow
        exact .moved rfl hnew' hfrom hown hev ho rfl
  · cases hm.symm.trans hold
    exact .kept

theorem MappingStep.edge {a : Call} {w W : Rows} {k : Uuid} {m m' : EventVolunteerMapping}
    (h : MappingStep a w W k m m') : m' = m ∨ AssignmentStatus.Edge m.status m'.status := by
  cases h with
  | kept => exact .inl rfl
  | accepted _ hm =>
      rw [hm]
      exact .inr .accept
  | rejected _ hm =>
      rw [hm]
      exact .inr .turnAway
  | moved _ hnew hm => exact .inr (transitions_edge hnew hm)

/-! ## The invariants -/

structure Linked (w : Rows) : Prop where
  bucket : ∀ k m, w.mappings k = some m →
    ∃ q, w.requirements m.requirementId = some q ∧ q.eventId = m.eventId
  volunteer : ∀ k m, w.mappings k = some m → ∃ v, w.profiles m.volunteerId = some v
  event : ∀ r q, w.requirements r = some q → ∃ ev, w.events q.eventId = some ev
  needs : ∀ e ev, w.events e = some ev → ∃ r q, w.requirements r = some q ∧ q.eventId = e
  once : ∀ k m j n, w.mappings k = some m → w.mappings j = some n →
    n.eventId = m.eventId → n.volunteerId = m.volunteerId → j = k

/-- The mappings that hold a place of bucket `r`. -/
def holders (w : Rows) (r : Uuid) : Set Nat :=
  {k | ∃ m, w.mappings k = some m ∧ m.requirementId = r ∧ m.status.counted = true}

structure Balanced (w : Rows) (r : Uuid) (q : EventRequirement) : Prop where
  required : 0 < q.requiredCount
  within : q.filledCount ≤ q.requiredCount
  full : q.status = .fulfilled ↔ q.filledCount = q.requiredCount
  count : ∃ n : Nat, q.filledCount = n ∧ (holders w r).encard = n

def Ledger (w : Rows) : Prop :=
  ∀ r q, w.requirements r = some q → Balanced w r q

/-- Every bucket of the event is FULFILLED. -/
def AllFulfilled (w : Rows) (e : Uuid) : Prop :=
  ∀ r q, w.requirements r = some q → q.eventId = e → q.status = .fulfilled

/-- The outbox rows whose event announces `x`. -/
def posted (announces : Message → Option Uuid) (w : Rows) (x : Uuid) : Set Nat :=
  {o | ∃ row, w.outbox o = some row ∧ announces row.payload.data = some x}

structure Announced (w : Rows) : Prop where
  bucket : ∀ r q, w.requirements r = some q → q.status = .fulfilled →
    (posted Message.fulfilledRequirement w r).encard = 1
  bucket_none : ∀ r, (∀ q, w.requirements r = some q → q.status ≠ .fulfilled) →
    posted Message.fulfilledRequirement w r = ∅
  team : ∀ e ev, w.events e = some ev → AllFulfilled w e →
    (posted Message.formedEvent w e).encard = 1
  team_none : ∀ e, (∀ ev, w.events e = some ev → ¬ AllFulfilled w e) →
    posted Message.formedEvent w e = ∅
  status : ∀ e ev, w.events e = some ev → ev.status = .teamFormed → AllFulfilled w e

structure WellFormed (w : Rows) : Prop where
  linked : Linked w
  ledger : Ledger w
  announced : Announced w

/-! ## Linked rows -/

/-- A mapping after a commit was there before, or is one of the new rows of a matching
run, which holds its event's row. -/
theorem Commit.mapping_origin {a : Call} {w W : Rows} (h : Commit a w W) {k : Nat}
    {m : EventVolunteerMapping} (hm : (W.overlay w).mappings k = some m) :
    (∃ m₀, w.mappings k = some m₀ ∧ SameMapping m₀ m) ∨
      ∃ e, (∃ ev, W.events e = some ev) ∧ NewMappings w e W.mappings ∧
        W.mappings k = some m := by
  cases hk : w.mappings k with
  | some m₀ =>
      obtain ⟨m', hm', hsame⟩ := h.mappings_evolve k m₀ hk
      rw [hm] at hm'
      cases hm'
      exact .inl ⟨m₀, rfl, hsame⟩
  | none =>
      right
      rcases over_cases hm with hnew | ⟨-, hold⟩
      · cases h with
        | declared | closed => cases hnew
        | matched _ _ hM => exact ⟨_, ⟨_, single_self _ _⟩, hM, hnew⟩
        | rejected h | accepted h | fulfilled h =>
            obtain ⟨rfl, -⟩ := single_eq_some.mp hnew
            rw [h.mapping] at hk
            cases hk
        | formed h =>
            obtain ⟨rfl, -⟩ := single_eq_some.mp hnew
            rw [h.mapping] at hk
            cases hk
        | moved _ hrow =>
            obtain ⟨rfl, -⟩ := single_eq_some.mp hnew
            rw [hrow] at hk
            cases hk
      · rw [hk] at hold
        cases hold

theorem Commit.requirement_origin {a : Call} {w W : Rows} (h : Commit a w W) {r : Uuid}
    {q : EventRequirement} (hq : (W.overlay w).requirements r = some q) :
    (∃ q₀, w.requirements r = some q₀ ∧ SameBucket q₀ q) ∨
      (w.requirements r = none ∧ w.events q.eventId = none ∧
        (∃ ev, W.events q.eventId = some ev ∧ ev.status = .declared) ∧
        NewRequirements w q.eventId W.requirements ∧ W.requirements r = some q) := by
  cases hr : w.requirements r with
  | some q₀ =>
      obtain ⟨q', hq', hsame⟩ := h.requirements_evolve r q₀ hr
      rw [hq] at hq'
      cases hq'
      exact .inl ⟨q₀, rfl, hsame⟩
  | none =>
      right
      rcases over_cases hq with hnew | ⟨-, hold⟩
      · cases h with
        | declared hnone hstatus hR =>
            have he := (hR r q hnew).2.1
            subst he
            exact ⟨rfl, hnone, ⟨_, single_self _ _, hstatus⟩, hR, hnew⟩
        | matched | rejected | moved | closed => cases hnew
        | accepted h | fulfilled h =>
            obtain ⟨rfl, -⟩ := single_eq_some.mp hnew
            rw [h.bucket] at hr
            cases hr
        | formed h =>
            obtain ⟨rfl, -⟩ := single_eq_some.mp hnew
            rw [h.bucket] at hr
            cases hr
      · rw [hr] at hold
        cases hold

/-- A new event comes with its requirements. -/
theorem Commit.event_origin {a : Call} {w W : Rows} (h : Commit a w W) {e : Uuid}
    {ev : DisasterEvent} (he : (W.overlay w).events e = some ev) :
    (∃ ev₀, w.events e = some ev₀ ∧ ∃ st, ev = { ev₀ with status := st }) ∨
      (w.events e = none ∧ ∃ r q, (W.overlay w).requirements r = some q ∧ q.eventId = e ∧
        q.status = .opened) := by
  cases hk : w.events e with
  | some ev₀ =>
      obtain ⟨st, hst⟩ := h.events_evolve e ev₀ hk
      rw [he] at hst
      cases hst
      exact .inl ⟨ev₀, rfl, st, rfl⟩
  | none =>
      right
      refine ⟨rfl, ?_⟩
      rcases over_cases he with hnew | ⟨-, hold⟩
      · cases h with
        | declared _ _ hR hne =>
            obtain ⟨rfl, -⟩ := single_eq_some.mp hnew
            obtain ⟨r, q, hq⟩ := hne
            refine ⟨r, q, ?_, (hR r q hq).2.1, (hR r q hq).2.2.2.2⟩
            simp [Rows.overlay, Rows.writing, hq]
        | rejected | accepted | moved => cases hnew
        | matched hev | fulfilled _ _ _ hev | closed hev =>
            obtain ⟨rfl, -⟩ := single_eq_some.mp hnew
            rw [hev] at hk
            cases hk
        | formed _ _ _ hev =>
            obtain ⟨rfl, -⟩ := single_eq_some.mp hnew
            rw [hev] at hk
            cases hk
      · rw [hk] at hold
        cases hold

theorem Commit.linked {a : Call} {w W : Rows} (h : Commit a w W) (hw : Linked w) :
    Linked (W.overlay w) where
  bucket := by
    intro k m hm
    have hold : ∃ q, w.requirements m.requirementId = some q ∧ q.eventId = m.eventId := by
      rcases h.mapping_origin hm with ⟨m₀, hm₀, hsame⟩ | ⟨e, -, hM, hnew⟩
      · rw [hsame.requirement, hsame.event]
        exact hw.bucket k m₀ hm₀
      · obtain ⟨q, hq, he⟩ := hM.requirement k m hnew
        exact ⟨q, hq, he.trans (hM.row k m hnew).2.1.symm⟩
    obtain ⟨q, hq, he⟩ := hold
    obtain ⟨q', hq', hsame⟩ := h.requirements_evolve _ q hq
    exact ⟨q', hq', hsame.event.trans he⟩
  volunteer := by
    intro k m hm
    rw [h.evolves.profiles]
    rcases h.mapping_origin hm with ⟨m₀, hm₀, hsame⟩ | ⟨e, -, hM, hnew⟩
    · rw [hsame.volunteer]
      exact hw.volunteer k m₀ hm₀
    · exact hM.profile k m hnew
  event := by
    intro r q hq
    rcases h.requirement_origin hq with ⟨q₀, hq₀, hsame⟩ | ⟨-, -, ⟨ev, hev, -⟩, -⟩
    · obtain ⟨ev, hev⟩ := hw.event r q₀ hq₀
      obtain ⟨st, hst⟩ := h.events_evolve _ ev hev
      rw [hsame.event]
      exact ⟨_, hst⟩
    · exact ⟨ev, by simp [Rows.overlay, hev]⟩
  needs := by
    intro e ev he
    rcases h.event_origin he with ⟨ev₀, hev₀, -⟩ | ⟨-, r, q, hq, hqe, -⟩
    · obtain ⟨r, q, hq, hqe⟩ := hw.needs e ev₀ hev₀
      obtain ⟨q', hq', hsame⟩ := h.requirements_evolve r q hq
      exact ⟨r, q', hq', hsame.event.trans hqe⟩
    · exact ⟨r, q, hq, hqe⟩
  once := by
    intro k m j n hm hn hevent hvolunteer
    rcases h.mapping_origin hm with ⟨m₀, hm₀, hsm⟩ | ⟨e, -, hM, hmnew⟩
    · rcases h.mapping_origin hn with ⟨n₀, hn₀, hsn⟩ | ⟨e, -, hM, hnnew⟩
      · refine hw.once k m₀ j n₀ hm₀ hn₀ ?_ ?_
        · rw [← hsn.event, ← hsm.event, hevent]
        · rw [← hsn.volunteer, ← hsm.volunteer, hvolunteer]
      · have he := (hM.row j n hnnew).2.1
        refine absurd ?_ (hM.unmapped j n k m₀ hnnew hm₀ ?_)
        · rw [← hsm.volunteer, hvolunteer]
        · rw [← hsm.event, ← hevent, he]
    · have he := (hM.row k m hmnew).2.1
      rcases h.mapping_origin hn with ⟨n₀, hn₀, hsn⟩ | ⟨-, -, -, hnnew⟩
      · refine absurd ?_ (hM.unmapped k m j n₀ hmnew hn₀ ?_)
        · rw [← hsn.volunteer, hvolunteer]
        · rw [← hsn.event, hevent, he]
      · exact hM.distinct k m j n hmnew hnnew hvolunteer

/-! ## One bucket through a commit -/

section Holders

variable {w W : Rows} {k : Nat} {row : EventVolunteerMapping} {st : AssignmentStatus}
  {now : Time}

theorem mem_holders {r : Uuid} {j : Nat} : j ∈ holders w r ↔
    ∃ m, w.mappings j = some m ∧ m.requirementId = r ∧ m.status.counted = true := Iff.rfl

/-- Mappings other than `k` are as before. -/
theorem mem_holders_of_ne (hW : W.mappings = single k (setMapping st now row)) (r : Uuid)
    {j : Nat} (hj : j ≠ k) : j ∈ holders (W.overlay w) r ↔ j ∈ holders w r := by
  simp only [mem_holders, Rows.overlay, hW, single_of_ne _ hj, Option.none_or]

theorem mem_holders_self (hW : W.mappings = single k (setMapping st now row)) (r : Uuid) :
    k ∈ holders (W.overlay w) r ↔ row.requirementId = r ∧ st.counted = true := by
  simp only [mem_holders, Rows.overlay, hW, single_self, Option.some_or, Option.some.injEq,
    exists_eq_left']
  exact Iff.rfl

/-- A status change that takes and leaves no place. -/
theorem holders_of_status_change (hk : w.mappings k = some row)
    (hW : W.mappings = single k (setMapping st now row))
    (hst : st.counted = row.status.counted) (r : Uuid) :
    holders (W.overlay w) r = holders w r := by
  ext j
  by_cases hj : j = k
  · subst hj
    rw [mem_holders_self hW, mem_holders]
    simp [hk, hst]
  · exact mem_holders_of_ne hW r hj

theorem holders_of_accept (hk : w.mappings k = some row) (hn : row.status = .notified)
    (hW : W.mappings = single k (setMapping .accepted now row)) :
    k ∉ holders w row.requirementId ∧
      holders (W.overlay w) row.requirementId = insert k (holders w row.requirementId) ∧
      ∀ r, r ≠ row.requirementId → holders (W.overlay w) r = holders w r := by
  have hout : ∀ r, k ∉ holders w r := by
    rintro r ⟨m, hm, -, hc⟩
    rw [hk] at hm
    cases hm
    simp [hn, AssignmentStatus.counted] at hc
  refine ⟨hout _, ?_, fun r hr => ?_⟩
  · ext j
    by_cases hj : j = k
    · subst hj
      rw [mem_holders_self hW]
      simp [AssignmentStatus.counted]
    · rw [mem_holders_of_ne hW _ hj]
      simp [hj]
  · ext j
    by_cases hj : j = k
    · subst hj
      rw [mem_holders_self hW]
      simp [hr.symm, hout r]
    · exact mem_holders_of_ne hW r hj

theorem holders_of_matching {e : Uuid} (hM : NewMappings w e W.mappings) (r : Uuid) :
    holders (W.overlay w) r = holders w r := by
  ext j
  simp only [mem_holders]
  constructor
  · rintro ⟨m, hm, hr, hc⟩
    rcases over_cases hm with hnew | ⟨-, hold⟩
    · rw [(hM.row j m hnew).2.2] at hc
      cases hc
    · exact ⟨m, hold, hr, hc⟩
  · rintro ⟨m, hm, hr, hc⟩
    exact ⟨m, over_of_fresh (fun i u hi => (hM.row i u hi).1) hm, hr, hc⟩

/-- A bucket that does not exist yet has no holder. -/
theorem holders_of_none (hw : Linked w) {r : Uuid} (hr : w.requirements r = none) :
    holders w r = ∅ := by
  rw [Set.eq_empty_iff_forall_notMem]
  rintro j ⟨m, hm, hmr, -⟩
  obtain ⟨q, hq, -⟩ := hw.bucket j m hm
  rw [hmr, hr] at hq
  cases hq

end Holders

section Posted

variable {w W : Rows} {f : Message → Option Uuid}

theorem posted_of_plain (hO : Posts w W.outbox fun d => f d = none) (x : Uuid) :
    posted f (W.overlay w) x = posted f w x := by
  ext o
  constructor
  · rintro ⟨row, hrow, hf⟩
    rcases over_cases hrow with hnew | ⟨-, hold⟩
    · rw [(hO o row hnew).2] at hf
      cases hf
    · exact ⟨row, hold, hf⟩
  · rintro ⟨row, hrow, hf⟩
    exact ⟨row, over_of_fresh (fun i u hi => (hO i u hi).1) hrow, hf⟩

theorem posts_nothing (P : Message → Prop) : Posts w noRows P := fun _ _ h => by cases h

theorem posts_single {o : Uuid} {row : Outbox Message} {P : Message → Prop}
    (ho : w.outbox o = none) (hP : P row.payload.data) : Posts w (single o row) P := by
  intro o' row' h
  obtain ⟨rfl, rfl⟩ := single_eq_some.mp h
  exact ⟨ho, hP⟩

/-- The only new row that `f` looks at is `o`. -/
theorem posted_of_row {o : Uuid} {row : Outbox Message} {y : Uuid} (ho : w.outbox o = none)
    (hW : W.outbox o = some row) (hf : f row.payload.data = some y)
    (hothers : ∀ o' row', o' ≠ o → W.outbox o' = some row' →
      w.outbox o' = none ∧ f row'.payload.data = none) :
    o ∉ posted f w y ∧ posted f (W.overlay w) y = insert o (posted f w y) ∧
      ∀ x, x ≠ y → posted f (W.overlay w) x = posted f w x := by
  have hout : ∀ x, o ∉ posted f w x := by
    rintro x ⟨u, hu, -⟩
    rw [ho] at hu
    cases hu
  have hself : ∀ x, o ∈ posted f (W.overlay w) x ↔ x = y := by
    intro x
    simp only [posted, Set.mem_ofPred_eq, Rows.overlay, hW, Option.some_or, Option.some.injEq,
      exists_eq_left', hf]
    exact eq_comm
  have hne : ∀ x j, j ≠ o → (j ∈ posted f (W.overlay w) x ↔ j ∈ posted f w x) := by
    intro x j hj
    constructor
    · rintro ⟨u, hu, hfu⟩
      rcases over_cases hu with hnew | ⟨-, hold⟩
      · rw [(hothers j u hj hnew).2] at hfu
        cases hfu
      · exact ⟨u, hold, hfu⟩
    · rintro ⟨u, hu, hfu⟩
      refine ⟨u, ?_, hfu⟩
      cases hj' : W.outbox j with
      | none => simp [Rows.overlay, hj', hu]
      | some u' =>
          rw [(hothers j u' hj hj').1] at hu
          cases hu
  refine ⟨hout y, ?_, fun x hx => ?_⟩
  · ext j
    by_cases hj : j = o
    · subst hj
      simp [hself]
    · simp [hne y j hj, hj]
  · ext j
    by_cases hj : j = o
    · subst hj
      simp [hself, hx, hout x]
    · exact hne x j hj

end Posted

/-- What a commit may do to bucket `r`: nothing, create it, or give one of its
places away, the last one with the `requirement.fulfilled` event. -/
inductive BucketStep (w w' : Rows) (r : Uuid) : Prop
  | same (hreq : w'.requirements r = w.requirements r) (hold : holders w' r = holders w r)
      (hpost : posted Message.fulfilledRequirement w' r =
        posted Message.fulfilledRequirement w r)
  | created {q : EventRequirement} (hnone : w.requirements r = none)
      (hreq : w'.requirements r = some q) (hpos : 0 < q.requiredCount)
      (hzero : q.filledCount = 0) (hopen : q.status = .opened)
      (hold : holders w' r = holders w r)
      (hpost : posted Message.fulfilledRequirement w' r =
        posted Message.fulfilledRequirement w r)
  | filled {q : EventRequirement} {k : Nat} (hq : w.requirements r = some q)
      (hreq : w'.requirements r = some (fillPlace q))
      (hlt : q.filledCount + 1 < q.requiredCount)
      (hk : k ∉ holders w r) (hold : holders w' r = insert k (holders w r))
      (hpost : posted Message.fulfilledRequirement w' r =
        posted Message.fulfilledRequirement w r)
  | last {q : EventRequirement} {k : Nat} {o : Uuid} (hq : w.requirements r = some q)
      (hreq : w'.requirements r = some (fillLastPlace q))
      (hlt : q.filledCount < q.requiredCount) (hle : q.requiredCount ≤ q.filledCount + 1)
      (hk : k ∉ holders w r) (hold : holders w' r = insert k (holders w r))
      (ho : o ∉ posted Message.fulfilledRequirement w r)
      (hpost : posted Message.fulfilledRequirement w' r =
        insert o (posted Message.fulfilledRequirement w r))

theorem Posts.fulfilledRequirement_none {w : Rows} {O : Nat → Option (Outbox Message)}
    (h : Posts w O Message.Plain) : Posts w O fun d => d.fulfilledRequirement = none :=
  fun o row ho => ⟨(h o row ho).1, (h o row ho).2.1⟩

theorem Posts.formedEvent_none {w : Rows} {O : Nat → Option (Outbox Message)}
    (h : Posts w O Message.Plain) : Posts w O fun d => d.formedEvent = none :=
  fun o row ho => ⟨(h o row ho).1, (h o row ho).2.2⟩

/-- An acceptance that fills the last place, with or without the team. -/
theorem bucketStep_of_last {w W : Rows} {m u : Uuid} {now : Time}
    {row : EventVolunteerMapping} {q : EventRequirement} {o : Uuid} (ev : DisasterEvent)
    (h : Answers w m u row q) (hlt : q.filledCount < q.requiredCount)
    (hle : q.requiredCount ≤ q.filledCount + 1)
    (hR : W.requirements = single row.requirementId (fillLastPlace q))
    (hM : W.mappings = single m (setMapping .accepted now row))
    (ho : w.outbox o = none) (hO : W.outbox o = some (fulfilledRow ev row.requirementId q o))
    (hothers : ∀ o' row', o' ≠ o → W.outbox o' = some row' →
      w.outbox o' = none ∧ row'.payload.data.fulfilledRequirement = none) (r : Uuid) :
    BucketStep w (W.overlay w) r := by
  obtain ⟨hk, hhold, hrest⟩ := holders_of_accept h.mapping h.notified hM
  obtain ⟨hnew, hpost, hpostrest⟩ :=
    posted_of_row (f := Message.fulfilledRequirement) ho hO rfl hothers
  by_cases hr : r = row.requirementId
  · subst hr
    exact .last h.bucket (by simp [Rows.overlay, hR, single_self]) hlt hle hk hhold hnew hpost
  · exact .same (by simp [Rows.overlay, hR, single_of_ne _ hr]) (hrest r hr) (hpostrest r hr)

theorem Commit.bucketStep {a : Call} {w W : Rows} (h : Commit a w W) (r : Uuid) :
    BucketStep w (W.overlay w) r := by
  cases h with
  | @declared _ _ _ _ e ev R O hnew hstatus hR hne hO =>
      have hpost := posted_of_plain (W := .writing (single e ev) R noRows O)
        hO.fulfilledRequirement_none r
      cases hr : R r with
      | none => exact .same (by simp [Rows.overlay, Rows.writing, hr]) rfl hpost
      | some q =>
          obtain ⟨hnone, -, hpos, hzero, hopen⟩ := hR r q hr
          exact .created hnone (by simp [Rows.overlay, Rows.writing, hr]) hpos hzero hopen rfl hpost
  | @matched _ _ e ev status M O hev ha hM hO =>
      exact .same rfl
        (holders_of_matching (W := .writing (single e { ev with status := status }) noRows M O)
          hM r)
        (posted_of_plain (W := .writing (single e { ev with status := status }) noRows M O)
          hO.fulfilledRequirement_none r)
  | rejected h hfull =>
      have hst : AssignmentStatus.rejectedFull.counted = _ :=
        (congrArg AssignmentStatus.counted h.notified).symm
      exact .same rfl (holders_of_status_change h.mapping rfl hst r) rfl
  | @accepted _ m _ now row q h hlt =>
      obtain ⟨hk, hhold, hrest⟩ :=
        holders_of_accept (W := .writing noRows (single row.requirementId (fillPlace q))
          (single m (setMapping .accepted now row)) noRows) h.mapping h.notified rfl
      by_cases hr : r = row.requirementId
      · subst hr
        exact .filled h.bucket (by simp [Rows.overlay, Rows.writing, single_self]) hlt hk hhold rfl
      · exact .same (by simp [Rows.overlay, Rows.writing, single_of_ne _ hr]) (hrest r hr) rfl
  | fulfilled h hlt hle hev hleft ho =>
      refine bucketStep_of_last _ h hlt hle rfl rfl ho (single_self _ _) ?_ r
      intro o' row' hne hrow
      exact absurd (single_eq_some.mp hrow).1 hne
  | @formed _ _ _ _ _ _ ev _ _ _ _ h hlt hle hev hall hstatus ho ho' hne hroster =>
      refine bucketStep_of_last ev h hlt hle rfl rfl ho ?_ ?_ r
      · simp [teamWrites, Rows.writing, hne, single_self]
      · intro o₁ row₁ hne₁ hrow₁
        simp only [teamWrites, Rows.writing, Function.update_apply] at hrow₁
        split at hrow₁
        · rename_i ho₁
          cases hrow₁
          rw [ho₁]
          exact ⟨ho', rfl⟩
        · exact absurd (single_eq_some.mp hrow₁).1 hne₁
  | moved hnew hrow hfrom hown hev ho =>
      exact .same rfl (holders_of_status_change hrow rfl (transitions_counted hnew hfrom).1 r)
        (posted_of_plain
          (posts_single (P := fun d => d.fulfilledRequirement = none) ho rfl) r)
  | closed hev => exact .same rfl rfl rfl

theorem BucketStep.balanced {w w' : Rows} {r : Uuid} (h : BucketStep w w' r) (hw : Linked w)
    (hl : Ledger w) {q' : EventRequirement} (hq' : w'.requirements r = some q') :
    Balanced w' r q' := by
  cases h with
  | same hreq hold =>
      rw [hreq] at hq'
      have hb := hl r q' hq'
      refine ⟨hb.required, hb.within, hb.full, ?_⟩
      rw [hold]
      exact hb.count
  | created hnone hreq hpos hzero hopen hold =>
      rw [hreq] at hq'
      cases hq'
      refine ⟨hpos, by omega, ?_, 0, hzero, ?_⟩
      · rw [hopen, hzero]
        constructor
        · intro hf
          cases hf
        · intro hf
          omega
      · rw [hold, holders_of_none hw hnone]
        simp
  | @filled q k hq hreq hlt hk hold =>
      rw [hreq] at hq'
      cases hq'
      have hb := hl r q hq
      obtain ⟨n, hn, hcard⟩ := hb.count
      refine ⟨hb.required, ?_, ?_, n + 1, ?_, ?_⟩
      · show q.filledCount + 1 ≤ q.requiredCount
        omega
      · show q.status = .fulfilled ↔ q.filledCount + 1 = q.requiredCount
        rw [hb.full]
        omega
      · show q.filledCount + 1 = _
        rw [hn]
        rfl
      · rw [hold, Set.encard_insert_of_notMem hk, hcard]
        rfl
  | @last q k o hq hreq hlt hle hk hold =>
      rw [hreq] at hq'
      cases hq'
      have hb := hl r q hq
      obtain ⟨n, hn, hcard⟩ := hb.count
      refine ⟨hb.required, ?_, ?_, n + 1, ?_, ?_⟩
      · show q.filledCount + 1 ≤ q.requiredCount
        omega
      · show RequirementStatus.fulfilled = .fulfilled ↔ q.filledCount + 1 = q.requiredCount
        constructor
        · intro _
          omega
        · intro _
          rfl
      · show q.filledCount + 1 = _
        rw [hn]
        rfl
      · rw [hold, Set.encard_insert_of_notMem hk, hcard]
        rfl

theorem Commit.ledger {a : Call} {w W : Rows} (h : Commit a w W) (hw : Linked w)
    (hl : Ledger w) : Ledger (W.overlay w) :=
  fun r _ hq => (h.bucketStep r).balanced hw hl hq

/-! ## One event through a commit -/

section AllFulfilled

variable {w W : Rows} {e r : Uuid} {q q' : EventRequirement}

/-- A write to one bucket that is of another event, or keeps the status. -/
theorem allFulfilled_over_single (hW : W.requirements = single r q')
    (hq : w.requirements r = some q) (hevent : q'.eventId = q.eventId)
    (hkeep : q.eventId ≠ e ∨ q'.status = q.status) :
    AllFulfilled (W.overlay w) e ↔ AllFulfilled w e := by
  constructor
  · intro h r₁ q₁ hq₁ he₁
    by_cases hr : r₁ = r
    · subst hr
      rw [hq] at hq₁
      cases hq₁
      rcases hkeep with hne | hst
      · exact absurd he₁ hne
      · rw [← hst]
        exact h r₁ q' (by simp [Rows.overlay, hW, single_self]) (hevent.trans he₁)
    · exact h r₁ q₁ (by simp [Rows.overlay, hW, single_of_ne _ hr, hq₁]) he₁
  · intro h r₁ q₁ hq₁ he₁
    rcases over_cases hq₁ with hnew | ⟨-, hold⟩
    · rw [hW] at hnew
      obtain ⟨rfl, rfl⟩ := single_eq_some.mp hnew
      rw [hevent] at he₁
      rcases hkeep with hne | hst
      · exact absurd he₁ hne
      · rw [hst]
        exact h r₁ q hq he₁
    · exact h r₁ q₁ hold he₁

theorem allFulfilled_over_new {e₀ : Uuid} (hR : NewRequirements w e₀ W.requirements)
    (he : e ≠ e₀) : AllFulfilled (W.overlay w) e ↔ AllFulfilled w e := by
  constructor
  · intro h r₁ q₁ hq₁ he₁
    exact h r₁ q₁ (over_of_fresh (fun j u hj => (hR j u hj).1) hq₁) he₁
  · intro h r₁ q₁ hq₁ he₁
    rcases over_cases hq₁ with hnew | ⟨-, hold⟩
    · exact absurd (he₁.symm.trans (hR r₁ q₁ hnew).2.1) he
    · exact h r₁ q₁ hold he₁

end AllFulfilled

/-- What a commit may do to event `e`: nothing that matters, create it, or fill the
last of its buckets with the `team.formed` event. -/
inductive TeamStep (w w' : Rows) (e : Uuid) : Prop
  | same (hev : w'.events e = none ↔ w.events e = none)
      (hall : AllFulfilled w' e ↔ AllFulfilled w e)
      (hpost : posted Message.formedEvent w' e = posted Message.formedEvent w e)
  | created (hnone : w.events e = none) (hopen : ¬ AllFulfilled w' e)
      (hpost : posted Message.formedEvent w' e = posted Message.formedEvent w e)
  | formed {ev : DisasterEvent} {o : Uuid} (hev : w'.events e = some ev)
      (hopen : ¬ AllFulfilled w e) (hall : AllFulfilled w' e)
      (ho : o ∉ posted Message.formedEvent w e)
      (hpost : posted Message.formedEvent w' e = insert o (posted Message.formedEvent w e))

theorem over_eq_none_of_single {w W : Rows} {e e₀ : Uuid} {ev ev' : DisasterEvent}
    (hW : W.events = single e₀ ev') (hev : w.events e₀ = some ev) :
    (W.overlay w).events e = none ↔ w.events e = none := by
  by_cases he : e = e₀
  · subst he
    simp [Rows.overlay, hev]
  · simp [Rows.overlay, hW, single_of_ne _ he]

theorem over_event_self {w W : Rows} {e : Uuid} {ev : DisasterEvent}
    (hW : W.events = single e ev) : (W.overlay w).events e = some ev := by
  simp [Rows.overlay, hW, single_self]

/-- The bucket of an acceptance that takes a place is not FULFILLED. -/
theorem Balanced.opened {w : Rows} {r : Uuid} {q : EventRequirement} (h : Balanced w r q)
    (hlt : q.filledCount < q.requiredCount) : q.status ≠ .fulfilled := by
  intro hst
  have := h.full.mp hst
  omega

theorem Commit.teamStep {a : Call} {w W : Rows} (h : Commit a w W) (hw : WellFormed w)
    (e : Uuid) : TeamStep w (W.overlay w) e := by
  cases h with
  | @declared _ _ _ _ e₀ ev R O hnew hstatus hR hne hO =>
      have hpost := posted_of_plain (W := .writing (single e₀ ev) R noRows O)
        hO.formedEvent_none e
      by_cases he : e = e₀
      · subst he
        refine .created hnew (fun hall => ?_) hpost
        obtain ⟨r, q, hq⟩ := hne
        obtain ⟨-, hqe, -, -, hopen⟩ := hR r q hq
        have := hall r q (by simp [Rows.overlay, Rows.writing, hq]) hqe
        rw [hopen] at this
        cases this
      · refine .same ?_ (allFulfilled_over_new hR he) hpost
        simp [Rows.overlay, Rows.writing, single_of_ne _ he]
  | @matched _ _ e₀ ev status M O hev ha hM hO =>
      exact .same (over_eq_none_of_single rfl hev) Iff.rfl
        (posted_of_plain (W := .writing (single e₀ { ev with status := status }) noRows M O)
          hO.formedEvent_none e)
  | rejected h hfull => exact .same Iff.rfl Iff.rfl rfl
  | accepted h hlt =>
      exact .same Iff.rfl (allFulfilled_over_single rfl h.bucket rfl (.inr rfl)) rfl
  | @fulfilled _ _ _ _ row q ev _ h hlt hle hev hleft ho =>
      refine .same (over_eq_none_of_single rfl hev) ?_
        (posted_of_plain (posts_single (P := fun d => d.formedEvent = none) ho rfl) e)
      have hopen := (hw.ledger _ q h.bucket).opened hlt
      by_cases he : q.eventId = e
      · subst he
        rcases hleft with ⟨r', q', hr', hq', he', hst'⟩ | hformed
        · constructor
          · intro hall
            refine absurd (hall r' q' ?_ he') hst'
            simp [Rows.overlay, Rows.writing, single_of_ne _ hr', hq']
          · intro hall
            exact absurd (hall r' q' hq' he') hst'
        · have hall := hw.announced.status _ ev hev hformed
          exact absurd (hall _ q h.bucket rfl) hopen
      · exact allFulfilled_over_single rfl h.bucket rfl (.inl he)
  | @formed _ m _ now row q ev o o' _ team h hlt hle hev hall hstatus ho ho' hne hroster =>
      have hopen := (hw.ledger _ q h.bucket).opened hlt
      have hrow : (teamWrites m now row q ev team o o').outbox o' =
          some (formedRow ev q.eventId team o') := by
        simp [teamWrites, Rows.writing]
      obtain ⟨hfresh, hpost, hrest⟩ :=
        posted_of_row (f := Message.formedEvent) ho' hrow rfl (by
          intro o₁ row₁ hne₁ hrow₁
          simp only [teamWrites, Rows.writing, Function.update_apply, hne₁, if_false] at hrow₁
          obtain ⟨rfl, rfl⟩ := single_eq_some.mp hrow₁
          exact ⟨ho, rfl⟩)
      by_cases he : e = q.eventId
      · subst he
        refine .formed (over_event_self rfl) (fun hold => hopen (hold _ q h.bucket rfl)) ?_
          hfresh hpost
        intro r' q' hq' he'
        rcases over_cases hq' with hnew | ⟨hn, hold⟩
        · obtain ⟨rfl, rfl⟩ := single_eq_some.mp hnew
          rfl
        · refine hall r' q' (fun hr => ?_) hold he'
          rw [hr] at hn
          simp [teamWrites, Rows.writing, single_self] at hn
      · exact .same (over_eq_none_of_single rfl hev)
          (allFulfilled_over_single rfl h.bucket rfl (.inl fun hq => he hq.symm)) (hrest e he)
  | moved hnew hrow hfrom hown hev ho =>
      exact .same Iff.rfl Iff.rfl
        (posted_of_plain (posts_single (P := fun d => d.formedEvent = none) ho rfl) e)
  | closed hev => exact .same (over_eq_none_of_single rfl hev) Iff.rfl rfl

/-- All buckets of an event stay FULFILLED: requirements are added to new events
only. -/
theorem Commit.allFulfilled_mono {a : Call} {w W : Rows} (h : Commit a w W) {e : Uuid}
    {ev : DisasterEvent} (hev : w.events e = some ev) (hall : AllFulfilled w e) :
    AllFulfilled (W.overlay w) e := by
  intro r q hq he
  rcases h.requirement_origin hq with ⟨q₀, hq₀, hsame⟩ | ⟨-, hnone, -⟩
  · exact hsame.fulfilled (hall r q₀ hq₀ (hsame.event.symm.trans he))
  · rw [he, hev] at hnone
    cases hnone

theorem Commit.teamFormed_origin {a : Call} {w W : Rows} (h : Commit a w W) {e : Uuid}
    {ev : DisasterEvent} (hev : (W.overlay w).events e = some ev) (hst : ev.status = .teamFormed) :
    (∃ ev₀, w.events e = some ev₀ ∧ ev₀.status = .teamFormed) ∨
      AllFulfilled (W.overlay w) e := by
  rcases over_cases hev with hnew | ⟨-, hold⟩
  · cases h with
    | declared _ hstatus =>
        obtain ⟨-, rfl⟩ := single_eq_some.mp hnew
        rw [hstatus] at hst
        cases hst
    | @matched _ _ _ ev₀ _ _ _ hev₀ ha =>
        obtain ⟨rfl, rfl⟩ := single_eq_some.mp hnew
        rcases ha with ⟨-, -, hb⟩ | ⟨-, hs | hb⟩
        · rw [hb] at hst
          cases hst
        · exact .inl ⟨ev₀, hev₀, hs.symm.trans hst⟩
        · rw [hb] at hst
          cases hst
    | rejected | accepted | moved => cases hnew
    | fulfilled _ _ _ hev₀ =>
        obtain ⟨rfl, rfl⟩ := single_eq_some.mp hnew
        exact .inl ⟨_, hev₀, hst⟩
    | formed h _ _ hev₀ hall =>
        obtain ⟨rfl, rfl⟩ := single_eq_some.mp hnew
        right
        intro r' q' hq' he'
        rcases over_cases hq' with hnew' | ⟨hn, hold⟩
        · obtain ⟨rfl, rfl⟩ := single_eq_some.mp hnew'
          rfl
        · refine hall r' q' (fun hr => ?_) hold he'
          rw [hr] at hn
          simp [teamWrites, Rows.writing, single_self] at hn
    | closed =>
        obtain ⟨-, rfl⟩ := single_eq_some.mp hnew
        cases hst
  · exact .inl ⟨ev, hold, hst⟩

theorem BucketStep.announced {w w' : Rows} {r : Uuid} (h : BucketStep w w' r)
    (hw : WellFormed w) :
    (∀ q, w'.requirements r = some q → q.status = .fulfilled →
      (posted Message.fulfilledRequirement w' r).encard = 1) ∧
    ((∀ q, w'.requirements r = some q → q.status ≠ .fulfilled) →
      posted Message.fulfilledRequirement w' r = ∅) := by
  cases h with
  | same hreq hold hpost =>
      rw [hreq, hpost]
      exact ⟨hw.announced.bucket r, hw.announced.bucket_none r⟩
  | created hnone hreq hpos hzero hopen hold hpost =>
      rw [hreq, hpost]
      refine ⟨fun q hq hst => ?_, fun _ => hw.announced.bucket_none r fun q hq => ?_⟩
      · cases hq
        rw [hopen] at hst
        cases hst
      · rw [hnone] at hq
        cases hq
  | @filled q k hq hreq hlt hk hold hpost =>
      have hopen : q.status ≠ .fulfilled := (hw.ledger r q hq).opened (by omega)
      rw [hreq, hpost]
      refine ⟨fun q' hq' hst => ?_, fun _ => hw.announced.bucket_none r fun q' hq' => ?_⟩
      · cases hq'
        exact absurd hst hopen
      · rw [hq] at hq'
        cases hq'
        exact hopen
  | @last q k o hq hreq hlt hle hk hold ho hpost =>
      have hopen : q.status ≠ .fulfilled := (hw.ledger r q hq).opened hlt
      have hempty : posted Message.fulfilledRequirement w r = ∅ :=
        hw.announced.bucket_none r fun q' hq' => by
          rw [hq] at hq'
          cases hq'
          exact hopen
      rw [hreq, hpost, hempty]
      refine ⟨fun _ _ _ => by simp, fun hall => ?_⟩
      exact absurd rfl (hall _ rfl)

theorem TeamStep.announced {w w' : Rows} {e : Uuid} (h : TeamStep w w' e) (hw : WellFormed w) :
    (∀ ev, w'.events e = some ev → AllFulfilled w' e →
      (posted Message.formedEvent w' e).encard = 1) ∧
    ((∀ ev, w'.events e = some ev → ¬ AllFulfilled w' e) →
      posted Message.formedEvent w' e = ∅) := by
  cases h with
  | same hev hall hpost =>
      rw [hall, hpost]
      cases he : w.events e with
      | none =>
          rw [hev.mpr he]
          refine ⟨fun ev h => (by cases h), fun _ => hw.announced.team_none e fun ev h => ?_⟩
          rw [he] at h
          cases h
      | some ev₀ =>
          refine ⟨fun _ _ hf => hw.announced.team e ev₀ he hf, fun hopen => ?_⟩
          refine hw.announced.team_none e fun _ _ => ?_
          cases he' : w'.events e with
          | none =>
              rw [hev.mp he'] at he
              cases he
          | some ev => exact hopen ev he'
  | created hnone hopen hpost =>
      rw [hpost]
      refine ⟨fun _ _ hf => absurd hf hopen, fun _ => hw.announced.team_none e fun ev h => ?_⟩
      rw [hnone] at h
      cases h
  | formed hev hopen hall ho hpost =>
      have hempty : posted Message.formedEvent w e = ∅ :=
        hw.announced.team_none e fun _ _ => hopen
      rw [hpost, hempty]
      refine ⟨fun _ _ _ => by simp, fun hno => ?_⟩
      exact absurd hall (hno _ hev)

theorem Commit.announced {a : Call} {w W : Rows} (h : Commit a w W) (hw : WellFormed w) :
    Announced (W.overlay w) where
  bucket := fun r => ((h.bucketStep r).announced hw).1
  bucket_none := fun r => ((h.bucketStep r).announced hw).2
  team := fun e => ((h.teamStep hw e).announced hw).1
  team_none := fun e => ((h.teamStep hw e).announced hw).2
  status := by
    intro e ev hev hst
    rcases h.teamFormed_origin hev hst with ⟨ev₀, hev₀, hst₀⟩ | hall
    · exact h.allFulfilled_mono hev₀ (hw.announced.status e ev₀ hev₀ hst₀)
    · exact hall

theorem Commit.wellFormed {a : Call} {w W : Rows} (h : Commit a w W) (hw : WellFormed w) :
    WellFormed (W.overlay w) where
  linked := h.linked hw.linked
  ledger := h.ledger hw.linked hw.ledger
  announced := h.announced hw

/-- The rows of a database that holds profiles only. -/
def Rows.initial (profiles : Nat → Option VolunteerProfile) : Rows :=
  { nothing with profiles := profiles }

theorem Rows.initial_wellFormed (profiles : Nat → Option VolunteerProfile) :
    WellFormed (initial profiles) where
  linked := by constructor <;> intro _ _ <;> simp [initial, nothing, writing]
  ledger := fun r q h => by cases h
  announced := by
    have hempty : ∀ f x, posted f (initial profiles) x = ∅ := by
      intro f x
      rw [Set.eq_empty_iff_forall_notMem]
      rintro o ⟨row, h, -⟩
      cases h
    refine ⟨?_, fun r _ => hempty _ r, ?_, fun e _ => hempty _ e, ?_⟩
    · intro r q h
      cases h
    · intro e ev h
      cases h
    · intro e ev h
      cases h

end Volunteer
end Rcp
