/-
What a commit of the volunteer service may do to the committed rows.

`Rows` is the committed state, or a write set over it.  `Commit a w W` says that
call `a` may publish the write set `W` over the committed rows `w`.  It describes
the calls as atomic operations: the decisions a call took from earlier reads are
stated about the rows it commits over.
-/
import Rcp.Volunteer.Matching

namespace Rcp
namespace Volunteer

open Sql Sql.Table

structure Rows where
  events : Nat → Option DisasterEvent
  requirements : Nat → Option EventRequirement
  mappings : Nat → Option EventVolunteerMapping
  profiles : Nat → Option VolunteerProfile
  outbox : Nat → Option (Outbox Message)

namespace Rows

/-- A write set.  None of the calls writes a profile. -/
def writing (E : Nat → Option DisasterEvent) (R : Nat → Option EventRequirement)
    (M : Nat → Option EventVolunteerMapping) (O : Nat → Option (Outbox Message)) : Rows :=
  { events := E, requirements := R, mappings := M, profiles := noRows, outbox := O }

def nothing : Rows := writing noRows noRows noRows noRows

/-- The rows `w` with the write set `W` published over them. -/
def overlay (W w : Rows) : Rows :=
  { events := fun k => (W.events k).or (w.events k)
    requirements := fun k => (W.requirements k).or (w.requirements k)
    mappings := fun k => (W.mappings k).or (w.mappings k)
    profiles := fun k => (W.profiles k).or (w.profiles k)
    outbox := fun k => (W.outbox k).or (w.outbox k) }

end Rows

/-- The statuses that hold a place of the bucket. -/
def AssignmentStatus.counted : AssignmentStatus → Bool
  | .accepted | .enRoute | .completed => true
  | .notified | .declined | .rejectedFull => false

/-- The volunteer has set out. -/
def AssignmentStatus.movedOn : AssignmentStatus → Bool
  | .enRoute | .completed => true
  | _ => false

def Message.fulfilledRequirement : Message → Option Uuid
  | .requirementFulfilled _ r _ _ => some r
  | _ => none

def Message.formedEvent : Message → Option Uuid
  | .teamFormed e _ _ _ => some e
  | _ => none

def Message.notifiedRequirement : Message → Option Uuid
  | .assignmentNotified _ r _ _ _ _ => some r
  | _ => none

/-- Neither a `requirement.fulfilled` nor a `team.formed` event. -/
def Message.Plain (d : Message) : Prop :=
  d.fulfilledRequirement = none ∧ d.formedEvent = none

/-- All rows of `O` are new outbox rows whose data satisfies `P`. -/
def Posts (w : Rows) (O : Nat → Option (Outbox Message)) (P : Message → Prop) : Prop :=
  ∀ o row, O o = some row → w.outbox o = none ∧ P row.payload.data

/-- The user owns the mapping: its profile is theirs. -/
def Owned (w : Rows) (m : EventVolunteerMapping) (userId : Uuid) : Prop :=
  ∃ v, w.profiles m.volunteerId = some v ∧ v.userId = userId

/-- The entry of the team list stands for mapping `k`. -/
def Listed (w : Rows) (k : Nat) (member : TeamMember) : Prop :=
  ∃ m v q, w.mappings k = some m ∧ w.profiles m.volunteerId = some v ∧
    w.requirements m.requirementId = some q ∧
    member.volunteerUserId = v.userId ∧ member.skill = q.skill

/-- A team list read before the commit: it has every mapping of the event that is
still ACCEPTED, and only mappings that hold a place. -/
structure Roster (w : Rows) (e : Uuid) (ks : List Nat) (team : List TeamMember) : Prop where
  nodup : ks.Nodup
  holds : ∀ k ∈ ks, ∃ m, w.mappings k = some m ∧ m.eventId = e ∧ m.status.counted = true
  accepted : ∀ k m, w.mappings k = some m → m.eventId = e → m.status = .accepted → k ∈ ks
  listed : List.Forall₂ (Listed w) ks team

/-- The rows a matching run adds. -/
structure NewMappings (w : Rows) (e : Uuid) (M : Nat → Option EventVolunteerMapping) :
    Prop where
  row : ∀ k m, M k = some m → w.mappings k = none ∧ m.eventId = e ∧ m.status = .notified
  requirement : ∀ k m, M k = some m →
    ∃ q, w.requirements m.requirementId = some q ∧ q.eventId = e
  profile : ∀ k m, M k = some m → ∃ v, w.profiles m.volunteerId = some v
  unmapped : ∀ k m j n, M k = some m → w.mappings j = some n → n.eventId = e →
    n.volunteerId ≠ m.volunteerId
  distinct : ∀ k m j n, M k = some m → M j = some n → n.volunteerId = m.volunteerId → j = k

/-- The rows of a new event's requirements. -/
def NewRequirements (w : Rows) (e : Uuid) (R : Nat → Option EventRequirement) : Prop :=
  ∀ r q, R r = some q → w.requirements r = none ∧ q.eventId = e ∧ 0 < q.requiredCount ∧
    q.filledCount = 0 ∧ q.status = .opened

def fillPlace (q : EventRequirement) : EventRequirement :=
  { q with filledCount := q.filledCount + 1 }

def fillLastPlace (q : EventRequirement) : EventRequirement :=
  { fillPlace q with status := .fulfilled }

def fulfilledRow (ev : DisasterEvent) (r : Uuid) (q : EventRequirement) (o : Uuid) :
    Outbox Message :=
  outboxRow "volunteer.requirement.fulfilled" (some ev.tenantId)
    (.requirementFulfilled q.eventId r q.skill q.requiredCount) o

def formedRow (ev : DisasterEvent) (e : Uuid) (team : List TeamMember) (o : Uuid) :
    Outbox Message :=
  outboxRow "volunteer.team.formed" (some ev.tenantId)
    (.teamFormed e ev.title ev.sourceDistrict team) o

/-- The mapping a call of its owner may answer: it is still NOTIFIED. -/
structure Answers (w : Rows) (m u : Uuid) (row : EventVolunteerMapping)
    (q : EventRequirement) : Prop where
  mapping : w.mappings m = some row
  notified : row.status = .notified
  owned : Owned w row u
  bucket : w.requirements row.requirementId = some q

/-- Whether a matching call sets the event status from the row it locked
(`run_matching`) or from an object loaded before (`rebroadcast`). -/
def MatchCall (a : Call) (e : Uuid) (ev : DisasterEvent) (status : EventStatus) : Prop :=
  (a = .runMatching e ∧ (ev.status = .declared ∨ ev.status = .broadcasting) ∧
      status = .broadcasting) ∨
    ((∃ tenantId, a = .rebroadcast tenantId e) ∧
      (status = ev.status ∨ status = .broadcasting))

/-- The write set of the acceptance that forms the team. -/
def teamWrites (m : Uuid) (now : Time) (row : EventVolunteerMapping) (q : EventRequirement)
    (ev : DisasterEvent) (team : List TeamMember) (o o' : Uuid) : Rows :=
  .writing (single q.eventId { ev with status := .teamFormed })
    (single row.requirementId (fillLastPlace q)) (single m (setMapping .accepted now row))
    (Function.update (single o (fulfilledRow ev row.requirementId q o)) o'
      (some (formedRow ev q.eventId team o')))

inductive Commit : Call → Rows → Rows → Prop
  | declared {w : Rows} {tenantId createdBy : Uuid} {data : DisasterEventCreate} {e : Uuid}
      {ev : DisasterEvent} {R : Nat → Option EventRequirement}
      {O : Nat → Option (Outbox Message)}
      (hnew : w.events e = none) (hstatus : ev.status = .declared)
      (hR : NewRequirements w e R) (hne : ∃ r q, R r = some q)
      (hO : Posts w O Message.Plain) :
      Commit (.declareEvent tenantId createdBy data) w (.writing (single e ev) R noRows O)
  | matched {w : Rows} {a : Call} {e : Uuid} {ev : DisasterEvent} {status : EventStatus}
      {M : Nat → Option EventVolunteerMapping} {O : Nat → Option (Outbox Message)}
      (hev : w.events e = some ev) (ha : MatchCall a e ev status)
      (hM : NewMappings w e M) (hO : Posts w O Message.Plain) :
      Commit a w (.writing (single e { ev with status := status }) noRows M O)
  | rejected {w : Rows} {m u : Uuid} {now : Time} {row : EventVolunteerMapping}
      {q : EventRequirement}
      (h : Answers w m u row q) (hfull : q.requiredCount ≤ q.filledCount) :
      Commit (.acceptAssignment m u now) w
        (.writing noRows noRows (single m (setMapping .rejectedFull now row)) noRows)
  | accepted {w : Rows} {m u : Uuid} {now : Time} {row : EventVolunteerMapping}
      {q : EventRequirement}
      (h : Answers w m u row q) (hlt : q.filledCount + 1 < q.requiredCount) :
      Commit (.acceptAssignment m u now) w
        (.writing noRows (single row.requirementId (fillPlace q))
          (single m (setMapping .accepted now row)) noRows)
  | fulfilled {w : Rows} {m u : Uuid} {now : Time} {row : EventVolunteerMapping}
      {q : EventRequirement} {ev : DisasterEvent} {o : Uuid}
      (h : Answers w m u row q) (hlt : q.filledCount < q.requiredCount)
      (hle : q.requiredCount ≤ q.filledCount + 1) (hev : w.events q.eventId = some ev)
      (hleft : (∃ r' q', r' ≠ row.requirementId ∧ w.requirements r' = some q' ∧
        q'.eventId = q.eventId ∧ q'.status ≠ .fulfilled) ∨ ev.status = .teamFormed)
      (ho : w.outbox o = none) :
      Commit (.acceptAssignment m u now) w
        (.writing (single q.eventId ev) (single row.requirementId (fillLastPlace q))
          (single m (setMapping .accepted now row))
          (single o (fulfilledRow ev row.requirementId q o)))
  | formed {w : Rows} {m u : Uuid} {now : Time} {row : EventVolunteerMapping}
      {q : EventRequirement} {ev : DisasterEvent} {o o' : Uuid} {ks : List Nat}
      {team : List TeamMember}
      (h : Answers w m u row q) (hlt : q.filledCount < q.requiredCount)
      (hle : q.requiredCount ≤ q.filledCount + 1) (hev : w.events q.eventId = some ev)
      (hall : ∀ r' q', r' ≠ row.requirementId → w.requirements r' = some q' →
        q'.eventId = q.eventId → q'.status = .fulfilled)
      (hstatus : ev.status ≠ .teamFormed)
      (ho : w.outbox o = none) (ho' : w.outbox o' = none) (hne : o ≠ o')
      (hroster : Roster ((teamWrites m now row q ev team o o').overlay w) q.eventId ks team) :
      Commit (.acceptAssignment m u now) w (teamWrites m now row q ev team o o')
  | moved {w : Rows} {m u : Uuid} {now : Time} {new : AssignmentStatus}
      {allowedFrom : List AssignmentStatus} {row : EventVolunteerMapping}
      {ev : DisasterEvent} {o : Uuid}
      (hnew : transitions new = some allowedFrom) (hrow : w.mappings m = some row)
      (hfrom : row.status ∈ allowedFrom) (hown : Owned w row u)
      (hev : w.events row.eventId = some ev) (ho : w.outbox o = none) :
      Commit (.transitionAssignment m u new now) w
        (.writing noRows noRows (single m (setMapping new now row))
          (single o (outboxRow (transitionKey new) (some ev.tenantId)
            (.assignmentMoved row.eventId row.requirementId u new) o)))
  | closed {w : Rows} {tenantId e : Uuid} {ev : DisasterEvent}
      (hev : w.events e = some ev) :
      Commit (.closeEvent tenantId e) w
        (.writing (single e { ev with status := .closed }) noRows noRows noRows)

/-- The two ways an acceptance answers. -/
theorem Commit.answer {k user : Uuid} {now : Time} {w W : Rows}
    (h : Commit (.acceptAssignment k user now) w W) :
    ∃ row q, Answers w k user row q ∧
      ((q.requiredCount ≤ q.filledCount ∧ W.requirements = noRows ∧
          W.mappings = single k (setMapping .rejectedFull now row)) ∨
        (q.filledCount < q.requiredCount ∧ W.mappings = single k (setMapping .accepted now row) ∧
          ∃ q', W.requirements = single row.requirementId q' ∧
            q'.requiredCount = q.requiredCount ∧ q'.filledCount = q.filledCount + 1)) := by
  cases h with
  | matched _ ha => rcases ha with ⟨h, -⟩ | ⟨⟨_, h⟩, -⟩ <;> cases h
  | rejected h hfull => exact ⟨_, _, h, .inl ⟨hfull, rfl, rfl⟩⟩
  | accepted h hlt => exact ⟨_, _, h, .inr ⟨by omega, rfl, _, rfl, rfl, rfl⟩⟩
  | fulfilled h hlt => exact ⟨_, _, h, .inr ⟨hlt, rfl, _, rfl, rfl, rfl⟩⟩
  | formed h hlt => exact ⟨_, _, h, .inr ⟨hlt, rfl, _, rfl, rfl, rfl⟩⟩

end Volunteer
end Rcp
