/-
The tables of the volunteer service (`services/volunteer/app/models`) and the
data it receives.

Left out are the columns that no modelled function reads: an event's description
and coordinates, and the `created_at` and `updated_at` stamps other than the
profile's `created_at`, which orders candidates.
-/
import Rcp.Common.Outbox
import Rcp.Volunteer.Districts

namespace Rcp
namespace Volunteer

open Sql

inductive EventStatus
  | declared
  | broadcasting
  | teamFormed
  | closed
  deriving DecidableEq, Repr

inductive RequirementStatus
  | opened
  | fulfilled
  deriving DecidableEq, Repr

inductive AssignmentStatus
  | notified
  | accepted
  | declined
  | rejectedFull
  | enRoute
  | completed
  deriving DecidableEq, Repr

def EventStatus.value : EventStatus → String
  | declared => "DECLARED"
  | broadcasting => "BROADCASTING"
  | teamFormed => "TEAM_FORMED"
  | closed => "CLOSED"

def AssignmentStatus.value : AssignmentStatus → String
  | notified => "NOTIFIED"
  | accepted => "ACCEPTED"
  | declined => "DECLINED"
  | rejectedFull => "REJECTED_FULL"
  | enRoute => "EN_ROUTE"
  | completed => "COMPLETED"

structure DisasterEvent where
  tenantId : Uuid
  title : String
  sourceDistrict : String
  broadcastType : BroadcastType
  targetDistricts : List String
  status : EventStatus := .declared
  createdBy : Uuid
  deriving DecidableEq

/-- A skill bucket with a quota. -/
structure EventRequirement where
  eventId : Uuid
  skill : String
  requiredCount : Int
  filledCount : Int := 0
  status : RequirementStatus := .opened
  deriving DecidableEq

/-- One volunteer's participation in one event, against one skill bucket. -/
structure EventVolunteerMapping where
  eventId : Uuid
  requirementId : Uuid
  volunteerId : Uuid
  status : AssignmentStatus := .notified
  respondedAt : Option Time := none
  deriving DecidableEq

structure VolunteerProfile where
  userId : Uuid
  fullName : String
  phone : Option String
  isActive : Bool
  sourceUpdatedAt : Option Time
  baseDistrict : Option String
  city : Option String
  availableStatus : Bool
  skills : List String
  createdAt : Time
  deriving DecidableEq

structure TeamMember where
  volunteerUserId : Uuid
  fullName : String
  phone : Option String
  skill : String
  baseDistrict : Option String
  deriving DecidableEq

/-- The data part of the events this service emits. -/
inductive Message
  | disasterDeclared (eventId tenantId : Uuid) (title sourceDistrict : String)
      (broadcastType : BroadcastType) (resolvedDistricts : List String)
      (requirements : List (String × Int))
  | assignmentNotified (eventId requirementId volunteerUserId : Uuid)
      (skill sourceDistrict title : String)
  | requirementFulfilled (eventId requirementId : Uuid) (skill : String) (requiredCount : Int)
  | teamFormed (eventId : Uuid) (title sourceDistrict : String) (team : List TeamMember)
  | assignmentMoved (eventId requirementId volunteerUserId : Uuid) (status : AssignmentStatus)
  deriving DecidableEq

structure Db where
  events : Table DisasterEvent
  requirements : Table EventRequirement
  mappings : Table EventVolunteerMapping
  profiles : Table VolunteerProfile
  outbox : Table (Outbox Message)
  /-- The handled event ids. -/
  processed : Table Unit

namespace Db

def eventsT : Access Db DisasterEvent :=
  { get := Db.events, set := fun s T => { s with events := T } }

def requirementsT : Access Db EventRequirement :=
  { get := Db.requirements, set := fun s T => { s with requirements := T } }

def mappingsT : Access Db EventVolunteerMapping :=
  { get := Db.mappings, set := fun s T => { s with mappings := T } }

def profilesT : Access Db VolunteerProfile :=
  { get := Db.profiles, set := fun s T => { s with profiles := T } }

def outboxT : Access Db (Outbox Message) :=
  { get := Db.outbox, set := fun s T => { s with outbox := T } }

def processedT : Access Db Unit :=
  { get := Db.processed, set := fun s T => { s with processed := T } }

instance : Transactional Db where
  commit t s :=
    { events := s.events.commit t
      requirements := s.requirements.commit t
      mappings := s.mappings.commit t
      profiles := s.profiles.commit t
      outbox := s.outbox.commit t
      processed := s.processed.commit t }
  rollback t s :=
    { events := s.events.rollback t
      requirements := s.requirements.rollback t
      mappings := s.mappings.rollback t
      profiles := s.profiles.rollback t
      outbox := s.outbox.rollback t
      processed := s.processed.rollback t }

/-- A fresh database that already holds the given volunteer profiles. -/
def initial (profiles : List VolunteerProfile) : Db :=
  { events := .empty
    requirements := .empty
    mappings := .empty
    profiles := .ofList profiles
    outbox := .empty
    processed := .empty }

end Db

/-- `RequirementCreate` after validation. -/
structure RequirementCreate where
  skill : String
  requiredCount : Int
  count_pos : 0 < requiredCount
  count_le : requiredCount ≤ 1000

/-- `DisasterEventCreate` after validation. -/
structure DisasterEventCreate where
  title : String
  sourceDistrict : String
  broadcastType : BroadcastType
  targetDistricts : Option (List String)
  requirements : List RequirementCreate
  district_valid : isValidDistrict sourceDistrict = true
  targets_match : broadcastType = .targeted ↔ (targetDistricts.getD []).isEmpty = false
  requirements_pos : 1 ≤ requirements.length
  requirements_le : requirements.length ≤ 50
  skills_nodup : (requirements.map RequirementCreate.skill).Nodup

end Volunteer
end Rcp
