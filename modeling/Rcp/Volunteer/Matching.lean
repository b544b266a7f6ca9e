/-
The matching engine (`services/volunteer/app/services/matching.py`) and the event
routes that write (`services/volunteer/app/api/routes_events.py`), as transaction
programs.

The session has `autoflush=False`: added and changed objects are written by
`flush` or `commit`, so each program issues those statements where the flush
stands.  An ORM assignment writes a column only when it changes the loaded value.
-/
import Rcp.Volunteer.Model

namespace Rcp
namespace Volunteer

open Sql

inductive Error
  | assignmentError (text : String)
  | quotaFullError (text : String)
  | valueError (text : String)
  | httpException (code : Nat) (detail : String)
  | integrityError (constraint : String)
  | noResult
  deriving DecidableEq, Repr

inductive Reply
  | event (id : Uuid) (row : DisasterEvent)
  | count (n : Nat)
  | mapping (id : Uuid) (row : EventVolunteerMapping)
  deriving DecidableEq

/-- `db.refresh`. -/
def refresh {V : Type} (T : Access Db V) (k : Nat) : Prog Db Error V := do
  match ← selectKey T k with
  | none => .raise .noResult
  | some v => return v

/-! ## Declare -/

def insertRequirements (eventId : Uuid) : List RequirementCreate → Prog Db Error Unit
  | [] => return ()
  | r :: rest => do
      let _ ← insert Db.requirementsT fun _ =>
        { eventId := eventId, skill := r.skill, requiredCount := r.requiredCount }
      insertRequirements eventId rest

def declareEvent (tenantId createdBy : Uuid) (data : DisasterEventCreate) :
    Prog Db Error Reply :=
  match resolveBroadcastDistricts data.broadcastType data.sourceDistrict
      (data.targetDistricts.getD []) with
  | .error text => .raise (.valueError text)
  | .ok resolved => do
      let eventId ← insert Db.eventsT fun _ =>
        { tenantId := tenantId
          title := data.title
          sourceDistrict := data.sourceDistrict
          broadcastType := data.broadcastType
          targetDistricts := data.targetDistricts.getD []
          createdBy := createdBy }
      insertRequirements eventId data.requirements
      let _ ← emit Db.outboxT "volunteer.disaster.declared" (some tenantId)
        (.disasterDeclared eventId tenantId data.title data.sourceDistrict
          data.broadcastType resolved
          (data.requirements.map fun r => (r.skill, r.requiredCount)))
      commit
      let event ← refresh Db.eventsT eventId
      return .event eventId event

/-! ## Matching -/

/-- The skill-bucket filter of `_find_candidates`. -/
def matchesBucket (districts : List String) (skill : String) (v : VolunteerProfile) : Bool :=
  v.availableStatus && v.isActive && v.baseDistrict.any (districts.contains ·) &&
    v.skills.contains skill

def findCandidates (districts : List String) (skill : String) (excludeVolunteers : List Uuid) :
    Prog Db Error (List (Uuid × VolunteerProfile)) := do
  let found ← select Db.profilesT fun _ v => matchesBucket districts skill v
  return (found.insertionSort fun a b => a.2.createdAt ≤ b.2.createdAt).filter
    fun v => !excludeVolunteers.contains v.1

/-- A mapping and its notification, added to the session and not flushed yet. -/
structure Addition where
  mapping : EventVolunteerMapping
  tenantId : Uuid
  notice : Message

def additionFor (eventId : Uuid) (event : DisasterEvent) (requirementId : Uuid)
    (requirement : EventRequirement) (volunteer : Uuid × VolunteerProfile) : Addition :=
  { mapping :=
      { eventId := eventId, requirementId := requirementId, volunteerId := volunteer.1 }
    tenantId := event.tenantId
    notice := .assignmentNotified eventId requirementId volunteer.2.userId requirement.skill
      event.sourceDistrict event.title }

/-- The loop of `run_matching` over the requirements. -/
def planBuckets (eventId : Uuid) (event : DisasterEvent) (districts : List String) :
    List (Uuid × EventRequirement) → List Uuid → Prog Db Error (List Addition)
  | [], _ => return []
  | (requirementId, requirement) :: rest, alreadyMapped =>
      if requirement.status ≠ .opened then
        planBuckets eventId event districts rest alreadyMapped
      else do
        let volunteers ← findCandidates districts requirement.skill alreadyMapped
        let others ← planBuckets eventId event districts rest
          (alreadyMapped ++ volunteers.map Prod.fst)
        return volunteers.map (additionFor eventId event requirementId requirement) ++ others

def flushAdditions : List Addition → Prog Db Error Unit
  | [] => return ()
  | a :: rest => do
      match ← insertUnique Db.mappingsT
          (fun m => m.eventId == a.mapping.eventId && m.volunteerId == a.mapping.volunteerId)
          (fun _ => a.mapping) with
      | none => .raise (.integrityError "uq_evm_event_volunteer")
      | some _ => do
          let _ ← emit Db.outboxT "volunteer.assignment.notified" (some a.tenantId) a.notice
          flushAdditions rest

/-- The flush of an assignment to `event.status`, `loaded` being the value the
session holds. -/
def setEventStatus (eventId : Uuid) (loaded new : EventStatus) : Prog Db Error Unit :=
  if loaded = new then return ()
  else do
    let _ ← update Db.eventsT eventId fun e => { e with status := new }
    return ()

def matchBuckets (eventId : Uuid) (event : DisasterEvent)
    (requirements : List (Uuid × EventRequirement)) : Prog Db Error Nat :=
  if event.status ≠ .declared ∧ event.status ≠ .broadcasting then return 0
  else
    match resolveBroadcastDistricts event.broadcastType event.sourceDistrict
        event.targetDistricts with
    | .error text => .raise (.valueError text)
    | .ok districts => do
        let mapped ← select Db.mappingsT fun _ m => m.eventId == eventId
        let additions ← planBuckets eventId event districts requirements
          (mapped.map fun m => m.2.volunteerId)
        flushAdditions additions
        setEventStatus eventId event.status .broadcasting
        commit
        return additions.length

def eventRequirements (eventId : Uuid) : Prog Db Error (List (Uuid × EventRequirement)) :=
  select Db.requirementsT fun _ r => r.eventId == eventId

/-- `run_matching`.  `loaded` is the event with its requirements when the session
holds them already: the locking select does not refresh loaded objects. -/
def runMatching (loaded : Option (DisasterEvent × List (Uuid × EventRequirement)))
    (eventId : Uuid) : Prog Db Error Nat := do
  match ← selectForUpdate Db.eventsT eventId with
  | none => return 0
  | some row =>
      match loaded with
      | some (event, requirements) => matchBuckets eventId event requirements
      | none => do
          let requirements ← eventRequirements eventId
          matchBuckets eventId row requirements

/-! ## Accept -/

/-- The mapping, if it belongs to the given user. -/
def ownRow (mappingId volunteerUserId : Uuid) (t : Sid) (s : Db) :
    Option EventVolunteerMapping :=
  match s.mappings.read t mappingId with
  | none => none
  | some m =>
      match s.profiles.read t m.volunteerId with
      | none => none
      | some v => if v.userId = volunteerUserId then some m else none

def ownMapping (mappingId volunteerUserId : Uuid) :
    Prog Db Error (Option EventVolunteerMapping) :=
  query (ownRow mappingId volunteerUserId)

def setMapping (status : AssignmentStatus) (now : Time) (m : EventVolunteerMapping) :
    EventVolunteerMapping :=
  { m with status := status, respondedAt := some now }

/-- One entry of the team list: the volunteer was loaded with the mapping, the
skill comes from `db.get`. -/
def teamMember (m : EventVolunteerMapping) : Prog Db Error TeamMember := do
  match ← selectKey Db.profilesT m.volunteerId with
  | none => .raise .noResult
  | some v => do
      match ← selectKey Db.requirementsT m.requirementId with
      | none => .raise .noResult
      | some r =>
          return { volunteerUserId := v.userId
                   fullName := v.fullName
                   phone := v.phone
                   skill := r.skill
                   baseDistrict := v.baseDistrict }

def teamMembers : List EventVolunteerMapping → Prog Db Error (List TeamMember)
  | [] => return []
  | m :: rest => do
      let member ← teamMember m
      let others ← teamMembers rest
      return member :: others

/-- The branch of `_mark_requirement_fulfilled` taken when the last bucket
fills. -/
def formTeam (eventId : Uuid) (event : DisasterEvent) : Prog Db Error Unit := do
  let accepted ← select Db.mappingsT fun _ m => m.eventId == eventId && m.status == .accepted
  let team ← teamMembers (accepted.map Prod.snd)
  setEventStatus eventId event.status .teamFormed
  let _ ← emit Db.outboxT "volunteer.team.formed" (some event.tenantId)
    (.teamFormed eventId event.title event.sourceDistrict team)
  return ()

def markRequirementFulfilled (requirementId : Uuid) : Prog Db Error Unit := do
  match ← selectKey Db.requirementsT requirementId with
  | none => .raise .noResult
  | some requirement => do
      match ← selectForUpdate Db.eventsT requirement.eventId with
      | none => .raise .noResult
      | some event => do
          let _ ← update Db.requirementsT requirementId fun r => { r with status := .fulfilled }
          let _ ← emit Db.outboxT "volunteer.requirement.fulfilled" (some event.tenantId)
            (.requirementFulfilled requirement.eventId requirementId requirement.skill
              requirement.requiredCount)
          let openLeft ← select Db.requirementsT fun _ r =>
            r.eventId == requirement.eventId && r.status != .fulfilled
          if openLeft.length = 0 ∧ event.status ≠ .teamFormed then
            formTeam requirement.eventId event
          else return ()

/- An update synchronises the objects of the session by evaluating its condition
on them, not by what it matched: a mapping loaded as NOTIFIED reads ACCEPTED in
the text of the error below, whatever the row holds. -/
def acceptAssignment (mappingId volunteerUserId : Uuid) (now : Time) : Prog Db Error Reply := do
  match ← ownMapping mappingId volunteerUserId with
  | none => .raise (.assignmentError "Assignment not found")
  | some mapping => do
      match ← updateWhere Db.mappingsT mappingId (fun m => m.status == .notified)
          (setMapping .accepted now) with
      | none =>
          let shown := if mapping.status = .notified then .accepted else mapping.status
          .raise (.assignmentError ("Assignment already " ++ lower shown.value))
      | some _ => do
          match ← updateWhere Db.requirementsT mapping.requirementId
              (fun r => r.filledCount < r.requiredCount)
              (fun r => { r with filledCount := r.filledCount + 1 }) with
          | none => do
              let _ ← update Db.mappingsT mappingId (setMapping .rejectedFull now)
              commit
              .raise (.quotaFullError "This skill quota is already filled")
          | some row => do
              if row.filledCount ≥ row.requiredCount then
                markRequirementFulfilled mapping.requirementId
              else pure ()
              commit
              let mapping ← refresh Db.mappingsT mappingId
              return .mapping mappingId mapping

/-! ## Other transitions -/

/-- `_TRANSITIONS`. -/
def transitions : AssignmentStatus → Option (List AssignmentStatus)
  | .declined => some [.notified]
  | .enRoute => some [.accepted]
  | .completed => some [.enRoute, .accepted]
  | _ => none

def transitionKey (new : AssignmentStatus) : String :=
  "volunteer.assignment." ++ replaceChar '_' '-' (lower new.value)

def transitionAssignment (mappingId volunteerUserId : Uuid) (new : AssignmentStatus)
    (now : Time) : Prog Db Error Reply :=
  match transitions new with
  | none => .raise (.assignmentError ("Cannot transition to " ++ new.value ++ " directly"))
  | some allowedFrom => do
      match ← ownMapping mappingId volunteerUserId with
      | none => .raise (.assignmentError "Assignment not found")
      | some mapping => do
          match ← updateWhere Db.mappingsT mappingId (fun m => allowedFrom.contains m.status)
              (setMapping new now) with
          | none =>
              let shown := if allowedFrom.contains mapping.status then new else mapping.status
              .raise (.assignmentError
                ("Cannot move assignment from " ++ shown.value ++ " to " ++ new.value))
          | some _ => do
              match ← selectKey Db.eventsT mapping.eventId with
              | none => .raise .noResult
              | some event => do
                  let _ ← emit Db.outboxT (transitionKey new) (some event.tenantId)
                    (.assignmentMoved mapping.eventId mapping.requirementId volunteerUserId new)
                  commit
                  let mapping ← refresh Db.mappingsT mappingId
                  return .mapping mappingId mapping

/-! ## Event routes -/

def tenantEvent (tenantId eventId : Uuid) :
    Prog Db Error (DisasterEvent × List (Uuid × EventRequirement)) := do
  match ← selectKey Db.eventsT eventId with
  | none => .raise (.httpException 404 "Event not found")
  | some event =>
      if event.tenantId = tenantId then do
        let requirements ← eventRequirements eventId
        return (event, requirements)
      else .raise (.httpException 404 "Event not found")

def rebroadcast (tenantId eventId : Uuid) : Prog Db Error Reply := do
  let (event, requirements) ← tenantEvent tenantId eventId
  if event.status ≠ .declared ∧ event.status ≠ .broadcasting then
    .raise (.httpException 409 ("Event is " ++ event.status.value))
  else do
    let _ ← runMatching (some (event, requirements)) eventId
    let event ← refresh Db.eventsT eventId
    return .event eventId event

def closeEvent (tenantId eventId : Uuid) : Prog Db Error Reply := do
  let (event, _) ← tenantEvent tenantId eventId
  setEventStatus eventId event.status .closed
  commit
  let event ← refresh Db.eventsT eventId
  return .event eventId event

/-! ## Calls -/

inductive Call
  | declareEvent (tenantId createdBy : Uuid) (data : DisasterEventCreate)
  | runMatching (eventId : Uuid)
  | rebroadcast (tenantId eventId : Uuid)
  | acceptAssignment (mappingId volunteerUserId : Uuid) (now : Time)
  | transitionAssignment (mappingId volunteerUserId : Uuid) (new : AssignmentStatus) (now : Time)
  | closeEvent (tenantId eventId : Uuid)

def Call.body : Call → Prog Db Error Reply
  | .declareEvent tenantId createdBy data => Volunteer.declareEvent tenantId createdBy data
  | .runMatching eventId => do
      let n ← Volunteer.runMatching none eventId
      return .count n
  | .rebroadcast tenantId eventId => Volunteer.rebroadcast tenantId eventId
  | .acceptAssignment mappingId volunteerUserId now =>
      Volunteer.acceptAssignment mappingId volunteerUserId now
  | .transitionAssignment mappingId volunteerUserId new now =>
      Volunteer.transitionAssignment mappingId volunteerUserId new now
  | .closeEvent tenantId eventId => Volunteer.closeEvent tenantId eventId

end Volunteer
end Rcp
