/-
The two consumers of the volunteer service, `services/volunteer/app/events/consumers/iam.py`
and `disaster.py`, handle an event effectively once.

The consumer of disasters adds the marker to the session and then calls `run_matching`, whose
commit flushes it with the mappings.  Where `run_matching` skips the event it does not commit,
and the commit of the consumer flushes the marker alone.
-/
import Rcp.Volunteer.Matching
import Rcp.Volunteer.ProfileModel

namespace Rcp
namespace Volunteer

open Sql

/-! ## The consumer of disasters -/

namespace Disaster

/-- `data["event_id"]`. -/
def disasterId : Message → Uuid
  | .disasterDeclared eventId .. | .assignmentNotified eventId .. | .requirementFulfilled eventId ..
  | .teamFormed eventId .. | .assignmentMoved eventId .. => eventId

/-- The flush of the marker that was added to the session. -/
def flushMarker (eventId : Uuid) : Prog Db Error Unit := do
  match ← insertKey Db.processedT eventId () with
  | false => .raise (.integrityError "processed_events_pkey")
  | true => return ()

/-- The end of `run_matching` in a session with another object to flush.  Nothing is committed
if the event is skipped. -/
def matchBuckets (flushed : Prog Db Error Unit) (eventId : Uuid) (event : DisasterEvent)
    (requirements : List (Uuid × EventRequirement)) : Prog Db Error (Option Nat) :=
  if event.status ≠ .declared ∧ event.status ≠ .broadcasting then return none
  else
    match resolveBroadcastDistricts event.broadcastType event.sourceDistrict
        event.targetDistricts with
    | .error text => .raise (.valueError text)
    | .ok districts => do
        let mapped ← select Db.mappingsT fun _ m => m.eventId == eventId
        let additions ← planBuckets eventId event districts requirements
          (mapped.map fun m => m.2.volunteerId)
        flushed
        flushAdditions additions
        setEventStatus eventId event.status .broadcasting
        commit
        return some additions.length

/-- `run_matching` in such a session, which has not loaded the event. -/
def runMatching (flushed : Prog Db Error Unit) (eventId : Uuid) :
    Prog Db Error (Option Nat) := do
  match ← selectForUpdate Db.eventsT eventId with
  | none => return none
  | some row => do
      let requirements ← eventRequirements eventId
      matchBuckets flushed eventId row requirements

/-- `_handle`. -/
def handle (event : Envelope Message) : Prog Db Error Unit := do
  match ← selectKey Db.processedT event.eventId with
  | some _ => return ()
  | none => do
      match ← runMatching (flushMarker event.eventId) (disasterId event.data) with
      | some _ => commit
      | none => do
          flushMarker event.eventId
          commit

/-- Without another object, this is the function that the endpoint calls. -/
theorem runMatching_eq (eventId : Uuid) :
    Volunteer.runMatching none eventId =
      runMatching (return ()) eventId >>= fun found => return found.getD 0 := by
  unfold Volunteer.runMatching runMatching
  rw [Prog.bind_assoc]
  congr 1
  funext found
  cases found with
  | none => rfl
  | some row =>
      show eventRequirements eventId >>= _ = (eventRequirements eventId >>= _) >>= _
      rw [Prog.bind_assoc]
      congr 1
      funext requirements
      unfold Volunteer.matchBuckets matchBuckets
      split
      · rfl
      · cases resolveBroadcastDistricts row.broadcastType row.sourceDistrict
            row.targetDistricts with
        | error text => rfl
        | ok districts =>
            show _ = (_ >>= _) >>= _
            simp only [Prog.bind_assoc]
            rfl

end Disaster

/-! ## The tables of the database -/

inductive DbTable
  | events
  | requirements
  | mappings
  | profiles
  | outbox
  | processed
  deriving DecidableEq

@[reducible] def DbTable.Row : DbTable → Type
  | events => DisasterEvent
  | requirements => EventRequirement
  | mappings => EventVolunteerMapping
  | profiles => VolunteerProfile
  | outbox => Outbox Message
  | processed => Unit

@[reducible] def family : Family Db DbTable where
  Row := DbTable.Row
  table
    | .events => Db.eventsT
    | .requirements => Db.requirementsT
    | .mappings => Db.mappingsT
    | .profiles => Db.profilesT
    | .outbox => Db.outboxT
    | .processed => Db.processedT
  get_set_self i _ _ := by cases i <;> rfl
  get_set_ne i j _ _ h := by cases i <;> cases j <;> first | rfl | exact absurd rfl h
  get_commit i _ _ := by cases i <;> rfl
  get_rollback i _ _ := by cases i <;> rfl

open Family

namespace Profile

end Profile

/-! ## The disasters -/

namespace Disaster

theorem planBuckets_handler {eventId : Uuid} {event : DisasterEvent} {districts : List String}
    (requirements : List (Uuid × EventRequirement)) (alreadyMapped : List Uuid) :
    family.Handler .processed (planBuckets eventId event districts requirements alreadyMapped) := by
  induction requirements generalizing alreadyMapped with
  | nil => exact trivial
  | cons requirement rest ih =>
      unfold planBuckets
      split
      · exact ih alreadyMapped
      · refine handler_bind (handler_bind (handler_query _) fun _ => trivial) fun volunteers => ?_
        exact handler_bind (ih _) fun _ => trivial

theorem flushAdditions_handler (additions : List Addition) :
    family.Handler .processed (flushAdditions additions) := by
  induction additions with
  | nil => exact trivial
  | cons addition rest ih =>
      refine handler_bind (handler_insertUnique (i := DbTable.mappings) (by decide) _ _) ?_
      intro inserted
      cases inserted with
      | none => exact trivial
      | some n =>
          exact handler_bind (handler_insert (i := DbTable.outbox) (by decide) _) fun _ => ih

theorem setEventStatus_handler (eventId : Uuid) (loaded new : EventStatus) :
    family.Handler .processed (setEventStatus eventId loaded new) := by
  unfold setEventStatus
  split
  · exact trivial
  · exact handler_bind (handler_update (i := DbTable.events) (by decide) eventId _)
      fun _ => trivial

section Safe

variable {event : Envelope Message} {t : Sid} {s : Db}

/-- The discipline of the consumer. -/
abbrev marking : Discipline Db Error Unit (Envelope Message) :=
  family.marking .processed (fun k _ => k) Envelope.eventId fun _ => True

/-- Statements beside the marker, before it is flushed. -/
theorem safe_bare {β : Type} {p : Prog Db Error β} (hp : family.Handler .processed p)
    (hs : family.Kept .processed (fun k _ => k) s) (hbare : family.Bare .processed t s) :
    Safe marking (fun _ _ => True) event t (Returns fun _ u =>
      family.Kept .processed (fun k _ => k) u ∧ family.Bare .processed t u) p s :=
  safe_handler bare_stable (fun _ _ haside h => h.aside haside) hp hs hbare

/-- Statements beside the marker, after it is flushed. -/
theorem safe_carrying {β : Type} {p : Prog Db Error β} (hp : family.Handler .processed p)
    (hs : family.Kept .processed (fun k _ => k) s)
    (hcarries : family.Carries .processed (fun k _ => k) event.eventId t s) :
    Safe marking (fun _ _ => True) event t (Returns fun _ u =>
      family.Kept .processed (fun k _ => k) u ∧
      family.Carries .processed (fun k _ => k) event.eventId t u) p s :=
  safe_handler carries_stable (fun _ _ haside h => h.aside haside) hp hs hcarries

theorem safe_flushMarker (hs : family.Kept .processed (fun k _ => k) s)
    (hbare : family.Bare .processed t s) :
    Safe marking (fun _ _ => True) event t (Returns fun _ u =>
      family.Kept .processed (fun k _ => k) u ∧
      family.Carries .processed (fun k _ => k) event.eventId t u)
      (flushMarker event.eventId) s := by
  refine safe_returns_bind (safe_claimKey (m := DbTable.processed) hs hbare) ?_
  intro inserted u hu
  cases inserted with
  | false => exact trivial
  | true => exact ⟨hu.1, hu.2 rfl⟩

/-- An event that is not skipped is committed with its marker. -/
theorem safe_runMatching {disaster : Uuid} (hs : family.Kept .processed (fun k _ => k) s)
    (hbare : family.Bare .processed t s) :
    Safe marking (fun _ _ => True) event t (Returns fun matched u =>
      family.Kept .processed (fun k _ => k) u ∧
      (matched = none → family.Bare .processed t u) ∧
      (matched ≠ none → family.Clean t u ∧
        family.Marked .processed (fun k _ => k) u event.eventId))
      (runMatching (flushMarker event.eventId) disaster) s := by
  refine safe_returns_bind (safe_bare
    (handler_selectForUpdate (i := DbTable.events) (by decide) disaster) hs hbare) ?_
  intro found u hu
  cases found with
  | none => exact ⟨hu.1, fun _ => hu.2, fun h => absurd rfl h⟩
  | some row =>
      refine safe_returns_bind (safe_bare (handler_query _) hu.1 hu.2) fun requirements u hu => ?_
      unfold matchBuckets
      split
      · exact ⟨hu.1, fun _ => hu.2, fun h => absurd rfl h⟩
      · split
        · exact trivial
        · refine safe_returns_bind (safe_bare (handler_query _) hu.1 hu.2) fun mapped u hu => ?_
          refine safe_returns_bind (safe_bare (planBuckets_handler _ _) hu.1 hu.2) ?_
          intro additions u hu
          refine safe_returns_bind (safe_flushMarker hu.1 hu.2) fun _ u hu => ?_
          refine safe_returns_bind (safe_carrying (flushAdditions_handler _) hu.1 hu.2) ?_
          intro _ u hu
          refine safe_returns_bind (safe_carrying (setEventStatus_handler _ _ _) hu.1 hu.2) ?_
          intro _ u hu
          refine safe_returns_bind (safe_publish hu.1 hu.2) fun _ u hu => ?_
          exact ⟨hu.1, (fun h => by cases h), fun _ => hu.2⟩

theorem safe_handle (hs : family.Kept .processed (fun k _ => k) s) (hclean : family.Clean t s) :
    Safe marking (fun _ _ => True) event t (marking.Done t event) (handle event) s := by
  have herror : ∀ e u, marking.Done t event (.error e) u := by
    intro e u b hb
    cases hb
  refine safe_then (safe_lookup (m := DbTable.processed) event.eventId hs hclean) herror ?_
  intro found u hfound
  obtain ⟨hs, hbare, hmarked⟩ := hfound
  cases found with
  | some x => exact fun _ _ _ => hmarked (by simp)
  | none =>
      refine safe_then (safe_runMatching hs hbare) herror fun matched u hu => ?_
      cases matched with
      | some n =>
          obtain ⟨hclean, hmarked⟩ := hu.2.2 (by simp)
          refine (safe_commit_clean hu.1 hclean hmarked).mono fun r u hr => ?_
          cases r with
          | error e => exact herror e u
          | ok b => exact fun _ _ _ => hr.2
      | none =>
          refine safe_then (safe_flushMarker hu.1 (hu.2.1 rfl)) herror fun _ u hu => ?_
          refine (safe_publish hu.1 hu.2).mono fun r u hr => ?_
          cases r with
          | error e => exact herror e u
          | ok b => exact fun _ _ _ => hr.2.2

end Safe

end Disaster

end Volunteer
end Rcp
