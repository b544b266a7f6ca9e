/-
Who writes the volunteer profiles (`services/volunteer/app/api/routes_profiles.py`,
`schemas/volunteer_schema.py` and `events/consumers/iam.py`), as transaction programs.

The consumer owns the identity of a profile and the two endpoints its operational half.  The
session has `autoflush=False`, and a flush writes the columns whose value is not the loaded
one.  Where a `Σ` becomes a final sigma is a parameter of the texts' lower case.
-/
import Rcp.Common.Casing
import Rcp.Sql.Markers
import Rcp.Volunteer.Profiles

namespace Rcp
namespace Volunteer

open Sql

/-! ## Skills -/

section Skills

variable (finalSigma : List Char → List Char → Bool)

/-- The slug rule: `s.strip().lower().replace(" ", "_")`. -/
def slug (s : String) : String := replaceChar ' ' '_' (Unicode.lower finalSigma (strip s))

/-- `VolunteerProfileUpdate.normalise_skills`. -/
def normaliseSkills (v : List String) : List String :=
  sortedSet ((v.filter fun s => strip s ≠ "").map (slug finalSigma))

end Skills

/-! ## The input of the endpoints -/

/-- The body of `PUT /me`. -/
structure ProfileInput where
  baseDistrict : String
  city : Option String := none
  availableStatus : Bool := false
  skills : List String := []
  deriving DecidableEq

/-- `VolunteerProfileUpdate` after validation. -/
structure VolunteerProfileUpdate (finalSigma : List Char → List Char → Bool) where
  baseDistrict : String
  city : Option String
  availableStatus : Bool
  skills : List String
  district_valid : isValidDistrict baseDistrict = true
  skills_normal : ∃ texts : List String, texts.length ≤ 30 ∧
    skills = normaliseSkills finalSigma texts

def ProfileInput.validate (finalSigma : List Char → List Char → Bool) (input : ProfileInput) :
    Option (VolunteerProfileUpdate finalSigma) :=
  if h : isValidDistrict input.baseDistrict = true ∧ input.skills.length ≤ 30 then
    some
      { baseDistrict := input.baseDistrict
        city := input.city
        availableStatus := input.availableStatus
        skills := normaliseSkills finalSigma input.skills
        district_valid := h.1
        skills_normal := ⟨input.skills, h.2, rfl⟩ }
  else none

/-! ## Programs -/

inductive ProfileError
  | httpException (code : Nat) (detail : String)
  /-- A request body that the schema refuses. -/
  | validationError
  | integrityError (constraint : String)
  | keyError
  | noResult
  deriving DecidableEq

namespace Profile

/-- The row of an UPDATE with the changed columns. -/
def mergeColumns (loaded new current : VolunteerProfile) : VolunteerProfile :=
  { current with
    fullName := column loaded.fullName new.fullName current.fullName
    phone := column loaded.phone new.phone current.phone
    isActive := column loaded.isActive new.isActive current.isActive
    sourceUpdatedAt := column loaded.sourceUpdatedAt new.sourceUpdatedAt current.sourceUpdatedAt
    baseDistrict := column loaded.baseDistrict new.baseDistrict current.baseDistrict
    city := column loaded.city new.city current.city
    availableStatus := column loaded.availableStatus new.availableStatus current.availableStatus
    skills := column loaded.skills new.skills current.skills }

/-- The flush of a changed profile. -/
def flush (k : Uuid) (loaded new : VolunteerProfile) : Prog Db ProfileError Unit :=
  if new = loaded then return ()
  else do
    let _ ← update Db.profilesT k (mergeColumns loaded new)
    return ()

/-- `select(VolunteerProfile).where(user_id == ...).first()`. -/
def find (userId : Uuid) : Prog Db ProfileError (Option (Uuid × VolunteerProfile)) := do
  let found ← select Db.profilesT fun _ v => v.userId == userId
  return found.head?

/-- `_own_profile`. -/
def ownProfile (userId : Uuid) : Prog Db ProfileError (Uuid × VolunteerProfile) := do
  match ← find userId with
  | none => .raise (.httpException 404 "Profile not provisioned yet; retry shortly")
  | some row => return row

/-- `db.refresh`. -/
def refresh (k : Uuid) : Prog Db ProfileError VolunteerProfile := do
  match ← selectKey Db.profilesT k with
  | none => .raise .noResult
  | some v => return v

section Endpoints

variable {finalSigma : List Char → List Char → Bool}

/-- The assignments of `update_my_profile`. -/
def assign (data : VolunteerProfileUpdate finalSigma) (profile : VolunteerProfile) :
    VolunteerProfile :=
  { profile with
    baseDistrict := some data.baseDistrict
    city := data.city
    availableStatus := data.availableStatus
    skills := data.skills }

def updateMyProfile (userId : Uuid) (data : VolunteerProfileUpdate finalSigma) :
    Prog Db ProfileError (Option VolunteerProfile) := do
  let (k, profile) ← ownProfile userId
  flush k profile (assign data profile)
  commit
  let profile ← refresh k
  return some profile

end Endpoints

def setAvailability (userId : Uuid) (availableStatus : Bool) :
    Prog Db ProfileError (Option VolunteerProfile) := do
  let (k, profile) ← ownProfile userId
  if availableStatus && profile.baseDistrict.isNone then
    .raise (.httpException 422 "Set base_district before going available")
  else do
    flush k profile { profile with availableStatus := availableStatus }
    commit
    let profile ← refresh k
    return some profile

/-- `_upsert_profile`, with what it leaves to the flush. -/
def upsertProfile (data : Iam.UserData) (now : Time) : Prog Db ProfileError Unit :=
  if data.userType ≠ .volunteer then return ()
  else do
    match ← find data.userId with
    | none => do
        match ← insertUnique Db.profilesT (fun v => v.userId == data.userId)
            (fun _ => newProfile data now) with
        | none => .raise (.integrityError "volunteer_profiles_user_id_key")
        | some _ => return ()
    | some (k, profile) =>
        if profile.accepts data.updatedAt then flush k profile (identityFields data profile)
        else return ()

/-- `_deactivate_profile`. -/
def deactivateProfile (userId : Uuid) : Prog Db ProfileError Unit := do
  match ← find userId with
  | none => return ()
  | some (k, profile) =>
      flush k profile { profile with isActive := false, availableStatus := false }

/-- What `_handle` does with the data. -/
def dispatch (event : Envelope Iam.Message) (now : Time) : Prog Db ProfileError Unit :=
  if event.eventType ∈ ["iam.user.registered", "iam.user.updated"] then
    match event.data with
    | .user data => upsertProfile data now
    | _ => .raise .keyError
  else if event.eventType = "iam.user.deactivated" then
    match event.data.userId? with
    | some userId => deactivateProfile userId
    | none => .raise .keyError
  else return ()

/-- `_handle`, in a transaction that starts at `now`. -/
def handle (event : Envelope Iam.Message) (now : Time) :
    Prog Db ProfileError (Option VolunteerProfile) :=
  checked Db.processedT event.eventId () (.integrityError "processed_events_pkey")
    (dispatch event now) none

end Profile

/-! ## Calls -/

inductive ProfileCall
  | iam (event : Envelope Iam.Message) (now : Time)
  | update (userId : Uuid) (input : ProfileInput)
  | availability (userId : Uuid) (availableStatus : Bool)
  deriving DecidableEq

def ProfileCall.body (finalSigma : List Char → List Char → Bool) :
    ProfileCall → Prog Db ProfileError (Option VolunteerProfile)
  | iam event now => Profile.handle event now
  | update userId input =>
      match input.validate finalSigma with
      | none => .raise .validationError
      | some data => Profile.updateMyProfile userId data
  | availability userId availableStatus => Profile.setAvailability userId availableStatus

end Volunteer
end Rcp
