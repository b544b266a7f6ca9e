/-
The identity half of the volunteer profiles (`services/volunteer/app/events/consumers/
iam.py`).

Only users of the type `VOLUNTEER` have a profile here.  A profile that was not made
from an event has no `source_updated_at`, and any event overwrites its identity.
-/
import Rcp.Iam.Replication
import Rcp.Volunteer.Model

namespace Rcp
namespace Volunteer

open Iam (UserData UserType Identity KeyError)

/-- The profiles by user id. -/
abbrev Profiles := Uuid → Option VolunteerProfile

def identityFields (data : UserData) (profile : VolunteerProfile) : VolunteerProfile :=
  { profile with
    fullName := data.fullName
    phone := data.phone
    isActive := data.isActive
    sourceUpdatedAt := some data.updatedAt }

/-- The row that `_upsert_profile` adds at time `now`. -/
def newProfile (data : UserData) (now : Time) : VolunteerProfile :=
  { userId := data.userId
    fullName := data.fullName
    phone := data.phone
    isActive := data.isActive
    sourceUpdatedAt := some data.updatedAt
    baseDistrict := none
    city := none
    availableStatus := false
    skills := []
    createdAt := now }

/-- The guard of `_upsert_profile`. -/
def VolunteerProfile.accepts (profile : VolunteerProfile) (updatedAt : Time) : Bool :=
  match profile.sourceUpdatedAt with
  | none => true
  | some source => source ≤ updatedAt

def upsertProfile (data : UserData) (now : Time) (profiles : Profiles) : Profiles :=
  if data.userType ≠ .volunteer then profiles
  else
    match profiles data.userId with
    | none => Function.update profiles data.userId (some (newProfile data now))
    | some profile =>
        if profile.accepts data.updatedAt then
          Function.update profiles data.userId (some (identityFields data profile))
        else profiles

/-- `_deactivate_profile`. -/
def deactivateProfile (userId : Uuid) (profiles : Profiles) : Profiles :=
  match profiles userId with
  | none => profiles
  | some profile =>
      Function.update profiles userId
        (some { profile with isActive := false, availableStatus := false })

/-- What `_handle` does with an event in a new transaction, which starts at `now event`. -/
def applyIam (now : Envelope Iam.Message → Time) (event : Envelope Iam.Message)
    (profiles : Profiles) : Except KeyError Profiles :=
  if event.eventType ∈ ["iam.user.registered", "iam.user.updated"] then
    match event.data with
    | .user data => .ok (upsertProfile data (now event) profiles)
    | _ => .error .keyError
  else if event.eventType = "iam.user.deactivated" then
    match event.data.userId? with
    | some userId => .ok (deactivateProfile userId profiles)
    | none => .error .keyError
  else .ok profiles

/-- The consumer after one more message. -/
def deliverIam (now : Envelope Iam.Message → Time) (s : Inbox Profiles)
    (event : Envelope Iam.Message) : Inbox Profiles :=
  Inbox.onMessage (Inbox.handle (applyIam now)) s event

/-- A consumer that has received nothing. -/
def noProfiles : Inbox Profiles := { rows := fun _ => none }

/-- The identity that was last taken from an event. -/
def VolunteerProfile.identity? (profile : VolunteerProfile) : Option Identity :=
  profile.sourceUpdatedAt.map fun source =>
    { fullName := profile.fullName
      phone := profile.phone
      roles := []
      isActive := profile.isActive
      sourceUpdatedAt := source }

def Profiles.identity (k : Uuid) (profiles : Profiles) : Option Identity :=
  (profiles k).bind VolunteerProfile.identity?

section Replicates

variable {k : Uuid} {profiles : Profiles}

theorem identity_update_self (profile : VolunteerProfile) :
    Profiles.identity k (Function.update profiles k (some profile)) = profile.identity? := by
  unfold Profiles.identity
  rw [Function.update_self]
  rfl

theorem identity_update_of_ne {j : Uuid} (h : k ≠ j) (profile : VolunteerProfile) :
    Profiles.identity k (Function.update profiles j (some profile)) =
      Profiles.identity k profiles := by
  unfold Profiles.identity
  rw [Function.update_of_ne h]

theorem upsertProfile_identity {data : UserData} (now : Time)
    (hkeeps : data.userId = k → data.userType = .volunteer) :
    Profiles.identity k (upsertProfile data now profiles) =
      Iam.follow false k (Profiles.identity k profiles) (.user data) := by
  by_cases hk : data.userId = k
  · have htype := hkeeps hk
    subst hk
    have hdata : Iam.Message.userData? data.userId (.user data) = some data := if_pos rfl
    unfold upsertProfile
    rw [if_neg (not_not.mpr htype)]
    cases hold : profiles data.userId with
    | none =>
        have hnone : Profiles.identity data.userId profiles = none := by
          unfold Profiles.identity
          rw [hold]
          rfl
        rw [hnone, Iam.follow_first hdata]
        exact identity_update_self _
    | some profile =>
        have hrow : Profiles.identity data.userId profiles = profile.identity? := by
          unfold Profiles.identity
          rw [hold]
          rfl
        show Profiles.identity data.userId (if profile.accepts data.updatedAt then _ else _) = _
        rw [hrow]
        cases hsource : profile.sourceUpdatedAt with
        | none =>
            have hidentity : profile.identity? = none := by
              unfold VolunteerProfile.identity?
              rw [hsource]
              rfl
            have haccepts : profile.accepts data.updatedAt = true := by
              unfold VolunteerProfile.accepts
              rw [hsource]
            rw [hidentity, Iam.follow_first hdata]
            simp only [if_pos haccepts]
            exact identity_update_self _
        | some source =>
            have hidentity : profile.identity? = some
                { fullName := profile.fullName
                  phone := profile.phone
                  roles := []
                  isActive := profile.isActive
                  sourceUpdatedAt := source } := by
              unfold VolunteerProfile.identity?
              rw [hsource]
              rfl
            have haccepts : profile.accepts data.updatedAt = decide (source ≤ data.updatedAt) := by
              unfold VolunteerProfile.accepts
              rw [hsource]
            rw [hidentity, haccepts]
            by_cases hle : source ≤ data.updatedAt
            · rw [Iam.follow_newer hdata hle]
              simp only [decide_eq_true hle, if_true]
              exact identity_update_self _
            · rw [Iam.follow_stale hdata (not_le.mp hle)]
              simp only [decide_eq_false hle, Bool.false_eq_true, if_false]
              exact hrow.trans hidentity
  · have hdata : Iam.Message.userData? k (.user data) = none := if_neg hk
    rw [Iam.follow_aside hdata rfl]
    have hne : k ≠ data.userId := fun h => hk h.symm
    unfold upsertProfile
    split
    · rfl
    · split
      · exact identity_update_of_ne hne _
      · split
        · exact identity_update_of_ne hne _
        · rfl

theorem deactivateProfile_identity (userId : Uuid) (tenantId : Option Uuid) (status : String)
    (occurredAt : Time) :
    Profiles.identity k (deactivateProfile userId profiles) =
      Iam.follow false k (Profiles.identity k profiles)
        (.userDeactivated userId tenantId status occurredAt) := by
  by_cases hk : userId = k
  · subst hk
    have hd : Iam.Message.deactivates userId (.userDeactivated userId tenantId status
        occurredAt) = true := beq_self_eq_true userId
    rw [Iam.follow_deactivated rfl hd]
    cases hold : profiles userId with
    | none =>
        have hnone : Profiles.identity userId profiles = none := by
          unfold Profiles.identity
          rw [hold]
          rfl
        have hsame : deactivateProfile userId profiles = profiles := by
          unfold deactivateProfile
          rw [hold]
        rw [hsame, hnone]
        rfl
    | some profile =>
        unfold deactivateProfile
        rw [hold]
        refine (identity_update_self _).trans ?_
        unfold Profiles.identity
        rw [hold]
        show Option.map _ _ = Option.map _ (Option.map _ _)
        rw [Option.map_map]
        rfl
  · have hd : Iam.Message.deactivates k (.userDeactivated userId tenantId status
        occurredAt) = false := beq_false_of_ne hk
    rw [Iam.follow_aside rfl hd]
    unfold deactivateProfile
    split
    · rfl
    · exact identity_update_of_ne (fun h => hk h.symm) _

/-- The consumer keeps volunteers, without their roles. -/
theorem profiles_replicate (now : Envelope Iam.Message → Time) (k : Uuid) :
    Iam.Replicates false (fun userType => userType = .volunteer) k (applyIam now)
      (Profiles.identity k) := by
  intro e rows hfits hkeeps
  unfold applyIam
  cases hdata : e.data with
  | user data =>
      rw [hdata] at hfits hkeeps
      have htype : e.eventType ∈ ["iam.user.registered", "iam.user.updated"] := hfits
      rw [if_pos htype]
      refine ⟨_, rfl, upsertProfile_identity _ fun hk => hkeeps data ?_⟩
      exact if_pos hk
  | userDeactivated userId tenantId status occurredAt =>
      rw [hdata] at hfits
      have htype : e.eventType = "iam.user.deactivated" := hfits
      rw [htype]
      exact ⟨_, rfl, deactivateProfile_identity userId tenantId status occurredAt⟩
  | tenantDeactivated tenantId status occurredAt =>
      rw [hdata] at hfits
      have htype : e.eventType = "iam.tenant.deactivated" := hfits
      rw [htype]
      exact ⟨rows, rfl, (Iam.follow_aside rfl rfl).symm⟩
  | tenantStatusChanged tenantId status =>
      rw [hdata] at hfits
      have htype : e.eventType = "iam.tenant.status_changed" := hfits
      rw [htype]
      exact ⟨rows, rfl, (Iam.follow_aside rfl rfl).symm⟩

end Replicates

end Volunteer
end Rcp
