/-
The events of the identity service as the other services read them
(`services/logistics/app/events/consumers/iam.py` and
`services/volunteer/app/events/consumers/iam.py`).

Both consumers take the dict of `json.loads` apart key by key.  The logistics service reads the
tenant of the envelope, the volunteer service the type of the user.
-/
import Rcp.Common.Wire
import Rcp.Iam.Contracts
import Rcp.Logistics.Replicas
import Rcp.Volunteer.Profiles

namespace Rcp

/-! ## The logistics service -/

namespace Logistics
namespace Wire

open Rcp.Wire

variable (codec : Codec)

/-- The columns that `_upsert_replica` writes. -/
def replicaValues (data : Object) (tenantId : Option Uuid) (sourceUpdatedAt : Time) :
    Except Raised UserReplica := do
  let fullName ← textColumn (← item data "full_name")
  let phone ← optionalTextColumn (getD data "phone" .null)
  let roles ← textsColumn (getD data "roles" (.arr []))
  let isActive ← boolColumn (getD data "is_active" (.bool true))
  return {
    tenantId := tenantId
    fullName := fullName
    phone := phone
    roles := roles
    isActive := isActive
    sourceUpdatedAt := sourceUpdatedAt }

/-- `_upsert_replica`. -/
def upsertReplica (tenantId : Option Uuid) (data : Object) (replicas : Replicas) :
    Except Raised Replicas := do
  let sourceUpdatedAt ← codec.timeOf (← item data "updated_at")
  let userId ← codec.uuidOf (← item data "user_id")
  match replicas userId with
  | none =>
      let replica ← replicaValues data tenantId sourceUpdatedAt
      return Function.update replicas userId (some replica)
  | some replica =>
      if replica.sourceUpdatedAt ≤ sourceUpdatedAt then
        let replica ← replicaValues data replica.tenantId sourceUpdatedAt
        return Function.update replicas userId (some replica)
      else return replicas

/-- `_deactivate_replica`. -/
def deactivateReplica (data : Object) (replicas : Replicas) : Except Raised Replicas := do
  let userId ← codec.uuidOf (← item data "user_id")
  return Logistics.deactivateReplica userId replicas

/-- The branches of `_handle`. -/
def applyIam (eventType : Json) (tenantId : Option Uuid) (data : Object) (replicas : Replicas) :
    Except Raised Replicas :=
  match eventType with
  | .str eventType =>
      if eventType ∈ ["iam.user.registered", "iam.user.updated"] then
        upsertReplica codec tenantId data replicas
      else if eventType = "iam.user.deactivated" then deactivateReplica codec data replicas
      else .ok replicas
  | _ => .ok replicas

/-- `uuid.UUID(raw_tenant) if raw_tenant else None`. -/
def tenantOf (raw : Json) : Except Raised (Option Uuid) :=
  if truth raw then do return some (← codec.uuidOf raw) else .ok none

/-- `_handle`. -/
def handle (envelope : Object) (s : Inbox Replicas) : Except Raised (Inbox Replicas) := do
  let eventId ← codec.uuidOf (← item envelope "event_id")
  let eventType ← item envelope "event_type"
  let tenantId ← tenantOf codec (getD envelope "tenant_id" .null)
  let data ← item envelope "data"
  if eventId ∈ s.processed then .ok s
  else do
    let rows ← applyIam codec eventType tenantId (keysOf data) s.rows
    return { rows := rows, processed := eventId :: s.processed }

/-- The consumer after one more message. -/
def deliverIam : Inbox Replicas → Object → Inbox Replicas := onMessage (handle codec)

end Wire
end Logistics

/-! ## The volunteer service -/

namespace Volunteer
namespace Wire

open Rcp.Wire

variable (codec : Codec)

/-- The identity columns of a profile. -/
def identityValues (data : Object) (sourceUpdatedAt : Time) (profile : VolunteerProfile) :
    Except Raised VolunteerProfile := do
  let fullName ← textColumn (← item data "full_name")
  let phone ← optionalTextColumn (getD data "phone" .null)
  let isActive ← boolColumn (getD data "is_active" (.bool true))
  return { profile with
    fullName := fullName
    phone := phone
    isActive := isActive
    sourceUpdatedAt := some sourceUpdatedAt }

/-- A profile without an identity. -/
def blankProfile (userId : Uuid) (now : Time) : VolunteerProfile where
  userId := userId
  fullName := ""
  phone := none
  isActive := true
  sourceUpdatedAt := none
  baseDistrict := none
  city := none
  availableStatus := false
  skills := []
  createdAt := now

/-- `_upsert_profile`. -/
def upsertProfile (now : Time) (data : Object) (profiles : Profiles) : Except Raised Profiles :=
  match getD data "user_type" .null with
  | .str userType =>
      if userType ≠ "VOLUNTEER" then .ok profiles
      else do
        let userId ← codec.uuidOf (← item data "user_id")
        let sourceUpdatedAt ← codec.timeOf (← item data "updated_at")
        match profiles userId with
        | none =>
            let profile ← identityValues data sourceUpdatedAt (blankProfile userId now)
            return Function.update profiles userId (some profile)
        | some profile =>
            if profile.accepts sourceUpdatedAt then
              let profile ← identityValues data sourceUpdatedAt profile
              return Function.update profiles userId (some profile)
            else return profiles
  | _ => .ok profiles

/-- `_deactivate_profile`. -/
def deactivateProfile (data : Object) (profiles : Profiles) : Except Raised Profiles := do
  let userId ← codec.uuidOf (← item data "user_id")
  return Volunteer.deactivateProfile userId profiles

/-- The branches of `_handle`. -/
def applyIam (now : Time) (eventType : Json) (data : Object) (profiles : Profiles) :
    Except Raised Profiles :=
  match eventType with
  | .str eventType =>
      if eventType ∈ ["iam.user.registered", "iam.user.updated"] then
        upsertProfile codec now data profiles
      else if eventType = "iam.user.deactivated" then deactivateProfile codec data profiles
      else .ok profiles
  | _ => .ok profiles

/-- `_handle`, in a transaction that starts at `now`. -/
def handle (now : Time) (envelope : Object) (s : Inbox Profiles) :
    Except Raised (Inbox Profiles) := do
  let eventId ← codec.uuidOf (← item envelope "event_id")
  let eventType ← item envelope "event_type"
  let data ← item envelope "data"
  if eventId ∈ s.processed then .ok s
  else do
    let rows ← applyIam codec now eventType (keysOf data) s.rows
    return { rows := rows, processed := eventId :: s.processed }

/-- The consumer after one more message. -/
def deliverIam (now : Object → Time) : Inbox Profiles → Object → Inbox Profiles :=
  onMessage fun envelope => handle codec (now envelope) envelope

end Wire
end Volunteer

/-! ## What the identity service writes -/

namespace Iam
namespace Wire

open Rcp.Wire Contract

/-- The entries of a user that are read. -/
structure Announces (codec : Codec) (user : UserData) (entries : Object) : Prop where
  userId : entries.get? "user_id" = some (.str (codec.uuid user.userId))
  userType : entries.get? "user_type" = some (.str user.userType.value)
  fullName : entries.get? "full_name" = some (.str user.fullName)
  phone : entries.get? "phone" = some (Contracts.optionalText user.phone)
  roles : entries.get? "roles" = some (.arr (user.roles.map .str))
  isActive : entries.get? "is_active" = some (.bool user.isActive)
  updatedAt : entries.get? "updated_at" = some (.str (codec.isoformat user.updatedAt))

variable {codec : Codec}

theorem announces_user (user : UserData) :
    Announces codec user (data codec.toTexts (.user user)) := by
  unfold data
  cases hstatus : user.status with
  | none => constructor <;> simp [hstatus, JsonSchema.get?_cons]
  | some status => constructor <;> simp [hstatus, JsonSchema.get?_cons]

/-- The entry of a deactivation that is read. -/
theorem userId_deactivated {userId : Uuid} {tenantId : Option Uuid} {status : String}
    {occurredAt : Time} :
    (data codec.toTexts (.userDeactivated userId tenantId status occurredAt)).get? "user_id" =
      some (.str (codec.uuid userId)) := by
  simp [data, JsonSchema.get?_cons]

/-! ### The logistics service -/

section Logistics

open Logistics (Replicas)

variable {entries : Object} {user : UserData} {tenantId : Option Uuid} {replicas : Replicas}

theorem replicaValues_entries (h : Announces codec user entries) :
    Logistics.Wire.replicaValues entries tenantId user.updatedAt =
      .ok
        { tenantId := tenantId
          fullName := user.fullName
          phone := user.phone
          roles := user.roles
          isActive := user.isActive
          sourceUpdatedAt := user.updatedAt } := by
  unfold Logistics.Wire.replicaValues
  simp only [item_of_get? h.fullName, getD_of_get? h.phone, getD_of_get? h.roles,
    getD_of_get? h.isActive, ok_bind, textColumn, optionalTextColumn_optionalText,
    textsColumn_texts, boolColumn, pure_eq_ok]

theorem upsertReplica_entries (h : Announces codec user entries) :
    Logistics.Wire.upsertReplica codec tenantId entries replicas =
      .ok (Logistics.upsertReplica tenantId user replicas) := by
  unfold Logistics.Wire.upsertReplica Logistics.upsertReplica
  simp only [item_of_get? h.updatedAt, item_of_get? h.userId, ok_bind, timeOf_isoformat,
    uuidOf_uuid, replicaValues_entries h]
  cases replicas user.userId with
  | none => rfl
  | some replica =>
      simp only [pure_eq_ok]
      split <;> rfl

theorem tenantOf_uuidOrNull (tenantId : Option Uuid) :
    Logistics.Wire.tenantOf codec (codec.uuidOrNull tenantId) = .ok tenantId := by
  cases tenantId with
  | none => rfl
  | some tenantId =>
      have htext : codec.uuidOrNull (some tenantId) = .str (codec.uuid tenantId) := rfl
      have htruth : truth (.str (codec.uuid tenantId)) = true :=
        bne_iff_ne.mpr (codec.uuid_ne_empty tenantId)
      unfold Logistics.Wire.tenantOf
      rw [htext, if_pos htruth, uuidOf_uuid]
      rfl

theorem logistics_applyIam_data {event : Envelope Message}
    (hfits : event.data.FitsType event.eventType) :
    (Logistics.Wire.applyIam codec (.str event.eventType) event.tenantId
      (data codec.toTexts event.data) replicas).toOption =
      (Logistics.applyIam event replicas).toOption := by
  obtain ⟨eventId, eventType, tenantId, m⟩ := event
  cases m with
  | user user =>
      have htype : eventType ∈ ["iam.user.registered", "iam.user.updated"] := hfits
      simp only [Logistics.Wire.applyIam, Logistics.applyIam, if_pos htype,
        upsertReplica_entries (announces_user user)]
      rfl
  | userDeactivated userId _ status occurredAt =>
      have htype : eventType = "iam.user.deactivated" := hfits
      subst htype
      show (Logistics.Wire.deactivateReplica codec _ replicas).toOption = _
      unfold Logistics.Wire.deactivateReplica
      rw [item_of_get? userId_deactivated, ok_bind, uuidOf_uuid]
      rfl
  | tenantDeactivated =>
      have htype : eventType = "iam.tenant.deactivated" := hfits
      subst htype
      rfl
  | tenantStatusChanged =>
      have htype : eventType = "iam.tenant.status_changed" := hfits
      subst htype
      rfl

end Logistics

/-! ### The volunteer service -/

section Volunteer

open Volunteer (Profiles VolunteerProfile)

variable {entries : Object} {user : UserData} {profiles : Profiles} {now : Time}

theorem identityValues_entries (h : Announces codec user entries) (profile : VolunteerProfile) :
    Volunteer.Wire.identityValues entries user.updatedAt profile =
      .ok (Volunteer.identityFields user profile) := by
  unfold Volunteer.Wire.identityValues
  simp only [item_of_get? h.fullName, getD_of_get? h.phone, getD_of_get? h.isActive, ok_bind,
    textColumn, optionalTextColumn_optionalText, boolColumn, pure_eq_ok]
  rfl

theorem value_eq_volunteer_iff {userType : UserType} :
    userType.value = "VOLUNTEER" ↔ userType = .volunteer := by
  cases userType <;> simp [UserType.value]

theorem upsertProfile_entries (h : Announces codec user entries) :
    Volunteer.Wire.upsertProfile codec now entries profiles =
      .ok (Volunteer.upsertProfile user now profiles) := by
  unfold Volunteer.Wire.upsertProfile Volunteer.upsertProfile
  simp only [item_of_get? h.updatedAt, item_of_get? h.userId, getD_of_get? h.userType, ok_bind,
    timeOf_isoformat, uuidOf_uuid, identityValues_entries h, ne_eq, value_eq_volunteer_iff]
  split
  · rfl
  · cases profiles user.userId with
    | none => rfl
    | some profile =>
        simp only [pure_eq_ok]
        split <;> rfl

theorem volunteer_applyIam_data {event : Envelope Message}
    {clock : Envelope Message → Time} (hfits : event.data.FitsType event.eventType) :
    (Volunteer.Wire.applyIam codec (clock event) (.str event.eventType)
      (data codec.toTexts event.data) profiles).toOption =
      (Volunteer.applyIam clock event profiles).toOption := by
  obtain ⟨eventId, eventType, tenantId, m⟩ := event
  cases m with
  | user user =>
      have htype : eventType ∈ ["iam.user.registered", "iam.user.updated"] := hfits
      simp only [Volunteer.Wire.applyIam, Volunteer.applyIam, if_pos htype,
        upsertProfile_entries (announces_user user)]
      rfl
  | userDeactivated userId _ status occurredAt =>
      have htype : eventType = "iam.user.deactivated" := hfits
      subst htype
      show (Volunteer.Wire.deactivateProfile codec _ profiles).toOption = _
      unfold Volunteer.Wire.deactivateProfile
      rw [item_of_get? userId_deactivated, ok_bind, uuidOf_uuid]
      rfl
  | tenantDeactivated =>
      have htype : eventType = "iam.tenant.deactivated" := hfits
      subst htype
      rfl
  | tenantStatusChanged =>
      have htype : eventType = "iam.tenant.status_changed" := hfits
      subst htype
      rfl

end Volunteer

/-! ## Runs -/


section Written

variable {event : Envelope Message} {occurredAt : Envelope Message → String}
  {traceId : Envelope Message → Option String}

theorem logistics_handle_published (hfits : event.data.FitsType event.eventType)
    (s : Inbox Logistics.Replicas) :
    (Logistics.Wire.handle codec (published codec occurredAt traceId event) s).toOption =
      (Inbox.handle Logistics.applyIam event s).toOption := by
  unfold Logistics.Wire.handle published
  rw [envelope_eventId, envelope_eventType, envelope_tenantId?, envelope_data]
  simp only [ok_bind, uuidOf_uuid, tenantOf_uuidOrNull]
  exact seen_or_applied (logistics_applyIam_data hfits)

theorem volunteer_handle_published (hfits : event.data.FitsType event.eventType)
    (clock : Envelope Message → Time) (s : Inbox Volunteer.Profiles) :
    (Volunteer.Wire.handle codec (clock event) (published codec occurredAt traceId event)
      s).toOption = (Inbox.handle (Volunteer.applyIam clock) event s).toOption := by
  unfold Volunteer.Wire.handle published
  rw [envelope_eventId, envelope_eventType, envelope_data]
  simp only [ok_bind, uuidOf_uuid]
  exact seen_or_applied (volunteer_applyIam_data hfits)

end Written

open Sql in
/-- However the actions of the identity service interleave, and whichever of the committed events
arrive, in whichever order and however often, both consumers of the dicts keep what the handlers
of the typed messages keep. -/
theorem iam_events_read (env : Env) (tenants : List Tenant) (users : List User)
    (roleAssignments : List RoleAssignment) {c : Config Db Error Unit Action}
    (h : Run (Action.body env) (Config.start (Db.initial tenants users roleAssignments)) c)
    {d : List (Envelope Message)}
    (hd : ∀ e ∈ d, ∃ o row, c.store.outbox.committed o = some row ∧ row.payload = e)
    (codec : Codec) (occurredAt : Envelope Message → String)
    (traceId : Envelope Message → Option String) (clock : Object → Time) :
    (d.map (published codec occurredAt traceId)).foldl (Logistics.Wire.deliverIam codec)
        Logistics.noReplicas = d.foldl Logistics.deliverIam Logistics.noReplicas ∧
      (d.map (published codec occurredAt traceId)).foldl (Volunteer.Wire.deliverIam codec clock)
          Volunteer.noProfiles =
        d.foldl (Volunteer.deliverIam fun e => clock (published codec occurredAt traceId e))
          Volunteer.noProfiles := by
  have hfits : ∀ e ∈ d, e.data.FitsType e.eventType := by
    intro e he
    obtain ⟨o, row, hrow, rfl⟩ := hd e he
    exact (run_fits h).committed hrow
  exact ⟨foldl_onMessage (fun e he s => logistics_handle_published (hfits e he) s) _,
    foldl_onMessage (fun e he s => volunteer_handle_published (hfits e he)
      (fun e => clock (published codec occurredAt traceId e)) s) _⟩

open Sql in
/-- The registrations of an operator and of Amara arrive twice.  The volunteer service keeps
Amara only. -/
theorem iam_events_read_amara : ∃ (c : Config Db Error Unit Action)
    (ops amara : Envelope Message),
    (∃ o row, c.store.outbox.committed o = some row ∧ row.payload = ops) ∧
    (∃ o row, c.store.outbox.committed o = some row ∧ row.payload = amara) ∧
    (let arrived := [amara, ops, amara, ops].map
      (published .decimal (fun _ => "2026-01-01") fun _ => none)
    let replicas := arrived.foldl (Logistics.Wire.deliverIam .decimal) Logistics.noReplicas
    let profiles := arrived.foldl (Volunteer.Wire.deliverIam .decimal fun _ => 9)
      Volunteer.noProfiles
    ((replicas.rows 0).map Logistics.UserReplica.roles,
      (replicas.rows 1).map Logistics.UserReplica.roles,
      (profiles.rows 0).map Volunteer.VolunteerProfile.fullName,
      (profiles.rows 1).map Volunteer.VolunteerProfile.fullName)) =
      (some ["super_admin"], some ["volunteer"], none, some "Amara") := by
  have hplay : ((Config.start (Db.initial [] [] [])).play (Action.body plain) registrations).map
      (fun c => ((c.store.outbox.committed 0).map Outbox.payload,
        (c.store.outbox.committed 1).map Outbox.payload)) =
      some (some ⟨0, "iam.user.registered", none, .user
          { userId := 0, tenantId := none, userType := .superAdmin, email := "ops@example.org",
            fullName := "Ops", phone := none, roles := ["super_admin"], isActive := true,
            updatedAt := 0 }⟩,
        some ⟨1, "iam.user.registered", none, .user
          { userId := 1, tenantId := none, userType := .volunteer, email := "amara@example.org",
            fullName := "Amara", phone := none, roles := ["volunteer"], isActive := true,
            updatedAt := 5 }⟩) := by
    decide +kernel
  obtain ⟨c, hc, hrows⟩ := Option.map_eq_some_iff.mp hplay
  obtain ⟨ops, hops, hops'⟩ := Option.map_eq_some_iff.mp (Prod.mk.inj hrows).1
  obtain ⟨amara, hamara, hamara'⟩ := Option.map_eq_some_iff.mp (Prod.mk.inj hrows).2
  have hread := iam_events_read plain [] [] [] (Config.play_run hc)
    (d := [amara.payload, ops.payload, amara.payload, ops.payload]) (fun e he => by
      simp only [List.mem_cons, List.not_mem_nil, or_false] at he
      rcases he with rfl | rfl | rfl | rfl
      · exact ⟨1, amara, hamara, rfl⟩
      · exact ⟨0, ops, hops, rfl⟩
      · exact ⟨1, amara, hamara, rfl⟩
      · exact ⟨0, ops, hops, rfl⟩) .decimal (fun _ => "2026-01-01") (fun _ => none) fun _ => 9
  refine ⟨c, ops.payload, amara.payload, ⟨0, ops, hops, rfl⟩, ⟨1, amara, hamara, rfl⟩, ?_⟩
  simp only [hread.1, hread.2]
  rw [hops', hamara']
  rfl

end Wire
end Iam
end Rcp
