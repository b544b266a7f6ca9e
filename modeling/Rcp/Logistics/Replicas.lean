/-
The user replicas of the logistics service (`services/logistics/app/events/consumers/
iam.py`).
-/
import Rcp.Iam.Replication
import Rcp.Logistics.Model

namespace Rcp
namespace Logistics

open Iam (UserData Identity KeyError)

/-- The replicas by user id. -/
abbrev Replicas := Uuid → Option UserReplica

/-- `_upsert_replica`.  The tenant of a replica stays what it was first. -/
def upsertReplica (tenantId : Option Uuid) (data : UserData) (replicas : Replicas) : Replicas :=
  match replicas data.userId with
  | none =>
      Function.update replicas data.userId (some
        { tenantId := tenantId
          fullName := data.fullName
          phone := data.phone
          roles := data.roles
          isActive := data.isActive
          sourceUpdatedAt := data.updatedAt })
  | some replica =>
      if replica.sourceUpdatedAt ≤ data.updatedAt then
        Function.update replicas data.userId (some
          { replica with
            fullName := data.fullName
            phone := data.phone
            roles := data.roles
            isActive := data.isActive
            sourceUpdatedAt := data.updatedAt })
      else replicas

/-- `_deactivate_replica`. -/
def deactivateReplica (userId : Uuid) (replicas : Replicas) : Replicas :=
  match replicas userId with
  | none => replicas
  | some replica => Function.update replicas userId (some { replica with isActive := false })

/-- What `_handle` does with an event in a new transaction. -/
def applyIam (event : Envelope Iam.Message) (replicas : Replicas) : Except KeyError Replicas :=
  if event.eventType ∈ ["iam.user.registered", "iam.user.updated"] then
    match event.data with
    | .user data => .ok (upsertReplica event.tenantId data replicas)
    | _ => .error .keyError
  else if event.eventType = "iam.user.deactivated" then
    match event.data.userId? with
    | some userId => .ok (deactivateReplica userId replicas)
    | none => .error .keyError
  else .ok replicas

/-- The consumer after one more message. -/
def deliverIam (s : Inbox Replicas) (event : Envelope Iam.Message) : Inbox Replicas :=
  Inbox.onMessage (Inbox.handle applyIam) s event

/-- A consumer that has received nothing. -/
def noReplicas : Inbox Replicas := { rows := fun _ => none }

def UserReplica.identity (replica : UserReplica) : Identity :=
  { fullName := replica.fullName
    phone := replica.phone
    roles := replica.roles
    isActive := replica.isActive
    sourceUpdatedAt := replica.sourceUpdatedAt }

def Replicas.identity (k : Uuid) (replicas : Replicas) : Option Identity :=
  (replicas k).map UserReplica.identity

section Replicates

variable {k : Uuid} {replicas : Replicas}

theorem identity_update_self (replica : UserReplica) :
    Replicas.identity k (Function.update replicas k (some replica)) = some replica.identity := by
  unfold Replicas.identity
  rw [Function.update_self]
  rfl

theorem identity_update_of_ne {j : Uuid} (h : k ≠ j) (replica : UserReplica) :
    Replicas.identity k (Function.update replicas j (some replica)) =
      Replicas.identity k replicas := by
  unfold Replicas.identity
  rw [Function.update_of_ne h]

theorem upsertReplica_identity (tenantId : Option Uuid) (data : UserData) :
    Replicas.identity k (upsertReplica tenantId data replicas) =
      Iam.follow true k (Replicas.identity k replicas) (.user data) := by
  by_cases hk : data.userId = k
  · subst hk
    have hdata : Iam.Message.userData? data.userId (.user data) = some data := if_pos rfl
    unfold upsertReplica
    cases hold : replicas data.userId with
    | none =>
        have hnone : Replicas.identity data.userId replicas = none := by
          unfold Replicas.identity
          rw [hold]
          rfl
        rw [hnone, Iam.follow_first hdata]
        exact identity_update_self _
    | some replica =>
        have hsome : Replicas.identity data.userId replicas = some replica.identity := by
          unfold Replicas.identity
          rw [hold]
          rfl
        rw [hsome]
        by_cases hle : replica.sourceUpdatedAt ≤ data.updatedAt
        · rw [Iam.follow_newer hdata hle]
          simp only [if_pos hle]
          exact identity_update_self _
        · rw [Iam.follow_stale hdata (not_le.mp hle)]
          simp only [if_neg hle]
          exact hsome
  · have hdata : Iam.Message.userData? k (.user data) = none := if_neg hk
    rw [Iam.follow_aside hdata rfl]
    have hne : k ≠ data.userId := fun h => hk h.symm
    unfold upsertReplica
    split
    · exact identity_update_of_ne hne _
    · split
      · exact identity_update_of_ne hne _
      · rfl

theorem deactivateReplica_identity (userId : Uuid) (tenantId : Option Uuid) (status : String)
    (occurredAt : Time) :
    Replicas.identity k (deactivateReplica userId replicas) =
      Iam.follow true k (Replicas.identity k replicas)
        (.userDeactivated userId tenantId status occurredAt) := by
  by_cases hk : userId = k
  · subst hk
    have hd : Iam.Message.deactivates userId (.userDeactivated userId tenantId status
        occurredAt) = true := beq_self_eq_true userId
    rw [Iam.follow_deactivated rfl hd]
    cases hold : replicas userId with
    | none =>
        have hnone : Replicas.identity userId replicas = none := by
          unfold Replicas.identity
          rw [hold]
          rfl
        have hsame : deactivateReplica userId replicas = replicas := by
          unfold deactivateReplica
          rw [hold]
        rw [hsame, hnone]
        rfl
    | some replica =>
        unfold deactivateReplica
        rw [hold]
        refine (identity_update_self _).trans ?_
        unfold Replicas.identity
        rw [hold]
        rfl
  · have hd : Iam.Message.deactivates k (.userDeactivated userId tenantId status
        occurredAt) = false := beq_false_of_ne hk
    rw [Iam.follow_aside rfl hd]
    unfold deactivateReplica
    split
    · rfl
    · exact identity_update_of_ne (fun h => hk h.symm) _

/-- The consumer keeps every user with its roles. -/
theorem replicas_replicate (k : Uuid) :
    Iam.Replicates true (fun _ => True) k applyIam (Replicas.identity k) := by
  intro e rows hfits _
  unfold applyIam
  cases hdata : e.data with
  | user data =>
      rw [hdata] at hfits
      have htype : e.eventType ∈ ["iam.user.registered", "iam.user.updated"] := hfits
      rw [if_pos htype]
      exact ⟨_, rfl, upsertReplica_identity e.tenantId data⟩
  | userDeactivated userId tenantId status occurredAt =>
      rw [hdata] at hfits
      have htype : e.eventType = "iam.user.deactivated" := hfits
      rw [htype]
      exact ⟨_, rfl, deactivateReplica_identity userId tenantId status occurredAt⟩
  | tenantDeactivated tenantId status occurredAt =>
      rw [hdata] at hfits
      have htype : e.eventType = "iam.tenant.deactivated" := hfits
      rw [htype]
      exact ⟨rows, rfl, (Iam.follow_aside rfl rfl).symm⟩
  | tenantStatusChanged tenantId status =>
      rw [hdata] at hfits
      have htype : e.eventType = "iam.tenant.status_changed" := hfits
      rw [htype]
      exact ⟨rows, rfl, (Iam.follow_aside rfl rfl).symm⟩

end Replicates

end Logistics
end Rcp
