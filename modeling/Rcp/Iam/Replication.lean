/-
What other services keep of a user, and how the events change it.

`iam.user.registered` and `iam.user.updated` carry the state of the user and overwrite
what is kept unless it has a newer `source_updated_at`.  `iam.user.deactivated` carries
no stamp and always takes effect on a user that is known.  `Replicates` says of a
consumer that it follows these rules for one user.
-/
import Rcp.Common.Inbox
import Rcp.Iam.Effect

namespace Rcp
namespace Iam

open Sql Sql.Table

structure Identity where
  fullName : String
  phone : Option String
  roles : List String
  isActive : Bool
  sourceUpdatedAt : Time
  deriving DecidableEq

/-- What is kept of the data of an event, with the roles or without. -/
def UserData.identity (keepsRoles : Bool) (data : UserData) : Identity :=
  { fullName := data.fullName
    phone := data.phone
    roles := if keepsRoles then data.roles else []
    isActive := data.isActive
    sourceUpdatedAt := data.updatedAt }

/-- The state of user `k` that an event carries. -/
def Message.userData? (k : Uuid) : Message → Option UserData
  | user data => if data.userId = k then some data else none
  | _ => none

def Message.deactivates (k : Uuid) : Message → Bool
  | userDeactivated userId .. => userId == k
  | _ => false

/-- The data goes with the event type. -/
def Message.FitsType (eventType : String) : Message → Prop
  | user _ => eventType ∈ ["iam.user.registered", "iam.user.updated"]
  | userDeactivated .. => eventType = "iam.user.deactivated"
  | tenantDeactivated .. => eventType = "iam.tenant.deactivated"
  | tenantStatusChanged .. => eventType = "iam.tenant.status_changed"

/-- `data["user_id"]`. -/
def Message.userId? : Message → Option Uuid
  | user data => some data.userId
  | userDeactivated userId .. => some userId
  | tenantDeactivated .. | tenantStatusChanged .. => none

/-- A key that the data of an event does not carry. -/
inductive KeyError
  | keyError

/-- What is kept of user `k` after one more event. -/
def follow (keepsRoles : Bool) (k : Uuid) (kept : Option Identity) (m : Message) :
    Option Identity :=
  match m.userData? k with
  | some data =>
      match kept with
      | none => some (data.identity keepsRoles)
      | some old =>
          if old.sourceUpdatedAt ≤ data.updatedAt then some (data.identity keepsRoles)
          else some old
  | none =>
      if m.deactivates k then kept.map fun old => { old with isActive := false } else kept

/-- The consumer `apply` keeps user `k` in `row` and takes all events, those of other users
included.  It keeps users of the type `keeps` only. -/
def Replicates {R ε : Type} (keepsRoles : Bool) (keeps : UserType → Prop) (k : Uuid)
    (apply : Envelope Message → R → Except ε R) (row : R → Option Identity) : Prop :=
  ∀ e rows, e.data.FitsType e.eventType →
    (∀ data, e.data.userData? k = some data → keeps data.userType) →
    ∃ rows', apply e rows = .ok rows' ∧ row rows' = follow keepsRoles k (row rows) e.data

section Follow

variable {keepsRoles : Bool} {k : Uuid} {kept : Option Identity} {old : Identity} {m : Message}
  {data : UserData}

theorem follow_first (h : m.userData? k = some data) :
    follow keepsRoles k none m = some (data.identity keepsRoles) := by
  unfold follow
  rw [h]

theorem follow_newer (h : m.userData? k = some data) (hle : old.sourceUpdatedAt ≤ data.updatedAt) :
    follow keepsRoles k (some old) m = some (data.identity keepsRoles) := by
  unfold follow
  rw [h]
  exact if_pos hle

theorem follow_stale (h : m.userData? k = some data) (hlt : data.updatedAt < old.sourceUpdatedAt) :
    follow keepsRoles k (some old) m = some old := by
  unfold follow
  rw [h]
  exact if_neg (not_le.mpr hlt)

theorem follow_deactivated (h : m.userData? k = none) (hd : m.deactivates k = true) :
    follow keepsRoles k kept m = kept.map fun old => { old with isActive := false } := by
  unfold follow
  rw [h]
  exact if_pos hd

theorem follow_aside (h : m.userData? k = none) (hd : m.deactivates k = false) :
    follow keepsRoles k kept m = kept := by
  unfold follow
  rw [h]
  simp [hd]

end Follow

section Once

variable {R ε : Type} {keepsRoles : Bool} {keeps : UserType → Prop} {k : Uuid}
  {apply : Envelope Message → R → Except ε R} {row : R → Option Identity}

/-- Events that are delivered once each, in their order. -/
theorem Replicates.once (h : Replicates keepsRoles keeps k apply row)
    {d : List (Envelope Message)} {s : Inbox R} (hids : (d.map Envelope.eventId).Nodup)
    (hnew : ∀ e ∈ d, e.eventId ∉ s.processed)
    (hd : ∀ e ∈ d, e.data.FitsType e.eventType ∧
      ∀ data, e.data.userData? k = some data → keeps data.userType) :
    row (d.foldl (Inbox.onMessage (Inbox.handle apply)) s).rows =
      d.foldl (fun kept e => follow keepsRoles k kept e.data) (row s.rows) := by
  rw [Inbox.rows_once hids hnew]
  generalize s.rows = rows
  clear hids hnew
  induction d generalizing rows with
  | nil => rfl
  | cons e rest ih =>
      obtain ⟨hfits, hkeeps⟩ := hd e List.mem_cons_self
      obtain ⟨rows', happly, hrow⟩ := h e rows hfits hkeeps
      have happlied : Inbox.applied apply rows e = rows' := by
        simp only [Inbox.applied, happly]
      rw [List.foldl_cons, List.foldl_cons, happlied, ← hrow]
      exact ih (fun x hx => hd x (List.mem_cons_of_mem _ hx)) rows'

end Once

end Iam
end Rcp
