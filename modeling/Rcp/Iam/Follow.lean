/-
The replicas of a user under deliveries in order.

`set_user_status` stamps its event with the application clock, which is later than the
`updated_at` of the row.  An event of `update_user_profile` carries the `updated_at`
from before its own change.  So the first such event after a status change looks stale
to the consumers, and they miss what it says until the next event.
-/
import Rcp.Iam.Exchange
import Rcp.Logistics.Replicas
import Rcp.Volunteer.Profiles

namespace Rcp
namespace Iam

open Sql Sql.Table

/-- The envelopes in the outbox, in its order. -/
def Db.events (s : Db) : List (Envelope Message) := s.outbox.values.map Outbox.payload

/-- What a consumer keeps of user `k` after the events. -/
def tracked (keepsRoles : Bool) (k : Uuid) (events : List (Envelope Message)) : Option Identity :=
  events.foldl (fun kept e => follow keepsRoles k kept e.data) none

/-- The identity shows user `k`. -/
structure Mirrors (keepsRoles : Bool) (k : Uuid) (s : Db) (user : User) (i : Identity) : Prop where
  fullName : i.fullName = user.fullName
  phone : i.phone = user.phone
  roles : i.roles =
    if keepsRoles then user.roles (assigned k s.roleAssignments.values) else []
  isActive : i.isActive = user.isActive

/-- How far the identity kept of user `k` is behind the row. -/
structure Trails (keepsRoles : Bool) (k : Uuid) (past : List UserCall) (s : Db) (user : User)
    (i : Identity) : Prop where
  /-- After a status change nothing is missing. -/
  ahead : user.updatedAt < i.sourceUpdatedAt → Mirrors keepsRoles k s user i
  stamped : ∃ a ∈ past, user.updatedAt = a.clock.transaction
  source : ∃ a ∈ past, i.sourceUpdatedAt ≤ a.clock.later
  newest : ∀ e ∈ s.events, ∀ data, e.data.userData? k = some data →
    data.updatedAt ≤ i.sourceUpdatedAt
  reached : ∃ e ∈ s.events, ∃ data, e.data.userData? k = some data ∧
    data.updatedAt = i.sourceUpdatedAt
  userType : ∀ e ∈ s.events, ∀ data, e.data.userData? k = some data →
    data.userType = user.userType

/-- What is kept of user `k` after the calls `past`, all events having been delivered. -/
def Tracked (keepsRoles : Bool) (k : Uuid) (past : List UserCall) (s : Db) : Prop :=
  match s.users.committed k with
  | none => tracked keepsRoles k s.events = none ∧ ∀ e ∈ s.events, e.data.userData? k = none
  | some user => ∃ i, tracked keepsRoles k s.events = some i ∧
      Trails keepsRoles k past s user i

/-- If there is a user `k`, then the identity that is kept shows it. -/
def Current (keepsRoles : Bool) (k : Uuid) (s : Db) : Prop :=
  ∀ user, s.users.committed k = some user →
    ∃ i, tracked keepsRoles k s.events = some i ∧ Mirrors keepsRoles k s user i

/-- The call changes the profile of user `k`, of whom an event with a newer stamp than that of
the row was emitted before. -/
def Overtaken (k : Uuid) (s : Db) : UserCall → Prop
  | .updateUserProfile userId data _ => userId = k ∧ ∃ user, s.users.committed k = some user ∧
      data.changes user = true ∧ ∃ e ∈ s.events, ∃ shown, e.data.userData? k = some shown ∧
        user.updatedAt < shown.updatedAt
  | _ => False

section Steps

variable {keepsRoles : Bool} {a : UserCall} {k : Nat} {past : List UserCall} {s s' : Db}
  {user user' : User} {i : Identity}

theorem tracked_append (events l : List (Envelope Message)) :
    tracked keepsRoles k (events ++ l) =
      l.foldl (fun kept e => follow keepsRoles k kept e.data) (tracked keepsRoles k events) := by
  unfold tracked
  rw [List.foldl_append]

theorem Mirrors.congr (h : Mirrors keepsRoles k s user i)
    (hroles : s'.roleAssignments.values = s.roleAssignments.values) :
    Mirrors keepsRoles k s' user i := by
  refine ⟨h.fullName, h.phone, ?_, h.isActive⟩
  rw [hroles]
  exact h.roles

/-- Events about other users leave what is kept of user `k`. -/
theorem tracked_aside {l : List (Envelope Message)}
    (hl : ∀ e ∈ l, e.data.userData? k = none ∧ e.data.deactivates k = false)
    (kept : Option Identity) :
    l.foldl (fun kept e => follow keepsRoles k kept e.data) kept = kept := by
  induction l generalizing kept with
  | nil => rfl
  | cons e rest ih =>
      obtain ⟨hdata, hdeactivates⟩ := hl e List.mem_cons_self
      rw [List.foldl_cons, follow_aside hdata hdeactivates]
      exact ih (fun x hx => hl x (List.mem_cons_of_mem _ hx)) kept

/-- Nothing about user `k` happens. -/
theorem Tracked.aside (h : Tracked keepsRoles k past s) {l : List (Outbox Message)}
    (huser : s'.users.committed k = s.users.committed k)
    (hroles : s'.roleAssignments.values = s.roleAssignments.values)
    (hvalues : s'.outbox.values = s.outbox.values ++ l)
    (hl : ∀ row ∈ l, row.payload.data.userData? k = none ∧
      row.payload.data.deactivates k = false) :
    Tracked keepsRoles k (past ++ [a]) s' ∧
      tracked keepsRoles k s'.events = tracked keepsRoles k s.events := by
  have hevents : s'.events = s.events ++ l.map Outbox.payload := by
    unfold Db.events
    rw [hvalues, List.map_append]
  have hl' : ∀ e ∈ l.map Outbox.payload, e.data.userData? k = none ∧
      e.data.deactivates k = false := by
    intro e he
    obtain ⟨row, hrow, rfl⟩ := List.mem_map.mp he
    exact hl row hrow
  have hold : ∀ e ∈ s'.events, ∀ data, e.data.userData? k = some data → e ∈ s.events := by
    intro e he data hdata
    rw [hevents] at he
    rcases List.mem_append.mp he with he | he
    · exact he
    · rw [(hl' e he).1] at hdata
      cases hdata
  have htracked : tracked keepsRoles k s'.events = tracked keepsRoles k s.events := by
    rw [hevents, tracked_append]
    exact tracked_aside hl' _
  refine ⟨?_, htracked⟩
  unfold Tracked at h ⊢
  rw [huser, htracked]
  cases hk : s.users.committed k with
  | none =>
      rw [hk] at h
      refine ⟨h.1, fun e he => ?_⟩
      cases hdata : e.data.userData? k with
      | none => rfl
      | some data => exact hdata.symm.trans (h.2 e (hold e he data hdata))
  | some user =>
      rw [hk] at h
      obtain ⟨i, hi, htrails⟩ := h
      obtain ⟨b, hb, hstamp⟩ := htrails.stamped
      obtain ⟨c, hc, hsource⟩ := htrails.source
      obtain ⟨e, he, data, hdata, hreached⟩ := htrails.reached
      have he' : e ∈ s'.events := by
        rw [hevents]
        exact List.mem_append_left _ he
      exact ⟨i, hi, fun hlt => (htrails.ahead hlt).congr hroles,
        ⟨b, List.mem_append_left _ hb, hstamp⟩, ⟨c, List.mem_append_left _ hc, hsource⟩,
        fun x hx d hd => htrails.newest x (hold x hx d hd) d hd,
        ⟨e, he', data, hdata, hreached⟩,
        fun x hx d hd => htrails.userType x (hold x hx d hd) d hd⟩

/-- The last event about user `k` is taken and shows the row. -/
theorem Trails.renewed (past : List UserCall) {l : List (Envelope Message)}
    {x : Envelope Message} {data : UserData}
    (hevents : s'.events = s.events ++ (l ++ [x])) (hl : ∀ e ∈ l, e.data.userData? k = none)
    (hx : x.data.userData? k = some data)
    (htracked : tracked keepsRoles k s'.events = some (data.identity keepsRoles))
    (hold : ∀ e ∈ s.events, ∀ d, e.data.userData? k = some d →
      d.updatedAt ≤ data.updatedAt ∧ d.userType = user.userType)
    (htype : data.userType = user.userType)
    (hshows : Mirrors keepsRoles k s' user (data.identity keepsRoles))
    (hstamped : ∃ b ∈ past, user.updatedAt = b.clock.transaction)
    (hsource : ∃ b ∈ past, data.updatedAt ≤ b.clock.later) :
    ∃ i, tracked keepsRoles k s'.events = some i ∧ Trails keepsRoles k past s' user i ∧
      Mirrors keepsRoles k s' user i := by
  have hcases : ∀ e ∈ s'.events, ∀ d, e.data.userData? k = some d → e ∈ s.events ∨ d = data := by
    intro e he d hd
    rw [hevents] at he
    rcases List.mem_append.mp he with he | he
    · exact .inl he
    · rcases List.mem_append.mp he with he | he
      · rw [hl e he] at hd
        cases hd
      · rw [List.mem_singleton.mp he, hx] at hd
        exact .inr (Option.some.inj hd).symm
  have hmem : x ∈ s'.events := by
    rw [hevents]
    simp
  refine ⟨_, htracked, ⟨fun _ => hshows, hstamped, hsource, fun e he d hd => ?_,
    ⟨x, hmem, data, hx, rfl⟩, fun e he d hd => ?_⟩, hshows⟩
  · rcases hcases e he d hd with he | rfl
    · exact (hold e he d hd).1
    · exact le_refl _
  · rcases hcases e he d hd with he | rfl
    · exact (hold e he d hd).2
    · exact htype

/-- The events of a change are about its user. -/
theorem UserChange.elsewhere {assignments : List RoleAssignment} {before : Option User} {j : Nat}
    {l : List (Outbox Message)} (h : UserChange assignments a before j user l) (hne : j ≠ k) :
    ∀ row ∈ l, row.payload.data.userData? k = none ∧ row.payload.data.deactivates k = false := by
  have hdata : ∀ data : UserData, data.userId = j →
      Message.userData? k (.user data) = none := fun data hj => if_neg (hj ▸ hne)
  cases h with
  | registered hname hactive hnow =>
      intro row hrow
      rw [List.mem_singleton.mp hrow]
      exact ⟨hdata _ rfl, rfl⟩
  | profiled =>
      intro row hrow
      rw [List.mem_singleton.mp hrow]
      exact ⟨hdata _ rfl, rfl⟩
  | shutOut hdeactivates =>
      intro row hrow
      rcases List.mem_cons.mp hrow with rfl | hrow
      · exact ⟨rfl, beq_false_of_ne hne⟩
      · rw [List.mem_singleton.mp hrow]
        exact ⟨hdata _ rfl, rfl⟩
  | statusSet hdeactivates =>
      intro row hrow
      rw [List.mem_singleton.mp hrow]
      exact ⟨hdata _ rfl, rfl⟩

theorem flushed_kept {changed : Bool} {assign : User → User} (clock : Clock)
    (h : changed = false → assign user = user) :
    (flushed changed assign clock user).fullName = (assign user).fullName ∧
      (flushed changed assign clock user).phone = (assign user).phone ∧
      (flushed changed assign clock user).status = (assign user).status ∧
      (flushed changed assign clock user).userType = (assign user).userType := by
  unfold flushed
  cases changed with
  | true => exact ⟨rfl, rfl, rfl, rfl⟩
  | false =>
      rw [h rfl]
      exact ⟨rfl, rfl, rfl, rfl⟩

/-- The stamp of a row after a flush. -/
theorem flushed_stamped {changed : Bool} {assign : User → User}
    (h : ∃ b ∈ past, user.updatedAt = b.clock.transaction) :
    ∃ b ∈ past ++ [a], (flushed changed assign a.clock user).updatedAt = b.clock.transaction := by
  unfold flushed
  cases changed with
  | true => exact ⟨a, List.mem_append_right _ List.mem_cons_self, rfl⟩
  | false =>
      obtain ⟨b, hb, hstamp⟩ := h
      exact ⟨b, List.mem_append_left _ hb, hstamp⟩

theorem roles_congr {assignments : List RoleAssignment} (h : user'.userType = user.userType) :
    user'.roles assignments = user.roles assignments := by
  unfold User.roles
  rw [h]

theorem apply_of_not_changes {data : ProfileUpdate} (h : data.changes user = false) :
    data.apply user = user := by
  have hsame : data.fullName.getD user.fullName = user.fullName ∧
      data.phone.or user.phone = user.phone := by
    obtain ⟨hname, hphone⟩ := Bool.or_eq_false_iff.mp h
    exact ⟨not_not.mp (of_decide_eq_false hname), not_not.mp (of_decide_eq_false hphone)⟩
  unfold ProfileUpdate.apply
  simp only [hsame]

theorem setStatus_of_same {status : String} (h : decide (user.status ≠ status) = false) :
    setStatus status user = user := by
  have hsame : user.status = status := by simpa using h
  unfold setStatus
  rw [← hsame]

/-- The clocks of a call that is made after the calls `past`. -/
theorem clock_after (hclock : ∀ b ∈ past, b.clock.later ≤ a.clock.transaction) {b : UserCall}
    (hb : b ∈ past) : b.clock.transaction < a.clock.transaction := by
  have hle := hclock b hb
  have h₁ := b.clock.started
  have h₂ := b.clock.ordered
  exact lt_of_lt_of_le (lt_of_lt_of_le h₁ h₂) hle

theorem transaction_le_later (a : UserCall) : a.clock.transaction ≤ a.clock.later :=
  le_trans (le_of_lt a.clock.started) a.clock.ordered

/-- The data of `userRegisteredPayload`. -/
def profileData (k : Uuid) (user : User) (roles : List String) : UserData :=
  { userId := k
    tenantId := user.tenantId
    userType := user.userType
    email := user.email
    fullName := user.fullName
    phone := user.phone
    roles := roles
    isActive := user.isActive
    updatedAt := user.updatedAt }

/-- The data of `statusPayload`. -/
def statusData (k : Uuid) (user : User) (roles : List String) (now : Time) : UserData :=
  { profileData k user roles with
    updatedAt := now
    status := some user.status }

/-- The outcome of a call for user `k`: what is kept stays tracked, and it shows the row or not. -/
def Outcome (keepsRoles : Bool) (k : Uuid) (past : List UserCall) (s' : Db) (user : User)
    (shows : Prop) : Prop :=
  ∃ i, tracked keepsRoles k s'.events = some i ∧ Trails keepsRoles k past s' user i ∧
    (Mirrors keepsRoles k s' user i ↔ shows)

theorem step_registered {o : Nat} (hnone : s.users.committed k = none)
    (h : Tracked keepsRoles k past s) (hnow : user.updatedAt = a.clock.transaction)
    (hroles : s'.roleAssignments.values = s.roleAssignments.values)
    (hvalues : s'.outbox.values = s.outbox.values ++
      [registration k o user s.roleAssignments.values]) :
    Outcome keepsRoles k (past ++ [a]) s' user True := by
  unfold Tracked at h
  rw [hnone] at h
  obtain ⟨hkept, hnothing⟩ := h
  have ha : a ∈ past ++ [a] := List.mem_append_right _ List.mem_cons_self
  have hevents : s'.events = s.events ++ ([] ++ [(registration k o user
      s.roleAssignments.values).payload]) := by
    unfold Db.events
    rw [hvalues, List.map_append]
    rfl
  have hdata : Message.userData? k (registration k o user s.roleAssignments.values).payload.data =
      some (profileData k user (user.roles (assigned k s.roleAssignments.values))) := if_pos rfl
  have htracked : tracked keepsRoles k s'.events = some (UserData.identity keepsRoles
      (profileData k user (user.roles (assigned k s.roleAssignments.values)))) := by
    rw [hevents, tracked_append, hkept]
    exact follow_first hdata
  obtain ⟨i, hi, htrails, hmirrors⟩ := Trails.renewed (past ++ [a]) hevents
    (fun e he => by cases he) hdata htracked
    (fun e he d hd => by rw [hnothing e he] at hd; cases hd) rfl
    ⟨rfl, rfl, by rw [hroles]; rfl, rfl⟩ ⟨a, ha, hnow⟩
    ⟨a, ha, le_trans (le_of_eq hnow) (transaction_le_later a)⟩
  exact ⟨i, hi, htrails, iff_of_true hmirrors trivial⟩

theorem Trails.updated_lt (h : Trails keepsRoles k past s user i)
    (hclock : ∀ b ∈ past, b.clock.later ≤ a.clock.transaction) :
    user.updatedAt < a.clock.transaction ∧ i.sourceUpdatedAt ≤ a.clock.transaction := by
  obtain ⟨b, hb, hstamp⟩ := h.stamped
  obtain ⟨c, hc, hsource⟩ := h.source
  exact ⟨hstamp ▸ clock_after hclock hb, le_trans hsource (hclock c hc)⟩

/-- Deactivations leave the stamp of what is kept. -/
theorem follow_deactivations (keepsRoles : Bool) {d : List (Envelope Message)}
    (hd : ∀ e ∈ d, e.data.userData? k = none) (i : Identity) :
    ∃ j : Identity, d.foldl (fun kept e => follow keepsRoles k kept e.data) (some i) = some j ∧
      j.sourceUpdatedAt = i.sourceUpdatedAt := by
  induction d generalizing i with
  | nil => exact ⟨i, rfl, rfl⟩
  | cons e rest ih =>
      have he := hd e List.mem_cons_self
      have hrest := ih fun x hx => hd x (List.mem_cons_of_mem _ hx)
      rw [List.foldl_cons]
      cases hdeactivates : e.data.deactivates k with
      | true =>
          rw [follow_deactivated he hdeactivates]
          exact hrest _
      | false =>
          rw [follow_aside he hdeactivates]
          exact hrest i

/-- The last event shows the flushed row and is taken, as it is no older than what is tracked.
Only deactivations of the user come before it. -/
theorem Trails.told {changed : Bool} {assign : User → User} {l : List (Envelope Message)}
    {x : Envelope Message} {stamp : Time} {status : Option String}
    (h : Trails keepsRoles k past s user i) (hi : tracked keepsRoles k s.events = some i)
    (hroles : s'.roleAssignments.values = s.roleAssignments.values)
    (hevents : s'.events = s.events ++ (l ++ [x])) (hl : ∀ e ∈ l, e.data.userData? k = none)
    (hx : x.data.userData? k = some { profileData k (assign user)
      (user.roles (assigned k s.roleAssignments.values)) with updatedAt := stamp, status := status })
    (hsame : changed = false → assign user = user)
    (htype : (assign user).userType = user.userType)
    (hnew : i.sourceUpdatedAt ≤ stamp) (hlast : stamp ≤ a.clock.later) :
    Outcome keepsRoles k (past ++ [a]) s' (flushed changed assign a.clock user) True := by
  obtain ⟨hname, hphone, hstatus, hflushed⟩ := flushed_kept a.clock hsame
  have hkept := hflushed.trans htype
  generalize hdata : ({ profileData k (assign user)
    (user.roles (assigned k s.roleAssignments.values)) with
      updatedAt := stamp, status := status } : UserData) = data at hx
  obtain ⟨j, hj, hstamp⟩ := follow_deactivations keepsRoles hl i
  have htracked : tracked keepsRoles k s'.events = some (data.identity keepsRoles) := by
    rw [hevents, tracked_append, hi, List.foldl_append, hj]
    refine follow_newer hx ?_
    rw [hstamp, ← hdata]
    exact hnew
  have hmirrors : Mirrors keepsRoles k s' (flushed changed assign a.clock user)
      (data.identity keepsRoles) := by
    rw [← hdata]
    refine ⟨hname.symm, hphone.symm, ?_, ?_⟩
    · rw [hroles, roles_congr hkept]
      rfl
    · unfold User.isActive
      rw [hstatus]
      rfl
  have hold : ∀ e ∈ s.events, ∀ d, e.data.userData? k = some d → d.updatedAt ≤ data.updatedAt ∧
      d.userType = (flushed changed assign a.clock user).userType := by
    intro e he d hd
    rw [← hdata]
    exact ⟨le_trans (h.newest e he d hd) hnew, (h.userType e he d hd).trans hkept.symm⟩
  obtain ⟨i', hi', htrails, hshows⟩ := Trails.renewed (past ++ [a]) hevents hl hx htracked hold
    (hdata ▸ hflushed.symm) hmirrors (flushed_stamped h.stamped)
    ⟨a, List.mem_append_right _ List.mem_cons_self, hdata ▸ hlast⟩
  exact ⟨i', hi', htrails, iff_of_true hshows trivial⟩

theorem step_status {o : Nat} {status : String} {l : List (Outbox Message)} {clock : Clock}
    (ha : a = .setUserStatus k status clock) (hk : s.users.committed k = some user)
    (h : Tracked keepsRoles k past s) (hclock : ∀ b ∈ past, b.clock.later ≤ a.clock.transaction)
    (hroles : s'.roleAssignments.values = s.roleAssignments.values)
    (hl : ∀ row ∈ l, row.payload.data.userData? k = none)
    (hvalues : s'.outbox.values = s.outbox.values ++
      (l ++ [statusUpdate k o user status s.roleAssignments.values clock.later])) :
    Outcome keepsRoles k (past ++ [a]) s'
      (flushed (user.status ≠ status) (setStatus status) clock user) True := by
  unfold Tracked at h
  rw [hk] at h
  obtain ⟨i, hi, htrails⟩ := h
  subst ha
  obtain ⟨-, hsource⟩ := htrails.updated_lt hclock
  have hl' : ∀ e ∈ l.map Outbox.payload, e.data.userData? k = none := by
    intro e he
    obtain ⟨row, hrow, rfl⟩ := List.mem_map.mp he
    exact hl row hrow
  have hevents : s'.events = s.events ++ (l.map Outbox.payload ++ [(statusUpdate k o user status
      s.roleAssignments.values clock.later).payload]) := by
    unfold Db.events
    rw [hvalues, List.map_append, List.map_append]
    rfl
  exact htrails.told hi hroles hevents hl' (if_pos rfl) (fun h => setStatus_of_same h) rfl
    (le_trans hsource (transaction_le_later _)) (le_refl _)

theorem changes_iff {data : ProfileUpdate} (h : data.changes user = true) :
    ¬ ((data.apply user).fullName = user.fullName ∧ (data.apply user).phone = user.phone) := by
  rintro ⟨hname, hphone⟩
  rcases Bool.or_eq_true_iff.mp h with hne | hne
  · exact of_decide_eq_true hne hname
  · exact of_decide_eq_true hne hphone

theorem Trails.overtaken_iff {data : ProfileUpdate} {clock : Clock}
    (h : Trails keepsRoles k past s user i) (hk : s.users.committed k = some user) :
    Overtaken k s (.updateUserProfile k data clock) ↔
      data.changes user = true ∧ user.updatedAt < i.sourceUpdatedAt := by
  constructor
  · rintro ⟨-, user', hk', hchanges, e, he, shown, hshown, hlt⟩
    rw [hk] at hk'
    cases hk'
    exact ⟨hchanges, lt_of_lt_of_le hlt (h.newest e he shown hshown)⟩
  · rintro ⟨hchanges, hlt⟩
    obtain ⟨e, he, shown, hshown, hstamp⟩ := h.reached
    exact ⟨rfl, user, hk, hchanges, e, he, shown, hshown, hstamp ▸ hlt⟩

/-- An event about user `k` that is older than what is tracked leaves the identity as it is. -/
theorem Trails.stale {x : Envelope Message} {shown : UserData}
    (h : Trails keepsRoles k past s user i) (hevents : s'.events = s.events ++ [x])
    (hx : x.data.userData? k = some shown) (hlt : shown.updatedAt < i.sourceUpdatedAt)
    (htype : user'.userType = user.userType) (hshown : shown.userType = user.userType)
    (hstamped : ∃ b ∈ past ++ [a], user'.updatedAt = b.clock.transaction)
    (hahead : user'.updatedAt < i.sourceUpdatedAt → Mirrors keepsRoles k s' user' i) :
    Trails keepsRoles k (past ++ [a]) s' user' i := by
  have hcases : ∀ e ∈ s'.events, ∀ d, e.data.userData? k = some d → e ∈ s.events ∨ d = shown := by
    intro e he d hd
    rw [hevents] at he
    rcases List.mem_append.mp he with he | he
    · exact .inl he
    · rw [List.mem_singleton.mp he, hx] at hd
      exact .inr (Option.some.inj hd).symm
  obtain ⟨c, hc, hsource⟩ := h.source
  obtain ⟨e, he, d, hd, hreached⟩ := h.reached
  have he' : e ∈ s'.events := by
    rw [hevents]
    exact List.mem_append_left _ he
  refine ⟨hahead, hstamped, ⟨c, List.mem_append_left _ hc, hsource⟩, fun y hy d hd => ?_,
    ⟨e, he', d, hd, hreached⟩, fun y hy d hd => ?_⟩
  · rcases hcases y hy d hd with hy | rfl
    · exact h.newest y hy d hd
    · exact le_of_lt hlt
  · rcases hcases y hy d hd with hy | rfl
    · exact (h.userType y hy d hd).trans htype.symm
    · exact hshown.trans htype.symm

/-- The event of a profile update carries the stamp of the row before it. -/
theorem step_profile {o : Nat} {data : ProfileUpdate} {clock : Clock}
    (ha : a = .updateUserProfile k data clock) (hk : s.users.committed k = some user)
    (h : Tracked keepsRoles k past s) (hclock : ∀ b ∈ past, b.clock.later ≤ a.clock.transaction)
    (hroles : s'.roleAssignments.values = s.roleAssignments.values)
    (hvalues : s'.outbox.values = s.outbox.values ++
      [profileUpdate k o user (data.apply user) s.roleAssignments.values]) :
    Outcome keepsRoles k (past ++ [a]) s' (flushed (data.changes user) data.apply clock user)
      (¬ Overtaken k s a) := by
  unfold Tracked at h
  rw [hk] at h
  obtain ⟨i, hi, htrails⟩ := h
  subst ha
  obtain ⟨hupdated, hsource⟩ := htrails.updated_lt hclock
  have hovertaken : Overtaken k s (.updateUserProfile k data clock) ↔
      data.changes user = true ∧ user.updatedAt < i.sourceUpdatedAt := htrails.overtaken_iff hk
  have hevents : s'.events = s.events ++ [(profileUpdate k o user (data.apply user)
      s.roleAssignments.values).payload] := by
    unfold Db.events
    rw [hvalues, List.map_append]
    rfl
  have hdata : Message.userData? k (profileUpdate k o user (data.apply user)
      s.roleAssignments.values).payload.data = some (profileData k (data.apply user)
        (user.roles (assigned k s.roleAssignments.values))) := if_pos rfl
  have hunchanged : data.changes user = false → data.apply user = user := fun h =>
    apply_of_not_changes h
  by_cases hlt : user.updatedAt < i.sourceUpdatedAt
  · -- The event looks stale and is dropped.
    have hmirrors := htrails.ahead hlt
    have htracked : tracked keepsRoles k s'.events = some i := by
      rw [hevents, tracked_append, hi]
      exact follow_stale hdata hlt
    obtain ⟨-, -, -, htype⟩ := flushed_kept clock hunchanged
    refine ⟨i, htracked, htrails.stale hevents hdata hlt htype rfl
      (flushed_stamped htrails.stamped) fun hahead => ?_, ?_⟩
    · cases hchanges : data.changes user with
      | false => exact hmirrors.congr hroles
      | true =>
          rw [hchanges] at hahead
          have hnow : clock.transaction < i.sourceUpdatedAt := hahead
          exact absurd hsource (not_le.mpr hnow)
    · rw [hovertaken]
      cases hchanges : data.changes user with
      | false => exact iff_of_true (hmirrors.congr hroles) fun h => Bool.false_ne_true h.1
      | true =>
          refine iff_of_false (fun h => changes_iff hchanges ?_) fun h => h ⟨rfl, hlt⟩
          exact ⟨h.fullName.symm.trans hmirrors.fullName, h.phone.symm.trans hmirrors.phone⟩
  · have hle : i.sourceUpdatedAt ≤ user.updatedAt := not_lt.mp hlt
    obtain ⟨i', hi', htrails', hmirrors⟩ := htrails.told (l := []) hi hroles hevents
      (fun e he => by cases he) hdata hunchanged rfl hle
      (le_trans (le_of_lt hupdated) (transaction_le_later _))
    refine ⟨i', hi', htrails', hmirrors.trans (iff_of_true trivial ?_)⟩
    rw [hovertaken]
    exact fun h => hlt h.2

end Steps

/-! ## Histories -/

section Histories

variable {keepsRoles : Bool} {a : UserCall} {k : Nat} {past : List UserCall} {w w' : Rows}
  {s s' : Db} {user : User} {shows : Prop}

theorem Outcome.tracked (h : Outcome keepsRoles k past s user shows)
    (hk : s.users.committed k = some user) :
    Tracked keepsRoles k past s ∧ (Current keepsRoles k s ↔ shows) := by
  obtain ⟨i, hi, htrails, hiff⟩ := h
  refine ⟨?_, ?_⟩
  · unfold Tracked
    rw [hk]
    exact ⟨i, hi, htrails⟩
  · rw [← hiff]
    constructor
    · intro hcurrent
      obtain ⟨j, hj, hmirrors⟩ := hcurrent user hk
      rw [hi] at hj
      cases hj
      exact hmirrors
    · intro hmirrors user' hk'
      rw [hk] at hk'
      cases hk'
      exact ⟨i, hi, hmirrors⟩

theorem Current.absent (h : s.users.committed k = none) : Current keepsRoles k s := by
  intro user hk
  rw [h] at hk
  cases hk

theorem not_overtaken_absent (h : s.users.committed k = none) : ¬ Overtaken k s a := by
  intro hovertaken
  cases a with
  | updateUserProfile userId data clock =>
      obtain ⟨-, user, hk, -⟩ := hovertaken
      rw [h] at hk
      cases hk
  | registerGlobalUser => exact hovertaken
  | registerTenantUser => exact hovertaken
  | setUserStatus => exact hovertaken

theorem Current.congr (huser : s'.users.committed k = s.users.committed k)
    (hroles : s'.roleAssignments.values = s.roleAssignments.values)
    (htracked : tracked keepsRoles k s'.events = tracked keepsRoles k s.events) :
    Current keepsRoles k s' ↔ Current keepsRoles k s := by
  unfold Current
  rw [huser, htracked]
  refine forall_congr' fun user => imp_congr_right fun _ => exists_congr fun i =>
    and_congr_right fun _ => ⟨fun h => h.congr hroles.symm, fun h => h.congr hroles⟩

/-- A call changes the user that it names. -/
theorem UserChange.names {assignments : List RoleAssignment} {before : Option User} {j : Nat}
    {l : List (Outbox Message)} (h : UserChange assignments a before j user l)
    (ha : a.user? = some k) : j = k := by
  cases h with
  | registered hname hactive hnow =>
      rw [hname] at ha
      cases ha
  | profiled => exact Option.some.inj ha
  | shutOut hdeactivates => exact Option.some.inj ha
  | statusSet hdeactivates => exact Option.some.inj ha

/-- One call on its own. -/
theorem Tracked.step (h : Tracked keepsRoles k past s) (hs : Rested schema w s)
    (hs' : Rested schema w' s') (hresult : UserResult a w w')
    (hclock : ∀ b ∈ past, b.clock.later ≤ a.clock.transaction) :
    Tracked keepsRoles k (past ++ [a]) s' ∧
      (a.user? = some k → (Current keepsRoles k s' ↔ ¬ Overtaken k s a)) ∧
      (a.user? ≠ some k → (Current keepsRoles k s' ↔ Current keepsRoles k s)) := by
  obtain ⟨hroles, hcases⟩ := hresult.events hs hs'
  rcases hcases with ⟨husers, hvalues, hname⟩ | ⟨j, user, l, hchange, husers, hvalues⟩
  · have hk : s'.users.committed k = s.users.committed k := by rw [husers]
    have hvalues' : s'.outbox.values = s.outbox.values ++ [] := by rw [hvalues, List.append_nil]
    obtain ⟨htracked, hsame⟩ := h.aside (a := a) hk hroles hvalues' fun row hrow => by cases hrow
    refine ⟨htracked, fun ha => ?_, fun _ => Current.congr hk hroles hsame⟩
    have hnone := hname k ha
    exact iff_of_true (.absent (hk.trans hnone)) (not_overtaken_absent hnone)
  · by_cases hjk : j = k
    · subst hjk
      have hk' : s'.users.committed j = some user := by
        rw [husers]
        exact Function.update_self ..
      cases hbefore : s.users.committed j with
      | none =>
          rw [hbefore] at hchange
          cases hchange with
          | registered hname hactive hnow =>
              obtain ⟨htracked, hcurrent⟩ :=
                (step_registered hbefore h hnow hroles hvalues).tracked hk'
              refine ⟨htracked, fun ha => ?_, fun _ => ?_⟩
              · rw [hname] at ha
                cases ha
              · exact hcurrent.trans (iff_of_true trivial (.absent hbefore))
      | some old =>
          rw [hbefore] at hchange
          cases hchange with
          | profiled =>
              obtain ⟨htracked, hcurrent⟩ :=
                (step_profile rfl hbefore h hclock hroles hvalues).tracked hk'
              exact ⟨htracked, fun _ => hcurrent, fun hne => absurd rfl hne⟩
          | shutOut hdeactivates =>
              obtain ⟨htracked, hcurrent⟩ := (step_status (l := [_]) rfl hbefore h hclock hroles
                (fun row hrow => by rw [List.mem_singleton.mp hrow]; rfl) hvalues).tracked hk'
              exact ⟨htracked, fun _ => hcurrent.trans (iff_of_true trivial id),
                fun hne => absurd rfl hne⟩
          | statusSet hdeactivates =>
              obtain ⟨htracked, hcurrent⟩ := (step_status (l := []) rfl hbefore h hclock hroles
                (fun row hrow => by cases hrow) hvalues).tracked hk'
              exact ⟨htracked, fun _ => hcurrent.trans (iff_of_true trivial id),
                fun hne => absurd rfl hne⟩
    · have hk : s'.users.committed k = s.users.committed k := by
        rw [husers]
        exact Function.update_of_ne (fun h => hjk h.symm) ..
      obtain ⟨htracked, hsame⟩ := h.aside (a := a) hk hroles hvalues (hchange.elsewhere hjk)
      refine ⟨htracked, fun ha => ?_, fun _ => Current.congr hk hroles hsame⟩
      exact absurd (hchange.names ha) hjk

/-- The types of the events go with their data. -/
theorem UserChange.fits {assignments : List RoleAssignment} {before : Option User}
    {l : List (Outbox Message)} (h : UserChange assignments a before k user l) :
    ∀ row ∈ l, row.payload.data.FitsType row.payload.eventType := by
  cases h with
  | registered hname hactive hnow =>
      intro row hrow
      rw [List.mem_singleton.mp hrow]
      exact List.mem_cons_self
  | profiled =>
      intro row hrow
      rw [List.mem_singleton.mp hrow]
      exact List.mem_cons_of_mem _ List.mem_cons_self
  | shutOut hdeactivates =>
      intro row hrow
      rcases List.mem_cons.mp hrow with rfl | hrow
      · rfl
      · rw [List.mem_singleton.mp hrow]
        exact List.mem_cons_of_mem _ List.mem_cons_self
  | statusSet hdeactivates =>
      intro row hrow
      rw [List.mem_singleton.mp hrow]
      exact List.mem_cons_of_mem _ List.mem_cons_self

/-- What holds of the outbox after any calls. -/
structure Written (s : Db) : Prop where
  numbered : Numbered s.outbox.committed
  fits : ∀ e ∈ s.events, e.data.FitsType e.eventType

theorem Written.step (h : Written s) (hs : Rested schema w s) (hs' : Rested schema w' s')
    (hresult : UserResult a w w') : Written s' := by
  have hout : s.outbox.committed = w.outbox := congrArg Rows.outbox hs.rows
  have hout' : s'.outbox.committed = w'.outbox := congrArg Rows.outbox hs'.rows
  refine ⟨?_, fun e he => ?_⟩
  · rw [hout']
    exact hresult.numbered (hout ▸ h.numbered)
  · obtain ⟨-, hcases⟩ := hresult.events hs hs'
    unfold Db.events at he
    rcases hcases with ⟨-, hvalues, -⟩ | ⟨j, user, l, hchange, -, hvalues⟩
    · rw [hvalues] at he
      exact h.fits e he
    · rw [hvalues, List.map_append] at he
      rcases List.mem_append.mp he with he | he
      · exact h.fits e he
      · obtain ⟨row, hrow, rfl⟩ := List.mem_map.mp he
        exact hchange.fits row hrow

theorem InTurn.last {l : List UserCall} (h : InTurn (l ++ [a])) :
    ∀ b ∈ l, b.clock.later ≤ a.clock.transaction :=
  fun b hb => (List.pairwise_append.mp h).2.2 b hb a List.mem_cons_self

theorem InTurn.init {l l' : List UserCall} (h : InTurn (l ++ l')) : InTurn l :=
  (List.pairwise_append.mp h).1

/-- What holds after calls made one after the other. -/
theorem user_history (env : Env) (tenants : List Tenant) (roleAssignments : List RoleAssignment)
    (l : List UserCall) (hturn : InTurn l) :
    ∃ w s, calls (UserCall.body env) l 0 (Db.initial tenants [] roleAssignments) = some s ∧
      Rested schema w s ∧ Written s ∧ ∀ keepsRoles k, Tracked keepsRoles k l s := by
  let J : List UserCall → Db → Prop := fun past s => Written s ∧
    (InTurn past → ∀ keepsRoles k, Tracked keepsRoles k past s)
  have hstep : ∀ past a w w' s s', Rested schema w s → Rested schema w' s' → UserResult a w w' →
      J past s → J (past ++ [a]) s' := by
    intro past a w w' s s' hs hs' hresult hJ
    refine ⟨hJ.1.step hs hs' hresult, fun hpast keepsRoles k => ?_⟩
    exact ((hJ.2 hpast.init keepsRoles k).step hs hs' hresult hpast.last).1
  have hstart : J [] (Db.initial tenants [] roleAssignments) := by
    refine ⟨⟨Numbered.nothing, fun e he => by cases he⟩, fun _ _ k => ?_⟩
    exact ⟨rfl, fun e he => by cases he⟩
  obtain ⟨w, s, hcalls, hs, hwritten, htracked⟩ := (user_leads env).history hstep
    (initial_rested tenants [] roleAssignments) hstart l 0
  exact ⟨w, s, hcalls, hs, hwritten, htracked hturn⟩

end Histories

end Iam
end Rcp
