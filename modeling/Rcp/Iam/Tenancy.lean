/-
The two tenants of a user.

A user may belong to a tenant and may have been assigned to one at registration.  No
call changes either, or the user's type.  An access token carries the assigned tenant if
there is one and else the user's own, and the user's type as a role.  The event of a
deactivation carries the user's own tenant.
-/
import Rcp.Iam.Services
import Rcp.Sql.Growth
import Rcp.Sql.Identity

namespace Rcp
namespace Iam

open Sql Growth

/-- The tenant of the user, the tenant it was assigned to and its type. -/
def User.fixed (user : User) : Option Uuid × Option Uuid × UserType :=
  (user.tenantId, user.assignedTenantId, user.userType)

/-- The tenant claim of the user's access tokens. -/
def User.effectiveTenantId (user : User) : Option Uuid :=
  user.assignedTenantId.or user.tenantId

/-- The event of a deactivation is addressed by the user's own tenant. -/
def Addressed (users : Table User) (row : Outbox Message) : Prop :=
  match row.payload.data with
  | .userDeactivated userId tenantId _ _ =>
      row.payload.eventType = "iam.user.deactivated" ∧ row.payload.tenantId = tenantId ∧
        ∃ x, users.Identified User.fixed userId (tenantId, x)
  | _ => True

theorem Addressed.mono {users users' : Table User} {row : Outbox Message}
    (h : Table.Identifies User.fixed users users') (hrow : Addressed users row) :
    Addressed users' row := by
  unfold Addressed at hrow ⊢
  split at hrow
  · obtain ⟨htype, htenant, x, hid⟩ := hrow
    exact ⟨htype, htenant, x, h _ _ hid⟩
  · trivial

structure Tenanted (s : Db) : Prop where
  users : s.users.Agrees User.fixed
  outbox : s.outbox.All fun _ row => Addressed s.users row

/-- What is known of a user's tenants and type stays known. -/
def tenancy : Growth Db where
  Inv := Tenanted
  Le s s' := Table.Identifies User.fixed s.users s'.users
  refl s := .refl s.users
  trans _ _ _ := .trans
  rollback t s h := by
    refine ⟨⟨h.users.rollback t, fun k row hrow => ?_⟩, Table.identifies_rollback⟩
    exact Addressed.mono Table.identifies_rollback (h.outbox.rollback t k row hrow)

section Steps

variable {s : Db}

theorem up_commit (hs : Tenanted s) (t : Sid) : tenancy.Up s (Transactional.commit t s) := by
  refine ⟨⟨hs.users.commit t, fun k row hrow => ?_⟩, Table.identifies_commit⟩
  exact Addressed.mono Table.identifies_commit (hs.outbox.commit t k row hrow)

/-- Statements on the other tables. -/
theorem up_other (hs : Tenanted s) {s' : Db} (husers : s'.users = s.users)
    (houtbox : s'.outbox = s.outbox) : tenancy.Up s s' := by
  refine ⟨⟨husers ▸ hs.users, ?_⟩, ?_⟩
  · rw [husers, houtbox]
    exact hs.outbox
  · show Table.Identifies _ s.users s'.users
    rw [husers]
    exact .refl _

theorem up_users (hs : Tenanted s) {users : Table User} (hagrees : users.Agrees User.fixed)
    (hle : Table.Identifies User.fixed s.users users) :
    tenancy.Up s { s with users := users } :=
  ⟨⟨hagrees, fun k row hrow => (hs.outbox k row hrow).mono hle⟩, hle⟩

theorem up_emit (hs : Tenanted s) {t : Sid} {row : Outbox Message}
    (hrow : Addressed s.users row) :
    tenancy.Up s { s with outbox := s.outbox.insert t row } :=
  ⟨⟨hs.users, hs.outbox.insert (t := t) hrow⟩, .refl _⟩

end Steps

/-! ## What a call establishes -/

/-- A token carries the effective tenant of its user and the role of its type. -/
def TokenTenant (token : Claims) (s : Db) : Prop :=
  ∃ tenantId assigned userType,
    s.users.Identified User.fixed token.sub (tenantId, assigned, userType) ∧
      token.tenantId = assigned.or tenantId ∧ lower userType.value ∈ token.roles

def Issues (reply : Reply) (s : Db) : Prop :=
  match reply with
  | .pair (some pair) => TokenTenant pair.accessToken s
  | _ => True

theorem issues_lasting (reply : Reply) : tenancy.Lasting (Issues reply) := by
  intro s s' hup h
  unfold Issues at h ⊢
  split at h
  · obtain ⟨tenantId, assigned, userType, hid, htoken⟩ := h
    exact ⟨tenantId, assigned, userType, hup.2 _ _ hid, htoken⟩
  · trivial

section Calls

variable {s : Db}

theorem takes_loadRoles (hs : Tenanted s) (userId : Uuid) :
    tenancy.Takes (fun _ _ => True) (loadRoles userId) s :=
  takes_bind (R := fun _ _ => True) hs (takes_query hs fun _ _ _ => trivial)
    fun _ _ _ _ => takes_ret trivial

theorem takes_emit (hs : Tenanted s) {routingKey : String} {tenantId : Option Uuid}
    {data : Message} (h : ∀ o, Addressed s.users (outboxRow routingKey tenantId data o)) :
    tenancy.Takes (fun _ _ => True)
      (emit Db.outboxT routingKey tenantId data : Prog Db Error Nat) s := by
  refine takes_insert fun t s' hs' => ⟨?_, fun _ _ => trivial⟩
  rw [hs']
  exact up_emit hs (h _)

/-- The session has loaded a user with its roles. -/
structure Known (s : Db) (userId : Uuid) (user : User) (roles : List String) : Prop where
  fixed : s.users.Identified User.fixed userId user.fixed
  role : lower user.userType.value ∈ roles

theorem Known.up {s' : Db} {userId : Uuid} {user : User} {roles : List String}
    (h : Known s userId user roles) (hup : tenancy.Up s s') : Known s' userId user roles :=
  ⟨hup.2 _ _ h.fixed, h.role⟩

theorem takes_getUserById (hs : Tenanted s) (userId : Uuid) :
    tenancy.Takes (fun found u => ∀ user roles, found = some (user, roles) →
      Known u userId user roles) (getUserById userId) s := by
  refine takes_bind (R := fun found u => ∀ user, found = some user →
    u.users.Identified User.fixed userId user.fixed) hs (takes_query hs ?_) ?_
  · intro t s' hup user hread
    exact hup.2 _ _ (hs.users.read hread)
  · intro found u hu hfound
    cases found with
    | none => exact takes_ret fun _ _ h => by cases h
    | some user =>
        refine takes_bind hu.1 (takes_loadRoles hu.1 userId) fun assignments v hv _ => ?_
        refine takes_ret fun user' roles heq => ?_
        cases heq
        exact ⟨hv.2 _ _ (hfound user rfl), List.mem_cons_self⟩

theorem takes_refreshRow {V : Type} {T : Access Db V} {k : Nat} (hs : Tenanted s) :
    tenancy.Takes (fun _ _ => True) (refreshRow T k) s := by
  refine takes_bind (R := fun _ _ => True) hs (takes_query hs fun _ _ _ => trivial) ?_
  intro found u _ _
  cases found with
  | none => exact takes_raise
  | some user => exact takes_ret trivial

/-- The end of a call: the commit and `db.refresh`. -/
theorem takes_commit_refresh {V : Type} {T : Access Db V} {k : Nat} {f : V → Reply}
    (hs : Tenanted s) (hf : ∀ v u, Issues (f v) u) :
    tenancy.Takes Issues (do
      commit
      let row ← refreshRow T k
      return f row) s := by
  refine takes_bind hs (takes_commit (up_commit hs)) fun _ u hu _ => ?_
  exact takes_bind hu.1 (takes_refreshRow hu.1) fun v w _ _ => takes_ret (hf v w)

theorem takes_addUser (hs : Tenanted s) (user : User) (constraint : String) :
    tenancy.Takes Issues (addUser user constraint) s := by
  refine takes_bind hs (takes_insertUnique hs fun t => ?_) fun id u hu _ => ?_
  · exact up_users hs (hs.users.insert t user) Table.identifies_insert
  cases id with
  | none => exact takes_raise
  | some id =>
      refine takes_bind hu.1 (takes_refreshRow hu.1) fun user v hv _ => ?_
      refine takes_bind hv.1 (takes_loadRoles hv.1 id) fun assignments w hw _ => ?_
      refine takes_bind hw.1 (takes_emit hw.1 fun _ => trivial) fun _ x hx _ => ?_
      exact takes_commit_refresh hx.1 fun _ _ => trivial

theorem takes_issuePair {security : Security} {userId : Uuid} {user : User}
    {roles : List String} {rotatedFrom : Option Uuid} {draw : Draw} {clock : Clock}
    (hs : Tenanted s) (huser : Known s userId user roles) :
    tenancy.Takes Issues (issuePair security userId user roles rotatedFrom draw clock) s := by
  refine takes_bind hs (takes_insertUnique hs fun t => up_other hs rfl rfl) fun id u hu _ => ?_
  cases id with
  | none => exact takes_raise
  | some id =>
      refine takes_bind hu.1 (takes_commit (up_commit hu.1)) fun _ v hv _ => ?_
      exact takes_ret ⟨_, _, _, hv.2 _ _ (hu.2 _ _ huser.fixed), rfl, huser.role⟩

theorem takes_revokeTokens (hs : Tenanted s) (userId : Uuid) (now : Time) :
    tenancy.Takes (fun _ _ => True) (revokeTokens userId now) s :=
  takes_updateAll hs fun _ _ _ _ hu _ => up_other hu.1 rfl rfl

/-- The flush of columns other than the tenants. -/
theorem takes_flushUser {userId : Uuid} {changed : Bool} {assign : User → User} {clock : Clock}
    (hs : Tenanted s) (hassign : ∀ user, (assign user).fixed = user.fixed) :
    tenancy.Takes (fun _ _ => True) (flushUser userId changed assign clock) s := by
  unfold flushUser
  split
  · refine takes_bind hs (takes_updateWhere hs fun t user hread => ?_) fun _ _ _ _ =>
      takes_ret trivial
    have hsame := hassign user
    exact up_users hs (hs.users.write hread hsame) (Table.identifies_write hread hsame)
  · exact takes_ret trivial

theorem takes_login {security : Security} {data : LoginRequest} {draw : Draw} {clock : Clock}
    (hs : Tenanted s) : tenancy.Takes Issues (login security data draw clock) s := by
  refine takes_bind (R := fun _ _ => True) hs ?_ fun found u hu _ => ?_
  · unfold loginTenant
    split
    · exact takes_ret trivial
    · refine takes_bind (R := fun _ _ => True) hs (takes_query hs fun _ _ _ => trivial) ?_
      intro rows u _ _
      split
      · exact takes_ret trivial
      · split
        · exact takes_raise
        · exact takes_ret trivial
  cases found with
  | none => exact takes_ret trivial
  | some tenantId =>
      refine takes_bind (R := fun found v => ∀ id user roles, found = some (id, user, roles) →
        Known v id user roles) hu.1 ?_ fun found v hv hfound => ?_
      · refine takes_bind (R := fun rows v => ∀ row ∈ rows,
          v.users.Identified User.fixed row.1 row.2.fixed) hu.1 (takes_query hu.1 ?_) ?_
        · intro t v hv row hrow
          exact hv.2 _ _ (hu.1.users.mem_scan (List.mem_filter.mp hrow).1)
        · intro rows v hv hrows
          split
          · exact takes_ret fun _ _ _ h => by cases h
          · rename_i id user hhead
            refine takes_bind hv.1 (takes_loadRoles hv.1 id) fun assignments w hw _ => ?_
            refine takes_ret fun id' user' roles heq => ?_
            cases heq
            exact ⟨hw.2 _ _ (hrows _ (List.mem_of_head? hhead)), List.mem_cons_self⟩
      · cases found with
        | none => exact takes_ret trivial
        | some row =>
            obtain ⟨id, user, roles⟩ := row
            show tenancy.Takes Issues (if _ then _ else if _ then _ else _) v
            split
            · exact takes_ret trivial
            · split
              · exact takes_raise
              · exact takes_issuePair hv.1 (hfound id user roles rfl)

theorem takes_refresh {security : Security} {rawToken : String} {draw : Draw} {clock : Clock}
    (hs : Tenanted s) : tenancy.Takes Issues (refresh security rawToken draw clock) s := by
  refine takes_bind (R := fun _ _ => True) hs (takes_query hs fun _ _ _ => trivial) ?_
  intro rows u hu _
  split
  · exact takes_ret trivial
  · rename_i id record hhead
    split
    · exact takes_ret trivial
    · split
      · -- reuse of a rotated token
        refine takes_bind hu.1 (takes_updateAll hu.1 fun _ _ _ _ hv _ => up_other hv.1 rfl rfl) ?_
        intro _ v hv _
        exact takes_bind hv.1 (takes_commit (up_commit hv.1)) fun _ _ _ _ => takes_ret trivial
      · refine takes_bind hu.1 (takes_getUserById hu.1 _) fun found v hv hfound => ?_
        cases found with
        | none => exact takes_ret trivial
        | some found =>
            obtain ⟨user, roles⟩ := found
            show tenancy.Takes Issues (if _ then _ else _) v
            split
            · exact takes_ret trivial
            · refine takes_bind hv.1 (takes_updateWhere hv.1 fun _ _ _ => up_other hv.1 rfl rfl) ?_
              intro _ w hw _
              exact takes_issuePair hw.1 ((hfound user roles rfl).up hw)

theorem takes_updateUserProfile {userId : Uuid} {data : ProfileUpdate} {clock : Clock}
    (hs : Tenanted s) : tenancy.Takes Issues (updateUserProfile userId data clock) s := by
  refine takes_bind hs (takes_getUserById hs _) fun found u hu _ => ?_
  cases found with
  | none => exact takes_ret trivial
  | some found =>
      refine takes_bind hu.1 (takes_flushUser hu.1 fun _ => rfl) fun _ v hv _ => ?_
      refine takes_bind hv.1 (takes_emit hv.1 fun _ => trivial) fun _ w hw _ => ?_
      exact takes_commit_refresh hw.1 fun _ _ => trivial

theorem takes_changeUserPassword {security : Security} {userId : Uuid} {data : PasswordChange}
    {salt : String} {clock : Clock} (hs : Tenanted s) :
    tenancy.Takes Issues (changeUserPassword security userId data salt clock) s := by
  refine takes_bind hs (takes_getUserById hs _) fun found u hu _ => ?_
  cases found with
  | none => exact takes_ret trivial
  | some found =>
      show tenancy.Takes Issues (if _ then _ else _) u
      split
      · exact takes_raise
      · refine takes_bind hu.1 (takes_revokeTokens hu.1 _ _) fun _ v hv _ => ?_
        refine takes_bind hv.1 (takes_flushUser hv.1 fun _ => rfl) fun _ w hw _ => ?_
        exact takes_bind hw.1 (takes_commit (up_commit hw.1)) fun _ _ _ _ => takes_ret trivial

theorem takes_adminResetUserPassword {security : Security} {userId : Uuid}
    {newPassword salt : String} {clock : Clock} (hs : Tenanted s) :
    tenancy.Takes Issues (adminResetUserPassword security userId newPassword salt clock) s := by
  refine takes_bind hs (takes_getUserById hs _) fun found u hu _ => ?_
  cases found with
  | none => exact takes_ret trivial
  | some found =>
      refine takes_bind hu.1 (takes_revokeTokens hu.1 _ _) fun _ v hv _ => ?_
      refine takes_bind hv.1 (takes_flushUser hv.1 fun _ => rfl) fun _ w hw _ => ?_
      exact takes_commit_refresh hw.1 fun _ _ => trivial

theorem takes_emitDeactivated {userId : Uuid} {user : User} {status : String} {now : Time}
    (hs : Tenanted s) (huser : s.users.Identified User.fixed userId user.fixed) :
    tenancy.Takes (fun _ _ => True) (emitDeactivated userId user status now) s := by
  unfold emitDeactivated
  split
  · refine takes_bind hs (takes_emit hs fun o => ?_) fun _ _ _ _ => takes_ret trivial
    exact ⟨rfl, rfl, _, huser⟩
  · exact takes_ret trivial

theorem takes_setUserStatus {userId : Uuid} {status : String} {clock : Clock}
    (hs : Tenanted s) : tenancy.Takes Issues (setUserStatus userId status clock) s := by
  refine takes_bind hs (takes_getUserById hs _) fun found u hu hfound => ?_
  cases found with
  | none => exact takes_ret trivial
  | some found =>
      obtain ⟨user, roles⟩ := found
      refine takes_bind (R := fun _ _ => True) hu.1 ?_ fun _ v hv _ => ?_
      · unfold shutOut
        split
        · exact takes_revokeTokens hu.1 _ _
        · exact takes_ret trivial
      refine takes_bind hv.1 (takes_flushUser hv.1 fun _ => rfl) fun _ w hw _ => ?_
      have huser := ((hfound user roles rfl).up hv).up hw
      refine takes_bind hw.1 (takes_emitDeactivated hw.1 huser.fixed) fun _ x hx _ => ?_
      refine takes_bind hx.1 (takes_emit hx.1 fun _ => trivial) fun _ y hy _ => ?_
      exact takes_commit_refresh hy.1 fun _ _ => trivial

theorem takes_setTenantStatus {tenantId : Uuid} {status : String} {clock : Clock}
    (hs : Tenanted s) : tenancy.Takes Issues (setTenantStatus tenantId status clock) s := by
  refine takes_bind (R := fun _ _ => True) hs (takes_query hs fun _ _ _ => trivial) ?_
  intro found u hu _
  cases found with
  | none => exact takes_ret trivial
  | some tenant =>
      refine takes_bind (R := fun _ _ => True) hu.1 ?_ fun _ v hv _ => ?_
      · unfold suspend
        split
        · refine takes_bind (R := fun _ _ => True) hu.1 (takes_query hu.1 fun _ _ _ => trivial) ?_
          intro found v hv _
          exact takes_updateEach hv.1 (fun _ _ _ _ hw _ => up_other hw.1 rfl rfl) _
        · exact takes_ret trivial
      refine takes_bind (R := fun _ _ => True) hv.1 ?_ fun _ w hw _ => ?_
      · unfold flushTenant
        split
        · exact takes_bind hv.1 (takes_updateWhere hv.1 fun _ _ _ => up_other hv.1 rfl rfl)
            fun _ _ _ _ => takes_ret trivial
        · exact takes_ret trivial
      refine takes_bind (R := fun _ _ => True) hw.1 ?_ fun _ x hx _ => ?_
      · unfold emitSuspended
        split
        · exact takes_bind hw.1 (takes_emit hw.1 fun _ => trivial) fun _ _ _ _ => takes_ret trivial
        · exact takes_ret trivial
      refine takes_bind hx.1 (takes_emit hx.1 fun _ => trivial) fun _ y hy _ => ?_
      exact takes_commit_refresh hy.1 fun _ _ => trivial

theorem takes_call (env : Env) (a : Call) (hs : Tenanted s) :
    tenancy.Takes Issues (a.body env) s := by
  cases a with
  | registerGlobalUser data salt clock =>
      show tenancy.Takes Issues (registerGlobalUser _ _ data salt clock) s
      unfold registerGlobalUser
      split
      · refine takes_bind (R := fun _ _ => True) hs ?_ fun _ u hu _ => takes_addUser hu.1 _ _
        unfold getNearestTenantId
        split
        · exact takes_bind (R := fun _ _ => True) hs (takes_query hs fun _ _ _ => trivial)
            fun _ _ _ _ => takes_ret trivial
        · exact takes_ret trivial
      · exact takes_raise
  | registerTenantUser tenantId data salt clock =>
      show tenancy.Takes Issues (registerTenantUser _ tenantId data salt clock) s
      unfold registerTenantUser
      split
      · exact takes_addUser hs _ _
      · exact takes_raise
  | login data draw clock => exact takes_login hs
  | refresh rawToken draw clock => exact takes_refresh hs
  | updateUserProfile userId data clock => exact takes_updateUserProfile hs
  | changeUserPassword userId data salt clock => exact takes_changeUserPassword hs
  | adminResetUserPassword userId newPassword salt clock =>
      exact takes_adminResetUserPassword hs
  | setUserStatus userId status clock => exact takes_setUserStatus hs
  | setTenantStatus tenantId status clock => exact takes_setTenantStatus hs

end Calls

/-! ## Runs -/

/-- The access tokens that the calls of a run have returned. -/
def Issued (c : Config Db Error Reply Call) (token : Claims) : Prop :=
  ∃ t a pair, (t, a, Except.ok (.pair (some pair))) ∈ c.log ∧ pair.accessToken = token

theorem run_sound {env : Env} {tenants : List Tenant} {users : List User}
    {roleAssignments : List RoleAssignment} {c : Config Db Error Reply Call}
    (h : Run (Call.body env) (Config.start (Db.initial tenants users roleAssignments)) c) :
    c.Sound (tenancy.discipline (fun _ => Issues) fun _ => issues_lasting)
      fun _ _ _ _ => True := by
  refine Run.sound (verified fun a s hs _ => takes_call env a hs) (Config.start_sound ?_ ?_) h
  · exact ⟨Table.agrees_ofList users, Table.empty_all⟩
  · exact fun _ => trivial

/-- A token carries the effective tenant of its user. -/
theorem token_tenant {env : Env} {tenants : List Tenant} {users : List User}
    {roleAssignments : List RoleAssignment} {c : Config Db Error Reply Call}
    (h : Run (Call.body env) (Config.start (Db.initial tenants users roleAssignments)) c)
    {token : Claims} (htoken : Issued c token) {user : User}
    (huser : c.store.users.committed token.sub = some user) :
    token.tenantId = user.effectiveTenantId := by
  obtain ⟨t, a, pair, hlog, rfl⟩ := htoken
  obtain ⟨tenantId, assigned, userType, hid, hclaim, -⟩ := (run_sound h).log _ hlog _ rfl
  have hfixed := hid.2 user (.inl huser)
  simp only [User.fixed, Prod.mk.injEq] at hfixed
  rw [hclaim, User.effectiveTenantId, hfixed.1, hfixed.2.1]

/-- A token carries the role of its user's type. -/
theorem token_role {env : Env} {tenants : List Tenant} {users : List User}
    {roleAssignments : List RoleAssignment} {c : Config Db Error Reply Call}
    (h : Run (Call.body env) (Config.start (Db.initial tenants users roleAssignments)) c)
    {token : Claims} (htoken : Issued c token) {user : User}
    (huser : c.store.users.committed token.sub = some user) :
    lower user.userType.value ∈ token.roles := by
  obtain ⟨t, a, pair, hlog, rfl⟩ := htoken
  obtain ⟨tenantId, assigned, userType, hid, -, hrole⟩ := (run_sound h).log _ hlog _ rfl
  have hfixed := hid.2 user (.inl huser)
  simp only [User.fixed, Prod.mk.injEq] at hfixed
  rw [hfixed.2.2]
  exact hrole

/-- The event of a deactivation is addressed by the user's own tenant. -/
theorem deactivated_tenant {env : Env} {tenants : List Tenant} {users : List User}
    {roleAssignments : List RoleAssignment} {c : Config Db Error Reply Call}
    (h : Run (Call.body env) (Config.start (Db.initial tenants users roleAssignments)) c)
    {o : Nat} {row : Outbox Message} (hrow : c.store.outbox.Has o row) {userId : Uuid}
    {tenantId : Option Uuid} {status : String} {occurredAt : Time}
    (hdata : row.payload.data = .userDeactivated userId tenantId status occurredAt) {user : User}
    (huser : c.store.users.committed userId = some user) :
    row.payload.eventType = "iam.user.deactivated" ∧ row.payload.tenantId = user.tenantId := by
  have haddressed : Addressed c.store.users row := (run_sound h).inv.outbox o row hrow
  unfold Addressed at haddressed
  rw [hdata] at haddressed
  obtain ⟨htype, htenant, x, hid⟩ := haddressed
  have hfixed := hid.2 user (.inl huser)
  exact ⟨htype, htenant.trans (congrArg Prod.fst hfixed).symm⟩

end Iam
end Rcp
