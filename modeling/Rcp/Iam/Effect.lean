/-
What the calls on users do when they run on their own.

Each of them changes at most one user and emits events about it.  The events of
`update_user_profile` are built before the flush, so they carry the `updated_at` of the
row before the change.  Those of `set_user_status` carry the application clock.
-/
import Rcp.Iam.Commit

namespace Rcp
namespace Iam

open Sql Sql.Table

/-- The calls that register a user and change what other services keep of it. -/
inductive UserCall
  | registerGlobalUser (data : GlobalUserRegister) (salt : String) (clock : Clock)
  | registerTenantUser (tenantId : Uuid) (data : TenantUserRegister) (salt : String)
      (clock : Clock)
  | updateUserProfile (userId : Uuid) (data : ProfileUpdate) (clock : Clock)
  | setUserStatus (userId : Uuid) (status : String) (clock : Clock)

namespace UserCall

def call : UserCall → Call
  | registerGlobalUser data salt clock => .registerGlobalUser data salt clock
  | registerTenantUser tenantId data salt clock => .registerTenantUser tenantId data salt clock
  | updateUserProfile userId data clock => .updateUserProfile userId data clock
  | setUserStatus userId status clock => .setUserStatus userId status clock

def body (env : Env) (a : UserCall) : Prog Db Error Reply := a.call.body env

def clock : UserCall → Clock
  | registerGlobalUser _ _ clock => clock
  | registerTenantUser _ _ _ clock => clock
  | updateUserProfile _ _ clock => clock
  | setUserStatus _ _ clock => clock

/-- The user that a call names. -/
def user? : UserCall → Option Uuid
  | registerGlobalUser .. | registerTenantUser .. => none
  | updateUserProfile userId .. => some userId
  | setUserStatus userId .. => some userId

end UserCall

/-- The calls are made one after the other. -/
def InTurn (l : List UserCall) : Prop :=
  l.Pairwise fun a b => a.clock.later ≤ b.clock.transaction

instance (l : List UserCall) : Decidable (InTurn l) := inferInstanceAs (Decidable (l.Pairwise _))

/-- The assignments of user `k` among all. -/
def assigned (k : Uuid) (assignments : List RoleAssignment) : List RoleAssignment :=
  assignments.filter fun assignment => assignment.userId == k

def registration (k o : Nat) (user : User) (assignments : List RoleAssignment) : Outbox Message :=
  outboxRow "iam.user.registered" user.tenantId
    (userRegisteredPayload k user (user.roles (assigned k assignments))) o

def profileUpdate (k o : Nat) (user changed : User) (assignments : List RoleAssignment) :
    Outbox Message :=
  outboxRow "iam.user.updated" user.tenantId
    (userRegisteredPayload k changed (user.roles (assigned k assignments))) o

def statusUpdate (k o : Nat) (user : User) (status : String) (assignments : List RoleAssignment)
    (now : Time) : Outbox Message :=
  outboxRow "iam.user.updated" user.tenantId
    (statusPayload k (setStatus status user) (user.roles (assigned k assignments)) now) o

def deactivation (k o : Nat) (user : User) (status : String) (now : Time) : Outbox Message :=
  outboxRow "iam.user.deactivated" user.tenantId (.userDeactivated k user.tenantId status now) o

/-- The row after a flush. -/
def flushed (changed : Bool) (assign : User → User) (clock : Clock) (user : User) : User :=
  if changed then { assign user with updatedAt := clock.transaction } else user

/-- Call `a` leaves user `k` as `user` and emits the events `l`. -/
inductive UserChange (assignments : List RoleAssignment) :
    UserCall → Option User → Nat → User → List (Outbox Message) → Prop
  | registered {a : UserCall} {k o : Nat} {user : User} (hname : a.user? = none)
      (hactive : user.status = "active") (hnow : user.updatedAt = a.clock.transaction) :
      UserChange assignments a none k user [registration k o user assignments]
  | profiled {k o : Nat} {data : ProfileUpdate} {clock : Clock} {user : User} :
      UserChange assignments (.updateUserProfile k data clock) (some user) k
        (flushed (data.changes user) data.apply clock user)
        [profileUpdate k o user (data.apply user) assignments]
  | shutOut {k o o' : Nat} {status : String} {clock : Clock} {user : User}
      (hdeactivates : deactivates status = true) :
      UserChange assignments (.setUserStatus k status clock) (some user) k
        (flushed (user.status ≠ status) (setStatus status) clock user)
        [deactivation k o user status clock.now,
          statusUpdate k o' user status assignments clock.later]
  | statusSet {k o : Nat} {status : String} {clock : Clock} {user : User}
      (hdeactivates : deactivates status = false) :
      UserChange assignments (.setUserStatus k status clock) (some user) k
        (flushed (user.status ≠ status) (setStatus status) clock user)
        [statusUpdate k o user status assignments clock.later]

/-- A call on its own changes one user, or nothing. -/
inductive UserResult (a : UserCall) (w : Rows) : Rows → Prop
  | unchanged (hname : ∀ k, a.user? = some k → w.users k = none) : UserResult a w w
  | changed {W : Rows} {assignments : List RoleAssignment} {k : Nat} {user : User}
      {l : List (Outbox Message)} (hassignments : Listed w.roleAssignments assignments)
      (hchange : UserChange assignments a (w.users k) k user l)
      (hk : ∀ j, (W.users j).or (w.users j) = Function.update w.users k (some user) j)
      (hroles : W.roleAssignments = noRows) (hO : Appended w.outbox l W.outbox)
      (hids : Numbered W.outbox) : UserResult a w (W.overlay w)

/-- The end of call `a`, made on its own over the rows `w`. -/
def UserEnded (t : Sid) (a : UserCall) (w : Rows) (_ : Except Error Reply) (s : Db) : Prop :=
  ∃ W w', Solo schema t W w' s ∧ UserResult a w w'

section Solo

variable {t : Sid} {a : UserCall} {w W : Rows} {s : Db} {γ : Type}
  {Q : Except Error γ → Db → Prop}

theorem UserEnded.unchanged {r : Except Error Reply} (h : Solo schema t W w s)
    (hname : ∀ k, a.user? = some k → w.users k = none) : UserEnded t a w r s :=
  ⟨W, w, h, .unchanged hname⟩

theorem solo_loadRoles {k : Nat} {g : List RoleAssignment → Prog Db Error γ}
    (h : Solo schema t W w s) (hW : W.roleAssignments = noRows)
    (hg : ∀ assignments, Listed w.roleAssignments assignments →
      Meets t Q (g (assigned k assignments)) s) : Meets t Q (loadRoles k >>= g) s := by
  refine meets_bind (h.query ?_)
  have hlisted := h.scan_listed Column.roleAssignments hW
  have hgoal := hg _ hlisted
  unfold assigned at hgoal
  rw [List.filter_map] at hgoal
  exact meets_ret hgoal

theorem solo_getUserById {k : Nat} {g : Option (User × List String) → Prog Db Error γ}
    (h : Solo schema t .nothing w s) (hnone : w.users k = none → Meets t Q (g none) s)
    (hsome : ∀ user assignments, w.users k = some user → Listed w.roleAssignments assignments →
      Meets t Q (g (some (user, user.roles (assigned k assignments)))) s) :
    Meets t Q (getUserById k >>= g) s := by
  refine meets_bind ?_
  refine h.selectKey Column.users ?_
  have hget : Column.users.get (schema.overlay .nothing w) k = w.users k := rfl
  rw [hget]
  cases hk : w.users k with
  | none => exact meets_ret (hnone hk)
  | some user =>
      refine solo_loadRoles h rfl fun assignments hlisted => ?_
      exact meets_ret (hsome user assignments hk hlisted)

/-- After the commit only the refreshed row is read. -/
theorem solo_commit_user {k : Nat} {f : User → Reply} (h : Solo schema t W w s)
    (hresult : UserResult a w (W.overlay w)) :
    Meets t (UserEnded t a w)
      (Sql.commit >>= fun _ => refreshRow Db.usersT k >>= fun user => pure (f user)) s := by
  refine h.commit fun s' hs' => ?_
  have hended : ∀ r, UserEnded t a w r s' := fun r => ⟨_, _, hs', hresult⟩
  refine meets_bind ?_
  refine hs'.query ?_
  split
  · exact meets_raise (hended _)
  · exact meets_ret (meets_ret (hended _))

theorem solo_addUser {user : User} {constraint : String} (hname : a.user? = none)
    (hactive : user.status = "active") (hnow : user.updatedAt = a.clock.transaction)
    (h : Solo schema t .nothing w s) : Meets t (UserEnded t a w) (addUser user constraint) s := by
  unfold addUser
  refine h.insertUnique Column.users (.free fun _ => trivial) (fun _ => ?_) fun k hk _ s₁ h₁ => ?_
  · refine meets_raise (.unchanged h fun j hj => ?_)
    rw [hname] at hj
    cases hj
  · refine meets_bind ?_
    refine h₁.selectKey Column.users ?_
    have hread : Column.users.get (schema.overlay (Column.users.put
        (Function.update (Column.users.get Rows.nothing) k (some user)) Rows.nothing) w) k =
        some user := by
      show (single k user k).or (w.users k) = _
      rw [single_self]
      rfl
    rw [hread]
    refine meets_ret (solo_loadRoles h₁ rfl fun assignments hlisted => ?_)
    refine h₁.insert Column.outbox (.free fun _ => trivial) fun o ho _ s₂ h₂ => ?_
    have hfresh : w.users k = none := hk.fresh
    have hchange : UserChange assignments a (w.users k) k user
        [registration k o user assignments] := by
      rw [hfresh]
      exact .registered hname hactive hnow
    refine solo_commit_user h₂ (.changed hlisted hchange (fun j => ?_) rfl (.single ho) (.single rfl))
    show (single k user j).or (w.users j) = _
    by_cases hj : j = k
    · subst hj
      rw [single_self, Function.update_self]
      rfl
    · rw [single_of_ne _ hj, Function.update_of_ne hj]
      rfl

/-- The flush of a user leaves the other tables. -/
theorem solo_flushUser {k : Nat} {user : User} {changed : Bool} {assign : User → User}
    {clock : Clock} {g : Unit → Prog Db Error γ} (h : Solo schema t W w s)
    (hk : w.users k = some user) (hW : W.users = noRows)
    (hg : ∀ W' s', Solo schema t W' w s' →
      (∀ j, (W'.users j).or (w.users j) =
        Function.update w.users k (some (flushed changed assign clock user)) j) →
      W'.roleAssignments = W.roleAssignments → W'.outbox = W.outbox → Meets t Q (g ()) s') :
    Meets t Q (flushUser k changed assign clock >>= g) s := by
  refine meets_bind ?_
  unfold flushUser
  cases changed with
  | false =>
      refine meets_ret (hg W s h (fun j => ?_) rfl rfl)
      have hself : Function.update w.users k (some (flushed false assign clock user)) = w.users :=
        Function.update_eq_self_iff.mpr hk.symm
      rw [hself, hW]
      rfl
  | true =>
      refine h.update Column.users (.free fun _ => trivial) (fun hno => ?_) fun v hv _ s₁ h₁ => ?_
      · have hread : Column.users.get (schema.overlay W w) k = some user := by
          show (W.users k).or (w.users k) = _
          rw [hW, hk]
          rfl
        have := hno user hread
        cases this
      · have hv' : (W.users k).or (w.users k) = some v := hv
        rw [hW, hk] at hv'
        cases hv'
        refine meets_ret (hg _ s₁ h₁ (fun j => ?_) rfl rfl)
        show (Function.update W.users k _ j).or (w.users j) = _
        rw [hW]
        by_cases hj : j = k
        · subst hj
          rw [Function.update_self, Function.update_self]
          rfl
        · rw [Function.update_of_ne hj, Function.update_of_ne hj]
          rfl

/-- Revoking tokens writes no user, no role and no event. -/
theorem solo_shutOut {k : Nat} {status : String} {now : Time} {g : Unit → Prog Db Error γ}
    (h : Solo schema t .nothing w s)
    (hg : ∀ W' s', Solo schema t W' w s' → W'.users = noRows → W'.roleAssignments = noRows →
      W'.outbox = noRows → Meets t Q (g ()) s') :
    Meets t Q (shutOut k status now >>= g) s := by
  refine meets_bind ?_
  unfold shutOut
  split
  · unfold revokeTokens updateAll
    refine h.query ?_
    refine h.updateEach Column.tokens (Column.tokens_revoke now)
      (A := fun W => W.users = noRows ∧ W.roleAssignments = noRows ∧ W.outbox = noRows)
      ⟨rfl, rfl, rfl⟩ (fun _ _ _ hW => hW) fun W' s' hW hs' => ?_
    exact hg W' s' hs' hW.1 hW.2.1 hW.2.2
  · exact meets_ret (hg _ s h rfl rfl rfl)

theorem solo_updateUserProfile (k : Uuid) (data : ProfileUpdate) (clock : Clock)
    (h : Solo schema t .nothing w s) :
    Meets t (UserEnded t (.updateUserProfile k data clock) w)
      (updateUserProfile k data clock) s := by
  unfold updateUserProfile
  refine solo_getUserById h (fun hnone => ?_) fun user assignments hk hlisted => ?_
  · refine meets_ret (.unchanged h fun j hj => ?_)
    cases hj
    exact hnone
  · refine solo_flushUser h hk rfl fun W s₁ h₁ husers hroles hout => ?_
    have hO : Appended w.outbox [] W.outbox := hout ▸ .nil
    have hids : Numbered W.outbox := hout ▸ .nothing
    refine h₁.insert Column.outbox (.free fun _ => trivial) fun o ho ho' s₂ h₂ => ?_
    have hchange : UserChange assignments (.updateUserProfile k data clock) (w.users k) k
        (flushed (data.changes user) data.apply clock user)
        [profileUpdate k o user (data.apply user) assignments] := by
      rw [hk]
      exact .profiled
    exact solo_commit_user h₂
      (.changed hlisted hchange husers hroles (hO.snoc ho ho') (hids.update rfl))

theorem solo_setUserStatus (k : Uuid) (status : String) (clock : Clock)
    (h : Solo schema t .nothing w s) :
    Meets t (UserEnded t (.setUserStatus k status clock) w) (setUserStatus k status clock) s := by
  unfold setUserStatus
  refine solo_getUserById h (fun hnone => ?_) fun user assignments hk hlisted => ?_
  · refine meets_ret (.unchanged h fun j hj => ?_)
    cases hj
    exact hnone
  refine solo_shutOut h fun W₁ s₁ h₁ husers₁ hroles₁ hout₁ => ?_
  refine solo_flushUser h₁ hk husers₁ fun W s₂ h₂ husers hroles hout => ?_
  have hroles' : W.roleAssignments = noRows := hroles.trans hroles₁
  have hO : Appended w.outbox [] W.outbox := by
    rw [hout, hout₁]
    exact .nil
  have hids : Numbered W.outbox := by
    rw [hout, hout₁]
    exact .nothing
  refine meets_bind ?_
  unfold emitDeactivated
  by_cases hdeactivates : deactivates status = true
  · rw [if_pos hdeactivates]
    refine h₂.insert Column.outbox (.free fun _ => trivial) fun o ho ho' s₃ h₃ => meets_ret ?_
    refine h₃.insert Column.outbox (.free fun _ => trivial) fun o₁ ho₁ ho₁' s₄ h₄ => ?_
    have hchange : UserChange assignments (.setUserStatus k status clock) (w.users k) k
        (flushed (user.status ≠ status) (setStatus status) clock user)
        [deactivation k o user status clock.now,
          statusUpdate k o₁ user status assignments clock.later] := by
      rw [hk]
      exact .shutOut hdeactivates
    have hids' : Numbered (Function.update W.outbox o
        (some (deactivation k o user status clock.now))) := hids.update rfl
    exact solo_commit_user h₄ (.changed hlisted hchange husers hroles'
      ((hO.snoc ho ho').snoc ho₁ ho₁') (hids'.update rfl))
  · rw [if_neg hdeactivates]
    refine meets_ret (h₂.insert Column.outbox (.free fun _ => trivial) fun o ho ho' s₃ h₃ => ?_)
    have hchange : UserChange assignments (.setUserStatus k status clock) (w.users k) k
        (flushed (user.status ≠ status) (setStatus status) clock user)
        [statusUpdate k o user status assignments clock.later] := by
      rw [hk]
      exact .statusSet (by simpa using hdeactivates)
    exact solo_commit_user h₃
      (.changed hlisted hchange husers hroles' (hO.snoc ho ho') (hids.update rfl))

theorem solo_registerGlobalUser {security : Security}
    {nearest : List (Uuid × Tenant) → PyFloat → PyFloat → Option Uuid}
    (data : GlobalUserRegister) (salt : String) (clock : Clock)
    (h : Solo schema t .nothing w s) :
    Meets t (UserEnded t (.registerGlobalUser data salt clock) w)
      (registerGlobalUser security nearest data salt clock) s := by
  unfold registerGlobalUser
  split
  · refine meets_bind ?_
    unfold getNearestTenantId
    split
    · exact h.query (meets_ret (solo_addUser rfl rfl rfl h))
    · exact meets_ret (solo_addUser rfl rfl rfl h)
  · exact meets_raise (.unchanged h fun _ hk => by cases hk)

theorem solo_registerTenantUser {security : Security} (tenantId : Uuid)
    (data : TenantUserRegister) (salt : String) (clock : Clock)
    (h : Solo schema t .nothing w s) :
    Meets t (UserEnded t (.registerTenantUser tenantId data salt clock) w)
      (registerTenantUser security tenantId data salt clock) s := by
  unfold registerTenantUser
  split
  · exact solo_addUser rfl rfl rfl h
  · exact meets_raise (.unchanged h fun _ hk => by cases hk)

end Solo

theorem user_leads (env : Env) : Leads schema (UserCall.body env) UserResult := by
  intro a t w s hs
  have h := hs.solo t
  cases a with
  | registerGlobalUser data salt clock => exact solo_registerGlobalUser data salt clock h
  | registerTenantUser tenantId data salt clock =>
      exact solo_registerTenantUser tenantId data salt clock h
  | updateUserProfile k data clock => exact solo_updateUserProfile k data clock h
  | setUserStatus k status clock => exact solo_setUserStatus k status clock h

/-- The events of a call stand after those of the calls before it. -/
theorem UserResult.events {a : UserCall} {w w' : Rows} {s s' : Db} (hs : Rested schema w s)
    (hs' : Rested schema w' s') (h : UserResult a w w') :
    s'.roleAssignments.values = s.roleAssignments.values ∧
      ((s'.users.committed = s.users.committed ∧ s'.outbox.values = s.outbox.values ∧
          ∀ k, a.user? = some k → s.users.committed k = none) ∨
        ∃ k user l, UserChange s.roleAssignments.values a (s.users.committed k) k user l ∧
          s'.users.committed = Function.update s.users.committed k (some user) ∧
          s'.outbox.values = s.outbox.values ++ l) := by
  have husers : s.users.committed = w.users := congrArg Rows.users hs.rows
  have husers' : s'.users.committed = w'.users := congrArg Rows.users hs'.rows
  cases h with
  | unchanged hname =>
      refine ⟨hs.values_eq Column.roleAssignments hs', .inl ⟨?_, ?_, ?_⟩⟩
      · rw [husers, husers']
      · exact hs.values_eq Column.outbox hs'
      · rw [husers]
        exact hname
  | @changed W assignments k user l hassignments hchange hk hroles hO hids =>
      have hlisted : Listed w.roleAssignments s.roleAssignments.values := by
        have hrows : s.roleAssignments.committed = w.roleAssignments :=
          congrArg Rows.roleAssignments hs.rows
        rw [← hrows]
        exact (hs.bounded .roleAssignments).1.listed
      rw [hassignments.unique hlisted] at hchange
      have hnil : Appended w.roleAssignments [] W.roleAssignments := hroles ▸ .nil
      refine ⟨?_, .inr ⟨k, user, l, ?_, ?_, ?_⟩⟩
      · exact (hs.values_append Column.roleAssignments hs' rfl hnil).trans (List.append_nil _)
      · rw [husers]
        exact hchange
      · rw [husers, husers']
        funext j
        exact hk j
      · exact hs.values_append Column.outbox hs' rfl hO

theorem UserResult.numbered {a : UserCall} {w w' : Rows} (h : UserResult a w w')
    (hw : Numbered w.outbox) : Numbered w'.outbox := by
  cases h with
  | unchanged hname => exact hw
  | changed hassignments hchange hk hroles hO hids => exact hids.overlay hw

end Iam
end Rcp
