/-
Operators cannot lock the platform out, unless they do it to each other at the same time.

The route looks only at the caller's own account.  Whoever disables an operator is an operator
and stays one, so one is left as long as the caller is still one when the change commits.
The route does not look at that: the token outlives the account.
-/
import Rcp.Iam.Contracts

namespace Rcp
namespace Iam
namespace Lockout

open Sql Sql.Table Sql.Growth

/-- User `k` is an active operator. -/
def isOperator (s : Db) (k : Uuid) : Bool :=
  (s.users.committed k).any fun user => decide (user.userType = .superAdmin) && user.isActive

/-- What the session has written over a row keeps the type, and the status unless it is the one
that the session sets. -/
def Retains (sets? : Option (Uuid × String)) (t : Sid) (T : Table User) : Prop :=
  ∀ k user', T.writes t k = some user' → ∀ user, T.committed k = some user →
    user'.userType = user.userType ∧
      (user'.status = user.status ∨ sets? = some (k, user'.status))

/-- The rows stay, with their type, and with their status unless it is set. -/
def Keeps (sets? : Option (Uuid × String)) (T T' : Table User) : Prop :=
  ∀ k user, T.committed k = some user → ∃ user', T'.committed k = some user' ∧
    user'.userType = user.userType ∧
      (user'.status = user.status ∨ sets? = some (k, user'.status))

section Rows

variable {sets? : Option (Uuid × String)} {t : Sid} {T : Table User}

theorem keeps_of_eq {T' : Table User} (h : T'.committed = T.committed) : Keeps sets? T T' := by
  intro k user hk
  exact ⟨user, by rw [h, hk], rfl, .inl rfl⟩

theorem Retains.of_idle (h : T.writes t = noRows) : Retains sets? t T := by
  intro k user' hk
  rw [h] at hk
  cases hk

theorem Retains.rewrite (h : Retains sets? t T) {k : Nat} {user changed : User}
    (hread : T.read t k = some user) (htype : changed.userType = user.userType)
    (hstatus : changed.status = user.status ∨ sets? = some (k, changed.status)) :
    Retains sets? t (T.write t k changed) := by
  intro j user' hj old hold
  rw [write_writes] at hj
  by_cases hjk : j = k
  · subst hjk
    rw [Function.update_self] at hj
    cases hj
    have hold' : T.committed j = some old := hold
    cases hw : T.writes t j with
    | none =>
        rw [read_of_not_written hw, hold'] at hread
        cases hread
        exact ⟨htype, hstatus⟩
    | some v =>
        rw [read_of_writes hw] at hread
        cases hread
        obtain ⟨hsame, hset⟩ := h j user hw old hold'
        refine ⟨htype.trans hsame, ?_⟩
        rcases hstatus with heq | hset'
        · rw [heq]
          exact hset
        · exact .inr hset'
  · rw [Function.update_of_ne hjk] at hj
    exact h j user' hj old hold

theorem Retains.enrol (h : Retains sets? t T) (hb : T.Bounded) (user : User) :
    Retains sets? t (T.insert t user) := by
  intro j user' hj old hold
  rw [insert_writes] at hj
  by_cases hjn : j = T.next
  · subst hjn
    rw [insert_committed, (hb _ (Nat.le_refl _)).1] at hold
    cases hold
  · rw [Function.update_of_ne hjn] at hj
    exact h j user' hj old hold

theorem Retains.commit (h : Retains sets? t T) : Keeps sets? T (T.commit t) := by
  intro k user hk
  rw [commit_committed]
  cases hw : T.writes t k with
  | none => exact ⟨user, by rw [read_of_not_written hw, hk], rfl, .inl rfl⟩
  | some user' =>
      obtain ⟨htype, hstatus⟩ := h k user' hw user hk
      exact ⟨user', read_of_writes hw, htype, hstatus⟩

theorem Retains.frame {o : Sid} {T' : Table User} (h : Retains sets? t T) (ho : o ≠ t)
    (hframe : Table.Frame o T T') : Retains sets? t T' := by
  intro k user' hk user huser
  rw [hframe.writes_eq ho.symm] at hk
  rw [hframe.committed_eq ho.symm hk] at huser
  exact h k user' hk user huser

end Rows

/-! ## Sessions -/

/-- A step leaves what the other sessions have written, and sets the status of its action. -/
def setting : Discipline Db Error Unit Action where
  Inv s := s.users.Bounded
  Guar a t s s' := Table.Frame t s.users s'.users ∧ Keeps a.sets? s.users s'.users
  Idle t s := s.users.writes t = noRows
  Done _ _ _ _ := True
  guar_refl _ t _ _ := ⟨.refl t _, keeps_of_eq rfl⟩
  idle_keep _ _ _ _ _ ho _ hg hidle := (hg.1.writes_eq ho).trans hidle
  done_keep _ _ _ _ _ _ _ _ _ _ _ := trivial
  rollback_inv t _ h := h.rollback t
  rollback_guar _ t _ _ := ⟨rollback_frame t _, keeps_of_eq rfl⟩
  rollback_idle t _ := rollback_writes _ t

theorem retains_stable (sets? : Option (Uuid × String)) (t : Sid) :
    setting.Stable t fun s => Retains sets? t s.users :=
  fun _ _ _ _ ho _ hg _ h => h.frame ho hg.1

theorem does_guaranteed {a : Action} {t : Sid} {s s' : Db} (hb : s.users.Bounded)
    (hs : Retains a.sets? t s.users) (h : Does a.sets? t s s') :
    s'.users.Bounded ∧ setting.Guar a t s s' ∧ Retains a.sets? t s'.users := by
  show s'.users.Bounded ∧ (Table.Frame t s.users s'.users ∧
    Keeps a.sets? s.users s'.users) ∧ Retains a.sets? t s'.users
  cases h with
  | stay | tenants | tokens | emit => exact ⟨hb, ⟨.refl t _, keeps_of_eq rfl⟩, hs⟩
  | enrol user =>
      exact ⟨hb.insert t user, ⟨insert_frame hb user, keeps_of_eq rfl⟩, hs.enrol hb user⟩
  | rewrite k user changed hread hfree htype hstatus =>
      exact ⟨hb.write _ (hb.lt_of_read hread), ⟨write_frame _ hfree, keeps_of_eq rfl⟩,
        hs.rewrite hread htype hstatus⟩
  | commit => exact ⟨hb.commit t, ⟨commit_frame t _, hs.commit⟩, .of_idle (commit_writes _ t)⟩

theorem setting_verified (env : Env) {adm : Action → Db → Db → Db → Prop} :
    setting.Verified adm (Action.body env) := by
  intro a t s hs hidle
  exact safe_only (retains_stable a.sets? t) (fun _ _ hi hs hstep => does_guaranteed hi hs hstep)
    (Does.only_body env a) hs (.of_idle hidle)

/-! ## Runs -/

/-- If the step takes an operator away, then the route does, and its caller is still one. -/
def Standing (a : Action) (_ s s' : Db) : Prop :=
  (∀ k < s.users.next, isOperator s k → isOperator s' k) ∨
    match a with
    | .updateUserStatus principal .. => isOperator s principal.userId
    | .call _ | .createSuperAdmin .. | .bootstrapSuperadmin .. => False

/-- The caller of the route cannot disable the own account. -/
theorem caller_remains {principal : Principal} {userId : Uuid} {data : UserStatusUpdate}
    {clock : Clock} {s s' : Db}
    (hkeeps : Keeps (Action.sets? (.updateUserStatus principal userId data clock)) s.users s'.users)
    (hcaller : isOperator s principal.userId = true) :
    isOperator s' principal.userId = true := by
  unfold isOperator at hcaller
  obtain ⟨user, huser, hoperator⟩ := (Option.any_eq_true _ _).mp hcaller
  rw [Bool.and_eq_true, decide_eq_true_eq] at hoperator
  obtain ⟨user', huser', htype, hstatus⟩ := hkeeps _ _ huser
  have hactive : user'.status = "active" := by
    rcases hstatus with heq | hset
    · rw [heq]
      exact eq_of_beq hoperator.2
    · simp only [Action.sets?] at hset
      split at hset
      · cases hset
      · rename_i hself
        obtain ⟨hid, hstatus⟩ := Prod.mk.inj (Option.some.inj hset)
        rcases data.pattern with hactive | hdisabled
        · rw [← hstatus]
          exact hactive
        · exact absurd ⟨hid, hdisabled⟩ hself
  unfold isOperator
  rw [huser', Option.any_some, htype, hoperator.1]
  simp [User.isActive, hactive]

/-- Once there is an active operator there is one at the end of every run in which operators
are only taken away by operators. -/
theorem operator_remains (env : Env) (tenants : List Tenant) (users : List User)
    (roleAssignments : List RoleAssignment) {c c' : Config Db Error Unit Action}
    (h : RunWith (Action.body env) Standing
      (Config.start (Db.initial tenants users roleAssignments)) c)
    (h' : RunWith (Action.body env) Standing c c')
    (hoperator : ∃ k, isOperator c.store k = true) : ∃ k, isOperator c'.store k = true := by
  have hstart : setting.Inv (Db.initial tenants users roleAssignments) :=
    ofList_bounded users
  have hsound := RunWith.sound (setting_verified env)
    (Config.start_sound hstart fun _ => (rfl : (ofList users).writes _ = noRows)) h
  refine RunWith.keeps (P := fun s => ∃ k, isOperator s k = true) (setting_verified env) ?_ hsound
    h' hoperator
  rintro a t s₀ s s' hs - hg hstanding ⟨k, hk⟩
  rcases hstanding with hnone | hcaller
  · obtain ⟨user, huser, -⟩ := (Option.any_eq_true _ _).mp hk
    have hlt : k < s.users.next := by
      by_contra hge
      rw [(hs k (Nat.not_lt.mp hge)).1] at huser
      cases huser
    exact ⟨k, hnone k hlt hk⟩
  · cases a with
    | updateUserStatus principal userId data clock => exact ⟨_, caller_remains hg.2 hcaller⟩
    | call | createSuperAdmin | bootstrapSuperadmin => exact hcaller.elim

instance (a : Action) (s₀ s s' : Db) : Decidable (Standing a s₀ s s') := by
  unfold Standing
  have : Decidable (match a with
      | .updateUserStatus principal .. => isOperator s principal.userId
      | .call _ | .createSuperAdmin .. | .bootstrapSuperadmin .. => False : Prop) := by
    split <;> infer_instance
  infer_instance

/-- The script creates an operator, who creates another one. -/
def twoOperators : List (Move Action) :=
  [[.begin (.bootstrapSuperadmin (fun _ => true) "first@example.org" "long enough" "First"
      "salt" (tick 0))], List.replicate 4 (.next 0),
    [.close 0, .begin (.createSuperAdmin (Contract.console 0) Contract.ops "salt" (tick 10))],
    List.replicate 7 (.next 1), [.close 1]].flatten

def disabled : UserStatusUpdate := { status := "disabled", pattern := .inr rfl }

/-- One operator disables the other. -/
def disabling : List (Move Action) :=
  [[.begin (.updateUserStatus (Contract.console 0) 1 disabled (tick 20))],
    List.replicate 8 (.next 2), [.close 2]].flatten

theorem operator_remains_first : ∃ c c' : Config Db Error Unit Action,
    isOperator c.store 0 = true ∧ isOperator c.store 1 = true ∧ isOperator c'.store 1 = false ∧
    ∃ k, isOperator c'.store k = true := by
  have hplay : (((Config.start (Db.initial [] [] [])).playWith (Action.body plain) Standing
      twoOperators).bind fun c => (c.playWith (Action.body plain) Standing disabling).map fun c' =>
        (c, c')).map (fun q => (isOperator q.1.store 0, isOperator q.1.store 1,
          isOperator q.2.store 1)) = some (true, true, false) := by
    decide +kernel
  obtain ⟨⟨c, c'⟩, hplay, hfacts⟩ := Option.map_eq_some_iff.mp hplay
  obtain ⟨c₁, hc, hc'⟩ := Option.bind_eq_some_iff.mp hplay
  obtain ⟨c₂, hc₂, heq⟩ := Option.map_eq_some_iff.mp hc'
  cases heq
  simp only [Prod.mk.injEq] at hfacts
  obtain ⟨hfirst, hsecond, hgone⟩ := hfacts
  exact ⟨c, c', hfirst, hsecond, hgone, operator_remains plain [] [] [] (Config.playWith_run hc)
    (Config.playWith_run hc₂) ⟨0, hfirst⟩⟩

/-- Two operators disable each other at the same time.  Neither call sees the other. -/
def duel : List (Move Action) :=
  [twoOperators, [.begin (.updateUserStatus (Contract.console 0) 1 disabled (tick 20)),
      .begin (.updateUserStatus (Contract.console 1) 0 disabled (tick 20))],
    List.replicate 7 (.next 2), List.replicate 7 (.next 3)].flatten

example : ((Config.start (Db.initial [] [] [])).play (Action.body plain) duel).map
    (fun c => (isOperator c.store 0, isOperator c.store 1, c.store.users.next)) =
    some (false, false, 2) := by
  decide +kernel

end Lockout
end Iam
end Rcp
