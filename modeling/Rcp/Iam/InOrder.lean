/-
The replicas of a user in the logistics service and the profile of a volunteer, when
all events are delivered once and in the order they were emitted.
-/
import Rcp.Iam.Follow

namespace Rcp
namespace Iam

open Sql Sql.Table

/-- The logistics service shows user `k` after all events. -/
def ReplicaFollows (s : Db) (k : Uuid) (user : User) : Prop :=
  ∃ replica, (s.events.foldl Logistics.deliverIam Logistics.noReplicas).rows k = some replica ∧
    replica.fullName = user.fullName ∧ replica.phone = user.phone ∧
    replica.roles = user.roles (assigned k s.roleAssignments.values) ∧
    replica.isActive = user.isActive

/-- The volunteer service shows user `k` after all events. -/
def ProfileFollows (now : Envelope Message → Time) (s : Db) (k : Uuid) (user : User) : Prop :=
  ∃ profile, (s.events.foldl (Volunteer.deliverIam now) Volunteer.noProfiles).rows k =
      some profile ∧
    profile.fullName = user.fullName ∧ profile.phone = user.phone ∧
    profile.isActive = user.isActive

section Consumers

variable {k : Nat} {past : List UserCall} {s : Db} {user : User}

theorem replicaFollows_iff (hwritten : Written s) (hk : s.users.committed k = some user) :
    ReplicaFollows s k user ↔ Current true k s := by
  have hrow : Logistics.Replicas.identity k
      (s.events.foldl Logistics.deliverIam Logistics.noReplicas).rows = tracked true k s.events :=
    (Logistics.replicas_replicate k).once hwritten.numbered.nodup (fun _ _ h => by cases h)
      fun e he => ⟨hwritten.fits e he, fun _ _ => trivial⟩
  constructor
  · rintro ⟨replica, hreplica, hname, hphone, hroles, hactive⟩ user' hk'
    rw [hk] at hk'
    cases hk'
    refine ⟨replica.identity, ?_, hname, hphone, hroles, hactive⟩
    rw [← hrow]
    unfold Logistics.Replicas.identity
    rw [hreplica]
    rfl
  · intro hcurrent
    obtain ⟨i, hi, hmirrors⟩ := hcurrent user hk
    rw [← hrow] at hi
    obtain ⟨replica, hreplica, rfl⟩ := Option.map_eq_some_iff.mp hi
    exact ⟨replica, hreplica, hmirrors.fullName, hmirrors.phone, hmirrors.roles,
      hmirrors.isActive⟩

theorem profileFollows_iff (now : Envelope Message → Time) (hwritten : Written s)
    (htracked : Tracked false k past s) (hk : s.users.committed k = some user)
    (hvolunteer : user.userType = .volunteer) :
    ProfileFollows now s k user ↔ Current false k s := by
  unfold Tracked at htracked
  rw [hk] at htracked
  obtain ⟨i, hi, htrails⟩ := htracked
  have hrow : Volunteer.Profiles.identity k
      (s.events.foldl (Volunteer.deliverIam now) Volunteer.noProfiles).rows =
        tracked false k s.events := by
    refine (Volunteer.profiles_replicate now k).once hwritten.numbered.nodup
      (fun _ _ h => by cases h) fun e he => ⟨hwritten.fits e he, fun data hdata => ?_⟩
    exact (htrails.userType e he data hdata).trans hvolunteer
  -- The profile was made from an event, so its identity is what is kept.
  have hprofile : ∀ profile : Volunteer.VolunteerProfile,
      (s.events.foldl (Volunteer.deliverIam now) Volunteer.noProfiles).rows k = some profile →
        profile.identity? = some i := by
    intro profile hprofile
    rw [hi] at hrow
    unfold Volunteer.Profiles.identity at hrow
    rw [hprofile] at hrow
    exact hrow
  have hfields : ∀ profile : Volunteer.VolunteerProfile, profile.identity? = some i →
      i.fullName = profile.fullName ∧ i.phone = profile.phone ∧ i.roles = [] ∧
        i.isActive = profile.isActive := by
    intro profile hprofile
    obtain ⟨source, -, rfl⟩ := Option.map_eq_some_iff.mp hprofile
    exact ⟨rfl, rfl, rfl, rfl⟩
  constructor
  · rintro ⟨profile, hsome, hname, hphone, hactive⟩ user' hk'
    rw [hk] at hk'
    cases hk'
    obtain ⟨hiname, hiphone, hiroles, hiactive⟩ := hfields profile (hprofile profile hsome)
    exact ⟨i, hi, hiname.trans hname, hiphone.trans hphone, hiroles, hiactive.trans hactive⟩
  · intro hcurrent
    obtain ⟨j, hj, hmirrors⟩ := hcurrent user hk
    rw [hi] at hj
    cases hj
    rw [hi] at hrow
    obtain ⟨profile, hsome, hidentity⟩ := Option.bind_eq_some_iff.mp hrow
    obtain ⟨hiname, hiphone, -, hiactive⟩ := hfields profile hidentity
    exact ⟨profile, hsome, hiname.symm.trans hmirrors.fullName,
      hiphone.symm.trans hmirrors.phone, hiactive.symm.trans hmirrors.isActive⟩

end Consumers

/-- After the calls `past`, the call `a` and calls `rest` that do not name user `k` any more,
made one after the other: both services show user `k` exactly if `a`, the last call on the user
or one made when there was none, is not overtaken by the stamp of an earlier event. -/
theorem replicas_follow_iff (env : Env) (tenants : List Tenant)
    (roleAssignments : List RoleAssignment) (now : Envelope Message → Time)
    (past : List UserCall) (a : UserCall) (rest : List UserCall)
    (hturn : InTurn (past ++ a :: rest)) :
    ∃ s s', calls (UserCall.body env) past 0 (Db.initial tenants [] roleAssignments) = some s ∧
      calls (UserCall.body env) (past ++ a :: rest) 0 (Db.initial tenants [] roleAssignments) =
        some s' ∧
      ∀ k user, s'.users.committed k = some user →
        a.user? = some k ∨ s.users.committed k = none →
        (∀ b ∈ rest, b.user? ≠ some k) →
        ((ReplicaFollows s' k user ∧
            (user.userType = .volunteer → ProfileFollows now s' k user)) ↔
          ¬ Overtaken k s a) := by
  obtain ⟨w, s, hpast, hs, hwritten, htracked⟩ :=
    user_history env tenants roleAssignments past hturn.init
  obtain ⟨w₁, s₁, ha, hs₁, hresult⟩ := (user_leads env).once hs a (0 + past.length)
  have hturn₁ : InTurn (past ++ [a]) := by
    have happend : InTurn ((past ++ [a]) ++ rest) := by simpa using hturn
    exact happend.init
  let J : List UserCall → Db → Prop := fun done s' => Written s' ∧
    (InTurn ((past ++ [a]) ++ done) → ∀ keepsRoles k,
      Tracked keepsRoles k ((past ++ [a]) ++ done) s' ∧
      (a.user? = some k ∨ s.users.committed k = none → (∀ b ∈ done, b.user? ≠ some k) →
        (Current keepsRoles k s' ↔ ¬ Overtaken k s a)))
  have hstart : J [] s₁ := by
    refine ⟨hwritten.step hs hs₁ hresult, fun _ keepsRoles k => ?_⟩
    obtain ⟨htracked₁, hnamed, hother⟩ :=
      (htracked keepsRoles k).step hs hs₁ hresult hturn₁.last
    refine ⟨by simpa using htracked₁, fun hcases _ => ?_⟩
    by_cases hname : a.user? = some k
    · exact hnamed hname
    · have hnone := hcases.resolve_left hname
      exact (hother hname).trans (iff_of_true (.absent hnone) (not_overtaken_absent hnone))
  have hstep : ∀ done b w w' s s', Rested schema w s → Rested schema w' s' → UserResult b w w' →
      J done s → J (done ++ [b]) s' := by
    intro done b w w' u u' hu hu' hresult hJ
    refine ⟨hJ.1.step hu hu' hresult, fun hturn keepsRoles k => ?_⟩
    rw [← List.append_assoc] at hturn ⊢
    obtain ⟨htracked, hcurrent⟩ := hJ.2 hturn.init keepsRoles k
    obtain ⟨htracked', -, hother⟩ := htracked.step hu hu' hresult hturn.last
    refine ⟨htracked', fun hcases hdone => ?_⟩
    have hb : b.user? ≠ some k := hdone b (List.mem_append_right _ List.mem_cons_self)
    exact (hother hb).trans
      (hcurrent hcases fun c hc => hdone c (List.mem_append_left _ hc))
  obtain ⟨w', s', hrest, hs', hwritten', hJ⟩ := (user_leads env).history hstep hs₁ hstart rest
    (0 + past.length + 1)
  refine ⟨s, s', hpast, ?_, fun k user hk hcases hdone => ?_⟩
  · have hsplit : past ++ a :: rest = past ++ ([a] ++ rest) := rfl
    rw [hsplit, calls_append, hpast]
    show calls (UserCall.body env) ([a] ++ rest) (0 + past.length) s = some s'
    rw [calls_append, ha]
    exact hrest
  · have hboth := hJ (by simpa using hturn)
    obtain ⟨-, hreplica⟩ := hboth true k
    obtain ⟨htracked', hprofile⟩ := hboth false k
    rw [replicaFollows_iff hwritten' hk, hreplica hcases hdone]
    refine ⟨fun h => h.1, fun h => ⟨h, fun hvolunteer => ?_⟩⟩
    rw [profileFollows_iff now hwritten' htracked' hk hvolunteer, hprofile hcases hdone]
    exact h

/-- Amara registers, her status is set and she changes her name. -/
def renameCalls : List UserCall :=
  [.registerGlobalUser amara "salt" (tick 0), .setUserStatus 0 "active" (tick 10),
    .updateUserProfile 0 { fullName := some "Amara Silva" } (tick 20)]

/-- A second change, which comes through. -/
def addPhone : UserCall := .updateUserProfile 0 { phone := some "0771234567" } (tick 30)

/-- The first update is missed and the second one carries both changes. -/
theorem replicas_follow_amara : ∃ s' user, calls (UserCall.body plain) (renameCalls ++ [addPhone]) 0
      (Db.initial [] [] []) = some s' ∧ s'.users.committed 0 = some user ∧
    user.fullName = "Amara Silva" ∧ user.userType = .volunteer ∧
    ReplicaFollows s' 0 user ∧ ProfileFollows (fun _ => 0) s' 0 user := by
  obtain ⟨s, s', hpast, hcalls, hfollow⟩ :=
    replicas_follow_iff plain [] [] (fun _ => 0) renameCalls addPhone [] (by decide)
  have hfacts : (calls (UserCall.body plain) (renameCalls ++ [addPhone]) 0
      (Db.initial [] [] [])).map (fun s => (s.users.committed 0).map fun user =>
        (user.fullName, user.userType)) = some (some ("Amara Silva", .volunteer)) := by
    decide +kernel
  have hbefore : (calls (UserCall.body plain) renameCalls 0 (Db.initial [] [] [])).map (fun s =>
      ((s.users.committed 0).map User.updatedAt, s.events.map fun e =>
        (e.data.userData? 0).map UserData.updatedAt)) =
      some (some 20, [some 0, some 12, some 0]) := by
    decide +kernel
  rw [hcalls] at hfacts
  obtain ⟨user, huser, hfields⟩ := Option.map_eq_some_iff.mp (Option.some.inj hfacts)
  simp only [Prod.mk.injEq] at hfields
  rw [hpast] at hbefore
  simp only [Option.map_some, Option.some.injEq, Prod.mk.injEq] at hbefore
  have hnot : ¬ Overtaken 0 s addPhone := by
    rintro ⟨-, old, hold, -, e, he, shown, hshown, hlt⟩
    rw [hold] at hbefore
    have hupdated : old.updatedAt = 20 := Option.some.inj hbefore.1
    have hstamp : some shown.updatedAt ∈ [some 0, some (12 : Time), some 0] := by
      rw [← hbefore.2]
      exact List.mem_map.mpr ⟨e, he, by rw [hshown]; rfl⟩
    rw [hupdated] at hlt
    simp only [List.mem_cons, Option.some.injEq, List.not_mem_nil, or_false] at hstamp
    rcases hstamp with h | h | h
    · rw [h] at hlt
      exact absurd hlt (by decide)
    · rw [h] at hlt
      exact absurd hlt (by decide)
    · rw [h] at hlt
      exact absurd hlt (by decide)
  obtain ⟨hreplica, hprofile⟩ :=
    (hfollow 0 user huser (.inl rfl) fun b hb => by cases hb).mpr hnot
  exact ⟨s', user, hcalls, huser, hfields.1, hfields.2, hreplica, hprofile hfields.2⟩

/-- The change of the name carries the stamp of the registration and is taken for older than
the status. -/
theorem renaming_missed : ¬ ∀ (env : Env) (tenants : List Tenant)
    (roleAssignments : List RoleAssignment) (now : Envelope Message → Time) (l : List UserCall)
    (s : Db) (k : Uuid) (user : User), InTurn l →
    calls (UserCall.body env) l 0 (Db.initial tenants [] roleAssignments) = some s →
    s.users.committed k = some user →
    ReplicaFollows s k user ∧ (user.userType = .volunteer → ProfileFollows now s k user) := by
  intro hclaim
  have hfacts : (calls (UserCall.body plain) renameCalls 0 (Db.initial [] [] [])).map (fun s =>
      ((s.users.committed 0).map User.fullName,
        ((s.events.foldl Logistics.deliverIam Logistics.noReplicas).rows 0).map
          Logistics.UserReplica.fullName)) = some (some "Amara Silva", some "Amara") := by
    decide +kernel
  obtain ⟨s, hcalls, hfacts⟩ := Option.map_eq_some_iff.mp hfacts
  simp only [Prod.mk.injEq, Option.map_eq_some_iff] at hfacts
  obtain ⟨⟨user, huser, hname⟩, replica, hreplica, hold⟩ := hfacts
  obtain ⟨⟨replica', hreplica', hsame, -⟩, -⟩ :=
    hclaim plain [] [] (fun _ => 0) renameCalls s 0 user (by decide) hcalls huser
  rw [hreplica] at hreplica'
  cases hreplica'
  rw [hold, hname] at hsame
  exact absurd hsame (by decide)

end Iam
end Rcp
