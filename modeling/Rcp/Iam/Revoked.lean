/-
Revocations that run beside exchanges.

A bulk revocation reaches the tokens that are there when its UPDATE starts.  If it has
locked all unrevoked tokens of a user when it commits, and if every exchange that commits
later finds its token unrevoked, then no token that descends from one of them is ever
exchanged again.
-/
import Rcp.Iam.Sessions
import Rcp.Iam.Steps

namespace Rcp
namespace Iam

open Sql Sql.Table Relation

/-- The calls that end the sessions of a user: a new password, a disabled user, a suspended
tenant. -/
def RevokesFor (w : Rows) (u : Uuid) : Call → Prop
  | .changeUserPassword userId .. => userId = u
  | .adminResetUserPassword userId .. => userId = u
  | .setUserStatus userId status _ => userId = u ∧ status = "disabled"
  | .setTenantStatus tenantId status _ =>
      status = "suspended" ∧ ∃ user, w.users u = some user ∧ user.tenantId = some tenantId
  | .registerGlobalUser .. | .registerTenantUser .. | .login .. | .refresh .. |
    .updateUserProfile .. => False

/-- The step commits what session `t` has written. -/
def Publishes (t : Sid) (s s' : Db) : Prop := s'.rows = (schema.writes t s).overlay s.rows

/-- Session `t` has locked every unrevoked token of the user. -/
def HoldsAll (t : Sid) (u : Uuid) (s : Db) : Prop :=
  ∀ k token, s.tokens.committed k = some token → token.userId = u → token.revokedAt = none →
    ∃ version, s.tokens.pending k = some (t, version)

/-! ## Successors belong to the same user -/

def SameUser (w : Rows) : Prop :=
  ∀ j y k, w.tokens j = some y → y.rotatedFrom = some k →
    ∃ x, w.tokens k = some x ∧ x.userId = y.userId

section Commits

variable {security : Security} {a : Call} {w W : Rows}

theorem SameUser.commit (hw : SameUser w) (h : Commit security a w W) : SameUser (W.overlay w) := by
  have hevolves := h.evolves
  have hold : ∀ j y₀ y k, w.tokens j = some y₀ → SameToken y₀ y → y.rotatedFrom = some k →
      ∃ x, (W.overlay w).tokens k = some x ∧ x.userId = y.userId := by
    intro j y₀ y k hj hsame hk
    obtain ⟨x₀, hx₀, huser⟩ := hw j y₀ k hj (hsame.parent.symm.trans hk)
    obtain ⟨x, hx, hsame'⟩ := hevolves k x₀ hx₀
    exact ⟨x, hx, hsame'.user.trans (huser.trans hsame.user.symm)⟩
  intro j y k hj hk
  cases hbefore : w.tokens j with
  | some y₀ =>
      obtain ⟨y', hy', hsame⟩ := hevolves j y₀ hbefore
      rw [hj] at hy'
      cases hy'
      exact hold j y₀ y k hbefore hsame hk
  | none =>
      have hwritten : W.tokens j = some y := by
        have hor : (W.tokens j).or (w.tokens j) = some y := hj
        rwa [hbefore, Option.or_none] at hor
      cases h with
      | @rotated _ _ clock _ _ k' j' record successor hk' hhash hj' hfrom huser hW =>
          rw [hW] at hwritten
          by_cases hjj' : j = j'
          · rw [hjj', Function.update_self] at hwritten
            cases hwritten
            rw [hfrom] at hk
            cases hk
            obtain ⟨x, hx, hsame⟩ := hevolves k record hk'
            exact ⟨x, hx, hsame.user.trans huser.symm⟩
          · rw [Function.update_of_ne hjj'] at hwritten
            obtain ⟨rfl, -⟩ := single_eq_some.mp hwritten
            rw [hk'] at hbefore
            cases hbefore
      | issued hj' hroot hW =>
          rw [hW] at hwritten
          obtain ⟨-, rfl⟩ := single_eq_some.mp hwritten
          rw [hroot] at hk
          cases hk
      | revoked hrevokes =>
          obtain ⟨old, -, hsome, -⟩ := hrevokes j y hwritten
          rw [hbefore] at hsome
          cases hsome

/-! ## After the revocation -/

/-- The tokens that user `u` had in `w₀` are revoked, and nothing has replaced one since. -/
structure Ended (w₀ : Rows) (u : Uuid) (w : Rows) : Prop where
  out : Out w₀ u w
  closed : ∀ j y k x, w.tokens j = some y → y.rotatedFrom = some k → w₀.tokens k = some x →
    x.userId = u → ∃ y₀, w₀.tokens j = some y₀ ∧ SameToken y₀ y

theorem Ended.commit {w₀ : Rows} {u : Uuid} (hw : Ended w₀ u w) (h : Commit security a w W)
    (hunspent : ∀ j y k token, w.tokens j = none → (W.overlay w).tokens j = some y →
      y.rotatedFrom = some k → w.tokens k = some token → token.revokedAt = none) :
    Ended w₀ u (W.overlay w) := by
  have hevolves := h.evolves
  refine ⟨fun k x hk hu => ?_, fun j y k x hj hk hx hu => ?_⟩
  · obtain ⟨y, hy, hsame, hrevoked⟩ := hw.out k x hk hu
    obtain ⟨z, hz, hsame'⟩ := hevolves k y hy
    exact ⟨z, hz, hsame.trans hsame', hsame'.revoked hrevoked⟩
  · cases hbefore : w.tokens j with
    | none =>
        obtain ⟨token, htoken, -, hrevoked⟩ := hw.out k x hx hu
        exact absurd (hunspent j y k token hbefore hj hk htoken) hrevoked
    | some y₁ =>
        obtain ⟨y', hy', hsame⟩ := hevolves j y₁ hbefore
        rw [hj] at hy'
        cases hy'
        obtain ⟨y₀, hy₀, hsame₀⟩ :=
          hw.closed j y₁ k x hbefore (hsame.parent.symm.trans hk) hx hu
        exact ⟨y₀, hy₀, hsame₀.trans hsame⟩

/-- What descends from a token of the user was there before. -/
theorem Ended.descends {w₀ : Rows} {u : Uuid} (hw : Ended w₀ u w) (hsame : SameUser w₀)
    {k j : Nat} {x : RefreshToken} (hk : w₀.tokens k = some x) (hu : x.userId = u)
    (h : Descends w.tokens k j) : ∃ y, w₀.tokens j = some y ∧ y.userId = u := by
  induction h with
  | refl => exact ⟨x, hk, hu⟩
  | tail _ hstep ih =>
      obtain ⟨y, hy, hyu⟩ := ih
      obtain ⟨z, hz, hfrom⟩ := hstep
      obtain ⟨z₀, hz₀, hz₀z⟩ := hw.closed _ z _ y hz hfrom hy hyu
      obtain ⟨y', hy', huser⟩ := hsame _ z₀ _ hz₀ (hz₀z.parent.symm.trans hfrom)
      rw [hy] at hy'
      cases hy'
      exact ⟨z₀, hz₀, huser.symm.trans hyu⟩

end Commits

/-! ## Runs -/

section Runs

variable {env : Env} {tenants : List Tenant} {users : List User}
  {roleAssignments : List RoleAssignment} {c₁ c₂ c₃ : Cluster} {t : Sid} {u : Uuid}
  {se : Session Db Error Reply Call}

theorem initial_locksRevoked :
    LocksRevoked (Db.initial tenants users roleAssignments) where
  bounded := empty_bounded
  revoked _ _ _ h := by cases h

theorem run_sameUser (h : Run (Call.body env)
    (Config.start (Db.initial tenants users roleAssignments)) c₁) : SameUser c₁.store.rows := by
  refine RunWith.rows_keep (J := SameUser) (verified env fun _ _ _ _ => True) ?_
    (start_sound env.security (fun _ _ _ _ => True) tenants users roleAssignments) h.always ?_
  · intro a s₀ s s' W _ _ hc _ _ hs
    exact hs.commit hc
  · intro j y k hj
    cases hj

/-- The commit of a revocation that holds all unrevoked tokens of the user. -/
theorem out_of_holdsAll (h : Run (Call.body env)
    (Config.start (Db.initial tenants users roleAssignments)) c₁)
    (hse : c₁.sessions t = some se) (hrevokes : RevokesFor c₁.store.rows u se.call)
    (hstep : Step (Call.body env) c₁ t c₂) (hcommit : Publishes t c₁.store c₂.store)
    (hholds : HoldsAll t u c₁.store) :
    ∀ k x, c₂.store.tokens.committed k = some x → x.userId = u → x.revokedAt ≠ none := by
  intro k x hk hu
  have hlocks := run_locksRevoked env initial_locksRevoked h
  have hsound := Run.sound (verified env fun _ _ _ _ => True)
    (start_sound env.security (fun _ _ _ _ => True) tenants users roleAssignments) h
  -- the session writes no token that was not there
  have hthere : ∀ version, c₁.store.tokens.writes t k = some version →
      c₁.store.tokens.committed k ≠ none := by
    intro version hwritten
    rcases (hstep.sound (verified env fun _ _ _ _ => True) hsound fun _ _ => trivial).2 with
      hsame | ⟨se', hse', hguar⟩
    · rw [hsame] at hk
      rw [hk]
      exact Option.some_ne_none x
    · rw [hse] at hse'
      cases hse'
      rcases hguar.2 with hrows | ⟨hc, -⟩
      · have hkeep : c₂.store.tokens.committed k = c₁.store.tokens.committed k :=
          congrFun (congrArg Rows.tokens hrows) k
        rw [← hkeep, hk]
        exact Option.some_ne_none x
      · generalize hcall : se.call = a at hc hrevokes
        cases hc with
        | rotated => exact hrevokes.elim
        | issued => exact hrevokes.elim
        | revoked hrev =>
            obtain ⟨old, -, hold, -⟩ := hrev k version hwritten
            have hold' : c₁.store.tokens.committed k = some old := hold
            rw [hold']
            exact Option.some_ne_none old
  have hread : (c₁.store.tokens.writes t k).or (c₁.store.tokens.committed k) = some x :=
    (congrFun (congrArg Rows.tokens hcommit) k).symm.trans hk
  cases hwritten : c₁.store.tokens.writes t k with
  | some version =>
      rw [hwritten] at hread
      cases hread
      exact hlocks.revoked k t x (writes_eq_some.mp hwritten) (hthere x hwritten)
  | none =>
      rw [hwritten, Option.none_or] at hread
      intro hlive
      obtain ⟨version, hpending⟩ := hholds k x hread hu hlive
      rw [writes_eq_some.mpr hpending] at hwritten
      cases hwritten

/-- A revoking call commits in `c₂`, having locked all unrevoked tokens of the user, and
every exchange that commits later finds its token unrevoked.  Then an exchange of a token
that descends from one the user had was committed before the revocation. -/
theorem revocation_complete (h₁ : Run (Call.body env)
    (Config.start (Db.initial tenants users roleAssignments)) c₁)
    (hse : c₁.sessions t = some se) (hrevokes : RevokesFor c₁.store.rows u se.call)
    (hstep : Step (Call.body env) c₁ t c₂) (hcommit : Publishes t c₁.store c₂.store)
    (hholds : HoldsAll t u c₁.store) (h₂ : RunWith (Call.body env) ExchangesUnspent c₂ c₃)
    {k j : Nat} {x y : RefreshToken} (hk : c₂.store.tokens.committed k = some x)
    (hu : x.userId = u) (hdescends : Descends c₃.store.tokens.committed k j)
    (hj : c₃.store.tokens.committed j = some y) {entry : Sid × Call × Except Error Reply}
    (hentry : entry ∈ c₃.log) (hexchanged : exchanges env.security y.tokenHash entry = true) :
    ∃ i z, c₂.store.tokens.committed i = some z ∧ z.rotatedFrom = some j ∧
      z.insertedBy = entry.1 := by
  have hrun₂ : Run (Call.body env) (Config.start (Db.initial tenants users roleAssignments)) c₂ :=
    h₁.tail ⟨t, hstep⟩
  have hrevoked := out_of_holdsAll h₁ hse hrevokes hstep hcommit hholds
  have hsound₂ : c₂.Sound (discipline env.security) ExchangesUnspent :=
    (Run.sound (verified env fun _ _ _ _ => True) (start_sound env.security
      (fun _ _ _ _ => True) tenants users roleAssignments) hrun₂).fewer fun _ _ _ _ _ => trivial
  have hsound₃ := RunWith.sound (verified env ExchangesUnspent) hsound₂ h₂
  have hended : Ended c₂.store.rows u c₃.store.rows := by
    refine RunWith.rows_keep (J := Ended c₂.store.rows u) (verified env ExchangesUnspent) ?_
      hsound₂ h₂ ?_
    · intro a s₀ s s' W _ hb hc heq hadm hs
      refine hs.commit hc fun i z m token hi hz hm htoken => ?_
      have hrow : s'.tokens.committed i = some z :=
        (congrFun (congrArg Rows.tokens heq) i).trans hz
      exact hadm (i, z) ((mem_rows (hb .tokens).1).mpr hrow) hi m hm token htoken
    · refine ⟨fun i z hi hz => ⟨z, hi, .refl z, hrevoked i z hi hz⟩, ?_⟩
      exact fun i z _ _ hi _ _ _ => ⟨z, hi, .refl z⟩
  obtain ⟨t', a, r⟩ := entry
  obtain ⟨rawToken, draw, clock, pair, rfl, rfl, hhash⟩ := exchanges_cases hexchanged
  obtain ⟨k', i, record, successor, hk', hhash', hi, hfrom, hsession⟩ :=
    hsound₃.log _ hentry rawToken draw clock pair rfl rfl
  -- the token that was exchanged is the descendant
  have hkeyed : c₃.store.tokens.Keyed RefreshToken.tokenHash := (hsound₃.inv.1 .tokens).2
  have hkk' : k' = j := (hkeyed k' j record y (.inl hk') (.inl hj)).mp (hhash'.trans hhash)
  subst hkk'
  obtain ⟨y₀, hy₀, hyu⟩ := hended.descends (run_sameUser hrun₂) hk hu hdescends
  obtain ⟨z, hz, hsame⟩ := hended.closed i successor k' y₀ hi hfrom hy₀ hyu
  exact ⟨i, z, hz, hsame.parent.symm.trans hfrom, hsame.session.symm.trans hsession⟩

/-- A step that changes a committed row is a commit. -/
theorem publishes_of_ne (h : Run (Call.body env)
    (Config.start (Db.initial tenants users roleAssignments)) c₁)
    (hstep : Step (Call.body env) c₁ t c₂) (hne : c₂.store.rows ≠ c₁.store.rows) :
    Publishes t c₁.store c₂.store := by
  have hsound := Run.sound (verified env fun _ _ _ _ => True)
    (start_sound env.security (fun _ _ _ _ => True) tenants users roleAssignments) h
  rcases (hstep.sound (verified env fun _ _ _ _ => True) hsound fun _ _ => trivial).2 with
    hsame | ⟨se, -, hguar⟩
  · exact absurd (congrArg Db.rows hsame) hne
  · rcases hguar.2 with hrows | ⟨-, hrows⟩
    · exact absurd hrows hne
    · exact hrows

end Runs

/-! ## A password change beside an exchange -/

/-- Amara changes her password in session 3. -/
def newPassword : List (Move Call) :=
  .begin (.changeUserPassword 0
    { currentPassword := amara.password, newPassword := "deep water" } "salt" (tick 30)) ::
    List.replicate 5 (.next 3)

/-- The user whose password the call changes. -/
def changedUser : Call → Option Uuid
  | .changeUserPassword userId .. => some userId
  | _ => none

theorem revokesFor_of_changedUser {w : Rows} {a : Call} {u : Uuid} (h : changedUser a = some u) :
    RevokesFor w u a := by
  cases a with
  | changeUserPassword userId => exact Option.some.inj h
  | registerGlobalUser | registerTenantUser | login | refresh | updateUserProfile
  | adminResetUserPassword | setUserStatus | setTenantStatus => cases h

/-- The states before and after the commit of session 3, and at the end. -/
def staged (adm : Call → Db → Db → Db → Prop) [∀ a s₀ s s', Decidable (adm a s₀ s s')]
    (before after : List (Move Call)) : Option (Cluster × Cluster × Cluster) :=
  ((Config.start (Db.initial [] [] [])).play (Call.body plain) before).bind fun c₁ =>
  (c₁.move (Call.body plain) (.next 3)).bind fun c₂ =>
  (c₂.playWith (Call.body plain) adm after).map fun c₃ => (c₁, c₂, c₃)

/-- Session 3 of the first state changes the password of user 0, and the step does. -/
def changesPassword (c : Cluster × Cluster × Cluster) : Prop :=
  ((c.1.sessions 3).map fun se => changedUser se.call) = some (some 0) ∧
    (c.1.store.users.committed 0).map User.passwordHash ≠
      (c.2.1.store.users.committed 0).map User.passwordHash

instance (c : Cluster × Cluster × Cluster) : Decidable (changesPassword c) :=
  inferInstanceAs (Decidable (_ ∧ _))

theorem staged_commit {adm : Call → Db → Db → Db → Prop}
    [∀ a s₀ s s', Decidable (adm a s₀ s s')] {before after : List (Move Call)}
    {c₁ c₂ c₃ : Cluster} (h : staged adm before after = some (c₁, c₂, c₃))
    (hchanges : changesPassword (c₁, c₂, c₃)) :
    Run (Call.body plain) (Config.start (Db.initial [] [] [])) c₁ ∧
      (∃ se, c₁.sessions 3 = some se ∧ RevokesFor c₁.store.rows 0 se.call) ∧
      Step (Call.body plain) c₁ 3 c₂ ∧ Publishes 3 c₁.store c₂.store ∧
      RunWith (Call.body plain) adm c₂ c₃ := by
  obtain ⟨d₁, hd₁, h⟩ := Option.bind_eq_some_iff.mp h
  obtain ⟨d₂, hd₂, h⟩ := Option.bind_eq_some_iff.mp h
  obtain ⟨d₃, hd₃, h⟩ := Option.map_eq_some_iff.mp h
  simp only [Prod.mk.injEq] at h
  obtain ⟨rfl, rfl, rfl⟩ := h
  have hrun := Config.play_run hd₁
  have hstep : Step (Call.body plain) d₁ 3 d₂ := Config.move_step hd₂
  obtain ⟨hcall, hpassword⟩ := hchanges
  obtain ⟨se, hse, hcalled⟩ := Option.map_eq_some_iff.mp hcall
  refine ⟨hrun, ⟨se, hse, revokesFor_of_changedUser hcalled⟩, hstep, ?_, Config.playWith_run hd₃⟩
  refine publishes_of_ne hrun hstep fun hrows => hpassword ?_
  exact congrArg (Option.map User.passwordHash) (congrFun (congrArg Rows.users hrows) 0).symm

/-- The first token is exchanged for a second one, and then the password is changed. -/
def changedAfter : List (Move Call) :=
  firstLogin ++ .begin (.refresh "first" { refreshToken := "second", jti := 2 } (tick 20)) ::
    List.replicate 6 (.next 2) ++ [.close 2] ++ newPassword

/-- The second token is presented after the change. -/
def presentsSecond : List (Move Call) :=
  .close 3 :: .begin (.refresh "second" { refreshToken := "third", jti := 3 } (tick 40)) ::
    List.replicate 5 (.next 4) ++ [.close 4]

/-- The tokens of user 0 that session 3 does not hold are revoked. -/
def holdsTokens (c : Cluster) : Bool :=
  decide (∀ row ∈ c.store.tokens.rows, row.2.userId = 0 → row.2.revokedAt = none →
    (c.store.tokens.pending row.1).map Prod.fst = some 3)

theorem holdsAll_of_holdsTokens {c : Cluster} (hb : c.store.tokens.Bounded)
    (h : holdsTokens c = true) : HoldsAll 3 0 c.store := by
  intro k token hk hu hlive
  have hrows := of_decide_eq_true h
  obtain ⟨⟨o, version⟩, hpending, ho⟩ := Option.map_eq_some_iff.mp
    (hrows (k, token) ((mem_rows hb).mpr hk) hu hlive)
  simp only at ho
  rw [ho] at hpending
  exact ⟨version, hpending⟩

/-- The exchange of the first token was committed before the password was changed. -/
theorem revocation_complete_amara : ∃ (c₁ c₂ c₃ : Cluster) (entry : Sid × Call × Except Error Reply),
    RunWith (Call.body plain) ExchangesUnspent c₂ c₃ ∧ HoldsAll 3 0 c₁.store ∧
    entry ∈ c₃.log ∧ exchanges plain.security "sha256 first" entry = true ∧
    ∃ i z, c₂.store.tokens.committed i = some z ∧ z.rotatedFrom = some 0 ∧
      z.insertedBy = entry.1 := by
  have hfacts : (staged ExchangesUnspent changedAfter presentsSecond).map (fun c =>
      (decide (changesPassword c) && holdsTokens c.1 &&
        c.2.2.log.any (exchanges plain.security "sha256 first"),
        (c.2.1.store.tokens.committed 0).map RefreshToken.userId,
        (c.2.2.store.tokens.committed 0).map RefreshToken.tokenHash)) =
      some (true, some 0, some "sha256 first") := by
    decide +kernel
  obtain ⟨⟨c₁, c₂, c₃⟩, hstaged, hfacts⟩ := Option.map_eq_some_iff.mp hfacts
  simp only [Prod.mk.injEq, Bool.and_eq_true, decide_eq_true_eq, List.any_eq_true] at hfacts
  obtain ⟨⟨⟨hchanges, hholds⟩, entry, hentry, hexchanged⟩, huser, hhash⟩ := hfacts
  obtain ⟨hrun, ⟨se, hse, hrevokes⟩, hstep, hcommit, hlater⟩ := staged_commit hstaged hchanges
  obtain ⟨x, hx, hxuser⟩ := Option.map_eq_some_iff.mp huser
  obtain ⟨y, hy, hyhash⟩ := Option.map_eq_some_iff.mp hhash
  have hbounded := (run_locksRevoked plain initial_locksRevoked hrun).bounded
  have hall := holdsAll_of_holdsTokens hbounded hholds
  refine ⟨c₁, c₂, c₃, entry, hlater, hall, hentry, hexchanged, ?_⟩
  rw [← hyhash] at hexchanged
  exact revocation_complete hrun hse hrevokes hstep hcommit hall hlater hx hxuser .refl hy hentry
    hexchanged

/-- The password is changed while an exchange of the first token is under way. -/
def changedBeside : List (Move Call) :=
  firstLogin ++ .begin (.refresh "first" { refreshToken := "second", jti := 2 } (tick 20)) ::
    List.replicate 3 (.next 2) ++ newPassword

/-- The exchange goes on, and the second token is exchanged as well. -/
def exchangesOn : List (Move Call) :=
  .close 3 :: List.replicate 3 (.next 2) ++ [.close 2,
    .begin (.refresh "second" { refreshToken := "third", jti := 3 } (tick 40))] ++
    List.replicate 6 (.next 4) ++ [.close 4]

/-- Tokens that descend from the first one are exchanged after the password change. -/
theorem exchange_outlives_revocation : ¬ ∀ (env : Env) (tenants : List Tenant)
    (users : List User) (roleAssignments : List RoleAssignment) (c₁ c₂ c₃ : Cluster) (t : Sid)
    (se : Session Db Error Reply Call) (u : Uuid),
    Run (Call.body env) (Config.start (Db.initial tenants users roleAssignments)) c₁ →
    c₁.sessions t = some se → RevokesFor c₁.store.rows u se.call →
    Step (Call.body env) c₁ t c₂ → Publishes t c₁.store c₂.store →
    schema.writes t c₁.store ≠ schema.nothing → Run (Call.body env) c₂ c₃ →
    ∀ (k j : Nat) (x y : RefreshToken), c₂.store.tokens.committed k = some x → x.userId = u →
      Descends c₃.store.tokens.committed k j → c₃.store.tokens.committed j = some y →
    ∀ entry ∈ c₃.log, exchanges env.security y.tokenHash entry = true →
      ∃ i z, c₂.store.tokens.committed i = some z ∧ z.rotatedFrom = some j ∧
        z.insertedBy = entry.1 := by
  intro hclaim
  have hfacts : (staged (fun _ _ _ _ => True) changedBeside exchangesOn).map (fun c =>
      (decide (changesPassword c) && c.2.2.log.any (exchanges plain.security "sha256 second") &&
        decide (∀ row ∈ c.2.1.store.tokens.rows, row.2.rotatedFrom = none) &&
        decide ((c.1.store.tokens.pending 0).map Prod.fst = some 3),
        (c.2.1.store.tokens.committed 0).map RefreshToken.userId,
        (c.2.2.store.tokens.committed 1).map fun token =>
          (token.tokenHash, token.rotatedFrom))) =
      some (true, some 0, some ("sha256 second", some 0)) := by
    decide +kernel
  obtain ⟨⟨c₁, c₂, c₃⟩, hstaged, hfacts⟩ := Option.map_eq_some_iff.mp hfacts
  simp only [Prod.mk.injEq, Bool.and_eq_true, decide_eq_true_eq, List.any_eq_true] at hfacts
  obtain ⟨⟨⟨⟨hchanges, entry, hentry, hexchanged⟩, hroots⟩, hlock⟩, huser, hsecond⟩ := hfacts
  obtain ⟨hrun, ⟨se, hse, hrevokes⟩, hstep, hcommit, hlater⟩ := staged_commit hstaged hchanges
  obtain ⟨x, hx, hxuser⟩ := Option.map_eq_some_iff.mp huser
  obtain ⟨y, hy, hyfields⟩ := Option.map_eq_some_iff.mp hsecond
  obtain ⟨hyhash, hyfrom⟩ := Prod.mk.inj hyfields
  obtain ⟨⟨o, version⟩, hpending, ho⟩ := Option.map_eq_some_iff.mp hlock
  simp only at ho
  subst ho
  have hwrites : schema.writes 3 c₁.store ≠ schema.nothing := by
    intro hnothing
    have hnone : c₁.store.tokens.writes 3 0 = none :=
      congrFun (congrArg Rows.tokens hnothing) 0
    rw [writes_eq_some.mpr hpending] at hnone
    cases hnone
  rw [← hyhash] at hexchanged
  obtain ⟨i, z, hz, hzfrom, -⟩ := hclaim plain [] [] [] c₁ c₂ c₃ 3 se 0 hrun hse hrevokes hstep
    hcommit hwrites hlater.run 0 1 x y hx hxuser (.single ⟨y, hy, hyfrom⟩) hy entry hentry
    hexchanged
  have hbounded := (run_locksRevoked plain initial_locksRevoked (hrun.tail ⟨3, hstep⟩)).bounded
  have hroot := hroots (i, z) ((mem_rows hbounded).mpr hz)
  rw [hzfrom] at hroot
  cases hroot

end Iam
end Rcp
