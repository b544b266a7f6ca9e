/-
Refresh tokens in calls that are made one after the other.

`TokenAnswer` is what a call made on its own returns and does to the token rows.  A login
inserts a row, an exchange revokes one and inserts its successor, and every other call
revokes the rows that match its filter, if any.
-/
import Rcp.Sql.Bulk
import Rcp.Iam.Verified

namespace Rcp
namespace Iam

open Sql Sql.Table

/-- The tokens with those that match revoked. -/
def stamped (p : RefreshToken → Bool) (now : Time) (tokens : Nat → Option RefreshToken) :
    Nat → Option RefreshToken :=
  fun k => (tokens k).map fun token => if p token then revoke now token else token

theorem stamped_none (now : Time) (tokens : Nat → Option RefreshToken) :
    stamped (fun _ => false) now tokens = tokens := by
  funext k
  cases h : tokens k <;> simp [stamped, h]

/-- A call that has returned `r` has shut the user out: the reuse of a revoked token, a new
password, a disabled user or a suspended tenant. -/
def ShutsOut (security : Security) (w : Rows) (u : Uuid) (r : Except Error Reply) : Call → Prop
  | .refresh rawToken _ clock => ∃ k record, w.tokens k = some record ∧
      record.tokenHash = security.sha256 rawToken ∧ record.userId = u ∧
      record.revokedAt ≠ none ∧ clock.now ≤ record.expiresAt
  | .changeUserPassword userId .. => userId = u ∧ r = .ok (.changed true)
  | .adminResetUserPassword userId .. => userId = u ∧ ∃ found, r = .ok (.user (some found))
  | .setUserStatus userId status _ =>
      userId = u ∧ status = "disabled" ∧ ∃ found, r = .ok (.user (some found))
  | .setTenantStatus tenantId status _ =>
      status = "suspended" ∧ (∃ user, w.users u = some user ∧ user.tenantId = some tenantId) ∧
        ∃ found, r = .ok (.tenant (some found))
  | .registerGlobalUser .. | .registerTenantUser .. | .login .. | .updateUserProfile .. => False

/-- Call `a` returned a pair for the token that it presented. -/
def Renewed (a : Call) (r : Except Error Reply) : Prop :=
  ∃ rawToken draw clock pair, a = .refresh rawToken draw clock ∧ r = .ok (.pair (some pair))

inductive TokenAnswer (security : Security) (t : Sid) :
    Call → Except Error Reply → Rows → Rows → Prop
  | issued {data : LoginRequest} {draw : Draw} {clock : Clock} {r : Except Error Reply}
      {w w' : Rows} {j : Nat} {userId : Uuid} (hj : w.tokens j = none)
      (hw' : w'.tokens = Function.update w.tokens j
        (some (newToken security userId none draw clock t))) :
      TokenAnswer security t (.login data draw clock) r w w'
  | rotated {rawToken : String} {draw : Draw} {clock : Clock} {pair : TokenPair} {w w' : Rows}
      {k j : Nat} {record : RefreshToken} (hk : w.tokens k = some record)
      (hhash : record.tokenHash = security.sha256 rawToken) (hunspent : record.revokedAt = none)
      (hj : w.tokens j = none)
      (hw' : w'.tokens = Function.update (Function.update w.tokens k
        (some (revoke clock.now record))) j
        (some (newToken security record.userId (some k) draw clock t))) :
      TokenAnswer security t (.refresh rawToken draw clock) (.ok (.pair (some pair))) w w'
  | revoked {a : Call} {r : Except Error Reply} {w w' : Rows} (p : RefreshToken → Bool)
      (now : Time) (hw' : w'.tokens = stamped p now w.tokens) (hr : ¬ Renewed a r)
      (hall : ∀ u, ShutsOut security w u r a → ∀ k token, w.tokens k = some token →
        token.userId = u → p token = true ∨ token.revokedAt ≠ none) :
      TokenAnswer security t a r w w'

section Solo

variable {security : Security} {t : Sid} {a : Call} {r : Except Error Reply} {w W : Rows} {s : Db}
  {γ V : Type} {Q : Except Error γ → Db → Prop}

/-- The end of call `a`, made on its own over the rows `w`. -/
def TokenEnded (security : Security) (t : Sid) (a : Call) (w : Rows) (r : Except Error Reply)
    (s : Db) : Prop :=
  ∃ W w', Solo schema t W w' s ∧ TokenAnswer security t a r w w'

theorem TokenAnswer.unchanged {w' : Rows} (hw' : w'.tokens = w.tokens) (hr : ¬ Renewed a r)
    (hnot : ∀ u, ¬ ShutsOut security w u r a) : TokenAnswer security t a r w w' :=
  .revoked (fun _ => false) 0 (by rw [hw', stamped_none]) hr fun u hu => absurd hu (hnot u)

theorem TokenEnded.unchanged (h : Solo schema t W w s) (hr : ¬ Renewed a r)
    (hnot : ∀ u, ¬ ShutsOut security w u r a) : TokenEnded security t a w r s :=
  ⟨W, w, h, .unchanged rfl hr hnot⟩

/-! ## Statements on other tables -/

/-- The token rows that session `t` has written are `T`. -/
def Writing (t : Sid) (T : Nat → Option RefreshToken) (w : Rows) (s : Db) : Prop :=
  ∃ W, Solo schema t W w s ∧ W.tokens = T

variable {T : Nat → Option RefreshToken}

theorem Solo.writing (h : Solo schema t W w s) : Writing t W.tokens w s := ⟨W, h, rfl⟩

theorem Writing.query {β : Type} {f : Sid → Db → β} {g : β → Prog Db Error γ}
    (h : Writing t T w s) (hg : ∀ b, Meets t Q (g b) s) : Meets t Q (Sql.query f >>= g) s := by
  obtain ⟨W, hs, -⟩ := h
  exact hs.query (hg _)

theorem Writing.update {K : Column schema V} (hK : Elsewhere K) {k : Nat} {p : V → Bool}
    {f : V → V} {g : Option V → Prog Db Error γ} (hf : K.Updates f) (h : Writing t T w s)
    (hg : ∀ b s', Writing t T w s' → Meets t Q (g b) s') :
    Meets t Q (updateWhere K.access k p f >>= g) s := by
  obtain ⟨W, hs, hW⟩ := h
  refine hs.update K hf (fun _ => hg none s ⟨W, hs, hW⟩) fun v _ _ s' hs' => ?_
  exact hg _ s' ⟨_, hs', (hK _ _).trans hW⟩

theorem Writing.emit {routingKey : String} {tenantId : Option Uuid} {m : Message}
    {g : Nat → Prog Db Error γ} (h : Writing t T w s)
    (hg : ∀ b s', Writing t T w s' → Meets t Q (g b) s') :
    Meets t Q (Rcp.emit Db.outboxT routingKey tenantId m >>= g) s := by
  obtain ⟨W, hs, hW⟩ := h
  refine hs.insert Column.outbox (.free fun _ => trivial) fun k _ _ s' hs' => ?_
  exact hg k s' ⟨_, hs', hW⟩

theorem Writing.commit {g : Unit → Prog Db Error γ} (h : Writing t T w s)
    (hg : ∀ W w' s', Solo schema t W w' s' → (∀ k, w'.tokens k = (T k).or (w.tokens k)) →
      Meets t Q (g ()) s') : Meets t Q (Sql.commit >>= g) s := by
  obtain ⟨W, hs, rfl⟩ := h
  exact hs.commit fun s' hs' => hg _ _ s' hs' fun _ => rfl

theorem Writing.loadRoles {userId : Uuid} {g : List RoleAssignment → Prog Db Error γ}
    (h : Writing t T w s) (hg : ∀ b, Meets t Q (g b) s) :
    Meets t Q (Iam.loadRoles userId >>= g) s := by
  refine meets_bind (h.query fun rows => ?_)
  exact meets_ret (hg _)

theorem Writing.getUserById {userId : Uuid} {g : Option (User × List String) → Prog Db Error γ}
    (h : Writing t T w s) (hg : ∀ b, Meets t Q (g b) s) :
    Meets t Q (Iam.getUserById userId >>= g) s := by
  refine meets_bind (h.query fun found => ?_)
  cases found with
  | none => exact meets_ret (hg none)
  | some user => exact h.loadRoles fun roles => meets_ret (hg _)

theorem Writing.flushUser {userId : Uuid} {changed : Bool} {assign : User → User} {clock : Clock}
    {g : Unit → Prog Db Error γ} (h : Writing t T w s)
    (hg : ∀ s', Writing t T w s' → Meets t Q (g ()) s') :
    Meets t Q (Iam.flushUser userId changed assign clock >>= g) s := by
  refine meets_bind ?_
  unfold Iam.flushUser
  split
  · exact h.update elsewhere_users (fun _ _ _ _ _ _ => trivial) fun _ s' hs' => meets_ret (hg s' hs')
  · exact meets_ret (hg s h)

/-- After the commit only a row is read again. -/
theorem Writing.finish {T' : Access Db V} {k : Nat} {f : V → Reply} (h : Writing t T w s)
    (hended : ∀ W w' s' r, Solo schema t W w' s' →
      (∀ k, w'.tokens k = (T k).or (w.tokens k)) → TokenEnded security t a w r s') :
    Meets t (TokenEnded security t a w)
      (Sql.commit >>= fun _ => refreshRow T' k >>= fun v => pure (f v)) s := by
  refine h.commit fun W w' s' hs' hw' => ?_
  refine meets_bind (hs'.query ?_)
  split
  · exact meets_raise (hended W w' s' _ hs' hw')
  · exact meets_ret (meets_ret (hended W w' s' _ hs' hw'))

/-! ## Calls that write no token -/

theorem solo_addUser_tokens {user : User} {constraint : String} (hr : ∀ r, ¬ Renewed a r)
    (hnot : ∀ u r, ¬ ShutsOut security w u r a) (h : Solo schema t .nothing w s) :
    Meets t (TokenEnded security t a w) (addUser user constraint) s := by
  unfold addUser
  refine h.insertUnique Column.users (.free fun _ => trivial) (fun _ => ?_) fun k _ _ s₁ h₁ => ?_
  · exact meets_raise (.unchanged h (hr _) fun u => hnot u _)
  · refine meets_bind (h₁.query ?_)
    have h₁' : Writing t noRows w s₁ := Solo.writing h₁
    split
    · exact meets_raise (.unchanged h₁ (hr _) fun u => hnot u _)
    · refine meets_ret (h₁'.loadRoles fun _ => ?_)
      refine h₁'.emit fun _ s₂ h₂ => ?_
      refine h₂.finish fun W w' s' r hs' hw' => ?_
      exact ⟨W, w', hs', .unchanged (funext hw') (hr r) fun u => hnot u r⟩

theorem solo_updateUserProfile_tokens (userId : Uuid) (data : ProfileUpdate) (clock : Clock)
    (h : Solo schema t .nothing w s) :
    Meets t (TokenEnded security t (.updateUserProfile userId data clock) w)
      (updateUserProfile userId data clock) s := by
  have hr : ∀ r, ¬ Renewed (.updateUserProfile userId data clock) r := by
    rintro r ⟨_, _, _, _, ha, -⟩
    cases ha
  have h₀ : Writing t noRows w s := Solo.writing h
  refine h₀.getUserById fun found => ?_
  cases found with
  | none => exact meets_ret (.unchanged h (hr _) fun _ hu => hu)
  | some found =>
      refine h₀.flushUser fun s₁ h₁ => ?_
      refine h₁.emit fun _ s₂ h₂ => ?_
      refine h₂.finish fun W w' s' r hs' hw' => ?_
      exact ⟨W, w', hs', .unchanged (funext hw') (hr r) fun _ hu => hu⟩

/-! ## Calls that revoke tokens -/

theorem tokens_lens : Column.tokens.Lens where
  get_put _ _ := rfl
  put_put _ _ _ := rfl
  put_get _ := rfl

/-- The write set of a bulk revocation, over the committed tokens. -/
theorem revised_stamped {p : RefreshToken → Bool} {now : Time} {tokens : Nat → Option RefreshToken}
    (k : Nat) : (if (tokens k).any p = true then (tokens k).map (revoke now) else none).or
      (tokens k) = stamped p now tokens k := by
  cases hk : tokens k with
  | none => simp [stamped, hk]
  | some token => by_cases hp : p token = true <;> simp [stamped, hk, hp]

theorem solo_revokeAll {p : RefreshToken → Bool} {now : Time} {Q : Except Error Unit → Db → Prop}
    (h : Solo schema t .nothing w s)
    (hQ : ∀ T s', Writing t T w s' → (∀ k, (T k).or (w.tokens k) = stamped p now w.tokens k) →
      Q (.ok ()) s') : Meets t Q (updateAll Db.tokensT p (revoke now)) s := by
  refine h.updateAll Column.tokens tokens_lens (fun s' hs' => ?_) (Column.tokens_revoke now)
  exact hQ _ s' (Solo.writing hs') fun k => revised_stamped k

/-- A call that revokes the unrevoked tokens of one user. -/
theorem TokenAnswer.shut {w' : Rows} {userId : Uuid} {now : Time} (hr : ¬ Renewed a r)
    (hw' : w'.tokens = stamped (fun token => token.userId == userId && token.revokedAt.isNone)
      now w.tokens) (hu : ∀ u, ShutsOut security w u r a → u = userId) :
    TokenAnswer security t a r w w' := by
  refine .revoked _ now hw' hr fun u hshut k token hk huser => ?_
  rw [hu u hshut] at huser
  by_cases hnone : token.revokedAt = none
  · left
    simp [huser, hnone]
  · exact .inr hnone

theorem solo_changeUserPassword (userId : Uuid) (data : PasswordChange) (salt : String)
    (clock : Clock) (h : Solo schema t .nothing w s) :
    Meets t (TokenEnded security t (.changeUserPassword userId data salt clock) w)
      (changeUserPassword security userId data salt clock) s := by
  have hr : ∀ r, ¬ Renewed (.changeUserPassword userId data salt clock) r := by
    rintro r ⟨_, _, _, _, ha, -⟩
    cases ha
  refine (Solo.writing h).getUserById fun found => ?_
  cases found with
  | none =>
      refine meets_ret (.unchanged h (hr _) fun u hu => ?_)
      obtain ⟨-, hreply⟩ := hu
      cases hreply
  | some found =>
      show Meets t _ (if _ then _ else _) s
      split
      · refine meets_raise (.unchanged h (hr _) fun u hu => ?_)
        obtain ⟨-, hreply⟩ := hu
        cases hreply
      · refine meets_bind (solo_revokeAll h fun T s₁ h₁ hT => ?_)
        refine h₁.flushUser fun s₂ h₂ => ?_
        refine h₂.commit fun W w' s' hs' hw' => ?_
        have htokens := funext fun k => (hw' k).trans (hT k)
        exact meets_ret ⟨W, w', hs', .shut (hr _) htokens fun u hu => hu.1.symm⟩

theorem solo_adminResetUserPassword (userId : Uuid) (newPassword salt : String) (clock : Clock)
    (h : Solo schema t .nothing w s) :
    Meets t (TokenEnded security t (.adminResetUserPassword userId newPassword salt clock) w)
      (adminResetUserPassword security userId newPassword salt clock) s := by
  have hr : ∀ r, ¬ Renewed (.adminResetUserPassword userId newPassword salt clock) r := by
    rintro r ⟨_, _, _, _, ha, -⟩
    cases ha
  refine (Solo.writing h).getUserById fun found => ?_
  cases found with
  | none =>
      refine meets_ret (.unchanged h (hr _) fun u hu => ?_)
      obtain ⟨-, found, hreply⟩ := hu
      cases hreply
  | some found =>
      refine meets_bind (solo_revokeAll h fun T s₁ h₁ hT => ?_)
      refine h₁.flushUser fun s₂ h₂ => ?_
      refine h₂.finish fun W w' s' r hs' hw' => ?_
      have htokens := funext fun k => (hw' k).trans (hT k)
      exact ⟨W, w', hs', .shut (hr _) htokens fun u hu => hu.1.symm⟩

theorem Writing.emitDeactivated {userId : Uuid} {user : User} {status : String} {now : Time}
    {g : Unit → Prog Db Error γ} (h : Writing t T w s)
    (hg : ∀ s', Writing t T w s' → Meets t Q (g ()) s') :
    Meets t Q (Iam.emitDeactivated userId user status now >>= g) s := by
  refine meets_bind ?_
  unfold Iam.emitDeactivated
  split
  · exact h.emit fun _ s' hs' => meets_ret (hg s' hs')
  · exact meets_ret (hg s h)

theorem solo_setUserStatus_tokens (userId : Uuid) (status : String) (clock : Clock)
    (h : Solo schema t .nothing w s) :
    Meets t (TokenEnded security t (.setUserStatus userId status clock) w)
      (setUserStatus userId status clock) s := by
  have hr : ∀ r, ¬ Renewed (.setUserStatus userId status clock) r := by
    rintro r ⟨_, _, _, _, ha, -⟩
    cases ha
  refine (Solo.writing h).getUserById fun found => ?_
  cases found with
  | none =>
      refine meets_ret (.unchanged h (hr _) fun u hu => ?_)
      obtain ⟨-, -, found, hreply⟩ := hu
      cases hreply
  | some found =>
      refine meets_bind ?_
      unfold shutOut
      split
      · refine solo_revokeAll h fun T s₁ h₁ hT => ?_
        refine h₁.flushUser fun s₂ h₂ => ?_
        refine h₂.emitDeactivated fun s₃ h₃ => h₃.emit fun _ s₄ h₄ => ?_
        refine h₄.finish fun W w' s' r hs' hw' => ?_
        have htokens := funext fun k => (hw' k).trans (hT k)
        exact ⟨W, w', hs', .shut (hr r) htokens fun u hu => hu.1.symm⟩
      · rename_i hstays
        refine meets_ret ((Solo.writing h).flushUser fun s₂ h₂ => ?_)
        refine h₂.emitDeactivated fun s₃ h₃ => h₃.emit fun _ s₄ h₄ => ?_
        refine h₄.finish fun W w' s' r hs' hw' => ?_
        refine ⟨W, w', hs', .unchanged (funext hw') (hr r) fun u hu => ?_⟩
        rw [hu.2.1] at hstays
        exact hstays rfl

theorem Writing.emitSuspended {tenantId : Uuid} {status : String} {now : Time}
    {g : Unit → Prog Db Error γ} (h : Writing t T w s)
    (hg : ∀ s', Writing t T w s' → Meets t Q (g ()) s') :
    Meets t Q (Iam.emitSuspended tenantId status now >>= g) s := by
  refine meets_bind ?_
  unfold Iam.emitSuspended
  split
  · exact h.emit fun _ s' hs' => meets_ret (hg s' hs')
  · exact meets_ret (hg s h)

theorem Writing.flushTenant {tenantId : Uuid} {loaded status : String}
    {g : Unit → Prog Db Error γ} (h : Writing t T w s)
    (hg : ∀ s', Writing t T w s' → Meets t Q (g ()) s') :
    Meets t Q (Iam.flushTenant tenantId loaded status >>= g) s := by
  refine meets_bind ?_
  unfold Iam.flushTenant
  split
  · exact h.update elsewhere_tenants (fun _ _ _ _ _ _ => trivial)
      fun _ s' hs' => meets_ret (hg s' hs')
  · exact meets_ret (hg s h)

/-- The token belongs to a user of the tenant. -/
def Rows.inTenant (w : Rows) (tenantId : Uuid) (token : RefreshToken) : Bool :=
  (w.users token.userId).any fun user => user.tenantId == some tenantId

theorem mem_tenantUsers (h : Solo schema t .nothing w s) {tenantId userId : Uuid} :
    userId ∈ ((s.users.scan t).filter fun row => row.2.tenantId == some tenantId).map
      Prod.fst ↔ (w.users userId).any (fun user => user.tenantId == some tenantId) = true := by
  have hscan : ∀ k user, (k, user) ∈ s.users.scan t ↔ w.users k = some user := by
    intro k user
    have hmem := Column.users.mem_scan (t := t) h.bounded (k := k) (v := user)
    rw [h.writes, h.rows] at hmem
    exact hmem
  simp only [List.mem_map, List.mem_filter, Prod.exists, exists_and_right, exists_eq_right,
    Option.any_eq_true, hscan]

theorem solo_revokeTenantTokens {tenantId : Uuid} {now : Time}
    {Q : Except Error Unit → Db → Prop} (h : Solo schema t .nothing w s)
    (hQ : ∀ T s', Writing t T w s' → (∀ k, (T k).or (w.tokens k) =
      stamped (fun token => w.inTenant tenantId token && token.revokedAt.isNone) now w.tokens k) →
      Q (.ok ()) s') : Meets t Q (revokeTenantTokens tenantId now) s := by
  unfold revokeTenantTokens
  refine h.query ?_
  have hfilter : (fun token : RefreshToken => (((s.users.scan t).filter fun row =>
      row.2.tenantId == some tenantId).map Prod.fst).contains token.userId &&
        token.revokedAt.isNone) =
      fun token => w.inTenant tenantId token && token.revokedAt.isNone := by
    funext token
    congr 1
    rw [Bool.eq_iff_iff, List.contains_iff_mem]
    exact mem_tenantUsers h
  simp only [hfilter]
  obtain ⟨hnodup, hall⟩ := h.matching Column.tokens
    (p := fun token => w.inTenant tenantId token && token.revokedAt.isNone)
  have hrows : (fun row : Nat × RefreshToken => (((s.users.scan t).filter fun row =>
      row.2.tenantId == some tenantId).map Prod.fst).contains row.2.userId &&
        row.2.revokedAt.isNone) =
      fun row => w.inTenant tenantId row.2 && row.2.revokedAt.isNone :=
    funext fun row => congrFun hfilter row.2
  rw [hrows]
  refine h.updateRows Column.tokens tokens_lens hnodup (fun s' hs' => ?_)
    (Column.tokens_revoke now)
  rw [revised_all hall] at hs'
  exact hQ _ s' (Solo.writing hs') fun k => revised_stamped k

theorem solo_setTenantStatus (tenantId : Uuid) (status : String) (clock : Clock)
    (h : Solo schema t .nothing w s) :
    Meets t (TokenEnded security t (.setTenantStatus tenantId status clock) w)
      (setTenantStatus tenantId status clock) s := by
  have hr : ∀ r, ¬ Renewed (.setTenantStatus tenantId status clock) r := by
    rintro r ⟨_, _, _, _, ha, -⟩
    cases ha
  refine (Solo.writing h).query fun found => ?_
  cases found with
  | none =>
      refine meets_ret (.unchanged h (hr _) fun u hu => ?_)
      obtain ⟨-, -, found, hreply⟩ := hu
      cases hreply
  | some tenant =>
      refine meets_bind ?_
      unfold suspend
      split
      · refine solo_revokeTenantTokens h fun T s₁ h₁ hT => ?_
        refine h₁.flushTenant fun s₂ h₂ => ?_
        refine h₂.emitSuspended fun s₃ h₃ => h₃.emit fun _ s₄ h₄ => ?_
        refine h₄.finish fun W w' s' r hs' hw' => ?_
        have htokens := funext fun k => (hw' k).trans (hT k)
        refine ⟨W, w', hs', .revoked _ _ htokens (hr r) fun u hu k token hk huser => ?_⟩
        obtain ⟨-, ⟨user, hrow, htenant⟩, -⟩ := hu
        by_cases hnone : token.revokedAt = none
        · left
          simp [Rows.inTenant, huser, hrow, htenant, hnone]
        · exact .inr hnone
      · rename_i hstays
        refine meets_ret ((Solo.writing h).flushTenant fun s₂ h₂ => ?_)
        refine h₂.emitSuspended fun s₃ h₃ => h₃.emit fun _ s₄ h₄ => ?_
        refine h₄.finish fun W w' s' r hs' hw' => ?_
        refine ⟨W, w', hs', .unchanged (funext hw') (hr r) fun u hu => ?_⟩
        rw [hu.1] at hstays
        exact hstays rfl

/-! ## Calls that issue tokens -/

theorem solo_issuePair {userId : Uuid} {user : User} {roles : List String}
    {rotatedFrom : Option Uuid} {draw : Draw} {clock : Clock} (h : Solo schema t W w s)
    {Q : Except Error Reply → Db → Prop} (hcollision : Q (.error (.integrityError "token_hash")) s)
    (hissued : ∀ j pair w' s', w.tokens j = none → Solo schema t .nothing w' s' →
      w'.tokens = Function.update (fun k => (W.tokens k).or (w.tokens k)) j
        (some (newToken security userId rotatedFrom draw clock t)) →
      Q (.ok (.pair (some pair))) s') :
    Meets t Q (issuePair security userId user roles rotatedFrom draw clock) s := by
  unfold issuePair
  refine h.insertUnique Column.tokens (Column.tokens_insert fun _ => rfl)
    (fun _ => meets_raise hcollision) fun j hj _ s₁ h₁ => ?_
  refine h₁.commit fun s' hs' => meets_ret (hissued j _ _ s' hj.fresh hs' ?_)
  funext k
  show (Function.update W.tokens j _ k).or (w.tokens k) = _
  by_cases hk : k = j
  · subst hk
    rw [Function.update_self, Function.update_self]
    rfl
  · rw [Function.update_of_ne hk, Function.update_of_ne hk]

theorem solo_login (data : LoginRequest) (draw : Draw) (clock : Clock)
    (h : Solo schema t .nothing w s) :
    Meets t (TokenEnded security t (.login data draw clock) w) (login security data draw clock)
      s := by
  have hended : ∀ r, TokenEnded security t (.login data draw clock) w r s := by
    intro r
    refine .unchanged h ?_ fun _ hu => hu
    rintro ⟨_, _, _, _, ha, -⟩
    cases ha
  have h₀ : Writing t noRows w s := Solo.writing h
  have huser : ∀ id (user : User) roles, Meets t
      (TokenEnded security t (.login data draw clock) w)
      (if security.verifyPassword data.password user.passwordHash = false then
        pure (.pair none)
      else if user.isActive = false then .raise (.valueError "USER_DISABLED")
      else issuePair security id user roles none draw clock) s := by
    intro id user roles
    split
    · exact meets_ret (hended _)
    · split
      · exact meets_raise (hended _)
      · exact solo_issuePair h (hended _) fun j pair w' s' hj hs' hw' =>
          ⟨_, w', hs', .issued hj hw'⟩
  have hrest : ∀ tenantId g, Meets t (TokenEnded security t (.login data draw clock) w) (g none) s →
      (∀ id user roles, Meets t (TokenEnded security t (.login data draw clock) w)
        (g (some (id, user, roles))) s) →
      Meets t (TokenEnded security t (.login data draw clock) w)
        (loginUser tenantId data.email >>= g) s := by
    intro tenantId g hnone hsome
    refine meets_bind (h₀.query fun rows => ?_)
    split
    · exact meets_ret hnone
    · exact h₀.loadRoles fun roles => meets_ret (hsome _ _ _)
  refine meets_bind ?_
  unfold loginTenant
  split
  · exact meets_ret (hrest none _ (meets_ret (hended _)) huser)
  · refine h₀.query fun rows => ?_
    split
    · exact meets_ret (meets_ret (hended _))
    · split
      · exact meets_raise (hended _)
      · exact meets_ret (hrest _ _ (meets_ret (hended _)) huser)

/-- What `refresh` returns and does to the tokens. -/
inductive RefreshAnswer (security : Security) (t : Sid) (rawToken : String) (draw : Draw)
    (clock : Clock) (w : Rows) : Except Error Reply → Rows → Prop
  | unknown (h : ∀ k token, w.tokens k = some token →
      token.tokenHash ≠ security.sha256 rawToken) :
      RefreshAnswer security t rawToken draw clock w (.ok (.pair none)) w
  | expired {k : Nat} {record : RefreshToken} (hk : w.tokens k = some record)
      (hhash : record.tokenHash = security.sha256 rawToken) (h : record.expiresAt < clock.now) :
      RefreshAnswer security t rawToken draw clock w (.ok (.pair none)) w
  | reused {k : Nat} {record : RefreshToken} {w' : Rows} (hk : w.tokens k = some record)
      (hhash : record.tokenHash = security.sha256 rawToken)
      (hlive : clock.now ≤ record.expiresAt) (hspent : record.revokedAt ≠ none)
      (hw' : w'.tokens = stamped (fun token => token.userId == record.userId) clock.now
        w.tokens) :
      RefreshAnswer security t rawToken draw clock w (.ok (.pair none)) w'
  /-- The user is not there or not active. -/
  | unserved {k : Nat} {record : RefreshToken} (hk : w.tokens k = some record)
      (hhash : record.tokenHash = security.sha256 rawToken) (hunspent : record.revokedAt = none) :
      RefreshAnswer security t rawToken draw clock w (.ok (.pair none)) w
  | collided {k : Nat} {record : RefreshToken} (hk : w.tokens k = some record)
      (hhash : record.tokenHash = security.sha256 rawToken) (hunspent : record.revokedAt = none) :
      RefreshAnswer security t rawToken draw clock w (.error (.integrityError "token_hash")) w
  | rotated {k j : Nat} {record : RefreshToken} {pair : TokenPair} {w' : Rows}
      (hk : w.tokens k = some record) (hhash : record.tokenHash = security.sha256 rawToken)
      (hunspent : record.revokedAt = none) (hj : w.tokens j = none)
      (hw' : w'.tokens = Function.update (Function.update w.tokens k
        (some (revoke clock.now record))) j
        (some (newToken security record.userId (some k) draw clock t))) :
      RefreshAnswer security t rawToken draw clock w (.ok (.pair (some pair))) w'

/-- Tokens with the same hash are the same. -/
def Rows.HashKeyed (w : Rows) : Prop :=
  ∀ j k x y, w.tokens j = some x → w.tokens k = some y → x.tokenHash = y.tokenHash → j = k

theorem Solo.hashKeyed (h : Solo schema t W w s) : w.HashKeyed := by
  intro j k x y hj hk hhash
  have hkeyed : s.tokens.Keyed RefreshToken.tokenHash := (h.bounded .tokens).2
  have hcommitted : s.tokens.committed = w.tokens := congrArg Rows.tokens h.rows
  rw [← hcommitted] at hj hk
  exact (hkeyed j k x y (.inl hj) (.inl hk)).mp hhash

variable (security) in
theorem solo_refresh (rawToken : String) (draw : Draw) (clock : Clock)
    (h : Solo schema t .nothing w s) :
    Meets t (fun r s' => ∃ W w', Solo schema t W w' s' ∧
      RefreshAnswer security t rawToken draw clock w r w')
      (refresh security rawToken draw clock) s := by
  have hscan : ∀ k token, (k, token) ∈ s.tokens.scan t ↔ w.tokens k = some token := by
    intro k token
    have hmem := Column.tokens.mem_scan (t := t) h.bounded (k := k) (v := token)
    rw [h.writes, h.rows] at hmem
    exact hmem
  refine h.query ?_
  cases hfirst : (((Db.tokensT.get s).scan t).filter fun row =>
      row.2.tokenHash == security.sha256 rawToken).head? with
  | none =>
      refine meets_ret ⟨_, w, h, .unknown fun k token hk hhash => ?_⟩
      have hmem : (k, token) ∈ ((Db.tokensT.get s).scan t).filter fun row =>
          row.2.tokenHash == security.sha256 rawToken :=
        List.mem_filter.mpr ⟨(hscan k token).mpr hk, by simpa using hhash⟩
      rw [List.head?_eq_none_iff.mp hfirst] at hmem
      cases hmem
  | some found =>
      obtain ⟨k, record⟩ := found
      have hmem := List.mem_of_mem_head? (Option.mem_def.mpr hfirst)
      have hk : w.tokens k = some record := (hscan k record).mp (List.mem_filter.mp hmem).1
      have hhash : record.tokenHash = security.sha256 rawToken := by
        simpa using (List.mem_filter.mp hmem).2
      show Meets t _ (if _ then _ else if _ then _ else _) s
      split
      · rename_i hexpired
        exact meets_ret ⟨_, w, h, .expired hk hhash hexpired⟩
      · rename_i hlive
        split
        · rename_i hspent
          refine meets_bind (solo_revokeAll h fun T s₁ h₁ hT => ?_)
          refine h₁.commit fun W w' s' hs' hw' => meets_ret ⟨W, w', hs', ?_⟩
          have htokens := funext fun j => (hw' j).trans (hT j)
          exact .reused hk hhash (Int.not_lt.mp hlive) (Option.isSome_iff_ne_none.mp hspent) htokens
        · rename_i hspent
          have hunspent : record.revokedAt = none := by simpa using hspent
          refine (Solo.writing h).getUserById fun found => ?_
          cases found with
          | none => exact meets_ret ⟨_, w, h, .unserved hk hhash hunspent⟩
          | some found =>
              show Meets t _ (if _ then _ else _) s
              split
              · exact meets_ret ⟨_, w, h, .unserved hk hhash hunspent⟩
              · refine h.update Column.tokens (Column.tokens_revoke clock.now) (fun hno => ?_)
                  fun v hv _ s₁ h₁ => ?_
                · have hfalse := hno record hk
                  cases hfalse
                · have hv' : w.tokens k = some v := hv
                  rw [hk] at hv'
                  cases hv'
                  refine solo_issuePair h₁ ⟨_, w, h₁, .collided hk hhash hunspent⟩ ?_
                  intro j pair w' s' hj hs' hw'
                  refine ⟨_, w', hs', .rotated hk hhash hunspent hj ?_⟩
                  rw [hw']
                  congr 1
                  funext i
                  show (Function.update (fun _ => none) k (some (revoke clock.now record)) i).or
                    (w.tokens i) = _
                  by_cases hi : i = k
                  · subst hi
                    rw [Function.update_self, Function.update_self]
                    rfl
                  · rw [Function.update_of_ne hi, Function.update_of_ne hi]
                    rfl

/-- Only a reuse shuts the user out. -/
theorem RefreshAnswer.answer {rawToken : String} {draw : Draw} {clock : Clock} {w' : Rows}
    (hkeyed : w.HashKeyed) (h : RefreshAnswer security t rawToken draw clock w r w') :
    TokenAnswer security t (.refresh rawToken draw clock) r w w' := by
  have hfails : ∀ {r : Except Error Reply}, (∀ pair, r ≠ .ok (.pair (some pair))) →
      ¬ Renewed (.refresh rawToken draw clock) r := by
    rintro r hr ⟨_, _, _, pair, -, rfl⟩
    exact hr pair rfl
  have hsame : ∀ k record, w.tokens k = some record →
      record.tokenHash = security.sha256 rawToken → ∀ u,
      ShutsOut security w u r (.refresh rawToken draw clock) →
        record.userId = u ∧ record.revokedAt ≠ none ∧ clock.now ≤ record.expiresAt := by
    rintro k record hk hhash u ⟨k', record', hk', hhash', huser, hspent, hlive⟩
    have hkk' := hkeyed k k' record record' hk hk' (hhash.trans hhash'.symm)
    subst hkk'
    rw [hk] at hk'
    cases hk'
    exact ⟨huser, hspent, hlive⟩
  cases h with
  | unknown hnone =>
      refine .unchanged rfl (hfails fun _ hr => by cases hr) fun u hu => ?_
      obtain ⟨k, record, hk, hhash, -⟩ := hu
      exact hnone k record hk hhash
  | expired hk hhash hexpired =>
      refine .unchanged rfl (hfails fun _ hr => by cases hr) fun u hu => ?_
      exact absurd (hsame _ _ hk hhash u hu).2.2 (Int.not_le.mpr hexpired)
  | @reused k record w' hk hhash hlive hspent hw' =>
      refine .revoked _ _ hw' (hfails fun _ hr => by cases hr) fun u hu j token hj huser => ?_
      left
      simp [huser, (hsame k record hk hhash u hu).1]
  | unserved hk hhash hunspent =>
      refine .unchanged rfl (hfails fun _ hr => by cases hr) fun u hu => ?_
      exact (hsame _ _ hk hhash u hu).2.1 hunspent
  | collided hk hhash hunspent =>
      refine .unchanged rfl (hfails fun _ hr => by cases hr) fun u hu => ?_
      exact (hsame _ _ hk hhash u hu).2.1 hunspent
  | rotated hk hhash hunspent hj hw' => exact .rotated hk hhash hunspent hj hw'

/-! ## All calls -/

theorem token_answers (env : Env) :
    Answers schema (Call.body env) (TokenAnswer env.security) := by
  intro a t w s hs
  have h : Solo schema t .nothing w s := hs.solo t
  have hother : (∀ rawToken draw clock, a ≠ .refresh rawToken draw clock) → ∀ r, ¬ Renewed a r := by
    rintro ha r ⟨_, _, _, _, rfl, -⟩
    exact ha _ _ _ rfl
  cases a with
  | registerGlobalUser data salt clock =>
      have hr := hother fun _ _ _ ha => by cases ha
      show Meets t _ (registerGlobalUser env.security env.nearest data salt clock) s
      unfold registerGlobalUser
      split
      · refine meets_bind ?_
        unfold getNearestTenantId
        split
        · refine (Solo.writing h).query fun rows => ?_
          exact meets_ret (solo_addUser_tokens hr (fun _ _ hu => hu) h)
        · exact meets_ret (solo_addUser_tokens hr (fun _ _ hu => hu) h)
      · exact meets_raise (TokenEnded.unchanged h (hr _) fun _ hu => hu)
  | registerTenantUser tenantId data salt clock =>
      have hr := hother fun _ _ _ ha => by cases ha
      show Meets t _ (registerTenantUser env.security tenantId data salt clock) s
      unfold registerTenantUser
      split
      · exact solo_addUser_tokens hr (fun _ _ hu => hu) h
      · exact meets_raise (TokenEnded.unchanged h (hr _) fun _ hu => hu)
  | login data draw clock => exact solo_login data draw clock h
  | refresh rawToken draw clock =>
      obtain ⟨r, s', hx, W, w', hs', hanswer⟩ :=
        solo_refresh env.security rawToken draw clock h
      exact ⟨r, s', hx, W, w', hs', hanswer.answer (Solo.hashKeyed h)⟩
  | updateUserProfile userId data clock => exact solo_updateUserProfile_tokens userId data clock h
  | changeUserPassword userId data salt clock =>
      exact solo_changeUserPassword userId data salt clock h
  | adminResetUserPassword userId newPassword salt clock =>
      exact solo_adminResetUserPassword userId newPassword salt clock h
  | setUserStatus userId status clock => exact solo_setUserStatus_tokens userId status clock h
  | setTenantStatus tenantId status clock => exact solo_setTenantStatus tenantId status clock h

end Solo
end Iam
end Rcp
