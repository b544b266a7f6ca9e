/-
Every call of the identity service keeps the discipline of the refresh tokens.

Most calls write no token or only revoke some.  For these one assertion is carried
through all statements: the session's token rows are revoked versions of the
committed ones.  Only `_issue_pair` inserts a token.
-/
import Rcp.Iam.Commit

namespace Rcp
namespace Iam

open Sql Sql.Table

section Loose

variable {security : Security} {adm : Db → Db → Prop} {a : Call} {t : Sid} {s : Db}
  {γ V : Type} {Q : Except Error γ → Db → Prop}

/-- The session has written no token but revocations. -/
def Loose (security : Security) (t : Sid) (s : Db) : Prop :=
  ∃ W, Holding schema (policy security) t W s ∧ Revokes W s.rows

theorem Loose.idle (hs : Holding schema (policy security) t .nothing s) : Loose security t s :=
  ⟨.nothing, hs, fun _ _ h => by cases h⟩

theorem Loose.resumed {W : Rows} {u : Db}
    (hu : Resumed schema (policy security) t W (schema.rows s) u) (h : Revokes W s.rows) :
    Loose security t u :=
  ⟨W, hu.toHolding, h.drift hu.drift⟩

theorem safe_loose_query {β : Type} {f : Sid → Db → β} {g : β → Prog Db Error γ}
    (hs : Loose security t s)
    (hg : ∀ b u, Loose security t u → Safe (discipline security) adm a t Q (g b) u) :
    Safe (discipline security) adm a t Q (query f >>= g) s := by
  obtain ⟨W, hs, hW⟩ := hs
  exact safe_query hs fun u hu => hg _ u (.resumed hu hW)

/-- A table other than that of the tokens. -/
def Elsewhere (K : Column schema V) : Prop := ∀ F W, (K.put F W).tokens = W.tokens

theorem safe_loose_update {K : Column schema V} (hK : Elsewhere K) {k : Nat} {p : V → Bool}
    {f : V → V} {g : Option V → Prog Db Error γ} (hf : K.Updates f) (hs : Loose security t s)
    (hg : ∀ b u, Loose security t u → Safe (discipline security) adm a t Q (g b) u) :
    Safe (discipline security) adm a t Q (updateWhere K.access k p f >>= g) s := by
  obtain ⟨W, hs, hW⟩ := hs
  refine safe_update K hs hf (fun _ u hu => hg _ u (.resumed hu hW)) fun v _ _ u hu => ?_
  refine hg _ u (.resumed hu fun k token hk => ?_)
  rw [hK] at hk
  exact hW k token hk

theorem safe_loose_insert {K : Column schema V} (hK : Elsewhere K) {row : Nat → V}
    {g : Nat → Prog Db Error γ} (hrow : K.Inserts row) (hs : Loose security t s)
    (hg : ∀ b u, Loose security t u → Safe (discipline security) adm a t Q (g b) u) :
    Safe (discipline security) adm a t Q (Sql.insert K.access row >>= g) s := by
  obtain ⟨W, hs, hW⟩ := hs
  refine safe_insert K hs hrow fun j _ _ u hu => hg _ u (.resumed hu fun k token hk => ?_)
  rw [hK] at hk
  exact hW k token hk

theorem safe_loose_insertUnique {K : Column schema V} (hK : Elsewhere K) {c : V → Bool}
    {row : Sid → V} {g : Option Nat → Prog Db Error γ} (hrow : K.InsertsUnique c row)
    (hs : Loose security t s)
    (hg : ∀ b u, Loose security t u → Safe (discipline security) adm a t Q (g b) u) :
    Safe (discipline security) adm a t Q (insertUnique K.access c row >>= g) s := by
  obtain ⟨W, hs, hW⟩ := hs
  refine safe_insertUnique K hs hrow (fun u hu => hg _ u (.resumed hu hW))
    fun j _ _ _ u hu => hg _ u (.resumed hu fun k token hk => ?_)
  rw [hK] at hk
  exact hW k token hk

theorem Revokes.write {W w : Rows} (h : Revokes W w) {k : Nat} {token : RefreshToken} {now : Time}
    (hk : (W.overlay w).tokens k = some token) :
    Revokes (Column.tokens.put (Function.update (Column.tokens.get W) k
      (some (revoke now token))) W) w := by
  intro j x hj
  have hj' : Function.update W.tokens k (some (revoke now token)) j = some x := hj
  rw [Function.update_apply] at hj'
  split at hj'
  · rename_i heq
    subst heq
    cases hj'
    have hk' : (W.tokens j).or (w.tokens j) = some token := hk
    cases hW : W.tokens j with
    | none =>
        rw [hW] at hk'
        exact ⟨token, now, hk', rfl⟩
    | some old =>
        rw [hW] at hk'
        cases hk'
        obtain ⟨row, now', hrow, rfl⟩ := h j token hW
        exact ⟨row, now, hrow, rfl⟩
  · exact h j x hj'

theorem safe_revokeEach {p : RefreshToken → Bool} {now : Time} {keys : List Nat}
    (hs : Loose security t s) :
    Safe (discipline security) adm a t (Returns fun _ u => Loose security t u)
      (updateEach Db.tokensT p (revoke now) keys) s := by
  obtain ⟨W, hs, hW⟩ := hs
  refine safe_updateEach Column.tokens (A := Revokes) hs (Column.tokens_revoke now) hW ?_ ?_
  · exact fun W w w' h hd => h.drift hd
  · exact fun W w k v h hv _ => h.write hv

theorem safe_loose_commit {g : Unit → Prog Db Error γ} (hs : Loose security t s)
    (hg : ∀ u, Loose security t u → Safe (discipline security) adm a t Q (g ()) u) :
    Safe (discipline security) adm a t Q (commit >>= g) s := by
  obtain ⟨W, hs, hW⟩ := hs
  refine safe_commit (policy_lawful security) hs (fun _ => .inl (.revoked hW)) fun u hu => ?_
  exact hg u (.idle hu.toHolding)

/-! ## Parts of the calls -/

variable {β : Type} {g : β → Prog Db Error γ}

theorem safe_refreshRow {T : Access Db V} {k : Nat} {f : V → γ} (hs : Loose security t s) :
    Safe (discipline security) adm a t Ends (refreshRow T k >>= fun v => pure (f v)) s := by
  refine safe_bind (R := fun _ _ => True) ?_ fun _ _ _ => trivial
  refine safe_loose_query hs fun b u _ => ?_
  split
  · trivial
  · trivial

theorem safe_loadRoles {userId : Uuid} (hs : Loose security t s) :
    Safe (discipline security) adm a t (Returns fun _ u => Loose security t u)
      (loadRoles userId) s :=
  safe_loose_query hs fun _ _ hu => hu

theorem safe_getUserById {userId : Uuid} (hs : Loose security t s) :
    Safe (discipline security) adm a t (Returns fun _ u => Loose security t u)
      (getUserById userId) s := by
  refine safe_loose_query hs fun b u hu => ?_
  split
  · exact hu
  · exact safe_returns_bind (safe_loadRoles hu) fun _ v hv => hv

theorem safe_revokeTokens {userId : Uuid} {now : Time} (hs : Loose security t s) :
    Safe (discipline security) adm a t (Returns fun _ u => Loose security t u)
      (revokeTokens userId now) s := by
  exact safe_loose_query hs fun _ u hu => safe_revokeEach hu

theorem elsewhere_users : Elsewhere Column.users := fun _ _ => rfl

theorem elsewhere_tenants : Elsewhere Column.tenants := fun _ _ => rfl

theorem elsewhere_outbox : Elsewhere Column.outbox := fun _ _ => rfl

theorem safe_emit {routingKey : String} {tenantId : Option Uuid} {m : Message}
    {g : Nat → Prog Db Error γ} (hs : Loose security t s)
    (hg : ∀ b u, Loose security t u → Safe (discipline security) adm a t Q (g b) u) :
    Safe (discipline security) adm a t Q (emit Db.outboxT routingKey tenantId m >>= g) s :=
  safe_loose_insert elsewhere_outbox (fun _ _ _ _ => trivial) hs hg

theorem safe_flushUser {userId : Uuid} {changed : Bool} {assign : User → User} {clock : Clock}
    (hs : Loose security t s) :
    Safe (discipline security) adm a t (Returns fun _ u => Loose security t u)
      (flushUser userId changed assign clock) s := by
  unfold flushUser
  split
  · exact safe_loose_update elsewhere_users (fun _ _ _ _ _ _ => trivial) hs fun _ u hu => hu
  · exact hs

/-! ## Calls that issue no token -/

theorem safe_addUser {user : User} {constraint : String} (hs : Loose security t s) :
    Safe (discipline security) adm a t Ends (addUser user constraint) s := by
  unfold addUser
  refine safe_loose_insertUnique elsewhere_users (fun _ _ _ _ _ _ => trivial) hs fun b u hu => ?_
  cases b with
  | none => trivial
  | some id =>
      refine safe_bind (R := fun _ v => Loose security t v) ?_ fun user v hv => ?_
      · refine safe_loose_query hu fun b v hv => ?_
        split
        · trivial
        · exact hv
      · refine safe_bind (safe_loadRoles hv) fun roles z hz => ?_
        refine safe_emit hz fun _ z₁ h₁ => ?_
        exact safe_loose_commit h₁ fun z₂ h₂ => safe_refreshRow h₂

theorem safe_registerTenantUser (tenantId : Uuid) (data : TenantUserRegister) (salt : String)
    (clock : Clock) (hs : Loose security t s) :
    Safe (discipline security) adm a t Ends
      (registerTenantUser security tenantId data salt clock) s := by
  unfold registerTenantUser
  split
  · exact safe_addUser hs
  · trivial

theorem safe_registerGlobalUser
    (nearest : List (Uuid × Tenant) → PyFloat → PyFloat → Option Uuid)
    (data : GlobalUserRegister) (salt : String) (clock : Clock) (hs : Loose security t s) :
    Safe (discipline security) adm a t Ends
      (registerGlobalUser security nearest data salt clock) s := by
  unfold registerGlobalUser
  split
  · refine safe_bind (R := fun _ u => Loose security t u) ?_ fun _ u hu => safe_addUser hu
    unfold getNearestTenantId
    split
    · exact safe_loose_query hs fun _ u hu => hu
    · exact hs
  · trivial

theorem safe_updateUserProfile (userId : Uuid) (data : ProfileUpdate) (clock : Clock)
    (hs : Loose security t s) :
    Safe (discipline security) adm a t Ends (updateUserProfile userId data clock) s := by
  refine safe_bind (safe_getUserById hs) fun found u hu => ?_
  cases found with
  | none => trivial
  | some found =>
      refine safe_bind (safe_flushUser hu) fun _ v hv => ?_
      refine safe_emit hv fun _ z hz => ?_
      exact safe_loose_commit hz fun z₁ h₁ => safe_refreshRow h₁

theorem safe_changeUserPassword (userId : Uuid) (data : PasswordChange) (salt : String)
    (clock : Clock) (hs : Loose security t s) :
    Safe (discipline security) adm a t Ends
      (changeUserPassword security userId data salt clock) s := by
  refine safe_bind (safe_getUserById hs) fun found u hu => ?_
  cases found with
  | none => trivial
  | some found =>
      show Safe _ adm a t Ends (if _ then _ else _) u
      split
      · trivial
      · refine safe_bind (safe_revokeTokens hu) fun _ v hv => ?_
        refine safe_bind (safe_flushUser hv) fun _ z hz => ?_
        exact safe_loose_commit hz fun _ _ => trivial

theorem safe_adminResetUserPassword (userId : Uuid) (newPassword salt : String) (clock : Clock)
    (hs : Loose security t s) :
    Safe (discipline security) adm a t Ends
      (adminResetUserPassword security userId newPassword salt clock) s := by
  refine safe_bind (safe_getUserById hs) fun found u hu => ?_
  cases found with
  | none => trivial
  | some found =>
      refine safe_bind (safe_revokeTokens hu) fun _ v hv => ?_
      refine safe_bind (safe_flushUser hv) fun _ z hz => ?_
      exact safe_loose_commit hz fun z₁ h₁ => safe_refreshRow h₁

theorem safe_setUserStatus (userId : Uuid) (status : String) (clock : Clock)
    (hs : Loose security t s) :
    Safe (discipline security) adm a t Ends (setUserStatus userId status clock) s := by
  refine safe_bind (safe_getUserById hs) fun found u hu => ?_
  cases found with
  | none => trivial
  | some found =>
      refine safe_bind (R := fun _ v => Loose security t v) ?_ fun _ v hv => ?_
      · unfold shutOut
        split
        · exact safe_revokeTokens hu
        · exact hu
      refine safe_bind (safe_flushUser hv) fun _ z hz => ?_
      refine safe_bind (R := fun _ v => Loose security t v) ?_ fun _ z₁ h₁ => ?_
      · unfold emitDeactivated
        split
        · exact safe_emit hz fun _ _ h => h
        · exact hz
      refine safe_emit h₁ fun _ z₂ h₂ => ?_
      exact safe_loose_commit h₂ fun z₃ h₃ => safe_refreshRow h₃

theorem safe_setTenantStatus (tenantId : Uuid) (status : String) (clock : Clock)
    (hs : Loose security t s) :
    Safe (discipline security) adm a t Ends (setTenantStatus tenantId status clock) s := by
  refine safe_loose_query hs fun found u hu => ?_
  cases found with
  | none => trivial
  | some tenant =>
      refine safe_bind (R := fun _ v => Loose security t v) ?_ fun _ v hv => ?_
      · unfold suspend
        split
        · exact safe_loose_query hu fun _ v hv => safe_revokeEach hv
        · exact hu
      refine safe_bind (R := fun _ v => Loose security t v) ?_ fun _ z hz => ?_
      · unfold flushTenant
        split
        · exact safe_loose_update elsewhere_tenants (fun _ _ _ _ _ _ => trivial) hv fun _ _ h => h
        · exact hv
      refine safe_bind (R := fun _ v => Loose security t v) ?_ fun _ z₁ h₁ => ?_
      · unfold emitSuspended
        split
        · exact safe_emit hz fun _ _ h => h
        · exact hz
      refine safe_emit h₁ fun _ z₂ h₂ => ?_
      exact safe_loose_commit h₂ fun z₃ h₃ => safe_refreshRow h₃

end Loose

/-! ## Calls that issue tokens -/

section Issue

variable {security : Security} {adm : Db → Db → Prop} {a : Call} {t : Sid} {s : Db} {W : Rows}

/-- The write set with one more token. -/
def Rows.withToken (W : Rows) (j : Nat) (token : RefreshToken) : Rows :=
  { W with tokens := Function.update W.tokens j (some token) }

/-- The row that `_issue_pair` inserts. -/
def newToken (security : Security) (userId : Uuid) (rotatedFrom : Option Uuid) (draw : Draw)
    (clock : Clock) (t : Sid) : RefreshToken :=
  { userId := userId
    tokenHash := security.sha256 draw.refreshToken
    expiresAt := clock.later + refreshTokenTtl
    rotatedFrom := rotatedFrom
    insertedBy := t }

/-- Nothing is known of a call of another kind, or of one that returns no pair. -/
theorem done_trivial {r : Except Error Reply} {w : Rows}
    (h : ∀ rawToken draw clock pair, a = .refresh rawToken draw clock →
      r ≠ .ok (.pair (some pair))) : (ensures security).Done t a r w :=
  fun rawToken draw clock pair ha hr => absurd hr (h rawToken draw clock pair ha)

theorem safe_issuePair {userId : Uuid} {user : User} {roles : List String}
    {rotatedFrom : Option Uuid} {draw : Draw} {clock : Clock}
    (hs : Holding schema (policy security) t W s)
    (hc : ∀ (j : Nat) (z : Db),
      (∀ k x, W.tokens k = some x → z.rows.tokens k = s.rows.tokens k) →
      z.rows.tokens j = none → Commit security a z.rows
        (W.withToken j (newToken security userId rotatedFrom draw clock t)))
    (hdone : ∀ (j : Nat) (z : Db) (pair : TokenPair),
      (∀ k x, W.tokens k = some x → z.rows.tokens k = s.rows.tokens k) →
      z.rows.tokens j = none → (ensures security).Done t a
      (.ok (.pair (some pair)))
      ((W.withToken j (newToken security userId rotatedFrom draw clock t)).overlay z.rows)) :
    Safe (discipline security) adm a t ((discipline security).Done t a)
      (issuePair security userId user roles rotatedFrom draw clock) s := by
  unfold issuePair
  refine safe_insertUnique Column.tokens hs (Column.tokens_insert fun _ => rfl) (fun u _ => ?_)
    fun j hj _ _ z hz => ?_
  · exact done_trivial fun _ _ _ _ _ hr => by cases hr
  · have hnone : z.rows.tokens j = none :=
      hz.locked Column.tokens (k := j) (Function.update_self ..) hj
    have hlocked : ∀ k x, W.tokens k = some x → z.rows.tokens k = s.rows.tokens k := by
      intro k x hk
      by_cases hkj : k = j
      · subst hkj
        have hjs : s.rows.tokens k = none := hj
        rw [hnone, hjs]
      · exact hz.locked Column.tokens (k := k) ((Function.update_of_ne hkj ..).trans hk) rfl
    refine safe_commit (policy_lawful security) hz.toHolding (fun _ => .inl ?_) fun u hu => ?_
    · exact hc j z hlocked hnone
    · exact (ensures security).drift hu.drift (hdone j z _ hlocked hnone)

theorem safe_readUser {userId : Uuid} (hs : Holding schema (policy security) t .nothing s) :
    Safe (discipline security) adm a t (Returns fun _ u =>
      Holding schema (policy security) t .nothing u ∧ Evolves s.rows u.rows)
      (getUserById userId) s := by
  refine safe_query hs fun u hu => ?_
  have hev : Evolves s.rows u.rows := drift_evolves hu.drift
  split
  · exact ⟨hu.toHolding, hev⟩
  · refine safe_returns_bind (R := fun _ v => Holding schema (policy security) t .nothing v ∧
      Evolves s.rows v.rows) ?_ fun _ v hv => hv
    exact safe_query hu.toHolding fun v hv =>
      ⟨hv.toHolding, hev.trans (drift_evolves hv.drift)⟩

theorem safe_loginUser {tenantId : Option Uuid} {email : String}
    (hs : Holding schema (policy security) t .nothing s) :
    Safe (discipline security) adm a t
      (Returns fun _ u => Holding schema (policy security) t .nothing u)
      (loginUser tenantId email) s := by
  refine safe_query hs fun u hu => ?_
  split
  · exact hu.toHolding
  · refine safe_returns_bind (R := fun _ v => Holding schema (policy security) t .nothing v) ?_
      fun _ v hv => hv
    exact safe_query hu.toHolding fun v hv => hv.toHolding

theorem safe_login (data : LoginRequest) (draw : Draw) (clock : Clock)
    (hs : Holding schema (policy security) t .nothing s) :
    Safe (discipline security) adm (.login data draw clock) t
      ((discipline security).Done t (.login data draw clock))
      (login security data draw clock) s := by
  have hother : ∀ {r : Except Error Reply} {w : Rows},
      (ensures security).Done t (.login data draw clock) r w :=
    fun {r w} => done_trivial fun _ _ _ _ ha => by cases ha
  refine safe_then (R := fun _ u => Holding schema (policy security) t .nothing u) ?_
    (fun _ _ => hother) fun tenant u hu => ?_
  · unfold loginTenant
    split
    · exact hs
    · refine safe_query hs fun u hu => ?_
      split
      · exact hu.toHolding
      · split
        · trivial
        · exact hu.toHolding
  · cases tenant with
    | none => exact hother
    | some tenantId =>
        refine safe_then (safe_loginUser hu) (fun _ _ => hother) fun found v hv => ?_
        cases found with
        | none => exact hother
        | some found =>
            obtain ⟨id, user, roles⟩ := found
            show Safe _ adm _ t _ (if _ then _ else _) v
            split
            · exact hother
            · split
              · exact hother
              · refine safe_issuePair hv (fun j z _ hnone => ?_) fun _ _ _ _ _ => hother
                exact .issued hnone rfl rfl

theorem safe_refresh (rawToken : String) (draw : Draw) (clock : Clock)
    (hs : Holding schema (policy security) t .nothing s) :
    Safe (discipline security) adm (.refresh rawToken draw clock) t
      ((discipline security).Done t (.refresh rawToken draw clock))
      (refresh security rawToken draw clock) s := by
  have hnone : ∀ {w : Rows},
      (ensures security).Done t (.refresh rawToken draw clock) (.ok (.pair none)) w :=
    fun {w} => done_trivial fun _ _ _ _ _ hr => by cases hr
  have herror : ∀ {e : Error} {w : Rows},
      (ensures security).Done t (.refresh rawToken draw clock) (.error e) w :=
    fun {e w} => done_trivial fun _ _ _ _ _ hr => by cases hr
  refine safe_query hs fun u hu => ?_
  cases hfirst : (((Db.tokensT.get s).scan t).filter fun r =>
      r.2.tokenHash == security.sha256 rawToken).head? with
  | none => exact hnone
  | some found =>
      obtain ⟨id, record⟩ := found
      have hmem := List.mem_of_mem_head? (Option.mem_def.mpr hfirst)
      obtain ⟨hscan, hhash⟩ := List.mem_filter.mp hmem
      have hrecord : s.rows.tokens id = some record := by
        have hread := (Table.mem_scan (Column.tokens.bounded s hs.bounded)).mp hscan
        rw [hs.read_eq Column.tokens] at hread
        exact hread
      obtain ⟨record₁, hrecord₁, hsame₁⟩ := drift_evolves hu.drift id record hrecord
      show Safe _ adm _ t _ (if _ then _ else if _ then _ else _) u
      split
      · exact hnone
      · split
        · refine safe_then (R := fun _ v => Loose security t v) ?_ (fun _ _ => herror) fun _ v hv => ?_
          · exact safe_loose_query (.idle hu.toHolding) fun _ v hv => safe_revokeEach hv
          · exact safe_loose_commit hv fun _ _ => hnone
        · refine safe_then (safe_readUser hu.toHolding) (fun _ _ => herror) fun found v hv => ?_
          cases found with
          | none => exact hnone
          | some found =>
              obtain ⟨user, roles⟩ := found
              obtain ⟨hv, hev⟩ := hv
              obtain ⟨record₂, hrecord₂, hsame₂⟩ := hev id record₁ hrecord₁
              show Safe _ adm _ t _ (if _ then _ else _) v
              split
              · exact hnone
              · refine safe_update Column.tokens hv (Column.tokens_revoke clock.now) (fun hno => ?_)
                  fun row hrow _ z hz => ?_
                · have hfalse := hno record₂ hrecord₂
                  cases hfalse
                · have hrow' : v.rows.tokens id = some row := hrow
                  rw [hrecord₂] at hrow'
                  cases hrow'
                  have hz' : z.rows.tokens id = some record₂ :=
                    hz.locked Column.tokens (k := id) (single_self _ _) hrecord₂
                  have hhash₂ : record₂.tokenHash = security.sha256 rawToken := by
                    rw [hsame₂.hash, hsame₁.hash]
                    simpa using hhash
                  have hfrom : (newToken security record.userId (some id) draw clock t).rotatedFrom =
                      some id := rfl
                  have huser : (newToken security record.userId (some id) draw clock t).userId =
                      record₂.userId := by
                    rw [hsame₂.user, hsame₁.user]
                    rfl
                  refine safe_issuePair hz.toHolding (fun j x hlocked hnew => ?_)
                    fun j x pair hlocked hnew => ?_
                  · exact .rotated ((hlocked id _ (single_self _ _)).trans hz') hhash₂ hnew hfrom
                      huser rfl
                  · intro rawToken' draw' clock' pair' ha _
                    cases ha
                    have hx := (hlocked id _ (single_self _ _)).trans hz'
                    have hne : id ≠ j := by
                      rintro rfl
                      rw [hnew] at hx
                      cases hx
                    refine ⟨id, j, revoke clock.now record₂,
                      newToken security record.userId (some id) draw clock t, ?_, hhash₂, ?_, rfl, rfl⟩
                    · show (Function.update (single id (revoke clock.now record₂)) j _ id).or _ = _
                      rw [Function.update_of_ne hne, single_self]
                      rfl
                    · show (Function.update (single id (revoke clock.now record₂)) j _ j).or _ = _
                      rw [Function.update_self]
                      rfl

end Issue

/-! ## All calls -/

/-- A call of another kind need only end. -/
theorem Safe.done {security : Security} {adm : Db → Db → Prop} {a : Call} {t : Sid} {s : Db}
    {p : Prog Db Error Reply} (ha : ∀ rawToken draw clock, a ≠ .refresh rawToken draw clock)
    (h : Safe (discipline security) adm a t Ends p s) :
    Safe (discipline security) adm a t ((discipline security).Done t a) p s :=
  h.mono fun _ _ _ rawToken draw clock _ heq => absurd heq (ha rawToken draw clock)

theorem verified (env : Env) (adm : Call → Db → Db → Db → Prop) :
    (discipline env.security).Verified adm (Call.body env) := by
  intro a t s hi hidle
  have hs : Holding schema (policy env.security) t .nothing s := ⟨hi.1, hi.2, hidle⟩
  have hloose : Loose env.security t s := .idle hs
  cases a with
  | registerGlobalUser data salt clock =>
      apply Safe.done (fun _ _ _ h => by cases h)
      exact safe_registerGlobalUser env.nearest data salt clock hloose
  | registerTenantUser tenantId data salt clock =>
      apply Safe.done (fun _ _ _ h => by cases h)
      exact safe_registerTenantUser tenantId data salt clock hloose
  | login data draw clock => exact safe_login data draw clock hs
  | refresh rawToken draw clock => exact safe_refresh rawToken draw clock hs
  | updateUserProfile userId data clock =>
      apply Safe.done (fun _ _ _ h => by cases h)
      exact safe_updateUserProfile userId data clock hloose
  | changeUserPassword userId data salt clock =>
      apply Safe.done (fun _ _ _ h => by cases h)
      exact safe_changeUserPassword userId data salt clock hloose
  | adminResetUserPassword userId newPassword salt clock =>
      apply Safe.done (fun _ _ _ h => by cases h)
      exact safe_adminResetUserPassword userId newPassword salt clock hloose
  | setUserStatus userId status clock =>
      apply Safe.done (fun _ _ _ h => by cases h)
      exact safe_setUserStatus userId status clock hloose
  | setTenantStatus tenantId status clock =>
      apply Safe.done (fun _ _ _ h => by cases h)
      exact safe_setTenantStatus tenantId status clock hloose

end Iam
end Rcp
