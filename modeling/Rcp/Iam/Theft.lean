/-
The response to a stolen token.

A presented token that is revoked is taken for a stolen one, and all tokens of its user
are revoked, whatever chain they belong to and whatever the token was revoked for.
-/
import Rcp.Iam.Sessions

namespace Rcp
namespace Iam

open Sql Sql.Table Relation

/-- The tokens are linked through `rotated_from`, in either direction. -/
def Linked (tokens : Nat → Option RefreshToken) : Nat → Nat → Prop := EqvGen (Rotated tokens)

/-- A token that the call has changed is linked to the presented one, which had been
rotated. -/
def Confined (security : Security) (rawToken : String)
    (tokens tokens' : Nat → Option RefreshToken) : Prop :=
  ∀ j, tokens' j ≠ tokens j → ∃ k record, tokens k = some record ∧
    record.tokenHash = security.sha256 rawToken ∧ (∃ i, Rotated tokens k i) ∧ Linked tokens k j

/-- If the presented token is revoked and not expired, it has been rotated and its user has
no tokens but those of its chain, apart from tokens revoked at this very time. -/
def OneChain (security : Security) (rawToken : String) (now : Time)
    (tokens : Nat → Option RefreshToken) : Prop :=
  ∀ k record, tokens k = some record → record.tokenHash = security.sha256 rawToken →
    record.revokedAt ≠ none → now ≤ record.expiresAt →
    ∀ j token, tokens j = some token → token.userId = record.userId →
      token.revokedAt ≠ some now → (∃ i, Rotated tokens k i) ∧ Linked tokens k j

section Answer

variable {security : Security} {t : Sid} {rawToken : String} {draw : Draw} {clock : Clock}
  {w w' : Rows}

theorem confined_refl (tokens : Nat → Option RefreshToken) :
    Confined security rawToken tokens tokens := fun _ h => absurd rfl h

/-- The rows that a bulk revocation changes. -/
theorem stamped_ne {p : RefreshToken → Bool} {now : Time} {tokens : Nat → Option RefreshToken}
    {j : Nat} : stamped p now tokens j ≠ tokens j ↔
      ∃ token, tokens j = some token ∧ p token = true ∧ token.revokedAt ≠ some now := by
  cases hj : tokens j with
  | none => simp [stamped, hj]
  | some token =>
      have hsame : revoke now token = token ↔ token.revokedAt = some now := by
        constructor
        · intro h
          rw [← h]
          rfl
        · intro h
          rw [revoke, ← h]
      by_cases hp : p token = true
      · simp [stamped, hj, hp, hsame]
      · simp [stamped, hj, hp]

theorem RefreshAnswer.confined_iff (hkeyed : w.HashKeyed)
    (h : RefreshAnswer security t rawToken draw clock w (.ok (.pair none)) w') :
    Confined security rawToken w.tokens w'.tokens ↔
      OneChain security rawToken clock.now w.tokens := by
  have hsame : ∀ k record, w.tokens k = some record →
      record.tokenHash = security.sha256 rawToken → ∀ k' record', w.tokens k' = some record' →
      record'.tokenHash = security.sha256 rawToken → k' = k ∧ record' = record := by
    intro k record hk hhash k' record' hk' hhash'
    have hkk' := hkeyed k k' record record' hk hk' (hhash.trans hhash'.symm)
    subst hkk'
    rw [hk] at hk'
    cases hk'
    exact ⟨rfl, rfl⟩
  cases h with
  | unknown hnone =>
      refine iff_of_true (confined_refl _) fun k record hk hhash => ?_
      exact absurd hhash (hnone k record hk)
  | expired hk hhash hexpired =>
      refine iff_of_true (confined_refl _) fun k' record' hk' hhash' _ hlive => ?_
      obtain ⟨rfl, rfl⟩ := hsame _ _ hk hhash k' record' hk' hhash'
      exact absurd hexpired (Int.not_lt.mpr hlive)
  | unserved hk hhash hunspent =>
      refine iff_of_true (confined_refl _) fun k' record' hk' hhash' hspent => ?_
      obtain ⟨rfl, rfl⟩ := hsame _ _ hk hhash k' record' hk' hhash'
      exact absurd hunspent hspent
  | @reused k record _ hk hhash hlive hspent hw' =>
      rw [hw']
      constructor
      · intro hconfined k' record' hk' hhash' _ _ j token hj huser hnew
        obtain ⟨rfl, rfl⟩ := hsame k record hk hhash k' record' hk' hhash'
        have hp : (token.userId == record'.userId) = true := beq_iff_eq.mpr huser
        have hchanged : stamped (fun token => token.userId == record'.userId) clock.now
            w.tokens j ≠ w.tokens j := stamped_ne.mpr ⟨token, hj, hp, hnew⟩
        obtain ⟨k₁, record₁, hk₁, hhash₁, hrotated, hlinked⟩ := hconfined j hchanged
        obtain ⟨rfl, -⟩ := hsame k' record' hk hhash k₁ record₁ hk₁ hhash₁
        exact ⟨hrotated, hlinked⟩
      · intro hchain j hchanged
        obtain ⟨token, hj, hp, hnew⟩ := stamped_ne.mp hchanged
        have huser : token.userId = record.userId := by simpa using hp
        obtain ⟨hrotated, hlinked⟩ :=
          hchain k record hk hhash hspent hlive j token hj huser hnew
        exact ⟨k, record, hk, hhash, hrotated, hlinked⟩

end Answer

/-- After any sequence of calls, a refresh that returns nothing changes no token outside the
chain of the presented one exactly if that chain is all its user has. -/
theorem theft_confined_iff (env : Env) (tenants : List Tenant) (users : List User)
    (roleAssignments : List RoleAssignment) (l : List Call) :
    ∃ c : Cluster, (Config.start (Db.initial tenants users roleAssignments)).perform
        (Call.body env) l = some c ∧
      ∀ rawToken draw clock s', ((Call.refresh rawToken draw clock).body env).call c.fresh c.store =
          some (.ok (.pair none), s') →
        (Confined env.security rawToken c.store.tokens.committed s'.tokens.committed ↔
          OneChain env.security rawToken clock.now c.store.tokens.committed) := by
  obtain ⟨c, w, hperform, hrested, -⟩ := (token_answers env).perform
    (c := Config.start (Db.initial tenants users roleAssignments)) (J := fun _ _ => True)
    (fun _ _ _ _ _ _ _ _ _ _ => trivial) (initial_rested tenants users roleAssignments) trivial l
  refine ⟨c, hperform, fun rawToken draw clock s' hcall => ?_⟩
  have hsolo : Solo schema c.fresh .nothing w c.store := hrested.solo c.fresh
  obtain ⟨r, s₁, hexec, W, w', hs₁, hanswer⟩ :=
    solo_refresh env.security rawToken draw clock hsolo
  have hends : (refresh env.security rawToken draw clock).call c.fresh c.store =
      some (r, Transactional.rollback c.fresh s₁) := by
    rw [Prog.call, hexec]
    rfl
  obtain ⟨rfl, rfl⟩ := Prod.mk.inj (Option.some.inj (hends.symm.trans hcall))
  have hbefore : c.store.tokens.committed = w.tokens := congrArg Rows.tokens hrested.rows
  have hafter : (Transactional.rollback c.fresh s₁).tokens.committed = w'.tokens :=
    congrArg Rows.tokens hs₁.close.rows
  rw [hbefore, hafter]
  exact hanswer.confined_iff (Rested.hashKeyed hrested)

/-- Amara changes her password, logs in again, and an old client presents the first token. -/
def staleClient : List Call :=
  [.registerGlobalUser amara "salt" (tick 0),
    .login { email := amara.email, password := amara.password }
      { refreshToken := "first", jti := 1 } (tick 10),
    .changeUserPassword 0
      { currentPassword := amara.password, newPassword := "deep water" } "salt" (tick 20),
    .login { email := amara.email, password := "deep water" }
      { refreshToken := "second", jti := 2 } (tick 30)]

/-- The call returned no pair. -/
def refused : Except Error Reply → Bool
  | .ok (.pair none) => true
  | _ => false

theorem eq_of_refused {r : Except Error Reply} (h : refused r = true) : r = .ok (.pair none) := by
  unfold refused at h
  split at h
  · rfl
  · cases h

/-- When the second token was revoked, before and after, and that no token was rotated. -/
def staleFacts : Option (Option (Option Time) × Option (Option Time) × Bool × Bool) :=
  ((Config.start (Db.initial [] [] [])).perform (Call.body plain) staleClient).bind fun c =>
  (((Call.refresh "first" { refreshToken := "third", jti := 3 } (tick 40)).body plain).call
    c.fresh c.store).map fun r =>
    ((c.store.tokens.committed 1).map RefreshToken.revokedAt,
      (r.2.tokens.committed 1).map RefreshToken.revokedAt,
      decide (∀ row ∈ c.store.tokens.rows, row.2.rotatedFrom = none), refused r.1)

/-- The session that was opened with the new password is ended. -/
theorem theft_response_ends_other_login : ¬ ∀ (env : Env) (tenants : List Tenant)
    (users : List User) (roleAssignments : List RoleAssignment) (l : List Call) (c : Cluster),
    (Config.start (Db.initial tenants users roleAssignments)).perform (Call.body env) l = some c →
    ∀ rawToken draw clock s', ((Call.refresh rawToken draw clock).body env).call c.fresh c.store =
      some (.ok (.pair none), s') →
    Confined env.security rawToken c.store.tokens.committed s'.tokens.committed := by
  intro hclaim
  have hfacts : staleFacts = some (some none, some (some 41), true, true) := by decide +kernel
  obtain ⟨c, hc, hfacts⟩ := Option.bind_eq_some_iff.mp hfacts
  obtain ⟨⟨r, s'⟩, hcall, hfacts⟩ := Option.map_eq_some_iff.mp hfacts
  simp only [Prod.mk.injEq, decide_eq_true_eq] at hfacts
  obtain ⟨hbefore, hafter, hroots, hrefused⟩ := hfacts
  have hchanged : s'.tokens.committed 1 ≠ c.store.tokens.committed 1 := by
    intro hsame
    rw [hsame, hbefore] at hafter
    cases hafter
  rw [eq_of_refused hrefused] at hcall
  obtain ⟨k, record, -, -, ⟨i, token, hi, hfrom⟩, -⟩ := hclaim plain [] [] [] staleClient c hc
    "first" { refreshToken := "third", jti := 3 } (tick 40) s' hcall 1 hchanged
  have hrun := Config.perform_run (fun _ => rfl) hc
  have hsound := Run.sound (verified plain fun _ _ _ _ => True)
    (start_sound plain.security (fun _ _ _ _ => True) [] [] []) hrun
  have hroot := hroots (i, token) ((mem_rows (hsound.inv.1 .tokens).1).mpr hi)
  rw [hfrom] at hroot
  cases hroot

end Iam
end Rcp
