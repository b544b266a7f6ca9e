/-
How often a refresh token is exchanged.

`refresh` looks the token up without a lock and checks `revoked_at` there.  The write
that spends the token comes some statements later and does not look again.  In a run
in which every exchange finds its token unrevoked when it commits, a token has at most
one successor and at most one call returns a pair for it.
-/
import Rcp.Iam.Verified
import Rcp.Sql.Schedule

namespace Rcp
namespace Iam

open Sql Sql.Table

abbrev Cluster := Config Db Error Reply Call

/-- Whenever a step commits a successor, the token it replaces was not revoked before the
step. -/
def ExchangesUnspent (_ : Call) (_ s s' : Db) : Prop :=
  ∀ row ∈ s'.tokens.rows, s.tokens.committed row.1 = none →
    ∀ k ∈ row.2.rotatedFrom, ∀ token ∈ s.tokens.committed k, token.revokedAt = none

instance (a : Call) (s₀ s s' : Db) : Decidable (ExchangesUnspent a s₀ s s') := by
  unfold ExchangesUnspent
  infer_instance

/-- Every token has at most one successor, and one that has a successor is revoked. -/
structure Chains (w : Rows) : Prop where
  once : ∀ i j x y k, w.tokens i = some x → w.tokens j = some y →
    x.rotatedFrom = some k → y.rotatedFrom = some k → i = j
  spent : ∀ j y k, w.tokens j = some y → y.rotatedFrom = some k →
    ∃ token, w.tokens k = some token ∧ token.revokedAt ≠ none

section Commits

variable {security : Security} {a : Call} {w W : Rows}

/-- The tokens after a commit: evolved ones, and at most one new one, whose predecessor
the commit revokes. -/
theorem Commit.tokens (h : Commit security a w W) :
    (∀ i x, (W.overlay w).tokens i = some x → ∃ x₀, w.tokens i = some x₀ ∧ SameToken x₀ x) ∨
    ∃ j y, w.tokens j = none ∧ (W.overlay w).tokens j = some y ∧
      (∀ i x, i ≠ j → (W.overlay w).tokens i = some x →
        ∃ x₀, w.tokens i = some x₀ ∧ SameToken x₀ x) ∧
      ∀ k, y.rotatedFrom = some k → ∃ token token', w.tokens k = some token ∧
        (W.overlay w).tokens k = some token' ∧ token'.revokedAt ≠ none := by
  cases h with
  | @rotated _ _ clock _ _ k j record successor hk hhash hj hfrom huser hW =>
      have hkj : k ≠ j := by
        rintro rfl
        rw [hj] at hk
        cases hk
      have hover : ∀ i, (W.overlay w).tokens i = (Function.update
          (single k (revoke clock.now record)) j (some successor) i).or (w.tokens i) := by
        intro i
        rw [← hW]
        rfl
      refine .inr ⟨j, successor, hj, ?_, fun i x hi hx => ?_, fun k' hk' => ?_⟩
      · rw [hover, Function.update_self]
        rfl
      · rw [hover, Function.update_of_ne hi] at hx
        by_cases hik : i = k
        · subst hik
          rw [single_self] at hx
          cases hx
          exact ⟨record, hk, sameToken_revoke _ _⟩
        · rw [single_of_ne _ hik] at hx
          exact ⟨x, hx, .refl x⟩
      · rw [hfrom] at hk'
        cases hk'
        refine ⟨record, revoke clock.now record, hk, ?_, fun hnone => by cases hnone⟩
        rw [hover, Function.update_of_ne hkj, single_self]
        rfl
  | @issued _ _ _ _ _ j token hj hroot hW =>
      have hover : ∀ i, (W.overlay w).tokens i = (single j token i).or (w.tokens i) := by
        intro i
        rw [← hW]
        rfl
      refine .inr ⟨j, token, hj, ?_, fun i x hi hx => ?_, fun k hk => ?_⟩
      · rw [hover, single_self]
        rfl
      · rw [hover, single_of_ne _ hi] at hx
        exact ⟨x, hx, .refl x⟩
      · rw [hroot] at hk
        cases hk
  | revoked hrevokes =>
      refine .inl fun i x hx => ?_
      have hx' : (W.tokens i).or (w.tokens i) = some x := hx
      cases hi : W.tokens i with
      | none =>
          rw [hi] at hx'
          exact ⟨x, hx', .refl x⟩
      | some y =>
          rw [hi] at hx'
          cases hx'
          obtain ⟨old, now, hold, rfl⟩ := hrevokes i x hi
          exact ⟨old, hold, sameToken_revoke now old⟩

/-- A token that was there before a commit still has its successor and is still spent. -/
theorem Chains.kept (hw : Chains w) (h : Commit security a w W) {i : Nat} {x : RefreshToken}
    {k : Nat} (hi : ∃ x₀, w.tokens i = some x₀ ∧ SameToken x₀ x) (hk : x.rotatedFrom = some k) :
    ∃ token token', w.tokens k = some token ∧ token.revokedAt ≠ none ∧
      (W.overlay w).tokens k = some token' ∧ token'.revokedAt ≠ none := by
  obtain ⟨x₀, hx₀, hsame⟩ := hi
  obtain ⟨token, htoken, hrevoked⟩ := hw.spent i x₀ k hx₀ (hsame.parent.symm.trans hk)
  obtain ⟨token', htoken', hsame'⟩ := h.evolves k token htoken
  exact ⟨token, token', htoken, hrevoked, htoken', hsame'.revoked hrevoked⟩

theorem Chains.commit (hw : Chains w) (h : Commit security a w W)
    (hunspent : ∀ j y k token, w.tokens j = none → (W.overlay w).tokens j = some y →
      y.rotatedFrom = some k → w.tokens k = some token → token.revokedAt = none) :
    Chains (W.overlay w) := by
  rcases h.tokens with hold | ⟨j, y, hj, hy, hold, hnew⟩
  · refine ⟨fun i i' x x' k hi hi' hk hk' => ?_, fun i x k hi hk => ?_⟩
    · obtain ⟨x₀, hx₀, hsame⟩ := hold i x hi
      obtain ⟨x₀', hx₀', hsame'⟩ := hold i' x' hi'
      exact hw.once i i' x₀ x₀' k hx₀ hx₀' (hsame.parent.symm.trans hk)
        (hsame'.parent.symm.trans hk')
    · obtain ⟨_, token', _, _, htoken', hrevoked'⟩ := hw.kept h (hold i x hi) hk
      exact ⟨token', htoken', hrevoked'⟩
  · -- an old successor and the new one cannot have the same predecessor
    have hdistinct : ∀ i x k, i ≠ j → (W.overlay w).tokens i = some x →
        x.rotatedFrom = some k → y.rotatedFrom ≠ some k := by
      intro i x k hij hi hk hyk
      obtain ⟨token, _, htoken, hrevoked, _⟩ := hw.kept h (hold i x hij hi) hk
      exact hrevoked (hunspent j y k token hj hy hyk htoken)
    refine ⟨fun i i' x x' k hi hi' hk hk' => ?_, fun i x k hi hk => ?_⟩
    · by_cases hij : i = j
      · subst hij
        rw [hy] at hi
        cases hi
        by_cases hij' : i' = i
        · exact hij'.symm
        · exact absurd hk (hdistinct i' x' k hij' hi' hk')
      · by_cases hij' : i' = j
        · subst hij'
          rw [hy] at hi'
          cases hi'
          exact absurd hk' (hdistinct i x k hij hi hk)
        · obtain ⟨x₀, hx₀, hsame⟩ := hold i x hij hi
          obtain ⟨x₀', hx₀', hsame'⟩ := hold i' x' hij' hi'
          exact hw.once i i' x₀ x₀' k hx₀ hx₀' (hsame.parent.symm.trans hk)
            (hsame'.parent.symm.trans hk')
    · by_cases hij : i = j
      · subst hij
        rw [hy] at hi
        cases hi
        obtain ⟨_, token', _, htoken', hrevoked'⟩ := hnew k hk
        exact ⟨token', htoken', hrevoked'⟩
      · obtain ⟨_, token', _, _, htoken', hrevoked'⟩ := hw.kept h (hold i x hij hi) hk
        exact ⟨token', htoken', hrevoked'⟩

end Commits

/-! ## Runs -/

theorem initial_bounded (tenants : List Tenant) (users : List User)
    (roleAssignments : List RoleAssignment) :
    schema.Bounded (Db.initial tenants users roleAssignments) := by
  intro i
  cases i with
  | tenants => exact ⟨ofList_bounded tenants, trivial⟩
  | users => exact ⟨ofList_bounded users, trivial⟩
  | roleAssignments => exact ⟨ofList_bounded roleAssignments, trivial⟩
  | tokens =>
      refine ⟨empty_bounded, fun j k x y hj => ?_⟩
      rcases hj with hj | ⟨_, hj⟩
      · cases hj
      · cases hj
  | outbox => exact ⟨empty_bounded, trivial⟩

theorem initial_rested (tenants : List Tenant) (users : List User)
    (roleAssignments : List RoleAssignment) :
    Rested schema (Db.initial tenants users roleAssignments).rows
      (Db.initial tenants users roleAssignments) where
  bounded := initial_bounded tenants users roleAssignments
  rows := rfl
  settled _ := rfl

theorem start_sound (security : Security) (adm : Call → Db → Db → Db → Prop)
    (tenants : List Tenant) (users : List User) (roleAssignments : List RoleAssignment) :
    (Config.start (Db.initial tenants users roleAssignments) : Cluster).Sound
      (discipline security) adm :=
  Config.start_sound ⟨initial_bounded tenants users roleAssignments, trivial⟩ fun _ => rfl

/-- The call of the log entry presented `rawToken` and returned a pair. -/
def exchanged (rawToken : String) (entry : Sid × Call × Except Error Reply) : Bool :=
  match entry with
  | (_, .refresh presented _ _, .ok (.pair (some _))) => presented == rawToken
  | _ => false

theorem exchanged_cases {rawToken : String} {entry : Sid × Call × Except Error Reply}
    (h : exchanged rawToken entry = true) :
    ∃ draw clock pair, entry.2.1 = .refresh rawToken draw clock ∧
      entry.2.2 = .ok (.pair (some pair)) := by
  unfold exchanged at h
  split at h
  · rename_i presented draw clock pair
    have heq : presented = rawToken := by simpa using h
    exact ⟨draw, clock, pair, by rw [heq], rfl⟩
  · cases h

/-- Two sessions that have exchanged the same token are the same. -/
theorem Exchanged.session_eq {security : Security} {s : Db} {t t' : Sid} {rawToken : String}
    (hs : schema.Bounded s) (hchains : Chains s.rows)
    (h : Exchanged security s.rows t rawToken) (h' : Exchanged security s.rows t' rawToken) :
    t = t' := by
  obtain ⟨k, j, record, successor, hk, hhash, hj, hfrom, ht⟩ := h
  obtain ⟨k', j', record', successor', hk', hhash', hj', hfrom', ht'⟩ := h'
  have hkeyed : s.tokens.Keyed RefreshToken.tokenHash := (hs .tokens).2
  have hkk' : k = k' :=
    (hkeyed k k' record record' (.inl hk) (.inl hk')).mp (hhash.trans hhash'.symm)
  subst hkk'
  have hjj' := hchains.once j j' successor successor' k hj hj' hfrom hfrom'
  subst hjj'
  rw [hj] at hj'
  cases hj'
  exact ht.symm.trans ht'

/-- In a run whose exchanges find their tokens unrevoked, at most one call returns a pair
for a token, and no token has two successors. -/
theorem token_exchanged_once (env : Env) (tenants : List Tenant) (users : List User)
    (roleAssignments : List RoleAssignment) {c : Cluster}
    (h : RunWith (Call.body env) ExchangesUnspent
      (Config.start (Db.initial tenants users roleAssignments)) c) :
    (∀ rawToken, (c.log.filter (exchanged rawToken)).length ≤ 1) ∧
    ∀ k i j x y, c.store.tokens.committed i = some x → c.store.tokens.committed j = some y →
      x.rotatedFrom = some k → y.rotatedFrom = some k → i = j := by
  have hstart := start_sound env.security ExchangesUnspent tenants users roleAssignments
  have hsound := RunWith.sound (verified env ExchangesUnspent) hstart h
  have hlogged := h.run.logged (Config.start_logged _)
  have hchains : Chains (schema.rows c.store) := by
    refine RunWith.rows_keep (verified env ExchangesUnspent) ?_ hstart h ?_
    · intro a s₀ s s' W _ hb hc heq hadm hs
      refine hs.commit hc fun j y k token hj hy hk htoken => ?_
      have hrow : s'.tokens.committed j = some y := by
        have htokens : s'.rows.tokens j = (W.overlay s.rows).tokens j := by
          have hrows : s'.rows = W.overlay s.rows := heq
          rw [hrows]
        exact htokens.trans hy
      exact hadm (j, y) ((mem_rows (hb .tokens).1).mpr hrow) hj k hk token htoken
    · refine ⟨fun i j x y k hi => ?_, fun j y k hj => ?_⟩
      · cases hi
      · cases hj
  refine ⟨fun rawToken => ?_, fun k i j x y hi hj hk hk' => hchains.once i j x y k hi hj hk hk'⟩
  have hsame : ∀ p ∈ c.log.filter (exchanged rawToken), ∀ q ∈ c.log.filter (exchanged rawToken),
      p.1 = q.1 := by
    intro p hp q hq
    obtain ⟨hplog, hpex⟩ := List.mem_filter.mp hp
    obtain ⟨hqlog, hqex⟩ := List.mem_filter.mp hq
    obtain ⟨draw, clock, pair, hcall, hreply⟩ := exchanged_cases hpex
    obtain ⟨draw', clock', pair', hcall', hreply'⟩ := exchanged_cases hqex
    exact Exchanged.session_eq hsound.inv.1 hchains
      (hsound.log p hplog rawToken draw clock pair hcall hreply)
      (hsound.log q hqlog rawToken draw' clock' pair' hcall' hreply')
  have hnodup : ((c.log.filter (exchanged rawToken)).map Prod.fst).Nodup :=
    hlogged.nodup.sublist (List.filter_sublist.map Prod.fst)
  match hl : c.log.filter (exchanged rawToken) with
  | [] => exact Nat.zero_le 1
  | [_] => exact Nat.le_refl 1
  | p :: q :: rest =>
      rw [hl] at hsame hnodup
      have heq := hsame p List.mem_cons_self q (List.mem_cons_of_mem _ List.mem_cons_self)
      simp [heq] at hnodup

/-- A call that starts at `n` and reads the application clock one and two ticks later. -/
def tick (n : Time) : Clock :=
  { transaction := n
    now := n + 1
    later := n + 2
    started := Int.lt_succ n
    ordered := Int.le_of_lt (Int.add_lt_add_left (by decide) n) }

/-- Hash functions without collisions on what is hashed here, and no located tenant. -/
def plain : Env where
  security :=
    { sha256 := fun raw => "sha256 " ++ raw
      hashPassword := fun salt password => salt ++ password
      verifyPassword := fun password hashed => hashed == "salt" ++ password }
  nearest _ _ _ := none

def amara : GlobalUserRegister :=
  { email := "amara@example.org"
    password := "river stone"
    fullName := "Amara"
    userType := .volunteer }

/-- Amara registers, logs in and gets the token `first`. -/
def firstLogin : List (Move Call) :=
  [[.begin (.registerGlobalUser amara "salt" (tick 0))], List.replicate 6 (.next 0), [.close 0],
    [.begin (.login { email := amara.email, password := amara.password }
      { refreshToken := "first", jti := 1 } (tick 10))],
    List.replicate 4 (.next 1), [.close 1]].flatten

/-- Two calls present the token.  The second looks it up after the first has committed. -/
def reuseSchedule : List (Move Call) :=
  [firstLogin, [.begin (.refresh "first" { refreshToken := "second", jti := 2 } (tick 20)),
      .begin (.refresh "first" { refreshToken := "third", jti := 3 } (tick 30))],
    List.replicate 6 (.next 2), List.replicate 5 (.next 3), [.close 2, .close 3]].flatten

theorem token_exchanged_once_reuse : ∃ c : Cluster,
    RunWith (Call.body plain) ExchangesUnspent (Config.start (Db.initial [] [] [])) c ∧
    c.log.length = 4 ∧ (c.log.filter (exchanged "first")).length = 1 ∧
    ∀ i j x y, c.store.tokens.committed i = some x → c.store.tokens.committed j = some y →
      x.rotatedFrom = some 0 → y.rotatedFrom = some 0 → i = j := by
  have hplay : ((Config.start (Db.initial [] [] [])).playWith (Call.body plain)
      ExchangesUnspent reuseSchedule).map (fun c =>
        (c.log.length, decide ((c.log.filter (exchanged "first")).length = 0))) =
      some (4, false) := by
    decide +kernel
  obtain ⟨c, hc, hfacts⟩ := Option.map_eq_some_iff.mp hplay
  simp only [Prod.mk.injEq, decide_eq_false_iff_not] at hfacts
  obtain ⟨hlog, hsome⟩ := hfacts
  have hrun := Config.playWith_run hc
  obtain ⟨honce, hsuccessors⟩ := token_exchanged_once plain [] [] [] hrun
  have hle := honce "first"
  exact ⟨c, hrun, hlog, by omega, hsuccessors 0⟩

/-- Both calls look the token up before either of them spends it. -/
def doubleSchedule : List (Move Call) :=
  [firstLogin, [.begin (.refresh "first" { refreshToken := "second", jti := 2 } (tick 20)),
      .begin (.refresh "first" { refreshToken := "third", jti := 3 } (tick 30)),
      .next 2, .next 3],
    List.replicate 5 (.next 2), List.replicate 5 (.next 3), [.close 2, .close 3]].flatten

theorem token_exchanged_twice : ¬ ∀ (env : Env) (tenants : List Tenant) (users : List User)
    (roleAssignments : List RoleAssignment) (c : Cluster),
    Run (Call.body env) (Config.start (Db.initial tenants users roleAssignments)) c →
    ∀ rawToken, (c.log.filter (exchanged rawToken)).length ≤ 1 := by
  intro hclaim
  have hplay : ((Config.start (Db.initial [] [] [])).play (Call.body plain) doubleSchedule).map
      (fun c => (c.log.filter (exchanged "first")).length) = some 2 := by
    decide +kernel
  obtain ⟨c, hc, htwo⟩ := Option.map_eq_some_iff.mp hplay
  have hle := hclaim plain [] [] [] c (Config.play_run hc) "first"
  omega

end Iam
end Rcp
