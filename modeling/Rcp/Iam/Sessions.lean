/-
The sessions of users: chains of refresh tokens in calls made one after the other.

A token is exchanged once and has one successor, so the tokens that descend from a login
form a chain whose last one alone may be unrevoked.  A call that shuts a user out revokes
all tokens of the user, and a revoked token is not exchanged again.
-/
import Rcp.Iam.Exchange
import Rcp.Iam.Tokens

namespace Rcp
namespace Iam

open Sql Sql.Table Relation

/-- The call of the log entry presented the token with this hash and returned a pair. -/
def exchanges (security : Security) (hash : String) (entry : Sid × Call × Except Error Reply) :
    Bool :=
  match entry with
  | (_, .refresh presented _ _, .ok (.pair (some _))) => security.sha256 presented == hash
  | _ => false

theorem exchanges_cases {security : Security} {hash : String} {t : Sid} {a : Call}
    {r : Except Error Reply} (h : exchanges security hash (t, a, r) = true) :
    ∃ rawToken draw clock pair, a = .refresh rawToken draw clock ∧
      r = .ok (.pair (some pair)) ∧ security.sha256 rawToken = hash := by
  unfold exchanges at h
  split at h
  · rename_i presented draw clock pair heq
    cases heq
    exact ⟨presented, draw, clock, pair, rfl, rfl, by simpa using h⟩
  · cases h

/-- Token `j` replaced token `k`. -/
def Rotated (tokens : Nat → Option RefreshToken) (k j : Nat) : Prop :=
  ∃ token, tokens j = some token ∧ token.rotatedFrom = some k

/-- Token `j` descends from token `k` by rotation. -/
def Descends (tokens : Nat → Option RefreshToken) : Nat → Nat → Prop :=
  ReflTransGen (Rotated tokens)

section Chains

variable {security : Security} {t : Sid} {a : Call} {r : Except Error Reply} {w w' : Rows}

/-- Of the descendants of a token at most one is unrevoked. -/
theorem Chains.leaf (h : Chains w) {root i j : Nat} {x y : RefreshToken}
    (hi : Descends w.tokens root i) (hj : Descends w.tokens root j) (hx : w.tokens i = some x)
    (hy : w.tokens j = some y) (hxlive : x.revokedAt = none) (hylive : y.revokedAt = none) :
    i = j := by
  have hunique : Relator.RightUnique (Rotated w.tokens) := by
    rintro k m n ⟨x, hm, hmk⟩ ⟨y, hn, hnk⟩
    exact h.once m n x y k hm hn hmk hnk
  -- a token that something descends from is revoked
  have hlast : ∀ k m token, w.tokens k = some token → token.revokedAt = none →
      Descends w.tokens k m → k = m := by
    intro k m token hk hlive hm
    rcases hm.cases_head with heq | ⟨n, ⟨successor, hn, hfrom⟩, -⟩
    · exact heq
    · obtain ⟨token', hk', hspent⟩ := h.spent n successor k hn hfrom
      rw [hk] at hk'
      cases hk'
      exact absurd hlive hspent
  rcases ReflTransGen.total_of_right_unique hunique hi hj with hij | hji
  · exact hlast i j x hx hxlive hij
  · exact (hlast j i y hy hylive hji).symm

theorem Chains.congr (h : Chains w) (hw' : w'.tokens = w.tokens) : Chains w' := by
  refine ⟨?_, ?_⟩
  · rw [hw']
    exact h.once
  · rw [hw']
    exact h.spent

/-- What a call does to the tokens is a commit that exchanges an unrevoked token. -/
theorem TokenAnswer.commit (h : TokenAnswer security t a r w w') :
    ∃ W, Commit security a w W ∧ w'.tokens = (W.overlay w).tokens ∧
      ∀ j y k token, w.tokens j = none → (W.overlay w).tokens j = some y →
        y.rotatedFrom = some k → w.tokens k = some token → token.revokedAt = none := by
  cases h with
  | @issued data draw clock _ _ _ j userId hj hw' =>
      refine ⟨Rows.nothing.withToken j (newToken security userId none draw clock t),
        .issued hj rfl rfl, ?_, fun i y k token hi hy hk _ => ?_⟩
      · rw [hw']
        funext i
        show _ = (Function.update noRows j _ i).or (w.tokens i)
        by_cases hij : i = j
        · subst hij
          rw [Function.update_self, Function.update_self]
          rfl
        · rw [Function.update_of_ne hij, Function.update_of_ne hij]
          rfl
      · have hy' : (single j (newToken security userId none draw clock t) i).or (w.tokens i) =
            some y := hy
        rw [hi, Option.or_none] at hy'
        obtain ⟨-, rfl⟩ := single_eq_some.mp hy'
        cases hk
  | @rotated rawToken draw clock _ _ _ k j record hk hhash hunspent hj hw' =>
      have hfrom : (newToken security record.userId (some k) draw clock t).rotatedFrom = some k :=
        rfl
      refine ⟨{ Rows.nothing with
          tokens := Function.update (single k (revoke clock.now record)) j
            (some (newToken security record.userId (some k) draw clock t)) },
        .rotated hk hhash hj hfrom rfl rfl, ?_, fun i y k' token hi hy hk' htoken => ?_⟩
      · rw [hw']
        funext i
        show _ = (Function.update (single k _) j _ i).or (w.tokens i)
        by_cases hij : i = j
        · subst hij
          rw [Function.update_self, Function.update_self]
          rfl
        · rw [Function.update_of_ne hij, Function.update_of_ne hij]
          by_cases hik : i = k
          · subst hik
            rw [Function.update_self, single_self]
            rfl
          · rw [Function.update_of_ne hik, single_of_ne _ hik]
            rfl
      · have hy' : (Function.update (single k (revoke clock.now record)) j
            (some (newToken security record.userId (some k) draw clock t)) i).or (w.tokens i) =
            some y := hy
        rw [hi, Option.or_none] at hy'
        by_cases hij : i = j
        · subst hij
          rw [Function.update_self] at hy'
          cases hy'
          cases hk'
          rw [hk] at htoken
          cases htoken
          exact hunspent
        · rw [Function.update_of_ne hij] at hy'
          obtain ⟨rfl, -⟩ := single_eq_some.mp hy'
          rw [hk] at hi
          cases hi
  | revoked p now hw' hr hall =>
      refine ⟨{ Rows.nothing with
          tokens := fun k =>
            if (w.tokens k).any p = true then (w.tokens k).map (revoke now) else none },
        .revoked fun k token hk => ?_, ?_, fun i y k token hi hy _ _ => ?_⟩
      · have hk' : (if (w.tokens k).any p = true then (w.tokens k).map (revoke now) else none) =
            some token := hk
        split at hk'
        · obtain ⟨old, hold, rfl⟩ := Option.map_eq_some_iff.mp hk'
          exact ⟨old, now, hold, rfl⟩
        · cases hk'
      · rw [hw']
        exact funext fun k => (revised_stamped k).symm
      · have hy' : (if (w.tokens i).any p = true then (w.tokens i).map (revoke now) else none).or
            (w.tokens i) = some y := hy
        simp [hi] at hy'

theorem TokenAnswer.chains (h : TokenAnswer security t a r w w') (hw : Chains w) : Chains w' := by
  obtain ⟨W, hc, hw', hunspent⟩ := h.commit
  exact (hw.commit hc hunspent).congr hw'

theorem TokenAnswer.evolves (h : TokenAnswer security t a r w w') : Evolves w w' := by
  obtain ⟨W, hc, hw', -⟩ := h.commit
  intro k x hx
  obtain ⟨y, hy, hsame⟩ := hc.evolves k x hx
  exact ⟨y, by rw [hw']; exact hy, hsame⟩

/-- Only an unrevoked token is exchanged, and it is revoked afterwards. -/
theorem TokenAnswer.exchanged {hash : String} (h : TokenAnswer security t a r w w')
    (hex : exchanges security hash (t, a, r) = true) :
    ∃ k x y, w.tokens k = some x ∧ x.tokenHash = hash ∧ x.revokedAt = none ∧
      w'.tokens k = some y ∧ y.tokenHash = hash ∧ y.revokedAt ≠ none := by
  obtain ⟨rawToken, draw, clock, pair, rfl, rfl, hraw⟩ := exchanges_cases hex
  cases h with
  | @rotated _ _ _ _ _ _ k j record hk hhash hunspent hj hw' =>
      have hkj : k ≠ j := by
        rintro rfl
        rw [hk] at hj
        cases hj
      refine ⟨k, record, revoke clock.now record, hk, hhash.trans hraw, hunspent, ?_,
        hhash.trans hraw, fun hnone => by cases hnone⟩
      rw [hw', Function.update_of_ne hkj, Function.update_self]
  | revoked p now hw' hr hall => exact absurd ⟨_, _, _, _, rfl, rfl⟩ hr

end Chains

/-! ## Exchanged once -/

/-- A token that a call of the log has exchanged is revoked, and no other call has. -/
structure Spent (security : Security) (log : List (Sid × Call × Except Error Reply)) (w : Rows) :
    Prop where
  chains : Chains w
  once : ∀ hash, (log.filter (exchanges security hash)).length ≤ 1
  revoked : ∀ hash, ∀ entry ∈ log, exchanges security hash entry = true →
    ∃ k token, w.tokens k = some token ∧ token.tokenHash = hash ∧ token.revokedAt ≠ none

theorem Rested.hashKeyed {w : Rows} {s : Db} (h : Rested schema w s) : w.HashKeyed :=
  Solo.hashKeyed (h.solo 0)

theorem Spent.answer {security : Security} {log : List (Sid × Call × Except Error Reply)}
    {t : Sid} {a : Call} {r : Except Error Reply} {w w' : Rows} {s : Db}
    (hs : Rested schema w s) (h : TokenAnswer security t a r w w')
    (hspent : Spent security log w) : Spent security ((t, a, r) :: log) w' := by
  refine ⟨h.chains hspent.chains, fun hash => ?_, fun hash entry hentry hex => ?_⟩
  · by_cases hex : exchanges security hash (t, a, r) = true
    · -- nobody has exchanged it before, since it was unrevoked
      have hnone : log.filter (exchanges security hash) = [] := by
        rw [List.filter_eq_nil_iff]
        intro entry hentry hbefore
        obtain ⟨k, x, _, hk, hhash, hlive, -⟩ := h.exchanged hex
        obtain ⟨k', x', hk', hhash', hrevoked⟩ := hspent.revoked hash entry hentry hbefore
        have hkk' := Rested.hashKeyed hs k k' x x' hk hk' (hhash.trans hhash'.symm)
        subst hkk'
        rw [hk] at hk'
        cases hk'
        exact hrevoked hlive
      rw [List.filter_cons_of_pos hex, hnone]
      exact Nat.le_refl 1
    · rw [List.filter_cons_of_neg hex]
      exact hspent.once hash
  · rcases List.mem_cons.mp hentry with rfl | hentry
    · obtain ⟨k, _, y, _, _, _, hy, hhash, hrevoked⟩ := h.exchanged hex
      exact ⟨k, y, hy, hhash, hrevoked⟩
    · obtain ⟨k, x, hk, hhash, hrevoked⟩ := hspent.revoked hash entry hentry hex
      obtain ⟨y, hy, hsame⟩ := h.evolves k x hk
      exact ⟨k, y, hy, hsame.hash.trans hhash, hsame.revoked hrevoked⟩

/-! ## Shut out -/

/-- The tokens that user `u` had in `w₀` are revoked. -/
def Out (w₀ : Rows) (u : Uuid) (w : Rows) : Prop :=
  ∀ k x, w₀.tokens k = some x → x.userId = u →
    ∃ y, w.tokens k = some y ∧ SameToken x y ∧ y.revokedAt ≠ none

/-- None of the calls exchanged a token that user `u` had in `w₀`. -/
def Unused (security : Security) (w₀ : Rows) (u : Uuid)
    (log : List (Sid × Call × Except Error Reply)) : Prop :=
  ∀ k x, w₀.tokens k = some x → x.userId = u → ∀ entry ∈ log,
    exchanges security x.tokenHash entry = false

section Shut

variable {security : Security} {t : Sid} {a : Call} {r : Except Error Reply} {w₀ w w' : Rows}
  {s : Db} {u : Uuid}

theorem TokenAnswer.shutsOut (hs : Rested schema w s) (h : TokenAnswer security t a r w w')
    (hshut : ShutsOut security w u r a) : Out w u w' ∧ Unused security w u [(t, a, r)] := by
  have hevolves := h.evolves
  cases h with
  | issued => exact hshut.elim
  | rotated hk hhash hunspent hj hw' =>
      obtain ⟨k', record', hk', hhash', -, hspent, -⟩ := hshut
      have hkk' := Rested.hashKeyed hs _ k' _ record' hk hk' (hhash.trans hhash'.symm)
      subst hkk'
      rw [hk] at hk'
      cases hk'
      exact absurd hunspent hspent
  | revoked p now hw' hr hall =>
      refine ⟨fun k x hk hu => ?_, fun k x hk hu entry hentry => ?_⟩
      · obtain ⟨y, hy, hsame⟩ := hevolves k x hk
        refine ⟨y, hy, hsame, ?_⟩
        rcases hall u hshut k x hk hu with hp | hrevoked
        · rw [hw'] at hy
          simp only [stamped, hk, Option.map_some, hp, if_true, Option.some.injEq] at hy
          rw [← hy]
          exact fun hnone => by cases hnone
        · exact hsame.revoked hrevoked
      · rw [List.mem_singleton.mp hentry]
        refine Bool.eq_false_iff.mpr fun hex => hr ?_
        obtain ⟨rawToken, draw, clock, pair, rfl, rfl, -⟩ := exchanges_cases hex
        exact ⟨rawToken, draw, clock, pair, rfl, rfl⟩

theorem Out.answer (hs : Rested schema w s) (hout : Out w₀ u w)
    (h : TokenAnswer security t a r w w') :
    Out w₀ u w' ∧ Unused security w₀ u [(t, a, r)] := by
  refine ⟨fun k x hk hu => ?_, fun k x hk hu entry hentry => ?_⟩
  · obtain ⟨y, hy, hsame, hrevoked⟩ := hout k x hk hu
    obtain ⟨z, hz, hsame'⟩ := h.evolves k y hy
    exact ⟨z, hz, hsame.trans hsame', hsame'.revoked hrevoked⟩
  · rw [List.mem_singleton.mp hentry]
    refine Bool.eq_false_iff.mpr fun hex => ?_
    obtain ⟨y, hy, hsame, hrevoked⟩ := hout k x hk hu
    obtain ⟨k', x', _, hk', hhash', hlive, -⟩ := h.exchanged hex
    have hkk' := Rested.hashKeyed hs k k' y x' hy hk' (hsame.hash.trans hhash'.symm)
    subst hkk'
    rw [hy] at hk'
    cases hk'
    exact hrevoked hlive

theorem Unused.cons {entry : Sid × Call × Except Error Reply}
    {log : List (Sid × Call × Except Error Reply)} (h : Unused security w₀ u [entry])
    (hlog : Unused security w₀ u log) : Unused security w₀ u (entry :: log) := by
  intro k x hk hu e he
  rcases List.mem_cons.mp he with rfl | he
  · exact h k x hk hu e List.mem_cons_self
  · exact hlog k x hk hu e he

end Shut

/-! ## Runs -/

theorem initial_spent (security : Security) (tenants : List Tenant) (users : List User)
    (roleAssignments : List RoleAssignment) :
    Spent security [] (Db.initial tenants users roleAssignments).rows where
  chains :=
    { once := fun _ _ _ _ _ h => by cases h
      spent := fun _ _ _ h => by cases h }
  once _ := Nat.zero_le 1
  revoked _ _ h := by cases h

/-- After a call that shuts a user out, made from `c₁`, no call exchanges a token that the
user had before. -/
theorem shut_out_for_good (env : Env) {c₁ : Cluster} {w₁ : Rows} (h₁ : Rested schema w₁ c₁.store)
    (a : Call) (after : List Call) :
    ∃ r s₂ c new, (a.body env).call c₁.fresh c₁.store = some (r, s₂) ∧
      c₁.perform (Call.body env) (a :: after) = some c ∧ c.log = new ++ c₁.log ∧
      ∀ u, ShutsOut env.security w₁ u r a → Unused env.security w₁ u new := by
  obtain ⟨r, s₂, w₂, hcall, h₂, hanswer⟩ := (token_answers env).call h₁ a c₁.fresh
  have hstep : ∀ log t b r' w w' s, Rested schema w s → TokenAnswer env.security t b r' w w' →
      (∃ new, log = new ++ c₁.log ∧ ∀ u, ShutsOut env.security w₁ u r a →
        Out w₁ u w ∧ Unused env.security w₁ u new) →
      ∃ new, (t, b, r') :: log = new ++ c₁.log ∧ ∀ u, ShutsOut env.security w₁ u r a →
        Out w₁ u w' ∧ Unused env.security w₁ u new := by
    rintro log t b r' w w' s hs hb ⟨new, rfl, hnew⟩
    refine ⟨(t, b, r') :: new, rfl, fun u hu => ?_⟩
    obtain ⟨hout, hunused⟩ := hnew u hu
    obtain ⟨hout', hlast⟩ := hout.answer hs hb
    exact ⟨hout', hlast.cons hunused⟩
  obtain ⟨c, w, hperform, -, new, hlog, hnew⟩ := (token_answers env).perform
    (c := { c₁ with store := s₂, fresh := c₁.fresh + 1, log := (c₁.fresh, a, r) :: c₁.log })
    hstep h₂ ⟨[(c₁.fresh, a, r)], rfl, fun u hu => hanswer.shutsOut h₁ hu⟩ after
  refine ⟨r, s₂, c, new, hcall, ?_, hlog, fun u hu => (hnew u hu).2⟩
  simp only [Config.perform, hcall]
  exact hperform

/-- Calls made one after the other: each token is exchanged at most once and has at most
one successor, of the tokens that descend from one at most one is unrevoked, and a call
that shuts a user out ends every token the user had before it. -/
theorem refresh_chains_linear (env : Env) (tenants : List Tenant) (users : List User)
    (roleAssignments : List RoleAssignment) (l : List Call) :
    ∃ c : Cluster, (Config.start (Db.initial tenants users roleAssignments)).perform
        (Call.body env) l = some c ∧
      (∀ k token, c.store.tokens.committed k = some token →
        (c.log.filter (exchanges env.security token.tokenHash)).length ≤ 1) ∧
      (∀ k i j, Rotated c.store.tokens.committed k i → Rotated c.store.tokens.committed k j →
        i = j) ∧
      (∀ root i j x y, Descends c.store.tokens.committed root i →
        Descends c.store.tokens.committed root j → c.store.tokens.committed i = some x →
        c.store.tokens.committed j = some y → x.revokedAt = none → y.revokedAt = none → i = j) ∧
      ∀ before a after, l = before ++ a :: after → ∃ (c₁ : Cluster) (r : Except Error Reply)
        (s₂ : Db) (new : List (Sid × Call × Except Error Reply)),
        (Config.start (Db.initial tenants users roleAssignments)).perform (Call.body env) before =
          some c₁ ∧
        (a.body env).call c₁.fresh c₁.store = some (r, s₂) ∧ c.log = new ++ c₁.log ∧
        ∀ u, ShutsOut env.security c₁.store.rows u r a → ∀ k token,
          c₁.store.tokens.committed k = some token → token.userId = u →
          ∀ entry ∈ new, exchanges env.security token.tokenHash entry = false := by
  have hstart := initial_rested tenants users roleAssignments
  obtain ⟨c, w, hperform, hrested, hspent⟩ := (token_answers env).perform
    (c := Config.start (Db.initial tenants users roleAssignments))
    (fun _ _ _ _ _ _ _ hs h hJ => Spent.answer hs h hJ) hstart
    (initial_spent env.security tenants users roleAssignments) l
  have hrows : c.store.tokens.committed = w.tokens := congrArg Rows.tokens hrested.rows
  refine ⟨c, hperform, fun _ token _ => hspent.once token.tokenHash, ?_, ?_, ?_⟩
  · rw [hrows]
    rintro k i j ⟨x, hi, hik⟩ ⟨y, hj, hjk⟩
    exact hspent.chains.once i j x y k hi hj hik hjk
  · rw [hrows]
    intro root i j x y hi hj hx hy hxlive hylive
    exact hspent.chains.leaf hi hj hx hy hxlive hylive
  · rintro before a after rfl
    obtain ⟨c₁, w₁, hbefore, h₁, -⟩ := (token_answers env).perform
      (c := Config.start (Db.initial tenants users roleAssignments)) (J := fun _ _ => True)
      (fun _ _ _ _ _ _ _ _ _ _ => trivial) hstart trivial before
    obtain ⟨r, s₂, c', new, hcall, hafter, hlog, hunused⟩ := shut_out_for_good env h₁ a after
    rw [Config.perform_append, hbefore, Option.bind_some, hafter] at hperform
    cases hperform
    have hrows₁ : c₁.store.rows = w₁ := h₁.rows
    refine ⟨c₁, r, s₂, new, hbefore, hcall, hlog, fun u hu k token hk huser => ?_⟩
    rw [hrows₁] at hu
    exact hunused u hu k token ((congrFun (congrArg Rows.tokens hrows₁) k).symm.trans hk) huser

end Iam
end Rcp
