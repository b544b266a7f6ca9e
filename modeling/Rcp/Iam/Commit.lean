/-
The committed rows of the identity service, and what its calls may do to the refresh
tokens.

A refresh token is inserted once and its row is only ever revoked.  `Commit` tells
the three kinds of commits apart: a rotation, a login, and revocations.  What else a
call writes is left open.
-/
import Rcp.Sql.Solo
import Rcp.Sql.Tables
import Rcp.Iam.Services

namespace Rcp
namespace Iam

open Sql Sql.Table

structure Rows where
  tenants : Nat → Option Tenant
  users : Nat → Option User
  roleAssignments : Nat → Option RoleAssignment
  tokens : Nat → Option RefreshToken
  outbox : Nat → Option (Outbox Message)

namespace Rows

def overlay (W w : Rows) : Rows :=
  { tenants := fun k => (W.tenants k).or (w.tenants k)
    users := fun k => (W.users k).or (w.users k)
    roleAssignments := fun k => (W.roleAssignments k).or (w.roleAssignments k)
    tokens := fun k => (W.tokens k).or (w.tokens k)
    outbox := fun k => (W.outbox k).or (w.outbox k) }

def nothing : Rows :=
  { tenants := noRows
    users := noRows
    roleAssignments := noRows
    tokens := noRows
    outbox := noRows }

end Rows

def Db.rows (s : Db) : Rows :=
  { tenants := s.tenants.committed
    users := s.users.committed
    roleAssignments := s.roleAssignments.committed
    tokens := s.tokens.committed
    outbox := s.outbox.committed }

inductive Tab
  | tenants
  | users
  | roleAssignments
  | tokens
  | outbox
  deriving DecidableEq

@[reducible] def Tab.Row : Tab → Type
  | tenants => Tenant
  | users => User
  | roleAssignments => RoleAssignment
  | tokens => RefreshToken
  | outbox => Outbox Message

/-- The unique index of the token hashes. -/
def Tab.Coherent : (i : Tab) → Table (Tab.Row i) → Prop
  | tenants, _ => True
  | users, _ => True
  | roleAssignments, _ => True
  | tokens, T => T.Keyed RefreshToken.tokenHash
  | outbox, _ => True

@[reducible] def tables : Tables Db Rows Tab where
  Row := Tab.Row
  table
    | .tenants => Db.tenantsT
    | .users => Db.usersT
    | .roleAssignments => Db.roleAssignmentsT
    | .tokens => Db.tokensT
    | .outbox => Db.outboxT
  part
    | .tenants => Rows.tenants
    | .users => Rows.users
    | .roleAssignments => Rows.roleAssignments
    | .tokens => Rows.tokens
    | .outbox => Rows.outbox
  build f :=
    { tenants := f .tenants
      users := f .users
      roleAssignments := f .roleAssignments
      tokens := f .tokens
      outbox := f .outbox }
  put
    | .tenants, N, w => { w with tenants := N }
    | .users, U, w => { w with users := U }
    | .roleAssignments, A, w => { w with roleAssignments := A }
    | .tokens, T, w => { w with tokens := T }
    | .outbox, O, w => { w with outbox := O }
  ext w w' h := by
    have hN : w.tenants = w'.tenants := h .tenants
    have hU : w.users = w'.users := h .users
    have hA : w.roleAssignments = w'.roleAssignments := h .roleAssignments
    have hT : w.tokens = w'.tokens := h .tokens
    have hO : w.outbox = w'.outbox := h .outbox
    cases w
    simp only at hN hU hA hT hO
    rw [hN, hU, hA, hT, hO]
  part_build i _ := by cases i <;> rfl
  part_put_self i _ _ := by cases i <;> rfl
  part_put_ne i j _ _ h := by cases i <;> cases j <;> first | rfl | exact absurd rfl h
  get_set_self i _ _ := by cases i <;> rfl
  get_set_ne i j _ _ h := by cases i <;> cases j <;> first | rfl | exact absurd rfl h
  get_commit i _ _ := by cases i <;> rfl
  get_rollback i _ _ := by cases i <;> rfl
  Coherent := Tab.Coherent
  coherent_commit i t T h := by
    cases i with
    | tokens => exact Keyed.commit h t
    | tenants | users | roleAssignments | outbox => trivial
  coherent_rollback i t T h := by
    cases i with
    | tokens => exact Keyed.rollback h t
    | tenants | users | roleAssignments | outbox => trivial

abbrev schema : Schema Db Rows := tables.schema

namespace Column

def tenants : Column schema Tenant := tables.column .tenants

def users : Column schema User := tables.column .users

def roleAssignments : Column schema RoleAssignment := tables.column .roleAssignments

def tokens : Column schema RefreshToken := tables.column .tokens

def outbox : Column schema (Outbox Message) := tables.column .outbox

/-- A revocation leaves the hash. -/
theorem tokens_revoke (now : Time) : tokens.Updates (revoke now) :=
  fun _ _ _ _ hread hkeyed => Keyed.write hkeyed (Has.of_read hread) rfl

theorem tokens_insert {h : String} {row : Sid → RefreshToken} (hrow : ∀ t, (row t).tokenHash = h) :
    tokens.InsertsUnique (fun token => token.tokenHash == h) row := by
  intro T t hb hkeyed hscan hforeign
  refine Keyed.insert_unique hkeyed hb (fun x hx => ?_) hscan hforeign
  rw [hrow t]
  simpa using hx

end Column

/-! ## Commits -/

/-- The token rows of a write set are revoked versions of the committed ones. -/
def Revokes (W w : Rows) : Prop :=
  ∀ k token, W.tokens k = some token →
    ∃ old now, w.tokens k = some old ∧ token = revoke now old

inductive Commit (security : Security) : Call → Rows → Rows → Prop
  | rotated {rawToken : String} {draw : Draw} {clock : Clock} {W w : Rows} {k j : Nat}
      {record successor : RefreshToken} (hk : w.tokens k = some record)
      (hhash : record.tokenHash = security.sha256 rawToken) (hj : w.tokens j = none)
      (hfrom : successor.rotatedFrom = some k) (huser : successor.userId = record.userId)
      (hW : W.tokens = Function.update (single k (revoke clock.now record)) j (some successor)) :
      Commit security (.refresh rawToken draw clock) w W
  | issued {data : LoginRequest} {draw : Draw} {clock : Clock} {W w : Rows} {j : Nat}
      {token : RefreshToken} (hj : w.tokens j = none) (hroot : token.rotatedFrom = none)
      (hW : W.tokens = single j token) : Commit security (.login data draw clock) w W
  | revoked {a : Call} {W w : Rows} (h : Revokes W w) : Commit security a w W

@[reducible] def policy (security : Security) : Policy Rows Call where
  Commit := Commit security
  WellFormed _ := True

theorem policy_lawful (security : Security) : (policy security).Lawful schema :=
  fun _ _ _ _ _ => trivial

/-! ## Tokens evolve -/

/-- What a token keeps. -/
structure SameToken (x y : RefreshToken) : Prop where
  user : y.userId = x.userId
  hash : y.tokenHash = x.tokenHash
  parent : y.rotatedFrom = x.rotatedFrom
  session : y.insertedBy = x.insertedBy
  revoked : x.revokedAt ≠ none → y.revokedAt ≠ none

theorem SameToken.refl (x : RefreshToken) : SameToken x x := ⟨rfl, rfl, rfl, rfl, id⟩

theorem SameToken.trans {x y z : RefreshToken} (h : SameToken x y) (h' : SameToken y z) :
    SameToken x z :=
  ⟨h'.user.trans h.user, h'.hash.trans h.hash, h'.parent.trans h.parent,
    h'.session.trans h.session, fun hx => h'.revoked (h.revoked hx)⟩

theorem sameToken_revoke (now : Time) (x : RefreshToken) : SameToken x (revoke now x) :=
  ⟨rfl, rfl, rfl, rfl, fun _ h => by cases h⟩

/-- No token row is lost. -/
def Evolves (w w' : Rows) : Prop :=
  ∀ k x, w.tokens k = some x → ∃ y, w'.tokens k = some y ∧ SameToken x y

section Evolves

variable {security : Security} {a : Call} {w w' w'' W : Rows}

theorem Evolves.refl (w : Rows) : Evolves w w := fun _ x hx => ⟨x, hx, .refl x⟩

theorem Evolves.trans (h : Evolves w w') (h' : Evolves w' w'') : Evolves w w'' := by
  intro k x hx
  obtain ⟨y, hy, hxy⟩ := h k x hx
  obtain ⟨z, hz, hyz⟩ := h' k y hy
  exact ⟨z, hz, hxy.trans hyz⟩

theorem Commit.evolves (h : Commit security a w W) : Evolves w (W.overlay w) := by
  intro k x hx
  show ∃ y, (W.tokens k).or (w.tokens k) = some y ∧ _
  cases hW : W.tokens k with
  | none => exact ⟨x, hx, .refl x⟩
  | some y =>
      refine ⟨y, rfl, ?_⟩
      cases h with
      | @rotated _ _ _ _ _ i j record successor hi hhash hj hfrom huser hT =>
          rw [hT, Function.update_apply] at hW
          by_cases hkj : k = j
          · rw [hkj, hj] at hx
            cases hx
          · rw [if_neg hkj] at hW
            obtain ⟨rfl, rfl⟩ := single_eq_some.mp hW
            rw [hi] at hx
            cases hx
            exact sameToken_revoke _ _
      | issued hj hroot hT =>
          rw [hT] at hW
          obtain ⟨rfl, rfl⟩ := single_eq_some.mp hW
          rw [hj] at hx
          cases hx
      | revoked hrevokes =>
          obtain ⟨old, now, hold, rfl⟩ := hrevokes k y hW
          rw [hold] at hx
          cases hx
          exact sameToken_revoke now _

theorem drift_evolves (h : Drift schema (policy security) W w w') : Evolves w w' :=
  h.lift (.refl w) fun _ _ _ _ hc _ hw => hw.trans hc.evolves

theorem Revokes.drift (h : Revokes W w) (hd : Drift schema (policy security) W w w') :
    Revokes W w' := by
  intro k token hk
  obtain ⟨old, now, hold, htoken⟩ := h k token hk
  exact ⟨old, now, (hd.locked Column.tokens (k := k) hk).trans hold, htoken⟩

end Evolves

/-! ## What a returned pair tells -/

/-- Session `t` has inserted a successor of the token that is presented as `rawToken`. -/
def Exchanged (security : Security) (w : Rows) (t : Sid) (rawToken : String) : Prop :=
  ∃ k j record successor, w.tokens k = some record ∧
    record.tokenHash = security.sha256 rawToken ∧ w.tokens j = some successor ∧
    successor.rotatedFrom = some k ∧ successor.insertedBy = t

theorem Exchanged.evolves {security : Security} {w w' : Rows} {t : Sid} {rawToken : String}
    (h : Exchanged security w t rawToken) (hw : Evolves w w') :
    Exchanged security w' t rawToken := by
  obtain ⟨k, j, record, successor, hk, hhash, hj, hfrom, ht⟩ := h
  obtain ⟨record', hk', hrecord⟩ := hw k record hk
  obtain ⟨successor', hj', hsuccessor⟩ := hw j successor hj
  exact ⟨k, j, record', successor', hk', hrecord.hash.trans hhash, hj',
    hsuccessor.parent.trans hfrom, hsuccessor.session.trans ht⟩

/-- A call of `refresh` that returns a pair has exchanged its token. -/
def ensures (security : Security) : Ensures schema (policy security) Error Reply where
  Done t a r w := ∀ rawToken draw clock pair, a = .refresh rawToken draw clock →
    r = .ok (.pair (some pair)) → Exchanged security w t rawToken
  keep _ _ _ _ _ _ _ hc hdone rawToken draw clock pair ha hr :=
    (hdone rawToken draw clock pair ha hr).evolves hc.evolves

abbrev discipline (security : Security) : Discipline Db Error Reply Call :=
  schema.discipline (policy security) (ensures security)

end Iam
end Rcp
