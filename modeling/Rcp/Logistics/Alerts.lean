/-
The disaster alerts of a tenant (`services/logistics/app/api/routes_alerts.py`).

An alert and its event are written in one transaction.  Whatever the calls do at the same time,
there is one event for every alert of the table, and it says what the row says.
-/
import Mathlib.Data.List.Sort
import Rcp.Common.Auth
import Rcp.Sql.Tables

namespace Rcp
namespace Logistics
namespace Alerts

open Sql Sql.Table

inductive AlertSeverity
  | high
  | medium
  | low
  deriving DecidableEq

def AlertSeverity.value : AlertSeverity → String
  | high => "HIGH"
  | medium => "MEDIUM"
  | low => "LOW"

structure DisasterAlert where
  tenantId : Uuid
  title : String
  message : String
  severity : AlertSeverity
  createdBy : Uuid
  createdAt : Time
  deriving DecidableEq

structure DisasterAlertCreate where
  title : String
  message : String
  severity : AlertSeverity

/-- The data of `logistics.alert.created`. -/
structure AlertData where
  alertId : Uuid
  tenantId : Uuid
  title : String
  message : String
  severity : AlertSeverity
  createdBy : Uuid
  createdAt : Time
  deriving DecidableEq

/-- The tables that the two routes use. -/
structure Db where
  alerts : Table DisasterAlert
  outbox : Table (Outbox AlertData)

namespace Db

def alertsT : Access Db DisasterAlert :=
  { get := Db.alerts, set := fun s T => { s with alerts := T } }

def outboxT : Access Db (Outbox AlertData) :=
  { get := Db.outbox, set := fun s T => { s with outbox := T } }

instance : Transactional Db where
  commit t s :=
    { alerts := s.alerts.commit t
      outbox := s.outbox.commit t }
  rollback t s :=
    { alerts := s.alerts.rollback t
      outbox := s.outbox.rollback t }

def initial : Db := { alerts := .empty, outbox := .empty }

end Db

inductive Error
  /-- 403 of `require_roles`. -/
  | insufficientRole
  /-- 400 `Tenant ID missing in token`. -/
  | tenantMissing
  /-- The title does not fit its column. -/
  | dataError
  | noResult
  deriving DecidableEq

/-! ## The routes -/

def maxTitle : Nat := 200

/-- `db.refresh`. -/
def refreshAlert (k : Uuid) : Prog Db Error DisasterAlert := do
  match ← selectKey Db.alertsT k with
  | none => .raise .noResult
  | some alert => return alert

def alertData (k : Uuid) (alert : DisasterAlert) : AlertData :=
  { alertId := k
    tenantId := alert.tenantId
    title := alert.title
    message := alert.message
    severity := alert.severity
    createdBy := alert.createdBy
    createdAt := alert.createdAt }

def newAlert (tenantId createdBy : Uuid) (data : DisasterAlertCreate) (now : Time) :
    DisasterAlert :=
  { tenantId := tenantId
    title := data.title
    message := data.message
    severity := data.severity
    createdBy := createdBy
    createdAt := now }

/-- `create_alert` in a transaction that starts at `now`. -/
def createAlert (principal : Rcp.Principal) (data : DisasterAlertCreate) (now : Time) :
    Prog Db Error (Uuid × DisasterAlert) :=
  if ¬ requireAnyRole ["tenant_admin", "coordinator"] principal then .raise .insufficientRole
  else
    match principal.tenantId with
    | none => .raise .tenantMissing
    | some tenant =>
        if maxTitle < data.title.length then .raise .dataError
        else do
          let id ← insert Db.alertsT fun _ => newAlert tenant principal.userId data now
          let alert ← refreshAlert id
          let _ ← emit Db.outboxT "logistics.alert.created" (some tenant) (alertData id alert)
          commit
          let alert ← refreshAlert id
          return (id, alert)

/-- `get_alerts`, newest first.  The session it gets has no open transaction, and alerts of one
instant stand in the order of their keys. -/
def getAlerts (s : Db) (principal : Rcp.Principal) : List (Uuid × DisasterAlert) :=
  match principal.tenantId with
  | none => []
  | some tenant =>
      (s.alerts.rows.filter fun row => row.2.tenantId = tenant).mergeSort fun x y =>
        decide (y.2.createdAt ≤ x.2.createdAt)

structure CreateAlert where
  principal : Rcp.Principal
  data : DisasterAlertCreate
  now : Time

def CreateAlert.body (a : CreateAlert) : Prog Db Error (Uuid × DisasterAlert) :=
  createAlert a.principal a.data a.now

/-! ## Commits -/

structure Rows where
  alerts : Nat → Option DisasterAlert
  outbox : Nat → Option (Outbox AlertData)

inductive Tab
  | alerts
  | outbox
  deriving DecidableEq

@[reducible] def Tab.Row : Tab → Type
  | alerts => DisasterAlert
  | outbox => Outbox AlertData

@[reducible] def tables : Tables Db Rows Tab where
  Row := Tab.Row
  table
    | .alerts => Db.alertsT
    | .outbox => Db.outboxT
  part
    | .alerts => Rows.alerts
    | .outbox => Rows.outbox
  build f :=
    { alerts := f .alerts
      outbox := f .outbox }
  put
    | .alerts, A, w => { w with alerts := A }
    | .outbox, O, w => { w with outbox := O }
  ext w w' h := by
    have hA : w.alerts = w'.alerts := h .alerts
    have hO : w.outbox = w'.outbox := h .outbox
    cases w
    simp only at hA hO
    rw [hA, hO]
  part_build i _ := by cases i <;> rfl
  part_put_self i _ _ := by cases i <;> rfl
  part_put_ne i j _ _ h := by cases i <;> cases j <;> first | rfl | exact absurd rfl h
  get_set_self i _ _ := by cases i <;> rfl
  get_set_ne i j _ _ h := by cases i <;> cases j <;> first | rfl | exact absurd rfl h
  get_commit i _ _ := by cases i <;> rfl
  get_rollback i _ _ := by cases i <;> rfl

abbrev schema : Schema Db Rows := tables.schema

/-- The outbox row that announces alert `k`. -/
def announcement (k : Uuid) (alert : DisasterAlert) (o : Uuid) : Outbox AlertData :=
  outboxRow "logistics.alert.created" (some alert.tenantId) (alertData k alert) o

/-- Every alert is announced once, and nothing else is. -/
structure Announced (w : Rows) : Prop where
  announced : ∀ k alert, w.alerts k = some alert → ∃ o, w.outbox o = some (announcement k alert o)
  announces : ∀ o row, w.outbox o = some row →
    ∃ k alert, w.alerts k = some alert ∧ row = announcement k alert o
  once : ∀ o o' k alert alert', w.outbox o = some (announcement k alert o) →
    w.outbox o' = some (announcement k alert' o') → o = o'

/-- An alert with its event. -/
inductive Commit : CreateAlert → Rows → Rows → Prop
  | created {a : CreateAlert} {w : Rows} {k o : Nat} {alert : DisasterAlert}
      (hk : w.alerts k = none) (ho : w.outbox o = none) :
      Commit a w { alerts := single k alert, outbox := single o (announcement k alert o) }

@[reducible] def policy : Policy Rows CreateAlert where
  Commit := Commit
  WellFormed := Announced

theorem announcement_inj {k j o : Uuid} {alert alert' : DisasterAlert}
    (h : announcement k alert o = announcement j alert' o) : k = j ∧ alert = alert' := by
  have hdata : alertData k alert = alertData j alert' := congrArg (fun row => row.payload.data) h
  cases alert
  cases alert'
  cases hdata
  exact ⟨rfl, rfl⟩

/-- The announcement in row `o` of the new outbox is the new one or an old one. -/
theorem overlay_cases {w : Rows} {k o j : Nat} {alert : DisasterAlert} {row : Outbox AlertData}
    (h : (single o (announcement k alert o) j).or (w.outbox j) = some row) :
    (j = o ∧ row = announcement k alert o) ∨ (j ≠ o ∧ w.outbox j = some row) := by
  by_cases hj : j = o
  · subst hj
    rw [single_self, Option.some_or] at h
    exact .inl ⟨rfl, (Option.some.inj h).symm⟩
  · rw [single_of_ne _ hj, Option.none_or] at h
    exact .inr ⟨hj, h⟩

theorem policy_lawful : policy.Lawful schema := by
  intro a w W hcommit hw
  cases hcommit with
  | @created k o alert hk ho =>
      have hfresh : ∀ o' alert', w.outbox o' ≠ some (announcement k alert' o') := by
        intro o' alert' hold
        obtain ⟨j, old, hold', heq⟩ := hw.announces o' _ hold
        obtain ⟨rfl, rfl⟩ := announcement_inj heq
        rw [hk] at hold'
        cases hold'
      refine ⟨fun j alert' hj => ?_, fun o' row ho' => ?_, fun o' o'' j x y ho' ho'' => ?_⟩
      · have hj : (single k alert j).or (w.alerts j) = some alert' := hj
        show ∃ o', (single o (announcement k alert o) o').or (w.outbox o') = _
        by_cases hjk : j = k
        · subst hjk
          rw [single_self, Option.some_or] at hj
          obtain rfl := Option.some.inj hj
          exact ⟨o, by rw [single_self, Option.some_or]⟩
        · rw [single_of_ne _ hjk, Option.none_or] at hj
          obtain ⟨o', ho'⟩ := hw.announced j alert' hj
          have hne : o' ≠ o := by
            rintro rfl
            rw [ho] at ho'
            cases ho'
          exact ⟨o', by rw [single_of_ne _ hne, Option.none_or, ho']⟩
      · show ∃ j alert', (single k alert j).or (w.alerts j) = some alert' ∧ _
        rcases overlay_cases ho' with ⟨rfl, rfl⟩ | ⟨-, hold⟩
        · exact ⟨k, alert, by rw [single_self, Option.some_or], rfl⟩
        · obtain ⟨j, alert', hj, rfl⟩ := hw.announces o' row hold
          have hne : j ≠ k := by
            rintro rfl
            rw [hk] at hj
            cases hj
          exact ⟨j, alert', by rw [single_of_ne _ hne, Option.none_or, hj], rfl⟩
      · rcases overlay_cases ho' with ⟨rfl, hx⟩ | ⟨-, hold⟩
        · obtain ⟨rfl, rfl⟩ := announcement_inj hx
          rcases overlay_cases ho'' with ⟨rfl, -⟩ | ⟨-, hold'⟩
          · rfl
          · exact absurd hold' (hfresh o'' y)
        · rcases overlay_cases ho'' with ⟨rfl, hy⟩ | ⟨-, hold'⟩
          · obtain ⟨rfl, rfl⟩ := announcement_inj hy
            exact absurd hold (hfresh o' x)
          · exact hw.once o' o'' j x y hold hold'

abbrev discipline : Discipline Db Error (Uuid × DisasterAlert) CreateAlert :=
  schema.discipline policy (Ensures.nothing schema policy)

theorem safe_refreshAlert {adm : Db → Db → Prop} {a : CreateAlert} {t : Sid} {W : Rows} {s : Db}
    {k : Nat} (hs : Holding schema policy t W s) :
    Safe discipline adm a t (Returns fun alert u => Resumed schema policy t W (schema.rows s) u ∧
      (schema.overlay W (schema.rows s)).alerts k = some alert) (refreshAlert k) s := by
  refine safe_selectKey (tables.column .alerts) hs fun u hu => ?_
  show Safe discipline adm a t _
    (match (schema.overlay W (schema.rows s)).alerts k with
      | none => Prog.raise .noResult
      | some alert => pure alert) u
  cases h : (schema.overlay W (schema.rows s)).alerts k with
  | none => exact trivial
  | some alert => exact ⟨hu, rfl⟩

theorem verified : discipline.Verified (fun _ _ _ _ => True) CreateAlert.body := by
  intro a t s hi hidle
  have hs : Holding schema policy t (schema.nothing) s := ⟨hi.1, hi.2, hidle⟩
  show Safe discipline _ a t Ends (createAlert a.principal a.data a.now) s
  unfold createAlert
  split
  · exact trivial
  · cases a.principal.tenantId with
    | none => exact trivial
    | some tenant =>
        show Safe discipline _ a t Ends (if _ then _ else _) s
        split
        · exact trivial
        · refine safe_insert (tables.column .alerts) hs (.free fun _ => trivial)
            fun k hk _ s₁ h₁ => ?_
          refine safe_bind (safe_refreshAlert h₁.toHolding) fun alert s₂ h₂ => ?_
          obtain ⟨h₂, hread⟩ := h₂
          refine safe_insert (tables.column .outbox) h₂.toHolding (.free fun _ => trivial)
            fun o ho _ s₃ h₃ => ?_
          have halert : alert = newAlert tenant a.principal.userId a.data a.now := by
            have hread : (Function.update noRows k (some (newAlert tenant a.principal.userId
                a.data a.now)) k).or _ = some alert := hread
            rw [Function.update_self, Option.some_or] at hread
            exact (Option.some.inj hread).symm
          subst halert
          have hk₁ : (schema.rows s₁).alerts k = none :=
            h₁.locked (tables.column .alerts) (Function.update_self k _ noRows) hk
          have hk₂ : (schema.rows s₂).alerts k = none :=
            h₂.locked (tables.column .alerts) (Function.update_self k _ noRows) hk₁
          have hk₃ : (schema.rows s₃).alerts k = none :=
            h₃.locked (tables.column .alerts) (Function.update_self k _ noRows) hk₂
          have ho₃ : (schema.rows s₃).outbox o = none :=
            h₃.locked (tables.column .outbox) (Function.update_self o _ noRows) ho
          refine safe_commit policy_lawful h₃.toHolding (fun _ => .inl (.created hk₃ ho₃))
            fun s₄ h₄ => ?_
          exact safe_bind (safe_refreshAlert h₄.toHolding) fun _ _ _ => trivial

/-! ## Runs -/

section Runs

variable {c : Config Db Error (Uuid × DisasterAlert) CreateAlert}

theorem run_inv (h : Run CreateAlert.body (Config.start Db.initial) c) :
    schema.Bounded c.store ∧ Announced (schema.rows c.store) := by
  have hbounded : schema.Bounded Db.initial := by
    intro i
    cases i <;> exact ⟨empty_bounded, trivial⟩
  have hempty : Announced (schema.rows Db.initial) :=
    ⟨fun _ _ h => (by cases h), fun _ _ h => (by cases h), fun _ _ _ _ _ h => (by cases h)⟩
  exact (Run.sound verified (Config.start_sound ⟨hbounded, hempty⟩ fun _ => rfl) h).inv

end Runs

theorem getAlerts_sorted (s : Db) (principal : Rcp.Principal) :
    (getAlerts s principal).Pairwise fun x y => y.2.createdAt ≤ x.2.createdAt := by
  unfold getAlerts
  cases principal.tenantId with
  | none => exact .nil
  | some tenant =>
      refine (List.pairwise_mergeSort (fun x y z hxy hyz => ?_) (fun x y => ?_) _).imp
        fun h => of_decide_eq_true h
      · exact decide_eq_true ((of_decide_eq_true hyz).trans (of_decide_eq_true hxy))
      · rcases le_total y.2.createdAt x.2.createdAt with h | h
        · simp [h]
        · simp [h]

end Alerts
end Logistics
end Rcp
