/-
Reading events (`services/volunteer/app/api/routes_events.py`).

Volunteers are matched with the events of all tenants, and both endpoints filter by the
tenant of the token.  IAM leaves it empty for a volunteer, unless a tenant was found near
the location given at registration: then only the events of this tenant can be read.
-/
import Rcp.Common.Auth
import Rcp.Rto.Dispatch
import Rcp.Volunteer.Greedy

namespace Rcp
namespace Volunteer

open Sql Sql.Table

/-! ## The endpoints -/

/-- An event with its id and its requirements. -/
abbrev EventRead := Uuid × DisasterEvent × List (Uuid × EventRequirement)

/-- `require_roles("tenant_admin", "coordinator", "volunteer")`. -/
def readers : List String := ["tenant_admin", "coordinator", "volunteer"]

/-- The filter by the tenant of the principal, if there is one. -/
def inScope (principal : Principal) (event : DisasterEvent) : Bool :=
  match principal.tenantId with
  | none => true
  | some tenantId => event.tenantId == tenantId

/-- `selectinload(DisasterEvent.requirements)`. -/
def loadRequirements (events : List (Uuid × DisasterEvent)) : Prog Db Error (List EventRead) := do
  let rows ← select Db.requirementsT fun _ r => (events.map Prod.fst).contains r.eventId
  return events.map fun e => (e.1, e.2, rows.filter fun r => r.2.eventId == e.1)

/- The latest event comes first: ids grow with `created_at`. -/
def listEvents (principal : Principal) : Prog Db Error (List EventRead) :=
  if requireAnyRole readers principal = false then
    .raise (.httpException 403 "Insufficient permissions")
  else do
    let events ← select Db.eventsT fun _ event => inScope principal event
    loadRequirements events.reverse

def readEvent (eventId : Uuid) (principal : Principal) : Prog Db Error EventRead :=
  if requireAnyRole readers principal = false then
    .raise (.httpException 403 "Insufficient permissions")
  else do
    let events ← select Db.eventsT fun id event => id == eventId && inScope principal event
    match (← loadRequirements events).head? with
    | none => .raise (.httpException 404 "Event not found")
    | some event => return event

/-- `read_event` returns the event, and `list_events` contains it. -/
def Opens (s : Db) (t : Sid) (principal : Principal) (e : Uuid) : Prop :=
  (∃ event s', (readEvent e principal).call t s = some (.ok event, s') ∧ event.1 = e) ∧
    ∃ events s', (listEvents principal).call t s = some (.ok events, s') ∧
      e ∈ events.map Prod.fst

section

variable {s : Db} {t : Sid} {principal : Principal} {e : Uuid} {ev : DisasterEvent}

theorem exec_loadRequirements (events : List (Uuid × DisasterEvent)) :
    ∃ rows, (loadRequirements events).exec t s = some (.ok rows, s) ∧
      rows.map Prod.fst = events.map Prod.fst := by
  refine ⟨_, rfl, ?_⟩
  rw [List.map_map]
  rfl

theorem exec_listEvents (hrole : requireAnyRole readers principal = true) :
    ∃ events, (listEvents principal).exec t s = some (.ok events, s) ∧
      events.map Prod.fst =
        (((s.events.scan t).filter fun row => inScope principal row.2).reverse).map Prod.fst := by
  obtain ⟨rows, hexec, hrows⟩ := exec_loadRequirements (s := s) (t := t)
    ((s.events.scan t).filter fun row => inScope principal row.2).reverse
  refine ⟨rows, ?_, hrows⟩
  unfold listEvents
  rw [if_neg (by simp [hrole]), Prog.exec_bind]
  exact hexec

theorem exec_readEvent (hrole : requireAnyRole readers principal = true) :
    ∃ events : List EventRead, events.map Prod.fst = ((s.events.scan t).filter fun row =>
        row.1 == e && inScope principal row.2).map Prod.fst ∧
      (readEvent e principal).exec t s =
        match events.head? with
        | none => some (.error (.httpException 404 "Event not found"), s)
        | some event => some (.ok event, s) := by
  obtain ⟨rows, hexec, hrows⟩ := exec_loadRequirements (s := s) (t := t)
    ((s.events.scan t).filter fun row => row.1 == e && inScope principal row.2)
  refine ⟨rows, hrows, ?_⟩
  unfold readEvent
  rw [if_neg (by simp [hrole]), Prog.exec_bind]
  show Prog.exec t (loadRequirements ((s.events.scan t).filter fun row =>
    row.1 == e && inScope principal row.2) >>= _) s = _
  rw [Prog.exec_bind, hexec]
  cases rows with
  | nil => rfl
  | cons event rest => rfl

/-- Whoever has one of the roles opens exactly the events in scope. -/
theorem opens_iff (hb : s.events.Bounded) (hread : s.events.read t e = some ev)
    (hrole : requireAnyRole readers principal = true) :
    Opens s t principal e ↔ inScope principal ev = true := by
  obtain ⟨events, hevents, hlist⟩ := exec_listEvents (s := s) (t := t) hrole
  obtain ⟨found, hfound, hone⟩ := exec_readEvent (s := s) (t := t) (e := e) hrole
  have hmem : (e, ev) ∈ s.events.scan t := (Table.mem_scan hb).mpr hread
  constructor
  · rintro ⟨-, l, s', hcall, hin⟩
    unfold Prog.call at hcall
    rw [hevents] at hcall
    cases hcall
    rw [hlist] at hin
    obtain ⟨⟨k, row⟩, hrow, rfl⟩ := List.mem_map.mp hin
    obtain ⟨hscan, hscope⟩ := List.mem_filter.mp (List.mem_reverse.mp hrow)
    have hsame := (Table.mem_scan hb).mp hscan
    cases hread.symm.trans hsame
    exact hscope
  · intro hscope
    constructor
    · have hmine : (e, ev) ∈ (s.events.scan t).filter fun row =>
          row.1 == e && inScope principal row.2 := List.mem_filter.mpr ⟨hmem, by simp [hscope]⟩
      cases found with
      | nil =>
          have hkey := List.mem_map_of_mem (f := Prod.fst) hmine
          rw [← hfound] at hkey
          cases hkey
      | cons event rest =>
          have hkey : event.1 ∈ ((s.events.scan t).filter fun row =>
              row.1 == e && inScope principal row.2).map Prod.fst := by
            rw [← hfound]
            exact List.mem_cons_self
          obtain ⟨row, hrow, heq⟩ := List.mem_map.mp hkey
          have hrow' : row.1 = e := by
            have hboth := (List.mem_filter.mp hrow).2
            simp only [Bool.and_eq_true, beq_iff_eq] at hboth
            exact hboth.1
          refine ⟨event, Transactional.rollback t s, ?_, heq ▸ hrow'⟩
          unfold Prog.call
          rw [hone]
          rfl
    · refine ⟨events, Transactional.rollback t s, ?_, ?_⟩
      · unfold Prog.call
        rw [hevents]
        rfl
      · rw [hlist]
        exact List.mem_map_of_mem
          (List.mem_reverse.mpr (List.mem_filter.mpr ⟨hmem, hscope⟩))

end

/-! ## Notified volunteers -/

/-- The token of a volunteer has one of the roles. -/
theorem volunteer_reads {roles : List String} {principal : Principal}
    (hroles : principal.roles = roles) (h : lower Iam.UserType.volunteer.value ∈ roles) :
    requireAnyRole readers principal = true := by
  have hname : lower Iam.UserType.volunteer.value = "volunteer" := by decide +kernel
  rw [hname] at h
  simp [requireAnyRole, readers, hroles, h]

section

variable {env : Iam.Env} {tenants : List Iam.Tenant} {users : List Iam.User}
  {roleAssignments : List Iam.RoleAssignment} {c : Config Iam.Db Iam.Error Iam.Reply Iam.Call}
  {token : Iam.Claims} {user : Iam.User}

/-- A volunteer opens the events in the scope of the token. -/
theorem volunteer_opens_iff
    (hiam : Run (Iam.Call.body env)
      (Config.start (Iam.Db.initial tenants users roleAssignments)) c)
    (hissued : Iam.Issued c token) (huser : c.store.users.committed token.sub = some user)
    (hvolunteer : user.userType = .volunteer) {profiles : List VolunteerProfile} {d : Cluster}
    (hrun : Run Call.body (Config.start (Db.initial profiles)) d) {e : Uuid} {ev : DisasterEvent}
    (hev : d.store.events.committed e = some ev) {t : Sid} (ht : d.sessions t = none) :
    Opens d.store t (.ofClaims token) e ↔ inScope (.ofClaims token) ev = true := by
  have hsound := hrun.sound (verified _) (start_sound (fun _ _ _ _ => True) profiles)
  have hidle : schema.writes t d.store = schema.nothing := hsound.idle t ht
  have hunwritten : d.store.events.writes t e = none := congrFun (congrArg Rows.events hidle) e
  have hread : d.store.events.read t e = some ev := by
    rw [read_of_not_written hunwritten]
    exact hev
  have hrole := Iam.token_role hiam hissued huser
  rw [hvolunteer] at hrole
  exact opens_iff (run_inv hrun).1.events hread (volunteer_reads rfl hrole)

/-- What is in the scope of a volunteer's token depends on the assigned tenant. -/
theorem volunteer_scope_iff
    (hiam : Run (Iam.Call.body env)
      (Config.start (Iam.Db.initial tenants users roleAssignments)) c)
    (hissued : Iam.Issued c token) (huser : c.store.users.committed token.sub = some user)
    (hvolunteer : user.userType = .volunteer) (ev : DisasterEvent) :
    inScope (.ofClaims token) ev = true ↔
      user.assignedTenantId = none ∨ user.assignedTenantId = some ev.tenantId := by
  have hclaim : (Principal.ofClaims token).tenantId = user.assignedTenantId := by
    show token.tenantId = _
    rw [Iam.token_tenant hiam hissued huser, Rto.volunteer_tenant hvolunteer]
  unfold inScope
  rw [hclaim]
  cases user.assignedTenantId with
  | none => simp
  | some tenantId =>
      simp only [beq_iff_eq, reduceCtorEq, Option.some.injEq, false_or]
      exact eq_comm

/-- A notified volunteer opens the event if and only if the volunteer was assigned to no
tenant at registration, or to the tenant of the event. -/
theorem notified_volunteer_opens_iff
    (hiam : Run (Iam.Call.body env)
      (Config.start (Iam.Db.initial tenants users roleAssignments)) c)
    (hissued : Iam.Issued c token) (huser : c.store.users.committed token.sub = some user)
    (hvolunteer : user.userType = .volunteer) {profiles : List VolunteerProfile} {d : Cluster}
    (hrun : Run Call.body (Config.start (Db.initial profiles)) d) {k : Uuid}
    {m : EventVolunteerMapping} (_hm : d.store.mappings.committed k = some m)
    {profile : VolunteerProfile}
    (_hprofile : d.store.profiles.committed m.volunteerId = some profile)
    (_hsame : profile.userId = token.sub) {ev : DisasterEvent}
    (hev : d.store.events.committed m.eventId = some ev) {t : Sid} (ht : d.sessions t = none) :
    Opens d.store t (.ofClaims token) m.eventId ↔
      user.assignedTenantId = none ∨ user.assignedTenantId = some ev.tenantId := by
  rw [volunteer_opens_iff hiam hissued huser hvolunteer hrun hev ht]
  exact volunteer_scope_iff hiam hissued huser hvolunteer ev

end

/-- The two runs: Amara was assigned to tenant 1 and lives in Colombo, where a tenant
declares a flood. -/
structure ReadScene (tenantId : Uuid) where
  iam : Config Iam.Db Iam.Error Iam.Reply Iam.Call
  cluster : Cluster
  token : Iam.Claims
  user : Iam.User
  event : DisasterEvent
  iam_run : Run (Iam.Call.body Rto.located)
    (Config.start (Iam.Db.initial [Rto.valley, Rto.riverside] [] [])) iam
  issued : Iam.Issued iam token
  user_row : iam.store.users.committed token.sub = some user
  volunteer : user.userType = .volunteer
  assigned : user.assignedTenantId = some 1
  run : Run Call.body (Config.start (Db.initial [boatDriver 0])) cluster
  mapping : cluster.store.mappings.committed 0 = some ⟨0, 0, 0, .notified, none⟩
  profile : cluster.store.profiles.committed 0 = some (boatDriver 0)
  sub : (boatDriver 0).userId = token.sub
  event_row : cluster.store.events.committed 0 = some event
  tenant : event.tenantId = tenantId
  idle : ∀ t, cluster.sessions t = none

def matchedRun (tenantId : Uuid) : Option Cluster :=
  (Config.start (Db.initial [boatDriver 0])).perform Call.body
    [.declareEvent tenantId 2 (flood 2 two_pos_places two_le_places), .runMatching 0]

def readFacts (tenantId : Uuid) : Option Bool :=
  (Rto.iamRun (Rto.amaraLogsIn (some (.finite 0)))).bind fun c =>
  (Rto.tokens c).head?.bind fun token =>
  (c.store.users.committed token.sub).bind fun user =>
  (matchedRun tenantId).bind fun d =>
  (d.store.events.committed 0).map fun event =>
    decide (user.userType = .volunteer ∧ user.assignedTenantId = some 1 ∧
      d.store.mappings.committed 0 = some ⟨0, 0, 0, .notified, none⟩ ∧
      d.store.profiles.committed 0 = some (boatDriver 0) ∧ (boatDriver 0).userId = token.sub ∧
      event.tenantId = tenantId)

theorem readScene_of_facts {tenantId : Uuid} (h : readFacts tenantId = some true) :
    Nonempty (ReadScene tenantId) := by
  simp only [readFacts, Option.bind_eq_some_iff, Option.map_eq_some_iff, decide_eq_true_eq] at h
  obtain ⟨c, hc, token, htoken, user, huser, d, hd, event, hevent, hvolunteer, hassigned, hmapping,
    hprofile, hsub, htenant⟩ := h
  exact ⟨{
    iam := c
    cluster := d
    token := token
    user := user
    event := event
    iam_run := Config.perform_run (fun _ => rfl) hc
    issued := Rto.issued_of_mem (List.mem_of_head? htoken)
    user_row := huser
    volunteer := hvolunteer
    assigned := hassigned
    run := Config.perform_run (fun _ => rfl) hd
    mapping := hmapping
    profile := hprofile
    sub := hsub
    event_row := hevent
    tenant := htenant
    idle := fun t => congrFun (Config.perform_sessions hd) t }⟩

/-- The flood is declared by the tenant that Amara was assigned to. -/
theorem notified_volunteer_opens_amara : ∃ x : ReadScene 1,
    Opens x.cluster.store 9 (.ofClaims x.token) 0 := by
  obtain ⟨x⟩ := readScene_of_facts (show readFacts 1 = some true by decide +kernel)
  refine ⟨x, (notified_volunteer_opens_iff x.iam_run x.issued x.user_row x.volunteer x.run
    x.mapping x.profile x.sub x.event_row (x.idle 9)).mpr ?_⟩
  rw [x.assigned, x.tenant]
  exact .inr rfl

/-- The flood is declared by another tenant. -/
theorem notified_volunteer_not_found :
    ¬ ∀ (env : Iam.Env) (tenants : List Iam.Tenant) (users : List Iam.User)
      (roleAssignments : List Iam.RoleAssignment) (c : Config Iam.Db Iam.Error Iam.Reply Iam.Call)
      (token : Iam.Claims) (user : Iam.User) (profiles : List VolunteerProfile) (d : Cluster)
      (k : Uuid) (m : EventVolunteerMapping) (profile : VolunteerProfile) (t : Sid),
      Run (Iam.Call.body env) (Config.start (Iam.Db.initial tenants users roleAssignments)) c →
      Iam.Issued c token → c.store.users.committed token.sub = some user →
      user.userType = .volunteer → Run Call.body (Config.start (Db.initial profiles)) d →
      d.store.mappings.committed k = some m →
      d.store.profiles.committed m.volunteerId = some profile → profile.userId = token.sub →
      d.sessions t = none → Opens d.store t (.ofClaims token) m.eventId := by
  intro hall
  obtain ⟨x⟩ := readScene_of_facts (show readFacts 5 = some true by decide +kernel)
  have hopens := hall _ _ _ _ _ _ _ _ _ _ _ _ 9 x.iam_run x.issued x.user_row x.volunteer x.run
    x.mapping x.profile x.sub (x.idle 9)
  have hscope := (volunteer_opens_iff x.iam_run x.issued x.user_row x.volunteer x.run x.event_row
    (x.idle 9)).mp hopens
  have hassigned := (volunteer_scope_iff x.iam_run x.issued x.user_row x.volunteer x.event).mp
    hscope
  rw [x.assigned, x.tenant] at hassigned
  revert hassigned
  decide

end Volunteer
end Rcp
