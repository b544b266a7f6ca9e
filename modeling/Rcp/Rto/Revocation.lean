/-
What handling a deactivation does to the sockets and the tokens of the user.

`DropUser` looks under the tenant of the event, which is the user's own.  A socket
stands under the tenant of its token, which is the assigned tenant where there is one.
-/
import Rcp.Rto.Wiring
import Rcp.Iam.Exchange
import Rcp.Iam.Tenancy
import Rcp.Sql.Schedule

namespace Rcp
namespace Rto

open Sql Growth

/-- Socket `k` is registered in the hub of the process. -/
def Registered (w : World) (server k : Nat) (c : Client) : Prop :=
  w.clients k = some c ∧ World.entry k c ∈ (w.servers server).conns

/-- The store after a revocation that names a user. -/
def World.revoked (w : World) (server : Nat) (tenantId : Option Uuid) (userId : Uuid) : World :=
  (w.denyUser server userId).dropUser server tenantId userId

theorem handle_deactivated {event : Envelope Iam.Message} {userId : Uuid}
    {tenantId : Option Uuid} {status : String} {occurredAt : Time}
    (htype : event.eventType = "iam.user.deactivated")
    (hdata : event.data = .userDeactivated userId tenantId status occurredAt) (server : Nat)
    (t : Sid) (w : World) :
    (handle server (.ofIam event)).exec t w =
      some (.ok (), w.revoked server event.tenantId userId) := by
  have huser : (Event.ofIam event).data.userId = some userId := by
    simp only [Event.ofIam, hdata, Payload.userId]
  have hjti : (Event.ofIam event).data.jti = none := rfl
  have hhandle : handle server (.ofIam event) = onRevocation server (.ofIam event) := by
    simp only [handle, Event.ofIam, htype]
    simp
  rw [hhandle, onRevocation, huser, hjti]
  rfl

section

variable {w : World} {server k : Nat} {tenantId : Option Uuid} {userId : Uuid}

theorem denyUser_conns (i : Nat) :
    ((w.denyUser server userId).servers i).conns = (w.servers i).conns := by
  by_cases hi : i = server
  · subst hi
    simp only [World.denyUser, World.setServer, Function.update_self]
  · simp only [World.denyUser, World.setServer, Function.update_of_ne hi]

theorem mem_userSockets {s : Server} :
    k ∈ s.userSockets tenantId userId ↔
      (⟨tenantId, userId, k⟩ : Conn) ∈ s.conns := by
  simp only [Server.userSockets, List.mem_map, List.mem_filter, decide_eq_true_eq]
  constructor
  · rintro ⟨conn, ⟨hconn, rfl, rfl⟩, rfl⟩
    exact hconn
  · intro h
    exact ⟨_, ⟨h, rfl, rfl⟩, rfl⟩

/-- A socket that is registered is registered under its own keys only. -/
theorem Wired.mem_userSockets (hw : Wired w) {c : Client} (hc : Registered w server k c) :
    k ∈ (w.servers server).userSockets tenantId userId ↔
      c.tenantId = tenantId ∧ c.userId = userId := by
  rw [Rto.mem_userSockets]
  constructor
  · intro h
    obtain ⟨c', hc', -, hentry⟩ := hw.conns server _ h
    obtain rfl : c = c' := Option.some.inj (hc.1.symm.trans hc')
    have hkeys := Conn.mk.inj hentry
    exact ⟨hkeys.1.symm, hkeys.2.1.symm⟩
  · rintro ⟨rfl, rfl⟩
    exact hc.2

/-- `DropUser` closes the sockets under the tenant of the event, and no others. -/
theorem revoked_closed (hw : Wired w) {c : Client} (hc : Registered w server k c)
    (huser : c.userId = userId) :
    (∃ c', (w.revoked server tenantId userId).clients k = some c' ∧ c'.closed = true) ↔
      c.closed = true ∨ c.tenantId = tenantId := by
  have hsockets : ((w.denyUser server userId).servers server).userSockets tenantId userId =
      (w.servers server).userSockets tenantId userId := by
    unfold Server.userSockets
    rw [denyUser_conns]
  have hclients : (w.revoked server tenantId userId).clients k =
      if k ∈ (w.servers server).userSockets tenantId userId then
        some (c.trySend (.forceLogout "account_disabled")).close
      else some c := by
    have hk : (w.denyUser server userId).clients k = some c := hc.1
    unfold World.revoked World.dropUser
    rw [hsockets]
    simp only [World.drop, World.forEach, hk, Option.map_some]
  rw [hclients]
  by_cases hmem : k ∈ (w.servers server).userSockets tenantId userId
  · rw [if_pos hmem]
    obtain ⟨htenant, -⟩ := (hw.mem_userSockets hc).mp hmem
    exact ⟨fun _ => .inr htenant, fun _ => ⟨_, rfl, rfl⟩⟩
  · rw [if_neg hmem]
    have hne : c.tenantId ≠ tenantId :=
      fun htenant => hmem ((hw.mem_userSockets hc).mpr ⟨htenant, huser⟩)
    constructor
    · rintro ⟨c', hc', hclosed⟩
      cases hc'
      exact .inl hclosed
    · intro h
      exact ⟨c, rfl, h.resolve_right hne⟩

theorem revoked_up (hw : Wired w) : wiring.Up w (w.revoked server tenantId userId) := by
  have hdeny := hw.denyUser server userId
  have hdrop : Wired (w.revoked server tenantId userId) ∧
      Later (w.denyUser server userId) (w.revoked server tenantId userId) :=
    hdeny.1.forEach _ fun c => by simp
  exact ⟨hdrop.1, hdeny.2.trans hdrop.2⟩

theorem revoked_denied : ((w.revoked server tenantId userId).servers server).verifier.denyUser
    userId = some (w.now + denyPeriod) := by
  show ((w.denyUser server userId).servers server).verifier.denyUser userId = _
  simp only [World.denyUser, World.setServer, Function.update_self]

theorem verify_denied {v : Verifier} {now limit : Time} {token : Iam.Claims}
    (hdenied : v.denyUser token.sub = some limit) (hnow : now < limit) :
    ∃ e, v.verify now token = .error e := by
  have hdenies : v.isDenied now (Verifier.claims token) = true := by
    have huser : Verifier.denies now (v.denyUser token.sub) = true := by
      rw [hdenied]
      exact decide_eq_true hnow
    show (Verifier.denies now (v.denyUser token.sub) || _) = true
    rw [huser, Bool.true_or]
  unfold Verifier.verify
  rw [if_pos hdenies]
  split
  · exact ⟨_, rfl⟩
  · exact ⟨_, rfl⟩

end

/-- The tokens of the user are refused until the deny period ends. -/
theorem verify_fails {now : Time} {d d' : Config World Error Unit Call}
    (h : Run Call.body (Config.start (World.initial now)) d) {server : Nat}
    {tenantId : Option Uuid} {userId : Uuid}
    (h' : Run Call.body { d with store := d.store.revoked server tenantId userId } d')
    (hnow : d'.store.now < d.store.now + denyPeriod) {token : Iam.Claims}
    (htoken : token.sub = userId) :
    ∃ e, (d'.store.servers server).verifier.verify d'.store.now token = .error e := by
  have hsound := wiring_sound h
  have hup := runWith_up wiring_verified (sound_up hsound (revoked_up hsound.inv)) h'.always
  obtain ⟨limit, hlimit, hle⟩ := hup.2.denied server userId _ revoked_denied
  rw [← htoken] at hlimit
  exact verify_denied hlimit (lt_of_lt_of_le hnow hle)

/-- The process has an open socket of the user, opened with a token that IAM has issued. -/
def Connected (c : Config Iam.Db Iam.Error Iam.Reply Iam.Call) (w : World) (server : Nat)
    (userId : Uuid) : Prop :=
  ∃ k client, Registered w server k client ∧ client.userId = userId ∧
    Iam.Issued c client.token ∧ client.closed = false

/-- In store `w` the sockets that the user had in the hub are closed, and from then on the
process refuses the tokens of the user until the deny period ends. -/
structure Disconnected (c : Config Iam.Db Iam.Error Iam.Reply Iam.Call)
    (d : Config World Error Unit Call) (server : Nat) (userId : Uuid) (w : World) : Prop where
  closed : ∀ k client, Registered d.store server k client → client.userId = userId →
    Iam.Issued c client.token → ∃ client', w.clients k = some client' ∧ client'.closed = true
  refused : ∀ d', Run Call.body { d with store := w } d' →
    d'.store.now < d.store.now + denyPeriod → ∀ token : Iam.Claims, token.sub = userId →
      ∃ e, (d'.store.servers server).verifier.verify d'.store.now token = .error e

/-- Handling the deactivation of a user disconnects the user if and only if the user was not
connected or was not assigned to a tenant other than the user's own. -/
theorem deactivation_disconnects_iff {env : Iam.Env} {tenants : List Iam.Tenant}
    {users : List Iam.User} {roleAssignments : List Iam.RoleAssignment}
    {c : Config Iam.Db Iam.Error Iam.Reply Iam.Call}
    (hiam : Run (Iam.Call.body env)
      (Config.start (Iam.Db.initial tenants users roleAssignments)) c)
    {userId : Uuid} {user : Iam.User} (huser : c.store.users.committed userId = some user)
    {o : Nat} {row : Outbox Iam.Message} (hrow : c.store.outbox.Has o row)
    {tenantId : Option Uuid} {status : String} {occurredAt : Time}
    (hdata : row.payload.data = .userDeactivated userId tenantId status occurredAt)
    {now : Time} {d : Config World Error Unit Call}
    (hrto : Run Call.body (Config.start (World.initial now)) d) (server : Nat) (t : Sid) :
    ∃ w, (handle server (.ofIam row.payload)).exec t d.store = some (.ok (), w) ∧
      (Disconnected c d server userId w ↔ (Connected c d.store server userId →
        user.assignedTenantId = none ∨ user.assignedTenantId = user.tenantId)) := by
  obtain ⟨htype, htenant⟩ := Iam.deactivated_tenant hiam hrow hdata huser
  refine ⟨_, handle_deactivated htype hdata server t d.store, ?_⟩
  rw [htenant]
  have hw : Wired d.store := (wiring_sound hrto).inv
  have hclaim : ∀ k client, Registered d.store server k client → client.userId = userId →
      Iam.Issued c client.token → client.tenantId = user.effectiveTenantId := by
    intro k client hreg hid hissued
    obtain ⟨-, hclient, hsub⟩ := hw.clients k client hreg.1
    rw [hclient]
    refine Iam.token_tenant hiam hissued ?_
    rw [← hsub, hid]
    exact huser
  have hsame : user.effectiveTenantId = user.tenantId ↔
      user.assignedTenantId = none ∨ user.assignedTenantId = user.tenantId := by
    unfold Iam.User.effectiveTenantId
    cases user.assignedTenantId with
    | none => simp
    | some assigned => simp
  constructor
  · rintro ⟨hclosed, -⟩ ⟨k, client, hreg, hid, hissued, hopen⟩
    rcases (revoked_closed hw hreg hid).mp (hclosed k client hreg hid hissued) with hc | hc
    · rw [hopen] at hc
      cases hc
    · rw [← hsame, ← hclaim k client hreg hid hissued]
      exact hc
  · intro hcond
    refine ⟨fun k client hreg hid hissued => ?_, fun d' hrun hnow token htoken => ?_⟩
    · rw [revoked_closed hw hreg hid]
      cases hc : client.closed with
      | true => exact .inl rfl
      | false =>
          right
          rw [hclaim k client hreg hid hissued, hsame]
          exact hcond ⟨k, client, hreg, hid, hissued, hc⟩
    · exact verify_fails hrto hrun hnow htoken

/-- The access tokens in a log. -/
def tokens (c : Config Iam.Db Iam.Error Iam.Reply Iam.Call) : List Iam.Claims :=
  c.log.filterMap fun entry =>
    match entry.2.2 with
    | .ok (.pair (some pair)) => some pair.accessToken
    | _ => none

theorem issued_of_mem {c : Config Iam.Db Iam.Error Iam.Reply Iam.Call} {token : Iam.Claims}
    (h : token ∈ tokens c) : Iam.Issued c token := by
  obtain ⟨⟨t, a, r⟩, hlog, hentry⟩ := List.mem_filterMap.mp h
  split at hentry
  · rename_i pair hr
    cases hentry
    simp only at hr
    subst hr
    exact ⟨t, a, pair, hlog, rfl⟩
  · cases hentry

/-- The nearest tenant is the first one that has a location. -/
def located : Iam.Env :=
  { Iam.plain with nearest := fun tenants _ _ => tenants.head?.map Prod.fst }

def valley : Iam.Tenant := { slug := "valley", latitude := none, longitude := none }

def riverside : Iam.Tenant :=
  { slug := "riverside", latitude := some (.finite 0), longitude := some (.finite 0) }

/-- Amara registers, with or without a location, and logs in. -/
def amaraLogsIn (location : Option PyFloat) : List Iam.Call :=
  [.registerGlobalUser { Iam.amara with latitude := location, longitude := location } "salt"
      (Iam.tick 0),
    .login { email := Iam.amara.email, password := Iam.amara.password }
      { refreshToken := "first", jti := 1 } (Iam.tick 10)]

def iamRun (l : List Iam.Call) : Option (Config Iam.Db Iam.Error Iam.Reply Iam.Call) :=
  (Config.start (Iam.Db.initial [valley, riverside] [] [])).perform (Iam.Call.body located) l

/-- A client opens a socket at the first process. -/
def connectRun (token : Iam.Claims) : Option (Config World Error Unit Call) :=
  (Config.start (World.initial 30)).perform Call.body [.connect 0 token 0]

/-- The two runs, and what they have in common in both cases. -/
structure Scene (location : Option PyFloat) where
  iam : Config Iam.Db Iam.Error Iam.Reply Iam.Call
  rto : Config World Error Unit Call
  client : Client
  user : Iam.User
  row : Outbox Iam.Message
  iam_run : Run (Iam.Call.body located)
    (Config.start (Iam.Db.initial [valley, riverside] [] [])) iam
  rto_run : Run Call.body (Config.start (World.initial 30)) rto
  registered : Registered rto.store 0 0 client
  user_row : iam.store.users.committed 0 = some user
  event : iam.store.outbox.committed 1 = some row
  data : row.payload.data = .userDeactivated 0 none "disabled" 21
  issued : Iam.Issued iam client.token
  userId : client.userId = 0
  live : client.closed = false
  assigned : user.assignedTenantId = location.map fun _ => 1
  claim : client.tenantId = location.map fun _ => 1
  own : user.tenantId = none

def sceneFacts (location : Option PyFloat) : Option Bool :=
  (iamRun (amaraLogsIn location ++ [.setUserStatus 0 "disabled" (Iam.tick 20)])).bind fun c =>
  (tokens c).head?.bind fun token =>
  (connectRun token).bind fun d =>
  (d.store.clients 0).bind fun client =>
  (c.store.users.committed 0).bind fun user =>
  (c.store.outbox.committed 1).map fun row =>
    decide (World.entry 0 client ∈ (d.store.servers 0).conns ∧
      row.payload.data = .userDeactivated 0 none "disabled" 21 ∧ client.token = token ∧
      client.userId = 0 ∧ client.closed = false ∧
      user.assignedTenantId = location.map (fun _ => 1) ∧
      client.tenantId = location.map (fun _ => 1) ∧ user.tenantId = none)

theorem scene_of_facts (location : Option PyFloat) (h : sceneFacts location = some true) :
    Nonempty (Scene location) := by
  simp only [sceneFacts, Option.bind_eq_some_iff, Option.map_eq_some_iff,
    decide_eq_true_eq] at h
  obtain ⟨c, hc, token, htoken, d, hd, client, hclient, user, huser, row, hrow, hentry, hdata,
    htoken', hid, hopen, hassigned, hclaim, hown⟩ := h
  exact ⟨{
    iam := c
    rto := d
    client := client
    user := user
    row := row
    iam_run := Config.perform_run (fun _ => rfl) hc
    rto_run := Config.perform_run (fun _ => rfl) hd
    registered := ⟨hclient, hentry⟩
    user_row := huser
    event := hrow
    data := hdata
    issued := htoken' ▸ issued_of_mem (List.mem_of_head? htoken)
    userId := hid
    live := hopen
    assigned := hassigned
    claim := hclaim
    own := hown }⟩

/-- Without a location the user is assigned to no tenant and is disconnected. -/
theorem deactivation_disconnects_amara : ∃ (x : Scene none) (w : World),
    (handle 0 (.ofIam x.row.payload)).exec 9 x.rto.store = some (.ok (), w) ∧
      Connected x.iam x.rto.store 0 0 ∧ Disconnected x.iam x.rto 0 0 w := by
  obtain ⟨x⟩ := scene_of_facts none (by decide +kernel)
  obtain ⟨w, hw, hiff⟩ := deactivation_disconnects_iff x.iam_run x.user_row (.inl x.event) x.data
    x.rto_run 0 9
  refine ⟨x, w, hw, ⟨0, x.client, x.registered, x.userId, x.issued, x.live⟩, ?_⟩
  exact hiff.mpr fun _ => .inl x.assigned

/-- The property that fails for a user with an assigned tenant. -/
theorem assigned_user_stays_connected : ¬ ∀ (env : Iam.Env) (tenants : List Iam.Tenant)
    (users : List Iam.User) (roleAssignments : List Iam.RoleAssignment)
    (c : Config Iam.Db Iam.Error Iam.Reply Iam.Call), Run (Iam.Call.body env)
      (Config.start (Iam.Db.initial tenants users roleAssignments)) c →
    ∀ (userId : Uuid) (user : Iam.User), c.store.users.committed userId = some user →
    ∀ (o : Nat) (row : Outbox Iam.Message), c.store.outbox.committed o = some row →
    ∀ (tenantId : Option Uuid) (occurredAt : Time),
      row.payload.data = .userDeactivated userId tenantId "disabled" occurredAt →
    ∀ (now : Time) (d : Config World Error Unit Call),
      Run Call.body (Config.start (World.initial now)) d →
    ∀ (server : Nat) (t : Sid) (w : World),
      (handle server (.ofIam row.payload)).exec t d.store = some (.ok (), w) →
      Disconnected c d server userId w := by
  intro hclaim
  obtain ⟨x⟩ := scene_of_facts (some (.finite 0)) (by decide +kernel)
  obtain ⟨htype, htenant⟩ := Iam.deactivated_tenant x.iam_run (.inl x.event) x.data x.user_row
  have hdisconnected := hclaim located [valley, riverside] [] [] x.iam x.iam_run 0 x.user
    x.user_row 1 x.row x.event none 21 x.data 30 x.rto x.rto_run 0 9 _
    (handle_deactivated htype x.data 0 9 x.rto.store)
  have hclosed := (revoked_closed (wiring_sound x.rto_run).inv x.registered x.userId).mp
    (hdisconnected.closed 0 x.client x.registered x.userId x.issued)
  rw [x.live, x.claim, htenant, x.own] at hclosed
  rcases hclosed with h | h
  · cases h
  · cases h

end Rto
end Rcp
