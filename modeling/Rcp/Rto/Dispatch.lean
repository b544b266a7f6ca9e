/-
How a dispatched task reaches the volunteer.

`SendToUser` looks under the tenant of the event, which is the coordinator's, in the hub
of the process that handles the event.  The volunteer's socket stands under the tenant
claim of its token, which is the tenant assigned at registration.
-/
import Rcp.Rto.Revocation
import Rcp.Logistics.Assigned
import Rcp.Logistics.Sequential

namespace Rcp
namespace Rto

open Sql Growth

/-- The title of the notification of a task. -/
def taskTitle (data : Payload) : String := "New task: " ++ data.title

/-- The notification that `onTaskAssigned` stores. -/
def taskNotification (event : Event) (volunteerId : Uuid) (now : Time) : Notification :=
  { tenantId := event.tenantId
    userId := volunteerId
    type := "task_assigned"
    title := taskTitle event.data
    body := event.data
    createdAt := now }

/-- The store after the transaction of `onTaskAssigned`. -/
def World.notified (w : World) (t : Sid) (event : Event) (volunteerId : Uuid) : World :=
  Transactional.commit t
    { w with
      processedEvents := w.processedEvents.insert t event.eventId
      notifications := w.notifications.insert t (taskNotification event volunteerId w.now)
      syncEvents := w.syncEvents.insert t
        { tenantId := event.tenantId
          entityType := "task"
          entityId := event.data.taskId
          op := "assigned"
          payload := event.data
          occurredAt := w.now } }

/-- The frame that `onTaskAssigned` sends. -/
def taskFrame (id : Uuid) (event : Event) : Frame :=
  .notification id event.eventType (taskTitle event.data) event.data

/-- The store after the live delivery. -/
def World.delivered (w : World) (server : Nat) (event : Event) (volunteerId : Uuid)
    (frame : Frame) : World :=
  if (w.sendToUser server event.tenantId volunteerId frame).1 then
    (w.sendToUser server event.tenantId volunteerId frame).2
  else { (w.sendToUser server event.tenantId volunteerId frame).2 with
    pushed := ⟨event.tenantId, volunteerId, taskTitle event.data, event.data⟩ :: w.pushed }

/-- The first delivery of an event runs `fn` and commits. -/
theorem exec_processEvent {β : Type} {eventId : Uuid} {fn : Prog World Error β} {w w' : World}
    {t : Sid} {b : β} (hnew : ∀ k id, w.processedEvents.Has k id → id ≠ eventId)
    (hfn : fn.exec t { w with processedEvents := w.processedEvents.insert t eventId } =
      some (.ok b, w')) :
    (processEvent eventId fn).exec t w = some (.ok (some b), Transactional.commit t w') := by
  have hinsert : runInsertUnique World.processedEventsT (· == eventId) (fun _ => eventId) t w =
      some (some w.processedEvents.next,
        { w with processedEvents := w.processedEvents.insert t eventId }) :=
    runInsertUnique_new fun k id h => by simpa using hnew k id h
  unfold processEvent
  rw [Prog.exec_bind]
  simp only [insertUnique, Prog.exec, hinsert]
  rw [Prog.exec_bind, hfn]
  rfl

theorem exec_deliver {w : World} {server : Nat} {event : Event} {volunteerId : Uuid}
    {frame : Frame} (t : Sid) :
    (do
      let delivered ← effect fun w => w.sendToUser server event.tenantId volunteerId frame
      if delivered then return ()
      else effect fun w => ((), { w with
        pushed := ⟨event.tenantId, volunteerId, taskTitle event.data, event.data⟩ ::
          w.pushed })).exec t w =
      some (.ok (), w.delivered server event volunteerId frame) := by
  rw [Prog.exec_bind]
  simp only [effect, Prog.exec, World.delivered]
  split
  · rfl
  · rfl

theorem handle_assigned {event : Event} {volunteerId : Uuid}
    (htype : event.eventType = "logistics.task.assigned")
    (hvolunteer : event.data.volunteerUserId = some volunteerId) {w : World}
    (hnew : ∀ k id, w.processedEvents.Has k id → id ≠ event.eventId) (server : Nat) (t : Sid) :
    (handle server event).exec t w = some (.ok (),
      (w.notified t event volunteerId).delivered server event volunteerId
        (taskFrame w.notifications.next event)) := by
  have hhandle : handle server event = onTaskAssigned server event := by
    simp only [handle, htype, if_true]
  rw [hhandle]
  unfold onTaskAssigned
  simp only [hvolunteer]
  rw [Prog.exec_bind, exec_processEvent hnew rfl]
  exact exec_deliver t

/-! ## The volunteer's socket -/

/-- The socket is registered, open and has room in its channel. -/
structure Live (w : World) (q : Nat) (client : Client) : Prop where
  registered : Registered w client.server q client
  opened : client.closed = false
  room : client.hasRoom = true

/-- The notification of the task is in the channel of the socket, and an acknowledgement
from the socket marks the stored notification as read. -/
def Reached (w : World) (q : Nat) (client : Client) (event : Event) : Prop :=
  ∃ id, w.clients q = some { client with send := client.send ++ [taskFrame id event] } ∧
    ∃ row, w.notifications.committed id = some row ∧ row.readAt = none ∧
      ∀ t, ∃ w', (handleAck q id).exec t w = some (.ok (), w') ∧
        ∃ row', w'.notifications.committed id = some row' ∧ row'.readAt.isSome = true

section

variable {w : World} {q : Nat} {client : Client}

theorem delivered_clients (w : World) (server : Nat) (event : Event) (volunteerId : Uuid)
    (frame : Frame) (k : Nat) :
    (w.delivered server event volunteerId frame).clients k =
      if k ∈ (w.servers server).userSockets event.tenantId volunteerId then
        (w.clients k).map (Client.trySend frame)
      else w.clients k := by
  unfold World.delivered
  by_cases h : (w.sendToUser server event.tenantId volunteerId frame).1 = true
  · rw [if_pos h]
    rfl
  · rw [if_neg h]
    rfl

theorem delivered_notifications (w : World) (server : Nat) (event : Event) (volunteerId : Uuid)
    (frame : Frame) :
    (w.delivered server event volunteerId frame).notifications = w.notifications := by
  unfold World.delivered
  by_cases h : (w.sendToUser server event.tenantId volunteerId frame).1 = true
  · rw [if_pos h]
    rfl
  · rw [if_neg h]
    rfl

/-- The notification is stored, and no session has it locked. -/
theorem notified_row (w : World) (t : Sid) (event : Event) (volunteerId : Uuid) :
    (w.notified t event volunteerId).notifications.committed w.notifications.next =
        some (taskNotification event volunteerId w.now) ∧
      (w.notified t event volunteerId).notifications.pending w.notifications.next = none := by
  constructor
  · exact Table.write_read_self ..
  · simp [World.notified, Transactional.commit, Table.commit, Table.insert, Table.write,
      Table.lockedFor]

theorem exec_ack {id : Uuid} {row : Notification} (hclient : w.clients q = some client)
    (hrow : w.notifications.committed id = some row)
    (hfree : w.notifications.pending id = none) (htenant : row.tenantId = client.tenantId)
    (huser : row.userId = client.userId) (hunread : row.readAt = none) (t : Sid) :
    ∃ w', (handleAck q id).exec t w = some (.ok (), w') ∧
      ∃ row', w'.notifications.committed id = some row' ∧ row'.readAt.isSome = true := by
  have hread : w.notifications.read t id = some row := by
    rw [Table.read_of_not_written (by simp [Table.writes, hfree]), hrow]
  have hlock : w.notifications.lockedFor t id = false := by simp [Table.lockedFor, hfree]
  have hupdate : runUpdate World.notificationsT id (fun row => row.tenantId == client.tenantId &&
      row.userId == client.userId && row.readAt.isNone)
      (fun row => { row with readAt := some w.now }) t w =
        some (some { row with readAt := some w.now }, { w with
          notifications := w.notifications.write t id { row with readAt := some w.now } }) := by
    simp [runUpdate, World.notificationsT, hread, hlock, htenant, huser, hunread]
  refine ⟨Transactional.commit t { w with
    notifications := w.notifications.write t id { row with readAt := some w.now } }, ?_,
    { row with readAt := some w.now }, Table.write_read_self .., rfl⟩
  unfold handleAck
  rw [Prog.exec_bind]
  simp only [query, Prog.exec, hclient]
  unfold markNotificationRead
  rw [Prog.exec_bind]
  simp only [timeNow, query, Prog.exec]
  rw [Prog.exec_bind]
  simp only [updateWhere, Prog.exec, hupdate]
  rfl

/-- The task reaches a live socket of the volunteer if and only if the socket stands in the
hub of the process under the tenant of the event. -/
theorem delivered_reaches_iff {event : Event} {volunteerId : Uuid} {server : Nat} {t : Sid}
    (hw : Wired w) (hlive : Live w q client) (huser : client.userId = volunteerId) :
    Reached ((w.notified t event volunteerId).delivered server event volunteerId
        (taskFrame w.notifications.next event)) q client event ↔
      client.server = server ∧ client.tenantId = event.tenantId := by
  have hmem : q ∈ (w.servers server).userSockets event.tenantId volunteerId ↔
      client.server = server ∧ client.tenantId = event.tenantId := by
    constructor
    · intro h
      obtain ⟨c', hc', hserver, -⟩ := hw.conns server _ (mem_userSockets.mp h)
      obtain rfl : client = c' := Option.some.inj (hlive.registered.1.symm.trans hc')
      have hreg : Registered w server q client := hserver ▸ hlive.registered
      exact ⟨hserver, ((hw.mem_userSockets hreg).mp h).1⟩
    · rintro ⟨rfl, hsame⟩
      exact (hw.mem_userSockets hlive.registered).mpr ⟨hsame, huser⟩
  rw [← hmem]
  have hclient : (w.notified t event volunteerId).clients q = some client := hlive.registered.1
  have hclients : ((w.notified t event volunteerId).delivered server event volunteerId
      (taskFrame w.notifications.next event)).clients q =
        if q ∈ (w.servers server).userSockets event.tenantId volunteerId then
          some (client.trySend (taskFrame w.notifications.next event))
        else some client := by
    rw [delivered_clients, hclient]
    rfl
  constructor
  · rintro ⟨id, hsent, -⟩
    by_contra hnot
    rw [if_neg hnot] at hclients
    have hsend := congrArg Client.send (Option.some.inj (hclients.symm.trans hsent))
    have hlength := congrArg List.length hsend
    simp at hlength
  · intro h
    have htrySend : client.trySend (taskFrame w.notifications.next event) =
        { client with send := client.send ++ [taskFrame w.notifications.next event] } := by
      unfold Client.trySend
      rw [if_pos hlive.room]
    rw [if_pos h, htrySend] at hclients
    obtain ⟨hrow, hfree⟩ := notified_row w t event volunteerId
    rw [← delivered_notifications _ server event volunteerId
      (taskFrame w.notifications.next event)] at hrow hfree
    refine ⟨_, hclients, _, hrow, rfl, fun t' => ?_⟩
    exact exec_ack hclients hrow hfree (hmem.mp h).2.symm huser.symm rfl t'

end

/-- The tenant claim of a volunteer's token is the tenant assigned at registration. -/
theorem volunteer_tenant {user : Iam.User} (h : user.userType = .volunteer) :
    user.effectiveTenantId = user.assignedTenantId := by
  have hnone : user.tenantId = none := by
    by_contra hsome
    have hmem := user.tenancy.mpr (Option.isSome_iff_ne_none.mpr hsome)
    rw [h] at hmem
    revert hmem
    decide
  rw [Iam.User.effectiveTenantId, hnone, Option.or_none]

/-- A dispatched task reaches a live socket of the volunteer if and only if the socket is
held by the process that handles the event and the volunteer was assigned to the tenant of
the coordinator. -/
theorem task_reaches_volunteer_iff {env : Iam.Env} {tenants : List Iam.Tenant}
    {users : List Iam.User} {roleAssignments : List Iam.RoleAssignment}
    {c : Config Iam.Db Iam.Error Iam.Reply Iam.Call}
    (hiam : Run (Iam.Call.body env)
      (Config.start (Iam.Db.initial tenants users roleAssignments)) c)
    {token : Iam.Claims} (hissued : Iam.Issued c token) {user : Iam.User}
    (huser : c.store.users.committed token.sub = some user)
    (hvolunteer : user.userType = .volunteer)
    {validatePayload : Option (List Json) → Option Object →
      Except Logistics.FormErrors (Option Object)}
    {categories : List Logistics.ResourceCategory} {replicas : List Logistics.UserReplica}
    {l : Config Logistics.Db Logistics.Error Logistics.Reply Logistics.Call}
    (hlogistics : Run (Logistics.Call.body validatePayload)
      (Config.start (Logistics.Db.initial categories replicas)) l)
    {principal : Logistics.Principal} {event : Envelope Logistics.Message}
    (hevent : Logistics.Dispatched l principal token.sub event)
    {now : Time} {d : Config World Error Unit Call}
    (hrto : Run Call.body (Config.start (World.initial now)) d) {q : Nat} {client : Client}
    (hlive : Live d.store q client) (htoken : client.token = token)
    (hnew : ∀ k id, d.store.processedEvents.Has k id → id ≠ event.eventId) (server : Nat)
    (t : Sid) :
    ∃ w, (handle server (.ofLogistics event)).exec t d.store = some (.ok (), w) ∧
      (Reached w q client (.ofLogistics event) ↔
        client.server = server ∧ user.assignedTenantId = principal.tenantId) := by
  obtain ⟨htype, htenant, hnamed⟩ := hevent.addressee hlogistics
  have hw : Wired d.store := (wiring_sound hrto).inv
  have hkeys := hw.clients q client hlive.registered.1
  rw [htoken] at hkeys
  have hclaim : client.tenantId = user.assignedTenantId := by
    rw [hkeys.2.1, Iam.token_tenant hiam hissued huser, volunteer_tenant hvolunteer]
  have hexec := handle_assigned (show (Event.ofLogistics event).eventType = _ from htype)
    (show (Event.ofLogistics event).data.volunteerUserId = _ from hnamed) hnew server t
  refine ⟨_, hexec, ?_⟩
  rw [delivered_reaches_iff hw hlive hkeys.2.2, hclaim, ← htenant]
  rfl

/-- The coordinator of tenant 1 approves a request and dispatches Amara. -/
def dispatchAmara : List Logistics.Call :=
  [.createRequest Logistics.coordinator Logistics.parcel 0,
    .updateStatus 0 .verified Logistics.coordinator 1,
    .updateStatus 0 .approved Logistics.coordinator 2,
    .assignTask Logistics.coordinator
      { requestId := 0, volunteerUserId := 0, title := "Deliver" } 3]

def logisticsRun :
    Option (Config Logistics.Db Logistics.Error Logistics.Reply Logistics.Call) :=
  (Config.start (Logistics.Db.initial
    [Logistics.foodBank none Logistics.Workflow.accepted_none] [])).perform
      (Logistics.Call.body fun _ fields => .ok fields) dispatchAmara

/-- The task of the last call of a log. -/
def lastTask (log : List (Sid × Logistics.Call × Except Logistics.Error Logistics.Reply)) :
    Option (Logistics.Principal × Logistics.DispatchTaskCreate × Uuid) :=
  match log with
  | (_, .assignTask principal data _, .ok (.task taskId _)) :: _ => some (principal, data, taskId)
  | _ => none

theorem mem_of_lastTask {log : List (Sid × Logistics.Call × Except Logistics.Error
      Logistics.Reply)} {principal : Logistics.Principal} {data : Logistics.DispatchTaskCreate}
    {taskId : Uuid} (h : lastTask log = some (principal, data, taskId)) :
    ∃ t now task, (t, Logistics.Call.assignTask principal data now,
      Except.ok (.task taskId task)) ∈ log := by
  unfold lastTask at h
  split at h
  · cases h
    exact ⟨_, _, _, List.mem_cons_self⟩
  · cases h

/-- Three runs: Amara has a socket at the first process, and the coordinator of tenant 1
dispatches her. -/
structure DispatchScene (location : Option PyFloat) where
  iam : Config Iam.Db Iam.Error Iam.Reply Iam.Call
  logistics : Config Logistics.Db Logistics.Error Logistics.Reply Logistics.Call
  rto : Config World Error Unit Call
  client : Client
  user : Iam.User
  event : Envelope Logistics.Message
  principal : Logistics.Principal
  iam_run : Run (Iam.Call.body located)
    (Config.start (Iam.Db.initial [valley, riverside] [] [])) iam
  logistics_run : Run (Logistics.Call.body fun _ fields => .ok fields)
    (Config.start (Logistics.Db.initial
      [Logistics.foodBank none Logistics.Workflow.accepted_none] [])) logistics
  rto_run : Run Call.body (Config.start (World.initial 30)) rto
  live : Live rto.store 0 client
  server : client.server = 0
  issued : Iam.Issued iam client.token
  user_row : iam.store.users.committed client.token.sub = some user
  volunteer : user.userType = .volunteer
  dispatched : Logistics.Dispatched logistics principal client.token.sub event
  unprocessed : ∀ k id, rto.store.processedEvents.Has k id → id ≠ event.eventId
  coordinator : principal.tenantId = some 1
  assigned : user.assignedTenantId = location.map fun _ => 1
  claim : client.tenantId = location.map fun _ => 1

def dispatchFacts (location : Option PyFloat) : Option Bool :=
  (iamRun (amaraLogsIn location)).bind fun c =>
  (tokens c).head?.bind fun token =>
  (connectRun token).bind fun d =>
  (d.store.clients 0).bind fun client =>
  (c.store.users.committed client.token.sub).bind fun user =>
  logisticsRun.bind fun l =>
  (l.store.outbox.committed 3).bind fun row =>
  (lastTask l.log).bind fun call =>
  (l.store.tasks.committed call.2.2).map fun _ =>
    decide (World.entry 0 client ∈ (d.store.servers client.server).conns ∧
      client.closed = false ∧ client.hasRoom = true ∧ client.server = 0 ∧
      client.token = token ∧ user.userType = .volunteer ∧
      call.2.1.volunteerUserId = client.token.sub ∧
      row.payload.data.task? = some call.2.2 ∧
      call.1.tenantId = some 1 ∧ user.assignedTenantId = location.map (fun _ => 1) ∧
      client.tenantId = location.map fun _ => 1)

/-- Opening a socket does not touch the table of handled events. -/
theorem connect_processedEvents {server device : Nat} {token : Iam.Claims} {t : Sid}
    {w w' : World} {r : Except Error Unit}
    (h : (Rto.connect server token device).call t w = some (r, w')) :
    w'.processedEvents = w.processedEvents.rollback t := by
  obtain ⟨⟨r', w₁⟩, hexec, hend⟩ := Option.map_eq_some_iff.mp h
  cases hend
  unfold Rto.connect at hexec
  rw [Prog.exec_bind] at hexec
  simp only [query, Prog.exec] at hexec
  split at hexec
  · cases hexec
    rfl
  · cases hexec
    rfl

theorem connectRun_processed {token : Iam.Claims} {d : Config World Error Unit Call}
    (h : connectRun token = some d) (k : Nat) (id : Uuid) : ¬ d.store.processedEvents.Has k id := by
  simp only [connectRun, Config.perform] at h
  split at h
  · cases h
  · rename_i r w hcall
    cases h
    show ¬ w.processedEvents.Has k id
    rw [connect_processedEvents hcall]
    intro hhas
    rcases Table.Has.of_rollback hhas with hk | ⟨o, hk⟩
    · cases hk
    · cases hk

theorem dispatchScene_of_facts (location : Option PyFloat)
    (h : dispatchFacts location = some true) : Nonempty (DispatchScene location) := by
  simp only [dispatchFacts, Option.bind_eq_some_iff, Option.map_eq_some_iff,
    decide_eq_true_eq] at h
  obtain ⟨c, hc, token, htoken, d, hd, client, hclient, user, huser, l, hl, row, hrow,
    ⟨principal, data, taskId⟩, hcall, task, htask, hentry, hopen, hroom, hserver, htoken',
    hvolunteer, hnamed, htaskId, htenant, hassigned, hclaim⟩ := h
  obtain ⟨t, now, reply, hlog⟩ := mem_of_lastTask hcall
  exact ⟨{
    iam := c
    logistics := l
    rto := d
    client := client
    user := user
    event := row.payload
    principal := principal
    iam_run := Config.perform_run (fun _ => rfl) hc
    logistics_run := Config.perform_run (fun _ => rfl) hl
    rto_run := Config.perform_run (fun _ => rfl) hd
    live := ⟨⟨hclient, hentry⟩, hopen, hroom⟩
    server := hserver
    issued := htoken' ▸ issued_of_mem (List.mem_of_head? htoken)
    user_row := huser
    volunteer := hvolunteer
    dispatched :=
      ⟨⟨t, data, now, taskId, reply, task, hnamed, hlog, htask, htaskId⟩, 3, row, .inl hrow, rfl⟩
    unprocessed := fun k id hid => absurd hid (connectRun_processed hd k id)
    coordinator := htenant
    assigned := hassigned
    claim := hclaim }⟩

/-- Amara was assigned to the tenant of the coordinator. -/
theorem task_reaches_volunteer_amara : ∃ (x : DispatchScene (some (.finite 0))) (w : World),
    (handle 0 (.ofLogistics x.event)).exec 9 x.rto.store = some (.ok (), w) ∧
      Reached w 0 x.client (.ofLogistics x.event) := by
  obtain ⟨x⟩ := dispatchScene_of_facts (some (.finite 0)) (by decide +kernel)
  obtain ⟨w, hw, hiff⟩ := task_reaches_volunteer_iff x.iam_run x.issued x.user_row x.volunteer
    x.logistics_run x.dispatched x.rto_run x.live rfl x.unprocessed 0 9
  refine ⟨x, w, hw, hiff.mpr ⟨x.server, ?_⟩⟩
  rw [x.assigned, x.coordinator]
  rfl

/-- Amara has no location, and the coordinator's event does not find her socket. -/
theorem task_misses_volunteer : ¬ ∀ (env : Iam.Env) (tenants : List Iam.Tenant)
    (users : List Iam.User) (roleAssignments : List Iam.RoleAssignment)
    (c : Config Iam.Db Iam.Error Iam.Reply Iam.Call), Run (Iam.Call.body env)
      (Config.start (Iam.Db.initial tenants users roleAssignments)) c →
    ∀ token, Iam.Issued c token → ∀ user : Iam.User,
      c.store.users.committed token.sub = some user → user.userType = .volunteer →
    ∀ (validatePayload : Option (List Json) → Option Object →
        Except Logistics.FormErrors (Option Object))
      (categories : List Logistics.ResourceCategory) (replicas : List Logistics.UserReplica)
      (l : Config Logistics.Db Logistics.Error Logistics.Reply Logistics.Call),
      Run (Logistics.Call.body validatePayload)
        (Config.start (Logistics.Db.initial categories replicas)) l →
    ∀ (principal : Logistics.Principal) (event : Envelope Logistics.Message),
      Logistics.Dispatched l principal token.sub event →
    ∀ (now : Time) (d : Config World Error Unit Call),
      Run Call.body (Config.start (World.initial now)) d →
    ∀ (q : Nat) (client : Client), Live d.store q client → client.token = token →
      (∀ k id, d.store.processedEvents.Has k id → id ≠ event.eventId) →
    ∀ (t : Sid) (w : World),
      (handle client.server (.ofLogistics event)).exec t d.store = some (.ok (), w) →
      Reached w q client (.ofLogistics event) := by
  intro hclaim
  obtain ⟨x⟩ := dispatchScene_of_facts none (by decide +kernel)
  obtain ⟨htype, htenant, hnamed⟩ := x.dispatched.addressee x.logistics_run
  have hw : Wired x.rto.store := (wiring_sound x.rto_run).inv
  have hexec := handle_assigned (show (Event.ofLogistics x.event).eventType = _ from htype)
    (show (Event.ofLogistics x.event).data.volunteerUserId = _ from hnamed) x.unprocessed
    x.client.server 9
  have hreached := hclaim _ _ _ _ x.iam x.iam_run _ x.issued x.user x.user_row x.volunteer _ _ _
    x.logistics x.logistics_run x.principal x.event x.dispatched _ x.rto x.rto_run 0 x.client
    x.live rfl x.unprocessed 9 _ hexec
  have hkeys := hw.clients 0 x.client x.live.registered.1
  have hsame : x.client.tenantId = x.event.tenantId :=
    ((delivered_reaches_iff hw x.live hkeys.2.2).mp hreached).2
  rw [x.claim, htenant, x.coordinator] at hsame
  cases hsame

end Rto
end Rcp
