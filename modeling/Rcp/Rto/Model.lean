/-
The real-time service (`services/rto/internal`): its tables and frames, the sockets of
its clients, and the hub and the verifier of each of its processes.

All processes share the database and the queue.  A missing UUID is `uuid.Nil` in the
source and `none` here.  A token is given by its claims, which stand for a token with a
valid signature of IAM.  Left out are the fetching of the signing keys, pings and
deadlines, and the columns that no statement reads: a device's platform and push token
and the `delivered_at` of a notification.
-/
import Rcp.Iam.Model
import Rcp.Logistics.Model

namespace Rcp
namespace Rto

open Sql

/-! ## Events and frames -/

/-- The data of an event. -/
inductive Payload
  | logistics (message : Logistics.Message)
  | iam (message : Iam.Message)
  /-- The data of `logistics.alert.created`. -/
  | alert (alertId : Uuid) (title message severity createdBy createdAt : String)
  /-- The data of `iam.token.revoked`. -/
  | revoked (userId jti : Option Uuid)
  deriving DecidableEq

namespace Payload

/- The fields that the handlers decode.  A missing text is empty. -/

def taskId : Payload → Option Uuid
  | logistics message => message.task?
  | iam _ | alert .. | revoked .. => none

def requestId : Payload → Option Uuid
  | logistics message => message.request?
  | iam _ | alert .. | revoked .. => none

def volunteerUserId : Payload → Option Uuid
  | logistics message => message.volunteer?
  | iam _ | alert .. | revoked .. => none

def title : Payload → String
  | logistics (.taskAssigned _ _ title ..) => title
  | alert _ title .. => title
  | logistics _ | iam _ | revoked .. => ""

def userId : Payload → Option Uuid
  | iam (.user data) => some data.userId
  | iam (.userDeactivated userId ..) => some userId
  | revoked userId _ => userId
  | logistics _ | iam _ | alert .. => none

def jti : Payload → Option Uuid
  | revoked _ jti => jti
  | logistics _ | iam _ | alert .. => none

def status : Payload → String
  | iam (.user data) => data.status.getD ""
  | iam (.userDeactivated _ _ status _) => status
  | iam (.tenantDeactivated _ status _) => status
  | iam (.tenantStatusChanged _ status) => status
  | logistics (.requestSubmitted _ _ _ _ _ status _) => status.value
  | logistics (.itemUpdated _ _ _ _ _ _ status _) => status.value
  | logistics _ | alert .. | revoked .. => ""

end Payload

/-- An event as the queue delivers it. -/
abbrev Event := Envelope Payload

/-- An event of the identity service. -/
def Event.ofIam (event : Envelope Iam.Message) : Event :=
  { eventId := event.eventId
    eventType := event.eventType
    tenantId := event.tenantId
    data := .iam event.data }

/-- An event of the logistics service. -/
def Event.ofLogistics (event : Envelope Logistics.Message) : Event :=
  { eventId := event.eventId
    eventType := event.eventType
    tenantId := event.tenantId
    data := .logistics event.data }

/-- The frames the service sends. -/
inductive Frame
  | notification (notificationId : Uuid) (eventType title : String) (data : Payload)
  | alert (id : Option Uuid) (title message severity createdBy createdAt : String)
  | domainEvent (eventType : String) (data : Payload)
  | forceLogout (reason : String)
  | syncEvent (seq : Int) (entityType : String) (entityId : Option Uuid) (op : String)
      (payload : Payload) (occurredAt : Time)
  | syncComplete (cursor : Int) (count : Nat)
  deriving DecidableEq

/-- The frame of a disaster alert. -/
def Payload.alertFrame : Payload → Frame
  | alert alertId title message severity createdBy createdAt =>
      .alert (some alertId) title message severity createdBy createdAt
  | data => .alert none data.title "" "" "" ""

/-- A `sync` frame of a client. -/
structure SyncFrame where
  cursor : Int := 0
  deviceId : String := ""

/-! ## Tables -/

structure Notification where
  tenantId : Option Uuid
  userId : Uuid
  type : String
  title : String
  body : Payload
  createdAt : Time
  readAt : Option Time := none

/-- A row of the change feed.  Its `seq` is one more than its key. -/
structure SyncEvent where
  tenantId : Option Uuid
  entityType : String
  entityId : Option Uuid
  op : String
  payload : Payload
  occurredAt : Time

structure Device where
  id : String
  tenantId : Option Uuid
  userId : Uuid
  syncCursor : Int
  lastSeenAt : Time

/-! ## Processes and sockets -/

/-- A socket.  `send` is the channel to its writer. -/
structure Client where
  /-- The process that holds the socket. -/
  server : Nat
  tenantId : Option Uuid
  userId : Uuid
  send : List Frame := []
  /-- The connection has been closed. -/
  closed : Bool := false
  /-- The program at the other end. -/
  device : Nat
  /-- The token it was opened with.  No code reads it. -/
  token : Iam.Claims

/-- An entry of `conns`: the socket stands under a tenant and a user. -/
structure Conn where
  tenantId : Option Uuid
  userId : Uuid
  socket : Nat
  deriving DecidableEq

structure Verifier where
  issuer : String := "rcp-iam"
  audience : String := "rcp-services"
  /-- Until when the tokens of a user are denied. -/
  denyUser : Uuid → Option Time := fun _ => none
  denyJti : Uuid → Option Time := fun _ => none

structure Server where
  conns : List Conn := []
  verifier : Verifier := {}

/-- A client program with its login, which may open one socket after another. -/
structure Peer where
  tenantId : Option Uuid
  userId : Uuid
  device : Nat
  deriving DecidableEq

/-- The program at the other end of a socket. -/
def Client.peer (c : Client) : Peer :=
  { tenantId := c.tenantId, userId := c.userId, device := c.device }

/-- A push notification. -/
structure Push where
  tenantId : Option Uuid
  userId : Uuid
  title : String
  data : Payload

structure World where
  notifications : Table Notification
  syncEvents : Table SyncEvent
  processedEvents : Table Uuid
  devices : Table Device
  servers : Nat → Server
  clients : Nat → Option Client
  /-- The number of the next socket. -/
  sockets : Nat
  /-- The frames each client program has received. -/
  received : Peer → List Frame
  pushed : List Push
  now : Time

namespace World

def notificationsT : Access World Notification :=
  { get := World.notifications, set := fun w T => { w with notifications := T } }

def syncEventsT : Access World SyncEvent :=
  { get := World.syncEvents, set := fun w T => { w with syncEvents := T } }

def processedEventsT : Access World Uuid :=
  { get := World.processedEvents, set := fun w T => { w with processedEvents := T } }

def devicesT : Access World Device :=
  { get := World.devices, set := fun w T => { w with devices := T } }

/-- Only the database is transactional. -/
instance : Transactional World where
  commit t w :=
    { w with
      notifications := w.notifications.commit t
      syncEvents := w.syncEvents.commit t
      processedEvents := w.processedEvents.commit t
      devices := w.devices.commit t }
  rollback t w :=
    { w with
      notifications := w.notifications.rollback t
      syncEvents := w.syncEvents.rollback t
      processedEvents := w.processedEvents.rollback t
      devices := w.devices.rollback t }

/-- Processes that have just been started on an empty database. -/
def initial (now : Time) : World :=
  { notifications := .empty
    syncEvents := .empty
    processedEvents := .empty
    devices := .empty
    servers := fun _ => {}
    clients := fun _ => none
    sockets := 0
    received := fun _ => []
    pushed := []
    now := now }

end World

inductive Error
  /-- `uuid.Parse` fails. -/
  | invalidUuid
  | invalidToken
  | tokenRevoked

/-- A statement that changes the memory of the processes. -/
def effect {β : Type} (f : World → β × World) : Prog World Error β :=
  .stmt (fun _ w => some (f w)) .ret

/-- `time.Now()`. -/
def timeNow : Prog World Error Time := query fun _ w => w.now

/-! ## The verifier (`auth/jwks.go`) -/

/-- `auth.Claims`. -/
structure Claims where
  userId : Uuid
  tenantId : Option Uuid
  roles : List String
  jti : Uuid
  expires : Time

/-- The leeway of `jwt.Parse`. -/
def leeway : Time := 60 * 1000000

/-- The time until which a revocation denies. -/
def denyPeriod : Time := 30 * 60 * 1000000

namespace Verifier

def denies (now : Time) : Option Time → Bool
  | some limit => now < limit
  | none => false

def isDenied (v : Verifier) (now : Time) (claims : Claims) : Bool :=
  denies now (v.denyUser claims.userId) || denies now (v.denyJti claims.jti)

/-- The claims of a signed token, in which `sub` and `tenant_id` are UUIDs and `exp` is
in whole seconds. -/
def claims (token : Iam.Claims) : Claims :=
  { userId := token.sub
    tenantId := token.tenantId
    roles := token.roles
    jti := token.jti
    expires := token.exp / 1000000 * 1000000 }

def verify (v : Verifier) (now : Time) (token : Iam.Claims) : Except Error Claims :=
  if token.iss ≠ v.issuer ∨ token.aud ≠ v.audience ∨
      ¬ now < (claims token).expires + leeway then .error .invalidToken
  else if v.isDenied now (claims token) then .error .tokenRevoked
  else .ok (claims token)

end Verifier

namespace World

variable (w : World)

def setServer (server : Nat) (s : Server) : World :=
  { w with servers := Function.update w.servers server s }

/-- `DenyUser` with the limit that `onRevocation` computes. -/
def denyUser (server : Nat) (userId : Uuid) : World :=
  let s := w.servers server
  w.setServer server
    { s with
      verifier :=
        { s.verifier with
          denyUser := Function.update s.verifier.denyUser userId (some (w.now + denyPeriod)) } }

def denyJti (server : Nat) (jti : Uuid) : World :=
  let s := w.servers server
  w.setServer server
    { s with
      verifier :=
        { s.verifier with
          denyJti := Function.update s.verifier.denyJti jti (some (w.now + denyPeriod)) } }

end World

/-! ## The hub (`ws/hub.go`) -/

def sendBuffer : Nat := 64

/-- The frame fits into the channel, and `TrySend` returns true. -/
def Client.hasRoom (c : Client) : Bool := c.send.length < sendBuffer

def Client.close (c : Client) : Client := { c with closed := true }

/-- `TrySend`. -/
def Client.trySend (message : Frame) (c : Client) : Client :=
  if c.hasRoom then { c with send := c.send ++ [message] } else c.close

/-- The sockets of a user, which `conns` has under the tenant. -/
def Server.userSockets (s : Server) (tenantId : Option Uuid) (userId : Uuid) : List Nat :=
  (s.conns.filter fun conn => conn.tenantId = tenantId ∧ conn.userId = userId).map Conn.socket

def Server.tenantSockets (s : Server) (tenantId : Option Uuid) : List Nat :=
  (s.conns.filter fun conn => conn.tenantId = tenantId).map Conn.socket

namespace World

variable (w : World)

/-- A loop over a set of sockets. -/
def forEach (sockets : List Nat) (f : Client → Client) : World :=
  { w with clients := fun k => if k ∈ sockets then (w.clients k).map f else w.clients k }

/-- The entry of a client. -/
def entry (k : Nat) (c : Client) : Conn :=
  { tenantId := c.tenantId, userId := c.userId, socket := k }

def register (k : Nat) (c : Client) : World :=
  let s := w.servers c.server
  w.setServer c.server
    { s with conns := if entry k c ∈ s.conns then s.conns else s.conns ++ [entry k c] }

/-- `NewClient` and `Run`. -/
def openSocket (c : Client) : World :=
  { w with
    clients := Function.update w.clients w.sockets (some c)
    sockets := w.sockets + 1 }.register w.sockets c

def unregister (k : Nat) (c : Client) : World :=
  let s := w.servers c.server
  w.setServer c.server { s with conns := s.conns.filter (· ≠ entry k c) }

def sendToUser (server : Nat) (tenantId : Option Uuid) (userId : Uuid) (message : Frame) :
    Bool × World :=
  let sockets := (w.servers server).userSockets tenantId userId
  (sockets.any fun k => (w.clients k).any Client.hasRoom,
    w.forEach sockets (Client.trySend message))

def broadcastTenant (server : Nat) (tenantId : Option Uuid) (message : Frame) : World :=
  w.forEach ((w.servers server).tenantSockets tenantId) (Client.trySend message)

/-- The farewell of the sockets that are dropped. -/
def drop (sockets : List Nat) (reason : String) : World :=
  w.forEach sockets fun c => (c.trySend (.forceLogout reason)).close

def dropUser (server : Nat) (tenantId : Option Uuid) (userId : Uuid) : World :=
  w.drop ((w.servers server).userSockets tenantId userId) "account_disabled"

def dropTenant (server : Nat) (tenantId : Option Uuid) : World :=
  w.drop ((w.servers server).tenantSockets tenantId) "tenant_suspended"

end World

/-! ## The store (`store/store.go`) -/

/-- `ProcessEvent`: nothing if the event was already processed, and else what `fn` has
returned. -/
def processEvent {β : Type} (eventId : Uuid) (fn : Prog World Error β) :
    Prog World Error (Option β) := do
  match ← insertUnique World.processedEventsT (· == eventId) (fun _ => eventId) with
  | none => do
      commit
      return none
  | some _ => do
      let result ← fn
      commit
      return some result

/- The `uuid.New()` of the notification is modelled by its key. -/
def insertNotification (tenantId : Option Uuid) (userId : Uuid) (type title : String)
    (body : Payload) : Prog World Error Uuid := do
  let createdAt ← timeNow
  insert World.notificationsT fun _ =>
    { tenantId := tenantId
      userId := userId
      type := type
      title := title
      body := body
      createdAt := createdAt }

def appendSyncEvent (tenantId : Option Uuid) (entityType : String) (entityId : Option Uuid)
    (op : String) (payload : Payload) : Prog World Error Unit := do
  let occurredAt ← timeNow
  let _ ← insert World.syncEventsT fun _ =>
    { tenantId := tenantId
      entityType := entityType
      entityId := entityId
      op := op
      payload := payload
      occurredAt := occurredAt }
  return ()

/-- The `seq` of the row with key `k`. -/
def seqOf (k : Nat) : Int := k + 1

/-- `SyncSince`: `WHERE tenant_id = $1 AND seq > $2 ORDER BY seq LIMIT $3`.  The pool gives
it a connection without an open transaction. -/
def syncSince (w : World) (tenantId : Option Uuid) (cursor : Int) (limit : Nat) :
    List (Nat × SyncEvent) :=
  (w.syncEvents.rows.filter fun row =>
    row.2.tenantId = tenantId ∧ cursor < seqOf row.1).take limit

def upsertDeviceCursor (tenantId : Option Uuid) (userId : Uuid) (deviceId : String)
    (cursor : Int) : Prog World Error Unit := do
  let now ← timeNow
  upsert World.devicesT (fun device => device.id == deviceId)
    { id := deviceId, tenantId := tenantId, userId := userId, syncCursor := cursor,
      lastSeenAt := now }
    (fun device =>
      { device with syncCursor := max device.syncCursor cursor, lastSeenAt := now })
  commit

def markNotificationRead (tenantId : Option Uuid) (userId notificationId : Uuid) :
    Prog World Error Unit := do
  let now ← timeNow
  let _ ← updateWhere World.notificationsT notificationId
    (fun row => row.tenantId == tenantId && row.userId == userId && row.readAt.isNone)
    (fun row => { row with readAt := some now })
  commit

/-! ## The consumer (`consumer/consumer.go`) -/

def onTaskAssigned (server : Nat) (event : Event) : Prog World Error Unit :=
  match event.data.volunteerUserId with
  | none => .raise .invalidUuid
  | some volunteerId => do
      let title := "New task: " ++ event.data.title
      match ← processEvent event.eventId (do
          let id ← insertNotification event.tenantId volunteerId "task_assigned" title event.data
          appendSyncEvent event.tenantId "task" event.data.taskId "assigned" event.data
          return id) with
      | none => return ()
      | some id => do
          let frame := .notification id event.eventType title event.data
          let delivered ← effect fun w => w.sendToUser server event.tenantId volunteerId frame
          if delivered then return ()
          else effect fun w => ((), { w with
            pushed := ⟨event.tenantId, volunteerId, title, event.data⟩ :: w.pushed })

/-- The id of an alert. -/
def alertId : Payload → Option Uuid
  | .alert id .. => some id
  | .logistics _ | .iam _ | .revoked .. => none

def onAlertCreated (server : Nat) (event : Event) : Prog World Error Unit := do
  match ← processEvent event.eventId
      (appendSyncEvent event.tenantId "alert" (alertId event.data) "created" event.data) with
  | none => return ()
  | some _ => effect fun w => ((), w.broadcastTenant server event.tenantId event.data.alertFrame)

/-- What an event of the feed is about. -/
def entity (event : Event) : String × Option Uuid :=
  match event.data.taskId, event.data.requestId with
  | some taskId, _ => ("task", some taskId)
  | none, some requestId => ("request", some requestId)
  | none, none => ("event", some event.eventId)

def onGenericDomainEvent (server : Nat) (event : Event) : Prog World Error Unit := do
  match ← processEvent event.eventId
      (appendSyncEvent event.tenantId (entity event).1 (entity event).2 event.eventType
        event.data) with
  | none => return ()
  | some _ => effect fun w =>
      ((), w.broadcastTenant server event.tenantId (.domainEvent event.eventType event.data))

/- The limit is read from the clock where `DenyUser` and `DenyJTI` stand, since one
process handles one event at a time. -/
def revokeUser (server : Nat) (tenantId : Option Uuid) : Option Uuid → Prog World Error Unit
  | none => return ()
  | some userId => do
      effect fun w => ((), w.denyUser server userId)
      effect fun w => ((), w.dropUser server tenantId userId)

def revokeJti (server : Nat) : Option Uuid → Prog World Error Unit
  | none => return ()
  | some jti => effect fun w => ((), w.denyJti server jti)

def onRevocation (server : Nat) (event : Event) : Prog World Error Unit := do
  revokeUser server event.tenantId event.data.userId
  revokeJti server event.data.jti

def onTenantDeactivated (server : Nat) (event : Event) : Prog World Error Unit :=
  if event.data.status ≠ "active" then effect fun w => ((), w.dropTenant server event.tenantId)
  else return ()

def handle (server : Nat) (event : Event) : Prog World Error Unit :=
  if event.eventType = "logistics.task.assigned" then onTaskAssigned server event
  else if event.eventType = "logistics.alert.created" then onAlertCreated server event
  else if event.eventType = "iam.user.deactivated" ∨ event.eventType = "iam.token.revoked" then
    onRevocation server event
  else if event.eventType = "iam.tenant.deactivated" ∨
      event.eventType = "iam.tenant.status_changed" then
    onTenantDeactivated server event
  else onGenericDomainEvent server event

/-! ## Sockets (`ws/client.go` and `ws/handler.go`) -/

def syncBatchLimit : Nat := 500

/-- `Handler`: the token is verified, and the socket is registered later. -/
def connect (server : Nat) (token : Iam.Claims) (device : Nat) : Prog World Error Unit := do
  match ← query fun _ w => (w.servers server).verifier.verify w.now token with
  | .error e => .raise e
  | .ok claims => effect fun w => ((), w.openSocket
      { server := server
        tenantId := claims.tenantId
        userId := claims.userId
        device := device
        token := token })

def trySend (socket : Nat) (message : Frame) : Prog World Error Unit :=
  effect fun w => ((), w.forEach [socket] (Client.trySend message))

def trySendAll (socket : Nat) : List Frame → Prog World Error Unit
  | [] => return ()
  | message :: rest => do
      trySend socket message
      trySendAll socket rest

def syncEventFrame (row : Nat × SyncEvent) : Frame :=
  .syncEvent (seqOf row.1) row.2.entityType row.2.entityId row.2.op row.2.payload
    row.2.occurredAt

/-- The cursor of a reply: the last `seq`, or the cursor of the request. -/
def nextCursor (cursor : Int) (rows : List (Nat × SyncEvent)) : Int :=
  match rows.getLast? with
  | some row => seqOf row.1
  | none => cursor

def handleSync (socket : Nat) (frame : SyncFrame) : Prog World Error Unit := do
  match ← query fun _ w => (w.clients socket).map fun c =>
      (c, syncSince w c.tenantId frame.cursor syncBatchLimit) with
  | none => return ()
  | some (c, rows) => do
      let cursor := nextCursor frame.cursor rows
      trySendAll socket (rows.map syncEventFrame)
      trySend socket (.syncComplete cursor rows.length)
      if frame.deviceId = "" then return ()
      else upsertDeviceCursor c.tenantId c.userId frame.deviceId cursor

def handleAck (socket : Nat) (notificationId : Uuid) : Prog World Error Unit := do
  match ← query fun _ w => w.clients socket with
  | none => return ()
  | some c => markNotificationRead c.tenantId c.userId notificationId

/- One turn of `writePump`.  On a closed connection the write fails and the frame is
lost. -/
def runWrite (socket : Nat) (_ : Sid) (w : World) : Option (Unit × World) :=
  match w.clients socket with
  | none => none
  | some c =>
      match c.send with
      | [] => none
      | message :: rest =>
          let w' :=
            { w with clients := Function.update w.clients socket (some { c with send := rest }) }
          if c.closed then some ((), w')
          else some ((), { w' with
            received := Function.update w.received c.peer (w.received c.peer ++ [message]) })

def writePump (socket : Nat) : Prog World Error Unit := .stmt (runWrite socket) .ret

/-- The end of `readPump`. -/
def leave (socket : Nat) : Prog World Error Unit := do
  effect fun w => ((), match w.clients socket with
    | none => w
    | some c => w.unregister socket c)
  effect fun w => ((), w.forEach [socket] Client.close)

/-! ## Calls -/

inductive Call
  | handle (server : Nat) (event : Event)
  | connect (server : Nat) (token : Iam.Claims) (device : Nat)
  | sync (socket : Nat) (frame : SyncFrame)
  | ack (socket : Nat) (notificationId : Uuid)
  | write (socket : Nat)
  | leave (socket : Nat)
  /-- Time passes. -/
  | tick (span : Nat)

instance : Inhabited Call := ⟨.tick 0⟩

def Call.body : Call → Prog World Error Unit
  | handle server event => Rto.handle server event
  | connect server token device => Rto.connect server token device
  | sync socket frame => handleSync socket frame
  | ack socket notificationId => handleAck socket notificationId
  | write socket => writePump socket
  | leave socket => Rto.leave socket
  | tick span => effect fun w => ((), { w with now := w.now + span })

end Rto
end Rcp
