/-
What one statement of the real-time service can do.

`Moves` lists the steps once, so that an invariant is checked against each of them and
not against each call.  Tables other than the feed may change in any way.
-/
import Rcp.Rto.Model
import Rcp.Sql.Growth

namespace Rcp
namespace Rto

open Sql

/-- A step of session `t` that sends only frames with `P`. -/
inductive Moves (P : Frame → Prop) (t : Sid) (w : World) : World → Prop
  | stay : Moves P t w w
  | notifications (T : Table Notification) : Moves P t w { w with notifications := T }
  | processedEvents (T : Table Uuid) : Moves P t w { w with processedEvents := T }
  | devices (T : Table Device) : Moves P t w { w with devices := T }
  | append (row : SyncEvent) : Moves P t w { w with syncEvents := w.syncEvents.insert t row }
  | commit : Moves P t w (Transactional.commit t w)
  | send (sockets : List Nat) (message : Frame) (h : P message) :
      Moves P t w (w.forEach sockets (Client.trySend message))
  | drop (sockets : List Nat) (reason : String) : Moves P t w (w.drop sockets reason)
  | close (sockets : List Nat) : Moves P t w (w.forEach sockets Client.close)
  | push (pushed : List Push) : Moves P t w { w with pushed := pushed }
  | denyUser (server : Nat) (userId : Uuid) : Moves P t w (w.denyUser server userId)
  | denyJti (server : Nat) (jti : Uuid) : Moves P t w (w.denyJti server jti)
  | opened (c : Client) (hnew : c.send = [] ∧ c.closed = false)
      (htoken : c.tenantId = c.token.tenantId ∧ c.userId = c.token.sub) :
      Moves P t w (w.openSocket c)
  | unregister (k : Nat) (c : Client) : Moves P t w (w.unregister k c)
  | write (k : Nat) {w' : World} (h : runWrite k t w = some ((), w')) : Moves P t w w'
  | tick (span : Nat) : Moves P t w { w with now := w.now + span }

/-- The frame closes a replay. -/
def Frame.completes : Frame → Bool
  | syncComplete .. => true
  | notification .. | alert .. | domainEvent .. | forceLogout .. | syncEvent .. => false

/-- No frame that is sent closes a replay. -/
def Plain (message : Frame) : Prop := message.completes = false

section Programs

variable {P : Frame → Prop}

theorem only_effect {β : Type} {f : World → β × World} (h : ∀ t w, Moves P t w (f w).2) :
    (effect f).Only (Moves P) := by
  refine only_stmt fun t w b w' hrun => ?_
  have hw : (f w).2 = w' := congrArg Prod.snd (Option.some.inj hrun)
  rw [← hw]
  exact h t w

theorem only_timeNow : timeNow.Only (Moves P) := only_query (fun _ _ => .stay) _

theorem only_commit : (commit : Prog World Error Unit).Only (Moves P) := by
  refine only_stmt fun t w b w' hrun => ?_
  cases hrun
  exact .commit

theorem only_processEvent {β : Type} {eventId : Uuid} {fn : Prog World Error β}
    (h : fn.Only (Moves P)) : (processEvent eventId fn).Only (Moves P) := by
  refine only_bind (only_stmt fun t w b w' hrun => ?_) fun found => ?_
  · cases b with
    | none =>
        rw [runInsertUnique_none hrun]
        exact .stay
    | some n =>
        obtain ⟨-, -, -, rfl⟩ := runInsertUnique_some hrun
        exact .processedEvents _
  · cases found with
    | none => exact only_bind only_commit fun _ => trivial
    | some n => exact only_bind h fun _ => only_bind only_commit fun _ => trivial

theorem only_appendSyncEvent {tenantId : Option Uuid} {entityType : String}
    {entityId : Option Uuid} {op : String} {payload : Payload} :
    (appendSyncEvent tenantId entityType entityId op payload).Only (Moves P) := by
  refine only_bind only_timeNow fun now => only_bind (only_stmt fun t w b w' hrun => ?_)
    fun _ => trivial
  cases hrun
  exact .append _

theorem only_insertNotification {tenantId : Option Uuid} {userId : Uuid} {type title : String}
    {body : Payload} : (insertNotification tenantId userId type title body).Only (Moves P) := by
  refine only_bind only_timeNow fun now => only_stmt fun t w b w' hrun => ?_
  cases hrun
  exact .notifications _

theorem only_onTaskAssigned (server : Nat) (event : Event) :
    (onTaskAssigned server event).Only (Moves Plain) := by
  unfold onTaskAssigned
  split
  · trivial
  · refine only_bind (only_processEvent ?_) fun found => ?_
    · exact only_bind only_insertNotification fun id =>
        only_bind only_appendSyncEvent fun _ => trivial
    · cases found with
      | none => trivial
      | some id =>
          refine only_bind (only_effect fun t w => .send _ _ rfl) fun delivered => ?_
          split
          · trivial
          · exact only_effect fun t w => .push _

theorem only_onAlertCreated (server : Nat) (event : Event) :
    (onAlertCreated server event).Only (Moves Plain) := by
  refine only_bind (only_processEvent only_appendSyncEvent) fun found => ?_
  cases found with
  | none => trivial
  | some _ =>
      refine only_effect fun t w => .send _ _ ?_
      unfold Payload.alertFrame
      split <;> rfl

theorem only_onGenericDomainEvent (server : Nat) (event : Event) :
    (onGenericDomainEvent server event).Only (Moves Plain) := by
  refine only_bind (only_processEvent only_appendSyncEvent) fun found => ?_
  cases found with
  | none => trivial
  | some _ => exact only_effect fun t w => .send _ _ rfl

theorem only_onRevocation (server : Nat) (event : Event) :
    (onRevocation server event).Only (Moves P) := by
  refine only_bind ?_ fun _ => ?_
  · unfold revokeUser
    split
    · trivial
    · exact only_bind (only_effect fun t w => .denyUser _ _) fun _ =>
        only_effect fun t w => .drop _ _
  · unfold revokeJti
    split
    · trivial
    · exact only_effect fun t w => .denyJti _ _

theorem only_handle (server : Nat) (event : Event) :
    (handle server event).Only (Moves Plain) := by
  unfold handle
  split
  · exact only_onTaskAssigned server event
  · split
    · exact only_onAlertCreated server event
    · split
      · exact only_onRevocation server event
      · split
        · unfold onTenantDeactivated
          split
          · exact only_effect fun t w => .drop _ _
          · trivial
        · exact only_onGenericDomainEvent server event

/-- A verified token is the one that was presented. -/
theorem verify_claims {v : Verifier} {now : Time} {token : Iam.Claims} {claims : Claims}
    (h : v.verify now token = .ok claims) : claims = Verifier.claims token := by
  unfold Verifier.verify at h
  split at h
  · cases h
  · split at h
    · cases h
    · cases h
      rfl

theorem verify_ok {v : Verifier} {now : Time} {token : Iam.Claims} {claims : Claims}
    (h : v.verify now token = .ok claims) :
    claims.userId = token.sub ∧ claims.tenantId = token.tenantId := by
  rw [verify_claims h]
  exact ⟨rfl, rfl⟩

theorem only_handleAck (socket : Nat) (notificationId : Uuid) :
    (handleAck socket notificationId).Only (Moves P) := by
  refine only_bind (only_query (fun _ _ => .stay) _) fun found => ?_
  cases found with
  | none => trivial
  | some c =>
      refine only_bind only_timeNow fun now => only_bind (only_stmt fun t w b w' hrun => ?_)
        fun _ => only_commit
      cases b with
      | none =>
          obtain ⟨rfl, -⟩ := runUpdate_none hrun
          exact .stay
      | some row =>
          obtain ⟨v, -, -, -, -, rfl⟩ := runUpdate_some hrun
          exact .notifications _

theorem only_leave (socket : Nat) : (Rto.leave socket).Only (Moves P) := by
  refine only_bind (only_effect fun t w => ?_) fun _ => only_effect fun t w => .close _
  cases hc : w.clients socket with
  | none => exact .stay
  | some c => exact .unregister socket c

theorem only_upsertDeviceCursor {tenantId : Option Uuid} {userId : Uuid} {deviceId : String}
    {cursor : Int} : (upsertDeviceCursor tenantId userId deviceId cursor).Only (Moves P) := by
  refine only_bind only_timeNow fun now => only_bind (only_stmt fun t w b w' hrun => ?_)
    fun _ => only_commit
  unfold runUpsert at hrun
  split at hrun
  · split at hrun
    · cases hrun
    · cases hrun
      exact .devices _
  · split at hrun
    · cases hrun
    · cases hrun
      exact .devices _

theorem only_connect (server : Nat) (token : Iam.Claims) (device : Nat) :
    (Rto.connect server token device).Only (Moves P) := by
  intro t w found w' hrun
  obtain ⟨hfound, rfl⟩ : (w.servers server).verifier.verify w.now token = found ∧ w = w' :=
    Prod.mk.inj (Option.some.inj hrun)
  refine ⟨.stay, ?_⟩
  cases found with
  | error e => trivial
  | ok claims =>
      obtain ⟨huser, htenant⟩ := verify_ok hfound
      exact only_effect fun t w => .opened _ ⟨rfl, rfl⟩ ⟨htenant, huser⟩

theorem only_trySendAll {socket : Nat} {messages : List Frame} (h : ∀ m ∈ messages, P m) :
    (trySendAll socket messages).Only (Moves P) := by
  induction messages with
  | nil => trivial
  | cons m rest ih =>
      refine only_bind (only_effect fun t w => .send _ _ (h m List.mem_cons_self)) fun _ => ?_
      exact ih fun m' hm' => h m' (List.mem_cons_of_mem _ hm')

theorem only_handleSync (socket : Nat) (frame : SyncFrame) :
    (handleSync socket frame).Only (Moves fun _ => True) := by
  refine only_bind (only_query (fun _ _ => .stay) _) fun found => ?_
  cases found with
  | none => trivial
  | some found =>
      refine only_bind (only_trySendAll fun _ _ => trivial) fun _ => ?_
      refine only_bind (only_effect fun t w => .send _ _ trivial) fun _ => ?_
      split
      · trivial
      · exact only_upsertDeviceCursor

end Programs

/-- Frames that may be sent by more calls. -/
theorem Moves.mono {P Q : Frame → Prop} (hPQ : ∀ m, P m → Q m) {t : Sid} {w w' : World}
    (h : Moves P t w w') : Moves Q t w w' := by
  cases h with
  | stay => exact .stay
  | notifications T => exact .notifications T
  | processedEvents T => exact .processedEvents T
  | devices T => exact .devices T
  | append row => exact .append row
  | commit => exact .commit
  | send sockets message h => exact .send sockets message (hPQ message h)
  | drop sockets reason => exact .drop sockets reason
  | close sockets => exact .close sockets
  | push pushed => exact .push pushed
  | denyUser server userId => exact .denyUser server userId
  | denyJti server jti => exact .denyJti server jti
  | opened c hnew htoken => exact .opened c hnew htoken
  | unregister k c => exact .unregister k c
  | write k h => exact .write k h
  | tick span => exact .tick span

/-- The calls that answer no `sync` frame send plain frames. -/
theorem only_plain {a : Call} (h : ∀ socket frame, a ≠ .sync socket frame) :
    a.body.Only (Moves Plain) := by
  cases a with
  | handle server event => exact only_handle server event
  | connect server token device => exact only_connect server token device
  | sync socket frame => exact absurd rfl (h socket frame)
  | ack socket notificationId => exact only_handleAck socket notificationId
  | write socket =>
      refine only_stmt fun t w b w' hrun => ?_
      exact .write socket hrun
  | leave socket => exact only_leave socket
  | tick span => exact only_effect fun t w => .tick span

end Rto
end Rcp
