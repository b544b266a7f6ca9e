/-
Disaster alerts on their way to the tenant's apps.

An alert is listed by `GET /api/alerts` and sent to the open sockets of its tenant
(`onAlertCreated`).  Both show the same values, and no alert is shown in one place only.
-/
import Rcp.Logistics.Alerts
import Rcp.Rto.Dispatch
import Rcp.Rto.Wire

namespace Rcp
namespace Rto
namespace Alerts

open Sql
open Logistics.Alerts (AlertData DisasterAlert CreateAlert getAlerts announcement alertData)
open Rcp.Wire (Codec envelopeEntries)

/-- The dict that `create_alert` passes to `emit`. -/
def data (texts : Contracts.Texts) (alert : AlertData) : Object :=
  [("alert_id", .str (texts.uuid alert.alertId)),
    ("tenant_id", .str (texts.uuid alert.tenantId)),
    ("title", .str alert.title),
    ("message", .str alert.message),
    ("severity", .str alert.severity.value),
    ("created_by", .str (texts.uuid alert.createdBy)),
    ("created_at", .str (texts.isoformat alert.createdAt))]

/-- An event as the relay publishes it. -/
def published (codec : Codec) (occurredAt : Envelope AlertData → String)
    (traceId : Envelope AlertData → Option String) (event : Envelope AlertData) : Object :=
  envelopeEntries codec.toTexts "logistics-service" (occurredAt event) (traceId event) event
    (.obj (data codec.toTexts event.data))

/-- The data as it goes into the tables and the frames. -/
def payload (codec : Codec) (alert : AlertData) : Payload :=
  .alert alert.alertId alert.title alert.message alert.severity.value
    (codec.uuid alert.createdBy) (codec.isoformat alert.createdAt)

/-- The frame that shows alert `k`. -/
def alertFrame (codec : Codec) (k : Uuid) (alert : DisasterAlert) : Frame :=
  .alert (some k) alert.title alert.message alert.severity.value (codec.uuid alert.createdBy)
    (codec.isoformat alert.createdAt)

/-- The change feed's row of alert `k`. -/
def feedRow (codec : Codec) (k : Uuid) (alert : DisasterAlert) (now : Time) : SyncEvent :=
  { tenantId := some alert.tenantId
    entityType := "alert"
    entityId := some k
    op := "created"
    payload := payload codec (alertData k alert)
    occurredAt := now }

section Handled

variable {codec : Codec} {k o : Uuid} {alert : DisasterAlert}

/-- The store after the transaction of `onAlertCreated`. -/
def stored (codec : Codec) (w : World) (t : Sid) (eventId k : Uuid) (alert : DisasterAlert) :
    World :=
  Transactional.commit t
    { w with
      processedEvents := w.processedEvents.insert t eventId
      syncEvents := w.syncEvents.insert t (feedRow codec k alert w.now) }

end Handled

/-! ## Runs -/

def coordinator : Principal :=
  { userId := 3, tenantId := some 1, userType := "COORDINATOR", roles := ["coordinator"] }

end Alerts
end Rto
end Rcp
