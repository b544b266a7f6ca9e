/-
The event envelope and the outbox writer shared by the services
(`packages/common/rcp_common/outbox.py`).
-/
import Mathlib.Data.Int.Order.Basic
import Rcp.Common.Python
import Rcp.Sql.Program

namespace Rcp

open Sql

abbrev Uuid := Nat

/-- A point in time, in microseconds. -/
abbrev Time := Int

/- The order of `WithBot Time` is built on this one, whichever orders of the integers are
imported. -/
instance : Preorder Time := Int.instLinearOrder.toPartialOrder.toPreorder

/-- The fields of the envelope that consumers read.  `event_type` is the routing
key. -/
structure Envelope (D : Type) where
  eventId : Uuid
  eventType : String
  tenantId : Option Uuid
  data : D
  deriving DecidableEq

structure Outbox (D : Type) where
  eventId : Uuid
  routingKey : String
  payload : Envelope D
  publishedAt : Option Time := none
  deriving DecidableEq

def buildEnvelope {D : Type} (eventId : Uuid) (routingKey : String) (tenantId : Option Uuid)
    (data : D) : Envelope D :=
  { eventId := eventId, eventType := routingKey, tenantId := tenantId, data := data }

/- The `uuid4` of the event is modelled by the outbox key, which no other row of
the service has. -/
def outboxRow {D : Type} (routingKey : String) (tenantId : Option Uuid) (data : D)
    (eventId : Uuid) : Outbox D :=
  { eventId := eventId
    routingKey := routingKey
    payload := buildEnvelope eventId routingKey tenantId data }

def emit {S ε D : Type} (T : Access S (Outbox D)) (routingKey : String)
    (tenantId : Option Uuid) (data : D) : Prog S ε Nat :=
  insert T (outboxRow routingKey tenantId data)

/-- Every event of a write set is numbered by its key. -/
def Numbered {D : Type} (O : Nat → Option (Outbox D)) : Prop :=
  ∀ o row, O o = some row → row.payload.eventId = o

section Numbered

variable {D : Type} {O : Nat → Option (Outbox D)} {o : Nat} {row : Outbox D}

theorem Numbered.nothing : Numbered (Table.noRows : Nat → Option (Outbox D)) :=
  fun _ _ h => by cases h

theorem Numbered.update (h : Numbered O) (hrow : row.payload.eventId = o) :
    Numbered (Function.update O o (some row)) := by
  intro k x hk
  by_cases hko : k = o
  · subst hko
    rw [Function.update_self] at hk
    cases hk
    exact hrow
  · rw [Function.update_of_ne hko] at hk
    exact h k x hk

theorem Numbered.single (hrow : row.payload.eventId = o) : Numbered (Table.single o row) :=
  Numbered.nothing.update hrow

theorem Numbered.overlay {W : Nat → Option (Outbox D)} (hW : Numbered W) (h : Numbered O) :
    Numbered fun k => (W k).or (O k) := by
  intro k x hk
  cases hWk : W k with
  | none =>
      simp only [hWk, Option.none_or] at hk
      exact h k x hk
  | some y =>
      simp only [hWk, Option.some_or] at hk
      cases hk
      exact hW k x hWk

/-- No two events in the outbox have the same id. -/
theorem Numbered.nodup {T : Table (Outbox D)} (h : Numbered T.committed) :
    ((T.values.map Outbox.payload).map Envelope.eventId).Nodup := by
  unfold Table.values
  rw [List.map_filterMap, List.map_filterMap]
  refine List.Nodup.filterMap ?_ List.nodup_range
  intro j k id hj hk
  obtain ⟨row, hrow, rfl⟩ := Option.map_eq_some_iff.mp hj
  obtain ⟨row', hrow', hid⟩ := Option.map_eq_some_iff.mp hk
  obtain ⟨x, hx, rfl⟩ := Option.map_eq_some_iff.mp hrow
  obtain ⟨y, hy, rfl⟩ := Option.map_eq_some_iff.mp hrow'
  rw [← h j x hx, ← hid, h k y hy]

end Numbered

end Rcp
