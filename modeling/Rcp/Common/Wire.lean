/-
Reading what another service has written.

A producer writes a dict of texts, numbers and lists (`Contracts.envelopeJson`); a consumer gets
it back from `json.loads` and takes the values out key by key.  A `Codec` has the texts of UUIDs
and times together with the functions that read them, and what a function of the standard library
reads is what the other one has written.
-/
import Mathlib
import Rcp.Common.Contracts
import Rcp.Common.Inbox
import Rcp.Common.Values

namespace Rcp
namespace Wire

open Contracts

/-- Texts of UUIDs and times that are read back. -/
structure Codec extends Texts where
  /-- `uuid.UUID(text)`, and `uuid.Parse(text)` in Go. -/
  parseUuid : String → Option Uuid
  /-- `datetime.fromisoformat(text)`. -/
  fromisoformat : String → Option Time
  /-- `int(text)`. -/
  parseInt : String → Option Int
  parseUuid_uuid : ∀ id, parseUuid (uuid id) = some id
  uuid_ne_empty : ∀ id, uuid id ≠ ""
  uuid_ne_null : ∀ id, uuid id ≠ "null"
  fromisoformat_isoformat : ∀ t, fromisoformat (isoformat t) = some t
  isoformat_ne_empty : ∀ t, isoformat t ≠ ""
  /-- The offset of a time is written out. -/
  isoformat_no_Z : ∀ t, 'Z' ∉ (isoformat t).toList

theorem not_mem_repr {n : Nat} {c : Char} (hc : c.isDigit = false) : c ∉ n.repr.toList := by
  intro hmem
  rw [Nat.repr_eq_ofList_toDigits, String.toList_ofList] at hmem
  rw [Nat.isDigit_of_mem_toDigits (by decide) (by decide) hmem] at hc
  cases hc

theorem repr_plain (t : Int) : t.repr ≠ "" ∧ 'Z' ∉ t.repr.toList := by
  rw [Int.repr_eq_if]
  split
  · exact ⟨Nat.repr_ne_empty, not_mem_repr rfl⟩
  · refine ⟨fun hempty => ?_, ?_⟩
    · have hchars := congrArg String.toList hempty
      rw [String.toList_append] at hchars
      cases hchars
    · rw [String.toList_append]
      intro hmem
      rcases List.mem_append.mp hmem with hmem | hmem
      · exact absurd hmem (by decide)
      · exact not_mem_repr rfl hmem

/-- Decimal numbers. -/
def Codec.decimal : Codec where
  uuid := Nat.repr
  isoformat := Int.repr
  parseUuid := String.toNat?
  fromisoformat := String.toInt?
  parseInt := String.toInt?
  parseUuid_uuid := Nat.toNat?_repr
  uuid_ne_empty _ := Nat.repr_ne_empty
  uuid_ne_null n hnull := not_mem_repr (n := n) (c := 'n') rfl (by
    rw [hnull]
    decide)
  fromisoformat_isoformat := Int.toInt?_repr
  isoformat_ne_empty t := (repr_plain t).1
  isoformat_no_Z t := (repr_plain t).2

/-- What a consumer raises. -/
inductive Raised
  | keyError
  | valueError
  | typeError
  | attributeError
  /-- The database refuses a value. -/
  | databaseError
  deriving DecidableEq

/-! ## Python -/

/-- `data[key]`. -/
def item (data : Object) (key : String) : Except Raised Json :=
  match data.get? key with
  | none => .error .keyError
  | some value => .ok value

/-- `data.get(key, default)`. -/
def getD (data : Object) (key : String) (default : Json) : Json := (data.get? key).getD default

/-- Data that is no dict has no keys. -/
def keysOf : Json → Object
  | .obj entries => entries
  | _ => []

/-- `uuid.UUID(value)`. -/
def Codec.uuidOf (codec : Codec) : Json → Except Raised Uuid
  | .str s =>
      match codec.parseUuid s with
      | none => .error .valueError
      | some id => .ok id
  | .null => .error .typeError
  | _ => .error .attributeError

/-- `datetime.fromisoformat(value)`. -/
def Codec.timeOf (codec : Codec) : Json → Except Raised Time
  | .str s =>
      match codec.fromisoformat s with
      | none => .error .valueError
      | some t => .ok t
  | _ => .error .typeError

/-- `int(value)`. -/
def Codec.intOf (codec : Codec) : Json → Except Raised Int
  | .int n => .ok n
  | .bool b => .ok (if b then 1 else 0)
  | .float (.finite q) => .ok (Number.trunc q)
  | .float _ => .error .valueError
  | .str s =>
      match codec.parseInt s with
      | none => .error .valueError
      | some n => .ok n
  | .null | .arr _ | .obj _ => .error .typeError

/-- `bool(value)`. -/
def truth : Json → Bool
  | .null => false
  | .bool b => b
  | .int n => n != 0
  | .float (.finite q) => q != 0
  | .float _ => true
  | .str s => s != ""
  | .arr xs => !xs.isEmpty
  | .obj entries => !entries.isEmpty

/- The values that a column takes. -/

def textColumn : Json → Except Raised String
  | .str s => .ok s
  | _ => .error .databaseError

def optionalTextColumn : Json → Except Raised (Option String)
  | .null => .ok none
  | .str s => .ok (some s)
  | _ => .error .databaseError

def boolColumn : Json → Except Raised Bool
  | .bool b => .ok b
  | _ => .error .databaseError

def textsColumn : Json → Except Raised (List String)
  | .arr xs => xs.mapM textColumn
  | _ => .error .databaseError

section Lemmas

variable {codec : Codec}

@[simp] theorem ok_bind {α β : Type} (a : α) (f : α → Except Raised β) :
    (Except.ok a >>= f) = f a := rfl

@[simp] theorem pure_eq_ok {α : Type} (a : α) : (pure a : Except Raised α) = .ok a := rfl

@[simp] theorem uuidOf_uuid (id : Uuid) : codec.uuidOf (.str (codec.uuid id)) = .ok id := by
  simp [Codec.uuidOf, codec.parseUuid_uuid]

@[simp] theorem timeOf_isoformat (t : Time) :
    codec.timeOf (.str (codec.isoformat t)) = .ok t := by
  simp [Codec.timeOf, codec.fromisoformat_isoformat]

@[simp] theorem optionalTextColumn_optionalText (s : Option String) :
    optionalTextColumn (optionalText s) = .ok s := by
  cases s <;> rfl

@[simp] theorem textsColumn_texts (l : List String) :
    textsColumn (.arr (l.map .str)) = .ok l := by
  show (l.map Json.str).mapM textColumn = .ok l
  induction l with
  | nil => rfl
  | cons s rest ih =>
      rw [List.map_cons, List.mapM_cons, ih]
      rfl

theorem item_of_get? {data : Object} {key : String} {value : Json}
    (h : data.get? key = some value) : item data key = .ok value := by
  rw [item, h]

theorem getD_of_get? {data : Object} {key : String} {value default : Json}
    (h : data.get? key = some value) : getD data key default = value := by
  rw [getD, h]
  rfl

end Lemmas

/-- The entries of an envelope. -/
def envelopeEntries {D : Type} (texts : Texts) (producer occurredAt : String)
    (traceId : Option String) (event : Envelope D) (data : Json) : Object :=
  match envelopeJson texts producer occurredAt traceId event data with
  | .obj entries => entries
  | _ => []

section Envelope

variable {D : Type} (texts : Texts) (producer occurredAt : String) (traceId : Option String)
  (event : Envelope D) (data : Json)

theorem envelope_eventId :
    item (envelopeEntries texts producer occurredAt traceId event data) "event_id" =
      .ok (.str (texts.uuid event.eventId)) :=
  item_of_get? (by simp [envelopeEntries, envelopeJson, JsonSchema.get?_cons])

theorem envelope_eventType :
    item (envelopeEntries texts producer occurredAt traceId event data) "event_type" =
      .ok (.str event.eventType) :=
  item_of_get? (by simp [envelopeEntries, envelopeJson, JsonSchema.get?_cons])

theorem envelope_tenantId :
    item (envelopeEntries texts producer occurredAt traceId event data) "tenant_id" =
      .ok (texts.uuidOrNull event.tenantId) :=
  item_of_get? (by simp [envelopeEntries, envelopeJson, JsonSchema.get?_cons])

theorem envelope_data :
    item (envelopeEntries texts producer occurredAt traceId event data) "data" = .ok data :=
  item_of_get? (by simp [envelopeEntries, envelopeJson, JsonSchema.get?_cons])

/-- `envelope.get("tenant_id")`. -/
theorem envelope_tenantId? :
    getD (envelopeEntries texts producer occurredAt traceId event data) "tenant_id" .null =
      texts.uuidOrNull event.tenantId :=
  getD_of_get? (by simp [envelopeEntries, envelopeJson, JsonSchema.get?_cons])

end Envelope

/-! ## Consumers -/

/-- `_on_message` over a `_handle` of what `json.loads` returns. -/
def onMessage {R : Type} (handle : Object → Inbox R → Except Raised (Inbox R)) (s : Inbox R)
    (envelope : Object) : Inbox R :=
  match handle envelope s with
  | .ok s' => s'
  | .error _ => s

section Consumers

variable {D R ε : Type} {handle : Object → Inbox R → Except Raised (Inbox R)}
  {typed : Envelope D → Inbox R → Except ε (Inbox R)}

theorem onMessage_eq {envelope : Object} {event : Envelope D} {s : Inbox R}
    (h : (handle envelope s).toOption = (typed event s).toOption) :
    onMessage handle s envelope = Inbox.onMessage typed s event := by
  unfold onMessage Inbox.onMessage
  cases hwire : handle envelope s with
  | ok s' =>
      cases htyped : typed event s with
      | ok s'' =>
          rw [hwire, htyped] at h
          exact Option.some.inj h
      | error e =>
          rw [hwire, htyped] at h
          cases h
  | error e =>
      cases htyped : typed event s with
      | ok s'' =>
          rw [hwire, htyped] at h
          cases h
      | error e => rfl

/-- A consumer that reads every event as it was meant ends with the same rows, whatever is
delivered. -/
theorem foldl_onMessage {written : Envelope D → Object} {d : List (Envelope D)}
    (h : ∀ e ∈ d, ∀ s, (handle (written e) s).toOption = (typed e s).toOption) (s : Inbox R) :
    (d.map written).foldl (onMessage handle) s = d.foldl (Inbox.onMessage typed) s := by
  induction d generalizing s with
  | nil => rfl
  | cons e rest ih =>
      rw [List.map_cons, List.foldl_cons, List.foldl_cons,
        onMessage_eq (h e List.mem_cons_self s)]
      exact ih (fun x hx => h x (List.mem_cons_of_mem e hx)) _

/-- A new event is applied the same way. -/
theorem seen_or_applied {eventId : Uuid} {wire : Except Raised R} {apply : Except ε R}
    {s : Inbox R} (h : wire.toOption = apply.toOption) :
    (if eventId ∈ s.processed then .ok s
      else do
        let rows ← wire
        return { rows := rows, processed := eventId :: s.processed } :
        Except Raised (Inbox R)).toOption =
      (if eventId ∈ s.processed then .ok s
      else do
        let rows ← apply
        return { rows := rows, processed := eventId :: s.processed } :
        Except ε (Inbox R)).toOption := by
  split
  · rfl
  · cases wire with
    | ok rows =>
        cases apply with
        | ok rows' =>
            obtain rfl := Option.some.inj h
            rfl
        | error e => cases h
    | error e =>
        cases apply with
        | ok rows' => cases h
        | error e => rfl

end Consumers

end Wire
end Rcp
