/-
The shape that all event consumers share (`_handle` and `_on_message` of the
services).

An event whose id is in `processed_events` is dropped.  Otherwise the consumer applies
it and records its id in the same transaction.  An exception rolls the transaction back
and the message goes to the dead-letter queue.
-/
import Rcp.Common.Outbox
import Rcp.Delivery.LastWriter

namespace Rcp

/-- A column that a flush writes only if the new value is not the loaded one. -/
def column {α : Type} [DecidableEq α] (loaded new current : α) : α :=
  if new = loaded then current else new

/-- The rows of a consumer and the ids of the events it has handled. -/
structure Inbox (R : Type) where
  rows : R
  processed : List Uuid := []

namespace Inbox

variable {D R ε : Type}

def handle (apply : Envelope D → R → Except ε R) (event : Envelope D) (s : Inbox R) :
    Except ε (Inbox R) :=
  if event.eventId ∈ s.processed then .ok s
  else do
    let rows ← apply event s.rows
    return { rows := rows, processed := event.eventId :: s.processed }

/-- `_on_message` over a `_handle`. -/
def onMessage (handle : Envelope D → Inbox R → Except ε (Inbox R)) (s : Inbox R)
    (event : Envelope D) : Inbox R :=
  match handle event s with
  | .ok s' => s'
  | .error _ => s

section Messages

variable {apply : Envelope D → R → Except ε R} {event : Envelope D} {s : Inbox R}

theorem onMessage_seen (h : event.eventId ∈ s.processed) :
    onMessage (handle apply) s event = s := by
  unfold onMessage handle
  rw [if_pos h]

theorem onMessage_ok {rows : R} (h : event.eventId ∉ s.processed)
    (happly : apply event s.rows = .ok rows) :
    onMessage (handle apply) s event =
      { rows := rows, processed := event.eventId :: s.processed } := by
  unfold onMessage handle
  rw [if_neg h, happly]
  rfl

theorem onMessage_error {e : ε} (h : event.eventId ∉ s.processed)
    (happly : apply event s.rows = .error e) : onMessage (handle apply) s event = s := by
  unfold onMessage handle
  rw [if_neg h, happly]
  rfl

end Messages

/-- The rows after an event, as far as the consumer takes it. -/
def applied (apply : Envelope D → R → Except ε R) (rows : R) (event : Envelope D) : R :=
  match apply event rows with
  | .ok rows' => rows'
  | .error _ => rows

/-- Events that are delivered once each are all applied, in their order. -/
theorem rows_once {apply : Envelope D → R → Except ε R} {d : List (Envelope D)} {s : Inbox R}
    (hids : (d.map Envelope.eventId).Nodup) (hnew : ∀ e ∈ d, e.eventId ∉ s.processed) :
    (d.foldl (onMessage (handle apply)) s).rows = d.foldl (applied apply) s.rows := by
  induction d generalizing s with
  | nil => rfl
  | cons e rest ih =>
      rw [List.map_cons, List.nodup_cons] at hids
      have he := hnew e List.mem_cons_self
      have hrest : ∀ x ∈ rest, x.eventId ∉ s.processed :=
        fun x hx => hnew x (List.mem_cons_of_mem _ hx)
      rw [List.foldl_cons, List.foldl_cons]
      cases happly : apply e s.rows with
      | error err =>
          rw [onMessage_error he happly, ih hids.2 hrest]
          simp only [applied, happly]
      | ok rows =>
          rw [onMessage_ok he happly]
          have hnew' : ∀ x ∈ rest, x.eventId ∉ e.eventId :: s.processed := by
            intro x hx hmem
            rcases List.mem_cons.mp hmem with heq | hmem
            · exact hids.1 (List.mem_map.mpr ⟨x, hx, heq⟩)
            · exact hrest x hx hmem
          rw [ih hids.2 hnew']
          simp only [applied, happly]

/-! ## Guarded upserts -/

/-- Applying an event overwrites the row of one thing unless the event is older. -/
structure Upserts {B T : Type} [LinearOrder T] (about ok : Envelope D → Prop)
    (stamp : Envelope D → T) (content : Envelope D → Option B)
    (apply : Envelope D → R → Except ε R) (row : R → Option B) (inv : R → Prop) : Prop where
  keep : ∀ e r r', inv r → about e → apply e r = .ok r' → inv r'
  refused : ∀ e r r', inv r → about e → ¬ ok e → apply e r = .ok r' → row r' = row r
  first : ∀ e r, inv r → about e → ok e → row r = none →
    ∃ r', apply e r = .ok r' ∧ row r' = content e
  overwrites : ∀ e x r, inv r → about e → ok e → about x → row r = content x →
    ∃ r', apply e r = .ok r' ∧ row r' = if stamp e < stamp x then row r else content e
  accepts : ∀ e r, inv r → about e → ok e → ∃ r', apply e r = .ok r'

/-- A consumer that applies guarded upserts and drops what it has handled. -/
theorem Upserts.lastWriter [DecidableEq D] {B T : Type} [LinearOrder T]
    {about ok : Envelope D → Prop} {stamp : Envelope D → T} {content : Envelope D → Option B}
    {apply : Envelope D → R → Except ε R} {row : R → Option B} {inv : R → Prop}
    {deliver : Inbox R → Envelope D → Inbox R}
    (h : Upserts about ok stamp content apply row inv)
    (hids : ∀ x y, about x → about y → x.eventId = y.eventId → x = y)
    (hdeliver : ∀ p e, about e → deliver p e = onMessage (handle apply) p e) :
    Delivery.LastWriter about ok stamp content deliver (fun p => row p.rows)
      (fun p e => e.eventId ∈ p.processed) (fun p => inv p.rows) where
  keep := by
    intro p e hp he
    rw [hdeliver p e he]
    by_cases hdone : e.eventId ∈ p.processed
    · rw [onMessage_seen hdone]
      exact hp
    · cases happly : apply e p.rows with
      | error err =>
          rw [onMessage_error hdone happly]
          exact hp
      | ok rows =>
          rw [onMessage_ok hdone happly]
          exact h.keep e _ rows hp he happly
  seen := by
    intro p e _ he hdone
    rw [hdeliver p e he, onMessage_seen hdone]
  refused := by
    intro p e hp he hok
    rw [hdeliver p e he]
    by_cases hdone : e.eventId ∈ p.processed
    · rw [onMessage_seen hdone]
    · cases happly : apply e p.rows with
      | error err => rw [onMessage_error hdone happly]
      | ok rows =>
          rw [onMessage_ok hdone happly]
          exact h.refused e _ rows hp he hok happly
  first := by
    intro p e hp he hok hdone hnone
    obtain ⟨rows, happly, hrow⟩ := h.first e p.rows hp he hok hnone
    rw [hdeliver p e he, onMessage_ok hdone happly]
    exact hrow
  overwrites := by
    intro p e x hp he hok hdone hx hxrow
    obtain ⟨rows, happly, hrow⟩ := h.overwrites e x p.rows hp he hok hx hxrow
    rw [hdeliver p e he, onMessage_ok hdone happly]
    exact hrow
  handled := by
    intro p e x hp he hx hok
    rw [hdeliver p e he]
    have hid : x.eventId = e.eventId ↔ x = e :=
      ⟨fun heq => hids x e hx he heq, fun heq => by rw [heq]⟩
    by_cases hdone : e.eventId ∈ p.processed
    · rw [onMessage_seen hdone]
      refine ⟨.inl, fun hor => ?_⟩
      rcases hor with hx | rfl
      · exact hx
      · exact hdone
    · cases happly : apply e p.rows with
      | error err =>
          rw [onMessage_error hdone happly]
          refine ⟨.inl, fun hor => ?_⟩
          rcases hor with hx | rfl
          · exact hx
          · obtain ⟨rows, hrows⟩ := h.accepts x p.rows hp he hok
            rw [happly] at hrows
            cases hrows
      | ok rows =>
          rw [onMessage_ok hdone happly]
          show x.eventId ∈ e.eventId :: p.processed ↔ _
          rw [List.mem_cons, hid, or_comm]

end Inbox
end Rcp
