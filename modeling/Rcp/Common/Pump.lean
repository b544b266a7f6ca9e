/-
A task that carries frames from one end of a connection to the other.

The task receives a message, hands on the frame in it and receives again, until a message says
that the source is gone.  An operation may fail, and the task may be cancelled while it waits.
A frame whose sending was cut short may or may not be out.

`frames carry l` are the frames of the messages `l` before the source is gone.  What the task has
delivered is a prefix of them whenever one looks, at most the frame in hand is lost, and a task
that saw the source go has delivered all of them.
-/
import Mathlib.Data.List.Basic

namespace Rcp

/-- What the task does with a message. -/
inductive Carry (β : Type)
  | skip
  | frame (b : β)
  | stop

section Frames

variable {α β : Type} (carry : α → Carry β)

/-- The frames up to the message with which the source goes. -/
def frames : List α → List β
  | [] => []
  | a :: rest =>
      match carry a with
      | .skip => frames rest
      | .frame b => b :: frames rest
      | .stop => []

/-- The source is gone with one of the messages. -/
def Gone (l : List α) : Prop := ∃ a ∈ l, carry a = .stop

variable {carry}

theorem Gone.append {l : List α} (h : Gone carry l) (m : List α) : Gone carry (l ++ m) :=
  h.imp fun _ ha => ⟨List.mem_append_left m ha.1, ha.2⟩

theorem gone_append_iff {l m : List α} : Gone carry (l ++ m) ↔ Gone carry l ∨ Gone carry m := by
  simp only [Gone, List.mem_append, or_and_right, exists_or]

theorem not_gone_nil : ¬ Gone carry [] := fun ⟨_, ha, _⟩ => List.not_mem_nil ha

theorem not_gone_singleton {a : α} (h : carry a ≠ .stop) : ¬ Gone carry [a] := by
  rintro ⟨b, hb, hstop⟩
  exact h (List.mem_singleton.mp hb ▸ hstop)

theorem frames_append_of_gone {l : List α} (h : Gone carry l) (m : List α) :
    frames carry (l ++ m) = frames carry l := by
  induction l with
  | nil => exact absurd h not_gone_nil
  | cons a rest ih =>
      have hrest : carry a ≠ .stop → Gone carry rest := by
        intro hne
        obtain ⟨b, hb, hstop⟩ := h
        rcases List.mem_cons.mp hb with rfl | hb
        · exact absurd hstop hne
        · exact ⟨b, hb, hstop⟩
      cases ha : carry a with
      | skip => simp only [List.cons_append, frames, ha, ih (hrest (by simp [ha]))]
      | frame b => simp only [List.cons_append, frames, ha, ih (hrest (by simp [ha]))]
      | stop => simp only [List.cons_append, frames, ha]

theorem frames_append {l : List α} (h : ¬ Gone carry l) (m : List α) :
    frames carry (l ++ m) = frames carry l ++ frames carry m := by
  induction l with
  | nil => rfl
  | cons a rest ih =>
      have hne : carry a ≠ .stop := fun hstop => h ⟨a, List.mem_cons_self, hstop⟩
      have hrest : ¬ Gone carry rest := fun hgone => h (Gone.append hgone [] |>.imp fun b hb =>
        ⟨List.mem_cons_of_mem a (by simpa using hb.1), hb.2⟩)
      cases ha : carry a with
      | skip => simp only [List.cons_append, frames, ha, ih hrest]
      | frame b => simp only [List.cons_append, frames, ha, ih hrest]
      | stop => exact absurd ha hne

/-- More messages bring more frames and take none away. -/
theorem frames_begin (l m : List α) : frames carry l <+: frames carry (l ++ m) := by
  by_cases h : Gone carry l
  · exact (frames_append_of_gone h m).symm ▸ List.prefix_rfl
  · exact (frames_append h m).symm ▸ List.prefix_append _ _

end Frames

namespace Pump

/-- Where the task stands. -/
inductive Task (β : Type)
  | waiting
  | sending (frame : β)
  /-- It saw the source go. -/
  | ended
  /-- An operation failed, or the task was cancelled. -/
  | broken

/-- The task is done. -/
def Task.over {β : Type} : Task β → Bool
  | waiting | sending _ => false
  | ended | broken => true

inductive Move (α : Type)
  /-- The source sends a message. -/
  | arrive (a : α)
  | receive
  | receiveFails
  | deliver
  /-- The frame in hand is `out` or it is lost. -/
  | deliverFails (out : Bool)
  | cancel (out : Bool)

/-- A move of the task, not of the source. -/
def Move.own {α : Type} : Move α → Bool
  | arrive _ => false
  | _ => true

/-- No operation fails with the move. -/
def Move.smooth {α : Type} : Move α → Bool
  | receiveFails | deliverFails _ => false
  | _ => true

end Pump

structure Pump (α β : Type) where
  received : List α := []
  unread : List α := []
  delivered : List β := []
  task : Pump.Task β := .waiting

namespace Pump

variable {α β : Type} (carry : α → Carry β)

/-- All that the source has sent. -/
def sent (p : Pump α β) : List α := p.received ++ p.unread

/-- The task after it has received `a`. -/
def next (a : α) : Task β :=
  match carry a with
  | .skip => .waiting
  | .frame b => .sending b
  | .stop => .ended

/-- The task is cut short with a frame in hand. -/
def cut (p : Pump α β) (frame : β) (out : Bool) : Pump α β :=
  { p with
    delivered := if out then p.delivered ++ [frame] else p.delivered
    task := .broken }

/-- One move.  It is made only where the task stands. -/
def move (p : Pump α β) : Move α → Option (Pump α β)
  | .arrive a => some { p with unread := p.unread ++ [a] }
  | .receive =>
      match p.task, p.unread with
      | .waiting, a :: rest => some { p with
          received := p.received ++ [a]
          unread := rest
          task := next carry a }
      | _, _ => none
  | .receiveFails =>
      match p.task with
      | .waiting => some { p with task := .broken }
      | _ => none
  | .deliver =>
      match p.task with
      | .sending b => some { p with
          delivered := p.delivered ++ [b]
          task := .waiting }
      | _ => none
  | .deliverFails out =>
      match p.task with
      | .sending b => some (p.cut b out)
      | _ => none
  | .cancel out =>
      match p.task with
      | .waiting => some { p with task := .broken }
      | .sending b => some (p.cut b out)
      | _ => none

/-! ## What is delivered -/

/-- What the task has delivered of the messages it has received. -/
def Faithful (p : Pump α β) : Prop :=
  match p.task with
  | .waiting => ¬ Gone carry p.received ∧ frames carry p.received = p.delivered
  | .sending b => ¬ Gone carry p.received ∧ frames carry p.received = p.delivered ++ [b]
  | .ended => Gone carry p.received ∧ frames carry p.received = p.delivered
  | .broken => frames carry p.received = p.delivered ∨
      ∃ b, frames carry p.received = p.delivered ++ [b]

variable {carry} {p q : Pump α β}

theorem faithful_initial : ({} : Pump α β).Faithful carry := ⟨not_gone_nil, rfl⟩

theorem faithful_cut {b : β} (h : frames carry p.received = p.delivered ++ [b]) (out : Bool) :
    (p.cut b out).Faithful carry := by
  cases out with
  | false => exact .inr ⟨b, h⟩
  | true => exact .inl h

theorem Faithful.receive {a : α} {rest : List α} (hgone : ¬ Gone carry p.received)
    (hframes : frames carry p.received = p.delivered) :
    Faithful carry { p with
      received := p.received ++ [a]
      unread := rest
      task := next carry a } := by
  have hmore : frames carry (p.received ++ [a]) = p.delivered ++ frames carry [a] := by
    rw [frames_append hgone, hframes]
  have hopen : carry a ≠ .stop → ¬ Gone carry (p.received ++ [a]) := fun hne h =>
    (gone_append_iff.mp h).elim hgone (not_gone_singleton hne)
  cases ha : carry a with
  | skip =>
      simp only [Faithful, next, ha]
      exact ⟨hopen (by simp [ha]), by rw [hmore]; simp [frames, ha]⟩
  | frame b =>
      simp only [Faithful, next, ha]
      exact ⟨hopen (by simp [ha]), by rw [hmore]; simp [frames, ha]⟩
  | stop =>
      simp only [Faithful, next, ha]
      refine ⟨?_, by rw [hmore]; simp [frames, ha]⟩
      exact gone_append_iff.mpr (.inr ⟨a, List.mem_singleton_self a, ha⟩)

theorem Faithful.move {m : Move α} (hp : p.Faithful carry) (h : p.move carry m = some q) :
    q.Faithful carry := by
  obtain ⟨received, unread, delivered, task⟩ := p
  cases m with
  | arrive a =>
      obtain rfl : _ = q := Option.some.inj h
      exact hp
  | receive =>
      cases task with
      | waiting =>
          cases unread with
          | nil => cases h
          | cons a rest =>
              obtain rfl : _ = q := Option.some.inj h
              exact Faithful.receive (p := ⟨received, a :: rest, delivered, .waiting⟩) hp.1 hp.2
      | sending | ended | broken => cases h
  | receiveFails =>
      cases task with
      | waiting =>
          obtain rfl : _ = q := Option.some.inj h
          exact .inl hp.2
      | sending | ended | broken => cases h
  | deliver =>
      cases task with
      | sending b =>
          obtain rfl : _ = q := Option.some.inj h
          exact hp
      | waiting | ended | broken => cases h
  | deliverFails out =>
      cases task with
      | sending b =>
          obtain rfl : _ = q := Option.some.inj h
          exact faithful_cut hp.2 out
      | waiting | ended | broken => cases h
  | cancel out =>
      cases task with
      | waiting =>
          obtain rfl : _ = q := Option.some.inj h
          exact .inl hp.2
      | sending b =>
          obtain rfl : _ = q := Option.some.inj h
          exact faithful_cut hp.2 out
      | ended | broken => cases h

namespace Faithful

/-- What the task has received is delivered, but for a frame at most. -/
theorem received_cases (hp : p.Faithful carry) :
    frames carry p.received = p.delivered ∨
      ∃ b, frames carry p.received = p.delivered ++ [b] := by
  obtain ⟨received, unread, delivered, task⟩ := p
  cases task with
  | waiting => exact .inl hp.2
  | sending b => exact .inr ⟨b, hp.2⟩
  | ended => exact .inl hp.2
  | broken => exact hp

theorem delivered_begins (hp : p.Faithful carry) : p.delivered <+: frames carry p.sent := by
  refine List.IsPrefix.trans ?_ (frames_begin p.received p.unread)
  rcases hp.received_cases with h | ⟨b, h⟩
  · exact h ▸ List.prefix_rfl
  · rw [h]
    exact List.prefix_append _ _

theorem length_le (hp : p.Faithful carry) :
    (frames carry p.received).length ≤ p.delivered.length + 1 := by
  rcases hp.received_cases with h | ⟨b, h⟩
  · rw [h]
    exact Nat.le_succ _
  · rw [h, List.length_append]
    exact Nat.le_refl _

/-- A task that saw the source go has delivered everything. -/
theorem delivered_all (hp : p.Faithful carry) (h : p.task = .ended) :
    p.delivered = frames carry p.sent := by
  unfold Faithful at hp
  rw [h] at hp
  rw [sent, frames_append_of_gone hp.1, hp.2]

end Faithful

/-! ## How the task ends -/

/-- A task that is done makes no move. -/
theorem move_over {m : Move α} (hown : m.own = true) (h : p.task.over = true) :
    p.move carry m = none := by
  obtain ⟨received, unread, delivered, task⟩ := p
  cases task with
  | waiting | sending => cases h
  | ended | broken => cases m with
    | arrive => cases hown
    | receive | receiveFails | deliver | deliverFails | cancel => rfl

theorem cancel_task {out : Bool} (h : p.move carry (.cancel out) = some q) :
    p.task.over = false ∧ q.task = .broken := by
  obtain ⟨received, unread, delivered, task⟩ := p
  cases task with
  | waiting | sending =>
      obtain rfl : _ = q := Option.some.inj h
      exact ⟨rfl, rfl⟩
  | ended | broken => cases h

/-- A task breaks for a failure or by being cancelled. -/
theorem unbroken_move {m : Move α} (hsmooth : m.smooth = true) (hcancel : ∀ out, m ≠ .cancel out)
    (hp : p.task ≠ .broken) (h : p.move carry m = some q) : q.task ≠ .broken := by
  obtain ⟨received, unread, delivered, task⟩ := p
  cases m with
  | arrive a =>
      obtain rfl : _ = q := Option.some.inj h
      exact hp
  | receive =>
      cases task with
      | waiting =>
          cases unread with
          | nil => cases h
          | cons a rest =>
              obtain rfl : _ = q := Option.some.inj h
              simp only [next]
              cases carry a with
              | skip | frame b | stop => simp
      | sending | ended | broken => cases h
  | deliver =>
      cases task with
      | sending b =>
          obtain rfl : _ = q := Option.some.inj h
          simp
      | waiting | ended | broken => cases h
  | cancel out => exact absurd rfl (hcancel out)
  | receiveFails | deliverFails => cases hsmooth

/-- What is left to do if nothing more arrives. -/
def work (p : Pump α β) : Nat :=
  2 * p.unread.length +
    match p.task with
    | .waiting => 1
    | .sending _ => 2
    | .ended | .broken => 0

theorem work_move {m : Move α} (hown : m.own = true) (h : p.move carry m = some q) :
    q.work < p.work ∧ q.sent = p.sent := by
  obtain ⟨received, unread, delivered, task⟩ := p
  cases m with
  | arrive a => cases hown
  | receive =>
      cases task with
      | waiting =>
          cases unread with
          | nil => cases h
          | cons a rest =>
              obtain rfl : _ = q := Option.some.inj h
              refine ⟨?_, by simp [sent]⟩
              simp only [work, next, List.length_cons]
              cases carry a with
              | skip | frame b | stop => simp only []; omega
      | sending | ended | broken => cases h
  | receiveFails =>
      cases task with
      | waiting =>
          obtain rfl : _ = q := Option.some.inj h
          exact ⟨by simp [work], rfl⟩
      | sending | ended | broken => cases h
  | deliver =>
      cases task with
      | sending b =>
          obtain rfl : _ = q := Option.some.inj h
          exact ⟨by simp [work], rfl⟩
      | waiting | ended | broken => cases h
  | deliverFails out =>
      cases task with
      | sending b =>
          obtain rfl : _ = q := Option.some.inj h
          exact ⟨by simp [work, cut], rfl⟩
      | waiting | ended | broken => cases h
  | cancel out =>
      cases task with
      | waiting =>
          obtain rfl : _ = q := Option.some.inj h
          exact ⟨by simp [work], rfl⟩
      | sending b =>
          obtain rfl : _ = q := Option.some.inj h
          exact ⟨by simp [work, cut], rfl⟩
      | ended | broken => cases h

end Pump
end Rcp
