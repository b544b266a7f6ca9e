/-
The volunteer database as a store of tables.

`schema` ties the five tables to `Rows`, and `policy` allows the write sets of
`Commit` and asks for the invariant `WellFormed`.  Rows only evolve: events keep
all but their status, buckets keep their event, skill and size, and mappings and
outbox rows stay.
-/
import Rcp.Sql.Tables
import Rcp.Volunteer.Ledger

namespace Rcp
namespace Volunteer

open Sql Sql.Table Relation

namespace Db

def rows (s : Db) : Rows :=
  { events := s.events.committed
    requirements := s.requirements.committed
    mappings := s.mappings.committed
    profiles := s.profiles.committed
    outbox := s.outbox.committed }

def writes (t : Sid) (s : Db) : Rows :=
  { events := s.events.writes t
    requirements := s.requirements.writes t
    mappings := s.mappings.writes t
    profiles := s.profiles.writes t
    outbox := s.outbox.writes t }

end Db

inductive Tab
  | events
  | requirements
  | mappings
  | profiles
  | outbox
  deriving DecidableEq

@[reducible] def Tab.Row : Tab → Type
  | events => DisasterEvent
  | requirements => EventRequirement
  | mappings => EventVolunteerMapping
  | profiles => VolunteerProfile
  | outbox => Outbox Message

@[reducible] def tables : Tables Db Rows Tab where
  Row := Tab.Row
  table
    | .events => Db.eventsT
    | .requirements => Db.requirementsT
    | .mappings => Db.mappingsT
    | .profiles => Db.profilesT
    | .outbox => Db.outboxT
  part
    | .events => Rows.events
    | .requirements => Rows.requirements
    | .mappings => Rows.mappings
    | .profiles => Rows.profiles
    | .outbox => Rows.outbox
  build f :=
    { events := f .events
      requirements := f .requirements
      mappings := f .mappings
      profiles := f .profiles
      outbox := f .outbox }
  put
    | .events, E, w => { w with events := E }
    | .requirements, R, w => { w with requirements := R }
    | .mappings, M, w => { w with mappings := M }
    | .profiles, P, w => { w with profiles := P }
    | .outbox, O, w => { w with outbox := O }
  ext w w' h := by
    have hE : w.events = w'.events := h .events
    have hR : w.requirements = w'.requirements := h .requirements
    have hM : w.mappings = w'.mappings := h .mappings
    have hP : w.profiles = w'.profiles := h .profiles
    have hO : w.outbox = w'.outbox := h .outbox
    cases w
    simp only at hE hR hM hP hO
    rw [hE, hR, hM, hP, hO]
  part_build i _ := by cases i <;> rfl
  part_put_self i _ _ := by cases i <;> rfl
  part_put_ne i j _ _ h := by cases i <;> cases j <;> first | rfl | exact absurd rfl h
  get_set_self i _ _ := by cases i <;> rfl
  get_set_ne i j _ _ h := by cases i <;> cases j <;> first | rfl | exact absurd rfl h
  get_commit i _ _ := by cases i <;> rfl
  get_rollback i _ _ := by cases i <;> rfl

abbrev schema : Schema Db Rows := tables.schema

structure Db.Bounded (s : Db) : Prop where
  events : s.events.Bounded
  requirements : s.requirements.Bounded
  mappings : s.mappings.Bounded
  profiles : s.profiles.Bounded
  outbox : s.outbox.Bounded

theorem Db.bounded {s : Db} (h : schema.Bounded s) : s.Bounded :=
  ⟨(h .events).1, (h .requirements).1, (h .mappings).1, (h .profiles).1, (h .outbox).1⟩

@[reducible] def policy : Policy Rows Call where
  Commit := Commit
  WellFormed := WellFormed

theorem policy_lawful : policy.Lawful schema := fun _ _ _ hc hw => hc.wellFormed hw

abbrev discipline : Discipline Db Error Reply Call :=
  schema.discipline policy (.nothing schema policy)

theorem Db.sound {s : Db} (h : discipline.Inv s) : s.Bounded ∧ WellFormed s.rows :=
  ⟨Db.bounded h.1, h.2⟩

abbrev Drift : Rows → Rows → Rows → Prop := Sql.Drift schema policy

abbrev Holding : Sid → Rows → Db → Prop := Sql.Holding schema policy

abbrev Resumed : Sid → Rows → Rows → Db → Prop := Sql.Resumed schema policy

section Drift

variable {W w w' : Rows}

theorem Evolves.refl (w : Rows) : Evolves w w where
  events := fun _ ev h => ⟨ev.status, h⟩
  requirements := fun _ q h => ⟨q, h, SameBucket.refl q⟩
  mappings := fun _ m h => ⟨m, h, SameMapping.refl m⟩
  profiles := rfl
  outbox := fun _ _ h => h

theorem SameBucket.trans {p q r : EventRequirement} (h : SameBucket p q)
    (h' : SameBucket q r) : SameBucket p r :=
  ⟨h'.event.trans h.event, h'.skill.trans h.skill, h'.required.trans h.required,
    Int.le_trans h.filled h'.filled, fun hf => h'.fulfilled (h.fulfilled hf)⟩

theorem SameMapping.trans {l m n : EventVolunteerMapping} (h : SameMapping l m)
    (h' : SameMapping m n) : SameMapping l n :=
  ⟨h'.event.trans h.event, h'.requirement.trans h.requirement,
    h'.volunteer.trans h.volunteer, fun hc => h'.counted (h.counted hc),
    fun hn => h'.answered (h.answered hn)⟩

theorem Evolves.trans {u v : Rows} (h : Evolves w u) (h' : Evolves u v) : Evolves w v where
  events := by
    intro e ev he
    obtain ⟨st, hst⟩ := h.events e ev he
    obtain ⟨st', hst'⟩ := h'.events e _ hst
    exact ⟨st', hst'⟩
  requirements := by
    intro r q hq
    obtain ⟨q₁, hq₁, hs₁⟩ := h.requirements r q hq
    obtain ⟨q₂, hq₂, hs₂⟩ := h'.requirements r q₁ hq₁
    exact ⟨q₂, hq₂, hs₁.trans hs₂⟩
  mappings := by
    intro k m hm
    obtain ⟨m₁, hm₁, hs₁⟩ := h.mappings k m hm
    obtain ⟨m₂, hm₂, hs₂⟩ := h'.mappings k m₁ hm₁
    exact ⟨m₂, hm₂, hs₁.trans hs₂⟩
  profiles := h'.profiles.trans h.profiles
  outbox := fun o row ho => h'.outbox o row (h.outbox o row ho)

theorem Drift.evolves (h : Drift W w w') : Evolves w w' := by
  induction h with
  | refl => exact .refl w
  | step _ _ hc _ ih => exact ih.trans hc.evolves

end Drift

namespace Column

def events : Column schema DisasterEvent := tables.column .events

def requirements : Column schema EventRequirement := tables.column .requirements

def mappings : Column schema EventVolunteerMapping := tables.column .mappings

def profiles : Column schema VolunteerProfile := tables.column .profiles

def outbox : Column schema (Outbox Message) := tables.column .outbox

@[simp] theorem events_get (w : Rows) : events.get w = w.events := rfl

@[simp] theorem requirements_get (w : Rows) : requirements.get w = w.requirements := rfl

@[simp] theorem mappings_get (w : Rows) : mappings.get w = w.mappings := rfl

@[simp] theorem outbox_get (w : Rows) : outbox.get w = w.outbox := rfl

@[simp] theorem events_put (E : Nat → Option DisasterEvent) (w : Rows) :
    events.put E w = { w with events := E } := rfl

@[simp] theorem mappings_put (M : Nat → Option EventVolunteerMapping) (w : Rows) :
    mappings.put M w = { w with mappings := M } := rfl

@[simp] theorem outbox_put (O : Nat → Option (Outbox Message)) (w : Rows) :
    outbox.put O w = { w with outbox := O } := rfl

end Column

end Volunteer
end Rcp
