/-
The outbox relay (`app/events/relay.py` of the services) between the outbox and the
broker.

A worker takes a batch of unpublished rows with `FOR UPDATE SKIP LOCKED`, publishes them
one by one with publisher confirms, and then commits their `published_at`.  The three
relays differ in logging only.  Next to the workers run the transactions that emit
events.

`Stage` lists the points between two statements of a session, and `Move` what the next
statement does there.
-/
import Rcp.Common.Outbox
import Rcp.Sql.Schedule
import Rcp.Sql.SkipLocked

namespace Rcp
namespace Relay

open Sql

variable {D : Type}

/-- What `basic_publish` hands to the broker. -/
structure Published (D : Type) where
  routingKey : String
  body : Envelope D
  messageId : Uuid
  deriving DecidableEq

def message (row : Outbox D) : Published D :=
  { routingKey := row.routingKey, body := row.payload, messageId := row.eventId }

/-- The broker in confirm mode. -/
structure Broker (D : Type) where
  /-- The messages it has confirmed, in order. -/
  confirmed : List (Published D)
  /-- How often a worker has published. -/
  attempts : Nat
  /-- The attempts that it refuses. -/
  refuses : Nat → Bool

structure World (D : Type) where
  outbox : Table (Outbox D)
  broker : Broker D

namespace World

def outboxT : Access (World D) (Outbox D) :=
  { get := World.outbox, set := fun s T => { s with outbox := T } }

instance : Transactional (World D) where
  commit t s := { s with outbox := s.outbox.commit t }
  rollback t s := { s with outbox := s.outbox.rollback t }

def start (refuses : Nat → Bool) : World D :=
  { outbox := .empty, broker := { confirmed := [], attempts := 0, refuses := refuses } }

def confirm (s : World D) (m : Published D) : World D :=
  { s with broker :=
      { s.broker with
        confirmed := s.broker.confirmed ++ [m]
        attempts := s.broker.attempts + 1 } }

def refuse (s : World D) : World D :=
  { s with broker := { s.broker with attempts := s.broker.attempts + 1 } }

end World

inductive Error
  /-- `basic_publish` raises. -/
  | nack
  /-- The service raises after it has emitted. -/
  | rolledBack

/-! ## Workers -/

def runPublish (m : Published D) (_ : Sid) (s : World D) : Option (Bool × World D) :=
  if s.broker.refuses s.broker.attempts then some (false, s.refuse) else some (true, s.confirm m)

def basicPublish (m : Published D) : Prog (World D) Error Unit := do
  if ← Prog.stmt (runPublish m) .ret then return () else .raise .nack

def batchSize : Nat := 100

def unpublished (row : Outbox D) : Bool := row.publishedAt.isNone

def mark (now : Time) (row : Outbox D) : Outbox D := { row with publishedAt := some now }

def publishAll : List (Nat × Outbox D) → Prog (World D) Error Unit
  | [] => return ()
  | r :: rest => do
      basicPublish (message r.2)
      publishAll rest

/-- The flush of `published_at`, `clock k` being the time at which row `k` was published. -/
def markAll (clock : Nat → Time) : List (Nat × Outbox D) → Prog (World D) Error Unit
  | [] => return ()
  | r :: rest => do
      let _ ← update World.outboxT r.1 (mark (clock r.1))
      markAll clock rest

def commitBatch (n : Nat) : Prog (World D) Error Nat := do
  commit
  return n

/-- The `db.commit()` of a batch. -/
def flushBatch (clock : Nat → Time) (rows : List (Nat × Outbox D)) :
    Prog (World D) Error Nat := do
  markAll clock rows
  commitBatch rows.length

/-- `_drain_once`. -/
def drainOnce (clock : Nat → Time) : Prog (World D) Error Nat := do
  let rows ← selectSkipLocked World.outboxT unpublished batchSize
  publishAll rows
  flushBatch clock rows

/-! ## Emitting transactions -/

/-- The arguments of `emit`. -/
structure Event (D : Type) where
  routingKey : String
  tenantId : Option Uuid
  data : D

def Event.row (e : Event D) (k : Nat) : Outbox D := outboxRow e.routingKey e.tenantId e.data k

def emitAll : List (Event D) → Prog (World D) Error Unit
  | [] => return ()
  | e :: rest => do
      let _ ← emit World.outboxT e.routingKey e.tenantId e.data
      emitAll rest

def finish (commits : Bool) : Prog (World D) Error Nat :=
  if commits then commitBatch 0 else .raise .rolledBack

def transact (events : List (Event D)) (commits : Bool) : Prog (World D) Error Nat := do
  emitAll events
  finish commits

inductive Call (D : Type)
  | transact (events : List (Event D)) (commits : Bool)
  | drainOnce (clock : Nat → Time)

def Call.body : Call D → Prog (World D) Error Nat
  | transact events commits => Relay.transact events commits
  | drainOnce clock => Relay.drainOnce clock

abbrev Cluster (D : Type) := Config (World D) Error Nat (Call D)

/-! ## Stages -/

inductive Stage (D : Type)
  | emitting (e : Event D) (rest : List (Event D)) (commits : Bool)
  | committing
  | selecting (clock : Nat → Time)
  | publishing (clock : Nat → Time) (done : List (Nat × Outbox D)) (r : Nat × Outbox D)
      (rest : List (Nat × Outbox D))
  | marking (clock : Nat → Time) (done : List (Nat × Outbox D)) (r : Nat × Outbox D)
      (rest : List (Nat × Outbox D))
  | closing (done : List (Nat × Outbox D))
  | ended (outcome : Except Error Nat)

namespace Stage

/-- What remains of the call. -/
def prog : Stage D → Prog (World D) Error Nat
  | emitting e rest commits => emitAll (e :: rest) >>= fun _ => finish commits
  | committing => commitBatch 0
  | selecting clock => drainOnce clock
  | publishing clock done r rest =>
      publishAll (r :: rest) >>= fun _ => flushBatch clock (done ++ r :: rest)
  | marking clock done r rest =>
      markAll clock (r :: rest) >>= fun _ => commitBatch (done ++ r :: rest).length
  | closing done => commitBatch done.length
  | ended (.ok n) => .ret n
  | ended (.error e) => .raise e

def emit (events : List (Event D)) (commits : Bool) : Stage D :=
  match events, commits with
  | e :: rest, commits => .emitting e rest commits
  | [], true => .committing
  | [], false => .ended (.error .rolledBack)

def mark (clock : Nat → Time) (done todo : List (Nat × Outbox D)) : Stage D :=
  match todo with
  | [] => .closing done
  | r :: rest => .marking clock done r rest

def publish (clock : Nat → Time) (done todo : List (Nat × Outbox D)) : Stage D :=
  match todo with
  | [] => .mark clock [] done
  | r :: rest => .publishing clock done r rest

def first : Call D → Stage D
  | .transact events commits => .emit events commits
  | .drainOnce clock => .selecting clock

theorem prog_emit (events : List (Event D)) (commits : Bool) :
    (emit events commits).prog = emitAll events >>= fun _ => finish commits := by
  cases events with
  | nil => cases commits <;> rfl
  | cons e rest => rfl

theorem prog_mark (clock : Nat → Time) (done todo : List (Nat × Outbox D)) :
    (mark clock done todo).prog =
      markAll clock todo >>= fun _ => commitBatch (done ++ todo).length := by
  cases todo with
  | nil =>
      rw [List.append_nil]
      rfl
  | cons r rest => rfl

theorem prog_publish (clock : Nat → Time) (done todo : List (Nat × Outbox D)) :
    (publish clock done todo).prog =
      publishAll todo >>= fun _ => flushBatch clock (done ++ todo) := by
  cases todo with
  | nil =>
      rw [List.append_nil]
      exact prog_mark clock [] done
  | cons r rest => rfl

theorem prog_first (a : Call D) : (first a).prog = a.body := by
  cases a with
  | transact events commits => exact prog_emit events commits
  | drainOnce clock => rfl

end Stage

/-- The rows that a worker takes. -/
def World.batch (s : World D) (t : Sid) : List (Nat × Outbox D) :=
  (s.outbox.free t unpublished).take batchSize

/-- The next statement of session `t`. -/
inductive Move (t : Sid) : World D → Stage D → World D → Stage D → Prop
  | emit {s : World D} {e : Event D} {rest : List (Event D)} {commits : Bool} :
      Move t s (.emitting e rest commits)
        { s with outbox := s.outbox.insert t (e.row s.outbox.next) } (.emit rest commits)
  | commit {s : World D} :
      Move t s .committing { s with outbox := s.outbox.commit t } (.ended (.ok 0))
  | select {s : World D} {clock : Nat → Time} :
      Move t s (.selecting clock) { s with outbox := s.outbox.lockRows t (s.batch t) }
        (.publish clock [] (s.batch t))
  | confirm {s : World D} {clock : Nat → Time} {done rest : List (Nat × Outbox D)}
      {r : Nat × Outbox D} (h : s.broker.refuses s.broker.attempts = false) :
      Move t s (.publishing clock done r rest) (s.confirm (message r.2))
        (.publish clock (done ++ [r]) rest)
  | refuse {s : World D} {clock : Nat → Time} {done rest : List (Nat × Outbox D)}
      {r : Nat × Outbox D} (h : s.broker.refuses s.broker.attempts = true) :
      Move t s (.publishing clock done r rest) s.refuse (.ended (.error .nack))
  | mark {s s' : World D} {clock : Nat → Time} {done rest : List (Nat × Outbox D)}
      {r : Nat × Outbox D} {found : Option (Outbox D)}
      (h : runUpdate World.outboxT r.1 (fun _ => true) (Relay.mark (clock r.1)) t s =
        some (found, s')) :
      Move t s (.marking clock done r rest) s' (.mark clock (done ++ [r]) rest)
  | close {s : World D} {done : List (Nat × Outbox D)} :
      Move t s (.closing done) { s with outbox := s.outbox.commit t }
        (.ended (.ok done.length))

theorem Stage.step {st : Stage D} {t : Sid} {s s' : World D} {β : Type}
    {run : Sid → World D → Option (β × World D)} {k : β → Prog (World D) Error Nat} {b : β}
    (hp : st.prog = .stmt run k) (hr : run t s = some (b, s')) :
    ∃ st', k b = st'.prog ∧ Move t s st s' st' := by
  cases st with
  | emitting e rest commits =>
      cases hp
      cases hr
      exact ⟨_, (Stage.prog_emit rest commits).symm, .emit⟩
  | committing =>
      cases hp
      cases hr
      exact ⟨.ended (.ok 0), rfl, .commit⟩
  | selecting clock =>
      cases hp
      cases hr
      exact ⟨_, (Stage.prog_publish clock [] _).symm, .select⟩
  | publishing clock done r rest =>
      cases hp
      unfold runPublish at hr
      split at hr
      · rename_i hrefuses
        cases hr
        exact ⟨.ended (.error .nack), rfl, .refuse hrefuses⟩
      · rename_i hrefuses
        cases hr
        refine ⟨_, ?_, .confirm (Bool.eq_false_iff.mpr hrefuses)⟩
        rw [Stage.prog_publish, List.append_assoc]
        rfl
  | marking clock done r rest =>
      cases hp
      refine ⟨_, ?_, .mark hr⟩
      rw [Stage.prog_mark, List.append_assoc]
      rfl
  | closing done =>
      cases hp
      cases hr
      exact ⟨.ended (.ok done.length), rfl, .close⟩
  | ended outcome =>
      cases outcome with
      | ok n => cases hp
      | error e => cases hp

/-! ## Runs -/

/-- The sessions of a cluster are at the stages `σ`. -/
structure Staged (c : Cluster D) (σ : Sid → Option (Stage D)) : Prop where
  prog : ∀ t, (c.sessions t).map Session.prog = (σ t).map Stage.prog
  logged : c.Logged

/-- A step of session `t` that is no crash. -/
inductive Turn (t : Sid) (s : World D) (σ : Sid → Option (Stage D)) :
    World D → (Sid → Option (Stage D)) → Prop
  | begin (a : Call D) (h : σ t = none) : Turn t s σ s (Function.update σ t (some (.first a)))
  | move {st st' : Stage D} {s' : World D} (h : σ t = some st) (hmove : Move t s st s' st') :
      Turn t s σ s' (Function.update σ t (some st'))
  | close {outcome : Except Error Nat} (h : σ t = some (.ended outcome)) :
      Turn t s σ (Transactional.rollback t s) (Function.update σ t none)

section Runs

variable {c c' : Cluster D} {σ : Sid → Option (Stage D)} {t : Sid}

theorem start_staged (s : World D) : Staged (Config.start s : Cluster D) fun _ => none :=
  ⟨fun _ => rfl, Config.start_logged s⟩

theorem Staged.of_some (h : Staged c σ) {se : Session (World D) Error Nat (Call D)}
    (hse : c.sessions t = some se) : ∃ st, σ t = some st ∧ se.prog = st.prog := by
  have hprog := h.prog t
  rw [hse] at hprog
  obtain ⟨st, hst, heq⟩ := Option.map_eq_some_iff.mp hprog.symm
  exact ⟨st, hst, heq.symm⟩

theorem Staged.of_none (h : Staged c σ) (hse : c.sessions t = none) : σ t = none := by
  have hprog := h.prog t
  rw [hse] at hprog
  exact Option.map_eq_none_iff.mp hprog.symm

theorem Staged.update (h : Staged c σ) (hlogged : c'.Logged)
    {x : Option (Session (World D) Error Nat (Call D))} {y : Option (Stage D)}
    (hsessions : c'.sessions = Function.update c.sessions t x)
    (hxy : x.map Session.prog = y.map Stage.prog) : Staged c' (Function.update σ t y) := by
  refine ⟨fun o => ?_, hlogged⟩
  rw [hsessions]
  by_cases ho : o = t
  · subst ho
    rw [Function.update_self, Function.update_self]
    exact hxy
  · rw [Function.update_of_ne ho, Function.update_of_ne ho]
    exact h.prog o

theorem Stage.eq_ended {st : Stage D} {outcome : Except Error Nat}
    (h : st.prog.outcome = some outcome) : ∃ o, st = .ended o := by
  cases st with
  | ended o => exact ⟨o, rfl⟩
  | emitting e rest commits => cases h
  | committing => cases h
  | selecting clock => cases h
  | publishing clock done r rest => cases h
  | marking clock done r rest => cases h
  | closing done => cases h

/-- A step of the cluster is a turn, or a crash that rolls the session back. -/
theorem Staged.step (h : Staged c σ) (hstep : Step Call.body c t c') :
    ∃ σ', Staged c' σ' ∧ (Turn t c.store σ c'.store σ' ∨
      (∃ st, σ t = some st) ∧ c'.store = Transactional.rollback t c.store ∧
        σ' = Function.update σ t none ∧ c'.sessions t = none ∧ c'.log = c.log) := by
  have hlogged := hstep.logged h.logged
  cases hstep with
  | start a =>
      have hnone : c.sessions c.fresh = none := by
        by_contra hsome
        exact absurd (h.logged.used c.fresh hsome) (Nat.lt_irrefl _)
      refine ⟨_, h.update hlogged rfl ?_, .inl (.begin a (h.of_none hnone))⟩
      exact congrArg some (Stage.prog_first a).symm
  | exec hse hp hr =>
      obtain ⟨st, hst, hprog⟩ := h.of_some hse
      obtain ⟨st', hk, hmove⟩ := Stage.step (hprog.symm.trans hp) hr
      refine ⟨_, h.update hlogged rfl ?_, .inl (.move hst hmove)⟩
      exact congrArg some hk
  | close hse ho =>
      obtain ⟨st, hst, hprog⟩ := h.of_some hse
      rw [hprog] at ho
      obtain ⟨outcome, rfl⟩ := Stage.eq_ended ho
      exact ⟨_, h.update hlogged rfl rfl, .inl (.close hst)⟩
  | crash hse =>
      obtain ⟨st, hst, -⟩ := h.of_some hse
      exact ⟨_, h.update hlogged rfl rfl,
        .inr ⟨⟨st, hst⟩, rfl, rfl, Function.update_self .., rfl⟩⟩

/-- A move of a schedule leaves the session open or is logged. -/
theorem move_clean {m : Sql.Move (Call D)} (h : c.move Call.body m = some c')
    (hclosed : c'.sessions (m.session c) = none) : c'.log ≠ c.log := by
  rcases Config.move_cases h with ⟨a, rfl, rfl⟩ |
    ⟨t, se, β, run, k, b, s', rfl, -, -, -, rfl⟩ | ⟨t, se, o, rfl, -, -, rfl⟩
  · have hopen : Function.update c.sessions c.fresh _ c.fresh = none := hclosed
    rw [Function.update_self] at hopen
    cases hopen
  · have hopen : Function.update c.sessions t _ t = none := hclosed
    rw [Function.update_self] at hopen
    cases hopen
  · exact List.cons_ne_self _ _

/-- A move of a schedule is a turn. -/
theorem Staged.move (h : Staged c σ) {m : Sql.Move (Call D)}
    (hmove : c.move Call.body m = some c') :
    ∃ σ', Staged c' σ' ∧ Turn (m.session c) c.store σ c'.store σ' := by
  obtain ⟨σ', h', hturn | ⟨-, -, -, hclosed, hlog⟩⟩ := h.step (Config.move_step hmove)
  · exact ⟨σ', h', hturn⟩
  · exact absurd hlog (move_clean hmove hclosed)

end Runs

end Relay
end Rcp
