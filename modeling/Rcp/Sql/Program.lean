/-
Transaction programs.

A program is the tree of SQL statements a service call issues.  A statement is
run by a session on the store and answers, or is blocked by a row lock.  The
tree stops with a value, or with an exception that leaves the transaction open.
Programs form a monad, so a service function is written in the order of its
source, one bind per statement.

The statements below are those of the services over one table: plain selects,
`SELECT ... FOR UPDATE`, guarded updates of one row, insertions, and commit.
-/
import Rcp.Sql.Table

namespace Sql

/-- A store of several tables that commits and rolls back as a whole. -/
class Transactional (S : Type) where
  commit : Sid → S → S
  rollback : Sid → S → S

inductive Prog (S ε α : Type) : Type 1 where
  /-- The call returns. -/
  | ret (a : α)
  /-- The call raises. -/
  | raise (e : ε)
  /-- One statement.  `none` means that the session waits for a lock. -/
  | stmt {β : Type} (run : Sid → S → Option (β × S)) (k : β → Prog S ε α)

namespace Prog

variable {S ε α β : Type}

def bind : Prog S ε α → (α → Prog S ε β) → Prog S ε β
  | .ret a, f => f a
  | .raise e, _ => .raise e
  | .stmt run k, f => .stmt run fun b => (k b).bind f

instance : Monad (Prog S ε) where
  pure := .ret
  bind := bind

theorem bind_assoc {γ : Type} (p : Prog S ε α) (f : α → Prog S ε β) (g : β → Prog S ε γ) :
    (p >>= f) >>= g = p >>= fun a => f a >>= g := by
  induction p with
  | ret a => rfl
  | raise e => rfl
  | stmt run k ih =>
      show stmt run (fun b => ((k b).bind f).bind g) = stmt run _
      congr 1
      funext b
      exact ih b

/-- Run a program without interruption.  The transaction may still be open
afterwards. -/
def exec (t : Sid) : Prog S ε α → S → Option (Except ε α × S)
  | .ret a, s => some (.ok a, s)
  | .raise e, s => some (.error e, s)
  | .stmt run k, s =>
      match run t s with
      | none => none
      | some (b, s') => (k b).exec t s'

theorem exec_bind (t : Sid) (p : Prog S ε α) (f : α → Prog S ε β) (s : S) :
    (p >>= f).exec t s =
      match p.exec t s with
      | none => none
      | some (.ok a, s') => (f a).exec t s'
      | some (.error e, s') => some (.error e, s') := by
  induction p generalizing s with
  | ret a => rfl
  | raise e => rfl
  | stmt run k ih =>
      show exec t (.stmt run fun b => (k b).bind f) s = _
      simp only [exec]
      cases run t s with
      | none => rfl
      | some r => exact ih r.1 r.2

@[simp] theorem exec_pure (t : Sid) (a : α) (s : S) :
    (pure a : Prog S ε α).exec t s = some (.ok a, s) := rfl

@[simp] theorem exec_raise (t : Sid) (e : ε) (s : S) :
    (raise e : Prog S ε α).exec t s = some (.error e, s) := rfl

theorem exec_bind_ok {t : Sid} {p : Prog S ε α} {f : α → Prog S ε β} {s s' : S} {b : β}
    (h : (p >>= f).exec t s = some (.ok b, s')) :
    ∃ a s₁, p.exec t s = some (.ok a, s₁) ∧ (f a).exec t s₁ = some (.ok b, s') := by
  rw [exec_bind] at h
  split at h
  · cases h
  · rename_i a s₁ hp
    exact ⟨a, s₁, hp, h⟩
  · cases h

theorem exec_stmt_ok {t : Sid} {run : Sid → S → Option (α × S)} {s s' : S} {a : α}
    (h : (stmt run ret : Prog S ε α).exec t s = some (.ok a, s')) : run t s = some (a, s') := by
  simp only [exec] at h
  split at h
  · cases h
  · rename_i b s₁ hr
    cases h
    exact hr

/-- Run a program while others change the store.  `env n` is what they have done before its
statement with number `n`. -/
def execAmid (env : Nat → S → S) (t : Sid) : Nat → Prog S ε α → S → Option (Except ε α × S)
  | _, .ret a, s => some (.ok a, s)
  | _, .raise e, s => some (.error e, s)
  | n, .stmt run k, s =>
      match run t (env n s) with
      | none => none
      | some (b, s') => (k b).execAmid env t (n + 1) s'

/-- A service call run on its own: the session closes after it, which rolls back
whatever was not committed. -/
def call [Transactional S] (t : Sid) (p : Prog S ε α) (s : S) : Option (Except ε α × S) :=
  (p.exec t s).map fun r => (r.1, Transactional.rollback t r.2)

end Prog

/-! ## Statements -/

/-- A table of a store. -/
structure Access (S V : Type) where
  get : S → Table V
  set : S → Table V → S

section Statements

variable {S ε V β : Type}

/-- A statement that only reads. -/
def query (f : Sid → S → β) : Prog S ε β :=
  .stmt (fun t s => some (f t s, s)) .ret

/-- The rows of one table the session sees that satisfy `p`. -/
def select (T : Access S V) (p : Nat → V → Bool) : Prog S ε (List (Nat × V)) :=
  query fun t s => ((T.get s).scan t).filter fun r => p r.1 r.2

/-- `SELECT ... WHERE id = k`. -/
def selectKey (T : Access S V) (k : Nat) : Prog S ε (Option V) :=
  query fun t s => (T.get s).read t k

def runForUpdate (T : Access S V) (k : Nat) (t : Sid) (s : S) : Option (Option V × S) :=
  match (T.get s).read t k with
  | none => some (none, s)
  | some v =>
      if (T.get s).lockedFor t k then none
      else some (some v, T.set s ((T.get s).write t k v))

/-- `SELECT ... WHERE id = k FOR UPDATE`. -/
def selectForUpdate (T : Access S V) (k : Nat) : Prog S ε (Option V) :=
  .stmt (runForUpdate T k) .ret

/- A row whose visible version fails the condition is skipped at once.  A row
that passes it waits for the lock and is checked again on the version committed
meanwhile, which is the visible version when the statement is retried. -/
def runUpdate (T : Access S V) (k : Nat) (p : V → Bool) (f : V → V) (t : Sid) (s : S) :
    Option (Option V × S) :=
  match (T.get s).read t k with
  | none => some (none, s)
  | some v =>
      if p v then
        if (T.get s).lockedFor t k then none
        else some (some (f v), T.set s ((T.get s).write t k (f v)))
      else some (none, s)

/-- `UPDATE ... SET f WHERE id = k AND p RETURNING *`: the new row, or `none`
when no row matched. -/
def updateWhere (T : Access S V) (k : Nat) (p : V → Bool) (f : V → V) :
    Prog S ε (Option V) :=
  .stmt (runUpdate T k p f) .ret

/-- `UPDATE ... SET f WHERE id = k`. -/
def update (T : Access S V) (k : Nat) (f : V → V) : Prog S ε (Option V) :=
  updateWhere T k (fun _ => true) f

def updateEach (T : Access S V) (p : V → Bool) (f : V → V) : List Nat → Prog S ε Unit
  | [] => return ()
  | k :: rest => do
      let _ ← updateWhere T k p f
      updateEach T p f rest

/-- `UPDATE ... SET f WHERE p` of any number of rows.  The rows are those that match
when the statement starts.  Each one waits for its lock and is checked again. -/
def updateAll (T : Access S V) (p : V → Bool) (f : V → V) : Prog S ε Unit := do
  let rows ← select T fun _ v => p v
  updateEach T p f (rows.map Prod.fst)

def runInsert (T : Access S V) (row : Nat → V) (t : Sid) (s : S) : Option (Nat × S) :=
  some ((T.get s).next, T.set s ((T.get s).insert t (row (T.get s).next)))

/-- `INSERT` of a row that may mention the key it is given. -/
def insert (T : Access S V) (row : Nat → V) : Prog S ε Nat :=
  .stmt (runInsert T row) .ret

def runInsertUnique (T : Access S V) (conflict : V → Bool) (row : Sid → V) (t : Sid) (s : S) :
    Option (Option Nat × S) :=
  if ((T.get s).scan t).any fun r => conflict r.2 then some (none, s)
  else if ((T.get s).foreign t).any conflict then none
  else some (some (T.get s).next, T.set s ((T.get s).insert t (row t)))

/-- `INSERT` under a uniqueness constraint: `none` on a violation.  An
uncommitted conflicting row of another session is waited for.  The row may mention
the session that inserts it. -/
def insertUnique (T : Access S V) (conflict : V → Bool) (row : Sid → V) :
    Prog S ε (Option Nat) :=
  .stmt (runInsertUnique T conflict row) .ret

def runInsertKey (T : Access S V) (k : Nat) (v : V) (t : Sid) (s : S) : Option (Bool × S) :=
  match (T.get s).read t k with
  | some _ => some (false, s)
  | none =>
      if (T.get s).lockedFor t k then none
      else some (true, T.set s ((T.get s).insertAt t k v))

/-- `INSERT` under a primary key chosen by the client: `false` when it is taken. -/
def insertKey (T : Access S V) (k : Nat) (v : V) : Prog S ε Bool :=
  .stmt (runInsertKey T k v) .ret

def runUpsert (T : Access S V) (conflict : V → Bool) (row : V) (f : V → V) (t : Sid) (s : S) :
    Option (Unit × S) :=
  match ((T.get s).scan t).find? fun r => conflict r.2 with
  | some (k, v) =>
      if (T.get s).lockedFor t k then none
      else some ((), T.set s ((T.get s).write t k (f v)))
  | none =>
      if ((T.get s).foreign t).any conflict then none
      else some ((), T.set s ((T.get s).insert t row))

/-- `INSERT ... ON CONFLICT DO UPDATE`. -/
def upsert (T : Access S V) (conflict : V → Bool) (row : V) (f : V → V) : Prog S ε Unit :=
  .stmt (runUpsert T conflict row f) .ret

def commit [Transactional S] : Prog S ε Unit :=
  .stmt (fun t s => some ((), Transactional.commit t s)) .ret

/-! ## What an answered statement did -/

variable {T : Access S V} {k : Nat} {p : V → Bool} {f : V → V} {t : Sid} {s s' : S}

theorem runForUpdate_none (h : runForUpdate T k t s = some (none, s')) :
    s' = s ∧ (T.get s).read t k = none := by
  unfold runForUpdate at h
  split at h
  · rename_i hr
    cases h
    exact ⟨rfl, hr⟩
  · split at h
    · cases h
    · cases h

theorem runForUpdate_some {v : V} (h : runForUpdate T k t s = some (some v, s')) :
    (T.get s).read t k = some v ∧ (T.get s).lockedFor t k = false ∧
      s' = T.set s ((T.get s).write t k v) := by
  unfold runForUpdate at h
  split at h
  · cases h
  · rename_i hr
    split at h
    · cases h
    · rename_i hl
      cases h
      exact ⟨hr, by simpa using hl, rfl⟩

theorem runUpdate_none (h : runUpdate T k p f t s = some (none, s')) :
    s' = s ∧ ∀ v, (T.get s).read t k = some v → p v = false := by
  unfold runUpdate at h
  split at h
  · rename_i hr
    cases h
    exact ⟨rfl, fun v hv => by rw [hr] at hv; cases hv⟩
  · rename_i u hr
    split at h
    · split at h
      · cases h
      · cases h
    · rename_i hp
      cases h
      refine ⟨rfl, fun v hv => ?_⟩
      rw [hr] at hv
      cases hv
      simpa using hp

theorem runUpdate_some {v' : V} (h : runUpdate T k p f t s = some (some v', s')) :
    ∃ v, (T.get s).read t k = some v ∧ p v = true ∧ (T.get s).lockedFor t k = false ∧
      v' = f v ∧ s' = T.set s ((T.get s).write t k (f v)) := by
  unfold runUpdate at h
  split at h
  · cases h
  · rename_i v hr
    split at h
    · rename_i hp
      split at h
      · cases h
      · rename_i hl
        cases h
        exact ⟨v, hr, hp, by simpa using hl, rfl, rfl⟩
    · cases h

theorem runInsertUnique_some {c : V → Bool} {row : Sid → V} {n : Nat}
    (h : runInsertUnique T c row t s = some (some n, s')) :
    (∀ r ∈ (T.get s).scan t, c r.2 = false) ∧ (∀ u ∈ (T.get s).foreign t, c u = false) ∧
      n = (T.get s).next ∧ s' = T.set s ((T.get s).insert t (row t)) := by
  unfold runInsertUnique at h
  split at h
  · cases h
  · rename_i hscan
    split at h
    · cases h
    · rename_i hforeign
      cases h
      refine ⟨fun r hr => ?_, fun u hu => ?_, rfl, rfl⟩
      · simp only [List.any_eq_true, not_exists, not_and, Bool.not_eq_true] at hscan
        exact hscan r hr
      · simp only [List.any_eq_true, not_exists, not_and, Bool.not_eq_true] at hforeign
        exact hforeign u hu

theorem runInsertUnique_none {c : V → Bool} {row : Sid → V}
    (h : runInsertUnique T c row t s = some (none, s')) : s' = s := by
  unfold runInsertUnique at h
  split at h
  · cases h
    rfl
  · split at h
    · cases h
    · cases h

/-- No version of any row conflicts, so the row is inserted at once. -/
theorem runInsertUnique_new {c : V → Bool} {row : Sid → V}
    (h : ∀ k v, (T.get s).Has k v → c v = false) :
    runInsertUnique T c row t s =
      some (some (T.get s).next, T.set s ((T.get s).insert t (row t))) := by
  have hscan : (((T.get s).scan t).any fun r => c r.2) = false := by
    rw [List.any_eq_false]
    intro r hr
    obtain ⟨k, -, hk⟩ := List.mem_filterMap.mp hr
    obtain ⟨v, hv, rfl⟩ := Option.map_eq_some_iff.mp hk
    simpa using h k v (.of_read hv)
  have hforeign : (((T.get s).foreign t).any c) = false := by
    rw [List.any_eq_false]
    intro v hv
    obtain ⟨k, -, hk⟩ := List.mem_filterMap.mp hv
    split at hk
    · obtain ⟨⟨o, u⟩, hpending, rfl⟩ := Option.map_eq_some_iff.mp hk
      simpa using h k u (.inr ⟨o, hpending⟩)
    · cases hk
  simp [runInsertUnique, hscan, hforeign]

end Statements
end Sql
