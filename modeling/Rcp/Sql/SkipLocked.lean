/-
`SELECT ... WHERE p ORDER BY id LIMIT n FOR UPDATE SKIP LOCKED`.

The statement takes the first `n` rows that satisfy `p` and that no other session has
locked.  It never waits.
-/
import Rcp.Sql.Program

namespace Sql

namespace Table

variable {V : Type}

/-- The rows that satisfy `p` and are free for session `t`, in key order. -/
def free (T : Table V) (t : Sid) (p : V → Bool) : List (Nat × V) :=
  (T.scan t).filter fun r => p r.2 && !T.lockedFor t r.1

/-- Session `t` locks the rows. -/
def lockRows (T : Table V) (t : Sid) (rows : List (Nat × V)) : Table V :=
  rows.foldl (fun T r => T.write t r.1 r.2) T

section Locks

variable {T : Table V} {t : Sid} {rows : List (Nat × V)} {p : V → Bool} {k : Nat} {v : V}

@[simp] theorem lockRows_next (T : Table V) (t : Sid) (rows : List (Nat × V)) :
    (T.lockRows t rows).next = T.next := by
  unfold lockRows
  induction rows generalizing T with
  | nil => rfl
  | cons r rest ih => exact ih (T.write t r.1 r.2)

@[simp] theorem lockRows_committed (T : Table V) (t : Sid) (rows : List (Nat × V)) :
    (T.lockRows t rows).committed = T.committed := by
  unfold lockRows
  induction rows generalizing T with
  | nil => rfl
  | cons r rest ih => exact ih (T.write t r.1 r.2)

theorem lockRows_of_not_mem (h : k ∉ rows.map Prod.fst) :
    (T.lockRows t rows).pending k = T.pending k := by
  unfold lockRows
  induction rows generalizing T with
  | nil => rfl
  | cons r rest ih =>
      rw [List.map_cons, List.mem_cons, not_or] at h
      exact (ih h.2).trans (Function.update_of_ne h.1 ..)

theorem lockRows_of_mem (hnodup : (rows.map Prod.fst).Nodup) (h : (k, v) ∈ rows) :
    (T.lockRows t rows).pending k = some (t, v) := by
  induction rows generalizing T with
  | nil => cases h
  | cons r rest ih =>
      rw [List.map_cons, List.nodup_cons] at hnodup
      rcases List.mem_cons.mp h with rfl | h
      · have hrest := lockRows_of_not_mem (T := T.write t k v) (t := t) hnodup.1
        exact hrest.trans (Function.update_self ..)
      · exact ih hnodup.2 h

/-- A scan lists its keys in order. -/
theorem free_sorted (T : Table V) (t : Sid) (p : V → Bool) :
    ((T.free t p).map Prod.fst).Pairwise (· < ·) := by
  have hsub : (T.free t p).Sublist (T.scan t) := List.filter_sublist
  refine List.Pairwise.sublist (hsub.map Prod.fst) ?_
  have hscan : ((T.scan t).map Prod.fst).Sublist (List.range T.next) := by
    unfold scan
    generalize List.range T.next = l
    induction l with
    | nil => exact .slnil
    | cons j rest ih =>
        cases hj : T.read t j with
        | none => simpa [hj] using ih.cons j
        | some v => simpa [hj] using ih.cons_cons j
  exact List.Pairwise.sublist hscan List.pairwise_lt_range

theorem free_nodup (T : Table V) (t : Sid) (p : V → Bool) (n : Nat) :
    (((T.free t p).take n).map Prod.fst).Nodup := by
  have hsub : ((T.free t p).take n).Sublist (T.free t p) := List.take_sublist n _
  refine List.Nodup.sublist (hsub.map Prod.fst) ?_
  exact (T.free_sorted t p).imp fun h => Nat.ne_of_lt h

theorem mem_free (hb : T.Bounded) :
    (k, v) ∈ T.free t p ↔ T.read t k = some v ∧ p v = true ∧ T.lockedFor t k = false := by
  unfold free
  rw [List.mem_filter, mem_scan hb, Bool.and_eq_true, Bool.not_eq_true']

/-- A free row with a smaller key comes first. -/
theorem free_before {n i : Nat} {u : V} {a b : List (Nat × V)}
    (h : (T.free t p).take n = a ++ (k, v) :: b) (hi : (i, u) ∈ T.free t p) (hlt : i < k) :
    (i, u) ∈ a := by
  have hall : T.free t p = a ++ (k, v) :: (b ++ (T.free t p).drop n) := by
    rw [← List.cons_append, ← List.append_assoc, ← h, List.take_append_drop]
  have hsorted := T.free_sorted t p
  rw [hall] at hi hsorted
  rcases List.mem_append.mp hi with hi | hi
  · exact hi
  · rw [List.map_append, List.map_cons] at hsorted
    have hrest := (List.pairwise_append.mp hsorted).2.1
    rcases List.mem_cons.mp hi with heq | hi
    · cases heq
      exact absurd hlt (Nat.lt_irrefl _)
    · have hle := (List.pairwise_cons.mp hrest).1 i (List.mem_map.mpr ⟨_, hi, rfl⟩)
      exact absurd hlt (Nat.lt_asymm hle)

end Locks
end Table

variable {S ε V : Type}

def runSkipLocked (T : Access S V) (p : V → Bool) (n : Nat) (t : Sid) (s : S) :
    Option (List (Nat × V) × S) :=
  let rows := ((T.get s).free t p).take n
  some (rows, T.set s ((T.get s).lockRows t rows))

def selectSkipLocked (T : Access S V) (p : V → Bool) (n : Nat) : Prog S ε (List (Nat × V)) :=
  .stmt (runSkipLocked T p n) .ret

end Sql
