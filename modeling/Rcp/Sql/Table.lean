/-
Row-versioned tables under READ COMMITTED.

A table keeps, for every key, the committed version of the row and at most one
pending version together with the session that wrote it.  The pending slot is
the row lock: a row with a pending version of session `t` is locked by `t`, and
`SELECT ... FOR UPDATE` is the pending write of the row's own value.  A session
reads its own pending versions over the committed ones.  Commit publishes what
the session reads, and rollback forgets its pending versions.

Keys are numbers drawn from `next`, so a table is finite and a scan follows the
order of insertion.
-/
import Mathlib.Logic.Function.Basic
import Mathlib.Data.List.Nodup
import Mathlib.Data.Set.Card

namespace Sql

/-- A client session.  Its open transaction carries the same number. -/
abbrev Sid := Nat

structure Table (V : Type) where
  /-- The next key an insertion draws. -/
  next : Nat
  /-- The committed version of each row. -/
  committed : Nat → Option V
  /-- The uncommitted version of each row and the session holding its lock. -/
  pending : Nat → Option (Sid × V)

namespace Table

variable {V : Type}

def empty : Table V :=
  { next := 0, committed := fun _ => none, pending := fun _ => none }

/-- A table holding the given committed rows, keyed by their positions. -/
def ofList (rows : List V) : Table V :=
  { next := rows.length, committed := fun k => rows[k]?, pending := fun _ => none }

/-- The versions session `t` has written and not committed. -/
def writes (T : Table V) (t : Sid) (k : Nat) : Option V :=
  match T.pending k with
  | some (o, v) => if o = t then some v else none
  | none => none

/-- What a statement of session `t` sees at key `k`. -/
def read (T : Table V) (t : Sid) (k : Nat) : Option V :=
  (T.writes t k).or (T.committed k)

/-- Another session holds the lock of row `k`. -/
def lockedFor (T : Table V) (t : Sid) (k : Nat) : Bool :=
  match T.pending k with
  | some (o, _) => o != t
  | none => false

def write (T : Table V) (t : Sid) (k : Nat) (v : V) : Table V :=
  { T with pending := Function.update T.pending k (some (t, v)) }

def insert (T : Table V) (t : Sid) (v : V) : Table V :=
  { T.write t T.next v with next := T.next + 1 }

/-- Insertion under a key the client chose. -/
def insertAt (T : Table V) (t : Sid) (k : Nat) (v : V) : Table V :=
  { T.write t k v with next := max T.next (k + 1) }

def commit (T : Table V) (t : Sid) : Table V :=
  { T with
    committed := T.read t
    pending := fun k => if T.lockedFor t k then T.pending k else none }

def rollback (T : Table V) (t : Sid) : Table V :=
  { T with pending := fun k => if T.lockedFor t k then T.pending k else none }

/-- The rows session `t` sees, in key order. -/
def scan (T : Table V) (t : Sid) : List (Nat × V) :=
  (List.range T.next).filterMap fun k => (T.read t k).map fun v => (k, v)

/-- The committed rows, in key order. -/
def rows (T : Table V) : List (Nat × V) :=
  (List.range T.next).filterMap fun k => (T.committed k).map fun v => (k, v)

/-- The committed rows without their keys. -/
def values (T : Table V) : List V := (List.range T.next).filterMap T.committed

/-- The rows pending in other sessions, which a uniqueness check waits for. -/
def foreign (T : Table V) (t : Sid) : List V :=
  (List.range T.next).filterMap fun k =>
    if T.lockedFor t k then (T.pending k).map Prod.snd else none

/-! ## Write sets -/

/-- The empty write set. -/
def noRows : Nat → Option V := fun _ => none

@[simp] theorem noRows_apply (k : Nat) : (noRows : Nat → Option V) k = none := rfl

/-- The write set of one row. -/
def single (k : Nat) (v : V) : Nat → Option V :=
  Function.update (fun _ => none) k (some v)

theorem single_eq_some {k j : Nat} {v u : V} : single k v j = some u ↔ j = k ∧ u = v := by
  by_cases hj : j = k
  · subst hj
    simp [single, eq_comm]
  · simp [single, hj]

theorem single_self (k : Nat) (v : V) : single k v k = some v := by
  simp [single]

theorem single_of_ne {k j : Nat} (v : V) (h : j ≠ k) : single k v j = none := by
  simp [single, h]

theorem update_single (k : Nat) (v u : V) :
    Function.update (single k v) k (some u) = single k u := by
  simp [single]

theorem writes_eq_some {T : Table V} {t : Sid} {k : Nat} {v : V} :
    T.writes t k = some v ↔ T.pending k = some (t, v) := by
  unfold writes
  split
  · rename_i o u h
    by_cases ho : o = t
    · subst ho
      simp [h]
    · simp [h, ho]
  · rename_i h
    simp [h]

theorem lockedFor_eq_true {T : Table V} {t : Sid} {k : Nat} :
    T.lockedFor t k = true ↔ ∃ o v, o ≠ t ∧ T.pending k = some (o, v) := by
  unfold lockedFor
  split
  · rename_i o u h
    simp [h]
  · rename_i h
    simp [h]

theorem lockedFor_eq_false {T : Table V} {t : Sid} {k : Nat} :
    T.lockedFor t k = false ↔ ∀ o v, T.pending k = some (o, v) → o = t := by
  rw [← Bool.not_eq_true, lockedFor_eq_true]
  constructor
  · intro h o v hk
    by_contra ho
    exact h ⟨o, v, ho, hk⟩
  · rintro h ⟨o, v, ho, hk⟩
    exact ho (h o v hk)

theorem read_of_writes {T : Table V} {t : Sid} {k : Nat} {v : V}
    (h : T.writes t k = some v) : T.read t k = some v := by
  simp [read, h]

theorem read_of_not_written {T : Table V} {t : Sid} {k : Nat}
    (h : T.writes t k = none) : T.read t k = T.committed k := by
  simp [read, h]

@[simp] theorem write_next (T : Table V) (t : Sid) (k : Nat) (v : V) :
    (T.write t k v).next = T.next := rfl

@[simp] theorem write_committed (T : Table V) (t : Sid) (k : Nat) (v : V) :
    (T.write t k v).committed = T.committed := rfl

@[simp] theorem insert_committed (T : Table V) (t : Sid) (v : V) :
    (T.insert t v).committed = T.committed := rfl

@[simp] theorem insert_next (T : Table V) (t : Sid) (v : V) :
    (T.insert t v).next = T.next + 1 := rfl

@[simp] theorem commit_committed (T : Table V) (t : Sid) :
    (T.commit t).committed = T.read t := rfl

@[simp] theorem commit_next (T : Table V) (t : Sid) : (T.commit t).next = T.next := rfl

@[simp] theorem rollback_committed (T : Table V) (t : Sid) :
    (T.rollback t).committed = T.committed := rfl

@[simp] theorem rollback_next (T : Table V) (t : Sid) : (T.rollback t).next = T.next := rfl

theorem write_writes (T : Table V) (t : Sid) (k : Nat) (v : V) :
    (T.write t k v).writes t = Function.update (T.writes t) k (some v) := by
  funext j
  by_cases hj : j = k
  · subst hj
    simp [write, writes]
  · simp [write, writes, hj]

theorem insert_writes (T : Table V) (t : Sid) (v : V) :
    (T.insert t v).writes t = Function.update (T.writes t) T.next (some v) :=
  write_writes T t T.next v

theorem release_writes (T : Table V) (t : Sid) (k : Nat) :
    (T.rollback t).writes t k = none := by
  by_cases hl : T.lockedFor t k = true
  · obtain ⟨o, v, ho, hk⟩ := lockedFor_eq_true.mp hl
    simp [rollback, writes, hl, hk, ho]
  · simp [rollback, writes, hl]

theorem commit_writes (T : Table V) (t : Sid) : (T.commit t).writes t = noRows :=
  funext fun k => release_writes T t k

theorem rollback_writes (T : Table V) (t : Sid) : (T.rollback t).writes t = noRows :=
  funext fun k => release_writes T t k

theorem write_read_self (T : Table V) (t : Sid) (k : Nat) (v : V) :
    (T.write t k v).read t k = some v :=
  read_of_writes (by rw [write_writes, Function.update_self])

/-! ## What other sessions keep

A step of session `t` on a table leaves every row another session has locked,
and takes no lock in another session's name. -/

structure Frame (t : Sid) (T T' : Table V) : Prop where
  next_le : T.next ≤ T'.next
  keep : ∀ k o v, o ≠ t → T.pending k = some (o, v) →
    T'.pending k = some (o, v) ∧ T'.committed k = T.committed k
  only : ∀ k o v, o ≠ t → T'.pending k = some (o, v) → T.pending k = some (o, v)

theorem Frame.refl (t : Sid) (T : Table V) : Frame t T T where
  next_le := Nat.le_refl _
  keep := fun _ _ _ _ h => ⟨h, rfl⟩
  only := fun _ _ _ _ h => h

theorem Frame.writes_eq {t o : Sid} {T T' : Table V} (h : Frame t T T') (ho : o ≠ t) :
    T'.writes o = T.writes o := by
  funext k
  cases hk : T.writes o k with
  | some v =>
      rw [writes_eq_some] at hk ⊢
      exact (h.keep k o v ho hk).1
  | none =>
      cases hk' : T'.writes o k with
      | none => rfl
      | some v =>
          rw [writes_eq_some] at hk'
          rw [writes_eq_some.mpr (h.only k o v ho hk')] at hk
          exact hk

theorem Frame.committed_eq {t o : Sid} {T T' : Table V} (h : Frame t T T') (ho : o ≠ t)
    {k : Nat} {v : V} (hk : T.writes o k = some v) : T'.committed k = T.committed k :=
  (h.keep k o v ho (writes_eq_some.mp hk)).2

theorem write_frame {t : Sid} {T : Table V} {k : Nat} (v : V)
    (h : T.lockedFor t k = false) : Frame t T (T.write t k v) where
  next_le := Nat.le_refl _
  keep := by
    intro j o u ho hj
    by_cases hjk : j = k
    · subst hjk
      exact absurd (lockedFor_eq_false.mp h o u hj) ho
    · simp [write, hjk, hj]
  only := by
    intro j o u ho hj
    by_cases hjk : j = k
    · subst hjk
      simp only [write, Function.update_self, Option.some.injEq, Prod.mk.injEq] at hj
      exact absurd hj.1.symm ho
    · simpa [write, hjk] using hj

theorem rollback_frame (t : Sid) (T : Table V) : Frame t T (T.rollback t) where
  next_le := Nat.le_refl _
  keep := by
    intro k o v ho hk
    have hl : T.lockedFor t k = true := lockedFor_eq_true.mpr ⟨o, v, ho, hk⟩
    simp [rollback, hl, hk]
  only := by
    intro k o v _ hk
    by_cases hl : T.lockedFor t k = true
    · simpa [rollback, hl] using hk
    · simp [rollback, hl] at hk

theorem commit_frame (t : Sid) (T : Table V) : Frame t T (T.commit t) where
  next_le := Nat.le_refl _
  keep := by
    intro k o v ho hk
    refine ⟨((rollback_frame t T).keep k o v ho hk).1, ?_⟩
    have hw : T.writes t k = none := by
      simp [writes, hk, ho]
    exact read_of_not_written hw
  only := fun k o v ho hk => (rollback_frame t T).only k o v ho hk

/-! ## Keys not drawn yet -/

/-- No row stands at a key that no insertion has drawn. -/
def Bounded (T : Table V) : Prop :=
  ∀ k, T.next ≤ k → T.committed k = none ∧ T.pending k = none

theorem empty_bounded : Bounded (empty : Table V) := fun _ _ => ⟨rfl, rfl⟩

theorem ofList_bounded (rows : List V) : Bounded (ofList rows) := fun _ hk =>
  ⟨List.getElem?_eq_none hk, rfl⟩

theorem Bounded.writes_eq_none {T : Table V} (h : T.Bounded) {t : Sid} {k : Nat}
    (hk : T.next ≤ k) : T.writes t k = none := by
  simp [writes, (h k hk).2]

theorem Bounded.lt_of_read {T : Table V} (h : T.Bounded) {t : Sid} {k : Nat} {v : V}
    (hk : T.read t k = some v) : k < T.next := by
  by_contra hlt
  have hle : T.next ≤ k := Nat.le_of_not_lt hlt
  simp [read, h.writes_eq_none hle, (h k hle).1] at hk

theorem Bounded.lt_of_committed {T : Table V} (h : T.Bounded) {k : Nat} {v : V}
    (hk : T.committed k = some v) : k < T.next := by
  by_contra hlt
  simp [(h k (Nat.le_of_not_lt hlt)).1] at hk

theorem Bounded.write {T : Table V} (h : T.Bounded) {t : Sid} {k : Nat} (v : V)
    (hk : k < T.next) : (T.write t k v).Bounded := by
  intro j hj
  have hjk : j ≠ k := by
    have : T.next ≤ j := hj
    omega
  have hT := h j hj
  simp [Table.write, hjk, hT]

theorem Bounded.insert {T : Table V} (h : T.Bounded) (t : Sid) (v : V) :
    (T.insert t v).Bounded := by
  intro j hj
  have hj' : T.next + 1 ≤ j := hj
  have hjk : j ≠ T.next := by omega
  have hT := h j (by omega)
  simp [Table.insert, Table.write, hjk, hT]

theorem Bounded.rollback {T : Table V} (h : T.Bounded) (t : Sid) : (T.rollback t).Bounded := by
  intro j hj
  have hT := h j hj
  simp [Table.rollback, hT]

theorem Bounded.commit {T : Table V} (h : T.Bounded) (t : Sid) : (T.commit t).Bounded := by
  intro j hj
  have hT := h j hj
  simp [Table.commit, read, h.writes_eq_none (t := t) hj, hT]

theorem insert_frame {t : Sid} {T : Table V} (h : T.Bounded) (v : V) :
    Frame t T (T.insert t v) := by
  have hl : T.lockedFor t T.next = false := by
    simp [lockedFor, (h T.next (Nat.le_refl _)).2]
  have hw := write_frame v hl
  exact ⟨Nat.le_succ _, hw.keep, hw.only⟩

/-! ## Unique keys

A unique index looks at the committed versions and at the pending ones of every
session. -/

/-- `v` is a version of row `k`, committed or pending. -/
def Has (T : Table V) (k : Nat) (v : V) : Prop :=
  T.committed k = some v ∨ ∃ o, T.pending k = some (o, v)

/-- The versions of a row agree in `key`, and those of different rows differ in it. -/
def Keyed {κ : Type} (key : V → κ) (T : Table V) : Prop :=
  ∀ j k x y, T.Has j x → T.Has k y → (key x = key y ↔ j = k)

theorem Has.of_read {T : Table V} {t : Sid} {k : Nat} {v : V} (h : T.read t k = some v) :
    T.Has k v := by
  unfold read at h
  cases hw : T.writes t k with
  | none =>
      rw [hw] at h
      exact .inl h
  | some u =>
      rw [hw] at h
      cases h
      exact .inr ⟨t, writes_eq_some.mp hw⟩

theorem Has.of_rollback {T : Table V} {t : Sid} {k : Nat} {v : V} (h : (T.rollback t).Has k v) :
    T.Has k v := by
  rcases h with h | ⟨o, h⟩
  · exact .inl h
  · refine .inr ⟨o, ?_⟩
    by_cases hl : T.lockedFor t k = true
    · simpa [rollback, hl] using h
    · simp [rollback, hl] at h

theorem Has.of_commit {T : Table V} {t : Sid} {k : Nat} {v : V} (h : (T.commit t).Has k v) :
    T.Has k v := by
  rcases h with h | h
  · exact Has.of_read h
  · exact Has.of_rollback (t := t) (.inr h)

theorem Has.of_write {T : Table V} {t : Sid} {k j : Nat} {v x : V}
    (h : (T.write t k v).Has j x) : T.Has j x ∨ (j = k ∧ x = v) := by
  rcases h with h | ⟨o, h⟩
  · exact .inl (.inl h)
  · by_cases hj : j = k
    · subst hj
      simp only [write, Function.update_self, Option.some.injEq, Prod.mk.injEq] at h
      exact .inr ⟨rfl, h.2.symm⟩
    · simp only [write, Function.update_of_ne hj] at h
      exact .inl (.inr ⟨o, h⟩)

section Keyed

variable {κ : Type} {key : V → κ} {T : Table V}

theorem Keyed.of_has {T' : Table V} (h : T.Keyed key) (hsub : ∀ k v, T'.Has k v → T.Has k v) :
    T'.Keyed key :=
  fun j k x y hj hk => h j k x y (hsub j x hj) (hsub k y hk)

theorem Keyed.commit (h : T.Keyed key) (t : Sid) : (T.commit t).Keyed key :=
  h.of_has fun _ _ => Has.of_commit

theorem Keyed.rollback (h : T.Keyed key) (t : Sid) : (T.rollback t).Keyed key :=
  h.of_has fun _ _ => Has.of_rollback

/-- A new version of a row, with the same key. -/
theorem Keyed.write (h : T.Keyed key) {t : Sid} {k : Nat} {u v : V} (hu : T.Has k u)
    (hkey : key v = key u) : (T.write t k v).Keyed key := by
  have hold : ∀ j x, (T.write t k v).Has j x → ∃ x', T.Has j x' ∧ key x = key x' := by
    intro j x hj
    rcases Has.of_write hj with hj | ⟨rfl, rfl⟩
    · exact ⟨x, hj, rfl⟩
    · exact ⟨u, hu, hkey⟩
  intro i j x y hi hj
  obtain ⟨x', hx', hxk⟩ := hold i x hi
  obtain ⟨y', hy', hyk⟩ := hold j y hj
  rw [hxk, hyk]
  exact h i j x' y' hx' hy'

/-- A new row whose key no version of another row has. -/
theorem Keyed.insert (h : T.Keyed key) (hb : T.Bounded) {t : Sid} {v : V}
    (hnew : ∀ k x, T.Has k x → key x ≠ key v) : (T.insert t v).Keyed key := by
  have hlt : ∀ k x, T.Has k x → k ≠ T.next := by
    rintro k x hk rfl
    have hnone := hb T.next (Nat.le_refl _)
    rcases hk with hk | ⟨o, hk⟩
    · rw [hnone.1] at hk
      cases hk
    · rw [hnone.2] at hk
      cases hk
  have hcases : ∀ j x, (T.insert t v).Has j x → T.Has j x ∨ (j = T.next ∧ x = v) :=
    fun j x hj => Has.of_write (t := t) hj
  intro i j x y hi hj
  rcases hcases i x hi with hi' | ⟨rfl, rfl⟩
  · rcases hcases j y hj with hj' | ⟨rfl, rfl⟩
    · exact h i j x y hi' hj'
    · exact iff_of_false (hnew i x hi') (hlt i x hi')
  · rcases hcases j y hj with hj' | ⟨rfl, rfl⟩
    · exact iff_of_false (hnew j y hj').symm (hlt j y hj').symm
    · exact iff_of_true rfl rfl

end Keyed

/-! ## Scans -/

/-- A scan lists every key once. -/
theorem keys_nodup (f : Nat → Option V) (n : Nat) :
    (((List.range n).filterMap fun k => (f k).map fun v => (k, v)).map Prod.fst).Nodup := by
  have hsub : (((List.range n).filterMap fun k => (f k).map fun v => (k, v)).map
      Prod.fst).Sublist (List.range n) := by
    generalize List.range n = l
    induction l with
    | nil => exact .slnil
    | cons j rest ih =>
        cases hj : f j with
        | none => simpa [hj] using ih.cons j
        | some v => simpa [hj] using ih.cons_cons j
  exact hsub.nodup List.nodup_range

theorem mem_scan {T : Table V} (h : T.Bounded) {t : Sid} {k : Nat} {v : V} :
    (k, v) ∈ T.scan t ↔ T.read t k = some v := by
  simp only [scan, List.mem_filterMap, List.mem_range, Option.map_eq_some_iff, Prod.mk.injEq]
  constructor
  · rintro ⟨j, _, u, hu, rfl, rfl⟩
    exact hu
  · intro hk
    exact ⟨k, h.lt_of_read hk, v, hk, rfl, rfl⟩

theorem mem_rows {T : Table V} (h : T.Bounded) {k : Nat} {v : V} :
    (k, v) ∈ T.rows ↔ T.committed k = some v := by
  simp only [rows, List.mem_filterMap, List.mem_range, Option.map_eq_some_iff, Prod.mk.injEq]
  constructor
  · rintro ⟨j, _, u, hu, rfl, rfl⟩
    exact hu
  · intro hk
    exact ⟨k, h.lt_of_committed hk, v, hk, rfl, rfl⟩

/-- What a scan and the pending rows of the others show is every version of a row, up to
its key. -/
theorem has_cases {κ : Type} {key : V → κ} {T : Table V} (h : T.Keyed key) (hb : T.Bounded)
    {t : Sid} {k : Nat} {x : V} (hk : T.Has k x) :
    (∃ y, (k, y) ∈ T.scan t ∧ key y = key x) ∨ x ∈ T.foreign t := by
  have hread : ∀ y, T.read t k = some y → ∃ y, (k, y) ∈ T.scan t ∧ key y = key x :=
    fun y hy => ⟨y, (mem_scan hb).mpr hy, (h k k y x (Has.of_read hy) hk).mpr rfl⟩
  rcases hk with hk | ⟨o, hk⟩
  · left
    cases hw : T.writes t k with
    | none => exact hread x (by simp [read, hw, hk])
    | some y => exact hread y (read_of_writes hw)
  · by_cases ho : o = t
    · subst ho
      exact .inl (hread x (read_of_writes (writes_eq_some.mpr hk)))
    · right
      have hlt : k < T.next := by
        by_contra hge
        rw [(hb k (Nat.le_of_not_lt hge)).2] at hk
        cases hk
      simp only [foreign, List.mem_filterMap, List.mem_range]
      refine ⟨k, hlt, ?_⟩
      rw [if_pos (lockedFor_eq_true.mpr ⟨o, x, ho, hk⟩), hk]
      rfl

/-- A new row that the check of a unique index lets pass. -/
theorem Keyed.insert_unique {κ : Type} {key : V → κ} {T : Table V} (h : T.Keyed key)
    (hb : T.Bounded) {t : Sid} {c : V → Bool} {v : V}
    (hc : ∀ x, c x = false → key x ≠ key v) (hscan : ∀ r ∈ T.scan t, c r.2 = false)
    (hforeign : ∀ u ∈ T.foreign t, c u = false) : (T.insert t v).Keyed key := by
  refine h.insert hb fun k x hk => ?_
  rcases has_cases h hb (t := t) hk with ⟨y, hy, hkey⟩ | hx
  · rw [← hkey]
    exact hc y (hscan (k, y) hy)
  · exact hc x (hforeign x hx)

/-- Counting committed rows, as a set of keys and as a list. -/
theorem encard_rows {T : Table V} (h : T.Bounded) (p : V → Bool) :
    {k | ∃ v, T.committed k = some v ∧ p v = true}.encard =
      (T.rows.countP fun r => p r.2 : Nat) := by
  have hset : {k | ∃ v, T.committed k = some v ∧ p v = true} =
      (((T.rows.filter fun r => p r.2).map Prod.fst).toFinset : Set Nat) := by
    ext k
    simp only [Set.mem_ofPred_eq, List.coe_toFinset, List.mem_map, List.mem_filter, Prod.exists,
      exists_and_right, exists_eq_right]
    constructor
    · intro hk
      obtain ⟨v, hv, hp⟩ := hk
      exact ⟨v, (mem_rows h).mpr hv, hp⟩
    · intro hk
      obtain ⟨v, hv, hp⟩ := hk
      exact ⟨v, (mem_rows h).mp hv, hp⟩
  have hnodup : ((T.rows.filter fun r => p r.2).map Prod.fst).Nodup :=
    (keys_nodup T.committed T.next).sublist (List.filter_sublist.map Prod.fst)
  rw [hset, Set.encard_coe_eq_coe_finsetCard, List.toFinset_card_of_nodup hnodup,
    List.length_map, List.countP_eq_length_filter]

/-! ## Growing tables -/

/-- Key `k` is greater than every key of `f`. -/
def Above (f : Nat → Option V) (k : Nat) : Prop := ∀ j v, f j = some v → j < k

theorem Above.fresh {f : Nat → Option V} {k : Nat} (h : Above f k) : f k = none := by
  cases hk : f k with
  | none => rfl
  | some v => exact absurd (h k v hk) (Nat.lt_irrefl k)

theorem Bounded.above {T : Table V} (h : T.Bounded) : Above T.committed T.next :=
  fun _ _ hj => h.lt_of_committed hj

/-- The write set `O` puts the rows `l` at growing keys above those of `f`. -/
inductive Appended (f : Nat → Option V) : List V → (Nat → Option V) → Prop
  | nil : Appended f [] noRows
  | snoc {l : List V} {O : Nat → Option V} {k : Nat} {v : V} (h : Appended f l O)
      (hf : Above f k) (hO : Above O k) : Appended f (l ++ [v]) (Function.update O k (some v))

theorem Appended.single {f : Nat → Option V} {k : Nat} {v : V} (h : Above f k) :
    Appended f [v] (single k v) :=
  .snoc .nil h fun _ _ hj => by cases hj

theorem Appended.fresh {f O : Nat → Option V} {l : List V} (h : Appended f l O) {k : Nat} {v : V}
    (hk : O k = some v) : f k = none := by
  induction h with
  | nil => cases hk
  | @snoc l O j u h hf hO ih =>
      by_cases hkj : k = j
      · rw [hkj]
        exact hf.fresh
      · rw [Function.update_of_ne hkj] at hk
        exact ih hk

theorem Appended.mem {f O : Nat → Option V} {l : List V} (h : Appended f l O) {k : Nat} {v : V}
    (hk : O k = some v) : v ∈ l := by
  induction h with
  | nil => cases hk
  | @snoc l O j u h hf hO ih =>
      by_cases hkj : k = j
      · rw [hkj, Function.update_self] at hk
        cases hk
        exact List.mem_append_right _ List.mem_cons_self
      · rw [Function.update_of_ne hkj] at hk
        exact List.mem_append_left _ (ih hk)

/-- Keys from a bound on add nothing. -/
theorem filterMap_range {f : Nat → Option V} {n m : Nat} (hn : Above f n) (hm : n ≤ m) :
    (List.range m).filterMap f = (List.range n).filterMap f := by
  induction m with
  | zero =>
      have hzero : n = 0 := by omega
      rw [hzero]
  | succ m ih =>
      by_cases hnm : n = m + 1
      · rw [hnm]
      · have hle : n ≤ m := by omega
        have hnone : f m = none := by
          cases hfm : f m with
          | none => rfl
          | some v =>
              have hlt := hn m v hfm
              omega
        rw [List.range_succ, List.filterMap_append, ih hle]
        simp [hnone]

/-- Two bounds of the keys give the same list. -/
theorem filterMap_range_eq {f : Nat → Option V} {n m : Nat} (hn : Above f n) (hm : Above f m) :
    (List.range m).filterMap f = (List.range n).filterMap f := by
  rcases Nat.le_total n m with h | h
  · exact filterMap_range hn h
  · exact (filterMap_range hm h).symm

theorem filterMap_update {f : Nat → Option V} {n k m : Nat} {v : V} (hn : Above f n)
    (hk : Above f k) (hm : Above (Function.update f k (some v)) m) :
    (List.range m).filterMap (Function.update f k (some v)) =
      (List.range n).filterMap f ++ [v] := by
  have hk' : Above (Function.update f k (some v)) (k + 1) := by
    intro j u hj
    by_cases hjk : j = k
    · omega
    · rw [Function.update_of_ne hjk] at hj
      have hlt := hk j u hj
      omega
  have hsame : (List.range k).filterMap (Function.update f k (some v)) =
      (List.range k).filterMap f := by
    refine List.filterMap_congr fun j hj => ?_
    have hlt := List.mem_range.mp hj
    exact Function.update_of_ne (Nat.ne_of_lt hlt) _ _
  rw [filterMap_range_eq hk' hm, List.range_succ, List.filterMap_append, hsame,
    filterMap_range_eq hn hk]
  simp

theorem Appended.filterMap {f O : Nat → Option V} {l : List V} {n m : Nat}
    (h : Appended f l O) (hn : Above f n) (hm : Above (fun k => (O k).or (f k)) m) :
    (List.range m).filterMap (fun k => (O k).or (f k)) = (List.range n).filterMap f ++ l := by
  induction h generalizing m with
  | nil =>
      rw [List.append_nil]
      exact filterMap_range_eq hn hm
  | @snoc l O k v h hf hO ih =>
      have hover : (fun j => (Function.update O k (some v) j).or (f j)) =
          Function.update (fun j => (O j).or (f j)) k (some v) := by
        funext j
        by_cases hjk : j = k
        · subst hjk
          simp
        · simp [Function.update_of_ne hjk]
      have hk : Above (fun j => (O j).or (f j)) k := by
        intro j u hj
        cases hOj : O j with
        | none =>
            have hfj : (O j).or (f j) = some u := hj
            rw [hOj] at hfj
            exact hf j u hfj
        | some x => exact hO j x hOj
      rw [hover] at hm ⊢
      rw [filterMap_update hk hk hm, ih hk, List.append_assoc]

/-- The committed versions determine the list of rows. -/
theorem rows_eq {T T' : Table V} (hT : T.Bounded) (hT' : T'.Bounded)
    (h : T'.committed = T.committed) : T'.rows = T.rows := by
  unfold rows
  rw [h]
  refine filterMap_range_eq ?_ ?_ <;> intro j x hj <;>
    obtain ⟨v, hv, -⟩ := Option.map_eq_some_iff.mp hj
  · exact hT.above j v hv
  · exact hT'.above j v (by rw [h]; exact hv)

/-- The rows of a table after the commit of appended rows. -/
theorem values_append {T T' : Table V} (hT : T.Bounded) (hT' : T'.Bounded)
    {O : Nat → Option V} {l : List V} (h : Appended T.committed l O)
    (hO : T'.committed = fun k => (O k).or (T.committed k)) : T'.values = T.values ++ l := by
  unfold values
  have habove := hT'.above
  rw [hO] at habove ⊢
  exact h.filterMap hT.above habove

/-- `T'` has the rows of `T` as they were, and the rows `l` after them. -/
structure Gains (T T' : Table V) (l : List V) : Prop where
  values : T'.values = T.values ++ l
  kept : ∀ k v, T.committed k = some v → T'.committed k = some v
  origin : ∀ k v, T'.committed k = some v → T.committed k = some v ∨ v ∈ l

theorem gains_of_appended {T T' : Table V} (hT : T.Bounded) (hT' : T'.Bounded)
    {O : Nat → Option V} {l : List V} (h : Appended T.committed l O)
    (hO : T'.committed = fun k => (O k).or (T.committed k)) : T.Gains T' l := by
  refine ⟨values_append hT hT' h hO, fun k v hk => ?_, fun k v hk => ?_⟩
  · cases hOk : O k with
    | none => simp [hO, hOk, hk]
    | some u =>
        rw [h.fresh hOk] at hk
        cases hk
  · rw [hO] at hk
    cases hOk : O k with
    | none =>
        simp only [hOk, Option.none_or] at hk
        exact .inl hk
    | some u =>
        simp only [hOk, Option.some_or, Option.some.injEq] at hk
        subst hk
        exact .inr (h.mem hOk)

theorem Gains.committed_eq {T T' : Table V} (h : T.Gains T' []) : T'.committed = T.committed := by
  funext k
  cases hk : T'.committed k with
  | none =>
      cases hk' : T.committed k with
      | none => rfl
      | some v =>
          rw [h.kept k v hk'] at hk
          cases hk
  | some v =>
      rcases h.origin k v hk with hold | hnew
      · exact hold.symm
      · cases hnew

/-- `l` lists the rows of `f` in the order of their keys. -/
def Listed (f : Nat → Option V) (l : List V) : Prop :=
  ∃ n, Above f n ∧ l = (List.range n).filterMap f

theorem Listed.unique {f : Nat → Option V} {l l' : List V} (h : Listed f l) (h' : Listed f l') :
    l = l' := by
  obtain ⟨n, hn, rfl⟩ := h
  obtain ⟨m, hm, rfl⟩ := h'
  exact filterMap_range_eq hm hn

theorem Bounded.listed {T : Table V} (h : T.Bounded) : Listed T.committed T.values :=
  ⟨T.next, h.above, rfl⟩

theorem committed_of_mem_values {T : Table V} {v : V} (h : v ∈ T.values) :
    ∃ k, T.committed k = some v := by
  obtain ⟨k, -, hk⟩ := List.mem_filterMap.mp h
  exact ⟨k, hk⟩

end Table
end Sql
