/-
Stores given by their tables.

A store is a record of tables, and its rows are a record of the same shape.  An
index names the tables.  The laws of `Tables` hold by computation for records,
and from them come the schema of the store and one column for each table.
-/
import Rcp.Sql.Store

namespace Sql

open Table

structure Tables (S R ι : Type) [Transactional S] where
  Row : ι → Type
  table : (i : ι) → Access S (Row i)
  /-- The rows of one table. -/
  part : (i : ι) → R → Nat → Option (Row i)
  build : ((i : ι) → Nat → Option (Row i)) → R
  put : (i : ι) → (Nat → Option (Row i)) → R → R
  ext : ∀ w w', (∀ i, part i w = part i w') → w = w'
  part_build : ∀ i f, part i (build f) = f i
  part_put_self : ∀ i f w, part i (put i f w) = f
  part_put_ne : ∀ i j f w, j ≠ i → part j (put i f w) = part j w
  get_set_self : ∀ i s T, (table i).get ((table i).set s T) = T
  get_set_ne : ∀ i j s T, j ≠ i → (table j).get ((table i).set s T) = (table j).get s
  get_commit : ∀ i t s, (table i).get (Transactional.commit t s) = ((table i).get s).commit t
  get_rollback : ∀ i t s,
    (table i).get (Transactional.rollback t s) = ((table i).get s).rollback t
  /-- What the constraints of a table ensure. -/
  Coherent : (i : ι) → Table (Row i) → Prop := fun _ _ => True
  coherent_commit : ∀ i t T, Coherent i T → Coherent i (T.commit t) := by
    exact fun _ _ _ _ => trivial
  coherent_rollback : ∀ i t T, Coherent i T → Coherent i (T.rollback t) := by
    exact fun _ _ _ _ => trivial

namespace Tables

variable {S R ι : Type} [Transactional S]

@[reducible] def schema (D : Tables S R ι) : Schema S R where
  rows s := D.build fun i => ((D.table i).get s).committed
  writes t s := D.build fun i => ((D.table i).get s).writes t
  nothing := D.build fun _ => noRows
  overlay W w := D.build fun i k => (D.part i W k).or (D.part i w k)
  Apart W W' := ∀ i k v, D.part i W k = some v → D.part i W' k = none
  Frame t s s' := ∀ i, Table.Frame t ((D.table i).get s) ((D.table i).get s')
  Bounded s := ∀ i, ((D.table i).get s).Bounded ∧ D.Coherent i ((D.table i).get s)
  nothing_over w := by
    refine D.ext _ _ fun i => ?_
    simp only [D.part_build]
    rfl
  writes_apart t o s h := by
    intro i k v hk
    rw [D.part_build] at hk ⊢
    exact writes_exclusive h hk
  frame_refl t s i := Table.Frame.refl t _
  frame_writes t o s s' h ho := by
    have hw : (fun i => ((D.table i).get s').writes o) =
        fun i => ((D.table i).get s).writes o := funext fun i => (h i).writes_eq ho
    rw [hw]
  commit_rows t s := by
    refine D.ext _ _ fun i => ?_
    simp only [D.part_build, D.get_commit]
    rfl
  commit_writes t s := by
    simp only [D.get_commit, Table.commit_writes]
  commit_frame t s i := by
    rw [D.get_commit]
    exact Table.commit_frame t _
  commit_bounded t s h i := by
    rw [D.get_commit]
    exact ⟨(h i).1.commit t, D.coherent_commit i t _ (h i).2⟩
  rollback_rows t s := by
    simp only [D.get_rollback, rollback_committed]
  rollback_writes t s := by
    simp only [D.get_rollback, Table.rollback_writes]
  rollback_frame t s i := by
    rw [D.get_rollback]
    exact Table.rollback_frame t _
  rollback_bounded t s h i := by
    rw [D.get_rollback]
    exact ⟨(h i).1.rollback t, D.coherent_rollback i t _ (h i).2⟩

variable [DecidableEq ι] (D : Tables S R ι)

/-- The other tables are left alone by a write to table `i`. -/
theorem forall_set {P : (j : ι) → Table (D.Row j) → Prop} (i : ι) {s : S} {T : Table (D.Row i)}
    (hself : P i T) (hother : ∀ j, j ≠ i → P j ((D.table j).get s)) (j : ι) :
    P j ((D.table j).get ((D.table i).set s T)) := by
  by_cases h : j = i
  · subst h
    rw [D.get_set_self]
    exact hself
  · rw [D.get_set_ne i j s T h]
    exact hother j h

def column (i : ι) : Column D.schema (D.Row i) where
  access := D.table i
  Coherent := D.Coherent i
  get := D.part i
  put := D.put i
  get_rows s := D.part_build i _
  get_writes t s := D.part_build i _
  get_nothing k := by
    rw [D.part_build]
    rfl
  get_over W w k := by
    rw [D.part_build]
  apart W W' k v h := h i k v
  bounded s h := (h i).1
  coherent s h := (h i).2
  set_writes t s T := by
    refine D.ext _ _ fun j => ?_
    rw [D.part_build]
    by_cases h : j = i
    · subst h
      rw [D.part_put_self, D.get_set_self]
    · rw [D.part_put_ne i j _ _ h, D.part_build, D.get_set_ne i j s T h]
  set_quiet t s T hframe hrows hbounded := by
    refine ⟨?_, ?_, fun hb => ?_⟩
    · refine D.forall_set (P := fun j T' => Table.Frame t ((D.table j).get s) T') i hframe ?_
      intro j _
      exact Table.Frame.refl t _
    · refine D.ext _ _ fun j => ?_
      rw [D.part_build, D.part_build]
      refine D.forall_set (P := fun j T' => T'.committed = ((D.table j).get s).committed) i
        hrows ?_ j
      intro j _
      rfl
    · exact D.forall_set (P := fun j T' => T'.Bounded ∧ D.Coherent j T') i (hbounded hb)
        fun j _ => hb j

end Tables
end Sql
