/-
Tables that are only appended to.

A key is drawn when a row is inserted, and the row becomes visible when its transaction
commits, so rows may appear below rows that are visible already.  A number is past for
the rows that interest a reader if no such row below it is still to appear.
-/
import Rcp.Sql.Table

namespace Sql
namespace Table

variable {V : Type}

/-- No row is ever written again. -/
structure AppendOnly (T : Table V) : Prop where
  bounded : T.Bounded
  once : ∀ k v, T.committed k = some v → T.pending k = none

/-- All rows with `about` and a key below `n` have appeared or never will. -/
structure Past (about : V → Prop) (n : Int) (T : Table V) : Prop where
  drawn : n ≤ T.next
  settled : ∀ k o v, T.pending k = some (o, v) → about v → n ≤ k

/-- The committed rows with `about` and a key below `n` are all in `S`. -/
def Within (about : V → Prop) (n : Int) (S : Nat × V → Prop) (T : Table V) : Prop :=
  ∀ k v, T.committed k = some v → about v → (k : Int) < n → S (k, v)

variable {about : V → Prop} {n : Int} {S : Nat × V → Prop} {T : Table V} {t : Sid} {v : V}

theorem empty_appendOnly : AppendOnly (empty : Table V) :=
  ⟨empty_bounded, fun _ _ h => by cases h⟩

theorem AppendOnly.insert (h : T.AppendOnly) (t : Sid) (v : V) : (T.insert t v).AppendOnly := by
  refine ⟨h.bounded.insert t v, fun k u hk => ?_⟩
  have hk' : T.committed k = some u := hk
  have hne : k ≠ T.next := by
    rintro rfl
    rw [(h.bounded T.next (Nat.le_refl _)).1] at hk'
    cases hk'
  show Function.update T.pending T.next (some (t, v)) k = none
  rw [Function.update_of_ne hne]
  exact h.once k u hk'

/-- What is pending after a commit or a rollback was pending before. -/
theorem pending_release {k : Nat} {x : Sid × V}
    (h : (if T.lockedFor t k then T.pending k else none) = some x) : T.pending k = some x := by
  split at h
  · exact h
  · cases h

theorem AppendOnly.commit (h : T.AppendOnly) (t : Sid) : (T.commit t).AppendOnly := by
  refine ⟨h.bounded.commit t, fun k u hk => ?_⟩
  show (if T.lockedFor t k then T.pending k else none) = none
  cases hw : T.writes t k with
  | some v =>
      have hpending := writes_eq_some.mp hw
      have hfree : T.lockedFor t k = false := by simp [lockedFor, hpending]
      rw [hfree]
      rfl
  | none =>
      have hread : T.read t k = some u := hk
      rw [read_of_not_written hw] at hread
      rw [h.once k u hread]
      exact ite_self _

theorem AppendOnly.rollback (h : T.AppendOnly) (t : Sid) : (T.rollback t).AppendOnly := by
  refine ⟨h.bounded.rollback t, fun k u hk => ?_⟩
  show (if T.lockedFor t k then T.pending k else none) = none
  rw [h.once k u hk]
  exact ite_self _

theorem Past.insert (h : T.Past about n) (t : Sid) (v : V) : (T.insert t v).Past about n := by
  refine ⟨?_, fun k o u hk hu => ?_⟩
  · show n ≤ ((T.next + 1 : Nat) : Int)
    have hdrawn := h.drawn
    omega
  · have hk' : Function.update T.pending T.next (some (t, v)) k = some (o, u) := hk
    by_cases hne : k = T.next
    · rw [hne]
      exact h.drawn
    · rw [Function.update_of_ne hne] at hk'
      exact h.settled k o u hk' hu

theorem Past.commit (h : T.Past about n) (t : Sid) : (T.commit t).Past about n :=
  ⟨h.drawn, fun k o u hk hu => h.settled k o u (pending_release hk) hu⟩

theorem Past.rollback (h : T.Past about n) (t : Sid) : (T.rollback t).Past about n :=
  ⟨h.drawn, fun k o u hk hu => h.settled k o u (pending_release hk) hu⟩

/-- Below a past number a commit shows nothing new. -/
theorem Within.commit (h : T.Within about n S) (hpast : T.Past about n) (t : Sid) :
    (T.commit t).Within about n S := by
  intro k u hk hu hlt
  have hread : T.read t k = some u := hk
  cases hw : T.writes t k with
  | some v =>
      rw [read_of_writes hw] at hread
      cases hread
      have hle := hpast.settled k t u (writes_eq_some.mp hw) hu
      omega
  | none =>
      rw [read_of_not_written hw] at hread
      exact h k u hread hu hlt

theorem rows_sorted (T : Table V) : T.rows.Pairwise fun x y => x.1 < y.1 := by
  unfold rows
  refine List.Pairwise.filterMap _ ?_ List.pairwise_lt_range
  intro j k hjk x hx y hy
  obtain ⟨u, -, rfl⟩ := Option.map_eq_some_iff.mp hx
  obtain ⟨v, -, rfl⟩ := Option.map_eq_some_iff.mp hy
  exact hjk

end Table

/-- The first elements of a sorted list hold all that are not above the last of them. -/
theorem mem_take_of_le {V : Type} {l : List (Nat × V)} (h : l.Pairwise fun x y => x.1 < y.1)
    {m : Nat} {x last : Nat × V} (hx : x ∈ l) (hlast : (l.take m).getLast? = some last)
    (hle : x.1 ≤ last.1) : x ∈ l.take m := by
  have hsplit : l.take m ++ l.drop m = l := List.take_append_drop m l
  rw [← hsplit] at hx h
  rcases List.mem_append.mp hx with hx | hx
  · exact hx
  · have hlt := (List.pairwise_append.mp h).2.2 last (List.mem_of_getLast? hlast) x hx
    omega

end Sql
