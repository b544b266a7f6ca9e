/-
Columns that never change.

The versions of a row agree in what `f` keeps of it.  Keys are not drawn twice, so this
is known of a key for good, even if the session that inserted the row rolls back.
-/
import Rcp.Sql.Keeps

namespace Sql
namespace Table

variable {V X : Type} (f : V → X)

/-- Key `k` has been drawn, and `f` is `x` on every version of its row. -/
def Identified (T : Table V) (k : Nat) (x : X) : Prop :=
  k < T.next ∧ ∀ v, T.Has k v → f v = x

/-- The versions of each row agree in `f`. -/
def Agrees (T : Table V) : Prop := ∀ k v, T.Has k v → T.Identified f k (f v)

/-- What is known of a key in `T` is known in `T'`. -/
def Identifies (T T' : Table V) : Prop := ∀ k x, T.Identified f k x → T'.Identified f k x

variable {f} {T T' : Table V} {t : Sid}

theorem Identifies.refl (T : Table V) : Identifies f T T := fun _ _ h => h

theorem Identifies.trans {T'' : Table V} (h : Identifies f T T') (h' : Identifies f T' T'') :
    Identifies f T T'' := fun k x hk => h' k x (h k x hk)

/-- No version is new. -/
theorem identifies_of_has (hnext : T'.next = T.next) (h : ∀ k v, T'.Has k v → T.Has k v) :
    Identifies f T T' := by
  intro k x hk
  exact ⟨hnext ▸ hk.1, fun v hv => hk.2 v (h k v hv)⟩

theorem Agrees.of_has (hT : T.Agrees f) (hnext : T'.next = T.next)
    (h : ∀ k v, T'.Has k v → T.Has k v) : T'.Agrees f :=
  fun k v hv => identifies_of_has hnext h k _ (hT k v (h k v hv))

theorem identifies_commit : Identifies f T (T.commit t) :=
  identifies_of_has rfl fun _ _ => Has.of_commit

theorem Agrees.commit (hT : T.Agrees f) (t : Sid) : (T.commit t).Agrees f :=
  hT.of_has rfl fun _ _ => Has.of_commit

theorem identifies_rollback : Identifies f T (T.rollback t) :=
  identifies_of_has rfl fun _ _ => Has.of_rollback

theorem Agrees.rollback (hT : T.Agrees f) (t : Sid) : (T.rollback t).Agrees f :=
  hT.of_has rfl fun _ _ => Has.of_rollback

theorem Agrees.read (hT : T.Agrees f) {k : Nat} {v : V} (hv : T.read t k = some v) :
    T.Identified f k (f v) := hT k v (Has.of_read hv)

theorem Agrees.mem_scan (hT : T.Agrees f) {row : Nat × V} (h : row ∈ T.scan t) :
    T.Identified f row.1 (f row.2) := by
  obtain ⟨k, -, hk⟩ := List.mem_filterMap.mp h
  obtain ⟨v, hv, rfl⟩ := Option.map_eq_some_iff.mp hk
  exact hT.read hv

theorem identifies_write {k : Nat} {u v : V} (hu : T.read t k = some u)
    (hv : f v = f u) : Identifies f T (T.write t k v) := by
  intro j x hj
  refine ⟨hj.1, fun w hw => ?_⟩
  rcases Has.of_write hw with hw | ⟨rfl, rfl⟩
  · exact hj.2 w hw
  · rw [hv]
    exact hj.2 u (Has.of_read hu)

theorem Agrees.write (hT : T.Agrees f) {k : Nat} {u v : V} (hu : T.read t k = some u)
    (hv : f v = f u) : (T.write t k v).Agrees f := by
  intro j w hw
  rcases Has.of_write hw with hw | ⟨rfl, rfl⟩
  · exact identifies_write hu hv j _ (hT j w hw)
  · rw [hv]
    exact identifies_write hu hv j _ (hT.read hu)

theorem Has.of_insert {j : Nat} {v w : V} (h : (T.insert t v).Has j w) :
    T.Has j w ∨ (j = T.next ∧ w = v) := Has.of_write (T := T) (t := t) h

theorem identifies_insert {v : V} : Identifies f T (T.insert t v) := by
  intro j x hj
  refine ⟨Nat.lt_succ_of_lt hj.1, fun w hw => ?_⟩
  rcases Has.of_insert hw with hw | ⟨rfl, -⟩
  · exact hj.2 w hw
  · exact absurd hj.1 (Nat.lt_irrefl _)

/-- An insertion settles the key it draws. -/
theorem Agrees.identified_next (hT : T.Agrees f) (t : Sid) (v : V) :
    (T.insert t v).Identified f T.next (f v) := by
  refine ⟨Nat.lt_succ_self _, fun w hw => ?_⟩
  rcases Has.of_insert hw with hw | ⟨-, rfl⟩
  · exact absurd (hT _ w hw).1 (Nat.lt_irrefl _)
  · rfl

theorem Agrees.insert (hT : T.Agrees f) (t : Sid) (v : V) : (T.insert t v).Agrees f := by
  intro j w hw
  rcases Has.of_insert hw with hw | ⟨rfl, rfl⟩
  · exact identifies_insert j _ (hT j w hw)
  · exact hT.identified_next t w

theorem agrees_ofList (rows : List V) : (ofList rows).Agrees f := by
  intro k v hv
  have hrow : ∀ w, (ofList rows).Has k w → rows[k]? = some w := by
    rintro w (hw | ⟨o, hw⟩)
    · exact hw
    · cases hw
  refine ⟨(List.getElem?_eq_some_iff.mp (hrow v hv)).1, fun w hw => ?_⟩
  rw [Option.some.inj ((hrow w hw).symm.trans (hrow v hv))]

theorem agrees_empty : (empty : Table V).Agrees f := by
  rintro k v (hv | ⟨o, hv⟩)
  · cases hv
  · cases hv

end Table
end Sql
