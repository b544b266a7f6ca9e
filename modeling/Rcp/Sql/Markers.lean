/-
Transactions that carry a marker.

A consumer of events records the id of an event in the transaction that applies it.  A
`Family` names the tables of a store, and one of them holds the markers.  A session may commit
only a transaction that carries the marker of its call, where this marker was not there
before.  Then a step leaves the committed rows, or it is the commit of a whole transaction
that adds its marker.
-/
import Rcp.Sql.Growth
import Rcp.Sql.Schedule

namespace Sql

open Table Relation

/-! ## Insertions under a chosen key -/

namespace Table

variable {V : Type} {T : Table V} {t : Sid} {k : Nat}

theorem insertAt_writes (T : Table V) (t : Sid) (k : Nat) (v : V) :
    (T.insertAt t k v).writes t = Function.update (T.writes t) k (some v) :=
  write_writes T t k v

theorem insertAt_frame (v : V) (h : T.lockedFor t k = false) : Frame t T (T.insertAt t k v) where
  next_le := Nat.le_max_left _ _
  keep := (write_frame v h).keep
  only := (write_frame v h).only

theorem Bounded.insertAt (h : T.Bounded) (t : Sid) (k : Nat) (v : V) :
    (T.insertAt t k v).Bounded := by
  intro j hj
  have hle : max T.next (k + 1) ≤ j := hj
  have hjk : j ≠ k := by omega
  have hT := h j (by omega)
  simp [Table.insertAt, Table.write, hjk, hT]

theorem Has.of_writes {v : V} (h : T.writes t k = some v) : T.Has k v :=
  .inr ⟨t, writes_eq_some.mp h⟩

end Table

section InsertKey

variable {S V : Type} {T : Access S V} {k : Nat} {v : V} {t : Sid} {s s' : S}

theorem runInsertKey_false (h : runInsertKey T k v t s = some (false, s')) :
    s' = s ∧ ∃ u, (T.get s).read t k = some u := by
  unfold runInsertKey at h
  split at h
  · rename_i u hread
    cases h
    exact ⟨rfl, u, hread⟩
  · split at h
    · cases h
    · cases h

theorem runInsertKey_true (h : runInsertKey T k v t s = some (true, s')) :
    (T.get s).read t k = none ∧ (T.get s).lockedFor t k = false ∧
      s' = T.set s ((T.get s).insertAt t k v) := by
  unfold runInsertKey at h
  split at h
  · cases h
  · rename_i hread
    split at h
    · cases h
    · rename_i hlock
      cases h
      exact ⟨hread, Bool.eq_false_iff.mpr hlock, rfl⟩

end InsertKey

/-! ## Families of tables -/

structure Family (S ι : Type) [Transactional S] where
  Row : ι → Type
  table : (i : ι) → Access S (Row i)
  get_set_self : ∀ i s T, (table i).get ((table i).set s T) = T
  get_set_ne : ∀ i j s T, j ≠ i → (table j).get ((table i).set s T) = (table j).get s
  get_commit : ∀ i t s, (table i).get (Transactional.commit t s) = ((table i).get s).commit t
  get_rollback : ∀ i t s,
    (table i).get (Transactional.rollback t s) = ((table i).get s).rollback t

namespace Family

variable {S ι E ε α β γ C : Type} [Transactional S] (F : Family S ι)

/-- The committed rows of every table. -/
def rows (s : S) (i : ι) : Nat → Option (F.Row i) := ((F.table i).get s).committed

/-- The rows that a session has written and not committed. -/
def writes (t : Sid) (s : S) (i : ι) : Nat → Option (F.Row i) := ((F.table i).get s).writes t

/-- The session has no open writes. -/
def Clean (t : Sid) (s : S) : Prop := ∀ i, ((F.table i).get s).writes t = noRows

/-- A step that moves no committed row. -/
structure Quiet (t : Sid) (s s' : S) : Prop where
  frame : ∀ i, Table.Frame t ((F.table i).get s) ((F.table i).get s')
  rows : ∀ i, ((F.table i).get s').committed = ((F.table i).get s).committed
  bounded : ∀ i, ((F.table i).get s).Bounded → ((F.table i).get s').Bounded

variable {F} {t : Sid} {s s' : S}

theorem quiet_of_eq (h : ∀ i, (F.table i).get s' = (F.table i).get s) : F.Quiet t s s' where
  frame i := by
    rw [h i]
    exact .refl t _
  rows i := by rw [h i]
  bounded i hb := by
    rw [h i]
    exact hb

theorem quiet_set [DecidableEq ι] {i : ι} {T : Table (F.Row i)}
    (hframe : Table.Frame t ((F.table i).get s) T)
    (hrows : T.committed = ((F.table i).get s).committed)
    (hbounded : ((F.table i).get s).Bounded → T.Bounded) :
    F.Quiet t s ((F.table i).set s T) := by
  have hself := F.get_set_self i s T
  refine ⟨fun j => ?_, fun j => ?_, fun j hj => ?_⟩
  · by_cases hji : j = i
    · subst hji
      rw [hself]
      exact hframe
    · rw [F.get_set_ne i j s T hji]
      exact .refl t _
  · by_cases hji : j = i
    · subst hji
      rw [hself]
      exact hrows
    · rw [F.get_set_ne i j s T hji]
  · by_cases hji : j = i
    · subst hji
      rw [hself]
      exact hbounded hj
    · rw [F.get_set_ne i j s T hji]
      exact hj

/-! ## Markers -/

section Markers

variable (F) (m : ι) (mark : Nat → F.Row m → E)

/-- The marker is committed. -/
def Marked (s : S) (e : E) : Prop :=
  ∃ k v, ((F.table m).get s).committed k = some v ∧ mark k v = e

/-- The tables are in order, and a marker stands in one row only. -/
structure Kept (s : S) : Prop where
  bounded : ∀ i, ((F.table i).get s).Bounded
  unique : ∀ j k x y, ((F.table m).get s).Has j x → ((F.table m).get s).Has k y →
    (mark j x = mark k y ↔ j = k)

/-- A step that moves no committed row and leaves the markers alone. -/
structure Aside (t : Sid) (s s' : S) : Prop extends F.Quiet t s s' where
  markers : (F.table m).get s' = (F.table m).get s

/-- The commit of a whole transaction that adds the marker of its event. -/
structure Publishes (e : E) (t : Sid) (s s' : S) : Prop where
  fresh : ¬ F.Marked m mark s e
  marks : ∀ x, F.Marked m mark s' x ↔ F.Marked m mark s x ∨ x = e
  whole : ∀ i k, F.rows s' i k = (F.writes t s i k).or (F.rows s i k)

/-- The session has written a row with the marker, which no one has committed. -/
def Carries (e : E) (t : Sid) (s : S) : Prop :=
  ∃ k v, ((F.table m).get s).writes t = single k v ∧ mark k v = e ∧
    ((F.table m).get s).committed k = none

variable {F m mark}

theorem marked_congr {e : E} (h : ((F.table m).get s').committed = ((F.table m).get s).committed) :
    F.Marked m mark s' e ↔ F.Marked m mark s e := by
  unfold Marked
  rw [h]

theorem Kept.quiet (h : F.Kept m mark s) (hquiet : F.Aside m t s s') : F.Kept m mark s' where
  bounded i := hquiet.bounded i (h.bounded i)
  unique := by
    rw [hquiet.markers]
    exact h.unique

theorem Kept.commit (h : F.Kept m mark s) (t : Sid) :
    F.Kept m mark (Transactional.commit t s) where
  bounded i := by
    rw [F.get_commit]
    exact (h.bounded i).commit t
  unique := by
    rw [F.get_commit]
    intro j k x y hx hy
    exact h.unique j k x y (.of_commit hx) (.of_commit hy)

theorem Kept.rollback (h : F.Kept m mark s) (t : Sid) :
    F.Kept m mark (Transactional.rollback t s) where
  bounded i := by
    rw [F.get_rollback]
    exact (h.bounded i).rollback t
  unique := by
    rw [F.get_rollback]
    intro j k x y hx hy
    exact h.unique j k x y (.of_rollback hx) (.of_rollback hy)

theorem clean_commit (t : Sid) (s : S) : F.Clean t (Transactional.commit t s) := by
  intro i
  rw [F.get_commit]
  exact commit_writes _ t

/-- Another session with this marker would stand in the same row. -/
theorem Carries.fresh {e : E} (h : F.Carries m mark e t s) (hs : F.Kept m mark s) :
    ¬ F.Marked m mark s e := by
  obtain ⟨k, v, hwrites, hmark, hnone⟩ := h
  rintro ⟨j, x, hx, hxe⟩
  have hv : ((F.table m).get s).writes t k = some v := by
    rw [hwrites]
    exact single_self k v
  have hjk := (hs.unique j k x v (.inl hx) (.of_writes hv)).mp (hxe.trans hmark.symm)
  rw [hjk, hnone] at hx
  cases hx

theorem Carries.publishes {e : E} (h : F.Carries m mark e t s) (hs : F.Kept m mark s) :
    F.Publishes m mark e t s (Transactional.commit t s) where
  fresh := h.fresh hs
  marks := by
    obtain ⟨k, v, hwrites, hmark, hnone⟩ := h
    have hread : ((F.table m).get (Transactional.commit t s)).committed =
        fun j => (single k v j).or (((F.table m).get s).committed j) := by
      rw [F.get_commit, commit_committed]
      funext j
      rw [← hwrites]
      rfl
    intro x
    unfold Marked
    rw [hread]
    constructor
    · rintro ⟨j, u, hu, hx⟩
      by_cases hjk : j = k
      · subst hjk
        simp only [single_self, Option.some_or, Option.some.injEq] at hu
        right
        rw [← hx, ← hu, hmark]
      · simp only [single_of_ne v hjk, Option.none_or] at hu
        exact .inl ⟨j, u, hu, hx⟩
    · rintro (⟨j, u, hu, hx⟩ | rfl)
      · have hjk : j ≠ k := by
          rintro rfl
          rw [hnone] at hu
          cases hu
        exact ⟨j, u, by simp only [single_of_ne v hjk, Option.none_or, hu], hx⟩
      · exact ⟨k, v, by simp only [single_self, Option.some_or], hmark⟩
  whole i k := by
    unfold rows
    rw [F.get_commit]
    rfl

/-- A commit of a session without open writes. -/
theorem Clean.commit_rows (h : F.Clean t s) (i : ι) :
    ((F.table i).get (Transactional.commit t s)).committed = ((F.table i).get s).committed := by
  rw [F.get_commit, commit_committed]
  funext k
  rw [read_of_not_written]
  rw [h i]
  rfl

end Markers

/-! ## Handlers -/

section Handlers

variable (F) (m : ι)

/-- No other session has open writes. -/
structure Alone (t : Sid) (s : S) : Prop where
  bounded : ∀ i, ((F.table i).get s).Bounded
  others : ∀ o, o ≠ t → F.Clean o s

/-- When the session is alone, every statement answers. -/
def Prompt : Prog S ε β → Prop
  | .ret _ => True
  | .raise _ => True
  | .stmt run k => ∀ t s, F.Alone t s → ∃ b s', run t s = some (b, s') ∧ F.Alone t s' ∧
      Prompt (k b)

/-- What an event does beside its marker: no statement moves a committed row or touches the
markers, and none waits if the session is alone. -/
def Handler : Prog S ε β → Prop
  | .ret _ => True
  | .raise _ => True
  | .stmt run k => ∀ t s, (∀ i, ((F.table i).get s).Bounded) →
      (F.Alone t s → run t s ≠ none) ∧
      ∀ b s', run t s = some (b, s') → F.Aside m t s s' ∧ Handler (k b)

variable {F m}

theorem Alone.quiet (h : F.Alone t s) (hquiet : F.Quiet t s s') : F.Alone t s' where
  bounded i := hquiet.bounded i (h.bounded i)
  others o ho i := ((hquiet.frame i).writes_eq ho).trans (h.others o ho i)

theorem Alone.unlocked (h : F.Alone t s) (i : ι) (k : Nat) :
    ((F.table i).get s).lockedFor t k = false := by
  rw [lockedFor_eq_false]
  intro o v hk
  by_contra ho
  have hwrites := congrFun (h.others o ho i) k
  rw [writes_eq_some.mpr hk] at hwrites
  cases hwrites

theorem Alone.foreign_nil (h : F.Alone t s) (i : ι) : ((F.table i).get s).foreign t = [] := by
  unfold foreign
  rw [List.filterMap_eq_nil_iff]
  intro k _
  rw [h.unlocked i k]
  rfl

theorem Prompt.exec {p : Prog S ε β} (h : F.Prompt p) (halone : F.Alone t s) :
    ∃ r s', p.exec t s = some (r, s') := by
  induction p generalizing s with
  | ret b => exact ⟨_, _, rfl⟩
  | raise e => exact ⟨_, _, rfl⟩
  | stmt run k ih =>
      obtain ⟨b, s', hrun, halone', hk⟩ := h t s halone
      obtain ⟨r, s'', hx⟩ := ih b hk halone'
      refine ⟨r, s'', ?_⟩
      simp only [Prog.exec, hrun]
      exact hx

theorem handler_bind {p : Prog S ε β} {g : β → Prog S ε γ} (h : F.Handler m p)
    (hg : ∀ b, F.Handler m (g b)) : F.Handler m (p >>= g) := by
  induction p with
  | ret b => exact hg b
  | raise e => exact trivial
  | stmt run k ih =>
      intro t s hbounded
      obtain ⟨hanswers, hk⟩ := h t s hbounded
      refine ⟨hanswers, fun b s' hrun => ?_⟩
      obtain ⟨haside, hrest⟩ := hk b s' hrun
      exact ⟨haside, ih b hrest⟩

theorem handler_stmt {run : Sid → S → Option (β × S)}
    (hanswers : ∀ t s, F.Alone t s → run t s ≠ none)
    (h : ∀ t s b s', (∀ i, ((F.table i).get s).Bounded) → run t s = some (b, s') →
      F.Aside m t s s') :
    F.Handler m (Prog.stmt run Prog.ret : Prog S ε β) :=
  fun t s hb => ⟨hanswers t s, fun b s' hrun => ⟨h t s b s' hb hrun, trivial⟩⟩

theorem aside_refl (t : Sid) (s : S) : F.Aside m t s s := ⟨quiet_of_eq fun _ => rfl, rfl⟩

theorem handler_query (f : Sid → S → β) : F.Handler m (query f : Prog S ε β) := by
  refine handler_stmt (fun t s _ => Option.some_ne_none _) fun t s b s' _ hrun => ?_
  cases hrun
  exact aside_refl t s

section Tables

variable [DecidableEq ι] {i : ι} (hi : m ≠ i)

include hi

theorem aside_set {T : Table (F.Row i)} (hframe : Table.Frame t ((F.table i).get s) T)
    (hrows : T.committed = ((F.table i).get s).committed)
    (hbounded : ((F.table i).get s).Bounded → T.Bounded) :
    F.Aside m t s ((F.table i).set s T) :=
  ⟨quiet_set hframe hrows hbounded, F.get_set_ne i m s T hi⟩

theorem handler_updateWhere (k : Nat) (p : F.Row i → Bool) (f : F.Row i → F.Row i) :
    F.Handler m (updateWhere (F.table i) k p f : Prog S ε (Option (F.Row i))) := by
  refine handler_stmt (fun t s halone => ?_) fun t s b s' hbounded hrun => ?_
  · unfold runUpdate
    rw [halone.unlocked i k]
    split
    · exact Option.some_ne_none _
    · split
      · exact Option.some_ne_none _
      · exact Option.some_ne_none _
  · cases b with
    | none =>
        obtain ⟨rfl, -⟩ := runUpdate_none hrun
        exact aside_refl t s'
    | some v' =>
        obtain ⟨v, hread, -, hlock, -, rfl⟩ := runUpdate_some hrun
        exact aside_set hi (write_frame _ hlock) rfl fun hb => hb.write _ (hb.lt_of_read hread)

theorem handler_update (k : Nat) (f : F.Row i → F.Row i) :
    F.Handler m (update (F.table i) k f : Prog S ε (Option (F.Row i))) :=
  handler_updateWhere hi k _ f

theorem handler_selectForUpdate (k : Nat) :
    F.Handler m (selectForUpdate (F.table i) k : Prog S ε (Option (F.Row i))) := by
  refine handler_stmt (fun t s halone => ?_) fun t s b s' hbounded hrun => ?_
  · unfold runForUpdate
    rw [halone.unlocked i k]
    split
    · exact Option.some_ne_none _
    · exact Option.some_ne_none _
  · cases b with
    | none =>
        obtain ⟨rfl, -⟩ := runForUpdate_none hrun
        exact aside_refl t s'
    | some v =>
        obtain ⟨hread, hlock, rfl⟩ := runForUpdate_some hrun
        exact aside_set hi (write_frame _ hlock) rfl fun hb => hb.write _ (hb.lt_of_read hread)

theorem handler_insert (row : Nat → F.Row i) :
    F.Handler m (Sql.insert (F.table i) row : Prog S ε Nat) := by
  refine handler_stmt (fun t s _ => Option.some_ne_none _) fun t s b s' hbounded hrun => ?_
  cases hrun
  exact aside_set hi (insert_frame (hbounded i) _) rfl fun hb => hb.insert t _

theorem handler_insertUnique (c : F.Row i → Bool) (row : Sid → F.Row i) :
    F.Handler m (insertUnique (F.table i) c row : Prog S ε (Option Nat)) := by
  refine handler_stmt (fun t s halone => ?_) fun t s b s' hbounded hrun => ?_
  · unfold runInsertUnique
    rw [halone.foreign_nil i]
    split
    · exact Option.some_ne_none _
    · exact Option.some_ne_none _
  · cases b with
    | none =>
        rw [runInsertUnique_none hrun]
        exact aside_refl t s
    | some n =>
        obtain ⟨-, -, -, rfl⟩ := runInsertUnique_some hrun
        exact aside_set hi (insert_frame (hbounded i) _) rfl fun hb => hb.insert t _

end Tables

section Taking

variable [DecidableEq ι] (i : ι)

end Taking

end Handlers

/-! ## The discipline -/

section Discipline

variable (F) (m : ι) (mark : Nat → F.Row m → E) (event : C → E) (guarded : C → Prop)

/-- A step moves no committed row, or it publishes the event of its call.  A guarded call that
returns has its event marked. -/
def marking : Discipline S ε α C where
  Inv s := F.Kept m mark s
  Guar a t s s' := (∀ i, Table.Frame t ((F.table i).get s) ((F.table i).get s')) ∧
    ((∀ i, ((F.table i).get s').committed = ((F.table i).get s).committed) ∨
      F.Publishes m mark (event a) t s s')
  Idle t s := F.Clean t s
  Done _ a r s := ∀ b, r = .ok b → guarded a → F.Marked m mark s (event a)
  guar_refl _ t s _ := ⟨fun i => .refl t _, .inl fun _ => rfl⟩
  idle_keep _ t o s s' ho _ hg hidle i := ((hg.1 i).writes_eq ho).trans (hidle i)
  done_keep a t o b r s s' _ hg _ hdone := by
    intro x hx hb
    have hmarked := hdone x hx hb
    rcases hg.2 with hsame | hpublishes
    · exact (marked_congr (hsame m)).mpr hmarked
    · exact (hpublishes.marks _).mpr (.inl hmarked)
  rollback_inv t s h := h.rollback t
  rollback_guar _ t s _ := by
    refine ⟨fun i => ?_, .inl fun i => ?_⟩
    · rw [F.get_rollback]
      exact rollback_frame t _
    · rw [F.get_rollback]
      rfl
  rollback_idle t s i := by
    rw [F.get_rollback]
    exact rollback_writes _ t

end Discipline

/-! ## Rules of the statements -/

section Rules

variable {m : ι} {mark : Nat → F.Row m → E} {event : C → E} {guarded : C → Prop}
  {adm : S → S → Prop} {a : C} {e : E}

/-- The session has no marker among its writes. -/
def Bare (F : Family S ι) (m : ι) (t : Sid) (s : S) : Prop :=
  ((F.table m).get s).writes t = noRows

theorem Clean.bare (h : F.Clean t s) (m : ι) : F.Bare m t s := h m

theorem bare_stable : (F.marking (ε := ε) (α := α) m mark event guarded).Stable t
    fun s => F.Bare m t s :=
  fun _ _ _ _ ho _ hg _ h => ((hg.1 m).writes_eq ho.symm).trans h

theorem carries_stable : (F.marking (ε := ε) (α := α) m mark event guarded).Stable t
    fun s => F.Carries m mark e t s := by
  intro b o s s' ho _ hg _ h
  obtain ⟨k, v, hwrites, hmark, hnone⟩ := h
  have hv : ((F.table m).get s).writes t k = some v := by
    rw [hwrites]
    exact single_self k v
  refine ⟨k, v, ((hg.1 m).writes_eq ho.symm).trans hwrites, hmark, ?_⟩
  rw [(hg.1 m).committed_eq ho.symm hv]
  exact hnone

theorem marked_stable : (F.marking (ε := ε) (α := α) m mark event guarded).Stable t
    fun s => F.Marked m mark s e := by
  intro b o s s' _ _ hg _ h
  rcases hg.2 with hsame | hpublishes
  · exact (marked_congr (hsame m)).mpr h
  · exact (hpublishes.marks e).mpr (.inl h)

theorem Bare.aside (h : F.Bare m t s) (haside : F.Aside m t s s') : F.Bare m t s' := by
  unfold Bare
  rw [haside.markers]
  exact h

theorem Carries.aside (h : F.Carries m mark e t s) (haside : F.Aside m t s s') :
    F.Carries m mark e t s' := by
  unfold Carries
  rw [haside.markers]
  exact h

theorem Marked.aside (h : F.Marked m mark s e) (haside : F.Aside m t s s') :
    F.Marked m mark s' e := by
  unfold Marked
  rw [haside.markers]
  exact h

/-- Statements that leave the markers alone, under an assertion about the markers. -/
theorem safe_handler {A : S → Prop}
    (hstable : (F.marking (ε := ε) (α := α) m mark event guarded).Stable t A)
    (hA : ∀ s s', F.Aside m t s s' → A s → A s') {p : Prog S ε β} (hp : F.Handler m p)
    (hs : F.Kept m mark s) (h : A s) :
    Safe (F.marking (α := α) m mark event guarded) adm a t
      (Returns fun _ u => F.Kept m mark u ∧ A u) p s := by
  induction p generalizing s with
  | ret b => exact ⟨hs, h⟩
  | raise e => exact trivial
  | stmt run k ih =>
      intro b s' hrun _
      obtain ⟨haside, hk⟩ := (hp t s hs.bounded).2 b s' hrun
      have hs' := hs.quiet haside
      refine ⟨hs', ⟨haside.frame, .inl haside.rows⟩, fun u hrely => ?_⟩
      exact ih b hk (hrely.inv hs') (hstable.rely hrely (hA s s' haside h))

/-- A commit without open writes. -/
theorem safe_commit_clean (hs : F.Kept m mark s) (hclean : F.Clean t s)
    (hmarked : F.Marked m mark s e) :
    Safe (F.marking (α := α) m mark event guarded) adm a t
      (Returns fun _ u => F.Kept m mark u ∧ F.Marked m mark u e) (commit : Prog S ε Unit) s := by
  intro b s' hrun _
  cases hrun
  have hs' := hs.commit t
  refine ⟨hs', ⟨fun i => ?_, .inl hclean.commit_rows⟩, fun u hrely => ?_⟩
  · rw [F.get_commit]
    exact commit_frame t _
  · exact ⟨hrely.inv hs', marked_stable.rely hrely
      ((marked_congr (hclean.commit_rows m)).mpr hmarked)⟩

/-- The commit of a transaction that carries the marker of its call. -/
theorem safe_publish (hs : F.Kept m mark s) (h : F.Carries m mark (event a) t s) :
    Safe (F.marking (α := α) m mark event guarded) adm a t
      (Returns fun _ u => F.Kept m mark u ∧ F.Clean t u ∧ F.Marked m mark u (event a))
      (commit : Prog S ε Unit) s := by
  intro b s' hrun _
  cases hrun
  have hs' := hs.commit t
  have hpublishes := h.publishes hs
  refine ⟨hs', ⟨fun i => ?_, .inr hpublishes⟩, fun u hrely => ?_⟩
  · rw [F.get_commit]
    exact commit_frame t _
  · refine ⟨hrely.inv hs', ?_, marked_stable.rely hrely ((hpublishes.marks _).mpr (.inr rfl))⟩
    exact ((F.marking m mark event guarded).idle_stable t).rely hrely (clean_commit t s)

end Rules

/-! ## Taking the marker -/

section Claims

variable [DecidableEq ι] {m : ι} {guarded : C → Prop} {adm : S → S → Prop} {a : C}

/-- A marker that is the key of its row. -/
theorem safe_claimKey {event : C → Nat} {k : Nat} {v : F.Row m}
    (hs : F.Kept m (fun k _ => k) s) (hbare : F.Bare m t s) :
    Safe (F.marking (α := α) m (fun k _ => k) event guarded) adm a t
      (Returns fun b u => F.Kept m (fun k _ => k) u ∧
        (b = true → F.Carries m (fun k _ => k) k t u))
      (insertKey (F.table m) k v : Prog S ε Bool) s := by
  intro b s' hrun _
  cases b with
  | false =>
      obtain ⟨rfl, -⟩ := runInsertKey_false hrun
      refine ⟨hs, (F.marking m _ event guarded).guar_refl a t _ hs, fun u hrely => ?_⟩
      exact ⟨hrely.inv hs, fun h => by cases h⟩
  | true =>
      obtain ⟨hread, hlock, rfl⟩ := runInsertKey_true hrun
      have hnone : ((F.table m).get s).committed k = none := by
        rw [← hread, read_of_not_written]
        rw [hbare]
        rfl
      have hquiet : F.Quiet t s ((F.table m).set s (((F.table m).get s).insertAt t k v)) :=
        quiet_set (insertAt_frame v hlock) rfl fun hb => hb.insertAt t k v
      have hs' : F.Kept m (fun k _ => k)
          ((F.table m).set s (((F.table m).get s).insertAt t k v)) :=
        ⟨fun i => hquiet.bounded i (hs.bounded i), fun _ _ _ _ _ _ => Iff.rfl⟩
      have hcarries : F.Carries m (fun k _ => k) k t
          ((F.table m).set s (((F.table m).get s).insertAt t k v)) := by
        refine ⟨k, v, ?_, rfl, ?_⟩
        · rw [F.get_set_self, insertAt_writes, hbare]
          rfl
        · rw [F.get_set_self]
          exact hnone
      refine ⟨hs', ⟨hquiet.frame, .inl hquiet.rows⟩, fun u hrely => ?_⟩
      exact ⟨hrely.inv hs', fun _ => carries_stable.rely hrely hcarries⟩

end Claims

end Family

/-! ## Programs that check first and mark last -/

/-- An event whose marker is there is left alone.  Else the handler runs, and the marker is
committed with what it has written. -/
def checked {S ε α V : Type} [Transactional S] (T : Access S V) (k : Nat) (v : V) (taken : ε)
    (handler : Prog S ε Unit) (result : α) : Prog S ε α := do
  match ← selectKey T k with
  | some _ => return result
  | none => do
      handler
      match ← insertKey T k v with
      | false => .raise taken
      | true => do
          commit
          return result

namespace Family

variable {S ι E ε α β C : Type} [Transactional S] {F : Family S ι} {t : Sid} {s : S}

section Checked

variable [DecidableEq ι] {m : ι} {event : C → Nat} {guarded : C → Prop}
  {adm : S → S → Prop} {a : C}

omit [DecidableEq ι] in
/-- The look at the marker of a session that has written nothing. -/
theorem safe_lookup (k : Nat) (hs : F.Kept m (fun k _ => k) s) (hclean : F.Clean t s) :
    Safe (F.marking (α := α) m (fun k _ => k) event guarded) adm a t
      (Returns fun b u => F.Kept m (fun k _ => k) u ∧ F.Bare m t u ∧
        (b ≠ none → F.Marked m (fun k _ => k) u k))
      (selectKey (F.table m) k : Prog S ε (Option (F.Row m))) s := by
  intro b s' hrun _
  cases hrun
  refine ⟨hs, (F.marking m _ event guarded).guar_refl a t _ hs, fun u hrely => ?_⟩
  refine ⟨hrely.inv hs, bare_stable.rely hrely (hclean.bare m), fun hfound => ?_⟩
  obtain ⟨v, hv⟩ := Option.ne_none_iff_exists'.mp hfound
  have hcommitted : ((F.table m).get s).committed k = some v := by
    rw [← hv]
    show _ = ((F.table m).get s).read t k
    rw [read_of_not_written]
    rw [hclean m]
    rfl
  have hmarked : F.Marked m (fun k _ => k) s k := ⟨k, v, hcommitted, rfl⟩
  exact marked_stable.rely hrely hmarked

end Checked

/-! ## Runs -/

section Runs

variable (F) (m : ι) (mark : Nat → F.Row m → E) (event : C → E) (guarded : C → Prop)

/-- A store without open transactions. -/
structure Starts (s : S) : Prop where
  kept : F.Kept m mark s
  clean : ∀ o, F.Clean o s

variable {F m mark event guarded} {body : C → Prog S ε α}

end Runs

end Family

end Sql
