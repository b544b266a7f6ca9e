/-
Stores of several tables, and the discipline of their transactions.

A `Schema` views a store as its committed rows and, for every session, the rows
the session has written.  A `Commit` relation says which write sets a call may
publish over which rows, and `WellFormed` is an invariant of the rows that every
commit keeps.  They make a discipline: a step leaves the locks of the other
sessions alone, and keeps the committed rows or publishes an allowed write set.

`Drift W w w'` is what the others may do to the committed rows while a session
holds the locks of `W`.  The rules at the end take a program apart statement by
statement.
-/
import Rcp.Sql.Schedule

namespace Sql

open Table Relation

/-- A row lock has one holder. -/
theorem Table.writes_exclusive {V : Type} {T : Table V} {t o : Sid} (h : o ≠ t) {k : Nat} {v : V}
    (hk : T.writes t k = some v) : T.writes o k = none := by
  rw [writes_eq_some] at hk
  simp [Table.writes, hk, h.symm]

structure Schema (S R : Type) [Transactional S] where
  rows : S → R
  writes : Sid → S → R
  nothing : R
  /-- The rows of the second argument with the first published over them. -/
  overlay : R → R → R
  /-- No row is written by both. -/
  Apart : R → R → Prop
  Frame : Sid → S → S → Prop
  Bounded : S → Prop
  nothing_over : ∀ w, overlay nothing w = w
  writes_apart : ∀ t o s, o ≠ t → Apart (writes t s) (writes o s)
  frame_refl : ∀ t s, Frame t s s
  frame_writes : ∀ t o s s', Frame t s s' → o ≠ t → writes o s' = writes o s
  commit_rows : ∀ t s, rows (Transactional.commit t s) = overlay (writes t s) (rows s)
  commit_writes : ∀ t s, writes t (Transactional.commit t s) = nothing
  commit_frame : ∀ t s, Frame t s (Transactional.commit t s)
  commit_bounded : ∀ t s, Bounded s → Bounded (Transactional.commit t s)
  rollback_rows : ∀ t s, rows (Transactional.rollback t s) = rows s
  rollback_writes : ∀ t s, writes t (Transactional.rollback t s) = nothing
  rollback_frame : ∀ t s, Frame t s (Transactional.rollback t s)
  rollback_bounded : ∀ t s, Bounded s → Bounded (Transactional.rollback t s)

variable {S R ε α C : Type} [Transactional S]

/-- What the calls of a service may commit. -/
structure Policy (R C : Type) where
  Commit : C → R → R → Prop
  WellFormed : R → Prop

section Drift

variable (M : Schema S R) (P : Policy R C)

inductive Drift (W : R) : R → R → Prop
  | refl (w : R) : Drift W w w
  | step {w w' W' : R} {a : C} (h : Drift W w w') (hw : P.WellFormed w')
      (hc : P.Commit a w' W') (hapart : M.Apart W W') : Drift W w (M.overlay W' w')

variable {M P} {W w w' w'' : R}

theorem Drift.trans (h : Drift M P W w w') (h' : Drift M P W w' w'') : Drift M P W w w'' := by
  induction h' with
  | refl => exact h
  | step _ hw hc hapart ih => exact .step ih hw hc hapart

/-- A relation between rows that every commit keeps. -/
theorem Drift.lift {Keeps : R → R → Prop} (h : Drift M P W w w') (hrefl : Keeps w w)
    (hstep : ∀ a u W', P.WellFormed u → P.Commit a u W' → M.Apart W W' → Keeps w u →
      Keeps w (M.overlay W' u)) : Keeps w w' := by
  induction h with
  | refl => exact hrefl
  | step _ hw hc hapart ih => exact hstep _ _ _ hw hc hapart ih

end Drift

/-- The commits keep the invariant of the rows. -/
def Policy.Lawful (P : Policy R C) (M : Schema S R) : Prop :=
  ∀ a w W, P.Commit a w W → P.WellFormed w → P.WellFormed (M.overlay W w)

/-- What is known of an ended call, which every commit keeps. -/
structure Ensures (M : Schema S R) (P : Policy R C) (ε α : Type) where
  Done : Sid → C → Except ε α → R → Prop
  keep : ∀ a w W t b r, P.WellFormed w → P.Commit a w W → Done t b r w → Done t b r (M.overlay W w)

def Ensures.nothing (M : Schema S R) (P : Policy R C) : Ensures M P ε α where
  Done _ _ _ _ := True
  keep _ _ _ _ _ _ _ _ _ := trivial

theorem Ensures.drift {M : Schema S R} {P : Policy R C} (E : Ensures M P ε α) {W w w' : R}
    {t : Sid} {b : C} {r : Except ε α} (h : Drift M P W w w') (hw : E.Done t b r w) :
    E.Done t b r w' := by
  induction h with
  | refl => exact hw
  | step _ hwf hc _ ih => exact E.keep _ _ _ t b r hwf hc ih

def Schema.discipline (M : Schema S R) (P : Policy R C) (E : Ensures M P ε α) :
    Discipline S ε α C where
  Inv s := M.Bounded s ∧ P.WellFormed (M.rows s)
  Guar a t s s' := M.Frame t s s' ∧ (M.rows s' = M.rows s ∨
    (P.Commit a (M.rows s) (M.writes t s) ∧
      M.rows s' = M.overlay (M.writes t s) (M.rows s)))
  Idle t s := M.writes t s = M.nothing
  Done t a r s := E.Done t a r (M.rows s)
  guar_refl _ t s _ := ⟨M.frame_refl t s, .inl rfl⟩
  idle_keep _ t o s s' ho _ hg hidle := (M.frame_writes t o s s' hg.1 ho).trans hidle
  done_keep a t o b r s s' hi hg _ hdone := by
    rcases hg.2 with heq | ⟨hc, heq⟩
    · rw [heq]
      exact hdone
    · rw [heq]
      exact E.keep a _ _ o b r hi.2 hc hdone
  rollback_inv t s h := ⟨M.rollback_bounded t s h.1, (M.rollback_rows t s).symm ▸ h.2⟩
  rollback_guar _ t s _ := ⟨M.rollback_frame t s, .inl (M.rollback_rows t s)⟩
  rollback_idle t s := M.rollback_writes t s

/-- What is known of ended calls plays no part in the steps. -/
theorem Safe.ensures {M : Schema S R} {P : Policy R C} {E E' : Ensures M P ε α}
    {adm : S → S → Prop} {a : C} {t : Sid} {β : Type} {Q : Except ε β → S → Prop}
    {p : Prog S ε β} {s : S} (h : Safe (M.discipline P E) adm a t Q p s) :
    Safe (M.discipline P E') adm a t Q p s := by
  induction p generalizing s with
  | ret b => exact h
  | raise e => exact h
  | stmt run k ih =>
      intro b s' hr hadm
      obtain ⟨hi, hg, hk⟩ := h b s' hr hadm
      exact ⟨hi, hg, fun s'' hrely => ih b (hk s'' hrely)⟩

/-- A property of the rows that the commits of admissible steps keep. -/
theorem RunWith.rows_keep {M : Schema S R} {P : Policy R C} {E : Ensures M P ε α}
    {adm : C → S → S → S → Prop} {body : C → Prog S ε α} {J : R → Prop}
    (hD : (M.discipline P E).Verified adm body)
    (hJ : ∀ a s₀ s s' W, P.WellFormed (M.rows s) → M.Bounded s' → P.Commit a (M.rows s) W →
      M.rows s' = M.overlay W (M.rows s) → adm a s₀ s s' → J (M.rows s) →
        J (M.overlay W (M.rows s)))
    {c c' : Config S ε α C} (hc : c.Sound (M.discipline P E) adm)
    (h : RunWith body adm c c') (hs : J (M.rows c.store)) : J (M.rows c'.store) := by
  refine RunWith.keeps hD (P := fun s => J (M.rows s)) ?_ hc h hs
  intro a t s₀ s s' hi hi' hg hadm hs
  rcases hg.2 with heq | ⟨hcommit, heq⟩
  · rw [heq]
    exact hs
  · rw [heq]
    exact hJ a s₀ s s' _ hi.2 hi'.1 hcommit heq hadm hs

/-! ## Resuming after the others -/

/-- Session `t` holds the writes `W`. -/
structure Holding (M : Schema S R) (P : Policy R C) (t : Sid) (W : R) (s : S) : Prop where
  bounded : M.Bounded s
  wellFormed : P.WellFormed (M.rows s)
  writes : M.writes t s = W

/-- What holds of the store when session `t`, holding the writes `W`, takes its
next step after the committed rows were `w`. -/
structure Resumed (M : Schema S R) (P : Policy R C) (t : Sid) (W w : R) (s : S) : Prop
    extends Holding M P t W s where
  drift : Drift M P W w (M.rows s)

section Resumed

variable {M : Schema S R} {P : Policy R C} {E : Ensures M P ε α} {t : Sid} {W w : R} {s u : S}

theorem Holding.inv (h : Holding M P t W s) : (M.discipline P E).Inv s :=
  ⟨h.bounded, h.wellFormed⟩

theorem Holding.resumed (h : Holding M P t W s) : Resumed M P t W (M.rows s) s :=
  ⟨h, .refl _⟩

theorem Resumed.trans (h : Resumed M P t W w s) (h' : Resumed M P t W (M.rows s) u) :
    Resumed M P t W w u :=
  ⟨h'.toHolding, h.drift.trans h'.drift⟩

theorem resumed_of_rely (h : (M.discipline P E).Rely t s u) (hs : Resumed M P t W w s) :
    Resumed M P t W w u := by
  induction h with
  | refl => exact hs
  | @tail v z _ hstep ih =>
      obtain ⟨hi, hi', a, o, ho, hframe, hrows⟩ := hstep
      refine ⟨⟨hi'.1, hi'.2, (M.frame_writes o t v z hframe ho.symm).trans ih.writes⟩, ?_⟩
      rcases hrows with heq | ⟨hc, heq⟩
      · rw [heq]
        exact ih.drift
      · have hapart := M.writes_apart t o v ho
        rw [ih.writes] at hapart
        rw [heq]
        exact .step ih.drift hi.2 hc hapart

end Resumed

/-! ## Calls that run on their own -/

section Chain

variable {M : Schema S R} {P : Policy R C} {E : Ensures M P ε α} {a : C} {t : Sid} {s s' : S}

/-- No session has open writes. -/
def Schema.Settled (M : Schema S R) (s : S) : Prop := ∀ o, M.writes o s = M.nothing

/-- What the steps of a call that runs on its own may do to the rows. -/
theorem chain_keeps {J : R → Prop} (h : (M.discipline P E).Chain a t s s')
    (hJ : ∀ w W, P.WellFormed w → P.Commit a w W → J w → J (M.overlay W w))
    (hs : J (M.rows s)) : J (M.rows s') := by
  induction h with
  | refl => exact hs
  | tail _ hstep ih =>
      obtain ⟨hi, -, -, hrows⟩ := hstep
      rcases hrows with heq | ⟨hc, heq⟩
      · rw [heq]
        exact ih
      · rw [heq]
        exact hJ _ _ hi.2 hc ih

theorem chain_settled (hs : M.Settled s) (h : (M.discipline P E).Chain a t s s') {o : Sid}
    (ho : o ≠ t) : M.writes o s' = M.nothing := by
  induction h with
  | refl => exact hs o
  | tail _ hstep ih =>
      obtain ⟨-, -, hframe, -⟩ := hstep
      exact (M.frame_writes t o _ _ hframe ho).trans ih

/-- A call that runs on its own is a chain of guaranteed steps. -/
theorem call_chain {body : C → Prog S ε α} {r : Except ε α}
    (hD : (M.discipline P E).Verified (fun _ _ _ _ => True) body)
    (hi : (M.discipline P E).Inv s) (hs : M.Settled s)
    (h : (body a).call t s = some (r, s')) :
    (M.discipline P E).Inv s' ∧ M.Settled s' ∧ ∃ s₁, (body a).exec t s = some (r, s₁) ∧
      M.rows s' = M.rows s₁ ∧ (M.discipline P E).Chain a t s s₁ := by
  simp only [Prog.call, Option.map_eq_some_iff, Prod.mk.injEq] at h
  obtain ⟨⟨r', s₁⟩, hx, rfl, rfl⟩ := h
  have hsafe := hD a t s hi (hs t)
  obtain ⟨hi₁, -, hchain⟩ := hsafe.exec hi hx
  refine ⟨(M.discipline P E).rollback_inv t s₁ hi₁, fun o => ?_, s₁, hx,
    M.rollback_rows t s₁, hchain⟩
  by_cases ho : o = t
  · subst ho
    exact M.rollback_writes o s₁
  · exact (M.frame_writes t o _ _ (M.rollback_frame t s₁) ho).trans (chain_settled hs hchain ho)

theorem calls_sound {body : C → Prog S ε α} {l : List C} {J : R → Prop}
    (hD : (M.discipline P E).Verified (fun _ _ _ _ => True) body)
    (hJ : ∀ a w W, P.WellFormed w → P.Commit a w W → J w → J (M.overlay W w))
    (hi : (M.discipline P E).Inv s) (hs : M.Settled s) (hw : J (M.rows s))
    (h : calls body l t s = some s') :
    (M.discipline P E).Inv s' ∧ M.Settled s' ∧ J (M.rows s') := by
  induction l generalizing t s with
  | nil =>
      cases h
      exact ⟨hi, hs, hw⟩
  | cons a rest ih =>
      simp only [calls] at h
      split at h
      · cases h
      · rename_i r s₁ hcall
        obtain ⟨hi₁, hs₁, s₂, -, hrows, hchain⟩ := call_chain hD hi hs hcall
        refine ih hi₁ hs₁ ?_ h
        rw [hrows]
        exact chain_keeps hchain (hJ a) hw

end Chain

/-! ## Columns

The rules of the statements are the same for every table.  A column ties a table
of the store to its part of the rows. -/

/-- A step that moves no committed row. -/
structure Quiet (M : Schema S R) (t : Sid) (s s' : S) : Prop where
  frame : M.Frame t s s'
  rows : M.rows s' = M.rows s
  bounded : M.Bounded s → M.Bounded s'

theorem Quiet.refl (M : Schema S R) (t : Sid) (s : S) : Quiet M t s s :=
  ⟨M.frame_refl t s, rfl, id⟩

structure Column (M : Schema S R) (V : Type) where
  access : Access S V
  /-- An invariant of the table besides that of its keys. -/
  Coherent : Table V → Prop
  get : R → Nat → Option V
  put : (Nat → Option V) → R → R
  get_rows : ∀ s, get (M.rows s) = (access.get s).committed
  get_writes : ∀ t s, get (M.writes t s) = (access.get s).writes t
  get_nothing : ∀ k, get M.nothing k = none
  get_over : ∀ W w k, get (M.overlay W w) k = (get W k).or (get w k)
  apart : ∀ W W' k v, M.Apart W W' → get W k = some v → get W' k = none
  bounded : ∀ s, M.Bounded s → (access.get s).Bounded
  coherent : ∀ s, M.Bounded s → Coherent (access.get s)
  set_writes : ∀ t s T, M.writes t (access.set s T) = put (T.writes t) (M.writes t s)
  set_quiet : ∀ t s T, Table.Frame t (access.get s) T → T.committed = (access.get s).committed →
    (M.Bounded s → T.Bounded ∧ Coherent T) → Quiet M t s (access.set s T)

namespace Column

variable {M : Schema S R} {P : Policy R C} {V : Type} (K : Column M V) {t : Sid} {s : S}

/-- A new version `f v` of a row keeps the table coherent. -/
def Updates (f : V → V) : Prop :=
  ∀ (T : Table V) (t : Sid) (k : Nat) (v : V), T.read t k = some v → K.Coherent T →
    K.Coherent (T.write t k (f v))

/-- A new row keeps the table coherent. -/
def Inserts (row : Nat → V) : Prop :=
  ∀ (T : Table V) (t : Sid), T.Bounded → K.Coherent T → K.Coherent (T.insert t (row T.next))

/-- A new row that no other conflicts with keeps the table coherent. -/
def InsertsUnique (c : V → Bool) (row : Sid → V) : Prop :=
  ∀ (T : Table V) (t : Sid), T.Bounded → K.Coherent T → (∀ r ∈ T.scan t, c r.2 = false) →
    (∀ u ∈ T.foreign t, c u = false) → K.Coherent (T.insert t (row t))

section Free

variable {K}

/-- A table of which nothing is asked may be changed in any way. -/
theorem Updates.free {f : V → V} (h : ∀ T, K.Coherent T) : K.Updates f :=
  fun _ _ _ _ _ _ => h _

theorem Inserts.free {row : Nat → V} (h : ∀ T, K.Coherent T) : K.Inserts row :=
  fun _ _ _ _ => h _

theorem InsertsUnique.free {c : V → Bool} {row : Sid → V} (h : ∀ T, K.Coherent T) :
    K.InsertsUnique c row :=
  fun _ _ _ _ _ _ => h _

end Free

theorem read_eq (t : Sid) (s : S) (k : Nat) :
    (K.access.get s).read t k = K.get (M.overlay (M.writes t s) (M.rows s)) k := by
  rw [K.get_over, K.get_writes, K.get_rows]
  rfl

theorem mem_scan (hb : M.Bounded s) {k : Nat} {v : V} :
    (k, v) ∈ (K.access.get s).scan t ↔
      K.get (M.overlay (M.writes t s) (M.rows s)) k = some v := by
  rw [Table.mem_scan (K.bounded s hb), K.read_eq]

/-- The session locks row `k` with a new version. -/
theorem write_quiet (k : Nat) (v : V) {u : V} (hr : (K.access.get s).read t k = some u)
    (hl : (K.access.get s).lockedFor t k = false)
    (hc : K.Coherent (K.access.get s) → K.Coherent ((K.access.get s).write t k v)) :
    Quiet M t s (K.access.set s ((K.access.get s).write t k v)) :=
  K.set_quiet t s _ (write_frame v hl) rfl fun hb =>
    ⟨(K.bounded s hb).write v ((K.bounded s hb).lt_of_read hr), hc (K.coherent s hb)⟩

theorem write_writes (k : Nat) (v : V) :
    M.writes t (K.access.set s ((K.access.get s).write t k v)) =
      K.put (Function.update (K.get (M.writes t s)) k (some v)) (M.writes t s) := by
  rw [K.set_writes, Table.write_writes, K.get_writes]

theorem insert_quiet (hb : M.Bounded s) (v : V)
    (hc : K.Coherent (K.access.get s) → K.Coherent ((K.access.get s).insert t v)) :
    Quiet M t s (K.access.set s ((K.access.get s).insert t v)) :=
  K.set_quiet t s _ (insert_frame (K.bounded s hb) v) rfl
    fun hb => ⟨(K.bounded s hb).insert t v, hc (K.coherent s hb)⟩

theorem insert_writes (v : V) :
    M.writes t (K.access.set s ((K.access.get s).insert t v)) =
      K.put (Function.update (K.get (M.writes t s)) (K.access.get s).next (some v))
        (M.writes t s) := by
  rw [K.set_writes, Table.insert_writes, K.get_writes]

/-- The key an insertion draws is new. -/
theorem next_fresh (hb : M.Bounded s) : K.get (M.rows s) (K.access.get s).next = none := by
  rw [K.get_rows]
  exact (K.bounded s hb _ (Nat.le_refl _)).1

theorem next_unwritten (hb : M.Bounded s) :
    K.get (M.writes t s) (K.access.get s).next = none := by
  rw [K.get_writes]
  exact (K.bounded s hb).writes_eq_none (Nat.le_refl _)

/-- The key an insertion draws is the greatest. -/
theorem next_above (hb : M.Bounded s) : Above (K.get (M.rows s)) (K.access.get s).next := by
  rw [K.get_rows]
  exact (K.bounded s hb).above

theorem next_above_writes (hb : M.Bounded s) :
    Above (K.get (M.writes t s)) (K.access.get s).next := by
  intro j v hj
  rw [K.get_writes] at hj
  by_contra hge
  rw [(K.bounded s hb).writes_eq_none (Nat.le_of_not_lt hge)] at hj
  cases hj

end Column

section Locked

variable {M : Schema S R} {P : Policy R C} {V : Type} {t : Sid} {W w w' : R} {s : S}

theorem Holding.read_eq (h : Holding M P t W s) (K : Column M V) (k : Nat) :
    (K.access.get s).read t k = K.get (M.overlay W (M.rows s)) k := by
  rw [K.read_eq, h.writes]

/-- A locked row keeps its committed version. -/
theorem Drift.locked (h : Drift M P W w w') (K : Column M V) {k : Nat} {v : V}
    (hk : K.get W k = some v) : K.get w' k = K.get w k := by
  induction h with
  | refl => rfl
  | step _ _ hc hapart ih =>
      rw [← ih, K.get_over, K.apart _ _ k v hapart hk, Option.none_or]

theorem Resumed.locked (h : Resumed M P t W w s) (K : Column M V) {k : Nat} {v : V}
    {r : Option V} (hW : K.get W k = some v) (hr : K.get w k = r) :
    K.get (M.rows s) k = r :=
  (h.drift.locked K hW).trans hr

end Locked

/-! ## Rules of the statements

Each rule leaves the rest of the program to be shown safe from every store in
which the session may resume. -/

section Rules

variable {M : Schema S R} {P : Policy R C} {E : Ensures M P ε α} {adm : S → S → Prop} {a : C}
  {t : Sid} {γ : Type}
  {Q : Except ε γ → S → Prop} {W : R} {s : S}

theorem safe_quiet {β : Type} {run : Sid → S → Option (β × S)} {g : β → Prog S ε γ}
    (hi : (M.discipline P E).Inv s)
    (h : ∀ b s', run t s = some (b, s') → Quiet M t s s' ∧
      ∀ u, Resumed M P t (M.writes t s') (M.rows s) u →
        Safe (M.discipline P E) adm a t Q (g b) u) :
    Safe (M.discipline P E) adm a t Q (Prog.stmt run Prog.ret >>= g) s := by
  intro b s' hr _
  obtain ⟨hq, hk⟩ := h b s' hr
  have hi' : (M.discipline P E).Inv s' := ⟨hq.bounded hi.1, hq.rows.symm ▸ hi.2⟩
  refine ⟨hi', ⟨hq.frame, .inl hq.rows⟩, fun u hrely => hk u ?_⟩
  have hself : Resumed M P t (M.writes t s') (M.rows s) s' := by
    rw [← hq.rows]
    exact Holding.resumed ⟨hi'.1, hi'.2, rfl⟩
  exact resumed_of_rely hrely hself

theorem safe_query {β : Type} {f : Sid → S → β} {g : β → Prog S ε γ}
    (hs : Holding M P t W s)
    (h : ∀ u, Resumed M P t W (M.rows s) u →
      Safe (M.discipline P E) adm a t Q (g (f t s)) u) :
    Safe (M.discipline P E) adm a t Q (query f >>= g) s := by
  obtain ⟨hb, hwf, rfl⟩ := hs
  refine safe_quiet ⟨hb, hwf⟩ fun b s' hr => ?_
  cases hr
  exact ⟨.refl M t s, h⟩

variable {V : Type} (K : Column M V)

theorem safe_selectKey {k : Nat} {g : Option V → Prog S ε γ}
    (hs : Holding M P t W s)
    (h : ∀ u, Resumed M P t W (M.rows s) u →
      Safe (M.discipline P E) adm a t Q
        (g (K.get (M.overlay W (M.rows s)) k)) u) :
    Safe (M.discipline P E) adm a t Q (selectKey K.access k >>= g) s := by
  refine safe_query hs fun u hu => ?_
  rw [hs.read_eq K]
  exact h u hu

theorem safe_update {k : Nat} {p : V → Bool} {f : V → V} {g : Option V → Prog S ε γ}
    (hs : Holding M P t W s) (hf : K.Updates f)
    (hnone : (∀ v, K.get (M.overlay W (M.rows s)) k = some v → p v = false) →
      ∀ u, Resumed M P t W (M.rows s) u →
        Safe (M.discipline P E) adm a t Q (g none) u)
    (hsome : ∀ v, K.get (M.overlay W (M.rows s)) k = some v → p v = true →
      ∀ u, Resumed M P t (K.put (Function.update (K.get W) k (some (f v)))
        W) (M.rows s) u →
        Safe (M.discipline P E) adm a t Q (g (some (f v))) u) :
    Safe (M.discipline P E) adm a t Q (updateWhere K.access k p f >>= g) s := by
  obtain ⟨hb, hwf, rfl⟩ := hs
  refine safe_quiet ⟨hb, hwf⟩ fun b s' hr => ?_
  cases b with
  | none =>
      obtain ⟨rfl, hp⟩ := runUpdate_none hr
      rw [K.read_eq] at hp
      exact ⟨.refl M t s', hnone hp⟩
  | some v' =>
      obtain ⟨v, hv, hp, hl, rfl, rfl⟩ := runUpdate_some hr
      refine ⟨K.write_quiet k (f v) hv hl (hf _ t k v hv), ?_⟩
      rw [K.write_writes]
      rw [K.read_eq] at hv
      exact hsome v hv hp

theorem safe_forUpdate {k : Nat} {g : Option V → Prog S ε γ}
    (hs : Holding M P t W s) (hf : K.Updates id)
    (hnone : K.get (M.overlay W (M.rows s)) k = none →
      ∀ u, Resumed M P t W (M.rows s) u →
        Safe (M.discipline P E) adm a t Q (g none) u)
    (hsome : ∀ v, K.get (M.overlay W (M.rows s)) k = some v →
      ∀ u, Resumed M P t (K.put (Function.update (K.get W) k (some v))
        W) (M.rows s) u →
        Safe (M.discipline P E) adm a t Q (g (some v)) u) :
    Safe (M.discipline P E) adm a t Q (selectForUpdate K.access k >>= g) s := by
  obtain ⟨hb, hwf, rfl⟩ := hs
  refine safe_quiet ⟨hb, hwf⟩ fun b s' hr => ?_
  cases b with
  | none =>
      obtain ⟨rfl, hn⟩ := runForUpdate_none hr
      rw [K.read_eq] at hn
      exact ⟨.refl M t s', hnone hn⟩
  | some v =>
      obtain ⟨hv, hl, rfl⟩ := runForUpdate_some hr
      refine ⟨K.write_quiet k v hv hl (hf _ t k v hv), ?_⟩
      rw [K.write_writes]
      rw [K.read_eq] at hv
      exact hsome v hv

theorem safe_insert {row : Nat → V} {g : Nat → Prog S ε γ}
    (hs : Holding M P t W s) (hrow : K.Inserts row)
    (h : ∀ k, K.get (M.rows s) k = none → K.get W k = none →
      ∀ u, Resumed M P t (K.put (Function.update (K.get W) k (some (row k)))
        W) (M.rows s) u → Safe (M.discipline P E) adm a t Q (g k) u) :
    Safe (M.discipline P E) adm a t Q (Sql.insert K.access row >>= g) s := by
  obtain ⟨hb, hwf, rfl⟩ := hs
  refine safe_quiet ⟨hb, hwf⟩ fun b s' hr => ?_
  cases hr
  refine ⟨K.insert_quiet hb _ (hrow _ t (K.bounded s hb)), ?_⟩
  rw [K.insert_writes]
  exact h _ (K.next_fresh hb) (K.next_unwritten hb)

theorem safe_insertUnique {c : V → Bool} {row : Sid → V} {g : Option Nat → Prog S ε γ}
    (hs : Holding M P t W s) (hrow : K.InsertsUnique c row)
    (hnone : ∀ u, Resumed M P t W (M.rows s) u →
      Safe (M.discipline P E) adm a t Q (g none) u)
    (hsome : ∀ k, K.get (M.rows s) k = none → K.get W k = none →
      (∀ j x, K.get (M.overlay W (M.rows s)) j = some x → c x = false) →
      ∀ u, Resumed M P t (K.put (Function.update (K.get W) k (some (row t)))
        W) (M.rows s) u → Safe (M.discipline P E) adm a t Q (g (some k)) u) :
    Safe (M.discipline P E) adm a t Q (insertUnique K.access c row >>= g) s := by
  obtain ⟨hb, hwf, rfl⟩ := hs
  refine safe_quiet ⟨hb, hwf⟩ fun b s' hr => ?_
  cases b with
  | none =>
      obtain rfl := runInsertUnique_none hr
      exact ⟨.refl M t s', hnone⟩
  | some k =>
      obtain ⟨hscan, hforeign, rfl, rfl⟩ := runInsertUnique_some hr
      refine ⟨K.insert_quiet hb _ fun hc => hrow _ t (K.bounded s hb) hc hscan hforeign, ?_⟩
      rw [K.insert_writes]
      exact hsome _ (K.next_fresh hb) (K.next_unwritten hb) fun j x hj =>
        hscan (j, x) ((K.mem_scan hb).mpr hj)

/-- Rows updated one after the other, under an assertion that the updates and the others
keep. -/
theorem safe_updateEach {p : V → Bool} {f : V → V} {keys : List Nat} {A : R → R → Prop}
    (hs : Holding M P t W s) (hf : K.Updates f) (hA : A W (M.rows s))
    (hkeep : ∀ W w w', A W w → Drift M P W w w' → A W w')
    (hwrite : ∀ W w k v, A W w → K.get (M.overlay W w) k = some v → p v = true →
      A (K.put (Function.update (K.get W) k (some (f v))) W) w) :
    Safe (M.discipline P E) adm a t (Returns fun _ u => ∃ W, Holding M P t W u ∧ A W (M.rows u))
      (updateEach K.access p f keys) s := by
  induction keys generalizing W s with
  | nil => exact ⟨W, hs, hA⟩
  | cons k rest ih =>
      refine safe_update K hs hf (fun _ u hu => ?_) fun v hv hp u hu => ?_
      · exact ih hu.toHolding (hkeep _ _ _ hA hu.drift)
      · exact ih hu.toHolding (hkeep _ _ _ (hwrite W _ k v hA hv hp) hu.drift)

theorem safe_commit (hP : P.Lawful M) {g : Unit → Prog S ε γ}
    (hs : Holding M P t W s)
    (hc : adm s (Transactional.commit t s) →
      P.Commit a (M.rows s) W ∨ W = M.nothing)
    (h : ∀ u, Resumed M P t M.nothing (M.overlay W (M.rows s)) u →
      Safe (M.discipline P E) adm a t Q (g ()) u) :
    Safe (M.discipline P E) adm a t Q (Sql.commit >>= g) s := by
  obtain ⟨hb, hwf, rfl⟩ := hs
  intro b s' hr hadm
  cases hr
  have hc' := hc hadm
  have hi' : (M.discipline P E).Inv (Transactional.commit t s) := by
    refine ⟨M.commit_bounded t s hb, ?_⟩
    rw [M.commit_rows]
    rcases hc' with hc | hnothing
    · exact hP a _ _ hc hwf
    · rw [hnothing, M.nothing_over]
      exact hwf
  refine ⟨hi', ⟨M.commit_frame t s, ?_⟩, fun u hrely => h u (resumed_of_rely hrely ?_)⟩
  · rcases hc' with hc | hnothing
    · exact .inr ⟨hc, M.commit_rows t s⟩
    · left
      rw [M.commit_rows, hnothing, M.nothing_over]
  · rw [← M.commit_rows]
    exact Holding.resumed ⟨hi'.1, hi'.2, M.commit_writes t s⟩

end Rules

end Sql
