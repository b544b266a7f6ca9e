/-
Updates of many rows, and calls made one after the other with their answers.

When no other session holds a lock, an UPDATE of many rows writes exactly a new version
of each row that matches.  `Answers` says what a call that runs on its own returns and
what it does to the rows.
-/
import Rcp.Sql.Solo

namespace Sql

open Table

variable {S R ε α C V : Type}

/-! ## Rows that match -/

/-- The write set `F` with a new version of each listed row that satisfies `p`. -/
def revised (p : V → Bool) (f : V → V) (keys : List Nat) (rows F : Nat → Option V) :
    Nat → Option V :=
  fun k => if k ∈ keys ∧ (rows k).any p = true then (rows k).map f else F k

variable {p : V → Bool} {f : V → V} {k : Nat} {keys : List Nat} {rows F : Nat → Option V}

theorem revised_nil : revised p f [] rows F = F := by
  funext j
  simp [revised]

theorem revised_skip (h : ∀ v, rows k = some v → p v = false) :
    revised p f (k :: keys) rows F = revised p f keys rows F := by
  funext j
  by_cases hj : j = k
  · subst hj
    have hnone : (rows j).any p = false := by
      cases hv : rows j with
      | none => rfl
      | some v => exact h v hv
    simp [revised, hnone]
  · simp [revised, hj]

/-- One row is updated before the others. -/
theorem revised_cons {v : V} (hk : k ∉ keys) (hv : rows k = some v) (hp : p v = true)
    {rows' : Nat → Option V} (hrows : ∀ j, j ≠ k → rows' j = rows j) :
    revised p f keys rows' (Function.update F k (some (f v))) =
      revised p f (k :: keys) rows F := by
  funext j
  by_cases hj : j = k
  · subst hj
    simp [revised, hk, hv, hp]
  · simp [revised, hj, hrows j hj]

/-- Every row that matches is among the keys. -/
theorem revised_all (h : ∀ j v, rows j = some v → p v = true → j ∈ keys) :
    revised p f keys rows F =
      fun j => if (rows j).any p = true then (rows j).map f else F j := by
  funext j
  cases hv : rows j with
  | none => simp [revised, hv]
  | some v =>
      by_cases hp : p v = true
      · simp [revised, hv, hp, h j v hv hp]
      · simp [revised, hv, hp]

variable [Transactional S] {M : Schema S R} {t : Sid} {W w : R} {s : S}

/-- A part of the rows is read back as it was put. -/
structure Column.Lens (K : Column M V) : Prop where
  get_put : ∀ F W, K.get (K.put F W) = F
  put_put : ∀ F F' W, K.put F' (K.put F W) = K.put F' W
  put_get : ∀ W, K.put (K.get W) W = W

theorem Solo.updateRows (K : Column M V) (hK : K.Lens) (hkeys : keys.Nodup)
    {Q : Except ε Unit → S → Prop} (h : Solo M t W w s)
    (hQ : ∀ s', Solo M t (K.put (revised p f keys (K.get (M.overlay W w)) (K.get W)) W) w s' →
      Q (.ok ()) s')
    (hf : K.Updates f) : Meets t Q (Sql.updateEach K.access p f keys) s := by
  induction keys generalizing W s with
  | nil =>
      refine meets_ret (hQ s ?_)
      rw [revised_nil, hK.put_get]
      exact h
  | cons k rest ih =>
      obtain ⟨hk, hrest⟩ := List.nodup_cons.mp hkeys
      refine h.update K hf (fun hno => ?_) fun v hv hp s₁ h₁ => ?_
      · refine ih hrest h fun s' hs' => hQ s' ?_
        rw [revised_skip hno]
        exact hs'
      · refine ih hrest h₁ fun s' hs' => hQ s' ?_
        have hother : ∀ j, j ≠ k → K.get (M.overlay (K.put (Function.update (K.get W) k
            (some (f v))) W) w) j = K.get (M.overlay W w) j := by
          intro j hj
          rw [K.get_over, K.get_over, hK.get_put, Function.update_of_ne hj]
        rw [hK.get_put, hK.put_put, revised_cons hk hv hp hother] at hs'
        exact hs'

/-- The keys of the rows that a session sees and that match. -/
theorem Solo.matching (K : Column M V) (h : Solo M t W w s) :
    ((((K.access.get s).scan t).filter fun r => p r.2).map Prod.fst).Nodup ∧
      ∀ j v, K.get (M.overlay W w) j = some v → p v = true →
        j ∈ (((K.access.get s).scan t).filter fun r => p r.2).map Prod.fst := by
  refine ⟨(keys_nodup _ _).sublist (List.filter_sublist.map _), fun j v hj hp => ?_⟩
  have hmem : (j, v) ∈ (K.access.get s).scan t := by
    rw [K.mem_scan h.bounded, h.writes, h.rows]
    exact hj
  exact List.mem_map.mpr ⟨(j, v), List.mem_filter.mpr ⟨hmem, hp⟩, rfl⟩

theorem Solo.updateAll (K : Column M V) (hK : K.Lens) {Q : Except ε Unit → S → Prop}
    (h : Solo M t W w s)
    (hQ : ∀ s', Solo M t (K.put (fun j => if (K.get (M.overlay W w) j).any p = true then
      (K.get (M.overlay W w) j).map f else K.get W j) W) w s' → Q (.ok ()) s')
    (hf : K.Updates f) : Meets t Q (Sql.updateAll K.access p f) s := by
  obtain ⟨hnodup, hall⟩ := h.matching K (p := p)
  refine h.query ?_
  refine h.updateRows K hK hnodup (fun s' hs' => hQ s' ?_) hf
  rw [revised_all hall] at hs'
  exact hs'

/-! ## Answers -/

variable {body : C → Prog S ε α} {Rel : Sid → C → Except ε α → R → R → Prop}

/-- `Rel t a r w w'` is what call `a` of session `t`, made on its own, may return and do to
the rows. -/
def Answers (M : Schema S R) (body : C → Prog S ε α)
    (Rel : Sid → C → Except ε α → R → R → Prop) : Prop :=
  ∀ a t w s, Rested M w s →
    Meets t (fun r s' => ∃ W w', Solo M t W w' s' ∧ Rel t a r w w') (body a) s

theorem Answers.call (hA : Answers M body Rel) (h : Rested M w s) (a : C) (t : Sid) :
    ∃ r s' w', (body a).call t s = some (r, s') ∧ Rested M w' s' ∧ Rel t a r w w' := by
  obtain ⟨r, s₁, hx, W, w', hs₁, hrel⟩ := hA a t w s h
  exact ⟨r, Transactional.rollback t s₁, w', by simp [Prog.call, hx], hs₁.close, hrel⟩

/-- What the calls of a sequence keep of the log and the rows. -/
theorem Answers.perform (hA : Answers M body Rel) {J : List (Sid × C × Except ε α) → R → Prop}
    (hstep : ∀ log t a r w w' s, Rested M w s → Rel t a r w w' → J log w →
      J ((t, a, r) :: log) w') {c : Config S ε α C} (h : Rested M w c.store) (hJ : J c.log w)
    (l : List C) : ∃ c' w', c.perform body l = some c' ∧ Rested M w' c'.store ∧ J c'.log w' := by
  induction l generalizing c w with
  | nil => exact ⟨c, w, rfl, h, hJ⟩
  | cons a rest ih =>
      obtain ⟨r, s', w', hcall, hs', hrel⟩ := hA.call h a c.fresh
      obtain ⟨c', w'', hperform, hrested, hJ'⟩ := ih (c := { c with
        store := s'
        fresh := c.fresh + 1
        log := (c.fresh, a, r) :: c.log }) hs' (hstep _ _ _ _ _ _ _ h hrel hJ)
      exact ⟨c', w'', by simp [Config.perform, hcall, hperform], hrested, hJ'⟩

theorem Config.perform_append (c : Config S ε α C) (l l' : List C) :
    c.perform body (l ++ l') = (c.perform body l).bind fun c' => c'.perform body l' := by
  induction l generalizing c with
  | nil => rfl
  | cons a rest ih =>
      simp only [List.cons_append, Config.perform]
      split
      · rfl
      · exact ih _

end Sql
