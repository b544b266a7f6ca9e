/-
Calls that run on their own.

When no other session holds a lock, no statement waits, and a call runs from its
first statement to its end.  `Meets t Q p s` says that it ends with `Q`, and the
rules take the program apart statement by statement.  The committed rows `w` stay
as they are until the session commits its writes `W`.
-/
import Rcp.Sql.Store

namespace Sql

open Table

variable {S R ε α β γ C : Type}

/-- The program runs to its end, where `Q` holds of the result and the store. -/
def Meets (t : Sid) (Q : Except ε α → S → Prop) (p : Prog S ε α) (s : S) : Prop :=
  ∃ r s', p.exec t s = some (r, s') ∧ Q r s'

section

variable {t : Sid} {s : S} {Q : Except ε γ → S → Prop}

theorem meets_ret {b : γ} (h : Q (.ok b) s) : Meets t Q (pure b) s := ⟨_, _, rfl, h⟩

theorem meets_raise {e : ε} (h : Q (.error e) s) : Meets t Q (.raise e) s := ⟨_, _, rfl, h⟩

theorem meets_bind {p : Prog S ε β} {g : β → Prog S ε γ}
    (h : Meets t (fun r s' => match r with
      | .ok b => Meets t Q (g b) s'
      | .error e => Q (.error e) s') p s) : Meets t Q (p >>= g) s := by
  obtain ⟨r, s', hx, hr⟩ := h
  cases r with
  | ok b =>
      obtain ⟨r', s'', hx', hr'⟩ := hr
      refine ⟨r', s'', ?_, hr'⟩
      rw [Prog.exec_bind, hx]
      exact hx'
  | error e =>
      refine ⟨.error e, s', ?_, hr⟩
      rw [Prog.exec_bind, hx]

/-- A program has one end. -/
theorem Meets.and {Q' : Except ε γ → S → Prop} {p : Prog S ε γ} (h : Meets t Q p s)
    (h' : Meets t Q' p s) : Meets t (fun r s' => Q r s' ∧ Q' r s') p s := by
  obtain ⟨r, s₁, hx, hr⟩ := h
  obtain ⟨r', s₁', hx', hr'⟩ := h'
  rw [hx] at hx'
  cases hx'
  exact ⟨r, s₁, hx, hr, hr'⟩

end

variable [Transactional S]

/-- Session `t` holds the writes `W` and is the only one with open writes. -/
structure Solo (M : Schema S R) (t : Sid) (W w : R) (s : S) : Prop where
  bounded : M.Bounded s
  rows : M.rows s = w
  writes : M.writes t s = W
  alone : ∀ o, o ≠ t → M.writes o s = M.nothing

/-- No session has open writes. -/
structure Rested (M : Schema S R) (w : R) (s : S) : Prop where
  bounded : M.Bounded s
  rows : M.rows s = w
  settled : M.Settled s

section Rules

variable {M : Schema S R} {t : Sid} {W w : R} {s : S} {Q : Except ε γ → S → Prop}

theorem Rested.solo (h : Rested M w s) (t : Sid) : Solo M t M.nothing w s :=
  ⟨h.bounded, h.rows, h.settled t, fun o _ => h.settled o⟩

theorem Solo.close (h : Solo M t W w s) : Rested M w (Transactional.rollback t s) where
  bounded := M.rollback_bounded t s h.bounded
  rows := (M.rollback_rows t s).trans h.rows
  settled := by
    intro o
    by_cases ho : o = t
    · rw [ho]
      exact M.rollback_writes t s
    · exact (M.frame_writes t o _ _ (M.rollback_frame t s) ho).trans (h.alone o ho)

/-- A statement that answers `b` and leaves the committed rows. -/
theorem Solo.stmt {run : Sid → S → Option (β × S)} {g : β → Prog S ε γ} {b : β} {s' : S}
    (h : Solo M t W w s) (hrun : run t s = some (b, s')) (hq : Quiet M t s s')
    (hg : Solo M t (M.writes t s') w s' → Meets t Q (g b) s') :
    Meets t Q (Prog.stmt run Prog.ret >>= g) s := by
  have hs' : Solo M t (M.writes t s') w s' := by
    refine ⟨hq.bounded h.bounded, hq.rows.trans h.rows, rfl, fun o ho => ?_⟩
    exact (M.frame_writes t o _ _ hq.frame ho).trans (h.alone o ho)
  obtain ⟨r, s'', hx, hr⟩ := hg hs'
  refine ⟨r, s'', ?_, hr⟩
  show Prog.exec t (.stmt run fun b => (Prog.ret b).bind g) s = _
  simp only [Prog.exec, hrun]
  exact hx

theorem Solo.query {f : Sid → S → β} {g : β → Prog S ε γ} (h : Solo M t W w s)
    (hg : Meets t Q (g (f t s)) s) : Meets t Q (Sql.query f >>= g) s :=
  h.stmt rfl (.refl M t s) fun _ => hg

variable {V : Type} (K : Column M V)

theorem Solo.read_eq (h : Solo M t W w s) (k : Nat) :
    (K.access.get s).read t k = K.get (M.overlay W w) k := by
  rw [K.read_eq, h.writes, h.rows]

theorem Solo.unlocked (h : Solo M t W w s) (k : Nat) :
    (K.access.get s).lockedFor t k = false := by
  rw [lockedFor_eq_false]
  intro o v hk
  by_contra ho
  have hw : K.get (M.writes o s) k = some v := by
    rw [K.get_writes]
    exact writes_eq_some.mpr hk
  rw [h.alone o ho, K.get_nothing] at hw
  cases hw

theorem Solo.selectKey {k : Nat} {g : Option V → Prog S ε γ} (h : Solo M t W w s)
    (hg : Meets t Q (g (K.get (M.overlay W w) k)) s) :
    Meets t Q (Sql.selectKey K.access k >>= g) s := by
  refine h.query ?_
  rw [h.read_eq K]
  exact hg

/-- A session that has not written a table sees the committed rows. -/
theorem Solo.scan_eq_rows (h : Solo M t W w s) (hW : K.get W = noRows) :
    (K.access.get s).scan t = (K.access.get s).rows := by
  have hread : (K.access.get s).read t = (K.access.get s).committed := by
    funext k
    rw [h.read_eq K, K.get_over, hW, ← h.rows, K.get_rows]
    rfl
  unfold scan Table.rows
  rw [hread]

/-- A scan of a table that the session has not written lists the committed rows. -/
theorem Solo.scan_listed (h : Solo M t W w s) (hW : K.get W = noRows) :
    Listed (K.get w) (((K.access.get s).scan t).map Prod.snd) := by
  have hread : (K.access.get s).read t = K.get w := by
    funext k
    rw [h.read_eq K, K.get_over, hW]
    rfl
  refine ⟨(K.access.get s).next, ?_, ?_⟩
  · rw [← h.rows]
    exact K.next_above h.bounded
  · unfold scan
    rw [List.map_filterMap, hread]
    congr 1
    funext k
    cases K.get w k <;> rfl

theorem Solo.update {k : Nat} {p : V → Bool} {f : V → V} {g : Option V → Prog S ε γ}
    (h : Solo M t W w s) (hf : K.Updates f)
    (hnone : (∀ v, K.get (M.overlay W w) k = some v → p v = false) → Meets t Q (g none) s)
    (hsome : ∀ v, K.get (M.overlay W w) k = some v → p v = true → ∀ s',
      Solo M t (K.put (Function.update (K.get W) k (some (f v))) W) w s' →
        Meets t Q (g (some (f v))) s') :
    Meets t Q (updateWhere K.access k p f >>= g) s := by
  have hread := h.read_eq K k
  cases hv : K.get (M.overlay W w) k with
  | none =>
      have hrun : runUpdate K.access k p f t s = some (none, s) := by
        unfold runUpdate
        rw [hread, hv]
      refine h.stmt hrun (.refl M t s) fun _ => hnone fun v hv' => ?_
      rw [hv] at hv'
      cases hv'
  | some v =>
      by_cases hp : p v = true
      · have hrun : runUpdate K.access k p f t s =
            some (some (f v), K.access.set s ((K.access.get s).write t k (f v))) := by
          unfold runUpdate
          simp [hread, hv, hp, h.unlocked K k]
        have hq := K.write_quiet k (f v) (hread.trans hv) (h.unlocked K k)
          (hf _ t k v (hread.trans hv))
        refine h.stmt hrun hq fun hs' => ?_
        rw [K.write_writes, h.writes] at hs'
        exact hsome v hv hp _ hs'
      · have hrun : runUpdate K.access k p f t s = some (none, s) := by
          unfold runUpdate
          simp [hread, hv, hp]
        refine h.stmt hrun (.refl M t s) fun _ => hnone fun u hu => ?_
        rw [hv] at hu
        cases hu
        simpa using hp

theorem Solo.forUpdate {k : Nat} {v : V} {g : Option V → Prog S ε γ} (h : Solo M t W w s)
    (hf : K.Updates id)
    (hv : K.get (M.overlay W w) k = some v)
    (hg : ∀ s', Solo M t (K.put (Function.update (K.get W) k (some v)) W) w s' →
      Meets t Q (g (some v)) s') :
    Meets t Q (selectForUpdate K.access k >>= g) s := by
  have hread : (K.access.get s).read t k = some v := (h.read_eq K k).trans hv
  have hrun : runForUpdate K.access k t s =
      some (some v, K.access.set s ((K.access.get s).write t k v)) := by
    unfold runForUpdate
    simp [hread, h.unlocked K k]
  have hq := K.write_quiet k v hread (h.unlocked K k) (hf _ t k v hread)
  refine h.stmt hrun hq fun hs' => ?_
  rw [K.write_writes, h.writes] at hs'
  exact hg _ hs'

theorem Solo.insert {row : Nat → V} {g : Nat → Prog S ε γ} (h : Solo M t W w s)
    (hrow : K.Inserts row)
    (hg : ∀ k, Above (K.get w) k → Above (K.get W) k → ∀ s',
      Solo M t (K.put (Function.update (K.get W) k (some (row k))) W) w s' →
        Meets t Q (g k) s') :
    Meets t Q (Sql.insert K.access row >>= g) s := by
  have hq := K.insert_quiet h.bounded _ (hrow _ t (K.bounded s h.bounded))
  refine h.stmt rfl hq fun hs' => ?_
  rw [K.insert_writes, h.writes] at hs'
  have hcommitted : Above (K.get w) (K.access.get s).next := by
    rw [← h.rows]
    exact K.next_above h.bounded
  have hwritten : Above (K.get W) (K.access.get s).next := by
    rw [← h.writes]
    exact K.next_above_writes h.bounded
  exact hg _ hcommitted hwritten _ hs'

/-- No row of another session is waited for. -/
theorem Solo.foreign_nil (h : Solo M t W w s) : (K.access.get s).foreign t = [] := by
  unfold foreign
  rw [List.filterMap_eq_nil_iff]
  intro k _
  rw [h.unlocked K k]
  rfl

theorem Solo.insertUnique {c : V → Bool} {row : Sid → V} {g : Option Nat → Prog S ε γ}
    (h : Solo M t W w s) (hrow : K.InsertsUnique c row)
    (hnone : (∃ k v, K.get (M.overlay W w) k = some v ∧ c v = true) → Meets t Q (g none) s)
    (hsome : ∀ k, Above (K.get w) k → Above (K.get W) k → ∀ s',
      Solo M t (K.put (Function.update (K.get W) k (some (row t))) W) w s' →
        Meets t Q (g (some k)) s') :
    Meets t Q (Sql.insertUnique K.access c row >>= g) s := by
  by_cases hconflict : ((K.access.get s).scan t).any (fun r => c r.2) = true
  · have hrun : runInsertUnique K.access c row t s = some (none, s) := by
      unfold runInsertUnique
      rw [if_pos hconflict]
    obtain ⟨⟨k, v⟩, hmem, hc⟩ := List.any_eq_true.mp hconflict
    have hv := (K.mem_scan h.bounded).mp hmem
    rw [h.writes, h.rows] at hv
    exact h.stmt hrun (.refl M t s) fun _ => hnone ⟨k, v, hv, hc⟩
  · have hforeign := h.foreign_nil K
    have hrun : runInsertUnique K.access c row t s = some (some (K.access.get s).next,
        K.access.set s ((K.access.get s).insert t (row t))) := by
      unfold runInsertUnique
      rw [if_neg hconflict, hforeign]
      rfl
    have hscan : ∀ r ∈ (K.access.get s).scan t, c r.2 = false := by
      simpa only [List.any_eq_true, not_exists, not_and, Bool.not_eq_true] using hconflict
    have hq := K.insert_quiet h.bounded (row t)
      fun hc => hrow _ t (K.bounded s h.bounded) hc hscan (by simp [hforeign])
    refine h.stmt hrun hq fun hs' => ?_
    rw [K.insert_writes, h.writes] at hs'
    refine hsome _ ?_ ?_ _ hs'
    · rw [← h.rows]
      exact K.next_above h.bounded
    · rw [← h.writes]
      exact K.next_above_writes h.bounded

/-- Rows updated one after the other, under an assertion on the writes that each update
keeps. -/
theorem Solo.updateEach {p : V → Bool} {f : V → V} {keys : List Nat} {A : R → Prop}
    {Q : Except ε Unit → S → Prop} (h : Solo M t W w s) (hf : K.Updates f) (hA : A W)
    (hwrite : ∀ W k v, A W → A (K.put (Function.update (K.get W) k (some (f v))) W))
    (hQ : ∀ W s', A W → Solo M t W w s' → Q (.ok ()) s') :
    Meets t Q (Sql.updateEach K.access p f keys) s := by
  induction keys generalizing W s with
  | nil => exact meets_ret (hQ W s hA h)
  | cons k rest ih =>
      refine h.update K hf (fun _ => ih h hA) fun v _ _ s' hs' => ?_
      exact ih hs' (hwrite W k v hA)

theorem Solo.commit {g : Unit → Prog S ε γ} (h : Solo M t W w s)
    (hg : ∀ s', Solo M t M.nothing (M.overlay W w) s' → Meets t Q (g ()) s') :
    Meets t Q (Sql.commit >>= g) s := by
  have hs' : Solo M t M.nothing (M.overlay W w) (Transactional.commit t s) := by
    refine ⟨M.commit_bounded t s h.bounded, ?_, M.commit_writes t s, fun o ho => ?_⟩
    · rw [M.commit_rows, h.writes, h.rows]
    · exact (M.frame_writes t o _ _ (M.commit_frame t s) ho).trans (h.alone o ho)
  obtain ⟨r, s'', hx, hr⟩ := hg _ hs'
  exact ⟨r, s'', hx, hr⟩

end Rules

/-! ## Sequences of calls -/

section Calls

variable {M : Schema S R} {body : C → Prog S ε α} {w : R} {s s' : S} {t : Sid}

theorem meets_call {a : C} {Q : Except ε α → S → Prop} (h : Meets t Q (body a) s)
    {r : Except ε α} (hcall : (body a).call t s = some (r, s')) :
    ∃ s₁, Q r s₁ ∧ s' = Transactional.rollback t s₁ := by
  obtain ⟨r', s₁, hx, hr⟩ := h
  simp only [Prog.call, hx, Option.map_some, Option.some.injEq, Prod.mk.injEq] at hcall
  obtain ⟨rfl, rfl⟩ := hcall
  exact ⟨s₁, hr, rfl⟩

/-- `Leads a w w'` is what call `a`, made on its own, may do to the rows. -/
def Leads (M : Schema S R) (body : C → Prog S ε α) (Rel : C → R → R → Prop) : Prop :=
  ∀ a t w s, Rested M w s →
    Meets t (fun _ s' => ∃ W w', Solo M t W w' s' ∧ Rel a w w') (body a) s

variable {Rel : C → R → R → Prop}

/-- Two things that are known of every call are known together. -/
theorem Leads.and {Rel' : C → R → R → Prop} (hL : Leads M body Rel) (hL' : Leads M body Rel') :
    Leads M body fun a w w' => Rel a w w' ∧ Rel' a w w' := by
  intro a t w s h
  obtain ⟨r, s₁, hx, W, w', hs₁, hrel⟩ := hL a t w s h
  obtain ⟨r', s₂, hx', W', w₂, hs₂, hrel'⟩ := hL' a t w s h
  rw [hx] at hx'
  cases hx'
  have hrows : w₂ = w' := hs₂.rows.symm.trans hs₁.rows
  subst hrows
  exact ⟨r, s₁, hx, W, w₂, hs₁, hrel, hrel'⟩

theorem Leads.call (hL : Leads M body Rel) (h : Rested M w s) {a : C} {r : Except ε α}
    (hcall : (body a).call t s = some (r, s')) : ∃ w', Rested M w' s' ∧ Rel a w w' := by
  obtain ⟨s₁, ⟨W, w', hs₁, hrel⟩, rfl⟩ := meets_call (hL a t w s h) hcall
  exact ⟨w', hs₁.close, hrel⟩

theorem Leads.once (hL : Leads M body Rel) (h : Rested M w s) (a : C) (t : Sid) :
    ∃ w' s', Sql.calls body [a] t s = some s' ∧ Rested M w' s' ∧ Rel a w w' := by
  obtain ⟨r, s₁, hx, W, w', hs₁, hrel⟩ := hL a t w s h
  have hcall : (body a).call t s = some (r, Transactional.rollback t s₁) := by
    simp [Prog.call, hx]
  exact ⟨w', Transactional.rollback t s₁, by simp [Sql.calls, hcall], hs₁.close, hrel⟩

theorem Leads.ends (hL : Leads M body Rel) (h : Rested M w s) (l : List C) (t : Sid) :
    ∃ states, trace body l t s = some states := by
  induction l generalizing t w s with
  | nil => exact ⟨[], rfl⟩
  | cons a rest ih =>
      obtain ⟨r, s₁, hx, W, w', hs₁, hrel⟩ := hL a t w s h
      have hcall : (body a).call t s = some (r, Transactional.rollback t s₁) := by
        simp [Prog.call, hx]
      obtain ⟨states, htrace⟩ := ih hs₁.close (t + 1)
      exact ⟨Transactional.rollback t s₁ :: states, by simp [Sql.trace, hcall, htrace]⟩

/-- Calls made one after the other all come to their end, and every one takes a good
step exactly if every one meets the condition for it. -/
theorem Leads.trace (hL : Leads M body Rel) {G : R → R → Prop} {P : R → C → Prop}
    (hgood : ∀ a w w', Rel a w w' → (G w w' ↔ P w a)) (h : Rested M w s) (l : List C)
    (t : Sid) :
    ∃ states, trace body l t s = some states ∧
      ((s :: states).IsChain (fun u v => G (M.rows u) (M.rows v)) ↔
        CallsMeet body (fun u a => P (M.rows u) a) l t s) := by
  induction l generalizing t w s with
  | nil => exact ⟨[], rfl, by simp [CallsMeet]⟩
  | cons a rest ih =>
      obtain ⟨r, s₁, hx, W, w', hs₁, hrel⟩ := hL a t w s h
      have hcall : (body a).call t s = some (r, Transactional.rollback t s₁) := by
        simp [Prog.call, hx]
      have hs' := hs₁.close
      obtain ⟨states, htrace, hiff⟩ := ih hs' (t + 1)
      refine ⟨Transactional.rollback t s₁ :: states, ?_, ?_⟩
      · simp [Sql.trace, hcall, htrace]
      · have hstep : G (M.rows s) (M.rows (Transactional.rollback t s₁)) ↔ P (M.rows s) a := by
          rw [h.rows, hs'.rows]
          exact hgood a w w' hrel
        rw [List.isChain_cons_cons, hiff, hstep]
        simp only [CallsMeet, hcall, Option.some.injEq, Prod.mk.injEq, and_imp]
        constructor
        · rintro ⟨hP, hrest⟩
          exact ⟨hP, fun _ _ _ hs => hs ▸ hrest⟩
        · rintro ⟨hP, hrest⟩
          exact ⟨hP, hrest r _ rfl rfl⟩

/-- A property of the store at the start of a call holds at its end exactly if the call
meets a condition. -/
theorem Leads.keeps_iff (hL : Leads M body Rel) {I : S → Prop} {P : R → C → Prop}
    (hstep : ∀ a w w' s s', Rested M w s → Rested M w' s' → Rel a w w' → I s → (I s' ↔ P w a))
    (h : Rested M w s) (hI : I s) (l : List C) (t : Sid) :
    ∃ states, Sql.trace body l t s = some states ∧
      ((∀ u ∈ states, I u) ↔ CallsMeet body (fun u a => P (M.rows u) a) l t s) := by
  induction l generalizing t w s with
  | nil => exact ⟨[], rfl, by simp [CallsMeet]⟩
  | cons a rest ih =>
      obtain ⟨r, s₁, hx, W, w', hs₁, hrel⟩ := hL a t w s h
      have hcall : (body a).call t s = some (r, Transactional.rollback t s₁) := by
        simp [Prog.call, hx]
      have hs' := hs₁.close
      have hiff := hstep a w w' s _ h hs' hrel hI
      rw [← h.rows] at hiff
      have hmeets : CallsMeet body (fun u a => P (M.rows u) a) (a :: rest) t s ↔
          P (M.rows s) a ∧ CallsMeet body (fun u a => P (M.rows u) a) rest (t + 1)
            (Transactional.rollback t s₁) := by
        simp only [CallsMeet, hcall, Option.some.injEq, Prod.mk.injEq, and_imp]
        refine and_congr_right fun _ => ⟨fun hrest => hrest r _ rfl rfl, fun hrest => ?_⟩
        rintro _ _ - rfl
        exact hrest
      by_cases hI' : I (Transactional.rollback t s₁)
      · obtain ⟨states, htrace, hrest⟩ := ih hs' hI' (t + 1)
        refine ⟨Transactional.rollback t s₁ :: states, by simp [Sql.trace, hcall, htrace], ?_⟩
        rw [hmeets, ← hrest, ← hiff]
        simp
      · obtain ⟨states, htrace⟩ := hL.ends hs' rest (t + 1)
        refine ⟨Transactional.rollback t s₁ :: states, by simp [Sql.trace, hcall, htrace], ?_⟩
        rw [hmeets, ← hiff]
        simp [hI']

/-- What calls made one after the other keep, said of the calls made so far. -/
theorem Leads.history (hL : Leads M body Rel) {J : List C → S → Prop}
    (hstep : ∀ past a w w' s s', Rested M w s → Rested M w' s' → Rel a w w' → J past s →
      J (past ++ [a]) s') {past : List C} (h : Rested M w s) (hJ : J past s) (l : List C)
    (t : Sid) : ∃ w' s', Sql.calls body l t s = some s' ∧ Rested M w' s' ∧ J (past ++ l) s' := by
  induction l generalizing t w s past with
  | nil => exact ⟨w, s, rfl, h, by simpa using hJ⟩
  | cons a rest ih =>
      obtain ⟨r, s₁, hx, W, w', hs₁, hrel⟩ := hL a t w s h
      have hcall : (body a).call t s = some (r, Transactional.rollback t s₁) := by
        simp [Prog.call, hx]
      have hs' := hs₁.close
      obtain ⟨w₂, s₂, hcalls, hs₂, hJ₂⟩ := ih hs' (hstep past a w w' s _ h hs' hrel hJ) (t + 1)
      refine ⟨w₂, s₂, by simp [Sql.calls, hcall, hcalls], hs₂, ?_⟩
      simpa using hJ₂

/-- The rows that a call appends to a table. -/
theorem Rested.gains {w' W : R} {s' : S} {V : Type} (K : Column M V)
    (h : Rested M w s) (h' : Rested M w' s') (hw' : w' = M.overlay W w) {l : List V}
    (happended : Appended (K.get w) l (K.get W)) :
    (K.access.get s).Gains (K.access.get s') l := by
  have hcommitted : (K.access.get s).committed = K.get w := by
    rw [← h.rows, K.get_rows]
  have hcommitted' : (K.access.get s').committed = K.get w' := by
    rw [← h'.rows, K.get_rows]
  refine Table.gains_of_appended (K.bounded s h.bounded) (K.bounded s' h'.bounded)
    (O := K.get W) ?_ ?_
  · rw [hcommitted]
    exact happended
  · rw [hcommitted', hcommitted, hw']
    funext k
    exact K.get_over W w k

theorem Rested.values_append {w' W : R} {s' : S} {V : Type} (K : Column M V)
    (h : Rested M w s) (h' : Rested M w' s') (hw' : w' = M.overlay W w) {l : List V}
    (happended : Appended (K.get w) l (K.get W)) :
    (K.access.get s').values = (K.access.get s).values ++ l :=
  (h.gains K h' hw' happended).values

/-- The committed rows determine the list of them. -/
theorem Rested.values_eq {s' : S} {V : Type} (K : Column M V) (h : Rested M w s)
    (h' : Rested M w s') : (K.access.get s').values = (K.access.get s).values := by
  have happended : Appended (K.get w) [] (K.get M.nothing) := by
    have hnothing : K.get M.nothing = noRows := funext K.get_nothing
    rw [hnothing]
    exact .nil
  rw [h.values_append K h' (M.nothing_over w).symm happended, List.append_nil]

end Calls
end Sql
