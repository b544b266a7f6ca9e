/-
Calls that move the committed rows once.

A program is `Still` when none of its statements moves a committed row, and `Once` when
the rest of it is still after the first statement that does.  Both are facts of the
program text: they hold from every store.  A run then ties the outcome of a call to
what the call has done: whatever it ends with after it has moved the rows, it can only
raise what its still part raises.
-/
import Rcp.Sql.Store

namespace Sql

open Relation

variable {S R ε α β γ C : Type}

namespace Prog

/-- No statement moves a row, and only errors in `P` are raised. -/
def Still (rows : S → R) (P : ε → Prop) : Prog S ε β → Prop
  | .ret _ => True
  | .raise e => P e
  | .stmt run k => ∀ t s b s', run t s = some (b, s') → rows s' = rows s ∧ (k b).Still rows P

/-- One statement at most moves rows, and only errors in `P` are raised after it. -/
def Once (rows : S → R) (P : ε → Prop) : Prog S ε β → Prop
  | .ret _ => True
  | .raise _ => True
  | .stmt run k => ∀ t s b s', run t s = some (b, s') →
      (rows s' = rows s ∧ (k b).Once rows P) ∨ (k b).Still rows P

end Prog

section Rules

variable {rows : S → R} {P : ε → Prop}

theorem still_bind {p : Prog S ε β} {g : β → Prog S ε γ} (h : p.Still rows P)
    (hg : ∀ b, (g b).Still rows P) : (p >>= g).Still rows P := by
  induction p with
  | ret b => exact hg b
  | raise e => exact h
  | stmt run k ih =>
      intro t s b s' hr
      obtain ⟨hrows, hk⟩ := h t s b s' hr
      exact ⟨hrows, ih b hk⟩

/-- The rows are moved by the second part, if at all. -/
theorem once_bind {p : Prog S ε β} {g : β → Prog S ε γ} (h : p.Still rows fun _ => True)
    (hg : ∀ b, (g b).Once rows P) : (p >>= g).Once rows P := by
  induction p with
  | ret b => exact hg b
  | raise e => exact trivial
  | stmt run k ih =>
      intro t s b s' hr
      obtain ⟨hrows, hk⟩ := h t s b s' hr
      exact .inl ⟨hrows, ih b hk⟩

theorem Prog.Still.once {p : Prog S ε β} (h : p.Still rows P) : p.Once rows P := by
  cases p with
  | ret b => exact trivial
  | raise e => exact trivial
  | stmt run k => exact fun t s b s' hr => .inr (h t s b s' hr).2

/-- The rows are moved by the first part, if at all. -/
theorem once_then {p : Prog S ε β} {g : β → Prog S ε γ} (h : p.Once rows P)
    (hg : ∀ b, (g b).Still rows P) : (p >>= g).Once rows P := by
  induction p with
  | ret b => exact (hg b).once
  | raise e => exact trivial
  | stmt run k ih =>
      intro t s b s' hr
      rcases h t s b s' hr with ⟨hrows, hk⟩ | hk
      · exact .inl ⟨hrows, ih b hk⟩
      · exact .inr (still_bind hk hg)

theorem once_commit [Transactional S] {g : Unit → Prog S ε γ} (hg : (g ()).Still rows P) :
    (commit >>= g).Once rows P := fun _ _ _ _ _ => .inr hg

/-! ## Statements -/

theorem still_stmt {run : Sid → S → Option (β × S)}
    (h : ∀ t s b s', run t s = some (b, s') → rows s' = rows s) :
    (Prog.stmt run Prog.ret : Prog S ε β).Still rows P :=
  fun t s b s' hr => ⟨h t s b s' hr, trivial⟩

theorem still_query (f : Sid → S → β) : (query f : Prog S ε β).Still rows P := by
  refine still_stmt fun t s b s' hr => ?_
  cases hr
  rfl

variable {V : Type} {T : Access S V}

/-- The rows depend on the committed rows of the table only. -/
def Reflects (rows : S → R) (T : Access S V) : Prop :=
  ∀ s T', T'.committed = (T.get s).committed → rows (T.set s T') = rows s

theorem still_updateWhere (hT : Reflects rows T) (k : Nat) (p : V → Bool) (f : V → V) :
    (updateWhere T k p f : Prog S ε (Option V)).Still rows P := by
  refine still_stmt fun t s b s' hr => ?_
  cases b with
  | none => rw [(runUpdate_none hr).1]
  | some v =>
      obtain ⟨u, -, -, -, -, rfl⟩ := runUpdate_some hr
      exact hT s _ rfl

theorem still_selectForUpdate (hT : Reflects rows T) (k : Nat) :
    (selectForUpdate T k : Prog S ε (Option V)).Still rows P := by
  refine still_stmt fun t s b s' hr => ?_
  cases b with
  | none => rw [(runForUpdate_none hr).1]
  | some v =>
      obtain ⟨-, -, rfl⟩ := runForUpdate_some hr
      exact hT s _ rfl

theorem still_insert (hT : Reflects rows T) (row : Nat → V) :
    (insert T row : Prog S ε Nat).Still rows P := by
  refine still_stmt fun t s b s' hr => ?_
  cases hr
  exact hT s _ rfl

theorem still_insertUnique (hT : Reflects rows T) (conflict : V → Bool) (row : Sid → V) :
    (insertUnique T conflict row : Prog S ε (Option Nat)).Still rows P := by
  refine still_stmt fun t s b s' hr => ?_
  cases b with
  | none => rw [runInsertUnique_none hr]
  | some n =>
      obtain ⟨-, -, -, rfl⟩ := runInsertUnique_some hr
      exact hT s _ rfl

end Rules

/-! ## Narrower policies -/

section Narrow

variable [Transactional S] {M : Schema S R} {P P' : Policy R C} {E : Ensures M P ε α}
  {E' : Ensures M P' ε α} {adm : S → S → Prop} {a : C} {t : Sid} {Q : Except ε β → S → Prop}
  {p : Prog S ε β} {s : S}

/-- `P'` asks for the same invariant and allows no more commits. -/
structure Policy.Narrows (P' P : Policy R C) : Prop where
  wellFormed : P'.WellFormed = P.WellFormed
  commit : ∀ b w W, P'.Commit b w W → P.Commit b w W

theorem Policy.Narrows.rely (h : P'.Narrows P) {s' : S}
    (hrely : (M.discipline P' E').Rely t s s') : (M.discipline P E).Rely t s s' := by
  refine ReflTransGen.mono (fun u v huv => ?_) s s' hrely
  obtain ⟨hu, hv, b, o, ho, hframe, hrows⟩ := huv
  have hinv : ∀ z, (M.discipline P' E').Inv z → (M.discipline P E).Inv z := by
    intro z hz
    exact ⟨hz.1, h.wellFormed ▸ hz.2⟩
  refine ⟨hinv u hu, hinv v hv, b, o, ho, hframe, ?_⟩
  rcases hrows with heq | ⟨hc, heq⟩
  · exact .inl heq
  · exact .inr ⟨h.commit b _ _ hc, heq⟩

theorem Policy.Narrows.holding (h : P'.Narrows P) {W : R} (hs : Holding M P t W s) :
    Holding M P' t W s :=
  ⟨hs.bounded, h.wellFormed.symm ▸ hs.wellFormed, hs.writes⟩

theorem Policy.Narrows.drift (h : P'.Narrows P) {W w w' : R} (hd : Drift M P' W w w') :
    Drift M P W w w' := by
  induction hd with
  | refl => exact .refl _
  | step _ hw hc hapart ih => exact .step ih (h.wellFormed ▸ hw) (h.commit _ _ _ hc) hapart

theorem Policy.Narrows.resumed (h : P'.Narrows P) {W w : R} (hs : Resumed M P' t W w s) :
    Resumed M P t W w s :=
  ⟨⟨hs.bounded, h.wellFormed ▸ hs.wellFormed, hs.writes⟩, h.drift hs.drift⟩

/-- A program that is still commits nothing, so it is safe under a narrower policy. -/
theorem Safe.narrow_still (h : P'.Narrows P) {X : ε → Prop} (hp : p.Still M.rows X)
    (hsafe : Safe (M.discipline P E) adm a t Q p s) :
    Safe (M.discipline P' E') adm a t Q p s := by
  induction p generalizing s with
  | ret b => exact hsafe
  | raise e => exact hsafe
  | stmt run k ih =>
      intro b s' hr hadm
      obtain ⟨hrows, hk⟩ := hp t s b s' hr
      obtain ⟨hi, hg, hrest⟩ := hsafe b s' hr hadm
      exact ⟨⟨hi.1, h.wellFormed.symm ▸ hi.2⟩, ⟨hg.1, .inl hrows⟩,
        fun s'' hrely => ih b hk (hrest s'' (h.rely hrely))⟩

/-- So is a call whose own commits the narrower policy allows. -/
theorem Safe.narrow (h : P'.Narrows P) (hown : ∀ w W, P.Commit a w W → P'.Commit a w W)
    (hsafe : Safe (M.discipline P E) adm a t Q p s) :
    Safe (M.discipline P' E') adm a t Q p s := by
  induction p generalizing s with
  | ret b => exact hsafe
  | raise e => exact hsafe
  | stmt run k ih =>
      intro b s' hr hadm
      obtain ⟨hi, hg, hrest⟩ := hsafe b s' hr hadm
      refine ⟨⟨hi.1, h.wellFormed.symm ▸ hi.2⟩, ⟨hg.1, ?_⟩,
        fun s'' hrely => ih b (hrest s'' (h.rely hrely))⟩
      rcases hg.2 with heq | ⟨hc, heq⟩
      · exact .inl heq
      · exact .inr ⟨hown _ _ hc, heq⟩

end Narrow

/-! ## Runs -/

section Runs

variable [Transactional S] {rows : S → R} {P : C → ε → Prop} {body : C → Prog S ε α}

/-- Every open session moves rows once at most. -/
def Config.Phased (rows : S → R) (P : C → ε → Prop) (c : Config S ε α C) : Prop :=
  ∀ t se, c.sessions t = some se → se.prog.Once rows (P se.call)

/-- Session `t` of call `a` has moved rows: it does so no more, and it has not raised what
it may raise only before. -/
structure Config.Moved (rows : S → R) (P : C → ε → Prop) (t : Sid) (a : C)
    (c : Config S ε α C) : Prop where
  used : t < c.fresh
  still : ∀ se, c.sessions t = some se → se.call = a ∧ se.prog.Still rows (P a)
  ended : ∀ b r, (t, b, r) ∈ c.log → b = a ∧ ∀ e, r = .error e → P a e

theorem Step.phased (hbody : ∀ a, (body a).Once rows (P a)) {c c' : Config S ε α C} {t : Sid}
    (h : Step body c t c') (hc : c.Phased rows P) : c'.Phased rows P := by
  intro o se' hse'
  cases h with
  | start a =>
      by_cases ho : o = c.fresh
      · subst ho
        simp only [Function.update_self, Option.some.injEq] at hse'
        subst hse'
        exact hbody a
      · exact hc o se' (by simpa [ho] using hse')
  | @exec _ se _ run k b s' hse hp hr =>
      by_cases ho : o = t
      · subst ho
        simp only [Function.update_self, Option.some.injEq] at hse'
        subst hse'
        have honce := hc o se hse
        rw [hp] at honce
        rcases honce o _ b s' hr with ⟨-, hk⟩ | hk
        · exact hk
        · exact hk.once
      · exact hc o se' (by simpa [ho] using hse')
  | close hse ho' =>
      by_cases ho : o = t
      · simp [ho] at hse'
      · exact hc o se' (by simpa [ho] using hse')
  | crash hse =>
      by_cases ho : o = t
      · simp [ho] at hse'
      · exact hc o se' (by simpa [ho] using hse')

theorem Run.phased (hbody : ∀ a, (body a).Once rows (P a)) {c c' : Config S ε α C}
    (h : Run body c c') (hc : c.Phased rows P) : c'.Phased rows P := by
  induction h with
  | refl => exact hc
  | tail _ hstep ih =>
      obtain ⟨t, hs⟩ := hstep
      exact hs.phased hbody ih

omit [Transactional S] in
theorem Config.start_phased (s : S) :
    (Config.start s : Config S ε α C).Phased rows P := fun t se hse => by cases hse

theorem Step.moved (hrollback : ∀ t s, rows (Transactional.rollback t s) = rows s)
    {c c' : Config S ε α C} {t : Sid} (h : Step body c t c') (hl : c.Logged)
    (hc : c.Phased rows P) (hrows : rows c'.store ≠ rows c.store) :
    ∃ se, c.sessions t = some se ∧ c'.Moved rows P t se.call := by
  cases h with
  | start a => exact absurd rfl hrows
  | @exec _ se _ run k b s' hse hp hr =>
      have hstill : (k b).Still rows (P se.call) := by
        have honce := hc t se hse
        rw [hp] at honce
        rcases honce t _ b s' hr with ⟨heq, -⟩ | hk
        · exact absurd heq hrows
        · exact hk
      refine ⟨se, hse, hl.used t (by rw [hse]; simp), fun se' hse' => ?_, fun b r hmem => ?_⟩
      · simp only [Function.update_self, Option.some.injEq] at hse'
        subst hse'
        exact ⟨rfl, hstill⟩
      · have hnone := (hl.ended _ hmem).2
        rw [hse] at hnone
        cases hnone
  | close hse ho => exact absurd (hrollback t c.store) hrows
  | crash hse => exact absurd (hrollback t c.store) hrows

theorem Step.moved_keep {c c' : Config S ε α C} {o t : Sid} {a : C} (h : Step body c o c')
    (hc : c.Moved rows P t a) : c'.Moved rows P t a := by
  cases h with
  | start b =>
      have hne : t ≠ c.fresh := Nat.ne_of_lt hc.used
      exact ⟨Nat.lt_succ_of_lt hc.used, fun se hse => hc.still se (by simpa [hne] using hse),
        hc.ended⟩
  | @exec _ se _ run k b s' hse hp hr =>
      refine ⟨hc.used, fun se' hse' => ?_, hc.ended⟩
      by_cases ho : t = o
      · subst ho
        simp only [Function.update_self, Option.some.injEq] at hse'
        subst hse'
        obtain ⟨hcall, hstill⟩ := hc.still se hse
        rw [hp] at hstill
        exact ⟨hcall, (hstill t _ b s' hr).2⟩
      · exact hc.still se' (by simpa [ho] using hse')
  | @close _ se r hse hout =>
      refine ⟨hc.used, fun se' hse' => ?_, fun b r' hmem => ?_⟩
      · by_cases ho : t = o
        · simp [ho] at hse'
        · exact hc.still se' (by simpa [ho] using hse')
      · rcases List.mem_cons.mp hmem with heq | hmem
        · cases heq
          obtain ⟨hcall, hstill⟩ := hc.still se hse
          refine ⟨hcall, fun e he => ?_⟩
          cases hp : se.prog with
          | ret b =>
              rw [hp, he] at hout
              cases hout
          | raise e' =>
              rw [hp, he] at hout
              rw [hp] at hstill
              cases hout
              exact hstill
          | stmt run k =>
              rw [hp] at hout
              cases hout
        · exact hc.ended b r' hmem
  | crash hse =>
      refine ⟨hc.used, fun se' hse' => ?_, hc.ended⟩
      by_cases ho : t = o
      · simp [ho] at hse'
      · exact hc.still se' (by simpa [ho] using hse')

/-- A call that has moved rows ends well, or with an error of its still part. -/
theorem Run.moved {c c' : Config S ε α C} {t : Sid} {a : C} (h : Run body c c')
    (hc : c.Moved rows P t a) : c'.Moved rows P t a := by
  induction h with
  | refl => exact hc
  | tail _ hstep ih =>
      obtain ⟨o, hs⟩ := hstep
      exact hs.moved_keep ih

end Runs
end Sql
