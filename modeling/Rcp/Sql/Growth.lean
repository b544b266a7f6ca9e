/-
Stores that only grow.

Often every statement of every call takes the store upwards in one relation, and what
a session has read is a fact that this relation carries along.  Then it does not matter
which session moves, and `Takes` follows a program through its statements.  A growth is
a discipline in which all sessions guarantee the same.
-/
import Rcp.Sql.Interleave

namespace Sql

open Relation

/-- Every statement of the program takes a step in `M`. -/
def Prog.Only {S ε β : Type} (M : Sid → S → S → Prop) : Prog S ε β → Prop
  | .ret _ => True
  | .raise _ => True
  | .stmt run k => ∀ t s b s', run t s = some (b, s') → M t s s' ∧ (k b).Only M

theorem only_bind {S ε β γ : Type} {M : Sid → S → S → Prop} {p : Prog S ε β}
    {g : β → Prog S ε γ} (h : p.Only M) (hg : ∀ b, (g b).Only M) : (p >>= g).Only M := by
  induction p with
  | ret b => exact hg b
  | raise e => exact trivial
  | stmt run k ih =>
      intro t s b s' hrun
      obtain ⟨hstep, hk⟩ := h t s b s' hrun
      exact ⟨hstep, ih b hk⟩

theorem only_stmt {S ε β : Type} {M : Sid → S → S → Prop} {run : Sid → S → Option (β × S)}
    (h : ∀ t s b s', run t s = some (b, s') → M t s s') :
    (Prog.stmt run Prog.ret : Prog S ε β).Only M :=
  fun t s b s' hrun => ⟨h t s b s' hrun, trivial⟩

theorem only_query {S ε β : Type} {M : Sid → S → S → Prop} (hrefl : ∀ t s, M t s s)
    (f : Sid → S → β) : (query f : Prog S ε β).Only M := by
  refine only_stmt fun t s b s' hrun => ?_
  cases hrun
  exact hrefl t s

theorem Prog.Only.mono {S ε β : Type} {M N : Sid → S → S → Prop} {p : Prog S ε β}
    (h : p.Only M) (hMN : ∀ t s s', M t s s' → N t s s') : p.Only N := by
  induction p with
  | ret b => exact trivial
  | raise e => exact trivial
  | stmt run k ih =>
      intro t s b s' hrun
      obtain ⟨hstep, hk⟩ := h t s b s' hrun
      exact ⟨hMN t s s' hstep, ih b hk⟩

/-- Statements that keep an assertion which the other sessions keep too. -/
theorem safe_only {S ε α β C : Type} [Transactional S] {D : Discipline S ε α C}
    {adm : S → S → Prop} {a : C} {t : Sid} {A : S → Prop} (hA : D.Stable t A)
    {M : Sid → S → S → Prop} (hM : ∀ s s', D.Inv s → A s → M t s s' →
      D.Inv s' ∧ D.Guar a t s s' ∧ A s')
    {p : Prog S ε β} (h : p.Only M) {s : S} (hi : D.Inv s) (hs : A s) :
    Safe D adm a t Ends p s := by
  induction p generalizing s with
  | ret b => exact trivial
  | raise e => exact trivial
  | stmt run k ih =>
      intro b s' hrun _
      obtain ⟨hstep, hk⟩ := h t s b s' hrun
      obtain ⟨hi', hg, hs'⟩ := hM s s' hi hs hstep
      exact ⟨hi', hg, fun s'' hrely => ih b hk (hrely.inv hi') (hA.rely hrely hs')⟩

structure Growth (S : Type) [Transactional S] where
  Inv : S → Prop
  Le : S → S → Prop
  refl : ∀ s, Le s s
  trans : ∀ s s' s'', Le s s' → Le s' s'' → Le s s''
  rollback : ∀ t s, Inv s →
    Inv (Transactional.rollback t s) ∧ Le s (Transactional.rollback t s)

namespace Growth

variable {S ε α β γ C V : Type} [Transactional S] (G : Growth S)

/-- A step upwards to a store with the invariant. -/
def Up (s s' : S) : Prop := G.Inv s' ∧ G.Le s s'

/-- A fact that is carried along. -/
def Lasting (A : S → Prop) : Prop := ∀ s s', G.Up s s' → A s → A s'

/-- Every statement takes a step upwards, whatever the other sessions do in between, and
a value that is returned satisfies `Q`. -/
def Takes (Q : β → S → Prop) : Prog S ε β → S → Prop
  | .ret b, s => Q b s
  | .raise _, _ => True
  | .stmt run k, s => ∀ t b s', run t s = some (b, s') →
      G.Up s s' ∧ ∀ s'', G.Up s' s'' → Takes Q (k b) s''

variable {G} {Q : γ → S → Prop} {R : β → S → Prop} {s : S}

theorem Up.refl (h : G.Inv s) : G.Up s s := ⟨h, G.refl s⟩

theorem Up.trans {s' s'' : S} (h : G.Up s s') (h' : G.Up s' s'') : G.Up s s'' :=
  ⟨h'.1, G.trans _ _ _ h.2 h'.2⟩

theorem takes_ret {b : γ} (h : Q b s) : G.Takes Q (pure b : Prog S ε γ) s := h

theorem takes_raise {e : ε} : G.Takes Q (.raise e : Prog S ε γ) s := trivial

/-- Whatever holds before the first part and is carried along holds after it. -/
theorem takes_bind {p : Prog S ε β} {g : β → Prog S ε γ} (hs : G.Inv s)
    (h : G.Takes R p s) (hg : ∀ b u, G.Up s u → R b u → G.Takes Q (g b) u) :
    G.Takes Q (p >>= g) s := by
  induction p generalizing s with
  | ret b => exact hg b s (.refl hs) h
  | raise e => exact trivial
  | stmt run k ih =>
      intro t b s' hrun
      obtain ⟨hup, hk⟩ := h t b s' hrun
      refine ⟨hup, fun s'' hup' => ?_⟩
      exact ih b hup'.1 (hk s'' hup') fun b u hu hR => hg b u ((hup.trans hup').trans hu) hR

theorem takes_mono {R : γ → S → Prop} {p : Prog S ε γ} (h : G.Takes R p s) (hs : G.Inv s)
    (hRQ : ∀ b u, G.Up s u → R b u → Q b u) : G.Takes Q p s := by
  induction p generalizing s with
  | ret b => exact hRQ b s (.refl hs) h
  | raise e => exact trivial
  | stmt run k ih =>
      intro t b s' hrun
      obtain ⟨hup, hk⟩ := h t b s' hrun
      refine ⟨hup, fun s'' hup' => ?_⟩
      exact ih b (hk s'' hup') hup'.1 fun b u hu hR => hRQ b u ((hup.trans hup').trans hu) hR

/-! ## Statements -/

theorem takes_stmt {run : Sid → S → Option (γ × S)}
    (h : ∀ t b s', run t s = some (b, s') →
      G.Up s s' ∧ ∀ s'', G.Up s' s'' → Q b s'') :
    G.Takes Q (Prog.stmt run Prog.ret : Prog S ε γ) s := h

theorem takes_query {f : Sid → S → γ} (hs : G.Inv s)
    (h : ∀ t s', G.Up s s' → Q (f t s) s') : G.Takes Q (query f : Prog S ε γ) s := by
  refine takes_stmt fun t b s' hrun => ?_
  cases hrun
  exact ⟨.refl hs, h t⟩

theorem takes_commit (h : ∀ t, G.Up s (Transactional.commit t s)) :
    G.Takes (fun _ _ => True) (commit : Prog S ε Unit) s := by
  refine takes_stmt fun t b s' hrun => ?_
  cases hrun
  exact ⟨h t, fun _ _ => trivial⟩

variable {T : Access S V}

theorem takes_insert {row : Nat → V} {Q : Nat → S → Prop}
    (h : ∀ t s', s' = T.set s ((T.get s).insert t (row (T.get s).next)) →
      G.Up s s' ∧ ∀ s'', G.Up s' s'' → Q (T.get s).next s'') :
    G.Takes Q (insert T row : Prog S ε Nat) s := by
  refine takes_stmt fun t b s' hrun => ?_
  cases hrun
  exact h t _ rfl

theorem takes_insertUnique {conflict : V → Bool} {row : Sid → V} (hs : G.Inv s)
    (h : ∀ t, G.Up s (T.set s ((T.get s).insert t (row t)))) :
    G.Takes (fun _ _ => True) (insertUnique T conflict row : Prog S ε (Option Nat)) s := by
  refine takes_stmt fun t b s' hrun => ⟨?_, fun _ _ => trivial⟩
  cases b with
  | none =>
      rw [runInsertUnique_none hrun]
      exact .refl hs
  | some n =>
      obtain ⟨-, -, -, rfl⟩ := runInsertUnique_some hrun
      exact h t

theorem takes_updateWhere {k : Nat} {p : V → Bool} {f : V → V} (hs : G.Inv s)
    (h : ∀ t v, (T.get s).read t k = some v → G.Up s (T.set s ((T.get s).write t k (f v)))) :
    G.Takes (fun _ _ => True) (updateWhere T k p f : Prog S ε (Option V)) s := by
  refine takes_stmt fun t b s' hrun => ⟨?_, fun _ _ => trivial⟩
  cases b with
  | none =>
      obtain ⟨rfl, -⟩ := runUpdate_none hrun
      exact .refl hs
  | some v' =>
      obtain ⟨v, hv, -, -, -, rfl⟩ := runUpdate_some hrun
      exact h t v hv

theorem takes_updateEach {p : V → Bool} {f : V → V} (hs : G.Inv s)
    (h : ∀ t k u v, G.Up s u → (T.get u).read t k = some v →
      G.Up u (T.set u ((T.get u).write t k (f v)))) (keys : List Nat) :
    G.Takes (fun _ _ => True) (updateEach T p f keys : Prog S ε Unit) s := by
  induction keys generalizing s with
  | nil => exact takes_ret trivial
  | cons k rest ih =>
      refine takes_bind hs (takes_updateWhere hs fun t v hv => h t k s v (.refl hs) hv) ?_
      intro b u hu _
      exact ih hu.1 fun t j w v hw hv => h t j w v (hu.trans hw) hv

theorem takes_updateAll {p : V → Bool} {f : V → V} (hs : G.Inv s)
    (h : ∀ t k u v, G.Up s u → (T.get u).read t k = some v →
      G.Up u (T.set u ((T.get u).write t k (f v)))) :
    G.Takes (fun _ _ => True) (updateAll T p f : Prog S ε Unit) s := by
  refine takes_bind (R := fun _ _ => True) hs (takes_query hs fun _ _ _ => trivial) ?_
  intro rows u hu _
  exact takes_updateEach hu.1 (fun t k w v hw hv => h t k w v (hu.trans hw) hv) _

theorem takes_only {M : Sid → S → S → Prop} {p : Prog S ε γ} (h : p.Only M)
    (hM : ∀ t s s', G.Inv s → M t s s' → G.Up s s') (hs : G.Inv s) :
    G.Takes (fun _ _ => True) p s := by
  induction p generalizing s with
  | ret b => exact trivial
  | raise e => exact trivial
  | stmt run k ih =>
      intro t b s' hrun
      obtain ⟨hstep, hk⟩ := h t s b s' hrun
      exact ⟨hM t s s' hs hstep, fun s'' hup => ih b hk hup.1⟩

/-! ## Runs -/

section Runs

variable (G)

/-- All sessions guarantee a step upwards.  `Done` is what a call has established. -/
def discipline (Done : C → α → S → Prop) (hdone : ∀ a b, G.Lasting (Done a b)) :
    Discipline S ε α C where
  Inv := G.Inv
  Guar _ _ := G.Le
  Idle _ _ := True
  Done _ a r s := ∀ b, r = .ok b → Done a b s
  guar_refl _ _ s _ := G.refl s
  idle_keep _ _ _ _ _ _ _ _ _ := trivial
  done_keep _ _ _ a _ s s' _ hle hs' h := fun b hb => hdone a b s s' ⟨hs', hle⟩ (h b hb)
  rollback_inv t s h := (G.rollback t s h).1
  rollback_guar _ t s h := (G.rollback t s h).2
  rollback_idle _ _ := trivial

variable {G} {Done : C → α → S → Prop} {hdone : ∀ a b, G.Lasting (Done a b)}

theorem up_of_rely {t : Sid} {s' : S} (hs : G.Inv s)
    (h : (G.discipline (ε := ε) Done hdone).Rely t s s') : G.Up s s' := by
  induction h with
  | refl => exact .refl hs
  | tail _ hstep ih =>
      obtain ⟨-, hs', a, o, -, hle⟩ := hstep
      exact ih.trans ⟨hs', hle⟩

theorem takes_safe {adm : S → S → Prop} {a : C} {t : Sid} {p : Prog S ε α}
    (h : G.Takes (Done a) p s) :
    Safe (G.discipline (ε := ε) Done hdone) adm a t
      ((G.discipline (ε := ε) Done hdone).Done t a) p s := by
  induction p generalizing s with
  | ret b =>
      intro b' hb'
      cases hb'
      exact h
  | raise e =>
      intro b' hb'
      cases hb'
  | stmt run k ih =>
      intro b s' hrun _
      obtain ⟨hup, hk⟩ := h t b s' hrun
      exact ⟨hup.1, hup.2, fun s'' hrely => ih b (hk s'' (up_of_rely hup.1 hrely))⟩

/-- A call may have to start from a store with `Start`, if it runs a statement at all. -/
theorem verified {body : C → Prog S ε α} {Start : C → S → Prop}
    (h : ∀ a s, G.Inv s → ((body a).outcome = none → Start a s) →
      G.Takes (Done a) (body a) s) :
    (G.discipline (ε := ε) Done hdone).Verified (fun a s₀ _ _ => Start a s₀) body := by
  intro a t s hs _
  by_cases hstart : (body a).outcome = none → Start a s
  · exact takes_safe (h a s hs hstart)
  · obtain ⟨hout, hnot⟩ := Classical.not_imp.mp hstart
    cases hp : body a with
    | ret b => rw [hp] at hout; cases hout
    | raise e => rw [hp] at hout; cases hout
    | stmt run k => exact fun b s' _ hadm => absurd hadm hnot

variable {adm : C → S → S → S → Prop} {body : C → Prog S ε α} {c c' : Config S ε α C}

theorem runWith_up (hD : (G.discipline (ε := ε) Done hdone).Verified adm body)
    (hc : c.Sound (G.discipline Done hdone) adm) (h : RunWith body adm c c') :
    G.Up c.store c'.store := by
  refine RunWith.keeps hD (P := fun s => G.Up c.store s) ?_ hc h (.refl hc.inv)
  intro a t s₀ s s' _ hs' hle _ hup
  exact hup.trans ⟨hs', hle⟩

/-- The store may be taken upwards from outside. -/
theorem sound_up [Inhabited C] (hc : c.Sound (G.discipline (ε := ε) Done hdone) adm) {s : S}
    (h : G.Up c.store s) : ({ c with store := s } : Config S ε α C).Sound
      (G.discipline Done hdone) adm where
  inv := h.1
  idle _ _ := trivial
  unused := hc.unused
  safe t se hse s' hrely := by
    have hne : t + 1 ≠ t := Nat.succ_ne_self t
    exact hc.safe t se hse s' (.head ⟨hc.inv, h.1, default, t + 1, hne, h.2⟩ hrely)
  log x hx b hb := hdone x.2.1 b _ _ h (hc.log x hx b hb)

end Runs

end Growth

/-- Every run is one whose steps meet no condition. -/
theorem Run.always {S ε α C : Type} [Transactional S] {body : C → Prog S ε α}
    {c c' : Config S ε α C} (h : Run body c c') : RunWith body (fun _ _ _ _ => True) c c' := by
  induction h with
  | refl => exact .refl
  | tail _ hstep ih =>
      obtain ⟨t, hs⟩ := hstep
      exact .tail ih ⟨t, hs, fun _ _ => trivial⟩

theorem RunWith.mono {S ε α C : Type} [Transactional S] {body : C → Prog S ε α}
    {adm adm' : C → S → S → S → Prop} (hadm : ∀ a s₀ s s', adm a s₀ s s' → adm' a s₀ s s')
    {c c' : Config S ε α C} (h : RunWith body adm c c') : RunWith body adm' c c' := by
  induction h with
  | refl => exact .refl
  | tail _ hstep ih =>
      obtain ⟨t, hs, ha⟩ := hstep
      exact .tail ih ⟨t, hs, fun se hse => hadm _ _ _ _ (ha se hse)⟩

end Sql
