/-
Interleaved runs of transaction programs, and a rely-guarantee logic for them.

A configuration holds the store and the open sessions.  A step opens a session
for some call, runs the next statement of an open session, closes a session that
has returned or raised, or kills one.  Closing and killing roll the session's
open transaction back.

A `Discipline` names an invariant of the store and, for every call, what one of
its steps may do to the store (`Guar`).  A session relies on the others to take
guaranteed steps only.  `Safe` says of the rest of a program that all its steps
keep the invariant and the guarantee, whatever the other sessions do between
them, and `Run.sound` lifts it to every run.
-/
import Mathlib.Logic.Relation
import Rcp.Sql.Program

namespace Sql

open Relation

variable {S ε α C : Type}

structure Session (S ε α C : Type) where
  call : C
  /-- The store that the first statement of the call has run on. -/
  opened : Option S
  /-- What remains of the call. -/
  prog : Prog S ε α

structure Config (S ε α C : Type) where
  store : S
  sessions : Sid → Option (Session S ε α C)
  /-- Session numbers from here on are unused. -/
  fresh : Sid
  /-- The calls that have ended, latest first. -/
  log : List (Sid × C × Except ε α)

def Config.start (s : S) : Config S ε α C :=
  { store := s, sessions := fun _ => none, fresh := 0, log := [] }

def Prog.outcome : Prog S ε α → Option (Except ε α)
  | .ret a => some (.ok a)
  | .raise e => some (.error e)
  | .stmt _ _ => none

section Step

variable [Transactional S] (body : C → Prog S ε α)

/-- One step of session `t`. -/
inductive Step : Config S ε α C → Sid → Config S ε α C → Prop
  | start (c : Config S ε α C) (a : C) :
      Step c c.fresh
        { c with
          sessions := Function.update c.sessions c.fresh (some ⟨a, none, body a⟩)
          fresh := c.fresh + 1 }
  | exec {c : Config S ε α C} {t : Sid} {se : Session S ε α C} {β : Type}
      {run : Sid → S → Option (β × S)} {k : β → Prog S ε α} {b : β} {s' : S}
      (hse : c.sessions t = some se) (hp : se.prog = .stmt run k)
      (hr : run t c.store = some (b, s')) :
      Step c t
        { c with
          store := s'
          sessions := Function.update c.sessions t
            (some { se with opened := some (se.opened.getD c.store), prog := k b }) }
  | close {c : Config S ε α C} {t : Sid} {se : Session S ε α C} {o : Except ε α}
      (hse : c.sessions t = some se) (ho : se.prog.outcome = some o) :
      Step c t
        { c with
          store := Transactional.rollback t c.store
          sessions := Function.update c.sessions t none
          log := (t, se.call, o) :: c.log }
  | crash {c : Config S ε α C} {t : Sid} {se : Session S ε α C}
      (hse : c.sessions t = some se) :
      Step c t
        { c with
          store := Transactional.rollback t c.store
          sessions := Function.update c.sessions t none }

/-- A condition on the steps of a call: what the store was when its first statement
ran, and the store before and after the step. -/
def Admissible (adm : C → S → S → S → Prop) (c : Config S ε α C) (t : Sid)
    (c' : Config S ε α C) : Prop :=
  ∀ se, c.sessions t = some se → adm se.call (se.opened.getD c.store) c.store c'.store

/-- Runs all of whose steps meet the condition `adm`. -/
def RunWith (adm : C → S → S → S → Prop) (c c' : Config S ε α C) : Prop :=
  ReflTransGen (fun a b => ∃ t, Step body a t b ∧ Admissible adm a t b) c c'

def Run (c c' : Config S ε α C) : Prop :=
  ReflTransGen (fun a b => ∃ t, Step body a t b) c c'

variable {body}

theorem RunWith.run {adm : C → S → S → S → Prop} {c c' : Config S ε α C}
    (h : RunWith body adm c c') : Run body c c' := by
  induction h with
  | refl => exact .refl
  | tail _ hstep ih =>
      obtain ⟨t, hs, -⟩ := hstep
      exact .tail ih ⟨t, hs⟩

/-- Sessions in the log have ended, and each is there once. -/
structure Config.Logged (c : Config S ε α C) : Prop where
  used : ∀ t, c.sessions t ≠ none → t < c.fresh
  ended : ∀ x ∈ c.log, x.1 < c.fresh ∧ c.sessions x.1 = none
  nodup : (c.log.map Prod.fst).Nodup

theorem Step.logged {c c' : Config S ε α C} {t : Sid} (h : Step body c t c') (hc : c.Logged) :
    c'.Logged := by
  cases h with
  | start a =>
      refine ⟨fun o ho => ?_, fun x hx => ?_, hc.nodup⟩
      · show o < c.fresh + 1
        by_cases hof : o = c.fresh
        · exact hof ▸ Nat.lt_succ_self _
        · exact Nat.lt_succ_of_lt (hc.used o (by simpa [hof] using ho))
      · obtain ⟨hlt, hnone⟩ := hc.ended x hx
        have hne : x.1 ≠ c.fresh := Nat.ne_of_lt hlt
        exact ⟨Nat.lt_succ_of_lt hlt, by simpa [hne] using hnone⟩
  | exec hse hp hr =>
      refine ⟨fun o ho => ?_, fun x hx => ?_, hc.nodup⟩
      · by_cases hot : o = t
        · exact hc.used o (by rw [hot, hse]; simp)
        · exact hc.used o (by simpa [hot] using ho)
      · obtain ⟨hlt, hnone⟩ := hc.ended x hx
        have hne : x.1 ≠ t := by
          intro heq
          rw [heq, hse] at hnone
          cases hnone
        exact ⟨hlt, by simpa [hne] using hnone⟩
  | close hse ho =>
      refine ⟨fun o ho => ?_, fun x hx => ?_, ?_⟩
      · by_cases hot : o = t
        · simp [hot] at ho
        · exact hc.used o (by simpa [hot] using ho)
      · rcases List.mem_cons.mp hx with rfl | hx
        · exact ⟨hc.used t (by rw [hse]; simp), by simp⟩
        · obtain ⟨hlt, hnone⟩ := hc.ended x hx
          refine ⟨hlt, ?_⟩
          by_cases hxt : x.1 = t
          · simp [hxt]
          · simpa [hxt] using hnone
      · refine List.nodup_cons.mpr ⟨fun hmem => ?_, hc.nodup⟩
        obtain ⟨x, hx, hxt⟩ := List.mem_map.mp hmem
        have hnone := (hc.ended x hx).2
        have hxt' : x.1 = t := hxt
        rw [hxt', hse] at hnone
        cases hnone
  | crash hse =>
      refine ⟨fun o ho => ?_, fun x hx => ?_, hc.nodup⟩
      · by_cases hot : o = t
        · simp [hot] at ho
        · exact hc.used o (by simpa [hot] using ho)
      · obtain ⟨hlt, hnone⟩ := hc.ended x hx
        refine ⟨hlt, ?_⟩
        by_cases hxt : x.1 = t
        · simp [hxt]
        · simpa [hxt] using hnone

theorem Run.logged {c c' : Config S ε α C} (h : Run body c c') (hc : c.Logged) : c'.Logged := by
  induction h with
  | refl => exact hc
  | tail _ hstep ih =>
      obtain ⟨t, hs⟩ := hstep
      exact hs.logged ih

omit [Transactional S] in
theorem Config.start_logged (s : S) : (Config.start s : Config S ε α C).Logged where
  used := fun _ h => absurd rfl h
  ended := fun x hx => by cases hx
  nodup := List.nodup_nil

end Step

/-! ## Disciplines -/

structure Discipline (S ε α C : Type) [Transactional S] where
  Inv : S → Prop
  /-- What a step of call `a` in session `t` may do. -/
  Guar : C → Sid → S → S → Prop
  /-- The session has no open writes. -/
  Idle : Sid → S → Prop
  /-- What is known of an ended call. -/
  Done : Sid → C → Except ε α → S → Prop
  guar_refl : ∀ a t s, Inv s → Guar a t s s
  idle_keep : ∀ a t o s s', o ≠ t → Inv s → Guar a t s s' → Idle o s → Idle o s'
  done_keep : ∀ a t o b r s s', Inv s → Guar a t s s' → Inv s' → Done o b r s → Done o b r s'
  rollback_inv : ∀ t s, Inv s → Inv (Transactional.rollback t s)
  rollback_guar : ∀ a t s, Inv s → Guar a t s (Transactional.rollback t s)
  rollback_idle : ∀ t s, Idle t (Transactional.rollback t s)

section Logic

variable [Transactional S] (D : Discipline S ε α C)

/-- What the other sessions may have done between two steps of session `t`. -/
def Discipline.Rely (t : Sid) : S → S → Prop :=
  ReflTransGen fun s s' => D.Inv s ∧ D.Inv s' ∧ ∃ a o, o ≠ t ∧ D.Guar a o s s'

/-- An assertion of session `t` that no step of another session breaks. -/
def Discipline.Stable (t : Sid) (A : S → Prop) : Prop :=
  ∀ a o s s', o ≠ t → D.Inv s → D.Guar a o s s' → D.Inv s' → A s → A s'

/-- The rest of a program of call `a` in session `t`, run from store `s`. -/
def Safe {β : Type} (adm : S → S → Prop) (a : C) (t : Sid) (Q : Except ε β → S → Prop) :
    Prog S ε β → S → Prop
  | .ret b, s => Q (.ok b) s
  | .raise e, s => Q (.error e) s
  | .stmt run k, s => ∀ b s', run t s = some (b, s') → adm s s' →
      D.Inv s' ∧ D.Guar a t s s' ∧ ∀ s'', D.Rely t s' s'' → Safe adm a t Q (k b) s''

variable {D} {β γ : Type} {adm : S → S → Prop} {a : C} {t : Sid}

theorem Discipline.Rely.inv {s s' : S} (h : D.Rely t s s') (hs : D.Inv s) : D.Inv s' := by
  induction h with
  | refl => exact hs
  | tail _ hstep _ => exact hstep.2.1

theorem Discipline.Stable.rely {A : S → Prop} (hA : D.Stable t A) {s s' : S}
    (h : D.Rely t s s') (hs : A s) : A s' := by
  induction h with
  | refl => exact hs
  | tail _ hstep ih =>
      obtain ⟨hi, hi', b, o, ho, hg⟩ := hstep
      exact hA b o _ _ ho hi hg hi' ih

theorem Discipline.idle_stable (D : Discipline S ε α C) (t : Sid) : D.Stable t (D.Idle t) :=
  fun a o s s' ho hi hg _ hidle => D.idle_keep a o t s s' ho.symm hi hg hidle

theorem Discipline.Stable.and {A B : S → Prop} (hA : D.Stable t A) (hB : D.Stable t B) :
    D.Stable t fun s => A s ∧ B s :=
  fun b o s s' ho hi hg hi' h => ⟨hA b o s s' ho hi hg hi' h.1, hB b o s s' ho hi hg hi' h.2⟩

theorem Safe.mono {Q R : Except ε β → S → Prop} (hQR : ∀ r s, Q r s → R r s)
    {p : Prog S ε β} {s : S} (h : Safe D adm a t Q p s) : Safe D adm a t R p s := by
  induction p generalizing s with
  | ret b => exact hQR _ _ h
  | raise e => exact hQR _ _ h
  | stmt run k ih =>
      intro b s' hr hadm
      obtain ⟨hi, hg, hk⟩ := h b s' hr hadm
      exact ⟨hi, hg, fun s'' hrely => ih b (hk s'' hrely)⟩

/-- Sequential composition. -/
theorem Safe.bind {Q : Except ε γ → S → Prop} {R : β → S → Prop} {p : Prog S ε β}
    {f : β → Prog S ε γ} {s : S}
    (h : Safe D adm a t (fun r s => match r with
      | .ok b => R b s
      | .error e => Q (.error e) s) p s)
    (hf : ∀ b s, R b s → Safe D adm a t Q (f b) s) :
    Safe D adm a t Q (p >>= f) s := by
  induction p generalizing s with
  | ret b => exact hf b s h
  | raise e => exact h
  | stmt run k ih =>
      intro b s' hr hadm
      obtain ⟨hi, hg, hk⟩ := h b s' hr hadm
      exact ⟨hi, hg, fun s'' hrely => ih b (hk s'' hrely)⟩

/-- The postcondition of a part of a call: `R` if it returns. -/
def Returns (R : β → S → Prop) : Except ε β → S → Prop
  | .ok b, s => R b s
  | .error _, _ => True

/-- Nothing is asked of the result. -/
def Ends : Except ε β → S → Prop := fun _ _ => True

theorem safe_then {Q : Except ε γ → S → Prop} {R : β → S → Prop} {p : Prog S ε β}
    {g : β → Prog S ε γ} {s : S} (h : Safe D adm a t (Returns R) p s)
    (hQ : ∀ e u, Q (.error e) u) (hg : ∀ b u, R b u → Safe D adm a t Q (g b) u) :
    Safe D adm a t Q (p >>= g) s := by
  refine Safe.bind (R := R) (h.mono fun r u hr => ?_) hg
  cases r with
  | ok b => exact hr
  | error e => exact hQ e u

theorem safe_bind {R : β → S → Prop} {p : Prog S ε β} {g : β → Prog S ε γ} {s : S}
    (h : Safe D adm a t (Returns R) p s)
    (hg : ∀ b u, R b u → Safe D adm a t Ends (g b) u) : Safe D adm a t Ends (p >>= g) s :=
  safe_then h (fun _ _ => trivial) hg

theorem safe_returns_bind {R : β → S → Prop} {R' : γ → S → Prop} {p : Prog S ε β}
    {g : β → Prog S ε γ} {s : S} (h : Safe D adm a t (Returns R) p s)
    (hg : ∀ b u, R b u → Safe D adm a t (Returns R') (g b) u) :
    Safe D adm a t (Returns R') (p >>= g) s :=
  safe_then h (fun _ _ => trivial) hg

/-- The postcondition of a part of a call that does not raise. -/
def Yields (R : β → S → Prop) : Except ε β → S → Prop
  | .ok b, s => R b s
  | .error _, _ => False

theorem safe_yields_bind {Q : Except ε γ → S → Prop} {R : β → S → Prop} {p : Prog S ε β}
    {g : β → Prog S ε γ} {s : S} (h : Safe D adm a t (Yields R) p s)
    (hg : ∀ b u, R b u → Safe D adm a t Q (g b) u) : Safe D adm a t Q (p >>= g) s := by
  refine Safe.bind (R := R) (h.mono fun r u hr => ?_) hg
  cases r with
  | ok b => exact hr
  | error e => exact hr.elim

/-- One statement: what it establishes must be stable before the rest runs. -/
theorem Safe.stmt {Q : Except ε γ → S → Prop} {R : β → S → Prop}
    {run : Sid → S → Option (β × S)} {f : β → Prog S ε γ} {s : S}
    (h : ∀ b s', run t s = some (b, s') → adm s s' →
      D.Inv s' ∧ D.Guar a t s s' ∧ D.Stable t (R b) ∧ R b s')
    (hf : ∀ b s, D.Inv s → R b s → Safe D adm a t Q (f b) s) :
    Safe D adm a t Q (Prog.stmt run Prog.ret >>= f) s := by
  intro b s' hr hadm
  obtain ⟨hi, hg, hst, hR⟩ := h b s' hr hadm
  exact ⟨hi, hg, fun s'' hrely => hf b s'' (hrely.inv hi) (hst.rely hrely hR)⟩

/-- A statement that only reads. -/
theorem Safe.query {Q : Except ε γ → S → Prop} {R : S → Prop} {f : Sid → S → β}
    {g : β → Prog S ε γ} {s : S} (hi : D.Inv s) (hst : D.Stable t R) (hR : R s)
    (hg : ∀ s', D.Inv s' → R s' → Safe D adm a t Q (g (f t s)) s') :
    Safe D adm a t Q (Sql.query f >>= g) s := by
  intro b s' hr _
  cases hr
  exact ⟨hi, D.guar_refl a t s hi, fun s'' hrely => hg s'' (hrely.inv hi) (hst.rely hrely hR)⟩

/-- Guaranteed steps of call `a` with no step of another session between them. -/
def Discipline.Chain (D : Discipline S ε α C) (a : C) (t : Sid) : S → S → Prop :=
  ReflTransGen fun u v => D.Inv u ∧ D.Inv v ∧ D.Guar a t u v

/-- A safe program run without interruption takes guaranteed steps only. -/
theorem Safe.exec {Q : Except ε β → S → Prop} {p : Prog S ε β} {s s' : S} {r : Except ε β}
    (h : Safe D (fun _ _ => True) a t Q p s) (hi : D.Inv s)
    (hx : p.exec t s = some (r, s')) :
    D.Inv s' ∧ Q r s' ∧ D.Chain a t s s' := by
  induction p generalizing s with
  | ret b =>
      cases hx
      exact ⟨hi, h, .refl⟩
  | raise e =>
      cases hx
      exact ⟨hi, h, .refl⟩
  | stmt run k ih =>
      simp only [Prog.exec] at hx
      cases hr : run t s with
      | none => rw [hr] at hx; cases hx
      | some q =>
          rw [hr] at hx
          obtain ⟨hi', hg, hk⟩ := h q.1 q.2 hr trivial
          obtain ⟨hi'', hq, hsteps⟩ := ih q.1 (hk q.2 .refl) hi' hx
          exact ⟨hi'', hq, .head ⟨hi, hi', hg⟩ hsteps⟩

end Logic

/-! ## Soundness -/

section Soundness

variable [Transactional S] (D : Discipline S ε α C) (adm : C → S → S → S → Prop)
  (body : C → Prog S ε α)

/-- Every call is safe from any store in which its session is idle. -/
def Discipline.Verified : Prop :=
  ∀ a t s, D.Inv s → D.Idle t s → Safe D (adm a s) a t (D.Done t a) (body a) s

structure Config.Sound (c : Config S ε α C) : Prop where
  inv : D.Inv c.store
  idle : ∀ t, c.sessions t = none → D.Idle t c.store
  unused : ∀ t, c.fresh ≤ t → c.sessions t = none
  safe : ∀ t se, c.sessions t = some se → ∀ s, D.Rely t c.store s →
    Safe D (adm se.call (se.opened.getD s)) se.call t (D.Done t se.call) se.prog s
  log : ∀ x ∈ c.log, D.Done x.1 x.2.1 x.2.2 c.store

variable {D adm body}

/-- Fewer steps need be taken into account. -/
theorem Safe.fewer {β : Type} {adm adm' : S → S → Prop} {a : C} {t : Sid}
    {Q : Except ε β → S → Prop} {p : Prog S ε β} {s : S} (h : Safe D adm a t Q p s)
    (hadm : ∀ s s', adm' s s' → adm s s') : Safe D adm' a t Q p s := by
  induction p generalizing s with
  | ret b => exact h
  | raise e => exact h
  | stmt run k ih =>
      intro b s' hrun hs'
      obtain ⟨hinv, hguar, hrest⟩ := h b s' hrun (hadm s s' hs')
      exact ⟨hinv, hguar, fun s'' hrely => ih b (hrest s'' hrely)⟩

theorem Config.Sound.fewer {adm' : C → S → S → S → Prop} {c : Config S ε α C}
    (h : c.Sound D adm) (hadm : ∀ a s₀ s s', adm' a s₀ s s' → adm a s₀ s s') :
    c.Sound D adm' where
  inv := h.inv
  idle := h.idle
  unused := h.unused
  safe t se hse s hrely := (h.safe t se hse s hrely).fewer fun s s' => hadm _ _ s s'
  log := h.log

theorem Config.start_sound {s : S} (hi : D.Inv s) (hidle : ∀ t, D.Idle t s) :
    (Config.start s : Config S ε α C).Sound D adm where
  inv := hi
  idle := fun t _ => hidle t
  unused := fun _ _ => rfl
  safe := fun t se h => by cases h
  log := fun x h => by cases h

/-- The store moves by a guaranteed step of `t`, and only `t`'s session changes. -/
theorem Config.Sound.step_store {c : Config S ε α C} (hc : c.Sound D adm) {a : C} {t : Sid}
    {s' : S} (hi : D.Inv s') (hg : D.Guar a t c.store s') :
    (∀ o, o ≠ t → c.sessions o = none → D.Idle o s') ∧
    (∀ o se, o ≠ t → c.sessions o = some se → ∀ s, D.Rely o s' s →
      Safe D (adm se.call (se.opened.getD s)) se.call o (D.Done o se.call) se.prog s) ∧
    (∀ x ∈ c.log, D.Done x.1 x.2.1 x.2.2 s') := by
  refine ⟨fun o ho hn => ?_, fun o se ho hse s hrely => ?_, fun x hx => ?_⟩
  · exact D.idle_keep a t o _ _ ho hc.inv hg (hc.idle o hn)
  · refine hc.safe o se hse s (.head ⟨hc.inv, hi, a, t, ho.symm, hg⟩ hrely)
  · exact D.done_keep a t x.1 x.2.1 x.2.2 _ _ hc.inv hg hi (hc.log x hx)

/-- A session is rolled back and gone. -/
theorem Config.Sound.dropped {c : Config S ε α C} (hc : c.Sound D adm) (a : C) {t : Sid}
    {log : List (Sid × C × Except ε α)}
    (hlog : ∀ x ∈ log, x ∈ c.log ∨ D.Done x.1 x.2.1 x.2.2 (Transactional.rollback t c.store)) :
    Config.Sound D adm { c with
      store := Transactional.rollback t c.store
      sessions := Function.update c.sessions t none
      log := log } := by
  obtain ⟨hidle, hothers, hkept⟩ :=
    hc.step_store (D.rollback_inv t c.store hc.inv) (D.rollback_guar a t c.store hc.inv)
  refine ⟨D.rollback_inv t c.store hc.inv, fun o hn => ?_, fun o ho => ?_, fun o se hse => ?_,
    fun x hx => (hlog x hx).elim (hkept x) id⟩
  · by_cases h : o = t
    · subst h
      exact D.rollback_idle o c.store
    · exact hidle o h (by simpa [h] using hn)
  · by_cases h : o = t
    · simp [h]
    · simpa [h] using hc.unused o ho
  · by_cases h : o = t
    · subst h
      simp at hse
    · exact hothers o se h (by simpa [h] using hse)

/-- The calls must be verified only if the step opens a session. -/
theorem Step.sound_open {c c' : Config S ε α C} {t : Sid}
    (hD : c'.fresh ≠ c.fresh → D.Verified adm body)
    (hc : c.Sound D adm) (h : Step body c t c') (ha : Admissible adm c t c') :
    c'.Sound D adm ∧ (c'.store = c.store ∨
      ∃ se, c.sessions t = some se ∧ D.Guar se.call t c.store c'.store) := by
  cases h with
  | start a =>
      have hidle : D.Idle c.fresh c.store := hc.idle _ (hc.unused _ (Nat.le_refl _))
      refine ⟨⟨hc.inv, fun o hn => ?_, fun o ho => ?_, fun o se hse => ?_, hc.log⟩, .inl rfl⟩
      · by_cases h : o = c.fresh
        · subst h
          exact hidle
        · exact hc.idle o (by simpa [h] using hn)
      · have ho' : c.fresh < o := ho
        simpa [Nat.ne_of_gt ho'] using hc.unused o (Nat.le_of_lt ho')
      · by_cases h : o = c.fresh
        · subst h
          simp only [Function.update_self, Option.some.injEq] at hse
          subst hse
          intro s hrely
          exact hD (Nat.succ_ne_self _) a _ s (hrely.inv hc.inv)
            ((D.idle_stable _).rely hrely hidle)
        · exact hc.safe o se (by simpa [h] using hse)
  | exec hse hp hr =>
      rename_i se β run k b s'
      have hsafe := hc.safe t se hse c.store .refl
      rw [hp] at hsafe
      obtain ⟨hi, hg, hk⟩ := hsafe b s' hr (ha se hse)
      obtain ⟨hidle, hothers, hlog⟩ := hc.step_store hi hg
      refine ⟨⟨hi, fun o hn => ?_, fun o ho => ?_, fun o se' hse' => ?_, hlog⟩,
        .inr ⟨se, hse, hg⟩⟩
      · by_cases h : o = t
        · subst h
          simp at hn
        · exact hidle o h (by simpa [h] using hn)
      · have hne : o ≠ t := by
          rintro rfl
          rw [hc.unused _ ho] at hse
          cases hse
        simpa [hne] using hc.unused o ho
      · by_cases h : o = t
        · subst h
          simp only [Function.update_self, Option.some.injEq] at hse'
          subst hse'
          exact hk
        · exact hothers o se' h (by simpa [h] using hse')
  | close hse ho =>
      rename_i se r
      have hg := D.rollback_guar se.call t c.store hc.inv
      have hdone : D.Done t se.call r c.store := by
        have hsafe := hc.safe t se hse c.store .refl
        cases hp : se.prog with
        | ret b => rw [hp] at hsafe ho; cases ho; exact hsafe
        | raise e => rw [hp] at hsafe ho; cases ho; exact hsafe
        | stmt run k => rw [hp] at ho; cases ho
      refine ⟨hc.dropped se.call fun x hx => ?_, .inr ⟨se, hse, hg⟩⟩
      rcases List.mem_cons.mp hx with rfl | hx
      · right
        exact D.done_keep se.call t t se.call r _ _ hc.inv hg (D.rollback_inv t c.store hc.inv) hdone
      · exact .inl hx
  | crash hse =>
      rename_i se
      exact ⟨hc.dropped se.call fun x hx => .inl hx,
        .inr ⟨se, hse, D.rollback_guar se.call t c.store hc.inv⟩⟩

theorem Step.sound (hD : D.Verified adm body) {c c' : Config S ε α C} {t : Sid}
    (hc : c.Sound D adm) (h : Step body c t c') (ha : Admissible adm c t c') :
    c'.Sound D adm ∧ (c'.store = c.store ∨
      ∃ se, c.sessions t = some se ∧ D.Guar se.call t c.store c'.store) :=
  h.sound_open (fun _ => hD) hc ha

theorem RunWith.sound (hD : D.Verified adm body) {c c' : Config S ε α C}
    (hc : c.Sound D adm) (h : RunWith body adm c c') : c'.Sound D adm := by
  induction h with
  | refl => exact hc
  | tail _ hstep ih =>
      obtain ⟨t, hs, ha⟩ := hstep
      exact (hs.sound hD ih ha).1

theorem Run.sound (hD : D.Verified (fun _ _ _ _ => True) body) {c c' : Config S ε α C}
    (hc : c.Sound D fun _ _ _ _ => True) (h : Run body c c') :
    c'.Sound D fun _ _ _ _ => True := by
  induction h with
  | refl => exact hc
  | tail _ hstep ih =>
      obtain ⟨t, hs⟩ := hstep
      exact (hs.sound hD ih fun _ _ => trivial).1

/-- A property of the store that every admissible guaranteed step keeps. -/
theorem RunWith.keeps (hD : D.Verified adm body) {P : S → Prop}
    (hP : ∀ a t s₀ s s', D.Inv s → D.Inv s' → D.Guar a t s s' → adm a s₀ s s' → P s → P s')
    {c c' : Config S ε α C} (hc : c.Sound D adm) (h : RunWith body adm c c')
    (hs : P c.store) : P c'.store := by
  induction h with
  | refl => exact hs
  | tail hrun hstep ih =>
      obtain ⟨t, hs', ha⟩ := hstep
      have hsound := RunWith.sound hD hc hrun
      obtain ⟨hsound', hmoved⟩ := hs'.sound hD hsound ha
      rcases hmoved with heq | ⟨se, hse, hg⟩
      · rw [heq]
        exact ih
      · exact hP se.call t _ _ _ hsound.inv hsound'.inv hg (ha se hse) ih

/-- Guaranteed steps that meet one condition meet another. -/
theorem RunWith.imp {adm' : C → S → S → S → Prop} (hD : D.Verified adm body)
    (hadm : ∀ a t s₀ s s', D.Inv s → D.Guar a t s s' → adm a s₀ s s' → adm' a s₀ s s')
    {c c' : Config S ε α C} (hc : c.Sound D adm) (h : RunWith body adm c c') :
    RunWith body adm' c c' := by
  induction h with
  | refl => exact .refl
  | tail hrun hstep ih =>
      obtain ⟨t, hs, ha⟩ := hstep
      have hsound := RunWith.sound hD hc hrun
      refine .tail ih ⟨t, hs, fun se hse => ?_⟩
      rcases (hs.sound hD hsound ha).2 with heq | ⟨se', hse', hg⟩
      · have hg := D.guar_refl se.call t _ hsound.inv
        have ha' := ha se hse
        rw [heq] at ha' ⊢
        exact hadm se.call t _ _ _ hsound.inv hg ha'
      · rw [hse] at hse'
        cases hse'
        exact hadm se.call t _ _ _ hsound.inv hg (ha se hse)

end Soundness
end Sql
