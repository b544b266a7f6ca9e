/-
Invariants that every statement keeps.

A fact about each version of each row, committed or pending, does not depend on what
other sessions do.  `Prog.Keeps I Q` says that every statement of a program keeps the
invariant `I` whenever it runs, and that the program returns only values with `Q`.
If all calls keep `I`, it holds in every run.
-/
import Rcp.Sql.Interleave

namespace Sql

open Relation

variable {S ε α β C V : Type}

namespace Table

/-- `P` holds of every version of every row. -/
def All (P : Nat → V → Prop) (T : Table V) : Prop := ∀ k v, T.Has k v → P k v

variable {P : Nat → V → Prop} {T : Table V}

theorem All.read (h : T.All P) {t : Sid} {k : Nat} {v : V} (hv : T.read t k = some v) : P k v :=
  h k v (Has.of_read hv)

theorem All.committed (h : T.All P) {k : Nat} {v : V} (hv : T.committed k = some v) : P k v :=
  h k v (.inl hv)

theorem All.write (h : T.All P) {t : Sid} {k : Nat} {v : V} (hv : P k v) :
    (T.write t k v).All P := by
  intro j u hu
  rcases Has.of_write hu with hu | ⟨rfl, rfl⟩
  · exact h j u hu
  · exact hv

theorem All.insert (h : T.All P) {t : Sid} {v : V} (hv : P T.next v) : (T.insert t v).All P :=
  h.write (t := t) hv

theorem All.commit (h : T.All P) (t : Sid) : (T.commit t).All P :=
  fun k v hv => h k v (Has.of_commit hv)

theorem All.rollback (h : T.All P) (t : Sid) : (T.rollback t).All P :=
  fun k v hv => h k v (Has.of_rollback hv)

theorem empty_all : (empty : Table V).All P := by
  rintro k v (hv | ⟨o, hv⟩)
  · cases hv
  · cases hv

end Table

/-- Every statement keeps `I`, and a value that is returned satisfies `Q`. -/
def Prog.Keeps (I : S → Prop) (Q : α → Prop) : Prog S ε α → Prop
  | .ret a => Q a
  | .raise _ => True
  | .stmt run k => ∀ t s b s', I s → run t s = some (b, s') → I s' ∧ (k b).Keeps I Q

section Rules

variable {I : S → Prop} {Q : α → Prop} {R : β → Prop}

theorem keeps_ret {a : α} (h : Q a) : (pure a : Prog S ε α).Keeps I Q := h

theorem keeps_raise {e : ε} : (Prog.raise e : Prog S ε α).Keeps I Q := trivial

theorem keeps_bind {p : Prog S ε β} {g : β → Prog S ε α} (h : p.Keeps I R)
    (hg : ∀ b, R b → (g b).Keeps I Q) : (p >>= g).Keeps I Q := by
  induction p with
  | ret b => exact hg b h
  | raise e => exact trivial
  | stmt run k ih =>
      intro t s b s' hs hrun
      obtain ⟨hs', hk⟩ := h t s b s' hs hrun
      exact ⟨hs', ih b hk⟩

theorem keeps_stmt {run : Sid → S → Option (β × S)}
    (h : ∀ t s b s', I s → run t s = some (b, s') → I s' ∧ R b) :
    (Prog.stmt run Prog.ret : Prog S ε β).Keeps I R := h

theorem keeps_query {f : Sid → S → β} (h : ∀ t s, I s → R (f t s)) :
    (query f : Prog S ε β).Keeps I R := by
  refine keeps_stmt fun t s b s' hs hrun => ?_
  cases hrun
  exact ⟨hs, h t s hs⟩

theorem keeps_insert {T : Access S V} {row : Nat → V}
    (h : ∀ t s, I s → I (T.set s ((T.get s).insert t (row (T.get s).next)))) :
    (insert T row : Prog S ε Nat).Keeps I (fun _ => True) := by
  refine keeps_stmt fun t s b s' hs hrun => ?_
  cases hrun
  exact ⟨h t s hs, trivial⟩

theorem keeps_updateWhere {T : Access S V} {k : Nat} {p : V → Bool} {f : V → V}
    (h : ∀ t s v, I s → (T.get s).read t k = some v →
      I (T.set s ((T.get s).write t k (f v)))) :
    (updateWhere T k p f : Prog S ε (Option V)).Keeps I
      (fun r => ∀ v', r = some v' → ∃ v, p v = true ∧ v' = f v) := by
  refine keeps_stmt fun t s r s' hs hrun => ?_
  cases r with
  | none =>
      obtain ⟨rfl, -⟩ := runUpdate_none hrun
      exact ⟨hs, fun _ hv' => by cases hv'⟩
  | some v' =>
      obtain ⟨v, hv, hp, -, rfl, rfl⟩ := runUpdate_some hrun
      refine ⟨h t s v hs hv, fun u hu => ?_⟩
      cases hu
      exact ⟨v, hp, rfl⟩

theorem keeps_commit [Transactional S] (h : ∀ t s, I s → I (Transactional.commit t s)) :
    (commit : Prog S ε Unit).Keeps I (fun _ => True) := by
  refine keeps_stmt fun t s b s' hs hrun => ?_
  cases hrun
  exact ⟨h t s hs, trivial⟩

end Rules

section Runs

variable [Transactional S] {I : S → Prop} {body : C → Prog S ε α}

/-- The invariant holds and what remains of each call keeps it. -/
structure Config.Kept (I : S → Prop) (c : Config S ε α C) : Prop where
  inv : I c.store
  progs : ∀ t se, c.sessions t = some se → se.prog.Keeps I (fun _ => True)

theorem Step.kept (hrollback : ∀ t s, I s → I (Transactional.rollback t s))
    (hbody : ∀ a, (body a).Keeps I (fun _ => True)) {c c' : Config S ε α C} {t : Sid}
    (h : Step body c t c') (hc : c.Kept I) : c'.Kept I := by
  have hupdate : ∀ (x : Option (Session S ε α C)),
      (∀ se, x = some se → se.prog.Keeps I (fun _ => True)) → ∀ o se,
        Function.update c.sessions t x o = some se → se.prog.Keeps I (fun _ => True) := by
    intro x hx o se hse
    by_cases ho : o = t
    · subst ho
      rw [Function.update_self] at hse
      exact hx se hse
    · rw [Function.update_of_ne ho] at hse
      exact hc.progs o se hse
  cases h with
  | start a =>
      refine ⟨hc.inv, hupdate _ fun se hse => ?_⟩
      cases hse
      exact hbody a
  | @exec _ se β run k b s' hse hp hr =>
      have hkeeps := hc.progs t se hse
      rw [hp] at hkeeps
      obtain ⟨hs', hk⟩ := hkeeps t c.store b s' hc.inv hr
      refine ⟨hs', hupdate _ fun se' hse' => ?_⟩
      cases hse'
      exact hk
  | close hse ho => exact ⟨hrollback t _ hc.inv, hupdate _ fun se' hse' => by cases hse'⟩
  | crash hse => exact ⟨hrollback t _ hc.inv, hupdate _ fun se' hse' => by cases hse'⟩

theorem Run.keeps_inv (hrollback : ∀ t s, I s → I (Transactional.rollback t s))
    (hbody : ∀ a, (body a).Keeps I (fun _ => True)) {s : S} (hs : I s) {c : Config S ε α C}
    (h : Run body (Config.start s) c) : I c.store := by
  have hkept : c.Kept I := by
    induction h with
    | refl => exact ⟨hs, fun _ _ hse => by cases hse⟩
    | tail _ hstep ih =>
        obtain ⟨t, hstep⟩ := hstep
        exact hstep.kept hrollback hbody ih
  exact hkept.inv

end Runs
end Sql
