/-
Executable schedules.

A schedule lists which session moves next.  Running it computes the configuration
it leads to, which is a run of the system.  Calls made one after the other are a
schedule in which every session is closed before the next one opens.
-/
import Rcp.Sql.Interleave

namespace Sql

open Relation

variable {S ε α C : Type} [Transactional S] (body : C → Prog S ε α)

inductive Move (C : Type)
  /-- A client opens a session for a call. -/
  | begin (a : C)
  /-- The session runs its next statement. -/
  | next (t : Sid)
  /-- The session ends, its call having returned or raised. -/
  | close (t : Sid)

def Config.move (c : Config S ε α C) : Move C → Option (Config S ε α C)
  | .begin a =>
      some { c with
        sessions := Function.update c.sessions c.fresh (some ⟨a, none, body a⟩)
        fresh := c.fresh + 1 }
  | .next t =>
      match c.sessions t with
      | none => none
      | some se =>
          match se.prog with
          | .ret _ => none
          | .raise _ => none
          | .stmt run k =>
              match run t c.store with
              | none => none
              | some (b, s') =>
                  some { c with
                    store := s'
                    sessions := Function.update c.sessions t
                      (some { se with opened := some (se.opened.getD c.store), prog := k b }) }
  | .close t =>
      match c.sessions t with
      | none => none
      | some se =>
          match se.prog.outcome with
          | none => none
          | some o =>
              some { c with
                store := Transactional.rollback t c.store
                sessions := Function.update c.sessions t none
                log := (t, se.call, o) :: c.log }

def Config.play (c : Config S ε α C) : List (Move C) → Option (Config S ε α C)
  | [] => some c
  | m :: rest =>
      match c.move body m with
      | none => none
      | some c' => c'.play rest

/-- The session that moves. -/
def Move.session (c : Config S ε α C) : Move C → Sid
  | .begin _ => c.fresh
  | .next t => t
  | .close t => t

instance {adm : C → S → S → S → Prop} [∀ a s₀ s s', Decidable (adm a s₀ s s')]
    (c c' : Config S ε α C) (t : Sid) : Decidable (Admissible adm c t c') :=
  match h : c.sessions t with
  | none => isTrue fun se hse => by
      rw [h] at hse
      cases hse
  | some se => decidable_of_iff (adm se.call (se.opened.getD c.store) c.store c'.store)
      ⟨fun hadm se' hse' => by
        rw [h] at hse'
        cases hse'
        exact hadm, fun hadm => hadm se h⟩

/-- Play a schedule as long as its steps meet the condition `adm`. -/
def Config.playWith (adm : C → S → S → S → Prop) [∀ a s₀ s s', Decidable (adm a s₀ s s')]
    (c : Config S ε α C) : List (Move C) → Option (Config S ε α C)
  | [] => some c
  | m :: rest =>
      match c.move body m with
      | none => none
      | some c' => if Admissible adm c (m.session c) c' then c'.playWith adm rest else none

variable {body}

/-- What a move is: a session is opened, it runs a statement, or it ends and is logged. -/
theorem Config.move_cases {c c' : Config S ε α C} {m : Move C} (h : c.move body m = some c') :
    (∃ a, m = .begin a ∧ c' = { c with
      sessions := Function.update c.sessions c.fresh (some ⟨a, none, body a⟩)
      fresh := c.fresh + 1 }) ∨
    (∃ (t : Sid) (se : Session S ε α C) (β : Type) (run : Sid → S → Option (β × S))
        (k : β → Prog S ε α) (b : β) (s' : S), m = .next t ∧ c.sessions t = some se ∧
      se.prog = .stmt run k ∧ run t c.store = some (b, s') ∧ c' = { c with
        store := s'
        sessions := Function.update c.sessions t
          (some { se with opened := some (se.opened.getD c.store), prog := k b }) }) ∨
    ∃ t se o, m = .close t ∧ c.sessions t = some se ∧ se.prog.outcome = some o ∧ c' = { c with
      store := Transactional.rollback t c.store
      sessions := Function.update c.sessions t none
      log := (t, se.call, o) :: c.log } := by
  cases m with
  | begin a =>
      cases h
      exact .inl ⟨a, rfl, rfl⟩
  | next t =>
      simp only [Config.move] at h
      split at h
      · cases h
      · rename_i se hse
        split at h
        · cases h
        · cases h
        · rename_i run k hp
          split at h
          · cases h
          · rename_i b s' hr
            cases h
            exact .inr (.inl ⟨t, se, _, run, k, b, s', rfl, hse, hp, hr, rfl⟩)
  | close t =>
      simp only [Config.move] at h
      split at h
      · cases h
      · rename_i se hse
        split at h
        · cases h
        · rename_i o ho
          cases h
          exact .inr (.inr ⟨t, se, o, rfl, hse, ho, rfl⟩)

theorem Config.move_step {c c' : Config S ε α C} {m : Move C} (h : c.move body m = some c') :
    Step body c (m.session c) c' := by
  rcases Config.move_cases h with ⟨a, rfl, rfl⟩ |
    ⟨t, se, β, run, k, b, s', rfl, hse, hp, hr, rfl⟩ | ⟨t, se, o, rfl, hse, ho, rfl⟩
  · exact .start c a
  · exact .exec hse hp hr
  · exact .close hse ho

/-- Playing a schedule is a run. -/
theorem Config.play_run {c c' : Config S ε α C} {l : List (Move C)}
    (h : c.play body l = some c') : Run body c c' := by
  induction l generalizing c with
  | nil =>
      cases h
      exact .refl
  | cons m rest ih =>
      simp only [Config.play] at h
      split at h
      · cases h
      · rename_i c₁ hm
        exact .head ⟨_, Config.move_step hm⟩ (ih h)

theorem Config.playWith_run {adm : C → S → S → S → Prop}
    [∀ a s₀ s s', Decidable (adm a s₀ s s')] {c c' : Config S ε α C} {l : List (Move C)}
    (h : c.playWith body adm l = some c') : RunWith body adm c c' := by
  induction l generalizing c with
  | nil =>
      cases h
      exact .refl
  | cons m rest ih =>
      simp only [Config.playWith] at h
      split at h
      · cases h
      · rename_i c₁ hm
        split at h
        · rename_i hadm
          exact .head ⟨_, Config.move_step hm, hadm⟩ (ih h)
        · cases h

theorem Config.playWith_step {adm : C → S → S → S → Prop}
    [∀ a s₀ s s', Decidable (adm a s₀ s s')] {c c' : Config S ε α C} {m : Move C}
    (h : c.playWith body adm [m] = some c') :
    Step body c (m.session c) c' ∧ Admissible adm c (m.session c) c' := by
  simp only [Config.playWith] at h
  split at h
  · cases h
  · rename_i c₁ hm
    split at h
    · rename_i hadm
      cases h
      exact ⟨Config.move_step hm, hadm⟩
    · cases h

/-! ## Calls made at the same time -/

variable (body)

/-- The calls are opened in sessions of their own, and none has run a statement. -/
def Config.opens (c : Config S ε α C) (l : List C) : Config S ε α C :=
  { c with
    sessions := fun t =>
      if t < c.fresh then c.sessions t
      else (l[t - c.fresh]?).map fun a => ⟨a, none, body a⟩
    fresh := c.fresh + l.length }

variable {body}

omit [Transactional S] in
theorem Config.opens_old {c : Config S ε α C} (l : List C) {t : Sid} (ht : t < c.fresh) :
    (c.opens body l).sessions t = c.sessions t := if_pos ht

omit [Transactional S] in
/-- The calls have the session numbers from the first unused one on. -/
theorem Config.opens_new (c : Config S ε α C) (l : List C) (i : Nat) :
    (c.opens body l).sessions (c.fresh + i) = (l[i]?).map fun a => ⟨a, none, body a⟩ := by
  have hlt : ¬ c.fresh + i < c.fresh := Nat.not_lt.mpr (Nat.le_add_right _ _)
  have hsub : c.fresh + i - c.fresh = i := Nat.add_sub_cancel_left ..
  show (if _ then _ else _) = _
  rw [if_neg hlt, hsub]

omit [Transactional S] in
theorem Config.opens_snoc (c : Config S ε α C) (l : List C) (a : C) :
    (c.opens body (l ++ [a])).sessions =
      Function.update (c.opens body l).sessions (c.opens body l).fresh
        (some ⟨a, none, body a⟩) := by
  have hfresh : (c.opens body l).fresh = c.fresh + l.length := rfl
  funext t
  rw [hfresh, Function.update_apply]
  by_cases ht : t < c.fresh
  · have hne : t ≠ c.fresh + l.length := Nat.ne_of_lt (Nat.lt_add_right _ ht)
    rw [if_neg hne, Config.opens_old _ ht, Config.opens_old _ ht]
  · obtain ⟨i, rfl⟩ := Nat.exists_eq_add_of_le (Nat.le_of_not_lt ht)
    rw [Config.opens_new, Config.opens_new]
    by_cases hi : i = l.length
    · simp [hi]
    · have hne : c.fresh + i ≠ c.fresh + l.length := fun h => hi (Nat.add_left_cancel h)
      rw [if_neg hne]
      by_cases hlt : i < l.length
      · rw [List.getElem?_append_left hlt]
      · have hnew : (l ++ [a])[i]? = none := List.getElem?_eq_none (by simp; omega)
        have hold : l[i]? = none := List.getElem?_eq_none (by omega)
        rw [hnew, hold]

theorem Config.opens_run {c : Config S ε α C} (hunused : ∀ t, c.fresh ≤ t → c.sessions t = none)
    (l : List C) : Run body c (c.opens body l) := by
  induction l using List.reverseRecOn with
  | nil =>
      have hsame : c.opens body [] = c := by
        have hsessions : (c.opens body []).sessions = c.sessions := by
          funext t
          by_cases ht : t < c.fresh
          · simp [Config.opens, ht]
          · simp [Config.opens, ht, hunused t (Nat.le_of_not_lt ht)]
        cases c
        simp only [Config.opens, List.length_nil, Nat.add_zero] at hsessions ⊢
        rw [hsessions]
      rw [hsame]
      exact .refl
  | append_singleton l a ih =>
      refine .tail ih ⟨(c.opens body l).fresh, ?_⟩
      have hstart : Step body (c.opens body l) _ _ := .start _ a
      have heq : c.opens body (l ++ [a]) =
          { c.opens body l with
            sessions := Function.update (c.opens body l).sessions (c.opens body l).fresh
              (some ⟨a, none, body a⟩)
            fresh := (c.opens body l).fresh + 1 } := by
        rw [← Config.opens_snoc]
        simp [Config.opens, Nat.add_assoc]
      rw [heq]
      exact hstart

/-! ## Calls made one after the other -/

variable (body)

/-- The calls are made by sessions `t`, `t + 1` and so on. -/
def calls : List C → Sid → S → Option S
  | [], _, s => some s
  | a :: rest, t, s =>
      match (body a).call t s with
      | none => none
      | some (_, s') => calls rest (t + 1) s'

/-- The store after each call of the sequence. -/
def trace : List C → Sid → S → Option (List S)
  | [], _, _ => some []
  | a :: rest, t, s =>
      match (body a).call t s with
      | none => none
      | some (_, s') => (trace rest (t + 1) s').map (s' :: ·)

/-- Every call of the sequence is made from a store on which it satisfies `P`. -/
def CallsMeet (P : S → C → Prop) : List C → Sid → S → Prop
  | [], _, _ => True
  | a :: rest, t, s =>
      P s a ∧ ∀ r s', (body a).call t s = some (r, s') → CallsMeet P rest (t + 1) s'

/-- Calls made one after the other, with their log. -/
def Config.perform (c : Config S ε α C) : List C → Option (Config S ε α C)
  | [] => some c
  | a :: rest =>
      match (body a).call c.fresh c.store with
      | none => none
      | some (r, s') =>
          Config.perform
            { c with store := s', fresh := c.fresh + 1, log := (c.fresh, a, r) :: c.log } rest

variable {body}

theorem calls_append (l l' : List C) (t : Sid) (s : S) :
    calls body (l ++ l') t s = (calls body l t s).bind (calls body l' (t + l.length)) := by
  induction l generalizing t s with
  | nil => rfl
  | cons a rest ih =>
      simp only [List.cons_append, calls, List.length_cons]
      cases hcall : (body a).call t s with
      | none => rfl
      | some r =>
          have hsid : t + (rest.length + 1) = t + 1 + rest.length := by
            rw [Nat.add_assoc, Nat.add_comm 1]
          rw [hsid]
          exact ih (t + 1) r.2

theorem Run.exec {c : Config S ε α C} {t : Sid} {a : C} {s₀ : Option S} {s' : S}
    {p : Prog S ε α} {r : Except ε α} (hse : c.sessions t = some ⟨a, s₀, p⟩)
    (hx : p.exec t c.store = some (r, s')) :
    ∃ s₁ p', p'.outcome = some r ∧ Run body c
      { c with
        store := s'
        sessions := Function.update c.sessions t (some ⟨a, s₁, p'⟩) } := by
  induction p generalizing c s₀ with
  | ret b =>
      cases hx
      refine ⟨s₀, .ret b, rfl, ?_⟩
      rw [Function.update_eq_self_iff.mpr hse.symm]
      exact .refl
  | raise e =>
      cases hx
      refine ⟨s₀, .raise e, rfl, ?_⟩
      rw [Function.update_eq_self_iff.mpr hse.symm]
      exact .refl
  | stmt run k ih =>
      simp only [Prog.exec] at hx
      split at hx
      · cases hx
      · rename_i b s₂ hr
        have hstep : Step body c t _ := .exec hse rfl hr
        obtain ⟨s₁, p, hp, hrun⟩ := ih b (c := { c with
            store := s₂
            sessions := Function.update c.sessions t (some ⟨a, some (s₀.getD c.store), k b⟩) })
          (Function.update_self ..) hx
        rw [Function.update_idem] at hrun
        exact ⟨s₁, p, hp, .head ⟨t, hstep⟩ hrun⟩

/-- A call made on its own is a run that leaves no session behind. -/
theorem Run.call {c : Config S ε α C} {a : C} {r : Except ε α} {s' : S}
    (hfree : c.sessions c.fresh = none) (h : (body a).call c.fresh c.store = some (r, s')) :
    Run body c
      { c with store := s', fresh := c.fresh + 1, log := (c.fresh, a, r) :: c.log } := by
  simp only [Prog.call, Option.map_eq_some_iff, Prod.mk.injEq] at h
  obtain ⟨⟨r', s₁⟩, hx, rfl, rfl⟩ := h
  have hstart : Step body c c.fresh _ := .start c a
  obtain ⟨s₀, p, hp, hrun⟩ := Run.exec (c := { c with
      sessions := Function.update c.sessions c.fresh (some ⟨a, none, body a⟩)
      fresh := c.fresh + 1 }) (t := c.fresh) (Function.update_self ..) hx
  have hlast : Function.update (Function.update c.sessions c.fresh
      (some ⟨a, none, body a⟩)) c.fresh (some ⟨a, s₀, p⟩) c.fresh =
        some ⟨a, s₀, p⟩ := Function.update_self ..
  have hclose : ∀ d : Config S ε α C, d.sessions c.fresh = some ⟨a, s₀, p⟩ →
      Step body d c.fresh
        { d with
          store := Transactional.rollback c.fresh d.store
          sessions := Function.update d.sessions c.fresh none
          log := (c.fresh, a, r') :: d.log } := fun d hd => .close hd hp
  have hall := (ReflTransGen.head ⟨c.fresh, hstart⟩ hrun).tail ⟨c.fresh, hclose _ hlast⟩
  simp only [Function.update_idem] at hall
  rw [Function.update_eq_self_iff.mpr hfree.symm] at hall
  exact hall

/-- Calls made one after the other leave no session behind. -/
theorem Config.perform_sessions {c c' : Config S ε α C} {l : List C}
    (h : c.perform body l = some c') : c'.sessions = c.sessions := by
  induction l generalizing c with
  | nil =>
      cases h
      rfl
  | cons a rest ih =>
      simp only [Config.perform] at h
      split at h
      · cases h
      · have hrest := ih h
        exact hrest

theorem Config.perform_run {c c' : Config S ε α C} (hidle : ∀ t, c.sessions t = none)
    {l : List C} (h : c.perform body l = some c') : Run body c c' := by
  induction l generalizing c with
  | nil =>
      cases h
      exact .refl
  | cons a rest ih =>
      simp only [Config.perform] at h
      split at h
      · cases h
      · rename_i r s₁ hcall
        exact (Run.call (hidle c.fresh) hcall).trans (ih hidle h)

theorem Run.calls {c : Config S ε α C} (hidle : ∀ t, c.sessions t = none) {l : List C} {s' : S}
    (h : calls body l c.fresh c.store = some s') :
    ∃ c', Run body c c' ∧ c'.store = s' := by
  induction l generalizing c with
  | nil =>
      cases h
      exact ⟨c, .refl, rfl⟩
  | cons a rest ih =>
      simp only [Sql.calls] at h
      split at h
      · cases h
      · rename_i r s₁ hcall
        have hrun := Run.call (hidle c.fresh) hcall
        obtain ⟨c', hrest, hstore⟩ := ih (c := { c with
          store := s₁
          fresh := c.fresh + 1
          log := (c.fresh, a, r) :: c.log }) hidle h
        exact ⟨c', hrun.trans hrest, hstore⟩

end Sql
