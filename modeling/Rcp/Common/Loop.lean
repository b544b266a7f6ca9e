/-
Loops that run until their condition fails.

A turn of the loop is a function of the state, and `none` where the condition fails.  A loop
that ends therefore has one end, and whatever state it has come to leads on to it.
-/
import Mathlib.Data.Nat.Notation

namespace Loop

variable {S : Type} {turn : S → Option S}

/-- The loop goes from one state to another in so many turns. -/
inductive Goes (turn : S → Option S) : Nat → S → S → Prop where
  | refl (s : S) : Goes turn 0 s s
  | step {n : Nat} {s s' t : S} (h : turn s = some s') (rest : Goes turn n s' t) :
      Goes turn (n + 1) s t

/-- The loop comes to its end in so many turns. -/
structure Ends (turn : S → Option S) (n : Nat) (s t : S) : Prop where
  goes : Goes turn n s t
  stopped : turn t = none

/-- What holds of the number of turns and the state holds after any further turns. -/
theorem Goes.keeps {I : Nat → S → Prop} (hI : ∀ n s s', I n s → turn s = some s' → I (n + 1) s')
    {k n : Nat} {s t : S} (h : Goes turn n s t) (hs : I k s) : I (k + n) t := by
  induction h generalizing k with
  | refl s => exact hs
  | @step n s s' t hturn rest ih =>
      have hlast : I (k + 1 + n) t := ih (hI k s s' hs hturn)
      have hsum : k + 1 + n = k + (n + 1) := by omega
      rwa [hsum] at hlast

/-- A loop whose turns lower a measure ends, after no more turns than the measure says. -/
theorem ends_of_measure (measure : S → Nat)
    (h : ∀ s s', turn s = some s' → measure s' < measure s) (s : S) :
    ∃ n t, Ends turn n s t ∧ n ≤ measure s := by
  induction hm : measure s using Nat.strongRecOn generalizing s with
  | _ m ih =>
      cases hturn : turn s with
      | none => exact ⟨0, s, ⟨.refl s, hturn⟩, Nat.zero_le m⟩
      | some s' =>
          have hlt : measure s' < m := hm ▸ h s s' hturn
          obtain ⟨n, t, hends, hle⟩ := ih (measure s') hlt s' rfl
          exact ⟨n + 1, t, ⟨.step hturn hends.goes, hends.stopped⟩, by omega⟩

/-- Every state on the way leads on to the end. -/
theorem Ends.resume {k n : Nat} {s u t : S} (h : Ends turn n s t) (hgoes : Goes turn k s u) :
    k ≤ n ∧ Ends turn (n - k) u t := by
  induction hgoes generalizing n with
  | refl s => exact ⟨Nat.zero_le n, h⟩
  | @step k s s' u hturn rest ih =>
      cases h.goes with
      | refl =>
          have hstopped := h.stopped
          rw [hturn] at hstopped
          cases hstopped
      | @step m _ s'' _ hturn' rest' =>
          rw [hturn] at hturn'
          cases hturn'
          obtain ⟨hle, hends⟩ := ih ⟨rest', h.stopped⟩
          have hsub : m + 1 - (k + 1) = m - k := by omega
          exact ⟨by omega, hsub ▸ hends⟩

end Loop
