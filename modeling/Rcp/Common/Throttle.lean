/-
A cache that is refreshed on demand.

A use of the cache may want a refresh, which is then tried and may fail.  A refresh that
succeeds keeps the next one away for a while.  One that fails leaves the cache as it was, and
then nothing but the uses themselves keeps the next try away.
-/
import Mathlib.Data.List.Chain
import Mathlib.Algebra.Order.Group.Int

namespace Throttle

variable {σ ι : Type} (wants : σ → ι → Bool) (step : σ → ι → σ) (time : ι → Int)
  (failed : ι → Bool) (gap : Int)

/-- The uses that try a refresh. -/
def attempts : σ → List ι → List ι
  | _, [] => []
  | s, x :: rest =>
      if wants s x then x :: attempts (step s x) rest else attempts (step s x) rest

/-- Each try comes at least `gap` after the one before it. -/
def Spaced (l : List ι) : Prop := l.IsChain fun x y => time x + gap ≤ time y

/-- For `gap` after a refresh that has failed, no use wants another one. -/
def Patient : σ → List ι → Prop
  | _, [] => True
  | s, x :: rest =>
      (wants s x = true → failed x = true →
        ∀ y ∈ rest, time y < time x + gap → wants s y = false) ∧
      Patient (step s x) rest

variable {wants step time failed gap}

/-- The next try is that of the first use that wants one. -/
theorem head?_attempts (hkeep : ∀ s x, wants s x = false → step s x = s) (s : σ)
    (l : List ι) : (attempts wants step s l).head? = l.find? (wants s) := by
  induction l with
  | nil => rfl
  | cons x rest ih =>
      cases hx : wants s x with
      | true => simp [attempts, hx]
      | false => simp [attempts, hx, hkeep s x hx, ih]

/-- Among uses in the order of time, the first that wants a refresh is late enough exactly if
none of the early ones does. -/
theorem first_late_iff {s : σ} {l : List ι} (hsorted : l.Pairwise fun x y => time x ≤ time y)
    (limit : Int) : (∀ y ∈ l.find? (wants s), limit ≤ time y) ↔
      ∀ y ∈ l, time y < limit → wants s y = false := by
  constructor
  · intro h y hy hlt
    by_contra hwants
    have hsome : (l.find? (wants s)).isSome := by
      rw [List.find?_isSome]
      exact ⟨y, hy, by simpa using hwants⟩
    obtain ⟨z, hz⟩ := Option.isSome_iff_exists.mp hsome
    have hlate := h z hz
    -- `z` is the first use that wants one, so `y` does not stand before it
    obtain ⟨-, before, after, rfl, hbefore⟩ := List.find?_eq_some_iff_append.mp hz
    rcases List.mem_append.mp hy with hy | hy
    · exact absurd (by simpa using hbefore y hy) hwants
    · rcases List.mem_cons.mp hy with rfl | hy
      · omega
      · have hle := List.rel_of_pairwise_cons (List.pairwise_append.mp hsorted).2.1 hy
        omega
  · intro h y hy
    have hwants := List.find?_some hy
    by_contra hlt
    have hnot := h y (List.mem_of_find?_eq_some hy) (by omega)
    rw [hnot] at hwants
    cases hwants

/-- The tries are spaced exactly if the uses are patient after a failure, where a refresh
that has succeeded keeps the next one away. -/
theorem spaced_iff_patient (hkeep : ∀ s x, wants s x = false → step s x = s)
    (hfailed : ∀ s x, failed x = true → step s x = s) {R : ι → ι → Prop}
    (htime : ∀ x y, R x y → time x ≤ time y)
    (hdone : ∀ s x y, wants s x = true → failed x = false → R x y →
      wants (step s x) y = true → time x + gap ≤ time y)
    {l : List ι} (hl : l.Pairwise R) (s : σ) :
    Spaced time gap (attempts wants step s l) ↔ Patient wants step time failed gap s l := by
  induction l generalizing s with
  | nil => exact iff_of_true .nil trivial
  | cons x rest ih =>
      have hrest : rest.Pairwise fun x y => time x ≤ time y :=
        hl.of_cons.imp fun h => htime _ _ h
      cases hx : wants s x with
      | false =>
          simp only [attempts, hx, Patient]
          rw [if_neg (by decide), ih hl.of_cons]
          simp
      | true =>
          have hsplit : Spaced time gap (attempts wants step s (x :: rest)) ↔
              (∀ y ∈ rest.find? (wants (step s x)), time x + gap ≤ time y) ∧
                Spaced time gap (attempts wants step (step s x) rest) := by
            rw [← head?_attempts hkeep (step s x) rest, attempts, if_pos hx]
            exact List.isChain_cons
          rw [hsplit, ih hl.of_cons, Patient]
          cases hfail : failed x with
          | true =>
              rw [hfailed s x hfail, first_late_iff hrest]
              simp [hx]
          | false =>
              have hlate : ∀ y ∈ rest.find? (wants (step s x)), time x + gap ≤ time y :=
                fun y hy => hdone s x y hx hfail
                  (List.rel_of_pairwise_cons hl (List.mem_of_find?_eq_some hy))
                  (List.find?_some hy)
              refine and_congr_left fun _ => iff_of_true hlate fun _ hfalse => ?_
              cases hfalse

end Throttle
