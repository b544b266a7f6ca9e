/-
The token bucket.

A bucket holds at most `burst` tokens and gains `rate` of them in a unit of time.  A request
takes a token or is refused.  However the requests come, an interval lets through no more than
`burst` and what the bucket gains in it: `credit` is what a bucket can still let through up to
the end of the interval, and no request raises it.
-/
import Mathlib.Algebra.Order.Field.Basic
import Mathlib.Tactic.Linarith

namespace TokenBucket

structure Bucket (K : Type) where
  tokens : K
  updatedAt : K
  deriving DecidableEq

section Requests

variable {K : Type} [Field K] [LinearOrder K] (rate burst : K)

/-- The tokens of a bucket at a later time. -/
def refill (b : Bucket K) (now : K) : K :=
  min burst (b.tokens + (now - b.updatedAt) * rate)

/-- A request: whether it is let through, and the bucket after it. -/
def spend (b : Bucket K) (now : K) : Bool × Bucket K :=
  if refill rate burst b now < 1 then (false, ⟨refill rate burst b now, now⟩)
  else (true, ⟨refill rate burst b now - 1, now⟩)

/-- Requests one after the other. -/
def serve : Bucket K → List K → List (K × Bool)
  | _, [] => []
  | b, now :: rest => (now, (spend rate burst b now).1) :: serve (spend rate burst b now).2 rest

/-- The request was let through in the interval. -/
def counts (start stop : K) (request : K × Bool) : Bool :=
  request.2 && decide (start ≤ request.1 ∧ request.1 ≤ stop)

/-- How many requests were let through in the interval. -/
def count (start stop : K) (requests : List (K × Bool)) : Nat :=
  requests.countP (counts start stop)

/-- What a bucket can let through up to the end of the interval. -/
def credit (start stop : K) (b : Bucket K) : K :=
  if b.updatedAt < start then burst + rate * (stop - start)
  else if b.updatedAt ≤ stop then max 0 (b.tokens + rate * (stop - b.updatedAt))
  else 0

end Requests

section Bounds

variable {K : Type} [Field K] [LinearOrder K] {rate burst : K} {b : Bucket K}
  {now start stop : K}

@[simp] theorem spend_updatedAt : (spend rate burst b now).2.updatedAt = now := by
  unfold spend
  split
  · rfl
  · rfl

theorem spend_congr {b' : Bucket K} (h : refill rate burst b now = refill rate burst b' now) :
    spend rate burst b now = spend rate burst b' now := by
  unfold spend
  rw [h]

/-- A request that finds a token takes it. -/
theorem spend_allowed (h : ¬ refill rate burst b now < 1) :
    spend rate burst b now = (true, ⟨refill rate burst b now - 1, now⟩) := if_neg h

theorem refill_le_burst : refill rate burst b now ≤ burst := min_le_left _ _

/-- A new bucket is full. -/
theorem refill_new : refill rate burst ⟨burst, now⟩ now = burst := by
  simp [refill]

omit [Field K] in
/-- A request outside the interval does not count. -/
theorem counts_outside (h : ¬ (start ≤ now ∧ now ≤ stop)) (ok : Bool) :
    counts start stop (now, ok) = false := by
  simp only [counts, Bool.and_eq_false_iff, decide_eq_false_iff_not]
  exact .inr h

theorem count_serve_cons (rest : List K) :
    (count start stop (serve rate burst b (now :: rest)) : K) =
      count start stop (serve rate burst (spend rate burst b now).2 rest) +
        if counts start stop (now, (spend rate burst b now).1) then 1 else 0 := by
  simp only [count, serve, List.countP_cons]
  rw [Nat.cast_add, Nat.cast_ite, Nat.cast_one, Nat.cast_zero]

variable [IsStrictOrderedRing K]

theorem spend_tokens_le : (spend rate burst b now).2.tokens ≤ burst := by
  have hle : refill rate burst b now ≤ burst := refill_le_burst
  unfold spend
  split
  · exact hle
  · show refill rate burst b now - 1 ≤ burst
    linarith

/-- A request leaves no debt exactly if the bucket had none when it came. -/
theorem spend_nonneg_iff :
    0 ≤ (spend rate burst b now).2.tokens ↔ 0 ≤ refill rate burst b now := by
  unfold spend
  split
  · exact Iff.rfl
  · rename_i hone
    refine iff_of_true ?_ ?_
    · show 0 ≤ refill rate burst b now - 1
      linarith
    · linarith

theorem refill_nonneg (hrate : 0 ≤ rate) (hburst : 0 ≤ burst) (htokens : 0 ≤ b.tokens)
    (hnow : b.updatedAt ≤ now) : 0 ≤ refill rate burst b now := by
  refine le_min hburst ?_
  have hgain : 0 ≤ (now - b.updatedAt) * rate := mul_nonneg (by linarith) hrate
  linarith

/-- After a pause in which the rate gives a whole burst, the bucket is full. -/
theorem refill_full {pause : K} (hrate : 0 ≤ rate) (htokens : 0 ≤ b.tokens)
    (hpause : b.updatedAt + pause ≤ now) (hfull : burst ≤ pause * rate) :
    refill rate burst b now = burst := by
  refine min_eq_left ?_
  have hgain : pause * rate ≤ (now - b.updatedAt) * rate :=
    mul_le_mul_of_nonneg_right (by linarith) hrate
  linarith

/-- One request in the interval and the credit after it, in terms of the tokens it finds. -/
theorem spend_credit (hrate : 0 ≤ rate) (hstart : start ≤ now) (hstop : now ≤ stop) :
    (if counts start stop (now, (spend rate burst b now).1) then 1 else 0) +
        credit rate burst start stop (spend rate burst b now).2 ≤
      max 0 (refill rate burst b now + rate * (stop - now)) := by
  have hgain : 0 ≤ rate * (stop - now) := mul_nonneg hrate (by linarith)
  have hnot : ¬ now < start := not_lt.mpr hstart
  unfold spend credit counts
  by_cases hfew : refill rate burst b now < 1
  · simp [hfew, hnot, hstop]
  · have hone : 1 ≤ refill rate burst b now := not_lt.mp hfew
    simp only [hfew, if_false, hnot, hstop, if_true, hstart, and_self, decide_true,
      Bool.and_self]
    have hmax : max 0 (refill rate burst b now - 1 + rate * (stop - now)) =
        refill rate burst b now - 1 + rate * (stop - now) := max_eq_right (by linarith)
    rw [hmax]
    refine le_trans (le_of_eq ?_) (le_max_right _ _)
    linarith

variable (hrate : 0 ≤ rate) (hburst : 0 ≤ burst) (hwindow : start ≤ stop)

include hrate hburst hwindow

/-- A request leaves no more than the whole credit of the interval. -/
theorem spend_within :
    (if counts start stop (now, (spend rate burst b now).1) then 1 else 0) +
        credit rate burst start stop (spend rate burst b now).2 ≤
      burst + rate * (stop - start) := by
  have hwhole : 0 ≤ rate * (stop - start) := mul_nonneg hrate (by linarith)
  by_cases hin : start ≤ now ∧ now ≤ stop
  · refine (spend_credit hrate hin.1 hin.2).trans (max_le (by linarith) ?_)
    have hle : refill rate burst b now ≤ burst := refill_le_burst
    have hgain : rate * (stop - now) ≤ rate * (stop - start) :=
      mul_le_mul_of_nonneg_left (by linarith) hrate
    linarith
  · rw [counts_outside hin]
    simp only [credit, spend_updatedAt]
    by_cases hbefore : now < start
    · simp [hbefore]
    · have hafter : ¬ now ≤ stop := fun h => hin ⟨not_lt.mp hbefore, h⟩
      simp only [hbefore, hafter, if_false]
      simp only [Bool.false_eq_true, if_false]
      linarith

/-- A request does not raise the credit. -/
theorem spend_credit_le (hnow : b.updatedAt ≤ now) :
    (if counts start stop (now, (spend rate burst b now).1) then 1 else 0) +
        credit rate burst start stop (spend rate burst b now).2 ≤
      credit rate burst start stop b := by
  by_cases hfresh : b.updatedAt < start
  · have hcredit : credit rate burst start stop b = burst + rate * (stop - start) :=
      if_pos hfresh
    rw [hcredit]
    exact spend_within hrate hburst hwindow
  · have hstart : start ≤ now := (not_lt.mp hfresh).trans hnow
    by_cases hstop : now ≤ stop
    · have hcredit : credit rate burst start stop b =
          max 0 (b.tokens + rate * (stop - b.updatedAt)) := by
        rw [credit, if_neg hfresh, if_pos (hnow.trans hstop)]
      rw [hcredit]
      refine (spend_credit hrate hstart hstop).trans (max_le_max le_rfl ?_)
      have hle : refill rate burst b now ≤ b.tokens + (now - b.updatedAt) * rate :=
        min_le_right _ _
      linarith
    · rw [counts_outside fun h => hstop h.2]
      have hnone : credit rate burst start stop (spend rate burst b now).2 = 0 := by
        rw [credit, spend_updatedAt, if_neg (not_lt.mpr hstart), if_neg hstop]
      rw [hnone]
      simp only [Bool.false_eq_true, if_false, add_zero]
      unfold credit
      rw [if_neg hfresh]
      split
      · exact le_max_left _ _
      · exact le_rfl

theorem credit_nonneg : 0 ≤ credit rate burst start stop b := by
  unfold credit
  split
  · have hwhole : 0 ≤ rate * (stop - start) := mul_nonneg hrate (by linarith)
    linarith
  · split
    · exact le_max_left _ _
    · exact le_rfl

/-- Requests in the order of time take no more than the credit. -/
theorem count_le_credit {times : List K} (hfirst : ∀ t ∈ times, b.updatedAt ≤ t)
    (hsorted : times.Pairwise (· ≤ ·)) :
    (count start stop (serve rate burst b times) : K) ≤ credit rate burst start stop b := by
  induction times generalizing b with
  | nil => simpa [count, serve] using credit_nonneg hrate hburst hwindow
  | cons now rest ih =>
      have hrest := @ih (spend rate burst b now).2
        (fun t ht => by simpa using List.rel_of_pairwise_cons hsorted ht) hsorted.of_cons
      have hnow := spend_credit_le hrate hburst hwindow (hfirst now List.mem_cons_self)
      rw [count_serve_cons]
      linarith

/-- The bound of the interval, for a bucket that may have been stamped later than the first
request. -/
theorem count_le_window {times : List K} (hsorted : times.Pairwise (· ≤ ·)) :
    (count start stop (serve rate burst b times) : K) ≤ burst + rate * (stop - start) := by
  have hwhole : 0 ≤ rate * (stop - start) := mul_nonneg hrate (by linarith)
  cases times with
  | nil =>
      simp only [count, serve, List.countP_nil, Nat.cast_zero]
      linarith
  | cons now rest =>
      have hrest : (count start stop (serve rate burst (spend rate burst b now).2 rest) : K) ≤
          credit rate burst start stop (spend rate burst b now).2 :=
        count_le_credit hrate hburst hwindow
          (fun t ht => by simpa using List.rel_of_pairwise_cons hsorted ht) hsorted.of_cons
      have hnow : (if counts start stop (now, (spend rate burst b now).1) then 1 else 0) +
          credit rate burst start stop (spend rate burst b now).2 ≤
            burst + rate * (stop - start) := spend_within hrate hburst hwindow
      rw [count_serve_cons]
      linarith

end Bounds

end TokenBucket
