/-
The rate limit of the gateway (`gateway/app/ratelimit.py`), with its buckets in memory.

A call reads the clock before it takes the lock.  A new bucket reads the clock again for its
own stamp, so that its first call may refill it over a negative time.  Times are in seconds,
and all numbers are exact.
-/
import Rcp.Common.Values
import Rcp.Gateway.TokenBucket

namespace Rcp
namespace Gateway

open TokenBucket

structure Settings where
  rateLimitRps : Rat := 20
  rateLimitBurst : Int := 60

/-- A call of `_allow`. -/
structure Call where
  clientKey : String
  now : Rat
  /-- What the clock shows where `_Bucket` reads it, if the call makes one. -/
  created : Rat
  deriving DecidableEq

section Allow

variable (settings : Settings)

/-- `_Bucket(float(settings.RATE_LIMIT_BURST))`. -/
def newBucket (call : Call) : Bucket Rat :=
  { tokens := settings.rateLimitBurst, updatedAt := call.created }

/-- What a call does with the bucket of its client. -/
def take (bucket : Option (Bucket Rat)) (call : Call) : Bool × Bucket Rat :=
  spend settings.rateLimitRps settings.rateLimitBurst (bucket.getD (newBucket settings call))
    call.now

def allow (buckets : Dict String (Bucket Rat)) (call : Call) :
    Bool × Dict String (Bucket Rat) :=
  let result := take settings (buckets.get? call.clientKey) call
  (result.1, buckets.set call.clientKey result.2)

/-- The buckets after a sequence of calls. -/
def bucketsAfter (buckets : Dict String (Bucket Rat)) (calls : List Call) :
    Dict String (Bucket Rat) :=
  calls.foldl (fun buckets call => (allow settings buckets call).2) buckets

/-- The calls with their decisions. -/
def decisions : Dict String (Bucket Rat) → List Call → List (Call × Bool)
  | _, [] => []
  | buckets, call :: rest =>
      (call, (allow settings buckets call).1) :: decisions (allow settings buckets call).2 rest

end Allow

/-! ## One client -/

section Client

variable (settings : Settings)

/-- The calls of one client, which have its bucket to themselves. -/
def ownDecisions : Option (Bucket Rat) → List Call → List (Call × Bool)
  | _, [] => []
  | bucket, call :: rest =>
      (call, (take settings bucket call).1) ::
        ownDecisions (some (take settings bucket call).2) rest

def ownBucket (bucket : Option (Bucket Rat)) (calls : List Call) : Option (Bucket Rat) :=
  calls.foldl (fun bucket call => some (take settings bucket call).2) bucket

def isFrom (client : String) (call : Call) : Bool := call.clientKey == client

variable {settings}

theorem allow_own (buckets : Dict String (Bucket Rat)) (call : Call) :
    (allow settings buckets call).2.get? call.clientKey =
      some (take settings (buckets.get? call.clientKey) call).2 := by
  show (buckets.set _ _).get? call.clientKey = _
  rw [Dict.get?_set, if_pos rfl]

theorem allow_other (buckets : Dict String (Bucket Rat)) {call : Call} {client : String}
    (h : call.clientKey ≠ client) :
    (allow settings buckets call).2.get? client = buckets.get? client := by
  show (buckets.set _ _).get? client = _
  rw [Dict.get?_set, if_neg h]

/-- The other clients' calls play no part in the decisions for a client. -/
theorem decisions_client (client : String) (calls : List Call)
    (buckets : Dict String (Bucket Rat)) :
    (decisions settings buckets calls).filter (fun d => isFrom client d.1) =
      ownDecisions settings (buckets.get? client) (calls.filter (isFrom client)) := by
  induction calls generalizing buckets with
  | nil => rfl
  | cons call rest ih =>
      by_cases hclient : call.clientKey = client
      · have hmine : isFrom client call = true := by simp [isFrom, hclient]
        simp only [decisions, List.filter_cons, hmine, if_true, ownDecisions]
        rw [ih, ← hclient, allow_own]
        rfl
      · have hother : isFrom client call = false := by simp [isFrom, hclient]
        simp only [decisions, List.filter_cons, hother, Bool.false_eq_true, if_false]
        rw [ih, allow_other buckets hclient]

theorem bucketsAfter_client (client : String) (calls : List Call)
    (buckets : Dict String (Bucket Rat)) :
    (bucketsAfter settings buckets calls).get? client =
      ownBucket settings (buckets.get? client) (calls.filter (isFrom client)) := by
  induction calls generalizing buckets with
  | nil => rfl
  | cons call rest ih =>
      show (bucketsAfter settings (allow settings buckets call).2 rest).get? client = _
      rw [ih]
      by_cases hclient : call.clientKey = client
      · have hmine : isFrom client call = true := by simp [isFrom, hclient]
        simp only [List.filter_cons, hmine, if_true]
        rw [← hclient, allow_own]
        rfl
      · have hother : isFrom client call = false := by simp [isFrom, hclient]
        simp only [List.filter_cons, hother, Bool.false_eq_true, if_false]
        rw [allow_other buckets hclient]

/-- A client with a bucket is served as the bucket is. -/
theorem ownDecisions_some (b : Bucket Rat) (calls : List Call) :
    (ownDecisions settings (some b) calls).map (fun d => (d.1.now, d.2)) =
      serve settings.rateLimitRps settings.rateLimitBurst b (calls.map Call.now) := by
  induction calls generalizing b with
  | nil => rfl
  | cons call rest ih =>
      simp only [ownDecisions, List.map_cons, serve]
      rw [ih]
      rfl

/-- The first call makes the bucket. -/
theorem ownDecisions_none (call : Call) (rest : List Call) :
    ownDecisions settings none (call :: rest) =
      ownDecisions settings (some (newBucket settings call)) (call :: rest) := rfl

theorem ownBucket_snoc (bucket : Option (Bucket Rat)) (calls : List Call) (call : Call) :
    ownBucket settings bucket (calls ++ [call]) =
      some (take settings (ownBucket settings bucket calls) call).2 := by
  simp [ownBucket, List.foldl_append]

/-- A bucket that a call has left holds at most the burst. -/
theorem ownBucket_le {calls : List Call} {b : Bucket Rat}
    (h : ownBucket settings none calls = some b) : b.tokens ≤ settings.rateLimitBurst := by
  rcases List.eq_nil_or_concat calls with rfl | ⟨init, call, rfl⟩
  · cases h
  · rw [List.concat_eq_append, ownBucket_snoc] at h
    cases h
    exact spend_tokens_le

/-- A bucket without debt stays without debt. -/
theorem ownBucket_nonneg (hrps : 0 ≤ settings.rateLimitRps) (hburst : 0 < settings.rateLimitBurst)
    {calls : List Call} {b b' : Bucket Rat} (htokens : 0 ≤ b.tokens)
    (hfirst : ∀ call ∈ calls, b.updatedAt ≤ call.now)
    (hsorted : calls.Pairwise fun x y => x.now ≤ y.now)
    (h : ownBucket settings (some b) calls = some b') : 0 ≤ b'.tokens := by
  induction calls generalizing b with
  | nil =>
      cases h
      exact htokens
  | cons call rest ih =>
      have hburst' : (0 : Rat) ≤ settings.rateLimitBurst := by exact_mod_cast hburst.le
      have hcall : 0 ≤ (take settings (some b) call).2.tokens :=
        spend_nonneg_iff.mpr
          (refill_nonneg hrps hburst' htokens (hfirst call List.mem_cons_self))
      refine ih hcall (fun later hlater => ?_) hsorted.of_cons h
      have hstamp : (take settings (some b) call).2.updatedAt = call.now := spend_updatedAt
      rw [hstamp]
      exact List.rel_of_pairwise_cons hsorted hlater

end Client

/-! ## The rate -/

section Rate

variable (settings : Settings) (calls : List Call)

/-- What the limit is for: the buckets stay within their bounds, no interval lets through more
of a client's calls than the burst and what the rate gives, and no other client matters. -/
structure Enforced : Prop where
  tokens : ∀ pre, pre <+: calls → ∀ client b,
    (bucketsAfter settings [] pre).get? client = some b →
    0 ≤ b.tokens ∧ b.tokens ≤ settings.rateLimitBurst
  window : ∀ client start stop, start ≤ stop →
    (((decisions settings [] calls).countP fun d =>
      isFrom client d.1 && (d.2 && decide (start ≤ d.1.now ∧ d.1.now ≤ stop)) : Nat) : Rat) ≤
      settings.rateLimitBurst + settings.rateLimitRps * (stop - start)
  alone : ∀ client, (decisions settings [] calls).filter (fun d => isFrom client d.1) =
    decisions settings [] (calls.filter (isFrom client))

/-- The call is the first one of its client. -/
def IsFirst (pre : List Call) (call : Call) : Prop :=
  ∀ earlier ∈ pre, earlier.clientKey ≠ call.clientKey

/-- Between the two readings of the clock, in the first call of a client, the rate does not
give more than a whole burst. -/
def Prompt : Prop :=
  ∀ pre call post, calls = pre ++ call :: post → IsFirst pre call →
    (call.created - call.now) * settings.rateLimitRps ≤ settings.rateLimitBurst

variable {settings calls}

theorem decisions_calls (buckets : Dict String (Bucket Rat)) (calls : List Call) :
    (decisions settings buckets calls).map Prod.fst = calls := by
  induction calls generalizing buckets with
  | nil => rfl
  | cons call rest ih =>
      simp only [decisions, List.map_cons]
      rw [ih]

theorem decisions_alone (client : String) :
    (decisions settings [] calls).filter (fun d => isFrom client d.1) =
      decisions settings [] (calls.filter (isFrom client)) := by
  have hall : (decisions settings [] (calls.filter (isFrom client))).filter
      (fun d => isFrom client d.1) = decisions settings [] (calls.filter (isFrom client)) := by
    rw [List.filter_eq_self]
    intro d hd
    have hmem := List.mem_map_of_mem (f := Prod.fst) hd
    rw [decisions_calls] at hmem
    exact (List.mem_filter.mp hmem).2
  rw [decisions_client, ← hall, decisions_client, List.filter_filter]
  simp

theorem own_sorted (htimes : calls.Pairwise fun x y => x.now ≤ y.now) (client : String) :
    (calls.filter (isFrom client)).Pairwise fun x y => x.now ≤ y.now :=
  htimes.filter _

/-- The bound of an interval, which needs no condition. -/
theorem decisions_window (hrps : 0 ≤ settings.rateLimitRps)
    (hburst : 0 < settings.rateLimitBurst) (htimes : calls.Pairwise fun x y => x.now ≤ y.now)
    (client : String) {start stop : Rat} (hwindow : start ≤ stop) :
    (((decisions settings [] calls).countP fun d =>
      isFrom client d.1 && (d.2 && decide (start ≤ d.1.now ∧ d.1.now ≤ stop)) : Nat) : Rat) ≤
      settings.rateLimitBurst + settings.rateLimitRps * (stop - start) := by
  have hburst' : (0 : Rat) ≤ settings.rateLimitBurst := by exact_mod_cast hburst.le
  have hsorted := own_sorted htimes client
  -- the calls of the client are what its bucket serves
  have hcount : ((decisions settings [] calls).countP fun d =>
      isFrom client d.1 && (d.2 && decide (start ≤ d.1.now ∧ d.1.now ≤ stop))) =
      count start stop ((ownDecisions settings none (calls.filter (isFrom client))).map
        fun d => (d.1.now, d.2)) := by
    have hget : Dict.get? ([] : Dict String (Bucket Rat)) client = none := rfl
    rw [← hget, ← decisions_client, count, List.countP_map, List.countP_filter]
    refine List.countP_congr fun d _ => ?_
    simp [counts, Bool.and_comm]
  rw [hcount]
  cases hown : calls.filter (isFrom client) with
  | nil =>
      have hwhole : 0 ≤ settings.rateLimitRps * (stop - start) :=
        mul_nonneg hrps (by linarith)
      simp only [ownDecisions, List.map_nil, count, List.countP_nil, Nat.cast_zero]
      linarith
  | cons first rest =>
      rw [hown] at hsorted
      rw [ownDecisions_none, ownDecisions_some]
      refine count_le_window hrps hburst' hwindow ?_
      rw [List.pairwise_map]
      exact hsorted

theorem first_nonneg_iff (hburst : 0 < settings.rateLimitBurst) (call : Call) :
    0 ≤ (take settings none call).2.tokens ↔
      (call.created - call.now) * settings.rateLimitRps ≤ settings.rateLimitBurst := by
  have hburst' : (0 : Rat) ≤ settings.rateLimitBurst := by exact_mod_cast hburst.le
  have hrefill : 0 ≤ refill settings.rateLimitRps settings.rateLimitBurst
      (newBucket settings call) call.now ↔
      (call.created - call.now) * settings.rateLimitRps ≤ settings.rateLimitBurst := by
    unfold refill newBucket
    rw [le_min_iff]
    constructor
    · intro h
      linarith [h.2]
    · intro h
      exact ⟨hburst', by linarith⟩
  rw [← hrefill]
  exact spend_nonneg_iff

theorem bucketsAfter_first {pre : List Call} {call : Call} (h : IsFirst pre call) :
    (bucketsAfter settings [] (pre ++ [call])).get? call.clientKey =
      some (take settings none call).2 := by
  have hnone : pre.filter (isFrom call.clientKey) = [] := by
    rw [List.filter_eq_nil_iff]
    intro earlier hearlier
    simpa [isFrom] using h earlier hearlier
  rw [bucketsAfter_client, List.filter_append, hnone]
  simp [isFrom, ownBucket, Dict.get?]

/-- Every client's tokens stay within their bounds if its first call is prompt. -/
theorem tokens_bounded (hrps : 0 ≤ settings.rateLimitRps) (hburst : 0 < settings.rateLimitBurst)
    (htimes : calls.Pairwise fun x y => x.now ≤ y.now) (hprompt : Prompt settings calls)
    {pre : List Call} (hpre : pre <+: calls) {client : String} {b : Bucket Rat}
    (h : (bucketsAfter settings [] pre).get? client = some b) :
    0 ≤ b.tokens ∧ b.tokens ≤ settings.rateLimitBurst := by
  rw [bucketsAfter_client] at h
  refine ⟨?_, ownBucket_le h⟩
  have hsorted := own_sorted (htimes.sublist hpre.sublist) client
  cases hown : pre.filter (isFrom client) with
  | nil =>
      rw [hown] at h
      cases h
  | cons first rest =>
      rw [hown] at h hsorted
      obtain ⟨before, behind, rfl, hbefore, hfirst, -⟩ := List.filter_eq_cons_iff.mp hown
      obtain ⟨post, rfl⟩ := hpre
      have hclient : first.clientKey = client := by simpa [isFrom] using hfirst
      have hstart : 0 ≤ (take settings none first).2.tokens := by
        rw [first_nonneg_iff hburst]
        refine hprompt before first (behind ++ post) (by simp) fun earlier hearlier => ?_
        rw [hclient]
        simpa [isFrom] using hbefore earlier hearlier
      refine ownBucket_nonneg hrps hburst hstart (fun later hlater => ?_) hsorted.of_cons h
      have hstamp : (take settings none first).2.updatedAt = first.now := spend_updatedAt
      rw [hstamp]
      exact List.rel_of_pairwise_cons hsorted hlater

/-- The rate is enforced exactly if the first call of each client is prompt. -/
theorem rate_enforced_iff (hrps : 0 ≤ settings.rateLimitRps)
    (hburst : 0 < settings.rateLimitBurst) (htimes : calls.Pairwise fun x y => x.now ≤ y.now) :
    Enforced settings calls ↔ Prompt settings calls := by
  constructor
  · intro henforced pre call post hcalls hfirst
    have hprefix : pre ++ [call] <+: calls := ⟨post, by rw [hcalls]; simp⟩
    have htokens := henforced.tokens _ hprefix call.clientKey _ (bucketsAfter_first hfirst)
    exact (first_nonneg_iff hburst call).mp htokens.1
  · intro hprompt
    exact
      { tokens := fun pre hpre client b h => tokens_bounded hrps hburst htimes hprompt hpre h
        window := fun client start stop hwindow =>
          decisions_window hrps hburst htimes client hwindow
        alone := decisions_alone }

end Rate

theorem rate_enforced_default :
    Enforced {} [⟨"10.0.0.1", 0, 0⟩, ⟨"10.0.0.1", 1, 1⟩] ↔
      Prompt {} [⟨"10.0.0.1", 0, 0⟩, ⟨"10.0.0.1", 1, 1⟩] :=
  rate_enforced_iff (by decide) (by decide) (by decide)

/-- A first call whose bucket is stamped two milliseconds after its own time, where a
thousand calls a second are allowed. -/
theorem rate_not_enforced : ¬ ∀ (settings : Settings) (calls : List Call),
    0 ≤ settings.rateLimitRps → 0 < settings.rateLimitBurst →
    (calls.Pairwise fun x y => x.now ≤ y.now) → Enforced settings calls := by
  intro hclaim
  have henforced := hclaim { rateLimitRps := 1000, rateLimitBurst := 1 }
    [⟨"10.0.0.1", 0, mkRat 1 500⟩] (by decide) (by decide) (by decide)
  have hbucket : (bucketsAfter { rateLimitRps := 1000, rateLimitBurst := 1 } []
      [⟨"10.0.0.1", 0, mkRat 1 500⟩]).get? "10.0.0.1" = some ⟨-1, 0⟩ := by
    decide +kernel
  exact absurd (henforced.tokens _ (List.prefix_refl _) _ _ hbucket).1 (by decide)

end Gateway
end Rcp
