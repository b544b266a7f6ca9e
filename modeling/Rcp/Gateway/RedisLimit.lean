/-
The rate limit of the gateway (`gateway/app/ratelimit.py`), with its buckets in Redis.

The script keeps the tokens and the stamp of a bucket in a hash that lives for 120 seconds
after each write, and a client without a hash starts with a whole burst.  The buckets in
memory stay forever.  Whether the two decide alike hangs on what the rate gives in the 120
seconds.
-/
import Rcp.Common.Redis
import Rcp.Gateway.RateLimit

namespace Rcp
namespace Gateway

open TokenBucket Redis

/-! ## The script -/

section Script

variable (settings : Settings)

/-- The tokens that the script counts. -/
def filled (db : Store) (now : Rat) (key : String) : Rat :=
  let burst : Rat := settings.rateLimitBurst
  let tokens := (db.hmget now key "tokens").getD burst
  let updatedAt := (db.hmget now key "updated_at").getD now
  min burst (tokens + (now - updatedAt) * settings.rateLimitRps)

/-- The Lua script.  The keys live by the clock that the calls read. -/
def script (db : Store) (now : Rat) (key : String) : Int × Store :=
  let filled := filled settings db now key
  if filled < 1 then
    (0, (db.hmset now key [("tokens", filled), ("updated_at", now)]).expire now key 120)
  else
    (1, (db.hmset now key [("tokens", filled - 1), ("updated_at", now)]).expire now key 120)

def redisKey (clientKey : String) : String := "rate-limit:" ++ clientKey

/-- `_allow_redis`. -/
def allowRedis (db : Store) (call : Call) : Bool × Store :=
  let result := script settings db call.now (redisKey call.clientKey)
  (result.1 ≠ 0, result.2)

/-- The calls with their decisions. -/
def redisDecisions : Store → List Call → List (Call × Bool)
  | _, [] => []
  | db, call :: rest =>
      (call, (allowRedis settings db call).1) :: redisDecisions (allowRedis settings db call).2 rest

end Script

/-! ## Hashes and buckets -/

section Hashes

variable {settings : Settings} {db : Store} {bucket : Option (Bucket Rat)} {client : String}
  {now : Rat}

/-- The hash of a bucket that a call has left. -/
def stored (b : Bucket Rat) : Hash :=
  { fields := [("tokens", b.tokens), ("updated_at", b.updatedAt)]
    expiresAt := some (b.updatedAt + 120) }

/-- The bucket that the script counts on: a new one if there is none or its hash is gone. -/
def found (settings : Settings) (bucket : Option (Bucket Rat)) (now : Rat) : Bucket Rat :=
  (bucket.filter fun b => now < b.updatedAt + 120).getD ⟨settings.rateLimitBurst, now⟩

theorem redisKey_injective : Function.Injective redisKey := by
  intro a b h
  have hlist : (redisKey a).toList = (redisKey b).toList := congrArg String.toList h
  unfold redisKey at hlist
  rw [String.toList_append, String.toList_append] at hlist
  exact String.ext (List.append_cancel_left hlist)

theorem find_stored {key : String} (h : db.get? key = bucket.map stored) :
    db.find now key = (bucket.filter fun b => now < b.updatedAt + 120).map stored := by
  unfold Store.find
  rw [h]
  cases bucket with
  | none => rfl
  | some b =>
      rw [Option.map_some, Option.filter_some, Option.filter_some]
      show (if decide (now < b.updatedAt + 120) = true then some (stored b) else none) = _
      split
      · rfl
      · rfl

theorem filled_found {key : String} (h : db.get? key = bucket.map stored) :
    filled settings db now key =
      refill settings.rateLimitRps settings.rateLimitBurst (found settings bucket now) now := by
  unfold filled Store.hmget found
  rw [find_stored h]
  cases bucket.filter fun b => now < b.updatedAt + 120 with
  | none => rfl
  | some b => rfl

/-- The script spends a token of the bucket that it finds, and writes the bucket back. -/
theorem allowRedis_spend (settings : Settings) {call : Call}
    (h : db.get? (redisKey call.clientKey) = bucket.map stored) :
    (allowRedis settings db call).1 = (spend settings.rateLimitRps settings.rateLimitBurst
        (found settings bucket call.now) call.now).1 ∧
      ∀ other, (allowRedis settings db call).2.get? other =
        if redisKey call.clientKey = other then
          some (stored (spend settings.rateLimitRps settings.rateLimitBurst
            (found settings bucket call.now) call.now).2)
        else db.get? other := by
  have hfields : ∀ tokens : Rat,
      ([("tokens", tokens), ("updated_at", call.now)] : Dict String Rat).foldl
        (fun fields e => fields.set e.1 e.2)
        ((db.find call.now (redisKey call.clientKey)).getD {}).fields =
      [("tokens", tokens), ("updated_at", call.now)] := by
    intro tokens
    rw [find_stored h]
    cases bucket.filter fun b => call.now < b.updatedAt + 120 with
    | none => rfl
    | some b => rfl
  unfold allowRedis script spend
  simp only [filled_found h]
  split
  · refine ⟨rfl, fun other => ?_⟩
    rw [Store.get?_renewed, hfields]
    rfl
  · refine ⟨rfl, fun other => ?_⟩
    rw [Store.get?_renewed, hfields]
    rfl

end Hashes

/-! ## Both limiters -/

section Both

variable {settings : Settings} {buckets : Dict String (Bucket Rat)} {db : Store} {now : Rat}

/-- Each hash is the bucket of its client as last written.  No bucket is in debt. -/
structure Mirrors (buckets : Dict String (Bucket Rat)) (db : Store) (now : Rat) : Prop where
  hashes : ∀ client, db.get? (redisKey client) = (buckets.get? client).map stored
  tokens : ∀ client b, buckets.get? client = some b → 0 ≤ b.tokens
  stamps : ∀ client b, buckets.get? client = some b → b.updatedAt ≤ now

/-- Where the rate gives a whole burst in the life of a hash, it does not matter whether the
hash is still there: a bucket that has lost its hash has filled up. -/
theorem refill_found {bucket : Option (Bucket Rat)} {call : Call}
    (hrps : 0 ≤ settings.rateLimitRps)
    (hlife : (settings.rateLimitBurst : Rat) ≤ 120 * settings.rateLimitRps)
    (hreading : call.created = call.now) (htokens : ∀ b, bucket = some b → 0 ≤ b.tokens) :
    refill settings.rateLimitRps settings.rateLimitBurst (found settings bucket call.now)
        call.now =
      refill settings.rateLimitRps settings.rateLimitBurst
        (bucket.getD (newBucket settings call)) call.now := by
  unfold found
  cases bucket with
  | none =>
      have hnew : newBucket settings call = ⟨settings.rateLimitBurst, call.now⟩ := by
        rw [newBucket, hreading]
      rw [Option.getD_none, hnew]
      rfl
  | some b =>
      rw [Option.filter_some, Option.getD_some]
      split
      · rfl
      · rename_i hgone
        have hpause : b.updatedAt + 120 ≤ call.now := by simpa using hgone
        rw [Option.getD_none, refill_new, refill_full hrps (htokens b rfl) hpause hlife]

/-- One call of both. -/
theorem Mirrors.call (h : Mirrors buckets db now) {call : Call} (hrps : 0 ≤ settings.rateLimitRps)
    (hburst : 0 < settings.rateLimitBurst)
    (hlife : (settings.rateLimitBurst : Rat) ≤ 120 * settings.rateLimitRps)
    (hreading : call.created = call.now) (hnow : now ≤ call.now) :
    (allow settings buckets call).1 = (allowRedis settings db call).1 ∧
      Mirrors (allow settings buckets call).2 (allowRedis settings db call).2 call.now := by
  have hburst' : (0 : Rat) ≤ settings.rateLimitBurst := by exact_mod_cast hburst.le
  obtain ⟨hdecision, hstore⟩ := allowRedis_spend settings (h.hashes call.clientKey)
  have htake : spend settings.rateLimitRps settings.rateLimitBurst
      (found settings (buckets.get? call.clientKey) call.now) call.now =
        take settings (buckets.get? call.clientKey) call :=
    spend_congr (refill_found hrps hlife hreading (h.tokens call.clientKey))
  rw [htake] at hdecision hstore
  refine ⟨hdecision.symm, fun client => ?_, fun client b hb => ?_, fun client b hb => ?_⟩
  · rw [hstore]
    by_cases hclient : call.clientKey = client
    · rw [if_pos (congrArg redisKey hclient), ← hclient, allow_own]
      rfl
    · rw [if_neg fun heq => hclient (redisKey_injective heq), allow_other buckets hclient]
      exact h.hashes client
  · by_cases hclient : call.clientKey = client
    · rw [← hclient, allow_own] at hb
      cases hb
      refine spend_nonneg_iff.mpr ?_
      cases hbucket : buckets.get? call.clientKey with
      | none =>
          have hstamp : (newBucket settings call).updatedAt ≤ call.now := hreading.le
          exact refill_nonneg hrps hburst' hburst' hstamp
      | some b =>
          exact refill_nonneg hrps hburst' (h.tokens _ b hbucket)
            ((h.stamps _ b hbucket).trans hnow)
    · rw [allow_other buckets hclient] at hb
      exact h.tokens client b hb
  · by_cases hclient : call.clientKey = client
    · rw [← hclient, allow_own] at hb
      cases hb
      exact le_of_eq spend_updatedAt
    · rw [allow_other buckets hclient] at hb
      exact (h.stamps client b hb).trans hnow

/-- Sequences of calls, also of several clients. -/
theorem Mirrors.decisions (h : Mirrors buckets db now) (hrps : 0 ≤ settings.rateLimitRps)
    (hburst : 0 < settings.rateLimitBurst)
    (hlife : (settings.rateLimitBurst : Rat) ≤ 120 * settings.rateLimitRps) {calls : List Call}
    (hreadings : ∀ call ∈ calls, call.created = call.now)
    (htimes : calls.Pairwise fun x y => x.now ≤ y.now) (hnow : ∀ call ∈ calls, now ≤ call.now) :
    decisions settings buckets calls = redisDecisions settings db calls := by
  induction calls generalizing buckets db now with
  | nil => rfl
  | cons call rest ih =>
      rw [List.forall_mem_cons] at hreadings hnow
      obtain ⟨hdecision, hnext⟩ := h.call hrps hburst hlife hreadings.1 hnow.1
      simp only [Gateway.decisions, redisDecisions]
      have hlater : ∀ later ∈ rest, call.now ≤ later.now :=
        fun later hlater => List.rel_of_pairwise_cons htimes hlater
      rw [hdecision, ih hnext hreadings.2 htimes.of_cons hlater]

theorem mirrors_empty (now : Rat) : Mirrors [] [] now where
  hashes _ := rfl
  tokens _ _ h := by cases h
  stamps _ _ h := by cases h

end Both

/-! ## Bursts -/

section Bursts

variable {settings : Settings} {db : Store} {bucket : Option (Bucket Rat)}

/-- A bucket that was written just now has kept its hash. -/
theorem refill_kept {tokens now : Rat} (h : tokens ≤ settings.rateLimitBurst) :
    refill settings.rateLimitRps settings.rateLimitBurst
      (found settings (some ⟨tokens, now⟩) now) now = tokens := by
  have hkept : found settings (some ⟨tokens, now⟩) now = ⟨tokens, now⟩ := by
    unfold found
    rw [Option.filter_some, if_pos (decide_eq_true (by linarith))]
    rfl
  rw [hkept, refill]
  simpa using h

/-- The script lets through as many calls at one time as it finds tokens. -/
theorem redisDecisions_burst (call : Call) (rest : List Call) {n : Nat}
    (h : db.get? (redisKey call.clientKey) = bucket.map stored)
    (hstamp : ∀ b, bucket = some b → b.updatedAt ≤ call.now)
    (hn : n ≤ refill settings.rateLimitRps settings.rateLimitBurst
      (found settings bucket call.now) call.now) :
    ∃ db' bucket', redisDecisions settings db (List.replicate n call ++ rest) =
        List.replicate n (call, true) ++ redisDecisions settings db' rest ∧
      db'.get? (redisKey call.clientKey) = bucket'.map stored ∧
      ∀ b, bucket' = some b → b.updatedAt ≤ call.now := by
  induction n generalizing db bucket with
  | zero => exact ⟨db, bucket, rfl, h, hstamp⟩
  | succ n ih =>
      obtain ⟨hdecision, hstore⟩ := allowRedis_spend settings h
      have hspend : ¬ refill settings.rateLimitRps settings.rateLimitBurst
          (found settings bucket call.now) call.now < 1 → spend settings.rateLimitRps
            settings.rateLimitBurst (found settings bucket call.now) call.now =
          (true, ⟨refill settings.rateLimitRps settings.rateLimitBurst
            (found settings bucket call.now) call.now - 1, call.now⟩) := spend_allowed
      have hle : refill settings.rateLimitRps settings.rateLimitBurst
          (found settings bucket call.now) call.now ≤ settings.rateLimitBurst := refill_le_burst
      generalize refill settings.rateLimitRps settings.rateLimitBurst
        (found settings bucket call.now) call.now = tokens at hn hspend hle
      push_cast at hn
      have hone : ¬ tokens < 1 := by
        have hpos : (0 : Rat) ≤ n := Nat.cast_nonneg n
        linarith
      rw [hspend hone] at hdecision hstore
      have hnext := hstore (redisKey call.clientKey)
      rw [if_pos rfl] at hnext
      have hmore : (n : Rat) ≤ refill settings.rateLimitRps settings.rateLimitBurst
          (found settings (some ⟨tokens - 1, call.now⟩) call.now) call.now := by
        rw [refill_kept (by linarith)]
        linarith
      have hjust : ∀ b : Bucket Rat, some ⟨tokens - 1, call.now⟩ = some b →
          b.updatedAt ≤ call.now := by
        intro b hb
        cases hb
        exact le_rfl
      obtain ⟨db', bucket', hrest, hhash, hlater⟩ := ih hnext hjust hmore
      refine ⟨db', bucket', ?_, hhash, hlater⟩
      rw [List.replicate_succ, List.replicate_succ, List.cons_append, List.cons_append]
      simp only [redisDecisions]
      rw [hdecision, hrest]

end Bursts

/-! ## Agreement -/

/-- Every sequence of calls of a client, in the order of time and with one reading of the clock
for each call, is decided alike in memory and in Redis. -/
def LimitersAgree (settings : Settings) : Prop :=
  ∀ client calls, (∀ call ∈ calls, call.clientKey = client ∧ call.created = call.now) →
    (calls.Pairwise fun x y => x.now ≤ y.now) →
    decisions settings [] calls = redisDecisions settings [] calls

/-- Two whole bursts, 120 seconds apart. -/
def bursts (n : Nat) : List Call :=
  List.replicate n ⟨"10.0.0.1", 0, 0⟩ ++ List.replicate n ⟨"10.0.0.1", 120, 120⟩

theorem redisDecisions_bursts {settings : Settings} {n : Nat}
    (hn : (n : Rat) = settings.rateLimitBurst) :
    redisDecisions settings [] (bursts n) =
      List.replicate n (⟨"10.0.0.1", 0, 0⟩, true) ++
        List.replicate n (⟨"10.0.0.1", 120, 120⟩, true) := by
  have hnew : ∀ now, refill settings.rateLimitRps settings.rateLimitBurst
      (found settings none now) now = settings.rateLimitBurst := fun now => refill_new
  have hempty : Dict.get? ([] : Store) (redisKey "10.0.0.1") = none.map stored := rfl
  obtain ⟨db, bucket, hfirst, hhash, hstamp⟩ := redisDecisions_burst ⟨"10.0.0.1", 0, 0⟩
    (List.replicate n ⟨"10.0.0.1", 120, 120⟩) hempty (fun b hb => by cases hb)
    (le_of_eq (hn.trans (hnew 0).symm))
  -- the hash is gone when the second burst comes
  have hgone : found settings bucket 120 = ⟨settings.rateLimitBurst, 120⟩ := by
    unfold found
    cases bucket with
    | none => rfl
    | some b =>
        have hold : b.updatedAt ≤ 0 := hstamp b rfl
        rw [Option.filter_some, if_neg]
        · rfl
        · simpa using hold
  have hfull : (n : Rat) ≤ refill settings.rateLimitRps settings.rateLimitBurst
      (found settings bucket 120) 120 := by
    rw [hgone, refill_new, hn]
  obtain ⟨db', bucket', hsecond, -, -⟩ := redisDecisions_burst ⟨"10.0.0.1", 120, 120⟩ [] hhash
    (fun b hb => (hstamp b hb).trans (by norm_num)) hfull
  rw [List.append_nil] at hsecond
  rw [bursts, hfirst, hsecond]
  simp [redisDecisions]

/-- The limiters agree exactly if the rate gives a whole burst in the life of a hash. -/
theorem limiters_agree_iff {settings : Settings} (hrps : 0 < settings.rateLimitRps)
    (hburst : 0 < settings.rateLimitBurst) :
    LimitersAgree settings ↔ (settings.rateLimitBurst : Rat) ≤ 120 * settings.rateLimitRps := by
  constructor
  · intro hagree
    have hn : ((settings.rateLimitBurst.toNat : Nat) : Rat) = settings.rateLimitBurst := by
      exact_mod_cast Int.toNat_of_nonneg hburst.le
    generalize settings.rateLimitBurst.toNat = n at hn
    have htimes : (bursts n).Pairwise fun x y => x.now ≤ y.now := by
      simp [bursts, List.pairwise_append, List.pairwise_replicate]
    have hcalls : ∀ call ∈ bursts n, call.clientKey = "10.0.0.1" ∧ call.created = call.now := by
      intro call hcall
      rcases List.mem_append.mp hcall with hmem | hmem
      · rw [List.eq_of_mem_replicate hmem]
        exact ⟨rfl, rfl⟩
      · rw [List.eq_of_mem_replicate hmem]
        exact ⟨rfl, rfl⟩
    -- Redis lets all of them through, and the buckets in memory keep to the rate
    have hspan : (0 : Rat) ≤ 120 := by norm_num
    have hwindow := decisions_window hrps.le hburst htimes "10.0.0.1" hspan
    rw [hagree "10.0.0.1" (bursts n) hcalls htimes, redisDecisions_bursts hn,
      List.countP_append, List.countP_replicate, List.countP_replicate] at hwindow
    simp [isFrom] at hwindow
    linarith
  · intro hlife client calls hcalls htimes
    cases calls with
    | nil => rfl
    | cons first rest =>
        refine (mirrors_empty first.now).decisions hrps.le hburst hlife
          (fun call hcall => (hcalls call hcall).2) htimes fun call hcall => ?_
        rcases List.mem_cons.mp hcall with rfl | hrest
        · exact le_rfl
        · exact List.rel_of_pairwise_cons htimes hrest

theorem limiters_agree_default : LimitersAgree {} ↔ ((60 : Int) : Rat) ≤ 120 * 20 :=
  @limiters_agree_iff {} (by decide) (by decide)

/-- One call in 128 seconds is allowed, and the second comes after 121. -/
theorem limiters_disagree : ¬ ∀ settings : Settings, 0 < settings.rateLimitRps →
    0 < settings.rateLimitBurst → LimitersAgree settings := by
  intro hclaim
  have hagree := hclaim { rateLimitRps := mkRat 1 128, rateLimitBurst := 1 } (by decide)
    (by decide) "10.0.0.1" [⟨"10.0.0.1", 0, 0⟩, ⟨"10.0.0.1", 121, 121⟩] (by decide) (by decide)
  exact absurd hagree (by decide +kernel)

end Gateway
end Rcp
