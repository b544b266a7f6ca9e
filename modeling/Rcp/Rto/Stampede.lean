/-
How often the signing keys are fetched.

Both caches measure from the last fetch that has succeeded.  Where the fetches fail, every
lookup of an unknown key, and with a stale cache every lookup at all, tries again at once.
-/
import Mathlib.Tactic.Linarith
import Rcp.Common.Throttle
import Rcp.Rto.Jwks

namespace Rcp

open Throttle

/-- The clock does not run backwards: neither within a lookup nor, as the lock has them, from
one lookup to the next. -/
structure Timely {K D : Type} (l : List (K × Reading D)) : Prop where
  within : ∀ use ∈ l, use.2.now ≤ use.2.again ∧ use.2.again ≤ use.2.done
  ordered : l.Pairwise fun x y => x.2.done ≤ y.2.now

/-- The second lookup is later than the first one, and reads the clock in order. -/
def ReadAfter {K D : Type} (x y : K × Reading D) : Prop :=
  x.2.again ≤ x.2.done ∧ x.2.done ≤ y.2.now ∧ y.2.now ≤ y.2.again

theorem Timely.pairwise {K D : Type} {l : List (K × Reading D)} (h : Timely l) :
    l.Pairwise ReadAfter :=
  h.ordered.imp_of_mem fun hx hy hxy => ⟨(h.within _ hx).2, hxy, (h.within _ hy).1⟩

/-- When the fetch of a lookup is tried. -/
def fetchTime {K D : Type} (use : K × Reading D) : Time := use.2.again

def fetchFailed {K D : Type} (use : K × Reading D) : Bool := use.2.fetched.isNone

theorem ReadAfter.fetchTime_le {K D : Type} {x y : K × Reading D} (h : ReadAfter x y) :
    fetchTime x ≤ fetchTime y :=
  h.1.trans (h.2.1.trans h.2.2)

namespace Auth
namespace JWKSCache

variable {Jwk : Type}

def wants (ttl : Time) (cache : JWKSCache Jwk)
    (use : String × Reading (List (String × Jwk))) : Bool :=
  cache.refreshes ttl use.1 use.2

def next (ttl : Time) (cache : JWKSCache Jwk)
    (use : String × Reading (List (String × Jwk))) : JWKSCache Jwk :=
  (cache.getKey ttl use.1 use.2).2

/-- The lookups that fetch, of a sequence of `get_key` calls. -/
def fetches (ttl : Time) (cache : JWKSCache Jwk) :
    List (String × Reading (List (String × Jwk))) →
      List (String × Reading (List (String × Jwk))) :=
  attempts (wants ttl) (next ttl) cache

variable {ttl : Time} {cache : JWKSCache Jwk} {x y : String × Reading (List (String × Jwk))}

theorem next_keep (h : cache.wants ttl x = false) : cache.next ttl x = cache := by
  have hnot : ¬ cache.refreshes ttl x.1 x.2 = true := Bool.eq_false_iff.mp h
  unfold next getKey
  rw [if_neg hnot]

theorem next_failed (h : fetchFailed x = true) : cache.next ttl x = cache :=
  getKey_outage_cache (Option.isNone_iff_eq_none.mp h)

theorem next_fetched (h : cache.wants ttl x = true) (hf : fetchFailed x = false) :
    (cache.next ttl x).fetchedAt = x.2.done := by
  obtain ⟨document, hdocument⟩ : ∃ document, x.2.fetched = some document := by
    cases hx : x.2.fetched with
    | none => simp [fetchFailed, hx] at hf
    | some document => exact ⟨document, rfl⟩
  have hpos : cache.refreshes ttl x.1 x.2 = true := h
  unfold next getKey fetch
  rw [if_pos hpos, hdocument]

/-- After a fetch the next one is tried later than the interval. -/
theorem fetched_spaced (httl : unknownKidInterval ≤ ttl) (h : cache.wants ttl x = true)
    (hf : fetchFailed x = false) (hlater : ReadAfter x y)
    (hwants : (cache.next ttl x).wants ttl y = true) :
    fetchTime x + unknownKidInterval ≤ fetchTime y := by
  have hdone := next_fetched h hf
  obtain ⟨hx, hxy, hy⟩ := hlater
  simp only [wants, refreshes, stale, hdone, Bool.or_eq_true, Bool.and_eq_true,
    decide_eq_true_eq] at hwants
  unfold fetchTime unknownKidInterval at *
  rcases hwants with hstale | ⟨-, hunknown⟩
  · linarith
  · linarith

end JWKSCache
end Auth

namespace Rto
namespace Keys

def wants (v : Keys) (use : String × Reading (List Jwk)) : Bool := v.refreshes use.1 use.2

def next (v : Keys) (use : String × Reading (List Jwk)) : Keys := (v.key use.1 use.2).2

/-- The lookups that fetch, of a sequence of `key` calls. -/
def fetches (v : Keys) : List (String × Reading (List Jwk)) → List (String × Reading (List Jwk)) :=
  attempts wants next v

variable {v : Keys} {x y : String × Reading (List Jwk)}

theorem next_keep (h : v.wants x = false) : v.next x = v := by
  have hnot : ¬ v.refreshes x.1 x.2 = true := Bool.eq_false_iff.mp h
  unfold next key
  rw [if_neg hnot]

theorem next_failed (h : fetchFailed x = true) : v.next x = v := by
  have hdown : ((some x.1, x.2) : Option String × Reading (List Jwk)).2.fetched = none :=
    Option.isNone_iff_eq_none.mp h
  exact serve_outage hdown

theorem next_fetched (h : v.wants x = true) (hf : fetchFailed x = false) :
    (v.next x).fetchedAt = some x.2.done := by
  obtain ⟨document, hdocument⟩ : ∃ document, x.2.fetched = some document := by
    cases hx : x.2.fetched with
    | none => simp [fetchFailed, hx] at hf
    | some document => exact ⟨document, rfl⟩
  have hpos : v.refreshes x.1 x.2 = true := h
  unfold next key refreshLocked
  rw [if_pos hpos, hdocument]

theorem fetched_spaced (h : v.wants x = true) (hf : fetchFailed x = false) (hlater : ReadAfter x y)
    (hwants : (v.next x).wants y = true) : fetchTime x + minRefreshInterval ≤ fetchTime y := by
  have hdone := next_fetched h hf
  obtain ⟨hx, hxy, hy⟩ := hlater
  simp only [wants, refreshes, olderThan, hdone, Bool.and_eq_true, decide_eq_true_eq] at hwants
  unfold fetchTime
  linarith [hwants.2]

end Keys

/-- In both caches the fetches are five seconds apart exactly if after each one that fails, for
five seconds, no lookup finds the cache stale or without its key. -/
theorem fetches_spaced_iff {Jwk' : Type} {ttl : Time} (httl : Auth.unknownKidInterval ≤ ttl)
    (cache : Auth.JWKSCache Jwk') {lookups : List (String × Reading (List (String × Jwk')))}
    (hpython : Timely lookups) (v : Keys) {uses : List (String × Reading (List Jwk))}
    (hgo : Timely uses) :
    (Spaced fetchTime (5 * 1000000) (cache.fetches ttl lookups) ↔
      Patient (Auth.JWKSCache.wants ttl) (Auth.JWKSCache.next ttl) fetchTime fetchFailed
        (5 * 1000000) cache lookups) ∧
    (Spaced fetchTime (5 * 1000000) (v.fetches uses) ↔
      Patient Keys.wants Keys.next fetchTime fetchFailed (5 * 1000000) v uses) := by
  constructor
  · exact spaced_iff_patient (R := ReadAfter) (fun _ _ => Auth.JWKSCache.next_keep)
      (fun _ _ => Auth.JWKSCache.next_failed) (fun _ _ => ReadAfter.fetchTime_le)
      (fun _ _ _ hx hf hlater => Auth.JWKSCache.fetched_spaced httl hx hf hlater)
      hpython.pairwise cache
  · exact spaced_iff_patient (R := ReadAfter) (fun _ _ => Keys.next_keep)
      (fun _ _ => Keys.next_failed) (fun _ _ => ReadAfter.fetchTime_le)
      (fun _ _ _ hx hf hlater => Keys.fetched_spaced hx hf hlater) hgo.pairwise v

/-- Two lookups of a process that has just started, so many microseconds apart, while the
identity service is down. -/
def retried {D : Type} (span : Time) : List (String × Reading D) :=
  [("k1", ⟨700000000, 700000000, 700000000, none⟩),
    ("k1", ⟨700000000 + span, 700000000 + span, 700000000 + span, none⟩)]

theorem retried_timely {D : Type} {span : Time} (h : 0 ≤ span) :
    Timely (retried span : List (String × Reading D)) where
  within use huse := by
    rcases List.mem_cons.mp huse with rfl | huse
    · exact ⟨le_rfl, le_rfl⟩
    · rw [List.mem_singleton.mp huse]
      exact ⟨le_rfl, le_rfl⟩
  ordered := by
    refine List.pairwise_cons.mpr ⟨fun use huse => ?_, List.pairwise_singleton _ _⟩
    rw [List.mem_singleton.mp huse]
    exact le_add_of_nonneg_right h

theorem fetches_spaced_slowly :
    (Spaced fetchTime (5 * 1000000)
        (({} : Auth.JWKSCache Jwk).fetches 600000000 (retried 6000000)) ↔
      Patient (Auth.JWKSCache.wants 600000000) (Auth.JWKSCache.next 600000000) fetchTime
        fetchFailed (5 * 1000000) ({} : Auth.JWKSCache Jwk) (retried 6000000)) ∧
    (Spaced fetchTime (5 * 1000000) (({} : Keys).fetches (retried 6000000)) ↔
      Patient Keys.wants Keys.next fetchTime fetchFailed (5 * 1000000) {} (retried 6000000)) :=
  fetches_spaced_iff (by decide) {} (retried_timely (by decide)) {} (retried_timely (by decide))

/-- A second lookup after a failure fetches at once, in both caches. -/
theorem fetches_not_spaced :
    (¬ ∀ (ttl : Time) (cache : Auth.JWKSCache Jwk)
      (lookups : List (String × Reading (List (String × Jwk)))),
      Auth.unknownKidInterval ≤ ttl → Timely lookups →
      Spaced fetchTime (5 * 1000000) (cache.fetches ttl lookups)) ∧
    (¬ ∀ (v : Keys) (uses : List (String × Reading (List Jwk))), Timely uses →
      Spaced fetchTime (5 * 1000000) (v.fetches uses)) := by
  constructor
  · intro hclaim
    have hspaced := hclaim 600000000 {} (retried 1) (by decide) (retried_timely (by decide))
    have hboth : ({} : Auth.JWKSCache Jwk).fetches 600000000 (retried 1) = retried 1 := rfl
    rw [hboth] at hspaced
    exact absurd (List.isChain_cons_cons.mp hspaced).1 (by decide)
  · intro hclaim
    have hspaced := hclaim {} (retried 1) (retried_timely (by decide))
    have hboth : ({} : Keys).fetches (retried 1) = retried 1 := rfl
    rw [hboth] at hspaced
    exact absurd (List.isChain_cons_cons.mp hspaced).1 (by decide)

end Rto
end Rcp
