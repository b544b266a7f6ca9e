/-
Token verification against the JWKS of the identity service
(`packages/common/rcp_common/auth.py`).

`python-jose` is taken as a parameter: how it reads a token's header and how it decodes
a token with a key.  Times are those of `time.monotonic()`.
-/
import Rcp.Iam.Model

namespace Rcp

structure Principal where
  userId : Uuid
  tenantId : Option Uuid
  userType : String
  roles : List String
  deriving DecidableEq

/-- The principal of a token with the given claims. -/
def Principal.ofClaims (claims : Iam.Claims) : Principal :=
  { userId := claims.sub
    tenantId := claims.tenantId
    userType := claims.userType
    roles := claims.roles }

/-- The check of `require_any_role`. -/
def requireAnyRole (roles : List String) (principal : Principal) : Bool :=
  roles.any (principal.roles.contains ·)

/-! ## The cache of the keys -/

/-- What a lookup takes from outside: the clock, twice before a fetch and once after it, and
the document that a fetch would get, if it gets one. -/
structure Reading (D : Type) where
  now : Time
  again : Time
  done : Time
  fetched : Option D

namespace Auth

variable {Jwk : Type}

/-- `_JWKSCache`. -/
structure JWKSCache (Jwk : Type) where
  keys : Dict String Jwk := []
  fetchedAt : Time := 0

inductive Error
  /-- Raised by `_fetch`: no answer, a bad status or a document of another shape. -/
  | fetch
  | authError
  deriving DecidableEq

/-- `{k["kid"]: k for k in keys}`. -/
def keysByKid (document : List (String × Jwk)) : Dict String Jwk :=
  document.foldl (fun keys k => keys.set k.1 k.2) []

/-- An unknown `kid` leads to a fetch if the last one is longer ago. -/
def unknownKidInterval : Time := 5 * 1000000

namespace JWKSCache

def fetch (cache : JWKSCache Jwk) (x : Reading (List (String × Jwk))) :
    Except Error Unit × JWKSCache Jwk :=
  match x.fetched with
  | none => (.error .fetch, cache)
  | some document => (.ok (), { keys := keysByKid document, fetchedAt := x.done })

def stale (ttl : Time) (cache : JWKSCache Jwk) (now : Time) : Bool :=
  now - cache.fetchedAt > ttl

/-- The TTL is over, or the `kid` is unknown. -/
def refreshes (ttl : Time) (cache : JWKSCache Jwk) (kid : String)
    (x : Reading (List (String × Jwk))) : Bool :=
  cache.stale ttl x.now ||
    ((cache.keys.get? kid).isNone && x.again - cache.fetchedAt > unknownKidInterval)

def getKey (ttl : Time) (cache : JWKSCache Jwk) (kid : String)
    (x : Reading (List (String × Jwk))) : Except Error (Option Jwk) × JWKSCache Jwk :=
  if cache.refreshes ttl kid x then
    match cache.fetch x with
    | (.error e, cache) => (.error e, cache)
    | (.ok _, cache) => (.ok (cache.keys.get? kid), cache)
  else (.ok (cache.keys.get? kid), cache)

/-- Lookups one after the other, as the lock has them. -/
def lookups (ttl : Time) (cache : JWKSCache Jwk) :
    List (String × Reading (List (String × Jwk))) → JWKSCache Jwk
  | [] => cache
  | (kid, x) :: rest => (cache.getKey ttl kid x).2.lookups ttl rest

end JWKSCache

/-! ## Verification -/

structure Header where
  alg : Option String
  kid : Option String

/-- The part of `python-jose` that `verify` uses: both may raise a `JWTError`. -/
structure Jose (Jwk Token : Type) where
  getUnverifiedHeader : Token → Option Header
  decode : Token → Jwk → (issuer audience : String) → Option Iam.Claims

structure JWKSVerifier where
  issuer : String := "rcp-iam"
  audience : String := "rcp-services"
  ttl : Time := 600 * 1000000

def JWKSVerifier.verify {Token : Type} (verifier : JWKSVerifier) (jose : Jose Jwk Token)
    (cache : JWKSCache Jwk) (token : Token) (x : Reading (List (String × Jwk))) :
    Except Error Principal × JWKSCache Jwk :=
  match jose.getUnverifiedHeader token with
  | none => (.error .authError, cache)
  | some header =>
      if header.alg ≠ some "RS256" then (.error .authError, cache)
      else
        match cache.getKey verifier.ttl (header.kid.getD "") x with
        | (.error _, cache) => (.error .authError, cache)
        | (.ok none, cache) => (.error .authError, cache)
        | (.ok (some key), cache) =>
            match jose.decode token key verifier.issuer verifier.audience with
            | none => (.error .authError, cache)
            | some claims => (.ok (.ofClaims claims), cache)

/-! ## Outages -/

/-- Lookups by a process that has just started, of which one is the last that has fetched
the keys. -/
structure Outage (Jwk : Type) (ttl : Time) where
  past : List (String × Reading (List (String × Jwk)))
  kid : String
  fetch : Reading (List (String × Jwk))
  document : List (String × Jwk)
  refreshes : (({} : JWKSCache Jwk).lookups ttl past).refreshes ttl kid fetch = true
  fetched : fetch.fetched = some document
  since : List (String × Reading (List (String × Jwk)))
  down : ∀ y ∈ since, y.2.fetched = none

/-- The cache after the lookups. -/
def Outage.cache {ttl : Time} (o : Outage Jwk ttl) : JWKSCache Jwk :=
  ({} : JWKSCache Jwk).lookups ttl (o.past ++ (o.kid, o.fetch) :: o.since)

namespace JWKSCache

variable {cache : JWKSCache Jwk} {ttl : Time} {kid : String}
  {x : Reading (List (String × Jwk))}

/-- A lookup during an outage leaves the cache. -/
theorem getKey_outage_cache (h : x.fetched = none) : (cache.getKey ttl kid x).2 = cache := by
  unfold getKey fetch
  rw [h]
  split <;> rfl

theorem lookups_outage {l : List (String × Reading (List (String × Jwk)))}
    (h : ∀ y ∈ l, y.2.fetched = none) : cache.lookups ttl l = cache := by
  induction l with
  | nil => rfl
  | cons y rest ih =>
      have hy : y.2.fetched = none := h y List.mem_cons_self
      show (cache.getKey ttl y.1 y.2).2.lookups ttl rest = cache
      rw [getKey_outage_cache hy]
      exact ih fun z hz => h z (List.mem_cons_of_mem y hz)

theorem lookups_append (l l' : List (String × Reading (List (String × Jwk)))) :
    cache.lookups ttl (l ++ l') = (cache.lookups ttl l).lookups ttl l' := by
  induction l generalizing cache with
  | nil => rfl
  | cons y rest ih => exact ih

/-- During an outage a key of the cache is found until the cache is stale, and no longer. -/
theorem getKey_outage {key : Jwk} (h : x.fetched = none) (hkey : cache.keys.get? kid = some key) :
    (cache.getKey ttl kid x).1 =
      if x.now - cache.fetchedAt ≤ ttl then .ok (some key) else .error .fetch := by
  unfold getKey refreshes fetch stale
  rw [hkey, h]
  by_cases hfresh : x.now - cache.fetchedAt ≤ ttl
  · have hnot : ¬ x.now - cache.fetchedAt > ttl := Int.not_lt.mpr hfresh
    simp [hfresh, hnot]
  · have hstale : x.now - cache.fetchedAt > ttl := Int.not_le.mp hfresh
    simp [hfresh, hstale]

end JWKSCache

/-- The cache holds what the last fetch has brought. -/
theorem Outage.cache_eq {ttl : Time} (o : Outage Jwk ttl) :
    o.cache = { keys := keysByKid o.document, fetchedAt := o.fetch.done } := by
  have hfetch : ((({} : JWKSCache Jwk).lookups ttl o.past).getKey ttl o.kid o.fetch).2 =
      { keys := keysByKid o.document, fetchedAt := o.fetch.done } := by
    unfold JWKSCache.getKey JWKSCache.fetch
    rw [if_pos o.refreshes, o.fetched]
  unfold cache
  rw [JWKSCache.lookups_append]
  show JWKSCache.lookups ttl (JWKSCache.getKey ttl _ o.kid o.fetch).2 o.since = _
  rw [hfetch]
  exact JWKSCache.lookups_outage o.down

theorem verify_outage {Token : Type} {verifier : JWKSVerifier} {jose : Jose Jwk Token}
    {cache : JWKSCache Jwk} {token : Token} {x : Reading (List (String × Jwk))} {kid : String}
    {key : Jwk} {claims : Iam.Claims} (h : x.fetched = none)
    (hkey : cache.keys.get? kid = some key)
    (hheader : jose.getUnverifiedHeader token = some ⟨some "RS256", some kid⟩)
    (hdecode : jose.decode token key verifier.issuer verifier.audience = some claims) :
    (verifier.verify jose cache token x).1 =
      if x.now - cache.fetchedAt ≤ verifier.ttl then .ok (.ofClaims claims)
      else .error .authError := by
  have hget : (cache.getKey verifier.ttl kid x).1 =
      if x.now - cache.fetchedAt ≤ verifier.ttl then .ok (some key) else .error .fetch :=
    JWKSCache.getKey_outage h hkey
  unfold JWKSVerifier.verify
  simp only [hheader, Option.getD_some, ne_eq, not_true_eq_false, if_false]
  by_cases hfresh : x.now - cache.fetchedAt ≤ verifier.ttl
  · rw [if_pos hfresh] at hget ⊢
    split
    · rename_i hcase
      rw [hcase] at hget
      cases hget
    · rename_i hcase
      rw [hcase] at hget
      cases hget
    · rename_i hcase
      rw [hcase] at hget
      cases hget
      rw [hdecode]
  · rw [if_neg hfresh] at hget ⊢
    split
    · rfl
    · rfl
    · rename_i hcase
      rw [hcase] at hget
      cases hget

end Auth
end Rcp
