/-
The cached keys of the real-time service (`services/rto/internal/auth/jwks.go`), and both
verifiers during an outage of the identity service.

A failed refresh is an error in the Go verifier only as long as it has no keys at all.
In the Python one it is always an error, and once the TTL is over every lookup refreshes.
-/
import Rcp.Common.Auth
import Rcp.Rto.Model

namespace Rcp
namespace Rto

/-! ## Keys -/

/-- `jwk`. -/
structure Jwk where
  kid : String
  kty : String
  n : String
  e : String

/-- `rsa.PublicKey`. -/
structure PublicKey where
  n : Nat
  e : Int
  deriving DecidableEq

/-- The value of a digit of `base64.RawURLEncoding`. -/
def base64Digit (c : Char) : Option Nat :=
  if 'A' ≤ c ∧ c ≤ 'Z' then some (c.toNat - 'A'.toNat)
  else if 'a' ≤ c ∧ c ≤ 'z' then some (c.toNat - 'a'.toNat + 26)
  else if '0' ≤ c ∧ c ≤ '9' then some (c.toNat - '0'.toNat + 52)
  else if c = '-' then some 62
  else if c = '_' then some 63
  else none

/-- Four digits make three bytes.  At the end three make two and two make one, and the bits
that are left over are ignored. -/
def bytesOfDigits : List Nat → Option (List Nat)
  | [] => some []
  | [_] => none
  | [a, b] => some [a * 4 + b / 16]
  | [a, b, c] => some [a * 4 + b / 16, b % 16 * 16 + c / 4]
  | a :: b :: c :: d :: rest =>
      (bytesOfDigits rest).map fun bytes =>
        (a * 4 + b / 16) :: (b % 16 * 16 + c / 4) :: (c % 4 * 64 + d) :: bytes

/-- `base64.RawURLEncoding.DecodeString`, which skips line ends. -/
def decodeString (s : String) : Option (List Nat) :=
  ((s.toList.filter fun c => c ≠ '\r' ∧ c ≠ '\n').mapM base64Digit).bind bytesOfDigits

/-- `new(big.Int).SetBytes`. -/
def setBytes (bytes : List Nat) : Nat := bytes.foldl (fun n b => n * 256 + b) 0

/-- `e = e<<8 | int(b)` over the bytes, on 64 bits. -/
def exponent (bytes : List Nat) : Int :=
  (bytes.foldl (fun (e : BitVec 64) b => e <<< 8 ||| BitVec.ofNat 64 b) 0).toInt

def parseRSA (k : Jwk) : Option PublicKey := do
  let nb ← decodeString k.n
  let eb ← decodeString k.e
  return { n := setBytes nb, e := exponent eb }

/-! ## The cache -/

/-- The part of `Verifier` under `mu`.  The zero time stands before all others. -/
structure Keys where
  keys : Dict String PublicKey := []
  fetchedAt : Option Time := none

inductive KeyError
  | fetch
  | unknownSigningKey
  deriving DecidableEq

def jwksTTL : Time := 10 * 60 * 1000000

def minRefreshInterval : Time := 5 * 1000000

/-- The keys of a document.  What is not RSA or cannot be parsed is passed over. -/
def parseKeys (document : List Jwk) : Dict String PublicKey :=
  document.foldl (fun keys k =>
    if k.kty ≠ "RSA" then keys
    else
      match parseRSA k with
      | none => keys
      | some pub => keys.set k.kid pub) []

namespace Keys

/-- `time.Since(v.fetchedAt) > limit`. -/
def olderThan (v : Keys) (now limit : Time) : Bool :=
  match v.fetchedAt with
  | none => true
  | some fetchedAt => now - fetchedAt > limit

def refreshLocked (v : Keys) (x : Reading (List Jwk)) : Except KeyError Unit × Keys :=
  match x.fetched with
  | none => (.error .fetch, v)
  | some document => (.ok (), { keys := parseKeys document, fetchedAt := some x.done })

def find (v : Keys) (kid : String) : Except KeyError PublicKey :=
  match v.keys.get? kid with
  | some pub => .ok pub
  | none => .error .unknownSigningKey

/-- The TTL is over or the `kid` is unknown, and the last refresh was not just now. -/
def refreshes (v : Keys) (kid : String) (x : Reading (List Jwk)) : Bool :=
  let stale := v.olderThan x.now jwksTTL
  let known := (v.keys.get? kid).isSome
  (stale || !known) && v.olderThan x.again minRefreshInterval

def key (v : Keys) (kid : String) (x : Reading (List Jwk)) : Except KeyError PublicKey × Keys :=
  if v.refreshes kid x then
    match v.refreshLocked x with
    | (.error e, v) => if v.keys.length = 0 then (.error e, v) else (v.find kid, v)
    | (.ok _, v) => (v.find kid, v)
  else (v.find kid, v)

/-- `Warm` has no `kid`. -/
def serve (v : Keys) : Option String × Reading (List Jwk) → Keys
  | (none, x) => (v.refreshLocked x).2
  | (some kid, x) => (v.key kid x).2

/-- Uses of the keys one after the other, as the lock has them. -/
def serveAll (v : Keys) (l : List (Option String × Reading (List Jwk))) : Keys :=
  l.foldl serve v

end Keys

/-- The part of `golang-jwt` that `Verify` uses: the header's `kid`, and the claims of a
token that is signed with the key by an allowed method. -/
structure Jwt (Token : Type) where
  kid : Token → String
  parse : Token → PublicKey → Option Iam.Claims

/-- `Verify`: the key is looked up, and the claims are checked as in `Verifier.verify`. -/
def Verifier.verifyToken {Token : Type} (v : Verifier) (jwt : Jwt Token) (keys : Keys)
    (token : Token) (now : Time) (x : Reading (List Jwk)) : Except Error Claims × Keys :=
  match keys.key (jwt.kid token) x with
  | (.error _, keys) => (.error .invalidToken, keys)
  | (.ok pub, keys) =>
      match jwt.parse token pub with
      | none => (.error .invalidToken, keys)
      | some claims => (v.verify now claims, keys)

/-! ## Outages -/

/-- Uses of the keys by a process that has just started, of which one is the last that has
fetched them. -/
structure Outage where
  past : List (Option String × Reading (List Jwk))
  kid : Option String
  fetch : Reading (List Jwk)
  document : List Jwk
  refreshes : ∀ kid' ∈ kid, (({} : Keys).serveAll past).refreshes kid' fetch = true
  fetched : fetch.fetched = some document
  since : List (Option String × Reading (List Jwk))
  down : ∀ use ∈ since, use.2.fetched = none

/-- The keys after the uses. -/
def Outage.keys (o : Outage) : Keys :=
  ({} : Keys).serveAll (o.past ++ (o.kid, o.fetch) :: o.since)

namespace Keys

variable {v : Keys} {kid : String} {x : Reading (List Jwk)} {pub : PublicKey}

theorem serve_outage {use : Option String × Reading (List Jwk)} (h : use.2.fetched = none) :
    v.serve use = v := by
  obtain ⟨kid, x⟩ := use
  have hx : x.fetched = none := h
  have hrefresh : v.refreshLocked x = (.error .fetch, v) := by
    unfold refreshLocked
    rw [hx]
  cases kid with
  | none =>
      show (v.refreshLocked x).2 = v
      rw [hrefresh]
  | some kid =>
      show (v.key kid x).2 = v
      unfold key
      simp only [hrefresh]
      split
      · split <;> rfl
      · rfl

theorem serveAll_outage {l : List (Option String × Reading (List Jwk))}
    (h : ∀ use ∈ l, use.2.fetched = none) : v.serveAll l = v := by
  induction l with
  | nil => rfl
  | cons use rest ih =>
      show (v.serve use).serveAll rest = v
      rw [serve_outage (h use List.mem_cons_self)]
      exact ih fun u hu => h u (List.mem_cons_of_mem use hu)

theorem serveAll_append (l l' : List (Option String × Reading (List Jwk))) :
    v.serveAll (l ++ l') = (v.serveAll l).serveAll l' := List.foldl_append ..

/-- During an outage every key of the cache is found. -/
theorem key_outage (h : x.fetched = none) (hkey : v.keys.get? kid = some pub) :
    v.key kid x = (.ok pub, v) := by
  have hfind : v.find kid = .ok pub := by
    unfold find
    rw [hkey]
  have hsome : v.keys.length ≠ 0 := by
    intro hzero
    rw [List.eq_nil_of_length_eq_zero hzero] at hkey
    cases hkey
  have hrefresh : v.refreshLocked x = (.error .fetch, v) := by
    unfold refreshLocked
    rw [h]
  unfold key
  simp only [hrefresh, if_neg hsome, hfind, ite_self]

end Keys

/-- The cache holds what the last fetch has brought. -/
theorem Outage.keys_eq (o : Outage) :
    o.keys = { keys := parseKeys o.document, fetchedAt := some o.fetch.done } := by
  have hrefresh : (({} : Keys).serveAll o.past).refreshLocked o.fetch =
      (.ok (), { keys := parseKeys o.document, fetchedAt := some o.fetch.done }) := by
    unfold Keys.refreshLocked
    rw [o.fetched]
  have hserve : (({} : Keys).serveAll o.past).serve (o.kid, o.fetch) =
      { keys := parseKeys o.document, fetchedAt := some o.fetch.done } := by
    cases hkid : o.kid with
    | none =>
        show (Keys.refreshLocked _ o.fetch).2 = _
        rw [hrefresh]
    | some kid =>
        show (Keys.key _ kid o.fetch).2 = _
        unfold Keys.key
        rw [if_pos (o.refreshes kid hkid), hrefresh]
  unfold keys
  rw [Keys.serveAll_append]
  show Keys.serveAll (Keys.serve _ (o.kid, o.fetch)) o.since = _
  rw [hserve]
  exact Keys.serveAll_outage o.down

theorem verifyToken_outage {Token : Type} {v : Verifier} {jwt : Jwt Token} {keys : Keys}
    {token : Token} {now : Time} {x : Reading (List Jwk)} {pub : PublicKey} {claims : Iam.Claims}
    (h : x.fetched = none) (hkey : keys.keys.get? (jwt.kid token) = some pub)
    (hparse : jwt.parse token pub = some claims) :
    (v.verifyToken jwt keys token now x).1 = v.verify now claims := by
  unfold Verifier.verifyToken
  rw [Keys.key_outage h hkey]
  simp only [hparse]

/-- What a verifier with the keys of its last fetch owes during the outage after it: the
Go verifier finds each of them, and so verifies every token as if the service were up. -/
def GoSurvives {Token : Type} (v : Verifier) (jwt : Jwt Token) (o : Outage) (kid : String)
    (pub : PublicKey) (x : Reading (List Jwk)) : Prop :=
  (o.keys.key kid x).1 = .ok pub ∧
    ∀ token claims now, jwt.kid token = kid → jwt.parse token pub = some claims →
      (v.verifyToken jwt o.keys token now x).1 = v.verify now claims

def PythonSurvives {JwkDict Token : Type} (verifier : Auth.JWKSVerifier)
    (jose : Auth.Jose JwkDict Token) (o : Auth.Outage JwkDict verifier.ttl) (kid : String)
    (key : JwkDict) (x : Reading (List (String × JwkDict))) : Prop :=
  (o.cache.getKey verifier.ttl kid x).1 = .ok (some key) ∧
    ∀ token claims, jose.getUnverifiedHeader token = some ⟨some "RS256", some kid⟩ →
      jose.decode token key verifier.issuer verifier.audience = some claims →
      (verifier.verify jose o.cache token x).1 = .ok (.ofClaims claims)

theorem goSurvives {Token : Type} (v : Verifier) (jwt : Jwt Token) (o : Outage) {kid : String}
    {pub : PublicKey} (hkey : (parseKeys o.document).get? kid = some pub)
    {x : Reading (List Jwk)} (hx : x.fetched = none) : GoSurvives v jwt o kid pub x := by
  have hkey' : o.keys.keys.get? kid = some pub := by
    rw [o.keys_eq]
    exact hkey
  refine ⟨?_, fun token claims now hkid hparse => ?_⟩
  · rw [Keys.key_outage hx hkey']
  · rw [← hkid] at hkey'
    exact verifyToken_outage hx hkey' hparse

theorem pythonSurvives_iff {JwkDict Token : Type} (verifier : Auth.JWKSVerifier)
    (jose : Auth.Jose JwkDict Token) (o : Auth.Outage JwkDict verifier.ttl) {kid : String}
    {key : JwkDict} (hkey : (Auth.keysByKid o.document).get? kid = some key)
    {x : Reading (List (String × JwkDict))} (hx : x.fetched = none) :
    PythonSurvives verifier jose o kid key x ↔ x.now - o.fetch.done ≤ verifier.ttl := by
  have hkey' : o.cache.keys.get? kid = some key := by
    rw [o.cache_eq]
    exact hkey
  have hat : o.cache.fetchedAt = o.fetch.done := by rw [o.cache_eq]
  have hget : (o.cache.getKey verifier.ttl kid x).1 =
      if x.now - o.cache.fetchedAt ≤ verifier.ttl then .ok (some key) else .error .fetch :=
    Auth.JWKSCache.getKey_outage hx hkey'
  rw [hat] at hget
  constructor
  · rintro ⟨hfound, -⟩
    by_contra hlate
    rw [hget, if_neg hlate] at hfound
    cases hfound
  · intro hfresh
    refine ⟨?_, fun token claims hheader hdecode => ?_⟩
    · rw [hget, if_pos hfresh]
    · rw [Auth.verify_outage hx hkey' hheader hdecode, hat, if_pos hfresh]

/-- Both verifiers survive an outage exactly until the TTL of the Python one is over. -/
theorem verification_survives_outage_iff {JwkDict Token : Type} (verifier : Auth.JWKSVerifier)
    (jose : Auth.Jose JwkDict Token) (o : Auth.Outage JwkDict verifier.ttl) (v : Verifier)
    (jwt : Jwt Token) (p : Outage) {kid : String} {key : JwkDict} {pub : PublicKey}
    (hkey : (Auth.keysByKid o.document).get? kid = some key)
    (hpub : (parseKeys p.document).get? kid = some pub)
    {x : Reading (List (String × JwkDict))} {y : Reading (List Jwk)}
    (hx : x.fetched = none) (hy : y.fetched = none) :
    (PythonSurvives verifier jose o kid key x ∧ GoSurvives v jwt p kid pub y) ↔
      x.now - o.fetch.done ≤ verifier.ttl := by
  rw [pythonSurvives_iff verifier jose o hkey hx]
  exact and_iff_left (goSurvives v jwt p hpub hy)

/-- The key that the identity service publishes in the examples. -/
def publishedKey : Jwk := { kid := "k1", kty := "RSA", n := "AQAB", e := "AQAB" }

/-- The document is fetched at the first lookup, and no more. -/
def pythonOutage : Auth.Outage Jwk 600000000 where
  past := []
  kid := "k1"
  fetch := ⟨1000000000, 1000000000, 1000000000, some [("k1", publishedKey)]⟩
  document := [("k1", publishedKey)]
  refreshes := by decide
  fetched := rfl
  since := [("k2", ⟨1006000000, 1006000000, 1006000000, none⟩)]
  down := by decide

/-- `Warm` fetches the document. -/
def goOutage : Outage where
  past := []
  kid := none
  fetch := ⟨1000000000, 1000000000, 1000000000, some [publishedKey]⟩
  document := [publishedKey]
  refreshes := by decide
  fetched := rfl
  since := [(some "k1", ⟨1700000000, 1700000000, 1700000000, none⟩)]
  down := by decide

/-- Tokens that carry their claims. -/
def plainJose : Auth.Jose Jwk Iam.Claims where
  getUnverifiedHeader _ := some ⟨some "RS256", some "k1"⟩
  decode token _ issuer audience :=
    if token.iss = issuer ∧ token.aud = audience then some token else none

def plainJwt : Jwt Iam.Claims where
  kid _ := "k1"
  parse token _ := some token

theorem publishedKey_parsed : (parseKeys [publishedKey]).get? "k1" = some ⟨65537, 65537⟩ := by
  decide +kernel

/-- Five minutes after the fetch. -/
theorem verification_survives_outage_early :
    PythonSurvives {} plainJose pythonOutage "k1" publishedKey
        ⟨1300000000, 1300000000, 1300000000, none⟩ ∧
      GoSurvives {} plainJwt goOutage "k1" ⟨65537, 65537⟩
        ⟨1300000000, 1300000000, 1300000000, none⟩ :=
  (verification_survives_outage_iff {} plainJose pythonOutage {} plainJwt goOutage rfl
    publishedKey_parsed rfl rfl).mpr (by decide)

/-- Eleven minutes after the fetch. -/
theorem verification_fails_after_ttl :
    ¬ ∀ (verifier : Auth.JWKSVerifier) (jose : Auth.Jose Jwk Iam.Claims)
      (o : Auth.Outage Jwk verifier.ttl) (v : Verifier) (jwt : Jwt Iam.Claims) (p : Outage)
      (kid : String) (key : Jwk) (pub : PublicKey) (x : Reading (List (String × Jwk)))
      (y : Reading (List Jwk)), (Auth.keysByKid o.document).get? kid = some key →
      (parseKeys p.document).get? kid = some pub → x.fetched = none → y.fetched = none →
      PythonSurvives verifier jose o kid key x ∧ GoSurvives v jwt p kid pub y := by
  intro hall
  have hsurvives := (hall {} plainJose pythonOutage {} plainJwt goOutage "k1" publishedKey
    ⟨65537, 65537⟩ ⟨1660000000, 1660000000, 1660000000, none⟩
    ⟨1660000000, 1660000000, 1660000000, none⟩ rfl publishedKey_parsed rfl rfl).1
  have hlate := (pythonSurvives_iff {} plainJose pythonOutage rfl rfl).mp hsurvives
  revert hlate
  decide

end Rto
end Rcp
