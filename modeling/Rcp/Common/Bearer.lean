/-
Bearer tokens as they come (`packages/common/rcp_common/auth.py`).

Before its signature is checked, the header of a token is any JSON object, and the document of
the identity service is any JSON value.  Here `verify` runs on these values, with the exception
that each Python operation raises on a value of the wrong type.  `python-jose` and `uuid.UUID`
of a text are parameters.
-/
import Rcp.Common.Auth

namespace Rcp
namespace Bearer

/-! ## Exceptions and operations of Python -/

inductive PyException
  | jwtError
  | keyError
  | valueError
  /-- `httpx.HTTPError`. -/
  | httpError
  | authError
  | typeError
  | attributeError
  deriving DecidableEq

/-- `hash(x)` is defined. -/
def hashable : Json → Bool
  | .null | .bool _ | .int _ | .float _ | .str _ => true
  | .arr _ | .obj _ => false

/-- `bool(x)`. -/
def isTrue : Json → Bool
  | .null => false
  | .bool b => b
  | .int n => n != 0
  | .float x => x != .finite 0
  | .str s => s != ""
  | .arr xs => !xs.isEmpty
  | .obj entries => !entries.isEmpty

/-- `x[name]`. -/
def subscript (name : String) : Json → Except PyException Json
  | .obj entries =>
      match Dict.get? entries name with
      | some value => .ok value
      | none => .error .keyError
  | .null | .bool _ | .int _ | .float _ | .str _ | .arr _ => .error .typeError

/-- `iter(x)`. -/
def iterate : Json → Except PyException (List Json)
  | .arr xs => .ok xs
  | .str s => .ok (s.toList.map fun c => .str (String.singleton c))
  | .obj entries => .ok (entries.map fun entry => .str entry.1)
  | .null | .bool _ | .int _ | .float _ => .error .typeError

/-! ## The cache of the keys -/

/-- `_keys`, whose keys are hashable values. -/
abbrev Keys := List (Json × Json)

/-- `keys[kid] = key`. -/
def Keys.set : Keys → Json → Json → Keys
  | [], kid, key => [(kid, key)]
  | (kid', key') :: rest, kid, key =>
      if kid'.pyEq kid then (kid', key) :: rest else (kid', key') :: Keys.set rest kid key

/-- `keys.get(kid)`. -/
def Keys.get (keys : Keys) (kid : Json) : Except PyException (Option Json) :=
  if hashable kid then .ok ((keys.find? fun entry => entry.1.pyEq kid).map Prod.snd)
  else .error .typeError

/-- `{k["kid"]: k for k in items}`. -/
def keysByKid : List Json → Keys → Except PyException Keys
  | [], keys => .ok keys
  | k :: rest, keys => do
      let kid ← subscript "kid" k
      if hashable kid then keysByKid rest (keys.set kid k) else .error .typeError

/-- The keys of a document. -/
def keysOf (document : Json) : Except PyException Keys := do
  let keys ← subscript "keys" document
  let items ← iterate keys
  keysByKid items []

structure JWKSCache where
  keys : Keys := []
  fetchedAt : Time := 0

/-- What a lookup takes from outside.  A fetch raises an `HTTPError`, or gets a body that is
not JSON, or a document. -/
abbrev Answer := Reading (Option Json)

namespace JWKSCache

/-- `_fetch`. -/
def fetch (x : Answer) : Except PyException JWKSCache :=
  match x.fetched with
  | none => .error .httpError
  | some none => .error .valueError
  | some (some document) => do
      let keys ← keysOf document
      return { keys := keys, fetchedAt := x.done }

def fetchAndGet (cache : JWKSCache) (kid : Json) (x : Answer) :
    Except PyException (Option Json) × JWKSCache :=
  match fetch x with
  | .error e => (.error e, cache)
  | .ok fresh => (fresh.keys.get kid, fresh)

def stale (ttl : Time) (cache : JWKSCache) (now : Time) : Bool := now - cache.fetchedAt > ttl

def getKey (ttl : Time) (cache : JWKSCache) (kid : Json) (x : Answer) :
    Except PyException (Option Json) × JWKSCache :=
  if cache.stale ttl x.now then cache.fetchAndGet kid x
  else
    match cache.keys.get kid with
    | .error e => (.error e, cache)
    | .ok (some key) => (.ok (some key), cache)
    | .ok none =>
        if x.again - cache.fetchedAt > Auth.unknownKidInterval then cache.fetchAndGet kid x
        else (.ok none, cache)

end JWKSCache

/-! ## Verification -/

/-- The code outside: `get_unverified_header` and `decode` may raise a `JWTError`, and
`uuid.UUID` of a text a `ValueError`. -/
structure Library where
  getUnverifiedHeader : String → Option Object
  decode : (token : String) → (key : Json) → (issuer audience : String) → Option Object
  uuid : String → Option Uuid

/-- The claims that `decode` returns have a text for `sub`. -/
def Library.TextSub (lib : Library) : Prop :=
  ∀ token key issuer audience claims, lib.decode token key issuer audience = some claims →
    ∃ s, claims.get? "sub" = some (.str s)

structure Principal where
  userId : Uuid
  tenantId : Option Uuid
  userType : Option Json
  roles : List Json

section Verify

variable (lib : Library)

/-- `uuid.UUID(x)`. -/
def readUuid : Json → Except PyException Uuid
  | .str s =>
      match lib.uuid s with
      | some id => .ok id
      | none => .error .valueError
  | .null => .error .typeError
  | .bool _ | .int _ | .float _ | .arr _ | .obj _ => .error .attributeError

/-- `uuid.UUID(raw_tenant) if raw_tenant else None`. -/
def readTenant : Option Json → Except PyException (Option Uuid)
  | none => .ok none
  | some raw =>
      if isTrue raw then do
        let id ← readUuid lib raw
        return some id
      else .ok none

/-- `tuple(claims.get("roles", []))`. -/
def readRoles (claims : Object) : Except PyException (List Json) :=
  iterate ((claims.get? "roles").getD (.arr []))

def readPrincipal (claims : Object) : Except PyException Principal := do
  let sub ← subscript "sub" (.obj claims)
  let userId ← readUuid lib sub
  let tenantId ← readTenant lib (claims.get? "tenant_id")
  let roles ← readRoles claims
  return { userId := userId, tenantId := tenantId, userType := claims.get? "user_type",
           roles := roles }

/-- `header.get("alg") != "RS256"` is false. -/
def allowed : Option Json → Bool
  | some (.str alg) => alg == "RS256"
  | some _ | none => false

def kidOf (header : Object) : Json := (header.get? "kid").getD (.str "")

/-- The body of the `try`. -/
def resolve (verifier : Auth.JWKSVerifier) (cache : JWKSCache) (token : String) (x : Answer) :
    Except PyException Principal × JWKSCache :=
  match lib.getUnverifiedHeader token with
  | none => (.error .jwtError, cache)
  | some header =>
      if allowed (header.get? "alg") then
        match cache.getKey verifier.ttl (kidOf header) x with
        | (.error e, cache) => (.error e, cache)
        | (.ok none, cache) => (.error .authError, cache)
        | (.ok (some key), cache) =>
            match lib.decode token key verifier.issuer verifier.audience with
            | none => (.error .jwtError, cache)
            | some claims => (readPrincipal lib claims, cache)
      else (.error .authError, cache)

/-- `except (JWTError, KeyError, ValueError, httpx.HTTPError)`. -/
def PyException.caught : PyException → Bool
  | jwtError | keyError | valueError | httpError => true
  | authError | typeError | attributeError => false

def handle {α : Type} : Except PyException α → Except PyException α
  | .ok a => .ok a
  | .error e => if e.caught then .error .authError else .error e

def verify (verifier : Auth.JWKSVerifier) (cache : JWKSCache) (token : String) (x : Answer) :
    Except PyException Principal × JWKSCache :=
  let result := resolve lib verifier cache token x
  (handle result.1, result.2)

/-- What a request gets from its dependency. -/
inductive Resolved
  | principal (p : Principal)
  /-- `HTTPException(401)`. -/
  | unauthorized (detail : String)
  | raised (e : PyException)

/-- `PrincipalDependency`. -/
def principalDependency (verifier : Auth.JWKSVerifier) (cache : JWKSCache)
    (credentials : Option String) (x : Answer) : Resolved :=
  match credentials with
  | none => .unauthorized "Missing bearer token"
  | some token =>
      match (verify lib verifier cache token x).1 with
      | .ok p => .principal p
      | .error .authError => .unauthorized "Invalid token"
      | .error e => .raised e

end Verify

/-! ## What raises what -/

/-- Only exceptions that `verify` turns into an `AuthError`, or that are one. -/
def Tame {α : Type} (r : Except PyException α) : Prop :=
  ∀ e, r = .error e → e.caught = true ∨ e = .authError

section Tame

variable {α β : Type}

@[simp] theorem tame_ok (a : α) : Tame (.ok a : Except PyException α) := by
  intro e h
  cases h

@[simp] theorem tame_error {e : PyException} :
    Tame (.error e : Except PyException α) ↔ e.caught = true ∨ e = .authError := by
  constructor
  · intro h
    exact h e rfl
  · intro h e' he'
    cases he'
    exact h

theorem tame_bind {x : Except PyException α} {f : α → Except PyException β} :
    Tame (x >>= f) ↔ Tame x ∧ ∀ a, x = .ok a → Tame (f a) := by
  cases x with
  | ok a =>
      show Tame (f a) ↔ _
      simp
  | error e =>
      show Tame (.error e : Except PyException β) ↔ _
      simp

theorem handle_clean_iff {r : Except PyException α} :
    (∀ e, handle r = .error e → e = .authError) ↔ Tame r := by
  cases r with
  | ok a => exact iff_of_true (fun e h => by cases h) (tame_ok a)
  | error e => cases e <;> simp [handle, PyException.caught]

end Tame

/-! ## Values of the right shape -/

/-- The element of a document has a `kid` that can be a key. -/
def hasKid : Json → Bool
  | .obj entries =>
      match Dict.get? entries "kid" with
      | some kid => hashable kid
      | none => false
  | .null | .bool _ | .int _ | .float _ | .str _ | .arr _ => false

/-- The element is an object without a `kid`. -/
def lacksKid : Json → Bool
  | .obj entries => (Dict.get? entries "kid").isNone
  | .null | .bool _ | .int _ | .float _ | .str _ | .arr _ => false

/-- The first element without a usable `kid`, if there is one, is an object that lacks it. -/
def ItemsFit (items : List Json) : Prop :=
  ∀ item ∈ items.find? (!hasKid ·), lacksKid item = true

/-- The document is an object, and its `keys` are a list that fits, or an empty text or
object, or missing. -/
def DocumentFits : Json → Prop
  | .obj entries =>
      match Dict.get? entries "keys" with
      | none => True
      | some (.arr items) => ItemsFit items
      | some (.str s) => s = ""
      | some (.obj others) => others = []
      | some .null | some (.bool _) | some (.int _) | some (.float _) => False
  | .null | .bool _ | .int _ | .float _ | .str _ | .arr _ => False

theorem keysByKid_tame_iff (items : List Json) (keys : Keys) :
    Tame (keysByKid items keys) ↔ ItemsFit items := by
  induction items generalizing keys with
  | nil => exact iff_of_true (tame_ok keys) fun item h => by cases h
  | cons item rest ih =>
      cases item with
      | obj entries =>
          cases hkid : Dict.get? entries "kid" with
          | none =>
              have hraise : keysByKid (.obj entries :: rest) keys = .error .keyError := by
                simp only [keysByKid, subscript, hkid]
                rfl
              rw [hraise]
              simp [ItemsFit, hasKid, lacksKid, hkid, PyException.caught]
          | some kid =>
              cases hhash : hashable kid with
              | true =>
                  have hnext : keysByKid (.obj entries :: rest) keys =
                      keysByKid rest (keys.set kid (.obj entries)) := by
                    simp only [keysByKid, subscript, hkid]
                    exact if_pos hhash
                  rw [hnext, ih]
                  simp [ItemsFit, hasKid, hkid, hhash]
              | false =>
                  have hraise : keysByKid (.obj entries :: rest) keys = .error .typeError := by
                    simp only [keysByKid, subscript, hkid]
                    exact if_neg (Bool.eq_false_iff.mp hhash)
                  rw [hraise]
                  simp [ItemsFit, hasKid, lacksKid, hkid, hhash, PyException.caught]
      | null | bool | int | float | str | arr =>
          refine iff_of_false (fun h => ?_) fun h => ?_
          · exact absurd (h .typeError rfl) (by decide)
          · exact absurd (h _ rfl) (by simp [lacksKid])

theorem itemsFit_texts {α : Type} (f : α → String) (l : List α) :
    ItemsFit (l.map fun a => .str (f a)) ↔ l = [] := by
  cases l with
  | nil => exact iff_of_true (fun item h => by cases h) rfl
  | cons a rest => simp [ItemsFit, hasKid, lacksKid]

theorem keysOf_tame_iff (document : Json) : Tame (keysOf document) ↔ DocumentFits document := by
  cases document with
  | obj entries =>
      cases hkeys : Dict.get? entries "keys" with
      | none =>
          have hraise : keysOf (.obj entries) = .error .keyError := by
            simp only [keysOf, subscript, hkeys]
            rfl
          rw [hraise]
          simp [DocumentFits, hkeys, PyException.caught]
      | some keys =>
          have hrest : keysOf (.obj entries) = iterate keys >>= fun items =>
              keysByKid items [] := by
            simp only [keysOf, subscript, hkeys]
            rfl
          rw [hrest, tame_bind]
          simp only [DocumentFits, hkeys]
          cases keys with
          | arr items => simp [iterate, keysByKid_tame_iff]
          | str s =>
              simp only [iterate, tame_ok, Except.ok.injEq, true_and, forall_eq',
                keysByKid_tame_iff, itemsFit_texts]
              simp
          | obj others =>
              simp only [iterate, tame_ok, Except.ok.injEq, true_and, forall_eq',
                keysByKid_tame_iff, itemsFit_texts]
          | null | bool | int | float => simp [iterate, PyException.caught]
  | null | bool | int | float | str | arr =>
      refine iff_of_false (fun h => ?_) fun h => h
      exact absurd (h .typeError rfl) (by decide)

/-! ## Claims of the right shape -/

def iterable : Json → Bool
  | .arr _ | .str _ | .obj _ => true
  | .null | .bool _ | .int _ | .float _ => false

/-- The claims name a tenant by a text, if they name one. -/
def TenantFits (claims : Object) : Prop :=
  ∀ raw, claims.get? "tenant_id" = some raw → isTrue raw = true → ∃ s, raw = .str s

/-- The tenant is a UUID, if it is a text. -/
def TenantReads (lib : Library) (claims : Object) : Prop :=
  ∀ s, claims.get? "tenant_id" = some (.str s) → s ≠ "" → (lib.uuid s).isSome

def RolesFit (claims : Object) : Prop :=
  ∀ roles, claims.get? "roles" = some roles → iterable roles = true

/-- Where the user is a UUID, the tenant is a text if there is one, and where this is a UUID
too, the roles are a list, a text, an object or missing. -/
def ClaimsFit (lib : Library) (claims : Object) : Prop :=
  ∀ s, claims.get? "sub" = some (.str s) → (lib.uuid s).isSome →
    TenantFits claims ∧ (TenantReads lib claims → RolesFit claims)

section Claims

variable (lib : Library) (claims : Object)

theorem readRoles_tame_iff : Tame (readRoles claims) ↔ RolesFit claims := by
  unfold readRoles RolesFit
  cases claims.get? "roles" with
  | none => simp [iterate]
  | some roles => cases roles <;> simp [iterate, iterable, PyException.caught]

theorem readTenant_tame_iff :
    Tame (readTenant lib (claims.get? "tenant_id")) ↔ TenantFits claims := by
  unfold TenantFits
  cases claims.get? "tenant_id" with
  | none => simp [readTenant]
  | some raw =>
      cases htrue : isTrue raw with
      | false => simp [readTenant, htrue]
      | true =>
          have hread : readTenant lib (some raw) = readUuid lib raw >>= fun id =>
              pure (some id) := if_pos htrue
          rw [hread, tame_bind]
          cases raw with
          | str s =>
              cases hid : lib.uuid s with
              | none => simp [readUuid, hid, PyException.caught]
              | some id => simp [readUuid, hid, pure, Except.pure]
          | null => cases htrue
          | bool | int | float | arr | obj => simp [readUuid, htrue, PyException.caught]

theorem readTenant_ok_iff (hfits : TenantFits claims) :
    (∃ tenant, readTenant lib (claims.get? "tenant_id") = .ok tenant) ↔
      TenantReads lib claims := by
  unfold TenantFits at hfits
  unfold TenantReads
  cases hraw : claims.get? "tenant_id" with
  | none => simp [readTenant]
  | some raw =>
      cases htrue : isTrue raw with
      | false =>
          refine iff_of_true ⟨none, ?_⟩ fun s hs hne => ?_
          · simp [readTenant, htrue]
          · cases hs
            exact absurd htrue (by simpa [isTrue] using hne)
      | true =>
          obtain ⟨s, rfl⟩ := hfits raw hraw htrue
          have hne : s ≠ "" := by simpa [isTrue] using htrue
          have hread : readTenant lib (some (.str s)) = readUuid lib (.str s) >>= fun id =>
              pure (some id) := if_pos htrue
          rw [hread]
          cases hid : lib.uuid s with
          | none => simp [readUuid, hid, bind, Except.bind, hne]
          | some id => simp [readUuid, hid, bind, Except.bind, pure, Except.pure]

theorem readPrincipal_tame_iff {s : String} (hsub : claims.get? "sub" = some (.str s)) :
    Tame (readPrincipal lib claims) ↔ ClaimsFit lib claims := by
  have hfit : ClaimsFit lib claims ↔ ((lib.uuid s).isSome →
      TenantFits claims ∧ (TenantReads lib claims → RolesFit claims)) := by
    unfold ClaimsFit
    rw [hsub]
    simp
  have hread : readPrincipal lib claims = readUuid lib (.str s) >>= fun userId =>
      readTenant lib (claims.get? "tenant_id") >>= fun tenantId =>
        readRoles claims >>= fun roles =>
          pure { userId := userId, tenantId := tenantId, userType := claims.get? "user_type",
                 roles := roles } := by
    simp only [readPrincipal, subscript, hsub]
    rfl
  rw [hfit, hread]
  cases hid : lib.uuid s with
  | none => simp [readUuid, hid, tame_bind, PyException.caught]
  | some id =>
      have hrest : Tame (readUuid lib (.str s) >>= fun userId =>
          readTenant lib (claims.get? "tenant_id") >>= fun tenantId =>
            readRoles claims >>= fun roles =>
              (pure { userId := userId, tenantId := tenantId,
                      userType := claims.get? "user_type", roles := roles } :
                Except PyException Principal)) ↔
          Tame (readTenant lib (claims.get? "tenant_id")) ∧
            ((∃ tenant, readTenant lib (claims.get? "tenant_id") = .ok tenant) →
              Tame (readRoles claims)) := by
        simp [readUuid, hid, tame_bind, pure, Except.pure]
      rw [hrest, readTenant_tame_iff, readRoles_tame_iff]
      simp only [Option.isSome_some, true_implies]
      refine and_congr_right fun hfits => ?_
      rw [readTenant_ok_iff lib claims hfits]

end Claims

/-! ## Tokens that are answered cleanly -/

section Clean

variable (lib : Library) (verifier : Auth.JWKSVerifier) (cache : JWKSCache) (x : Answer)

/-- The lookup of a `kid` fetches the document. -/
def Fetches (ttl : Time) (kid : Json) : Prop :=
  cache.stale ttl x.now = true ∨ (cache.keys.get kid = .ok none ∧
    x.again - cache.fetchedAt > Auth.unknownKidInterval)

/-- The document brings these keys. -/
def Brings (keys : Keys) : Prop :=
  ∃ document, x.fetched = some (some document) ∧ keysOf document = .ok keys

/-- The key of the `kid`: that of the document if it is fetched, and else that of the
cache. -/
def KeyOf (ttl : Time) (kid key : Json) : Prop :=
  (Fetches cache x ttl kid ∧ ∃ keys, Brings x keys ∧ keys.get kid = .ok (some key)) ∨
    (¬ Fetches cache x ttl kid ∧ cache.keys.get kid = .ok (some key))

/-- A token with an allowed algorithm meets no value of a shape that `verify` is not ready
for: not the `kid` of its header, unless a stale cache gets no keys, not the document, if it
is fetched, and not its own claims. -/
def Fits (token : String) : Prop :=
  ∀ header, lib.getUnverifiedHeader token = some header →
    allowed (header.get? "alg") = true →
    (Fetches cache x verifier.ttl (kidOf header) →
      ∀ document, x.fetched = some (some document) → DocumentFits document) ∧
    (hashable (kidOf header) = true ∨
      (cache.stale verifier.ttl x.now = true ∧ ∀ keys, ¬ Brings x keys)) ∧
    ∀ key claims, KeyOf cache x verifier.ttl (kidOf header) key →
      lib.decode token key verifier.issuer verifier.audience = some claims →
      ClaimsFit lib claims

variable {cache x} {ttl : Time} {kid : Json}

theorem get_of_unhashable (h : hashable kid = false) (keys : Keys) :
    keys.get kid = .error .typeError := if_neg (Bool.eq_false_iff.mp h)

theorem get_tame_iff (keys : Keys) : Tame (keys.get kid) ↔ hashable kid = true := by
  unfold Keys.get
  cases h : hashable kid with
  | true => simp
  | false => simp [PyException.caught]

theorem fetch_tame_iff : Tame (JWKSCache.fetch x) ↔
    ∀ document, x.fetched = some (some document) → DocumentFits document := by
  unfold JWKSCache.fetch
  cases x.fetched with
  | none => simp [PyException.caught]
  | some answer =>
      cases answer with
      | none => simp [PyException.caught]
      | some document => simp [tame_bind, keysOf_tame_iff, pure, Except.pure]

theorem fetch_ok_iff {fresh : JWKSCache} : JWKSCache.fetch x = .ok fresh ↔
    ∃ keys, Brings x keys ∧ fresh = { keys := keys, fetchedAt := x.done } := by
  unfold JWKSCache.fetch Brings
  cases x.fetched with
  | none => simp
  | some answer =>
      cases answer with
      | none => simp
      | some document =>
          simp only [bind_ok, pure, Except.pure, Except.ok.injEq, Option.some.injEq,
            exists_eq_left', @eq_comm JWKSCache _ fresh]

theorem fetchAndGet_tame_iff : Tame (cache.fetchAndGet kid x).1 ↔
    (∀ document, x.fetched = some (some document) → DocumentFits document) ∧
      (hashable kid = true ∨ ∀ keys, ¬ Brings x keys) := by
  rw [← fetch_tame_iff]
  unfold JWKSCache.fetchAndGet
  cases hfetch : JWKSCache.fetch x with
  | error e =>
      have hnone : ∀ keys, ¬ Brings x keys := by
        intro keys hkeys
        rw [fetch_ok_iff.mpr ⟨keys, hkeys, rfl⟩] at hfetch
        cases hfetch
      simp [hnone]
  | ok fresh =>
      obtain ⟨keys, hkeys, rfl⟩ := fetch_ok_iff.mp hfetch
      have hsome : ¬ ∀ keys, ¬ Brings x keys := fun h => h keys hkeys
      simp [get_tame_iff, hsome]

theorem brings_unique {keys keys' : Keys} (h : Brings x keys) (h' : Brings x keys') :
    keys = keys' := by
  obtain ⟨document, hfetched, hkeys⟩ := h
  obtain ⟨document', hfetched', hkeys'⟩ := h'
  rw [hfetched] at hfetched'
  cases hfetched'
  rw [hkeys] at hkeys'
  exact Except.ok.inj hkeys'

theorem fetchAndGet_some_iff {key : Json} : (cache.fetchAndGet kid x).1 = .ok (some key) ↔
    ∃ keys, Brings x keys ∧ keys.get kid = .ok (some key) := by
  unfold JWKSCache.fetchAndGet
  cases hfetch : JWKSCache.fetch x with
  | error e =>
      refine iff_of_false (fun h => by cases h) ?_
      rintro ⟨keys, hkeys, -⟩
      rw [fetch_ok_iff.mpr ⟨keys, hkeys, rfl⟩] at hfetch
      cases hfetch
  | ok fresh =>
      obtain ⟨keys, hkeys, rfl⟩ := fetch_ok_iff.mp hfetch
      constructor
      · intro h
        exact ⟨keys, hkeys, h⟩
      · rintro ⟨keys', hkeys', h⟩
        rw [brings_unique hkeys' hkeys] at h
        exact h

/-- What a lookup does, by whether it fetches. -/
theorem getKey_cases (ttl : Time) (cache : JWKSCache) (kid : Json) (x : Answer) :
    (Fetches cache x ttl kid ∧ (cache.getKey ttl kid x).1 = (cache.fetchAndGet kid x).1 ∧
      (hashable kid = false → cache.stale ttl x.now = true)) ∨
    (¬ Fetches cache x ttl kid ∧ (cache.getKey ttl kid x).1 = cache.keys.get kid ∧
      cache.stale ttl x.now = false) := by
  unfold Fetches JWKSCache.getKey
  cases hstale : cache.stale ttl x.now with
  | true => simp
  | false =>
      cases hget : cache.keys.get kid with
      | error e => simp
      | ok found =>
          cases found with
          | some key => simp
          | none =>
              have hhash : hashable kid = true := by
                by_contra hnot
                rw [get_of_unhashable (Bool.eq_false_iff.mpr hnot)] at hget
                cases hget
              by_cases hagain : x.again - cache.fetchedAt > Auth.unknownKidInterval
              · simp [hagain, hhash]
              · simp [hagain]

theorem getKey_tame_iff : Tame (cache.getKey ttl kid x).1 ↔
    (Fetches cache x ttl kid →
      ∀ document, x.fetched = some (some document) → DocumentFits document) ∧
    (hashable kid = true ∨
      (cache.stale ttl x.now = true ∧ ∀ keys, ¬ Brings x keys)) := by
  rcases getKey_cases ttl cache kid x with ⟨hfetches, hget, hstale⟩ | ⟨hnot, hget, hfresh⟩
  · rw [hget, fetchAndGet_tame_iff]
    simp only [hfetches, true_implies]
    refine and_congr_right fun _ => ?_
    cases hhash : hashable kid with
    | true => simp
    | false => simp [hstale hhash]
  · rw [hget, get_tame_iff]
    simp [hnot, hfresh]

theorem getKey_some_iff {key : Json} :
    (cache.getKey ttl kid x).1 = .ok (some key) ↔ KeyOf cache x ttl kid key := by
  unfold KeyOf
  rcases getKey_cases ttl cache kid x with ⟨hfetches, hget, -⟩ | ⟨hnot, hget, -⟩
  · rw [hget, fetchAndGet_some_iff]
    simp [hfetches]
  · rw [hget]
    simp [hnot]

variable (cache x)

theorem resolve_tame_iff (hsub : lib.TextSub) (token : String) :
    Tame (resolve lib verifier cache token x).1 ↔ Fits lib verifier cache x token := by
  unfold resolve Fits
  cases hheader : lib.getUnverifiedHeader token with
  | none => simp [PyException.caught]
  | some header =>
      cases hallowed : allowed (header.get? "alg") with
      | false => simp [hallowed]
      | true =>
          simp only [Option.some.injEq, forall_eq', hallowed, if_true, true_implies]
          rw [← and_assoc, ← getKey_tame_iff]
          simp only [← getKey_some_iff]
          generalize cache.getKey verifier.ttl (kidOf header) x = result
          obtain ⟨found, after⟩ := result
          cases found with
          | error e => simp
          | ok found =>
              cases found with
              | none => simp
              | some key =>
                  simp only [Except.ok.injEq, Option.some.injEq, tame_ok, true_and]
                  cases hdecode : lib.decode token key verifier.issuer verifier.audience with
                  | none =>
                      refine iff_of_true (tame_error.mpr (.inl rfl)) ?_
                      rintro key' claims rfl hclaims
                      rw [hdecode] at hclaims
                      cases hclaims
                  | some claims =>
                      obtain ⟨s, hs⟩ := hsub _ _ _ _ _ hdecode
                      simp only [readPrincipal_tame_iff lib claims hs]
                      constructor
                      · rintro hfit key' claims' rfl hclaims'
                        rw [hdecode] at hclaims'
                        cases hclaims'
                        exact hfit
                      · intro hfit
                        exact hfit key claims rfl hdecode

/-- A token is answered cleanly exactly if it meets no value of the wrong shape: `verify`
then returns a principal or raises an `AuthError`, and the dependency answers with a
principal or a 401. -/
theorem verify_clean_iff (hsub : lib.TextSub) (token : String) :
    ((∀ e, (verify lib verifier cache token x).1 = .error e → e = .authError) ↔
      Fits lib verifier cache x token) ∧
    ((∀ e, principalDependency lib verifier cache (some token) x ≠ .raised e) ↔
      Fits lib verifier cache x token) := by
  have hclean : (∀ e, (verify lib verifier cache token x).1 = .error e → e = .authError) ↔
      Fits lib verifier cache x token := by
    rw [← resolve_tame_iff lib verifier cache x hsub]
    exact handle_clean_iff
  refine ⟨hclean, ?_⟩
  rw [← hclean]
  simp only [principalDependency]
  generalize (verify lib verifier cache token x).1 = result
  cases result with
  | ok p => simp
  | error e => cases e <;> simp

end Clean

/-- A library whose tokens all have this header. -/
def headed (kid : Json) : Library where
  getUnverifiedHeader _ := some [("alg", .str "RS256"), ("kid", kid)]
  decode _ _ _ _ := none
  uuid _ := none

theorem headed_textSub (kid : Json) : (headed kid).TextSub := by
  intro token key issuer audience claims h
  cases h

/-- The identity service is down. -/
def noAnswer : Answer := ⟨1000000, 1000000, 1000000, none⟩

theorem verify_clean_named :
    ((∀ e, (verify (headed (.str "k1")) {} {} "token" noAnswer).1 = .error e →
        e = .authError) ↔ Fits (headed (.str "k1")) {} {} noAnswer "token") ∧
    ((∀ e, principalDependency (headed (.str "k1")) {} {} (some "token") noAnswer ≠ .raised e) ↔
      Fits (headed (.str "k1")) {} {} noAnswer "token") :=
  verify_clean_iff (headed (.str "k1")) {} {} noAnswer (headed_textSub _) "token"

/-- The `kid` of the header is a list. -/
theorem verify_raises_typeError : ¬ ∀ (lib : Library) (verifier : Auth.JWKSVerifier)
    (cache : JWKSCache) (x : Answer) (token : String), lib.TextSub →
    ∀ e, (verify lib verifier cache token x).1 = .error e → e = .authError := by
  intro hclaim
  have hraised : (verify (headed (.arr [])) {} {} "token" noAnswer).1 = .error .typeError := rfl
  have hclean := hclaim _ {} {} noAnswer "token" (headed_textSub (.arr [])) _ hraised
  cases hclean

end Bearer
end Rcp
