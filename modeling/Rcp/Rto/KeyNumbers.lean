/-
The trip of a public key from the identity service (`services/iam/app/core/keys.py`) to the
real-time one (`services/rto/internal/auth/jwks.go`).

The digits of base64 give back the bytes, and the bytes the modulus.  The exponent is put
together in a machine integer, and survives as long as that holds it.
-/
import Rcp.Iam.Keys
import Rcp.Rto.Jwks

namespace Rcp
namespace Rto

/-- What `encoding/json` reads of the entries of a key. -/
def Jwk.ofEntries (entries : Dict String String) : Jwk :=
  { kid := (entries.get? "kid").getD ""
    kty := (entries.get? "kty").getD ""
    n := (entries.get? "n").getD ""
    e := (entries.get? "e").getD "" }

/-! ## The digits -/

theorem base64Digit_urlsafeDigit :
    ∀ d < 64, base64Digit (Iam.urlsafeDigit d) = some d := by decide

theorem urlsafeDigit_not_lineEnd :
    ∀ d < 64, Iam.urlsafeDigit d ≠ '\r' ∧ Iam.urlsafeDigit d ≠ '\n' := by decide

theorem mapM_base64Digit {ds : List Nat} (h : ∀ d ∈ ds, d < 64) :
    (ds.map Iam.urlsafeDigit).mapM base64Digit = some ds := by
  induction ds with
  | nil => rfl
  | cons d rest ih =>
      rw [List.forall_mem_cons] at h
      rw [List.map_cons, List.mapM_cons, base64Digit_urlsafeDigit d h.1, ih h.2]
      rfl

theorem bytesOfDigits_digits {data : List Nat} (h : ∀ b ∈ data, b < 256) :
    bytesOfDigits (Iam.digits data) = some data := by
  induction data using Iam.digits.induct with
  | case1 => rfl
  | case2 x =>
      have hx := h x List.mem_cons_self
      have hbyte : x / 4 * 4 + x % 4 * 16 / 16 = x := by omega
      simp only [Iam.digits, bytesOfDigits, hbyte]
  | case3 x y =>
      simp only [List.forall_mem_cons] at h
      have hfirst : x / 4 * 4 + (x % 4 * 16 + y / 16) / 16 = x := by omega
      have hsecond : (x % 4 * 16 + y / 16) % 16 * 16 + y % 16 * 4 / 4 = y := by omega
      simp only [Iam.digits, bytesOfDigits, hfirst, hsecond]
  | case4 x y z rest ih =>
      simp only [List.forall_mem_cons] at h
      have hfirst : x / 4 * 4 + (x % 4 * 16 + y / 16) / 16 = x := by omega
      have hsecond : (x % 4 * 16 + y / 16) % 16 * 16 + (y % 16 * 4 + z / 64) / 4 = y := by omega
      have hthird : (y % 16 * 4 + z / 64) % 4 * 64 + z % 64 = z := by omega
      simp only [Iam.digits, bytesOfDigits, ih h.2.2.2, Option.map_some, hfirst, hsecond, hthird]

/-- Go decodes what Python has encoded. -/
theorem decodeString_b64url {data : List Nat} (h : ∀ b ∈ data, b < 256) :
    decodeString (Iam.b64url data) = some data := by
  have hdigits := Iam.digits_lt h
  have hkept : ((Iam.digits data).map Iam.urlsafeDigit).filter
      (fun c => c ≠ '\r' ∧ c ≠ '\n') = (Iam.digits data).map Iam.urlsafeDigit := by
    rw [List.filter_eq_self]
    intro c hc
    obtain ⟨d, hd, rfl⟩ := List.mem_map.mp hc
    exact decide_eq_true (urlsafeDigit_not_lineEnd d (hdigits d hd))
  unfold decodeString
  rw [Iam.b64url_toList h, hkept, mapM_base64Digit hdigits]
  exact bytesOfDigits_digits h

/-! ## The numbers -/

theorem setBytes_snoc (bytes : List Nat) (b : Nat) :
    setBytes (bytes ++ [b]) = setBytes bytes * 256 + b := by
  simp [setBytes]

theorem setBytes_bigEndian {length value : Nat} (h : value < 256 ^ length) :
    setBytes (Iam.bigEndian length value) = value := by
  induction length generalizing value with
  | zero =>
      have hzero : value = 0 := by simpa using h
      rw [hzero]
      rfl
  | succ length ih =>
      have hrest : value / 256 < 256 ^ length := by
        rw [Nat.pow_succ] at h
        exact Nat.div_lt_of_lt_mul (by rwa [Nat.mul_comm] at h)
      show setBytes (Iam.bigEndian length (value / 256) ++ [value % 256]) = value
      rw [setBytes_snoc, ih hrest]
      omega

/-- `e<<8 | int(b)`. -/
theorem shift_or (e : BitVec 64) {b : Nat} (h : b < 256) :
    (e <<< 8 ||| BitVec.ofNat 64 b).toNat = (e.toNat * 256 + b) % 2 ^ 64 := by
  have hor : e.toNat <<< 8 ||| b = e.toNat * 256 + b := by
    rw [← Nat.shiftLeft_add_eq_or_of_lt h, Nat.shiftLeft_eq]
  rw [BitVec.toNat_or, BitVec.toNat_shiftLeft, BitVec.toNat_ofNat, ← Nat.or_mod_two_pow, hor]

/-- The loop computes the number of the bytes, on 64 bits. -/
theorem exponent_toNat {bytes : List Nat} (h : ∀ b ∈ bytes, b < 256) (e : BitVec 64) (m : Nat)
    (hem : e.toNat = m % 2 ^ 64) :
    (bytes.foldl (fun (e : BitVec 64) b => e <<< 8 ||| BitVec.ofNat 64 b) e).toNat =
      bytes.foldl (fun n b => n * 256 + b) m % 2 ^ 64 := by
  induction bytes generalizing e m with
  | nil => exact hem
  | cons b rest ih =>
      rw [List.forall_mem_cons] at h
      rw [List.foldl_cons, List.foldl_cons]
      apply ih h.2
      rw [shift_or e h.1, hem]
      omega

theorem exponent_eq {bytes : List Nat} (h : ∀ b ∈ bytes, b < 256) :
    exponent bytes = (setBytes bytes : Int).bmod (2 ^ 64) := by
  have hloop := exponent_toNat h 0 0 rfl
  unfold exponent
  rw [BitVec.toInt_eq_toNat_bmod, hloop]
  show ((setBytes bytes % 2 ^ 64 : Nat) : Int).bmod (2 ^ 64) = _
  rw [Int.natCast_mod]
  exact Int.emod_bmod _ _

/-! ## The key -/

theorem ofEntries_jwk (kid n e : String) :
    Jwk.ofEntries [("kty", "RSA"), ("use", "sig"), ("alg", "RS256"), ("kid", kid), ("n", n),
      ("e", e)] = { kid := kid, kty := "RSA", n := n, e := e } := rfl

theorem parseRSA_ok {kid kty n e : String} {nb eb : List Nat} (hn : decodeString n = some nb)
    (he : decodeString e = some eb) :
    parseRSA ⟨kid, kty, n, e⟩ = some { n := setBytes nb, e := exponent eb } := by
  unfold parseRSA
  rw [hn, he]
  rfl

/-- Python writes every key, and Go reads its numbers: the modulus as it is, and the exponent
as the machine integer holds it. -/
theorem parseRSA_jwk (kid : String) (n e : Nat) :
    ∃ entries, Iam.jwk kid n e = some entries ∧
      (Jwk.ofEntries entries).kid = kid ∧ (Jwk.ofEntries entries).kty = "RSA" ∧
      parseRSA (Jwk.ofEntries entries) = some { n := n, e := (e : Int).bmod (2 ^ 64) } := by
  have hdecode : ∀ value, decodeString (Iam.b64url (Iam.bytesOf value)) =
      some (Iam.bytesOf value) := fun value => decodeString_b64url fun _ => Iam.bytesOf_lt
  have hnumber : ∀ value, setBytes (Iam.bytesOf value) = value :=
    fun value => setBytes_bigEndian (Iam.lt_pow_length value)
  have hexponent : exponent (Iam.bytesOf e) = (e : Int).bmod (2 ^ 64) := by
    rw [exponent_eq fun _ => Iam.bytesOf_lt, hnumber e]
  refine ⟨_, Iam.jwk_eq kid n e, ?_⟩
  rw [ofEntries_jwk]
  refine ⟨rfl, rfl, ?_⟩
  rw [parseRSA_ok (hdecode n) (hdecode e), hnumber n, hexponent]

/-- The verifier that has fetched the document finds the key under its id. -/
theorem parseKeys_jwk (kid : String) (n e : Nat) :
    ∃ entries, Iam.jwk kid n e = some entries ∧
      (parseKeys [Jwk.ofEntries entries]).get? kid =
        some { n := n, e := (e : Int).bmod (2 ^ 64) } := by
  obtain ⟨entries, hentries, hkid, hkty, hkey⟩ := parseRSA_jwk kid n e
  refine ⟨entries, hentries, ?_⟩
  unfold parseKeys
  rw [List.foldl_cons, if_neg (not_not.mpr hkty), hkey, hkid]
  show (if kid = kid then _ else _) = _
  rw [if_pos rfl]

/-- An exponent that a signed machine integer holds survives the trip, as every modulus does. -/
theorem key_numbers_survive (kid : String) (n e : Nat) (h : e < 2 ^ 63) :
    ∃ entries, Iam.jwk kid n e = some entries ∧
      parseRSA (Jwk.ofEntries entries) = some { n := n, e := e } := by
  obtain ⟨entries, hentries, -, -, hkey⟩ := parseRSA_jwk kid n e
  refine ⟨entries, hentries, ?_⟩
  rw [hkey, Int.bmod_eq_of_le (by omega) (by omega)]

theorem key_numbers_survive_f4 : 65537 < 2 ^ 63 ∧
    ∃ entries, Iam.jwk "k1" 3233 65537 = some entries ∧
      parseRSA (Jwk.ofEntries entries) = some { n := 3233, e := 65537 } :=
  ⟨by decide, key_numbers_survive "k1" 3233 65537 (by decide)⟩

end Rto
end Rcp
