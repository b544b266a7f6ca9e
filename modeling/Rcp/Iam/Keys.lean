/-
The public key as the identity service writes it (`services/iam/app/core/keys.py`).

A number goes into as few bytes as hold it, the highest first.  Three bytes make four digits
of base64, and the padding of the last ones is stripped.
-/
import Mathlib.Algebra.Order.Ring.Nat
import Mathlib.Data.List.DropRight
import Rcp.Common.Python

namespace Rcp
namespace Iam

/-! ## `int` -/

/-- `value.bit_length()`. -/
def bitLength (value : Nat) : Nat := if value = 0 then 0 else value.log2 + 1

/-- The lowest bytes of a number. -/
def bigEndian : Nat → Nat → List Nat
  | 0, _ => []
  | length + 1, value => bigEndian length (value / 256) ++ [value % 256]

/-- `value.to_bytes(length, "big")`, or `none` for its `OverflowError`. -/
def toBytes (value length : Nat) : Option (List Nat) :=
  if value < 256 ^ length then some (bigEndian length value) else none

/-! ## `base64` -/

/-- The standard alphabet. -/
def standardDigit (d : Nat) : Char :=
  if d < 26 then Char.ofNat ('A'.toNat + d)
  else if d < 52 then Char.ofNat ('a'.toNat + (d - 26))
  else if d < 62 then Char.ofNat ('0'.toNat + (d - 52))
  else if d = 62 then '+'
  else '/'

/-- `base64.b64encode`. -/
def b64encode : List Nat → List Char
  | [] => []
  | [x] => [standardDigit (x / 4), standardDigit (x % 4 * 16), '=', '=']
  | [x, y] =>
      [standardDigit (x / 4), standardDigit (x % 4 * 16 + y / 16), standardDigit (y % 16 * 4), '=']
  | x :: y :: z :: rest =>
      standardDigit (x / 4) :: standardDigit (x % 4 * 16 + y / 16) ::
        standardDigit (y % 16 * 4 + z / 64) :: standardDigit (z % 64) :: b64encode rest

/-- `maketrans(b"+/", b"-_")`. -/
def urlsafe (c : Char) : Char := if c = '+' then '-' else if c = '/' then '_' else c

/-- `base64.urlsafe_b64encode`. -/
def urlsafeB64encode (data : List Nat) : List Char := (b64encode data).map urlsafe

/-! ## The key -/

/-- `_b64url`. -/
def b64url (data : List Nat) : String :=
  String.ofList ((urlsafeB64encode data).rdropWhile (· == '='))

/-- `_int_to_b64url`. -/
def intToB64url (value : Nat) : Option String :=
  (toBytes value ((bitLength value + 7) / 8)).map b64url

/-- `KeyManager.jwk` of a key with these public numbers. -/
def jwk (kid : String) (n e : Nat) : Option (Dict String String) := do
  let n ← intToB64url n
  let e ← intToB64url e
  return [("kty", "RSA"), ("use", "sig"), ("alg", "RS256"), ("kid", kid), ("n", n), ("e", e)]

/-! ## Numbers as bytes -/

theorem lt_bitLength (value : Nat) : value < 2 ^ bitLength value := by
  unfold bitLength
  split
  · rename_i hzero
    rw [hzero]
    exact Nat.one_pos
  · exact Nat.lt_log2_self

/-- The bytes that `_int_to_b64url` asks for suffice. -/
theorem lt_pow_length (value : Nat) : value < 256 ^ ((bitLength value + 7) / 8) := by
  have hbits : bitLength value ≤ 8 * ((bitLength value + 7) / 8) := by omega
  have hpow : (256 : Nat) ^ ((bitLength value + 7) / 8) =
      2 ^ (8 * ((bitLength value + 7) / 8)) := by
    rw [Nat.pow_mul]
  rw [hpow]
  exact Nat.lt_of_lt_of_le (lt_bitLength value) (Nat.pow_le_pow_right (by omega) hbits)

theorem toBytes_length (value : Nat) :
    toBytes value ((bitLength value + 7) / 8) =
      some (bigEndian ((bitLength value + 7) / 8) value) :=
  if_pos (lt_pow_length value)

/-- The bytes that a number is published as. -/
def bytesOf (value : Nat) : List Nat := bigEndian ((bitLength value + 7) / 8) value

theorem intToB64url_eq (value : Nat) : intToB64url value = some (b64url (bytesOf value)) := by
  unfold intToB64url
  rw [toBytes_length]
  rfl

theorem jwk_eq (kid : String) (n e : Nat) :
    jwk kid n e = some [("kty", "RSA"), ("use", "sig"), ("alg", "RS256"), ("kid", kid),
      ("n", b64url (bytesOf n)), ("e", b64url (bytesOf e))] := by
  unfold jwk
  rw [intToB64url_eq n, intToB64url_eq e]
  rfl

theorem bigEndian_lt {length value b : Nat} (h : b ∈ bigEndian length value) : b < 256 := by
  induction length generalizing value with
  | zero => cases h
  | succ length ih =>
      rcases List.mem_append.mp h with hfront | hlast
      · exact ih hfront
      · rw [List.mem_singleton.mp hlast]
        omega

theorem bytesOf_lt {value b : Nat} (h : b ∈ bytesOf value) : b < 256 := bigEndian_lt h

/-! ## Bytes as digits -/

/-- The digits that stand for bytes. -/
def digits : List Nat → List Nat
  | [] => []
  | [x] => [x / 4, x % 4 * 16]
  | [x, y] => [x / 4, x % 4 * 16 + y / 16, y % 16 * 4]
  | x :: y :: z :: rest =>
      x / 4 :: (x % 4 * 16 + y / 16) :: (y % 16 * 4 + z / 64) :: z % 64 :: digits rest

def urlsafeDigit (d : Nat) : Char := urlsafe (standardDigit d)

/-- The encoding is the digits and the padding. -/
theorem urlsafeB64encode_eq (data : List Nat) :
    ∃ pad, urlsafeB64encode data =
      (digits data).map urlsafeDigit ++ List.replicate pad '=' := by
  unfold urlsafeB64encode
  induction data using b64encode.induct with
  | case1 => exact ⟨0, rfl⟩
  | case2 x => exact ⟨2, rfl⟩
  | case3 x y => exact ⟨1, rfl⟩
  | case4 x y z rest ih =>
      obtain ⟨pad, hpad⟩ := ih
      refine ⟨pad, ?_⟩
      simp only [b64encode, digits, List.map_cons, hpad, List.cons_append]
      rfl

theorem digits_lt {data : List Nat} (h : ∀ b ∈ data, b < 256) : ∀ d ∈ digits data, d < 64 := by
  induction data using digits.induct with
  | case1 =>
      intro d hd
      cases hd
  | case2 x =>
      have hx := h x List.mem_cons_self
      simp only [digits, List.forall_mem_cons]
      exact ⟨by omega, by omega, fun _ hd => by cases hd⟩
  | case3 x y =>
      simp only [List.forall_mem_cons] at h
      simp only [digits, List.forall_mem_cons]
      exact ⟨by omega, by omega, by omega, fun _ hd => by cases hd⟩
  | case4 x y z rest ih =>
      simp only [List.forall_mem_cons] at h
      simp only [digits, List.forall_mem_cons]
      exact ⟨by omega, by omega, by omega, by omega, ih h.2.2.2⟩

theorem urlsafeDigit_ne_pad : ∀ d < 64, urlsafeDigit d ≠ '=' := by decide

/-- Stripping takes the padding and no digit. -/
theorem b64url_toList {data : List Nat} (h : ∀ b ∈ data, b < 256) :
    (b64url data).toList = (digits data).map urlsafeDigit := by
  obtain ⟨pad, hpad⟩ := urlsafeB64encode_eq data
  have hstrip : ∀ k, ((digits data).map urlsafeDigit ++ List.replicate k '=').rdropWhile
      (· == '=') = (digits data).map urlsafeDigit := by
    intro k
    induction k with
    | zero =>
        rw [List.replicate_zero, List.append_nil, List.rdropWhile_eq_self_iff]
        intro hne hlast
        obtain ⟨d, hd, heq⟩ := List.mem_map.mp (List.getLast_mem hne)
        rw [← heq, beq_iff_eq] at hlast
        exact urlsafeDigit_ne_pad d (digits_lt h d hd) hlast
    | succ k ih =>
        rw [List.replicate_succ', ← List.append_assoc, List.rdropWhile_concat_pos _ _ _ rfl]
        exact ih
  unfold b64url
  rw [String.toList_ofList, hpad, hstrip]

end Iam
end Rcp
