import Mathlib.Data.Nat.Digits.Defs
import SteamWire.Data.Json
import SteamWire.Net.Error

/-!
# The key for a password

The password of a login is encrypted with a key of the service, whose two numbers are written
as hexadecimal text. The crates that decode the text and make a number of its bytes are
parameters; the code between them asks for so many bits that every number has room, so that
what can be decoded is read, as the number its bytes stand for
(`exists_hexToBoxedUint_iff`).
-/

namespace SteamWire

/-! ### Numbers in hexadecimal -/

/-- What the crates for hexadecimal text and for big numbers do: decode digits, and make a
number of so many bits out of big-endian bytes. -/
structure BigintCrates where
  Uint : Type
  hexDecode : List Char → Option Bytes
  fromBeSlice : Bytes → UInt32 → Option Uint

/-- The number in big-endian bytes. -/
def ofBeBytes (bytes : Bytes) : Nat := Nat.ofDigits 256 (bytes.map UInt8.toNat).reverse

/-- What the crates document: two digits make a byte, and a number is made of all bytes that
the bits have room for. -/
structure BigintCrates.Lawful (crates : BigintCrates) (value : crates.Uint → Nat) : Prop where
  length_eq : ∀ digits bytes, crates.hexDecode digits = some bytes →
    digits.length = 2 * bytes.length
  fromBeSlice_eq : ∀ bytes precision, 8 * bytes.length ≤ precision.toNat →
    ∃ n, crates.fromBeSlice bytes precision = some n ∧ value n = ofBeBytes bytes

/-- `u32::next_multiple_of`. -/
def nextMultipleOf (x rhs : UInt32) : UInt32 :=
  if x % rhs = 0 then x else x + (rhs - x % rhs)

/-- `str::strip_prefix` of the mark for hexadecimal digits, if it is there. -/
def hexDigits (hexStr : String) : List Char :=
  match hexStr.toList with
  | '0' :: 'x' :: digits => digits
  | digits => digits

/-- `hex_to_boxed_uint`. The number of bits wraps around, as in a release build. -/
def hexToBoxedUint (crates : BigintCrates) (hexStr : String) : Option crates.Uint :=
  if hexDigits hexStr = [] then none
  else
    (crates.hexDecode (hexDigits hexStr)).bind fun bytes =>
      crates.fromBeSlice bytes (nextMultipleOf (UInt32.ofNat bytes.length * 8) 64)

section Hex

variable {crates : BigintCrates} {value : crates.Uint → Nat} {hexStr : String} {n : Nat}

/-- So many bits have room for the bytes. -/
theorem le_precision {bytes : Bytes} (h : bytes.length ≤ 2 ^ 28) :
    8 * bytes.length ≤ (nextMultipleOf (UInt32.ofNat bytes.length * 8) 64).toNat := by
  have hbits : (UInt32.ofNat bytes.length * 8).toNat = bytes.length * 8 := by
    rw [UInt32.toNat_mul, UInt32.toNat_ofNat_of_lt' (show _ < 2 ^ 32 by omega)]
    exact Nat.mod_eq_of_lt (show bytes.length * 8 < 2 ^ 32 by omega)
  unfold nextMultipleOf
  have hmod : (UInt32.ofNat bytes.length * 8 % 64).toNat = bytes.length * 8 % 64 := by
    rw [UInt32.toNat_mod, hbits]
    rfl
  split_ifs with hzero
  · rw [hbits, Nat.mul_comm]
  · have hsub : ((64 : UInt32) - UInt32.ofNat bytes.length * 8 % 64).toNat =
        64 - bytes.length * 8 % 64 := by
      have hle : UInt32.ofNat bytes.length * 8 % 64 ≤ 64 := by
        rw [UInt32.le_iff_toNat_le, hmod]
        exact (Nat.mod_lt _ (by omega)).le
      rw [UInt32.toNat_sub_of_le _ _ hle, hmod]
      rfl
    rw [UInt32.toNat_add, hbits, hsub, Nat.mod_eq_of_lt (by omega)]
    omega

/-- The mark is not decoded. -/
theorem length_hexDigits_le : (hexDigits hexStr).length ≤ hexStr.length := by
  rw [← String.length_toList]
  unfold hexDigits
  split
  · next digits hmark =>
    rw [hmark, List.length_cons, List.length_cons]
    omega
  · exact le_rfl

/-- Text is read as a number exactly when there is something behind the mark and the crate can
decode it, and the number is the one that all the bytes stand for: none is refused or cut. -/
theorem exists_hexToBoxedUint_iff (hcrates : crates.Lawful value) (h : hexStr.length ≤ 2 ^ 29) :
    (∃ u, hexToBoxedUint crates hexStr = some u ∧ value u = n) ↔
      hexDigits hexStr ≠ [] ∧
        ∃ bytes, crates.hexDecode (hexDigits hexStr) = some bytes ∧ ofBeBytes bytes = n := by
  unfold hexToBoxedUint
  have hfits : ∀ bytes, crates.hexDecode (hexDigits hexStr) = some bytes →
      ∃ u, crates.fromBeSlice bytes (nextMultipleOf (UInt32.ofNat bytes.length * 8) 64) =
        some u ∧ value u = ofBeBytes bytes := by
    intro bytes hbytes
    have hlen := hcrates.length_eq _ _ hbytes
    have hle := @length_hexDigits_le hexStr
    exact hcrates.fromBeSlice_eq _ _ (le_precision (by omega))
  constructor
  · rintro ⟨u, hread, rfl⟩
    split_ifs at hread with hnil
    obtain ⟨bytes, hbytes, hread⟩ := Option.bind_eq_some_iff.mp hread
    obtain ⟨u', hu', hvalue⟩ := hfits bytes hbytes
    obtain rfl := Option.some.inj (hread.symm.trans hu')
    exact ⟨hnil, bytes, hbytes, hvalue.symm⟩
  · rintro ⟨hnil, bytes, hbytes, rfl⟩
    obtain ⟨u, hu, hvalue⟩ := hfits bytes hbytes
    exact ⟨u, by rw [if_neg hnil, hbytes, Option.bind_some, hu], hvalue⟩

end Hex

section Examples

/-- The bytes of some digits. -/
def bytesOfDigits : List Char → Option Bytes
  | [] => some []
  | [_] => none
  | a :: b :: rest => do
    let a ← Json.hexVal a
    let b ← Json.hexVal b
    let bytes ← bytesOfDigits rest
    return UInt8.ofNat (a * 16 + b) :: bytes

/-- Crates that make natural numbers. -/
def BigintCrates.nat : BigintCrates where
  Uint := Nat
  hexDecode := bytesOfDigits
  fromBeSlice bytes precision :=
    if 8 * bytes.length ≤ precision.toNat then some (ofBeBytes bytes) else none

theorem BigintCrates.lawful_nat : BigintCrates.nat.Lawful id where
  length_eq digits := by
    suffices h : ∀ bytes, bytesOfDigits digits = some bytes →
        digits.length = 2 * bytes.length from h
    fun_induction bytesOfDigits digits with
    | case1 =>
      rintro bytes ⟨⟩
      rfl
    | case2 => exact fun bytes h => by cases h
    | case3 a b rest ih =>
      intro bytes h
      obtain ⟨x, -, h⟩ := Option.bind_eq_some_iff.mp h
      obtain ⟨y, -, h⟩ := Option.bind_eq_some_iff.mp h
      obtain ⟨bytes', hbytes, h⟩ := Option.bind_eq_some_iff.mp h
      obtain rfl := Option.some.inj h
      rw [List.length_cons, List.length_cons, List.length_cons, ih bytes' hbytes]
      omega
  fromBeSlice_eq bytes precision h := ⟨_, if_pos h, rfl⟩

/-- The usual exponent. -/
theorem exists_hexToBoxedUint_iff_exponent :
    ∃ u : Nat, hexToBoxedUint BigintCrates.nat "0x010001" = some u ∧ u = 65537 :=
  (@exists_hexToBoxedUint_iff _ _ _ 65537 BigintCrates.lawful_nat (by decide +kernel)).mpr
    ⟨by decide +kernel, [1, 0, 1], by decide +kernel, by decide +kernel⟩

end Examples

/-! ### The key -/

/-- `CAuthenticationGetPasswordRsaPublicKeyResponse`. -/
structure GetPasswordRsaPublicKeyResponse where
  publickeyMod : Option String := none
  publickeyExp : Option String := none
  timestamp : Option UInt64 := none
  deriving DecidableEq, Repr

def malformed (error : MessageBodyError) : NetworkError :=
  .malformedBody EMsg.kEMsgServiceMethodCallFromClient.kind error

/-- A number of the key; a missing one is no number. -/
def keyNumber (crates : BigintCrates) (hexStr : Option String) : Except NetworkError crates.Uint :=
  match hexToBoxedUint crates (hexStr.getD "") with
  | some n => .ok n
  | none => .error (malformed .bigInt)

/-- What `get_password_rsa` makes of the response; `newKey` is `RsaPublicKey::new`. -/
def getPasswordRsa (crates : BigintCrates) {Key : Type}
    (newKey : crates.Uint → crates.Uint → Except MessageBodyError Key)
    (response : GetPasswordRsaPublicKeyResponse) : Except NetworkError (Key × UInt64) := do
  let n ← keyNumber crates response.publickeyMod
  let e ← keyNumber crates response.publickeyExp
  let key ← (newKey n e).mapError malformed
  return (key, response.timestamp.getD 0)

end SteamWire
