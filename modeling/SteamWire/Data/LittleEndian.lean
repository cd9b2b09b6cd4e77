import Mathlib.Data.Nat.Basic
import Mathlib.Tactic.Ring

/-!
# Little-endian fixed-width integers

The bytes of a natural number at a fixed width, least significant first, the
number a list of bytes stands for, and the round trips between the two. The
fixed-width machine integers are read and written through them.
-/

namespace SteamWire

/-- A byte string. -/
abbrev Bytes := List UInt8

namespace LittleEndian

/-- The `width` low bytes of `n`, least significant first. -/
def encode : Nat → Nat → Bytes
  | 0, _ => []
  | width + 1, n => UInt8.ofNat n :: encode width (n / 256)

/-- The number whose bytes are `bytes`, least significant first. -/
def decode : Bytes → Nat
  | [] => 0
  | b :: bytes => b.toNat + 256 * decode bytes

@[simp] theorem length_encode (width n : Nat) : (encode width n).length = width := by
  induction width generalizing n with
  | zero => rfl
  | succ width ih => simp [encode, ih]

/-- Encoding drops what does not fit the width. -/
theorem decode_encode (width n : Nat) : decode (encode width n) = n % 256 ^ width := by
  induction width generalizing n with
  | zero => simp [encode, decode, Nat.mod_one]
  | succ width ih =>
    rw [encode, decode, ih, pow_succ', Nat.mod_mul]
    simp [UInt8.toNat_ofNat']

theorem decode_encode_of_lt {width n : Nat} (h : n < 256 ^ width) :
    decode (encode width n) = n := by
  rw [decode_encode, Nat.mod_eq_of_lt h]

/-- The four bytes of a `u32`. -/
def u32 (x : UInt32) : Bytes := encode 4 x.toNat

/-- The eight bytes of a `u64`. -/
def u64 (x : UInt64) : Bytes := encode 8 x.toNat

/-- The four bytes of an `i32`, in two's complement. -/
def i32 (x : Int32) : Bytes := u32 x.toUInt32

@[simp] theorem length_u32 (x : UInt32) : (u32 x).length = 4 := length_encode 4 _

@[simp] theorem length_u64 (x : UInt64) : (u64 x).length = 8 := length_encode 8 _

@[simp] theorem length_i32 (x : Int32) : (i32 x).length = 4 := length_u32 _

@[simp] theorem ofNat_decode_u32 (x : UInt32) : UInt32.ofNat (decode (u32 x)) = x := by
  rw [u32, decode_encode_of_lt (by simpa using x.toNat_lt), UInt32.ofNat_toNat]

@[simp] theorem ofNat_decode_u64 (x : UInt64) : UInt64.ofNat (decode (u64 x)) = x := by
  rw [u64, decode_encode_of_lt (by simpa using x.toNat_lt), UInt64.ofNat_toNat]

@[simp] theorem ofNat_decode_i32 (x : Int32) : Int32.ofNat (decode (i32 x)) = x := by
  rw [← UInt32.toInt32_ofNat', i32, ofNat_decode_u32, Int32.toInt32_toUInt32]

end LittleEndian

end SteamWire
