import Mathlib.Data.Nat.Bitwise
import SteamWire.Data.LittleEndian

/-!
# Message kinds

The kind word of a network message: an `i32` kind constant, with the top bit of
its `u32` form set for messages with a protobuf header. Encoding and decoding
the word are inverse to each other on nonnegative kinds.
-/

namespace SteamWire

/-- A "kind" constant used by network messages. -/
structure MsgKind where
  value : Int32
  deriving DecidableEq, Repr

/-- The bit of the kind word that marks a protobuf header. -/
def protoMask : UInt32 := 0x80000000

/-- An enum of kind constants. -/
class MsgKindEnum (K : Type*) where
  enumValue : K → Int32

export MsgKindEnum (enumValue)

namespace MsgKindEnum

variable {K : Type*} [MsgKindEnum K]

/-- The kind word of an outgoing message. -/
def encodeKind (kind : K) (isProtobuf : Bool) : UInt32 :=
  if isProtobuf then (enumValue kind).toUInt32 ||| protoMask else (enumValue kind).toUInt32

/-- `MsgKind::from`. -/
def toMsgKind (kind : K) : MsgKind := ⟨enumValue kind⟩

end MsgKindEnum

/-- A `MsgKind` is a kind constant in its own right. -/
instance : MsgKindEnum MsgKind := ⟨MsgKind.value⟩

/-- The generated `EMsg` kinds the connection code refers to. -/
inductive EMsg where
  | kEMsgMulti
  | kEMsgServiceMethod
  | kEMsgServiceMethodResponse
  | kEMsgServiceMethodCallFromClient
  | kEMsgClientHeartBeat
  | kEMsgClientLogOnResponse
  | kEMsgChannelEncryptRequest
  | kEMsgChannelEncryptResponse
  | kEMsgChannelEncryptResult
  | kEMsgClientGamesPlayedWithDataBlob
  | kEMsgClientToGc
  | kEMsgClientFromGc
  | kEMsgServiceMethodCallFromClientNonAuthed
  deriving DecidableEq, Repr

instance : MsgKindEnum EMsg where
  enumValue
    | .kEMsgMulti => 1
    | .kEMsgServiceMethod => 146
    | .kEMsgServiceMethodResponse => 147
    | .kEMsgServiceMethodCallFromClient => 151
    | .kEMsgClientHeartBeat => 703
    | .kEMsgClientLogOnResponse => 751
    | .kEMsgChannelEncryptRequest => 1303
    | .kEMsgChannelEncryptResponse => 1304
    | .kEMsgChannelEncryptResult => 1305
    | .kEMsgClientGamesPlayedWithDataBlob => 5410
    | .kEMsgClientToGc => 5452
    | .kEMsgClientFromGc => 5453
    | .kEMsgServiceMethodCallFromClientNonAuthed => 9804

/-- The kind constant of an `EMsg`. -/
abbrev EMsg.kind (k : EMsg) : MsgKind := MsgKindEnum.toMsgKind k

/-- Split a kind word into the kind and the protobuf flag. -/
def decodeKind (word : UInt32) : MsgKind × Bool :=
  (⟨(word &&& ~~~protoMask).toInt32⟩, word &&& protoMask == protoMask)

section RoundTrip

/-- A nonnegative `i32` leaves the top bit of its `u32` form clear. -/
theorem toNat_toUInt32_lt {x : Int32} (h : 0 ≤ x) : x.toUInt32.toNat < 2 ^ 31 := by
  have hint : 0 ≤ x.toInt := by simpa using Int32.le_iff_toInt_le.mp h
  have hval : x.toInt = x.toBitVec.toInt := rfl
  rw [hval, BitVec.toInt_eq_toNat_cond] at hint
  have hlt : x.toBitVec.toNat < 2 ^ 32 := x.toBitVec.isLt
  have hnat : x.toUInt32.toNat = x.toBitVec.toNat := rfl
  split at hint <;> omega

private theorem land_mask_of_lt {n : Nat} (h : n < 2 ^ 31) : n &&& 2 ^ 31 = 0 := by
  rw [Nat.and_two_pow, Nat.testBit_lt_two_pow h]
  rfl

private theorem lor_mask_land_mask {n : Nat} (h : n < 2 ^ 31) :
    (n ||| 2 ^ 31) &&& 2 ^ 31 = 2 ^ 31 := by
  rw [Nat.and_two_pow, Nat.or_two_pow_eq_add_of_lt h, Nat.add_comm, Nat.testBit_two_pow_add_eq,
    Nat.testBit_lt_two_pow h]
  rfl

private theorem lor_mask_mod {n : Nat} (h : n < 2 ^ 31) : (n ||| 2 ^ 31) % 2 ^ 31 = n := by
  rw [Nat.or_two_pow_eq_add_of_lt h, Nat.add_mod_right, Nat.mod_eq_of_lt h]

/-- Clearing the mask bit keeps the low 31 bits. -/
theorem toNat_land_not_protoMask (word : UInt32) :
    (word &&& ~~~protoMask).toNat = word.toNat % 2 ^ 31 := by
  rw [UInt32.toNat_and, show (~~~protoMask).toNat = 2 ^ 31 - 1 from rfl,
    Nat.and_two_pow_sub_one_eq_mod]

theorem toNat_land_protoMask (word : UInt32) :
    (word &&& protoMask).toNat = word.toNat &&& 2 ^ 31 := UInt32.toNat_and ..

variable {K : Type*} [MsgKindEnum K]

/-- The reader recovers kind and flag from the word of a nonnegative kind. -/
theorem decodeKind_encodeKind (kind : K) (isProtobuf : Bool) (h : 0 ≤ enumValue kind) :
    decodeKind (MsgKindEnum.encodeKind kind isProtobuf) =
      (MsgKindEnum.toMsgKind kind, isProtobuf) := by
  have hlt := toNat_toUInt32_lt h
  have hmask : protoMask.toNat = 2 ^ 31 := rfl
  cases isProtobuf with
  | false =>
    have hkind : (enumValue kind).toUInt32 &&& ~~~protoMask = (enumValue kind).toUInt32 := by
      rw [← UInt32.toNat_inj, toNat_land_not_protoMask, Nat.mod_eq_of_lt hlt]
    have hflag : (enumValue kind).toUInt32 &&& protoMask ≠ protoMask := by
      rw [Ne, ← UInt32.toNat_inj, toNat_land_protoMask, land_mask_of_lt hlt]
      decide
    simp [decodeKind, MsgKindEnum.encodeKind, MsgKindEnum.toMsgKind, hkind, hflag]
  | true =>
    have hkind : ((enumValue kind).toUInt32 ||| protoMask) &&& ~~~protoMask =
        (enumValue kind).toUInt32 := by
      rw [← UInt32.toNat_inj, toNat_land_not_protoMask, UInt32.toNat_or, hmask, lor_mask_mod hlt]
    have hflag : ((enumValue kind).toUInt32 ||| protoMask) &&& protoMask = protoMask := by
      rw [← UInt32.toNat_inj, toNat_land_protoMask, UInt32.toNat_or, hmask,
        lor_mask_land_mask hlt]
    simp [decodeKind, MsgKindEnum.encodeKind, MsgKindEnum.toMsgKind, hkind, hflag]

end RoundTrip

end SteamWire
