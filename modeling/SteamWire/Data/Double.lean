import Mathlib.Algebra.Order.Floor.Semifield
import Mathlib.Data.Rat.Floor
import SteamWire.Data.Duration

/-!
# Numbers in double precision

Numbers in double precision by their bits, with their exact values, and how they are converted
from and to whole numbers. A finite number becomes the whole part of its value, cut to the range
(`toNat_toU64`); a negative number comes to zero, also after it was rounded
(`toU64_ofInt_of_neg`).
-/

namespace SteamWire

/-- A number in double precision, by its bits. -/
structure F64 where
  bits : UInt64
  deriving DecidableEq, Repr

namespace F64

def isSignNegative (x : F64) : Bool := x.bits.toNat / 2 ^ 63 = 1

def exponent (x : F64) : Nat := x.bits.toNat / 2 ^ 52 % 2 ^ 11

def fraction (x : F64) : Nat := x.bits.toNat % 2 ^ 52

/-- The significand, with the leading bit that is not stored. -/
def significand (x : F64) : Nat :=
  if x.exponent = 0 then x.fraction else x.fraction + 2 ^ 52

/-- Neither an infinity nor a NaN. -/
def isFinite (x : F64) : Bool := x.exponent ≠ 2047

def isNaN (x : F64) : Bool := x.exponent = 2047 ∧ x.fraction ≠ 0

/-- The significand counts multiples of two to the power of this, less 1075. -/
def scale (x : F64) : Nat := max x.exponent 1

/-- The value of a number, if it is finite. -/
def toRat (x : F64) : ℚ :=
  (if x.isSignNegative then -1 else 1) * (x.significand * 2 ^ ((x.scale : ℤ) - 1075))

/-- `as u64`: towards zero, and into the range. -/
def toU64 (x : F64) : UInt64 :=
  if x.isNaN || x.isSignNegative then 0
  else if !x.isFinite then .ofNat (2 ^ 64 - 1)
  else .ofNat (min (x.significand * 2 ^ (x.scale - 1075) / 2 ^ (1075 - x.scale)) (2 ^ 64 - 1))

/-- The first 53 bits of a whole number, to the nearest, ties to even. -/
def leadingBits (k : Nat) : Nat :=
  if k.log2 ≤ 52 then k * 2 ^ (52 - k.log2) else divRound k (2 ^ (k.log2 - 52))

/-- `as f64` of a whole number. -/
def ofInt (n : Int) : F64 :=
  if n = 0 then ⟨0⟩
  else
    -- bits that are rounded up to the next power of two carry into the exponent
    ⟨.ofNat ((if n < 0 then 2 ^ 63 else 0) + (n.natAbs.log2 + 1022) * 2 ^ 52 +
      leadingBits n.natAbs)⟩

variable {x : F64} {n : Int}

/-- The value, without a negative exponent. -/
theorem significand_mul_eq (x : F64) : (x.significand : ℚ) * 2 ^ ((x.scale : ℤ) - 1075) =
    ((x.significand * 2 ^ (x.scale - 1075) : ℕ) : ℚ) / ((2 ^ (1075 - x.scale) : ℕ) : ℚ) := by
  rcases Nat.le_total 1075 x.scale with hle | hle
  · rw [Nat.sub_eq_zero_of_le hle, pow_zero, Nat.cast_one, div_one, Nat.cast_mul, Nat.cast_pow,
      Nat.cast_ofNat, ← zpow_natCast, Nat.cast_sub hle]
    rfl
  · rw [Nat.sub_eq_zero_of_le hle, pow_zero, mul_one, Nat.cast_pow, Nat.cast_ofNat,
      ← zpow_natCast, Nat.cast_sub hle, div_eq_mul_inv, ← zpow_neg]
    congr 2
    push_cast
    ring

theorem toNat_ofNat_min (k : Nat) :
    (UInt64.ofNat (min k (2 ^ 64 - 1))).toNat = min k (2 ^ 64 - 1) :=
  UInt64.toNat_ofNat_of_lt' (show min k (2 ^ 64 - 1) < 2 ^ 64 by omega)

/-- A finite number is cut to the whole part of its value. -/
theorem toNat_toU64 (h : x.isFinite) : x.toU64.toNat = min ⌊x.toRat⌋₊ (2 ^ 64 - 1) := by
  have hnan : x.isNaN = false := by
    unfold isFinite at h
    unfold isNaN
    simpa using fun hexp => absurd hexp (by simpa using h)
  have hnonneg : (0 : ℚ) ≤ x.significand * 2 ^ ((x.scale : ℤ) - 1075) :=
    mul_nonneg (Nat.cast_nonneg _) (zpow_nonneg (by norm_num) _)
  unfold toU64 toRat
  rw [hnan, Bool.false_or, h]
  cases x.isSignNegative with
  | true =>
    rw [if_pos rfl, if_pos rfl, Nat.floor_of_nonpos (by linarith)]
    rfl
  | false =>
    rw [if_neg Bool.false_ne_true, if_neg Bool.false_ne_true, if_neg (by decide), one_mul,
      significand_mul_eq, Nat.floor_div_natCast, Nat.floor_natCast, toNat_ofNat_min]

example : toU64 ⟨0x41D954FC40300000⟩ = 1700000000 := by decide

theorem divRound_le {k d : Nat} : divRound k d ≤ k / d + 1 := by
  unfold divRound
  dsimp only
  split_ifs <;> omega

/-- These are 53 bits, or the next power of two. -/
theorem leadingBits_le (k : Nat) : leadingBits k ≤ 2 ^ 53 := by
  have hlt : k < 2 ^ (k.log2 + 1) := Nat.lt_log2_self
  unfold leadingBits
  split_ifs with hle
  · have hmul : k * 2 ^ (52 - k.log2) ≤ 2 ^ (k.log2 + 1) * 2 ^ (52 - k.log2) :=
      Nat.mul_le_mul_right _ hlt.le
    rw [← pow_add] at hmul
    exact hmul.trans (Nat.pow_le_pow_right (by omega) (by omega))
  · have hdiv : k / 2 ^ (k.log2 - 52) < 2 ^ 53 := by
      refine Nat.div_lt_of_lt_mul ?_
      rw [← pow_add]
      exact hlt.trans_le (Nat.pow_le_pow_right (by omega) (by omega))
    exact divRound_le.trans hdiv

/-- A negative number is negative after it is rounded. -/
theorem isSignNegative_ofInt (hn : n < 0) (hlow : -2 ^ 63 ≤ n) : (ofInt n).isSignNegative := by
  have hne : n.natAbs ≠ 0 := by omega
  have hlog : n.natAbs.log2 ≤ 63 := by
    have hle : n.natAbs < 2 ^ 64 := by omega
    exact Nat.lt_succ_iff.mp ((Nat.log2_lt hne).mpr hle)
  have hbits := leadingBits_le n.natAbs
  unfold ofInt isSignNegative
  rw [if_neg hn.ne, if_pos hn]
  dsimp only
  rw [UInt64.toNat_ofNat_of_lt' (show _ < 2 ^ 64 by omega)]
  simp only [decide_eq_true_eq]
  omega

theorem toU64_ofInt_of_neg (hn : n < 0) (hlow : -2 ^ 63 ≤ n) : (ofInt n).toU64 = 0 := by
  rw [toU64, isSignNegative_ofInt hn hlow, Bool.or_true, if_pos rfl]

end F64

end SteamWire
