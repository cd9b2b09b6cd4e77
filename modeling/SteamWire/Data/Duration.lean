import Mathlib.Algebra.Ring.Nat

/-!
# Durations

Seconds and nanoseconds, as the standard library keeps them, and the conversions from a
whole number of seconds and from a number of seconds in single precision.
-/

namespace SteamWire

/-- A number in single precision, by its bits. -/
structure F32 where
  bits : UInt32
  deriving DecidableEq, Repr

namespace F32

def isSignNegative (x : F32) : Bool := x.bits.toNat / 2 ^ 31 = 1

def exponent (x : F32) : Nat := x.bits.toNat / 2 ^ 23 % 2 ^ 8

/-- The significand, with the leading bit that is not stored. -/
def significand (x : F32) : Nat :=
  if x.exponent = 0 then x.bits.toNat % 2 ^ 23 else x.bits.toNat % 2 ^ 23 + 2 ^ 23

def isZero (x : F32) : Bool := x.exponent = 0 ∧ x.significand = 0

/-- Neither an infinity nor a NaN. -/
def isFinite (x : F32) : Bool := x.exponent ≠ 255

end F32

/-- Division to the nearest, ties to even. -/
def divRound (n d : Nat) : Nat :=
  let q := n / d
  let r := n % d
  if 2 * r < d ∨ 2 * r = d ∧ q % 2 = 0 then q else q + 1

def nanosPerSec : Nat := 1000000000

structure Duration where
  secs : UInt64
  nanos : Nat
  nanos_lt : nanos < nanosPerSec
  deriving DecidableEq, Repr

namespace Duration

def zero : Duration := ⟨0, 0, by decide⟩

def fromSecs (secs : UInt64) : Duration := ⟨secs, 0, by decide⟩

def toNanos (d : Duration) : Nat := d.secs.toNat * nanosPerSec + d.nanos

instance : LE Duration := ⟨fun d e => d.toNanos ≤ e.toNanos⟩

instance (d e : Duration) : Decidable (d ≤ e) := inferInstanceAs (Decidable (_ ≤ _))

theorem fromSecs_le_fromSecs {a b : UInt64} : fromSecs a ≤ fromSecs b ↔ a.toNat ≤ b.toNat := by
  change a.toNat * nanosPerSec + 0 ≤ b.toNat * nanosPerSec + 0 ↔ _
  rw [Nat.add_zero, Nat.add_zero, Nat.mul_le_mul_right_iff (by decide)]

/-- `Duration::from_secs_f32`: rounded to nanoseconds, `none` where it panics, on a number
that is negative, not finite or too large. -/
def fromSecsF32 (secs : F32) : Option Duration :=
  if secs.isSignNegative && !secs.isZero || !secs.isFinite then none
  else
    -- the number is its significand, times two to the power of its exponent less 150
    let exponent := max secs.exponent 1
    let nanos := divRound (secs.significand * nanosPerSec * 2 ^ (exponent - 150))
      (2 ^ (150 - exponent))
    if nanos / nanosPerSec < 2 ^ 64 then
      some ⟨.ofNat (nanos / nanosPerSec), nanos % nanosPerSec, Nat.mod_lt _ (by decide)⟩
    else none

/-- 2.7 seconds. -/
example : fromSecsF32 ⟨0x402CCCCD⟩ = some ⟨2, 700000048, by decide⟩ := by decide

end Duration

end SteamWire
