import Mathlib.Data.Nat.Digits.Lemmas

/-!
# Numbers in decimal

Text as a number of 64 bits. Text is read exactly when it is digits, with or without a plus in
front, and the number that the digits stand for has room (`parseU64_eq_some_iff`).
-/

namespace SteamWire.Decimal

/-- `char::to_digit`. -/
def digitVal (c : Char) : Option Nat :=
  if 48 ≤ c.toNat ∧ c.toNat ≤ 57 then some (c.toNat - 48) else none

/-- `u64::checked_mul`. -/
def checkedMul (x y : UInt64) : Option UInt64 :=
  if x.toNat * y.toNat < 2 ^ 64 then some (x * y) else none

/-- `u64::checked_add`. -/
def checkedAdd (x y : UInt64) : Option UInt64 :=
  if x.toNat + y.toNat < 2 ^ 64 then some (x + y) else none

/-- Put one more digit behind a number. -/
def pushDigit (n : UInt64) (c : Char) : Option UInt64 :=
  (checkedMul n 10).bind fun n => (digitVal c).bind fun d => checkedAdd n (UInt64.ofNat d)

/-- `u64::from_str`. A minus is not a digit. -/
def parseU64 (s : List Char) : Option UInt64 :=
  match s with
  | [] => none
  | '+' :: digits => if digits = [] then none else digits.foldlM pushDigit 0
  | digits => digits.foldlM pushDigit 0

/-- The digits stand for the number. -/
def StandsFor (digits : List Char) (n : Nat) : Prop :=
  digits ≠ [] ∧ ∃ vals, digits.mapM digitVal = some vals ∧ Nat.ofDigits 10 vals.reverse = n

variable {digits s : List Char} {m n x y z : UInt64} {c : Char}

theorem checkedMul_eq_some_iff : checkedMul x y = some z ↔ z.toNat = x.toNat * y.toNat := by
  constructor
  · intro h
    obtain ⟨hlt, heq⟩ := Option.ite_none_right_eq_some.mp h
    obtain rfl := Option.some.inj heq
    rw [UInt64.toNat_mul, Nat.mod_eq_of_lt hlt]
  · intro h
    have hlt : x.toNat * y.toNat < 2 ^ 64 := h ▸ z.toNat_lt
    rw [checkedMul, if_pos hlt, Option.some.injEq, ← UInt64.toNat_inj, UInt64.toNat_mul,
      Nat.mod_eq_of_lt hlt, h]

theorem checkedAdd_eq_some_iff : checkedAdd x y = some z ↔ z.toNat = x.toNat + y.toNat := by
  constructor
  · intro h
    obtain ⟨hlt, heq⟩ := Option.ite_none_right_eq_some.mp h
    obtain rfl := Option.some.inj heq
    rw [UInt64.toNat_add, Nat.mod_eq_of_lt hlt]
  · intro h
    have hlt : x.toNat + y.toNat < 2 ^ 64 := h ▸ z.toNat_lt
    rw [checkedAdd, if_pos hlt, Option.some.injEq, ← UInt64.toNat_inj, UInt64.toNat_add,
      Nat.mod_eq_of_lt hlt, h]

theorem toNat_digitVal {d : Nat} (h : digitVal c = some d) : (UInt64.ofNat d).toNat = d := by
  obtain ⟨hc, heq⟩ := Option.ite_none_right_eq_some.mp h
  have hd := Option.some.inj heq
  exact UInt64.toNat_ofNat_of_lt' (show d < 2 ^ 64 by omega)

theorem pushDigit_eq_some_iff :
    pushDigit m c = some n ↔ ∃ d, digitVal c = some d ∧ n.toNat = m.toNat * 10 + d := by
  constructor
  · intro h
    obtain ⟨mul, hmul, h⟩ := Option.bind_eq_some_iff.mp h
    obtain ⟨d, hd, hadd⟩ := Option.bind_eq_some_iff.mp h
    refine ⟨d, hd, ?_⟩
    rw [checkedAdd_eq_some_iff.mp hadd, checkedMul_eq_some_iff.mp hmul, toNat_digitVal hd]
    rfl
  · rintro ⟨d, hd, hn⟩
    -- there is room for the product when there is for the sum
    have hlt : m.toNat * 10 < 2 ^ 64 := by
      have hn' := n.toNat_lt
      omega
    have hmul : (UInt64.ofNat (m.toNat * 10)).toNat = m.toNat * 10 := UInt64.toNat_ofNat_of_lt' hlt
    refine Option.bind_eq_some_iff.mpr ⟨_, checkedMul_eq_some_iff.mpr hmul, ?_⟩
    refine Option.bind_eq_some_iff.mpr ⟨d, hd, checkedAdd_eq_some_iff.mpr ?_⟩
    rw [hmul, toNat_digitVal hd, hn]

/-- The digits are put behind the number one after the other. -/
theorem foldlM_pushDigit_eq_some_iff : digits.foldlM pushDigit m = some n ↔
    ∃ vals, digits.mapM digitVal = some vals ∧
      n.toNat = m.toNat * 10 ^ vals.length + Nat.ofDigits 10 vals.reverse := by
  induction digits generalizing m with
  | nil =>
    rw [List.foldlM_nil, List.mapM_nil]
    constructor
    · intro h
      obtain rfl := Option.some.inj h
      exact ⟨[], rfl, by simp⟩
    · rintro ⟨vals, hvals, hn⟩
      obtain rfl := Option.some.inj hvals
      exact congrArg some (UInt64.toNat_inj.mp (by simpa using hn.symm))
  | cons c digits ih =>
    rw [List.foldlM_cons]
    have hvalue : ∀ (d : Nat) (vals : List Nat), (m.toNat * 10 + d) * 10 ^ vals.length +
        Nat.ofDigits 10 vals.reverse =
          m.toNat * 10 ^ (d :: vals).length + Nat.ofDigits 10 (d :: vals).reverse := by
      intro d vals
      rw [List.reverse_cons, Nat.ofDigits_append, Nat.ofDigits_singleton, List.length_reverse,
        List.length_cons, pow_succ]
      ring
    constructor
    · intro h
      obtain ⟨m', hpush, h⟩ := Option.bind_eq_some_iff.mp h
      obtain ⟨d, hd, hm'⟩ := pushDigit_eq_some_iff.mp hpush
      obtain ⟨vals, hvals, hn⟩ := ih.mp h
      exact ⟨d :: vals, by simp [hd, hvals], by rw [hn, hm', hvalue]⟩
    · rintro ⟨vals, hvals, hn⟩
      obtain ⟨d, hd, hvals⟩ := Option.bind_eq_some_iff.mp ((List.mapM_cons ..).symm.trans hvals)
      obtain ⟨vals, htail, heq⟩ := Option.bind_eq_some_iff.mp hvals
      obtain rfl := Option.some.inj heq
      rw [← hvalue] at hn
      -- what has room with all digits has room with the first one
      have hlt : m.toNat * 10 + d < 2 ^ 64 := by
        have hpos : 0 < 10 ^ vals.length := by positivity
        have hle := Nat.le_mul_of_pos_right (m.toNat * 10 + d) hpos
        have hn' := n.toNat_lt
        omega
      have hm' : (UInt64.ofNat (m.toNat * 10 + d)).toNat = m.toNat * 10 + d :=
        UInt64.toNat_ofNat_of_lt' hlt
      refine Option.bind_eq_some_iff.mpr ⟨_, pushDigit_eq_some_iff.mpr ⟨d, hd, hm'⟩, ?_⟩
      exact ih.mpr ⟨vals, htail, by rw [hm', hn]⟩

theorem foldlM_pushDigit_iff (h : digits ≠ []) :
    digits.foldlM pushDigit 0 = some n ↔ StandsFor digits n.toNat := by
  rw [foldlM_pushDigit_eq_some_iff, StandsFor]
  simp [h, eq_comm]

/-- A plus is not a digit. -/
theorem not_standsFor_plus {k : Nat} : ¬ StandsFor ('+' :: digits) k := by
  rintro ⟨-, vals, hvals, -⟩
  rw [List.mapM_cons] at hvals
  cases hvals

/-- The texts of a number. -/
theorem parseU64_eq_some_iff : parseU64 s = some n ↔
    StandsFor s n.toNat ∨ ∃ digits, s = '+' :: digits ∧ StandsFor digits n.toNat := by
  unfold parseU64
  split
  case h_1 => simp [StandsFor]
  case h_2 digits =>
    constructor
    · intro h
      obtain ⟨hne, h⟩ := Option.ite_none_left_eq_some.mp h
      exact .inr ⟨digits, rfl, (foldlM_pushDigit_iff hne).mp h⟩
    · rintro (hplus | ⟨digits', heq, h⟩)
      · exact absurd hplus not_standsFor_plus
      · obtain rfl := (List.cons.inj heq).2
        rw [if_neg h.1, foldlM_pushDigit_iff h.1]
        exact h
  case h_3 hnil hplus =>
    rw [foldlM_pushDigit_iff fun h => hnil h]
    constructor
    · exact .inl
    · rintro (h | ⟨digits, heq, -⟩)
      · exact h
      · exact absurd heq (hplus digits)

end SteamWire.Decimal
