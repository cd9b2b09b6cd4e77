import SteamWire.Data.Double
import SteamWire.Data.LittleEndian
import SteamWire.Data.Str

/-!
# The expiry of a token

What `jwt` reads of a token: the number under `exp` in its second part, as seconds. Whole numbers
of either sign and numbers in double precision all come to the whole part of their value, cut to
64 bits, and a token without such a number is never expired (`isExpiredNow_iff`).
-/

namespace SteamWire

/-! ### JSON

The values of `serde_json` and the functions that `jwt` calls on them are not part of the
repository. They stand here as that library documents them: a number is kept as it is written, and
`as_u64`, `as_i64` and `as_f64` give it if it fits. Parsing is left to a parameter (`JwtCrates`).
-/

/-- `serde_json::Number`: whole numbers that are not negative, those that are, and others, which are
finite. -/
inductive JsonNumber where
  | posInt (n : UInt64)
  | negInt (n : Int64) (hn : n < 0)
  | float (x : F64) (hx : x.isFinite)
  deriving DecidableEq

namespace JsonNumber

/-- `Number::as_u64`. -/
def asU64 : JsonNumber → Option UInt64
  | .posInt n => some n
  | .negInt .. | .float .. => none

/-- `Number::as_i64`. -/
def asI64 : JsonNumber → Option Int64
  | .posInt n => if n.toNat < 2 ^ 63 then some n.toInt64 else none
  | .negInt n _ => some n
  | .float .. => none

/-- `Number::as_f64`, which rounds whole numbers to the nearest double. -/
def asF64 : JsonNumber → Option F64
  | .posInt n => some (.ofInt n.toNat)
  | .negInt n _ => some (.ofInt n.toInt)
  | .float x _ => some x

/-- The exact value of a number. -/
def value : JsonNumber → ℚ
  | .posInt n => n.toNat
  | .negInt n _ => n.toInt
  | .float x _ => x.toRat

end JsonNumber

/-- `serde_json::Value`. The members of an object have different names. -/
inductive JsonValue where
  | null
  | bool (b : Bool)
  | number (n : JsonNumber)
  | string (s : String)
  | array (items : List JsonValue)
  | object (members : List (String × JsonValue))

namespace JsonValue

/-- `Value::get` of a name. -/
def get (v : JsonValue) (key : String) : Option JsonValue :=
  match v with
  | .object members => members.lookup key
  | _ => none

/-- `Value::as_number`. -/
def number? : JsonValue → Option JsonNumber
  | .number n => some n
  | _ => none

def asU64 (v : JsonValue) : Option UInt64 := v.number?.bind JsonNumber.asU64

def asI64 (v : JsonValue) : Option Int64 := v.number?.bind JsonNumber.asI64

def asF64 (v : JsonValue) : Option F64 := v.number?.bind JsonNumber.asF64

end JsonValue

/-! ### The token -/

/-- What the crates do: decode base64 for URLs without padding, and parse JSON. -/
structure JwtCrates where
  decode : List Char → Option Bytes
  fromSlice : Bytes → Option JsonValue

/-- `u64::try_from` of an `i64`. -/
def u64TryFrom (n : Int64) : Option UInt64 := if 0 ≤ n then some n.toUInt64 else none

namespace JwtCrates

variable (crates : JwtCrates)

def expClaimUnixSecs (jwt : String) : Option UInt64 := do
  let payloadB64 ← (jwt.toList.splitOn '.')[1]?
  let bytes ← crates.decode payloadB64
  let v ← crates.fromSlice bytes
  let exp ← v.get "exp"
  exp.asU64.or ((exp.asI64.bind u64TryFrom).or (exp.asF64.map F64.toU64))

/-- The time is in seconds, and none before the epoch. -/
def isExpiredNow (jwt : String) (now : Option UInt64) : Bool :=
  match crates.expClaimUnixSecs jwt with
  | some exp => exp ≤ now.getD 0
  | none => false

/-- The number that a token gives for its expiry. -/
def HasExpiry (jwt : String) (n : JsonNumber) : Prop :=
  ∃ header base64 rest json v, jwt.toList = header ++ '.' :: rest ∧ '.' ∉ header ∧
    Str.UpTo '.' base64 rest ∧ crates.decode base64 = some json ∧
      crates.fromSlice json = some v ∧ v.get "exp" = some (.number n)

end JwtCrates

section Expiry

variable {crates : JwtCrates} {jwt : String} {secs : UInt64} {now : Option UInt64}

/-- A number comes to the whole part of its value, cut to 64 bits. -/
theorem number_seconds (n : JsonNumber) : ∃ secs,
    n.asU64.or ((n.asI64.bind u64TryFrom).or (n.asF64.map F64.toU64)) = some secs ∧
      secs.toNat = min ⌊n.value⌋₊ (2 ^ 64 - 1) := by
  cases n with
  | posInt n =>
    refine ⟨n, rfl, ?_⟩
    have hlt := n.toNat_lt
    rw [JsonNumber.value, Nat.floor_natCast]
    omega
  | negInt n hn =>
    -- it is no unsigned number, but the double next to it is cut to one
    have hneg : n.toInt < 0 := Int64.lt_iff_toInt_lt.mp hn
    have hnone : u64TryFrom n = none := if_neg (Int64.not_le.mpr hn)
    refine ⟨0, ?_, ?_⟩
    · have hcut := F64.toU64_ofInt_of_neg hneg (Int64.le_toInt n)
      simp [JsonNumber.asU64, JsonNumber.asI64, JsonNumber.asF64, hnone, hcut]
    · rw [JsonNumber.value, Nat.floor_of_nonpos (by exact_mod_cast hneg.le)]
      rfl
  | float x hx => exact ⟨x.toU64, rfl, F64.toNat_toU64 hx⟩

/-- The expiry that is read. -/
theorem expClaimUnixSecs_eq_some_iff : crates.expClaimUnixSecs jwt = some secs ↔
    ∃ n, crates.HasExpiry jwt n ∧ secs.toNat = min ⌊n.value⌋₊ (2 ^ 64 - 1) := by
  constructor
  · intro h
    obtain ⟨base64, hpart, h⟩ := Option.bind_eq_some_iff.mp h
    obtain ⟨json, hjson, h⟩ := Option.bind_eq_some_iff.mp h
    obtain ⟨v, hv, h⟩ := Option.bind_eq_some_iff.mp h
    obtain ⟨exp, hexp, h⟩ := Option.bind_eq_some_iff.mp h
    obtain ⟨header, rest, hjwt, hheader, hrest⟩ := Str.getElem?_one_splitOn_eq_some_iff.mp hpart
    cases exp with
    | number n =>
      obtain ⟨secs', hsecs', hvalue⟩ := number_seconds n
      obtain rfl := Option.some.inj (h.symm.trans hsecs')
      exact ⟨n, ⟨header, base64, rest, json, v, hjwt, hheader, hrest, hjson, hv, hexp⟩, hvalue⟩
    | null | bool | string | array | object => cases h
  · rintro ⟨n, ⟨header, base64, rest, json, v, hjwt, hheader, hrest, hjson, hv, hexp⟩, hvalue⟩
    have hpart := Str.getElem?_one_splitOn_eq_some_iff.mpr ⟨header, rest, hjwt, hheader, hrest⟩
    obtain ⟨secs', hsecs', hvalue'⟩ := number_seconds n
    obtain rfl := UInt64.toNat_inj.mp (hvalue.trans hvalue'.symm)
    exact Option.bind_eq_some_iff.mpr ⟨base64, hpart, Option.bind_eq_some_iff.mpr
      ⟨json, hjson, Option.bind_eq_some_iff.mpr ⟨v, hv, Option.bind_eq_some_iff.mpr
        ⟨_, hexp, hsecs'⟩⟩⟩⟩

/-- The tokens that are expired: those that give a number for their expiry, and the time is not
before the whole part of it. -/
theorem isExpiredNow_iff : crates.isExpiredNow jwt now = true ↔
    ∃ n, crates.HasExpiry jwt n ∧ min ⌊n.value⌋₊ (2 ^ 64 - 1) ≤ (now.getD 0).toNat := by
  unfold JwtCrates.isExpiredNow
  cases hexp : crates.expClaimUnixSecs jwt with
  | none =>
    refine ⟨fun h => (by cases h), ?_⟩
    rintro ⟨n, hn, -⟩
    obtain ⟨secs, -, hsecs⟩ := number_seconds n
    rw [expClaimUnixSecs_eq_some_iff.mpr ⟨n, hn, hsecs⟩] at hexp
    cases hexp
  | some secs =>
    obtain ⟨n, hn, hsecs⟩ := expClaimUnixSecs_eq_some_iff.mp hexp
    dsimp only
    rw [decide_eq_true_eq, UInt64.le_iff_toNat_le, hsecs]
    constructor
    · exact fun hle => ⟨n, hn, hle⟩
    · rintro ⟨n', hn', hle⟩
      -- a token gives one number only
      obtain ⟨secs', -, hsecs'⟩ := number_seconds n'
      have heq := expClaimUnixSecs_eq_some_iff.mpr ⟨n', hn', hsecs'⟩
      rw [hexp, Option.some.injEq] at heq
      rw [← hsecs, heq, hsecs']
      exact hle

end Expiry

end SteamWire
