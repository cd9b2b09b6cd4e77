import Mathlib.Tactic.Ring
import SteamWire.Data.LittleEndian

/-!
# The protobuf wire format

A message on the wire is a sequence of records, each a field number with a value
in one of four shapes. This file writes and parses such sequences and proves that
parsing undoes writing. What a message type does with the records (which fields
it knows, what it does with the others) is left to its user.

## Main results

* `readVarint_varint` — a varint is read back, whatever follows it
* `parse_write` — a list of well-formed records is parsed back exactly
-/

namespace SteamWire.Protobuf

/-! ### Varints -/

/-- The base-128 groups of `n`, at most `fuel` of them, low group first. -/
def groups : Nat → Nat → Bytes
  | 0, _ => []
  | fuel + 1, n =>
    if n < 128 then [UInt8.ofNat n] else UInt8.ofNat (n % 128 + 128) :: groups fuel (n / 128)

/-- Read at most `fuel` base-128 groups. -/
def readGroups : Nat → Bytes → Option (Nat × Bytes)
  | 0, _ => none
  | _ + 1, [] => none
  | fuel + 1, b :: bytes =>
    if b.toNat < 128 then some (b.toNat, bytes)
    else (readGroups fuel bytes).map fun (n, rest) => (b.toNat - 128 + 128 * n, rest)

theorem readGroups_groups {fuel n : Nat} (h : n < 128 ^ (fuel + 1)) (rest : Bytes) :
    readGroups (fuel + 1) (groups (fuel + 1) n ++ rest) = some (n, rest) := by
  induction fuel generalizing n with
  | zero =>
    have hsmall : n < 128 := by simpa using h
    have hbyte : (UInt8.ofNat n).toNat = n := by
      rw [UInt8.toNat_ofNat', Nat.mod_eq_of_lt (by omega)]
    simp [groups, readGroups, hsmall, hbyte]
  | succ fuel ih =>
    -- the low group, and the others behind it when there are any
    rw [groups]
    by_cases hsmall : n < 128
    · have hbyte : (UInt8.ofNat n).toNat = n := by
        rw [UInt8.toNat_ofNat', Nat.mod_eq_of_lt (by omega)]
      simp [readGroups, hsmall, hbyte]
    · have hbyte : (UInt8.ofNat (n % 128 + 128)).toNat = n % 128 + 128 := by
        rw [UInt8.toNat_ofNat', Nat.mod_eq_of_lt (by omega)]
      have hrest : n / 128 < 128 ^ (fuel + 1) := by
        rw [Nat.div_lt_iff_lt_mul (by omega), ← pow_succ]
        exact h
      rw [if_neg hsmall, List.cons_append, readGroups, if_neg (by omega), ih hrest, hbyte]
      simp only [Option.map_some, Option.some.injEq, Prod.mk.injEq, and_true]
      omega

theorem groups_ne_nil (fuel n : Nat) : groups (fuel + 1) n ≠ [] := by
  rw [groups]
  split <;> simp

/-- A varint of at most ten groups. -/
def varint (n : Nat) : Bytes := groups 10 n

/-- Read a varint; more than ten groups or more than 64 bits is an error. -/
def readVarint (bytes : Bytes) : Option (Nat × Bytes) :=
  match readGroups 10 bytes with
  | some (n, rest) => if n < 2 ^ 64 then some (n, rest) else none
  | none => none

theorem readVarint_varint {n : Nat} (h : n < 2 ^ 64) (rest : Bytes) :
    readVarint (varint n ++ rest) = some (n, rest) := by
  have hlt : n < 128 ^ (9 + 1) := h.trans_le (by decide)
  rw [readVarint, varint, readGroups_groups hlt]
  exact if_pos h

/-! ### Records -/

/-- A field value, by wire type. -/
inductive Value where
  | varint (n : UInt64)
  | fixed64 (n : UInt64)
  | bytes (b : Bytes)
  | fixed32 (n : UInt32)
  deriving DecidableEq, Repr

namespace Value

def wireType : Value → Nat
  | .varint _ => 0
  | .fixed64 _ => 1
  | .bytes _ => 2
  | .fixed32 _ => 5

def write : Value → Bytes
  | .varint n => Protobuf.varint n.toNat
  | .fixed64 n => LittleEndian.u64 n
  | .bytes b => Protobuf.varint b.length ++ b
  | .fixed32 n => LittleEndian.u32 n

end Value

/-- A field number with its value. -/
structure Record where
  number : Nat
  value : Value
  deriving DecidableEq, Repr

/-- Field numbers fit the key, and a byte string fits its length prefix. -/
def Record.WellFormed (r : Record) : Prop :=
  1 ≤ r.number ∧ r.number < 2 ^ 29 ∧ ∀ b, r.value = .bytes b → b.length < 2 ^ 64

def Record.write (r : Record) : Bytes :=
  varint (r.number * 8 + r.value.wireType) ++ r.value.write

/-- Write the records one after the other. -/
def write (records : List Record) : Bytes := records.flatMap Record.write

/-- Split off the first `n` bytes, if there are as many. -/
def take? (n : Nat) (bytes : Bytes) : Option (Bytes × Bytes) :=
  if n ≤ bytes.length then some (bytes.take n, bytes.drop n) else none

/-- Read the value of a record of the given wire type. -/
def readValue (wireType : Nat) (bytes : Bytes) : Option (Value × Bytes) :=
  match wireType with
  | 0 => (readVarint bytes).map fun (n, rest) => (.varint (UInt64.ofNat n), rest)
  | 1 => (take? 8 bytes).map fun (b, rest) =>
      (.fixed64 (UInt64.ofNat (LittleEndian.decode b)), rest)
  | 2 => (readVarint bytes).bind fun (n, rest) =>
      (take? n rest).map fun (b, rest) => (.bytes b, rest)
  | 5 => (take? 4 bytes).map fun (b, rest) =>
      (.fixed32 (UInt32.ofNat (LittleEndian.decode b)), rest)
  | _ => none

/-- Read one record. -/
def readRecord (bytes : Bytes) : Option (Record × Bytes) :=
  (readVarint bytes).bind fun (key, rest) =>
    if 8 ≤ key ∧ key < 2 ^ 32 then
      (readValue (key % 8) rest).map fun (value, rest) => (⟨key / 8, value⟩, rest)
    else none

/-- Read at most `fuel` records, to the end of the input. -/
def readRecords : Nat → Bytes → Option (List Record)
  | _, [] => some []
  | 0, _ :: _ => none
  | fuel + 1, b :: bytes =>
    (readRecord (b :: bytes)).bind fun (r, rest) => (readRecords fuel rest).map (r :: ·)

/-- Parse a message; it has no more records than bytes. -/
def parse (bytes : Bytes) : Option (List Record) := readRecords bytes.length bytes

section RoundTrip

theorem take?_append (front back : Bytes) :
    take? front.length (front ++ back) = some (front, back) := by
  simp [take?]

theorem take?_of_length {n : Nat} {front : Bytes} (h : front.length = n) (back : Bytes) :
    take? n (front ++ back) = some (front, back) := by
  rw [← h, take?_append]

theorem readValue_write {v : Value} (h : ∀ b, v = .bytes b → b.length < 2 ^ 64)
    (rest : Bytes) : readValue v.wireType (v.write ++ rest) = some (v, rest) := by
  cases v with
  | varint n =>
    simp [readValue, Value.wireType, Value.write, readVarint_varint n.toNat_lt]
  | fixed64 n =>
    simp [readValue, Value.wireType, Value.write, take?_of_length (LittleEndian.length_u64 n)]
  | bytes b =>
    simp [readValue, Value.wireType, Value.write, readVarint_varint (h b rfl), take?_append]
  | fixed32 n =>
    simp [readValue, Value.wireType, Value.write, take?_of_length (LittleEndian.length_u32 n)]

theorem Value.wireType_lt (v : Value) : v.wireType < 8 := by
  cases v <;> simp [Value.wireType]

theorem readRecord_write {r : Record} (h : r.WellFormed) (rest : Bytes) :
    readRecord (r.write ++ rest) = some (r, rest) := by
  obtain ⟨hpos, hlt, hbytes⟩ := h
  have hwire := r.value.wireType_lt
  have hkey : r.number * 8 + r.value.wireType < 2 ^ 64 := by omega
  have hmod : (r.number * 8 + r.value.wireType) % 8 = r.value.wireType := by omega
  have hdiv : (r.number * 8 + r.value.wireType) / 8 = r.number := by omega
  rw [readRecord, Record.write, List.append_assoc, readVarint_varint hkey, Option.bind_some]
  dsimp only
  rw [if_pos (by omega), hmod, hdiv, readValue_write hbytes]
  rfl

theorem Record.write_ne_nil (r : Record) : r.write ≠ [] := by
  simp [Record.write, varint, groups_ne_nil]

theorem readRecords_write {records : List Record} (h : ∀ r ∈ records, r.WellFormed)
    {fuel : Nat} (hfuel : records.length ≤ fuel) :
    readRecords fuel (write records) = some records := by
  induction records generalizing fuel with
  | nil => cases fuel <;> rfl
  | cons r records ih =>
    obtain ⟨fuel, rfl⟩ : ∃ f, fuel = f + 1 := ⟨fuel - 1, by grind⟩
    have hread := readRecord_write (h r List.mem_cons_self) (write records)
    have hrest := @ih (fun r hr => h r (List.mem_cons_of_mem _ hr)) fuel (by grind)
    rw [show write (r :: records) = r.write ++ write records from List.flatMap_cons ..]
    -- a record is not empty, so the reader spends fuel on it
    cases hbytes : r.write ++ write records with
    | nil => exact absurd (List.append_eq_nil_iff.mp hbytes).1 r.write_ne_nil
    | cons b bytes =>
      rw [readRecords, ← hbytes, hread, Option.bind_some]
      dsimp only
      rw [hrest]
      rfl

theorem length_le_length_write (records : List Record) :
    records.length ≤ (write records).length := by
  induction records with
  | nil => simp
  | cons r records ih =>
    have hpos := List.length_pos_iff.mpr r.write_ne_nil
    rw [show write (r :: records) = r.write ++ write records from List.flatMap_cons ..,
      List.length_append, List.length_cons]
    omega

/-- Parsing undoes writing. -/
theorem parse_write {records : List Record} (h : ∀ r ∈ records, r.WellFormed) :
    parse (write records) = some records :=
  readRecords_write h (length_le_length_write records)

/-! ### Optional fields -/

section OptionalField

variable {M α : Type*} {o : Option α} {record : α → Record}

/-- Merging the record of an optional field that was absent sets it. -/
theorem foldlM_optionalField (merge : M → Record → Option M) (o : Option α) (record : α → Record)
    (set : M → Option α → M) (hsome : ∀ m x, merge m (record x) = some (set m (some x))) {m : M}
    (hnone : set m none = m) : (o.map record).toList.foldlM merge m = some (set m o) := by
  cases o with
  | none => simp [hnone]
  | some x => simp [hsome]

theorem exists_of_mem_optionalField {r : Record} (h : r ∈ (o.map record).toList) :
    ∃ x, o = some x ∧ r = record x := by
  cases o with
  | none => simp at h
  | some x => exact ⟨x, rfl, by simpa using h⟩

end OptionalField

/-- A record is part of what is written. -/
theorem length_write_le_of_mem {records : List Record} {r : Record} (h : r ∈ records) :
    r.write.length ≤ (write records).length := by
  obtain ⟨before, after, hrecords⟩ := List.append_of_mem h
  simp only [hrecords, write, List.flatMap_append, List.flatMap_cons, List.length_append]
  omega

theorem length_groups_le (fuel n : Nat) : (groups fuel n).length ≤ fuel := by
  induction fuel generalizing n with
  | zero => simp [groups]
  | succ fuel ih =>
    rw [groups]
    split_ifs
    · simp
    · simpa using ih (n / 128)

/-- Numbers take up little room. -/
theorem Record.length_write_le {r : Record} (h : ∀ b, r.value ≠ .bytes b) :
    r.write.length ≤ 20 := by
  have hkey : (varint (r.number * 8 + r.value.wireType)).length ≤ 10 := length_groups_le ..
  rw [Record.write, List.length_append]
  cases hvalue : r.value with
  | varint n =>
    have hn : (varint n.toNat).length ≤ 10 := length_groups_le ..
    rw [hvalue] at hkey
    simp only [Value.write]
    omega
  | fixed64 n =>
    rw [hvalue] at hkey
    simp only [Value.write, LittleEndian.length_u64]
    omega
  | bytes b => exact absurd hvalue (h b)
  | fixed32 n =>
    rw [hvalue] at hkey
    simp only [Value.write, LittleEndian.length_u32]
    omega

theorem length_write_le {records : List Record} (h : ∀ r ∈ records, ∀ b, r.value ≠ .bytes b) :
    (write records).length ≤ 20 * records.length := by
  induction records with
  | nil => simp [write]
  | cons r records ih =>
    have hfirst := Record.length_write_le (h r List.mem_cons_self)
    have hrest := ih fun r hr => h r (List.mem_cons_of_mem _ hr)
    rw [show write (r :: records) = r.write ++ write records from List.flatMap_cons ..,
      List.length_append, List.length_cons]
    omega

theorem length_le_length_write_bytes (number : Nat) (b : Bytes) :
    b.length ≤ (Record.write ⟨number, .bytes b⟩).length := by
  simp only [Record.write, Value.write, List.length_append]
  omega

end RoundTrip

end SteamWire.Protobuf
