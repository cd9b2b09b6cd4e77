import SteamWire.Data.LittleEndian

/-!
# Reading from a byte cursor

A cursor is a byte string with a position, as `std::io::Cursor`: seeking may move
the position past the end, and only a later read notices. Reads of an exact
length either return that many bytes or fail; a plain read returns what is there.

The lemmas describe a read by the bytes that are left (`Cursor.rest`), so that a
writer's output is read back field by field.
-/

namespace SteamWire

/-- A reader over a byte string, at a position that may lie past its end. -/
structure Cursor where
  bytes : Bytes
  pos : Nat
  deriving DecidableEq, Repr

namespace Cursor

/-- The bytes that are still to be read. -/
def rest (c : Cursor) : Bytes := c.bytes.drop c.pos

/-- Skip `n` bytes, whether they exist or not. -/
def seekCurrent (c : Cursor) (n : Nat) : Cursor := { c with pos := c.pos + n }

/-- Read up to `n` bytes. -/
def read (c : Cursor) (n : Nat) : Bytes × Cursor :=
  (c.rest.take n, c.seekCurrent (min n c.rest.length))

/-- Read exactly `n` bytes; `none` is the end of the input. -/
def readExact (c : Cursor) (n : Nat) : Option (Bytes × Cursor) :=
  if n ≤ c.rest.length then some (c.rest.take n, c.seekCurrent n) else none

def readU32 (c : Cursor) : Option (UInt32 × Cursor) :=
  (c.readExact 4).map fun (b, c) => (UInt32.ofNat (LittleEndian.decode b), c)

def readU64 (c : Cursor) : Option (UInt64 × Cursor) :=
  (c.readExact 8).map fun (b, c) => (UInt64.ofNat (LittleEndian.decode b), c)

def readI32 (c : Cursor) : Option (Int32 × Cursor) :=
  (c.readExact 4).map fun (b, c) => (Int32.ofNat (LittleEndian.decode b), c)

theorem length_rest (c : Cursor) : c.rest.length = c.bytes.length - c.pos := List.length_drop

@[simp] theorem rest_seekCurrent (c : Cursor) (n : Nat) :
    (c.seekCurrent n).rest = c.rest.drop n := by
  simp [rest, seekCurrent, List.drop_drop]

/-- Seeking over the first part of what is left leaves the second. -/
theorem rest_seekCurrent_of_append {c : Cursor} {front back : Bytes} {n : Nat}
    (h : c.rest = front ++ back) (hlen : front.length = n) : (c.seekCurrent n).rest = back := by
  rw [rest_seekCurrent, h, List.drop_left' hlen]

@[simp] theorem bytes_seekCurrent (c : Cursor) (n : Nat) :
    (c.seekCurrent n).bytes = c.bytes := rfl

@[simp] theorem pos_seekCurrent (c : Cursor) (n : Nat) :
    (c.seekCurrent n).pos = c.pos + n := rfl

/-- A plain read takes its bytes off the front of what is left. -/
theorem rest_eq_read_append (c : Cursor) (n : Nat) : c.rest = (c.read n).1 ++ (c.read n).2.rest := by
  rw [read, rest_seekCurrent, ← List.drop_eq_drop_min, List.take_append_drop]

/-- A plain read gives nothing only at the end. -/
theorem rest_eq_nil_of_read {c : Cursor} {n : Nat} (hn : 0 < n) (h : (c.read n).1 = []) :
    c.rest = [] :=
  (List.take_eq_nil_iff.mp h).resolve_left hn.ne'

/-- An exact read succeeds when the bytes are there, and moves the position by as many. -/
theorem readExact_of_append {c : Cursor} {front back : Bytes} (h : c.rest = front ++ back) :
    c.readExact front.length = some (front, c.seekCurrent front.length) := by
  simp [readExact, h]

theorem readExact_eq_none {c : Cursor} {n : Nat} :
    c.readExact n = none ↔ c.bytes.length - c.pos < n := by
  simp [readExact, length_rest]

theorem readExact_of_le {c : Cursor} {n : Nat} (h : n ≤ c.bytes.length - c.pos) :
    c.readExact n = some (c.rest.take n, c.seekCurrent n) := by
  rw [readExact, length_rest, if_pos h]

theorem readU32_of_le {c : Cursor} (h : 4 ≤ c.bytes.length - c.pos) :
    c.readU32 = some (UInt32.ofNat (LittleEndian.decode (c.rest.take 4)), c.seekCurrent 4) := by
  rw [readU32, readExact_of_le h]
  rfl

theorem readU64_of_le {c : Cursor} (h : 8 ≤ c.bytes.length - c.pos) :
    c.readU64 = some (UInt64.ofNat (LittleEndian.decode (c.rest.take 8)), c.seekCurrent 8) := by
  rw [readU64, readExact_of_le h]
  rfl

theorem readI32_of_le {c : Cursor} (h : 4 ≤ c.bytes.length - c.pos) :
    c.readI32 = some (Int32.ofNat (LittleEndian.decode (c.rest.take 4)), c.seekCurrent 4) := by
  rw [readI32, readExact_of_le h]
  rfl

theorem readU32_of_lt {c : Cursor} (h : c.bytes.length - c.pos < 4) : c.readU32 = none := by
  rw [readU32, readExact_eq_none.mpr h]
  rfl

theorem readU64_of_lt {c : Cursor} (h : c.bytes.length - c.pos < 8) : c.readU64 = none := by
  rw [readU64, readExact_eq_none.mpr h]
  rfl

theorem readI32_of_lt {c : Cursor} (h : c.bytes.length - c.pos < 4) : c.readI32 = none := by
  rw [readI32, readExact_eq_none.mpr h]
  rfl

theorem readU64_of_append {c : Cursor} {x : UInt64} {back : Bytes}
    (h : c.rest = LittleEndian.u64 x ++ back) : c.readU64 = some (x, c.seekCurrent 8) := by
  have hread := readExact_of_append h
  rw [LittleEndian.length_u64] at hread
  simp [readU64, hread]

theorem readI32_of_append {c : Cursor} {x : Int32} {back : Bytes}
    (h : c.rest = LittleEndian.i32 x ++ back) : c.readI32 = some (x, c.seekCurrent 4) := by
  have hread := readExact_of_append h
  rw [LittleEndian.length_i32] at hread
  simp [readI32, hread]

end Cursor

end SteamWire
