import Mathlib.Data.List.Basic

/-!
# Growable queues

A double-ended queue with the room it has: pushing into one without room makes it grow, by an
amount that is left to the implementation, and nothing makes it shrink.
-/

namespace SteamWire

/-- The room of a queue that has to grow. -/
structure Growth where
  grow : Nat → Nat
  lt_grow : ∀ capacity, capacity < grow capacity

/-- A queue, front first. -/
structure VecDeque (α : Type*) where
  items : List α
  capacity : Nat
  length_le : items.length ≤ capacity

namespace VecDeque

variable {α : Type*}

def withCapacity (capacity : Nat) : VecDeque α := ⟨[], capacity, Nat.zero_le _⟩

def len (d : VecDeque α) : Nat := d.items.length

def popFront (d : VecDeque α) : Option α × VecDeque α :=
  (d.items.head?, ⟨d.items.tail, d.capacity, by
    rw [List.length_tail]
    exact Nat.le_trans (Nat.sub_le ..) d.length_le⟩)

def pushBack (growth : Growth) (d : VecDeque α) (item : α) : VecDeque α where
  items := d.items ++ [item]
  capacity := if d.items.length < d.capacity then d.capacity else growth.grow d.capacity
  length_le := by
    have hle := d.length_le
    have hgrow := growth.lt_grow d.capacity
    rw [List.length_append, List.length_singleton]
    split_ifs <;> omega

def clear (d : VecDeque α) : VecDeque α := ⟨[], d.capacity, Nat.zero_le _⟩

variable {growth : Growth} {d : VecDeque α}

@[simp] theorem items_popFront : d.popFront.2.items = d.items.tail := rfl

@[simp] theorem capacity_popFront : d.popFront.2.capacity = d.capacity := rfl

@[simp] theorem items_pushBack (item : α) : (d.pushBack growth item).items = d.items ++ [item] :=
  rfl

/-- A queue with room keeps the room it has. -/
theorem capacity_pushBack_of_lt (h : d.items.length < d.capacity) (item : α) :
    (d.pushBack growth item).capacity = d.capacity := if_pos h

end VecDeque

end SteamWire
