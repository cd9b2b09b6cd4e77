import Mathlib.Data.List.Basic

/-!
# Ring buffers

A queue of bounded size: pushing into a full one drops the oldest item. Nothing is lost or
doubled: what goes in comes out, or is held, in the order it went in (`RingBuffer.call_conserves`).
-/

namespace SteamWire

/-- A ring buffer, oldest item first. -/
structure RingBuffer (α : Type*) where
  capacity : Nat
  items : List α := []

/-- The calls on a ring buffer. -/
inductive RingCall (α : Type*) where
  | push (item : α)
  | pop
  | take
  deriving DecidableEq, Repr

/-- The items that a call brings in. -/
def RingCall.pushed {α : Type*} : RingCall α → List α
  | .push item => [item]
  | .pop | .take => []

/-- What a call gives back when the buffer holds `held`: a push into a full buffer the oldest
item, a pop the oldest item if there is one, and a take all items. -/
def RingCall.gives {α : Type*} (capacity : Nat) (held : List α) : RingCall α → List α
  | .push _ => if held.length = capacity then held.take 1 else []
  | .pop => held.take 1
  | .take => held

namespace RingBuffer

variable {α : Type*}

def new (capacity : Nat) : RingBuffer α := { capacity }

/-- Add an item; gives the item that had to make room for it. -/
def push (b : RingBuffer α) (item : α) : Option α × RingBuffer α :=
  if b.items.length = b.capacity then
    (b.items.head?, { b with items := b.items.tail ++ [item] })
  else (none, { b with items := b.items ++ [item] })

/-- Take the oldest item out. -/
def pop (b : RingBuffer α) : Option α × RingBuffer α :=
  (b.items.head?, { b with items := b.items.tail })

/-- Take all items out. -/
def take (b : RingBuffer α) : List α × RingBuffer α := (b.items, { b with items := [] })

/-- A call, with the items that it gives back. -/
def call (b : RingBuffer α) : RingCall α → List α × RingBuffer α
  | .push item => ((b.push item).1.toList, (b.push item).2)
  | .pop => (b.pop.1.toList, b.pop.2)
  | .take => b.take

variable {b : RingBuffer α}

theorem push_of_full (h : b.items.length = b.capacity) (item : α) :
    b.push item = (b.items.head?, { b with items := b.items.tail ++ [item] }) := if_pos h

theorem push_of_lt (h : b.items.length < b.capacity) (item : α) :
    b.push item = (none, { b with items := b.items ++ [item] }) :=
  if_neg (Nat.ne_of_lt h)

theorem head?_toList_append_tail (items : List α) : items.head?.toList ++ items.tail = items := by
  cases items <;> rfl

/-- What is held and what comes in is what goes out and what is held then, in this order. -/
theorem call_conserves (c : RingCall α) :
    b.items ++ c.pushed = (b.call c).1 ++ (b.call c).2.items := by
  cases c with
  | push item =>
    simp only [call, push, RingCall.pushed]
    split_ifs with hfull
    · -- the oldest item goes out in front of the others
      rw [← List.append_assoc, head?_toList_append_tail]
    · rfl
  | pop => simp [call, pop, RingCall.pushed, head?_toList_append_tail]
  | take => simp [call, take, RingCall.pushed]

theorem call_fst (c : RingCall α) : (b.call c).1 = c.gives b.capacity b.items := by
  cases c with
  | push item =>
    simp only [call, push, RingCall.gives, List.take_one]
    split_ifs <;> rfl
  | pop => exact List.take_one.symm
  | take => rfl

@[simp] theorem capacity_call (c : RingCall α) : (b.call c).2.capacity = b.capacity := by
  cases c with
  | push item =>
    simp only [call, push]
    split_ifs <;> rfl
  | pop | take => rfl

end RingBuffer

end SteamWire
