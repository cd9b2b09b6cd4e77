import Mathlib.Data.List.Basic
import Mathlib.Data.List.DropRight

/-!
# Channels

A message channel seen from its receiving end: everything that was ever sent into
it, how much of that the receiver has taken, and whether the receiver still exists.
The inbox only grows, so what a receiver got is never forgotten. A bounded sender
waits while `capacity` messages are unread.
-/

namespace SteamWire.Semantics

/-- The receiving end of a channel. -/
structure Channel (α : Type*) where
  alive : Bool := false
  inbox : List α := []
  taken : Nat := 0

namespace Channel

variable {α : Type*} (c : Channel α)

/-- The messages the receiver has not taken yet. -/
def unread : List α := c.inbox.drop c.taken

/-- A bounded channel without room. -/
def IsFull (capacity : Nat) : Prop := capacity ≤ c.unread.length

instance (capacity : Nat) : Decidable (c.IsFull capacity) :=
  inferInstanceAs (Decidable (_ ≤ _))

def push (x : α) : Channel α := { c with inbox := c.inbox ++ [x] }

/-- The receiver goes away. -/
def close : Channel α := { c with alive := false }

/-- The receiver takes the next message. -/
def recv : Option (α × Channel α) :=
  match c.unread with
  | [] => none
  | x :: _ => some (x, { c with taken := c.taken + 1 })

/-- The receiver of a lossy channel takes the next of the last `capacity` messages. -/
def recvLast (capacity : Nat) : Option (α × Channel α) :=
  { c with taken := max c.taken (c.inbox.length - capacity) }.recv

@[simp] theorem push_alive (x : α) : (c.push x).alive = c.alive := rfl
@[simp] theorem push_inbox (x : α) : (c.push x).inbox = c.inbox ++ [x] := rfl
@[simp] theorem push_taken (x : α) : (c.push x).taken = c.taken := rfl
@[simp] theorem close_alive : c.close.alive = false := rfl
@[simp] theorem close_inbox : c.close.inbox = c.inbox := rfl
@[simp] theorem close_taken : c.close.taken = c.taken := rfl
@[simp] theorem close_unread : c.close.unread = c.unread := rfl

variable {c}

/-- Taking a message keeps the inbox and the receiver. -/
theorem of_recv_eq_some {x : α} {d : Channel α} (h : c.recv = some (x, d)) :
    x ∈ c.inbox ∧ d = { c with taken := c.taken + 1 } := by
  unfold recv at h
  split at h
  · cases h
  · rename_i y rest hunread
    rw [Option.some.injEq, Prod.mk.injEq] at h
    obtain ⟨rfl, rfl⟩ := h
    exact ⟨List.mem_of_mem_drop (hunread ▸ List.mem_cons_self), rfl⟩

/-- The message that is taken is the next in the inbox. -/
theorem getElem?_of_recv {x : α} {d : Channel α} (h : c.recv = some (x, d)) :
    c.inbox[c.taken]? = some x := by
  unfold recv at h
  split at h
  · cases h
  · rename_i y rest hunread
    obtain ⟨rfl, -⟩ := Prod.mk.inj (Option.some.inj h)
    rw [← List.head?_drop, ← unread, hunread, List.head?_cons]

/-- The receiver takes the first of the messages it has not taken. -/
theorem unread_of_recv {x : α} {d : Channel α} (h : c.recv = some (x, d)) :
    c.unread = x :: d.unread := by
  have hget := getElem?_of_recv h
  obtain ⟨hlt, rfl⟩ := List.getElem?_eq_some_iff.mp hget
  obtain ⟨-, rfl⟩ := of_recv_eq_some h
  exact List.drop_eq_getElem_cons hlt

/-- The receiver of a lossy channel takes the first of the last messages. -/
theorem unread_of_recvLast {capacity : Nat} {x : α} {d : Channel α}
    (h : c.recvLast capacity = some (x, d)) :
    c.unread.rtake capacity = x :: d.unread := by
  rw [← unread_of_recv h, List.rtake, unread, unread, List.drop_drop, List.length_drop]
  congr 1
  dsimp only
  omega

theorem unread_push (h : c.taken ≤ c.inbox.length) (x : α) :
    (c.push x).unread = c.unread ++ [x] :=
  List.drop_append_of_le_length h

end Channel

end SteamWire.Semantics
