import Mathlib.Data.List.Infix

/-!
# Streams

A reader takes items one by one, and what it makes of an item tells if the stream goes on:
it gives an item out and goes on, it gives an item out and is complete, or it cannot read
an item and fails. `streamed` says what it gives out of a list of items and how it ends.
-/

namespace SteamWire.Semantics

variable {α ε : Type*}

/-- What a reader gives out of some items, and how the stream ends on them: not yet, complete,
or with the error of an item. -/
def streamed (respond : α → Except ε Bool) : List α → List α × Option (Option ε)
  | [] => ([], none)
  | x :: xs =>
    match respond x with
    | .ok false => (x :: (streamed respond xs).1, (streamed respond xs).2)
    | .ok true => ([x], some none)
    | .error e => ([], some (some e))

variable {respond : α → Except ε Bool} {xs ys : List α}

/-- The reader gets to the second part of the items if the stream does not end on the first. -/
theorem streamed_append (xs ys : List α) :
    streamed respond (xs ++ ys) =
      if (streamed respond xs).2 = none then
        (xs ++ (streamed respond ys).1, (streamed respond ys).2)
      else streamed respond xs := by
  induction xs with
  | nil => simp [streamed]
  | cons x xs ih =>
    cases hx : respond x with
    | error e => simp [streamed, hx]
    | ok completed =>
      cases completed with
      | true => simp [streamed, hx]
      | false =>
        simp only [List.cons_append, streamed, hx, ih]
        split_ifs <;> rfl

/-- As long as the stream goes on, all items are given out. -/
theorem streamed_eq_of_snd_eq_none (h : (streamed respond xs).2 = none) :
    streamed respond xs = (xs, none) := by
  have happend := @streamed_append α ε respond xs []
  rw [if_pos h, List.append_nil] at happend
  simpa [streamed] using happend

/-- Items behind the end do not matter. -/
theorem streamed_eq_of_le (hle : xs <+: ys) (h : (streamed respond xs).2 ≠ none) :
    streamed respond ys = streamed respond xs := by
  obtain ⟨zs, rfl⟩ := hle
  rw [streamed_append, if_neg h]

/-- More items give out no less. -/
theorem streamed_fst_mono (hle : xs <+: ys) :
    (streamed respond xs).1 <+: (streamed respond ys).1 := by
  by_cases h : (streamed respond xs).2 = none
  · obtain ⟨zs, rfl⟩ := hle
    rw [streamed_append, if_pos h, streamed_eq_of_snd_eq_none h]
    exact List.prefix_append _ _
  · rw [streamed_eq_of_le hle h]

/-- How the stream stands after one more item. -/
def endingAfter : Except ε Bool → Option (Option ε)
  | .ok false => none
  | .ok true => some none
  | .error e => some (some e)

/-- The next item of a stream that goes on is given out if it can be read. -/
theorem streamed_concat
    (h : streamed respond xs = (xs.filter fun x => (respond x).isOk, none)) (x : α) :
    streamed respond (xs ++ [x]) =
      ((xs ++ [x]).filter fun x => (respond x).isOk, endingAfter (respond x)) := by
  have hgoes : (streamed respond xs).2 = none := by rw [h]
  -- until now every item was given out
  have hall : (xs.filter fun x => (respond x).isOk) = xs :=
    congrArg Prod.fst (h.symm.trans (streamed_eq_of_snd_eq_none hgoes))
  rw [streamed_append, if_pos hgoes, List.filter_append, hall]
  cases hx : respond x with
  | error e => simp [streamed, endingAfter, hx, Except.isOk, Except.toBool]
  | ok completed =>
    cases completed <;> simp [streamed, endingAfter, hx, Except.isOk, Except.toBool]

end SteamWire.Semantics
