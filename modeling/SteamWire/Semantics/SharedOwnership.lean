/-!
# Values with several owners

A value that is kept by a count of its owners, as an `Arc` does: each owner that is added is
counted, and the value is dropped when the count comes to zero. As long as it counts its owners
(`Arc.Counts`), the value is dropped exactly when nobody owns it.
-/

namespace SteamWire.Semantics

/-- The count of a value's owners, and if it is dropped. -/
structure Arc where
  strong : Nat := 1
  dropped : Bool := false
  deriving DecidableEq, Repr

namespace Arc

variable {arc : Arc} {n : Nat}

/-- One more owner. -/
def clone (arc : Arc) : Arc := { arc with strong := arc.strong + 1 }

/-- One owner goes, and the last one drops the value. -/
def drop (arc : Arc) : Arc where
  strong := arc.strong - 1
  dropped := arc.dropped || arc.strong = 1

/-- The count is that of the owners. -/
structure Counts (arc : Arc) (owners : Nat) : Prop where
  strong : arc.strong = owners
  dropped : arc.dropped = true ↔ owners = 0

theorem counts_one : Counts {} 1 := ⟨rfl, by decide⟩

/-- A value is only cloned by an owner of it. -/
theorem Counts.clone (h : arc.Counts n) (hn : 0 < n) : arc.clone.Counts (n + 1) := by
  refine ⟨congrArg (· + 1) h.strong, ?_⟩
  have hdropped := h.dropped
  rw [Arc.clone]
  constructor
  · intro hd
    exact absurd (hdropped.mp hd) (Nat.ne_of_gt hn)
  · intro hzero
    cases hzero

theorem Counts.drop (h : arc.Counts (n + 1)) : arc.drop.Counts n := by
  have hdropped : arc.dropped = false := by
    cases hd : arc.dropped with
    | false => rfl
    | true => cases h.dropped.mp hd
  refine ⟨by rw [Arc.drop, h.strong, Nat.add_sub_cancel], ?_⟩
  rw [Arc.drop, hdropped, h.strong]
  simp

end Arc

end SteamWire.Semantics
