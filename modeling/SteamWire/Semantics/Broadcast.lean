import Mathlib.Algebra.Ring.Nat
import SteamWire.Semantics.Channel

/-!
# Lossy channels

A broadcast channel keeps the last `capacity` items for each of its receivers. A receiver
with more than that unread has lost the oldest of them: it is told how many, and goes on with
those that are left. `Reports` relates what a receiver is told to the items that were sent: it
got an item, or so many were lost. Items come in order, and the numbers add up to the others.
-/

namespace SteamWire.Semantics

variable {α : Type*}

/-- What a receiver is told when it takes something: an item, or how many it lost. -/
abbrev Report (α : Type*) := Except Nat α

namespace Report

/-- The items that were got. -/
def got (log : List (Report α)) : List α := log.filterMap Except.toOption

/-- How many items a report counts as lost. -/
def gap : Report α → Nat
  | .ok _ => 0
  | .error lost => lost

/-- How many items were lost. -/
def lost (log : List (Report α)) : Nat := (log.map gap).sum

theorem got_append (log log' : List (Report α)) : got (log ++ log') = got log ++ got log' :=
  List.filterMap_append

@[simp] theorem got_concat_ok (log : List (Report α)) (x : α) :
    got (log ++ [.ok x]) = got log ++ [x] := got_append ..

@[simp] theorem got_concat_error (log : List (Report α)) (n : Nat) :
    got (log ++ [.error n]) = got log := by
  rw [got_append]
  exact List.append_nil _

@[simp] theorem lost_concat_ok (log : List (Report α)) (x : α) :
    lost (log ++ [.ok x]) = lost log := by
  simp [lost, gap]

@[simp] theorem lost_concat_error (log : List (Report α)) (n : Nat) :
    lost (log ++ [.error n]) = lost log + n := by
  simp [lost, gap]

end Report

/-- What the receiver was told fits the items that were sent. -/
inductive Reports : List (Report α) → List α → Prop
  | nil : Reports [] []
  | got {log xs} (h : Reports log xs) (x : α) : Reports (log ++ [.ok x]) (xs ++ [x])
  | lost {log xs} (h : Reports log xs) (ys : List α) (hys : ys ≠ []) :
      Reports (log ++ [.error ys.length]) (xs ++ ys)

namespace Reports

variable {log : List (Report α)} {xs : List α}

/-- Items are got in the order in which they were sent. -/
theorem sublist (h : Reports log xs) : (Report.got log).Sublist xs := by
  induction h with
  | nil => exact List.Sublist.refl _
  | got _ x ih =>
    rw [Report.got_concat_ok]
    exact ih.append (List.Sublist.refl _)
  | lost _ ys _ ih =>
    rw [Report.got_concat_error]
    exact ih.trans (List.sublist_append_left _ _)

/-- Every item was got or is counted as lost. -/
theorem length_eq (h : Reports log xs) : xs.length = (Report.got log).length + Report.lost log := by
  induction h with
  | nil => rfl
  | got _ x ih =>
    rw [Report.got_concat_ok, Report.lost_concat_ok, List.length_append, List.length_append, ih,
      List.length_singleton]
    omega
  | lost _ ys _ ih =>
    rw [Report.got_concat_error, Report.lost_concat_error, List.length_append, ih]
    omega

/-- A receiver got all items when none is counted as lost. -/
theorem got_eq_iff (h : Reports log xs) : Report.got log = xs ↔ Report.lost log = 0 := by
  have hlen := h.length_eq
  constructor
  · intro heq
    rw [heq] at hlen
    omega
  · intro hnone
    rw [hnone, Nat.add_zero] at hlen
    exact h.sublist.eq_of_length hlen.symm

/-- The next `m` items are lost. -/
theorem lost_take {n m : Nat} (h : Reports log (xs.take n)) (hle : n + m ≤ xs.length)
    (hm : 0 < m) : Reports (log ++ [.error m]) (xs.take (n + m)) := by
  have hlen : ((xs.drop n).take m).length = m := by
    rw [List.length_take, List.length_drop]
    omega
  have hlost := h.lost ((xs.drop n).take m) fun hnil => by
    rw [hnil] at hlen
    exact hm.ne hlen
  rwa [hlen, ← List.take_add] at hlost

end Reports

namespace Channel

variable {c d : Channel α} {capacity : Nat} {report : Report α}

variable (c capacity) in
/-- The receiver of a lossy channel takes what comes next: the next item, or the news that it
lost some. -/
def poll : Option (Report α × Channel α) :=
  if capacity < c.unread.length then
    some (.error (c.unread.length - capacity), { c with taken := c.inbox.length - capacity })
  else c.recv.map fun (x, d) => (.ok x, d)

/-- The log of a receiver tells what it took. -/
structure Logs (c : Channel α) (log : List (Report α)) : Prop where
  taken_le : c.taken ≤ c.inbox.length
  reports : Reports log (c.inbox.take c.taken)

theorem logs_nil (h : c.taken = 0) : c.Logs [] where
  taken_le := h ▸ Nat.zero_le _
  reports := by
    rw [h]
    exact .nil

/-- Items that are sent do not change what was taken. -/
theorem Logs.of_prefix {log : List (Report α)} (h : c.Logs log) (hle : c.inbox <+: d.inbox)
    (htaken : d.taken = c.taken) : d.Logs log where
  taken_le := htaken ▸ h.taken_le.trans hle.length_le
  reports := by
    obtain ⟨rest, hrest⟩ := hle
    rw [← hrest, htaken, List.take_append_of_le_length h.taken_le]
    exact h.reports

/-- The items stay where they are when one is taken. -/
theorem inbox_of_poll (h : c.poll capacity = some (report, d)) :
    d.inbox = c.inbox ∧ d.alive = c.alive := by
  unfold poll at h
  split_ifs at h with hfull
  · cases h
    exact ⟨rfl, rfl⟩
  · obtain ⟨⟨x, d'⟩, hrecv, heq⟩ := Option.map_eq_some_iff.mp h
    cases heq
    obtain ⟨-, rfl⟩ := of_recv_eq_some hrecv
    exact ⟨rfl, rfl⟩

/-- The items beyond the last `capacity` ones are lost, and no others. -/
theorem lost_of_poll (h : c.poll capacity = some (report, d)) (log : List (Report α)) :
    Report.lost (log ++ [report]) = Report.lost log + (c.unread.length - capacity) := by
  unfold poll at h
  split_ifs at h with hfull
  · cases h
    exact Report.lost_concat_error ..
  · obtain ⟨⟨x, d'⟩, -, heq⟩ := Option.map_eq_some_iff.mp h
    cases heq
    rw [Report.lost_concat_ok, Nat.sub_eq_zero_of_le (not_lt.mp hfull), Nat.add_zero]

/-- What the receiver is told goes to the end of its log. -/
theorem Logs.of_poll {log : List (Report α)} (hlog : c.Logs log)
    (h : c.poll capacity = some (report, d)) : d.Logs (log ++ [report]) := by
  have hunread : c.unread.length = c.inbox.length - c.taken := List.length_drop
  unfold poll at h
  split_ifs at h with hfull
  · cases h
    refine ⟨Nat.sub_le _ _, ?_⟩
    have htaken : c.taken + (c.unread.length - capacity) = c.inbox.length - capacity := by omega
    dsimp only
    rw [← htaken]
    exact hlog.reports.lost_take (by omega) (by omega)
  · obtain ⟨⟨x, d'⟩, hrecv, heq⟩ := Option.map_eq_some_iff.mp h
    cases heq
    have hget := getElem?_of_recv hrecv
    obtain ⟨hlt, hx⟩ := List.getElem?_eq_some_iff.mp hget
    obtain ⟨-, rfl⟩ := of_recv_eq_some hrecv
    refine ⟨hlt, ?_⟩
    dsimp only
    rw [List.take_succ_eq_append_getElem hlt, hx]
    exact hlog.reports.got x

end Channel

end SteamWire.Semantics
