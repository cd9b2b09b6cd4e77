import Mathlib.Data.List.Rotate
import Mathlib.Data.Nat.ModEq

/-!
# Cyclic iterators

An iterator that starts over when it has come to its end. It has no counter: where it stands
is what is left of the current round, and both ends of a round stand for the same place.

## Main results

* `Cycle.At.next` — the item at the place, and the place behind it
* `Cycle.At.take_length` — a full round gives the items from the place on, and comes back to it
-/

namespace SteamWire

/-- Draw `count` items from an iterator, fewer if it ends. -/
def takeFromIter {σ α : Type*} (next : σ → Option α × σ) : Nat → σ → List α × σ
  | 0, iter => ([], iter)
  | count + 1, iter =>
    let (item, iter) := next iter
    let (result, iter) := takeFromIter next count iter
    (item.toList ++ result, iter)

/-- The items of an iterator, and what is left of the current round. -/
structure Cycle (α : Type*) where
  orig : List α
  iter : List α
  deriving DecidableEq

namespace Cycle

variable {α : Type*}

/-- `cycle` of a list's iterator. -/
def ofList (items : List α) : Cycle α := ⟨items, items⟩

/-- The next item, from a new round if this one is over. -/
def next (c : Cycle α) : Option α × Cycle α :=
  match c.iter with
  | item :: rest => (some item, { c with iter := rest })
  | [] =>
    match c.orig with
    | item :: rest => (some item, { c with iter := rest })
    | [] => (none, c)

/-- The iterator over `items` after `k` steps. -/
structure At (items : List α) (k : Nat) (c : Cycle α) : Prop where
  orig : c.orig = items
  iter : ∃ j ≤ items.length, j ≡ k [MOD items.length] ∧ c.iter = items.drop j

variable {items : List α} {k l : Nat} {c : Cycle α}

theorem At.ofList (items : List α) : At items 0 (Cycle.ofList items) :=
  ⟨rfl, 0, Nat.zero_le _, .rfl, rfl⟩

/-- Only the place within the round counts. -/
theorem At.congr (hc : At items k c) (h : k ≡ l [MOD items.length]) : At items l c := by
  obtain ⟨j, hj, hmod, hiter⟩ := hc.iter
  exact ⟨hc.orig, j, hj, hmod.trans h, hiter⟩

/-- A step gives the item at the place. -/
theorem At.next (hc : At items k c) (hne : items ≠ []) :
    ∃ c', c.next = (items[k % items.length]?, c') ∧ At items (k + 1) c' := by
  have hpos : 0 < items.length := List.length_pos_iff.mpr hne
  obtain ⟨j, hj, hmod, hiter⟩ := hc.iter
  rcases hj.lt_or_eq with hlt | rfl
  · have hplace : k % items.length = j := by rw [← hmod, Nat.mod_eq_of_lt hlt]
    refine ⟨{ c with iter := items.drop (j + 1) }, ?_, hc.orig, j + 1, hlt, hmod.add_right 1, rfl⟩
    rw [Cycle.next, hiter, List.drop_eq_getElem_cons hlt, hplace, List.getElem?_eq_getElem hlt]
  · -- the round is over, and its end is the start of the next one
    have hplace : k % items.length = 0 := by rw [← hmod, Nat.mod_self]
    obtain ⟨item, rest, rfl⟩ := List.exists_cons_of_ne_nil hne
    refine ⟨{ c with iter := rest }, ?_, hc.orig, 1, hpos, ?_, rfl⟩
    · rw [Cycle.next, hiter, List.drop_length, hc.orig, hplace]
      rfl
    · have hstart : 0 ≡ k [MOD (item :: rest).length] := by rw [Nat.ModEq, hplace, Nat.zero_mod]
      exact hstart.add_right 1

/-- Steps give the items from the place on. -/
theorem At.take (hc : At items k c) (hne : items ≠ []) (count : Nat) :
    ∃ result c', takeFromIter Cycle.next count c = (result, c') ∧ result.length = count ∧
      (∀ i < count, result[i]? = items[(i + k) % items.length]?) ∧ At items (k + count) c' := by
  have hpos : 0 < items.length := List.length_pos_iff.mpr hne
  induction count generalizing k c with
  | zero => exact ⟨[], c, rfl, rfl, fun i hi => absurd hi (Nat.not_lt_zero i), hc⟩
  | succ count ih =>
    obtain ⟨c₁, hnext, hc₁⟩ := hc.next hne
    obtain ⟨result, c₂, htake, hlen, hitems, hc₂⟩ := ih hc₁
    have hlt : k % items.length < items.length := Nat.mod_lt _ hpos
    refine ⟨items[k % items.length] :: result, c₂, ?_, by rw [List.length_cons, hlen], ?_, ?_⟩
    · rw [takeFromIter, hnext, List.getElem?_eq_getElem hlt]
      simp only [htake, Option.toList_some, List.singleton_append]
    · intro i hi
      cases i with
      | zero => rw [Nat.zero_add, List.getElem?_cons_zero, List.getElem?_eq_getElem hlt]
      | succ i =>
        rw [List.getElem?_cons_succ, hitems i (Nat.lt_of_succ_lt_succ hi)]
        congr 2
        omega
    · rwa [Nat.add_comm count 1, ← Nat.add_assoc]

/-- A full round gives the items in the order that starts at the place, and ends there. -/
theorem At.take_length (hc : At items k c) (hne : items ≠ []) :
    ∃ c', takeFromIter Cycle.next items.length c = (items.rotate k, c') ∧ At items k c' := by
  obtain ⟨result, c', htake, hlen, hitems, hc'⟩ := hc.take hne items.length
  refine ⟨c', ?_, hc'.congr (Nat.add_modEq_right)⟩
  rw [htake]
  congr 1
  apply List.ext_getElem?
  intro i
  by_cases hi : i < items.length
  · rw [hitems i hi, List.getElem?_rotate hi]
  · rw [List.getElem?_eq_none (by omega), List.getElem?_eq_none (by rw [List.length_rotate]; omega)]

end Cycle

end SteamWire
