import Mathlib.Data.List.Sort
import Mathlib.Data.Prod.Lex

/-!
# Stable sorting by a key

Sorting keeps the order of items with equal keys, so that what comes out can depend on the
order in which they come in. It does not when items whose order is changed have different keys.

## Main results

* `sortByKey_flatMap_eq_of_perm` — blocks with different keys may come in any order
* `find?_sortByKey` — the first match after sorting is one with the least key
-/

namespace SteamWire

variable {α β κ : Type*} [LinearOrder κ] {key : α → κ} {a b : α}

/-- Sort by a key; items with equal keys stay in order. -/
def sortByKey (key : α → κ) (l : List α) : List α := l.insertionSort fun a b => key a ≤ key b

/-- Put the items of a block into a sorted list. -/
def insertBlock (key : α → κ) (block sorted : List α) : List α :=
  block.foldr (List.orderedInsert fun a b => key a ≤ key b) sorted

theorem sortByKey_flatMap (f : β → List α) (l : List β) :
    sortByKey key (l.flatMap f) = l.foldr (fun x sorted => insertBlock key (f x) sorted) [] :=
  List.foldr_flatMap

theorem mem_sortByKey {l : List α} : a ∈ sortByKey key l ↔ a ∈ l :=
  (List.perm_insertionSort _ l).mem_iff

/-- Insertions of items with different keys do not care for their order. -/
theorem orderedInsert_comm (hne : key a ≠ key b) (l : List α) :
    (l.orderedInsert (fun a b => key a ≤ key b) b).orderedInsert (fun a b => key a ≤ key b) a =
      (l.orderedInsert (fun a b => key a ≤ key b) a).orderedInsert (fun a b => key a ≤ key b) b := by
  induction l with
  | nil =>
    simp only [List.orderedInsert_nil, List.orderedInsert_cons]
    rcases hne.lt_or_gt with hlt | hlt
    · rw [if_pos hlt.le, if_neg hlt.not_ge]
    · rw [if_neg hlt.not_ge, if_pos hlt.le]
  | cons c l ih =>
    simp only [List.orderedInsert_cons]
    -- where the two items stand against the head
    by_cases ha : key a ≤ key c <;> by_cases hb : key b ≤ key c <;>
      simp only [ha, hb, if_true, if_false, List.orderedInsert_cons]
    · rcases hne.lt_or_gt with hlt | hlt
      · rw [if_pos hlt.le, if_neg hlt.not_ge]
      · rw [if_neg hlt.not_ge, if_pos hlt.le]
    · rw [if_neg fun h => hb (h.trans ha)]
    · rw [if_neg fun h => ha (h.trans hb)]
    · rw [ih]

/-- So do insertions of an item and a block. -/
theorem insertBlock_orderedInsert_comm {block : List α} (hne : ∀ b ∈ block, key a ≠ key b)
    (l : List α) :
    insertBlock key block (l.orderedInsert (fun a b => key a ≤ key b) a) =
      (insertBlock key block l).orderedInsert (fun a b => key a ≤ key b) a := by
  induction block with
  | nil => rfl
  | cons b block ih =>
    rw [insertBlock, List.foldr_cons, ← insertBlock, ih fun b' hb' => hne b' (List.mem_cons_of_mem b hb'),
      ← orderedInsert_comm (hne b List.mem_cons_self)]
    rfl

theorem insertBlock_comm {block block' : List α}
    (hne : ∀ a ∈ block, ∀ b ∈ block', key a ≠ key b) (l : List α) :
    insertBlock key block' (insertBlock key block l) =
      insertBlock key block (insertBlock key block' l) := by
  induction block with
  | nil => rfl
  | cons a block ih =>
    have hrest := ih fun a' ha' => hne a' (List.mem_cons_of_mem a ha')
    rw [show insertBlock key (a :: block) l = (insertBlock key block l).orderedInsert _ a from rfl,
      insertBlock_orderedInsert_comm (hne a List.mem_cons_self), hrest]
    rfl

/-- Blocks of items may come in any order if their keys are different. -/
theorem sortByKey_flatMap_eq_of_perm {f : β → List α} {l l' : List β}
    (hne : ∀ x ∈ l, ∀ y ∈ l, x ≠ y → ∀ a ∈ f x, ∀ b ∈ f y, key a ≠ key b) (h : l.Perm l') :
    sortByKey key (l.flatMap f) = sortByKey key (l'.flatMap f) := by
  rw [sortByKey_flatMap, sortByKey_flatMap]
  refine h.foldr_eq' (fun x hx y hy sorted => ?_) []
  by_cases hxy : x = y
  · rw [hxy]
  · exact insertBlock_comm (hne x hx y hy hxy) sorted

/-- Items with different keys may come in any order. -/
theorem sortByKey_eq_of_perm {l l' : List α}
    (hinj : ∀ a ∈ l, ∀ b ∈ l, key a = key b → a = b) (h : l.Perm l') :
    sortByKey key l = sortByKey key l' := by
  have hblocks := @sortByKey_flatMap_eq_of_perm α α κ _ key (fun a => [a]) l l' ?_ h
  · simpa using hblocks
  · intro x hx y hy hxy a ha b hb hkey
    rw [List.mem_singleton.mp ha, List.mem_singleton.mp hb] at hkey
    exact hxy (hinj x hx y hy hkey)

/-- The first match after sorting is one with the least key. -/
theorem find?_sortByKey {p : α → Bool} {l : List α} (h : (sortByKey key l).find? p = some a) :
    a ∈ l ∧ p a ∧ ∀ b ∈ l, p b → key a ≤ key b := by
  have hmem : a ∈ sortByKey key l := List.mem_of_find?_eq_some h
  refine ⟨mem_sortByKey.mp hmem, List.find?_some h, fun b hb hpb => ?_⟩
  obtain ⟨-, front, back, hsplit, hfront⟩ := List.find?_eq_some_iff_append.mp h
  have hsorted : (sortByKey key l).Pairwise fun a b => key a ≤ key b :=
    List.pairwise_insertionSort _ l
  rw [hsplit] at hsorted
  have hb' : b ∈ front ++ a :: back := hsplit ▸ mem_sortByKey.mpr hb
  rcases List.mem_append.mp hb' with hin | hin
  · -- what stands in front does not match
    have hnot := hfront b hin
    rw [hpb] at hnot
    cases hnot
  · rcases List.mem_cons.mp hin with rfl | hin
    · exact le_rfl
    · exact (List.pairwise_cons.mp (List.pairwise_append.mp hsorted).2.1).1 b hin

end SteamWire
