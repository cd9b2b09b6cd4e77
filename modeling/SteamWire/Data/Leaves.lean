import Mathlib.Tactic.TypeStar

/-!
# Leaves of trees with a hidden shape

A function `unpack` tells which items stand for other items, and for which. `Leaves` is the
complete flattening that it defines: items that stand for others are replaced by these, the
others stay in their place, until only leaves are left. A list with items that are unpacked
without end has no flattening; every other list has exactly one (`Leaves.unique`).

Unpacking every item once is the complete flattening exactly when nothing that was packed
stands for other items itself (`leaves_flatMap_iff`).
-/

namespace SteamWire

variable {α : Type*} {unpack : α → Option (List α)} {xs ys xs' ys' : List α}

/-- The leaves of a list of items, from left to right. -/
inductive Leaves (unpack : α → Option (List α)) : List α → List α → Prop
  | nil : Leaves unpack [] []
  | leaf {x : α} {xs ys : List α} (h : unpack x = none) (hrest : Leaves unpack xs ys) :
      Leaves unpack (x :: xs) (x :: ys)
  | node {x : α} {children xs ys : List α} (h : unpack x = some children)
      (hrest : Leaves unpack (children ++ xs) ys) : Leaves unpack (x :: xs) ys

namespace Leaves

/-- What is left are leaves. -/
theorem unpack_eq_none (h : Leaves unpack xs ys) {y : α} (hy : y ∈ ys) : unpack y = none := by
  induction h with
  | nil => cases hy
  | leaf hleaf _ ih =>
    rcases List.mem_cons.mp hy with rfl | hy
    · exact hleaf
    · exact ih hy
  | node _ _ ih => exact ih hy

/-- Items have their leaves in one order only. -/
theorem unique (h : Leaves unpack xs ys) (h' : Leaves unpack xs ys') : ys = ys' := by
  induction h generalizing ys' with
  | nil =>
    cases h'
    rfl
  | leaf hleaf _ ih =>
    cases h' with
    | leaf _ hrest => rw [ih hrest]
    | node hnode _ =>
      rw [hleaf] at hnode
      cases hnode
  | node hnode _ ih =>
    cases h' with
    | leaf hleaf _ =>
      rw [hnode] at hleaf
      cases hleaf
    | node hnode' hrest =>
      rw [hnode, Option.some.injEq] at hnode'
      subst hnode'
      exact ih hrest

/-- The leaves of one list stand in front of those of the next. -/
theorem append (h : Leaves unpack xs ys) (h' : Leaves unpack xs' ys') :
    Leaves unpack (xs ++ xs') (ys ++ ys') := by
  induction h with
  | nil => exact h'
  | leaf hleaf _ ih => exact .leaf hleaf ih
  | node hnode _ ih => exact .node hnode (by rwa [List.append_assoc] at ih)

/-- Leaves stay as they are. -/
theorem of_forall (h : ∀ x ∈ xs, unpack x = none) : Leaves unpack xs xs := by
  induction xs with
  | nil => exact .nil
  | cons x xs ih =>
    exact .leaf (h x List.mem_cons_self) (ih fun y hy => h y (List.mem_cons_of_mem _ hy))

end Leaves

/-- Unpacking every item once leaves leaves only when there is nothing else below the items. -/
theorem leaves_flatMap_iff :
    Leaves unpack xs (xs.flatMap fun x => (unpack x).getD [x]) ↔
      ∀ x ∈ xs, ∀ children, unpack x = some children → ∀ c ∈ children, unpack c = none := by
  constructor
  · intro h x hx children hnode c hc
    refine h.unpack_eq_none (List.mem_flatMap.mpr ⟨x, hx, ?_⟩)
    rwa [hnode]
  · intro h
    induction xs with
    | nil => exact .nil
    | cons x xs ih =>
      have hrest := ih fun y hy => h y (List.mem_cons_of_mem _ hy)
      rw [List.flatMap_cons]
      cases hx : unpack x with
      | none => exact .leaf hx hrest
      | some children =>
        have hchildren := h x List.mem_cons_self children hx
        exact .node hx ((Leaves.of_forall hchildren).append hrest)

end SteamWire
