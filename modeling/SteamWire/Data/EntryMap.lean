import Mathlib.Data.List.Nodup
import Mathlib.Data.List.Pairwise
import Mathlib.Data.String.Basic

/-!
# Maps filled in passing

A sorted map that is filled with `entry(..).or_insert(..)`: the first entry for a key stays.
What such a map holds in the end is the first entry for each key among all that were made, and
the order in which the parts of a collection make their entries only matters for keys that two
parts make different entries for.

## Main results

* `getElem?_insertAll` — what is looked up in a filled map
* `lookup_flatMap_perm_iff` — when the order of the parts does not matter
-/

namespace SteamWire

open Std

variable {κ ν β : Type*} [Ord κ]

/-- `entry(..).or_insert(..)` for entries one after the other. -/
def insertAll (m : TreeMap κ ν) (entries : List (κ × ν)) : TreeMap κ ν :=
  entries.foldl (fun m e => m.insertIfNew e.1 e.2) m

/-- `into_values`: the values in the order of the keys. -/
def intoValues (m : TreeMap κ ν) : List ν := m.toList.map Prod.snd

@[simp] theorem insertAll_append (m : TreeMap κ ν) (entries entries' : List (κ × ν)) :
    insertAll m (entries ++ entries') = insertAll (insertAll m entries) entries' :=
  List.foldl_append

section Lookup

variable [TransOrd κ] [LawfulEqOrd κ] {m m' : TreeMap κ ν} {entries : List (κ × ν)} {k : κ} {v : ν}

/-- An entry that is there stays, and else the first that is made is taken. -/
theorem getElem?_insertAll [BEq κ] [LawfulBEq κ] :
    (insertAll m entries)[k]? = m[k]?.or (entries.lookup k) := by
  induction entries generalizing m with
  | nil => simp [insertAll]
  | cons e entries ih =>
    obtain ⟨k', v'⟩ := e
    rw [show insertAll m ((k', v') :: entries) = insertAll (m.insertIfNew k' v') entries from rfl,
      ih, TreeMap.getElem?_insertIfNew, List.lookup_cons]
    by_cases hk : k = k'
    · subst hk
      cases hm : m[k]? with
      | none =>
        have hnew : k ∉ m := by rw [TreeMap.mem_iff_isSome_getElem?, hm]; exact Bool.false_ne_true
        simp [hnew]
      | some old =>
        have hold : k ∈ m := TreeMap.mem_iff_isSome_getElem?.mpr (by rw [hm]; rfl)
        simp [hold]
    · have hne : compare k' k ≠ .eq := fun h => hk (compare_eq_iff_eq.mp h).symm
      simp [hne, beq_eq_false_iff_ne.mpr hk]

/-- A map is known by what is looked up in it. -/
theorem intoValues_eq (h : ∀ k : κ, m[k]? = m'[k]?) : intoValues m = intoValues m' := by
  rw [intoValues, (TreeMap.Equiv.of_forall_constGet?_eq h).toList_eq, intoValues]

theorem mem_intoValues : v ∈ intoValues m ↔ ∃ k : κ, m[k]? = some v := by
  simp [intoValues, TreeMap.mem_toList_iff_getElem?_eq_some]

/-- Values that are filed under a key of theirs are in the map once. -/
theorem nodup_map_intoValues {keyOf : ν → κ} (h : ∀ (k : κ) (v : ν), m[k]? = some v → keyOf v = k) :
    ((intoValues m).map keyOf).Nodup := by
  have hkeys : (intoValues m).map keyOf = m.toList.map Prod.fst := by
    rw [intoValues, List.map_map]
    refine List.map_congr_left fun e he => ?_
    exact h e.1 e.2 (TreeMap.mem_toList_iff_getElem?_eq_some.mp he)
  rw [hkeys, TreeMap.map_fst_toList_eq_keys]
  exact TreeMap.nodup_keys

end Lookup

/-! ### Parts that make entries -/

section Parts

omit [Ord κ]

variable [BEq κ] {parts parts' : List β} {f : β → List (κ × ν)} {k : κ} {v : ν}

theorem mem_of_lookup [LawfulBEq κ] {entries : List (κ × ν)} (h : entries.lookup k = some v) :
    (k, v) ∈ entries := by
  obtain ⟨front, back, rfl, -⟩ := List.lookup_eq_some_iff.mp h
  exact List.mem_append_right _ List.mem_cons_self

theorem exists_lookup_of_mem [LawfulBEq κ] {entries : List (κ × ν)} (h : (k, v) ∈ entries) :
    ∃ w, entries.lookup k = some w := by
  rw [← Option.isSome_iff_exists, List.lookup_isSome_iff]
  exact ⟨(k, v), h, beq_self_eq_true k⟩

omit [BEq κ] in
/-- What occurs once comes from one part. -/
theorem eq_of_nodup_flatMap {g : β → List ν} (h : (parts.flatMap g).Nodup) {x y : β}
    (hx : x ∈ parts) (hy : y ∈ parts) (hv : v ∈ g x) (hw : v ∈ g y) : x = y := by
  by_contra hne
  have hsymm : Std.Symm (Function.onFun List.Disjoint g) := ⟨fun _ _ h v hv hw => h hw hv⟩
  exact (List.nodup_flatMap.mp h).2.forall hx hy hne hv hw

/-- The first part with an entry for the key makes it. -/
theorem lookup_flatMap : (parts.flatMap f).lookup k = parts.findSome? fun x => (f x).lookup k := by
  induction parts with
  | nil => rfl
  | cons x parts ih =>
    rw [List.flatMap_cons, List.lookup_append, ih, List.findSome?_cons]
    cases (f x).lookup k <;> rfl

/-- Two parts that make an entry for the key make the same one. -/
def AgreeOn (f : β → List (κ × ν)) (parts : List β) (k : κ) : Prop :=
  ∀ x ∈ parts, ∀ y ∈ parts, ∀ v w, (f x).lookup k = some v → (f y).lookup k = some w → v = w

/-- Whatever the order of parts that agree, the key gets the same entry. -/
theorem AgreeOn.lookup_eq (h : AgreeOn f parts k) (hperm : parts'.Perm parts) :
    (parts'.flatMap f).lookup k = (parts.flatMap f).lookup k := by
  rw [lookup_flatMap, lookup_flatMap]
  cases hfirst : parts.findSome? fun x => (f x).lookup k with
  | none =>
    rw [List.findSome?_eq_none_iff] at hfirst ⊢
    exact fun x hx => hfirst x (hperm.mem_iff.mp hx)
  | some v =>
    obtain ⟨x, hx, hv⟩ := List.exists_of_findSome?_eq_some hfirst
    cases hfirst' : parts'.findSome? fun x => (f x).lookup k with
    | none => exact absurd hv (by simp [List.findSome?_eq_none_iff.mp hfirst' x (hperm.mem_iff.mpr hx)])
    | some w =>
      obtain ⟨y, hy, hw⟩ := List.exists_of_findSome?_eq_some hfirst'
      rw [h x hx y (hperm.mem_iff.mp hy) v w hv hw]

/-- The order of the parts does not matter for a key exactly if they agree on it. -/
theorem lookup_flatMap_perm_iff :
    (∀ parts' : List β, parts'.Perm parts → (parts'.flatMap f).lookup k = (parts.flatMap f).lookup k) ↔
      AgreeOn f parts k := by
  refine ⟨fun h x hx y hy v w hv hw => ?_, fun h parts' => h.lookup_eq⟩
  -- each part can be the first
  have hfirst : ∀ z ∈ parts, ∀ u, (f z).lookup k = some u → (parts.flatMap f).lookup k = some u := by
    intro z hz u hu
    obtain ⟨front, back, rfl⟩ := List.append_of_mem hz
    rw [← h (z :: (front ++ back)) List.perm_middle.symm, List.flatMap_cons, List.lookup_append, hu]
    rfl
  exact Option.some.inj ((hfirst x hx v hv).symm.trans (hfirst y hy w hw))

end Parts

end SteamWire
