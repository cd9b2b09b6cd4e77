import Mathlib.Algebra.Ring.Nat
import Mathlib.Data.List.DropRight
import Mathlib.Data.List.Infix

/-!
# Strings with byte positions

Text as a list of characters, measured and cut at byte positions of its UTF-8 form: a cut that
is not between two characters does not exist. On top of this are the functions of `str` and
`String` for trimming, cutting and comparing text.

## Main results

* `splitAtByte?_eq_some_iff` — the cuts that exist
* `truncate_byteLen_trim_eq_iff` — when trimmed text is the front part of the text of its length
* `getElem?_one_splitOn_eq_some_iff` — the second part of text that is cut at a character
* `EqIgnoreAsciiCase.exists_append` — text that is like two texts in a row is cut like them
-/

namespace SteamWire.Str

variable {n : Nat} {s t a b : List Char}

/-! ### Byte positions -/

/-- The length of the UTF-8 form. -/
def byteLen (s : List Char) : Nat := (s.map Char.utf8Size).sum

@[simp] theorem byteLen_nil : byteLen [] = 0 := rfl

@[simp] theorem byteLen_cons (c : Char) (s : List Char) :
    byteLen (c :: s) = c.utf8Size + byteLen s := rfl

@[simp] theorem byteLen_append (s t : List Char) : byteLen (s ++ t) = byteLen s + byteLen t := by
  simp [byteLen]

theorem byteLen_eq_zero : byteLen s = 0 ↔ s = [] := by
  cases s with
  | nil => simp
  | cons c s =>
    have hpos := c.utf8Size_pos
    simp
    omega

/-- Cut at a byte position; `none` if it is past the end or inside a character. -/
def splitAtByte? : Nat → List Char → Option (List Char × List Char)
  | 0, s => some ([], s)
  | _ + 1, [] => none
  | n + 1, c :: s =>
    if c.utf8Size ≤ n + 1 then
      (splitAtByte? (n + 1 - c.utf8Size) s).map fun (front, back) => (c :: front, back)
    else none

/-- Text is cut where its front part ends. -/
theorem splitAtByte?_eq_some_iff :
    splitAtByte? n s = some (a, b) ↔ s = a ++ b ∧ byteLen a = n := by
  induction s generalizing n a with
  | nil =>
    cases n with
    | zero =>
      rw [splitAtByte?, byteLen_eq_zero]
      grind
    | succ n =>
      rw [splitAtByte?]
      refine ⟨nofun, ?_⟩
      rintro ⟨hs, hlen⟩
      rw [(List.append_eq_nil_iff.mp hs.symm).1] at hlen
      cases hlen
  | cons c s ih =>
    cases n with
    | zero =>
      rw [splitAtByte?, byteLen_eq_zero]
      grind
    | succ n =>
      rw [splitAtByte?]
      constructor
      · intro h
        obtain ⟨hle, h⟩ := Option.ite_none_right_eq_some.mp h
        obtain ⟨⟨front, back⟩, hsplit, heq⟩ := Option.map_eq_some_iff.mp h
        obtain ⟨rfl, rfl⟩ := Prod.mk.inj heq
        obtain ⟨rfl, hlen⟩ := ih.mp hsplit
        refine ⟨rfl, ?_⟩
        rw [byteLen_cons, hlen]
        omega
      · rintro ⟨hs, hlen⟩
        -- the first character is in the front part, as this is not empty
        cases a with
        | nil => cases hlen
        | cons d a =>
          obtain ⟨rfl, rfl⟩ := List.cons.inj hs
          rw [byteLen_cons] at hlen
          have hrest := (@ih (n + 1 - c.utf8Size) a).mpr ⟨rfl, by omega⟩
          rw [if_pos (by omega), hrest]
          rfl

/-- `str::get(n..)`. -/
def getFrom (n : Nat) (s : List Char) : Option (List Char) := (splitAtByte? n s).map Prod.snd

theorem getFrom_eq_some_iff : getFrom n s = some b ↔ ∃ a, s = a ++ b ∧ byteLen a = n := by
  constructor
  · intro h
    obtain ⟨⟨a, b'⟩, hsplit, rfl⟩ := Option.map_eq_some_iff.mp h
    exact ⟨a, splitAtByte?_eq_some_iff.mp hsplit⟩
  · rintro ⟨a, h⟩
    rw [getFrom, splitAtByte?_eq_some_iff.mpr h]
    rfl

/-- `String::truncate`: `none` if it panics. -/
def truncate (n : Nat) (s : List Char) : Option (List Char) :=
  if byteLen s ≤ n then some s else (splitAtByte? n s).map Prod.fst

/-- Text truncated to the length of its front part is this part. -/
theorem truncate_append : truncate (byteLen a) (a ++ b) = some a := by
  rw [truncate]
  split_ifs with hle
  · -- nothing is cut off
    have hb : b = [] := by
      rw [← byteLen_eq_zero]
      rw [byteLen_append] at hle
      omega
    rw [hb, List.append_nil]
  · rw [splitAtByte?_eq_some_iff.mpr ⟨rfl, rfl⟩]
    rfl

theorem prefix_of_truncate (h : truncate n s = some a) : a <+: s := by
  rw [truncate] at h
  split_ifs at h with hle
  · exact Option.some.inj h ▸ List.prefix_rfl
  · obtain ⟨⟨front, back⟩, hsplit, rfl⟩ := Option.map_eq_some_iff.mp h
    exact ⟨back, (splitAtByte?_eq_some_iff.mp hsplit).1.symm⟩

/-! ### Whitespace -/

/-- `char::is_whitespace`: the characters with the property White_Space. -/
def isWhitespace (c : Char) : Bool :=
  (0x9 ≤ c.toNat && c.toNat ≤ 0xD) || c.toNat = 0x20 || c.toNat = 0x85 || c.toNat = 0xA0 ||
    c.toNat = 0x1680 || (0x2000 ≤ c.toNat && c.toNat ≤ 0x200A) || c.toNat = 0x2028 ||
    c.toNat = 0x2029 || c.toNat = 0x202F || c.toNat = 0x205F || c.toNat = 0x3000

/-- `str::trim`. -/
def trim (s : List Char) : List Char := (s.dropWhile isWhitespace).rdropWhile isWhitespace

/-- What is left in front does not start with whitespace. -/
theorem isWhitespace_of_head?_dropWhile {c : Char}
    (h : (s.dropWhile isWhitespace).head? = some c) : isWhitespace c = false := by
  have hnot := List.head?_dropWhile_not isWhitespace s
  rwa [h] at hnot

/-- Nothing is left of blank text. -/
theorem trim_eq_nil_iff : trim s = [] ↔ ∀ c ∈ s, isWhitespace c := by
  rw [← List.dropWhile_eq_nil_iff]
  constructor
  · intro h
    have hblank := List.rdropWhile_eq_nil_iff.mp h
    cases hdrop : s.dropWhile isWhitespace with
    | nil => rfl
    | cons c rest =>
      have hhead := @isWhitespace_of_head?_dropWhile s c (by rw [hdrop]; rfl)
      rw [hblank c (by rw [hdrop]; exact List.mem_cons_self)] at hhead
      cases hhead
  · intro h
    rw [trim, h]
    rfl

/-- Trimmed text does not start with whitespace. -/
theorem isWhitespace_of_head?_trim {c : Char} (h : (trim s).head? = some c) :
    isWhitespace c = false := by
  obtain ⟨rest, hrest⟩ := List.rdropWhile_prefix isWhitespace (s.dropWhile isWhitespace)
  apply @isWhitespace_of_head?_dropWhile s
  rw [← hrest, List.head?_append, show (List.rdropWhile _ _).head? = some c from h]
  rfl

/-- Without whitespace in front, trimmed text is the front part of the text. -/
theorem trim_prefix (h : ∀ c ∈ s.head?, isWhitespace c = false) : trim s <+: s := by
  have hdrop : s.dropWhile isWhitespace = s := by
    cases s with
    | nil => rfl
    | cons c s => rw [List.dropWhile_cons_of_neg (by simp [h c rfl])]
  rw [trim, hdrop]
  exact List.rdropWhile_prefix isWhitespace s

/-- Text truncated to the length that trimming leaves is the trimmed text exactly if nothing had
to be trimmed in front, or nothing is left. -/
theorem truncate_byteLen_trim_eq_iff :
    truncate (byteLen (trim s)) s = some (trim s) ↔
      (∀ c ∈ s, isWhitespace c) ∨ ∀ c ∈ s.head?, isWhitespace c = false := by
  constructor
  · intro h
    obtain ⟨rest, hrest⟩ := prefix_of_truncate h
    cases htrim : trim s with
    | nil => exact .inl (trim_eq_nil_iff.mp htrim)
    | cons d t =>
      refine .inr fun c hc => ?_
      -- both texts start with the same character
      rw [← hrest, htrim] at hc
      exact isWhitespace_of_head?_trim (by rw [htrim]; exact hc)
  · rintro (hblank | hhead)
    · rw [trim_eq_nil_iff.mpr hblank]
      exact @truncate_append [] s
    · obtain ⟨rest, hrest⟩ := trim_prefix hhead
      generalize trim s = front at hrest ⊢
      rw [← hrest]
      exact truncate_append

/-! ### Lines -/

/-- `read_line`: the text up to its first line feed, which is part of the line. -/
def readLine : List Char → List Char
  | [] => []
  | c :: s => if c = '\n' then [c] else c :: readLine s

/-! ### Cutting at a character -/

/-- The text `b` is the front of `s` up to a character, or all of it. -/
def UpTo (c : Char) (b s : List Char) : Prop := c ∉ b ∧ (s = b ∨ ∃ rest, s = b ++ c :: rest)

theorem head?_splitOn_eq_some_iff {c : Char} : (s.splitOn c).head? = some b ↔ UpTo c b s := by
  constructor
  · intro h
    by_cases hc : c ∈ s
    · obtain ⟨a, rest, rfl, ha⟩ := List.eq_append_cons_of_mem hc
      rw [List.splitOn_append_cons_self_of_not_mem ha] at h
      obtain rfl := Option.some.inj h
      exact ⟨ha, .inr ⟨rest, rfl⟩⟩
    · rw [List.splitOn_eq_singleton hc] at h
      obtain rfl := Option.some.inj h
      exact ⟨hc, .inl rfl⟩
  · rintro ⟨hb, rfl | ⟨rest, rfl⟩⟩
    · rw [List.splitOn_eq_singleton hb]
      rfl
    · rw [List.splitOn_append_cons_self_of_not_mem hb]
      rfl

/-- The second of the parts that a character cuts text into. -/
theorem getElem?_one_splitOn_eq_some_iff {c : Char} :
    (s.splitOn c)[1]? = some b ↔ ∃ a t, s = a ++ c :: t ∧ c ∉ a ∧ UpTo c b t := by
  constructor
  · intro h
    by_cases hc : c ∈ s
    · obtain ⟨a, rest, rfl, ha⟩ := List.eq_append_cons_of_mem hc
      rw [List.splitOn_append_cons_self_of_not_mem ha, List.getElem?_cons_succ,
        ← List.head?_eq_getElem?] at h
      exact ⟨a, rest, rfl, ha, head?_splitOn_eq_some_iff.mp h⟩
    · rw [List.splitOn_eq_singleton hc] at h
      cases h
  · rintro ⟨a, t, rfl, ha, ht⟩
    rw [List.splitOn_append_cons_self_of_not_mem ha, List.getElem?_cons_succ,
      ← List.head?_eq_getElem?]
    exact head?_splitOn_eq_some_iff.mpr ht

/-! ### Comparison -/

/-- `str::strip_prefix`. -/
def stripPrefix (front s : List Char) : Option (List Char) := s.dropPrefix? front

theorem stripPrefix_eq_some_iff : stripPrefix a s = some b ↔ s = a ++ b := by
  rw [stripPrefix, List.dropPrefix?_eq_some_iff]
  constructor
  · rintro ⟨a', rfl, ha⟩
    rw [eq_of_beq ha]
  · rintro rfl
    exact ⟨a, rfl, beq_self_eq_true a⟩

theorem stripPrefix_eq_none_iff : stripPrefix a s = none ↔ ∀ b, s ≠ a ++ b := by
  rw [Option.eq_none_iff_forall_ne_some]
  exact forall_congr' fun b => not_congr stripPrefix_eq_some_iff

/-- `str::eq_ignore_ascii_case`. -/
def EqIgnoreAsciiCase (s t : List Char) : Prop := s.map Char.toLower = t.map Char.toLower

instance : DecidableRel EqIgnoreAsciiCase := fun s t =>
  inferInstanceAs (Decidable (s.map Char.toLower = t.map Char.toLower))

theorem utf8Size_toLower (c : Char) : c.toLower.utf8Size = c.utf8Size := by
  by_cases h : c.val ≥ 'A'.val ∧ c.val ≤ 'Z'.val
  · -- both letters are ASCII
    have hZ : c.val ≤ 90 := h.2
    rw [UInt32.le_iff_toNat_le] at hZ
    have hlower : c.val + ('a'.val - 'A'.val) ≤ 127 := by
      change c.val + 32 ≤ 127
      rw [UInt32.le_iff_toNat_le, UInt32.toNat_add]
      simp at hZ ⊢
      omega
    have hupper : c.val ≤ 127 := by
      rw [UInt32.le_iff_toNat_le]
      exact hZ.trans (by decide)
    rw [show c.toLower = ⟨c.val + ('a'.val - 'A'.val), _⟩ from dif_pos h,
      Char.utf8Size_eq_one_iff.mpr hlower, Char.utf8Size_eq_one_iff.mpr hupper]
  · rw [show c.toLower = c from dif_neg h]

namespace EqIgnoreAsciiCase

@[refl] protected theorem refl (s : List Char) : EqIgnoreAsciiCase s s := rfl

theorem byteLen_eq (h : EqIgnoreAsciiCase s t) : byteLen s = byteLen t := by
  have hmap : ∀ u : List Char, byteLen (u.map Char.toLower) = byteLen u := by
    intro u
    rw [byteLen, byteLen, List.map_map]
    congr 1
    exact List.map_congr_left fun c _ => utf8Size_toLower c
  rw [← hmap s, ← hmap t, h]

theorem eq_nil_iff (h : EqIgnoreAsciiCase s t) : s = [] ↔ t = [] := by
  rw [← byteLen_eq_zero, ← byteLen_eq_zero, h.byteLen_eq]

theorem append (hs : EqIgnoreAsciiCase s a) (ht : EqIgnoreAsciiCase t b) :
    EqIgnoreAsciiCase (s ++ t) (a ++ b) := by
  rw [EqIgnoreAsciiCase, List.map_append, List.map_append, hs, ht]

/-- Text that is like two texts in a row is cut like them. -/
theorem exists_append (h : EqIgnoreAsciiCase s (a ++ b)) :
    ∃ u r, s = u ++ r ∧ EqIgnoreAsciiCase u a ∧ EqIgnoreAsciiCase r b := by
  rw [EqIgnoreAsciiCase, List.map_append] at h
  obtain ⟨u, r, rfl, hu, hr⟩ := List.map_eq_append_iff.mp h
  exact ⟨u, r, rfl, hu, hr⟩

/-- Texts with alike backs are alike if their fronts are. -/
theorem left_of_append {u r : List Char} (h : EqIgnoreAsciiCase (u ++ r) (a ++ b))
    (hr : EqIgnoreAsciiCase r b) : EqIgnoreAsciiCase u a := by
  rw [EqIgnoreAsciiCase, List.map_append, List.map_append, hr] at h
  exact List.append_cancel_right h

end EqIgnoreAsciiCase

end SteamWire.Str
