import SteamWire.Codegen.Descriptor

/-!
# Kinds and the messages they match

A value of a kind enum is the kind of the messages with its name, give or take prefixes. One of
the ways to match drops as much from the front of the name as the prefix of the enum is long,
and does not look at what it drops; two others take a failed attempt for empty text. So there
are kinds that match messages of other names (`Kind.noFalsePositive_iff`).
-/

namespace SteamWire.Codegen

open Str

/-- `char::is_ascii_uppercase`. -/
def isAsciiUppercase (c : Char) : Bool := 'A' ≤ c && c ≤ 'Z'

/-- The prefix in the name of an enum: its capitals behind the first letter, but for the last
one, which starts the next word. -/
def enumPrefixOf (enumName : String) : List Char :=
  ((enumName.toList.drop 1).takeWhile isAsciiUppercase).dropLast

structure Kind where
  enumIdent : String
  variantIdent : String
  enumPrefix : List Char
  variantPrefix : List Char
  variantPrefixAlt : List Char
  variantPrefixAlt2 : List Char
  variant : String
  isGc : Bool
  structNamePrefixAltLen : Nat
  deriving DecidableEq, Repr

/-- `contains`, of text. -/
def containsText (s part : List Char) : Bool := part <:+: s

/-- The name of a message without its own prefixes. -/
def bareStructName (structName : String) : List Char :=
  let name := (stripPrefix ['C'] structName.toList).getD structName.toList
  (stripPrefix "Msg".toList name).getD name

namespace Kind

def new (rules : NameRules) (enumName variantName variantIdent : String) : Kind where
  isGc := containsText ("k_EMsg".toList ++ enumPrefixOf enumName) "GC".toList
  enumIdent := toUpperCamel rules enumName
  variantIdent
  enumPrefix := (enumPrefixOf enumName).map Char.toLower
  variantPrefix := "k_EMsg".toList ++ enumPrefixOf enumName
  variantPrefixAlt := "k_E".toList ++ enumPrefixOf enumName ++ "Msg_".toList
  variantPrefixAlt2 := "k_EMsg".toList
  variant := variantName
  structNamePrefixAltLen := byteLen (enumPrefixOf enumName)

/-- The name of the value without the first of the prefixes that it has. -/
def stripped (kind : Kind) : Option (List Char) :=
  (stripPrefix kind.variantPrefix kind.variant.toList).or
    ((stripPrefix kind.variantPrefixAlt kind.variant.toList).or
      (stripPrefix kind.variantPrefixAlt2 kind.variant.toList))

/-- The file may have messages of the kind, by its name. -/
def matchesFile (kind : Kind) : Option String → Bool
  | none => true
  | some fileName =>
    containsText fileName.toList kind.enumPrefix ||
      containsText (fileName.toList.filter (· ≠ '_')) kind.enumPrefix

/-- `Kind::matches`. -/
def isMatch (kind : Kind) (structName : String) (fileName : Option String) : Bool :=
  let structName := bareStructName structName
  match kind.stripped with
  | none => false
  | some stripped =>
    kind.matchesFile fileName &&
      (decide (EqIgnoreAsciiCase structName stripped) ||
        (kind.isGc &&
          decide (EqIgnoreAsciiCase ((stripPrefix "GC".toList stripped).getD []) structName)) ||
        decide (EqIgnoreAsciiCase ((getFrom kind.structNamePrefixAltLen structName).getD [])
          stripped))

/-- A kind that matches with the name of the file matches without it. -/
theorem isMatch_none {kind : Kind} {structName : String} {fileName : Option String}
    (h : kind.isMatch structName fileName) : kind.isMatch structName none := by
  rw [isMatch] at h ⊢
  cases hstripped : kind.stripped with
  | none => simp [hstripped] at h
  | some stripped =>
    simp only [hstripped, Bool.and_eq_true] at h ⊢
    exact ⟨rfl, h.2⟩

/-! ### False positives -/

/-- What is left of a value's name is the name of a message, up to a prefix on one side: the
`GC` of a game coordinator in front of the message, or the enum's own in front of the value. -/
def Explains (enumPrefix stripped structName : List Char) : Prop :=
  (EqIgnoreAsciiCase structName stripped ∨
    "GC".toList <:+: enumPrefix ∧ EqIgnoreAsciiCase stripped ("GC".toList ++ structName) ∨
    EqIgnoreAsciiCase structName (enumPrefix ++ stripped)) ∧
  (structName = [] → stripped = [])

/-- The prefixes that a value's name may have. -/
def recognisedPrefixes (enumName : String) : List (List Char) :=
  ["k_EMsg".toList ++ enumPrefixOf enumName, "k_E".toList ++ enumPrefixOf enumName ++ "Msg_".toList,
    "k_EMsg".toList]

/-- If the kind matches, the name of the value without one of its prefixes says why. -/
def NoFalsePositive (rules : NameRules) (enumName valueName variantIdent structName : String)
    (fileName : Option String) : Prop :=
  (new rules enumName valueName variantIdent).isMatch structName fileName →
    ∃ front ∈ recognisedPrefixes enumName, ∃ stripped, valueName.toList = front ++ stripped ∧
      Explains (enumPrefixOf enumName) stripped (bareStructName structName)

/-- The ways in which a kind matches a message that it should not: the message has no name, and
what the value has is taken for that; the value has no name, and the message's is too short to
drop the prefix from; or something else than the prefix is dropped. -/
inductive Misled (enumName valueName : String) (stripped structName : List Char) : Prop
  | noStructName (hgc : "GC".toList <:+: enumPrefixOf enumName) (hstruct : structName = [])
      (hvalue : stripped ≠ []) (hrest : (stripPrefix "GC".toList stripped).getD [] = [])
  | noValueName (hvalue : stripped = []) (hstruct : structName ≠ [])
      (hshort : getFrom (byteLen (enumPrefixOf enumName)) structName = none)
      (hwhole : ¬ (valueName.toList = "k_EMsg".toList ++ enumPrefixOf enumName ∧
        "GC".toList <:+: enumPrefixOf enumName ∧
        EqIgnoreAsciiCase (enumPrefixOf enumName) ("GC".toList ++ structName)))
  | otherPrefix (dropped rest : List Char) (hstruct : structName = dropped ++ rest)
      (hlen : byteLen dropped = byteLen (enumPrefixOf enumName))
      (hrest : EqIgnoreAsciiCase rest stripped)
      (hdropped : ¬ EqIgnoreAsciiCase dropped (enumPrefixOf enumName))

variable {rules : NameRules} {enumName valueName variantIdent structName : String}
  {fileName : Option String} {stripped : List Char}

/-- A prefix is a game coordinator's if it has `GC` in it, not counting what stands before it. -/
theorem isGc_new : (new rules enumName valueName variantIdent).isGc ↔
    "GC".toList <:+: enumPrefixOf enumName := by
  simp [new, containsText, List.infix_cons_iff]

theorem isAsciiUppercase_of_mem {c : Char} (h : c ∈ enumPrefixOf enumName) :
    isAsciiUppercase c :=
  List.mem_takeWhile_imp (List.mem_of_mem_dropLast h)

/-- With a prefix, the second form of a value's name is neither of the others. -/
theorem append_ne_of_ne_nil (hne : enumPrefixOf enumName ≠ []) (x y : List Char) :
    "k_E".toList ++ enumPrefixOf enumName ++ "Msg_".toList ++ x ≠ "k_EMsg".toList ++ y := by
  intro h
  obtain ⟨c, rest, hwhole⟩ := List.exists_cons_of_ne_nil hne
  have hupper := @isAsciiUppercase_of_mem enumName
  rw [hwhole] at h hupper
  -- behind `k_E` the one goes on with capitals only, and the other with `Ms`
  cases rest with
  | nil => simp at h
  | cons d rest =>
    obtain rfl : d = 's' := by
      simp at h
      exact h.2.1
    exact absurd (hupper (List.mem_cons_of_mem c List.mem_cons_self)) (by decide)

/-- The kind takes the first of the prefixes that the name has. -/
theorem stripped_cases
    (h : (new rules enumName valueName variantIdent).stripped = some stripped) :
    valueName.toList = "k_EMsg".toList ++ enumPrefixOf enumName ++ stripped ∨
      (∀ x, valueName.toList ≠ "k_EMsg".toList ++ enumPrefixOf enumName ++ x) ∧
        (valueName.toList = "k_E".toList ++ enumPrefixOf enumName ++ "Msg_".toList ++ stripped ∨
          valueName.toList = "k_EMsg".toList ++ stripped) := by
  rcases Option.or_eq_some_iff.mp h with h | ⟨hnot, h⟩
  · exact .inl (stripPrefix_eq_some_iff.mp h)
  · refine .inr ⟨stripPrefix_eq_none_iff.mp hnot, ?_⟩
    rcases Option.or_eq_some_iff.mp h with h | ⟨-, h⟩
    · exact .inl (stripPrefix_eq_some_iff.mp h)
    · exact .inr (stripPrefix_eq_some_iff.mp h)

/-- What the kind leaves of a name is the name without one of the prefixes. -/
theorem exists_front_of_stripped
    (h : (new rules enumName valueName variantIdent).stripped = some stripped) :
    ∃ front ∈ recognisedPrefixes enumName, valueName.toList = front ++ stripped := by
  rcases stripped_cases h with h | ⟨-, h | h⟩
  · exact ⟨_, List.mem_cons_self, h⟩
  · exact ⟨_, List.mem_cons_of_mem _ List.mem_cons_self, h⟩
  · exact ⟨_, List.mem_cons_of_mem _ (List.mem_cons_of_mem _ List.mem_cons_self), h⟩

/-- What is left of a name without some prefix is what the kind leaves of it, or has the prefix
of the enum in front of that. -/
theorem eq_or_of_stripped (hne : enumPrefixOf enumName ≠ [])
    (h : (new rules enumName valueName variantIdent).stripped = some stripped) {front s : List Char}
    (hfront : front ∈ recognisedPrefixes enumName) (hvalue : valueName.toList = front ++ s) :
    s = stripped ∨ valueName.toList = "k_EMsg".toList ++ enumPrefixOf enumName ++ stripped ∧
      s = enumPrefixOf enumName ++ stripped := by
  have hsecond := append_ne_of_ne_nil hne
  simp only [recognisedPrefixes, List.mem_cons, List.not_mem_nil, or_false] at hfront
  rcases stripped_cases h with hfirst | ⟨hnot, h | h⟩
  · rcases hfront with rfl | rfl | rfl
    · exact .inl (List.append_cancel_left (hvalue.symm.trans hfirst))
    · rw [hfirst, List.append_assoc] at hvalue
      exact absurd hvalue.symm (hsecond _ _)
    · refine .inr ⟨hfirst, ?_⟩
      rw [hfirst, List.append_assoc] at hvalue
      exact (List.append_cancel_left hvalue).symm
  · rcases hfront with rfl | rfl | rfl
    · exact absurd hvalue (hnot s)
    · exact .inl (List.append_cancel_left (hvalue.symm.trans h))
    · exact absurd (h.symm.trans hvalue) (hsecond _ _)
  · rcases hfront with rfl | rfl | rfl
    · exact absurd hvalue (hnot s)
    · exact absurd (hvalue.symm.trans h) (hsecond _ _)
    · exact .inl (List.append_cancel_left (hvalue.symm.trans h))

/-- A match, spelled out. -/
theorem isMatch_new_iff :
    (new rules enumName valueName variantIdent).isMatch structName fileName ↔
      (new rules enumName valueName variantIdent).matchesFile fileName ∧
        ∃ stripped, (new rules enumName valueName variantIdent).stripped = some stripped ∧
          (EqIgnoreAsciiCase (bareStructName structName) stripped ∨
            "GC".toList <:+: enumPrefixOf enumName ∧
              EqIgnoreAsciiCase ((stripPrefix "GC".toList stripped).getD [])
                (bareStructName structName) ∨
            EqIgnoreAsciiCase
              ((getFrom (byteLen (enumPrefixOf enumName)) (bareStructName structName)).getD [])
              stripped) := by
  rw [← @isGc_new rules enumName valueName variantIdent, isMatch,
    show byteLen (enumPrefixOf enumName) =
      (new rules enumName valueName variantIdent).structNamePrefixAltLen from rfl]
  cases (new rules enumName valueName variantIdent).stripped with
  | none => simp
  | some stripped => simp [or_assoc]

/-- A match that misleads is a match. -/
theorem Misled.isMatch (hmisled : Misled enumName valueName stripped (bareStructName structName))
    (hfile : (new rules enumName valueName variantIdent).matchesFile fileName)
    (hstripped : (new rules enumName valueName variantIdent).stripped = some stripped) :
    (new rules enumName valueName variantIdent).isMatch structName fileName := by
  rw [isMatch_new_iff]
  refine ⟨hfile, stripped, hstripped, ?_⟩
  cases hmisled with
  | noStructName hgc hstruct hvalue hrest =>
    rw [hrest, hstruct]
    exact .inr (.inl ⟨hgc, rfl⟩)
  | noValueName hvalue hstruct hshort hwhole =>
    rw [hshort, hvalue]
    exact .inr (.inr rfl)
  | otherPrefix dropped rest hstruct hlen hrest hdropped =>
    rw [getFrom_eq_some_iff.mpr ⟨dropped, hstruct, hlen⟩]
    exact .inr (.inr hrest)

/-- The prefix is there when a kind misleads. -/
theorem Misled.enumPrefixOf_ne_nil {structName : List Char}
    (h : Misled enumName valueName stripped structName) : enumPrefixOf enumName ≠ [] := by
  intro hnil
  cases h with
  | noStructName hgc hstruct hvalue hrest =>
    rw [hnil] at hgc
    exact absurd (List.eq_nil_of_infix_nil hgc) (by decide)
  | noValueName hvalue hstruct hshort hwhole =>
    rw [hnil, getFrom_eq_some_iff.mpr ⟨[], structName.nil_append.symm, rfl⟩] at hshort
    cases hshort
  | otherPrefix dropped rest hstruct hlen hrest hdropped =>
    rw [hnil] at hlen hdropped
    rw [byteLen_eq_zero.mp hlen] at hdropped
    exact hdropped rfl

/-- Nothing explains a match that misleads. -/
theorem Misled.not_explains {structName : List Char}
    (hmisled : Misled enumName valueName stripped structName) {s : List Char}
    (hs : s = stripped ∨ valueName.toList = "k_EMsg".toList ++ enumPrefixOf enumName ++ stripped ∧
      s = enumPrefixOf enumName ++ stripped) :
    ¬ Explains (enumPrefixOf enumName) s structName := by
  rintro ⟨hlike, hnil⟩
  have hne := hmisled.enumPrefixOf_ne_nil
  have hpos : byteLen (enumPrefixOf enumName) ≠ 0 := fun h => hne (byteLen_eq_zero.mp h)
  cases hmisled with
  | noStructName hgc hstruct hvalue hrest =>
    have hempty := hnil hstruct
    rcases hs with rfl | ⟨-, rfl⟩
    · exact hvalue hempty
    · exact hvalue (List.append_eq_nil_iff.mp hempty).2
  | noValueName hvalue hstruct hshort hwhole =>
    -- text that starts like the prefix is long enough to be cut behind it
    have hlong : ∀ x, ¬ EqIgnoreAsciiCase structName (enumPrefixOf enumName ++ x) := by
      intro x hx
      obtain ⟨front, rest, rfl, hfront, -⟩ := hx.exists_append
      rw [getFrom_eq_some_iff.mpr ⟨front, rfl, hfront.byteLen_eq⟩] at hshort
      cases hshort
    subst hvalue
    rcases hs with rfl | ⟨hvalue, rfl⟩
    · rcases hlike with hlike | ⟨-, hlike⟩ | hlike
      · exact hstruct (hlike.eq_nil_iff.mpr rfl)
      · exact absurd (hlike.eq_nil_iff.mp rfl) (by simp)
      · exact hlong _ hlike
    · rw [List.append_nil] at hvalue hlike
      rcases hlike with hlike | ⟨hgc, hlike⟩ | hlike
      · exact hlong [] (by rwa [List.append_nil])
      · exact hwhole ⟨hvalue, hgc, hlike⟩
      · exact hlong _ hlike
  | otherPrefix dropped rest hstruct hlen hrest hdropped =>
    subst hstruct
    have hrestLen := hrest.byteLen_eq
    have hgcLen : byteLen "GC".toList = 2 := by decide
    -- what is dropped is the prefix, or the lengths do not fit
    rcases hs with rfl | ⟨-, rfl⟩
    · rcases hlike with hlike | ⟨-, hlike⟩ | hlike
      · have hlikeLen := hlike.byteLen_eq
        rw [byteLen_append] at hlikeLen
        omega
      · have hlikeLen := hlike.byteLen_eq
        rw [byteLen_append, byteLen_append] at hlikeLen
        omega
      · exact hdropped (hlike.left_of_append hrest)
    · rcases hlike with hlike | ⟨-, hlike⟩ | hlike
      · exact hdropped (hlike.left_of_append hrest)
      · have hlikeLen := hlike.byteLen_eq
        rw [byteLen_append, byteLen_append, byteLen_append] at hlikeLen
        omega
      · have hlikeLen := hlike.byteLen_eq
        rw [byteLen_append, byteLen_append, byteLen_append] at hlikeLen
        omega

/-- A match that does not mislead is explained by what the kind leaves of the name, or by the
name with the prefix of the enum. -/
theorem exists_explains_of_not_misled {structName : List Char}
    (hnot : ¬ Misled enumName valueName stripped structName)
    (hlike : EqIgnoreAsciiCase structName stripped ∨
      "GC".toList <:+: enumPrefixOf enumName ∧
        EqIgnoreAsciiCase ((stripPrefix "GC".toList stripped).getD []) structName ∨
      EqIgnoreAsciiCase ((getFrom (byteLen (enumPrefixOf enumName)) structName).getD []) stripped) :
    Explains (enumPrefixOf enumName) stripped structName ∨
      valueName.toList = "k_EMsg".toList ++ enumPrefixOf enumName ∧
        Explains (enumPrefixOf enumName) (enumPrefixOf enumName) structName := by
  rcases hlike with hlike | ⟨hgc, hlike⟩ | hlike
  · exact .inl ⟨.inl hlike, hlike.eq_nil_iff.mp⟩
  · refine .inl ?_
    by_cases hstruct : structName = []
    · -- the kind takes the failed attempt, or nothing behind `GC`, for the message without a name
      have hvalue : stripped = [] := by
        by_contra hvalue
        rw [hstruct] at hlike
        exact hnot (.noStructName hgc hstruct hvalue (hlike.eq_nil_iff.mpr rfl))
      exact ⟨.inl (by rw [hstruct, hvalue]), fun _ => hvalue⟩
    · cases hrest : stripPrefix "GC".toList stripped with
      | none =>
        rw [hrest] at hlike
        exact absurd (hlike.eq_nil_iff.mp rfl) hstruct
      | some rest =>
        rw [hrest] at hlike
        rw [stripPrefix_eq_some_iff.mp hrest]
        exact ⟨.inr (.inl ⟨hgc, .append rfl hlike⟩), fun h => absurd h hstruct⟩
  · cases hcut : getFrom (byteLen (enumPrefixOf enumName)) structName with
    | none =>
      rw [hcut] at hlike
      have hvalue : stripped = [] := hlike.eq_nil_iff.mp rfl
      by_cases hstruct : structName = []
      · exact .inl ⟨.inl (by rw [hstruct, hvalue]), fun _ => hvalue⟩
      · by_cases hwhole : valueName.toList = "k_EMsg".toList ++ enumPrefixOf enumName ∧
          "GC".toList <:+: enumPrefixOf enumName ∧
          EqIgnoreAsciiCase (enumPrefixOf enumName) ("GC".toList ++ structName)
        · exact .inr ⟨hwhole.1, .inr (.inl hwhole.2), fun h => absurd h hstruct⟩
        · exact absurd (.noValueName hvalue hstruct hcut hwhole) hnot
    | some rest =>
      rw [hcut] at hlike
      obtain ⟨dropped, rfl, hlen⟩ := getFrom_eq_some_iff.mp hcut
      by_cases hdropped : EqIgnoreAsciiCase dropped (enumPrefixOf enumName)
      · refine .inl ⟨.inr (.inr (hdropped.append hlike)), fun h => ?_⟩
        exact hlike.eq_nil_iff.mp (List.append_eq_nil_iff.mp h).2
      · exact absurd (.otherPrefix dropped rest rfl hlen hlike hdropped) hnot

/-- A kind that is misled has a false positive. -/
theorem Misled.not_noFalsePositive
    (hmisled : Misled enumName valueName stripped (bareStructName structName))
    (hfile : (new rules enumName valueName variantIdent).matchesFile fileName)
    (hstripped : (new rules enumName valueName variantIdent).stripped = some stripped) :
    ¬ NoFalsePositive rules enumName valueName variantIdent structName fileName := by
  intro h
  obtain ⟨front, hfront, s, hvalue, hexplains⟩ := h (hmisled.isMatch hfile hstripped)
  exact hmisled.not_explains
    (eq_or_of_stripped hmisled.enumPrefixOf_ne_nil hstripped hfront hvalue) hexplains

/-- A kind has no false positive unless it is misled. -/
theorem noFalsePositive_iff :
    NoFalsePositive rules enumName valueName variantIdent structName fileName ↔
      ¬ ((new rules enumName valueName variantIdent).matchesFile fileName ∧
        ∃ stripped, (new rules enumName valueName variantIdent).stripped = some stripped ∧
          Misled enumName valueName stripped (bareStructName structName)) := by
  constructor
  · rintro h ⟨hfile, stripped, hstripped, hmisled⟩
    exact hmisled.not_noFalsePositive hfile hstripped h
  · intro h hmatch
    obtain ⟨hfile, stripped, hstripped, hlike⟩ := isMatch_new_iff.mp hmatch
    have hnot : ¬ Misled enumName valueName stripped (bareStructName structName) :=
      fun hmisled => h ⟨hfile, stripped, hstripped, hmisled⟩
    rcases exists_explains_of_not_misled hnot hlike with hexplains | ⟨hvalue, hexplains⟩
    · obtain ⟨front, hfront, hvalue⟩ := exists_front_of_stripped hstripped
      exact ⟨front, hfront, stripped, hvalue, hexplains⟩
    · exact ⟨"k_EMsg".toList, List.mem_cons_of_mem _ (List.mem_cons_of_mem _ List.mem_cons_self),
        enumPrefixOf enumName, hvalue, hexplains⟩

/-- A kind for autographs matches the message that takes one back. -/
theorem not_noFalsePositive_unApplyAutograph :
    ¬ NoFalsePositive (.ofTable [("EGCItemMsg", "EgcItemMsg")]) "EGCItemMsg"
      "k_EMsgGCApplyAutograph" "KEMsgGcApplyAutograph" "CMsgUnApplyAutograph"
      (some "econ_gcmessages") := by
  have hmisled : Misled "EGCItemMsg" "k_EMsgGCApplyAutograph" "ApplyAutograph".toList
      (bareStructName "CMsgUnApplyAutograph") :=
    .otherPrefix "Un".toList "ApplyAutograph".toList (by decide) (by decide) rfl (by decide)
  exact hmisled.not_noFalsePositive (by decide) (by decide)

end Kind

end SteamWire.Codegen
