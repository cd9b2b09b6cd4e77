import Mathlib.Data.String.Basic
import SteamWire.Codegen.Kind
import SteamWire.Data.StableSort

/-!
# The kinds of a descriptor set

The kinds are sorted with the longest prefix in front, and a message takes the first that
matches, in its file if there is one. So it takes the most specific kind, whatever the order of
the files (`choosesMostSpecific`).
-/

namespace SteamWire.Codegen

open Str

/-- The name of an enum of kinds: `E*Msg` or `E*Messages`. -/
def isKindEnum (name : String) : Bool :=
  ("E".toList <+: name.toList : Bool) &&
    (("Msg".toList <:+ name.toList : Bool) || ("Messages".toList <:+ name.toList : Bool))

def kindEnums (file : FileDescriptorProto) : List EnumDescriptorProto :=
  file.enumType.filter fun e => isKindEnum e.name

variable (rules : NameRules)

/-- The variant that prost generates for a number: that of the first value with it. -/
def canonical (e : EnumDescriptorProto) (number : Int32) : String :=
  ((e.value.find? fun value => value.number = number).map fun value =>
    prostEnumVariant rules e.name value.name).getD ""

def kindOfValue (e : EnumDescriptorProto) (value : EnumValueDescriptorProto) : Kind :=
  .new rules e.name value.name (canonical rules e value.number)

/-- The kinds of a file, as they are collected. -/
def kindsOfFile (file : FileDescriptorProto) : List Kind :=
  (kindEnums file).flatMap fun e => e.value.map (kindOfValue rules e)

/-- What kinds are sorted by: the length of the prefix, the longest in front, and then the names
of the enum and of the value. -/
def Kind.key (kind : Kind) : ℕᵒᵈ ×ₗ String ×ₗ String :=
  toLex (OrderDual.toDual (byteLen kind.enumPrefix), toLex (kind.enumIdent, kind.variant))

def getKinds (fds : FileDescriptorSet) : List Kind :=
  sortByKey Kind.key (fds.file.flatMap (kindsOfFile rules))

/-- The kind of a message: the first that matches with the name of its file, else the first that
matches without. -/
def chooseKind (kinds : List Kind) (protoName fileName : String) : Option Kind :=
  (kinds.find? fun kind => kind.isMatch protoName (some fileName)).or
    (kinds.find? fun kind => kind.isMatch protoName none)

variable {rules} {fds fds' : FileDescriptorSet} {kinds : List Kind}

/-- A kind is that of a value of some enum of kinds. -/
theorem mem_getKinds {kind : Kind} : kind ∈ getKinds rules fds ↔
    ∃ file ∈ fds.file, ∃ e ∈ kindEnums file, ∃ value ∈ e.value, kindOfValue rules e value = kind := by
  simp [getKinds, mem_sortByKey, kindsOfFile]

/-! ### The most specific kind -/

/-- A kind with the longest prefix among those that match, and the least names among these. -/
structure MostSpecific (kinds : List Kind) (p : Kind → Prop) (kind : Kind) : Prop where
  mem : kind ∈ kinds
  isMatch : p kind
  longest : ∀ k ∈ kinds, p k → byteLen k.enumPrefix ≤ byteLen kind.enumPrefix
  least : ∀ k ∈ kinds, p k → byteLen k.enumPrefix = byteLen kind.enumPrefix →
    kind.enumIdent < k.enumIdent ∨ kind.enumIdent = k.enumIdent ∧ kind.variant ≤ k.variant

/-- The order of the key, spelled out. -/
theorem Kind.key_le_iff {a b : Kind} : a.key ≤ b.key ↔
    byteLen b.enumPrefix < byteLen a.enumPrefix ∨
      byteLen a.enumPrefix = byteLen b.enumPrefix ∧
        (a.enumIdent < b.enumIdent ∨ a.enumIdent = b.enumIdent ∧ a.variant ≤ b.variant) := by
  rw [Kind.key, Kind.key, Prod.Lex.toLex_le_toLex, Prod.Lex.toLex_le_toLex]
  rfl

theorem exists_find?_eq_some {p : Kind → Bool} (h : ∃ k ∈ kinds, p k) :
    ∃ kind, kinds.find? p = some kind :=
  Option.isSome_iff_exists.mp (List.find?_isSome.mpr h)

/-- The first match is the most specific one. -/
theorem mostSpecific_of_find? {p : Kind → Bool} {kind : Kind}
    (h : (getKinds rules fds).find? p = some kind) :
    MostSpecific (getKinds rules fds) (fun k => p k) kind := by
  obtain ⟨-, hmatch, hkey⟩ := find?_sortByKey h
  have hle : ∀ k ∈ getKinds rules fds, p k → kind.key ≤ k.key :=
    fun k hk => hkey k (mem_sortByKey.mp hk)
  refine ⟨List.mem_of_find?_eq_some h, hmatch, fun k hk hp => ?_, fun k hk hp hlen => ?_⟩
  · rcases Kind.key_le_iff.mp (hle k hk hp) with hlt | ⟨heq, -⟩
    · exact hlt.le
    · exact heq.ge
  · rcases Kind.key_le_iff.mp (hle k hk hp) with hlt | ⟨-, hnames⟩
    · exact absurd hlen hlt.ne
    · exact hnames

/-- No kind is chosen exactly if none matches. -/
theorem chooseKind_eq_none_iff {protoName fileName : String} :
    chooseKind kinds protoName fileName = none ↔
      ∀ k ∈ kinds, ¬ k.isMatch protoName (some fileName) ∧ ¬ k.isMatch protoName none := by
  rw [chooseKind, Option.or_eq_none_iff, List.find?_eq_none, List.find?_eq_none]
  exact ⟨fun h k hk => ⟨h.1 k hk, h.2 k hk⟩, fun h => ⟨fun k hk => (h k hk).1, fun k hk => (h k hk).2⟩⟩

/-- The chosen kind matches. -/
theorem mem_of_chooseKind {protoName fileName : String} {kind : Kind}
    (h : chooseKind kinds protoName fileName = some kind) :
    kind ∈ kinds ∧ kind.isMatch protoName none := by
  rcases Option.or_eq_some_iff.mp h with h | ⟨-, h⟩
  · have hmatch : kind.isMatch protoName (some fileName) := by simpa using List.find?_some h
    exact ⟨List.mem_of_find?_eq_some h, Kind.isMatch_none hmatch⟩
  · exact ⟨List.mem_of_find?_eq_some h, by simpa using List.find?_some h⟩

/-! ### The order of the files -/

/-- The enums of kinds have different names in Rust, and their values different names. -/
structure UniqueKinds (rules : NameRules) (fds : FileDescriptorSet) : Prop where
  enums : ((fds.file.flatMap kindEnums).map fun e => toUpperCamel rules e.name).Nodup
  values : ∀ file ∈ fds.file, ∀ e ∈ kindEnums file, (e.value.map fun value => value.name).Nodup

/-- The same files in another order, with their enums in another order. -/
def Reordered (fds fds' : FileDescriptorSet) : Prop :=
  ∃ files, List.Forall₂ (fun file file' => ∃ enums, enums.Perm file.enumType ∧
    file' = { file with enumType := enums }) fds.file files ∧ files.Perm fds'.file

/-- With unique names, kinds with the same key are the same. -/
theorem UniqueKinds.eq_of_key_eq (h : UniqueKinds rules fds) {a b : Kind}
    (ha : a ∈ getKinds rules fds) (hb : b ∈ getKinds rules fds) (hkey : a.key = b.key) : a = b := by
  obtain ⟨file, hfile, e, he, value, hvalue, rfl⟩ := mem_getKinds.mp ha
  obtain ⟨file', hfile', e', he', value', hvalue', rfl⟩ := mem_getKinds.mp hb
  have hnames := congrArg (fun key => ofLex (ofLex key).2) hkey
  obtain ⟨hident, hvariant⟩ := Prod.mk.inj hnames
  obtain rfl : e = e' := List.inj_on_of_nodup_map h.enums
    (List.mem_flatMap.mpr ⟨file, hfile, he⟩) (List.mem_flatMap.mpr ⟨file', hfile', he'⟩) hident
  obtain rfl : value = value' := List.inj_on_of_nodup_map (h.values file hfile e he)
    hvalue hvalue' hvariant
  rfl

/-- Reordered files have the same kinds. -/
theorem Reordered.kinds_perm (h : Reordered fds fds') :
    (fds.file.flatMap (kindsOfFile rules)).Perm (fds'.file.flatMap (kindsOfFile rules)) := by
  obtain ⟨files, hfiles, hperm⟩ := h
  refine List.Perm.trans ?_ (hperm.flatMap_right _)
  generalize fds.file = original at hfiles
  clear hperm
  induction hfiles with
  | nil => exact .nil
  | cons hfile _ ih =>
    obtain ⟨enums, henums, rfl⟩ := hfile
    rw [List.flatMap_cons, List.flatMap_cons]
    exact ((henums.symm.filter _).flatMap_right _).append ih

/-- Reordered files have the same sorted kinds, if names are unique. -/
theorem Reordered.getKinds_eq (h : Reordered fds fds') (hunique : UniqueKinds rules fds) :
    getKinds rules fds = getKinds rules fds' :=
  sortByKey_eq_of_perm (fun _ ha _ hb => hunique.eq_of_key_eq (mem_sortByKey.mpr ha)
    (mem_sortByKey.mpr hb)) h.kinds_perm

/-- The kind that is chosen for a message is the most specific one that matches in its file, or
at all, and the order of the files and of the enums in them does not matter. -/
structure ChoosesMostSpecific (rules : NameRules) (fds : FileDescriptorSet)
    (protoName fileName : String) : Prop where
  inFile : (∃ k ∈ getKinds rules fds, k.isMatch protoName (some fileName)) →
    ∃ kind, chooseKind (getKinds rules fds) protoName fileName = some kind ∧
      MostSpecific (getKinds rules fds) (fun k => k.isMatch protoName (some fileName)) kind
  elsewhere : (¬ ∃ k ∈ getKinds rules fds, k.isMatch protoName (some fileName)) →
    (∃ k ∈ getKinds rules fds, k.isMatch protoName none) →
      ∃ kind, chooseKind (getKinds rules fds) protoName fileName = some kind ∧
        MostSpecific (getKinds rules fds) (fun k => k.isMatch protoName none) kind
  nowhere : chooseKind (getKinds rules fds) protoName fileName = none ↔
    ∀ k ∈ getKinds rules fds, ¬ k.isMatch protoName (some fileName) ∧ ¬ k.isMatch protoName none
  reordered : ∀ fds', Reordered fds fds' →
    chooseKind (getKinds rules fds') protoName fileName =
      chooseKind (getKinds rules fds) protoName fileName

/-- A message takes the most specific kind. -/
theorem choosesMostSpecific (hunique : UniqueKinds rules fds) :
    ∀ file ∈ fds.file, ∀ message ∈ file.messageType,
      ChoosesMostSpecific rules fds message.name file.name := by
  intro file _ message _
  refine ⟨?_, ?_, chooseKind_eq_none_iff, fun fds' h => by rw [h.getKinds_eq hunique]⟩
  · intro hmatch
    obtain ⟨kind, hfind⟩ := exists_find?_eq_some hmatch
    exact ⟨kind, by rw [chooseKind, hfind, Option.some_or], mostSpecific_of_find? hfind⟩
  · intro hnone hmatch
    have hfile : (getKinds rules fds).find? (fun kind => kind.isMatch message.name (some file.name)) =
        none := List.find?_eq_none.mpr fun k hk hmatch => hnone ⟨k, hk, hmatch⟩
    obtain ⟨kind, hfind⟩ := exists_find?_eq_some hmatch
    exact ⟨kind, by rw [chooseKind, hfile, hfind, Option.none_or], mostSpecific_of_find? hfind⟩

/-- A message that kinds of two enums match, in a file for the more specific one. -/
theorem choosesMostSpecific_applyAutograph :
    ChoosesMostSpecific (.ofTable [("EGCItemMsg", "EgcItemMsg"),
        ("k_EMsgGCApplyAutograph", "KEMsgGcApplyAutograph")])
      ⟨[{ name := "enums_clientserver.proto"
          enumType := [⟨"EMsg", [⟨"k_EMsgGCApplyAutograph", 2000⟩]⟩] },
        { name := "econ_gcmessages.proto"
          messageType := [⟨"CMsgApplyAutograph"⟩]
          enumType := [⟨"EGCItemMsg", [⟨"k_EMsgGCApplyAutograph", 2523⟩]⟩] }]⟩
      "CMsgApplyAutograph" "econ_gcmessages.proto" :=
  choosesMostSpecific ⟨by decide, by decide⟩ _ (List.mem_cons_of_mem _ List.mem_cons_self)
    _ List.mem_cons_self

end SteamWire.Codegen
