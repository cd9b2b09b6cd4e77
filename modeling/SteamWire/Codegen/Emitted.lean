import SteamWire.Codegen.Glue

/-!
# What the glue holds

An item is emitted exactly if it is the first entry for its trait and its type, and the code that
is emitted tells its items apart.
-/

namespace SteamWire.Codegen

namespace GlueItem

/-- The trait that an item implements. -/
def implTrait : GlueItem → GlueTrait
  | .rpcService .. => .rpcService
  | .rpcMethod .. => .rpcMethod
  | .rpcMessageWithKind .. => .rpcMessageWithKind
  | .msgKindEnum .. => .msgKindEnum

/-- The type that it implements the trait for. -/
def implFor : GlueItem → String
  | .rpcService serviceIdent _ => serviceIdent
  | .rpcMethod request _ _ => request
  | .rpcMessageWithKind message _ _ => message
  | .msgKindEnum enumIdent => enumIdent

/-- Two items with the same code in front of anything are the same. -/
theorem tokens_append_inj {a b : GlueItem} {x y : TokenStream}
    (h : a.tokens ++ x = b.tokens ++ y) : a = b ∧ x = y := by
  cases a <;> cases b <;>
    simp [tokens, implHeader, staticStr, GlueTrait.name] at h ⊢ <;> tauto

theorem tokens_ne_nil (item : GlueItem) : item.tokens ≠ [] := by
  cases item <;> simp [tokens, implHeader]

/-- The code of some items tells which they are. -/
theorem flatMap_tokens_injective :
    Function.Injective fun items : List GlueItem => items.flatMap tokens := by
  intro items
  induction items with
  | nil =>
    intro items' h
    cases items' with
    | nil => rfl
    | cons b items' => exact absurd (List.append_eq_nil_iff.mp h.symm).1 (tokens_ne_nil b)
  | cons a items ih =>
    intro items' h
    cases items' with
    | nil => exact absurd (List.append_eq_nil_iff.mp h).1 (tokens_ne_nil a)
    | cons b items' =>
      obtain ⟨rfl, hrest⟩ := tokens_append_inj h
      rw [ih hrest]

end GlueItem

/-! ### The entries of a trait and a type -/

namespace Entries

/-- Items are filed under their types, in the map of their traits. -/
def Filed (e : Entries) : Prop :=
  ∀ t k v, (k, v) ∈ e t → v.implTrait = t ∧ v.implFor = k

variable {e e' : Entries} {t : GlueTrait} {k : String} {v : GlueItem}

theorem Filed.append (h : e.Filed) (h' : e'.Filed) : (e.append e').Filed :=
  fun t k v hmem => (List.mem_append.mp hmem).elim (h t k v) (h' t k v)

theorem Filed.ofAll {α : Type} {f : α → Entries} {l : List α} (h : ∀ x ∈ l, (f x).Filed) :
    (ofAll f l).Filed := by
  intro t k v hmem
  obtain ⟨x, hx, hmem⟩ := List.mem_flatMap.mp hmem
  exact h x hx t k v hmem

theorem mem_intoValues_insertAll (entries : List (String × GlueItem)) :
    v ∈ intoValues (insertAll ∅ entries) ↔ ∃ k, entries.lookup k = some v := by
  simp [mem_intoValues, getElem?_insertAll]

/-- An item is emitted exactly if it is the first for its trait and its type. -/
theorem Filed.mem_items (h : e.Filed) :
    v ∈ e.items ↔ (e v.implTrait).lookup v.implFor = some v := by
  rw [items, List.mem_flatMap]
  constructor
  · rintro ⟨t, -, hmem⟩
    obtain ⟨k, hk⟩ := (mem_intoValues_insertAll _).mp hmem
    obtain ⟨rfl, rfl⟩ := h t k v (mem_of_lookup hk)
    exact hk
  · intro hlookup
    exact ⟨v.implTrait, GlueTrait.mem_all _, (mem_intoValues_insertAll _).mpr ⟨_, hlookup⟩⟩

/-- The items tell the first entries of all traits and types. -/
theorem Filed.items_eq_iff (h : e.Filed) (h' : e'.Filed) :
    e.items = e'.items ↔ ∀ t k, (e t).lookup k = (e' t).lookup k := by
  constructor
  · intro heq t k
    have hmem : ∀ v, v ∈ e.items ↔ v ∈ e'.items := fun v => heq ▸ Iff.rfl
    refine Option.ext fun v => ⟨fun hv => ?_, fun hv => ?_⟩
    · obtain ⟨rfl, rfl⟩ := h t k v (mem_of_lookup hv)
      exact h'.mem_items.mp ((hmem v).mp (h.mem_items.mpr hv))
    · obtain ⟨rfl, rfl⟩ := h' t k v (mem_of_lookup hv)
      exact h.mem_items.mp ((hmem v).mpr (h'.mem_items.mpr hv))
  · intro hlookup
    refine List.flatMap_congr fun t _ => intoValues_eq fun k => ?_
    rw [getElem?_insertAll, getElem?_insertAll, hlookup t k]

/-- No trait is implemented twice for a type. -/
theorem Filed.nodup_items (h : e.Filed) : (e.items.map fun v => (v.implTrait, v.implFor)).Nodup := by
  have hfiled : ∀ t, ∀ v ∈ intoValues (insertAll ∅ (e t)), v.implTrait = t := by
    intro t v hv
    obtain ⟨k, hk⟩ := (mem_intoValues_insertAll _).mp hv
    exact (h t k v (mem_of_lookup hk)).1
  rw [items, List.map_flatMap, List.nodup_flatMap]
  constructor
  · intro t _
    have htypes : ((intoValues (insertAll ∅ (e t))).map GlueItem.implFor).Nodup := by
      refine nodup_map_intoValues fun k v hk => ?_
      rw [getElem?_insertAll] at hk
      exact (h t k v (mem_of_lookup (by simpa using hk))).2
    refine List.Nodup.of_map Prod.snd ?_
    rwa [List.map_map]
  · have hall : GlueTrait.all.Nodup := by decide
    refine hall.imp fun {t t'} hne => List.disjoint_left.mpr fun pair hpair hpair' => hne ?_
    obtain ⟨v, hv, rfl⟩ := List.mem_map.mp hpair
    obtain ⟨v', hv', heq⟩ := List.mem_map.mp hpair'
    rw [← hfiled t v hv, ← hfiled t' v' hv']
    exact (congrArg Prod.fst heq).symm

end Entries

section FileEntries

variable {rules : NameRules} {kinds : List Kind} {symbols : Symbols} {fds : FileDescriptorSet}

theorem filed_fileEntries (file : FileDescriptorProto) :
    (fileEntries rules kinds symbols file).Filed := by
  refine ((Entries.Filed.ofAll fun service _ => ?_).append
    (Entries.Filed.ofAll fun message _ => ?_)).append (Entries.Filed.ofAll fun e _ => ?_)
  · intro t k v hmem
    cases t with
    | rpcService =>
      obtain ⟨rfl, rfl⟩ := Prod.mk.inj (List.mem_singleton.mp hmem)
      exact ⟨rfl, rfl⟩
    | rpcMethod =>
      obtain ⟨method, -, heq⟩ := List.mem_map.mp hmem
      obtain ⟨rfl, rfl⟩ := Prod.mk.inj heq
      exact ⟨rfl, rfl⟩
    | rpcMessageWithKind | msgKindEnum => cases hmem
  · intro t k v hmem
    cases t with
    | rpcMessageWithKind =>
      obtain ⟨kind, -, heq⟩ := List.mem_map.mp hmem
      obtain ⟨rfl, rfl⟩ := Prod.mk.inj heq
      exact ⟨rfl, rfl⟩
    | rpcService | rpcMethod | msgKindEnum => cases hmem
  · intro t k v hmem
    cases t with
    | msgKindEnum =>
      rw [enumEntries] at hmem
      split_ifs at hmem
      · obtain ⟨rfl, rfl⟩ := Prod.mk.inj (List.mem_singleton.mp hmem)
        exact ⟨rfl, rfl⟩
      · cases hmem
    | rpcService | rpcMethod | rpcMessageWithKind => cases hmem

theorem filed_entries : (Entries.ofAll (fileEntries rules kinds symbols) fds.file).Filed :=
  Entries.Filed.ofAll fun file _ => filed_fileEntries file

/-- What is emitted is the first entry for its trait and its type. -/
theorem mem_items_iff {items : List GlueItem} (h : generateItems rules kinds symbols fds = .ok items)
    {item : GlueItem} : item ∈ items ↔
      (Entries.ofAll (fileEntries rules kinds symbols) fds.file item.implTrait).lookup item.implFor =
        some item := by
  obtain ⟨-, rfl⟩ := generateItems_eq_ok_iff.mp h
  exact filed_entries.mem_items

variable {file : FileDescriptorProto} {entry : String × GlueItem}

theorem mem_fileEntries_rpcService : entry ∈ fileEntries rules kinds symbols file .rpcService ↔
    ∃ service ∈ file.service, entry = (service.name, .rpcService service.name service.name) := by
  simp [fileEntries, Entries.append, Entries.ofAll, serviceEntries, messageEntries, enumEntries]

/-- The entries for methods are those of the methods that a file declares. -/
theorem mem_fileEntries_rpcMethod : entry ∈ fileEntries rules kinds symbols file .rpcMethod ↔
    ∃ service ∈ file.service, ∃ method ∈ service.method, entry = methodEntry rules service method := by
  simp [fileEntries, Entries.append, Entries.ofAll, serviceEntries, messageEntries, enumEntries,
    eq_comm]

/-- The entries for messages are those of the messages that a kind is chosen for. -/
theorem mem_fileEntries_rpcMessageWithKind :
    entry ∈ fileEntries rules kinds symbols file .rpcMessageWithKind ↔
      ∃ message ∈ file.messageType, ∃ kind ∈ chooseKind kinds message.name file.name,
        entry = (toUpperCamel rules message.name, .rpcMessageWithKind
          (toUpperCamel rules message.name) kind.enumIdent kind.variantIdent) := by
  simp [fileEntries, Entries.append, Entries.ofAll, serviceEntries, messageEntries, enumEntries,
    eq_comm]

/-- The entries for enums are those of the enums of kinds that are generated. -/
theorem mem_fileEntries_msgKindEnum :
    entry ∈ fileEntries rules kinds symbols file .msgKindEnum ↔
      ∃ e ∈ kindEnums file, symbols.hasEnum (toUpperCamel rules e.name) ∧
        entry = (toUpperCamel rules e.name, .msgKindEnum (toUpperCamel rules e.name)) := by
  simp [fileEntries, Entries.append, Entries.ofAll, serviceEntries, messageEntries, enumEntries,
    kindEnums, and_assoc]

end FileEntries

end SteamWire.Codegen
