import SteamWire.Codegen.Methods

/-!
# The glue is coherent

What is emitted names generated types and variants only, a kind has the number of the value that
a message matched, and each trait is implemented once for a type (`coherent`).
-/

namespace SteamWire.Codegen

variable (rules : NameRules)

/-- Values with different numbers are called differently in Rust. -/
def DistinctIdents (e : EnumDescriptorProto) : Prop :=
  ∀ value ∈ e.value, ∀ value' ∈ e.value, value.number ≠ value'.number →
    prostEnumVariant rules e.name value.name ≠ prostEnumVariant rules e.name value'.name

/-- The number of a variant of a generated enum, which has one for each number. -/
def variantNumber (e : EnumDescriptorProto) (variantIdent : String) : Option Int32 :=
  (e.value.map fun value => (canonical rules e value.number, value.number)).lookup variantIdent

/-- The kind of a message is that of a value that it matched, under the name of a variant with the
number of the value. -/
structure KindOfMatch (fds : FileDescriptorSet) (messageIdent enumIdent variantIdent : String)
    (file : FileDescriptorProto) (message : DescriptorProto) (e : EnumDescriptorProto)
    (value : EnumValueDescriptorProto) : Prop where
  chosen : chooseKind (getKinds rules fds) message.name file.name = some (kindOfValue rules e value)
  messageIdent : messageIdent = toUpperCamel rules message.name
  enumIdent : enumIdent = toUpperCamel rules e.name
  number : DistinctIdents rules e → variantNumber rules e variantIdent = some value.number

/-- The impls name what has been generated, and fit together. -/
structure Coherent (symbols : Symbols) (fds : FileDescriptorSet) (items : List GlueItem) : Prop where
  methodTypes : ∀ request name response, .rpcMethod request name response ∈ items →
    symbols.hasStruct request ∧ symbols.hasStruct response
  messageTypes : ∀ message enumIdent variantIdent,
    .rpcMessageWithKind message enumIdent variantIdent ∈ items → symbols.hasStruct message
  variants : ∀ message enumIdent variantIdent,
    .rpcMessageWithKind message enumIdent variantIdent ∈ items →
      symbols.hasVariant enumIdent variantIdent
  numbers : ∀ messageIdent enumIdent variantIdent,
    .rpcMessageWithKind messageIdent enumIdent variantIdent ∈ items →
      ∃ file ∈ fds.file, ∃ message ∈ file.messageType, ∃ enumFile ∈ fds.file,
        ∃ e ∈ kindEnums enumFile, ∃ value ∈ e.value,
          KindOfMatch rules fds messageIdent enumIdent variantIdent file message e value
  kindEnums : ∀ message enumIdent variantIdent,
    .rpcMessageWithKind message enumIdent variantIdent ∈ items → .msgKindEnum enumIdent ∈ items
  implOnce : (items.map fun item => (item.implTrait, item.implFor)).Nodup

variable {rules} {kinds : List Kind} {symbols : Symbols} {fds : FileDescriptorSet}
  {items : List GlueItem}

/-! ### Aliases -/

/-- The variant for the number of a value is that of a value with this number. -/
theorem exists_canonical {e : EnumDescriptorProto} {value : EnumValueDescriptorProto}
    (h : value ∈ e.value) : ∃ first ∈ e.value, first.number = value.number ∧
      canonical rules e value.number = prostEnumVariant rules e.name first.name := by
  have hsome : (e.value.find? fun value' => value'.number = value.number).isSome :=
    List.find?_isSome.mpr ⟨value, h, decide_eq_true rfl⟩
  obtain ⟨first, hfirst⟩ := Option.isSome_iff_exists.mp hsome
  have hnumber : first.number = value.number := by simpa using List.find?_some hfirst
  refine ⟨first, List.mem_of_find?_eq_some hfirst, hnumber, ?_⟩
  rw [canonical, hfirst]
  rfl

/-- The variant for an alias has the number of the alias. -/
theorem variantNumber_canonical {e : EnumDescriptorProto} (hdistinct : DistinctIdents rules e)
    {value : EnumValueDescriptorProto} (h : value ∈ e.value) :
    variantNumber rules e (canonical rules e value.number) = some value.number := by
  have hmem : (canonical rules e value.number, value.number) ∈
      e.value.map fun value => (canonical rules e value.number, value.number) :=
    List.mem_map_of_mem h
  obtain ⟨number, hlookup⟩ := exists_lookup_of_mem hmem
  obtain ⟨value', h', heq⟩ := List.mem_map.mp (mem_of_lookup hlookup)
  obtain ⟨hident, rfl⟩ := Prod.mk.inj heq
  rw [variantNumber, hlookup]
  -- both numbers are those of values that are called like the variant
  obtain ⟨first, hfirst, hnumber, hcanonical⟩ := @exists_canonical rules e value h
  obtain ⟨first', hfirst', hnumber', hcanonical'⟩ := @exists_canonical rules e value' h'
  by_contra hne
  refine hdistinct first hfirst first' hfirst' (fun heq => hne ?_) ?_
  · rw [← hnumber, ← hnumber', heq]
  · rw [← hcanonical, ← hcanonical', hident]

/-! ### The items -/

/-- An emitted item is an entry of a file. -/
theorem exists_entry_of_mem_items (h : generateItems rules kinds symbols fds = .ok items)
    {item : GlueItem} (hmem : item ∈ items) : ∃ file ∈ fds.file,
      (item.implFor, item) ∈ fileEntries rules kinds symbols file item.implTrait := by
  exact List.mem_flatMap.mp (mem_of_lookup ((mem_items_iff h).mp hmem))

/-- The impl of a method is that of a declared method. -/
theorem exists_method_of_mem_items (h : generateItems rules kinds symbols fds = .ok items)
    {request name response : String} (hmem : .rpcMethod request name response ∈ items) :
    ∃ method, MethodChecked rules symbols method ∧
      request = rustTypeFromProtoRef rules method.inputType ∧
      response = rustTypeFromProtoRef rules method.outputType := by
  obtain ⟨file, hfile, service, hservice, method, hmethod, hentry⟩ :=
    exists_method_of_lookup ((mem_items_iff h).mp hmem)
  obtain ⟨-, hitem⟩ := Prod.mk.inj hentry
  obtain ⟨hrequest, -, hresponse⟩ := GlueItem.rpcMethod.inj hitem
  have hchecked := (generateItems_eq_ok_iff.mp h).1 file hfile
  exact ⟨method, (hchecked.services service hservice).2 method hmethod, hrequest.symm,
    hresponse.symm⟩

/-- The kind of a message is the one that was chosen for it. -/
theorem exists_message_of_mem_items (h : generateItems rules kinds symbols fds = .ok items)
    {message enumIdent variantIdent : String}
    (hmem : .rpcMessageWithKind message enumIdent variantIdent ∈ items) :
    ∃ file ∈ fds.file, ∃ m ∈ file.messageType, ∃ kind ∈ chooseKind kinds m.name file.name,
      MessageChecked rules symbols m kind ∧ message = toUpperCamel rules m.name ∧
      enumIdent = kind.enumIdent ∧ variantIdent = kind.variantIdent := by
  obtain ⟨file, hfile, hentry⟩ := exists_entry_of_mem_items h hmem
  obtain ⟨m, hm, kind, hkind, heq⟩ := mem_fileEntries_rpcMessageWithKind.mp hentry
  obtain ⟨-, hitem⟩ := Prod.mk.inj heq
  exact ⟨file, hfile, m, hm, kind, hkind,
    ((generateItems_eq_ok_iff.mp h).1 file hfile).messages m hm kind hkind,
    GlueItem.rpcMessageWithKind.inj hitem⟩

/-- A generated enum of kinds gets its impl. -/
theorem msgKindEnum_mem_items (h : generateItems rules kinds symbols fds = .ok items)
    {file : FileDescriptorProto} (hfile : file ∈ fds.file) {e : EnumDescriptorProto}
    (he : e ∈ kindEnums file) (hgenerated : symbols.hasEnum (toUpperCamel rules e.name)) :
    .msgKindEnum (toUpperCamel rules e.name) ∈ items := by
  have hmem : (toUpperCamel rules e.name, .msgKindEnum (toUpperCamel rules e.name)) ∈
      Entries.ofAll (fileEntries rules kinds symbols) fds.file .msgKindEnum :=
    List.mem_flatMap.mpr ⟨file, hfile, mem_fileEntries_msgKindEnum.mpr ⟨e, he, hgenerated, rfl⟩⟩
  obtain ⟨item, hlookup⟩ := exists_lookup_of_mem hmem
  obtain ⟨file', -, hentry⟩ := List.mem_flatMap.mp (mem_of_lookup hlookup)
  obtain ⟨e', -, -, heq⟩ := mem_fileEntries_msgKindEnum.mp hentry
  obtain ⟨hident, rfl⟩ := Prod.mk.inj heq
  rw [mem_items_iff h]
  exact hlookup.trans (by rw [hident])

/-- What the generator emits is coherent. -/
theorem coherent (h : generateItems rules (getKinds rules fds) symbols fds = .ok items) :
    Coherent rules symbols fds items := by
  have hmatch : ∀ {messageIdent enumIdent variantIdent : String},
      .rpcMessageWithKind messageIdent enumIdent variantIdent ∈ items →
        ∃ file ∈ fds.file, ∃ message ∈ file.messageType, ∃ enumFile ∈ fds.file,
          ∃ e ∈ kindEnums enumFile, ∃ value ∈ e.value,
            KindOfMatch rules fds messageIdent enumIdent variantIdent file message e value := by
    intro messageIdent enumIdent variantIdent hmem
    obtain ⟨file, hfile, message, hmessage, kind, hkind, -, hident, henum, hvariant⟩ :=
      exists_message_of_mem_items h hmem
    obtain ⟨enumFile, henumFile, e, he, value, hvalue, rfl⟩ :=
      mem_getKinds.mp (mem_of_chooseKind hkind).1
    refine ⟨file, hfile, message, hmessage, enumFile, henumFile, e, he, value, hvalue,
      hkind, hident, henum, fun hdistinct => ?_⟩
    rw [hvariant]
    exact variantNumber_canonical hdistinct hvalue
  refine ⟨fun request name response hmem => ?_, fun message _ _ hmem => ?_,
    fun _ _ _ hmem => ?_, fun _ _ _ hmem => hmatch hmem, fun _ _ _ hmem => ?_, ?_⟩
  · obtain ⟨method, hchecked, rfl, rfl⟩ := exists_method_of_mem_items h hmem
    exact ⟨hchecked.request, hchecked.response⟩
  · obtain ⟨-, -, m, -, kind, -, hchecked, rfl, -⟩ := exists_message_of_mem_items h hmem
    exact hchecked.generated
  · obtain ⟨-, -, m, -, kind, -, hchecked, -, rfl, rfl⟩ := exists_message_of_mem_items h hmem
    exact hchecked.variant
  · obtain ⟨file, -, m, -, kind, hkind, hchecked, -, rfl, -⟩ := exists_message_of_mem_items h hmem
    obtain ⟨enumFile, henumFile, e, he, value, hvalue, rfl⟩ :=
      mem_getKinds.mp (mem_of_chooseKind hkind).1
    exact msgKindEnum_mem_items h henumFile he (Symbols.hasEnum_of_hasVariant hchecked.variant)
  · obtain ⟨-, rfl⟩ := generateItems_eq_ok_iff.mp h
    exact filed_entries.nodup_items

/-! ### A message that matches an alias -/

/-- The message and values with one number, of which the message matches the second. -/
def playingSessionState : FileDescriptorSet where
  file := [
    { name := "enums_clientserver.proto"
      enumType := [⟨"EMsg", [⟨"k_EMsgInvalid", 0⟩, ⟨"k_EMsgClientConcurrentSessionsBase", 9600⟩,
        ⟨"k_EMsgClientPlayingSessionState", 9600⟩]⟩] },
    { name := "steammessages_clientserver_2.proto"
      messageType := [⟨"CMsgClientPlayingSessionState"⟩] }]

def playingRules : NameRules :=
  .ofTable [("k_EMsgInvalid", "KEMsgInvalid"),
    ("k_EMsgClientConcurrentSessionsBase", "KEMsgClientConcurrentSessionsBase"),
    ("k_EMsgClientPlayingSessionState", "KEMsgClientPlayingSessionState")]

def playingSymbols : Symbols where
  structs := ["CMsgClientPlayingSessionState"]
  enums := [("EMsg", ["KEMsgInvalid", "KEMsgClientConcurrentSessionsBase"])]

/-- The variant that is emitted is that of the alias in front. -/
theorem coherent_playingSessionState :
    Coherent playingRules playingSymbols playingSessionState
      [.rpcMessageWithKind "CMsgClientPlayingSessionState" "EMsg"
        "KEMsgClientConcurrentSessionsBase", .msgKindEnum "EMsg"] :=
  coherent (by decide)

end SteamWire.Codegen
