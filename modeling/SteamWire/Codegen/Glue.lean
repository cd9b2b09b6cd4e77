import SteamWire.Codegen.Kinds
import SteamWire.Data.EntryMap
import SteamWire.Data.Outcome

/-!
# The generated glue

The generator goes through the files of a descriptor set once, checks the names that it emits
against what prost has generated, and files the impls in four maps. What it emits is settled by
the entries that the files make, and the checks do not depend on these
(`generateItems_eq_ok_iff`).
-/

namespace SteamWire.Codegen

open Std

/-- The panics of the generator. -/
inductive GluePanic where
  | notAnIdent (ident : String)
  | requestType (request fullName fileName : String)
  | responseType (response fullName fileName : String)
  | message (protoName ident : String)
  | kindVariant (enumIdent variantIdent variantProto : String)
  deriving DecidableEq, Repr

/-- What a method's type is reported as. -/
def notAMessage (role ident fullName fileName : String) : String :=
  "RPC " ++ role ++ " type `" ++ ident ++ "` (method " ++ fullName ++ ", " ++ fileName ++
    ") is not a generated message"

/-- The text of a panic; that of an invalid ident is the library's. -/
def GluePanic.text : GluePanic → Option String
  | .notAnIdent _ => none
  | .requestType request fullName fileName =>
    some (notAMessage "request" request fullName fileName)
  | .responseType response fullName fileName =>
    some (notAMessage "response" response fullName fileName)
  | .message protoName ident =>
    some ("message `" ++ protoName ++ "` -> `" ++ ident ++ "` is not generated")
  | .kindVariant enumIdent variantIdent variantProto =>
    some ("kind variant `" ++ enumIdent ++ "::" ++ variantIdent ++ "` (proto `" ++ variantProto ++
      "`) is not present in the generated enum")

/-- The traits that are implemented. -/
inductive GlueTrait where
  | rpcService
  | rpcMethod
  | rpcMessageWithKind
  | msgKindEnum
  deriving DecidableEq, Repr

/-- The traits, in the order in which they are emitted. -/
def GlueTrait.all : List GlueTrait := [.rpcService, .rpcMethod, .rpcMessageWithKind, .msgKindEnum]

theorem GlueTrait.mem_all (t : GlueTrait) : t ∈ all := by cases t <;> decide

def GlueTrait.name : GlueTrait → String
  | .rpcService => "RpcService"
  | .rpcMethod => "RpcMethod"
  | .rpcMessageWithKind => "RpcMessageWithKind"
  | .msgKindEnum => "MsgKindEnum"

/-- What is emitted, by the values that are filled in. -/
inductive GlueItem where
  | rpcService (serviceIdent serviceName : String)
  | rpcMethod (request fullName response : String)
  | rpcMessageWithKind (message enumIdent variantIdent : String)
  | msgKindEnum (enumIdent : String)
  deriving DecidableEq, Repr

/-- A token of the generated code. -/
inductive Token where
  | ident (s : String)
  | punct (s : String)
  | literal (s : String)
  | openBrace
  | closeBrace
  deriving DecidableEq, Repr

abbrev TokenStream := List Token

/-- The head of an `impl`. -/
def implHeader (implTrait : GlueTrait) (typeIdent : String) : TokenStream :=
  [.ident "impl", .punct "::", .ident "steam_wire_proto_common", .punct "::",
    .ident implTrait.name, .ident "for", .ident typeIdent]

/-- `&'static str`. -/
def staticStr : TokenStream := [.punct "&", .punct "'static", .ident "str"]

/-- The quoted code of an item. -/
def GlueItem.tokens : GlueItem → TokenStream
  | .rpcService serviceIdent serviceName =>
    [.ident "pub", .ident "struct", .ident serviceIdent, .openBrace, .closeBrace] ++
      implHeader .rpcService serviceIdent ++
      [.openBrace, .ident "const", .ident "SERVICE_NAME", .punct ":"] ++ staticStr ++
      [.punct "=", .literal serviceName, .punct ";", .closeBrace]
  | .rpcMethod request fullName response =>
    implHeader .rpcMethod request ++
      [.openBrace, .ident "const", .ident "METHOD_NAME", .punct ":"] ++ staticStr ++
      [.punct "=", .literal fullName, .punct ";",
        .ident "type", .ident "Response", .punct "=", .ident response, .punct ";", .closeBrace]
  | .rpcMessageWithKind message enumIdent variantIdent =>
    implHeader .rpcMessageWithKind message ++
      [.openBrace, .ident "type", .ident "KindEnum", .punct "=", .ident enumIdent, .punct ";",
        .ident "const", .ident "KIND", .punct ":", .ident "Self", .punct "::", .ident "KindEnum",
        .punct "=", .ident enumIdent, .punct "::", .ident variantIdent, .punct ";", .closeBrace]
  | .msgKindEnum enumIdent =>
    implHeader .msgKindEnum enumIdent ++
      [.openBrace, .ident "fn", .ident "enum_value", .punct "(", .punct "&", .ident "self",
        .punct ")", .punct "->", .ident "i32", .openBrace, .punct "*", .ident "self", .ident "as",
        .ident "i32", .closeBrace, .closeBrace]

/-- The four maps. -/
structure Glue where
  services : TreeMap String GlueItem := ∅
  methods : TreeMap String GlueItem := ∅
  messageKinds : TreeMap String GlueItem := ∅
  kindEnums : TreeMap String GlueItem := ∅

section Generate

variable (rules : NameRules) (kinds : List Kind) (symbols : Symbols)

/-- Panic unless a condition holds. -/
def check (cond : Bool) (panic : GluePanic) : Except GluePanic Unit :=
  if cond then .ok () else .error panic

/-- `Ident::new`. -/
def newIdent (s : String) : Except GluePanic String :=
  if rules.isIdent s then .ok s else .error (.notAnIdent s)

def fullName (service : ServiceDescriptorProto) (method : MethodDescriptorProto) : String :=
  s!"{service.name}.{method.name}#1"

def addMethod (fileName : String) (service : ServiceDescriptorProto)
    (methods : TreeMap String GlueItem) (method : MethodDescriptorProto) :
    Except GluePanic (TreeMap String GlueItem) := do
  let fullName := fullName service method
  let request := rustTypeFromProtoRef rules method.inputType
  let response := rustTypeFromProtoRef rules method.outputType
  check (symbols.hasStruct request) (.requestType request fullName fileName)
  check (symbols.hasStruct response) (.responseType response fullName fileName)
  let requestIdent ← newIdent rules request
  let responseIdent ← newIdent rules response
  return methods.insertIfNew request (.rpcMethod requestIdent fullName responseIdent)

def addService (fileName : String) (glue : Glue) (service : ServiceDescriptorProto) :
    Except GluePanic Glue := do
  let serviceIdent ← newIdent rules service.name
  let services := glue.services.insertIfNew service.name (.rpcService serviceIdent service.name)
  let methods ← service.method.foldlM (addMethod rules symbols fileName service) glue.methods
  return { glue with services, methods }

def addMessage (fileName : String) (glue : Glue) (message : DescriptorProto) :
    Except GluePanic Glue :=
  match chooseKind kinds message.name fileName with
  | none => .ok glue
  | some kind => do
    let messageIdentStr := toUpperCamel rules message.name
    check (symbols.hasStruct messageIdentStr) (.message message.name messageIdentStr)
    check (symbols.hasVariant kind.enumIdent kind.variantIdent)
      (.kindVariant kind.enumIdent kind.variantIdent kind.variant)
    let messageIdent ← newIdent rules messageIdentStr
    let enumIdent ← newIdent rules kind.enumIdent
    let variantIdent ← newIdent rules kind.variantIdent
    return { glue with
      messageKinds := glue.messageKinds.insertIfNew messageIdentStr
        (.rpcMessageWithKind messageIdent enumIdent variantIdent) }

def addEnum (glue : Glue) (e : EnumDescriptorProto) : Except GluePanic Glue :=
  if ¬ isKindEnum e.name then .ok glue
  else if ¬ symbols.hasEnum (toUpperCamel rules e.name) then .ok glue
  else do
    let enumIdent ← newIdent rules (toUpperCamel rules e.name)
    return { glue with
      kindEnums := glue.kindEnums.insertIfNew (toUpperCamel rules e.name) (.msgKindEnum enumIdent) }

def addFile (glue : Glue) (file : FileDescriptorProto) : Except GluePanic Glue := do
  let glue ← file.service.foldlM (addService rules symbols file.name) glue
  let glue ← file.messageType.foldlM (addMessage rules kinds symbols file.name) glue
  file.enumType.foldlM (addEnum rules symbols) glue

/-- The items of the glue, in the order in which they are emitted. -/
def generateItems (fds : FileDescriptorSet) : Except GluePanic (List GlueItem) := do
  let glue ← fds.file.foldlM (addFile rules kinds symbols) {}
  return intoValues glue.services ++ intoValues glue.methods ++ intoValues glue.messageKinds ++
    intoValues glue.kindEnums

def generateGlue (fds : FileDescriptorSet) : Except GluePanic TokenStream :=
  (generateItems rules kinds symbols fds).map fun items => items.flatMap GlueItem.tokens

end Generate

/-! ### What is checked, and what is emitted -/

section Checks

variable (rules : NameRules) (kinds : List Kind) (symbols : Symbols)

structure MethodChecked (method : MethodDescriptorProto) : Prop where
  request : symbols.hasStruct (rustTypeFromProtoRef rules method.inputType)
  response : symbols.hasStruct (rustTypeFromProtoRef rules method.outputType)
  requestIdent : rules.isIdent (rustTypeFromProtoRef rules method.inputType)
  responseIdent : rules.isIdent (rustTypeFromProtoRef rules method.outputType)

structure MessageChecked (message : DescriptorProto) (kind : Kind) : Prop where
  generated : symbols.hasStruct (toUpperCamel rules message.name)
  variant : symbols.hasVariant kind.enumIdent kind.variantIdent
  messageIdent : rules.isIdent (toUpperCamel rules message.name)
  enumIdent : rules.isIdent kind.enumIdent
  variantIdent : rules.isIdent kind.variantIdent

/-- The generator gets through a file. -/
structure FileChecked (file : FileDescriptorProto) : Prop where
  services : ∀ service ∈ file.service,
    rules.isIdent service.name ∧ ∀ method ∈ service.method, MethodChecked rules symbols method
  messages : ∀ message ∈ file.messageType, ∀ kind ∈ chooseKind kinds message.name file.name,
    MessageChecked rules symbols message kind
  enums : ∀ e ∈ file.enumType, isKindEnum e.name → symbols.hasEnum (toUpperCamel rules e.name) →
    rules.isIdent (toUpperCamel rules e.name)

/-- The generator gets through a descriptor set. -/
def Checked (fds : FileDescriptorSet) : Prop :=
  ∀ file ∈ fds.file, FileChecked rules kinds symbols file

end Checks

/-- The entries that are made, for each of the four maps. -/
abbrev Entries := GlueTrait → List (String × GlueItem)

namespace Entries

def append (a b : Entries) : Entries := fun t => a t ++ b t

/-- The entries that the parts of a list make. -/
def ofAll {α : Type} (f : α → Entries) (l : List α) : Entries := fun t => l.flatMap fun x => f x t

/-- The items that are emitted for the entries, trait by trait. -/
def items (e : Entries) : List GlueItem :=
  GlueTrait.all.flatMap fun t => intoValues (insertAll ∅ (e t))

end Entries

/-- File the entries. -/
def Glue.insert (glue : Glue) (e : Entries) : Glue where
  services := insertAll glue.services (e .rpcService)
  methods := insertAll glue.methods (e .rpcMethod)
  messageKinds := insertAll glue.messageKinds (e .rpcMessageWithKind)
  kindEnums := insertAll glue.kindEnums (e .msgKindEnum)

theorem Glue.insert_insert (glue : Glue) (a b : Entries) :
    (glue.insert a).insert b = glue.insert (a.append b) := by
  simp [Glue.insert, Entries.append]

theorem Glue.foldl_insert {α : Type} (f : α → Entries) (l : List α) (glue : Glue) :
    l.foldl (fun glue x => glue.insert (f x)) glue = glue.insert (.ofAll f l) := by
  induction l generalizing glue with
  | nil => rfl
  | cons x l ih =>
    rw [List.foldl_cons, ih, Glue.insert_insert]
    rfl

/-- A loop that fails, or files the entries of one part after the other. -/
theorem foldlM_insert_eq_ok_iff {α : Type} {f : Glue → α → Except GluePanic Glue} {ok : α → Prop}
    {made : α → Entries} {l : List α} {glue glue' : Glue}
    (hf : ∀ glue x glue', f glue x = .ok glue' ↔ ok x ∧ glue' = glue.insert (made x)) :
    l.foldlM f glue = .ok glue' ↔ (∀ x ∈ l, ok x) ∧ glue' = glue.insert (.ofAll made l) := by
  rw [foldlM_eq_ok_iff hf, Glue.foldl_insert]

section MadeEntries

variable (rules : NameRules) (kinds : List Kind) (symbols : Symbols)

def methodEntry (service : ServiceDescriptorProto) (method : MethodDescriptorProto) :
    String × GlueItem :=
  (rustTypeFromProtoRef rules method.inputType,
    .rpcMethod (rustTypeFromProtoRef rules method.inputType) (fullName service method)
      (rustTypeFromProtoRef rules method.outputType))

def serviceEntries (service : ServiceDescriptorProto) : Entries
  | .rpcService => [(service.name, .rpcService service.name service.name)]
  | .rpcMethod => service.method.map (methodEntry rules service)
  | _ => []

def messageEntries (fileName : String) (message : DescriptorProto) : Entries
  | .rpcMessageWithKind => (chooseKind kinds message.name fileName).toList.map fun kind =>
    (toUpperCamel rules message.name,
      .rpcMessageWithKind (toUpperCamel rules message.name) kind.enumIdent kind.variantIdent)
  | _ => []

def enumEntries (e : EnumDescriptorProto) : Entries
  | .msgKindEnum =>
    if isKindEnum e.name && symbols.hasEnum (toUpperCamel rules e.name) then
      [(toUpperCamel rules e.name, .msgKindEnum (toUpperCamel rules e.name))]
    else []
  | _ => []

def fileEntries (file : FileDescriptorProto) : Entries :=
  ((Entries.ofAll (serviceEntries rules) file.service).append
    (Entries.ofAll (messageEntries rules kinds file.name) file.messageType)).append
    (Entries.ofAll (enumEntries rules symbols) file.enumType)

end MadeEntries

section Spec

variable {rules : NameRules} {kinds : List Kind} {symbols : Symbols} {fileName s t : String}
  {glue glue' : Glue}

theorem check_eq_ok_iff {cond : Bool} {panic : GluePanic} {u : Unit} :
    check cond panic = .ok u ↔ cond := by
  cases cond <;> simp [check]

theorem newIdent_eq_ok_iff : newIdent rules s = .ok t ↔ rules.isIdent s ∧ t = s := by
  rw [newIdent]
  split_ifs with h
  · exact ⟨fun heq => ⟨h, (Except.ok.inj heq).symm⟩, fun heq => congrArg _ heq.2.symm⟩
  · exact ⟨nofun, fun heq => absurd heq.1 h⟩

theorem addMethod_eq_ok_iff {service : ServiceDescriptorProto} {method : MethodDescriptorProto}
    {methods methods' : TreeMap String GlueItem} :
    addMethod rules symbols fileName service methods method = .ok methods' ↔
      MethodChecked rules symbols method ∧
        methods' = insertAll methods [methodEntry rules service method] := by
  simp only [addMethod, bind_eq_ok_iff, check_eq_ok_iff, newIdent_eq_ok_iff]
  constructor
  · rintro ⟨-, hrequest, -, hresponse, -, ⟨hrequestIdent, rfl⟩, -, ⟨hresponseIdent, rfl⟩, heq⟩
    exact ⟨⟨hrequest, hresponse, hrequestIdent, hresponseIdent⟩, (Except.ok.inj heq).symm⟩
  · rintro ⟨h, rfl⟩
    exact ⟨(), h.request, (), h.response, _, ⟨h.requestIdent, rfl⟩, _, ⟨h.responseIdent, rfl⟩, rfl⟩

theorem addMethods_eq_ok_iff {service : ServiceDescriptorProto} {l : List MethodDescriptorProto}
    {methods methods' : TreeMap String GlueItem} :
    l.foldlM (addMethod rules symbols fileName service) methods = .ok methods' ↔
      (∀ method ∈ l, MethodChecked rules symbols method) ∧
        methods' = insertAll methods (l.map (methodEntry rules service)) := by
  have hloop := @foldlM_eq_ok_iff _ _ _ (addMethod rules symbols fileName service)
    (MethodChecked rules symbols)
    (fun methods method => insertAll methods [methodEntry rules service method])
    fun _ _ _ => addMethod_eq_ok_iff
  rw [hloop, insertAll, List.foldl_map]
  rfl

theorem addService_eq_ok_iff {service : ServiceDescriptorProto} :
    addService rules symbols fileName glue service = .ok glue' ↔
      (rules.isIdent service.name ∧ ∀ method ∈ service.method, MethodChecked rules symbols method) ∧
        glue' = glue.insert (serviceEntries rules service) := by
  simp only [addService, bind_eq_ok_iff, newIdent_eq_ok_iff, addMethods_eq_ok_iff]
  constructor
  · rintro ⟨-, ⟨hident, rfl⟩, -, ⟨hchecked, rfl⟩, heq⟩
    exact ⟨⟨hident, hchecked⟩, (Except.ok.inj heq).symm⟩
  · rintro ⟨⟨hident, hchecked⟩, rfl⟩
    exact ⟨_, ⟨hident, rfl⟩, _, ⟨hchecked, rfl⟩, rfl⟩

theorem addMessage_eq_ok_iff {message : DescriptorProto} :
    addMessage rules kinds symbols fileName glue message = .ok glue' ↔
      (∀ kind ∈ chooseKind kinds message.name fileName, MessageChecked rules symbols message kind) ∧
        glue' = glue.insert (messageEntries rules kinds fileName message) := by
  have hinsert : glue.insert (messageEntries rules kinds fileName message) =
      { glue with messageKinds :=
          insertAll glue.messageKinds (messageEntries rules kinds fileName message .rpcMessageWithKind) } :=
    rfl
  rw [addMessage, hinsert, messageEntries]
  cases hkind : chooseKind kinds message.name fileName with
  | none =>
    exact ⟨fun h => ⟨nofun, (Except.ok.inj h).symm⟩, fun h => congrArg _ h.2.symm⟩
  | some kind =>
    simp only [bind_eq_ok_iff, check_eq_ok_iff, newIdent_eq_ok_iff, Option.mem_some_iff,
      forall_eq']
    constructor
    · rintro ⟨-, hgenerated, -, hvariant, -, ⟨hmessage, rfl⟩, -, ⟨henum, rfl⟩, -, ⟨hident, rfl⟩, heq⟩
      exact ⟨⟨hgenerated, hvariant, hmessage, henum, hident⟩, (Except.ok.inj heq).symm⟩
    · rintro ⟨h, rfl⟩
      exact ⟨(), h.generated, (), h.variant, _, ⟨h.messageIdent, rfl⟩, _, ⟨h.enumIdent, rfl⟩,
        _, ⟨h.variantIdent, rfl⟩, rfl⟩

theorem addEnum_eq_ok_iff {e : EnumDescriptorProto} :
    addEnum rules symbols glue e = .ok glue' ↔
      (isKindEnum e.name → symbols.hasEnum (toUpperCamel rules e.name) →
        rules.isIdent (toUpperCamel rules e.name)) ∧
        glue' = glue.insert (enumEntries rules symbols e) := by
  have hinsert : glue.insert (enumEntries rules symbols e) =
      { glue with kindEnums := insertAll glue.kindEnums (enumEntries rules symbols e .msgKindEnum) } :=
    rfl
  rw [addEnum, hinsert, enumEntries]
  by_cases hkind : isKindEnum e.name
  · by_cases hgenerated : symbols.hasEnum (toUpperCamel rules e.name)
    · rw [if_neg (not_not.mpr hkind), if_neg (not_not.mpr hgenerated),
        if_pos (by rw [hkind, hgenerated]; rfl)]
      simp only [bind_eq_ok_iff, newIdent_eq_ok_iff]
      constructor
      · rintro ⟨-, ⟨hident, rfl⟩, heq⟩
        exact ⟨fun _ _ => hident, (Except.ok.inj heq).symm⟩
      · rintro ⟨hident, rfl⟩
        exact ⟨_, ⟨hident hkind hgenerated, rfl⟩, rfl⟩
    · rw [if_neg (not_not.mpr hkind), if_pos hgenerated, if_neg (by simp [hgenerated])]
      exact ⟨fun h => ⟨fun _ h' => absurd h' hgenerated, (Except.ok.inj h).symm⟩,
        fun h => congrArg _ h.2.symm⟩
  · rw [if_pos hkind, if_neg (by simp [hkind])]
    exact ⟨fun h => ⟨fun h' => absurd h' hkind, (Except.ok.inj h).symm⟩, fun h => congrArg _ h.2.symm⟩

/-- The generator gets through a file exactly if its names pass the checks, whatever was emitted
before. -/
theorem addFile_eq_ok_iff {file : FileDescriptorProto} :
    addFile rules kinds symbols glue file = .ok glue' ↔
      FileChecked rules kinds symbols file ∧
        glue' = glue.insert (fileEntries rules kinds symbols file) := by
  have hservices : ∀ glue glue', file.service.foldlM (addService rules symbols file.name) glue =
      .ok glue' ↔ _ := fun _ _ => foldlM_insert_eq_ok_iff fun _ _ _ => addService_eq_ok_iff
  have hmessages : ∀ glue glue', file.messageType.foldlM (addMessage rules kinds symbols file.name)
      glue = .ok glue' ↔ _ := fun _ _ => foldlM_insert_eq_ok_iff fun _ _ _ => addMessage_eq_ok_iff
  have henums : ∀ glue glue', file.enumType.foldlM (addEnum rules symbols) glue = .ok glue' ↔ _ :=
    fun _ _ => foldlM_insert_eq_ok_iff fun _ _ _ => addEnum_eq_ok_iff
  simp only [addFile, bind_eq_ok_iff, hservices, hmessages, henums, fileEntries,
    ← Glue.insert_insert]
  constructor
  · rintro ⟨-, ⟨hservices, rfl⟩, -, ⟨hmessages, rfl⟩, henums, rfl⟩
    exact ⟨⟨hservices, hmessages, henums⟩, rfl⟩
  · rintro ⟨h, rfl⟩
    exact ⟨_, ⟨h.services, rfl⟩, _, ⟨h.messages, rfl⟩, h.enums, rfl⟩

/-- The generator gets through a descriptor set exactly if its names pass the checks, and emits
the first entry for each name. -/
theorem generateItems_eq_ok_iff {fds : FileDescriptorSet} {items : List GlueItem} :
    generateItems rules kinds symbols fds = .ok items ↔
      Checked rules kinds symbols fds ∧
        items = (Entries.ofAll (fileEntries rules kinds symbols) fds.file).items := by
  have hfiles : ∀ glue glue', fds.file.foldlM (addFile rules kinds symbols) glue = .ok glue' ↔ _ :=
    fun _ _ => foldlM_insert_eq_ok_iff fun _ _ _ => addFile_eq_ok_iff
  simp only [generateItems, bind_eq_ok_iff, hfiles]
  constructor
  · rintro ⟨-, ⟨hchecked, rfl⟩, heq⟩
    refine ⟨hchecked, (Except.ok.inj heq).symm.trans ?_⟩
    simp [Entries.items, GlueTrait.all, Glue.insert]
  · rintro ⟨hchecked, rfl⟩
    refine ⟨_, ⟨hchecked, rfl⟩, congrArg Except.ok ?_⟩
    simp [Entries.items, GlueTrait.all, Glue.insert]

end Spec

end SteamWire.Codegen
