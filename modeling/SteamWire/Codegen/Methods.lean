import SteamWire.Codegen.Emitted

/-!
# Methods in the glue

The impl of a method is filed under the name of its request, and the first method for a name
stays. So the methods of a descriptor set are all emitted exactly if those with requests of one
name do not differ (`allReachable_iff`). A reference to a nested message also names the wrong one.
-/

namespace SteamWire.Codegen

/-- A generated type: the names of the messages that it is nested in, and its own. -/
structure RustType where
  outer : String
  ident : String
  deriving DecidableEq, Repr

variable (rules : NameRules)

/-- The type that is generated for a message. -/
def generatedType (reference : String) : RustType :=
  ⟨outerParts reference, rustTypeFromProtoRef rules reference⟩

/-- What a name in the glue stands for, which is in the same module as the outer types. -/
def RustType.bare (ident : String) : RustType := ⟨"", ident⟩

/-- An impl sends a request of the input type under the name of a method, and takes a response of
the output type. -/
def Reachable (items : List GlueItem) (service : ServiceDescriptorProto)
    (method : MethodDescriptorProto) : Prop :=
  ∃ request response, .rpcMethod request (fullName service method) response ∈ items ∧
    RustType.bare request = generatedType rules method.inputType ∧
    RustType.bare response = generatedType rules method.outputType

/-- Every declared method is reachable. -/
def AllReachable (fds : FileDescriptorSet) (items : List GlueItem) : Prop :=
  ∀ file ∈ fds.file, ∀ service ∈ file.service, ∀ method ∈ service.method,
    Reachable rules items service method

/-- The types of all methods are declared at the top level. -/
def TopLevelTypes (fds : FileDescriptorSet) : Prop :=
  ∀ file ∈ fds.file, ∀ service ∈ file.service, ∀ method ∈ service.method,
    outerParts method.inputType = "" ∧ outerParts method.outputType = ""

/-- Methods with requests of one name have one name themselves, and responses of one name. -/
def DistinctRequests (fds : FileDescriptorSet) : Prop :=
  ∀ file ∈ fds.file, ∀ service ∈ file.service, ∀ method ∈ service.method,
  ∀ file' ∈ fds.file, ∀ service' ∈ file'.service, ∀ method' ∈ service'.method,
    rustTypeFromProtoRef rules method.inputType = rustTypeFromProtoRef rules method'.inputType →
      fullName service method = fullName service' method' ∧
        rustTypeFromProtoRef rules method.outputType = rustTypeFromProtoRef rules method'.outputType

variable {rules} {kinds : List Kind} {symbols : Symbols} {fds : FileDescriptorSet}
  {items : List GlueItem}

theorem bare_eq_generatedType_iff {ident reference : String} :
    RustType.bare ident = generatedType rules reference ↔
      outerParts reference = "" ∧ ident = rustTypeFromProtoRef rules reference := by
  rw [RustType.bare, generatedType, RustType.mk.injEq]
  exact and_congr_left' eq_comm

/-- A method is reachable exactly if its types are at the top level, and it makes the entry for
its request. -/
theorem reachable_iff (h : generateItems rules kinds symbols fds = .ok items)
    {service : ServiceDescriptorProto} {method : MethodDescriptorProto} :
    Reachable rules items service method ↔
      (outerParts method.inputType = "" ∧ outerParts method.outputType = "") ∧
        (Entries.ofAll (fileEntries rules kinds symbols) fds.file .rpcMethod).lookup
          (rustTypeFromProtoRef rules method.inputType) = some (methodEntry rules service method).2 := by
  constructor
  · rintro ⟨request, response, hmem, hrequest, hresponse⟩
    obtain ⟨hinput, rfl⟩ := bare_eq_generatedType_iff.mp hrequest
    obtain ⟨houtput, rfl⟩ := bare_eq_generatedType_iff.mp hresponse
    exact ⟨⟨hinput, houtput⟩, (mem_items_iff h).mp hmem⟩
  · rintro ⟨⟨hinput, houtput⟩, hlookup⟩
    exact ⟨_, _, (mem_items_iff h).mpr hlookup,
      bare_eq_generatedType_iff.mpr ⟨hinput, rfl⟩, bare_eq_generatedType_iff.mpr ⟨houtput, rfl⟩⟩

/-- The entry for a request is that of a declared method. -/
theorem exists_method_of_lookup {request : String} {item : GlueItem}
    (h : (Entries.ofAll (fileEntries rules kinds symbols) fds.file .rpcMethod).lookup request =
      some item) : ∃ file ∈ fds.file, ∃ service ∈ file.service, ∃ method ∈ service.method,
        methodEntry rules service method = (request, item) := by
  obtain ⟨file, hfile, hmem⟩ := List.mem_flatMap.mp (mem_of_lookup h)
  obtain ⟨service, hservice, method, hmethod, heq⟩ := mem_fileEntries_rpcMethod.mp hmem
  exact ⟨file, hfile, service, hservice, method, hmethod, heq.symm⟩

/-- There is an entry for the request of a declared method. -/
theorem exists_lookup_of_method {file : FileDescriptorProto} (hfile : file ∈ fds.file)
    {service : ServiceDescriptorProto} (hservice : service ∈ file.service)
    {method : MethodDescriptorProto} (hmethod : method ∈ service.method) :
    ∃ item, (Entries.ofAll (fileEntries rules kinds symbols) fds.file .rpcMethod).lookup
      (rustTypeFromProtoRef rules method.inputType) = some item :=
  exists_lookup_of_mem (List.mem_flatMap.mpr
    ⟨file, hfile, mem_fileEntries_rpcMethod.mpr ⟨service, hservice, method, hmethod, rfl⟩⟩)

/-- All methods are reachable exactly if their types are at the top level, and those that share a
request do not differ. -/
theorem allReachable_iff (h : generateItems rules kinds symbols fds = .ok items) :
    AllReachable rules fds items ↔ TopLevelTypes fds ∧ DistinctRequests rules fds := by
  constructor
  · intro hreachable
    refine ⟨fun file hfile service hservice method hmethod =>
      ((reachable_iff h).mp (hreachable file hfile service hservice method hmethod)).1, ?_⟩
    intro file hfile service hservice method hmethod file' hfile' service' hservice' method' hmethod'
      hrequest
    have hfirst := ((reachable_iff h).mp (hreachable file hfile service hservice method hmethod)).2
    have hfirst' :=
      ((reachable_iff h).mp (hreachable file' hfile' service' hservice' method' hmethod')).2
    rw [← hrequest, hfirst] at hfirst'
    exact (GlueItem.rpcMethod.inj (Option.some.inj hfirst')).2
  · rintro ⟨htop, hdistinct⟩ file hfile service hservice method hmethod
    refine (reachable_iff h).mpr ⟨htop file hfile service hservice method hmethod, ?_⟩
    obtain ⟨item, hlookup⟩ := exists_lookup_of_method hfile hservice hmethod
    -- the method that makes the entry may be another one with the same request
    obtain ⟨file', hfile', service', hservice', method', hmethod', hentry⟩ :=
      exists_method_of_lookup hlookup
    obtain ⟨hrequest, rfl⟩ := Prod.mk.inj hentry
    obtain ⟨hname, hresponse⟩ := hdistinct file hfile service hservice method hmethod
      file' hfile' service' hservice' method' hmethod' hrequest.symm
    rw [hlookup, methodEntry, hname, hresponse, ← hrequest]

/-! ### A service whose methods share a request -/

def testRules : NameRules :=
  .ofTable [("CMsgTest_MessageToServer_Request", "CMsgTestMessageToServerRequest"),
    ("CMsgTest_MessageToServer_Response", "CMsgTestMessageToServerResponse"),
    ("CMsgTest_TestClientCall_Request", "CMsgTestTestClientCallRequest"),
    ("CMsgTest_TestClientCall_Response", "CMsgTestTestClientCallResponse")]

def testSymbols : Symbols where
  structs := ["CMsgTestMessageToServerRequest", "CMsgTestMessageToServerResponse",
    "CMsgTestTestClientCallRequest", "CMsgTestTestClientCallResponse"]
  enums := []

def messageToServer : MethodDescriptorProto where
  name := "MessageToServer"
  inputType := ".CMsgTest_MessageToServer_Request"
  outputType := ".CMsgTest_MessageToServer_Response"

def clientCallAuthed (name : String) : MethodDescriptorProto where
  name
  inputType := ".CMsgTest_TestClientCall_Request"
  outputType := ".CMsgTest_TestClientCall_Response"

/-- The service `TestServerFromClient` with some of its methods. -/
def testServerFromClient (method : List MethodDescriptorProto) : FileDescriptorSet where
  file := [{
    name := "steammessages_unified_test.steamclient.proto"
    service := [{ name := "TestServerFromClient", method }] }]

/-- What is emitted for the service if its first call is in front. -/
def testServerItems : List GlueItem :=
  [.rpcService "TestServerFromClient" "TestServerFromClient",
    .rpcMethod "CMsgTestTestClientCallRequest" "TestServerFromClient.ClientCallAuthed1#1"
      "CMsgTestTestClientCallResponse"]

/-- Methods with requests of their own are reachable. -/
theorem allReachable_messageToServer :
    AllReachable testRules
      (testServerFromClient [messageToServer, clientCallAuthed "ClientCallAuthed1"])
      [.rpcService "TestServerFromClient" "TestServerFromClient",
        .rpcMethod "CMsgTestMessageToServerRequest" "TestServerFromClient.MessageToServer#1"
          "CMsgTestMessageToServerResponse",
        .rpcMethod "CMsgTestTestClientCallRequest" "TestServerFromClient.ClientCallAuthed1#1"
          "CMsgTestTestClientCallResponse"] :=
  (@allReachable_iff testRules [] testSymbols _ _ (by decide)).mpr
    ⟨by unfold TopLevelTypes; decide, by unfold DistinctRequests; decide⟩

/-- Of methods that share a request only the first is emitted, and nothing fails. -/
theorem not_allReachable_testServerFromClient :
    ∃ items, generateItems testRules [] testSymbols (testServerFromClient
      (["ClientCallAuthed1", "ClientCallAuthed2", "ClientCallAuthed3", "ClientCallAuthed4"].map
        clientCallAuthed)) = .ok items ∧
    ¬ AllReachable testRules (testServerFromClient
      (["ClientCallAuthed1", "ClientCallAuthed2", "ClientCallAuthed3", "ClientCallAuthed4"].map
        clientCallAuthed)) items := by
  refine ⟨testServerItems, by decide, fun h => ?_⟩
  obtain ⟨request, response, hmem, -⟩ := h _ List.mem_cons_self _ List.mem_cons_self
    (clientCallAuthed "ClientCallAuthed2") (by decide)
  rcases List.mem_cons.mp hmem with heq | hmem
  · cases heq
  · have hname := (GlueItem.rpcMethod.inj (List.mem_singleton.mp hmem)).2.1
    exact absurd hname (by decide)

end SteamWire.Codegen
