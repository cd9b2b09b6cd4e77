import SteamWire.Codegen.Methods

/-!
# The order of the files

With unique names, what is emitted for services, messages and enums does not depend on the order
of the files. What is emitted for methods does, where two files have methods with requests of one
name (`orderInvariant_iff`).
-/

namespace SteamWire.Codegen

variable (rules : NameRules) (symbols : Symbols)

/-- The names of the messages, enums and services of a file. -/
def declaredNames (file : FileDescriptorProto) : List String :=
  file.messageType.map (fun message => message.name) ++ file.enumType.map (fun e => e.name) ++
    file.service.map (fun service => service.name)

/-- What these are called in Rust. -/
def rustIdents (file : FileDescriptorProto) : List String :=
  file.messageType.map (fun message => toUpperCamel rules message.name) ++
    file.enumType.map (fun e => toUpperCamel rules e.name) ++
    file.service.map (fun service => service.name)

/-- Messages, enums and services have different names, and are called differently in Rust. -/
structure UniqueNames (fds : FileDescriptorSet) : Prop where
  names : (fds.file.flatMap declaredNames).Nodup
  idents : (fds.file.flatMap (rustIdents rules)).Nodup

/-- The same code is emitted for the files in any order. -/
def OrderInvariant (fds : FileDescriptorSet) : Prop :=
  ∀ fds' : FileDescriptorSet, fds'.file.Perm fds.file →
    (generateGlue rules (getKinds rules fds') symbols fds').toOption =
      (generateGlue rules (getKinds rules fds) symbols fds).toOption

/-- The methods of a file, under the names of their requests. -/
def fileMethods (file : FileDescriptorProto) : List (String × GlueItem) :=
  file.service.flatMap fun service => service.method.map (methodEntry rules service)

/-- Files with methods for a request have the same method in front for it. -/
def MethodsAgree (fds : FileDescriptorSet) : Prop :=
  ∀ request, AgreeOn (fileMethods rules) fds.file request

variable {rules symbols} {kinds : List Kind} {fds fds' : FileDescriptorSet}

theorem fileEntries_rpcMethod (file : FileDescriptorProto) :
    fileEntries rules kinds symbols file .rpcMethod = fileMethods rules file := by
  simp [fileEntries, Entries.append, Entries.ofAll, serviceEntries, messageEntries, enumEntries,
    fileMethods]

/-- What is checked does not depend on the order of the files. -/
theorem checked_congr (hperm : fds'.file.Perm fds.file) :
    Checked rules kinds symbols fds' ↔ Checked rules kinds symbols fds :=
  ⟨fun h file hfile => h file (hperm.mem_iff.mpr hfile),
    fun h file hfile => h file (hperm.mem_iff.mp hfile)⟩

theorem generateGlue_of_checked (h : Checked rules kinds symbols fds) :
    generateGlue rules kinds symbols fds =
      .ok ((Entries.ofAll (fileEntries rules kinds symbols) fds.file).items.flatMap
        GlueItem.tokens) := by
  rw [generateGlue, generateItems_eq_ok_iff.mpr ⟨h, rfl⟩]
  rfl

theorem toOption_generateGlue_of_not_checked (h : ¬ Checked rules kinds symbols fds) :
    (generateGlue rules kinds symbols fds).toOption = none := by
  rw [generateGlue]
  cases hitems : generateItems rules kinds symbols fds with
  | error panic => rfl
  | ok items => exact absurd (generateItems_eq_ok_iff.mp hitems).1 h

/-- The same code is emitted for two orders of the files exactly if the first entries are the
same. -/
theorem toOption_generateGlue_eq_iff (hperm : fds'.file.Perm fds.file)
    (h : Checked rules kinds symbols fds) :
    (generateGlue rules kinds symbols fds').toOption =
        (generateGlue rules kinds symbols fds).toOption ↔
      ∀ t k, (Entries.ofAll (fileEntries rules kinds symbols) fds'.file t).lookup k =
        (Entries.ofAll (fileEntries rules kinds symbols) fds.file t).lookup k := by
  rw [generateGlue_of_checked h, generateGlue_of_checked ((checked_congr hperm).mpr h),
    ← filed_entries.items_eq_iff filed_entries]
  exact ⟨fun heq => GlueItem.flatMap_tokens_injective (Option.some.inj heq),
    fun heq => by rw [heq]⟩

namespace UniqueNames

variable (hunique : UniqueNames rules fds)

include hunique

/-- A name is declared in one file. -/
theorem file_eq {file file' : FileDescriptorProto} (hfile : file ∈ fds.file)
    (hfile' : file' ∈ fds.file) {ident : String} (h : ident ∈ rustIdents rules file)
    (h' : ident ∈ rustIdents rules file') : file = file' :=
  eq_of_nodup_flatMap hunique.idents hfile hfile' h h'

/-- The kinds do not depend on the order of the files. -/
theorem getKinds_eq (hperm : fds'.file.Perm fds.file) : getKinds rules fds' = getKinds rules fds := by
  refine (sortByKey_flatMap_eq_of_perm (fun file hfile file' hfile' hne a ha b hb hkey => hne ?_)
    hperm.symm).symm
  obtain ⟨e, he, ha⟩ := List.mem_flatMap.mp ha
  obtain ⟨value, -, rfl⟩ := List.mem_map.mp ha
  obtain ⟨e', he', hb⟩ := List.mem_flatMap.mp hb
  obtain ⟨value', -, rfl⟩ := List.mem_map.mp hb
  have hident : toUpperCamel rules e.name = toUpperCamel rules e'.name :=
    congrArg (fun key => (ofLex (ofLex key).2).1) hkey
  have hmem : ∀ {file : FileDescriptorProto} {e}, e ∈ kindEnums file →
      toUpperCamel rules e.name ∈ rustIdents rules file := fun he =>
    List.mem_append_left _ (List.mem_append_right _ (List.mem_map_of_mem (List.mem_of_mem_filter he)))
  exact hunique.file_eq hfile hfile' (hmem he) (hident ▸ hmem he')

omit hunique in
/-- All entries but those for methods are filed under names of their files. -/
theorem mem_rustIdents {file : FileDescriptorProto} {t : GlueTrait} (ht : t ≠ .rpcMethod)
    {k : String} {v : GlueItem} (h : (k, v) ∈ fileEntries rules kinds symbols file t) :
    k ∈ rustIdents rules file := by
  cases t with
  | rpcMethod => exact absurd rfl ht
  | rpcService =>
    obtain ⟨service, hservice, heq⟩ := mem_fileEntries_rpcService.mp h
    obtain ⟨rfl, -⟩ := Prod.mk.inj heq
    exact List.mem_append_right _ (List.mem_map_of_mem hservice)
  | rpcMessageWithKind =>
    obtain ⟨message, hmessage, kind, -, heq⟩ := mem_fileEntries_rpcMessageWithKind.mp h
    obtain ⟨rfl, -⟩ := Prod.mk.inj heq
    exact List.mem_append_left _ (List.mem_append_left _ (List.mem_map_of_mem hmessage))
  | msgKindEnum =>
    obtain ⟨e, he, -, heq⟩ := mem_fileEntries_msgKindEnum.mp h
    obtain ⟨rfl, -⟩ := Prod.mk.inj heq
    exact List.mem_append_left _
      (List.mem_append_right _ (List.mem_map_of_mem (List.mem_of_mem_filter he)))

/-- Files agree on all entries but those for methods. -/
theorem agreeOn {t : GlueTrait} (ht : t ≠ .rpcMethod) (k : String) :
    AgreeOn (fun file => fileEntries rules kinds symbols file t) fds.file k := by
  intro file hfile file' hfile' v w hv hw
  obtain rfl := hunique.file_eq hfile hfile' (mem_rustIdents ht (mem_of_lookup hv))
    (mem_rustIdents ht (mem_of_lookup hw))
  exact Option.some.inj (hv.symm.trans hw)

end UniqueNames

/-- The order of the files does not matter exactly if nothing is emitted, or no two files differ
in the first method for a request. -/
theorem orderInvariant_iff (hunique : UniqueNames rules fds) :
    OrderInvariant rules symbols fds ↔
      ¬ Checked rules (getKinds rules fds) symbols fds ∨ MethodsAgree rules fds := by
  by_cases hchecked : Checked rules (getKinds rules fds) symbols fds
  · rw [or_iff_right (not_not.mpr hchecked)]
    constructor
    · intro h request
      refine lookup_flatMap_perm_iff.mp fun files hperm => ?_
      have heq := h ⟨files⟩ hperm
      rw [hunique.getKinds_eq hperm, toOption_generateGlue_eq_iff hperm hchecked] at heq
      simpa only [Entries.ofAll, fileEntries_rpcMethod] using heq .rpcMethod request
    · intro hagree fds' hperm
      rw [hunique.getKinds_eq hperm, toOption_generateGlue_eq_iff hperm hchecked]
      intro t k
      by_cases ht : t = .rpcMethod
      · subst ht
        simpa only [Entries.ofAll, fileEntries_rpcMethod] using (hagree k).lookup_eq hperm
      · exact (hunique.agreeOn ht k).lookup_eq hperm
  · refine iff_of_true (fun fds' hperm => ?_) (.inl hchecked)
    rw [hunique.getKinds_eq hperm, toOption_generateGlue_of_not_checked hchecked,
      toOption_generateGlue_of_not_checked ((checked_congr hperm).not.mpr hchecked)]

/-! ### Two services whose methods share a request -/

def testMessages : FileDescriptorProto where
  name := "steammessages_unified_test_messages.proto"
  messageType := [⟨"CMsgTest_TestClientCall_Request"⟩, ⟨"CMsgTest_TestClientCall_Response"⟩]

/-- A file with a service of one method. -/
def testService (fileName serviceName methodName : String) : FileDescriptorProto where
  name := fileName
  service := [⟨serviceName, [clientCallAuthed methodName]⟩]

def testClient : FileDescriptorProto :=
  testService "steammessages_unified_test.steamclient.proto" "TestServerFromClient"
    "ClientCallAuthed1"

def testServer : FileDescriptorProto :=
  testService "steammessages_unified_test.steamserver.proto" "TestServerFromServer"
    "ServerCallAuthed1"

/-- With one service only, the files may come in any order. -/
theorem orderInvariant_testServerFromClient :
    OrderInvariant testRules testSymbols ⟨[testMessages, testClient]⟩ := by
  refine (orderInvariant_iff ⟨by decide, by decide⟩).mpr (.inr fun request => ?_)
  intro file hfile file' hfile' v w hv hw
  have hsecond : ∀ file ∈ [testMessages, testClient],
      ∀ v, (fileMethods testRules file).lookup request = some v → file = testClient := by
    intro file hfile v hv
    rcases List.mem_cons.mp hfile with rfl | hfile
    · cases hv
    · exact List.mem_singleton.mp hfile
  rw [hsecond file hfile v hv] at hv
  rw [hsecond file' hfile' w hw] at hw
  exact Option.some.inj (hv.symm.trans hw)

/-- With two services, the one that comes first gets the request. -/
theorem not_orderInvariant_twoServices :
    UniqueNames testRules ⟨[testMessages, testClient, testServer]⟩ ∧
    ¬ OrderInvariant testRules testSymbols ⟨[testMessages, testClient, testServer]⟩ := by
  refine ⟨⟨by decide, by decide⟩, fun h => ?_⟩
  have hswapped := h ⟨[testMessages, testServer, testClient]⟩ ((List.Perm.swap ..).cons _)
  exact absurd hswapped (by decide)

end SteamWire.Codegen
