import SteamWire.GameCoordinator.Send

/-!
# Announced sizes

A message says how many bytes its header and its body take before they are written, and the
buffers are allocated for so many. The header is sized by hand, apart from the writer, and four
bytes too many are announced for its fixed layout (`sizesAgree_iff`).
-/

namespace SteamWire

/-- `encode_to_vec` and `encoded_len` of a generated message. -/
structure ProstCodec (T : Type) where
  encodeToVec : T → Bytes
  encodedLen : T → Nat

/-- The length is that of the encoding. -/
def ProstCodec.Lawful {T : Type} (prost : ProstCodec T) : Prop :=
  ∀ x, prost.encodedLen x = (prost.encodeToVec x).length

structure ClientEncryptResponse where
  protocol : UInt32
  encryptedKey : Bytes
  deriving DecidableEq, Repr

section Messages

variable {SteamID : Type}

/-- The body of the response, with the checksum of the key by `crc`. -/
def ClientEncryptResponse.message (crc : Bytes → UInt32) (response : ClientEncryptResponse) :
    EncodableMessage SteamID where
  writeBody := .ok (LittleEndian.u64 0xFFFFFFFFFFFFFFFF ++ LittleEndian.u64 0xFFFFFFFFFFFFFFFF ++
    LittleEndian.u32 response.protocol ++
    LittleEndian.u32 (UInt32.ofNat response.encryptedKey.length) ++ response.encryptedKey ++
    LittleEndian.u32 (crc response.encryptedKey) ++ LittleEndian.u32 0)
  encodeSize := 8 + 8 + 4 + 4 + response.encryptedKey.length + 4 + 4

/-- A message with a generated type, which may put something into the header. -/
def protobufMessage {T : Type} (prost : ProstCodec T) (x : T)
    (processHeader : NetMessageHeader SteamID → NetMessageHeader SteamID) :
    EncodableMessage SteamID where
  writeBody := .ok (prost.encodeToVec x)
  encodeSize := prost.encodedLen x
  processHeader

/-- The messages that can be written. -/
inductive IsWritable (crc : Bytes → UInt32) : EncodableMessage SteamID → Prop
  | clientEncryptResponse (response : ClientEncryptResponse) : IsWritable crc (response.message crc)
  | protobuf {T : Type} (prost : ProstCodec T) (hprost : prost.Lawful) (x : T)
      (processHeader : NetMessageHeader SteamID → NetMessageHeader SteamID) :
      IsWritable crc (protobufMessage prost x processHeader)

/-- A body has the size it announces. -/
theorem IsWritable.exists_body {crc : Bytes → UInt32} {msg : EncodableMessage SteamID}
    (h : IsWritable crc msg) : ∃ body, msg.writeBody = .ok body ∧ msg.encodeSize = body.length := by
  cases h with
  | clientEncryptResponse response =>
    refine ⟨_, rfl, ?_⟩
    simp only [ClientEncryptResponse.message, List.length_append, LittleEndian.length_u64,
      LittleEndian.length_u32]
  | protobuf prost hprost x processHeader => exact ⟨_, rfl, hprost x⟩

end Messages

variable {SteamID : Type} [SteamIdOps SteamID] [DecidableEq SteamID] {K : Type} [MsgKindEnum K]

/-- The buffer that `from_message_with_kind` allocates: frame header, initialization vector,
header, body and encryption padding. -/
def RawNetMessage.bufferCapacity (codec : HeaderCodec) (header : NetMessageHeader SteamID)
    (message : EncodableMessage SteamID) (kind : K) (isProtobuf : Bool) : Nat :=
  8 + 16 + (message.processHeader header).encodeSize codec (MsgKindEnum.toMsgKind kind) isProtobuf +
    message.encodeSize + 16

/-- The payload that `GameCoordinator::raw_send_with_kind` allocates. -/
def GameCoordinator.payloadCapacity (codec : HeaderCodec) (header : NetMessageHeader SteamID)
    (msg : EncodableMessage SteamID) (kind : K) (isProtobuf : Bool) : Nat :=
  (nestedHeader header).encodeSize codec (MsgKindEnum.toMsgKind kind) isProtobuf + msg.encodeSize

/-- What is announced for a message is what is written. -/
structure SizesAgree (codec : HeaderCodec) (header : NetMessageHeader SteamID)
    (msg : EncodableMessage SteamID) (kind : K) (isProtobuf : Bool) : Prop where
  headerSize : header.encodeSize codec (MsgKindEnum.toMsgKind kind) isProtobuf =
    (header.write codec kind isProtobuf).length
  bodySize : ∃ body, msg.writeBody = .ok body ∧ msg.encodeSize = body.length
  buffer : ∀ m, RawNetMessage.fromMessageWithKind codec header msg kind isProtobuf = .ok m →
    RawNetMessage.bufferCapacity codec header msg kind isProtobuf =
      (m.frameHeaderBuffer.getD []).length + (m.ivBuffer.getD []).length + m.headerBuffer.length +
        m.data.length + 16
  payload : ∀ body, msg.writeBody = .ok body →
    GameCoordinator.payloadCapacity codec header msg kind isProtobuf =
      ((GameCoordinator.nestedHeader header).write codec kind isProtobuf ++ body).length

namespace NetMessageHeader

variable {codec : HeaderCodec} {header : NetMessageHeader SteamID} {kind : K} {isProtobuf : Bool}

/-- Two of the layouts are sized as they are written. -/
theorem encodeSize_eq_length_write
    (h : MsgKindEnum.toMsgKind kind = EMsg.kEMsgChannelEncryptResponse.kind ∨ isProtobuf = true) :
    header.encodeSize codec (MsgKindEnum.toMsgKind kind) isProtobuf =
      (header.write codec kind isProtobuf).length := by
  by_cases hresponse : MsgKindEnum.toMsgKind kind = EMsg.kEMsgChannelEncryptResponse.kind
  · rw [encodeSize, if_pos hresponse, write, if_pos hresponse, LittleEndian.length_u32]
  · obtain rfl := h.resolve_left hresponse
    rw [encodeSize, if_neg hresponse, if_pos rfl, write_protobuf hresponse]
    rw [List.length_append, List.length_append, LittleEndian.length_u32, LittleEndian.length_u32]
    rfl

/-- The fixed layout is sized four bytes too large. -/
theorem encodeSize_fixed
    (hresponse : MsgKindEnum.toMsgKind kind ≠ EMsg.kEMsgChannelEncryptResponse.kind) :
    header.encodeSize codec (MsgKindEnum.toMsgKind kind) false =
      (header.write codec kind false).length + 4 := by
  rw [length_write_fixed hresponse, encodeSize, if_neg hresponse, if_neg (by decide)]

end NetMessageHeader

/-- The sizes agree unless the header has the fixed layout. -/
theorem sizesAgree_iff {codec : HeaderCodec} {header : NetMessageHeader SteamID}
    {msg : EncodableMessage SteamID} {kind : K} {isProtobuf : Bool} {crc : Bytes → UInt32}
    (hmsg : IsWritable crc msg) :
    SizesAgree codec header msg kind isProtobuf ↔
      MsgKindEnum.toMsgKind kind = EMsg.kEMsgChannelEncryptResponse.kind ∨ isProtobuf = true := by
  constructor
  · intro h
    by_contra hfixed
    obtain ⟨hresponse, hproto⟩ := not_or.mp hfixed
    rw [Bool.not_eq_true] at hproto
    subst hproto
    -- the fixed layout is announced with four bytes too many
    have hsize := @NetMessageHeader.encodeSize_fixed _ _ _ _ _ codec header kind hresponse
    rw [h.headerSize] at hsize
    omega
  · intro h
    obtain ⟨body, hbody, hsize⟩ := hmsg.exists_body
    have hheader := fun header => @NetMessageHeader.encodeSize_eq_length_write SteamID _ _ _ _ codec
      header kind isProtobuf h
    refine ⟨hheader header, ⟨body, hbody, hsize⟩, ?_, ?_⟩
    · intro m hm
      rw [RawNetMessage.fromMessageWithKind, hbody] at hm
      obtain rfl := Except.ok.inj hm
      rw [RawNetMessage.bufferCapacity, hheader, hsize]
      rfl
    · intro body' hbody'
      obtain rfl := Except.ok.inj (hbody.symm.trans hbody')
      rw [GameCoordinator.payloadCapacity, hheader, hsize, List.length_append]

/-- A heartbeat that is sent without a protobuf header. -/
theorem not_sizesAgree_heartBeat :
    ¬ SizesAgree HeaderCodec.wire (default : NetMessageHeader UInt64)
      (rpcMessage [] : EncodableMessage UInt64) EMsg.kEMsgClientHeartBeat false := by
  intro h
  exact absurd h.headerSize (by decide)

/-- A heartbeat that is sent with one. -/
theorem sizesAgree_heartBeat :
    SizesAgree HeaderCodec.wire (default : NetMessageHeader UInt64)
      (protobufMessage ⟨fun _ : Unit => [], fun _ => 0⟩ () id) EMsg.kEMsgClientHeartBeat true :=
  (@sizesAgree_iff _ _ _ _ _ _ _ _ _ _ (fun _ => 0)
    (.protobuf ⟨fun _ : Unit => [], fun _ => 0⟩ (fun _ => rfl) () id)).mpr (.inr rfl)

end SteamWire
