import SteamWire.GameCoordinator.Message

/-!
# Sending to a game coordinator

A game coordinator encodes its messages by hand: a header with the job id alone, the body
behind it, and an envelope around both. What comes out is what a connection would have sent,
but for the job name: a message that names a job in its header loses it, as the coordinator
does not let the message process its header (`GameCoordinator.sendsAlike_iff`).
-/

namespace SteamWire

namespace GameCoordinator

variable {SteamID : Type} [SteamIdOps SteamID] [DecidableEq SteamID] {K : Type} [MsgKindEnum K]
  (codec : HeaderCodec) (gc : GcCodec) (appId : UInt32)

/-- The header of the message in the envelope. -/
def nestedHeader (header : NetMessageHeader SteamID) : NetMessageHeader SteamID :=
  { (default : NetMessageHeader SteamID) with sourceJobId := header.sourceJobId }

/-- The envelope around a message with this body. -/
def envelope (header : NetMessageHeader SteamID) (kind : K) (isProtobuf : Bool) (body : Bytes) :
    CMsgGcClient where
  appid := some appId
  msgtype := some (MsgKindEnum.encodeKind kind isProtobuf)
  payload := some ((nestedHeader header).write codec kind isProtobuf ++ body)

/-- `GameCoordinator::raw_send_with_kind`: the message it hands to the sender. -/
def rawSendWithKind (header : NetMessageHeader SteamID) (msg : EncodableMessage SteamID) (kind : K)
    (isProtobuf : Bool) : Except NetworkError (RawNetMessage SteamID) :=
  match msg.writeBody with
  | .error e => .error (.io e)
  | .ok body =>
    RawNetMessage.fromMessageWithKind codec { header with sourceJobId := JobId.none }
      (clientToGcMessage gc (envelope codec appId header kind isProtobuf body))
      EMsg.kEMsgClientToGc true

/-- What is sent is an envelope for the app, around the message that a connection would send. -/
def SendsAlike (header : NetMessageHeader SteamID) (msg : EncodableMessage SteamID) (kind : K)
    (isProtobuf : Bool) : Prop :=
  ∀ m, rawSendWithKind codec gc appId header msg kind isProtobuf = .ok m →
    ∃ (outer : RawNetMessage SteamID) (data : CMsgGcClient) (payload : Bytes)
      (inner : RawNetMessage SteamID),
      RawNetMessage.read codec m.intoBytes = .ok outer ∧
      outer.kind = EMsg.kEMsgClientToGc.kind ∧
      outer.header.sourceJobId = JobId.none ∧
      gc.parse outer.data = .ok data ∧
      data.appid = some appId ∧
      data.msgtype.map decodeKind = some (MsgKindEnum.toMsgKind kind, isProtobuf) ∧
      data.payload = some payload ∧
      RawNetMessage.read codec payload = .ok inner ∧
      inner.kind = MsgKindEnum.toMsgKind kind ∧
      inner.isProtobuf = isProtobuf ∧
      inner.header.sourceJobId = header.sourceJobId ∧
      msg.writeBody = .ok inner.data ∧
      (isProtobuf = true → ∀ direct,
        RawNetMessage.fromMessageWithKind codec header msg kind isProtobuf = .ok direct →
          inner.header.targetJobName = direct.header.targetJobName)

variable {codec gc appId} {header : NetMessageHeader SteamID} {msg : EncodableMessage SteamID}
  {kind : K} {isProtobuf : Bool} {body : Bytes}

/-- A body behind a written header is read back, with the job id, and with the job name of a
protobuf header. -/
theorem exists_read_write_append (hcodec : codec.Lawful) (hkind : 0 ≤ enumValue kind)
    (hresponse : MsgKindEnum.toMsgKind kind ≠ EMsg.kEMsgChannelEncryptResponse.kind)
    (hproto : isProtobuf = true →
      codec.encodedLen (header.protoHeader (MsgKindEnum.toMsgKind kind)) < 2 ^ 32)
    (hfixed : isProtobuf = false →
      NetMessageHeader.isEncryptHandshake (MsgKindEnum.toMsgKind kind) = false) :
    ∃ parsed : RawNetMessage SteamID,
      RawNetMessage.read codec (header.write codec kind isProtobuf ++ body) = .ok parsed ∧
      parsed.kind = MsgKindEnum.toMsgKind kind ∧
      parsed.isProtobuf = isProtobuf ∧
      parsed.data = body ∧
      parsed.header.sourceJobId = header.sourceJobId ∧
      (isProtobuf = true → parsed.header.targetJobName = header.targetJobName) := by
  have hword := @RawNetMessage.decodeKind_kindWord_write SteamID _ _ K _ codec kind isProtobuf body
    header hkind hresponse
  cases isProtobuf with
  | true =>
    have hread := @NetMessageHeader.read_write_protobuf SteamID _ _ K _ codec header kind body hcodec
      hresponse (hproto rfl) (MsgKindEnum.toMsgKind kind)
    exact ⟨_, RawNetMessage.read_append hword hread, rfl, rfl, rfl,
      NetMessageHeader.sourceJobId_ofProto_protoHeader _, fun _ => rfl⟩
  | false =>
    have hread := @NetMessageHeader.read_write_fixed_steamIdOrNil SteamID _ _ K _ codec header kind
      body hresponse _ (hfixed rfl)
    rw [← @NetMessageHeader.length_write_fixed SteamID _ _ K _ codec header kind hresponse] at hread
    exact ⟨_, RawNetMessage.read_append hword hread, rfl, rfl, rfl, rfl, fun h => by cases h⟩

/-- A message that can be written is sent in its envelope. -/
theorem rawSendWithKind_eq (hbody : msg.writeBody = .ok body) :
    rawSendWithKind codec gc appId header msg kind isProtobuf =
      RawNetMessage.fromMessageWithKind codec { header with sourceJobId := JobId.none }
        (clientToGcMessage gc (envelope codec appId header kind isProtobuf body))
        EMsg.kEMsgClientToGc true := by
  rw [rawSendWithKind, hbody]

theorem rawSendWithKind_error {e : IoError} (hbody : msg.writeBody = .error e) :
    rawSendWithKind codec gc appId header msg kind isProtobuf = .error (.io e) := by
  rw [rawSendWithKind, hbody]

/-- Nothing else fails before the message is handed over. -/
theorem exists_of_rawSendWithKind_eq_error {e : NetworkError}
    (h : rawSendWithKind codec gc appId header msg kind isProtobuf = .error e) :
    ∃ error, e = .io error := by
  cases hbody : msg.writeBody with
  | error error =>
    rw [rawSendWithKind_error hbody] at h
    exact ⟨error, (Except.error.inj h).symm⟩
  | ok body =>
    rw [rawSendWithKind_eq hbody, RawNetMessage.fromMessageWithKind_eq rfl] at h
    cases h

/-- The message in the envelope has no job name. -/
theorem exists_read_nested (hcodec : codec.Lawful) (hname : codec.FitsWithoutName)
    (hkind : 0 ≤ enumValue kind)
    (hresponse : MsgKindEnum.toMsgKind kind ≠ EMsg.kEMsgChannelEncryptResponse.kind)
    (hhandshake : NetMessageHeader.isEncryptHandshake (MsgKindEnum.toMsgKind kind) = false) :
    ∃ inner : RawNetMessage SteamID,
      RawNetMessage.read codec ((nestedHeader header).write codec kind isProtobuf ++ body) =
        .ok inner ∧
      inner.kind = MsgKindEnum.toMsgKind kind ∧
      inner.isProtobuf = isProtobuf ∧
      inner.data = body ∧
      inner.header.sourceJobId = header.sourceJobId ∧
      (isProtobuf = true → inner.header.targetJobName = none) :=
  exists_read_write_append hcodec hkind hresponse (fun _ => hname _ rfl) fun _ => hhandshake

/-- An envelope is read back from the message it is sent in. -/
theorem exists_read_envelope (hcodec : codec.Lawful) (hgc : gc.Lawful) {data : CMsgGcClient}
    (houter : codec.encodedLen (({ header with sourceJobId := JobId.none } :
      NetMessageHeader SteamID).protoHeader EMsg.kEMsgClientToGc.kind) < 2 ^ 32)
    {m : RawNetMessage SteamID}
    (hm : RawNetMessage.fromMessageWithKind codec { header with sourceJobId := JobId.none }
      (clientToGcMessage gc data) EMsg.kEMsgClientToGc true = .ok m)
    (hmemory : m.data.length < 2 ^ 64) :
    ∃ outer : RawNetMessage SteamID,
      RawNetMessage.read codec m.intoBytes = .ok outer ∧
      outer.kind = EMsg.kEMsgClientToGc.kind ∧
      outer.header.sourceJobId = JobId.none ∧
      gc.parse outer.data = .ok data := by
  rw [RawNetMessage.fromMessageWithKind_eq rfl, Except.ok.injEq] at hm
  subst hm
  obtain ⟨outer, hread, hkind, -, hdata, hjob, -⟩ :=
    @exists_read_write_append SteamID _ _ EMsg _ codec { header with sourceJobId := JobId.none }
      .kEMsgClientToGc true (gc.encode data) hcodec (by decide) (by decide) (fun _ => houter)
      fun h => by cases h
  exact ⟨outer, hread, hkind, hjob, by rw [hdata, hgc data hmemory]⟩

section Alike

variable (hcodec : codec.Lawful) (hname : codec.FitsWithoutName) (hgc : gc.Lawful)
  (hkind : 0 ≤ enumValue kind)
  (hresponse : MsgKindEnum.toMsgKind kind ≠ EMsg.kEMsgChannelEncryptResponse.kind)
  (hhandshake : NetMessageHeader.isEncryptHandshake (MsgKindEnum.toMsgKind kind) = false)
  (houter : codec.encodedLen (({ header with sourceJobId := JobId.none } :
    NetMessageHeader SteamID).protoHeader EMsg.kEMsgClientToGc.kind) < 2 ^ 32)
include hcodec hname hgc hkind hresponse hhandshake houter

/-- A message that is sent as a connection would have sent it has no job name. -/
theorem targetJobName_of_sendsAlike (hbody : msg.writeBody = .ok body) (hproto : isProtobuf = true)
    {m : RawNetMessage SteamID}
    (hm : rawSendWithKind codec gc appId header msg kind isProtobuf = .ok m)
    (hmemory : m.data.length < 2 ^ 64)
    (halike : SendsAlike codec gc appId header msg kind isProtobuf) :
    (msg.processHeader header).targetJobName = none := by
  obtain ⟨inner, hinner, -, -, -, -, hinnerName⟩ :=
    @exists_read_nested SteamID _ _ K _ codec header kind isProtobuf body hcodec hname hkind
      hresponse hhandshake
  obtain ⟨outer, houterRead, -, -, houterParse⟩ :=
    exists_read_envelope hcodec hgc houter ((rawSendWithKind_eq hbody).symm.trans hm) hmemory
  obtain ⟨outer', data, payload, inner', houter', -, -, hdata, -, -, hpayload, hinner', -, -, -, -,
    hsame⟩ := halike m hm
  -- what is read is what was written
  rw [houterRead, Outcome.ok.injEq] at houter'
  rw [← houter', houterParse, Except.ok.injEq] at hdata
  rw [← hdata] at hpayload
  rw [← Option.some.inj hpayload, hinner, Outcome.ok.injEq] at hinner'
  rw [← hinner'] at hsame
  exact (hsame hproto _ (RawNetMessage.fromMessageWithKind_eq hbody)).symm.trans (hinnerName hproto)

/-- A message without a job name is sent as a connection would have sent it. -/
theorem sendsAlike_of_targetJobName (hbody : msg.writeBody = .ok body)
    (hmemory : ∀ m, rawSendWithKind codec gc appId header msg kind isProtobuf = .ok m →
      m.data.length < 2 ^ 64)
    (hnone : isProtobuf = true → (msg.processHeader header).targetJobName = none) :
    SendsAlike codec gc appId header msg kind isProtobuf := by
  intro m hm
  obtain ⟨inner, hinner, hinnerKind, hinnerFlag, hinnerData, hinnerJob, hinnerName⟩ :=
    @exists_read_nested SteamID _ _ K _ codec header kind isProtobuf body hcodec hname hkind
      hresponse hhandshake
  obtain ⟨outer, houterRead, houterKind, houterJob, houterParse⟩ :=
    exists_read_envelope hcodec hgc houter ((rawSendWithKind_eq hbody).symm.trans hm) (hmemory m hm)
  have htype : (envelope codec appId header kind isProtobuf body).msgtype.map decodeKind =
      some (MsgKindEnum.toMsgKind kind, isProtobuf) :=
    congrArg some (decodeKind_encodeKind kind isProtobuf hkind)
  refine ⟨outer, _, _, inner, houterRead, houterKind, houterJob, houterParse, rfl, htype, rfl,
    hinner, hinnerKind, hinnerFlag, hinnerJob, by rw [hbody, hinnerData], ?_⟩
  intro hproto direct hdirect
  rw [RawNetMessage.fromMessageWithKind_eq hbody, Except.ok.injEq] at hdirect
  rw [← hdirect, hinnerName hproto]
  exact (hnone hproto).symm

end Alike

/-- A game coordinator sends what a connection would have sent exactly when there is no job
name to be sent. -/
theorem sendsAlike_iff (hcodec : codec.Lawful) (hname : codec.FitsWithoutName) (hgc : gc.Lawful)
    (header : NetMessageHeader SteamID) (msg : EncodableMessage SteamID) (kind : K)
    (isProtobuf : Bool) (hkind : 0 ≤ enumValue kind)
    (hresponse : MsgKindEnum.toMsgKind kind ≠ EMsg.kEMsgChannelEncryptResponse.kind)
    (hhandshake : NetMessageHeader.isEncryptHandshake (MsgKindEnum.toMsgKind kind) = false)
    (houter : codec.encodedLen (({ header with sourceJobId := JobId.none } :
      NetMessageHeader SteamID).protoHeader EMsg.kEMsgClientToGc.kind) < 2 ^ 32)
    (hmemory : ∀ m, rawSendWithKind codec gc appId header msg kind isProtobuf = .ok m →
      m.data.length < 2 ^ 64) :
    SendsAlike codec gc appId header msg kind isProtobuf ↔
      (isProtobuf = true → (∃ body, msg.writeBody = .ok body) →
        (msg.processHeader header).targetJobName = none) := by
  constructor
  · rintro halike hproto ⟨body, hbody⟩
    obtain ⟨m, hm⟩ : ∃ m, rawSendWithKind codec gc appId header msg kind isProtobuf = .ok m :=
      ⟨_, (rawSendWithKind_eq hbody).trans (RawNetMessage.fromMessageWithKind_eq rfl)⟩
    exact targetJobName_of_sendsAlike hcodec hname hgc hkind hresponse hhandshake houter hbody
      hproto hm (hmemory m hm) halike
  · intro hnone
    cases hbody : msg.writeBody with
    | error e =>
      -- nothing is sent at all
      intro m hm
      rw [rawSendWithKind_error hbody] at hm
      cases hm
    | ok body =>
      exact sendsAlike_of_targetJobName hcodec hname hgc hkind hresponse hhandshake houter hbody
        hmemory fun hproto => hnone hproto ⟨body, hbody⟩

/-- A hello is sent as a connection would have sent it. -/
theorem sendsAlike_iff_hello :
    SendsAlike HeaderCodec.wire GcCodec.wire 570 RawNetMessage.serviceMethodHeader
      RawNetMessage.twoByteMessage (⟨4006⟩ : MsgKind) true ↔
      (true = true → (∃ body, RawNetMessage.twoByteMessage.writeBody = .ok body) →
        (RawNetMessage.twoByteMessage.processHeader
          RawNetMessage.serviceMethodHeader).targetJobName = none) :=
  sendsAlike_iff HeaderCodec.wire_lawful HeaderCodec.wire_fitsWithoutName GcCodec.wire_lawful _ _ _
    _ (by decide) (by decide) (by decide) (by decide) fun m hm => by cases hm; decide

/-- The call of a service method reaches the coordinator without the name of the method. -/
theorem not_sendsAlike_serviceMethod :
    ¬ SendsAlike HeaderCodec.wire GcCodec.wire 570 RawNetMessage.serviceMethodHeader
      (serviceMethodMessage "Player.GetOwnedGames#1" [8, 1])
      EMsg.kEMsgServiceMethodCallFromClient true := by
  intro halike
  have hname := targetJobName_of_sendsAlike HeaderCodec.wire_lawful
    HeaderCodec.wire_fitsWithoutName GcCodec.wire_lawful (by decide) (by decide) (by decide)
    (by decide) rfl rfl rfl (by decide) halike
  cases hname

end GameCoordinator

end SteamWire
