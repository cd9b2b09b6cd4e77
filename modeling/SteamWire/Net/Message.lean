import SteamWire.Data.Outcome
import SteamWire.Net.Header

/-!
# Raw network messages

The message parser and the constructor of outgoing messages. The parser cuts the
body at an offset that the header reader computes from a length field, without
checking that the message is that long: `RawNetMessage.read_eq_panic` is exactly
when the cut panics. For messages built here the parser undoes the constructor
(`RawNetMessage.read_intoBytes`).
-/

namespace SteamWire

/-- A value of a message type: the bytes its `write_body` writes, the size it announces,
and what it does to the header it is sent with. -/
structure EncodableMessage (SteamID : Type) where
  writeBody : Except IoError Bytes
  encodeSize : Nat
  processHeader : NetMessageHeader SteamID → NetMessageHeader SteamID := id

/-- A message with its header read and its body still encoded. -/
structure RawNetMessage (SteamID : Type) where
  kind : MsgKind
  isProtobuf : Bool
  header : NetMessageHeader SteamID
  data : Bytes
  frameHeaderBuffer : Option Bytes
  ivBuffer : Option Bytes
  headerBuffer : Bytes
  deriving DecidableEq, Repr

namespace RawNetMessage

variable {SteamID : Type} [SteamIdOps SteamID]

/-- Parse a message. -/
def read (codec : HeaderCodec) (body : Bytes) : Outcome NetworkError (RawNetMessage SteamID) :=
  match (⟨body, 0⟩ : Cursor).readU32 with
  | none => .err .invalidHeader
  | some (word, reader) =>
    let (kind, isProtobuf) := decodeKind word
    let headerStart := reader.pos
    (Outcome.ofExcept (NetMessageHeader.read codec reader kind isProtobuf)).bind
      fun (header, bodyStart) =>
        (splitTo (body.drop headerStart) (bodyStart - headerStart)).bind
          fun (headerBuffer, data) =>
            .ok { kind, isProtobuf, header, data, frameHeaderBuffer := none, ivBuffer := none,
                  headerBuffer }

section Write

variable [DecidableEq SteamID] {K : Type} [MsgKindEnum K]

/-- Encode an outgoing message, leaving room for the frame header and the initialization
vector in buffers of their own. -/
def fromMessageWithKind (codec : HeaderCodec) (header : NetMessageHeader SteamID)
    (message : EncodableMessage SteamID) (kind : K) (isProtobuf : Bool) :
    Except NetworkError (RawNetMessage SteamID) :=
  let header := message.processHeader header
  match message.writeBody with
  | .error e => .error (.io e)
  | .ok data =>
    .ok { kind := MsgKindEnum.toMsgKind kind, isProtobuf, header, data
          frameHeaderBuffer := some (List.replicate 8 0)
          ivBuffer := some (List.replicate 16 0)
          headerBuffer := header.write codec kind isProtobuf }

variable (codec : HeaderCodec) in
/-- Messages that come out of the constructor. -/
def IsConstructed (m : RawNetMessage SteamID) : Prop :=
  ∃ (K : Type) (_ : MsgKindEnum K) (header : NetMessageHeader SteamID)
    (message : EncodableMessage SteamID) (kind : K) (isProtobuf : Bool),
    fromMessageWithKind codec header message kind isProtobuf = .ok m

end Write

/-- The raw message bytes. -/
def intoBytes (m : RawNetMessage SteamID) : Bytes := m.headerBuffer ++ m.data

/-- What the sink of a transport gets for a message that is sent through a connection. -/
def sinkItem (m : RawNetMessage SteamID) : Except NetworkError Bytes := .ok m.intoBytes

/-! ### When the parser fails -/

section Totality

/-- The kind word a message starts with. -/
def kindWord (b : Bytes) : UInt32 := UInt32.ofNat (LittleEndian.decode (b.take 4))

/-- The message ends inside the kind word or the fixed part of its header, though it has
a kind word. -/
def HeaderCut (b : Bytes) : Prop :=
  4 ≤ b.length ∧
    b.length < NetMessageHeader.fixedEnd (decodeKind (kindWord b)).1 (decodeKind (kindWord b)).2

/-- The message announces a protobuf header longer than itself, and what there is of the
header still decodes. -/
def HeaderOverrun (codec : HeaderCodec) (b : Bytes) : Prop :=
  8 ≤ b.length ∧ (decodeKind (kindWord b)).2 = true ∧
    b.length < 8 + (NetMessageHeader.lengthField b).toNat ∧ (codec.decode (b.drop 8)).isSome = true

instance (b : Bytes) : Decidable (HeaderCut b) :=
  inferInstanceAs (Decidable (_ ∧ _))

instance (codec : HeaderCodec) (b : Bytes) : Decidable (HeaderOverrun codec b) :=
  inferInstanceAs (Decidable (_ ∧ _ ∧ _ ∧ _))

variable {codec : HeaderCodec} {b : Bytes}

theorem read_of_lt (h : b.length < 4) :
    (read codec b : Outcome _ (RawNetMessage SteamID)) = .err .invalidHeader := by
  rw [read, Cursor.readU32_of_lt (by simpa using h)]

/-- A message with a kind word is read by its header, and then cut. -/
theorem read_of_le (h : 4 ≤ b.length) :
    (read codec b : Outcome _ (RawNetMessage SteamID)) =
      (Outcome.ofExcept (NetMessageHeader.read codec ⟨b, 4⟩ (decodeKind (kindWord b)).1
        (decodeKind (kindWord b)).2)).bind fun (header, bodyStart) =>
          (splitTo (b.drop 4) (bodyStart - 4)).bind fun (headerBuffer, data) =>
            .ok { kind := (decodeKind (kindWord b)).1, isProtobuf := (decodeKind (kindWord b)).2,
                  header, data, frameHeaderBuffer := none, ivBuffer := none, headerBuffer } := by
  rw [read, Cursor.readU32_of_le (by simpa using h)]
  rfl

/-- A header cut short is an I/O error. -/
theorem read_of_headerCut (h : HeaderCut b) :
    (read codec b : Outcome _ (RawNetMessage SteamID)) = .err (.io .unexpectedEof) := by
  rw [read_of_le h.1, NetMessageHeader.read_of_lt h.2]
  rfl

/-- An overrun header makes the parser panic. -/
theorem read_of_headerOverrun (h : HeaderOverrun codec b) :
    (read codec b : Outcome _ (RawNetMessage SteamID)) = .panic := by
  obtain ⟨h8, hproto, hover, hdecode⟩ := h
  obtain ⟨header, hdecode⟩ := Option.isSome_iff_exists.mp hdecode
  have hpos : 0 < NetMessageHeader.lengthField b := by
    rw [UInt32.lt_iff_toNat_lt]
    exact show 0 < _ by omega
  -- the decoder gets all the bytes there are
  have hall : (b.drop 8).take (NetMessageHeader.lengthField b).toNat = b.drop 8 :=
    List.take_of_length_le (by rw [List.length_drop]; omega)
  rw [read_of_le (by omega), hproto, NetMessageHeader.read_protobuf_of_le h8, if_pos hpos, hall,
    hdecode, Outcome.ofExcept_ok, Outcome.bind_ok]
  dsimp only
  -- the cut lies behind the end of the buffer
  rw [splitTo_eq_panic.mpr (by rw [List.length_drop]; omega)]
  rfl

omit [SteamIdOps SteamID] in
/-- The cut succeeds when it lies within the message. -/
private theorem exists_bind_splitTo_eq_ok {header : NetMessageHeader SteamID} {bodyStart : Nat}
    {kind : MsgKind} {isProtobuf : Bool} (h : bodyStart ≤ b.length) :
    ∃ m, (splitTo (b.drop 4) (bodyStart - 4)).bind (fun (headerBuffer, data) =>
      (.ok { kind, isProtobuf, header, data, frameHeaderBuffer := none, ivBuffer := none,
             headerBuffer } : Outcome NetworkError (RawNetMessage SteamID))) = .ok m := by
  rw [splitTo_of_le (by rw [List.length_drop]; omega)]
  exact ⟨_, rfl⟩

/-- Every other message is parsed or rejected as malformed. -/
theorem read_of_not_headerCut (hcut : ¬ HeaderCut b) (hover : ¬ HeaderOverrun codec b) :
    (∃ m, (read codec b : Outcome _ (RawNetMessage SteamID)) = .ok m) ∨
      (read codec b : Outcome _ (RawNetMessage SteamID)) = .err .invalidHeader := by
  by_cases h4 : b.length < 4
  · exact .inr (read_of_lt h4)
  have hfixed : NetMessageHeader.fixedEnd (decodeKind (kindWord b)).1 (decodeKind (kindWord b)).2 ≤
      b.length := not_lt.mp fun hlt => hcut ⟨by omega, hlt⟩
  rw [read_of_le (by omega)]
  cases hproto : (decodeKind (kindWord b)).2 with
  | false =>
    -- the fixed part fits, and the body starts right behind it
    rw [hproto] at hfixed
    obtain ⟨header, hread⟩ := @NetMessageHeader.read_fixed_of_le SteamID _ codec b _ hfixed
    rw [hread, Outcome.ofExcept_ok, Outcome.bind_ok]
    exact .inl (exists_bind_splitTo_eq_ok hfixed)
  | true =>
    rw [hproto] at hfixed
    have h8 : 8 ≤ b.length := hfixed
    rw [NetMessageHeader.read_protobuf_of_le h8]
    by_cases hlen : b.length < 8 + (NetMessageHeader.lengthField b).toNat
    · -- the announced header is not all there, so what there is of it does not decode
      have hall : (b.drop 8).take (NetMessageHeader.lengthField b).toNat = b.drop 8 :=
        List.take_of_length_le (by rw [List.length_drop]; omega)
      have hpos : 0 < NetMessageHeader.lengthField b := by
        rw [UInt32.lt_iff_toNat_lt]
        exact show 0 < _ by omega
      have hdecode : codec.decode (b.drop 8) = none := by
        rw [← Option.not_isSome_iff_eq_none]
        exact fun hsome => hover ⟨h8, hproto, hlen, hsome⟩
      rw [if_pos hpos, hall, hdecode]
      exact .inr rfl
    · split_ifs with hpos
      · cases codec.decode ((b.drop 8).take (NetMessageHeader.lengthField b).toNat) with
        | none => exact .inr rfl
        | some header => exact .inl (exists_bind_splitTo_eq_ok (not_lt.mp hlen))
      · exact .inl (exists_bind_splitTo_eq_ok (not_lt.mp hlen))

/-- The parser panics exactly on an overrun header. -/
theorem read_eq_panic :
    (read codec b : Outcome _ (RawNetMessage SteamID)) = .panic ↔ HeaderOverrun codec b := by
  refine ⟨fun h => ?_, read_of_headerOverrun⟩
  by_contra hover
  by_cases hcut : HeaderCut b
  · rw [read_of_headerCut hcut] at h
    cases h
  · rcases @read_of_not_headerCut SteamID _ codec b hcut hover with ⟨m, hm⟩ | hm <;>
      rw [hm] at h <;> cases h

variable (SteamID codec b) in
/-- The parser returns, and the body offset it computed lies within the message. -/
def ReadsWithin : Prop :=
  (read codec b : Outcome _ (RawNetMessage SteamID)) ≠ .panic ∧
    ∀ (header : NetMessageHeader SteamID) bodyStart,
      NetMessageHeader.read codec ⟨b, 4⟩ (decodeKind (kindWord b)).1 (decodeKind (kindWord b)).2 =
        .ok (header, bodyStart) → bodyStart ≤ b.length

/-- An offset past the end of the message makes the parser panic. -/
private theorem read_eq_panic_of_lt {header : NetMessageHeader SteamID} {bodyStart : Nat}
    (h4 : 4 ≤ b.length)
    (hread : NetMessageHeader.read codec ⟨b, 4⟩ (decodeKind (kindWord b)).1
      (decodeKind (kindWord b)).2 = .ok (header, bodyStart)) (hlt : b.length < bodyStart) :
    (read codec b : Outcome _ (RawNetMessage SteamID)) = .panic := by
  rw [read_of_le h4, hread, Outcome.ofExcept_ok, Outcome.bind_ok]
  dsimp only
  rw [splitTo_eq_panic.mpr (by rw [List.length_drop]; omega)]
  rfl

/-- The parser is total exactly on the messages whose protobuf header is not overrun. -/
theorem readsWithin_iff : ReadsWithin SteamID codec b ↔ ¬ HeaderOverrun codec b := by
  constructor
  · rintro ⟨hpanic, -⟩ hover
    exact hpanic (read_of_headerOverrun hover)
  · intro hover
    have hpanic : (read codec b : Outcome _ (RawNetMessage SteamID)) ≠ .panic :=
      fun h => hover (read_eq_panic.mp h)
    refine ⟨hpanic, fun header bodyStart hread => ?_⟩
    by_contra hlt
    -- without a kind word there is no offset
    have h4 : 4 ≤ b.length := by
      by_contra hshort
      rw [NetMessageHeader.read_of_lt (lt_of_lt_of_le (not_le.mp hshort)
        (NetMessageHeader.four_le_fixedEnd ..))] at hread
      cases hread
    exact hpanic (read_eq_panic_of_lt h4 hread (not_le.mp hlt))

/-- Eight bytes are enough: a protobuf kind word and a header length of five, with no
header behind it. -/
theorem not_readsWithin_eight_bytes :
    ¬ ReadsWithin UInt64 HeaderCodec.wire [0, 0, 0, 0x80, 5, 0, 0, 0] :=
  fun h => h.1 (by decide)

end Totality

/-! ### Sending on what was read -/

section Resend

variable {codec : HeaderCodec} {b : Bytes} {m : RawNetMessage SteamID}

/-- What is parsed has a kind word. -/
theorem four_le_of_read (h : read codec b = .ok m) : 4 ≤ b.length := by
  by_contra hshort
  rw [read_of_lt (not_le.mp hshort)] at h
  cases h

/-- The parser keeps the bytes behind the kind word. -/
theorem intoBytes_of_read (h : read codec b = .ok m) : m.intoBytes = b.drop 4 := by
  rw [read_of_le (four_le_of_read h)] at h
  cases hread : (NetMessageHeader.read codec ⟨b, 4⟩ (decodeKind (kindWord b)).1
      (decodeKind (kindWord b)).2 : Except _ (NetMessageHeader SteamID × Nat)) with
  | error e =>
    rw [hread] at h
    cases h
  | ok parsed =>
    rw [hread, Outcome.ofExcept_ok, Outcome.bind_ok] at h
    dsimp only at h
    by_cases hcut : parsed.2 - 4 ≤ (b.drop 4).length
    · -- the header buffer and the body are the two parts of the cut
      rw [splitTo_of_le hcut, Outcome.bind_ok, Outcome.ok.injEq] at h
      rw [← h]
      exact List.take_append_drop _ _
    · rw [splitTo_eq_panic.mpr (not_le.mp hcut)] at h
      cases h

/-- No message that was parsed is sent on as it came: the kind word is missing. -/
theorem intoBytes_ne_of_read (h : read codec b = .ok m) :
    m.intoBytes ≠ b ∧ sinkItem m = .ok (b.drop 4) := by
  have hdrop := intoBytes_of_read h
  refine ⟨fun heq => ?_, congrArg Except.ok hdrop⟩
  have hlen := congrArg List.length (hdrop.symm.trans heq)
  have h4 := four_le_of_read h
  rw [List.length_drop] at hlen
  omega

/-- The response to a logon, with a fixed-size header of zeros. -/
def logOnResponseBytes : Bytes := [0xef, 2, 0, 0] ++ List.replicate 32 0

theorem intoBytes_ne_of_read_logOnResponse :
    ∃ m : RawNetMessage UInt64, read HeaderCodec.wire logOnResponseBytes = .ok m ∧
      m.intoBytes ≠ logOnResponseBytes ∧ sinkItem m = .ok (logOnResponseBytes.drop 4) :=
  ⟨_, rfl, @intoBytes_ne_of_read UInt64 _ HeaderCodec.wire logOnResponseBytes _ rfl⟩

/-- The first four bytes are gone. -/
theorem not_intoBytes_eq_logOnResponse :
    ¬ ∀ m : RawNetMessage UInt64, read HeaderCodec.wire logOnResponseBytes = .ok m →
      m.intoBytes = logOnResponseBytes := by
  intro h
  exact absurd (h _ rfl) (by decide)

end Resend

/-! ### Reading back what was constructed -/

section RoundTrip

variable [DecidableEq SteamID] {K : Type} [MsgKindEnum K] {codec : HeaderCodec}
  {header : NetMessageHeader SteamID} {message : EncodableMessage SteamID} {kind : K}
  {isProtobuf : Bool} {body : Bytes}

/-- The constructor fails only when the body cannot be written. -/
theorem fromMessageWithKind_eq (hbody : message.writeBody = .ok body) :
    fromMessageWithKind codec header message kind isProtobuf =
      .ok { kind := MsgKindEnum.toMsgKind kind, isProtobuf
            header := message.processHeader header, data := body
            frameHeaderBuffer := some (List.replicate 8 0)
            ivBuffer := some (List.replicate 16 0)
            headerBuffer := (message.processHeader header).write codec kind isProtobuf } := by
  rw [fromMessageWithKind, hbody]

/-- A constructed message leaves sixteen bytes for the initialization vector. -/
theorem IsConstructed.ivBuffer_eq {m : RawNetMessage SteamID} (h : m.IsConstructed codec) :
    m.ivBuffer = some (List.replicate 16 0) := by
  obtain ⟨K, _, header, message, kind, isProtobuf, hm⟩ := h
  cases hbody : message.writeBody with
  | error e =>
    rw [fromMessageWithKind, hbody] at hm
    cases hm
  | ok body =>
    rw [fromMessageWithKind_eq hbody, Except.ok.injEq] at hm
    rw [← hm]

/-- The kind word of a message that starts with a written header. -/
theorem decodeKind_kindWord_write {h : NetMessageHeader SteamID}
    (hkind : 0 ≤ enumValue kind)
    (hresponse : MsgKindEnum.toMsgKind kind ≠ EMsg.kEMsgChannelEncryptResponse.kind) :
    4 ≤ (h.write codec kind isProtobuf).length ∧
      decodeKind (kindWord (h.write codec kind isProtobuf ++ body)) =
        (MsgKindEnum.toMsgKind kind, isProtobuf) := by
  obtain ⟨rest, hwrite⟩ := @NetMessageHeader.exists_write_eq SteamID _ _ K _ codec h kind
    isProtobuf hresponse
  have hword : kindWord (h.write codec kind isProtobuf ++ body) =
      MsgKindEnum.encodeKind kind isProtobuf := by
    rw [kindWord, hwrite, List.append_assoc, List.take_left' (LittleEndian.length_u32 _),
      LittleEndian.ofNat_decode_u32]
  exact ⟨by simp [hwrite], by rw [hword, decodeKind_encodeKind kind isProtobuf hkind]⟩

omit [DecidableEq SteamID] in
/-- A message whose header reads as the first bytes of it has the others as its body. -/
theorem read_append {written : Bytes} {readKind : MsgKind}
    (hword : 4 ≤ written.length ∧ decodeKind (kindWord (written ++ body)) = (readKind, isProtobuf))
    (hread : NetMessageHeader.read codec ⟨written ++ body, 4⟩ readKind isProtobuf =
      .ok (header, written.length)) :
    read codec (written ++ body) =
      .ok { kind := readKind, isProtobuf, header, data := body, frameHeaderBuffer := none
            ivBuffer := none, headerBuffer := written.drop 4 } := by
  obtain ⟨h4, hword⟩ := hword
  -- the offset the reader reports is the end of what was written
  have hdrop : (written ++ body).drop 4 = written.drop 4 ++ body := List.drop_append_of_le_length h4
  have hlen : (written.drop 4).length = written.length - 4 := List.length_drop
  rw [read_of_le (h4.trans (by simp)), hword, hread, Outcome.ofExcept_ok, Outcome.bind_ok]
  dsimp only
  rw [hdrop, splitTo_of_le (by simp), Outcome.bind_ok, List.take_left' hlen,
    List.drop_left' hlen]

/-- Parsing the bytes of a constructed message gives back its kind, its flag, its body, and
every field of its header but the result, which is never sent, and the steam id of a
protobuf-encoded unauthenticated call. -/
theorem read_intoBytes (hcodec : codec.Lawful)
    (hid : ∀ id : SteamID, SteamIdOps.tryFrom (SteamIdOps.toU64 id) = some id)
    (hbody : message.writeBody = .ok body) (hkind : 0 ≤ enumValue kind)
    (hresponse : MsgKindEnum.toMsgKind kind ≠ EMsg.kEMsgChannelEncryptResponse.kind)
    (hproto : isProtobuf = true →
      codec.encodedLen
        ((message.processHeader header).protoHeader (MsgKindEnum.toMsgKind kind)) < 2 ^ 32)
    (hfixed : isProtobuf = false →
      NetMessageHeader.isEncryptHandshake (MsgKindEnum.toMsgKind kind) = false ∧
        (message.processHeader header).targetJobName = none ∧
          (message.processHeader header).sourceAppId = none) :
    ∃ m parsed, fromMessageWithKind codec header message kind isProtobuf = .ok m ∧
      read codec m.intoBytes = .ok parsed ∧
      parsed.kind = MsgKindEnum.toMsgKind kind ∧
      parsed.isProtobuf = isProtobuf ∧
      parsed.data = body ∧
      parsed.header =
        { message.processHeader header with
          result := none
          steamId :=
            if isProtobuf = true ∧
                MsgKindEnum.toMsgKind kind = EMsg.kEMsgServiceMethodCallFromClientNonAuthed.kind
            then steamIdNil else (message.processHeader header).steamId } := by
  -- the parsed message has no buffers for sending, and keeps the header bytes
  refine ⟨_, ?_, fromMessageWithKind_eq hbody, ?_⟩
  · exact
      { kind := MsgKindEnum.toMsgKind kind, isProtobuf
        header :=
          { message.processHeader header with
            result := none
            steamId :=
              if isProtobuf = true ∧
                  MsgKindEnum.toMsgKind kind = EMsg.kEMsgServiceMethodCallFromClientNonAuthed.kind
              then steamIdNil else (message.processHeader header).steamId }
        data := body, frameHeaderBuffer := none, ivBuffer := none
        headerBuffer := ((message.processHeader header).write codec kind isProtobuf).drop 4 }
  refine ⟨read_append (decodeKind_kindWord_write hkind hresponse) ?_, rfl, rfl, rfl, rfl⟩
  cases isProtobuf with
  | true =>
    rw [NetMessageHeader.read_write_protobuf hcodec hresponse (hproto rfl),
      NetMessageHeader.ofProto_protoHeader hid]
    simp
  | false =>
    obtain ⟨hhandshake, hname, happ⟩ := hfixed rfl
    rw [NetMessageHeader.read_write_fixed hid hresponse hhandshake,
      NetMessageHeader.length_write_fixed hresponse, ← hname, ← happ]
    simp

/-- A call to a service method, from a session with a steam id. -/
def serviceMethodHeader : NetMessageHeader UInt64 where
  sourceJobId := ⟨7⟩
  steamId := 76561197960287930
  sessionId := 3

/-- A body of two bytes. -/
def twoByteMessage : EncodableMessage UInt64 where
  writeBody := .ok [8, 1]
  encodeSize := 2

theorem read_intoBytes_serviceMethod :
    ∃ m parsed : RawNetMessage UInt64,
      fromMessageWithKind HeaderCodec.wire serviceMethodHeader twoByteMessage
        EMsg.kEMsgServiceMethodCallFromClientNonAuthed true = .ok m ∧
      read HeaderCodec.wire m.intoBytes = .ok parsed ∧
      parsed.kind = EMsg.kEMsgServiceMethodCallFromClientNonAuthed.kind ∧
      parsed.isProtobuf = true ∧
      parsed.data = [8, 1] ∧
      parsed.header = { serviceMethodHeader with result := none, steamId := 0 } :=
  read_intoBytes HeaderCodec.wire_lawful (fun _ => rfl) rfl (by decide) (by decide)
    (fun _ => by decide) (fun h => by cases h)

/-- The fixed-size header keeps the steam id of an unauthenticated call. -/
theorem read_intoBytes_nonAuthed_fixed :
    ¬ ∃ m parsed : RawNetMessage UInt64,
      fromMessageWithKind HeaderCodec.wire serviceMethodHeader twoByteMessage
        EMsg.kEMsgServiceMethodCallFromClientNonAuthed false = .ok m ∧
      read HeaderCodec.wire m.intoBytes = .ok parsed ∧
      parsed.kind = EMsg.kEMsgServiceMethodCallFromClientNonAuthed.kind ∧
      parsed.isProtobuf = false ∧
      parsed.data = [8, 1] ∧
      parsed.header = { serviceMethodHeader with steamId := steamIdNil } := by
  rintro ⟨m, parsed, hm, hparsed, -, -, -, hheader⟩
  rw [fromMessageWithKind_eq rfl, Except.ok.injEq] at hm
  have hread : (read HeaderCodec.wire m.intoBytes).bind (fun parsed =>
      (.ok parsed.header.steamId : Outcome NetworkError UInt64)) = .ok 76561197960287930 := by
    rw [← hm]
    decide
  rw [hparsed, Outcome.bind_ok, Outcome.ok.injEq, hheader] at hread
  exact absurd hread (by decide)

end RoundTrip

end RawNetMessage

end SteamWire
