import SteamWire.Data.Cursor
import SteamWire.Net.Error
import SteamWire.Proto.Header

/-!
# Message headers

The header of a network message and its three layouts on the wire: length-prefixed
protobuf, the short header of the channel-encryption messages, and the fixed
36-byte header. `NetMessageHeader.read` and `NetMessageHeader.write` are separate
code; this file says when a read fails for lack of bytes, which offset it reports
as the start of the body, and that it recovers what the writer wrote.
-/

namespace SteamWire

/-- A unique (per-session) identifier that links request-response pairs. -/
structure JobId where
  raw : UInt64
  deriving DecidableEq, Repr

/-- The id of a message that belongs to no job. -/
def JobId.none : JobId := ⟨0xFFFFFFFFFFFFFFFF⟩

/-- What the header code uses of a steam id: its 64-bit form, the fallible way back, and
the id that 0 stands for. -/
class SteamIdOps (SteamID : Type) where
  tryFrom : UInt64 → Option SteamID
  toU64 : SteamID → UInt64
  nil : SteamID
  tryFrom_zero : tryFrom 0 = some nil

/-- Steam ids by their 64-bit form, every one of them taken to be valid. -/
instance : SteamIdOps UInt64 where
  tryFrom := some
  toU64 := id
  nil := 0
  tryFrom_zero := rfl

/-- `steam_id_nil`. -/
abbrev steamIdNil {SteamID : Type} [SteamIdOps SteamID] : SteamID := SteamIdOps.nil

/-- Reading a steam id falls back to nil. -/
def steamIdOrNil {SteamID : Type} [SteamIdOps SteamID] (raw : UInt64) : SteamID :=
  (SteamIdOps.tryFrom raw).getD steamIdNil

/-- The header of a network message. -/
structure NetMessageHeader (SteamID : Type) where
  sourceJobId : JobId := JobId.none
  targetJobId : JobId := JobId.none
  steamId : SteamID
  sessionId : Int32 := 0
  targetJobName : Option String := none
  result : Option Int32 := none
  sourceAppId : Option UInt32 := none
  deriving DecidableEq, Repr

/-- A reader that ran out of bytes reports an unexpected end of file. -/
def orUnexpectedEof {α : Type} : Option α → Except NetworkError α
  | some a => .ok a
  | none => .error (.io .unexpectedEof)

namespace NetMessageHeader

variable {SteamID : Type} [SteamIdOps SteamID]

instance : Inhabited (NetMessageHeader SteamID) := ⟨{ steamId := steamIdNil }⟩

/-- `From<CMsgProtoBufHeader>`. -/
def ofProto (header : CMsgProtoBufHeader) : NetMessageHeader SteamID where
  sourceJobId := ⟨header.jobidSource.getD 0xFFFFFFFFFFFFFFFF⟩
  targetJobId := ⟨header.jobidTarget.getD 0xFFFFFFFFFFFFFFFF⟩
  steamId := steamIdOrNil (header.steamid.getD 0)
  sessionId := header.clientSessionid.getD 0
  targetJobName := header.targetJobName
  result := header.eresult
  sourceAppId := header.routingAppid

/-- The kinds with the short header. -/
def isEncryptHandshake (kind : MsgKind) : Bool :=
  kind = EMsg.kEMsgChannelEncryptRequest.kind || kind = EMsg.kEMsgChannelEncryptResult.kind

/-- Read a header from behind the kind word; also gives the offset of the body in the
message. -/
def read (codec : HeaderCodec) (reader : Cursor) (kind : MsgKind) (isProtobuf : Bool) :
    Except NetworkError (NetMessageHeader SteamID × Nat) :=
  if isProtobuf then do
    let (headerLength, reader) ← orUnexpectedEof reader.readU32
    if 0 < headerLength then
      let (bytes, _) := reader.read headerLength.toNat
      match codec.decode bytes with
      | some header => .ok (ofProto header, 8 + headerLength.toNat)
      | none => .error .invalidHeader
    else .ok (default, 8 + headerLength.toNat)
  else if isEncryptHandshake kind then do
    let (targetJobId, reader) ← orUnexpectedEof reader.readU64
    let (sourceJobId, _) ← orUnexpectedEof reader.readU64
    .ok ({ targetJobId := ⟨targetJobId⟩, sourceJobId := ⟨sourceJobId⟩, steamId := steamIdNil },
      4 + 8 + 8)
  else do
    -- 1 byte (fixed) header size, 2 bytes (fixed) header version
    let (targetJobId, reader) ← orUnexpectedEof (reader.seekCurrent 3).readU64
    let (sourceJobId, reader) ← orUnexpectedEof reader.readU64
    -- header canary (fixed)
    let (steamId, reader) ← orUnexpectedEof (reader.seekCurrent 1).readU64
    let (sessionId, _) ← orUnexpectedEof reader.readI32
    .ok ({ sourceJobId := ⟨sourceJobId⟩, targetJobId := ⟨targetJobId⟩,
           steamId := steamIdOrNil steamId, sessionId },
      4 + 3 + 8 + 8 + 1 + 8 + 4)

section ReadLength

variable {codec : HeaderCodec} {b : Bytes} {kind : MsgKind}

/-- How many bytes a message needs for its kind word and the fixed part of its header. -/
def fixedEnd (kind : MsgKind) (isProtobuf : Bool) : Nat :=
  if isProtobuf then 8 else if isEncryptHandshake kind then 20 else 36

theorem four_le_fixedEnd (kind : MsgKind) (isProtobuf : Bool) : 4 ≤ fixedEnd kind isProtobuf := by
  unfold fixedEnd
  split_ifs <;> decide

/-- The length field of a protobuf header. -/
def lengthField (b : Bytes) : UInt32 := UInt32.ofNat (LittleEndian.decode ((b.drop 4).take 4))

/-- A message that ends inside the fixed part of its header is an I/O error. -/
theorem read_of_lt {isProtobuf : Bool} (h : b.length < fixedEnd kind isProtobuf) :
    @read SteamID _ codec ⟨b, 4⟩ kind isProtobuf = .error (.io .unexpectedEof) := by
  cases isProtobuf with
  | true =>
    have hlen : b.length < 8 := h
    rw [read, if_pos rfl, Cursor.readU32_of_lt (by dsimp; omega)]
    rfl
  | false =>
    rw [read, if_neg (by decide)]
    cases hkind : isEncryptHandshake kind with
    | true =>
      -- the reads end at 12 and 20
      have hlen : b.length < 20 := by simpa [fixedEnd, hkind] using h
      rw [if_pos rfl]
      by_cases h12 : b.length < 12
      · rw [Cursor.readU64_of_lt (by dsimp; omega)]
        rfl
      · rw [Cursor.readU64_of_le (by dsimp; omega)]
        simp only [orUnexpectedEof, bind, Except.bind]
        rw [Cursor.readU64_of_lt (by simp; omega)]
    | false =>
      have hlen : b.length < 36 := by simpa [fixedEnd, hkind] using h
      rw [if_neg (by decide)]
      -- the reads end at 15, 23, 32 and 36
      by_cases h15 : b.length < 15
      · rw [Cursor.readU64_of_lt (by simp; omega)]
        rfl
      · rw [Cursor.readU64_of_le (by simp; omega)]
        simp only [orUnexpectedEof, bind, Except.bind]
        by_cases h23 : b.length < 23
        · rw [Cursor.readU64_of_lt (by simp; omega)]
        · rw [Cursor.readU64_of_le (by simp; omega)]
          dsimp only
          by_cases h32 : b.length < 32
          · rw [Cursor.readU64_of_lt (by simp; omega)]
          · rw [Cursor.readU64_of_le (by simp; omega)]
            dsimp only
            rw [Cursor.readI32_of_lt (by simp; omega)]

/-- A message with a fixed-size header and enough bytes for it is read, and its body starts
right behind the header. -/
theorem read_fixed_of_le (h : fixedEnd kind false ≤ b.length) :
    ∃ header, @read SteamID _ codec ⟨b, 4⟩ kind false =
      .ok (header, fixedEnd kind false) := by
  rw [read, if_neg (by decide)]
  cases hkind : isEncryptHandshake kind with
  | true =>
    have hlen : 20 ≤ b.length := by simpa [fixedEnd, hkind] using h
    rw [if_pos rfl, Cursor.readU64_of_le (by dsimp; omega)]
    simp only [orUnexpectedEof, bind, Except.bind]
    rw [Cursor.readU64_of_le (by simp; omega)]
    simp [fixedEnd, hkind]
  | false =>
    have hlen : 36 ≤ b.length := by simpa [fixedEnd, hkind] using h
    rw [if_neg (by decide), Cursor.readU64_of_le (by simp; omega)]
    simp only [orUnexpectedEof, bind, Except.bind]
    rw [Cursor.readU64_of_le (by simp; omega)]
    dsimp only
    rw [Cursor.readU64_of_le (by simp; omega)]
    dsimp only
    rw [Cursor.readI32_of_le (by simp; omega)]
    simp [fixedEnd, hkind]

/-- A protobuf header is decoded from as many of its announced bytes as there are, while
the body is taken to start behind all of them. -/
theorem read_protobuf_of_le (h : 8 ≤ b.length) :
    @read SteamID _ codec ⟨b, 4⟩ kind true =
      if 0 < lengthField b then
        match codec.decode ((b.drop 8).take (lengthField b).toNat) with
        | some header => .ok (ofProto header, 8 + (lengthField b).toNat)
        | none => .error .invalidHeader
      else .ok (default, 8 + (lengthField b).toNat) := by
  rw [read, if_pos rfl, Cursor.readU32_of_le (by dsimp; omega)]
  simp [orUnexpectedEof, bind, Except.bind, Cursor.read, Cursor.rest, lengthField]

end ReadLength

section Write

variable [DecidableEq SteamID] {K : Type} [MsgKindEnum K]

/-- The kinds of service method calls. -/
def isServiceMethodCall (kind : MsgKind) : Bool :=
  kind = EMsg.kEMsgServiceMethodCallFromClientNonAuthed.kind ||
    kind = EMsg.kEMsgServiceMethodCallFromClient.kind

def protoHeader (h : NetMessageHeader SteamID) (kind : MsgKind) : CMsgProtoBufHeader where
  jobidSource := if h.sourceJobId ≠ JobId.none then some h.sourceJobId.raw else none
  jobidTarget := if h.targetJobId ≠ JobId.none then some h.targetJobId.raw else none
  steamid :=
    if h.steamId ≠ steamIdNil then
      some (if kind = EMsg.kEMsgServiceMethodCallFromClientNonAuthed.kind then 0
        else SteamIdOps.toU64 h.steamId)
    else none
  clientSessionid := if h.sessionId ≠ 0 then some h.sessionId else none
  realm := if isServiceMethodCall kind then some 1 else none
  targetJobName := h.targetJobName
  routingAppid := h.sourceAppId

/-- Write the kind word and the header. -/
def write (codec : HeaderCodec) (h : NetMessageHeader SteamID) (kind : K) (proto : Bool) : Bytes :=
  if MsgKindEnum.toMsgKind kind = EMsg.kEMsgChannelEncryptResponse.kind then
    LittleEndian.u32 (enumValue kind).toUInt32
  else if proto then
    let protoHeader := h.protoHeader (MsgKindEnum.toMsgKind kind)
    LittleEndian.u32 (MsgKindEnum.encodeKind kind true) ++
      LittleEndian.u32 (UInt32.ofNat (codec.encodedLen protoHeader)) ++
      codec.encode protoHeader
  else
    LittleEndian.u32 (enumValue kind).toUInt32 ++ [32] ++ LittleEndian.encode 2 2 ++
      LittleEndian.u64 h.targetJobId.raw ++ LittleEndian.u64 h.sourceJobId.raw ++ [239] ++
      LittleEndian.u64 (SteamIdOps.toU64 h.steamId) ++ LittleEndian.i32 h.sessionId

def encodeSize (codec : HeaderCodec) (h : NetMessageHeader SteamID) (kind : MsgKind)
    (proto : Bool) : Nat :=
  if kind = EMsg.kEMsgChannelEncryptResponse.kind then 4
  else if proto then 4 + 4 + codec.encodedLen (h.protoHeader kind)
  else 4 + 1 + 2 + 8 + 8 + 1 + 8 + 4 + 4

/-! ### Reading back what was written -/

section RoundTrip

variable {codec : HeaderCodec} {h : NetMessageHeader SteamID} {kind : K} {body : Bytes}

/-- A job id is left out when it has the value that a reader falls back to. -/
theorem getD_jobId {id : JobId} :
    (if id ≠ JobId.none then some id.raw else none).getD 0xFFFFFFFFFFFFFFFF = id.raw := by
  split_ifs with hne
  · rfl
  · rw [not_not.mp hne]
    rfl

@[simp] theorem sourceJobId_ofProto_protoHeader (kind : MsgKind) :
    (ofProto (h.protoHeader kind) : NetMessageHeader SteamID).sourceJobId = h.sourceJobId :=
  congrArg JobId.mk getD_jobId

/-- The protobuf form of a header keeps every field a reader looks at, except for the steam
id of an unauthenticated call. -/
theorem ofProto_protoHeader (hid : ∀ id : SteamID, SteamIdOps.tryFrom (SteamIdOps.toU64 id) = some id)
    (kind : MsgKind) :
    ofProto (h.protoHeader kind) =
      { h with
        result := none
        steamId := if kind = EMsg.kEMsgServiceMethodCallFromClientNonAuthed.kind then steamIdNil
          else h.steamId } := by
  have hsource := @getD_jobId h.sourceJobId
  have htarget := @getD_jobId h.targetJobId
  have hsession : (if h.sessionId ≠ 0 then some h.sessionId else none).getD 0 = h.sessionId := by
    split_ifs with hne
    · rfl
    · exact (not_not.mp hne).symm
  have hsteam : (steamIdOrNil ((if h.steamId ≠ steamIdNil then
        some (if kind = EMsg.kEMsgServiceMethodCallFromClientNonAuthed.kind then 0
          else SteamIdOps.toU64 h.steamId)
      else none).getD 0) : SteamID) =
      if kind = EMsg.kEMsgServiceMethodCallFromClientNonAuthed.kind then steamIdNil
      else h.steamId := by
    by_cases hnil : h.steamId = steamIdNil
    · simp [hnil, steamIdOrNil, SteamIdOps.tryFrom_zero]
    · by_cases hkind : kind = EMsg.kEMsgServiceMethodCallFromClientNonAuthed.kind
      · simp [hnil, hkind, steamIdOrNil, SteamIdOps.tryFrom_zero]
      · simp [hnil, hkind, steamIdOrNil, hid]
  simp only [ofProto, protoHeader, hsource, htarget, hsession, hsteam]

/-- The fixed-size layout has no room for a job name, a result or an app id. -/
theorem length_write_fixed
    (hresponse : MsgKindEnum.toMsgKind kind ≠ EMsg.kEMsgChannelEncryptResponse.kind) :
    (h.write codec kind false).length = 36 := by
  simp [write, hresponse]

theorem write_protobuf
    (hresponse : MsgKindEnum.toMsgKind kind ≠ EMsg.kEMsgChannelEncryptResponse.kind) :
    h.write codec kind true = LittleEndian.u32 (MsgKindEnum.encodeKind kind true) ++
      LittleEndian.u32 (UInt32.ofNat (codec.encodedLen (h.protoHeader (MsgKindEnum.toMsgKind kind))))
      ++ codec.encode (h.protoHeader (MsgKindEnum.toMsgKind kind)) := by
  rw [write, if_neg hresponse, if_pos rfl]

/-- A written header starts with the kind word. -/
theorem exists_write_eq (isProtobuf : Bool)
    (hresponse : MsgKindEnum.toMsgKind kind ≠ EMsg.kEMsgChannelEncryptResponse.kind) :
    ∃ rest, h.write codec kind isProtobuf =
      LittleEndian.u32 (MsgKindEnum.encodeKind kind isProtobuf) ++ rest := by
  cases isProtobuf with
  | true => exact ⟨_, by rw [write_protobuf hresponse, List.append_assoc]⟩
  | false => exact ⟨_, by simp [write, hresponse, MsgKindEnum.encodeKind, List.append_assoc]; rfl⟩

/-- A written protobuf header is read back, and the body starts at its end. -/
theorem read_write_protobuf (hcodec : codec.Lawful)
    (hresponse : MsgKindEnum.toMsgKind kind ≠ EMsg.kEMsgChannelEncryptResponse.kind)
    (hlen : codec.encodedLen (h.protoHeader (MsgKindEnum.toMsgKind kind)) < 2 ^ 32)
    (readKind : MsgKind) :
    @read SteamID _ codec ⟨h.write codec kind true ++ body, 4⟩ readKind true =
      .ok (ofProto (h.protoHeader (MsgKindEnum.toMsgKind kind)),
        (h.write codec kind true).length) := by
  rw [write_protobuf hresponse]
  -- only the encoding matters from here on, not the fields in it
  generalize h.protoHeader (MsgKindEnum.toMsgKind kind) = proto at hlen ⊢
  have hdecode := hcodec.decode_encode proto hlen
  have hnat : (UInt32.ofNat (codec.encodedLen proto)).toNat = (codec.encode proto).length := by
    rw [UInt32.toNat_ofNat', Nat.mod_eq_of_lt hlen]
    rfl
  -- in front of it stand the kind word and the length field
  generalize hwords : LittleEndian.u32 (MsgKindEnum.encodeKind kind true) ++
    LittleEndian.u32 (UInt32.ofNat (codec.encodedLen proto)) = words
  have hwordsLen : words.length = 8 := by simp [← hwords]
  have hfield : lengthField (words ++ codec.encode proto ++ body) =
      UInt32.ofNat (codec.encodedLen proto) := by
    rw [lengthField, ← hwords]
    simp [List.append_assoc]
  rw [read_protobuf_of_le (by simp [hwordsLen]), hfield, hnat, List.append_assoc,
    List.drop_left' hwordsLen, List.take_left, List.length_append, hwordsLen]
  by_cases hpos : 0 < UInt32.ofNat (codec.encodedLen proto)
  · rw [if_pos hpos, hdecode]
  · -- an empty encoding stands for the header without fields, which a reader does not decode
    have hzero : (codec.encode proto).length = 0 := by
      rw [← hnat]
      exact Nat.eq_zero_of_not_pos fun hlt => hpos (UInt32.lt_iff_toNat_lt.mpr hlt)
    rw [List.length_eq_zero_iff.mp hzero, hcodec.decode_nil] at hdecode
    rw [if_neg hpos, ← Option.some.inj hdecode]
    simp [ofProto, steamIdOrNil, SteamIdOps.tryFrom_zero, default, JobId.none]

/-- A written fixed-size header is read back without the fields it has no room for, and with
the steam id that its 64-bit form stands for. -/
theorem read_write_fixed_steamIdOrNil
    (hresponse : MsgKindEnum.toMsgKind kind ≠ EMsg.kEMsgChannelEncryptResponse.kind)
    {readKind : MsgKind} (hfixed : isEncryptHandshake readKind = false) :
    @read SteamID _ codec ⟨h.write codec kind false ++ body, 4⟩ readKind false =
      .ok ({ h with
              targetJobName := none
              result := none
              sourceAppId := none
              steamId := steamIdOrNil (SteamIdOps.toU64 h.steamId) }, 36) := by
  rw [read, if_neg (by decide), hfixed, if_neg (by decide)]
  -- what is left to read behind the three fixed bytes, field by field
  have hrest : ((⟨h.write codec kind false ++ body, 4⟩ : Cursor).seekCurrent 3).rest =
      LittleEndian.u64 h.targetJobId.raw ++ (LittleEndian.u64 h.sourceJobId.raw ++ ([239] ++
        (LittleEndian.u64 (SteamIdOps.toU64 h.steamId) ++
          (LittleEndian.i32 h.sessionId ++ body)))) := by
    simp [write, hresponse, Cursor.rest, List.append_assoc, List.drop_append]
  have hsource := Cursor.rest_seekCurrent_of_append hrest (LittleEndian.length_u64 _)
  have hcanary := Cursor.rest_seekCurrent_of_append hsource (LittleEndian.length_u64 _)
  have hsteam := Cursor.rest_seekCurrent_of_append hcanary (List.length_singleton ..)
  have hsession := Cursor.rest_seekCurrent_of_append hsteam (LittleEndian.length_u64 _)
  rw [Cursor.readU64_of_append hrest]
  simp only [orUnexpectedEof, bind, Except.bind]
  rw [Cursor.readU64_of_append hsource]
  dsimp only
  rw [Cursor.readU64_of_append hsteam]
  dsimp only
  rw [Cursor.readI32_of_append hsession]

theorem read_write_fixed (hid : ∀ id : SteamID, SteamIdOps.tryFrom (SteamIdOps.toU64 id) = some id)
    (hresponse : MsgKindEnum.toMsgKind kind ≠ EMsg.kEMsgChannelEncryptResponse.kind)
    {readKind : MsgKind} (hfixed : isEncryptHandshake readKind = false) :
    read codec ⟨h.write codec kind false ++ body, 4⟩ readKind false =
      .ok ({ h with targetJobName := none, result := none, sourceAppId := none }, 36) := by
  rw [read_write_fixed_steamIdOrNil hresponse hfixed]
  simp [steamIdOrNil, hid]

end RoundTrip

end Write

end NetMessageHeader

end SteamWire
