import SteamWire.Net.Message

/-!
# Message bodies

How a received message becomes a typed one: the result in its header is checked
first, its kind next, and then its body is parsed. The responses and notifications of
service methods carry the name of their method in the header.
-/

namespace SteamWire

/-- A parser of message bodies, for messages of one kind. -/
structure BodyReader (SteamID T : Type) where
  kind : MsgKind
  readBody : Bytes → NetMessageHeader SteamID → Except NetworkError T

namespace RawNetMessage

variable {SteamID T : Type}

/-- `RawNetMessage::into_header_and_message`. -/
def intoHeaderAndMessage (m : RawNetMessage SteamID) (reader : BodyReader SteamID T) :
    Except NetworkError (NetMessageHeader SteamID × T) := do
  if let some result := m.header.result then
    (EResult.fromResult result).mapError NetworkError.apiError
  if m.kind = reader.kind then
    let body ← reader.readBody m.data m.header
    return (m.header, body)
  else throw (.differentMessage reader.kind m.kind)

/-- The messages that are parsed. -/
theorem intoHeaderAndMessage_eq_ok_iff {m : RawNetMessage SteamID} {reader : BodyReader SteamID T}
    {header : NetMessageHeader SteamID} {body : T} :
    m.intoHeaderAndMessage reader = .ok (header, body) ↔
      (∀ result ∈ m.header.result, result = 1) ∧ m.kind = reader.kind ∧
        reader.readBody m.data m.header = .ok body ∧ header = m.header := by
  have hrest : (if m.kind = reader.kind then do
      let body ← reader.readBody m.data m.header
      return (m.header, body)
    else throw (.differentMessage reader.kind m.kind)) = .ok (header, body) ↔
      m.kind = reader.kind ∧ reader.readBody m.data m.header = .ok body ∧ header = m.header := by
    split
    case isTrue hkind =>
      rw [bind_eq_ok_iff]
      constructor
      · rintro ⟨_, hbody, h⟩
        obtain ⟨rfl, rfl⟩ := Prod.mk.inj (Except.ok.inj h)
        exact ⟨hkind, hbody, rfl⟩
      · rintro ⟨-, hbody, rfl⟩
        exact ⟨body, hbody, rfl⟩
    case isFalse hkind => exact ⟨nofun, fun h => absurd h.1 hkind⟩
  rw [← hrest]
  unfold intoHeaderAndMessage
  cases m.header.result with
  | none => exact ⟨fun h => ⟨nofun, h⟩, fun h => h.2⟩
  | some result =>
    constructor
    · intro h
      obtain ⟨_, hok, h⟩ := bind_eq_ok_iff.mp h
      refine ⟨fun x hx => ?_, h⟩
      obtain rfl := Option.some.inj hx
      exact EResult.fromResult_eq_ok.mp (mapError_eq_ok_iff.mp hok)
    · rintro ⟨hok, h⟩
      have hresult := EResult.fromResult_eq_ok.mpr (hok result rfl)
      exact bind_eq_ok_iff.mpr ⟨(), mapError_eq_ok_iff.mpr hresult, h⟩

/-- `RawNetMessage::into_message`. -/
def intoMessage (m : RawNetMessage SteamID) (reader : BodyReader SteamID T) :
    Except NetworkError T :=
  (m.intoHeaderAndMessage reader).map Prod.snd

theorem intoMessage_eq_ok_iff {m : RawNetMessage SteamID} {reader : BodyReader SteamID T}
    {body : T} : m.intoMessage reader = .ok body ↔
      (∀ result ∈ m.header.result, result = 1) ∧ m.kind = reader.kind ∧
        reader.readBody m.data m.header = .ok body := by
  constructor
  · intro h
    cases hread : m.intoHeaderAndMessage reader with
    | error e => rw [intoMessage, hread] at h; cases h
    | ok pair =>
      obtain ⟨header, body'⟩ := pair
      rw [intoMessage, hread] at h
      obtain rfl := Except.ok.inj h
      obtain ⟨hresult, hkind, hbody, -⟩ := intoHeaderAndMessage_eq_ok_iff.mp hread
      exact ⟨hresult, hkind, hbody⟩
  · rintro ⟨hresult, hkind, hbody⟩
    rw [intoMessage, intoHeaderAndMessage_eq_ok_iff.mpr ⟨hresult, hkind, hbody, rfl⟩]
    rfl

/-- A message of the kind that is read is not taken for one of another. -/
theorem intoMessage_ne_differentMessage {m : RawNetMessage SteamID} {reader : BodyReader SteamID T}
    (hkind : m.kind = reader.kind)
    (hbody : ∀ x y, reader.readBody m.data m.header ≠ .error (.differentMessage x y))
    (x y : MsgKind) : m.intoMessage reader ≠ .error (.differentMessage x y) := by
  intro h
  unfold intoMessage intoHeaderAndMessage at h
  rw [if_pos hkind] at h
  have hread : (do
      let body ← reader.readBody m.data m.header
      return (m.header, body) : Except NetworkError _).map Prod.snd ≠
        .error (.differentMessage x y) := by
    cases hcase : reader.readBody m.data m.header with
    | error e =>
      intro hmap
      have he : e = .differentMessage x y := Except.error.inj hmap
      exact hbody x y (hcase.trans (congrArg Except.error he))
    | ok body => exact nofun
  cases hresult : m.header.result with
  | none =>
    rw [hresult] at h
    exact hread h
  | some result =>
    rw [hresult] at h
    cases hok : EResult.fromResult result with
    | error e => simp [hok, Except.mapError, bind, Except.bind, Except.map] at h
    | ok =>
      simp only [hok, Except.mapError] at h
      exact hread h

/-- A message of another kind is refused for its kind, unless its result is an error. -/
theorem intoMessage_of_kind_ne {m : RawNetMessage SteamID} {reader : BodyReader SteamID T}
    (hresult : m.header.result = none) (hkind : m.kind ≠ reader.kind) :
    m.intoMessage reader = .error (.differentMessage reader.kind m.kind) := by
  rw [intoMessage, intoHeaderAndMessage, hresult, if_neg hkind]
  rfl

end RawNetMessage

/-- A message of a protobuf type, with its encoding. -/
def rpcMessage {SteamID : Type} (encoded : Bytes) : EncodableMessage SteamID where
  writeBody := .ok encoded
  encodeSize := encoded.length

/-- Messages of a protobuf type, by their kind and the parser of their bodies. -/
def rpcMessageReader {SteamID T : Type} (kind : MsgKind) (parse : Bytes → Except ProtoError T) :
    BodyReader SteamID T where
  kind
  readBody data _ := (parse data).mapError fun e => .malformedBody kind (.proto e)

/-- `ServiceMethodMessage`: a request, as it is encoded, that names its method in the header. -/
def serviceMethodMessage {SteamID : Type} (reqName : String) (request : Bytes) :
    EncodableMessage SteamID where
  writeBody := .ok request
  encodeSize := request.length
  processHeader header := { header with targetJobName := some reqName }

/-- A notification or a response of a service method. -/
structure ServiceMethodBody where
  jobName : String
  body : Bytes
  deriving DecidableEq, Repr

/-- Both are read alike, from messages of different kinds. -/
def ServiceMethodBody.reader {SteamID : Type} (kind : MsgKind) :
    BodyReader SteamID ServiceMethodBody where
  kind
  readBody data header := .ok { jobName := header.targetJobName.getD "", body := data }

abbrev ServiceMethodNotification := ServiceMethodBody

def ServiceMethodNotification.reader {SteamID : Type} :
    BodyReader SteamID ServiceMethodNotification :=
  ServiceMethodBody.reader EMsg.kEMsgServiceMethod.kind

abbrev ServiceMethodResponseMessage := ServiceMethodBody

def ServiceMethodResponseMessage.reader {SteamID : Type} :
    BodyReader SteamID ServiceMethodResponseMessage :=
  ServiceMethodBody.reader EMsg.kEMsgServiceMethodResponse.kind

/-- `into_response`, for the method `reqName` with responses read by `parse`. -/
def ServiceMethodResponseMessage.intoResponse {T : Type} (m : ServiceMethodResponseMessage)
    (reqName : String) (parse : Bytes → Except MessageBodyError T) : Except NetworkError T :=
  if m.jobName = reqName then
    (parse m.body).mapError (.malformedBody EMsg.kEMsgServiceMethodResponse.kind)
  else .error (.differentServiceMethod reqName m.jobName)

/-- `into_notification`, for the method `reqName` with requests read by `parse`. -/
def ServiceMethodNotification.intoNotification {T : Type} (m : ServiceMethodNotification)
    (reqName : String) (parse : Bytes → Except MessageBodyError T) : Except NetworkError T :=
  if m.jobName = reqName then
    (parse m.body).mapError (.malformedBody EMsg.kEMsgServiceMethod.kind)
  else .error (.differentServiceMethod reqName m.jobName)

end SteamWire
