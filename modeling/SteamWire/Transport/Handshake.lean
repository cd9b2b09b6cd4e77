import SteamWire.GameCoordinator.Size
import SteamWire.Message.Flatten
import SteamWire.Semantics.Framed
import SteamWire.Transport.Decrypt

/-!
# The channel-encryption handshake

A TCP server greets a client with a request; the client draws a session key, sends it back
encrypted under the public key of the servers, and waits for the result. `connect` is a future
that is polled while the bytes of the server arrive in chunks, and the bytes it writes leave
in chunks, in any order; it gives out a sink and a stream that do the same
(`TcpSession.step`).
-/

namespace SteamWire

open Semantics

/-! ### The messages -/

structure ChannelEncryptRequest where
  protocol : UInt32
  universeId : UInt32
  nonce : Vector UInt8 16
  deriving DecidableEq, Repr

structure ChannelEncryptResult where
  result : UInt32
  deriving DecidableEq, Repr

/-- Read the fields one behind the other; a body that is too short is malformed. -/
def ChannelEncryptRequest.reader {SteamID : Type} : BodyReader SteamID ChannelEncryptRequest where
  kind := EMsg.kEMsgChannelEncryptRequest.kind
  readBody data _ :=
    let fields : Option ChannelEncryptRequest := do
      let (protocol, reader) ← (⟨data, 0⟩ : Cursor).readU32
      let (universeId, reader) ← reader.readU32
      let (nonce, _) ← reader.readExact 16
      return { protocol, universeId, nonce := Vector.ofFn fun i => nonce.getD i 0 }
    match fields with
    | some request => .ok request
    | none => .error (.malformedBody EMsg.kEMsgChannelEncryptRequest.kind .binRead)

def ChannelEncryptResult.reader {SteamID : Type} : BodyReader SteamID ChannelEncryptResult where
  kind := EMsg.kEMsgChannelEncryptResult.kind
  readBody data _ :=
    match (⟨data, 0⟩ : Cursor).readU32 with
    | some (result, _) => .ok { result }
    | none => .error (.malformedBody EMsg.kEMsgChannelEncryptResult.kind .binRead)

/-- A session key, and its encryption for the server. -/
structure SessionKeys where
  plain : SessionKey
  encrypted : Bytes
  deriving DecidableEq, Repr

/-- What the transport gets from other crates: the codec of headers, gzip and protobuf for multi
messages, the ciphers, the checksum, and the encryption under the system key with a random
seed. -/
structure TcpCrates where
  codec : HeaderCodec
  multi : MultiCodec
  cipher : CryptCipher
  crc : Bytes → UInt32
  encryptWithKey : Bytes → Bytes → Bytes

section Messages

variable {SteamID : Type} [SteamIdOps SteamID] (crates : TcpCrates)

/-- `generate_session_key`, with the key and the seed that are drawn. -/
def generateSessionKey (plain : SessionKey) (seed : Bytes) (nonce : Option (Vector UInt8 16)) :
    SessionKeys where
  plain
  encrypted :=
    match nonce with
    | some nonce => crates.encryptWithKey seed (plain.toList ++ nonce.toList)
    | none => crates.encryptWithKey seed plain.toList

/-- `encode_message`: the buffer of the sink with the frame of the message in it. -/
def encodeMessage [DecidableEq SteamID] {K : Type} [MsgKindEnum K]
    (header : NetMessageHeader SteamID) (message : EncodableMessage SteamID) (kind : K)
    (isProtobuf : Bool) (dst : Bytes) : Except NetworkError Bytes :=
  match message.writeBody with
  | .error e => .error (.io e)
  | .ok body => .ok (FrameCodec.encode (header.write crates.codec kind isProtobuf ++ body) dst)

/-- What the handshake makes of a result of the reader: a message of the kind it waits for. -/
def nextMessage {T : Type} (reader : BodyReader SteamID T) :
    Option (Except NetworkError Bytes) → Outcome NetworkError T
  | none => .err .eof
  | some (.error e) => .err e
  | some (.ok frame) =>
    (RawNetMessage.read crates.codec frame).bind fun m => .ofExcept (m.intoMessage reader)

/-- What the stream of messages gives for a frame. -/
def receiveAll (key : SessionKey) (frame : Bytes) :
    List (Outcome NetworkError (RawNetMessage SteamID)) :=
  flattenOne crates.codec crates.multi
    (receiveFrame crates.cipher crates.codec key ⟨frame, frame.length, le_rfl⟩)

/-- What the stream gives for a result of the reader. -/
def receiveResult (key : SessionKey) :
    Except NetworkError Bytes → List (Outcome NetworkError (RawNetMessage SteamID))
  | .error e => [.err e]
  | .ok frame => receiveAll crates key frame

end Messages

/-! ### The session -/

/-- How far `connect` is. -/
inductive TcpPhase where
  | awaitRequest
  | sendResponse (keys : SessionKeys)
  | awaitResult (key : SessionKey)
  | connected (key : SessionKey)
  | failed (error : NetworkError)
  | panicked
  deriving DecidableEq, Repr

/-- A session: its phase, its reader and the buffer of its writer, and behind them what
happened: the bytes that arrived and what the reader gave of them, the frame that answered
the request, the bytes that were written, the messages that the sink took, and what the stream
gave. -/
structure TcpSession (SteamID : Type) where
  phase : TcpPhase := .awaitRequest
  reader : FramedRead UInt8 NetworkError := {}
  writer : Bytes := []
  arrived : Bytes := []
  results : List (Except NetworkError Bytes) := []
  response : Bytes := []
  wire : Bytes := []
  accepted : List (Vector UInt8 3 × RawNetMessage SteamID) := []
  received : List (Outcome NetworkError (RawNetMessage SteamID)) := []

/-- What happens to a session: bytes arrive, no more can be read, a poll goes on with the key
and the seed that it may draw, bytes are written or cannot be, and a message is put into the
sink with its random bytes. -/
inductive TcpAction (SteamID : Type) where
  | arrive (chunk : Bytes)
  | close (error : Option IoError)
  | poll (plain : SessionKey) (seed : Bytes)
  | write (n : Nat)
  | writeError (error : IoError)
  | send (random : Vector UInt8 3) (item : RawNetMessage SteamID)

namespace TcpSession

variable {SteamID : Type} [SteamIdOps SteamID] [DecidableEq SteamID] (crates : TcpCrates)

/-- The error for bytes that are left when the stream ends. -/
def bytesRemaining : NetworkError := .io (.other "bytes remaining on stream")

/-- The number of buffered bytes from which on a framed sink flushes before it takes more. -/
def backpressureBoundary : Nat := 8192

/-- Messages come out of the constructor, with room for an initialization vector, or out of the
parser, without. -/
def isSendable (item : RawNetMessage SteamID) : Bool :=
  item.ivBuffer = none || item.ivBuffer = some (List.replicate 16 0)

/-- Whether the future, or the sink and the stream it gave out, are still there. -/
def isLive (s : TcpSession SteamID) : Bool :=
  match s.phase with
  | .failed _ => false
  | .panicked => false
  | _ => true

/-- The response to a request. -/
def responseMessage (request : ChannelEncryptRequest) (keys : SessionKeys) : ClientEncryptResponse where
  protocol := request.protocol
  encryptedKey := keys.encrypted

/-- Put the response to a request into the buffer of the writer. -/
def encodeResponse (request : ChannelEncryptRequest) (keys : SessionKeys) (dst : Bytes) :
    Except NetworkError Bytes :=
  encodeMessage crates (default : NetMessageHeader SteamID)
    ((responseMessage request keys).message crates.crc) EMsg.kEMsgChannelEncryptResponse false dst

/-- Go on with a result of the reader. -/
def handle (s : TcpSession SteamID) (plain : SessionKey) (seed : Bytes)
    (result : Option (Except NetworkError Bytes)) : TcpSession SteamID :=
  match s.phase with
  | .awaitRequest =>
    match nextMessage crates (@ChannelEncryptRequest.reader SteamID) result with
    | .err e => { s with phase := .failed e }
    | .panic => { s with phase := .panicked }
    | .ok request =>
      let keys := generateSessionKey crates plain seed none
      match @encodeResponse SteamID _ _ crates request keys s.writer with
      | .error e => { s with phase := .failed e }
      | .ok writer => { s with phase := .sendResponse keys, writer, response := writer }
  | .awaitResult key =>
    match nextMessage crates (@ChannelEncryptResult.reader SteamID) result with
    | .err e => { s with phase := .failed e }
    | .panic => { s with phase := .panicked }
    | .ok response =>
      if response.result ≠ 1 then { s with phase := .failed .cryptoHandshakeFailed }
      -- the sink has a buffer of its own, and the reader keeps what it has
      else { s with phase := .connected key, writer := [] }
  | .connected key =>
    let received := result.toList.flatMap (receiveResult crates key)
    { s with
      received := s.received ++ received
      phase := if Outcome.panic ∈ received then .panicked else .connected key }
  | _ => s

/-- Poll the future, or the stream. -/
def poll (s : TcpSession SteamID) (plain : SessionKey) (seed : Bytes) :
    Option (TcpSession SteamID) :=
  match s.phase with
  | .failed _ => none
  | .panicked => none
  | .sendResponse keys =>
    if s.writer.isEmpty then some { s with phase := .awaitResult keys.plain } else none
  | _ =>
    if s.reader.ended then none
    else
      match s.reader.poll FrameCodec.decoder bytesRemaining with
      | (.pending, _) => none
      | (.ready result, reader) =>
        some (handle crates { s with reader, results := s.results ++ result.toList } plain seed result)

def step (s : TcpSession SteamID) : TcpAction SteamID → Option (TcpSession SteamID)
  | .arrive chunk =>
    if s.isLive && s.reader.closed.isNone then
      some { s with reader := s.reader.arrive chunk, arrived := s.arrived ++ chunk }
    else none
  | .close error =>
    if s.isLive && s.reader.closed.isNone then
      some { s with reader := s.reader.close (error.map .io) }
    else none
  | .poll plain seed => s.poll crates plain seed
  | .write n =>
    if s.isLive && 0 < n && n ≤ s.writer.length then
      some { s with wire := s.wire ++ s.writer.take n, writer := s.writer.drop n }
    else none
  | .writeError error =>
    match s.phase with
    | .sendResponse _ => some { s with phase := .failed (.io error) }
    -- the sink reports it and keeps its bytes
    | .connected _ => some s
    | _ => none
  | .send random item =>
    match s.phase with
    | .connected key =>
      if isSendable item && s.writer.length < backpressureBoundary then
        match RawMessageEncoder.encode crates.cipher.toCryptPrimitives ⟨key⟩ random item s.writer with
        | .ok writer => some { s with writer, accepted := s.accepted ++ [(random, item)] }
        | .err _ => some s
        | .panic => some { s with phase := .panicked }
      else none
    | _ => none

end TcpSession

end SteamWire
