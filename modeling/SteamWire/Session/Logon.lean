import SteamWire.Data.Duration
import SteamWire.Data.Protobuf
import SteamWire.Message.Body
import SteamWire.Session.Error

/-!
# Starting a session

A session is made from the response to a logon. The interval of its heartbeats is a signed
number of seconds that the service may leave out; it is taken for an unsigned one, so that
every negative number comes to centuries (`toNat_asU64`).
-/

namespace SteamWire

/-! ### The response -/

inductive CMsgIpAddressIp where
  | v4 (bits : UInt32)
  | v6 (bytes : Bytes)
  deriving DecidableEq, Repr

structure CMsgIpAddress where
  ip : Option CMsgIpAddressIp := none
  deriving DecidableEq, Repr

/-- The response to a logon, with the fields that a session is made from. -/
structure CMsgClientLogonResponse where
  eresult : Option Int32 := none
  heartbeatSeconds : Option Int32 := none
  cellId : Option UInt32 := none
  publicIp : Option CMsgIpAddress := none
  clientSuppliedSteamid : Option UInt64 := none
  ipCountryCode : Option String := none
  deriving DecidableEq, Repr

/-- The parser of the response, as generated. -/
abbrev LogonParser := Bytes → Except ProtoError CMsgClientLogonResponse

def CMsgClientLogonResponse.reader {SteamID : Type} (parse : LogonParser) :
    BodyReader SteamID CMsgClientLogonResponse where
  kind := EMsg.kEMsgClientLogOnResponse.kind
  readBody data _ :=
    (parse data).mapError fun e => .malformedBody EMsg.kEMsgClientLogOnResponse.kind (.proto e)

/-! ### The logon -/

/-- The logon, with the fields that are ever set. -/
structure CMsgClientLogon where
  protocolVersion : Option UInt32 := none
  clientOsType : Option UInt32 := none
  anonUserTargetAccountName : Option String := none
  accountName : Option String := none
  supportsRateLimitResponse : Option Bool := none
  obfuscatedPrivateIp : Option CMsgIpAddress := none
  clientLanguage : Option String := none
  machineName : Option String := none
  steamguardDontRememberComputer : Option Bool := none
  chatMode : Option UInt32 := none
  accessToken : Option String := none
  clientPackageVersion : Option UInt32 := none
  deriving DecidableEq, Repr

namespace CMsgClientLogon

/-- The logon that `anonymous` sends. -/
def anonymous : CMsgClientLogon where
  protocolVersion := some 65580
  clientOsType := some 203
  anonUserTargetAccountName := some "anonymous"
  accountName := some "anonymous"
  supportsRateLimitResponse := some false
  obfuscatedPrivateIp := some { ip := some (.v4 0) }
  clientLanguage := some ""
  chatMode := some 2
  clientPackageVersion := some 1771

/-- The logon that `login` sends. -/
def login (account accessToken : String) : CMsgClientLogon where
  protocolVersion := some 65580
  clientOsType := some 203
  accountName := some account
  supportsRateLimitResponse := some false
  obfuscatedPrivateIp := some { ip := some (.v4 0) }
  clientLanguage := some ""
  machineName := some ""
  steamguardDontRememberComputer := some false
  chatMode := some 2
  accessToken := some accessToken
  clientPackageVersion := some 1771

end CMsgClientLogon

/-! ### The session -/

inductive IpAddr where
  | v4 (bits : UInt32)
  | v6 (octets : { bytes : Bytes // bytes.length = 16 })
  deriving DecidableEq, Repr

def CMsgIpAddress.toIpAddr (addr : CMsgIpAddress) : Option IpAddr :=
  match addr.ip with
  | some (.v4 bits) => some (.v4 bits)
  | some (.v6 bytes) => if h : bytes.length = 16 then some (.v6 ⟨bytes, h⟩) else none
  | none => none

structure Session (SteamID : Type) where
  sessionId : Int32 := 0
  cellId : UInt32 := 0
  publicIp : Option IpAddr := none
  ipCountryCode : Option String := none
  /-- The id that the counter gives to the next job. -/
  jobId : JobId := ⟨1⟩
  steamId : SteamID
  heartbeatInterval : Duration := .fromSecs 15
  appId : Option UInt32 := none
  accessToken : Option String := none
  webAccessToken : Option String := none
  deriving DecidableEq, Repr

/-- What a steam id is for. -/
inductive AccountType where
  | invalid
  | individual
  | multiseat
  | gameServer
  | anonGameServer
  | pending
  | contentServer
  | clan
  | chat
  | p2pSuperSeeder
  | anonUser
  deriving DecidableEq, Repr

/-- `account_type` of a steam id. -/
class HasAccountType (SteamID : Type) where
  accountType : SteamID → AccountType

/-- In the 64-bit form the account type has four bits. -/
instance : HasAccountType UInt64 where
  accountType id :=
    match (id >>> 52 &&& 15).toNat with
    | 1 => .individual
    | 2 => .multiseat
    | 3 => .gameServer
    | 4 => .anonGameServer
    | 5 => .pending
    | 6 => .contentServer
    | 7 => .clan
    | 8 => .chat
    | 9 => .p2pSuperSeeder
    | 10 => .anonUser
    | _ => .invalid

namespace Session

variable {SteamID : Type} (session : Session SteamID)

/-- The header of the next message, and the session behind it: a job takes an id. -/
def header [SteamIdOps SteamID] (job : Bool) : NetMessageHeader SteamID × Session SteamID :=
  ({ (default : NetMessageHeader SteamID) with
      sessionId := session.sessionId
      sourceJobId := if job then session.jobId else JobId.none
      targetJobId := JobId.none
      steamId := session.steamId
      sourceAppId := session.appId },
    if job then { session with jobId := ⟨session.jobId.raw + 1⟩ } else session)

def isServer [HasAccountType SteamID] : Bool :=
  HasAccountType.accountType session.steamId = .anonGameServer ||
    HasAccountType.accountType session.steamId = .gameServer

def withAppId (appId : UInt32) : Session SteamID := { session with appId := some appId }

end Session

/-- `as u64` of an `i32`. -/
def asU64 (x : Int32) : UInt64 := x.toInt64.toUInt64

theorem toNat_asU64 (x : Int32) : ((asU64 x).toNat : Int) = x.toInt % 2 ^ 64 := by
  have hnat : (asU64 x).toNat = x.toInt64.toBitVec.toNat := rfl
  rw [hnat, ← Int32.toInt_toInt64 x]
  change _ = x.toInt64.toBitVec.toInt % 2 ^ 64
  rw [BitVec.toInt_eq_toNat_cond]
  -- the sign is extended before it is dropped
  have hlt : x.toInt64.toBitVec.toNat < 2 ^ 64 := x.toInt64.toBitVec.isLt
  split <;> omega

section Logon

variable {SteamID : Type} [SteamIdOps SteamID] [DecidableEq SteamID]

instance : Inhabited (Session SteamID) := ⟨{ steamId := steamIdNil }⟩

/-- The steam id of a session. -/
def assignedSteamId (steamId : SteamID) (header : NetMessageHeader SteamID)
    (response : CMsgClientLogonResponse) : SteamID :=
  match response.clientSuppliedSteamid with
  | some raw => (SteamIdOps.tryFrom raw).getD steamId
  -- without an id in the response, that of the header counts, if it has one
  | none => if header.steamId ≠ steamIdNil then header.steamId else steamId

/-- The session that a response starts. -/
def sessionOf (steamId : SteamID) (accessToken webAccessToken : Option String)
    (header : NetMessageHeader SteamID) (response : CMsgClientLogonResponse) : Session SteamID where
  sessionId := header.sessionId
  cellId := response.cellId.getD 0
  publicIp := response.publicIp.bind CMsgIpAddress.toIpAddr
  ipCountryCode := response.ipCountryCode
  steamId := assignedSteamId steamId header response
  -- a missing number of seconds counts as zero
  heartbeatInterval := .fromSecs (asU64 (response.heartbeatSeconds.getD 0))
  accessToken
  webAccessToken

/-- `send_logon`, given what came of sending the logon, and the response that the filter
gives, if it gives one. -/
def sendLogon (parse : LogonParser) (steamId : SteamID)
    (accessToken webAccessToken : Option String) (sent : Except NetworkError Unit)
    (rawResponse : Option (RawNetMessage SteamID)) : Except ConnectionError (Session SteamID) := do
  sent.mapError .network
  let rawResponse ← rawResponse.elim (.error (.network .eof)) .ok
  let (header, response) ←
    (rawResponse.intoHeaderAndMessage (CMsgClientLogonResponse.reader parse)).mapError .network
  -- a response without a result is a failure
  (EResult.fromResult (response.eresult.getD 2)).mapError fun e => .loginError (.ofEResult e)
  return sessionOf steamId accessToken webAccessToken header response

variable {parse : LogonParser} {steamId : SteamID} {accessToken webAccessToken : Option String}
  {sent : Except NetworkError Unit} {raw : RawNetMessage SteamID} {session : Session SteamID}

/-- The responses that start a session. -/
theorem sendLogon_eq_ok_iff :
    sendLogon parse steamId accessToken webAccessToken sent (some raw) = .ok session ↔
      sent = .ok () ∧ (∀ result ∈ raw.header.result, result = 1) ∧
        raw.kind = EMsg.kEMsgClientLogOnResponse.kind ∧
          ∃ response, parse raw.data = .ok response ∧ response.eresult = some 1 ∧
            session = sessionOf steamId accessToken webAccessToken raw.header response := by
  constructor
  · intro h
    obtain ⟨_, hsent, h⟩ := bind_eq_ok_iff.mp h
    obtain ⟨_, hraw, h⟩ := bind_eq_ok_iff.mp h
    obtain rfl := Except.ok.inj hraw
    obtain ⟨⟨header, response⟩, hmessage, h⟩ := bind_eq_ok_iff.mp h
    obtain ⟨_, hok, h⟩ := bind_eq_ok_iff.mp h
    obtain ⟨hresult, hkind, hbody, rfl⟩ :=
      RawNetMessage.intoHeaderAndMessage_eq_ok_iff.mp (mapError_eq_ok_iff.mp hmessage)
    refine ⟨mapError_eq_ok_iff.mp hsent, hresult, hkind, response, mapError_eq_ok_iff.mp hbody, ?_,
      (Except.ok.inj h).symm⟩
    have heresult := EResult.fromResult_eq_ok.mp (mapError_eq_ok_iff.mp hok)
    cases hresponse : response.eresult with
    | none => rw [hresponse] at heresult; exact absurd heresult (by decide)
    | some result => rw [hresponse] at heresult; exact congrArg some heresult
  · rintro ⟨rfl, hresult, hkind, response, hbody, heresult, rfl⟩
    have hmessage : raw.intoHeaderAndMessage (CMsgClientLogonResponse.reader parse) =
        .ok (raw.header, response) := by
      exact RawNetMessage.intoHeaderAndMessage_eq_ok_iff.mpr
        ⟨hresult, hkind, mapError_eq_ok_iff.mpr hbody, rfl⟩
    refine bind_eq_ok_iff.mpr ⟨(), rfl, bind_eq_ok_iff.mpr ⟨raw, rfl, bind_eq_ok_iff.mpr
      ⟨_, mapError_eq_ok_iff.mpr hmessage, bind_eq_ok_iff.mpr ⟨(), ?_, rfl⟩⟩⟩⟩
    exact mapError_eq_ok_iff.mpr (EResult.fromResult_eq_ok.mpr (by rw [heresult]; rfl))

end Logon

/-! ### The wire format of the response -/

namespace CMsgClientLogonResponse

open Protobuf

/-- Take one record into an address: the last one set counts. -/
def mergeIp (addr : CMsgIpAddress) (r : Record) : Option CMsgIpAddress :=
  match r.number, r.value with
  | 1, .fixed32 x => some { ip := some (.v4 x) }
  | 2, .bytes b => some { ip := some (.v6 b) }
  | 1, _ | 2, _ => none
  | _, _ => some addr

/-- Take one record into the response. -/
def merge (response : CMsgClientLogonResponse) (r : Record) : Option CMsgClientLogonResponse :=
  match r.number, r.value with
  | 1, .varint x => some { response with eresult := some x.toInt64.toInt32 }
  | 3, .varint x => some { response with heartbeatSeconds := some x.toInt64.toInt32 }
  | 7, .varint x => some { response with cellId := some x.toUInt32 }
  | 15, .bytes b =>
    ((Protobuf.parse b).bind fun records =>
      records.foldlM mergeIp (response.publicIp.getD {})).map fun addr =>
        { response with publicIp := some addr }
  | 20, .fixed64 x => some { response with clientSuppliedSteamid := some x }
  | 21, .bytes b =>
    (String.fromUTF8? ⟨b.toArray⟩).map fun x => { response with ipCountryCode := some x }
  | 1, _ | 3, _ | 7, _ | 15, _ | 20, _ | 21, _ => none
  | _, _ => some response

end CMsgClientLogonResponse

/-- The parser of the wire format. -/
def LogonParser.wire : LogonParser := fun b =>
  match (Protobuf.parse b).bind fun records => records.foldlM CMsgClientLogonResponse.merge {} with
  | some response => .ok response
  | none => .error .decode

end SteamWire
