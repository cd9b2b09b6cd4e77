import SteamWire.Data.Decimal
import SteamWire.Data.Str
import SteamWire.Semantics.Run
import SteamWire.Session.Logon

/-!
# The login with a token

`UnAuthenticatedConnection::access`: the account is read from the claims of a refresh token, the
token itself is sent as the access token of the logon, and the service then makes a token for the
web of it. The claims are the second part of the text, whatever is in the others, and the account
is a number in decimal (`readToken_eq_ok_iff`).

`Access.proper_of_run` says what holds of every run: nothing is sent for a token that cannot be
read, the requests carry the token and its own account, and a login succeeds exactly when the
service gives a token for the web after the logon.
-/

namespace SteamWire

open Semantics

/-! ### The token -/

/-- The claims of a token. -/
structure AccessToken where
  iss : String
  sub : String
  exp : UInt64
  deriving DecidableEq, Repr

/-- What the crates do: decode base64 for URLs without padding, and read the claims. Their errors
come as texts. -/
structure TokenCrates where
  decode : List Char → Except String Bytes
  fromSlice : Bytes → Except String AccessToken

namespace TokenCrates

variable (crates : TokenCrates) {SteamID : Type} [SteamIdOps SteamID]

/-- The claims of the token: nobody looks at the parts around them. -/
def payload (refreshToken : String) : Except ConnectionError AccessToken := do
  let base64 ← (refreshToken.toList.splitOn '.')[1]?.elim (.error (.accessToken .malformed)) .ok
  let json ← (crates.decode base64).mapError fun e => .accessToken (.base64 e)
  (crates.fromSlice json).mapError fun e => .accessToken (.json e)

/-- The account of a token, as a number and as an id. Whether it is expired is not asked. -/
def readToken (refreshToken : String) : Except ConnectionError (UInt64 × SteamID) := do
  let accessTokenPayload ← crates.payload refreshToken
  if accessTokenPayload.iss ≠ "steam" then
    .error (.accessToken .invalidIssuer)
  else
    let steamIdRaw ← (Decimal.parseU64 accessTokenPayload.sub.toList).elim
      (.error (.loginError .invalidSteamId)) .ok
    let steamId ← (SteamIdOps.tryFrom steamIdRaw).elim
      (.error (.loginError .invalidSteamId)) .ok
    return (steamIdRaw, steamId)

end TokenCrates

section Token

variable {crates : TokenCrates} {SteamID : Type} [SteamIdOps SteamID] {refreshToken : String}
  {claims : AccessToken} {steamIdRaw : UInt64} {steamId : SteamID}

theorem payload_eq_ok_iff : crates.payload refreshToken = .ok claims ↔
    ∃ header base64 rest json, refreshToken.toList = header ++ '.' :: rest ∧ '.' ∉ header ∧
      Str.UpTo '.' base64 rest ∧ crates.decode base64 = .ok json ∧
        crates.fromSlice json = .ok claims := by
  constructor
  · intro h
    obtain ⟨base64, hpart, h⟩ := bind_eq_ok_iff.mp h
    obtain ⟨json, hjson, h⟩ := bind_eq_ok_iff.mp h
    obtain ⟨header, rest, htoken, hheader, hrest⟩ :=
      Str.getElem?_one_splitOn_eq_some_iff.mp (elim_eq_ok_iff.mp hpart)
    exact ⟨header, base64, rest, json, htoken, hheader, hrest, mapError_eq_ok_iff.mp hjson,
      mapError_eq_ok_iff.mp h⟩
  · rintro ⟨header, base64, rest, json, htoken, hheader, hrest, hjson, hclaims⟩
    have hpart := Str.getElem?_one_splitOn_eq_some_iff.mpr ⟨header, rest, htoken, hheader, hrest⟩
    exact bind_eq_ok_iff.mpr ⟨base64, elim_eq_ok_iff.mpr hpart, bind_eq_ok_iff.mpr
      ⟨json, mapError_eq_ok_iff.mpr hjson, mapError_eq_ok_iff.mpr hclaims⟩⟩

/-- The tokens that are read: the text behind the first dot, up to the next one, decodes to claims
by Steam for an account in decimal. -/
theorem readToken_eq_ok_iff : crates.readToken refreshToken = .ok (steamIdRaw, steamId) ↔
    ∃ header base64 rest json claims, refreshToken.toList = header ++ '.' :: rest ∧
      '.' ∉ header ∧ Str.UpTo '.' base64 rest ∧ crates.decode base64 = .ok json ∧
        crates.fromSlice json = .ok claims ∧ claims.iss = "steam" ∧
          (Decimal.StandsFor claims.sub.toList steamIdRaw.toNat ∨
            ∃ digits, claims.sub.toList = '+' :: digits ∧
              Decimal.StandsFor digits steamIdRaw.toNat) ∧
            SteamIdOps.tryFrom steamIdRaw = some steamId := by
  constructor
  · intro h
    obtain ⟨claims, hclaims, h⟩ := bind_eq_ok_iff.mp h
    obtain ⟨header, base64, rest, json, htoken, hheader, hrest, hdecode, hjson⟩ :=
      payload_eq_ok_iff.mp hclaims
    split at h
    case isTrue => cases h
    case isFalse hiss =>
      -- the subject is read twice, as a number and then as an id
      obtain ⟨raw, hraw, h⟩ := bind_eq_ok_iff.mp h
      obtain ⟨id, hid, h⟩ := bind_eq_ok_iff.mp h
      cases h
      exact ⟨header, base64, rest, json, claims, htoken, hheader, hrest, hdecode, hjson,
        not_not.mp hiss, Decimal.parseU64_eq_some_iff.mp (elim_eq_ok_iff.mp hraw),
        elim_eq_ok_iff.mp hid⟩
  · rintro ⟨header, base64, rest, json, claims, htoken, hheader, hrest, hdecode, hjson, hiss, hsub,
      hid⟩
    have hclaims :=
      payload_eq_ok_iff.mpr ⟨header, base64, rest, json, htoken, hheader, hrest, hdecode, hjson⟩
    refine bind_eq_ok_iff.mpr ⟨claims, hclaims, ?_⟩
    rw [if_neg (not_not.mpr hiss)]
    exact bind_eq_ok_iff.mpr ⟨steamIdRaw,
      elim_eq_ok_iff.mpr (Decimal.parseU64_eq_some_iff.mpr hsub),
      bind_eq_ok_iff.mpr ⟨steamId, elim_eq_ok_iff.mpr hid, rfl⟩⟩

end Token

/-! ### The login -/

/-- `CAuthenticationAccessTokenGenerateForAppRequest`, with the fields that are ever set. -/
structure GenerateForAppRequest where
  refreshToken : Option String := none
  steamid : Option UInt64 := none
  deriving DecidableEq, Repr

/-- `CAuthenticationAccessTokenGenerateForAppResponse`, with the field that is read. -/
structure GenerateForAppResponse where
  accessToken : Option String := none
  deriving DecidableEq, Repr

/-- What a login with a token is called with. -/
structure Access where
  account : String
  refreshToken : String
  crates : TokenCrates
  parse : LogonParser

namespace Access

variable {SteamID : Type}

/-- Where a login is. -/
inductive Phase (SteamID : Type) where
  | reading
  | loggingOn (steamIdRaw : UInt64) (steamId : SteamID)
  | generating (steamIdRaw : UInt64) (session : Session SteamID)
  | done (res : Except ConnectionError (Session SteamID))

/-- What happens in a login. A request that cannot be sent, or is not answered in time, has an
error for its response. -/
inductive Event (SteamID : Type) where
  | read
  | logon (steamId : SteamID) (logon : CMsgClientLogon) (sent : Except NetworkError Unit)
      (response : Option (RawNetMessage SteamID))
  | generate (req : GenerateForAppRequest) (res : Except NetworkError GenerateForAppResponse)

section Step

variable (access : Access)

/-- The logon: the refresh token is sent as the access token. -/
def logon : CMsgClientLogon := .login access.account access.refreshToken

def generateRequest (steamIdRaw : UInt64) : GenerateForAppRequest where
  refreshToken := some access.refreshToken
  steamid := some steamIdRaw

/-- The end of the login, with the response that has the token for the web. -/
def finish (session : Session SteamID) (res : Except NetworkError GenerateForAppResponse) :
    Except ConnectionError (Session SteamID) := do
  let resp ← res.mapError fun e => .network e
  let webAccessToken ← resp.accessToken.elim (.error (.accessToken .malformed)) .ok
  return { session with webAccessToken := some webAccessToken }

variable [SteamIdOps SteamID] [DecidableEq SteamID]

/-- The logon without a token for the web. -/
def sendLogon (steamId : SteamID) (sent : Except NetworkError Unit)
    (response : Option (RawNetMessage SteamID)) : Except ConnectionError (Session SteamID) :=
  SteamWire.sendLogon access.parse steamId access.logon.accessToken none sent response

/-- One step of a login. -/
def step : Phase SteamID → Event SteamID → Option (Phase SteamID)
  | .reading, .read =>
    match access.crates.readToken access.refreshToken with
    | .ok (steamIdRaw, steamId) => some (.loggingOn steamIdRaw steamId)
    | .error e => some (.done (.error e))
  | .loggingOn steamIdRaw steamId, .logon steamId' logon sent response =>
    if steamId' = steamId ∧ logon = access.logon then
      match access.sendLogon steamId sent response with
      | .ok session => some (.generating steamIdRaw session)
      | .error e => some (.done (.error e))
    else none
  | .generating steamIdRaw session, .generate req res =>
    if req = access.generateRequest steamIdRaw then some (.done (finish session res))
    else none
  | _, _ => none

end Step

/-! ### What holds of every run -/

section Proper

variable [SteamIdOps SteamID] [DecidableEq SteamID] (access : Access)

/-- The token is for this account. -/
def IsFor (steamIdRaw : UInt64) (steamId : SteamID) : Prop :=
  access.crates.readToken access.refreshToken = .ok (steamIdRaw, steamId)

/-- What a login has done. -/
structure Proper (w : List (Event SteamID)) (s : Phase SteamID) : Prop where
  logon : ∀ u v steamId logon sent response, w = u ++ .logon steamId logon sent response :: v →
    u = [.read] ∧ (∃ steamIdRaw, access.IsFor steamIdRaw steamId) ∧ logon = access.logon
  generate : ∀ u v req res, w = u ++ .generate req res :: v →
    ∃ steamIdRaw steamId sent response session,
      u = [.read, .logon steamId access.logon sent response] ∧ access.IsFor steamIdRaw steamId ∧
        access.sendLogon steamId sent response = .ok session ∧
          req = access.generateRequest steamIdRaw
  done : ∀ session, s = .done (.ok session) ↔
    ∃ steamId sent response started req resp webAccessToken,
      w = [.read, .logon steamId access.logon sent response, .generate req (.ok resp)] ∧
        access.sendLogon steamId sent response = .ok started ∧
          resp.accessToken = some webAccessToken ∧
            session = { started with webAccessToken := some webAccessToken }

/-- How a login came to its phase. -/
inductive Course (access : Access) : List (Event SteamID) → Phase SteamID → Prop
  | reading : Course access [] .reading
  | loggingOn {steamIdRaw : UInt64} {steamId : SteamID} (h : access.IsFor steamIdRaw steamId) :
    Course access [.read] (.loggingOn steamIdRaw steamId)
  | unread {e : ConnectionError} : Course access [.read] (.done (.error e))
  | generating {steamIdRaw : UInt64} {steamId : SteamID} {sent : Except NetworkError Unit}
      {response : Option (RawNetMessage SteamID)} {session : Session SteamID}
      (h : access.IsFor steamIdRaw steamId)
      (hlogon : access.sendLogon steamId sent response = .ok session) :
    Course access [.read, .logon steamId access.logon sent response]
      (.generating steamIdRaw session)
  | refused {steamIdRaw : UInt64} {steamId : SteamID} {sent : Except NetworkError Unit}
      {response : Option (RawNetMessage SteamID)} {e : ConnectionError}
      (h : access.IsFor steamIdRaw steamId) :
    Course access [.read, .logon steamId access.logon sent response] (.done (.error e))
  | done {steamIdRaw : UInt64} {steamId : SteamID} {sent : Except NetworkError Unit}
      {response : Option (RawNetMessage SteamID)} {session : Session SteamID}
      {res : Except NetworkError GenerateForAppResponse} (h : access.IsFor steamIdRaw steamId)
      (hlogon : access.sendLogon steamId sent response = .ok session) :
    Course access [.read, .logon steamId access.logon sent response,
      .generate (access.generateRequest steamIdRaw) res] (.done (finish session res))

end Proper

section Run

variable [SteamIdOps SteamID] [DecidableEq SteamID] {access : Access} {w : List (Event SteamID)}
  {e : Event SteamID} {s t : Phase SteamID}

omit [SteamIdOps SteamID] [DecidableEq SteamID] in
theorem finish_eq_ok_iff {started session : Session SteamID}
    {res : Except NetworkError GenerateForAppResponse} :
    finish started res = .ok session ↔ ∃ resp webAccessToken, res = .ok resp ∧
      resp.accessToken = some webAccessToken ∧
        session = { started with webAccessToken := some webAccessToken } := by
  constructor
  · intro h
    obtain ⟨resp, hresp, h⟩ := bind_eq_ok_iff.mp h
    obtain ⟨webAccessToken, htoken, h⟩ := bind_eq_ok_iff.mp h
    exact ⟨resp, webAccessToken, mapError_eq_ok_iff.mp hresp, elim_eq_ok_iff.mp htoken,
      (Except.ok.inj h).symm⟩
  · rintro ⟨resp, webAccessToken, rfl, htoken, rfl⟩
    exact bind_eq_ok_iff.mpr ⟨resp, rfl, bind_eq_ok_iff.mpr
      ⟨webAccessToken, elim_eq_ok_iff.mpr htoken, rfl⟩⟩

/-- A step leads on. -/
theorem Course.next (hs : Course access w s) (h : access.step s e = some t) :
    Course access (w ++ [e]) t := by
  cases hs with
  | reading =>
    cases e with
    | read =>
      unfold step at h
      dsimp only at h
      split at h <;> rename_i hread <;> cases h
      · exact .loggingOn hread
      · exact .unread
    | _ => cases h
  | loggingOn hfor =>
    cases e with
    | logon steamId logon sent response =>
      obtain ⟨⟨rfl, rfl⟩, hnext⟩ := Option.ite_none_right_eq_some.mp h
      split at hnext <;> rename_i hlogon <;> cases hnext
      · exact .generating hfor hlogon
      · exact .refused hfor
    | _ => cases h
  | generating hfor hlogon =>
    cases e with
    | generate req res =>
      obtain ⟨rfl, hnext⟩ := Option.ite_none_right_eq_some.mp h
      cases hnext
      exact .done hfor hlogon
    | _ => cases h
  | unread | refused | done => cases e <;> cases h

/-- The logon comes behind the reading. -/
theorem Course.logon (hs : Course access w s) {u v : List (Event SteamID)} {steamId : SteamID}
    {logon : CMsgClientLogon} {sent : Except NetworkError Unit}
    {response : Option (RawNetMessage SteamID)}
    (hw : w = u ++ .logon steamId logon sent response :: v) :
    u = [.read] ∧ (∃ steamIdRaw, access.IsFor steamIdRaw steamId) ∧ logon = access.logon := by
  cases hs with
  | reading | loggingOn | unread => simp [List.cons_eq_append_iff] at hw
  | generating hfor | refused hfor | done hfor =>
    simp [List.cons_eq_append_iff] at hw
    obtain ⟨rfl, ⟨rfl, rfl, -⟩, -⟩ := hw
    exact ⟨rfl, ⟨_, hfor⟩, rfl⟩

/-- The token for the web is asked for with the session of the logon. -/
theorem Course.generate (hs : Course access w s) {u v : List (Event SteamID)}
    {req : GenerateForAppRequest} {res : Except NetworkError GenerateForAppResponse}
    (hw : w = u ++ .generate req res :: v) :
    ∃ steamIdRaw steamId sent response session,
      u = [.read, .logon steamId access.logon sent response] ∧ access.IsFor steamIdRaw steamId ∧
        access.sendLogon steamId sent response = .ok session ∧
          req = access.generateRequest steamIdRaw := by
  cases hs with
  | reading | loggingOn | unread | generating | refused => simp [List.cons_eq_append_iff] at hw
  | done hfor hlogon =>
    -- there is one request of this kind, the last event
    simp [List.cons_eq_append_iff] at hw
    obtain ⟨rfl, ⟨rfl, rfl⟩, -⟩ := hw
    exact ⟨_, _, _, _, _, rfl, hfor, hlogon, rfl⟩

/-- A login that succeeds took all steps. -/
theorem Course.done_iff (hs : Course access w s) (session : Session SteamID) :
    s = .done (.ok session) ↔ ∃ steamId sent response started req resp webAccessToken,
      w = [.read, .logon steamId access.logon sent response, .generate req (.ok resp)] ∧
        access.sendLogon steamId sent response = .ok started ∧
          resp.accessToken = some webAccessToken ∧
            session = { started with webAccessToken := some webAccessToken } := by
  constructor
  · intro h
    cases hs with
    | reading | loggingOn | unread | generating | refused => cases h
    | done hfor hlogon =>
      obtain ⟨resp, webAccessToken, rfl, htoken, heq⟩ := finish_eq_ok_iff.mp (Phase.done.inj h)
      exact ⟨_, _, _, _, _, resp, webAccessToken, rfl, hlogon, htoken, heq⟩
  · rintro ⟨steamId, sent, response, started, req, resp, webAccessToken, hw, hlogon, htoken, rfl⟩
    -- the events tell how far the login is
    cases hs with
    | reading | loggingOn | unread | generating | refused => cases hw
    | done hfor hlogon' =>
      cases hw
      cases hlogon'.symm.trans hlogon
      rw [finish_eq_ok_iff.mpr ⟨resp, webAccessToken, rfl, htoken, rfl⟩]

/-- Whatever the service does, a login with a token is proper. -/
theorem proper_of_run (hrun : run access.step .reading w = some s) : Proper access w s := by
  have hcourse := @run_history (Phase SteamID) (Event SteamID) access.step (Course access)
    (fun u s e t hs h => hs.next h) [] w _ _ .reading hrun
  exact ⟨fun u v steamId logon sent response hw => hcourse.logon hw,
    fun u v req res hw => hcourse.generate hw, hcourse.done_iff⟩

end Run

/-! ### A login with a token -/

section Examples

/-- The number of a character of base64 for URLs. -/
def base64Val (c : Char) : Option Nat :=
  let n := c.toNat
  if 65 ≤ n ∧ n ≤ 90 then some (n - 65)
  else if 97 ≤ n ∧ n ≤ 122 then some (n - 71)
  else if 48 ≤ n ∧ n ≤ 57 then some (n + 4)
  else if c = '-' then some 62
  else if c = '_' then some 63
  else none

/-- Base64 without padding: the bits that are left over have to be zero. -/
def base64Bytes : List Nat → Option Bytes
  | [] => some []
  | [a, b] => if b % 16 = 0 then some [UInt8.ofNat (a * 4 + b / 16)] else none
  | [a, b, c] =>
    if c % 4 = 0 then
      some [UInt8.ofNat (a * 4 + b / 16), UInt8.ofNat (b % 16 * 16 + c / 4)]
    else none
  | a :: b :: c :: d :: rest =>
    (base64Bytes rest).map fun bytes =>
      UInt8.ofNat (a * 4 + b / 16) :: UInt8.ofNat (b % 16 * 16 + c / 4) ::
        UInt8.ofNat (c % 4 * 64 + d) :: bytes
  | _ => none

/-- The claims in this order, without blanks, cut at the quotes. -/
def claimsOf (json : Bytes) : Option AccessToken :=
  match (json.map fun b => Char.ofNat b.toNat).splitOn '\"' with
  | [_, _, _, iss, _, _, _, sub, _, _, exp] =>
    (Decimal.parseU64 (exp.drop 1).dropLast).map fun exp =>
      { iss := String.ofList iss, sub := String.ofList sub, exp }
  | _ => none

def tokenCrates : TokenCrates where
  decode text := ((text.mapM base64Val).bind base64Bytes).elim (.error "Invalid symbol") .ok
  fromSlice json := (claimsOf json).elim (.error "missing field") .ok

/-- The signature of the token is not one, and the token is expired. -/
def alyx : Access where
  account := "alyx"
  refreshToken := "e30.eyJpc3MiOiJzdGVhbSIsInN1YiI6Ijc2NTYxMTk3OTYwMjg3OTMwIiwiZXhwIjoxNzAwMDAwMDAwfQ.?"
  crates := tokenCrates
  parse := .wire

/-- A logon response with the result `OK`. -/
def alyxLogOnResponse : RawNetMessage UInt64 where
  kind := EMsg.kEMsgClientLogOnResponse.kind
  isProtobuf := true
  header := default
  data := [8, 1]
  frameHeaderBuffer := none
  ivBuffer := none
  headerBuffer := []

def alyxRun : List (Event UInt64) :=
  [.read, .logon 76561197960287930 alyx.logon (.ok ()) (some alyxLogOnResponse),
    .generate (alyx.generateRequest 76561197960287930) (.ok { accessToken := some "web" })]

/-- The tokens of the session that a login gave. -/
def Phase.tokens : Phase UInt64 → Option (Option String × Option String)
  | .done (.ok session) => some (session.accessToken, session.webAccessToken)
  | _ => none

theorem proper_of_run_alyx : ∃ s, run alyx.step .reading alyxRun = some s ∧
    s.tokens = some (some alyx.refreshToken, some "web") ∧ Proper alyx alyxRun s := by
  have hrun : (run alyx.step .reading alyxRun).map Phase.tokens =
      some (some (some alyx.refreshToken, some "web")) := by decide +kernel
  obtain ⟨s, hs, htokens⟩ := Option.map_eq_some_iff.mp hrun
  exact ⟨s, hs, htokens, proper_of_run hs⟩

end Examples

end Access

end SteamWire
