import SteamWire.Auth.Password
import SteamWire.Auth.Polling
import SteamWire.Session.Logon

/-!
# The login

`UnAuthenticatedConnection::login` from the guard data to the session: get the key for the
password, start a session with the auth service, race the confirmation handler against the polls
for the tokens, submit the code if there is one, store new guard data, and log on. The handler is
an environment that may answer anything at any time, and so is the service.

`Login.sound_of_run` says what holds of every run: each request carries what earlier responses
gave, a code is submitted right after the handler gave it, a login that the handler gave up stores
nothing and does not log on, and a logon uses the tokens of the polls, after the guard data was
stored, and settles how the login ends.
-/

namespace SteamWire

open Semantics

/-! ### Messages of the auth service -/

structure DeviceDetails where
  deviceFriendlyName : Option String := none
  platformType : Option Int32 := none
  osType : Option Int32 := none
  deriving DecidableEq, Repr

/-- `CAuthenticationBeginAuthSessionViaCredentialsRequest`. -/
structure BeginAuthSessionRequest where
  accountName : Option String := none
  encryptedPassword : Option String := none
  encryptionTimestamp : Option UInt64 := none
  persistence : Option Int32 := none
  websiteId : Option String := none
  deviceDetails : Option DeviceDetails := none
  guardData : Option String := none
  deriving DecidableEq, Repr

/-- `CAuthenticationUpdateAuthSessionWithSteamGuardCodeRequest`. -/
structure UpdateAuthSessionRequest where
  clientId : Option UInt64
  steamid : Option UInt64
  code : Option String
  codeType : Option Int32
  deriving DecidableEq, Repr

/-- `From<GuardTokenType>`. -/
def EAuthSessionGuardType.ofTokenType : GuardTokenType → EAuthSessionGuardType
  | .device => .kEAuthSessionGuardTypeDeviceCode
  | .email => .kEAuthSessionGuardTypeEmailCode

/-- The response that a session of the auth service is started with. -/
structure StartedAuth extends BeginAuthSessionResponse where
  steamid : Option UInt64 := none
  allowedConfirmations : List ConfirmationMethod := []
  deriving DecidableEq, Repr

/-- `StartedAuth::steam_id`. -/
def StartedAuth.steamId (started : StartedAuth) : UInt64 := started.steamid.getD 0

/-- The request of `StartedAuth::submit_confirmation`. -/
def StartedAuth.codeRequest (started : StartedAuth) (token : SteamGuardToken)
    (tokenType : GuardTokenType) : UpdateAuthSessionRequest where
  clientId := some (started.clientId.getD 0)
  steamid := some started.steamId
  code := some token.code
  codeType := some (EAuthSessionGuardType.ofTokenType tokenType).value

/-- What the crates do: read numbers, make a key of two of them, encrypt with it and with random
padding, and encode. -/
structure PasswordCrates extends BigintCrates where
  Key : Type
  newKey : Uint → Uint → Except MessageBodyError Key
  encryptWithKeyPkcs1 : Key → Bytes → Bytes → Except CryptError Bytes
  base64 : Bytes → String

/-! ### The login -/

/-- What a login is called with. -/
structure Login where
  account : String
  password : String
  crates : PasswordCrates
  parse : LogonParser

/-- A session of the auth service that belongs to an account. -/
structure AuthSession (SteamID : Type) where
  started : StartedAuth
  steamId : SteamID

namespace Login

variable {SteamID ε : Type}

/-- Where a login is. -/
inductive Phase (login : Login) (SteamID : Type) where
  | loading
  | keying (guardData : Option String)
  | encrypting (guardData : Option String) (key : login.crates.Key) (timestamp : UInt64)
  | beginning (req : BeginAuthSessionRequest)
  | racing (auth : AuthSession SteamID) (tokens : WaitForTokens)
  | submitting (auth : AuthSession SteamID) (tokens : WaitForTokens) (req : UpdateAuthSessionRequest)
  | waiting (auth : AuthSession SteamID) (tokens : WaitForTokens)
  | storing (auth : AuthSession SteamID) (tokens : Tokens) (guardData : String)
  | loggingOn (auth : AuthSession SteamID) (tokens : Tokens)
  | done (res : Except ConnectionError (Session SteamID))
  | panicked

/-- What happens in a login; `ε` is the error of the guard data store. A request that cannot be
sent, or is not answered in time, has an error for its response. -/
inductive Event (SteamID ε : Type) where
  | load (account : String) (res : Except ε (Option String))
  | getPasswordRsa (account : String) (res : Except NetworkError GetPasswordRsaPublicKeyResponse)
  | encrypt (padding : Bytes)
  | begin (req : BeginAuthSessionRequest) (res : Except NetworkError StartedAuth)
  | handled (res : Option ConfirmationAction)
  | poll (e : PollEvent)
  | submit (req : UpdateAuthSessionRequest) (res : Except NetworkError Unit)
  | store (account guardData : String) (res : Except ε Unit)
  | logon (steamId : SteamID) (logon : CMsgClientLogon) (sent : Except NetworkError Unit)
      (response : Option (RawNetMessage SteamID))

section Step

variable (login : Login)

/-- The request that starts a session of the auth service. -/
def beginRequest (encryptedPassword : Bytes) (timestamp : UInt64) (guardData : Option String) :
    BeginAuthSessionRequest where
  accountName := some login.account
  encryptedPassword := some (login.crates.base64 encryptedPassword)
  encryptionTimestamp := some timestamp
  persistence := some 1
  websiteId := some "Client"
  deviceDetails := some
    { deviceFriendlyName := some "DESKTOP-VENT"
      platformType := some 1
      osType := some 1 }
  guardData

/-- With the tokens, new guard data is stored if there is any. -/
def withTokens (auth : AuthSession SteamID) (tokens : Tokens) : login.Phase SteamID :=
  match tokens.newGuardData with
  | some guardData => .storing auth tokens guardData
  | none => .loggingOn auth tokens

/-- Where the login is after a step of the polls, if they go on in `phase`. -/
def afterPoll (auth : AuthSession SteamID) (phase : WaitForTokens → login.Phase SteamID) :
    WaitForTokens → login.Phase SteamID
  | .done (.ok tokens) => login.withTokens auth tokens
  | .done (.error e) => .done (.error (.network e))
  | .panicked => .panicked
  | tokens => phase tokens

/-- The end of a request that is not answered, or the next phase. -/
def orFail {α : Type} (res : Except NetworkError α) (phase : α → login.Phase SteamID) :
    login.Phase SteamID :=
  match res with
  | .ok a => phase a
  | .error e => .done (.error (.network e))

variable [SteamIdOps SteamID] [DecidableEq SteamID]

/-- One step of a login. -/
def step (login : Login) : login.Phase SteamID → Event SteamID ε → Option (login.Phase SteamID)
  | .loading, .load account res =>
    -- guard data that cannot be loaded counts as none
    if account = login.account then some (.keying (res.toOption.getD none)) else none
  | .keying guardData, .getPasswordRsa account res =>
    if account = login.account then
      some (login.orFail
        (res.bind (getPasswordRsa login.crates.toBigintCrates login.crates.newKey))
        fun (key, timestamp) => .encrypting guardData key timestamp)
    else none
  | .encrypting guardData key timestamp, .encrypt padding =>
    match login.crates.encryptWithKeyPkcs1 key padding login.password.toUTF8.toList with
    | .ok encrypted => some (.beginning (login.beginRequest encrypted timestamp guardData))
    | .error e => some (.done (.error (.loginError (.invalidPubKey e))))
  | .beginning req, .begin req' res =>
    if req' = req then
      some (login.orFail res fun started =>
        match SteamIdOps.tryFrom started.steamId with
        | some steamId => .racing ⟨started, steamId⟩ .start
        | none => .done (.error (.loginError .invalidSteamId)))
    else none
  | .racing auth tokens, .handled res =>
    match onConfirmation auth.started.allowedConfirmations res with
    | .ok none => some (.waiting auth tokens)
    | .ok (some (token, tokenType)) =>
      -- the polls stand still until the code is submitted
      some (.submitting auth tokens (auth.started.codeRequest token tokenType))
    | .error e => some (.done (.error e))
  | .racing auth tokens, .poll e =>
    (auth.started.poll.step tokens e).map (login.afterPoll auth (.racing auth))
  | .submitting auth tokens req, .submit req' res =>
    if req' = req then some (login.orFail res fun _ => .waiting auth tokens) else none
  | .waiting auth tokens, .poll e =>
    (auth.started.poll.step tokens e).map (login.afterPoll auth (.waiting auth))
  | .storing auth tokens guardData, .store account guardData' _ =>
    -- guard data that cannot be stored is lost
    if account = login.account ∧ guardData' = guardData then some (.loggingOn auth tokens) else none
  | .loggingOn auth tokens, .logon steamId logon sent response =>
    -- the refresh token is sent as the access token
    if steamId = auth.steamId ∧
        logon = .login login.account tokens.refreshToken.value then
      some (.done (sendLogon login.parse steamId logon.accessToken
        (some tokens.accessToken.value) sent response))
    else none
  | _, _ => none

end Step

/-! ### What a step can be -/

section StepsTo

variable [SteamIdOps SteamID] [DecidableEq SteamID] {login : Login} {s t : login.Phase SteamID}
  {e : Event SteamID ε}

/-- What a step can be. -/
inductive StepsTo (login : Login) : login.Phase SteamID → Event SteamID ε → login.Phase SteamID → Prop
  | load {res : Except ε (Option String)} :
    StepsTo login .loading (.load login.account res) (.keying (res.toOption.getD none))
  | key {guardData : Option String} {res : Except NetworkError GetPasswordRsaPublicKeyResponse}
      {key : login.crates.Key} {timestamp : UInt64} :
    StepsTo login (.keying guardData) (.getPasswordRsa login.account res)
      (.encrypting guardData key timestamp)
  | encrypt {guardData : Option String} {key : login.crates.Key} {timestamp : UInt64}
      {padding encrypted : Bytes} :
    StepsTo login (.encrypting guardData key timestamp) (.encrypt padding)
      (.beginning (login.beginRequest encrypted timestamp guardData))
  | begin {req : BeginAuthSessionRequest} {auth : AuthSession SteamID}
      (h : SteamIdOps.tryFrom auth.started.steamId = some auth.steamId) :
    StepsTo login (.beginning req) (.begin req (.ok auth.started)) (.racing auth .start)
  | accept {auth : AuthSession SteamID} {tokens : WaitForTokens} {res : Option ConfirmationAction}
      (h : onConfirmation auth.started.allowedConfirmations res = .ok none) :
    StepsTo login (.racing auth tokens) (.handled res) (.waiting auth tokens)
  | code {auth : AuthSession SteamID} {tokens : WaitForTokens} {token : SteamGuardToken}
      {tokenType : GuardTokenType} :
    StepsTo login (.racing auth tokens) (.handled (some (.guardToken token tokenType)))
      (.submitting auth tokens (auth.started.codeRequest token tokenType))
  | refuse {auth : AuthSession SteamID} {tokens : WaitForTokens} {res : Option ConfirmationAction}
      {err : ConnectionError}
      (h : onConfirmation auth.started.allowedConfirmations res = .error err) :
    StepsTo login (.racing auth tokens) (.handled res) (.done (.error err))
  | submit {auth : AuthSession SteamID} {tokens : WaitForTokens} {req : UpdateAuthSessionRequest} :
    StepsTo login (.submitting auth tokens req) (.submit req (.ok ())) (.waiting auth tokens)
  | poll {auth : AuthSession SteamID} {tokens tokens' : WaitForTokens} {e : PollEvent}
      {phase : AuthSession SteamID → WaitForTokens → login.Phase SteamID}
      (hphase : phase = .racing ∨ phase = .waiting)
      (h : auth.started.poll.step tokens e = some tokens') :
    StepsTo login (phase auth tokens) (.poll e) (login.afterPoll auth (phase auth) tokens')
  | store {auth : AuthSession SteamID} {tokens : Tokens} {guardData : String}
      {res : Except ε Unit} :
    StepsTo login (.storing auth tokens guardData) (.store login.account guardData res)
      (.loggingOn auth tokens)
  | logon {auth : AuthSession SteamID} {tokens : Tokens} {sent : Except NetworkError Unit}
      {response : Option (RawNetMessage SteamID)} :
    StepsTo login (.loggingOn auth tokens)
      (.logon auth.steamId (.login login.account tokens.refreshToken.value) sent response)
      (.done (sendLogon login.parse auth.steamId (some tokens.refreshToken.value)
        (some tokens.accessToken.value) sent response))
  | failKey {guardData : Option String} {account : String}
      {res : Except NetworkError GetPasswordRsaPublicKeyResponse} {err : ConnectionError} :
    StepsTo login (.keying guardData) (.getPasswordRsa account res) (.done (.error err))
  | failEncrypt {guardData : Option String} {key : login.crates.Key} {timestamp : UInt64}
      {padding : Bytes} {err : ConnectionError} :
    StepsTo login (.encrypting guardData key timestamp) (.encrypt padding) (.done (.error err))
  | failBegin {req req' : BeginAuthSessionRequest} {res : Except NetworkError StartedAuth}
      {err : ConnectionError}
      (h : ∀ started, res = .ok started →
        (SteamIdOps.tryFrom started.steamId : Option SteamID) = none) :
    StepsTo login (.beginning req) (.begin req' res) (.done (.error err))
  | failSubmit {auth : AuthSession SteamID} {tokens : WaitForTokens}
      {req : UpdateAuthSessionRequest} {res : Except NetworkError Unit} {err : ConnectionError} :
    StepsTo login (.submitting auth tokens req) (.submit req res) (.done (.error err))

/-- What a handler can ask for. -/
theorem onConfirmation_eq_ok_some {allowed : List ConfirmationMethod}
    {res : Option ConfirmationAction} {token : SteamGuardToken} {tokenType : GuardTokenType}
    (h : onConfirmation allowed res = .ok (some (token, tokenType))) :
    res = some (.guardToken token tokenType) := by
  cases res with
  | none =>
    unfold onConfirmation at h
    split_ifs at h
    cases h
  | some action => cases action <;> cases h; rfl

theorem stepsTo_of_step (h : login.step s e = some t) : StepsTo login s e t := by
  cases s with
  | loading =>
    cases e with
    | load account res =>
      obtain ⟨rfl, hnext⟩ := Option.ite_none_right_eq_some.mp h
      cases hnext
      exact .load
    | _ => cases h
  | keying guardData =>
    cases e with
    | getPasswordRsa account res =>
      obtain ⟨rfl, hnext⟩ := Option.ite_none_right_eq_some.mp h
      cases hkey : res.bind (getPasswordRsa login.crates.toBigintCrates login.crates.newKey) with
      | ok pair =>
        rw [hkey] at hnext
        cases hnext
        exact .key
      | error e =>
        rw [hkey] at hnext
        cases hnext
        exact .failKey
    | _ => cases h
  | encrypting guardData key timestamp =>
    cases e with
    | encrypt padding =>
      unfold step at h
      dsimp only at h
      split at h <;> cases h
      · exact .encrypt
      · exact .failEncrypt
    | _ => cases h
  | beginning req =>
    cases e with
    | begin req' res =>
      obtain ⟨rfl, hnext⟩ := Option.ite_none_right_eq_some.mp h
      cases res with
      | error err =>
        cases hnext
        exact .failBegin fun started hres => by cases hres
      | ok started =>
        unfold orFail at hnext
        dsimp only at hnext
        split at hnext <;> rename_i hsteamId <;> cases hnext
        · exact @StepsTo.begin _ _ _ _ _ _ ⟨started, _⟩ hsteamId
        · exact .failBegin fun started' hres => by cases hres; exact hsteamId
    | _ => cases h
  | racing auth tokens =>
    cases e with
    | handled res =>
      unfold step at h
      dsimp only at h
      split at h <;> rename_i haction <;> cases h
      · exact .accept haction
      · obtain rfl := onConfirmation_eq_ok_some haction
        exact .code
      · exact .refuse haction
    | poll e =>
      obtain ⟨tokens', hpoll, rfl⟩ := Option.map_eq_some_iff.mp h
      exact .poll (.inl rfl) hpoll
    | _ => cases h
  | submitting auth tokens req =>
    cases e with
    | submit req' res =>
      obtain ⟨rfl, hnext⟩ := Option.ite_none_right_eq_some.mp h
      cases res with
      | ok =>
        cases hnext
        exact .submit
      | error e =>
        cases hnext
        exact .failSubmit
    | _ => cases h
  | waiting auth tokens =>
    cases e with
    | poll e =>
      obtain ⟨tokens', hpoll, rfl⟩ := Option.map_eq_some_iff.mp h
      exact .poll (.inr rfl) hpoll
    | _ => cases h
  | storing auth tokens guardData =>
    cases e with
    | store account guardData' res =>
      obtain ⟨⟨rfl, rfl⟩, hnext⟩ := Option.ite_none_right_eq_some.mp h
      cases hnext
      exact .store
    | _ => cases h
  | loggingOn auth tokens =>
    cases e with
    | logon steamId logon sent response =>
      obtain ⟨⟨rfl, rfl⟩, hnext⟩ := Option.ite_none_right_eq_some.mp h
      cases hnext
      exact .logon
    | _ => cases h
  | done | panicked => cases e <;> cases h

end StepsTo

/-! ### The order of events -/

section Order

variable {login : Login} {w : List (Event SteamID ε)} {e : Event SteamID ε}

/-- How far a login is when the event happens. -/
def Event.rank : Event SteamID ε → Nat
  | .load .. => 0
  | .getPasswordRsa .. => 1
  | .encrypt _ => 2
  | .begin .. => 3
  | .poll _ => 4
  | .handled _ => 5
  | .submit .. => 6
  | .store .. => 7
  | .logon .. => 8

/-- The first event may come before the second. Every event happens once, except polls, which
go on until there are tokens. -/
def Event.Precedes (x : Event SteamID ε) : Event SteamID ε → Prop
  | .poll _ => x.rank < 7
  | y => x.rank < y.rank

/-- All events up to this phase are below this rank. -/
def Phase.rank : login.Phase SteamID → Nat
  | .loading => 0
  | .keying _ => 1
  | .encrypting .. => 2
  | .beginning _ => 3
  | .racing .. => 5
  | .submitting .. => 6
  | .waiting .. | .storing .. => 7
  | .loggingOn .. => 8
  | .done _ | .panicked => 9

/-- What the polls saw. -/
def polls (w : List (Event SteamID ε)) : List PollEvent :=
  w.filterMap fun
    | .poll e => some e
    | _ => none

@[simp] theorem polls_concat_poll (w : List (Event SteamID ε)) (e : PollEvent) :
    polls (w ++ [.poll e]) = polls w ++ [e] := List.filterMap_append

theorem polls_concat_of_ne (h : ∀ e', e ≠ .poll e') : polls (w ++ [e]) = polls w := by
  have hnone : polls [e] = [] := by
    cases e with
    | poll e' => exact absurd rfl (h e')
    | _ => rfl
  rw [polls, List.filterMap_append]
  exact (congrArg (polls w ++ ·) hnone).trans (List.append_nil _)

/-- There are no polls at first. -/
theorem polls_eq_nil (h : ∀ x ∈ w, x.rank < 4) : polls w = [] := by
  refine List.filterMap_eq_nil_iff.mpr fun x hx => ?_
  have hlt := h x hx
  cases x with
  | poll e => exact absurd hlt (Nat.lt_irrefl _)
  | _ => rfl

theorem rank_withTokens (auth : AuthSession SteamID) (tokens : Tokens) :
    7 ≤ (login.withTokens auth tokens).rank := by
  unfold withTokens
  cases tokens.newGuardData with
  | none => exact Nat.le_succ 7
  | some guardData => exact Nat.le_refl 7

/-- The polls lead on. -/
theorem rank_afterPoll {auth : AuthSession SteamID} {phase : WaitForTokens → login.Phase SteamID}
    {n : Nat} (hn : n ≤ 7) (hphase : ∀ tokens, n ≤ (phase tokens).rank) (tokens : WaitForTokens) :
    n ≤ (login.afterPoll auth phase tokens).rank := by
  cases tokens with
  | done res =>
    cases res with
    | ok tokens => exact hn.trans (rank_withTokens auth tokens)
    | error e => exact hn.trans (Nat.le_add_right 7 2)
  | panicked => exact hn.trans (Nat.le_add_right 7 2)
  | start | polling | awaiting | sleeping | info => exact hphase _

variable [SteamIdOps SteamID] [DecidableEq SteamID] {s t : login.Phase SteamID}

/-- Every event may come after those before it. -/
theorem StepsTo.rank (h : StepsTo login s e t) :
    (∀ x : Event SteamID ε, x.rank < s.rank → x.Precedes e) ∧ s.rank ≤ t.rank ∧
      e.rank < t.rank := by
  cases h with
  | @poll auth tokens tokens' e phase hphase =>
    have hrank : ∀ tokens, 5 ≤ (phase auth tokens).rank ∧ (phase auth tokens).rank ≤ 7 ∧
        ∀ tokens', (phase auth tokens').rank = (phase auth tokens).rank := by
      rcases hphase with rfl | rfl
      · exact fun _ => ⟨Nat.le_refl 5, Nat.le_add_right 5 2, fun _ => rfl⟩
      · exact fun _ => ⟨Nat.le_add_right 5 2, Nat.le_refl 7, fun _ => rfl⟩
    obtain ⟨hlow, hhigh, hsame⟩ := hrank tokens
    have hle := @rank_afterPoll _ _ auth _ _ hhigh (fun tokens' => (hsame tokens').ge) tokens'
    exact ⟨fun x hx => hx.trans_le hhigh, hle, hlow.trans hle⟩
  | load | key | encrypt | begin | accept | code | refuse | submit | store | logon | failKey
  | failEncrypt | failBegin | failSubmit =>
    exact ⟨fun x hx => hx, by simp [Phase.rank], by simp [Event.rank, Phase.rank]⟩

end Order

/-! ### What holds of every run -/

section Sound

variable [SteamIdOps SteamID] [DecidableEq SteamID] (login : Login)

/-- The service started this session. -/
def Begun (w : List (Event SteamID ε)) (auth : AuthSession SteamID) : Prop :=
  SteamIdOps.tryFrom auth.started.steamId = some auth.steamId ∧
    ∃ req, .begin req (.ok auth.started) ∈ w

/-- The polls of the session gave these tokens. -/
def Polled (w : List (Event SteamID ε)) (auth : AuthSession SteamID) (tokens : Tokens) : Prop :=
  Begun w auth ∧ run auth.started.poll.step .start (polls w) = some (.done (.ok tokens))

/-- New guard data was offered to the store. -/
def Offered (w : List (Event SteamID ε)) (tokens : Tokens) : Prop :=
  ∀ guardData, tokens.newGuardData = some guardData →
    ∃ res, .store login.account guardData res ∈ w

/-- The handler asked for the code to be submitted, and nothing happened since. -/
def Asked (w : List (Event SteamID ε)) (auth : AuthSession SteamID)
    (req : UpdateAuthSessionRequest) : Prop :=
  Begun w auth ∧ ∃ u token tokenType,
    w = u ++ [.handled (some (.guardToken token tokenType))] ∧
      req = auth.started.codeRequest token tokenType

/-- What a login has done. -/
structure Sound (w : List (Event SteamID ε)) (s : login.Phase SteamID) : Prop where
  order : w.Pairwise Event.Precedes
  polls : ∀ auth, Begun w auth → ∃ tokens,
    run auth.started.poll.step .start (polls w) = some tokens
  submit : ∀ u v req res, w = u ++ .submit req res :: v → ∃ auth, Asked u auth req
  store : ∀ account guardData res, .store account guardData res ∈ w → account = login.account ∧
    ∃ auth tokens, Polled w auth tokens ∧ tokens.newGuardData = some guardData
  logon : ∀ steamId logon sent response, .logon steamId logon sent response ∈ w →
    ∃ auth tokens, Polled w auth tokens ∧ Offered login w tokens ∧ steamId = auth.steamId ∧
      logon = .login login.account tokens.refreshToken.value ∧
        s = .done (sendLogon login.parse steamId logon.accessToken
          (some tokens.accessToken.value) sent response)
  refused : ∀ auth res err, Begun w auth → .handled res ∈ w →
    onConfirmation auth.started.allowedConfirmations res = .error err →
      s = .done (.error err) ∧ ∀ e ∈ w, e.rank ≤ 5
  done : ∀ session, s = .done (.ok session) →
    ∃ steamId logon sent response, .logon steamId logon sent response ∈ w

/-- What a phase knows of the events before it. -/
def Knows (w : List (Event SteamID ε)) : login.Phase SteamID → Prop
  | .racing auth tokens | .waiting auth tokens =>
    Begun w auth ∧ run auth.started.poll.step .start (polls w) = some tokens
  | .submitting auth tokens req =>
    Asked w auth req ∧ run auth.started.poll.step .start (polls w) = some tokens
  | .storing auth tokens guardData => Polled w auth tokens ∧ tokens.newGuardData = some guardData
  | .loggingOn auth tokens => Polled w auth tokens ∧ Offered login w tokens
  | _ => True

end Sound

section Knows

variable {login : Login} {w : List (Event SteamID ε)} {e : Event SteamID ε}
  {s t : login.Phase SteamID} {auth auth' : AuthSession SteamID} {tokens : Tokens}

theorem Offered.concat (h : Offered login w tokens) : Offered login (w ++ [e]) tokens :=
  fun guardData hdata => (h guardData hdata).imp fun _ hmem => List.mem_append_left _ hmem

variable [SteamIdOps SteamID]

theorem Begun.concat (h : Begun w auth) : Begun (w ++ [e]) auth := by
  obtain ⟨hid, req, hmem⟩ := h
  exact ⟨hid, req, List.mem_append_left _ hmem⟩

/-- A session was there before an event that is not its start. -/
theorem Begun.of_concat (h : Begun (w ++ [e]) auth) (he : ∀ req res, e ≠ .begin req res) :
    Begun w auth := by
  obtain ⟨hid, req, hmem⟩ := h
  refine ⟨hid, req, (List.mem_append.mp hmem).resolve_right fun hlast => ?_⟩
  exact he _ _ (List.mem_singleton.mp hlast).symm

/-- One session is started. -/
theorem Begun.unique (hw : w.Pairwise Event.Precedes) (h : Begun w auth) (h' : Begun w auth') :
    auth = auth' := by
  obtain ⟨hid, req, hmem⟩ := h
  obtain ⟨hid', req', hmem'⟩ := h'
  obtain ⟨u, v, rfl⟩ := List.append_of_mem hmem
  obtain ⟨-, hv, hu⟩ := List.pairwise_append.mp hw
  have hafter := (List.pairwise_cons.mp hv).1
  rcases List.mem_append.mp hmem' with hbefore | hmem'
  · exact absurd (hu _ hbefore _ List.mem_cons_self) (Nat.lt_irrefl _)
  · rcases List.mem_cons.mp hmem' with heq | hbehind
    · obtain ⟨started, steamId⟩ := auth
      obtain ⟨started', steamId'⟩ := auth'
      cases heq
      cases hid.symm.trans hid'
      rfl
    · exact absurd (hafter _ hbehind) (Nat.lt_irrefl _)

theorem Polled.concat (h : Polled w auth tokens) (he : ∀ e', e ≠ .poll e') :
    Polled (w ++ [e]) auth tokens :=
  ⟨h.1.concat, by rw [polls_concat_of_ne he]; exact h.2⟩

omit [SteamIdOps SteamID] in
/-- One more poll. -/
theorem run_polls_concat {e : PollEvent} {t t' : WaitForTokens} {pending : PendingAuth}
    (hrun : run pending.step .start (polls w) = some t) (h : pending.step t e = some t') :
    run pending.step .start (polls (w ++ [.poll e])) = some t' := by
  rw [polls_concat_poll, run_append, hrun]
  exact (run_cons ..).trans (by rw [h]; rfl)

/-- What is known when new tokens are there. -/
theorem knows_withTokens (h : Polled w auth tokens) :
    Knows login w (login.withTokens auth tokens) := by
  unfold withTokens
  cases hdata : tokens.newGuardData with
  | some guardData => exact ⟨h, hdata⟩
  | none => exact ⟨h, fun guardData hsome => by rw [hdata] at hsome; cases hsome⟩

/-- What is known after a poll. -/
theorem knows_afterPoll {phase : AuthSession SteamID → WaitForTokens → login.Phase SteamID}
    (hphase : phase = .racing ∨ phase = .waiting) (hbegun : Begun w auth) {t : WaitForTokens}
    (hrun : run auth.started.poll.step .start (polls w) = some t) :
    Knows login w (login.afterPoll auth (phase auth) t) := by
  have hgoes : Knows login w (phase auth t) := by
    rcases hphase with rfl | rfl <;> exact ⟨hbegun, hrun⟩
  cases t with
  | done res =>
    cases res with
    | ok tokens => exact knows_withTokens ⟨hbegun, hrun⟩
    | error e => trivial
  | panicked => trivial
  | start | polling | awaiting | sleeping | info => exact hgoes

omit [SteamIdOps SteamID] in
/-- A login does not end well by a poll. -/
theorem afterPoll_ne_done {phase : AuthSession SteamID → WaitForTokens → login.Phase SteamID}
    (hphase : phase = .racing ∨ phase = .waiting) (t : WaitForTokens) (session : Session SteamID) :
    login.afterPoll auth (phase auth) t ≠ .done (.ok session) := by
  have hgoes : phase auth t ≠ .done (.ok session) := by
    rcases hphase with rfl | rfl <;> intro h <;> cases h
  cases t with
  | done res =>
    cases res with
    | ok tokens =>
      unfold afterPoll withTokens
      dsimp only
      split <;> intro h <;> cases h
    | error e => intro h; cases h
  | panicked => intro h; cases h
  | start | polling | awaiting | sleeping | info => exact hgoes

end Knows

section Invariant

variable [SteamIdOps SteamID] [DecidableEq SteamID] {login : Login} {w : List (Event SteamID ε)}
  {e : Event SteamID ε} {s t : login.Phase SteamID}

/-- The invariant of a login. -/
structure Inv (login : Login) (w : List (Event SteamID ε)) (s : login.Phase SteamID) : Prop where
  sound : Sound login w s
  rank : ∀ x ∈ w, x.rank < s.rank
  knows : Knows login w s

/-- A session was started before an event, or by it. -/
theorem Inv.begun_cases (hs : Inv login w s) (h : StepsTo login s e t) {auth : AuthSession SteamID}
    (hbegun : Begun (w ++ [e]) auth) :
    Begun w auth ∧ (∀ req res, e ≠ .begin req res) ∨
      t = .racing auth .start ∧ polls (w ++ [e]) = [] := by
  cases h with
  | @begin req auth' hid =>
    right
    obtain ⟨hid', req', hmem⟩ := hbegun
    rcases List.mem_append.mp hmem with hold | hnew
    -- a login begins once: the ranks of the events before are lower
    · exact absurd (hs.rank _ hold) (Nat.lt_irrefl _)
    · obtain ⟨started, steamId⟩ := auth
      obtain ⟨started', steamId'⟩ := auth'
      cases List.mem_singleton.mp hnew
      cases hid.symm.trans hid'
      rw [polls_concat_of_ne fun _ heq => by cases heq]
      exact ⟨rfl, polls_eq_nil fun x hx => (hs.rank x hx).trans (Nat.lt_succ_self 3)⟩
  | failBegin hnone =>
    obtain ⟨hid', req', hmem⟩ := hbegun
    rcases List.mem_append.mp hmem with hold | hnew
    · exact absurd (hs.rank _ hold) (Nat.lt_irrefl _)
    · cases List.mem_singleton.mp hnew
      rw [hnone _ rfl] at hid'
      cases hid'
  | load | key | encrypt | accept | code | refuse | submit | poll | store | logon | failKey
  | failEncrypt | failSubmit =>
    exact .inl ⟨hbegun.of_concat fun _ _ heq => (by cases heq), fun _ _ heq => by cases heq⟩

/-- A list that ends with an event, cut at another one or at this. -/
theorem concat_eq_append_cons {α : Type*} {w u v : List α} {x y : α}
    (h : w ++ [x] = u ++ y :: v) : u = w ∧ y = x ∧ v = [] ∨ ∃ v', w = u ++ y :: v' := by
  rcases List.eq_nil_or_concat v with rfl | ⟨v', z, rfl⟩
  · obtain ⟨rfl, hxy⟩ := List.append_inj' h rfl
    exact .inl ⟨rfl, (List.singleton_inj.mp hxy).symm, rfl⟩
  · have hcut : w ++ [x] = (u ++ y :: v') ++ [z] := by simpa using h
    exact .inr ⟨v', (List.append_inj' hcut rfl).1⟩

theorem Inv.order (hs : Inv login w s) (h : StepsTo login s e t) :
    (w ++ [e]).Pairwise Event.Precedes := by
  refine List.pairwise_append.mpr ⟨hs.sound.order, List.pairwise_singleton _ _, fun x hx y hy => ?_⟩
  rw [List.mem_singleton.mp hy]
  exact h.rank.1 x (hs.rank x hx)

theorem Inv.rank_concat (hs : Inv login w s) (h : StepsTo login s e t) :
    ∀ x ∈ w ++ [e], x.rank < t.rank := by
  intro x hx
  rcases List.mem_append.mp hx with hold | hnew
  · exact (hs.rank x hold).trans_le h.rank.2.1
  · rw [List.mem_singleton.mp hnew]
    exact h.rank.2.2

/-- The polls of a session go on as `wait_for_tokens` does. -/
theorem Inv.polls (hs : Inv login w s) (h : StepsTo login s e t) (auth : AuthSession SteamID)
    (hbegun : Begun (w ++ [e]) auth) :
    ∃ tokens, run auth.started.poll.step .start (polls (w ++ [e])) = some tokens := by
  rcases hs.begun_cases h hbegun with ⟨hold, hne⟩ | ⟨-, hnil⟩
  · cases h with
    | @poll auth' tokens tokens' e' phase hphase hpoll =>
      have hknows : Begun w auth' ∧ run auth'.started.poll.step .start (Login.polls w) = some tokens := by
        have hknows := hs.knows
        rcases hphase with rfl | rfl <;> exact hknows
      obtain rfl := hold.unique hs.sound.order hknows.1
      exact ⟨tokens', run_polls_concat hknows.2 hpoll⟩
    | load | key | encrypt | begin | accept | code | refuse | submit | store | logon | failKey
    | failEncrypt | failBegin | failSubmit =>
      rw [polls_concat_of_ne fun _ heq => by cases heq]
      exact hs.sound.polls auth hold
  · exact ⟨.start, by rw [hnil]; rfl⟩

/-- A code is submitted when the handler has just asked for it. -/
theorem Inv.submit (hs : Inv login w s) (h : StepsTo login s e t) {u v : List (Event SteamID ε)}
    {req : UpdateAuthSessionRequest} {res : Except NetworkError Unit}
    (hw : w ++ [e] = u ++ .submit req res :: v) : ∃ auth, Asked u auth req := by
  rcases concat_eq_append_cons hw with ⟨rfl, rfl, -⟩ | ⟨v', hold⟩
  · have hknows := hs.knows
    cases h with
    | submit | failSubmit => exact ⟨_, hknows.1⟩
  · exact hs.sound.submit u v' req res hold

/-- Guard data is stored that came with the tokens. -/
theorem Inv.store (hs : Inv login w s) (h : StepsTo login s e t) {account guardData : String}
    {res : Except ε Unit} (hmem : .store account guardData res ∈ w ++ [e]) :
    account = login.account ∧
      ∃ auth tokens, Polled (w ++ [e]) auth tokens ∧ tokens.newGuardData = some guardData := by
  rcases List.mem_append.mp hmem with hold | hnew
  · obtain ⟨haccount, auth, tokens, hpolled, hdata⟩ := hs.sound.store _ _ _ hold
    have hrank := hs.rank _ hold
    refine ⟨haccount, auth, tokens, hpolled.concat fun e' he => ?_, hdata⟩
    -- there are no polls once there are tokens
    cases h with
    | poll hphase =>
      rcases hphase with rfl | rfl
      · exact absurd hrank (by simp [Event.rank, Phase.rank])
      · exact absurd hrank (by simp [Event.rank, Phase.rank])
    | _ => cases he
  · have hknows := hs.knows
    cases List.mem_singleton.mp hnew
    cases h with
    | store =>
      exact ⟨rfl, _, _, hknows.1.concat fun _ heq => (by cases heq), hknows.2⟩

/-- No step is left behind the end. -/
theorem not_stepsTo_done {res : Except ConnectionError (Session SteamID)} :
    ¬ StepsTo login (.done res) e t := by
  generalize hs : (Phase.done res : login.Phase SteamID) = s
  intro h
  cases h with
  | poll hphase => rcases hphase with rfl | rfl <;> cases hs
  | _ => cases hs

/-- The login logs on with its tokens, and what comes of that is its result. -/
theorem Inv.logon (hs : Inv login w s) (h : StepsTo login s e t) {steamId : SteamID}
    {logon : CMsgClientLogon} {sent : Except NetworkError Unit}
    {response : Option (RawNetMessage SteamID)}
    (hmem : .logon steamId logon sent response ∈ w ++ [e]) :
    ∃ auth tokens, Polled (w ++ [e]) auth tokens ∧ Offered login (w ++ [e]) tokens ∧
      steamId = auth.steamId ∧ logon = .login login.account tokens.refreshToken.value ∧
        t = .done (sendLogon login.parse steamId logon.accessToken
          (some tokens.accessToken.value) sent response) := by
  rcases List.mem_append.mp hmem with hold | hnew
  · obtain ⟨_, _, -, -, -, -, rfl⟩ := hs.sound.logon _ _ _ _ hold
    exact (not_stepsTo_done h).elim
  · have hknows := hs.knows
    cases List.mem_singleton.mp hnew
    cases h with
    | logon =>
      exact ⟨_, _, hknows.1.concat fun _ heq => (by cases heq), hknows.2.concat, rfl, rfl, rfl⟩

/-- A login that the handler gave up is over. -/
theorem Inv.refused (hs : Inv login w s) (h : StepsTo login s e t) {auth : AuthSession SteamID}
    {res : Option ConfirmationAction} {err : ConnectionError} (hbegun : Begun (w ++ [e]) auth)
    (hmem : .handled res ∈ w ++ [e])
    (herr : onConfirmation auth.started.allowedConfirmations res = .error err) :
    t = .done (.error err) ∧ ∀ x ∈ w ++ [e], x.rank ≤ 5 := by
  rcases List.mem_append.mp hmem with hold | hnew
  · rcases hs.begun_cases h hbegun with ⟨hbefore, -⟩ | ⟨rfl, -⟩
    · obtain ⟨rfl, -⟩ := hs.sound.refused auth res err hbefore hold herr
      exact (not_stepsTo_done h).elim
    · -- the handler is not asked before there is a session
      exact absurd (hs.rank_concat h _ (List.mem_append_left _ hold)) (Nat.lt_irrefl _)
  · cases List.mem_singleton.mp hnew
    rcases hs.begun_cases h hbegun with ⟨hbefore, -⟩ | ⟨rfl, -⟩
    · have hlow : ∀ {tokens}, s = .racing auth tokens → ∀ x ∈ w ++ [.handled res], x.rank ≤ 5 := by
        rintro tokens rfl x hx
        rcases List.mem_append.mp hx with hold | hnew
        · exact (hs.rank x hold).le
        · rw [List.mem_singleton.mp hnew]
          exact Nat.le_refl 5
      have hknows := hs.knows
      cases h with
      | @accept auth' _ _ hok =>
        obtain rfl := hbefore.unique hs.sound.order hknows.1
        cases hok.symm.trans herr
      | @code auth' _ token tokenType => cases herr
      | @refuse auth' _ _ _ herr' =>
        obtain rfl := hbefore.unique hs.sound.order hknows.1
        cases herr'.symm.trans herr
        exact ⟨rfl, hlow rfl⟩
    · exact absurd (h.rank.2.2) (Nat.lt_irrefl _)

/-- A login that succeeds has logged on. -/
theorem Inv.done {session : Session SteamID} (h : StepsTo login s e (.done (.ok session))) :
    ∃ steamId logon sent response, .logon steamId logon sent response ∈ w ++ [e] := by
  generalize ht : (Phase.done (.ok session) : login.Phase SteamID) = t at h
  cases h with
  | poll hphase => exact absurd ht.symm (afterPoll_ne_done hphase _ _)
  | logon => exact ⟨_, _, _, _, List.mem_append_right _ (List.mem_singleton_self _)⟩
  | _ => cases ht

/-- What a phase knows of the events before it. -/
theorem Inv.knows_concat (hs : Inv login w s) (h : StepsTo login s e t) :
    Knows login (w ++ [e]) t := by
  have hknows := hs.knows
  cases h with
  | begin hid =>
    have hnil : Login.polls w = [] :=
      polls_eq_nil fun x hx => (hs.rank x hx).trans (Nat.lt_succ_self 3)
    refine ⟨⟨hid, _, List.mem_append_right _ (List.mem_singleton_self _)⟩, ?_⟩
    rw [polls_concat_of_ne fun _ heq => (by cases heq), hnil]
    rfl
  | accept =>
    exact ⟨hknows.1.concat, by rw [polls_concat_of_ne fun _ heq => by cases heq]; exact hknows.2⟩
  | code =>
    exact ⟨⟨hknows.1.concat, w, _, _, rfl, rfl⟩,
      by rw [polls_concat_of_ne fun _ heq => by cases heq]; exact hknows.2⟩
  | submit =>
    exact ⟨hknows.1.1.concat, by rw [polls_concat_of_ne fun _ heq => by cases heq]; exact hknows.2⟩
  | @poll auth tokens tokens' e' phase hphase hpoll =>
    have hbefore : Begun w auth ∧
        run auth.started.poll.step .start (Login.polls w) = some tokens := by
      rcases hphase with rfl | rfl <;> exact hknows
    exact knows_afterPoll hphase hbefore.1.concat (run_polls_concat hbefore.2 hpoll)
  | @store auth tokens guardData res =>
    refine ⟨hknows.1.concat fun _ heq => (by cases heq), fun guardData' hdata => ?_⟩
    cases hknows.2.symm.trans hdata
    exact ⟨res, List.mem_append_right _ (List.mem_singleton_self _)⟩
  | load | key | encrypt | refuse | logon | failKey | failEncrypt | failBegin | failSubmit => trivial

theorem Inv.of_stepsTo (hs : Inv login w s) (h : StepsTo login s e t) : Inv login (w ++ [e]) t where
  sound :=
    { order := hs.order h
      polls := hs.polls h
      submit := fun u v req res hw => hs.submit h hw
      store := fun account guardData res hmem => hs.store h hmem
      logon := fun steamId logon sent response hmem => hs.logon h hmem
      refused := fun auth res err hbegun hmem herr => hs.refused h hbegun hmem herr
      done := fun session ht => by
        subst ht
        exact Inv.done h }
  rank := hs.rank_concat h
  knows := hs.knows_concat h

theorem inv_loading : Inv login ([] : List (Event SteamID ε)) .loading where
  sound :=
    { order := List.Pairwise.nil
      polls := fun auth hbegun => ⟨.start, rfl⟩
      submit := fun u v req res hw => absurd hw (by simp)
      store := fun account guardData res hmem => by cases hmem
      logon := fun steamId logon sent response hmem => by cases hmem
      refused := fun auth res err hbegun hmem => by cases hmem
      done := fun session h => by cases h }
  rank x hx := by cases hx
  knows := trivial

/-- Whatever the handler and the service do, a login is sound. -/
theorem sound_of_run (hrun : run login.step .loading w = some s) : Sound login w s := by
  have hinv := @run_history (login.Phase SteamID) (Event SteamID ε) login.step (Inv login)
    (fun u s e t hs h => hs.of_stepsTo (stepsTo_of_step h)) [] w _ _ inv_loading hrun
  exact hinv.sound

end Invariant

/-! ### A login with a code -/

section Examples

def base64Char (n : Nat) : Char :=
  Char.ofNat (if n < 26 then 65 + n else if n < 52 then 71 + n else if n < 62 then n - 4
    else if n = 62 then 43 else 47)

/-- Base64 with padding. -/
def base64 : Bytes → List Char
  | [] => []
  | [a] => [base64Char (a.toNat / 4), base64Char (a.toNat % 4 * 16), '=', '=']
  | [a, b] =>
    [base64Char (a.toNat / 4), base64Char (a.toNat % 4 * 16 + b.toNat / 16),
      base64Char (b.toNat % 16 * 4), '=']
  | a :: b :: c :: rest =>
    base64Char (a.toNat / 4) :: base64Char (a.toNat % 4 * 16 + b.toNat / 16) ::
      base64Char (b.toNat % 16 * 4 + c.toNat / 64) :: base64Char (c.toNat % 64) :: base64 rest

/-- RSA with a modulus of twelve bytes and the padding of PKCS #1. -/
def rsaCrates : PasswordCrates where
  toBigintCrates := .nat
  Key := Nat × Nat
  newKey n e := .ok (n, e)
  encryptWithKeyPkcs1 key padding data :=
    if padding.length + data.length = 9 then
      let cipher := ofBeBytes (0 :: 2 :: padding ++ 0 :: data) ^ key.2 % key.1
      .ok ((List.range 12).map fun i => UInt8.ofNat (cipher / 256 ^ (11 - i)))
    else .error .malformedMessage
  base64 bytes := String.ofList (base64 bytes)

def gordon : Login where
  account := "gordon"
  password := "x"
  crates := rsaCrates
  parse := .wire

/-- The service wants a code. -/
def gordonAuth : AuthSession UInt64 where
  started :=
    { clientId := some 7
      requestId := some [1, 2]
      interval := some ⟨0⟩
      steamid := some 76561197960287930
      allowedConfirmations := [{ confirmationType := some 3 }] }
  steamId := 76561197960287930

/-- A logon response with the result `OK`. -/
def gordonLogOnResponse : RawNetMessage UInt64 where
  kind := EMsg.kEMsgClientLogOnResponse.kind
  isProtobuf := true
  header := default
  data := [8, 1]
  frameHeaderBuffer := none
  ivBuffer := none
  headerBuffer := []

/-- There is no guard data yet, and the store of the new one fails. -/
def codeRun : List (Event UInt64 Unit) :=
  [.load "gordon" (.ok none),
    .getPasswordRsa "gordon" (.ok
      { publickeyMod := some "c3a1f0b95d2e7786f14b9c4d"
        publickeyExp := some "03"
        timestamp := some 5 }),
    .encrypt [1, 2, 3, 4, 5, 6, 7, 8],
    .begin (gordon.beginRequest [7, 238, 41, 242, 205, 66, 253, 158, 220, 93, 112, 170] 5 none)
      (.ok gordonAuth.started),
    .poll .call,
    .poll (.request gordonAuth.started.poll.request),
    .handled (some (.guardToken ⟨"2B4K7"⟩ .device)),
    .submit (gordonAuth.started.codeRequest ⟨"2B4K7"⟩ .device) (.ok ()),
    .poll (.response (.ok
      { accessToken := some "access", refreshToken := some "refresh", newGuardData := some "guard" })),
    .poll .inspect,
    .store "gordon" "guard" (.error ()),
    .logon 76561197960287930 (.login "gordon" "refresh") (.ok ()) (some gordonLogOnResponse)]

/-- The token of the session that a login gave. -/
def Phase.accessToken {login : Login} : login.Phase UInt64 → Option String
  | .done (.ok session) => session.accessToken
  | _ => none

/-- The login succeeds without its guard data. -/
theorem sound_of_run_code : ∃ s, run gordon.step .loading codeRun = some s ∧
    s.accessToken = some "refresh" ∧ Sound gordon codeRun s := by
  have hrun : (run gordon.step .loading codeRun).map Phase.accessToken = some (some "refresh") := by
    decide +kernel
  obtain ⟨s, hs, htoken⟩ := Option.map_eq_some_iff.mp hrun
  exact ⟨s, hs, htoken, sound_of_run hs⟩

end Examples

end Login

end SteamWire
