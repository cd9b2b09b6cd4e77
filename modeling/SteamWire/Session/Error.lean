import SteamWire.Auth.Method
import SteamWire.Net.Error

/-!
# Errors of a login

The error of starting a session, and how the result codes of the service turn into it.
-/

namespace SteamWire

namespace EResult

def invalidPassword : EResult := ⟨5, rfl⟩
def accountNotFound : EResult := ⟨18, rfl⟩
def invalidSteamID : EResult := ⟨19, rfl⟩
def limitExceeded : EResult := ⟨25, rfl⟩
def accountDisabled : EResult := ⟨43, rfl⟩
def accountLockedDown : EResult := ⟨73, rfl⟩
def rateLimitExceeded : EResult := ⟨84, rfl⟩
def accountLoginDeniedNeedTwoFactor : EResult := ⟨85, rfl⟩
def accountLimitExceeded : EResult := ⟨95, rfl⟩
def accountActivityLimitExceeded : EResult := ⟨96, rfl⟩
def accountHasBeenDeleted : EResult := ⟨114, rfl⟩

end EResult

inductive LoginError where
  | invalidCredentials
  | unknown (result : EResult)
  | steamGuardRequired
  | invalidPubKey (error : CryptError)
  | unavailableAccount
  | rateLimited
  | invalidSteamId
  deriving DecidableEq, Repr

open EResult in
/-- `From<EResult>`. -/
def LoginError.ofEResult (value : EResult) : LoginError :=
  if value = invalidPassword then .invalidCredentials
  else if value ∈ [accountDisabled, accountLockedDown, accountHasBeenDeleted, accountNotFound] then
    .invalidCredentials
  else if value ∈ [rateLimitExceeded, accountActivityLimitExceeded, limitExceeded,
      accountLimitExceeded] then .rateLimited
  else if value = accountLoginDeniedNeedTwoFactor then .steamGuardRequired
  else if value = invalidSteamID then .invalidSteamId
  else .unknown value

/-- What can be wrong with a token; the errors of base64 and of JSON are told by their texts. -/
inductive AccessTokenError where
  | expired
  | malformed
  | invalidIssuer
  | base64 (text : String)
  | json (text : String)
  deriving DecidableEq, Repr

/-- The error of starting a session. -/
inductive ConnectionError where
  | accessToken (error : AccessTokenError)
  | network (error : NetworkError)
  | loginError (error : LoginError)
  | aborted
  | unsupportedConfirmationAction (allowed : List ConfirmationMethod)
  deriving DecidableEq, Repr

end SteamWire
