import Mathlib.Init

/-!
# Confirmation methods

The ways of confirming a login that the auth service allows, and what the client makes of
them: the class of a method, and the code it asks for.
-/

namespace SteamWire

/-- The kinds of confirmation, as generated. -/
inductive EAuthSessionGuardType where
  | kEAuthSessionGuardTypeUnknown
  | kEAuthSessionGuardTypeNone
  | kEAuthSessionGuardTypeEmailCode
  | kEAuthSessionGuardTypeDeviceCode
  | kEAuthSessionGuardTypeDeviceConfirmation
  | kEAuthSessionGuardTypeEmailConfirmation
  | kEAuthSessionGuardTypeMachineToken
  | kEAuthSessionGuardTypeLegacyMachineAuth
  deriving DecidableEq, Repr

namespace EAuthSessionGuardType

/-- The number on the wire. -/
def value : EAuthSessionGuardType → Int32
  | kEAuthSessionGuardTypeUnknown => 0
  | kEAuthSessionGuardTypeNone => 1
  | kEAuthSessionGuardTypeEmailCode => 2
  | kEAuthSessionGuardTypeDeviceCode => 3
  | kEAuthSessionGuardTypeDeviceConfirmation => 4
  | kEAuthSessionGuardTypeEmailConfirmation => 5
  | kEAuthSessionGuardTypeMachineToken => 6
  | kEAuthSessionGuardTypeLegacyMachineAuth => 7

def tryFrom (raw : Int32) : Option EAuthSessionGuardType :=
  [kEAuthSessionGuardTypeUnknown, kEAuthSessionGuardTypeNone, kEAuthSessionGuardTypeEmailCode,
    kEAuthSessionGuardTypeDeviceCode, kEAuthSessionGuardTypeDeviceConfirmation,
    kEAuthSessionGuardTypeEmailConfirmation, kEAuthSessionGuardTypeMachineToken,
    kEAuthSessionGuardTypeLegacyMachineAuth].find? fun ty => ty.value = raw

end EAuthSessionGuardType

/-- The class of a confirmation method: provide a code, confirm the login elsewhere, provide
stored guard data, or do nothing. -/
inductive ConfirmationMethodClass where
  | code
  | confirmation
  | stored
  | none
  deriving DecidableEq, Repr

inductive GuardTokenType where
  | email
  | device
  deriving DecidableEq, Repr

/-- A confirmation that the service allows. -/
structure ConfirmationMethod where
  confirmationType : Option Int32 := none
  associatedMessage : Option String := none
  deriving DecidableEq, Repr

namespace ConfirmationMethod

open EAuthSessionGuardType

def guardType (method : ConfirmationMethod) : EAuthSessionGuardType :=
  (EAuthSessionGuardType.tryFrom (method.confirmationType.getD 0)).getD
    kEAuthSessionGuardTypeUnknown

/-- `ConfirmationMethod::confirmation_type`: the human-readable kind. -/
def confirmationTypeText (method : ConfirmationMethod) : String :=
  match method.guardType with
  | kEAuthSessionGuardTypeUnknown => "unknown"
  | kEAuthSessionGuardTypeNone => "none"
  | kEAuthSessionGuardTypeEmailCode => "email"
  | kEAuthSessionGuardTypeDeviceCode => "device code"
  | kEAuthSessionGuardTypeDeviceConfirmation => "device confirmation"
  | kEAuthSessionGuardTypeEmailConfirmation => "email confirmation"
  | kEAuthSessionGuardTypeMachineToken => "machine token"
  | kEAuthSessionGuardTypeLegacyMachineAuth => "machine auth"

def confirmationDetails (method : ConfirmationMethod) : String :=
  method.associatedMessage.getD ""

/-- `ConfirmationMethod::class`. -/
def methodClass (method : ConfirmationMethod) : ConfirmationMethodClass :=
  match method.guardType with
  | kEAuthSessionGuardTypeUnknown | kEAuthSessionGuardTypeNone => .none
  | kEAuthSessionGuardTypeEmailCode | kEAuthSessionGuardTypeDeviceCode => .code
  | kEAuthSessionGuardTypeDeviceConfirmation | kEAuthSessionGuardTypeEmailConfirmation =>
    .confirmation
  | kEAuthSessionGuardTypeMachineToken | kEAuthSessionGuardTypeLegacyMachineAuth => .stored

def tokenType (method : ConfirmationMethod) : Option GuardTokenType :=
  match method.guardType with
  | kEAuthSessionGuardTypeEmailCode => some .email
  | kEAuthSessionGuardTypeDeviceCode => some .device
  | _ => none

end ConfirmationMethod

end SteamWire
