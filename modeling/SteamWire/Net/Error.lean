import SteamWire.Proto.Kind

/-!
# Errors of the network layer

The one error type every layer of a connection shares, and the result codes a
remote reports in a message header. Payloads that come from other crates are
kept as far as the code looks at them.
-/

namespace SteamWire

/-- `std::io::Error`: the kind a short read reports, or any other failure. -/
inductive IoError where
  | unexpectedEof
  | other (text : String)
  deriving DecidableEq, Repr

/-- An error while encoding or decoding a protobuf message. -/
inductive ProtoError where
  | io (error : IoError)
  | decode
  deriving DecidableEq, Repr

/-- An error while parsing a message body. -/
inductive MessageBodyError where
  | proto (error : ProtoError)
  | binRead
  | io (error : IoError)
  | other (text : String)
  | bigInt
  | rsa
  deriving DecidableEq, Repr

inductive CryptError where
  | malformedSignature
  | malformedMessage
  | invalidHmac
  deriving DecidableEq, Repr

/-- The `i32` values that are discriminants of `EResult`; 4 was never assigned. -/
def isEResult (result : Int32) : Bool := 0 ≤ result && result ≤ 119 && result != 4

/-- A result code of the remote. -/
structure EResult where
  code : Int32
  listed : isEResult code = true
  deriving DecidableEq, Repr

namespace EResult

def invalid : EResult := ⟨0, rfl⟩

def ok : EResult := ⟨1, rfl⟩

def tryFrom (result : Int32) : Option EResult :=
  if h : isEResult result = true then some ⟨result, h⟩ else none

/-- A header result is fine exactly when it is `OK`; unknown codes count as `Invalid`. -/
def fromResult (result : Int32) : Except EResult Unit :=
  let result := (tryFrom result).getD invalid
  if result = ok then .ok () else .error result

theorem fromResult_eq_ok {result : Int32} : fromResult result = .ok () ↔ result = 1 := by
  constructor
  · intro h
    unfold fromResult tryFrom at h
    split at h
    case isTrue hlisted =>
      simp only [Option.getD_some] at h
      split at h
      case isTrue hok => exact congrArg EResult.code hok
      case isFalse => cases h
    case isFalse => cases h
  · rintro rfl
    rfl

end EResult

/-- The error of a connection, of the decoding of its messages, and of its calls. -/
inductive NetworkError where
  | io (error : IoError)
  | ws (text : String)
  | invalidHeader
  | invalidMessageKind (kind : Int32)
  | cryptoHandshakeFailed
  | differentMessage (expected got : MsgKind)
  | differentServiceMethod (expected got : String)
  | malformedBody (kind : MsgKind) (error : MessageBodyError)
  | cryptoError (error : CryptError)
  | eof
  | timeout
  | apiError (result : EResult)
  deriving DecidableEq, Repr

end SteamWire
