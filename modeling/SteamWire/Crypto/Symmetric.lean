import SteamWire.Crypto.Cbc
import SteamWire.Data.Outcome

/-!
# Symmetric encryption

The encryption of a frame: a MAC of three random bytes and the plaintext makes the
initialization vector, which is sent encrypted in front of the ciphertext. The block
cipher and the MAC come from outside the repository and are parameters; the random
bytes are an input.
-/

namespace SteamWire

/-- A session key. -/
abbrev SessionKey := Vector UInt8 32

/-- AES-256 on single blocks, and HMAC-SHA1. -/
structure CryptPrimitives where
  encryptBlock : SessionKey → Block → Block
  hmacSha1 : Bytes → Bytes → Vector UInt8 20

/-- `BytesMut::resize`. -/
def resize (b : Bytes) (length : Nat) (value : UInt8) : Bytes :=
  b.take length ++ List.replicate (length - b.length) value

theorem resize_add (b : Bytes) (n : Nat) (value : UInt8) :
    resize b (b.length + n) value = b ++ List.replicate n value := by
  rw [resize, List.take_of_length_le (by omega), Nat.add_sub_cancel_left]

namespace Crypt

variable {ε : Type*} (prims : CryptPrimitives)

/-- Encrypt an initialization vector on its own. -/
def encryptIv (iv : Block) (key : SessionKey) : Block := prims.encryptBlock key iv

/-- Encrypt a message in place. Panics without room for the padding. -/
def encryptMessage (message : Bytes) (key : SessionKey) (plainIv : Block) : Outcome ε Bytes :=
  let length := message.length
  match Cbc.encryptPadded (prims.encryptBlock key) plainIv (resize message (length + 16) 0) length with
  | some encrypted => .ok encrypted
  | none => .panic

/-- Put the encrypted initialization vector in its buffer and join the ciphertext to it.
Panics when the buffer is too short. -/
def symmetricEncryptWithIv (ivBuff message : Bytes) (key : SessionKey) (plainIv : Block) :
    Outcome ε Bytes :=
  let encryptedIv := encryptIv prims plainIv key
  if 16 ≤ ivBuff.length then
    (encryptMessage prims message key plainIv).bind fun encryptedMessage =>
      .ok ((encryptedIv.toList ++ ivBuff.drop 16) ++ encryptedMessage)
  else .panic

/-- The initialization vector of a message. -/
def messageIv (random : Vector UInt8 3) (input : Bytes) (key : SessionKey) : Block :=
  let hmacKey := key.toList.take 16 ++ List.replicate 48 0
  let hmac := prims.hmacSha1 hmacKey (random.toList ++ input)
  Vector.ofFn fun i => if h : i.val < 13 then hmac[i.val] else random[i.val - 13]

/-- Encrypt with a buffer for the initialization vector. -/
def symmetricEncryptWithIvBuffer (random : Vector UInt8 3) (ivBuff input : Bytes)
    (key : SessionKey) : Outcome ε Bytes :=
  symmetricEncryptWithIv prims ivBuff input key (messageIv prims random input key)

def symmetricEncrypt (random : Vector UInt8 3) (input : Bytes) (key : SessionKey) :
    Outcome ε Bytes :=
  symmetricEncryptWithIvBuffer prims random (List.replicate 16 0) input key

variable {prims} {random : Vector UInt8 3} {ivBuff message : Bytes} {key : SessionKey}
  {plainIv : Block}

/-- The message is grown by enough for any padding. -/
theorem encryptMessage_eq :
    (encryptMessage prims message key plainIv : Outcome ε Bytes) =
      .ok (Cbc.encrypt (prims.encryptBlock key) plainIv message) := by
  rw [encryptMessage, resize_add, Cbc.encryptPadded_append (by simp)]

/-- A buffer of sixteen bytes is overwritten, so its content is of no account. -/
theorem symmetricEncryptWithIvBuffer_eq (h : ivBuff.length = 16) :
    (symmetricEncryptWithIvBuffer prims random ivBuff message key : Outcome ε Bytes) =
      symmetricEncrypt prims random message key := by
  simp [symmetricEncrypt, symmetricEncryptWithIvBuffer, symmetricEncryptWithIv, h,
    List.drop_eq_nil_of_le (show ivBuff.length ≤ 16 by omega)]

/-- Encryption does not fail. -/
theorem exists_symmetricEncrypt_eq :
    ∃ c, (symmetricEncrypt prims random message key : Outcome ε Bytes) = .ok c := by
  simp only [symmetricEncrypt, symmetricEncryptWithIvBuffer, symmetricEncryptWithIv,
    List.length_replicate, encryptMessage_eq]
  exact ⟨_, rfl⟩

end Crypt

end SteamWire
