import SteamWire.Crypto.Symmetric
import SteamWire.Net.Error

/-!
# Symmetric decryption

The decryption of a frame takes the initialization vector from its first block, decrypts
the rest with it, and recomputes the MAC that the vector is made of. The cipher is a
parameter that comes with its inverse; nothing is asked of the MAC. Decryption then
accepts the outputs of encryption and nothing else
(`Crypt.symmetricDecrypt_eq_ok_iff_symmetricEncrypt`).
-/

namespace SteamWire

/-- AES-256 on single blocks in both directions, and HMAC-SHA1. -/
structure CryptCipher extends CryptPrimitives where
  decryptBlock : SessionKey → Block → Block
  decrypt_encrypt : ∀ key block, decryptBlock key (encryptBlock key block) = block
  encrypt_decrypt : ∀ key block, encryptBlock key (decryptBlock key block) = block

namespace Crypt

variable {ε : Type*} (cipher : CryptCipher)

/-- Decrypt an initialization vector on its own. -/
def decryptIv (iv : Block) (key : SessionKey) : Block := cipher.decryptBlock key iv

/-- Decrypt a message in place. -/
def decryptMessage (message : Bytes) (key : SessionKey) (plainIv : Block) :
    Except CryptError Bytes :=
  match Cbc.decryptPadded (cipher.decryptBlock key) plainIv message with
  | some message => .ok message
  | none => .error .malformedMessage

/-- Decrypt the initialization vector and the message behind it. Panics when the input is
shorter than the vector. -/
def symmetricDecryptImpl (input : Bytes) (key : SessionKey) : Outcome CryptError (Block × Bytes) :=
  if 16 ≤ input.length then
    let encryptedIv : Block := Vector.ofFn fun i => input.getD i 0
    let plainIv := decryptIv cipher encryptedIv key
    (Outcome.ofExcept (decryptMessage cipher (input.drop 16) key plainIv)).bind fun message =>
      .ok (plainIv, message)
  else .panic

def symmetricDecrypt (input : Bytes) (key : SessionKey) : Outcome CryptError Bytes :=
  (symmetricDecryptImpl cipher input key).bind fun (plainIv, message) =>
    let hmacRandom := plainIv.toList.drop 13
    let hmacKey := key.toList.take 16 ++ List.replicate 48 0
    let hmac := cipher.hmacSha1 hmacKey (hmacRandom ++ message)
    if hmac.toList.take 13 ≠ plainIv.toList.take 13 then .err .invalidHmac else .ok message

variable {cipher} {random : Vector UInt8 3} {message c : Bytes} {key : SessionKey}
  {plainIv iv : Block}

/-! ### The layout of a ciphertext -/

section Layout

/-- The initialization vector is the front of the MAC, and the random bytes. -/
theorem toList_messageIv (prims : CryptPrimitives) :
    (messageIv prims random message key).toList =
      (prims.hmacSha1 (key.toList.take 16 ++ List.replicate 48 0)
        (random.toList ++ message)).toList.take 13 ++ random.toList := by
  refine List.ext_getElem (by simp) fun i hi _ => ?_
  rw [Vector.length_toList] at hi
  simp only [messageIv, Vector.getElem_toList, Vector.getElem_ofFn]
  split_ifs with hfront
  · rw [List.getElem_append_left (by simp; omega), List.getElem_take, Vector.getElem_toList]
  · rw [List.getElem_append_right (by simp; omega), Vector.getElem_toList]
    simp

/-- A vector belongs to a message when its last bytes are the random ones, and its first the
MAC that these make. -/
theorem messageIv_eq_iff (prims : CryptPrimitives) :
    messageIv prims random message key = iv ↔
      random.toList = iv.toList.drop 13 ∧
        (prims.hmacSha1 (key.toList.take 16 ++ List.replicate 48 0)
          (iv.toList.drop 13 ++ message)).toList.take 13 = iv.toList.take 13 := by
  rw [← Vector.toList_inj, toList_messageIv]
  constructor
  · intro h
    have hfront := congrArg (List.take 13) h
    have hback := congrArg (List.drop 13) h
    rw [List.take_left' (by simp)] at hfront
    rw [List.drop_left' (by simp)] at hback
    exact ⟨hback, hback ▸ hfront⟩
  · rintro ⟨hback, hfront⟩
    rw [hback, hfront, List.take_append_drop]

/-- The ciphertext of a message: its vector, encrypted alone, and then its blocks. -/
theorem symmetricEncrypt_eq (prims : CryptPrimitives) :
    (symmetricEncrypt prims random message key : Outcome ε Bytes) =
      .ok ((prims.encryptBlock key (messageIv prims random message key)).toList ++
        Cbc.encrypt (prims.encryptBlock key) (messageIv prims random message key) message) := by
  simp only [symmetricEncrypt, symmetricEncryptWithIvBuffer, symmetricEncryptWithIv,
    encryptMessage_eq, encryptIv, List.length_replicate]
  simp

end Layout

/-! ### Decryption and encryption -/

section RoundTrip

theorem decryptMessage_eq_ok_iff : decryptMessage cipher c key plainIv = .ok message ↔
    c = Cbc.encrypt (cipher.encryptBlock key) plainIv message := by
  rw [← Cbc.decryptPadded_eq_some_iff (cipher.decrypt_encrypt key) (cipher.encrypt_decrypt key),
    decryptMessage]
  split <;> simp_all

/-- An input that begins with a whole block is decrypted with the vector in it. -/
theorem symmetricDecryptImpl_append (block : Block) (rest : Bytes) :
    symmetricDecryptImpl cipher (block.toList ++ rest) key =
      (Outcome.ofExcept (decryptMessage cipher rest key (cipher.decryptBlock key block))).bind
        fun message => .ok (cipher.decryptBlock key block, message) := by
  have hblock : (Vector.ofFn fun i : Fin 16 => (block.toList ++ rest).getD i 0) = block := by
    ext i hi
    simp [List.getElem?_append]
  have hrest : (block.toList ++ rest).drop 16 = rest := List.drop_left' (by simp)
  rw [symmetricDecryptImpl, if_pos (by simp), hblock, hrest]
  rfl

/-- What the decryption accepts, in terms of the two parts of the input. -/
theorem symmetricDecrypt_append_eq_ok_iff (block : Block) (rest : Bytes) :
    symmetricDecrypt cipher (block.toList ++ rest) key = .ok message ↔
      rest = Cbc.encrypt (cipher.encryptBlock key) (cipher.decryptBlock key block) message ∧
        ∃ random, messageIv cipher.toCryptPrimitives random message key =
          cipher.decryptBlock key block := by
  rw [symmetricDecrypt, symmetricDecryptImpl_append, ← decryptMessage_eq_ok_iff]
  generalize cipher.decryptBlock key block = plainIv
  have hrandom : (plainIv.toList.drop 13).length = 3 := by simp
  constructor
  · intro h
    cases hdecrypt : decryptMessage cipher rest key plainIv with
    | error e =>
      rw [hdecrypt] at h
      cases h
    | ok plain =>
      rw [hdecrypt] at h
      simp only [Outcome.ofExcept_ok, Outcome.bind_ok] at h
      split_ifs at h with hmac
      cases h
      -- the random bytes are the end of the vector
      refine ⟨rfl, ⟨(plainIv.toList.drop 13).toArray, hrandom⟩, ?_⟩
      exact (messageIv_eq_iff _).mpr ⟨rfl, not_not.mp hmac⟩
  · rintro ⟨hdecrypt, random, hiv⟩
    obtain ⟨-, hmac⟩ := (messageIv_eq_iff _).mp hiv
    rw [hdecrypt, Outcome.ofExcept_ok, Outcome.bind_ok, Outcome.bind_ok]
    exact if_neg (not_not.mpr hmac)

/-- Every input of a block or more has a first block. -/
theorem exists_toList_append_eq (h : 16 ≤ c.length) :
    ∃ (block : Block) (rest : Bytes), block.toList ++ rest = c :=
  ⟨⟨(c.take 16).toArray, by simp; omega⟩, c.drop 16, List.take_append_drop 16 c⟩

/-- The inputs that decrypt to a message are the ciphertexts of that message. -/
theorem symmetricDecrypt_eq_ok_iff (h : 16 ≤ c.length) :
    symmetricDecrypt cipher c key = .ok message ↔
      ∃ random, symmetricEncrypt cipher.toCryptPrimitives random message key =
        (.ok c : Outcome ε Bytes) := by
  obtain ⟨block, rest, rfl⟩ := exists_toList_append_eq h
  rw [symmetricDecrypt_append_eq_ok_iff]
  simp only [symmetricEncrypt_eq, Outcome.ok.injEq]
  constructor
  · rintro ⟨rfl, random, hiv⟩
    exact ⟨random, by rw [hiv, cipher.encrypt_decrypt]⟩
  · rintro ⟨random, heq⟩
    -- the first block is the encrypted vector, so decrypting it gives the vector
    obtain ⟨hblock, hrest⟩ := List.append_inj heq (by simp)
    have hiv : cipher.decryptBlock key block =
        messageIv cipher.toCryptPrimitives random message key := by
      rw [← Vector.toList_inj.mp hblock, cipher.decrypt_encrypt]
    exact ⟨by rw [hiv, hrest], random, hiv.symm⟩

/-- An input that is not accepted is rejected, with one of two errors. -/
theorem symmetricDecrypt_cases (h : 16 ≤ c.length) :
    (∃ message, symmetricDecrypt cipher c key = .ok message) ∨
      symmetricDecrypt cipher c key = .err .malformedMessage ∨
        symmetricDecrypt cipher c key = .err .invalidHmac := by
  obtain ⟨block, rest, rfl⟩ := exists_toList_append_eq h
  rw [symmetricDecrypt, symmetricDecryptImpl_append, decryptMessage]
  split
  · next plain _ =>
    simp only [Outcome.ofExcept_ok, Outcome.bind_ok]
    split_ifs
    · exact .inr (.inr rfl)
    · exact .inl ⟨plain, rfl⟩
  · exact .inr (.inl rfl)

/-- Decryption undoes encryption, whatever the buffer of the vector held, and accepts nothing
but its outputs. -/
theorem symmetricDecrypt_eq_ok_iff_symmetricEncrypt (cipher : CryptCipher) (key : SessionKey) :
    (∀ random message ivBuff, ivBuff.length = 16 →
        ∃ c, symmetricEncryptWithIvBuffer cipher.toCryptPrimitives random ivBuff message key =
            (.ok c : Outcome CryptError Bytes) ∧
          symmetricDecrypt cipher c key = .ok message) ∧
      ∀ c, 16 ≤ c.length →
        (∀ message, symmetricDecrypt cipher c key = .ok message ↔
          ∃ random, symmetricEncrypt cipher.toCryptPrimitives random message key =
            (.ok c : Outcome CryptError Bytes)) ∧
        ((∃ message, symmetricDecrypt cipher c key = .ok message) ∨
          symmetricDecrypt cipher c key = .err .malformedMessage ∨
            symmetricDecrypt cipher c key = .err .invalidHmac) := by
  refine ⟨fun random message ivBuff hiv => ?_, fun c hc =>
    ⟨fun _ => symmetricDecrypt_eq_ok_iff hc, symmetricDecrypt_cases hc⟩⟩
  refine ⟨_, (symmetricEncryptWithIvBuffer_eq hiv).trans (symmetricEncrypt_eq _), ?_⟩
  exact (symmetricDecrypt_eq_ok_iff (by simp)).mpr
    ⟨random, (symmetricEncrypt_eq _ : _ = (.ok _ : Outcome CryptError Bytes))⟩

/-- Masking with the front of the key as the cipher, and the sum of all bytes as the MAC. -/
def maskCipher : CryptCipher where
  encryptBlock key block := block.zipWith (· ^^^ ·) (key.take 16)
  decryptBlock key block := block.zipWith (· ^^^ ·) (key.take 16)
  hmacSha1 key data := Vector.replicate 20 ((key ++ data).foldl (· + ·) 0)
  decrypt_encrypt _ block := Cbc.zipWith_xor_cancel block _
  encrypt_decrypt _ block := Cbc.zipWith_xor_cancel block _

/-- Three bytes are encrypted and decrypted, and zeros are rejected. -/
theorem symmetricDecrypt_eq_ok_iff_symmetricEncrypt_mask :
    (∃ c, symmetricEncryptWithIvBuffer maskCipher.toCryptPrimitives #v[1, 2, 3]
        (List.replicate 16 9) [7, 8, 9] (Vector.replicate 32 5) =
          (.ok c : Outcome CryptError Bytes) ∧
      symmetricDecrypt maskCipher c (Vector.replicate 32 5) = .ok [7, 8, 9]) ∧
    ((∃ message, symmetricDecrypt maskCipher (List.replicate 32 0) (Vector.replicate 32 5) =
        .ok message) ∨
      symmetricDecrypt maskCipher (List.replicate 32 0) (Vector.replicate 32 5) =
        .err .malformedMessage ∨
      symmetricDecrypt maskCipher (List.replicate 32 0) (Vector.replicate 32 5) =
        .err .invalidHmac) := by
  have hboth := symmetricDecrypt_eq_ok_iff_symmetricEncrypt maskCipher (Vector.replicate 32 5)
  exact ⟨hboth.1 _ _ _ (by decide), (hboth.2 _ (by decide)).2⟩

end RoundTrip

end Crypt

end SteamWire
