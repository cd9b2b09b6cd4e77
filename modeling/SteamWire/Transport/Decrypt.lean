import SteamWire.Crypto.Decrypt
import SteamWire.Transport.Frame

/-!
# Decrypting received frames

The receive pipeline of a TCP connection decrypts the payload of every frame and parses
what comes out. Decryption cuts the payload behind the initialization vector. A buffer may
have room for the cut and too few bytes all the same; then the vector is too short, and
decryption panics on it (`BytesMut.total_iff`). The frame codec lets payloads of any length
through, so this ends the receive task (`receiveFrame_eq_panic_iff`).
-/

namespace SteamWire

namespace Outcome

variable {ε ε' α : Type*}

def mapErr (f : ε → ε') : Outcome ε α → Outcome ε' α
  | ok a => ok a
  | err e => err (f e)
  | panic => panic

@[simp] theorem mapErr_ok (f : ε → ε') (a : α) : (ok a : Outcome ε α).mapErr f = ok a := rfl
@[simp] theorem mapErr_err (f : ε → ε') (e : ε) : (err e : Outcome ε α).mapErr f = err (f e) := rfl
@[simp] theorem mapErr_panic (f : ε → ε') : (panic : Outcome ε α).mapErr f = panic := rfl

end Outcome

/-- A buffer: the bytes in it, and how many it has room for. -/
structure BytesMut where
  bytes : Bytes
  capacity : Nat
  length_le : bytes.length ≤ capacity

/-- `<[u8; 16]>::try_from` of a slice, unwrapped: panics on any other length. -/
def unwrapBlock {ε : Type*} (slice : Bytes) : Outcome ε Block :=
  if h : slice.length = 16 then .ok ⟨slice.toArray, h⟩ else .panic

theorem unwrapBlock_of_lt {ε : Type*} {slice : Bytes} (h : slice.length < 16) :
    (unwrapBlock slice : Outcome ε Block) = .panic := dif_neg h.ne

theorem unwrapBlock_toList {ε : Type*} (block : Block) :
    (unwrapBlock block.toList : Outcome ε Block) = .ok block := by
  rw [unwrapBlock, dif_pos block.length_toList]
  exact congrArg Outcome.ok (Vector.toList_inj.mp rfl)

namespace BytesMut

variable {ε : Type*} (cipher : CryptCipher) (input : BytesMut) (key : SessionKey)

/-- `BytesMut::split_off`: the bytes in front of the cut stay, the others are given. Panics
past the capacity, not past the bytes. -/
def splitOff (b : BytesMut) (n : Nat) : Outcome ε (BytesMut × BytesMut) :=
  if h : n ≤ b.capacity then
    .ok (⟨b.bytes.take n, n, List.length_take_le ..⟩,
      ⟨b.bytes.drop n, b.capacity - n, by
        have hlen := b.length_le
        rw [List.length_drop]
        omega⟩)
  else .panic

/-- `symmetric_decrypt_impl`. -/
def symmetricDecryptImpl : Outcome CryptError (Block × Bytes) :=
  (input.splitOff 16).bind fun (input, message) =>
    (unwrapBlock input.bytes).bind fun encryptedIv =>
      let plainIv := Crypt.decryptIv cipher encryptedIv key
      (Outcome.ofExcept (Crypt.decryptMessage cipher message.bytes key plainIv)).bind fun message =>
        .ok (plainIv, message)

/-- `symmetric_decrypt_without_hmac`. -/
def symmetricDecryptWithoutHmac : Outcome CryptError Bytes :=
  (input.symmetricDecryptImpl cipher key).bind fun (_, message) => .ok message

/-- `symmetric_decrypt`. -/
def symmetricDecrypt : Outcome CryptError Bytes :=
  (input.symmetricDecryptImpl cipher key).bind fun (plainIv, message) =>
    -- the vector is thirteen bytes of a MAC and the three random bytes that went into it
    let hmacRandom := plainIv.toList.drop 13
    let hmacKey := key.toList.take 16 ++ List.replicate 48 0
    let hmac := cipher.hmacSha1 hmacKey (hmacRandom ++ message)
    if hmac.toList.take 13 ≠ plainIv.toList.take 13 then .err .invalidHmac else .ok message

/-- Both decryptions return, with a message or an error. -/
def Total : Prop :=
  input.symmetricDecrypt cipher key ≠ .panic ∧ input.symmetricDecryptWithoutHmac cipher key ≠ .panic

variable {cipher input key}

/-! ### Room does not matter -/

/-- A buffer with too few bytes panics, in the cut or in the conversion behind it. -/
theorem symmetricDecryptImpl_of_lt (h : input.bytes.length < 16) :
    input.symmetricDecryptImpl cipher key = .panic := by
  rw [symmetricDecryptImpl, splitOff]
  split_ifs with hcapacity
  · -- the cut goes well, and leaves too few bytes in front of it
    have hshort : (input.bytes.take 16).length < 16 := by
      rw [List.length_take]
      omega
    rw [Outcome.bind_ok]
    dsimp only
    rw [unwrapBlock_of_lt hshort]
    rfl
  · rfl

/-- However much room a buffer has, its bytes are decrypted. -/
theorem symmetricDecryptImpl_eq :
    input.symmetricDecryptImpl cipher key = Crypt.symmetricDecryptImpl cipher input.bytes key := by
  by_cases h : 16 ≤ input.bytes.length
  · obtain ⟨block, rest, hbytes⟩ := Crypt.exists_toList_append_eq h
    have hfront : input.bytes.take 16 = block.toList := by
      rw [← hbytes, List.take_left' (by simp)]
    have hback : input.bytes.drop 16 = rest := by
      rw [← hbytes, List.drop_left' (by simp)]
    rw [← hbytes, Crypt.symmetricDecryptImpl_append, symmetricDecryptImpl, splitOff,
      dif_pos (h.trans input.length_le), Outcome.bind_ok]
    dsimp only
    rw [hfront, unwrapBlock_toList, Outcome.bind_ok, hback]
    rfl
  · rw [symmetricDecryptImpl_of_lt (not_le.mp h), Crypt.symmetricDecryptImpl, if_neg h]

theorem symmetricDecrypt_eq :
    input.symmetricDecrypt cipher key = Crypt.symmetricDecrypt cipher input.bytes key := by
  rw [symmetricDecrypt, symmetricDecryptImpl_eq]
  rfl

/-! ### When decryption panics -/

/-- With a whole vector in front, decryption gives a message or an error. -/
theorem symmetricDecryptImpl_ne_panic (h : 16 ≤ input.bytes.length) :
    input.symmetricDecryptImpl cipher key ≠ .panic := by
  obtain ⟨block, rest, hbytes⟩ := Crypt.exists_toList_append_eq h
  rw [symmetricDecryptImpl_eq, ← hbytes, Crypt.symmetricDecryptImpl_append]
  cases Crypt.decryptMessage cipher rest key (cipher.decryptBlock key block) <;> nofun

theorem symmetricDecrypt_eq_panic :
    input.symmetricDecrypt cipher key = .panic ↔ input.bytes.length < 16 := by
  constructor
  · intro hpanic
    by_contra h
    rw [symmetricDecrypt_eq] at hpanic
    rcases @Crypt.symmetricDecrypt_cases cipher input.bytes key (not_lt.mp h) with
      ⟨message, hok⟩ | herr | herr
    · cases hok.symm.trans hpanic
    · cases herr.symm.trans hpanic
    · cases herr.symm.trans hpanic
  · intro h
    rw [symmetricDecrypt, symmetricDecryptImpl_of_lt h]
    rfl

theorem symmetricDecryptWithoutHmac_eq_panic :
    input.symmetricDecryptWithoutHmac cipher key = .panic ↔ input.bytes.length < 16 := by
  constructor
  · intro hpanic
    by_contra h
    have himpl := @symmetricDecryptImpl_ne_panic cipher input key (not_lt.mp h)
    rw [symmetricDecryptWithoutHmac] at hpanic
    cases hresult : input.symmetricDecryptImpl cipher key with
    | panic => exact himpl hresult
    | _ =>
      rw [hresult] at hpanic
      cases hpanic
  · intro h
    rw [symmetricDecryptWithoutHmac, symmetricDecryptImpl_of_lt h]
    rfl

/-- Decryption is total exactly on the buffers that hold a whole initialization vector. -/
theorem total_iff (cipher : CryptCipher) (input : BytesMut) (key : SessionKey) :
    input.Total cipher key ↔ 16 ≤ input.bytes.length := by
  rw [Total, Ne, Ne, symmetricDecrypt_eq_panic, symmetricDecryptWithoutHmac_eq_panic, and_self,
    not_lt]

end BytesMut

/-! ### The receive pipeline -/

section Receive

variable {SteamID : Type} [SteamIdOps SteamID] {cipher : CryptCipher} {codec : HeaderCodec}
  {key : SessionKey} {encrypted : BytesMut}

/-- What the receive pipeline of `connect` makes of the payload of a frame. -/
def receiveFrame (cipher : CryptCipher) (codec : HeaderCodec) (key : SessionKey)
    (encrypted : BytesMut) : Outcome NetworkError (RawNetMessage SteamID) :=
  ((encrypted.symmetricDecrypt cipher key).mapErr .cryptoError).bind (RawNetMessage.read codec)

/-- A frame ends the receive task when it is too short to decrypt, or when the header of the
message in it is overrun. -/
theorem receiveFrame_eq_panic_iff :
    (receiveFrame cipher codec key encrypted : Outcome _ (RawNetMessage SteamID)) = .panic ↔
      encrypted.bytes.length < 16 ∨
        ∃ raw, encrypted.symmetricDecrypt cipher key = .ok raw ∧
          RawNetMessage.HeaderOverrun codec raw := by
  rw [receiveFrame, ← @BytesMut.symmetricDecrypt_eq_panic cipher encrypted key]
  cases encrypted.symmetricDecrypt cipher key with
  | ok raw =>
    rw [Outcome.mapErr_ok, Outcome.bind_ok, RawNetMessage.read_eq_panic]
    simp
  | err e => simp [Outcome.bind]
  | panic => simp [Outcome.bind]

/-- A frame without a payload, in a buffer with room for thirty-two bytes. -/
theorem not_total_emptyFrame :
    FrameCodec.decode ([0, 0, 0, 0] ++ magic) = (.ok (some []), []) ∧
      ∀ cipher key, ¬ (⟨[], 32, by decide⟩ : BytesMut).Total cipher key :=
  ⟨by decide, fun cipher key h => absurd ((BytesMut.total_iff cipher _ key).mp h) (by decide)⟩

end Receive

end SteamWire
