import SteamWire.Data.LittleEndian

/-!
# Cipher block chaining

Encryption and decryption of a padded message in 16-byte blocks, over an arbitrary
cipher for single blocks. `length_pad` bounds the room that padding needs. The padding is
checked strictly, so that decryption accepts the ciphertexts of encryption and no others
(`decryptPadded_eq_some_iff`).
-/

namespace SteamWire

/-- A cipher block. -/
abbrev Block := Vector UInt8 16

namespace Cbc

/-- PKCS #7 padding: between one and sixteen bytes, each of them their number. -/
def pad (message : Bytes) : Bytes :=
  let n := 16 - message.length % 16
  message ++ List.replicate n (UInt8.ofNat n)

/-- The whole blocks of a buffer. -/
def blocks (b : Bytes) : List Block :=
  (List.range (b.length / 16)).map fun i => Vector.ofFn fun j => b.getD (16 * i + j) 0

/-- Chain the blocks: each is masked with the ciphertext of the one before it. -/
def chain (encryptBlock : Block → Block) : Block → List Block → List Block
  | _, [] => []
  | iv, block :: rest =>
    let encrypted := encryptBlock (block.zipWith (· ^^^ ·) iv)
    encrypted :: chain encryptBlock encrypted rest

/-- Undo the chaining. -/
def unchain (decryptBlock : Block → Block) : Block → List Block → List Block
  | _, [] => []
  | iv, block :: rest =>
    (decryptBlock block).zipWith (· ^^^ ·) iv :: unchain decryptBlock block rest

/-- Take the padding off: every byte of it has to be right. -/
def unpad (b : Bytes) : Option Bytes :=
  match b.getLast? with
  | none => none
  | some n =>
    if n ≠ 0 ∧ n.toNat ≤ 16 ∧ b.drop (b.length - n.toNat) = List.replicate n.toNat n then
      some (b.take (b.length - n.toNat))
    else none

/-- The ciphertext of a message. -/
def encrypt (encryptBlock : Block → Block) (iv : Block) (message : Bytes) : Bytes :=
  (chain encryptBlock iv (blocks (pad message))).flatMap Vector.toList

/-- Encrypt the first `length` bytes of a buffer in place, which fails without room for the
padding; gives the part of the buffer that holds the ciphertext. -/
def encryptPadded (encryptBlock : Block → Block) (iv : Block) (buffer : Bytes) (length : Nat) :
    Option Bytes :=
  let message := buffer.take length
  if (pad message).length ≤ buffer.length then some (encrypt encryptBlock iv message) else none

/-- Decrypt a buffer of whole blocks, in place. -/
def decryptPadded (decryptBlock : Block → Block) (iv : Block) (buffer : Bytes) : Option Bytes :=
  if buffer.length % 16 = 0 then
    unpad ((unchain decryptBlock iv (blocks buffer)).flatMap Vector.toList)
  else none

variable {encryptBlock decryptBlock : Block → Block} {iv : Block} {message b : Bytes}

theorem length_pad : (pad message).length = message.length + (16 - message.length % 16) := by
  simp [pad]

/-- Sixteen more bytes are always enough. -/
theorem encryptPadded_append {room : Bytes} (hroom : 16 ≤ room.length) :
    encryptPadded encryptBlock iv (message ++ room) message.length =
      some (encrypt encryptBlock iv message) := by
  have hfits : (pad message).length ≤ (message ++ room).length := by
    rw [length_pad, List.length_append]
    omega
  rw [encryptPadded, List.take_left, if_pos hfits]

/-! ### Blocks and padding -/

section Blocks

@[simp] theorem blocks_nil : blocks [] = [] := rfl

theorem blocks_toList_append (block : Block) (rest : Bytes) :
    blocks (block.toList ++ rest) = block :: blocks rest := by
  have hcount : (block.toList ++ rest).length / 16 = rest.length / 16 + 1 := by
    rw [List.length_append, Vector.length_toList]
    omega
  rw [blocks, hcount, List.range_succ_eq_map, List.map_cons, List.map_map]
  refine congrArg₂ List.cons ?_ (List.map_congr_left fun i _ => ?_)
  · ext j hj
    simp [List.getElem?_append]
  · ext j hj
    -- the index is behind the first block
    have hindex : 16 * (i + 1) + j = 16 + (16 * i + j) := by ring
    simp [List.getElem?_append, hindex]

/-- Blocks written one behind the other are cut apart again. -/
theorem blocks_flatMap (bs : List Block) : blocks (bs.flatMap Vector.toList) = bs := by
  induction bs with
  | nil => rfl
  | cons block bs ih => rw [List.flatMap_cons, blocks_toList_append, ih]

theorem length_flatMap (bs : List Block) : (bs.flatMap Vector.toList).length = 16 * bs.length := by
  induction bs with
  | nil => rfl
  | cons block bs ih =>
    rw [List.flatMap_cons, List.length_append, Vector.length_toList, ih, List.length_cons]
    ring

/-- A buffer of whole blocks is its blocks, one behind the other. -/
theorem exists_flatMap_eq (h : b.length % 16 = 0) :
    ∃ bs : List Block, bs.flatMap Vector.toList = b := by
  induction hn : b.length / 16 generalizing b with
  | zero => exact ⟨[], (List.length_eq_zero_iff.mp (by omega)).symm⟩
  | succ n ih =>
    have hfront : (b.take 16).toArray.size = 16 := by simp; omega
    obtain ⟨bs, hbs⟩ := @ih (b.drop 16) (by rw [List.length_drop]; omega)
      (by rw [List.length_drop]; omega)
    refine ⟨⟨(b.take 16).toArray, hfront⟩ :: bs, ?_⟩
    rw [List.flatMap_cons, hbs]
    exact List.take_append_drop 16 b

theorem flatMap_blocks (h : b.length % 16 = 0) : (blocks b).flatMap Vector.toList = b := by
  obtain ⟨bs, rfl⟩ := exists_flatMap_eq h
  rw [blocks_flatMap]

/-- The padding of a message is one to sixteen bytes, and fills the last block. -/
theorem length_pad_mod : (pad message).length % 16 = 0 := by
  rw [length_pad]
  omega

/-- A buffer of whole blocks is unpadded to the one message it is the padded form of. -/
theorem unpad_eq_some_iff (h : b.length % 16 = 0) : unpad b = some message ↔ b = pad message := by
  constructor
  · intro hunpad
    unfold unpad at hunpad
    split at hunpad
    · cases hunpad
    · next n hlast =>
      obtain ⟨⟨hne, hle, hdrop⟩, heq⟩ := Option.ite_none_right_eq_some.mp hunpad
      have hpos : 0 < n.toNat := Nat.pos_of_ne_zero fun hzero => hne (UInt8.toNat_inj.mp hzero)
      have hlen : 0 < b.length :=
        List.length_pos_iff.mpr fun hnil => by rw [hnil] at hlast; cases hlast
      rw [Option.some.injEq] at heq
      -- the number of padding bytes is the one the padding would choose
      have hroom : 16 - message.length % 16 = n.toNat := by
        rw [← heq, List.length_take]
        omega
      rw [pad, hroom, UInt8.ofNat_toNat, ← hdrop, ← heq, List.take_append_drop]
  · rintro rfl
    generalize hn : 16 - message.length % 16 = n
    have hpos : 0 < n := by omega
    have hbyte : (UInt8.ofNat n).toNat = n := by
      rw [UInt8.toNat_ofNat', Nat.mod_eq_of_lt (by omega)]
    have hpad : pad message = message ++ List.replicate n (UInt8.ofNat n) := by rw [pad, hn]
    have hlast : (pad message).getLast? = some (UInt8.ofNat n) := by
      rw [hpad, List.getLast?_append, List.getLast?_replicate, if_neg hpos.ne']
      rfl
    have hne : UInt8.ofNat n ≠ 0 := fun hzero => by
      rw [hzero] at hbyte
      exact hpos.ne hbyte
    have hcut : (pad message).length - n = message.length := by rw [hpad]; simp
    rw [unpad, hlast]
    dsimp only
    rw [hbyte, hcut, hpad, List.drop_left, List.take_left, if_pos ⟨hne, by omega, rfl⟩]

end Blocks

/-! ### Decryption -/

section Decrypt

theorem zipWith_xor_cancel (block mask : Block) :
    (block.zipWith (· ^^^ ·) mask).zipWith (· ^^^ ·) mask = block := by
  ext i hi
  rw [Vector.getElem_zipWith, Vector.getElem_zipWith, UInt8.xor_assoc, UInt8.xor_self, UInt8.xor_zero]

theorem unchain_chain (hinv : ∀ block, decryptBlock (encryptBlock block) = block) (iv : Block)
    (bs : List Block) : unchain decryptBlock iv (chain encryptBlock iv bs) = bs := by
  induction bs generalizing iv with
  | nil => rfl
  | cons block bs ih => rw [chain, unchain, hinv, zipWith_xor_cancel, ih]

theorem chain_unchain (hinv : ∀ block, encryptBlock (decryptBlock block) = block) (iv : Block)
    (bs : List Block) : chain encryptBlock iv (unchain decryptBlock iv bs) = bs := by
  induction bs generalizing iv with
  | nil => rfl
  | cons block bs ih => rw [unchain, chain, zipWith_xor_cancel, hinv, ih]

/-- Decryption accepts exactly the ciphertexts of encryption. -/
theorem decryptPadded_eq_some_iff (hleft : ∀ block, decryptBlock (encryptBlock block) = block)
    (hright : ∀ block, encryptBlock (decryptBlock block) = block) {c : Bytes} :
    decryptPadded decryptBlock iv c = some message ↔ c = encrypt encryptBlock iv message := by
  constructor
  · intro h
    obtain ⟨hwhole, hunpad⟩ := Option.ite_none_right_eq_some.mp h
    obtain ⟨bs, rfl⟩ := exists_flatMap_eq hwhole
    -- the decrypted blocks are the blocks of the padded message
    rw [blocks_flatMap] at hunpad
    have hpad := (unpad_eq_some_iff (by rw [length_flatMap]; omega)).mp hunpad
    rw [encrypt, ← hpad, blocks_flatMap, chain_unchain hright]
  · rintro rfl
    have hwhole : (encrypt encryptBlock iv message).length % 16 = 0 := by
      rw [encrypt, length_flatMap]
      omega
    rw [decryptPadded, if_pos hwhole, encrypt, blocks_flatMap, unchain_chain hleft,
      flatMap_blocks length_pad_mod, unpad_eq_some_iff length_pad_mod]

end Decrypt

end Cbc

end SteamWire
