import SteamWire.Crypto.Symmetric
import SteamWire.Net.Message

/-!
# The TCP framing

Two encoders write frames into the buffer of a framed sink: `FrameCodec` the plain
frames of the handshake, `RawMessageEncoder` the encrypted frames after it. The first
appends to the buffer. The second replaces what the buffer holds, so it appends
exactly when there is nothing to lose (`RawMessageEncoder.feedsAppended_iff`).
-/

namespace SteamWire

/-- The magic number of a frame, `VT01`. -/
def magic : Bytes := [86, 84, 48, 49]

/-- `FrameCodec::encode`: the buffer after a frame is encoded into it. -/
def FrameCodec.encode (item dst : Bytes) : Bytes :=
  dst ++ LittleEndian.u32 (UInt32.ofNat item.length) ++ magic ++ item

/-- The encoder of encrypted frames. -/
structure RawMessageEncoder where
  key : SessionKey

namespace RawMessageEncoder

variable {SteamID : Type} (prims : CryptPrimitives) (encoder : RawMessageEncoder)

/-- Encode a message into the buffer of a framed sink; gives the buffer afterwards. -/
def encode (random : Vector UInt8 3) (item : RawNetMessage SteamID) (_dst : Bytes) :
    Outcome NetworkError Bytes :=
  let emptyBody := item.data.isEmpty
  -- an empty body is grown by a byte for the buffers to be joined, and cut again
  let data := if emptyBody then resize item.data 1 0 else item.data
  let raw := item.headerBuffer ++ data
  let raw := if emptyBody then raw.take (raw.length - 1) else raw
  let ivBuffer := item.ivBuffer.getD (List.replicate 16 0)
  (Crypt.symmetricEncryptWithIvBuffer prims random ivBuffer raw encoder.key).bind fun encrypted =>
    let buf := (item.frameHeaderBuffer.getD (List.replicate 8 0)).take 0
    let buf := buf ++ LittleEndian.u32 (UInt32.ofNat encrypted.length) ++ magic
    let buf := buf ++ encrypted
    -- `*dst = buf`: the sink's buffer is assigned, not extended
    .ok buf

/-- Encode messages one after another, each with the random bytes drawn for it. -/
def feed : List (Vector UInt8 3 × RawNetMessage SteamID) → Bytes → Outcome NetworkError Bytes
  | [], dst => .ok dst
  | (random, item) :: items, dst =>
    (encode prims encoder random item dst).bind fun dst => feed items dst

/-- The encrypted frame of a message. -/
def frame (random : Vector UInt8 3) (item : RawNetMessage SteamID) : Outcome NetworkError Bytes :=
  (Crypt.symmetricEncrypt prims random item.intoBytes encoder.key).bind fun c =>
    .ok (LittleEndian.u32 (UInt32.ofNat c.length) ++ magic ++ c)

/-- The frames of messages, one behind the other. -/
def frames : List (Vector UInt8 3 × RawNetMessage SteamID) → Outcome NetworkError Bytes
  | [] => .ok []
  | (random, item) :: items =>
    (frame prims encoder random item).bind fun first =>
      (frames items).bind fun rest => .ok (first ++ rest)

/-- The encoder leaves the buffer with the frame of the message behind what it held. -/
def AppendsFrame (random : Vector UInt8 3) (item : RawNetMessage SteamID) (dst : Bytes) : Prop :=
  ∃ c, Crypt.symmetricEncrypt prims random (item.headerBuffer ++ item.data) encoder.key =
      (.ok c : Outcome NetworkError Bytes) ∧
    encode prims encoder random item dst = .ok (FrameCodec.encode c dst)

/-- Messages fed without draining the buffer leave all their frames in it, in order and
behind what it held. -/
def FeedsAppended (items : List (Vector UInt8 3 × RawNetMessage SteamID)) (dst : Bytes) : Prop :=
  ∃ bytes, frames prims encoder items = .ok bytes ∧ feed prims encoder items dst = .ok (dst ++ bytes)

section

variable {prims encoder} {random : Vector UInt8 3} {item : RawNetMessage SteamID} {dst : Bytes}
  {items : List (Vector UInt8 3 × RawNetMessage SteamID)}

/-- Every message has a frame, with at least the frame header in it. -/
theorem exists_frame_eq :
    ∃ c, Crypt.symmetricEncrypt prims random (item.headerBuffer ++ item.data) encoder.key =
        (.ok c : Outcome NetworkError Bytes) ∧
      frame prims encoder random item = .ok (FrameCodec.encode c []) := by
  obtain ⟨c, hc⟩ := @Crypt.exists_symmetricEncrypt_eq NetworkError prims random
    (item.headerBuffer ++ item.data) encoder.key
  refine ⟨c, hc, ?_⟩
  rw [frame, RawNetMessage.intoBytes, hc]
  rfl

theorem length_frameCodec_encode (c : Bytes) :
    (FrameCodec.encode c dst).length = dst.length + 8 + c.length := by
  simp [FrameCodec.encode, magic]
  omega

/-- With room for the initialization vector, the encoder leaves the frame alone in the buffer,
whatever was there. -/
theorem encode_eq_frame (hiv : item.ivBuffer = some (List.replicate 16 0)) :
    encode prims encoder random item dst = frame prims encoder random item := by
  -- the byte that an empty body is grown by is the one that is cut
  have hraw : (if item.data.isEmpty then
        (item.headerBuffer ++ if item.data.isEmpty then resize item.data 1 0 else item.data).take
          ((item.headerBuffer ++ if item.data.isEmpty then resize item.data 1 0
            else item.data).length - 1)
      else item.headerBuffer ++ if item.data.isEmpty then resize item.data 1 0 else item.data) =
      item.headerBuffer ++ item.data := by
    cases hdata : item.data with
    | nil => simp [resize]
    | cons byte rest => simp
  rw [encode]
  dsimp only
  rw [hraw, hiv, Option.getD_some, Crypt.symmetricEncryptWithIvBuffer_eq (by simp), frame,
    RawNetMessage.intoBytes]
  rfl

/-- A frame appended is a frame that finds the buffer empty. -/
theorem appendsFrame_iff_dst_nil (hiv : item.ivBuffer = some (List.replicate 16 0)) :
    AppendsFrame prims encoder random item dst ↔ dst = [] := by
  obtain ⟨c, hc, hframe⟩ := @exists_frame_eq SteamID prims encoder random item
  constructor
  · rintro ⟨c', hc', hencode⟩
    rw [hc, Outcome.ok.injEq] at hc'
    rw [encode_eq_frame hiv, hframe, Outcome.ok.injEq, hc'] at hencode
    have hlength := congrArg List.length hencode
    rw [length_frameCodec_encode, length_frameCodec_encode, List.length_nil] at hlength
    exact List.length_eq_zero_iff.mp (by omega)
  · rintro rfl
    exact ⟨c, hc, by rw [encode_eq_frame hiv, hframe]⟩

/-- After a nonempty run of messages the buffer holds the last of their frames. -/
theorem exists_feed_cons_eq (hiv : ∀ p ∈ (random, item) :: items,
      p.2.ivBuffer = some (List.replicate 16 0)) :
    ∃ before last, frames prims encoder ((random, item) :: items) = .ok (before ++ last) ∧
      feed prims encoder ((random, item) :: items) dst = .ok last ∧
      (before = [] ↔ items = []) := by
  induction items generalizing random item dst with
  | nil =>
    obtain ⟨c, -, hframe⟩ := @exists_frame_eq SteamID prims encoder random item
    refine ⟨[], FrameCodec.encode c [], ?_, ?_, by simp⟩
    · simp [frames, hframe]
    · simp [feed, encode_eq_frame (hiv _ (List.mem_singleton_self _)), hframe]
  | cons next items ih =>
    obtain ⟨c, -, hframe⟩ := @exists_frame_eq SteamID prims encoder random item
    have hhead := @encode_eq_frame SteamID prims encoder random item dst (hiv _ List.mem_cons_self)
    -- what the first message leaves in the buffer is lost with the next one
    obtain ⟨before, last, hframes, hfeed, -⟩ :=
      @ih next.1 next.2 (FrameCodec.encode c []) fun p hp => hiv p (List.mem_cons_of_mem _ hp)
    refine ⟨FrameCodec.encode c [] ++ before, last, ?_, ?_, ?_⟩
    · rw [frames, hframe, Outcome.bind_ok, hframes, Outcome.bind_ok, List.append_assoc]
    · rw [feed, hhead, hframe, Outcome.bind_ok]
      exact hfeed
    · have hne : FrameCodec.encode c [] ≠ [] := fun h => by
        have hlength := @length_frameCodec_encode [] c
        rw [h, List.length_nil] at hlength
        omega
      simp [hne]

/-- Only a run of at most one message, into an empty buffer, leaves all frames there. -/
theorem feedsAppended_iff_of_ivBuffer (hiv : ∀ p ∈ items,
      p.2.ivBuffer = some (List.replicate 16 0)) :
    FeedsAppended prims encoder items dst ↔ items = [] ∨ dst = [] ∧ items.length = 1 := by
  cases items with
  | nil => exact ⟨fun _ => .inl rfl, fun _ => ⟨[], rfl, by simp [feed]⟩⟩
  | cons first rest =>
    obtain ⟨before, last, hframes, hfeed, hbefore⟩ := @exists_feed_cons_eq SteamID prims encoder
      first.1 first.2 dst rest hiv
    have hall : FeedsAppended prims encoder (first :: rest) dst ↔ dst = [] ∧ before = [] := by
      constructor
      · rintro ⟨bytes, hbytes, hdst⟩
        rw [hframes, Outcome.ok.injEq] at hbytes
        rw [hfeed, Outcome.ok.injEq, ← hbytes, ← List.append_assoc] at hdst
        exact List.append_eq_nil_iff.mp (List.self_eq_append_left.mp hdst)
      · rintro ⟨rfl, rfl⟩
        exact ⟨last, hframes, hfeed⟩
    simp [hall, hbefore]

end

/-! ### Constructed messages -/

section Constructed

variable [SteamIdOps SteamID] [DecidableEq SteamID] {codec : HeaderCodec}
  {items : List (Vector UInt8 3 × RawNetMessage SteamID)} {dst : Bytes}

/-- For constructed messages: each is appended exactly to an empty buffer, and all of them
only when there is one at most, and the buffer is empty for it. -/
theorem feedsAppended_iff (hbuilt : ∀ p ∈ items, p.2.IsConstructed codec) :
    (∀ p ∈ items, AppendsFrame prims encoder p.1 p.2 dst ↔ dst = []) ∧
      (FeedsAppended prims encoder items dst ↔ items = [] ∨ dst = [] ∧ items.length = 1) :=
  ⟨fun p hp => appendsFrame_iff_dst_nil (hbuilt p hp).ivBuffer_eq,
    feedsAppended_iff_of_ivBuffer fun p hp => (hbuilt p hp).ivBuffer_eq⟩

/-- A call with a body of two bytes. -/
def serviceMethodMessage : RawNetMessage UInt64 where
  kind := EMsg.kEMsgServiceMethodCallFromClient.kind
  isProtobuf := true
  header := RawNetMessage.serviceMethodHeader
  data := [8, 1]
  frameHeaderBuffer := some (List.replicate 8 0)
  ivBuffer := some (List.replicate 16 0)
  headerBuffer := RawNetMessage.serviceMethodHeader.write HeaderCodec.wire
    EMsg.kEMsgServiceMethodCallFromClient true

theorem serviceMethodMessage_isConstructed :
    serviceMethodMessage.IsConstructed HeaderCodec.wire :=
  ⟨EMsg, inferInstance, RawNetMessage.serviceMethodHeader, RawNetMessage.twoByteMessage,
    .kEMsgServiceMethodCallFromClient, true, rfl⟩

/-- The identity as the cipher, and a constant as the MAC. -/
def idPrimitives : CryptPrimitives where
  encryptBlock _ block := block
  hmacSha1 _ _ := Vector.replicate 20 0

/-- One message, with zeros for its random bytes. -/
def oneMessage : List (Vector UInt8 3 × RawNetMessage UInt64) :=
  [(Vector.replicate 3 0, serviceMethodMessage)]

theorem feedsAppended_iff_oneMessage :
    (∀ p ∈ oneMessage, AppendsFrame idPrimitives ⟨Vector.replicate 32 0⟩ p.1 p.2 [] ↔
        ([] : Bytes) = []) ∧
      (FeedsAppended idPrimitives ⟨Vector.replicate 32 0⟩ oneMessage [] ↔
        oneMessage = [] ∨ ([] : Bytes) = [] ∧ oneMessage.length = 1) :=
  @feedsAppended_iff UInt64 idPrimitives ⟨Vector.replicate 32 0⟩ _ _ HeaderCodec.wire oneMessage []
    fun p hp => by
      rw [List.mem_singleton.mp hp]
      exact serviceMethodMessage_isConstructed

/-- One byte in the buffer is lost, with every cipher, key and random bytes. -/
theorem not_appendsFrame_pending_byte :
    serviceMethodMessage.IsConstructed HeaderCodec.wire ∧
      ∀ prims encoder random, ¬ AppendsFrame prims encoder random serviceMethodMessage [22] :=
  ⟨serviceMethodMessage_isConstructed, fun _ _ _ h =>
    absurd ((appendsFrame_iff_dst_nil rfl).mp h) (by decide)⟩

end Constructed

end RawMessageEncoder

end SteamWire
