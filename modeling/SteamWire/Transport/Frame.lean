import SteamWire.Semantics.Decoder
import SteamWire.Transport.Tcp

/-!
# Decoding plain frames

`FrameCodec::decode` takes the frames off the front of the receive buffer that
`FrameCodec::encode` put into it. It is an incremental decoder, so the cuts between
the chunks that TCP delivers are of no account (`FrameCodec.decodes_fragments`).
-/

namespace SteamWire

open Semantics

/-- The header of a frame. -/
structure Header where
  length : UInt32
  magic : Bytes
  deriving DecidableEq, Repr

namespace Header

/-- The header in the first eight bytes, in the byte order of a little-endian machine. -/
def cast (bytes : Bytes) : Header where
  length := UInt32.ofNat (LittleEndian.decode (bytes.take 4))
  magic := (bytes.drop 4).take 4

/-- `Header::validate`. -/
def validate (header : Header) : Except NetworkError Unit :=
  if header.magic ≠ SteamWire.magic then .error .invalidHeader else .ok ()

end Header

namespace FrameCodec

/-- `FrameCodec::decode`: the result, and the buffer afterwards. -/
def decode (src : Bytes) : Except NetworkError (Option Bytes) × Bytes :=
  if src.length < 8 then (.ok none, src)
  else
    let header := Header.cast (src.take 8)
    match header.validate with
    | .error e => (.error e, src)
    | .ok () =>
      if src.length < 8 + header.length.toNat then (.ok none, src)
      else
        let src := src.drop 8
        (.ok (some (src.take header.length.toNat)), src.drop header.length.toNat)

/-! ### One call -/

section Decode

variable {src rest payload more : Bytes} {e : NetworkError}

/-- The length a buffer starts with. -/
def frameLength (src : Bytes) : Nat := (UInt32.ofNat (LittleEndian.decode (src.take 4))).toNat

/-- What a call does, by what the buffer holds. -/
theorem decode_eq (src : Bytes) :
    decode src =
      if src.length < 8 then (.ok none, src)
      else if (src.drop 4).take 4 ≠ magic then (.error .invalidHeader, src)
      else if src.length < 8 + frameLength src then (.ok none, src)
      else (.ok (some ((src.drop 8).take (frameLength src))), src.drop (8 + frameLength src)) := by
  have hlength : (src.take 8).take 4 = src.take 4 := by rw [List.take_take]; rfl
  have hmagic : ((src.take 8).drop 4).take 4 = (src.drop 4).take 4 := by
    rw [List.drop_take, List.take_take]
    rfl
  unfold decode Header.validate Header.cast
  simp only [hlength, hmagic]
  by_cases h8 : src.length < 8
  · rw [if_pos h8, if_pos h8]
  rw [if_neg h8, if_neg h8]
  by_cases hbad : (src.drop 4).take 4 ≠ magic
  · rw [if_pos hbad, if_pos hbad]
  · rw [if_neg hbad, if_neg hbad, List.drop_drop]
    rfl

/-- The calls that take a payload off the buffer. -/
theorem decode_eq_some_iff : decode src = (.ok (some payload), rest) ↔
    8 + frameLength src ≤ src.length ∧ (src.drop 4).take 4 = magic ∧
      payload = (src.drop 8).take (frameLength src) ∧ rest = src.drop (8 + frameLength src) := by
  rw [decode_eq]
  by_cases h8 : src.length < 8
  · rw [if_pos h8]
    exact iff_of_false (by simp) fun h => by omega
  rw [if_neg h8]
  by_cases hbad : (src.drop 4).take 4 ≠ magic
  · rw [if_pos hbad]
    exact iff_of_false (by simp) fun h => hbad h.2.1
  rw [if_neg hbad]
  by_cases hframe : src.length < 8 + frameLength src
  · rw [if_pos hframe]
    exact iff_of_false (by simp) fun h => by omega
  · rw [if_neg hframe]
    simp only [Prod.mk.injEq, Except.ok.injEq, Option.some.injEq, eq_comm (b := payload),
      eq_comm (b := rest)]
    exact ⟨fun h => ⟨not_lt.mp hframe, not_not.mp hbad, h⟩, fun h => h.2.2⟩

/-- The calls that fail. -/
theorem decode_eq_error_iff : decode src = (.error e, rest) ↔
    8 ≤ src.length ∧ (src.drop 4).take 4 ≠ magic ∧ e = .invalidHeader ∧ rest = src := by
  rw [decode_eq]
  by_cases h8 : src.length < 8
  · rw [if_pos h8]
    exact iff_of_false (by simp) fun h => by omega
  rw [if_neg h8]
  by_cases hbad : (src.drop 4).take 4 ≠ magic
  · rw [if_pos hbad]
    simp only [Prod.mk.injEq, Except.error.injEq, eq_comm (b := e), eq_comm (b := rest)]
    exact ⟨fun h => ⟨not_lt.mp h8, hbad, h⟩, fun h => h.2.2⟩
  · rw [if_neg hbad]
    refine iff_of_false ?_ fun h => hbad h.2.1
    split_ifs <;> simp

theorem rest_of_none (h : decode src = (.ok none, rest)) : rest = src := by
  rw [decode_eq] at h
  split_ifs at h <;> cases h <;> rfl

/-- A payload is taken off together with the eight bytes in front of it. -/
theorem of_some (h : decode src = (.ok (some payload), rest)) :
    8 + payload.length ≤ src.length ∧ payload = (src.drop 8).take payload.length ∧
      rest = src.drop (8 + payload.length) := by
  obtain ⟨hframe, -, hpayload, hrest⟩ := decode_eq_some_iff.mp h
  have hlen : payload.length = frameLength src := by
    rw [hpayload, List.length_take, List.length_drop]
    omega
  rw [hlen]
  exact ⟨hframe, hpayload, hrest⟩

/-- The front of a buffer is not changed by what is appended. -/
private theorem front_append (h : 8 ≤ src.length) (more : Bytes) :
    frameLength (src ++ more) = frameLength src ∧
      ((src ++ more).drop 4).take 4 = (src.drop 4).take 4 := by
  constructor
  · rw [frameLength, List.take_append_of_le_length (by omega), frameLength]
  · rw [List.drop_append_of_le_length (by omega),
      List.take_append_of_le_length (by rw [List.length_drop]; omega)]

/-- A payload that is there is taken off whatever is behind it. -/
theorem some_append (more : Bytes) (h : decode src = (.ok (some payload), rest)) :
    decode (src ++ more) = (.ok (some payload), rest ++ more) := by
  obtain ⟨hframe, hmagic, rfl, rfl⟩ := decode_eq_some_iff.mp h
  have h8 : 8 ≤ src.length := by omega
  obtain ⟨hlength, hsame⟩ := front_append h8 more
  rw [decode_eq_some_iff, hlength, hsame, List.length_append]
  refine ⟨by omega, hmagic, ?_, ?_⟩
  · rw [List.drop_append_of_le_length (by omega),
      List.take_append_of_le_length (by rw [List.length_drop]; omega)]
  · rw [List.drop_append_of_le_length hframe]

/-- A magic number that is wrong stays wrong. -/
theorem error_append (more : Bytes) (h : decode src = (.error e, rest)) :
    ∃ rest', decode (src ++ more) = (.error e, rest') := by
  obtain ⟨h8, hmagic, rfl, -⟩ := decode_eq_error_iff.mp h
  obtain ⟨-, hsame⟩ := front_append h8 more
  exact ⟨_, decode_eq_error_iff.mpr ⟨by rw [List.length_append]; omega, hsame ▸ hmagic, rfl, rfl⟩⟩

/-- A frame is taken off again, whatever follows it. -/
theorem decode_encode (hlen : payload.length < 2 ^ 32) :
    decode (encode payload [] ++ more) = (.ok (some payload), more) := by
  have hword := LittleEndian.ofNat_decode_u32 (UInt32.ofNat payload.length)
  have hsize : (UInt32.ofNat payload.length).toNat = payload.length := by
    rw [UInt32.toNat_ofNat', Nat.mod_eq_of_lt hlen]
  generalize hfield : LittleEndian.u32 (UInt32.ofNat payload.length) = field at hword
  have hfieldLen : field.length = 4 := by rw [← hfield, LittleEndian.length_u32]
  have heq : encode payload [] ++ more = field ++ (magic ++ (payload ++ more)) := by
    simp [encode, hfield, List.append_assoc]
  have hframe : frameLength (field ++ (magic ++ (payload ++ more))) = payload.length := by
    rw [frameLength, List.take_left' hfieldLen, hword, hsize]
  have hbody : (field ++ (magic ++ (payload ++ more))).drop 8 = payload ++ more := by
    rw [← List.append_assoc, List.drop_left' (by simp [hfieldLen, magic])]
  have hmagic : ((field ++ (magic ++ (payload ++ more))).drop 4).take 4 = magic := by
    rw [List.drop_left' hfieldLen, List.take_left' (by rfl)]
  have htotal : (field ++ (magic ++ (payload ++ more))).length =
      8 + payload.length + more.length := by
    simp [hfieldLen, magic]
    omega
  rw [heq, decode_eq_some_iff, hframe, hmagic, htotal, ← List.drop_drop, hbody, List.take_left,
    List.drop_left]
  exact ⟨by omega, rfl, rfl, rfl⟩

end Decode

/-! ### Streams of frames -/

section Stream

/-- The codec as an incremental decoder. -/
def decoder : Decoder UInt8 NetworkError Bytes where
  decode := decode
  rest_of_none h := rest_of_none h
  length_lt_of_some h := by
    obtain ⟨hle, -, rfl⟩ := of_some h
    rw [List.length_drop]
    omega
  some_append more h := some_append more h
  error_append more h := error_append more h

@[simp] theorem decoder_decode : decoder.decode = decode := rfl

theorem drain_nil : decoder.drain [] = .ok ([], []) := by
  have hnone : decoder.decode [] = (.ok none, []) := rfl
  exact Decoder.drain_of_none hnone

/-- Payloads, each in its frame. -/
def encodeAll (payloads : List Bytes) : Bytes := (payloads.map fun p => encode p []).flatten

theorem encodeAll_cons (payload : Bytes) (payloads : List Bytes) :
    encodeAll (payload :: payloads) = encode payload [] ++ encodeAll payloads := by
  rw [encodeAll, List.map_cons, List.flatten_cons, encodeAll]

/-- A stream of whole frames is drained to its payloads. -/
theorem drain_encodeAll {payloads : List Bytes} (hlen : ∀ p ∈ payloads, p.length < 2 ^ 32) :
    decoder.drain (encodeAll payloads) = .ok (payloads, []) := by
  induction payloads with
  | nil => exact drain_nil
  | cons payload payloads ih =>
    have hfirst : decoder.decode (encodeAll (payload :: payloads)) =
        (.ok (some payload), encodeAll payloads) := by
      rw [encodeAll_cons, decoder_decode, decode_encode (hlen _ List.mem_cons_self)]
    rw [Decoder.drain_of_some hfirst, ih fun p hp => hlen p (List.mem_cons_of_mem _ hp)]
    rfl

/-- What a call takes off the buffer, and when it fails. -/
structure DecodeContract (src : Bytes) : Prop where
  none : ∀ {rest}, decode src = (.ok none, rest) → rest = src
  some : ∀ {payload rest}, decode src = (.ok (some payload), rest) →
    8 + payload.length ≤ src.length ∧ payload = (src.drop 8).take payload.length ∧
      rest = src.drop (8 + payload.length)
  error : ∀ {e rest}, decode src = (.error e, rest) → e = .invalidHeader
  invalidHeader : (∃ rest, decode src = (.error .invalidHeader, rest)) ↔
    8 ≤ src.length ∧ (src.drop 4).take 4 ≠ magic

theorem decodeContract (src : Bytes) : DecodeContract src where
  none h := rest_of_none h
  some h := of_some h
  error h := (decode_eq_error_iff.mp h).2.2.1
  invalidHeader := by
    constructor
    · rintro ⟨rest, h⟩
      obtain ⟨h8, hmagic, -⟩ := decode_eq_error_iff.mp h
      exact ⟨h8, hmagic⟩
    · rintro ⟨h8, hmagic⟩
      exact ⟨src, decode_eq_error_iff.mpr ⟨h8, hmagic, rfl, rfl⟩⟩

/-- However a stream of frames is cut into chunks, exactly its payloads come out, and nothing
stays in the buffer. -/
theorem decodes_fragments :
    (∀ payloads chunks : List Bytes, (∀ p ∈ payloads, p.length < 2 ^ 32) →
        chunks.flatten = encodeAll payloads → decoder.feed chunks [] = .ok (payloads, [])) ∧
      ∀ src, DecodeContract src := by
  refine ⟨fun payloads chunks hlen hchunks => ?_, decodeContract⟩
  rw [Decoder.feed_eq_drain chunks drain_nil, List.nil_append, hchunks, drain_encodeAll hlen]

/-- Two payloads, one of them empty, cut inside a length, inside a magic number and inside the
payload. -/
theorem decodes_fragments_two :
    decoder.feed [[2, 0], [0, 0, 86, 84], [48, 49, 7], [8, 0, 0, 0, 0, 86], [84, 48, 49]] [] =
      .ok ([[7, 8], []], []) :=
  decodes_fragments.1 [[7, 8], []] _ (by decide) (by decide)

end Stream

end FrameCodec

end SteamWire
