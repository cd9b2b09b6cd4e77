import Mathlib.Data.List.Forall2
import Mathlib.Data.List.Infix
import SteamWire.Message.Children
import SteamWire.Transport.Session

/-!
# Delivery over TCP

A server that follows the handshake finds the session key in the response of the client and
encrypts its messages with it. Then the client agrees on that key, receives the messages in
the order in which they were sent, none of them twice and none left out
(`TcpSession.receives_in_order`), and is not stuck before it has all of them
(`TcpSession.received_of_quiet`).
-/

namespace SteamWire

open Semantics

/-- The value of a call that returned `Ok`. -/
def Outcome.toOption {ε α : Type*} : Outcome ε α → Option α
  | .ok a => some a
  | _ => none

namespace TcpSession

variable {SteamID : Type} [SteamIdOps SteamID] [DecidableEq SteamID] (crates : TcpCrates)

/-- The messages among the results of a stream. -/
def messagesOf (results : List (Outcome NetworkError (RawNetMessage SteamID))) :
    List (RawNetMessage SteamID) :=
  results.filterMap Outcome.toOption

/-- The encrypted key in a response, where the server finds it. -/
def encryptedKeyOf (response : Bytes) : Bytes := (response.drop 36).take (response.length - 44)

/-- A frame holds a message, encrypted with the key. -/
def Seals (key : SessionKey) (message frame : Bytes) : Prop :=
  ∃ random, Crypt.symmetricEncrypt crates.cipher.toCryptPrimitives random message key =
    (.ok frame : Outcome CryptError Bytes)

variable (SteamID) in
/-- The frames of a server that follows the handshake: a request, a result, and its messages
encrypted with the key. -/
structure ServerFrames (key : SessionKey) (greeting verdict : Bytes) (messages frames : List Bytes) :
    Prop where
  request_eq : ∃ request,
    nextMessage crates (@ChannelEncryptRequest.reader SteamID) (some (.ok greeting)) = .ok request
  result_eq :
    nextMessage crates (@ChannelEncryptResult.reader SteamID) (some (.ok verdict)) = .ok ⟨1⟩
  seals : List.Forall₂ (Seals crates key) messages frames
  length_lt : ∀ frame ∈ greeting :: verdict :: frames, frame.length < 2 ^ 32

variable {crates} {s : TcpSession SteamID} {key k : SessionKey} {greeting verdict : Bytes}
  {messages frames : List Bytes} {decrypt : Bytes → Option Bytes}

/-! ### The key -/

/-- The response carries the encrypted key. -/
theorem encryptedKeyOf_of_encodeResponse {request : ChannelEncryptRequest} {keys : SessionKeys}
    {response : Bytes} (h : @encodeResponse SteamID _ _ crates request keys [] = .ok response) :
    encryptedKeyOf response = keys.encrypted := by
  have hwrite : (default : NetMessageHeader SteamID).write crates.codec
      EMsg.kEMsgChannelEncryptResponse false = LittleEndian.u32 1304 := rfl
  have hframe : encodeMessage crates (default : NetMessageHeader SteamID)
      ((responseMessage request keys).message crates.crc) EMsg.kEMsgChannelEncryptResponse false [] =
        .ok response := h
  rw [encodeMessage, hwrite, ClientEncryptResponse.message] at hframe
  obtain rfl := Except.ok.inj hframe
  -- 36 bytes stand in front of the key and 8 behind it
  have hparts : ∃ front back : Bytes, front.length = 36 ∧ back.length = 8 ∧
      FrameCodec.encode (LittleEndian.u32 1304 ++ (LittleEndian.u64 0xFFFFFFFFFFFFFFFF ++
        LittleEndian.u64 0xFFFFFFFFFFFFFFFF ++ LittleEndian.u32 request.protocol ++
          LittleEndian.u32 (UInt32.ofNat keys.encrypted.length) ++ keys.encrypted ++
            LittleEndian.u32 (crates.crc keys.encrypted) ++ LittleEndian.u32 0)) [] =
        front ++ (keys.encrypted ++ back) := by
    unfold FrameCodec.encode
    generalize UInt32.ofNat _ = frameLength
    refine ⟨LittleEndian.u32 frameLength ++ (magic ++ (LittleEndian.u32 1304 ++
      (LittleEndian.u64 0xFFFFFFFFFFFFFFFF ++ (LittleEndian.u64 0xFFFFFFFFFFFFFFFF ++
        (LittleEndian.u32 request.protocol ++
          LittleEndian.u32 (UInt32.ofNat keys.encrypted.length)))))),
      LittleEndian.u32 (crates.crc keys.encrypted) ++ LittleEndian.u32 0, ?_, ?_, ?_⟩
    · simp [magic]
    · simp
    · simp only [List.append_assoc, List.nil_append]
  obtain ⟨front, back, hfront, hback, hresponse⟩ := hparts
  have hlen : (front ++ (keys.encrypted ++ back)).length - 44 = keys.encrypted.length := by
    rw [List.length_append, List.length_append, hfront, hback]
    omega
  rw [encryptedKeyOf, responseMessage, hresponse, hlen, List.drop_left' hfront, List.take_left]

/-- A server that can decrypt what the client encrypts finds the key that was accepted. -/
theorem Accepted.key_eq {results : List (Except NetworkError Bytes)} {response : Bytes}
    (h : Accepted SteamID crates results k response)
    (hdecrypt : ∀ seed data, decrypt (crates.encryptWithKey seed data) = some data)
    (hkey : decrypt (encryptedKeyOf response) = some key.toList) : k = key := by
  obtain ⟨keys, request, seed, rfl, -, hkeys, hresponse⟩ := h.answered
  rw [encryptedKeyOf_of_encodeResponse hresponse, hkeys, generateSessionKey, hdecrypt] at hkey
  exact Vector.toList_inj.mp (Option.some.inj hkey)

/-! ### The messages -/

omit [DecidableEq SteamID] in
/-- A frame is received as the message in it. -/
theorem receiveAll_of_seals {message frame : Bytes} (h : Seals crates key message frame) :
    @receiveAll SteamID _ crates key frame =
      flattenOne crates.codec crates.multi (RawNetMessage.read crates.codec message) := by
  obtain ⟨random, hencrypt⟩ := h
  have hlen : 16 ≤ frame.length := by
    rw [Crypt.symmetricEncrypt_eq, Outcome.ok.injEq] at hencrypt
    rw [← hencrypt, List.length_append, Vector.length_toList]
    omega
  have hplain : (⟨frame, frame.length, le_rfl⟩ : BytesMut).symmetricDecrypt crates.cipher key =
      .ok message := by
    rw [BytesMut.symmetricDecrypt_eq]
    exact (Crypt.symmetricDecrypt_eq_ok_iff hlen).mpr ⟨random, hencrypt⟩
  rw [receiveAll, receiveFrame, hplain]
  rfl

omit [DecidableEq SteamID] in
/-- All messages of the server, as long as the stream does not panic. -/
theorem upToPanic_receiveAll (h : List.Forall₂ (Seals crates key) messages frames) :
    Outcome.upToPanic (frames.flatMap (@receiveAll SteamID _ crates key)) =
      flattenMulti crates.codec crates.multi (messages.map (RawNetMessage.read crates.codec)) := by
  have hall : frames.flatMap (@receiveAll SteamID _ crates key) =
      (messages.map (RawNetMessage.read crates.codec)).flatMap
        (flattenOne crates.codec crates.multi) := by
    induction h with
    | nil => rfl
    | cons hfirst _ ih =>
      rw [List.flatMap_cons, receiveAll_of_seals hfirst, ih]
      rfl
  rw [hall, flattenMulti]

omit [DecidableEq SteamID] in
/-- Only frames can panic. -/
theorem panic_mem_flatMap_iff (results : List (Except NetworkError Bytes)) :
    .panic ∈ results.flatMap (@receiveResult SteamID _ crates key) ↔
      .panic ∈ (FramedRead.items results).flatMap (@receiveAll SteamID _ crates key) := by
  induction results with
  | nil => exact Iff.rfl
  | cons r results ih =>
    rw [List.flatMap_cons, List.mem_append, ih]
    cases r with
    | error e =>
      rw [show FramedRead.items (Except.error e :: results) = FramedRead.items results from rfl]
      simp [receiveResult]
    | ok frame =>
      rw [show FramedRead.items (Except.ok frame :: results) = frame :: FramedRead.items results
        from rfl, List.flatMap_cons, List.mem_append]
      rfl

omit [DecidableEq SteamID] in
/-- Only frames hold messages. -/
theorem messagesOf_flatMap (results : List (Except NetworkError Bytes)) :
    messagesOf (results.flatMap (@receiveResult SteamID _ crates key)) =
      messagesOf ((FramedRead.items results).flatMap (receiveAll crates key)) := by
  induction results with
  | nil => rfl
  | cons r results ih =>
    rw [List.flatMap_cons, messagesOf, List.filterMap_append]
    cases r with
    | error e => exact (congrArg₂ (· ++ ·) rfl ih).trans (List.nil_append _)
    | ok frame =>
      rw [show FramedRead.items (Except.ok frame :: results) = frame :: FramedRead.items results
        from rfl, List.flatMap_cons, messagesOf, List.filterMap_append]
      exact congrArg _ ih

/-! ### Receiving -/

omit [DecidableEq SteamID] in
/-- What is read as a message was a frame. -/
theorem exists_of_nextMessage_eq_ok {T : Type} {reader : BodyReader SteamID T} {body : T}
    {result : Option (Except NetworkError Bytes)} (h : nextMessage crates reader result = .ok body) :
    ∃ frame, result = some (.ok frame) := by
  match result, h with
  | some (.ok frame), _ => exact ⟨frame, rfl⟩

/-- A response has bytes in it. -/
theorem Accepted.response_ne_nil {results : List (Except NetworkError Bytes)} {response : Bytes}
    (h : Accepted SteamID crates results key response) : response ≠ [] := by
  obtain ⟨keys, request, seed, -, -, -, hresponse⟩ := h.answered
  rintro rfl
  have hlen := congrArg List.length (Except.ok.inj hresponse)
  simp [FrameCodec.encode] at hlen

/-- The handshake is the first two frames. -/
theorem Accepted.exists_results_eq {results : List (Except NetworkError Bytes)} {response : Bytes}
    (h : Accepted SteamID crates results key response) :
    ∃ first second, results = .ok first :: .ok second :: results.drop 2 := by
  obtain ⟨keys, request, seed, -, hrequest, -⟩ := h.answered
  obtain ⟨first, hfirst⟩ := exists_of_nextMessage_eq_ok hrequest
  obtain ⟨second, hsecond⟩ := exists_of_nextMessage_eq_ok h.result_eq
  match results, hfirst, hsecond with
  | _ :: _ :: _, hfirst, hsecond =>
    obtain rfl := Option.some.inj hfirst
    obtain rfl := Option.some.inj hsecond
    exact ⟨first, second, rfl⟩

omit [DecidableEq SteamID] in
/-- The bytes of a server are its frames. -/
theorem ServerFrames.scan_eq (h : ServerFrames SteamID crates key greeting verdict messages frames) :
    FrameCodec.decoder.scan (FrameCodec.encodeAll (greeting :: verdict :: frames)) =
      (greeting :: verdict :: frames, .ok []) :=
  Decoder.scan_of_drain_eq (FrameCodec.drain_encodeAll h.length_lt)

/-- As far as the bytes of the server have arrived: a session that is connected has the key
that the server has, and it has received a first part of the messages of the server, in their
order, without gaps and without repetitions. -/
theorem receives_in_order (hreach : Reachable (step crates) (· = {}) s)
    (hserver : ServerFrames SteamID crates key greeting verdict messages frames)
    (hdecrypt : ∀ seed data, decrypt (crates.encryptWithKey seed data) = some data)
    (hkey : s.response ≠ [] → decrypt (encryptedKeyOf s.response) = some key.toList)
    (harrived : s.arrived <+: FrameCodec.encodeAll (greeting :: verdict :: frames))
    (hphase : s.phase = .connected k) :
    k = key ∧ messagesOf s.received <+: messagesOf
      (flattenMulti crates.codec crates.multi (messages.map (RawNetMessage.read crates.codec))) := by
  obtain ⟨haccepted, -, hreceived, hreturns⟩ :=
    (handshakeSafe_of_reachable hreach).connected k hphase
  obtain rfl := haccepted.key_eq hdecrypt (hkey haccepted.response_ne_nil)
  refine ⟨rfl, ?_⟩
  -- the frames that were read are the first ones of the server
  obtain ⟨more, hmore⟩ := harrived
  have hitems := (safe_of_reachable hreach).follows.items_prefix more
  rw [hmore, hserver.scan_eq] at hitems
  obtain ⟨first, second, hresults⟩ := haccepted.exists_results_eq
  rw [hresults, show FramedRead.items (Except.ok first :: Except.ok second :: s.results.drop 2) =
      first :: second :: FramedRead.items (s.results.drop 2) from rfl,
    List.cons_prefix_cons, List.cons_prefix_cons] at hitems
  obtain ⟨-, -, hframes⟩ := hitems
  rw [hreceived, panic_mem_flatMap_iff] at hreturns
  rw [hreceived, messagesOf_flatMap, ← upToPanic_receiveAll hserver.seals]
  exact List.IsPrefix.filterMap _
    (Outcome.prefix_upToPanic (List.IsPrefix.flatMap hframes _) hreturns)

/-! ### Progress -/

/-- What a session does by itself: polls and writes. -/
def IsOwn : TcpAction SteamID → Prop
  | .poll _ _ => True
  | .write _ => True
  | _ => False

/-- A reader that is not polled, or not ready, has given all results. -/
theorem results_eq_of_poll_eq_none (hsafe : s.Safe crates) {plain : SessionKey} {seed : Bytes}
    (hphase : s.phase = .awaitRequest ∨ (∃ key, s.phase = .awaitResult key) ∨
      ∃ key, s.phase = .connected key) (hpoll : s.poll crates plain seed = none) :
    s.results = s.allResults := by
  have hfollows := hsafe.follows
  have hnext : s.reader.ended = true ∨
      ∃ reader, s.reader.poll FrameCodec.decoder bytesRemaining = (.pending, reader) := by
    unfold poll at hpoll
    rcases hphase with hphase | ⟨key, hphase⟩ | ⟨key, hphase⟩ <;> simp only [hphase] at hpoll <;>
      split at hpoll
    all_goals first
      | exact .inl ‹_›
      | (split at hpoll
         · next reader hread => exact .inr ⟨reader, hread⟩
         · cases hpoll)
  rcases hnext with hended | ⟨reader, hread⟩
  · exact hfollows.eq_results hended
  · exact (hfollows.poll_done (.inr hread)).1

/-- Results that were read are those that arrived. -/
private theorem getElem?_of_prefix {α : Type} {l m : List α} (h : l <+: m) (i : Nat) :
    l[i]? = none ∨ l[i]? = m[i]? := by
  obtain ⟨t, rfl⟩ := h
  by_cases hi : i < l.length
  · exact .inr (List.getElem?_append_left hi).symm
  · exact .inl (List.getElem?_eq_none (not_lt.mp hi))

omit [SteamIdOps SteamID] [DecidableEq SteamID] in
/-- The error that reading ended with. -/
def readError (s : TcpSession SteamID) : Option NetworkError := s.reader.closed.join

omit [SteamIdOps SteamID] [DecidableEq SteamID] in
/-- What is read behind the handshake: the frames, and then the error. -/
def laterResults (s : TcpSession SteamID) (frames : List Bytes) :
    List (Except NetworkError Bytes) :=
  frames.map .ok ++ s.readError.toList.map .error

omit [DecidableEq SteamID] in
/-- Everything a server sends is read as frames, and then the error that its stream breaks
with. -/
theorem ServerFrames.allResults_eq
    (h : ServerFrames SteamID crates key greeting verdict messages frames)
    (harrived : s.arrived = FrameCodec.encodeAll (greeting :: verdict :: frames)) :
    s.allResults = .ok greeting :: .ok verdict :: s.laterResults frames := by
  rw [allResults, FramedRead.results, harrived, h.scan_eq, laterResults, readError]
  cases s.reader.closed with
  | none => rfl
  | some error => cases error <;> rfl

omit [DecidableEq SteamID] in
/-- A server that follows the handshake does not make `connect` fail. -/
theorem Failure.of_serverFrames {results rest : List (Except NetworkError Bytes)} {e : NetworkError}
    (h : Failure SteamID crates (.ok greeting :: .ok verdict :: rest) results e)
    (hserver : ServerFrames SteamID crates key greeting verdict messages frames)
    (hresults : results <+: .ok greeting :: .ok verdict :: rest) : ∃ error, e = .io error := by
  obtain ⟨request, hrequest⟩ := hserver.request_eq
  cases h with
  | eof hlen hall =>
    -- there are two results at least
    rw [hall, List.length_cons, List.length_cons] at hlen
    omega
  | request hone herr =>
    rw [hone, List.cons_prefix_cons] at hresults
    rw [hresults.1, hrequest] at herr
    cases herr
  | write => exact ⟨_, rfl⟩
  | result htwo herr =>
    rw [htwo, List.cons_prefix_cons, List.cons_prefix_cons] at hresults
    rw [hresults.2.1, hserver.result_eq] at herr
    cases herr
  | refused htwo hok hverdict =>
    rw [htwo, List.cons_prefix_cons, List.cons_prefix_cons] at hresults
    rw [hresults.2.1, hserver.result_eq] at hok
    obtain rfl := Outcome.ok.inj hok
    exact absurd rfl hverdict

omit [DecidableEq SteamID] in
/-- What the stream gives of everything that is read behind the handshake. -/
theorem flatMap_laterResults (s : TcpSession SteamID) (key : SessionKey) (frames : List Bytes) :
    (s.laterResults frames).flatMap (receiveResult crates key) =
      frames.flatMap (@receiveAll SteamID _ crates key) ++ s.readError.toList.map .err := by
  rw [laterResults, List.flatMap_append, List.flatMap_map]
  cases s.readError <;> rfl

/-- A session of such a server panics on a message only, with all messages before it. -/
theorem Panic.received_eq (h : Panic crates s)
    (hserver : ServerFrames SteamID crates key greeting verdict messages frames)
    (hdecrypt : ∀ seed data, decrypt (crates.encryptWithKey seed data) = some data)
    (hkey : s.response ≠ [] → decrypt (encryptedKeyOf s.response) = some key.toList)
    (hresults : s.results <+: .ok greeting :: .ok verdict :: s.laterResults frames) :
    s.received = flattenMulti crates.codec crates.multi
      (messages.map (RawNetMessage.read crates.codec)) ∧ .panic ∈ s.received := by
  obtain ⟨request, hrequest⟩ := hserver.request_eq
  cases h with
  | request _ _ _ h =>
    rcases getElem?_of_prefix hresults 0 with hnone | hsome
    · rw [hnone] at h
      cases h
    · rw [hsome] at h
      cases hrequest.symm.trans h
  | result _ _ _ h =>
    rcases getElem?_of_prefix hresults 1 with hnone | hsome
    · rw [hnone] at h
      cases h
    · rw [hsome] at h
      cases hserver.result_eq.symm.trans h
  | @receive k haccepted _ hreceived hlast h =>
    refine ⟨?_, h⟩
    obtain rfl := haccepted.key_eq hdecrypt (hkey haccepted.response_ne_nil)
    obtain ⟨first, second, htwo⟩ := haccepted.exists_results_eq
    rw [htwo, List.cons_prefix_cons, List.cons_prefix_cons] at hresults
    have hfirst : s.received <+: frames.flatMap (receiveAll crates k) ++
        s.readError.toList.map .err := by
      rw [hreceived, ← flatMap_laterResults]
      exact List.IsPrefix.flatMap hresults.2.2 _
    -- the panic is in one of the frames, as the error behind them is none
    have hmem : .panic ∈ frames.flatMap (@receiveAll SteamID _ crates k) := by
      rcases List.mem_append.mp (hfirst.subset h) with hmem | hmem
      · exact hmem
      · obtain ⟨e, -, he⟩ := List.mem_map.mp hmem
        cases he
    calc s.received = Outcome.upToPanic s.received := hlast.symm
      _ = Outcome.upToPanic (frames.flatMap (receiveAll crates k) ++
            s.readError.toList.map .err) := Outcome.upToPanic_eq_of_prefix hfirst h
      _ = Outcome.upToPanic (frames.flatMap (receiveAll crates k)) :=
          (Outcome.upToPanic_eq_of_prefix (List.prefix_append ..) hmem).symm
      _ = _ := upToPanic_receiveAll hserver.seals

/-- When all bytes of the server have arrived, a session is not stuck before it has received
all messages, and the error of the reader behind them if there is one; unless the parser
panicked, behind the messages before, or a write failed. -/
theorem received_of_quiet (hreach : Reachable (step crates) (· = {}) s)
    (hserver : ServerFrames SteamID crates key greeting verdict messages frames)
    (hdecrypt : ∀ seed data, decrypt (crates.encryptWithKey seed data) = some data)
    (hkey : s.response ≠ [] → decrypt (encryptedKeyOf s.response) = some key.toList)
    (harrived : s.arrived = FrameCodec.encodeAll (greeting :: verdict :: frames))
    (hquiet : Quiet (step crates) IsOwn s) :
    let sent : List (Outcome NetworkError (RawNetMessage SteamID)) :=
      flattenMulti crates.codec crates.multi (messages.map (RawNetMessage.read crates.codec))
    (s.phase = .connected key ∧ .panic ∉ sent ∧
        s.received = sent ++ s.readError.toList.map .err) ∨
      (s.phase = .panicked ∧ .panic ∈ sent ∧ s.received = sent) ∨
        ∃ e, s.phase = .failed (.io e) := by
  intro sent
  have hsafe := safe_of_reachable hreach
  have hall := hserver.allResults_eq harrived
  have hresults : s.results <+: s.allResults := hsafe.follows.given_prefix
  rw [hall] at hresults
  have hpoll := hquiet (.poll key []) trivial
  have hphase := hsafe.phase
  rw [PhaseSafe] at hphase
  cases hcase : s.phase with
  | awaitRequest =>
    rw [hcase] at hphase
    have hread := results_eq_of_poll_eq_none hsafe (.inl hcase) hpoll
    rw [hphase.1, hall] at hread
    cases hread
  | sendResponse keys =>
    -- the response can be written, or it is
    exfalso
    by_cases hempty : s.writer = []
    · rw [step, poll, hcase] at hpoll
      simp [hempty] at hpoll
    · have hwrite := hquiet (.write 1) trivial
      rw [step, isLive, hcase, if_pos] at hwrite
      · cases hwrite
      · have := List.length_pos_iff.mpr hempty
        simp
        omega
  | awaitResult key =>
    rw [hcase] at hphase
    have hread := results_eq_of_poll_eq_none hsafe (.inr (.inl ⟨key, hcase⟩)) hpoll
    have hlen := hphase.1
    rw [hread, hall] at hlen
    simp at hlen
  | connected k =>
    rw [hcase] at hphase
    obtain ⟨-, -, haccepted, hreceived, hreturns⟩ := hphase
    obtain rfl := haccepted.key_eq hdecrypt (hkey haccepted.response_ne_nil)
    rw [results_eq_of_poll_eq_none hsafe (.inr (.inr ⟨k, hcase⟩)) hpoll, hall, List.drop_succ_cons,
      List.drop_succ_cons, List.drop_zero, flatMap_laterResults] at hreceived
    have hframes : .panic ∉ frames.flatMap (@receiveAll SteamID _ crates k) := fun h =>
      hreturns (hreceived ▸ List.mem_append_left _ h)
    have hsent : sent = frames.flatMap (receiveAll crates k) :=
      (upToPanic_receiveAll hserver.seals).symm.trans (Outcome.upToPanic_eq_self hframes)
    refine .inl ⟨rfl, ?_, ?_⟩
    · rw [hsent]
      exact hframes
    · rw [hsent, hreceived]
  | failed e =>
    rw [hcase, hall] at hphase
    obtain ⟨-, hfailure, -⟩ := hphase
    obtain ⟨error, rfl⟩ := hfailure.of_serverFrames hserver hresults
    exact .inr (.inr ⟨error, rfl⟩)
  | panicked =>
    rw [hcase] at hphase
    obtain ⟨hreceived, hpanic⟩ := hphase.received_eq hserver hdecrypt hkey hresults
    exact .inr (.inl ⟨rfl, by rwa [hreceived] at hpanic, hreceived⟩)

/-! ### A server -/

/-- The request and the result, without their frames. -/
def requestPayload : Bytes := requestFrame.drop 8

def resultPayload : Bytes := resultFrame.drop 8

/-- A message, encrypted. -/
def sealMessage (message : Bytes) : Bytes :=
  (Crypt.symmetricEncrypt maskCrates.cipher.toCryptPrimitives #v[1, 2, 3] message
    (Vector.replicate 32 5) : Outcome CryptError Bytes).toOption.getD []

theorem seals_sealMessage (message : Bytes) :
    Seals maskCrates (Vector.replicate 32 5) message (sealMessage message) := by
  obtain ⟨c, hc⟩ := @Crypt.exists_symmetricEncrypt_eq CryptError
    maskCrates.cipher.toCryptPrimitives #v[1, 2, 3] message (Vector.replicate 32 5)
  refine ⟨_, hc.trans (congrArg _ ?_)⟩
  rw [sealMessage, hc]
  rfl

/-- Two messages in one, and the response to a logon. -/
def serverMessages : List Bytes :=
  [[1, 0, 0, 0] ++ List.replicate 32 0 ++ [0x12, 80] ++
    packBody [RawNetMessage.logOnResponseBytes, [0xc0, 2, 0, 0] ++ List.replicate 32 0],
    RawNetMessage.logOnResponseBytes]

theorem serverFrames_serverMessages : ServerFrames UInt64 maskCrates (Vector.replicate 32 5)
    requestPayload resultPayload serverMessages (serverMessages.map sealMessage) where
  request_eq := ⟨⟨1, 1, Vector.replicate 16 7⟩, by rfl⟩
  result_eq := by rfl
  seals := List.forall₂_map_right_iff.mpr (List.forall₂_same.mpr fun m _ => seals_sealMessage m)
  length_lt := by decide +kernel

/-- All that the server sends. -/
def serverBytes : Bytes :=
  FrameCodec.encodeAll (requestPayload :: resultPayload :: serverMessages.map sealMessage)

/-- The handshake and the first message, while the second one has begun to arrive. -/
def beginningRun : List (TcpAction UInt64) :=
  [.arrive (serverBytes.take 90), .poll (Vector.replicate 32 5) [1], .write 76,
    .poll (Vector.replicate 32 0) [], .poll (Vector.replicate 32 0) [],
    .arrive ((serverBytes.drop 90).take 180), .poll (Vector.replicate 32 0) []]

/-- Behind it, the second message arrives and is received. -/
def deliveryRun : List (TcpAction UInt64) :=
  beginningRun ++ [.arrive (serverBytes.drop 270), .poll (Vector.replicate 32 0) []]

/-- When the multi message is received, the two messages in it have come out. -/
theorem receives_in_order_beginningRun :
    ∃ (s : TcpSession UInt64) (k : SessionKey), run (step maskCrates) {} beginningRun = some s ∧
      s.phase = .connected k ∧ (messagesOf s.received).map (·.kind) = [⟨751⟩, ⟨704⟩] ∧
      k = Vector.replicate 32 5 ∧ messagesOf s.received <+: messagesOf
        (flattenMulti maskCrates.codec maskCrates.multi
          (serverMessages.map (RawNetMessage.read maskCrates.codec))) := by
  have hrun : (run (step maskCrates) ({} : TcpSession UInt64) beginningRun).map (fun s =>
      (s.phase, s.arrived, encryptedKeyOf s.response, (messagesOf s.received).map (·.kind))) =
        some (.connected (Vector.replicate 32 5), serverBytes.take 270, List.replicate 32 5,
          [⟨751⟩, ⟨704⟩]) := by
    decide +kernel
  obtain ⟨s, hs, hfacts⟩ := Option.map_eq_some_iff.mp hrun
  simp only [Prod.mk.injEq] at hfacts
  obtain ⟨hphase, harrived, hkey, hkinds⟩ := hfacts
  refine ⟨s, _, hs, hphase, hkinds, @receives_in_order UInt64 _ _ maskCrates s _ _ _ _ _ _ some
    ⟨{}, beginningRun, rfl, hs⟩ serverFrames_serverMessages (fun _ _ => rfl)
    (fun _ => by rw [hkey]; rfl) ?_ hphase⟩
  rw [harrived]
  exact List.take_prefix _ _

/-- A session with nothing to read and nothing to write is quiet. -/
private theorem quiet_of_pending (hphase : s.phase = .connected k) (hwriter : s.writer = [])
    (hread : (s.reader.poll FrameCodec.decoder bytesRemaining).1.isPending = true) :
    Quiet (step crates) IsOwn s := by
  intro a ha
  cases a with
  | poll plain seed =>
    cases hpoll : s.reader.poll FrameCodec.decoder bytesRemaining with
    | mk result reader =>
      rw [hpoll] at hread
      cases result with
      | pending => simp [step, poll, hphase, hpoll]
      | ready => cases hread
  | write n =>
    rw [step, if_neg]
    rw [hwriter, List.length_nil, Bool.and_eq_true, Bool.and_eq_true, decide_eq_true_eq,
      decide_eq_true_eq]
    omega
  | _ => exact ha.elim

/-- At rest all three messages have been received. -/
theorem received_of_quiet_deliveryRun :
    ∃ s : TcpSession UInt64, run (step maskCrates) {} deliveryRun = some s ∧
      (messagesOf s.received).map (·.kind) = [⟨751⟩, ⟨704⟩, ⟨751⟩] ∧
      let sent := flattenMulti maskCrates.codec maskCrates.multi
        (serverMessages.map (RawNetMessage.read maskCrates.codec))
      (s.phase = .connected (Vector.replicate 32 5) ∧ .panic ∉ sent ∧
          s.received = sent ++ s.readError.toList.map .err) ∨
        (s.phase = .panicked ∧ .panic ∈ sent ∧ s.received = sent) ∨
          ∃ e, s.phase = .failed (.io e) := by
  have hrun : (run (step maskCrates) ({} : TcpSession UInt64) deliveryRun).map
      (fun s => (s.phase, s.arrived, encryptedKeyOf s.response,
        (messagesOf s.received).map (·.kind), s.writer.isEmpty &&
          (s.reader.poll FrameCodec.decoder bytesRemaining).1.isPending)) =
        some (.connected (Vector.replicate 32 5), serverBytes, List.replicate 32 5,
          [⟨751⟩, ⟨704⟩, ⟨751⟩], true) := by
    decide +kernel
  obtain ⟨s, hs, hfacts⟩ := Option.map_eq_some_iff.mp hrun
  simp only [Prod.mk.injEq, Bool.and_eq_true, List.isEmpty_iff] at hfacts
  obtain ⟨hphase, harrived, hkey, hkinds, hwriter, hread⟩ := hfacts
  exact ⟨s, hs, hkinds, @received_of_quiet UInt64 _ _ maskCrates s _ _ _ _ _ some
    ⟨{}, deliveryRun, rfl, hs⟩ serverFrames_serverMessages (fun _ _ => rfl)
    (fun _ => by rw [hkey]; rfl) harrived (quiet_of_pending hphase hwriter hread)⟩

end TcpSession

end SteamWire
