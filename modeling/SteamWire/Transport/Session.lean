import SteamWire.Semantics.Run
import SteamWire.Transport.Handshake

/-!
# Sessions over TCP

What `connect` and the stream it gives out do is a function of the bytes that arrive: however
these are cut, and whenever they are polled for, the handshake reads the first two frames, the
stream reads the others, and the session key is the one that the response carries
(`TcpSession.handshakeSafe_of_reachable`).
-/

namespace SteamWire

open Semantics

namespace TcpSession

variable {SteamID : Type} [SteamIdOps SteamID] [DecidableEq SteamID] (crates : TcpCrates)

/-! ### What the handshake has done -/

variable (SteamID) in
/-- The response answers a request with a key that was drawn for it. -/
structure Answered (greeting : Option (Except NetworkError Bytes)) (keys : SessionKeys)
    (response : Bytes) (request : ChannelEncryptRequest) (seed : Bytes) : Prop where
  request_eq : nextMessage crates (@ChannelEncryptRequest.reader SteamID) greeting = .ok request
  keys_eq : keys = generateSessionKey crates keys.plain seed none
  response_eq : @encodeResponse SteamID _ _ crates request keys [] = .ok response

variable (SteamID) in
/-- The server has accepted the key of the response. -/
structure Accepted (results : List (Except NetworkError Bytes)) (key : SessionKey)
    (response : Bytes) : Prop where
  answered : ∃ keys request seed, keys.plain = key ∧
    Answered SteamID crates results[0]? keys response request seed
  result_eq : nextMessage crates (@ChannelEncryptResult.reader SteamID) results[1]? = .ok ⟨1⟩

/-- Everything there is to read of the bytes that arrived. -/
def allResults (s : TcpSession SteamID) : List (Except NetworkError Bytes) :=
  FramedRead.results FrameCodec.decoder bytesRemaining s.arrived s.reader.closed

variable (SteamID) in
/-- How `connect` can fail: the stream ends, the request or the result is not one, the response
cannot be written, or the server refuses. -/
inductive Failure (all results : List (Except NetworkError Bytes)) : NetworkError → Prop
  | eof (hlen : results.length < 2) (hall : results = all) : Failure all results .eof
  | request {r : Except NetworkError Bytes} {e : NetworkError} (hresults : results = [r])
      (h : nextMessage crates (@ChannelEncryptRequest.reader SteamID) (some r) = .err e) :
      Failure all results e
  | write {e : IoError} (hlen : results.length = 1) : Failure all results (.io e)
  | result {greeting r : Except NetworkError Bytes} {e : NetworkError}
      (hresults : results = [greeting, r])
      (h : nextMessage crates (@ChannelEncryptResult.reader SteamID) (some r) = .err e) :
      Failure all results e
  | refused {greeting r : Except NetworkError Bytes} {verdict : ChannelEncryptResult}
      (hresults : results = [greeting, r])
      (h : nextMessage crates (@ChannelEncryptResult.reader SteamID) (some r) = .ok verdict)
      (hverdict : verdict.result ≠ 1) : Failure all results .cryptoHandshakeFailed

/-- What panics can end a session: that of the parser on the request, before anything is
written, on the result, when the response is written, or on a message behind them. -/
inductive Panic (s : TcpSession SteamID) : Prop
  | request (hresponse : s.response = []) (hwire : s.wire = [])
      (hsilent : s.received = [] ∧ s.accepted = [])
      (h : nextMessage crates (@ChannelEncryptRequest.reader SteamID) s.results[0]? = .panic)
  | result {keys : SessionKeys} {request : ChannelEncryptRequest} {seed : Bytes}
      (hanswered : Answered SteamID crates s.results[0]? keys s.response request seed)
      (hwire : s.wire = s.response) (hsilent : s.received = [] ∧ s.accepted = [])
      (h : nextMessage crates (@ChannelEncryptResult.reader SteamID) s.results[1]? = .panic)
  | receive {key : SessionKey} (haccepted : Accepted SteamID crates s.results key s.response)
      (hwire : s.response <+: s.wire)
      (hreceived : s.received = (s.results.drop 2).flatMap (receiveResult crates key))
      (hlast : Outcome.upToPanic s.received = s.received) (h : .panic ∈ s.received)

/-- What holds of a session in each phase. -/
def PhaseSafe (s : TcpSession SteamID) : Prop :=
  match s.phase with
  | .awaitRequest => s.results = [] ∧ s.writer = [] ∧ s.wire = [] ∧ s.response = [] ∧
      s.received = [] ∧ s.accepted = []
  | .sendResponse keys => s.results.length = 1 ∧ s.wire ++ s.writer = s.response ∧
      (∃ request seed, Answered SteamID crates s.results[0]? keys s.response request seed) ∧
      s.received = [] ∧ s.accepted = []
  | .awaitResult key => s.results.length = 1 ∧ s.writer = [] ∧ s.wire = s.response ∧
      (∃ keys request seed, keys.plain = key ∧
        Answered SteamID crates s.results[0]? keys s.response request seed) ∧
      s.received = [] ∧ s.accepted = []
  | .connected key => 2 ≤ s.results.length ∧ s.response <+: s.wire ∧
      Accepted SteamID crates s.results key s.response ∧
      s.received = (s.results.drop 2).flatMap (receiveResult crates key) ∧ .panic ∉ s.received
  | .failed e => s.wire <+: s.response ∧
      Failure SteamID crates s.allResults s.results e ∧
      (s.response = [] ∨ ∃ keys request seed,
        Answered SteamID crates s.results[0]? keys s.response request seed) ∧
      s.received = [] ∧ s.accepted = []
  | .panicked => Panic crates s

structure Safe (s : TcpSession SteamID) : Prop where
  follows : FramedRead.Follows FrameCodec.decoder bytesRemaining s.arrived s.results s.reader
  phase : s.PhaseSafe crates

variable {crates} {s t : TcpSession SteamID} {plain : SessionKey} {seed : Bytes}
  {results more : List (Except NetworkError Bytes)} {key : SessionKey} {response : Bytes}

/-- What the handshake has read stays read. -/
theorem Accepted.append (h : Accepted SteamID crates results key response)
    (hlen : 2 ≤ results.length) (more : List (Except NetworkError Bytes)) :
    Accepted SteamID crates (results ++ more) key response where
  answered := by
    rw [List.getElem?_append_left (by omega)]
    exact h.answered
  result_eq := by
    rw [List.getElem?_append_left (by omega)]
    exact h.result_eq

/-! ### One step -/

/-- The request is answered, or ends the session. -/
theorem handle_awaitRequest (hphase : s.phase = .awaitRequest) (h : s.PhaseSafe crates)
    (reader : FramedRead UInt8 NetworkError) (result : Option (Except NetworkError Bytes))
    (hall : result = none →
      s.results = FramedRead.results FrameCodec.decoder bytesRemaining s.arrived reader.closed) :
    (handle crates { s with reader, results := s.results ++ result.toList } plain seed
      result).PhaseSafe crates := by
  rw [PhaseSafe, hphase] at h
  obtain ⟨hresults, hwriter, hwire, hresponse, hrest⟩ := h
  have hfirst : (s.results ++ result.toList)[0]? = result := by
    rw [hresults]
    cases result <;> rfl
  unfold handle
  simp only [hphase]
  split
  · next e he =>
    refine ⟨by simp [hwire], ?_, .inl hresponse, hrest⟩
    cases result with
    | none =>
      cases he
      exact .eof (by simp [hresults]) (by rw [Option.toList_none, List.append_nil]; exact hall rfl)
    | some r => exact .request (by simp [hresults]) he
  · next he => exact .request hresponse hwire hrest (by rw [hfirst]; exact he)
  · next request hrequest =>
    -- only a frame can hold a request
    have hone : (s.results ++ result.toList).length = 1 := by
      cases result with
      | none => cases hrequest
      | some r => simp [hresults]
    rw [hwriter]
    split
    · next e he => cases he
    · next writer hencode =>
      refine ⟨hone, by rw [hwire]; rfl, ⟨request, seed, ?_⟩, hrest⟩
      exact ⟨by rw [hfirst]; exact hrequest, rfl, hencode⟩

/-- The result opens the session, or ends it. -/
theorem handle_awaitResult (hphase : s.phase = .awaitResult key) (h : s.PhaseSafe crates)
    (reader : FramedRead UInt8 NetworkError) (result : Option (Except NetworkError Bytes))
    (hall : result = none →
      s.results = FramedRead.results FrameCodec.decoder bytesRemaining s.arrived reader.closed) :
    (handle crates { s with reader, results := s.results ++ result.toList } plain seed
      result).PhaseSafe crates := by
  rw [PhaseSafe, hphase] at h
  obtain ⟨hone, hwriter, hwire, ⟨keys, request, seed', hkey, hanswered⟩, hreceived, haccepted⟩ := h
  obtain ⟨greeting, hgreeting⟩ := List.length_eq_one_iff.mp hone
  have hfirst : (s.results ++ result.toList)[0]? = s.results[0]? :=
    List.getElem?_append_left (by omega)
  have hsecond : (s.results ++ result.toList)[1]? = result := by
    rw [hgreeting]
    cases result <;> rfl
  -- nothing but the response was written, and a second result does not change what it answers
  have hwritten : s.wire <+: s.response := hwire ▸ List.prefix_rfl
  have hanswered' : s.response = [] ∨ ∃ keys request seed, Answered SteamID crates
      (s.results ++ result.toList)[0]? keys s.response request seed :=
    .inr ⟨keys, request, seed', hfirst.symm ▸ hanswered⟩
  unfold handle
  simp only [hphase]
  split
  · next e he =>
    refine ⟨hwritten, ?_, hanswered', hreceived, haccepted⟩
    cases result with
    | none =>
      cases he
      rw [Option.toList_none, List.append_nil]
      exact .eof (by dsimp only; omega) (hall rfl)
    | some r => exact .result (by rw [hgreeting]; rfl) he
  · next he =>
    exact .result (hfirst.symm ▸ hanswered) hwire ⟨hreceived, haccepted⟩ (by rw [hsecond]; exact he)
  · next verdict hverdict =>
    cases result with
    | none => cases hverdict
    | some r =>
    have hboth : s.results ++ (some r).toList = [greeting, r] := by rw [hgreeting]; rfl
    split
    · next hrefused =>
      exact ⟨hwritten, .refused hboth hverdict hrefused, hanswered', hreceived, haccepted⟩
    · next hresult =>
      have hok : verdict = ⟨1⟩ := by
        cases verdict
        exact congrArg _ (not_not.mp hresult)
      refine ⟨by rw [hboth]; rfl, hwritten.eq_of_length (by rw [hwire]) ▸ List.prefix_rfl,
        ⟨⟨keys, request, seed', hkey, ?_⟩, ?_⟩, ?_, ?_⟩
      · rw [hfirst]
        exact hanswered
      · rw [hsecond, hverdict, hok]
      · rw [hboth]
        exact hreceived
      · rw [hreceived]
        exact List.not_mem_nil

omit [DecidableEq SteamID] in
/-- What comes of one result of the reader ends where something panics. -/
theorem upToPanic_receiveResult (result : Option (Except NetworkError Bytes)) :
    Outcome.upToPanic (result.toList.flatMap (@receiveResult SteamID _ crates key)) =
      result.toList.flatMap (receiveResult crates key) := by
  cases result with
  | none => rfl
  | some r =>
    rw [Option.toList_some, List.flatMap_singleton]
    cases r with
    | error e => rfl
    | ok frame => exact upToPanic_flattenOne ..

/-- The stream gives what is in a frame. -/
theorem handle_connected (hphase : s.phase = .connected key) (h : s.PhaseSafe crates)
    (reader : FramedRead UInt8 NetworkError) (result : Option (Except NetworkError Bytes)) :
    (handle crates { s with reader, results := s.results ++ result.toList } plain seed
      result).PhaseSafe crates := by
  rw [PhaseSafe, hphase] at h
  obtain ⟨htwo, hwire, haccepted, hreceived, hreturns⟩ := h
  have haccepted' := haccepted.append htwo result.toList
  have hreceived' : s.received ++ result.toList.flatMap (receiveResult crates key) =
      ((s.results ++ result.toList).drop 2).flatMap (receiveResult crates key) := by
    rw [List.drop_append_of_le_length htwo, List.flatMap_append, ← hreceived]
  unfold handle
  simp only [hphase]
  by_cases hpanic : Outcome.panic ∈ result.toList.flatMap (@receiveResult SteamID _ crates key)
  · rw [if_pos hpanic]
    refine .receive haccepted' hwire hreceived' ?_ (List.mem_append_right _ hpanic)
    -- the stream is not polled again, and one frame gives nothing behind a panic
    rw [Outcome.upToPanic_append hreturns, upToPanic_receiveResult]
  · rw [if_neg hpanic]
    refine ⟨by rw [List.length_append]; omega, hwire, haccepted', hreceived', ?_⟩
    exact fun h => (List.mem_append.mp h).elim hreturns hpanic

/-- What a poll does with a result does not concern the reader. -/
theorem handle_keeps (result : Option (Except NetworkError Bytes)) :
    (handle crates s plain seed result).arrived = s.arrived ∧
      (handle crates s plain seed result).results = s.results ∧
        (handle crates s plain seed result).reader = s.reader := by
  unfold handle
  split
  · split
    · exact ⟨rfl, rfl, rfl⟩
    · exact ⟨rfl, rfl, rfl⟩
    · dsimp only
      split <;> exact ⟨rfl, rfl, rfl⟩
  · split
    · exact ⟨rfl, rfl, rfl⟩
    · exact ⟨rfl, rfl, rfl⟩
    · split <;> exact ⟨rfl, rfl, rfl⟩
  · exact ⟨rfl, rfl, rfl⟩
  · exact ⟨rfl, rfl, rfl⟩

/-- The polls that are possible. -/
theorem poll_cases (h : s.poll crates plain seed = some t) :
    (∃ keys, s.phase = .sendResponse keys ∧ s.writer = [] ∧
        t = { s with phase := .awaitResult keys.plain }) ∨
      (s.phase = .awaitRequest ∨ (∃ key, s.phase = .awaitResult key) ∨
          ∃ key, s.phase = .connected key) ∧ s.reader.ended = false ∧
        ∃ result reader, s.reader.poll FrameCodec.decoder bytesRemaining = (.ready result, reader) ∧
          t = handle crates { s with reader, results := s.results ++ result.toList } plain seed
            result := by
  unfold poll at h
  split at h
  · cases h
  · cases h
  · next keys hphase =>
    split at h
    · next hempty =>
      exact .inl ⟨keys, hphase, List.isEmpty_iff.mp hempty, (Option.some.inj h).symm⟩
    · cases h
  · next hfailed hpanicked hsending =>
    split at h
    · cases h
    next hended =>
    split at h
    · cases h
    next result reader hpoll =>
    refine .inr ⟨?_, by simpa using hended, result, reader, hpoll, (Option.some.inj h).symm⟩
    cases hphase : s.phase with
    | awaitRequest => exact .inl rfl
    | sendResponse keys => exact absurd hphase (hsending keys)
    | awaitResult key => exact .inr (.inl ⟨key, rfl⟩)
    | connected key => exact .inr (.inr ⟨key, rfl⟩)
    | failed e => exact absurd hphase (hfailed e)
    | panicked => exact absurd hphase hpanicked

theorem poll_safe (h : s.Safe crates) (hpoll : s.poll crates plain seed = some t) :
    t.Safe crates := by
  rcases poll_cases hpoll with ⟨keys, hphase, hempty, rfl⟩ | ⟨hphases, -, result, reader, hread, rfl⟩
  · -- the response is flushed
    have hsafe := h.phase
    rw [PhaseSafe, hphase] at hsafe
    obtain ⟨hone, hwire, ⟨request, seed, hanswered⟩, hrest⟩ := hsafe
    rw [hempty, List.append_nil] at hwire
    exact ⟨h.follows, hone, hempty, hwire, ⟨keys, request, seed, rfl, hanswered⟩, hrest⟩
  · have hall : result = none →
        s.results = FramedRead.results FrameCodec.decoder bytesRemaining s.arrived reader.closed := by
      rintro rfl
      have hclosed := @FramedRead.closed_poll _ _ _ FrameCodec.decoder bytesRemaining s.reader
      rw [hread] at hclosed
      exact hclosed ▸ (h.follows.poll_done (.inl hread)).1
    have hfollows : FramedRead.Follows FrameCodec.decoder bytesRemaining s.arrived
        (s.results ++ result.toList) reader := by
      cases result with
      | none =>
        rw [Option.toList_none, List.append_nil]
        exact (h.follows.poll_done (.inl hread)).2
      | some r => exact h.follows.poll_some hread
    obtain ⟨harrived, hresults, hreader⟩ := @handle_keeps SteamID _ _ crates
      { s with reader, results := s.results ++ result.toList } plain seed result
    refine ⟨by rw [harrived, hresults, hreader]; exact hfollows, ?_⟩
    rcases hphases with hphase | ⟨key, hphase⟩ | ⟨key, hphase⟩
    · exact handle_awaitRequest hphase h.phase reader result hall
    · exact handle_awaitResult hphase h.phase reader result hall
    · exact handle_connected hphase h.phase reader result

/-- What arrives while a session is alive waits for its next poll. -/
theorem phaseSafe_read (h : s.PhaseSafe crates) (hlive : s.isLive = true)
    (reader : FramedRead UInt8 NetworkError) (arrived : Bytes) :
    ({ s with reader, arrived } : TcpSession SteamID).PhaseSafe crates := by
  rw [PhaseSafe] at h ⊢
  cases hphase : s.phase with
  | failed e =>
    rw [isLive, hphase] at hlive
    cases hlive
  | panicked =>
    rw [isLive, hphase] at hlive
    cases hlive
  | _ =>
    rw [hphase] at h
    exact h

omit [SteamIdOps SteamID] [DecidableEq SteamID] in
/-- A message that can be sent is encoded as its frame, whatever the buffer held. -/
theorem exists_encode_eq {item : RawNetMessage SteamID} (prims : CryptPrimitives)
    (key : SessionKey) (random : Vector UInt8 3) (dst : Bytes) (hitem : isSendable item = true) :
    ∃ bytes, RawMessageEncoder.frame prims ⟨key⟩ random item = .ok bytes ∧
      RawMessageEncoder.encode prims ⟨key⟩ random item dst = .ok bytes := by
  obtain ⟨c, -, hframe⟩ := @RawMessageEncoder.exists_frame_eq SteamID prims ⟨key⟩ random item
  refine ⟨_, hframe, ?_⟩
  rw [isSendable, Bool.or_eq_true, decide_eq_true_eq, decide_eq_true_eq] at hitem
  rcases hitem with hnone | hsome
  · -- without a buffer, one of zeros is made
    have hencode : RawMessageEncoder.encode prims ⟨key⟩ random item dst =
        RawMessageEncoder.encode prims ⟨key⟩ random
          { item with ivBuffer := some (List.replicate 16 0) } dst := by
      unfold RawMessageEncoder.encode
      rw [hnone]
      rfl
    rw [hencode, RawMessageEncoder.encode_eq_frame rfl, ← hframe]
    rfl
  · rw [RawMessageEncoder.encode_eq_frame hsome, hframe]

/-- Writing moves bytes from the buffer to the wire. -/
theorem write_safe (h : s.Safe crates) (n : Nat) (hlive : s.isLive = true) :
    ({ s with wire := s.wire ++ s.writer.take n, writer := s.writer.drop n } :
      TcpSession SteamID).Safe crates := by
  refine ⟨h.follows, ?_⟩
  have hsafe := h.phase
  rw [PhaseSafe] at hsafe ⊢
  cases hphase : s.phase with
  | awaitRequest =>
    rw [hphase] at hsafe
    obtain ⟨hresults, hwriter, hwire, hrest⟩ := hsafe
    exact ⟨hresults, by simp [hwriter], by simp [hwriter, hwire], hrest⟩
  | sendResponse keys =>
    rw [hphase] at hsafe
    obtain ⟨hone, hwire, hrest⟩ := hsafe
    refine ⟨hone, ?_, hrest⟩
    rw [List.append_assoc, List.take_append_drop, hwire]
  | awaitResult key =>
    rw [hphase] at hsafe
    obtain ⟨hone, hwriter, hwire, hrest⟩ := hsafe
    exact ⟨hone, by simp [hwriter], by simp [hwriter, hwire], hrest⟩
  | connected key =>
    rw [hphase] at hsafe
    obtain ⟨htwo, hwire, hrest⟩ := hsafe
    exact ⟨htwo, hwire.trans (List.prefix_append _ _), hrest⟩
  | failed e =>
    rw [isLive, hphase] at hlive
    cases hlive
  | panicked =>
    rw [isLive, hphase] at hlive
    cases hlive

/-- Every step keeps a session safe. -/
theorem step_safe (s : TcpSession SteamID) (a : TcpAction SteamID) (t : TcpSession SteamID)
    (h : s.Safe crates) (hstep : step crates s a = some t) : t.Safe crates := by
  cases a with
  | arrive chunk =>
    rw [step] at hstep
    split at hstep
    case isTrue hopen =>
      obtain ⟨hlive, hclosed⟩ := Bool.and_eq_true_iff.mp hopen
      obtain rfl := Option.some.inj hstep
      exact ⟨h.follows.arrive (Option.isNone_iff_eq_none.mp hclosed) chunk,
        phaseSafe_read h.phase hlive _ _⟩
    case isFalse => cases hstep
  | close error =>
    rw [step] at hstep
    split at hstep
    case isTrue hopen =>
      obtain ⟨hlive, hclosed⟩ := Bool.and_eq_true_iff.mp hopen
      obtain rfl := Option.some.inj hstep
      exact ⟨h.follows.close (Option.isNone_iff_eq_none.mp hclosed) _,
        phaseSafe_read h.phase hlive _ s.arrived⟩
    case isFalse => cases hstep
  | poll plain seed => exact poll_safe h hstep
  | write n =>
    rw [step] at hstep
    split at hstep
    case isTrue hwrite =>
      simp only [Bool.and_eq_true, decide_eq_true_eq] at hwrite
      obtain rfl := Option.some.inj hstep
      exact write_safe h n hwrite.1.1
    case isFalse => cases hstep
  | writeError error =>
    -- the response may have been written in part
    have hsafe := h.phase
    rw [step] at hstep
    split at hstep
    case h_1 keys hphase =>
      rw [PhaseSafe, hphase] at hsafe
      obtain ⟨hone, hwire, ⟨request, seed, hanswered⟩, hrest⟩ := hsafe
      obtain rfl := Option.some.inj hstep
      exact ⟨h.follows, ⟨s.writer, hwire⟩, .write hone, .inr ⟨keys, request, seed, hanswered⟩, hrest⟩
    case h_2 => exact Option.some.inj hstep ▸ h
    case h_3 => cases hstep
  | send random item =>
    have hsafe := h.phase
    rw [step] at hstep
    split at hstep
    case h_2 => cases hstep
    case h_1 key hphase =>
      split at hstep
      case isFalse => cases hstep
      case isTrue hready =>
      -- sending touches the writer only
      obtain ⟨bytes, -, hencode⟩ := exists_encode_eq crates.cipher.toCryptPrimitives key random
        s.writer (Bool.and_eq_true_iff.mp hready).1
      rw [hencode] at hstep
      obtain rfl := Option.some.inj hstep
      rw [PhaseSafe, hphase] at hsafe
      refine ⟨h.follows, ?_⟩
      rw [PhaseSafe]
      simp only [hphase]
      exact hsafe

theorem safe_of_reachable (h : Reachable (step crates) (· = {}) s) : s.Safe crates := by
  refine h.invariant ?_ step_safe
  rintro s rfl
  exact ⟨FramedRead.follows_nil, rfl, rfl, rfl, rfl, rfl, rfl⟩

/-! ### Every run -/

variable (crates) in
/-- What can be relied on in every state of a session. -/
structure HandshakeSafe (s : TcpSession SteamID) : Prop where
  results : s.results <+: s.allResults
  answered : s.response = [] ∨ ∃ keys request seed,
    Answered SteamID crates s.results[0]? keys s.response request seed
  handshaking : (∀ key, s.phase ≠ .connected key) → s.phase ≠ .panicked →
    s.wire <+: s.response ∧ s.received = [] ∧ s.accepted = []
  connected : ∀ key, s.phase = .connected key →
    Accepted SteamID crates s.results key s.response ∧ s.response <+: s.wire ∧
      s.received = (s.results.drop 2).flatMap (receiveResult crates key) ∧ .panic ∉ s.received
  failed : ∀ e, s.phase = .failed e →
    Failure SteamID crates s.allResults s.results e
  panicked : s.phase = .panicked → Panic crates s

/-- A panic does not come before the request is answered, unless it comes of the request. -/
theorem Panic.answered (h : Panic crates s) : s.response = [] ∨ ∃ keys request seed,
    Answered SteamID crates s.results[0]? keys s.response request seed := by
  cases h with
  | request hresponse => exact .inl hresponse
  | result hanswered => exact .inr ⟨_, _, _, hanswered⟩
  | receive haccepted =>
    obtain ⟨keys, request, seed, -, hanswered⟩ := haccepted.answered
    exact .inr ⟨keys, request, seed, hanswered⟩

/-- However the bytes of the server are cut, and whenever they are polled for: the results of
the reader are the first ones of all that arrived, nothing but the response is written before
the server has accepted its key, the stream gives what that key decrypts behind the handshake,
`connect` fails for one of five reasons, and a panic is one of the parser. -/
theorem handshakeSafe_of_reachable (h : Reachable (step crates) (· = {}) s) :
    HandshakeSafe crates s := by
  have hsafe := safe_of_reachable h
  have hphase := hsafe.phase
  rw [PhaseSafe] at hphase
  cases hcase : s.phase with
  | awaitRequest =>
    rw [hcase] at hphase
    obtain ⟨-, -, hwire, hresponse, hrest⟩ := hphase
    exact ⟨hsafe.follows.given_prefix, .inl hresponse,
      fun _ _ => ⟨by rw [hwire]; exact List.nil_prefix, hrest⟩, by simp [hcase], by simp [hcase],
      by simp [hcase]⟩
  | sendResponse keys =>
    rw [hcase] at hphase
    obtain ⟨-, hwire, ⟨request, seed, hanswered⟩, hrest⟩ := hphase
    exact ⟨hsafe.follows.given_prefix, .inr ⟨keys, request, seed, hanswered⟩,
      fun _ _ => ⟨⟨_, hwire⟩, hrest⟩, by simp [hcase], by simp [hcase], by simp [hcase]⟩
  | awaitResult key =>
    rw [hcase] at hphase
    obtain ⟨-, -, hwire, ⟨keys, request, seed, -, hanswered⟩, hrest⟩ := hphase
    exact ⟨hsafe.follows.given_prefix, .inr ⟨keys, request, seed, hanswered⟩,
      fun _ _ => ⟨hwire ▸ List.prefix_rfl, hrest⟩, by simp [hcase], by simp [hcase],
      by simp [hcase]⟩
  | connected key =>
    rw [hcase] at hphase
    obtain ⟨-, hwire, haccepted, hreceived, hreturns⟩ := hphase
    obtain ⟨keys, request, seed, -, hanswered⟩ := haccepted.answered
    refine ⟨hsafe.follows.given_prefix, .inr ⟨keys, request, seed, hanswered⟩,
      fun hno => absurd hcase (hno key), fun key' hkey => ?_, by simp [hcase], by simp [hcase]⟩
    obtain rfl : key = key' := by simpa [hcase] using hkey
    exact ⟨haccepted, hwire, hreceived, hreturns⟩
  | failed e =>
    rw [hcase] at hphase
    obtain ⟨hwire, hfailure, hanswered, hrest⟩ := hphase
    refine ⟨hsafe.follows.given_prefix, hanswered, fun _ _ => ⟨hwire, hrest⟩,
      by simp [hcase], fun e' he => ?_, by simp [hcase]⟩
    obtain rfl : e = e' := by simpa [hcase] using he
    exact hfailure
  | panicked =>
    rw [hcase] at hphase
    exact ⟨hsafe.follows.given_prefix, hphase.answered, fun _ hno => absurd hcase hno,
      by simp [hcase], by simp [hcase], fun _ => hphase⟩

/-! ### A session -/

/-- A cipher that masks, a checksum of zero, and an encryption that keeps the key. -/
def maskCrates : TcpCrates where
  codec := HeaderCodec.wire
  multi := MultiCodec.wire
  cipher := Crypt.maskCipher
  crc _ := 0
  encryptWithKey _ data := data

/-- A request for protocol 1, in its frame. -/
def requestFrame : Bytes :=
  FrameCodec.encode (LittleEndian.u32 1303 ++ List.replicate 16 255 ++ LittleEndian.u32 1 ++
    LittleEndian.u32 1 ++ List.replicate 16 7) []

/-- The result of a handshake that the server accepts, in its frame. -/
def resultFrame : Bytes :=
  FrameCodec.encode (LittleEndian.u32 1305 ++ List.replicate 16 255 ++ LittleEndian.u32 1) []

/-- The request and the result arrive cut in the middle; the response is written in two parts. -/
def handshakeRun : List (TcpAction UInt64) :=
  [.arrive (requestFrame.take 5), .arrive (requestFrame.drop 5 ++ resultFrame.take 9),
    .poll (Vector.replicate 32 5) [1], .write 10, .write 66, .poll (Vector.replicate 32 0) [],
    .arrive (resultFrame.drop 9), .poll (Vector.replicate 32 0) []]

theorem handshakeSafe_of_reachable_handshakeRun :
    ∃ s : TcpSession UInt64, run (step maskCrates) {} handshakeRun = some s ∧
      s.phase = .connected (Vector.replicate 32 5) ∧ HandshakeSafe maskCrates s := by
  have hrun : (run (step maskCrates) {} handshakeRun).map (·.phase) =
      some (.connected (Vector.replicate 32 5)) := by rfl
  obtain ⟨s, hs, hphase⟩ := Option.map_eq_some_iff.mp hrun
  exact ⟨s, hs, hphase, handshakeSafe_of_reachable ⟨{}, handshakeRun, rfl, hs⟩⟩

end TcpSession

end SteamWire
