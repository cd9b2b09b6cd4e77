import SteamWire.Transport.Session

/-!
# The sink of a TCP session

The frames of the messages that a session sends are written one behind the other, and the bytes
leave in chunks. The encoder replaces the buffer, so a message that is put into the sink while
bytes of another are still in it destroys them. The bytes on the wire are the frames of the
messages that the sink took, in their order and whole, exactly when that never happens
(`TcpSession.framesWhole_iff`).
-/

namespace SteamWire

open Semantics

namespace RawMessageEncoder

variable {SteamID : Type} {prims : CryptPrimitives} {encoder : RawMessageEncoder}

/-- The frame of one more message is behind the others. -/
theorem frames_concat {items : List (Vector UInt8 3 × RawNetMessage SteamID)}
    {random : Vector UInt8 3} {item : RawNetMessage SteamID} {before last : Bytes}
    (hitems : frames prims encoder items = .ok before)
    (hlast : frame prims encoder random item = .ok last) :
    frames prims encoder (items ++ [(random, item)]) = .ok (before ++ last) := by
  induction items generalizing before with
  | nil =>
    obtain rfl := Outcome.ok.inj hitems
    rw [List.nil_append, frames, hlast, frames, Outcome.bind_ok, Outcome.bind_ok, List.append_nil,
      List.nil_append]
  | cons first items ih =>
    rw [frames] at hitems
    cases hfirst : frame prims encoder first.1 first.2 with
    | ok bytes =>
      rw [hfirst, Outcome.bind_ok] at hitems
      cases hrest : frames prims encoder items with
      | ok rest =>
        rw [hrest, Outcome.bind_ok, Outcome.ok.injEq] at hitems
        rw [List.cons_append, frames, hfirst, Outcome.bind_ok, ih hrest, Outcome.bind_ok, ← hitems,
          List.append_assoc]
      | err e =>
        rw [hrest] at hitems
        cases hitems
      | panic =>
        rw [hrest] at hitems
        cases hitems
    | err e =>
      rw [hfirst] at hitems
      cases hitems
    | panic =>
      rw [hfirst] at hitems
      cases hitems

end RawMessageEncoder

namespace TcpSession

variable {SteamID : Type} [SteamIdOps SteamID] [DecidableEq SteamID] (crates : TcpCrates)

/-- What is written and what waits to be written are the response and the frames of the messages
that the sink took. -/
def FramesWhole (s : TcpSession SteamID) : Prop :=
  ∀ key, s.phase = .connected key → ∃ bytes,
    RawMessageEncoder.frames crates.cipher.toCryptPrimitives ⟨key⟩ s.accepted = .ok bytes ∧
      s.wire ++ s.writer = s.response ++ bytes

/-- A message is put into the sink when the one before it is written. -/
def FindsEmpty (s : TcpSession SteamID) : TcpAction SteamID → Prop
  | .send _ _ => s.writer = []
  | _ => True

variable {crates} {s t : TcpSession SteamID} {plain : SessionKey} {seed : Bytes} {key : SessionKey}
  {random : Vector UInt8 3} {item : RawNetMessage SteamID}

/-- A message that is put into the sink. -/
theorem send_cases (h : step crates s (.send random item) = some t) :
    ∃ key bytes, s.phase = .connected key ∧
      RawMessageEncoder.frame crates.cipher.toCryptPrimitives ⟨key⟩ random item = .ok bytes ∧
        t = { s with writer := bytes, accepted := s.accepted ++ [(random, item)] } := by
  rw [step] at h
  split at h
  case h_2 => cases h
  case h_1 key hphase =>
    split at h
    case isFalse => cases h
    case isTrue hready =>
    obtain ⟨bytes, hframe, hencode⟩ := exists_encode_eq crates.cipher.toCryptPrimitives key random
      s.writer (Bool.and_eq_true_iff.mp hready).1
    rw [hencode] at h
    exact ⟨key, bytes, hphase, hframe, (Option.some.inj h).symm⟩

/-- Polls do not touch the bytes of a session that is connected, and a session begins with the
response written. -/
theorem framesWhole_of_poll (hsafe : s.Safe crates) (h : s.FramesWhole crates)
    (hpoll : s.poll crates plain seed = some t) : t.FramesWhole crates := by
  intro key hkey
  have hphase := hsafe.phase
  rw [PhaseSafe] at hphase
  rcases poll_cases hpoll with ⟨keys, -, -, rfl⟩ | ⟨hphases, -, result, reader, -, rfl⟩
  · cases hkey
  rcases hphases with hcase | ⟨key', hcase⟩ | ⟨key', hcase⟩
  · unfold handle at hkey
    simp only [hcase] at hkey
    split at hkey
    · cases hkey
    · cases hkey
    · split at hkey <;> cases hkey
  · rw [hcase] at hphase
    obtain ⟨-, -, hwire, -, -, haccepted⟩ := hphase
    unfold handle at hkey ⊢
    simp only [hcase] at hkey ⊢
    split at hkey
    · cases hkey
    · cases hkey
    · next verdict _ =>
      split at hkey
      · cases hkey
      · next hresult =>
        rw [if_neg hresult]
        exact ⟨[], by rw [haccepted]; rfl, by rw [hwire]⟩
  · unfold handle at hkey ⊢
    simp only [hcase] at hkey ⊢
    split at hkey
    · cases hkey
    · exact h key (hcase.trans hkey)

/-- Only a message that finds bytes in the sink can do harm. -/
theorem framesWhole_of_step {a : TcpAction SteamID} (hsafe : s.Safe crates)
    (h : s.FramesWhole crates) (hguard : s.FindsEmpty a) (hstep : step crates s a = some t) :
    t.FramesWhole crates := by
  intro key hkey
  cases a with
  | arrive chunk =>
    rw [step] at hstep
    split at hstep
    · obtain rfl := Option.some.inj hstep
      exact h key hkey
    · cases hstep
  | close error =>
    rw [step] at hstep
    split at hstep
    · obtain rfl := Option.some.inj hstep
      exact h key hkey
    · cases hstep
  | poll plain seed => exact framesWhole_of_poll hsafe h hstep key hkey
  | write n =>
    rw [step] at hstep
    split at hstep
    · obtain rfl := Option.some.inj hstep
      obtain ⟨bytes, hframes, hwire⟩ := h key hkey
      exact ⟨bytes, hframes, by rw [List.append_assoc, List.take_append_drop, hwire]⟩
    · cases hstep
  | writeError error =>
    rw [step] at hstep
    split at hstep
    · obtain rfl := Option.some.inj hstep
      cases hkey
    · obtain rfl := Option.some.inj hstep
      exact h key hkey
    · cases hstep
  | send random item =>
    obtain ⟨key', bytes, hphase, hframe, rfl⟩ := send_cases hstep
    obtain rfl : key' = key := by simpa [hphase] using hkey
    obtain ⟨before, hbefore, hwire⟩ := h key' hphase
    have hempty : s.writer = [] := hguard
    rw [hempty, List.append_nil] at hwire
    exact ⟨_, RawMessageEncoder.frames_concat hbefore hframe, by rw [hwire, List.append_assoc]⟩

/-- A message that finds bytes in the sink destroys them. -/
theorem not_framesWhole_of_step {a : TcpAction SteamID} (h : s.FramesWhole crates)
    (hguard : ¬ s.FindsEmpty a) (hstep : step crates s a = some t) : ¬ t.FramesWhole crates := by
  cases a with
  | send random item =>
    obtain ⟨key, bytes, hphase, hframe, rfl⟩ := send_cases hstep
    obtain ⟨before, hbefore, hwire⟩ := h key hphase
    intro hwhole
    obtain ⟨after, hafter, hwire'⟩ := hwhole key hphase
    rw [RawMessageEncoder.frames_concat hbefore hframe, Outcome.ok.injEq] at hafter
    -- the bytes that were replaced are missing
    have hlen := congrArg List.length hwire
    have hlen' := congrArg List.length hwire'
    rw [← hafter] at hlen'
    simp only [List.length_append] at hlen hlen'
    exact hguard (List.length_eq_zero_iff.mp (by omega))
  | _ => exact absurd trivial hguard

/-- In all states of a run, the bytes written and buffered are the response and the frames of the
messages that the sink took, in order and whole, if and only if no message is put into the sink
while bytes are in it. -/
theorem framesWhole_iff (crates : TcpCrates) (w : List (TcpAction SteamID)) :
    AllStates (step crates) (FramesWhole crates) {} w ↔ AllSteps (step crates) FindsEmpty {} w := by
  refine @allStates_iff_allSteps _ _ (step crates) (FramesWhole crates)
    (fun s => s.Safe crates ∧ s.FramesWhole crates) FindsEmpty ?_ ?_ ?_ {} ?_ w
  · exact fun s hs => hs.2
  · exact fun s a t hs hguard hstep =>
      ⟨step_safe s a t hs.1 hstep, framesWhole_of_step hs.1 hs.2 hguard hstep⟩
  · exact fun s a t hs hguard hstep => not_framesWhole_of_step hs.2 hguard hstep
  · exact ⟨safe_of_reachable (.of_init rfl), by intro key hkey; cases hkey⟩

end TcpSession

end SteamWire
