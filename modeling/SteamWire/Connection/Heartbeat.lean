import SteamWire.Semantics.Separation
import SteamWire.Session.Logon

/-!
# Heartbeats

A task of the connection sleeps for the interval of the session and sends a heartbeat, until
it is cancelled. How far the heartbeats are apart is settled by the response to the logon:
the interval is sane exactly if the service announces a positive number of seconds
(`saneHeartbeats_iff`).
-/

namespace SteamWire

open Semantics

/-- Where the task is: before the sleep, behind it, or at its end. -/
inductive HeartbeatTask where
  | waiting
  | awake
  | stopped
  deriving DecidableEq, Repr

/-- What the task does. The sleep and the cancellation race. -/
inductive HeartbeatEvent (SteamID : Type) where
  | sleep (interval : Duration)
  | cancelled
  | send (message : Except NetworkError (RawNetMessage SteamID))
  deriving DecidableEq

variable {SteamID : Type}

/-- The heartbeat has no fields that are set. -/
def cMsgClientHeartBeat : EncodableMessage SteamID where
  writeBody := .ok []
  encodeSize := 0

variable [SteamIdOps SteamID] [DecidableEq SteamID]

namespace Session

variable (session : Session SteamID) (codec : HeaderCodec)

/-- The header of all heartbeats. -/
def heartbeatHeader : NetMessageHeader SteamID :=
  { (default : NetMessageHeader SteamID) with
    sessionId := session.sessionId
    steamId := session.steamId }

def heartbeat : Except NetworkError (RawNetMessage SteamID) :=
  RawNetMessage.fromMessageWithKind codec session.heartbeatHeader cMsgClientHeartBeat
    EMsg.kEMsgClientHeartBeat true

/-- One step of the task that `setup_heartbeat` starts. A heartbeat that cannot be sent does
not end it. -/
def heartbeatStep : HeartbeatTask → HeartbeatEvent SteamID → Option HeartbeatTask
  | .waiting, .sleep interval => if interval = session.heartbeatInterval then some .awake else none
  | .waiting, .cancelled => some .stopped
  | .awake, .send message => if message = session.heartbeat codec then some .waiting else none
  | _, _ => none

end Session

/-- A heartbeat that is handed to the sender. -/
def HeartbeatEvent.IsBeat : HeartbeatEvent SteamID → Prop
  | .send (.ok _) => True
  | _ => False

/-- At least a second. -/
def shortestInterval : Duration := .fromSecs 1

/-- The longest interval that the service can announce. -/
def longestInterval : Duration := .fromSecs 2147483647

def IsSaneInterval (interval : Duration) : Prop :=
  shortestInterval ≤ interval ∧ interval ≤ longestInterval

/-- The interval of a session is sane, and its heartbeats are apart by such sleeps. -/
structure SaneHeartbeats (session : Session SteamID) (codec : HeaderCodec) : Prop where
  interval : IsSaneInterval session.heartbeatInterval
  beats : ∀ w task, run (session.heartbeatStep codec) .waiting w = some task →
    Separated HeartbeatEvent.IsBeat (fun e => ∃ d, e = .sleep d ∧ IsSaneInterval d) w

variable {session : Session SteamID} {codec : HeaderCodec}

/-- What a step of the task can do. -/
inductive HeartbeatStepsTo (session : Session SteamID) (codec : HeaderCodec) :
    HeartbeatTask → HeartbeatEvent SteamID → HeartbeatTask → Prop
  | sleep : HeartbeatStepsTo session codec .waiting (.sleep session.heartbeatInterval) .awake
  | cancelled : HeartbeatStepsTo session codec .waiting .cancelled .stopped
  | send : HeartbeatStepsTo session codec .awake (.send (session.heartbeat codec)) .waiting

theorem heartbeatStepsTo_of_step {task task' : HeartbeatTask} {e : HeartbeatEvent SteamID}
    (h : session.heartbeatStep codec task e = some task') :
    HeartbeatStepsTo session codec task e task' := by
  unfold Session.heartbeatStep at h
  split at h
  case h_1 =>
    obtain ⟨rfl, ht⟩ := Option.ite_none_right_eq_some.mp h
    exact Option.some.inj ht ▸ .sleep
  case h_2 => exact Option.some.inj h ▸ .cancelled
  case h_3 =>
    obtain ⟨rfl, ht⟩ := Option.ite_none_right_eq_some.mp h
    exact Option.some.inj ht ▸ .send
  case h_4 => cases h

/-- Heartbeats are apart by sleeps of the interval. -/
theorem separated_heartbeats {w : List (HeartbeatEvent SteamID)} {task : HeartbeatTask}
    (hrun : run (session.heartbeatStep codec) .waiting w = some task) :
    Separated HeartbeatEvent.IsBeat (· = .sleep session.heartbeatInterval) w := by
  refine @separated_of_run _ _ (session.heartbeatStep codec) _ _ (fun _ => True) (· = .awake) _ _ _
    (fun _ => True) (fun _ _ _ _ _ => trivial) ?_ ?_ ?_ (fun _ _ => trivial) trivial hrun
  · intro s e t _ _ hsleep hs h
    cases heartbeatStepsTo_of_step h with
    | sleep => exact absurd rfl hsleep
    | cancelled => nofun
    | send => exact absurd rfl hs
  · intro s e t he h
    cases heartbeatStepsTo_of_step h with
    | sleep | cancelled => exact he.elim
    | send => rfl
  · intro s e t _ _ he h
    cases heartbeatStepsTo_of_step h with
    | sleep | cancelled => exact he.elim
    | send => nofun

/-- The interval of a session is that of the response. -/
theorem isSaneInterval_iff (seconds : Option Int32) :
    IsSaneInterval (.fromSecs (asU64 (seconds.getD 0))) ↔ ∃ n, seconds = some n ∧ 0 < n := by
  rw [IsSaneInterval, shortestInterval, longestInterval, Duration.fromSecs_le_fromSecs,
    Duration.fromSecs_le_fromSecs, show (1 : UInt64).toNat = 1 from rfl,
    show (2147483647 : UInt64).toNat = 2147483647 from rfl]
  cases seconds with
  | none =>
    constructor
    · exact fun h => absurd h.1 (by decide)
    · exact fun ⟨n, h, _⟩ => nomatch h
  | some n =>
    -- a negative number wraps around to more than any positive one
    have hnat := toNat_asU64 n
    have hlow := Int32.le_toInt n
    have hhigh := Int32.toInt_lt n
    simp only [Option.getD_some, Option.some.injEq, exists_eq_left', Int32.lt_iff_toInt_lt]
    rw [show (0 : Int32).toInt = 0 from rfl]
    omega

/-- A session that is started from a response has sane heartbeats if and only if the response
announces a positive number of seconds. -/
theorem saneHeartbeats_iff {parse : LogonParser} {steamId : SteamID}
    {accessToken webAccessToken : Option String} {sent : Except NetworkError Unit}
    {raw : RawNetMessage SteamID} {response : CMsgClientLogonResponse}
    (hresponse : parse raw.data = .ok response)
    (h : sendLogon parse steamId accessToken webAccessToken sent (some raw) = .ok session) :
    SaneHeartbeats session codec ↔ ∃ n, response.heartbeatSeconds = some n ∧ 0 < n := by
  obtain ⟨-, -, -, response', hparse, -, rfl⟩ := sendLogon_eq_ok_iff.mp h
  obtain rfl := Except.ok.inj (hresponse.symm.trans hparse)
  rw [← isSaneInterval_iff]
  constructor
  · exact fun h => h.interval
  · -- the sleeps are those of the session
    intro hsane
    refine ⟨hsane, fun w task hrun => ?_⟩
    intro u a v b x hw ha hb
    obtain ⟨e, he, rfl⟩ := separated_heartbeats hrun u a v b x hw ha hb
    exact ⟨_, he, _, rfl, hsane⟩

section Examples

/-- A response to a logon. -/
def logonResponse (data : Bytes) : RawNetMessage UInt64 where
  kind := EMsg.kEMsgClientLogOnResponse.kind
  isProtobuf := true
  header := { steamId := 76561197960287930, sessionId := 3 }
  data
  frameHeaderBuffer := none
  ivBuffer := none
  headerBuffer := []

/-- The session of a response that announces nine seconds. -/
theorem saneHeartbeats_nineSeconds : SaneHeartbeats
    (sessionOf 0 none none (logonResponse [8, 1, 24, 9]).header
      { eresult := some 1, heartbeatSeconds := some 9 }) HeaderCodec.wire := by
  have hparse : LogonParser.wire (logonResponse [8, 1, 24, 9]).data =
      .ok { eresult := some 1, heartbeatSeconds := some 9 } := by decide
  have hlogon : sendLogon LogonParser.wire 0 none none (.ok ())
      (some (logonResponse [8, 1, 24, 9])) = .ok _ := rfl
  exact (saneHeartbeats_iff hparse hlogon).mpr ⟨9, rfl, by decide⟩

/-- A response without a number of seconds makes the task send without a pause. -/
theorem not_saneHeartbeats_noSeconds :
    ∃ session, sendLogon LogonParser.wire 0 none none (.ok ())
      (some (logonResponse [8, 1])) = .ok session ∧
        session.heartbeatInterval = .zero ∧ ¬ SaneHeartbeats session HeaderCodec.wire := by
  refine ⟨_, rfl, by decide, fun h => ?_⟩
  exact absurd h.interval.1 (by decide)

end Examples

end SteamWire
