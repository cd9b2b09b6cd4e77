import SteamWire.Connection.Ownership

/-!
# Calls on a connection

The calls of a connection over its message filter: `service_method`, its form before the
logon, `job` and `job_multi`. A call draws a job id from the counter of the session,
registers with the filter, sends its request and waits, step by step and in any
interleaving with the other calls, with the filter task and with the other users of the
filter. Futures and streams can be dropped wherever they wait.

A call runs on a thread. Between drawing its id and registering, and from the end of its
wait on, it runs without a pause, so that nothing else happens on that thread; the
registrations and completions of multi jobs wait there for the guard of the filter task.

The steps take whatever comes from the receive pipeline. A message is delivered some time
after it was emitted, and a request that was sent stays sent. So where a peer is assumed to
address only calls whose request it was sent, the assumption is about the delivery
(`Honest`).
-/

namespace SteamWire

open Semantics

/-- The calls of a connection: the first two name their method, the others the kind of
their response. -/
inductive CallKind where
  | serviceMethod (reqName : String)
  | serviceMethodUnAuthenticated (reqName : String)
  | job (kind : MsgKind)
  | jobMulti (kind : MsgKind)
  deriving DecidableEq, Repr

def CallKind.isMulti : CallKind → Bool
  | .jobMulti _ => true
  | _ => false

/-- How a call is over: it returned, or its future or stream was dropped. -/
inductive Exit where
  | returned (error : Option NetworkError)
  | dropped
  deriving DecidableEq, Repr

/-- Where a call is. -/
inductive Phase where
  /-- it has its job id, and is about to register -/
  | drawn
  /-- it is sending its request -/
  | registered
  /-- it waits for a response -/
  | waiting
  /-- a multi job gave out a response -/
  | yielding (completed : Bool)
  /-- a multi job is about to take its registration back -/
  | completing
  /-- it is about to drop its receiver -/
  | closing (exit : Exit)
  | finished (exit : Exit)
  deriving DecidableEq, Repr

namespace Phase

/-- The thread of the call does nothing else. -/
def IsBusy : Phase → Prop
  | .drawn | .completing | .closing _ => True
  | _ => False

instance : DecidablePred IsBusy := fun phase => by
  cases phase <;> unfold IsBusy <;> infer_instance

/-- The call waits for something, and can be dropped. -/
def IsSuspended : Phase → Prop
  | .registered | .waiting | .yielding _ => True
  | _ => False

instance : DecidablePred IsSuspended := fun phase => by
  cases phase <;> unfold IsSuspended <;> infer_instance

end Phase

/-- A call, with the parser of its response bodies, which also tells if a response
completes a multi job. -/
structure Call where
  kind : CallKind
  parse : Bytes → Except MessageBodyError Bool
  thread : Nat
  id : JobId
  chan : ChanId := 0
  phase : Phase := .drawn
  sent : Bool := false

namespace Call

/-- The registration of a call. -/
def origin (call : Call) : Origin :=
  if call.kind.isMulti then .jobIdMulti call.id else .jobId call.id

/-- The action by which a call registers. -/
def registration {SteamID : Type} (call : Call) : MessageFilter.Action SteamID :=
  if call.kind.isMulti then .onJobIdMulti call.id else .onJobId call.id

/-- What a call makes of a response. -/
def respond {SteamID : Type} (call : Call) (message : RawNetMessage SteamID) :
    Except NetworkError Bool :=
  match call.kind with
  | .serviceMethod reqName | .serviceMethodUnAuthenticated reqName => do
    let response ← message.intoMessage ServiceMethodResponseMessage.reader
    response.intoResponse reqName call.parse
  | .job kind | .jobMulti kind =>
    message.intoMessage
      { kind, readBody := fun data _ => (call.parse data).mapError (.malformedBody kind) }

/-- The phase after a response: a multi job gives it out, the other calls return it. -/
def afterResponse (call : Call) : Except NetworkError Bool → Phase
  | .ok completed => if call.kind.isMulti then .yielding completed else .closing (.returned none)
  | .error e => .closing (.returned (some e))

/-- The error of a call whose channel was closed. -/
def closedError (call : Call) : NetworkError :=
  match call.kind with
  | .serviceMethodUnAuthenticated _ => .timeout
  | _ => .eof

end Call

/-- A connection with its calls, and the next job id of its session. -/
structure Client (SteamID : Type) where
  filter : MessageFilter SteamID := {}
  jobId : UInt64 := 1
  calls : List Call := []

namespace Client

variable {SteamID : Type}

/-- What can happen on a connection. -/
inductive Action (SteamID : Type) where
  | draw (kind : CallKind) (parse : Bytes → Except MessageBodyError Bool) (thread : Nat)
  | register (i : Nat)
  | transmit (i : Nat)
  | sendOk (i : Nat)
  | sendFailed (i : Nat) (error : NetworkError)
  | receive (i : Nat)
  | timeout (i : Nat)
  | closed (i : Nat)
  | cancel (i : Nat)
  | resume (i : Nat)
  | complete (i : Nat)
  | finish (i : Nat)
  | source (res : Option (Outcome NetworkError (RawNetMessage SteamID)))
  | filter (a : MessageFilter.Action SteamID)

/-- The session's next job id. -/
def nextJobId (s : Client SteamID) : JobId := ⟨s.jobId⟩

/-- No call keeps the thread busy. -/
def Idle (s : Client SteamID) (thread : Nat) : Prop :=
  ∀ call ∈ s.calls, call.thread = thread → ¬ call.phase.IsBusy

instance (s : Client SteamID) (thread : Nat) : Decidable (s.Idle thread) :=
  inferInstanceAs (Decidable (∀ call ∈ s.calls, _))

/-- A message is addressed to no job, or to a call whose request was sent. -/
def Addressed (s : Client SteamID) : Option (Outcome NetworkError (RawNetMessage SteamID)) → Prop
  | some (.ok message) => message.header.targetJobId = JobId.none ∨
      ∃ call ∈ s.calls, call.sent = true ∧ call.id = message.header.targetJobId
  | _ => True

instance (s : Client SteamID) (res : Option (Outcome NetworkError (RawNetMessage SteamID))) :
    Decidable (s.Addressed res) := by
  unfold Addressed
  split <;> infer_instance

/-- The peer addresses only calls whose request it was sent. -/
def Honest (s : Client SteamID) : Action SteamID → Prop
  | .source res => s.Addressed res
  | _ => True

instance (s : Client SteamID) (a : Action SteamID) : Decidable (s.Honest a) := by
  unfold Honest
  split <;> infer_instance

/-- What others than the calls do with the filter: the task's steps, the other registrations,
and the receivers that belong to no call. -/
def Permits (s : Client SteamID) : MessageFilter.Action SteamID → Prop
  | .onJobId _ | .onJobIdMulti _ | .completeJobIdMulti _ | .next _ => False
  | .dropReceiver c | .recv c => ∀ call ∈ s.calls, call.phase ≠ .drawn → call.chan ≠ c
  | _ => True

instance (s : Client SteamID) (a : MessageFilter.Action SteamID) : Decidable (s.Permits a) := by
  unfold Permits
  split <;> infer_instance

/-- A call goes on, and leaves a filter behind. -/
def update (s : Client SteamID) (i : Nat) (call : Call) (filter : MessageFilter SteamID) :
    Client SteamID :=
  { s with filter, calls := s.calls.set i call }

/-- The sending end of a call's receiver is gone. -/
def SenderGone (s : Client SteamID) (call : Call) : Prop :=
  ¬ s.filter.Stored call.origin call.chan ∧ s.filter.task.held ≠ some (call.origin, call.chan)

instance (s : Client SteamID) (call : Call) : Decidable (s.SenderGone call) := by
  unfold SenderGone MessageFilter.Stored
  cases call.origin <;> infer_instance

/-- One step of one call. -/
def callStep (shard : JobId → Nat) (s : Client SteamID) (call : Call) :
    Action SteamID → Option (Call × MessageFilter SteamID)
  | .register _ =>
    -- the channel is made and its sending end inserted in one go, before the request is sent
    if call.phase = .drawn then
      (s.filter.step shard call.registration).map fun filter =>
        ({ call with chan := s.filter.nextChan, phase := .registered }, filter)
    else none
  | .transmit _ =>
    -- the peer may have the request while the send still waits
    if call.phase = .registered then some ({ call with sent := true }, s.filter) else none
  | .sendOk _ =>
    if call.phase = .registered ∧ call.sent = true ∧ s.Idle call.thread then
      some ({ call with phase := .waiting }, s.filter)
    else none
  | .sendFailed _ error =>
    -- encoding the request can fail, too
    if call.phase = .registered ∧ s.Idle call.thread then
      some ({ call with phase := .closing (.returned (some error)) }, s.filter)
    else none
  | .receive _ =>
    if call.phase = .waiting ∧ s.Idle call.thread then
      (s.filter.recv call.chan).map fun (item, filter) =>
        ({ call with phase := call.afterResponse (call.respond item.message) }, filter)
    else none
  | .timeout _ =>
    if call.phase = .waiting ∧ s.Idle call.thread then
      some ({ call with phase := .closing (.returned (some .timeout)) }, s.filter)
    else none
  | .closed _ =>
    -- what was sent before is received first
    if call.phase = .waiting ∧ s.Idle call.thread ∧ s.SenderGone call ∧
        (s.filter.channels call.chan).unread.length = 0 then
      some ({ call with phase := .closing (.returned (some call.closedError)) }, s.filter)
    else none
  | .cancel _ =>
    -- nothing runs when a future or a stream is dropped but the drop of its receiver
    if call.phase.IsSuspended ∧ s.Idle call.thread then
      some ({ call with phase := .closing .dropped }, s.filter)
    else none
  | .resume _ =>
    match call.phase with
    | .yielding completed =>
      -- polled again, the stream waits for the next response or runs to its end
      if s.Idle call.thread then
        some ({ call with phase := if completed then .completing else .waiting }, s.filter)
      else none
    | _ => none
  | .complete _ =>
    if call.phase = .completing then
      (s.filter.step shard (.completeJobIdMulti call.id)).map fun filter =>
        ({ call with phase := .closing (.returned none) }, filter)
    else none
  | .finish _ =>
    match call.phase with
    | .closing exit =>
      some ({ call with phase := .finished exit }, s.filter.dropReceiver call.chan)
    | _ => none
  | _ => none

/-- The call an action is a step of. -/
def Action.call : Action SteamID → Option Nat
  | .register i | .transmit i | .sendOk i | .sendFailed i _ | .receive i | .timeout i | .closed i
  | .cancel i | .resume i | .complete i | .finish i => some i
  | _ => none

/-- One step of a connection. -/
def step (shard : JobId → Nat) (s : Client SteamID) (a : Action SteamID) :
    Option (Client SteamID) :=
  match a with
  | .draw kind parse thread =>
    if s.Idle thread then
      some { s with
        jobId := s.jobId + 1
        calls := s.calls ++ [{ kind, parse, thread, id := s.nextJobId }] }
    else none
  | .source res => (s.filter.step shard (.next res)).map fun filter => { s with filter }
  | .filter b =>
    if s.Permits b then (s.filter.step shard b).map fun filter => { s with filter } else none
  | _ =>
    a.call.bind fun i =>
      s.calls[i]?.bind fun call =>
        (s.callStep shard call a).map fun (call, filter) => s.update i call filter

end Client

end SteamWire
