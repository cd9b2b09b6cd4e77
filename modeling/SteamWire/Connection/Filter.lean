import Mathlib.Logic.Function.Basic
import SteamWire.Connection.Receive
import SteamWire.Data.RingBuffer
import SteamWire.Message.Body
import SteamWire.Semantics.Channel
import SteamWire.Semantics.Run

/-!
# The message filter

The filter of a connection and the task that feeds it, as one transition system. The
handles of the filter register receivers in its tables, receivers are read and dropped,
and the task pulls results from the receive pipeline and looks every message up in the
tables, one lookup or one send at a time. Handles stay alive, so the tables do too.

The sending ends are the table entries. A receiving end is a channel of its own; the
receivers of a broadcast channel are listed in the entry they subscribed to. Two fields
record history: `origins` tells which registration made a channel, and `fates` what
became of each message the task is done with.
-/

namespace SteamWire

open Semantics

/-- A receiving end. -/
abbrev ChanId := Nat

/-- A message with its position in the order the task pulled messages. -/
structure Item (SteamID : Type) where
  seq : Nat
  message : RawNetMessage SteamID

namespace Item

variable {SteamID : Type} (item : Item SteamID)

/-- The job a message is addressed to. -/
abbrev target : JobId := item.message.header.targetJobId

abbrev kind : MsgKind := item.message.kind

end Item

/-- The tables of the filter. -/
inductive Table where
  | jobId
  | jobIdMulti
  | oneshotKind
  | notification
  | kind
  deriving DecidableEq, Repr

/-- The registration a channel was made for. -/
inductive Origin where
  | jobId (id : JobId)
  | jobIdMulti (id : JobId)
  | notification (jobName : String)
  | kind (kind : MsgKind)
  | oneKind (kind : MsgKind)
  deriving DecidableEq, Repr

/-- What became of a message: it was sent to receivers that existed, it was sent to none
because the ones it was looked up for were gone, it went to the unprocessed buffer, or it
was a notification that cannot be read or has no subscribers. -/
inductive Fate where
  | delivered (table : Table) (receivers : List ChanId)
  | lost (table : Table)
  | unprocessed
  | ignored
  deriving DecidableEq, Repr

/-- What the filter task does next. After a lookup that found a sender the task holds it:
taken out of the table for one-shot receivers, by a guard on the table's shard for the
receivers of a multi job. -/
inductive FilterTask (SteamID : Type) where
  | awaiting
  | jobLookup (item : Item SteamID)
  | jobSend (item : Item SteamID) (tx : ChanId)
  | multiLookup (item : Item SteamID)
  | multiSend (item : Item SteamID) (tx : ChanId)
  | kindOnceLookup (item : Item SteamID)
  | kindOnceSend (item : Item SteamID) (tx : ChanId)
  | notificationLookup (item : Item SteamID)
  | kindLookup (item : Item SteamID)
  | restPush (item : Item SteamID)
  | stopped

/-- The message filter. -/
structure MessageFilter (SteamID : Type) where
  jobIdFilters : JobId → Option ChanId := fun _ => none
  jobIdMultiFilters : JobId → Option ChanId := fun _ => none
  notificationFilters : String → Option (List ChanId) := fun _ => none
  kindFilters : MsgKind → Option (List ChanId) := fun _ => none
  oneshotKindFilters : MsgKind → Option ChanId := fun _ => none
  rest : RingBuffer (RawNetMessage SteamID) := RingBuffer.new 32
  task : FilterTask SteamID := .awaiting
  nextChan : ChanId := 0
  channels : ChanId → Channel (Item SteamID) := fun _ => {}
  pulled : Nat := 0
  origins : ChanId → Option Origin := fun _ => none
  fates : List (Item SteamID × Fate) := []

namespace MessageFilter

variable {SteamID : Type} (f : MessageFilter SteamID)

/-- How many messages a multi job, a notification or a kind subscription can have unread. -/
def channelCapacity : Nat := 16

/-! ### The handles -/

section Handles

/-- Make a channel for a registration. -/
def openChannel (origin : Origin) : MessageFilter SteamID :=
  { f with
    nextChan := f.nextChan + 1
    channels := Function.update f.channels f.nextChan { alive := true }
    origins := Function.update f.origins f.nextChan (some origin) }

/-- `on_job_id`. -/
def onJobId (id : JobId) : MessageFilter SteamID :=
  { f.openChannel (.jobId id) with
    jobIdFilters := Function.update f.jobIdFilters id (some f.nextChan) }

/-- `on_job_id_multi`. -/
def onJobIdMulti (id : JobId) : MessageFilter SteamID :=
  { f.openChannel (.jobIdMulti id) with
    jobIdMultiFilters := Function.update f.jobIdMultiFilters id (some f.nextChan) }

/-- `complete_job_id_multi`. -/
def completeJobIdMulti (id : JobId) : MessageFilter SteamID :=
  { f with jobIdMultiFilters := Function.update f.jobIdMultiFilters id none }

/-- `on_notification`: the receiver of a notification gets it as the message it was read
from. -/
def onNotification (jobName : String) : MessageFilter SteamID :=
  { f.openChannel (.notification jobName) with
    notificationFilters := Function.update f.notificationFilters jobName
      (some ((f.notificationFilters jobName).getD [] ++ [f.nextChan])) }

/-- `on_kind`. -/
def onKind (kind : MsgKind) : MessageFilter SteamID :=
  { f.openChannel (.kind kind) with
    kindFilters := Function.update f.kindFilters kind
      (some ((f.kindFilters kind).getD [] ++ [f.nextChan])) }

/-- `one_kind`. -/
def oneKind (kind : MsgKind) : MessageFilter SteamID :=
  { f.openChannel (.oneKind kind) with
    oneshotKindFilters := Function.update f.oneshotKindFilters kind (some f.nextChan) }

/-- `unprocessed`. -/
def unprocessed : MessageFilter SteamID := { f with rest := f.rest.take.2 }

def setChannel (c : ChanId) (channel : Channel (Item SteamID)) : MessageFilter SteamID :=
  { f with channels := Function.update f.channels c channel }

/-- The receiver of `c` goes away. -/
def dropReceiver (c : ChanId) : MessageFilter SteamID := f.setChannel c (f.channels c).close

/-- The receiver of `c` takes its next message; a broadcast receiver that lags has lost the
messages before the last sixteen. -/
def recv (c : ChanId) : Option (Item SteamID × MessageFilter SteamID) :=
  (match f.origins c with
    | some (.notification _) | some (.kind _) => (f.channels c).recvLast channelCapacity
    | _ => (f.channels c).recv).map fun (item, channel) => (item, f.setChannel c channel)

end Handles

/-! ### The task -/

section Task

/-- The task is done with a message. -/
def finish (item : Item SteamID) (fate : Fate) : MessageFilter SteamID :=
  { f with task := .awaiting, fates := f.fates ++ [(item, fate)] }

/-- Send a message to the receivers that still exist, if there are any. -/
def deliver (table : Table) (item : Item SteamID) (receivers : List ChanId) :
    MessageFilter SteamID :=
  let live := receivers.filter fun c => (f.channels c).alive
  if live = [] then f.finish item (.lost table)
  else
    { f with channels := fun c => if c ∈ live then (f.channels c).push item else f.channels c }.finish
      item (.delivered table live)

/-- The next result of the receive pipeline. Its end, an error that looks like a
disconnect, and a panic in the decoding end the task. -/
def next : Option (Outcome NetworkError (RawNetMessage SteamID)) → MessageFilter SteamID
  | some (.ok message) => { f with task := .jobLookup ⟨f.pulled, message⟩, pulled := f.pulled + 1 }
  | some (.err e) => if e.stopsTask then { f with task := .stopped } else f
  | some .panic => { f with task := .stopped }
  | none => { f with task := .stopped }

/-- The next lookup or send of the task. -/
def dispatch : Option (MessageFilter SteamID) :=
  match f.task with
  | .awaiting => none
  | .jobLookup item =>
    -- `remove`: the entry is gone even when its receiver is
    match f.jobIdFilters item.target with
    | some tx =>
      some { f with
        jobIdFilters := Function.update f.jobIdFilters item.target none
        task := .jobSend item tx }
    | none => some { f with task := .multiLookup item }
  | .jobSend item tx => some (f.deliver .jobId item [tx])
  | .multiLookup item =>
    -- `get`: the entry stays, and its shard is locked while the guard lives
    match f.jobIdMultiFilters item.target with
    | some tx => some { f with task := .multiSend item tx }
    | none => some { f with task := .kindOnceLookup item }
  | .multiSend item tx =>
    -- waits for room while the receiver exists
    if (f.channels tx).alive ∧ (f.channels tx).IsFull channelCapacity then none
    else some (f.deliver .jobIdMulti item [tx])
  | .kindOnceLookup item =>
    match f.oneshotKindFilters item.kind with
    | some tx =>
      some { f with
        oneshotKindFilters := Function.update f.oneshotKindFilters item.kind none
        task := .kindOnceSend item tx }
    | none =>
      -- a service method notification goes to no other table, readable or not
      if item.kind = EMsg.kEMsgServiceMethod.kind then
        some { f with task := .notificationLookup item }
      else some { f with task := .kindLookup item }
  | .kindOnceSend item tx => some (f.deliver .oneshotKind item [tx])
  | .notificationLookup item =>
    match item.message.intoMessage ServiceMethodNotification.reader with
    | .ok notification =>
      match f.notificationFilters notification.jobName with
      | some receivers => some (f.deliver .notification item receivers)
      | none => some (f.finish item .ignored)
    | .error _ => some (f.finish item .ignored)
  | .kindLookup item =>
    match f.kindFilters item.kind with
    | some receivers => some (f.deliver .kind item receivers)
    | none => some { f with task := .restPush item }
  | .restPush item =>
    some ({ f with rest := (f.rest.push item.message).2 }.finish item .unprocessed)
  | .stopped => none

end Task

/-! ### The transition system -/

/-- What can happen to a filter. -/
inductive Action (SteamID : Type) where
  | onJobId (id : JobId)
  | onJobIdMulti (id : JobId)
  | completeJobIdMulti (id : JobId)
  | onNotification (jobName : String)
  | onKind (kind : MsgKind)
  | oneKind (kind : MsgKind)
  | unprocessed
  | dropReceiver (c : ChanId)
  | recv (c : ChanId)
  | next (res : Option (Outcome NetworkError (RawNetMessage SteamID)))
  | dispatch

section Step

/-- The task holds a guard on the shard of `id` in the table of multi jobs. -/
def HoldsShard (shard : JobId → Nat) (f : MessageFilter SteamID) (id : JobId) : Prop :=
  match f.task with
  | .multiSend item _ => shard item.target = shard id
  | _ => False

instance (shard : JobId → Nat) (id : JobId) : Decidable (f.HoldsShard shard id) := by
  unfold HoldsShard
  split <;> infer_instance

/-- One step of the filter. Writers of the table of multi jobs wait for the guard of the
task. -/
def step (shard : JobId → Nat) (f : MessageFilter SteamID) :
    Action SteamID → Option (MessageFilter SteamID)
  | .onJobId id => some (f.onJobId id)
  | .onJobIdMulti id => if f.HoldsShard shard id then none else some (f.onJobIdMulti id)
  | .completeJobIdMulti id =>
    if f.HoldsShard shard id then none else some (f.completeJobIdMulti id)
  | .onNotification jobName => some (f.onNotification jobName)
  | .onKind kind => some (f.onKind kind)
  | .oneKind kind => some (f.oneKind kind)
  | .unprocessed => some f.unprocessed
  | .dropReceiver c => some (f.dropReceiver c)
  | .recv c => if (f.channels c).alive then (f.recv c).map Prod.snd else none
  | .next res =>
    -- the task takes the next result when it is done with the last message
    match f.task with
    | .awaiting => some (f.next res)
    | _ => none
  | .dispatch => f.dispatch

end Step

end MessageFilter

end SteamWire
