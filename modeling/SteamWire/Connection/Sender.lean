import SteamWire.Semantics.LockedSink
import SteamWire.Transport.Session
import SteamWire.Transport.WebSocket

/-!
# The message sender

Everything a connection sends goes through `MessageSender::send_raw`, from many tasks at once:
calls, heartbeats, the coordinators of games. A task waits for the lock of the sink, and sends its
message through it. Over a websocket the messages are written in the order in which the tasks ask
for the lock, each of them once and whole, whatever tasks are dropped in between
(`MessageSender.sendsInOrder_of_run`). Over TCP that holds as long as no task is dropped
while its message is being written (`MessageSender.sendsInOrder_of_unabandoned`).
-/

namespace SteamWire

open Semantics

namespace MessageSender

variable {SteamID : Type}

/-- The sink of a websocket: a message is put into it as one binary message. When it takes one is
up to the websocket. -/
def webSocketOps (isReady : List WsMessage → Bool) : SinkOps (RawNetMessage SteamID) WsMessage where
  isReady
  encode item buffer := buffer ++ [.binary item.intoBytes]
  frame item := [.binary item.intoBytes]

/-- Messages that can be sent over TCP, with their random bytes. -/
abbrev Sendable (SteamID : Type) :=
  { p : Vector UInt8 3 × RawNetMessage SteamID // TcpSession.isSendable p.2 = true }

/-- The sink of a TCP session. -/
def tcpOps (prims : CryptPrimitives) (encoder : RawMessageEncoder) :
    SinkOps (Sendable SteamID) UInt8 where
  isReady buffer := buffer.length < TcpSession.backpressureBoundary
  encode item buffer :=
    match RawMessageEncoder.encode prims encoder item.val.1 item.val.2 buffer with
    | .ok bytes => bytes
    | _ => buffer
  frame item :=
    match RawMessageEncoder.frame prims encoder item.val.1 item.val.2 with
    | .ok bytes => bytes
    | _ => []

/-- One task at a time has the lock, the messages get into the sink in the order in which their
tasks asked for it, they are written whole and in that order, and those of the tasks that have
returned are all written. -/
def SendsInOrder {M β : Type} (ops : SinkOps M β) (s : LockedSink M β) : Prop :=
  s.Ordered ∧ s.Whole ops ∧ s.Written ops

variable {isReady : List WsMessage → Bool} {prims : CryptPrimitives} {encoder : RawMessageEncoder}

/-! ### Over a websocket -/

/-- Whatever tasks send, fail and are dropped, messages are sent in order. -/
theorem sendsInOrder_of_run {s : LockedSink (RawNetMessage SteamID) WsMessage}
    {w : List (LockedSink.Action (RawNetMessage SteamID))}
    (hrun : run (LockedSink.step (webSocketOps isReady)) {} w = some s) :
    SendsInOrder (webSocketOps isReady) s := by
  refine LockedSink.written_of_run hrun (AllSteps.of_forall (fun s a => ?_) _ w)
  cases a with
  | accept i => exact fun item _ => rfl
  | _ => trivial

/-- Without new tasks, errors and drops, there are only so many steps, and they are over only when
every task is at its end: nobody waits for the lock forever. -/
theorem settles_of_run {s t : LockedSink (RawNetMessage SteamID) WsMessage}
    {w v : List (LockedSink.Action (RawNetMessage SteamID))} (hready : isReady [] = true)
    (hrun : run (LockedSink.step (webSocketOps isReady)) {} w = some s)
    (hv : ∀ a ∈ v, LockedSink.IsOwn a)
    (hown : run (LockedSink.step (webSocketOps isReady)) s v = some t) :
    v.length ≤ LockedSink.measure (webSocketOps isReady) s ∧
      (Quiet (LockedSink.step (webSocketOps isReady)) LockedSink.IsOwn t →
        ∀ p ∈ t.phases, p.isPending = false) := by
  have hordered : s.Ordered := LockedSink.ordered_of_reachable ⟨{}, w, rfl, hrun⟩
  constructor
  · refine LockedSink.length_le_measure hordered (fun item b => ?_) hv hown
    exact (List.length_append ..).le
  · have hreach : Reachable (LockedSink.step (webSocketOps isReady)) (· = {}) t :=
      ⟨{}, w ++ v, rfl, by rw [run_append, hrun]; exact hown⟩
    exact LockedSink.not_isPending_of_quiet (LockedSink.ordered_of_reachable hreach) hready

/-! ### Over TCP -/

/-- A message that finds the buffer empty is encoded as its frame. -/
theorem encode_nil (item : Sendable SteamID) :
    (tcpOps prims encoder).encode item [] = (tcpOps prims encoder).frame item := by
  obtain ⟨bytes, hframe, hencode⟩ :=
    TcpSession.exists_encode_eq prims encoder.key item.val.1 [] item.property
  simp only [tcpOps]
  rw [hframe, hencode]

/-- As long as no task is dropped and no error is seen while a message is being written, messages
are sent in order. -/
theorem sendsInOrder_of_unabandoned {s : LockedSink (Sendable SteamID) UInt8}
    {w : List (LockedSink.Action (Sendable SteamID))}
    (hrun : run (LockedSink.step (tcpOps prims encoder)) {} w = some s)
    (h : AllSteps (LockedSink.step (tcpOps prims encoder)) LockedSink.Unabandoned {} w) :
    SendsInOrder (tcpOps prims encoder) s :=
  LockedSink.written_of_run hrun (LockedSink.appends_of_unabandoned encode_nil h)

/-! ### Two tasks -/

/-- The first of two tasks is dropped while its message is in the sink; the second one sends both
messages. -/
def droppedRun : List (LockedSink.Action (RawNetMessage UInt64)) :=
  [.call RawMessageEncoder.serviceMethodMessage, .call RawMessageEncoder.serviceMethodMessage,
    .acquire 0, .accept 0, .cancel 0, .acquire 1, .accept 1]

theorem sendsInOrder_of_run_dropped :
    ∃ s, run (LockedSink.step (webSocketOps fun _ => true)) {} droppedRun = some s ∧
      SendsInOrder (webSocketOps fun _ => true) s :=
  ⟨_, rfl, @sendsInOrder_of_run UInt64 (fun _ => true) _ droppedRun rfl⟩

theorem settles_of_run_dropped :
    ∃ s t, run (LockedSink.step (webSocketOps fun _ => true)) {} droppedRun = some s ∧
      run (LockedSink.step (webSocketOps fun _ => true)) s [.write 2, .finish 1] = some t ∧
        2 ≤ LockedSink.measure (webSocketOps fun _ => true) s ∧
          (Quiet (LockedSink.step (webSocketOps fun _ => true)) LockedSink.IsOwn t →
            ∀ p ∈ t.phases, p.isPending = false) :=
  ⟨_, _, rfl, rfl, @settles_of_run UInt64 (fun _ => true) _ _ droppedRun [.write 2, .finish 1] rfl
    rfl (by simp [LockedSink.IsOwn]) rfl⟩

/-- A message for TCP, with zeros for its random bytes. -/
def tcpMessage : Sendable UInt64 :=
  ⟨(Vector.replicate 3 0, RawMessageEncoder.serviceMethodMessage), by decide⟩

/-- The first of two tasks is dropped while it waits, and the second one sends. -/
def patientRun : List (LockedSink.Action (Sendable UInt64)) :=
  [.call tcpMessage, .call tcpMessage, .cancel 0, .acquire 1, .accept 1]

theorem sendsInOrder_of_unabandoned_patient :
    ∃ s, run (LockedSink.step (tcpOps RawMessageEncoder.idPrimitives ⟨Vector.replicate 32 0⟩)) {}
        patientRun = some s ∧
      SendsInOrder (tcpOps RawMessageEncoder.idPrimitives ⟨Vector.replicate 32 0⟩) s := by
  have hguard : AllSteps
      (LockedSink.step (tcpOps RawMessageEncoder.idPrimitives ⟨Vector.replicate 32 0⟩))
      LockedSink.Unabandoned {} patientRun :=
    .cons trivial rfl (.cons trivial rfl (.cons (by intro h; cases h) rfl
      (.cons trivial rfl (.cons trivial rfl trivial))))
  exact ⟨_, rfl, @sendsInOrder_of_unabandoned UInt64 RawMessageEncoder.idPrimitives
    ⟨Vector.replicate 32 0⟩ _ patientRun rfl hguard⟩

end MessageSender

end SteamWire
