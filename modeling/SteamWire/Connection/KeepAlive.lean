import SteamWire.Connection.Heartbeat
import SteamWire.Semantics.SharedOwnership

/-!
# How long a connection is kept alive

A connection from its hello to its last clone, over all ways to start a session: the owners of its
drop guard and of its sink, and the heartbeat task between them. A flow that fails or is dropped
takes the connection with it. Clones of the connection share the guard, and the last of them
cancels the heartbeats. Game coordinators share the sink only.

`KeepAlive.kept_of_run` says what holds of every run: heartbeats are cancelled exactly when there
is no clone left, whatever coordinators there are, the task ends no sooner, and the sink is dropped
exactly when clones, coordinators and the task are gone. `KeepAlive.endsSoon_iff` says when the task
ends soon after: exactly if a sleep of the session's interval is not over when it is polled for the
first time. The timer that settles this is a parameter.
-/

namespace SteamWire

open Semantics

/-! ### The task -/

/-- The sleep that the task waits for: not polled yet, polled, or over. -/
inductive Timer where
  | fresh
  | pending
  | elapsed
  deriving DecidableEq, Repr

namespace Timer

/-- A sleep that is polled is over: a new one if the timer of the runtime says so. -/
def Ready (overAtOnce : Duration → Bool) (interval : Duration) : Timer → Prop
  | .fresh => overAtOnce interval = true
  | .pending => False
  | .elapsed => True

instance (overAtOnce : Duration → Bool) (interval : Duration) :
    DecidablePred (Ready overAtOnce interval)
  | .fresh => inferInstanceAs (Decidable (overAtOnce interval = true))
  | .pending => isFalse id
  | .elapsed => isTrue trivial

end Timer

/-- The heartbeats of a session. -/
structure Heartbeat (SteamID : Type) where
  session : Session SteamID
  task : HeartbeatTask := .waiting
  timer : Timer := .fresh

/-- What happens to the task, next to what it does: it waits, or its sleep is over. -/
inductive TaskEvent (SteamID : Type) where
  | pend
  | elapse
  | act (e : HeartbeatEvent SteamID)

/-- What the task does itself. -/
def TaskEvent.actions {SteamID : Type} : TaskEvent SteamID → List (HeartbeatEvent SteamID)
  | .act e => [e]
  | _ => []

/-- A heartbeat is handed to the sender, or cannot be made. -/
def TaskEvent.isSend {SteamID : Type} : TaskEvent SteamID → Bool
  | .act (.send _) => true
  | _ => false

namespace Heartbeat

variable {SteamID : Type} (overAtOnce : Duration → Bool)

/-- What the task can do when it is polled. -/
def Allows (heartbeat : Heartbeat SteamID) (cancelled : Bool) : HeartbeatEvent SteamID → Prop
  | .sleep _ => heartbeat.timer.Ready overAtOnce heartbeat.session.heartbeatInterval
  | .cancelled => cancelled = true
  | .send _ => True

instance (heartbeat : Heartbeat SteamID) (cancelled : Bool) :
    DecidablePred (heartbeat.Allows overAtOnce cancelled)
  | .sleep _ => inferInstanceAs (Decidable (heartbeat.timer.Ready overAtOnce _))
  | .cancelled => inferInstanceAs (Decidable (_ = true))
  | .send _ => isTrue trivial

variable [SteamIdOps SteamID] [DecidableEq SteamID]

/-- One step of the task. Of a sleep that is over and a cancellation, either may come first. -/
def step (codec : HeaderCodec) (cancelled : Bool) (heartbeat : Heartbeat SteamID) :
    TaskEvent SteamID → Option (Heartbeat SteamID)
  | .pend =>
    -- a new sleep and the cancellation are polled at once
    if heartbeat.task = .waiting ∧ heartbeat.timer = .fresh ∧ cancelled = false ∧
        overAtOnce heartbeat.session.heartbeatInterval = false then
      some { heartbeat with timer := .pending }
    else none
  | .elapse =>
    if heartbeat.task = .waiting ∧ heartbeat.timer = .pending then
      some { heartbeat with timer := .elapsed }
    else none
  | .act e =>
    if heartbeat.Allows overAtOnce cancelled e then
      (heartbeat.session.heartbeatStep codec heartbeat.task e).map fun task =>
        { heartbeat with task, timer := .fresh }
    else none

/-! ### What the task can do -/

section Task

variable {overAtOnce : Duration → Bool} {codec : HeaderCodec} {cancelled : Bool}
  {heartbeat t : Heartbeat SteamID} {e : TaskEvent SteamID}

/-- What a step of the task can be. -/
inductive StepsTo (overAtOnce : Duration → Bool) (codec : HeaderCodec) (cancelled : Bool)
    (heartbeat : Heartbeat SteamID) :
    TaskEvent SteamID → Heartbeat SteamID → Prop
  | pend (htask : heartbeat.task = .waiting) (htimer : heartbeat.timer = .fresh)
      (hcancelled : cancelled = false)
      (hinterval : overAtOnce heartbeat.session.heartbeatInterval = false) :
    StepsTo overAtOnce codec cancelled heartbeat .pend { heartbeat with timer := .pending }
  | elapse (htask : heartbeat.task = .waiting) (htimer : heartbeat.timer = .pending) :
    StepsTo overAtOnce codec cancelled heartbeat .elapse { heartbeat with timer := .elapsed }
  | sleep (htask : heartbeat.task = .waiting)
      (hready : heartbeat.timer.Ready overAtOnce heartbeat.session.heartbeatInterval) :
    StepsTo overAtOnce codec cancelled heartbeat (.act (.sleep heartbeat.session.heartbeatInterval))
      { heartbeat with task := .awake, timer := .fresh }
  | cancel (htask : heartbeat.task = .waiting) (hcancelled : cancelled = true) :
    StepsTo overAtOnce codec cancelled heartbeat (.act .cancelled)
      { heartbeat with task := .stopped, timer := .fresh }
  | send (htask : heartbeat.task = .awake) :
    StepsTo overAtOnce codec cancelled heartbeat (.act (.send (heartbeat.session.heartbeat codec)))
      { heartbeat with task := .waiting, timer := .fresh }

theorem stepsTo_of_step (h : heartbeat.step overAtOnce codec cancelled e = some t) :
    StepsTo overAtOnce codec cancelled heartbeat e t := by
  cases e with
  | pend =>
    obtain ⟨⟨htask, htimer, hcancelled, hinterval⟩, heq⟩ := Option.ite_none_right_eq_some.mp h
    exact Option.some.inj heq ▸ .pend htask htimer hcancelled hinterval
  | elapse =>
    obtain ⟨⟨htask, htimer⟩, heq⟩ := Option.ite_none_right_eq_some.mp h
    exact Option.some.inj heq ▸ .elapse htask htimer
  | act e =>
    obtain ⟨hallows, hnext⟩ := Option.ite_none_right_eq_some.mp h
    obtain ⟨task, htask, rfl⟩ := Option.map_eq_some_iff.mp hnext
    generalize hbefore : heartbeat.task = before at htask
    cases heartbeatStepsTo_of_step htask with
    | sleep => exact .sleep hbefore hallows
    | cancelled => exact .cancel hbefore hallows
    | send => exact .send hbefore

/-- The task does what the one of its session does. -/
theorem refines_of_step (h : heartbeat.step overAtOnce codec cancelled e = some t) :
    t.session = heartbeat.session ∧
      run (heartbeat.session.heartbeatStep codec) heartbeat.task e.actions = some t.task := by
  cases e with
  | pend | elapse =>
    cases stepsTo_of_step h
    exact ⟨rfl, rfl⟩
  | act e =>
    obtain ⟨-, hnext⟩ := Option.ite_none_right_eq_some.mp h
    obtain ⟨task, htask, rfl⟩ := Option.map_eq_some_iff.mp hnext
    exact ⟨rfl, run_cons_eq_some.mpr ⟨task, htask, rfl⟩⟩

/-- The task does not start again, and ends by its cancellation only. -/
theorem StepsTo.running (h : StepsTo overAtOnce codec cancelled heartbeat e t) :
    heartbeat.task ≠ .stopped ∧ (t.task = .stopped → cancelled = true) := by
  cases h with
  | pend htask | elapse htask => simp [htask]
  | sleep htask | send htask => simp [htask]
  | cancel htask hcancelled => simp [htask, hcancelled]

/-- How many steps a cancelled task has left. -/
def stepsLeft (heartbeat : Heartbeat SteamID) : Nat :=
  match heartbeat.task, heartbeat.timer with
  | .waiting, .fresh => 1
  | .waiting, .pending => 4
  | .waiting, .elapsed => 3
  | .awake, _ => 2
  | .stopped, _ => 0

/-- How many heartbeats a cancelled task has left. -/
def sendsLeft (heartbeat : Heartbeat SteamID) : Nat :=
  match heartbeat.task, heartbeat.timer with
  | .waiting, .fresh | .stopped, _ => 0
  | .waiting, .pending | .waiting, .elapsed | .awake, _ => 1

/-- A cancelled task uses up its steps, and its heartbeat by sending. -/
theorem StepsTo.left (h : StepsTo overAtOnce codec true heartbeat e t)
    (hinterval : overAtOnce heartbeat.session.heartbeatInterval = false) :
    t.stepsLeft < heartbeat.stepsLeft ∧ t.sendsLeft ≤ heartbeat.sendsLeft ∧
      (e.isSend → t.sendsLeft < heartbeat.sendsLeft) := by
  obtain ⟨session, task, timer⟩ := heartbeat
  cases h with
  | pend _ _ hcancelled => cases hcancelled
  | elapse htask htimer =>
    cases htask
    cases htimer
    simp [stepsLeft, sendsLeft, TaskEvent.isSend]
  | sleep htask hready =>
    cases htask
    cases timer with
    -- a new sleep is not over when it is polled for the first time
    | fresh => exact absurd (hready.symm.trans hinterval) Bool.noConfusion
    | pending => exact hready.elim
    | elapsed => simp [stepsLeft, sendsLeft, TaskEvent.isSend]
  | cancel htask =>
    cases htask
    cases timer <;> simp [stepsLeft, sendsLeft, TaskEvent.isSend]
  | send htask =>
    cases htask
    simp [stepsLeft, sendsLeft]

end Task

end Heartbeat

/-! ### The connection -/

/-- The ways to start a session. -/
inductive Flow where
  | anonymous
  | anonymousServer
  | login
  | access
  deriving DecidableEq, Repr

/-- Where a connection is: `over` if it was given up before it was handed out. -/
inductive Stage where
  | greeting
  | unauthenticated
  | entering (flow : Flow)
  | generating
  | connected
  | over
  deriving DecidableEq, Repr

/-- The stage of a connection that has a session. -/
def Flow.next : Flow → Stage
  | .access => .generating
  | _ => .connected

namespace Stage

/-- The connection is not handed out yet. -/
def IsPending : Stage → Prop
  | .greeting | .unauthenticated | .entering _ | .generating => True
  | .connected | .over => False

instance : DecidablePred IsPending
  | .greeting | .unauthenticated | .entering _ | .generating => isTrue trivial
  | .connected | .over => isFalse id

/-- The connection has no session yet. -/
def IsEarly : Stage → Prop
  | .greeting | .unauthenticated | .entering _ => True
  | .generating | .connected | .over => False

end Stage

/-- A connection with its owners. The guard is that of the cancellation token. -/
structure KeepAlive (SteamID : Type) where
  stage : Stage := .greeting
  /-- The clones that are there; the first one is that of the flow. -/
  handles : List Nat := [0]
  nextHandle : Nat := 1
  coordinators : Nat := 0
  guard : Arc := {}
  sink : Arc := {}
  heartbeat : Option (Heartbeat SteamID) := none

namespace KeepAlive

variable {SteamID : Type}

/-- What can happen to a connection. -/
inductive Event (SteamID : Type) where
  /-- The hello is sent. -/
  | greet
  | enter (flow : Flow)
  /-- The flow got a session. -/
  | logon (session : Session SteamID)
  /-- The flow got a token for the web. -/
  | generate (webAccessToken : String)
  /-- The hello or the flow failed, or was dropped. -/
  | giveUp
  | clone (h : Nat)
  | drop (h : Nat)
  | newCoordinator (h : Nat)
  | dropCoordinator
  | task (e : TaskEvent SteamID)

/-- The token of the heartbeats is cancelled. -/
def cancelled (s : KeepAlive SteamID) : Bool := s.guard.dropped

/-- A clone goes. -/
def dropHandle (s : KeepAlive SteamID) (h : Nat) : KeepAlive SteamID :=
  { s with
    handles := s.handles.erase h
    guard := s.guard.drop
    sink := s.sink.drop }

variable [SteamIdOps SteamID] [DecidableEq SteamID]

/-- The heartbeat task goes on; at its end it drops its sender. -/
def afterTask (s : KeepAlive SteamID) (heartbeat : Heartbeat SteamID) : KeepAlive SteamID :=
  { s with
    heartbeat := some heartbeat
    sink := if heartbeat.task = .stopped then s.sink.drop else s.sink }

/-- One step of a connection. -/
def step (overAtOnce : Duration → Bool) (codec : HeaderCodec) (s : KeepAlive SteamID) :
    Event SteamID → Option (KeepAlive SteamID)
  | .greet => if s.stage = .greeting then some { s with stage := .unauthenticated } else none
  | .enter flow =>
    if s.stage = .unauthenticated then some { s with stage := .entering flow } else none
  | .logon session =>
    match s.stage with
    | .entering flow =>
      -- the heartbeats start at once, with a sender of their own
      some { s with
        stage := flow.next
        sink := s.sink.clone
        heartbeat := some { session } }
    | _ => none
  | .generate _ => if s.stage = .generating then some { s with stage := .connected } else none
  | .giveUp =>
    if s.stage.IsPending then some { s.dropHandle 0 with stage := .over } else none
  | .clone h =>
    if s.stage = .connected ∧ h ∈ s.handles then
      some { s with
        handles := s.handles ++ [s.nextHandle]
        nextHandle := s.nextHandle + 1
        guard := s.guard.clone
        sink := s.sink.clone }
    else none
  | .drop h => if s.stage = .connected ∧ h ∈ s.handles then some (s.dropHandle h) else none
  | .newCoordinator h =>
    if s.stage = .connected ∧ h ∈ s.handles then
      some { s with coordinators := s.coordinators + 1, sink := s.sink.clone }
    else none
  | .dropCoordinator =>
    if 0 < s.coordinators then
      some { s with coordinators := s.coordinators - 1, sink := s.sink.drop }
    else none
  | .task e =>
    s.heartbeat.bind fun heartbeat =>
      (heartbeat.step overAtOnce codec s.cancelled e).map s.afterTask

/-! ### What a step can be -/

section StepsTo

variable {overAtOnce : Duration → Bool} {codec : HeaderCodec} {s t : KeepAlive SteamID}
  {e : Event SteamID}

/-- What a step can be. -/
inductive StepsTo (overAtOnce : Duration → Bool) (codec : HeaderCodec) (s : KeepAlive SteamID) :
    Event SteamID → KeepAlive SteamID → Prop
  | greet (hstage : s.stage = .greeting) :
    StepsTo overAtOnce codec s .greet { s with stage := .unauthenticated }
  | enter {flow : Flow} (hstage : s.stage = .unauthenticated) :
    StepsTo overAtOnce codec s (.enter flow) { s with stage := .entering flow }
  | logon {flow : Flow} {session : Session SteamID} (hstage : s.stage = .entering flow) :
    StepsTo overAtOnce codec s (.logon session)
      { s with stage := flow.next, sink := s.sink.clone, heartbeat := some { session } }
  | generate {webAccessToken : String} (hstage : s.stage = .generating) :
    StepsTo overAtOnce codec s (.generate webAccessToken) { s with stage := .connected }
  | giveUp (hstage : s.stage.IsPending) :
    StepsTo overAtOnce codec s .giveUp { s.dropHandle 0 with stage := .over }
  | clone {h : Nat} (hstage : s.stage = .connected) (hh : h ∈ s.handles) :
    StepsTo overAtOnce codec s (.clone h)
      { s with
        handles := s.handles ++ [s.nextHandle]
        nextHandle := s.nextHandle + 1
        guard := s.guard.clone
        sink := s.sink.clone }
  | drop {h : Nat} (hstage : s.stage = .connected) (hh : h ∈ s.handles) :
    StepsTo overAtOnce codec s (.drop h) (s.dropHandle h)
  | newCoordinator {h : Nat} (hstage : s.stage = .connected) (hh : h ∈ s.handles) :
    StepsTo overAtOnce codec s (.newCoordinator h)
      { s with coordinators := s.coordinators + 1, sink := s.sink.clone }
  | dropCoordinator (hpos : 0 < s.coordinators) :
    StepsTo overAtOnce codec s .dropCoordinator
      { s with coordinators := s.coordinators - 1, sink := s.sink.drop }
  | task {heartbeat heartbeat' : Heartbeat SteamID} {e : TaskEvent SteamID}
      (hheartbeat : s.heartbeat = some heartbeat)
      (hstep : heartbeat.step overAtOnce codec s.cancelled e = some heartbeat') :
    StepsTo overAtOnce codec s (.task e) (s.afterTask heartbeat')

theorem stepsTo_of_step (h : s.step overAtOnce codec e = some t) :
    StepsTo overAtOnce codec s e t := by
  cases e with
  | greet =>
    obtain ⟨hstage, heq⟩ := Option.ite_none_right_eq_some.mp h
    exact Option.some.inj heq ▸ .greet hstage
  | enter flow =>
    obtain ⟨hstage, heq⟩ := Option.ite_none_right_eq_some.mp h
    exact Option.some.inj heq ▸ .enter hstage
  | logon session =>
    unfold step at h
    dsimp only at h
    split at h
    case h_1 flow hstage => exact Option.some.inj h ▸ .logon hstage
    case h_2 => cases h
  | generate webAccessToken =>
    obtain ⟨hstage, heq⟩ := Option.ite_none_right_eq_some.mp h
    exact Option.some.inj heq ▸ .generate hstage
  | giveUp =>
    obtain ⟨hstage, heq⟩ := Option.ite_none_right_eq_some.mp h
    exact Option.some.inj heq ▸ .giveUp hstage
  | clone h' =>
    obtain ⟨⟨hstage, hh⟩, heq⟩ := Option.ite_none_right_eq_some.mp h
    exact Option.some.inj heq ▸ .clone hstage hh
  | drop h' =>
    obtain ⟨⟨hstage, hh⟩, heq⟩ := Option.ite_none_right_eq_some.mp h
    exact Option.some.inj heq ▸ .drop hstage hh
  | newCoordinator h' =>
    obtain ⟨⟨hstage, hh⟩, heq⟩ := Option.ite_none_right_eq_some.mp h
    exact Option.some.inj heq ▸ .newCoordinator hstage hh
  | dropCoordinator =>
    obtain ⟨hpos, heq⟩ := Option.ite_none_right_eq_some.mp h
    exact Option.some.inj heq ▸ .dropCoordinator hpos
  | task e =>
    obtain ⟨heartbeat, hheartbeat, hnext⟩ := Option.bind_eq_some_iff.mp h
    obtain ⟨heartbeat', hstep, rfl⟩ := Option.map_eq_some_iff.mp hnext
    exact .task hheartbeat hstep

end StepsTo

/-! ### What holds of every run -/

/-- A step of the heartbeat task. -/
def Event.isTask : Event SteamID → Bool
  | .task _ => true
  | _ => false

def Event.isSend : Event SteamID → Bool
  | .task e => e.isSend
  | _ => false

/-- What the heartbeat task did. -/
def actions (w : List (Event SteamID)) : List (HeartbeatEvent SteamID) :=
  w.flatMap fun
    | .task e => e.actions
    | _ => []

section Kept

variable (codec : HeaderCodec)

/-- How a connection is kept. -/
structure Kept (w : List (Event SteamID)) (s : KeepAlive SteamID) : Prop where
  cancelled : s.cancelled = true ↔ s.handles = []
  running : ∀ heartbeat, s.heartbeat = some heartbeat → heartbeat.task = .stopped → s.handles = []
  sink : s.sink.dropped = true ↔ s.handles = [] ∧ s.coordinators = 0 ∧
    ∀ heartbeat, s.heartbeat = some heartbeat → heartbeat.task = .stopped
  session : ∀ session, .logon session ∈ w → ∃ heartbeat, s.heartbeat = some heartbeat ∧
    heartbeat.session = session
  silent : s.heartbeat = none → actions w = []
  beats : ∀ heartbeat, s.heartbeat = some heartbeat → .logon heartbeat.session ∈ w ∧
    run (heartbeat.session.heartbeatStep codec) .waiting (actions w) = some heartbeat.task

/-- A heartbeat task that has not ended owns a sender. -/
def beating (s : KeepAlive SteamID) : Nat :=
  match s.heartbeat with
  | some heartbeat => if heartbeat.task = .stopped then 0 else 1
  | none => 0

/-- The counts are those of the owners. -/
structure Inv (s : KeepAlive SteamID) : Prop where
  guard : s.guard.Counts s.handles.length
  sink : s.sink.Counts (s.handles.length + s.coordinators + s.beating)
  pending : s.stage.IsPending → s.handles = [0]
  early : s.stage.IsEarly → s.heartbeat = none

variable {codec} {overAtOnce : Duration → Bool} {s t : KeepAlive SteamID} {e : Event SteamID}
  {w : List (Event SteamID)} {h : Nat}

omit [SteamIdOps SteamID] [DecidableEq SteamID] in
/-- The owners after a clone is gone. -/
theorem Inv.dropHandle (hs : s.Inv) (hh : h ∈ s.handles) :
    (s.dropHandle h).guard.Counts (s.dropHandle h).handles.length ∧
      (s.dropHandle h).sink.Counts
        ((s.dropHandle h).handles.length + s.coordinators + s.beating) := by
  have hlen : s.handles.length = (s.handles.erase h).length + 1 := by
    rw [List.length_erase_of_mem hh]
    exact (Nat.sub_add_cancel (List.length_pos_of_mem hh)).symm
  have hguard := hs.guard
  have hsink := hs.sink
  rw [hlen] at hguard hsink
  refine ⟨hguard.drop, Arc.Counts.drop ?_⟩
  convert hsink using 1
  simp only [KeepAlive.dropHandle]
  omega

omit [SteamIdOps SteamID] [DecidableEq SteamID] in
/-- The owners after a step of the heartbeat task. -/
theorem Inv.afterTask (hs : s.Inv) {heartbeat heartbeat' : Heartbeat SteamID}
    (hheartbeat : s.heartbeat = some heartbeat) (hrunning : heartbeat.task ≠ .stopped) :
    (s.afterTask heartbeat').sink.Counts
      (s.handles.length + s.coordinators + (s.afterTask heartbeat').beating) := by
  have hsink := hs.sink
  have hbeating : s.beating = 1 := by
    rw [beating, hheartbeat]
    exact if_neg hrunning
  rw [hbeating] at hsink
  rw [beating, KeepAlive.afterTask]
  dsimp only
  split_ifs with hstopped
  · exact hsink.drop
  · exact hsink

theorem Inv.of_stepsTo (hs : s.Inv) (hsteps : StepsTo overAtOnce codec s e t) : t.Inv := by
  have hpos : ∀ {h}, h ∈ s.handles → 0 < s.handles.length := fun hh => List.length_pos_of_mem hh
  cases hsteps with
  | greet hstage | enter hstage =>
    exact ⟨hs.guard, hs.sink, fun _ => hs.pending (by rw [hstage]; trivial),
      fun _ => hs.early (by rw [hstage]; trivial)⟩
  | @logon flow session hstage =>
    -- a flow gets one session, so no other task has a sender
    have hnone : s.heartbeat = none := hs.early (by rw [hstage]; trivial)
    have hzero : s.beating = 0 := by rw [beating, hnone]
    have hhandles : s.handles = [0] := hs.pending (by rw [hstage]; trivial)
    have hsink := hs.sink
    rw [hzero] at hsink
    refine ⟨hs.guard, hsink.clone ?_, fun _ => hhandles, fun hearly => ?_⟩
    · rw [hhandles, List.length_singleton]
      omega
    · cases flow <;> exact hearly.elim
  | generate hstage =>
    exact ⟨hs.guard, hs.sink, fun hpending => hpending.elim, fun hearly => hearly.elim⟩
  | giveUp hstage =>
    have hdrop := hs.dropHandle (h := 0) (by rw [hs.pending hstage]; exact List.mem_singleton_self 0)
    exact ⟨hdrop.1, hdrop.2, fun hpending => hpending.elim, fun hearly => hearly.elim⟩
  | clone hstage hh =>
    refine ⟨?_, ?_, fun hpending => ?_, fun hearly => ?_⟩
    · -- the clone that is cloned keeps the count above zero
      rw [List.length_append]
      exact hs.guard.clone (hpos hh)
    · have hsink := hs.sink.clone (by have := hpos hh; omega)
      convert hsink using 1
      simp only [List.length_append, List.length_singleton, beating]
      omega
    · rw [hstage] at hpending
      exact hpending.elim
    · rw [hstage] at hearly
      exact hearly.elim
  | drop hstage hh =>
    have hdrop := hs.dropHandle hh
    refine ⟨hdrop.1, hdrop.2, fun hpending => ?_, fun hearly => ?_⟩
    · rw [show (s.dropHandle _).stage = s.stage from rfl, hstage] at hpending
      exact hpending.elim
    · rw [show (s.dropHandle _).stage = s.stage from rfl, hstage] at hearly
      exact hearly.elim
  | newCoordinator hstage hh =>
    have hsink := hs.sink.clone (by have := hpos hh; omega)
    refine ⟨hs.guard, ?_, hs.pending, hs.early⟩
    convert hsink using 1
    simp only [beating]
    omega
  | dropCoordinator hcoordinators =>
    -- the guard does not notice
    have hsink := hs.sink
    obtain ⟨n, hn⟩ := Nat.exists_eq_succ_of_ne_zero hcoordinators.ne'
    rw [hn] at hsink
    refine ⟨hs.guard, Arc.Counts.drop ?_, hs.pending, hs.early⟩
    convert hsink using 1
    simp only [beating, hn]
    omega
  | task hheartbeat hstep =>
    have hrunning := (Heartbeat.stepsTo_of_step hstep).running.1
    refine ⟨hs.guard, hs.afterTask hheartbeat hrunning, hs.pending, fun hearly => ?_⟩
    rw [hs.early hearly] at hheartbeat
    cases hheartbeat

omit [SteamIdOps SteamID] [DecidableEq SteamID] in
theorem Inv.cancelled_iff (hs : s.Inv) : s.cancelled = true ↔ s.handles = [] :=
  hs.guard.dropped.trans List.length_eq_zero_iff

omit [SteamIdOps SteamID] [DecidableEq SteamID] in
theorem Inv.sink_iff (hs : s.Inv) : s.sink.dropped = true ↔ s.handles = [] ∧ s.coordinators = 0 ∧
    ∀ heartbeat, s.heartbeat = some heartbeat → heartbeat.task = .stopped := by
  have hbeating : s.beating = 0 ↔
      ∀ heartbeat, s.heartbeat = some heartbeat → heartbeat.task = .stopped := by
    rw [beating]
    cases s.heartbeat <;> simp
  rw [hs.sink.dropped, Nat.add_eq_zero_iff, Nat.add_eq_zero_iff, List.length_eq_zero_iff, hbeating,
    and_assoc]

/-- No clone comes back. -/
theorem StepsTo.handles_eq_nil (hsteps : StepsTo overAtOnce codec s e t) (hs : s.handles = []) :
    t.handles = [] := by
  cases hsteps with
  | clone _ hh | drop _ hh | newCoordinator _ hh =>
    rw [hs] at hh
    cases hh
  | giveUp => exact congrArg (List.erase · 0) hs
  | greet | enter | logon | generate | dropCoordinator | task => exact hs

/-- What happens to the heartbeats. -/
theorem StepsTo.heartbeat_cases (hsteps : StepsTo overAtOnce codec s e t) :
    (t.heartbeat = s.heartbeat ∧ e.isTask = false ∧ ∀ session, e ≠ .logon session) ∨
      (∃ session, e = .logon session ∧ s.stage.IsEarly ∧ t.heartbeat = some { session }) ∨
        ∃ e' heartbeat heartbeat', e = .task e' ∧ s.heartbeat = some heartbeat ∧
          heartbeat.step overAtOnce codec s.cancelled e' = some heartbeat' ∧
            t.heartbeat = some heartbeat' := by
  cases hsteps with
  | logon hstage => exact .inr (.inl ⟨_, rfl, by rw [hstage]; trivial, rfl⟩)
  | task hheartbeat hstep => exact .inr (.inr ⟨_, _, _, rfl, hheartbeat, hstep, rfl⟩)
  | greet | enter | generate | giveUp | clone | drop | newCoordinator | dropCoordinator =>
    exact .inl ⟨rfl, rfl, fun session heq => by cases heq⟩

omit [SteamIdOps SteamID] [DecidableEq SteamID] in
theorem actions_of_not_isTask (he : e.isTask = false) : actions [e] = [] ∧ e.isSend = false := by
  cases e with
  | task => cases he
  | _ => exact ⟨rfl, rfl⟩

omit [SteamIdOps SteamID] [DecidableEq SteamID] in
theorem actions_concat (w : List (Event SteamID)) (e : Event SteamID) :
    actions (w ++ [e]) = actions w ++ actions [e] := List.flatMap_append

/-- One step of a connection, kept by those before it. -/
theorem Kept.of_stepsTo (hs : s.Inv) (hkept : Kept codec w s)
    (hsteps : StepsTo overAtOnce codec s e t) : Kept codec (w ++ [e]) t := by
  have ht := hs.of_stepsTo hsteps
  suffices hheard : (∀ heartbeat, t.heartbeat = some heartbeat → heartbeat.task = .stopped →
        t.handles = []) ∧
      (∀ session, .logon session ∈ w ++ [e] → ∃ heartbeat, t.heartbeat = some heartbeat ∧
        heartbeat.session = session) ∧
      (t.heartbeat = none → actions (w ++ [e]) = []) ∧
      ∀ heartbeat, t.heartbeat = some heartbeat → .logon heartbeat.session ∈ w ++ [e] ∧
        run (heartbeat.session.heartbeatStep codec) .waiting (actions (w ++ [e])) =
          some heartbeat.task from
    ⟨ht.cancelled_iff, hheard.1, ht.sink_iff, hheard.2.1, hheard.2.2.1, hheard.2.2.2⟩
  rcases hsteps.heartbeat_cases with ⟨hsame, htask, hne⟩ | ⟨session, rfl, hearly, hnew⟩ |
    ⟨e', heartbeat, heartbeat', rfl, hbefore, hstep, hafter⟩
  · -- the heartbeats do not notice
    rw [actions_concat, (actions_of_not_isTask htask).1, List.append_nil, hsame]
    refine ⟨fun heartbeat hheartbeat hstopped =>
      hsteps.handles_eq_nil (hkept.running heartbeat hheartbeat hstopped), ?_, hkept.silent, ?_⟩
    · intro session hmem
      refine hkept.session session ((List.mem_append.mp hmem).resolve_right fun hlast => ?_)
      exact hne session (List.mem_singleton.mp hlast).symm
    · intro heartbeat hheartbeat
      obtain ⟨hlogon, hrun⟩ := hkept.beats heartbeat hheartbeat
      exact ⟨List.mem_append_left _ hlogon, hrun⟩
  · -- the first and only session
    have hnone := hs.early hearly
    rw [actions_concat, hkept.silent hnone, hnew]
    refine ⟨?_, ?_, fun hsome => (by cases hsome), ?_⟩
    · intro heartbeat hheartbeat hstopped
      cases hheartbeat
      cases hstopped
    · intro session' hmem
      rcases List.mem_append.mp hmem with hold | hlast
      · obtain ⟨heartbeat, hheartbeat, -⟩ := hkept.session session' hold
        rw [hnone] at hheartbeat
        cases hheartbeat
      · cases List.mem_singleton.mp hlast
        exact ⟨_, rfl, rfl⟩
    · intro heartbeat hheartbeat
      cases hheartbeat
      exact ⟨List.mem_append_right _ (List.mem_singleton_self _), rfl⟩
  · -- the task goes on, and ends only after the last clone
    obtain ⟨hsession, hrefines⟩ := Heartbeat.refines_of_step hstep
    have hrunning := (Heartbeat.stepsTo_of_step hstep).running
    rw [hafter]
    refine ⟨?_, ?_, fun hnone => (by cases hnone), ?_⟩
    · intro heartbeat'' heq hstopped
      cases heq
      exact hsteps.handles_eq_nil (hs.cancelled_iff.mp (hrunning.2 hstopped))
    · intro session hmem
      have hold := (List.mem_append.mp hmem).resolve_right fun hlast => by
        cases List.mem_singleton.mp hlast
      obtain ⟨heartbeat'', heq, rfl⟩ := hkept.session session hold
      cases hbefore.symm.trans heq
      exact ⟨heartbeat', rfl, hsession⟩
    · intro heartbeat'' heq
      cases heq
      obtain ⟨hlogon, hrun⟩ := hkept.beats heartbeat hbefore
      rw [hsession]
      refine ⟨List.mem_append_left _ hlogon, ?_⟩
      rw [actions_concat, run_append, hrun]
      have hactions : actions [Event.task e'] = e'.actions := List.append_nil _
      rw [hactions]
      exact hrefines

omit [SteamIdOps SteamID] [DecidableEq SteamID] in
theorem inv_start : ({} : KeepAlive SteamID).Inv :=
  ⟨Arc.counts_one, Arc.counts_one, fun _ => rfl, fun _ => rfl⟩

theorem kept_start : Kept codec ([] : List (Event SteamID)) {} where
  cancelled := inv_start.cancelled_iff
  running heartbeat hheartbeat := by cases hheartbeat
  sink := inv_start.sink_iff
  session session hmem := by cases hmem
  silent _ := rfl
  beats heartbeat hheartbeat := by cases hheartbeat

/-- Whatever the owners of a connection do, in whatever order, it is kept as long as a clone of it
is there. -/
theorem kept_of_run (hrun : run (step overAtOnce codec) {} w = some s) : Kept codec w s := by
  have hinv := @run_history (KeepAlive SteamID) (Event SteamID) (step overAtOnce codec)
    (fun w s => s.Inv ∧ Kept codec w s)
    (fun u s e t hs hstep => ⟨hs.1.of_stepsTo (stepsTo_of_step hstep),
      hs.2.of_stepsTo hs.1 (stepsTo_of_step hstep)⟩) [] w _ _ ⟨inv_start, kept_start⟩ hrun
  exact hinv.2

end Kept

/-! ### The end of the heartbeats -/

section EndsSoon

/-- There is no clone left, and the heartbeats of the session are there. -/
structure Orphaned (session : Session SteamID) (s : KeepAlive SteamID) : Prop where
  inv : s.Inv
  handles : s.handles = []
  heartbeat : ∃ heartbeat, s.heartbeat = some heartbeat ∧ heartbeat.session = session

variable (overAtOnce : Duration → Bool) (codec : HeaderCodec)

variable {overAtOnce codec} {session : Session SteamID} {s t : KeepAlive SteamID}
  {e : Event SteamID}

/-- Nobody comes back to an orphaned connection. -/
theorem Orphaned.next (hs : Orphaned session s) (h : s.step overAtOnce codec e = some t) :
    Orphaned session t := by
  have hsteps := stepsTo_of_step h
  obtain ⟨heartbeat, hheartbeat, hsession⟩ := hs.heartbeat
  refine ⟨hs.inv.of_stepsTo hsteps, hsteps.handles_eq_nil hs.handles, ?_⟩
  rcases hsteps.heartbeat_cases with ⟨hsame, -, -⟩ | ⟨_, -, hearly, -⟩ |
    ⟨e', before, after, -, hbefore, hstep, hafter⟩
  · exact ⟨heartbeat, hsame.trans hheartbeat, hsession⟩
  · rw [hs.inv.early hearly] at hheartbeat
    cases hheartbeat
  · cases hbefore.symm.trans hheartbeat
    exact ⟨after, hafter, (Heartbeat.refines_of_step hstep).1.trans hsession⟩

/-- A step either leaves the heartbeats alone, or is one of a cancelled task. -/
theorem Orphaned.heartbeat_cases (hs : Orphaned session s)
    (h : s.step overAtOnce codec e = some t) :
    (t.heartbeat = s.heartbeat ∧ e.isTask = false) ∨
      ∃ e' heartbeat heartbeat', e = .task e' ∧ s.heartbeat = some heartbeat ∧
        heartbeat.session = session ∧
        Heartbeat.StepsTo overAtOnce codec true heartbeat e' heartbeat' ∧
        t.heartbeat = some heartbeat' := by
  obtain ⟨heartbeat, hheartbeat, hsession⟩ := hs.heartbeat
  have hsteps := stepsTo_of_step h
  rcases hsteps.heartbeat_cases with ⟨hsame, htask, -⟩ | ⟨_, -, hearly, -⟩ |
    ⟨e', before, after, rfl, hbefore, hstep, hafter⟩
  · exact .inl ⟨hsame, htask⟩
  · rw [hs.inv.early hearly] at hheartbeat
    cases hheartbeat
  · cases hbefore.symm.trans hheartbeat
    rw [hs.inv.cancelled_iff.mpr hs.handles] at hstep
    exact .inr ⟨e', heartbeat, after, rfl, hbefore, hsession, Heartbeat.stepsTo_of_step hstep, hafter⟩

/-- What the heartbeats of a connection have left. -/
def left (f : Heartbeat SteamID → Nat) (s : KeepAlive SteamID) : Nat := s.heartbeat.elim 0 f

/-- The steps and the heartbeats that are left go down. -/
theorem Orphaned.left (hs : Orphaned session s) (h : s.step overAtOnce codec e = some t)
    (hinterval : overAtOnce session.heartbeatInterval = false) :
    (e.isTask → t.left Heartbeat.stepsLeft < s.left Heartbeat.stepsLeft) ∧
      t.left Heartbeat.stepsLeft ≤ s.left Heartbeat.stepsLeft ∧
        (e.isSend → t.left Heartbeat.sendsLeft < s.left Heartbeat.sendsLeft) ∧
          t.left Heartbeat.sendsLeft ≤ s.left Heartbeat.sendsLeft := by
  unfold KeepAlive.left
  rcases hs.heartbeat_cases h with ⟨hsame, htask⟩ |
    ⟨e', heartbeat, heartbeat', rfl, hbefore, hsession, hsteps, hafter⟩
  · rw [hsame, htask, (actions_of_not_isTask htask).2]
    exact ⟨fun h => (by cases h), Nat.le_refl _, fun h => (by cases h), Nat.le_refl _⟩
  · obtain ⟨hstepsLeft, hsendsLeft, hsend⟩ := hsteps.left (hsession ▸ hinterval)
    rw [hbefore, hafter]
    exact ⟨fun _ => hstepsLeft, hstepsLeft.le, hsend, hsendsLeft⟩

end EndsSoon

section Examples

/-- The session of a user whose heartbeats are a second apart. -/
def secondSession : Session UInt64 :=
  { steamId := 76561197960287930, sessionId := 3, heartbeatInterval := .fromSecs 1 }

/-- Two clones and a coordinator, dropped in this order, and what the task does meanwhile. -/
def sharedRun : List (Event UInt64) :=
  [.greet, .enter .access, .logon secondSession, .task .pend, .generate "web", .clone 0,
    .newCoordinator 1, .drop 0, .task .elapse, .task (.act (.sleep (.fromSecs 1))),
    .task (.act (.send (secondSession.heartbeat HeaderCodec.wire))), .task .pend, .drop 1,
    .task .elapse, .task (.act (.sleep (.fromSecs 1))),
    .task (.act (.send (secondSession.heartbeat HeaderCodec.wire))), .task (.act .cancelled),
    .dropCoordinator]

theorem kept_of_run_shared : ∃ s,
    run (step (fun _ => false) HeaderCodec.wire) {} sharedRun = some s ∧
    s.sink.dropped = true ∧ Kept HeaderCodec.wire sharedRun s := by
  have hrun : ∃ s, run (step (fun _ => false) HeaderCodec.wire) {} sharedRun = some s ∧
      s.sink.dropped = true := by
    exact ⟨_, rfl, by decide⟩
  obtain ⟨s, hs, hsink⟩ := hrun
  exact ⟨s, hs, hsink, kept_of_run hs⟩

end Examples

end KeepAlive

end SteamWire
