import Mathlib.Data.List.Nodup
import SteamWire.Connection.Ownership
import SteamWire.GameCoordinator.Message

/-!
# Connections with game coordinators

A game coordinator has a message filter of its own. A task subscribes to the coordinator
messages of the connection and forwards what is in their envelopes to that filter, through
a bounded channel; the filter's own task takes them from there. The three tasks, the other
users of both filters and any number of coordinators are interleaved step by step.

Three fields record history: the envelope a forwarded message came in, what came in at the
connection since a coordinator subscribed, and what its filter was fed.
-/

namespace SteamWire

open Semantics

/-- The kind of the messages from game coordinators. -/
abbrev fromGcKind : MsgKind := EMsg.kEMsgClientFromGc.kind

/-- A message out of an envelope, as it was read. -/
structure GcMessage (SteamID : Type) where
  envelope : CMsgGcClient
  res : Except NetworkError (RawNetMessage SteamID)

namespace GcMessage

variable {SteamID : Type}

/-- The result that the task of the coordinator's filter takes. -/
def outcome (message : GcMessage SteamID) : Outcome NetworkError (RawNetMessage SteamID) :=
  Outcome.ofExcept message.res

theorem outcome_eq_ok {message : GcMessage SteamID} {m : RawNetMessage SteamID} :
    message.outcome = .ok m ↔ message.res = .ok m := by
  rw [outcome]
  cases message.res <;> simp [Outcome.ofExcept]

end GcMessage

/-- What the forwarding task does next. -/
inductive Forwarder (SteamID : Type) where
  | awaiting
  | sending (message : GcMessage SteamID)
  | stopped

/-- A game coordinator with its forwarding task and the channel between that and its filter. -/
structure GameCoordinator (SteamID : Type) where
  appId : UInt32
  gcMessages : ChanId
  forwarder : Forwarder SteamID := .awaiting
  queue : List (GcMessage SteamID) := []
  filter : MessageFilter SteamID := {}
  received : List (RawNetMessage SteamID) := []
  fed : List (GcMessage SteamID) := []

/-- A connection, as its coordinators share it. -/
structure Connection (SteamID : Type) where
  filter : MessageFilter SteamID := {}
  coordinators : List (GameCoordinator SteamID) := []

namespace MessageFilter

variable {SteamID : Type}

/-- The coordinator message that the task has not looked up in the table of kinds yet. -/
def onItsWay (f : MessageFilter SteamID) : List (RawNetMessage SteamID) :=
  match f.task with
  | .jobLookup item | .multiLookup item | .kindOnceLookup item | .kindLookup item =>
    if item.kind = fromGcKind then [item.message] else []
  | _ => []

/-- The coordinator message that comes in with a step. -/
def Action.fromGc : Action SteamID → List (RawNetMessage SteamID)
  | .next (some (.ok message)) => if message.kind = fromGcKind then [message] else []
  | _ => []

end MessageFilter

namespace GameCoordinator

variable {SteamID : Type} [SteamIdOps SteamID] (codec : HeaderCodec) (gc : GcCodec)

/-- How many messages the channel to the filter of a coordinator holds. -/
def queueCapacity : Nat := 10

/-- What can happen to a coordinator. -/
inductive Action (SteamID : Type) where
  | forward
  | send
  | pull
  | filter (a : MessageFilter.Action SteamID)

/-- What the forwarding task does with a message: one it cannot decode is skipped, and reading
the payload may panic. -/
def openEnvelope (message : RawNetMessage SteamID) : Forwarder SteamID :=
  match message.intoMessage (clientFromGcMessage gc) with
  | .error _ => .awaiting
  | .ok data =>
    match RawNetMessage.read codec (data.payload.getD []) with
    | .ok m => .sending ⟨data, .ok m⟩
    | .err e => .sending ⟨data, .error e⟩
    | .panic => .stopped

/-- The forwarding task takes its next message; the error that tells of messages it missed is
skipped like any other. -/
def forward (f : MessageFilter SteamID) (k : GameCoordinator SteamID) :
    Option (GameCoordinator SteamID × MessageFilter SteamID) :=
  match k.forwarder with
  | .awaiting =>
    (f.recv k.gcMessages).map fun (item, f) =>
      match openEnvelope codec gc item.message with
      -- a panic takes the receiver down with the task
      | .stopped => ({ k with forwarder := .stopped }, f.dropReceiver k.gcMessages)
      | forwarder => ({ k with forwarder }, f)
  | _ => none

/-- The forwarding task hands its message on, waiting for room while the filter's task reads. -/
def send (k : GameCoordinator SteamID) : Option (GameCoordinator SteamID) :=
  match k.forwarder with
  | .sending message =>
    match k.filter.task with
    -- the channel is closed, and the failed send is of no account
    | .stopped => some { k with forwarder := .awaiting }
    | _ =>
      if k.queue.length < queueCapacity then
        some { k with forwarder := .awaiting, queue := k.queue ++ [message] }
      else none
  | _ => none

/-- The task of the filter takes its next result; the channel ends with the forwarding task. -/
def pull (shard : JobId → Nat) (k : GameCoordinator SteamID) : Option (GameCoordinator SteamID) :=
  match k.queue with
  | message :: queue =>
    (k.filter.step shard (.next (some message.outcome))).map fun filter =>
      { k with filter, queue, fed := k.fed ++ [message] }
  | [] =>
    match k.forwarder with
    | .stopped => (k.filter.step shard (.next none)).map fun filter => { k with filter }
    | _ => none

/-- One step of a coordinator over the filter of the connection. -/
def step (shard : JobId → Nat) (f : MessageFilter SteamID) (k : GameCoordinator SteamID) :
    Action SteamID → Option (GameCoordinator SteamID × MessageFilter SteamID)
  | .forward => k.forward codec gc f
  | .send => k.send.map fun k => (k, f)
  | .pull => (k.pull shard).map fun k => (k, f)
  -- the task of the filter gets its results from `pull` alone
  | .filter (.next _) => none
  | .filter a => (k.filter.step shard a).map fun filter => ({ k with filter }, f)

end GameCoordinator

namespace Connection

variable {SteamID : Type} [SteamIdOps SteamID] (codec : HeaderCodec) (gc : GcCodec)

/-- What can happen on a connection with coordinators. -/
inductive Action (SteamID : Type) where
  | initRaw (appId : UInt32)
  | filter (a : MessageFilter.Action SteamID)
  | coordinator (i : Nat) (a : GameCoordinator.Action SteamID)

/-- The receivers of the forwarding tasks are theirs. -/
def Permits (s : Connection SteamID) : MessageFilter.Action SteamID → Prop
  | .dropReceiver c | .recv c => ∀ k ∈ s.coordinators, k.gcMessages ≠ c
  | _ => True

instance (s : Connection SteamID) (a : MessageFilter.Action SteamID) : Decidable (s.Permits a) :=
  match a with
  | .dropReceiver c | .recv c => inferInstanceAs (Decidable (∀ k ∈ s.coordinators, k.gcMessages ≠ c))
  | .onJobId _ | .onJobIdMulti _ | .completeJobIdMulti _ | .onNotification _ | .onKind _
  | .oneKind _ | .unprocessed | .next _ | .dispatch => inferInstanceAs (Decidable True)

/-- One step of a connection with coordinators. -/
def step (shard : JobId → Nat) (s : Connection SteamID) :
    Action SteamID → Option (Connection SteamID)
  | .initRaw appId =>
    -- what is not looked up yet will be broadcast to the new receiver as well
    some {
      filter := s.filter.onKind fromGcKind
      coordinators := s.coordinators ++
        [{ appId, gcMessages := s.filter.nextChan, received := s.filter.onItsWay }] }
  | .filter a =>
    if s.Permits a then
      (s.filter.step shard a).map fun filter =>
        { filter
          coordinators := s.coordinators.map fun k =>
            { k with received := k.received ++ a.fromGc } }
    else none
  | .coordinator i a =>
    s.coordinators[i]?.bind fun k =>
      (k.step codec gc shard s.filter a).map fun (k, filter) =>
        { filter, coordinators := s.coordinators.set i k }

end Connection

/-! ### What a coordinator does -/

namespace GameCoordinator

variable {SteamID : Type} [SteamIdOps SteamID] {codec : HeaderCodec} {gc : GcCodec}
  {shard : JobId → Nat} {f g : MessageFilter SteamID} {k k' : GameCoordinator SteamID}
  {a : Action SteamID}

/-- What becomes of a message that the forwarding task takes. -/
inductive Opens (codec : HeaderCodec) (gc : GcCodec) (message : RawNetMessage SteamID) :
    Forwarder SteamID → Prop
  | skip {e : NetworkError} (hmessage : message.intoMessage (clientFromGcMessage gc) = .error e) :
      Opens codec gc message .awaiting
  | send {data : CMsgGcClient} {res : Except NetworkError (RawNetMessage SteamID)}
      (hmessage : message.intoMessage (clientFromGcMessage gc) = .ok data)
      (hread : RawNetMessage.read codec (data.payload.getD []) = Outcome.ofExcept res) :
      Opens codec gc message (.sending ⟨data, res⟩)
  | panic {data : CMsgGcClient}
      (hmessage : message.intoMessage (clientFromGcMessage gc) = .ok data)
      (hread : (RawNetMessage.read codec (data.payload.getD []) :
        Outcome NetworkError (RawNetMessage SteamID)) = .panic) :
      Opens codec gc message .stopped

theorem opens_openEnvelope (codec : HeaderCodec) (gc : GcCodec) (message : RawNetMessage SteamID) :
    Opens codec gc message (openEnvelope codec gc message) := by
  rw [openEnvelope]
  cases hmessage : message.intoMessage (clientFromGcMessage gc) with
  | error e => exact .skip hmessage
  | ok data =>
    dsimp only
    split <;> rename_i hread
    · exact .send hmessage hread
    · exact .send hmessage hread
    · exact .panic hmessage hread

/-- The steps of a coordinator, with what they do to the filter of the connection. -/
inductive StepsTo (codec : HeaderCodec) (gc : GcCodec) (shard : JobId → Nat)
    (f : MessageFilter SteamID) (k : GameCoordinator SteamID) :
    Action SteamID → GameCoordinator SteamID → MessageFilter SteamID → Prop
  | forward {item : Item SteamID} {g : MessageFilter SteamID} (hawaits : k.forwarder = .awaiting)
      (hrecv : f.recv k.gcMessages = some (item, g))
      (hopen : openEnvelope codec gc item.message ≠ .stopped) :
      StepsTo codec gc shard f k .forward
        { k with forwarder := openEnvelope codec gc item.message } g
  | panic {item : Item SteamID} {g : MessageFilter SteamID} (hawaits : k.forwarder = .awaiting)
      (hrecv : f.recv k.gcMessages = some (item, g))
      (hopen : openEnvelope codec gc item.message = .stopped) :
      StepsTo codec gc shard f k .forward { k with forwarder := .stopped }
        (g.dropReceiver k.gcMessages)
  | send {message : GcMessage SteamID} (hsends : k.forwarder = .sending message)
      (hruns : k.filter.task ≠ .stopped) :
      StepsTo codec gc shard f k .send
        { k with forwarder := .awaiting, queue := k.queue ++ [message] } f
  | discard {message : GcMessage SteamID} (hsends : k.forwarder = .sending message)
      (hstopped : k.filter.task = .stopped) :
      StepsTo codec gc shard f k .send { k with forwarder := .awaiting } f
  | pull {message : GcMessage SteamID} {queue : List (GcMessage SteamID)}
      {filter : MessageFilter SteamID} (hqueue : k.queue = message :: queue)
      (h : k.filter.step shard (.next (some message.outcome)) = some filter) :
      StepsTo codec gc shard f k .pull { k with filter, queue, fed := k.fed ++ [message] } f
  | close {filter : MessageFilter SteamID} (hqueue : k.queue = [])
      (hstopped : k.forwarder = .stopped) (h : k.filter.step shard (.next none) = some filter) :
      StepsTo codec gc shard f k .pull { k with filter } f
  | filter {b : MessageFilter.Action SteamID} {filter : MessageFilter SteamID}
      (hb : ∀ res, b ≠ .next res) (h : k.filter.step shard b = some filter) :
      StepsTo codec gc shard f k (.filter b) { k with filter } f

/-- Every step of a coordinator is one of these. -/
theorem stepsTo_of_step (h : k.step codec gc shard f a = some (k', g)) :
    StepsTo codec gc shard f k a k' g := by
  cases a with
  | forward =>
    simp only [step, forward] at h
    split at h
    · rename_i hawaits
      obtain ⟨⟨item, filter⟩, hrecv, heq⟩ := Option.map_eq_some_iff.mp h
      dsimp only at heq
      split at heq
      · rename_i hopen
        cases heq
        exact .panic hawaits hrecv hopen
      · rename_i hopen
        cases heq
        exact .forward hawaits hrecv hopen
    · cases h
  | send =>
    obtain ⟨k'', hsend, heq⟩ := Option.map_eq_some_iff.mp h
    cases heq
    simp only [send] at hsend
    split at hsend
    · rename_i hsends
      split at hsend
      · rename_i hstopped
        cases hsend
        exact .discard hsends hstopped
      · rename_i hruns
        obtain ⟨-, heq⟩ := Option.ite_none_right_eq_some.mp hsend
        cases heq
        exact .send hsends hruns
    · cases hsend
  | pull =>
    obtain ⟨k'', hpull, heq⟩ := Option.map_eq_some_iff.mp h
    cases heq
    simp only [pull] at hpull
    split at hpull
    · rename_i hqueue
      obtain ⟨filter, hfilter, rfl⟩ := Option.map_eq_some_iff.mp hpull
      exact .pull hqueue hfilter
    · rename_i hqueue
      split at hpull
      · rename_i hstopped
        obtain ⟨filter, hfilter, rfl⟩ := Option.map_eq_some_iff.mp hpull
        exact .close hqueue hstopped hfilter
      · cases hpull
  | filter b =>
    have hb : ∀ res, b ≠ .next res := by
      rintro res rfl
      cases h
    have hmap :
        ((k.filter.step shard b).map fun filter => ({ k with filter }, f)) = some (k', g) := by
      cases b with
      | next res => exact absurd rfl (hb res)
      | _ => exact h
    obtain ⟨filter, hfilter, heq⟩ := Option.map_eq_some_iff.mp hmap
    cases heq
    exact .filter hb hfilter

/-- A coordinator keeps its app and its receiver, and reads and drops no other receiver of the
connection. -/
theorem StepsTo.frame (h : StepsTo codec gc shard f k a k' g) :
    k'.appId = k.appId ∧ k'.gcMessages = k.gcMessages ∧ k'.received = k.received ∧
      g.task = f.task ∧ g.origins = f.origins ∧ g.kindFilters = f.kindFilters ∧
        ∀ d, d ≠ k.gcMessages → g.channels d = f.channels d := by
  have hrecv : ∀ {item : Item SteamID} {g : MessageFilter SteamID},
      f.recv k.gcMessages = some (item, g) →
        g.task = f.task ∧ g.origins = f.origins ∧ g.kindFilters = f.kindFilters ∧
          ∀ d, d ≠ k.gcMessages → g.channels d = f.channels d := by
    intro item g hrecv
    obtain ⟨-, taken, -, rfl⟩ := MessageFilter.of_recv_eq_some hrecv
    exact ⟨rfl, rfl, rfl, fun d hd => Function.update_of_ne hd ..⟩
  cases h with
  | forward _ h => exact ⟨rfl, rfl, rfl, hrecv h⟩
  | panic _ h =>
    obtain ⟨htask, horigins, hfilters, hchannels⟩ := hrecv h
    exact ⟨rfl, rfl, rfl, htask, horigins, hfilters,
      fun d hd => (Function.update_of_ne hd ..).trans (hchannels d hd)⟩
  | _ => exact ⟨rfl, rfl, rfl, rfl, rfl, rfl, fun _ _ => rfl⟩

/-- A coordinator keeps track of the sending ends of the connection. -/
theorem StepsTo.owned_of (h : StepsTo codec gc shard f k a k' g) (hown : f.Owned) : g.Owned := by
  have hrecv : ∀ {item : Item SteamID} {g : MessageFilter SteamID},
      f.recv k.gcMessages = some (item, g) → g.Owned := by
    intro item g hrecv
    obtain ⟨hitem, taken, htaken, rfl⟩ := MessageFilter.of_recv_eq_some hrecv
    exact hown.of_steps (.recv (List.ne_nil_of_mem hitem) htaken)
  cases h with
  | forward _ h => exact hrecv h
  | panic _ h => exact (hrecv h).of_steps .drop
  | _ => exact hown

end GameCoordinator

/-! ### The subscription of a coordinator -/

namespace MessageFilter

variable {SteamID : Type} {shard : JobId → Nat} {f g : MessageFilter SteamID} {b : Action SteamID}
  {c : ChanId} {item : Item SteamID}

/-- The coordinator message that the task is about to broadcast. -/
def toBroadcast (f : MessageFilter SteamID) : Option (Item SteamID) :=
  match f.task with
  | .kindLookup item => if item.kind = fromGcKind then some item else none
  | _ => none

theorem toBroadcast_eq_some :
    f.toBroadcast = some item ↔ f.task = .kindLookup item ∧ item.kind = fromGcKind := by
  rw [toBroadcast]
  constructor
  · intro h
    split at h
    · rename_i htask
      obtain ⟨hkind, heq⟩ := Option.ite_none_right_eq_some.mp h
      cases heq
      exact ⟨htask, hkind⟩
    · cases h
  · rintro ⟨htask, hkind⟩
    rw [htask]
    exact if_pos hkind

theorem held_ne_kind (task : FilterTask SteamID) (kind : MsgKind) :
    task.held ≠ some (.kind kind, c) := by
  cases task <;> nofun

/-- A new subscriber has an empty inbox. -/
theorem channels_of_eq_onKind {kind : MsgKind} (h : g = f.onKind kind) :
    g.channels f.nextChan = { alive := true } := by
  rw [h, (registers_onKind f kind).channels_new]

/-- Subscribers stay. -/
theorem stored_kind_of_step {kind : MsgKind} (h : f.step shard b = some g)
    (hc : f.Stored (.kind kind) c) : g.Stored (.kind kind) c := by
  rcases (stepsTo_of_step h).stored_or hc with hstored | hheld | ho | ⟨_, -, ho⟩
  · exact hstored
  · exact absurd hheld (held_ne_kind _ kind)
  · -- one more subscriber is added behind them
    cases b with
    | onKind kind' =>
      cases ho
      cases h
      have hmem : c ∈ (f.kindFilters kind).getD [] := hc
      simp [Stored, onKind, hmem]
    | _ => cases ho
  · cases ho

/-- A subscriber to coordinator messages gets those that are broadcast, and nothing else. -/
theorem StepsTo.channel_of_subscription (hown : f.Owned)
    (ho : f.origins c = some (.kind fromGcKind)) (h : f.StepsTo b g) (hrecv : b ≠ .recv c)
    (hdrop : b ≠ .dropReceiver c) :
    g.channels c = f.channels c ∨ b = .dispatch ∧ ∃ item, f.toBroadcast = some item ∧
      (f.channels c).alive = true ∧ g.channels c = (f.channels c).push item := by
  have hother : ∀ {o : Origin} {d : ChanId}, f.task.held = some (o, d) → c ≠ d := by
    rintro o d hheld rfl
    have horigin : o = .kind fromGcKind := Option.some.inj ((hown.held hheld).symm.trans ho)
    exact held_ne_kind _ _ (horigin ▸ hheld)
  cases h with
  | register _ hreg =>
    left
    rw [hreg.channels, Function.update_of_ne (hown.ne_nextChan ho)]
  | @drop d =>
    have hd : c ≠ d := fun heq => hdrop (heq ▸ rfl)
    exact .inl (Function.update_of_ne hd ..)
  | @recv d =>
    have hd : c ≠ d := fun heq => hrecv (heq ▸ rfl)
    exact .inl (Function.update_of_ne hd ..)
  | dispatch hdispatch =>
    cases hdispatch with
    | @jobSend item tx htask | @multiSend item tx htask | @kindOnceSend item tx htask =>
      -- the sending end in the hand of the task is for one receiver
      left
      have hne : c ≠ tx := hother (by rw [htask]; rfl)
      rw [deliver_channels, if_neg fun h => hne (List.mem_singleton.mp h.1)]
    | @notificationSend item notification receivers htask hread hslot =>
      left
      rw [deliver_channels, if_neg]
      rintro ⟨hmem, -⟩
      have hstored : f.Stored (.notification notification.jobName) c := by
        simpa [Stored, hslot] using hmem
      cases (hown.stored hstored).symm.trans ho
    | @kindSend item receivers htask hslot =>
      rw [deliver_channels]
      -- the receiver is stored under one kind, so this is the kind of coordinator messages
      split_ifs with hmem
      · have hstored : f.Stored (.kind item.kind) c := by simpa [Stored, hslot] using hmem.1
        have hkind := (hown.stored hstored).symm.trans ho
        rw [Option.some.injEq, Origin.kind.injEq] at hkind
        exact .inr ⟨rfl, item, toBroadcast_eq_some.mpr ⟨htask, hkind⟩, hmem.2, rfl⟩
      · exact .inl rfl
    | _ => exact .inl rfl
  | _ => exact .inl rfl

/-- A broadcast reaches the subscribers that are there. -/
theorem Dispatches.channel_of_toBroadcast (h : Dispatches f g) (hb : f.toBroadcast = some item)
    (hc : f.Stored (.kind fromGcKind) c) :
    g.task = .awaiting ∧ g.channels c =
      if (f.channels c).alive = true then (f.channels c).push item else f.channels c := by
  obtain ⟨htask, hkind⟩ := toBroadcast_eq_some.mp hb
  rw [← hkind] at hc
  cases h with
  | @kindSend other receivers htask' hslot =>
    cases htask.symm.trans htask'
    have hmem : c ∈ receivers := by simpa [Stored, hslot] using hc
    refine ⟨deliver_task .., ?_⟩
    rw [deliver_channels]
    simp only [hmem, true_and]
  | kindMiss htask' hslot =>
    cases htask.symm.trans htask'
    simp [Stored, hslot] at hc
  | jobHit htask' | jobMiss htask' | jobSend htask' | multiHit htask' | multiMiss htask'
  | multiSend htask' | kindOnceHit htask' | toNotification htask' | toKind htask'
  | kindOnceSend htask' | notificationSend htask' | notificationIgnored htask' | restPush htask' =>
    cases htask.symm.trans htask'

end MessageFilter

/-- The receiver of a forwarding task is one of the subscribers, and exists as long as the
task. -/
structure GameCoordinator.Subscribed {SteamID : Type} (f : MessageFilter SteamID)
    (k : GameCoordinator SteamID) : Prop where
  origin : f.origins k.gcMessages = some (.kind fromGcKind)
  stored : f.Stored (.kind fromGcKind) k.gcMessages
  alive : (f.channels k.gcMessages).alive = true ↔ k.forwarder ≠ .stopped

namespace GameCoordinator

section Subscribed

variable {SteamID : Type} {shard : JobId → Nat} {f g : MessageFilter SteamID}
  {k k' : GameCoordinator SteamID}

/-- A step of the filter that leaves the receiver alone leaves the subscription alone. -/
theorem Subscribed.of_step {b : MessageFilter.Action SteamID} (hk : k.Subscribed f) (hown : f.Owned)
    (h : f.step shard b = some g) (hrecv : b ≠ .recv k.gcMessages)
    (hdrop : b ≠ .dropReceiver k.gcMessages) : k.Subscribed g where
  origin := by
    rw [(MessageFilter.stepsTo_of_step h).origins_eq (.inl (hown.ne_nextChan hk.origin)), hk.origin]
  stored := MessageFilter.stored_kind_of_step h hk.stored
  alive := by
    rcases (MessageFilter.stepsTo_of_step h).channel_of_subscription hown hk.origin hrecv hdrop with
      hsame | ⟨-, item, -, -, hpush⟩
    · rw [hsame, hk.alive]
    · rw [hpush, Channel.push_alive, hk.alive]

variable [SteamIdOps SteamID] {codec : HeaderCodec} {gc : GcCodec} {a : Action SteamID}

/-- A step of another coordinator leaves the subscription alone. -/
theorem Subscribed.of_other {l l' : GameCoordinator SteamID} (hk : k.Subscribed f)
    (hne : k.gcMessages ≠ l.gcMessages) (h : StepsTo codec gc shard f l a l' g) :
    k.Subscribed g := by
  obtain ⟨-, -, -, -, horigins, hfilters, hchannels⟩ := h.frame
  constructor
  · rw [horigins, hk.origin]
  · have hstored : k.gcMessages ∈ (f.kindFilters fromGcKind).getD [] := hk.stored
    rwa [← hfilters] at hstored
  · rw [hchannels _ hne, hk.alive]

/-- The forwarding task drops its receiver when it ends. -/
theorem StepsTo.subscribed_of (h : StepsTo codec gc shard f k a k' g) (hk : k.Subscribed f) :
    k'.Subscribed g := by
  obtain ⟨-, hchan, -, -, horigins, hfilters, -⟩ := h.frame
  constructor
  · rw [hchan, horigins, hk.origin]
  · have hstored : k.gcMessages ∈ (f.kindFilters fromGcKind).getD [] := hk.stored
    rwa [← hfilters, ← hchan] at hstored
  · cases h with
    | forward hawaits hrecv hopen =>
      obtain ⟨-, taken, -, rfl⟩ := MessageFilter.of_recv_eq_some hrecv
      simp [MessageFilter.setChannel, hk.alive, hawaits, hopen]
    | panic => simp [MessageFilter.dropReceiver, MessageFilter.setChannel]
    | send hsends | discard hsends => simp [hk.alive, hsends]
    | _ => exact hk.alive

end Subscribed

end GameCoordinator

namespace Connection

variable {SteamID : Type}

/-- The coordinators have subscriptions of their own. -/
structure Sound (s : Connection SteamID) : Prop where
  owned : s.filter.Owned
  subscribed : ∀ k ∈ s.coordinators, k.Subscribed s.filter
  apart : (s.coordinators.map GameCoordinator.gcMessages).Nodup

theorem sound_init : ({} : Connection SteamID).Sound where
  owned := MessageFilter.owned_init
  subscribed _ hk := nomatch hk
  apart := List.nodup_nil

section Steps

variable [SteamIdOps SteamID] {codec : HeaderCodec} {gc : GcCodec} {shard : JobId → Nat}
  {s t : Connection SteamID} {a : Action SteamID} {i j : Nat} {k l : GameCoordinator SteamID}

omit [SteamIdOps SteamID] in
theorem Sound.gcMessages_ne (hs : s.Sound) (hi : s.coordinators[i]? = some k)
    (hj : s.coordinators[j]? = some l) (hij : i ≠ j) : k.gcMessages ≠ l.gcMessages := by
  intro heq
  have hmap : ∀ {n : Nat} {m : GameCoordinator SteamID}, s.coordinators[n]? = some m →
      (s.coordinators.map GameCoordinator.gcMessages)[n]? = some m.gcMessages := by
    intro n m hn
    rw [List.getElem?_map, hn, Option.map_some]
  have hlt : i < (s.coordinators.map GameCoordinator.gcMessages).length :=
    (List.getElem?_eq_some_iff.mp (hmap hi)).1
  exact hij ((List.getElem?_inj hlt hs.apart).mp (by rw [hmap hi, hmap hj, heq]))

/-- The steps of a connection with coordinators. -/
inductive StepsTo (codec : HeaderCodec) (gc : GcCodec) (shard : JobId → Nat)
    (s : Connection SteamID) : Action SteamID → Connection SteamID → Prop
  | initRaw {appId : UInt32} :
      StepsTo codec gc shard s (.initRaw appId) {
        filter := s.filter.onKind fromGcKind
        coordinators := s.coordinators ++
          [{ appId, gcMessages := s.filter.nextChan, received := s.filter.onItsWay }] }
  | filter {b : MessageFilter.Action SteamID} {g : MessageFilter SteamID} (hpermits : s.Permits b)
      (h : s.filter.step shard b = some g) :
      StepsTo codec gc shard s (.filter b) {
        filter := g
        coordinators := s.coordinators.map fun k =>
          { k with received := k.received ++ b.fromGc } }
  | coordinator {i : Nat} {k k' : GameCoordinator SteamID} {b : GameCoordinator.Action SteamID}
      {g : MessageFilter SteamID} (hi : s.coordinators[i]? = some k)
      (h : k.step codec gc shard s.filter b = some (k', g)) :
      StepsTo codec gc shard s (.coordinator i b) {
        filter := g
        coordinators := s.coordinators.set i k' }

/-- Every step of a connection is one of these. -/
theorem stepsTo_of_step (h : s.step codec gc shard a = some t) : StepsTo codec gc shard s a t := by
  cases a with
  | initRaw appId =>
    cases h
    exact .initRaw
  | filter b =>
    obtain ⟨hpermits, hmap⟩ := Option.ite_none_right_eq_some.mp h
    obtain ⟨g, hg, rfl⟩ := Option.map_eq_some_iff.mp hmap
    exact .filter hpermits hg
  | coordinator i b =>
    obtain ⟨k, hi, hmap⟩ := Option.bind_eq_some_iff.mp h
    obtain ⟨⟨k', g⟩, hk, rfl⟩ := Option.map_eq_some_iff.mp hmap
    exact .coordinator hi hk

omit [SteamIdOps SteamID] in
/-- The receiver of a forwarding task is read and dropped by nobody else. -/
theorem Permits.ne {b : MessageFilter.Action SteamID} (h : s.Permits b)
    (hk : k ∈ s.coordinators) : b ≠ .recv k.gcMessages ∧ b ≠ .dropReceiver k.gcMessages := by
  constructor
  · rintro rfl
    exact h k hk rfl
  · rintro rfl
    exact h k hk rfl

/-- Every step keeps the subscriptions. -/
theorem Sound.of_steps (hs : s.Sound) (h : StepsTo codec gc shard s a t) : t.Sound := by
  cases h with
  | initRaw =>
    have hreg := MessageFilter.registers_onKind s.filter fromGcKind
    have hstep : s.filter.step shard (.onKind fromGcKind) = some (s.filter.onKind fromGcKind) := rfl
    refine ⟨hs.owned.of_steps (MessageFilter.stepsTo_of_step hstep), fun k hk => ?_, ?_⟩
    · rcases List.mem_append.mp hk with hk | hk
      · exact (hs.subscribed k hk).of_step hs.owned hstep nofun nofun
      · obtain rfl := List.mem_singleton.mp hk
        exact ⟨hreg.origins_new, hreg.stored_new, by rw [hreg.channels_new]; simp⟩
    · -- the new receiver is one that was not made before
      rw [List.map_append, List.nodup_append]
      refine ⟨hs.apart, List.nodup_singleton _, fun c hc d hd heq => ?_⟩
      obtain ⟨k, hk, rfl⟩ := List.mem_map.mp hc
      obtain rfl := List.mem_singleton.mp hd
      exact hs.owned.ne_nextChan (hs.subscribed k hk).origin heq
  | filter hpermits h =>
    refine ⟨hs.owned.of_steps (MessageFilter.stepsTo_of_step h), fun k hk => ?_, ?_⟩
    · obtain ⟨l, hl, rfl⟩ := List.mem_map.mp hk
      obtain ⟨hrecv, hdrop⟩ := hpermits.ne hl
      obtain ⟨horigin, hstored, halive⟩ := (hs.subscribed l hl).of_step hs.owned h hrecv hdrop
      exact ⟨horigin, hstored, halive⟩
    · rw [List.map_map]
      exact hs.apart
  | @coordinator i k k' b g hi hstep =>
    have h := GameCoordinator.stepsTo_of_step hstep
    refine ⟨h.owned_of hs.owned, fun l hl => ?_, ?_⟩
    · obtain ⟨j, hj⟩ := List.mem_iff_getElem?.mp hl
      by_cases hij : j = i
      · subst hij
        rw [List.getElem?_set_self (List.getElem?_eq_some_iff.mp hi).1] at hj
        obtain rfl := Option.some.inj hj
        exact h.subscribed_of (hs.subscribed k (List.mem_of_getElem? hi))
      · rw [List.getElem?_set_ne (Ne.symm hij)] at hj
        exact (hs.subscribed l (List.mem_of_getElem? hj)).of_other (hs.gcMessages_ne hj hi hij) h
    · obtain ⟨hlt, rfl⟩ := List.getElem?_eq_some_iff.mp hi
      have hmap : i < (s.coordinators.map GameCoordinator.gcMessages).length := by simpa using hlt
      have hchan : k'.gcMessages = (s.coordinators.map GameCoordinator.gcMessages)[i] := by
        rw [List.getElem_map, h.frame.2.1]
      rw [List.map_set, hchan, List.set_getElem_self]
      exact hs.apart

/-- What a step of the connection is to its coordinator `i`: the step that makes it, a step of
its own, a step of the filter, or a step it has no part in. -/
inductive StepsAt (codec : HeaderCodec) (gc : GcCodec) (shard : JobId → Nat)
    (s : Connection SteamID) (i : Nat) (t : Connection SteamID) :
    Action SteamID → GameCoordinator SteamID → Prop
  | initRaw {appId : UInt32} (hi : i = s.coordinators.length)
      (hfilter : t.filter = s.filter.onKind fromGcKind) :
      StepsAt codec gc shard s i t (.initRaw appId)
        { appId, gcMessages := s.filter.nextChan, received := s.filter.onItsWay }
  | acts {k k' : GameCoordinator SteamID} {b : GameCoordinator.Action SteamID}
      (hi : s.coordinators[i]? = some k)
      (h : k.step codec gc shard s.filter b = some (k', t.filter)) :
      StepsAt codec gc shard s i t (.coordinator i b) k'
  | filter {k : GameCoordinator SteamID} {b : MessageFilter.Action SteamID}
      (hi : s.coordinators[i]? = some k) (hpermits : s.Permits b)
      (h : s.filter.step shard b = some t.filter) :
      StepsAt codec gc shard s i t (.filter b) { k with received := k.received ++ b.fromGc }
  | other {a : Action SteamID} {k : GameCoordinator SteamID} (hi : s.coordinators[i]? = some k)
      (hfilter : ∀ b, a ≠ .filter b) (hacts : ∀ b, a ≠ .coordinator i b)
      (htask : t.filter.task = s.filter.task)
      (hchannel : t.filter.channels k.gcMessages = s.filter.channels k.gcMessages) :
      StepsAt codec gc shard s i t a k

/-- Every step of a connection is one of these to each of its coordinators. -/
theorem StepsTo.stepsAt (h : StepsTo codec gc shard s a t) (hs : s.Sound)
    (hi : t.coordinators[i]? = some k) : StepsAt codec gc shard s i t a k := by
  cases h with
  | initRaw =>
    rw [List.getElem?_append] at hi
    split at hi
    · have hchan := hs.owned.ne_nextChan (hs.subscribed k (List.mem_of_getElem? hi)).origin
      exact .other hi nofun nofun rfl (Function.update_of_ne hchan ..)
    · rename_i hlt
      rw [List.getElem?_singleton] at hi
      obtain ⟨hzero, heq⟩ := Option.ite_none_right_eq_some.mp hi
      obtain rfl := Option.some.inj heq
      exact .initRaw (by omega) rfl
  | filter hpermits h =>
    rw [List.getElem?_map] at hi
    obtain ⟨l, hl, rfl⟩ := Option.map_eq_some_iff.mp hi
    exact .filter hl hpermits h
  | @coordinator j l l' b g hj h =>
    by_cases hij : i = j
    · subst hij
      rw [List.getElem?_set_self (List.getElem?_eq_some_iff.mp hj).1] at hi
      obtain rfl := Option.some.inj hi
      exact .acts hj h
    · rw [List.getElem?_set_ne (Ne.symm hij)] at hi
      obtain ⟨-, -, -, htask, -, -, hchannels⟩ := (GameCoordinator.stepsTo_of_step h).frame
      refine .other hi nofun ?_ htask (hchannels _ (hs.gcMessages_ne hi hj hij))
      rintro c heq
      cases heq
      exact hij rfl

end Steps

end Connection

end SteamWire
