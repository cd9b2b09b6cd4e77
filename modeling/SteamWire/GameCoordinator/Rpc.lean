import SteamWire.Connection.Rpc
import SteamWire.GameCoordinator.Isolation

/-!
# Calls by way of game coordinators

A game coordinator takes the calls of a connection: they draw their job ids from the counter of
the session, register with the filter of the coordinator, and send their requests in envelopes
for its app. Whatever comes in in an envelope is forwarded to all coordinators of the
connection, so an answer passes the filters of other apps as well.

`GcRpc.answeredByApp_of_run`: the calls are kept apart by their ids all the same. Everything that
a call receives answers its own request, as the coordinator of its app read it, with any
number of coordinators and of calls on them at a time.
-/

namespace SteamWire

open Semantics

/-- An item that is replaced by one with the same image leaves the images as they were. -/
theorem map_set_eq_map {α β : Type*} {l : List α} {i : Nat} {x y : α} {f : α → β}
    (h : l[i]? = some x) (hf : f y = f x) : (l.set i y).map f = l.map f := by
  obtain ⟨hlt, rfl⟩ := List.getElem?_eq_some_iff.mp h
  have hlt' : i < (l.map f).length := by rwa [List.length_map]
  have himage : f l[i] = (l.map f)[i] := (List.getElem_map f).symm
  rw [List.map_set, hf, himage, List.set_getElem_self]

/-- The message out of an envelope, if it could be read. -/
def GcMessage.read {SteamID : Type} (message : GcMessage SteamID) : List (RawNetMessage SteamID) :=
  message.res.toOption.toList

/-- The app and the message that are read of what was sent to the coordinators. -/
def GameCoordinator.unpack {SteamID : Type} [SteamIdOps SteamID] (codec : HeaderCodec)
    (gc : GcCodec) (b : Bytes) : Option (Option UInt32 × RawNetMessage SteamID) :=
  match (RawNetMessage.read codec b : Outcome NetworkError (RawNetMessage SteamID)) with
  | .ok outer =>
    if outer.kind = EMsg.kEMsgClientToGc.kind then
      match gc.parse outer.data with
      | .ok data =>
        match RawNetMessage.read codec (data.payload.getD []) with
        | .ok inner => some (data.appid, inner)
        | _ => none
      | .error _ => none
    else none
  | _ => none

namespace Invocation

variable {SteamID : Type}

/-- The call is one for before the logon. -/
def IsUnAuthenticated : Invocation SteamID → Prop
  | .serviceMethodUnAuthenticated .. => True
  | .serviceMethod .. | .job .. | .jobMulti .. => False

instance : (inv : Invocation SteamID) → Decidable inv.IsUnAuthenticated
  | .serviceMethodUnAuthenticated .. => isTrue trivial
  | .serviceMethod .. | .job .. | .jobMulti .. => isFalse id

variable [SteamIdOps SteamID] [DecidableEq SteamID] (codec : HeaderCodec) (gc : GcCodec)
  (session : Session SteamID) (inv : Invocation SteamID) (appId : UInt32) (id : JobId)

/-- The request of a call on the coordinator of an app, with this job id. -/
def gcRequest : Except NetworkError (RawNetMessage SteamID) :=
  GameCoordinator.rawSendWithKind codec gc appId
    ({ session.withAppId appId with jobId := id }.header true).1 inv.msg.message inv.msg.kind
    inv.msg.isProtobuf

/-- What the coordinator of the app reads of the request. -/
structure IsUnpacked (b : Bytes) (req : RawNetMessage SteamID) : Prop where
  unpack : GameCoordinator.unpack codec gc b = some (some appId, req)
  kind : req.kind = inv.msg.kind
  data : inv.msg.message.writeBody = .ok req.data
  sourceJobId : req.header.sourceJobId = id

variable {codec gc session inv appId id}

/-- The coordinator can read every request that fits into memory. -/
theorem exists_isUnpacked (hcodec : codec.Lawful) (hname : codec.FitsWithoutName)
    (hgc : gc.Lawful) {m : RawNetMessage SteamID}
    (hm : inv.gcRequest codec gc session appId id = .ok m) (hmemory : m.intoBytes.length < 2 ^ 64) :
    ∃ req, inv.IsUnpacked codec gc appId id m.intoBytes req := by
  have hdata : m.data.length < 2 ^ 64 := by
    refine Nat.lt_of_le_of_lt ?_ hmemory
    simp [RawNetMessage.intoBytes]
  cases hbody : inv.msg.message.writeBody with
  | error e =>
    rw [gcRequest, GameCoordinator.rawSendWithKind_error hbody] at hm
    cases hm
  | ok body =>
    rw [gcRequest, GameCoordinator.rawSendWithKind_eq hbody] at hm
    obtain ⟨outer, houter, hkind, -, hparse⟩ :=
      GameCoordinator.exists_read_envelope hcodec hgc (hname _ rfl) hm hdata
    obtain ⟨req, hreq, hreqKind, -, hreqData, hjob, -⟩ :=
      @GameCoordinator.exists_read_nested SteamID _ _ MsgKind _ codec
        ({ session.withAppId appId with jobId := id }.header true).1 inv.msg.kind
        inv.msg.isProtobuf body hcodec hname inv.msg.kind_nonneg inv.msg.kind_ne_response
        inv.msg.isEncryptHandshake_kind
    refine ⟨req, ?_, hreqKind, by rw [hbody, hreqData], hjob⟩
    simp only [GameCoordinator.unpack, houter, hkind, hparse, GameCoordinator.envelope,
      Option.getD_some, hreq, if_true]

end Invocation

/-! ### What a call receives -/

namespace Client

variable {SteamID : Type} {f g : MessageFilter SteamID} {a : Action SteamID} {call call' : Call}
  {P Q : RawNetMessage SteamID → Prop}

/-- The receiver of a call is its own, and what it receives has a property; the call returns with
success after it received a response. -/
structure Tied (P : RawNetMessage SteamID → Prop) (f : MessageFilter SteamID) (call : Call) :
    Prop where
  receives : Receives f call
  receivesAll : ReceivesAll P f call
  succeeds : Succeeds f call
  streams : call.phase.IsStreaming → call.kind.isMulti = true

theorem tied_of_drawn (h : call.phase = .drawn) : Tied P f call where
  receives hne := absurd h hne
  receivesAll hne := absurd h hne
  succeeds := succeeds_of_drawn h
  streams hstream := by
    rw [h] at hstream
    exact hstream.elim

theorem Tied.mono (hf : Tied P f call) (h : ∀ m, P m → Q m) : Tied Q f call :=
  { hf with receivesAll := fun hne item hitem => h _ (hf.receivesAll hne item hitem) }

/-- The steps of a call keep its receiver its own. -/
theorem Receives.of_callSteps (hf : Receives f call) (hown : f.Owned)
    (h : CallSteps f call a call' g) : Receives g call' := by
  obtain ⟨hkind, hid⟩ := h.id_eq
  have horigin : call'.origin = call.origin := by simp only [Call.origin, hkind, hid]
  by_cases hphase : call.phase = .drawn
  · obtain ⟨i, rfl, rfl, hreg⟩ := h.of_drawn hphase
    refine fun _ => ⟨hreg.origins_new, fun item hitem => ?_⟩
    rw [hreg.channels_new] at hitem
    cases hitem
  · rw [Receives, (h.chan_eq hphase).1, horigin, hid]
    rcases h.filter_cases with hsame | ⟨b, hb, -⟩
    · exact fun _ => hsame ▸ hf hphase
    · exact fun _ => hf.of_steps hown hb hphase

/-- Only a multi job gives out responses one by one. -/
theorem CallSteps.streams_of (h : CallSteps f call a call' g)
    (hstreams : call.phase.IsStreaming → call.kind.isMulti = true) :
    call'.phase.IsStreaming → call'.kind.isMulti = true := by
  intro hstream
  cases h with
  | transmit => exact hstreams hstream
  | @receive _ item =>
    rcases call.afterResponse_cases (call.respond item.message) with ⟨exit, hexit⟩ | ⟨hmulti, -⟩
    · simp [hexit, Phase.IsStreaming] at hstream
    · exact hmulti
  | resume hphase => exact hstreams (by rw [hphase]; trivial)
  | _ => exact hstream.elim

variable (hf : Tied P f call) (hown : f.Owned)
  (htask : ∀ item, f.task.item = some item → P item.message)
include hf hown htask

/-- Whatever happens to the filter, a call receives what the task was handed. -/
theorem Tied.of_steps {b : MessageFilter.Action SteamID} (h : f.StepsTo b g) : Tied P g call where
  receives := hf.receives.of_steps hown h
  receivesAll := hf.receivesAll.of_steps hf.receives hown h htask
  succeeds := hf.succeeds.of_steps hown h
  streams := hf.streams

theorem Tied.of_callSteps (h : CallSteps f call a call' g) : Tied P g call' where
  receives := hf.receives.of_callSteps hown h
  receivesAll := hf.receivesAll.of_callSteps hf.receives hown h htask
  succeeds := hf.succeeds.of_callSteps hf.streams h
  streams := h.streams_of hf.streams

end Client

/-! ### What is on its way to a coordinator -/

namespace GameCoordinator

variable {SteamID : Type} [SteamIdOps SteamID] {codec : HeaderCodec} {gc : GcCodec}
  {shard : JobId → Nat} {f g : MessageFilter SteamID} {k k' : GameCoordinator SteamID}
  {a : Action SteamID} {P Q : RawNetMessage SteamID → Prop}

/-- The messages on their way to the receivers of a coordinator have a property. -/
structure Carries (P : RawNetMessage SteamID → Prop) (k : GameCoordinator SteamID) : Prop where
  owned : k.filter.Owned
  ahead : ∀ m ∈ k.forwarder.pending ++ k.queue, ∀ inner ∈ m.read, P inner
  task : ∀ item, k.filter.task.item = some item → P item.message

omit [SteamIdOps SteamID] in
theorem Carries.mono (hk : k.Carries P) (h : ∀ m, P m → Q m) : k.Carries Q where
  owned := hk.owned
  ahead m hm inner hinner := h inner (hk.ahead m hm inner hinner)
  task item hitem := h item.message (hk.task item hitem)

/-- What a coordinator does is a step of its filter, or nothing to it. -/
theorem StepsTo.filter_cases (h : StepsTo codec gc shard f k a k' g) :
    k'.filter = k.filter ∨ ∃ b, k.filter.StepsTo b k'.filter := by
  cases h with
  | pull _ h | close _ _ h | filter _ h => exact .inr ⟨_, MessageFilter.stepsTo_of_step h⟩
  | _ => exact .inl rfl

/-- A coordinator carries what it takes out of the envelopes of its subscription. -/
theorem Carries.of_stepsTo (hk : k.Carries P) (h : StepsTo codec gc shard f k a k' g)
    (hopen : ∀ item ∈ (f.channels k.gcMessages).inbox,
      ∀ m ∈ (openEnvelope codec gc item.message).pending, ∀ inner ∈ m.read, P inner) :
    k'.Carries P := by
  have howned : k'.filter.Owned := by
    rcases h.filter_cases with hsame | ⟨b, hb⟩
    · exact hsame ▸ hk.owned
    · exact hk.owned.of_steps hb
  cases h with
  | forward hawaits hrecv =>
    obtain ⟨hitem, -⟩ := MessageFilter.of_recv_eq_some hrecv
    refine ⟨howned, fun m hm => ?_, hk.task⟩
    rcases List.mem_append.mp hm with hnew | hold
    · exact hopen _ hitem m hnew
    · exact hk.ahead m (List.mem_append_right _ hold)
  | panic | discard =>
    exact ⟨howned, fun m hm => hk.ahead m (List.mem_append_right _ hm), hk.task⟩
  | @send message hsends =>
    refine ⟨howned, fun m (hm : m ∈ k.queue ++ [message]) => hk.ahead m ?_, hk.task⟩
    rw [hsends]
    exact List.mem_append.mpr (List.mem_append.mp hm).symm
  | @pull message queue filter hqueue hstep =>
    -- the task of the filter gets the next message of the channel
    have hnext : message ∈ k.forwarder.pending ++ k.queue :=
      List.mem_append_right _ (hqueue ▸ List.mem_cons_self)
    refine ⟨howned, fun m hm => hk.ahead m ?_, fun item hitem => ?_⟩
    · rw [hqueue]
      exact (List.mem_append.mp hm).elim (List.mem_append_left _)
        fun hmem => List.mem_append_right _ (List.mem_cons_of_mem _ hmem)
    · rcases Client.item_cases_of_steps (MessageFilter.stepsTo_of_step hstep) hitem with hold | heq
      · exact hk.task item hold
      · refine hk.ahead message hnext _ ?_
        have hres := GcMessage.outcome_eq_ok.mp
          (Option.some.inj (MessageFilter.Action.next.inj heq))
        rw [GcMessage.read, hres]
        exact List.mem_singleton_self _
  | close hqueue _ hstep =>
    refine ⟨howned, hk.ahead, fun item hitem => ?_⟩
    rcases Client.item_cases_of_steps (MessageFilter.stepsTo_of_step hstep) hitem with hold | heq
    · exact hk.task item hold
    · cases heq
  | filter hb hstep =>
    exact ⟨howned, hk.ahead, fun item hitem =>
      hk.task item (Client.item_of_steps (MessageFilter.stepsTo_of_step hstep) hb hitem)⟩

end GameCoordinator

namespace Connection

variable {SteamID : Type} [SteamIdOps SteamID] {codec : HeaderCodec} {gc : GcCodec}
  {shard : JobId → Nat} {s t : Connection SteamID} {a : Action SteamID} {i : Nat}
  {k : GameCoordinator SteamID}

/-- A connection sees what the task of its filter is handed. -/
theorem StepsTo.seen_of (h : StepsTo codec gc shard s a t) {message : RawNetMessage SteamID}
    (ht : t.filter.Seen message) :
    s.filter.Seen message ∨ a = .filter (.next (some (.ok message))) := by
  have hrecv : ∀ {c : ChanId} {item : Item SteamID} {g : MessageFilter SteamID},
      s.filter.recv c = some (item, g) → g.Seen message → s.filter.Seen message := by
    intro c item g hrecv hg
    obtain ⟨-, taken, -, rfl⟩ := MessageFilter.of_recv_eq_some hrecv
    rcases hg with ⟨d, hmem⟩ | hrest
    · rw [MessageFilter.arrived, MessageFilter.setChannel_inbox (by rfl)] at hmem
      exact .inl ⟨d, hmem⟩
    · exact .inr hrest
  cases h with
  | initRaw =>
    have hstep : s.filter.step shard (.onKind fromGcKind) = some (s.filter.onKind fromGcKind) := rfl
    exact .inl ((MessageFilter.seen_of_step hstep ht).resolve_right (by simp))
  | filter _ hstep =>
    exact (MessageFilter.seen_of_step hstep ht).imp_right fun heq => by rw [heq]
  | coordinator _ hacts =>
    left
    cases GameCoordinator.stepsTo_of_step hacts with
    | forward _ hforward => exact hrecv hforward ht
    -- the task drops its receiver after it read from it
    | @panic item g _ hforward =>
      have hdrop : ∀ c, g.step shard (.dropReceiver c) = some (g.dropReceiver c) := fun _ => rfl
      exact hrecv hforward ((MessageFilter.seen_of_step (hdrop _) ht).resolve_right (by simp))
    | _ => exact ht

omit [SteamIdOps SteamID] in
/-- The subscriptions of the coordinators are none of their own filters. -/
theorem Sound.of_filter (hs : s.Sound) (hk : s.coordinators[i]? = some k)
    (g : MessageFilter SteamID) :
    Sound { s with coordinators := s.coordinators.set i { k with filter := g } } where
  owned := hs.owned
  subscribed l hl := by
    rcases List.mem_or_eq_of_mem_set hl with hold | rfl
    · exact hs.subscribed l hold
    · obtain ⟨horigin, hstored, halive⟩ := hs.subscribed k (List.mem_of_getElem? hk)
      exact ⟨horigin, hstored, halive⟩
  apart := by
    have hsame : (s.coordinators.set i { k with filter := g }).map GameCoordinator.gcMessages =
        s.coordinators.map GameCoordinator.gcMessages := map_set_eq_map hk rfl
    exact hsame ▸ hs.apart

end Connection

/-- A call on one of the coordinators. -/
structure GcCall (SteamID : Type) where
  coordinator : Nat
  inv : Invocation SteamID
  call : Call

/-- A connection with the calls on its coordinators, the counter of its session, and what was
sent for the calls. How many ids were drawn is history. -/
structure GcRpc (SteamID : Type) where
  connection : Connection SteamID := {}
  jobId : UInt64 := 1
  drawn : Nat := 0
  calls : List (GcCall SteamID) := []
  wire : List Bytes := []

namespace GcRpc

/-- What can happen. -/
inductive Action (SteamID : Type) where
  | connection (a : Connection.Action SteamID)
  /-- a call on the connection itself draws its id -/
  | draw
  | invoke (i : Nat) (inv : Invocation SteamID) (thread : Nat)
  /-- a call encodes its request and hands it to the transport -/
  | transmit (n : Nat)
  | call (a : Client.Action SteamID)

variable {SteamID : Type}

/-- The calls on a coordinator, as those of a connection with its filter. -/
def client (s : GcRpc SteamID) (k : GameCoordinator SteamID) : Client SteamID where
  filter := k.filter
  jobId := s.jobId
  calls := s.calls.map GcCall.call

/-- A call goes on, and leaves a filter behind. -/
def update (s : GcRpc SteamID) (n : Nat) (c : GcCall SteamID) (k : GameCoordinator SteamID)
    (next : Call × MessageFilter SteamID) : GcRpc SteamID :=
  { s with
    connection := { s.connection with
      coordinators := s.connection.coordinators.set c.coordinator { k with filter := next.2 } }
    calls := s.calls.set n { c with call := next.1 } }

variable [SteamIdOps SteamID] [DecidableEq SteamID] (shard : JobId → Nat)
  (codec : HeaderCodec) (gc : GcCodec) (session : Session SteamID)
  (answers : Option UInt32 → RawNetMessage SteamID → RawNetMessage SteamID → Bool)

/-- The message is a right response of an app to a request that was sent. -/
def isAnswer (m : RawNetMessage SteamID) (b : Bytes) : Bool :=
  match GameCoordinator.unpack codec gc b with
  | some (appId, req) => req.header.sourceJobId = m.header.targetJobId && answers appId req m
  | none => false

/-- What coordinators send when these requests were sent to them. -/
def Justified (wire : List Bytes) (m : RawNetMessage SteamID) : Prop :=
  m.header.targetJobId = JobId.none ∨ ∃ b ∈ wire, isAnswer codec gc answers m b = true

instance (wire : List Bytes) (m : RawNetMessage SteamID) :
    Decidable (Justified codec gc answers wire m) :=
  inferInstanceAs (Decidable (_ ∨ _))

/-- A message of the network holds nothing that is not justified. -/
def Honest (wire : List Bytes) (message : RawNetMessage SteamID) : Prop :=
  ∀ m ∈ (GameCoordinator.openEnvelope codec gc message).pending, ∀ inner ∈ m.read,
    Justified codec gc answers wire inner

instance (wire : List Bytes) (message : RawNetMessage SteamID) :
    Decidable (Honest codec gc answers wire message) :=
  inferInstanceAs (Decidable (∀ m ∈ Forwarder.pending _, ∀ inner ∈ GcMessage.read m, _))

/-- The network is honest. The calls on a coordinator register with its filter by themselves, and
their receivers are theirs. -/
def Permits (s : GcRpc SteamID) : Connection.Action SteamID → Prop
  | .initRaw _ => True
  | .filter b => ∀ message ∈ b.fromGc, Honest codec gc answers s.wire message
  | .coordinator i (.filter b) =>
    ({ calls := (s.calls.filter (·.coordinator = i)).map GcCall.call } : Client SteamID).Permits b
  | .coordinator _ .forward | .coordinator _ .send | .coordinator _ .pull => True

instance (s : GcRpc SteamID) :
    (a : Connection.Action SteamID) → Decidable (s.Permits codec gc answers a)
  | .initRaw _ => isTrue trivial
  | .filter b => inferInstanceAs (Decidable (∀ message ∈ b.fromGc, _))
  | .coordinator i (.filter b) =>
    inferInstanceAs (Decidable (({
      calls := (s.calls.filter (·.coordinator = i)).map GcCall.call } : Client SteamID).Permits b))
  | .coordinator _ .forward | .coordinator _ .send | .coordinator _ .pull => isTrue trivial

/-- One step. -/
def step (s : GcRpc SteamID) : Action SteamID → Option (GcRpc SteamID)
  | .connection a =>
    if s.Permits codec gc answers a then
      (s.connection.step codec gc shard a).map fun connection => { s with connection }
    else none
  -- all clones of a session share one counter
  | .draw => some { s with jobId := s.jobId + 1, drawn := s.drawn + 1 }
  | .invoke i inv thread =>
    s.connection.coordinators[i]?.bind fun k =>
      if (s.client k).Idle thread ∧ ¬ inv.IsUnAuthenticated then
        some { s with
          jobId := s.jobId + 1
          drawn := s.drawn + 1
          calls := s.calls ++ [{
            coordinator := i
            inv
            call := { kind := inv.callKind, parse := inv.parse, thread, id := ⟨s.jobId⟩ } }] }
      else none
  | .transmit n =>
    s.calls[n]?.bind fun c =>
      s.connection.coordinators[c.coordinator]?.bind fun k =>
        if c.call.sent then none
        else
          match c.inv.gcRequest codec gc session k.appId c.call.id with
          | .ok m =>
            ((s.client k).callStep shard c.call (.transmit n)).map fun next =>
              { s.update n c k next with wire := s.wire ++ [m.intoBytes] }
          -- nothing is sent if the body cannot be written
          | .error e => ((s.client k).callStep shard c.call (.sendFailed n e)).map (s.update n c k)
  | .call a =>
    if Rpc.IsOwn a then
      a.call.bind fun n =>
        s.calls[n]?.bind fun c =>
          s.connection.coordinators[c.coordinator]?.bind fun k =>
            ((s.client k).callStep shard c.call a).map (s.update n c k)
    else none

variable {shard codec gc session answers} {s t : GcRpc SteamID} {a : Action SteamID} {n : Nat}
  {c c' : GcCall SteamID} {k : GameCoordinator SteamID}

/-! ### What a step can do -/

/-- The steps, with what they do to the coordinators and the calls. -/
inductive StepsTo (shard : JobId → Nat) (codec : HeaderCodec) (gc : GcCodec)
    (session : Session SteamID)
    (answers : Option UInt32 → RawNetMessage SteamID → RawNetMessage SteamID → Bool)
    (s : GcRpc SteamID) : Action SteamID → GcRpc SteamID → Prop
  | connection {a : Connection.Action SteamID} {connection : Connection SteamID}
      (hpermits : s.Permits codec gc answers a)
      (h : s.connection.step codec gc shard a = some connection) :
      StepsTo shard codec gc session answers s (.connection a) { s with connection }
  | draw :
      StepsTo shard codec gc session answers s .draw
        { s with jobId := s.jobId + 1, drawn := s.drawn + 1 }
  | invoke {i : Nat} {inv : Invocation SteamID} {thread : Nat}
      (hi : i < s.connection.coordinators.length) :
      StepsTo shard codec gc session answers s (.invoke i inv thread)
        { s with
          jobId := s.jobId + 1
          drawn := s.drawn + 1
          calls := s.calls ++ [{
            coordinator := i
            inv
            call := { kind := inv.callKind, parse := inv.parse, thread, id := ⟨s.jobId⟩ } }] }
  | transmit {n : Nat} {c : GcCall SteamID} {k : GameCoordinator SteamID} {m : RawNetMessage SteamID}
      {next : Call × MessageFilter SteamID} (hc : s.calls[n]? = some c)
      (hk : s.connection.coordinators[c.coordinator]? = some k)
      (hm : c.inv.gcRequest codec gc session k.appId c.call.id = .ok m)
      (h : Client.CallSteps k.filter c.call (.transmit n) next.1 next.2) :
      StepsTo shard codec gc session answers s (.transmit n)
        { s.update n c k next with wire := s.wire ++ [m.intoBytes] }
  | call {a : Action SteamID} {b : Client.Action SteamID} {n : Nat} {c : GcCall SteamID}
      {k : GameCoordinator SteamID} {next : Call × MessageFilter SteamID}
      (hc : s.calls[n]? = some c) (hk : s.connection.coordinators[c.coordinator]? = some k)
      (h : Client.CallSteps k.filter c.call b next.1 next.2) :
      StepsTo shard codec gc session answers s a (s.update n c k next)

/-- Every step is one of these. -/
theorem stepsTo_of_step (h : step shard codec gc session answers s a = some t) :
    StepsTo shard codec gc session answers s a t := by
  cases a with
  | connection a =>
    obtain ⟨hpermits, hmap⟩ := Option.ite_none_right_eq_some.mp h
    obtain ⟨connection, hconnection, rfl⟩ := Option.map_eq_some_iff.mp hmap
    exact .connection hpermits hconnection
  | draw =>
    cases h
    exact .draw
  | invoke i inv thread =>
    obtain ⟨k, hk, h⟩ := Option.bind_eq_some_iff.mp h
    obtain ⟨-, heq⟩ := Option.ite_none_right_eq_some.mp h
    cases heq
    exact .invoke (List.getElem?_eq_some_iff.mp hk).1
  | transmit n =>
    obtain ⟨c, hc, h⟩ := Option.bind_eq_some_iff.mp h
    obtain ⟨k, hk, h⟩ := Option.bind_eq_some_iff.mp h
    obtain ⟨-, h⟩ := Option.ite_none_left_eq_some.mp h
    cases hm : c.inv.gcRequest codec gc session k.appId c.call.id with
    | ok m =>
      rw [hm] at h
      obtain ⟨next, hnext, rfl⟩ := Option.map_eq_some_iff.mp h
      exact .transmit hc hk hm (Client.callSteps_of_callStep hnext)
    | error e =>
      rw [hm] at h
      obtain ⟨next, hnext, rfl⟩ := Option.map_eq_some_iff.mp h
      exact .call hc hk (Client.callSteps_of_callStep hnext)
  | call a =>
    obtain ⟨-, h⟩ := Option.ite_none_right_eq_some.mp h
    obtain ⟨n, -, h⟩ := Option.bind_eq_some_iff.mp h
    obtain ⟨c, hc, h⟩ := Option.bind_eq_some_iff.mp h
    obtain ⟨k, hk, h⟩ := Option.bind_eq_some_iff.mp h
    obtain ⟨next, hnext, rfl⟩ := Option.map_eq_some_iff.mp h
    exact .call hc hk (Client.callSteps_of_callStep hnext)

/-- A call keeps its coordinator, what it asks and its id. -/
theorem StepsTo.exists_call (h : StepsTo shard codec gc session answers s a t) (hc : c ∈ s.calls) :
    ∃ c' ∈ t.calls, c'.coordinator = c.coordinator ∧ c'.inv = c.inv ∧ c'.call.id = c.call.id := by
  have hupdate : ∀ {n : Nat} {old : GcCall SteamID} {call : Call}, s.calls[n]? = some old →
      call.id = old.call.id → ∃ c' ∈ s.calls.set n { old with call },
        c'.coordinator = c.coordinator ∧ c'.inv = c.inv ∧ c'.call.id = c.call.id := by
    intro n old call hold hid
    obtain ⟨j, hj⟩ := List.mem_iff_getElem?.mp hc
    by_cases hnj : n = j
    · subst hnj
      obtain rfl := Option.some.inj (hold.symm.trans hj)
      exact ⟨_, List.mem_set (List.getElem?_eq_some_iff.mp hold).1 _, rfl, rfl, hid⟩
    · exact ⟨c, List.mem_of_getElem? ((List.getElem?_set_ne hnj).trans hj), rfl, rfl, rfl⟩
  cases h with
  | connection | draw => exact ⟨c, hc, rfl, rfl, rfl⟩
  | invoke => exact ⟨c, List.mem_append_left _ hc, rfl, rfl, rfl⟩
  | transmit hold _ _ hsteps | call hold _ hsteps => exact hupdate hold hsteps.id_eq.2

/-- A coordinator stays where it is, and for its app. -/
theorem StepsTo.exists_coordinator (h : StepsTo shard codec gc session answers s a t) {i : Nat}
    (hk : s.connection.coordinators[i]? = some k) :
    ∃ k', t.connection.coordinators[i]? = some k' ∧ k'.appId = k.appId := by
  have hset : ∀ {j : Nat} {l l' : GameCoordinator SteamID},
      s.connection.coordinators[j]? = some l → l'.appId = l.appId →
        ∃ k', (s.connection.coordinators.set j l')[i]? = some k' ∧ k'.appId = k.appId := by
    intro j l l' hl happ
    by_cases hji : j = i
    · subst hji
      obtain rfl := Option.some.inj (hl.symm.trans hk)
      exact ⟨l', List.getElem?_set_self (List.getElem?_eq_some_iff.mp hl).1, happ⟩
    · exact ⟨k, (List.getElem?_set_ne hji).trans hk, rfl⟩
  cases h with
  | connection _ hstep =>
    cases Connection.stepsTo_of_step hstep with
    | initRaw =>
      exact ⟨k, (List.getElem?_append_left (List.getElem?_eq_some_iff.mp hk).1).trans hk, rfl⟩
    | @filter b =>
      refine ⟨{ k with received := k.received ++ b.fromGc }, ?_, rfl⟩
      rw [List.getElem?_map, hk, Option.map_some]
    | coordinator hl hacts => exact hset hl (GameCoordinator.stepsTo_of_step hacts).frame.1
  | draw | invoke => exact ⟨k, hk, rfl⟩
  | transmit _ hl | call _ hl => exact hset hl rfl

/-- The ids of the calls. -/
def ids (s : GcRpc SteamID) : List JobId := s.calls.map fun c => c.call.id

/-- A step hands out the next id of the counter, or none. -/
theorem StepsTo.ids_eq (h : StepsTo shard codec gc session answers s a t) :
    t.ids = s.ids ∧ t.jobId = s.jobId ∧ t.drawn = s.drawn ∨
      (t.ids = s.ids ∨ t.ids = s.ids ++ [⟨s.jobId⟩]) ∧ t.jobId = s.jobId + 1 ∧
        t.drawn = s.drawn + 1 := by
  cases h with
  | connection => exact .inl ⟨rfl, rfl, rfl⟩
  | draw => exact .inr ⟨.inl rfl, rfl, rfl⟩
  | invoke => exact .inr ⟨.inr List.map_append, rfl, rfl⟩
  | transmit hc _ _ hsteps | call hc _ hsteps =>
    exact .inl ⟨map_set_eq_map hc hsteps.id_eq.2, rfl, rfl⟩

/-- The counter and the ids it handed out, before it wraps. -/
structure Numbered (s : GcRpc SteamID) : Prop where
  next : s.jobId.toNat = s.drawn + 1
  nodup : s.ids.Nodup
  below : ∀ id ∈ s.ids, id.raw.toNat ≤ s.drawn

/-- Every id is handed out once, to whatever call. -/
theorem Numbered.of_steps (hs : s.Numbered) (h : StepsTo shard codec gc session answers s a t)
    (hdrawn : t.drawn < 2 ^ 64 - 1) : t.Numbered := by
  have hnext := hs.next
  rcases h.ids_eq with ⟨hids, hjob, hsame⟩ | ⟨hids, hjob, hsucc⟩
  · exact ⟨by rw [hjob, hsame, hnext], hids ▸ hs.nodup, by rw [hids, hsame]; exact hs.below⟩
  · constructor
    · rw [hjob, UInt64.toNat_add, UInt64.toNat_one, Nat.mod_eq_of_lt (by omega)]
      omega
    · rcases hids with hids | hids
      · exact hids ▸ hs.nodup
      · rw [hids, List.nodup_append]
        refine ⟨hs.nodup, List.nodup_singleton _, fun id hid new hnew heq => ?_⟩
        -- the counter is past all ids that it handed out
        have hbelow := hs.below id hid
        rw [heq, List.mem_singleton.mp hnew] at hbelow
        dsimp only at hbelow
        omega
    · intro id hid
      rw [hsucc]
      rcases hids with hids | hids
      · exact Nat.le_succ_of_le (hs.below id (hids ▸ hid))
      · rw [hids] at hid
        rcases List.mem_append.mp hid with hold | hnew
        · exact Nat.le_succ_of_le (hs.below id hold)
        · rw [List.mem_singleton.mp hnew]
          exact hnext.le

/-! ### Own answers -/

variable (codec gc session answers) in
/-- A call is what its caller made; everything that it receives is a right response to its own
request, as the coordinator of its app read it; and a call for one response that succeeds has
received one message, and could read it. -/
structure AnsweredByApp (s : GcRpc SteamID) (c : GcCall SteamID) (k : GameCoordinator SteamID) :
    Prop where
  matched : c.call.kind = c.inv.callKind ∧ c.call.parse = c.inv.parse
  own : c.call.phase ≠ .drawn → ∀ item ∈ (k.filter.channels c.call.chan).inbox, ∃ sent req,
    c.inv.gcRequest codec gc session k.appId c.call.id = .ok sent ∧ sent.intoBytes ∈ s.wire ∧
      c.inv.IsUnpacked codec gc k.appId c.call.id sent.intoBytes req ∧
        answers k.appId req item.message = true
  succeeded : c.call.kind.isMulti = false → c.call.phase.Succeeded → ∃ item completed,
    (k.filter.channels c.call.chan).inbox = [item] ∧ c.call.respond item.message = .ok completed

variable (codec gc session) in
/-- The bytes are the request of a call. -/
def IsRequest (s : GcRpc SteamID) (b : Bytes) : Prop :=
  ∃ c ∈ s.calls, ∃ k m, s.connection.coordinators[c.coordinator]? = some k ∧
    c.inv.gcRequest codec gc session k.appId c.call.id = .ok m ∧ b = m.intoBytes

variable (codec gc session answers) in
/-- What ties the calls to what is on its way to them. -/
structure Inv (s : GcRpc SteamID) : Prop where
  sound : s.connection.Sound
  numbered : s.Numbered
  placed : ∀ c ∈ s.calls, c.coordinator < s.connection.coordinators.length
  matched : ∀ c ∈ s.calls, c.call.kind = c.inv.callKind ∧ c.call.parse = c.inv.parse
  wire : ∀ b ∈ s.wire, s.IsRequest codec gc session b
  arrived : ∀ message, s.connection.filter.Seen message → Honest codec gc answers s.wire message
  carries : ∀ k ∈ s.connection.coordinators, k.Carries (Justified codec gc answers s.wire)
  tied : ∀ c ∈ s.calls, ∀ k, s.connection.coordinators[c.coordinator]? = some k →
    Client.Tied (Justified codec gc answers s.wire) k.filter c.call

theorem inv_init : ({} : GcRpc SteamID).Inv codec gc session answers where
  sound := Connection.sound_init
  numbered := ⟨rfl, List.nodup_nil, fun _ hid => absurd hid List.not_mem_nil⟩
  placed _ hc := absurd hc List.not_mem_nil
  matched _ hc := absurd hc List.not_mem_nil
  wire _ hb := absurd hb List.not_mem_nil
  arrived _ hseen := absurd hseen MessageFilter.not_seen_init
  carries _ hk := absurd hk List.not_mem_nil
  tied _ hc := absurd hc List.not_mem_nil

omit [DecidableEq SteamID] in
/-- What was justified stays so. -/
theorem Justified.mono {wire wire' : List Bytes} {m : RawNetMessage SteamID}
    (h : Justified codec gc answers wire m) (hwire : wire ⊆ wire') :
    Justified codec gc answers wire' m :=
  h.imp_right fun ⟨b, hb, hanswer⟩ => ⟨b, hwire hb, hanswer⟩

omit [DecidableEq SteamID] in
/-- Only messages of coordinators can fail to be honest. -/
theorem honest_of_kind_ne {wire : List Bytes} {message : RawNetMessage SteamID}
    (hkind : message.kind ≠ fromGcKind) : Honest codec gc answers wire message := by
  intro m hm
  cases hopen : GameCoordinator.openEnvelope codec gc message with
  | sending envelope =>
    have hopens := GameCoordinator.opens_openEnvelope codec gc message
    rw [hopen] at hopens
    cases hopens with
    | send hmessage => exact absurd (RawNetMessage.intoMessage_eq_ok_iff.mp hmessage).2.1 hkind
  | awaiting | stopped =>
    rw [hopen] at hm
    cases hm

/-- Requests stay. -/
theorem StepsTo.wire_subset (h : StepsTo shard codec gc session answers s a t) :
    s.wire ⊆ t.wire := by
  cases h with
  | transmit => exact List.subset_append_left ..
  | _ => exact List.Subset.refl _

/-- The coordinators only get more. -/
theorem StepsTo.length_le (h : StepsTo shard codec gc session answers s a t) :
    s.connection.coordinators.length ≤ t.connection.coordinators.length := by
  refine Nat.le_of_not_lt fun hlt => ?_
  obtain ⟨k', hk', -⟩ := h.exists_coordinator (List.getElem?_eq_getElem hlt)
  exact absurd (List.getElem?_eq_some_iff.mp hk').1 (Nat.lt_irrefl _)

/-- A call is one from before, or was just made. -/
theorem StepsTo.call_cases (h : StepsTo shard codec gc session answers s a t) (hc' : c' ∈ t.calls) :
    (∃ c ∈ s.calls, c'.coordinator = c.coordinator ∧ c'.inv = c.inv ∧
      c'.call.kind = c.call.kind ∧ c'.call.parse = c.call.parse) ∨
    c'.coordinator < s.connection.coordinators.length ∧ c'.call.kind = c'.inv.callKind ∧
      c'.call.parse = c'.inv.parse := by
  have hupdate : ∀ {n : Nat} {c : GcCall SteamID} {call : Call} {g : MessageFilter SteamID}
      {k : GameCoordinator SteamID} {b : Client.Action SteamID}, s.calls[n]? = some c →
      Client.CallSteps k.filter c.call b call g → c' ∈ s.calls.set n { c with call } →
        ∃ c ∈ s.calls, c'.coordinator = c.coordinator ∧ c'.inv = c.inv ∧
          c'.call.kind = c.call.kind ∧ c'.call.parse = c.call.parse := by
    intro n c call g k b hc hsteps hmem
    rcases List.mem_or_eq_of_mem_set hmem with hold | rfl
    · exact ⟨c', hold, rfl, rfl, rfl, rfl⟩
    · exact ⟨c, List.mem_of_getElem? hc, rfl, rfl, hsteps.id_eq.1, by cases hsteps <;> rfl⟩
  cases h with
  | connection | draw => exact .inl ⟨c', hc', rfl, rfl, rfl, rfl⟩
  | invoke hi =>
    rcases List.mem_append.mp hc' with hold | hnew
    · exact .inl ⟨c', hold, rfl, rfl, rfl, rfl⟩
    · obtain rfl := List.mem_singleton.mp hnew
      exact .inr ⟨hi, rfl, rfl⟩
  | transmit hc _ _ hsteps | call hc _ hsteps => exact .inl (hupdate hc hsteps hc')

/-- A request stays the request of its call. -/
theorem IsRequest.of_steps {b : Bytes} (hb : s.IsRequest codec gc session b)
    (h : StepsTo shard codec gc session answers s a t) : t.IsRequest codec gc session b := by
  obtain ⟨c, hc, k, m, hk, hm, rfl⟩ := hb
  obtain ⟨c', hc', hplace, hinv, hid⟩ := h.exists_call hc
  obtain ⟨k', hk', happ⟩ := h.exists_coordinator hk
  exact ⟨c', hc', k', m, hplace ▸ hk', by rw [hinv, happ, hid, hm], rfl⟩

section Steps

variable (hs : s.Inv codec gc session answers)
include hs

/-- What is sent are the requests of the calls. -/
theorem Inv.wire_of_steps (h : StepsTo shard codec gc session answers s a t) :
    ∀ b ∈ t.wire, t.IsRequest codec gc session b := by
  intro b hb
  have hcases : b ∈ s.wire ∨ s.IsRequest codec gc session b := by
    cases h with
    | transmit hc hk hm =>
      rcases List.mem_append.mp hb with hold | hnew
      · exact .inl hold
      · exact .inr ⟨_, List.mem_of_getElem? hc, _, _, hk, hm, List.mem_singleton.mp hnew⟩
    | _ => exact .inl hb
  exact (hcases.elim (hs.wire b) id).of_steps h

/-- The network is honest, and so is what the connection saw of it. -/
theorem Inv.arrived_of_steps (h : StepsTo shard codec gc session answers s a t)
    (message : RawNetMessage SteamID) (ht : t.connection.filter.Seen message) :
    Honest codec gc answers s.wire message := by
  cases h with
  | connection hpermits hstep =>
    rcases (Connection.stepsTo_of_step hstep).seen_of ht with hold | rfl
    · exact hs.arrived message hold
    · by_cases hkind : message.kind = fromGcKind
      · refine hpermits message ?_
        rw [MessageFilter.Action.fromGc, if_pos hkind]
        exact List.mem_singleton_self _
      · exact honest_of_kind_ne hkind
  | _ => exact hs.arrived message ht

/-- A coordinator is new, or its filter takes a step or none. -/
theorem Inv.coordinators_of_step {a : Connection.Action SteamID} {t : Connection SteamID}
    (h : s.connection.step codec gc shard a = some t) {i : Nat} (hk : t.coordinators[i]? = some k) :
    k.Carries (Justified codec gc answers s.wire) ∧
      (i < s.connection.coordinators.length → ∃ l, s.connection.coordinators[i]? = some l ∧
        (k.filter = l.filter ∨ ∃ b, l.filter.StepsTo b k.filter)) := by
  cases (Connection.stepsTo_of_step h).stepsAt hs.sound hk with
  | initRaw hi =>
    refine ⟨⟨MessageFilter.owned_init, fun m hm => (by cases hm), fun item hitem => by cases hitem⟩,
      fun hlt => absurd hlt (by omega)⟩
  | acts hl hacts =>
    have hsteps := GameCoordinator.stepsTo_of_step hacts
    refine ⟨(hs.carries _ (List.mem_of_getElem? hl)).of_stepsTo hsteps fun item hitem => ?_,
      fun _ => ⟨_, hl, hsteps.filter_cases⟩⟩
    -- what is in the subscription was seen
    exact hs.arrived item.message (.inl ⟨_, List.mem_map_of_mem hitem⟩)
  | filter hl =>
    obtain ⟨howned, hahead, htask⟩ := hs.carries _ (List.mem_of_getElem? hl)
    exact ⟨⟨howned, hahead, htask⟩, fun _ => ⟨_, hl, .inl rfl⟩⟩
  | other hl => exact ⟨hs.carries _ (List.mem_of_getElem? hl), fun _ => ⟨_, hl, .inl rfl⟩⟩

/-- A step of a call concerns the filter of its coordinator alone. -/
theorem Inv.of_update {next : Call × MessageFilter SteamID} {b : Client.Action SteamID}
    (hc : s.calls[n]? = some c) (hk : s.connection.coordinators[c.coordinator]? = some k)
    (h : Client.CallSteps k.filter c.call b next.1 next.2) :
    (∀ l ∈ (s.update n c k next).connection.coordinators,
      l.Carries (Justified codec gc answers s.wire)) ∧
    ∀ c' ∈ (s.update n c k next).calls, ∀ l,
      (s.update n c k next).connection.coordinators[c'.coordinator]? = some l →
        Client.Tied (Justified codec gc answers s.wire) l.filter c'.call := by
  have hcarries := hs.carries k (List.mem_of_getElem? hk)
  have htied := hs.tied c (List.mem_of_getElem? hc) k hk
  constructor
  · intro l hl
    rcases List.mem_or_eq_of_mem_set hl with hold | rfl
    · exact hs.carries l hold
    · exact ⟨h.owned_of hcarries.owned, hcarries.ahead, fun item hitem =>
        hcarries.task item (h.item_of hitem)⟩
  · intro c' hc' l hl
    obtain ⟨j, hj⟩ := List.mem_iff_getElem?.mp hc'
    rw [update, List.getElem?_set] at hl hj
    split_ifs at hj with hnj hlt
    · -- the call itself
      cases hj
      rw [if_pos rfl, if_pos (List.getElem?_eq_some_iff.mp hk).1] at hl
      cases hl
      exact htied.of_callSteps hcarries.owned hcarries.task h
    · have hold := hs.tied c' (List.mem_of_getElem? hj)
      split_ifs at hl with hplace hlt'
      · -- another call on the same coordinator
        cases hl
        have hbefore := hold k (hplace ▸ hk)
        rcases h.filter_cases with hsame | ⟨b, hb, -⟩
        · exact hsame ▸ hbefore
        · exact hbefore.of_steps hcarries.owned hcarries.task hb
      · exact hold l hl

/-- Every step keeps what is on its way justified, and the receivers of the calls their own. -/
theorem Inv.carries_of_steps (h : StepsTo shard codec gc session answers s a t) :
    (∀ k ∈ t.connection.coordinators, k.Carries (Justified codec gc answers s.wire)) ∧
      ∀ c ∈ t.calls, ∀ k, t.connection.coordinators[c.coordinator]? = some k →
        Client.Tied (Justified codec gc answers s.wire) k.filter c.call := by
  cases h with
  | connection _ hstep =>
    refine ⟨fun k hk => ?_, fun c hc k hk => ?_⟩
    · obtain ⟨i, hi⟩ := List.mem_iff_getElem?.mp hk
      exact (hs.coordinators_of_step hstep hi).1
    · obtain ⟨l, hl, hfilter⟩ := (hs.coordinators_of_step hstep hk).2 (hs.placed c hc)
      have hcarries := hs.carries l (List.mem_of_getElem? hl)
      rcases hfilter with hsame | ⟨b, hb⟩
      · exact hsame ▸ hs.tied c hc l hl
      · exact (hs.tied c hc l hl).of_steps hcarries.owned hcarries.task hb
  | draw => exact ⟨hs.carries, hs.tied⟩
  | invoke =>
    refine ⟨hs.carries, fun c hc k hk => ?_⟩
    rcases List.mem_append.mp hc with hold | hnew
    · exact hs.tied c hold k hk
    · obtain rfl := List.mem_singleton.mp hnew
      exact Client.tied_of_drawn rfl
  | transmit hc hk _ hsteps | call hc hk hsteps => exact hs.of_update hc hk hsteps

/-- Every step keeps the calls tied to what is on its way to them. -/
theorem Inv.of_steps (h : StepsTo shard codec gc session answers s a t)
    (hdrawn : t.drawn < 2 ^ 64 - 1) : t.Inv codec gc session answers := by
  have hmono : ∀ m, Justified codec gc answers s.wire m → Justified codec gc answers t.wire m :=
    fun m hm => hm.mono h.wire_subset
  obtain ⟨hcarries, htied⟩ := hs.carries_of_steps h
  refine ⟨?_, hs.numbered.of_steps h hdrawn, fun c' hc' => ?_, fun c' hc' => ?_, hs.wire_of_steps h,
    fun message hseen m hm inner hinner => ?_, fun k hk => (hcarries k hk).mono hmono,
    fun c hc k hk => (htied c hc k hk).mono hmono⟩
  · cases h with
    | connection _ hstep => exact hs.sound.of_steps (Connection.stepsTo_of_step hstep)
    | draw | invoke => exact hs.sound
    | transmit _ hk | call _ hk => exact hs.sound.of_filter hk _
  · refine Nat.lt_of_lt_of_le ?_ h.length_le
    rcases h.call_cases hc' with ⟨c, hc, hplace, -⟩ | ⟨hlt, -⟩
    · exact hplace ▸ hs.placed c hc
    · exact hlt
  · rcases h.call_cases hc' with ⟨c, hc, -, hinv, hkind, hparse⟩ | ⟨-, hmatched⟩
    · rw [hinv, hkind, hparse]
      exact hs.matched c hc
    · exact hmatched
  · exact hmono _ (hs.arrived_of_steps h message hseen m hm inner hinner)

end Steps

theorem inv_of_run {w : List (Action SteamID)}
    (hrun : run (step shard codec gc session answers) {} w = some s) (hdrawn : s.drawn < 2 ^ 64 - 1) :
    s.Inv codec gc session answers := by
  have hstep : ∀ (s : GcRpc SteamID) a t, (s.drawn < 2 ^ 64 - 1 → s.Inv codec gc session answers) →
      step shard codec gc session answers s a = some t →
        t.drawn < 2 ^ 64 - 1 → t.Inv codec gc session answers := by
    intro s a t ih hstep hlt
    have hsteps := stepsTo_of_step hstep
    refine (ih ?_).of_steps hsteps hlt
    rcases hsteps.ids_eq with ⟨-, -, hsame⟩ | ⟨-, -, hsucc⟩ <;> omega
  exact run_invariant hstep (fun _ => inv_init) hrun hdrawn

omit [SteamIdOps SteamID] [DecidableEq SteamID] in
/-- Calls with one id are one call. -/
theorem Numbered.eq_of_id_eq (hs : s.Numbered) (hc : c ∈ s.calls) (hc' : c' ∈ s.calls)
    (hid : c.call.id = c'.call.id) : c = c' :=
  List.inj_on_of_nodup_map hs.nodup hc hc' hid

omit [SteamIdOps SteamID] [DecidableEq SteamID] in
/-- Before the counter wraps no call has the id of no job. -/
theorem Numbered.ne_none (hs : s.Numbered) (hdrawn : s.drawn < 2 ^ 64 - 1) (hc : c ∈ s.calls) :
    c.call.id ≠ JobId.none := by
  intro hnone
  have hbelow := hs.below c.call.id (List.mem_map_of_mem hc)
  rw [hnone, show JobId.none.raw.toNat = 2 ^ 64 - 1 from rfl] at hbelow
  omega

/-- A message for a job is for a call whose request was sent, and answers it. -/
theorem Inv.exists_request (hs : s.Inv codec gc session answers) (hcodec : codec.Lawful)
    (hname : codec.FitsWithoutName) (hgc : gc.Lawful) (hmemory : ∀ b ∈ s.wire, b.length < 2 ^ 64)
    {m : RawNetMessage SteamID} (hm : Justified codec gc answers s.wire m)
    (hjob : m.header.targetJobId ≠ JobId.none) :
    ∃ c ∈ s.calls, ∃ k sent req, s.connection.coordinators[c.coordinator]? = some k ∧
      c.call.id = m.header.targetJobId ∧
        c.inv.gcRequest codec gc session k.appId c.call.id = .ok sent ∧ sent.intoBytes ∈ s.wire ∧
          c.inv.IsUnpacked codec gc k.appId c.call.id sent.intoBytes req ∧
            answers k.appId req m = true := by
  obtain ⟨b, hb, hanswer⟩ := hm.resolve_left hjob
  obtain ⟨c, hc, k, sent, hk, hsent, rfl⟩ := hs.wire b hb
  obtain ⟨req, hreq⟩ := Invocation.exists_isUnpacked hcodec hname hgc hsent (hmemory _ hb)
  rw [isAnswer, hreq.unpack] at hanswer
  obtain ⟨hid, hanswers⟩ := Bool.and_eq_true_iff.mp hanswer
  -- the job id in the envelope tells whose request it is
  exact ⟨c, hc, k, sent, req, hk, hreq.sourceJobId.symm.trans (of_decide_eq_true hid), hsent, hb,
    hreq, hanswers⟩

/-- With fewer than `2 ^ 64 - 1` ids drawn, every call gets answers of its app to its own request
only, although every envelope goes to all coordinators. -/
theorem answeredByApp_of_run (hcodec : codec.Lawful) (hname : codec.FitsWithoutName)
    (hgc : gc.Lawful) {w : List (Action SteamID)}
    (hrun : run (step shard codec gc session answers) {} w = some s)
    (hdrawn : s.drawn < 2 ^ 64 - 1) (hmemory : ∀ b ∈ s.wire, b.length < 2 ^ 64) :
    ∀ c ∈ s.calls, ∃ k, s.connection.coordinators[c.coordinator]? = some k ∧
      s.AnsweredByApp codec gc session answers c k := by
  intro c hc
  have hinv := inv_of_run hrun hdrawn
  have hk := List.getElem?_eq_getElem (hinv.placed c hc)
  have htied := hinv.tied c hc _ hk
  refine ⟨_, hk, hinv.matched c hc, fun hphase item hitem => ?_, fun hmulti hdone => ?_⟩
  · have htarget := (htied.receives hphase).2 item hitem
    obtain ⟨c', hc', k, sent, req, hk', hid, hsent, hwire, hreq, hanswers⟩ :=
      hinv.exists_request hcodec hname hgc hmemory (htied.receivesAll hphase item hitem)
        fun hnone => hinv.numbered.ne_none hdrawn hc (htarget.symm.trans hnone)
    obtain rfl := hinv.numbered.eq_of_id_eq hc' hc (hid.trans htarget)
    obtain rfl := Option.some.inj (hk'.symm.trans hk)
    exact ⟨sent, req, hsent, hwire, hreq, hanswers⟩
  · exact htied.succeeds.inbox_eq htied.receives (hinv.carries _ (List.mem_of_getElem? hk)).owned
      hmulti hdone

/-! ### A run -/

section Examples

/-- A coordinator sends a request back, with the last byte of its app. -/
def echoes (appId : Option UInt32) (req m : RawNetMessage UInt64) : Bool :=
  m.data = req.data ++ [(appId.getD 0).toUInt8]

/-- The same request, of whatever coordinator. -/
def ask : Invocation UInt64 :=
  .job
    { message := rpcMessage [7]
      kind := ⟨1086⟩
      isProtobuf := true
      keepsJob := fun _ => rfl
      kind_nonneg := by decide
      isEncryptHandshake_kind := rfl
      kind_ne_response := by decide } ⟨1087⟩ fun _ => .ok true

/-- The response of an app to the job with this id. -/
def reply (appId : UInt32) (id : UInt64) : RawNetMessage UInt64 :=
  Connection.gcMessage {
    appid := some appId
    msgtype := some (MsgKindEnum.encodeKind (⟨1087⟩ : MsgKind) true)
    payload := some (({ (default : NetMessageHeader UInt64) with
      targetJobId := ⟨id⟩ } : NetMessageHeader UInt64).write HeaderCodec.wire (⟨1087⟩ : MsgKind) true ++
        [7, appId.toUInt8]) }

/-- The coordinators of two apps are asked the same, and the second answers first. Each answer
passes both. -/
def twoApps : List (Action UInt64) :=
  [.connection (.initRaw 570), .connection (.initRaw 730), .invoke 0 ask 0, .invoke 1 ask 1,
    .call (.register 0), .call (.register 1), .transmit 0, .transmit 1, .call (.sendOk 0),
    .call (.sendOk 1)] ++
    (Connection.arrival (reply 730 2) ++ Connection.handOver 0 5 ++ Connection.handOver 1 2 ++
      Connection.arrival (reply 570 1) ++ Connection.handOver 0 2 ++
      Connection.handOver 1 5).map .connection ++
    [.call (.receive 0), .call (.receive 1)]

theorem answeredByApp_of_run_twoApps :
    ∃ s, run (step (fun _ => 0) .wire .wire Rpc.userSession echoes) ({} : GcRpc UInt64) twoApps =
        some s ∧
      s.calls.map (fun c => c.call.phase) = List.replicate 2 (.closing (.returned none)) ∧
      ∀ c ∈ s.calls, ∃ k, s.connection.coordinators[c.coordinator]? = some k ∧
        s.AnsweredByApp .wire .wire Rpc.userSession echoes c k := by
  refine ⟨_, rfl, rfl, ?_⟩
  exact @answeredByApp_of_run UInt64 _ _ (fun _ => 0) .wire .wire Rpc.userSession echoes _
    HeaderCodec.wire_lawful HeaderCodec.wire_fitsWithoutName GcCodec.wire_lawful twoApps rfl
    (by decide) (by decide)

end Examples

end GcRpc

end SteamWire
