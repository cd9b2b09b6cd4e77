import SteamWire.GameCoordinator.Delivery
import SteamWire.Semantics.Noninterference

/-!
# Coordinators of different apps

Every coordinator message of a connection goes to the subscription of every coordinator, and
a forwarding task hands on what is in the envelopes whatever app they are for. So a coordinator
gets what is for others, its handshake included (`not_isolated_crossTalk`).

As long as nothing for another app is broadcast, a coordinator is fed only what is for its app
(`Isolated`), and its view of the connection is a function of the events that concern it.
-/

namespace SteamWire

open Semantics

/-! ### What a filter has seen -/

theorem RingBuffer.mem_items_of_push {α : Type*} {b : RingBuffer α} {x y : α}
    (h : y ∈ (b.push x).2.items) : y ∈ b.items ∨ y = x := by
  have htail : y ∈ b.items.tail ++ [x] ∨ y ∈ b.items ++ [x] := by
    rw [push] at h
    split at h
    · exact .inl h
    · exact .inr h
  rcases htail with h | h <;> rcases List.mem_append.mp h with hold | hnew
  · exact .inl (List.mem_of_mem_tail hold)
  · exact .inr (List.mem_singleton.mp hnew)
  · exact .inl hold
  · exact .inr (List.mem_singleton.mp hnew)

namespace MessageFilter

variable {SteamID : Type} {shard : JobId → Nat} {f g : MessageFilter SteamID} {b : Action SteamID}
  {message : RawNetMessage SteamID}

/-- A message is at a receiver, in the hand of the task, or in the unprocessed buffer. -/
def Seen (f : MessageFilter SteamID) (message : RawNetMessage SteamID) : Prop :=
  (∃ c, message ∈ f.arrived c) ∨ (∃ item, f.task.item = some item ∧ item.message = message) ∨
    message ∈ f.rest.items

theorem not_seen_init : ¬ ({} : MessageFilter SteamID).Seen message := by
  rintro (⟨c, hmem⟩ | ⟨item, hitem, -⟩ | hmem)
  · cases hmem
  · cases hitem
  · cases hmem

/-- A send shows the message the task is busy with. -/
theorem seen_of_deliver {table : Table} {item : Item SteamID} {receivers : List ChanId}
    (hitem : f.task.item = some item) (hg : (f.deliver table item receivers).Seen message) :
    f.Seen message := by
  rcases hg with ⟨c, hmem⟩ | ⟨other, hother, -⟩ | hmem
  · rw [arrived, deliver_channels] at hmem
    split_ifs at hmem
    · rw [Channel.push_inbox, List.map_append] at hmem
      rcases List.mem_append.mp hmem with hold | hnew
      · exact .inl ⟨c, hold⟩
      · exact .inr (.inl ⟨item, hitem, (List.mem_singleton.mp hnew).symm⟩)
    · exact .inl ⟨c, hmem⟩
  · rw [deliver_task] at hother
    cases hother
  · rw [deliver_rest] at hmem
    exact .inr (.inr hmem)

/-- The task shows no message that was not there. -/
theorem Dispatches.seen_of (h : Dispatches f g) (hg : g.Seen message) : f.Seen message := by
  cases h with
  | jobSend htask | multiSend htask | kindOnceSend htask | notificationSend htask
  | kindSend htask => exact seen_of_deliver (by rw [htask]; rfl) hg
  | restPush htask =>
    rcases hg with harrived | ⟨other, hother, -⟩ | hmem
    · exact .inl harrived
    · cases hother
    · rcases RingBuffer.mem_items_of_push hmem with hold | rfl
      · exact .inr (.inr hold)
      · exact .inr (.inl ⟨_, by rw [htask]; rfl, rfl⟩)
  | notificationIgnored htask =>
    rcases hg with harrived | ⟨other, hother, -⟩ | hmem
    · exact .inl harrived
    · cases hother
    · exact .inr (.inr hmem)
  | jobHit htask | jobMiss htask | multiHit htask | multiMiss htask | kindOnceHit htask
  | toNotification htask | toKind htask | kindMiss htask =>
    refine hg.imp_right (Or.imp_left fun ⟨other, hother, hmessage⟩ => ⟨other, ?_, hmessage⟩)
    rw [htask]
    exact hother

/-- A registration takes nothing out of the unprocessed buffer and puts nothing in. -/
theorem rest_of_register {o : Origin} (h : f.step shard b = some g) (ho : b.origin = some o) :
    g.rest = f.rest := by
  cases b with
  | onJobIdMulti id =>
    obtain ⟨-, heq⟩ := Option.ite_none_left_eq_some.mp h
    cases heq
    rfl
  | onJobId | onNotification | onKind | oneKind =>
    cases h
    rfl
  | _ => cases ho

/-- A filter sees what its task is handed. -/
theorem seen_of_step (h : f.step shard b = some g) (hg : g.Seen message) :
    f.Seen message ∨ b = .next (some (.ok message)) := by
  cases stepsTo_of_step h with
  | register ho hreg =>
    left
    rcases hg with ⟨c, hmem⟩ | hitem | hmem
    · rw [arrived, hreg.channels] at hmem
      by_cases hc : c = f.nextChan
      · subst hc
        rw [Function.update_self] at hmem
        cases hmem
      · rw [Function.update_of_ne hc] at hmem
        exact .inl ⟨c, hmem⟩
    · rw [hreg.task] at hitem
      exact .inr (.inl hitem)
    · rw [rest_of_register h ho] at hmem
      exact .inr (.inr hmem)
  | drop =>
    rcases hg with ⟨c, hmem⟩ | hrest
    · rw [arrived, dropReceiver_inbox] at hmem
      exact .inl (.inl ⟨c, hmem⟩)
    · exact .inl (.inr hrest)
  | recv =>
    rcases hg with ⟨c, hmem⟩ | hrest
    · rw [arrived, setChannel_inbox (by rfl)] at hmem
      exact .inl (.inl ⟨c, hmem⟩)
    · exact .inl (.inr hrest)
  | pull htask =>
    rcases hg with harrived | ⟨item, hitem, hmessage⟩ | hmem
    · exact .inl (.inl harrived)
    · cases hitem
      rw [← hmessage]
      exact .inr rfl
    · exact .inl (.inr (.inr hmem))
  | stop htask =>
    rcases hg with harrived | ⟨item, hitem, -⟩ | hmem
    · exact .inl (.inl harrived)
    · cases hitem
    · exact .inl (.inr (.inr hmem))
  | unprocessed =>
    rcases hg with harrived | hitem | hmem
    · exact .inl (.inl harrived)
    · exact .inl (.inr (.inl hitem))
    · cases hmem
  | dispatch hdispatch => exact .inl (hdispatch.seen_of hg)
  | complete | skip => exact .inl hg

/-- A receiver of a broadcast takes the first of the last messages it has not read. -/
theorem unread_of_recv_subscription {c : ChanId} {kind : MsgKind} {item : Item SteamID}
    (ho : f.origins c = some (.kind kind)) (h : f.recv c = some (item, g)) :
    (f.channels c).unread.rtake channelCapacity = item :: (g.channels c).unread := by
  obtain ⟨⟨x, channel⟩, hread, heq⟩ := Option.map_eq_some_iff.mp h
  cases heq
  simp only [ho] at hread
  rw [Channel.unread_of_recvLast hread, setChannel_self]

end MessageFilter

/-! ### What a coordinator is fed -/

/-- The app a coordinator message is for, if its envelope can be decoded and names one. -/
def gcAppId {SteamID : Type} (gc : GcCodec) (message : RawNetMessage SteamID) : Option UInt32 :=
  (message.intoMessage (clientFromGcMessage gc)).toOption.bind CMsgGcClient.appid

namespace GameCoordinator

variable {SteamID : Type}

/-- A coordinator message does not name another app. -/
def Concerns (gc : GcCodec) (k : GameCoordinator SteamID) (message : RawNetMessage SteamID) :
    Prop :=
  ∀ appId ∈ gcAppId gc message, appId = k.appId

instance (gc : GcCodec) (k : GameCoordinator SteamID) (message : RawNetMessage SteamID) :
    Decidable (k.Concerns gc message) :=
  Option.decidableForallMem (gcAppId gc message)

/-- The filter of a coordinator is fed only what is for the app of the coordinator, and sees
nothing else. -/
structure Isolated (k : GameCoordinator SteamID) : Prop where
  fed : ∀ m ∈ k.fed, ∀ appId ∈ m.envelope.appid, appId = k.appId
  seen : ∀ message, k.filter.Seen message → ∃ m ∈ k.fed, m.res = .ok message

/-- What is on its way to the filter of a coordinator is for its app. -/
structure Isolating (gc : GcCodec) (f : MessageFilter SteamID) (k : GameCoordinator SteamID) :
    Prop where
  taken : (f.channels k.gcMessages).taken ≤ (f.channels k.gcMessages).inbox.length
  arrived : ∀ message ∈ f.arrived k.gcMessages, k.Concerns gc message
  ahead : ∀ m ∈ k.fed ++ k.queue ++ k.forwarder.pending, ∀ appId ∈ m.envelope.appid,
    appId = k.appId
  seen : ∀ message, k.filter.Seen message → ∃ m ∈ k.fed, m.res = .ok message

section Steps

variable {gc : GcCodec} {shard : JobId → Nat} {f g : MessageFilter SteamID}
  {k k' : GameCoordinator SteamID} {a : Action SteamID} {message : RawNetMessage SteamID}

theorem Isolating.isolated (hk : k.Isolating gc f) : k.Isolated where
  fed m hm := hk.ahead m (List.mem_append_left _ (List.mem_append_left _ hm))
  seen := hk.seen

/-- Nothing is new on the way. -/
theorem Isolating.of_channel_eq (hk : k.Isolating gc f)
    (hchannel : g.channels k.gcMessages = f.channels k.gcMessages)
    (received : List (RawNetMessage SteamID)) : { k with received }.Isolating gc g where
  taken := by rw [hchannel]; exact hk.taken
  arrived := by rw [MessageFilter.arrived_congr hchannel]; exact hk.arrived
  ahead := hk.ahead
  seen := hk.seen

/-- A message that does not name another app may be broadcast. -/
theorem Isolating.of_push (hk : k.Isolating gc f) {item : Item SteamID}
    (hchannel : g.channels k.gcMessages = (f.channels k.gcMessages).push item)
    (hitem : k.Concerns gc item.message) (received : List (RawNetMessage SteamID)) :
    { k with received }.Isolating gc g where
  taken := by
    rw [hchannel, Channel.push_inbox, List.length_append]
    exact Nat.le_add_right_of_le hk.taken
  arrived message hmessage := by
    rw [MessageFilter.arrived_of_push hchannel] at hmessage
    rcases List.mem_append.mp hmessage with hold | hnew
    · exact hk.arrived message hold
    · rwa [List.mem_singleton.mp hnew]
  ahead := hk.ahead
  seen := hk.seen

variable [SteamIdOps SteamID] {codec : HeaderCodec}

/-- The envelope of the message the forwarding task holds names the app that the coordinator
message is for. -/
theorem Opens.appid_eq {forwarder : Forwarder SteamID} (h : Opens codec gc message forwarder)
    {m : GcMessage SteamID} (hm : m ∈ forwarder.pending) :
    m.envelope.appid = gcAppId gc message := by
  cases h with
  | send hmessage hread =>
    obtain rfl := List.mem_singleton.mp hm
    rw [gcAppId, hmessage]
    rfl
  | _ => cases hm

omit [SteamIdOps SteamID] in
/-- What the filter of a coordinator sees in a step it sees in what it is fed. -/
private theorem seen_of_filter_step {b : MessageFilter.Action SteamID}
    {filter : MessageFilter SteamID} {fed : List (GcMessage SteamID)}
    (hseen : ∀ message, k.filter.Seen message → ∃ m ∈ k.fed, m.res = .ok message)
    (h : k.filter.step shard b = some filter) (hfed : k.fed ⊆ fed)
    (hnext : ∀ message, b = .next (some (.ok message)) → ∃ m ∈ fed, m.res = .ok message) :
    ∀ message, filter.Seen message → ∃ m ∈ fed, m.res = .ok message := by
  intro message hmessage
  rcases MessageFilter.seen_of_step h hmessage with hold | hnew
  · obtain ⟨m, hm, hres⟩ := hseen message hold
    exact ⟨m, hfed hm, hres⟩
  · exact hnext message hnew

/-- Every step of a coordinator keeps its messages apart from those of other apps. -/
theorem Isolating.of_stepsTo (hk : k.Isolating gc f) (h : StepsTo codec gc shard f k a k' g) :
    k'.Isolating gc g := by
  cases h with
  | @forward item g hawaits hrecv hopen =>
    obtain ⟨htaken, harrived, hitem⟩ := MessageFilter.arrived_of_recv hrecv
    refine ⟨htaken, by rw [harrived]; exact hk.arrived, fun m hm => ?_, hk.seen⟩
    rcases List.mem_append.mp hm with hold | hnew
    · exact hk.ahead m (List.mem_append_left _ hold)
    · rw [(opens_openEnvelope codec gc item.message).appid_eq hnew]
      exact hk.arrived item.message hitem
  | @panic item g hawaits hrecv hopen =>
    obtain ⟨htaken, harrived, -⟩ := MessageFilter.arrived_of_recv hrecv
    refine ⟨?_, ?_, fun m hm => ?_, hk.seen⟩
    · rw [MessageFilter.dropReceiver_self]
      exact htaken
    · rw [MessageFilter.arrived, MessageFilter.dropReceiver_self, Channel.close_inbox,
        ← MessageFilter.arrived, harrived]
      exact hk.arrived
    · rcases List.mem_append.mp hm with hold | hnew
      · exact hk.ahead m (List.mem_append_left _ hold)
      · cases hnew
  | @send message hsends hruns =>
    refine ⟨hk.taken, hk.arrived, fun m hm => hk.ahead m ?_, hk.seen⟩
    rw [hsends]
    simpa using hm
  | discard hsends hstopped =>
    refine ⟨hk.taken, hk.arrived, fun m hm => hk.ahead m ?_, hk.seen⟩
    rw [Forwarder.pending_awaiting, List.append_nil] at hm
    exact List.mem_append_left _ hm
  | @pull message queue filter hqueue h =>
    -- the one step that lets the filter see something
    refine ⟨hk.taken, hk.arrived, fun m hm => hk.ahead m ?_, ?_⟩
    · rw [hqueue]
      simpa using hm
    · refine seen_of_filter_step hk.seen h (List.subset_append_left _ _) fun raw hraw => ?_
      refine ⟨message, List.mem_append_right _ List.mem_cons_self, GcMessage.outcome_eq_ok.mp ?_⟩
      exact Option.some.inj (MessageFilter.Action.next.inj hraw)
  | close hqueue hstopped h =>
    refine ⟨hk.taken, hk.arrived, hk.ahead,
      seen_of_filter_step hk.seen h (List.Subset.refl _) fun raw hraw => ?_⟩
    cases hraw
  | filter hb h =>
    exact ⟨hk.taken, hk.arrived, hk.ahead,
      seen_of_filter_step hk.seen h (List.Subset.refl _) fun raw hraw => absurd hraw (hb _)⟩

end Steps

/-! ### What a coordinator sees of the connection -/

section Views

variable {SteamID : Type}

/-- A coordinator by itself: without the place of its receiver among the others and the record
of what came in at the connection. -/
def alone (k : GameCoordinator SteamID) : GameCoordinator SteamID :=
  { k with gcMessages := 0, received := [] }

/-- A coordinator with the messages its forwarding task has not read. -/
structure View (SteamID : Type) where
  coordinator : GameCoordinator SteamID
  unread : List (RawNetMessage SteamID) := []

def view (f : MessageFilter SteamID) (k : GameCoordinator SteamID) : View SteamID where
  coordinator := k.alone
  unread := (f.channels k.gcMessages).unread.map Item.message

/-- What concerns a coordinator: that it is made, a message for it, and its own steps. -/
inductive Event (SteamID : Type) where
  | initRaw (appId : UInt32)
  | message (message : RawNetMessage SteamID)
  | act (a : Action SteamID)

namespace View

variable [SteamIdOps SteamID] (codec : HeaderCodec) (gc : GcCodec) (shard : JobId → Nat)

/-- A message comes in. -/
def push (v : View SteamID) (message : RawNetMessage SteamID) : View SteamID :=
  match v.coordinator.forwarder with
  | .stopped => v
  | _ => { v with unread := v.unread ++ [message] }

/-- The forwarding task takes the first of the last sixteen messages. -/
def forward (v : View SteamID) : View SteamID :=
  match v.unread.rtake MessageFilter.channelCapacity with
  | message :: unread =>
    { coordinator := { v.coordinator with forwarder := openEnvelope codec gc message }, unread }
  | [] => v

variable {codec gc} in
theorem forward_of_rtake {v : View SteamID} {message : RawNetMessage SteamID}
    {unread : List (RawNetMessage SteamID)}
    (h : v.unread.rtake MessageFilter.channelCapacity = message :: unread) :
    v.forward codec gc =
      { coordinator := { v.coordinator with forwarder := openEnvelope codec gc message }
        unread } := by
  unfold forward
  rw [h]

/-- A step of a coordinator by itself. -/
def act (v : View SteamID) : Action SteamID → View SteamID
  | .forward => v.forward codec gc
  | .send => { v with coordinator := v.coordinator.send.getD v.coordinator }
  | .pull => { v with coordinator := (v.coordinator.pull shard).getD v.coordinator }
  | .filter b =>
    match v.coordinator.filter.step shard b with
    | some filter => { v with coordinator := { v.coordinator with filter } }
    | none => v

variable {codec gc shard} in
theorem act_filter {v : View SteamID} {b : MessageFilter.Action SteamID}
    {filter : MessageFilter SteamID} (h : v.coordinator.filter.step shard b = some filter) :
    v.act codec gc shard (.filter b) = { v with coordinator := { v.coordinator with filter } } := by
  simp only [act, h]

/-- What an event does to a coordinator by itself. -/
def observe : Option (View SteamID) → Event SteamID → Option (View SteamID)
  | _, .initRaw appId => some { coordinator := { appId, gcMessages := 0 } }
  | v, .message message => v.map fun v => v.push message
  | v, .act a => v.map fun v => v.act codec gc shard a

end View

variable {codec : HeaderCodec} {gc : GcCodec} {shard : JobId → Nat} {f g : MessageFilter SteamID}
  {k k' : GameCoordinator SteamID} {a : Action SteamID}

theorem alone_send : k.alone.send = k.send.map alone := by
  rw [send, send]
  cases hforwarder : k.forwarder with
  | awaiting | stopped => simp only [alone, hforwarder, Option.map_none]
  | sending message =>
    simp only [alone, hforwarder]
    cases htask : k.filter.task with
    | stopped => rfl
    | _ => dsimp only; split <;> rfl

theorem alone_pull : k.alone.pull shard = (k.pull shard).map alone := by
  rw [pull, pull]
  cases hqueue : k.queue with
  | cons message queue =>
    simp only [alone, hqueue, Option.map_map]
    rfl
  | nil =>
    simp only [alone, hqueue]
    cases k.forwarder with
    | stopped =>
      dsimp only
      rw [Option.map_map]
      rfl
    | _ => rfl

/-- What a coordinator has not read it sees at its own receiver. -/
theorem view_congr (hchannel : g.channels k.gcMessages = f.channels k.gcMessages)
    (received : List (RawNetMessage SteamID)) : { k with received }.view g = k.view f := by
  rw [view, view, hchannel]
  rfl

variable [SteamIdOps SteamID]

/-- A coordinator takes its steps as it would by itself. -/
theorem view_of_step (hsub : k.Subscribed f) (h : k.step codec gc shard f a = some (k', g)) :
    k'.view g = (k.view f).act codec gc shard a := by
  have hread : ∀ {item : Item SteamID} {g : MessageFilter SteamID},
      f.recv k.gcMessages = some (item, g) →
        (k.view f).unread.rtake MessageFilter.channelCapacity =
          item.message :: (g.channels k.gcMessages).unread.map Item.message := by
    intro item g hrecv
    have hlast := MessageFilter.unread_of_recv_subscription hsub.origin hrecv
    rw [List.rtake] at hlast
    rw [view, List.rtake, List.length_map, ← List.map_drop, hlast, List.map_cons]
  cases a with
  | forward =>
    change _ = (k.view f).forward codec gc
    cases stepsTo_of_step h with
    | forward hawaits hrecv hopen => exact (View.forward_of_rtake (hread hrecv)).symm
    | panic hawaits hrecv hopen =>
      rw [View.forward_of_rtake (hread hrecv), hopen, view, MessageFilter.dropReceiver_self]
      rfl
  | send =>
    obtain ⟨l, hl, heq⟩ := Option.map_eq_some_iff.mp h
    obtain ⟨rfl, rfl⟩ := Prod.mk.inj heq
    have hchan : l.gcMessages = k.gcMessages := (stepsTo_of_step h).frame.2.1
    change _ = ({ k.view f with coordinator := k.alone.send.getD k.alone } : View SteamID)
    rw [alone_send, hl, view, hchan]
    rfl
  | pull =>
    obtain ⟨l, hl, heq⟩ := Option.map_eq_some_iff.mp h
    obtain ⟨rfl, rfl⟩ := Prod.mk.inj heq
    have hchan : l.gcMessages = k.gcMessages := (stepsTo_of_step h).frame.2.1
    change _ = ({ k.view f with coordinator := (k.alone.pull shard).getD k.alone } : View SteamID)
    rw [alone_pull, hl, view, hchan]
    rfl
  | filter b =>
    cases stepsTo_of_step h with
    | @filter _ filter hb hfilter =>
      have hview : (k.view f).coordinator.filter.step shard b = some filter := hfilter
      rw [View.act_filter hview]
      rfl

omit [SteamIdOps SteamID] in
/-- A coordinator by itself gets what is broadcast as long as its forwarding task runs. -/
theorem view_of_broadcast (hsub : k.Subscribed f)
    (htaken : (f.channels k.gcMessages).taken ≤ (f.channels k.gcMessages).inbox.length)
    {item : Item SteamID} (hchannel : g.channels k.gcMessages =
      if (f.channels k.gcMessages).alive = true then (f.channels k.gcMessages).push item
      else f.channels k.gcMessages) : k.view g = (k.view f).push item.message := by
  have halone : (k.view f).coordinator.forwarder = k.forwarder := rfl
  rw [View.push, halone]
  cases hforwarder : k.forwarder with
  | stopped =>
    have hdead : ¬ (f.channels k.gcMessages).alive = true := fun h => hsub.alive.mp h hforwarder
    rw [view, hchannel, if_neg hdead]
    rfl
  | awaiting | sending =>
    have halive : (f.channels k.gcMessages).alive = true := by
      rw [hsub.alive, hforwarder]
      nofun
    rw [view, hchannel, if_pos halive, Channel.unread_push htaken, List.map_append]
    rfl

end Views

end GameCoordinator

namespace Connection

open GameCoordinator (Event View)

variable {SteamID : Type}

/-! ### Isolation -/

section Definitions

variable (gc : GcCodec) (i : Nat) (s : Connection SteamID)

/-- What coordinator `i` sees of the connection. -/
def view : Option (View SteamID) := s.coordinators[i]?.map (GameCoordinator.view s.filter)

/-- What a step shows to coordinator `i`: a coordinator message that names another app concerns
nobody else. -/
def event : Action SteamID → Option (Event SteamID)
  | .initRaw appId => if s.coordinators.length = i then some (.initRaw appId) else none
  | .filter .dispatch =>
    s.coordinators[i]?.bind fun k =>
      s.filter.toBroadcast.bind fun item =>
        if k.Concerns gc item.message then some (.message item.message) else none
  | .filter _ => none
  | .coordinator j a => if j = i then some (.act a) else none

/-- No message for another app is broadcast while coordinator `i` has its subscription. -/
def OwnApp : Action SteamID → Prop
  | .filter .dispatch =>
    ∀ k ∈ s.coordinators[i]?, (s.filter.channels k.gcMessages).alive = true →
      ∀ item ∈ s.filter.toBroadcast, k.Concerns gc item.message
  | _ => True

instance (a : Action SteamID) : Decidable (OwnApp gc i s a) :=
  match a with
  | .filter .dispatch =>
    inferInstanceAs (Decidable (∀ k ∈ s.coordinators[i]?,
      (s.filter.channels k.gcMessages).alive = true →
        ∀ item ∈ s.filter.toBroadcast, k.Concerns gc item.message))
  | .filter (.onJobId _) | .filter (.onJobIdMulti _) | .filter (.completeJobIdMulti _)
  | .filter (.onNotification _) | .filter (.onKind _) | .filter (.oneKind _)
  | .filter .unprocessed | .filter (.dropReceiver _) | .filter (.recv _) | .filter (.next _)
  | .initRaw _ | .coordinator _ _ => inferInstanceAs (Decidable True)

/-- Coordinator `i`, if there is one, gets only what is for its app. -/
structure Isolates : Prop where
  sound : s.Sound
  isolating : ∀ k, s.coordinators[i]? = some k → k.Isolating gc s.filter

end Definitions

variable {gc : GcCodec} {i : Nat} {s t : Connection SteamID} {a : Action SteamID}
  {k : GameCoordinator SteamID}

theorem event_dispatch (hi : s.coordinators[i]? = some k) :
    event gc i s (.filter .dispatch) = s.filter.toBroadcast.bind fun item =>
      if k.Concerns gc item.message then some (.message item.message) else none := by
  rw [event, hi, Option.bind_some]

theorem isolates_init : Isolates gc i ({} : Connection SteamID) where
  sound := sound_init
  isolating _ hk := nomatch hk

variable [SteamIdOps SteamID] {codec : HeaderCodec} {shard : JobId → Nat}

/-- Every step that broadcasts nothing for another app keeps the messages apart. -/
theorem Isolates.of_step (hs : Isolates gc i s) (hown : OwnApp gc i s a)
    (h : s.step codec gc shard a = some t) : Isolates gc i t := by
  have hsteps := stepsTo_of_step h
  refine ⟨hs.sound.of_steps hsteps, fun k hk => ?_⟩
  cases hsteps.stepsAt hs.sound hk with
  | initRaw hi hfilter =>
    have hnew := MessageFilter.channels_of_eq_onKind hfilter
    refine ⟨?_, fun message hmessage => ?_, fun m hm => ?_, fun message hseen => ?_⟩
    · rw [hnew]
      exact Nat.le_refl 0
    · rw [MessageFilter.arrived, hnew] at hmessage
      cases hmessage
    · cases hm
    · exact absurd hseen MessageFilter.not_seen_init
  | acts hi hacts => exact (hs.isolating _ hi).of_stepsTo (GameCoordinator.stepsTo_of_step hacts)
  | @filter l b hi hpermits hstep =>
    have hmem := List.mem_of_getElem? hi
    obtain ⟨hrecv, hdrop⟩ := hpermits.ne hmem
    have horigin := (hs.sound.subscribed l hmem).origin
    have hchannel := (MessageFilter.stepsTo_of_step hstep).channel_of_subscription hs.sound.owned
      horigin hrecv hdrop
    rcases hchannel with hsame | ⟨rfl, item, hitem, halive, hpush⟩
    · exact (hs.isolating l hi).of_channel_eq hsame _
    · exact (hs.isolating l hi).of_push hpush (hown l hi halive item hitem) _
  | other hi hfilter hacts htask hchannel =>
    exact (hs.isolating k hi).of_channel_eq hchannel k.received

/-- Coordinators stay, and a step that shows something to one makes it or finds it there. -/
theorem StepsTo.eq_none (h : StepsTo codec gc shard s a t) (hi : t.coordinators[i]? = none) :
    s.coordinators[i]? = none ∧ event gc i s a = none := by
  rw [List.getElem?_eq_none_iff] at hi ⊢
  cases h with
  | initRaw =>
    rw [List.length_append, List.length_singleton] at hi
    exact ⟨by omega, if_neg (by omega)⟩
  | @filter b =>
    rw [List.length_map] at hi
    refine ⟨hi, ?_⟩
    cases b with
    | dispatch => rw [event, List.getElem?_eq_none hi, Option.bind_none]
    | _ => rfl
  | @coordinator j k k' b g hj =>
    rw [List.length_set] at hi
    have hlt := (List.getElem?_eq_some_iff.mp hj).1
    exact ⟨hi, if_neg (by omega)⟩

omit [SteamIdOps SteamID] in
/-- A step of the filter shows nothing to a coordinator and leaves its receiver alone, or shows
it a message that it gets if it can. -/
theorem Isolates.filter_step_cases (hs : Isolates gc i s) {b : MessageFilter.Action SteamID}
    (hown : OwnApp gc i s (.filter b)) (hi : s.coordinators[i]? = some k) (hpermits : s.Permits b)
    {g : MessageFilter SteamID} (h : s.filter.step shard b = some g) :
    event gc i s (.filter b) = none ∧
        g.channels k.gcMessages = s.filter.channels k.gcMessages ∨
      ∃ message, event gc i s (.filter b) = some (.message message) ∧
        k.view g = (k.view s.filter).push message := by
  have hmem := List.mem_of_getElem? hi
  obtain ⟨hrecv, hdrop⟩ := hpermits.ne hmem
  have hsub := hs.sound.subscribed k hmem
  have hchannel := (MessageFilter.stepsTo_of_step h).channel_of_subscription hs.sound.owned
    hsub.origin hrecv hdrop
  by_cases hb : b = .dispatch
  · subst hb
    rw [event_dispatch hi]
    rcases Option.eq_none_or_eq_some s.filter.toBroadcast with hnone | ⟨item, hitem⟩
    · rw [hnone]
      refine .inl ⟨rfl, hchannel.resolve_right ?_⟩
      rintro ⟨-, item, hitem, -⟩
      cases hnone.symm.trans hitem
    · rw [hitem, Option.bind_some]
      have hpush := ((MessageFilter.dispatches_of_eq_some h).channel_of_toBroadcast hitem
        hsub.stored).2
      by_cases hconcerns : k.Concerns gc item.message
      · have hview := GameCoordinator.view_of_broadcast hsub (hs.isolating k hi).taken hpush
        exact .inr ⟨item.message, if_pos hconcerns, hview⟩
      · -- the message is for another app, so the subscription has ended
        rw [if_neg fun halive => hconcerns (hown k hi halive item hitem)] at hpush
        exact .inl ⟨if_neg hconcerns, hpush⟩
  · refine .inl ⟨?_, hchannel.resolve_right fun hpush => hb hpush.1⟩
    cases b with
    | dispatch => exact absurd rfl hb
    | _ => rfl

/-- What a coordinator sees changes by the events that concern it only. -/
theorem Isolates.view_of_step (hs : Isolates gc i s) (hown : OwnApp gc i s a)
    (h : s.step codec gc shard a = some t) :
    t.view i = (event gc i s a).toList.foldl (View.observe codec gc shard) (s.view i) := by
  have hsteps := stepsTo_of_step h
  cases hi : t.coordinators[i]? with
  | none =>
    obtain ⟨hnone, hevent⟩ := hsteps.eq_none hi
    rw [view, view, hi, hnone, hevent]
    rfl
  | some k =>
    cases hsteps.stepsAt hs.sound hi with
    | initRaw hlen hfilter =>
      have hnew := MessageFilter.channels_of_eq_onKind hfilter
      rw [view, hi, event, if_pos hlen.symm, Option.map_some, GameCoordinator.view, hnew]
      rfl
    | @acts l _ b hl hacts =>
      have hsub := hs.sound.subscribed l (List.mem_of_getElem? hl)
      rw [view, view, hi, hl, event, if_pos rfl, Option.map_some, Option.map_some,
        GameCoordinator.view_of_step hsub hacts]
      rfl
    | filter hl hpermits hstep =>
      rw [view, view, hi, hl, Option.map_some, Option.map_some]
      rcases hs.filter_step_cases hown hl hpermits hstep with
        ⟨hevent, hchannel⟩ | ⟨message, hevent, hview⟩
      · rw [hevent, GameCoordinator.view_congr hchannel]
        rfl
      · rw [hevent]
        exact congrArg some hview
    | other hl hfilter hacts htask hchannel =>
      have hevent : event gc i s a = none := by
        cases a with
        | initRaw appId =>
          have hlt := (List.getElem?_eq_some_iff.mp hl).1
          exact if_neg (by omega)
        | filter b => exact absurd rfl (hfilter b)
        | coordinator j b =>
          refine if_neg fun hji => ?_
          subst hji
          exact hacts b rfl
      rw [view, view, hi, hl, hevent, Option.map_some, Option.map_some]
      exact congrArg some (GameCoordinator.view_congr hchannel k.received)

/-- Only its events change what a coordinator sees. -/
theorem unwinds : Unwinds (step codec gc shard) (Isolates gc i) (OwnApp gc i) (event gc i)
    (@view SteamID i) (View.observe codec gc shard) where
  keeps _ _ _ hs hown h := hs.of_step hown h
  silent _ _ _ hs hown h hevent := by
    rw [hs.view_of_step hown h, hevent]
    rfl
  shows _ _ _ _ hs hown h hevent := by
    rw [hs.view_of_step hown h, hevent]
    rfl

/-- In every run in which no message for another app is broadcast while a coordinator has its
subscription, the coordinator is fed only what is for its app, and it sees the same as in any
other such run that shows it the same. -/
theorem isolated_of_run {w : List (Action SteamID)} (hrun : run (step codec gc shard) {} w = some s)
    (hown : AllSteps (step codec gc shard) (OwnApp gc i) {} w) :
    (∀ k, s.coordinators[i]? = some k → k.Isolated) ∧
      ∀ (i' : Nat) (w' : List (Action SteamID)) (s' : Connection SteamID),
        run (step codec gc shard) {} w' = some s' →
          AllSteps (step codec gc shard) (OwnApp gc i') {} w' →
            trace (step codec gc shard) (event gc i') {} w' =
              trace (step codec gc shard) (event gc i) {} w →
                s'.view i' = s.view i := by
  have hall : AllStates (step codec gc shard) (Isolates gc i) {} w :=
    hown.allStates (fun _ h => h) (fun _ _ _ hs hguard h => hs.of_step hguard h) isolates_init
  refine ⟨fun k hk => ((hall.last hrun).isolating k hk).isolated, ?_⟩
  intro i' w' s' hrun' hown' htrace
  exact view_eq_of_trace_eq unwinds unwinds isolates_init isolates_init hown hown' hrun hrun' rfl
    htrace

section Examples

/-- The same run after a message for another app went by. -/
def welcomedLate : List (Action UInt64) :=
  arrival (clientWelcome 730) ++ [.filter .dispatch] ++ welcomed

theorem isolated_of_run_welcomed :
    ∃ s s', run (step .wire .wire fun _ => 0) ({} : Connection UInt64) welcomed = some s ∧
      run (step .wire .wire fun _ => 0) ({} : Connection UInt64) welcomedLate = some s' ∧
        (∀ k, s.coordinators[0]? = some k → k.Isolated) ∧ s'.view 0 = s.view 0 := by
  have hown : AllSteps (step .wire .wire fun _ => 0) (OwnApp .wire 0) ({} : Connection UInt64)
      welcomed := by decide +kernel
  have hlate : AllSteps (step .wire .wire fun _ => 0) (OwnApp .wire 0) ({} : Connection UInt64)
      welcomedLate := by decide +kernel
  obtain ⟨hisolated, hview⟩ := isolated_of_run rfl hown
  exact ⟨_, _, rfl, rfl, hisolated, hview 0 welcomedLate _ rfl hlate rfl⟩

/-- Two coordinators are made and the first waits for its welcome. The welcome of the second
comes in. -/
def crossTalk : List (Action UInt64) :=
  [.initRaw 570, .coordinator 0 (.filter (.oneKind ⟨4004⟩)), .initRaw 730] ++
    arrival (clientWelcome 730) ++ handOver 0 4

/-- The first coordinator takes it for its own. -/
theorem not_isolated_crossTalk :
    ∃ s k, run (step .wire .wire fun _ => 0) ({} : Connection UInt64) crossTalk = some s ∧
      s.coordinators.map GameCoordinator.appId = [570, 730] ∧ s.coordinators[0]? = some k ∧
        (k.filter.arrived 0).length = 1 ∧ ¬ k.Isolated := by
  refine ⟨_, _, rfl, rfl, rfl, rfl, fun h => ?_⟩
  have happ := h.fed _ List.mem_cons_self 730 rfl
  cases happ

end Examples

end Connection

end SteamWire
