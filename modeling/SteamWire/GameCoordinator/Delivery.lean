import SteamWire.Connection.Shutdown
import SteamWire.Connection.Stream
import SteamWire.GameCoordinator.Forward

/-!
# What the filter of a coordinator is fed

The messages in the envelopes that come in at a connection are meant to reach the filter of a
coordinator in order, each once (`Delivers`). Between the two are the task of the connection's
filter, the forwarding task, and the task of the coordinator's filter. What the last has taken,
what is queued for it, what the forwarding task holds, what its receiver has not read and what
the first task has not broadcast are together what came in (`Delivering`).

The receiver keeps the last sixteen messages only, and the forwarding task skips the error
that tells of the others. So this holds as long as no broadcast finds the receiver full
(`KeepsUp`, `delivers_of_run`).
-/

namespace SteamWire

open Semantics

/-- What a coordinator message brings to the filter of a coordinator: what is in its envelope,
as it is read. -/
def payloadRead {SteamID : Type} [SteamIdOps SteamID] (codec : HeaderCodec) (gc : GcCodec)
    (message : RawNetMessage SteamID) : Option (Outcome NetworkError (RawNetMessage SteamID)) :=
  (message.intoMessage (clientFromGcMessage gc)).toOption.map fun data =>
    RawNetMessage.read codec (data.payload.getD [])

namespace Forwarder

variable {SteamID : Type}

/-- The message the forwarding task holds. -/
def pending : Forwarder SteamID → List (GcMessage SteamID)
  | .sending message => [message]
  | .awaiting | .stopped => []

@[simp] theorem pending_awaiting : (awaiting : Forwarder SteamID).pending = [] := rfl

@[simp] theorem pending_sending (message : GcMessage SteamID) :
    (sending message).pending = [message] := rfl

end Forwarder

namespace MessageFilter

variable {SteamID : Type} {f g : MessageFilter SteamID} {b : Action SteamID} {c : ChanId}
  {item : Item SteamID}

/-- No lookup for a job or for a one-shot waiter finds a receiver for a coordinator message. -/
def Undiverted (f : MessageFilter SteamID) : Prop :=
  match f.task with
  | .jobLookup item => item.kind = fromGcKind → f.jobIdFilters item.target = none
  | .multiLookup item => item.kind = fromGcKind → f.jobIdMultiFilters item.target = none
  | .kindOnceLookup item => item.kind = fromGcKind → f.oneshotKindFilters item.kind = none
  | _ => True

instance (f : MessageFilter SteamID) : Decidable f.Undiverted := by
  unfold Undiverted
  exact match f.task with
  | .jobLookup item =>
    inferInstanceAs (Decidable (item.kind = fromGcKind → f.jobIdFilters item.target = none))
  | .multiLookup item =>
    inferInstanceAs (Decidable (item.kind = fromGcKind → f.jobIdMultiFilters item.target = none))
  | .kindOnceLookup item =>
    inferInstanceAs (Decidable (item.kind = fromGcKind → f.oneshotKindFilters item.kind = none))
  | .awaiting | .jobSend .. | .multiSend .. | .kindOnceSend .. | .notificationLookup _
  | .kindLookup _ | .restPush _ | .stopped => inferInstanceAs (Decidable True)

theorem onItsWay_of_toBroadcast (h : f.toBroadcast = some item) : f.onItsWay = [item.message] := by
  obtain ⟨htask, hkind⟩ := toBroadcast_eq_some.mp h
  rw [onItsWay, htask]
  exact if_pos hkind

theorem Action.fromGc_eq_nil (hb : ∀ message, b ≠ .next (some (.ok message))) :
    b.fromGc = [] := by
  unfold fromGc
  split
  · exact absurd rfl (hb _)
  · rfl

/-- Outside of the steps of the task a coordinator message gets on its way as it comes in. -/
theorem StepsTo.onItsWay_eq (h : f.StepsTo b g) (hb : b ≠ .dispatch) :
    g.onItsWay = f.onItsWay ++ b.fromGc := by
  rcases h.task_cases hb with ⟨htask, hnone⟩ | ⟨hawaits, ⟨message, rfl, htask⟩ | ⟨htask, hnone⟩⟩
  · rw [onItsWay, htask, onItsWay, Action.fromGc_eq_nil hnone, List.append_nil]
  · rw [onItsWay, htask, onItsWay, hawaits]
    rfl
  · rw [onItsWay, htask, onItsWay, hawaits, Action.fromGc_eq_nil hnone]
    rfl

/-- An undiverted coordinator message stays on its way until it is broadcast. -/
theorem Dispatches.onItsWay_eq (h : Dispatches f g) (hund : f.Undiverted)
    (hnone : f.toBroadcast = none) : g.onItsWay = f.onItsWay := by
  have hother : ∀ {item : Item SteamID}, f.task = .kindLookup item → item.kind ≠ fromGcKind := by
    intro item htask hkind
    cases hnone.symm.trans (toBroadcast_eq_some.mpr ⟨htask, hkind⟩)
  cases h with
  | jobHit htask hslot | multiHit htask hslot | kindOnceHit htask hslot =>
    -- the lookup found a receiver, so this is no coordinator message
    rw [Undiverted, htask] at hund
    rw [onItsWay, onItsWay, htask]
    refine (if_neg fun hkind => ?_).symm
    cases (hund hkind).symm.trans hslot
  | toNotification htask hslot hkind =>
    rw [onItsWay, onItsWay, htask]
    -- service method notifications are of another kind
    refine (if_neg fun hgc => ?_).symm
    cases hgc.symm.trans hkind
  | kindSend htask hslot =>
    rw [onItsWay, deliver_task, onItsWay, htask]
    exact (if_neg (hother htask)).symm
  | kindMiss htask hslot =>
    rw [onItsWay, onItsWay, htask]
    exact (if_neg (hother htask)).symm
  | jobMiss htask | multiMiss htask | toKind htask => rw [onItsWay, onItsWay, htask]
  | jobSend htask | multiSend htask | kindOnceSend htask | notificationSend htask =>
    rw [onItsWay, deliver_task, onItsWay, htask]
  | notificationIgnored htask | restPush htask =>
    rw [onItsWay, onItsWay, htask]
    rfl

/-- A receiver that has not fallen behind goes on from where it is. -/
theorem exists_recv_of_subscription {kind : MsgKind} (ho : f.origins c = some (.kind kind))
    (hfits : (f.channels c).inbox.length ≤ (f.channels c).taken + channelCapacity)
    (h : f.recv c = some (item, g)) :
    ∃ channel, (f.channels c).recv = some (item, channel) ∧ g = f.setChannel c channel := by
  obtain ⟨⟨x, channel⟩, hread, heq⟩ := Option.map_eq_some_iff.mp h
  cases heq
  simp only [ho, Channel.recvLast] at hread
  have htaken : max (f.channels c).taken ((f.channels c).inbox.length - channelCapacity) =
      (f.channels c).taken := max_eq_left (Nat.sub_le_of_le_add hfits)
  rw [htaken] at hread
  exact ⟨channel, hread, rfl⟩

end MessageFilter

namespace GameCoordinator

variable {SteamID : Type} [SteamIdOps SteamID] (codec : HeaderCodec) (gc : GcCodec)

section Definitions

variable (f : MessageFilter SteamID) (k : GameCoordinator SteamID)

omit [SteamIdOps SteamID] in
/-- The forwarding task is done with everything that came in. -/
structure CaughtUp : Prop where
  awaits : k.forwarder = .awaiting
  unread : (f.channels k.gcMessages).unread = []
  onItsWay : f.onItsWay = []

/-- The filter of a coordinator is fed what came in for it, in order, each once. -/
structure Delivers : Prop where
  ordered : k.fed.map GcMessage.outcome <+: k.received.filterMap (payloadRead codec gc)
  complete (h : k.CaughtUp f) :
    (k.fed ++ k.queue).map GcMessage.outcome = k.received.filterMap (payloadRead codec gc)

/-- Everything that came in is fed, or on its way in order. -/
structure Delivering : Prop where
  forwards : k.forwarder ≠ .stopped
  runs : k.filter.task ≠ .stopped
  received : k.received = f.arrived k.gcMessages ++ f.onItsWay
  taken : (f.channels k.gcMessages).taken ≤ (f.channels k.gcMessages).inbox.length
  fits : (f.channels k.gcMessages).inbox.length ≤
    (f.channels k.gcMessages).taken + MessageFilter.channelCapacity
  harmless : ∀ message ∈ f.arrived k.gcMessages, ∀ r ∈ payloadRead codec gc message, ¬ EndsTask r
  ordered : (k.fed ++ k.queue ++ k.forwarder.pending).map GcMessage.outcome =
    (f.read k.gcMessages).filterMap (payloadRead codec gc)

end Definitions

variable {codec gc} {shard : JobId → Nat} {f g : MessageFilter SteamID}
  {k k' : GameCoordinator SteamID} {a : Action SteamID} {message : RawNetMessage SteamID}

/-! ### The forwarding task -/

/-- The forwarding task holds what it read. -/
theorem Opens.pending_eq {forwarder : Forwarder SteamID} (h : Opens codec gc message forwarder)
    (hruns : forwarder ≠ .stopped) :
    forwarder.pending.map GcMessage.outcome = (payloadRead codec gc message).toList := by
  rw [payloadRead]
  cases h with
  | skip hmessage =>
    rw [hmessage]
    rfl
  | send hmessage hread =>
    rw [hmessage]
    simp only [Except.toOption, Option.map_some, hread]
    rfl
  | panic => exact absurd rfl hruns

/-- The forwarding task ends only when reading a payload panics. -/
theorem Opens.payloadRead_eq (h : Opens codec gc message .stopped) :
    payloadRead codec gc message = some .panic := by
  rw [payloadRead]
  cases h with
  | panic hmessage hread =>
    rw [hmessage]
    exact congrArg some hread

/-! ### Every step keeps the order -/

section Steps

theorem Delivering.delivers (hk : k.Delivering codec gc f) : k.Delivers codec gc f where
  ordered := by
    have hprefix : k.fed.map GcMessage.outcome <+:
        (k.fed ++ k.queue ++ k.forwarder.pending).map GcMessage.outcome :=
      ((List.prefix_append _ _).trans (List.prefix_append _ _)).map _
    rw [hk.ordered] at hprefix
    have hread : (f.read k.gcMessages).filterMap (payloadRead codec gc) <+:
        k.received.filterMap (payloadRead codec gc) := by
      rw [hk.received]
      exact ((f.read_prefix _).trans (List.prefix_append _ _)).filterMap _
    exact hprefix.trans hread
  complete h := by
    have hall : f.read k.gcMessages = f.arrived k.gcMessages := by
      have hlen := List.drop_eq_nil_iff.mp h.unread
      rw [MessageFilter.read, List.take_of_length_le hlen, MessageFilter.arrived]
    have hordered := hk.ordered
    rw [h.awaits, Forwarder.pending_awaiting, List.append_nil, hall] at hordered
    rw [hk.received, h.onItsWay, List.append_nil, hordered]

/-- What the filter of a coordinator is fed does not end its task. -/
theorem Delivering.not_endsTask (hk : k.Delivering codec gc f) {m : GcMessage SteamID}
    (hm : m ∈ k.fed ++ k.queue ++ k.forwarder.pending) : ¬ EndsTask m.outcome := by
  have hmem : m.outcome ∈ (f.read k.gcMessages).filterMap (payloadRead codec gc) :=
    hk.ordered ▸ List.mem_map_of_mem hm
  obtain ⟨message, hmessage, hread⟩ := List.mem_filterMap.mp hmem
  exact hk.harmless message ((f.read_prefix _).subset hmessage) _ hread

/-- A step of the forwarding task or of the filter's task keeps the order. -/
theorem Delivering.of_stepsTo (hk : k.Delivering codec gc f) (hsub : k.Subscribed f)
    (h : StepsTo codec gc shard f k a k' g) : k'.Delivering codec gc g := by
  cases h with
  | @forward item g hawaits hrecv hopen =>
    -- nothing is lost, as the receiver has not fallen behind
    obtain ⟨channel, hnext, rfl⟩ :=
      MessageFilter.exists_recv_of_subscription hsub.origin hk.fits hrecv
    obtain ⟨hread, harrived, htaken⟩ := MessageFilter.read_of_channel_recv hnext
    obtain ⟨-, rfl⟩ := Channel.of_recv_eq_some hnext
    refine ⟨hopen, hk.runs, ?_, ?_, ?_, ?_, ?_⟩
    · rw [harrived]
      exact hk.received
    · rw [MessageFilter.setChannel_self]
      exact htaken
    · rw [MessageFilter.setChannel_self]
      exact hk.fits.trans (by dsimp only; omega)
    · rw [harrived]
      exact hk.harmless
    · have hordered := hk.ordered
      rw [hawaits, Forwarder.pending_awaiting, List.append_nil] at hordered
      rw [List.map_append, (opens_openEnvelope codec gc item.message).pending_eq hopen, hread,
        List.filterMap_append, ← hordered, List.filterMap_cons]
      cases payloadRead codec gc item.message <;> rfl
  | @panic item g hawaits hrecv hopen =>
    have hread := (hopen ▸ opens_openEnvelope codec gc item.message).payloadRead_eq
    obtain ⟨-, -, hitem⟩ := MessageFilter.arrived_of_recv hrecv
    exact absurd trivial (hk.harmless item.message hitem .panic hread)
  | @send message hsends hruns =>
    -- the message moves from the hand of the task to the end of the queue
    refine ⟨nofun, hk.runs, hk.received, hk.taken, hk.fits, hk.harmless, ?_⟩
    have hordered := hk.ordered
    rw [hsends] at hordered
    rw [← hordered]
    simp
  | discard hsends hstopped => exact absurd hstopped hk.runs
  | @pull message queue filter hqueue h =>
    refine ⟨hk.forwards, fun hstopped => ?_, hk.received, hk.taken, hk.fits, hk.harmless, ?_⟩
    · -- only a result that ends the task stops it, and no such result is in the queue
      obtain ⟨hends, -⟩ := (MessageFilter.stepsTo_of_step h).eq_of_stopped hstopped hk.runs
      refine hk.not_endsTask ?_ (hends _ rfl)
      rw [hqueue]
      simp
    · have hordered := hk.ordered
      rw [hqueue] at hordered
      rw [← hordered]
      simp
  | close hqueue hstopped h => exact absurd hstopped hk.forwards
  | @filter b filter hb h =>
    refine ⟨hk.forwards, fun hstopped => ?_, hk.received, hk.taken, hk.fits, hk.harmless,
      hk.ordered⟩
    obtain ⟨hends, -⟩ := (MessageFilter.stepsTo_of_step h).eq_of_stopped hstopped hk.runs
    cases b with
    | next res => exact hb res rfl
    | _ => exact hends

/-- What comes in without a broadcast is on its way. -/
theorem Delivering.of_channel_eq (hk : k.Delivering codec gc f)
    (hchannel : g.channels k.gcMessages = f.channels k.gcMessages)
    {came : List (RawNetMessage SteamID)} (hway : g.onItsWay = f.onItsWay ++ came) :
    { k with received := k.received ++ came }.Delivering codec gc g where
  forwards := hk.forwards
  runs := hk.runs
  received := by
    rw [hk.received, hway, MessageFilter.arrived_congr hchannel, List.append_assoc]
  taken := by rw [hchannel]; exact hk.taken
  fits := by rw [hchannel]; exact hk.fits
  harmless := by rw [MessageFilter.arrived_congr hchannel]; exact hk.harmless
  ordered := by rw [MessageFilter.read_congr hchannel]; exact hk.ordered

/-- A broadcast hands a message over to a receiver that has room. -/
theorem Delivering.of_broadcast (hk : k.Delivering codec gc f) {item : Item SteamID}
    (hb : f.toBroadcast = some item) (hg : g.task = .awaiting)
    (hchannel : g.channels k.gcMessages = (f.channels k.gcMessages).push item)
    (hroom : ¬ (f.channels k.gcMessages).IsFull MessageFilter.channelCapacity)
    (hharmless : ∀ r ∈ payloadRead codec gc item.message, ¬ EndsTask r) :
    k.Delivering codec gc g := by
  have harrived := MessageFilter.arrived_of_push hchannel
  refine ⟨hk.forwards, hk.runs, ?_, ?_, ?_, fun message hmessage => ?_, ?_⟩
  · rw [hk.received, MessageFilter.onItsWay_of_toBroadcast hb, harrived, MessageFilter.onItsWay, hg,
      List.append_nil]
  · rw [hchannel, Channel.push_inbox, List.length_append]
    exact Nat.le_add_right_of_le hk.taken
  · -- there were less than sixteen unread, so there are sixteen at most now
    have hlt : (f.channels k.gcMessages).inbox.length - (f.channels k.gcMessages).taken <
        MessageFilter.channelCapacity := by
      rw [← List.length_drop]
      exact Nat.lt_of_not_le hroom
    rw [hchannel, Channel.push_inbox, List.length_append, List.length_singleton, Channel.push_taken]
    omega
  · rw [harrived] at hmessage
    rcases List.mem_append.mp hmessage with hold | hnew
    · exact hk.harmless message hold
    · rwa [List.mem_singleton.mp hnew]
  · have hread : g.read k.gcMessages = f.read k.gcMessages := by
      rw [MessageFilter.read, MessageFilter.read, hchannel]
      exact congrArg _ (List.take_append_of_le_length hk.taken)
    rw [hread]
    exact hk.ordered

/-- A step of the connection's filter keeps the order, when what it broadcasts finds room. -/
theorem Delivering.of_filter_step (hk : k.Delivering codec gc f) (hsub : k.Subscribed f)
    (hown : f.Owned) {b : MessageFilter.Action SteamID} (h : f.step shard b = some g)
    (hne : b ≠ .recv k.gcMessages ∧ b ≠ .dropReceiver k.gcMessages)
    (hund : b = .dispatch → f.Undiverted)
    (hroom : b = .dispatch → ∀ item ∈ f.toBroadcast,
      ¬ (f.channels k.gcMessages).IsFull MessageFilter.channelCapacity ∧
        ∀ r ∈ payloadRead codec gc item.message, ¬ EndsTask r) :
    { k with received := k.received ++ b.fromGc }.Delivering codec gc g := by
  have hsteps := MessageFilter.stepsTo_of_step h
  have hchannel := hsteps.channel_of_subscription hown hsub.origin hne.1 hne.2
  by_cases hb : b = .dispatch
  · subst hb
    have hdispatch := MessageFilter.dispatches_of_eq_some h
    rcases Option.eq_none_or_eq_some f.toBroadcast with hnone | ⟨item, hitem⟩
    · have hway := hdispatch.onItsWay_eq (hund rfl) hnone
      refine hk.of_channel_eq ?_ (hway.trans (List.append_nil _).symm)
      refine hchannel.resolve_right fun ⟨_, item, hitem, _⟩ => ?_
      cases hnone.symm.trans hitem
    · obtain ⟨htask, hpush⟩ := hdispatch.channel_of_toBroadcast hitem hsub.stored
      rw [if_pos (hsub.alive.mpr hk.forwards)] at hpush
      obtain ⟨hspace, hharmless⟩ := hroom rfl item hitem
      have hnil : k.received ++ (.dispatch : MessageFilter.Action SteamID).fromGc = k.received :=
        List.append_nil _
      rw [hnil]
      exact hk.of_broadcast hitem htask hpush hspace hharmless
  · exact hk.of_channel_eq (hchannel.resolve_right fun hpush => hb hpush.1) (hsteps.onItsWay_eq hb)

end Steps

end GameCoordinator

namespace Connection

variable {SteamID : Type}

/-! ### Runs -/

/-- A coordinator message is not taken for a job or a one-shot waiter. -/
def Undiverted (s : Connection SteamID) : Action SteamID → Prop
  | .filter .dispatch => s.filter.Undiverted
  | _ => True

instance (s : Connection SteamID) (a : Action SteamID) : Decidable (s.Undiverted a) := by
  unfold Undiverted
  split <;> infer_instance

variable [SteamIdOps SteamID]

/-- The forwarding task of coordinator `i` keeps up with the connection: a coordinator message
that is broadcast finds less than sixteen unread, and its payload ends no task when it is
read. -/
def KeepsUp (codec : HeaderCodec) (gc : GcCodec) (i : Nat) (s : Connection SteamID) :
    Action SteamID → Prop
  | .filter .dispatch => ∀ item ∈ s.filter.toBroadcast,
      ∀ k ∈ s.coordinators[i]?,
        ¬ (s.filter.channels k.gcMessages).IsFull MessageFilter.channelCapacity ∧
          ∀ r ∈ payloadRead codec gc item.message, ¬ EndsTask r
  | _ => True

instance (codec : HeaderCodec) (gc : GcCodec) (i : Nat) (s : Connection SteamID)
    (a : Action SteamID) : Decidable (s.KeepsUp codec gc i a) := by
  unfold KeepsUp
  split <;> infer_instance

variable {codec : HeaderCodec} {gc : GcCodec} {shard : JobId → Nat} {s t : Connection SteamID}
  {a : Action SteamID} {i : Nat} {k : GameCoordinator SteamID}

/-- Coordinator `i`, if there is one, gets everything in order. -/
structure Tracks (codec : HeaderCodec) (gc : GcCodec) (i : Nat) (s : Connection SteamID) :
    Prop where
  sound : s.Sound
  delivering : ∀ k, s.coordinators[i]? = some k → k.Delivering codec gc s.filter

theorem tracks_init : ({} : Connection SteamID).Tracks codec gc i where
  sound := sound_init
  delivering _ hk := nomatch hk

/-- Every step with which the forwarding task keeps up keeps the order. -/
theorem Tracks.of_step (hs : s.Tracks codec gc i) (hund : s.Undiverted a)
    (hkeeps : s.KeepsUp codec gc i a) (h : s.step codec gc shard a = some t) :
    t.Tracks codec gc i := by
  have hsteps := stepsTo_of_step h
  refine ⟨hs.sound.of_steps hsteps, fun k hk => ?_⟩
  cases hsteps.stepsAt hs.sound hk with
  | initRaw hi hfilter =>
    have hnew := MessageFilter.channels_of_eq_onKind hfilter
    refine ⟨by simp, by simp, ?_, ?_, ?_, ?_, ?_⟩
    · rw [MessageFilter.arrived, hnew, hfilter]
      rfl
    · rw [hnew]
      exact Nat.le_refl 0
    · rw [hnew]
      exact Nat.zero_le _
    · rw [MessageFilter.arrived, hnew]
      exact fun item hitem => absurd hitem List.not_mem_nil
    · rw [MessageFilter.read, hnew]
      rfl
  | acts hi hacts =>
    exact (hs.delivering _ hi).of_stepsTo (hs.sound.subscribed _ (List.mem_of_getElem? hi))
      (GameCoordinator.stepsTo_of_step hacts)
  | @filter l b hi hpermits hstep =>
    have hmem := List.mem_of_getElem? hi
    refine (hs.delivering l hi).of_filter_step (hs.sound.subscribed l hmem) hs.sound.owned hstep
      (hpermits.ne hmem) ?_ ?_
    · rintro rfl
      exact hund
    · rintro rfl item hitem
      exact hkeeps item hitem l hi
  | other hi hfilter hacts htask hchannel =>
    have hway : t.filter.onItsWay = s.filter.onItsWay ++ [] := by
      rw [List.append_nil, MessageFilter.onItsWay, htask, MessageFilter.onItsWay]
    have hk := (hs.delivering k hi).of_channel_eq hchannel hway
    rwa [List.append_nil] at hk

/-- In every run in which no coordinator message is diverted and the forwarding task of a
coordinator keeps up, its filter is fed what came in for it, in order, each once. -/
theorem delivers_of_run {w : List (Action SteamID)} (hrun : run (step codec gc shard) {} w = some s)
    (hund : AllSteps (step codec gc shard) Undiverted {} w)
    (hkeeps : AllSteps (step codec gc shard) (KeepsUp codec gc i) {} w)
    (hk : s.coordinators[i]? = some k) : k.Delivers codec gc s.filter := by
  have hall : AllStates (step codec gc shard) (Tracks codec gc i) {} w :=
    (AllSteps.and.mpr ⟨hund, hkeeps⟩).allStates (fun _ h => h)
      (fun _ _ _ hs hguard h => hs.of_step hguard.1 hguard.2 h) tracks_init
  exact ((hall.last hrun).delivering k hk).delivers

/-! ### Two runs -/

section Examples

/-- A message in an envelope, as it comes in. -/
def gcMessage (data : CMsgGcClient) : RawNetMessage UInt64 :=
  { MessageFilter.logOnResponse with kind := fromGcKind, data := GcCodec.wire.encode data }

/-- The welcome of a coordinator, of kind 4004. -/
def clientWelcome (appId : UInt32) : RawNetMessage UInt64 :=
  gcMessage
    { appid := appId, msgtype := some 4004, payload := some [0xa4, 0x0f, 0, 0x80, 0, 0, 0, 0] }

/-- The status message of a coordinator, of kind 4009. -/
def connectionStatus (appId : UInt32) : RawNetMessage UInt64 :=
  gcMessage
    { appid := appId, msgtype := some 4009, payload := some [0xa9, 0x0f, 0, 0x80, 0, 0, 0, 0] }

/-- A message comes in and is broadcast. -/
def arrival (message : RawNetMessage UInt64) : List (Action UInt64) :=
  .filter (.next (some (.ok message))) :: List.replicate 4 (.filter .dispatch)

/-- A message is handed on, and dispatched in some steps. -/
def handOver (i steps : Nat) : List (Action UInt64) :=
  [.coordinator i .forward, .coordinator i .send, .coordinator i .pull] ++
    List.replicate steps (.coordinator i (.filter .dispatch))

/-- A coordinator is made, its welcome comes in and ends up in the unprocessed buffer. -/
def welcomed : List (Action UInt64) :=
  .initRaw 570 :: arrival (clientWelcome 570) ++ handOver 0 5

theorem delivers_of_run_welcomed :
    ∃ s k, run (step .wire .wire fun _ => 0) ({} : Connection UInt64) welcomed = some s ∧
      s.coordinators[0]? = some k ∧ k.fed.length = 1 ∧ k.Delivers .wire .wire s.filter := by
  have hund : AllSteps (step .wire .wire fun _ => 0) Undiverted ({} : Connection UInt64)
      welcomed := by decide +kernel
  have hkeeps : AllSteps (step .wire .wire fun _ => 0) (KeepsUp .wire .wire 0)
      ({} : Connection UInt64) welcomed := by decide +kernel
  exact ⟨_, _, rfl, rfl, rfl, delivers_of_run rfl hund hkeeps rfl⟩

/-- Seventeen messages come in, the welcome first, before the forwarding task runs. -/
def burst : List (Action UInt64) :=
  .initRaw 570 :: arrival (clientWelcome 570) ++
    (List.replicate 16 (arrival (connectionStatus 570))).flatten ++
    (List.replicate 16 (handOver 0 5)).flatten

set_option maxRecDepth 4000 in
/-- The welcome is lost. -/
theorem not_delivers_burst :
    ∃ s k, run (step .wire .wire fun _ => 0) ({} : Connection UInt64) burst = some s ∧
      AllSteps (step .wire .wire fun _ => 0) Undiverted ({} : Connection UInt64) burst ∧
        s.coordinators[0]? = some k ∧ k.CaughtUp s.filter ∧ k.received.length = 17 ∧
          (∀ m ∈ k.fed, m.envelope.msgtype = some 4009) ∧ ¬ k.Delivers .wire .wire s.filter := by
  refine ⟨_, _, rfl, by decide +kernel, rfl, ⟨rfl, rfl, rfl⟩, rfl, by decide +kernel, fun h => ?_⟩
  have hlen := congrArg List.length (h.complete ⟨rfl, rfl, rfl⟩)
  exact absurd hlen (by decide +kernel)

end Examples

end Connection

end SteamWire
