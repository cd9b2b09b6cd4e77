import SteamWire.Connection.Progress
import SteamWire.Semantics.Stream

/-!
# The streams of multi jobs

A multi job gives out the responses that come in for it, one after another, up to one that
completes it or that it cannot read. The task routes every message for its job into its
channel while its registration stands (`Routes`), and its phase tells what it has read
(`Streaming`). Together with what is known of the ends of progress this says what becomes of
its stream in every run (`streamsTo_of_run`). Two things can go wrong. The registration of
an earlier session under the same id takes a message away, and in a deadlock the stream
never ends (`not_streamsTo_crowdedThread`).
-/

namespace SteamWire

open Semantics

namespace MessageFilter

variable {SteamID : Type} {f g : MessageFilter SteamID} {b : Action SteamID} {c : ChanId}
  {id : JobId}

/-- The message the task is busy with, if it is addressed to the job. -/
def inFlight (f : MessageFilter SteamID) (id : JobId) : List (RawNetMessage SteamID) :=
  match f.task.item with
  | some item => if item.target = id then [item.message] else []
  | none => []

/-- The message for the job that comes in with a step. -/
def Action.arrivals (id : JobId) : Action SteamID → List (RawNetMessage SteamID)
  | .next (some (.ok message)) => if message.header.targetJobId = id then [message] else []
  | _ => []

/-- The messages that were sent to a receiver. -/
def arrived (f : MessageFilter SteamID) (c : ChanId) : List (RawNetMessage SteamID) :=
  (f.channels c).inbox.map Item.message

/-- The messages a receiver has read. -/
def read (f : MessageFilter SteamID) (c : ChanId) : List (RawNetMessage SteamID) :=
  ((f.channels c).inbox.take (f.channels c).taken).map Item.message

theorem read_prefix (f : MessageFilter SteamID) (c : ChanId) : f.read c <+: f.arrived c :=
  (List.take_prefix _ _).map _

theorem arrived_congr (h : g.channels c = f.channels c) : g.arrived c = f.arrived c := by
  rw [arrived, arrived, h]

theorem read_congr (h : g.channels c = f.channels c) : g.read c = f.read c := by
  rw [read, read, h]

theorem arrived_of_push {item : Item SteamID} (h : g.channels c = (f.channels c).push item) :
    g.arrived c = f.arrived c ++ [item.message] := by
  rw [arrived, h, Channel.push_inbox, List.map_append]
  rfl

/-! ### The way of a message -/

section Routes

/-- The messages for a multi job are on their way to its receiver. -/
structure Routes (f : MessageFilter SteamID) (id : JobId) (c : ChanId) : Prop where
  single : f.jobIdFilters id = none
  stored : f.jobIdMultiFilters id = some c
  alive : (f.channels c).alive = true
  path : ∀ item, f.task.item = some item → item.target = id →
    f.task = .jobLookup item ∨ f.task = .multiLookup item ∨ f.task = .multiSend item c

/-- Steps that are foreign to a job do not make an entry for a single response to it. -/
theorem StepsTo.jobIdFilters_eq_none (h : f.StepsTo b g) (hforeign : b.IsForeign id)
    (hf : f.jobIdFilters id = none) : g.jobIdFilters id = none := by
  refine Option.eq_none_iff_forall_ne_some.mpr fun d hd => ?_
  have hstored : g.Stored (.jobId id) d := hd
  rcases h.stored_of hstored with hold | ⟨hnew, -⟩
  · cases hf.symm.trans hold
  · exact (hforeign.ne_of_origin hnew).1 rfl

/-- With its next step the task goes on with a message for the job, or sends it. -/
theorem Routes.of_dispatches_busy (hf : Routes f id c) (h : Dispatches f g) {item : Item SteamID}
    (hitem : f.task.item = some item) (htarget : item.target = id) :
    g.task = .multiLookup item ∧ g.channels = f.channels ∨
      g.task = .multiSend item c ∧ g.channels = f.channels ∨
        g.task = .awaiting ∧ g.channels c = (f.channels c).push item := by
  have hother : ∀ {task : FilterTask SteamID}, f.task = task → task.item = some item →
      task = .jobLookup item ∨ task = .multiLookup item ∨ task = .multiSend item c := by
    intro task htask hsame
    exact htask ▸ hf.path item (htask ▸ hsame) htarget
  cases h with
  | jobHit htask hslot =>
    rw [htask] at hitem
    cases hitem
    rw [htarget, hf.single] at hslot
    cases hslot
  | jobMiss htask =>
    rw [htask] at hitem
    cases hitem
    exact .inl ⟨rfl, rfl⟩
  | multiHit htask hslot =>
    -- what is stored for the job is its own sending end
    rw [htask] at hitem
    cases hitem
    rw [htarget, hf.stored] at hslot
    cases hslot
    exact .inr (.inl ⟨rfl, rfl⟩)
  | multiMiss htask hslot =>
    rw [htask] at hitem
    cases hitem
    rw [htarget, hf.stored] at hslot
    cases hslot
  | multiSend htask =>
    rw [htask] at hitem
    cases hitem
    rcases hother htask rfl with h | h | h <;> cases h
    refine .inr (.inr ⟨deliver_task .., ?_⟩)
    rw [deliver_channels, if_pos ⟨List.mem_singleton_self _, hf.alive⟩]
  | jobSend htask | kindOnceHit htask | toNotification htask | toKind htask | kindOnceSend htask
  | notificationSend htask | notificationIgnored htask | kindSend htask | kindMiss htask
  | restPush htask =>
    rw [htask] at hitem
    rcases hother htask hitem with h | h | h <;> cases h

theorem Action.arrivals_eq_nil (hb : ∀ message, b ≠ .next (some (.ok message))) :
    b.arrivals id = [] := by
  unfold arrivals
  split
  · exact absurd rfl (hb _)
  · rfl

/-- Outside of its steps the task gets a new message or goes on with its own. -/
theorem StepsTo.inFlight_eq (h : f.StepsTo b g) (hb : b ≠ .dispatch) :
    g.inFlight id = f.inFlight id ++ b.arrivals id ∧
      ∀ item, g.task.item = some item → g.task = f.task ∨ g.task = .jobLookup item := by
  rcases h.task_cases hb with ⟨htask, hnone⟩ | ⟨hawaits, ⟨message, rfl, htask⟩ | ⟨htask, hnone⟩⟩
  · refine ⟨?_, fun item _ => .inl htask⟩
    rw [inFlight, inFlight, htask, Action.arrivals_eq_nil hnone, List.append_nil]
  · refine ⟨?_, fun item hitem => ?_⟩
    · rw [inFlight, inFlight, htask, hawaits]
      rfl
    · rw [htask] at hitem ⊢
      cases hitem
      exact .inr rfl
  · refine ⟨?_, fun item hitem => ?_⟩
    · rw [inFlight, inFlight, htask, hawaits, Action.arrivals_eq_nil hnone]
      rfl
    · rw [htask] at hitem
      cases hitem

/-- The task holds the sending end of a multi job for a message addressed to it. -/
theorem target_of_held_multi {task : FilterTask SteamID} (h : task.held = some (.jobIdMulti id, c)) :
    ∃ item, task = .multiSend item c ∧ item.target = id := by
  cases task with
  | multiSend item tx =>
    cases h
    exact ⟨item, rfl, rfl⟩
  | _ => cases h

/-- Busy with another message, the task leaves the receiver alone. -/
theorem Routes.of_dispatches_idle (hf : Routes f id c) (hown : f.Owned) (h : Dispatches f g)
    (hidle : ∀ item, f.task.item = some item → item.target ≠ id) :
    (∀ item, g.task.item = some item → item.target ≠ id) ∧
      (g.channels c).inbox = (f.channels c).inbox := by
  constructor
  · intro item hitem
    rcases h.fates_cases with ⟨-, hsame⟩ | ⟨_, _, -, -, htask, -⟩
    · exact hidle item (hsame ▸ hitem)
    · rw [htask] at hitem
      cases hitem
  · have horigin : f.origins c = some (.jobIdMulti id) := hown.stored hf.stored
    rcases hown.inbox_of_dispatches h horigin not_false with hsame | ⟨_, hsend, -, -⟩
    · rw [hsame]
    · obtain ⟨item, htask, htarget⟩ := target_of_held_multi hsend.held
      exact absurd htarget (hidle item (by rw [htask]; rfl))

theorem inFlight_of_idle (h : ∀ item, f.task.item = some item → item.target ≠ id) :
    f.inFlight id = [] := by
  unfold inFlight
  split
  · rename_i item hitem
    rw [if_neg (h item hitem)]
  · rfl

theorem inFlight_of_busy {item : Item SteamID} (hitem : f.task.item = some item)
    (htarget : item.target = id) : f.inFlight id = [item.message] := by
  simp [inFlight, hitem, htarget]

/-- Steps that are foreign to the job keep its messages on their way: what arrives comes from
what was in flight. -/
theorem Routes.of_steps (hf : Routes f id c) (hown : f.Owned) (h : f.StepsTo b g)
    (hforeign : b.IsForeign id) (hdrop : b ≠ .dropReceiver c) :
    Routes g id c ∧ g.arrived c ++ g.inFlight id = f.arrived c ++ f.inFlight id ++ b.arrivals id := by
  have hsingle := h.jobIdFilters_eq_none hforeign hf.single
  have hstored := (h.jobIdMulti_eq hforeign).trans hf.stored
  have halive := Client.alive_of_steps h hdrop hf.alive
  by_cases hb : b = .dispatch
  case neg =>
    obtain ⟨hflight, htask⟩ := @StepsTo.inFlight_eq SteamID f g b id h hb
    have horigin : f.origins c = some (.jobIdMulti id) := hown.stored hf.stored
    have hinbox := h.inbox_eq hb (.inl (hown.ne_nextChan horigin))
    refine ⟨⟨hsingle, hstored, halive, fun item hitem htarget => ?_⟩, ?_⟩
    · rcases htask item hitem with hsame | hlookup
      · rw [hsame] at hitem ⊢
        exact hf.path item hitem htarget
      · exact .inl hlookup
    · rw [arrived, arrived, hinbox, hflight, List.append_assoc]
  subst hb
  have hdispatch := h.dispatches
  have hnone : (Action.dispatch : Action SteamID).arrivals id = [] := rfl
  rw [hnone, List.append_nil]
  by_cases hbusy : ∃ item, f.task.item = some item ∧ item.target = id
  case neg =>
    have hidle : ∀ item, f.task.item = some item → item.target ≠ id :=
      fun item hitem htarget => hbusy ⟨item, hitem, htarget⟩
    obtain ⟨hidle', hinbox⟩ := hf.of_dispatches_idle hown hdispatch hidle
    refine ⟨⟨hsingle, hstored, halive, fun item hitem htarget => ?_⟩, ?_⟩
    · exact absurd htarget (hidle' item hitem)
    · rw [inFlight_of_idle hidle, inFlight_of_idle hidle', arrived, arrived, hinbox]
  obtain ⟨item, hitem, htarget⟩ := hbusy
  rw [inFlight_of_busy hitem htarget]
  rcases hf.of_dispatches_busy hdispatch hitem htarget with ⟨htask, hchannels⟩ |
    ⟨htask, hchannels⟩ | ⟨htask, hpush⟩
  · refine ⟨⟨hsingle, hstored, halive, fun other hother _ => ?_⟩, ?_⟩
    · rw [htask] at hother ⊢
      cases hother
      exact .inr (.inl rfl)
    · rw [inFlight_of_busy (by rw [htask]; rfl) htarget, arrived_congr (congrFun hchannels c)]
  · refine ⟨⟨hsingle, hstored, halive, fun other hother _ => ?_⟩, ?_⟩
    · rw [htask] at hother ⊢
      cases hother
      exact .inr (.inr rfl)
    · rw [inFlight_of_busy (by rw [htask]; rfl) htarget, arrived_congr (congrFun hchannels c)]
  · -- the message is in the inbox now
    have hidle : ∀ other, g.task.item = some other → other.target ≠ id := by
      intro other hother
      rw [htask] at hother
      cases hother
    refine ⟨⟨hsingle, hstored, halive, fun other hother h => absurd h (hidle other hother)⟩, ?_⟩
    rw [inFlight_of_idle hidle, arrived_of_push hpush, List.append_nil]

end Routes

/-! ### What a receiver has read -/

section Read

/-- Unless it reads, a receiver that exists gets messages and nothing else. -/
theorem StepsTo.exists_inbox_append (h : f.StepsTo b g) (hc : c ≠ f.nextChan)
    (hrecv : b ≠ .recv c) :
    (g.channels c).taken = (f.channels c).taken ∧
      ∃ items, (g.channels c).inbox = (f.channels c).inbox ++ items := by
  have hsame : g.channels c = f.channels c → (g.channels c).taken = (f.channels c).taken ∧
      ∃ items, (g.channels c).inbox = (f.channels c).inbox ++ items := by
    intro hchannel
    rw [hchannel]
    exact ⟨rfl, [], (List.append_nil _).symm⟩
  cases h with
  | register ho hreg =>
    apply hsame
    rw [hreg.channels, Function.update_of_ne hc]
  | @drop d =>
    by_cases hd : c = d
    · subst hd
      rw [dropReceiver_self]
      exact ⟨rfl, [], (List.append_nil _).symm⟩
    · exact hsame (dropReceiver_of_ne hd)
  | @recv d taken hinbox =>
    have hd : c ≠ d := by
      rintro rfl
      exact hrecv rfl
    exact hsame (setChannel_of_ne hd)
  | dispatch hdispatch =>
    cases hdispatch with
    | @jobSend item | @multiSend item | @kindOnceSend item | @notificationSend item
    | @kindSend item =>
      rw [deliver_channels]
      split_ifs
      · exact ⟨rfl, [item], rfl⟩
      · exact ⟨rfl, [], (List.append_nil _).symm⟩
    | _ => exact hsame rfl
  | _ => exact hsame rfl

/-- What a receiver has read changes only when it reads. -/
theorem StepsTo.read_eq (h : f.StepsTo b g) (hc : c ≠ f.nextChan) (hrecv : b ≠ .recv c)
    (htaken : (f.channels c).taken ≤ (f.channels c).inbox.length) :
    g.read c = f.read c ∧ (g.channels c).taken ≤ (g.channels c).inbox.length := by
  obtain ⟨hsame, items, hinbox⟩ := h.exists_inbox_append hc hrecv
  constructor
  · rw [read, read, hsame, hinbox, List.take_append_of_le_length htaken]
  · rw [hsame, hinbox, List.length_append]
    omega

/-- A receiver that goes on from where it is reads the next message. -/
theorem read_of_channel_recv {item : Item SteamID} {channel : Channel (Item SteamID)}
    (h : (f.channels c).recv = some (item, channel)) :
    (f.setChannel c channel).read c = f.read c ++ [item.message] ∧
      (f.setChannel c channel).arrived c = f.arrived c ∧
        channel.taken ≤ (f.channels c).inbox.length := by
  have hnext := Channel.getElem?_of_recv h
  obtain ⟨hlt, -⟩ := List.getElem?_eq_some_iff.mp hnext
  obtain ⟨-, rfl⟩ := Channel.of_recv_eq_some h
  simp only [read, arrived, setChannel_self, List.take_add_one] at hnext ⊢
  rw [hnext]
  exact ⟨by simp, trivial, hlt⟩

/-- Reading a receiver takes a message that has arrived. -/
theorem arrived_of_recv {item : Item SteamID} (h : f.recv c = some (item, g)) :
    (g.channels c).taken ≤ (g.channels c).inbox.length ∧ g.arrived c = f.arrived c ∧
      item.message ∈ f.arrived c := by
  obtain ⟨n, channel, -, -, hrecv, rfl⟩ := exists_recv_of_recv h
  obtain ⟨hlt, -⟩ := List.getElem?_eq_some_iff.mp (Channel.getElem?_of_recv hrecv)
  obtain ⟨hmem, rfl⟩ := Channel.of_recv_eq_some hrecv
  simp only [arrived, setChannel_self]
  exact ⟨hlt, trivial, List.mem_map_of_mem hmem⟩

/-- A receiver that subscribed to no broadcast reads its messages one by one. -/
theorem read_of_recv {item : Item SteamID} {o : Origin} (ho : f.origins c = some o)
    (hone : ¬ o.IsBroadcast) (h : f.recv c = some (item, g)) :
    g.read c = f.read c ++ [item.message] ∧ g.arrived c = f.arrived c ∧
      (g.channels c).taken ≤ (g.channels c).inbox.length := by
  obtain ⟨n, channel, -, hn, hrecv, rfl⟩ := exists_recv_of_recv h
  obtain rfl := hn fun o' ho' => by
    rw [Option.mem_def, ho] at ho'
    cases ho'
    exact hone
  obtain ⟨hread, harrived, -⟩ := read_of_channel_recv hrecv
  exact ⟨hread, harrived, (arrived_of_recv h).1⟩

end Read

end MessageFilter

/-- What the phase of a multi job whose wait was not cut short tells of the end of its
stream. -/
def Phase.Shows : Phase → Option (Option NetworkError) → Prop
  | .drawn, ending | .registered, ending | .waiting, ending | .yielding false, ending =>
    ending = none
  | .yielding true, ending | .completing, ending => ending = some none
  | .closing (.returned error), ending | .finished (.returned error), ending =>
    ending = some error
  | .closing .dropped, _ | .finished .dropped, _ => False

/-- The registration of a multi job in this phase stands, and its receiver exists. -/
def Phase.IsLive (phase : Phase) : Prop := phase.IsOpen ∧ ¬ phase.IsCompleted

namespace Client

variable {SteamID : Type} {shard : JobId → Nat} {s t : Client SteamID} {f g : MessageFilter SteamID}
  {a : Action SteamID} {i j : Nat} {call call' other : Call} {rs : List (RawNetMessage SteamID)}

/-- The messages a call has received. -/
def received (f : MessageFilter SteamID) (call : Call) : List (RawNetMessage SteamID) :=
  if call.phase = .drawn then [] else f.read call.chan

/-- The messages a multi job has given out: those it received and could read. -/
def yielded (f : MessageFilter SteamID) (call : Call) : List (RawNetMessage SteamID) :=
  (received f call).filter fun message => (call.respond message).isOk

/-! ### The stream of one multi job -/

section OneStream

/-- A multi job that has registered, after the messages `rs` came in for it. -/
structure Streaming (f : MessageFilter SteamID) (call : Call) (rs : List (RawNetMessage SteamID)) :
    Prop where
  taken : (f.channels call.chan).taken ≤ (f.channels call.chan).inbox.length
  shows : ∃ ending, call.phase.Shows ending ∧
    streamed call.respond (f.read call.chan) =
      ((f.read call.chan).filter fun message => (call.respond message).isOk, ending)
  arrived : f.arrived call.chan <+: rs
  routes : call.phase.IsLive →
    f.Routes call.id call.chan ∧ f.arrived call.chan ++ f.inFlight call.id = rs
  single : f.jobIdFilters call.id = none
  released : call.phase.IsCompleted → ∀ c, f.task.held ≠ some (call.origin, c)

/-- Steps of others. -/
theorem Streaming.of_steps {b : MessageFilter.Action SteamID} (hf : Streaming f call rs)
    (hinv : CallInv f call) (hkept : Kept f call) (hmulti : call.kind.isMulti = true)
    (hne : call.phase ≠ .drawn)
    (hgone : call.phase.IsFinished → (f.channels call.chan).alive = false) (hown : f.Owned)
    (h : f.StepsTo b g) (hforeign : b.IsForeign call.id) (hrecv : b ≠ .recv call.chan)
    (hdrop : b ≠ .dropReceiver call.chan) : Streaming g call (rs ++ b.arrivals call.id) := by
  have horigin := hinv.origin hne
  have hc := hown.ne_nextChan horigin
  obtain ⟨hread, htaken⟩ := h.read_eq hc hrecv hf.taken
  have hroutes : call.phase.IsLive → g.Routes call.id call.chan ∧
      g.arrived call.chan ++ g.inFlight call.id = rs ++ b.arrivals call.id := by
    intro hlive
    obtain ⟨hold, hrs⟩ := hf.routes hlive
    rw [← hrs]
    exact hold.of_steps hown h hforeign hdrop
  refine ⟨htaken, ?_, ?_, hroutes, h.jobIdFilters_eq_none hforeign hf.single,
    fun hcompleted c hheld => ?_⟩
  · rw [hread]
    exact hf.shows
  · by_cases hlive : call.phase.IsLive
    · exact (hroutes hlive).2 ▸ List.prefix_append _ _
    · -- nothing is sent to the receiver any more
      have hsame : g.arrived call.chan = f.arrived call.chan := by
        rcases hown.inbox_of_steps h horigin call.origin_not_isBroadcast with hsame |
          ⟨_, hsend, halive, -⟩
        · rw [MessageFilter.arrived, hsame, MessageFilter.arrived]
        · exfalso
          by_cases hopen : call.phase.IsOpen
          · have hcompleted : call.phase.IsCompleted :=
              Classical.byContradiction fun hnot => hlive ⟨hopen, hnot⟩
            exact hf.released hcompleted _ hsend.held
          · have hdone : call.phase.IsFinished := by
              cases hphase : call.phase with
              | finished => trivial
              | drawn => exact hne hphase
              | _ =>
                rw [hphase] at hopen
                exact hopen trivial
            rw [hgone hdone] at halive
            cases halive
      rw [hsame]
      exact hf.arrived.trans (List.prefix_append _ _)
  · rcases h.held_of hheld with ⟨hold, -⟩ | ⟨hstored, -⟩
    · exact hf.released hcompleted c hold
    · -- the registration was taken back
      obtain rfl := hinv.slot hne hstored
      exact (hkept hmulti hne).mp hstored hcompleted

/-- A multi job goes on without a step of the filter. -/
theorem Streaming.congr (hf : Streaming f call rs) {phase : Phase}
    (hshows : ∀ ending, call.phase.Shows ending → phase.Shows ending)
    (hlive : phase.IsLive → call.phase.IsLive)
    (hcompleted : phase.IsCompleted → call.phase.IsCompleted) (sent : Bool) :
    Streaming f { call with phase, sent } rs where
  taken := hf.taken
  shows := by
    obtain ⟨ending, hending, hstream⟩ := hf.shows
    exact ⟨ending, hshows ending hending, hstream⟩
  arrived := hf.arrived
  routes h := hf.routes (hlive h)
  single := hf.single
  released h := hf.released (hcompleted h)

/-- The response a multi job reads is the next in its stream. -/
theorem Streaming.of_receive (hf : Streaming f call rs) (hown : f.Owned) (hinv : CallInv f call)
    (hmulti : call.kind.isMulti = true) (hphase : call.phase = .waiting) {item : Item SteamID}
    (h : f.recv call.chan = some (item, g)) :
    Streaming g { call with phase := call.afterResponse (call.respond item.message) } rs := by
  have hne : call.phase ≠ .drawn := by simp [hphase]
  have horigin := hinv.origin hne
  obtain ⟨hread, harrived, htaken⟩ :=
    MessageFilter.read_of_recv horigin call.origin_not_isBroadcast h
  obtain ⟨hitem, taken, hle, rfl⟩ := MessageFilter.of_recv_eq_some h
  have hsteps : f.StepsTo (.recv call.chan)
      (f.setChannel call.chan { f.channels call.chan with taken := taken }) :=
    .recv (List.ne_nil_of_mem hitem) hle
  refine ⟨htaken, ?_, harrived ▸ hf.arrived, fun _ => ?_, hf.single, fun hcompleted => ?_⟩
  · -- the stream so far has not ended, and the message decides if it does now
    obtain ⟨ending, hending, hstream⟩ := hf.shows
    rw [hphase] at hending
    obtain rfl : ending = none := hending
    refine ⟨endingAfter (call.respond item.message), ?_,
      hread ▸ streamed_concat hstream item.message⟩
    cases hres : call.respond item.message with
    | error e => rfl
    | ok completed =>
      rw [Call.afterResponse, if_pos hmulti]
      cases completed <;> rfl
  · have hlive : call.phase.IsLive := by
      rw [hphase]
      exact ⟨trivial, not_false⟩
    obtain ⟨hold, hrs⟩ := hf.routes hlive
    obtain ⟨hnew, hsame⟩ := hold.of_steps hown hsteps trivial (by simp)
    exact ⟨hnew, by rw [← hrs]; simpa [MessageFilter.Action.arrivals] using hsame⟩
  · exact absurd hcompleted (Call.not_isCompleted_afterResponse hmulti _)

/-- A multi job takes its registration back while the task does not hold it. -/
theorem Streaming.of_complete (hf : Streaming f call rs) (hmulti : call.kind.isMulti = true)
    (hphase : call.phase = .completing) (hfree : ¬ f.HoldsShard shard call.id) :
    Streaming (f.completeJobIdMulti call.id) { call with phase := .closing (.returned none) } rs where
  taken := hf.taken
  shows := by
    obtain ⟨ending, hending, hstream⟩ := hf.shows
    rw [hphase] at hending
    exact ⟨ending, hending, hstream⟩
  arrived := hf.arrived
  routes h := absurd trivial h.2
  single := hf.single
  released _ c hheld := by
    have htask : f.task.held = some (call.origin, c) := hheld
    rw [Call.origin_of_isMulti hmulti] at htask
    obtain ⟨item, hsend, htarget⟩ := MessageFilter.target_of_held_multi htask
    apply hfree
    simp [MessageFilter.HoldsShard, hsend, htarget]

/-- A multi job drops its receiver. -/
theorem Streaming.of_finish (hf : Streaming f call rs) {exit : Exit}
    (hphase : call.phase = .closing exit) :
    Streaming (f.dropReceiver call.chan) { call with phase := .finished exit } rs := by
  have hchannel : (f.dropReceiver call.chan).channels call.chan = (f.channels call.chan).close :=
    Function.update_self ..
  refine ⟨?_, ?_, ?_, fun h => h.1.elim, hf.single, fun hcompleted => hf.released ?_⟩
  · rw [hchannel]
    exact hf.taken
  · obtain ⟨ending, hending, hstream⟩ := hf.shows
    rw [hphase] at hending
    refine ⟨ending, ?_, ?_⟩
    · cases exit <;> exact hending
    · have hread : (f.dropReceiver call.chan).read call.chan = f.read call.chan := by
        rw [MessageFilter.read, hchannel]
        rfl
      rw [hread]
      exact hstream
  · rw [MessageFilter.arrived, hchannel]
    exact hf.arrived
  · rw [hphase]
    exact Phase.isCompleted_finished.mp hcompleted

/-- The actions that cut the wait of a call short. -/
def Action.Disturbs (i : Nat) : Action SteamID → Prop
  | .sendFailed j _ | .timeout j | .cancel j => j = i
  | _ => False

instance (i : Nat) (a : Action SteamID) : Decidable (a.Disturbs i) :=
  match a with
  | .sendFailed j _ | .timeout j | .cancel j => inferInstanceAs (Decidable (j = i))
  | .draw .. | .register _ | .transmit _ | .sendOk _ | .receive _ | .closed _ | .resume _
  | .complete _ | .finish _ | .source _ | .filter _ => inferInstanceAs (Decidable False)

/-- The steps of a multi job whose wait is not cut short. -/
theorem Streaming.of_callStep (hf : Streaming s.filter call rs) (hs : s.Wired) (hcall : call ∈ s.calls)
    (hmulti : call.kind.isMulti = true) (hne : call.phase ≠ .drawn) (ha : a.call = some i)
    (hwait : ¬ a.Disturbs i) (h : s.callStep shard call a = some (call', g)) :
    Streaming g call' rs := by
  cases callSteps_of_callStep h with
  | register hphase => exact absurd hphase hne
  | transmit => exact hf.congr (fun _ h => h) (fun h => h) (fun h => h) true
  | sendOk hphase =>
    refine hf.congr (fun ending h => ?_) (fun _ => ?_) ?_ call.sent
    · rw [hphase] at h
      exact h
    · rw [hphase]
      exact ⟨trivial, not_false⟩
    · exact False.elim
  | receive hphase =>
    obtain ⟨-, hmap⟩ := Option.ite_none_right_eq_some.mp h
    obtain ⟨⟨item, filter⟩, hrecv, heq⟩ := Option.map_eq_some_iff.mp hmap
    obtain ⟨hcall', hfilter⟩ := Prod.mk.inj heq
    rw [← hcall', ← hfilter]
    exact hf.of_receive hs.inv.owned (hs.inv.call call hcall) hmulti hphase hrecv
  | close hcloses =>
    cases a with
    | closed j =>
      obtain ⟨⟨hphase, -, ⟨hstored, -⟩, -⟩, -⟩ := Option.ite_none_right_eq_some.mp h
      -- the sending end of a waiting multi job is in the table
      refine absurd ((hs.kept call hcall hmulti hne).mpr ?_) hstored
      rw [hphase]
      exact not_false
    | sendFailed | timeout | cancel =>
      cases ha
      exact absurd rfl hwait
    | _ => exact hcloses.elim
  | @resume _ completed hphase =>
    refine hf.congr (fun ending h => ?_) (fun _ => ?_) (fun h => ?_) call.sent
    · rw [hphase] at h
      cases completed <;> exact h
    · rw [hphase]
      exact ⟨trivial, not_false⟩
    · cases completed <;> exact h.elim
  | complete hphase =>
    obtain ⟨-, hmap⟩ := Option.ite_none_right_eq_some.mp h
    obtain ⟨filter, hfilter, -⟩ := Option.map_eq_some_iff.mp hmap
    obtain ⟨hfree, -⟩ := Option.ite_none_left_eq_some.mp hfilter
    exact hf.of_complete hmulti hphase hfree
  | finish hphase => exact hf.of_finish hphase

/-- A multi job that registers reads a stream without messages. -/
theorem streaming_of_registers (hreg : f.Registers call.origin g)
    (hmulti : call.kind.isMulti = true) (hsingle : f.jobIdFilters call.id = none)
    (hbusy : ∀ item, f.task.item = some item → item.target ≠ call.id) :
    Streaming g { call with chan := f.nextChan, phase := .registered } [] := by
  have hnew := hreg.channels_new
  have hbusy' : ∀ item, g.task.item = some item → item.target ≠ call.id := by
    rw [hreg.task]
    exact hbusy
  have harrived : g.arrived f.nextChan = [] := by
    rw [MessageFilter.arrived, hnew]
    rfl
  have hsingle' : g.jobIdFilters call.id = none := by
    refine Option.eq_none_iff_forall_ne_some.mpr fun d hd => ?_
    have hstored : g.Stored (.jobId call.id) d := hd
    rcases hreg.stored_old hstored with hold | ⟨horigin, -⟩
    · cases hsingle.symm.trans hold
    · rw [Call.origin_of_isMulti hmulti] at horigin
      cases horigin
  refine ⟨?_, ⟨none, rfl, ?_⟩, ?_, fun _ => ⟨⟨hsingle', ?_, ?_, ?_⟩, ?_⟩, hsingle', fun h => h.elim⟩
  · rw [hnew]
    exact Nat.le_refl _
  · rw [MessageFilter.read, hnew]
    rfl
  · rw [harrived]
  · have hstored := hreg.stored_new
    rwa [Call.origin_of_isMulti hmulti] at hstored
  · rw [hnew]
  · exact fun item hitem htarget => absurd htarget (hbusy' item hitem)
  · rw [harrived, MessageFilter.inFlight_of_idle hbusy', List.append_nil]

/-- A multi job, after the messages `rs` came in for it. -/
def Streams (f : MessageFilter SteamID) (call : Call) (rs : List (RawNetMessage SteamID)) : Prop :=
  if call.phase = .drawn then rs = [] ∧ f.jobIdFilters call.id = none else Streaming f call rs

theorem streams_of_drawn (hphase : call.phase = .drawn) :
    Streams f call rs ↔ rs = [] ∧ f.jobIdFilters call.id = none := by
  rw [Streams, if_pos hphase]

theorem streams_of_ne_drawn (hphase : call.phase ≠ .drawn) :
    Streams f call rs ↔ Streaming f call rs := by
  rw [Streams, if_neg hphase]

/-- Steps of others, before and after the registration. -/
theorem Streams.of_steps {b : MessageFilter.Action SteamID} (hf : Streams s.filter call rs)
    (hs : s.Wired) (hcall : call ∈ s.calls) (hmulti : call.kind.isMulti = true)
    (h : s.filter.StepsTo b g) (hspares : Spares b call)
    (hdrawn : call.phase = .drawn → b.arrivals call.id = []) :
    Streams g call (rs ++ b.arrivals call.id) := by
  by_cases hphase : call.phase = .drawn
  · rw [streams_of_drawn hphase] at hf ⊢
    exact ⟨by rw [hf.1, hdrawn hphase, List.append_nil],
      h.jobIdFilters_eq_none hspares.foreign hf.2⟩
  · rw [streams_of_ne_drawn hphase] at hf ⊢
    exact hf.of_steps (hs.inv.call call hcall) (hs.kept call hcall) hmulti hphase
      (hs.gone call hcall) hs.inv.owned h hspares.foreign (hspares.recv hphase)
      (hspares.drop hphase)

/-- A step of the filter that brings in nothing. -/
theorem Streams.of_steps_of_ne_next {b : MessageFilter.Action SteamID}
    (hf : Streams s.filter call rs) (hs : s.Wired) (hcall : call ∈ s.calls)
    (hmulti : call.kind.isMulti = true) (h : s.filter.StepsTo b g) (hspares : Spares b call)
    (hb : ∀ res, b ≠ .next res) : Streams g call rs := by
  have hnone : b.arrivals call.id = [] := by
    cases b with
    | next res => exact absurd rfl (hb res)
    | _ => rfl
  have hold := hf.of_steps hs hcall hmulti h hspares fun _ => hnone
  rwa [hnone, List.append_nil] at hold

end OneStream

/-! ### The streams of a run -/

section Run

/-- The message for the job that comes in with a step of the connection. -/
def Action.arrivals (id : JobId) : Action SteamID → List (RawNetMessage SteamID)
  | .source res => (MessageFilter.Action.next res).arrivals id
  | _ => []

/-- The messages for the job that come in during a run. -/
def responses (id : JobId) (w : List (Action SteamID)) : List (RawNetMessage SteamID) :=
  w.flatMap fun a => a.arrivals id

/-- No session before has left a registration under the id that a multi job draws. -/
def NoLeftover (s : Client SteamID) (a : Action SteamID) : Prop :=
  ∀ kind parse thread, a = .draw (.jobMulti kind) parse thread →
    s.filter.jobIdFilters s.nextJobId = none

/-- What a stream relies on in a step. -/
def KeepsStreams (shard : JobId → Nat) (s : Client SteamID) (a : Action SteamID) : Prop :=
  AvoidsDeadlock shard s a ∧ FreshIds s a ∧ NoLeftover s a

/-- A step of a call brings in no message. -/
theorem Action.arrivals_of_call {id : JobId} (ha : a.call = some i) : a.arrivals id = [] := by
  cases a with
  | source => cases ha
  | _ => rfl

/-- The message of a step for a job of the session comes after the request. -/
theorem exists_sent_of_arrivals {res : Option (Outcome NetworkError (RawNetMessage SteamID))}
    {id : JobId} (hs : s.Addressed res) (hne : (MessageFilter.Action.next res).arrivals id ≠ []) :
    id = JobId.none ∨ ∃ call ∈ s.calls, call.sent = true ∧ call.id = id := by
  match res with
  | some (.ok message) =>
    simp only [MessageFilter.Action.arrivals] at hne
    split_ifs at hne with htarget
    · exact htarget ▸ hs
    · exact absurd rfl hne
  | some (.err _) | some .panic | none => exact absurd rfl hne

/-- The steps of a multi job whose wait is not cut short, before and after its
registration. -/
theorem Streams.of_callStep (hf : Streams s.filter call rs) (hs : s.Wired) (hcall : call ∈ s.calls)
    (hmulti : call.kind.isMulti = true) (ha : a.call = some i) (hwait : ¬ a.Disturbs i)
    (h : s.callStep shard call a = some (call', g)) : Streams g call' rs := by
  have hsteps := callSteps_of_callStep h
  by_cases hphase : call.phase = .drawn
  · rw [streams_of_drawn hphase] at hf
    obtain ⟨rfl, hsingle⟩ := hf
    cases hsteps with
    | register _ hreg =>
      rw [streams_of_ne_drawn (by simp)]
      exact streaming_of_registers hreg hmulti hsingle (hs.inv.not_busy_of_drawn hcall hphase)
    | transmit hphase' | sendOk hphase' | receive hphase' | resume hphase' | complete hphase'
    | finish hphase' => cases hphase.symm.trans hphase'
    | close _ hphase' =>
      rw [hphase] at hphase'
      exact hphase'.elim
  · rw [streams_of_ne_drawn hphase] at hf
    rw [streams_of_ne_drawn (hsteps.chan_eq hphase).2]
    exact hf.of_callStep hs hcall hmulti hphase ha hwait h

/-- What holds after the actions `past`, if none of them cut the wait of the `i`-th call
short. -/
structure Tracks (shard : JobId → Nat) (i : Nat) (past : List (Action SteamID))
    (s : Client SteamID) : Prop where
  wired : s.Wired
  unlocked : ¬ s.Deadlocked shard
  known : ∀ id, responses id past ≠ [] →
    id = JobId.none ∨ ∃ call ∈ s.calls, call.sent = true ∧ call.id = id
  streams : ∀ call, s.calls[i]? = some call → call.kind.isMulti = true →
    Streams s.filter call (responses call.id past)

/-- Requests that were sent stay sent. -/
theorem StepsTo.exists_sent (h : StepsTo s a t) (hcall : call ∈ s.calls) (hsent : call.sent = true) :
    ∃ call' ∈ t.calls, call'.sent = true ∧ call'.id = call.id := by
  cases h with
  | draw => exact ⟨call, List.mem_append_left _ hcall, hsent, rfl⟩
  | source => exact ⟨call, hcall, hsent, rfl⟩
  | filter => exact ⟨call, hcall, hsent, rfl⟩
  | @call _ j old new g ha hold hsteps =>
    by_cases hsame : call = old
    · subst hsame
      exact ⟨new, List.mem_set (List.getElem?_eq_some_iff.mp hold).1 _, hsteps.sent_of.1 hsent,
        hsteps.id_eq.2⟩
    · exact ⟨call, mem_set_of_ne hold hcall hsame, hsent, rfl⟩

theorem responses_concat (id : JobId) (past : List (Action SteamID)) (a : Action SteamID) :
    responses id (past ++ [a]) = responses id past ++ a.arrivals id := by
  simp [responses]

/-- The messages that came in are for calls of the session. -/
theorem Tracks.known_of_steps {past : List (Action SteamID)} (hs : s.Tracks shard i past)
    (h : StepsTo s a t) (hpeer : s.Honest a) (id : JobId) (hne : responses id (past ++ [a]) ≠ []) :
    id = JobId.none ∨ ∃ call ∈ t.calls, call.sent = true ∧ call.id = id := by
  have hold : id = JobId.none ∨ ∃ call ∈ s.calls, call.sent = true ∧ call.id = id := by
    by_cases hpast : responses id past = []
    · rw [responses_concat, hpast, List.nil_append] at hne
      cases h with
      | source => exact exists_sent_of_arrivals hpeer hne
      | call ha => exact absurd (Action.arrivals_of_call ha) hne
      | _ => exact absurd rfl hne
    · exact hs.known id hpast
  refine hold.imp_right ?_
  rintro ⟨call, hcall, hsent, rfl⟩
  exact h.exists_sent hcall hsent

/-- The stream of the `i`-th call after a step of its own. -/
theorem Tracks.streams_of_self {past : List (Action SteamID)} (hs : s.Tracks shard i past)
    (h : s.step shard a = some t) (ha : a.call = some i) (hwait : ¬ a.Disturbs i)
    (hcall : t.calls[i]? = some call) (hmulti : call.kind.isMulti = true) :
    Streams t.filter call (responses call.id past) := by
  obtain ⟨old, new, g, hold, hstep, rfl⟩ := exists_callStep_of_step h ha
  have hlt := (List.getElem?_eq_some_iff.mp hold).1
  rw [update, List.getElem?_set_self hlt, Option.some.injEq] at hcall
  subst hcall
  obtain ⟨hkind, hid⟩ := (callSteps_of_callStep hstep).id_eq
  rw [hkind] at hmulti
  rw [hid]
  exact (hs.streams old hold hmulti).of_callStep hs.wired (List.mem_of_getElem? hold) hmulti ha hwait
    hstep

/-- A call that is made has no stream yet: its id is fresh, and nothing came in for it. -/
theorem Tracks.streams_of_new {past : List (Action SteamID)} {kind : CallKind}
    {parse : Bytes → Except MessageBodyError Bool} {thread : Nat} (hs : s.Tracks shard i past)
    (hfresh : FreshIds s (.draw kind parse thread)) (hleft : NoLeftover s (.draw kind parse thread))
    (hmulti : kind.isMulti = true) :
    Streams s.filter { kind, parse, thread, id := s.nextJobId } (responses s.nextJobId past) := by
  obtain ⟨hid, hnew⟩ := hfresh _ _ _ rfl
  rw [streams_of_drawn rfl]
  constructor
  · by_contra hne
    rcases hs.known _ hne with hnone | ⟨other, hother, -, hsame⟩
    · exact hid hnone
    · exact hnew other hother hsame
  · cases kind with
    | jobMulti kind => exact hleft kind parse thread rfl
    | _ => cases hmulti

/-- The stream of the `i`-th call after a step of another call. -/
theorem Tracks.streams_of_other {past : List (Action SteamID)} {j : Nat} {old new : Call}
    (hs : s.Tracks shard i past) (hold : s.calls[j]? = some old)
    (hsteps : CallSteps s.filter old a new g) (hij : j ≠ i) (hcall : s.calls[i]? = some call)
    (hmulti : call.kind.isMulti = true) : Streams g call (responses call.id past) := by
  have hmem := List.mem_of_getElem? hcall
  have hne : call.id ≠ old.id := fun hid =>
    hij (index_eq_of_id_eq hs.wired.inv.ids hold hcall hid.symm)
  rcases hs.wired.inv.spares_of_callSteps (List.mem_of_getElem? hold) hmem hne hsteps with rfl |
    ⟨b, hb, hquiet, hspares⟩
  · exact hs.streams call hcall hmulti
  · exact (hs.streams call hcall hmulti).of_steps_of_ne_next hs.wired hmem hmulti hb hspares hquiet

/-- The stream of the `i`-th call after one more step. -/
theorem Tracks.streams_of_step {past : List (Action SteamID)} (hs : s.Tracks shard i past)
    (h : s.step shard a = some t) (hguard : KeepsStreams shard s a) (hpeer : s.Honest a)
    (hwait : ¬ a.Disturbs i) (hcall : t.calls[i]? = some call)
    (hmulti : call.kind.isMulti = true) :
    Streams t.filter call (responses call.id (past ++ [a])) := by
  rw [responses_concat]
  by_cases ha : a.call = some i
  · rw [Action.arrivals_of_call ha, List.append_nil]
    exact hs.streams_of_self h ha hwait hcall hmulti
  cases stepsTo_of_step h with
  | @draw kind parse thread =>
    have hnone : (Action.draw kind parse thread : Action SteamID).arrivals call.id = [] := rfl
    rw [hnone, List.append_nil]
    by_cases hlt : i < s.calls.length
    · rw [List.getElem?_append_left hlt] at hcall
      exact hs.streams call hcall hmulti
    · rw [List.getElem?_append_right (not_lt.mp hlt)] at hcall
      obtain rfl := List.mem_singleton.mp (List.mem_of_getElem? hcall)
      exact hs.streams_of_new hguard.2.1 hguard.2.2 hmulti
  | @source res g hfilter =>
    have hmem := List.mem_of_getElem? hcall
    refine (hs.streams call hcall hmulti).of_steps hs.wired hmem hmulti hfilter
      (spares_next res call) fun hphase => ?_
    -- no message is addressed to a call that has not sent its request
    by_contra hne
    rcases exists_sent_of_arrivals hpeer hne with hnone | ⟨other, hother, hsent, hid⟩
    · exact hs.wired.inv.ne_none call hmem hnone
    · obtain rfl := hs.wired.inv.eq_of_id_eq hother hmem hid
      exact hs.wired.inv.sent _ hmem hsent hphase
  | @filter b g hpermits hfilter =>
    have hmem := List.mem_of_getElem? hcall
    have hnone : (Action.filter b : Action SteamID).arrivals call.id = [] := rfl
    rw [hnone, List.append_nil]
    refine (hs.streams call hcall hmulti).of_steps_of_ne_next hs.wired hmem hmulti hfilter
      (hpermits.spares hmem) ?_
    rintro res rfl
    exact hpermits
  | @call _ j old new g hj hold hsteps =>
    rw [Action.arrivals_of_call hj, List.append_nil]
    have hij : j ≠ i := by
      rintro rfl
      exact ha hj
    rw [update, List.getElem?_set_ne hij] at hcall
    exact hs.streams_of_other hold hsteps hij hcall hmulti

/-- Every step that keeps streams keeps track. -/
theorem Tracks.of_step {past : List (Action SteamID)} (hs : s.Tracks shard i past)
    (h : s.step shard a = some t) (hguard : KeepsStreams shard s a) (hpeer : s.Honest a)
    (hwait : ¬ a.Disturbs i) : t.Tracks shard i (past ++ [a]) where
  wired := hs.wired.of_steps (stepsTo_of_step h) hguard.2.1 hpeer
  unlocked hlock := hs.unlocked (deadlocked_of_steps (stepsTo_of_step h) hguard.1 hlock)
  known := hs.known_of_steps (stepsTo_of_step h) hpeer
  streams _ hcall hmulti := hs.streams_of_step h hguard hpeer hwait hcall hmulti

theorem Tracks.of_run {past w : List (Action SteamID)} (hs : s.Tracks shard i past)
    (hrun : run (step shard) s w = some t) (hsteps : AllSteps (step shard) (KeepsStreams shard) s w)
    (hpeer : AllSteps (step shard) Honest s w) (hwait : ∀ a ∈ w, ¬ a.Disturbs i) :
    t.Tracks shard i (past ++ w) := by
  induction w generalizing past s with
  | nil =>
    obtain rfl := Option.some.inj hrun
    rwa [List.append_nil]
  | cons a w ih =>
    obtain ⟨u, hu, hrest⟩ := run_cons_eq_some.mp hrun
    obtain ⟨hguard, hguards⟩ := hsteps u hu
    obtain ⟨hhonest, hhonests⟩ := hpeer u hu
    have hnext := hs.of_step hu hguard hhonest (hwait a List.mem_cons_self)
    have hend := ih hnext hrest hguards hhonests fun b hb => hwait b (List.mem_cons_of_mem a hb)
    rwa [List.append_assoc, List.singleton_append] at hend

/-- The beginning of a session on a filter on which no multi job was made before: only a
session makes multi jobs. -/
structure StreamStart (shard : JobId → Nat) (s : Client SteamID) : Prop extends Start shard s where
  origins : ∀ c id, s.filter.origins c ≠ some (.jobIdMulti id)

theorem StreamStart.tracks (hs : s.StreamStart shard) : s.Tracks shard i [] where
  wired := {
    inv := hs.inv
    kept := fun call hcall => by rw [hs.calls] at hcall; cases hcall
    gone := fun call hcall => by rw [hs.calls] at hcall; cases hcall
    owners := fun hg => absurd hg (hs.origins _ _) }
  unlocked := by
    rintro ⟨call, hcall, -⟩
    rw [hs.calls] at hcall
    cases hcall
  known id hne := absurd rfl hne
  streams call hcall := by rw [hs.calls] at hcall; cases hcall

/-- What becomes of the stream of a multi job after the messages `rs` came in for it: it gives
out what a reader of these messages gives out, and nothing else. Once finished, it has given
out all that, it ends as the reader does, and if it ends without an error, it has taken its
registration back. When the messages end the stream, it finishes by the steps the connection
takes by itself, and of these there are finitely many. -/
structure StreamsTo (shard : JobId → Nat) (s : Client SteamID) (call : Call)
    (rs : List (RawNetMessage SteamID)) : Prop where
  yields : yielded s.filter call <+: (streamed call.respond rs).1
  finished : call.phase.IsFinished → ∃ error, call.phase = .finished (.returned error) ∧
    streamed call.respond rs = (yielded s.filter call, some error) ∧
      (error = none → s.filter.HasNoEntry call.id)
  ends : (streamed call.respond rs).2 ≠ none → Quiet (step shard) Action.IsProgress s →
    call.phase.IsFinished
  halts : ∃ n, ∀ v t, (∀ a ∈ v, a.IsProgress) → run (step shard) s v = some t → v.length ≤ n

theorem halts (s : Client SteamID) :
    ∃ n, ∀ v t, (∀ a ∈ v, a.IsProgress) → run (step shard) s v = some t → v.length ≤ n :=
  ⟨s.measure, fun _ _ hv hrun =>
    length_le_of_run (fun _ _ _ ha hstep => measure_lt_of_isProgress ha hstep) hv hrun⟩

/-- A stream that the messages end has nothing left to wait for. -/
theorem Streaming.isFinished_of_quiet (hf : Streaming s.filter call rs) (hs : s.Wired)
    (hlock : ¬ s.Deadlocked shard) (hcall : call ∈ s.calls) (hne : call.phase ≠ .drawn)
    (hsent : rs ≠ [] → call.sent = true) (hend : (streamed call.respond rs).2 ≠ none)
    (hq : Quiet (step shard) Action.IsProgress s) : call.phase.IsFinished := by
  have hidle := hs.idle_of_quiet hlock hq call.thread
  have hrs : rs ≠ [] := by
    rintro rfl
    exact hend rfl
  have hwaiting := hs.waiting_of_quiet hq hcall hidle (hsent hrs)
  cases hphase : call.phase with
  | finished => trivial
  | drawn => exact absurd hphase hne
  | completing | closing => exact absurd (by rw [hphase]; trivial) (hidle call hcall rfl)
  | registered | yielding =>
    rw [hphase] at hwaiting
    cases (hwaiting trivial).1
  | waiting =>
    exfalso
    rw [hphase] at hwaiting
    have hunread := (hwaiting trivial).2
    -- the call has read all messages, none of which ends the stream
    have hlive : call.phase.IsLive := by
      rw [hphase]
      exact ⟨trivial, not_false⟩
    have hflight : s.filter.inFlight call.id = [] := by
      apply MessageFilter.inFlight_of_idle
      rcases hs.task_of_quiet hlock hq with htask | htask <;> rw [htask] <;> nofun
    have hall : s.filter.read call.chan = rs := by
      rw [← (hf.routes hlive).2, hflight, List.append_nil, MessageFilter.read,
        MessageFilter.arrived, List.take_of_length_le (List.drop_eq_nil_iff.mp hunread)]
    obtain ⟨ending, hending, hstream⟩ := hf.shows
    rw [hphase] at hending
    rw [hall] at hstream
    exact hend ((congrArg Prod.snd hstream).trans hending)

theorem Streaming.streamsTo (hf : Streaming s.filter call rs) (hs : s.Wired)
    (hlock : ¬ s.Deadlocked shard) (hcall : call ∈ s.calls) (hmulti : call.kind.isMulti = true)
    (hne : call.phase ≠ .drawn) (hsent : rs ≠ [] → call.sent = true) :
    s.StreamsTo shard call rs := by
  obtain ⟨ending, hending, hstream⟩ := hf.shows
  have hle := (s.filter.read_prefix call.chan).trans hf.arrived
  have hyielded : yielded s.filter call =
      (s.filter.read call.chan).filter fun message => (call.respond message).isOk := by
    rw [yielded, received, if_neg hne]
  refine ⟨?_, fun hdone => ?_, hf.isFinished_of_quiet hs hlock hcall hne hsent, halts s⟩
  · have hfst : (streamed call.respond (s.filter.read call.chan)).1 = yielded s.filter call := by
      rw [hstream, hyielded]
    rw [← hfst]
    exact streamed_fst_mono hle
  · cases hphase : call.phase with
    | finished exit =>
      rw [hphase] at hending
      cases exit with
      | dropped => exact hending.elim
      | returned error =>
        obtain rfl : ending = some error := hending
        refine ⟨error, rfl, ?_, ?_⟩
        · rw [hyielded, ← hstream]
          exact streamed_eq_of_le hle (by rw [hstream]; simp)
        · -- a stream that ends without an error has taken its registration back
          rintro rfl
          refine ⟨hf.single, Option.eq_none_iff_forall_ne_some.mpr fun c hc => ?_⟩
          have hstored : s.filter.Stored call.origin c := by
            rw [Call.origin_of_isMulti hmulti]
            exact hc
          obtain rfl := (hs.inv.call call hcall).slot hne hstored
          have hkept := (hs.kept call hcall hmulti hne).mp hstored
          rw [hphase] at hkept
          exact hkept trivial
    | _ =>
      rw [hphase] at hdone
      exact hdone.elim

/-- In every run of a session from its start on in which every step keeps streams, and with a peer
that responds to requests it was sent, a multi job whose wait is not cut short gives out what came
in for it. -/
theorem streamsTo_of_run {s₀ : Client SteamID} {w : List (Action SteamID)}
    (hstart : s₀.StreamStart shard) (hrun : run (step shard) s₀ w = some s)
    (hpeer : AllSteps (step shard) Honest s₀ w)
    (hsteps : AllSteps (step shard) (KeepsStreams shard) s₀ w) (hcall : s.calls[i]? = some call)
    (hmulti : call.kind.isMulti = true) (hwait : ∀ a ∈ w, ¬ a.Disturbs i) :
    s.StreamsTo shard call (responses call.id w) := by
  have htracks := hstart.tracks.of_run hrun hsteps hpeer hwait
  have hmem := List.mem_of_getElem? hcall
  have hstreams := htracks.streams call hcall hmulti
  by_cases hphase : call.phase = .drawn
  · rw [streams_of_drawn hphase] at hstreams
    rw [List.nil_append] at hstreams
    rw [hstreams.1]
    refine ⟨?_, fun hdone => ?_, fun hend => absurd rfl hend, halts s⟩
    · rw [yielded, received, if_pos hphase]
      exact List.nil_prefix
    · rw [hphase] at hdone
      exact hdone.elim
  · rw [streams_of_ne_drawn hphase] at hstreams
    refine hstreams.streamsTo htracks.wired htracks.unlocked hmem hmulti hphase fun hne => ?_
    -- responses came in, so the request was sent
    rcases htracks.known call.id hne with hnone | ⟨other, hother, hsent, hid⟩
    · exact absurd hnone (htracks.wired.inv.ne_none call hmem)
    · exact htracks.wired.inv.eq_of_id_eq hother hmem hid ▸ hsent

/-- A multi job sends its request and waits. -/
def openStream (i : Nat) (completed : Bool) : List (Action UInt64) :=
  [.draw (.jobMulti EMsg.kEMsgClientLogOnResponse.kind) (fun _ => .ok completed) 0, .register i,
    .transmit i, .sendOk i]

/-- The response to a multi job comes in. -/
def answeredStream : List (Action UInt64) :=
  openStream 0 true ++ [.source (some (.ok (jobResponse ⟨1⟩)))]

theorem streamStart_init : ({} : Client SteamID).StreamStart shard where
  toStart := start_init
  origins _ _ := nofun

theorem keepsStreams_of_ne_draw (hdraw : ∀ kind parse thread, a ≠ .draw kind parse thread)
    (h : AvoidsDeadlock shard s a) : KeepsStreams shard s a :=
  ⟨h, fun kind parse thread heq => absurd heq (hdraw kind parse thread),
    fun _ parse thread heq => absurd heq (hdraw _ parse thread)⟩

theorem streamsTo_of_run_answeredStream :
    ∃ s call, run (step fun _ => 0) ({} : Client UInt64) answeredStream = some s ∧
      s.calls[0]? = some call ∧ s.StreamsTo (fun _ => 0) call [jobResponse ⟨1⟩] := by
  have hsteps : AllSteps (step fun _ => 0) (KeepsStreams fun _ => 0) ({} : Client UInt64)
      answeredStream := by
    refine .cons ⟨fun _ => ?_, fun _ _ _ _ => ⟨by decide, nofun⟩, fun _ _ _ _ => rfl⟩ rfl ?_
    · rintro ⟨_, _, ⟨htask, -⟩, -⟩
      cases htask
    iterate 4 refine .cons (keepsStreams_of_ne_draw nofun trivial) rfl ?_
    trivial
  refine ⟨_, _, rfl, rfl, ?_⟩
  exact @streamsTo_of_run UInt64 (fun _ => 0) _ 0 _ {} answeredStream streamStart_init rfl
    (by decide) hsteps rfl rfl (by decide)

/-- The task picks up a message for a job, and finds its sending end. -/
def arrivalFor (id : JobId) : List (Action UInt64) :=
  [.source (some (.ok (jobResponse id))), .filter .dispatch, .filter .dispatch]

/-- Two multi jobs are read on one thread. The first reads the response that completes it, and
is polled again when seventeen messages have come in for the second. -/
def crowdedThread : List (Action UInt64) :=
  openStream 0 true ++ openStream 1 false ++ arrivalFor ⟨1⟩ ++ [.filter .dispatch, .receive 0] ++
    (List.replicate 16 (arrivalFor ⟨2⟩ ++ [.filter .dispatch])).flatten ++ arrivalFor ⟨2⟩ ++
    [.resume 0]

set_option maxRecDepth 4000 in
/-- Then nothing on the connection can go on: the first job waits for the guard of the task, the
task for the second job, and that for the thread. -/
theorem quiet_crowdedThread :
    ∃ s call, run (step fun _ => 0) ({} : Client UInt64) crowdedThread = some s ∧
      s.calls[0]? = some call ∧ call.kind.isMulti = true ∧
        responses call.id crowdedThread = [jobResponse ⟨1⟩] ∧
          call.respond (jobResponse ⟨1⟩) = .ok true ∧
            Quiet (step fun _ => 0) Action.IsProgress s ∧ ¬ call.phase.IsFinished := by
  refine ⟨_, _, rfl, rfl, rfl, rfl, rfl, fun a ha => ?_, not_false⟩
  cases a with
  | register i | sendOk i | receive i | closed i | resume i | complete i | finish i =>
    match i with
    | 0 | 1 | i + 2 => rfl
  | filter b =>
    cases b with
    | dispatch => rfl
    | _ => exact ha.elim
  | draw | transmit | sendFailed | timeout | cancel | source => exact ha.elim

/-- A multi job whose only response completes it, and whose stream does not end. -/
theorem not_streamsTo_crowdedThread :
    ∃ s call, run (step fun _ => 0) ({} : Client UInt64) crowdedThread = some s ∧
      AllSteps (step fun _ => 0) Honest ({} : Client UInt64) crowdedThread ∧
      s.calls[0]? = some call ∧ call.kind.isMulti = true ∧
        (∀ a ∈ crowdedThread, ¬ a.Disturbs 0) ∧
          streamed call.respond (responses call.id crowdedThread) =
            ([jobResponse ⟨1⟩], some none) ∧
              ¬ s.StreamsTo (fun _ => 0) call (responses call.id crowdedThread) := by
  obtain ⟨s, call, hrun, hcall, hmulti, hresponses, hrespond, hquiet, hopen⟩ := quiet_crowdedThread
  have hstream : streamed call.respond (responses call.id crowdedThread) =
      ([jobResponse ⟨1⟩], some none) := by
    rw [hresponses]
    simp [streamed, hrespond]
  refine ⟨s, call, hrun, by decide +kernel, hcall, hmulti, by decide, hstream,
    fun h => hopen (h.ends ?_ hquiet)⟩
  rw [hstream]
  simp

end Run

end Client

end SteamWire
