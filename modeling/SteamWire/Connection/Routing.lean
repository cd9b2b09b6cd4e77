import Mathlib.Data.List.Nodup
import SteamWire.Connection.Delivery

/-!
# The filter routes messages

What the filter task did with the messages it pulled tells what every receiver has: the task
is done with them in the order in which it pulled them, with each of them once, and the inbox of a
receiver is the list of those that were delivered to it. A message goes only to receivers that
registered for its job, its kind or its method, and to more than one only by a subscription
(`MessageFilter.routed_of_reachable`). Of two subscribers of one entry that both exist, the later
one lacks only what came before it (`MessageFilter.inbox_suffix_of_subscribed`).
-/

namespace SteamWire

open Semantics

namespace Fate

/-- The receivers a message was sent to. -/
def receivers : Fate → List ChanId
  | .delivered _ receivers => receivers
  | _ => []

end Fate

/-- The tables with one receiver to an entry. -/
def Table.IsSingle : Table → Prop
  | .jobId | .jobIdMulti | .oneshotKind => True
  | .notification | .kind => False

namespace MessageFilter

variable {SteamID : Type} {shard : JobId → Nat} {f g : MessageFilter SteamID} {a : Action SteamID}
  {item : Item SteamID} {table : Table} {o : Origin} {c d : ChanId}

/-- The receiver registered for what the message was looked up for in the table. -/
def Registered (f : MessageFilter SteamID) (item : Item SteamID) (c : ChanId) : Table → Prop
  | .jobId => f.origins c = some (.jobId item.target)
  | .jobIdMulti => f.origins c = some (.jobIdMulti item.target)
  | .oneshotKind => f.origins c = some (.oneKind item.kind)
  | .notification => ∃ notification,
      item.message.intoMessage ServiceMethodNotification.reader = .ok notification ∧
        f.origins c = some (.notification notification.jobName)
  | .kind => f.origins c = some (.kind item.kind)

/-- The messages that were delivered to a receiver. -/
def delivered (f : MessageFilter SteamID) (c : ChanId) : List (Item SteamID) :=
  (f.fates.filter fun p => c ∈ p.2.receivers).map Prod.fst

/-- The messages that nobody was found for. -/
def unclaimed (f : MessageFilter SteamID) : List (RawNetMessage SteamID) :=
  (f.fates.filter fun p => p.2 = .unprocessed).map fun p => p.1.message

/-- What the filter did with the messages it pulled is what its receivers have. -/
structure Routed (f : MessageFilter SteamID) : Prop where
  order : f.fates.map (fun p => p.1.seq) ++ (f.task.item.map Item.seq).toList = List.range f.pulled
  inbox : ∀ c, (f.channels c).inbox = f.delivered c
  registered : ∀ {item table receivers}, (item, .delivered table receivers) ∈ f.fates →
    ∀ c ∈ receivers, f.Registered item c table
  single : ∀ {item table receivers}, (item, .delivered table receivers) ∈ f.fates →
    table.IsSingle → ∃ c, receivers = [c]
  rest : f.rest.items <:+ f.unclaimed

section Dispatch

/-- The task sends its message to receivers that registered for it. -/
structure SendsTo (f : MessageFilter SteamID) (item : Item SteamID) (table : Table)
    (receivers : List ChanId) (g : MessageFilter SteamID) : Prop where
  eq : g = f.deliver table item receivers
  registered : ∀ c ∈ receivers, f.Registered item c table
  single : table.IsSingle → ∃ c, receivers = [c]
  entry : ∀ {o c d}, o.IsBroadcast → f.Stored o c → f.Stored o d → c ∈ receivers → d ∈ receivers

/-- The task puts its message aside: into the unprocessed buffer, or nowhere. -/
structure SetsAside (f : MessageFilter SteamID) (item : Item SteamID) (g : MessageFilter SteamID) :
    Prop where
  channels : g.channels = f.channels
  origins : g.origins = f.origins
  nextChan : g.nextChan = f.nextChan
  cases : g.fates = f.fates ++ [(item, .unprocessed)] ∧ g.rest = (f.rest.push item.message).2 ∨
    g.fates = f.fates ++ [(item, .ignored)] ∧ g.rest = f.rest

/-- The task looks its message up in another table. -/
structure LooksOn (f g : MessageFilter SteamID) : Prop where
  channels : g.channels = f.channels
  origins : g.origins = f.origins
  nextChan : g.nextChan = f.nextChan
  fates : g.fates = f.fates
  rest : g.rest = f.rest
  item : g.task.item = f.task.item

/-- What the task sends with a sending end in its hand goes to one receiver, which is no
subscriber. -/
theorem Owned.sendsTo_of_held (hf : f.Owned) (hheld : f.task.held = some (o, c))
    (ho : ¬ o.IsBroadcast) (hregistered : f.origins c = some o → f.Registered item c table) :
    SendsTo f item table [c] (f.deliver table item [c]) where
  eq := rfl
  registered d hd := by
    rw [List.mem_singleton.mp hd]
    exact hregistered (hf.held hheld)
  single _ := ⟨c, rfl⟩
  entry {o' d _} ho' hd _ hmem := by
    rw [List.mem_singleton.mp hmem] at hd
    have hsame := (hf.stored hd).symm.trans (hf.held hheld)
    exact absurd (Option.some.inj hsame ▸ ho') ho

/-- What the task sends to an entry goes to all its subscribers. -/
theorem Owned.sendsTo_of_entry (hf : f.Owned) {receivers : List ChanId}
    (hentry : ∀ c, c ∈ receivers ↔ f.Stored o c) (htable : ¬ table.IsSingle)
    (hregistered : ∀ c, f.origins c = some o → f.Registered item c table) :
    SendsTo f item table receivers (f.deliver table item receivers) where
  eq := rfl
  registered c hc := hregistered c (hf.stored ((hentry c).mp hc))
  single h := absurd h htable
  entry {o' c d} _ hc hd hmem := by
    have hsame := (hf.stored hc).symm.trans (hf.stored ((hentry c).mp hmem))
    exact (hentry d).mpr (Option.some.inj hsame ▸ hd)

/-- A step of the task goes on with its message, or is done with it. -/
theorem Owned.dispatch_cases (hf : f.Owned) (h : Dispatches f g) :
    LooksOn f g ∨ ∃ item, f.task.item = some item ∧ g.task = .awaiting ∧
      ((∃ table receivers, SendsTo f item table receivers g) ∨ SetsAside f item g) := by
  cases h with
  | @jobSend item tx htask =>
    have hheld : f.task.held = some (.jobId item.target, tx) := by rw [htask]; rfl
    exact .inr ⟨item, by rw [htask]; rfl, deliver_task ..,
      .inl ⟨_, _, hf.sendsTo_of_held hheld (fun h => h) fun ho => ho⟩⟩
  | @multiSend item tx htask =>
    have hheld : f.task.held = some (.jobIdMulti item.target, tx) := by rw [htask]; rfl
    exact .inr ⟨item, by rw [htask]; rfl, deliver_task ..,
      .inl ⟨_, _, hf.sendsTo_of_held hheld (fun h => h) fun ho => ho⟩⟩
  | @kindOnceSend item tx htask =>
    have hheld : f.task.held = some (.oneKind item.kind, tx) := by rw [htask]; rfl
    exact .inr ⟨item, by rw [htask]; rfl, deliver_task ..,
      .inl ⟨_, _, hf.sendsTo_of_held hheld (fun h => h) fun ho => ho⟩⟩
  | @notificationSend item notification receivers htask hread hslot =>
    have hentry : ∀ c, c ∈ receivers ↔ f.Stored (.notification notification.jobName) c := by
      simp [Stored, hslot]
    exact .inr ⟨item, by rw [htask]; rfl, deliver_task ..,
      .inl ⟨_, _, hf.sendsTo_of_entry hentry (fun h => h) fun _ ho => ⟨notification, hread, ho⟩⟩⟩
  | @kindSend item receivers htask hslot =>
    have hentry : ∀ c, c ∈ receivers ↔ f.Stored (.kind item.kind) c := by simp [Stored, hslot]
    exact .inr ⟨item, by rw [htask]; rfl, deliver_task ..,
      .inl ⟨_, _, hf.sendsTo_of_entry hentry (fun h => h) fun _ ho => ho⟩⟩
  | @notificationIgnored item htask =>
    exact .inr ⟨item, by rw [htask]; rfl, rfl, .inr ⟨rfl, rfl, rfl, .inr ⟨rfl, rfl⟩⟩⟩
  | @restPush item htask =>
    exact .inr ⟨item, by rw [htask]; rfl, rfl, .inr ⟨rfl, rfl, rfl, .inl ⟨rfl, rfl⟩⟩⟩
  | jobHit htask | jobMiss htask | multiHit htask | multiMiss htask | kindOnceHit htask
  | toNotification htask | toKind htask | kindMiss htask =>
    exact .inl ⟨rfl, rfl, rfl, rfl, rfl, by rw [htask]; rfl⟩

end Dispatch

/-! ### Every run routes -/

section Routed

/-- A registration stays what it is. -/
theorem Registered.of_steps (hf : f.Registered item c table) (hown : f.Owned) (h : StepsTo f a g) :
    g.Registered item c table := by
  have hkeep : ∀ {o}, f.origins c = some o → g.origins c = some o := by
    intro o ho
    rw [h.origins_eq (.inl (hown.ne_nextChan ho)), ho]
  cases table with
  | notification =>
    obtain ⟨notification, hread, ho⟩ := hf
    exact ⟨notification, hread, hkeep ho⟩
  | jobId | jobIdMulti | oneshotKind | kind => exact hkeep hf

/-- A send reaches the receivers that exist. -/
theorem receivers_deliverFate (receivers : List ChanId) :
    (f.deliverFate table receivers).receivers =
      receivers.filter fun c => (f.channels c).alive := by
  unfold deliverFate
  dsimp only
  split_ifs with hnone
  · exact hnone.symm
  · rfl

/-- A message that was delivered was sent by the table and to some of the receivers it names. -/
theorem of_deliverFate_eq {receivers receivers' : List ChanId} {table' : Table}
    (h : f.deliverFate table receivers = .delivered table' receivers') :
    table' = table ∧ receivers' ≠ [] ∧ receivers' = receivers.filter fun c => (f.channels c).alive := by
  unfold deliverFate at h
  dsimp only at h
  split_ifs at h with hnone
  cases h
  exact ⟨rfl, hnone, rfl⟩

/-- One more message with its fate. -/
theorem delivered_append {fate : Fate} (h : g.fates = f.fates ++ [(item, fate)]) (c : ChanId) :
    g.delivered c = f.delivered c ++ if c ∈ fate.receivers then [item] else [] := by
  simp only [delivered, h, List.filter_append, List.map_append]
  congr 1
  by_cases hc : c ∈ fate.receivers <;> simp [hc]

theorem unclaimed_append {fate : Fate} (h : g.fates = f.fates ++ [(item, fate)]) :
    g.unclaimed = f.unclaimed ++ if fate = .unprocessed then [item.message] else [] := by
  simp only [unclaimed, h, List.filter_append, List.map_append]
  congr 1
  by_cases hfate : fate = .unprocessed <;> simp [hfate]

theorem routed_init : ({} : MessageFilter SteamID).Routed where
  order := rfl
  inbox _ := rfl
  registered h := by cases h
  single h := by cases h
  rest := List.suffix_refl _

/-- A send keeps the filter routed. -/
theorem Routed.of_sendsTo (hf : f.Routed) {receivers : List ChanId} (hitem : f.task.item = some item)
    (h : SendsTo f item table receivers g) : g.Routed := by
  obtain ⟨rfl, hregistered, hsingle, -⟩ := h
  have hfates := f.deliver_fates table item receivers
  have hnew : ∀ {item' table' receivers'},
      (item', Fate.delivered table' receivers') ∈ (f.deliver table item receivers).fates →
        (item', Fate.delivered table' receivers') ∈ f.fates ∨
          item' = item ∧ table' = table ∧ receivers' ≠ [] ∧
            receivers' = receivers.filter fun c => (f.channels c).alive := by
    intro item' table' receivers' hmem
    rw [hfates, List.mem_append, List.mem_singleton, Prod.mk.injEq] at hmem
    exact hmem.imp_right fun h => ⟨h.1, of_deliverFate_eq h.2.symm⟩
  refine ⟨?_, fun c => ?_, fun {item' table' receivers'} hmem c hc => ?_,
    fun {item' table' receivers'} hmem htable => ?_, ?_⟩
  · rw [deliver_task, hfates, List.map_append, deliver_pulled, ← hf.order, hitem]
    simp [FilterTask.item]
  · rw [deliver_channels, delivered_append hfates, receivers_deliverFate, ← hf.inbox c]
    by_cases hc : c ∈ receivers ∧ (f.channels c).alive = true
    · rw [if_pos hc, if_pos (by simpa using hc), Channel.push_inbox]
    · rw [if_neg hc, if_neg (by simpa using hc), List.append_nil]
  · have horigins : ∀ {item table}, f.Registered item c table →
        (f.deliver table item receivers).Registered item c table := by
      intro item table h
      cases table <;> simpa [Registered] using h
    rcases hnew hmem with hold | ⟨rfl, rfl, -, rfl⟩
    · have hreg := hf.registered hold c hc
      cases table' <;> simpa [Registered] using hreg
    · exact horigins (hregistered c (List.mem_of_mem_filter hc))
  · rcases hnew hmem with hold | ⟨rfl, rfl, hne, rfl⟩
    · exact hf.single hold htable
    · obtain ⟨c, rfl⟩ := hsingle htable
      refine ⟨c, ?_⟩
      by_cases halive : (f.channels c).alive = true
      · simp [halive]
      · exact absurd (by simp [halive]) hne
  · rw [deliver_rest, unclaimed_append hfates, if_neg, List.append_nil]
    · exact hf.rest
    · intro hfate
      unfold deliverFate at hfate
      dsimp only at hfate
      split_ifs at hfate

/-- What is pushed into the unprocessed buffer stands at its end. -/
theorem items_push_suffix {b : RingBuffer (RawNetMessage SteamID)}
    {messages : List (RawNetMessage SteamID)} {message : RawNetMessage SteamID}
    (h : b.items <:+ messages) : (b.push message).2.items <:+ messages ++ [message] := by
  unfold RingBuffer.push
  split_ifs
  · exact List.suffix_append_self_iff.mpr ((List.tail_suffix _).trans h)
  · exact List.suffix_append_self_iff.mpr h

/-- Registrations are told by the origins of channels. -/
theorem Registered.congr (h : g.origins = f.origins) :
    g.Registered item c table ↔ f.Registered item c table := by
  cases table <;> simp only [Registered, h]

/-- A message that is put aside comes to no receiver. -/
theorem Routed.of_setsAside (hf : f.Routed) (hitem : f.task.item = some item)
    (hpulled : g.pulled = f.pulled) (htask : g.task = .awaiting) (h : SetsAside f item g) :
    g.Routed := by
  obtain ⟨fate, hfates, hnone, hfate, hrest⟩ : ∃ fate : Fate, g.fates = f.fates ++ [(item, fate)] ∧
      fate.receivers = [] ∧ (∀ table receivers, fate ≠ .delivered table receivers) ∧
        g.rest.items <:+ g.unclaimed := by
    rcases h.cases with ⟨hfates, hrest⟩ | ⟨hfates, hrest⟩
    · refine ⟨.unprocessed, hfates, rfl, fun _ _ => by simp, ?_⟩
      rw [hrest, unclaimed_append hfates, if_pos rfl]
      exact items_push_suffix hf.rest
    · refine ⟨.ignored, hfates, rfl, fun _ _ => by simp, ?_⟩
      rw [hrest, unclaimed_append hfates, if_neg (by simp), List.append_nil]
      exact hf.rest
  have hold : ∀ {item' table receivers}, (item', Fate.delivered table receivers) ∈ g.fates →
      (item', Fate.delivered table receivers) ∈ f.fates := by
    intro item' table receivers hmem
    rw [hfates, List.mem_append, List.mem_singleton, Prod.mk.injEq] at hmem
    exact hmem.resolve_right fun heq => hfate table receivers heq.2.symm
  refine ⟨?_, fun c => ?_, fun hmem c hc => ?_, fun hmem => hf.single (hold hmem), hrest⟩
  · rw [htask, hfates, List.map_append, hpulled, ← hf.order, hitem]
    simp [FilterTask.item]
  · rw [h.channels, delivered_append hfates, hnone, if_neg List.not_mem_nil, List.append_nil,
      hf.inbox c]
  · exact (Registered.congr h.origins).mpr (hf.registered (hold hmem) c hc)

/-- Every step of the task keeps the filter routed. -/
theorem Routed.of_dispatches (hf : f.Routed) (hown : f.Owned) (h : Dispatches f g) : g.Routed := by
  rcases hown.dispatch_cases h with hlooks | ⟨item, hitem, htask, ⟨_, _, hsends⟩ | haside⟩
  · refine ⟨?_, fun c => ?_, fun hmem c hc => ?_, fun hmem => ?_, ?_⟩
    · rw [hlooks.fates, hlooks.item, h.pulled_eq, hf.order]
    · rw [hlooks.channels, delivered, hlooks.fates]
      exact hf.inbox c
    · rw [hlooks.fates] at hmem
      exact (Registered.congr hlooks.origins).mpr (hf.registered hmem c hc)
    · rw [hlooks.fates] at hmem
      exact hf.single hmem
    · rw [hlooks.rest, unclaimed, hlooks.fates]
      exact hf.rest
  · exact hf.of_sendsTo hitem hsends
  · exact hf.of_setsAside hitem h.pulled_eq htask haside

/-- Others than the task leave the unprocessed buffer as it is, or empty it. -/
theorem rest_of_step (h : f.step shard a = some g) (ha : a ≠ .dispatch) :
    g.rest = f.rest ∨ g.rest.items = [] := by
  cases a with
  | dispatch => exact absurd rfl ha
  | unprocessed =>
    cases h
    exact .inr rfl
  | onJobIdMulti | completeJobIdMulti =>
    obtain ⟨-, heq⟩ := Option.ite_none_left_eq_some.mp h
    cases heq
    exact .inl rfl
  | recv c =>
    obtain ⟨-, h⟩ := Option.ite_none_right_eq_some.mp h
    obtain ⟨⟨item, after⟩, hrecv, rfl⟩ := Option.map_eq_some_iff.mp h
    obtain ⟨-, taken, -, rfl⟩ := of_recv_eq_some hrecv
    exact .inl rfl
  | next res =>
    cases stepsTo_of_step h with
    | register ho => cases ho
    | pull | stop | skip => exact .inl rfl
  | onJobId | onNotification | onKind | oneKind | dropReceiver =>
    cases h
    exact .inl rfl

/-- Outside of the task's steps no message comes to its end. -/
theorem Routed.of_not_dispatch (hf : f.Routed) (hown : f.Owned) (hstep : f.step shard a = some g)
    (ha : a ≠ .dispatch) : g.Routed := by
  have h := stepsTo_of_step hstep
  have hfates := h.fates_eq ha
  refine ⟨?_, fun c => ?_, fun hmem c hc => ?_, fun hmem => ?_, ?_⟩
  · have horder := hf.order
    cases h with
    | register _ hreg => rwa [hreg.fates, hreg.task, hreg.pulled]
    | pull htask =>
      rw [htask] at horder
      rw [List.range_succ, ← horder]
      simp [FilterTask.item]
    | stop htask =>
      rw [htask] at horder
      exact horder
    | dispatch => exact absurd rfl ha
    | complete | unprocessed | drop | recv | skip => exact horder
  · have hdelivered : g.delivered c = (f.channels c).inbox := by
      rw [delivered, hfates]
      exact (hf.inbox c).symm
    rw [hdelivered]
    rcases h.nextChan_eq with ⟨-, hnone⟩ | ⟨-, o, -, hreg⟩
    · exact h.inbox_eq ha (.inr hnone)
    · by_cases hc : c = f.nextChan
      · subst hc
        rw [hreg.channels_new, (hown.fresh (Nat.le_refl _)).1]
      · exact h.inbox_eq ha (.inl hc)
  · rw [hfates] at hmem
    exact (hf.registered hmem c hc).of_steps hown h
  · rw [hfates] at hmem
    exact hf.single hmem
  · rw [unclaimed, hfates]
    rcases rest_of_step hstep ha with hsame | hempty
    · rw [hsame]
      exact hf.rest
    · rw [hempty]
      exact List.nil_suffix

/-- The task is done with no message twice. -/
theorem Routed.nodup (hf : f.Routed) : (f.fates.map fun p => p.1.seq).Nodup := by
  have hnodup := List.nodup_range (n := f.pulled)
  rw [← hf.order] at hnodup
  exact (List.nodup_append.mp hnodup).1

/-- A message in an inbox was delivered there. -/
theorem Routed.exists_fate (hf : f.Routed) (hmem : item ∈ (f.channels c).inbox) :
    ∃ table receivers, (item, Fate.delivered table receivers) ∈ f.fates ∧ c ∈ receivers := by
  rw [hf.inbox c, delivered] at hmem
  obtain ⟨⟨item', fate⟩, hp, rfl⟩ := List.mem_map.mp hmem
  obtain ⟨hfate, hc⟩ := List.mem_filter.mp hp
  have hc := of_decide_eq_true hc
  cases fate with
  | delivered table receivers => exact ⟨table, receivers, hfate, hc⟩
  | lost | unprocessed | ignored => cases hc

/-- Every step keeps the filter routed. -/
theorem Routed.of_step (hf : f.Routed) (hown : f.Owned) (h : f.step shard a = some g) : g.Routed := by
  by_cases ha : a = .dispatch
  · subst ha
    have hdispatch := (stepsTo_of_step h).dispatches
    exact hf.of_dispatches hown hdispatch
  · exact hf.of_not_dispatch hown h ha

/-- Every reachable filter has routed its messages. -/
theorem IsReachable.routed (hf : f.IsReachable shard) : f.Owned ∧ f.Routed := by
  refine Reachable.invariant (I := fun f => f.Owned ∧ f.Routed) ?_ ?_ hf
  · rintro _ rfl
    exact ⟨owned_init, routed_init⟩
  · exact fun s a t hs hstep => ⟨hs.1.of_steps (stepsTo_of_step hstep), hs.2.of_step hs.1 hstep⟩

end Routed

/-! ### Subscribers of one entry -/

section Subscribers

/-- A subscriber stays in the entry it subscribed to. -/
theorem stored_of_step (ho : o.IsBroadcast) (h : f.step shard a = some g) (hf : f.Stored o c) :
    g.Stored o c := by
  rcases (stepsTo_of_step h).stored_or hf with hstored | hheld | horigin | ⟨id, -, rfl⟩
  · exact hstored
  · -- the task holds no sending end of a subscription
    cases htask : g.task with
    | jobSend | multiSend | kindOnceSend =>
      rw [htask] at hheld
      cases hheld
      exact ho.elim
    | _ =>
      rw [htask] at hheld
      cases hheld
  · cases a with
    | onNotification jobName =>
      cases h
      cases horigin
      simpa [Stored, onNotification] using .inl hf
    | onKind kind =>
      cases h
      cases horigin
      simpa [Stored, onKind] using .inl hf
    | onJobId | onJobIdMulti | oneKind =>
      cases horigin
      exact ho.elim
    | _ => cases horigin
  · exact ho.elim

/-- Subscribers are in their entries, and of two of one entry that exist the later one has
the last messages of the earlier one. -/
structure Subscribers (f : MessageFilter SteamID) : Prop where
  stored : ∀ {o c}, o.IsBroadcast → f.origins c = some o → f.Stored o c
  suffix : ∀ {o c d}, o.IsBroadcast → f.origins c = some o → f.origins d = some o → c ≤ d →
    (f.channels c).alive = true → (f.channels d).alive = true →
      (f.channels d).inbox <:+ (f.channels c).inbox

theorem subscribers_init : ({} : MessageFilter SteamID).Subscribers where
  stored _ h := by cases h
  suffix _ h := by cases h

/-- A step of the task sends to both of two subscribers, or to neither. -/
theorem Subscribers.suffix_of_dispatches (hf : f.Subscribers) (hown : f.Owned) (h : Dispatches f g)
    (ho : o.IsBroadcast) (hc : f.origins c = some o) (hd : f.origins d = some o) (hcd : c ≤ d)
    (halive : (f.channels c).alive = true) (halive' : (f.channels d).alive = true) :
    (g.channels d).inbox <:+ (g.channels c).inbox := by
  have hsuffix := hf.suffix ho hc hd hcd halive halive'
  rcases hown.dispatch_cases h with hlooks | ⟨item, -, -, ⟨_, receivers, hsends⟩ | haside⟩
  · rwa [hlooks.channels]
  · have hboth : c ∈ receivers ↔ d ∈ receivers :=
      ⟨hsends.entry ho (hf.stored ho hc) (hf.stored ho hd),
        hsends.entry ho (hf.stored ho hd) (hf.stored ho hc)⟩
    rw [hsends.eq, deliver_channels, deliver_channels]
    by_cases hmem : c ∈ receivers
    · rw [if_pos ⟨hboth.mp hmem, halive'⟩, if_pos ⟨hmem, halive⟩, Channel.push_inbox,
        Channel.push_inbox]
      exact List.suffix_append_self_iff.mpr hsuffix
    · rwa [if_neg fun h => hmem (hboth.mpr h.1), if_neg fun h => hmem h.1]
  · rwa [haside.channels]

theorem Subscribers.of_step (hf : f.Subscribers) (hown : f.Owned) (h : f.step shard a = some g) :
    g.Subscribers := by
  have hsteps := stepsTo_of_step h
  have hstored : ∀ {o c}, o.IsBroadcast → f.origins c = some o → g.Stored o c :=
    fun ho hc => stored_of_step ho h (hf.stored ho hc)
  refine ⟨fun {o c} ho hc => ?_, fun {o c d} ho hc hd hcd halive halive' => ?_⟩
  · rcases hsteps.origin_cases hc with hold | ⟨-, rfl, hreg⟩
    · exact hstored ho hold
    · exact hreg.stored_new
  · rcases hsteps.origin_cases hd with hdold | ⟨-, rfl, hreg⟩
    · have hlt := hown.lt_nextChan hdold
      rcases hsteps.origin_cases hc with hcold | ⟨-, rfl, -⟩
      · have hcne := hown.ne_nextChan hcold
        have hdne := hown.ne_nextChan hdold
        have hcalive := (hsteps.alive_of halive).resolve_right fun h => hcne h.1
        have hdalive := (hsteps.alive_of halive').resolve_right fun h => hdne h.1
        by_cases ha : a = .dispatch
        · subst ha
          have hdispatch := hsteps.dispatches
          exact hf.suffix_of_dispatches hown hdispatch ho hcold hdold hcd hcalive hdalive
        · rw [hsteps.inbox_eq ha (.inl hcne), hsteps.inbox_eq ha (.inl hdne)]
          exact hf.suffix ho hcold hdold hcd hcalive hdalive
      · exact absurd hcd (not_le.mpr hlt)
    · -- a new subscriber has nothing yet
      rw [hreg.channels_new]
      exact List.nil_suffix

/-- Every reachable filter keeps its subscribers. -/
theorem IsReachable.subscribers (hf : f.IsReachable shard) : f.Subscribers := by
  have hboth : f.Owned ∧ f.Subscribers := by
    refine Reachable.invariant (I := fun f => f.Owned ∧ f.Subscribers) ?_ ?_ hf
    · rintro _ rfl
      exact ⟨owned_init, subscribers_init⟩
    · exact fun s a t hs hstep => ⟨hs.1.of_steps (stepsTo_of_step hstep), hs.2.of_step hs.1 hstep⟩
  exact hboth.2

/-- Of two subscribers of an entry that both exist, the later one has received the last of the
messages that the earlier one has received. -/
theorem inbox_suffix_of_subscribed (hf : f.IsReachable shard) (ho : o.IsBroadcast)
    (hc : f.origins c = some o) (hd : f.origins d = some o) (hcd : c ≤ d)
    (halive : (f.channels c).alive = true) (halive' : (f.channels d).alive = true) :
    (f.channels d).inbox <:+ (f.channels c).inbox :=
  hf.subscribers.suffix ho hc hd hcd halive halive'

/-- A subscriber gets two logon responses, and a later one the second of them. -/
def subscribedRun : List (Action UInt64) :=
  [.onKind logOnResponse.kind, .next (some (.ok logOnResponse)), .dispatch, .dispatch, .dispatch,
    .dispatch, .onKind logOnResponse.kind, .next (some (.ok logOnResponse)), .dispatch, .dispatch,
    .dispatch, .dispatch]

theorem inbox_suffix_of_subscribed_twice :
    ∃ f, run (step fun _ => 0) ({} : MessageFilter UInt64) subscribedRun = some f ∧
      (f.channels 1).inbox <:+ (f.channels 0).inbox :=
  ⟨_, rfl, @inbox_suffix_of_subscribed UInt64 (fun _ => 0) _ (.kind logOnResponse.kind) 0 1
    ⟨{}, subscribedRun, rfl, rfl⟩ trivial rfl rfl (by decide) rfl rfl⟩

end Subscribers

end MessageFilter

end SteamWire
