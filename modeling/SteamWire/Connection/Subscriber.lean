import SteamWire.Connection.Routing
import SteamWire.Semantics.Broadcast

/-!
# Streams of subscriptions

`on_notification`, `on_with_header` and `on` make a stream of a subscription. The stream polls
a lossy channel: a reader that falls more than sixteen messages behind is told how many it lost.
A stream of a kind gives out an error for such a gap and goes on, and a stream of notifications
gives out nothing for it.

`Subscriber.hearsAll_of_reachable` says what a stream hears of: every message for its entry that was
pulled since it subscribed and that no receiver of one's own was found for, in order, each of them
or a gap that counts it. `Subscriber.readsOwn_of_reachable` says that it is never given a message
of another kind or method to read, and `Subscriber.keepsUp_iff` which runs have no gaps.
-/

namespace SteamWire

open Semantics

namespace Item

variable {SteamID : Type} (item : Item SteamID)

/-- The method that the message notifies of. -/
def notifies : Option String :=
  (item.message.intoMessage ServiceMethodNotification.reader).toOption.map ServiceMethodBody.jobName

/-- A message for the subscribers of an entry. Notifications go to no subscribers of a kind. -/
def IsFor : Origin → Prop
  | .notification jobName => item.notifies = some jobName
  | .kind kind => item.kind = kind ∧ kind ≠ EMsg.kEMsgServiceMethod.kind
  | .jobId _ | .jobIdMulti _ | .oneKind _ => False

instance : (o : Origin) → Decidable (item.IsFor o)
  | .notification _ => inferInstanceAs (Decidable (_ = _))
  | .kind _ => inferInstanceAs (Decidable (_ ∧ _))
  | .jobId _ | .jobIdMulti _ | .oneKind _ => isFalse id

variable {item}

theorem notifies_of_read {notification : ServiceMethodNotification}
    (h : item.message.intoMessage ServiceMethodNotification.reader = .ok notification) :
    item.notifies = some notification.jobName := by
  rw [notifies, h]
  rfl

theorem exists_read_of_notifies {jobName : String} (h : item.notifies = some jobName) :
    ∃ notification, item.message.intoMessage ServiceMethodNotification.reader = .ok notification ∧
      notification.jobName = jobName := by
  unfold notifies at h
  cases hread : item.message.intoMessage ServiceMethodNotification.reader with
  | error e => rw [hread] at h; cases h
  | ok notification =>
    rw [hread] at h
    exact ⟨notification, rfl, Option.some.inj h⟩

/-- Only service method notifications are read as such. -/
theorem kind_of_notifies {jobName : String} (h : item.notifies = some jobName) :
    item.kind = EMsg.kEMsgServiceMethod.kind := by
  obtain ⟨notification, hread, -⟩ := exists_read_of_notifies h
  exact (RawNetMessage.intoMessage_eq_ok_iff.mp hread).2.1

end Item

/-- The message was used up by a receiver of one's own, be it there or not. -/
def Fate.IsSingle : Fate → Prop
  | .delivered table _ | .lost table => table.IsSingle
  | .unprocessed | .ignored => False

instance : (table : Table) → Decidable table.IsSingle
  | .jobId | .jobIdMulti | .oneshotKind => isTrue trivial
  | .notification | .kind => isFalse id

instance : (fate : Fate) → Decidable fate.IsSingle
  | .delivered table _ | .lost table => inferInstanceAs (Decidable table.IsSingle)
  | .unprocessed | .ignored => isFalse id

namespace MessageFilter

variable {SteamID : Type} {shard : JobId → Nat} {f g : MessageFilter SteamID} {a : Action SteamID}
  {item : Item SteamID} {fate : Fate} {o : Origin} {c : ChanId} {since : Nat}

/-- The messages for the subscribers of an entry, from `since` on. -/
def published (f : MessageFilter SteamID) (o : Origin) (since : Nat) : List (Item SteamID) :=
  (f.fates.filter fun p => since ≤ p.1.seq ∧ p.1.IsFor o ∧ ¬ p.2.IsSingle).map Prod.fst

/-! ### Messages are looked up by their kind -/

section ByKind

/-- Notifications are looked up among the notifications, and other messages by their kind. -/
structure ByKind (f : MessageFilter SteamID) : Prop where
  notification : ∀ {item}, f.task = .notificationLookup item →
    item.kind = EMsg.kEMsgServiceMethod.kind
  kind : ∀ {item}, f.task = .kindLookup item → item.kind ≠ EMsg.kEMsgServiceMethod.kind
  delivered : ∀ {item receivers}, (item, .delivered .kind receivers) ∈ f.fates →
    item.kind ≠ EMsg.kEMsgServiceMethod.kind

theorem byKind_init : ({} : MessageFilter SteamID).ByKind where
  notification h := by cases h
  kind h := by cases h
  delivered h := by cases h

/-- A send to others than the subscribers of a kind. -/
theorem ByKind.of_deliver (hf : f.ByKind) {table : Table} {receivers : List ChanId}
    (h : table = .kind → item.kind ≠ EMsg.kEMsgServiceMethod.kind) :
    (f.deliver table item receivers).ByKind where
  notification htask := by rw [deliver_task] at htask; cases htask
  kind htask := by rw [deliver_task] at htask; cases htask
  delivered hmem := by
    rw [deliver_fates, List.mem_append, List.mem_singleton, Prod.mk.injEq] at hmem
    rcases hmem with hold | ⟨rfl, hfate⟩
    · exact hf.delivered hold
    · exact h (of_deliverFate_eq hfate.symm).1.symm

/-- A message that is put aside. -/
theorem ByKind.of_finish (hf : f.ByKind) (hfates : g.fates = f.fates ++ [(item, fate)])
    (htask : g.task = .awaiting) (hfate : ∀ table receivers, fate ≠ .delivered table receivers) :
    g.ByKind where
  notification h := by rw [htask] at h; cases h
  kind h := by rw [htask] at h; cases h
  delivered hmem := by
    rw [hfates, List.mem_append, List.mem_singleton, Prod.mk.injEq] at hmem
    exact hf.delivered (hmem.resolve_right fun h => hfate _ _ h.2.symm)

theorem ByKind.of_steps (hf : f.ByKind) (h : StepsTo f a g) : g.ByKind := by
  cases h with
  | register _ hreg =>
    refine ⟨fun htask => hf.notification (hreg.task ▸ htask), fun htask => hf.kind (hreg.task ▸ htask),
      fun hmem => hf.delivered (hreg.fates ▸ hmem)⟩
  | pull | stop =>
    exact ⟨fun htask => (by cases htask), fun htask => (by cases htask), hf.delivered⟩
  | complete | unprocessed | drop | recv | skip => exact ⟨hf.notification, hf.kind, hf.delivered⟩
  | dispatch hdispatch =>
    cases hdispatch with
    | jobSend | multiSend | kindOnceSend | notificationSend =>
      exact hf.of_deliver fun h => by cases h
    | kindSend htask => exact hf.of_deliver fun _ => hf.kind htask
    | notificationIgnored | restPush => exact hf.of_finish rfl rfl fun _ _ => by simp
    | toNotification _ _ hkind =>
      refine ⟨fun htask => ?_, fun htask => (by cases htask), hf.delivered⟩
      cases htask
      exact hkind
    | toKind _ _ hkind =>
      refine ⟨fun htask => (by cases htask), fun htask => ?_, hf.delivered⟩
      cases htask
      exact hkind
    | jobHit | jobMiss | multiHit | multiMiss | kindOnceHit | kindMiss =>
      exact ⟨fun htask => (by cases htask), fun htask => (by cases htask), hf.delivered⟩

theorem IsReachable.byKind (hf : f.IsReachable shard) : f.ByKind := by
  refine Reachable.invariant (I := ByKind) ?_ ?_ hf
  · rintro _ rfl
    exact byKind_init
  · exact fun s a t hs hstep => hs.of_steps (stepsTo_of_step hstep)

end ByKind

/-! ### What a subscriber hears of -/

section Hears

/-- The message in the task's hand is the last that was pulled. -/
theorem Routed.seq_of_item (hf : f.Routed) (hitem : f.task.item = some item) :
    item.seq + 1 = f.pulled := by
  have horder := hf.order
  rw [hitem] at horder
  have hlen := congrArg List.length horder
  have hlast := congrArg List.getLast? horder
  rw [List.length_append, List.length_range] at hlen
  simp only [Option.map_some, Option.toList_some, List.length_singleton] at hlen
  rw [Option.map_some, Option.toList_some, List.getLast?_append, List.getLast?_range,
    if_neg (by omega)] at hlast
  have hseq : item.seq = f.pulled - 1 := Option.some.inj hlast
  omega

/-- Messages that came to their end were pulled before. -/
theorem Routed.seq_lt (hf : f.Routed) (hmem : (item, fate) ∈ f.fates) : item.seq < f.pulled := by
  rw [← List.mem_range, ← hf.order]
  exact List.mem_append_left _ (List.mem_map.mpr ⟨_, hmem, rfl⟩)

/-- What a subscriber gets is for its entry, and was not used up by others. -/
theorem Routed.isFor (hf : f.Routed) (hkinds : f.ByKind) (ho : o.IsBroadcast)
    (hc : f.origins c = some o) (hmem : (item, fate) ∈ f.fates) (hreceives : c ∈ fate.receivers) :
    item.IsFor o ∧ ¬ fate.IsSingle := by
  cases fate with
  | lost | unprocessed | ignored => cases hreceives
  | delivered table receivers =>
    have hreg := hf.registered hmem c hreceives
    have hne : ∀ {o'}, ¬ o'.IsBroadcast → f.origins c ≠ some o' := by
      intro o' ho' h
      exact ho' (Option.some.inj (h.symm.trans hc) ▸ ho)
    cases table with
    | jobId | jobIdMulti | oneshotKind => exact absurd hreg (hne fun h => h)
    | notification =>
      obtain ⟨notification, hread, horigin⟩ := hreg
      obtain rfl := Option.some.inj (hc.symm.trans horigin)
      exact ⟨Item.notifies_of_read hread, fun h => h⟩
    | kind =>
      obtain rfl := Option.some.inj (hc.symm.trans hreg)
      exact ⟨⟨rfl, hkinds.delivered hmem⟩, fun h => h⟩

/-- A subscriber misses nothing that is published since it subscribed, and gets nothing from
before except a message that was on its way to the subscribers then. -/
structure Hears (f : MessageFilter SteamID) (o : Origin) (c : ChanId) (since : Nat) : Prop where
  since_le : since ≤ f.pulled
  recent : ∀ {item fate}, (item, fate) ∈ f.fates → c ∈ fate.receivers → since ≤ item.seq + 1
  resting : ∀ {item}, f.task = .restPush item → item.IsFor o → item.seq < since
  all : (f.channels c).alive = true → ∀ p ∈ f.fates, since ≤ p.1.seq → p.1.IsFor o →
    ¬ p.2.IsSingle → c ∈ p.2.receivers

/-- A new subscriber has missed nothing. -/
theorem Registers.hears (hf : f.Routed) (hown : f.Owned) (h : Registers f o g) :
    g.Hears o f.nextChan f.pulled where
  since_le := h.pulled.ge
  recent {item fate} hmem hreceives := by
    rw [h.fates] at hmem
    have hinbox : item ∈ (f.channels f.nextChan).inbox := by
      rw [hf.inbox, delivered]
      exact List.mem_map.mpr ⟨_, List.mem_filter.mpr ⟨hmem, decide_eq_true hreceives⟩, rfl⟩
    rw [(hown.fresh (Nat.le_refl _)).1] at hinbox
    cases hinbox
  resting {item} htask _ := by
    rw [h.task] at htask
    have hseq := @Routed.seq_of_item _ _ item hf (by rw [htask]; rfl)
    omega
  all _ p hmem hsince _ _ := by
    rw [h.fates] at hmem
    have hlt := hf.seq_lt hmem
    omega

/-- A notification is ignored only when nobody subscribed to it. -/
theorem ignored_of_dispatch (h : f.dispatch = some g) (htask : f.task = .notificationLookup item) :
    (∃ notification receivers,
      item.message.intoMessage ServiceMethodNotification.reader = .ok notification ∧
        f.notificationFilters notification.jobName = some receivers ∧
          g = f.deliver .notification item receivers) ∨
      g = f.finish item .ignored ∧
        ∀ jobName, item.notifies = some jobName → f.notificationFilters jobName = none := by
  unfold dispatch at h
  rw [htask] at h
  dsimp only at h
  split at h <;> rename_i hread
  · rename_i notification
    split at h <;> rename_i hslot <;> cases h
    · exact .inl ⟨notification, _, hread, hslot, rfl⟩
    · refine .inr ⟨rfl, fun jobName hname => ?_⟩
      obtain rfl := Option.some.inj ((Item.notifies_of_read hread).symm.trans hname)
      exact hslot
  · cases h
    refine .inr ⟨rfl, fun jobName hname => ?_⟩
    obtain ⟨notification, hok, -⟩ := Item.exists_read_of_notifies hname
    rw [hok] at hread
    cases hread

/-- A message that comes to its end in a step. -/
theorem Hears.of_append (hf : f.Hears o c since) (hrouted : f.Routed)
    (hitem : f.task.item = some item) (hfates : g.fates = f.fates ++ [(item, fate)])
    (hpulled : g.pulled = f.pulled) (htask : g.task = .awaiting)
    (halive : (g.channels c).alive = true → (f.channels c).alive = true)
    (hnew : (f.channels c).alive = true → since ≤ item.seq → item.IsFor o → ¬ fate.IsSingle →
      c ∈ fate.receivers) : g.Hears o c since where
  since_le := hpulled ▸ hf.since_le
  recent hmem hreceives := by
    rw [hfates, List.mem_append, List.mem_singleton] at hmem
    rcases hmem with hold | hlast
    · exact hf.recent hold hreceives
    · cases hlast
      rw [hrouted.seq_of_item hitem]
      exact hf.since_le
  resting h := by rw [htask] at h; cases h
  all halive' p hmem hsince hfor hsingle := by
    rw [hfates, List.mem_append, List.mem_singleton] at hmem
    rcases hmem with hold | rfl
    · exact hf.all (halive halive') p hold hsince hfor hsingle
    · exact hnew (halive halive') hsince hfor hsingle

/-- A step of the task that looks on. -/
theorem Hears.of_look (hf : f.Hears o c since) (h : LooksOn f g) (hpulled : g.pulled = f.pulled)
    (hrest : ∀ {item}, g.task = .restPush item → item.IsFor o → item.seq < since) :
    g.Hears o c since where
  since_le := hpulled ▸ hf.since_le
  recent hmem := hf.recent (h.fates ▸ hmem)
  resting := hrest
  all halive p hmem := hf.all (h.channels ▸ halive) p (h.fates ▸ hmem)

/-- A receiver that exists gets what is sent to it. -/
theorem mem_receivers_deliverFate {table : Table} {receivers : List ChanId} (hc : c ∈ receivers)
    (halive : (f.channels c).alive = true) : c ∈ (f.deliverFate table receivers).receivers := by
  rw [receivers_deliverFate]
  exact List.mem_filter.mpr ⟨hc, halive⟩

/-- Whatever is sent by a table of single receivers is used up. -/
theorem isSingle_deliverFate {table : Table} (receivers : List ChanId) :
    (f.deliverFate table receivers).IsSingle ↔ table.IsSingle := by
  unfold deliverFate
  dsimp only
  split_ifs <;> rfl

/-- The task's steps keep a subscriber from missing anything. -/
theorem Hears.of_dispatch (hf : f.Hears o c since) (hrouted : f.Routed) (hkinds : f.ByKind)
    (ho : o.IsBroadcast) (hstored : f.Stored o c) (h : f.dispatch = some g) :
    g.Hears o c since := by
  have hsent : ∀ {table item receivers}, f.task.item = some item →
      (table.IsSingle ∨ (item.IsFor o → c ∈ receivers)) →
        (f.deliver table item receivers).Hears o c since := by
    intro table item receivers hitem hreceives
    refine hf.of_append hrouted hitem (deliver_fates ..) (deliver_pulled ..) (deliver_task ..)
      (fun h => by rwa [deliver_alive] at h) fun halive _ hfor hsingle => ?_
    rw [isSingle_deliverFate] at hsingle
    exact mem_receivers_deliverFate (hreceives.resolve_left hsingle hfor) halive
  have hdispatch := dispatches_of_eq_some h
  cases hdispatch with
  | jobSend htask | multiSend htask | kindOnceSend htask =>
    exact hsent (by rw [htask]; rfl) (.inl trivial)
  | @kindSend item receivers htask hslot =>
    refine hsent (by rw [htask]; rfl) (.inr fun hfor => ?_)
    cases o with
    | jobId | jobIdMulti | oneKind => exact ho.elim
    | notification => exact absurd (Item.kind_of_notifies hfor) (hkinds.kind htask)
    | kind kind =>
      obtain ⟨rfl, -⟩ := hfor
      simpa [Stored, hslot] using hstored
  | @notificationSend item notification receivers htask hread hslot =>
    refine hsent (by rw [htask]; rfl) (.inr fun hfor => ?_)
    cases o with
    | jobId | jobIdMulti | oneKind => exact ho.elim
    | kind kind =>
      obtain ⟨rfl, hne⟩ := hfor
      exact absurd (hkinds.notification htask) hne
    | notification jobName =>
      obtain rfl := Option.some.inj ((Item.notifies_of_read hread).symm.trans hfor)
      simpa [Stored, hslot] using hstored
  | @notificationIgnored item htask =>
    refine hf.of_append hrouted (by rw [htask]; rfl) rfl rfl rfl id fun _ _ hfor _ => ?_
    -- there would be an entry with this subscriber
    rcases ignored_of_dispatch h htask with ⟨_, _, _, _, heq⟩ | ⟨-, hnone⟩
    · have hfates := congrArg fates heq
      rw [deliver_fates] at hfates
      have hlast : (item, Fate.ignored) = (item, f.deliverFate .notification _) :=
        List.singleton_inj.mp (List.append_cancel_left hfates)
      unfold deliverFate at hlast
      dsimp only at hlast
      split_ifs at hlast <;> cases hlast
    · cases o with
      | jobId | jobIdMulti | oneKind => exact ho.elim
      | kind kind =>
        obtain ⟨rfl, hne⟩ := hfor
        exact absurd (hkinds.notification htask) hne
      | notification jobName => simp [Stored, hnone jobName hfor] at hstored
  | @restPush item htask =>
    refine hf.of_append hrouted (by rw [htask]; rfl) rfl rfl rfl id fun _ hsince hfor _ => ?_
    have hlt := hf.resting htask hfor
    omega
  | @kindMiss item htask hslot =>
    refine hf.of_look ⟨rfl, rfl, rfl, rfl, rfl, by rw [htask]; rfl⟩ rfl fun hrest hfor => ?_
    cases hrest
    cases o with
    | jobId | jobIdMulti | oneKind => exact ho.elim
    | notification => exact absurd (Item.kind_of_notifies hfor) (hkinds.kind htask)
    | kind kind =>
      obtain ⟨rfl, -⟩ := hfor
      simp [Stored, hslot] at hstored
  | jobHit htask | jobMiss htask | multiHit htask | multiMiss htask | kindOnceHit htask
  | toNotification htask | toKind htask =>
    exact hf.of_look ⟨rfl, rfl, rfl, rfl, rfl, by rw [htask]; rfl⟩ rfl fun hrest => by cases hrest

/-- Every step keeps a subscriber from missing anything. -/
theorem Hears.of_step (hf : f.Hears o c since) (hreach : f.IsReachable shard) (ho : o.IsBroadcast)
    (hc : f.origins c = some o) (h : f.step shard a = some g) : g.Hears o c since := by
  obtain ⟨hown, hrouted⟩ := hreach.routed
  have hsteps := stepsTo_of_step h
  by_cases ha : a = .dispatch
  · subst ha
    have hstored := hreach.subscribers.stored ho hc
    exact hf.of_dispatch hrouted hreach.byKind ho hstored h
  have halive : (g.channels c).alive = true → (f.channels c).alive = true := fun h =>
    (hsteps.alive_of h).resolve_right fun h => hown.ne_nextChan hc h.1
  have hall := fun halive' => hf.all (halive halive')
  cases hsteps with
  | register _ hreg =>
    exact ⟨hreg.pulled ▸ hf.since_le, fun hmem => hf.recent (hreg.fates ▸ hmem),
      fun htask => hf.resting (hreg.task ▸ htask),
      fun halive' p hmem => hall halive' p (hreg.fates ▸ hmem)⟩
  | pull =>
    exact ⟨hf.since_le.trans (Nat.le_succ _), hf.recent, fun htask => (by cases htask), hall⟩
  | stop => exact ⟨hf.since_le, hf.recent, fun htask => (by cases htask), hall⟩
  | dispatch => exact absurd rfl ha
  | complete | unprocessed | drop | recv | skip => exact ⟨hf.since_le, hf.recent, hf.resting, hall⟩

/-- Inboxes only grow. -/
theorem Owned.inbox_prefix_of_steps (hf : f.Owned) (h : StepsTo f a g) (hc : f.origins c = some o) :
    (f.channels c).inbox <+: (g.channels c).inbox := by
  by_cases ha : a = .dispatch
  · subst ha
    rcases hf.dispatch_cases h.dispatches with hlooks | ⟨item, -, -, ⟨_, _, hsends⟩ | haside⟩
    · exact hlooks.channels ▸ List.prefix_refl _
    · rw [hsends.eq, deliver_channels]
      split_ifs
      · exact List.prefix_append _ _
      · exact List.prefix_refl _
    · exact haside.channels ▸ List.prefix_refl _
  · exact h.inbox_eq ha (.inl (hf.ne_nextChan hc)) ▸ List.prefix_refl _

/-- The messages that a subscriber has received since it subscribed are those that were published. -/
theorem Hears.filter_inbox (hf : f.Hears o c since) (hrouted : f.Routed) (hkinds : f.ByKind)
    (ho : o.IsBroadcast) (hc : f.origins c = some o) (halive : (f.channels c).alive = true) :
    (f.channels c).inbox.filter (fun item => since ≤ item.seq) = f.published o since := by
  rw [hrouted.inbox c, delivered, published, List.filter_map, List.filter_filter]
  congr 1
  refine List.filter_congr fun p hp => ?_
  obtain ⟨item, fate⟩ := p
  by_cases hsince : since ≤ item.seq
  · have hiff : c ∈ fate.receivers ↔ item.IsFor o ∧ ¬ fate.IsSingle :=
      ⟨hrouted.isFor hkinds ho hc hp, fun h => hf.all halive _ hp hsince h.1 h.2⟩
    simp [hsince, hiff]
  · simp [hsince]

end Hears

end MessageFilter

/-! ### The streams of a connection -/

/-- A stream of a subscription. Its receiver counts for itself how many messages it has taken;
`since` is how many had been pulled when it was made, and `log` what it was told. -/
structure Subscription (SteamID : Type) where
  origin : Origin
  chan : ChanId
  since : Nat
  taken : Nat := 0
  log : List (Report (Item SteamID)) := []

namespace Subscription

variable {SteamID T : Type}

/-- The receiving end of the stream. -/
def receiver (sub : Subscription SteamID) (f : MessageFilter SteamID) : Channel (Item SteamID) :=
  { f.channels sub.chan with taken := sub.taken }

variable (sub : Subscription SteamID)

/-- The results `on_with_header` gives out. -/
def onWithHeader (reader : BodyReader SteamID T) :
    List (Except NetworkError (NetMessageHeader SteamID × T)) :=
  sub.log.map fun report => do
    let item ← report.mapError fun _ => NetworkError.eof
    item.message.intoHeaderAndMessage reader

/-- The results `on` gives out. -/
def on (reader : BodyReader SteamID T) : List (Except NetworkError T) :=
  (sub.onWithHeader reader).map fun res => res.map Prod.snd

/-- The results `on_notification` gives out. -/
def onNotification (reqName : String) (parse : Bytes → Except MessageBodyError T) :
    List (Except NetworkError T) :=
  (Report.got sub.log).map fun item => do
    let notification ← item.message.intoMessage ServiceMethodNotification.reader
    notification.intoNotification reqName parse

end Subscription

/-- A connection with the streams made of it. -/
structure Subscriber (SteamID : Type) where
  filter : MessageFilter SteamID := {}
  streams : List (Subscription SteamID) := []

namespace Subscriber

variable {SteamID : Type}

/-- What can happen: a stream is made, polled or dropped, or others use the filter. -/
inductive Action (SteamID : Type) where
  | onNotification (jobName : String)
  | onKind (kind : MsgKind)
  | poll (i : Nat)
  | drop (i : Nat)
  | filter (a : MessageFilter.Action SteamID)

/-- The stream of a new subscription. -/
def subscribe (s : Subscriber SteamID) (origin : Origin) (filter : MessageFilter SteamID) :
    Subscriber SteamID where
  filter
  streams := s.streams ++
    [{ origin, chan := s.filter.nextChan, since := s.filter.pulled }]

/-- Others have no hand in the receivers of streams. -/
def Permits (s : Subscriber SteamID) : MessageFilter.Action SteamID → Prop
  | .recv c | .dropReceiver c => ∀ sub ∈ s.streams, sub.chan ≠ c
  | _ => True

instance (s : Subscriber SteamID) : (a : MessageFilter.Action SteamID) → Decidable (s.Permits a)
  | .recv _ | .dropReceiver _ => inferInstanceAs (Decidable (∀ sub ∈ s.streams, _))
  | .onJobId _ | .onJobIdMulti _ | .completeJobIdMulti _ | .onNotification _ | .onKind _
  | .oneKind _ | .unprocessed | .next _ | .dispatch => isTrue trivial

/-- One step. -/
def step (shard : JobId → Nat) (s : Subscriber SteamID) :
    Action SteamID → Option (Subscriber SteamID)
  | .onNotification jobName =>
    some (s.subscribe (.notification jobName) (s.filter.onNotification jobName))
  | .onKind kind => some (s.subscribe (.kind kind) (s.filter.onKind kind))
  | .poll i => do
    let sub ← s.streams[i]?
    if (s.filter.channels sub.chan).alive then
      let (report, receiver) ← (sub.receiver s.filter).poll MessageFilter.channelCapacity
      let sub := { sub with taken := receiver.taken, log := sub.log ++ [report] }
      return { s with streams := s.streams.set i sub }
    else none
  | .drop i => do
    let sub ← s.streams[i]?
    return { s with filter := s.filter.dropReceiver sub.chan }
  | .filter a =>
    if s.Permits a then (s.filter.step shard a).map fun filter => { s with filter } else none

/-- The states that a connection without subscriptions can reach. -/
abbrev IsReachable (shard : JobId → Nat) : Subscriber SteamID → Prop :=
  Reachable (step shard) (· = {})

variable {shard : JobId → Nat} {s t : Subscriber SteamID} {a : Action SteamID}

/-- What a step can be. -/
inductive StepsTo (shard : JobId → Nat) (s : Subscriber SteamID) :
    Action SteamID → Subscriber SteamID → Prop
  | subscribe {a : Action SteamID} {b : MessageFilter.Action SteamID} {o : Origin}
      {filter : MessageFilter SteamID} (ha : ∀ i, a ≠ .poll i) (ho : o.IsBroadcast)
      (hstep : s.filter.step shard b = some filter) (hreg : s.filter.Registers o filter) :
      StepsTo shard s a (s.subscribe o filter)
  | poll {i : Nat} {sub : Subscription SteamID} {report : Report (Item SteamID)}
      {receiver : Channel (Item SteamID)} (hsub : s.streams[i]? = some sub)
      (hpoll : (sub.receiver s.filter).poll MessageFilter.channelCapacity = some (report, receiver)) :
      StepsTo shard s (.poll i)
        { s with
          streams := s.streams.set i
            { sub with taken := receiver.taken, log := sub.log ++ [report] } }
  | filter {a : Action SteamID} {b : MessageFilter.Action SteamID}
      {filter : MessageFilter SteamID} (ha : ∀ i, a ≠ .poll i)
      (hstep : s.filter.step shard b = some filter) :
      StepsTo shard s a { s with filter }

theorem stepsTo_of_step (h : s.step shard a = some t) : StepsTo shard s a t := by
  cases a with
  | onNotification jobName =>
    cases h
    exact .subscribe (b := .onNotification jobName) (fun _ => by simp) trivial rfl
      (MessageFilter.registers_onNotification _ jobName)
  | onKind kind =>
    cases h
    exact .subscribe (b := .onKind kind) (fun _ => by simp) trivial rfl
      (MessageFilter.registers_onKind _ kind)
  | poll i =>
    obtain ⟨sub, hsub, h⟩ := Option.bind_eq_some_iff.mp h
    obtain ⟨-, h⟩ := Option.ite_none_right_eq_some.mp h
    obtain ⟨⟨report, receiver⟩, hpoll, h⟩ := Option.bind_eq_some_iff.mp h
    cases h
    exact .poll hsub hpoll
  | drop i =>
    obtain ⟨sub, -, h⟩ := Option.bind_eq_some_iff.mp h
    cases h
    exact .filter (b := .dropReceiver sub.chan) (fun _ => by simp) rfl
  | filter fa =>
    obtain ⟨-, h⟩ := Option.ite_none_right_eq_some.mp h
    obtain ⟨filter, hstep, rfl⟩ := Option.map_eq_some_iff.mp h
    exact .filter (fun _ => by simp) hstep

/-! ### Streams hear of everything -/

section Hears

/-- What is known of a stream: its receiver is a subscriber that has missed nothing, and its log
tells what the receiver took. -/
structure Keeps (f : MessageFilter SteamID) (sub : Subscription SteamID) : Prop where
  broadcast : sub.origin.IsBroadcast
  origin : f.origins sub.chan = some sub.origin
  hears : f.Hears sub.origin sub.chan sub.since
  logs : (sub.receiver f).Logs sub.log

variable {sub : Subscription SteamID} {f g : MessageFilter SteamID}

/-- Every step of the filter keeps a stream. -/
theorem Keeps.of_filter (h : Keeps f sub) (hf : f.IsReachable shard)
    {b : MessageFilter.Action SteamID} (hstep : f.step shard b = some g) : Keeps g sub where
  broadcast := h.broadcast
  origin := by
    rw [(MessageFilter.stepsTo_of_step hstep).origins_eq (.inl (hf.owned.ne_nextChan h.origin))]
    exact h.origin
  hears := h.hears.of_step hf h.broadcast h.origin hstep
  logs := by
    have hsteps := MessageFilter.stepsTo_of_step hstep
    exact h.logs.of_prefix (hf.owned.inbox_prefix_of_steps hsteps h.origin) rfl

/-- A new stream has missed nothing. -/
theorem keeps_of_registers {o : Origin} (hf : f.IsReachable shard) (ho : o.IsBroadcast)
    (h : f.Registers o g) :
    Keeps g { origin := o, chan := f.nextChan, since := f.pulled } where
  broadcast := ho
  origin := h.origins_new
  hears := h.hears hf.routed.2 hf.routed.1
  logs := Channel.logs_nil rfl

/-- A stream keeps its log. -/
theorem Keeps.of_poll (h : Keeps f sub) {report : Report (Item SteamID)}
    {receiver : Channel (Item SteamID)} {capacity : Nat}
    (hpoll : (sub.receiver f).poll capacity = some (report, receiver)) :
    Keeps f { sub with taken := receiver.taken, log := sub.log ++ [report] } where
  broadcast := h.broadcast
  origin := h.origin
  hears := h.hears
  logs := by
    have hlogs := h.logs.of_poll hpoll
    have hsame := Channel.inbox_of_poll hpoll
    exact hlogs.of_prefix (hsame.1 ▸ List.prefix_refl _) rfl

/-- Every step keeps all streams. -/
theorem keeps_of_stepsTo (hs : s.filter.IsReachable shard) (hkeeps : ∀ sub ∈ s.streams, Keeps s.filter sub)
    (h : StepsTo shard s a t) : ∀ sub ∈ t.streams, Keeps t.filter sub := by
  intro sub hmem
  cases h with
  | subscribe _ ho hstep hreg =>
    rcases List.mem_append.mp hmem with hold | hnew
    · exact (hkeeps sub hold).of_filter hs hstep
    · rw [List.mem_singleton.mp hnew]
      exact keeps_of_registers hs ho hreg
  | poll hsub hpoll =>
    rcases List.mem_or_eq_of_mem_set hmem with hold | rfl
    · exact hkeeps sub hold
    · exact (hkeeps _ (List.mem_of_getElem? hsub)).of_poll hpoll
  | filter _ hstep => exact (hkeeps sub hmem).of_filter hs hstep

/-- The steps of the streams are steps of the filter, or do not change it, and they keep all
streams. -/
theorem IsReachable.keeps (hs : s.IsReachable shard) :
    s.filter.IsReachable shard ∧ ∀ sub ∈ s.streams, Keeps s.filter sub := by
  refine Reachable.invariant
    (I := fun s => s.filter.IsReachable shard ∧ ∀ sub ∈ s.streams, Keeps s.filter sub) ?_ ?_ hs
  · rintro _ rfl
    exact ⟨.of_init rfl, fun _ h => by cases h⟩
  · intro s a t hs h
    have hsteps := stepsTo_of_step h
    refine ⟨?_, keeps_of_stepsTo hs.1 hs.2 hsteps⟩
    cases hsteps with
    | subscribe _ _ hstep => exact hs.1.next hstep
    | poll => exact hs.1
    | filter _ hstep => exact hs.1.next hstep

/-- Messages come to a receiver in the order in which they were pulled. -/
theorem pairwise_inbox (hf : f.Routed) (c : ChanId) :
    (f.channels c).inbox.Pairwise fun x y => x.seq < y.seq := by
  have hrange := List.pairwise_lt_range (n := f.pulled)
  rw [← hf.order, List.pairwise_append] at hrange
  rw [hf.inbox c, MessageFilter.delivered, List.pairwise_map]
  exact (List.pairwise_map.mp hrange.1).filter _

/-- Of messages in the order of their numbers, that begin with `n - 1` at the earliest, the first
at most is not from `n` on. -/
theorem exists_early_of_pairwise {items : List (Item SteamID)} {n : Nat}
    (hitems : items.Pairwise fun x y => x.seq < y.seq) (hrecent : ∀ x ∈ items, n ≤ x.seq + 1) :
    ∃ early : Option (Item SteamID), (∀ x ∈ early, x.seq + 1 = n ∧ x ∈ items) ∧
      items = early.toList ++ items.filter fun x => n ≤ x.seq := by
  cases items with
  | nil => exact ⟨none, fun _ hx => absurd hx (Option.not_mem_none _), rfl⟩
  | cons x rest =>
    obtain ⟨hx, -⟩ := List.pairwise_cons.mp hitems
    have hle := hrecent x List.mem_cons_self
    -- behind the first message all are from `n` on
    have hrest : rest.filter (fun x => n ≤ x.seq) = rest := by
      refine List.filter_eq_self.mpr fun y hy => decide_eq_true ?_
      have hlt := hx y hy
      omega
    by_cases hn : n ≤ x.seq
    · exact ⟨none, fun _ hx => absurd hx (Option.not_mem_none _), by simp [hn, hrest]⟩
    · refine ⟨some x, fun y hy => ?_, by simp [hn, hrest]⟩
      obtain rfl := Option.some.inj hy
      exact ⟨by omega, List.mem_cons_self⟩

/-- The log of a stream tells the messages that its receiver took, one by one or by their
number, and while the stream exists its receiver has all that was published since it was made. In
front of that may be the message that had been pulled last when it was made, if that one was on its
way to the subscribers of the same entry. -/
structure HearsAll (f : MessageFilter SteamID) (sub : Subscription SteamID) : Prop where
  reports : Reports sub.log ((f.channels sub.chan).inbox.take sub.taken)
  inbox : (f.channels sub.chan).alive = true → ∃ early : Option (Item SteamID),
    (∀ item ∈ early, item.seq + 1 = sub.since ∧ item.IsFor sub.origin) ∧
      (f.channels sub.chan).inbox = early.toList ++ f.published sub.origin sub.since

/-- In every reachable state, every stream has heard all that it should. -/
theorem hearsAll_of_reachable (hs : s.IsReachable shard) :
    ∀ sub ∈ s.streams, HearsAll s.filter sub := by
  intro sub hmem
  obtain ⟨hreach, hkeeps⟩ := hs.keeps
  obtain ⟨ho, horigin, hhears, hlogs⟩ := hkeeps sub hmem
  have hrouted := hreach.routed.2
  refine ⟨hlogs.reports, fun halive => ?_⟩
  have hrecent : ∀ item ∈ (s.filter.channels sub.chan).inbox, sub.since ≤ item.seq + 1 := by
    intro item hitem
    obtain ⟨table, receivers, hfate, hc⟩ := hrouted.exists_fate hitem
    exact hhears.recent hfate hc
  obtain ⟨early, hearly, hinbox⟩ := exists_early_of_pairwise (pairwise_inbox hrouted _) hrecent
  rw [hhears.filter_inbox hrouted hreach.byKind ho horigin halive] at hinbox
  refine ⟨early, fun item hmem => ⟨(hearly item hmem).1, ?_⟩, hinbox⟩
  obtain ⟨table, receivers, hfate, hc⟩ := hrouted.exists_fate (hearly item hmem).2
  exact (hrouted.isFor hreach.byKind ho horigin hfate hc).1

/-- A stream of logon responses is seventeen of them behind when it is polled first. -/
def behindRun : List (Action UInt64) :=
  .onKind MessageFilter.logOnResponse.kind ::
    (List.replicate 17
      [.filter (.next (some (.ok MessageFilter.logOnResponse))), .filter .dispatch,
        .filter .dispatch, .filter .dispatch, .filter .dispatch]).flatten ++ [.poll 0, .poll 0]

theorem hearsAll_of_reachable_behind :
    ∃ s, run (step fun _ => 0) {} behindRun = some s ∧ ∀ sub ∈ s.streams, HearsAll s.filter sub :=
  ⟨_, rfl, @hearsAll_of_reachable UInt64 (fun _ => 0) _ ⟨{}, behindRun, rfl, rfl⟩⟩

end Hears

/-! ### Streams read messages of their own -/

section Reads

variable {sub : Subscription SteamID} {f : MessageFilter SteamID} {item : Item SteamID}

/-- What a stream got is for its entry. -/
theorem Keeps.isFor (h : Keeps f sub) (hf : f.IsReachable shard) (hmem : item ∈ Report.got sub.log) :
    item.IsFor sub.origin := by
  have hinbox : item ∈ (f.channels sub.chan).inbox :=
    List.mem_of_mem_take (h.logs.reports.sublist.subset hmem)
  have hrouted := hf.routed.2
  obtain ⟨_, _, hfate, hc⟩ := hrouted.exists_fate hinbox
  exact (hrouted.isFor hf.byKind h.broadcast h.origin hfate hc).1

theorem mem_got_of_mem {log : List (Report (Item SteamID))} (h : .ok item ∈ log) :
    item ∈ Report.got log :=
  List.mem_filterMap.mpr ⟨_, h, rfl⟩

/-- What a stream of a kind gives out is what it reads of a message of that kind, or the error
for a gap, and what a stream of notifications gives out are the requests in messages that name its
method, be they readable or not. -/
structure ReadsOwn (T : Type) (sub : Subscription SteamID) : Prop where
  onWithHeader : ∀ reader : BodyReader SteamID T, sub.origin = .kind reader.kind →
    ∀ res ∈ sub.onWithHeader reader, res = .error .eof ∨
      ∃ item ∈ Report.got sub.log, item.kind = reader.kind ∧
        res = item.message.intoHeaderAndMessage reader
  onNotification : ∀ reqName (parse : Bytes → Except MessageBodyError T),
    sub.origin = .notification reqName →
      sub.onNotification reqName parse = (Report.got sub.log).map fun item =>
        (parse item.message.data).mapError (.malformedBody EMsg.kEMsgServiceMethod.kind)

/-- In every reachable state, every stream has read messages of its own. -/
theorem readsOwn_of_reachable {T : Type} (hs : s.IsReachable shard) :
    ∀ sub ∈ s.streams, ReadsOwn T sub := by
  intro sub hmem
  obtain ⟨hreach, hkeeps⟩ := hs.keeps
  have hfor := fun item => @Keeps.isFor _ shard _ _ item (hkeeps sub hmem) hreach
  refine ⟨fun reader horigin res hres => ?_, fun reqName parse horigin => ?_⟩
  · obtain ⟨report, hreport, rfl⟩ := List.mem_map.mp hres
    cases report with
    | error lost => exact .inl rfl
    | ok item =>
      have hgot := mem_got_of_mem hreport
      have hkind := hfor item hgot
      rw [horigin] at hkind
      exact .inr ⟨item, hgot, hkind.1, rfl⟩
  · refine List.map_congr_left fun item hgot => ?_
    have hname := hfor item hgot
    rw [horigin] at hname
    obtain ⟨notification, hread, hjob⟩ := Item.exists_read_of_notifies hname
    have hbody := (RawNetMessage.intoMessage_eq_ok_iff.mp hread).2.2
    cases hbody
    rw [hread]
    exact if_pos hjob

theorem readsOwn_of_reachable_behind :
    ∃ s, run (step fun _ => 0) {} behindRun = some s ∧ ∀ sub ∈ s.streams, ReadsOwn Unit sub :=
  ⟨_, rfl, @readsOwn_of_reachable UInt64 (fun _ => 0) _ Unit ⟨{}, behindRun, rfl, rfl⟩⟩

end Reads

/-! ### Streams that keep up -/

section KeepsUp

/-- Every stream gave out all the messages it took. -/
def LosesNothing (s : Subscriber SteamID) : Prop :=
  ∀ sub ∈ s.streams, Report.got sub.log = (s.filter.channels sub.chan).inbox.take sub.taken

/-- A stream that is polled is not more than sixteen messages behind. -/
def KeepsUp (s : Subscriber SteamID) (a : Action SteamID) : Prop :=
  ∀ i, a = .poll i → ∀ sub ∈ s.streams[i]?,
    (sub.receiver s.filter).unread.length ≤ MessageFilter.channelCapacity

/-- Losses are counted. -/
theorem losesNothing_iff (hs : s.IsReachable shard) :
    s.LosesNothing ↔ ∀ sub ∈ s.streams, Report.lost sub.log = 0 :=
  forall₂_congr fun sub hmem => (hs.keeps.2 sub hmem).logs.reports.got_eq_iff

/-- The streams lose nothing in all states of a run exactly when each of them is polled in time
in every step. -/
theorem keepsUp_iff (w : List (Action SteamID)) :
    AllStates (step shard) LosesNothing {} w ↔ AllSteps (step shard) KeepsUp {} w := by
  refine allStates_iff_allSteps
    (I := fun s : Subscriber SteamID => s.IsReachable shard ∧ s.LosesNothing)
    (fun s hs => hs.2) ?_ ?_ ⟨.of_init rfl, fun _ h => by cases h⟩ w
  · intro s a t ⟨hs, hnone⟩ hup h
    have ht := hs.next h
    refine ⟨ht, (losesNothing_iff ht).mpr fun sub hmem => ?_⟩
    have hnone := (losesNothing_iff hs).mp hnone
    cases stepsTo_of_step h with
    | subscribe =>
      rcases List.mem_append.mp hmem with hold | hnew
      · exact hnone sub hold
      · rw [List.mem_singleton.mp hnew]
        rfl
    | @poll i sub' report receiver hsub hpoll =>
      rcases List.mem_or_eq_of_mem_set hmem with hold | rfl
      · exact hnone sub hold
      · have hle := hup i rfl sub' hsub
        dsimp only
        rw [Channel.lost_of_poll hpoll, hnone sub' (List.mem_of_getElem? hsub)]
        omega
    | filter => exact hnone sub hmem
  · intro s a t ⟨hs, hnone⟩ hup h hlost
    have hnone := (losesNothing_iff hs).mp hnone
    have hlost := (losesNothing_iff (hs.next h)).mp hlost
    -- the receiver that is polled has lost what it had to wait for too long
    refine hup fun i ha sub hsub => ?_
    subst ha
    cases stepsTo_of_step h with
    | filter ha | subscribe ha => exact absurd rfl (ha i)
    | @poll _ sub' report receiver hsub' hpoll =>
      obtain rfl := Option.some.inj (hsub'.symm.trans hsub)
      have hlt := (List.getElem?_eq_some_iff.mp hsub').1
      have hsum := hlost _ (List.mem_set hlt _)
      dsimp only at hsum
      rw [Channel.lost_of_poll hpoll] at hsum
      omega

end KeepsUp

end Subscriber

end SteamWire
