import SteamWire.Connection.FilterStep

/-!
# Who holds the sending ends

A sending end is stored in the table it was registered in, or held by the task between
the lookup that found it and the send. Each step moves sending ends in one way only: a
registration stores the end of a new channel, a lookup takes one into the task's hand,
and everything else keeps or forgets them. So the registration that made a channel tells
where its sending end can be, and a one-shot receiver whose sending end is still stored
or held has received nothing (`Owned`).
-/

namespace SteamWire

open Semantics

/-- Registrations whose receiver waits for one message. -/
def Origin.OneShot : Origin → Prop
  | .jobId _ | .oneKind _ => True
  | _ => False

theorem Origin.oneShot_oneKind (kind : MsgKind) : (Origin.oneKind kind).OneShot := trivial

theorem Origin.OneShot.not_isBroadcast {o : Origin} (h : o.OneShot) : ¬ o.IsBroadcast := by
  cases o <;> first | exact not_false | exact h.elim

/-- The message was looked up for a job. -/
def Fate.ByJob : Fate → Prop
  | .delivered .jobId _ | .delivered .jobIdMulti _ | .lost .jobId | .lost .jobIdMulti => True
  | _ => False

instance (fate : Fate) : Decidable fate.ByJob := by
  unfold Fate.ByJob
  split <;> infer_instance

namespace FilterTask

variable {SteamID : Type}

/-- The sending end the task holds, with the registration it looked up. -/
def held : FilterTask SteamID → Option (Origin × ChanId)
  | .jobSend item tx => some (.jobId item.target, tx)
  | .multiSend item tx => some (.jobIdMulti item.target, tx)
  | .kindOnceSend item tx => some (.oneKind item.kind, tx)
  | _ => none

/-- The message the task is busy with. -/
def item : FilterTask SteamID → Option (Item SteamID)
  | .jobLookup item | .jobSend item _ | .multiLookup item | .multiSend item _
  | .kindOnceLookup item | .kindOnceSend item _ | .notificationLookup item | .kindLookup item
  | .restPush item => some item
  | .awaiting | .stopped => none

/-- The message no job was found for. -/
def pastJob : FilterTask SteamID → Option (Item SteamID)
  | .multiLookup item | .multiSend item _ | .kindOnceLookup item | .kindOnceSend item _
  | .notificationLookup item | .kindLookup item | .restPush item => some item
  | _ => none

/-- The message the task has looked up among the one-shot waiters. -/
def pastOneShot : FilterTask SteamID → Option (Item SteamID)
  | .kindOnceSend item _ | .notificationLookup item | .kindLookup item | .restPush item => some item
  | _ => none

theorem item_of_pastJob {task : FilterTask SteamID} {item : Item SteamID}
    (h : task.pastJob = some item) : task.item = some item := by
  cases task <;> first | exact h | cases h

theorem item_of_pastOneShot {task : FilterTask SteamID} {item : Item SteamID}
    (h : task.pastOneShot = some item) : task.item = some item := by
  cases task <;> first | exact h | cases h

end FilterTask

namespace MessageFilter

variable {SteamID : Type} {shard : JobId → Nat} {f g : MessageFilter SteamID} {a : Action SteamID}
  {o : Origin} {c : ChanId}

/-! ### What a step does to the sending ends -/

section Steps

@[simp] theorem stored_deliver {table : Table} {item : Item SteamID} {receivers : List ChanId} :
    (f.deliver table item receivers).Stored o c ↔ f.Stored o c := by
  cases o <;> simp [Stored, deliver_eq]

/-- A lookup that finds a sending end in a one-shot slot leaves the slot empty. -/
private theorem update_none_eq_some {K : Type*} [DecidableEq K] {table : K → Option ChanId}
    {k k' : K} : Function.update table k none k' = some c ↔ k' ≠ k ∧ table k' = some c := by
  rw [Function.update_apply]
  split_ifs with hk <;> simp [hk]

/-- The task stores no sending end. -/
theorem Dispatches.stored_of (h : Dispatches f g) (hg : g.Stored o c) : f.Stored o c := by
  cases h with
  | jobHit htask hslot =>
    cases o with
    | jobId id => exact (update_none_eq_some.mp hg).2
    | _ => exact hg
  | kindOnceHit htask hslot =>
    cases o with
    | oneKind kind => exact (update_none_eq_some.mp hg).2
    | _ => exact hg
  | jobSend | multiSend | kindOnceSend | notificationSend | kindSend => exact stored_deliver.mp hg
  | _ => exact hg

/-- A sending end stays stored unless the task takes it. -/
theorem Dispatches.stored_or_held (h : Dispatches f g) (hf : f.Stored o c) :
    g.Stored o c ∨ g.task.held = some (o, c) := by
  cases h with
  | @jobHit item tx htask hslot =>
    cases o with
    | jobId id =>
      by_cases hid : id = item.target
      · subst hid
        rw [Option.some.inj (hf.symm.trans hslot)]
        exact .inr rfl
      · exact .inl (update_none_eq_some.mpr ⟨hid, hf⟩)
    | _ => exact .inl hf
  | @kindOnceHit item tx htask hslot =>
    cases o with
    | oneKind kind =>
      by_cases hkind : kind = item.kind
      · subst hkind
        rw [Option.some.inj (hf.symm.trans hslot)]
        exact .inr rfl
      · exact .inl (update_none_eq_some.mpr ⟨hkind, hf⟩)
    | _ => exact .inl hf
  | jobSend | multiSend | kindOnceSend | notificationSend | kindSend =>
    exact .inl (stored_deliver.mpr hf)
  | _ => exact .inl hf

/-- What the task holds after a step it found stored in that step, and a one-shot sending
end is not stored any more. -/
theorem Dispatches.stored_of_held (h : Dispatches f g) (hg : g.task.held = some (o, c)) :
    f.Stored o c ∧ (o.OneShot → ¬ g.Stored o c) ∧ g.channels = f.channels := by
  cases h with
  | jobHit htask hslot =>
    cases hg
    exact ⟨hslot, fun _ hstored => (update_none_eq_some.mp hstored).1 rfl, rfl⟩
  | multiHit htask hslot =>
    cases hg
    exact ⟨hslot, fun hone => hone.elim, rfl⟩
  | kindOnceHit htask hslot =>
    cases hg
    exact ⟨hslot, fun _ hstored => (update_none_eq_some.mp hstored).1 rfl, rfl⟩
  | jobSend | multiSend | kindOnceSend | notificationSend | kindSend =>
    rw [deliver_task] at hg
    cases hg
  | _ => cases hg

/-- Only a registration stores a sending end, that of the channel it makes. -/
theorem StepsTo.stored_of (h : StepsTo f a g) (hg : g.Stored o c) :
    f.Stored o c ∨ a.origin = some o ∧ c = f.nextChan ∧ Registers f o g := by
  cases h with
  | register ho hreg =>
    rcases hreg.stored_old hg with hold | ⟨rfl, rfl⟩
    · exact .inl hold
    · exact .inr ⟨ho, rfl, hreg⟩
  | complete =>
    cases o with
    | jobIdMulti id => exact .inl (update_none_eq_some.mp hg).2
    | _ => exact .inl hg
  | dispatch hdispatch => exact .inl (hdispatch.stored_of hg)
  | _ => exact .inl hg

/-- A sending end stays stored unless the task takes it, the multi job it belongs to is
completed, or a registration replaces it. -/
theorem StepsTo.stored_or (h : StepsTo f a g) (hf : f.Stored o c) :
    g.Stored o c ∨ g.task.held = some (o, c) ∨ a.origin = some o ∨
      ∃ id, a = .completeJobIdMulti id ∧ o = .jobIdMulti id := by
  cases h with
  | @register _ o' _ ho hreg =>
    by_cases hne : o = o'
    · exact .inr (.inr (.inl (hne ▸ ho)))
    · exact .inl (hreg.stored_ne hne hf)
  | @complete id =>
    cases o with
    | jobIdMulti id' =>
      by_cases hid : id' = id
      · exact .inr (.inr (.inr ⟨id, rfl, hid ▸ rfl⟩))
      · exact .inl (update_none_eq_some.mpr ⟨hid, hf⟩)
    | _ => exact .inl hf
  | dispatch hdispatch => exact (hdispatch.stored_or_held hf).imp_right .inl
  | _ => exact .inl hf

/-- The task takes what it holds from the tables. -/
theorem StepsTo.held_of (h : StepsTo f a g) (hg : g.task.held = some (o, c)) :
    f.task.held = some (o, c) ∧ a ≠ .dispatch ∨ f.Stored o c ∧ Dispatches f g := by
  cases h with
  | register ho hreg =>
    refine .inl ⟨by rwa [hreg.task] at hg, ?_⟩
    rintro rfl
    cases ho
  | dispatch hdispatch => exact .inr ⟨(hdispatch.stored_of_held hg).1, hdispatch⟩
  | pull => cases hg
  | stop => cases hg
  | _ => exact .inl ⟨hg, by simp⟩

/-- A channel belongs to the registration that made it from then on. -/
theorem StepsTo.origins_eq (h : StepsTo f a g) (hc : c ≠ f.nextChan ∨ a.origin = none) :
    g.origins c = f.origins c := by
  cases h with
  | register ho hreg =>
    rcases hc with hc | hc
    · rw [hreg.origins, Function.update_of_ne hc]
    · rw [ho] at hc
      cases hc
  | dispatch hdispatch =>
    cases hdispatch with
    | jobSend | multiSend | kindOnceSend | notificationSend | kindSend => rw [deliver_origins]
    | _ => rfl
  | _ => rfl

theorem StepsTo.nextChan_eq (h : StepsTo f a g) :
    g.nextChan = f.nextChan ∧ a.origin = none ∨
      g.nextChan = f.nextChan + 1 ∧ ∃ o, a.origin = some o ∧ Registers f o g := by
  cases h with
  | register ho hreg => exact .inr ⟨hreg.nextChan, _, ho, hreg⟩
  | dispatch hdispatch =>
    refine .inl ⟨?_, rfl⟩
    cases hdispatch with
    | jobSend | multiSend | kindOnceSend | notificationSend | kindSend => rw [deliver_nextChan]
    | _ => rfl
  | _ => exact .inl ⟨rfl, rfl⟩

/-- A channel was made before a step, or by the registration that the step is. -/
theorem StepsTo.origin_cases (h : StepsTo f a g) (hg : g.origins c = some o) :
    f.origins c = some o ∨ a.origin = some o ∧ c = f.nextChan ∧ Registers f o g := by
  rcases h.nextChan_eq with ⟨-, hnone⟩ | ⟨-, o', ho', hreg⟩
  · exact .inl (by rw [← h.origins_eq (.inr hnone), hg])
  · by_cases hc : c = f.nextChan
    · subst hc
      rw [hreg.origins, Function.update_self, Option.some.injEq] at hg
      subst hg
      exact .inr ⟨ho', rfl, hreg⟩
    · exact .inl (by rw [← h.origins_eq (.inl hc), hg])

end Steps

/-! ### What a step does to a channel -/

section Channels

/-- A receiver exists from its registration until it is dropped. -/
theorem StepsTo.alive_of (h : StepsTo f a g) (hg : (g.channels c).alive = true) :
    (f.channels c).alive = true ∨ c = f.nextChan ∧ a.origin.isSome = true := by
  cases h with
  | register ho hreg =>
    by_cases hc : c = f.nextChan
    · exact .inr ⟨hc, by rw [ho]; rfl⟩
    · rw [hreg.channels, Function.update_of_ne hc] at hg
      exact .inl hg
  | @drop d =>
    left
    by_cases hc : c = d
    · subst hc
      rw [dropReceiver_self] at hg
      cases hg
    · rwa [dropReceiver_of_ne hc] at hg
  | @recv d taken hinbox =>
    left
    by_cases hc : c = d
    · subst hc
      rwa [setChannel_self] at hg
    · rwa [setChannel_of_ne hc] at hg
  | dispatch hdispatch =>
    left
    cases hdispatch with
    | jobSend | multiSend | kindOnceSend | notificationSend | kindSend =>
      rwa [deliver_alive] at hg
    | _ => exact hg
  | _ => exact .inl hg

/-- A send that the task makes with the sending end it holds. -/
structure Sends (f : MessageFilter SteamID) (item : Item SteamID) (o : Origin) (c : ChanId)
    (g : MessageFilter SteamID) : Prop where
  held : f.task.held = some (o, c)
  item_eq : f.task.item = some item
  eq : ∃ table, g = f.deliver table item [c]

/-- A step of the task sends to the receiver it holds, to the subscribers of a broadcast
channel, or to nobody. -/
theorem Dispatches.channels_eq (h : Dispatches f g) :
    g.channels = f.channels ∨ (∃ item o c, Sends f item o c g) ∨
      ∃ o table item receivers, o.IsBroadcast ∧ (∀ c ∈ receivers, f.Stored o c) ∧
        g = f.deliver table item receivers := by
  cases h with
  | @jobSend item tx htask =>
    exact .inr (.inl ⟨item, _, tx, by rw [htask]; rfl, by rw [htask]; rfl, _, rfl⟩)
  | @multiSend item tx htask hroom =>
    exact .inr (.inl ⟨item, _, tx, by rw [htask]; rfl, by rw [htask]; rfl, _, rfl⟩)
  | @kindOnceSend item tx htask =>
    exact .inr (.inl ⟨item, _, tx, by rw [htask]; rfl, by rw [htask]; rfl, _, rfl⟩)
  | @notificationSend item notification receivers htask hread hslot =>
    refine .inr (.inr ⟨.notification notification.jobName, _, item, receivers, trivial, ?_, rfl⟩)
    intro c hc
    simpa [Stored, hslot] using hc
  | @kindSend item receivers htask hslot =>
    refine .inr (.inr ⟨.kind item.kind, _, item, receivers, trivial, ?_, rfl⟩)
    intro c hc
    simpa [Stored, hslot] using hc
  | _ => exact .inl rfl

end Channels

/-! ### Ownership -/

section Owned

/-- Where the sending ends are: channels that were not made yet are unused, a sending end is
stored or held for the registration that made its channel, and a one-shot receiver gets
one message at most, and none while its sending end is stored or held, which are not both
the case. -/
structure Owned (f : MessageFilter SteamID) : Prop where
  fresh : ∀ {c}, f.nextChan ≤ c → f.channels c = {} ∧ f.origins c = none
  stored : ∀ {o c}, f.Stored o c → f.origins c = some o
  held : ∀ {o c}, f.task.held = some (o, c) → f.origins c = some o
  unsent : ∀ {o c}, o.OneShot → f.Stored o c → (f.channels c).inbox = []
  unsent_held : ∀ {o c}, o.OneShot → f.task.held = some (o, c) →
    (f.channels c).inbox = [] ∧ ¬ f.Stored o c
  once : ∀ {o c}, o.OneShot → f.origins c = some o → (f.channels c).inbox.length ≤ 1

theorem Owned.lt_nextChan (hf : f.Owned) (h : f.origins c = some o) : c < f.nextChan := by
  by_contra hge
  rw [(hf.fresh (not_lt.mp hge)).2] at h
  cases h

theorem owned_init : ({} : MessageFilter SteamID).Owned where
  fresh _ := ⟨rfl, rfl⟩
  stored {o c} h := by cases o <;> cases h
  held h := by cases h
  unsent _ _ := rfl
  unsent_held _ h := by cases h
  once _ _ := Nat.zero_le _

/-- A send with the sending end in the task's hand reaches the receiver of that one, if it
exists. -/
theorem Sends.channels_eq {item : Item SteamID} {d : ChanId} (h : Sends f item o c g) :
    g.channels d = if d = c ∧ (f.channels d).alive = true then (f.channels d).push item
      else f.channels d := by
  obtain ⟨table, rfl⟩ := h.eq
  rw [deliver_channels]
  simp only [List.mem_singleton]

/-- The inbox of a channel grows in a step only by a message the task was busy with, and
the task sends with the sending end it holds, or to subscribers. -/
theorem Owned.inbox_of_dispatches (hf : f.Owned) (h : Dispatches f g) (ho : f.origins c = some o)
    (hone : ¬ o.IsBroadcast) :
    g.channels c = f.channels c ∨
      ∃ item, Sends f item o c g ∧ (f.channels c).alive = true ∧
        g.channels c = (f.channels c).push item := by
  rcases h.channels_eq with hsame | ⟨item, o', c', hsend⟩ | ⟨o', table, item, receivers, hb, hmem, rfl⟩
  · exact .inl (by rw [hsame])
  · by_cases hc : c = c' ∧ (f.channels c).alive = true
    · -- the channel was made by one registration, so this is its own sending end
      obtain ⟨rfl, halive⟩ := hc
      have hoo : o' = o := Option.some.inj ((hf.held hsend.held).symm.trans ho)
      subst hoo
      exact .inr ⟨item, hsend, halive, by rw [hsend.channels_eq, if_pos ⟨rfl, halive⟩]⟩
    · exact .inl (by rw [hsend.channels_eq, if_neg hc])
  · left
    -- a broadcast goes to subscribers, and this channel is not one
    rw [deliver_channels, if_neg]
    rintro ⟨hc, -⟩
    have hoo : o' = o := Option.some.inj ((hf.stored (hmem c hc)).symm.trans ho)
    exact hone (hoo ▸ hb)

/-- Outside of the task's steps an inbox does not change. -/
theorem StepsTo.inbox_eq (h : StepsTo f a g) (hne : a ≠ .dispatch)
    (hc : c ≠ f.nextChan ∨ a.origin = none) : (g.channels c).inbox = (f.channels c).inbox := by
  cases h with
  | register ho hreg =>
    rcases hc with hc | hc
    · rw [hreg.channels, Function.update_of_ne hc]
    · rw [ho] at hc
      cases hc
  | drop => exact dropReceiver_inbox ..
  | recv => exact setChannel_inbox (by rfl) c
  | dispatch => exact absurd rfl hne
  | _ => rfl

/-- Registrations start with an empty inbox. -/
theorem Registers.channels_new {o : Origin} (h : Registers f o g) :
    g.channels f.nextChan = { alive := true } := by
  rw [h.channels, Function.update_self]

theorem Registers.origins_new {o : Origin} (h : Registers f o g) :
    g.origins f.nextChan = some o := by
  rw [h.origins, Function.update_self]

/-- Channels that are not made yet stay unused. -/
theorem Owned.fresh_of_steps (hf : f.Owned) (h : StepsTo f a g) (hc : g.nextChan ≤ c) :
    g.channels c = {} ∧ g.origins c = none := by
  rcases h.nextChan_eq with ⟨hnext, hnone⟩ | ⟨hnext, o, ho, hreg⟩
  · rw [hnext] at hc
    obtain ⟨hchan, horigin⟩ := hf.fresh hc
    refine ⟨?_, by rw [h.origins_eq (.inr hnone), horigin]⟩
    -- an unused channel has no receiver, so nothing is sent to it
    have hdead : (f.channels c).alive = false := by rw [hchan]
    cases h with
    | register ho => rw [ho] at hnone; cases hnone
    | @drop d =>
      by_cases hd : c = d
      · subst hd
        rw [dropReceiver_self, hchan]
        rfl
      · rw [dropReceiver_of_ne hd, hchan]
    | @recv d taken hinbox =>
      have hd : c ≠ d := by
        rintro rfl
        exact hinbox (by rw [hchan])
      rw [setChannel_of_ne hd, hchan]
    | dispatch hdispatch =>
      cases hdispatch with
      | jobSend | multiSend | kindOnceSend | notificationSend | kindSend =>
        rw [deliver_channels, hdead, if_neg (by simp), hchan]
      | _ => exact hchan
    | _ => exact hchan
  · rw [hnext] at hc
    have hlt : f.nextChan < c := Nat.lt_of_succ_le hc
    have hne : c ≠ f.nextChan := hlt.ne'
    rw [hreg.channels, hreg.origins, Function.update_of_ne hne, Function.update_of_ne hne]
    exact hf.fresh hlt.le

/-- A channel that has been made is not made again. -/
theorem Owned.ne_nextChan (hf : f.Owned) (h : f.origins c = some o) : c ≠ f.nextChan :=
  (hf.lt_nextChan h).ne

/-- The inbox of a one-shot receiver changes only by a send with its sending end. -/
theorem Owned.inbox_of_steps (hf : f.Owned) (h : StepsTo f a g) (ho : f.origins c = some o)
    (hone : ¬ o.IsBroadcast) :
    (g.channels c).inbox = (f.channels c).inbox ∨
      ∃ item, Sends f item o c g ∧ (f.channels c).alive = true ∧
        g.channels c = (f.channels c).push item := by
  by_cases hdispatch : a = .dispatch
  · subst hdispatch
    have hdispatch := h.dispatches
    exact (hf.inbox_of_dispatches hdispatch ho hone).imp_left fun hsame => by rw [hsame]
  · exact .inl (h.inbox_eq hdispatch (.inl (hf.ne_nextChan ho)))

/-- What a receiver with a sending end of its own got in a step was sent with that. -/
theorem Owned.mem_inbox_cases (hf : f.Owned) (h : StepsTo f a g) (hone : ¬ o.IsBroadcast)
    (ho : g.origins c = some o) {item : Item SteamID} (hmem : item ∈ (g.channels c).inbox) :
    f.origins c = some o ∧ (item ∈ (f.channels c).inbox ∨ Sends f item o c g) := by
  rcases h.origin_cases ho with horigin | ⟨-, rfl, hreg⟩
  · refine ⟨horigin, ?_⟩
    rcases hf.inbox_of_steps h horigin hone with hsame | ⟨item', hsend, -, hpush⟩
    · exact .inl (hsame ▸ hmem)
    · rw [hpush, Channel.push_inbox, List.mem_append, List.mem_singleton] at hmem
      rcases hmem with hmem | rfl
      · exact .inl hmem
      · exact .inr hsend
  · rw [hreg.channels_new] at hmem
    cases hmem

theorem Owned.stored_of_steps (hf : f.Owned) (h : StepsTo f a g) (hg : g.Stored o c) :
    g.origins c = some o := by
  rcases h.stored_of hg with hold | ⟨-, rfl, hreg⟩
  · have horigin := hf.stored hold
    rw [h.origins_eq (.inl (hf.ne_nextChan horigin)), horigin]
  · exact hreg.origins_new

theorem Owned.held_of_steps (hf : f.Owned) (h : StepsTo f a g) (hg : g.task.held = some (o, c)) :
    g.origins c = some o := by
  have horigin : f.origins c = some o := by
    rcases h.held_of hg with ⟨hold, -⟩ | ⟨hstored, -⟩
    · exact hf.held hold
    · exact hf.stored hstored
  rw [h.origins_eq (.inl (hf.ne_nextChan horigin)), horigin]

/-- A receiver gets nothing while its sending end stays in a one-shot slot. -/
theorem Owned.unsent_of_steps (hf : f.Owned) (h : StepsTo f a g) (hone : o.OneShot)
    (hg : g.Stored o c) : (g.channels c).inbox = [] := by
  rcases h.stored_of hg with hold | ⟨-, rfl, hreg⟩
  · rcases hf.inbox_of_steps h (hf.stored hold) hone.not_isBroadcast with hsame | ⟨_, hsend, -, -⟩
    · rw [hsame, hf.unsent hone hold]
    · -- a send needs the sending end in the hand of the task
      exact absurd hold (hf.unsent_held hone hsend.held).2
  · rw [hreg.channels_new]

/-- A one-shot sending end in the hand of the task is not used yet, and in no slot. -/
theorem Owned.unsent_held_of_steps (hf : f.Owned) (h : StepsTo f a g) (hone : o.OneShot)
    (hg : g.task.held = some (o, c)) : (g.channels c).inbox = [] ∧ ¬ g.Stored o c := by
  rcases h.held_of hg with ⟨hold, hne⟩ | ⟨hstored, hdispatch⟩
  · obtain ⟨hinbox, hnot⟩ := hf.unsent_held hone hold
    have hc := hf.ne_nextChan (hf.held hold)
    refine ⟨by rw [h.inbox_eq hne (.inl hc), hinbox], fun hstored => ?_⟩
    rcases h.stored_of hstored with hstored | ⟨-, hnew, -⟩
    · exact hnot hstored
    · exact hc hnew
  · obtain ⟨-, hnot, hchannels⟩ := hdispatch.stored_of_held hg
    exact ⟨by rw [hchannels, hf.unsent hone hstored], hnot hone⟩

/-- A one-shot receiver gets one message at most: the send uses the sending end up. -/
theorem Owned.once_of_steps (hf : f.Owned) (h : StepsTo f a g) (hone : o.OneShot)
    (hg : g.origins c = some o) : (g.channels c).inbox.length ≤ 1 := by
  rcases h.origin_cases hg with horigin | ⟨-, rfl, hreg⟩
  · rcases hf.inbox_of_steps h horigin hone.not_isBroadcast with hsame | ⟨_, hsend, -, hpush⟩
    · rw [hsame]
      exact hf.once hone horigin
    · rw [hpush, Channel.push_inbox, (hf.unsent_held hone hsend.held).1]
      exact Nat.le_refl 1
  · rw [hreg.channels_new]
    exact Nat.zero_le 1

/-- Every step keeps track of the sending ends. -/
theorem Owned.of_steps (hf : f.Owned) (h : StepsTo f a g) : g.Owned where
  fresh hc := hf.fresh_of_steps h hc
  stored hg := hf.stored_of_steps h hg
  held hg := hf.held_of_steps h hg
  unsent hone hg := hf.unsent_of_steps h hone hg
  unsent_held hone hg := hf.unsent_held_of_steps h hone hg
  once hone hg := hf.once_of_steps h hone hg

/-- Only the task records what became of a message. -/
theorem StepsTo.fates_eq (h : StepsTo f a g) (ha : a ≠ .dispatch) : g.fates = f.fates := by
  cases h with
  | register ho hreg => exact hreg.fates
  | dispatch => exact absurd rfl ha
  | _ => rfl

/-- What a receiver got it keeps. -/
theorem Owned.mem_inbox_of_steps (hf : f.Owned) (h : StepsTo f a g) {c : ChanId}
    {item : Item SteamID} (hmem : item ∈ (f.channels c).inbox) : item ∈ (g.channels c).inbox := by
  have hc : c ≠ f.nextChan := by
    rintro rfl
    rw [(hf.fresh (Nat.le_refl _)).1] at hmem
    cases hmem
  by_cases ha : a = .dispatch
  · subst ha
    have hdispatch := h.dispatches
    cases hdispatch with
    | jobSend | multiSend | kindOnceSend | notificationSend | kindSend =>
      rw [deliver_channels]
      split_ifs
      · exact List.mem_append_left _ hmem
      · exact hmem
    | _ => exact hmem
  · rwa [h.inbox_eq ha (.inl hc)]

/-- A receiver that has nothing had nothing before. -/
theorem Owned.inbox_eq_nil_of_steps (hf : f.Owned) (h : StepsTo f a g)
    (hg : (g.channels c).inbox = []) : (f.channels c).inbox = [] := by
  by_contra hne
  obtain ⟨x, hx⟩ := List.exists_mem_of_ne_nil _ hne
  have hmem := hf.mem_inbox_of_steps h hx
  rw [hg] at hmem
  cases hmem

end Owned

/-! ### What the task is busy with -/

section Busy

/-- What the task holds it keeps until its next step. -/
theorem StepsTo.held_eq (h : StepsTo f a g) (ha : a ≠ .dispatch) {p : Origin × ChanId}
    (hf : f.task.held = some p) : g.task.held = some p := by
  cases h with
  | register ho hreg => rwa [hreg.task]
  | pull htask | stop htask | skip htask =>
    rw [htask] at hf
    cases hf
  | dispatch => exact absurd rfl ha
  | _ => exact hf

/-- The next step of the task sends to the receiver it holds. -/
theorem Dispatches.inbox_of_held (h : Dispatches f g) (hf : f.task.held = some (o, c))
    (halive : (f.channels c).alive = true) : (g.channels c).inbox ≠ [] := by
  cases h with
  | jobSend htask | multiSend htask | kindOnceSend htask =>
    rw [htask] at hf
    cases hf
    rw [deliver_channels, if_pos ⟨List.mem_singleton_self _, halive⟩, Channel.push_inbox]
    exact List.append_ne_nil_of_right_ne_nil _ (List.cons_ne_nil _ _)
  | jobHit htask | jobMiss htask | multiHit htask | multiMiss htask | kindOnceHit htask
  | toNotification htask | toKind htask | notificationSend htask | notificationIgnored htask
  | kindSend htask | kindMiss htask | restPush htask =>
    rw [htask] at hf
    cases hf

/-- A step of the task goes on with the message, or is done with it: after a lookup for a
job, or after the lookup among the one-shot waiters. -/
theorem Dispatches.fates_cases (h : Dispatches f g) :
    g.fates = f.fates ∧ g.task.item = f.task.item ∨
      ∃ item fate, f.task.item = some item ∧ g.fates = f.fates ++ [(item, fate)] ∧
        g.task = .awaiting ∧ (fate.ByJob ∨ f.task.pastOneShot = some item) := by
  have hby : ∀ {table : Table} {receivers : List ChanId}, table = .jobId ∨ table = .jobIdMulti →
      (f.deliverFate table receivers).ByJob := by
    intro table receivers htable
    unfold deliverFate
    rcases htable with rfl | rfl <;> dsimp only <;> split_ifs <;> exact trivial
  -- a send is the last thing the task does with a message
  have hsend : ∀ {table : Table} {item : Item SteamID} {receivers : List ChanId},
      f.task.item = some item →
      (f.deliverFate table receivers).ByJob ∨ f.task.pastOneShot = some item →
        ∃ item' fate, f.task.item = some item' ∧
          (f.deliver table item receivers).fates = f.fates ++ [(item', fate)] ∧
          (f.deliver table item receivers).task = .awaiting ∧
          (fate.ByJob ∨ f.task.pastOneShot = some item') :=
    fun hitem hfate => ⟨_, _, hitem, deliver_fates .., deliver_task .., hfate⟩
  cases h with
  | jobSend htask => exact .inr (hsend (by rw [htask]; rfl) (.inl (hby (.inl rfl))))
  | multiSend htask => exact .inr (hsend (by rw [htask]; rfl) (.inl (hby (.inr rfl))))
  | kindOnceSend htask | notificationSend htask | kindSend htask =>
    exact .inr (hsend (by rw [htask]; rfl) (.inr (by rw [htask]; rfl)))
  | notificationIgnored htask | restPush htask =>
    exact .inr ⟨_, _, by rw [htask]; rfl, rfl, rfl, .inr (by rw [htask]; rfl)⟩
  | jobHit htask | jobMiss htask | multiHit htask | multiMiss htask | kindOnceHit htask
  | toNotification htask | toKind htask | kindMiss htask =>
    exact .inl ⟨rfl, by rw [htask]; rfl⟩

/-- Outside of its steps the task stays as it is, or takes the next result: it gets a message
or ends. -/
theorem StepsTo.task_cases (h : StepsTo f a g) (ha : a ≠ .dispatch) :
    g.task = f.task ∧ (∀ message, a ≠ .next (some (.ok message))) ∨
      f.task = .awaiting ∧ ((∃ message, a = .next (some (.ok message)) ∧
          g.task = .jobLookup ⟨f.pulled, message⟩) ∨
        g.task = .stopped ∧ ∀ message, a ≠ .next (some (.ok message))) := by
  cases h with
  | register ho hreg =>
    refine .inl ⟨hreg.task, ?_⟩
    rintro message rfl
    cases ho
  | pull htask => exact .inr ⟨htask, .inl ⟨_, rfl, rfl⟩⟩
  | stop htask hend =>
    refine .inr ⟨htask, .inr ⟨rfl, ?_⟩⟩
    intro message heq
    rw [MessageFilter.Action.next.inj heq] at hend
    exact hend _ rfl
  | dispatch => exact absurd rfl ha
  | _ => exact .inl ⟨rfl, nofun⟩

/-- Outside of its steps the task gets a new message or none. -/
theorem StepsTo.item_cases (h : StepsTo f a g) (ha : a ≠ .dispatch) :
    g.pulled = f.pulled ∧ (g.task.item = f.task.item ∨ g.task.item = none) ∨
      ∃ message, g.pulled = f.pulled + 1 ∧ g.task = .jobLookup ⟨f.pulled, message⟩ := by
  cases h with
  | register ho hreg => exact .inl ⟨hreg.pulled, .inl (by rw [hreg.task])⟩
  | pull htask => exact .inr ⟨_, rfl, rfl⟩
  | stop htask => exact .inl ⟨rfl, .inr rfl⟩
  | dispatch => exact absurd rfl ha
  | _ => exact .inl ⟨rfl, .inl rfl⟩

theorem Dispatches.pulled_eq (h : Dispatches f g) : g.pulled = f.pulled := by
  cases h with
  | jobSend | multiSend | kindOnceSend | notificationSend | kindSend => rw [deliver_pulled]
  | _ => rfl

/-- What is on record stays on record. -/
theorem StepsTo.fates_subset (h : StepsTo f a g) : f.fates ⊆ g.fates := by
  by_cases ha : a = .dispatch
  · subst ha
    have hdispatch := h.dispatches
    rcases hdispatch.fates_cases with ⟨hsame, -⟩ | ⟨_, _, -, hfates, -⟩
    · rw [hsame]
      exact List.Subset.refl _
    · rw [hfates]
      exact List.subset_append_left _ _
  · rw [h.fates_eq ha]
    exact List.Subset.refl _

/-- A send puts the message on record. -/
theorem Sends.mem_fates {item : Item SteamID} {o : Origin} (h : Sends f item o c g) :
    ∃ fate, (item, fate) ∈ g.fates := by
  obtain ⟨table, rfl⟩ := h.eq
  exact ⟨_, by rw [deliver_fates]; exact List.mem_append_right _ List.mem_cons_self⟩

end Busy

/-- The states of a filter that was made empty. -/
abbrev IsReachable (shard : JobId → Nat) : MessageFilter SteamID → Prop :=
  Reachable (step shard) (· = {})

theorem IsReachable.owned (hf : f.IsReachable shard) : f.Owned :=
  Reachable.invariant (fun _ h => h ▸ owned_init) (fun _ _ _ hs h => hs.of_steps (stepsTo_of_step h))
    hf

end MessageFilter

end SteamWire
