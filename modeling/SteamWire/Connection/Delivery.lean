import SteamWire.Connection.Ownership

/-!
# Messages for receivers that are gone

A table entry is used up or used again without a look at whether its receiver still
exists, and the result of the send is discarded. `noneSwallowed_iff` says which runs
lose no message that way: those in which a receiver exists whenever the task makes a
send. Service method notifications are left out, as they have no other place to go.
-/

namespace SteamWire

open Semantics

namespace MessageFilter

variable {SteamID : Type} {shard : JobId → Nat} {f g : MessageFilter SteamID} {a : Action SteamID}

/-- Every message that is no notification, and that the task is done with, was delivered to
a receiver or went to the unprocessed buffer. -/
def NoneSwallowed (f : MessageFilter SteamID) : Prop :=
  ∀ item fate, (item, fate) ∈ f.fates → item.kind ≠ EMsg.kEMsgServiceMethod.kind →
    (∃ table receivers, fate = .delivered table receivers ∧
      ∃ c ∈ receivers, item ∈ (f.channels c).inbox) ∨ fate = .unprocessed

/-- The send the task makes in its next step, notifications left out. -/
def pendingSend (f : MessageFilter SteamID) : Option (Table × Item SteamID × List ChanId) :=
  match f.task with
  | .jobSend item tx => some (.jobId, item, [tx])
  | .multiSend item tx => some (.jobIdMulti, item, [tx])
  | .kindOnceSend item tx => some (.oneshotKind, item, [tx])
  | .kindLookup item => (f.kindFilters item.kind).map fun receivers => (.kind, item, receivers)
  | _ => none

/-- A receiver exists for the send the task makes. -/
def SendsToReceiver (f : MessageFilter SteamID) (a : Action SteamID) : Prop :=
  a = .dispatch → ∀ table item receivers, f.pendingSend = some (table, item, receivers) →
    item.kind ≠ EMsg.kEMsgServiceMethod.kind →
      ∃ c ∈ receivers, (f.channels c).alive = true

/-- The task reads a message as a notification only if it is one. -/
def ReadsNotifications (f : MessageFilter SteamID) : Prop :=
  ∀ item, f.task = .notificationLookup item → item.kind = EMsg.kEMsgServiceMethod.kind

/-! ### The record of what became of the messages -/

section Fates

/-- Without a receiver a message is lost. -/
theorem deliverFate_of_dead {table : Table} {receivers : List ChanId}
    (h : ∀ c ∈ receivers, (f.channels c).alive ≠ true) :
    f.deliverFate table receivers = .lost table := by
  have hnone : (receivers.filter fun c => (f.channels c).alive) = [] := by
    rw [List.filter_eq_nil_iff]
    exact h
  simp only [deliverFate, hnone, if_true]

/-- With one it is delivered to it. -/
theorem deliverFate_of_alive {table : Table} {item : Item SteamID} {receivers : List ChanId}
    (h : ∃ c ∈ receivers, (f.channels c).alive = true) :
    ∃ live, f.deliverFate table receivers = .delivered table live ∧
      ∃ c ∈ live, item ∈ ((f.deliver table item receivers).channels c).inbox := by
  obtain ⟨c, hc, halive⟩ := h
  have hmem : c ∈ receivers.filter fun c => (f.channels c).alive := by
    rw [List.mem_filter]
    exact ⟨hc, halive⟩
  have hne : (receivers.filter fun c => (f.channels c).alive) ≠ [] := List.ne_nil_of_mem hmem
  refine ⟨_, by simp only [deliverFate, if_neg hne], c, hmem, ?_⟩
  rw [deliver_channels, if_pos ⟨hc, halive⟩]
  simp

/-- A pending send is made by the next step of the task. -/
theorem Dispatches.eq_of_pendingSend (h : Dispatches f g) {table : Table} {item : Item SteamID}
    {receivers : List ChanId} (hsend : f.pendingSend = some (table, item, receivers)) :
    g = f.deliver table item receivers := by
  unfold pendingSend at hsend
  cases h with
  | jobSend htask | multiSend htask | kindOnceSend htask =>
    rw [htask] at hsend
    cases hsend
    rfl
  | kindSend htask hslot =>
    rw [htask] at hsend
    simp only [hslot, Option.map_some, Option.some.injEq, Prod.mk.injEq] at hsend
    obtain ⟨rfl, rfl, rfl⟩ := hsend
    rfl
  | kindMiss htask hslot =>
    rw [htask] at hsend
    simp only [hslot, Option.map_none] at hsend
    cases hsend
  | jobHit htask | jobMiss htask | multiHit htask | multiMiss htask | kindOnceHit htask
  | toNotification htask | toKind htask | notificationSend htask | notificationIgnored htask
  | restPush htask =>
    rw [htask] at hsend
    cases hsend

/-- Without one, the task looks on, reads a notification, or keeps the message as
unprocessed. -/
theorem Dispatches.fates_of_not_pendingSend (h : Dispatches f g) (hsend : f.pendingSend = none) :
    g.fates = f.fates ∨
      (∃ item fate, f.task = .notificationLookup item ∧ g.fates = f.fates ++ [(item, fate)]) ∨
      ∃ item, g.fates = f.fates ++ [(item, .unprocessed)] := by
  unfold pendingSend at hsend
  cases h with
  | jobSend htask | multiSend htask | kindOnceSend htask =>
    rw [htask] at hsend
    cases hsend
  | kindSend htask hslot =>
    rw [htask] at hsend
    simp only [hslot, Option.map_some] at hsend
    cases hsend
  | @notificationSend item _ _ htask =>
    exact .inr (.inl ⟨item, _, htask, deliver_fates ..⟩)
  | @notificationIgnored item htask => exact .inr (.inl ⟨item, _, htask, rfl⟩)
  | @restPush item htask => exact .inr (.inr ⟨item, rfl⟩)
  | _ => exact .inl rfl

end Fates

/-! ### Which runs lose nothing -/

section Swallowed

theorem ReadsNotifications.of_steps (hf : ReadsNotifications f) (h : StepsTo f a g) :
    ReadsNotifications g := by
  intro item hg
  cases h with
  | register ho hreg => exact hf item (hreg.task ▸ hg)
  | pull => cases hg
  | stop => cases hg
  | dispatch hdispatch =>
    cases hdispatch with
    | toNotification htask hslot hkind =>
      cases hg
      exact hkind
    | jobSend | multiSend | kindOnceSend | notificationSend | kindSend =>
      rw [deliver_task] at hg
      cases hg
    | _ => cases hg
  | _ => exact hf item hg

/-- What was delivered before a step still is. -/
private theorem NoneSwallowed.of_mem (hf : NoneSwallowed f) (hown : f.Owned) (h : StepsTo f a g)
    {item : Item SteamID} {fate : Fate} (hmem : (item, fate) ∈ f.fates)
    (hkind : item.kind ≠ EMsg.kEMsgServiceMethod.kind) :
    (∃ table receivers, fate = .delivered table receivers ∧
      ∃ c ∈ receivers, item ∈ (g.channels c).inbox) ∨ fate = .unprocessed := by
  refine (hf item fate hmem hkind).imp_left ?_
  rintro ⟨table, receivers, hfate, c, hc, hinbox⟩
  exact ⟨table, receivers, hfate, c, hc, hown.mem_inbox_of_steps h hinbox⟩

/-- One more message with a known fate. -/
private theorem NoneSwallowed.of_fates_append (hf : NoneSwallowed f) (hown : f.Owned)
    (h : StepsTo f a g) {item : Item SteamID} {fate : Fate}
    (hfates : g.fates = f.fates ++ [(item, fate)])
    (hnew : item.kind ≠ EMsg.kEMsgServiceMethod.kind →
      (∃ table receivers, fate = .delivered table receivers ∧
        ∃ c ∈ receivers, item ∈ (g.channels c).inbox) ∨ fate = .unprocessed) :
    NoneSwallowed g := by
  intro item' fate' hmem hkind
  rw [hfates, List.mem_append, List.mem_singleton] at hmem
  rcases hmem with hold | hlast
  · exact hf.of_mem hown h hold hkind
  · obtain ⟨rfl, rfl⟩ := Prod.mk.inj hlast
    exact hnew hkind

/-- A step with a receiver for its send swallows no message. -/
theorem NoneSwallowed.of_steps (hf : NoneSwallowed f) (hown : f.Owned)
    (hreads : ReadsNotifications f) (h : StepsTo f a g) (hguard : SendsToReceiver f a) :
    NoneSwallowed g := by
  by_cases ha : a = .dispatch
  case neg => exact fun _ _ hmem => hf.of_mem hown h (h.fates_eq ha ▸ hmem)
  subst ha
  have hdispatch := h.dispatches
  cases hsend : f.pendingSend with
  | none =>
    rcases hdispatch.fates_of_not_pendingSend hsend with hsame | ⟨item, fate, htask, hfates⟩ |
      ⟨item, hfates⟩
    · exact fun _ _ hmem => hf.of_mem hown h (hsame ▸ hmem)
    · exact hf.of_fates_append hown h hfates fun hkind => absurd (hreads item htask) hkind
    · exact hf.of_fates_append hown h hfates fun _ => .inr rfl
  | some send =>
    obtain ⟨table, item, receivers⟩ := send
    have hg := hdispatch.eq_of_pendingSend hsend
    subst hg
    -- the send reaches the receiver that the condition asks for
    refine hf.of_fates_append hown h (deliver_fates ..) fun hkind => .inl ?_
    obtain ⟨live, hfate, hinbox⟩ := @deliverFate_of_alive SteamID f table item receivers
      (hguard rfl _ _ _ hsend hkind)
    exact ⟨table, live, hfate, hinbox⟩

/-- A step without one swallows a message. -/
theorem not_noneSwallowed_of_steps (h : StepsTo f a g) (hguard : ¬ SendsToReceiver f a) :
    ¬ NoneSwallowed g := by
  intro hnone
  apply hguard
  rintro rfl table item receivers hsend hkind
  by_contra hnobody
  -- with all receivers gone the message is lost, which is neither of the two fates allowed
  have hdead : ∀ c ∈ receivers, (f.channels c).alive ≠ true :=
    fun c hc halive => hnobody ⟨c, hc, halive⟩
  have hdispatch := h.dispatches
  have hg := hdispatch.eq_of_pendingSend hsend
  subst hg
  have hmem : (item, Fate.lost table) ∈ (f.deliver table item receivers).fates := by
    rw [deliver_fates, deliverFate_of_dead hdead]
    exact List.mem_append_right _ List.mem_cons_self
  rcases hnone item _ hmem hkind with ⟨_, _, hfate, -⟩ | hfate <;> cases hfate

/-- The runs of a filter in which no message is swallowed by a dead registration. -/
theorem noneSwallowed_iff (w : List (Action SteamID)) :
    AllStates (step shard) NoneSwallowed {} w ↔ AllSteps (step shard) SendsToReceiver {} w := by
  apply allStates_iff_allSteps (I := fun f => f.Owned ∧ ReadsNotifications f ∧ NoneSwallowed f)
  · exact fun f hf => hf.2.2
  · intro f a g ⟨hown, hreads, hf⟩ hguard h
    have hsteps := stepsTo_of_step h
    exact ⟨hown.of_steps hsteps, hreads.of_steps hsteps, hf.of_steps hown hreads hsteps hguard⟩
  · intro f a g hf hguard h
    exact not_noneSwallowed_of_steps (stepsTo_of_step h) hguard
  · exact ⟨owned_init, fun _ h => (nomatch h), fun _ _ h => (nomatch h)⟩

end Swallowed

/-- A logon response. -/
def logOnResponse : RawNetMessage UInt64 where
  kind := EMsg.kEMsgClientLogOnResponse.kind
  isProtobuf := true
  header := default
  data := []
  frameHeaderBuffer := none
  ivBuffer := none
  headerBuffer := []

/-- A waiter that was dropped takes the message from a subscriber of its kind. -/
theorem not_noneSwallowed_dropped_waiter :
    ∃ f : MessageFilter UInt64,
      run (step fun _ => 0) {}
        [.onKind EMsg.kEMsgClientLogOnResponse.kind, .oneKind EMsg.kEMsgClientLogOnResponse.kind,
          .dropReceiver 1, .next (some (.ok logOnResponse)), .dispatch, .dispatch, .dispatch,
          .dispatch] = some f ∧
        (f.channels 0).alive = true ∧ ¬ NoneSwallowed f := by
  refine ⟨_, rfl, rfl, fun h => ?_⟩
  rcases h ⟨0, logOnResponse⟩ (.lost .oneshotKind) (List.mem_singleton_self _) (by decide) with
    ⟨_, _, hfate, -⟩ | hfate <;> cases hfate

end MessageFilter

end SteamWire
