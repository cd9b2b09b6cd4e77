import SteamWire.Connection.Filter

/-!
# What a step of the filter can do

The fields of the filter after each operation, and the inversion of the task's steps:
`Dispatches` lists every lookup and every send the task can make, with what it finds.
The invariants of the filter are derived from this list.
-/

namespace SteamWire

open Semantics

/-- Registrations that share one sending end. -/
def Origin.IsBroadcast : Origin → Prop
  | .notification _ | .kind _ => True
  | _ => False

namespace MessageFilter

variable {SteamID : Type} {f g : MessageFilter SteamID}

/-! ### Receivers after an update of one -/

section Receivers

variable {c d : ChanId} {channel : Channel (Item SteamID)}

@[simp] theorem setChannel_self : (f.setChannel c channel).channels c = channel :=
  Function.update_self ..

theorem setChannel_of_ne (h : c ≠ d) : (f.setChannel d channel).channels c = f.channels c :=
  Function.update_of_ne h ..

@[simp] theorem dropReceiver_self : (f.dropReceiver c).channels c = (f.channels c).close :=
  Function.update_self ..

theorem dropReceiver_of_ne (h : c ≠ d) : (f.dropReceiver d).channels c = f.channels c :=
  Function.update_of_ne h ..

/-- An update that keeps one inbox keeps all. -/
theorem setChannel_inbox (h : channel.inbox = (f.channels d).inbox) (c : ChanId) :
    ((f.setChannel d channel).channels c).inbox = (f.channels c).inbox := by
  by_cases hc : c = d
  · subst hc
    rw [setChannel_self, h]
  · rw [setChannel_of_ne hc]

@[simp] theorem dropReceiver_inbox (c d : ChanId) :
    ((f.dropReceiver d).channels c).inbox = (f.channels c).inbox :=
  setChannel_inbox (f.channels d).close_inbox c

theorem dropReceiver_unread (c d : ChanId) :
    ((f.dropReceiver d).channels c).unread = (f.channels c).unread := by
  by_cases hc : c = d
  · subst hc
    rw [dropReceiver_self, Channel.close_unread]
  · rw [dropReceiver_of_ne hc]

end Receivers

/-! ### Fields after a send -/

section Deliver

variable {table : Table} {item : Item SteamID} {receivers : List ChanId}

/-- What becomes of a message that is sent to some receivers. -/
def deliverFate (f : MessageFilter SteamID) (table : Table) (receivers : List ChanId) : Fate :=
  let live := receivers.filter fun c => (f.channels c).alive
  if live = [] then .lost table else .delivered table live

/-- A send puts the message into the inbox of each receiver that exists, and nothing else
into any. -/
theorem deliver_eq : f.deliver table item receivers =
    { f with
      channels := fun c => if c ∈ receivers ∧ (f.channels c).alive = true
        then (f.channels c).push item else f.channels c
      task := .awaiting
      fates := f.fates ++ [(item, f.deliverFate table receivers)] } := by
  unfold deliver deliverFate
  dsimp only
  split
  · rename_i hnone
    -- nobody is there to send to, so no inbox changes
    have hchannels : f.channels = fun c => if c ∈ receivers ∧ (f.channels c).alive = true
        then (f.channels c).push item else f.channels c := by
      funext c
      rw [if_neg]
      intro hc
      have hmem : c ∈ receivers.filter fun c => (f.channels c).alive := by simpa using hc
      rw [hnone] at hmem
      cases hmem
    rw [finish, ← hchannels]
  · simp only [finish, List.mem_filter]

variable (f table item receivers)

theorem deliver_channels (c : ChanId) : (f.deliver table item receivers).channels c =
    if c ∈ receivers ∧ (f.channels c).alive = true then (f.channels c).push item
    else f.channels c := by
  rw [deliver_eq]

@[simp] theorem deliver_task : (f.deliver table item receivers).task = .awaiting := by
  rw [deliver_eq]

theorem deliver_fates : (f.deliver table item receivers).fates =
    f.fates ++ [(item, f.deliverFate table receivers)] := by
  rw [deliver_eq]

@[simp] theorem deliver_jobIdMultiFilters :
    (f.deliver table item receivers).jobIdMultiFilters = f.jobIdMultiFilters := by
  rw [deliver_eq]

@[simp] theorem deliver_rest : (f.deliver table item receivers).rest = f.rest := by
  rw [deliver_eq]

@[simp] theorem deliver_nextChan : (f.deliver table item receivers).nextChan = f.nextChan := by
  rw [deliver_eq]

@[simp] theorem deliver_pulled : (f.deliver table item receivers).pulled = f.pulled := by
  rw [deliver_eq]

@[simp] theorem deliver_origins : (f.deliver table item receivers).origins = f.origins := by
  rw [deliver_eq]

/-- A send does not change which receivers exist. -/
@[simp] theorem deliver_alive (c : ChanId) :
    ((f.deliver table item receivers).channels c).alive = (f.channels c).alive := by
  rw [deliver_channels]
  split_ifs <;> rfl

end Deliver

/-! ### The steps of the task -/

section Dispatch

/-- The lookups and sends of the task. -/
inductive Dispatches (f : MessageFilter SteamID) : MessageFilter SteamID → Prop
  | jobHit {item : Item SteamID} {tx : ChanId} (htask : f.task = .jobLookup item)
      (hslot : f.jobIdFilters item.target = some tx) :
      Dispatches f
        { f with
          jobIdFilters := Function.update f.jobIdFilters item.target none
          task := .jobSend item tx }
  | jobMiss {item : Item SteamID} (htask : f.task = .jobLookup item)
      (hslot : f.jobIdFilters item.target = none) :
      Dispatches f { f with task := .multiLookup item }
  | jobSend {item : Item SteamID} {tx : ChanId} (htask : f.task = .jobSend item tx) :
      Dispatches f (f.deliver .jobId item [tx])
  | multiHit {item : Item SteamID} {tx : ChanId} (htask : f.task = .multiLookup item)
      (hslot : f.jobIdMultiFilters item.target = some tx) :
      Dispatches f { f with task := .multiSend item tx }
  | multiMiss {item : Item SteamID} (htask : f.task = .multiLookup item)
      (hslot : f.jobIdMultiFilters item.target = none) :
      Dispatches f { f with task := .kindOnceLookup item }
  | multiSend {item : Item SteamID} {tx : ChanId} (htask : f.task = .multiSend item tx)
      (hroom : ¬ ((f.channels tx).alive = true ∧ (f.channels tx).IsFull channelCapacity)) :
      Dispatches f (f.deliver .jobIdMulti item [tx])
  | kindOnceHit {item : Item SteamID} {tx : ChanId} (htask : f.task = .kindOnceLookup item)
      (hslot : f.oneshotKindFilters item.kind = some tx) :
      Dispatches f
        { f with
          oneshotKindFilters := Function.update f.oneshotKindFilters item.kind none
          task := .kindOnceSend item tx }
  | toNotification {item : Item SteamID} (htask : f.task = .kindOnceLookup item)
      (hslot : f.oneshotKindFilters item.kind = none)
      (hkind : item.kind = EMsg.kEMsgServiceMethod.kind) :
      Dispatches f { f with task := .notificationLookup item }
  | toKind {item : Item SteamID} (htask : f.task = .kindOnceLookup item)
      (hslot : f.oneshotKindFilters item.kind = none)
      (hkind : item.kind ≠ EMsg.kEMsgServiceMethod.kind) :
      Dispatches f { f with task := .kindLookup item }
  | kindOnceSend {item : Item SteamID} {tx : ChanId} (htask : f.task = .kindOnceSend item tx) :
      Dispatches f (f.deliver .oneshotKind item [tx])
  | notificationSend {item : Item SteamID} {notification : ServiceMethodNotification}
      {receivers : List ChanId} (htask : f.task = .notificationLookup item)
      (hread : item.message.intoMessage ServiceMethodNotification.reader = .ok notification)
      (hslot : f.notificationFilters notification.jobName = some receivers) :
      Dispatches f (f.deliver .notification item receivers)
  | notificationIgnored {item : Item SteamID} (htask : f.task = .notificationLookup item) :
      Dispatches f (f.finish item .ignored)
  | kindSend {item : Item SteamID} {receivers : List ChanId} (htask : f.task = .kindLookup item)
      (hslot : f.kindFilters item.kind = some receivers) :
      Dispatches f (f.deliver .kind item receivers)
  | kindMiss {item : Item SteamID} (htask : f.task = .kindLookup item)
      (hslot : f.kindFilters item.kind = none) :
      Dispatches f { f with task := .restPush item }
  | restPush {item : Item SteamID} (htask : f.task = .restPush item) :
      Dispatches f
        ({ f with rest := (f.rest.push item.message).2 }.finish item .unprocessed)

/-- Every step of the task is one of these. -/
theorem dispatches_of_eq_some (h : f.dispatch = some g) : Dispatches f g := by
  unfold dispatch at h
  cases htask : f.task with
  | awaiting => rw [htask] at h; cases h
  | stopped => rw [htask] at h; cases h
  | jobLookup item =>
    rw [htask] at h
    dsimp only at h
    split at h <;> rename_i hslot <;> cases h
    · exact .jobHit htask hslot
    · exact .jobMiss htask hslot
  | jobSend item tx =>
    rw [htask] at h
    cases h
    exact .jobSend htask
  | multiLookup item =>
    rw [htask] at h
    dsimp only at h
    split at h <;> rename_i hslot <;> cases h
    · exact .multiHit htask hslot
    · exact .multiMiss htask hslot
  | multiSend item tx =>
    rw [htask] at h
    dsimp only at h
    split at h <;> rename_i hroom <;> cases h
    exact .multiSend htask hroom
  | kindOnceLookup item =>
    rw [htask] at h
    dsimp only at h
    split at h <;> rename_i hslot
    · cases h
      exact .kindOnceHit htask hslot
    · split at h <;> rename_i hkind <;> cases h
      · exact .toNotification htask hslot hkind
      · exact .toKind htask hslot hkind
  | kindOnceSend item tx =>
    rw [htask] at h
    cases h
    exact .kindOnceSend htask
  | notificationLookup item =>
    rw [htask] at h
    dsimp only at h
    split at h <;> rename_i hread
    · split at h <;> rename_i hslot <;> cases h
      · exact .notificationSend htask hread hslot
      · exact .notificationIgnored htask
    · cases h
      exact .notificationIgnored htask
  | kindLookup item =>
    rw [htask] at h
    dsimp only at h
    split at h <;> rename_i hslot <;> cases h
    · exact .kindSend htask hslot
    · exact .kindMiss htask hslot
  | restPush item =>
    rw [htask] at h
    cases h
    exact .restPush htask

end Dispatch

/-! ### Sending ends -/

section Stored

variable {o o' : Origin} {c d : ChanId}

variable (f) in
/-- The sending end of `c` is stored for the registration `o`. -/
def Stored : Origin → ChanId → Prop
  | .jobId id, c => f.jobIdFilters id = some c
  | .jobIdMulti id, c => f.jobIdMultiFilters id = some c
  | .oneKind kind, c => f.oneshotKindFilters kind = some c
  | .notification jobName, c => c ∈ (f.notificationFilters jobName).getD []
  | .kind kind, c => c ∈ (f.kindFilters kind).getD []

/-- A slot for one receiver stores one sending end at most. -/
theorem Stored.unique (ho : ¬ o.IsBroadcast) (hc : f.Stored o c) (hd : f.Stored o d) : c = d := by
  cases o with
  | jobId id => exact Option.some.inj (hc.symm.trans hd)
  | jobIdMulti id => exact Option.some.inj (hc.symm.trans hd)
  | oneKind kind => exact Option.some.inj (hc.symm.trans hd)
  | notification jobName => exact absurd trivial ho
  | kind kind => exact absurd trivial ho

/-- What a registration `o` does: it makes a channel and stores its sending end. -/
structure Registers (f : MessageFilter SteamID) (o : Origin) (g : MessageFilter SteamID) : Prop where
  nextChan : g.nextChan = f.nextChan + 1
  channels : g.channels = Function.update f.channels f.nextChan { alive := true }
  origins : g.origins = Function.update f.origins f.nextChan (some o)
  task : g.task = f.task
  pulled : g.pulled = f.pulled
  fates : g.fates = f.fates
  stored_new : g.Stored o f.nextChan
  stored_old : ∀ {o' c}, g.Stored o' c → f.Stored o' c ∨ o' = o ∧ c = f.nextChan
  stored_ne : ∀ {o' c}, o' ≠ o → f.Stored o' c → g.Stored o' c

/-- An entry of a table with one slot updated. -/
private theorem update_eq_some {K : Type*} [DecidableEq K] {table : K → Option ChanId} {k k' : K}
    (h : Function.update table k (some d) k' = some c) : table k' = some c ∨ k' = k ∧ c = d := by
  rw [Function.update_apply] at h
  split_ifs at h with hk
  · exact .inr ⟨hk, (Option.some.inj h).symm⟩
  · exact .inl h

/-- A subscriber in a table with one subscriber added. -/
private theorem mem_update_append {K : Type*} [DecidableEq K] {table : K → Option (List ChanId)}
    {k k' : K} (h : c ∈ (Function.update table k (some ((table k).getD [] ++ [d])) k').getD []) :
    c ∈ (table k').getD [] ∨ k' = k ∧ c = d := by
  rw [Function.update_apply] at h
  split_ifs at h with hk
  · subst hk
    rw [Option.getD_some, List.mem_append, List.mem_singleton] at h
    exact h.imp_right fun hc => ⟨rfl, hc⟩
  · exact .inl h

variable (f)

theorem registers_onJobId (id : JobId) : Registers f (.jobId id) (f.onJobId id) where
  nextChan := rfl
  channels := rfl
  origins := rfl
  task := rfl
  pulled := rfl
  fates := rfl
  stored_new := Function.update_self ..
  stored_old {o' c} h := by
    cases o' with
    | jobId id' =>
      exact (update_eq_some h).imp_right fun ⟨hid, hc⟩ => ⟨congrArg Origin.jobId hid, hc⟩
    | _ => exact .inl h
  stored_ne {o' c} hne h := by
    cases o' with
    | jobId id' =>
      exact (Function.update_of_ne (fun hid => hne (congrArg Origin.jobId hid)) ..).trans h
    | _ => exact h

theorem registers_onJobIdMulti (id : JobId) : Registers f (.jobIdMulti id) (f.onJobIdMulti id) where
  nextChan := rfl
  channels := rfl
  origins := rfl
  task := rfl
  pulled := rfl
  fates := rfl
  stored_new := Function.update_self ..
  stored_old {o' c} h := by
    cases o' with
    | jobIdMulti id' =>
      exact (update_eq_some h).imp_right fun ⟨hid, hc⟩ => ⟨congrArg Origin.jobIdMulti hid, hc⟩
    | _ => exact .inl h
  stored_ne {o' c} hne h := by
    cases o' with
    | jobIdMulti id' =>
      exact (Function.update_of_ne (fun hid => hne (congrArg Origin.jobIdMulti hid)) ..).trans h
    | _ => exact h

theorem registers_oneKind (kind : MsgKind) : Registers f (.oneKind kind) (f.oneKind kind) where
  nextChan := rfl
  channels := rfl
  origins := rfl
  task := rfl
  pulled := rfl
  fates := rfl
  stored_new := Function.update_self ..
  stored_old {o' c} h := by
    cases o' with
    | oneKind kind' =>
      exact (update_eq_some h).imp_right fun ⟨hkind, hc⟩ => ⟨congrArg Origin.oneKind hkind, hc⟩
    | _ => exact .inl h
  stored_ne {o' c} hne h := by
    cases o' with
    | oneKind kind' =>
      exact (Function.update_of_ne (fun hkind => hne (congrArg Origin.oneKind hkind)) ..).trans h
    | _ => exact h

theorem registers_onNotification (jobName : String) :
    Registers f (.notification jobName) (f.onNotification jobName) where
  nextChan := rfl
  channels := rfl
  origins := rfl
  task := rfl
  pulled := rfl
  fates := rfl
  stored_new := by simp [Stored, onNotification]
  stored_old {o' c} h := by
    cases o' with
    | notification name' =>
      exact (mem_update_append h).imp_right fun ⟨hname, hc⟩ =>
        ⟨congrArg Origin.notification hname, hc⟩
    | _ => exact .inl h
  stored_ne {o' c} hne h := by
    cases o' with
    | notification name' =>
      have hname : name' ≠ jobName := fun hname => hne (congrArg Origin.notification hname)
      simpa [Stored, onNotification, Function.update_of_ne hname] using h
    | _ => exact h

theorem registers_onKind (kind : MsgKind) : Registers f (.kind kind) (f.onKind kind) where
  nextChan := rfl
  channels := rfl
  origins := rfl
  task := rfl
  pulled := rfl
  fates := rfl
  stored_new := by simp [Stored, onKind]
  stored_old {o' c} h := by
    cases o' with
    | kind kind' =>
      exact (mem_update_append h).imp_right fun ⟨hkind, hc⟩ => ⟨congrArg Origin.kind hkind, hc⟩
    | _ => exact .inl h
  stored_ne {o' c} hne h := by
    cases o' with
    | kind kind' =>
      have hkind : kind' ≠ kind := fun hkind => hne (congrArg Origin.kind hkind)
      simpa [Stored, onKind, Function.update_of_ne hkind] using h
    | _ => exact h

end Stored

/-! ### The steps of the filter -/

section Steps

/-- The registration an action makes. -/
def Action.origin : Action SteamID → Option Origin
  | .onJobId id => some (.jobId id)
  | .onJobIdMulti id => some (.jobIdMulti id)
  | .onNotification jobName => some (.notification jobName)
  | .onKind kind => some (.kind kind)
  | .oneKind kind => some (.oneKind kind)
  | _ => none

/-- The steps of the filter: registrations are one case. -/
inductive StepsTo (f : MessageFilter SteamID) :
    Action SteamID → MessageFilter SteamID → Prop
  | register {a : Action SteamID} {o : Origin} {g : MessageFilter SteamID}
      (ho : a.origin = some o) (hreg : Registers f o g) : StepsTo f a g
  | complete {id : JobId} : StepsTo f (.completeJobIdMulti id) (f.completeJobIdMulti id)
  | unprocessed : StepsTo f .unprocessed f.unprocessed
  | drop {c : ChanId} : StepsTo f (.dropReceiver c) (f.dropReceiver c)
  | recv {c : ChanId} {taken : Nat} (hinbox : (f.channels c).inbox ≠ [])
      (htaken : (f.channels c).taken ≤ taken) :
      StepsTo f (.recv c) (f.setChannel c { f.channels c with taken := taken })
  | pull {message : RawNetMessage SteamID} (htask : f.task = .awaiting) :
      StepsTo f (.next (some (.ok message)))
        { f with task := .jobLookup ⟨f.pulled, message⟩, pulled := f.pulled + 1 }
  | stop {res : Option (Outcome NetworkError (RawNetMessage SteamID))}
      (htask : f.task = .awaiting) (hend : ∀ item ∈ res, EndsTask item) :
      StepsTo f (.next res) { f with task := .stopped }
  | skip {e : NetworkError} (htask : f.task = .awaiting) (hskip : e.stopsTask = false) :
      StepsTo f (.next (some (.err e))) f
  | dispatch {g : MessageFilter SteamID} (h : Dispatches f g) : StepsTo f .dispatch g

/-- What the task does is a lookup or a send. -/
theorem StepsTo.dispatches (h : StepsTo f .dispatch g) : Dispatches f g := by
  cases h with
  | register ho => cases ho
  | dispatch hdispatch => exact hdispatch

/-- Every kind of receiver reads from some position on, no earlier than before, and one that
subscribed to no broadcast from where it is. -/
theorem exists_recv_of_recv {c : ChanId} {item : Item SteamID} (h : f.recv c = some (item, g)) :
    ∃ n channel, (f.channels c).taken ≤ n ∧
      ((∀ o ∈ f.origins c, ¬ o.IsBroadcast) → n = (f.channels c).taken) ∧
      ({ f.channels c with taken := n } : Channel (Item SteamID)).recv = some (item, channel) ∧
      g = f.setChannel c channel := by
  obtain ⟨⟨x, channel⟩, hread, heq⟩ := Option.map_eq_some_iff.mp h
  cases heq
  split at hread
  · rename_i horigin
    exact ⟨_, channel, Nat.le_max_left .., fun hnone => (hnone _ horigin trivial).elim, hread, rfl⟩
  · rename_i horigin
    exact ⟨_, channel, Nat.le_max_left .., fun hnone => (hnone _ horigin trivial).elim, hread, rfl⟩
  · exact ⟨_, channel, Nat.le_refl _, fun _ => rfl, hread, rfl⟩

/-- Reading a receiver changes nothing but how much of its own inbox is taken. -/
theorem of_recv_eq_some {c : ChanId} {item : Item SteamID} (h : f.recv c = some (item, g)) :
    item ∈ (f.channels c).inbox ∧
      ∃ taken, (f.channels c).taken ≤ taken ∧
        g = f.setChannel c { f.channels c with taken := taken } := by
  obtain ⟨n, channel, hn, -, hrecv, rfl⟩ := exists_recv_of_recv h
  obtain ⟨hmem, rfl⟩ := Channel.of_recv_eq_some hrecv
  exact ⟨hmem, _, Nat.le_succ_of_le hn, rfl⟩

/-- Every step of the filter is one of these. -/
theorem stepsTo_of_step {shard : JobId → Nat} {a : Action SteamID}
    (h : f.step shard a = some g) : StepsTo f a g := by
  cases a with
  | onJobId id =>
    cases h
    exact .register rfl (registers_onJobId f id)
  | onJobIdMulti id =>
    simp only [step] at h
    split at h
    · cases h
    · cases h
      exact .register rfl (registers_onJobIdMulti f id)
  | completeJobIdMulti id =>
    simp only [step] at h
    split at h
    · cases h
    · cases h
      exact .complete
  | onNotification jobName =>
    cases h
    exact .register rfl (registers_onNotification f jobName)
  | onKind kind =>
    cases h
    exact .register rfl (registers_onKind f kind)
  | oneKind kind =>
    cases h
    exact .register rfl (registers_oneKind f kind)
  | unprocessed =>
    cases h
    exact .unprocessed
  | dropReceiver c =>
    cases h
    exact .drop
  | recv c =>
    simp only [step] at h
    split at h
    · obtain ⟨⟨item, g⟩, hrecv, rfl⟩ := Option.map_eq_some_iff.mp h
      obtain ⟨hmem, taken, htaken, rfl⟩ := of_recv_eq_some hrecv
      exact .recv (List.ne_nil_of_mem hmem) htaken
    · cases h
  | next res =>
    simp only [step] at h
    split at h
    · rename_i htask
      cases h
      match res with
      | none => exact .stop htask fun item hitem => nomatch hitem
      | some .panic => exact .stop htask fun item hitem => Option.mem_some.mp hitem ▸ trivial
      | some (.ok message) => exact .pull htask
      | some (.err e) =>
        cases hstop : e.stopsTask with
        | true =>
          simp only [MessageFilter.next, hstop, if_true]
          exact .stop htask fun item hitem => Option.mem_some.mp hitem ▸ hstop
        | false =>
          simp only [MessageFilter.next, hstop, Bool.false_eq_true, if_false]
          exact .skip htask hstop
    · cases h
  | dispatch => exact .dispatch (dispatches_of_eq_some h)

end Steps

end MessageFilter

end SteamWire
