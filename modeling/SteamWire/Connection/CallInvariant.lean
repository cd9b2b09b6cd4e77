import Mathlib.Data.List.Nodup
import SteamWire.Connection.ClientStep

/-!
# What ties a call to the filter

As long as no id is handed out twice, the slot of a call holds the sending end of that call
only, its receiver gets messages for its own job only, and the sending end of a call that got
no message yet is in the slot or in the hand of the task (`CallInv`). The steps of a call keep
its own tie, and the steps of everybody else keep it too, because they are not registrations
for the slot of the call (`CallInv.of_steps`).

When the peer addresses only calls whose request it was sent, the task is busy with no message
for a call that is about to register. Then the first message for a call finds the sending end
(`Inv`).
-/

namespace SteamWire

open Semantics

namespace Phase

/-- The receiver of the call exists. -/
def IsOpen : Phase → Prop
  | .drawn | .finished _ => False
  | _ => True

/-- The call gives out responses one by one, and takes its registration back itself. -/
def IsStreaming : Phase → Prop
  | .yielding _ | .completing => True
  | _ => False

theorem IsOpen.ne_drawn {phase : Phase} (h : phase.IsOpen) : phase ≠ .drawn := by
  rintro rfl
  exact h

theorem IsSuspended.isOpen {phase : Phase} (h : phase.IsSuspended) : phase.IsOpen := by
  cases phase with
  | drawn => exact h.elim
  | finished exit => exact h.elim
  | _ => trivial

end Phase

namespace Call

/-- A call for one response whose receiver exists. -/
def Listens (call : Call) : Prop := call.kind.isMulti = false ∧ call.phase.IsOpen

theorem Listens.origin_eq {call : Call} (h : call.Listens) : call.origin = .jobId call.id := by
  simp [origin, h.1]

theorem origin_eq_or (call : Call) :
    call.origin = .jobId call.id ∨ call.origin = .jobIdMulti call.id := by
  unfold origin
  split
  · exact .inr rfl
  · exact .inl rfl

/-- The registration of a call tells its id. -/
theorem id_of_origin {call : Call} {id : JobId}
    (h : call.origin = .jobId id ∨ call.origin = .jobIdMulti id) : call.id = id := by
  unfold origin at h
  split_ifs at h
  · exact Origin.jobIdMulti.inj (h.resolve_left nofun)
  · exact Origin.jobId.inj (h.resolve_right nofun)

/-- Calls with different ids register for different slots. -/
theorem id_eq_of_origin_eq {call other : Call} (h : call.origin = other.origin) :
    call.id = other.id :=
  id_of_origin (h ▸ other.origin_eq_or)

theorem origin_not_isBroadcast (call : Call) : ¬ call.origin.IsBroadcast := by
  unfold origin
  split <;> exact not_false

/-- After a response a call is not waiting for another, and only a multi job goes on. -/
theorem afterResponse_cases (call : Call) (response : Except NetworkError Bool) :
    (∃ exit, call.afterResponse response = .closing exit) ∨
      call.kind.isMulti = true ∧ ∃ completed, call.afterResponse response = .yielding completed := by
  unfold afterResponse
  split
  · split_ifs with hmulti
    · exact .inr ⟨hmulti, _, rfl⟩
    · exact .inl ⟨_, rfl⟩
  · exact .inl ⟨_, rfl⟩

end Call

/-- The task holds the sending end for the job its message is addressed to. -/
theorem FilterTask.target_of_held {SteamID : Type} {task : FilterTask SteamID} {call : Call}
    {c : ChanId} (h : task.held = some (call.origin, c)) :
    ∃ item, task.item = some item ∧ item.target = call.id := by
  unfold Call.origin at h
  cases task with
  | jobSend item tx =>
    simp only [held, Option.some.injEq, Prod.mk.injEq] at h
    split_ifs at h
    · cases h.1
    · exact ⟨item, rfl, Origin.jobId.inj h.1⟩
  | multiSend item tx =>
    simp only [held, Option.some.injEq, Prod.mk.injEq] at h
    split_ifs at h
    · exact ⟨item, rfl, Origin.jobIdMulti.inj h.1⟩
    · cases h.1
  | kindOnceSend item tx =>
    simp only [held, Option.some.injEq, Prod.mk.injEq] at h
    split_ifs at h <;> cases h.1
  | _ => cases h

namespace MessageFilter.Action

variable {SteamID : Type} {b : Action SteamID} {id : JobId} {call : Call}

/-- The action neither registers for the job nor completes it. -/
def IsForeign (b : Action SteamID) (id : JobId) : Prop :=
  match b with
  | .onJobId id' | .onJobIdMulti id' | .completeJobIdMulti id' => id' ≠ id
  | _ => True

theorem IsForeign.ne_complete (h : b.IsForeign id) : b ≠ .completeJobIdMulti id := by
  rintro rfl
  exact h rfl

theorem IsForeign.ne_of_origin (h : b.IsForeign id) {o : Origin} (ho : b.origin = some o) :
    o ≠ .jobId id ∧ o ≠ .jobIdMulti id := by
  cases b with
  | onJobId id' =>
    cases ho
    exact ⟨fun heq => h (Origin.jobId.inj heq), nofun⟩
  | onJobIdMulti id' =>
    cases ho
    exact ⟨nofun, fun heq => h (Origin.jobIdMulti.inj heq)⟩
  | onNotification | onKind | oneKind =>
    cases ho
    exact ⟨nofun, nofun⟩
  | _ => cases ho

theorem IsForeign.origin_ne (h : b.IsForeign call.id) : b.origin ≠ some call.origin := by
  intro ho
  obtain ⟨hsingle, hmulti⟩ := h.ne_of_origin ho
  exact call.origin_eq_or.elim hsingle hmulti

/-- What a call does to register is foreign to the other jobs. -/
theorem isForeign_of_origin (ho : b.origin = some call.origin) (hid : call.id ≠ id) :
    b.IsForeign id := by
  cases b with
  | onJobId id' => exact fun heq => hid ((Call.id_of_origin (.inl (Option.some.inj ho).symm)).trans heq)
  | onJobIdMulti id' =>
    exact fun heq => hid ((Call.id_of_origin (.inr (Option.some.inj ho).symm)).trans heq)
  | completeJobIdMulti => cases ho
  | _ => trivial

end MessageFilter.Action

namespace Client

variable {SteamID : Type} {shard : JobId → Nat} {s t : Client SteamID} {f g : MessageFilter SteamID}
  {a : Action SteamID} {i j : Nat} {call call' other : Call}

/-! ### The registration of one call -/

section OneCall

/-- What ties a call to the filter. -/
structure CallInv (f : MessageFilter SteamID) (call : Call) : Prop where
  origin : call.phase ≠ .drawn → f.origins call.chan = some call.origin
  slot : call.phase ≠ .drawn → ∀ {c}, f.Stored call.origin c → c = call.chan
  held : call.phase ≠ .drawn → ∀ {c}, f.task.held = some (call.origin, c) → c = call.chan
  alive : call.phase.IsOpen → (f.channels call.chan).alive = true
  inbox : call.phase ≠ .drawn → ∀ item ∈ (f.channels call.chan).inbox, item.target = call.id
  unanswered : call.Listens → (f.channels call.chan).inbox = [] →
    f.Stored call.origin call.chan ∨ f.task.held = some (call.origin, call.chan)
  multi : call.phase.IsStreaming → call.kind.isMulti = true

/-- A call that is about to register is tied to nothing. -/
theorem callInv_of_drawn (h : call.phase = .drawn) : CallInv f call where
  origin hne := absurd h hne
  slot hne := absurd h hne
  held hne := absurd h hne
  alive hopen := absurd h (Phase.IsOpen.ne_drawn hopen)
  inbox hne := absurd h hne
  unanswered hlistens := absurd h (Phase.IsOpen.ne_drawn hlistens.2)
  multi hstream := by
    rw [h] at hstream
    exact hstream.elim

/-- A receiver is there until it is dropped. -/
theorem alive_of_steps {b : MessageFilter.Action SteamID} {c : ChanId} (h : f.StepsTo b g)
    (hdrop : b ≠ .dropReceiver c) (halive : (f.channels c).alive = true) :
    (g.channels c).alive = true := by
  cases h with
  | register ho hreg =>
    rw [hreg.channels, Function.update_apply]
    split_ifs
    · rfl
    · exact halive
  | @drop d =>
    have hd : c ≠ d := by
      rintro rfl
      exact hdrop rfl
    rwa [MessageFilter.dropReceiver_of_ne hd]
  | @recv d taken hinbox =>
    by_cases hd : c = d
    · subst hd
      rwa [MessageFilter.setChannel_self]
    · rwa [MessageFilter.setChannel_of_ne hd]
  | dispatch hdispatch =>
    cases hdispatch with
    | jobSend | multiSend | kindOnceSend | notificationSend | kindSend =>
      rwa [MessageFilter.deliver_alive]
    | _ => exact halive
  | _ => exact halive

/-- A message gets past the job table only when no sending end is stored for it there. -/
theorem pastJob_cases {b : MessageFilter.Action SteamID} (h : f.StepsTo b g) {item : Item SteamID}
    (hg : g.task.pastJob = some item) :
    f.task.pastJob = some item ∨
      f.task = .jobLookup item ∧ f.jobIdFilters item.target = none := by
  cases h with
  | register ho hreg => exact .inl (by rwa [hreg.task] at hg)
  | pull => cases hg
  | stop => cases hg
  | dispatch hdispatch =>
    cases hdispatch with
    | jobMiss htask hslot =>
      cases hg
      exact .inr ⟨htask, hslot⟩
    | multiHit htask | multiMiss htask | kindOnceHit htask | toNotification htask | toKind htask
    | kindMiss htask =>
      cases hg
      exact .inl (by rw [htask]; rfl)
    | jobSend | multiSend | kindOnceSend | notificationSend | kindSend =>
      rw [MessageFilter.deliver_task] at hg
      cases hg
    | _ => cases hg
  | _ => exact .inl hg

/-- The receiver of a registered call is its own, and gets messages for its job only. -/
def Receives (f : MessageFilter SteamID) (call : Call) : Prop :=
  call.phase ≠ .drawn → f.origins call.chan = some call.origin ∧
    ∀ item ∈ (f.channels call.chan).inbox, item.target = call.id

/-- Whatever happens to the filter, the receiver of a call stays its own. -/
theorem Receives.of_steps {b : MessageFilter.Action SteamID} (hf : Receives f call) (hown : f.Owned)
    (h : f.StepsTo b g) : Receives g call := by
  intro hne
  obtain ⟨horigin, hinbox⟩ := hf hne
  have horigin' : g.origins call.chan = some call.origin := by
    rw [h.origins_eq (.inl (hown.ne_nextChan horigin)), horigin]
  refine ⟨horigin', fun item hmem => ?_⟩
  -- a message the receiver got in this step was sent with the sending end of the call
  obtain ⟨-, hold | hsend⟩ := hown.mem_inbox_cases h call.origin_not_isBroadcast horigin' hmem
  · exact hinbox item hold
  · obtain ⟨item', hitem', htarget⟩ := FilterTask.target_of_held hsend.held
    have hsame : item = item' := Option.some.inj (hsend.item_eq.symm.trans hitem')
    rw [hsame, htarget]

theorem CallInv.receives (hf : CallInv f call) : Receives f call :=
  fun hne => ⟨hf.origin hne, hf.inbox hne⟩

/-- The steps of others, and the reading of a call's own receiver, keep the call tied to the
filter as it was. -/
theorem CallInv.of_steps {b : MessageFilter.Action SteamID} (hf : CallInv f call) (hown : f.Owned)
    (h : f.StepsTo b g) (hreg : b.origin ≠ some call.origin)
    (hdrop : call.phase.IsOpen → b ≠ .dropReceiver call.chan) : CallInv g call where
  origin hne := (hf.receives.of_steps hown h hne).1
  slot hne {c} hg := by
    rcases h.stored_of hg with hold | ⟨ho, -⟩
    · exact hf.slot hne hold
    · exact absurd ho hreg
  held hne {c} hg := by
    rcases h.held_of hg with ⟨hold, -⟩ | ⟨hstored, -⟩
    · exact hf.held hne hold
    · exact hf.slot hne hstored
  alive hopen := alive_of_steps h (hdrop hopen) (hf.alive hopen)
  inbox hne := (hf.receives.of_steps hown h hne).2
  unanswered hlistens hg := by
    have hempty := hown.inbox_eq_nil_of_steps h hg
    -- stored or in the hand of the task: the next step of the task would fill the inbox
    have halive := hf.alive hlistens.2
    rcases hf.unanswered hlistens hempty with hstored | hheld
    · rcases h.stored_or hstored with hstored' | hheld' | ho | ⟨id, -, ho⟩
      · exact .inl hstored'
      · exact .inr hheld'
      · exact absurd ho hreg
      · -- only a multi job takes its registration back
        rw [hlistens.origin_eq] at ho
        cases ho
    · by_cases hb : b = .dispatch
      · subst hb
        have hdispatch := h.dispatches
        exact absurd hg (hdispatch.inbox_of_held hheld halive)
      · exact .inr (h.held_eq hb hheld)
  multi := hf.multi

/-- A call moves on without losing its registration. -/
theorem CallInv.congr (hf : CallInv f call) (hkind : call'.kind = call.kind)
    (hid : call'.id = call.id) (hchan : call'.chan = call.chan) (hne : call.phase ≠ .drawn)
    (hopen : call'.phase.IsOpen → call.phase.IsOpen)
    (hmulti : call'.phase.IsStreaming → call.kind.isMulti = true) : CallInv f call' := by
  have horigin : call'.origin = call.origin := by simp only [Call.origin, hkind, hid]
  have hlistens : call'.Listens → call.Listens := fun h => ⟨hkind ▸ h.1, hopen h.2⟩
  refine ⟨fun _ => ?_, fun _ => ?_, fun _ => ?_, fun h => ?_, fun _ => ?_, fun h => ?_, fun h => ?_⟩
  · rw [hchan, horigin]
    exact hf.origin hne
  · rw [hchan, horigin]
    exact hf.slot hne
  · rw [hchan, horigin]
    exact hf.held hne
  · rw [hchan]
    exact hf.alive (hopen h)
  · rw [hchan, hid]
    exact hf.inbox hne
  · rw [hchan, horigin]
    exact hf.unanswered (hlistens h)
  · rw [hkind]
    exact hmulti h

/-- A registration ties the call to the filter, when the task holds no sending end for its
job. -/
theorem callInv_of_registers (hreg : f.Registers call.origin g)
    (hfree : ∀ c, f.task.held ≠ some (call.origin, c)) :
    CallInv g { call with chan := f.nextChan, phase := .registered } where
  origin _ := hreg.origins_new
  slot _ {c} hg := hg.unique call.origin_not_isBroadcast hreg.stored_new
  held _ {c} hg := by
    rw [hreg.task] at hg
    exact absurd hg (hfree c)
  alive _ := by
    rw [hreg.channels_new]
  inbox _ item hmem := by
    rw [hreg.channels_new] at hmem
    cases hmem
  unanswered _ _ := .inl hreg.stored_new
  multi hstream := hstream.elim

/-- The steps of a call keep it tied to the filter. -/
theorem CallInv.of_callSteps (hf : CallInv f call) (hown : f.Owned)
    (hfree : call.phase = .drawn → ∀ c, f.task.held ≠ some (call.origin, c))
    (h : CallSteps f call a call' g) : CallInv g call' := by
  cases h with
  | register hphase hreg => exact callInv_of_registers hreg (hfree hphase)
  | transmit hphase =>
    exact hf.congr rfl rfl rfl (by simp [hphase]) (fun h => h) fun h => hf.multi h
  | sendOk hphase =>
    exact hf.congr rfl rfl rfl (by simp [hphase]) (fun _ => by rw [hphase]; trivial) fun h => h.elim
  | @receive _ item taken hphase hitem htaken =>
    -- reading is a step of the filter, and then the call goes on
    have hsteps : f.StepsTo (.recv call.chan)
        (f.setChannel call.chan { f.channels call.chan with taken := taken }) :=
      .recv (List.ne_nil_of_mem hitem) htaken
    have hread := hf.of_steps hown hsteps (by simp [MessageFilter.Action.origin]) fun _ => by simp
    refine hread.congr rfl rfl rfl (by simp [hphase]) (fun _ => by rw [hphase]; trivial) ?_
    intro hstream
    rcases call.afterResponse_cases (call.respond item.message) with ⟨exit, hexit⟩ | ⟨hmulti, -⟩
    · simp [hexit, Phase.IsStreaming] at hstream
    · exact hmulti
  | close hcloses hphase hexit =>
    have hopen := Phase.IsSuspended.isOpen hphase
    exact hf.congr rfl rfl rfl (Phase.IsOpen.ne_drawn hopen) (fun _ => hopen) fun h => h.elim
  | resume hphase =>
    have hmulti : call.kind.isMulti = true := hf.multi (by rw [hphase]; trivial)
    exact hf.congr rfl rfl rfl (by simp [hphase]) (fun _ => by rw [hphase]; trivial) fun _ => hmulti
  | complete hphase =>
    have hsteps : f.StepsTo (.completeJobIdMulti call.id) (f.completeJobIdMulti call.id) := .complete
    have htaken := hf.of_steps hown hsteps (by simp [MessageFilter.Action.origin]) fun _ => by simp
    exact htaken.congr rfl rfl rfl (by simp [hphase]) (fun _ => by rw [hphase]; trivial)
      fun h => h.elim
  | @finish _ exit hphase =>
    have hdone : CallInv f { call with phase := .finished exit } :=
      hf.congr rfl rfl rfl (by simp [hphase]) (fun h => h.elim) fun h => h.elim
    exact hdone.of_steps hown .drop (by simp [MessageFilter.Action.origin]) fun h => h.elim

/-- The steps of a call keep its kind and its id. -/
theorem CallSteps.id_eq (h : CallSteps f call a call' g) :
    call'.kind = call.kind ∧ call'.id = call.id := by
  cases h <;> exact ⟨rfl, rfl⟩

/-- The steps of a call keep its channel, unless it registers. -/
theorem CallSteps.chan_eq (h : CallSteps f call a call' g) (hne : call.phase ≠ .drawn) :
    call'.chan = call.chan ∧ call'.phase ≠ .drawn := by
  cases h with
  | register hphase => exact absurd hphase hne
  | transmit => exact ⟨rfl, hne⟩
  | @receive _ item =>
    refine ⟨rfl, ?_⟩
    rcases call.afterResponse_cases (call.respond item.message) with ⟨_, hexit⟩ | ⟨-, _, hyield⟩
    · simp [hexit]
    · simp [hyield]
  | @resume _ completed =>
    refine ⟨rfl, ?_⟩
    cases completed <;> simp
  | _ => exact ⟨rfl, by simp⟩

/-- A call that is about to register does nothing else. -/
theorem CallSteps.of_drawn (h : CallSteps f call a call' g) (hphase : call.phase = .drawn) :
    ∃ i, a = .register i ∧ call' = { call with chan := f.nextChan, phase := .registered } ∧
      f.Registers call.origin g := by
  cases h with
  | @register i _ _ hreg => exact ⟨i, rfl, rfl, hreg⟩
  | transmit hother | sendOk hother | receive hother | resume hother | complete hother
  | finish hother =>
    rw [hphase] at hother
    cases hother
  | close _ hother =>
    rw [hphase] at hother
    exact hother.elim

/-- A receiver that exists after a step of a call existed before, unless the call registers. -/
theorem CallSteps.isOpen_of (h : CallSteps f call a call' g) (hne : call.phase ≠ .drawn)
    (hopen : call'.phase.IsOpen) : call.phase.IsOpen := by
  cases h with
  | register hphase => exact absurd hphase hne
  | transmit => exact hopen
  | close _ hphase => exact Phase.IsSuspended.isOpen hphase
  | finish => exact hopen.elim
  | sendOk hphase | receive hphase | resume hphase | complete hphase =>
    rw [hphase]
    trivial

/-- No message for a call that got none has been looked up in the job table in vain. -/
def NotPassed (f : MessageFilter SteamID) (call : Call) : Prop :=
  call.Listens → (f.channels call.chan).inbox = [] →
    ∀ item, f.task.pastJob = some item → item.target ≠ call.id

/-- A message for the call finds the sending end in the job table. -/
theorem NotPassed.of_steps {b : MessageFilter.Action SteamID} (hf : NotPassed f call)
    (hinv : CallInv f call) (hown : f.Owned) (h : f.StepsTo b g) : NotPassed g call := by
  intro hlistens hg item hpast htarget
  have hempty := hown.inbox_eq_nil_of_steps h hg
  rcases pastJob_cases h hpast with hold | ⟨htask, hslot⟩
  · exact hf hlistens hempty item hold htarget
  · rcases hinv.unanswered hlistens hempty with hstored | hheld
    · rw [hlistens.origin_eq, MessageFilter.Stored, ← htarget, hslot] at hstored
      cases hstored
    · rw [htask] at hheld
      cases hheld

/-- A call registers when the task is busy with no message for it. -/
theorem NotPassed.of_callSteps (hf : NotPassed f call) (hinv : CallInv f call) (hown : f.Owned)
    (hbusy : call.phase = .drawn → ∀ item, f.task.item = some item → item.target ≠ call.id)
    (h : CallSteps f call a call' g) : NotPassed g call' := by
  obtain ⟨hkind, hid⟩ := h.id_eq
  intro hlistens hempty item hpast
  rw [hid]
  by_cases hphase : call.phase = .drawn
  · refine hbusy hphase item (FilterTask.item_of_pastJob ?_)
    cases h with
    | register _ hreg => rwa [← hreg.task]
    | _ => exact hpast
  · have hbefore : call.Listens := ⟨hkind ▸ hlistens.1, h.isOpen_of hphase hlistens.2⟩
    rw [(h.chan_eq hphase).1] at hempty
    rcases h.filter_cases with rfl | ⟨b, hb, -⟩
    · exact hf hbefore hempty item hpast
    · exact hf.of_steps hinv hown hb hbefore hempty item hpast

end OneCall

/-! ### All calls -/

section AllCalls

/-- What ties the calls to the filter and keeps them apart. -/
structure Attached (s : Client SteamID) : Prop where
  owned : s.filter.Owned
  ids : (s.calls.map Call.id).Nodup
  call : ∀ call ∈ s.calls, CallInv s.filter call

/-- What holds beyond that when the peer addresses only calls whose request it was sent. -/
structure Inv (s : Client SteamID) : Prop extends Attached s where
  ne_none : ∀ call ∈ s.calls, call.id ≠ JobId.none
  sent : ∀ call ∈ s.calls, call.sent = true → call.phase ≠ .drawn
  passed : ∀ call ∈ s.calls, NotPassed s.filter call
  addressed : ∀ item, s.filter.task.item = some item → item.target = JobId.none ∨
    ∃ call ∈ s.calls, call.sent = true ∧ call.id = item.target

/-- A drawn id was not handed out before, and is not the one that stands for no job. -/
def FreshIds (s : Client SteamID) (a : Action SteamID) : Prop :=
  ∀ kind parse thread, a = .draw kind parse thread →
    s.nextJobId ≠ JobId.none ∧ ∀ call ∈ s.calls, call.id ≠ s.nextJobId

/-- What others than the calls do is foreign to every job. -/
theorem Permits.isForeign {b : MessageFilter.Action SteamID} (h : s.Permits b) (id : JobId) :
    b.IsForeign id := by
  cases b with
  | onJobId | onJobIdMulti | completeJobIdMulti => exact h.elim
  | _ => trivial

/-- A step of the filter leaves a call alone: it is foreign to its job, and neither takes
anything from its receiver nor drops it. -/
structure Spares (b : MessageFilter.Action SteamID) (call : Call) : Prop where
  foreign : b.IsForeign call.id
  recv : call.phase ≠ .drawn → b ≠ .recv call.chan
  drop : call.phase ≠ .drawn → b ≠ .dropReceiver call.chan

theorem spares_next (res : Option (Outcome NetworkError (RawNetMessage SteamID))) (call : Call) :
    Spares (.next res) call :=
  ⟨trivial, fun _ => by simp, fun _ => by simp⟩

/-- What others than the calls do leaves the calls alone. -/
theorem Permits.spares {b : MessageFilter.Action SteamID} (h : s.Permits b)
    (hcall : call ∈ s.calls) : Spares b call := by
  refine ⟨h.isForeign _, fun hne => ?_, fun hne => ?_⟩ <;> rintro rfl <;> exact h call hcall hne rfl

/-- Ids tell calls apart. -/
theorem index_eq_of_id_eq (hids : (s.calls.map Call.id).Nodup) (hi : s.calls[i]? = some call)
    (hj : s.calls[j]? = some other) (hid : call.id = other.id) : i = j := by
  have hi' : (s.calls.map Call.id)[i]? = some call.id := by rw [List.getElem?_map, hi]; rfl
  have hj' : (s.calls.map Call.id)[j]? = some call.id := by rw [List.getElem?_map, hj, hid]; rfl
  exact (List.getElem?_inj (List.getElem?_eq_some_iff.mp hi').1 hids).mp (hi'.trans hj'.symm)

/-- After a step of one call the others are as they were, and have other ids. -/
theorem mem_set_cases (hids : (s.calls.map Call.id).Nodup) (hcall : s.calls[i]? = some call)
    (h : other ∈ s.calls.set i call') : other = call' ∨ other ∈ s.calls ∧ other.id ≠ call.id := by
  obtain ⟨j, hj⟩ := List.mem_iff_getElem?.mp h
  by_cases hij : i = j
  · subst hij
    have hlt : i < s.calls.length := (List.getElem?_eq_some_iff.mp hcall).1
    rw [List.getElem?_set_self hlt, Option.some.injEq] at hj
    exact .inl hj.symm
  · rw [List.getElem?_set_ne hij] at hj
    exact .inr ⟨List.mem_of_getElem? hj, fun hid => hij (index_eq_of_id_eq hids hcall hj hid.symm)⟩

/-- A step of one call keeps the others. -/
theorem mem_set_of_ne (hcall : s.calls[i]? = some call) (hother : other ∈ s.calls)
    (hne : other ≠ call) : other ∈ s.calls.set i call' := by
  obtain ⟨j, hj⟩ := List.mem_iff_getElem?.mp hother
  have hij : i ≠ j := by
    rintro rfl
    exact hne (Option.some.inj (hj.symm.trans hcall))
  exact List.mem_of_getElem? ((List.getElem?_set_ne hij).trans hj)

/-- Calls with one id are one call. -/
theorem Attached.eq_of_id_eq (hs : s.Attached) (hcall : call ∈ s.calls) (hother : other ∈ s.calls)
    (hid : call.id = other.id) : call = other :=
  List.inj_on_of_nodup_map hs.ids hcall hother hid

/-- What one call does to the filter is no message, and leaves the others alone. -/
theorem Attached.spares_of_callSteps (hs : s.Attached) (hcall : call ∈ s.calls)
    (hother : other ∈ s.calls) (hid : other.id ≠ call.id)
    (h : CallSteps s.filter call a call' g) :
    g = s.filter ∨ ∃ b, s.filter.StepsTo b g ∧ (∀ res, b ≠ .next res) ∧ Spares b other := by
  -- the receivers of two calls are two
  have hchan : call.phase ≠ .drawn → other.phase ≠ .drawn → call.chan ≠ other.chan := by
    intro hne hne' heq
    have horigin := (hs.call other hother).origin hne'
    rw [← heq, (hs.call call hcall).origin hne, Option.some.injEq] at horigin
    exact hid (Call.id_eq_of_origin_eq horigin).symm
  rcases h.filter_cases with hsame | ⟨b, hb, ⟨-, ho, -⟩ | ⟨hne, -, rfl | rfl | rfl⟩⟩
  · exact .inl hsame
  · have hforeign := MessageFilter.Action.isForeign_of_origin ho hid.symm
    refine .inr ⟨b, hb, fun res => ?_, hforeign, fun _ => ?_, fun _ => ?_⟩ <;> rintro rfl <;>
      cases ho
  · exact .inr ⟨_, hb, fun _ => by simp, hid.symm, fun _ => by simp, fun _ => by simp⟩
  · refine .inr ⟨_, hb, fun _ => by simp, trivial, fun hne' heq => ?_, fun _ => by simp⟩
    exact hchan hne hne' (MessageFilter.Action.recv.inj heq)
  · refine .inr ⟨_, hb, fun _ => by simp, trivial, fun _ => by simp, fun hne' heq => ?_⟩
    exact hchan hne hne' (MessageFilter.Action.dropReceiver.inj heq)

/-- A step of the filter that leaves a call alone keeps it tied. -/
theorem CallInv.of_spares {b : MessageFilter.Action SteamID} (hf : CallInv f call) (hown : f.Owned)
    (h : f.StepsTo b g) (hspares : Spares b call) : CallInv g call :=
  hf.of_steps hown h hspares.foreign.origin_ne fun hopen => hspares.drop hopen.ne_drawn

/-- A step of one call keeps the others tied to the filter. -/
theorem Attached.callInv_of_other (hs : s.Attached) (hcall : call ∈ s.calls)
    (hother : other ∈ s.calls) (hid : other.id ≠ call.id)
    (h : CallSteps s.filter call a call' g) : CallInv g other := by
  rcases hs.spares_of_callSteps hcall hother hid h with rfl | ⟨b, hsteps, -, hspares⟩
  · exact hs.call other hother
  · exact (hs.call other hother).of_spares hs.owned hsteps hspares

/-- The task gets a message only from the receive pipeline. -/
theorem item_of_steps {b : MessageFilter.Action SteamID} (h : f.StepsTo b g)
    (hb : ∀ res, b ≠ .next res) {item : Item SteamID} (hg : g.task.item = some item) :
    f.task.item = some item := by
  cases h with
  | register ho hreg => rwa [hreg.task] at hg
  | pull => exact absurd rfl (hb _)
  | stop => exact absurd rfl (hb _)
  | dispatch hdispatch =>
    rcases hdispatch.fates_cases with ⟨-, hitem⟩ | ⟨_, _, -, -, htask, -⟩
    · rwa [hitem] at hg
    · rw [htask] at hg
      cases hg
  | _ => exact hg

/-- The steps of a call leave the task alone. -/
theorem CallSteps.item_of (h : CallSteps f call a call' g) {item : Item SteamID}
    (hg : g.task.item = some item) : f.task.item = some item := by
  rcases h.filter_cases with rfl | ⟨b, hsteps, hb⟩
  · exact hg
  · refine item_of_steps hsteps ?_ hg
    rintro res rfl
    rcases hb with ⟨-, horigin, -⟩ | ⟨-, -, hb⟩
    · cases horigin
    · simp at hb

theorem CallSteps.owned_of (h : CallSteps f call a call' g) (hown : f.Owned) : g.Owned := by
  rcases h.filter_cases with rfl | ⟨b, hsteps, -⟩
  · exact hown
  · exact hown.of_steps hsteps

/-- A request that was sent stays sent, and is sent after the registration. -/
theorem CallSteps.sent_of (h : CallSteps f call a call' g) :
    (call.sent = true → call'.sent = true) ∧
      ((call.sent = true → call.phase ≠ .drawn) → call'.sent = true → call'.phase ≠ .drawn) := by
  cases h with
  | register => exact ⟨fun h => h, fun _ _ => by simp⟩
  | transmit hphase => exact ⟨fun _ => rfl, fun _ _ => by simp [hphase]⟩
  | @receive _ item =>
    refine ⟨fun h => h, fun _ _ => ?_⟩
    rcases call.afterResponse_cases (call.respond item.message) with ⟨_, hexit⟩ | ⟨-, _, hyield⟩
    · simp [hexit]
    · simp [hyield]
  | @resume _ completed =>
    refine ⟨fun h => h, fun _ _ => ?_⟩
    cases completed <;> simp
  | _ => exact ⟨fun h => h, fun _ _ => by simp⟩

/-- What holds of the calls so far and of a new one holds of all of them. -/
theorem forall_mem_draw {P : Call → Prop} {new : Call} (hold : ∀ call ∈ s.calls, P call)
    (hnew : P new) : ∀ call ∈ s.calls ++ [new], P call :=
  List.forall_mem_append.mpr ⟨hold, List.forall_mem_singleton.mpr hnew⟩

/-- A call with a fresh id is tied to nothing. -/
theorem Attached.of_draw {kind : CallKind} {parse : Bytes → Except MessageBodyError Bool}
    {thread : Nat} (hs : s.Attached) (hnew : ∀ call ∈ s.calls, call.id ≠ s.nextJobId) :
    Attached { s with
      jobId := s.jobId + 1
      calls := s.calls ++ [{ kind, parse, thread, id := s.nextJobId }] } := by
  refine ⟨hs.owned, ?_, forall_mem_draw hs.call (callInv_of_drawn rfl)⟩
  rw [List.map_append, List.nodup_append]
  refine ⟨hs.ids, List.nodup_singleton _, ?_⟩
  rintro id hid id' hid' rfl
  obtain ⟨call, hcall, rfl⟩ := List.mem_map.mp hid
  exact hnew call hcall (List.mem_singleton.mp hid')

/-- Steps of the filter that leave the calls alone. -/
theorem Attached.of_filter_steps {b : MessageFilter.Action SteamID} (hs : s.Attached)
    (h : s.filter.StepsTo b g) (hspares : ∀ call ∈ s.calls, Spares b call) :
    Attached { s with filter := g } where
  owned := hs.owned.of_steps h
  ids := hs.ids
  call call hcall := (hs.call call hcall).of_spares hs.owned h (hspares call hcall)

/-- After a step of one call, what holds of it and of the others, whose ids differ, holds of
all. -/
theorem forall_mem_set {P : Call → Prop} (hids : (s.calls.map Call.id).Nodup)
    (hcall : s.calls[i]? = some call) (hself : P call')
    (hothers : ∀ other ∈ s.calls, other.id ≠ call.id → P other) :
    ∀ other ∈ s.calls.set i call', P other := by
  intro other hother
  rcases mem_set_cases hids hcall hother with rfl | ⟨hold, hne⟩
  · exact hself
  · exact hothers other hold hne

/-- A step of one call keeps its tie by what the call does, and the ties of the others because
their ids differ. -/
theorem Attached.of_callSteps (hs : s.Attached) (hcall : s.calls[i]? = some call)
    (hfree : call.phase = .drawn → ∀ c, s.filter.task.held ≠ some (call.origin, c))
    (h : CallSteps s.filter call a call' g) : (s.update i call' g).Attached := by
  have hmem := List.mem_of_getElem? hcall
  refine ⟨h.owned_of hs.owned, ?_, forall_mem_set hs.ids hcall ?_ fun other hother hne =>
    hs.callInv_of_other hmem hother hne h⟩
  · have hsame : (s.calls.set i call').map Call.id = s.calls.map Call.id := by
      refine List.ext_getElem? fun k => ?_
      simp only [List.getElem?_map, List.getElem?_set]
      split_ifs with hk hlt
      · rw [← hk, hcall, Option.map_some, Option.map_some, h.id_eq.2]
      · rw [← hk, List.getElem?_eq_none (not_lt.mp hlt)]
      · rfl
    exact hsame ▸ hs.ids
  · exact (hs.call call hmem).of_callSteps hs.owned hfree h

/-- Every step that hands out fresh ids keeps the calls apart and tied to the filter, unless a
call registers while the task holds a sending end for its job. -/
theorem Attached.of_steps (hs : s.Attached) (h : StepsTo s a t) (hfresh : FreshIds s a)
    (hfree : ∀ call ∈ s.calls, call.phase = .drawn →
      ∀ c, s.filter.task.held ≠ some (call.origin, c)) : t.Attached := by
  cases h with
  | draw => exact hs.of_draw (hfresh _ _ _ rfl).2
  | source hsteps => exact hs.of_filter_steps hsteps fun call _ => spares_next _ call
  | filter hpermits hsteps => exact hs.of_filter_steps hsteps fun _ => hpermits.spares
  | call ha hcall hsteps =>
    exact hs.of_callSteps hcall (hfree _ (List.mem_of_getElem? hcall)) hsteps

/-- What holds of a new call, and is kept by the steps of the filter that leave a call alone and
by those of the call itself, holds of all calls. -/
theorem forall_calls_of_steps {P : MessageFilter SteamID → Call → Prop} (hs : s.Attached)
    (h : StepsTo s a t)
    (hnew : ∀ kind parse thread, a = .draw kind parse thread →
      P s.filter { kind, parse, thread, id := s.nextJobId })
    (hfilter : ∀ {b g call}, call ∈ s.calls → s.filter.StepsTo b g → Spares b call →
      P s.filter call → P g call)
    (hcall : ∀ {a call call' g}, call ∈ s.calls → CallSteps s.filter call a call' g →
      P s.filter call → P g call')
    (hP : ∀ call ∈ s.calls, P s.filter call) : ∀ call ∈ t.calls, P t.filter call := by
  cases h with
  | draw => exact forall_mem_draw hP (hnew _ _ _ rfl)
  | source hsteps =>
    exact fun call hmem => hfilter hmem hsteps (spares_next _ call) (hP call hmem)
  | filter hpermits hsteps =>
    exact fun call hmem => hfilter hmem hsteps (hpermits.spares hmem) (hP call hmem)
  | @call a i call call' g ha hget hsteps =>
    have hmem := List.mem_of_getElem? hget
    refine forall_mem_set hs.ids hget (hcall hmem hsteps (hP call hmem)) fun other hold hne => ?_
    rcases hs.spares_of_callSteps hmem hold hne hsteps with hsame | ⟨b, hb, -, hspares⟩
    · exact hsame ▸ hP other hold
    · exact hfilter hold hb hspares (hP other hold)

end AllCalls

/-! ### An honest peer -/

section Peer

/-- The task is busy with no message for a call that has not registered. -/
theorem Inv.not_busy_of_drawn (hs : s.Inv) (hcall : call ∈ s.calls) (hphase : call.phase = .drawn) :
    ∀ item, s.filter.task.item = some item → item.target ≠ call.id := by
  intro item hitem htarget
  -- what the task is busy with is addressed to a call whose request was sent
  rcases hs.addressed item hitem with hnone | ⟨other, hother, hsent, hid⟩
  · exact hs.ne_none call hcall (htarget.symm.trans hnone)
  · have hsame := hs.eq_of_id_eq hcall hother (htarget.symm.trans hid.symm)
    exact hs.sent other hother hsent (hsame ▸ hphase)

/-- The task holds no sending end for a call that has not registered. -/
theorem Inv.not_held_of_drawn (hs : s.Inv) (hcall : call ∈ s.calls) (hphase : call.phase = .drawn)
    (c : ChanId) : s.filter.task.held ≠ some (call.origin, c) := by
  intro hheld
  -- it would hold it for a message addressed to the call
  obtain ⟨item, hitem, htarget⟩ := FilterTask.target_of_held hheld
  exact hs.not_busy_of_drawn hcall hphase item hitem htarget

/-- The task gets messages for calls whose request was sent. -/
theorem Inv.addressed_of_steps (hs : s.Inv) (h : StepsTo s a t) (hpeer : s.Honest a)
    {item : Item SteamID} (hitem : t.filter.task.item = some item) :
    item.target = JobId.none ∨ ∃ call ∈ t.calls, call.sent = true ∧ call.id = item.target := by
  cases h with
  | draw =>
    refine (hs.addressed item hitem).imp_right ?_
    rintro ⟨call, hcall, hsent⟩
    exact ⟨call, List.mem_append_left _ hcall, hsent⟩
  | source hsteps =>
    -- only here does the task get a message
    cases hsteps with
    | register ho => cases ho
    | pull =>
      cases hitem
      exact hpeer
    | stop => cases hitem
    | skip => exact hs.addressed item hitem
  | filter hpermits hsteps =>
    refine hs.addressed item (item_of_steps hsteps ?_ hitem)
    rintro res rfl
    exact hpermits
  | @call _ i call call' g ha hcall hsteps =>
    refine (hs.addressed item (hsteps.item_of hitem)).imp_right ?_
    rintro ⟨other, hother, hsent, htarget⟩
    by_cases hsame : other = call
    · -- the request stays sent when its call moves on
      subst hsame
      exact ⟨call', List.mem_set (List.getElem?_eq_some_iff.mp hcall).1 _, hsteps.sent_of.1 hsent,
        hsteps.id_eq.2.trans htarget⟩
    · exact ⟨other, mem_set_of_ne hcall hother hsame, hsent, htarget⟩

/-- Every step that hands out fresh ids, with an honest peer, keeps what ties the calls to the
filter. -/
theorem Inv.of_steps (hs : s.Inv) (h : StepsTo s a t) (hfresh : FreshIds s a)
    (hpeer : s.Honest a) : t.Inv := by
  have hattached := hs.toAttached.of_steps h hfresh fun call hcall => hs.not_held_of_drawn hcall
  have hnone : ∀ call ∈ t.calls, call.id ≠ JobId.none :=
    forall_calls_of_steps (P := fun _ call => call.id ≠ JobId.none) hs.toAttached h
      (fun _ _ _ ha => (hfresh _ _ _ ha).1) (fun _ _ _ hold => hold)
      (fun _ hsteps hold => by rwa [hsteps.id_eq.2]) hs.ne_none
  have hsent : ∀ call ∈ t.calls, call.sent = true → call.phase ≠ .drawn :=
    forall_calls_of_steps (P := fun _ call => call.sent = true → call.phase ≠ .drawn) hs.toAttached
      h (fun _ _ _ _ hsent => by cases hsent) (fun _ _ _ hold => hold)
      (fun _ hsteps hold => hsteps.sent_of.2 hold) hs.sent
  have hpassed : ∀ call ∈ t.calls, NotPassed t.filter call :=
    forall_calls_of_steps hs.toAttached h (fun _ _ _ _ hlistens => hlistens.2.elim)
      (fun hmem hsteps _ hold => hold.of_steps (hs.call _ hmem) hs.owned hsteps)
      (fun hmem hsteps hold =>
        hold.of_callSteps (hs.call _ hmem) hs.owned (hs.not_busy_of_drawn hmem) hsteps)
      hs.passed
  exact ⟨hattached, hnone, hsent, hpassed, fun item hitem => hs.addressed_of_steps h hpeer hitem⟩

end Peer

end Client

end SteamWire
