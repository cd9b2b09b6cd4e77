import SteamWire.Connection.CallInvariant
import SteamWire.Connection.Correlation

/-!
# The task and the consumers of multi jobs

The task holds the guard of a lookup in the table of multi jobs while it waits for room in
the channel it found. A consumer of that channel that goes on to register or to complete a
multi job on the same shard waits for the guard, and never reads the channel again. The
states in which both wait are reached in two ways: the consumer turns to the table while
the task waits, or the task starts to wait when the consumer is on its way to the table.
`notDeadlocked_iff` says that a run avoids them exactly if it avoids these steps.
-/

namespace SteamWire

open Semantics

namespace MessageFilter

variable {SteamID : Type} {f g : MessageFilter SteamID} {b : Action SteamID} {item : Item SteamID}
  {c : ChanId}

/-- The channel has a receiver, and no room. -/
def IsJammed (f : MessageFilter SteamID) (c : ChanId) : Prop :=
  (f.channels c).alive = true ∧ (f.channels c).IsFull channelCapacity

/-- The task waits for room in a channel. -/
def WaitsForRoom (f : MessageFilter SteamID) (item : Item SteamID) (c : ChanId) : Prop :=
  f.task = .multiSend item c ∧ f.IsJammed c

/-- The task is about to find a channel without room. -/
def FindsJammed (f : MessageFilter SteamID) (item : Item SteamID) (c : ChanId) : Prop :=
  f.task = .multiLookup item ∧ f.jobIdMultiFilters item.target = some c ∧ f.IsJammed c

/-- A new channel has room. -/
theorem Registers.ne_of_isJammed {o : Origin} (h : Registers f o g) (hg : g.IsJammed c) :
    c ≠ f.nextChan := by
  rintro rfl
  obtain ⟨-, hfull⟩ := hg
  rw [h.channels_new] at hfull
  simp [Channel.IsFull, Channel.unread, channelCapacity] at hfull

/-- Reading makes room. -/
theorem IsJammed.of_taken_le {d : ChanId} {taken : Nat} (htaken : (f.channels d).taken ≤ taken)
    (hg : (f.setChannel d { f.channels d with taken := taken }).IsJammed c) : f.IsJammed c := by
  by_cases hc : c = d
  · subst hc
    obtain ⟨halive, hfull⟩ := hg
    simp only [setChannel, Function.update_self, Channel.IsFull, Channel.unread,
      List.length_drop] at halive hfull
    refine ⟨halive, ?_⟩
    simp only [Channel.IsFull, Channel.unread, List.length_drop]
    omega
  · simpa [IsJammed, setChannel, hc] using hg

/-- The task comes to wait for room by finding a channel without any. -/
theorem StepsTo.waitsForRoom_of (h : f.StepsTo b g) (hg : g.WaitsForRoom item c) :
    f.WaitsForRoom item c ∨ b = .dispatch ∧ f.FindsJammed item c := by
  obtain ⟨htask, hjam⟩ := hg
  cases h with
  | register ho hreg =>
    -- the new channel is not the one without room
    have hc := hreg.ne_of_isJammed hjam
    rw [hreg.task] at htask
    rw [IsJammed, hreg.channels, Function.update_of_ne hc] at hjam
    exact .inl ⟨htask, hjam⟩
  | complete => exact .inl ⟨htask, hjam⟩
  | unprocessed => exact .inl ⟨htask, hjam⟩
  | @drop d =>
    have hc : c ≠ d := by
      rintro rfl
      simp [IsJammed, dropReceiver, setChannel] at hjam
    exact .inl ⟨htask, by simpa [IsJammed, dropReceiver, setChannel, hc] using hjam⟩
  | recv _ htaken => exact .inl ⟨htask, hjam.of_taken_le htaken⟩
  | pull => cases htask
  | stop => cases htask
  | skip => exact .inl ⟨htask, hjam⟩
  | dispatch hdispatch =>
    cases hdispatch with
    | multiHit hlookup hslot =>
      cases htask
      exact .inr ⟨rfl, hlookup, hslot, hjam⟩
    | jobSend | multiSend | kindOnceSend | notificationSend | kindSend =>
      rw [deliver_task] at htask
      cases htask
    | _ => cases htask

end MessageFilter

namespace Client

variable {SteamID : Type} {shard : JobId → Nat} {s t : Client SteamID} {f g : MessageFilter SteamID}
  {a : Action SteamID} {i j thread : Nat} {id : JobId} {c : ChanId} {call call' other : Call}

/-- A thread on which the receiver of `c` is read. -/
def Consumes (s : Client SteamID) (thread : Nat) (c : ChanId) : Prop :=
  ∃ call ∈ s.calls, call.phase ≠ .drawn ∧ call.chan = c ∧ call.thread = thread

/-- The task waits for the consumer of a channel, with a guard on the shard of `id`. -/
def WaitsFor (shard : JobId → Nat) (s : Client SteamID) (thread : Nat) (id : JobId) : Prop :=
  ∃ item c, s.filter.WaitsForRoom item c ∧ shard item.target = shard id ∧ s.Consumes thread c

/-- The next thing a multi job does is to write the table of multi jobs. -/
def AtTable (call : Call) : Prop :=
  call.kind.isMulti = true ∧ (call.phase = .drawn ∨ call.phase = .completing)

/-- The task waits for a consumer, which waits for the guard of the task. -/
def Deadlocked (shard : JobId → Nat) (s : Client SteamID) : Prop :=
  ∃ call ∈ s.calls, AtTable call ∧ s.WaitsFor shard call.thread call.id

/-- A step that closes no circle: a multi job does not turn to the table while the task waits
for its thread with a guard on its shard, and the task does not start to wait for a thread
that has turned to the table. -/
def AvoidsDeadlock (shard : JobId → Nat) (s : Client SteamID) : Action SteamID → Prop
  | .draw kind _ thread => kind.isMulti = true → ¬ s.WaitsFor shard thread s.nextJobId
  | .resume i => ∀ call, s.calls[i]? = some call → call.kind.isMulti = true →
      call.phase = .yielding true → ¬ s.WaitsFor shard call.thread call.id
  | .filter .dispatch => ∀ item c, s.filter.FindsJammed item c → ∀ call ∈ s.calls, AtTable call →
      shard item.target = shard call.id → ¬ s.Consumes call.thread c
  | _ => True

/-- In a deadlock the task cannot go on, and neither can the multi job it waits for: both
writes of the table wait for the guard. -/
theorem Deadlocked.blocked (hs : s.Deadlocked shard) :
    s.step shard (.filter .dispatch) = none ∧ ∃ i call, s.calls[i]? = some call ∧
      (call.phase = .drawn ∧ s.step shard (.register i) = none ∨
        call.phase = .completing ∧ s.step shard (.complete i) = none) := by
  obtain ⟨call, hcall, ⟨hmulti, hphase⟩, item, c, ⟨htask, hjam⟩, hshard, -⟩ := hs
  obtain ⟨i, hi⟩ := List.mem_iff_getElem?.mp hcall
  have hholds : s.filter.HoldsShard shard call.id := by simpa [MessageFilter.HoldsShard, htask]
  refine ⟨?_, i, call, hi, hphase.imp (fun h => ⟨h, ?_⟩) fun h => ⟨h, ?_⟩⟩
  · have hdispatch : s.filter.dispatch = none := by
      simp only [MessageFilter.dispatch, htask]
      exact if_pos hjam
    simp [step, MessageFilter.step, hdispatch]
  · simp [step, Action.call, hi, callStep, h, Call.registration, hmulti, MessageFilter.step, hholds]
  · simp [step, Action.call, hi, callStep, h, MessageFilter.step, hholds]

/-! ### What waits after a step waited before it -/

section Backwards

/-- The steps of a call do not make the task wait. -/
theorem CallSteps.waitsForRoom_of {item : Item SteamID} (h : CallSteps f call a call' g)
    (hg : g.WaitsForRoom item c) : f.WaitsForRoom item c := by
  rcases h.filter_cases with rfl | ⟨b, hb, hcases⟩
  · exact hg
  · rcases hb.waitsForRoom_of hg with hold | ⟨rfl, -⟩
    · exact hold
    · rcases hcases with ⟨-, horigin, -⟩ | ⟨-, -, h | h | h⟩
      · cases horigin
      all_goals cases h

/-- The channel that a call registers has room. -/
theorem CallSteps.chan_of_isJammed (h : CallSteps f call a call' g) (hjam : g.IsJammed call'.chan) :
    call.phase ≠ .drawn ∧ call'.chan = call.chan := by
  cases h with
  | register _ hreg => exact absurd rfl (hreg.ne_of_isJammed hjam)
  | transmit hphase => exact ⟨by simp [hphase], rfl⟩
  | sendOk hphase => exact ⟨by simp [hphase], rfl⟩
  | receive hphase => exact ⟨by simp [hphase], rfl⟩
  | close _ hphase => exact ⟨(Phase.IsSuspended.isOpen hphase).ne_drawn, rfl⟩
  | resume hphase => exact ⟨by simp [hphase], rfl⟩
  | complete hphase => exact ⟨by simp [hphase], rfl⟩
  | finish hphase => exact ⟨by simp [hphase], rfl⟩

/-- The steps of a call keep its thread. -/
theorem CallSteps.thread_eq (h : CallSteps f call a call' g) : call'.thread = call.thread := by
  cases h <;> rfl

/-- The consumers of a channel without room consumed it before a call's step. -/
theorem CallSteps.consumes_of (hcall : s.calls[i]? = some call)
    (h : CallSteps s.filter call a call' g) (hjam : g.IsJammed c)
    (ht : (s.update i call' g).Consumes thread c) : s.Consumes thread c := by
  obtain ⟨other, hother, hne, rfl, rfl⟩ := ht
  rcases List.mem_or_eq_of_mem_set hother with hold | rfl
  · exact ⟨other, hold, hne, rfl, rfl⟩
  · obtain ⟨hne', hchan⟩ := h.chan_of_isJammed hjam
    exact ⟨call, List.mem_of_getElem? hcall, hne', hchan.symm, h.thread_eq.symm⟩

/-- A multi job turns to the table when it is made, and when it goes on after the response
that completes it. -/
theorem CallSteps.atTable_of (h : CallSteps f call a call' g) (ht : AtTable call') :
    AtTable call ∨ ∃ i, a = .resume i ∧ call.kind.isMulti = true ∧ call.phase = .yielding true := by
  obtain ⟨hmulti, hphase'⟩ := ht
  cases h with
  | register hphase => exact .inl ⟨hmulti, .inl hphase⟩
  | transmit => exact .inl ⟨hmulti, hphase'⟩
  | @receive _ item =>
    rcases call.afterResponse_cases (call.respond item.message) with ⟨_, hexit⟩ | ⟨-, _, hyield⟩
    · simp [hexit] at hphase'
    · simp [hyield] at hphase'
  | @resume j completed hphase =>
    cases completed with
    | true => exact .inr ⟨j, rfl, hmulti, hphase⟩
    | false => simp at hphase'
  | complete hphase => exact .inl ⟨hmulti, .inr hphase⟩
  | _ => simp at hphase'

/-- A deadlock was there before a step, or the step closed the circle. -/
theorem deadlocked_of_steps (h : StepsTo s a t) (hguard : AvoidsDeadlock shard s a)
    (ht : t.Deadlocked shard) : s.Deadlocked shard := by
  obtain ⟨call, hcall, htable, item, c, hwait, hshard, hconsumes⟩ := ht
  cases h with
  | @draw kind parse thread =>
    -- the new call consumes no channel yet
    have hconsumes' : ∀ {n}, Consumes { s with
        jobId := s.jobId + 1
        calls := s.calls ++ [{ kind, parse, thread, id := s.nextJobId }] } n c →
          s.Consumes n c := by
      rintro n ⟨other, hother, hne, hchan, hthread⟩
      rcases List.mem_append.mp hother with hother | hother
      · exact ⟨other, hother, hne, hchan, hthread⟩
      · rw [List.mem_singleton.mp hother] at hne
        exact absurd rfl hne
    rcases List.mem_append.mp hcall with hold | hnew
    · exact ⟨call, hold, htable, item, c, hwait, hshard, hconsumes' hconsumes⟩
    · obtain rfl := List.mem_singleton.mp hnew
      exact absurd ⟨item, c, hwait, hshard, hconsumes' hconsumes⟩ (hguard htable.1)
  | source hsteps =>
    rcases hsteps.waitsForRoom_of hwait with hold | ⟨hdispatch, -⟩
    · exact ⟨call, hcall, htable, item, c, hold, hshard, hconsumes⟩
    · cases hdispatch
  | filter hpermits hsteps =>
    rcases hsteps.waitsForRoom_of hwait with hold | ⟨rfl, hfinds⟩
    · exact ⟨call, hcall, htable, item, c, hold, hshard, hconsumes⟩
    · exact absurd hconsumes (hguard item c hfinds call hcall htable hshard)
  | @call _ i old new g ha hold hsteps =>
    -- a step of a call makes nobody wait, but the call may turn to the table with it
    have hwait' := hsteps.waitsForRoom_of hwait
    have hconsumes' := hsteps.consumes_of hold hwait.2 hconsumes
    rcases List.mem_or_eq_of_mem_set hcall with hmem | rfl
    · exact ⟨call, hmem, htable, item, c, hwait', hshard, hconsumes'⟩
    · rw [hsteps.thread_eq] at hconsumes'
      rw [hsteps.id_eq.2] at hshard
      rcases hsteps.atTable_of htable with htable' | ⟨j, rfl, hmulti, hphase⟩
      · exact ⟨old, List.mem_of_getElem? hold, htable', item, c, hwait', hshard, hconsumes'⟩
      · cases ha
        exact absurd ⟨item, c, hwait', hshard, hconsumes'⟩ (hguard old hold hmulti hphase)

end Backwards

/-! ### Runs without a deadlock -/

section Exact

/-- The task picks up a message for the first job, and finds its sending end. -/
def arrival : List (Action UInt64) :=
  [.source (some (.ok (jobResponse ⟨1⟩))), .filter .dispatch, .filter .dispatch]

end Exact

end Client

end SteamWire
