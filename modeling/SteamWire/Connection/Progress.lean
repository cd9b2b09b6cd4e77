import Mathlib.Algebra.Order.BigOperators.Group.List
import SteamWire.Connection.Cleanup
import SteamWire.Connection.Deadlock

/-!
# What a connection does by itself

The steps that need nothing from outside: the lookups and sends of the task, and the steps
by which calls register, are told that their request was sent, read their receivers and
finish. They come to an end (`measure_lt_of_isProgress`), and where they do, unless there is
a deadlock, the task has dealt with every message it pulled and no thread is kept busy
(`Wired.task_of_quiet`, `Wired.idle_of_quiet`).
-/

namespace SteamWire

open Semantics

/-- How many more steps the task can take with its message. -/
def FilterTask.rank {SteamID : Type} : FilterTask SteamID → Nat
  | .jobLookup _ => 5
  | .multiLookup _ => 4
  | .kindOnceLookup _ => 3
  | .kindLookup _ => 2
  | .jobSend _ _ | .multiSend _ _ | .kindOnceSend _ _ | .notificationLookup _ | .restPush _ => 1
  | .awaiting | .stopped => 0

/-- How far a call is from its end, receiving left out. -/
def Phase.rank : Phase → Nat
  | .drawn => 6
  | .registered => 5
  | .yielding _ => 4
  | .waiting => 3
  | .completing => 2
  | .closing _ => 1
  | .finished _ => 0

theorem Phase.IsFinished.ne_drawn {phase : Phase} (h : phase.IsFinished) : phase ≠ .drawn := by
  rintro rfl
  exact h

namespace MessageFilter

variable {SteamID : Type} {f g : MessageFilter SteamID} {b : Action SteamID} {c : ChanId}

/-- A step of the task brings it closer to its next message. -/
theorem Dispatches.rank_lt (h : Dispatches f g) : g.task.rank < f.task.rank := by
  cases h with
  | jobHit htask | jobMiss htask | multiHit htask | multiMiss htask | kindOnceHit htask
  | toNotification htask | toKind htask | notificationIgnored htask | kindMiss htask
  | restPush htask =>
    rw [htask]
    simp [FilterTask.rank, finish]
  | jobSend htask | multiSend htask | kindOnceSend htask | notificationSend htask
  | kindSend htask =>
    rw [htask, deliver_task]
    simp [FilterTask.rank]

/-- A step of the task makes one more message unread at most. -/
theorem Dispatches.unread_le (h : Dispatches f g) (c : ChanId) :
    (g.channels c).unread.length ≤ (f.channels c).unread.length + 1 := by
  cases h with
  | jobSend | multiSend | kindOnceSend | notificationSend | kindSend =>
    rw [deliver_channels]
    simp only [Channel.unread, List.length_drop]
    split_ifs
    · simp only [Channel.push, List.length_append, List.length_singleton]
      omega
    · omega
  | _ => exact Nat.le_succ _

/-- Reading takes a message. -/
theorem unread_lt_of_recv {item : Item SteamID} (h : f.recv c = some (item, g)) :
    (g.channels c).unread.length < (f.channels c).unread.length ∧
      ∀ d, d ≠ c → g.channels d = f.channels d := by
  obtain ⟨n, channel, hn, -, hrecv, rfl⟩ := exists_recv_of_recv h
  obtain ⟨hsome, -⟩ := List.getElem?_eq_some_iff.mp (Channel.getElem?_of_recv hrecv)
  obtain ⟨-, rfl⟩ := Channel.of_recv_eq_some hrecv
  refine ⟨?_, fun d hd => Function.update_of_ne hd ..⟩
  simp only [setChannel, Function.update_self, Channel.unread, List.length_drop] at hsome ⊢
  omega

/-- The task can go on with its message unless it waits for room. -/
theorem task_of_dispatch_eq_none (h : f.dispatch = none) :
    f.task = .awaiting ∨ f.task = .stopped ∨ ∃ item c, f.WaitsForRoom item c := by
  unfold dispatch at h
  cases htask : f.task with
  | awaiting => exact .inl rfl
  | stopped => exact .inr (.inl rfl)
  | multiSend item tx =>
    rw [htask] at h
    dsimp only at h
    split_ifs at h with hjam
    exact .inr (.inr ⟨item, tx, htask, hjam⟩)
  | jobSend | restPush =>
    rw [htask] at h
    cases h
  | kindOnceSend =>
    rw [htask] at h
    cases h
  | jobLookup | multiLookup | kindLookup =>
    rw [htask] at h
    dsimp only at h
    split at h <;> cases h
  | kindOnceLookup =>
    rw [htask] at h
    dsimp only at h
    split at h
    · cases h
    · split at h <;> cases h
  | notificationLookup =>
    rw [htask] at h
    dsimp only at h
    split at h
    · split at h <;> cases h
    · cases h

end MessageFilter

namespace Client

variable {SteamID : Type} {shard : JobId → Nat} {s t : Client SteamID} {f g : MessageFilter SteamID}
  {a : Action SteamID} {i j thread : Nat} {call call' other : Call}

/-- The steps a connection takes by itself. The transport decides when it takes a request. -/
def Action.IsProgress : Action SteamID → Prop
  | .register _ | .sendOk _ | .receive _ | .closed _ | .resume _ | .complete _ | .finish _
  | .filter .dispatch => True
  | _ => False

/-! ### Progress comes to an end -/

section Measure

/-- What is left to do for a call. -/
def weight (f : MessageFilter SteamID) (call : Call) : Nat :=
  3 * (f.channels call.chan).unread.length + call.phase.rank

/-- What is left to do for the task and the calls. A message can become one to read for every
call. -/
def measure (s : Client SteamID) : Nat :=
  s.filter.task.rank * (3 * s.calls.length + 1) + (s.calls.map (weight s.filter)).sum

/-- A sum in which one item is replaced by a smaller one, and no other grows. -/
private theorem sum_map_set_lt {ι : Type*} {v w : ι → Nat} {l : List ι} {n : Nat} {x y : ι}
    (hle : ∀ z, w z ≤ v z) (hx : l[n]? = some x) (hlt : w y < v x) :
    ((l.set n y).map w).sum < (l.map v).sum := by
  induction l generalizing n with
  | nil => cases hx
  | cons z l ih =>
    cases n with
    | zero =>
      obtain rfl := Option.some.inj hx
      have hrest : (l.map w).sum ≤ (l.map v).sum := List.sum_le_sum fun i _ => hle i
      simp only [List.set_cons_zero, List.map_cons, List.sum_cons]
      omega
    | succ n =>
      have hrest := ih hx
      have hz := hle z
      simp only [List.set_cons_succ, List.map_cons, List.sum_cons]
      omega

/-- A sum in which every item grows by a bounded amount. -/
private theorem sum_map_le_add {ι : Type*} {v w : ι → Nat} {l : List ι} {n : Nat}
    (hle : ∀ z, w z ≤ v z + n) : (l.map w).sum ≤ (l.map v).sum + n * l.length := by
  induction l with
  | nil => exact Nat.zero_le _
  | cons z l ih =>
    have hz := hle z
    simp only [List.map_cons, List.sum_cons, List.length_cons, Nat.mul_succ]
    omega

/-- A step by which a call goes on leaves it less to do, and the others no more. -/
theorem weight_of_callStep (ha : a.IsProgress) (h : s.callStep shard call a = some (call', g)) :
    weight g call' < weight s.filter call ∧ ∀ other, weight g other ≤ weight s.filter other := by
  have hsame : ∀ phase : Phase, phase.rank < call.phase.rank →
      weight s.filter { call with phase } < weight s.filter call := by
    intro phase hphase
    simp only [weight]
    omega
  cases callSteps_of_callStep h with
  | register hphase hreg =>
    -- the new channel is empty
    have hnew : ∀ c, (g.channels c).unread.length ≤ (s.filter.channels c).unread.length := by
      intro c
      rw [hreg.channels, Function.update_apply]
      split_ifs
      · exact Nat.zero_le _
      · exact Nat.le_refl _
    refine ⟨?_, fun other => Nat.add_le_add_right (Nat.mul_le_mul_left 3 (hnew _)) _⟩
    simp only [weight, hphase, hreg.channels_new, Phase.rank]
    simp [Channel.unread]
  | receive hphase =>
    obtain ⟨-, hmap⟩ := Option.ite_none_right_eq_some.mp h
    obtain ⟨⟨item, filter⟩, hrecv, heq⟩ := Option.map_eq_some_iff.mp hmap
    obtain ⟨hcall, hfilter⟩ := Prod.mk.inj heq
    rw [← hcall, ← hfilter]
    obtain ⟨hlt, hothers⟩ := MessageFilter.unread_lt_of_recv hrecv
    constructor
    · have hrank : (call.afterResponse (call.respond item.message)).rank ≤ 4 := by
        rcases call.afterResponse_cases (call.respond item.message) with ⟨_, hexit⟩ | ⟨-, _, hyield⟩
        · simp [hexit, Phase.rank]
        · simp [hyield, Phase.rank]
      simp only [weight, hphase, Phase.rank] at hrank ⊢
      omega
    · intro other
      by_cases hc : other.chan = call.chan
      · simp only [weight, hc]
        omega
      · simp only [weight, hothers _ hc, Nat.le_refl]
  | sendOk hphase => exact ⟨hsame _ (by simp [hphase, Phase.rank]), fun _ => Nat.le_refl _⟩
  | close hcloses hphase =>
    refine ⟨hsame _ ?_, fun _ => Nat.le_refl _⟩
    cases hcall : call.phase with
    | registered | waiting | yielding => simp [Phase.rank]
    | drawn | completing | closing | finished =>
      rw [hcall] at hphase
      exact hphase.elim
  | resume hphase =>
    refine ⟨hsame _ ?_, fun _ => Nat.le_refl _⟩
    split_ifs <;> simp [hphase, Phase.rank]
  | complete hphase => exact ⟨hsame _ (by simp [hphase, Phase.rank]), fun _ => Nat.le_refl _⟩
  | finish hphase =>
    refine ⟨?_, fun other => by simp only [weight, MessageFilter.dropReceiver_unread, Nat.le_refl]⟩
    simp only [weight, MessageFilter.dropReceiver_unread, hphase, Phase.rank]
    omega
  | transmit => exact ha.elim

/-- The steps of calls leave the task where it is. -/
theorem CallSteps.task_eq (h : CallSteps f call a call' g) : g.task = f.task := by
  cases h with
  | register _ hreg => exact hreg.task
  | _ => rfl

/-- Every step that the connection takes by itself leaves less to do. -/
theorem measure_lt_of_isProgress (ha : a.IsProgress) (h : s.step shard a = some t) :
    t.measure < s.measure := by
  have hcall : ∀ i, a.call = some i → t.measure < s.measure := by
    intro i hi
    obtain ⟨call, call', filter, hget, hstep, rfl⟩ := exists_callStep_of_step h hi
    obtain ⟨hlt, hle⟩ := weight_of_callStep ha hstep
    have hsum := sum_map_set_lt hle hget hlt
    simp only [measure, update, (callSteps_of_callStep hstep).task_eq, List.length_set]
    omega
  cases a with
  | filter b =>
    obtain ⟨-, hmap⟩ := Option.ite_none_right_eq_some.mp h
    obtain ⟨filter, hfilter, rfl⟩ := Option.map_eq_some_iff.mp hmap
    cases b with
    | dispatch =>
      have hdispatch := MessageFilter.dispatches_of_eq_some hfilter
      have hrank := hdispatch.rank_lt
      -- a message that is delivered makes every call heavier by three at most
      have hsum : (s.calls.map (weight filter)).sum ≤
          (s.calls.map (weight s.filter)).sum + 3 * s.calls.length := by
        apply sum_map_le_add
        intro call
        have hunread := hdispatch.unread_le call.chan
        simp only [weight]
        omega
      have hmul := Nat.mul_le_mul_right (3 * s.calls.length + 1) hrank
      rw [Nat.succ_mul] at hmul
      simp only [measure]
      omega
    | _ => exact ha.elim
  | draw | source => exact ha.elim
  | _ => exact hcall _ rfl

end Measure

/-! ### The receivers of multi jobs -/

section Wired

/-- The calls are tied to the filter, finished calls have dropped their receivers, and the
receivers of multi jobs are those of the calls. -/
structure Wired (s : Client SteamID) : Prop where
  inv : s.Inv
  kept : ∀ call ∈ s.calls, Kept s.filter call
  gone : ∀ call ∈ s.calls, call.phase.IsFinished → (s.filter.channels call.chan).alive = false
  owners : ∀ {c id}, s.filter.origins c = some (.jobIdMulti id) →
    ∃ call ∈ s.calls, call.phase ≠ .drawn ∧ call.chan = c

/-- A receiver that is gone does not come back. -/
theorem dead_of_steps {b : MessageFilter.Action SteamID} {c : ChanId} {o : Origin} (hown : f.Owned)
    (h : f.StepsTo b g) (ho : f.origins c = some o) (hdead : (f.channels c).alive = false) :
    (g.channels c).alive = false := by
  by_contra hne
  rcases h.alive_of (eq_true_of_ne_false hne) with halive | ⟨hnew, -⟩
  · rw [hdead] at halive
    cases halive
  · exact hown.ne_nextChan ho hnew

/-- A call makes no receiver of a multi job but its own. -/
theorem CallSteps.origins_of {c : ChanId} {o : Origin} (h : CallSteps f call a call' g)
    (hg : g.origins c = some o) : f.origins c = some o ∨ call'.phase ≠ .drawn ∧ call'.chan = c := by
  cases h with
  | register hphase hreg =>
    rw [hreg.origins, Function.update_apply] at hg
    split_ifs at hg with hc
    · exact .inr ⟨by simp, hc.symm⟩
    · exact .inl hg
  | _ => exact .inl hg

/-- Steps that are foreign to all jobs make no receiver of a multi job. -/
theorem Wired.owners_of_steps {b : MessageFilter.Action SteamID} {c : ChanId} {id : JobId}
    (hs : s.Wired) (h : s.filter.StepsTo b g) (hforeign : b.IsForeign id)
    (hg : g.origins c = some (.jobIdMulti id)) :
    ∃ call ∈ s.calls, call.phase ≠ .drawn ∧ call.chan = c := by
  rcases h.origin_cases hg with hold | ⟨hnew, -⟩
  · exact hs.owners hold
  · exact absurd rfl (hforeign.ne_of_origin hnew).2

/-- A call drops its receiver when it finishes, and stays without one. -/
theorem Wired.gone_of_steps (hs : s.Wired) (h : StepsTo s a t) :
    ∀ call ∈ t.calls, call.phase.IsFinished → (t.filter.channels call.chan).alive = false := by
  refine forall_calls_of_steps
    (P := fun f call => call.phase.IsFinished → (f.channels call.chan).alive = false)
    hs.inv.toAttached h (fun _ _ _ _ hdone => hdone.elim) (fun hmem hsteps _ hold hdone => ?_)
    (fun {a call call' g} hmem hsteps hold hdone => ?_) hs.gone
  · exact dead_of_steps hs.inv.owned hsteps ((hs.inv.call _ hmem).origin hdone.ne_drawn)
      (hold hdone)
  · obtain ⟨i, exit, rfl, hphase, rfl⟩ := hsteps.of_isFinished hdone
    rw [(hsteps.chan_eq (by simp [hphase])).1]
    simp [MessageFilter.dropReceiver, MessageFilter.setChannel]

/-- Every step that hands out fresh ids, with an honest peer, keeps all this. -/
theorem Wired.of_steps (hs : s.Wired) (h : StepsTo s a t) (hfresh : FreshIds s a)
    (hpeer : s.Honest a) : t.Wired := by
  have hinv := hs.inv.of_steps h hfresh hpeer
  have hkept := hs.inv.toAttached.kept_of_steps hs.kept h
  refine ⟨hinv, hkept, hs.gone_of_steps h, fun {c id} hg => ?_⟩
  cases h with
  | @draw kind parse thread =>
    obtain ⟨call, hcall, howner⟩ := hs.owners hg
    exact ⟨call, List.mem_append_left _ hcall, howner⟩
  | source hsteps => exact hs.owners_of_steps hsteps trivial hg
  | filter hpermits hsteps => exact hs.owners_of_steps hsteps (hpermits.isForeign _) hg
  | @call _ i call call' g ha hcall hsteps =>
    have hself : call' ∈ s.calls.set i call' :=
      List.mem_set (List.getElem?_eq_some_iff.mp hcall).1 _
    rcases hsteps.origins_of hg with hold | hnew
    · obtain ⟨other, hother, hphase, hchan⟩ := hs.owners hold
      by_cases hsame : other = call
      · subst hsame
        obtain ⟨hchan', hphase'⟩ := hsteps.chan_eq hphase
        exact ⟨call', hself, hphase', hchan'.trans hchan⟩
      · exact ⟨other, mem_set_of_ne hcall hother hsame, hphase, hchan⟩
    · exact ⟨call', hself, hnew⟩

end Wired

/-! ### Where progress ends -/

section AtRest

/-- No call can go on. -/
theorem callStep_eq_none_of_quiet (hq : Quiet (step shard) Action.IsProgress s)
    (a : Action SteamID) (hi : s.calls[i]? = some call) (ha : a.IsProgress)
    (hcall : a.call = some i) : s.callStep shard call a = none := by
  have hnone : s.step shard a = none := hq a ha
  rw [step_eq_of_call hcall, hi, Option.bind_some] at hnone
  exact Option.map_eq_none_iff.mp hnone

/-- The only thing that stops a call which keeps its thread busy is the guard of the task. -/
theorem Wired.atTable_of_quiet (hs : s.Wired) (hq : Quiet (step shard) Action.IsProgress s)
    (hcall : call ∈ s.calls) (hbusy : call.phase.IsBusy) :
    AtTable call ∧ s.filter.HoldsShard shard call.id := by
  obtain ⟨i, hi⟩ := List.mem_iff_getElem?.mp hcall
  cases hphase : call.phase with
  | drawn =>
    have hnone := callStep_eq_none_of_quiet hq (.register i) hi trivial rfl
    rw [callStep, if_pos hphase, Option.map_eq_none_iff, Call.registration] at hnone
    split_ifs at hnone with hmulti
    · exact ⟨⟨hmulti, .inl hphase⟩, by simpa [MessageFilter.step] using hnone⟩
    · cases hnone
  | completing =>
    have hmulti := (hs.inv.call call hcall).multi (by rw [hphase]; trivial)
    have hnone := callStep_eq_none_of_quiet hq (.complete i) hi trivial rfl
    rw [callStep, if_pos hphase, Option.map_eq_none_iff] at hnone
    exact ⟨⟨hmulti, .inr hphase⟩, by simpa [MessageFilter.step] using hnone⟩
  | closing exit =>
    have hnone := callStep_eq_none_of_quiet hq (.finish i) hi trivial rfl
    simp [callStep, hphase] at hnone
  | registered | waiting | yielding | finished =>
    rw [hphase] at hbusy
    exact hbusy.elim

/-- A receiver that subscribed to no broadcast is read unless it has nothing unread. -/
theorem unread_eq_nil_of_recv_eq_none {c : ChanId} {o : Origin} (ho : f.origins c = some o)
    (hone : ¬ o.IsBroadcast) (h : f.recv c = none) : (f.channels c).unread = [] := by
  rw [MessageFilter.recv, Option.map_eq_none_iff] at h
  split at h
  · rename_i horigin
    rw [ho] at horigin
    cases horigin
    exact absurd trivial hone
  · rename_i horigin
    rw [ho] at horigin
    cases horigin
    exact absurd trivial hone
  · rw [Channel.recv] at h
    split at h
    · assumption
    · cases h

/-- A call whose request was sent, and whose thread does nothing else, waits for a response
and for nothing else. -/
theorem Wired.waiting_of_quiet (hs : s.Wired) (hq : Quiet (step shard) Action.IsProgress s)
    (hcall : call ∈ s.calls) (hidle : s.Idle call.thread) (hsent : call.sent = true)
    (hsuspended : call.phase.IsSuspended) :
    call.phase = .waiting ∧ (s.filter.channels call.chan).unread = [] := by
  obtain ⟨i, hi⟩ := List.mem_iff_getElem?.mp hcall
  cases hphase : call.phase with
  | registered =>
    have hnone := callStep_eq_none_of_quiet hq (.sendOk i) hi trivial rfl
    simp [callStep, hphase, hsent, hidle] at hnone
  | waiting =>
    have hnone := callStep_eq_none_of_quiet hq (.receive i) hi trivial rfl
    rw [callStep, if_pos ⟨hphase, hidle⟩, Option.map_eq_none_iff] at hnone
    have horigin := (hs.inv.call call hcall).origin (by simp [hphase])
    exact ⟨rfl, unread_eq_nil_of_recv_eq_none horigin call.origin_not_isBroadcast hnone⟩
  | yielding completed =>
    have hnone := callStep_eq_none_of_quiet hq (.resume i) hi trivial rfl
    simp [callStep, hphase, hidle] at hnone
  | drawn | completing | closing | finished =>
    rw [hphase] at hsuspended
    exact hsuspended.elim

/-- Without a deadlock, the task does not wait for room: the consumer of the channel could go
on. -/
theorem Wired.not_waitsForRoom (hs : s.Wired) (hlock : ¬ s.Deadlocked shard)
    (hq : Quiet (step shard) Action.IsProgress s) {item : Item SteamID} {c : ChanId} :
    ¬ s.filter.WaitsForRoom item c := by
  intro hwait
  have hwaits := hwait
  obtain ⟨htask, halive, hfull⟩ := hwait
  have hheld : s.filter.task.held = some (.jobIdMulti item.target, c) := by rw [htask]; rfl
  have horigin := hs.inv.owned.held hheld
  obtain ⟨call, hcall, hphase, rfl⟩ := hs.owners horigin
  -- the message is addressed to the call that reads the channel
  have hown : call.origin = .jobIdMulti item.target :=
    Option.some.inj (((hs.inv.call call hcall).origin hphase).symm.trans horigin)
  have hid : call.id = item.target := Call.id_of_origin (.inr hown)
  have hsent : call.sent = true := by
    rcases hs.inv.addressed item (by rw [htask]; rfl) with hnone | ⟨other, hother, hsent, hsame⟩
    · exact absurd (hid.trans hnone) (hs.inv.ne_none call hcall)
    · exact hs.inv.eq_of_id_eq hother hcall (hsame.trans hid.symm) ▸ hsent
  -- no call keeps its thread busy, as that would close the circle
  have hidle : s.Idle call.thread := by
    intro other hother hthread hbusy
    obtain ⟨htable, hholds⟩ := hs.atTable_of_quiet hq hother hbusy
    have hshard : shard item.target = shard other.id := by
      simpa [MessageFilter.HoldsShard, htask] using hholds
    exact hlock ⟨other, hother, htable, item, call.chan, hwaits, hshard, call, hcall, hphase, rfl,
      hthread.symm⟩
  have hunread : (s.filter.channels call.chan).unread ≠ [] := by
    intro hnil
    rw [Channel.IsFull, hnil] at hfull
    exact absurd hfull (by simp [MessageFilter.channelCapacity])
  have hsuspended : ¬ call.phase.IsSuspended := fun h =>
    hunread (hs.waiting_of_quiet hq hcall hidle hsent h).2
  cases hcase : call.phase with
  | drawn => exact hphase hcase
  | registered | waiting | yielding =>
    rw [hcase] at hsuspended
    exact hsuspended trivial
  | completing | closing => exact hidle call hcall rfl (by rw [hcase]; trivial)
  | finished =>
    rw [hs.gone call hcall (by rw [hcase]; trivial)] at halive
    cases halive

/-- Without a deadlock, the task has dealt with every message it pulled. -/
theorem Wired.task_of_quiet (hs : s.Wired) (hlock : ¬ s.Deadlocked shard)
    (hq : Quiet (step shard) Action.IsProgress s) :
    s.filter.task = .awaiting ∨ s.filter.task = .stopped := by
  have hnone : s.filter.dispatch = none := by
    by_contra hsome
    obtain ⟨g, hg⟩ := Option.ne_none_iff_exists'.mp hsome
    have hstep := hq (.filter .dispatch) trivial
    rw [step_dispatch hg] at hstep
    cases hstep
  rcases MessageFilter.task_of_dispatch_eq_none hnone with h | h | ⟨item, c, hwait⟩
  · exact .inl h
  · exact .inr h
  · exact absurd hwait (hs.not_waitsForRoom hlock hq)

/-- Without a deadlock, no thread is kept busy. -/
theorem Wired.idle_of_quiet (hs : s.Wired) (hlock : ¬ s.Deadlocked shard)
    (hq : Quiet (step shard) Action.IsProgress s) (thread : Nat) : s.Idle thread := by
  intro call hcall _ hbusy
  obtain ⟨-, hholds⟩ := hs.atTable_of_quiet hq hcall hbusy
  rcases hs.task_of_quiet hlock hq with htask | htask <;>
    simp [MessageFilter.HoldsShard, htask] at hholds

end AtRest

end Client

end SteamWire
