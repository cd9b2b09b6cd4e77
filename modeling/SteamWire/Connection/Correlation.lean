import SteamWire.Connection.CallInvariant
import SteamWire.Connection.Delivery

/-!
# Correlation of requests and responses

Job ids tie responses to the calls that wait for them. The counter of a session hands out
every id once before it wraps, so the calls are tied to the filter one by one
(`inv_of_reachable`). From this follows what `responses_correlated` says of every state a
session can reach before its counter wraps, as long as its peer addresses only calls whose
request it was sent.
-/

namespace SteamWire

open Semantics

namespace Call

/-- A call for one response that has registered and not returned. -/
def Awaits (call : Call) : Prop :=
  call.kind.isMulti = false ∧ (call.phase = .registered ∨ call.phase = .waiting)

theorem Awaits.listens {call : Call} (h : call.Awaits) : call.Listens := by
  refine ⟨h.1, ?_⟩
  rcases h.2 with hphase | hphase <;> rw [hphase] <;> trivial

end Call

namespace Client

variable {SteamID : Type} {shard : JobId → Nat} {s t : Client SteamID} {f g : MessageFilter SteamID}
  {a : Action SteamID} {i j : Nat} {call : Call}

/-! ### The ids of a session -/

section Session

/-- The counter and the ids it handed out, before it wraps. -/
structure Numbered (s : Client SteamID) : Prop where
  next : s.jobId.toNat = s.calls.length + 1
  ids : ∀ {i call}, s.calls[i]? = some call → call.id.raw.toNat = i + 1

/-- How many ids an action draws. -/
def Action.draws : Action SteamID → Nat
  | .draw _ _ _ => 1
  | _ => 0

theorem StepsTo.length_eq (h : StepsTo s a t) : t.calls.length = s.calls.length + a.draws := by
  cases h with
  | draw => exact List.length_append
  | source => rfl
  | filter => rfl
  | call ha hcall hsteps =>
    rw [update, List.length_set]
    cases a with
    | draw => cases ha
    | _ => rfl

/-- Before the counter wraps it hands out every id once, and not the one of no job. -/
theorem Numbered.freshIds (hs : s.Numbered) (hdraws : s.calls.length + 1 < 2 ^ 64 - 1) :
    FreshIds s a := by
  rintro kind parse thread rfl
  have hnext := hs.next
  refine ⟨fun hnone => ?_, fun call hcall hsame => ?_⟩
  · have hraw : s.jobId.toNat = 2 ^ 64 - 1 := by
      rw [show s.jobId = 0xFFFFFFFFFFFFFFFF from congrArg JobId.raw hnone]
      rfl
    omega
  · obtain ⟨i, hi⟩ := List.mem_iff_getElem?.mp hcall
    have hid := hs.ids hi
    rw [show call.id.raw = s.jobId from congrArg JobId.raw hsame] at hid
    have hlt := (List.getElem?_eq_some_iff.mp hi).1
    omega

/-- The calls of a connection keep their ids, and a draw gives its call the next one. -/
theorem StepsTo.id_eq (h : StepsTo s a t) {call : Call} (ht : t.calls[i]? = some call) :
    (∃ before, s.calls[i]? = some before ∧ call.id = before.id) ∨
      i = s.calls.length ∧ call.id = s.nextJobId ∧ ∃ kind parse thread, a = .draw kind parse thread := by
  cases h with
  | draw =>
    by_cases hlt : i < s.calls.length
    · rw [List.getElem?_append_left hlt] at ht
      exact .inl ⟨call, ht, rfl⟩
    · rw [List.getElem?_append_right (not_lt.mp hlt)] at ht
      obtain ⟨hzero, hcall⟩ := List.getElem?_eq_some_iff.mp ht
      rw [List.length_singleton] at hzero
      rw [List.getElem_singleton] at hcall
      exact .inr ⟨by omega, by rw [← hcall], _, _, _, rfl⟩
  | source => exact .inl ⟨call, ht, rfl⟩
  | filter => exact .inl ⟨call, ht, rfl⟩
  | @call _ j before after g ha hcall hsteps =>
    left
    rw [update, List.getElem?_set] at ht
    split_ifs at ht with hij hlt
    · cases ht
      exact ⟨before, hij ▸ hcall, hsteps.id_eq.2⟩
    · exact ⟨call, ht, rfl⟩

/-- The counter goes up with every call. -/
theorem StepsTo.jobId_eq (h : StepsTo s a t) :
    t.jobId = s.jobId ∧ a.draws = 0 ∨ t.jobId = s.jobId + 1 ∧ a.draws = 1 := by
  cases h with
  | draw => exact .inr ⟨rfl, rfl⟩
  | source => exact .inl ⟨rfl, rfl⟩
  | filter => exact .inl ⟨rfl, rfl⟩
  | call ha =>
    cases a with
    | draw => cases ha
    | _ => exact .inl ⟨rfl, rfl⟩

/-- The counter and the ids it handed out from the `n`-th call on, before it wraps. -/
structure NumberedFrom (n : Nat) (s : Client SteamID) : Prop where
  next : s.jobId.toNat + n = s.calls.length + 1
  ids : ∀ {i call}, n ≤ i → s.calls[i]? = some call → call.id.raw.toNat + n = i + 1

theorem NumberedFrom.of_steps {n : Nat} (hs : s.NumberedFrom n) (h : StepsTo s a t)
    (hdraws : t.calls.length < 2 ^ 64 - 1) : t.NumberedFrom n := by
  have hlength := h.length_eq
  have hnext := hs.next
  constructor
  · rcases h.jobId_eq with ⟨hsame, hzero⟩ | ⟨hsucc, hone⟩
    · rw [hsame]
      omega
    · rw [hsucc, UInt64.toNat_add, UInt64.toNat_one, Nat.mod_eq_of_lt (by omega)]
      omega
  · intro i call hi hcall
    rcases h.id_eq hcall with ⟨before, hbefore, hid⟩ | ⟨rfl, hid, -⟩
    · rw [hid]
      exact hs.ids hi hbefore
    · rw [hid]
      exact hnext

theorem Numbered.of_steps (hs : s.Numbered) (h : StepsTo s a t)
    (hdraws : t.calls.length < 2 ^ 64 - 1) : t.Numbered := by
  have hfrom : s.NumberedFrom 0 := ⟨hs.next, fun _ hcall => hs.ids hcall⟩
  have hafter := hfrom.of_steps h hdraws
  exact ⟨hafter.next, fun hcall => hafter.ids (Nat.zero_le _) hcall⟩

/-- The beginning of a session: its counter is new and none of its calls was made. The filter
may have been in use, but the task is busy with no message for a job. -/
structure Start (shard : JobId → Nat) (s : Client SteamID) : Prop where
  filter : s.filter.IsReachable shard
  task : ∀ item, s.filter.task.item = some item → item.target = JobId.none
  jobId : s.jobId = 1
  calls : s.calls = []

theorem Start.numbered (hs : s.Start shard) : s.Numbered where
  next := by rw [hs.jobId, hs.calls]; rfl
  ids h := by rw [hs.calls] at h; cases h

theorem Start.inv (hs : s.Start shard) : s.Inv := by
  have hnil : ∀ call, call ∉ s.calls := by
    intro call hcall
    rw [hs.calls] at hcall
    cases hcall
  refine ⟨⟨hs.filter.owned, ?_, fun call hcall => (hnil call hcall).elim⟩,
    fun call hcall => (hnil call hcall).elim, fun call hcall => (hnil call hcall).elim,
    fun call hcall => (hnil call hcall).elim, fun item hitem => .inl (hs.task item hitem)⟩
  rw [hs.calls]
  exact List.nodup_nil

/-- Every draw makes a call. -/
theorem length_eq_of_run {w : List (Action SteamID)} (h : run (step shard) s w = some t) :
    t.calls.length = s.calls.length + (w.map Action.draws).sum := by
  induction w generalizing s with
  | nil =>
    cases h
    rfl
  | cons a w ih =>
    obtain ⟨u, hstep, hrest⟩ := run_cons_eq_some.mp h
    rw [ih hrest, (stepsTo_of_step hstep).length_eq, List.map_cons, List.sum_cons, Nat.add_assoc]

/-- A run with fewer draws than there are ids hands out every id once. -/
theorem Numbered.allSteps_freshIds {w : List (Action SteamID)} (hs : s.Numbered)
    (hdraws : s.calls.length + (w.map Action.draws).sum < 2 ^ 64 - 1) :
    AllSteps (step shard) FreshIds s w := by
  induction w generalizing s with
  | nil => trivial
  | cons a w ih =>
    intro t ht
    have hsteps := stepsTo_of_step ht
    have hlength := hsteps.length_eq
    rw [List.map_cons, List.sum_cons] at hdraws
    refine ⟨?_, ih (hs.of_steps hsteps (by omega)) (by omega)⟩
    rintro kind parse thread rfl
    have hone : (Action.draw kind parse thread : Action SteamID).draws = 1 := rfl
    exact hs.freshIds (by omega) kind parse thread rfl

/-- Before the counter wraps, and with an honest peer, the calls are kept apart and tied to the
filter. -/
theorem Start.inv_of_run {s₀ : Client SteamID} {w : List (Action SteamID)} (hstart : s₀.Start shard)
    (hrun : run (step shard) s₀ w = some s) (hpeer : AllSteps (step shard) Honest s₀ w)
    (hdraws : s.calls.length < 2 ^ 64 - 1) : s.Inv := by
  have hfresh : AllSteps (step shard) FreshIds s₀ w :=
    hstart.numbered.allSteps_freshIds (length_eq_of_run hrun ▸ hdraws)
  have hinv : AllStates (step shard) Inv s₀ w :=
    (AllSteps.and.mpr ⟨hfresh, hpeer⟩).allStates (fun _ h => h)
      (fun _ _ _ hinv henv hstep => hinv.of_steps (stepsTo_of_step hstep) henv.1 henv.2) hstart.inv
  exact hinv.last hrun

end Session

/-! ### Correlation -/

section Correlated

/-- A message is sent to the receiver of a call and goes nowhere else. -/
structure DeliveredTo (f : MessageFilter SteamID) (item : Item SteamID) (call : Call)
    (g : MessageFilter SteamID) : Prop where
  task : g.task = .awaiting
  fates : g.fates = f.fates ++ [(item, .delivered .jobId [call.chan])]
  inbox : (g.channels call.chan).inbox = (f.channels call.chan).inbox ++ [item]
  others : ∀ c, c ≠ call.chan → g.channels c = f.channels c
  rest : g.rest = f.rest

/-- Calls do not overwrite each other's registrations, a call receives messages for its own
job only, and the first message for a call that waits for a single response is on its way to
that call alone: the next step of the task takes the sending end of the call from the job
table, or sends the message with it. -/
structure Correlated (shard : JobId → Nat) (s : Client SteamID) : Prop where
  kept : ∀ {i j call t}, s.calls[i]? = some call → i ≠ j → s.step shard (.register j) = some t →
    ∀ c, s.filter.Stored call.origin c → t.filter.Stored call.origin c
  received : ∀ call ∈ s.calls, call.phase ≠ .drawn →
    ∀ item ∈ (s.filter.channels call.chan).inbox, item.target = call.id
  first : ∀ call ∈ s.calls, call.Awaits → (s.filter.channels call.chan).inbox = [] →
    ∀ item, s.filter.task.item = some item → item.target = call.id →
      ∃ t, s.step shard (.filter .dispatch) = some t ∧
        (s.filter.task = .jobLookup item ∧ t.filter.task = .jobSend item call.chan ∧
            t.filter.fates = s.filter.fates ∧ t.filter.channels = s.filter.channels ∨
          s.filter.task = .jobSend item call.chan ∧ DeliveredTo s.filter item call t.filter)

/-- A registration leaves the slots of the other calls as they are. -/
theorem Inv.kept (hs : s.Inv) (hcall : s.calls[i]? = some call) (hij : i ≠ j)
    (h : s.step shard (.register j) = some t) (c : ChanId) (hstored : s.filter.Stored call.origin c) :
    t.filter.Stored call.origin c := by
  cases stepsTo_of_step h with
  | @call _ _ other other' g ha hother hsteps =>
    cases ha
    cases hsteps with
    | register hphase hreg =>
      refine hreg.stored_ne (fun horigin => hij ?_) hstored
      exact index_eq_of_id_eq hs.ids hcall hother (Call.id_eq_of_origin_eq horigin)
    | close hcloses => exact hcloses.elim

/-- The first message for a waiting call meets its sending end in the job table, or in the hand
of the task. -/
theorem Inv.first (hs : s.Inv) (hcall : call ∈ s.calls) (hawaits : call.Awaits)
    (hempty : (s.filter.channels call.chan).inbox = []) {item : Item SteamID}
    (hitem : s.filter.task.item = some item) (htarget : item.target = call.id) :
    s.filter.task = .jobLookup item ∧ s.filter.jobIdFilters call.id = some call.chan ∨
      s.filter.task = .jobSend item call.chan := by
  have hinv := hs.call call hcall
  have hlistens := hawaits.listens
  have horigin := hlistens.origin_eq
  cases htask : s.filter.task with
  | jobLookup other =>
    rw [htask] at hitem
    cases hitem
    rcases hinv.unanswered hlistens hempty with hstored | hheld
    · rw [horigin] at hstored
      exact .inl ⟨rfl, hstored⟩
    · rw [htask] at hheld
      cases hheld
  | jobSend other tx =>
    rw [htask] at hitem
    cases hitem
    -- the task took the sending end from the slot of this call
    have hheld : s.filter.task.held = some (call.origin, tx) := by
      rw [htask, horigin, ← htarget]
      rfl
    rw [hinv.held (Phase.IsOpen.ne_drawn hlistens.2) hheld]
    exact .inr rfl
  | awaiting | stopped =>
    rw [htask] at hitem
    cases hitem
  | multiLookup | multiSend | kindOnceLookup | kindOnceSend | notificationLookup | kindLookup
  | restPush =>
    -- the task has looked the message up in the job table already
    refine absurd htarget (hs.passed call hcall hlistens hempty item ?_)
    rw [htask] at hitem ⊢
    exact hitem

/-- The send with the sending end of a waiting call reaches it alone. -/
theorem deliveredTo_of_alive {item : Item SteamID} (h : (f.channels call.chan).alive = true) :
    DeliveredTo f item call (f.deliver .jobId item [call.chan]) where
  task := f.deliver_task ..
  fates := by
    have hlive : ([call.chan].filter fun c => (f.channels c).alive) = [call.chan] := by
      simp [h]
    rw [f.deliver_fates, MessageFilter.deliverFate, hlive, if_neg (List.cons_ne_nil _ _)]
  inbox := by
    rw [f.deliver_channels, if_pos ⟨List.mem_singleton_self _, h⟩, Channel.push_inbox]
  others c hc := by
    rw [f.deliver_channels, if_neg]
    rintro ⟨hmem, -⟩
    exact hc (List.mem_singleton.mp hmem)
  rest := f.deliver_rest ..

/-- In every state a session can reach with fewer than `2 ^ 64 - 1` ids drawn, and with a peer that
addresses only calls whose request it was sent, requests and responses are correlated. -/
theorem responses_correlated {s₀ : Client SteamID} {w : List (Action SteamID)}
    (hstart : s₀.Start shard) (hrun : run (step shard) s₀ w = some s)
    (hpeer : AllSteps (step shard) Honest s₀ w) (hdraws : s.calls.length < 2 ^ 64 - 1) :
    s.Correlated shard := by
  have hinv := hstart.inv_of_run hrun hpeer hdraws
  refine ⟨fun hcall hij h c => hinv.kept hcall hij h c, fun call hcall => (hinv.call call hcall).inbox,
    fun call hcall hawaits hempty item hitem htarget => ?_⟩
  have halive := (hinv.call call hcall).alive hawaits.listens.2
  -- the message is at its first lookup, or the sending end was found
  rcases hinv.first hcall hawaits hempty hitem htarget with ⟨htask, hslot⟩ | htask
  · have hdispatch : s.filter.dispatch = some { s.filter with
        jobIdFilters := Function.update s.filter.jobIdFilters item.target none
        task := .jobSend item call.chan } := by
      simp only [MessageFilter.dispatch, htask, htarget, hslot]
    exact ⟨_, step_dispatch hdispatch, .inl ⟨htask, rfl, rfl, rfl⟩⟩
  · have hdispatch : s.filter.dispatch = some (s.filter.deliver .jobId item [call.chan]) := by
      simp only [MessageFilter.dispatch, htask]
    exact ⟨_, step_dispatch hdispatch, .inr ⟨htask, deliveredTo_of_alive halive⟩⟩

theorem start_init : ({} : Client SteamID).Start shard where
  filter := .of_init rfl
  task item h := by cases h
  jobId := rfl
  calls := rfl

/-- A logon response for a job. -/
def jobResponse (id : JobId) : RawNetMessage UInt64 :=
  { MessageFilter.logOnResponse with
    header := { MessageFilter.logOnResponse.header with targetJobId := id } }

/-- Two jobs at a time. The second is answered first, and the task picks up the response to the
first. -/
def answeredJobs : List (Action UInt64) :=
  [.draw (.job EMsg.kEMsgClientLogOnResponse.kind) (fun _ => .ok true) 0,
    .draw (.job EMsg.kEMsgClientLogOnResponse.kind) (fun _ => .ok true) 1, .register 1, .register 0,
    .transmit 0, .transmit 1, .sendOk 1, .sendOk 0, .source (some (.ok (jobResponse ⟨2⟩))),
    .filter .dispatch, .filter .dispatch, .receive 1, .source (some (.ok (jobResponse ⟨1⟩)))]

theorem responses_correlated_answeredJobs :
    ∃ s, run (step fun _ => 0) ({} : Client UInt64) answeredJobs = some s ∧
      s.Correlated fun _ => 0 := by
  refine ⟨_, rfl, ?_⟩
  exact @responses_correlated UInt64 (fun _ => 0) _ {} answeredJobs start_init rfl (by decide)
    (by decide)

end Correlated

end Client

end SteamWire
