import SteamWire.Connection.Rpc
import SteamWire.Connection.Stream

/-!
# Calls come to an end

The steps that a connection takes by itself when nothing arrives: calls send their requests,
the task pulls what arrived, calls read what the task delivered. They come to an end. Where they
do, unless there is a deadlock or the task has stopped, every call for one response whose own
request was answered is finished, without a timeout, whatever became of the others: the first
message for it was delivered to it and read (`Rpc.finishes_of_run`).
-/

namespace SteamWire

open Semantics

/-- A lookup in the job table is not the last thing the task does with a message. -/
theorem MessageFilter.Dispatches.task_ne_of_jobLookup {SteamID : Type} {f g : MessageFilter SteamID}
    {item : Item SteamID} (h : Dispatches f g) (htask : f.task = .jobLookup item) :
    g.task ≠ .awaiting := by
  cases h with
  | jobHit | jobMiss => simp
  | _ hother =>
    rw [htask] at hother
    cases hother

namespace Client

variable {SteamID : Type} {shard : JobId → Nat} {s t : Client SteamID} {f g : MessageFilter SteamID}
  {a : Action SteamID} {i : Nat} {call call' : Call} {ms : List (RawNetMessage SteamID)}

/-! ### Calls that wait -/

/-- A call for one response waits only when its request was sent. -/
def WaitsSent (call : Call) : Prop :=
  call.kind.isMulti = false → call.phase = .waiting → call.sent = true

theorem waitsSent_of_step (hs : s.Inv) (h : s.step shard a = some t)
    (hwaits : ∀ call ∈ s.calls, WaitsSent call) : ∀ call ∈ t.calls, WaitsSent call := by
  cases hcall : a.call with
  | none =>
    cases stepsTo_of_step h with
    | draw => exact forall_mem_draw hwaits (fun _ hphase => by cases hphase)
    | source => exact hwaits
    | filter => exact hwaits
    | call ha =>
      rw [hcall] at ha
      cases ha
  | some i =>
    obtain ⟨call, call', g, hget, hstep, rfl⟩ := exists_callStep_of_step h hcall
    have hmem := List.mem_of_getElem? hget
    intro other hother
    rcases mem_set_cases hs.ids hget hother with rfl | ⟨hold, -⟩
    swap
    · exact hwaits other hold
    intro hmulti hphase
    cases callSteps_of_callStep hstep with
    | transmit => rfl
    | sendOk => exact (Option.ite_none_right_eq_some.mp hstep).1.2.1
    | @receive _ item =>
      rcases call.afterResponse_cases (call.respond item.message) with ⟨_, hexit⟩ | ⟨-, _, hyield⟩
      · rw [hexit] at hphase
        cases hphase
      · rw [hyield] at hphase
        cases hphase
    | resume hyield =>
      -- only a multi job goes back to waiting
      have hstreams := (hs.call call hmem).multi (by rw [hyield]; trivial)
      exact absurd (hstreams.symm.trans hmulti) (by decide)
    | register | close | complete | finish => cases hphase

/-- A call that awaits its response has read nothing. -/
def Untaken (f : MessageFilter SteamID) (call : Call) : Prop :=
  call.Awaits → (f.channels call.chan).taken = 0

/-- A call that goes on to await a response awaited it before, or has just registered. -/
theorem CallSteps.awaits_of (h : CallSteps f call a call' g) (hinv : CallInv f call)
    (hawaits : call'.Awaits) :
    (call.phase = .drawn ∧ f.Registers call.origin g ∧ call'.chan = f.nextChan) ∨
      call.Awaits ∧ g = f ∧ call'.chan = call.chan := by
  obtain ⟨hmulti, hphase⟩ := hawaits
  rw [h.id_eq.1] at hmulti
  cases h with
  | register hdrawn hreg => exact .inl ⟨hdrawn, hreg, rfl⟩
  | transmit hbefore => exact .inr ⟨⟨hmulti, .inl hbefore⟩, rfl, rfl⟩
  | sendOk hbefore => exact .inr ⟨⟨hmulti, .inl hbefore⟩, rfl, rfl⟩
  | @receive _ item =>
    rcases call.afterResponse_cases (call.respond item.message) with ⟨_, hexit⟩ | ⟨hyes, -⟩
    · simp [hexit] at hphase
    · exact absurd (hyes.symm.trans hmulti) (by decide)
  | resume hyield =>
    have hstreams := hinv.multi (by rw [hyield]; trivial)
    exact absurd (hstreams.symm.trans hmulti) (by decide)
  | close | complete | finish => simp at hphase

theorem untaken_of_steps (hs : s.Inv) (h : StepsTo s a t)
    (huntaken : ∀ call ∈ s.calls, Untaken s.filter call) : ∀ call ∈ t.calls, Untaken t.filter call := by
  refine forall_calls_of_steps hs.toAttached h (fun _ _ _ _ hawaits => hawaits.listens.2.elim)
    (fun {b g call} hmem hsteps hspares hold hawaits => ?_)
    (fun {a call call' g} hmem hsteps hold hawaits => ?_) huntaken
  · have hphase := Phase.IsOpen.ne_drawn hawaits.listens.2
    have hchan := hs.owned.ne_nextChan ((hs.call call hmem).origin hphase)
    rw [(hsteps.exists_inbox_append hchan (hspares.recv hphase)).1]
    exact hold hawaits
  · rcases hsteps.awaits_of (hs.call call hmem) hawaits with ⟨-, hreg, hchan⟩ | ⟨hbefore, rfl, hchan⟩
    · rw [hchan, hreg.channels_new]
    · rw [hchan]
      exact hold hbefore

/-- Of the messages that were pulled, the one that a call awaits is in the hand of the task. -/
def InHand (ms : List (RawNetMessage SteamID)) (f : MessageFilter SteamID) (call : Call) : Prop :=
  call.Awaits → (f.channels call.chan).inbox = [] → ∀ m ∈ ms, m.header.targetJobId = call.id →
    ∃ item, f.task.item = some item ∧ item.target = call.id

/-- The task puts a message for a call that awaits it into its inbox. -/
theorem inHand_of_filter_steps {b : MessageFilter.Action SteamID} (hs : s.Inv) (hmem : call ∈ s.calls)
    (h : s.filter.StepsTo b g) (hold : InHand ms s.filter call) : InHand ms g call := by
  intro hawaits hempty m hm htarget
  have hbefore := hs.owned.inbox_eq_nil_of_steps h hempty
  obtain ⟨item, hitem, hid⟩ := hold hawaits hbefore m hm htarget
  have hawaiting : s.filter.task ≠ .awaiting := by
    intro htask
    rw [htask] at hitem
    cases hitem
  cases h with
  | register _ hreg => exact ⟨item, by rw [hreg.task, hitem], hid⟩
  -- the task pulls nothing else while it has a message
  | pull htask => exact absurd htask hawaiting
  | stop htask => exact absurd htask hawaiting
  | skip htask => exact absurd htask hawaiting
  | dispatch hdispatch =>
    rcases hdispatch.fates_cases with ⟨-, hsame⟩ | ⟨_, _, -, -, hdone, -⟩
    · exact ⟨item, by rw [hsame, hitem], hid⟩
    · exfalso
      rcases hs.first hmem hawaits hbefore hitem hid with ⟨htask, hslot⟩ | htask
      · exact hdispatch.task_ne_of_jobLookup htask hdone
      · have hheld : s.filter.task.held = some (call.origin, call.chan) := by
          rw [htask, hawaits.listens.origin_eq, ← hid]
          rfl
        exact hdispatch.inbox_of_held hheld ((hs.call call hmem).alive hawaits.listens.2) hempty
  | complete | unprocessed | drop | recv => exact ⟨item, hitem, hid⟩

/-- Every step keeps what was pulled in the hand of the task, until it is delivered. -/
theorem inHand_of_steps (hs : s.Inv) (h : StepsTo s a t)
    (hdrawn : ∀ call ∈ s.calls, call.phase = .drawn → ∀ m ∈ ms, m.header.targetJobId ≠ call.id)
    (hhand : ∀ call ∈ s.calls, InHand ms s.filter call) : ∀ call ∈ t.calls, InHand ms t.filter call := by
  refine forall_calls_of_steps hs.toAttached h (fun _ _ _ _ hawaits => hawaits.listens.2.elim)
    (fun hmem hsteps _ hold => inHand_of_filter_steps hs hmem hsteps hold)
    (fun {a call call' g} hmem hsteps hold hawaits hempty m hm htarget => ?_) hhand
  rw [hsteps.id_eq.2] at htarget ⊢
  rcases hsteps.awaits_of (hs.call call hmem) hawaits with ⟨hphase, -, -⟩ | ⟨hbefore, rfl, hchan⟩
  · exact absurd htarget (hdrawn call hmem hphase m hm)
  · rw [hchan] at hempty
    exact hold hbefore hempty m hm htarget

/-! ### What is left to do -/

/-- Whether a call has its request still to send. -/
def unsent (call : Call) : Nat := if call.sent then 0 else 1

/-- A sum in which one item is replaced. -/
theorem sum_map_set {ι : Type*} (w : ι → Nat) {l : List ι} {n : Nat} {x : ι} (y : ι)
    (hx : l[n]? = some x) : ((l.set n y).map w).sum + w x = (l.map w).sum + w y := by
  induction l generalizing n with
  | nil => cases hx
  | cons z l ih =>
    cases n with
    | zero =>
      obtain rfl := Option.some.inj hx
      simp only [List.set_cons_zero, List.map_cons, List.sum_cons]
      omega
    | succ n =>
      have hrest := ih hx
      simp only [List.set_cons_succ, List.map_cons, List.sum_cons]
      omega

/-- One call goes on, and the filter stays as it is. -/
theorem measure_update (call' : Call) (hcall : s.calls[i]? = some call) :
    (s.update i call' s.filter).measure + weight s.filter call =
      s.measure + weight s.filter call' := by
  have hsum := sum_map_set (weight s.filter) call' hcall
  simp only [measure, update, List.length_set]
  omega

/-- The steps of a call do not unsend its request. -/
theorem unsent_le_of_step (ha : a.IsProgress) (h : s.step shard a = some t) :
    (t.calls.map unsent).sum ≤ (s.calls.map unsent).sum ∧ t.calls.length = s.calls.length := by
  cases stepsTo_of_step h with
  | draw => exact ha.elim
  | source => exact ha.elim
  | filter => exact ⟨Nat.le_refl _, rfl⟩
  | @call _ i call call' g hi hcall hsteps =>
    refine ⟨?_, List.length_set ..⟩
    have hsum := sum_map_set unsent call' hcall
    have hle : unsent call' ≤ unsent call := by
      cases hsent : call.sent with
      | true => simp [unsent, hsteps.sent_of.1 hsent]
      | false =>
        simp only [unsent, hsent]
        split <;> simp
    simp only [update]
    omega

/-- A pulled result gives the task the steps of one message to do. -/
theorem measure_le_of_pull {res : Outcome NetworkError (RawNetMessage SteamID)}
    (h : s.step shard (.source (some res)) = some t) :
    t.measure ≤ s.measure + 5 * (3 * s.calls.length + 1) ∧ t.calls = s.calls := by
  cases stepsTo_of_step h with
  | source hsteps =>
    refine ⟨?_, rfl⟩
    cases hsteps with
    | register ho => cases ho
    | pull htask =>
      simp only [measure, htask, FilterTask.rank]
      exact (Nat.add_comm _ _).le.trans (Nat.add_le_add_right (Nat.le_add_left ..) _)
    | stop htask =>
      simp only [measure, htask, FilterTask.rank]
      exact Nat.le_add_right ..
    | skip => exact Nat.le_add_right ..
  | call ha => cases ha

end Client

namespace Rpc

variable {SteamID : Type} [SteamIdOps SteamID] [DecidableEq SteamID] {shard : JobId → Nat}
  {codec : HeaderCodec} {multi : MultiCodec} {session : Session SteamID}
  {answers : RawNetMessage SteamID → RawNetMessage SteamID → Bool} {s t : Rpc SteamID}
  {a : Action SteamID} {i : Nat} {call : Call} {inv : Invocation SteamID}

/-! ### What a step links -/

/-- The messages the task has pulled. -/
def pulled (s : Rpc SteamID) : List (RawNetMessage SteamID) := okMessages (s.results.take s.taken)

variable (codec session answers) in
/-- What is known of the calls that wait. -/
structure Linked (s : Rpc SteamID) : Prop where
  inv : s.Inv codec session answers
  wired : s.client.Wired
  waits : ∀ call ∈ s.client.calls, Client.WaitsSent call
  untaken : ∀ call ∈ s.client.calls, Client.Untaken s.client.filter call
  hand : ∀ call ∈ s.client.calls, Client.InHand s.pulled s.client.filter call
  taken : s.taken ≤ s.results.length

/-- The beginning of a session on a filter on which no multi job was made before. -/
structure StreamStart (shard : JobId → Nat) (s : Rpc SteamID) : Prop extends Start shard s where
  origins : ∀ c id, s.client.filter.origins c ≠ some (.jobIdMulti id)

theorem linked_of_start (hs : s.StreamStart shard) : s.Linked codec session answers := by
  have hcalls := hs.client.calls
  have hnone : ∀ call, call ∉ s.client.calls := by
    rw [hcalls]
    exact fun _ => List.not_mem_nil
  have hstart : s.client.StreamStart shard := ⟨hs.client, hs.origins⟩
  have htracks : s.client.Tracks shard 0 [] := hstart.tracks
  refine ⟨inv_of_start hs.toStart, htracks.wired, fun call hcall => absurd hcall (hnone call),
    fun call hcall => absurd hcall (hnone call), fun call hcall => absurd hcall (hnone call), ?_⟩
  rw [hs.taken]
  exact Nat.zero_le _

/-- What arrives later does not change what was pulled. -/
theorem StepsTo.pulled_cases (h : StepsTo shard codec multi session answers s a t)
    (htaken : s.taken ≤ s.results.length) :
    t.pulled = s.pulled ∨ ∃ m, t.pulled = s.pulled ++ [m] ∧
      s.client.step shard (.source (some (.ok m))) = some t.client := by
  cases h with
  | arrive =>
    left
    rw [pulled, pulled, List.take_append_of_le_length htaken]
  | @pull res client hres hstep =>
    have hlt := (List.getElem?_eq_some_iff.mp hres).1
    have htake : s.results.take (s.taken + 1) = s.results.take s.taken ++ [res] := by
      rw [List.take_add_one, hres]
      rfl
    cases res with
    | ok m =>
      refine .inr ⟨m, ?_, hstep⟩
      simp only [pulled, htake, okMessages, List.filterMap_append]
      rfl
    | err | panic =>
      left
      simp only [pulled, htake, okMessages, List.filterMap_append]
      exact List.append_nil _
  | _ => exact .inl rfl

/-- Nothing is addressed to a call whose request was not sent. -/
theorem Inv.target_ne_of_drawn (hs : s.Inv codec session answers) (hcodec : codec.Lawful)
    (hfits : s.Fits codec session) (hmem : call ∈ s.client.calls) (hphase : call.phase = .drawn)
    {m : RawNetMessage SteamID} (hm : m ∈ s.pulled) : m.header.targetJobId ≠ call.id := by
  intro htarget
  have hresult : m ∈ okMessages s.results :=
    mem_okMessages.mpr (List.mem_of_mem_take (mem_okMessages.mp hm))
  obtain ⟨j, other, _, _, _, hother, -, hsent, hid, -⟩ :=
    hs.exists_request hcodec hfits (hs.results m hresult) (htarget ▸ hs.client.ne_none call hmem)
  have hother := List.mem_of_getElem? hother
  obtain rfl := hs.client.eq_of_id_eq hother hmem (hid.trans htarget)
  exact hs.client.sent other hother hsent hphase

/-- What is pulled comes into the hand of the task. -/
theorem Linked.hand_of_steps (hs : s.Linked codec session answers)
    (h : StepsTo shard codec multi session answers s a t) (hcodec : codec.Lawful)
    (hfits : s.Fits codec session) :
    ∀ call ∈ t.client.calls, Client.InHand t.pulled t.client.filter call := by
  have hold : ∀ call ∈ t.client.calls, Client.InHand s.pulled t.client.filter call := by
    rcases h.client_steps with hsame | ⟨b, hb⟩
    · exact hsame ▸ hs.hand
    · exact Client.inHand_of_steps hs.inv.client (Client.stepsTo_of_step hb)
        (fun call hmem hphase m hm => hs.inv.target_ne_of_drawn hcodec hfits hmem hphase hm) hs.hand
  rcases h.pulled_cases hs.taken with hsame | ⟨new, hpulled, hstep⟩
  · exact hsame ▸ hold
  · intro call hmem hawaits hempty m hm htarget
    rw [hpulled, List.mem_append, List.mem_singleton] at hm
    rcases hm with hm | rfl
    · exact hold call hmem hawaits hempty m hm htarget
    · -- the task has just pulled the message
      refine ⟨⟨s.client.filter.pulled, m⟩, ?_, htarget⟩
      generalize hafter : t.client = after at hstep
      cases Client.stepsTo_of_step hstep with
      | source hsteps =>
        cases hsteps with
        | register ho => cases ho
        | pull => rfl
        | stop _ hend => exact (hend _ rfl).elim
      | call ha => cases ha

/-- Every step keeps what is known of the calls that wait. -/
theorem Linked.of_steps (hs : s.Linked codec session answers) (hcodec : codec.Lawful)
    (h : StepsTo shard codec multi session answers s a t)
    (hdraws : t.client.calls.length < 2 ^ 64 - 1) (hfits : t.Fits codec session) :
    t.Linked codec session answers := by
  have htaken : t.taken ≤ t.results.length := by
    have hold := hs.taken
    cases h with
    | arrive =>
      rw [List.length_append]
      exact hold.trans (Nat.le_add_right ..)
    | pull hres => exact (List.getElem?_eq_some_iff.mp hres).1
    | _ => exact hold
  have hinv := hs.inv.of_steps hcodec h hdraws hfits
  have hhand := hs.hand_of_steps h hcodec (hfits.of_steps h)
  rcases hs.inv.client_steps hcodec h hdraws hfits with hsame | ⟨b, hstep, hfresh, hpeer⟩
  · exact ⟨hinv, hsame ▸ hs.wired, hsame ▸ hs.waits, hsame ▸ hs.untaken, hhand, htaken⟩
  · have hsteps := Client.stepsTo_of_step hstep
    exact ⟨hinv, hs.wired.of_steps hsteps hfresh hpeer,
      Client.waitsSent_of_step hs.inv.client hstep hs.waits,
      Client.untaken_of_steps hs.inv.client hsteps hs.untaken, hhand, htaken⟩

theorem linked_of_reachable (hcodec : codec.Lawful)
    (hs : Reachable (step shard codec multi session answers) (StreamStart shard) s)
    (hdraws : s.client.calls.length < 2 ^ 64 - 1) (hfits : s.Fits codec session) :
    s.Linked codec session answers := by
  have hlinked : s.client.calls.length < 2 ^ 64 - 1 → s.Fits codec session →
      s.Linked codec session answers := by
    apply hs.invariant
    · exact fun s hstart _ _ => linked_of_start hstart
    · intro s a t ih hstep hlt hfits
      have hsteps := stepsTo_of_step hstep
      exact (ih (hsteps.length_le.trans_lt hlt) (hfits.of_steps hsteps)).of_steps hcodec hsteps hlt hfits
  exact hlinked hdraws hfits

/-! ### The steps come to an end -/

section Measure

/-- The steps a session takes when nothing arrives. -/
def Action.IsProgress : Action SteamID → Prop
  | .transmit _ | .pull => True
  | .client a => a.IsProgress
  | _ => False

/-- What is left to do. A message that is pulled can become one to read for every call. -/
def measure (s : Rpc SteamID) : Nat :=
  s.client.measure + (s.client.calls.map Client.unsent).sum +
    (s.results.length - s.taken) * (5 * (3 * s.client.calls.length + 1) + 1)

/-- Every step that a session takes by itself leaves less to do. -/
theorem measure_lt_of_isProgress (ha : a.IsProgress)
    (h : step shard codec multi session answers s a = some t) : t.measure < s.measure := by
  cases stepsTo_of_step h with
  | client hown hstep =>
    obtain ⟨hunsent, hlength⟩ := Client.unsent_le_of_step ha hstep
    have hlt := Client.measure_lt_of_isProgress ha hstep
    simp only [measure, hlength]
    omega
  | @transmit i call inv m client hcall _ hsent _ hstep =>
    obtain ⟨call', new, g, hget, hcallStep, rfl⟩ := Client.exists_callStep_of_step hstep rfl
    obtain rfl := Option.some.inj (hget.symm.trans hcall)
    obtain ⟨-, heq⟩ := Option.ite_none_right_eq_some.mp hcallStep
    cases heq
    -- one request less to send, and the call is as heavy as before
    have hmeasure := Client.measure_update { call' with sent := true } hcall
    have hcount := Client.sum_map_set Client.unsent { call' with sent := true } hcall
    have hone : Client.unsent call' = 1 := by rw [Client.unsent, hsent]; rfl
    have hzero : Client.unsent { call' with sent := true } = 0 := rfl
    have hweight : Client.weight s.client.filter { call' with sent := true } =
      Client.weight s.client.filter call' := rfl
    simp only [measure, Client.update, List.length_set] at hmeasure ⊢
    omega
  | @refuse i e client hstep =>
    obtain ⟨call, new, g, hcall, hcallStep, rfl⟩ := Client.exists_callStep_of_step hstep rfl
    obtain ⟨⟨hphase, -⟩, heq⟩ := Option.ite_none_right_eq_some.mp hcallStep
    cases heq
    -- the request stays unsent, but the call has only to finish
    have hmeasure :=
      Client.measure_update { call with phase := .closing (.returned (some e)) } hcall
    have hcount :=
      Client.sum_map_set Client.unsent { call with phase := .closing (.returned (some e)) } hcall
    have hsame : Client.unsent { call with phase := .closing (.returned (some e)) } =
      Client.unsent call := rfl
    have hweight : Client.weight s.client.filter
        { call with phase := .closing (.returned (some e)) } + 4 =
          Client.weight s.client.filter call := by
      simp only [Client.weight, hphase, Phase.rank]
    simp only [measure, Client.update, List.length_set] at hmeasure ⊢
    omega
  | @pull res client hres hstep =>
    -- what a message costs the task is paid by the result that was pulled
    obtain ⟨hle, hcalls⟩ := Client.measure_le_of_pull hstep
    have hlt := (List.getElem?_eq_some_iff.mp hres).1
    have hrest : s.results.length - s.taken = s.results.length - (s.taken + 1) + 1 := by omega
    simp only [measure, hcalls]
    rw [hrest, Nat.add_one_mul (s.results.length - (s.taken + 1))]
    omega
  | invoke | arrive | hangUp => exact ha.elim

end Measure

/-! ### Where the steps end -/

section AtRest

/-- The connection of a session at rest is at rest. -/
theorem quiet_client
    (hq : Quiet (step shard codec multi session answers) Action.IsProgress s) :
    Quiet (Client.step shard) Client.Action.IsProgress s.client := by
  intro a ha
  have hown : IsOwn a := by
    cases a with
    | draw | transmit | source => exact ha.elim
    | _ => trivial
  have hnone : step shard codec multi session answers s (.client a) = none := hq (.client a) ha
  rw [step, if_pos hown] at hnone
  exact Option.map_eq_none_iff.mp hnone

/-- Every call whose thread does nothing else has sent its request. -/
theorem Linked.sent_of_quiet (hs : s.Linked codec session answers)
    (hq : Quiet (step shard codec multi session answers) Action.IsProgress s)
    (hcall : s.client.calls[i]? = some call) (hphase : call.phase = .registered)
    (hidle : s.client.Idle call.thread) : call.sent = true := by
  by_contra hunsent
  have hlt : i < s.invocations.length := hs.inv.length ▸ (List.getElem?_eq_some_iff.mp hcall).1
  have hinv := List.getElem?_eq_getElem hlt
  have hnone : step shard codec multi session answers s (.transmit i) = none := hq (.transmit i) trivial
  rw [step, hcall, Option.bind_some, hinv, Option.bind_some, if_neg hunsent] at hnone
  cases hrequest : s.invocations[i].request codec session call.id with
  | ok m =>
    rw [hrequest] at hnone
    have hstep := Option.map_eq_none_iff.mp hnone
    simp [Client.step, Client.Action.call, hcall, Client.callStep, hphase] at hstep
  | error e =>
    rw [hrequest] at hnone
    have hstep := Option.map_eq_none_iff.mp hnone
    simp [Client.step, Client.Action.call, hcall, Client.callStep, hphase, hidle] at hstep

/-- The task has pulled everything that arrived. -/
theorem pulled_of_quiet
    (hq : Quiet (step shard codec multi session answers) Action.IsProgress s)
    (htask : s.client.filter.task = .awaiting) : s.pulled = okMessages s.results := by
  have hall : s.results.length ≤ s.taken := by
    by_contra hlt
    have hres := List.getElem?_eq_getElem (not_le.mp hlt)
    have hnone : step shard codec multi session answers s .pull = none := hq .pull trivial
    rw [step, hres, Option.bind_some] at hnone
    have hstep := Option.map_eq_none_iff.mp hnone
    rw [Client.step, Option.map_eq_none_iff, MessageFilter.step, htask] at hstep
    cases hstep
  rw [pulled, List.take_of_length_le hall]

variable (codec session answers) in
/-- A right response to the request of a call has arrived. -/
def IsAnswered (s : Rpc SteamID) (call : Call) (inv : Invocation SteamID) : Prop :=
  ∃ sent, inv.request codec session call.id = .ok sent ∧
    ∃ m ∈ okMessages s.results, isAnswer codec answers m sent.intoBytes = true

/-- The response is addressed to the call: the peer reads its job id from the request. -/
theorem IsAnswered.exists_target (hs : s.IsAnswered codec session answers call inv)
    (hcodec : codec.Lawful) (hfits : s.Fits codec session) (hcall : s.client.calls[i]? = some call)
    (hinv : s.invocations[i]? = some inv) :
    ∃ m ∈ okMessages s.results, m.header.targetJobId = call.id := by
  obtain ⟨sent, hrequest, m, hm, hanswer⟩ := hs
  have hpair : (call, inv) ∈ s.client.calls.zip s.invocations :=
    List.mem_of_getElem? (List.getElem?_zip_eq_some.mpr ⟨hcall, hinv⟩)
  obtain ⟨req, hreq⟩ := Invocation.exists_isRead hcodec (hfits _ hpair) hrequest
  rw [isAnswer, hreq.read] at hanswer
  have hsource := of_decide_eq_true (Bool.and_eq_true_iff.mp hanswer).1
  exact ⟨m, hm, hsource.symm.trans hreq.sourceJobId⟩

/-- At rest without a deadlock, with the task running, a call for one response for which a message
has arrived is finished. -/
theorem Linked.isFinished_of_quiet (hs : s.Linked codec session answers)
    (hq : Quiet (step shard codec multi session answers) Action.IsProgress s)
    (hrunning : s.client.filter.task ≠ .stopped) (hlock : ¬ s.client.Deadlocked shard)
    (hcall : s.client.calls[i]? = some call) (hmulti : call.kind.isMulti = false)
    {m : RawNetMessage SteamID} (hm : m ∈ okMessages s.results)
    (htarget : m.header.targetJobId = call.id) : call.phase.IsFinished := by
  have hmem := List.mem_of_getElem? hcall
  have hclient := quiet_client hq
  have htask := (hs.wired.task_of_quiet hlock hclient).resolve_right hrunning
  have hidle := hs.wired.idle_of_quiet hlock hclient call.thread
  cases hphase : call.phase with
  | finished => trivial
  | drawn | completing | closing => exact absurd (by rw [hphase]; trivial) (hidle call hmem rfl)
  | yielding =>
    have hstreams := (hs.wired.inv.call call hmem).multi (by rw [hphase]; trivial)
    exact absurd (hstreams.symm.trans hmulti) (by decide)
  | registered =>
    have hsent := hs.sent_of_quiet hq hcall hphase hidle
    have hwaiting := hs.wired.waiting_of_quiet hclient hmem hidle hsent (by rw [hphase]; trivial)
    rw [hphase] at hwaiting
    cases hwaiting.1
  | waiting =>
    exfalso
    have hawaits : call.Awaits := ⟨hmulti, .inr hphase⟩
    have hsent := hs.waits call hmem hmulti hphase
    have hunread :=
      (hs.wired.waiting_of_quiet hclient hmem hidle hsent (by rw [hphase]; trivial)).2
    -- it has read nothing, so it has received nothing
    have hempty : (s.client.filter.channels call.chan).inbox = [] := by
      rwa [Channel.unread, hs.untaken call hmem hawaits, List.drop_zero] at hunread
    rw [← pulled_of_quiet hq htask] at hm
    -- but the message was pulled, and the task has nothing in its hand
    obtain ⟨item, hitem, -⟩ := hs.hand call hmem hawaits hempty m hm htarget
    rw [htask] at hitem
    cases hitem

/-- The steps that a session takes by itself are so many at most, and when they are over every
call for one response whose request was answered is finished. -/
theorem finishes_of_run (hcodec : codec.Lawful)
    (hs : Reachable (step shard codec multi session answers) (StreamStart shard) s)
    {v : List (Action SteamID)} (hv : ∀ a ∈ v, a.IsProgress)
    (hrun : run (step shard codec multi session answers) s v = some t)
    (hdraws : t.client.calls.length < 2 ^ 64 - 1) (hfits : t.Fits codec session) :
    v.length ≤ s.measure ∧
      (Quiet (step shard codec multi session answers) Action.IsProgress t →
        t.client.filter.task ≠ .stopped → ¬ t.client.Deadlocked shard →
          ∀ (i : Nat) (call : Call) (inv : Invocation SteamID), t.client.calls[i]? = some call →
            t.invocations[i]? = some inv → call.kind.isMulti = false →
              t.IsAnswered codec session answers call inv → call.phase.IsFinished) := by
  constructor
  · exact length_le_of_run (fun _ _ _ ha hstep => measure_lt_of_isProgress ha hstep) hv hrun
  · intro hq hrunning hlock i call inv hcall hinv hmulti hanswered
    have hlinked := linked_of_reachable hcodec (hs.trans_run hrun) hdraws hfits
    obtain ⟨m, hm, htarget⟩ := hanswered.exists_target hcodec hfits hcall hinv
    exact hlinked.isFinished_of_quiet hq hrunning hlock hcall hmulti hm htarget

/-! ### A session at rest -/

/-- The steps that a call takes by itself. -/
def ownSteps (i : Nat) : List (Action SteamID) :=
  [.transmit i, .client (.register i), .client (.sendOk i), .client (.receive i),
    .client (.closed i), .client (.resume i), .client (.complete i), .client (.finish i)]

/-- Only calls that were made take steps, so whether a session is at rest can be computed. -/
theorem quiet_iff : Quiet (step shard codec multi session answers) Action.IsProgress s ↔
    step shard codec multi session answers s .pull = none ∧
      step shard codec multi session answers s (.client (.filter .dispatch)) = none ∧
        ∀ i < s.client.calls.length, ∀ a ∈ ownSteps i,
          step shard codec multi session answers s a = none := by
  constructor
  · refine fun h => ⟨h _ trivial, h _ trivial, fun i _ a ha => h a ?_⟩
    simp only [ownSteps, List.mem_cons, List.not_mem_nil, or_false] at ha
    rcases ha with rfl | rfl | rfl | rfl | rfl | rfl | rfl | rfl <;> trivial
  · rintro ⟨hpull, hdispatch, hcalls⟩
    have hown : ∀ i, ∀ a ∈ ownSteps i, step shard codec multi session answers s a = none := by
      intro i
      by_cases hlt : i < s.client.calls.length
      · exact hcalls i hlt
      · have hget := List.getElem?_eq_none (not_lt.mp hlt)
        intro a ha
        simp only [ownSteps, List.mem_cons, List.not_mem_nil, or_false] at ha
        rcases ha with rfl | rfl | rfl | rfl | rfl | rfl | rfl | rfl <;>
          simp [step, Client.step, Client.Action.call, IsOwn, hget]
    intro a ha
    cases a with
    | transmit i => exact hown i _ (by simp [ownSteps])
    | pull => exact hpull
    | client a =>
      cases a with
      | register i | sendOk i | receive i | closed i | resume i | complete i | finish i =>
        exact hown i _ (by simp [ownSteps])
      | filter b =>
        cases b with
        | dispatch => exact hdispatch
        | _ => exact ha.elim
      | _ => exact ha.elim
    | _ => exact ha.elim

instance : Decidable (Quiet (step shard codec multi session answers) Action.IsProgress s) :=
  decidable_of_iff _ quiet_iff.symm

omit [SteamIdOps SteamID] [DecidableEq SteamID] in
theorem streamStart_init : ({} : Rpc SteamID).StreamStart shard :=
  ⟨start_init, fun _ _ h => by cases h⟩

/-- Two calls wait, and the response to the second has arrived. -/
def answeredSecond : List (Action UInt64) :=
  [.invoke (echo [7]) 0, .invoke (echo [8]) 1, .client (.register 0), .client (.register 1),
    .transmit 0, .transmit 1, .client (.sendOk 0), .client (.sendOk 1),
    .arrive (.ok (echoResponse 2 [8]))]

/-- The task pulls the response to the second call, and delivers it. -/
def echoProgress : List (Action UInt64) :=
  [.pull, .client (.filter .dispatch), .client (.filter .dispatch), .client (.receive 1),
    .client (.finish 1)]

/-- Then the session is at rest, and the first call still waits. -/
theorem quiet_echoProgress :
    ∃ s t first second,
      run (step (fun _ => 0) HeaderCodec.wire MultiCodec.wire userSession echoes) {}
        answeredSecond = some s ∧
      run (step (fun _ => 0) HeaderCodec.wire MultiCodec.wire userSession echoes) s echoProgress =
        some t ∧
      Quiet (step (fun _ => 0) HeaderCodec.wire MultiCodec.wire userSession echoes)
        Action.IsProgress t ∧
      t.client.filter.task = .awaiting ∧ t.Fits HeaderCodec.wire userSession ∧
      t.client.calls = [first, second] ∧ t.invocations = [echo [7], echo [8]] ∧
      first.phase = .waiting ∧ second.kind.isMulti = false ∧
      t.IsAnswered HeaderCodec.wire userSession echoes second (echo [8]) := by
  refine ⟨_, _, _, _, rfl, rfl, ?_, rfl, ?_, rfl, rfl, rfl, rfl, _, rfl, _, List.mem_cons_self, ?_⟩
  all_goals decide +kernel

theorem finishes_of_run_echoProgress :
    ∃ s t first second,
      run (step (fun _ => 0) HeaderCodec.wire MultiCodec.wire userSession echoes) {}
        answeredSecond = some s ∧
      run (step (fun _ => 0) HeaderCodec.wire MultiCodec.wire userSession echoes) s echoProgress =
        some t ∧
      Quiet (step (fun _ => 0) HeaderCodec.wire MultiCodec.wire userSession echoes)
        Action.IsProgress t ∧
      t.client.calls = [first, second] ∧ first.phase = .waiting ∧
      echoProgress.length ≤ s.measure ∧ second.phase.IsFinished := by
  obtain ⟨s, t, first, second, hs, ht, hquiet, htask, hfits, hcalls, hinvs, hwaits, hmulti,
    hanswered⟩ := quiet_echoProgress
  obtain ⟨hlength, hfinished⟩ := finishes_of_run HeaderCodec.wire_lawful
    ⟨{}, answeredSecond, streamStart_init, hs⟩
    (by simp [echoProgress, Action.IsProgress, Client.Action.IsProgress]) ht (by simp [hcalls])
    hfits
  refine ⟨s, t, first, second, hs, ht, hquiet, hcalls, hwaits, hlength,
    hfinished hquiet (by simp [htask]) ?_ 1 second (echo [8]) (by simp [hcalls]) (by simp [hinvs])
      hmulti hanswered⟩
  rintro ⟨_, _, _, _, _, ⟨hroom, -⟩, -⟩
  rw [htask] at hroom
  cases hroom

end AtRest

end Rpc

end SteamWire
