import SteamWire.Connection.CallInvariant

/-!
# What calls leave behind

A call has no guard that takes its registration back. The sending end of a call for one
response leaves the job table when the task finds it there, and that of a multi job when the
stream is polled past the response that completes it. Every other way to finish leaves the
entry in the table. `cleanedUp_iff` says which runs are clean: those in which every call
that finishes was answered.
-/

namespace SteamWire

open Semantics

/-- Registrations for a job. -/
def Origin.IsJob : Origin → Prop
  | .jobId _ | .jobIdMulti _ => True
  | _ => False

theorem Origin.IsJob.exists_eq {o : Origin} (h : o.IsJob) :
    ∃ id, o = .jobId id ∨ o = .jobIdMulti id := by
  cases o with
  | jobId id => exact ⟨id, .inl rfl⟩
  | jobIdMulti id => exact ⟨id, .inr rfl⟩
  | _ => exact h.elim

namespace Phase

def IsFinished : Phase → Prop
  | .finished _ => True
  | _ => False

/-- A multi job in this phase has taken its registration back. -/
def IsCompleted : Phase → Prop
  | .closing (.returned none) | .finished (.returned none) => True
  | _ => False

theorem IsSuspended.not_isCompleted {phase : Phase} (h : phase.IsSuspended) :
    ¬ phase.IsCompleted := by
  cases phase with
  | closing exit => exact h.elim
  | finished exit => exact h.elim
  | _ => exact not_false

theorem exit_of_isCompleted {exit : Exit} (h : (closing exit).IsCompleted) :
    exit = .returned none := by
  match exit with
  | .returned none => rfl
  | .returned (some _) => exact h.elim
  | .dropped => exact h.elim

theorem isCompleted_finished {exit : Exit} :
    (finished exit).IsCompleted ↔ (closing exit).IsCompleted := by
  match exit with
  | .returned none => exact Iff.rfl
  | .returned (some _) => exact Iff.rfl
  | .dropped => exact Iff.rfl

end Phase

namespace Call

theorem origin_of_isMulti {call : Call} (h : call.kind.isMulti = true) :
    call.origin = .jobIdMulti call.id := by
  simp [origin, h]

/-- A multi job that gets an error instead of a response has not taken its registration
back. -/
theorem not_isCompleted_afterResponse {call : Call} (hmulti : call.kind.isMulti = true)
    (response : Except NetworkError Bool) : ¬ (call.afterResponse response).IsCompleted := by
  unfold afterResponse
  split
  · rw [if_pos hmulti]
    exact not_false
  · exact not_false

end Call

namespace MessageFilter

variable {SteamID : Type} {f g : MessageFilter SteamID} {b : Action SteamID} {id : JobId}

/-- The job tables have no entry for `id`. -/
def HasNoEntry (f : MessageFilter SteamID) (id : JobId) : Prop :=
  f.jobIdFilters id = none ∧ f.jobIdMultiFilters id = none

/-- An entry for a job is a sending end stored for a registration of that job. -/
theorem hasNoEntry_iff : f.HasNoEntry id ↔
    ∀ o c, (o = .jobId id ∨ o = .jobIdMulti id) → ¬ f.Stored o c := by
  constructor
  · rintro ⟨hsingle, hmulti⟩ o c (rfl | rfl) hstored
    · cases hsingle.symm.trans hstored
    · cases hmulti.symm.trans hstored
  · intro h
    refine ⟨Option.eq_none_iff_forall_ne_some.mpr fun c hc => ?_,
      Option.eq_none_iff_forall_ne_some.mpr fun c hc => ?_⟩
    · exact h _ c (.inl rfl) hc
    · exact h _ c (.inr rfl) hc

/-- An entry for a job comes from a registration for it. -/
theorem HasNoEntry.of_steps (hf : f.HasNoEntry id) (h : f.StepsTo b g) (hforeign : b.IsForeign id) :
    g.HasNoEntry id := by
  rw [hasNoEntry_iff] at hf ⊢
  intro o c ho hg
  rcases h.stored_of hg with hold | ⟨horigin, -⟩
  · exact hf o c ho hold
  · obtain ⟨hsingle, hmulti⟩ := hforeign.ne_of_origin horigin
    exact ho.elim hsingle hmulti

/-- The entry of a multi job stays until the job takes it back or is registered again. -/
theorem StepsTo.jobIdMulti_eq (h : f.StepsTo b g) (hforeign : b.IsForeign id) :
    g.jobIdMultiFilters id = f.jobIdMultiFilters id := by
  cases h with
  | @register _ o _ ho hnew =>
    have hne := (hforeign.ne_of_origin ho).2.symm
    refine Option.ext fun c => ⟨fun hc => ?_, fun hc => hnew.stored_ne hne hc⟩
    have hstored : g.Stored (.jobIdMulti id) c := hc
    rcases hnew.stored_old hstored with hold | ⟨heq, -⟩
    · exact hold
    · exact absurd heq hne
  | complete =>
    refine Function.update_of_ne (fun hid => hforeign.ne_complete ?_) ..
    rw [hid]
  | dispatch hdispatch =>
    -- the task reads this table only
    cases hdispatch with
    | jobSend | multiSend | kindOnceSend | notificationSend | kindSend =>
      rw [deliver_jobIdMultiFilters]
    | _ => rfl
  | _ => rfl

end MessageFilter

namespace Client

variable {SteamID : Type} {shard : JobId → Nat} {s t : Client SteamID} {f g : MessageFilter SteamID}
  {a : Action SteamID} {i j : Nat} {call call' other : Call}

/-- Finished calls have no entry in the job tables, and when all calls are finished there is
none at all. -/
structure CleanedUp (s : Client SteamID) : Prop where
  finished : ∀ call ∈ s.calls, call.phase.IsFinished → s.filter.HasNoEntry call.id
  all : (∀ call ∈ s.calls, call.phase.IsFinished) → ∀ id, s.filter.HasNoEntry id

/-- What takes the registration of a call back: for a call for one response a message for its
job, which was sent to it or is about to be, and for a multi job the polling past the response
that completes it. -/
def Answered (f : MessageFilter SteamID) (call : Call) : Prop :=
  if call.kind.isMulti then call.phase = .closing (.returned none)
  else (f.channels call.chan).inbox ≠ [] ∨ f.task.held = some (call.origin, call.chan)

/-- A call that finishes was answered. -/
def FinishesAnswered (s : Client SteamID) (a : Action SteamID) : Prop :=
  ∀ i call, a = .finish i → s.calls[i]? = some call → Answered s.filter call

/-! ### The registration of a multi job -/

section MultiJob

/-- The sending end of a multi job is stored until the job takes it back. -/
def Kept (f : MessageFilter SteamID) (call : Call) : Prop :=
  call.kind.isMulti = true → call.phase ≠ .drawn →
    (f.Stored call.origin call.chan ↔ ¬ call.phase.IsCompleted)

/-- Steps that are foreign to a multi job leave its registration alone. -/
theorem Kept.of_steps {b : MessageFilter.Action SteamID} (hf : Kept f call) (h : f.StepsTo b g)
    (hforeign : b.IsForeign call.id) : Kept g call := by
  intro hmulti hne
  rw [← hf hmulti hne, Call.origin_of_isMulti hmulti]
  simp only [MessageFilter.Stored, h.jobIdMulti_eq hforeign]

/-- A multi job goes on without taking its registration back. -/
theorem Kept.congr (hf : Kept f call) (hkind : call'.kind = call.kind) (hid : call'.id = call.id)
    (hchan : call'.chan = call.chan) (hne : call.phase ≠ .drawn)
    (hcompleted : call.kind.isMulti = true →
      (call'.phase.IsCompleted ↔ call.phase.IsCompleted)) : Kept f call' := by
  intro hmulti _
  have horigin : call'.origin = call.origin := by simp only [Call.origin, hkind, hid]
  rw [hkind] at hmulti
  rw [horigin, hchan, hf hmulti hne, hcompleted hmulti]

/-- The steps of a multi job: it takes its registration back in one of them. -/
theorem Kept.of_callSteps (hf : Kept f call) (h : CallSteps f call a call' g) : Kept g call' := by
  cases h with
  | register hphase hreg => exact fun _ _ => iff_of_true hreg.stored_new not_false
  | transmit hphase => exact hf
  | sendOk hphase =>
    refine hf.congr rfl rfl rfl (by simp [hphase]) fun _ => ?_
    rw [hphase]
    exact Iff.rfl
  | @receive _ item taken hphase hitem htaken =>
    have hsteps : f.StepsTo (.recv call.chan)
        (f.setChannel call.chan { f.channels call.chan with taken := taken }) :=
      .recv (List.ne_nil_of_mem hitem) htaken
    have hread := hf.of_steps hsteps trivial
    refine hread.congr rfl rfl rfl (by simp [hphase]) fun hmulti => ?_
    rw [hphase]
    exact iff_of_false (Call.not_isCompleted_afterResponse hmulti _) not_false
  | @close _ exit _ hphase hexit =>
    have hopen := Phase.IsSuspended.isOpen hphase
    refine hf.congr rfl rfl rfl hopen.ne_drawn fun _ => ?_
    refine iff_of_false (fun hcompleted => hexit ?_) (Phase.IsSuspended.not_isCompleted hphase)
    exact Phase.exit_of_isCompleted hcompleted
  | @resume _ completed hphase =>
    refine hf.congr rfl rfl rfl (by simp [hphase]) fun _ => ?_
    rw [hphase]
    cases completed <;> exact Iff.rfl
  -- only here is the registration taken back
  | complete hphase =>
    intro hmulti _
    refine iff_of_false ?_ (not_not_intro trivial)
    rw [Call.origin_of_isMulti hmulti]
    simp [MessageFilter.Stored, MessageFilter.completeJobIdMulti]
  | @finish _ exit hphase =>
    have hdone : Kept f { call with phase := .finished exit } := by
      refine hf.congr rfl rfl rfl (by simp [hphase]) fun _ => ?_
      rw [hphase]
      exact Phase.isCompleted_finished
    have hsteps : f.StepsTo (.dropReceiver call.chan) (f.dropReceiver call.chan) := .drop
    exact hdone.of_steps hsteps trivial

end MultiJob

/-! ### The entries of all calls -/

section Entries

/-- The sending end is stored, or in the hand of the task. -/
def IsKept (f : MessageFilter SteamID) (o : Origin) (c : ChanId) : Prop :=
  f.Stored o c ∨ f.task.held = some (o, c)

/-- The entries of the job tables, and those that the task has taken out, are those of the
calls. -/
structure Tidy (s : Client SteamID) : Prop where
  attached : s.Attached
  kept : ∀ call ∈ s.calls, Kept s.filter call
  owners : ∀ {o c}, o.IsJob → IsKept s.filter o c →
    ∃ call ∈ s.calls, call.phase ≠ .drawn ∧ call.origin = o ∧ call.chan = c

theorem tidy_init : ({} : Client SteamID).Tidy where
  attached := {
    owned := MessageFilter.owned_init
    ids := List.nodup_nil
    call := fun _ h => nomatch h }
  kept _ h := nomatch h
  owners {o c} ho h := by
    rcases h with hstored | hheld
    · cases o <;> first | exact ho.elim | cases hstored
    · cases hheld

/-- The task takes from the tables what it comes to hold. -/
theorem isKept_of_steps {b : MessageFilter.Action SteamID} {o : Origin} {c : ChanId}
    (h : f.StepsTo b g) (hg : IsKept g o c) :
    IsKept f o c ∨ b.origin = some o ∧ c = f.nextChan ∧ f.Registers o g := by
  rcases hg with hstored | hheld
  · exact (h.stored_of hstored).imp_left .inl
  · rcases h.held_of hheld with ⟨hold, -⟩ | ⟨hstored, -⟩
    · exact .inl (.inr hold)
    · exact .inl (.inl hstored)

/-- Steps that are foreign to all jobs leave the entries to the calls. -/
theorem Tidy.owners_of_steps {b : MessageFilter.Action SteamID} {o : Origin} {c : ChanId}
    (hs : s.Tidy) (h : s.filter.StepsTo b g) (hforeign : ∀ id, b.IsForeign id) (ho : o.IsJob)
    (hg : IsKept g o c) :
    ∃ call ∈ s.calls, call.phase ≠ .drawn ∧ call.origin = o ∧ call.chan = c := by
  rcases isKept_of_steps h hg with hold | ⟨hnew, -⟩
  · exact hs.owners ho hold
  · obtain ⟨id, hid⟩ := ho.exists_eq
    obtain ⟨hsingle, hmulti⟩ := (hforeign id).ne_of_origin hnew
    exact (hid.elim hsingle hmulti).elim

/-- The only entry a call makes is its own. -/
theorem CallSteps.isKept_of {o : Origin} {c : ChanId} (h : CallSteps f call a call' g)
    (hg : IsKept g o c) :
    IsKept f o c ∨ call'.phase ≠ .drawn ∧ call'.origin = o ∧ call'.chan = c := by
  rcases h.filter_cases with rfl | ⟨b, hb, ⟨hphase, ho, -⟩ | ⟨-, hnone, -⟩⟩
  · exact .inl hg
  · -- the call registers in this step
    refine (isKept_of_steps hb hg).imp_right ?_
    rintro ⟨hnew, rfl, -⟩
    obtain ⟨i, rfl, rfl, -⟩ := h.of_drawn hphase
    exact ⟨by simp, Option.some.inj (ho.symm.trans hnew), rfl⟩
  · refine .inl ((isKept_of_steps hb hg).resolve_right ?_)
    rintro ⟨hnew, -⟩
    rw [hnone] at hnew
    cases hnew

/-- The task holds nothing for a call that has not registered: its id is no other call's. -/
theorem Tidy.not_held_of_drawn (hs : s.Tidy) (hcall : call ∈ s.calls) (hphase : call.phase = .drawn)
    (c : ChanId) : s.filter.task.held ≠ some (call.origin, c) := by
  intro hheld
  have hjob : call.origin.IsJob := by
    rcases call.origin_eq_or with horigin | horigin <;> rw [horigin] <;> trivial
  obtain ⟨other, hother, hne, horigin, -⟩ := hs.owners hjob (.inr hheld)
  obtain rfl := hs.attached.eq_of_id_eq hother hcall (Call.id_eq_of_origin_eq horigin)
  exact hne hphase

/-- Every step keeps what is kept for the calls, that of the call which it is a step of or that
of others. -/
theorem Attached.kept_of_steps (hs : s.Attached) (hkept : ∀ call ∈ s.calls, Kept s.filter call)
    (h : StepsTo s a t) : ∀ call ∈ t.calls, Kept t.filter call :=
  forall_calls_of_steps hs h (fun _ _ _ _ _ hne => absurd rfl hne)
    (fun _ hsteps hspares hold => hold.of_steps hsteps hspares.foreign)
    (fun _ hsteps hold => hold.of_callSteps hsteps) hkept

/-- Every step that hands out fresh ids leaves the entries with the calls. -/
theorem Tidy.of_steps (hs : s.Tidy) (h : StepsTo s a t) (hfresh : FreshIds s a) : t.Tidy := by
  refine ⟨hs.attached.of_steps h hfresh fun call hcall => hs.not_held_of_drawn hcall,
    hs.attached.kept_of_steps hs.kept h, ?_⟩
  cases h with
  | @draw kind parse thread =>
    intro o c ho hkept
    obtain ⟨call, hcall, hreg⟩ := hs.owners ho hkept
    exact ⟨call, List.mem_append_left _ hcall, hreg⟩
  | source hsteps => exact hs.owners_of_steps hsteps fun _ => trivial
  | filter hpermits hsteps => exact hs.owners_of_steps hsteps hpermits.isForeign
  | @call _ i call call' g ha hcall hsteps =>
    intro o c ho hg
    obtain ⟨hkind, hid⟩ := hsteps.id_eq
    have hself : call' ∈ s.calls.set i call' :=
      List.mem_set (List.getElem?_eq_some_iff.mp hcall).1 _
    rcases hsteps.isKept_of hg with hkept | hnew
    · obtain ⟨other, hother, hphase, horigin, hchan⟩ := hs.owners ho hkept
      -- the owner of an old entry has it still, also when it is the call that moved on
      by_cases hsame : other = call
      · subst hsame
        obtain ⟨hchan', hphase'⟩ := hsteps.chan_eq hphase
        refine ⟨call', hself, hphase', ?_, hchan'.trans hchan⟩
        rw [← horigin]
        simp only [Call.origin, hkind, hid]
      · exact ⟨other, mem_set_of_ne hcall hother hsame, hphase, horigin, hchan⟩
    · exact ⟨call', hself, hnew⟩

end Entries

/-! ### Clean runs -/

section CleanedUp

/-- The entry for the job of a call is its own. -/
theorem Tidy.hasNoEntry_iff (hs : s.Tidy) (hcall : call ∈ s.calls) :
    s.filter.HasNoEntry call.id ↔ ¬ s.filter.Stored call.origin call.chan := by
  rw [MessageFilter.hasNoEntry_iff]
  refine ⟨fun h => h _ _ call.origin_eq_or, fun h o c ho hstored => h ?_⟩
  have hjob : o.IsJob := by rcases ho with rfl | rfl <;> trivial
  -- an entry belongs to a call, and ids tell calls apart
  obtain ⟨other, hother, -, horigin, hchan⟩ := hs.owners hjob (.inl hstored)
  have hid : other.id = call.id := Call.id_of_origin (horigin ▸ ho)
  rw [hs.attached.eq_of_id_eq hother hcall hid] at horigin hchan
  rwa [horigin, hchan]

/-- A call that is about to finish leaves its sending end behind unless it was answered. -/
theorem Tidy.stored_iff (hs : s.Tidy) (hcall : call ∈ s.calls) {exit : Exit}
    (hphase : call.phase = .closing exit) :
    s.filter.Stored call.origin call.chan ↔ ¬ Answered s.filter call := by
  unfold Answered
  by_cases hmulti : call.kind.isMulti = true
  · rw [if_pos hmulti, hs.kept call hcall hmulti (by simp [hphase]), hphase, not_iff_not]
    exact ⟨fun h => by rw [Phase.exit_of_isCompleted h], fun h => h ▸ trivial⟩
  · have hlistens : call.Listens := ⟨eq_false_of_ne_true hmulti, by rw [hphase]; trivial⟩
    have hone : call.origin.OneShot := by
      rw [hlistens.origin_eq]
      trivial
    -- the sending end of a one-shot receiver is stored, in the hand of the task, or used
    rw [if_neg hmulti, not_or, not_not]
    constructor
    · intro hstored
      refine ⟨hs.attached.owned.unsent hone hstored, fun hheld => ?_⟩
      exact (hs.attached.owned.unsent_held hone hheld).2 hstored
    · rintro ⟨hempty, hheld⟩
      exact ((hs.attached.call call hcall).unanswered hlistens hempty).resolve_right hheld

/-- When the finished calls are clean, the tables are empty once all calls are finished. -/
theorem Tidy.cleanedUp (hs : s.Tidy)
    (h : ∀ call ∈ s.calls, call.phase.IsFinished → s.filter.HasNoEntry call.id) : s.CleanedUp := by
  refine ⟨h, fun hall id => ?_⟩
  rw [MessageFilter.hasNoEntry_iff]
  intro o c ho hstored
  have hjob : o.IsJob := by rcases ho with rfl | rfl <;> trivial
  -- the entry belongs to a call, which is finished and has none
  obtain ⟨call, hcall, -, horigin, hchan⟩ := hs.owners hjob (.inl hstored)
  refine (hs.hasNoEntry_iff hcall).mp (h call hcall (hall call hcall)) ?_
  rwa [horigin, hchan]

/-- A call finishes in one way. -/
theorem CallSteps.of_isFinished (h : CallSteps f call a call' g) (hdone : call'.phase.IsFinished) :
    ∃ i exit, a = .finish i ∧ call.phase = .closing exit ∧ g = f.dropReceiver call.chan := by
  cases h with
  | finish hphase => exact ⟨_, _, rfl, hphase, rfl⟩
  | transmit hphase =>
    have hdone' : call.phase.IsFinished := hdone
    rw [hphase] at hdone'
    exact hdone'.elim
  | @receive _ item =>
    exfalso
    rcases call.afterResponse_cases (call.respond item.message) with ⟨_, hexit⟩ | ⟨-, _, hyield⟩
    · simp [hexit, Phase.IsFinished] at hdone
    · simp [hyield, Phase.IsFinished] at hdone
  | @resume _ completed => cases completed <;> exact hdone.elim
  | _ => exact hdone.elim

/-- The finished calls stay clean in a step in which a call finishes only if it was
answered. -/
theorem CleanedUp.of_steps (hs : s.Tidy) (hclean : s.CleanedUp) (h : StepsTo s a t)
    (hguard : FinishesAnswered s a) :
    ∀ call ∈ t.calls, call.phase.IsFinished → t.filter.HasNoEntry call.id := by
  intro other hother hdone
  cases h with
  | draw =>
    rcases List.mem_append.mp hother with hother | hother
    · exact hclean.finished other hother hdone
    · rw [List.mem_singleton.mp hother] at hdone
      exact hdone.elim
  | source hsteps => exact (hclean.finished other hother hdone).of_steps hsteps trivial
  | filter hpermits hsteps =>
    exact (hclean.finished other hother hdone).of_steps hsteps (hpermits.isForeign other.id)
  | @call _ i call call' g ha hcall hsteps =>
    have hmem := List.mem_of_getElem? hcall
    rcases mem_set_cases hs.attached.ids hcall hother with rfl | ⟨hold, hne⟩
    · -- the call that finishes in this step
      obtain ⟨j, exit, rfl, hphase, rfl⟩ := hsteps.of_isFinished hdone
      cases ha
      have hfree := (hs.hasNoEntry_iff hmem).mpr fun hstored =>
        (hs.stored_iff hmem hphase).mp hstored (hguard _ _ rfl hcall)
      rw [hsteps.id_eq.2]
      exact hfree
    · have hfree := hclean.finished other hold hdone
      rcases hs.attached.spares_of_callSteps hmem hold hne hsteps with rfl | ⟨b, hb, -, hspares⟩
      · exact hfree
      · exact hfree.of_steps hb hspares.foreign

/-- A call that finishes without an answer leaves its entry behind. -/
theorem not_cleanedUp_of_steps (hs : s.Tidy) (h : StepsTo s a t) (hguard : ¬ FinishesAnswered s a) :
    ¬ t.CleanedUp := by
  intro hclean
  refine hguard fun i call ha hcall => ?_
  subst ha
  by_contra hanswered
  have hmem := List.mem_of_getElem? hcall
  cases h with
  | @call _ j other other' g ha hother hsteps =>
    cases ha
    obtain rfl := Option.some.inj (hcall.symm.trans hother)
    cases hsteps with
    | close hcloses => exact hcloses.elim
    | @finish _ exit hphase =>
      have hdone := hclean.finished _ (List.mem_set (List.getElem?_eq_some_iff.mp hcall).1 _) trivial
      exact (hs.hasNoEntry_iff hmem).mp hdone ((hs.stored_iff hmem hphase).mpr hanswered)

/-- The runs, among those that hand out fresh ids, that keep the job tables clean. -/
theorem cleanedUp_iff (w : List (Action SteamID)) :
    AllSteps (step shard) FreshIds {} w ∧ AllStates (step shard) CleanedUp {} w ↔
      AllSteps (step shard) (fun s a => FreshIds s a ∧ FinishesAnswered s a) {} w := by
  rw [AllSteps.and]
  refine and_congr_right fun hfresh => ?_
  apply AllSteps.allStates_iff (I := fun s : Client SteamID => s.Tidy ∧ s.CleanedUp) _ _ _ _ hfresh
  · exact fun s hs => hs.2
  · intro s a t hs hnew hguard h
    have hsteps := stepsTo_of_step h
    have htidy := hs.1.of_steps hsteps hnew
    exact ⟨htidy, htidy.cleanedUp (hs.2.of_steps hs.1 hsteps hguard)⟩
  · intro s a t hs _ hguard h
    exact not_cleanedUp_of_steps hs.1 (stepsTo_of_step h) hguard
  · exact ⟨tidy_init, tidy_init.cleanedUp fun call hcall => absurd hcall List.not_mem_nil⟩

/-- A job that times out stays in the table. -/
theorem not_cleanedUp_timeout :
    ∃ s : Client UInt64,
      run (step fun _ => 0) {}
          [.draw (.job EMsg.kEMsgClientLogOnResponse.kind) (fun _ => .ok true) 0, .register 0,
            .transmit 0, .sendOk 0, .timeout 0, .finish 0] = some s ∧
        ¬ s.CleanedUp := by
  refine ⟨_, rfl, fun h => ?_⟩
  have hfree := h.finished _ List.mem_cons_self trivial
  exact absurd hfree.1 (by decide)

end CleanedUp

end Client

end SteamWire
