import SteamWire.Connection.Ownership

/-!
# Waiting after the end of the task

When the task ends it drops what it holds, but the tables are shared with the handles
and keep the sending ends stored in them, so that a receiver that waits on one of those
is never told. `noneStranded_iff` says which runs leave no receiver waiting for ever:
those in which nobody waits when the task ends, and nobody starts to wait afterwards.
-/

namespace SteamWire

open Semantics

namespace MessageFilter

variable {SteamID : Type} {shard : JobId → Nat} {f g : MessageFilter SteamID} {a : Action SteamID}

/-- The sending end of a receiver that exists is stored in a table with one receiver to a
slot. -/
def HasWaiter (f : MessageFilter SteamID) : Prop :=
  ∃ o c, ¬ o.IsBroadcast ∧ (f.channels c).alive = true ∧ f.Stored o c

/-- Nobody waits for a task that has ended. -/
def NoneStranded (f : MessageFilter SteamID) : Prop := f.task = .stopped → ¬ f.HasWaiter

/-- Results that end the task: the end of the receive pipeline, and those of its results the
task stops at. -/
def Action.EndsTask : Action SteamID → Prop
  | .next res => ∀ item ∈ res, SteamWire.EndsTask item
  | _ => False

/-- The task ends only when nobody waits, and nobody starts to wait after that. -/
def EndsUnawaited (f : MessageFilter SteamID) (a : Action SteamID) : Prop :=
  (a.EndsTask → ¬ f.HasWaiter) ∧ ∀ o, a.origin = some o → ¬ o.IsBroadcast → f.task ≠ .stopped

/-- The task ends by such a result, and the tables stay as they are. -/
theorem StepsTo.eq_of_stopped (h : StepsTo f a g) (hg : g.task = .stopped)
    (hf : f.task ≠ .stopped) : a.EndsTask ∧ g = { f with task := .stopped } := by
  cases h with
  | register ho hreg => exact absurd (hreg.task ▸ hg) hf
  | stop htask hend => exact ⟨hend, rfl⟩
  | pull => cases hg
  | dispatch hdispatch =>
    cases hdispatch with
    | jobSend | multiSend | kindOnceSend | notificationSend | kindSend =>
      rw [deliver_task] at hg
      cases hg
    | _ => cases hg
  | _ => exact absurd hg hf

/-- A result that ends the task does end it. -/
theorem StepsTo.stopped_of_endsTask (h : StepsTo f a g) (ha : a.EndsTask) :
    g = { f with task := .stopped } := by
  cases h with
  | register ho =>
    cases a with
    | next res => cases ho
    | _ => exact ha.elim
  | pull => exact (ha _ rfl).elim
  | skip htask hskip =>
    have hstop : _ = true := ha _ rfl
    rw [hskip] at hstop
    cases hstop
  | stop => rfl
  | _ => exact ha.elim

/-- A receiver that waits after a step waited before it, unless the step registered it. -/
theorem Owned.hasWaiter_of_steps (hf : f.Owned) (h : StepsTo f a g) (hg : g.HasWaiter) :
    f.HasWaiter ∨ ∃ o, a.origin = some o ∧ ¬ o.IsBroadcast := by
  obtain ⟨o, c, ho, halive, hstored⟩ := hg
  rcases h.stored_of hstored with hold | ⟨horigin, -⟩
  · rcases h.alive_of halive with hlive | ⟨hnew, -⟩
    · exact .inl ⟨o, c, ho, hlive, hold⟩
    · exact absurd hnew (hf.ne_nextChan (hf.stored hold))
  · exact .inr ⟨o, horigin, ho⟩

/-- A registration starts to wait. -/
theorem Registers.hasWaiter {o : Origin} (h : Registers f o g) (ho : ¬ o.IsBroadcast) :
    g.HasWaiter :=
  ⟨o, f.nextChan, ho, by rw [h.channels_new], h.stored_new⟩

/-- Nobody is stranded by a step that meets the condition. -/
theorem NoneStranded.of_steps (hf : f.Owned) (hnone : NoneStranded f) (h : StepsTo f a g)
    (hguard : EndsUnawaited f a) : NoneStranded g := by
  intro hstopped hwaiter
  -- either the task had ended before, or it ends in this step
  by_cases hf' : f.task = .stopped
  · rcases hf.hasWaiter_of_steps h hwaiter with hold | ⟨o, horigin, ho⟩
    · exact hnone hf' hold
    · exact hguard.2 o horigin ho hf'
  · obtain ⟨hends, rfl⟩ := h.eq_of_stopped hstopped hf'
    obtain ⟨o, c, ho, halive, hstored⟩ := hwaiter
    exact hguard.1 hends ⟨o, c, ho, halive, by cases o <;> exact hstored⟩

/-- A step that misses the condition strands somebody. -/
theorem not_noneStranded_of_steps (h : StepsTo f a g) (hguard : ¬ EndsUnawaited f a) :
    ¬ NoneStranded g := by
  intro hnone
  apply hguard
  refine ⟨fun hends => ?_, fun o horigin ho hstopped => ?_⟩
  · have hg := h.stopped_of_endsTask hends
    subst hg
    rintro ⟨o, c, ho, halive, hstored⟩
    exact hnone rfl ⟨o, c, ho, halive, by cases o <;> exact hstored⟩
  · rcases h.nextChan_eq with ⟨-, hnone'⟩ | ⟨-, o', horigin', hreg⟩
    · rw [horigin] at hnone'
      cases hnone'
    · rw [horigin, Option.some.injEq] at horigin'
      subst horigin'
      exact hnone (by rw [hreg.task, hstopped]) (hreg.hasWaiter ho)

/-- The runs of a filter in which no receiver outlives the task with its sending end
stored. -/
theorem noneStranded_iff (w : List (Action SteamID)) :
    AllStates (step shard) NoneStranded {} w ↔ AllSteps (step shard) EndsUnawaited {} w := by
  apply allStates_iff_allSteps (I := fun f => f.Owned ∧ NoneStranded f)
  · exact fun f hf => hf.2
  · intro f a g hf hguard h
    have hsteps := stepsTo_of_step h
    exact ⟨hf.1.of_steps hsteps, hf.2.of_steps hf.1 hsteps hguard⟩
  · intro f a g hf hguard h
    exact not_noneStranded_of_steps (stepsTo_of_step h) hguard
  · exact ⟨owned_init, fun h => nomatch h⟩

/-- A logon that waits for its response when the connection closes waits for ever. -/
theorem not_noneStranded_logon :
    ∃ f : MessageFilter UInt64,
      run (step fun _ => 0) {} [.oneKind EMsg.kEMsgClientLogOnResponse.kind, .next none] = some f ∧
        ¬ NoneStranded f := by
  refine ⟨_, rfl, fun h => h rfl ?_⟩
  exact ⟨.oneKind EMsg.kEMsgClientLogOnResponse.kind, 0, not_false, rfl, rfl⟩

end MessageFilter

end SteamWire
