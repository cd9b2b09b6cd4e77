import SteamWire.Connection.FilterStep
import SteamWire.Semantics.Simulation

/-!
# The filter behind a receive pipeline

A filter whose task takes the results of one source in order, whenever it gets to them,
while the handles do what they like. What such a filter can come to depends on the source
only through the messages the task dispatches and through whether the source ends it
(`reaches_iff_of_receive_eq`): results it skips leave no trace.
-/

namespace SteamWire

open Semantics

namespace MessageFilter

variable {SteamID : Type} (shard : JobId → Nat)

/-- What can happen: the task takes the next result, or something else does. -/
inductive FeedAction (SteamID : Type) where
  | pull
  | other (a : Action SteamID)

/-- Everything but the pulls. -/
def FeedAction.shown : FeedAction SteamID → Option (Action SteamID)
  | .pull => none
  | .other a => some a

/-- One step of a filter, with the results that are still to come. -/
def feedStep : MessageFilter SteamID × List (Outcome NetworkError (RawNetMessage SteamID)) →
    FeedAction SteamID →
      Option (MessageFilter SteamID × List (Outcome NetworkError (RawNetMessage SteamID)))
  | (f, res :: source), .pull => (step shard f (.next (some res))).map fun g => (g, source)
  | (_, []), .pull => none
  | (_, _), .other (.next _) => none
  | (f, source), .other a => (step shard f a).map fun g => (g, source)

/-- A new filter with this source can come to the state `f`, doing `v` besides the pulls. -/
def Reaches (source : List (Outcome NetworkError (RawNetMessage SteamID)))
    (v : List (Action SteamID)) (f : MessageFilter SteamID) : Prop :=
  ∃ w rest, run (feedStep shard) ({}, source) w = some (f, rest) ∧
    w.filterMap FeedAction.shown = v

variable {shard} {f g : MessageFilter SteamID} {a : Action SteamID}
  {source source' : List (Outcome NetworkError (RawNetMessage SteamID))}

/-- The task makes no lookups and sends after its end. -/
theorem Dispatches.task_ne_stopped (h : Dispatches f g) : f.task ≠ .stopped := by
  cases h <;> simp [*]

/-- The task does not come back. -/
theorem StepsTo.task_eq_stopped (h : StepsTo f a g) (hf : f.task = .stopped) :
    g.task = .stopped := by
  cases h with
  | register ho hreg => rw [hreg.task, hf]
  | pull htask =>
    rw [hf] at htask
    cases htask
  | stop => rfl
  | dispatch hdispatch => exact absurd hf hdispatch.task_ne_stopped
  | _ => exact hf

/-! ### Pulls -/

section Pull

/-- A pull takes the next result, which the task waits for. -/
theorem exists_of_feedStep_pull
    {t : MessageFilter SteamID × List (Outcome NetworkError (RawNetMessage SteamID))}
    (h : feedStep shard (f, source) .pull = some t) :
    ∃ res rest, source = res :: rest ∧ f.task = .awaiting ∧ t = (f.next (some res), rest) := by
  cases source with
  | nil => cases h
  | cons res rest =>
    obtain ⟨g, hg, rfl⟩ := Option.map_eq_some_iff.mp h
    simp only [step] at hg
    split at hg
    · rename_i htask
      cases hg
      exact ⟨res, rest, rfl, htask, rfl⟩
    · cases hg

/-- Everything else is a step of the filter, and does not touch the source. -/
theorem feedStep_other_eq_some
    {t : MessageFilter SteamID × List (Outcome NetworkError (RawNetMessage SteamID))} :
    feedStep shard (f, source) (.other a) = some t ↔
      (∀ res, a ≠ .next res) ∧ ∃ g, step shard f a = some g ∧ t = (g, source) := by
  cases a <;> cases source <;> simp [feedStep, eq_comm]

theorem feedStep_pull {res : Outcome NetworkError (RawNetMessage SteamID)}
    (hf : f.task = .awaiting) :
    feedStep shard (f, res :: source) .pull = some (f.next (some res), source) := by
  simp only [feedStep, step, hf, Option.map_some]

/-- A result that the task skips leaves the filter as it is. -/
theorem run_pull_skip {e : NetworkError} (hf : f.task = .awaiting) (hskip : e.stopsTask = false)
    (w : List (FeedAction SteamID)) :
    run (feedStep shard) (f, .err e :: source) (.pull :: w) =
      run (feedStep shard) (f, source) w := by
  have hnext : f.next (some (.err e)) = f := by
    rw [MessageFilter.next, hskip]
    rfl
  rw [run_cons, feedStep_pull hf, hnext]
  rfl

/-- The task gets to the first message of a source. -/
theorem exists_run_pull_message {message : RawNetMessage SteamID}
    {messages : List (RawNetMessage SteamID)} {status : TaskStatus} (hf : f.task = .awaiting)
    (h : receive source = (message :: messages, status)) :
    ∃ w rest, run (feedStep shard) (f, source) w = some (f.next (some (.ok message)), rest) ∧
      w.filterMap FeedAction.shown = [] ∧ receive rest = (messages, status) := by
  induction source with
  | nil => cases h
  | cons res source ih =>
    cases res with
    | ok message' =>
      simp only [receive, Prod.mk.injEq, List.cons.injEq] at h
      obtain ⟨⟨rfl, hmessages⟩, hstatus⟩ := h
      refine ⟨[.pull], source, ?_, rfl, Prod.ext hmessages hstatus⟩
      rw [run_cons, feedStep_pull hf]
      rfl
    | err e =>
      cases hstop : e.stopsTask with
      | true => simp [receive, hstop] at h
      | false =>
        rw [receive, hstop] at h
        obtain ⟨w, rest, hrun, hshown, hrest⟩ := ih h
        exact ⟨.pull :: w, rest, by rw [run_pull_skip hf hstop, hrun], hshown, hrest⟩
    | panic => simp [receive] at h

/-- The task gets to the end of a source that ends it. -/
theorem exists_run_pull_end {status : TaskStatus} (hf : f.task = .awaiting)
    (h : receive source = ([], status)) (hstatus : status ≠ .running) :
    ∃ w rest, run (feedStep shard) (f, source) w = some ({ f with task := .stopped }, rest) ∧
      w.filterMap FeedAction.shown = [] := by
  induction source with
  | nil => exact absurd (Prod.mk.inj h).2.symm hstatus
  | cons res source ih =>
    cases res with
    | ok message => simp [receive] at h
    | err e =>
      cases hstop : e.stopsTask with
      | true =>
        have hnext : f.next (some (.err e)) = { f with task := .stopped } := by
          rw [MessageFilter.next, hstop]
          rfl
        refine ⟨[.pull], source, ?_, rfl⟩
        rw [run_cons, feedStep_pull hf, hnext]
        rfl
      | false =>
        rw [receive, hstop] at h
        obtain ⟨w, rest, hrun, hshown⟩ := ih h
        exact ⟨.pull :: w, rest, by rw [run_pull_skip hf hstop, hrun], hshown⟩
    | panic =>
      refine ⟨[.pull], source, ?_, rfl⟩
      rw [run_cons, feedStep_pull hf]
      rfl

end Pull

/-! ### What a source can lead to -/

section Simulation

/-- The same filter, with sources that make no difference any more, or that the task receives
the same of. -/
def FedAlike (s t : MessageFilter SteamID × List (Outcome NetworkError (RawNetMessage SteamID))) :
    Prop :=
  s.1 = t.1 ∧ (s.1.task = .stopped ∨ receive s.2 = receive t.2)

/-- The pull of one result is matched by the pulls that get as far in another source. -/
theorem FedAlike.pull {res : Outcome NetworkError (RawNetMessage SteamID)}
    (hf : f.task = .awaiting) (h : receive (res :: source) = receive source') :
    ∃ w t, run (feedStep shard) (f, source') w = some t ∧ w.filterMap FeedAction.shown = [] ∧
      FedAlike (f.next (some res), source) t := by
  cases res with
  | ok message =>
    obtain ⟨w, rest, hrun, hshown, hrest⟩ := @exists_run_pull_message SteamID shard f source'
      message _ _ hf h.symm
    exact ⟨w, _, hrun, hshown, rfl, .inr hrest.symm⟩
  | err e =>
    cases hstop : e.stopsTask with
    | true =>
      rw [receive, hstop] at h
      obtain ⟨w, rest, hrun, hshown⟩ := @exists_run_pull_end SteamID shard f source' .stopped hf
        h.symm (by decide)
      have hnext : f.next (some (.err e)) = { f with task := .stopped } := by
        rw [MessageFilter.next, hstop]
        rfl
      exact ⟨w, _, hrun, hshown, hnext, .inl (by rw [hnext])⟩
    | false =>
      rw [receive, hstop] at h
      have hnext : f.next (some (.err e)) = f := by
        rw [MessageFilter.next, hstop]
        rfl
      exact ⟨[], _, rfl, rfl, hnext, .inr h⟩
  | panic =>
    obtain ⟨w, rest, hrun, hshown⟩ := @exists_run_pull_end SteamID shard f source' .panicked hf
      h.symm (by decide)
    exact ⟨w, _, hrun, hshown, rfl, .inl rfl⟩

theorem simulates_fedAlike :
    Simulates (feedStep shard) (feedStep shard) FeedAction.shown FeedAction.shown
      (@FedAlike SteamID) := by
  rintro ⟨f, source⟩ ⟨g, source'⟩ a t ⟨hfg, hrel⟩ hstep
  dsimp only at hfg hrel
  subst hfg
  cases a with
  | pull =>
    obtain ⟨res, rest, rfl, htask, rfl⟩ := exists_of_feedStep_pull hstep
    refine FedAlike.pull htask (hrel.resolve_left ?_)
    rw [htask]
    simp
  | other a =>
    obtain ⟨ha, g, hg, rfl⟩ := feedStep_other_eq_some.mp hstep
    have hother := feedStep_other_eq_some.mpr ⟨ha, g, hg, (rfl : (g, source') = _)⟩
    refine ⟨[.other a], (g, source'), by rw [run_cons, hother]; rfl, rfl, rfl, ?_⟩
    exact hrel.imp_left (stepsTo_of_step hg).task_eq_stopped

theorem Reaches.of_receive_eq (h : receive source = receive source') {v : List (Action SteamID)}
    {f : MessageFilter SteamID} (hf : Reaches shard source v f) : Reaches shard source' v f := by
  obtain ⟨w, rest, hrun, rfl⟩ := hf
  have hstart : FedAlike (({} : MessageFilter SteamID), source) ({}, source') := ⟨rfl, .inr h⟩
  obtain ⟨w', ⟨g, rest'⟩, hrun', hshown, hend, -⟩ := simulates_fedAlike.run hstart hrun
  obtain rfl : f = g := hend
  exact ⟨w', rest', hrun', hshown⟩

/-- Sources of which the task receives the same lead to the same filters. -/
theorem reaches_iff_of_receive_eq (h : receive source = receive source')
    (v : List (Action SteamID)) (f : MessageFilter SteamID) :
    Reaches shard source v f ↔ Reaches shard source' v f :=
  ⟨Reaches.of_receive_eq h, Reaches.of_receive_eq h.symm⟩

end Simulation

end MessageFilter

end SteamWire
