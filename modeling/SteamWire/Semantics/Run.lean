import Mathlib.Logic.Basic
import Mathlib.Data.List.Basic

/-!
# Runs of a partial step function

A system is given by a partial step function `step : σ → α → Option σ`: `none`
says that the action is not possible in the state. A run is a list of actions
executed in order. This file supplies runs, reachability with its induction
rule, and predicates on all states and all steps of one run, with the rule that
characterizes the runs which keep a property by a condition on their steps. At the
end is the bound for the actions that a system takes by itself.
-/

namespace SteamWire.Semantics

variable {σ α : Type*} {step : σ → α → Option σ}

/-- Execute the actions in order, failing at the first impossible one. -/
def run (step : σ → α → Option σ) : σ → List α → Option σ
  | s, [] => some s
  | s, a :: w => (step s a).bind fun t => run step t w

@[simp] theorem run_nil (s : σ) : run step s [] = some s := rfl

theorem run_cons (s : σ) (a : α) (w : List α) :
    run step s (a :: w) = (step s a).bind fun t => run step t w := rfl

/-- Split a run after its first actions. -/
theorem run_append (s : σ) (u v : List α) :
    run step s (u ++ v) = (run step s u).bind fun t => run step t v := by
  induction u generalizing s with
  | nil => rfl
  | cons a u ih =>
    rw [List.cons_append, run_cons, run_cons]
    cases hstep : step s a with
    | none => rfl
    | some t => exact ih t

/-- A nonempty run takes its first action and continues from there. -/
theorem run_cons_eq_some {s t : σ} {a : α} {w : List α} :
    run step s (a :: w) = some t ↔ ∃ u, step s a = some u ∧ run step u w = some t := by
  rw [run_cons, Option.bind_eq_some_iff]

/-- The states some run from an initial state ends in. -/
def Reachable (step : σ → α → Option σ) (init : σ → Prop) (s : σ) : Prop :=
  ∃ s₀ w, init s₀ ∧ run step s₀ w = some s

theorem Reachable.of_init {init : σ → Prop} {s : σ} (h : init s) : Reachable step init s :=
  ⟨s, [], h, rfl⟩

/-- What holds initially and is preserved by every step along a run holds at its end. -/
theorem run_invariant {I : σ → Prop} (hstep : ∀ s a t, I s → step s a = some t → I t)
    {s t : σ} {w : List α} (hs : I s) (hrun : run step s w = some t) : I t := by
  induction w generalizing s with
  | nil => exact Option.some.inj hrun ▸ hs
  | cons a w ih =>
    obtain ⟨u, hu, hrest⟩ := run_cons_eq_some.mp hrun
    exact ih (hstep s a u hs hu) hrest

/-- What is preserved by every step, given the actions that led to it, holds at the end of a
run. -/
theorem run_history {I : List α → σ → Prop}
    (hstep : ∀ u s a t, I u s → step s a = some t → I (u ++ [a]) t) {u w : List α} {s t : σ}
    (hs : I u s) (hrun : run step s w = some t) : I (u ++ w) t := by
  induction w generalizing u s with
  | nil =>
    obtain rfl := Option.some.inj hrun
    rwa [List.append_nil]
  | cons a w ih =>
    obtain ⟨v, hv, hrest⟩ := run_cons_eq_some.mp hrun
    rw [List.append_cons]
    exact ih (hstep u s a v hs hv) hrest

theorem Reachable.trans_run {init : σ → Prop} {s t : σ} (hs : Reachable step init s) {w : List α}
    (hrun : Semantics.run step s w = some t) : Reachable step init t := by
  obtain ⟨s₀, v, h0, hv⟩ := hs
  exact ⟨s₀, v ++ w, h0, by rw [run_append, hv]; exact hrun⟩

theorem Reachable.next {init : σ → Prop} {s t : σ} {a : α} (hs : Reachable step init s)
    (h : step s a = some t) : Reachable step init t :=
  hs.trans_run (show Semantics.run step s [a] = some t by rw [run_cons, h]; rfl)

/-- The induction rule for reachable states. -/
theorem Reachable.invariant {init I : σ → Prop} (hinit : ∀ s, init s → I s)
    (hstep : ∀ s a t, I s → step s a = some t → I t) {s : σ} (hs : Reachable step init s) :
    I s := by
  obtain ⟨s₀, w, h0, hrun⟩ := hs
  exact run_invariant hstep (hinit s₀ h0) hrun

/-- `P` holds in every state the run of `w` from `s` goes through. -/
def AllStates (step : σ → α → Option σ) (P : σ → Prop) : σ → List α → Prop
  | s, [] => P s
  | s, a :: w => P s ∧ ∀ t, step s a = some t → AllStates step P t w

/-- Every step the run of `w` from `s` takes meets `guard` in the state it is taken from. -/
def AllSteps (step : σ → α → Option σ) (guard : σ → α → Prop) : σ → List α → Prop
  | _, [] => True
  | s, a :: w => ∀ t, step s a = some t → guard s a ∧ AllSteps step guard t w

theorem AllStates.head {P : σ → Prop} {s : σ} {w : List α} (h : AllStates step P s w) : P s := by
  cases w with
  | nil => exact h
  | cons a w => exact h.1

/-- A property of all states of a run holds at the end of the run. -/
theorem AllStates.last {P : σ → Prop} {s t : σ} {w : List α} (h : AllStates step P s w)
    (hrun : Semantics.run step s w = some t) : P t := by
  induction w generalizing s with
  | nil => exact Option.some.inj hrun ▸ h
  | cons a w ih =>
    obtain ⟨u, hu, hrest⟩ := run_cons_eq_some.mp hrun
    exact ih (h.2 u hu) hrest

/-- A property of all states of a run holds in between. -/
theorem AllStates.of_append {P : σ → Prop} {s t : σ} {u v : List α}
    (h : AllStates step P s (u ++ v)) (hrun : Semantics.run step s u = some t) : P t := by
  induction u generalizing s with
  | nil => exact Option.some.inj hrun ▸ h.head
  | cons a u ih =>
    obtain ⟨s', hs', hrest⟩ := run_cons_eq_some.mp hrun
    exact ih (h.2 s' hs') hrest

/-- The run of `w` from `s₀` takes this step. -/
def Takes (step : σ → α → Option σ) (s₀ : σ) (w : List α) (s : σ) (a : α) (t : σ) : Prop :=
  ∃ u v, w = u ++ a :: v ∧ run step s₀ u = some s ∧ step s a = some t

/-- A condition on all steps holds of each step that is taken. -/
theorem AllSteps.iff_takes {guard : σ → α → Prop} {s₀ : σ} {w : List α} :
    AllSteps step guard s₀ w ↔ ∀ s a t, Takes step s₀ w s a t → guard s a := by
  induction w generalizing s₀ with
  | nil =>
    refine ⟨fun _ s a t h => ?_, fun _ => trivial⟩
    obtain ⟨u, v, huv, -⟩ := h
    simp at huv
  | cons b w ih =>
    constructor
    · rintro h s a t ⟨u, v, huv, hu, ha⟩
      cases u with
      | nil =>
        obtain ⟨rfl, rfl⟩ := List.cons.inj huv
        obtain rfl := Option.some.inj hu
        exact (h t ha).1
      | cons c u =>
        obtain ⟨rfl, rfl⟩ := List.cons.inj huv
        obtain ⟨s₁, hs₁, hu⟩ := run_cons_eq_some.mp hu
        exact ih.mp (h s₁ hs₁).2 s a t ⟨u, v, rfl, hu, ha⟩
    · intro h s₁ hs₁
      refine ⟨h s₀ b s₁ ⟨[], w, rfl, rfl, hs₁⟩, ih.mpr ?_⟩
      rintro s a t ⟨u, v, rfl, hu, ha⟩
      exact h s a t ⟨b :: u, v, rfl, run_cons_eq_some.mpr ⟨s₁, hs₁, hu⟩, ha⟩

/-- The steps of the first part of a run are steps of the run. -/
theorem Takes.append {s₀ s t : σ} {a : α} {w : List α} (h : Takes step s₀ w s a t)
    (x : List α) : Takes step s₀ (w ++ x) s a t := by
  obtain ⟨u, v, rfl, hu, ha⟩ := h
  exact ⟨u, v ++ x, by rw [List.append_assoc, List.cons_append], hu, ha⟩

section GuardedRuns

variable {P I : σ → Prop} {guard : σ → α → Prop}

/-- A condition on all steps, split in two. -/
theorem AllSteps.and {guard' : σ → α → Prop} {s : σ} {w : List α} :
    AllSteps step (fun s a => guard s a ∧ guard' s a) s w ↔
      AllSteps step guard s w ∧ AllSteps step guard' s w := by
  induction w generalizing s with
  | nil => exact ⟨fun _ => ⟨trivial, trivial⟩, fun _ => trivial⟩
  | cons a w ih =>
    constructor
    · intro h
      exact ⟨fun t ht => ⟨(h t ht).1.1, (ih.mp (h t ht).2).1⟩,
        fun t ht => ⟨(h t ht).1.2, (ih.mp (h t ht).2).2⟩⟩
    · rintro ⟨h, h'⟩ t ht
      exact ⟨⟨(h t ht).1, (h' t ht).1⟩, ih.mpr ⟨(h t ht).2, (h' t ht).2⟩⟩

theorem AllSteps.cons {s t : σ} {a : α} {w : List α} (hguard : guard s a) (hstep : step s a = some t)
    (hrest : AllSteps step guard t w) : AllSteps step guard s (a :: w) := by
  intro u hu
  obtain rfl := Option.some.inj (hstep.symm.trans hu)
  exact ⟨hguard, hrest⟩

instance AllSteps.decidable [∀ s a, Decidable (guard s a)] :
    ∀ (s : σ) (w : List α), Decidable (AllSteps step guard s w)
  | _, [] => .isTrue trivial
  | s, a :: w =>
    match h : step s a with
    | none => .isTrue fun _ ht => nomatch h.symm.trans ht
    | some t =>
      have : Decidable (AllSteps step guard t w) := AllSteps.decidable t w
      decidable_of_iff (guard s a ∧ AllSteps step guard t w)
        ⟨fun ⟨hguard, hrest⟩ => .cons hguard h hrest, fun hall => hall t h⟩

theorem AllSteps.of_forall (h : ∀ s a, guard s a) (s : σ) (w : List α) :
    AllSteps step guard s w := by
  induction w generalizing s with
  | nil => trivial
  | cons a w ih => exact fun t _ => ⟨h s a, ih t⟩

/-- An invariant of the guarded steps that implies `P` gives `P` in every state of a run
whose steps all meet the guard. -/
theorem AllSteps.allStates (hP : ∀ s, I s → P s)
    (hstep : ∀ s a t, I s → guard s a → step s a = some t → I t)
    {s : σ} {w : List α} (hs : I s) (h : AllSteps step guard s w) : AllStates step P s w := by
  induction w generalizing s with
  | nil => exact hP s hs
  | cons a w ih =>
    refine ⟨hP s hs, fun t ht => ?_⟩
    obtain ⟨hguard, hrest⟩ := h t ht
    exact ih (hstep s a t hs hguard ht) hrest

/-- In a run whose steps all meet `env`, the guard is exact when every step that misses it
breaks `P`. -/
theorem AllSteps.allStates_iff {env : σ → α → Prop} (hP : ∀ s, I s → P s)
    (hstep : ∀ s a t, I s → env s a → guard s a → step s a = some t → I t)
    (hbreak : ∀ s a t, I s → env s a → ¬ guard s a → step s a = some t → ¬ P t)
    {s : σ} {w : List α} (hs : I s) (henv : AllSteps step env s w) :
    AllStates step P s w ↔ AllSteps step guard s w := by
  refine ⟨fun h => ?_, fun h => (AllSteps.and.mpr ⟨henv, h⟩).allStates hP
    (fun s a t hs hguard => hstep s a t hs hguard.1 hguard.2) hs⟩
  induction w generalizing s with
  | nil => trivial
  | cons a w ih =>
    intro t ht
    have hrest := h.2 t ht
    obtain ⟨hea, hew⟩ := henv t ht
    -- a step that misses the guard would break `P` in the state it leads to
    have hguard : guard s a := by
      by_contra hmiss
      exact hbreak s a t hs hea hmiss ht hrest.head
    exact ⟨hguard, ih (hstep s a t hs hea hguard ht) hew hrest⟩

/-- The guard is exact when every step that misses it breaks `P`: then a run keeps `P`
in all its states if and only if all its steps meet the guard. -/
theorem allStates_iff_allSteps (hP : ∀ s, I s → P s)
    (hstep : ∀ s a t, I s → guard s a → step s a = some t → I t)
    (hbreak : ∀ s a t, I s → ¬ guard s a → step s a = some t → ¬ P t)
    {s : σ} (hs : I s) (w : List α) : AllStates step P s w ↔ AllSteps step guard s w :=
  AllSteps.allStates_iff hP (fun s a t hs _ => hstep s a t hs) (fun s a t hs _ => hbreak s a t hs) hs
    (AllSteps.of_forall (fun _ _ => trivial) s w : AllSteps step (fun _ _ => True) s w)

end GuardedRuns

section Progress

variable {acts : α → Prop}

/-- None of the actions a system takes by itself is possible. -/
def Quiet (step : σ → α → Option σ) (acts : α → Prop) (s : σ) : Prop :=
  ∀ a, acts a → step s a = none

/-- When a measure goes down with these actions, a run of them is no longer than the measure
says. -/
theorem length_le_of_run {measure : σ → Nat}
    (hdown : ∀ s a t, acts a → step s a = some t → measure t < measure s) {s t : σ} {w : List α}
    (hw : ∀ a ∈ w, acts a) (hrun : run step s w = some t) : w.length ≤ measure s := by
  induction w generalizing s with
  | nil => exact Nat.zero_le _
  | cons a w ih =>
    obtain ⟨u, hu, hrest⟩ := run_cons_eq_some.mp hrun
    have hlt := hdown s a u (hw a List.mem_cons_self) hu
    have hle := ih (fun b hb => hw b (List.mem_cons_of_mem a hb)) hrest
    rw [List.length_cons]
    omega

end Progress

end SteamWire.Semantics
