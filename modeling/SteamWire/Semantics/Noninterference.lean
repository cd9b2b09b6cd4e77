import SteamWire.Semantics.Run

/-!
# What a part of a system sees of a run

A part of a system is given by its view of a state and by the events its steps show; a step
without an event is silent. When a silent step leaves the view alone, and an event changes it
in a way that depends on the view and the event only, the view at the end of a run is a
function of its trace (`view_eq_foldl_trace`). So two runs with one trace look alike to the
part, whatever else happens in them (`view_eq_of_trace_eq`).
-/

namespace SteamWire.Semantics

variable {σ α ε V : Type*} {step : σ → α → Option σ}

/-- The events of a run, in order. -/
def trace (step : σ → α → Option σ) (event : σ → α → Option ε) : σ → List α → List ε
  | _, [] => []
  | s, a :: w => (event s a).toList ++ ((step s a).map fun t => trace step event t w).getD []

theorem trace_cons {event : σ → α → Option ε} {s t : σ} {a : α} {w : List α}
    (h : step s a = some t) :
    trace step event s (a :: w) = (event s a).toList ++ trace step event t w := by
  rw [trace, h, Option.map_some, Option.getD_some]

variable {I : σ → Prop} {guard : σ → α → Prop}

/-- The steps of a system, as far as they meet a condition, change the view by their events
only. -/
structure Unwinds (step : σ → α → Option σ) (I : σ → Prop) (guard : σ → α → Prop)
    (event : σ → α → Option ε) (view : σ → V) (observe : V → ε → V) : Prop where
  keeps : ∀ s a t, I s → guard s a → step s a = some t → I t
  silent : ∀ s a t, I s → guard s a → step s a = some t → event s a = none → view t = view s
  shows : ∀ s a t e, I s → guard s a → step s a = some t → event s a = some e →
    view t = observe (view s) e

namespace Unwinds

variable {event : σ → α → Option ε} {view : σ → V} {observe : V → ε → V}

/-- One step. -/
theorem view_eq_foldl (h : Unwinds step I guard event view observe) {s t : σ} {a : α} (hs : I s)
    (hguard : guard s a) (hstep : step s a = some t) :
    view t = (event s a).toList.foldl observe (view s) := by
  cases he : event s a with
  | none => exact h.silent s a t hs hguard hstep he
  | some e => exact h.shows s a t e hs hguard hstep he

/-- The view at the end of a run is what its trace makes of the view at the start. -/
theorem view_eq_foldl_trace (h : Unwinds step I guard event view observe) {s t : σ} {w : List α}
    (hs : I s) (hsteps : AllSteps step guard s w) (hrun : run step s w = some t) :
    view t = (trace step event s w).foldl observe (view s) := by
  induction w generalizing s with
  | nil =>
    obtain rfl := Option.some.inj hrun
    rfl
  | cons a w ih =>
    obtain ⟨u, hu, hrest⟩ := run_cons_eq_some.mp hrun
    obtain ⟨hguard, hw⟩ := hsteps u hu
    rw [trace_cons hu, List.foldl_append, ← h.view_eq_foldl hs hguard hu]
    exact ih (h.keeps s a u hs hguard hu) hw hrest

end Unwinds

/-- Two parts that see the same of two runs, from views that look alike, end in views that look
alike. -/
theorem view_eq_of_trace_eq {τ β : Type*} {step' : τ → β → Option τ} {I' : τ → Prop}
    {guard' : τ → β → Prop} {event : σ → α → Option ε} {event' : τ → β → Option ε} {view : σ → V}
    {view' : τ → V} {observe : V → ε → V} (h : Unwinds step I guard event view observe)
    (h' : Unwinds step' I' guard' event' view' observe) {s t : σ} {s' t' : τ} {w : List α}
    {w' : List β} (hs : I s) (hs' : I' s') (hsteps : AllSteps step guard s w)
    (hsteps' : AllSteps step' guard' s' w') (hrun : run step s w = some t)
    (hrun' : run step' s' w' = some t') (hview : view' s' = view s)
    (htrace : trace step' event' s' w' = trace step event s w) : view' t' = view t := by
  rw [h.view_eq_foldl_trace hs hsteps hrun, h'.view_eq_foldl_trace hs' hsteps' hrun', htrace, hview]

end SteamWire.Semantics
