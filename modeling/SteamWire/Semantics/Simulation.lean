import SteamWire.Semantics.Run

/-!
# Simulation up to silent actions

Two systems seen through what their actions show; an action that shows nothing is silent.
A relation is a simulation when every action of the first system is matched by a run of the
second that shows the same. Then so is every run (`Simulates.run`), and what the first
system shows the second can show as well.
-/

namespace SteamWire.Semantics

variable {σ τ α β ω : Type*} {step₁ : σ → α → Option σ} {step₂ : τ → β → Option τ}
  {obs₁ : α → Option ω} {obs₂ : β → Option ω} {R : σ → τ → Prop}

/-- Every action is matched by a run that shows the same and leads to a related state. -/
def Simulates (step₁ : σ → α → Option σ) (step₂ : τ → β → Option τ) (obs₁ : α → Option ω)
    (obs₂ : β → Option ω) (R : σ → τ → Prop) : Prop :=
  ∀ s t a s', R s t → step₁ s a = some s' →
    ∃ v t', run step₂ t v = some t' ∧ v.filterMap obs₂ = [a].filterMap obs₁ ∧ R s' t'

/-- A simulation extends to runs. -/
theorem Simulates.run (hsim : Simulates step₁ step₂ obs₁ obs₂ R) {s s' : σ} {t : τ} {w : List α}
    (h : R s t) (hrun : Semantics.run step₁ s w = some s') :
    ∃ v t', Semantics.run step₂ t v = some t' ∧ v.filterMap obs₂ = w.filterMap obs₁ ∧ R s' t' := by
  induction w generalizing s t with
  | nil =>
    obtain rfl : s = s' := Option.some.inj hrun
    exact ⟨[], t, rfl, rfl, h⟩
  | cons a w ih =>
    obtain ⟨u, hu, hrest⟩ := run_cons_eq_some.mp hrun
    obtain ⟨v₁, t₁, hv₁, hshow₁, hrel⟩ := hsim s t a u h hu
    obtain ⟨v₂, t₂, hv₂, hshow₂, hend⟩ := ih hrel hrest
    refine ⟨v₁ ++ v₂, t₂, ?_, ?_, hend⟩
    · rw [run_append, hv₁]
      exact hv₂
    · rw [List.filterMap_append, hshow₁, hshow₂, ← List.filterMap_append, List.singleton_append]

end SteamWire.Semantics
