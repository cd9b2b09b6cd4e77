import SteamWire.Semantics.Run

/-!
# Actions kept apart

Between any two actions of one kind there is one of another kind, as when requests are
kept apart by pauses. A run keeps such actions apart when the first kind is only taken
in states that are ready for it, leaves them unready, and only the second kind makes
them ready again.
-/

namespace SteamWire.Semantics

variable {σ α : Type*} {step : σ → α → Option σ} {p q ok : α → Prop} {ready : σ → Prop}
  {s t : σ} {w : List α}

/-- Between any two actions that meet `p` there is one that meets `q`. -/
def Separated (p q : α → Prop) (w : List α) : Prop :=
  ∀ u a v b x, w = u ++ a :: v ++ b :: x → p a → p b → ∃ c ∈ v, q c

section Run

variable {inv : σ → Prop} (hinv : ∀ s a t, inv s → step s a = some t → inv t)
  (hkeep : ∀ s a t, inv s → ok a → ¬ q a → ¬ ready s → step s a = some t → ¬ ready t)

include hinv hkeep

/-- What is not ready stays so, as long as nothing meets `q`. -/
theorem not_ready_of_run (hok : ∀ a ∈ w, ok a) (hw : ∀ a ∈ w, ¬ q a) (hs : inv s)
    (hs' : ¬ ready s) (hrun : run step s w = some t) : ¬ ready t := by
  induction w generalizing s with
  | nil => exact Option.some.inj hrun ▸ hs'
  | cons a w ih =>
    obtain ⟨u, hu, hrest⟩ := run_cons_eq_some.mp hrun
    have hu' := hkeep s a u hs (hok a List.mem_cons_self) (hw a List.mem_cons_self) hs' hu
    exact ih (fun b hb => hok b (List.mem_cons_of_mem a hb))
      (fun b hb => hw b (List.mem_cons_of_mem a hb)) (hinv s a u hs hu) hu' hrest

/-- The rule for runs whose actions are all `ok`, under an invariant. -/
theorem separated_of_run (htake : ∀ s a t, p a → step s a = some t → ready s)
    (hspend : ∀ s a t, inv s → ok a → p a → step s a = some t → ¬ ready t)
    (hok : ∀ a ∈ w, ok a) (hs : inv s) (hrun : run step s w = some t) : Separated p q w := by
  rintro u a v b x rfl ha hb
  by_contra hnone
  simp only [not_exists, not_and] at hnone
  rw [List.append_assoc, List.cons_append, run_append, Option.bind_eq_some_iff] at hrun
  obtain ⟨s₁, hs₁, hrun⟩ := hrun
  obtain ⟨s₂, hs₂, hrun⟩ := run_cons_eq_some.mp hrun
  rw [run_append, Option.bind_eq_some_iff] at hrun
  obtain ⟨s₃, hs₃, hrun⟩ := hrun
  obtain ⟨s₄, hs₄, -⟩ := run_cons_eq_some.mp hrun
  have hinv₁ := run_invariant hinv hs hs₁
  -- the first action leaves the state unready, and nothing makes it ready for the second
  have hunready := hspend s₁ a s₂ hinv₁ (hok a (by simp)) ha hs₂
  have hunready' := not_ready_of_run hinv hkeep (fun c hc => hok c (by simp [hc])) hnone
    (hinv s₁ a s₂ hinv₁ hs₂) hunready hs₃
  exact hunready' (htake s₃ b s₄ hb hs₄)

end Run

end SteamWire.Semantics
