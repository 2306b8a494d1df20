import Mathlib.Data.List.Basic

/- Non-interference by unwinding. Some of a machine's events are intrusions. If an intrusion
   changes nothing that an observer can see, and what the observer sees after any other event
   depends only on what it saw before, then a run looks to the observer like the run without
   its intrusions. -/
namespace Unwinding

universe u v

variable {σ : Type u} {ε : Type v}

/-- The two unwinding conditions. `Sees s t` says that the observer cannot tell `s` from `t`. -/
structure Secure (step : σ → ε → Option σ) (intrusion : ε → Bool) (Sees : σ → σ → Prop) :
    Prop where
  respects : ∀ s e s' t, intrusion e = true → step s e = some s' → Sees s t → Sees s' t
  consistent : ∀ s e s' t, intrusion e = false → step s e = some s' → Sees s t →
    ∃ t', step t e = some t' ∧ Sees s' t'

variable {step : σ → ε → Option σ} {intrusion : ε → Bool} {Sees : σ → σ → Prop}

/-- **The unwinding theorem.** The intrusions of a run can be left out, and the observer sees
the same. -/
theorem Secure.run_purged (h : Secure step intrusion Sees) {s s' t : σ} {events : List ε}
    (hrun : events.foldlM step s = some s') (hsees : Sees s t) :
    ∃ t', (events.filter (!intrusion ·)).foldlM step t = some t' ∧ Sees s' t' := by
  induction events generalizing s t with
  | nil =>
    cases hrun
    exact ⟨t, rfl, hsees⟩
  | cons e rest ih =>
    rw [List.foldlM_cons] at hrun
    obtain ⟨s₁, hstep, hrest⟩ := Option.bind_eq_some_iff.mp hrun
    cases hintrusion : intrusion e with
    | true =>
      rw [List.filter_cons_of_neg (by simp [hintrusion])]
      exact ih hrest (h.respects _ _ _ _ hintrusion hstep hsees)
    | false =>
      obtain ⟨t₁, hstep', hsees'⟩ := h.consistent _ _ _ _ hintrusion hstep hsees
      obtain ⟨t', hrun', hend⟩ := ih hrest hsees'
      refine ⟨t', ?_, hend⟩
      rw [List.filter_cons_of_pos (by simp [hintrusion]), List.foldlM_cons]
      exact Option.bind_eq_some_iff.mpr ⟨t₁, hstep', hrun'⟩

end Unwinding
