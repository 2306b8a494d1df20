import PPBProject.Lib.Machine

/- Systems that come to rest when they are left alone. Some events of a system are its
   own: it takes them without being asked. `Stirs` is a step by such an event that
   changes the state, and a state without one is `Still`.

   A rank that every such step lowers rules out endless runs of them (`Settles`), and so
   some run ends in a still state. -/
namespace Machine

universe u v w

section
variable {σ : Type u} {ε : Type v} {M : System σ ε} {own : ε → Prop}

/-- A step of the system's own that changes the state. -/
def Stirs (M : System σ ε) (own : ε → Prop) (s s' : σ) : Prop :=
  s' ≠ s ∧ ∃ e, own e ∧ M.step s e s'

def Still (M : System σ ε) (own : ε → Prop) (s : σ) : Prop := ∀ s', ¬ Stirs M own s s'

/-- Every run from `s` by steps of the system's own comes to an end. -/
def Settles (M : System σ ε) (own : ε → Prop) (s : σ) : Prop :=
  Acc (fun s' s => Stirs M own s s') s

/-- The ranking rule. -/
theorem settles_of_rank {α : Type w} {lt : α → α → Prop} (hwf : WellFounded lt) (rank : σ → α)
    {P : σ → Prop} (hstep : ∀ s s', P s → Stirs M own s s' → P s' ∧ lt (rank s') (rank s)) {s : σ}
    (hs : P s) : Settles M own s := by
  generalize hr : rank s = r
  induction r using hwf.induction generalizing s with
  | _ r ih =>
    refine .intro s fun s' hstirs => ?_
    obtain ⟨hnext, hlt⟩ := hstep s s' hs hstirs
    exact ih (rank s') (hr ▸ hlt) hnext rfl

theorem Settles.not_endless {s : σ} (h : Settles M own s) (f : Nat → σ) (hf : f 0 = s) :
    ¬ ∀ n, Stirs M own (f n) (f (n + 1)) := by
  induction h generalizing f with
  | intro s _ ih =>
    subst hf
    intro hstirs
    exact ih (f 1) (hstirs 0) (fun n => f (n + 1)) rfl fun n => hstirs (n + 1)

theorem Settles.exists_still {s : σ} (h : Settles M own s) :
    ∃ s', Relation.ReflTransGen (Stirs M own) s s' ∧ Still M own s' := by
  induction h with
  | intro s _ ih =>
    by_cases hstill : Still M own s
    · exact ⟨s, .refl, hstill⟩
    · simp only [Still, not_forall, not_not] at hstill
      obtain ⟨t, hstirs⟩ := hstill
      obtain ⟨s', hrun, hend⟩ := ih t hstirs
      exact ⟨s', .head hstirs hrun, hend⟩

/-- What the system does by itself is a run of it. -/
theorem Reach.stirs {guard : σ → ε → Prop} (hguard : ∀ s e, own e → guard s e) {s s' : σ}
    (h : Reach M guard s) (hrun : Relation.ReflTransGen (Stirs M own) s s') : Reach M guard s' := by
  refine invariant_of_steps (fun t t' ht hstirs => ?_) h hrun
  obtain ⟨-, e, hown, hstep⟩ := hstirs
  exact .step ht (hguard t e hown) hstep

end

end Machine
