import Mathlib.Data.List.Basic
import Mathlib.Logic.Relation

/- Labelled transition systems: runs whose every step meets a guard, the
   invariant rule for them, and the simulation rule that carries a run of one
   system over to another that may take many steps, or none, for each.

   A history grows by entries of some kind (`Extends`). A `Chronicle` is one in which
   every entry is justified by the entries before it. It is how a property of the
   moment an entry was made is stated of the finished history. -/
namespace Machine

universe u v w

/-- A labelled transition system. -/
structure System (σ : Type u) (ε : Type v) where
  start : σ → Prop
  step : σ → ε → σ → Prop

/-- `s` ends a run of `M` whose every step, taken in `s` under the label `e`, meets
`guard s e`. -/
inductive Reach {σ : Type u} {ε : Type v} (M : System σ ε) (guard : σ → ε → Prop) : σ → Prop where
  | start {s : σ} : M.start s → Reach M guard s
  | step {s s' : σ} {e : ε} : Reach M guard s → guard s e → M.step s e s' → Reach M guard s'

section
variable {σ τ : Type u} {ε κ : Type v} {M : System σ ε} {guard : σ → ε → Prop}

/-- A weaker guard allows more runs. -/
theorem Reach.mono {guard' : σ → ε → Prop} (himp : ∀ s e, guard s e → guard' s e) {s : σ}
    (h : Reach M guard s) : Reach M guard' s := by
  induction h with
  | start hs => exact .start hs
  | step _ hg hstep ih => exact .step ih (himp _ _ hg) hstep

/-- The invariant rule. -/
theorem Reach.invariant {P : σ → Prop} (hstart : ∀ s, M.start s → P s)
    (hstep : ∀ s e s', P s → guard s e → M.step s e s' → P s') {s : σ} (h : Reach M guard s) :
    P s := by
  induction h with
  | start hs => exact hstart _ hs
  | step _ hg he ih => exact hstep _ _ _ ih hg he

/-- The invariant rule, where the step may use that its first state is reachable. -/
theorem Reach.invariant' {P : σ → Prop} (hstart : ∀ s, M.start s → P s)
    (hstep : ∀ s e s', Reach M guard s → P s → guard s e → M.step s e s' → P s') {s : σ}
    (h : Reach M guard s) : P s := by
  induction h with
  | start hs => exact hstart _ hs
  | step hr hg he ih => exact hstep _ _ _ hr ih hg he

/-- What one step keeps, any number of steps keeps. -/
theorem invariant_of_steps {R : σ → σ → Prop} {P : σ → Prop} (hstep : ∀ s s', P s → R s s' → P s')
    {s s' : σ} (hp : P s) (h : Relation.ReflTransGen R s s') : P s' := by
  induction h with
  | refl => exact hp
  | tail _ hr ih => exact hstep _ _ ih hr

/-- Many steps under one label, each of which the guard allows. -/
theorem Reach.steps {s s' : σ} {e : ε} (h : Reach M guard s) (hguard : ∀ t, guard t e)
    (hsteps : Relation.ReflTransGen (fun t t' => M.step t e t') s s') : Reach M guard s' :=
  invariant_of_steps (fun t _ ht hr => .step ht (hguard t) hr) h hsteps

/-- **The simulation rule.** If each guarded step of `M` is matched by steps of `N` under one
label that `allowed` admits, every guarded run of `M` maps to a run of `N`. -/
theorem Reach.simulate {N : System τ κ} {allowed : κ → Prop} (view : σ → τ) (label : ε → κ)
    (hstart : ∀ s, M.start s → N.start (view s))
    (hguard : ∀ s e, guard s e → allowed (label e))
    (hstep : ∀ s e s', Reach M guard s → Reach N (fun _ k => allowed k) (view s) → M.step s e s' →
      Relation.ReflTransGen (fun t t' => N.step t (label e) t') (view s) (view s'))
    {s : σ} (h : Reach M guard s) : Reach N (fun _ k => allowed k) (view s) := by
  induction h with
  | start hs => exact .start (hstart _ hs)
  | step hr hg he ih => exact ih.steps (fun _ => hguard _ _ hg) (hstep _ _ _ hr ih he)

end

/-! Runs that are computed. -/

section
variable {σ : Type u} {ε : Type v}

/-- The end of a run from `s`, if every step meets the guard and can be taken. -/
def run (step : σ → ε → Option σ) (guard : σ → ε → Prop) [∀ s e, Decidable (guard s e)] :
    σ → List ε → Option σ
  | s, [] => some s
  | s, e :: es => if guard s e then (step s e).bind fun s' => run step guard s' es else none

theorem Reach.of_run {M : System σ ε} (step : σ → ε → Option σ) {guard : σ → ε → Prop}
    [∀ s e, Decidable (guard s e)] (hM : ∀ s e s', step s e = some s' → M.step s e s')
    {s s' : σ} (h : Reach M guard s) (es : List ε) (hrun : run step guard s es = some s') :
    Reach M guard s' := by
  induction es generalizing s with
  | nil => exact Option.some.inj hrun ▸ h
  | cons e es ih =>
    unfold run at hrun
    split at hrun
    next hguard =>
      obtain ⟨t, hstep, ht⟩ := Option.bind_eq_some_iff.mp hrun
      exact ih (.step h hguard (hM _ _ _ hstep)) ht
    next => cases hrun

section
variable {step : σ → ε → Option σ} {guard : σ → ε → Prop} [∀ s e, Decidable (guard s e)]
  {s s' : σ} {es : List ε}

end

end

/-! Histories. -/

section
variable {α : Type u} {p q : α → Prop}

/-- `h'` is `h` with entries added, all of which meet `p`. -/
def Extends (p : α → Prop) (h h' : List α) : Prop := ∃ new, h' = h ++ new ∧ ∀ x ∈ new, p x

theorem Extends.refl (h : List α) : Extends p h h := ⟨[], (List.append_nil h).symm, by simp⟩

theorem Extends.trans {h h' h'' : List α} (hh : Extends p h h') (hh' : Extends p h' h'') :
    Extends p h h'' := by
  obtain ⟨new, rfl, hnew⟩ := hh
  obtain ⟨new', rfl, hnew'⟩ := hh'
  refine ⟨new ++ new', List.append_assoc .., fun x hx => ?_⟩
  exact (List.mem_append.mp hx).elim (hnew x) (hnew' x)

theorem Extends.mono {h h' : List α} (himp : ∀ x, p x → q x) (hh : Extends p h h') :
    Extends q h h' := by
  obtain ⟨new, heq, hnew⟩ := hh
  exact ⟨new, heq, fun x hx => himp x (hnew x hx)⟩

theorem extends_append_iff {h new : List α} : Extends p h (h ++ new) ↔ ∀ x ∈ new, p x := by
  constructor
  · rintro ⟨new', heq, hnew⟩
    exact List.append_cancel_left heq ▸ hnew
  · exact fun hnew => ⟨new, rfl, hnew⟩

/-- What holds of the old entries and of the new ones holds of all. -/
theorem Extends.forall_mem {h h' : List α} (hh : Extends p h h') (hold : ∀ x ∈ h, p x) :
    ∀ x ∈ h', p x := by
  obtain ⟨new, rfl, hnew⟩ := hh
  exact fun x hx => (List.mem_append.mp hx).elim (hold x) (hnew x)

end

section
variable {α : Type u} {R : List α → α → Prop}

/-- Every entry of `h` is related by `R` to the entries before it. -/
def Chronicle (R : List α → α → Prop) (h : List α) : Prop :=
  ∀ pre x post, h = pre ++ x :: post → R pre x

theorem Chronicle.nil : Chronicle R [] := by
  intro pre x post h
  simp at h

theorem Chronicle.append {h new : List α} (hh : Chronicle R h)
    (hnew : ∀ pre x post, new = pre ++ x :: post → R (h ++ pre) x) : Chronicle R (h ++ new) := by
  intro pre x post heq
  rcases List.append_eq_append_iff.mp heq with ⟨mid, rfl, hmid⟩ | ⟨mid, hleft, hright⟩
  · exact hnew mid x post hmid
  · cases mid with
    | nil =>
      simp only [List.append_nil, List.nil_append] at hleft hright
      subst hleft
      simpa using hnew [] x post hright.symm
    | cons y mid =>
      simp only [List.cons_append, List.cons.injEq] at hright
      obtain ⟨rfl, -⟩ := hright
      exact hh pre x mid hleft

theorem Chronicle.snoc {h : List α} {x : α} (hh : Chronicle R h) (hx : R h x) :
    Chronicle R (h ++ [x]) := by
  refine hh.append fun pre y post heq => ?_
  cases pre with
  | nil =>
    obtain ⟨rfl, -⟩ : x = y ∧ _ := by simpa using heq
    simpa using hx
  | cons z pre => simp at heq

end

end Machine
