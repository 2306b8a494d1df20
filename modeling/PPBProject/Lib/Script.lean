import Mathlib.Data.List.Basic

/- Programs that act on the world only by calling functions and looking at their answers.

   What a program has done is the list of its calls with their answers. `Leads` says what a program
   has become when it has got these answers; `Ensures` says what holds after every call, and when
   the program ends, whatever the answers. There is one rule for each construct (`pure`, `>>=`,
   `if`, a loop over a list that may be left early), and the judgement is sound for every moment of
   a run (`Ensures.always`, `Ensures.result`). -/
namespace Script

universe u v w

/-- A program has ended, or calls a function and goes on with the answer. -/
inductive Program (κ : Type u) (ρ : κ → Type v) (α : Type w) where
  | done (a : α)
  | call (c : κ) (next : ρ c → Program κ ρ α)

/-- A call with its answer. -/
abbrev Answered {κ : Type u} (ρ : κ → Type v) := (c : κ) × ρ c

namespace Program

section
variable {κ : Type u} {ρ : κ → Type v} {α β γ : Type w}

protected def bind (p : Program κ ρ α) (f : α → Program κ ρ β) : Program κ ρ β :=
  match p with
  | done a => f a
  | call c next => call c fun answer => (next answer).bind f

instance : Monad (Program κ ρ) where
  pure := done
  bind := Program.bind

/-- From `p`, the answers lead to what is left of it. -/
inductive Leads (p : Program κ ρ α) : List (Answered ρ) → Program κ ρ α → Prop where
  | refl : Leads p [] p
  | answer {calls : List (Answered ρ)} {c : κ} {next : ρ c → Program κ ρ α}
    (h : Leads p calls (call c next)) (a : ρ c) : Leads p (calls ++ [⟨c, a⟩]) (next a)

/-- After `calls`, the program keeps `I` at every call, and ends with a value and calls that meet
`Q`. -/
def Ensures (I : List (Answered ρ) → Prop) (Q : α → List (Answered ρ) → Prop) :
    Program κ ρ α → List (Answered ρ) → Prop
  | done a, calls => Q a calls
  | call c next, calls => ∀ a, I (calls ++ [⟨c, a⟩]) ∧ (next a).Ensures I Q (calls ++ [⟨c, a⟩])

end

namespace Ensures

section
variable {κ : Type u} {ρ : κ → Type v} {α β γ δ : Type w} {I : List (Answered ρ) → Prop}
  {Q R : α → List (Answered ρ) → Prop} {p q : Program κ ρ α} {calls : List (Answered ρ)}

/-! The rules. -/

theorem pure' {a : α} (h : Q a calls) : (pure a : Program κ ρ α).Ensures I Q calls := h

theorem mono (h : p.Ensures I Q calls) (himp : ∀ a calls, Q a calls → R a calls) :
    p.Ensures I R calls := by
  induction p generalizing calls with
  | done a => exact himp a calls h
  | call c next ih => exact fun a => ⟨(h a).1, ih a (h a).2⟩

theorem bind' {f : α → Program κ ρ β} {Q : β → List (Answered ρ) → Prop}
    (h : p.Ensures I (fun a calls => (f a).Ensures I Q calls) calls) :
    (p >>= f).Ensures I Q calls := by
  induction p generalizing calls with
  | done a => exact h
  | call c next ih => exact fun a => ⟨(h a).1, ih a (h a).2⟩

theorem ite' {b : Prop} [Decidable b] (hp : b → p.Ensures I Q calls)
    (hq : ¬b → q.Ensures I Q calls) : (if b then p else q).Ensures I Q calls := by
  by_cases h : b
  · rw [if_pos h]
    exact hp h
  · rw [if_neg h]
    exact hq h

/-- The loop rule. `inv` speaks of the items that are done with; a loop that is left early owes what
is wanted of the whole loop. -/
theorem forIn' {l : List δ} {init : γ} {body : δ → γ → Program κ ρ (ForInStep γ)}
    {Q : γ → List (Answered ρ) → Prop} (inv : List δ → γ → List (Answered ρ) → Prop)
    (hbody : ∀ past x rest, l = past ++ x :: rest → ∀ c calls, inv past c calls →
      (body x c).Ensures I (fun step calls =>
        match step with
        | .yield c => inv (past ++ [x]) c calls
        | .done c => Q c calls) calls)
    (hend : ∀ c calls, inv l c calls → Q c calls) (h : inv [] init calls) :
    (forIn l init body).Ensures I Q calls := by
  have hrest (past rest : List δ) (hl : l = past ++ rest) (c : γ) (calls : List (Answered ρ))
      (hinv : inv past c calls) : (forIn rest c body).Ensures I Q calls := by
    induction rest generalizing past c calls with
    | nil =>
      rw [List.append_nil] at hl
      exact hend c calls (hl ▸ hinv)
    | cons x rest ih =>
      rw [List.forIn_cons]
      apply bind'
      apply (hbody past x rest hl c calls hinv).mono
      intro step calls hstep
      cases step with
      | yield c =>
        apply ih (past ++ [x]) _ c calls hstep
        rw [hl, List.append_assoc, List.singleton_append]
      | done c => exact hstep
  exact hrest [] l rfl init calls h

/-! Soundness. -/

theorem leads {new : List (Answered ρ)} (h : p.Ensures I Q calls) (hleads : p.Leads new q) :
    (new ≠ [] → I (calls ++ new)) ∧ q.Ensures I Q (calls ++ new) := by
  induction hleads with
  | refl =>
    rw [List.append_nil]
    exact ⟨fun hne => absurd rfl hne, h⟩
  | answer _ a ih =>
    rw [← List.append_assoc]
    exact ⟨fun _ => (ih.2 a).1, (ih.2 a).2⟩

/-- At every moment of a run. -/
theorem always (h : p.Ensures I Q []) (hstart : I []) (hleads : p.Leads calls q) : I calls := by
  by_cases hnil : calls = []
  · rw [hnil]
    exact hstart
  · exact (h.leads hleads).1 hnil

/-- At its end. -/
theorem result {a : α} (h : p.Ensures I Q []) (hleads : p.Leads calls (done a)) : Q a calls :=
  (h.leads hleads).2

end

end Ensures

section
variable {κ : Type u} {ρ : κ → Type w} {α : Type w} {c : κ} {I : List (Answered ρ) → Prop}
  {Q : ρ c → List (Answered ρ) → Prop} {calls : List (Answered ρ)}

/-- The program that is one call. -/
def perform (c : κ) : Program κ ρ (ρ c) := call c done

theorem Ensures.perform' (h : ∀ a, I (calls ++ [⟨c, a⟩]) ∧ Q a (calls ++ [⟨c, a⟩])) :
    (perform c : Program κ ρ (ρ c)).Ensures I Q calls := h

end

end Program

end Script
