import Mathlib.Data.List.Basic

/- A register that is written by its owner and initialised once by someone else. It is meant
   to hold the last value written, or the initial value if nothing was. An initialisation that
   does not look whether the register has been written is as good exactly where it comes too
   early, too late, or with the value that is there (`Kept`). -/
namespace Register

universe u v

variable {ε : Type u} {β : Type v} (writes inits : ε → Option β)

/-- The last value written. -/
def lastOf (events : List ε) : Option β := (events.filterMap writes).getLast?

/-- What the register should hold after the events. -/
def intended (default : β) (events : List ε) : β :=
  ((lastOf writes events).or (events.findSome? inits)).getD default

/-- The register, and whether it has been initialised: the first initial value is stored,
whatever is there. -/
def step (r : Bool × β) (e : ε) : Bool × β :=
  match writes e with
  | some b => (r.1, b)
  | none =>
    match inits e with
    | some b => if r.1 then r else (true, b)
    | none => r

/-- The initialisation loses no written value: another one is written later, or it is the same. -/
def Kept (events : List ε) : Prop :=
  ∀ before e after value, events = before ++ e :: after → (∀ x ∈ before, inits x = none) →
    inits e = some value → lastOf writes after = none →
    ∀ b, lastOf writes before = some b → b = value

variable {writes inits}

theorem lastOf_append (before after : List ε) :
    lastOf writes (before ++ after) = (lastOf writes after).or (lastOf writes before) := by
  rw [lastOf, List.filterMap_append, List.getLast?_append]
  rfl

theorem lastOf_snoc (before : List ε) (e : ε) :
    lastOf writes (before ++ [e]) = (writes e).or (lastOf writes before) := by
  rw [lastOf_append]
  cases h : writes e <;> simp [lastOf, h]

theorem lastOf_append_of_none {before after : List ε} (h : ∀ e ∈ after, writes e = none) :
    lastOf writes (before ++ after) = lastOf writes before := by
  have hnone : lastOf writes after = none := by
    simp [lastOf, List.filterMap_eq_nil_iff.mpr h]
  rw [lastOf_append, hnone, Option.none_or]

theorem lastOf_cons_of_none {e : ε} (h : writes e = none) (events : List ε) :
    lastOf writes (e :: events) = lastOf writes events := by
  rw [lastOf, List.filterMap_cons_none h]
  rfl

theorem lastOf_cons_of_some {e : ε} {b : β} (h : writes e = some b) (events : List ε) :
    lastOf writes (e :: events) = (lastOf writes events).or (some b) := by
  rw [← List.singleton_append, lastOf_append]
  simp [lastOf, h]

/-- Where nothing initialises, or no longer, only the writes count. -/
theorem foldl_step (events : List ε) (started : Bool) (b : β)
    (h : started = true ∨ ∀ e ∈ events, inits e = none) :
    events.foldl (step writes inits) (started, b) = (started, (lastOf writes events).getD b) := by
  induction events generalizing b with
  | nil => rfl
  | cons e events ih =>
    have hrest : started = true ∨ ∀ e ∈ events, inits e = none :=
      h.imp_right fun hnone x hx => hnone x (List.mem_cons_of_mem e hx)
    rw [List.foldl_cons]
    cases hwrite : writes e with
    | some value =>
      have hstep : step writes inits (started, b) e = (started, value) := by simp [step, hwrite]
      rw [hstep, ih value hrest, lastOf_cons_of_some hwrite]
      cases lastOf writes events <;> rfl
    | none =>
      have hstep : step writes inits (started, b) e = (started, b) := by
        cases hinit : inits e with
        | none => simp [step, hwrite, hinit]
        | some value =>
          rcases h with hstarted | hnone
          · simp [step, hwrite, hinit, hstarted]
          · rw [hnone e (by simp)] at hinit
            cases hinit
      rw [hstep, ih b hrest, lastOf_cons_of_none hwrite]

/-- The events up to the first that initialises, that one, and the rest. -/
theorem exists_first {events : List ε} (h : ¬ ∀ e ∈ events, inits e = none) :
    ∃ before e after value, events = before ++ e :: after ∧ (∀ x ∈ before, inits x = none) ∧
      inits e = some value := by
  induction events with
  | nil => simp at h
  | cons e events ih =>
    cases hinit : inits e with
    | some value => exact ⟨[], e, events, value, rfl, by simp, hinit⟩
    | none =>
      have hrest : ¬ ∀ e ∈ events, inits e = none := by
        intro hnone
        apply h
        intro x hx
        rcases List.mem_cons.mp hx with rfl | hx
        · exact hinit
        · exact hnone x hx
      obtain ⟨before, x, after, value, rfl, hbefore, hx⟩ := ih hrest
      refine ⟨e :: before, x, after, value, rfl, ?_, hx⟩
      intro y hy
      rcases List.mem_cons.mp hy with rfl | hy
      · exact hinit
      · exact hbefore y hy

/-- There is only one such place. -/
theorem first_unique {before before' after after' : List ε} {e e' : ε} {value value' : β}
    (h : before ++ e :: after = before' ++ e' :: after') (hbefore : ∀ x ∈ before, inits x = none)
    (hbefore' : ∀ x ∈ before', inits x = none) (hinit : inits e = some value)
    (hinit' : inits e' = some value') : before = before' ∧ e = e' ∧ after = after' := by
  induction before generalizing before' with
  | nil =>
    cases before' with
    | nil => simpa using h
    | cons x before' =>
      obtain ⟨rfl, -⟩ : e = x ∧ _ := by simpa using h
      rw [hbefore' e (by simp)] at hinit
      cases hinit
  | cons x before ih =>
    cases before' with
    | nil =>
      obtain ⟨rfl, -⟩ : x = e' ∧ _ := by simpa using h
      rw [hbefore x (by simp)] at hinit'
      cases hinit'
    | cons y before' =>
      obtain ⟨rfl, hrest⟩ : x = y ∧ _ := by simpa using h
      obtain ⟨hsame, hlast⟩ := ih hrest (fun z hz => hbefore z (List.mem_cons_of_mem x hz))
        (fun z hz => hbefore' z (List.mem_cons_of_mem x hz))
      exact ⟨congrArg (x :: ·) hsame, hlast⟩

/-- The register holds what it should exactly if its initialisation lost nothing. -/
theorem foldl_step_eq_intended_iff (hapart : ∀ e, (writes e).isSome → inits e = none)
    (default : β) (events : List ε) :
    (events.foldl (step writes inits) (false, default)).2 = intended writes inits default events ↔
      Kept writes inits events := by
  by_cases hnone : ∀ e ∈ events, inits e = none
  · have hfind : events.findSome? inits = none := List.findSome?_eq_none_iff.mpr hnone
    rw [foldl_step events false default (Or.inr hnone), intended, hfind, Option.or_none]
    refine iff_of_true rfl ?_
    intro before e after value hevents _ hinit
    rw [hnone e (by simp [hevents])] at hinit
    cases hinit
  · obtain ⟨before, e, after, value, hevents, hbefore, hinit⟩ := exists_first hnone
    have hwrite : writes e = none := by
      cases hwrite : writes e with
      | none => rfl
      | some b =>
        rw [hapart e (by simp [hwrite])] at hinit
        cases hinit
    have hfind : events.findSome? inits = some value := by
      rw [hevents, List.findSome?_append, List.findSome?_eq_none_iff.mpr hbefore,
        List.findSome?_cons, hinit]
      rfl
    have hlast : lastOf writes events = (lastOf writes after).or (lastOf writes before) := by
      rw [hevents, lastOf_append, lastOf_cons_of_none hwrite]
    have hheld : (events.foldl (step writes inits) (false, default)).2 =
        (lastOf writes after).getD value := by
      have hstep (b : β) : step writes inits (false, b) e = (true, value) := by
        simp [step, hwrite, hinit]
      rw [hevents, List.foldl_append, List.foldl_cons,
        foldl_step before false default (Or.inr hbefore), hstep,
        foldl_step after true value (Or.inl rfl)]
    -- the first initialisation is the only one that counts
    have hkept : Kept writes inits events ↔
        (lastOf writes after = none → ∀ b, lastOf writes before = some b → b = value) := by
      constructor
      · intro hkept
        exact hkept before e after value hevents hbefore hinit
      · intro hlost before' e' after' value' hevents' hbefore' hinit'
        obtain ⟨rfl, rfl, rfl⟩ :=
          first_unique (hevents.symm.trans hevents') hbefore hbefore' hinit hinit'
        obtain rfl : value = value' := Option.some.inj (hinit.symm.trans hinit')
        exact hlost
    rw [hheld, intended, hlast, hfind, hkept]
    cases lastOf writes after with
    | some b => simp
    | none => cases lastOf writes before <;> simp [eq_comm]

end Register
