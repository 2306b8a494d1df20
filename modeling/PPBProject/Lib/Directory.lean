import Mathlib.Logic.Function.Basic

/- A directory: files by name, and a rename that fails, changing nothing, where the source is
   missing or the target exists. -/

universe u v

/-- What each file holds, if it exists. -/
abbrev Directory (ν : Type u) (β : Type v) := ν → Option β

namespace Directory

section
variable {ν : Type u} {β : Type v} [DecidableEq ν]

def rename (d : Directory ν β) (old new : ν) : Directory ν β :=
  if (d old).isSome ∧ d new = none then Function.update (Function.update d new (d old)) old none
  else d

variable {d : Directory ν β} {old new : ν}

/-- Where the target does not exist, the source moves there, even if there is none. -/
theorem rename_of_free (h : d new = none) :
    d.rename old new = Function.update (Function.update d new (d old)) old none := by
  unfold rename
  split
  next => rfl
  next hfails =>
    -- the source is missing, so nothing was to be moved
    have hold : d old = none := by
      rw [not_and_or] at hfails
      obtain hfails | hfails := hfails
      · simpa using hfails
      · exact absurd h hfails
    rw [hold, ← h, Function.update_eq_self, h, ← hold, Function.update_eq_self]

theorem rename_of_ne {name : ν} (hold : name ≠ old) (hnew : name ≠ new) :
    d.rename old new name = d name := by
  unfold rename
  split
  · rw [Function.update_of_ne hold, Function.update_of_ne hnew]
  · rfl

/-- Only the source of a rename can go away. -/
theorem isSome_rename {name : ν} (hsome : (d name).isSome) (hold : name ≠ old) :
    (d.rename old new name).isSome := by
  unfold rename
  split
  next hmoves =>
    have hnew : name ≠ new := by
      rintro rfl
      simp [hmoves.2] at hsome
    rw [Function.update_of_ne hold, Function.update_of_ne hnew]
    exact hsome
  next => exact hsome

end

end Directory
