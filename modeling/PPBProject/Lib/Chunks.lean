import Mathlib.Data.List.Basic

/- Cutting a list into consecutive pieces of `n` elements, the last of which may be
   shorter. The pieces put together are the list again (`flatten_chunk`), none is empty,
   and there are as many as the length divided by `n`, rounded up. -/
namespace Chunks

universe u

variable {α : Type u}

/-- The pieces of `xs`, each given by its index. -/
def chunk (n : Nat) (xs : List α) : List (List α) :=
  (List.range ((xs.length + n - 1) / n)).map fun i => (xs.drop (i * n)).take n

/-- As many pieces as full ones fit, and one for what is left. -/
theorem length_chunk (n : Nat) (xs : List α) : (chunk n xs).length = (xs.length + n - 1) / n := by
  simp [chunk]

@[simp] theorem chunk_nil {n : Nat} (hn : 0 < n) : chunk n ([] : List α) = [] := by
  apply List.eq_nil_of_length_eq_zero
  rw [length_chunk, List.length_nil]
  exact Nat.div_eq_of_lt (by omega)

/-- The first piece, and the pieces of the rest. -/
theorem chunk_of_ne_nil {n : Nat} (hn : 0 < n) {xs : List α} (hxs : xs ≠ []) :
    chunk n xs = xs.take n :: chunk n (xs.drop n) := by
  have hlength : 0 < xs.length := List.length_pos_of_ne_nil hxs
  have hcount : (xs.length + n - 1) / n = ((xs.drop n).length + n - 1) / n + 1 := by
    rw [List.length_drop]
    by_cases hshort : xs.length ≤ n
    · have hone : (xs.length + n - 1) / n = 1 := by
        apply Nat.div_eq_of_lt_le
        · omega
        · omega
      have hzero : (xs.length - n + n - 1) / n = 0 := Nat.div_eq_of_lt (by omega)
      omega
    · have hsub : xs.length + n - 1 = (xs.length - n + n - 1) + n := by omega
      rw [hsub, Nat.add_div_right _ hn]
  unfold chunk
  rw [hcount, List.range_succ_eq_map, List.map_cons, List.map_map]
  congr 1
  · simp
  · apply List.map_congr_left
    intro i _
    show (xs.drop ((i + 1) * n)).take n = ((xs.drop n).drop (i * n)).take n
    rw [List.drop_drop]
    congr 2
    rw [Nat.add_mul]
    omega

/-- What holds of nothing, and of a list if it holds of the list without its first piece. -/
theorem induction_drop {n : Nat} (hn : 0 < n) {p : List α → Prop} (hnil : p [])
    (hstep : ∀ xs, xs ≠ [] → p (xs.drop n) → p xs) (xs : List α) : p xs := by
  induction hlength : xs.length using Nat.strongRecOn generalizing xs with
  | _ k ih =>
    by_cases hxs : xs = []
    · rw [hxs]
      exact hnil
    · apply hstep xs hxs
      have hpos : 0 < xs.length := List.length_pos_of_ne_nil hxs
      apply ih (xs.drop n).length
      · rw [List.length_drop]
        omega
      · rfl

/-- The pieces put together. -/
theorem flatten_chunk {n : Nat} (hn : 0 < n) (xs : List α) : (chunk n xs).flatten = xs := by
  induction xs using induction_drop hn with
  | hnil => rw [chunk_nil hn, List.flatten_nil]
  | hstep xs hxs ih => rw [chunk_of_ne_nil hn hxs, List.flatten_cons, ih, List.take_append_drop]

theorem of_mem_chunk {n : Nat} (hn : 0 < n) (xs : List α) :
    ∀ piece ∈ chunk n xs, 0 < piece.length ∧ piece.length ≤ n := by
  induction xs using induction_drop hn with
  | hnil => simp [chunk_nil hn]
  | hstep xs hxs ih =>
    have hpos : 0 < xs.length := List.length_pos_of_ne_nil hxs
    rw [chunk_of_ne_nil hn hxs]
    intro piece hpiece
    rcases List.mem_cons.mp hpiece with rfl | hrest
    · rw [List.length_take]
      omega
    · exact ih piece hrest

/-- Pieces of at most `n` elements have that many together. -/
theorem length_flatten_le {n : Nat} {xss : List (List α)} (h : ∀ xs ∈ xss, xs.length ≤ n) :
    xss.flatten.length ≤ xss.length * n := by
  induction xss with
  | nil => simp
  | cons xs xss ih =>
    have hfirst := h xs List.mem_cons_self
    have hrest := ih fun ys hys => h ys (List.mem_cons_of_mem _ hys)
    rw [List.flatten_cons, List.length_append, List.length_cons, Nat.succ_mul]
    omega

/-- A piece is part of the list. -/
theorem subset_of_mem_chunk {n : Nat} (hn : 0 < n) {xs piece : List α} (h : piece ∈ chunk n xs) :
    ∀ x ∈ piece, x ∈ xs := by
  intro x hx
  rw [← flatten_chunk hn xs]
  exact List.mem_flatten.mpr ⟨piece, h, hx⟩

theorem chunk_eq_nil_iff {n : Nat} (hn : 0 < n) {xs : List α} : chunk n xs = [] ↔ xs = [] := by
  constructor
  · intro hnil
    rw [← flatten_chunk hn xs, hnil, List.flatten_nil]
  · intro hnil
    rw [hnil, chunk_nil hn]

end Chunks
