import Mathlib.Algebra.CharP.Two
import Mathlib.Algebra.Field.ZMod
import Mathlib.Algebra.Polynomial.Div
import Mathlib.Data.ZMod.Basic

/- Cyclic redundancy checks of any width. A register of `w` bits is a polynomial of degree less
   than `w` over the field of two elements, and a shift multiplies it by `X` modulo the generator
   `X ^ w + poly`. So the register after a message is the remainder of the message, and a message
   that ends with its own remainder leaves none. -/
namespace Crc

open Polynomial

variable {w k : Nat}

/-- One turn: the bit that is shifted out decides whether the generator is subtracted. -/
def shift (poly reg : BitVec w) : BitVec w :=
  if reg.msb then reg <<< 1 ^^^ poly else reg <<< 1

/-- The next `k` bits of the message, most significant bit first. -/
def feed (poly reg : BitVec w) (chunk : BitVec k) : BitVec w :=
  (shift poly)^[k] (reg ^^^ chunk.setWidth w <<< (w - k))

/-- The register after a message. -/
def remainder (poly init : BitVec w) (message : List (BitVec k)) : BitVec w :=
  message.foldl (feed poly) init

/-! Registers as polynomials. -/

noncomputable def toPoly (reg : BitVec w) : (ZMod 2)[X] :=
  ∑ i : Fin w, C (if reg.getLsbD i then 1 else 0) * X ^ (i : ℕ)

noncomputable def generator (poly : BitVec w) : (ZMod 2)[X] := X ^ w + toPoly poly

/-- A message, the first chunk at the highest powers. -/
noncomputable def messagePoly (message : List (BitVec k)) : (ZMod 2)[X] :=
  message.foldl (fun p chunk => X ^ k * p + toPoly chunk) 0

theorem coeff_toPoly (reg : BitVec w) (i : ℕ) :
    (toPoly reg).coeff i = if reg.getLsbD i then 1 else 0 := by
  simp only [toPoly, finsetSum_coeff, coeff_C_mul, coeff_X_pow]
  by_cases hi : i < w
  · rw [Finset.sum_eq_single (⟨i, hi⟩ : Fin w)]
    · simp
    · intro j _ hne
      have hne : i ≠ j := fun heq => hne (Fin.ext heq.symm)
      simp [hne]
    · intro hnot
      exact absurd (Finset.mem_univ _) hnot
  · rw [Finset.sum_eq_zero, BitVec.getLsbD_of_ge reg i (by omega)]
    · rfl
    · intro j _
      have hne : i ≠ j := by omega
      simp [hne]

theorem degree_toPoly_lt (reg : BitVec w) : (toPoly reg).degree < w := degree_sum_fin_lt _

theorem toPoly_injective : Function.Injective (toPoly (w := w)) := by
  intro x y h
  apply BitVec.eq_of_getLsbD_eq
  intro i _
  have hcoeff := congrArg (fun p => p.coeff i) h
  simp only [coeff_toPoly] at hcoeff
  cases hx : x.getLsbD i <;> cases hy : y.getLsbD i <;> simp [hx, hy] at hcoeff ⊢

@[simp] theorem toPoly_zero : toPoly (0 : BitVec w) = 0 := by
  ext i
  rw [coeff_toPoly, coeff_zero]
  simp

theorem toPoly_xor (x y : BitVec w) : toPoly (x ^^^ y) = toPoly x + toPoly y := by
  ext i
  rw [coeff_add, coeff_toPoly, coeff_toPoly, coeff_toPoly, BitVec.getLsbD_xor]
  cases x.getLsbD i <;> cases y.getLsbD i <;> simp [CharTwo.add_self_eq_zero]

theorem coeff_shiftedOut (b : Bool) (i : ℕ) :
    (if b then X ^ w else 0 : (ZMod 2)[X]).coeff i = if b ∧ i = w then 1 else 0 := by
  cases b <;> simp [coeff_X_pow]

/-- Two pieces, the first at the higher powers. -/
theorem toPoly_append (x : BitVec w) (y : BitVec k) :
    toPoly (x ++ y) = X ^ k * toPoly x + toPoly y := by
  ext i
  rw [coeff_add, coeff_X_pow_mul', coeff_toPoly, coeff_toPoly, coeff_toPoly, BitVec.getLsbD_append]
  by_cases hlow : i < k
  · have hnot : ¬ k ≤ i := by omega
    simp only [hlow, hnot, if_true, if_false, zero_add]
  · have hle : k ≤ i := by omega
    rw [BitVec.getLsbD_of_ge y i hle]
    simp only [hlow, hle, if_true, Bool.false_eq_true, if_false, add_zero]

/-- The bit that is shifted out is the coefficient that would not fit. -/
theorem X_mul_toPoly (reg : BitVec w) :
    X * toPoly reg = toPoly (reg <<< 1) + if reg.msb then X ^ w else 0 := by
  ext i
  rw [coeff_add, coeff_toPoly, coeff_shiftedOut, BitVec.getLsbD_shiftLeft,
    BitVec.msb_eq_getLsbD_last]
  cases i with
  | zero =>
    rw [coeff_X_mul_zero]
    cases w with
    | zero => simp
    | succ w => simp
  | succ i =>
    rw [coeff_X_mul, coeff_toPoly, Nat.add_sub_cancel]
    rcases lt_trichotomy (i + 1) w with hlt | heq | hgt
    · have hne : i + 1 ≠ w := by omega
      simp [hlt, hne]
    · subst heq
      simp
    · have hne : i + 1 ≠ w := by omega
      rw [BitVec.getLsbD_of_ge reg i (by omega)]
      simp [hne]

/-! The register after a message. -/

section
variable (poly reg : BitVec w)

theorem monic_generator : (generator poly).Monic := monic_X_pow_add (degree_toPoly_lt poly)

theorem degree_generator : (generator poly).degree = w := by
  rw [generator, degree_add_eq_left_of_degree_lt, degree_X_pow]
  rw [degree_X_pow]
  exact degree_toPoly_lt poly

theorem toPoly_shift : toPoly (shift poly reg) =
    X * toPoly reg + if reg.msb then generator poly else 0 := by
  rw [X_mul_toPoly, shift, generator]
  split
  next =>
    rw [toPoly_xor, add_assoc, ← add_assoc (X ^ w), CharTwo.add_self_eq_zero, zero_add]
  next => rw [add_zero, add_zero]

/-- A register is the remainder of everything it is congruent to. -/
theorem toPoly_eq_modByMonic {p : (ZMod 2)[X]} (h : generator poly ∣ p - toPoly reg) :
    toPoly reg = p %ₘ generator poly := by
  rw [modByMonic_eq_of_dvd_sub (monic_generator poly) h, eq_comm,
    modByMonic_eq_self_iff (monic_generator poly), degree_generator]
  exact degree_toPoly_lt reg

theorem dvd_shift : generator poly ∣ X * toPoly reg - toPoly (shift poly reg) := by
  rw [toPoly_shift, sub_add_cancel_left, dvd_neg]
  split
  next => exact dvd_rfl
  next => exact dvd_zero _

theorem dvd_shifts (n : ℕ) :
    generator poly ∣ X ^ n * toPoly reg - toPoly ((shift poly)^[n] reg) := by
  induction n with
  | zero => simp
  | succ n ih =>
    rw [Function.iterate_succ_apply']
    have hsplit : X ^ (n + 1) * toPoly reg - toPoly (shift poly ((shift poly)^[n] reg)) =
        X * (X ^ n * toPoly reg - toPoly ((shift poly)^[n] reg)) +
          (X * toPoly ((shift poly)^[n] reg) - toPoly (shift poly ((shift poly)^[n] reg))) := by
      ring
    rw [hsplit]
    exact dvd_add (ih.mul_left X) (dvd_shift poly _)

theorem toPoly_chunk (hk : k ≤ w) (chunk : BitVec k) :
    toPoly (chunk.setWidth w <<< (w - k)) = X ^ (w - k) * toPoly chunk := by
  ext i
  rw [coeff_toPoly, coeff_X_pow_mul', coeff_toPoly, BitVec.getLsbD_shiftLeft,
    BitVec.getLsbD_setWidth]
  by_cases hlow : i < w - k
  · have hnot : ¬ w - k ≤ i := by omega
    simp only [hlow, hnot, decide_true, Bool.not_true, Bool.and_false, Bool.false_and, if_false,
      Bool.false_eq_true]
  · have hle : w - k ≤ i := by omega
    by_cases hhigh : i < w
    · have hin : i - (w - k) < w := by omega
      simp only [hlow, hle, hhigh, hin, decide_true, decide_false, Bool.not_false, Bool.true_and,
        if_true]
    · rw [BitVec.getLsbD_of_ge chunk _ (by omega), Bool.and_false, Bool.and_false]
      simp only [Bool.false_eq_true, if_false, ite_self]

theorem dvd_feed (hk : k ≤ w) (chunk : BitVec k) : generator poly ∣
    (X ^ k * toPoly reg + X ^ w * toPoly chunk) - toPoly (feed poly reg chunk) := by
  have hshifts := dvd_shifts poly (reg ^^^ chunk.setWidth w <<< (w - k)) k
  rw [toPoly_xor, toPoly_chunk hk, mul_add, ← mul_assoc, ← pow_add, Nat.add_sub_cancel' hk]
    at hshifts
  exact hshifts

theorem messagePoly_append_singleton (message : List (BitVec k)) (chunk : BitVec k) :
    messagePoly (message ++ [chunk]) = X ^ k * messagePoly message + toPoly chunk := by
  rw [messagePoly, List.foldl_append]
  rfl

/-- What the register holds is the remainder, that of the initial value included. -/
theorem toPoly_remainder (hk : k ≤ w) (message : List (BitVec k)) :
    toPoly (remainder poly reg message) =
      (X ^ (k * message.length) * toPoly reg + X ^ w * messagePoly message) %ₘ
        generator poly := by
  apply toPoly_eq_modByMonic
  induction message using List.reverseRecOn with
  | nil => simp [remainder, messagePoly]
  | append_singleton message chunk ih =>
    have hlast : remainder poly reg (message ++ [chunk]) =
        feed poly (remainder poly reg message) chunk := by
      rw [remainder, List.foldl_append]
      rfl
    have hsplit : X ^ (k * (message ++ [chunk]).length) * toPoly reg +
          X ^ w * messagePoly (message ++ [chunk]) -
          toPoly (feed poly (remainder poly reg message) chunk) =
        X ^ k * (X ^ (k * message.length) * toPoly reg + X ^ w * messagePoly message -
            toPoly (remainder poly reg message)) +
          ((X ^ k * toPoly (remainder poly reg message) + X ^ w * toPoly chunk) -
            toPoly (feed poly (remainder poly reg message) chunk)) := by
      rw [messagePoly_append_singleton, List.length_append, List.length_singleton, Nat.mul_add,
        Nat.mul_one, pow_add]
      ring
    rw [hlast, hsplit]
    exact dvd_add (ih.mul_left _) (dvd_feed poly _ hk chunk)

/-- A message followed by its own remainder leaves none. -/
theorem remainder_append_self (hk : k ≤ w) {message chunks : List (BitVec k)}
    (hlength : k * chunks.length = w)
    (hself : messagePoly chunks = toPoly (remainder poly reg message)) :
    remainder poly reg (message ++ chunks) = 0 := by
  apply toPoly_injective
  have happend : remainder poly reg (message ++ chunks) =
      remainder poly (remainder poly reg message) chunks := List.foldl_append
  rw [happend, toPoly_remainder poly _ hk, hlength, hself, CharTwo.add_self_eq_zero, zero_modByMonic,
    toPoly_zero]

end

end Crc
