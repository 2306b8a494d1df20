import Mathlib.Data.List.TakeWhile
import Mathlib.Data.Rat.Floor
import Mathlib.Tactic.FieldSimp
import Mathlib.Tactic.Linarith

/- Numbers as decimal texts: a number printed with a fixed number of decimals, a text read back,
   and how far apart the two are. Which way a tie is rounded is left open. -/
namespace Decimal

/-- A rounding to the nearest whole number, of what is not negative. -/
structure NearestRounding where
  round : ℚ → ℕ
  nearest : ∀ q, 0 ≤ q → |(round q : ℚ) - q| ≤ 1 / 2

/-- Ties go up. -/
def roundHalfUp : NearestRounding where
  round q := ⌊q + 1 / 2⌋₊
  nearest q hq := by
    have hlow := Nat.floor_le (a := q + 1 / 2) (by linarith)
    have hhigh := Nat.lt_floor_add_one (q + 1 / 2)
    rw [abs_le]
    constructor <;> linarith

/-! Reading. -/

def unsigned? (text : List Char) : Option ℚ :=
  let whole := text.takeWhile Char.isDigit
  if whole = [] then none
  else
    match text.dropWhile Char.isDigit with
    | [] => some (Nat.ofDigitChars 10 whole 0)
    | '.' :: decimals =>
      if decimals ≠ [] ∧ decimals.all Char.isDigit then
        some (Nat.ofDigitChars 10 whole 0 +
          Nat.ofDigitChars 10 decimals 0 / 10 ^ decimals.length)
      else none
    | _ => none

/-- A decimal number: a sign, digits, and perhaps a point and digits. -/
def number? : List Char → Option ℚ
  | '-' :: text => (unsigned? text).map Neg.neg
  | text => unsigned? text

/-- The characters of numbers. -/
def isNumeral (c : Char) : Bool := c.isDigit || c = '-' || c = '.'

/-- The first number in a text. -/
def numberIn (text : String) : Option ℚ :=
  number? ((text.toList.dropWhile fun c => !isNumeral c).takeWhile isNumeral)

/-! Printing. -/

def padded (width n : ℕ) : List Char :=
  List.replicate (width - (Nat.toDigits 10 n).length) '0' ++ Nat.toDigits 10 n

/-- `n` units of the last of `precision` decimals. -/
def fixedDigits (precision n : ℕ) : List Char :=
  Nat.toDigits 10 (n / 10 ^ precision) ++ '.' :: padded precision (n % 10 ^ precision)

/-- A number with `precision` decimals, rounded. -/
def printFixed (rounding : NearestRounding) (precision : ℕ) (q : ℚ) : String :=
  let digits := fixedDigits precision (rounding.round (|q| * 10 ^ precision))
  String.ofList (if q < 0 then '-' :: digits else digits)

/-! Reading what has been printed. -/

theorem isDigit_of_mem_toDigits {c : Char} {n : ℕ} (h : c ∈ Nat.toDigits 10 n) : c.isDigit = true :=
  Nat.isDigit_of_mem_toDigits (by omega) (by omega) h

theorem length_padded {width n : ℕ} (hwidth : 0 < width) (h : n < 10 ^ width) :
    (padded width n).length = width := by
  have hle := (Nat.length_toDigits_le_iff (b := 10) (by omega) hwidth).mpr h
  rw [padded, List.length_append, List.length_replicate]
  omega

theorem ofDigitChars_padded (width n : ℕ) : Nat.ofDigitChars 10 (padded width n) 0 = n := by
  rw [padded, Nat.ofDigitChars_append, Nat.ofDigitChars_replicate_zero, Nat.mul_zero,
    Nat.ofDigitChars_ten_toDigits]

theorem isDigit_of_mem_padded {c : Char} {width n : ℕ} (h : c ∈ padded width n) :
    c.isDigit = true := by
  rcases List.mem_append.mp h with hzero | hdigit
  · rw [List.eq_of_mem_replicate hzero]
    rfl
  · exact isDigit_of_mem_toDigits hdigit

theorem unsigned?_toDigits (n : ℕ) : unsigned? (Nat.toDigits 10 n) = some (n : ℚ) := by
  have hall : ∀ c ∈ Nat.toDigits 10 n, c.isDigit = true := fun c => isDigit_of_mem_toDigits
  simp only [unsigned?, List.takeWhile_eq_self_iff.mpr hall, List.dropWhile_eq_nil_iff.mpr hall,
    Nat.toDigits_ne_nil, if_false, Nat.ofDigitChars_ten_toDigits]

theorem unsigned?_fixedDigits {precision : ℕ} (hprecision : 0 < precision) (n : ℕ) :
    unsigned? (fixedDigits precision n) = some ((n : ℚ) / 10 ^ precision) := by
  have hwhole : ∀ c ∈ Nat.toDigits 10 (n / 10 ^ precision), c.isDigit = true :=
    fun c => isDigit_of_mem_toDigits
  have hlength := length_padded hprecision
    (Nat.mod_lt n (show 0 < 10 ^ precision from Nat.pow_pos (by omega)))
  have hne : padded precision (n % 10 ^ precision) ≠ [] := by
    intro hnil
    rw [hnil] at hlength
    exact absurd hlength hprecision.ne
  have hdigits : (padded precision (n % 10 ^ precision)).all Char.isDigit = true :=
    List.all_eq_true.mpr fun c => isDigit_of_mem_padded
  have htake : (fixedDigits precision n).takeWhile Char.isDigit =
      Nat.toDigits 10 (n / 10 ^ precision) := by
    rw [fixedDigits, List.takeWhile_append_of_pos hwhole, List.takeWhile_cons_of_neg (by decide),
      List.append_nil]
  have hdrop : (fixedDigits precision n).dropWhile Char.isDigit =
      '.' :: padded precision (n % 10 ^ precision) := by
    rw [fixedDigits, List.dropWhile_append_of_pos hwhole, List.dropWhile_cons_of_neg (by decide)]
  have hsplit : (n : ℚ) = 10 ^ precision * (n / 10 ^ precision : ℕ) +
      (n % 10 ^ precision : ℕ) := by
    exact_mod_cast (Nat.div_add_mod n (10 ^ precision)).symm
  simp only [unsigned?, htake, hdrop, Nat.toDigits_ne_nil, if_false, hne, hdigits, ne_eq,
    not_false_iff, and_self, if_true, Nat.ofDigitChars_ten_toDigits, ofDigitChars_padded, hlength]
  rw [hsplit]
  field_simp

theorem number?_of_digit {c : Char} {text : List Char} (h : c.isDigit = true) :
    number? (c :: text) = unsigned? (c :: text) := by
  unfold number?
  split
  next heq =>
    cases heq
    exact absurd h (by decide)
  next => rfl

theorem numberIn_append {before text after : List Char}
    (hbefore : ∀ c ∈ before, isNumeral c = false) (htext : ∀ c ∈ text, isNumeral c = true)
    (hne : text ≠ []) (hafter : ∀ c ∈ after.head?, isNumeral c = false) :
    numberIn (String.ofList (before ++ text ++ after)) = number? text := by
  have hdrop : (before ++ text ++ after).dropWhile (fun c => !isNumeral c) = text ++ after := by
    obtain ⟨c, rest, rfl⟩ := List.exists_cons_of_ne_nil hne
    rw [List.append_assoc, List.dropWhile_append_of_pos (by simpa using hbefore),
      List.cons_append, List.dropWhile_cons_of_neg (by simp [htext c List.mem_cons_self])]
  have htake : after.takeWhile isNumeral = [] := by
    cases after with
    | nil => rfl
    | cons c rest => rw [List.takeWhile_cons_of_neg (by simp [hafter c rfl])]
  rw [numberIn, String.toList_ofList, hdrop, List.takeWhile_append_of_pos htext, htake,
    List.append_nil]

theorem isNumeral_of_isDigit {c : Char} (h : c.isDigit = true) : isNumeral c = true := by
  simp [isNumeral, h]

theorem number?_of_forall_isDigit {text : List Char}
    (h : ∀ c ∈ text.head?, c.isDigit = true) : number? text = unsigned? text := by
  cases text with
  | nil => rfl
  | cons c rest => exact number?_of_digit (h c rfl)

/-- What is read of a number that has been printed. -/
theorem number?_printFixed (rounding : NearestRounding) {precision : ℕ} (hprecision : 0 < precision)
    (q : ℚ) : ∃ x, number? (printFixed rounding precision q).toList = some x ∧
      |x - q| ≤ 1 / 2 / 10 ^ precision := by
  have hpow : (0 : ℚ) < 10 ^ precision := by positivity
  have hnearest := rounding.nearest (|q| * 10 ^ precision) (by positivity)
  generalize hn : rounding.round (|q| * 10 ^ precision) = n at hnearest
  have hmagnitude : abs ((n : ℚ) / 10 ^ precision - |q|) ≤ 1 / 2 / 10 ^ precision := by
    have hscaled : (n : ℚ) / 10 ^ precision - |q| = (n - |q| * 10 ^ precision) / 10 ^ precision := by
      field_simp
    rw [hscaled, abs_div, abs_of_pos hpow]
    gcongr
  simp only [printFixed, hn, String.toList_ofList]
  split
  next hneg =>
    refine ⟨-((n : ℚ) / 10 ^ precision), ?_, ?_⟩
    · rw [number?, unsigned?_fixedDigits hprecision]
      rfl
    · rw [abs_of_neg hneg] at hmagnitude
      rw [← abs_neg]
      convert hmagnitude using 2
      ring
  next hnonneg =>
    refine ⟨(n : ℚ) / 10 ^ precision, ?_, ?_⟩
    · rw [number?_of_forall_isDigit, unsigned?_fixedDigits hprecision]
      intro c hc
      apply isDigit_of_mem_toDigits (n := n / 10 ^ precision)
      rw [fixedDigits, List.head?_append_of_ne_nil _ Nat.toDigits_ne_nil] at hc
      exact List.mem_of_mem_head? hc
    · rwa [abs_of_nonneg (not_lt.mp hnonneg)] at hmagnitude

theorem isNumeral_printFixed (rounding : NearestRounding) (precision : ℕ) (q : ℚ) :
    ∀ c ∈ (printFixed rounding precision q).toList, isNumeral c = true := by
  have hdigits : ∀ n, ∀ c ∈ fixedDigits precision n, isNumeral c = true := by
    intro n c hc
    rcases List.mem_append.mp hc with hwhole | hdecimals
    · exact isNumeral_of_isDigit (isDigit_of_mem_toDigits hwhole)
    · rcases List.mem_cons.mp hdecimals with rfl | hdigit
      · rfl
      · exact isNumeral_of_isDigit (isDigit_of_mem_padded hdigit)
  simp only [printFixed, String.toList_ofList]
  split
  next =>
    intro c hc
    rcases List.mem_cons.mp hc with rfl | hdigit
    · rfl
    · exact hdigits _ c hdigit
  next => exact hdigits _

/-- A whole number is read as it is. -/
theorem number?_toString (z : ℤ) : number? (toString z).toList = some (z : ℚ) := by
  rw [Int.toString_eq_repr, Int.repr_eq_if]
  split
  next hnonneg =>
    rw [Nat.toList_repr, number?_of_forall_isDigit fun c hc =>
      isDigit_of_mem_toDigits (List.mem_of_mem_head? hc), unsigned?_toDigits]
    have hcast : ((z.toNat : ℤ) : ℚ) = z := by rw [Int.toNat_of_nonneg hnonneg]
    rw [← hcast, Int.cast_natCast]
  next hneg =>
    have hcast : (((-z).toNat : ℤ) : ℚ) = -z := by
      rw [Int.toNat_of_nonneg (by omega), Int.cast_neg]
    rw [String.toList_append, Nat.toList_repr]
    show (unsigned? (Nat.toDigits 10 (-z).toNat)).map Neg.neg = _
    rw [unsigned?_toDigits, Option.map_some, ← Int.cast_natCast, hcast, neg_neg]

theorem isNumeral_toString (z : ℤ) : ∀ c ∈ (toString z).toList, isNumeral c = true := by
  have hdigits : ∀ n, ∀ c ∈ Nat.toDigits 10 n, isNumeral c = true := fun _ c hc =>
    isNumeral_of_isDigit (isDigit_of_mem_toDigits hc)
  rw [Int.toString_eq_repr, Int.repr_eq_if]
  split
  next =>
    rw [Nat.toList_repr]
    exact hdigits _
  next =>
    rw [String.toList_append, Nat.toList_repr]
    intro c hc
    rcases List.mem_append.mp hc with hsign | hdigit
    · rw [List.mem_singleton.mp hsign]
      rfl
    · exact hdigits _ c hdigit

end Decimal
