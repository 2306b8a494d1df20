import PPBProject.Command

/- Binary floating point: a number is rounded to a number of significant bits, to nearest, ties
   to even. The range of the exponent plays no part: nothing here comes near its ends. -/
namespace PPB

/-- `q` with `precision` significant bits. -/
def roundBinary (precision : Nat) (q : ℚ) : ℚ :=
  if q = 0 then 0
  else
    let ulp := (2 : ℚ) ^ (Int.log 2 |q| - (precision - 1 : ℤ))
    roundHalfEven (q / ulp) * ulp

/-- A `double`. -/
def toDouble (q : ℚ) : ℚ := roundBinary 53 q

/-- A `float`, of either sign. -/
def toFloat (q : ℚ) : ℚ := roundBinary 24 q

theorem abs_roundHalfEven_sub_le (q : ℚ) : |(roundHalfEven q : ℚ) - q| ≤ 1 / 2 := by
  have hbelow := Int.floor_le q
  have habove := Int.lt_floor_add_one q
  unfold roundHalfEven
  rw [abs_le]
  dsimp only
  split
  next => constructor <;> linarith
  next hmiddle =>
    split
    next => push_cast; constructor <;> linarith
    next htie =>
      split
      next => constructor <;> linarith
      next => push_cast; constructor <;> linarith

/-- The error is at most half a unit in the last place. -/
theorem abs_roundBinary_sub_le (precision : Nat) (q : ℚ) :
    |roundBinary precision q - q| ≤ |q| / 2 ^ precision := by
  unfold roundBinary
  split
  next hzero => simp [hzero]
  next hne =>
    dsimp only
    generalize hulp : (2 : ℚ) ^ (Int.log 2 |q| - (precision - 1 : ℤ)) = ulp
    have hpos : 0 < ulp := hulp ▸ zpow_pos (by norm_num) _
    have hrounded : |(roundHalfEven (q / ulp) : ℚ) * ulp - q| ≤ ulp / 2 := by
      have hscaled : (roundHalfEven (q / ulp) : ℚ) * ulp - q =
          (roundHalfEven (q / ulp) - q / ulp) * ulp := by
        field_simp
      rw [hscaled, abs_mul, abs_of_pos hpos]
      calc |(roundHalfEven (q / ulp) : ℚ) - q / ulp| * ulp ≤ 1 / 2 * ulp :=
            mul_le_mul_of_nonneg_right (abs_roundHalfEven_sub_le _) hpos.le
        _ = ulp / 2 := by ring
    have hhalf : ulp / 2 = (2 : ℚ) ^ Int.log 2 |q| / 2 ^ precision := by
      rw [← hulp, zpow_sub₀ (by norm_num), zpow_sub₀ (by norm_num), zpow_natCast, zpow_one]
      field_simp
    have hlog := Int.zpow_log_le_self (b := 2) (by norm_num) (abs_pos.mpr hne)
    rw [Nat.cast_ofNat] at hlog
    calc |(roundHalfEven (q / ulp) : ℚ) * ulp - q| ≤ (2 : ℚ) ^ Int.log 2 |q| / 2 ^ precision :=
          hhalf ▸ hrounded
      _ ≤ |q| / 2 ^ precision := by gcongr

/-- The error, from a bound on the value. -/
theorem abs_roundBinary_sub_le_of_le {precision : Nat} {q bound : ℚ} (h : |q| ≤ bound) :
    |roundBinary precision q - q| ≤ bound / 2 ^ precision :=
  (abs_roundBinary_sub_le precision q).trans (by gcongr)

end PPB
