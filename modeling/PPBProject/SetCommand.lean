import PPBProject.Gratten
import PPBProject.Lib.Decimal

/- The number in a set command. `buildSetCommand` writes a value without decimals where it is a
   whole number, which it finds out by `int(val)`; any other value is written with four.

   Correspondence (C++ ↔ Lean):
     `int(val)`                          ↔ `truncate`
     `QString::arg(val, 0, 'f', 4)`      ↔ `Conversions.argFixed`, as `Decimal.printFixed`
     the number in the text of a command ↔ `Decimal.numberIn` -/
namespace PPB

/-- The command for a value carries that value. -/
structure WritesValue (qt : Conversions) (key : String) (val : ℚ) : Prop where
  converts : -2 ^ 31 ≤ truncate val ∧ truncate val < 2 ^ 31
  written : ∃ number, Decimal.numberIn (buildSetCommand qt key val) = some number ∧
    |number - val| ≤ 1 / 2 / 10 ^ 4 ∧ (val.den = 1 → number = val)

/-! The text of a command. -/

theorem numberIn_pattern {before text after : String}
    (hbefore : before.toList.any Decimal.isNumeral = false)
    (htext : ∀ c ∈ text.toList, Decimal.isNumeral c = true) (hne : text.toList ≠ [])
    (hafter : after.toList.head?.any Decimal.isNumeral = false) :
    Decimal.numberIn (before ++ text ++ after) = Decimal.number? text.toList := by
  have hhead : ∀ c ∈ after.toList.head?, Decimal.isNumeral c = false := by
    intro c hc
    rwa [Option.mem_def.mp hc, Option.any_some] at hafter
  rw [← Decimal.numberIn_append (by simpa using hbefore) htext hne hhead, ← String.toList_append,
    ← String.toList_append, String.ofList_toList]

/-- The patterns have no other number. -/
theorem numberIn_setPattern {command : CommandDef} (h : command ∈ grattenCommands) {text : String}
    (htext : ∀ c ∈ text.toList, Decimal.isNumeral c = true) (hne : text.toList ≠ []) :
    Decimal.numberIn (command.setPattern text) = Decimal.number? text.toList := by
  simp only [grattenCommands, List.mem_cons, List.not_mem_nil, or_false] at h
  rcases h with rfl | rfl | rfl | rfl | rfl | rfl
  · exact @numberIn_pattern ":FREQuency:CW " text "Hz" (by decide) htext hne (by decide)
  · exact @numberIn_pattern ":POWer:LEVEL " text "DBM" (by decide) htext hne (by decide)
  · have hpattern := @numberIn_pattern ":OUTPut:STATE " text "" (by decide) htext hne (by decide)
    rwa [String.append_empty] at hpattern
  · exact @numberIn_pattern ":AM:INTernal:FREQuency " text "Hz" (by decide) htext hne (by decide)
  · exact @numberIn_pattern ":AM:DEPTh " text "%" (by decide) htext hne (by decide)
  · have hpattern := @numberIn_pattern ":AM:STATE " text "" (by decide) htext hne (by decide)
    rwa [String.append_empty] at hpattern

/-! The value. -/

theorem truncate_mem_int_iff (val : ℚ) :
    (-2 ^ 31 ≤ truncate val ∧ truncate val < 2 ^ 31) ↔ -2 ^ 31 - 1 < val ∧ val < 2 ^ 31 := by
  unfold truncate
  split
  next hneg =>
    have hhigh : ⌈val⌉ ≤ 0 := Int.ceil_le.mpr (by simpa using hneg.le)
    have hlow : -2 ^ 31 ≤ ⌈val⌉ ↔ -2 ^ 31 - 1 < val := by
      rw [← Int.sub_one_lt_iff, Int.lt_ceil]
      norm_num
    rw [hlow]
    constructor
    · exact fun h => ⟨h.1, by linarith⟩
    · exact fun h => ⟨h.1, by omega⟩
  next hnonneg =>
    have hlow : 0 ≤ ⌊val⌋ := Int.floor_nonneg.mpr (not_lt.mp hnonneg)
    have hhigh : ⌊val⌋ < 2 ^ 31 ↔ val < 2 ^ 31 := by
      rw [Int.floor_lt]
      norm_num
    rw [hhigh]
    constructor
    · exact fun h => ⟨by linarith [not_lt.mp hnonneg], h.2⟩
    · exact fun h => ⟨by omega, h.2⟩

theorem truncate_of_den {val : ℚ} (h : val.den = 1) : (truncate val : ℚ) = val := by
  obtain ⟨z, rfl⟩ : ∃ z : ℤ, (z : ℚ) = val := ⟨val.num, Rat.coe_int_num_of_den_eq_one h⟩
  simp [truncate]

/-- The bound of the integer test, as a `double`. -/
theorem toDouble_bound : 0 < toDouble (1 / 10 ^ 9) ∧ toDouble (1 / 10 ^ 9) ≤ 1 / 2 / 10 ^ 4 := by
  have herror := abs_roundBinary_sub_le 53 (1 / 10 ^ 9)
  rw [abs_le, abs_of_pos (by norm_num)] at herror
  change _ ≤ toDouble _ - _ ∧ toDouble _ - _ ≤ _ at herror
  constructor
  · have hlow := herror.1
    norm_num at hlow ⊢
    linarith
  · have hhigh := herror.2
    norm_num at hhigh ⊢
    linarith

section
variable {qt : Conversions} {rounding : Decimal.NearestRounding}

/-- What `argValue` writes is the value, or near it. -/
theorem number?_argValue (hfixed : qt.argFixed = Decimal.printFixed rounding 4) {val : ℚ}
    (hconverts : -2 ^ 31 ≤ truncate val ∧ truncate val < 2 ^ 31) :
    ∃ number, Decimal.number? (argValue qt val).toList = some number ∧
      |number - val| ≤ 1 / 2 / 10 ^ 4 ∧ (val.den = 1 → number = val) := by
  by_cases hwhole : |val - truncate val| < toDouble (1 / 10 ^ 9)
  · have htext : argValue qt val = toString (truncate val) :=
      if_pos ⟨hconverts.1, hconverts.2, hwhole⟩
    rw [htext]
    refine ⟨truncate val, Decimal.number?_toString _, ?_, truncate_of_den⟩
    rw [abs_sub_comm]
    exact hwhole.le.trans toDouble_bound.2
  · have htext : argValue qt val = qt.argFixed val := if_neg fun h => hwhole h.2.2
    obtain ⟨number, hnumber, hnear⟩ :=
      Decimal.number?_printFixed rounding (show 0 < 4 by omega) val
    rw [htext, hfixed]
    refine ⟨number, hnumber, hnear, ?_⟩
    intro hden
    rw [truncate_of_den hden, sub_self, abs_zero] at hwhole
    exact absurd toDouble_bound.1 hwhole

theorem isNumeral_argValue (hfixed : qt.argFixed = Decimal.printFixed rounding 4) (val : ℚ) :
    ∀ c ∈ (argValue qt val).toList, Decimal.isNumeral c = true := by
  simp only [argValue]
  split
  next => exact Decimal.isNumeral_toString _
  next =>
    rw [hfixed]
    exact Decimal.isNumeral_printFixed _ _ _

/-- A command for a value that `checkRange` accepts carries the value exactly if `int(val)` is an
`int`. -/
theorem writesValue_iff (hfixed : qt.argFixed = Decimal.printFixed rounding 4) {key : String}
    {val : ℚ} (haccepted : checkRange qt key val = none) :
    WritesValue qt key val ↔ -2 ^ 31 - 1 < val ∧ val < 2 ^ 31 := by
  rw [← truncate_mem_int_iff]
  constructor
  · exact fun h => h.converts
  · intro hconverts
    obtain ⟨number, hnumber, hnear, hexact⟩ := number?_argValue hfixed hconverts
    refine ⟨hconverts, number, ?_, hnear, hexact⟩
    cases hcommand : commandDef? key with
    | none =>
      rw [checkRange, hcommand] at haccepted
      cases haccepted
    | some command =>
      have hne : (argValue qt val).toList ≠ [] := by
        intro hnil
        rw [hnil] at hnumber
        cases hnumber
      rw [buildSetCommand, hcommand]
      exact (numberIn_setPattern (List.mem_of_find?_eq_some hcommand)
        (isNumeral_argValue hfixed val) hne).trans hnumber

end

/-- Numbers as Qt prints them, ties away from zero. -/
def printing : Conversions :=
  { Conversions.wholeNumbers with argFixed := Decimal.printFixed Decimal.roundHalfUp 4 }

/-- An amplitude of -13.5 dBm. -/
theorem writesValue_iff_amplitude : WritesValue printing "AMPL" (-27 / 2) :=
  (@writesValue_iff printing Decimal.roundHalfUp rfl "AMPL" (-27 / 2) (by decide +kernel)).mpr
    (by norm_num)

/-- A frequency of 3 GHz is accepted, and no `int` holds it. -/
theorem not_writesValue : checkRange printing "FREQ" 3000000000 = none ∧
    truncate 3000000000 = 3000000000 ∧ ¬ WritesValue printing "FREQ" 3000000000 := by
  refine ⟨by decide +kernel, by decide +kernel, ?_⟩
  intro hwrites
  have hconverts := hwrites.converts.2
  revert hconverts
  decide +kernel

end PPB
