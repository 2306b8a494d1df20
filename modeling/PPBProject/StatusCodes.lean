import PPBProject.Status

/- The codes of a TS status: what is stored of each word the PPB has sent. A power is kept with
   both of its words, a VSWR with the lower one only, a temperature with its code, while the
   number made of the code leaves out the sign.

   Correspondence (C++ ↔ Lean):
     the words of `powerCode`, `vswrCode`, `tempT1Code`, … ↔ `PPBFullState.reencoded`
     `tempT1`, … , `tempOut`                               ↔ `PPBFullState.temperature` -/
namespace PPB

/-- What the payload carries for a bit, as one word. -/
def wordAt (payload : Bytes) (bit : Nat) : UInt16 := (wordOf (carried payload) bit).getD 0

/-- The word of a bit, made again from the code that is stored. -/
def PPBFullState.reencoded (state : PPBFullState) : Nat → UInt16
  | 1 => (state.ch1.powerCode >>> 16).toUInt16
  | 2 => state.ch1.powerCode.toUInt16
  | 3 => (state.ch2.powerCode >>> 16).toUInt16
  | 4 => state.ch2.powerCode.toUInt16
  | 5 => state.tempT1Code.toUInt16
  | 6 => state.tempT2Code.toUInt16
  | 7 => state.tempT3Code.toUInt16
  | 8 => state.tempT4Code.toUInt16
  | 9 => state.tempV1Code.toUInt16
  | 10 => state.tempV2Code.toUInt16
  | 11 => state.tempInCode.toUInt16
  | 12 => state.tempOutCode.toUInt16
  | 13 => (state.ch1.vswrCode.toUInt32 >>> 16).toUInt16
  | 14 => state.ch1.vswrCode
  | 15 => (state.ch2.vswrCode.toUInt32 >>> 16).toUInt16
  | 16 => state.ch2.vswrCode
  | _ => 0

/-- The temperature of a bit. -/
def PPBFullState.temperature (state : PPBFullState) : Nat → ℚ
  | 5 => state.tempT1
  | 6 => state.tempT2
  | 7 => state.tempT3
  | 8 => state.tempT4
  | 9 => state.tempV1
  | 10 => state.tempV2
  | 11 => state.tempIn
  | 12 => state.tempOut
  | _ => 0

/-- Sixteenths of a degree, from -55 to 125 degrees. -/
def IsTemperature (word : UInt16) : Prop := -880 ≤ word.toInt16.toInt ∧ word.toInt16.toInt ≤ 2000

instance (word : UInt16) : Decidable (IsTemperature word) := inferInstanceAs (Decidable (_ ∧ _))

/-- Nothing of the words from bit 1 to bit 16 is lost. -/
structure PPBFullState.Keeps (state : PPBFullState) (payload : Bytes) : Prop where
  codes : ∀ bit, 1 ≤ bit → bit ≤ 16 → state.reencoded bit = wordAt payload bit
  temperatures : ∀ bit, 5 ≤ bit → bit ≤ 12 → IsTemperature (wordAt payload bit) →
    state.temperature bit * 16 = (wordAt payload bit).toInt16.toInt

/-! One code. -/

def fullCode (high low : UInt16) : UInt32 := high.toUInt32 <<< 16 ||| low.toUInt32

theorem fullCode_high (high low : UInt16) : (fullCode high low >>> 16).toUInt16 = high := by
  apply UInt16.toBitVec_inj.mp
  apply BitVec.eq_of_getLsbD_eq
  intro i hi
  have hlong : i < 32 := by omega
  have hshifted : 16 + i < 32 := by omega
  simp [fullCode, hi, hlong, hshifted]

theorem fullCode_low (high low : UInt16) : (fullCode high low).toUInt16 = low := by
  apply UInt16.toBitVec_inj.mp
  apply BitVec.eq_of_getLsbD_eq
  intro i hi
  simp [fullCode, hi]

theorem toUInt32_shiftRight (low : UInt16) : (low.toUInt32 >>> 16).toUInt16 = 0 := by
  apply UInt16.toBitVec_inj.mp
  apply BitVec.eq_of_getLsbD_eq
  intro i hi
  simp [hi]

theorem toInt_and_low (dtg : Int16) {bits : Nat} (hbits : bits < 16) {mask : Int16}
    (hmask : mask.toBitVec.toNat = 2 ^ bits - 1) :
    (dtg &&& mask).toInt = (dtg.toBitVec.toNat % 2 ^ bits : ℕ) := by
  have hnat : (dtg &&& mask).toBitVec.toNat = dtg.toBitVec.toNat % 2 ^ bits := by
    rw [Int16.toBitVec_and, BitVec.toNat_and, hmask, Nat.and_two_pow_sub_one_eq_mod]
  have hlt := Nat.mod_lt dtg.toBitVec.toNat (Nat.two_pow_pos bits)
  have hpow : 2 ^ bits ≤ 2 ^ 15 := Nat.pow_le_pow_right (by omega) (by omega)
  rw [← hnat]
  exact BitVec.toInt_eq_toNat_of_lt (by omega)

theorem toInt_shiftRight_four (dtg : Int16) : (dtg >>> 4).toInt = dtg.toInt / 16 := by
  have hshift : (dtg >>> 4).toBitVec = dtg.toBitVec.sshiftRight 4 := rfl
  rw [← Int16.toInt_toBitVec, hshift, BitVec.toInt_sshiftRight, Int.shiftRight_eq_div_pow]
  rfl

/-- `ds18b20::convert` reads the lower eleven bits. -/
theorem convert_eq (dtg : Int16) :
    ds18b20.convert dtg = ((dtg.toBitVec.toNat % 2048 : ℕ) : ℚ) / 16 := by
  have hwhole : ((dtg &&& 0x07FF) >>> 4).toInt = (dtg.toBitVec.toNat % 2048 / 16 : ℕ) := by
    rw [toInt_shiftRight_four, @toInt_and_low dtg 11 (by omega) 0x07FF rfl]
    rfl
  have hfraction : (dtg &&& 0x000F).toInt = (dtg.toBitVec.toNat % 16 : ℕ) :=
    @toInt_and_low dtg 4 (by omega) 0x000F rfl
  have hsplit : dtg.toBitVec.toNat % 2048 =
      16 * (dtg.toBitVec.toNat % 2048 / 16) + dtg.toBitVec.toNat % 16 := by omega
  rw [ds18b20.convert, hwhole, hfraction]
  have hcast := congrArg (Nat.cast (R := ℚ)) hsplit
  rw [Nat.cast_add, Nat.cast_mul] at hcast
  rw [hcast, Int.cast_natCast, Int.cast_natCast]
  ring

/-- The temperature is that of the code exactly where the code has no sign. -/
theorem convert_mul_sixteen_iff {word : UInt16} (h : IsTemperature word) :
    ds18b20.convert word.toInt16 * 16 = word.toInt16.toInt ↔ 0 ≤ word.toInt16.toInt := by
  obtain ⟨-, hhigh⟩ := h
  have hint := BitVec.toInt_eq_toNat_cond word.toInt16.toBitVec
  rw [Int16.toInt_toBitVec] at hint
  have hlt := word.toInt16.toBitVec.isLt
  rw [convert_eq, div_mul_cancel₀ _ (by norm_num)]
  generalize word.toInt16.toBitVec.toNat = n at hint hlt
  generalize word.toInt16.toInt = z at hint hhigh
  rw [← Int.cast_natCast, Int.cast_inj]
  split at hint <;> omega

/-! A frame. -/

theorem wordOf_carried {payload : Bytes} {bit : Nat}
    (h : (statusMask payload).toNat.testBit bit = true) :
    wordOf (carried payload) bit = some (wordAt payload bit) := by
  have hsome : (wordOf (carried payload) bit).isSome := by
    rw [wordOf, Option.isSome_map, carried_isSome, h]
  rw [wordAt, ← Option.some_get hsome, Option.getD_some]

section
variable {codeToVSWR : Nat → UInt16 → FloatBits} {payload : Bytes} {old : PPBFullState}
  {address : UInt16} {mask : UInt32}

/-- What is stored of each word: all of it, but for the upper words of the VSWRs. -/
theorem reencoded_measured
    (hbits : ∀ bit, 1 ≤ bit → bit ≤ 16 → (statusMask payload).toNat.testBit bit = true)
    {bit : Nat} (hfirst : 1 ≤ bit) (hlast : bit ≤ 16) :
    (old.measured codeToVSWR (carried payload) address mask).reencoded bit =
      if bit = 13 ∨ bit = 15 then 0 else wordAt payload bit := by
  have hword := fun bit hfirst hlast => wordOf_carried (hbits bit hfirst hlast)
  have hpair : ∀ high low, 1 ≤ high → high ≤ 16 → 1 ≤ low → low ≤ 16 →
      pairOf (carried payload) high low =
        some (fullCode (wordAt payload high) (wordAt payload low)) := by
    intro high low hhigh hhigh' hlow hlow'
    rw [pairOf, hword high hhigh hhigh', hword low hlow hlow']
    rfl
  interval_cases bit <;>
    simp [PPBFullState.reencoded, PPBFullState.measured, ChannelState.measured, hword, hpair,
      fullCode_high, fullCode_low, toUInt32_shiftRight]

theorem temperature_measured
    (hbits : ∀ bit, 1 ≤ bit → bit ≤ 16 → (statusMask payload).toNat.testBit bit = true)
    {bit : Nat} (hfirst : 5 ≤ bit) (hlast : bit ≤ 12) :
    (old.measured codeToVSWR (carried payload) address mask).temperature bit =
      ds18b20.convert (wordAt payload bit).toInt16 := by
  have hword := fun bit hfirst hlast => wordOf_carried (hbits bit hfirst hlast)
  interval_cases bit <;> simp [PPBFullState.temperature, PPBFullState.measured, hword]

theorem keeps_measured_iff
    (hbits : ∀ bit, 1 ≤ bit → bit ≤ 16 → (statusMask payload).toNat.testBit bit = true) :
    (old.measured codeToVSWR (carried payload) address mask).Keeps payload ↔
      wordAt payload 13 = 0 ∧ wordAt payload 15 = 0 ∧
        ∀ bit, 5 ≤ bit → bit ≤ 12 → IsTemperature (wordAt payload bit) →
          0 ≤ (wordAt payload bit).toInt16.toInt := by
  constructor
  · intro ⟨hcodes, htemperatures⟩
    have hupper := fun bit hfirst hlast => (hcodes bit hfirst hlast).symm.trans
      (reencoded_measured hbits hfirst hlast)
    refine ⟨hupper 13 (by omega) (by omega), hupper 15 (by omega) (by omega), ?_⟩
    intro bit hfirst hlast hvalid
    have htemperature := htemperatures bit hfirst hlast hvalid
    rw [temperature_measured hbits hfirst hlast] at htemperature
    exact (convert_mul_sixteen_iff hvalid).mp htemperature
  · intro ⟨hfirstVswr, hsecondVswr, hsigns⟩
    constructor
    · intro bit hfirst hlast
      rw [reencoded_measured hbits hfirst hlast]
      split
      next hupper => rcases hupper with rfl | rfl <;> simp only [hfirstVswr, hsecondVswr]
      next => rfl
    · intro bit hfirst hlast hvalid
      rw [temperature_measured hbits hfirst hlast]
      exact (convert_mul_sixteen_iff hvalid).mpr (hsigns bit hfirst hlast hvalid)

end

namespace PPBController

/-- Of an accepted status with the words from bit 1 to bit 16, nothing is lost exactly if the upper
words of both VSWRs are zero and no temperature is below zero. -/
theorem keeps_iff (codeToVSWR : Nat → UInt16 → FloatBits) {payload : Bytes} {more : List Bytes}
    {message : String} {mask : UInt32} {blocks : List Bytes}
    (haccepted : PPBCommand.statusCommand.parseResponseData (payload :: more) =
      .ok (message, some (.status mask blocks)))
    (hbits : ∀ bit, 1 ≤ bit → bit ≤ 16 → mask.toNat.testBit bit = true)
    (d : PpbData) (i : Fin 16) :
    ((onStatusReceived codeToVSWR d (1 <<< i.val.toUInt16) mask blocks).realStates i).Keeps payload ↔
      wordAt payload 13 = 0 ∧ wordAt payload 15 = 0 ∧
        ∀ bit, 5 ≤ bit → bit ≤ 12 → IsTemperature (wordAt payload bit) →
          0 ≤ (wordAt payload bit).toInt16.toInt := by
  obtain ⟨hlong, hparsed⟩ := parseStatus_eq_ok_iff.mp ⟨message, haccepted⟩
  cases hparsed
  rw [four_add_popcount_low] at hlong
  rw [onStatusReceived_realStates codeToVSWR d i hlong, Function.update_self]
  exact keeps_measured_iff hbits

/-- A frame of the bits 1 to 16: powers of 10 W, and of the rest one temperature and two VSWRs. -/
def statusFrame (t1High t1Low vswrHigh vswrLow : UInt8) : Bytes :=
  [0x00, 0x01, 0xFF, 0xFE, 0x41, 0x20, 0, 0, 0x41, 0x20, 0, 0, t1High, t1Low, 0, 0, 0, 0, 0, 0,
    0, 0, 0, 0, 0, 0, 0, 0, vswrHigh, vswrLow, 0x00, 0x10, 0, 0, 0x00, 0x10]

theorem statusFrame_bits :
    ∀ bit, 1 ≤ bit → bit ≤ 16 → (0x0001FFFE : UInt32).toNat.testBit bit = true := by
  intro bit hfirst hlast
  interval_cases bit <;> rfl

/-- 25 degrees, and VSWRs that fit in their lower words. -/
theorem keeps_iff_warm : ∃ blocks, ((onStatusReceived (fun _ _ => 0) {} 1 0x0001FFFE
    blocks).realStates 0).Keeps (statusFrame 0x01 0x90 0 0) := by
  have hkeeps := @keeps_iff (fun _ _ => 0) (statusFrame 0x01 0x90 0 0) [] _ 0x0001FFFE _ rfl
    statusFrame_bits {} 0
  refine ⟨_, hkeeps.mpr ⟨by decide, by decide, ?_⟩⟩
  intro bit hfirst hlast _
  interval_cases bit <;> decide

/-- One degree below zero is stored as 127 degrees, and the upper word of a VSWR is gone. -/
theorem not_keeps : ∃ message blocks,
    PPBCommand.statusCommand.parseResponseData [statusFrame 0xFF 0xF0 0x3F 0x80] =
      .ok (message, some (.status 0x0001FFFE blocks)) ∧
    wordAt (statusFrame 0xFF 0xF0 0x3F 0x80) 5 = 0xFFF0 ∧ IsTemperature 0xFFF0 ∧
    ((onStatusReceived (fun _ _ => 0) {} 1 0x0001FFFE blocks).realStates 0).temperature 5 = 127 ∧
    wordAt (statusFrame 0xFF 0xF0 0x3F 0x80) 13 = 0x3F80 ∧
    ((onStatusReceived (fun _ _ => 0) {} 1 0x0001FFFE blocks).realStates 0).reencoded 13 = 0 ∧
    ¬ ((onStatusReceived (fun _ _ => 0) {} 1 0x0001FFFE blocks).realStates 0).Keeps
      (statusFrame 0xFF 0xF0 0x3F 0x80) := by
  refine ⟨_, _, rfl, by decide, by decide, by decide +kernel, by decide, by decide, ?_⟩
  intro hkeeps
  have hupper := hkeeps.codes 13 (by omega) (by omega)
  revert hupper
  decide

end PPBController

end PPB
