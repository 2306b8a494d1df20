import PPBProject.Controller
import PPBProject.Lib.Crc

/- `Crc24`, the check of a firmware image. The register of the code has 32 bits, and its
   polynomial is written without bit 24: what a shift moves above bit 23 stays there and goes on
   moving. It never comes down again, so the lower 24 bits are a register of their own.

   Correspondence (C++ ↔ Lean):
     the inner loop, one turn            ↔ `crc24Bit`
     the outer loop, one turn            ↔ `crc24Byte`
     `Crc24(data, len)`, `len` all of it ↔ `crc24Of` -/
namespace PPB

open Polynomial

/-- The part of the register that is returned. -/
def lowBits (crc : UInt32) : BitVec 24 := crc.toBitVec.setWidth 24

/-- The bit that is tested is the highest of the lower 24, before the shift. -/
theorem tests_msb (crc : UInt32) : crc <<< 1 &&& 0x01000000 ≠ 0 ↔ (lowBits crc).msb = true := by
  have hmask : (0x01000000 : UInt32).toBitVec = BitVec.twoPow 32 24 := by decide
  have hshift : (crc <<< 1).toBitVec.getLsbD 24 = crc.toBitVec.getLsbD 23 := by
    rw [UInt32.toBitVec_shiftLeft]
    simp
  have hmsb : (lowBits crc).msb = crc.toBitVec.getLsbD 23 := by
    rw [BitVec.msb_eq_getLsbD_last, lowBits, BitVec.getLsbD_setWidth]
    simp
  rw [hmsb, ← hshift, ne_eq, ← UInt32.toBitVec_inj, UInt32.toBitVec_and, hmask, BitVec.and_twoPow]
  cases (crc <<< 1).toBitVec.getLsbD 24 <;> decide

theorem lowBits_xor (x y : UInt32) : lowBits (x ^^^ y) = lowBits x ^^^ lowBits y := by
  rw [lowBits, UInt32.toBitVec_xor, BitVec.setWidth_xor]
  rfl

theorem lowBits_shiftLeft (crc : UInt32) : lowBits (crc <<< 1) = lowBits crc <<< 1 := by
  apply BitVec.eq_of_getLsbD_eq
  intro i hi
  rw [lowBits, lowBits, UInt32.toBitVec_shiftLeft]
  simp [hi]

/-- One turn of the inner loop, whatever is above bit 23. -/
theorem lowBits_crc24Bit (crc : UInt32) :
    lowBits (crc24Bit crc) = Crc.shift (lowBits crc24Poly) (lowBits crc) := by
  by_cases hset : (lowBits crc).msb = true
  · have htests := (tests_msb crc).mpr hset
    have hturn : crc24Bit crc = crc <<< 1 ^^^ crc24Poly := if_pos htests
    rw [hturn, lowBits_xor, lowBits_shiftLeft, Crc.shift, if_pos hset]
  · have htests := fun h => hset ((tests_msb crc).mp h)
    have hturn : crc24Bit crc = crc <<< 1 := if_neg htests
    rw [hturn, lowBits_shiftLeft, Crc.shift, if_neg hset]

theorem lowBits_turns (crc : UInt32) (n : ℕ) :
    lowBits (crc24Bit^[n] crc) = (Crc.shift (lowBits crc24Poly))^[n] (lowBits crc) :=
  (Function.Semiconj.iterate_right lowBits_crc24Bit n).eq crc

theorem lowBits_byte (byte : UInt8) :
    lowBits (byte.toUInt32 <<< 16) = byte.toBitVec.setWidth 24 <<< (24 - 8) := by
  apply BitVec.eq_of_getLsbD_eq
  intro i hi
  rw [lowBits, UInt32.toBitVec_shiftLeft, UInt8.toBitVec_toUInt32]
  simp [hi]

theorem lowBits_crc24Byte (crc : UInt32) (byte : UInt8) :
    lowBits (crc24Byte crc byte) = Crc.feed (lowBits crc24Poly) (lowBits crc) byte.toBitVec := by
  rw [crc24Byte, lowBits_turns, lowBits_xor, lowBits_byte]
  rfl

/-- The outer loop. -/
theorem lowBits_foldl (data : Bytes) (crc : UInt32) : lowBits (data.foldl crc24Byte crc) =
    Crc.remainder (lowBits crc24Poly) (lowBits crc) (data.map UInt8.toBitVec) := by
  induction data generalizing crc with
  | nil => rfl
  | cons byte data ih =>
    rw [List.foldl_cons, ih, lowBits_crc24Byte]
    rfl

theorem lowBits_mask (crc : UInt32) : (crc &&& 0x00FFFFFF).toBitVec = (lowBits crc).setWidth 32 := by
  apply BitVec.eq_of_getLsbD_eq
  intro i hi
  have hmask : (0x00FFFFFF : UInt32).toBitVec = (BitVec.allOnes 24).setWidth 32 := by decide
  rw [UInt32.toBitVec_and, hmask, lowBits, BitVec.getLsbD_and, BitVec.getLsbD_setWidth,
    BitVec.getLsbD_setWidth, BitVec.getLsbD_setWidth, BitVec.getLsbD_allOnes, decide_eq_true hi,
    Bool.true_and, Bool.true_and, Bool.and_comm]

theorem toBitVec_crc24Of (data : Bytes) : (crc24Of data).toBitVec =
    (Crc.remainder (lowBits crc24Poly) (lowBits crc24Init)
      (data.map UInt8.toBitVec)).setWidth 32 := by
  rw [crc24Of, lowBits_mask, lowBits_foldl]

theorem lowBits_crc24Of (data : Bytes) : lowBits (crc24Of data) =
    Crc.remainder (lowBits crc24Poly) (lowBits crc24Init) (data.map UInt8.toBitVec) := by
  rw [lowBits, toBitVec_crc24Of, BitVec.setWidth_setWidth_of_le _ (by omega), BitVec.setWidth_eq]

/-! The check after the data. -/

def crcBytesOf (crc : UInt32) : Bytes := [(crcBytes crc).1, (crcBytes crc).2.1, (crcBytes crc).2.2]

theorem append_crcBytes (crc : UInt32) :
    (crcBytes crc).1.toBitVec ++ (crcBytes crc).2.1.toBitVec ++ (crcBytes crc).2.2.toBitVec =
      lowBits crc := by
  apply BitVec.eq_of_getLsbD_eq
  intro i hi
  simp only [crcBytes, lowBits]
  rw [BitVec.getLsbD_append, BitVec.getLsbD_append, BitVec.getLsbD_setWidth]
  have hin : i < 24 := hi
  split
  next hlow => simp [hlow, hin]
  next hlow =>
    split
    next hmid =>
      have hsum : 8 + (i - 8) = i := by omega
      simp [hmid, hin, hsum]
    next hmid =>
      have hsum : 16 + (i - 8 - 8) = i := by omega
      have htop : i - 8 - 8 < 8 := by omega
      simp [htop, hin, hsum]

theorem lowBits_crc24Poly : lowBits crc24Poly = 0x864CFB := by decide

theorem lowBits_crc24Init : lowBits crc24Init = 0xB704CE := by decide

/-- The 32-bit register gives what a register of 24 bits gives, and that is the remainder by
X²⁴ + 0x864CFB. Data followed by their own check have the check 0. -/
theorem crc24Of_eq_remainder (data : Bytes) :
    (crc24Of data).toBitVec =
        (Crc.remainder (0x864CFB : BitVec 24) 0xB704CE (data.map UInt8.toBitVec)).setWidth 32 ∧
      Crc.toPoly (lowBits (crc24Of data)) =
        (X ^ (8 * data.length) * Crc.toPoly (0xB704CE : BitVec 24) +
            X ^ 24 * Crc.messagePoly (data.map UInt8.toBitVec)) %ₘ
          (X ^ 24 + Crc.toPoly (0x864CFB : BitVec 24)) ∧
      crc24Of (data ++ crcBytesOf (crc24Of data)) = 0 := by
  rw [← lowBits_crc24Poly, ← lowBits_crc24Init]
  refine ⟨toBitVec_crc24Of data, ?_, ?_⟩
  · have hremainder := Crc.toPoly_remainder (lowBits crc24Poly) (lowBits crc24Init)
      (show 8 ≤ 24 by omega) (data.map UInt8.toBitVec)
    rw [List.length_map, ← lowBits_crc24Of] at hremainder
    exact hremainder
  · have hself : Crc.messagePoly ((crcBytesOf (crc24Of data)).map UInt8.toBitVec) =
        Crc.toPoly (Crc.remainder (lowBits crc24Poly) (lowBits crc24Init)
          (data.map UInt8.toBitVec)) := by
      rw [← lowBits_crc24Of, ← append_crcBytes, Crc.toPoly_append, Crc.toPoly_append]
      simp [Crc.messagePoly, crcBytesOf]
    have hzero := Crc.remainder_append_self (lowBits crc24Poly) (lowBits crc24Init)
      (show 8 ≤ 24 by omega) rfl hself
    rw [← UInt32.toBitVec_inj, toBitVec_crc24Of, List.map_append, hzero]
    rfl

/-- The digits from 1 to 9. -/
example : crc24Of [49, 50, 51, 52, 53, 54, 55, 56, 57] = 0x21CF02 := by decide +kernel

end PPB
