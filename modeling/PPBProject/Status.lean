import PPBProject.Aftermath
import Mathlib.Data.Nat.Bitwise
import Mathlib.Tactic.IntervalCases

/- A TS status, from the payload to the state of the PPB. `StatusCommand::parseResponseData`
   cuts a two-byte block out of the payload for each set bit of its mask, and
   `PPBController::processStatusData` walks the mask once more and takes the blocks one by
   one. The two walks stay in step: the word that is used for a bit is the one the payload
   carries for it.

   Correspondence (C++ ↔ Lean):
     `PPBFullState`, with `ch1` and `ch2`        ↔ `PPBFullState`, `ChannelState`
     `m_realStates`, `m_userSettings`,
       `m_settingsInitialized`, `m_currentAddress` ↔ the fields of `PpbData`
     a `float` of a power or a VSWR              ↔ its bit pattern, `FloatBits`
     a temperature, exact as a `float`           ↔ a rational number
     a `have_*_high` flag with its word          ↔ an `Option`
     `blockIdx`                                  ↔ the blocks that are left
   Left out: the signals of the two slots, and log lines. -/
namespace PPB

/-- A `float`, bit by bit. -/
abbrev FloatBits := UInt32

structure ChannelState where
  powerCode : UInt32 := 0
  vswrCode : UInt16 := 0
  power : FloatBits := 0
  -- 1.0f
  vswr : FloatBits := 0x3f800000
  isOk : Bool := false
  deriving DecidableEq

structure PPBFullState where
  addressMask : UInt16 := 0
  validationMask : UInt32 := 0
  tempT1Code : Int16 := 0
  tempT2Code : Int16 := 0
  tempT3Code : Int16 := 0
  tempT4Code : Int16 := 0
  tempV1Code : Int16 := 0
  tempV2Code : Int16 := 0
  tempOutCode : Int16 := 0
  tempInCode : Int16 := 0
  tempT1 : ℚ := 0
  tempT2 : ℚ := 0
  tempT3 : ℚ := 0
  tempT4 : ℚ := 0
  tempV1 : ℚ := 0
  tempV2 : ℚ := 0
  tempOut : ℚ := 0
  tempIn : ℚ := 0
  ch1 : ChannelState := {}
  ch2 : ChannelState := {}
  version : String := ""
  checksum : UInt16 := 0
  droppedPackets : UInt16 := 0
  berErrorsTU : UInt32 := 0
  berErrorsFU : UInt32 := 0
  berTU : FloatBits := 0
  berFU : FloatBits := 0
  factoryNumber : UInt16 := 0
  deriving DecidableEq

structure PpbUserSettings where
  power1 : FloatBits := 0
  power2 : FloatBits := 0
  fuBlocked : Bool := false
  rebootRequested : Bool := false
  resetErrors : Bool := false
  powerEnabled : Bool := false
  deriving DecidableEq

/-- What `PPBController` keeps about the sixteen PPBs. -/
structure PpbData where
  realStates : Fin 16 → PPBFullState := fun _ => {}
  userSettings : Fin 16 → PpbUserSettings := fun _ => {}
  settingsInitialized : Fin 16 → Bool := fun _ => false
  currentAddress : UInt16 := 0

/-- `ds18b20::convert`; the sign bit of the code is not looked at. -/
def ds18b20.convert (dtg : Int16) : ℚ :=
  ((dtg &&& 0x07FF) >>> 4).toInt + (dtg &&& 0x000F).toInt / 16

/-- `DataConverter::codeToPower`: the code is the pattern of the number. -/
def codeToPower (code : UInt32) : FloatBits := code

def addressToIndex (address : UInt16) : Option (Fin 16) :=
  (List.finRange 16).find? fun i => address = 1 <<< i.val.toUInt16

/-- The loop of `processStatusData`, with the high words that wait for their low ones. -/
structure StatusLoop where
  state : PPBFullState
  power1High : Option UInt32 := none
  power2High : Option UInt32 := none
  vswr1High : Option UInt32 := none
  vswr2High : Option UInt32 := none

section
-- `DataConverter::codeToVSWR` reads four bytes where its argument has two: what the call made for
-- a bit returns is not determined by the code
variable (codeToVSWR : Nat → UInt16 → FloatBits)

/-- The `switch` on the bit. -/
def StatusLoop.take (l : StatusLoop) (bit : Nat) (high low : UInt8) : StatusLoop :=
  let word := fromBigEndian high low
  match bit with
  | 0 => { l with state.ch1.isOk := high ≠ 0, state.ch2.isOk := low ≠ 0 }
  | 1 => { l with power1High := some word.toUInt32 }
  | 2 =>
    match l.power1High with
    | some power1High =>
      let fullCode := power1High <<< 16 ||| word.toUInt32
      { l with
        state.ch1.powerCode := fullCode
        state.ch1.power := codeToPower fullCode
        power1High := none }
    | none => l
  | 3 => { l with power2High := some word.toUInt32 }
  | 4 =>
    match l.power2High with
    | some power2High =>
      let fullCode := power2High <<< 16 ||| word.toUInt32
      { l with
        state.ch2.powerCode := fullCode
        state.ch2.power := codeToPower fullCode
        power2High := none }
    | none => l
  | 5 => { l with state.tempT1Code := word.toInt16, state.tempT1 := ds18b20.convert word.toInt16 }
  | 6 => { l with state.tempT2Code := word.toInt16, state.tempT2 := ds18b20.convert word.toInt16 }
  | 7 => { l with state.tempT3Code := word.toInt16, state.tempT3 := ds18b20.convert word.toInt16 }
  | 8 => { l with state.tempT4Code := word.toInt16, state.tempT4 := ds18b20.convert word.toInt16 }
  | 9 => { l with state.tempV1Code := word.toInt16, state.tempV1 := ds18b20.convert word.toInt16 }
  | 10 => { l with state.tempV2Code := word.toInt16, state.tempV2 := ds18b20.convert word.toInt16 }
  | 11 => { l with state.tempInCode := word.toInt16, state.tempIn := ds18b20.convert word.toInt16 }
  | 12 => { l with state.tempOutCode := word.toInt16, state.tempOut := ds18b20.convert word.toInt16 }
  | 13 => { l with vswr1High := some word.toUInt32 }
  | 14 =>
    match l.vswr1High with
    | some vswr1High =>
      let fullCode := vswr1High <<< 16 ||| word.toUInt32
      { l with
        state.ch1.vswrCode := fullCode.toUInt16
        state.ch1.vswr := codeToVSWR 14 fullCode.toUInt16
        vswr1High := none }
    | none => l
  | 15 => { l with vswr2High := some word.toUInt32 }
  | 16 =>
    match l.vswr2High with
    | some vswr2High =>
      let fullCode := vswr2High <<< 16 ||| word.toUInt32
      { l with
        state.ch2.vswrCode := fullCode.toUInt16
        state.ch2.vswr := codeToVSWR 16 fullCode.toUInt16
        vswr2High := none }
    | none => l
  | _ => l

/-- The bits of the mask, each set one with the next block. -/
def statusLoop (mask : UInt32) : List Nat → List Bytes → StatusLoop → StatusLoop
  | [], _, l => l
  | bit :: bits, blocks, l =>
    if mask &&& (1 : UInt32) <<< bit.toUInt32 = 0 then statusLoop mask bits blocks l
    else
      match blocks with
      | [] => l
      | (high :: low :: _) :: blocks => statusLoop mask bits blocks (l.take codeToVSWR bit high low)
      | _ :: blocks => statusLoop mask bits blocks l

namespace PPBController

def processStatusData (d : PpbData) (address : UInt16) (mask : UInt32) (blocks : List Bytes) :
    PpbData :=
  match addressToIndex address with
  | none => d
  | some index =>
    let state := { d.realStates index with addressMask := address, validationMask := mask }
    let state := (statusLoop codeToVSWR mask (List.range 24) blocks { state }).state
    let d := { d with realStates := Function.update d.realStates index state }
    -- the first status of a PPB sets the powers to be edited
    if !d.settingsInitialized index then
      let settings :=
        { d.userSettings index with power1 := state.ch1.power, power2 := state.ch2.power }
      { d with
        userSettings := Function.update d.userSettings index settings
        settingsInitialized := Function.update d.settingsInitialized index true }
    else d

def onStatusReceived (d : PpbData) (address : UInt16) (mask : UInt32) (data : List Bytes) :
    PpbData :=
  let d := if d.currentAddress = 0 then { d with currentAddress := address } else d
  processStatusData codeToVSWR d address mask data

end PPBController

end

/-! What a status says, told without the walks. -/

/-- The number of set bits. -/
def popcount (word : UInt32) : Nat := (List.range 32).countP fun bit => word.toNat.testBit bit

/-- The first four bytes, big-endian. -/
def statusMask (payload : Bytes) : UInt32 :=
  fromBigEndian32 (payload.getD 0 0) (payload.getD 1 0) (payload.getD 2 0) (payload.getD 3 0)

/-- Where the word of a bit is: after the mask and the words of the lower bits. -/
def wordOffset (mask : UInt32) (bit : Nat) : Nat :=
  4 + 2 * popcount (mask &&& ((1 : UInt32) <<< bit.toUInt32 - 1))

/-- The bytes of the word the payload carries for a bit, if its bit is set. -/
def carried (payload : Bytes) (bit : Nat) : Option (UInt8 × UInt8) :=
  let mask := statusMask payload
  let offset := wordOffset mask bit
  if mask.toNat.testBit bit then some (payload.getD offset 0, payload.getD (offset + 1) 0) else none

section
variable (codeToVSWR : Nat → UInt16 → FloatBits) (bytes : Nat → Option (UInt8 × UInt8))

def wordOf (bit : Nat) : Option UInt16 := (bytes bit).map fun b => fromBigEndian b.1 b.2

/-- The word of two bits that stand for its halves, if both are there. -/
def pairOf (high low : Nat) : Option UInt32 :=
  (wordOf bytes high).bind fun h => (wordOf bytes low).map fun l => h.toUInt32 <<< 16 ||| l.toUInt32

/-- A channel with what has been measured put in place. -/
def ChannelState.measured (old : ChannelState) (isOk : Option Bool) (power vswr : Option UInt32)
    (vswrBit : Nat) : ChannelState where
  powerCode := power.getD old.powerCode
  vswrCode := (vswr.map UInt32.toUInt16).getD old.vswrCode
  power := (power.map codeToPower).getD old.power
  vswr := (vswr.map fun code => codeToVSWR vswrBit code.toUInt16).getD old.vswr
  isOk := isOk.getD old.isOk

/-- The state with what has been measured put in place, everything else as it was. -/
def PPBFullState.measured (old : PPBFullState) (address : UInt16) (mask : UInt32) : PPBFullState :=
  let code (bit : Nat) : Option Int16 := (wordOf bytes bit).map UInt16.toInt16
  let temp (bit : Nat) : Option ℚ := (code bit).map ds18b20.convert
  { old with
    addressMask := address
    validationMask := mask
    tempT1Code := (code 5).getD old.tempT1Code
    tempT2Code := (code 6).getD old.tempT2Code
    tempT3Code := (code 7).getD old.tempT3Code
    tempT4Code := (code 8).getD old.tempT4Code
    tempV1Code := (code 9).getD old.tempV1Code
    tempV2Code := (code 10).getD old.tempV2Code
    tempInCode := (code 11).getD old.tempInCode
    tempOutCode := (code 12).getD old.tempOutCode
    tempT1 := (temp 5).getD old.tempT1
    tempT2 := (temp 6).getD old.tempT2
    tempT3 := (temp 7).getD old.tempT3
    tempT4 := (temp 8).getD old.tempT4
    tempV1 := (temp 9).getD old.tempV1
    tempV2 := (temp 10).getD old.tempV2
    tempIn := (temp 11).getD old.tempIn
    tempOut := (temp 12).getD old.tempOut
    ch1 := old.ch1.measured codeToVSWR ((bytes 0).map fun b => b.1 ≠ 0)
      (pairOf bytes 1 2) (pairOf bytes 13 14) 14
    ch2 := old.ch2.measured codeToVSWR ((bytes 0).map fun b => b.2 ≠ 0)
      (pairOf bytes 3 4) (pairOf bytes 15 16) 16 }

end

/-! The offsets. -/

/-- How many bits below `n` are set. -/
def setBelow (mask : UInt32) (n : Nat) : Nat :=
  (List.range n).countP fun bit => mask.toNat.testBit bit

theorem setBelow_succ (mask : UInt32) (n : Nat) :
    setBelow mask (n + 1) = setBelow mask n + if mask.toNat.testBit n then 1 else 0 := by
  rw [setBelow, List.range_succ, List.countP_append, List.countP_singleton]
  rfl

theorem toNat_one_shiftLeft {bit : Nat} (h : bit < 32) :
    ((1 : UInt32) <<< bit.toUInt32).toNat = 2 ^ bit := by
  have hlt : 2 ^ bit < 2 ^ 32 := Nat.pow_lt_pow_right (by omega) h
  have hbit : bit.toUInt32.toNat % 32 = bit := by
    rw [Nat.toUInt32_eq, UInt32.toNat_ofNat']
    omega
  rw [UInt32.toNat_shiftLeft, hbit, UInt32.toNat_one, Nat.shiftLeft_eq, one_mul]
  exact Nat.mod_eq_of_lt hlt

theorem and_shiftLeft_eq_zero_iff (mask : UInt32) {bit : Nat} (h : bit < 32) :
    mask &&& (1 : UInt32) <<< bit.toUInt32 = 0 ↔ mask.toNat.testBit bit = false := by
  rw [← UInt32.toNat_inj, UInt32.toNat_and, toNat_one_shiftLeft h, Nat.and_two_pow]
  cases mask.toNat.testBit bit <;> simp

/-- The bits of the mask below `bit`, counted. -/
theorem popcount_below (mask : UInt32) {bit : Nat} (h : bit < 32) :
    popcount (mask &&& ((1 : UInt32) <<< bit.toUInt32 - 1)) = setBelow mask bit := by
  have hpow := toNat_one_shiftLeft h
  have hone : (1 : UInt32) ≤ (1 : UInt32) <<< bit.toUInt32 := by
    rw [UInt32.le_iff_toNat_le, hpow]
    exact Nat.one_le_two_pow
  have hlow : (mask &&& ((1 : UInt32) <<< bit.toUInt32 - 1)).toNat = mask.toNat % 2 ^ bit := by
    rw [UInt32.toNat_and, UInt32.toNat_sub_of_le _ _ hone, hpow]
    exact Nat.and_two_pow_sub_one_eq_mod _ _
  have hsplit : List.range 32 = List.range bit ++ (List.range (32 - bit)).map (bit + ·) := by
    rw [← List.range_add]
    congr 1
    omega
  rw [popcount, hlow, hsplit, List.countP_append, List.countP_map]
  have hbelow : (List.range bit).countP (fun i => (mask.toNat % 2 ^ bit).testBit i) =
      setBelow mask bit := by
    apply List.countP_congr
    intro i hi
    rw [Nat.testBit_mod_two_pow, decide_eq_true (List.mem_range.mp hi), Bool.true_and]
  have habove : (List.range (32 - bit)).countP
      ((fun i => (mask.toNat % 2 ^ bit).testBit i) ∘ (bit + ·)) = 0 := by
    rw [List.countP_eq_zero]
    intro i _
    simp
  rw [hbelow, habove, Nat.add_zero]

theorem wordOffset_eq (mask : UInt32) {bit : Nat} (h : bit < 32) :
    wordOffset mask bit = 4 + 2 * setBelow mask bit := by
  rw [wordOffset, popcount_below mask h]

theorem wordOffset_succ (mask : UInt32) {bit : Nat} (h : bit + 1 < 32) :
    wordOffset mask (bit + 1) = wordOffset mask bit + if mask.toNat.testBit bit then 2 else 0 := by
  rw [wordOffset_eq mask h, wordOffset_eq mask (by omega), setBelow_succ]
  split <;> omega

theorem wordOffset_mono (mask : UInt32) {bit count : Nat} (h : bit + count < 32) :
    wordOffset mask bit ≤ wordOffset mask (bit + count) := by
  induction count with
  | zero => exact le_rfl
  | succ count ih =>
    have hle := ih (by omega)
    have hsucc := wordOffset_succ mask (show bit + count + 1 < 32 by omega)
    show _ ≤ wordOffset mask (bit + count + 1)
    omega

/-! The first walk. -/

open PPBCommand

/-- From the bit `first` on the blocks are there exactly if the payload is long enough for all of
them, and each is the word at the offset of its bit. -/
theorem statusBlocks_eq_ok_iff {mask : UInt32} {payload : Bytes} {first count : Nat}
    {blocks : List Bytes} (hbits : first + count < 32)
    (hfirst : wordOffset mask first ≤ payload.length) :
    statusBlocks mask payload (List.range' first count) (wordOffset mask first) = .ok blocks ↔
      wordOffset mask (first + count) ≤ payload.length ∧
      blocks = ((List.range' first count).filter fun bit => mask.toNat.testBit bit).map
        fun bit => (payload.drop (wordOffset mask bit)).take 2 := by
  induction count generalizing first blocks with
  | zero => simp [statusBlocks, hfirst, eq_comm]
  | succ count ih =>
    have hnext := wordOffset_succ mask (show first + 1 < 32 by omega)
    have hsum : first + 1 + count = first + (count + 1) := by omega
    have ih' := @ih (first + 1)
    rw [hsum] at ih'
    rw [List.range'_succ, statusBlocks]
    cases hset : mask.toNat.testBit first with
    | false =>
      rw [if_pos ((and_shiftLeft_eq_zero_iff mask (by omega)).mpr hset)]
      have hnext : wordOffset mask (first + 1) = wordOffset mask first := by simpa [hset] using hnext
      rw [List.filter_cons_of_neg (by rw [hset]; exact Bool.false_ne_true), ← hnext]
      exact ih' (by omega) (hnext ▸ hfirst)
    | true =>
      have hmeets : ¬ mask &&& (1 : UInt32) <<< first.toUInt32 = 0 := by
        rw [and_shiftLeft_eq_zero_iff mask (by omega), hset]
        exact Bool.noConfusion
      rw [if_neg hmeets]
      rw [hset, if_pos rfl] at hnext
      rw [List.filter_cons_of_pos (by rw [hset]), List.map_cons, ← hnext]
      by_cases hshort : payload.length < wordOffset mask (first + 1)
      · -- the rest only needs more
        have hmono := wordOffset_mono mask (show first + 1 + count < 32 by omega)
        rw [hsum] at hmono
        rw [if_pos hshort]
        constructor
        · intro h
          cases h
        · intro ⟨hlong, _⟩
          omega
      · rw [if_neg hshort]
        have hrest := fun blocks => @ih' blocks (by omega) (by omega)
        cases hblocks : statusBlocks mask payload (List.range' (first + 1) count)
            (wordOffset mask (first + 1)) with
        | error message =>
          constructor
          · intro h
            cases h
          · intro ⟨hlong, _⟩
            have hok := (hrest _).mpr ⟨hlong, rfl⟩
            rw [hblocks] at hok
            cases hok
        | ok rest =>
          obtain ⟨hlong, hform⟩ := (hrest rest).mp hblocks
          rw [← hform]
          constructor
          · intro h
            cases h
            exact ⟨hlong, rfl⟩
          · intro ⟨_, hall⟩
            rw [hall]
            rfl

theorem four_add_popcount_low (mask : UInt32) :
    4 + 2 * popcount (mask &&& 0xFFFFFF) = wordOffset mask 24 := by
  have hlow : (0xFFFFFF : UInt32) = (1 : UInt32) <<< (24 : Nat).toUInt32 - 1 := by decide
  rw [wordOffset, hlow]

theorem wordOffset_zero (mask : UInt32) : wordOffset mask 0 = 4 := by
  rw [wordOffset_eq mask (by omega), setBelow, List.range_zero, List.countP_nil]

/-- The words of the set bits. -/
def statusWords (payload : Bytes) : List Bytes :=
  ((List.range 24).filter fun bit => (statusMask payload).toNat.testBit bit).map
    fun bit => (payload.drop (wordOffset (statusMask payload) bit)).take 2

theorem exists_four_bytes {payload : Bytes} (h : 4 ≤ payload.length) :
    ∃ b0 b1 b2 b3 rest, payload = b0 :: b1 :: b2 :: b3 :: rest :=
  match payload, h with
  | b0 :: b1 :: b2 :: b3 :: rest, _ => ⟨b0, b1, b2, b3, rest, rfl⟩

theorem parseStatus_of_short {payload : Bytes} (h : payload.length < 4) :
    parseStatus payload = .error "Ошибка: недостаточно данных (нет маски)" := by
  unfold parseStatus
  split
  · simp only [List.length_cons] at h
    omega
  · rfl

/-- The payload is accepted exactly if it has room for the words of all set bits, and the result
carries the mask and these words. -/
theorem parseStatus_eq_ok_iff {payload : Bytes} {parsed : Option ParsedData} :
    (∃ message, parseStatus payload = .ok (message, parsed)) ↔
      4 + 2 * popcount (statusMask payload &&& 0xFFFFFF) ≤ payload.length ∧
      parsed = some (.status (statusMask payload) (statusWords payload)) := by
  rw [four_add_popcount_low]
  have hfour := wordOffset_mono (statusMask payload) (show 0 + 24 < 32 by omega)
  rw [wordOffset_zero, Nat.zero_add] at hfour
  by_cases hshort : payload.length < 4
  · rw [parseStatus_of_short hshort]
    constructor
    · intro ⟨message, h⟩
      cases h
    · intro ⟨hlong, _⟩
      omega
  have hblocks : ∀ blocks, statusBlocks (statusMask payload) payload (List.range 24) 4 = .ok blocks ↔
      wordOffset (statusMask payload) 24 ≤ payload.length ∧ blocks = statusWords payload := by
    intro blocks
    have hiff := @statusBlocks_eq_ok_iff (statusMask payload) payload 0 24 blocks (by omega)
    rw [wordOffset_zero, Nat.zero_add, ← List.range_eq_range'] at hiff
    exact hiff (by omega)
  obtain ⟨b0, b1, b2, b3, rest, hform⟩ := exists_four_bytes (Nat.le_of_not_lt hshort)
  have hparse : ∃ text : List Bytes → String, parseStatus payload =
      (statusBlocks (statusMask payload) payload (List.range 24) 4).bind fun blocks =>
        .ok (text blocks, some (.status (statusMask payload) blocks)) := by
    rw [hform]
    exact ⟨_, rfl⟩
  obtain ⟨text, hparse⟩ := hparse
  rw [hparse]
  constructor
  · intro ⟨message, h⟩
    cases hread : statusBlocks (statusMask payload) payload (List.range 24) 4 with
    | error text =>
      rw [hread] at h
      cases h
    | ok blocks =>
      rw [hread] at h
      cases h
      obtain ⟨hlong, hwords⟩ := (hblocks blocks).mp hread
      exact ⟨hlong, by rw [hwords]⟩
  · intro ⟨hlong, hparsed⟩
    rw [(hblocks _).mpr ⟨hlong, rfl⟩, hparsed]
    exact ⟨_, rfl⟩

/-! The second walk. -/

section
variable (codeToVSWR : Nat → UInt16 → FloatBits) (bytes : Nat → Option (UInt8 × UInt8))

/-- What is known below the bit `n`. -/
def upTo (n : Nat) (bit : Nat) : Option (UInt8 × UInt8) := if bit < n then bytes bit else none

/-- The high word that waits, unless the low one has been there. -/
def waiting (high low : Nat) : Option UInt32 :=
  if (bytes low).isSome then none else (wordOf bytes high).map UInt16.toUInt32

/-- The loop after the bits below `n`. -/
def loopAt (old : PPBFullState) (address : UInt16) (mask : UInt32) (n : Nat) : StatusLoop where
  state := old.measured codeToVSWR (upTo bytes n) address mask
  power1High := waiting (upTo bytes n) 1 2
  power2High := waiting (upTo bytes n) 3 4
  vswr1High := waiting (upTo bytes n) 13 14
  vswr2High := waiting (upTo bytes n) 15 16

theorem upTo_succ_of_none {n : Nat} (h : bytes n = none) : upTo bytes (n + 1) = upTo bytes n := by
  funext bit
  unfold upTo
  rcases eq_or_ne bit n with rfl | hne
  · simp [h]
  · have hiff : bit < n + 1 ↔ bit < n := by omega
    simp only [hiff]

theorem loopAt_succ_of_none (old : PPBFullState) (address : UInt16) (mask : UInt32) {n : Nat}
    (h : bytes n = none) : loopAt codeToVSWR bytes old address mask (n + 1) =
      loopAt codeToVSWR bytes old address mask n := by
  unfold loopAt
  rw [upTo_succ_of_none bytes h]

/-- The turn for a bit whose word is there: the loop knows what it knew, and that word. -/
theorem loopAt_succ_of_some (old : PPBFullState) (address : UInt16) (mask : UInt32) {n : Nat}
    {high low : UInt8} (hn : n < 24) (h : bytes n = some (high, low)) :
    loopAt codeToVSWR bytes old address mask (n + 1) =
      (loopAt codeToVSWR bytes old address mask n).take codeToVSWR n high low := by
  by_cases hpair : n = 2 ∨ n = 4 ∨ n = 14 ∨ n = 16
  · -- the low half of a pair, which counts only after the high one
    rcases hpair with rfl | rfl | rfl | rfl
    · cases hhigh : bytes 1 <;> simp [loopAt, StatusLoop.take, PPBFullState.measured,
        ChannelState.measured, upTo, waiting, wordOf, pairOf, h, hhigh]
    · cases hhigh : bytes 3 <;> simp [loopAt, StatusLoop.take, PPBFullState.measured,
        ChannelState.measured, upTo, waiting, wordOf, pairOf, h, hhigh]
    · cases hhigh : bytes 13 <;> simp [loopAt, StatusLoop.take, PPBFullState.measured,
        ChannelState.measured, upTo, waiting, wordOf, pairOf, h, hhigh]
    · cases hhigh : bytes 15 <;> simp [loopAt, StatusLoop.take, PPBFullState.measured,
        ChannelState.measured, upTo, waiting, wordOf, pairOf, h, hhigh]
  · interval_cases n <;> simp at hpair <;> simp [loopAt, StatusLoop.take, PPBFullState.measured,
      ChannelState.measured, upTo, waiting, wordOf, pairOf, h]

end

section
variable (codeToVSWR : Nat → UInt16 → FloatBits) (mask : UInt32) (bits : List Nat)
  (blocks : List Bytes) (l : StatusLoop) {bit : Nat}

theorem statusLoop_of_unset (h : mask &&& (1 : UInt32) <<< bit.toUInt32 = 0) :
    statusLoop codeToVSWR mask (bit :: bits) blocks l = statusLoop codeToVSWR mask bits blocks l := by
  rw [statusLoop.eq_def]
  exact if_pos h

theorem statusLoop_of_set (h : ¬ mask &&& (1 : UInt32) <<< bit.toUInt32 = 0) (high low : UInt8) :
    statusLoop codeToVSWR mask (bit :: bits) ([high, low] :: blocks) l =
      statusLoop codeToVSWR mask bits blocks (l.take codeToVSWR bit high low) := by
  rw [statusLoop.eq_def]
  exact if_neg h

end

/-- A walk over words that are all there. -/
theorem statusLoop_words (codeToVSWR : Nat → UInt16 → FloatBits) (mask : UInt32)
    (bytes : Nat → Option (UInt8 × UInt8)) (word : Nat → Bytes) (old : PPBFullState)
    (address : UInt16) {first count : Nat} (hbits : first + count ≤ 24)
    (hset : ∀ bit < 24, mask.toNat.testBit bit = (bytes bit).isSome)
    (hword : ∀ bit < 24, ∀ b, bytes bit = some b → word bit = [b.1, b.2]) :
    statusLoop codeToVSWR mask (List.range' first count)
      (((List.range' first count).filter fun bit => mask.toNat.testBit bit).map word)
      (loopAt codeToVSWR bytes old address mask first) =
    loopAt codeToVSWR bytes old address mask (first + count) := by
  induction count generalizing first with
  | zero => rfl
  | succ count ih =>
    have hrest := @ih (first + 1) (by omega)
    have hsum : first + 1 + count = first + (count + 1) := by omega
    rw [hsum] at hrest
    rw [List.range'_succ]
    have hfirst := hset first (by omega)
    cases hbytes : bytes first with
    | none =>
      rw [hbytes] at hfirst
      rw [List.filter_cons_of_neg (by simpa using hfirst),
        statusLoop_of_unset _ _ _ _ _ ((and_shiftLeft_eq_zero_iff mask (by omega)).mpr hfirst),
        ← loopAt_succ_of_none codeToVSWR bytes old address mask hbytes]
      exact hrest
    | some b =>
      rw [hbytes] at hfirst
      have hmeets : ¬ mask &&& (1 : UInt32) <<< first.toUInt32 = 0 := by
        rw [and_shiftLeft_eq_zero_iff mask (by omega), hfirst]
        exact Bool.noConfusion
      rw [List.filter_cons_of_pos (by simpa using hfirst), List.map_cons,
        hword first (by omega) b hbytes, statusLoop_of_set _ _ _ _ _ hmeets, ← hrest,
        loopAt_succ_of_some codeToVSWR bytes old address mask (by omega) hbytes]

/-! Both. -/

theorem take_two_drop {xs : Bytes} {offset : Nat} (h : offset + 2 ≤ xs.length) :
    (xs.drop offset).take 2 = [xs.getD offset 0, xs.getD (offset + 1) 0] := by
  rw [List.drop_eq_getElem_cons (by omega), List.take_succ_cons,
    List.drop_eq_getElem_cons (by omega), List.take_succ_cons, List.take_zero]
  simp [List.getD_eq_getElem?_getD, List.getElem?_eq_getElem (show offset < xs.length by omega),
    List.getElem?_eq_getElem (show offset + 1 < xs.length by omega)]

theorem carried_isSome (payload : Bytes) (bit : Nat) :
    (carried payload bit).isSome = (statusMask payload).toNat.testBit bit := by
  simp only [carried]
  cases (statusMask payload).toNat.testBit bit <;> rfl

theorem carried_word {payload : Bytes} {bit : Nat} {b : UInt8 × UInt8} (hbit : bit < 24)
    (hlong : wordOffset (statusMask payload) 24 ≤ payload.length) (h : carried payload bit = some b) :
    (payload.drop (wordOffset (statusMask payload) bit)).take 2 = [b.1, b.2] := by
  have hset : (statusMask payload).toNat.testBit bit = true := by
    rw [← carried_isSome, h]
    rfl
  have hsucc := wordOffset_succ (statusMask payload) (show bit + 1 < 32 by omega)
  rw [if_pos hset] at hsucc
  have hmono := wordOffset_mono (statusMask payload) (show bit + 1 + (24 - (bit + 1)) < 32 by omega)
  rw [show bit + 1 + (24 - (bit + 1)) = 24 by omega] at hmono
  simp only [carried, if_pos hset, Option.some.injEq] at h
  rw [take_two_drop (by omega), ← h]

theorem addressToIndex_single (i : Fin 16) : addressToIndex (1 <<< i.val.toUInt16) = some i := by
  decide +revert

section
variable (codeToVSWR : Nat → UInt16 → FloatBits) (old : PPBFullState) (address : UInt16)
  (mask : UInt32)

theorem loopAt_zero (bytes : Nat → Option (UInt8 × UInt8)) :
    loopAt codeToVSWR bytes old address mask 0 =
      { state := { old with addressMask := address, validationMask := mask } } := by
  simp [loopAt, PPBFullState.measured, ChannelState.measured, upTo, waiting, wordOf, pairOf]

/-- Only the bits up to 16 mean something. -/
theorem loopAt_end (bytes : Nat → Option (UInt8 × UInt8)) :
    (loopAt codeToVSWR bytes old address mask 24).state =
      old.measured codeToVSWR bytes address mask := by
  simp [loopAt, PPBFullState.measured, upTo, wordOf, pairOf]

theorem statusLoop_statusWords {payload : Bytes}
    (hlong : wordOffset (statusMask payload) 24 ≤ payload.length) :
    (statusLoop codeToVSWR (statusMask payload) (List.range 24) (statusWords payload)
      { state := { old with addressMask := address, validationMask := statusMask payload } }).state =
    old.measured codeToVSWR (carried payload) address (statusMask payload) := by
  have hwalk := @statusLoop_words codeToVSWR (statusMask payload) (carried payload)
    (fun bit => (payload.drop (wordOffset (statusMask payload) bit)).take 2) old address 0 24
    (by omega) (fun bit _ => (carried_isSome payload bit).symm)
    (fun bit hbit b hb => carried_word hbit hlong hb)
  rw [← loopAt_zero codeToVSWR old address (statusMask payload) (carried payload), statusWords,
    List.range_eq_range', hwalk]
  exact loopAt_end codeToVSWR old address (statusMask payload) (carried payload)

end

namespace PPBController

theorem onStatusReceived_realStates (codeToVSWR : Nat → UInt16 → FloatBits) (d : PpbData)
    (i : Fin 16) {payload : Bytes}
    (hlong : wordOffset (statusMask payload) 24 ≤ payload.length) :
    (onStatusReceived codeToVSWR d (1 <<< i.val.toUInt16) (statusMask payload)
      (statusWords payload)).realStates =
    Function.update d.realStates i ((d.realStates i).measured codeToVSWR (carried payload)
      (1 <<< i.val.toUInt16) (statusMask payload)) := by
  generalize hnamed : (if d.currentAddress = 0 then
    { d with currentAddress := 1 <<< i.val.toUInt16 } else d) = named
  have hstates : named.realStates = d.realStates := by
    rw [← hnamed]
    split <;> rfl
  simp only [onStatusReceived, hnamed, processStatusData, addressToIndex_single, hstates,
    statusLoop_statusWords codeToVSWR _ _ hlong]
  split <;> rfl

end PPBController

namespace Engine

/-- A status payload is accepted exactly if it has room for the words of the set bits. When the TS
in flight completes with the result, the status is reported once, and where the controller takes the
report the state of that PPB has what the payload carries for each bit; nothing else changes. -/
theorem status_aligned (codeToVSWR : Nat → UInt16 → FloatBits) (payload : Bytes)
    (more : List Bytes) :
    ((∃ message parsed, statusCommand.parseResponseData (payload :: more) =
        .ok (message, parsed)) ↔
      4 + 2 * popcount (statusMask payload &&& 0xFFFFFF) ≤ payload.length) ∧
    ∀ message parsed, statusCommand.parseResponseData (payload :: more) = .ok (message, parsed) →
      ∀ (s : Engine) (i : Fin 16) (c : PPBContext) (request : Request) (text : String),
        InFlight s (1 <<< i.val.toUInt16) c request → request.command.commandId = .ts →
        c.parsedData = parsed →
        ∃ mask blocks before after,
          (s.completeOperation (1 <<< i.val.toUInt16) true text).history = s.history ++ (before ++
            .statusReceived (request.operation (1 <<< i.val.toUInt16)) mask blocks :: after) ∧
          (∀ o ∈ before ++ after, ∀ op mask blocks, o ≠ .statusReceived op mask blocks) ∧
          ∀ d : PpbData, (PPBController.onStatusReceived codeToVSWR d (1 <<< i.val.toUInt16) mask
              blocks).realStates =
            Function.update d.realStates i ((d.realStates i).measured codeToVSWR (carried payload)
              (1 <<< i.val.toUInt16) (statusMask payload)) := by
  constructor
  · constructor
    · intro ⟨message, parsed, h⟩
      exact (parseStatus_eq_ok_iff.mp ⟨message, h⟩).1
    · intro hlong
      obtain ⟨message, h⟩ := parseStatus_eq_ok_iff.mpr ⟨hlong, rfl⟩
      exact ⟨message, _, h⟩
  · intro message parsed h s i c request text hflight hts hparsed
    obtain ⟨hlong, hwords⟩ := parseStatus_eq_ok_iff.mp ⟨message, h⟩
    rw [four_add_popcount_low] at hlong
    have hreported := reported_of_starts (view_completeOperation true text hflight)
    obtain ⟨new, hhistory, hnested⟩ := hreported.history
    have hts : (request.operation (1 <<< i.val.toUInt16)).command = .ts := hts
    have hreport : reportOf (request.operation (1 <<< i.val.toUInt16)) c true text =
        [.commandCompleted (request.operation (1 <<< i.val.toUInt16)) true (finalMessage c text),
          .commandDataParsed (request.operation (1 <<< i.val.toUInt16))
            (.status (statusMask payload) (statusWords payload))] ++
        [.statusReceived (request.operation (1 <<< i.val.toUInt16)) (statusMask payload)
          (statusWords payload)] := by
      simp [reportOf, hparsed, hwords, hts, statusOf]
    rw [hreport, List.append_assoc] at hhistory
    refine ⟨statusMask payload, statusWords payload, _, new, hhistory, ?_, fun d =>
      PPBController.onStatusReceived_realStates codeToVSWR d i hlong⟩
    intro o ho op mask blocks heq
    subst heq
    rcases List.mem_append.mp ho with hbefore | hafter
    · simp at hbefore
    · exact Bool.noConfusion (hnested _ hafter)

/-- A TS in flight at PPB 0, whose status has the two words of a power of 10 W. -/
theorem status_aligned_power : ∃ mask blocks, (PPBController.onStatusReceived (fun _ _ => 0) {} 1 mask
    blocks).realStates 0 =
      { ({} : PPBFullState) with
        addressMask := 1
        validationMask := 6
        ch1 := { powerCode := 0x41200000, power := 0x41200000 } } := by
  have haligned := (status_aligned (fun _ _ => 0) [0, 0, 0, 6, 0x41, 0x20, 0, 0] []).2 _ _ rfl
    (setContext { udpClient := none } 1
      { currentCommand := some ⟨.single 0, .statusCommand⟩
        parsedData := some (.status 6 [[0x41, 0x20], [0, 0]]) })
    0 _ ⟨.single 0, .statusCommand⟩ "" ⟨rfl, rfl, rfl⟩ rfl rfl
  obtain ⟨mask, blocks, before, after, -, -, hstates⟩ := haligned
  exact ⟨mask, blocks, (congrFun (hstates {}) 0).trans (by decide)⟩

end Engine

end PPB
