import Mathlib.Tactic.IntervalCases
import PPBProject.Emissions
import PPBProject.FloatingPoint
import PPBProject.Steps

/- The two front ends for an FU request: the widget of the GUI and the Lua wrappers. Both take a
   pulse duration and a duty cycle in percent, both call `PPBController::setFU…` with three
   bytes, and both should send the request of the protocol's description.

   Correspondence (C++ ↔ Lean):
     `lineEdit…->text().toUInt(&ok)`                 ↔ `Option UInt32`
     `sendFuCommand`, taken by `TesterWindow`         ↔ `sendFuCommand`
     the body shared by both `luaSetFU…` wrappers     ↔ `encodeFU`
   The answer of the bridge, for which the wrappers wait, comes later and is left out. -/
namespace PPB

/-- The request as the protocol describes it. -/
def fuLayout (address : UInt16) (mode : FuCommand) (duration : UInt16) (duty : UInt8) : Bytes :=
  [(address >>> 8).toUInt8, address.toUInt8, mode.code, Sign.fu.code, (duration >>> 8).toUInt8,
    (duration >>> 8).toUInt8, duration.toUInt8, duty]

/-! The GUI. -/

namespace FuWidget

/-- `(dur / static_cast<float>(duty)) * 100.0f - dur`. -/
def zeroDuration (dur duty : UInt32) : ℚ :=
  toFloat (toFloat (toFloat (toFloat dur.toNat / toFloat duty.toNat) * 100) - toFloat dur.toNat)

/-- What a click emits. -/
def onFuBtnSentClicked (mode : FuCommand) (dur duty : Option UInt32) :
    Option (FuCommand × UInt16 × (UInt8 × UInt8 × UInt8)) :=
  match dur, duty with
  | some dur, some duty =>
    if dur < 1 ∨ 27000 < dur ∨ duty < 1 ∨ 99 < duty then none
    else if 65536 ≤ zeroDuration dur duty then none
    else some (mode, dur.toUInt16, (dur.toUInt16 >>> 8).toUInt8, dur.toUInt8, duty.toUInt8)
  | _, _ => none

end FuWidget

namespace PPBController

/-- The slot of `TesterWindow`, for the selected addresses. -/
def sendFuCommand (c : PPBController) (addresses : List UInt16)
    (command : FuCommand × UInt16 × (UInt8 × UInt8 × UInt8)) (answers : Answers) :
    PPBController :=
  addresses.foldl (fun c address =>
    match command.1 with
    | .receive => c.setFUReceive address command.2.1 command.2.2 answers
    | .transmit => c.setFUTransmit address command.2.1 command.2.2 answers
    | .receiveTransmit => c.setFUReceiveTransmit address command.2.1 command.2.2 answers) c

end PPBController

/-! Lua. -/

namespace ScenarioEngine

/-- `(static_cast<double>(duration) * 100.0 / dutyCycle) - duration`. -/
def zeroDuration (duration dutyCycle : UInt16) : ℚ :=
  toDouble (toDouble (toDouble (duration.toNat * 100) / dutyCycle.toNat) - duration.toNat)

/-- `(zeroDuration - whole) * 100.0 + 0.5`. -/
def hundredthsOf (zeroDuration : ℚ) (whole : ℤ) : ℚ :=
  toDouble (toDouble (toDouble (zeroDuration - whole) * 100) + 1 / 2)

/-- The three bytes of `luaSetFUReceive` and `luaSetFUTransmit`: whole microseconds and
hundredths of the zero. -/
def encodeFU (duration dutyCycle : UInt16) : Option (UInt8 × UInt8 × UInt8) :=
  if duration < 1 ∨ 27000 < duration ∨ dutyCycle < 1 ∨ 99 < dutyCycle then none
  else
    let zeroDuration := zeroDuration duration dutyCycle
    if zeroDuration < 0 ∨ 65536 ≤ zeroDuration then none
    else
      let whole := ⌊zeroDuration⌋
      let hundredths := ⌊hundredthsOf zeroDuration whole⌋
      let (whole, hundredths) := if 100 ≤ hundredths then (whole + 1, 0) else (whole, hundredths)
      if 65536 ≤ whole then none
      else some ((whole.toNat >>> 8).toUInt8, whole.toNat.toUInt8, hundredths.toNat.toUInt8)

/-- The command `luaSetFUReceive` launches. -/
def luaSetFUReceive (c : PPBController) (address duration dutyCycle : UInt16) (answers : Answers) :
    PPBController :=
  match encodeFU duration dutyCycle with
  | some encoded => c.setFUReceive address duration encoded answers
  | none => c

/-- The command `luaSetFUTransmit` launches. -/
def luaSetFUTransmit (c : PPBController) (address duration dutyCycle : UInt16)
    (answers : Answers) : PPBController :=
  match encodeFU duration dutyCycle with
  | some encoded => c.setFUTransmit address duration encoded answers
  | none => c

/-- The wrapper for a mode; there is none for both at once. -/
def luaSetFU (c : PPBController) (mode : FuCommand) (address duration dutyCycle : UInt16)
    (answers : Answers) : PPBController :=
  match mode with
  | .receive => luaSetFUReceive c address duration dutyCycle answers
  | .transmit => luaSetFUTransmit c address duration dutyCycle answers
  | .receiveTransmit => c

end ScenarioEngine

/-! The requests that result. -/

/-- The packet of an FU call. -/
def Entry.fuRequest? : Entry → Option Bytes
  | .call _ (.sendFU mode address period fuData) =>
    some (createFURequest address mode.code period fuData)
  | _ => none

/-- The FU requests that the controller has asked for between two states. -/
def PPBController.fuRequests (c c' : PPBController) : List Bytes :=
  (c'.log.drop c.log.length).filterMap Entry.fuRequest?

/-- The engine hands this very packet to UDP. -/
theorem Engine.log_sendFU {s : Engine} {client : UdpClient} (hclient : s.udpClient = some client)
    (mode : FuCommand) (address : UInt16) (period : UInt8)
    (fuData : Option (UInt8 × UInt8 × UInt8)) :
    ∃ (destination : Destination) (errors : List String),
      (s.handle (.sendFU mode address period fuData)).log = s.log ++
        .datagramSent destination (createFURequest address mode.code period fuData) ::
          errors.map .errorOccurred := by
  have hsent : s.sendFU mode address period fuData =
      (s.handToUdp client (createFURequest address mode.code period fuData)).1 := by
    unfold Engine.sendFU Engine.sendPacketInternal
    rw [hclient]
  have hhandled : s.handle (.sendFU mode address period fuData) =
      s.sendFU mode address period fuData := by
    cases mode <;> rfl
  rw [hhandled, hsent]
  exact s.log_handToUdp client _

/-! The numbers. -/

section
variable {n d : ℕ}

theorem abs_toDouble_sub_le {q bound : ℚ} (h : |q| ≤ bound) :
    |toDouble q - q| ≤ bound / 2 ^ 53 := abs_roundBinary_sub_le_of_le h

/-- Three roundings hardly matter. -/
theorem abs_zeroDuration_sub_le (hn : n ≤ 27000) (hd : 1 ≤ d) :
    |toDouble (toDouble (toDouble (n * 100) / d) - n) - ((n : ℚ) * 100 / d - n)| ≤ 1 / 2 ^ 28 := by
  have hn' : (n : ℚ) ≤ 27000 := by exact_mod_cast hn
  have hpos : (0 : ℚ) ≤ n := Nat.cast_nonneg n
  have hd' : (1 : ℚ) ≤ d := by exact_mod_cast hd
  have hproduct : |toDouble (n * 100) - (n : ℚ) * 100| ≤ 2 ^ 22 / 2 ^ 53 := by
    apply abs_toDouble_sub_le
    rw [abs_of_nonneg (by positivity)]
    linarith
  have hproduct' := abs_le.mp hproduct
  have hquotient : |toDouble (toDouble (n * 100) / d) - toDouble (n * 100) / d| ≤
      2 ^ 22 / 2 ^ 53 := by
    apply abs_toDouble_sub_le
    rw [abs_div, abs_of_nonneg (by linarith : (0 : ℚ) ≤ d)]
    calc |toDouble (n * 100)| / d ≤ |toDouble (n * 100)| := div_le_self (abs_nonneg _) hd'
      _ ≤ 2 ^ 22 := by
        rw [abs_le]
        constructor <;> linarith
  have hscaled : |toDouble (n * 100) / d - (n : ℚ) * 100 / d| ≤ 2 ^ 22 / 2 ^ 53 := by
    rw [← sub_div, abs_div, abs_of_nonneg (by linarith : (0 : ℚ) ≤ d)]
    exact (div_le_self (abs_nonneg _) hd').trans hproduct
  have hexact : (n : ℚ) * 100 / d ≤ 2700000 :=
    (div_le_self (by positivity) hd').trans (by linarith)
  have hexact' : (0 : ℚ) ≤ (n : ℚ) * 100 / d := by positivity
  have hquotient' := abs_le.mp hquotient
  have hscaled' := abs_le.mp hscaled
  have hdifference : |toDouble (toDouble (toDouble (n * 100) / d) - n) -
      (toDouble (toDouble (n * 100) / d) - n)| ≤ 2 ^ 22 / 2 ^ 53 := by
    apply abs_toDouble_sub_le
    rw [abs_le]
    constructor <;> linarith
  have hdifference' := abs_le.mp hdifference
  rw [abs_le]
  constructor <;> linarith

theorem abs_hundredthsOf_sub_le {zero : ℚ} {whole : ℤ} (hbelow : (whole : ℚ) ≤ zero)
    (habove : zero < whole + 1) :
    |ScenarioEngine.hundredthsOf zero whole - ((zero - whole) * 100 + 1 / 2)| ≤ 1 / 2 ^ 40 := by
  have hfraction : |toDouble (zero - whole) - (zero - whole)| ≤ 1 / 2 ^ 53 := by
    apply abs_toDouble_sub_le
    rw [abs_le]
    constructor <;> linarith
  have hfraction' := abs_le.mp hfraction
  have hscaled : |toDouble (toDouble (zero - whole) * 100) - toDouble (zero - whole) * 100| ≤
      2 ^ 7 / 2 ^ 53 := by
    apply abs_toDouble_sub_le
    rw [abs_le]
    constructor <;> linarith
  have hscaled' := abs_le.mp hscaled
  have hsum : |toDouble (toDouble (toDouble (zero - whole) * 100) + 1 / 2) -
      (toDouble (toDouble (zero - whole) * 100) + 1 / 2)| ≤ 2 ^ 7 / 2 ^ 53 := by
    apply abs_toDouble_sub_le
    rw [abs_le]
    constructor <;> linarith
  have hsum' := abs_le.mp hsum
  unfold ScenarioEngine.hundredthsOf
  rw [abs_le]
  constructor <;> linarith

/-- The whole microseconds of the zero are the duration and its hundredths the duty cycle for one
pair only. -/
theorem eq_of_zero_eq (hn : 1 ≤ n) (hd : 1 ≤ d) (hd' : d ≤ 99) {zero : ℚ}
    (hzero : |zero - ((n : ℚ) * 100 / d - n)| ≤ 1 / 2 ^ 28) (hwhole : ⌊zero⌋ = n)
    (hhundredths : ⌊ScenarioEngine.hundredthsOf zero n⌋ = d) : n = 12 ∧ d = 49 := by
  obtain ⟨hbelow, habove⟩ := Int.floor_eq_iff.mp hwhole
  obtain ⟨hbelow', habove'⟩ := Int.floor_eq_iff.mp hhundredths
  have herror := abs_le.mp (abs_hundredthsOf_sub_le hbelow habove)
  have hzero' := abs_le.mp hzero
  have hpos : (0 : ℚ) < d := by exact_mod_cast hd
  have hsmall : (d : ℚ) ≤ 99 := by exact_mod_cast hd'
  push_cast at hbelow habove hbelow' habove' herror
  -- multiplied by the duty cycle, everything is a whole number, up to a tenth
  have hquotient : (n : ℚ) * 100 / d * d = n * 100 := by field_simp
  have hlow : ((n : ℚ) * 100 / d - n) - n ≥ (d - 1 / 2) / 100 - 1 / 2 ^ 20 := by linarith
  have hhigh : ((n : ℚ) * 100 / d - n) - n ≤ (d + 1 / 2) / 100 + 1 / 2 ^ 20 := by linarith
  have hlow' : (2 * d * d : ℚ) - d ≤ 200 * n * (100 - 2 * d) + 1 / 10 := by
    have hscaled := mul_le_mul_of_nonneg_right hlow hpos.le
    nlinarith only [hscaled, hquotient, hsmall, hpos]
  have hhigh' : 200 * n * (100 - 2 * d) ≤ (2 * d * d : ℚ) + d + 1 / 10 := by
    have hscaled := mul_le_mul_of_nonneg_right hhigh hpos.le
    nlinarith only [hscaled, hquotient, hsmall, hpos]
  have hlow'' : (2 * d * d : ℤ) - d ≤ 200 * n * (100 - 2 * d) := by
    by_contra hlt
    have hcast : (200 * n * (100 - 2 * d) : ℚ) + 1 ≤ 2 * d * d - d := by
      exact_mod_cast Int.add_one_le_of_lt (not_le.mp hlt)
    linarith
  have hhigh'' : (200 * n * (100 - 2 * d) : ℤ) ≤ 2 * d * d + d := by
    by_contra hlt
    have hcast : (2 * d * d + d : ℚ) + 1 ≤ 200 * n * (100 - 2 * d) := by
      exact_mod_cast Int.add_one_le_of_lt (not_le.mp hlt)
    linarith
  clear * - hn hd hd' hlow'' hhigh''
  interval_cases d <;> omega

/-- There it is so. -/
theorem zero_eq_of_twelve {zero : ℚ} (hzero : |zero - ((12 : ℚ) * 100 / 49 - 12)| ≤ 1 / 2 ^ 28) :
    ⌊zero⌋ = 12 ∧ ⌊ScenarioEngine.hundredthsOf zero 12⌋ = 49 := by
  have hzero' := abs_le.mp hzero
  have hbelow : ((12 : ℤ) : ℚ) ≤ zero := by
    push_cast
    linarith
  have habove : zero < (12 : ℤ) + 1 := by
    push_cast
    linarith
  have herror := abs_le.mp (abs_hundredthsOf_sub_le hbelow habove)
  push_cast at herror
  constructor
  · exact Int.floor_eq_iff.mpr ⟨hbelow, habove⟩
  · rw [Int.floor_eq_iff]
    push_cast
    constructor <;> linarith

end

/-! The bytes. -/

theorem toNat_eq_of_bytes {whole : ℕ} {duration : UInt16} (hwhole : whole < 65536)
    (hhigh : (whole >>> 8).toUInt8 = (duration >>> 8).toUInt8)
    (hlow : whole.toUInt8 = duration.toUInt8) : whole = duration.toNat := by
  have hhigh' := congrArg UInt8.toNat hhigh
  have hlow' := congrArg UInt8.toNat hlow
  have hduration := duration.toNat_lt
  have hshift : UInt16.toNat 8 % 16 = 8 := rfl
  norm_num [UInt16.toNat_shiftRight, Nat.shiftRight_eq_div_pow, hshift] at hhigh' hlow'
  omega

theorem eq_toNat_of_byte {n : ℕ} {duty : UInt16} (hn : n < 256) (hduty : duty.toNat < 256)
    (h : n.toUInt8 = duty.toUInt8) : n = duty.toNat := by
  have hnat := congrArg UInt8.toNat h
  norm_num at hnat
  omega

namespace ScenarioEngine

/-- The Lua wrappers encode the bytes of the protocol's description for one pair only. -/
theorem encodeFU_eq_iff (duration dutyCycle : UInt16) :
    encodeFU duration dutyCycle =
        some ((duration >>> 8).toUInt8, duration.toUInt8, dutyCycle.toUInt8) ↔
      duration = 12 ∧ dutyCycle = 49 := by
  constructor
  · intro hencode
    unfold encodeFU at hencode
    split at hencode
    next => cases hencode
    next hrange =>
      simp only [UInt16.lt_iff_toNat_lt, UInt16.toNat_ofNat, not_or, not_lt] at hrange
      norm_num at hrange
      obtain ⟨hlong, hlong', hduty, hduty'⟩ := hrange
      have hzero := @abs_zeroDuration_sub_le duration.toNat dutyCycle.toNat hlong' (by omega)
      dsimp only at hencode
      change |zeroDuration duration dutyCycle - _| ≤ _ at hzero
      generalize zeroDuration duration dutyCycle = zero at hencode hzero
      split at hencode
      next => cases hencode
      next hsign =>
        rw [not_or, not_lt, not_le] at hsign
        have hnonneg : 0 ≤ ⌊zero⌋ := Int.floor_nonneg.mpr hsign.1
        have hbelow := Int.floor_le zero
        have habove := Int.lt_floor_add_one zero
        have herror := abs_le.mp (abs_hundredthsOf_sub_le hbelow habove)
        have hpositive : 0 ≤ ⌊hundredthsOf zero ⌊zero⌋⌋ := by
          apply Int.floor_nonneg.mpr
          linarith
        split at hencode
        next hcarry =>
          -- after a carry there are no hundredths, but the duty cycle is not zero
          dsimp only at hencode
          split at hencode
          next => cases hencode
          next =>
            simp only [Option.some.injEq, Prod.mk.injEq] at hencode
            have hlast := hencode.2.2
            have hduty'' := eq_toNat_of_byte (Nat.zero_lt_succ _) (by omega) hlast
            omega
        next hcarry =>
          dsimp only at hencode
          split at hencode
          next => cases hencode
          next hwhole =>
            simp only [Option.some.injEq, Prod.mk.injEq] at hencode
            obtain ⟨hhigh, hlow, hlast⟩ := hencode
            have hn := toNat_eq_of_bytes (by omega) hhigh hlow
            have hd := eq_toNat_of_byte (by omega) (by omega) hlast
            have hwhole' : ⌊zero⌋ = duration.toNat := by omega
            have hhundredths : ⌊hundredthsOf zero duration.toNat⌋ = dutyCycle.toNat := by
              rw [← hwhole']
              omega
            obtain ⟨hn', hd'⟩ := eq_of_zero_eq hlong hduty hduty' hzero hwhole' hhundredths
            exact ⟨UInt16.toNat_inj.mp hn', UInt16.toNat_inj.mp hd'⟩
  · rintro ⟨rfl, rfl⟩
    have hzero : |zeroDuration 12 49 - ((12 : ℚ) * 100 / 49 - 12)| ≤ 1 / 2 ^ 28 := by
      have herror := @abs_zeroDuration_sub_le 12 49 (by norm_num) (by norm_num)
      change |zeroDuration 12 49 - _| ≤ _ at herror
      exact_mod_cast herror
    obtain ⟨hwhole, hhundredths⟩ := zero_eq_of_twelve hzero
    obtain ⟨hbelow, habove⟩ := Int.floor_eq_iff.mp hwhole
    push_cast at hbelow habove
    have hsign : ¬(zeroDuration 12 49 < 0 ∨ 65536 ≤ zeroDuration 12 49) := by
      rw [not_or, not_lt, not_le]
      constructor <;> linarith
    unfold encodeFU
    rw [if_neg (by decide)]
    dsimp only
    rw [if_neg hsign, hwhole, hhundredths]
    rfl

end ScenarioEngine

/-! Both front ends. -/

namespace PPBController

variable {c : PPBController} {communication : CommunicationId} {answers : Answers}
  {mode : FuCommand}

/-- A call that is not refused asks for one request. -/
theorem fuRequests_setFU (hfirmware : c.firmware = none)
    (hcommunication : c.communication = some communication) (hidle : answers.busy = false)
    (mode : FuCommand) (address duration : UInt16) (encoded : UInt8 × UInt8 × UInt8) :
    c.fuRequests (c.setFU mode address duration encoded answers) =
      [createFURequest address mode.code (duration >>> 8).toUInt8 (some encoded)] := by
  have hlog : (c.setFU mode address duration encoded answers).log = c.log ++
      [.call communication (.sendFU mode address (duration >>> 8).toUInt8 (some encoded))] := by
    simp [setFU, guarded, commandBlockedByFirmwareUpdate, hfirmware, hidle, callCommunication,
      hcommunication, emit]
  unfold fuRequests
  rw [hlog, List.drop_left]
  rfl

/-- The GUI sends what the protocol describes. -/
theorem fuRequests_sendFuCommand (hfirmware : c.firmware = none)
    (hcommunication : c.communication = some communication) (hidle : answers.busy = false)
    (address : UInt16) {duration dutyCycle : UInt16} {command}
    (hclick : FuWidget.onFuBtnSentClicked mode (some duration.toUInt32) (some dutyCycle.toUInt32) =
      some command) :
    c.fuRequests (c.sendFuCommand [address] command answers) =
      [fuLayout address mode duration dutyCycle.toUInt8] := by
  have hcommand : command = (mode, duration, (duration >>> 8).toUInt8, duration.toUInt8,
      dutyCycle.toUInt8) := by
    unfold FuWidget.onFuBtnSentClicked at hclick
    dsimp only at hclick
    split at hclick
    next => cases hclick
    next =>
      split at hclick
      next => cases hclick
      next =>
        rw [← Option.some.inj hclick]
        simp
  have hsent : c.sendFuCommand [address] command answers = c.setFU mode address duration
      ((duration >>> 8).toUInt8, duration.toUInt8, dutyCycle.toUInt8) answers := by
    rw [hcommand]
    cases mode <;> rfl
  rw [hsent]
  exact fuRequests_setFU hfirmware hcommunication hidle mode address duration _

/-- Lua sends the bytes that it has encoded. -/
theorem fuRequests_luaSetFU (hfirmware : c.firmware = none)
    (hcommunication : c.communication = some communication) (hidle : answers.busy = false)
    (hmode : mode ≠ .receiveTransmit) (address : UInt16) {duration dutyCycle : UInt16} {encoded}
    (hencode : ScenarioEngine.encodeFU duration dutyCycle = some encoded) :
    c.fuRequests (ScenarioEngine.luaSetFU c mode address duration dutyCycle answers) =
      [createFURequest address mode.code (duration >>> 8).toUInt8 (some encoded)] := by
  have hlaunched : ScenarioEngine.luaSetFU c mode address duration dutyCycle answers =
      c.setFU mode address duration encoded answers := by
    cases mode with
    | receive =>
      simp [ScenarioEngine.luaSetFU, ScenarioEngine.luaSetFUReceive, hencode, setFUReceive]
    | transmit =>
      simp [ScenarioEngine.luaSetFU, ScenarioEngine.luaSetFUTransmit, hencode, setFUTransmit]
    | receiveTransmit => exact absurd rfl hmode
  rw [hlaunched]
  exact fuRequests_setFU hfirmware hcommunication hidle mode address duration encoded

/-- What both front ends accept, they send alike, and as the protocol describes it, for one pair
of duration and duty cycle only: the GUI sends these two, and Lua the length of the zero. -/
theorem fuRequests_agree_iff (hfirmware : c.firmware = none)
    (hcommunication : c.communication = some communication) (hidle : answers.busy = false)
    (hmode : mode ≠ .receiveTransmit) (address duration dutyCycle : UInt16) {command}
    (hclick : FuWidget.onFuBtnSentClicked mode (some duration.toUInt32) (some dutyCycle.toUInt32) =
      some command) (hencode : (ScenarioEngine.encodeFU duration dutyCycle).isSome) :
    c.fuRequests (c.sendFuCommand [address] command answers) =
          c.fuRequests (ScenarioEngine.luaSetFU c mode address duration dutyCycle answers) ∧
        c.fuRequests (ScenarioEngine.luaSetFU c mode address duration dutyCycle answers) =
          [fuLayout address mode duration dutyCycle.toUInt8] ↔
      duration = 12 ∧ dutyCycle = 49 := by
  obtain ⟨encoded, hencoded⟩ := Option.isSome_iff_exists.mp hencode
  have hgui := fuRequests_sendFuCommand hfirmware hcommunication hidle address hclick
  have hlua := fuRequests_luaSetFU hfirmware hcommunication hidle hmode address hencoded
  have hlayout : [createFURequest address mode.code (duration >>> 8).toUInt8 (some encoded)] =
      [fuLayout address mode duration dutyCycle.toUInt8] ↔
      encoded = ((duration >>> 8).toUInt8, duration.toUInt8, dutyCycle.toUInt8) := by
    obtain ⟨first, second, third⟩ := encoded
    simp [createFURequest, createBaseRequest, fuLayout, toBigEndian]
  rw [hgui, hlua, eq_comm, and_self, hlayout, ← ScenarioEngine.encodeFU_eq_iff, hencoded,
    Option.some.injEq]

/-- For that pair. -/
theorem fuRequests_agree_iff_twelve :
    let c : PPBController := { communication := some 7 }
    c.fuRequests (c.sendFuCommand [2] (.receive, 12, (0, 12, 49)) {}) =
          c.fuRequests (ScenarioEngine.luaSetFU c .receive 2 12 49 {}) ∧
        c.fuRequests (ScenarioEngine.luaSetFU c .receive 2 12 49 {}) =
          [fuLayout 2 .receive 12 49] :=
  (fuRequests_agree_iff rfl rfl rfl (by decide) 2 12 49 (by decide +kernel)
    (by decide +kernel)).mpr ⟨rfl, rfl⟩

/-- A pulse of 100 µs at 30 percent: both accept it, and Lua sends the zero of 233.33 µs. -/
theorem fuRequests_differ :
    let c : PPBController := { communication := some 7 }
    FuWidget.onFuBtnSentClicked .receive (some 100) (some 30) =
        some (.receive, 100, (0, 100, 30)) ∧
      c.fuRequests (c.sendFuCommand [2] (.receive, 100, (0, 100, 30)) {}) =
        [[0, 2, FuCommand.receive.code, 1, 0, 0, 100, 30]] ∧
      c.fuRequests (ScenarioEngine.luaSetFU c .receive 2 100 30 {}) =
        [[0, 2, FuCommand.receive.code, 1, 0, 0, 233, 33]] := by
  have hencoded : ScenarioEngine.encodeFU 100 30 = some (0, 233, 33) := by decide +kernel
  refine ⟨by decide +kernel, rfl, ?_⟩
  rw [fuRequests_luaSetFU rfl rfl rfl (by decide) 2 hencoded]
  rfl

end PPBController

end PPB
