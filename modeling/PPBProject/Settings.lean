import PPBProject.Steps
import PPBProject.Lib.Register

/- What `sendTC` sends. Each setting of a PPB is a register: the setters write it, and the first
   status of the PPB initialises its powers, whether or not they have been set. TC carries what
   the user has set exactly where that initialisation lost nothing. -/
namespace PPB

inductive Channel where
  | ch1
  | ch2
  deriving DecidableEq

/-- The number by which `setPowerSetting` knows the channel. -/
def Channel.number : Channel → Int
  | ch1 => 1
  | ch2 => 2

def PpbUserSettings.power (settings : PpbUserSettings) : Channel → FloatBits
  | .ch1 => settings.power1
  | .ch2 => settings.power2

def PPBFullState.power (state : PPBFullState) : Channel → FloatBits
  | .ch1 => state.ch1.power
  | .ch2 => state.ch2.power

inductive SettingsFlag where
  | fuBlocked
  | rebootRequested
  | resetErrors
  | powerEnabled
  deriving DecidableEq

def PpbUserSettings.flag (settings : PpbUserSettings) : SettingsFlag → Bool
  | .fuBlocked => settings.fuBlocked
  | .rebootRequested => settings.rebootRequested
  | .resetErrors => settings.resetErrors
  | .powerEnabled => settings.powerEnabled

/-- The bit of a flag in the flag byte. -/
def SettingsFlag.bit : SettingsFlag → Nat
  | fuBlocked => 0
  | rebootRequested => 1
  | resetErrors => 2
  | powerEnabled => 7

namespace ControllerEvent

/-- The power of a channel of the PPB `i` that the user sets with the event. -/
def setsPower (i : Fin 16) (channel : Channel) : ControllerEvent → Option FloatBits
  | .called (.setPowerSetting ppbIndex ch watts) _ =>
    if ppbIndex.toNat = i ∧ ch = channel.number then some watts else none
  | _ => none

/-- The flag of the PPB `i` that the user sets with the event. -/
def setsFlag (i : Fin 16) (flag : SettingsFlag) : ControllerEvent → Option Bool
  | .called (.setFuBlockedSetting ppbIndex value) _ =>
    if ppbIndex.toNat = i ∧ flag = .fuBlocked then some value else none
  | .called (.setRebootRequestedSetting ppbIndex value) _ =>
    if ppbIndex.toNat = i ∧ flag = .rebootRequested then some value else none
  | .called (.setResetErrorsSetting ppbIndex value) _ =>
    if ppbIndex.toNat = i ∧ flag = .resetErrors then some value else none
  | .called (.setPowerEnabledSetting ppbIndex value) _ =>
    if ppbIndex.toNat = i ∧ flag = .powerEnabled then some value else none
  | _ => none

/-- The power that a status of the PPB `i` reports for a channel: 0 where it has no power. -/
def reportsPower (codeToVSWR : Nat → UInt16 → FloatBits) (i : Fin 16) (channel : Channel) :
    ControllerEvent → Option FloatBits
  | .delivered (.statusReceived address mask blocks) =>
    if address = 1 <<< i.val.toUInt16 then
      some ((statusLoop codeToVSWR mask (List.range 24) blocks { state := {} }).state.power channel)
    else none
  | _ => none

/-- `resetSettingsToReal` for the PPB `i`. -/
def resets (i : Fin 16) : ControllerEvent → Bool
  | .called (.resetSettingsToReal ppbIndex) _ => ppbIndex.toNat = i
  | _ => false

end ControllerEvent

open ControllerEvent

/-- The settings of the PPB `i` as the events make them: what the user has set last, or else the
power of the first status, or 0; a flag is false until it is set. -/
def intendedSettings (codeToVSWR : Nat → UInt16 → FloatBits) (i : Fin 16)
    (events : List ControllerEvent) : PpbUserSettings where
  power1 := Register.intended (setsPower i .ch1) (reportsPower codeToVSWR i .ch1) 0 events
  power2 := Register.intended (setsPower i .ch2) (reportsPower codeToVSWR i .ch2) 0 events
  fuBlocked := Register.intended (setsFlag i .fuBlocked) (fun _ => none) false events
  rebootRequested := Register.intended (setsFlag i .rebootRequested) (fun _ => none) false events
  resetErrors := Register.intended (setsFlag i .resetErrors) (fun _ => none) false events
  powerEnabled := Register.intended (setsFlag i .powerEnabled) (fun _ => none) false events

/-- The twelve bytes carry the settings: two big-endian patterns, the flag byte, three zeros. -/
def Carries (settings : PpbUserSettings) (data : Bytes) : Prop :=
  ∃ p0 p1 p2 p3 q0 q1 q2 q3 flags, data = [p0, p1, p2, p3, q0, q1, q2, q3, flags, 0, 0, 0] ∧
    fromBigEndian32 p0 p1 p2 p3 = settings.power1 ∧
    fromBigEndian32 q0 q1 q2 q3 = settings.power2 ∧
    ∀ bit, flags.toNat.testBit bit = true ↔
      ∃ flag : SettingsFlag, flag.bit = bit ∧ settings.flag flag = true

/-- No status of the PPB `i` has lost a power the user had set: the first status comes before the
power was set, or the power has been set since, or it is the one the status reports. -/
def NothingLost (codeToVSWR : Nat → UInt16 → FloatBits) (i : Fin 16)
    (events : List ControllerEvent) : Prop :=
  ∀ channel, Register.Kept (setsPower i channel) (reportsPower codeToVSWR i channel) events

/-! The packet. -/

namespace PPBController

theorem fromBigEndian32_toBigEndian32 (word : UInt32) :
    fromBigEndian32 (word >>> 24).toUInt8 (word >>> 16).toUInt8 (word >>> 8).toUInt8 word.toUInt8 =
      word := by
  have hlt := word.toNat_lt
  have h24 : (word >>> 24).toUInt8.toNat = word.toNat / 2 ^ 24 % 2 ^ 8 := by
    rw [UInt32.toNat_toUInt8, UInt32.toNat_shiftRight, Nat.shiftRight_eq_div_pow]
    rfl
  have h16 : (word >>> 16).toUInt8.toNat = word.toNat / 2 ^ 16 % 2 ^ 8 := by
    rw [UInt32.toNat_toUInt8, UInt32.toNat_shiftRight, Nat.shiftRight_eq_div_pow]
    rfl
  have h8 : (word >>> 8).toUInt8.toNat = word.toNat / 2 ^ 8 % 2 ^ 8 := by
    rw [UInt32.toNat_toUInt8, UInt32.toNat_shiftRight, Nat.shiftRight_eq_div_pow]
    rfl
  rw [← UInt32.toNat_inj, toNat_fromBigEndian32, h24, h16, h8, UInt32.toNat_toUInt8]
  omega

theorem testBit_ite_two_pow {byte : UInt8} {k : Nat} (hbyte : byte.toNat = 2 ^ k) (value : Bool)
    (bit : Nat) : (if value then byte else 0).toNat.testBit bit = (value && decide (k = bit)) := by
  cases value with
  | false => simp
  | true =>
    rw [if_pos rfl, hbyte, Nat.testBit_two_pow]
    rfl

/-- Each flag has its own bit, and no other bit is set. -/
theorem testBit_stateMask (settings : PpbUserSettings) (bit : Nat) :
    (stateMask settings).toNat.testBit bit = true ↔
      ∃ flag : SettingsFlag, flag.bit = bit ∧ settings.flag flag = true := by
  have hbits : (stateMask settings).toNat.testBit bit =
      (settings.fuBlocked && decide (0 = bit) || settings.rebootRequested && decide (1 = bit) ||
        settings.resetErrors && decide (2 = bit) || settings.powerEnabled && decide (7 = bit)) := by
    rw [stateMask, UInt8.toNat_or, UInt8.toNat_or, UInt8.toNat_or, Nat.testBit_or, Nat.testBit_or,
      Nat.testBit_or, testBit_ite_two_pow (k := 0) rfl, testBit_ite_two_pow (k := 1) rfl,
      testBit_ite_two_pow (k := 2) rfl, testBit_ite_two_pow (k := 7) rfl]
  rw [hbits]
  simp only [Bool.or_eq_true, Bool.and_eq_true, decide_eq_true_eq]
  constructor
  · rintro (((⟨hset, hbit⟩ | ⟨hset, hbit⟩) | ⟨hset, hbit⟩) | ⟨hset, hbit⟩)
    · exact ⟨.fuBlocked, hbit, hset⟩
    · exact ⟨.rebootRequested, hbit, hset⟩
    · exact ⟨.resetErrors, hbit, hset⟩
    · exact ⟨.powerEnabled, hbit, hset⟩
  · intro ⟨flag, hbit, hset⟩
    cases flag with
    | fuBlocked => exact Or.inl (Or.inl (Or.inl ⟨hset, hbit⟩))
    | rebootRequested => exact Or.inl (Or.inl (Or.inr ⟨hset, hbit⟩))
    | resetErrors => exact Or.inl (Or.inr ⟨hset, hbit⟩)
    | powerEnabled => exact Or.inr ⟨hset, hbit⟩

theorem SettingsFlag.bit_injective : Function.Injective SettingsFlag.bit := by
  intro flag flag' h
  cases flag <;> cases flag' <;> first | rfl | cases h

/-- The settings are told by what they say of the channels and the flags. -/
theorem settings_ext {settings settings' : PpbUserSettings}
    (hpower : ∀ channel, settings.power channel = settings'.power channel)
    (hflag : ∀ flag, settings.flag flag = settings'.flag flag) : settings = settings' := by
  cases settings
  cases settings'
  have h1 := hpower .ch1
  have h2 := hpower .ch2
  have hblocked := hflag .fuBlocked
  have hreboot := hflag .rebootRequested
  have hreset := hflag .resetErrors
  have henabled := hflag .powerEnabled
  simp only [PpbUserSettings.power, PpbUserSettings.flag] at *
  rw [h1, h2, hblocked, hreboot, hreset, henabled]

theorem carries_tcPacket (settings : PpbUserSettings) : Carries settings (tcPacket settings) :=
  ⟨_, _, _, _, _, _, _, _, _, rfl, fromBigEndian32_toBigEndian32 _,
    fromBigEndian32_toBigEndian32 _, testBit_stateMask settings⟩

/-- The packet carries the settings it was made of, and no others. -/
theorem carries_tcPacket_iff {settings settings' : PpbUserSettings} :
    Carries settings' (tcPacket settings) ↔ settings = settings' := by
  constructor
  · intro ⟨p0, p1, p2, p3, q0, q1, q2, q3, flags, hdata, hpower1, hpower2, hflags⟩
    have hpacket : [p0, p1, p2, p3, q0, q1, q2, q3, flags, 0, 0, 0] = tcPacket settings :=
      hdata.symm
    simp only [tcPacket, toBigEndian32, List.cons_append, List.nil_append, List.cons.injEq] at hpacket
    obtain ⟨rfl, rfl, rfl, rfl, rfl, rfl, rfl, rfl, rfl, -⟩ := hpacket
    rw [fromBigEndian32_toBigEndian32] at hpower1 hpower2
    apply settings_ext
    · intro channel
      cases channel with
      | ch1 => exact hpower1
      | ch2 => exact hpower2
    · intro flag
      have hbit := (testBit_stateMask settings flag.bit).symm.trans (hflags flag.bit)
      simp only [SettingsFlag.bit_injective.eq_iff, exists_eq_left] at hbit
      exact Bool.eq_iff_iff.mpr hbit
  · intro h
    rw [← h]
    exact carries_tcPacket settings

/-! What the events do to the records about the PPBs. -/

/-- The records that the settings depend on. -/
def records (c : PPBController) :
    (Fin 16 → PPBFullState) × (Fin 16 → PpbUserSettings) × (Fin 16 → Bool) :=
  (c.realStates, c.userSettings, c.settingsInitialized)

theorem records_of_data {c c' : PPBController} (h : c'.data = c.data) : c'.records = c.records :=
  congrArg Prod.fst h

/-- A call that is no edit leaves the records alone. -/
theorem records_take (c : PPBController) (answers : Answers) {call : PublicCall}
    (h : call.edits = false) : (c.take answers call).records = c.records := by
  cases hsaves : call.saves with
  | true =>
    cases call with
    | saveSentPackets | saveReceivedPackets => rfl
    | _ => cases hsaves
  | false => exact records_of_data (data_take answers h hsaves)

end PPBController

/-! The power a status gives. -/

/-- The two loops hold the same powers. -/
structure SamePowers (l l' : StatusLoop) : Prop where
  ch1 : l.state.ch1.power = l'.state.ch1.power
  ch2 : l.state.ch2.power = l'.state.ch2.power
  high1 : l.power1High = l'.power1High
  high2 : l.power2High = l'.power2High

section
variable (codeToVSWR : Nat → UInt16 → FloatBits) {l l' : StatusLoop}

theorem SamePowers.take (h : SamePowers l l') (bit : Nat) (high low : UInt8) :
    SamePowers (l.take codeToVSWR bit high low) (l'.take codeToVSWR bit high low) := by
  obtain ⟨state, high1, high2, vswr1, vswr2⟩ := l
  obtain ⟨state', high1', high2', vswr1', vswr2'⟩ := l'
  obtain ⟨h1, h2, hhigh1, hhigh2⟩ := h
  obtain rfl : high1 = high1' := hhigh1
  obtain rfl : high2 = high2' := hhigh2
  unfold StatusLoop.take
  simp only []
  split
  case h_3 =>
    cases high1 with
    | none => exact ⟨h1, h2, rfl, rfl⟩
    | some _ => exact ⟨rfl, h2, rfl, rfl⟩
  case h_5 =>
    cases high2 with
    | none => exact ⟨h1, h2, rfl, rfl⟩
    | some _ => exact ⟨h1, rfl, rfl, rfl⟩
  case h_15 => cases vswr1 <;> cases vswr1' <;> exact ⟨h1, h2, rfl, rfl⟩
  case h_17 => cases vswr2 <;> cases vswr2' <;> exact ⟨h1, h2, rfl, rfl⟩
  all_goals exact ⟨h1, h2, rfl, rfl⟩

/-- What the powers become does not depend on the rest of the state. -/
theorem SamePowers.statusLoop (mask : UInt32) (bits : List Nat) (blocks : List Bytes)
    (h : SamePowers l l') :
    SamePowers (statusLoop codeToVSWR mask bits blocks l)
      (statusLoop codeToVSWR mask bits blocks l') := by
  induction bits generalizing blocks l l' with
  | nil => exact h
  | cons bit bits ih =>
    rw [statusLoop.eq_def, statusLoop.eq_def codeToVSWR mask (bit :: bits) blocks l']
    simp only []
    split
    · exact ih blocks h
    · split
      · exact h
      · exact ih _ (h.take codeToVSWR bit _ _)
      · exact ih _ h

end

/-! One event. -/

theorem addressToIndex_eq_some_iff {address : UInt16} {i : Fin 16} :
    addressToIndex address = some i ↔ address = 1 <<< i.val.toUInt16 := by
  constructor
  · intro h
    simpa using List.find?_some h
  · intro h
    rw [h]
    exact addressToIndex_single i

namespace PPBController

/-- The powers of a PPB without a status are 0. -/
def Fresh (c : PPBController) (i : Fin 16) : Prop :=
  c.settingsInitialized i = false → ∀ channel, (c.realStates i).power channel = 0

/-- With the event, the settings of the PPB `i` make the steps of registers. -/
structure Tracks (codeToVSWR : Nat → UInt16 → FloatBits) (i : Fin 16) (c : PPBController)
    (e : ControllerEvent) (c' : PPBController) : Prop where
  fresh : c'.Fresh i
  power : ∀ channel, (c'.settingsInitialized i, (c'.userSettings i).power channel) =
    Register.step (setsPower i channel) (reportsPower codeToVSWR i channel)
      (c.settingsInitialized i, (c.userSettings i).power channel) e
  flag : ∀ flag, (false, (c'.userSettings i).flag flag) =
    Register.step (setsFlag i flag) (fun _ => none) (false, (c.userSettings i).flag flag) e

section
variable {codeToVSWR : Nat → UInt16 → FloatBits} {i : Fin 16} {c c' : PPBController}
  {e : ControllerEvent}

/-- The event says nothing about the settings, and what they depend on stays. -/
theorem tracks_of_unchanged (hfresh : c.Fresh i) (hsettings : c'.userSettings i = c.userSettings i)
    (hstarted : c'.settingsInitialized i = c.settingsInitialized i)
    (hpower : ∀ channel, (c'.realStates i).power channel = (c.realStates i).power channel)
    (hsets : ∀ channel, setsPower i channel e = none)
    (hreports : ∀ channel, reportsPower codeToVSWR i channel e = none)
    (hflags : ∀ flag, setsFlag i flag e = none) : Tracks codeToVSWR i c e c' := by
  constructor
  · intro hnot channel
    rw [hstarted] at hnot
    rw [hpower]
    exact hfresh hnot channel
  · intro channel
    rw [hsettings, hstarted]
    simp [Register.step, hsets, hreports]
  · intro flag
    rw [hsettings]
    simp [Register.step, hflags]

theorem tracks_of_records (hfresh : c.Fresh i) (hrecords : c'.records = c.records)
    (hsets : ∀ channel, setsPower i channel e = none)
    (hreports : ∀ channel, reportsPower codeToVSWR i channel e = none)
    (hflags : ∀ flag, setsFlag i flag e = none) : Tracks codeToVSWR i c e c' := by
  have hreal : c'.realStates i = c.realStates i := congrArg (fun r => r.1 i) hrecords
  have hsettings : c'.userSettings i = c.userSettings i := congrArg (fun r => r.2.1 i) hrecords
  have hstarted : c'.settingsInitialized i = c.settingsInitialized i :=
    congrArg (fun r => r.2.2 i) hrecords
  exact tracks_of_unchanged hfresh hsettings hstarted (fun _ => by rw [hreal]) hsets hreports hflags

theorem updateSettings_userSettings (c : PPBController) (ppbIndex : UInt8)
    (change : PpbUserSettings → PpbUserSettings) :
    (c.updateSettings ppbIndex change).userSettings i =
      if ppbIndex.toNat = i then change (c.userSettings i) else c.userSettings i := by
  unfold updateSettings
  by_cases hindex : ppbIndex.toNat = i
  · have hlt : ppbIndex.toNat < 16 := hindex ▸ i.isLt
    have hi : (⟨ppbIndex.toNat, hlt⟩ : Fin 16) = i := Fin.ext hindex
    rw [dif_pos hlt, if_pos hindex, hi]
    exact Function.update_self ..
  · rw [if_neg hindex]
    split
    case isTrue hlt =>
      have hi : i ≠ ⟨ppbIndex.toNat, hlt⟩ := fun h => hindex (congrArg Fin.val h).symm
      exact Function.update_of_ne hi ..
    case isFalse => rfl

/-- An edit of the settings, told by what it does to the powers and the flags. -/
theorem tracks_of_updateSettings (hfresh : c.Fresh i) (ppbIndex : UInt8)
    (change : PpbUserSettings → PpbUserSettings)
    (hreports : ∀ channel, reportsPower codeToVSWR i channel e = none)
    (hpower : ∀ channel, (if ppbIndex.toNat = i then change (c.userSettings i)
        else c.userSettings i).power channel =
      (setsPower i channel e).getD ((c.userSettings i).power channel))
    (hflag : ∀ flag, (if ppbIndex.toNat = i then change (c.userSettings i)
        else c.userSettings i).flag flag =
      (setsFlag i flag e).getD ((c.userSettings i).flag flag)) :
    Tracks codeToVSWR i c e (c.updateSettings ppbIndex change) := by
  have hreal : (c.updateSettings ppbIndex change).realStates = c.realStates := by
    unfold updateSettings
    split <;> rfl
  have hstarted : (c.updateSettings ppbIndex change).settingsInitialized =
      c.settingsInitialized := by
    unfold updateSettings
    split <;> rfl
  constructor
  · unfold Fresh
    rw [hreal, hstarted]
    exact hfresh
  · intro channel
    rw [updateSettings_userSettings, hstarted, hpower]
    cases h : setsPower i channel e <;> simp [Register.step, h, hreports]
  · intro flag
    rw [updateSettings_userSettings, hflag]
    cases h : setsFlag i flag e <;> simp [Register.step, h]

/-- The power that `processStatusData` finds is the one the status reports, if there was none. -/
theorem power_statusLoop {state : PPBFullState} (h : ∀ channel, state.power channel = 0)
    (mask : UInt32) (blocks : List Bytes) (channel : Channel) :
    (statusLoop codeToVSWR mask (List.range 24) blocks { state }).state.power channel =
      (statusLoop codeToVSWR mask (List.range 24) blocks { state := {} }).state.power channel := by
  have hsame : SamePowers { state } { state := {} } := ⟨h .ch1, h .ch2, rfl, rfl⟩
  have hafter := hsame.statusLoop codeToVSWR mask (List.range 24) blocks
  cases channel with
  | ch1 => exact hafter.ch1
  | ch2 => exact hafter.ch2

/-- The records of a PPB, one by one. -/
def recordOf (d : PpbData) (i : Fin 16) : PPBFullState × PpbUserSettings × Bool :=
  (d.realStates i, d.userSettings i, d.settingsInitialized i)

theorem recordOf_processStatusData_other (d : PpbData) {address : UInt16} (mask : UInt32)
    (blocks : List Bytes) (h : addressToIndex address ≠ some i) :
    recordOf (processStatusData codeToVSWR d address mask blocks) i = recordOf d i := by
  unfold processStatusData
  split
  case h_1 => rfl
  case h_2 index hindex =>
    have hne : i ≠ index := fun heq => h (heq ▸ hindex)
    simp only []
    split <;> simp [recordOf, Function.update_of_ne hne]

/-- The state that a status makes of the state of its PPB. -/
def statusState (codeToVSWR : Nat → UInt16 → FloatBits) (d : PpbData) (i : Fin 16)
    (address : UInt16) (mask : UInt32) (blocks : List Bytes) : PPBFullState :=
  (statusLoop codeToVSWR mask (List.range 24) blocks
    { state := { d.realStates i with addressMask := address, validationMask := mask } }).state

theorem recordOf_processStatusData_self (d : PpbData) {address : UInt16} (mask : UInt32)
    (blocks : List Bytes) (h : addressToIndex address = some i) :
    recordOf (processStatusData codeToVSWR d address mask blocks) i =
      (statusState codeToVSWR d i address mask blocks,
        if d.settingsInitialized i then d.userSettings i
        else { d.userSettings i with
          power1 := (statusState codeToVSWR d i address mask blocks).ch1.power
          power2 := (statusState codeToVSWR d i address mask blocks).ch2.power },
        true) := by
  unfold processStatusData
  rw [h]
  cases hstarted : d.settingsInitialized i <;> simp [recordOf, statusState, hstarted]

/-- A status initialises the powers of its PPB if it is the first. -/
theorem tracks_statusReceived (hfresh : c.Fresh i) (address : UInt16) (mask : UInt32)
    (blocks : List Bytes) (hrecord : recordOf c'.toPpbData i =
      recordOf (processStatusData codeToVSWR c.toPpbData address mask blocks) i) :
    Tracks codeToVSWR i c (.delivered (.statusReceived address mask blocks)) c' := by
  by_cases haddress : address = 1 <<< i.val.toUInt16
  · rw [recordOf_processStatusData_self _ _ _ (addressToIndex_eq_some_iff.mpr haddress)] at hrecord
    simp only [recordOf, Prod.mk.injEq] at hrecord
    obtain ⟨-, hsettings, hstarted⟩ := hrecord
    constructor
    · intro hnot
      rw [hstarted] at hnot
      cases hnot
    · intro channel
      have hreport : reportsPower codeToVSWR i channel (.delivered (.statusReceived address mask
          blocks)) = some ((statusLoop codeToVSWR mask (List.range 24) blocks
            { state := {} }).state.power channel) := by
        simp [reportsPower, haddress]
      have hnoset : setsPower i channel (.delivered (.statusReceived address mask blocks)) = none :=
        rfl
      rw [hstarted, hsettings]
      cases hbefore : c.settingsInitialized i with
      | true => simp [Register.step, hnoset, hreport]
      | false =>
        let asked : PPBFullState :=
          { c.realStates i with addressMask := address, validationMask := mask }
        have hfound := @power_statusLoop codeToVSWR asked (hfresh hbefore) mask blocks channel
        simp only [Register.step, hnoset, hreport, Bool.false_eq_true, if_false, ← hfound]
        cases channel <;> rfl
    · intro flag
      have hnoset : setsFlag i flag (.delivered (.statusReceived address mask blocks)) = none := rfl
      rw [hsettings]
      cases c.settingsInitialized i <;> cases flag <;> simp [Register.step, hnoset,
        PpbUserSettings.flag]
  · have hother : addressToIndex address ≠ some i := fun h =>
      haddress (addressToIndex_eq_some_iff.mp h)
    rw [recordOf_processStatusData_other _ _ _ hother] at hrecord
    simp only [recordOf, Prod.mk.injEq] at hrecord
    obtain ⟨hreal, hsettings, hstarted⟩ := hrecord
    have hnoreport (channel : Channel) : reportsPower codeToVSWR i channel
        (.delivered (.statusReceived address mask blocks)) = none := if_neg haddress
    exact tracks_of_unchanged hfresh hsettings hstarted (fun _ => by rw [hreal]) (fun _ => rfl)
      hnoreport fun _ => rfl

/-- An edit of one flag. -/
theorem tracks_flag (hfresh : c.Fresh i) (ppbIndex : UInt8)
    (change : PpbUserSettings → PpbUserSettings) (edited : SettingsFlag) (value : Bool)
    (hpower : ∀ settings channel, (change settings).power channel = settings.power channel)
    (hflag : ∀ settings flag, (change settings).flag flag =
      if flag = edited then value else settings.flag flag)
    (hreports : ∀ channel, reportsPower codeToVSWR i channel e = none)
    (hsets : ∀ channel, setsPower i channel e = none)
    (hsetsFlag : ∀ flag, setsFlag i flag e =
      if ppbIndex.toNat = i ∧ flag = edited then some value else none) :
    Tracks codeToVSWR i c e (c.updateSettings ppbIndex change) := by
  apply tracks_of_updateSettings hfresh ppbIndex change hreports
  · intro channel
    rw [hsets]
    split
    · exact hpower _ channel
    · rfl
  · intro flag
    rw [hsetsFlag]
    by_cases hindex : ppbIndex.toNat = i
    · rw [if_pos hindex, hflag]
      by_cases hedited : flag = edited <;> simp [hindex, hedited]
    · simp [hindex]

theorem tracks_edit (hfresh : c.Fresh i) (answers : Answers) {call : PublicCall}
    (hedits : call.edits = true) (hresets : (ControllerEvent.called call answers).resets i = false) :
    Tracks codeToVSWR i c (.called call answers) (c.take answers call) := by
  cases call with
  | setPowerSetting ppbIndex number watts =>
    show Tracks codeToVSWR i c _ (c.setPowerSetting ppbIndex number watts)
    unfold setPowerSetting
    apply tracks_of_updateSettings hfresh ppbIndex _ (fun _ => rfl)
    · intro channel
      by_cases hindex : ppbIndex.toNat = i
      · by_cases h1 : number = 1
        · cases channel <;> simp [hindex, h1, setsPower, Channel.number, PpbUserSettings.power]
        · by_cases h2 : number = 2 <;> cases channel <;>
            simp [hindex, h1, h2, setsPower, Channel.number, PpbUserSettings.power]
      · simp [hindex, setsPower]
    · intro flag
      have hsame (settings : PpbUserSettings) :
          (if number = 1 then { settings with power1 := watts }
            else if number = 2 then { settings with power2 := watts } else settings).flag flag =
          settings.flag flag := by
        cases flag <;> split <;> (try split) <;> rfl
      split
      · exact hsame _
      · rfl
  | setFuBlockedSetting ppbIndex blocked =>
    exact tracks_flag hfresh ppbIndex (fun settings => { settings with fuBlocked := blocked })
      .fuBlocked blocked (fun _ channel => by cases channel <;> rfl)
      (fun _ flag => by cases flag <;> rfl) (fun _ => rfl) (fun _ => rfl) fun _ => rfl
  | setRebootRequestedSetting ppbIndex reboot =>
    exact tracks_flag hfresh ppbIndex (fun settings => { settings with rebootRequested := reboot })
      .rebootRequested reboot (fun _ channel => by cases channel <;> rfl)
      (fun _ flag => by cases flag <;> rfl) (fun _ => rfl) (fun _ => rfl) fun _ => rfl
  | setResetErrorsSetting ppbIndex reset =>
    exact tracks_flag hfresh ppbIndex (fun settings => { settings with resetErrors := reset })
      .resetErrors reset (fun _ channel => by cases channel <;> rfl)
      (fun _ flag => by cases flag <;> rfl) (fun _ => rfl) (fun _ => rfl) fun _ => rfl
  | setPowerEnabledSetting ppbIndex enabled =>
    exact tracks_flag hfresh ppbIndex (fun settings => { settings with powerEnabled := enabled })
      .powerEnabled enabled (fun _ channel => by cases channel <;> rfl)
      (fun _ flag => by cases flag <;> rfl) (fun _ => rfl) (fun _ => rfl) fun _ => rfl
  | resetSettingsToReal ppbIndex =>
    have hindex : ppbIndex.toNat ≠ i := by simpa [ControllerEvent.resets] using hresets
    show Tracks codeToVSWR i c _ (c.resetSettingsToReal ppbIndex)
    unfold resetSettingsToReal
    split
    · apply tracks_of_updateSettings hfresh ppbIndex _ (fun _ => rfl)
      · intro channel
        simp [hindex, setsPower]
      · intro flag
        simp [hindex, setsFlag]
    · exact tracks_of_records hfresh rfl (fun _ => rfl) (fun _ => rfl) fun _ => rfl
  | _ => cases hedits

/-- A factory number changes no power. -/
theorem onCommandDataParsed_powers (c : PPBController) (address : UInt16) (data : ParsedData)
    (command : TechCommand) :
    (c.onCommandDataParsed address data command).userSettings = c.userSettings ∧
      (c.onCommandDataParsed address data command).settingsInitialized = c.settingsInitialized ∧
      ∀ channel, ((c.onCommandDataParsed address data command).realStates i).power channel =
        (c.realStates i).power channel := by
  unfold onCommandDataParsed
  split
  case h_1 index value _ =>
    refine ⟨rfl, rfl, fun channel => ?_⟩
    by_cases hindex : i = index
    · subst hindex
      simp only [Function.update_self]
      cases channel <;> rfl
    · simp only [Function.update_of_ne hindex]
  case h_2 => exact ⟨rfl, rfl, fun _ => rfl⟩

/-- The current address is no record. -/
theorem recordOf_onStatusReceived (d : PpbData) (address : UInt16) (mask : UInt32)
    (blocks : List Bytes) : recordOf (onStatusReceived codeToVSWR d address mask blocks) i =
      recordOf (processStatusData codeToVSWR d address mask blocks) i := by
  unfold onStatusReceived
  split
  · by_cases hself : addressToIndex address = some i
    · rw [recordOf_processStatusData_self _ _ _ hself, recordOf_processStatusData_self _ _ _ hself]
      rfl
    · rw [recordOf_processStatusData_other _ _ _ hself,
        recordOf_processStatusData_other _ _ _ hself]
      rfl
  · rfl

theorem tracks_delivered (hfresh : c.Fresh i) (signal : Signal)
    (h : c.handle codeToVSWR (.delivered signal) = some c') :
    Tracks codeToVSWR i c (.delivered signal) c' := by
  cases h
  cases signal with
  | statusReceived address mask blocks =>
    exact tracks_statusReceived hfresh address mask blocks
      (recordOf_onStatusReceived c.toPpbData address mask blocks)
  | commandDataParsed address data command =>
    obtain ⟨hsettings, hstarted, hpower⟩ := @onCommandDataParsed_powers i
      (c.emit (.delivered (.commandDataParsed address data command))) address data command
    exact tracks_of_unchanged hfresh (congrFun hsettings i) (congrFun hstarted i) hpower
      (fun _ => rfl) (fun _ => rfl) fun _ => rfl
  | _ => exact tracks_of_records hfresh rfl (fun _ => rfl) (fun _ => rfl) fun _ => rfl

/-- Every event but a reset makes the step of the registers. -/
theorem tracks_handle (hfresh : c.Fresh i) (hresets : e.resets i = false)
    (h : c.handle codeToVSWR e = some c') : Tracks codeToVSWR i c e c' := by
  cases e with
  | called call answers =>
    cases h
    cases hedits : call.edits with
    | true => exact tracks_edit hfresh answers hedits hresets
    | false =>
      apply tracks_of_records hfresh (records_take c answers hedits)
      · intro channel
        cases call <;> first | rfl | cases hedits
      · intro channel
        rfl
      · intro flag
        cases call <;> first | rfl | cases hedits
  | delivered signal => exact tracks_delivered hfresh signal h
  | _ =>
    exact tracks_of_records hfresh (records_of_data (data_handle h rfl)) (fun _ => rfl)
      (fun _ => rfl) fun _ => rfl

/-- After a run without a reset of the PPB `i` its settings are what registers hold. -/
theorem tracks_run {events : List ControllerEvent} (hrun : c.run codeToVSWR events = some c')
    (hresets : ∀ e ∈ events, e.resets i = false) (hfresh : c.Fresh i) :
    (∀ channel, (c'.settingsInitialized i, (c'.userSettings i).power channel) =
      events.foldl (Register.step (setsPower i channel) (reportsPower codeToVSWR i channel))
        (c.settingsInitialized i, (c.userSettings i).power channel)) ∧
    ∀ flag, (false, (c'.userSettings i).flag flag) =
      events.foldl (Register.step (setsFlag i flag) fun _ => none)
        (false, (c.userSettings i).flag flag) := by
  induction events generalizing c with
  | nil =>
    cases hrun
    exact ⟨fun _ => rfl, fun _ => rfl⟩
  | cons e events ih =>
    obtain ⟨next, hstep, hrest⟩ := Option.bind_eq_some_iff.mp hrun
    have htracks := tracks_handle hfresh (hresets e (by simp)) hstep
    obtain ⟨hpower, hflag⟩ := ih hrest (fun x hx => hresets x (List.mem_cons_of_mem e hx))
      htracks.fresh
    refine ⟨fun channel => ?_, fun flag => ?_⟩
    · rw [List.foldl_cons, ← htracks.power channel]
      exact hpower channel
    · rw [List.foldl_cons, ← htracks.flag flag]
      exact hflag flag

end

/-! TC. -/

/-- A controller as its constructor leaves it. -/
def init (communication : Option CommunicationId) (packetAnalyzer : Option PacketAnalyzer) :
    PPBController :=
  { communication, packetAnalyzer }

theorem sendTC_log {c : PPBController} {communication : CommunicationId}
    (hcommunication : c.communication = some communication) (hidle : c.firmware = none)
    (i : Fin 16) :
    (c.sendTC (1 <<< i.val.toUInt16)).log = c.log ++ [.call communication
      (.executeCommandWithData .tc (1 <<< i.val.toUInt16) (tcPacket (c.userSettings i)))] := by
  simp [sendTC, guarded, commandBlockedByFirmwareUpdate, hidle, addressToIndex_single,
    callCommunication, hcommunication, emit]

/-- The settings after a run are the intended ones exactly if no status has lost one. -/
theorem userSettings_eq_iff {codeToVSWR : Nat → UInt16 → FloatBits} {c₀ c : PPBController}
    {events : List ControllerEvent} {i : Fin 16} (hfresh : c₀.Fresh i)
    (hsettings : c₀.userSettings i = {}) (hstarted : c₀.settingsInitialized i = false)
    (hrun : c₀.run codeToVSWR events = some c) (hresets : ∀ e ∈ events, e.resets i = false) :
    c.userSettings i = intendedSettings codeToVSWR i events ↔ NothingLost codeToVSWR i events := by
  obtain ⟨hpower, hflag⟩ := tracks_run hrun hresets hfresh
  have hintended (channel : Channel) : (c.userSettings i).power channel =
      Register.intended (setsPower i channel) (reportsPower codeToVSWR i channel) 0 events ↔
      Register.Kept (setsPower i channel) (reportsPower codeToVSWR i channel) events := by
    have hapart : ∀ e, (setsPower i channel e).isSome → reportsPower codeToVSWR i channel e = none := by
      intro e hsets
      cases e with
      | delivered signal => cases hsets
      | _ => rfl
    have hzero : (c₀.userSettings i).power channel = 0 := by
      rw [hsettings]
      cases channel <;> rfl
    have hheld := congrArg Prod.snd (hpower channel)
    rw [hstarted, hzero] at hheld
    rw [← Register.foldl_step_eq_intended_iff hapart, ← hheld]
  have hflags (flag : SettingsFlag) : (c.userSettings i).flag flag =
      Register.intended (setsFlag i flag) (fun _ => none) false events := by
    have hfalse : (c₀.userSettings i).flag flag = false := by
      rw [hsettings]
      cases flag <;> rfl
    have hheld := congrArg Prod.snd (hflag flag)
    rw [hfalse] at hheld
    rw [show (c.userSettings i).flag flag = _ from hheld, Register.foldl_step_eq_intended_iff]
    · intro before e after value _ _ hinit
      cases hinit
    · intro _ _
      rfl
  constructor
  · intro hsame channel
    rw [← hintended, hsame]
    cases channel <;> rfl
  · intro hkept
    apply settings_ext
    · intro channel
      rw [(hintended channel).mpr (hkept channel)]
      cases channel <;> rfl
    · intro flag
      rw [hflags flag]
      cases flag <;> rfl

/-- **TC carries the user's settings exactly where no status has overwritten them.** After any run
of a new controller without a reset of the PPB `i`, `sendTC` issues one TC, and its data are the
intended settings of the PPB if and only if the first status has lost no power the user had set. -/
theorem sendTC_carries_iff {codeToVSWR : Nat → UInt16 → FloatBits}
    {communication : CommunicationId} {initial : Option CommunicationId}
    {packetAnalyzer : Option PacketAnalyzer} {events : List ControllerEvent} {c : PPBController}
    {i : Fin 16} (hrun : (init initial packetAnalyzer).run codeToVSWR events = some c)
    (hresets : ∀ e ∈ events, e.resets i = false)
    (hcommunication : c.communication = some communication) (hidle : c.firmware = none) :
    (∃ data, (c.sendTC (1 <<< i.val.toUInt16)).log = c.log ++ [.call communication
        (.executeCommandWithData .tc (1 <<< i.val.toUInt16) data)] ∧
      Carries (intendedSettings codeToVSWR i events) data) ↔ NothingLost codeToVSWR i events := by
  have hfresh : (init initial packetAnalyzer).Fresh i := by
    intro _ channel
    cases channel <;> rfl
  rw [← userSettings_eq_iff hfresh rfl rfl hrun hresets, ← carries_tcPacket_iff,
    sendTC_log hcommunication hidle]
  simp

/-- A power is set, and then the first status arrives. -/
def overwrittenRun : List ControllerEvent :=
  [.called (.setPowerSetting 0 1 0x41200000) {},
    .delivered (.statusReceived 1 6 [[0x40, 0xa0], [0, 0]])]

/-- The user has set 10 W, the status says 5 W, and TC sends 5 W. -/
theorem not_sendTC_carries : ¬ ∀ (events : List ControllerEvent) (c : PPBController),
    (init (some 0) none).run (fun _ _ => 0) events = some c →
    (∀ e ∈ events, ∀ i, e.resets i = false) → ∀ i : Fin 16,
      ∃ data, (c.sendTC (1 <<< i.val.toUInt16)).log = c.log ++ [.call 0
          (.executeCommandWithData .tc (1 <<< i.val.toUInt16) data)] ∧
        Carries (intendedSettings (fun _ _ => 0) i events) data := by
  intro hall
  obtain ⟨data, hlog, hcarries⟩ := hall overwrittenRun _ rfl (by simp [overwrittenRun, resets]) 0
  rw [sendTC_log rfl rfl] at hlog
  obtain rfl : tcPacket _ = data := by simpa using hlog
  have hpower := congrArg PpbUserSettings.power1 (carries_tcPacket_iff.mp hcarries)
  revert hpower
  decide

/-- The first status comes first, and TC sends what is set afterwards. -/
theorem sendTC_carries_iff_later : NothingLost (fun _ _ => 0) 0 overwrittenRun.reverse := by
  apply (@sendTC_carries_iff (fun _ _ => 0) 0 (some 0) none overwrittenRun.reverse _ 0 rfl
    (by simp [overwrittenRun, resets]) rfl rfl).mp
  exact ⟨_, sendTC_log rfl rfl 0, carries_tcPacket_iff.mpr (by decide)⟩

end PPBController

end PPB
