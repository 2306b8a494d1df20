import PPBProject.Controller

/- What the operations of the controller leave alone. `updateFirmware` touches the log, its own
   session and the auto-poll timer. The other public calls touch neither the session nor the
   data (`Ordinary`); the data change only by a signal, an edit of the settings, or packets
   that are saved. -/
namespace PPB

namespace PPBController

/-- Only the log, the session and the auto-poll timer may differ. -/
def SameBut (c c' : PPBController) : Prop :=
  c' = { c with log := c'.log, firmware := c'.firmware, autoPollActive := c'.autoPollActive }

section
variable {c c' c'' : PPBController}

theorem SameBut.refl (c : PPBController) : SameBut c c := rfl

theorem SameBut.trans (h : SameBut c c') (h' : SameBut c' c'') : SameBut c c'' := by
  unfold SameBut at *
  rw [h', h]

theorem SameBut.communication (h : SameBut c c') : c'.communication = c.communication := by
  rw [h]

theorem sameBut_emit (c : PPBController) (entry : Entry) : SameBut c (c.emit entry) := rfl

theorem sameBut_callCommunication (c : PPBController) (call : Event) :
    SameBut c (c.callCommunication call) := by
  unfold callCommunication
  split
  · exact sameBut_emit c _
  · exact .refl c

theorem sameBut_callAll (c : PPBController) (calls : List Event) : SameBut c (c.callAll calls) := by
  induction calls generalizing c with
  | nil => exact .refl c
  | cons call calls ih => exact (sameBut_callCommunication c call).trans (ih _)

theorem sameBut_endFirmware (c : PPBController) (f : FirmwareSession) :
    SameBut c (c.endFirmware f) := rfl

theorem sameBut_abortFirmware (c : PPBController) (f : FirmwareSession) (error : String)
    (calls : List Event) : SameBut c (c.abortFirmware f error calls) :=
  ((sameBut_emit c _).trans (sameBut_callAll _ calls)).trans (sameBut_endFirmware _ f)

theorem sameBut_startGroup (c : PPBController) (f : FirmwareSession) (stage : FirmwareStage)
    (command : TechCommand) (error : String) (groupId : Nat) :
    SameBut c (c.startGroup f stage command error groupId) := by
  unfold startGroup
  apply (sameBut_callCommunication c _).trans
  split
  · exact sameBut_abortFirmware _ f error []
  · rfl

theorem sameBut_startCommand (c : PPBController) (f : FirmwareSession) (stage : FirmwareStage)
    (command : TechCommand) : SameBut c (c.startCommand f stage command) :=
  (sameBut_callCommunication c _).trans rfl

theorem sameBut_startVolume (c : PPBController) (f : FirmwareSession) (i : Nat) :
    SameBut c (c.startVolume f i) :=
  (sameBut_emit c _).trans (sameBut_startCommand _ _ _ _)

theorem sameBut_startFinalVolume (c : PPBController) (f : FirmwareSession) :
    SameBut c (c.startFinalVolume f) :=
  (sameBut_emit c _).trans (sameBut_startCommand _ _ _ _)

theorem sameBut_groupFailed (c : PPBController) (f : FirmwareSession) (error : String) :
    SameBut c (((c.callAll (groupCleanUp f)).emit (.errorOccurred error)).endFirmware f) :=
  ((sameBut_callAll c _).trans (sameBut_emit _ _)).trans (sameBut_endFirmware _ f)

theorem sameBut_resumeFirmware (c : PPBController) (f : FirmwareSession) (groupId : Nat) :
    SameBut c (c.resumeFirmware f groupId) := by
  unfold resumeFirmware
  split
  case h_1 =>
    split
    · exact sameBut_abortFirmware c f _ []
    · simp only []
      split
      · exact sameBut_abortFirmware c f _ []
      · exact sameBut_startGroup c _ .vers .vers versError groupId
  case h_2 =>
    split
    · exact sameBut_groupFailed c f versError
    · exact sameBut_startGroup c f .programm .programm programmError groupId
  case h_3 =>
    split
    · exact sameBut_groupFailed c f programmError
    · exact (sameBut_emit c _).trans (sameBut_startVolume _ f 0)
  case h_4 i _ =>
    simp only []
    apply (sameBut_emit c (.operationProgress (i + 1) f.totalBlocks "VOLUME")).trans
    split
    · exact sameBut_abortFirmware _ f _ _
    · split
      · exact sameBut_startVolume _ f (i + 1)
      · exact sameBut_startFinalVolume _ f
  case h_5 =>
    split
    · exact sameBut_abortFirmware c f _ _
    · exact sameBut_startCommand c f .update .update
  case h_6 =>
    split
    · exact sameBut_abortFirmware c f _ _
    · exact sameBut_startCommand c f .clean .clean
  case h_7 =>
    split
    · exact sameBut_abortFirmware c f _ _
    · exact (sameBut_emit c _).trans (sameBut_endFirmware _ f)

theorem sameBut_beginFirmware (c : PPBController) (f : FirmwareSession) :
    SameBut c (c.beginFirmware f) := by
  have hstopped : SameBut c { c with autoPollActive := false } := rfl
  exact (hstopped.trans (sameBut_callAll _ _)).trans (sameBut_startCommand _ f .isYou .isYou)

/-- `f` is the session that an accepted `updateFirmware` begins with. -/
structure Accepts (c : PPBController) (selectedMask : UInt16) (hexFile : Option (List Line))
    (newVersion : Option ℚ) (answers : Answers) (version : ℚ) (f : FirmwareSession) : Prop where
  communication : c.communication.isSome
  idle : answers.busy = false
  requested : newVersion = some version
  range : roundedVersion version ≤ 0xFFFFFFFF
  selectedMask : f.selectedMask = selectedMask
  versionCode : f.versionCode = (roundedVersion version).toUInt32
  payloads : f.payloads =
    FirmwareUpdater.buildVolumePayloads (FirmwareUpdater.parseHexToDataBlocks hexFile)
  crc24 : f.crc24 = crc24Of (FirmwareUpdater.parseHexToDataBlocks hexFile).flatten
  restartAutoPoll : f.restartAutoPoll = c.autoPollActive
  crcArr : f.crcArr = (0, 0, 0)

/-- An update is rejected with a message, or begins. -/
theorem updateFirmware_cases (c : PPBController) (selectedMask : UInt16)
    (hexFile : Option (List Line)) (newVersion : Option ℚ) (answers : Answers) :
    (∃ error, c.updateFirmware selectedMask hexFile newVersion answers =
      c.emit (.errorOccurred error)) ∨
      ∃ version f, c.Accepts selectedMask hexFile newVersion answers version f ∧
        c.updateFirmware selectedMask hexFile newVersion answers = c.beginFirmware f := by
  generalize heq : c.updateFirmware selectedMask hexFile newVersion answers = c'
  unfold updateFirmware at heq
  dsimp only at heq
  split at heq
  next => exact .inl ⟨_, heq.symm⟩
  split at heq
  next => exact .inl ⟨_, heq.symm⟩
  split at heq
  next => exact .inl ⟨_, heq.symm⟩
  next hcommunication =>
  split at heq
  next => exact .inl ⟨_, heq.symm⟩
  next hbusy =>
  split at heq
  next => exact .inl ⟨_, heq.symm⟩
  next version =>
  split at heq
  next => exact .inl ⟨_, heq.symm⟩
  split at heq
  next => exact .inl ⟨_, heq.symm⟩
  next hrange =>
  split at heq
  next => exact .inl ⟨_, heq.symm⟩
  split at heq
  next => exact .inl ⟨_, heq.symm⟩
  split at heq
  next => exact .inl ⟨_, heq.symm⟩
  have hsome : c.communication.isSome := by
    simpa [Option.isSome_iff_ne_none] using hcommunication
  exact .inr ⟨version, _, ⟨hsome, by simpa using hbusy, rfl, by omega, rfl, rfl, rfl, rfl, rfl, rfl⟩,
    heq.symm⟩

theorem sameBut_updateFirmware (c : PPBController) (selectedMask : UInt16)
    (hexFile : Option (List Line)) (newVersion : Option ℚ) (answers : Answers) :
    SameBut c (c.updateFirmware selectedMask hexFile newVersion answers) := by
  rcases c.updateFirmware_cases selectedMask hexFile newVersion answers with
    ⟨error, heq⟩ | ⟨version, f, -, heq⟩
  · rw [heq]
    exact sameBut_emit c _
  · rw [heq]
    exact sameBut_beginFirmware c f

end

end PPBController

/-! The other calls. -/

/-- The event asks for a VOLUME, or brings its data. -/
def Event.isVolume : Event → Bool
  | .executeCommand cmd _ | .executeCommandWithData cmd _ _ | .executeGroupCommand cmd _ _ =>
    cmd = .volume
  | .setCurrentVolumeData .. => true
  | _ => false

/-- The entry has nothing to do with a VOLUME. -/
def Entry.isOrdinary : Entry → Bool
  | .call _ asked => !asked.isVolume
  | .setCurrentVolumeData .. => false
  | _ => true

/-- The call edits the settings of a PPB. -/
def PublicCall.edits : PublicCall → Bool
  | setPowerSetting .. | setFuBlockedSetting .. | setRebootRequestedSetting ..
  | setResetErrorsSetting .. | setPowerEnabledSetting .. | resetSettingsToReal _ => true
  | _ => false

/-- The call saves packets, as the slots for the packets of a test do. -/
def PublicCall.saves : PublicCall → Bool
  | saveSentPackets _ | saveReceivedPackets _ => true
  | _ => false

/-- The call begins an update, if it is not rejected. -/
def PublicCall.updates : PublicCall → Bool
  | updateFirmware .. | requestVolume .. => true
  | _ => false

/-- The one call whose command is the caller's choice asks for a VOLUME. -/
def PublicCall.asksVolume : PublicCall → Bool
  | exucuteCommand tech _ => tech = .volume
  | _ => false

namespace PPBController

/-- The records about the PPBs, and the packets of the last test. -/
def data (c : PPBController) : ((Fin 16 → PPBFullState) × (Fin 16 → PpbUserSettings) ×
    (Fin 16 → Bool)) × List DataPacket × List DataPacket × Option PacketAnalyzer :=
  ((c.realStates, c.userSettings, c.settingsInitialized), c.lastSentPackets,
    c.lastReceivedPackets, c.packetAnalyzer)

/-- Neither the session nor the data change, and nothing is done about a VOLUME. -/
structure Ordinary (c c' : PPBController) : Prop where
  firmware : c'.firmware = c.firmware
  data : c'.data = c.data
  log : Machine.Extends (fun x => x.isOrdinary = true) c.log c'.log

section
variable {c c' c'' : PPBController}

theorem SameBut.data (h : SameBut c c') : c'.data = c.data := by
  rw [h]
  rfl

theorem Ordinary.of_eq (hfirmware : c'.firmware = c.firmware) (hdata : c'.data = c.data)
    (hlog : c'.log = c.log) : Ordinary c c' :=
  ⟨hfirmware, hdata, hlog ▸ .refl _⟩

theorem Ordinary.refl (c : PPBController) : Ordinary c c := .of_eq rfl rfl rfl

theorem Ordinary.trans (h : Ordinary c c') (h' : Ordinary c' c'') : Ordinary c c'' :=
  ⟨h'.firmware.trans h.firmware, h'.data.trans h.data, h.log.trans h'.log⟩

theorem ordinary_emit {entry : Entry} (h : entry.isOrdinary = true) : Ordinary c (c.emit entry) :=
  ⟨rfl, rfl, [entry], rfl, by simpa using h⟩

theorem ordinary_callCommunication {call : Event} (h : call.isVolume = false) :
    Ordinary c (c.callCommunication call) := by
  unfold callCommunication
  split
  · exact ordinary_emit (by simp [Entry.isOrdinary, h])
  · exact .refl c

theorem ordinary_guarded {body : PPBController → PPBController} (h : Ordinary c (body c)) :
    Ordinary c (c.guarded body) := by
  unfold guarded
  split
  · exact .refl c
  · exact h

theorem ordinary_requestStatus (address : UInt16) (answers : Answers) :
    Ordinary c (c.requestStatus address answers) := by
  apply ordinary_guarded
  split
  · exact .refl c
  · have hmoved : Ordinary c (c.setCurrentAddress address) := .of_eq rfl rfl rfl
    simp only []
    split <;> exact hmoved.trans (ordinary_callCommunication rfl)

theorem ordinary_sendTC (address : UInt16) : Ordinary c (c.sendTC address) := by
  apply ordinary_guarded
  split
  · exact .refl c
  · exact ordinary_callCommunication rfl

theorem ordinary_setFU (mode : FuCommand) (address duration : UInt16)
    (dutyCycle : UInt8 × UInt8 × UInt8) (answers : Answers) :
    Ordinary c (c.setFU mode address duration dutyCycle answers) := by
  apply ordinary_guarded
  split
  · exact .refl c
  · exact ordinary_callCommunication rfl

theorem ordinary_request {command : TechCommand} (h : command ≠ .volume) (address : UInt16) :
    Ordinary c (c.request command address) :=
  ordinary_guarded (ordinary_callCommunication (by simpa [Event.isVolume] using h))

theorem ordinary_setCommunication (communication : Option CommunicationId) (answers : Answers) :
    Ordinary c (c.setCommunication communication answers) := by
  apply ordinary_guarded
  split
  · exact .refl c
  · -- the old object is let go first
    have hold : Ordinary c
        (if c.communication.isSome then
          let c := { c with autoPollActive := false }
          let c := if answers.state = .ready then c.callCommunication .disconnect else c
          c.setCurrentAddress 0
        else c) := by
      have hstopped : Ordinary c { c with autoPollActive := false } := .of_eq rfl rfl rfl
      split
      · dsimp only
        split
        · exact (hstopped.trans (ordinary_callCommunication rfl)).trans (.of_eq rfl rfl rfl)
        · exact hstopped.trans (.of_eq rfl rfl rfl)
      · exact .refl c
    dsimp only at hold ⊢
    generalize (if c.communication.isSome then _ else c : PPBController) = old at hold ⊢
    have hset : Ordinary old { old with communication } := .of_eq rfl rfl rfl
    have hreplaced := (hold.trans hset).trans
      (@ordinary_emit _ (.communicationReplaced communication) rfl)
    split
    · exact hreplaced.trans (.of_eq rfl rfl rfl)
    · exact hreplaced

theorem ordinary_loadScenario (fileName : String) (answers : Answers) :
    Ordinary c (c.loadScenario fileName answers) := by
  unfold loadScenario
  split
  · exact ordinary_emit rfl
  · split
    · exact (ordinary_emit rfl).trans (.of_eq rfl rfl rfl)
    · exact .of_eq rfl rfl rfl

theorem ordinary_runScenario (answers : Answers) : Ordinary c (c.runScenario answers) := by
  unfold runScenario
  split
  · exact ordinary_emit rfl
  split
  · exact ordinary_emit rfl
  have hready : Ordinary c
      (if !c.scenarioEngine then c.loadScenario c.scenarioFileName answers else c) := by
    split
    · exact ordinary_loadScenario _ answers
    · exact .refl c
  simp only []
  generalize (if !c.scenarioEngine then c.loadScenario c.scenarioFileName answers else c) = ready
    at hready ⊢
  split
  · exact hready
  · split
    · exact hready.trans (ordinary_emit rfl)
    · exact (hready.trans (ordinary_emit rfl)).trans (.of_eq rfl rfl rfl)

theorem ordinary_stopScenario : Ordinary c c.stopScenario := by
  unfold stopScenario
  split
  · exact ordinary_emit rfl
  · exact .refl c

/-- A call that neither edits, saves nor updates. -/
theorem ordinary_take (answers : Answers) {call : PublicCall} (hedits : call.edits = false)
    (hsaves : call.saves = false) (hupdates : call.updates = false)
    (hvolume : call.asksVolume = false) : Ordinary c (c.take answers call) := by
  cases call with
  | connectToPPB address =>
    have hmoved : Ordinary c (c.setCurrentAddress address) := .of_eq rfl rfl rfl
    apply ordinary_guarded
    exact hmoved.trans (ordinary_callCommunication rfl)
  | disconnect | setBridgeAddress | resetPPB =>
    apply ordinary_guarded
    exact ordinary_callCommunication rfl
  | startPRBS_M2S | startPRBS_S2M | requestVersion | requestChecksum | sendProgram | sendClean
  | requestDroppedPackets | requestBER_T | requestBER_F | requestFabricNumber =>
    exact ordinary_request (by decide) _
  | exucuteCommand tech => exact ordinary_request (by simpa [PublicCall.asksVolume] using hvolume) _
  | requestStatus address => exact ordinary_requestStatus address answers
  | sendTC address => exact ordinary_sendTC address
  | setFUReceive | setFUTransmit | setFUReceiveTransmit => exact ordinary_setFU _ _ _ _ answers
  | startAutoPoll =>
    apply ordinary_guarded
    exact .of_eq rfl rfl rfl
  | stopAutoPoll | setCurrentAddress => exact .of_eq rfl rfl rfl
  | setCommunication communication => exact ordinary_setCommunication communication answers
  | loadScenario fileName => exact ordinary_loadScenario fileName answers
  | runScenario => exact ordinary_runScenario answers
  | stopScenario => exact ordinary_stopScenario
  | setPowerSetting | setFuBlockedSetting | setRebootRequestedSetting | setResetErrorsSetting
  | setPowerEnabledSetting | resetSettingsToReal => cases hedits
  | saveSentPackets | saveReceivedPackets => cases hsaves
  | updateFirmware | requestVolume => cases hupdates

theorem ordinary_onAutoPollTimeout (answers : Answers) :
    Ordinary c (c.onAutoPollTimeout answers) := by
  unfold onAutoPollTimeout
  split
  · exact ordinary_requestStatus _ answers
  · exact .refl c

theorem ordinary_resumeLoad (load : ScenarioLoad) (rest : List ScenarioLoad) (answers : Answers) :
    Ordinary c (c.resumeLoad load rest answers) := by
  have hleft : Ordinary c { c with scenarioLoads := rest } := .of_eq rfl rfl rfl
  unfold resumeLoad
  simp only []
  split
  · exact hleft.trans (ordinary_emit rfl)
  · exact hleft.trans (.of_eq rfl rfl rfl)

/-! The data. -/

/-- A call that neither edits nor saves leaves the data alone. -/
theorem data_take (answers : Answers) {call : PublicCall} (hedits : call.edits = false)
    (hsaves : call.saves = false) : (c.take answers call).data = c.data := by
  cases hupdates : call.updates with
  | true =>
    cases call with
    | updateFirmware => exact (sameBut_updateFirmware c _ _ _ answers).data
    | requestVolume address hexFile newVersion =>
      show (c.requestVolume address hexFile newVersion answers).data = c.data
      unfold requestVolume
      split
      · exact (sameBut_updateFirmware c _ _ _ answers).data
      · rfl
    | _ => cases hupdates
  | false =>
    cases hvolume : call.asksVolume with
    | true =>
      cases call with
      | exucuteCommand tech address =>
        show (c.request tech address).data = c.data
        unfold request guarded
        split
        · rfl
        · exact (sameBut_callCommunication c _).data
      | _ => cases hvolume
    | false => exact (ordinary_take answers hedits hsaves hupdates hvolume).data

end

end PPBController

/-- Nothing that the data depend on. -/
def ControllerEvent.isQuiet : ControllerEvent → Bool
  | .called call _ => !call.edits && !call.saves
  | .delivered _ => false
  | _ => true

namespace PPBController

theorem data_handle {codeToVSWR : Nat → UInt16 → FloatBits} {c c' : PPBController}
    {e : ControllerEvent} (h : c.handle codeToVSWR e = some c') (hquiet : e.isQuiet = true) :
    c'.data = c.data := by
  cases e with
  | called call answers =>
    cases h
    simp only [ControllerEvent.isQuiet, Bool.and_eq_true, Bool.not_eq_true'] at hquiet
    exact data_take answers hquiet.1 hquiet.2
  | autoPollTimeout answers =>
    cases h
    exact (ordinary_onAutoPollTimeout answers).data
  | scenarioFinished =>
    cases h
    rfl
  | delivered => cases hquiet
  | noticed signal =>
    simp only [handle] at h
    split at h
    · cases h
      rfl
    · cases h
  | timedOut =>
    simp only [handle] at h
    split at h
    · obtain ⟨-, h⟩ := Option.ite_none_right_eq_some.mp h
      cases h
      rfl
    · cases h
  | resume groupId =>
    simp only [handle] at h
    split at h
    · obtain ⟨-, h⟩ := Option.ite_none_right_eq_some.mp h
      cases h
      exact (sameBut_resumeFirmware c _ groupId).data
    · cases h
  | resumeLoad answers =>
    simp only [handle] at h
    split at h
    · cases h
      exact (ordinary_resumeLoad _ _ answers).data
    · cases h

end PPBController

end PPB
