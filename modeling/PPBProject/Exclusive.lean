import PPBProject.Stages
import PPBProject.Lib.Unwinding

/- While `updateFirmware` waits, its event loops let everything else in: public calls, auto-poll
   ticks, signals. What a public call or a tick does then is said once (`Intruded`): it may
   complain, and it may change records that `updateFirmware` never reads. -/
namespace PPB

/-- An entry that is only a message to the user, or tells a scenario to stop. -/
def Entry.isRemark : Entry → Bool
  | .errorOccurred _ | .scenarioError _ | .scenarioStopped => true
  | _ => false

/-- A call on `m_communication`, its replacement, the start of a scenario, or new image data. -/
def Entry.isEffect : Entry → Bool
  | .call .. | .setCurrentVolumeData .. | .communicationReplaced _ | .scenarioStarted => true
  | _ => false

/-- The communication object is replaced, or a scenario is started. -/
def Entry.isForeign : Entry → Bool
  | .communicationReplaced _ | .scenarioStarted => true
  | _ => false

theorem Entry.isEffect_of_isRemark {x : Entry} (h : x.isRemark = true) : x.isEffect = false := by
  cases x with
  | errorOccurred | scenarioError | scenarioStopped => rfl
  | _ => cases h

/-- What comes from outside the update. -/
def ControllerEvent.isIntrusion : ControllerEvent → Bool
  | .called .. | .autoPollTimeout _ => true
  | _ => false

namespace PPBController

/-- What the controller has done to others. -/
def effects (c : PPBController) : List Entry := c.log.filter Entry.isEffect

/-- An event that arrives inside an event loop of `updateFirmware`. -/
def handleInside (codeToVSWR : Nat → UInt16 → FloatBits) (c : PPBController)
    (e : ControllerEvent) : Option PPBController :=
  if c.firmware.isSome then c.handle codeToVSWR e else none

/-- A run all of whose events arrive inside event loops of `updateFirmware`; the last one may end
it. -/
def runInside (codeToVSWR : Nat → UInt16 → FloatBits) (c : PPBController)
    (events : List ControllerEvent) : Option PPBController :=
  events.foldlM (handleInside codeToVSWR) c

/-! Intrusions. -/

/-- The update, its communication object and its calls are as they were. -/
structure Intruded (c c' : PPBController) : Prop where
  firmware : c'.firmware = c.firmware
  communication : c'.communication = c.communication
  log : Machine.Extends (fun x => x.isRemark = true) c.log c'.log

section
variable {c c' : PPBController}

theorem Intruded.refl (c : PPBController) : Intruded c c := ⟨rfl, rfl, .refl _⟩

theorem Intruded.of_eq (hfirmware : c'.firmware = c.firmware)
    (hcommunication : c'.communication = c.communication) (hlog : c'.log = c.log) :
    Intruded c c' :=
  ⟨hfirmware, hcommunication, hlog ▸ .refl _⟩

theorem intruded_emit {entry : Entry} (h : entry.isRemark = true) : Intruded c (c.emit entry) :=
  ⟨rfl, rfl, [entry], rfl, by simpa using h⟩

theorem intruded_updateSettings (ppbIndex : UInt8) (change : PpbUserSettings → PpbUserSettings) :
    Intruded c (c.updateSettings ppbIndex change) := by
  unfold updateSettings
  split <;> exact .of_eq rfl rfl rfl

theorem intruded_resetSettingsToReal (ppbIndex : UInt8) :
    Intruded c (c.resetSettingsToReal ppbIndex) := by
  unfold resetSettingsToReal
  split
  · exact intruded_updateSettings _ _
  · exact .refl c

theorem intruded_stopScenario : Intruded c c.stopScenario := by
  unfold stopScenario
  split
  · exact intruded_emit rfl
  · exact .refl c

/-- A guarded call does nothing during an update. -/
theorem guarded_eq_self (h : c.firmware.isSome) (body : PPBController → PPBController) :
    c.guarded body = c := by
  simp [guarded, commandBlockedByFirmwareUpdate, h]

theorem updateFirmware_eq_reject (h : c.firmware.isSome) (selectedMask : UInt16)
    (hexFile : Option (List Line)) (newVersion : Option ℚ) (answers : Answers) :
    c.updateFirmware selectedMask hexFile newVersion answers =
      c.emit (.errorOccurred "Firmware update is already running") := by
  simp [updateFirmware, h]

theorem loadScenario_eq_reject (h : c.firmware.isSome) (fileName : String) (answers : Answers) :
    c.loadScenario fileName answers =
      c.emit (.scenarioError "Cannot load a scenario during firmware update") := by
  simp [loadScenario, h]

theorem runScenario_eq_reject (h : c.firmware.isSome) (answers : Answers) :
    c.runScenario answers =
      c.emit (.scenarioError "Cannot run a scenario during firmware update") := by
  simp [runScenario, h]

theorem intruded_take (h : c.firmware.isSome) (call : PublicCall) (answers : Answers) :
    Intruded c (c.take answers call) := by
  have hguarded (body : PPBController → PPBController) : Intruded c (c.guarded body) := by
    rw [guarded_eq_self h]
    exact .refl c
  have hupdate (selectedMask : UInt16) (hexFile : Option (List Line)) (newVersion : Option ℚ) :
      Intruded c (c.updateFirmware selectedMask hexFile newVersion answers) := by
    rw [updateFirmware_eq_reject h]
    exact intruded_emit rfl
  cases call with
  | requestVolume address hexFile newVersion =>
    show Intruded c (c.requestVolume address hexFile newVersion answers)
    unfold requestVolume
    split
    · exact hupdate _ _ _
    · exact .refl c
  | updateFirmware selectedMask hexFile newVersion => exact hupdate _ _ _
  | loadScenario fileName =>
    show Intruded c (c.loadScenario fileName answers)
    rw [loadScenario_eq_reject h]
    exact intruded_emit rfl
  | runScenario =>
    show Intruded c (c.runScenario answers)
    rw [runScenario_eq_reject h]
    exact intruded_emit rfl
  | stopScenario => exact intruded_stopScenario
  | stopAutoPoll => exact .of_eq rfl rfl rfl
  | setCurrentAddress address => exact .of_eq rfl rfl rfl
  | setPowerSetting | setFuBlockedSetting | setRebootRequestedSetting | setResetErrorsSetting
  | setPowerEnabledSetting =>
    simp only [take, setPowerSetting, setFuBlockedSetting, setRebootRequestedSetting,
      setResetErrorsSetting, setPowerEnabledSetting]
    exact intruded_updateSettings _ _
  | resetSettingsToReal => exact intruded_resetSettingsToReal _
  | saveSentPackets => exact .of_eq rfl rfl rfl
  | saveReceivedPackets => exact .of_eq rfl rfl rfl
  | _ =>
    simp only [take, connectToPPB, PPBController.disconnect, setBridgeAddress, requestStatus, sendTC,
      resetPPB, setFUReceive, setFUTransmit, setFUReceiveTransmit, setFU, startPRBS_M2S,
      startPRBS_S2M, requestVersion, requestChecksum, sendProgram, sendClean,
      requestDroppedPackets, requestBER_T, requestBER_F, requestFabricNumber, exucuteCommand,
      request, startAutoPoll, setCommunication]
    exact hguarded _

theorem intruded_onAutoPollTimeout (h : c.firmware.isSome) (answers : Answers) :
    Intruded c (c.onAutoPollTimeout answers) := by
  unfold onAutoPollTimeout
  split
  · rw [requestStatus, guarded_eq_self h]
    exact .refl c
  · exact .refl c

/-- **An intrusion leaves the update alone.** -/
theorem intruded_handle {codeToVSWR : Nat → UInt16 → FloatBits} {e : ControllerEvent}
    (hrunning : c.firmware.isSome) (hintrusion : e.isIntrusion = true)
    (h : c.handle codeToVSWR e = some c') : Intruded c c' := by
  cases e with
  | called call answers =>
    cases h
    exact intruded_take hrunning call answers
  | autoPollTimeout answers =>
    cases h
    exact intruded_onAutoPollTimeout hrunning answers
  | _ => cases hintrusion

theorem Intruded.effects (h : Intruded c c') : c'.effects = c.effects := by
  obtain ⟨new, hlog, hnew⟩ := h.log
  have hnone : new.filter Entry.isEffect = [] := by
    rw [List.filter_eq_nil_iff]
    intro x hx
    simp [Entry.isEffect_of_isRemark (hnew x hx)]
  rw [PPBController.effects, hlog, List.filter_append, hnone, List.append_nil]
  rfl

end

/-! The update's own steps. -/

/-- What `updateFirmware` sees and does is the same. -/
structure SameUpdate (c t : PPBController) : Prop where
  firmware : c.firmware = t.firmware
  communication : c.communication = t.communication
  effects : c.effects = t.effects

section
variable {c t : PPBController} (h : SameUpdate c t)

include h

theorem SameUpdate.emit (entry : Entry) : SameUpdate (c.emit entry) (t.emit entry) := by
  refine ⟨h.firmware, h.communication, ?_⟩
  show (c.log ++ [entry]).filter _ = (t.log ++ [entry]).filter _
  rw [List.filter_append, List.filter_append]
  exact congrArg (· ++ _) h.effects

theorem SameUpdate.withFirmware (firmware : Option FirmwareSession) (active active' : Bool) :
    SameUpdate { c with firmware, autoPollActive := active }
      { t with firmware, autoPollActive := active' } :=
  ⟨rfl, h.communication, h.effects⟩

theorem SameUpdate.callCommunication (call : Event) :
    SameUpdate (c.callCommunication call) (t.callCommunication call) := by
  unfold PPBController.callCommunication
  rw [← h.communication]
  split
  · exact h.emit _
  · exact h

theorem SameUpdate.callAll (calls : List Event) :
    SameUpdate (c.callAll calls) (t.callAll calls) := by
  induction calls generalizing c t with
  | nil => exact h
  | cons call calls ih => exact ih (h.callCommunication call)

theorem SameUpdate.endFirmware (f : FirmwareSession) :
    SameUpdate (c.endFirmware f) (t.endFirmware f) :=
  h.withFirmware none _ _

theorem SameUpdate.abortFirmware (f : FirmwareSession) (error : String) (calls : List Event) :
    SameUpdate (c.abortFirmware f error calls) (t.abortFirmware f error calls) :=
  ((h.emit _).callAll calls).endFirmware f

theorem SameUpdate.groupFailed (f : FirmwareSession) (error : String) :
    SameUpdate (((c.callAll (groupCleanUp f)).emit (.errorOccurred error)).endFirmware f)
      (((t.callAll (groupCleanUp f)).emit (.errorOccurred error)).endFirmware f) :=
  ((h.callAll _).emit _).endFirmware f

theorem SameUpdate.startGroup (f : FirmwareSession) (stage : FirmwareStage)
    (command : TechCommand) (error : String) (groupId : Nat) :
    SameUpdate (c.startGroup f stage command error groupId)
      (t.startGroup f stage command error groupId) := by
  have hcalled := h.callCommunication (.executeGroupCommand command f.targetMask [])
  unfold PPBController.startGroup
  dsimp only
  split
  · exact hcalled.abortFirmware f error []
  · exact hcalled.withFirmware _ _ _

theorem SameUpdate.startCommand (f : FirmwareSession) (stage : FirmwareStage)
    (command : TechCommand) :
    SameUpdate (c.startCommand f stage command) (t.startCommand f stage command) :=
  (h.callCommunication _).withFirmware _ _ _

theorem SameUpdate.startVolume (f : FirmwareSession) (i : Nat) :
    SameUpdate (c.startVolume f i) (t.startVolume f i) :=
  (h.emit _).startCommand _ _ _

theorem SameUpdate.startFinalVolume (f : FirmwareSession) :
    SameUpdate (c.startFinalVolume f) (t.startFinalVolume f) :=
  (h.emit _).startCommand _ _ _

/-- From one wait to the next, the update looks at nothing but its own locals. -/
theorem SameUpdate.resumeFirmware (f : FirmwareSession) (groupId : Nat) :
    SameUpdate (c.resumeFirmware f groupId) (t.resumeFirmware f groupId) := by
  unfold PPBController.resumeFirmware
  cases f.stage with
  | isYou =>
    dsimp only
    split
    · exact h.abortFirmware f _ []
    · split
      · exact h.abortFirmware f _ []
      · exact h.startGroup _ .vers .vers versError groupId
  | vers =>
    dsimp only
    split
    · exact h.groupFailed f versError
    · exact h.startGroup f .programm .programm programmError groupId
  | programm =>
    dsimp only
    split
    · exact h.groupFailed f programmError
    · exact (h.emit _).startVolume f 0
  | volume i =>
    dsimp only
    have hprogress := h.emit (.operationProgress (i + 1) f.totalBlocks "VOLUME")
    split
    · exact hprogress.abortFirmware f _ _
    · split
      · exact hprogress.startVolume f (i + 1)
      · exact hprogress.startFinalVolume f
  | finalVolume =>
    dsimp only
    split
    · exact h.abortFirmware f _ _
    · exact h.startCommand f .update .update
  | update =>
    dsimp only
    split
    · exact h.abortFirmware f _ _
    · exact h.startCommand f .clean .clean
  | clean =>
    dsimp only
    split
    · exact h.abortFirmware f _ _
    · exact (h.emit _).endFirmware f

end

/-- The slots of the controller have no say in the update. -/
theorem sameUpdate_onSignal {codeToVSWR : Nat → UInt16 → FloatBits} {c t : PPBController}
    (h : SameUpdate c t) (signal : Signal) :
    SameUpdate (c.onSignal codeToVSWR signal) (t.onSignal codeToVSWR signal) := by
  have hparsed (c : PPBController) (address : UInt16) (data : ParsedData) (command : TechCommand) :
      SameUpdate (c.onCommandDataParsed address data command) c := by
    unfold onCommandDataParsed
    split <;> exact ⟨rfl, rfl, rfl⟩
  cases signal with
  | commandDataParsed address data command =>
    have hc := hparsed c address data command
    have ht := hparsed t address data command
    exact ⟨hc.firmware.trans (h.firmware.trans ht.firmware.symm),
      hc.communication.trans (h.communication.trans ht.communication.symm),
      hc.effects.trans (h.effects.trans ht.effects.symm)⟩
  | _ => exact ⟨h.firmware, h.communication, h.effects⟩

/-- The update's own steps depend on what the update sees, and on nothing else. -/
theorem SameUpdate.handle {codeToVSWR : Nat → UInt16 → FloatBits} {c c' t : PPBController}
    {e : ControllerEvent} (h : SameUpdate c t) (hown : e.isIntrusion = false)
    (hstep : c.handleInside codeToVSWR e = some c') :
    ∃ t', t.handleInside codeToVSWR e = some t' ∧ SameUpdate c' t' := by
  unfold handleInside at hstep ⊢
  rw [← h.firmware]
  obtain ⟨hrunning, hstep⟩ := Option.ite_none_right_eq_some.mp hstep
  obtain ⟨f, hf⟩ := Option.isSome_iff_exists.mp hrunning
  have hf' : t.firmware = some f := h.firmware ▸ hf
  rw [if_pos hrunning]
  cases e with
  | called | autoPollTimeout => cases hown
  | scenarioFinished =>
    cases hstep
    exact ⟨_, rfl, h.firmware, h.communication, h.effects⟩
  | delivered signal =>
    cases hstep
    exact ⟨_, rfl, sameUpdate_onSignal (h.emit _) signal⟩
  | noticed signal =>
    simp only [PPBController.handle, hf, hf', Option.some.injEq] at hstep ⊢
    exact ⟨_, rfl, hstep ▸ (h.emit (.noticed signal)).withFirmware _ _ _⟩
  | timedOut =>
    simp only [PPBController.handle, hf, hf', Option.ite_none_right_eq_some,
      Option.some.injEq] at hstep ⊢
    obtain ⟨hactive, hstep⟩ := hstep
    exact ⟨_, ⟨hactive, rfl⟩, hstep ▸ (h.emit .timedOut).withFirmware _ _ _⟩
  | resume groupId =>
    simp only [PPBController.handle, hf, hf', Option.ite_none_right_eq_some,
      Option.some.injEq] at hstep ⊢
    obtain ⟨hquit, hstep⟩ := hstep
    exact ⟨_, ⟨hquit, rfl⟩, hstep ▸ h.resumeFirmware f groupId⟩
  | resumeLoad =>
    simp only [PPBController.handle, hf] at hstep
    cases hstep

theorem secure_handleInside (codeToVSWR : Nat → UInt16 → FloatBits) :
    Unwinding.Secure (handleInside codeToVSWR) ControllerEvent.isIntrusion SameUpdate where
  respects c e c' t hintrusion hstep hsame := by
    obtain ⟨hrunning, hstep⟩ := Option.ite_none_right_eq_some.mp hstep
    have hintruded := intruded_handle hrunning hintrusion hstep
    exact ⟨hintruded.firmware.trans hsame.firmware,
      hintruded.communication.trans hsame.communication, hintruded.effects.trans hsame.effects⟩
  consistent c e c' t hown hstep hsame := hsame.handle hown hstep

/-! What can happen inside an event loop. -/

/-- One event inside an event loop of the update `f`. -/
inductive Inside (c : PPBController) (f : FirmwareSession) : PPBController → Prop where
  | aside {c' : PPBController} : c'.firmware = some f → c'.communication = c.communication →
    Machine.Extends (fun x => x.isAside = true) c.log c'.log → Inside c f c'
  | noticed {c' : PPBController} (signal : Signal) : c'.firmware = some (f.notice signal) →
    c'.communication = c.communication → c'.log = c.log ++ [.noticed signal] → Inside c f c'
  | timedOut {c' : PPBController} : c'.firmware = some f.timeout →
    c'.communication = c.communication → c'.log = c.log ++ [.timedOut] → Inside c f c'
  | resumed {c' : PPBController} (groupId : Nat) : f.wait.quit = true →
    c'.communication = c.communication → (f.Kept → Resumed c f groupId c') → Inside c f c'

theorem Entry.isAside_of_isRemark {x : Entry} (h : x.isRemark = true) : x.isAside = true := by
  cases x with
  | errorOccurred | scenarioError | scenarioStopped => rfl
  | _ => cases h

/-- **Inside an event loop** four things can happen. -/
theorem inside_handleInside {codeToVSWR : Nat → UInt16 → FloatBits} {c c' : PPBController}
    {e : ControllerEvent} (h : c.handleInside codeToVSWR e = some c') :
    ∃ f, c.firmware = some f ∧ Inside c f c' := by
  obtain ⟨hrunning, hstep⟩ := Option.ite_none_right_eq_some.mp h
  obtain ⟨f, hf⟩ := Option.isSome_iff_exists.mp hrunning
  refine ⟨f, hf, ?_⟩
  have hintruded (hintrusion : e.isIntrusion = true) : Inside c f c' := by
    have hintruded := intruded_handle hrunning hintrusion hstep
    exact .aside (hintruded.firmware.trans hf) hintruded.communication
      (hintruded.log.mono fun _ => Entry.isAside_of_isRemark)
  cases e with
  | called | autoPollTimeout => exact hintruded rfl
  | scenarioFinished =>
    cases hstep
    exact .aside hf rfl (.refl _)
  | delivered signal =>
    cases hstep
    have hquiet : ((c.emit (.delivered signal)).onSignal codeToVSWR signal).firmware = c.firmware ∧
        ((c.emit (.delivered signal)).onSignal codeToVSWR signal).communication = c.communication ∧
        ((c.emit (.delivered signal)).onSignal codeToVSWR signal).log =
          c.log ++ [.delivered signal] := by
      unfold onSignal
      split
      · exact ⟨rfl, rfl, rfl⟩
      · exact ⟨rfl, rfl, rfl⟩
      · exact ⟨rfl, rfl, rfl⟩
      · exact ⟨rfl, rfl, rfl⟩
      · unfold onCommandDataParsed
        split <;> exact ⟨rfl, rfl, rfl⟩
      · exact ⟨rfl, rfl, rfl⟩
    obtain ⟨hfirmware, hcommunication, hlog⟩ := hquiet
    refine .aside (hfirmware.trans hf) hcommunication ⟨_, hlog, ?_⟩
    intro x hx
    rw [List.mem_singleton.mp hx]
    rfl
  | noticed signal =>
    simp only [PPBController.handle, hf, Option.some.injEq] at hstep
    subst hstep
    exact .noticed signal rfl rfl rfl
  | timedOut =>
    simp only [PPBController.handle, hf, Option.ite_none_right_eq_some, Option.some.injEq] at hstep
    obtain ⟨-, rfl⟩ := hstep
    exact .timedOut rfl rfl rfl
  | resume groupId =>
    simp only [PPBController.handle, hf, Option.ite_none_right_eq_some, Option.some.injEq] at hstep
    obtain ⟨hquit, rfl⟩ := hstep
    exact .resumed groupId hquit (sameBut_resumeFirmware c f groupId).communication
      fun hkept => resumed_resumeFirmware hkept
  | resumeLoad =>
    simp only [PPBController.handle, hf] at hstep
    cases hstep

/-! The run. -/

theorem notForeign_of_isAside {x : Entry} (h : x.isAside = true) : x.isForeign = false := by
  cases x with
  | communicationReplaced | scenarioStarted => cases h
  | _ => rfl

theorem notForeign_issue (plan : FirmwarePlan) (communication : Option CommunicationId)
    (targetMask : UInt16) (stage : FirmwareStage) :
    ∀ x ∈ plan.issue communication targetMask stage, x.isForeign = false := by
  cases communication <;> cases stage <;> simp [FirmwarePlan.issue, issued, Entry.isForeign]

theorem notForeign_resumed {c c' : PPBController} {f : FirmwareSession} {groupId : Nat}
    (h : Resumed c f groupId c') : Machine.Extends (fun x => x.isForeign = false) c.log c'.log := by
  cases h with
  | failed tail _ _ hlog htail =>
    exact ⟨tail, hlog, fun x hx => notForeign_of_isAside (htail x hx)⟩
  | refused stage error _ _ _ _ _ hlog =>
    refine ⟨_, hlog.trans (List.append_assoc ..), fun x hx => ?_⟩
    obtain hx | hx := List.mem_append.mp hx
    · exact notForeign_issue _ _ _ _ x hx
    · rw [List.mem_singleton.mp hx]
      rfl
  | advanced head stage _ _ _ _ hhead hlog =>
    refine ⟨_, hlog.trans (List.append_assoc ..), fun x hx => ?_⟩
    obtain hx | hx := List.mem_append.mp hx
    · exact notForeign_of_isAside (hhead x hx)
    · exact notForeign_issue _ _ _ _ x hx
  | finished _ _ _ hlog =>
    refine ⟨_, hlog, fun x hx => ?_⟩
    rw [List.mem_singleton.mp hx]
    rfl

/-- What the session keeps from the start of the update on. -/
structure Undisturbed (c₁ c : PPBController) : Prop where
  kept : ∀ f, c.firmware = some f → f.Kept
  communication : c.communication = c₁.communication
  log : Machine.Extends (fun x => x.isForeign = false) c₁.log c.log

theorem Undisturbed.step {c₁ c c' : PPBController} {f : FirmwareSession} (h : Undisturbed c₁ c)
    (hf : c.firmware = some f) (hinside : Inside c f c') : Undisturbed c₁ c' := by
  have hkept := h.kept f hf
  cases hinside with
  | aside hfirmware hcommunication hlog =>
    refine ⟨?_, hcommunication.trans h.communication,
      h.log.trans (hlog.mono fun _ => notForeign_of_isAside)⟩
    intro f' hf'
    exact h.kept f' (hf.trans (hfirmware.symm.trans hf'))
  | noticed signal hfirmware hcommunication hlog =>
    refine ⟨?_, hcommunication.trans h.communication,
      h.log.trans ⟨_, hlog, by simp [Entry.isForeign]⟩⟩
    intro f' hf'
    obtain rfl : f.notice signal = f' := Option.some.inj (hfirmware.symm.trans hf')
    exact FirmwareSession.kept_notice hkept signal
  | timedOut hfirmware hcommunication hlog =>
    refine ⟨?_, hcommunication.trans h.communication,
      h.log.trans ⟨_, hlog, by simp [Entry.isForeign]⟩⟩
    intro f' hf'
    obtain rfl : f.timeout = f' := Option.some.inj (hfirmware.symm.trans hf')
    exact FirmwareSession.kept_timeout hkept
  | resumed groupId _ hcommunication hresumed =>
    have hresumed := hresumed hkept
    refine ⟨?_, hcommunication.trans h.communication, h.log.trans (notForeign_resumed hresumed)⟩
    intro f' hf'
    cases hresumed with
    | advanced _ _ _ _ hbegun hfirmware =>
      obtain rfl := Option.some.inj (hfirmware.symm.trans hf')
      exact hbegun.kept
    | failed _ _ hfirmware | refused _ _ _ _ _ _ hfirmware | finished _ _ hfirmware =>
      rw [hfirmware] at hf'
      cases hf'

theorem Undisturbed.run {codeToVSWR : Nat → UInt16 → FloatBits} {c₁ c c' : PPBController}
    {events : List ControllerEvent} (h : Undisturbed c₁ c)
    (hrun : c.runInside codeToVSWR events = some c') : Undisturbed c₁ c' := by
  induction events generalizing c with
  | nil =>
    cases hrun
    exact h
  | cons e rest ih =>
    unfold runInside at hrun
    rw [List.foldlM_cons] at hrun
    obtain ⟨next, hstep, hrest⟩ := Option.bind_eq_some_iff.mp hrun
    obtain ⟨f, hf, hinside⟩ := inside_handleInside hstep
    exact ih (h.step hf hinside) hrest

theorem undisturbed_of_started {c c₁ : PPBController} {plan : FirmwarePlan}
    (h : Started c plan c₁) : Undisturbed c₁ c₁ := by
  obtain ⟨f, hf, -, hstage, -, hcrc⟩ := h.firmware
  refine ⟨?_, rfl, .refl _⟩
  intro f' hf'
  obtain rfl := Option.some.inj (hf.symm.trans hf')
  unfold FirmwareSession.Kept
  rw [hstage]
  exact hcrc

/-- **The firmware transaction is exclusive.** Whatever public calls and auto-poll ticks arrive
inside the event loops of an accepted update, in whatever order: the update does to others exactly
what it does without them, it keeps its communication object, and no scenario is started. -/
theorem updateFirmware_exclusive {codeToVSWR : Nat → UInt16 → FloatBits} {c c₁ c' : PPBController}
    {selectedMask : UInt16} {hexFile : Option (List Line)} {newVersion : Option ℚ}
    {answers : Answers} {events : List ControllerEvent} (hidle : c.firmware = none)
    (hupdate : c.updateFirmware selectedMask hexFile newVersion answers = c₁)
    (haccepted : c₁.firmware.isSome) (hrun : c₁.runInside codeToVSWR events = some c') :
    (∃ alone, c₁.runInside codeToVSWR (events.filter (!·.isIntrusion)) = some alone ∧
      c'.effects = alone.effects) ∧
    c'.communication = c.communication ∧
    ∃ new, c'.log = c₁.log ++ new ∧
      ∀ x ∈ new, x ≠ .scenarioStarted ∧ ∀ communication, x ≠ .communicationReplaced communication := by
  obtain ⟨alone, halone, hsame⟩ := (secure_handleInside codeToVSWR).run_purged hrun
    ⟨rfl, rfl, rfl⟩
  subst hupdate
  obtain ⟨_, _, _, _, hstarted⟩ := started_updateFirmware hidle haccepted
  have hend := (undisturbed_of_started hstarted).run hrun
  refine ⟨⟨alone, halone, hsame.effects⟩,
    hend.communication.trans hstarted.same.communication, ?_⟩
  obtain ⟨new, hlog, hnew⟩ := hend.log
  refine ⟨new, hlog, fun x hx => ⟨?_, ?_⟩⟩
  · rintro rfl
    cases hnew _ hx
  · rintro communication rfl
    cases hnew _ hx

/-- The bridge address and a scenario, while the update runs. -/
def intrusions : List ControllerEvent :=
  [.called (.setBridgeAddress "10.0.0.1" 7) {}, .called .runScenario {}]

theorem updating_intruded : updating.runInside (fun _ _ => 0) intrusions = some (updating.emit
    (.scenarioError "Cannot run a scenario during firmware update")) := by
  have haccepted := updating_accepted
  generalize updating = c at haccepted
  simp [runInside, intrusions, handleInside, handle, take, setBridgeAddress,
    guarded_eq_self haccepted, runScenario_eq_reject haccepted, haccepted]

/-- Without the intrusions nothing is issued either. -/
theorem updateFirmware_exclusive_intrusions : ∃ alone,
    updating.runInside (fun _ _ => 0) (intrusions.filter (!·.isIntrusion)) = some alone ∧
      (updating.emit (.scenarioError "Cannot run a scenario during firmware update")).effects =
        alone.effects :=
  (updateFirmware_exclusive rfl rfl updating_accepted updating_intruded).1

end PPBController

end PPB
