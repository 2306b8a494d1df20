import PPBProject.Analyzer
import PPBProject.Facade
import PPBProject.Hex
import PPBProject.Status

/- `PPBController`: its public calls, its slots, and `updateFirmware`, which waits for each of
   its stages in an event loop of its own and so can be interrupted by anything else the
   controller can do.

   A wait is a state: `firmware` holds the locals of the running `updateFirmware` and which
   event loop it is in, and `resume` is the return of `loop.exec()`, which happens some time
   after `quit()`: what has been posted before may be delivered first. `loadScenario` waits
   in the same way; calls that wait are resumed innermost first, and an `updateFirmware` is
   always innermost, as no scenario is loaded while it runs.

   A signal reaches the slots of the controller (`delivered`) and the slot of a wait
   (`noticed`) as two events of Qt; a wait sees only what was emitted after it had connected.

   What the communication object answers (`isBusy`, `state`, the id of a group) comes with
   the event. A call on a null `m_communication` that the source does not check is a null
   dereference; here it does nothing.

   Correspondence (C++ ↔ Lean):
     a call on `m_communication`                    ↔ `Entry.call`, with the engine's `Event`
     `m_firmwareUpdateRunning`                      ↔ `firmware` is there
     `FirmwareSessionGuard`                         ↔ `endFirmware`
     the lambdas connected in `updateFirmware`      ↔ `FirmwareSession.notice`
     a `float` version: not finite, or its value    ↔ `Option ℚ`
     the HEX file at the time of the call           ↔ `Option (List Line)`
     `m_autoPollTimer->isActive()`                  ↔ `autoPollActive`
   Left out: log lines, the signals that only refresh a view, the AKIP generator, `analize`,
   the scenario thread (it runs from the constructor on), a failing `invokeMethod`, and a
   slot of a wait called after the wait is over, which would write to a dead frame. -/
namespace PPB

/-- Which object `m_communication` points to. -/
abbrev CommunicationId := Nat

/-- What the controller does to others, and what reaches it while it waits. -/
inductive Entry where
  | call (communication : CommunicationId) (call : Event)
  | setCurrentVolumeData (payload : Bytes) (marker : UInt8) (totalSize : UInt16)
      (data : UInt8 × UInt8 × UInt8)
  | errorOccurred (error : String)
  | operationProgress (current total : Nat) (operation : String)
  | communicationReplaced (communication : Option CommunicationId)
  | scenarioError (error : String)
  | scenarioStarted
  | scenarioStopped
  | delivered (signal : Signal)
  | noticed (signal : Signal)
  | timedOut
  deriving DecidableEq

/-- The event loops of `updateFirmware`. -/
inductive FirmwareStage where
  | isYou
  | vers
  | programm
  | volume (i : Nat)
  | finalVolume
  | update
  | clean
  deriving DecidableEq

/-- The locals of one wait. -/
structure FirmwareWait where
  quit : Bool := false
  timerActive : Bool := true
  activeMask : UInt16 := 0
  groupId : Nat := 0
  completed : Bool := false
  success : Bool := false
  message : String := ""

/-- A running `updateFirmware`, past its checks. -/
structure FirmwareSession where
  selectedMask : UInt16
  versionCode : UInt32
  payloads : List Bytes
  crc24 : UInt32
  restartAutoPoll : Bool
  nonempty : payloads ≠ []
  bounded : payloads.length ≤ 65535
  targetMask : UInt16 := 0
  crcArr : UInt8 × UInt8 × UInt8 := (0, 0, 0)
  stage : FirmwareStage := .isYou
  wait : FirmwareWait := {}

def FirmwareSession.totalBlocks (f : FirmwareSession) : Nat := f.payloads.length

/-- A `loadScenario` that waits for the old scenario to stop. -/
structure ScenarioLoad where
  fileName : String
  finished : Bool := false

structure PPBController extends PpbData where
  communication : Option CommunicationId
  packetAnalyzer : Option PacketAnalyzer := none
  autoPollEnabled : Bool := false
  autoPollActive : Bool := false
  lastSentPackets : List DataPacket := []
  lastReceivedPackets : List DataPacket := []
  scenarioEngine : Bool := false
  scenarioFileName : String := ""
  scenarioRunning : Bool := false
  scenarioLoads : List ScenarioLoad := []
  firmware : Option FirmwareSession := none
  log : List Entry := []

/-- What the world answers to the questions one event may ask. -/
structure Answers where
  busy : Bool := false
  state : PPBState := .ready
  groupId : Nat := 0
  loaded : Bool := true

/-! The image. -/

def crc24Poly : UInt32 := 0x864CFB

def crc24Init : UInt32 := 0xB704CE

def crc24Bit (crc : UInt32) : UInt32 :=
  let crc := crc <<< 1
  if crc &&& 0x01000000 ≠ 0 then crc ^^^ crc24Poly else crc

def crc24Byte (crc : UInt32) (byte : UInt8) : UInt32 :=
  crc24Bit^[8] (crc ^^^ byte.toUInt32 <<< 16)

/-- `Crc24`. -/
def crc24Of (data : Bytes) : UInt32 := data.foldl crc24Byte crc24Init &&& 0x00FFFFFF

/-- `qRound64(static_cast<double>(newVersion) * 100.0)` of a version that is not negative. -/
def roundedVersion (newVersion : ℚ) : Nat := ⌊newVersion * 100 + 1 / 2⌋₊

/-- Three bytes, the highest first. -/
def crcBytes (crc : UInt32) : UInt8 × UInt8 × UInt8 :=
  ((crc >>> 16).toUInt8, (crc >>> 8).toUInt8, crc.toUInt8)

def versionBytes (code : UInt32) : Bytes :=
  [(code >>> 24).toUInt8, (code >>> 16).toUInt8, (code >>> 8).toUInt8, code.toUInt8]

namespace FirmwareSession

/-- The slot the wait has connected. -/
def notice (f : FirmwareSession) (signal : Signal) : FirmwareSession :=
  match f.stage, signal with
  | .isYou, .commandDataParsed address data command =>
    if command = .isYou ∧ address = 0 then
      -- `data.toMap()["mask"].toUInt()`
      let activeMask := (Engine.statusOf (some data)).1.toUInt16
      { f with wait.activeMask := activeMask, wait.quit := true }
    else f
  | .vers, .groupCommandCompleted id success summary
  | .programm, .groupCommandCompleted id success summary =>
    if id ≠ f.wait.groupId then f
    else { f with
      wait.completed := true, wait.success := success, wait.message := summary, wait.quit := true }
  | .volume _, .commandCompleted ok msg command | .finalVolume, .commandCompleted ok msg command =>
    if command = .volume then
      { f with wait.success := ok, wait.message := msg, wait.quit := true }
    else f
  | .update, .commandCompleted ok msg command =>
    if command ≠ .update then f
    else { f with
      wait.completed := true, wait.success := ok, wait.message := msg, wait.quit := true }
  | .clean, .commandCompleted ok msg command =>
    if command ≠ .clean then f
    else { f with
      wait.completed := true, wait.success := ok, wait.message := msg, wait.quit := true }
  | _, _ => f

/-- The single shot timer of the wait. -/
def timeout (f : FirmwareSession) : FirmwareSession :=
  let f := { f with wait.timerActive := false, wait.quit := true }
  match f.stage with
  | .volume _ => { f with wait.success := false, wait.message := "VOLUME timeout" }
  | .finalVolume => { f with wait.success := false, wait.message := "Final VOLUME timeout" }
  | _ => f

end FirmwareSession

namespace PPBController

def emit (c : PPBController) (entry : Entry) : PPBController := { c with log := c.log ++ [entry] }

/-- `m_communication->…`. -/
def callCommunication (c : PPBController) (call : Event) : PPBController :=
  match c.communication with
  | some communication => c.emit (.call communication call)
  | none => c

def callAll (c : PPBController) (calls : List Event) : PPBController :=
  calls.foldl callCommunication c

/-! `updateFirmware`, from one wait to the next. -/

/-- The destructor of the session guard. -/
def endFirmware (c : PPBController) (f : FirmwareSession) : PPBController :=
  { c with firmware := none, autoPollActive := c.autoPollActive || f.restartAutoPoll }

/-- `emit errorOccurred(…)`, the clean-up calls, `return`. -/
def abortFirmware (c : PPBController) (f : FirmwareSession) (error : String)
    (calls : List Event) : PPBController :=
  (((c.emit (.errorOccurred error)).callAll calls)).endFirmware f

/-- `executeGroupAndWait` up to its event loop. -/
def startGroup (c : PPBController) (f : FirmwareSession) (stage : FirmwareStage)
    (command : TechCommand) (error : String) (groupId : Nat) : PPBController :=
  let c := c.callCommunication (.executeGroupCommand command f.targetMask [])
  if groupId = 0 then c.abortFirmware f error []
  else { c with firmware := some { f with stage, wait := { groupId } } }

def versError : String := "VERS group command failed; firmware update aborted"

def programmError : String := "PROGRAMM group command failed; firmware update aborted"

/-- The queues `executeGroupAndWait` clears when its group fails. -/
def groupCleanUp (f : FirmwareSession) : List Event :=
  .clearCommandQueue 0 ::
    (singleAddresses.filter fun address => f.targetMask &&& address ≠ 0).map .clearCommandQueue

/-- One command for which the session then waits. -/
def startCommand (c : PPBController) (f : FirmwareSession) (stage : FirmwareStage)
    (command : TechCommand) : PPBController :=
  let c := c.callCommunication (.executeCommand command 0)
  { c with firmware := some { f with stage, wait := {} } }

/-- The turn of the block loop for the block `i`, up to its event loop. -/
def startVolume (c : PPBController) (f : FirmwareSession) (i : Nat) : PPBController :=
  let marker : UInt8 := if i = 0 then 0x01 else 0x02
  let sizeForHeader : UInt16 := if i = 0 then f.totalBlocks.toUInt16 else 0
  let f := if i = f.totalBlocks - 1 then { f with crcArr := crcBytes f.crc24 } else f
  let c := c.emit (.setCurrentVolumeData (f.payloads.getD i []) marker sizeForHeader f.crcArr)
  c.startCommand f (.volume i) .volume

def startFinalVolume (c : PPBController) (f : FirmwareSession) : PPBController :=
  let c := c.emit (.setCurrentVolumeData (versionBytes f.versionCode) 3 0 f.crcArr)
  c.startCommand f .finalVolume .volume

/-- From the return of an event loop to the start of the next one, or to the end. -/
def resumeFirmware (c : PPBController) (f : FirmwareSession) (groupId : Nat) : PPBController :=
  match f.stage with
  | .isYou =>
    if f.wait.activeMask = 0 then
      c.abortFirmware f "No active PPB found (IS_YOU timeout or empty mask)" []
    else
      let targetMask := f.wait.activeMask &&& f.selectedMask
      if targetMask = 0 then c.abortFirmware f "No selected PPB are active" []
      else c.startGroup { f with targetMask } .vers .vers versError groupId
  | .vers =>
    if !f.wait.completed ∨ !f.wait.success then
      ((c.callAll (groupCleanUp f)).emit (.errorOccurred versError)).endFirmware f
    else c.startGroup f .programm .programm programmError groupId
  | .programm =>
    if !f.wait.completed ∨ !f.wait.success then
      ((c.callAll (groupCleanUp f)).emit (.errorOccurred programmError)).endFirmware f
    else (c.emit (.operationProgress 0 f.totalBlocks "VOLUME")).startVolume f 0
  | .volume i =>
    let c := c.emit (.operationProgress (i + 1) f.totalBlocks "VOLUME")
    if !f.wait.success then
      c.abortFirmware f s!"VOLUME block {i + 1} failed: {f.wait.message}" [.clearCommandQueue 0]
    else if i + 1 < f.totalBlocks then c.startVolume f (i + 1)
    else c.startFinalVolume f
  | .finalVolume =>
    if !f.wait.success then
      c.abortFirmware f s!"Final VOLUME failed: {f.wait.message}" [.clearCommandQueue 0]
    else c.startCommand f .update .update
  | .update =>
    if !f.wait.completed ∨ !f.wait.success then
      let reason := if f.wait.completed then f.wait.message else "timeout"
      c.abortFirmware f s!"UPDATE failed: {reason}" [.clearCommandQueue 0]
    else c.startCommand f .clean .clean
  | .clean =>
    if !f.wait.completed ∨ !f.wait.success then
      let reason := if f.wait.completed then f.wait.message else "timeout"
      c.abortFirmware f s!"CLEAN failed: {reason}" [.clearCommandQueue 0]
    else
      (c.emit (.operationProgress f.totalBlocks f.totalBlocks "Прошивка завершена")).endFirmware f

/-- The session is open, the queues are swept, IS_YOU is asked. -/
def beginFirmware (c : PPBController) (f : FirmwareSession) : PPBController :=
  let c := { c with autoPollActive := false }
  let c := c.callAll (.clearCommandQueue 0 :: singleAddresses.map .clearCommandQueue)
  c.startCommand f .isYou .isYou

def updateFirmware (c : PPBController) (selectedMask : UInt16) (hexFile : Option (List Line))
    (newVersion : Option ℚ) (answers : Answers) : PPBController :=
  let reject (error : String) := c.emit (.errorOccurred error)
  if c.firmware.isSome then reject "Firmware update is already running"
  else if c.scenarioRunning then reject "Stop the active Lua scenario before firmware update"
  else if c.communication.isNone then reject "Communication is not initialized"
  else if answers.busy then reject "Communication is busy; firmware update was not started"
  else match newVersion with
    | none => reject "Invalid firmware version"
    | some version =>
      if version < 0 then reject "Invalid firmware version"
      else if 0xFFFFFFFF < roundedVersion version then reject "Firmware version is out of range"
      else
        let dataBlocks := FirmwareUpdater.parseHexToDataBlocks hexFile
        if dataBlocks = [] then reject "No data blocks extracted from HEX file"
        else
          let payloads := FirmwareUpdater.buildVolumePayloads dataBlocks
          if hnonempty : payloads = [] then reject "No VOLUME blocks to send"
          else if hbounded : 65535 < payloads.length then
            reject
              "Firmware image requires too many VOLUME blocks for the 16-bit protocol field"
          else
            c.beginFirmware {
              selectedMask
              versionCode := (roundedVersion version).toUInt32
              payloads
              crc24 := crc24Of dataBlocks.flatten
              restartAutoPoll := c.autoPollActive
              nonempty := hnonempty
              bounded := Nat.le_of_not_lt hbounded }

/-! The guarded calls. `commandBlockedByFirmwareUpdate` only logs. -/

def commandBlockedByFirmwareUpdate (c : PPBController) : Bool := c.firmware.isSome

/-- The body of a guarded call. -/
def guarded (c : PPBController) (body : PPBController → PPBController) : PPBController :=
  if c.commandBlockedByFirmwareUpdate then c else body c

def setCurrentAddress (c : PPBController) (address : UInt16) : PPBController :=
  { c with currentAddress := address }

def connectToPPB (c : PPBController) (address : UInt16) (ip : String) (port : UInt16) :
    PPBController :=
  c.guarded fun c => (c.setCurrentAddress address).callCommunication (.connectToPPB address ip port)

def disconnect (c : PPBController) : PPBController :=
  c.guarded fun c => c.callCommunication .disconnect

def setBridgeAddress (c : PPBController) (ip : String) (port : UInt16) : PPBController :=
  c.guarded fun c => c.callCommunication (.setBridgeAddress ip port)

/-- `isBusy()`, with the answer of the communication object. -/
def isBusy (c : PPBController) (answers : Answers) : Bool :=
  c.firmware.isSome || (c.communication.isSome && answers.busy)

def requestStatus (c : PPBController) (address : UInt16) (answers : Answers) : PPBController :=
  c.guarded fun c =>
    if c.isBusy answers then c
    else
      let c := c.setCurrentAddress address
      -- one PPB, or the bridge
      if address &&& (address - 1) = 0 then c.callCommunication (.executeCommand .ts address)
      else c.callCommunication (.executeGroupCommand .ts address [])

/-- The flag byte of a TC. -/
def stateMask (settings : PpbUserSettings) : UInt8 :=
  (if settings.fuBlocked then 0x01 else 0) ||| (if settings.rebootRequested then 0x02 else 0) |||
    (if settings.resetErrors then 0x04 else 0) ||| (if settings.powerEnabled then 0x80 else 0)

/-- `qToBigEndian` of a `uint32_t`. -/
def toBigEndian32 (word : UInt32) : Bytes :=
  [(word >>> 24).toUInt8, (word >>> 16).toUInt8, (word >>> 8).toUInt8, word.toUInt8]

/-- The packet `sendTC` makes; `DataConverter::powerToCode` is the pattern of the `float`. -/
def tcPacket (settings : PpbUserSettings) : Bytes :=
  toBigEndian32 settings.power1 ++ toBigEndian32 settings.power2 ++ [stateMask settings, 0, 0, 0]

def sendTC (c : PPBController) (address : UInt16) : PPBController :=
  c.guarded fun c =>
    match addressToIndex address with
    | none => c
    | some index =>
      c.callCommunication (.executeCommandWithData .tc address (tcPacket (c.userSettings index)))

def resetPPB (c : PPBController) (address : UInt16) (payload : Bytes) : PPBController :=
  c.guarded fun c => c.callCommunication (.executeCommandWithData .tc address
    (payload ++ List.replicate (12 - payload.length) 0))

/-- The three FU modes differ in the mode only. -/
def setFU (c : PPBController) (mode : FuCommand) (address duration : UInt16)
    (dutyCycle : UInt8 × UInt8 × UInt8) (answers : Answers) : PPBController :=
  c.guarded fun c =>
    if answers.busy then c
    else c.callCommunication (.sendFU mode address (duration >>> 8).toUInt8 (some dutyCycle))

def setFUReceive (c : PPBController) : UInt16 → UInt16 → UInt8 × UInt8 × UInt8 → Answers →
    PPBController :=
  c.setFU .receive

def setFUTransmit (c : PPBController) : UInt16 → UInt16 → UInt8 × UInt8 × UInt8 → Answers →
    PPBController :=
  c.setFU .transmit

def setFUReceiveTransmit (c : PPBController) : UInt16 → UInt16 → UInt8 × UInt8 × UInt8 → Answers →
    PPBController :=
  c.setFU .receiveTransmit

/-- A command without arguments. -/
def request (c : PPBController) (command : TechCommand) (address : UInt16) : PPBController :=
  c.guarded fun c => c.callCommunication (.executeCommand command address)

def startPRBS_M2S (c : PPBController) : UInt16 → PPBController := c.request .prbsM2S

def startPRBS_S2M (c : PPBController) : UInt16 → PPBController := c.request .prbsS2M

def requestVersion (c : PPBController) : UInt16 → PPBController := c.request .vers

def requestChecksum (c : PPBController) : UInt16 → PPBController := c.request .checksum

def sendProgram (c : PPBController) : UInt16 → PPBController := c.request .programm

def sendClean (c : PPBController) : UInt16 → PPBController := c.request .clean

def requestDroppedPackets (c : PPBController) : UInt16 → PPBController := c.request .drop

def requestBER_T (c : PPBController) : UInt16 → PPBController := c.request .berT

def requestBER_F (c : PPBController) : UInt16 → PPBController := c.request .berF

def requestFabricNumber (c : PPBController) : UInt16 → PPBController := c.request .factoryNumber

def exucuteCommand (c : PPBController) (tech : TechCommand) (address : UInt16) : PPBController :=
  c.request tech address

def requestVolume (c : PPBController) (address : UInt16) (hexFile : Option (List Line))
    (newVersion : Option ℚ) (answers : Answers) : PPBController :=
  if c.communication.isSome then c.updateFirmware address hexFile newVersion answers else c

def startAutoPoll (c : PPBController) : PPBController :=
  c.guarded fun c => { c with autoPollEnabled := true, autoPollActive := true }

def stopAutoPoll (c : PPBController) : PPBController :=
  { c with autoPollEnabled := false, autoPollActive := false }

def setCommunication (c : PPBController) (communication : Option CommunicationId)
    (answers : Answers) : PPBController :=
  c.guarded fun c =>
    if c.communication = communication then c
    else
      let c :=
        if c.communication.isSome then
          let c := { c with autoPollActive := false }
          let c := if answers.state = .ready then c.callCommunication .disconnect else c
          c.setCurrentAddress 0
        else c
      let c := { c with communication }.emit (.communicationReplaced communication)
      if communication.isSome ∧ c.autoPollEnabled then { c with autoPollActive := true } else c

/-! Scenarios. -/

/-- `loadScenario` once no old scenario runs: the engine is replaced. -/
def finishLoad (c : PPBController) (fileName : String) (answers : Answers) : PPBController :=
  { c with
    scenarioEngine := true
    scenarioFileName := if answers.loaded then fileName else "" }

def loadScenario (c : PPBController) (fileName : String) (answers : Answers) : PPBController :=
  if c.firmware.isSome then
    c.emit (.scenarioError "Cannot load a scenario during firmware update")
  else if c.scenarioEngine && c.scenarioRunning then
    -- its event loop starts
    { c.emit .scenarioStopped with scenarioLoads := { fileName } :: c.scenarioLoads }
  else c.finishLoad fileName answers

/-- The event loop of the innermost `loadScenario` returns. -/
def resumeLoad (c : PPBController) (load : ScenarioLoad) (rest : List ScenarioLoad)
    (answers : Answers) : PPBController :=
  let c := { c with scenarioLoads := rest }
  if !load.finished && c.scenarioRunning then
    c.emit (.scenarioError "Scenario did not stop within 3 seconds; new scenario was not loaded")
  else c.finishLoad load.fileName answers

def runScenario (c : PPBController) (answers : Answers) : PPBController :=
  if c.firmware.isSome then
    c.emit (.scenarioError "Cannot run a scenario during firmware update")
  else if c.scenarioFileName.isEmpty then c.emit (.scenarioError "No scenario loaded")
  else
    let c := if !c.scenarioEngine then c.loadScenario c.scenarioFileName answers else c
    if !c.scenarioEngine || c.scenarioFileName.isEmpty then c
    else if c.scenarioRunning then c.emit (.scenarioError "Scenario is already running")
    else { c.emit .scenarioStarted with scenarioRunning := true }

def stopScenario (c : PPBController) : PPBController :=
  if c.scenarioEngine && c.scenarioRunning then c.emit .scenarioStopped else c

/-- `ScenarioEngine::finished`, which the waiting `loadScenario` calls see as well. -/
def onScenarioFinished (c : PPBController) : PPBController :=
  { c with
    scenarioRunning := false
    scenarioLoads := c.scenarioLoads.map fun load => { load with finished := true } }

/-! Settings and packets. -/

def updateSettings (c : PPBController) (ppbIndex : UInt8)
    (change : PpbUserSettings → PpbUserSettings) : PPBController :=
  if h : ppbIndex.toNat < 16 then
    let index : Fin 16 := ⟨ppbIndex.toNat, h⟩
    { c with userSettings := Function.update c.userSettings index (change (c.userSettings index)) }
  else c

def setPowerSetting (c : PPBController) (ppbIndex : UInt8) (channel : Int) (watts : FloatBits) :
    PPBController :=
  c.updateSettings ppbIndex fun settings =>
    if channel = 1 then { settings with power1 := watts }
    else if channel = 2 then { settings with power2 := watts }
    else settings

def setFuBlockedSetting (c : PPBController) (ppbIndex : UInt8) (blocked : Bool) : PPBController :=
  c.updateSettings ppbIndex fun settings => { settings with fuBlocked := blocked }

def setRebootRequestedSetting (c : PPBController) (ppbIndex : UInt8) (reboot : Bool) :
    PPBController :=
  c.updateSettings ppbIndex fun settings => { settings with rebootRequested := reboot }

def setResetErrorsSetting (c : PPBController) (ppbIndex : UInt8) (reset : Bool) : PPBController :=
  c.updateSettings ppbIndex fun settings => { settings with resetErrors := reset }

def setPowerEnabledSetting (c : PPBController) (ppbIndex : UInt8) (enabled : Bool) :
    PPBController :=
  c.updateSettings ppbIndex fun settings => { settings with powerEnabled := enabled }

def resetSettingsToReal (c : PPBController) (ppbIndex : UInt8) : PPBController :=
  if h : ppbIndex.toNat < 16 then
    let real := c.realStates ⟨ppbIndex.toNat, h⟩
    c.updateSettings ppbIndex fun settings =>
      { settings with power1 := real.ch1.power, power2 := real.ch2.power }
  else c

def saveSentPackets (c : PPBController) (packets : List DataPacket) : PPBController :=
  { c with
    lastSentPackets := packets
    packetAnalyzer := c.packetAnalyzer.map (·.addSentPackets packets) }

def saveReceivedPackets (c : PPBController) (packets : List DataPacket) : PPBController :=
  { c with
    lastReceivedPackets := packets
    packetAnalyzer := c.packetAnalyzer.map (·.addReceivedPackets packets) }

/-- Without an analyzer the map is empty. -/
def analyzeLastPackets (c : PPBController) : Option AnalysisResult :=
  c.packetAnalyzer.map fun _ =>
    ((({} : PacketAnalyzer).addSentPackets c.lastSentPackets).addReceivedPackets
      c.lastReceivedPackets).analyze

/-! The slots. -/

def onAutoPollTimeout (c : PPBController) (answers : Answers) : PPBController :=
  if c.autoPollEnabled ∧ c.communication.isSome ∧ answers.state = .ready ∧ c.currentAddress ≠ 0 then
    c.requestStatus c.currentAddress answers
  else c

def onClearPacketDataRequested (c : PPBController) : PPBController :=
  { c with
    packetAnalyzer := c.packetAnalyzer.map PacketAnalyzer.clear
    lastSentPackets := []
    lastReceivedPackets := [] }

def onCommandDataParsed (c : PPBController) (address : UInt16) (data : ParsedData)
    (command : TechCommand) : PPBController :=
  match addressToIndex address, data, command with
  | some index, .factoryNumber value, .factoryNumber =>
    let state := { c.realStates index with factoryNumber := value }
    { c with realStates := Function.update c.realStates index state }
  | _, _, _ => c

/-- The slots connected by `connectCommunicationSignals`. -/
def onSignal (codeToVSWR : Nat → UInt16 → FloatBits) (c : PPBController) :
    Signal → PPBController
  | .statusReceived address mask data =>
    { c with toPpbData := onStatusReceived codeToVSWR c.toPpbData address mask data }
  | .sentPacketsSaved packets => c.saveSentPackets packets
  | .receivedPacketsSaved packets => c.saveReceivedPackets packets
  | .clearPacketDataRequested => c.onClearPacketDataRequested
  | .commandDataParsed address data command => c.onCommandDataParsed address data command
  | _ => c

end PPBController

/-! The controller as a machine. -/

/-- The public calls. -/
inductive PublicCall where
  | connectToPPB (address : UInt16) (ip : String) (port : UInt16)
  | disconnect
  | setBridgeAddress (ip : String) (port : UInt16)
  | requestStatus (address : UInt16)
  | sendTC (address : UInt16)
  | resetPPB (address : UInt16) (payload : Bytes)
  | setFUReceive (address duration : UInt16) (dutyCycle : UInt8 × UInt8 × UInt8)
  | setFUTransmit (address duration : UInt16) (dutyCycle : UInt8 × UInt8 × UInt8)
  | setFUReceiveTransmit (address duration : UInt16) (dutyCycle : UInt8 × UInt8 × UInt8)
  | startPRBS_M2S (address : UInt16)
  | startPRBS_S2M (address : UInt16)
  | requestVersion (address : UInt16)
  | requestVolume (address : UInt16) (hexFile : Option (List Line)) (newVersion : Option ℚ)
  | requestChecksum (address : UInt16)
  | sendProgram (address : UInt16)
  | sendClean (address : UInt16)
  | requestDroppedPackets (address : UInt16)
  | requestBER_T (address : UInt16)
  | requestBER_F (address : UInt16)
  | requestFabricNumber (address : UInt16)
  | exucuteCommand (tech : TechCommand) (address : UInt16)
  | startAutoPoll
  | stopAutoPoll
  | setCurrentAddress (address : UInt16)
  | setCommunication (communication : Option CommunicationId)
  | updateFirmware (selectedMask : UInt16) (hexFile : Option (List Line)) (newVersion : Option ℚ)
  | loadScenario (fileName : String)
  | runScenario
  | stopScenario
  | setPowerSetting (ppbIndex : UInt8) (channel : Int) (watts : FloatBits)
  | setFuBlockedSetting (ppbIndex : UInt8) (blocked : Bool)
  | setRebootRequestedSetting (ppbIndex : UInt8) (reboot : Bool)
  | setResetErrorsSetting (ppbIndex : UInt8) (reset : Bool)
  | setPowerEnabledSetting (ppbIndex : UInt8) (enabled : Bool)
  | resetSettingsToReal (ppbIndex : UInt8)
  | saveSentPackets (packets : List DataPacket)
  | saveReceivedPackets (packets : List DataPacket)

/-- What happens in the controller's thread, one event at a time. -/
inductive ControllerEvent where
  | called (call : PublicCall) (answers : Answers)
  | autoPollTimeout (answers : Answers)
  | scenarioFinished
  | delivered (signal : Signal)
  | noticed (signal : Signal)
  | timedOut
  | resume (groupId : Nat)
  | resumeLoad (answers : Answers)

namespace PPBController

def take (c : PPBController) (answers : Answers) : PublicCall → PPBController
  | .connectToPPB address ip port => c.connectToPPB address ip port
  | .disconnect => c.disconnect
  | .setBridgeAddress ip port => c.setBridgeAddress ip port
  | .requestStatus address => c.requestStatus address answers
  | .sendTC address => c.sendTC address
  | .resetPPB address payload => c.resetPPB address payload
  | .setFUReceive address duration dutyCycle => c.setFUReceive address duration dutyCycle answers
  | .setFUTransmit address duration dutyCycle => c.setFUTransmit address duration dutyCycle answers
  | .setFUReceiveTransmit address duration dutyCycle =>
    c.setFUReceiveTransmit address duration dutyCycle answers
  | .startPRBS_M2S address => c.startPRBS_M2S address
  | .startPRBS_S2M address => c.startPRBS_S2M address
  | .requestVersion address => c.requestVersion address
  | .requestVolume address hexFile newVersion => c.requestVolume address hexFile newVersion answers
  | .requestChecksum address => c.requestChecksum address
  | .sendProgram address => c.sendProgram address
  | .sendClean address => c.sendClean address
  | .requestDroppedPackets address => c.requestDroppedPackets address
  | .requestBER_T address => c.requestBER_T address
  | .requestBER_F address => c.requestBER_F address
  | .requestFabricNumber address => c.requestFabricNumber address
  | .exucuteCommand tech address => c.exucuteCommand tech address
  | .startAutoPoll => c.startAutoPoll
  | .stopAutoPoll => c.stopAutoPoll
  | .setCurrentAddress address => c.setCurrentAddress address
  | .setCommunication communication => c.setCommunication communication answers
  | .updateFirmware selectedMask hexFile newVersion =>
    c.updateFirmware selectedMask hexFile newVersion answers
  | .loadScenario fileName => c.loadScenario fileName answers
  | .runScenario => c.runScenario answers
  | .stopScenario => c.stopScenario
  | .setPowerSetting ppbIndex channel watts => c.setPowerSetting ppbIndex channel watts
  | .setFuBlockedSetting ppbIndex blocked => c.setFuBlockedSetting ppbIndex blocked
  | .setRebootRequestedSetting ppbIndex reboot => c.setRebootRequestedSetting ppbIndex reboot
  | .setResetErrorsSetting ppbIndex reset => c.setResetErrorsSetting ppbIndex reset
  | .setPowerEnabledSetting ppbIndex enabled => c.setPowerEnabledSetting ppbIndex enabled
  | .resetSettingsToReal ppbIndex => c.resetSettingsToReal ppbIndex
  | .saveSentPackets packets => c.saveSentPackets packets
  | .saveReceivedPackets packets => c.saveReceivedPackets packets

/-- One event; `none` where it cannot happen: a loop returns only after it was told to quit, and only
if it is the innermost one. -/
def handle (codeToVSWR : Nat → UInt16 → FloatBits) (c : PPBController) :
    ControllerEvent → Option PPBController
  | .called call answers => some (c.take answers call)
  | .autoPollTimeout answers => some (c.onAutoPollTimeout answers)
  | .scenarioFinished => some c.onScenarioFinished
  | .delivered signal => some ((c.emit (.delivered signal)).onSignal codeToVSWR signal)
  | .noticed signal =>
    match c.firmware with
    | some f => some { c.emit (.noticed signal) with firmware := some (f.notice signal) }
    | none => none
  | .timedOut =>
    match c.firmware with
    | some f =>
      if f.wait.timerActive then some { c.emit .timedOut with firmware := some f.timeout } else none
    | none => none
  | .resume groupId =>
    match c.firmware with
    | some f => if f.wait.quit then some (c.resumeFirmware f groupId) else none
    | none => none
  | .resumeLoad answers =>
    match c.firmware, c.scenarioLoads with
    | none, load :: rest => some (c.resumeLoad load rest answers)
    | _, _ => none

/-- A run; `none` if an event of it cannot happen. -/
def run (codeToVSWR : Nat → UInt16 → FloatBits) (c : PPBController)
    (events : List ControllerEvent) : Option PPBController :=
  events.foldlM (handle codeToVSWR) c

end PPBController

end PPB
