import PPBProject.Engine
import PPBProject.Lib.Machine

/- What drives `communicationengine`: the calls of its public interface, the
   datagrams, the timers and the posted callbacks, and the labelled system they
   make of it.

   `onDataReceived` keeps a raw `PPBContext*` across a callback that may complete
   the operation and erase the entry. Reads through it are modelled by the
   `erasures` count taken when the datagram arrived: while the count stands, the
   live entry is read; once it moved, the pointer reads the value the entry last
   held, and an entry is erased only after `operationCompleted` was set.

   Correspondence (C++ ↔ Lean):
     `CommandHost`                       ↔ `hostCall`, `runCallback`
     `context->operationCompleted` after a callback ↔ `readCompleted`
     `executeCommand` (both overloads)   ↔ `executeCommand`, `executeCommandWithData`
     the iteration order of `unordered_map` in `processCommandQueue`
                                         ↔ the `order` an event carries
     `QTimer::timeout`, `singleShot`     ↔ `Event.timeout`, `Event.posted`
   Calls from another thread are queued to the engine's own and arrive as events. -/
namespace PPB

namespace Engine

/-! Callbacks. -/

/-- One call through `CommandHost`. -/
def hostCall (address : UInt16) (s : Engine) : HostCall → Engine
  | .setParseResult success message => s.setCommandParseResult address success message
  | .setParseData data => s.setCommandParseData address data
  | .completeCurrentOperation success message => s.completeOperation address success message
  | .clearCurrentVolumeData => { s with statics := s.statics.clearCurrentVolumeData }
  | .clearCurrentVersion => { s with statics := s.statics.clearCurrentVersion }
  | .setState _ | .startTimeoutTimer _ | .statusDataReady _ | .notifySentPackets _
  | .notifyReceivedPackets _ => s

def runCallback (s : Engine) (address : UInt16) (calls : List HostCall) : Engine :=
  calls.foldl (hostCall address) s

/-- `operationCompleted` read through a pointer taken when the entry had been erased
`erasures` times. -/
def readCompleted (s : Engine) (address : UInt16) (erasures : Nat) : Bool :=
  if s.erasures address = erasures then
    match s.findContext address with
    | some c => c.operationCompleted
    | none => true
  else true

/-! Received datagrams. -/

/-- `context && context->currentCommand && !context->operationCompleted`, and the command. -/
def commandInFlight (s : Engine) (address : UInt16) : Option Request :=
  ((s.findContext address).filter PPBContext.inFlight).bind (·.currentCommand)

def errorCodeToString (code : UInt8) : String :=
  if code = 0x00 then "OK"
  else if code = 0x01 then "Нет ответа от ППБ"
  else if code = 0x02 then "Неверный формат сообщения"
  else if code = 0x03 then "ППБ не ожидал такой команды"
  else if code = 0x04 then "Неизвестная команда"
  else s!"Неизвестный код ошибки 0x{hexPadded code.toNat 2}"

/-- Store what a bridge reply says and complete the operation with it. -/
def completeWithBridgeReply (s : Engine) (address : UInt16) (success : Bool) (message : String)
    (data : Option ParsedData) : Engine :=
  ((s.setCommandParseResult address success message).setCommandParseData address data)
    |>.completeOperation address success message

/-- `Маска активных ППБ`, with the mask. -/
def maskMessage (mask : UInt16) : String :=
  s!"Маска активных ППБ: 0x{hexPadded mask.toNat 4}"

/-- IS_YOU in flight at the address the datagram starts with, and a bridge reply. -/
def completeIsYou (s : Engine) (address : UInt16) (event : ProtocolEvent) : Engine :=
  match event.payload with
  | [high, low] =>
    -- the mask is big-endian, like an address
    let mask := fromBigEndian high low
    s.completeWithBridgeReply address true (maskMessage mask) (some (.activeMask mask))
  | payload =>
    if payload = errReply then
      s.completeWithBridgeReply address false "Необъяснимая ошибка от бриджа (ERR)" none
    else s.completeWithBridgeReply address false "Неизвестный ответ бриджа" none

/-- The `switch` on the type of a TU reply, for the command in flight at `address`. -/
def handleTUEvent (s : Engine) (address : UInt16) (command : PPBCommand) (event : ProtocolEvent) :
    Engine :=
  match event.type with
  | .error =>
    s.completeOperation address false
      s!"Ошибка ППБ: 0x{hexPadded event.status.toNat 2} ({errorCodeToString event.status})"
  | .ok =>
    -- the callback may have completed the operation, so the pointer is read once more
    let s' := s.runCallback address command.onOkReceived
    if s'.readCompleted address (s.erasures address) then s'
    else s'.completeOperation address true "Команда выполнена"
  | .data =>
    let s' := s.runCallback address (command.onDataReceived [event.payload])
    if s'.readCompleted address (s.erasures address) then s'
    else
      -- not erased, so the pointer still reads the live entry
      let context := (s'.findContext address).getD {}
      s'.completeOperation address context.parsedSuccess context.parsedMessage
  | .unknown | .bridgeResponse => s

/-- A 4-byte acknowledgement that echoes another command. -/
def isStaleAck (command : PPBCommand) (data : Bytes) (event : ProtocolEvent) : Bool :=
  data.length = 4 ∧ event.type = .ok ∧ event.command ≠ command.commandId.code

/-- The branch for an operation in flight at the address the datagram starts with;
`none` when no parser takes the datagram there. -/
def dispatchToOperation (s : Engine) (address : UInt16) (command : PPBCommand) (data : Bytes) :
    Option Engine :=
  let bridge := parseBridgeResponse data
  match if command.commandId = .isYou then bridge else none with
  | some event => some (s.completeIsYou address event)
  | none =>
    match parseTUResponse data with
    | some event =>
      if isStaleAck command data event then some s
      else some (s.handleTUEvent address command event)
    | none =>
      bridge.map fun _ => s.completeOperation address false "Неожиданный Bridge-ответ"

/-- A bridge reply that no operation at the datagram's first word has taken. -/
def handleBridgeEvent (s : Engine) (event : ProtocolEvent) : Engine :=
  match s.commandInFlight event.address with
  | some request =>
    let success := event.status = 1 ∨ request.command.commandId = .isYou
    match event.payload with
    | [high, low] =>
      let mask := fromBigEndian high low
      s.completeWithBridgeReply event.address success (maskMessage mask) (some (.activeMask mask))
    | payload =>
      if payload = errReply then
        s.completeWithBridgeReply event.address false "Необъяснимая ошибка от бриджа (ERR)" none
      else
        s.completeWithBridgeReply event.address success
          (if success then "Команда выполнена" else "Ошибка команды") none
  | none =>
    -- FU requests are not tracked, so nothing else is known of them
    s.emit (.fuCommandCompleted event.address event.command (event.status = 1)
      (if event.status = 1 then "ФУ команда выполнена" else "Ошибка ФУ"))

/-- What is left of `onDataReceived` when no operation has taken the datagram. -/
def handleUnclaimed (s : Engine) (data : Bytes) : Engine :=
  match parseBridgeResponse data with
  | some event => s.handleBridgeEvent event
  | none => s

def onDataReceived (s : Engine) (data : Bytes) : Engine :=
  if data.length < 2 then s
  else
    let address := addressFromPacket data
    match s.commandInFlight address with
    | some request =>
      (s.dispatchToOperation address request.command data).getD (s.handleUnclaimed data)
    | none => s.handleUnclaimed data

/-! The public interface. -/

/-- A single command enters the queue of its address. -/
def acceptQueued (s : Engine) (address : UInt16) (command : PPBCommand) : Engine :=
  let origin := Origin.single s.nextTicket
  ({ s with nextTicket := s.nextTicket + 1 }.emit (.accepted address origin true)).enqueue address
    { origin, command }

/-- A single command is executed at once. -/
def acceptImmediately (s : Engine) (address : UInt16) (command : PPBCommand) : Engine :=
  let origin := Origin.single s.nextTicket
  ({ s with nextTicket := s.nextTicket + 1 }.emit (.accepted address origin false))
    |>.executeCommandImmediately address { origin, command } false

/-- The common part of the `executeCommand` overloads. -/
def submit (s : Engine) (address : UInt16) (command : PPBCommand) : Engine :=
  -- address 0 carries the firmware stream and stays behind every group
  if address = 0 ∧ s.groupsOutstanding then s.acceptQueued address command
  else if s.isSending address then s.acceptQueued address command
  else s.acceptImmediately address command

def connectToPPB (s : Engine) (address : UInt16) (ip : String) (port : UInt16) : Engine × Bool :=
  let s := { s with currentAddress := address, currentIP := ip, currentPort := port }
  match create .ts with
  | none => (s, false)
  -- never executed at once, even if the address is free
  | some tsCommand => (s.acceptQueued address tsCommand, true)

/-- It leaves the contexts, their timers and `m_busy` as they are. -/
def disconnect (s : Engine) : Engine :=
  { s with queues := ∅, pendingGroupCommands := [], groupOperations := [], states := ∅ }
    |>.emit .disconnected

def executeCommand (s : Engine) (cmd : TechCommand) (address : UInt16) : Engine :=
  match create cmd with
  | none => s.emit (.errorOccurred s!"Неизвестная команда: {cmd.code}")
  | some command => s.submit address command

def executeCommandWithData (s : Engine) (cmd : TechCommand) (address : UInt16) (data : Bytes) :
    Engine :=
  s.submit address (.dataCommand cmd data)

def executeGroupCommand (s : Engine) (cmd : TechCommand) (mask : UInt16) (data : Bytes) :
    Engine × Nat :=
  if nonempty : mask = 0 then (s.emit (.errorOccurred "Group command: empty mask"), 0)
  else if known : (create cmd).isSome then
    let groupId := s.nextGroupId
    let s := { s with nextGroupId := groupId + 1 }
    if !s.canStartGroupCommand mask then
      ((s.emit (.groupAccepted groupId mask true)).pushPending
        { groupId, command := cmd, mask, data, known, nonempty }, groupId)
    else
      let (s, started) :=
        (s.emit (.groupAccepted groupId mask false)).startGroupCommand groupId cmd mask data
      if started then (s, groupId)
      else
        (s.emit (.groupCommandCompleted groupId false "Не удалось запустить групповую команду"),
          groupId)
  else (s.emit (.errorOccurred s!"Group command: unknown command {cmd.code}"), 0)

/-- The three `sendFU*` calls: an FU request is sent and not tracked. -/
def sendFU (s : Engine) (mode : FuCommand) (address : UInt16) (period : UInt8)
    (fuData : Option (UInt8 × UInt8 × UInt8)) : Engine :=
  s.sendPacketInternal (createFURequest address mode.code period fuData)

def sendFUTransmit (s : Engine) := s.sendFU .transmit

def sendFUReceive (s : Engine) := s.sendFU .receive

def sendFUReceiveTransmit (s : Engine) := s.sendFU .receiveTransmit

def sendDataPackets (s : Engine) (packets : List DataPacket) : Engine :=
  (packets.foldl (fun s packet => s.sendPacketInternal [packet.1, packet.2]) s).emit
    (.sentPacketsSaved packets)

def setBridgeAddress (s : Engine) (ip : String) (port : UInt16) : Engine :=
  { s with currentIP := ip, currentPort := port }

def clearCommandQueue (s : Engine) (address : UInt16) : Engine :=
  let origins := (s.queueOf address).map (·.origin)
  { s with queues := s.queues.erase address }.emit (.cleared address origins)

/-! Timers and posted callbacks. -/

/-- The single-shot timer of `address` has fired and is no longer running. -/
def onOperationTimeout (s : Engine) (address : UInt16) : Engine :=
  let s := s.modifyContext address fun c => { c with operationTimer := none }
  match s.findContext address with
  | some c => if c.inFlight then s.completeOperation address false "Таймаут операции" else s
  | none => s

def onNetworkError (s : Engine) (error : String) : Engine := s.emit (.errorOccurred error)

/-- Take the front of a queue and execute it. -/
def dequeueAndExecute (s : Engine) (address : UInt16) : Engine :=
  match s.dequeue address with
  | (s, some request) => s.executeCommandImmediately address request false
  | (s, none) => s

/-- The loop body of `processCommandQueue`. -/
def processQueued (s : Engine) (address : UInt16) : Engine :=
  if address = 0 ∧ s.groupsOutstanding then s
  else if !s.isSending address then s.dequeueAndExecute address
  else s

def processCommandQueue (s : Engine) (addresses : List UInt16) : Engine :=
  addresses.foldl processQueued s

def processNextCommandForAddress (s : Engine) (address : UInt16) : Engine :=
  if s.getState address ≠ .ready then s else s.dequeueAndExecute address

end Engine

/-! The engine as a labelled system. -/

inductive Event where
  | connectToPPB (address : UInt16) (ip : String) (port : UInt16)
  | disconnect
  | executeCommand (cmd : TechCommand) (address : UInt16)
  | executeCommandWithData (cmd : TechCommand) (address : UInt16) (data : Bytes)
  | executeGroupCommand (cmd : TechCommand) (mask : UInt16) (data : Bytes)
  | sendFU (mode : FuCommand) (address : UInt16) (period : UInt8)
      (fuData : Option (UInt8 × UInt8 × UInt8))
  | sendDataPackets (packets : List DataPacket)
  | setBridgeAddress (ip : String) (port : UInt16)
  | clearCommandQueue (address : UInt16)
  | setCurrentVolumeData (payload : Bytes) (marker : UInt8) (totalSize : UInt16)
      (data : UInt8 × UInt8 × UInt8)
  | setCurrentVersion (version : Bytes)
  | datagram (data : Bytes)
  | timeout (address : UInt16)
  | networkError (error : String)
  | queueTick (order : List UInt16)
  | posted (index : Nat) (order : List UInt16)
  deriving DecidableEq

namespace Engine

/-- `order` is an order in which the queue map may be iterated. -/
def isQueueOrder (s : Engine) (order : List UInt16) : Prop := order.Perm s.queues.keys

instance (s : Engine) (order : List UInt16) : Decidable (s.isQueueOrder order) :=
  inferInstanceAs (Decidable (order.Perm s.queues.keys))

/-- When an event may happen: a timer must be running, a posted callback must be there. -/
def enabled (s : Engine) : Event → Prop
  | .timeout address => ((s.findContext address).bind (·.operationTimer)).isSome
  | .queueTick order => s.isQueueOrder order
  | .posted index order =>
    s.posted[index]?.isSome ∧ (s.posted[index]? = some .processCommandQueue → s.isQueueOrder order)
  | _ => True

instance (s : Engine) : (e : Event) → Decidable (s.enabled e)
  | .timeout address =>
    inferInstanceAs (Decidable (((s.findContext address).bind (·.operationTimer)).isSome = true))
  | .queueTick order => inferInstanceAs (Decidable (s.isQueueOrder order))
  | .posted index order =>
    inferInstanceAs (Decidable (s.posted[index]?.isSome = true ∧
      (s.posted[index]? = some .processCommandQueue → s.isQueueOrder order)))
  | .connectToPPB .. | .disconnect | .executeCommand .. | .executeCommandWithData ..
  | .executeGroupCommand .. | .sendFU .. | .sendDataPackets _ | .setBridgeAddress ..
  | .clearCommandQueue _ | .setCurrentVolumeData .. | .setCurrentVersion _ | .datagram _
  | .networkError _ => isTrue trivial

/-- A posted callback runs and is gone. -/
def runPosted (s : Engine) (index : Nat) (order : List UInt16) : Engine :=
  let callback := s.posted[index]?
  let s := { s with posted := s.posted.eraseIdx index }
  match callback with
  | some (.processNextCommandForAddress address) => s.processNextCommandForAddress address
  | some .processCommandQueue => s.processCommandQueue order
  | none => s

def handle (s : Engine) : Event → Engine
  | .connectToPPB address ip port => (s.connectToPPB address ip port).1
  | .disconnect => s.disconnect
  | .executeCommand cmd address => s.executeCommand cmd address
  | .executeCommandWithData cmd address data => s.executeCommandWithData cmd address data
  | .executeGroupCommand cmd mask data => (s.executeGroupCommand cmd mask data).1
  | .sendFU .transmit address period fuData => s.sendFUTransmit address period fuData
  | .sendFU .receive address period fuData => s.sendFUReceive address period fuData
  | .sendFU .receiveTransmit address period fuData => s.sendFUReceiveTransmit address period fuData
  | .sendDataPackets packets => s.sendDataPackets packets
  | .setBridgeAddress ip port => s.setBridgeAddress ip port
  | .clearCommandQueue address => s.clearCommandQueue address
  | .setCurrentVolumeData payload marker totalSize data =>
    { s with statics := s.statics.setCurrentVolumeData payload marker totalSize data }
  | .setCurrentVersion version => { s with statics := s.statics.setCurrentVersion version }
  | .datagram data => s.onDataReceived data
  | .timeout address => s.onOperationTimeout address
  | .networkError error => s.onNetworkError error
  | .queueTick order => s.processCommandQueue order
  | .posted index order => s.runPosted index order

/-- A new engine; the static members outlive engines and may hold anything. -/
def init (udpClient : Option UdpClient) (statics : Statics) : Engine := { udpClient, statics }

/-- The engine as a labelled system: every order of enabled events is a run. -/
def machine : Machine.System Engine Event where
  start s := ∃ udpClient statics, s = init udpClient statics
  step s e s' := s.enabled e ∧ s' = s.handle e

/-- The end of the run that takes the events in order, if each is enabled in its turn. -/
def run (s : Engine) : List Event → Option Engine
  | [] => some s
  | e :: rest => if s.enabled e then (s.handle e).run rest else none

/-- Every step of the run that takes the events in order meets `P`. -/
def Along (P : Engine → Event → Prop) (s : Engine) : List Event → Prop
  | [] => True
  | e :: rest => P s e ∧ (s.handle e).Along P rest

end Engine

/-- The states of all runs whose every step meets the guard. -/
abbrev Reachable (guard : Engine → Event → Prop) : Engine → Prop :=
  Machine.Reach Engine.machine guard

/-- No step is a `disconnect`. -/
def NoDisconnect (_ : Engine) (e : Event) : Prop := e ≠ .disconnect

/-- The guard that allows every step. -/
def AnyStep (_ : Engine) (_ : Event) : Prop := True

/-- Taking events that the guard allows in any state leads from run to run. -/
theorem reachable_run {guard : Engine → Event → Prop} {s s' : Engine} {events : List Event}
    (hs : Reachable guard s) (hguard : ∀ e ∈ events, ∀ t, guard t e)
    (hrun : s.run events = some s') : Reachable guard s' := by
  induction events generalizing s with
  | nil => exact Option.some.inj hrun ▸ hs
  | cons e rest ih =>
    simp only [Engine.run, Option.ite_none_right_eq_some] at hrun
    exact ih (.step hs (hguard e (by simp) s) ⟨hrun.1, rfl⟩)
      (fun other hmem => hguard other (by simp [hmem])) hrun.2

/-- What every reachable state's allowed steps meet, every step of an allowed run meets. -/
theorem along_run {guard P : Engine → Event → Prop}
    (hstep : ∀ s e, Reachable guard s → s.enabled e → guard s e → P s e) {s : Engine}
    {events : List Event} (hs : Reachable guard s) (hrun : (s.run events).isSome)
    (hguard : s.Along guard events) :
    s.Along P events := by
  induction events generalizing s with
  | nil => trivial
  | cons e rest ih =>
    obtain ⟨hallowed, hguard⟩ := hguard
    obtain ⟨s', hrun⟩ := Option.isSome_iff_exists.mp hrun
    simp only [Engine.run, Option.ite_none_right_eq_some] at hrun
    refine ⟨hstep s e hs hrun.1 hallowed, ih (.step hs hallowed ⟨hrun.1, rfl⟩) ?_ hguard⟩
    rw [hrun.2]
    rfl

/-- A VERS in flight at address 1. -/
def Engine.versInFlight : Engine := (init none {}).handle (.executeCommand .vers 1)

theorem Engine.versInFlight_reachable {guard : Engine → Event → Prop}
    (hguard : guard (init none {}) (.executeCommand .vers 1)) : Reachable guard versInFlight :=
  .step (.start ⟨none, {}, rfl⟩) hguard ⟨trivial, rfl⟩

end PPB
