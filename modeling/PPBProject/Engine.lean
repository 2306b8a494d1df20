import PPBProject.Command

/- The state of `communicationengine` and its mutually recursive core:
   `executeCommandImmediately`, `completeOperation`, `startGroupCommand` and
   `tryStartPendingGroupCommands`.

   A completion may start the front pending group, a group start may complete a
   member whose request cannot be built, and that completion may start the next
   pending group. Each function takes the nested `tryStartPendingGroupCommands`
   as a parameter (`tryStart`) and follows the source text; the recursion is tied
   at the end of the module on the length of `m_pendingGroupCommands`, which every
   nested start shortens; that the result satisfies the source's own recursive
   equation is `tryStartPendingGroupCommands_eq`, where nested starts are studied.

   Signals are not re-entrant: the facade runs in the engine's thread and only
   re-emits, and the controller's slots are queued, so an emission is an entry
   appended to `log`. `log` also holds what a verifier wants to know and the code
   does not store: which request was accepted, started, cleared.

   Correspondence (C++ ↔ Lean):
     `m_contexts`, `m_stateManager`, `m_commandQueue` ↔ `contexts`, `states`, `queues`
     `std::map m_groupOperations` (iterated by id)    ↔ `groupOperations`, sorted by id
     `QTimer::singleShot(0, …)`                       ↔ `posted`
     a running `operationTimer`                       ↔ `operationTimer = some interval`
     `UDPClient` behind its return value              ↔ `UdpClient`
     a raw `PPBContext*`                              ↔ an address and its `erasures` count
   Left out: log lines, `waitingForOk`, `generatedPackets`, `receivedPackets`,
   `parsedPackets`, `stateBeforeCommand` and `GroupInfo::messages`, which nothing
   reads, and the 64-bit wrap-around of `m_nextGroupId`. -/
namespace PPB

/-- Which accepted request an operation serves: the `n`-th single command, or a group. -/
inductive Origin where
  | single (ticket : Nat)
  | group (groupId : Nat)
  deriving DecidableEq, Repr

/-- A command object with the request it was made for. -/
structure Request where
  origin : Origin
  command : PPBCommand
  deriving DecidableEq

/-- One execution of a command at an address. -/
structure Operation where
  address : UInt16
  origin : Origin
  command : TechCommand
  deriving DecidableEq, Repr

def Request.operation (request : Request) (address : UInt16) : Operation :=
  { address, origin := request.origin, command := request.command.commandId }

/-- `PPBContext`, with its default member values. -/
structure PPBContext where
  currentCommand : Option Request := none
  operationCompleted : Bool := false
  operationTimer : Option Nat := none
  parsedMessage : String := ""
  parsedSuccess : Bool := false
  parsedData : Option ParsedData := none
  suppressSend : Bool := false

/-- The move assignment: it takes the command and the timer, nothing else. -/
def PPBContext.moveAssign (self other : PPBContext) : PPBContext :=
  { self with currentCommand := other.currentCommand, operationTimer := other.operationTimer }

/-- The entry `executeCommandImmediately` leaves: `context = PPBContext()`, then the
assignments. What the move assignment skips survives. -/
def PPBContext.reset (self : PPBContext) (request : Request) (suppressSend : Bool) : PPBContext :=
  { self.moveAssign {} with
    currentCommand := some request, suppressSend, operationCompleted := false }

/-- What a command has stored about its response. -/
def PPBContext.withResults (c : PPBContext) (success : Bool) (message : String)
    (data : Option ParsedData) : PPBContext :=
  { c with parsedSuccess := success, parsedMessage := message, parsedData := data }

def PPBContext.clearParseResults (c : PPBContext) : PPBContext :=
  { c with parsedMessage := "", parsedSuccess := false, parsedData := none }

/-- `currentCommand && !operationCompleted`. -/
def PPBContext.inFlight (c : PPBContext) : Bool := c.currentCommand.isSome && !c.operationCompleted

structure GroupInfo where
  pendingAddresses : List UInt16
  results : Table Bool := ∅

/-- A waiting group. `executeGroupCommand` lets in only commands the factory knows and
masks with a bit set. -/
structure PendingGroupCommand where
  groupId : Nat
  command : TechCommand
  mask : UInt16
  data : Bytes
  known : (create command).isSome
  nonempty : mask ≠ 0
  deriving DecidableEq

/-- The callbacks posted with a zero timer. -/
inductive Posted where
  | processNextCommandForAddress (address : UInt16)
  | processCommandQueue
  deriving DecidableEq, Repr

inductive Destination where
  | broadcast (port : UInt16)
  | host (ip : String) (port : UInt16)
  deriving DecidableEq, Repr

/-- What one call of `sendTo` or `sendBroadcast` does: its return value, and the
texts of the `errorOccurred` signals it emits. -/
structure SendResult where
  bytesSent : Int
  errors : List String := []

/-- The transport as the engine sees it: the result of its `n`-th call. -/
abbrev UdpClient := Nat → SendResult

/-- An entry of the engine's log: bookkeeping of requests, datagrams handed to UDP,
and emitted signals. The signals of an operation carry the operation; what the
receiver gets is `Output.signal?`. -/
inductive Output where
  | accepted (address : UInt16) (origin : Origin) (queued : Bool)
  | cleared (address : UInt16) (origins : List Origin)
  | groupAccepted (groupId : Nat) (mask : UInt16) (queued : Bool)
  | groupStarted (groupId : Nat) (mask : UInt16)
  | started (op : Operation) (behindGroups : Bool)
  | datagramSent (destination : Destination) (packet : Bytes)
  | commandCompleted (op : Operation) (success : Bool) (report : String)
  | commandDataParsed (op : Operation) (data : ParsedData)
  | statusReceived (op : Operation) (mask : UInt32) (data : List Bytes)
  | groupCommandCompleted (groupId : Nat) (allSuccess : Bool) (summary : String)
  | fuCommandCompleted (address : UInt16) (command : UInt8) (success : Bool) (message : String)
  | stateChanged (address : UInt16) (state : PPBState)
  | busyChanged (busy : Bool)
  | errorOccurred (error : String)
  | disconnected
  | sentPacketsSaved (packets : List DataPacket)
  deriving DecidableEq

structure Engine where
  udpClient : Option UdpClient
  sendCalls : Nat := 0
  statics : Statics := {}
  states : Table PPBState := ∅
  queues : Table (List Request) := ∅
  contexts : Table PPBContext := ∅
  /-- how often the context entry of an address has been erased -/
  erasures : UInt16 → Nat := fun _ => 0
  groupOperations : List (Nat × GroupInfo) := []
  pendingGroupCommands : List PendingGroupCommand := []
  nextGroupId : Nat := 1
  nextTicket : Nat := 0
  busy : Bool := false
  currentAddress : UInt16 := 0
  currentIP : String := ""
  currentPort : UInt16 := 0
  posted : List Posted := []
  log : List Output := []

namespace Engine

/-! Elementary updates. -/

def emit (s : Engine) (o : Output) : Engine := { s with log := s.log ++ [o] }

def emitAll (s : Engine) (os : List Output) : Engine := { s with log := s.log ++ os }

def post (s : Engine) (callback : Posted) : Engine := { s with posted := s.posted ++ [callback] }

/-- `StateManager::getState`: an unknown address is Idle. -/
def getState (s : Engine) (address : UInt16) : PPBState := (s.states.lookup address).getD .idle

/-- Neither Ready nor Idle. -/
def isSending (s : Engine) (address : UInt16) : Bool := s.getState address = .sendingCommand

def findContext (s : Engine) (address : UInt16) : Option PPBContext := s.contexts.lookup address

def setContext (s : Engine) (address : UInt16) (c : PPBContext) : Engine :=
  { s with contexts := s.contexts.insert address c }

/-- Write through a `PPBContext*` of an existing entry. -/
def modifyContext (s : Engine) (address : UInt16) (f : PPBContext → PPBContext) : Engine :=
  match s.findContext address with
  | some c => s.setContext address (f c)
  | none => s

def queueOf (s : Engine) (address : UInt16) : List Request := (s.queues.lookup address).getD []

/-- `CommandQueue::enqueue`. -/
def enqueue (s : Engine) (address : UInt16) (request : Request) : Engine :=
  { s with queues := s.queues.insert address (s.queueOf address ++ [request]) }

/-- `CommandQueue::dequeue`; the entry of an emptied queue is erased. -/
def dequeue (s : Engine) (address : UInt16) : Engine × Option Request :=
  match s.queueOf address with
  | [] => (s, none)
  | [request] => ({ s with queues := s.queues.erase address }, some request)
  | request :: rest => ({ s with queues := s.queues.insert address rest }, some request)

/-- `m_pendingGroupCommands.push_back`. -/
def pushPending (s : Engine) (pending : PendingGroupCommand) : Engine :=
  { s with pendingGroupCommands := s.pendingGroupCommands ++ [pending] }

/-- Some group is active or waiting: the firmware barrier of address 0. -/
def groupsOutstanding (s : Engine) : Bool :=
  !s.groupOperations.isEmpty || !s.pendingGroupCommands.isEmpty

def clearContext (s : Engine) (address : UInt16) : Engine :=
  match s.findContext address with
  | some _ =>
    { s with
      contexts := s.contexts.erase address
      erasures := Function.update s.erasures address (s.erasures address + 1) }
  | none => s

def anyInFlight (s : Engine) : Bool := s.contexts.entries.any fun entry => entry.2.inFlight

def updateBusyState (s : Engine) : Engine :=
  if s.busy ≠ s.anyInFlight then { s with busy := s.anyInFlight }.emit (.busyChanged s.anyInFlight)
  else s

def setCommandParseResult (s : Engine) (address : UInt16) (success : Bool) (message : String) :
    Engine :=
  s.modifyContext address fun c => { c with parsedSuccess := success, parsedMessage := message }

def setCommandParseData (s : Engine) (address : UInt16) (data : Option ParsedData) : Engine :=
  s.modifyContext address fun c => { c with parsedData := data }

/-! Sending. -/

/-- `sendBroadcast` or `sendTo`, by the bridge address; returns the bytes sent. -/
def handToUdp (s : Engine) (client : UdpClient) (packet : Bytes) : Engine × Int :=
  let destination :=
    if s.currentIP = "" ∨ s.currentIP = "255.255.255.255" then .broadcast s.currentPort
    else .host s.currentIP s.currentPort
  let result := client s.sendCalls
  let s := { s with sendCalls := s.sendCalls + 1 }.emit (.datagramSent destination packet)
  (s.emitAll (result.errors.map .errorOccurred), result.bytesSent)

def sendPacketInternal (s : Engine) (packet : Bytes) : Engine :=
  match s.udpClient with
  | none => s.emit (.errorOccurred "UDPClient не инициализирован")
  | some client => (s.handToUdp client packet).1

/-! The state machine of one address. -/

def transitionState (s : Engine) (address : UInt16) (newState : PPBState) : Engine :=
  if s.getState address = newState then s
  else
    let s := match newState with
      -- a failed operation leaves no context behind
      | .idle => s.clearContext address
      | .ready => s.post (.processNextCommandForAddress address)
      | .sendingCommand => s
    let s := { s with states := s.states.insert address newState }
    if address = s.currentAddress then s.emit (.stateChanged address newState) else s

/-- The message an operation is reported with: a parse message wins. -/
def finalMessage (c : PPBContext) (message : String) : String :=
  if c.parsedSuccess then (if c.parsedMessage.isEmpty then message else c.parsedMessage)
  else if !c.parsedMessage.isEmpty then c.parsedMessage
  else message

/-- `parsedData.toMap()["mask"].toUInt()` and `["packets"].toList()`; a missing entry is 0
or the empty list. -/
def statusOf : Option ParsedData → UInt32 × List Bytes
  | some (.status mask packets) => (mask, packets)
  | some (.activeMask mask) => (mask.toUInt32, [])
  | _ => (0, [])

/-- The signals `completeOperation` emits for the operation itself. -/
def reportOf (op : Operation) (c : PPBContext) (success : Bool) (message : String) : List Output :=
  .commandCompleted op success (finalMessage c message) ::
    ((c.parsedData.map (.commandDataParsed op)).toList ++
      if op.command = .ts ∧ success then
        [.statusReceived op (statusOf c.parsedData).1 (statusOf c.parsedData).2]
      else [])

/-- A completed address leaves the pending set of a group and enters its results. -/
def settle (g : GroupInfo) (address : UInt16) (success : Bool) : GroupInfo :=
  { pendingAddresses := g.pendingAddresses.filter (· ≠ address)
    results := g.results.insert address success }

/-- The loop over `m_groupOperations`: the groups that stay, and the signals of those
that finish. -/
def settleGroups (address : UInt16) (success : Bool) :
    List (Nat × GroupInfo) → List (Nat × GroupInfo) × List Output
  | [] => ([], [])
  | (groupId, g) :: rest =>
    let (kept, finished) := settleGroups address success rest
    if address ∈ g.pendingAddresses then
      let g := settle g address success
      if g.pendingAddresses = [] then
        let allSuccess := g.results.entries.all fun entry => entry.2
        (kept, .groupCommandCompleted groupId allSuccess "" :: finished)
      else ((groupId, g) :: kept, finished)
    else ((groupId, g) :: kept, finished)

/-- The loop, run on the engine. -/
def settleMember (s : Engine) (address : UInt16) (success : Bool) : Engine :=
  let (kept, finished) := settleGroups address success s.groupOperations
  { s with groupOperations := kept }.emitAll finished

/-- `completeOperation` up to `tryStartPendingGroupCommands`, for the operation `op`
in flight in the context `c`. -/
def closeOperation (s : Engine) (address : UInt16) (c : PPBContext) (request : Request)
    (success : Bool) (message : String) : Engine :=
  -- completed before anything is emitted: a second call for this operation does nothing
  let s := s.setContext address { c with operationCompleted := true, operationTimer := none }
  let s := s.emitAll (reportOf (request.operation address) c success message)
  let s := s.modifyContext address PPBContext.clearParseResults
  let s := s.updateBusyState
  (s.transitionState address (if success then .ready else .idle)).settleMember address success

section
variable (tryStart : Engine → Engine)

/-- A context without a command is a null dereference in the source; no context
is ever left in that state. -/
def completeOperationWith (s : Engine) (address : UInt16) (success : Bool) (message : String) :
    Engine :=
  match s.findContext address with
  | none => s
  | some c =>
    if c.operationCompleted then s
    else match c.currentCommand with
      | none => s
      | some request =>
        let s := tryStart (s.closeOperation address c request success message)
        -- commands at address 0 have been waiting for the last group
        if s.groupOperations = [] ∧ s.pendingGroupCommands = [] then s.post .processCommandQueue
        else s

/-- The context is reset and holds the command, the state is SendingCommand. -/
def openOperation (s : Engine) (address : UInt16) (request : Request) (suppressSend : Bool) :
    Engine :=
  let context := ((s.findContext address).getD {}).reset request suppressSend
  let s := (s.setContext address context).emit
    (.started (request.operation address) s.groupsOutstanding)
  (s.transitionState address .sendingCommand).updateBusyState

def armTimer (s : Engine) (address : UInt16) (ms : Nat) : Engine :=
  s.modifyContext address fun c => { c with operationTimer := some ms }

/-- A VOLUME is complete once UDP has taken it: no acknowledgement is expected. -/
def sendVolume (s : Engine) (address : UInt16) (packet : Bytes) : Engine :=
  match s.udpClient with
  | none =>
    completeOperationWith tryStart { s with statics := s.statics.clearCurrentVolumeData } address
      false "VOLUME: UDPClient не инициализирован"
  | some client =>
    let sent := s.handToUdp client packet
    let s := { sent.1 with statics := sent.1.statics.clearCurrentVolumeData }
    if sent.2 ≠ packet.length then
      completeOperationWith tryStart s address false
        s!"VOLUME: ошибка локальной UDP-отправки ({sent.2}/{packet.length} байт)"
    else
      completeOperationWith tryStart s address true "VOLUME передан в UDP; ACK блока не ожидается"

def executeCommandImmediatelyWith (s : Engine) (address : UInt16) (request : Request)
    (suppressSend : Bool) : Engine :=
  -- neither Ready nor Idle: the command is dropped
  if s.isSending address then s
  else
    let s := s.openOperation address request suppressSend
    let packet := request.command.buildRequest s.statics address
    if packet = [] then
      completeOperationWith tryStart s address false "Не удалось сформировать пакет команды"
    else if !suppressSend then
      if request.command.commandId = .volume then sendVolume tryStart s address packet
      else (s.sendPacketInternal packet).armTimer address request.command.timeoutMs
    -- a member of a group: one datagram is sent for all of them
    else s.armTimer address request.command.timeoutMs

def canStartGroupCommand (s : Engine) (mask : UInt16) : Bool :=
  (maskAddresses mask).all (fun address => !s.isSending address) && mask != 0

/-- `m_groupOperations[groupId] = group`: the map is ordered by id. -/
def insertGroup (groupId : Nat) (g : GroupInfo) : List (Nat × GroupInfo) → List (Nat × GroupInfo)
  | [] => [(groupId, g)]
  | (otherId, other) :: rest =>
    if groupId < otherId then (groupId, g) :: (otherId, other) :: rest
    else if groupId = otherId then (groupId, g) :: rest
    else (otherId, other) :: insertGroup groupId g rest

/-- The member loop. `CommandFactory::create` depends on its argument only, so each
member gets the command the check before the loop has already made. -/
def startMembersWith (request : Request) (s : Engine) : List UInt16 → Engine
  | [] => s
  | address :: rest =>
    startMembersWith request (executeCommandImmediatelyWith tryStart s address request true) rest

def startGroupCommandWith (s : Engine) (groupId : Nat) (cmd : TechCommand) (mask : UInt16)
    (data : Bytes) : Engine × Bool :=
  if !s.canStartGroupCommand mask then (s, false)
  else
    let addresses := maskAddresses mask
    match create cmd with
    | none => (s, false)
    | some command =>
      if addresses = [] then (s, false)
      else
        let group : GroupInfo := { pendingAddresses := addresses }
        let s := { s with groupOperations := insertGroup groupId group s.groupOperations }
        let s := s.emit (.groupStarted groupId mask)
        -- the members are opened before the datagram they share is sent
        let s := startMembersWith tryStart { origin := .group groupId, command } s addresses
        let request :=
          if data = [] then createTURequest mask cmd else createTURequestWithData mask cmd data
        (s.sendPacketInternal request, true)

def tryStartPendingGroupCommandsWith (s : Engine) : Engine :=
  match s.pendingGroupCommands with
  | [] => s
  | front :: rest =>
    -- only the front is tried: a group behind it waits as well
    if !s.canStartGroupCommand front.mask then s
    else
      let (s, started) := startGroupCommandWith tryStart { s with pendingGroupCommands := rest }
        front.groupId front.command front.mask front.data
      if started then s
      else s.emit (.groupCommandCompleted front.groupId false
        "Не удалось запустить отложенную групповую команду")

end

/-- At most `n` nested group starts. -/
def tryStartNested : Nat → Engine → Engine
  | 0, s => s
  | n + 1, s => tryStartPendingGroupCommandsWith (tryStartNested n) s

/-- Each start takes a group off the queue, so the length of the queue is enough. -/
def tryStartPendingGroupCommands (s : Engine) : Engine :=
  tryStartNested s.pendingGroupCommands.length s

def completeOperation (s : Engine) (address : UInt16) (success : Bool) (message : String) : Engine :=
  completeOperationWith tryStartPendingGroupCommands s address success message

def executeCommandImmediately (s : Engine) (address : UInt16) (request : Request)
    (suppressSend : Bool) : Engine :=
  executeCommandImmediatelyWith tryStartPendingGroupCommands s address request suppressSend

def startGroupCommand (s : Engine) (groupId : Nat) (cmd : TechCommand) (mask : UInt16)
    (data : Bytes) : Engine × Bool :=
  startGroupCommandWith tryStartPendingGroupCommands s groupId cmd mask data

end Engine

end PPB
