import Mathlib.Data.Int.Log
import Mathlib.Data.Rat.Floor
import PPBProject.Wire

/- The command classes of `commandandoperation.h`. A command object is a value of
   `PPBCommand`, one constructor for each class; its virtual members are functions
   by cases. The response callbacks talk to the engine only through the
   `CommandInterface` pointer they are given and are straight-line code, so a
   callback is the list of calls it makes, in order (`HostCall`); what each call
   does to the engine is the engine's `CommandHost`.

   Correspondence (C++ ↔ Lean):
     `CommandFactory::create`                 ↔ `create`
     `PPBCommand::onOkReceived` and overrides ↔ `PPBCommand.onOkReceived`
     `onDataReceived`, `parseResponseData`    ↔ `PPBCommand.onDataReceived`, `.parseResponseData`
     `VolumeCommand::s_*`, `CleanCommand::s_*` ↔ the fields of `Statics`
   `name()` only feeds log lines and is left out. -/
namespace PPB

/-! Time-outs and packet counts (`PPBConstants`). -/

def operationTimeoutMs : Nat := 200
def packetTimeoutMs : Nat := 10
def testPacketCount : Nat := 512
def prbsTimeoutMs : Nat := 100

/-- The process-wide static members of `VolumeCommand` and `CleanCommand`. -/
structure Statics where
  volumePayload : Bytes := []
  volumeMarker : UInt8 := 0
  volumeTotalSize : UInt16 := 0
  volumeCrc : UInt32 := 0
  volumeUseCustomData : Bool := false
  cleanVersion : Bytes := []
  cleanUseCustomVersion : Bool := false
  deriving DecidableEq, Repr

def Statics.setCurrentVolumeData (st : Statics) (payload : Bytes) (marker : UInt8)
    (totalSize : UInt16) (data : UInt8 × UInt8 × UInt8) : Statics :=
  { st with
    volumePayload := payload
    volumeMarker := marker
    volumeTotalSize := totalSize
    volumeCrc := data.1.toUInt32 <<< 16 ||| data.2.1.toUInt32 <<< 8 ||| data.2.2.toUInt32
    volumeUseCustomData := true }

def Statics.clearCurrentVolumeData (st : Statics) : Statics :=
  { st with
    volumePayload := []
    volumeMarker := 0
    volumeTotalSize := 0
    volumeCrc := 0
    volumeUseCustomData := false }

def Statics.setCurrentVersion (st : Statics) (version : Bytes) : Statics :=
  { st with cleanVersion := version, cleanUseCustomVersion := true }

def Statics.clearCurrentVersion (st : Statics) : Statics :=
  { st with cleanVersion := [], cleanUseCustomVersion := false }

/-- A command object: the concrete classes, and the engine's `DataCommand`. -/
inductive PPBCommand where
  | statusCommand
  | versCommand
  | volumeCommand
  | checkSumCommand
  | programmCommand
  | cleanCommand
  | dropCommand
  | prbsM2SCommand
  | prbsS2MCommand
  | berTCommand
  | berFCommand
  | factoryNumber
  | isYouCommand
  | updateCommand
  | dataCommand (cmd : TechCommand) (data : Bytes)
  deriving DecidableEq, Repr

/-- `CommandFactory::create`; TC has no class of its own. -/
def create : TechCommand → Option PPBCommand
  | .ts => some .statusCommand
  | .vers => some .versCommand
  | .volume => some .volumeCommand
  | .checksum => some .checkSumCommand
  | .programm => some .programmCommand
  | .clean => some .cleanCommand
  | .drop => some .dropCommand
  | .prbsM2S => some .prbsM2SCommand
  | .prbsS2M => some .prbsS2MCommand
  | .berT => some .berTCommand
  | .berF => some .berFCommand
  | .factoryNumber => some .factoryNumber
  | .isYou => some .isYouCommand
  | .update => some .updateCommand
  | .tc => none

/-- A parsed response as the commands put it into the `QVariantMap`. -/
inductive ParsedData where
  | status (mask : UInt32) (packets : List Bytes)
  | version (crc32 : UInt32) (rawPackets : Nat)
  | checksum (checksum : UInt16)
  | dropped (dropped : UInt16)
  | ber (errors : UInt32) (ber : ℚ)
  | factoryNumber (value : UInt16)
  | activeMask (mask : UInt16)
  | testSequence (packetCount : Nat) (parseErrors : Option Nat)
  deriving DecidableEq

/-- One call a callback makes on its `CommandInterface`, or on a static slot. -/
inductive HostCall where
  | setState (state : PPBState)
  | startTimeoutTimer (ms : Nat)
  | setParseResult (success : Bool) (message : String)
  | setParseData (data : Option ParsedData)
  | completeCurrentOperation (success : Bool) (message : String)
  | statusDataReady (data : List Bytes)
  | notifySentPackets (packets : List DataPacket)
  | notifyReceivedPackets (packets : List DataPacket)
  | clearCurrentVolumeData
  | clearCurrentVersion
  deriving DecidableEq

/-! The bit error rate is a `float`: both the count and the quotient are rounded
to 24 significant bits, and the text shows six decimals of the result. -/

def roundHalfEven (q : ℚ) : ℤ :=
  let below := ⌊q⌋
  let excess := q - below
  if excess < 1 / 2 then below
  else if 1 / 2 < excess then below + 1
  else if below % 2 = 0 then below else below + 1

def toFloat32 (q : ℚ) : ℚ :=
  if q ≤ 0 then 0
  else
    let ulp := (2 : ℚ) ^ (Int.log 2 q - 23)
    roundHalfEven (q / ulp) * ulp

/-- `errors / 1000000.0f`. -/
def bitErrorRate (errors : UInt32) : ℚ := toFloat32 (toFloat32 errors.toNat / 1000000)

/-- `arg(q, 0, 'f', 6)` of a non-negative number. -/
def sixDecimals (q : ℚ) : String :=
  let micros := (roundHalfEven (q * 1000000)).toNat
  let fraction := Nat.toDigits 10 (micros % 1000000)
  toString (micros / 1000000) ++ "." ++
    String.ofList (List.replicate (6 - fraction.length) '0' ++ fraction)

/-! Requests. -/

/-- The register `generateTestPackets` starts from, shifted `n` times. -/
def testRegister : Nat → UInt8
  | 0 => 0x01
  | n + 1 =>
    let lfsr := testRegister n
    lfsr >>> 1 ||| (lfsr ^^^ lfsr >>> 1) <<< 7

def generateTestPackets : List DataPacket :=
  (List.range testPacketCount).map fun i => (testRegister i, testRegister i ^^^ 0x55)

namespace PPBCommand

def commandId : PPBCommand → TechCommand
  | statusCommand => .ts
  | versCommand => .vers
  | volumeCommand => .volume
  | checkSumCommand => .checksum
  | programmCommand => .programm
  | cleanCommand => .clean
  | dropCommand => .drop
  | prbsM2SCommand => .prbsM2S
  | prbsS2MCommand => .prbsS2M
  | berTCommand => .berT
  | berFCommand => .berF
  | factoryNumber => .factoryNumber
  | isYouCommand => .isYou
  | updateCommand => .update
  | dataCommand cmd _ => cmd

/-- PRBS_M2S names its time-out where the template expects the packet count. -/
def expectedResponsePackets : PPBCommand → Nat
  | statusCommand => 1
  | versCommand => 1
  | checkSumCommand => 1
  | prbsM2SCommand => prbsTimeoutMs
  | prbsS2MCommand => testPacketCount
  | berTCommand => 1
  | berFCommand => 1
  | factoryNumber => 1
  | isYouCommand => 1
  | volumeCommand => 0
  | programmCommand => 0
  | cleanCommand => 0
  | dropCommand => 0
  | updateCommand => 0
  | dataCommand _ _ => 0

def timeoutMs : PPBCommand → Nat
  | prbsS2MCommand => packetTimeoutMs
  | isYouCommand => 1000
  | _ => operationTimeoutMs

/-- `VolumeCommand::buildRequest`: empty unless image data has been set. -/
def buildVolumeRequest (st : Statics) (address : UInt16) : Bytes :=
  if !st.volumeUseCustomData then []
  else
    let fuData : UInt8 × UInt8 × UInt8 :=
      if st.volumeMarker = 0x01 then
        ((st.volumeTotalSize >>> 8).toUInt8, st.volumeTotalSize.toUInt8, 0)
      else if st.volumeMarker = 0x03 then
        ((st.volumeCrc >>> 16).toUInt8, (st.volumeCrc >>> 8).toUInt8, st.volumeCrc.toUInt8)
      else (0, 0, 0)
    createTURequestWithHeader address .volume st.volumePayload st.volumeMarker fuData

/-- `CleanCommand::buildRequest`: the version goes into the period and FU bytes. -/
def buildCleanRequest (st : Statics) (address : UInt16) : Bytes :=
  match st.cleanUseCustomVersion, st.cleanVersion with
  | true, v0 :: v1 :: v2 :: v3 :: _ => createTURequestWithHeader address .clean [] v0 (v1, v2, v3)
  | _, _ => createTURequest address .clean

def buildRequest (st : Statics) (address : UInt16) : PPBCommand → Bytes
  | volumeCommand => buildVolumeRequest st address
  | cleanCommand => buildCleanRequest st address
  | prbsM2SCommand =>
    createTURequestWithData address .prbsM2S (buildPayloadFromPackets generateTestPackets)
  | isYouCommand => createBaseRequest address TechCommand.isYou.code .isYou 0 (0, 0, 0)
  | dataCommand cmd data =>
    -- a payload shorter than twelve bytes is padded with zeros
    createTURequest address cmd ++ (data ++ List.replicate (12 - data.length) 0)
  | command => createTURequest address command.commandId

/-- Only a VOLUME without image data has no request. -/
theorem buildRequest_eq_nil_iff (st : Statics) (address : UInt16) (command : PPBCommand) :
    command.buildRequest st address = [] ↔
      command = volumeCommand ∧ st.volumeUseCustomData = false := by
  have hbase (address : UInt16) (cmd : UInt8) (sign : Sign) (period : UInt8)
      (fuData : UInt8 × UInt8 × UInt8) : createBaseRequest address cmd sign period fuData ≠ [] := by
    simp [createBaseRequest, toBigEndian]
  cases command with
  | volumeCommand =>
    cases h : st.volumeUseCustomData <;>
      simp [buildRequest, buildVolumeRequest, createTURequestWithHeader, hbase, h]
  | cleanCommand =>
    simp only [buildRequest, buildCleanRequest]
    split <;> simp [createTURequestWithHeader, createTURequest, hbase]
  | _ => simp [buildRequest, createTURequestWithData, createTURequest, hbase]

/-! Responses. -/

def onOkReceived : PPBCommand → List HostCall
  | volumeCommand => [.clearCurrentVolumeData, .completeCurrentOperation true "VOLUME block sent"]
  | cleanCommand => [.clearCurrentVersion, .completeCurrentOperation true "CLEAN sent"]
  | prbsM2SCommand =>
    [.notifySentPackets generateTestPackets,
     .completeCurrentOperation true "Тестовая последовательность отправлена (1024 байта)"]
  | command =>
    if 0 < command.expectedResponsePackets then
      [.setState .sendingCommand, .startTimeoutTimer command.timeoutMs]
    else [.completeCurrentOperation true "Команда выполнена"]

/-- The two-byte blocks of a status payload, one for each set bit of the mask. -/
def statusBlocks (mask : UInt32) (payload : Bytes) : List Nat → Nat → Except String (List Bytes)
  | [], _ => .ok []
  | bit :: bits, offset =>
    if mask &&& (1 : UInt32) <<< bit.toUInt32 = 0 then statusBlocks mask payload bits offset
    else if payload.length < offset + 2 then
      .error s!"Ошибка: недостаточно данных для бита {bit}"
    else do
      let blocks ← statusBlocks mask payload bits (offset + 2)
      .ok ((payload.drop offset).take 2 :: blocks)

/-- `StatusCommand::parseResponseData` on the one packet it looks at. -/
def parseStatus : Bytes → Except String (String × Option ParsedData)
  | b0 :: b1 :: b2 :: b3 :: rest => do
    let payload := b0 :: b1 :: b2 :: b3 :: rest
    let mask := fromBigEndian32 b0 b1 b2 b3
    let blocks ← statusBlocks mask payload (List.range 24) 4
    .ok (s!"Статус получен: маска 0x{hexPadded mask.toNat 6}, блоков {blocks.length}",
      some (.status mask blocks))
  | _ => .error "Ошибка: недостаточно данных (нет маски)"

def parseBer : Bytes → Except String (String × Option ParsedData)
  | b0 :: b1 :: b2 :: b3 :: _ =>
    let errors := fromHost32 b0 b1 b2 b3
    let ber := bitErrorRate errors
    .ok (s!"Коэффициент ошибок ТУ: {sixDecimals ber} (ошибок: {errors})", some (.ber errors ber))
  | _ => .error "Ошибка: недостаточно данных в пакете (ожидалось 4 байта)"

/-- `parseResponseData`; only the first packet of the list is looked at. -/
def parseResponseData (command : PPBCommand) (data : List Bytes) :
    Except String (String × Option ParsedData) :=
  match command, data with
  | statusCommand, packet :: _ => parseStatus packet
  | versCommand, (b0 :: b1 :: _) :: _ =>
    let crc := (fromHost16 b0 b1).toUInt32
    .ok (s!"Версия ПО. CRC32: 0x{hexPadded crc.toNat 8}", some (.version crc data.length))
  | checkSumCommand, (b0 :: b1 :: _) :: _ =>
    let checksum := fromHost16 b0 b1
    .ok (s!"Контрольная сумма VOLUME: 0x{hexPadded checksum.toNat 4}", some (.checksum checksum))
  | dropCommand, (b0 :: b1 :: _) :: _ =>
    let dropped := fromHost16 b0 b1
    .ok (s!"Отброшенных пакетов ФУ: {dropped}", some (.dropped dropped))
  | berTCommand, packet :: _ => parseBer packet
  | berFCommand, packet :: _ => parseBer packet
  | factoryNumber, (b0 :: b1 :: _) :: _ =>
    let value := fromHost16 b0 b1
    .ok (s!"Результат команды 0x1F: 0x{hexPadded value.toNat 4} ({value})",
      some (.factoryNumber value))
  | factoryNumber, _ :: _ => .error "Недостаточно данных"
  | factoryNumber, [] => .error "Нет данных от команды 0x1F"
  | isYouCommand, (b0 :: b1 :: _) :: _ =>
    let mask := fromBigEndian b0 b1
    .ok (s!"Маска активных ППБ: 0x{hexPadded mask.toNat 4}", some (.activeMask mask))
  | isYouCommand, _ => .error "Недостаточно данных"
  | prbsS2MCommand, _ =>
    if data.length ≠ testPacketCount then
      .error s!"Неверное количество пакетов: {data.length} (ожидалось {testPacketCount})"
    else .ok (s!"Получено {data.length} пакетов тестовой последовательности",
      some (.testSequence data.length none))
  | statusCommand, [] => .error "Ошибка: нет данных"
  | versCommand, [] => .error "Ошибка: нет данных"
  | checkSumCommand, [] => .error "Ошибка: нет данных"
  | dropCommand, [] => .error "Ошибка: нет данных"
  | berTCommand, [] => .error "Ошибка: нет данных"
  | berFCommand, [] => .error "Ошибка: нет данных"
  | versCommand, _ :: _ => .error "Ошибка: недостаточно данных в пакете"
  | checkSumCommand, _ :: _ => .error "Ошибка: недостаточно данных в пакете"
  | dropCommand, _ :: _ => .error "Ошибка: недостаточно данных в пакете"
  | _, _ => .ok (s!"Получено {data.length} пакетов", none)

/-- The calls of an `onDataReceived` that stores what `parseResponseData` made of
the packets; `failure` is the message stored when it made nothing. -/
def storeParsed (command : PPBCommand) (data : List Bytes) (failure : String → String) :
    List HostCall :=
  match command.parseResponseData data with
  | .ok (message, parsed) => [.setParseResult true message, .setParseData parsed]
  | .error message => [.setParseResult false (failure message)]

/-- `PRBS_S2MCommand::onDataReceived`, which completes the operation itself. -/
def receiveTestSequence : List Bytes → List HostCall
  | [] => [.setParseResult false "Нет данных", .completeCurrentOperation false "Нет данных"]
  | packet :: _ =>
    let received := extractDataPackets packet
    if received.length ≠ testPacketCount then
      let error := s!"Получено {received.length} из {testPacketCount} пакетов"
      [.notifyReceivedPackets received, .setParseResult false error,
       .completeCurrentOperation false error]
    else
      [.notifyReceivedPackets received,
       .setParseResult true s!"Получено {received.length} тестовых пакетов",
       .setParseData (some (.testSequence received.length (some 0))),
       .completeCurrentOperation true "Тестовая последовательность получена"]

def onDataReceived (command : PPBCommand) (data : List Bytes) : List HostCall :=
  match command with
  | prbsS2MCommand => receiveTestSequence data
  | statusCommand =>
    let calls := storeParsed statusCommand data fun _ => "Ошибка парсинга статуса"
    match statusCommand.parseResponseData data with
    | .ok _ => calls ++ [.statusDataReady data]
    | .error _ => calls
  | versCommand => storeParsed versCommand data id ++ [.statusDataReady data]
  | checkSumCommand => storeParsed checkSumCommand data id
  | dropCommand => storeParsed dropCommand data id
  | berTCommand => storeParsed berTCommand data id
  | berFCommand => storeParsed berFCommand data id
  | factoryNumber => storeParsed factoryNumber data id
  | isYouCommand => storeParsed isYouCommand data id
  | command => storeParsed command data fun _ => "Ошибка парсинга данных"

end PPBCommand

/-- The factory makes what it is asked for. -/
theorem commandId_of_create {cmd : TechCommand} {command : PPBCommand}
    (h : create cmd = some command) : command.commandId = cmd := by
  cases cmd <;> cases h <;> rfl

/-- A call that does not complete the operation. -/
def HostCall.isQuiet : HostCall → Bool
  | .completeCurrentOperation .. => false
  | _ => true

/-- The calls complete the operation with this result. -/
def completesWith (calls : List HostCall) (success : Bool) : Bool :=
  calls.any fun call => match call with
    | .completeCurrentOperation result _ => result == success
    | _ => false

/-- A callback completes the operation last, if at all. -/
def EndsQuietly (calls : List HostCall) : Prop :=
  (∀ call ∈ calls, call.isQuiet = true) ∨
    ∃ pre success message, (∀ call ∈ pre, call.isQuiet = true) ∧
      calls = pre ++ [.completeCurrentOperation success message]

theorem EndsQuietly.snoc (pre : List HostCall) (success : Bool) (message : String)
    (h : ∀ call ∈ pre, call.isQuiet = true) :
    EndsQuietly (pre ++ [.completeCurrentOperation success message]) :=
  .inr ⟨pre, success, message, h, rfl⟩

theorem PPBCommand.onOkReceived_endsQuietly (command : PPBCommand) :
    EndsQuietly command.onOkReceived := by
  have hdone : EndsQuietly [.completeCurrentOperation true "Команда выполнена"] :=
    .snoc [] _ _ (by simp)
  cases command with
  | volumeCommand => exact .snoc [_] _ _ (by simp [HostCall.isQuiet])
  | cleanCommand => exact .snoc [_] _ _ (by simp [HostCall.isQuiet])
  | prbsM2SCommand => exact .snoc [_] _ _ (by simp [HostCall.isQuiet])
  | programmCommand => exact hdone
  | dropCommand => exact hdone
  | updateCommand => exact hdone
  | dataCommand => exact hdone
  | _ => exact .inl (by simp [onOkReceived, expectedResponsePackets, testPacketCount,
      HostCall.isQuiet])

/-- A callback on an acknowledgement completes with success, if it completes. -/
theorem PPBCommand.eq_true_of_onOkReceived_completes {success : Bool} (command : PPBCommand)
    (h : completesWith command.onOkReceived success = true) : success = true := by
  cases command <;> simp_all [onOkReceived, expectedResponsePackets, completesWith, testPacketCount]

theorem PPBCommand.storeParsed_quiet (command : PPBCommand) (data : List Bytes)
    (failure : String → String) :
    ∀ call ∈ command.storeParsed data failure, call.isQuiet = true := by
  unfold storeParsed
  split <;> simp [HostCall.isQuiet]

/-- Only PRBS_S2M completes its operation on data. -/
theorem PPBCommand.onDataReceived_quiet {command : PPBCommand} (h : command ≠ .prbsS2MCommand)
    (data : List Bytes) : ∀ call ∈ command.onDataReceived data, call.isQuiet = true := by
  have hnotified (calls : List HostCall) (hcalls : ∀ call ∈ calls, call.isQuiet = true) :
      ∀ call ∈ calls ++ [.statusDataReady data], call.isQuiet = true := by
    intro call hcall
    rcases List.mem_append.mp hcall with hcall | hcall
    · exact hcalls call hcall
    · rw [List.mem_singleton.mp hcall]
      rfl
  cases command with
  | prbsS2MCommand => exact absurd rfl h
  | statusCommand =>
    simp only [onDataReceived]
    split
    · exact hnotified _ (storeParsed_quiet _ _ _)
    · exact storeParsed_quiet _ _ _
  | versCommand => exact hnotified _ (storeParsed_quiet _ _ _)
  | _ =>
    simp only [onDataReceived]
    exact storeParsed_quiet _ _ _

theorem PPBCommand.onDataReceived_endsQuietly (command : PPBCommand) (data : List Bytes) :
    EndsQuietly (command.onDataReceived data) := by
  by_cases hcommand : command = .prbsS2MCommand
  · subst hcommand
    cases data with
    | nil => exact .snoc [_] _ _ (by simp [HostCall.isQuiet])
    | cons packet rest =>
      simp only [onDataReceived, receiveTestSequence]
      split
      · exact .snoc [_, _] _ _ (by simp [HostCall.isQuiet])
      · exact .snoc [_, _, _] _ _ (by simp [HostCall.isQuiet])
  · exact .inl (onDataReceived_quiet hcommand data)

end PPB
