import PPBProject.Protocol

/- What goes over UDP: requests as `PacketBuilder` lays them out, and replies as
   `ProtocolAdapter` reads them. Both reply parsers accept 4-byte datagrams, and
   the status and command bytes stand in opposite places in the two formats, so
   the engine's order of attempts decides what a reply means; the lemmas below
   state exactly which datagrams each parser accepts.

   Correspondence (C++ ↔ Lean):
     `PacketBuilder::createBaseRequest`        ↔ `createBaseRequest`
     `createTURequest`, `createTURequestWithData` (both overloads), `createFURequest`
                                               ↔ the definitions of those names
     `ProtocolAdapter::parseTUResponse`        ↔ `parseTUResponse`
     `ProtocolAdapter::parseBridgeResponse`    ↔ `parseBridgeResponse`
   A parser that returns `false` is `none`; the engine never looks at the event
   then. -/
namespace PPB

/-! Requests. -/

/-- `BaseRequest`: the eight packed bytes every request starts with. -/
def createBaseRequest (address : UInt16) (command : UInt8) (sign : Sign) (period : UInt8)
    (fuData : UInt8 × UInt8 × UInt8) : Bytes :=
  toBigEndian address ++ [command, sign.code, period, fuData.1, fuData.2.1, fuData.2.2]

def createTURequest (address : UInt16) (command : TechCommand) : Bytes :=
  createBaseRequest address command.code .tu 0 (0, 0, 0)

def createTURequestWithData (address : UInt16) (command : TechCommand) (payload : Bytes) : Bytes :=
  createTURequest address command ++ payload

/-- The overload VOLUME and CLEAN use, with the period and FU bytes filled in. -/
def createTURequestWithHeader (address : UInt16) (command : TechCommand) (payload : Bytes)
    (period : UInt8) (fuData : UInt8 × UInt8 × UInt8) : Bytes :=
  createBaseRequest address command.code .tu period fuData ++ payload

/-- A null `fuData` pointer leaves the three bytes zero. -/
def createFURequest (address : UInt16) (cmd : UInt8) (period : UInt8)
    (fuData : Option (UInt8 × UInt8 × UInt8)) : Bytes :=
  createBaseRequest address cmd .fu period (fuData.getD (0, 0, 0))

/-- `extractDataPackets`: consecutive pairs; an odd last byte is dropped. -/
def extractDataPackets : Bytes → List DataPacket
  | first :: second :: rest => (first, second) :: extractDataPackets rest
  | _ => []

def buildPayloadFromPackets (packets : List DataPacket) : Bytes :=
  packets.flatMap fun packet => [packet.1, packet.2]

theorem createBaseRequest_length (address : UInt16) (command : UInt8) (sign : Sign) (period : UInt8)
    (fuData : UInt8 × UInt8 × UInt8) :
    (createBaseRequest address command sign period fuData).length = 8 := rfl

theorem extractDataPackets_buildPayload (packets : List DataPacket) :
    extractDataPackets (buildPayloadFromPackets packets) = packets := by
  induction packets with
  | nil => rfl
  | cons packet rest ih =>
    have hcons : buildPayloadFromPackets (packet :: rest) =
        packet.1 :: packet.2 :: buildPayloadFromPackets rest := by
      simp [buildPayloadFromPackets]
    rw [hcons, extractDataPackets, ih]

theorem length_extractDataPackets (data : Bytes) :
    (extractDataPackets data).length = data.length / 2 := by
  induction data using extractDataPackets.induct with
  | case1 first second rest ih =>
    rw [extractDataPackets, List.length_cons, ih, List.length_cons, List.length_cons]
    omega
  | case2 data hshort =>
    have hlength : data.length < 2 := by
      match data, hshort with
      | [], _ => exact Nat.zero_lt_two
      | [_], _ => exact Nat.one_lt_two
      | first :: second :: rest, hlong => exact absurd rfl (hlong first second rest)
    unfold extractDataPackets
    split
    · exact absurd rfl (hshort _ _ _)
    · rw [List.length_nil]
      omega

theorem length_buildPayloadFromPackets (packets : List DataPacket) :
    (buildPayloadFromPackets packets).length = 2 * packets.length := by
  simp [buildPayloadFromPackets, List.length_flatMap, Nat.mul_comm]

/-! Replies. -/

/-- `ProtocolEvent::Type`. -/
inductive EventType where
  | unknown
  | ok
  | error
  | data
  | bridgeResponse
  deriving DecidableEq, Repr

/-- `ProtocolEvent`, with its default member values. -/
structure ProtocolEvent where
  type : EventType := .unknown
  address : UInt16 := 0
  status : UInt8 := 0
  command : UInt8 := 0
  payload : Bytes := []
  deriving DecidableEq, Repr

/-- `[address:2][status:1]`, then nothing, the echoed command, or the data. -/
def parseTUResponse : Bytes → Option ProtocolEvent
  | high :: low :: status :: rest =>
    let command := match rest with
      | [echo] => echo
      | _ => 0
    let event : ProtocolEvent := { address := fromBigEndian high low, status, command }
    if status ≠ 0 then some { event with type := .error }
    else match rest with
      | [] => some { event with type := .ok }
      | [_] => some { event with type := .ok }
      | _ => some { event with type := .data, payload := rest }
  | _ => none

/-- The three bytes `ERR`. -/
def errReply : Bytes := [0x45, 0x52, 0x52]

/-- `ERR`, a 2-byte mask, or `[address:2][FU command:1][status:1]`. The first two
carry no address and are attributed to address 0. -/
def parseBridgeResponse (data : Bytes) : Option ProtocolEvent :=
  if data = errReply then some { type := .bridgeResponse, payload := data }
  else match data with
    | [_, _] => some { type := .bridgeResponse, payload := data }
    | [high, low, command, status] =>
      if command ≠ FuCommand.receive.code ∧ command ≠ FuCommand.transmit.code ∧
          command ≠ FuCommand.receiveTransmit.code then none
      else some { type := .bridgeResponse, address := fromBigEndian high low, status, command,
                  payload := data }
    | _ => none

/-- The word `onDataReceived` reads as the address: the first two bytes. -/
def addressFromPacket : Bytes → UInt16
  | high :: low :: _ => fromBigEndian high low
  | _ => 0

theorem parseTUResponse_none_iff (data : Bytes) : parseTUResponse data = none ↔ data.length < 3 := by
  match data with
  | [] => simp [parseTUResponse]
  | [_] => simp [parseTUResponse]
  | [_, _] => simp [parseTUResponse]
  | high :: low :: status :: rest =>
    have hlen : ¬ (high :: low :: status :: rest).length < 3 := by simp
    refine iff_of_false ?_ hlen
    simp only [parseTUResponse]
    split
    · simp
    · split <;> simp

theorem parseBridgeResponse_pair (high low : UInt8) :
    parseBridgeResponse [high, low] =
      some { type := .bridgeResponse, payload := [high, low] } := by
  simp [parseBridgeResponse, errReply]

theorem parseBridgeResponse_err :
    parseBridgeResponse errReply = some { type := .bridgeResponse, payload := errReply } := by
  simp [parseBridgeResponse]

/-- A bridge reply that carries no address: a 2-byte mask or `ERR`. -/
def IsAddressless (data : Bytes) : Prop := data.length = 2 ∨ data = errReply

theorem parseBridgeResponse_addressless {data : Bytes} (h : IsAddressless data) :
    parseBridgeResponse data = some { type := .bridgeResponse, payload := data } := by
  rcases h with h | rfl
  · match data, h with
    | [high, low], _ => exact parseBridgeResponse_pair high low
  · exact parseBridgeResponse_err

end PPB
