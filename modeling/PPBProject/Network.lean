import PPBProject.Causality
import PPBProject.Prbs
import PPBProject.Transcript

/- The engine and what it talks to. A request goes to every PPB of its mask. A PPB that takes it
   executes it and may answer, once. The bridge sends replies of its own. On its way anything may be
   lost, and anything may overtake anything else, but nothing is forged or doubled.

   Correspondence (C++ ↔ Lean):
     the TU acknowledgement `[address:2][status:1][command:1]`  ↔ `Answer.acknowledgement`
     a Data response `[address:2][0:1]` and the data            ↔ `Answer.data`
     the FU reply, the mask and `ERR` of the bridge             ↔ `BridgeReply`
   Left out: the older acknowledgement of three bytes, which names no command, and what executing
   does to a PPB. This file

   1. finds what a datagram must be for an operation to succeed by it;
   2. counts: what has succeeded at a PPB has been executed there as often, and what has been
      executed has been asked for as often (`executed_of_succeeded`). -/
namespace PPB

/-- What a PPB answers. A Data response is longer than an acknowledgement. -/
inductive Answer where
  | acknowledgement (status : UInt8)
  | data (first second : UInt8) (rest : Bytes)

inductive BridgeReply where
  | fu (address : UInt16) (command : FuCommand) (status : UInt8)
  | activeMask (mask : UInt16)
  | err

/-- A datagram on its way to the engine, and for a PPB's the request that it answers. -/
inductive NetworkReply where
  | ofPPB (request : RequestKey) (answer : Answer)
  | ofBridge (reply : BridgeReply)

namespace NetworkReply

def bytes : NetworkReply → Bytes
  | ofPPB request (.acknowledgement status) => toBigEndian request.1 ++ [status, request.2]
  | ofPPB request (.data first second rest) => toBigEndian request.1 ++ 0 :: first :: second :: rest
  | ofBridge (.fu address command status) => toBigEndian address ++ [command.code, status]
  | ofBridge (.activeMask mask) => toBigEndian mask
  | ofBridge .err => errReply

def request? : NetworkReply → Option RequestKey
  | ofPPB request _ => some request
  | ofBridge _ => none

/-- A Data response finds in flight, if anything, the command it answers; and an FU reply does not
read as the acknowledgement of what is in flight. -/
def Fits (s : Engine) : NetworkReply → Prop
  | ofPPB request (.data ..) => ∀ inFlight, s.commandInFlight request.1 = some inFlight →
      inFlight.command.commandId.code = request.2
  | ofBridge (.fu address .receive status) => ∀ inFlight,
      s.commandInFlight address = some inFlight → inFlight.command.commandId.code ≠ status
  | _ => True

end NetworkReply

structure Network where
  engine : Engine
  requests : List RequestKey := []
  executed : List RequestKey := []
  replies : List NetworkReply := []

inductive NetworkEvent where
  | engine (e : Event)
  | requestLost (k : Nat)
  | executed (k : Nat) (answer : Option Answer)
  | bridge (reply : BridgeReply)
  | replyLost (k : Nat)
  | delivered (k : Nat)

/-- A request, for each PPB it is for. -/
def copies (key : RequestKey) : List RequestKey := (maskAddresses key.1).map fun a => (a, key.2)

/-- What has been asked of PPBs. -/
def asked (h : List Output) : List RequestKey := (requestsSent h).flatMap copies

def Event.isDatagram : Event → Bool
  | .datagram _ => true
  | _ => false

namespace Network

/-- The engine has moved on; what it has sent is on its way. -/
def follow (s : Network) (engine : Engine) : Network :=
  { s with
    engine
    requests := s.requests ++ asked (engine.log.drop s.engine.log.length) }

/-- The engine takes an event. -/
def advance (s : Network) (e : Event) : Network := s.follow (s.engine.handle e)

def step (s : Network) : NetworkEvent → Option Network
  | .engine e => if s.engine.enabled e ∧ e.isDatagram = false then some (s.advance e) else none
  | .requestLost k => some { s with requests := s.requests.eraseIdx k }
  | .executed k answer => s.requests[k]?.map fun request =>
    { s with
      requests := s.requests.eraseIdx k
      executed := s.executed ++ [request]
      replies := s.replies ++ (answer.map (.ofPPB request)).toList }
  | .bridge reply => some { s with replies := s.replies ++ [.ofBridge reply] }
  | .replyLost k => some { s with replies := s.replies.eraseIdx k }
  | .delivered k => s.replies[k]?.map fun reply =>
    { s with replies := s.replies.eraseIdx k }.advance (.datagram reply.bytes)

/-- No reply is one that the engine takes for another. -/
def Undisturbed (s : Network) : NetworkEvent → Prop
  | .delivered k => ∀ reply ∈ s.replies[k]?,
      reply.Fits s.engine ∧ s.engine.AcksOnce (.datagram reply.bytes)
  | _ => True

end Network

def network : Machine.System Network NetworkEvent where
  start s := ∃ udpClient statics, s = { engine := .init udpClient statics }
  step s e s' := s.step e = some s'

/-! Where an operation succeeds. -/

/-- The entry reports no success but at such an address. -/
def Output.SucceedsAt (p : UInt16 → Prop) (o : Output) : Prop :=
  ∀ op message, o = .commandCompleted op true message → p op.address

namespace Engine

section
variable {p : UInt16 → Prop} {s s' t : Engine} {address : UInt16} {c : PPBContext}
  {request : Request} {success : Bool} {data : Bytes}

theorem succeedsAt_completes (h : Completes s address c request success s')
    (hp : success = true → p address) :
    Machine.Extends (Output.SucceedsAt p) s.history s'.history := by
  obtain ⟨_, _, _, _, hreported⟩ := h.reported
  obtain ⟨new, heq, hsuccesses, honly⟩ := hreported.successes
  refine ⟨new, heq, ?_⟩
  rintro o ho op message rfl
  rw [honly op message ho]
  apply hp
  by_contra hfailed
  rw [if_neg hfailed] at hsuccesses
  exact absurd (List.filterMap_eq_nil_iff.mp hsuccesses _ ho) (by simp [Output.succeededPlace])

theorem succeedsAt_completeOperation (s : Engine) (message : String)
    (hp : success = true → p address) : Machine.Extends (Output.SucceedsAt p) s.history
      (s.completeOperation address success message).history := by
  cases hcommand : s.commandInFlight address with
  | none =>
    rw [completeOperation_eq_self success message hcommand]
    exact .refl _
  | some request =>
    obtain ⟨c, hflight⟩ := commandInFlight_eq_some_iff.mp hcommand
    exact succeedsAt_completes ((Prepared.refl hflight.found).completes success message hflight) hp

theorem history_modifyContext (s : Engine) (address : UInt16) (f : PPBContext → PPBContext) :
    (s.modifyContext address f).history = s.history := by
  unfold modifyContext
  split
  next => rfl
  next => rfl

theorem succeedsAt_hostCall (s : Engine) (call : HostCall) (hp : p address) :
    Machine.Extends (Output.SucceedsAt p) s.history (hostCall address s call).history := by
  have hstored (f : PPBContext → PPBContext) :
      Machine.Extends (Output.SucceedsAt p) s.history (s.modifyContext address f).history := by
    rw [history_modifyContext]
    exact .refl _
  cases call with
  | setParseResult success message => exact hstored _
  | setParseData data => exact hstored _
  | completeCurrentOperation success message =>
    exact succeedsAt_completeOperation s message fun _ => hp
  | _ => exact .refl _

theorem succeedsAt_runCallback (s : Engine) (calls : List HostCall) (hp : p address) :
    Machine.Extends (Output.SucceedsAt p) s.history (s.runCallback address calls).history := by
  induction calls generalizing s with
  | nil => exact .refl _
  | cons call calls ih => exact (succeedsAt_hostCall s call hp).trans (ih _)

theorem succeedsAt_bridgeReply (s : Engine) (message : String) (parsed : Option ParsedData)
    (hp : success = true → p address) : Machine.Extends (Output.SucceedsAt p) s.history
      (s.completeWithBridgeReply address success message parsed).history := by
  have hdone := succeedsAt_completeOperation
    ((s.setCommandParseResult address success message).setCommandParseData address parsed)
    message hp
  rwa [setCommandParseData, setCommandParseResult, history_modifyContext,
    history_modifyContext] at hdone

theorem succeedsAt_isYou (s : Engine) (event : ProtocolEvent) (hp : p address) :
    Machine.Extends (Output.SucceedsAt p) s.history (s.completeIsYou address event).history := by
  unfold completeIsYou
  split
  next => exact succeedsAt_bridgeReply s _ _ fun _ => hp
  next =>
    split
    next => exact succeedsAt_bridgeReply s _ _ fun _ => hp
    next => exact succeedsAt_bridgeReply s _ _ fun _ => hp

/-- Only an acknowledgement or a Data response can bring success. -/
theorem succeedsAt_TUEvent (s : Engine) (command : PPBCommand) (event : ProtocolEvent)
    (hp : event.type = .ok ∨ event.type = .data → p address) :
    Machine.Extends (Output.SucceedsAt p) s.history
      (s.handleTUEvent address command event).history := by
  unfold handleTUEvent
  cases htype : event.type with
  | error => exact succeedsAt_completeOperation s _ nofun
  | ok =>
    have hat := hp (.inl htype)
    have hcalled := succeedsAt_runCallback s command.onOkReceived hat
    dsimp only
    split
    next => exact hcalled
    next => exact hcalled.trans (succeedsAt_completeOperation _ _ fun _ => hat)
  | data =>
    have hat := hp (.inr htype)
    have hcalled := succeedsAt_runCallback s (command.onDataReceived [event.payload]) hat
    dsimp only
    split
    next => exact hcalled
    next => exact hcalled.trans (succeedsAt_completeOperation _ _ fun _ => hat)
  | unknown => exact .refl _
  | bridgeResponse => exact .refl _

theorem address_of_bridgeResponse {event : ProtocolEvent}
    (hparse : parseBridgeResponse data = some event) :
    event.address = addressFromPacket data ∨ event.address = 0 := by
  unfold parseBridgeResponse at hparse
  split at hparse
  next =>
    cases hparse
    exact .inr rfl
  next =>
    split at hparse
    next =>
      cases hparse
      exact .inr rfl
    next =>
      split at hparse
      next => cases hparse
      next =>
        cases hparse
        exact .inl rfl
    next => cases hparse

theorem succeedsAt_unclaimed (s : Engine) (hp : p (addressFromPacket data)) (hzero : p 0) :
    Machine.Extends (Output.SucceedsAt p) s.history (s.handleUnclaimed data).history := by
  unfold handleUnclaimed
  split
  next event hparse =>
    have hat : p event.address := by
      cases address_of_bridgeResponse hparse with
      | inl hsame => rwa [hsame]
      | inr hbridge => rwa [hbridge]
    unfold handleBridgeEvent
    split
    next =>
      dsimp only
      split
      next => exact succeedsAt_bridgeReply s _ _ fun _ => hat
      next =>
        split
        next => exact succeedsAt_bridgeReply s _ _ fun _ => hat
        next => exact succeedsAt_bridgeReply s _ _ fun _ => hat
    next =>
      refine ⟨[_], history_emit s rfl, ?_⟩
      rintro o ho op message rfl
      cases List.mem_singleton.mp ho
  next => exact .refl _

/-- A datagram brings success at the address it begins with, or at the bridge's. -/
theorem succeedsAt_onDataReceived (s : Engine) (data : Bytes) :
    Machine.Extends (Output.SucceedsAt fun a => a = addressFromPacket data ∨ a = 0)
      s.history (s.onDataReceived data).history := by
  have hunclaimed := @succeedsAt_unclaimed (fun a => a = addressFromPacket data ∨ a = 0) data s
    (.inl rfl) (.inr rfl)
  unfold onDataReceived
  split
  next => exact .refl _
  next =>
    dsimp only
    split
    next request _ =>
      unfold dispatchToOperation
      dsimp only
      split
      next event _ => exact succeedsAt_isYou s event (.inl rfl)
      next =>
        split
        next event _ =>
          split
          next => exact .refl _
          next => exact succeedsAt_TUEvent s request.command event fun _ => .inl rfl
        next =>
          cases parseBridgeResponse data with
          | some event => exact succeedsAt_completeOperation s _ nofun
          | none => exact hunclaimed
    next => exact hunclaimed

/-- The engine reads the datagram as an acknowledgement of the command, or as a Data response. -/
def Confirms (data : Bytes) (command : PPBCommand) : Prop :=
  ∃ event, parseTUResponse data = some event ∧ isStaleAck command data event = false ∧
    (event.type = .ok ∨ event.type = .data)

/-- Any other datagram does not let an operation succeed at its address. -/
theorem succeedsAt_unconfirmed
    (hinFlight : s.commandInFlight (addressFromPacket data) = some request)
    (hcommand : request.command.commandId ≠ .isYou) (hnot : ¬Confirms data request.command) :
    Machine.Extends (Output.SucceedsAt fun a => a = 0) s.history
      (s.onDataReceived data).history := by
  unfold onDataReceived
  split
  next => exact .refl _
  next =>
    dsimp only
    rw [hinFlight]
    dsimp only [dispatchToOperation]
    rw [if_neg hcommand]
    split
    next hclaimed => cases hclaimed
    next =>
      split
      next event hparse =>
        split
        next => exact .refl _
        next hstale =>
          apply succeedsAt_TUEvent s request.command event
          intro htype
          exact absurd ⟨event, hparse, Bool.not_eq_true _ ▸ hstale, htype⟩ hnot
      next hparse =>
        cases hbridge : parseBridgeResponse data with
        | some event => exact succeedsAt_completeOperation s _ nofun
        | none =>
          rw [Option.map_none, Option.getD_none, handleUnclaimed, hbridge]
          exact .refl _

theorem exists_request_of_operation {op : Operation}
    (h : s.inFlightOperation address = some op) :
    ∃ request, s.commandInFlight address = some request ∧ request.operation address = op := by
  obtain ⟨c, hfound, hop⟩ := Option.bind_eq_some_iff.mp h
  unfold PPBContext.operation at hop
  split at hop
  next => cases hop
  next hopen =>
    obtain ⟨request, hrequest, hoperation⟩ := Option.map_eq_some_iff.mp hop
    have hflight : InFlight s address c request := ⟨hfound, Bool.not_eq_true _ ▸ hopen, hrequest⟩
    exact ⟨request, commandInFlight_eq_some_iff.mpr ⟨c, hflight⟩, hoperation⟩

/-- **What success takes.** An operation that a datagram lets succeed is in flight at the address
that the datagram begins with, and the datagram is an acknowledgement of its command or a Data
response; only at the bridge's address and for an IS_YOU it can be something else. -/
theorem confirms_of_success {guard : Engine → Event → Prop} (h : Reachable guard s)
    (hacks : s.AcksOnce (.datagram data)) {new : List Output}
    (hnew : (s.onDataReceived data).history = s.history ++ new) {op : Operation} {message : String}
    (hop : .commandCompleted op true message ∈ new) (hzero : op.address ≠ 0)
    (hcommand : op.command ≠ .isYou) :
    op.address = addressFromPacket data ∧ ∃ request,
      s.commandInFlight (addressFromPacket data) = some request ∧
        request.command.commandId = op.command ∧ Confirms data request.command := by
  obtain ⟨new', hsame, -, hawaits⟩ := (causalStep_iff h).mpr hacks
  obtain rfl := List.append_cancel_left (hnew.symm.trans hsame)
  have haddress : op.address = addressFromPacket data := by
    obtain ⟨new', hsame, hat⟩ := succeedsAt_onDataReceived s data
    obtain rfl := List.append_cancel_left (hnew.symm.trans hsame)
    exact (hat _ hop op message rfl).resolve_right hzero
  have hinFlight := (hawaits op message hop).2
  rw [haddress] at hinFlight
  obtain ⟨request, hrequest, hoperation⟩ := exists_request_of_operation hinFlight
  have hid : request.command.commandId = op.command := congrArg Operation.command hoperation
  refine ⟨haddress, request, hrequest, hid, ?_⟩
  by_contra hnot
  obtain ⟨new', hsame, hat⟩ := succeedsAt_unconfirmed hrequest (hid ▸ hcommand) hnot
  obtain rfl := List.append_cancel_left (hnew.symm.trans hsame)
  exact hzero (hat _ hop op message rfl)

end

end Engine

/-! What a reply can confirm. -/

/-- Four bytes confirm a command by the status 0 and its echo. -/
theorem Engine.confirms_four_iff {high low status echo : UInt8} {command : PPBCommand} :
    Confirms [high, low, status, echo] command ↔ status = 0 ∧ echo = command.commandId.code := by
  constructor
  · rintro ⟨event, hparse, hstale, htype⟩
    unfold parseTUResponse at hparse
    dsimp only at hparse
    split at hparse
    next =>
      cases hparse
      cases htype with
      | inl hok => cases hok
      | inr hdata => cases hdata
    next hstatus =>
      cases hparse
      refine ⟨not_not.mp hstatus, ?_⟩
      by_contra hother
      have hignored := of_decide_eq_false hstale
      exact hignored ⟨rfl, rfl, hother⟩
  · rintro ⟨rfl, rfl⟩
    refine ⟨_, rfl, ?_, .inl rfl⟩
    apply decide_eq_false
    rintro ⟨-, -, hother⟩
    exact hother rfl

theorem addressFromPacket_toBigEndian (word : UInt16) (rest : Bytes) :
    addressFromPacket (toBigEndian word ++ rest) = word := fromBigEndian_bytes word

/-- Of the replies that fit, only a PPB's lets an operation succeed, and of the command it
answers. -/
theorem NetworkReply.request?_of_confirms {s : Engine} {reply : NetworkReply} {request : Request}
    (hfits : reply.Fits s)
    (hinFlight : s.commandInFlight (addressFromPacket reply.bytes) = some request)
    (hconfirms : Engine.Confirms reply.bytes request.command) :
    reply.request? = some (addressFromPacket reply.bytes, request.command.commandId.code) := by
  cases reply with
  | ofPPB answered answer =>
    have haddress : addressFromPacket (ofPPB answered answer).bytes = answered.1 := by
      cases answer with
      | acknowledgement status => exact addressFromPacket_toBigEndian ..
      | data first second rest => exact addressFromPacket_toBigEndian ..
    rw [haddress] at hinFlight ⊢
    have hcode : answered.2 = request.command.commandId.code := by
      cases answer with
      | acknowledgement status => exact (Engine.confirms_four_iff.mp hconfirms).2
      | data first second rest => exact (hfits request hinFlight).symm
    exact congrArg (fun code => some (answered.1, code)) hcode
  | ofBridge reply =>
    exfalso
    cases reply with
    | fu address command status =>
      have haddress : addressFromPacket (ofBridge (.fu address command status)).bytes = address :=
        addressFromPacket_toBigEndian ..
      rw [haddress] at hinFlight
      obtain ⟨hreceive, hecho⟩ := Engine.confirms_four_iff.mp hconfirms
      cases command with
      | receive => exact hfits request hinFlight hecho.symm
      | transmit => exact absurd hreceive (by decide)
      | receiveTransmit => exact absurd hreceive (by decide)
    | activeMask mask =>
      obtain ⟨event, hparse, -⟩ := hconfirms
      cases hparse
    | err =>
      obtain ⟨event, hparse, -, htype⟩ := hconfirms
      cases hparse
      cases htype with
      | inl hok => cases hok
      | inr hdata => cases hdata

/-! Counting. -/

def Output.succeededKey? : Output → Option RequestKey
  | .commandCompleted op true _ => some (op.address, op.command.code)
  | _ => none

/-- Where what has succeeded. -/
def succeeded (h : List Output) : List RequestKey := h.filterMap Output.succeededKey?

/-- A command that PPBs confirm, at an address that is not the bridge's. -/
def Confirmable (key : RequestKey) : Prop :=
  key.1 ≠ 0 ∧ key.2 ≠ TechCommand.volume.code ∧ key.2 ≠ TechCommand.isYou.code

theorem succeeded_append (h h' : List Output) : succeeded (h ++ h') = succeeded h ++ succeeded h' :=
  List.filterMap_append

theorem asked_append (h h' : List Output) : asked (h ++ h') = asked h ++ asked h' := by
  simp only [asked, requestsSent, List.filterMap_append, List.flatMap_append]

/-- Successes of VOLUMEs are not counted. -/
theorem count_succeeded_volume {key : RequestKey} (hkey : Confirmable key) {new : List Output}
    (hnew : ∀ o ∈ new, o.SucceedsVolume) : (succeeded new).count key = 0 := by
  apply List.count_eq_zero.mpr
  intro hmem
  obtain ⟨o, ho, hsucceeded⟩ := List.mem_filterMap.mp hmem
  unfold Output.succeededKey? at hsucceeded
  split at hsucceeded
  next op message =>
    apply hkey.2.1
    rw [← Option.some.inj hsucceeded, hnew _ ho op message rfl]
  next => cases hsucceeded

theorem length_succeeded (h : List Output) : (succeeded h).length = (successes h).length := by
  have hsome (o : Output) : o.succeededKey?.isSome = o.succeededPlace.isSome := by
    cases o with
    | commandCompleted op success message => cases success <;> rfl
    | _ => rfl
  unfold succeeded successes
  rw [List.length_filterMap_eq_countP, List.length_filterMap_eq_countP]
  exact congrArg (fun p => List.countP p h) (funext hsome)

/-- One reply, one success, of the request it answers. -/
theorem count_succeeded_datagram {guard : Engine → Event → Prop} {s : Engine} {reply : NetworkReply}
    (h : Reachable guard s) (hfits : reply.Fits s)
    (hacks : s.AcksOnce (.datagram reply.bytes)) {new : List Output}
    (hnew : (s.onDataReceived reply.bytes).history = s.history ++ new) {key : RequestKey}
    (hkey : Confirmable key) : (succeeded new).count key ≤ reply.request?.toList.count key := by
  by_cases hmem : key ∈ succeeded new
  · obtain ⟨o, ho, hsucceeded⟩ := List.mem_filterMap.mp hmem
    unfold Output.succeededKey? at hsucceeded
    split at hsucceeded
    next op message =>
      cases hsucceeded
      have hcommand : op.command ≠ .isYou := fun heq => hkey.2.2 (congrArg TechCommand.code heq)
      obtain ⟨haddress, request, hinFlight, hid, hconfirms⟩ :=
        Engine.confirms_of_success h hacks hnew ho hkey.1 hcommand
      have hanswers := reply.request?_of_confirms hfits hinFlight hconfirms
      obtain ⟨new', hsame, honce, -⟩ := (Engine.causalStep_iff h).mpr hacks
      obtain rfl := List.append_cancel_left (hnew.symm.trans hsame)
      rw [hanswers, hid, ← haddress]
      calc (succeeded new).count (op.address, op.command.code)
          ≤ (succeeded new).length := List.count_le_length
        _ = (successes new).length := length_succeeded new
        _ ≤ 1 := honce
        _ = _ := by simp
    next => cases hsucceeded
  · rw [List.count_eq_zero.mpr hmem]
    exact Nat.zero_le _

namespace Network

variable {s s' : Network} {e : Event}

/-- What is on its way to the engine, by the request it answers. -/
def answers (s : Network) : List RequestKey := s.replies.filterMap NetworkReply.request?

/-- The balance of requests, executions and successes. -/
structure Balanced (s : Network) : Prop where
  engine : Reachable AnyStep s.engine
  asked : ∀ key, s.requests.count key + s.executed.count key ≤
    (PPB.asked s.engine.log).count key
  earned : ∀ key, Confirmable key → (succeeded s.engine.history).count key + s.answers.count key ≤
    s.executed.count key

/-- The engine's part of a step: what it reports as a success must have been earned. -/
theorem Balanced.follow {engine : Engine} (h : s.Balanced) (hengine : Reachable AnyStep engine)
    (hsent : ∃ new, engine.log = s.engine.log ++ new)
    (hearned : ∃ new, engine.history = s.engine.history ++ new ∧
      ∀ key, Confirmable key → (succeeded s.engine.history).count key +
        ((succeeded new).count key + s.answers.count key) ≤ s.executed.count key) :
    (s.follow engine).Balanced := by
  constructor
  · exact hengine
  · intro key
    obtain ⟨sent, hlog⟩ := hsent
    have hasked := h.asked key
    change (s.requests ++ PPB.asked (engine.log.drop s.engine.log.length)).count key +
      s.executed.count key ≤ (PPB.asked engine.log).count key
    rw [hlog, List.drop_left, asked_append, List.count_append, List.count_append]
    omega
  · intro key hkey
    obtain ⟨new, hhistory, hearned⟩ := hearned
    change (succeeded engine.history).count key + s.answers.count key ≤ s.executed.count key
    rw [hhistory, succeeded_append, List.count_append, Nat.add_assoc]
    exact hearned key hkey

/-- Nothing but a datagram brings a success that counts. -/
theorem Balanced.quiet {engine : Engine} (h : s.Balanced) (hengine : Reachable AnyStep engine)
    (hsent : ∃ new, engine.log = s.engine.log ++ new)
    (hquiet : Machine.Extends Output.SucceedsVolume s.engine.history engine.history) :
    (s.follow engine).Balanced := by
  obtain ⟨new, hhistory, hnew⟩ := hquiet
  refine h.follow hengine hsent ⟨new, hhistory, ?_⟩
  intro key hkey
  rw [count_succeeded_volume hkey hnew, Nat.zero_add]
  exact h.earned key hkey

theorem extends_of_not_datagram {guard : Engine → Event → Prop} {s : Engine}
    (h : Reachable guard s) (hdatagram : e.isDatagram = false) :
    Machine.Extends Output.SucceedsVolume s.history (s.handle e).history := by
  have hcausal : s.CausalStep e := (Engine.causalStep_iff h).mpr (by cases e <;> trivial)
  cases e with
  | datagram data => cases hdatagram
  | _ => exact hcausal

theorem count_filterMap_eraseIdx {α β : Type} [BEq β] (f : α → Option β) {l : List α} {k : Nat}
    {x : α} (hx : l[k]? = some x) (b : β) :
    ((l.eraseIdx k).filterMap f).count b + (f x).toList.count b = (l.filterMap f).count b := by
  obtain ⟨hk, rfl⟩ := List.getElem?_eq_some_iff.mp hx
  have hperm := ((List.getElem_cons_eraseIdx_perm hk).filterMap f).count_eq b
  rw [← hperm]
  cases hf : f l[k] with
  | some y =>
    rw [List.filterMap_cons_some hf, List.count_cons]
    simp [List.count_singleton]
  | none =>
    rw [List.filterMap_cons_none hf]
    rfl

theorem count_eraseIdx {α : Type} [BEq α] [LawfulBEq α] {l : List α} {k : Nat} {x : α}
    (hx : l[k]? = some x) (a : α) : (l.eraseIdx k).count a + [x].count a = l.count a := by
  have hcount := count_filterMap_eraseIdx some hx a
  rwa [List.filterMap_some, List.filterMap_some] at hcount

theorem Balanced.start (h : network.start s) : s.Balanced := by
  obtain ⟨udpClient, statics, rfl⟩ := h
  constructor
  · exact .start ⟨udpClient, statics, rfl⟩
  · intro key
    exact Nat.zero_le _
  · intro key _
    exact Nat.zero_le _

theorem Balanced.engineStep (h : s.Balanced) (henabled : s.engine.enabled e)
    (hdatagram : e.isDatagram = false) : (s.advance e).Balanced := by
  obtain ⟨sent, hlog⟩ := s.engine.log_handle e
  exact h.quiet (.step h.engine trivial ⟨henabled, rfl⟩) ⟨sent, hlog⟩
    (extends_of_not_datagram h.engine hdatagram)

/-- What the PPB executes was on its way, and its answer is backed by the execution. -/
theorem Balanced.executed (h : s.Balanced) {k : Nat} {request : RequestKey}
    (hrequest : s.requests[k]? = some request) (answer : Option Answer) :
    Balanced { s with
      requests := s.requests.eraseIdx k
      executed := s.executed ++ [request]
      replies := s.replies ++ (answer.map (.ofPPB request)).toList } := by
  constructor
  · exact h.engine
  · intro key
    have hasked := h.asked key
    have htaken := count_eraseIdx hrequest key
    dsimp only
    rw [List.count_append]
    omega
  · intro key hkey
    have hearned := h.earned key hkey
    dsimp only [answers] at hearned ⊢
    rw [List.filterMap_append, List.count_append, List.count_append]
    have hanswer : ((answer.map (.ofPPB request)).toList.filterMap
        NetworkReply.request?).count key ≤ [request].count key := by
      cases answer with
      | none => exact Nat.zero_le _
      | some answer => exact le_rfl
    omega

/-- A delivered answer turns into one success at most. -/
theorem Balanced.delivered (h : s.Balanced) {k : Nat} {reply : NetworkReply}
    (hreply : s.replies[k]? = some reply) (hfits : reply.Fits s.engine)
    (hacks : s.engine.AcksOnce (.datagram reply.bytes)) :
    ({ s with replies := s.replies.eraseIdx k }.advance (.datagram reply.bytes)).Balanced := by
  have hrest (key : RequestKey) : (answers { s with replies := s.replies.eraseIdx k }).count key +
      reply.request?.toList.count key = s.answers.count key :=
    count_filterMap_eraseIdx NetworkReply.request? hreply key
  have hwithout : Balanced { s with replies := s.replies.eraseIdx k } := by
    refine ⟨h.engine, h.asked, fun key hkey => ?_⟩
    have hearned := h.earned key hkey
    have hcount := hrest key
    dsimp only at hcount ⊢
    omega
  have henabled : s.engine.enabled (.datagram reply.bytes) := trivial
  have hengine : Reachable AnyStep (s.engine.handle (.datagram reply.bytes)) :=
    .step h.engine trivial ⟨henabled, rfl⟩
  obtain ⟨sent, hlog⟩ := s.engine.log_handle (.datagram reply.bytes)
  obtain ⟨new, hhistory, -⟩ := (Engine.causalStep_iff h.engine).mpr hacks
  refine hwithout.follow hengine ⟨sent, hlog⟩ ⟨new, hhistory, ?_⟩
  intro key hkey
  have hsucceeded := count_succeeded_datagram h.engine hfits hacks hhistory hkey
  have hearned := h.earned key hkey
  have hcount := hrest key
  dsimp only at hcount ⊢
  omega

/-- One step keeps the balance. -/
theorem Balanced.step (h : s.Balanced) {e : NetworkEvent} (hundisturbed : s.Undisturbed e)
    (hstep : s.step e = some s') : s'.Balanced := by
  cases e with
  | engine e =>
    obtain ⟨⟨henabled, hdatagram⟩, hsame⟩ := Option.ite_none_right_eq_some.mp hstep
    cases hsame
    exact h.engineStep henabled hdatagram
  | requestLost k =>
    cases hstep
    refine ⟨h.engine, fun key => ?_, h.earned⟩
    have hasked := h.asked key
    have hfewer := (List.eraseIdx_sublist s.requests k).count_le key
    dsimp only
    omega
  | executed k answer =>
    obtain ⟨request, hrequest, rfl⟩ := Option.map_eq_some_iff.mp hstep
    exact h.executed hrequest answer
  | bridge reply =>
    cases hstep
    refine ⟨h.engine, h.asked, fun key hkey => ?_⟩
    have hearned := h.earned key hkey
    dsimp only [answers] at hearned ⊢
    have hnone : [NetworkReply.ofBridge reply].filterMap NetworkReply.request? = [] := rfl
    rwa [List.filterMap_append, hnone, List.append_nil]
  | replyLost k =>
    cases hstep
    refine ⟨h.engine, h.asked, fun key hkey => ?_⟩
    have hearned := h.earned key hkey
    have hfewer :=
      ((List.eraseIdx_sublist s.replies k).filterMap NetworkReply.request?).count_le key
    dsimp only [answers] at hearned ⊢
    omega
  | delivered k =>
    obtain ⟨reply, hreply, rfl⟩ := Option.map_eq_some_iff.mp hstep
    obtain ⟨hfits, hacks⟩ := hundisturbed reply hreply
    exact h.delivered hreply hfits hacks

/-- **What succeeds was executed, and what was executed was asked for**, at each PPB and for each
command as often at least. No reply makes up for a lost one, and nothing is executed on its own. -/
theorem executed_of_succeeded (h : Machine.Reach network Undisturbed s) {key : RequestKey}
    (hkey : Confirmable key) :
    (succeeded s.engine.history).count key ≤ s.executed.count key ∧
      s.executed.count key ≤ (asked s.engine.log).count key := by
  have hbalanced : s.Balanced :=
    h.invariant (fun _ => Balanced.start) fun _ _ _ hb hundisturbed hstep =>
      hb.step hundisturbed hstep
  have hasked := hbalanced.asked key
  have hearned := hbalanced.earned key hkey
  constructor
  · omega
  · omega

/-- A VERS has been asked of the PPB at address 1, and its Data response is on its way. -/
def versExecuted : Network :=
  let engine := (Engine.init (some fun _ => ⟨8, []⟩) {}).handle (.executeCommand .vers 1)
  { engine
    executed := [(1, TechCommand.vers.code)]
    replies := [.ofPPB (1, TechCommand.vers.code) (.data 0x12 0x34 [0x56])] }

theorem versExecuted_reachable : Machine.Reach network Undisturbed versExecuted := by
  have hstart : Machine.Reach network Undisturbed
      { engine := .init (some fun _ => ⟨8, []⟩) {} } := .start ⟨_, {}, rfl⟩
  have hasked := @Machine.Reach.step _ _ network Undisturbed _ _
    (.engine (.executeCommand .vers 1)) hstart trivial rfl
  exact @Machine.Reach.step _ _ network Undisturbed _ _
    (.executed 0 (some (.data 0x12 0x34 [0x56]))) hasked trivial rfl

theorem versExecuted_undisturbed : versExecuted.Undisturbed (.delivered 0) := by
  rintro reply ⟨rfl⟩
  constructor
  · intro inFlight hinFlight
    have hcode : (versExecuted.engine.commandInFlight 1).map (·.command.commandId.code) =
        some TechCommand.vers.code := by decide
    rw [hinFlight] at hcode
    exact Option.some.inj hcode
  · intro request _
    generalize (_ && decide (request.command ≠ .volumeCommand)) = imageReady
    cases imageReady <;> decide

/-- The response is delivered. -/
def versSucceeded : Network :=
  { versExecuted with replies := [] }.advance (.datagram [0, 1, 0, 0x12, 0x34, 0x56])

theorem executed_of_succeeded_vers :
    (succeeded versSucceeded.engine.history).count (1, TechCommand.vers.code) = 1 ∧
      versSucceeded.executed.count (1, TechCommand.vers.code) = 1 := by
  have hreach : Machine.Reach network Undisturbed versSucceeded :=
    @Machine.Reach.step _ _ network Undisturbed _ _
      (.delivered 0) versExecuted_reachable versExecuted_undisturbed rfl
  have hsucceeded : (succeeded versSucceeded.engine.history).count (1, TechCommand.vers.code) = 1 :=
    by decide
  have hkey : Confirmable (1, TechCommand.vers.code) := ⟨by decide, by decide, by decide⟩
  have hle := (executed_of_succeeded hreach hkey).1
  rw [hsucceeded] at hle
  exact ⟨hsucceeded, Nat.le_antisymm (by decide) hle⟩

/-- The response to the VERS comes when it has timed out, and finds a CLEAN that was lost. -/
def lateResponse : List NetworkEvent :=
  [.engine (.executeCommand .vers 1), .executed 0 (some (.data 0x12 0x34 [0x56])),
    .engine (.timeout 1), .engine (.executeCommand .clean 1), .requestLost 0, .delivered 0]

/-- A Data response names no command. -/
theorem not_executed_of_succeeded : ¬ ∀ s, Machine.Reach network (fun _ _ => True) s →
    (succeeded s.engine.history).count (1, TechCommand.clean.code) ≤
      s.executed.count (1, TechCommand.clean.code) := by
  intro hall
  have hstart : network.start { engine := .init (some fun _ => ⟨8, []⟩) {} } := ⟨_, {}, rfl⟩
  obtain ⟨s, hrun, hcounts⟩ : ∃ s, Machine.run step (fun _ _ => True)
      { engine := .init (some fun _ => ⟨8, []⟩) {} } lateResponse = some s ∧
        s.executed.count (1, TechCommand.clean.code) <
          (succeeded s.engine.history).count (1, TechCommand.clean.code) :=
    ⟨_, rfl, by decide⟩
  have hreach := Machine.Reach.of_run step (fun _ _ _ hstep => hstep)
    (Machine.Reach.start (M := network) hstart) lateResponse hrun
  exact absurd (hall s hreach) (Nat.not_le.mpr hcounts)

end Network

end PPB
