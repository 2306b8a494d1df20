import PPBProject.Nesting

/- The engine refines the dispatcher: every handled event is a sequence of moves
   between the views before and after it (`handle_refines`), so every run of the
   engine is a run of the dispatcher (`Reachable.view`).

   A completion is stated as `Completes`: the operation closes with the results its
   command has stored, and waiting groups start. What a datagram can do is listed by
   `Received`, which the results about single datagrams start from. -/
namespace PPB

open Relation (ReflTransGen)

theorem Takes.imageReady {v v' : View} {address : UInt16} {request : Request} (imageReady : Bool)
    (h : Takes v address request v') :
    Takes { v with imageReady } address request { v' with imageReady } := by
  cases h with
  | fresh command => exact .fresh command
  | queued hqueue => exact .queued hqueue

namespace Engine

/-! Starting a single command. -/

/-- What the execution of a single command comes to before waiting groups get their chance: it is
left in flight, or, for a VOLUME, started and completed at once. -/
inductive Executed (v : View) (address : UInt16) (request : Request) : View → Prop where
  | launched (ms : Nat) : Executed v address request (v.launched address request false ms)
  | flashed (imageReady success : Bool) (message : String) :
    request.command.commandId = .volume →
    Executed v address request
      (({ v with imageReady } : View).flashed address request false success message)

theorem executeCommandImmediately_executed {s : Engine} {address : UInt16} (request : Request)
    (hidle : s.isSending address = false) :
    ∃ v, Executed (s.view []) address request v ∧
      Starts v ((s.executeCommandImmediately address request false).view []) := by
  have htry (t : Engine) := view_tryStartPendingGroupCommands t []
  have hopened := s.view_openOperation [] address request false
  -- a VOLUME sent over UDP: its image data is dropped before the completion
  have hsent {t : Engine} (success : Bool) (message : String)
      (hvolume : request.command.commandId = .volume)
      (ht : t.view [] = ({ s.view [] with imageReady := false } : View).opened address request
        false) :
      ∃ v, Executed (s.view []) address request v ∧
        Starts v ((t.completeOperation address success message).view []) :=
    ⟨_, .flashed false success message hvolume, view_flash [] address success message ht htry⟩
  unfold executeCommandImmediately executeCommandImmediatelyWith
  simp only [hidle, Bool.false_eq_true, if_false, Bool.not_false, if_true]
  split
  next hpacket =>
    have hvolume := ((PPBCommand.buildRequest_eq_nil_iff ..).mp hpacket).1
    exact ⟨_, .flashed s.statics.volumeUseCustomData false _ (by rw [hvolume]; rfl),
      view_flash [] address false _ hopened htry⟩
  · split
    next hvolume =>
      unfold sendVolume
      split
      next =>
        refine hsent false _ hvolume ?_
        rw [view_statics, hopened]
        rfl
      next client hclient =>
        have hview (packet : Bytes) : ({ ((s.openOperation address request false).handToUdp client
            packet).1 with statics := ((s.openOperation address request false).handToUdp client
            packet).1.statics.clearCurrentVolumeData } : Engine).view [] =
            ({ s.view [] with imageReady := false } : View).opened address request false := by
          rw [view_statics, view_handToUdp, hopened]
          rfl
        dsimp only
        split
        · exact hsent false _ hvolume (hview _)
        · exact hsent true _ hvolume (hview _)
    next =>
      rw [view_armTimer, view_sendPacketInternal, hopened]
      exact ⟨_, .launched _, .refl⟩

theorem view_executeCommandImmediately {s : Engine} {v : View} {address : UInt16}
    {request : Request} (htakes : Takes v address request (s.view []))
    (hidle : s.isSending address = false) :
    Moves .ordinary v ((s.executeCommandImmediately address request false).view []) := by
  have hstate : v.state address ≠ .sendingCommand := by
    rw [← htakes.state_eq, ne_eq, view_sending_iff, hidle]
    simp
  obtain ⟨w, hexecuted, hstarts⟩ := executeCommandImmediately_executed request hidle
  refine ReflTransGen.trans ?_ (Starts.moves hstarts)
  cases hexecuted with
  | launched ms => exact .single (.launch ms htakes hstate)
  | flashed imageReady success message hvolume =>
    exact .head (.image imageReady)
      (.single (.flash success message (htakes.imageReady imageReady) hstate hvolume))

theorem view_dequeueAndExecute (s : Engine) (address : UInt16)
    (hidle : s.isSending address = false) :
    Moves .ordinary (s.view []) ((s.dequeueAndExecute address).view []) := by
  unfold dequeueAndExecute
  cases hqueue : s.queueOf address with
  | nil =>
    rw [dequeue_nil s hqueue]
  | cons request rest =>
    obtain ⟨htaken, hview⟩ := s.dequeue_cons [] hqueue
    generalize hpair : s.dequeue address = pair at htaken hview
    obtain ⟨t, taken⟩ := pair
    simp only at htaken hview
    subst htaken
    refine view_executeCommandImmediately (hview ▸ .queued hqueue) ?_
    rw [← Bool.not_eq_true, ← view_sending_iff [], hview]
    rw [← Bool.not_eq_true, ← view_sending_iff []] at hidle
    exact hidle

/-! Completing an operation in flight. -/

/-- The command of `request` is in flight at `address`, in the context `c`. -/
structure InFlight (s : Engine) (address : UInt16) (c : PPBContext) (request : Request) : Prop where
  found : s.findContext address = some c
  uncompleted : c.operationCompleted = false
  command : c.currentCommand = some request

/-- From `s` to `s'` the operation of `request` completes, reported with some results, and
waiting groups start. -/
def Completes (s : Engine) (address : UInt16) (c : PPBContext) (request : Request) (success : Bool)
    (s' : Engine) : Prop :=
  ∃ imageReady parsedSuccess parsedMessage parsedData message,
    Starts (({ s.view [] with imageReady } : View).closed address
      (c.withResults parsedSuccess parsedMessage parsedData) request success message) (s'.view [])

/-- `t` is `s` after calls of a callback that did not complete the operation. -/
def Prepared (s t : Engine) (address : UInt16) (c : PPBContext) : Prop :=
  ∃ imageReady parsedSuccess parsedMessage parsedData,
    t.view [] = { s.view [] with
      context := Function.update s.findContext address
        (some (c.withResults parsedSuccess parsedMessage parsedData))
      imageReady }

section
variable {s t : Engine} {address : UInt16} {c : PPBContext} {request : Request}

theorem InFlight.moves {s' : Engine} {success : Bool} (hflight : InFlight s address c request)
    (h : Completes s address c request success s') : Moves .ordinary (s.view []) (s'.view []) := by
  obtain ⟨imageReady, parsedSuccess, parsedMessage, parsedData, message, hstarts⟩ := h
  exact .head (.image imageReady) (.head (.finish success message parsedSuccess parsedMessage
    parsedData hflight.found hflight.uncompleted hflight.command) (Starts.moves hstarts))

theorem view_completeOperation (success : Bool) (message : String)
    (hflight : InFlight s address c request) :
    Starts ((s.view []).closed address c request success message)
      ((s.completeOperation address success message).view []) := by
  unfold completeOperation
  rw [view_completeOperationWith _ _ _ _ _ hflight.found hflight.uncompleted hflight.command,
    ← view_closeOperation]
  exact view_tryStartPendingGroupCommands _ _

theorem Prepared.image {imageReady : Bool} (hview : t.view [] = { s.view [] with imageReady })
    (h : s.findContext address = some c) : Prepared s t address c := by
  refine ⟨imageReady, c.parsedSuccess, c.parsedMessage, c.parsedData, ?_⟩
  have hsame : c.withResults c.parsedSuccess c.parsedMessage c.parsedData = c := rfl
  rw [hsame, ← h, Function.update_eq_self]
  exact hview

theorem Prepared.refl (h : s.findContext address = some c) : Prepared s s address c :=
  .image rfl h

theorem Prepared.hostCall (h : Prepared s t address c) {call : HostCall}
    (hquiet : call.isQuiet = true) : Prepared s (Engine.hostCall address t call) address c := by
  obtain ⟨imageReady, parsedSuccess, parsedMessage, parsedData, hview⟩ := h
  cases call with
  | completeCurrentOperation => cases hquiet
  | setParseResult success message =>
    refine ⟨imageReady, success, message, parsedData, ?_⟩
    simp only [Engine.hostCall, setCommandParseResult, view_modifyContext, hview,
      Function.update_self, Function.update_idem, Option.map_some]
    rfl
  | setParseData data =>
    refine ⟨imageReady, parsedSuccess, parsedMessage, data, ?_⟩
    simp only [Engine.hostCall, setCommandParseData, view_modifyContext, hview,
      Function.update_self, Function.update_idem, Option.map_some]
    rfl
  | clearCurrentVolumeData =>
    refine ⟨false, parsedSuccess, parsedMessage, parsedData, ?_⟩
    simp only [Engine.hostCall, view_statics, hview]
    rfl
  | clearCurrentVersion =>
    refine ⟨imageReady, parsedSuccess, parsedMessage, parsedData, ?_⟩
    rw [← hview]
    rfl
  | _ => exact ⟨imageReady, parsedSuccess, parsedMessage, parsedData, hview⟩

theorem Prepared.runCallback {calls : List HostCall} (h : Prepared s t address c)
    (hquiet : ∀ call ∈ calls, call.isQuiet = true) :
    Prepared s (t.runCallback address calls) address c := by
  induction calls generalizing t with
  | nil => exact h
  | cons call rest ih =>
    exact ih (h.hostCall (hquiet call (by simp))) fun other hmem => hquiet other (by simp [hmem])

theorem Prepared.completes (success : Bool) (message : String) (h : Prepared s t address c)
    (hflight : InFlight s address c request) :
    Completes s address c request success (t.completeOperation address success message) := by
  obtain ⟨imageReady, parsedSuccess, parsedMessage, parsedData, hview⟩ := h
  have hflight' : InFlight t address (c.withResults parsedSuccess parsedMessage parsedData)
      request := by
    refine ⟨?_, hflight.uncompleted, hflight.command⟩
    change (t.view []).context address = _
    rw [hview]
    exact Function.update_self ..
  have hstarts := view_completeOperation success message hflight'
  rw [hview] at hstarts
  refine ⟨imageReady, parsedSuccess, parsedMessage, parsedData, message, ?_⟩
  rwa [← View.closed_update _ address
    (some (c.withResults parsedSuccess parsedMessage parsedData))]

/-- The pointer taken before the callback still reads an operation in flight. -/
theorem Prepared.readCompleted (h : Prepared s t address c)
    (hflight : InFlight s address c request) :
    t.readCompleted address (s.erasures address) = false := by
  obtain ⟨imageReady, parsedSuccess, parsedMessage, parsedData, hview⟩ := h
  have herasures : t.erasures = s.erasures := congrArg View.erasures hview
  have hfind : t.findContext address = some (c.withResults parsedSuccess parsedMessage
      parsedData) := by
    change (t.view []).context address = _
    rw [hview]
    exact Function.update_self ..
  simp only [Engine.readCompleted, herasures, if_true, hfind]
  exact hflight.uncompleted

end

/-! Received datagrams. -/

/-- The calls a TU reply makes the command in flight make. -/
def callbackCalls (command : PPBCommand) (data : Bytes) : List HostCall :=
  match parseTUResponse data with
  | none => []
  | some event =>
    if isStaleAck command data event then []
    else match event.type with
      | .ok => command.onOkReceived
      | .data => command.onDataReceived [event.payload]
      | _ => []

/-- The datagram acknowledges the command in flight at the address it starts with, and the callback
of this command completes the operation on an acknowledgement. -/
structure Acknowledges (s : Engine) (data : Bytes) (request : Request) : Prop where
  inFlight : s.commandInFlight (addressFromPacket data) = some request
  unclaimed : request.command.commandId = .isYou → parseBridgeResponse data = none
  acknowledged : ∃ event, parseTUResponse data = some event ∧ event.type = .ok ∧
    isStaleAck request.command data event = false
  completes : completesWith request.command.onOkReceived true = true

/-- What `onDataReceived` can come to. In `twice` the command's own callback completed its
operation, and the entry read afterwards was in flight again: what follows an acknowledgement
reports a success, what follows data reports what the entry holds. -/
inductive Received (s : Engine) (data : Bytes) : Engine → Prop where
  | ignored : Received s data s
  | fuReply {event : ProtocolEvent} (message : String) :
    parseBridgeResponse data = some event → s.commandInFlight event.address = none →
    Received s data
      (s.emit (.fuCommandCompleted event.address event.command (event.status = 1) message))
  | completed {address : UInt16} {c : PPBContext} {request : Request} {s' : Engine}
      (success : Bool) :
    InFlight s address c request → Completes s address c request success s' →
    Received s data s'
  | twice {c : PPBContext} {request : Request} {t : Engine} (success success' : Bool)
      (message' : String) :
    InFlight s (addressFromPacket data) c request →
    completesWith (callbackCalls request.command data) success = true →
    Completes s (addressFromPacket data) c request success t →
    t.readCompleted (addressFromPacket data) (s.erasures (addressFromPacket data)) = false →
    Acknowledges s data request ∨
      success' = ((t.findContext (addressFromPacket data)).getD {}).parsedSuccess →
    Received s data (t.completeOperation (addressFromPacket data) success' message')

section
variable {s : Engine} {address : UInt16} {c : PPBContext} {request : Request}

theorem runCallback_append (s : Engine) (calls calls' : List HostCall) :
    s.runCallback address (calls ++ calls') =
      (s.runCallback address calls).runCallback address calls' :=
  List.foldl_append ..

/-- A callback, then the completion that stands behind it: the operation completes, and what
stands behind the callback does nothing unless the entry is in flight again. -/
theorem received_callback {data : Bytes} {calls : List HostCall} (finish : Engine → Bool × String)
    (hflight : InFlight s (addressFromPacket data) c request)
    (hcalls : callbackCalls request.command data = calls) (hshape : EndsQuietly calls)
    (hfinish : ∀ success, completesWith calls success = true → Acknowledges s data request ∨
      ∀ t, (finish t).1 = ((t.findContext (addressFromPacket data)).getD {}).parsedSuccess) :
    Received s data
      (if (s.runCallback (addressFromPacket data) calls).readCompleted (addressFromPacket data)
          (s.erasures (addressFromPacket data)) then
        s.runCallback (addressFromPacket data) calls
      else (s.runCallback (addressFromPacket data) calls).completeOperation (addressFromPacket data)
        (finish (s.runCallback (addressFromPacket data) calls)).1
        (finish (s.runCallback (addressFromPacket data) calls)).2) := by
  have hprepared := Prepared.refl hflight.found
  rcases hshape with hquiet | ⟨pre, success, message, hquiet, rfl⟩
  -- no call completes the operation: `onDataReceived` does
  · have hafter := hprepared.runCallback hquiet
    rw [hafter.readCompleted hflight]
    exact .completed _ hflight (hafter.completes _ _ hflight)
  · have hafter := hprepared.runCallback hquiet
    have hdone := hafter.completes success message hflight
    rw [runCallback_append]
    split
    · exact .completed success hflight hdone
    next hread =>
      have hcompletes : completesWith (pre ++ [.completeCurrentOperation success message]) success =
          true := by simp [completesWith]
      refine .twice success _ _ hflight (hcalls ▸ hcompletes) hdone (Bool.not_eq_true _ ▸ hread) ?_
      refine (hfinish success hcompletes).imp_right fun hdata => ?_
      rw [← runCallback_append, hdata]

theorem view_completeWithBridgeReply (success : Bool) (message : String) (data : Option ParsedData)
    (hflight : InFlight s address c request) :
    Starts ((s.view []).closed address (c.withResults success message data) request success message)
      ((s.completeWithBridgeReply address success message data).view []) := by
  generalize hstored : (s.setCommandParseResult address success message).setCommandParseData address
    data = t
  have hview : t.view [] = { s.view [] with
      context := Function.update s.findContext address
        (some (c.withResults success message data)) } := by
    have hfind : (s.view []).context address = some c := hflight.found
    simp only [← hstored, setCommandParseData, setCommandParseResult, view_modifyContext, hfind,
      Function.update_self, Function.update_idem, Option.map_some]
    rfl
  have hflight' : InFlight t address (c.withResults success message data) request := by
    refine ⟨?_, hflight.uncompleted, hflight.command⟩
    change (t.view []).context address = _
    rw [hview]
    exact Function.update_self ..
  have hstarts := view_completeOperation success message hflight'
  rw [hview] at hstarts
  rw [completeWithBridgeReply, hstored]
  rwa [← View.closed_update _ address (some (c.withResults success message data))]

theorem completes_bridgeReply (success : Bool) (message : String) (data : Option ParsedData)
    (hflight : InFlight s address c request) :
    Completes s address c request success (s.completeWithBridgeReply address success message data) :=
  ⟨_, success, message, data, message, view_completeWithBridgeReply success message data hflight⟩

theorem commandInFlight_eq_some_iff :
    s.commandInFlight address = some request ↔ ∃ c, InFlight s address c request := by
  simp only [commandInFlight, Option.bind_eq_some_iff, Option.filter_eq_some_iff]
  constructor
  · rintro ⟨c, ⟨hfind, hflight⟩, hcommand⟩
    refine ⟨c, hfind, ?_, hcommand⟩
    simpa [PPBContext.inFlight, hcommand] using hflight
  · rintro ⟨c, hfind, hopen, hcommand⟩
    exact ⟨c, ⟨hfind, by simp [PPBContext.inFlight, hcommand, hopen]⟩, hcommand⟩

theorem received_isYou {data : Bytes} (event : ProtocolEvent)
    (hflight : InFlight s address c request) : Received s data (s.completeIsYou address event) := by
  unfold completeIsYou
  split
  · exact .completed _ hflight (completes_bridgeReply _ _ _ hflight)
  · split
    · exact .completed _ hflight (completes_bridgeReply _ _ _ hflight)
    · exact .completed _ hflight (completes_bridgeReply _ _ _ hflight)

theorem received_TUEvent {data : Bytes} {event : ProtocolEvent}
    (hflight : InFlight s (addressFromPacket data) c request)
    (hunclaimed : request.command.commandId = .isYou → parseBridgeResponse data = none)
    (hparse : parseTUResponse data = some event)
    (hstale : isStaleAck request.command data event = false) :
    Received s data (s.handleTUEvent (addressFromPacket data) request.command event) := by
  have hcalls : callbackCalls request.command data = match event.type with
      | .ok => request.command.onOkReceived
      | .data => request.command.onDataReceived [event.payload]
      | _ => [] := by
    simp only [callbackCalls, hparse, hstale, Bool.false_eq_true, if_false]
  unfold handleTUEvent
  cases htype : event.type with
  | error => exact .completed _ hflight ((Prepared.refl hflight.found).completes _ _ hflight)
  | ok =>
    rw [htype] at hcalls
    refine received_callback (fun _ => (true, "Команда выполнена")) hflight hcalls
      request.command.onOkReceived_endsQuietly fun success hcompletes => .inl ?_
    refine ⟨commandInFlight_eq_some_iff.mpr ⟨c, hflight⟩, hunclaimed,
      ⟨event, hparse, htype, hstale⟩, ?_⟩
    rwa [request.command.eq_true_of_onOkReceived_completes hcompletes] at hcompletes
  | data =>
    rw [htype] at hcalls
    exact received_callback
      (fun t => (((t.findContext (addressFromPacket data)).getD {}).parsedSuccess,
        ((t.findContext (addressFromPacket data)).getD {}).parsedMessage)) hflight hcalls
      (request.command.onDataReceived_endsQuietly _) fun _ _ => .inr fun _ => rfl
  | unknown => exact .ignored
  | bridgeResponse => exact .ignored

theorem received_dispatch {data : Bytes} {s' : Engine}
    (hflight : InFlight s (addressFromPacket data) c request)
    (h : s.dispatchToOperation (addressFromPacket data) request.command data = some s') :
    Received s data s' := by
  simp only [dispatchToOperation] at h
  split at h
  next event _ =>
    cases h
    exact received_isYou event hflight
  next hclaimed =>
    split at h
    next event hparse =>
      split at h
      next =>
        cases h
        exact .ignored
      next hstale =>
        cases h
        refine received_TUEvent hflight (fun hcommand => ?_) hparse (Bool.not_eq_true _ ▸ hstale)
        rwa [if_pos hcommand] at hclaimed
    next =>
      obtain ⟨_, _, rfl⟩ := Option.map_eq_some_iff.mp h
      exact .completed _ hflight ((Prepared.refl hflight.found).completes _ _ hflight)

theorem received_unclaimed (s : Engine) (data : Bytes) :
    Received s data (s.handleUnclaimed data) := by
  unfold handleUnclaimed
  split
  next event hparse =>
    unfold handleBridgeEvent
    split
    next request hcommand =>
      obtain ⟨c, hflight⟩ := commandInFlight_eq_some_iff.mp hcommand
      dsimp only
      split
      · exact .completed _ hflight (completes_bridgeReply _ _ _ hflight)
      · split
        · exact .completed _ hflight (completes_bridgeReply _ _ _ hflight)
        · exact .completed _ hflight (completes_bridgeReply _ _ _ hflight)
    next hcommand => exact .fuReply _ hparse hcommand
  next => exact .ignored

/-- **What a datagram does.** -/
theorem onDataReceived_received (s : Engine) (data : Bytes) :
    Received s data (s.onDataReceived data) := by
  unfold onDataReceived
  split
  next => exact .ignored
  next =>
    dsimp only
    split
    next request hcommand =>
      obtain ⟨c, hflight⟩ := commandInFlight_eq_some_iff.mp hcommand
      cases hdispatch : s.dispatchToOperation (addressFromPacket data) request.command data with
      | none => exact received_unclaimed s data
      | some s' => exact received_dispatch hflight hdispatch
    next => exact received_unclaimed s data

/-- `completeOperation` does nothing where no operation is in flight. -/
theorem completeOperation_eq_self (success : Bool) (message : String)
    (h : s.commandInFlight address = none) : s.completeOperation address success message = s := by
  unfold completeOperation completeOperationWith
  cases hfind : s.findContext address with
  | none => rfl
  | some c =>
    cases hopen : c.operationCompleted <;> cases hc : c.currentCommand <;>
      simp_all [commandInFlight, PPBContext.inFlight, Option.filter]

theorem moves_completeOperation (s : Engine) (address : UInt16) (success : Bool)
    (message : String) :
    Moves .ordinary (s.view []) ((s.completeOperation address success message).view []) := by
  cases hcommand : s.commandInFlight address with
  | some request =>
    obtain ⟨c, hflight⟩ := commandInFlight_eq_some_iff.mp hcommand
    exact hflight.moves ((Prepared.refl hflight.found).completes success message hflight)
  | none => rw [completeOperation_eq_self success message hcommand]

theorem Received.moves {data : Bytes} {s' : Engine} (h : Received s data s') :
    Moves .ordinary (s.view []) (s'.view []) := by
  cases h with
  | ignored => exact .refl
  | @fuReply event message =>
    rw [view_emit]
    exact .single (.fuReply event.address event.command (event.status = 1) message)
  | completed success hflight hcompletes => exact hflight.moves hcompletes
  | twice success _ _ hflight _ hcompletes _ _ =>
    exact (hflight.moves hcompletes).trans (moves_completeOperation ..)

end

/-! The public interface, timers and callbacks. -/

section
variable (s : Engine) (address : UInt16)

theorem view_acceptQueued (command : PPBCommand) :
    Moves .ordinary (s.view []) ((s.acceptQueued address command).view []) := by
  have hview : (s.acceptQueued address command).view [] = ({ s.view [] with
      nextTicket := s.nextTicket + 1
      queue := Function.update s.queueOf address
        (s.queueOf address ++ [(⟨.single s.nextTicket, command⟩ : Request)]) } : View).record
      [.accepted address (.single s.nextTicket) true] := by
    simp only [acceptQueued, view_enqueue, view_emit, Output.isRecord, if_true]
    rfl
  rw [hview]
  exact .single (.enqueue address command)

theorem view_acceptImmediately (command : PPBCommand) (hidle : s.isSending address = false) :
    Moves .ordinary (s.view []) ((s.acceptImmediately address command).view []) := by
  unfold acceptImmediately
  refine view_executeCommandImmediately ?_ ?_
  · rw [view_emit]
    exact .fresh command
  · rw [isSending_eq_false_iff] at hidle ⊢
    rw [view_emit]
    exact hidle

theorem view_submit (command : PPBCommand) :
    Moves .ordinary (s.view []) ((s.submit address command).view []) := by
  unfold submit
  split
  · exact s.view_acceptQueued address command
  · split
    · exact s.view_acceptQueued address command
    next hidle => exact s.view_acceptImmediately address command (Bool.not_eq_true _ ▸ hidle)

theorem view_executeGroupCommand (cmd : TechCommand) (mask : UInt16) (data : Bytes) :
    Moves .ordinary (s.view []) ((s.executeGroupCommand cmd mask data).1.view []) := by
  unfold executeGroupCommand
  split
  next =>
    rw [view_emit_other _ _ rfl]
  next nonempty =>
    split
    next known =>
      dsimp only
      split
      next =>
        rw [view_pushPending, view_emit]
        exact .single (@Move.queueGroup (s.view [])
          ⟨s.nextGroupId, cmd, mask, data, known, nonempty⟩ rfl)
      next hcan =>
        rw [Bool.not_eq_true', Bool.not_eq_false] at hcan
        obtain ⟨hstarted, v, hbegins, hstarts⟩ := view_startGroupCommandWith
          (fun t => view_tryStartPendingGroupCommands t)
          (({ s with nextGroupId := s.nextGroupId + 1 } : Engine).emit
            (.groupAccepted s.nextGroupId mask false)) [] s.nextGroupId cmd mask data known hcan
        simp only [startGroupCommand, hstarted, if_true]
        rw [view_emit] at hbegins
        exact .head (.acceptGroup nonempty hbegins) (Starts.moves hstarts)
    next =>
      rw [view_emit_other _ _ rfl]

theorem view_processCommandQueue (addresses : List UInt16) :
    Moves .ordinary (s.view []) ((s.processCommandQueue addresses).view []) := by
  unfold processCommandQueue
  induction addresses generalizing s with
  | nil => exact .refl
  | cons address rest ih =>
    refine ReflTransGen.trans ?_ (ih (s.processQueued address))
    unfold processQueued
    split
    · exact .refl
    · split
      next hidle => exact s.view_dequeueAndExecute address (by simpa using hidle)
      · exact .refl

theorem view_processNextCommandForAddress :
    Moves .ordinary (s.view []) ((s.processNextCommandForAddress address).view []) := by
  unfold processNextCommandForAddress
  split
  · exact .refl
  next hready =>
    -- Ready, so no operation is in flight
    refine s.view_dequeueAndExecute address ?_
    simp [isSending, not_not.mp hready]

theorem view_sendDataPackets (packets : List DataPacket) :
    (s.sendDataPackets packets).view [] = s.view [] := by
  have hsends : (packets.foldl (fun s packet => s.sendPacketInternal [packet.1, packet.2]) s).view
      [] = s.view [] := by
    induction packets generalizing s with
    | nil => rfl
    | cons packet rest ih =>
      rw [List.foldl_cons, ih, view_sendPacketInternal]
  simp only [sendDataPackets, view_emit, hsends, Output.isRecord, Bool.false_eq_true, if_false,
    View.record_nil]

/-- The timer that fired was running, so its operation is in flight and fails. -/
theorem view_onOperationTimeout {c : PPBContext} {request : Request}
    (hflight : InFlight s address c request) :
    Completes s address c request false (s.onOperationTimeout address) := by
  generalize hfired : s.modifyContext address (fun c => { c with operationTimer := none }) = t
  have hview : t.view [] = { s.view [] with
      context := Function.update s.findContext address
        (some { c with operationTimer := none }) } := by
    have hfind : (s.view []).context address = some c := hflight.found
    rw [← hfired, view_modifyContext, hfind]
    rfl
  -- the timer has fired, the operation is still in flight
  have hflight' : InFlight t address { c with operationTimer := none } request := by
    refine ⟨?_, hflight.uncompleted, hflight.command⟩
    change (t.view []).context address = _
    rw [hview]
    exact Function.update_self ..
  have hstarts := view_completeOperation false "Таймаут операции" hflight'
  rw [hview] at hstarts
  refine ⟨s.statics.volumeUseCustomData, c.parsedSuccess, c.parsedMessage, c.parsedData,
    "Таймаут операции", ?_⟩
  simp only [onOperationTimeout, hfired, hflight'.found]
  rw [if_pos (by simp [PPBContext.inFlight, hflight.command, hflight.uncompleted])]
  rw [← View.closed_update _ address (some { c with operationTimer := none })]
  exact hstarts

end

/-- **The engine refines the dispatcher.** A handled event is a sequence of moves. -/
theorem handle_refines {s : Engine} {e : Event} (henabled : s.enabled e)
    (htimer : ∀ address c, s.findContext address = some c → c.operationTimer.isSome = true →
      ∃ request, InFlight s address c request) :
    Moves e.kind (s.view []) ((s.handle e).view []) := by
  cases e with
  | connectToPPB address ip port => exact view_acceptQueued _ address .statusCommand
  | disconnect =>
    have hview : s.disconnect.view [] = ({ s.view [] with
        queue := fun _ => [], waiting := [], groups := [], state := fun _ => .idle } : View).record
        [.disconnected] := by
      rw [disconnect, view_emit]
      rfl
    simp only [handle, hview]
    exact .single .disconnect
  | executeCommand cmd address =>
    simp only [handle, executeCommand]
    split
    · rw [view_emit_other _ _ rfl]
    · exact s.view_submit address _
  | executeCommandWithData cmd address data => exact s.view_submit address _
  | executeGroupCommand cmd mask data => exact s.view_executeGroupCommand cmd mask data
  | sendFU mode address period fuData =>
    cases mode <;>
      simp only [handle, sendFUTransmit, sendFUReceive, sendFUReceiveTransmit, sendFU,
        view_sendPacketInternal] <;> exact .refl
  | sendDataPackets packets =>
    simp only [handle, view_sendDataPackets]
    exact .refl
  | setBridgeAddress ip port => exact .refl
  | clearCommandQueue address =>
    have hview : (s.clearCommandQueue address).view [] = ({ s.view [] with
        queue := Function.update s.queueOf address [] } : View).record
        [.cleared address ((s.queueOf address).map Request.origin)] := by
      rw [clearCommandQueue, view_emit, ← queueOf_erase]
      rfl
    simp only [handle, hview]
    exact .single (.clear address)
  | setCurrentVolumeData payload marker totalSize data => exact .single (.image true)
  | setCurrentVersion version => exact .refl
  | datagram data => exact (s.onDataReceived_received data).moves
  | timeout address =>
    simp only [enabled, Option.isSome_bind, Option.any_eq_true] at henabled
    obtain ⟨c, hfind, harmed⟩ := henabled
    obtain ⟨request, hflight⟩ := htimer address c hfind harmed
    exact hflight.moves (s.view_onOperationTimeout address hflight)
  | networkError error =>
    simp only [handle, onNetworkError]
    rw [view_emit_other _ _ rfl]
  | queueTick order => exact s.view_processCommandQueue order
  | posted index order =>
    simp only [handle, runPosted]
    split
    · exact view_processNextCommandForAddress ({ s with posted := s.posted.eraseIdx index }) _
    · exact view_processCommandQueue ({ s with posted := s.posted.eraseIdx index }) order
    · exact .refl

end Engine

end PPB
