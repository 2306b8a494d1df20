import PPBProject.Replies
import PPBProject.Takeover

/- What the success of a data command means. TS, VERS, CHECKSUM, BER_T, BER_F,
   Factory_Number and PRBS_S2M are answered with data, and `PPBCommand::onOkReceived` means
   to go on waiting when one of them is acknowledged. But `CommandHost` ignores `setState`
   and `startTimeoutTimer`, and `onDataReceived` completes whatever its callback has left
   uncompleted: an acknowledgement without data is a success of the command.

   Where no such acknowledgement comes, every success of a data command goes back to a Data
   response that its command has parsed, and every `statusReceived` carries what a TS
   payload was parsed to. -/
namespace PPB

/-- The commands that are answered with data. IS_YOU is not among them: the bridge answers it with a
reply of its own. -/
def TechCommand.yieldsData : TechCommand → Bool
  | .ts | .vers | .checksum | .berT | .berF | .factoryNumber | .prbsS2M => true
  | _ => false

/-- The command is of a class that expects data and keeps the default `onOkReceived`. -/
def PPBCommand.awaitsData : PPBCommand → Bool
  | statusCommand | versCommand | checkSumCommand | berTCommand | berFCommand | factoryNumber
  | prbsS2MCommand => true
  | _ => false

/-- The command's `onDataReceived` parses this payload successfully. -/
def PPBCommand.parses (command : PPBCommand) (payload : Bytes) : Bool :=
  match command with
  | prbsS2MCommand => (extractDataPackets payload).length = testPacketCount
  | command => (command.parseResponseData [payload]).isOk

/-- On an acknowledgement these commands ask to be left in flight, with their timer restarted. -/
theorem PPBCommand.onOkReceived_awaitsData {command : PPBCommand} (h : command.awaitsData = true) :
    0 < command.expectedResponsePackets ∧ command.onOkReceived =
      [.setState .sendingCommand, .startTimeoutTimer command.timeoutMs] := by
  cases command <;> first
    | exact ⟨by decide, rfl⟩
    | cases h

/-! Every `statusReceived` goes with a success of a TS. -/

/-- The statuses among these entries are of TS operations that succeed among them. -/
def StatusesSucceed (new : List Output) : Prop :=
  ∀ op mask packets, .statusReceived op mask packets ∈ new → op.command = .ts ∧
    ∃ report, .commandCompleted op true report ∈ new

/-- From `v` to `v'` the history grows, and statuses go with successes. -/
def Stated (v v' : View) : Prop := ∃ new, v'.history = v.history ++ new ∧ StatusesSucceed new

theorem StatusesSucceed.append {new new' : List Output} (h : StatusesSucceed new)
    (h' : StatusesSucceed new') : StatusesSucceed (new ++ new') := by
  intro op mask packets hmem
  rcases List.mem_append.mp hmem with hmem | hmem
  · obtain ⟨hcommand, report, hreport⟩ := h op mask packets hmem
    exact ⟨hcommand, report, List.mem_append_left _ hreport⟩
  · obtain ⟨hcommand, report, hreport⟩ := h' op mask packets hmem
    exact ⟨hcommand, report, List.mem_append_right _ hreport⟩

theorem statusesSucceed_of_none {new : List Output}
    (h : ∀ o ∈ new, ∀ op mask packets, o ≠ .statusReceived op mask packets) :
    StatusesSucceed new :=
  fun op mask packets hmem => absurd rfl (h _ hmem op mask packets)

theorem statusesSucceed_reportOf (op : Operation) (c : PPBContext) (success : Bool)
    (message : String) : StatusesSucceed (Engine.reportOf op c success message) := by
  intro op' mask packets hmem
  simp only [Engine.reportOf, List.mem_cons, List.mem_append, Option.mem_toList,
    Option.map_eq_some_iff] at hmem
  rcases hmem with heq | ⟨_, _, heq⟩ | hmem
  · cases heq
  · cases heq
  · split at hmem
    next hts =>
      obtain ⟨rfl, -⟩ := Output.statusReceived.inj (List.mem_singleton.mp hmem)
      exact ⟨hts.1, _, by rw [hts.2]; exact List.mem_cons_self⟩
    next => simp at hmem

theorem statusesSucceed_completion (op : Operation) (c : PPBContext) (success : Bool)
    (message : String) (address : UInt16) (groups : List (Nat × GroupInfo)) :
    StatusesSucceed (Engine.reportOf op c success message ++
      (Engine.settleGroups address success groups).2) := by
  refine (statusesSucceed_reportOf _ _ _ _).append (statusesSucceed_of_none fun o ho => ?_)
  obtain ⟨_, -, -, -, rfl⟩ := Engine.mem_settleGroups_snd _ _ _ ho
  simp

section
variable {v v' : View}

theorem Stated.refl (v : View) : Stated v v :=
  ⟨[], (List.append_nil _).symm, statusesSucceed_of_none (by simp)⟩

theorem Stated.trans {v'' : View} (h : Stated v v') (h' : Stated v' v'') : Stated v v'' := by
  obtain ⟨new, heq, hnew⟩ := h
  obtain ⟨new', heq', hnew'⟩ := h'
  exact ⟨new ++ new', by rw [heq', heq, List.append_assoc], hnew.append hnew'⟩

theorem Stated.plain {new : List Output} (heq : v'.history = v.history ++ new)
    (h : ∀ o ∈ new, ∀ op mask packets, o ≠ .statusReceived op mask packets) : Stated v v' :=
  ⟨new, heq, statusesSucceed_of_none h⟩

theorem View.stated_closed {address : UInt16} (c : PPBContext) (request : Request) (success : Bool)
    (message : String) : Stated v (v.closed address c request success message) :=
  ⟨_, rfl, statusesSucceed_completion _ _ _ _ _ _⟩

theorem View.stated_flashed {address : UInt16} (request : Request) (suppressSend success : Bool)
    (message : String) : Stated v (v.flashed address request suppressSend success message) := by
  refine ⟨_, View.flashed_history .., ?_⟩
  have hstarted : StatusesSucceed [.started (request.operation address) v.groupsOutstanding] :=
    statusesSucceed_of_none (by simp)
  exact hstarted.append (statusesSucceed_completion _ _ _ _ _ _)

theorem Begins.stated {groupId : Nat} {mask : UInt16} (h : Begins v groupId mask v') :
    Stated v v' := by
  cases h with
  | whole command ms _ _ _ =>
    refine .plain (by rw [View.membersLaunched_history, View.groupBegun_history,
      List.append_assoc]) fun o ho => ?_
    rcases List.mem_append.mp ho with ho | ho
    · rw [List.mem_singleton.mp ho]
      simp
    · obtain ⟨_, -, rfl⟩ := List.mem_map.mp ho
      simp
  | @firstFails message first rest _ _ _ =>
    have hbegun : Stated v (({ v with
        starting := rest.map (groupId, ·) ++ v.starting } : View).groupBegun groupId mask) :=
      .plain rfl (by simp)
    exact hbegun.trans (View.stated_flashed ..)

theorem StartMove.stated (h : StartMove v v') : Stated v v' := by
  cases h with
  | waitingGroup _ hbegins => exact hbegins.stated
  | memberFails message _ _ => exact View.stated_flashed ..
  | memberSkipped => exact .refl v

theorem Takes.stated {address : UInt16} {request : Request} (h : Takes v address request v') :
    Stated v v' := by
  cases h with
  | fresh command => exact .plain rfl (by simp)
  | queued => exact .refl v

theorem Move.stated {kind : MoveKind} (h : Move v kind v') : Stated v v' := by
  cases h with
  | start hstart => exact hstart.stated
  | enqueue => exact .plain rfl (by simp)
  | launch ms htakes _ => exact htakes.stated.trans (.plain (View.launched_history ..) (by simp))
  | flash success message htakes _ _ => exact htakes.stated.trans (View.stated_flashed ..)
  | finish => exact View.stated_closed ..
  | acceptGroup _ hbegins =>
    refine Stated.trans ?_ hbegins.stated
    exact .plain rfl (by simp)
  | queueGroup => exact .plain rfl (by simp)
  | image => exact .refl v
  | fuReply => exact .plain rfl (by simp)
  | clear => exact .plain rfl (by simp)
  | disconnect => exact .plain rfl (by simp)

end

/-! What a callback stores. -/

/-- `parsedSuccess`, `parsedMessage` and `parsedData`. -/
abbrev Results := Bool × String × Option ParsedData

def HostCall.store (results : Results) : HostCall → Results
  | .setParseResult success message => (success, message, results.2.2)
  | .setParseData data => (results.1, results.2.1, data)
  | _ => results

/-- Parsed data are stored as a success, a parse error as a failure without data. -/
theorem PPBCommand.foldl_store_onDataReceived {command : PPBCommand} (payload : Bytes)
    (hcommand : command ≠ .prbsS2MCommand) :
    ∃ message, (command.onDataReceived [payload]).foldl HostCall.store (false, "", none) =
      match command.parseResponseData [payload] with
      | .ok (message, parsed) => (true, message, parsed)
      | .error _ => (false, message, none) := by
  have hstored (command : PPBCommand) (failure : String → String) :
      ∃ message, (command.storeParsed [payload] failure).foldl HostCall.store (false, "", none) =
        match command.parseResponseData [payload] with
        | .ok (message, parsed) => (true, message, parsed)
        | .error _ => (false, message, none) := by
    unfold storeParsed
    cases command.parseResponseData [payload] with
    | ok parsed => exact ⟨"", rfl⟩
    | error message => exact ⟨failure message, rfl⟩
  cases command with
  | prbsS2MCommand => exact absurd rfl hcommand
  | statusCommand =>
    obtain ⟨message, hresults⟩ := hstored statusCommand fun _ => "Ошибка парсинга статуса"
    refine ⟨message, ?_⟩
    simp only [onDataReceived]
    split
    · rw [List.foldl_append, hresults]
      rfl
    · rw [hresults]
  | versCommand =>
    obtain ⟨message, hresults⟩ := hstored versCommand id
    refine ⟨message, ?_⟩
    simp only [onDataReceived, List.foldl_append, hresults]
    rfl
  | _ =>
    simp only [onDataReceived]
    exact hstored _ _

namespace Engine

section
variable {s t : Engine} {address : UInt16} {c : PPBContext} {request : Request}

/-- `t` is `s` after a callback that has stored these results and has not completed the operation. -/
def Stores (s t : Engine) (address : UInt16) (c : PPBContext) (results : Results) : Prop :=
  ∃ imageReady, t.view [] = { s.view [] with
    context := Function.update s.findContext address
      (some (c.withResults results.1 results.2.1 results.2.2))
    imageReady }

theorem Stores.hostCall {results : Results} (h : Stores s t address c results) {call : HostCall}
    (hquiet : call.isQuiet = true) :
    Stores s (Engine.hostCall address t call) address c (call.store results) := by
  obtain ⟨imageReady, hview⟩ := h
  cases call with
  | completeCurrentOperation => cases hquiet
  | setParseResult success message =>
    refine ⟨imageReady, ?_⟩
    simp only [Engine.hostCall, setCommandParseResult, view_modifyContext, hview,
      Function.update_self, Function.update_idem, Option.map_some]
    rfl
  | setParseData data =>
    refine ⟨imageReady, ?_⟩
    simp only [Engine.hostCall, setCommandParseData, view_modifyContext, hview,
      Function.update_self, Function.update_idem, Option.map_some]
    rfl
  | clearCurrentVolumeData =>
    refine ⟨false, ?_⟩
    simp only [Engine.hostCall, view_statics, hview]
    rfl
  | _ => exact ⟨imageReady, hview⟩

theorem Stores.runCallback {results : Results} {calls : List HostCall}
    (h : Stores s t address c results) (hquiet : ∀ call ∈ calls, call.isQuiet = true) :
    Stores s (t.runCallback address calls) address c (calls.foldl HostCall.store results) := by
  induction calls generalizing t results with
  | nil => exact h
  | cons call rest ih =>
    have hfirst := h.hostCall (hquiet call (by simp))
    exact ih hfirst fun other hmem => hquiet other (by simp [hmem])

theorem Stores.findContext {results : Results} (h : Stores s t address c results) :
    t.findContext address = some (c.withResults results.1 results.2.1 results.2.2) := by
  obtain ⟨imageReady, hview⟩ := h
  change (t.view []).context address = _
  rw [hview]
  exact Function.update_self ..

/-- The operation is reported with what the callback has stored. -/
theorem Stores.reported {results : Results} (h : Stores s t address c results)
    (hflight : InFlight s address c request) (success : Bool) (message : String) :
    Reported s (t.completeOperation address success message) (request.operation address)
      (c.withResults results.1 results.2.1 results.2.2) success message := by
  have hflight' : InFlight t address (c.withResults results.1 results.2.1 results.2.2) request :=
    ⟨h.findContext, hflight.uncompleted, hflight.command⟩
  obtain ⟨imageReady, hview⟩ := h
  have hstarts := view_completeOperation success message hflight'
  rw [hview] at hstarts
  have hclosed := View.closed_update ({ s.view [] with imageReady } : View) address
    (some (c.withResults results.1 results.2.1 results.2.2))
  exact reported_of_starts (hclosed .. ▸ hstarts)

end

/-! One step. -/

/-- The success is of an operation in flight at the datagram's address, and if its command awaits
data, the datagram is a Data response that the command has parsed. -/
def Answered (s : Engine) (e : Event) (op : Operation) : Prop :=
  ∃ data request, e = .datagram data ∧ op.address = addressFromPacket data ∧
    s.commandInFlight op.address = some request ∧ request.operation op.address = op ∧
    (request.command.awaitsData = true → ∃ event, parseTUResponse data = some event ∧
      event.type = .data ∧ request.command.parses event.payload = true)

/-- The status is what the payload of a Data response of this address was parsed to. -/
def FromPayload (e : Event) (op : Operation) (mask : UInt32) (packets : List Bytes) : Prop :=
  ∃ data event message, e = .datagram data ∧ op.address = addressFromPacket data ∧
    parseTUResponse data = some event ∧ event.type = .data ∧
    PPBCommand.parseStatus event.payload = .ok (message, some (.status mask packets))

/-- Successes of data commands and statuses go back to data. -/
def Justified (s : Engine) (e : Event) (o : Output) : Prop :=
  (∀ op report, o = .commandCompleted op true report → op.command.yieldsData = true →
    s.Answered e op) ∧
  ∀ op mask packets, o = .statusReceived op mask packets → FromPayload e op mask packets

/-- What the step reports is justified, and an acknowledgement without data leaves a command that
awaits data in flight. -/
def DataStep (s : Engine) (e : Event) : Prop :=
  Machine.Extends (s.Justified e) s.history (s.handle e).history ∧
    ∀ data request event, e = .datagram data →
      s.commandInFlight (addressFromPacket data) = some request →
      request.command.awaitsData = true → parseTUResponse data = some event → event.type = .ok →
      (s.handle e).inFlightOperation (addressFromPacket data) =
        some (request.operation (addressFromPacket data))

/-- The waiting groups that leave the queue after a success at `address` and have this address. -/
def takers (s : Engine) (address : UInt16) (imageReady : Bool) : List PendingGroupCommand :=
  let after : Traffic := Traffic.tryStart imageReady s.pendingGroupCommands.length
    { sending := Function.update s.isSending address false
      erasures := s.erasures
      waiting := s.pendingGroupCommands }
  (s.pendingGroupCommands.take (s.pendingGroupCommands.length - after.waiting.length)).filter
    fun g => address ∈ maskAddresses g.mask

/-- The step is no acknowledgement without data that completes a command in want of data: neither of
the command in flight, nor of one that a group puts in the place of a command that has completed
itself; and no reply to a TS sent with data of its own. -/
def OnlyData (s : Engine) : Event → Prop
  | .datagram data =>
    (∀ request event, s.commandInFlight (addressFromPacket data) = some request →
      parseTUResponse data = some event → isStaleAck request.command data event = false →
      (event.type = .ok → request.command.awaitsData = false) ∧
      (event.type = .ok ∨ event.type = .data → ∀ payload,
        request.command ≠ .dataCommand .ts payload)) ∧
    ∀ request, Acknowledges s data request →
      s.refills (addressFromPacket data)
        (s.statics.volumeUseCustomData && request.command ≠ .volumeCommand) = true →
      ∀ g ∈ s.takers (addressFromPacket data)
        (s.statics.volumeUseCustomData && request.command ≠ .volumeCommand),
        g.command.yieldsData = false
  | _ => True

section
variable {s₀ s s' : Engine} {e : Event} {address : UInt16} {c : PPBContext} {request : Request}
  {data : Bytes}

theorem justified_of_isNested {o : Output} (h : o.isNested = true) : s₀.Justified e o := by
  refine ⟨?_, ?_⟩
  · rintro op report rfl -
    simp [Output.isNested] at h
  · rintro op mask packets rfl
    cases h

/-- Apart from its own operation, a completion reports no success and no status. -/
theorem justified_reported {op : Operation} {success : Bool} {message : String}
    (h : Reported s s' op c success message)
    (hsuccess : success = true → op.command.yieldsData = true → s₀.Answered e op)
    (hstatus : success = true → op.command = .ts →
      FromPayload e op (statusOf c.parsedData).1 (statusOf c.parsedData).2) :
    Machine.Extends (s₀.Justified e) s.history s'.history := by
  obtain ⟨nested, heq, hnested⟩ := h.history
  refine ⟨_, heq, fun o ho => ?_⟩
  rcases List.mem_append.mp ho with ho | ho
  · simp only [reportOf, List.mem_cons, List.mem_append, Option.mem_toList,
      Option.map_eq_some_iff] at ho
    rcases ho with rfl | ⟨parsed, -, rfl⟩ | ho
    · refine ⟨?_, by simp⟩
      intro op' report heq' hyields
      obtain ⟨rfl, htrue, -⟩ := Output.commandCompleted.inj heq'
      exact hsuccess htrue hyields
    · exact ⟨by simp, by simp⟩
    · split at ho
      next hts =>
        rw [List.mem_singleton.mp ho]
        refine ⟨by simp, ?_⟩
        intro op' mask packets heq'
        obtain ⟨rfl, rfl, rfl⟩ := Output.statusReceived.inj heq'
        exact hstatus hts.2 hts.1
      next => simp at ho
  · exact justified_of_isNested (hnested o ho)

/-- An operation of another command may end as it likes. -/
theorem justified_completes {success : Bool} (h : Completes s address c request success s')
    (hcommand : success = true → request.command.commandId.yieldsData = false) :
    Machine.Extends (s₀.Justified e) s.history s'.history := by
  obtain ⟨_, _, _, _, hreported⟩ := h.reported
  refine justified_reported hreported (fun htrue hyields => ?_) fun htrue hts => ?_
  · have hno := hcommand htrue
    rw [show request.command.commandId.yieldsData = true from hyields] at hno
    cases hno
  · have hno := hcommand htrue
    rw [show request.command.commandId = .ts from hts] at hno
    cases hno

theorem justified_failure (s : Engine) (address : UInt16) (message : String) :
    Machine.Extends (s₀.Justified e) s.history
      (s.completeOperation address false message).history := by
  cases hcommand : s.commandInFlight address with
  | none =>
    rw [completeOperation_eq_self false message hcommand]
    exact .refl _
  | some request =>
    obtain ⟨c, hflight⟩ := commandInFlight_eq_some_iff.mp hcommand
    exact justified_completes ((Prepared.refl hflight.found).completes false message hflight)
      fun hfalse => Bool.noConfusion hfalse

/-! Data. -/

/-- Data for a command that stores what it parses. -/
theorem justified_data {event : ProtocolEvent} {guard : Engine → Event → Prop}
    (h : Reachable guard s) (hflight : InFlight s (addressFromPacket data) c request)
    (hparse : parseTUResponse data = some event) (htype : event.type = .data)
    (hcommand : request.command ≠ .prbsS2MCommand)
    (hplain : ∀ payload, request.command ≠ .dataCommand .ts payload) :
    Machine.Extends (s.Justified (.datagram data)) s.history
      (s.handleTUEvent (addressFromPacket data) request.command event).history := by
  have hsettled := (sound h).settled (addressFromPacket data) c hflight.found
  have hstores : Stores s s (addressFromPacket data) c (false, "", none) := by
    refine ⟨s.statics.volumeUseCustomData, ?_⟩
    have hsame : c.withResults false "" none = c := by
      rw [← hsettled.success, ← hsettled.message, ← hsettled.data]
      rfl
    simp only [hsame]
    rw [← hflight.found, Function.update_eq_self]
    rfl
  have hquiet := PPBCommand.onDataReceived_quiet hcommand [event.payload]
  have hafter := hstores.runCallback hquiet
  obtain ⟨message, hresults⟩ :=
    PPBCommand.foldl_store_onDataReceived event.payload hcommand
  rw [hresults] at hafter
  have hread := (Prepared.refl hflight.found).runCallback hquiet |>.readCompleted hflight
  unfold handleTUEvent
  rw [htype]
  simp only [hread, Bool.false_eq_true, if_false, hafter.findContext, Option.getD_some]
  have hreported := hafter.reported hflight
  cases hparsed : request.command.parseResponseData [event.payload] with
  | error error =>
    rw [hparsed] at hreported
    exact justified_reported (hreported false _) (fun hfalse => Bool.noConfusion hfalse)
      fun hfalse => Bool.noConfusion hfalse
  | ok parsed =>
    rw [hparsed] at hreported
    refine justified_reported (hreported true _) (fun _ _ => ?_) fun _ hts => ?_
    · refine ⟨data, request, rfl, rfl, commandInFlight_eq_some_iff.mpr ⟨c, hflight⟩, rfl, ?_⟩
      intro _
      refine ⟨event, hparse, htype, ?_⟩
      unfold PPBCommand.parses
      split
      next heq => exact absurd heq hcommand
      next => rw [hparsed]; rfl
    · refine ⟨data, event, parsed.1, rfl, rfl, hparse, htype, ?_⟩
      -- a TS without data of its own is a `StatusCommand`
      have hstatus : request.command = .statusCommand := by
        have hts : request.command.commandId = .ts := hts
        revert hts hplain
        cases request.command with
        | statusCommand => exact fun _ _ => rfl
        | dataCommand cmd payload =>
          intro hplain hts
          exact absurd (congrArg (fun cmd => PPBCommand.dataCommand cmd payload) hts)
            (hplain payload)
        | _ => exact fun _ hts => TechCommand.noConfusion hts
      rw [hstatus] at hparsed
      have hparsed : PPBCommand.parseStatus event.payload = .ok parsed := hparsed
      rw [hparsed]
      have hmask : ∃ mask packets, parsed.2 = some (.status mask packets) := by
        unfold PPBCommand.parseStatus at hparsed
        split at hparsed
        next b0 b1 b2 b3 rest _ =>
          dsimp only at hparsed
          cases hblocks : PPBCommand.statusBlocks (fromBigEndian32 b0 b1 b2 b3) (b0 :: b1 :: b2 :: b3 :: rest)
              (List.range 24) 4 with
          | error error =>
            rw [hblocks] at hparsed
            cases hparsed
          | ok blocks =>
            rw [hblocks] at hparsed
            cases hparsed
            exact ⟨_, _, rfl⟩
        next => cases hparsed
      obtain ⟨mask, packets, hdata⟩ := hmask
      obtain ⟨text, parsedData⟩ := parsed
      obtain rfl : parsedData = some (.status mask packets) := hdata
      rfl

/-- Data for a PRBS_S2M, which completes itself. -/
theorem justified_testSequence {event : ProtocolEvent} {guard : Engine → Event → Prop}
    (h : Reachable guard s) (hflight : InFlight s (addressFromPacket data) c request)
    (hparse : parseTUResponse data = some event) (htype : event.type = .data)
    (hcommand : request.command = .prbsS2MCommand) :
    Machine.Extends (s.Justified (.datagram data)) s.history
      (s.handleTUEvent (addressFromPacket data) request.command event).history := by
  -- the calls before the completion only store results
  have hrun (pre : List HostCall) (success : Bool) (message : String)
      (hquiet : ∀ call ∈ pre, call.isQuiet = true)
      (hcalls : request.command.onDataReceived [event.payload] =
        pre ++ [.completeCurrentOperation success message])
      (hsuccess : success = true → request.command.parses event.payload = true) :
      Machine.Extends (s.Justified (.datagram data)) s.history
        (s.handleTUEvent (addressFromPacket data) request.command event).history := by
    have hdone := ((Prepared.refl hflight.found).runCallback hquiet).completes success message
      hflight
    have hlast : ((s.runCallback (addressFromPacket data) pre).runCallback (addressFromPacket data)
        [.completeCurrentOperation success message]) =
        (s.runCallback (addressFromPacket data) pre).completeOperation (addressFromPacket data)
          success message := rfl
    unfold handleTUEvent
    rw [htype]
    simp only [hcalls, runCallback_append, hlast]
    generalize (s.runCallback (addressFromPacket data) pre).completeOperation _ success message = t
      at hdone ⊢
    have hown : Machine.Extends (s.Justified (.datagram data)) s.history t.history := by
      obtain ⟨_, _, _, _, hreported⟩ := hdone.reported
      refine justified_reported hreported (fun htrue _ => ?_) fun _ hts => ?_
      · refine ⟨data, request, rfl, rfl, commandInFlight_eq_some_iff.mpr ⟨c, hflight⟩, rfl, ?_⟩
        exact fun _ => ⟨event, hparse, htype, hsuccess htrue⟩
      · have hts : request.command.commandId = .ts := hts
        rw [hcommand] at hts
        cases hts
    split
    · exact hown
    next hread =>
      -- an operation started meanwhile has no results yet, so it can only be failed
      have hsound := sound_of_moves (sound h) (hflight.moves hdone)
      obtain ⟨c₁, request₁, hflight₁⟩ := inFlight_of_readCompleted hsound (Bool.not_eq_true _ ▸ hread)
      have hfalse : ((t.findContext (addressFromPacket data)).getD {}).parsedSuccess = false := by
        rw [hflight₁.found]
        exact (hsound.settled _ c₁ hflight₁.found).success
      rw [hfalse]
      exact hown.trans (justified_failure t _ _)
  rw [hcommand] at hrun ⊢
  simp only [PPBCommand.onDataReceived, PPBCommand.receiveTestSequence, PPBCommand.parses] at hrun
  by_cases hlength : (extractDataPackets event.payload).length = testPacketCount
  · refine hrun [_, _, _] true _ ?_ (if_neg (not_not.mpr hlength)) fun _ => decide_eq_true hlength
    simp [HostCall.isQuiet]
  · refine hrun [_, _] false _ ?_ (if_pos hlength) fun hfalse => Bool.noConfusion hfalse
    simp [HostCall.isQuiet]

/-! Acknowledgements. -/

/-- A command that neither awaits data nor is a TS with data of its own. -/
theorem commandId_ne_ts {command : PPBCommand} (hfree : command.awaitsData = false)
    (hplain : ∀ payload, command ≠ .dataCommand .ts payload) : command.commandId ≠ .ts := by
  cases command with
  | statusCommand => cases hfree
  | dataCommand cmd payload =>
    intro hts
    exact hplain payload (congrArg (fun cmd => PPBCommand.dataCommand cmd payload) hts)
  | _ => exact fun hts => TechCommand.noConfusion hts

/-- A group that has taken the place of a completed command is one of the takers. -/
theorem mem_takers {imageReady : Bool} {t : Engine} {message : String} {c₁ : PPBContext}
    {request₁ : Request} (hview : t.view [] = { s.view [] with imageReady })
    (hflight : InFlight t address c request)
    (hafter : InFlight (t.completeOperation address true message) address c₁ request₁) :
    ∃ g ∈ s.takers address imageReady, create g.command = some request₁.command := by
  obtain ⟨popped, hpopped, g, hg, hmem, hcreate⟩ := takeover hflight hafter
  have htraffic : (t.completeOperation address true message).traffic = _ :=
    traffic_completeOperation hview hflight
  have hwaiting : (t.completeOperation address true message).pendingGroupCommands = _ :=
    congrArg Traffic.waiting htraffic
  have hpending : t.pendingGroupCommands = s.pendingGroupCommands := congrArg View.waiting hview
  rw [hpending] at hpopped
  refine ⟨g, List.mem_filter.mpr ⟨?_, by simpa using hmem⟩, hcreate⟩
  rw [← hwaiting, hpopped, List.length_append, Nat.add_sub_cancel, List.take_left]
  exact hg

theorem justified_acknowledged {event : ProtocolEvent} {guard : Engine → Event → Prop}
    (h : Reachable guard s) (hflight : InFlight s (addressFromPacket data) c request)
    (hunclaimed : request.command.commandId = .isYou → parseBridgeResponse data = none)
    (hparse : parseTUResponse data = some event) (htype : event.type = .ok)
    (hstale : isStaleAck request.command data event = false) (hdata : s.OnlyData (.datagram data)) :
    Machine.Extends (s.Justified (.datagram data)) s.history
      (s.handleTUEvent (addressFromPacket data) request.command event).history := by
  have hin := commandInFlight_eq_some_iff.mpr ⟨c, hflight⟩
  obtain ⟨hfree, hplain⟩ := hdata.1 request event hin hparse hstale
  have hts := commandId_ne_ts (hfree htype) (hplain (.inl htype))
  -- its own success needs no data
  have hown {t : Engine} (hdone : Completes s (addressFromPacket data) c request true t) :
      Machine.Extends (s.Justified (.datagram data)) s.history t.history := by
    obtain ⟨_, _, _, _, hreported⟩ := hdone.reported
    refine justified_reported hreported (fun _ _ => ?_) fun _ heq => absurd heq hts
    refine ⟨data, request, rfl, rfl, hin, rfl, fun hawaits => ?_⟩
    rw [hfree htype] at hawaits
    cases hawaits
  unfold handleTUEvent
  rw [htype]
  dsimp only
  cases hcompletes : completesWith request.command.onOkReceived true with
  | false =>
    have hquiet : ∀ call ∈ request.command.onOkReceived, call.isQuiet = true := by
      rcases request.command.onOkReceived_endsQuietly with hquiet | ⟨pre, success, message, -, heq⟩
      · exact hquiet
      · have hsome : completesWith request.command.onOkReceived success = true := by
          simp [heq, completesWith]
        rw [request.command.eq_true_of_onOkReceived_completes hsome, hcompletes] at hsome
        cases hsome
    have hafter := (Prepared.refl hflight.found).runCallback hquiet
    rw [hafter.readCompleted hflight, if_neg Bool.false_ne_true]
    exact hown (hafter.completes true "Команда выполнена" hflight)
  | true =>
    have hack : Acknowledges s data request := ⟨hin, hunclaimed, ⟨event, hparse, htype, hstale⟩,
      hcompletes⟩
    obtain ⟨hdone, -⟩ := completes_runCallback hflight hcompletes
    have hread := readCompleted_acknowledged h hflight hcompletes
    split
    · exact hown hdone
    next hopen =>
      refine (hown hdone).trans ?_
      have hopen := Bool.not_eq_true _ ▸ hopen
      rw [hread, Bool.not_eq_false'] at hopen
      have hsound := sound_of_moves (sound h) (hflight.moves hdone)
      obtain ⟨c₁, request₁, hflight₁⟩ := inFlight_of_readCompleted hsound
        (hread.trans (by rw [hopen]; rfl))
      -- what is completed now belongs to one of the takers
      have hfinish := (Prepared.refl hflight₁.found).completes true "Команда выполнена" hflight₁
      refine justified_completes hfinish fun _ => ?_
      obtain ⟨t, message, hrun, hview⟩ := s.runCallback_onOkReceived (addressFromPacket data)
        hcompletes
      have hfind : t.findContext = s.findContext := congrArg View.context hview
      have hflight' : InFlight t (addressFromPacket data) c request :=
        ⟨hfind ▸ hflight.found, hflight.uncompleted, hflight.command⟩
      obtain ⟨g, hg, hcreate⟩ := mem_takers hview hflight' (hrun ▸ hflight₁)
      rw [commandId_of_create hcreate]
      exact hdata.2 request hack hopen g hg

/-! Bridge replies. -/

theorem justified_isYou (event : ProtocolEvent)
    (hflight : InFlight s address c request) (hcommand : request.command.commandId = .isYou) :
    Machine.Extends (s₀.Justified e) s.history (s.completeIsYou address event).history := by
  have hreply (success : Bool) (message : String) (parsed : Option ParsedData) :=
    @justified_completes s₀ s _ e address c request success
      (completes_bridgeReply success message parsed hflight) fun _ => by rw [hcommand]; rfl
  unfold completeIsYou
  split
  · exact hreply _ _ _
  · split
    · exact hreply _ _ _
    · exact hreply _ _ _

/-- A bridge reply of status 1 carries its address. -/
theorem address_of_bridgeSuccess {event : ProtocolEvent}
    (hparse : parseBridgeResponse data = some event) (hstatus : event.status = 1) :
    event.address = addressFromPacket data := by
  unfold parseBridgeResponse at hparse
  split at hparse
  · cases hparse
    cases hstatus
  · split at hparse
    · cases hparse
      cases hstatus
    · split at hparse
      · cases hparse
      · cases hparse
        rfl
    · cases hparse

theorem justified_unclaimed (hfree : ∀ event, parseBridgeResponse data = some event →
    s.commandInFlight (addressFromPacket data) = none) :
    Machine.Extends (s₀.Justified e) s.history (s.handleUnclaimed data).history := by
  unfold handleUnclaimed
  cases hparse : parseBridgeResponse data with
  | none => exact .refl _
  | some event =>
    dsimp only
    unfold handleBridgeEvent
    cases hcommand : s.commandInFlight event.address with
    | none => exact ⟨[_], history_emit s rfl, by simp [Justified]⟩
    | some request =>
      obtain ⟨c, hflight⟩ := commandInFlight_eq_some_iff.mp hcommand
      -- a success without its own address is one of IS_YOU
      have hisYou (success : Bool)
          (hsuccess : success = true → event.status = 1 ∨ request.command.commandId = .isYou) :
          success = true → request.command.commandId.yieldsData = false := by
        intro htrue
        rcases hsuccess htrue with hstatus | heq
        · rw [address_of_bridgeSuccess hparse hstatus, hfree event hparse] at hcommand
          cases hcommand
        · rw [heq]
          rfl
      dsimp only
      split
      · exact justified_completes (completes_bridgeReply _ _ _ hflight)
          (hisYou _ fun htrue => of_decide_eq_true htrue)
      · split
        · exact justified_completes (completes_bridgeReply _ _ _ hflight)
            fun hfalse => Bool.noConfusion hfalse
        · exact justified_completes (completes_bridgeReply _ _ _ hflight)
            (hisYou _ fun htrue => of_decide_eq_true htrue)

theorem justified_datagram {guard : Engine → Event → Prop} (h : Reachable guard s)
    (hdata : s.OnlyData (.datagram data)) :
    Machine.Extends (s.Justified (.datagram data)) s.history (s.onDataReceived data).history := by
  unfold onDataReceived
  split
  next => exact .refl _
  next =>
    dsimp only
    split
    next request hcommand =>
      obtain ⟨c, hflight⟩ := commandInFlight_eq_some_iff.mp hcommand
      cases hdispatch : s.dispatchToOperation (addressFromPacket data) request.command data with
      | none =>
        -- no parser takes the datagram
        have hunparsed : parseBridgeResponse data = none := by
          simp only [dispatchToOperation] at hdispatch
          split at hdispatch
          · cases hdispatch
          · split at hdispatch
            · split at hdispatch <;> cases hdispatch
            · exact Option.map_eq_none_iff.mp hdispatch
        refine justified_unclaimed fun event hparse => ?_
        rw [hunparsed] at hparse
        cases hparse
      | some s' =>
        rw [Option.getD_some]
        simp only [dispatchToOperation] at hdispatch
        split at hdispatch
        next event hclaimed =>
          cases hdispatch
          refine justified_isYou event hflight ?_
          by_contra hother
          rw [if_neg hother] at hclaimed
          cases hclaimed
        next hunclaimed =>
          split at hdispatch
          next event hparse =>
            split at hdispatch
            next =>
              cases hdispatch
              exact .refl _
            next hstale =>
              cases hdispatch
              have hstale := Bool.not_eq_true _ ▸ hstale
              have hfree := hdata.1 request event hcommand hparse hstale
              cases htype : event.type with
              | error =>
                simp only [handleTUEvent, htype]
                exact justified_failure ..
              | ok =>
                refine justified_acknowledged h hflight (fun hisYou => ?_) hparse htype hstale hdata
                rwa [if_pos hisYou] at hunclaimed
              | data =>
                by_cases hsequence : request.command = .prbsS2MCommand
                · exact justified_testSequence h hflight hparse htype hsequence
                · exact justified_data h hflight hparse htype hsequence (hfree.2 (.inr htype))
              | unknown =>
                simp only [handleTUEvent, htype]
                exact .refl _
              | bridgeResponse =>
                simp only [handleTUEvent, htype]
                exact .refl _
          next =>
            obtain ⟨_, _, rfl⟩ := Option.map_eq_some_iff.mp hdispatch
            exact justified_failure ..
    next hnone => exact justified_unclaimed fun _ _ => hnone

/-- An acknowledgement without data that is not stale is ruled out, and a stale one is dropped. -/
theorem undisturbed_of_onlyData {event : ProtocolEvent} (hdata : s.OnlyData (.datagram data))
    (hcommand : s.commandInFlight (addressFromPacket data) = some request)
    (hawaits : request.command.awaitsData = true) (hparse : parseTUResponse data = some event)
    (htype : event.type = .ok) : s.onDataReceived data = s := by
  cases hstale : isStaleAck request.command data event with
  | false =>
    have hfree := (hdata.1 request event hcommand hparse hstale).1 htype
    rw [hawaits] at hfree
    cases hfree
  | true =>
    have hother : request.command.commandId ≠ .isYou := by
      intro heq
      revert hawaits heq
      cases request.command with
      | dataCommand => exact fun hawaits => Bool.noConfusion hawaits
      | isYouCommand => exact fun hawaits => Bool.noConfusion hawaits
      | _ => exact fun _ heq => TechCommand.noConfusion heq
    unfold onDataReceived
    split
    next => rfl
    next =>
      simp only [hcommand, dispatchToOperation, if_neg hother, hparse, hstale, if_true,
        Option.getD_some]

/-- **One step.** -/
theorem dataStep_of_onlyData {guard : Engine → Event → Prop} (h : Reachable guard s)
    (henabled : s.enabled e) (hdata : s.OnlyData e) : s.DataStep e := by
  refine ⟨?_, ?_⟩
  · by_cases hdatagram : ∃ data, e = .datagram data
    · obtain ⟨data, rfl⟩ := hdatagram
      exact justified_datagram h hdata
    · -- no datagram: only VOLUMEs succeed, and without a TS there is no status
      rw [not_exists] at hdatagram
      have hvolume : Machine.Extends Output.SucceedsVolume s.history (s.handle e).history := by
        have hcausal := (causalStep_iff h (e := e)).mpr (by
          cases e with
          | datagram data => exact absurd rfl (hdatagram data)
          | _ => trivial)
        cases e with
        | datagram data => exact absurd rfl (hdatagram data)
        | _ => exact hcausal
      have hstated : Stated (s.view []) ((s.handle e).view []) :=
        Machine.invariant_of_steps (P := Stated (s.view []))
          (fun _ _ hv hmove => hv.trans hmove.stated) (.refl _) (moves_handle h henabled)
      obtain ⟨new, heq, hnew⟩ := hvolume
      obtain ⟨new', heq', hstatuses⟩ := hstated
      obtain rfl : new' = new := List.append_cancel_left (heq'.symm.trans heq)
      refine ⟨new', heq, fun o ho => ⟨?_, ?_⟩⟩
      · rintro op report rfl hyields
        rw [hnew _ ho op report rfl] at hyields
        cases hyields
      · rintro op mask packets rfl
        obtain ⟨hts, report, hreport⟩ := hstatuses op mask packets ho
        have hvolume := hnew _ hreport op report rfl
        rw [hts] at hvolume
        cases hvolume
  · rintro data request event rfl hcommand hawaits hparse htype
    obtain ⟨c, hflight⟩ := commandInFlight_eq_some_iff.mp hcommand
    simp only [handle, undisturbed_of_onlyData hdata hcommand hawaits hparse htype]
    exact hflight.inFlightOperation

end

/-- **Success means data**, in every run none of whose acknowledgements completes a command in want
of data, or a TS sent with data of its own. -/
theorem along_dataStep {s : Engine} {events : List Event} (hstart : machine.start s)
    (hrun : (s.run events).isSome) (hdata : s.Along OnlyData events) :
    s.Along DataStep events :=
  along_run (fun _ _ h henabled honly => dataStep_of_onlyData h henabled honly) (.start hstart) hrun
    hdata

/-- A TS is answered with an empty mask. -/
theorem along_dataStep_ts : (init none {}).Along DataStep
    [.executeCommand .ts 1, .datagram [0, 1, 0, 0, 0, 0, 0]] := by
  have hparse : parseTUResponse [0, 1, 0, 0, 0, 0, 0] =
      some { type := .data, address := 1, payload := [0, 0, 0, 0] } := by decide
  refine along_dataStep ⟨none, {}, rfl⟩ (by decide) ⟨trivial, ⟨?_, ?_⟩, trivial⟩
  · intro request event hcommand hevent _
    obtain rfl : request = ⟨.single 0, .statusCommand⟩ :=
      Option.some.inj (hcommand.symm.trans (by decide))
    obtain rfl := Option.some.inj (hevent.symm.trans hparse)
    exact ⟨fun hok => EventType.noConfusion hok, fun _ _ heq => PPBCommand.noConfusion heq⟩
  · rintro request hack
    obtain ⟨event, hevent, hok, -⟩ := hack.acknowledged
    obtain rfl := Option.some.inj (hevent.symm.trans hparse)
    cases hok

/-- An acknowledgement without data makes a VERS succeed. -/
theorem not_along_dataStep : ¬ ∀ s events, machine.start s → (s.run events).isSome →
    s.Along DataStep events := by
  intro hall
  obtain ⟨-, ⟨-, hleft⟩, -⟩ := hall (init none {}) [.executeCommand .vers 1, .datagram [0, 1, 0, 2]]
    ⟨none, {}, rfl⟩ (by decide)
  have hstays := hleft [0, 1, 0, 2] ⟨.single 0, .versCommand⟩
    { type := .ok, address := 1, command := 2 } rfl (by decide) rfl (by decide) rfl
  revert hstays
  decide

end Engine

end PPB
