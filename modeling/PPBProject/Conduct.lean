import PPBProject.Emissions
import PPBProject.Refinement

/- What the engine does while all the commands it carries are of a certain kind. A policy says
   which commands these are, what may then be logged, and how the static members may change;
   every function of the engine abides by any policy, as long as the commands it is given do.

   The walk through the engine is made once, here, for all policies. The queues are no part of
   it: only the functions at its end touch them. -/
namespace PPB

/-- Entries that belong to no operation, and datagrams apart. -/
def Output.isHousekeeping : Output → Bool
  | accepted .. | cleared .. | groupAccepted .. | groupStarted .. | groupCommandCompleted ..
  | fuCommandCompleted .. | stateChanged .. | busyChanged _ | errorOccurred _ | disconnected => true
  | _ => false

/-- The operation an entry reports on. -/
def Output.operation? : Output → Option Operation
  | started op _ | commandCompleted op _ _ | commandDataParsed op _ | statusReceived op _ _ =>
    some op
  | _ => none

/-- The datagram of a group. -/
def groupRequest (cmd : TechCommand) (mask : UInt16) (data : Bytes) : Bytes :=
  if data = [] then createTURequest mask cmd else createTURequestWithData mask cmd data

structure Policy where
  admits : PPBCommand → Prop
  logs : Output → Prop
  keeps : Statics → Statics → Prop
  housekeeping : ∀ o, o.isHousekeeping = true → logs o
  operation : ∀ command op o, admits command → op.command = command.commandId →
    o.operation? = some op → logs o
  request : ∀ command st address destination, admits command →
    logs (.datagramSent destination (command.buildRequest st address))
  group : ∀ cmd command mask data destination, create cmd = some command → admits command →
    logs (.datagramSent destination (groupRequest cmd mask data))
  refl : ∀ st, keeps st st
  trans : ∀ st st' st'', keeps st st' → keeps st' st'' → keeps st st''
  version : ∀ st, keeps st st.clearCurrentVersion
  image : ∀ command st, admits command → command.commandId = .volume →
    keeps st st.clearCurrentVolumeData

namespace Engine

/-- Whatever is in flight, or waits to be started as a group, is admitted. -/
structure Admits (s : Engine) (policy : Policy) : Prop where
  flight : ∀ address c request, InFlight s address c request → policy.admits request.command
  waiting : ∀ pending ∈ s.pendingGroupCommands, ∀ command, create pending.command = some command →
    policy.admits command

/-- The policy has been abided by from `s` to `t`, and the queues are as they were. -/
structure Abides (policy : Policy) (s t : Engine) : Prop where
  log : Machine.Extends policy.logs s.log t.log
  statics : policy.keeps s.statics t.statics
  queues : t.queues = s.queues
  udpClient : t.udpClient = s.udpClient
  admits : t.Admits policy

section
variable {policy : Policy} {s t u : Engine} {address : UInt16}

theorem Abides.refl (h : s.Admits policy) : Abides policy s s :=
  ⟨.refl _, policy.refl _, rfl, rfl, h⟩

theorem Abides.trans (h : Abides policy s t) (h' : Abides policy t u) : Abides policy s u :=
  ⟨h.log.trans h'.log, policy.trans _ _ _ h.statics h'.statics, h'.queues.trans h.queues,
    h'.udpClient.trans h.udpClient, h'.admits⟩

theorem Admits.congr (h : s.Admits policy) (hcontexts : t.contexts = s.contexts)
    (hwaiting : t.pendingGroupCommands = s.pendingGroupCommands) : t.Admits policy := by
  refine ⟨?_, hwaiting ▸ h.waiting⟩
  intro address c request hflight
  apply h.flight address c request
  refine ⟨?_, hflight.uncompleted, hflight.command⟩
  rw [findContext, ← hcontexts]
  exact hflight.found

/-! Elementary updates. -/

theorem abides_emit (h : s.Admits policy) {o : Output} (ho : policy.logs o) :
    Abides policy s (s.emit o) :=
  ⟨s.extends_log_emit ho, policy.refl _, rfl, rfl, h.congr rfl rfl⟩

theorem abides_emitAll (h : s.Admits policy) {os : List Output} (hos : ∀ o ∈ os, policy.logs o) :
    Abides policy s (s.emitAll os) :=
  ⟨⟨os, rfl, hos⟩, policy.refl _, rfl, rfl, h.congr rfl rfl⟩

theorem abides_post (h : s.Admits policy) (callback : Posted) : Abides policy s (s.post callback) :=
  ⟨.refl _, policy.refl _, rfl, rfl, h.congr rfl rfl⟩

/-- Any change of the fields the policy does not look at. -/
theorem abides_of_eq (h : s.Admits policy) (hlog : t.log = s.log) (hstatics : t.statics = s.statics)
    (hqueues : t.queues = s.queues) (hudpClient : t.udpClient = s.udpClient)
    (hcontexts : t.contexts = s.contexts)
    (hwaiting : t.pendingGroupCommands = s.pendingGroupCommands) : Abides policy s t :=
  ⟨hlog ▸ .refl _, hstatics ▸ policy.refl _, hqueues, hudpClient, h.congr hcontexts hwaiting⟩

theorem abides_setContext (h : s.Admits policy) {c : PPBContext}
    (hc : ∀ request, c.currentCommand = some request → c.operationCompleted = false →
      policy.admits request.command) : Abides policy s (s.setContext address c) := by
  refine ⟨.refl _, policy.refl _, rfl, rfl, ?_, h.waiting⟩
  intro a c' request ⟨hfind, hopen, hcommand⟩
  rw [findContext_setContext] at hfind
  rcases eq_or_ne a address with rfl | hne
  · rw [Function.update_self] at hfind
    obtain rfl := Option.some.inj hfind
    exact hc request hcommand hopen
  · rw [Function.update_of_ne hne] at hfind
    exact h.flight a c' request ⟨hfind, hopen, hcommand⟩

theorem abides_modifyContext (h : s.Admits policy) {f : PPBContext → PPBContext}
    (hcommand : ∀ c, (f c).currentCommand = c.currentCommand)
    (hcompleted : ∀ c, (f c).operationCompleted = c.operationCompleted) :
    Abides policy s (s.modifyContext address f) := by
  unfold modifyContext
  split
  next c hfind =>
    apply abides_setContext h
    intro request hrequest hopen
    rw [hcommand] at hrequest
    rw [hcompleted] at hopen
    exact h.flight address c request ⟨hfind, hopen, hrequest⟩
  next => exact .refl h

theorem abides_clearContext (h : s.Admits policy) : Abides policy s (s.clearContext address) := by
  have hadmits : (s.clearContext address).Admits policy := by
    constructor
    · intro a c request ⟨hfind, hopen, hcommand⟩
      rw [findContext_clearContext] at hfind
      rcases eq_or_ne a address with rfl | hne
      · rw [Function.update_self] at hfind
        cases hfind
      · rw [Function.update_of_ne hne] at hfind
        exact h.flight a c request ⟨hfind, hopen, hcommand⟩
    · unfold clearContext
      split <;> exact h.waiting
  refine ⟨?_, ?_, ?_, ?_, hadmits⟩
  all_goals unfold clearContext
  · split <;> exact .refl _
  · split <;> exact policy.refl _
  · split <;> rfl
  · split <;> rfl

theorem abides_updateBusyState (h : s.Admits policy) : Abides policy s s.updateBusyState := by
  unfold updateBusyState
  split
  · have hset : Abides policy s { s with busy := s.anyInFlight } :=
      abides_of_eq h rfl rfl rfl rfl rfl rfl
    exact hset.trans (abides_emit hset.admits (policy.housekeeping _ rfl))
  · exact .refl h

theorem abides_transitionState (h : s.Admits policy) (address : UInt16) (newState : PPBState) :
    Abides policy s (s.transitionState address newState) := by
  unfold transitionState
  split
  · exact .refl h
  · dsimp only
    have hleft (t : Engine) (ht : Abides policy s t) :
        Abides policy s (if address = t.currentAddress then
          { t with states := t.states.insert address newState }.emit
            (.stateChanged address newState)
        else { t with states := t.states.insert address newState }) := by
      have hset : Abides policy s { t with states := t.states.insert address newState } :=
        ht.trans (abides_of_eq ht.admits rfl rfl rfl rfl rfl rfl)
      split
      · exact hset.trans (abides_emit hset.admits (policy.housekeeping _ rfl))
      · exact hset
    cases newState with
    | idle => exact hleft _ (abides_clearContext h)
    | ready => exact hleft _ (abides_post h _)
    | sendingCommand => exact hleft _ (.refl h)

theorem abides_handToUdp (h : s.Admits policy) (client : UdpClient) {packet : Bytes}
    (hsent : ∀ destination, policy.logs (.datagramSent destination packet)) :
    Abides policy s (s.handToUdp client packet).1 :=
  ⟨s.extends_log_handToUdp client hsent fun _ => policy.housekeeping _ rfl, policy.refl _, rfl, rfl,
    h.congr rfl rfl⟩

theorem abides_sendPacketInternal (h : s.Admits policy) {packet : Bytes}
    (hsent : ∀ destination, policy.logs (.datagramSent destination packet)) :
    Abides policy s (s.sendPacketInternal packet) := by
  unfold sendPacketInternal
  split
  · exact abides_emit h (policy.housekeeping _ rfl)
  · exact abides_handToUdp h _ hsent

theorem abides_settleMember (h : s.Admits policy) (success : Bool) :
    Abides policy s (s.settleMember address success) := by
  unfold settleMember
  dsimp only
  refine ⟨⟨_, rfl, ?_⟩, policy.refl _, rfl, rfl, h.congr rfl rfl⟩
  intro o ho
  obtain ⟨entry, -, -, -, rfl⟩ := mem_settleGroups_snd _ _ _ ho
  exact policy.housekeeping _ rfl

/-! Completion. -/

theorem operation_of_mem_reportOf {op : Operation} {c : PPBContext} {success : Bool}
    {message : String} {o : Output} (h : o ∈ reportOf op c success message) :
    o.operation? = some op := by
  obtain ⟨data, hreport, hdata⟩ := reportOf_eq_cons op c success message
  rw [hreport] at h
  obtain rfl | h := List.mem_cons.mp h
  · rfl
  · obtain ⟨parsed, rfl⟩ | ⟨mask, packets, rfl⟩ := hdata o h <;> rfl

/-- What `closeOperation` does after the operation is marked completed. -/
theorem abides_afterReport (h : s.Admits policy) (success : Bool) (newState : PPBState) :
    Abides policy s ((((s.modifyContext address PPBContext.clearParseResults).updateBusyState
      ).transitionState address newState).settleMember address success) := by
  have hcleared := @abides_modifyContext policy s address h PPBContext.clearParseResults
    (fun _ => rfl) (fun _ => rfl)
  have hbusy := hcleared.trans (abides_updateBusyState hcleared.admits)
  have hmoved := hbusy.trans (abides_transitionState hbusy.admits address newState)
  exact hmoved.trans (abides_settleMember hmoved.admits success)

theorem abides_closeOperation (h : s.Admits policy) {c : PPBContext} {request : Request}
    (hadmits : policy.admits request.command) (success : Bool) (message : String) :
    Abides policy s (s.closeOperation address c request success message) := by
  unfold closeOperation
  have hdone : Abides policy s
      (s.setContext address { c with operationCompleted := true, operationTimer := none }) := by
    apply abides_setContext h
    intro _ _ hopen
    cases hopen
  have hreported := hdone.trans (@abides_emitAll policy _ hdone.admits
    (reportOf (request.operation address) c success message) fun o ho =>
      policy.operation _ _ o hadmits rfl (operation_of_mem_reportOf ho))
  exact hreported.trans (abides_afterReport hreported.admits success _)

section
variable {tryStart : Engine → Engine}
  (htry : ∀ t : Engine, t.Admits policy → Abides policy t (tryStart t))

include htry

theorem abides_completeOperationWith (h : s.Admits policy) (success : Bool) (message : String) :
    Abides policy s (completeOperationWith tryStart s address success message) := by
  unfold completeOperationWith
  split
  next => exact .refl h
  next c hfind =>
    split
    next => exact .refl h
    next hopen =>
      split
      next => exact .refl h
      next request hcommand =>
        have hadmits := h.flight address c request ⟨hfind, by simpa using hopen, hcommand⟩
        have hclosed := @abides_closeOperation policy s address h c request hadmits success message
        have htried := hclosed.trans (htry _ hclosed.admits)
        dsimp only
        split
        · exact htried.trans (abides_post htried.admits _)
        · exact htried

/-! Execution. -/

omit htry in
theorem abides_openOperation (h : s.Admits policy) {request : Request} (suppressSend : Bool)
    (hadmits : policy.admits request.command) :
    Abides policy s (s.openOperation address request suppressSend) := by
  unfold openOperation
  dsimp only
  have hset : Abides policy s (s.setContext address
      (((s.findContext address).getD {}).reset request suppressSend)) := by
    apply abides_setContext h
    intro other hcommand _
    obtain rfl : request = other := Option.some.inj hcommand
    exact hadmits
  have hstarted := hset.trans (abides_emit hset.admits
    (policy.operation _ (request.operation address) (.started _ s.groupsOutstanding) hadmits rfl rfl))
  have hmoved := hstarted.trans (abides_transitionState hstarted.admits address .sendingCommand)
  exact hmoved.trans (abides_updateBusyState hmoved.admits)

omit htry in
theorem abides_armTimer (h : s.Admits policy) (ms : Nat) :
    Abides policy s (s.armTimer address ms) :=
  abides_modifyContext h (fun _ => rfl) fun _ => rfl

theorem abides_sendVolume (h : s.Admits policy) {packet : Bytes}
    (hsent : ∀ destination, policy.logs (.datagramSent destination packet))
    (himage : ∀ st, policy.keeps st st.clearCurrentVolumeData) :
    Abides policy s (sendVolume tryStart s address packet) := by
  have hcleared (t : Engine) (ht : Abides policy s t) :
      Abides policy s { t with statics := t.statics.clearCurrentVolumeData } :=
    ht.trans ⟨.refl _, himage _, rfl, rfl, ht.admits.congr rfl rfl⟩
  unfold sendVolume
  split
  next =>
    have hready := hcleared s (.refl h)
    exact hready.trans (abides_completeOperationWith htry hready.admits ..)
  next client hclient =>
    dsimp only
    have hready := hcleared _ (abides_handToUdp h client hsent)
    split
    · exact hready.trans (abides_completeOperationWith htry hready.admits ..)
    · exact hready.trans (abides_completeOperationWith htry hready.admits ..)

theorem abides_executeCommandImmediatelyWith (h : s.Admits policy) {request : Request}
    (suppressSend : Bool) (hadmits : policy.admits request.command) :
    Abides policy s (executeCommandImmediatelyWith tryStart s address request suppressSend) := by
  unfold executeCommandImmediatelyWith
  split
  · exact .refl h
  · dsimp only
    have hopened := @abides_openOperation policy s address h request suppressSend hadmits
    have hsent (destination : Destination) := policy.request request.command
      (s.openOperation address request suppressSend).statics address destination hadmits
    split
    · exact hopened.trans (abides_completeOperationWith htry hopened.admits ..)
    · split
      · split
        next hvolume =>
          exact hopened.trans (abides_sendVolume htry hopened.admits hsent fun st =>
            policy.image _ st hadmits hvolume)
        next =>
          have hpacket := hopened.trans (abides_sendPacketInternal hopened.admits hsent)
          exact hpacket.trans (abides_armTimer hpacket.admits _)
      · exact hopened.trans (abides_armTimer hopened.admits _)

theorem abides_startMembersWith {request : Request} (hadmits : policy.admits request.command)
    (addresses : List UInt16) (s : Engine) (h : s.Admits policy) :
    Abides policy s (startMembersWith tryStart request s addresses) := by
  induction addresses generalizing s with
  | nil => exact .refl h
  | cons address rest ih =>
    have hfirst := @abides_executeCommandImmediatelyWith policy s address tryStart htry h request
      true hadmits
    exact hfirst.trans (ih _ hfirst.admits)

theorem abides_startGroupCommandWith (h : s.Admits policy) (groupId : Nat) {cmd : TechCommand}
    (mask : UInt16) (data : Bytes)
    (hadmits : ∀ command, create cmd = some command → policy.admits command) :
    Abides policy s (startGroupCommandWith tryStart s groupId cmd mask data).1 := by
  unfold startGroupCommandWith
  split
  · exact .refl h
  · dsimp only
    split
    · exact .refl h
    next command hcreate =>
      split
      · exact .refl h
      · let groups := insertGroup groupId { pendingAddresses := maskAddresses mask }
          s.groupOperations
        have hgroup : Abides policy s { s with groupOperations := groups } :=
          abides_of_eq h rfl rfl rfl rfl rfl rfl
        have hbegun := hgroup.trans (abides_emit hgroup.admits
          (policy.housekeeping (.groupStarted groupId mask) rfl))
        have hstarted := hbegun.trans (@abides_startMembersWith policy tryStart htry
          { origin := .group groupId, command } (hadmits command hcreate) (maskAddresses mask) _
          hbegun.admits)
        exact hstarted.trans (abides_sendPacketInternal hstarted.admits fun destination =>
          policy.group cmd command mask data destination hcreate (hadmits command hcreate))

theorem abides_tryStartPendingGroupCommandsWith (h : s.Admits policy) :
    Abides policy s (tryStartPendingGroupCommandsWith tryStart s) := by
  unfold tryStartPendingGroupCommandsWith
  split
  · exact .refl h
  next front rest hwaiting =>
    split
    · exact .refl h
    · have hpopped : Abides policy s { s with pendingGroupCommands := rest } := by
        refine ⟨.refl _, policy.refl _, rfl, rfl, ?_, ?_⟩
        · intro address c request ⟨hfind, hopen, hcommand⟩
          exact h.flight address c request ⟨hfind, hopen, hcommand⟩
        · intro pending hmem
          exact h.waiting pending (hwaiting ▸ List.mem_cons_of_mem _ hmem)
      have hstarted := hpopped.trans (abides_startGroupCommandWith htry hpopped.admits front.groupId
        front.mask front.data (h.waiting front (by simp [hwaiting])))
      dsimp only
      split
      · exact hstarted
      · exact hstarted.trans (abides_emit hstarted.admits (policy.housekeeping _ rfl))

end

/-- Nested starts, however deep. -/
theorem abides_tryStartNested (n : Nat) (s : Engine) (h : s.Admits policy) :
    Abides policy s (tryStartNested n s) := by
  induction n generalizing s with
  | zero => exact .refl h
  | succ n ih => exact abides_tryStartPendingGroupCommandsWith ih h

theorem abides_tryStartPendingGroupCommands (s : Engine) (h : s.Admits policy) :
    Abides policy s s.tryStartPendingGroupCommands :=
  abides_tryStartNested _ s h

theorem abides_completeOperation (h : s.Admits policy) (success : Bool) (message : String) :
    Abides policy s (s.completeOperation address success message) :=
  abides_completeOperationWith abides_tryStartPendingGroupCommands h success message

theorem abides_executeCommandImmediately (h : s.Admits policy) {request : Request}
    (suppressSend : Bool) (hadmits : policy.admits request.command) :
    Abides policy s (s.executeCommandImmediately address request suppressSend) :=
  abides_executeCommandImmediatelyWith abides_tryStartPendingGroupCommands h suppressSend hadmits

/-! Callbacks. -/

theorem abides_setCommandParseResult (h : s.Admits policy) (success : Bool) (message : String) :
    Abides policy s (s.setCommandParseResult address success message) :=
  abides_modifyContext h (fun _ => rfl) fun _ => rfl

theorem abides_setCommandParseData (h : s.Admits policy) (data : Option ParsedData) :
    Abides policy s (s.setCommandParseData address data) :=
  abides_modifyContext h (fun _ => rfl) fun _ => rfl

theorem abides_hostCall (h : s.Admits policy) {call : HostCall}
    (himage : call = .clearCurrentVolumeData → ∀ st, policy.keeps st st.clearCurrentVolumeData) :
    Abides policy s (hostCall address s call) := by
  cases call with
  | setParseResult success message => exact abides_setCommandParseResult h success message
  | setParseData data => exact abides_setCommandParseData h data
  | completeCurrentOperation success message => exact abides_completeOperation h success message
  | clearCurrentVolumeData =>
    exact ⟨.refl _, himage rfl _, rfl, rfl, h.congr rfl rfl⟩
  | clearCurrentVersion => exact ⟨.refl _, policy.version _, rfl, rfl, h.congr rfl rfl⟩
  | _ => exact .refl h

theorem abides_runCallback {calls : List HostCall} (h : s.Admits policy)
    (himage : .clearCurrentVolumeData ∈ calls →
      ∀ st, policy.keeps st st.clearCurrentVolumeData) :
    Abides policy s (s.runCallback address calls) := by
  induction calls generalizing s with
  | nil => exact .refl h
  | cons call rest ih =>
    have hcall := @abides_hostCall policy s address h call fun heq =>
      himage (heq ▸ List.mem_cons_self)
    exact hcall.trans (ih hcall.admits fun hmem => himage (List.mem_cons_of_mem _ hmem))

/-- Only a VOLUME takes back the image data when it is acknowledged. -/
theorem commandId_of_clears_image {command : PPBCommand}
    (h : .clearCurrentVolumeData ∈ command.onOkReceived) : command.commandId = .volume := by
  cases command with
  | volumeCommand => rfl
  | _ => simp [PPBCommand.onOkReceived, PPBCommand.expectedResponsePackets, testPacketCount] at h

/-- Data takes nothing back. -/
theorem not_clears_image (command : PPBCommand) (data : List Bytes) :
    .clearCurrentVolumeData ∉ command.onDataReceived data := by
  have hstored (other : PPBCommand) (failure : String → String) :
      .clearCurrentVolumeData ∉ other.storeParsed data failure := by
    unfold PPBCommand.storeParsed
    split <;> simp
  cases command with
  | prbsS2MCommand =>
    cases data with
    | nil => simp [PPBCommand.onDataReceived, PPBCommand.receiveTestSequence]
    | cons packet rest =>
      simp only [PPBCommand.onDataReceived, PPBCommand.receiveTestSequence]
      split <;> simp
  | statusCommand =>
    simp only [PPBCommand.onDataReceived]
    split
    · simpa using hstored _ _
    · exact hstored _ _
  | versCommand => simpa [PPBCommand.onDataReceived] using hstored _ _
  | _ =>
    simp only [PPBCommand.onDataReceived]
    exact hstored _ _

/-! Datagrams and timers. -/

theorem abides_completeWithBridgeReply (h : s.Admits policy) (success : Bool) (message : String)
    (data : Option ParsedData) :
    Abides policy s (s.completeWithBridgeReply address success message data) := by
  have hresult := @abides_setCommandParseResult policy s address h success message
  have hdata := hresult.trans (@abides_setCommandParseData policy _ address hresult.admits data)
  exact hdata.trans (abides_completeOperation hdata.admits success message)

theorem abides_completeIsYou (h : s.Admits policy) (event : ProtocolEvent) :
    Abides policy s (s.completeIsYou address event) := by
  unfold completeIsYou
  split
  · exact abides_completeWithBridgeReply h ..
  · split <;> exact abides_completeWithBridgeReply h ..

theorem abides_handleTUEvent (h : s.Admits policy) {command : PPBCommand}
    (hadmits : policy.admits command) (event : ProtocolEvent) :
    Abides policy s (s.handleTUEvent address command event) := by
  unfold handleTUEvent
  split
  · exact abides_completeOperation h ..
  · dsimp only
    have hcalled := @abides_runCallback policy s address command.onOkReceived h fun hclears st =>
      policy.image command st hadmits (commandId_of_clears_image hclears)
    split
    · exact hcalled
    · exact hcalled.trans (abides_completeOperation hcalled.admits ..)
  · dsimp only
    have hcalled := @abides_runCallback policy s address (command.onDataReceived [event.payload]) h
      fun hclears => absurd hclears (not_clears_image command _)
    split
    · exact hcalled
    · exact hcalled.trans (abides_completeOperation hcalled.admits ..)
  · exact .refl h
  · exact .refl h

theorem abides_dispatchToOperation (h : s.Admits policy) {command : PPBCommand}
    (hadmits : policy.admits command) {data : Bytes} (hdispatch :
      s.dispatchToOperation address command data = some t) : Abides policy s t := by
  unfold dispatchToOperation at hdispatch
  dsimp only at hdispatch
  split at hdispatch
  next => exact Option.some.inj hdispatch ▸ abides_completeIsYou h _
  next =>
    split at hdispatch
    next =>
      split at hdispatch
      · exact Option.some.inj hdispatch ▸ .refl h
      · exact Option.some.inj hdispatch ▸ abides_handleTUEvent h hadmits _
    next =>
      obtain ⟨_, -, rfl⟩ := Option.map_eq_some_iff.mp hdispatch
      exact abides_completeOperation h ..

theorem abides_handleUnclaimed (h : s.Admits policy) (data : Bytes) :
    Abides policy s (s.handleUnclaimed data) := by
  unfold handleUnclaimed
  split
  next event _ =>
    unfold handleBridgeEvent
    split
    · dsimp only
      split
      · exact abides_completeWithBridgeReply h ..
      · split <;> exact abides_completeWithBridgeReply h ..
    · exact abides_emit h (policy.housekeeping _ rfl)
  next => exact .refl h

theorem abides_onDataReceived (h : s.Admits policy) (data : Bytes) :
    Abides policy s (s.onDataReceived data) := by
  unfold onDataReceived
  split
  · exact .refl h
  · dsimp only
    split
    next request hflight =>
      obtain ⟨c, hflight⟩ := commandInFlight_eq_some_iff.mp hflight
      have hadmits := h.flight _ c request hflight
      cases hdispatch : s.dispatchToOperation (addressFromPacket data) request.command data with
      | none => exact abides_handleUnclaimed h data
      | some t => exact abides_dispatchToOperation h hadmits hdispatch
    next => exact abides_handleUnclaimed h data

theorem abides_onOperationTimeout (h : s.Admits policy) (address : UInt16) :
    Abides policy s (s.onOperationTimeout address) := by
  unfold onOperationTimeout
  dsimp only
  have hstopped := @abides_modifyContext policy s address h
    (fun c => { c with operationTimer := none }) (fun _ => rfl) fun _ => rfl
  split
  · split
    · exact hstopped.trans (abides_completeOperation hstopped.admits ..)
    · exact hstopped
  · exact hstopped

end

/-! The queues. -/

/-- A predicate that survives whatever the engine does, as long as it is only asked what the
policy allows: its own work, and the three things it does to a queue. -/
structure Lasting (policy : Policy) (I : Engine → Prop) : Prop where
  admits : ∀ s, I s → s.Admits policy
  work : ∀ s t, I s → Abides policy s t → I t
  enqueue : ∀ s address request, I s → policy.admits request.command →
    I (s.enqueue address request)
  dequeue : ∀ s address, I s → s.isSending address = false → I (s.dequeueAndExecute address)
  forget : ∀ s queues, I s → (∀ address, AList.lookup address queues = s.queues.lookup address ∨
    AList.lookup address queues = none) → I { s with queues }

end Engine

/-- What may be asked of the engine. -/
def Policy.allows (policy : Policy) : Event → Prop
  | .connectToPPB .. => policy.admits .statusCommand
  | .executeCommand cmd _ => ∀ command, create cmd = some command → policy.admits command
  | .executeCommandWithData cmd _ data => policy.admits (.dataCommand cmd data)
  | .executeGroupCommand cmd _ _ => ∀ command, create cmd = some command → policy.admits command
  | .sendFU mode address period fuData => ∀ destination,
    policy.logs (.datagramSent destination (createFURequest address mode.code period fuData))
  | .sendDataPackets packets => policy.logs (.sentPacketsSaved packets) ∧
    ∀ destination, ∀ packet ∈ packets, policy.logs (.datagramSent destination [packet.1, packet.2])
  | .setCurrentVolumeData payload marker totalSize data => ∀ st,
    policy.keeps st (st.setCurrentVolumeData payload marker totalSize data)
  | .setCurrentVersion version => ∀ st, policy.keeps st (st.setCurrentVersion version)
  | .disconnect | .setBridgeAddress .. | .clearCommandQueue _ | .datagram _ | .timeout _
  | .networkError _ | .queueTick _ | .posted .. => True

namespace Engine

section
variable {policy : Policy} {I : Engine → Prop} (h : Lasting policy I) {s : Engine}

include h

theorem Lasting.emit (hs : I s) {o : Output} (ho : policy.logs o) : I (s.emit o) :=
  h.work s _ hs (abides_emit (h.admits s hs) ho)

/-- A change of fields that the policy does not look at. -/
theorem Lasting.of_eq {t : Engine} (hs : I s) (hlog : t.log = s.log)
    (hstatics : t.statics = s.statics) (hqueues : t.queues = s.queues)
    (hudpClient : t.udpClient = s.udpClient) (hcontexts : t.contexts = s.contexts)
    (hwaiting : t.pendingGroupCommands = s.pendingGroupCommands) : I t :=
  h.work s t hs (abides_of_eq (h.admits s hs) hlog hstatics hqueues hudpClient hcontexts hwaiting)

theorem Lasting.submit (hs : I s) (address : UInt16) {command : PPBCommand}
    (hadmits : policy.admits command) : I (s.submit address command) := by
  have hticket : I { s with nextTicket := s.nextTicket + 1 } := h.of_eq hs rfl rfl rfl rfl rfl rfl
  have hqueued : I (s.acceptQueued address command) :=
    h.enqueue _ _ _ (h.emit hticket (policy.housekeeping _ rfl)) hadmits
  unfold Engine.submit
  split
  · exact hqueued
  · split
    · exact hqueued
    · have haccepted := h.emit hticket
        (policy.housekeeping (.accepted address (.single s.nextTicket) false) rfl)
      exact h.work _ _ haccepted
        (abides_executeCommandImmediately (h.admits _ haccepted) false hadmits)

theorem Lasting.connectToPPB (hs : I s) (address : UInt16) (ip : String) (port : UInt16)
    (hadmits : policy.admits .statusCommand) : I (s.connectToPPB address ip port).1 := by
  unfold Engine.connectToPPB
  dsimp only [create]
  have hmoved : I { s with
      currentAddress := address, currentIP := ip, currentPort := port
      nextTicket := s.nextTicket + 1 } := h.of_eq hs rfl rfl rfl rfl rfl rfl
  exact h.enqueue _ _ _ (h.emit hmoved (policy.housekeeping _ rfl)) hadmits

theorem Lasting.executeGroupCommand (hs : I s) {cmd : TechCommand} (mask : UInt16) (data : Bytes)
    (hadmits : ∀ command, create cmd = some command → policy.admits command) :
    I (s.executeGroupCommand cmd mask data).1 := by
  unfold Engine.executeGroupCommand
  split
  · exact h.emit hs (policy.housekeeping _ rfl)
  · split
    · have hnext : I { s with nextGroupId := s.nextGroupId + 1 } :=
        h.of_eq hs rfl rfl rfl rfl rfl rfl
      dsimp only
      split
      · have haccepted := h.emit hnext
          (policy.housekeeping (.groupAccepted s.nextGroupId mask true) rfl)
        have hold := h.admits _ haccepted
        apply h.work _ _ haccepted
        refine ⟨.refl _, policy.refl _, rfl, rfl, ?_, ?_⟩
        · intro a c request hflight
          exact hold.flight a c request ⟨hflight.found, hflight.uncompleted, hflight.command⟩
        · intro pending hmem command hcreate
          obtain hmem | hmem := List.mem_append.mp hmem
          · exact hold.waiting pending hmem command hcreate
          · rw [List.mem_singleton.mp hmem] at hcreate
            exact hadmits command hcreate
      · have haccepted := h.emit hnext
          (policy.housekeeping (.groupAccepted s.nextGroupId mask false) rfl)
        have hstarted := h.work _ _ haccepted (abides_startGroupCommandWith
          abides_tryStartPendingGroupCommands (h.admits _ haccepted) s.nextGroupId mask data hadmits)
        split
        · exact hstarted
        · exact h.emit hstarted (policy.housekeeping _ rfl)
    · exact h.emit hs (policy.housekeeping _ rfl)

theorem Lasting.sendPacketInternal (hs : I s) {packet : Bytes}
    (hsent : ∀ destination, policy.logs (.datagramSent destination packet)) :
    I (s.sendPacketInternal packet) :=
  h.work s _ hs (abides_sendPacketInternal (h.admits s hs) hsent)

theorem Lasting.sendDataPackets (hs : I s) {packets : List DataPacket}
    (hsaved : policy.logs (.sentPacketsSaved packets)) (hsent : ∀ destination, ∀ packet ∈ packets,
      policy.logs (.datagramSent destination [packet.1, packet.2])) :
    I (s.sendDataPackets packets) := by
  unfold Engine.sendDataPackets
  refine h.emit ?_ hsaved
  clear hsaved
  induction packets generalizing s with
  | nil => exact hs
  | cons packet rest ih =>
    have hfirst := h.sendPacketInternal hs fun destination => hsent destination packet (by simp)
    exact ih hfirst fun destination other hmem => hsent destination other (by simp [hmem])

theorem Lasting.processQueued (hs : I s) (address : UInt16) : I (s.processQueued address) := by
  unfold Engine.processQueued
  split
  · exact hs
  · split
    next hfree => exact h.dequeue s address hs (by simpa using hfree)
    next => exact hs

theorem Lasting.processCommandQueue (hs : I s) (addresses : List UInt16) :
    I (s.processCommandQueue addresses) := by
  unfold Engine.processCommandQueue
  induction addresses generalizing s with
  | nil => exact hs
  | cons address rest ih => exact ih (h.processQueued hs address)

theorem Lasting.runPosted (hs : I s) (index : Nat) (order : List UInt16) :
    I (s.runPosted index order) := by
  have hgone : I { s with posted := s.posted.eraseIdx index } :=
    h.of_eq hs rfl rfl rfl rfl rfl rfl
  unfold Engine.runPosted
  dsimp only
  split
  next address _ =>
    unfold processNextCommandForAddress
    split
    · exact hgone
    next hready =>
      apply h.dequeue _ _ hgone
      rw [ne_eq, not_not] at hready
      simp [isSending, hready]
  next => exact h.processCommandQueue hgone order
  next => exact hgone

theorem Lasting.disconnect (hs : I s) : I s.disconnect := by
  have hold := h.admits s hs
  have hdropped : I { s with pendingGroupCommands := [], groupOperations := [], states := ∅ } := by
    apply h.work s _ hs
    refine ⟨.refl _, policy.refl _, rfl, rfl, ?_, by simp⟩
    intro address c request hflight
    exact hold.flight address c request ⟨hflight.found, hflight.uncompleted, hflight.command⟩
  have hforgotten := h.forget _ ∅ hdropped fun address => .inr (AList.lookup_empty address)
  exact h.emit hforgotten (policy.housekeeping .disconnected rfl)

theorem Lasting.clearCommandQueue (hs : I s) (address : UInt16) :
    I (s.clearCommandQueue address) := by
  have hforgotten := h.forget s (s.queues.erase address) hs fun a => by
    obtain rfl | hne := eq_or_ne a address
    · exact .inr (AList.lookup_erase a s.queues)
    · exact .inl (AList.lookup_erase_ne hne)
  exact h.emit hforgotten (policy.housekeeping _ rfl)

/-- **The invariant rule**: what the elementary steps keep, every event keeps that the policy
allows. -/
theorem Lasting.handle (hs : I s) {e : Event} (hallows : policy.allows e) : I (s.handle e) := by
  have hadmits := h.admits s hs
  cases e with
  | connectToPPB address ip port => exact h.connectToPPB hs address ip port hallows
  | disconnect => exact h.disconnect hs
  | executeCommand cmd address =>
    show I (s.executeCommand cmd address)
    unfold Engine.executeCommand
    split
    · exact h.emit hs (policy.housekeeping _ rfl)
    next command hcreate => exact h.submit hs address (hallows command hcreate)
  | executeCommandWithData cmd address data => exact h.submit hs address hallows
  | executeGroupCommand cmd mask data => exact h.executeGroupCommand hs mask data hallows
  | sendFU mode address period fuData =>
    have hsent := h.sendPacketInternal hs hallows
    cases mode <;> exact hsent
  | sendDataPackets packets => exact h.sendDataPackets hs hallows.1 hallows.2
  | setBridgeAddress ip port => exact h.of_eq hs rfl rfl rfl rfl rfl rfl
  | clearCommandQueue address => exact h.clearCommandQueue hs address
  | setCurrentVolumeData payload marker totalSize data =>
    exact h.work s _ hs ⟨.refl _, hallows _, rfl, rfl, hadmits.congr rfl rfl⟩
  | setCurrentVersion version =>
    exact h.work s _ hs ⟨.refl _, hallows _, rfl, rfl, hadmits.congr rfl rfl⟩
  | datagram data => exact h.work s _ hs (abides_onDataReceived hadmits data)
  | timeout address => exact h.work s _ hs (abides_onOperationTimeout hadmits address)
  | networkError error => exact h.emit hs (policy.housekeeping _ rfl)
  | queueTick order => exact h.processCommandQueue hs order
  | posted index order => exact h.runPosted hs index order

end

/-! Where all that is held is admitted. -/

theorem dequeueAndExecute_nil {s : Engine} {address : UInt16} (h : s.queueOf address = []) :
    s.dequeueAndExecute address = s := by
  simp [dequeueAndExecute, dequeue_nil s h]

/-- The front leaves the queue and is executed. -/
theorem dequeueAndExecute_cons {s : Engine} {address : UInt16} {request : Request}
    {rest : List Request} (h : s.queueOf address = request :: rest) :
    ∃ queues, ({ s with queues } : Engine).queueOf = Function.update s.queueOf address rest ∧
      s.dequeueAndExecute address =
        ({ s with queues } : Engine).executeCommandImmediately address request false := by
  cases rest with
  | nil => exact ⟨_, s.queueOf_erase address, by simp [dequeueAndExecute, dequeue, h]⟩
  | cons next rest =>
    exact ⟨_, s.queueOf_insert address (next :: rest), by simp [dequeueAndExecute, dequeue, h]⟩

theorem Abides.queueOf {policy : Policy} {s t : Engine} (h : Abides policy s t) :
    t.queueOf = s.queueOf := by
  funext address
  rw [Engine.queueOf, Engine.queueOf, h.queues]

/-- Every request that waits at an address meets `p`. -/
def Queued (p : UInt16 → Request → Prop) (s : Engine) : Prop :=
  ∀ address, ∀ request ∈ s.queueOf address, p address request

section
variable {p : UInt16 → Request → Prop} {s t : Engine} {address : UInt16} {request : Request}

theorem Queued.congr (h : Queued p s) (hqueues : t.queueOf = s.queueOf) : Queued p t := by
  intro a other hmem
  rw [hqueues] at hmem
  exact h a other hmem

theorem Queued.enqueue (h : Queued p s) (hp : p address request) :
    Queued p (s.enqueue address request) := by
  intro a other hmem
  rw [Engine.enqueue, queueOf_insert] at hmem
  obtain rfl | hne := eq_or_ne a address
  · rw [Function.update_self, List.mem_append, List.mem_singleton] at hmem
    obtain hmem | rfl := hmem
    · exact h a other hmem
    · exact hp
  · rw [Function.update_of_ne hne] at hmem
    exact h a other hmem

/-- The front leaves. -/
theorem Queued.pop (h : Queued p s) {rest : List Request}
    (hqueue : s.queueOf address = request :: rest)
    (ht : t.queueOf = Function.update s.queueOf address rest) : p address request ∧ Queued p t := by
  have hall := h address
  rw [hqueue] at hall
  refine ⟨hall request List.mem_cons_self, ?_⟩
  intro a other hmem
  rw [ht] at hmem
  obtain rfl | hne := eq_or_ne a address
  · rw [Function.update_self] at hmem
    exact hall other (List.mem_cons_of_mem _ hmem)
  · rw [Function.update_of_ne hne] at hmem
    exact h a other hmem

/-- Queues are forgotten. -/
theorem Queued.forget (h : Queued p s) {queues : Table (List Request)}
    (hqueues : ∀ address, AList.lookup address queues = s.queues.lookup address ∨
      AList.lookup address queues = none) : Queued p { s with queues } := by
  intro a other hmem
  unfold queueOf at hmem
  obtain heq | hnone := hqueues a
  · rw [heq] at hmem
    exact h a other hmem
  · rw [hnone] at hmem
    cases hmem

end

/-- Nothing the engine holds is beyond the policy. -/
structure Free (policy : Policy) (s : Engine) : Prop where
  admits : s.Admits policy
  queued : s.Queued fun _ request => policy.admits request.command

/-- The policy has been abided by from `s` on, and still will be. -/
structure Conducted (policy : Policy) (s t : Engine) : Prop where
  log : Machine.Extends policy.logs s.log t.log
  statics : policy.keeps s.statics t.statics
  udpClient : t.udpClient = s.udpClient
  free : t.Free policy

section
variable {policy : Policy} {s t u : Engine}

theorem Conducted.refl (h : s.Free policy) : Conducted policy s s :=
  ⟨.refl _, policy.refl _, rfl, h⟩

theorem Conducted.trans (h : Conducted policy s t) (h' : Conducted policy t u) :
    Conducted policy s u :=
  ⟨h.log.trans h'.log, policy.trans _ _ _ h.statics h'.statics, h'.udpClient.trans h.udpClient,
    h'.free⟩

/-- The queues may change, if everything in them stays admitted. -/
theorem Conducted.requeue (h : Conducted policy s t) {queues : Table (List Request)}
    (hqueued : ({ t with queues } : Engine).Queued fun _ request => policy.admits request.command) :
    Conducted policy s { t with queues } :=
  ⟨h.log, h.statics, h.udpClient, h.free.admits.congr rfl rfl, hqueued⟩

theorem Conducted.work (h : Conducted policy s t) (hwork : Abides policy t u) :
    Conducted policy s u :=
  h.trans ⟨hwork.log, hwork.statics, hwork.udpClient, hwork.admits,
    h.free.queued.congr hwork.queueOf⟩

theorem lasting_conducted (policy : Policy) (s : Engine) : Lasting policy (Conducted policy s) where
  admits t ht := ht.free.admits
  work t u ht hwork := ht.work hwork
  enqueue t address request ht hadmits := ht.requeue (ht.free.queued.enqueue hadmits)
  dequeue t address ht _ := by
    cases hqueue : t.queueOf address with
    | nil => exact (dequeueAndExecute_nil hqueue).symm ▸ ht
    | cons request rest =>
      obtain ⟨queues, hqueues, hstep⟩ := dequeueAndExecute_cons hqueue
      obtain ⟨hadmits, hrest⟩ := ht.free.queued.pop hqueue hqueues
      have hpopped : Conducted policy s { t with queues } := ht.requeue hrest
      rw [hstep]
      exact hpopped.work (abides_executeCommandImmediately hpopped.free.admits false hadmits)
  forget t queues ht hqueues := ht.requeue (ht.free.queued.forget hqueues)

/-- **An engine that holds and is asked only what the policy admits abides by it.** -/
theorem conducted_handle (h : s.Free policy) {e : Event} (hallows : policy.allows e) :
    Conducted policy s (s.handle e) :=
  (lasting_conducted policy s).handle (.refl h) hallows

end

end Engine

/-- Anything may be asked, and anything logged. -/
def anything : Policy where
  admits _ := True
  logs _ := True
  keeps _ _ := True
  housekeeping _ _ := trivial
  operation _ _ _ _ _ _ := trivial
  request _ _ _ _ _ := trivial
  group _ _ _ _ _ _ _ := trivial
  refl _ := trivial
  trans _ _ _ _ _ := trivial
  version _ := trivial
  image _ _ _ _ := trivial

/-- The log only grows. -/
theorem Engine.log_handle (s : Engine) (e : Event) : ∃ new, (s.handle e).log = s.log ++ new := by
  have hfree : s.Free anything := ⟨⟨fun _ _ _ _ => trivial, fun _ _ _ _ => trivial⟩,
    fun _ _ _ => trivial⟩
  have hallows : anything.allows e := by
    cases e <;> simp [Policy.allows, anything]
  obtain ⟨new, hlog, -⟩ := (conducted_handle hfree hallows).log
  exact ⟨new, hlog⟩

end PPB
