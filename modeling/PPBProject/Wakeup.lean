import PPBProject.Cascade
import PPBProject.Sound

/- No waiting group is stranded. Groups are retried from `completeOperation` only, one at
   each completion and from the front only, so a group may wait only while some completion
   is still to come (`Traffic.Awake`).

   A completion may free the last address that was sending; the retry it makes then ends
   in one of three ways. The front group cannot start, because one of its addresses is
   sending; it starts whole, and its addresses are sending; or it is a VOLUME without image
   data, whose last member is either skipped, because its address is sending, or fails, and
   that failure has made a retry of its own. -/
namespace PPB

/-- If a group waits, some address is sending. -/
def Traffic.Awake (t : Traffic) : Prop := t.waiting = [] ∨ ∃ address, t.sending address = true

namespace Traffic

theorem awake_of_not_canStart {t : Traffic} {mask : UInt16} (h : t.canStart mask = false) :
    t.Awake := by
  obtain ⟨address, -, hsending⟩ := List.all_eq_false.mp h
  exact .inr ⟨address, by simpa using hsending⟩

theorem awake_launch (t : Traffic) {mask : UInt16} (hmask : mask ≠ 0) : (t.launch mask).Awake := by
  obtain ⟨address, hmem⟩ := List.exists_mem_of_ne_nil _ (maskAddresses_ne_nil hmask)
  exact .inr ⟨address, by simp [launch, hmem]⟩

/-- The turn of the last member decides: it is skipped or makes a retry. -/
theorem awake_failMembers {tryStart : Traffic → Traffic} {k : Nat}
    (hshrink : ∀ t : Traffic, (tryStart t).waiting.length ≤ t.waiting.length)
    (hawake : ∀ t : Traffic, t.waiting.length ≤ k → (tryStart t).Awake) (members : List UInt16)
    (t : Traffic) (hmembers : members ≠ []) (hk : t.waiting.length ≤ k) :
    (t.failMembers tryStart members).Awake := by
  induction members generalizing t with
  | nil => exact absurd rfl hmembers
  | cons address rest ih =>
    have hfail : (t.fail address).waiting.length ≤ k := hk
    -- what the turn of this member leaves
    have hturn : (if t.sending address then t else tryStart (t.fail address)).Awake ∧
        (if t.sending address then t else tryStart (t.fail address)).waiting.length ≤ k := by
      split
      next hsending => exact ⟨.inr ⟨address, hsending⟩, hk⟩
      next => exact ⟨hawake _ hfail, (hshrink _).trans hfail⟩
    rw [failMembers]
    cases rest with
    | nil => exact hturn.1
    | cons next rest => exact ih _ (List.cons_ne_nil next rest) hturn.2

theorem waiting_failMembers {tryStart : Traffic → Traffic}
    (hshrink : ∀ t : Traffic, (tryStart t).waiting.length ≤ t.waiting.length)
    (members : List UInt16) (t : Traffic) :
    (t.failMembers tryStart members).waiting.length ≤ t.waiting.length := by
  induction members generalizing t with
  | nil => exact le_rfl
  | cons address rest ih =>
    rw [failMembers]
    refine (ih _).trans ?_
    split
    · exact le_rfl
    · exact hshrink (t.fail address)

theorem waiting_tryStart (imageReady : Bool) (n : Nat) (t : Traffic) :
    (t.tryStart imageReady n).waiting.length ≤ t.waiting.length := by
  induction n generalizing t with
  | zero => exact le_rfl
  | succ n ih =>
    unfold tryStart
    split
    next => exact le_rfl
    next front rest hwaiting =>
      have hrest : rest.length ≤ t.waiting.length := by simp [hwaiting]
      split
      · exact le_rfl
      · dsimp only
        split
        · exact (waiting_failMembers ih _ _).trans hrest
        · exact hrest

/-- **A retry leaves no group stranded**, if it may nest as deep as the queue is long. -/
theorem awake_tryStart (imageReady : Bool) (n : Nat) (t : Traffic) (hn : t.waiting.length ≤ n) :
    (t.tryStart imageReady n).Awake := by
  induction n generalizing t with
  | zero => exact .inl (List.length_eq_zero_iff.mp (Nat.le_zero.mp hn))
  | succ n ih =>
    unfold tryStart
    split
    next hwaiting => exact .inl hwaiting
    next front rest hwaiting =>
      have hrest : rest.length ≤ n := by
        rw [hwaiting, List.length_cons] at hn
        omega
      split
      next hbusy => exact awake_of_not_canStart (by simpa using hbusy)
      next =>
        dsimp only
        split
        · exact awake_failMembers (waiting_tryStart imageReady n) ih _ _
            (maskAddresses_ne_nil front.nonempty) hrest
        · exact awake_launch _ front.nonempty

end Traffic

namespace Engine

/-- If a group waits, some address is sending. -/
def Awake (s : Engine) : Prop := s.traffic.Awake

section
variable {s t : Engine} {address : UInt16}

/-- What does not show in the traffic wakes and strands no one. -/
theorem Awake.congr (h : s.Awake) (htraffic : t.traffic = s.traffic) : t.Awake := by
  unfold Awake
  rwa [htraffic]

theorem Awake.view (h : s.Awake) (hview : t.view [] = s.view []) : t.Awake :=
  h.congr (traffic_congr hview)

theorem awake_of_sending (h : s.isSending address = true) : s.Awake :=
  .inr ⟨address, traffic_sending.trans h⟩

theorem awake_tryStartPendingGroupCommands (s : Engine) :
    (tryStartPendingGroupCommands s).Awake := by
  unfold Awake tryStartPendingGroupCommands
  rw [traffic_tryStartNested]
  exact Traffic.awake_tryStart _ _ _ le_rfl

/-- Every completion makes a retry. -/
theorem awake_completeOperation_inFlight {c : PPBContext} {request : Request} (success : Bool)
    (message : String) (hflight : InFlight s address c request) :
    (s.completeOperation address success message).Awake := by
  have hdone := @view_completeOperationWith tryStartPendingGroupCommands s [] address _ _ success
    message hflight.found hflight.uncompleted hflight.command
  exact (awake_tryStartPendingGroupCommands _).view hdone

theorem Awake.completeOperation (h : s.Awake) (success : Bool) (message : String) :
    (s.completeOperation address success message).Awake := by
  cases hcommand : s.commandInFlight address with
  | none => rwa [completeOperation_eq_self success message hcommand]
  | some request =>
    obtain ⟨c, hflight⟩ := commandInFlight_eq_some_iff.mp hcommand
    exact awake_completeOperation_inFlight success message hflight

/-- A command that is executed is left in flight or completed. -/
theorem awake_executeCommandImmediately (request : Request) (hidle : s.isSending address = false) :
    (s.executeCommandImmediately address request false).Awake := by
  have hopened := s.view_openOperation [] address request false
  have hfind (t : Engine) (ht : (t.view []).context = ((s.view []).opened address request
      false).context) : InFlight t address ((s.view []).openedContext address request false)
        request := by
    refine ⟨?_, rfl, rfl⟩
    change (t.view []).context address = _
    rw [ht, View.opened_context, Function.update_self]
  unfold executeCommandImmediately executeCommandImmediatelyWith
  simp only [hidle, Bool.false_eq_true, if_false, Bool.not_false, if_true]
  split
  · exact awake_completeOperation_inFlight false _ (hfind _ (congrArg View.context hopened))
  · split
    next =>
      unfold sendVolume
      split
      · refine awake_completeOperation_inFlight false _ (hfind _ ?_)
        rw [view_statics, hopened]
      · dsimp only
        split
        · refine awake_completeOperation_inFlight false _ (hfind _ ?_)
          rw [view_statics, view_handToUdp, hopened]
        · refine awake_completeOperation_inFlight true _ (hfind _ ?_)
          rw [view_statics, view_handToUdp, hopened]
    next =>
      refine awake_of_sending ((@view_sending_iff _ address []).mp ?_)
      rw [view_armTimer, view_sendPacketInternal, hopened, View.armed_state, View.opened_state,
        Function.update_self]

/-- A group that can start leaves an address sending, or has made retries. -/
theorem awake_startGroupCommand (s : Engine) (groupId : Nat) (cmd : TechCommand) (mask : UInt16)
    (data : Bytes) (hknown : (create cmd).isSome) (hmask : mask ≠ 0)
    (hcan : s.canStartGroupCommand mask = true) :
    (startGroupCommand s groupId cmd mask data).1.Awake := by
  -- one level of nesting more than the queue is long, so that each member's retry is complete
  have htraffic := @traffic_startGroupCommandWith tryStartPendingGroupCommands
    (fun t => t.tryStart s.statics.volumeUseCustomData t.waiting.length) _
    (fun t hready => ?_) (fun t => view_tryStartPendingGroupCommands t []) s groupId cmd mask data
    hknown hcan rfl
  · unfold Awake startGroupCommand
    rw [htraffic]
    split
    · refine Traffic.awake_failMembers (k := s.traffic.waiting.length)
        (fun t => Traffic.waiting_tryStart _ _ t) (fun t _ => ?_) _ _ (maskAddresses_ne_nil hmask)
        le_rfl
      exact Traffic.awake_tryStart _ _ _ le_rfl
    · exact Traffic.awake_launch _ hmask
  · rw [← hready]
    exact traffic_tryStartNested _ t

/-! Datagrams. -/

theorem Awake.modifyContext (h : s.Awake) (f : PPBContext → PPBContext) :
    (s.modifyContext address f).Awake :=
  h.congr ((traffic_congr (s.view_modifyContext [] address f)).trans rfl)

theorem Awake.emit (h : s.Awake) (o : Output) : (s.emit o).Awake := h

theorem Awake.hostCall (h : s.Awake) (call : HostCall) : (hostCall address s call).Awake := by
  cases call with
  | setParseResult => exact h.modifyContext _
  | setParseData => exact h.modifyContext _
  | completeCurrentOperation success message => exact h.completeOperation success message
  | _ => exact h

theorem Awake.runCallback (h : s.Awake) (calls : List HostCall) :
    (s.runCallback address calls).Awake := by
  induction calls generalizing s with
  | nil => exact h
  | cons call rest ih => exact ih (h.hostCall call)

theorem Awake.completeWithBridgeReply (h : s.Awake) (success : Bool) (message : String)
    (data : Option ParsedData) : (s.completeWithBridgeReply address success message data).Awake :=
  ((h.modifyContext _).modifyContext _).completeOperation success message

theorem Awake.completeIsYou (h : s.Awake) (event : ProtocolEvent) :
    (s.completeIsYou address event).Awake := by
  unfold Engine.completeIsYou
  split
  · exact h.completeWithBridgeReply _ _ _
  · split
    · exact h.completeWithBridgeReply _ _ _
    · exact h.completeWithBridgeReply _ _ _

theorem Awake.handleTUEvent (h : s.Awake) (command : PPBCommand) (event : ProtocolEvent) :
    (s.handleTUEvent address command event).Awake := by
  have hcallback (calls : List HostCall) := @Awake.runCallback s address h calls
  unfold Engine.handleTUEvent
  split
  · exact h.completeOperation _ _
  · dsimp only
    split
    · exact hcallback _
    · exact (hcallback _).completeOperation _ _
  · dsimp only
    split
    · exact hcallback _
    · exact (hcallback _).completeOperation _ _
  · exact h
  · exact h

theorem Awake.handleUnclaimed (h : s.Awake) (data : Bytes) : (s.handleUnclaimed data).Awake := by
  unfold Engine.handleUnclaimed
  split
  next event _ =>
    unfold Engine.handleBridgeEvent
    split
    · dsimp only
      split
      · exact h.completeWithBridgeReply _ _ _
      · split
        · exact h.completeWithBridgeReply _ _ _
        · exact h.completeWithBridgeReply _ _ _
    · exact h.emit _
  next => exact h

theorem Awake.onDataReceived (h : s.Awake) (data : Bytes) : (s.onDataReceived data).Awake := by
  unfold Engine.onDataReceived
  split
  next => exact h
  next =>
    dsimp only
    split
    next request _ =>
      cases hdispatch : s.dispatchToOperation (addressFromPacket data) request.command data with
      | none => exact h.handleUnclaimed data
      | some s' =>
        rw [Option.getD_some]
        simp only [dispatchToOperation] at hdispatch
        split at hdispatch
        next event _ =>
          cases hdispatch
          exact h.completeIsYou event
        next =>
          split at hdispatch
          next event _ =>
            split at hdispatch
            · cases hdispatch
              exact h
            · cases hdispatch
              exact h.handleTUEvent request.command event
          next =>
            obtain ⟨_, _, rfl⟩ := Option.map_eq_some_iff.mp hdispatch
            exact h.completeOperation _ _
    next => exact h.handleUnclaimed data

/-! Calls, timers and posted callbacks. -/

theorem Awake.acceptQueued (h : s.Awake) (command : PPBCommand) :
    (s.acceptQueued address command).Awake := h

theorem Awake.submit (h : s.Awake) (command : PPBCommand) : (s.submit address command).Awake := by
  unfold Engine.submit
  split
  · exact h.acceptQueued command
  · split
    · exact h.acceptQueued command
    next hidle =>
      refine awake_executeCommandImmediately _ ?_
      rw [isSending_eq_false_iff, view_emit]
      exact (s.isSending_eq_false_iff address).mp (Bool.not_eq_true _ ▸ hidle)

/-- A group waits only if one of its addresses is sending. -/
theorem Awake.executeGroupCommand (h : s.Awake) (cmd : TechCommand) (mask : UInt16)
    (data : Bytes) : (s.executeGroupCommand cmd mask data).1.Awake := by
  unfold Engine.executeGroupCommand
  split
  next => exact h.emit _
  next nonempty =>
    split
    next known =>
      dsimp only
      split
      next hbusy =>
        have hcannot : s.traffic.canStart mask = false := by
          rw [traffic_canStart nonempty]
          exact (Bool.not_eq_true' _).mp hbusy
        obtain ⟨b, -, hsending⟩ := List.all_eq_false.mp hcannot
        have hsending : s.traffic.sending b = true := by simpa using hsending
        exact .inr ⟨b, hsending⟩
      next hcan =>
        rw [Bool.not_eq_true', Bool.not_eq_false] at hcan
        have hstarted := awake_startGroupCommand (({ s with nextGroupId := s.nextGroupId + 1 } :
          Engine).emit (.groupAccepted s.nextGroupId mask false)) s.nextGroupId cmd mask data known
          nonempty hcan
        split
        · exact hstarted
        · exact hstarted.emit _
    next => exact h.emit _

theorem Awake.onOperationTimeout (h : s.Awake) : (s.onOperationTimeout address).Awake := by
  have hfired := @Awake.modifyContext s address h fun c => { c with operationTimer := none }
  unfold Engine.onOperationTimeout
  dsimp only
  split
  · split
    · exact hfired.completeOperation _ _
    · exact hfired
  · exact hfired

theorem Awake.dequeueAndExecute (h : s.Awake) (hidle : s.isSending address = false) :
    (s.dequeueAndExecute address).Awake := by
  unfold Engine.dequeueAndExecute
  cases hqueue : s.queueOf address with
  | nil =>
    rw [dequeue_nil s hqueue]
    exact h
  | cons request rest =>
    obtain ⟨htaken, hview⟩ := s.dequeue_cons [] hqueue
    generalize hpair : s.dequeue address = pair at htaken hview
    obtain ⟨t, taken⟩ := pair
    simp only at htaken hview
    subst htaken
    refine awake_executeCommandImmediately request ?_
    rw [isSending_eq_false_iff] at hidle ⊢
    rw [hview]
    exact hidle

theorem Awake.processCommandQueue (h : s.Awake) (addresses : List UInt16) :
    (s.processCommandQueue addresses).Awake := by
  unfold Engine.processCommandQueue
  induction addresses generalizing s with
  | nil => exact h
  | cons b rest ih =>
    refine @ih (s.processQueued b) ?_
    unfold Engine.processQueued
    split
    · exact h
    · split
      next hidle => exact h.dequeueAndExecute (by simpa using hidle)
      · exact h

theorem Awake.runPosted (h : s.Awake) (index : Nat) (order : List UInt16) :
    (s.runPosted index order).Awake := by
  have hrest : Awake { s with posted := s.posted.eraseIdx index } := h
  unfold Engine.runPosted
  dsimp only
  split
  next b _ =>
    unfold Engine.processNextCommandForAddress
    split
    · exact hrest
    next hready =>
      refine hrest.dequeueAndExecute ?_
      simp [isSending, not_not.mp hready]
  · exact hrest.processCommandQueue order
  · exact hrest

/-- Every event leaves no group stranded. -/
theorem Awake.handle (h : s.Awake) (e : Event) : (s.handle e).Awake := by
  cases e with
  | connectToPPB b ip port => exact h
  | disconnect => exact .inl rfl
  | executeCommand cmd b =>
    simp only [Engine.handle, Engine.executeCommand]
    split
    · exact h.emit _
    · exact h.submit _
  | executeCommandWithData cmd b data => exact h.submit _
  | executeGroupCommand cmd mask data => exact h.executeGroupCommand cmd mask data
  | sendFU mode b period fuData =>
    refine h.view ?_
    cases mode <;> simp [Engine.handle, sendFUTransmit, sendFUReceive, sendFUReceiveTransmit, sendFU]
  | sendDataPackets packets => exact h.view (view_sendDataPackets s packets)
  | setBridgeAddress ip port => exact h
  | clearCommandQueue b => exact h
  | setCurrentVolumeData payload marker totalSize data => exact h
  | setCurrentVersion version => exact h
  | datagram data => exact h.onDataReceived data
  | timeout b => exact h.onOperationTimeout
  | networkError error => exact h.emit _
  | queueTick order => exact h.processCommandQueue order
  | posted index order => exact h.runPosted index order

end

theorem awake {guard : Engine → Event → Prop} {s : Engine} (h : Reachable guard s) : s.Awake := by
  refine h.invariant (P := Awake) ?_ ?_
  · rintro _ ⟨udpClient, statics, rfl⟩
    exact .inl rfl
  · rintro s e _ hs - ⟨-, rfl⟩
    exact hs.handle e

/-- **A pending group is never stranded.** Between events of any run, while a group waits, some
operation is in flight and its timer runs: its completion is still to come. -/
theorem pending_awaited {guard : Engine → Event → Prop} {s : Engine} (h : Reachable guard s)
    (hpending : s.pendingGroupCommands ≠ []) :
    ∃ address c request, InFlight s address c request ∧ c.operationTimer.isSome = true := by
  have hsound := sound h
  obtain ⟨address, hsending⟩ := (awake h).resolve_left hpending
  rw [traffic_sending, ← view_sending_iff []] at hsending
  obtain ⟨c, hfind, hopen⟩ := hsound.sending address hsending
  have hsettled := hsound.settled address c hfind
  obtain ⟨request, hcommand⟩ := Option.isSome_iff_exists.mp hsettled.command
  exact ⟨address, c, request, ⟨hfind, hopen, hcommand⟩, hsettled.timer.mpr hopen⟩

/-- A VERS is in flight at address 1, and a group waits for it. -/
def groupWaiting : Engine := versInFlight.handle (.executeGroupCommand .vers 1 [])

theorem groupWaiting_reachable : Reachable AnyStep groupWaiting :=
  @Machine.Reach.step _ _ machine _ _ _ (.executeGroupCommand .vers 1 [])
    (versInFlight_reachable trivial) trivial ⟨trivial, rfl⟩

theorem pending_awaited_vers : groupWaiting.pendingGroupCommands ≠ [] ∧
    ∃ address c request, InFlight groupWaiting address c request ∧
      c.operationTimer.isSome = true := by
  have hpending : groupWaiting.pendingGroupCommands ≠ [] := by decide
  exact ⟨hpending, pending_awaited groupWaiting_reachable hpending⟩

end Engine

end PPB
