import PPBProject.Aftermath

/- What the engine's own steps add to the history. A step that no datagram makes reports
   a success for a VOLUME only, and starts a command at address 0 only while no group is
   outstanding, unless it is a posted callback. Whatever puts up with this much
   (`Tolerates`) holds of all that such a step adds. -/
namespace PPB

/-- `p` holds of whatever the engine adds of its own accord. -/
structure Tolerates (p : Output → Prop) : Prop where
  plain : ∀ o, o.startedOp = none → o.completedOp = none → p o
  started : ∀ op behindGroups, (op.address = 0 → behindGroups = false) →
    p (.started op behindGroups)
  report : ∀ op success message, (success = true → op.command = .volume) →
    p (.commandCompleted op success message)

theorem Tolerates.nested {p : Output → Prop} (hp : Tolerates p) {o : Output}
    (h : o.isNested = true) : p o := by
  cases o with
  | started op behindGroups =>
    refine hp.started op behindGroups fun hzero => ?_
    simp [Output.isNested, hzero] at h
  | commandCompleted op success message =>
    refine hp.report op success message fun hsuccess => ?_
    simp [Output.isNested, hsuccess] at h
  | _ => exact hp.plain _ rfl rfl

namespace Engine

section
variable {p : Output → Prop} (hp : Tolerates p) {s t : Engine} {address : UInt16}

theorem extends_same (h : t.view [] = s.view []) : Machine.Extends p s.history t.history := by
  have hhistory : t.history = s.history := congrArg View.history h
  exact hhistory ▸ .refl _

include hp

theorem extends_emit (hhistory : t.history = s.history) (o : Output) (hstarts : o.startedOp = none)
    (hcompletes : o.completedOp = none) : Machine.Extends p s.history (t.emit o).history := by
  rw [← hhistory]
  cases hrecord : o.isRecord with
  | false => exact extends_same (view_emit_other t [] hrecord)
  | true =>
    refine ⟨[o], history_emit t hrecord, fun x hx => ?_⟩
    rw [List.mem_singleton.mp hx]
    exact hp.plain o hstarts hcompletes

theorem forall_mem_reportOf {op : Operation} {c : PPBContext} {success : Bool} {message : String}
    (hreport : success = true → op.command = .volume) :
    ∀ o ∈ reportOf op c success message, p o := by
  obtain ⟨data, hall, hdata⟩ := reportOf_eq_cons op c success message
  rw [hall]
  intro o ho
  rcases List.mem_cons.mp ho with rfl | ho
  · exact hp.report op success _ hreport
  · rcases hdata o ho with ⟨parsed, rfl⟩ | ⟨mask, packets, rfl⟩ <;> exact hp.plain _ rfl rfl

/-- A failed completion. -/
theorem extends_completeOperation (s : Engine) (address : UInt16) (message : String) :
    Machine.Extends p s.history (s.completeOperation address false message).history := by
  cases hflight : s.commandInFlight address with
  | none =>
    rw [completeOperation_eq_self false message hflight]
    exact .refl _
  | some request =>
    obtain ⟨c, hin⟩ := commandInFlight_eq_some_iff.mp hflight
    obtain ⟨_, _, _, _, hreported⟩ :=
      ((Prepared.refl hin.found).completes false message hin).reported
    obtain ⟨new, heq, hnested⟩ := hreported.history
    refine ⟨_, heq, fun o ho => ?_⟩
    rcases List.mem_append.mp ho with ho | ho
    · exact forall_mem_reportOf hp (fun hsuccess => Bool.noConfusion hsuccess) o ho
    · exact hp.nested (hnested o ho)

theorem extends_onOperationTimeout (s : Engine) (address : UInt16) :
    Machine.Extends p s.history (s.onOperationTimeout address).history := by
  unfold onOperationTimeout
  generalize hfired : s.modifyContext address (fun c => { c with operationTimer := none }) = t
  have hhistory : t.history = s.history := by
    have hview := s.view_modifyContext [] address fun c => { c with operationTimer := none }
    rw [hfired] at hview
    exact congrArg View.history hview
  rw [← hhistory]
  dsimp only
  split
  · split
    · exact extends_completeOperation hp ..
    · exact .refl _
  · exact .refl _

/-- A single command that is executed is started, and then at most completed at once, which takes
a VOLUME. -/
theorem executeCommandImmediately_history (request : Request)
    (hidle : s.isSending address = false) :
    ∃ new, (s.executeCommandImmediately address request false).history =
        s.history ++ .started (request.operation address) s.groupsOutstanding :: new ∧
      ∀ o ∈ new, p o := by
  obtain ⟨v, hexecuted, hstarts⟩ := executeCommandImmediately_executed request hidle
  obtain ⟨hstarting, report, hhistory, hreport⟩ : v.starting = [] ∧ ∃ report, v.history =
      s.history ++ .started (request.operation address) s.groupsOutstanding :: report ∧
        ∀ o ∈ report, p o := by
    cases hexecuted with
    | launched ms => exact ⟨rfl, [], View.launched_history .., by simp⟩
    | flashed imageReady success message hvolume =>
      refine ⟨rfl, _, View.flashed_history .., fun o ho => ?_⟩
      rcases List.mem_append.mp ho with ho | ho
      · exact forall_mem_reportOf hp (fun _ => hvolume) o ho
      · exact hp.nested (isNested_of_mem_settleGroups ho)
  obtain ⟨nested, hnested, hall⟩ := (hstarts.stirred (by simp [hstarting])).history
  refine ⟨report ++ nested, ?_, fun o ho => ?_⟩
  · have heq : (s.executeCommandImmediately address request false).history = v.history ++ nested :=
      hnested
    rw [heq, hhistory, List.append_assoc, List.cons_append]
  · exact (List.mem_append.mp ho).elim (hreport o) fun ho => hp.nested (hall o ho)

theorem extends_executeCommandImmediately_iff (request : Request)
    (hidle : s.isSending address = false) :
    Machine.Extends p s.history (s.executeCommandImmediately address request false).history ↔
      p (.started (request.operation address) s.groupsOutstanding) := by
  obtain ⟨new, heq, hnew⟩ := executeCommandImmediately_history hp request hidle
  rw [heq, Machine.extends_append_iff, List.forall_mem_cons]
  exact and_iff_left hnew

theorem extends_dequeueAndExecute_iff (hidle : s.isSending address = false) :
    Machine.Extends p s.history (s.dequeueAndExecute address).history ↔
      ∀ request ∈ (s.queueOf address).head?,
        p (.started (request.operation address) s.groupsOutstanding) := by
  unfold dequeueAndExecute
  cases hqueue : s.queueOf address with
  | nil =>
    rw [dequeue_nil s hqueue]
    simpa using Machine.Extends.refl _
  | cons request rest =>
    obtain ⟨htaken, hview⟩ := s.dequeue_cons [] hqueue
    generalize hpair : s.dequeue address = pair at htaken hview
    obtain ⟨t, taken⟩ := pair
    simp only at htaken hview
    subst htaken
    have hhistory : t.history = s.history := congrArg View.history hview
    have hgroups : t.groupsOutstanding = s.groupsOutstanding :=
      congrArg View.groupsOutstanding hview
    have hidle' : t.isSending address = false := by
      rw [isSending_eq_false_iff] at hidle ⊢
      rw [hview]
      exact hidle
    rw [← hhistory, ← hgroups, extends_executeCommandImmediately_iff hp request hidle']
    simp

theorem extends_acceptQueued (hhistory : t.history = s.history) (command : PPBCommand) :
    Machine.Extends p s.history (t.acceptQueued address command).history := by
  refine ⟨[.accepted address (.single t.nextTicket) true], ?_, ?_⟩
  · change (view _ []).history = _
    rw [acceptQueued, view_enqueue, view_emit, ← hhistory]
    rfl
  · simpa using hp.plain _ rfl rfl

theorem extends_submit (command : PPBCommand) :
    Machine.Extends p s.history (s.submit address command).history := by
  unfold submit
  split
  · exact extends_acceptQueued hp rfl command
  next hfree =>
    split
    · exact extends_acceptQueued hp rfl command
    next hidle =>
      simp only [acceptImmediately]
      generalize haccepted : Engine.emit { s with nextTicket := s.nextTicket + 1 }
        (.accepted address (.single s.nextTicket) false) = t
      have hview : t.view [] = ({ s.view [] with nextTicket := s.nextTicket + 1 } : View).record
          [.accepted address (.single s.nextTicket) false] := by
        rw [← haccepted, view_emit]
        rfl
      have haccept : Machine.Extends p s.history t.history :=
        ⟨[_], congrArg View.history hview, by simpa using hp.plain _ rfl rfl⟩
      have hgroups : t.groupsOutstanding = s.groupsOutstanding :=
        congrArg View.groupsOutstanding hview
      refine haccept.trans ((extends_executeCommandImmediately_iff hp _ ?_).mpr ?_)
      · rw [isSending_eq_false_iff, hview]
        exact (s.isSending_eq_false_iff address).mp (Bool.not_eq_true _ ▸ hidle)
      -- at address 0 a command is queued while a group is outstanding
      · refine hp.started _ _ fun hzero => ?_
        rw [hgroups]
        exact Bool.not_eq_true _ ▸ fun hout => hfree ⟨hzero, hout⟩

theorem extends_processCommandQueue (s : Engine) (addresses : List UInt16) :
    Machine.Extends p s.history (s.processCommandQueue addresses).history := by
  unfold processCommandQueue
  induction addresses generalizing s with
  | nil => exact .refl _
  | cons address rest ih =>
    refine Machine.Extends.trans ?_ (ih (s.processQueued address))
    unfold processQueued
    split
    · exact .refl _
    next hfree =>
      split
      next hidle =>
        -- the tick passes address 0 over while a group is outstanding
        refine (extends_dequeueAndExecute_iff hp (by simpa using hidle)).mpr fun request _ => ?_
        refine hp.started _ _ fun hzero => ?_
        exact Bool.not_eq_true _ ▸ fun hout => hfree ⟨hzero, hout⟩
      · exact .refl _

theorem extends_executeGroupCommand (cmd : TechCommand) (mask : UInt16) (data : Bytes) :
    Machine.Extends p s.history (s.executeGroupCommand cmd mask data).1.history := by
  rcases s.executeGroupCommand_history cmd mask data with ⟨-, heq⟩ | ⟨queued, hextends⟩
  · exact heq ▸ .refl _
  · exact .trans ⟨[.groupAccepted _ mask queued], rfl, by simpa using hp.plain _ rfl rfl⟩
      (hextends.mono fun o ho => hp.nested ho)

/-- A posted callback adds what `p` tolerates exactly if it tolerates the start of the command that
`processNextCommandForAddress` takes from the queue, whatever group is outstanding. -/
theorem extends_runPosted_iff (index : Nat) (order : List UInt16) :
    Machine.Extends p s.history (s.runPosted index order).history ↔
      ∀ address, s.posted[index]? = some (.processNextCommandForAddress address) →
        s.getState address = .ready → ∀ request ∈ (s.queueOf address).head?,
          p (.started (request.operation address) s.groupsOutstanding) := by
  simp only [runPosted]
  generalize hrest : ({ s with posted := s.posted.eraseIdx index } : Engine) = t
  have hview : t.view [] = s.view [] := by
    rw [← hrest]
    rfl
  have hhistory : t.history = s.history := congrArg View.history hview
  have hstate : t.getState = s.getState := congrArg View.state hview
  have hqueue : t.queueOf = s.queueOf := congrArg View.queue hview
  have hgroups : t.groupsOutstanding = s.groupsOutstanding := congrArg View.groupsOutstanding hview
  rw [← hhistory, ← hstate, ← hqueue, ← hgroups]
  cases s.posted[index]? with
  | none => exact iff_of_true (.refl _) (by simp)
  | some callback =>
    cases callback with
    | processCommandQueue => exact iff_of_true (extends_processCommandQueue hp t order) (by simp)
    | processNextCommandForAddress address =>
      simp only [processNextCommandForAddress, Option.some.injEq,
        Posted.processNextCommandForAddress.injEq, forall_eq']
      split
      next hstate => exact iff_of_true (.refl _) fun hready => absurd hready hstate
      next hready =>
        rw [not_not] at hready
        rw [extends_dequeueAndExecute_iff hp (by simp [isSending, hready])]
        simp only [hready, forall_const]

/-- **What a step adds**, if no datagram and no posted callback makes it. -/
theorem extends_handle {e : Event} (hdatagram : ∀ data, e ≠ .datagram data)
    (hposted : ∀ index order, e ≠ .posted index order) :
    Machine.Extends p s.history (s.handle e).history := by
  cases e with
  | connectToPPB address ip port => exact extends_acceptQueued hp rfl .statusCommand
  | disconnect => exact extends_emit hp rfl _ rfl rfl
  | executeCommand cmd address =>
    simp only [handle, executeCommand]
    split
    · exact extends_emit hp rfl _ rfl rfl
    · exact extends_submit hp _
  | executeCommandWithData cmd address data => exact extends_submit hp _
  | executeGroupCommand cmd mask data => exact extends_executeGroupCommand hp cmd mask data
  | sendFU mode address period fuData =>
    refine extends_same ?_
    cases mode <;> simp [handle, sendFUTransmit, sendFUReceive, sendFUReceiveTransmit, sendFU]
  | sendDataPackets packets => exact extends_same (view_sendDataPackets s packets)
  | setBridgeAddress ip port => exact .refl _
  | clearCommandQueue address => exact extends_emit hp rfl _ rfl rfl
  | setCurrentVolumeData payload marker totalSize data => exact .refl _
  | setCurrentVersion version => exact .refl _
  | datagram data => exact absurd rfl (hdatagram data)
  | timeout address => exact extends_onOperationTimeout hp s address
  | networkError error => exact extends_emit hp rfl _ rfl rfl
  | queueTick order => exact extends_processCommandQueue hp s order
  | posted index order => exact absurd rfl (hposted index order)

end

end Engine

end PPB
