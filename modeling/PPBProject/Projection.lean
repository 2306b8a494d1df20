import PPBProject.Acts

/- How each elementary update of the engine shows in its view. Most of them do not
   show at all: packets, statics, posted callbacks and the signals that report a
   state are not part of the view. The two that carry the dispatcher's work,
   `openOperation` and `closeOperation`, are `View.opened` and `View.closed`
   exactly. -/
namespace PPB

namespace View

@[simp] theorem record_nil (v : View) : v.record [] = v := by
  simp [record]

/-- A completion does not depend on what the context entry held. -/
theorem closed_update (v : View) (address : UInt16) (old : Option PPBContext) (c : PPBContext)
    (request : Request) (success : Bool) (message : String) :
    ({ v with context := Function.update v.context address old } : View).closed address c request
      success message = v.closed address c request success message := by
  have hbusy : (∃ b c', b ≠ address ∧ Function.update v.context address old b = some c' ∧
      c'.inFlight = true) ↔ ∃ b c', b ≠ address ∧ v.context b = some c' ∧ c'.inFlight = true := by
    refine exists_congr fun b => exists_congr fun c' => and_congr_right fun hne => ?_
    rw [Function.update_of_ne hne]
  simp only [closed, Function.update_idem, hbusy]

/-- Once `address` holds a completed context, an operation in flight is elsewhere. -/
theorem exists_inFlight_update (v : View) (address : UInt16) (c : PPBContext)
    (hc : c.inFlight = false) :
    (∃ b c', Function.update v.context address (some c) b = some c' ∧ c'.inFlight = true) ↔
      ∃ b c', b ≠ address ∧ v.context b = some c' ∧ c'.inFlight = true := by
  refine exists_congr fun b => exists_congr fun c' => ?_
  rcases eq_or_ne b address with rfl | hne
  · rw [Function.update_self]
    constructor
    · rintro ⟨heq, hflight⟩
      rw [← Option.some.inj heq, hc] at hflight
      cases hflight
    · rintro ⟨hne, -⟩
      exact absurd rfl hne
  · simp [hne]

end View

namespace Engine

variable (s : Engine) (starting : List (Nat × UInt16))

/-! Updates that leave no trace, or only an entry. -/

@[simp] theorem view_emit (o : Output) :
    (s.emit o).view starting = (s.view starting).record (if o.isRecord then [o] else []) := by
  have hview : (s.emit o).view starting =
      { s.view starting with history := (s.log ++ [o]).filter Output.isRecord } := rfl
  rw [hview, List.filter_append]
  cases h : o.isRecord <;> simp [h, View.record, view, history]

theorem view_emit_other {o : Output} (h : o.isRecord = false) :
    (s.emit o).view starting = s.view starting := by
  simp [h]

theorem history_emit {o : Output} (h : o.isRecord = true) :
    (s.emit o).history = s.history ++ [o] := by
  simp [history, emit, h]

@[simp] theorem view_emitAll (os : List Output) :
    (s.emitAll os).view starting = (s.view starting).record (os.filter Output.isRecord) := by
  have hview : (s.emitAll os).view starting =
      { s.view starting with history := (s.log ++ os).filter Output.isRecord } := rfl
  rw [hview, List.filter_append]
  rfl

@[simp] theorem view_post (callback : Posted) : (s.post callback).view starting = s.view starting :=
  rfl

@[simp] theorem view_statics (statics : Statics) :
    ({ s with statics } : Engine).view starting =
      { s.view starting with imageReady := statics.volumeUseCustomData } := rfl

theorem filter_isRecord_errors (errors : List String) :
    (errors.map Output.errorOccurred).filter Output.isRecord = [] := by
  simp [List.filter_eq_nil_iff, Output.isRecord]

@[simp] theorem view_handToUdp (client : UdpClient) (packet : Bytes) :
    (s.handToUdp client packet).1.view starting = s.view starting := by
  simp [handToUdp, filter_isRecord_errors, Output.isRecord]
  rfl

@[simp] theorem view_sendPacketInternal (packet : Bytes) :
    (s.sendPacketInternal packet).view starting = s.view starting := by
  unfold sendPacketInternal
  split
  · simp [Output.isRecord]
  · simp

/-! The maps. -/

theorem findContext_setContext (address : UInt16) (c : PPBContext) :
    (s.setContext address c).findContext = Function.update s.findContext address (some c) :=
  lookup_insert_eq_update s.contexts address c

@[simp] theorem view_setContext (address : UInt16) (c : PPBContext) :
    (s.setContext address c).view starting =
      { s.view starting with
        context := Function.update (s.view starting).context address (some c) } := by
  simp only [view, findContext_setContext]
  rfl

@[simp] theorem view_modifyContext (address : UInt16) (f : PPBContext → PPBContext) :
    (s.modifyContext address f).view starting =
      { s.view starting with
        context := Function.update (s.view starting).context address
          (((s.view starting).context address).map f) } := by
  change _ = { s.view starting with
    context := Function.update s.findContext address ((s.findContext address).map f) }
  unfold modifyContext
  cases h : s.findContext address with
  | none =>
    have hsame : Function.update s.findContext address none = s.findContext := by
      rw [← h, Function.update_eq_self]
    simp only [Option.map_none, hsame]
    rfl
  | some c => exact s.view_setContext starting address (f c)

theorem view_armTimer (address : UInt16) (ms : Nat) :
    (s.armTimer address ms).view starting = (s.view starting).armed address ms := by
  simp only [armTimer, view_modifyContext]
  rfl

theorem queueOf_insert (address : UInt16) (requests : List Request) :
    ({ s with queues := s.queues.insert address requests } : Engine).queueOf =
      Function.update s.queueOf address requests := by
  funext a
  have h := congrFun (lookup_insert_eq_update s.queues address requests) a
  simp only [queueOf, h, Function.update_apply]
  split <;> rfl

theorem queueOf_erase (address : UInt16) :
    ({ s with queues := s.queues.erase address } : Engine).queueOf =
      Function.update s.queueOf address [] := by
  funext a
  have h := congrFun (lookup_erase_eq_update s.queues address) a
  simp only [queueOf, h, Function.update_apply]
  split <;> rfl

@[simp] theorem view_enqueue (address : UInt16) (request : Request) :
    (s.enqueue address request).view starting =
      { s.view starting with
        queue := Function.update (s.view starting).queue address
          ((s.view starting).queue address ++ [request]) } := by
  simp only [enqueue, view, queueOf_insert]
  rfl

@[simp] theorem view_pushPending (pending : PendingGroupCommand) :
    (s.pushPending pending).view starting =
      { s.view starting with waiting := (s.view starting).waiting ++ [pending] } := rfl

/-- What `dequeue` returns is the front, and the rest stays. -/
theorem dequeue_cons {address : UInt16} {request : Request} {rest : List Request}
    (h : s.queueOf address = request :: rest) :
    (s.dequeue address).2 = some request ∧ (s.dequeue address).1.view starting =
      { s.view starting with
        queue := Function.update (s.view starting).queue address rest } := by
  unfold dequeue
  cases rest with
  | nil =>
    simp only [h, true_and]
    simp only [view, queueOf_erase]
    rfl
  | cons next rest =>
    simp only [h, true_and]
    simp only [view, queueOf_insert]
    rfl

theorem dequeue_nil {address : UInt16} (h : s.queueOf address = []) :
    s.dequeue address = (s, none) := by
  simp [dequeue, h]

/-! The state machine of one address. -/

theorem getState_insert (address : UInt16) (state : PPBState) :
    ({ s with states := s.states.insert address state } : Engine).getState =
      Function.update s.getState address state := by
  funext a
  have h := congrFun (lookup_insert_eq_update s.states address state) a
  simp only [getState, h, Function.update_apply]
  split <;> rfl

theorem findContext_clearContext (address : UInt16) :
    (s.clearContext address).findContext = Function.update s.findContext address none := by
  unfold clearContext
  cases h : s.findContext address with
  | none =>
    simp only
    rw [← h, Function.update_eq_self]
  | some c => exact lookup_erase_eq_update s.contexts address

theorem view_clearContext (address : UInt16) :
    (s.clearContext address).view starting =
      { s.view starting with
        context := Function.update (s.view starting).context address none
        erasures :=
          if ((s.view starting).context address).isSome then
            Function.update s.erasures address (s.erasures address + 1)
          else s.erasures } := by
  change _ = { s.view starting with
    context := Function.update s.findContext address none
    erasures :=
      if (s.findContext address).isSome then
        Function.update s.erasures address (s.erasures address + 1)
      else s.erasures }
  rw [← findContext_clearContext]
  unfold clearContext
  cases s.findContext address <;> rfl

@[simp] theorem view_transitionState (address : UInt16) (newState : PPBState) :
    (s.transitionState address newState).view starting =
      { s.view starting with
        context :=
          if newState = .idle ∧ (s.view starting).state address ≠ .idle then
            Function.update (s.view starting).context address none
          else (s.view starting).context
        erasures :=
          if newState = .idle ∧ (s.view starting).state address ≠ .idle ∧
              ((s.view starting).context address).isSome then
            Function.update (s.view starting).erasures address
              ((s.view starting).erasures address + 1)
          else (s.view starting).erasures
        state := Function.update (s.view starting).state address newState } := by
  change _ = { s.view starting with
    context :=
      if newState = PPBState.idle ∧ s.getState address ≠ PPBState.idle then
        Function.update s.findContext address none
      else s.findContext
    erasures :=
      if newState = PPBState.idle ∧ s.getState address ≠ PPBState.idle ∧
          (s.findContext address).isSome then
        Function.update s.erasures address (s.erasures address + 1)
      else s.erasures
    state := Function.update s.getState address newState }
  have hset (t : Engine) : (({ t with states := t.states.insert address newState } : Engine).view
      starting) = { t.view starting with state := Function.update t.getState address newState } := by
    simp only [view, getState_insert]
    rfl
  have hemit (t : Engine) : ((if address = t.currentAddress then
      t.emit (.stateChanged address newState) else t).view starting) = t.view starting := by
    split
    · simp [Output.isRecord]
    · rfl
  unfold transitionState
  split
  next heq =>
    have hstate : Function.update s.getState address newState = s.getState := by
      rw [← heq, Function.update_eq_self]
    have hcontext : ¬ (newState = .idle ∧ s.getState address ≠ .idle) := by
      rintro ⟨rfl, hne⟩
      exact hne heq
    simp only [hstate, hcontext, ← and_assoc, false_and, if_false]
    rfl
  next hne =>
    rw [hemit, hset]
    cases newState with
    | idle =>
      have hstate : (s.clearContext address).getState = s.getState := by
        unfold clearContext
        split <;> rfl
      simp only [view_clearContext, hne, ne_eq, not_false_iff, true_and, and_self, if_true, hstate]
      rfl
    | ready => rfl
    | sendingCommand => rfl

theorem anyInFlight_iff :
    s.anyInFlight = true ↔ ∃ b c, s.findContext b = some c ∧ c.inFlight = true :=
  any_entries_iff s.contexts PPBContext.inFlight

/-- The busy flag after `updateBusyState` tells whether a command is in flight. -/
@[simp] theorem view_updateBusyState :
    s.updateBusyState.view starting =
      { s.view starting with
        busy := ∃ b c, (s.view starting).context b = some c ∧ c.inFlight = true } := by
  change _ = { s.view starting with
    busy := ∃ b c, s.findContext b = some c ∧ c.inFlight = true }
  rw [← propext s.anyInFlight_iff]
  unfold updateBusyState
  split
  · simp only [view_emit, Output.isRecord, Bool.false_eq_true, if_false, View.record_nil]
    rfl
  next h =>
    rw [← not_not.mp h]
    rfl

/-! Starting and completing an operation. -/

theorem view_openOperation (address : UInt16) (request : Request) (suppressSend : Bool) :
    (s.openOperation address request suppressSend).view starting =
      (s.view starting).opened address request suppressSend := by
  have hbusy (v : View) (c : PPBContext) (hc : c.inFlight = true) :
      (∃ b c', Function.update v.context address (some c) b = some c' ∧ c'.inFlight = true) = True :=
    eq_true ⟨address, c, Function.update_self .., hc⟩
  simp only [openOperation, view_updateBusyState, view_transitionState, view_emit, view_setContext,
    Output.isRecord, if_true, View.record, reduceCtorEq, false_and, if_false]
  rw [hbusy _ _ (by simp [PPBContext.reset, PPBContext.inFlight])]
  rfl

theorem filter_reportOf (op : Operation) (c : PPBContext) (success : Bool) (message : String) :
    (reportOf op c success message).filter Output.isRecord = reportOf op c success message :=
  List.filter_eq_self.mpr fun _ => isRecord_of_mem_reportOf op c success message

theorem filter_settleGroups (address : UInt16) (success : Bool) (groups : List (Nat × GroupInfo)) :
    (settleGroups address success groups).2.filter Output.isRecord =
      (settleGroups address success groups).2 :=
  List.filter_eq_self.mpr fun _ => isRecord_of_mem_settleGroups address success groups

theorem view_settleMember (address : UInt16) (success : Bool) :
    (s.settleMember address success).view starting =
      ({ s.view starting with
        groups := (settleGroups address success (s.view starting).groups).1 } : View).record
      (settleGroups address success (s.view starting).groups).2 := by
  simp only [settleMember, view_emitAll, filter_settleGroups]
  rfl

theorem view_closeOperation (address : UInt16) (c : PPBContext) (request : Request) (success : Bool)
    (message : String) :
    (s.closeOperation address c request success message).view starting =
      (s.view starting).closed address c request success message := by
  have hbusy := View.exists_inFlight_update (s.view starting) address (View.closedContext c)
    (by simp [View.closedContext, PPBContext.clearParseResults, PPBContext.inFlight])
  simp only [closeOperation, view_settleMember, view_transitionState, view_updateBusyState,
    view_modifyContext, view_emitAll, view_setContext, filter_reportOf, View.record,
    Function.update_self, Function.update_idem, Option.map_some]
  simp only [View.closedContext] at hbusy
  simp only [hbusy]
  cases success <;> cases hstate : (s.view starting).state address <;>
    simp [View.closed, View.closedContext, hstate]

end Engine

end PPB
