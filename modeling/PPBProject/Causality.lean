import PPBProject.Additions
import PPBProject.Cascade
import PPBProject.Groups

/- Causes of success. Apart from a VOLUME, which is complete once UDP has taken it, an
   operation is reported with success by a datagram that finds it in flight, and by one
   datagram at most one operation is.

   The exception is an acknowledgement on which a command completes itself.
   `onDataReceived` looks at the context once more after the callback, and if a waiting
   group has been started at the address meanwhile, it takes the group's operation for
   the one it had been handling and completes it as well. -/
namespace PPB

/-- The entry reports no success but of a VOLUME. -/
def Output.SucceedsVolume (o : Output) : Prop :=
  ∀ op message, o = .commandCompleted op true message → op.command = .volume

theorem tolerates_succeedsVolume : Tolerates Output.SucceedsVolume where
  plain := by
    rintro o - hcompletes op message rfl
    cases hcompletes
  started _ _ _ _ _ heq := nomatch heq
  report op success message hvolume other _ heq := by
    obtain ⟨rfl, rfl, -⟩ := Output.commandCompleted.inj heq
    exact hvolume rfl

theorem succeededPlace_of_isNested {o : Output} (h : o.isNested = true) :
    o.succeededPlace = none := by
  cases o with
  | commandCompleted op success message =>
    cases success <;> simp_all [Output.isNested, Output.succeededPlace]
  | _ => rfl

theorem successes_eq_nil {h : List Output} (hnone : ∀ o ∈ h, o.succeededPlace = none) :
    successes h = [] := List.filterMap_eq_nil_iff.mpr hnone

namespace Engine

/-- The operation was started and is in flight. -/
def Awaits (s : Engine) (op : Operation) : Prop :=
  op ∈ starts s.history ∧ s.inFlightOperation op.address = some op

/-- From `s` on, at most one success is reported, and it is of an operation in flight in `s`. -/
def SucceedsOnce (s : Engine) (h' : List Output) : Prop :=
  ∃ new, h' = s.history ++ new ∧ (successes new).length ≤ 1 ∧
    ∀ op message, .commandCompleted op true message ∈ new → s.Awaits op

/-- What has succeeded in a step has a cause: a datagram it had been waiting for, or, for a VOLUME,
its transmission. -/
def CausalStep (s : Engine) : Event → Prop
  | .datagram data => s.SucceedsOnce (s.onDataReceived data).history
  | e => Machine.Extends Output.SucceedsVolume s.history (s.handle e).history

/-- After a success at `address` a waiting group starts there, and the context is still the entry
that `onDataReceived` has found. -/
def refills (s : Engine) (address : UInt16) (imageReady : Bool) : Bool :=
  let after : Traffic := Traffic.tryStart imageReady s.pendingGroupCommands.length
    { sending := Function.update s.isSending address false
      erasures := s.erasures
      waiting := s.pendingGroupCommands }
  after.sending address && after.erasures address == s.erasures address

/-- The step is no acknowledgement on which a command completes itself and a waiting group takes
its place. -/
def AcksOnce (s : Engine) : Event → Prop
  | .datagram data => ∀ request, Acknowledges s data request →
      s.refills (addressFromPacket data)
        (s.statics.volumeUseCustomData && request.command ≠ .volumeCommand) = false
  | _ => True

section
variable {s s' : Engine} {address : UInt16} {request : Request} {c : PPBContext} {success : Bool}
  {message : String}

/-- The new entries of a completion. -/
theorem Reported.successes {op : Operation} (h : Reported s s' op c success message) :
    ∃ new, s'.history = s.history ++ new ∧
      PPB.successes new = (if success then [op.place] else []) ∧
      ∀ other text, .commandCompleted other true text ∈ new → other = op := by
  obtain ⟨nested, heq, hnested⟩ := h.history
  have hnone : ∀ o ∈ nested, o.succeededPlace = none :=
    fun o ho => succeededPlace_of_isNested (hnested o ho)
  refine ⟨_, heq, ?_, fun other text hmem => ?_⟩
  · rw [successes_append, successes_reportOf, successes_eq_nil hnone, List.append_nil]
  · rcases List.mem_append.mp hmem with hmem | hmem
    · obtain ⟨data, hreport, hdata⟩ := reportOf_eq_cons op c success message
      rw [hreport] at hmem
      rcases List.mem_cons.mp hmem with heq | hmem
      · exact (Output.commandCompleted.inj heq).1
      · rcases hdata _ hmem with ⟨parsed, heq⟩ | ⟨mask, packets, heq⟩ <;> cases heq
    · have hno := hnone _ hmem
      cases hno

theorem SucceedsOnce.of_reported {op : Operation} (h : Reported s s' op c success message)
    (hawaits : s.Awaits op) : s.SucceedsOnce s'.history := by
  obtain ⟨new, heq, hsuccesses, honly⟩ := h.successes
  refine ⟨new, heq, ?_, fun other text hmem => honly other text hmem ▸ hawaits⟩
  rw [hsuccesses]
  cases success <;> simp

theorem SucceedsOnce.refl (s : Engine) : s.SucceedsOnce s.history :=
  ⟨[], (List.append_nil _).symm, by simp, by simp⟩

theorem SucceedsOnce.append {h h' : List Output} (hh : s.SucceedsOnce h)
    (hmore : Machine.Extends (fun o => o.succeededPlace = none) h h') : s.SucceedsOnce h' := by
  obtain ⟨new, rfl, hlength, hawaits⟩ := hh
  obtain ⟨more, rfl, hmore⟩ := hmore
  refine ⟨new ++ more, List.append_assoc .., ?_, fun op text hmem => ?_⟩
  · rwa [successes_append, successes_eq_nil hmore, List.append_nil]
  · rcases List.mem_append.mp hmem with hmem | hmem
    · exact hawaits op text hmem
    · have hno := hmore _ hmem
      cases hno

theorem awaits_of_inFlight {guard : Engine → Event → Prop} (h : Reachable guard s)
    (hflight : InFlight s address c request) : s.Awaits (request.operation address) := by
  have hop : s.inFlightOperation address = some (request.operation address) := by
    simp [inFlightOperation, hflight.found, PPBContext.operation, hflight.uncompleted,
      hflight.command]
  exact ⟨(View.witnessed_of_reach (reach_any h)).flying address _ hop, hop⟩

/-! The acknowledgement of a command that completes itself. -/

/-- The callback drops the image data of a VOLUME, and then completes the operation. -/
theorem runCallback_onOkReceived (s : Engine) (address : UInt16) {command : PPBCommand}
    (h : completesWith command.onOkReceived true = true) :
    ∃ (t : Engine) (message : String), s.runCallback address command.onOkReceived =
        t.completeOperation address true message ∧
      t.view [] = { s.view [] with
        imageReady := s.statics.volumeUseCustomData && command ≠ .volumeCommand } := by
  have hunchanged {command : PPBCommand} (hne : command ≠ .volumeCommand) : s.view [] =
      { s.view [] with
        imageReady := s.statics.volumeUseCustomData && command ≠ .volumeCommand } := by
    simp [hne, view]
  cases command with
  | volumeCommand => exact ⟨{ s with statics := s.statics.clearCurrentVolumeData }, _, rfl,
      by simp [Statics.clearCurrentVolumeData]⟩
  | cleanCommand =>
    exact ⟨{ s with statics := s.statics.clearCurrentVersion }, _, rfl, hunchanged (by simp)⟩
  | prbsM2SCommand => exact ⟨s, _, rfl, hunchanged (by simp)⟩
  | programmCommand => exact ⟨s, _, rfl, hunchanged (by simp)⟩
  | dropCommand => exact ⟨s, _, rfl, hunchanged (by simp)⟩
  | updateCommand => exact ⟨s, _, rfl, hunchanged (by simp)⟩
  | dataCommand cmd data => exact ⟨s, _, rfl, hunchanged (by simp)⟩
  | _ => cases h

/-- A TU reply to the command in flight that is not stale comes to the `switch` on its type. -/
theorem onDataReceived_TUEvent {data : Bytes} {event : ProtocolEvent}
    (hinFlight : s.commandInFlight (addressFromPacket data) = some request)
    (hunclaimed : request.command.commandId = .isYou → parseBridgeResponse data = none)
    (hparse : parseTUResponse data = some event)
    (hstale : isStaleAck request.command data event = false) :
    s.onDataReceived data = s.handleTUEvent (addressFromPacket data) request.command event := by
  have hlength : ¬ data.length < 2 := by
    intro hshort
    match data, hshort with
    | [], _ | [_], _ => cases hparse
  have hclaim : (if request.command.commandId = .isYou then parseBridgeResponse data else none) =
      none := by
    split
    next hcommand => exact hunclaimed hcommand
    next => rfl
  simp only [Engine.onDataReceived, if_neg hlength, hinFlight, dispatchToOperation, hclaim, hparse,
    hstale, Bool.false_eq_true, if_false, Option.getD_some]

/-- What `onDataReceived` does with the acknowledgement. -/
theorem Acknowledges.onDataReceived {data : Bytes} (h : Acknowledges s data request) :
    s.onDataReceived data =
      let s' := s.runCallback (addressFromPacket data) request.command.onOkReceived
      if s'.readCompleted (addressFromPacket data) (s.erasures (addressFromPacket data)) then s'
      else s'.completeOperation (addressFromPacket data) true "Команда выполнена" := by
  obtain ⟨event, hparse, htype, hstale⟩ := h.acknowledged
  rw [onDataReceived_TUEvent h.inFlight h.unclaimed hparse hstale]
  simp only [handleTUEvent, htype]

/-- What a completion with this result leaves before waiting groups try to start. -/
def closedTraffic (s : Engine) (address : UInt16) (success : Bool) : Traffic where
  sending := Function.update s.isSending address false
  erasures :=
    if success = false ∧ s.getState address ≠ .idle then
      Function.update s.erasures address (s.erasures address + 1)
    else s.erasures
  waiting := s.pendingGroupCommands

/-- After a callback and a completion, the waiting groups start as foretold. -/
theorem Prepared.traffic {t : Engine} (h : Prepared s t address c)
    (hflight : InFlight s address c request) (success : Bool) (message : String) :
    (t.completeOperation address success message).traffic =
      Traffic.tryStart t.statics.volumeUseCustomData s.pendingGroupCommands.length
        (s.closedTraffic address success) := by
  obtain ⟨imageReady, parsedSuccess, parsedMessage, parsedData, hview⟩ := h
  have hready : t.statics.volumeUseCustomData = imageReady := congrArg View.imageReady hview
  have hfind : t.findContext address = some (c.withResults parsedSuccess parsedMessage
      parsedData) := by
    change (t.view []).context address = _
    rw [hview]
    exact Function.update_self ..
  have hdone := @view_completeOperationWith tryStartPendingGroupCommands t [] address _ _ success
    message hfind hflight.uncompleted hflight.command
  have hclosed := t.view_closeOperation [] address
    (c.withResults parsedSuccess parsedMessage parsedData) request success message
  rw [hview] at hclosed
  generalize t.closeOperation address _ request success message = closed at hdone hclosed
  have hwaiting : closed.pendingGroupCommands = s.pendingGroupCommands :=
    congrArg View.waiting hclosed
  have himage : closed.statics.volumeUseCustomData = imageReady :=
    congrArg View.imageReady hclosed
  rw [completeOperation, traffic_congr hdone]
  change (tryStartNested _ closed).traffic = _
  rw [traffic_tryStartNested, himage, hready, hwaiting, traffic_congr hclosed]
  congr 1
  simp only [View.traffic, View.closed_state, View.closed_erasures, View.closed_waiting,
    closedTraffic, Traffic.mk.injEq]
  refine ⟨?_, rfl, rfl⟩
  funext b
  rcases eq_or_ne b address with rfl | hne
  · cases success <;> simp
  · simp only [Function.update_of_ne hne, ← traffic_sending]
    rfl

/-- After a success, the waiting groups start as foretold. -/
theorem traffic_completeOperation {t : Engine} {imageReady : Bool}
    (hview : t.view [] = { s.view [] with imageReady }) (hflight : InFlight t address c request) :
    (t.completeOperation address true message).traffic =
      Traffic.tryStart imageReady s.pendingGroupCommands.length
        { sending := Function.update s.isSending address false
          erasures := s.erasures
          waiting := s.pendingGroupCommands } := by
  have hfind : t.findContext = s.findContext := congrArg View.context hview
  have hready : t.statics.volumeUseCustomData = imageReady := congrArg View.imageReady hview
  have hflight' : InFlight s address c request :=
    ⟨hfind ▸ hflight.found, hflight.uncompleted, hflight.command⟩
  rw [(Prepared.image hview hflight'.found).traffic hflight' true message, hready]
  simp only [closedTraffic, Bool.true_eq_false, false_and, if_false]

theorem sound_of_moves {t : Engine} (hsound : (s.view []).Sound)
    (hmoves : Moves .ordinary (s.view []) (t.view [])) : (t.view []).Sound :=
  Machine.invariant_of_steps (P := View.Sound) (fun _ _ hsound hmove => hsound.move hmove) hsound
    hmoves

/-- After a completion, only what has started since can be in flight at the address. -/
theorem Completes.attended (h : Completes s address c request success s') :
    (s'.view []).Attended address := by
  obtain ⟨imageReady, parsedSuccess, parsedMessage, parsedData, message, hstarts⟩ := h
  refine Machine.invariant_of_steps (P := fun v => v.Attended address) (fun v v' hv hmove =>
    Machine.invariant_of_steps (P := fun v => v.Attended address) (fun _ _ => View.Attended.act) hv
      (StartMove.acts hmove)) (fun c' hc hopen => ?_) hstarts
  -- the operation itself is erased or marked as completed
  rw [View.closed_context, Function.update_self] at hc
  split at hc
  · cases hc
  · rw [← Option.some.inj hc] at hopen
    cases hopen

/-- The callback's completion. -/
theorem completes_runCallback (hflight : InFlight s address c request)
    (hcompletes : completesWith request.command.onOkReceived true = true) :
    Completes s address c request true
        (s.runCallback address request.command.onOkReceived) ∧
      (s.runCallback address request.command.onOkReceived).traffic =
        Traffic.tryStart (s.statics.volumeUseCustomData && request.command ≠ .volumeCommand)
          s.pendingGroupCommands.length
          { sending := Function.update s.isSending address false
            erasures := s.erasures
            waiting := s.pendingGroupCommands } := by
  obtain ⟨t, message, hrun, hview⟩ := s.runCallback_onOkReceived address hcompletes
  have hfind : t.findContext = s.findContext := congrArg View.context hview
  have hflight' : InFlight t address c request :=
    ⟨hfind ▸ hflight.found, hflight.uncompleted, hflight.command⟩
  rw [hrun]
  exact ⟨(Prepared.image hview hflight.found).completes true message hflight,
    traffic_completeOperation hview hflight'⟩

/-- The context read after the callback is in flight exactly if a group has taken the place. -/
theorem readCompleted_acknowledged {guard : Engine → Event → Prop} (h : Reachable guard s)
    (hflight : InFlight s address c request)
    (hcompletes : completesWith request.command.onOkReceived true = true) :
    (s.runCallback address request.command.onOkReceived).readCompleted address
        (s.erasures address) =
      !s.refills address (s.statics.volumeUseCustomData && request.command ≠ .volumeCommand) := by
  obtain ⟨hdone, htraffic⟩ := completes_runCallback hflight hcompletes
  generalize s.runCallback address request.command.onOkReceived = s₁ at hdone htraffic ⊢
  have hsound := sound_of_moves (sound h) (hflight.moves hdone)
  have hattended := hdone.attended
  have hrefills : s.refills address (s.statics.volumeUseCustomData &&
      request.command ≠ .volumeCommand) =
        (s₁.isSending address && s₁.erasures address == s.erasures address) := by
    rw [refills, ← htraffic, traffic_sending]
    rfl
  rw [hrefills, readCompleted]
  split
  next herasures =>
    simp only [herasures, beq_self_eq_true, Bool.and_true]
    -- an entry that was not erased: it is in flight if the state map says SendingCommand
    cases hsending : s₁.isSending address with
    | true =>
      obtain ⟨c₁, hfind, hopen⟩ := hsound.sending address ((view_sending_iff []).mpr hsending)
      have hfind : s₁.findContext address = some c₁ := hfind
      simp [hfind, hopen]
    | false =>
      have hidle := (s₁.isSending_eq_false_iff address).mp hsending
      cases hfind : s₁.findContext address with
      | none => rfl
      | some c₁ => exact Bool.not_eq_false _ ▸ fun hopen => hidle (hattended c₁ hfind hopen)
  next herasures => simp [herasures]

/-- The context read is in flight, so its operation is completed as well. -/
theorem inFlight_of_readCompleted {erasures : Nat} (hsound : (s.view []).Sound)
    (hread : s.readCompleted address erasures = false) :
    ∃ c request, InFlight s address c request := by
  unfold readCompleted at hread
  split at hread
  · cases hfind : s.findContext address with
    | none => simp [hfind] at hread
    | some c =>
      obtain ⟨request, hcommand⟩ :=
        Option.isSome_iff_exists.mp (hsound.settled address c hfind).command
      exact ⟨c, request, hfind, by simpa [hfind] using hread, hcommand⟩
  · cases hread

/-! One step. -/

/-- Two successes in one step. -/
theorem not_succeedsOnce {op op' : Operation} {c' : PPBContext} {message' : String} {s'' : Engine}
    (h : Reported s s' op c true message) (h' : Reported s' s'' op' c' true message') :
    ¬ s.SucceedsOnce s''.history := by
  rintro ⟨all, hall, hlength, -⟩
  obtain ⟨new, heq, hsuccesses, -⟩ := h.successes
  obtain ⟨new', heq', hsuccesses', -⟩ := h'.successes
  rw [heq', heq, List.append_assoc] at hall
  rw [← List.append_cancel_left hall, successes_append, hsuccesses, hsuccesses'] at hlength
  simp at hlength

/-- **The acknowledgement of a command that completes itself.** -/
theorem succeedsOnce_acknowledged_iff {guard : Engine → Event → Prop} {data : Bytes}
    (h : Reachable guard s) (hack : Acknowledges s data request) :
    s.SucceedsOnce (s.onDataReceived data).history ↔
      s.refills (addressFromPacket data)
        (s.statics.volumeUseCustomData && request.command ≠ .volumeCommand) = false := by
  obtain ⟨c, hflight⟩ := commandInFlight_eq_some_iff.mp hack.inFlight
  obtain ⟨hdone, -⟩ := completes_runCallback hflight hack.completes
  have hread := readCompleted_acknowledged h hflight hack.completes
  have hawaits := awaits_of_inFlight h hflight
  rw [hack.onDataReceived]
  generalize s.runCallback (addressFromPacket data) request.command.onOkReceived = s₁
    at hdone hread ⊢
  obtain ⟨_, _, _, _, hreported⟩ := hdone.reported
  simp only [hread]
  cases hrefills : s.refills (addressFromPacket data)
      (s.statics.volumeUseCustomData && request.command ≠ .volumeCommand) with
  | false => exact iff_of_true (.of_reported hreported hawaits) rfl
  | true =>
    -- the second completion is a second success
    refine iff_of_false ?_ nofun
    rw [hrefills] at hread
    have hsound := sound_of_moves (sound h) (hflight.moves hdone)
    obtain ⟨c₁, request₁, hflight₁⟩ := inFlight_of_readCompleted hsound hread
    obtain ⟨_, _, _, _, hreported₁⟩ :=
      ((Prepared.refl hflight₁.found).completes true "Команда выполнена" hflight₁).reported
    exact not_succeedsOnce hreported hreported₁

/-- Any other datagram. -/
theorem succeedsOnce_unacknowledged {guard : Engine → Event → Prop} {data : Bytes}
    (h : Reachable guard s) (hnone : ∀ request, ¬ Acknowledges s data request) :
    s.SucceedsOnce (s.onDataReceived data).history := by
  generalize hs' : s.onDataReceived data = s'
  have hreceived := hs' ▸ s.onDataReceived_received data
  cases hreceived with
  | ignored => exact .refl s
  | fuReply message =>
    exact (SucceedsOnce.refl s).append ⟨[_], history_emit s rfl, by simp [Output.succeededPlace]⟩
  | completed success hflight hdone =>
    obtain ⟨_, _, _, _, hreported⟩ := hdone.reported
    exact .of_reported hreported (awaits_of_inFlight h hflight)
  | @twice c request t success success' message' hflight hcompletes hdone hread hfinish =>
    have hsound := sound_of_moves (sound h) (hflight.moves hdone)
    obtain ⟨c₁, request₁, hflight₁⟩ := inFlight_of_readCompleted hsound hread
    -- a new operation has no parse results yet, so it can only be failed
    obtain rfl : success' = false := by
      rw [hfinish.resolve_left (hnone request), hflight₁.found]
      exact (hsound.settled _ c₁ hflight₁.found).success
    obtain ⟨_, _, _, _, hreported⟩ := hdone.reported
    obtain ⟨_, _, _, _, hfailed⟩ :=
      ((Prepared.refl hflight₁.found).completes false message' hflight₁).reported
    obtain ⟨new, heq, hsuccesses, -⟩ := hfailed.successes
    exact (SucceedsOnce.of_reported hreported (awaits_of_inFlight h hflight)).append
      ⟨new, heq, List.filterMap_eq_nil_iff.mp hsuccesses⟩

end

/-- **One step.** Successes have a cause, but for an acknowledgement on which a command completes
itself and a group takes its place. -/
theorem causalStep_iff {guard : Engine → Event → Prop} {s : Engine} {e : Event}
    (h : Reachable guard s) : s.CausalStep e ↔ s.AcksOnce e := by
  have hplain (hdatagram : ∀ data, e ≠ .datagram data) :
      Machine.Extends Output.SucceedsVolume s.history (s.handle e).history := by
    by_cases hposted : ∃ index order, e = .posted index order
    · obtain ⟨index, order, rfl⟩ := hposted
      exact (extends_runPosted_iff tolerates_succeedsVolume index order).mpr
        fun _ _ _ _ _ _ _ heq => nomatch heq
    · exact extends_handle tolerates_succeedsVolume hdatagram fun index order heq =>
        hposted ⟨index, order, heq⟩
  cases e with
  | datagram data =>
    by_cases hack : ∃ request, Acknowledges s data request
    · obtain ⟨request, hack⟩ := hack
      refine (succeedsOnce_acknowledged_iff h hack).trans ⟨fun hfree other hother => ?_, fun hall =>
        hall request hack⟩
      obtain rfl := Option.some.inj (hack.inFlight.symm.trans hother.inFlight)
      exact hfree
    · rw [not_exists] at hack
      exact iff_of_true (succeedsOnce_unacknowledged h hack) fun request hother =>
        absurd hother (hack request)
  | _ => exact iff_of_true (hplain nofun) trivial

/-- **Causes.** In a run none of whose acknowledgements lets a group take the place of a command
that has completed itself, every operation but a VOLUME is reported with success by a datagram
that finds it in flight, and each datagram completes one operation with success at most. -/
theorem along_causal {s : Engine} {events : List Event} (hstart : machine.start s)
    (hrun : (s.run events).isSome) (hacks : s.Along AcksOnce events) :
    s.Along CausalStep events :=
  along_run (fun _ _ h _ hack => (causalStep_iff h).mpr hack) (.start hstart) hrun hacks

theorem along_causal_programm : (init none {}).Along CausalStep
    [.executeCommand .programm 1, .datagram [0, 1, 0, 0x05]] := by
  refine along_causal ⟨none, {}, rfl⟩ (by decide) ⟨trivial, fun request _ => ?_, trivial⟩
  generalize (_ && decide (request.command ≠ .volumeCommand)) = imageReady
  cases imageReady <;> decide

/-- A PROGRAMM is in flight, and a group waits for its address. -/
def beforeTakeover : List Event :=
  [.executeCommand .programm 1, .executeGroupCommand .vers 1 []]

/-- One acknowledgement of the PROGRAMM completes it and the VERS that the group starts. -/
theorem not_along_causal : ¬ ∀ s events, machine.start s → (s.run events).isSome →
    s.Along CausalStep events := by
  intro hall
  obtain ⟨-, -, ⟨new, heq, hlength, -⟩, -⟩ := hall (init none {})
    (beforeTakeover ++ [.datagram [0, 1, 0, 0x05]]) ⟨none, {}, rfl⟩ (by decide)
  have hsuccesses := congrArg successes heq
  rw [successes_append] at hsuccesses
  have hbefore : ((init none {}).run beforeTakeover).map (fun s : Engine => (successes s.history,
      successes (s.onDataReceived [0, 1, 0, 0x05]).history)) =
      some ([], [(1, .single 0), (1, .group 1)]) := by decide
  obtain ⟨hnone, htwo⟩ := Prod.mk.inj (Option.some.inj hbefore)
  have hnew : successes new = [(1, .single 0), (1, .group 1)] := by
    rw [← htwo]
    exact (hsuccesses.trans (hnone ▸ rfl)).symm
  rw [hnew] at hlength
  exact absurd hlength (by decide)

end Engine

end PPB
