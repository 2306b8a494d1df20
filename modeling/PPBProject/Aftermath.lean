import PPBProject.Refinement

/- What the group starts that a completion sets off can do. They leave every operation
   in flight and the bridge's address alone, and all they complete is a member of a
   VOLUME group, with a failure. So a completion is its own report and little else
   (`Reported`). -/
namespace PPB

/-- Entries that group starts make. -/
def Output.isNested : Output → Bool
  | groupStarted .. | groupCommandCompleted .. => true
  | started op _ | commandDataParsed op _ => op.address != 0
  | commandCompleted op success _ => op.address != 0 && op.command = .volume && !success
  | _ => false

/-- From `v` to `v'` nothing happened to operations in flight, or to the bridge's address. -/
structure Stirred (v v' : View) : Prop where
  history : Machine.Extends (fun o => o.isNested = true) v.history v'.history
  state : ∀ a, v.state a = .sendingCommand ∨ a = 0 → v'.state a = v.state a
  context : ∀ a, v.state a = .sendingCommand ∨ a = 0 → v'.context a = v.context a

section
variable {v v' : View} {groupId : Nat}

theorem Stirred.same (hhistory : v'.history = v.history) (hstate : v'.state = v.state)
    (hcontext : v'.context = v.context) : Stirred v v' where
  history := hhistory ▸ .refl _
  state _ _ := by rw [hstate]
  context _ _ := by rw [hcontext]

theorem Stirred.trans {v'' : View} (h : Stirred v v') (h' : Stirred v' v'') : Stirred v v'' where
  history := h.history.trans h'.history
  state a ha := (h'.state a (ha.imp_left fun hsending => (h.state a ha).trans hsending)).trans
    (h.state a ha)
  context a ha := (h'.context a (ha.imp_left fun hsending => (h.state a ha).trans hsending)).trans
    (h.context a ha)

theorem isNested_of_mem_settleGroups {address : UInt16} {success : Bool}
    {groups : List (Nat × GroupInfo)} {o : Output}
    (h : o ∈ (Engine.settleGroups address success groups).2) : o.isNested = true := by
  obtain ⟨entry, -, -, -, rfl⟩ := Engine.mem_settleGroups_snd _ _ _ h
  rfl

/-- A member of a VOLUME group that fails at once. -/
theorem stirred_flashed {address : UInt16} {message : String}
    (hidle : v.state address ≠ .sendingCommand) (haddress : address ≠ 0) :
    Stirred v (v.flashed address { origin := .group groupId, command := .volumeCommand } true false
      message) := by
  have hne {a : UInt16} (ha : v.state a = .sendingCommand ∨ a = 0) : a ≠ address := by
    rintro rfl
    exact ha.elim hidle haddress
  refine ⟨⟨_, v.flashed_history .., fun o ho => ?_⟩, fun a ha => ?_, fun a ha => ?_⟩
  · rcases List.mem_cons.mp ho with rfl | ho
    · simpa [Output.isNested, Request.operation] using haddress
    · rcases List.mem_append.mp ho with ho | ho
      · simp only [Engine.reportOf, Request.operation, List.mem_cons, List.mem_append,
          Option.mem_toList, Option.map_eq_some_iff] at ho
        rcases ho with rfl | ⟨data, -, rfl⟩ | ho
        · simpa [Output.isNested, PPBCommand.commandId] using haddress
        · simpa [Output.isNested] using haddress
        · simp [PPBCommand.commandId] at ho
      · exact isNested_of_mem_settleGroups ho
  · rw [View.flashed_state, Function.update_of_ne (hne ha)]
  · rw [View.flashed_context, Function.update_of_ne (hne ha)]

theorem Begins.stirred {mask : UInt16} (h : Begins v groupId mask v')
    (hturns : ∀ turn ∈ v.starting, turn.2 ≠ 0) :
    Stirred v v' ∧ ∀ turn ∈ v'.starting, turn.2 ≠ 0 := by
  have hzero {a : UInt16} (ha : a ∈ maskAddresses mask) : a ≠ 0 :=
    fun heq => zero_notMem_maskAddresses mask (heq ▸ ha)
  cases h with
  | whole command ms _ hidle =>
    -- members are free addresses, and none is the address of the bridge
    have hnotMem {a : UInt16} (ha : v.state a = .sendingCommand ∨ a = 0) :
        a ∉ maskAddresses mask := fun hmem => ha.elim (hidle a hmem) (hzero hmem)
    refine ⟨⟨⟨_, by rw [View.membersLaunched_history, View.groupBegun_history, List.append_assoc],
      fun o ho => ?_⟩, fun a ha => ?_, fun a ha => ?_⟩, by simpa using hturns⟩
    · rcases List.mem_cons.mp ho with rfl | ho
      · rfl
      · obtain ⟨a, ha, rfl⟩ := List.mem_map.mp ho
        simpa [Output.isNested, Request.operation] using hzero ha
    · rw [View.membersLaunched_state, if_neg (hnotMem ha), View.groupBegun_state]
    · rw [View.membersLaunched_context_of_notMem _ _ _ _ (hnotMem ha), View.groupBegun_context]
  | @firstFails message first rest _ hidle hcons =>
    have hfirst : first ∈ maskAddresses mask := by simp [hcons]
    have hbegun : Stirred v (({ v with
        starting := rest.map (groupId, ·) ++ v.starting } : View).groupBegun groupId mask) :=
      ⟨⟨_, rfl, by simp [Output.isNested]⟩, fun _ _ => rfl, fun _ _ => rfl⟩
    refine ⟨hbegun.trans (stirred_flashed (hidle first hfirst) (hzero hfirst)),
      fun turn hturn => ?_⟩
    simp only [View.flashed_starting, View.groupBegun_starting, List.mem_append,
      List.mem_map] at hturn
    rcases hturn with ⟨a, ha, rfl⟩ | hturn
    · exact hzero (by simp [hcons, ha])
    · exact hturns turn hturn

theorem StartMove.stirred (h : StartMove v v') (hturns : ∀ turn ∈ v.starting, turn.2 ≠ 0) :
    Stirred v v' ∧ ∀ turn ∈ v'.starting, turn.2 ≠ 0 := by
  cases h with
  | @waitingGroup _ rest _ hwaiting hbegins =>
    have hpopped : Stirred v { v with waiting := rest } := .same rfl rfl rfl
    obtain ⟨hstirred, hturns⟩ := hbegins.stirred hturns
    exact ⟨hpopped.trans hstirred, hturns⟩
  | @memberFails message groupId address rest hstarting hidle =>
    have hturn : Stirred v { v with starting := rest } := .same rfl rfl rfl
    have haddress : address ≠ 0 := hturns (groupId, address) (by simp [hstarting])
    exact ⟨hturn.trans (stirred_flashed hidle haddress),
      fun turn hturn => hturns turn (by simp [hstarting, show turn ∈ rest from hturn])⟩
  | @memberSkipped _ _ rest hstarting =>
    have hturn : Stirred v { v with starting := rest } := .same rfl rfl rfl
    exact ⟨hturn, fun turn hturn => hturns turn (by simp [hstarting, show turn ∈ rest from hturn])⟩

theorem Starts.stirred (h : Starts v v') (hturns : ∀ turn ∈ v.starting, turn.2 ≠ 0) :
    Stirred v v' := by
  have hboth : Stirred v v' ∧ ∀ turn ∈ v'.starting, turn.2 ≠ 0 := by
    refine Machine.invariant_of_steps
      (P := fun w => Stirred v w ∧ ∀ turn ∈ w.starting, turn.2 ≠ 0) (fun w w' hw hmove => ?_)
      ⟨.same rfl rfl rfl, hturns⟩ h
    obtain ⟨hstirred, hturns⟩ := StartMove.stirred hmove hw.2
    exact ⟨hw.1.trans hstirred, hturns⟩
  exact hboth.1

end

namespace Engine

/-- From `s` to `s'` the operation at `address`, in the context `c`, completed: its report comes
first, and the operations in flight elsewhere stay in flight. -/
structure Reported (s s' : Engine) (op : Operation) (c : PPBContext) (success : Bool)
    (message : String) : Prop where
  history : ∃ new, s'.history = s.history ++ (reportOf op c success message ++ new) ∧
    ∀ o ∈ new, o.isNested = true
  others : ∀ b, b ≠ op.address → s.isSending b = true ∨ b = 0 →
    s'.getState b = s.getState b ∧ s'.findContext b = s.findContext b

theorem reported_of_starts {s s' : Engine} {address : UInt16} {c : PPBContext} {request : Request}
    {success imageReady : Bool} {message : String}
    (h : Starts (({ s.view [] with imageReady } : View).closed address c request success message)
      (s'.view [])) : Reported s s' (request.operation address) c success message := by
  have hstirred := Starts.stirred h (by simp [view])
  refine ⟨?_, fun b hne hb => ?_⟩
  · obtain ⟨new, heq, hnew⟩ := hstirred.history
    refine ⟨(settleGroups address success s.groupOperations).2 ++ new, ?_, fun o ho => ?_⟩
    · rw [View.closed_history, List.append_assoc, List.append_assoc] at heq
      exact heq
    · exact (List.mem_append.mp ho).elim isNested_of_mem_settleGroups (hnew o)
  · have hne : b ≠ address := hne
    have hsame : (s.view []).state b = .sendingCommand ∨ b = 0 :=
      hb.imp_left (view_sending_iff _).mpr
    have hclosed : (({ s.view [] with imageReady } : View).closed address c request success
        message).state b = (s.view []).state b := by
      rw [View.closed_state, Function.update_of_ne hne]
    refine ⟨(hstirred.state b (by rwa [hclosed])).trans hclosed,
      (hstirred.context b (by rwa [hclosed])).trans ?_⟩
    rw [View.closed_context, Function.update_of_ne hne]
    rfl

theorem Completes.reported {s s' : Engine} {address : UInt16} {c : PPBContext} {request : Request}
    {success : Bool} (h : Completes s address c request success s') :
    ∃ parsedSuccess parsedMessage parsedData message, Reported s s' (request.operation address)
      (c.withResults parsedSuccess parsedMessage parsedData) success message := by
  obtain ⟨imageReady, parsedSuccess, parsedMessage, parsedData, message, hstarts⟩ := h
  exact ⟨parsedSuccess, parsedMessage, parsedData, message, reported_of_starts hstarts⟩

end Engine

/-- Entries that a completion makes: its report, and what the group starts after it add. -/
def Output.ofCompletion : Output → Bool
  | groupStarted .. | groupCommandCompleted .. | commandCompleted .. | commandDataParsed ..
  | statusReceived .. => true
  | started op _ => op.address != 0
  | _ => false

theorem Output.ofCompletion_of_isNested {o : Output} (h : o.isNested = true) :
    o.ofCompletion = true := by
  cases o <;> first | rfl | exact h

theorem ofCompletion_of_mem_reportOf {op : Operation} {c : PPBContext} {success : Bool}
    {message : String} {o : Output} (h : o ∈ Engine.reportOf op c success message) :
    o.ofCompletion = true := by
  obtain ⟨data, hreport, hdata⟩ := Engine.reportOf_eq_cons op c success message
  rw [hreport] at h
  rcases List.mem_cons.mp h with rfl | h
  · rfl
  · rcases hdata o h with ⟨parsed, rfl⟩ | ⟨mask, packets, rfl⟩ <;> rfl

/-- The history grows by what completions make. -/
abbrev Concludes : List Output → List Output → Prop :=
  Machine.Extends fun o => o.ofCompletion = true

namespace Engine

theorem Reported.concludes {s s' : Engine} {op : Operation} {c : PPBContext} {success : Bool}
    {message : String} (h : Reported s s' op c success message) :
    Concludes s.history s'.history := by
  obtain ⟨new, heq, hnested⟩ := h.history
  refine ⟨_, heq, fun o ho => ?_⟩
  rcases List.mem_append.mp ho with ho | ho
  · exact ofCompletion_of_mem_reportOf ho
  · exact Output.ofCompletion_of_isNested (hnested o ho)

theorem Completes.concludes {s s' : Engine} {address : UInt16} {c : PPBContext} {request : Request}
    {success : Bool} (h : Completes s address c request success s') :
    Concludes s.history s'.history := by
  obtain ⟨_, _, _, _, hreported⟩ := h.reported
  exact hreported.concludes

theorem completeOperation_concludes (s : Engine) (address : UInt16) (success : Bool)
    (message : String) :
    Concludes s.history (s.completeOperation address success message).history := by
  cases hflight : s.commandInFlight address with
  | none =>
    rw [completeOperation_eq_self success message hflight]
    exact .refl _
  | some request =>
    obtain ⟨c, hin⟩ := commandInFlight_eq_some_iff.mp hflight
    exact ((Prepared.refl hin.found).completes success message hin).concludes

/-- What `executeGroupCommand` adds to the history: nothing, or the acceptance of the group whose id
it returns, and what the start of the group adds. -/
theorem executeGroupCommand_history (s : Engine) (cmd : TechCommand) (mask : UInt16)
    (data : Bytes) :
    (s.executeGroupCommand cmd mask data).2 = 0 ∧
        (s.executeGroupCommand cmd mask data).1.history = s.history ∨
      ∃ queued, Machine.Extends (fun o => o.isNested = true)
        (s.history ++ [.groupAccepted (s.executeGroupCommand cmd mask data).2 mask queued])
        (s.executeGroupCommand cmd mask data).1.history := by
  have hother (o : Output) (h : o.isRecord = false) : (s.emit o).history = s.history :=
    congrArg View.history (view_emit_other s [] h)
  unfold executeGroupCommand
  split
  next => exact .inl ⟨rfl, hother _ rfl⟩
  next nonempty =>
    split
    next known =>
      right
      dsimp only
      split
      next =>
        refine ⟨true, [], ?_, by simp⟩
        change View.history (view _ []) = _
        rw [view_pushPending, view_emit, List.append_nil]
        rfl
      next hcan =>
        rw [Bool.not_eq_true', Bool.not_eq_false] at hcan
        obtain ⟨hstarted, v, hbegins, hstarts⟩ := view_startGroupCommandWith
          (fun t => view_tryStartPendingGroupCommands t)
          (({ s with nextGroupId := s.nextGroupId + 1 } : Engine).emit
            (.groupAccepted s.nextGroupId mask false)) [] s.nextGroupId cmd mask data known hcan
        simp only [startGroupCommand, hstarted, if_true]
        refine ⟨false, ?_⟩
        rw [view_emit] at hbegins
        obtain ⟨hbegun, hturns⟩ := hbegins.stirred (by simp [view])
        exact (hbegun.trans (hstarts.stirred hturns)).history
    next => exact .inl ⟨rfl, hother _ rfl⟩

/-- A datagram makes completions, or is reported as an FU reply. -/
theorem Received.concludes {s s' : Engine} {data : Bytes} (h : Received s data s') :
    Concludes s.history s'.history ∨ ∃ event message, parseBridgeResponse data = some event ∧
      s.commandInFlight event.address = none ∧ s' = s.emit (.fuCommandCompleted event.address
        event.command (event.status = 1) message) := by
  cases h with
  | ignored => exact .inl (.refl _)
  | fuReply message hparse hnone => exact .inr ⟨_, message, hparse, hnone, rfl⟩
  | completed success _ hcompletes => exact .inl hcompletes.concludes
  | twice success success' message' _ _ hcompletes _ _ =>
    exact .inl (hcompletes.concludes.trans (completeOperation_concludes ..))

end Engine

end PPB
