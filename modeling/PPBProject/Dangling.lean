import PPBProject.Causality
import PPBProject.Conduct

/- The pointer that outlives its entry. `onDataReceived` holds a raw `PPBContext*` while the
   command's callback runs, and reads `operationCompleted` through it afterwards. A
   callback that completes the operation may leave nothing there to be read: a failure
   erases the entry, and a group that starts next may put a command of its own into it, or
   erase it in turn. Which of this happens is foretold by `keepsEntry`. -/
namespace PPB

namespace View

/-- What may have become of the entry of `request`: it has been erased, a group has started in it, or
it is as it was left. -/
structure Tracks (groups : List PendingGroupCommand) (erasures : Nat) (address : UInt16)
    (request : Request) (v : View) : Prop where
  waiting : v.waiting <:+ groups
  erased : erasures ≤ v.erasures address
  entry : v.erasures address = erasures → ∃ c holder, v.context address = some c ∧
    c.currentCommand = some holder ∧
      ((v.state address ≠ .sendingCommand ∧ holder = request) ∨
        (v.state address = .sendingCommand ∧ ∃ g ∈ groups, holder.origin = .group g.groupId))

section
variable {v v' : View} {groups : List PendingGroupCommand} {erasures : Nat} {address : UInt16}
  {request : Request}

theorem membersLaunched_command (member : Request) (ms : Nat) {members : List UInt16} {b : UInt16}
    (hb : b ∈ members) : ∃ c, (v.membersLaunched member ms members).context b = some c ∧
      c.currentCommand = some member := by
  induction members generalizing v with
  | nil => cases hb
  | cons first rest ih =>
    rw [membersLaunched_cons]
    by_cases hrest : b ∈ rest
    · exact ih hrest
    · obtain rfl : b = first := (List.mem_cons.mp hb).resolve_right hrest
      rw [membersLaunched_context_of_notMem _ _ _ _ hrest, launched_context,
        Function.update_self]
      exact ⟨_, rfl, rfl⟩

/-- Nothing has happened at the address. -/
theorem Tracks.same (h : v.Tracks groups erasures address request)
    (hwaiting : v'.waiting <:+ v.waiting) (herasures : v'.erasures address = v.erasures address)
    (hstate : v'.state address = v.state address)
    (hcontext : v'.context address = v.context address) :
    v'.Tracks groups erasures address request := by
  refine ⟨hwaiting.trans h.waiting, herasures ▸ h.erased, ?_⟩
  rw [herasures, hstate, hcontext]
  exact h.entry

/-- A member that cannot be built: its own entry is erased. -/
theorem Tracks.flashed {b : UInt16} {member : Request} {message : String}
    (h : v.Tracks groups erasures address request) :
    (v.flashed b member true false message).Tracks groups erasures address request := by
  rcases eq_or_ne address b with rfl | hne
  · have herased := h.erased
    have hmore : (v.flashed address member true false message).erasures address =
        v.erasures address + 1 := by simp
    refine ⟨h.waiting, by omega, fun heq => ?_⟩
    omega
  · refine h.same (List.suffix_refl _) ?_ ?_ ?_ <;> simp [hne]

theorem Tracks.begins {groupId : Nat} {mask : UInt16}
    (h : v.Tracks groups erasures address request) (hbegins : Begins v groupId mask v')
    (hgroup : ∃ g ∈ groups, groupId = g.groupId) :
    v'.Tracks groups erasures address request := by
  cases hbegins with
  | whole command ms =>
    by_cases hmem : address ∈ maskAddresses mask
    · refine ⟨by simpa using h.waiting, by simpa using h.erased, fun _ => ?_⟩
      obtain ⟨c, hcontext, hcommand⟩ := membersLaunched_command (v := v.groupBegun groupId mask)
        { origin := .group groupId, command } ms hmem
      obtain ⟨g, hg, heq⟩ := hgroup
      refine ⟨c, _, hcontext, hcommand, .inr ⟨by simp [hmem], g, hg, by rw [heq]⟩⟩
    · refine h.same ?_ ?_ ?_ ?_
      · simp
      · simp
      · simp [hmem]
      · rw [membersLaunched_context_of_notMem _ _ _ _ hmem, groupBegun_context]
  | firstFails =>
    refine Tracks.flashed (h.same ?_ rfl rfl rfl)
    exact List.suffix_refl _

theorem Tracks.startMove (h : v.Tracks groups erasures address request)
    (hmove : StartMove v v') : v'.Tracks groups erasures address request := by
  cases hmove with
  | @waitingGroup front rest _ hwaiting hbegins =>
    have hsuffix : rest <:+ v.waiting := hwaiting ▸ List.suffix_cons front rest
    have hpopped : ({ v with waiting := rest } : View).Tracks groups erasures address request :=
      h.same hsuffix rfl rfl rfl
    have hfront : front ∈ groups := h.waiting.subset (by simp [hwaiting])
    exact hpopped.begins hbegins ⟨front, hfront, rfl⟩
  | memberFails => exact Tracks.flashed (h.same (List.suffix_refl _) rfl rfl rfl)
  | memberSkipped => exact h.same (List.suffix_refl _) rfl rfl rfl

end

end View

namespace Engine

/-- The entry is still there, and still the operation's, when the callback of `command` has completed
the operation with this result. -/
def keepsEntry (s : Engine) (address : UInt16) (command : PPBCommand) (success : Bool) : Bool :=
  let after : Traffic := Traffic.tryStart
    (s.statics.volumeUseCustomData && command ≠ .volumeCommand) s.pendingGroupCommands.length
    (s.closedTraffic address success)
  !after.sending address && after.erasures address == s.erasures address

/-- On the datagram the callback of the command in flight is called, and makes these calls. -/
structure CallsBack (s : Engine) (data : Bytes) (request : Request) (calls : List HostCall) :
    Prop where
  inFlight : s.commandInFlight (addressFromPacket data) = some request
  unclaimed : request.command.commandId = .isYou → parseBridgeResponse data = none
  called : ∃ event, parseTUResponse data = some event ∧
    isStaleAck request.command data event = false ∧
      (event.type = .ok ∧ calls = request.command.onOkReceived ∨
        event.type = .data ∧ calls = request.command.onDataReceived [event.payload])

/-- What `onDataReceived` reads after the callback is an entry that has not been erased, and that
holds the operation the datagram has found in flight. -/
def ReadsOwn (s : Engine) (data : Bytes) : Prop :=
  ∀ request calls, s.CallsBack data request calls →
    let address := addressFromPacket data
    let s' := s.runCallback address calls
    s'.erasures address = s.erasures address ∧
      ∃ c, s'.findContext address = some c ∧ c.currentCommand = some request

/-- If the callback completes the operation, the entry is kept. -/
def EntryKept (s : Engine) (data : Bytes) : Prop :=
  ∀ request calls success, s.CallsBack data request calls → completesWith calls success = true →
    s.keepsEntry (addressFromPacket data) request.command success = true

section
variable {s t : Engine} {data : Bytes} {address : UInt16} {request : Request} {c : PPBContext}
  {calls : List HostCall} {success : Bool} {message : String}

/-- Where the read is: after the callback, and before anything else. -/
theorem CallsBack.onDataReceived (h : s.CallsBack data request calls) :
    ∃ success message, s.onDataReceived data =
      let s' := s.runCallback (addressFromPacket data) calls
      if s'.readCompleted (addressFromPacket data) (s.erasures (addressFromPacket data)) then s'
      else s'.completeOperation (addressFromPacket data) success message := by
  obtain ⟨event, hparse, hstale, hcalls⟩ := h.called
  rw [onDataReceived_TUEvent h.inFlight h.unclaimed hparse hstale]
  rcases hcalls with ⟨htype, rfl⟩ | ⟨htype, rfl⟩
  · simp only [handleTUEvent, htype]
    exact ⟨_, _, rfl⟩
  · simp only [handleTUEvent, htype]
    exact ⟨_, _, rfl⟩

theorem CallsBack.endsQuietly (h : s.CallsBack data request calls) : EndsQuietly calls := by
  obtain ⟨event, -, -, ⟨-, rfl⟩ | ⟨-, rfl⟩⟩ := h.called
  · exact request.command.onOkReceived_endsQuietly
  · exact request.command.onDataReceived_endsQuietly _

theorem completesWith_of_quiet (hquiet : ∀ call ∈ calls, call.isQuiet = true) (success : Bool) :
    completesWith calls success = false := by
  refine List.any_eq_false.mpr fun call hmem => ?_
  cases call with
  | completeCurrentOperation => cases hquiet _ hmem
  | _ => exact Bool.false_ne_true

theorem completesWith_snoc (hquiet : ∀ call ∈ calls, call.isQuiet = true) (result success : Bool)
    (message : String) :
    completesWith (calls ++ [.completeCurrentOperation result message]) success =
      (result == success) := by
  have hnever := completesWith_of_quiet hquiet success
  unfold completesWith at hnever ⊢
  rw [List.any_append, hnever]
  simp

theorem imageReady_modifyContext (s : Engine) (address : UInt16) (f : PPBContext → PPBContext) :
    (s.modifyContext address f).statics = s.statics := by
  unfold modifyContext
  split
  · rfl
  · rfl

/-- Only `clearCurrentVolumeData`, and a completion, touch the image data. -/
theorem imageReady_runCallback (s : Engine) (hquiet : ∀ call ∈ calls, call.isQuiet = true)
    (hkeeps : .clearCurrentVolumeData ∉ calls) :
    (s.runCallback address calls).statics.volumeUseCustomData = s.statics.volumeUseCustomData := by
  induction calls generalizing s with
  | nil => rfl
  | cons call rest ih =>
    rw [List.mem_cons, not_or] at hkeeps
    have hfirst : (hostCall address s call).statics.volumeUseCustomData =
        s.statics.volumeUseCustomData := by
      cases call with
      | completeCurrentOperation => cases hquiet _ List.mem_cons_self
      | clearCurrentVolumeData => exact absurd rfl hkeeps.1
      | setParseResult success message =>
        exact congrArg Statics.volumeUseCustomData (s.imageReady_modifyContext address _)
      | setParseData data =>
        exact congrArg Statics.volumeUseCustomData (s.imageReady_modifyContext address _)
      | _ => rfl
    rw [← hfirst]
    exact ih _ (fun other hmem => hquiet other (List.mem_cons_of_mem _ hmem)) hkeeps.2

/-- A callback that completes the operation does so in the end, and drops image data if it is that of
a VOLUME. -/
theorem CallsBack.completing (h : s.CallsBack data request calls)
    (hflight : InFlight s address c request) (hcompletes : completesWith calls success = true) :
    ∃ (t : Engine) (message : String), s.runCallback address calls =
        t.completeOperation address success message ∧ Prepared s t address c ∧
      t.statics.volumeUseCustomData =
        (s.statics.volumeUseCustomData && request.command ≠ .volumeCommand) := by
  have hends := h.endsQuietly
  obtain ⟨event, -, -, ⟨-, rfl⟩ | ⟨-, rfl⟩⟩ := h.called
  · obtain rfl := request.command.eq_true_of_onOkReceived_completes hcompletes
    obtain ⟨t, message, hrun, hview⟩ := s.runCallback_onOkReceived address hcompletes
    exact ⟨t, message, hrun, .image hview hflight.found, congrArg View.imageReady hview⟩
  · have hclears := not_clears_image request.command [event.payload]
    -- of all commands PRBS_S2M alone completes its operation on data
    have hcommand : request.command = .prbsS2MCommand := by
      by_contra hother
      have hquiet := PPBCommand.onDataReceived_quiet hother [event.payload]
      have hnever := completesWith_of_quiet hquiet success
      rw [hcompletes] at hnever
      cases hnever
    rcases hends with hquiet | ⟨pre, result, message, hquiet, hcalls⟩
    · have hnever := completesWith_of_quiet hquiet success
      rw [hcompletes] at hnever
      cases hnever
    · rw [hcalls] at hclears hcompletes ⊢
      obtain rfl : result = success := by
        rw [completesWith_snoc hquiet] at hcompletes
        exact beq_iff_eq.mp hcompletes
      refine ⟨s.runCallback address pre, message, runCallback_append .., ?_, ?_⟩
      · exact (Prepared.refl hflight.found).runCallback hquiet
      · rw [imageReady_runCallback s hquiet fun hmem => hclears (List.mem_append_left _ hmem)]
        simp [hcommand]

/-- **What has become of the entry** after the operation has completed. -/
theorem Completes.tracks {s' : Engine} (h : Completes s address c request success s')
    (hcommand : c.currentCommand = some request) :
    (s'.view []).Tracks s.pendingGroupCommands (s.erasures address) address request := by
  obtain ⟨imageReady, parsedSuccess, parsedMessage, parsedData, message, hstarts⟩ := h
  refine Machine.invariant_of_steps (P := fun v => v.Tracks s.pendingGroupCommands
    (s.erasures address) address request) (fun _ _ hv hmove => hv.startMove hmove) ?_ hstarts
  refine ⟨List.suffix_refl _, ?_, fun heq => ?_⟩
  · rw [View.closed_erasures]
    split
    · simp [view]
    · exact le_refl _
  · rw [View.closed_erasures] at heq
    rw [View.closed_context, View.closed_state, Function.update_self, Function.update_self]
    split at heq
    · -- the failure has erased the entry
      simp [view] at heq
    next hkept =>
      rw [if_neg hkept]
      refine ⟨_, request, rfl, hcommand, .inl ⟨?_, rfl⟩⟩
      cases success <;> simp

/-- The group of an operation that has started waits no more. -/
theorem origin_ne_of_waiting {guard : Engine → Event → Prop} (h : Reachable guard s)
    (hflight : InFlight s address c request) {g : PendingGroupCommand}
    (hwaits : g ∈ s.pendingGroupCommands) : request.origin ≠ .group g.groupId := by
  intro horigin
  have hzero := ((View.unique_of_reach (reach_any h)).waiting g hwaits).2 address
  have hstarted := (awaits_of_inFlight h hflight).1
  have hplace : (address, Origin.group g.groupId) ∈ (starts s.history).map Operation.place :=
    List.mem_map.mpr ⟨_, hstarted, by rw [← horigin]; rfl⟩
  have hpos := List.count_pos_iff.mpr hplace
  have hzero : ((starts s.history).map Operation.place).count (address, .group g.groupId) +
      (s.view []).starting.count (g.groupId, address) = 0 := hzero
  omega

/-- **One read.** -/
theorem entry_iff {guard : Engine → Event → Prop} (h : Reachable guard s)
    (hcalls : s.CallsBack data request calls) :
    ((s.runCallback (addressFromPacket data) calls).erasures (addressFromPacket data) =
        s.erasures (addressFromPacket data) ∧
      ∃ c, (s.runCallback (addressFromPacket data) calls).findContext (addressFromPacket data) =
        some c ∧ c.currentCommand = some request) ↔
    ∀ success, completesWith calls success = true →
      s.keepsEntry (addressFromPacket data) request.command success = true := by
  obtain ⟨c, hflight⟩ := commandInFlight_eq_some_iff.mp hcalls.inFlight
  generalize haddress : addressFromPacket data = address at hflight ⊢
  rcases hcalls.endsQuietly with hquiet | ⟨pre, result, message, hquiet, hends⟩
  · -- the operation is still in flight, in its own entry
    obtain ⟨imageReady, parsedSuccess, parsedMessage, parsedData, hview⟩ :=
      (Prepared.refl hflight.found).runCallback hquiet
    refine iff_of_true ⟨?_, ?_⟩ fun success hcompletes => ?_
    · exact congrFun (congrArg View.erasures hview) address
    · refine ⟨c.withResults parsedSuccess parsedMessage parsedData, ?_, hflight.command⟩
      exact (congrFun (congrArg View.context hview) address).trans (Function.update_self ..)
    · rw [completesWith_of_quiet hquiet] at hcompletes
      cases hcompletes
  · have hresult : completesWith calls result = true := by
      rw [hends, completesWith_snoc hquiet]
      exact beq_self_eq_true result
    have honly {success : Bool} (hcompletes : completesWith calls success = true) :
        result = success := by
      rw [hends, completesWith_snoc hquiet] at hcompletes
      exact beq_iff_eq.mp hcompletes
    obtain ⟨t, text, hrun, hprepared, hready⟩ := hcalls.completing hflight hresult
    have htraffic := hprepared.traffic hflight result text
    have htracks := (hprepared.completes result text hflight).tracks hflight.command
    rw [hready] at htraffic
    rw [hrun]
    generalize t.completeOperation address result text = s' at htraffic htracks
    have hkeeps : s.keepsEntry address request.command result =
        (!s'.isSending address && s'.erasures address == s.erasures address) := by
      rw [keepsEntry, ← htraffic, traffic_sending]
      rfl
    have hiff : (∀ success, completesWith calls success = true →
        s.keepsEntry address request.command success = true) ↔
          s'.isSending address = false ∧ s'.erasures address = s.erasures address := by
      constructor
      · intro hall
        have hkept := hall result hresult
        rw [hkeeps] at hkept
        simpa using hkept
      · rintro ⟨hidle, herasures⟩ success hcompletes
        rw [← honly hcompletes, hkeeps]
        simp [hidle, herasures]
    rw [hiff, and_comm]
    refine and_congr_left fun herasures => ?_
    obtain ⟨c', holder, hfind, hholder, hentry⟩ := htracks.entry herasures
    have hfind : s'.findContext address = some c' := hfind
    rw [isSending_eq_false_iff]
    rcases hentry with ⟨hidle, rfl⟩ | ⟨hsending, g, hwaits, horigin⟩
    · exact iff_of_true ⟨c', hfind, hholder⟩ hidle
    · -- a group's command is in the entry now
      refine iff_of_false ?_ (absurd hsending)
      rintro ⟨c'', hfind', hcommand⟩
      rw [hfind] at hfind'
      obtain rfl := Option.some.inj hfind'
      rw [hholder] at hcommand
      obtain rfl := Option.some.inj hcommand
      exact origin_ne_of_waiting h hflight hwaits horigin

end

/-- **The read after the callback is of the operation's own entry** exactly if a callback that
completes the operation leaves the entry there: it does not fail where the state map knows of the
operation, and no group that starts next takes the address. -/
theorem readsOwn_iff {guard : Engine → Event → Prop} {s : Engine} {data : Bytes}
    (h : Reachable guard s) : s.ReadsOwn data ↔ s.EntryKept data := by
  constructor
  · intro hreads request calls success hcalls
    exact (entry_iff h hcalls).mp (hreads request calls hcalls) success
  · intro hkept request calls hcalls
    exact (entry_iff h hcalls).mpr fun success => hkept request calls success hcalls

/-- A PROGRAMM is in flight, and nothing waits for its address. -/
theorem readsOwn_iff_programm :
    ((init none {}).handle (.executeCommand .programm 1)).ReadsOwn [0, 1, 0, 0x05] := by
  have hreach : Reachable AnyStep ((init none {}).handle (.executeCommand .programm 1)) :=
    .step (.start ⟨none, {}, rfl⟩) trivial ⟨by decide, rfl⟩
  refine (readsOwn_iff hreach).mpr fun request calls success hcalls hcompletes => ?_
  have hrequest : request = ⟨.single 0, .programmCommand⟩ := by
    have hflight : some (⟨.single 0, .programmCommand⟩ : Request) = some request := hcalls.inFlight
    exact (Option.some.inj hflight).symm
  subst hrequest
  have hsuccess : success = true := by
    obtain ⟨event, hparse, -, ⟨-, rfl⟩ | ⟨htype, -⟩⟩ := hcalls.called
    · exact PPBCommand.programmCommand.eq_true_of_onOkReceived_completes hcompletes
    · cases hparse
      cases htype
  subst hsuccess
  decide

/-- A PRBS_S2M is in flight. -/
def testSequenceInFlight : Engine := (init none {}).handle (.executeCommand .prbsS2M 1)

/-- Data that is no test sequence fails the operation, and the entry read next is erased. -/
theorem not_readsOwn : ¬ ∀ s data, Reachable AnyStep s → s.ReadsOwn data := by
  intro hall
  have hreach : Reachable AnyStep testSequenceInFlight :=
    .step (.start ⟨none, {}, rfl⟩) trivial ⟨by decide, rfl⟩
  have hcalls : testSequenceInFlight.CallsBack [0, 1, 0, 0x12, 0x34]
      ⟨.single 0, .prbsS2MCommand⟩ (PPBCommand.prbsS2MCommand.onDataReceived [[0x12, 0x34]]) :=
    ⟨by decide, nofun, _, rfl, rfl, .inr ⟨rfl, rfl⟩⟩
  obtain ⟨herasures, -⟩ := hall _ _ hreach _ _ hcalls
  exact absurd herasures (by decide)

end Engine

end PPB
