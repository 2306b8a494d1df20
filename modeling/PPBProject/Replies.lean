import PPBProject.Dangling
import PPBProject.Ledger

/- Which operation a reply is taken for. `onDataReceived` reads the first two bytes of
   every datagram as an address, tries the parsers in turn, and checks the echoed
   command only of an acknowledgement with status 0. So a bridge reply may be taken by
   an operation at the address its payload happens to spell, a late error ends the
   operation that is in flight now, and an FU reply is lost to a TU operation. Each
   theorem says exactly when that does not happen. -/
namespace PPB

/-- The signals of an operation. -/
def Output.reports (op : Operation) : Output → Bool
  | commandCompleted other _ _ | commandDataParsed other _ | statusReceived other _ _ => other = op
  | _ => false

/-- The FU replies reported, in order. -/
def Output.fuReply : Output → Option (UInt16 × UInt8 × Bool)
  | fuCommandCompleted address command success _ => some (address, command, success)
  | _ => none

def fuReplies (h : List Output) : List (UInt16 × UInt8 × Bool) := h.filterMap Output.fuReply

/-- A completion reports no FU reply. -/
theorem fuReplies_of_concludes {h h' : List Output} (hconcludes : Concludes h h') :
    ∃ new, h' = h ++ new ∧ fuReplies new = [] := by
  obtain ⟨new, heq, hnew⟩ := hconcludes
  refine ⟨new, heq, List.filterMap_eq_nil_iff.mpr fun o ho => ?_⟩
  have hof := hnew o ho
  cases o <;> first | rfl | cases hof

namespace Engine

section
variable {s s' : Engine} {op : Operation} {c : PPBContext} {success : Bool} {message : String}

/-- Something of the operation is reported. -/
theorem Reported.reports (h : Reported s s' op c success message) {new : List Output}
    (hnew : s'.history = s.history ++ new) : ∃ o ∈ new, o.reports op = true := by
  obtain ⟨rest, heq, -⟩ := h.history
  obtain rfl := List.append_cancel_left (hnew.symm.trans heq)
  exact ⟨_, List.mem_append_left _ List.mem_cons_self, by simp [Output.reports]⟩

theorem Reported.completions_ne (h : Reported s s' op c success message) :
    completions s'.history ≠ completions s.history := by
  obtain ⟨rest, heq, -⟩ := h.history
  rw [heq, completions_append, completions_append, completions_reportOf]
  simp

end

/-! Late acknowledgements. -/

/-- The datagram leaves the operation in flight, and reports nothing of it. -/
def Undisturbed (s : Engine) (data : Bytes) (op : Operation) : Prop :=
  (s.onDataReceived data).inFlightOperation op.address = some op ∧
    ∃ new, (s.onDataReceived data).history = s.history ++ new ∧
      ∀ o ∈ new, o.reports op = false

theorem InFlight.inFlightOperation {s : Engine} {address : UInt16} {c : PPBContext}
    {request : Request} (h : InFlight s address c request) :
    s.inFlightOperation address = some (request.operation address) := by
  simp [Engine.inFlightOperation, h.found, PPBContext.operation, h.uncompleted, h.command]

/-- An acknowledgement that echoes another command: with status 0 it is dropped, with any
other it is an error of the operation in flight. -/
theorem onDataReceived_lateAck {s : Engine} {request : Request} {high low status echo : UInt8}
    (hflight : s.commandInFlight (fromBigEndian high low) = some request)
    (hcommand : request.command.commandId ≠ .isYou)
    (hecho : echo ≠ request.command.commandId.code) :
    s.onDataReceived [high, low, status, echo] = if status = 0 then s else
      s.completeOperation (fromBigEndian high low) false
        s!"Ошибка ППБ: 0x{hexPadded status.toNat 2} ({errorCodeToString status})" := by
  have haddress : addressFromPacket [high, low, status, echo] = fromBigEndian high low := rfl
  simp only [onDataReceived, List.length_cons, List.length_nil, haddress, hflight,
    dispatchToOperation, if_neg hcommand]
  by_cases hstatus : status = 0
  · simp [parseTUResponse, hstatus, isStaleAck, hecho]
  · simp [parseTUResponse, hstatus, isStaleAck, handleTUEvent]

/-- An error status ends the operation, whichever command it echoes. -/
theorem lateError_disturbs {s : Engine} {request : Request} {high low status echo : UInt8}
    (hflight : s.commandInFlight (fromBigEndian high low) = some request)
    (hcommand : request.command.commandId ≠ .isYou)
    (hecho : echo ≠ request.command.commandId.code) (hstatus : status ≠ 0) :
    ¬ Undisturbed s [high, low, status, echo] (request.operation (fromBigEndian high low)) := by
  obtain ⟨c, hin⟩ := commandInFlight_eq_some_iff.mp hflight
  rintro ⟨-, new, hnew, hsilent⟩
  rw [onDataReceived_lateAck hflight hcommand hecho, if_neg hstatus] at hnew
  obtain ⟨_, _, _, _, hreported⟩ := ((Prepared.refl hin.found).completes false
    s!"Ошибка ППБ: 0x{hexPadded status.toNat 2} ({errorCodeToString status})" hin).reported
  obtain ⟨o, ho, hreports⟩ := hreported.reports hnew
  rw [hsilent o ho] at hreports
  cases hreports

/-- **A late acknowledgement is harmless exactly when its status is 0.** The echoed command is
compared only for an acknowledgement with status 0; with any other status the datagram ends the
operation that is in flight at that address, whichever command it was sent for. -/
theorem lateAck_undisturbed_iff {s : Engine} {request : Request} {high low status echo : UInt8}
    (hflight : s.commandInFlight (fromBigEndian high low) = some request)
    (hcommand : request.command.commandId ≠ .isYou)
    (hecho : echo ≠ request.command.commandId.code) :
    Undisturbed s [high, low, status, echo] (request.operation (fromBigEndian high low)) ↔
      status = 0 := by
  constructor
  · intro hundisturbed
    by_contra hstatus
    exact lateError_disturbs hflight hcommand hecho hstatus hundisturbed
  · rintro rfl
    obtain ⟨c, hin⟩ := commandInFlight_eq_some_iff.mp hflight
    rw [Undisturbed, onDataReceived_lateAck hflight hcommand hecho, if_pos rfl]
    exact ⟨hin.inFlightOperation, [], (List.append_nil _).symm, by simp⟩

theorem lateAck_undisturbed_vers : Undisturbed versInFlight [0, 1, 0, 0x05]
    { address := 1, origin := .single 0, command := .vers } :=
  (@lateAck_undisturbed_iff versInFlight ⟨.single 0, .versCommand⟩ 0 1 0 0x05 (by decide)
    (by decide) (by decide)).mpr rfl

/-- A late error of a PROGRAMM ends the VERS in flight. -/
theorem lateAck_disturbs : ¬ ∀ s, Reachable AnyStep s → ∀ request high low status echo,
    s.commandInFlight (fromBigEndian high low) = some request →
    request.command.commandId ≠ .isYou → echo ≠ request.command.commandId.code →
    Undisturbed s [high, low, status, echo] (request.operation (fromBigEndian high low)) := by
  intro hall
  have hflight : versInFlight.commandInFlight (fromBigEndian 0 1) =
      some ⟨.single 0, .versCommand⟩ := by decide
  exact lateError_disturbs hflight (by decide) (by decide) (by decide)
    (hall versInFlight (versInFlight_reachable trivial) _ 0 1 3 0x05 hflight (by decide)
      (by decide))

/-! FU replies. -/

/-- The datagram is reported as the FU reply it is, once, and a TU operation whose
acknowledgement it is not stays in flight. -/
def FUAttributed (s : Engine) (high low command status : UInt8) : Prop :=
  (∃ new, (s.onDataReceived [high, low, command, status]).history = s.history ++ new ∧
    fuReplies new = [(fromBigEndian high low, command, decide (status = 1))]) ∧
  ∀ request, s.commandInFlight (fromBigEndian high low) = some request →
    request.command.commandId ∉ [.ts, .tc, .isYou] →
    (s.onDataReceived [high, low, command, status]).inFlightOperation (fromBigEndian high low) =
      s.inFlightOperation (fromBigEndian high low)

/-- A datagram that a TU operation takes reports no FU reply. -/
theorem fuReplies_of_inFlight {s s' : Engine} {request : Request} (data : Bytes)
    (hflight : s.commandInFlight (addressFromPacket data) = some request)
    (haddress : ∀ event, parseBridgeResponse data = some event →
      event.address = addressFromPacket data)
    (h : Received s data s') : ∃ new, s'.history = s.history ++ new ∧ fuReplies new = [] := by
  rcases h.concludes with hconcludes | ⟨event, message, hparse, hnone, -⟩
  · exact fuReplies_of_concludes hconcludes
  · rw [haddress event hparse, hflight] at hnone
    cases hnone

theorem parseBridgeResponse_fu {high low command status : UInt8}
    (hcommand : command = FuCommand.receive.code ∨ command = FuCommand.transmit.code ∨
      command = FuCommand.receiveTransmit.code) :
    parseBridgeResponse [high, low, command, status] =
      some { type := .bridgeResponse, address := fromBigEndian high low, status, command,
             payload := [high, low, command, status] } := by
  have hknown : ¬ (command ≠ FuCommand.receive.code ∧ command ≠ FuCommand.transmit.code ∧
      command ≠ FuCommand.receiveTransmit.code) := by tauto
  simp [parseBridgeResponse, errReply, hknown]

/-- A TU operation at that address takes every such reply for its own acknowledgement: it is dropped
as stale or completes the operation, and is reported to no one as an FU reply. -/
theorem not_fuAttributed {s : Engine} {request : Request} {high low command status : UInt8}
    (hcommand : command = FuCommand.receive.code ∨ command = FuCommand.transmit.code ∨
      command = FuCommand.receiveTransmit.code)
    (hflight : s.commandInFlight (fromBigEndian high low) = some request) :
    ¬ FUAttributed s high low command status := by
  rintro ⟨⟨new, hnew, hreplies⟩, -⟩
  obtain ⟨new', hnew', hnone⟩ := fuReplies_of_inFlight [high, low, command, status] hflight
    (fun event heq => by rw [parseBridgeResponse_fu hcommand] at heq; cases heq; rfl)
    (s.onDataReceived_received [high, low, command, status])
  rw [List.append_cancel_left (hnew.symm.trans hnew'), hnone] at hreplies
  cases hreplies

/-- **An FU reply is attributed exactly where no TU operation is in flight.** -/
theorem fuAttributed_iff {s : Engine} {high low command status : UInt8}
    (hcommand : command = FuCommand.receive.code ∨ command = FuCommand.transmit.code ∨
      command = FuCommand.receiveTransmit.code) :
    FUAttributed s high low command status ↔ s.commandInFlight (fromBigEndian high low) = none := by
  constructor
  · intro hattributed
    by_contra hsome
    obtain ⟨request, hflight⟩ := Option.ne_none_iff_exists'.mp hsome
    exact not_fuAttributed hcommand hflight hattributed
  · intro hnone
    have hreceived : s.onDataReceived [high, low, command, status] =
        s.emit (.fuCommandCompleted (fromBigEndian high low) command (status = 1)
          (if status = 1 then "ФУ команда выполнена" else "Ошибка ФУ")) := by
      have haddress : addressFromPacket [high, low, command, status] = fromBigEndian high low := rfl
      simp [onDataReceived, haddress, hnone, handleUnclaimed, parseBridgeResponse_fu hcommand,
        handleBridgeEvent]
    have hhistory : (s.onDataReceived [high, low, command, status]).history = s.history ++
        [.fuCommandCompleted (fromBigEndian high low) command (status = 1)
          (if status = 1 then "ФУ команда выполнена" else "Ошибка ФУ")] := by
      rw [hreceived, history_emit _ rfl]
    refine ⟨⟨_, hhistory, rfl⟩, fun request hflight => ?_⟩
    rw [hnone] at hflight
    cases hflight

theorem fuAttributed_free : FUAttributed versInFlight 0 2 1 1 :=
  (fuAttributed_iff (by decide)).mpr (by decide)

/-- A VERS in flight swallows the reply to an FU request. -/
theorem fuReply_swallowed : ¬ ∀ s, Reachable AnyStep s → ∀ high low command status,
    (command = FuCommand.receive.code ∨ command = FuCommand.transmit.code ∨
      command = FuCommand.receiveTransmit.code) → (status = 0 ∨ status = 1) →
    FUAttributed s high low command status := by
  intro hall
  have hflight : versInFlight.commandInFlight (fromBigEndian 0 1) =
      some ⟨.single 0, .versCommand⟩ := by decide
  exact not_fuAttributed (by decide) hflight
    (hall versInFlight (versInFlight_reachable trivial) 0 1 1 1 (by decide) (by decide))

end Engine

/-! Bridge replies without an address. -/

namespace View

/-- What nested group starts may do to the entry `held` of an operation that is in flight where the
state map does not say so: they leave it, or they erase it or put commands of their own in its
place. -/
structure Leaves (groups : List PendingGroupCommand) (erasures : Nat) (address : UInt16)
    (held : PPBContext) (v : View) : Prop where
  waiting : v.waiting <:+ groups
  erased : erasures ≤ v.erasures address
  kept : v.erasures address = erasures → v.state address ≠ .sendingCommand →
    v.context address = some held
  taken : v.erasures address ≠ erasures ∨ v.state address = .sendingCommand →
    ∀ c holder, v.context address = some c → c.currentCommand = some holder →
      ∃ g ∈ groups, holder.origin = .group g.groupId

section
variable {v v' : View} {groups : List PendingGroupCommand} {erasures : Nat} {address : UInt16}
  {held : PPBContext}

/-- Nothing has happened at the address. -/
theorem Leaves.same (h : v.Leaves groups erasures address held)
    (hwaiting : v'.waiting <:+ v.waiting) (herasures : v'.erasures address = v.erasures address)
    (hstate : v'.state address = v.state address)
    (hcontext : v'.context address = v.context address) :
    v'.Leaves groups erasures address held := by
  refine ⟨hwaiting.trans h.waiting, herasures ▸ h.erased, ?_, ?_⟩
  · rw [herasures, hstate, hcontext]
    exact h.kept
  · rw [herasures, hstate, hcontext]
    exact h.taken

/-- A member that cannot be built leaves no entry. -/
theorem Leaves.flashed {b : UInt16} {member : Request} {message : String}
    (h : v.Leaves groups erasures address held) :
    (v.flashed b member true false message).Leaves groups erasures address held := by
  rcases eq_or_ne address b with rfl | hne
  · have herased := h.erased
    have hmore : (v.flashed address member true false message).erasures address =
        v.erasures address + 1 := by simp
    have hgone : (v.flashed address member true false message).context address = none := by simp
    refine ⟨h.waiting, by omega, fun heq => ?_, fun _ c holder hcontext => ?_⟩
    · omega
    · rw [hgone] at hcontext
      cases hcontext
  · refine h.same (List.suffix_refl _) ?_ ?_ ?_ <;> simp [hne]

theorem Leaves.begins {groupId : Nat} {mask : UInt16}
    (h : v.Leaves groups erasures address held) (hbegins : Begins v groupId mask v')
    (hgroup : ∃ g ∈ groups, groupId = g.groupId) : v'.Leaves groups erasures address held := by
  cases hbegins with
  | whole command ms =>
    by_cases hmem : address ∈ maskAddresses mask
    · refine ⟨by simpa using h.waiting, by simpa using h.erased, fun _ hidle => ?_,
        fun _ c holder hcontext hholder => ?_⟩
      · exact absurd (by simp [hmem]) hidle
      · obtain ⟨c', hcontext', hcommand⟩ := membersLaunched_command
          (v := v.groupBegun groupId mask) { origin := .group groupId, command } ms hmem
        obtain rfl := Option.some.inj (hcontext.symm.trans hcontext')
        obtain rfl := Option.some.inj (hholder.symm.trans hcommand)
        obtain ⟨g, hg, rfl⟩ := hgroup
        exact ⟨g, hg, rfl⟩
    · refine h.same ?_ ?_ ?_ ?_
      · simp
      · simp
      · simp [hmem]
      · rw [membersLaunched_context_of_notMem _ _ _ _ hmem, groupBegun_context]
  | firstFails =>
    refine Leaves.flashed (h.same ?_ rfl rfl rfl)
    exact List.suffix_refl _

theorem Leaves.startMove (h : v.Leaves groups erasures address held) (hmove : StartMove v v') :
    v'.Leaves groups erasures address held := by
  cases hmove with
  | @waitingGroup front rest _ hwaiting hbegins =>
    have hsuffix : rest <:+ v.waiting := hwaiting ▸ List.suffix_cons front rest
    have hpopped : ({ v with waiting := rest } : View).Leaves groups erasures address held :=
      h.same hsuffix rfl rfl rfl
    have hfront : front ∈ groups := h.waiting.subset (by simp [hwaiting])
    exact hpopped.begins hbegins ⟨front, hfront, rfl⟩
  | memberFails => exact Leaves.flashed (h.same (List.suffix_refl _) rfl rfl rfl)
  | memberSkipped => exact h.same (List.suffix_refl _) rfl rfl rfl

end

end View

namespace Engine

/-- IS_YOU is in flight at the bridge's address, for this request. -/
def IsYouInFlight (s : Engine) (request : Request) : Prop :=
  s.commandInFlight 0 = some request ∧ request.command.commandId = .isYou

/-- What a reply without an address says: the mask of the active PPBs, or a failure. -/
def bridgeAnswer : Bytes → Bool × Option ParsedData
  | [high, low] => (true, some (.activeMask (fromBigEndian high low)))
  | _ => (false, none)

/-- Of the waiting groups, those that start once an operation at address 0 has completed with this
result take the address `b`, though an operation may be in flight there: the state map does not say
so after a `disconnect`. -/
def takesOver (s : Engine) (success : Bool) (b : UInt16) : Bool :=
  let after : Traffic := Traffic.tryStart s.statics.volumeUseCustomData
    s.pendingGroupCommands.length (s.closedTraffic 0 success)
  !s.isSending b && (after.sending b || after.erasures b != s.erasures b)

/-- The reply completes the IS_YOU in flight with what it says and leaves every other operation in
flight, in the context it had; where no IS_YOU is in flight it completes nothing. -/
structure BridgeAttributed (s : Engine) (data : Bytes) : Prop where
  answered : ∀ request, s.IsYouInFlight request →
    (∃ report rest, (s.onDataReceived data).history = s.history ++
      .commandCompleted (request.operation 0) (bridgeAnswer data).1 report ::
        (((bridgeAnswer data).2.map (.commandDataParsed (request.operation 0))).toList ++ rest)) ∧
    ∀ b other, b ≠ 0 → s.commandInFlight b = some other →
      (s.onDataReceived data).commandInFlight b = some other ∧
        (s.onDataReceived data).findContext b = s.findContext b
  unanswered : (∀ request, ¬ s.IsYouInFlight request) →
    completions (s.onDataReceived data).history = completions s.history

/-- Nothing is in flight at the address the payload spells, nor at address 0, but for an IS_YOU that
waits for the reply; and no group that starts when the IS_YOU completes takes over an address where
something is in flight. -/
structure Unambiguous (s : Engine) (data : Bytes) : Prop where
  spelled : s.commandInFlight (addressFromPacket data) = none ∨
    addressFromPacket data = 0 ∧ ∃ request, s.IsYouInFlight request
  bridge : s.commandInFlight 0 = none ∨ ∃ request, s.IsYouInFlight request
  others : (∃ request, s.IsYouInFlight request) → ∀ b, b ≠ 0 → s.commandInFlight b ≠ none →
    s.takesOver (bridgeAnswer data).1 b = false

section
variable {s : Engine} {data : Bytes} {request : Request}

/-- An operation at the address the payload spells is completed, whatever it is. -/
theorem completes_addressless {c : PPBContext} (hdata : IsAddressless data)
    (hflight : InFlight s (addressFromPacket data) c request) : ∃ success,
      Completes s (addressFromPacket data) c request success (s.onDataReceived data) := by
  have hcommand := commandInFlight_eq_some_iff.mpr ⟨c, hflight⟩
  have hcompletes (success : Bool) (message : String) :=
    (Prepared.refl hflight.found).completes success message hflight
  have hbridge (success : Bool) (message : String) (parsed : Option ParsedData) :=
    completes_bridgeReply success message parsed hflight
  have hlength : ¬ data.length < 2 := by
    rcases hdata with h | rfl
    · omega
    · decide
  simp only [onDataReceived, hlength, if_false, hcommand, dispatchToOperation,
    parseBridgeResponse_addressless hdata]
  by_cases hisYou : request.command.commandId = .isYou
  · simp only [hisYou, if_true, Option.getD_some, completeIsYou]
    split
    · exact ⟨_, hbridge ..⟩
    · split
      · exact ⟨_, hbridge ..⟩
      · exact ⟨_, hbridge ..⟩
  · simp only [hisYou, if_false]
    rcases hdata with h | rfl
    -- two bytes are too short for a TU reply and end as an unexpected bridge reply
    · have hnone := (parseTUResponse_none_iff data).mpr (by omega)
      simp only [hnone, Option.map_some, Option.getD_some]
      exact ⟨_, hcompletes ..⟩
    -- "ERR" reads as a TU error with status 0x52
    · have herror : parseTUResponse errReply =
          some { type := .error, address := 0x4552, status := 0x52 } := by decide
      simp only [herror, isStaleAck, reduceCtorEq, false_and, and_false, decide_false,
        Bool.false_eq_true, if_false, Option.getD_some, handleTUEvent]
      exact ⟨_, hcompletes ..⟩

/-- Where nothing is in flight at the address the payload spells, an operation at address 0 takes
the reply. -/
theorem onDataReceived_addressless (hdata : IsAddressless data)
    (hnone : s.commandInFlight (addressFromPacket data) = none) :
    s.onDataReceived data =
      s.handleBridgeEvent { type := .bridgeResponse, payload := data } := by
  have hlength : ¬ data.length < 2 := by
    rcases hdata with h | rfl
    · omega
    · decide
  simp only [onDataReceived, hlength, if_false, hnone, handleUnclaimed,
    parseBridgeResponse_addressless hdata]

theorem completes_atBridge {c : PPBContext} (hdata : IsAddressless data)
    (hnone : s.commandInFlight (addressFromPacket data) = none)
    (hflight : InFlight s 0 c request) :
    ∃ success, Completes s 0 c request success (s.onDataReceived data) := by
  have hcommand := commandInFlight_eq_some_iff.mpr ⟨c, hflight⟩
  have hbridge (success : Bool) (message : String) (parsed : Option ParsedData) :=
    completes_bridgeReply success message parsed hflight
  rw [onDataReceived_addressless hdata hnone]
  simp only [handleBridgeEvent, hcommand]
  split
  · exact ⟨_, hbridge ..⟩
  · split
    · exact ⟨_, hbridge ..⟩
    · exact ⟨_, hbridge ..⟩

/-- The IS_YOU takes the reply: it is tried first at address 0, and last elsewhere. -/
theorem onDataReceived_isYou (hdata : IsAddressless data) (hisYou : s.IsYouInFlight request)
    (hclear : s.commandInFlight (addressFromPacket data) = none ∨ addressFromPacket data = 0) :
    ∃ message, s.onDataReceived data =
      s.completeWithBridgeReply 0 (bridgeAnswer data).1 message (bridgeAnswer data).2 := by
  obtain ⟨hcommand, hid⟩ := hisYou
  by_cases hnone : s.commandInFlight (addressFromPacket data) = none
  · rw [onDataReceived_addressless hdata hnone]
    simp only [handleBridgeEvent, hcommand, hid, or_true, decide_true]
    rcases hdata with h | rfl
    · match data, h with
      | [high, low], _ => exact ⟨_, rfl⟩
    · exact ⟨_, rfl⟩
  · have hzero := hclear.resolve_left hnone
    rcases hdata with h | rfl
    · match data, h with
      | [high, low], _ =>
        simp only [onDataReceived, List.length_cons, List.length_nil, hzero, hcommand,
          dispatchToOperation, hid, if_true, parseBridgeResponse_pair, Option.getD_some,
          completeIsYou]
        exact ⟨_, rfl⟩
    · exact absurd hzero (by decide)

/-- After the IS_YOU, the waiting groups start as foretold. -/
theorem takesOver_completeWithBridgeReply {c : PPBContext} (hflight : InFlight s 0 c request)
    (success : Bool) (message : String) (parsed : Option ParsedData) (b : UInt16) :
    s.takesOver success b = (!s.isSending b &&
      ((s.completeWithBridgeReply 0 success message parsed).isSending b ||
        (s.completeWithBridgeReply 0 success message parsed).erasures b != s.erasures b)) := by
  let stored := hostCall 0 (hostCall 0 s (.setParseResult success message)) (.setParseData parsed)
  have hprepared : Prepared s stored 0 c :=
    ((Prepared.refl hflight.found).hostCall rfl).hostCall rfl
  have hstatics : stored.statics = s.statics :=
    (imageReady_modifyContext ..).trans (imageReady_modifyContext ..)
  have htraffic := hprepared.traffic hflight success message
  rw [hstatics] at htraffic
  rw [takesOver, ← htraffic, traffic_sending]
  rfl

/-- What becomes of an entry whose address is not sending. -/
theorem Completes.leaves {c held : PPBContext} {success : Bool} {s' : Engine} {b : UInt16}
    (h : Completes s 0 c request success s') (hne : b ≠ 0) (hidle : s.isSending b = false)
    (hheld : s.findContext b = some held) :
    (s'.view []).Leaves s.pendingGroupCommands (s.erasures b) b held := by
  obtain ⟨imageReady, parsedSuccess, parsedMessage, parsedData, message, hstarts⟩ := h
  refine Machine.invariant_of_steps (P := fun v => v.Leaves s.pendingGroupCommands
    (s.erasures b) b held) (fun _ _ hv hmove => hv.startMove hmove) ?_ hstarts
  have hstate : (s.view []).state b ≠ .sendingCommand := (s.isSending_eq_false_iff b).mp hidle
  have herasures : (({ s.view [] with imageReady } : View).closed 0 (c.withResults parsedSuccess
      parsedMessage parsedData) request success message).erasures b = s.erasures b := by
    rw [View.closed_erasures]
    split
    · exact Function.update_of_ne hne _ _
    · rfl
  refine ⟨List.suffix_refl _, herasures.ge, fun _ _ => ?_, fun htouched => ?_⟩
  · rw [View.closed_context, Function.update_of_ne hne]
    exact hheld
  · rw [View.closed_state, Function.update_of_ne hne] at htouched
    exact htouched.elim (absurd herasures) fun hsending => absurd hsending hstate

/-- An operation elsewhere stays in flight exactly if no group takes over its address. -/
theorem stays_iff {guard : Engine → Event → Prop} (h : Reachable guard s) {c : PPBContext}
    (hflight : InFlight s 0 c request) (success : Bool) (message : String)
    (parsed : Option ParsedData) {b : UInt16} {other : Request} (hne : b ≠ 0)
    (hother : s.commandInFlight b = some other) :
    let s' := s.completeWithBridgeReply 0 success message parsed
    (s'.commandInFlight b = some other ∧ s'.findContext b = s.findContext b) ↔
      s.takesOver success b = false := by
  intro s'
  obtain ⟨held, hin⟩ := commandInFlight_eq_some_iff.mp hother
  have hdone : Completes s 0 c request success s' :=
    completes_bridgeReply success message parsed hflight
  rw [takesOver_completeWithBridgeReply hflight success message parsed b]
  change _ ↔ (!s.isSending b && (s'.isSending b || s'.erasures b != s.erasures b)) = false
  have hstays (hsame : s'.findContext b = s.findContext b) :
      s'.commandInFlight b = some other ∧ s'.findContext b = s.findContext b :=
    ⟨commandInFlight_eq_some_iff.mpr ⟨held, hsame.trans hin.found, hin.uncompleted, hin.command⟩,
      hsame⟩
  cases hsending : s.isSending b with
  | true =>
    obtain ⟨_, _, _, _, hreported⟩ := hdone.reported
    exact iff_of_true (hstays (hreported.others b hne (.inl hsending)).2) rfl
  | false =>
    have hleaves := hdone.leaves hne hsending hin.found
    have hsending' := s'.isSending_eq_false_iff b
    constructor
    · rintro ⟨-, hsame⟩
      by_contra htouched
      have htouched : (s'.view []).erasures b ≠ s.erasures b ∨
          (s'.view []).state b = .sendingCommand := by
        by_cases hmoved : s'.erasures b = s.erasures b
        · exact .inr ((view_sending_iff []).mpr (by simpa [hmoved] using htouched))
        · exact .inl hmoved
      obtain ⟨g, hwaits, horigin⟩ := hleaves.taken htouched held other
        (hsame.trans hin.found) hin.command
      exact origin_ne_of_waiting h hin hwaits horigin
    · intro huntouched
      have hboth : s'.isSending b = false ∧ s'.erasures b = s.erasures b := by
        simpa using huntouched
      exact hstays ((hleaves.kept hboth.2 (hsending'.mp hboth.1)).trans hin.found.symm)

/-- Without waiting groups nothing is taken over. -/
theorem takesOver_of_no_groups (success : Bool) {b : UInt16} (hne : b ≠ 0)
    (hnone : s.pendingGroupCommands = []) : s.takesOver success b = false := by
  have herasures : (s.closedTraffic 0 success).erasures b = s.erasures b := by
    unfold closedTraffic
    dsimp only
    split
    · exact Function.update_of_ne hne _ _
    · rfl
  have hsending : (s.closedTraffic 0 success).sending b = s.isSending b :=
    Function.update_of_ne hne _ _
  unfold takesOver
  rw [hnone]
  change (!s.isSending b && ((s.closedTraffic 0 success).sending b ||
    (s.closedTraffic 0 success).erasures b != s.erasures b)) = false
  rw [herasures, hsending]
  simp

theorem answered_isYou {guard : Engine → Event → Prop} (h : Reachable guard s)
    (hdata : IsAddressless data) (hisYou : s.IsYouInFlight request)
    (hclear : s.commandInFlight (addressFromPacket data) = none ∨ addressFromPacket data = 0) :
    (∃ report rest, (s.onDataReceived data).history = s.history ++
      .commandCompleted (request.operation 0) (bridgeAnswer data).1 report ::
        (((bridgeAnswer data).2.map (.commandDataParsed (request.operation 0))).toList ++ rest)) ∧
    ∀ b other, b ≠ 0 → s.commandInFlight b = some other →
      ((s.onDataReceived data).commandInFlight b = some other ∧
        (s.onDataReceived data).findContext b = s.findContext b ↔
          s.takesOver (bridgeAnswer data).1 b = false) := by
  obtain ⟨message, hreceived⟩ := onDataReceived_isYou hdata hisYou hclear
  obtain ⟨c, hflight⟩ := commandInFlight_eq_some_iff.mp hisYou.1
  rw [hreceived]
  refine ⟨?_, fun b other hne hother => stays_iff h hflight _ message _ hne hother⟩
  have hreported : Reported s (s.completeWithBridgeReply 0 (bridgeAnswer data).1 message
      (bridgeAnswer data).2) (request.operation 0)
      (c.withResults (bridgeAnswer data).1 message (bridgeAnswer data).2) (bridgeAnswer data).1
      message :=
    @reported_of_starts s _ _ _ _ _ s.statics.volumeUseCustomData _
      (view_completeWithBridgeReply (bridgeAnswer data).1 message (bridgeAnswer data).2 hflight)
  obtain ⟨new, hhistory, -⟩ := hreported.history
  have hts : (request.operation 0).command ≠ .ts := by
    simp [Request.operation, hisYou.2]
  rw [hhistory, reportOf, if_neg fun hboth => hts hboth.1, List.append_nil, List.cons_append]
  exact ⟨_, _, rfl⟩

end

/-- A reply that any other operation can take is taken by it. -/
theorem BridgeAttributed.unambiguous {guard : Engine → Event → Prop} {s : Engine} {data : Bytes}
    (hreach : Reachable guard s) (hdata : IsAddressless data) (h : BridgeAttributed s data) :
    Unambiguous s data := by
  have hother {request : Request} {c : PPBContext}
      (hflight : InFlight s (addressFromPacket data) c request) :
      ∃ success message c', Reported s (s.onDataReceived data)
        (request.operation (addressFromPacket data)) c' success message := by
    obtain ⟨success, hcompletes⟩ := completes_addressless hdata hflight
    obtain ⟨_, _, _, message, hreported⟩ := hcompletes.reported
    exact ⟨success, message, _, hreported⟩
  by_cases hisYou : ∃ request, s.IsYouInFlight request
  · have hspelled : s.commandInFlight (addressFromPacket data) = none ∨
        addressFromPacket data = 0 ∧ ∃ request, s.IsYouInFlight request := by
      by_contra hspelled
      obtain ⟨hsome, hne⟩ := not_or.mp hspelled
      obtain ⟨other, hcommand⟩ := Option.ne_none_iff_exists'.mp hsome
      obtain ⟨c, hflight⟩ := commandInFlight_eq_some_iff.mp hcommand
      obtain ⟨success, message, c', hreported⟩ := hother hflight
      obtain ⟨new, hhistory, -⟩ := hreported.history
      obtain ⟨request, hrequest⟩ := hisYou
      obtain ⟨⟨report, rest, hanswer⟩, -⟩ := h.answered request hrequest
      -- the first report is that of the other operation
      have hsame := List.append_cancel_left (hhistory.symm.trans hanswer)
      rw [reportOf, List.cons_append, List.cons.injEq, Output.commandCompleted.injEq] at hsame
      have haddress : addressFromPacket data = 0 := congrArg Operation.address hsame.1.1
      exact hne ⟨haddress, request, hrequest⟩
    refine ⟨hspelled, .inr hisYou, ?_⟩
    rintro ⟨request, hrequest⟩ b hne hsome
    obtain ⟨other, hcommand⟩ := Option.ne_none_iff_exists'.mp hsome
    obtain ⟨-, hstays⟩ := answered_isYou hreach hdata hrequest (hspelled.imp id And.left)
    exact (hstays b other hne hcommand).mp ((h.answered request hrequest).2 b other hne hcommand)
  -- no IS_YOU is in flight: whatever is completed contradicts `unanswered`
  · have hsame := h.unanswered fun request hrequest => hisYou ⟨request, hrequest⟩
    have hspelled : s.commandInFlight (addressFromPacket data) = none := by
      by_contra hsome
      obtain ⟨other, hcommand⟩ := Option.ne_none_iff_exists'.mp hsome
      obtain ⟨c, hflight⟩ := commandInFlight_eq_some_iff.mp hcommand
      obtain ⟨success, message, c', hreported⟩ := hother hflight
      exact hreported.completions_ne hsame
    refine ⟨.inl hspelled, .inl ?_, fun hsome => absurd hsome hisYou⟩
    by_contra hsome
    obtain ⟨other, hcommand⟩ := Option.ne_none_iff_exists'.mp hsome
    obtain ⟨c, hflight⟩ := commandInFlight_eq_some_iff.mp hcommand
    obtain ⟨success, hcompletes⟩ := completes_atBridge hdata hspelled hflight
    obtain ⟨_, _, _, message, hreported⟩ := hcompletes.reported
    exact hreported.completions_ne hsame

theorem Unambiguous.bridgeAttributed {guard : Engine → Event → Prop} {s : Engine} {data : Bytes}
    (hreach : Reachable guard s) (hdata : IsAddressless data) (h : Unambiguous s data) :
    BridgeAttributed s data := by
  refine ⟨fun request hisYou => ?_, fun hnot => ?_⟩
  · obtain ⟨hanswer, hstays⟩ := answered_isYou hreach hdata hisYou (h.spelled.imp id And.left)
    refine ⟨hanswer, fun b other hne hother => (hstays b other hne hother).mpr ?_⟩
    exact h.others ⟨request, hisYou⟩ b hne (by simp [hother])
  · have hnone : s.commandInFlight (addressFromPacket data) = none :=
      h.spelled.resolve_right fun ⟨_, request, hisYou⟩ => hnot request hisYou
    have hbridge : s.commandInFlight 0 = none :=
      h.bridge.resolve_right fun ⟨request, hisYou⟩ => hnot request hisYou
    rw [onDataReceived_addressless hdata hnone]
    simp only [handleBridgeEvent, hbridge]
    rw [history_emit _ rfl]
    simp [Output.completedOp]

/-- **A reply without an address reaches its IS_YOU exactly when nothing else can take it**, and all
else stays in flight exactly when no group takes its address over. What stands in the way is an
operation at the address that the first two bytes spell, or one at address 0 that is not an IS_YOU;
and, where a `disconnect` has left operations in flight, a group that waits for their addresses. -/
theorem bridgeAttributed_iff {guard : Engine → Event → Prop} {s : Engine} {data : Bytes}
    (hreach : Reachable guard s) (hdata : IsAddressless data) :
    BridgeAttributed s data ↔ Unambiguous s data :=
  ⟨fun h => h.unambiguous hreach hdata, fun h => h.bridgeAttributed hreach hdata⟩

/-- A VERS in flight at address 1 and an IS_YOU at address 0. -/
def isYouBesideVers : Engine := versInFlight.handle (.executeCommand .isYou 0)

theorem isYouBesideVers_reachable : Reachable AnyStep isYouBesideVers :=
  .step (e := .executeCommand .isYou 0) (versInFlight_reachable trivial) trivial ⟨trivial, rfl⟩

/-- Both outlive a `disconnect`. The mask 0x0200 spells an address where nothing is in flight. -/
theorem bridgeAttributed_isYouBesideVers :
    BridgeAttributed (isYouBesideVers.handle .disconnect) [2, 0] := by
  have hreach : Reachable AnyStep (isYouBesideVers.handle .disconnect) :=
    .step (e := .disconnect) isYouBesideVers_reachable trivial ⟨trivial, rfl⟩
  have hisYou : (isYouBesideVers.handle .disconnect).IsYouInFlight ⟨.single 1, .isYouCommand⟩ :=
    ⟨by decide, rfl⟩
  exact (bridgeAttributed_iff hreach (.inl rfl)).mpr ⟨.inl (by decide), .inr ⟨_, hisYou⟩,
    fun _ b hne _ => takesOver_of_no_groups _ hne rfl⟩

/-- The mask 0x0001 is taken by the VERS in flight at address 1. -/
theorem bridgeReply_misattributed : ¬ ∀ s, Reachable AnyStep s → ∀ data, IsAddressless data →
    BridgeAttributed s data := by
  intro hall
  have hunambiguous := (hall _ isYouBesideVers_reachable [0, 1] (.inl rfl)).unambiguous
    isYouBesideVers_reachable (.inl rfl)
  rcases hunambiguous.spelled with hnone | ⟨hzero, -⟩
  · revert hnone
    decide
  · revert hzero
    decide

end Engine

end PPB
