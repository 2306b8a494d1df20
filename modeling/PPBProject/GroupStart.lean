import PPBProject.Groups
import PPBProject.Prbs

/- The start of a group as a whole: its members, and the broadcast that asks them all.

   A member whose request cannot be built completes at once, inside the loop, and that completion
   may start another group. The broadcast follows all the same. -/
namespace PPB

namespace Engine

variable {s : Engine} {groupId : Nat} {cmd : TechCommand} {mask : UInt16} {data : Bytes}

/-- The group is active, and none of its members has had its turn. -/
def groupRegistered (s : Engine) (groupId : Nat) (mask : UInt16) : Engine :=
  let group : GroupInfo := { pendingAddresses := maskAddresses mask }
  { s with groupOperations := insertGroup groupId group s.groupOperations }.emit
    (.groupStarted groupId mask)

/-- All members have had their turn; the broadcast comes next. -/
def membersStarted (s : Engine) (groupId : Nat) (cmd : TechCommand) (mask : UInt16) : Engine :=
  match create cmd with
  | none => s
  | some command =>
    startMembersWith tryStartPendingGroupCommands { origin := .group groupId, command }
      (s.groupRegistered groupId mask) (maskAddresses mask)

/-- What is in flight at `address` is the group's. -/
def Serves (s : Engine) (address : UInt16) (groupId : Nat) : Prop :=
  ∃ request, s.commandInFlight address = some request ∧ request.origin = .group groupId

/-- The broadcast is handed to UDP. -/
def Broadcasts (s : Engine) (groupId : Nat) (cmd : TechCommand) (mask : UInt16) (data : Bytes) :
    Prop :=
  ∃ destination, .datagramSent destination (groupRequest cmd mask data) ∈
    (s.startGroupCommand groupId cmd mask data).1.log.drop
      (s.membersStarted groupId cmd mask).log.length

/-- The group is reported failed, here or by the caller that learns it was not started. -/
def ReportsFailure (s : Engine) (groupId : Nat) (cmd : TechCommand) (mask : UInt16)
    (data : Bytes) : Prop :=
  (s.startGroupCommand groupId cmd mask data).2 = false ∨
    ∃ summary, .groupCommandCompleted groupId false summary ∈
      (s.startGroupCommand groupId cmd mask data).1.log.drop s.log.length

structure AllOrNothing (s : Engine) (groupId : Nat) (cmd : TechCommand) (mask : UInt16)
    (data : Bytes) : Prop where
  all : s.Broadcasts groupId cmd mask data → ∀ address ∈ maskAddresses mask,
    (s.startGroupCommand groupId cmd mask data).1.Serves address groupId
  nothing : (∃ address ∈ maskAddresses mask,
      ¬(s.startGroupCommand groupId cmd mask data).1.Serves address groupId ∨
        ∀ command, create cmd = some command → command.buildRequest s.statics address = []) →
    ¬s.Broadcasts groupId cmd mask data ∧ s.ReportsFailure groupId cmd mask data

/-- The members' requests can be built. -/
def Buildable (s : Engine) (cmd : TechCommand) : Prop :=
  cmd = .volume → s.statics.volumeUseCustomData = true

theorem startGroupCommand_eq (hcan : s.canStartGroupCommand mask = true)
    (hknown : (create cmd).isSome) (data : Bytes) :
    s.startGroupCommand groupId cmd mask data =
      ((s.membersStarted groupId cmd mask).sendPacketInternal (groupRequest cmd mask data),
        true) := by
  obtain ⟨command, hcreate⟩ := Option.isSome_iff_exists.mp hknown
  have hmembers := maskAddresses_ne_nil ((s.canStartGroupCommand_iff [] mask).mp hcan).1
  simp only [startGroupCommand, startGroupCommandWith, hcan, Bool.not_true, Bool.false_eq_true,
    if_false, hcreate, hmembers, membersStarted, groupRegistered,
    groupRequest]

/-- The factory does not know the command: nothing is done. -/
theorem startGroupCommand_unknown (hunknown : create cmd = none) :
    s.startGroupCommand groupId cmd mask data = (s, false) := by
  simp [startGroupCommand, startGroupCommandWith, hunknown]

theorem serves_of_flying {address : UInt16} {op : Operation}
    (hflying : (s.view []).flying address = some op) (horigin : op.origin = .group groupId) :
    s.Serves address groupId := by
  obtain ⟨c, hfound, hoperation⟩ := Option.bind_eq_some_iff.mp hflying
  unfold PPBContext.operation at hoperation
  split at hoperation
  next => cases hoperation
  next hopen =>
    obtain ⟨request, hcommand, rfl⟩ := Option.map_eq_some_iff.mp hoperation
    have hflight : InFlight s address c request := ⟨hfound, by simpa using hopen, hcommand⟩
    exact ⟨request, commandInFlight_eq_some_iff.mpr ⟨c, hflight⟩, horigin⟩

theorem view_groupRegistered : (s.groupRegistered groupId mask).view [] =
    (s.view []).groupBegun groupId mask := by
  unfold groupRegistered
  rw [view_emit]
  rfl

/-- Members whose requests can be built are all put in flight. -/
theorem serves_of_buildable (hcan : s.canStartGroupCommand mask = true)
    (hknown : (create cmd).isSome) (hbuildable : s.Buildable cmd) {address : UInt16}
    (hmem : address ∈ maskAddresses mask) :
    (s.startGroupCommand groupId cmd mask data).1.Serves address groupId := by
  obtain ⟨command, hcreate⟩ := Option.isSome_iff_exists.mp hknown
  have hidle := ((s.canStartGroupCommand_iff [] mask).mp hcan).2
  rw [startGroupCommand_eq hcan hknown]
  dsimp only
  generalize hmembers : s.membersStarted groupId cmd mask = members
  have hview : members.view [] = ((s.view []).groupBegun groupId mask).membersLaunched
      { origin := .group groupId, command } command.timeoutMs (maskAddresses mask) := by
    rw [← hmembers]
    unfold membersStarted
    rw [hcreate]
    dsimp only
    rw [view_startMembersWith_whole _ [] _ _ (maskAddresses_nodup mask), view_groupRegistered]
    · intro b hb
      rw [isSending_eq_false_iff]
      exact hidle b hb
    · intro hvolume
      dsimp only at hvolume
      apply hbuildable
      rw [← commandId_of_create hcreate, hvolume]
      rfl
  apply @serves_of_flying _ groupId _
    { address, origin := .group groupId, command := command.commandId }
  · rw [view_sendPacketInternal, hview, View.flying_membersLaunched (maskAddresses_nodup mask),
      if_pos hmem]
    rfl
  · rfl

/-- Starting the members leaves the transport as it is. -/
theorem udpClient_membersStarted : (s.membersStarted groupId cmd mask).udpClient = s.udpClient := by
  unfold membersStarted
  split
  next => rfl
  next command _ =>
    have habides := @abides_startMembersWith silence _ abides_tryStartPendingGroupCommands
      { origin := .group groupId, command } trivial (maskAddresses mask)
      (s.groupRegistered groupId mask) (free_silence _).admits
    exact habides.udpClient

/-- The broadcast follows whatever has become of the members. -/
theorem broadcasts (hcan : s.canStartGroupCommand mask = true) (hknown : (create cmd).isSome)
    (hclient : s.udpClient ≠ none) : s.Broadcasts groupId cmd mask data := by
  obtain ⟨client, hclient⟩ := Option.ne_none_iff_exists'.mp hclient
  unfold Broadcasts
  rw [startGroupCommand_eq hcan hknown]
  generalize hmembers : s.membersStarted groupId cmd mask = members
  have hmembersClient : members.udpClient = some client := by
    rw [← hmembers, udpClient_membersStarted, hclient]
  unfold sendPacketInternal
  rw [hmembersClient]
  dsimp only
  obtain ⟨destination, errors, hlog⟩ := members.log_handToUdp client (groupRequest cmd mask data)
  rw [hlog, List.drop_left]
  exact ⟨destination, List.mem_cons_self⟩

/-- A group is all or nothing if the members' requests can be built, and, where anything can be
sent, only then. -/
theorem allOrNothing_iff (hcan : s.canStartGroupCommand mask = true) (groupId : Nat)
    (cmd : TechCommand) (data : Bytes) :
    (s.Buildable cmd → s.AllOrNothing groupId cmd mask data) ∧
      (s.udpClient ≠ none → (s.AllOrNothing groupId cmd mask data ↔ s.Buildable cmd)) := by
  have hholds : s.Buildable cmd → s.AllOrNothing groupId cmd mask data := by
    intro hbuildable
    cases hcreate : create cmd with
    | none =>
      have hnone : ¬s.Broadcasts groupId cmd mask data := by
        intro ⟨destination, hmem⟩
        rw [startGroupCommand_unknown hcreate, membersStarted, hcreate, List.drop_length] at hmem
        cases hmem
      refine ⟨fun hsent => absurd hsent hnone, fun _ => ⟨hnone, .inl ?_⟩⟩
      rw [startGroupCommand_unknown hcreate]
    | some command =>
      have hknown : (create cmd).isSome := by rw [hcreate]; rfl
      have hserves (address : UInt16) (hmem : address ∈ maskAddresses mask) :=
        @serves_of_buildable s groupId cmd mask data hcan hknown hbuildable address hmem
      refine ⟨fun _ => hserves, fun hmissing => ?_⟩
      obtain ⟨address, hmem, hmissing⟩ := hmissing
      cases hmissing with
      | inl hidle => exact absurd (hserves address hmem) hidle
      | inr hempty =>
        obtain ⟨rfl, hnotReady⟩ :=
          (PPBCommand.buildRequest_eq_nil_iff _ _ _).mp (hempty command hcreate)
        have hready := hbuildable (commandId_of_create hcreate).symm
        rw [hnotReady] at hready
        cases hready
  refine ⟨hholds, fun hclient => ⟨fun h hvolume => ?_, hholds⟩⟩
  -- a VOLUME without image data: no member's request can be built, and still the broadcast is sent
  subst hvolume
  by_contra hnotReady
  rw [Bool.not_eq_true] at hnotReady
  have hmembers := maskAddresses_ne_nil ((s.canStartGroupCommand_iff [] mask).mp hcan).1
  obtain ⟨address, rest, hcons⟩ := List.exists_cons_of_ne_nil hmembers
  refine (h.nothing ⟨address, ?_, .inr fun command hcommand => ?_⟩).1
    (broadcasts hcan rfl hclient)
  · rw [hcons]
    exact List.mem_cons_self
  · cases hcommand
    exact (PPBCommand.buildRequest_eq_nil_iff _ _ _).mpr ⟨rfl, hnotReady⟩

/-- A VERS for two addresses. -/
theorem allOrNothing_iff_vers :
    (init (some fun _ => { bytesSent := 8 }) {}).AllOrNothing 1 .vers 3 [] :=
  (allOrNothing_iff (by decide) 1 .vers []).1 nofun

/-- A VOLUME without image data for two addresses: both fail, and the broadcast is sent. -/
theorem not_allOrNothing :
    let s := init (some fun _ => { bytesSent := 8 }) {}
    s.canStartGroupCommand 3 = true ∧ ¬s.AllOrNothing 1 .volume 3 [] := by
  refine ⟨by decide, fun h => ?_⟩
  have hsent : (init (some fun _ => { bytesSent := 8 }) {}).Broadcasts 1 .volume 3 [] :=
    broadcasts (by decide) rfl nofun
  obtain ⟨request, hflight, -⟩ := h.all hsent 1 (by decide)
  have hidle : ((init (some fun _ => { bytesSent := 8 }) {}).startGroupCommand 1 .volume 3
      []).1.commandInFlight 1 = none := by
    rfl
  rw [hidle] at hflight
  cases hflight

end Engine

end PPB
