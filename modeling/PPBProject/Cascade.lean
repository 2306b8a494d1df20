import PPBProject.Nesting

/- The group starts that a completion sets off, foretold.

   Which waiting groups start, and which of their members fail, depends on three things
   only: the addresses that are sending, the groups that wait, and whether image data is
   there (`Traffic`, `Traffic.tryStart`). A group that can be built starts whole and ends
   the cascade; a VOLUME group that cannot fails member by member, and each failure lets
   the next waiting group try. -/
namespace PPB

/-- What decides nested group starts, and how often each context has been erased. -/
structure Traffic where
  sending : UInt16 → Bool
  erasures : UInt16 → Nat
  waiting : List PendingGroupCommand

namespace Traffic

def canStart (t : Traffic) (mask : UInt16) : Bool :=
  (maskAddresses mask).all fun address => !t.sending address

/-- All members are left in flight. -/
def launch (t : Traffic) (mask : UInt16) : Traffic :=
  { t with sending := fun address => t.sending address || decide (address ∈ maskAddresses mask) }

/-- A member that cannot be built: its context is erased. -/
def fail (t : Traffic) (address : UInt16) : Traffic :=
  { t with erasures := Function.update t.erasures address (t.erasures address + 1) }

/-- The members in their turn. One whose address is taken is skipped. -/
def failMembers (tryStart : Traffic → Traffic) (t : Traffic) : List UInt16 → Traffic
  | [] => t
  | address :: rest =>
    failMembers tryStart (if t.sending address then t else tryStart (t.fail address)) rest

/-- At most `n` nested group starts. -/
def tryStart (imageReady : Bool) : Nat → Traffic → Traffic
  | 0, t => t
  | n + 1, t =>
    match t.waiting with
    | [] => t
    | front :: rest =>
      if !t.canStart front.mask then t
      else
        let t := { t with waiting := rest }
        if create front.command = some .volumeCommand ∧ imageReady = false then
          t.failMembers (tryStart imageReady n) (maskAddresses front.mask)
        else t.launch front.mask

end Traffic

def View.traffic (v : View) : Traffic where
  sending address := v.state address = .sendingCommand
  erasures := v.erasures
  waiting := v.waiting

namespace Engine

def traffic (s : Engine) : Traffic := (s.view []).traffic

section
variable {s : Engine} {address : UInt16}

theorem traffic_congr {t : Engine} {v : View} (h : t.view [] = v) : t.traffic = v.traffic :=
  congrArg View.traffic h

theorem traffic_sending : s.traffic.sending address = s.isSending address := by
  rw [Bool.eq_iff_iff, ← view_sending_iff []]
  exact decide_eq_true_iff

theorem traffic_canStart {mask : UInt16} (h : mask ≠ 0) :
    s.traffic.canStart mask = s.canStartGroupCommand mask := by
  simp [Traffic.canStart, canStartGroupCommand, traffic_sending, h]

theorem traffic_flashed {v : View} {request : Request} {suppressSend : Bool}
    {message : String} (hidle : v.state address ≠ .sendingCommand) :
    (v.flashed address request suppressSend false message).traffic = v.traffic.fail address := by
  simp only [View.traffic, Traffic.fail, View.flashed_erasures, View.flashed_waiting,
    View.flashed_state, Traffic.mk.injEq, Bool.false_eq_true, if_false, and_true]
  funext b
  rcases eq_or_ne b address with rfl | hne
  · simp [hidle]
  · simp [hne]

end

/-! Each function of the core does as foretold, if the nested one does. -/

section
variable {tryStart : Engine → Engine} {f : Traffic → Traffic} {imageReady : Bool}
  (htry : ∀ s : Engine, s.statics.volumeUseCustomData = imageReady →
    (tryStart s).traffic = f s.traffic)
  (hstarts : ∀ s : Engine, Starts (s.view []) ((tryStart s).view []))

include htry hstarts

/-- A member that cannot be built. -/
theorem traffic_executeMember {s : Engine} (groupId : Nat) (address : UInt16)
    (hready : s.statics.volumeUseCustomData = false) (himage : imageReady = false) :
    (executeCommandImmediatelyWith tryStart s address
        { origin := .group groupId, command := .volumeCommand } true).traffic =
      (if s.traffic.sending address then s.traffic else f (s.traffic.fail address)) ∧
    (executeCommandImmediatelyWith tryStart s address
        { origin := .group groupId, command := .volumeCommand } true).statics.volumeUseCustomData =
      false := by
  rw [traffic_sending]
  cases hsending : s.isSending address with
  | true =>
    simp only [executeCommandImmediatelyWith, hsending, if_true, true_and]
    exact hready
  | false =>
    rw [executeCommandImmediatelyWith_unbuildable _ _ _ _ hsending hready]
    have hidle := (s.isSending_eq_false_iff address).mp hsending
    generalize hrequest :
      ({ origin := .group groupId, command := .volumeCommand } : Request) = request
    -- the member is opened, its packet is empty, and `completeOperation` closes it
    have hopened := s.view_openOperation [] address request true
    generalize s.openOperation address request true = opened at hopened ⊢
    have hfind : opened.findContext address = some ((s.view []).openedContext address request
        true) := by
      change (opened.view []).context address = _
      rw [hopened, View.opened_context, Function.update_self]
    have hdone := @view_completeOperationWith tryStart opened [] address _ _ false
      "Не удалось сформировать пакет команды" hfind rfl rfl
    have hclosed : (opened.closeOperation address ((s.view []).openedContext address request true)
        request false "Не удалось сформировать пакет команды").view [] = (s.view []).flashed address
          request true false "Не удалось сформировать пакет команды" := by
      rw [view_closeOperation, hopened]
      rfl
    generalize opened.closeOperation address _ request false _ = closed at hdone hclosed
    have hclosedReady : closed.statics.volumeUseCustomData = false :=
      (congrArg View.imageReady hclosed).trans hready
    constructor
    · have hfail : closed.traffic = s.traffic.fail address :=
        (traffic_congr hclosed).trans (traffic_flashed hidle)
      rw [traffic_congr hdone, if_neg Bool.false_ne_true, ← hfail]
      exact htry closed (hclosedReady.trans himage.symm)
    · have himage := (hstarts closed).imageReady_eq
      exact (congrArg View.imageReady hdone).trans (himage.trans hclosedReady)

theorem traffic_startMembersWith (groupId : Nat) (members : List UInt16) (s : Engine)
    (hready : s.statics.volumeUseCustomData = false) (himage : imageReady = false) :
    (startMembersWith tryStart { origin := .group groupId, command := .volumeCommand } s
      members).traffic = s.traffic.failMembers f members := by
  induction members generalizing s with
  | nil => rfl
  | cons address rest ih =>
    obtain ⟨hfirst, hready⟩ := traffic_executeMember htry hstarts groupId address hready himage
    rw [startMembersWith, ih _ hready, hfirst, Traffic.failMembers]

/-- A group that can start. -/
theorem traffic_startGroupCommandWith (s : Engine) (groupId : Nat) (cmd : TechCommand)
    (mask : UInt16) (data : Bytes) (hknown : (create cmd).isSome)
    (hcan : s.canStartGroupCommand mask = true)
    (hready : s.statics.volumeUseCustomData = imageReady) :
    (startGroupCommandWith tryStart s groupId cmd mask data).1.traffic =
      if create cmd = some .volumeCommand ∧ imageReady = false then
        s.traffic.failMembers f (maskAddresses mask)
      else s.traffic.launch mask := by
  obtain ⟨command, hcreate⟩ := Option.isSome_iff_exists.mp hknown
  obtain ⟨hmask, hidle⟩ := (s.canStartGroupCommand_iff [] mask).mp hcan
  have hsend (t : Engine) (packet : Bytes) : (t.sendPacketInternal packet).traffic = t.traffic :=
    traffic_congr (t.view_sendPacketInternal [] packet)
  simp only [startGroupCommandWith, hcan, Bool.not_true, Bool.false_eq_true, if_false, hcreate,
    maskAddresses_ne_nil hmask, hsend]
  generalize hbegun : Engine.emit _ (.groupStarted groupId mask) = begun
  have hview : begun.view [] = (s.view []).groupBegun groupId mask := by
    rw [← hbegun, view_emit]
    rfl
  have hbegunReady : begun.statics.volumeUseCustomData = imageReady :=
    (congrArg View.imageReady hview).trans hready
  have htraffic : begun.traffic = s.traffic := by
    rw [traffic_congr hview]
    rfl
  simp only [← htraffic, Option.some.injEq]
  split
  next hfails =>
    obtain ⟨rfl, himage⟩ := hfails
    exact traffic_startMembersWith htry hstarts groupId _ begun (hbegunReady.trans himage) himage
  next hbuilt =>
    -- all members are left in flight, so no nested start happens
    have hlaunched := @view_startMembersWith_whole tryStart
      { origin := .group groupId, command } [] (maskAddresses mask) begun (maskAddresses_nodup mask)
      (fun address hmem => ?_) fun hvolume => ?_
    · rw [traffic_congr hlaunched]
      simp only [View.traffic, View.membersLaunched_state, View.membersLaunched_erasures,
        View.membersLaunched_waiting, Traffic.launch, Traffic.mk.injEq, and_true, traffic]
      funext address
      by_cases hmem : address ∈ maskAddresses mask <;> simp [hmem]
    · rw [isSending_eq_false_iff, hview]
      exact hidle address hmem
    · rw [hbegunReady]
      exact Bool.not_eq_false _ ▸ fun himage => hbuilt ⟨hvolume, himage⟩

end

/-- **The cascade.** Nested starts do what `Traffic.tryStart` foretells. -/
theorem traffic_tryStartNested (n : Nat) (s : Engine) :
    (tryStartNested n s).traffic = s.traffic.tryStart s.statics.volumeUseCustomData n := by
  induction n generalizing s with
  | zero => rfl
  | succ n ih =>
    simp only [tryStartNested, tryStartPendingGroupCommandsWith, Traffic.tryStart]
    have hwaiting : s.traffic.waiting = s.pendingGroupCommands := rfl
    rw [hwaiting]
    cases s.pendingGroupCommands with
    | nil => rfl
    | cons front rest =>
      dsimp only
      rw [traffic_canStart front.nonempty]
      split
      next => rfl
      next hcan =>
        rw [Bool.not_eq_true', Bool.not_eq_false] at hcan
        have hstarted := (view_startGroupCommandWith (fun t => view_tryStartNested n t)
          { s with pendingGroupCommands := rest } [] front.groupId front.command front.mask
          front.data front.known hcan).1
        have htraffic := traffic_startGroupCommandWith (f := Traffic.tryStart
            s.statics.volumeUseCustomData n) (fun t hready => hready ▸ ih t)
          (fun t => view_tryStartNested n t []) { s with pendingGroupCommands := rest }
          front.groupId front.command front.mask front.data front.known hcan rfl
        simp only [hstarted, if_true]
        exact htraffic

end Engine

end PPB
