import PPBProject.Steps

/- The stages of `updateFirmware`: their order, what each of them issues, when it is confirmed,
   and what the return from its event loop leads to (`Resumed`). -/
namespace PPB

/-! The order. -/

/-- The stage after this one, for an image of `n` blocks. -/
def FirmwareStage.next (n : Nat) : FirmwareStage → Option FirmwareStage
  | .isYou => some .vers
  | .vers => some .programm
  | .programm => some (.volume 0)
  | .volume i => some (if i + 1 < n then .volume (i + 1) else .finalVolume)
  | .finalVolume => some .update
  | .update => some .clean
  | .clean => none

/-- All stages, in order. -/
def firmwareStages (n : Nat) : List FirmwareStage :=
  [.isYou, .vers, .programm] ++ (List.range n).map .volume ++ [.finalVolume, .update, .clean]

theorem getElem?_firmwareStages (n k : Nat) : (firmwareStages n)[k]? =
    if k < 3 then [FirmwareStage.isYou, .vers, .programm][k]?
    else if k < n + 3 then some (.volume (k - 3))
    else [FirmwareStage.finalVolume, .update, .clean][k - (n + 3)]? := by
  rw [firmwareStages, List.append_assoc, List.getElem?_append, List.getElem?_append]
  simp only [List.length_cons, List.length_nil, List.length_map, List.length_range]
  split
  · rfl
  · split
    · rw [if_pos (by omega), List.getElem?_map, List.getElem?_range (by omega)]
      rfl
    · rw [if_neg (by omega)]
      congr 1
      omega

/-- `next` goes down the list. -/
theorem getElem?_firmwareStages_succ {n k : Nat} {stage : FirmwareStage} (hn : 0 < n)
    (h : (firmwareStages n)[k]? = some stage) : (firmwareStages n)[k + 1]? = stage.next n := by
  rw [getElem?_firmwareStages] at h ⊢
  split at h
  next hfirst =>
    obtain rfl | rfl | rfl : k = 0 ∨ k = 1 ∨ k = 2 := by omega
    · cases h
      rfl
    · cases h
      rfl
    · cases h
      simp [FirmwareStage.next, hn]
  next hfirst =>
    split at h
    next hvolume =>
      cases h
      rw [if_neg (by omega), FirmwareStage.next]
      split
      next hmore =>
        rw [if_pos (by omega)]
        congr 2
        omega
      next hlast =>
        rw [if_neg (by omega)]
        obtain rfl : k = n + 2 := by omega
        simp
    next hvolume =>
      obtain ⟨j, rfl⟩ : ∃ j, k = n + 3 + j := ⟨k - (n + 3), by omega⟩
      have hindex : n + 3 + j + 1 - (n + 3) = j + 1 := by omega
      rw [Nat.add_sub_cancel_left] at h
      rw [if_neg (by omega), if_neg (by omega), hindex]
      match j, h with
      | 0, h =>
        cases h
        rfl
      | 1, h =>
        cases h
        rfl
      | 2, h =>
        cases h
        rfl

theorem prefix_firmwareStages_next {n : Nat} {before : List FirmwareStage}
    {stage later : FirmwareStage} (hn : 0 < n) (h : before ++ [stage] <+: firmwareStages n)
    (hnext : stage.next n = some later) : before ++ [stage] ++ [later] <+: firmwareStages n := by
  obtain ⟨rest, hrest⟩ := h
  have hhere : (firmwareStages n)[before.length]? = some stage := by
    simp [← hrest]
  have hthere := getElem?_firmwareStages_succ hn hhere
  have hhead : rest[0]? = some later := by
    rw [← hnext, ← hthere, ← hrest, List.getElem?_append_right (by simp)]
    simp
  cases rest with
  | nil => cases hhead
  | cons first rest =>
    obtain rfl : first = later := Option.some.inj hhead
    exact ⟨rest, by rw [← hrest, List.append_assoc _ [first]]; rfl⟩

/-- The list ends with CLEAN. -/
theorem eq_firmwareStages_of_clean {n : Nat} {before : List FirmwareStage} (hn : 0 < n)
    (h : before ++ [.clean] <+: firmwareStages n) : before ++ [.clean] = firmwareStages n := by
  obtain ⟨rest, hrest⟩ := h
  have hhere : (firmwareStages n)[before.length]? = some .clean := by
    simp [← hrest]
  have hthere := getElem?_firmwareStages_succ hn hhere
  have hnone : rest[0]? = none := by
    rw [← hrest, List.getElem?_append_right (by simp)] at hthere
    simpa [FirmwareStage.next] using hthere
  cases rest with
  | nil => rw [← hrest, List.append_nil]
  | cons => cases hnone

/-! What a stage issues. -/

/-- The locals of `updateFirmware` that do not change after its checks. -/
structure FirmwarePlan where
  selectedMask : UInt16
  versionCode : UInt32
  payloads : List Bytes
  crc24 : UInt32

/-- What `updateFirmware` computes from its arguments. -/
def FirmwarePlan.of (selectedMask : UInt16) (hexFile : Option (List Line)) (newVersion : ℚ) :
    FirmwarePlan where
  selectedMask
  versionCode := (roundedVersion newVersion).toUInt32
  payloads := FirmwareUpdater.buildVolumePayloads (FirmwareUpdater.parseHexToDataBlocks hexFile)
  crc24 := crc24Of (FirmwareUpdater.parseHexToDataBlocks hexFile).flatten

def FirmwareSession.plan (f : FirmwareSession) : FirmwarePlan where
  selectedMask := f.selectedMask
  versionCode := f.versionCode
  payloads := f.payloads
  crc24 := f.crc24

/-- Calls on `m_communication`, if there is one. -/
def issued (communication : Option CommunicationId) (calls : List Event) : List Entry :=
  communication.toList.flatMap fun id => calls.map (.call id)

namespace FirmwarePlan

def totalBlocks (plan : FirmwarePlan) : Nat := plan.payloads.length

/-- What `crc_arr` holds while the block `i` is sent. -/
def crcArrAt (plan : FirmwarePlan) (i : Nat) : UInt8 × UInt8 × UInt8 :=
  if i = plan.totalBlocks - 1 then crcBytes plan.crc24 else (0, 0, 0)

/-- The image data and the command of a stage. -/
def issue (plan : FirmwarePlan) (communication : Option CommunicationId) (targetMask : UInt16) :
    FirmwareStage → List Entry
  | .isYou => issued communication [.executeCommand .isYou 0]
  | .vers => issued communication [.executeGroupCommand .vers targetMask []]
  | .programm => issued communication [.executeGroupCommand .programm targetMask []]
  | .volume i =>
    .setCurrentVolumeData (plan.payloads.getD i []) (if i = 0 then 0x01 else 0x02)
        (if i = 0 then plan.totalBlocks.toUInt16 else 0) (plan.crcArrAt i) ::
      issued communication [.executeCommand .volume 0]
  | .finalVolume =>
    .setCurrentVolumeData (versionBytes plan.versionCode) 3 0 (crcBytes plan.crc24) ::
      issued communication [.executeCommand .volume 0]
  | .update => issued communication [.executeCommand .update 0]
  | .clean => issued communication [.executeCommand .clean 0]

end FirmwarePlan

/-- The update is over. -/
def finalProgress (n : Nat) : Entry := .operationProgress n n "Прошивка завершена"

/-- Neither a command, nor the final progress, nor anything a wait looks at. -/
def Entry.isAside : Entry → Bool
  | .errorOccurred _ | .scenarioError _ | .scenarioStopped | .delivered _ => true
  | .operationProgress _ _ operation => operation = "VOLUME"
  | .call _ (.clearCommandQueue _) => true
  | _ => false

/-! The return from an event loop. -/

/-- The stages that wait for a group. -/
def FirmwareStage.isGroup : FirmwareStage → Bool
  | .vers | .programm => true
  | _ => false

namespace FirmwareSession

/-- The wait of the stage has ended well. -/
def confirmed (f : FirmwareSession) : Bool :=
  match f.stage with
  | .isYou => f.wait.activeMask &&& f.selectedMask ≠ 0
  | .volume _ | .finalVolume => f.wait.success
  | .vers | .programm | .update | .clean => f.wait.completed && f.wait.success

/-- The target mask from the next stage on. -/
def nextTarget (f : FirmwareSession) : UInt16 :=
  if f.stage = .isYou then f.wait.activeMask &&& f.selectedMask else f.targetMask

/-- The block is one of the image, and `crc_arr` holds what it should. -/
def Kept (f : FirmwareSession) : Prop :=
  match f.stage with
  | .isYou | .vers | .programm => f.crcArr = (0, 0, 0)
  | .volume i => i < f.totalBlocks ∧ f.crcArr = f.plan.crcArrAt i
  | .finalVolume | .update | .clean => f.crcArr = crcBytes f.crc24

/-- A slot of the wait writes to the locals of the wait only. -/
theorem notice_eq (f : FirmwareSession) (signal : Signal) :
    f.notice signal = { f with wait := (f.notice signal).wait } := by
  unfold notice
  split
  case h_8 => rfl
  all_goals split <;> rfl

theorem timeout_eq (f : FirmwareSession) : f.timeout = { f with wait := f.timeout.wait } := by
  unfold timeout
  dsimp only
  split <;> rfl

theorem notice_stage (f : FirmwareSession) (signal : Signal) : (f.notice signal).stage = f.stage := by
  rw [notice_eq]

theorem notice_groupId (f : FirmwareSession) (signal : Signal) :
    (f.notice signal).wait.groupId = f.wait.groupId := by
  unfold notice
  split
  case h_8 => rfl
  all_goals split <;> rfl

theorem timeout_stage (f : FirmwareSession) : f.timeout.stage = f.stage := by
  rw [timeout_eq]

theorem timeout_groupId (f : FirmwareSession) : f.timeout.wait.groupId = f.wait.groupId := by
  unfold timeout
  dsimp only
  split <;> rfl

theorem kept_notice {f : FirmwareSession} (h : f.Kept) (signal : Signal) :
    (f.notice signal).Kept := by
  rw [notice_eq]
  exact h

theorem kept_timeout {f : FirmwareSession} (h : f.Kept) : f.timeout.Kept := by
  rw [timeout_eq]
  exact h

/-- `f'` has just begun to wait for `stage`, which comes after the stage of `f`. -/
structure Begun (f : FirmwareSession) (groupId : Nat) (stage : FirmwareStage)
    (f' : FirmwareSession) : Prop where
  plan : f'.plan = f.plan
  targetMask : f'.targetMask = f.nextTarget
  stage_eq : f'.stage = stage
  wait : f'.wait = { groupId := if stage.isGroup then groupId else 0 }
  accepted : stage.isGroup = true → groupId ≠ 0
  kept : f'.Kept

end FirmwareSession

namespace PPBController

/-- What the return from an event loop leads to. -/
inductive Resumed (c : PPBController) (f : FirmwareSession) (groupId : Nat) :
    PPBController → Prop where
  | failed {c' : PPBController} (tail : List Entry) : f.confirmed = false →
    c'.firmware = none → c'.log = c.log ++ tail → (∀ x ∈ tail, x.isAside = true) →
    Resumed c f groupId c'
  | refused {c' : PPBController} (stage : FirmwareStage) (error : String) : f.confirmed = true →
    f.stage.next f.totalBlocks = some stage → stage.isGroup = true → groupId = 0 →
    c'.firmware = none →
    c'.log = c.log ++ f.plan.issue c.communication f.nextTarget stage ++ [.errorOccurred error] →
    Resumed c f groupId c'
  | advanced {c' : PPBController} {f' : FirmwareSession} (head : List Entry)
    (stage : FirmwareStage) : f.confirmed = true → f.stage.next f.totalBlocks = some stage →
    f.Begun groupId stage f' → c'.firmware = some f' → (∀ x ∈ head, x.isAside = true) →
    c'.log = c.log ++ head ++ f.plan.issue c.communication f.nextTarget stage →
    Resumed c f groupId c'
  | finished {c' : PPBController} : f.confirmed = true → f.stage = .clean → c'.firmware = none →
    c'.log = c.log ++ [finalProgress f.totalBlocks] → Resumed c f groupId c'

section
variable (c : PPBController) (f : FirmwareSession)

theorem log_callCommunication (call : Event) :
    (c.callCommunication call).log = c.log ++ issued c.communication [call] := by
  unfold callCommunication issued
  split
  next id hid => simp [hid, emit]
  next hnone => simp [hnone]

theorem log_callAll (calls : List Event) :
    (c.callAll calls).log = c.log ++ issued c.communication calls := by
  induction calls generalizing c with
  | nil =>
    have hnone : issued c.communication [] = [] := by
      cases c.communication <;> rfl
    rw [hnone, List.append_nil]
    rfl
  | cons call calls ih =>
    have hsame : (c.callCommunication call).communication = c.communication :=
      (sameBut_callCommunication c call).communication
    have hsplit : issued c.communication (call :: calls) =
        issued c.communication [call] ++ issued c.communication calls := by
      cases c.communication <;> rfl
    show ((c.callCommunication call).callAll calls).log = _
    rw [ih, hsame, log_callCommunication, hsplit, List.append_assoc]

theorem isAside_of_mem_issued {communication : Option CommunicationId} {calls : List Event}
    (hcalls : ∀ call ∈ calls, ∃ address, call = .clearCommandQueue address) :
    ∀ x ∈ issued communication calls, x.isAside = true := by
  intro x hx
  obtain ⟨id, -, hx⟩ := List.mem_flatMap.mp hx
  obtain ⟨call, hcall, rfl⟩ := List.mem_map.mp hx
  obtain ⟨address, rfl⟩ := hcalls call hcall
  rfl

variable {c f} {groupId : Nat}

/-- An abort adds nothing but the message and the clean-up. -/
theorem resumed_abortFirmware {head : List Entry} {error : String} {calls : List Event}
    {c₀ : PPBController} (hconfirmed : f.confirmed = false) (hlog : c.log = c₀.log ++ head)
    (hhead : ∀ x ∈ head, x.isAside = true)
    (hcalls : ∀ call ∈ calls, ∃ address, call = .clearCommandQueue address) :
    Resumed c₀ f groupId (c.abortFirmware f error calls) := by
  refine .failed (head ++ ([.errorOccurred error] ++ issued c.communication calls)) hconfirmed rfl
    ?_ ?_
  · show ((c.emit (.errorOccurred error)).callAll calls).log = _
    rw [log_callAll]
    show c.log ++ [.errorOccurred error] ++ issued c.communication calls = _
    rw [hlog, List.append_assoc, List.append_assoc]
  · intro x hx
    rw [List.mem_append, List.mem_append, List.mem_singleton] at hx
    obtain hx | rfl | hx := hx
    · exact hhead x hx
    · rfl
    · exact isAside_of_mem_issued hcalls x hx

theorem mem_groupCleanUp {call : Event} (h : call ∈ groupCleanUp f) :
    ∃ address, call = .clearCommandQueue address := by
  obtain rfl | hmem := List.mem_cons.mp h
  · exact ⟨0, rfl⟩
  · obtain ⟨address, -, rfl⟩ := List.mem_map.mp hmem
    exact ⟨address, rfl⟩

theorem resumed_aborted {error : String} {calls : List Event} (hconfirmed : f.confirmed = false)
    (hcalls : ∀ call ∈ calls, ∃ address, call = .clearCommandQueue address) :
    Resumed c f groupId (c.abortFirmware f error calls) :=
  resumed_abortFirmware hconfirmed (List.append_nil _).symm (by simp) hcalls

theorem resumed_groupFailed (error : String) (hconfirmed : f.confirmed = false) :
    Resumed c f groupId
      (((c.callAll (groupCleanUp f)).emit (.errorOccurred error)).endFirmware f) := by
  refine .failed (issued c.communication (groupCleanUp f) ++ [.errorOccurred error]) hconfirmed rfl
    ?_ ?_
  · show (c.callAll (groupCleanUp f)).log ++ [_] = _
    rw [log_callAll, List.append_assoc]
  · intro x hx
    obtain hx | hx := List.mem_append.mp hx
    · exact isAside_of_mem_issued (fun _ => mem_groupCleanUp) x hx
    · rw [List.mem_singleton.mp hx]
      rfl

/-- The next stage is a group. -/
theorem resumed_startGroup (f₁ : FirmwareSession) {stage : FirmwareStage} {command : TechCommand}
    {error : String} (hconfirmed : f.confirmed = true)
    (hnext : f.stage.next f.totalBlocks = some stage) (hgroup : stage.isGroup = true)
    (hplan : f₁.plan = f.plan) (htarget : f₁.targetMask = f.nextTarget)
    (hcrc : f₁.crcArr = (0, 0, 0))
    (hissue : f.plan.issue c.communication f.nextTarget stage =
      issued c.communication [.executeGroupCommand command f₁.targetMask []]) :
    Resumed c f groupId (c.startGroup f₁ stage command error groupId) := by
  have hlog := c.log_callCommunication (.executeGroupCommand command f₁.targetMask [])
  unfold startGroup
  dsimp only
  rw [← hissue] at hlog
  split
  next hzero =>
    apply Resumed.refused stage error hconfirmed hnext hgroup hzero rfl
    show (c.callCommunication _).log ++ [_] = _
    rw [hlog]
  next hid =>
    have hbegun : f.Begun groupId stage { f₁ with stage, wait := { groupId } } := by
      refine ⟨hplan, htarget, rfl, ?_, fun _ => hid, ?_⟩
      · rw [if_pos hgroup]
      · cases stage <;> first | exact hcrc | cases hgroup
    apply Resumed.advanced [] stage hconfirmed hnext hbegun rfl (by simp)
    rw [List.append_nil]
    exact hlog

/-- The next stage is a single command. -/
theorem resumed_startCommand {c₁ : PPBController} {f₁ : FirmwareSession} {head : List Entry}
    (image : List Entry) {stage : FirmwareStage} {command : TechCommand}
    (hconfirmed : f.confirmed = true)
    (hnext : f.stage.next f.totalBlocks = some stage) (hsingle : stage.isGroup = false)
    (hplan : f₁.plan = f.plan) (htarget : f₁.targetMask = f.nextTarget)
    (hkept : { f₁ with stage, wait := {} }.Kept) (hcommunication : c₁.communication = c.communication)
    (hlog : c₁.log = c.log ++ head ++ image) (hhead : ∀ x ∈ head, x.isAside = true)
    (hissue : f.plan.issue c.communication f.nextTarget stage =
      image ++ issued c.communication [.executeCommand command 0]) :
    Resumed c f groupId (c₁.startCommand f₁ stage command) := by
  have hbegun : f.Begun groupId stage { f₁ with stage, wait := {} } := by
    refine ⟨hplan, htarget, rfl, ?_, ?_, hkept⟩
    · rw [if_neg (by simp [hsingle])]
    · intro hgroup
      rw [hsingle] at hgroup
      cases hgroup
  apply Resumed.advanced head stage hconfirmed hnext hbegun rfl hhead
  show (c₁.callCommunication _).log = _
  rw [log_callCommunication, hlog, hcommunication, hissue, List.append_assoc _ image]

/-- A block of the image. -/
theorem resumed_startVolume {c₁ : PPBController} {head : List Entry} {i : Nat}
    (hconfirmed : f.confirmed = true) (hnext : f.stage.next f.totalBlocks = some (.volume i))
    (htarget : f.targetMask = f.nextTarget) (hi : i < f.totalBlocks) (hcrc : f.crcArr = (0, 0, 0))
    (hcommunication : c₁.communication = c.communication) (hlog : c₁.log = c.log ++ head)
    (hhead : ∀ x ∈ head, x.isAside = true) : Resumed c f groupId (c₁.startVolume f i) := by
  unfold startVolume
  dsimp only
  generalize hf₁ : (if i = f.totalBlocks - 1 then { f with crcArr := crcBytes f.crc24 }
    else f : FirmwareSession) = f₁
  have hplan : f₁.plan = f.plan := by
    rw [← hf₁]
    split <;> rfl
  have hmask : f₁.targetMask = f.targetMask := by
    rw [← hf₁]
    split <;> rfl
  have hcrc₁ : f₁.crcArr = f.plan.crcArrAt i := by
    show _ = if i = f.totalBlocks - 1 then _ else _
    rw [← hf₁]
    split
    · rfl
    · exact hcrc
  have hpayloads : f₁.payloads = f.payloads := congrArg FirmwarePlan.payloads hplan
  have htotal : f₁.totalBlocks = f.totalBlocks := congrArg List.length hpayloads
  have hkept : { f₁ with stage := .volume i, wait := {} }.Kept := by
    constructor
    · exact htotal ▸ hi
    · show f₁.crcArr = f₁.plan.crcArrAt i
      rw [hplan, hcrc₁]
  rw [hpayloads, hcrc₁]
  generalize hset : Entry.setCurrentVolumeData (f.payloads.getD i []) (if i = 0 then 0x01 else 0x02)
    (if i = 0 then f.totalBlocks.toUInt16 else 0) (f.plan.crcArrAt i) = image
  have hsame : (c₁.emit image).communication = c.communication := hcommunication
  have hemitted : (c₁.emit image).log = c.log ++ head ++ [image] := by
    rw [← hlog]
    rfl
  apply resumed_startCommand [image] hconfirmed hnext rfl hplan (hmask.trans htarget) hkept hsame
    hemitted hhead
  rw [← hset]
  rfl

/-- A stage that waits for a single report. -/
theorem confirmed_eq_false_iff (h : f.confirmed = (f.wait.completed && f.wait.success)) :
    f.confirmed = false ↔ (!f.wait.completed) = true ∨ (!f.wait.success) = true := by
  rw [h, Bool.and_eq_false_iff, Bool.not_eq_true', Bool.not_eq_true']

/-- From the second stage on the target is the one that was found. -/
theorem targetMask_eq (h : f.stage ≠ .isYou) : f.targetMask = f.nextTarget := (if_neg h).symm

theorem resumed_isYou (hkept : f.Kept) (hstage : f.stage = .isYou) :
    Resumed c f groupId (c.resumeFirmware f groupId) := by
  unfold FirmwareSession.Kept at hkept
  rw [hstage] at hkept
  unfold resumeFirmware
  rw [hstage]
  have hconfirmed : f.confirmed = decide (f.wait.activeMask &&& f.selectedMask ≠ 0) := by
    rw [FirmwareSession.confirmed, hstage]
  have hmask : f.wait.activeMask &&& f.selectedMask = f.nextTarget := (if_pos hstage).symm
  dsimp only
  split
  next hzero => exact resumed_aborted (by simp [hconfirmed, hzero]) (by simp)
  next =>
    split
    next hzero => exact resumed_aborted (by simp [hconfirmed, hzero]) (by simp)
    next htarget =>
      let f₁ := { f with targetMask := f.wait.activeMask &&& f.selectedMask }
      have hissue : f.plan.issue c.communication f.nextTarget .vers =
          issued c.communication [.executeGroupCommand .vers f₁.targetMask []] := by
        rw [← hmask]
        rfl
      apply @resumed_startGroup c f groupId f₁ .vers .vers versError _ _ rfl rfl hmask hkept hissue
      · simp [hconfirmed, htarget]
      · simp [hstage, FirmwareStage.next]

theorem resumed_vers (hkept : f.Kept) (hstage : f.stage = .vers) :
    Resumed c f groupId (c.resumeFirmware f groupId) := by
  unfold FirmwareSession.Kept at hkept
  rw [hstage] at hkept
  unfold resumeFirmware
  rw [hstage]
  have hconfirmed : f.confirmed = (f.wait.completed && f.wait.success) := by
    rw [FirmwareSession.confirmed, hstage]
  have hmask := targetMask_eq (f := f) (by simp [hstage])
  dsimp only
  split
  next hfailed =>
    exact resumed_groupFailed versError ((confirmed_eq_false_iff hconfirmed).mpr hfailed)
  next hdone =>
    rw [← confirmed_eq_false_iff hconfirmed, Bool.not_eq_false] at hdone
    apply resumed_startGroup f hdone _ rfl rfl hmask hkept
    · rw [← hmask]
      rfl
    · simp [hstage, FirmwareStage.next]

theorem resumed_programm (hkept : f.Kept) (hstage : f.stage = .programm) :
    Resumed c f groupId (c.resumeFirmware f groupId) := by
  unfold FirmwareSession.Kept at hkept
  rw [hstage] at hkept
  unfold resumeFirmware
  rw [hstage]
  have hconfirmed : f.confirmed = (f.wait.completed && f.wait.success) := by
    rw [FirmwareSession.confirmed, hstage]
  have hmask := targetMask_eq (f := f) (by simp [hstage])
  dsimp only
  split
  next hfailed =>
    exact resumed_groupFailed programmError ((confirmed_eq_false_iff hconfirmed).mpr hfailed)
  next hdone =>
    rw [← confirmed_eq_false_iff hconfirmed, Bool.not_eq_false] at hdone
    have hnext : f.stage.next f.totalBlocks = some (.volume 0) := by
      simp [hstage, FirmwareStage.next]
    apply resumed_startVolume hdone hnext hmask (List.length_pos_iff.mpr f.nonempty) hkept _
      (Eq.refl _)
    · simp [Entry.isAside]
    · rfl

theorem resumed_volume {i : Nat} (hkept : f.Kept) (hstage : f.stage = .volume i) :
    Resumed c f groupId (c.resumeFirmware f groupId) := by
  unfold FirmwareSession.Kept at hkept
  rw [hstage] at hkept
  unfold resumeFirmware
  rw [hstage]
  obtain ⟨hi, hcrc⟩ := hkept
  have hconfirmed : f.confirmed = f.wait.success := by
    rw [FirmwareSession.confirmed, hstage]
  have hmask := targetMask_eq (f := f) (by simp [hstage])
  have haside : ∀ x ∈ [Entry.operationProgress (i + 1) f.totalBlocks "VOLUME"],
      x.isAside = true := by simp [Entry.isAside]
  dsimp only
  split
  next hfailed =>
    exact resumed_abortFirmware (by simpa [hconfirmed] using hfailed) rfl haside (by simp)
  next hdone =>
    rw [Bool.not_eq_true', Bool.not_eq_false, ← hconfirmed] at hdone
    split
    next hmore =>
      -- `crc_arr` is filled for the last block only
      have hnotLast : i ≠ f.totalBlocks - 1 := by omega
      exact resumed_startVolume hdone (by simp [hstage, FirmwareStage.next, hmore]) hmask
        hmore (hcrc.trans (if_neg hnotLast)) rfl rfl haside
    next hlast =>
      have hisLast : i = f.totalBlocks - 1 := by omega
      have hfull : f.crcArr = crcBytes f.crc24 := hcrc.trans (if_pos hisLast)
      have hnext : f.stage.next f.totalBlocks = some .finalVolume := by
        simp [hstage, FirmwareStage.next, hlast]
      unfold startFinalVolume
      dsimp only
      rw [hfull]
      generalize hset : Entry.setCurrentVolumeData (versionBytes f.versionCode) 3 0
        (crcBytes f.crc24) = image
      apply resumed_startCommand [image] hdone hnext rfl rfl hmask hfull _ _ haside
      · rw [← hset]
        rfl
      · rfl
      · rfl

theorem resumed_finalVolume (hkept : f.Kept) (hstage : f.stage = .finalVolume) :
    Resumed c f groupId (c.resumeFirmware f groupId) := by
  unfold FirmwareSession.Kept at hkept
  rw [hstage] at hkept
  unfold resumeFirmware
  rw [hstage]
  have hconfirmed : f.confirmed = f.wait.success := by
    rw [FirmwareSession.confirmed, hstage]
  have hmask := targetMask_eq (f := f) (by simp [hstage])
  have hnext : f.stage.next f.totalBlocks = some .update := by
    simp [hstage, FirmwareStage.next]
  dsimp only
  split
  next hfailed => exact resumed_aborted (by simpa [hconfirmed] using hfailed) (by simp)
  next hdone =>
    rw [Bool.not_eq_true', Bool.not_eq_false, ← hconfirmed] at hdone
    exact @resumed_startCommand c f groupId c f [] [] .update .update hdone hnext rfl rfl hmask
      hkept rfl (by simp) (by simp) rfl

theorem resumed_update (hkept : f.Kept) (hstage : f.stage = .update) :
    Resumed c f groupId (c.resumeFirmware f groupId) := by
  unfold FirmwareSession.Kept at hkept
  rw [hstage] at hkept
  unfold resumeFirmware
  rw [hstage]
  have hconfirmed : f.confirmed = (f.wait.completed && f.wait.success) := by
    rw [FirmwareSession.confirmed, hstage]
  have hmask := targetMask_eq (f := f) (by simp [hstage])
  have hnext : f.stage.next f.totalBlocks = some .clean := by
    simp [hstage, FirmwareStage.next]
  dsimp only
  split
  next hfailed => exact resumed_aborted ((confirmed_eq_false_iff hconfirmed).mpr hfailed) (by simp)
  next hdone =>
    rw [← confirmed_eq_false_iff hconfirmed, Bool.not_eq_false] at hdone
    exact @resumed_startCommand c f groupId c f [] [] .clean .clean hdone hnext rfl rfl hmask
      hkept rfl (by simp) (by simp) rfl

theorem resumed_clean (hstage : f.stage = .clean) :
    Resumed c f groupId (c.resumeFirmware f groupId) := by
  unfold resumeFirmware
  rw [hstage]
  have hconfirmed : f.confirmed = (f.wait.completed && f.wait.success) := by
    rw [FirmwareSession.confirmed, hstage]
  dsimp only
  split
  next hfailed => exact resumed_aborted ((confirmed_eq_false_iff hconfirmed).mpr hfailed) (by simp)
  next hdone =>
    rw [← confirmed_eq_false_iff hconfirmed, Bool.not_eq_false] at hdone
    exact .finished hdone hstage rfl rfl

/-- **The return from an event loop** fails the update, ends it, or begins the next stage. -/
theorem resumed_resumeFirmware (hkept : f.Kept) :
    Resumed c f groupId (c.resumeFirmware f groupId) := by
  cases hstage : f.stage with
  | isYou => exact resumed_isYou hkept hstage
  | vers => exact resumed_vers hkept hstage
  | programm => exact resumed_programm hkept hstage
  | volume i => exact resumed_volume hkept hstage
  | finalVolume => exact resumed_finalVolume hkept hstage
  | update => exact resumed_update hkept hstage
  | clean => exact resumed_clean hstage

end

/-! The start. -/

/-- The queues swept before the update. -/
def sweep (communication : Option CommunicationId) : List Entry :=
  issued communication (.clearCommandQueue 0 :: singleAddresses.map .clearCommandQueue)

theorem isAside_of_mem_sweep {communication : Option CommunicationId} :
    ∀ x ∈ sweep communication, x.isAside = true := by
  apply isAside_of_mem_issued
  intro call hcall
  obtain rfl | hmem := List.mem_cons.mp hcall
  · exact ⟨0, rfl⟩
  · obtain ⟨address, -, rfl⟩ := List.mem_map.mp hmem
    exact ⟨address, rfl⟩

/-- `c'` has just begun the update of `plan`. -/
structure Started (c : PPBController) (plan : FirmwarePlan) (c' : PPBController) : Prop where
  firmware : ∃ f, c'.firmware = some f ∧ f.plan = plan ∧ f.stage = .isYou ∧ f.wait = {} ∧
    f.crcArr = (0, 0, 0)
  communication : c.communication.isSome
  same : SameBut c c'
  log : c'.log = c.log ++ sweep c.communication ++ plan.issue c.communication 0 .isYou

theorem started_beginFirmware {c : PPBController} (f : FirmwareSession) {plan : FirmwarePlan}
    (hplan : f.plan = plan) (hcommunication : c.communication.isSome) (hcrc : f.crcArr = (0, 0, 0)) :
    Started c plan (c.beginFirmware f) := by
  subst hplan
  refine ⟨⟨_, rfl, rfl, rfl, rfl, hcrc⟩, hcommunication, sameBut_beginFirmware c f, ?_⟩
  let swept := { c with autoPollActive := false }.callAll
    (.clearCommandQueue 0 :: singleAddresses.map .clearCommandQueue)
  have hswept : swept.log = c.log ++ sweep c.communication := log_callAll _ _
  have hsame : swept.communication = c.communication := (sameBut_callAll _ _).communication
  show (swept.callCommunication _).log = _
  rw [log_callCommunication, hswept, hsame]
  rfl

/-- **An accepted update** has begun with what its arguments say. -/
theorem started_updateFirmware {c : PPBController} {selectedMask : UInt16}
    {hexFile : Option (List Line)} {newVersion : Option ℚ} {answers : Answers}
    (hidle : c.firmware = none)
    (haccepted : (c.updateFirmware selectedMask hexFile newVersion answers).firmware.isSome) :
    ∃ version, newVersion = some version ∧ roundedVersion version ≤ 0xFFFFFFFF ∧
      answers.busy = false ∧
      Started c (.of selectedMask hexFile version)
        (c.updateFirmware selectedMask hexFile newVersion answers) := by
  rcases c.updateFirmware_cases selectedMask hexFile newVersion answers with
    ⟨error, heq⟩ | ⟨version, f, haccepts, heq⟩
  · rw [heq] at haccepted
    change c.firmware.isSome = true at haccepted
    rw [hidle] at haccepted
    cases haccepted
  · have hplan : f.plan = .of selectedMask hexFile version := by
      unfold FirmwareSession.plan FirmwarePlan.of
      rw [haccepts.selectedMask, haccepts.versionCode, haccepts.payloads, haccepts.crc24]
    rw [heq]
    exact ⟨version, haccepts.requested, haccepts.range, haccepts.idle,
      started_beginFirmware f hplan haccepts.communication haccepts.crcArr⟩

/-- A HEX file of one byte. -/
def oneByteImage : List Line := [":0100000041BE".toList, ":00000001FF".toList]

theorem parse_oneByteImage : FirmwareUpdater.parseHexToDataBlocks (some oneByteImage) = [[0x41]] := by
  decide

/-- A controller that has begun to send it. -/
def updating : PPBController :=
  ({ communication := some 0 } : PPBController).updateFirmware 1 (some oneByteImage) (some 0) {}

/-- The update that `updating` has begun. -/
def oneByteSession : FirmwareSession where
  selectedMask := 1
  versionCode := 0
  payloads := [[0x41]]
  crc24 := crc24Of [0x41]
  restartAutoPoll := false
  nonempty := by simp
  bounded := by simp

theorem updating_eq : updating =
    PPBController.beginFirmware { communication := some 0 } oneByteSession := by
  have hversion : roundedVersion 0 = 0 := by norm_num [roundedVersion]
  have hpayloads : FirmwareUpdater.buildVolumePayloads [[0x41]] = [[0x41]] := by decide
  simp [updating, updateFirmware, hversion, parse_oneByteImage, hpayloads, oneByteSession]

theorem updating_accepted : updating.firmware.isSome := by
  rw [updating_eq]
  rfl

end PPBController

end PPB
