import Mathlib.Data.List.Infix
import PPBProject.Exclusive
import PPBProject.Lib.Register

/- The stages of a firmware update are safe: whatever the communication layer reports, and
   whenever, a stage begins only after the one before it was reported successful.

   The log of an update is cut into segments, one for each stage that has begun. A segment
   holds what came in and what was said while its stage waited; whether the stage succeeded
   is read off the segment alone: the last report that concerns it decides. -/
namespace PPB

/-! What the communication layer reports. -/

/-- The mask of active PPBs that an entry reports. -/
def Entry.reportedMask : Entry → Option UInt16
  | .noticed (.commandDataParsed address data command) =>
    if command = .isYou ∧ address = 0 then some (Engine.statusOf (some data)).1.toUInt16 else none
  | _ => none

/-- Whether an entry reports success or failure to a stage, which waits for the group `groupId`
if it waits for one. Running out of time is a failure of a VOLUME, and no report to the others. -/
def FirmwareStage.report (groupId : Nat) : FirmwareStage → Entry → Option Bool
  | .vers, .noticed (.groupCommandCompleted id success _)
  | .programm, .noticed (.groupCommandCompleted id success _) =>
    if id = groupId then some success else none
  | .volume _, .noticed (.commandCompleted success _ command)
  | .finalVolume, .noticed (.commandCompleted success _ command) =>
    if command = .volume then some success else none
  | .volume _, .timedOut | .finalVolume, .timedOut => some false
  | .update, .noticed (.commandCompleted success _ command) =>
    if command = .update then some success else none
  | .clean, .noticed (.commandCompleted success _ command) =>
    if command = .clean then some success else none
  | _, _ => none

/-- A stage that has begun, and what the log holds from then to the next one. -/
structure FirmwareSegment where
  stage : FirmwareStage
  groupId : Nat
  entries : List Entry

/-- The reported active mask and the selected one. -/
def FirmwareSegment.target (plan : FirmwarePlan) (s : FirmwareSegment) : UInt16 :=
  (Register.lastOf Entry.reportedMask s.entries).getD 0 &&& plan.selectedMask

/-- The stage was reported successful: the last report says so, or there is a PPB to update. -/
def FirmwareSegment.Succeeded (plan : FirmwarePlan) (s : FirmwareSegment) : Prop :=
  match s.stage with
  | .isYou => s.target plan ≠ 0
  | stage => Register.lastOf (stage.report s.groupId) s.entries = some true

/-- `targetMask`, as the first stage has found it. -/
def targetOf (plan : FirmwarePlan) (segments : List FirmwareSegment) : UInt16 :=
  match segments with
  | [] => 0
  | first :: _ => first.target plan

/-- A command for the PPBs, or the data of one. Clearing a queue is none. -/
def Entry.isCommand : Entry → Bool
  | .setCurrentVolumeData .. => true
  | .call _ (.clearCommandQueue _) => false
  | .call .. => true
  | _ => false

/-- The log of an update is the stages in order, each after the one before has succeeded. -/
structure Staged (plan : FirmwarePlan) (communication : Option CommunicationId)
    (segments : List FirmwareSegment) (log : List Entry) : Prop where
  log_eq : log = PPBController.sweep communication ++ segments.flatMap fun s =>
    plan.issue communication (targetOf plan segments) s.stage ++ s.entries
  ordered : segments.map (·.stage) <+: firmwareStages plan.totalBlocks
  confirmed : ∀ s ∈ segments.dropLast, s.Succeeded plan
  quiet : ∀ s ∈ segments, ∀ x ∈ s.entries, x.isCommand = false

/-! What a wait has noticed. -/

/-- The locals of the wait hold what the entries since its start have reported. -/
def FirmwareSession.Heard (f : FirmwareSession) (entries : List Entry) : Prop :=
  match f.stage with
  | .isYou => (Register.lastOf Entry.reportedMask entries).getD 0 = f.wait.activeMask
  | .volume _ | .finalVolume =>
    (Register.lastOf (f.stage.report f.wait.groupId) entries).getD false = f.wait.success
  | .vers | .programm | .update | .clean =>
    Register.lastOf (f.stage.report f.wait.groupId) entries =
      if f.wait.completed then some f.wait.success else none

section
variable {f : FirmwareSession} {entries : List Entry}

theorem heard_nil (groupId : Nat) (h : f.wait = { groupId }) : f.Heard [] := by
  unfold FirmwareSession.Heard
  rw [h]
  cases f.stage <;> rfl

/-- The entry tells no stage anything. -/
def Entry.Silent (x : Entry) : Prop :=
  x.reportedMask = none ∧ ∀ groupId, ∀ stage : FirmwareStage, stage.report groupId x = none

theorem silent_of_isAside {x : Entry} (h : x.isAside = true) : x.Silent := by
  refine ⟨?_, fun groupId stage => ?_⟩
  · cases x <;> first | rfl | cases h
  · cases x <;> first | (cases stage <;> rfl) | cases h

theorem silent_finalProgress (n : Nat) : (finalProgress n).Silent := by
  refine ⟨rfl, fun groupId stage => ?_⟩
  cases stage <;> rfl

theorem FirmwareSession.Heard.append (h : f.Heard entries) {new : List Entry}
    (hnew : ∀ x ∈ new, x.Silent) : f.Heard (entries ++ new) := by
  unfold FirmwareSession.Heard at h ⊢
  rw [Register.lastOf_append_of_none fun x hx => (hnew x hx).1,
    Register.lastOf_append_of_none fun x hx => (hnew x hx).2 _ _]
  exact h

theorem FirmwareSession.Heard.timeout (h : f.Heard entries) :
    f.timeout.Heard (entries ++ [.timedOut]) := by
  unfold FirmwareSession.Heard FirmwareSession.timeout at *
  cases hstage : f.stage with
  | volume | finalVolume =>
    simp only [Register.lastOf_snoc, FirmwareStage.report, Option.some_or]
    rfl
  | _ =>
    simp only [hstage, Register.lastOf_snoc, Entry.reportedMask, FirmwareStage.report,
      Option.none_or] at h ⊢
    exact h

theorem FirmwareSession.Heard.notice (h : f.Heard entries) (signal : Signal) :
    (f.notice signal).Heard (entries ++ [.noticed signal]) := by
  unfold FirmwareSession.Heard FirmwareSession.notice at *
  simp only [Register.lastOf_snoc]
  cases hstage : f.stage with
  | isYou =>
    cases signal with
    | commandDataParsed address data command =>
      by_cases hown : command = .isYou ∧ address = 0
      · simp [Entry.reportedMask, hown]
      · simpa [hstage, Entry.reportedMask, hown] using h
    | _ => simpa [hstage, Entry.reportedMask] using h
  | vers | programm =>
    cases signal with
    | groupCommandCompleted id success summary =>
      by_cases hown : id = f.wait.groupId
      · simp [FirmwareStage.report, hown]
      · simpa [hstage, FirmwareStage.report, hown] using h
    | _ => simpa [hstage, FirmwareStage.report] using h
  | volume | finalVolume =>
    cases signal with
    | commandCompleted success message command =>
      by_cases hown : command = .volume
      · simp [FirmwareStage.report, hown]
      · simpa [hstage, FirmwareStage.report, hown] using h
    | _ => simpa [hstage, FirmwareStage.report] using h
  | update =>
    cases signal with
    | commandCompleted success message command =>
      by_cases hown : command = .update
      · simp [FirmwareStage.report, hown]
      · simpa [hstage, FirmwareStage.report, hown] using h
    | _ => simpa [hstage, FirmwareStage.report] using h
  | clean =>
    cases signal with
    | commandCompleted success message command =>
      by_cases hown : command = .clean
      · simp [FirmwareStage.report, hown]
      · simpa [hstage, FirmwareStage.report, hown] using h
    | _ => simpa [hstage, FirmwareStage.report] using h

/-- A wait has ended well exactly if what it has heard says so. -/
theorem confirmed_iff_succeeded (h : f.Heard entries) :
    f.confirmed = true ↔
      FirmwareSegment.Succeeded f.plan ⟨f.stage, f.wait.groupId, entries⟩ := by
  unfold FirmwareSession.Heard at h
  unfold FirmwareSession.confirmed FirmwareSegment.Succeeded
  cases hstage : f.stage with
  | isYou =>
    simp only [hstage] at h ⊢
    simp [FirmwareSegment.target, h, FirmwareSession.plan]
  | volume | finalVolume =>
    simp only [hstage] at h ⊢
    rw [← h]
    cases Register.lastOf _ entries <;> simp
  | vers | programm | update | clean =>
    simp only [hstage] at h ⊢
    rw [h]
    cases f.wait.completed <;> simp

end

/-! The log grows. -/

section
variable {plan : FirmwarePlan} {communication : Option CommunicationId}
  {before : List FirmwareSegment} {s : FirmwareSegment} {log : List Entry}

theorem targetOf_append (h : before ≠ []) (segments : List FirmwareSegment) :
    targetOf plan (before ++ segments) = targetOf plan before := by
  cases before with
  | nil => exact absurd rfl h
  | cons => rfl

/-- More is said while a stage waits. -/
theorem Staged.append (h : Staged plan communication (before ++ [s]) log)
    (hfirst : before = [] → s.stage = .isYou) {new : List Entry}
    (hnew : ∀ x ∈ new, x.isCommand = false) :
    Staged plan communication (before ++ [{ s with entries := s.entries ++ new }]) (log ++ new) where
  log_eq := by
    rw [h.log_eq, List.append_assoc]
    congr 1
    cases before with
    | nil =>
      -- the target is not settled yet, but IS_YOU does not use it
      simp [hfirst rfl, FirmwarePlan.issue]
    | cons first rest => simp [targetOf]
  ordered := by simpa using h.ordered
  confirmed := by simpa using h.confirmed
  quiet := by
    intro x hx
    obtain hx | hx := List.mem_append.mp hx
    · exact h.quiet x (List.mem_append_left _ hx)
    · intro y hy
      rw [List.mem_singleton.mp hx] at hy
      obtain hy | hy := List.mem_append.mp hy
      · exact h.quiet s (by simp) y hy
      · exact hnew y hy

/-- The next stage begins. -/
theorem Staged.next (h : Staged plan communication (before ++ [s]) log)
    (hpos : 0 < plan.totalBlocks) (hsucceeded : s.Succeeded plan) {stage : FirmwareStage}
    (hnext : s.stage.next plan.totalBlocks = some stage) (groupId : Nat) :
    Staged plan communication (before ++ [s] ++ [⟨stage, groupId, []⟩])
      (log ++ plan.issue communication (targetOf plan (before ++ [s])) stage) where
  log_eq := by
    have htarget : targetOf plan (before ++ [s] ++ [⟨stage, groupId, []⟩]) =
        targetOf plan (before ++ [s]) := targetOf_append (by simp) _
    rw [h.log_eq, List.append_assoc, htarget]
    simp
  ordered := by
    have hordered := h.ordered
    rw [List.map_append] at hordered
    have hlater := prefix_firmwareStages_next hpos hordered hnext
    simpa using hlater
  confirmed := by
    intro x hx
    rw [List.dropLast_concat] at hx
    obtain hx | hx := List.mem_append.mp hx
    · apply h.confirmed x
      rw [List.dropLast_concat]
      exact hx
    · rw [List.mem_singleton.mp hx]
      exact hsucceeded
  quiet := by
    intro x hx
    obtain hx | hx := List.mem_append.mp hx
    · exact h.quiet x hx
    · rw [List.mem_singleton.mp hx]
      simp

theorem isCommand_of_isAside {x : Entry} (h : x.isAside = true) : x.isCommand = false := by
  cases x with
  | call communication call =>
    cases call <;> first | rfl | cases h
  | _ => first | rfl | cases h

theorem isCommand_issue (targetMask : UInt16) (stage : FirmwareStage) :
    ∀ x ∈ plan.issue communication targetMask stage, x.isCommand = true := by
  cases communication <;> cases stage <;> simp [FirmwarePlan.issue, issued, Entry.isCommand]

/-- The commands of the log are those of the stages that have begun. -/
theorem Staged.filter_isCommand {segments : List FirmwareSegment}
    (h : Staged plan communication segments log) :
    log.filter Entry.isCommand = (segments.map (·.stage)).flatMap
      (plan.issue communication (targetOf plan segments)) := by
  have hsegment (s : FirmwareSegment) (hs : s ∈ segments) :
      (plan.issue communication (targetOf plan segments) s.stage ++ s.entries).filter
          Entry.isCommand = plan.issue communication (targetOf plan segments) s.stage := by
    have hnone : s.entries.filter Entry.isCommand = [] :=
      List.filter_eq_nil_iff.mpr fun x hx => by simp [h.quiet s hs x hx]
    rw [List.filter_append, hnone, List.append_nil,
      List.filter_eq_self.mpr (isCommand_issue _ s.stage)]
  have hsweep : (PPBController.sweep communication).filter Entry.isCommand = [] :=
    List.filter_eq_nil_iff.mpr fun x hx => by
      simp [isCommand_of_isAside (PPBController.isAside_of_mem_sweep x hx)]
  rw [h.log_eq, List.filter_append, hsweep, List.nil_append, List.filter_flatMap, List.flatMap_map]
  exact List.flatMap_congr fun s hs => hsegment s hs

theorem exists_four {segments : List FirmwareSegment} (h : 4 ≤ segments.length) :
    ∃ s₁ s₂ s₃ s₄ rest, segments = s₁ :: s₂ :: s₃ :: s₄ :: rest := by
  obtain ⟨s₁, segments, rfl⟩ := List.exists_cons_of_length_pos (by omega : 0 < segments.length)
  rw [List.length_cons] at h
  obtain ⟨s₂, segments, rfl⟩ := List.exists_cons_of_length_pos (by omega : 0 < segments.length)
  rw [List.length_cons] at h
  obtain ⟨s₃, segments, rfl⟩ := List.exists_cons_of_length_pos (by omega : 0 < segments.length)
  rw [List.length_cons] at h
  obtain ⟨s₄, segments, rfl⟩ := List.exists_cons_of_length_pos (by omega : 0 < segments.length)
  exact ⟨s₁, s₂, s₃, s₄, segments, rfl⟩

/-- A VOLUME is issued only after both groups have succeeded. -/
theorem Staged.groups {segments : List FirmwareSegment}
    (h : Staged plan communication segments log) {id : CommunicationId}
    (hvolume : .call id (.executeCommand .volume 0) ∈ log) :
    ∃ first vers programm rest, segments = first :: vers :: programm :: rest ∧
      vers.stage = .vers ∧ programm.stage = .programm ∧
      vers.Succeeded plan ∧ programm.Succeeded plan := by
  have hissued : .call id (.executeCommand .volume 0) ∈ log.filter Entry.isCommand :=
    List.mem_filter.mpr ⟨hvolume, rfl⟩
  rw [h.filter_isCommand] at hissued
  obtain ⟨stage, hmem, hissued⟩ := List.mem_flatMap.mp hissued
  have hstage : stage ≠ .isYou ∧ stage ≠ .vers ∧ stage ≠ .programm := by
    refine ⟨?_, ?_, ?_⟩ <;> rintro rfl <;> cases communication <;>
      simp [FirmwarePlan.issue, issued] at hissued
  have hposition (k : Nat) (stage : FirmwareStage) (hk : (segments.map (·.stage))[k]? = some stage) :
      (firmwareStages plan.totalBlocks)[k]? = some stage := by
    obtain ⟨later, hlater⟩ := h.ordered
    rw [← hlater, List.getElem?_append_left (List.getElem?_eq_some_iff.mp hk).1, hk]
  -- the stage of the VOLUME is not among the first three
  obtain ⟨k, hk⟩ := List.mem_iff_getElem?.mp hmem
  have hlater : 3 ≤ k := by
    by_contra hlt
    have hthere := hposition k stage hk
    rw [getElem?_firmwareStages, if_pos (by omega)] at hthere
    have hfirst := List.mem_of_getElem? hthere
    simp [hstage] at hfirst
  have hlong : 4 ≤ segments.length := by
    have hbound := (List.getElem?_eq_some_iff.mp hk).1
    rw [List.length_map] at hbound
    omega
  have hconfirmed := h.confirmed
  obtain ⟨first, vers, programm, s, rest, rfl⟩ := exists_four hlong
  have hvers := hposition 1 vers.stage rfl
  have hprogramm := hposition 2 programm.stage rfl
  rw [getElem?_firmwareStages] at hvers hprogramm
  exact ⟨first, vers, programm, s :: rest, rfl, (Option.some.inj hvers).symm,
    (Option.some.inj hprogramm).symm, hconfirmed vers (by simp), hconfirmed programm (by simp)⟩

/-- The target mask is not zero once it is used. -/
theorem Staged.target_ne_zero {segments : List FirmwareSegment}
    (h : Staged plan communication segments log) (hlong : 2 ≤ segments.length) :
    targetOf plan segments ≠ 0 := by
  have hconfirmed := h.confirmed
  obtain ⟨later, hlater⟩ := h.ordered
  cases segments with
  | nil => simp at hlong
  | cons first rest =>
    have hrest : rest ≠ [] := by
      rintro rfl
      simp at hlong
    have hfirst : first.Succeeded plan := by
      apply hconfirmed
      rw [List.dropLast_cons_of_ne_nil hrest]
      exact List.mem_cons_self
    have hstage : first.stage = .isYou := by
      injection hlater
    unfold FirmwareSegment.Succeeded at hfirst
    rw [hstage] at hfirst
    exact hfirst

end

/-! The update, step by step. -/

/-- The target mask is the one the first stage has found, once that is over. -/
def FirmwareSession.Aims (f : FirmwareSession) (plan : FirmwarePlan)
    (past : List FirmwareSegment) : Prop :=
  f.stage = .isYou ∧ past = [] ∨
    f.stage ≠ .isYou ∧ past ≠ [] ∧ f.targetMask = targetOf plan past

theorem FirmwareSession.Aims.first {f : FirmwareSession} {plan : FirmwarePlan}
    {past : List FirmwareSegment} (h : f.Aims plan past) (hpast : past = []) : f.stage = .isYou := by
  obtain ⟨hstage, -⟩ | ⟨-, hne, -⟩ := h
  · exact hstage
  · exact absurd hpast hne

namespace PPBController

/-- Where an update stands whose log so far is `before`, followed by what it has logged itself. -/
inductive Updating (plan : FirmwarePlan) (communication : Option CommunicationId)
    (before : List Entry) (c : PPBController) : Prop where
  | running (f : FirmwareSession) (past : List FirmwareSegment) (entries new : List Entry) :
    c.firmware = some f → c.log = before ++ new → c.communication = communication →
    Staged plan communication (past ++ [⟨f.stage, f.wait.groupId, entries⟩]) new →
    f.plan = plan → f.Kept → f.Heard entries → f.Aims plan past →
    finalProgress plan.totalBlocks ∉ new → Updating plan communication before c
  | ended (segments : List FirmwareSegment) (new : List Entry) :
    c.firmware = none → c.log = before ++ new → Staged plan communication segments new →
    (finalProgress plan.totalBlocks ∈ new ↔
      segments.map (·.stage) = firmwareStages plan.totalBlocks ∧ ∀ s ∈ segments, s.Succeeded plan) →
    Updating plan communication before c

section
variable {plan : FirmwarePlan} {communication : Option CommunicationId} {before : List Entry}
  {c c' : PPBController} {f : FirmwareSession}

theorem finalProgress_not_aside {n : Nat} {new : List Entry} (h : ∀ x ∈ new, x.isAside = true) :
    finalProgress n ∉ new := by
  intro hmem
  have haside := h _ hmem
  simp [finalProgress, Entry.isAside] at haside

theorem finalProgress_not_issue {n : Nat} (targetMask : UInt16) (stage : FirmwareStage) :
    finalProgress n ∉ plan.issue communication targetMask stage := by
  intro hmem
  cases isCommand_issue targetMask stage _ hmem

theorem nextTarget_eq {past : List FirmwareSegment} {entries : List Entry} (hplan : f.plan = plan)
    (hheard : f.Heard entries)
    (htarget : f.Aims plan past) :
    f.nextTarget = targetOf plan (past ++ [⟨f.stage, f.wait.groupId, entries⟩]) := by
  obtain ⟨hstage, rfl⟩ | ⟨hstage, hpast, htarget⟩ := htarget
  · unfold FirmwareSession.Heard at hheard
    rw [hstage] at hheard
    subst hplan
    show (if f.stage = .isYou then _ else _) = _
    rw [if_pos hstage, ← hheard]
    rfl
  · rw [targetOf_append hpast, ← htarget]
    exact if_neg hstage

theorem next_ne_isYou {n : Nat} {stage later : FirmwareStage} (h : stage.next n = some later) :
    later ≠ .isYou := by
  rintro rfl
  cases stage with
  | volume i =>
    simp only [FirmwareStage.next] at h
    split at h <;> cases h
  | _ => cases h

/-- What the return from an event loop does to the stages. -/
theorem Updating.resumed {past : List FirmwareSegment} {entries new : List Entry} {groupId : Nat}
    (hlog : c.log = before ++ new) (hcommunication : c.communication = communication)
    (hstaged : Staged plan communication (past ++ [⟨f.stage, f.wait.groupId, entries⟩]) new)
    (hplan : f.plan = plan) (hheard : f.Heard entries)
    (htarget : f.Aims plan past) (hfinal : finalProgress plan.totalBlocks ∉ new)
    (hsame : c'.communication = c.communication)
    (h : Resumed c f groupId c') : Updating plan communication before c' := by
  subst hplan hcommunication
  have hpos : 0 < f.plan.totalBlocks := List.length_pos_iff.mpr f.nonempty
  -- what is still said while the stage waits belongs to its segment
  have hmore (tail : List Entry) (htail : ∀ x ∈ tail, x.isAside = true) :
      Staged f.plan c.communication (past ++ [⟨f.stage, f.wait.groupId, entries ++ tail⟩])
        (new ++ tail) ∧ f.Heard (entries ++ tail) ∧
        finalProgress f.plan.totalBlocks ∉ new ++ tail := by
    refine ⟨hstaged.append htarget.first fun x hx => isCommand_of_isAside (htail x hx),
      hheard.append fun x hx => silent_of_isAside (htail x hx), ?_⟩
    rw [List.mem_append, not_or]
    exact ⟨hfinal, finalProgress_not_aside htail⟩
  cases h with
  | failed tail hfailed hnone hlog' htail =>
    obtain ⟨hstaged', hheard', hfinal'⟩ := hmore tail htail
    refine .ended _ _ hnone (hlog'.trans (by rw [hlog, List.append_assoc])) hstaged' ?_
    refine iff_of_false hfinal' fun hall => ?_
    have hsucceeded := hall.2 _ (List.mem_append_right past (List.mem_singleton_self _))
    rw [← confirmed_iff_succeeded hheard', hfailed] at hsucceeded
    cases hsucceeded
  | refused stage error hdone hstage hgroup hzero hnone hlog' =>
    have hbegun := hstaged.next hpos ((confirmed_iff_succeeded hheard).mp hdone) hstage groupId
    rw [← nextTarget_eq rfl hheard htarget] at hbegun
    have herror : ∀ x ∈ [Entry.errorOccurred error], x.isCommand = false := by
      simp [Entry.isCommand]
    refine .ended _ _ hnone (hlog'.trans (by rw [hlog]; simp only [List.append_assoc]))
      (hbegun.append (by simp) herror) ?_
    apply iff_of_false
    · simp only [List.mem_append, not_or]
      refine ⟨⟨hfinal, finalProgress_not_issue _ stage⟩, ?_⟩
      simp [finalProgress]
    · -- the group was not accepted, so nothing can report its success
      rintro ⟨-, hall⟩
      have hsucceeded := hall _ (List.mem_append_right _ (List.mem_singleton_self _))
      cases stage with
      | vers | programm => cases hsucceeded
      | _ => cases hgroup
  | @advanced f' head stage hdone hstage hbegun hsome hhead hlog' =>
    obtain ⟨hstaged', hheard', hfinal'⟩ := hmore head hhead
    have htarget' := nextTarget_eq rfl hheard' htarget
    have hlater := next_ne_isYou hstage
    have hwait := hbegun.wait
    have hmask := hbegun.targetMask.trans htarget'
    obtain rfl : f'.stage = stage := hbegun.stage_eq
    have hnext := hstaged'.next hpos ((confirmed_iff_succeeded hheard').mp hdone) hstage
      f'.wait.groupId
    rw [← htarget'] at hnext
    refine .running f' _ [] _ hsome (hlog'.trans (by rw [hlog]; simp only [List.append_assoc]))
      hsame hnext hbegun.plan hbegun.kept (heard_nil _ hwait) (.inr ⟨hlater, by simp, hmask⟩) ?_
    rw [List.mem_append, not_or]
    exact ⟨hfinal', finalProgress_not_issue _ _⟩
  | finished hdone hstage hnone hlog' =>
    have hquiet : ∀ x ∈ [finalProgress f.totalBlocks], x.isCommand = false := by
      intro x hx
      rw [List.mem_singleton.mp hx]
      rfl
    have hsilent : ∀ x ∈ [finalProgress f.totalBlocks], x.Silent := by
      intro x hx
      rw [List.mem_singleton.mp hx]
      exact silent_finalProgress _
    have hend := hstaged.append htarget.first hquiet
    refine .ended _ _ hnone (hlog'.trans (by rw [hlog, List.append_assoc])) hend ?_
    apply iff_of_true
    · exact List.mem_append_right _ (List.mem_singleton_self _)
    · constructor
      · have hordered := hend.ordered
        rw [List.map_append, List.map_singleton, hstage] at hordered ⊢
        exact eq_firmwareStages_of_clean hpos hordered
      · intro s hs
        obtain hs | hs := List.mem_append.mp hs
        · apply hend.confirmed
          rwa [List.dropLast_concat]
        · rw [List.mem_singleton.mp hs]
          exact (confirmed_iff_succeeded (hheard.append hsilent)).mp hdone

/-- One event inside an event loop. -/
theorem Updating.inside (h : Updating plan communication before c) (hf : c.firmware = some f)
    (hinside : Inside c f c') : Updating plan communication before c' := by
  cases h with
  | ended segments new hnone =>
    rw [hnone] at hf
    cases hf
  | running f₁ past entries new hfirmware hlog hcommunication hstaged hplan hkept hheard htarget
      hfinal =>
    obtain rfl := Option.some.inj (hfirmware.symm.trans hf)
    cases hinside with
    | aside hfirmware' hcommunication' hlog' =>
      obtain ⟨tail, hlog', htail⟩ := hlog'
      refine .running f₁ past (entries ++ tail) (new ++ tail) hfirmware'
        (hlog'.trans (by rw [hlog, List.append_assoc])) (hcommunication'.trans hcommunication)
        (hstaged.append htarget.first fun x hx => isCommand_of_isAside (htail x hx)) hplan hkept
        (hheard.append fun x hx => silent_of_isAside (htail x hx)) htarget ?_
      rw [List.mem_append, not_or]
      exact ⟨hfinal, finalProgress_not_aside htail⟩
    | noticed signal hfirmware' hcommunication' hlog' =>
      have hstage := FirmwareSession.notice_stage f₁ signal
      have hgroupId := FirmwareSession.notice_groupId f₁ signal
      have hstaged' := @Staged.append _ _ _ _ _ hstaged htarget.first [.noticed signal]
        (by simp [Entry.isCommand])
      refine .running (f₁.notice signal) past (entries ++ [.noticed signal]) _ hfirmware'
        (hlog'.trans (by rw [hlog, List.append_assoc])) (hcommunication'.trans hcommunication)
        (hstage ▸ hgroupId ▸ hstaged') ?_ (FirmwareSession.kept_notice hkept signal)
        (hheard.notice signal) ?_ ?_
      · rw [FirmwareSession.notice_eq]
        exact hplan
      · rw [FirmwareSession.notice_eq]
        exact htarget
      · simpa [finalProgress] using hfinal
    | timedOut hfirmware' hcommunication' hlog' =>
      have hstage := FirmwareSession.timeout_stage f₁
      have hgroupId := FirmwareSession.timeout_groupId f₁
      have hstaged' := @Staged.append _ _ _ _ _ hstaged htarget.first [.timedOut]
        (by simp [Entry.isCommand])
      refine .running f₁.timeout past (entries ++ [.timedOut]) _ hfirmware'
        (hlog'.trans (by rw [hlog, List.append_assoc])) (hcommunication'.trans hcommunication)
        (hstage ▸ hgroupId ▸ hstaged') ?_ (FirmwareSession.kept_timeout hkept) hheard.timeout ?_ ?_
      · rw [FirmwareSession.timeout_eq]
        exact hplan
      · rw [FirmwareSession.timeout_eq]
        exact htarget
      · simpa [finalProgress] using hfinal
    | resumed groupId _ hcommunication' hresumed =>
      exact Updating.resumed hlog hcommunication hstaged hplan hheard htarget hfinal
        hcommunication' (hresumed hkept)

theorem Updating.run {codeToVSWR : Nat → UInt16 → FloatBits} {events : List ControllerEvent}
    (h : Updating plan communication before c) (hrun : c.runInside codeToVSWR events = some c') :
    Updating plan communication before c' := by
  induction events generalizing c with
  | nil =>
    cases hrun
    exact h
  | cons e rest ih =>
    unfold runInside at hrun
    rw [List.foldlM_cons] at hrun
    obtain ⟨next, hstep, hrest⟩ := Option.bind_eq_some_iff.mp hrun
    obtain ⟨f, hf, hinside⟩ := inside_handleInside hstep
    exact ih (h.inside hf hinside) hrest

theorem updating_of_started (h : Started c plan c') :
    Updating plan c.communication c.log c' := by
  obtain ⟨f, hf, hplan, hstage, hwait, hcrc⟩ := h.firmware
  have hheard : f.Heard [] := heard_nil 0 hwait
  have hkept : f.Kept := by
    unfold FirmwareSession.Kept
    rw [hstage]
    exact hcrc
  refine .running f [] [] _ hf (h.log.trans (List.append_assoc ..)) h.same.communication ?_ hplan
    hkept hheard (.inl ⟨hstage, rfl⟩) ?_
  · rw [hstage]
    refine ⟨?_, ?_, by simp, by simp⟩
    · simp [FirmwarePlan.issue]
    · simp [firmwareStages]
  · rw [List.mem_append, not_or]
    exact ⟨finalProgress_not_aside isAside_of_mem_sweep, finalProgress_not_issue _ _⟩

end

/-- **The stages of a firmware update are safe.** Whatever happens inside the event loops of an
accepted update: what it has logged is a sequence of stages, each begun after the one before was
reported successful; its commands are a beginning of the whole script, on the reported mask
restricted to the selected one; no VOLUME is issued unless both groups have succeeded; and the
final progress is reported if and only if every stage has succeeded and the update is over. -/
theorem updateFirmware_staged {codeToVSWR : Nat → UInt16 → FloatBits} {c c₁ c' : PPBController}
    {selectedMask : UInt16} {hexFile : Option (List Line)} {newVersion : Option ℚ}
    {answers : Answers} {events : List ControllerEvent} (hidle : c.firmware = none)
    (hupdate : c.updateFirmware selectedMask hexFile newVersion answers = c₁)
    (haccepted : c₁.firmware.isSome) (hrun : c₁.runInside codeToVSWR events = some c') :
    ∃ version plan segments new, newVersion = some version ∧
      plan = FirmwarePlan.of selectedMask hexFile version ∧ c'.log = c.log ++ new ∧
      Staged plan c.communication segments new ∧
      new.filter Entry.isCommand <+: (firmwareStages plan.totalBlocks).flatMap
        (plan.issue c.communication (targetOf plan segments)) ∧
      (2 ≤ segments.length → targetOf plan segments ≠ 0) ∧
      (∀ id, .call id (.executeCommand .volume 0) ∈ new →
        ∃ first vers programm rest, segments = first :: vers :: programm :: rest ∧
          vers.stage = .vers ∧ programm.stage = .programm ∧
          vers.Succeeded plan ∧ programm.Succeeded plan) ∧
      (finalProgress plan.totalBlocks ∈ new ↔ c'.firmware = none ∧
        segments.map (·.stage) = firmwareStages plan.totalBlocks ∧
        ∀ s ∈ segments, s.Succeeded plan) := by
  subst hupdate
  obtain ⟨version, hversion, -, -, hstarted⟩ := started_updateFirmware hidle haccepted
  refine ⟨version, .of selectedMask hexFile version, ?_⟩
  have hend := (updating_of_started hstarted).run hrun
  generalize FirmwarePlan.of selectedMask hexFile version = plan at hend ⊢
  have hprefix {segments : List FirmwareSegment} {new : List Entry}
      (hstaged : Staged plan c.communication segments new) :
      new.filter Entry.isCommand <+: (firmwareStages plan.totalBlocks).flatMap
        (plan.issue c.communication (targetOf plan segments)) := by
    rw [hstaged.filter_isCommand]
    exact hstaged.ordered.flatMap _
  cases hend with
  | running f past entries new hf hlog _ hstaged _ _ _ _ hfinal =>
    refine ⟨_, new, hversion, rfl, hlog, hstaged, hprefix hstaged, hstaged.target_ne_zero,
      fun _ => hstaged.groups, ?_⟩
    refine iff_of_false hfinal fun hover => ?_
    rw [hf] at hover
    cases hover.1
  | ended segments new hnone hlog hstaged hfinal =>
    exact ⟨segments, new, hversion, rfl, hlog, hstaged, hprefix hstaged, hstaged.target_ne_zero,
      fun _ => hstaged.groups, by simp [hnone, hfinal]⟩

/-- Every stage of the update is confirmed. -/
def confirmations : List ControllerEvent :=
  [.noticed (.commandDataParsed 0 (.activeMask 3) .isYou), .resume 7,
    .noticed (.groupCommandCompleted 7 true ""), .resume 8,
    .noticed (.groupCommandCompleted 8 true ""), .resume 0,
    .noticed (.commandCompleted true "" .volume), .resume 0,
    .noticed (.commandCompleted true "" .volume), .resume 0,
    .noticed (.commandCompleted true "" .update), .resume 0,
    .noticed (.commandCompleted true "" .clean), .resume 0]

theorem updating_confirmed : ∃ c', updating.runInside (fun _ _ => 0) confirmations = some c' ∧
    finalProgress 1 ∈ c'.log := by
  rw [updating_eq]
  exact ⟨_, rfl, List.mem_of_getLast? rfl⟩

/-- All stages are begun, and succeed. -/
theorem updateFirmware_staged_confirmed : ∃ plan segments new,
    Staged plan (some 0) segments new ∧ segments.map (·.stage) = firmwareStages 1 ∧
      ∀ s ∈ segments, s.Succeeded plan := by
  obtain ⟨c', hrun, hfinal⟩ := updating_confirmed
  obtain ⟨version, plan, segments, new, -, hplan, hlog, hstaged, -, -, -, hiff⟩ :=
    updateFirmware_staged rfl rfl updating_accepted hrun
  have htotal : plan.totalBlocks = 1 := by
    rw [hplan]
    show (FirmwareUpdater.buildVolumePayloads _).length = 1
    rw [parse_oneByteImage]
    decide
  rw [htotal] at hiff
  have hnew : finalProgress 1 ∈ new := by
    rw [hlog] at hfinal
    simpa using hfinal
  exact ⟨plan, segments, new, hstaged, (hiff.mp hnew).2⟩

end PPBController

end PPB
