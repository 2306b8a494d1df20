import PPBProject.Exclusive

/- `updateFirmware` returns. Each of its event loops is quit by a signal or by the timer that
   was started with it, so none of them can hang; and each return from one either ends the
   update or goes on to the next stage, of which there are as many as the image has blocks,
   and six more. -/
namespace PPB

/-- The stages from this one to the end, for an image of `n` blocks. -/
def FirmwareStage.left (n : Nat) : FirmwareStage → Nat
  | .isYou => n + 6
  | .vers => n + 5
  | .programm => n + 4
  | .volume i => n - i + 3
  | .finalVolume => 3
  | .update => 2
  | .clean => 1

theorem FirmwareStage.left_next {n : Nat} {stage later : FirmwareStage}
    (hblock : ∀ i, stage = .volume i → i < n) (h : stage.next n = some later) :
    later.left n + 1 = stage.left n := by
  cases stage with
  | volume i =>
    have hi := hblock i rfl
    simp only [next, Option.some.injEq] at h
    split at h
    · subst h
      simp only [left]
      omega
    · subst h
      simp only [left]
      omega
  | clean => cases h
  | _ =>
    cases h
    rfl

theorem FirmwareStage.left_pos (n : Nat) (stage : FirmwareStage) : 0 < stage.left n := by
  cases stage <;> simp [left]

/-- An event loop of the update returns. -/
def ControllerEvent.isReturn : ControllerEvent → Bool
  | .resume _ => true
  | _ => false

/-- What the waits of the update come to when nothing else happens. -/
def ControllerEvent.isWaitEnd : ControllerEvent → Bool
  | .timedOut | .resume _ => true
  | _ => false

/-- Until the loop is told to quit, its timer runs. -/
def FirmwareSession.Ends (f : FirmwareSession) : Prop :=
  f.wait.timerActive = true ∨ f.wait.quit = true

theorem FirmwareSession.ends_notice {f : FirmwareSession} (h : f.Ends) (signal : Signal) :
    (f.notice signal).Ends := by
  unfold notice
  split
  case h_8 => exact h
  all_goals split <;> first | exact h | exact .inr rfl

theorem FirmwareSession.ends_timeout (f : FirmwareSession) : f.timeout.Ends := by
  unfold timeout
  dsimp only
  split <;> exact .inr rfl

namespace PPBController

/-- The stages of the update that are left. -/
def stagesLeft (c : PPBController) : Nat :=
  match c.firmware with
  | some f => f.stage.left f.totalBlocks
  | none => 0

theorem stagesLeft_some {c : PPBController} {f : FirmwareSession} (h : c.firmware = some f) :
    c.stagesLeft = f.stage.left f.totalBlocks := by
  simp [stagesLeft, h]

theorem stagesLeft_none {c : PPBController} (h : c.firmware = none) : c.stagesLeft = 0 := by
  simp [stagesLeft, h]

/-- The update, if there is one, waits for a block of its image and cannot hang. -/
def Waits (c : PPBController) : Prop := ∀ f, c.firmware = some f → f.Kept ∧ f.Ends

section
variable {c c' : PPBController} {f : FirmwareSession} {groupId : Nat}

theorem waits_of_ended (h : c.firmware = none) : c.Waits := by
  intro f hf
  rw [h] at hf
  cases hf

theorem Waits.of_session {f' : FirmwareSession} (h : c'.firmware = some f') (hkept : f'.Kept)
    (hends : f'.Ends) : c'.Waits := by
  intro g hg
  obtain rfl := Option.some.inj (h.symm.trans hg)
  exact ⟨hkept, hends⟩

/-- A return ends the update or uses up a stage. -/
theorem Resumed.stagesLeft_lt (h : Resumed c f groupId c') (hf : c.firmware = some f)
    (hkept : f.Kept) : c'.Waits ∧ c'.stagesLeft + 1 ≤ c.stagesLeft := by
  have hended (hnone : c'.firmware = none) : c'.Waits ∧ c'.stagesLeft + 1 ≤ c.stagesLeft := by
    refine ⟨waits_of_ended hnone, ?_⟩
    rw [stagesLeft_none hnone, stagesLeft_some hf]
    exact FirmwareStage.left_pos _ _
  cases h with
  | failed _ _ hnone | refused _ _ _ _ _ _ hnone | finished _ _ hnone => exact hended hnone
  | @advanced f' _ stage _ hnext hbegun hfirmware =>
    have hblocks : f'.totalBlocks = f.totalBlocks :=
      congrArg (fun plan => plan.payloads.length) hbegun.plan
    refine ⟨.of_session hfirmware hbegun.kept (.inl ?_), ?_⟩
    · rw [hbegun.wait]
    · rw [stagesLeft_some hfirmware, stagesLeft_some hf, hblocks, hbegun.stage_eq]
      refine (FirmwareStage.left_next (fun i hi => ?_) hnext).le
      unfold FirmwareSession.Kept at hkept
      rw [hi] at hkept
      exact hkept.1

/-- **One event inside an event loop** leaves the stages as they are, and a return uses one up. -/
theorem Waits.step {codeToVSWR : Nat → UInt16 → FloatBits} {e : ControllerEvent} (h : c.Waits)
    (hstep : c.handleInside codeToVSWR e = some c') :
    c'.Waits ∧ c'.stagesLeft + (if e.isReturn then 1 else 0) ≤ c.stagesLeft := by
  obtain ⟨f, hf, hinside⟩ := inside_handleInside hstep
  obtain ⟨hkept, hends⟩ := h f hf
  have hsame {f' : FirmwareSession} (hf' : c'.firmware = some f') (hstage : f'.stage = f.stage)
      (hplan : f'.plan = f.plan) : c'.stagesLeft = c.stagesLeft := by
    have hblocks : f'.totalBlocks = f.totalBlocks :=
      congrArg (fun plan => plan.payloads.length) hplan
    rw [stagesLeft_some hf', stagesLeft_some hf, hstage, hblocks]
  have hother (hreturn : e.isReturn = false) :
      c'.Waits ∧ c'.stagesLeft + (if e.isReturn then 1 else 0) ≤ c.stagesLeft := by
    rw [hreturn]
    cases hinside with
    | aside hf' =>
      exact ⟨.of_session hf' hkept hends, (hsame hf' rfl rfl).le⟩
    | noticed signal hf' =>
      refine ⟨.of_session hf' (FirmwareSession.kept_notice hkept signal)
        (FirmwareSession.ends_notice hends signal), (hsame hf' (f.notice_stage signal) ?_).le⟩
      rw [f.notice_eq]
      rfl
    | timedOut hf' =>
      refine ⟨.of_session hf' (FirmwareSession.kept_timeout hkept) f.ends_timeout,
        (hsame hf' f.timeout_stage ?_).le⟩
      rw [f.timeout_eq]
      rfl
    | resumed groupId _ _ hresumed =>
      obtain ⟨hwaits, hlt⟩ := (hresumed hkept).stagesLeft_lt hf hkept
      exact ⟨hwaits, (Nat.le_succ _).trans hlt⟩
  cases e with
  | resume groupId =>
    have hstep := (Option.ite_none_right_eq_some.mp hstep).2
    simp only [PPBController.handle, hf, Option.ite_none_right_eq_some, Option.some.injEq] at hstep
    obtain ⟨-, rfl⟩ := hstep
    exact (resumed_resumeFirmware hkept).stagesLeft_lt hf hkept
  | _ => exact hother rfl

theorem Waits.run {codeToVSWR : Nat → UInt16 → FloatBits} {events : List ControllerEvent}
    (h : c.Waits) (hrun : c.runInside codeToVSWR events = some c') :
    c'.Waits ∧ c'.stagesLeft + events.countP ControllerEvent.isReturn ≤ c.stagesLeft := by
  induction events generalizing c with
  | nil =>
    cases hrun
    exact ⟨h, Nat.le_refl _⟩
  | cons e rest ih =>
    unfold runInside at hrun
    rw [List.foldlM_cons] at hrun
    obtain ⟨next, hstep, hrest⟩ := Option.bind_eq_some_iff.mp hrun
    obtain ⟨hwaits, hone⟩ := h.step hstep
    obtain ⟨hwaits', hmore⟩ := ih hwaits hrest
    refine ⟨hwaits', ?_⟩
    rw [List.countP_cons]
    omega

/-- A waiting loop is brought to its return by its timer at the latest. -/
theorem Waits.exists_return (codeToVSWR : Nat → UInt16 → FloatBits) (h : c.Waits)
    (hf : c.firmware = some f) (groupId : Nat) :
    ∃ events c', (events = [.resume groupId] ∨ events = [.timedOut, .resume groupId]) ∧
      c.runInside codeToVSWR events = some c' := by
  obtain ⟨-, htimer | hquit⟩ := h f hf
  · have htimeout : f.timeout.wait.quit = true := by
      unfold FirmwareSession.timeout
      dsimp only
      split <;> rfl
    refine ⟨[.timedOut, .resume groupId], ({ c.emit .timedOut with
      firmware := some f.timeout } : PPBController).resumeFirmware f.timeout groupId, .inr rfl, ?_⟩
    simp only [runInside, List.foldlM_cons, List.foldlM_nil, handleInside, handle, hf, htimer,
      Option.isSome_some, if_true, Option.bind_eq_bind, Option.bind_some, htimeout]
    rfl
  · refine ⟨[.resume groupId], c.resumeFirmware f groupId, .inl rfl, ?_⟩
    simp only [runInside, List.foldlM_cons, List.foldlM_nil, handleInside, handle, hf, hquit,
      Option.isSome_some, if_true, Option.bind_eq_bind, Option.bind_some]
    rfl

/-- The waits alone bring the update to its end. -/
theorem Waits.exists_end (codeToVSWR : Nat → UInt16 → FloatBits) (h : c.Waits) :
    ∃ more c', (∀ e ∈ more, e.isWaitEnd = true) ∧ more.length ≤ 2 * c.stagesLeft ∧
      c.runInside codeToVSWR more = some c' ∧ c'.firmware = none := by
  generalize hn : c.stagesLeft = n
  induction n using Nat.strongRecOn generalizing c with
  | _ n ih =>
    subst hn
    cases hf : c.firmware with
    | none => exact ⟨[], c, by simp, Nat.zero_le _, rfl, hf⟩
    | some f =>
      obtain ⟨events, t, hevents, hreturn⟩ := h.exists_return codeToVSWR hf 0
      obtain ⟨hwaits, hleft⟩ := h.run hreturn
      have hcount : events.countP ControllerEvent.isReturn = 1 := by
        rcases hevents with rfl | rfl <;> rfl
      obtain ⟨more, c', hends, hlength, hrun, hnone⟩ := ih t.stagesLeft (by omega) hwaits rfl
      refine ⟨events ++ more, c', fun e he => ?_, ?_, ?_, hnone⟩
      · rcases List.mem_append.mp he with he | he
        · rcases hevents with rfl | rfl
          · rw [List.mem_singleton.mp he]
            rfl
          · rcases List.mem_pair.mp he with rfl | rfl <;> rfl
        · exact hends e he
      · have htwo : events.length ≤ 2 := by
          rcases hevents with rfl | rfl <;> simp
        rw [List.length_append]
        omega
      · unfold runInside at hreturn hrun ⊢
        rw [List.foldlM_append, hreturn]
        exact hrun

end

theorem waits_of_started {c c₁ : PPBController} {plan : FirmwarePlan} (h : Started c plan c₁) :
    c₁.Waits ∧ c₁.stagesLeft = plan.totalBlocks + 6 := by
  obtain ⟨f, hf, rfl, hstage, hwait, hcrc⟩ := h.firmware
  refine ⟨.of_session hf ?_ (.inl ?_), ?_⟩
  · unfold FirmwareSession.Kept
    rw [hstage]
    exact hcrc
  · rw [hwait]
  · rw [stagesLeft_some hf, hstage]
    rfl

/-- **`updateFirmware` returns.** Whatever arrives inside the event loops of an accepted update of
`n` blocks, they return at most `n + 6` times in all; and at any moment the timers alone bring the
update to its end, with at most two events for each stage that is left. -/
theorem updateFirmware_returns {codeToVSWR : Nat → UInt16 → FloatBits} {c c₁ c' : PPBController}
    {selectedMask : UInt16} {hexFile : Option (List Line)} {newVersion : Option ℚ}
    {answers : Answers} {events : List ControllerEvent} {n : Nat} (hidle : c.firmware = none)
    (hupdate : c.updateFirmware selectedMask hexFile newVersion answers = c₁)
    (haccepted : c₁.firmware.isSome) (hrun : c₁.runInside codeToVSWR events = some c')
    (hn : (FirmwareUpdater.buildVolumePayloads
      (FirmwareUpdater.parseHexToDataBlocks hexFile)).length = n) :
    events.countP ControllerEvent.isReturn ≤ n + 6 ∧
    ∃ more c'', (∀ e ∈ more, e.isWaitEnd = true) ∧
      more.length ≤ 2 * (n + 6 - events.countP ControllerEvent.isReturn) ∧
      c'.runInside codeToVSWR more = some c'' ∧ c''.firmware = none := by
  subst hupdate
  obtain ⟨version, _, _, _, hstarted⟩ := started_updateFirmware hidle haccepted
  obtain ⟨hwaits, hstages⟩ := waits_of_started hstarted
  have hblocks : (FirmwarePlan.of selectedMask hexFile version).totalBlocks = n := hn
  obtain ⟨hwaits', hleft⟩ := hwaits.run hrun
  rw [hstages, hblocks] at hleft
  refine ⟨by omega, ?_⟩
  obtain ⟨more, c'', hends, hlength, hrun', hnone⟩ := hwaits'.exists_end codeToVSWR
  exact ⟨more, c'', hends, hlength.trans (by omega), hrun', hnone⟩

theorem updateFirmware_returns_intruded :
    intrusions.countP ControllerEvent.isReturn ≤ 1 + 6 :=
  (updateFirmware_returns rfl rfl updating_accepted updating_intruded
    (by rw [parse_oneByteImage]; decide)).1

end PPBController

end PPB
