import PPBProject.Exclusive
import PPBProject.Station
import PPBProject.Volume

/- What `updateFirmware` leaves behind: the auto-poll timer, which it stops and its guard starts
   again, and the slot of VOLUME, which it fills and the engine empties.

   A wait sees only what has been emitted since it connected. Of the signals only this is taken
   from the engine: a report on a VOLUME is one that it has emitted since then. Whatever else
   the communication layer reports, it may report at any time. -/
namespace PPB

namespace PPBController

/-! The auto-poll timer. -/

/-- Whether auto-poll is enabled, and whether its timer is active. -/
def autoPoll (c : PPBController) : Bool × Bool := (c.autoPollEnabled, c.autoPollActive)

section
variable {c : PPBController}

@[simp] theorem autoPoll_emit (entry : Entry) : (c.emit entry).autoPoll = c.autoPoll := rfl

@[simp] theorem autoPoll_callCommunication (call : Event) :
    (c.callCommunication call).autoPoll = c.autoPoll := by
  unfold callCommunication
  split <;> rfl

@[simp] theorem autoPoll_callAll (calls : List Event) :
    (c.callAll calls).autoPoll = c.autoPoll := by
  unfold callAll
  induction calls generalizing c with
  | nil => rfl
  | cons call rest ih => rw [List.foldl_cons, ih, autoPoll_callCommunication]

/-- While an update runs, no call but `stopAutoPoll` touches auto-poll. -/
theorem autoPoll_take (h : c.firmware.isSome) (answers : Answers) {call : PublicCall}
    (hcall : call ≠ .stopAutoPoll) : (c.take answers call).autoPoll = c.autoPoll := by
  have hguarded (body : PPBController → PPBController) :
      (c.guarded body).autoPoll = c.autoPoll := by
    rw [guarded_eq_self h]
  have hsettings (ppbIndex : UInt8) (change : PpbUserSettings → PpbUserSettings) :
      (c.updateSettings ppbIndex change).autoPoll = c.autoPoll := by
    unfold updateSettings
    split <;> rfl
  cases call with
  | stopAutoPoll => exact absurd rfl hcall
  | requestVolume address hexFile newVersion =>
    simp only [take, requestVolume]
    split
    · rw [updateFirmware_eq_reject h, autoPoll_emit]
    · rfl
  | updateFirmware => simp only [take, updateFirmware_eq_reject h, autoPoll_emit]
  | loadScenario => simp only [take, loadScenario_eq_reject h, autoPoll_emit]
  | runScenario => simp only [take, runScenario_eq_reject h, autoPoll_emit]
  | stopScenario =>
    simp only [take, stopScenario]
    split <;> rfl
  | setCurrentAddress | saveSentPackets | saveReceivedPackets => rfl
  | setPowerSetting | setFuBlockedSetting | setRebootRequestedSetting | setResetErrorsSetting
  | setPowerEnabledSetting => exact hsettings _ _
  | resetSettingsToReal ppbIndex =>
    simp only [take, resetSettingsToReal]
    split
    · exact hsettings _ _
    · rfl
  | _ => exact hguarded _

/-- A slot of the controller touches neither the update nor auto-poll. -/
theorem delivered_quiet (codeToVSWR : Nat → UInt16 → FloatBits) (signal : Signal) :
    ((c.emit (.delivered signal)).onSignal codeToVSWR signal).firmware = c.firmware ∧
      ((c.emit (.delivered signal)).onSignal codeToVSWR signal).autoPoll = c.autoPoll ∧
      ((c.emit (.delivered signal)).onSignal codeToVSWR signal).log =
        c.log ++ [.delivered signal] := by
  cases signal with
  | commandDataParsed address data command =>
    unfold onSignal onCommandDataParsed
    dsimp only
    split <;> exact ⟨rfl, rfl, rfl⟩
  | _ => exact ⟨rfl, rfl, rfl⟩

end

/-- The update `f` goes on with the timer as it is, or it is over and its guard has had its say. -/
structure Guarded (c : PPBController) (f : FirmwareSession) (c' : PPBController) : Prop where
  enabled : c'.autoPollEnabled = c.autoPollEnabled
  goes : ∀ f', c'.firmware = some f' →
    c'.autoPollActive = c.autoPollActive ∧ f'.restartAutoPoll = f.restartAutoPoll
  ends : c'.firmware = none → c'.autoPollActive = (c.autoPollActive || f.restartAutoPoll)

section
variable {c c₁ : PPBController} {f f₁ : FirmwareSession}

theorem guarded_endFirmware (h : c₁.autoPoll = c.autoPoll)
    (hf : f₁.restartAutoPoll = f.restartAutoPoll) : Guarded c f (c₁.endFirmware f₁) := by
  obtain ⟨henabled, hactive⟩ := Prod.mk.inj h
  refine ⟨henabled, fun f' hf' => (by cases hf'), fun _ => ?_⟩
  change (c₁.autoPollActive || f₁.restartAutoPoll) = _
  rw [hactive, hf]

theorem guarded_abortFirmware (h : c₁.autoPoll = c.autoPoll)
    (hf : f₁.restartAutoPoll = f.restartAutoPoll) (error : String) (calls : List Event) :
    Guarded c f (c₁.abortFirmware f₁ error calls) :=
  guarded_endFirmware ((autoPoll_callAll calls).trans h) hf

theorem guarded_startGroup (h : c₁.autoPoll = c.autoPoll)
    (hf : f₁.restartAutoPoll = f.restartAutoPoll) (stage : FirmwareStage) (command : TechCommand)
    (error : String) (groupId : Nat) :
    Guarded c f (c₁.startGroup f₁ stage command error groupId) := by
  have hcalled := (autoPoll_callCommunication (c := c₁)
    (.executeGroupCommand command f₁.targetMask [])).trans h
  unfold startGroup
  dsimp only
  split
  · exact guarded_abortFirmware hcalled hf error []
  · obtain ⟨henabled, hactive⟩ := Prod.mk.inj hcalled
    refine ⟨henabled, fun f' hf' => ?_, fun hnone => by cases hnone⟩
    obtain rfl := Option.some.inj hf'
    exact ⟨hactive, hf⟩

theorem guarded_startCommand (h : c₁.autoPoll = c.autoPoll)
    (hf : f₁.restartAutoPoll = f.restartAutoPoll) (stage : FirmwareStage)
    (command : TechCommand) : Guarded c f (c₁.startCommand f₁ stage command) := by
  obtain ⟨henabled, hactive⟩ := Prod.mk.inj
    ((autoPoll_callCommunication (c := c₁) (.executeCommand command 0)).trans h)
  refine ⟨henabled, fun f' hf' => ?_, fun hnone => by cases hnone⟩
  obtain rfl := Option.some.inj hf'
  exact ⟨hactive, hf⟩

theorem guarded_startVolume (h : c₁.autoPoll = c.autoPoll) (i : Nat) :
    Guarded c f (c₁.startVolume f i) := by
  unfold startVolume
  apply guarded_startCommand
  · exact h
  · split <;> rfl

/-- **From one wait to the next**, auto-poll is left to the guard. -/
theorem guarded_resumeFirmware (groupId : Nat) : Guarded c f (c.resumeFirmware f groupId) := by
  unfold resumeFirmware
  cases f.stage with
  | isYou =>
    dsimp only
    split
    · apply guarded_abortFirmware <;> rfl
    · split
      · apply guarded_abortFirmware <;> rfl
      · apply guarded_startGroup <;> rfl
  | vers =>
    dsimp only
    split
    · exact guarded_endFirmware (autoPoll_callAll _) rfl
    · apply guarded_startGroup <;> rfl
  | programm =>
    dsimp only
    split
    · exact guarded_endFirmware (autoPoll_callAll _) rfl
    · apply guarded_startVolume
      rfl
  | volume i =>
    dsimp only
    split
    · apply guarded_abortFirmware <;> rfl
    · split
      · apply guarded_startVolume
        rfl
      · apply guarded_startCommand <;> rfl
  | finalVolume | update =>
    dsimp only
    split
    · apply guarded_abortFirmware <;> rfl
    · apply guarded_startCommand <;> rfl
  | clean =>
    dsimp only
    split
    · apply guarded_abortFirmware <;> rfl
    · apply guarded_endFirmware <;> rfl

theorem log_beginFirmware (c : PPBController) (f : FirmwareSession) :
    (c.beginFirmware f).log = c.log ++ sweep c.communication ++
      issued c.communication [.executeCommand .isYou 0] := by
  have hsame := (sameBut_callAll { c with autoPollActive := false }
    (.clearCommandQueue 0 :: singleAddresses.map .clearCommandQueue)).communication
  change (PPBController.callCommunication _ _).log = _
  rw [log_callCommunication, log_callAll, hsame]
  rfl

theorem autoPoll_beginFirmware (c : PPBController) (f : FirmwareSession) :
    (c.beginFirmware f).autoPoll = (c.autoPollEnabled, false) :=
  (autoPoll_callCommunication _).trans (autoPoll_callAll _)

end

end PPBController

/-! What the controller asks for. -/

/-- The stages that fill the slot. -/
def FirmwareStage.isVolume : FirmwareStage → Bool
  | .volume _ | .finalVolume => true
  | _ => false

/-- A call is one of the usual ones. -/
def Entry.IsUsual : Entry → Prop
  | .call _ asked => asked.IsUsual
  | _ => True

theorem Entry.isUsual_of_isOrdinary {x : Entry} (h : x.isOrdinary = true) : x.IsUsual := by
  cases x with
  | call communication asked => exact .inl (by simpa [Entry.isOrdinary] using h)
  | _ => trivial

theorem Entry.isOrdinary_of_isAside {x : Entry} (h : x.isAside = true) : x.isOrdinary = true := by
  cases x with
  | call communication asked => cases asked <;> first | rfl | cases h
  | _ => first | rfl | cases h

theorem Entry.isUsual_of_isAside {x : Entry} (h : x.isAside = true) : x.IsUsual :=
  isUsual_of_isOrdinary (isOrdinary_of_isAside h)

theorem isUsual_issued {communication : Option CommunicationId} {calls : List Event}
    (hcalls : ∀ call ∈ calls, call.IsUsual) : ∀ x ∈ issued communication calls, x.IsUsual := by
  intro x hx
  obtain ⟨id, -, hx⟩ := List.mem_flatMap.mp hx
  obtain ⟨call, hcall, rfl⟩ := List.mem_map.mp hx
  exact hcalls call hcall

theorem FirmwarePlan.isUsual_issue (plan : FirmwarePlan) (communication : Option CommunicationId)
    (targetMask : UInt16) (stage : FirmwareStage) :
    ∀ x ∈ plan.issue communication targetMask stage, x.IsUsual := by
  have hplain {asked : Event} (h : asked.isVolume = false) :
      ∀ x ∈ issued communication [asked], x.IsUsual :=
    isUsual_issued fun call hcall => .inl (List.mem_singleton.mp hcall ▸ h)
  have hvolume : ∀ x ∈ issued communication [.executeCommand .volume 0], x.IsUsual :=
    isUsual_issued fun call hcall => .inr ⟨0, List.mem_singleton.mp hcall⟩
  cases stage with
  | volume | finalVolume =>
    intro x hx
    rcases List.mem_cons.mp hx with rfl | hx
    · trivial
    · exact hvolume x hx
  | _ => exact hplain rfl

/-- A stage that fills no slot. -/
theorem FirmwarePlan.isOrdinary_issue (plan : FirmwarePlan)
    (communication : Option CommunicationId) (targetMask : UInt16) {stage : FirmwareStage}
    (h : stage.isVolume = false) :
    ∀ x ∈ plan.issue communication targetMask stage, x.isOrdinary = true := by
  have hplain {asked : Event} (h : asked.isVolume = false) :
      ∀ x ∈ issued communication [asked], x.isOrdinary = true := by
    intro x hx
    obtain ⟨id, -, hx⟩ := List.mem_flatMap.mp hx
    obtain ⟨call, hcall, rfl⟩ := List.mem_map.mp hx
    rw [List.mem_singleton.mp hcall, Entry.isOrdinary, h]
    rfl
  cases stage with
  | volume | finalVolume => cases h
  | _ => exact hplain rfl

namespace PPBController

section
variable {c c' : PPBController} {f : FirmwareSession}

theorem kept_inside (hkept : f.Kept) (hf : c.firmware = some f) (h : Inside c f c') :
    ∀ f', c'.firmware = some f' → f'.Kept := by
  have hc : Undisturbed c c := by
    refine ⟨fun f' hf' => ?_, rfl, .refl _⟩
    obtain rfl := Option.some.inj (hf.symm.trans hf')
    exact hkept
  exact (hc.step hf h).kept

theorem isUsual_inside (hkept : f.Kept) (h : Inside c f c') :
    Machine.Extends Entry.IsUsual c.log c'.log := by
  cases h with
  | aside _ _ hlog => exact hlog.mono fun _ => Entry.isUsual_of_isAside
  | noticed signal _ _ hlog => exact ⟨_, hlog, by simp [Entry.IsUsual]⟩
  | timedOut _ _ hlog => exact ⟨_, hlog, by simp [Entry.IsUsual]⟩
  | resumed groupId _ _ hresumed =>
    cases hresumed hkept with
    | failed tail _ _ hlog htail =>
      exact ⟨tail, hlog, fun x hx => Entry.isUsual_of_isAside (htail x hx)⟩
    | refused stage error _ _ _ _ _ hlog =>
      refine ⟨_, hlog.trans (List.append_assoc ..), fun x hx => ?_⟩
      rcases List.mem_append.mp hx with hx | hx
      · exact f.plan.isUsual_issue _ _ stage x hx
      · rw [List.mem_singleton.mp hx]
        trivial
    | advanced head stage _ _ _ _ hhead hlog =>
      refine ⟨_, hlog.trans (List.append_assoc ..), fun x hx => ?_⟩
      rcases List.mem_append.mp hx with hx | hx
      · exact Entry.isUsual_of_isAside (hhead x hx)
      · exact f.plan.isUsual_issue _ _ stage x hx
    | finished _ _ _ hlog => exact ⟨_, hlog, by simp [finalProgress, Entry.IsUsual]⟩

/-- Without an update, a call changes nothing of it and asks for the usual, or begins one. -/
theorem begun_or_usual_take (hidle : c.firmware = none) (answers : Answers) (call : PublicCall) :
    (∃ f : FirmwareSession, c.take answers call = c.beginFirmware f ∧
      f.restartAutoPoll = c.autoPollActive ∧ f.crcArr = (0, 0, 0)) ∨
      (c.take answers call).firmware = none ∧
        Machine.Extends Entry.IsUsual c.log (c.take answers call).log := by
  have hordinary (h : Ordinary c (c.take answers call)) : (c.take answers call).firmware = none ∧
      Machine.Extends Entry.IsUsual c.log (c.take answers call).log :=
    ⟨h.firmware.trans hidle, h.log.mono fun _ => Entry.isUsual_of_isOrdinary⟩
  have hupdate (selectedMask : UInt16) (hexFile : Option (List Line)) (newVersion : Option ℚ)
      (htake : c.take answers call = c.updateFirmware selectedMask hexFile newVersion answers) :
      (∃ f : FirmwareSession, c.take answers call = c.beginFirmware f ∧
        f.restartAutoPoll = c.autoPollActive ∧ f.crcArr = (0, 0, 0)) ∨
        (c.take answers call).firmware = none ∧
          Machine.Extends Entry.IsUsual c.log (c.take answers call).log := by
    rw [htake]
    rcases c.updateFirmware_cases selectedMask hexFile newVersion answers with
      ⟨error, heq⟩ | ⟨version, f, haccepts, heq⟩
    · rw [heq]
      exact .inr ⟨hidle, [.errorOccurred error], rfl, by simp [Entry.IsUsual]⟩
    · exact .inl ⟨f, heq, haccepts.restartAutoPoll, haccepts.crcArr⟩
  have hintruded (h : Intruded c (c.take answers call)) : (c.take answers call).firmware = none ∧
      Machine.Extends Entry.IsUsual c.log (c.take answers call).log :=
    ⟨h.firmware.trans hidle, h.log.mono fun _ hx =>
      Entry.isUsual_of_isAside (Entry.isAside_of_isRemark hx)⟩
  cases call with
  | updateFirmware => exact hupdate _ _ _ rfl
  | requestVolume address hexFile newVersion =>
    by_cases hcommunication : c.communication.isSome
    · exact hupdate address hexFile newVersion (if_pos hcommunication)
    · exact .inr (hintruded (.of_eq (by rw [take, requestVolume, if_neg hcommunication])
        (by rw [take, requestVolume, if_neg hcommunication])
        (by rw [take, requestVolume, if_neg hcommunication])))
  | setPowerSetting | setFuBlockedSetting | setRebootRequestedSetting | setResetErrorsSetting
  | setPowerEnabledSetting =>
    refine .inr (hintruded ?_)
    simp only [take, setPowerSetting, setFuBlockedSetting, setRebootRequestedSetting,
      setResetErrorsSetting, setPowerEnabledSetting]
    exact intruded_updateSettings _ _
  | resetSettingsToReal => exact .inr (hintruded (intruded_resetSettingsToReal _))
  | saveSentPackets | saveReceivedPackets => exact .inr (hintruded (.of_eq rfl rfl rfl))
  | exucuteCommand tech address =>
    by_cases hvolume : tech = .volume
    · -- the one call that may ask for a VOLUME
      have hlog := c.log_callCommunication (.executeCommand tech address)
      have hsame : (c.callCommunication (.executeCommand tech address)).firmware = c.firmware := by
        unfold callCommunication
        split <;> rfl
      have htake : c.take answers (.exucuteCommand tech address) =
          c.callCommunication (.executeCommand tech address) := by
        simp [take, exucuteCommand, request, guarded, commandBlockedByFirmwareUpdate, hidle]
      rw [htake]
      refine .inr ⟨hsame.trans hidle, _, hlog, isUsual_issued fun call hcall => ?_⟩
      rw [List.mem_singleton.mp hcall, hvolume]
      exact .inr ⟨address, rfl⟩
    · exact .inr (hordinary (ordinary_take answers rfl rfl rfl (by simpa [PublicCall.asksVolume])))
  | _ => exact .inr (hordinary (ordinary_take answers rfl rfl rfl rfl))

/-- Whatever the controller does, it asks for the usual. -/
theorem isUsual_handle {codeToVSWR : Nat → UInt16 → FloatBits} {e : ControllerEvent}
    (hkept : ∀ f, c.firmware = some f → f.Kept) (h : c.handle codeToVSWR e = some c') :
    (∀ f, c'.firmware = some f → f.Kept) ∧ Machine.Extends Entry.IsUsual c.log c'.log := by
  cases hf : c.firmware with
  | some f =>
    have hstep : c.handleInside codeToVSWR e = some c' := by
      rw [handleInside, hf]
      exact h
    obtain ⟨f', hf', hinside⟩ := inside_handleInside hstep
    have hkept' := hkept f' hf'
    exact ⟨kept_inside hkept' hf' hinside, isUsual_inside hkept' hinside⟩
  | none =>
    have hidle (hnone : c'.firmware = none) (hlog : Machine.Extends Entry.IsUsual c.log c'.log) :
        (∀ f, c'.firmware = some f → f.Kept) ∧ Machine.Extends Entry.IsUsual c.log c'.log := by
      refine ⟨fun f hsome => ?_, hlog⟩
      rw [hnone] at hsome
      cases hsome
    cases e with
    | called call answers =>
      obtain rfl := Option.some.inj h
      rcases begun_or_usual_take hf answers call with ⟨f, heq, -, hcrc⟩ | ⟨hnone, hlog⟩
      · rw [heq]
        refine ⟨fun f' hf' => ?_, _, (c.log_beginFirmware f).trans (List.append_assoc ..), ?_⟩
        · obtain rfl := Option.some.inj hf'
          exact hcrc
        · intro x hx
          rcases List.mem_append.mp hx with hx | hx
          · exact Entry.isUsual_of_isAside (isAside_of_mem_sweep x hx)
          · refine isUsual_issued (fun call hcall => .inl ?_) x hx
            rw [List.mem_singleton.mp hcall]
            rfl
      · exact hidle hnone hlog
    | autoPollTimeout answers =>
      obtain rfl := Option.some.inj h
      have hordinary := ordinary_onAutoPollTimeout (c := c) answers
      exact hidle (hordinary.firmware.trans hf)
        (hordinary.log.mono fun _ => Entry.isUsual_of_isOrdinary)
    | scenarioFinished =>
      obtain rfl := Option.some.inj h
      exact hidle hf (.refl _)
    | delivered signal =>
      obtain rfl := Option.some.inj h
      obtain ⟨hfirmware, -, hlog⟩ := delivered_quiet (c := c) codeToVSWR signal
      exact hidle (hfirmware.trans hf) ⟨_, hlog, by simp [Entry.IsUsual]⟩
    | resumeLoad answers =>
      simp only [handle, hf] at h
      split at h
      next load rest _ _ =>
        obtain rfl := Option.some.inj h
        have hordinary := ordinary_resumeLoad (c := c) load rest answers
        exact hidle (hordinary.firmware.trans hf)
          (hordinary.log.mono fun _ => Entry.isUsual_of_isOrdinary)
      next => cases h
    | _ =>
      simp only [handle, hf] at h
      cases h

end

end PPBController

/-! The update at a station. -/

/-- A report on a VOLUME. -/
def Signal.isVolumeReport : Signal → Bool
  | commandCompleted _ _ command => command = .volume
  | _ => false

/-- A station, with the length of the engine's log when the wait in progress connected. -/
structure Bench extends Station where
  connected : Nat := 0

namespace Bench

/-- What the engine has emitted since then. -/
def emitted (s : Bench) : List Signal := (s.engine.log.drop s.connected).filterMap Output.signal?

/-- A report on a VOLUME is noticed only if it has been emitted since the wait connected. The
station has one communication object, and nobody but the controller asks it for a VOLUME. -/
def possible (s : Bench) : StationEvent → Bool
  | .controller (.noticed signal) => !signal.isVolumeReport || signal ∈ s.emitted
  | .controller (.called (.setCommunication communication) _) =>
    communication.all (· = ownCommunication)
  | .engine e => !e.isVolume
  | _ => true

/-- The event may start a wait. -/
def connects (s : Bench) : StationEvent → Bool
  | .controller (.resume _) => true
  | _ => s.controller.firmware.isNone

def step (codeToVSWR : Nat → UInt16 → FloatBits) (wiring : CommunicationFacade.Wiring) (s : Bench)
    (e : StationEvent) : Option Bench :=
  if s.possible e then
    (s.toStation.step codeToVSWR wiring e).map fun t =>
      { toStation := t, connected := if s.connects e then s.engine.log.length else s.connected }
  else none

/-- The controller starts in any state without an update. -/
def machine (codeToVSWR : Nat → UInt16 → FloatBits) (wiring : CommunicationFacade.Wiring) :
    Machine.System Bench StationEvent where
  start s := (∃ udpClient statics, s.engine = .init udpClient statics) ∧ s.calls = [] ∧
    s.relayed = 0 ∧ s.connected = 0 ∧ s.controller.firmware = none ∧
    ∀ id ∈ s.controller.communication, id = ownCommunication
  step s e s' := s.step codeToVSWR wiring e = some s'

end Bench

namespace Station

section
variable {s : Station} {c : PPBController} {new : List Entry}

theorem news_eq (h : c.log = s.controller.log ++ new) : news s.controller c = new := by
  rw [news, h, List.drop_left]

/-- Setting image data changes the static members only. -/
theorem foldl_setImage (engine : Engine) (new : List Entry) :
    ∃ statics, new.foldl Entry.setImage engine = { engine with statics } := by
  induction new generalizing engine with
  | nil => exact ⟨engine.statics, rfl⟩
  | cons x rest ih =>
    have hfirst : ∃ statics, Entry.setImage engine x = { engine with statics } := by
      cases x with
      | setCurrentVolumeData => exact ⟨_, rfl⟩
      | _ => exact ⟨engine.statics, rfl⟩
    obtain ⟨first, hfirst⟩ := hfirst
    rw [List.foldl_cons, hfirst]
    exact ih { engine with statics := first }

theorem foldl_setImage_of_isOrdinary {engine : Engine} (h : ∀ x ∈ new, x.isOrdinary = true) :
    new.foldl Entry.setImage engine = engine := by
  induction new with
  | nil => rfl
  | cons x rest ih =>
    have hfirst : Entry.setImage engine x = engine := by
      cases x with
      | setCurrentVolumeData => cases h _ List.mem_cons_self
      | _ => rfl
    rw [List.foldl_cons, hfirst]
    exact ih fun y hy => h y (List.mem_cons_of_mem _ hy)

theorem mem_calls_follow (hlog : Machine.Extends Entry.IsUsual s.controller.log c.log)
    (hcalls : ∀ call ∈ s.calls, call.IsUsual) : ∀ call ∈ (s.follow c).calls, call.IsUsual := by
  obtain ⟨new, hnew, husual⟩ := hlog
  intro call hcall
  rw [follow, news_eq hnew] at hcall
  rcases List.mem_append.mp hcall with hcall | hcall
  · exact hcalls call hcall
  · obtain ⟨x, hx, hown⟩ := List.mem_filterMap.mp hcall
    have hx := husual x hx
    cases x with
    | call communication asked =>
      obtain rfl := Option.some.inj (Option.ite_none_right_eq_some.mp hown).2
      exact hx
    | _ => cases hown

theorem engine_follow (s : Station) (c : PPBController) :
    ∃ statics, (s.follow c).engine = { s.engine with statics } :=
  foldl_setImage _ _

theorem engine_follow_eq
    (hlog : Machine.Extends (fun x => x.isOrdinary = true) s.controller.log c.log) :
    (s.follow c).engine = s.engine := by
  obtain ⟨new, hnew, hordinary⟩ := hlog
  rw [follow, news_eq hnew]
  exact foldl_setImage_of_isOrdinary hordinary

end

end Station

/-- Signals that are delivered change nothing of the update. -/
theorem PPBController.delivered_run {codeToVSWR : Nat → UInt16 → FloatBits} {c c' : PPBController}
    {signals : List Signal} (h : c.run codeToVSWR (signals.map .delivered) = some c') :
    c'.firmware = c.firmware ∧ c'.autoPoll = c.autoPoll ∧
      Machine.Extends (fun x => x.isAside = true) c.log c'.log := by
  induction signals generalizing c with
  | nil =>
    obtain rfl := Option.some.inj h
    exact ⟨rfl, rfl, .refl _⟩
  | cons signal rest ih =>
    obtain ⟨hfirmware, hautoPoll, hlog⟩ := delivered_quiet (c := c) codeToVSWR signal
    obtain ⟨hfirmware', hautoPoll', hlog'⟩ := ih h
    refine ⟨hfirmware'.trans hfirmware, hautoPoll'.trans hautoPoll, ?_⟩
    have hfirst : Machine.Extends (fun x => x.isAside = true) c.log
        ((c.emit (.delivered signal)).onSignal codeToVSWR signal).log :=
      ⟨_, hlog, by simp [Entry.isAside]⟩
    exact hfirst.trans hlog'

namespace Bench

/-- The log's length when the wait connected, after an event that starts no wait of an update. -/
def connectedAfter (s : Bench) : Nat :=
  if s.controller.firmware.isNone then s.engine.log.length else s.connected

/-- What one event does: the controller takes it; the engine takes what has been posted, or what
does not ask for a VOLUME; or signals reach slots that leave the update alone, or are lost. -/
inductive Moves (codeToVSWR : Nat → UInt16 → FloatBits) (s : Bench) :
    StationEvent → Bench → Prop where
  | controller {e : ControllerEvent} {c : PPBController} : s.possible (.controller e) = true →
    s.controller.handle codeToVSWR e = some c → Moves codeToVSWR s (.controller e)
      { toStation := s.toStation.follow c
        connected := if s.connects (.controller e) then s.engine.log.length else s.connected }
  | engine {e : StationEvent} {calls : List Event} (asked : Event) :
    asked ∈ s.calls ∨ asked.isVolume = false → (∀ call ∈ calls, call ∈ s.calls) →
    Moves codeToVSWR s e
      { s with engine := s.engine.handle asked, calls, connected := s.connectedAfter }
  | passed {e : StationEvent} {c : PPBController} {relayed : Nat} :
    c.firmware = s.controller.firmware → c.autoPoll = s.controller.autoPoll →
    Machine.Extends (fun x => x.isAside = true) s.controller.log c.log →
    Moves codeToVSWR s e
      { toStation := { s.toStation.follow c with relayed }, connected := s.connectedAfter }
  | dropped {e : StationEvent} {relayed : Nat} :
    Moves codeToVSWR s e { s with relayed, connected := s.connectedAfter }

/-- The wait of `f` goes on as that of `f'`: nobody is asked for a VOLUME, and the update is not
reported over. -/
structure Lingers (s : Bench) (e : ControllerEvent) (f : FirmwareSession) (c : PPBController)
    (f' : FirmwareSession) : Prop where
  firmware : c.firmware = some f'
  wait : f' = { f with wait := f'.wait }
  heard : f' = f ∨ (∃ signal, f' = f.notice signal ∧
    (signal.isVolumeReport = true → signal ∈ s.emitted)) ∨ f' = f.timeout
  quiet : Machine.Extends (fun x => x.isOrdinary = true ∧ ∀ n, x ≠ finalProgress n)
    s.controller.log c.log
  connects : s.connects (.controller e) = false

/-- What holds of every bench. -/
structure Sound (s : Bench) : Prop where
  held : s.engine.Held
  calls : ∀ call ∈ s.calls, call.IsUsual
  kept : ∀ f, s.controller.firmware = some f → f.Kept
  connected : s.connected ≤ s.engine.log.length

section
variable {codeToVSWR : Nat → UInt16 → FloatBits} {wiring : CommunicationFacade.Wiring}
  {s s' : Bench} {e : StationEvent}

theorem moves_of_step (h : s.step codeToVSWR wiring e = some s') : Moves codeToVSWR s e s' := by
  obtain ⟨hpossible, hstep⟩ := Option.ite_none_right_eq_some.mp h
  obtain ⟨t, ht, rfl⟩ := Option.map_eq_some_iff.mp hstep
  cases e with
  | controller e =>
    obtain ⟨c, hc, rfl⟩ := Option.map_eq_some_iff.mp ht
    exact .controller hpossible hc
  | taken =>
    simp only [Station.step] at ht
    split at ht
    · cases ht
    next call rest hcalls =>
      obtain ⟨-, ht⟩ := Option.ite_none_right_eq_some.mp ht
      obtain rfl := Option.some.inj ht
      exact .engine call (.inl (hcalls ▸ List.mem_cons_self))
        fun other hmem => hcalls ▸ List.mem_cons_of_mem _ hmem
  | engine e =>
    obtain ⟨-, ht⟩ := Option.ite_none_right_eq_some.mp ht
    obtain rfl := Option.some.inj ht
    exact .engine e (.inr (by simpa [possible] using hpossible)) fun _ hmem => hmem
  | relayed =>
    simp only [Station.step] at ht
    split at ht
    · cases ht
    · obtain ⟨c, hc, rfl⟩ := Option.map_eq_some_iff.mp ht
      obtain ⟨hfirmware, hpoll, hlog⟩ := PPBController.delivered_run hc
      exact .passed hfirmware hpoll hlog
  | dropped =>
    obtain ⟨-, ht⟩ := Option.ite_none_right_eq_some.mp ht
    obtain rfl := Option.some.inj ht
    exact .dropped

theorem quiet_of_isAside {c c' : PPBController}
    (h : Machine.Extends (fun x => x.isAside = true) c.log c'.log) :
    Machine.Extends (fun x => x.isOrdinary = true ∧ ∀ n, x ≠ finalProgress n) c.log c'.log := by
  refine h.mono fun x hx => ⟨Entry.isOrdinary_of_isAside hx, ?_⟩
  rintro n rfl
  simp [finalProgress, Entry.isAside] at hx

namespace Lingers

variable {e : ControllerEvent} {c : PPBController} {f f' : FirmwareSession}

theorem plan (h : s.Lingers e f c f') : f'.plan = f.plan := by
  rw [h.wait]
  rfl

theorem stage (h : s.Lingers e f c f') : f'.stage = f.stage := by
  rw [h.wait]

theorem restart (h : s.Lingers e f c f') : f'.restartAutoPoll = f.restartAutoPoll := by
  rw [h.wait]

theorem kept (h : s.Lingers e f c f') (hkept : f.Kept) : f'.Kept := by
  rw [h.wait]
  exact hkept

end Lingers

/-- **What an event does to a wait**: its loop returns, or it goes on, and only `stopAutoPoll`
touches auto-poll. -/
theorem lingers_or_resumed {e : ControllerEvent} {c : PPBController} {f : FirmwareSession}
    (hf : s.controller.firmware = some f) (hpossible : s.possible (.controller e) = true)
    (hc : s.controller.handle codeToVSWR e = some c) :
    (∃ groupId, e = .resume groupId ∧ f.wait.quit = true ∧
      c = s.controller.resumeFirmware f groupId) ∨
    ∃ f', s.Lingers e f c f' ∧ (c.autoPoll = s.controller.autoPoll ∨
      ∃ answers, e = .called .stopAutoPoll answers ∧ c.autoPoll = (false, false)) := by
  have hrunning : s.controller.firmware.isSome = true := hf ▸ rfl
  have hconnects : s.controller.firmware.isNone = false := by
    rw [hf]
    rfl
  have hintruded {e : ControllerEvent} (hintruded : PPBController.Intruded s.controller c)
      (hconnects : s.connects (.controller e) = false) : s.Lingers e f c f :=
    ⟨hintruded.firmware.trans hf, rfl, .inl rfl, quiet_of_isAside (hintruded.log.mono fun _ =>
      PPBController.Entry.isAside_of_isRemark), hconnects⟩
  cases e with
  | called call answers =>
    obtain rfl := Option.some.inj hc
    refine .inr ⟨f, hintruded (PPBController.intruded_take hrunning call answers) hconnects, ?_⟩
    by_cases hcall : call = .stopAutoPoll
    · subst hcall
      exact .inr ⟨answers, rfl, rfl⟩
    · exact .inl (PPBController.autoPoll_take hrunning answers hcall)
  | autoPollTimeout answers =>
    obtain rfl := Option.some.inj hc
    refine .inr ⟨f, hintruded (PPBController.intruded_onAutoPollTimeout hrunning answers) hconnects,
      .inl ?_⟩
    unfold PPBController.onAutoPollTimeout
    split
    · rw [PPBController.requestStatus, PPBController.guarded_eq_self hrunning]
    · rfl
  | scenarioFinished =>
    obtain rfl := Option.some.inj hc
    exact .inr ⟨f, hintruded (.of_eq rfl rfl rfl) hconnects, .inl rfl⟩
  | delivered signal =>
    obtain rfl := Option.some.inj hc
    obtain ⟨hfirmware, hpoll, hlog⟩ :=
      PPBController.delivered_quiet (c := s.controller) codeToVSWR signal
    exact .inr ⟨f, ⟨hfirmware.trans hf, rfl, .inl rfl,
      quiet_of_isAside ⟨_, hlog, by simp [Entry.isAside]⟩, hconnects⟩, .inl hpoll⟩
  | noticed signal =>
    simp only [PPBController.handle, hf] at hc
    obtain rfl := Option.some.inj hc
    have hemitted : signal.isVolumeReport = true → signal ∈ s.emitted := by
      intro hreport
      simpa [possible, hreport] using hpossible
    exact .inr ⟨f.notice signal, ⟨rfl, f.notice_eq signal, .inr (.inl ⟨signal, rfl, hemitted⟩),
      ⟨_, rfl, by simp [Entry.isOrdinary, finalProgress]⟩, hconnects⟩, .inl rfl⟩
  | timedOut =>
    simp only [PPBController.handle, hf] at hc
    obtain ⟨-, hc⟩ := Option.ite_none_right_eq_some.mp hc
    obtain rfl := Option.some.inj hc
    exact .inr ⟨f.timeout, ⟨rfl, f.timeout_eq, .inr (.inr rfl),
      ⟨_, rfl, by simp [Entry.isOrdinary, finalProgress]⟩, hconnects⟩, .inl rfl⟩
  | resume groupId =>
    simp only [PPBController.handle, hf] at hc
    obtain ⟨hquit, hc⟩ := Option.ite_none_right_eq_some.mp hc
    exact .inl ⟨groupId, rfl, hquit, (Option.some.inj hc).symm⟩
  | resumeLoad answers =>
    simp only [PPBController.handle, hf] at hc
    cases hc

/-- While an update runs, its wait stays connected. -/
theorem connectedAfter_eq (h : s.controller.firmware.isSome = true) :
    s.connectedAfter = s.connected := by
  unfold connectedAfter
  rw [if_neg (by simpa [Option.isSome_iff_ne_none] using h)]

/-- The controller has moved on. -/
theorem Sound.follow {c : PPBController} {connected : Nat} (h : s.Sound)
    (hkept : ∀ f, c.firmware = some f → f.Kept)
    (hlog : Machine.Extends Entry.IsUsual s.controller.log c.log)
    (hconnected : connected ≤ s.engine.log.length) :
    ({ toStation := s.toStation.follow c, connected } : Bench).Sound := by
  obtain ⟨statics, hengine⟩ := s.toStation.engine_follow c
  refine ⟨?_, Station.mem_calls_follow hlog h.calls, hkept, ?_⟩
  · change (s.toStation.follow c).engine.Held
    rw [hengine]
    exact ⟨h.held.admits.congr rfl rfl, h.held.queued⟩
  · change connected ≤ (s.toStation.follow c).engine.log.length
    rw [hengine]
    exact hconnected

/-- The engine has moved on. -/
theorem Sound.engine {engine : Engine} {calls : List Event} {connected : Nat} (h : s.Sound)
    (hdelivers : Engine.Delivers s.engine engine) (hcalls : ∀ call ∈ calls, call.IsUsual)
    (hconnected : connected ≤ s.engine.log.length) :
    ({ s with engine, calls, connected } : Bench).Sound := by
  obtain ⟨new, hlog⟩ := hdelivers.delivery.log
  refine ⟨hdelivers.held, hcalls, h.kept, ?_⟩
  change connected ≤ engine.log.length
  rw [hlog, List.length_append]
  omega

theorem Sound.step (h : s.Sound) (hstep : s.step codeToVSWR wiring e = some s') : s'.Sound := by
  have hconnected {b : Bool} : (if b then s.engine.log.length else s.connected) ≤
      s.engine.log.length := by
    split
    · exact Nat.le_refl _
    · exact h.connected
  cases moves_of_step hstep with
  | controller hpossible hc =>
    obtain ⟨hkept, hlog⟩ := PPBController.isUsual_handle h.kept hc
    exact h.follow hkept hlog hconnected
  | engine asked hasked hcalls =>
    exact h.engine (Engine.delivers_handle h.held (hasked.elim (h.calls asked) .inl))
      (fun call hcall => h.calls call (hcalls call hcall)) hconnected
  | @passed _ c _ hfirmware _ hlog =>
    have hfollow := @Sound.follow s c s.connectedAfter h
      (fun f hf => h.kept f (hfirmware.symm.trans hf))
      (hlog.mono fun _ => Entry.isUsual_of_isAside) hconnected
    exact ⟨hfollow.held, hfollow.calls, hfollow.kept, hfollow.connected⟩
  | dropped => exact ⟨h.held, h.calls, h.kept, hconnected⟩

theorem sound_of_reach (h : Machine.Reach (machine codeToVSWR wiring) (fun _ _ => True) s) :
    s.Sound := by
  refine h.invariant (fun s hstart => ?_) fun s e s' hsound _ => hsound.step
  obtain ⟨⟨udpClient, statics, hengine⟩, hcalls, -, hconnected, hidle, -⟩ := hstart
  refine ⟨hengine ▸ Engine.held_init udpClient statics, ?_, fun f hf => ?_, ?_⟩
  · rw [hcalls]
    simp
  · rw [hidle] at hf
    cases hf
  · rw [hconnected]
    exact Nat.zero_le _

end

/-! From the acceptance of the update to its return. -/

/-- One event inside an event loop of the update. -/
def stepInside (codeToVSWR : Nat → UInt16 → FloatBits) (wiring : CommunicationFacade.Wiring)
    (s : Bench) (e : StationEvent) : Option Bench :=
  if s.controller.firmware.isSome then s.step codeToVSWR wiring e else none

/-- The update that has just been accepted in `begun`. -/
def updating (codeToVSWR : Nat → UInt16 → FloatBits) (wiring : CommunicationFacade.Wiring)
    (begun : Bench) : Machine.System Bench StationEvent where
  start s := s = begun
  step s e s' := s.stepInside codeToVSWR wiring e = some s'

/-- Auto-poll is not switched off while the guard holds it for active, and no wait for a VOLUME that
has run out of time returns with the image still in the slot. -/
def harmless (s : Bench) : StationEvent → Bool
  | .controller (.called .stopAutoPoll _) => s.controller.firmware.all fun f => !f.restartAutoPoll
  | .controller (.resume _) => s.controller.firmware.all fun f =>
    !f.stage.isVolume || f.wait.timerActive || !s.engine.statics.volumeUseCustomData
  | _ => true

/-- The image is in the slot, and the wait for it has heard of no VOLUME. -/
structure Awaits (s : Bench) (f : FirmwareSession) : Prop where
  stage : f.stage.isVolume = true
  unreported : ∀ signal ∈ s.emitted, signal.isVolumeReport = false
  quit : f.wait.quit = true → f.wait.timerActive = false

/-- Auto-poll and the slot are as they were before the update, or will be when it ends. -/
structure Restoring (s : Bench) : Prop where
  sound : s.Sound
  running : ∀ f, s.controller.firmware = some f → s.controller.autoPollActive = false ∧
    s.controller.autoPollEnabled = f.restartAutoPoll ∧
    (s.engine.statics.volumeUseCustomData = false ∨ s.Awaits f)
  ended : s.controller.firmware = none →
    s.controller.autoPollActive = s.controller.autoPollEnabled ∧
      s.engine.statics.volumeUseCustomData = false

section
variable {codeToVSWR : Nat → UInt16 → FloatBits} {wiring : CommunicationFacade.Wiring}
  {s s' : Bench} {f f' : FirmwareSession} {e : StationEvent}

theorem isVolumeReport_eq_false {new : List Output}
    (h : new.filterMap Output.volumeReport? = []) :
    ∀ signal ∈ new.filterMap Output.signal?, signal.isVolumeReport = false := by
  intro signal hmem
  obtain ⟨o, ho, hsignal⟩ := List.mem_filterMap.mp hmem
  have hnone := List.filterMap_eq_nil_iff.mp h o ho
  cases o with
  | commandCompleted op success report =>
    obtain rfl := Option.some.inj hsignal
    simp only [Output.volumeReport?] at hnone
    split at hnone
    · cases hnone
    next hcommand => simpa [Signal.isVolumeReport] using hcommand
  | commandDataParsed | statusReceived | groupCommandCompleted | fuCommandCompleted | stateChanged
  | busyChanged | errorOccurred | disconnected | sentPacketsSaved =>
    obtain rfl := Option.some.inj hsignal
    rfl
  | _ => cases hsignal

/-- What the engine emits is added to what the wait can see. -/
theorem emitted_append {engine : Engine} {new : List Output} (h : s.connected ≤ s.engine.log.length)
    (hlog : engine.log = s.engine.log ++ new) :
    ({ s with engine } : Bench).emitted = s.emitted ++ new.filterMap Output.signal? := by
  simp only [emitted, hlog, List.drop_append_of_le_length h, List.filterMap_append]

/-- The engine moves on while the update waits. -/
theorem Restoring.engine {engine : Engine} {calls : List Event} (h : s.Restoring)
    (hf : s.controller.firmware = some f) (hdelivers : Engine.Delivers s.engine engine)
    (hcalls : ∀ call ∈ calls, call.IsUsual) :
    ({ s with engine, calls } : Bench).Restoring := by
  refine ⟨h.sound.engine hdelivers hcalls h.sound.connected, fun f' hf' => ?_, fun hnone => ?_⟩
  · obtain ⟨hactive, henabled, hslot⟩ := h.running f' hf'
    refine ⟨hactive, henabled, ?_⟩
    rcases hslot with hempty | hawaits
    · exact .inl (hdelivers.delivery.emptied hempty)
    · cases hdelivers.delivery with
      | lost new hlog hempty => exact .inl hempty
      | sent new address hlog hfull hempty => exact .inl hempty
      | kept new hlog himage hdatagrams hreports =>
        refine .inr ⟨hawaits.stage, fun signal hmem => ?_, hawaits.quit⟩
        have hmem : signal ∈ ({ s with engine } : Bench).emitted := hmem
        rw [emitted_append h.sound.connected hlog] at hmem
        rcases List.mem_append.mp hmem with hmem | hmem
        · exact hawaits.unreported signal hmem
        · exact isVolumeReport_eq_false hreports signal hmem
  · rw [show s.controller.firmware = none from hnone] at hf
    cases hf

/-- The controller moves on in the same wait, and sets no image. -/
theorem Restoring.follow {c : PPBController} (h : s.Restoring)
    (hf : s.controller.firmware = some f) (hfirmware : c.firmware = some f')
    (hlog : Machine.Extends (fun x => x.isOrdinary = true) s.controller.log c.log)
    (hkept : f'.Kept)
    (hpoll : c.autoPollActive = false ∧ c.autoPollEnabled = f'.restartAutoPoll)
    (hwait : s.Awaits f → s.Awaits f') :
    ({ s with toStation := s.toStation.follow c } : Bench).Restoring := by
  have hkeeps : ∀ g, c.firmware = some g → g.Kept := by
    intro g hg
    obtain rfl := Option.some.inj (hfirmware.symm.trans hg)
    exact hkept
  have hengine : (s.toStation.follow c).engine = s.engine := Station.engine_follow_eq hlog
  refine ⟨h.sound.follow hkeeps (hlog.mono fun _ => Entry.isUsual_of_isOrdinary) h.sound.connected,
    fun g hg => ?_, fun hnone => ?_⟩
  · obtain rfl := Option.some.inj (hfirmware.symm.trans hg)
    obtain ⟨-, -, hslot⟩ := h.running f hf
    refine ⟨hpoll.1, hpoll.2, ?_⟩
    change (s.toStation.follow c).engine.statics.volumeUseCustomData = false ∨ _
    rw [hengine]
    refine hslot.imp_right fun hawaits => ?_
    have hnext := hwait hawaits
    refine ⟨hnext.stage, fun signal hmem => hnext.unreported signal ?_, hnext.quit⟩
    change signal ∈ ((s.toStation.follow c).engine.log.drop s.connected).filterMap Output.signal?
      at hmem
    rwa [hengine] at hmem
  · rw [show c.firmware = none from hnone] at hfirmware
    cases hfirmware

/-- A wait for a VOLUME hears of nothing else. -/
theorem notice_eq_self {signal : Signal} (hstage : f.stage.isVolume = true)
    (hsignal : signal.isVolumeReport = false) : f.notice signal = f := by
  unfold FirmwareSession.notice
  cases hf : f.stage with
  | volume | finalVolume =>
    cases signal with
    | commandCompleted ok message command =>
      exact if_neg (by simpa [Signal.isVolumeReport] using hsignal)
    | _ => rfl
  | _ =>
    rw [hf] at hstage
    cases hstage

theorem Awaits.notice (h : s.Awaits f) {signal : Signal}
    (hpossible : signal.isVolumeReport = true → signal ∈ s.emitted) :
    s.Awaits (f.notice signal) := by
  have hother : signal.isVolumeReport = false := by
    cases hreport : signal.isVolumeReport with
    | false => rfl
    | true => exact (h.unreported signal (hpossible hreport)).symm.trans hreport |>.symm
  rw [notice_eq_self h.stage hother]
  exact h

theorem Awaits.timeout (h : s.Awaits f) : s.Awaits f.timeout := by
  refine ⟨by rw [FirmwareSession.timeout_stage]; exact h.stage, h.unreported, fun _ => ?_⟩
  unfold FirmwareSession.timeout
  dsimp only
  split <;> rfl

/-- An event loop returns with the slot empty. -/
theorem Restoring.resumed {c : PPBController} {groupId : Nat} (h : s.Restoring)
    (hf : s.controller.firmware = some f) (hempty : s.engine.statics.volumeUseCustomData = false)
    (hkept : ∀ g, c.firmware = some g → g.Kept)
    (hlog : Machine.Extends Entry.IsUsual s.controller.log c.log)
    (hguarded : PPBController.Guarded s.controller f c)
    (hresumed : PPBController.Resumed s.controller f groupId c) :
    ({ toStation := s.toStation.follow c, connected := s.engine.log.length } : Bench).Restoring := by
  obtain ⟨hactive, henabled, -⟩ := h.running f hf
  have hsame (hordinary : Machine.Extends (fun x => x.isOrdinary = true) s.controller.log c.log) :
      (s.toStation.follow c).engine.statics.volumeUseCustomData = false := by
    rw [Station.engine_follow_eq hordinary]
    exact hempty
  have hends (hnone : c.firmware = none)
      (hordinary : Machine.Extends (fun x => x.isOrdinary = true) s.controller.log c.log) :
      c.autoPollActive = c.autoPollEnabled ∧
        (s.toStation.follow c).engine.statics.volumeUseCustomData = false := by
    refine ⟨?_, hsame hordinary⟩
    rw [hguarded.ends hnone, hguarded.enabled, hactive, henabled, Bool.false_or]
  refine ⟨h.sound.follow hkept hlog (Nat.le_refl _), fun g hg => ?_, fun hnone => ?_⟩
  · have hg : c.firmware = some g := hg
    obtain ⟨hactive', hrestart⟩ := hguarded.goes g hg
    refine ⟨hactive'.trans hactive, (hguarded.enabled.trans henabled).trans hrestart.symm, ?_⟩
    cases hresumed with
    | @advanced f' head stage _ _ hbegun hsome hhead hnew =>
      obtain rfl : f' = g := Option.some.inj (hsome.symm.trans hg)
      have hstage := hbegun.stage_eq
      cases hvolume : stage.isVolume with
      | false =>
        refine .inl (hsame ⟨_, hnew.trans (List.append_assoc ..), fun x hx => ?_⟩)
        rcases List.mem_append.mp hx with hx | hx
        · exact Entry.isOrdinary_of_isAside (hhead x hx)
        · exact f.plan.isOrdinary_issue _ _ hvolume x hx
      | true =>
        -- the wait has just connected
        refine .inr ⟨hstage ▸ hvolume, fun signal hmem => ?_, fun hquit => ?_⟩
        · obtain ⟨statics, hengine⟩ := s.toStation.engine_follow c
          change signal ∈ ((s.toStation.follow c).engine.log.drop s.engine.log.length).filterMap
            Output.signal? at hmem
          rw [hengine, List.drop_length] at hmem
          cases hmem
        · rw [hbegun.wait] at hquit
          cases hquit
    | failed _ _ hnone | refused _ _ _ _ _ _ hnone | finished _ _ hnone =>
      rw [hnone] at hg
      cases hg
  · have hnone : c.firmware = none := hnone
    cases hresumed with
    | failed tail _ _ hnew htail =>
      exact hends hnone ⟨tail, hnew, fun x hx => Entry.isOrdinary_of_isAside (htail x hx)⟩
    | refused stage error _ _ hgroup _ _ hnew =>
      refine hends hnone ⟨_, hnew.trans (List.append_assoc ..), fun x hx => ?_⟩
      rcases List.mem_append.mp hx with hx | hx
      · refine f.plan.isOrdinary_issue _ _ ?_ x hx
        cases stage <;> first | rfl | cases hgroup
      · rw [List.mem_singleton.mp hx]
        rfl
    | advanced _ _ _ _ _ hsome =>
      rw [hsome] at hnone
      cases hnone
    | finished _ _ _ hnew =>
      exact hends hnone ⟨_, hnew, by simp [finalProgress, Entry.isOrdinary]⟩

/-- A signal has been passed on. -/
theorem Restoring.pass (h : s.Restoring) (relayed : Nat) :
    ({ s with relayed } : Bench).Restoring := by
  refine ⟨⟨h.sound.held, h.sound.calls, h.sound.kept, h.sound.connected⟩, fun f hf => ?_, h.ended⟩
  obtain ⟨hactive, henabled, hslot⟩ := h.running f hf
  exact ⟨hactive, henabled, hslot.imp_right fun hawaits =>
    ⟨hawaits.stage, hawaits.unreported, hawaits.quit⟩⟩

/-- A step of the controller. -/
theorem Restoring.controller {c : PPBController} {e : ControllerEvent} (h : s.Restoring)
    (hf : s.controller.firmware = some f) (hharmless : s.harmless (.controller e) = true)
    (hpossible : s.possible (.controller e) = true)
    (hc : s.controller.handle codeToVSWR e = some c) :
    ({ toStation := s.toStation.follow c
       connected := if s.connects (.controller e) then s.engine.log.length else s.connected } :
      Bench).Restoring := by
  have hkept := h.sound.kept f hf
  obtain ⟨hactive, henabled, hslot⟩ := h.running f hf
  rcases lingers_or_resumed hf hpossible hc with ⟨groupId, rfl, hquit, rfl⟩ | ⟨f', hlingers, hpoll⟩
  · have hempty : s.engine.statics.volumeUseCustomData = false := by
      rcases hslot with hempty | hawaits
      · exact hempty
      · simpa [harmless, hf, hawaits.stage, hawaits.quit hquit] using hharmless
    obtain ⟨hkept', husual⟩ := PPBController.isUsual_handle h.sound.kept hc
    exact h.resumed hf hempty hkept' husual (PPBController.guarded_resumeFirmware groupId)
      (PPBController.resumed_resumeFirmware hkept)
  · rw [hlingers.connects]
    have hguard : c.autoPollActive = false ∧ c.autoPollEnabled = f'.restartAutoPoll := by
      rw [hlingers.restart]
      rcases hpoll with hsame | ⟨answers, rfl, hstopped⟩
      · obtain ⟨henabled', hactive'⟩ := Prod.mk.inj hsame
        exact ⟨hactive'.trans hactive, henabled'.trans henabled⟩
      · -- the guard holds no active timer
        obtain ⟨henabled', hactive'⟩ := Prod.mk.inj hstopped
        simp only [harmless, hf, Option.all_some, Bool.not_eq_true'] at hharmless
        exact ⟨hactive', henabled'.trans hharmless.symm⟩
    refine h.follow hf hlingers.firmware (hlingers.quiet.mono fun x hx => hx.1)
      (hlingers.kept hkept) hguard fun hawaits => ?_
    rcases hlingers.heard with rfl | ⟨signal, rfl, hemitted⟩ | rfl
    · exact hawaits
    · exact hawaits.notice hemitted
    · exact hawaits.timeout

/-- Every step that does no harm. -/
theorem Restoring.step (h : s.Restoring) (hharmless : s.harmless e = true)
    (hstep : s.stepInside codeToVSWR wiring e = some s') : s'.Restoring := by
  obtain ⟨hrunning, hstep⟩ := Option.ite_none_right_eq_some.mp hstep
  obtain ⟨f, hf⟩ := Option.isSome_iff_exists.mp hrunning
  cases moves_of_step hstep with
  | controller hpossible hc => exact h.controller hf hharmless hpossible hc
  | engine asked hasked hcalls =>
    rw [connectedAfter_eq hrunning]
    exact h.engine hf
      (Engine.delivers_handle h.sound.held (hasked.elim (h.sound.calls asked) .inl))
      fun call hcall => h.sound.calls call (hcalls call hcall)
  | passed hfirmware hpoll hlog =>
    obtain ⟨hactive, henabled, -⟩ := h.running f hf
    obtain ⟨henabled', hactive'⟩ := Prod.mk.inj hpoll
    rw [connectedAfter_eq hrunning]
    exact (h.follow hf (hfirmware.trans hf) (hlog.mono fun _ => Entry.isOrdinary_of_isAside)
      (h.sound.kept f hf) ⟨hactive'.trans hactive, henabled'.trans henabled⟩ id).pass _
  | dropped =>
    rw [connectedAfter_eq hrunning]
    exact h.pass _

/-- The update has just begun. -/
theorem restoring_of_begun {call : PublicCall} {answers : Answers} {begun : Bench} (h : s.Sound)
    (hidle : s.controller.firmware = none)
    (hpoll : s.controller.autoPollActive = s.controller.autoPollEnabled)
    (hslot : s.engine.statics.volumeUseCustomData = false)
    (hbegun : s.step codeToVSWR wiring (.controller (.called call answers)) = some begun)
    (haccepted : begun.controller.firmware.isSome) : begun.Restoring := by
  have hsound := h.step hbegun
  obtain ⟨-, hstep⟩ := Option.ite_none_right_eq_some.mp hbegun
  obtain ⟨t, ht, rfl⟩ := Option.map_eq_some_iff.mp hstep
  obtain rfl := Option.some.inj ht
  rcases PPBController.begun_or_usual_take hidle answers call with ⟨f, heq, hrestart, -⟩ | ⟨hnone, -⟩
  · rw [heq] at hsound haccepted ⊢
    refine ⟨hsound, fun g hg => ?_, fun hnone => ?_⟩
    · obtain rfl := Option.some.inj hg
      obtain ⟨henabled, hactive⟩ := Prod.mk.inj (s.controller.autoPoll_beginFirmware f)
      refine ⟨hactive, (henabled.trans hpoll.symm).trans hrestart.symm, .inl ?_⟩
      change (s.toStation.follow (s.controller.beginFirmware f)).engine.statics.volumeUseCustomData =
        false
      rw [Station.engine_follow_eq ⟨_, (s.controller.log_beginFirmware f).trans
        (List.append_assoc ..), fun x hx => ?_⟩]
      · exact hslot
      · rcases List.mem_append.mp hx with hx | hx
        · exact Entry.isOrdinary_of_isAside (PPBController.isAside_of_mem_sweep x hx)
        · exact @FirmwarePlan.isOrdinary_issue f.plan s.controller.communication 0 .isYou rfl x hx
    · cases hnone
  · change (s.controller.take answers call).firmware.isSome = true at haccepted
    rw [hnone] at haccepted
    cases haccepted

/-- **Every return of `updateFirmware` restores the controller**, unless auto-poll is switched off
while the guard holds it for active, or a wait for a VOLUME runs out of time and returns before
the engine has taken the image. -/
theorem updateFirmware_restores {call : PublicCall} {answers : Answers} {begun : Bench}
    (hreach : Machine.Reach (machine codeToVSWR wiring) (fun _ _ => True) s)
    (hidle : s.controller.firmware = none)
    (hpoll : s.controller.autoPollActive = s.controller.autoPollEnabled)
    (hslot : s.engine.statics.volumeUseCustomData = false)
    (hbegun : s.step codeToVSWR wiring (.controller (.called call answers)) = some begun)
    (haccepted : begun.controller.firmware.isSome)
    (hrun : Machine.Reach (updating codeToVSWR wiring begun) (fun t e => t.harmless e = true) s')
    (hreturned : s'.controller.firmware = none) :
    s'.controller.autoPollActive = s'.controller.autoPollEnabled ∧
      s'.engine.statics.volumeUseCustomData = false := by
  have hrestoring : s'.Restoring := by
    refine hrun.invariant (fun t ht => ?_) fun t e t' hrestoring hharmless hstep =>
      hrestoring.step hharmless hstep
    rw [show t = begun from ht]
    exact restoring_of_begun (sound_of_reach hreach) hidle hpoll hslot hbegun haccepted
  exact hrestoring.ended hreturned

/-- Auto-poll is on. -/
def polling : Bench where
  controller := {
    communication := some ownCommunication
    autoPollEnabled := true
    autoPollActive := true }
  engine := .init none {}

theorem polling_start (codeToVSWR : Nat → UInt16 → FloatBits)
    (wiring : CommunicationFacade.Wiring) : (machine codeToVSWR wiring).start polling :=
  ⟨⟨none, {}, rfl⟩, rfl, rfl, rfl, rfl, fun _ hid => (Option.some.inj hid).symm⟩

/-- The update of one byte that begins there. -/
def pollingBegun : Bench where
  toStation := polling.toStation.follow (polling.controller.beginFirmware
    { PPBController.oneByteSession with restartAutoPoll := true })

theorem polling_begins (codeToVSWR : Nat → UInt16 → FloatBits)
    (wiring : CommunicationFacade.Wiring) : polling.step codeToVSWR wiring (.controller
      (.called (.updateFirmware 1 (some PPBController.oneByteImage) (some 0)) {})) =
        some pollingBegun := by
  have htake : polling.controller.take {}
      (.updateFirmware 1 (some PPBController.oneByteImage) (some 0)) =
        polling.controller.beginFirmware
          { PPBController.oneByteSession with restartAutoPoll := true } := by
    have hversion : roundedVersion 0 = 0 := by norm_num [roundedVersion]
    have hpayloads : FirmwareUpdater.buildVolumePayloads [[0x41]] = [[0x41]] := by decide
    simp [polling, PPBController.take, PPBController.updateFirmware, hversion,
      PPBController.parse_oneByteImage, hpayloads, PPBController.oneByteSession]
  simp only [step, possible, if_true, Station.step, PPBController.handle, Option.map_some, htake]
  rfl

/-- The first VOLUME is lost, as there is no UDP client; whether the groups succeed is the
communication layer's to say. -/
def volumeLost : List StationEvent :=
  List.replicate 18 .taken ++ [.engine (.datagram [0, 1]),
    .controller (.noticed (.commandDataParsed 0 (.activeMask 1) .isYou)), .controller (.resume 7),
    .taken, .engine (.timeout 1), .controller (.noticed (.groupCommandCompleted 7 true "")),
    .controller (.resume 8), .taken, .engine (.timeout 1),
    .controller (.noticed (.groupCommandCompleted 8 true "")), .controller (.resume 0), .taken,
    .controller (.noticed (.commandCompleted false "VOLUME: UDPClient не инициализирован" .volume)),
    .controller (.resume 0)]

theorem updateFirmware_restores_lost : ∃ s : Bench, s.controller.firmware.isNone = true ∧
    s.controller.autoPollActive = true ∧
    s.controller.autoPollActive = s.controller.autoPollEnabled ∧
    s.engine.statics.volumeUseCustomData = false := by
  have hend : (Machine.run (stepInside (fun _ _ => 0) .inInitialize)
      (fun t e => t.harmless e = true) pollingBegun volumeLost).map
        (fun s => (s.controller.firmware.isNone, s.controller.autoPollActive)) =
          some (true, true) := by
    decide
  obtain ⟨s, hrun, heq⟩ := Option.map_eq_some_iff.mp hend
  obtain ⟨hreturned, hactive⟩ := Prod.mk.inj heq
  have hreach : Machine.Reach (updating (fun _ _ => 0) .inInitialize pollingBegun)
      (fun t e => t.harmless e = true) s :=
    .of_run _ (fun _ _ _ h => h) (.start rfl) volumeLost hrun
  exact ⟨s, hreturned, hactive, updateFirmware_restores (.start (polling_start _ .inInitialize)) rfl
    rfl rfl (polling_begins _ _) rfl hreach (Option.isNone_iff_eq_none.mp hreturned)⟩

/-- Auto-poll is switched off, and the first VOLUME times out before the engine has come to it: the
timer is started again, and the image stays in the slot. -/
theorem not_updateFirmware_restores : (machine (fun _ _ => 0) .inInitialize).start polling ∧
    polling.controller.autoPollActive = polling.controller.autoPollEnabled ∧
    polling.engine.statics.volumeUseCustomData = false ∧
    polling.step (fun _ _ => 0) .inInitialize (.controller
      (.called (.updateFirmware 1 (some PPBController.oneByteImage) (some 0)) {})) =
        some pollingBegun ∧
    ∃ s : Bench,
      Machine.Reach (updating (fun _ _ => 0) .inInitialize pollingBegun) (fun _ _ => True) s ∧
        s.controller.firmware = none ∧ s.controller.autoPollActive = true ∧
        s.controller.autoPollEnabled = false ∧ s.engine.statics.volumeUseCustomData = true := by
  refine ⟨polling_start _ _, rfl, rfl, polling_begins _ _, _, Machine.Reach.of_run
    (stepInside (fun _ _ => 0) .inInitialize) (fun _ _ _ h => h) (.start rfl)
    [.controller (.called .stopAutoPoll {}),
      .controller (.noticed (.commandDataParsed 0 (.activeMask 1) .isYou)), .controller (.resume 7),
      .controller (.noticed (.groupCommandCompleted 7 true "")), .controller (.resume 8),
      .controller (.noticed (.groupCommandCompleted 8 true "")), .controller (.resume 0),
      .controller .timedOut, .controller (.resume 0)] rfl, rfl, rfl, rfl, rfl⟩

end

end Bench

end PPB
