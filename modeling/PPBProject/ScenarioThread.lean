import PPBProject.Scenario
import PPBProject.Steps

/- A run of a scenario in its own thread, and the controller that starts and stops it.

   `runScenario` posts `execute` to the thread of the scenario, and `stopScenario` sets a flag that
   the thread looks at when a function registered with Lua is entered, while such a function
   waits, after every 10000 instructions, and when `main` has returned. `execute` clears the
   flag when it begins.

   The script may do anything: which functions it calls, whether it catches an error, and when
   `main` returns is left to the events. An error the hook raises leaves `main`, unless the
   script catches it (`pcall`).

   `loadScenario` replaces the engine and waits, with its thread blocked, until the new one has
   loaded its script; the thread of the scenario comes to that after all that has been posted
   before. `finished` of an engine that has been replaced reaches nobody.

   Correspondence (C++ ↔ Lean):
     `m_stopRequested` of each engine              ↔ `stopRequested`
     the event queue of the scenario's thread      ↔ `jobs`
     `finished` on its way to the controller       ↔ `finished`
     the hook set by `lua_sethook`                 ↔ `ScenarioEvent.instruction`
     `invokeMethod(…, Qt::BlockingQueuedConnection)` ↔ `launched`, `disconnected`
   Left out: what the generator is asked, and how long the timers take. -/
namespace PPB

/-! What touches the fields of the controller that tell of a scenario. -/

namespace PPBController

/-- Whether there is an engine, and whether a scenario runs. -/
def scenarioStatus (c : PPBController) : Bool × Bool := (c.scenarioEngine, c.scenarioRunning)

section
variable {c : PPBController}

@[simp] theorem scenarioStatus_emit (entry : Entry) :
    (c.emit entry).scenarioStatus = c.scenarioStatus := rfl

@[simp] theorem scenarioStatus_callCommunication (call : Event) :
    (c.callCommunication call).scenarioStatus = c.scenarioStatus := by
  unfold callCommunication
  split <;> rfl

@[simp] theorem scenarioStatus_callAll (calls : List Event) :
    (c.callAll calls).scenarioStatus = c.scenarioStatus := by
  unfold callAll
  induction calls generalizing c with
  | nil => rfl
  | cons call rest ih => rw [List.foldl_cons, ih, scenarioStatus_callCommunication]

@[simp] theorem scenarioStatus_endFirmware (f : FirmwareSession) :
    (c.endFirmware f).scenarioStatus = c.scenarioStatus := rfl

@[simp] theorem scenarioStatus_abortFirmware (f : FirmwareSession) (error : String)
    (calls : List Event) : (c.abortFirmware f error calls).scenarioStatus = c.scenarioStatus := by
  simp [abortFirmware]

/-- A session is all that changes. -/
theorem scenarioStatus_withFirmware (firmware : Option FirmwareSession) (active : Bool) :
    ({ c with firmware, autoPollActive := active } : PPBController).scenarioStatus =
      c.scenarioStatus := rfl

@[simp] theorem scenarioStatus_startCommand (f : FirmwareSession) (stage : FirmwareStage)
    (command : TechCommand) : (c.startCommand f stage command).scenarioStatus = c.scenarioStatus :=
  scenarioStatus_callCommunication _

@[simp] theorem scenarioStatus_startGroup (f : FirmwareSession) (stage : FirmwareStage)
    (command : TechCommand) (error : String) (groupId : Nat) :
    (c.startGroup f stage command error groupId).scenarioStatus = c.scenarioStatus := by
  unfold startGroup
  dsimp only
  split
  · simp
  · exact scenarioStatus_callCommunication _

@[simp] theorem scenarioStatus_startVolume (f : FirmwareSession) (i : Nat) :
    (c.startVolume f i).scenarioStatus = c.scenarioStatus :=
  (scenarioStatus_startCommand ..).trans rfl

@[simp] theorem scenarioStatus_startFinalVolume (f : FirmwareSession) :
    (c.startFinalVolume f).scenarioStatus = c.scenarioStatus :=
  (scenarioStatus_startCommand ..).trans rfl

theorem scenarioStatus_resumeFirmware (f : FirmwareSession) (groupId : Nat) :
    (c.resumeFirmware f groupId).scenarioStatus = c.scenarioStatus := by
  unfold resumeFirmware
  dsimp only
  split
  all_goals
    repeat' split
    all_goals simp

theorem scenarioStatus_updateFirmware (selectedMask : UInt16) (hexFile : Option (List Line))
    (newVersion : Option ℚ) (answers : Answers) :
    (c.updateFirmware selectedMask hexFile newVersion answers).scenarioStatus =
      c.scenarioStatus := by
  rcases c.updateFirmware_cases selectedMask hexFile newVersion answers with
    ⟨error, heq⟩ | ⟨version, f, -, heq⟩
  · rw [heq, scenarioStatus_emit]
  · rw [heq, beginFirmware]
    simp
    exact scenarioStatus_withFirmware c.firmware false

theorem scenarioStatus_guarded {body : PPBController → PPBController}
    (h : (body c).scenarioStatus = c.scenarioStatus) :
    (c.guarded body).scenarioStatus = c.scenarioStatus := by
  unfold guarded
  split
  · rfl
  · exact h

theorem scenarioStatus_callGuarded (call : Event) :
    (c.guarded fun c => c.callCommunication call).scenarioStatus = c.scenarioStatus :=
  scenarioStatus_guarded (scenarioStatus_callCommunication call)

theorem scenarioStatus_setFU (mode : FuCommand) (address duration : UInt16)
    (dutyCycle : UInt8 × UInt8 × UInt8) (answers : Answers) :
    (c.setFU mode address duration dutyCycle answers).scenarioStatus = c.scenarioStatus := by
  refine scenarioStatus_guarded ?_
  split
  · rfl
  · exact scenarioStatus_callCommunication _

theorem scenarioStatus_requestStatus (address : UInt16) (answers : Answers) :
    (c.requestStatus address answers).scenarioStatus = c.scenarioStatus := by
  refine scenarioStatus_guarded ?_
  dsimp only
  split
  · rfl
  · split
    · exact scenarioStatus_callCommunication _
    · exact scenarioStatus_callCommunication _

theorem scenarioStatus_sendTC (address : UInt16) :
    (c.sendTC address).scenarioStatus = c.scenarioStatus := by
  refine scenarioStatus_guarded ?_
  split
  · rfl
  · exact scenarioStatus_callCommunication _

theorem scenarioStatus_setCommunication (communication : Option CommunicationId)
    (answers : Answers) :
    (c.setCommunication communication answers).scenarioStatus = c.scenarioStatus := by
  refine scenarioStatus_guarded ?_
  dsimp only
  repeat' split
  all_goals first | rfl | exact scenarioStatus_callCommunication _

theorem scenarioStatus_updateSettings (ppbIndex : UInt8)
    (change : PpbUserSettings → PpbUserSettings) :
    (c.updateSettings ppbIndex change).scenarioStatus = c.scenarioStatus := by
  unfold updateSettings
  split <;> rfl

theorem scenarioStatus_onSignal (codeToVSWR : Nat → UInt16 → FloatBits) (signal : Signal) :
    (c.onSignal codeToVSWR signal).scenarioStatus = c.scenarioStatus := by
  cases signal with
  | commandDataParsed address data command =>
    unfold onSignal onCommandDataParsed
    dsimp only
    split <;> rfl
  | _ => rfl

end


/-- A scenario that runs goes on, and one that begins has an engine. -/
structure Continues (c c' : PPBController) : Prop where
  running : c.scenarioRunning = true → c'.scenarioRunning = true
  engine : c.scenarioEngine = true → c'.scenarioEngine = true
  started : c'.scenarioRunning = true → c.scenarioRunning = false → c'.scenarioEngine = true

section
variable {c c' : PPBController}

theorem Continues.of_status (h : c'.scenarioStatus = c.scenarioStatus) : Continues c c' := by
  obtain ⟨hengine, hrunning⟩ := Prod.mk.inj h
  refine ⟨fun hold => hrunning.trans hold, fun hold => hengine.trans hold, fun hnew hold => ?_⟩
  rw [hrunning, hold] at hnew
  cases hnew

theorem Continues.trans {c'' : PPBController} (h : Continues c c') (h' : Continues c' c'') :
    Continues c c'' where
  running hold := h'.running (h.running hold)
  engine hold := h'.engine (h.engine hold)
  started hnew hold := by
    cases hmid : c'.scenarioRunning with
    | false => exact h'.started hnew hmid
    | true => exact h'.engine (h.started hmid hold)

theorem continues_finishLoad (fileName : String) (answers : Answers) :
    Continues c (c.finishLoad fileName answers) :=
  ⟨id, fun _ => rfl, fun _ _ => rfl⟩

theorem continues_loadScenario (fileName : String) (answers : Answers) :
    Continues c (c.loadScenario fileName answers) := by
  unfold loadScenario
  split
  · exact .of_status rfl
  · split
    · exact .of_status rfl
    · exact continues_finishLoad fileName answers

theorem continues_runScenario (answers : Answers) : Continues c (c.runScenario answers) := by
  unfold runScenario
  split
  · exact .of_status rfl
  · split
    · exact .of_status rfl
    · have hload : Continues c
          (if !c.scenarioEngine then c.loadScenario c.scenarioFileName answers else c) := by
        split
        · exact continues_loadScenario _ _
        · exact .of_status rfl
      generalize (if !c.scenarioEngine then c.loadScenario c.scenarioFileName answers else c) =
        loaded at hload
      dsimp only
      split
      · exact hload
      next hready =>
        simp only [Bool.or_eq_true, Bool.not_eq_true', not_or, Bool.not_eq_false] at hready
        split
        · exact hload.trans (.of_status rfl)
        · exact hload.trans ⟨fun _ => rfl, id, fun _ _ => hready.1⟩

theorem continues_stopScenario : Continues c c.stopScenario := by
  unfold stopScenario
  split
  · exact .of_status rfl
  · exact .of_status rfl

theorem continues_take (answers : Answers) (call : PublicCall) :
    Continues c (c.take answers call) := by
  cases call with
  | loadScenario fileName => exact continues_loadScenario fileName answers
  | runScenario => exact continues_runScenario answers
  | stopScenario => exact continues_stopScenario
  | connectToPPB address ip port => exact .of_status (scenarioStatus_guarded (by simp; rfl))
  | requestStatus address => exact .of_status (scenarioStatus_requestStatus address answers)
  | sendTC address => exact .of_status (scenarioStatus_sendTC address)
  | setFUReceive | setFUTransmit | setFUReceiveTransmit =>
    exact .of_status (scenarioStatus_setFU ..)
  | requestVolume address hexFile newVersion =>
    refine .of_status ?_
    unfold take requestVolume
    dsimp only
    split
    · exact scenarioStatus_updateFirmware ..
    · rfl
  | updateFirmware => exact .of_status (scenarioStatus_updateFirmware ..)
  | startAutoPoll => exact .of_status (scenarioStatus_guarded rfl)
  | setCommunication communication =>
    exact .of_status (scenarioStatus_setCommunication communication answers)
  | setPowerSetting | setFuBlockedSetting | setRebootRequestedSetting | setResetErrorsSetting
  | setPowerEnabledSetting => exact .of_status (scenarioStatus_updateSettings ..)
  | resetSettingsToReal ppbIndex =>
    refine .of_status ?_
    unfold take resetSettingsToReal
    dsimp only
    split
    · exact scenarioStatus_updateSettings ..
    · rfl
  | stopAutoPoll | setCurrentAddress | saveSentPackets | saveReceivedPackets =>
    exact .of_status rfl
  | _ => exact .of_status (scenarioStatus_callGuarded _)

/-- Whatever the controller does, but for the end of the scenario. -/
theorem continues_handle {codeToVSWR : Nat → UInt16 → FloatBits} {e : ControllerEvent}
    (he : e ≠ .scenarioFinished) (h : c.handle codeToVSWR e = some c') : Continues c c' := by
  cases e with
  | called call answers =>
    obtain rfl := Option.some.inj h
    exact continues_take answers call
  | autoPollTimeout answers =>
    obtain rfl := Option.some.inj h
    refine .of_status ?_
    unfold onAutoPollTimeout
    split
    · exact scenarioStatus_requestStatus _ _
    · rfl
  | scenarioFinished => exact absurd rfl he
  | delivered signal =>
    obtain rfl := Option.some.inj h
    exact .of_status ((scenarioStatus_onSignal codeToVSWR signal).trans (scenarioStatus_emit _))
  | noticed signal =>
    simp only [handle] at h
    split at h
    · obtain rfl := Option.some.inj h
      exact .of_status rfl
    · cases h
  | timedOut =>
    simp only [handle] at h
    split at h
    · split at h
      · obtain rfl := Option.some.inj h
        exact .of_status rfl
      · cases h
    · cases h
  | resume groupId =>
    simp only [handle] at h
    split at h
    · split at h
      · obtain rfl := Option.some.inj h
        exact .of_status (scenarioStatus_resumeFirmware _ _)
      · cases h
    · cases h
  | resumeLoad answers =>
    simp only [handle] at h
    split at h
    · obtain rfl := Option.some.inj h
      unfold resumeLoad
      dsimp only
      split
      · exact .of_status rfl
      · exact ⟨id, fun _ => rfl, fun _ _ => rfl⟩
    · cases h

end

end PPBController

/-! The thread of the scenario. -/

/-- What the generator can be asked to do. -/
inductive GeneratorCall where
  | setFrequency
  | setAmplitude
  | setOutput
  | setWaveform
  | setDutyCycle
  | getIdentity
  deriving DecidableEq

/-- The functions registered with Lua. Those of the FU come here with arguments in range; with others
they do nothing. -/
inductive LuaFunction where
  | log
  | sleep (ms : Int)
  | command (wait : LuaCommand) (address : UInt16)
  | setFUReceive (address duration : UInt16) (dutyCycle : UInt8 × UInt8 × UInt8)
  | setFUTransmit (address duration : UInt16) (dutyCycle : UInt8 × UInt8 × UInt8)
  | analyzePackets
  | generatorAvailable
  | generator (call : GeneratorCall)
  deriving DecidableEq

/-- What the launcher of a function that waits calls. -/
def LuaFunction.launcher? : LuaFunction → Option PublicCall
  | command wait address => some (wait.launcher address)
  | setFUReceive address duration dutyCycle => some (.setFUReceive address duration dutyCycle)
  | setFUTransmit address duration dutyCycle => some (.setFUTransmit address duration dutyCycle)
  | _ => none

def LuaFunction.isGenerator : LuaFunction → Bool
  | generator _ => true
  | _ => false

/-- Where `main` stands. `late` says whether the function was called after a stop. -/
inductive ExecutionStage where
  | running
  | launching (f : LuaFunction) (late : Bool)
  | waiting
  | leaving
  | sleeping (remaining : Nat)
  | returned
  deriving DecidableEq

/-- An `execute` in progress, with the instructions since the last call of the hook. -/
structure Execution where
  engine : Nat
  instructions : Nat := 0
  stage : ExecutionStage := .running
  deriving DecidableEq

/-- The count that `lua_sethook` is given. -/
def hookCount : Nat := 10000

/-- What is posted to the thread. -/
inductive Job where
  | load
  | execute (engine : Nat)
  deriving DecidableEq

def Job.isExecute : Job → Bool
  | execute _ => true
  | load => false

/-- What ends a wait. -/
inductive WakeCause where
  | completed
  | timedOut
  | stopPoll
  deriving DecidableEq

inductive ScenarioEvent where
  | controller (e : ControllerEvent)
  | finishedHandled
  | begin (valid : Bool) (instructions : Nat)
  | instruction (caught : Bool)
  | call (f : LuaFunction)
  | launched (answers : Answers) (available : Bool)
  | woken (cause : WakeCause)
  | disconnected
  | slept
  | raised
  | mainReturned
  | concluded

/-- The controller and the thread of the scenario. Beside them stand: whether a stop has come in time
for the run in progress, the commands that were started, each with whether its function was
called after the stop, and the outcomes of all runs, each with whether it was stopped. -/
structure ScenarioHost where
  controller : PPBController
  current : Nat := 0
  stopRequested : Nat → Bool := fun _ => false
  blocked : Bool := false
  jobs : List Job := []
  execution : Option Execution := none
  finished : List Bool := []
  stopped : Bool := false
  commands : List (LuaFunction × Bool) := []
  outcomes : List (Bool × Bool) := []

namespace ScenarioHost

/-- `loadScenario` comes to the replacement of the engine. -/
def replaces (c : PPBController) : ControllerEvent → Bool
  | .called (.loadScenario _) _ => c.firmware.isNone && !(c.scenarioEngine && c.scenarioRunning)
  | .called .runScenario _ =>
    c.firmware.isNone && !c.scenarioFileName.isEmpty && !c.scenarioEngine
  | .resumeLoad _ => c.scenarioLoads.head?.any fun load => load.finished || !c.scenarioRunning
  | _ => false

def isStop : ControllerEvent → Bool
  | .called .stopScenario _ => true
  | _ => false

/-- `execute` has been posted, and `main` has not returned. -/
def underWay (s : ScenarioHost) : Bool :=
  s.jobs.any Job.isExecute || s.execution.any fun x => x.stage ≠ .returned

/-- The controller has moved on to `c`. -/
def follow (s : ScenarioHost) (e : ControllerEvent) (c : PPBController) : ScenarioHost :=
  let replaced := replaces s.controller e
  let started := !s.controller.scenarioRunning && c.scenarioRunning
  let current := if replaced then s.current + 1 else s.current
  { s with
    controller := c
    current
    stopRequested :=
      if .scenarioStopped ∈ Station.news s.controller c then
        Function.update s.stopRequested s.current true
      else s.stopRequested
    blocked := replaced
    jobs := s.jobs ++ (if replaced then [.load] else []) ++
      (if started then [.execute current] else [])
    stopped := s.stopped || (isStop e && s.controller.scenarioRunning && s.underWay) }

/-- `emit finished(success)`, and `execute` is over. -/
def conclude (s : ScenarioHost) (engine : Nat) (success : Bool) : ScenarioHost :=
  { s with
    execution := none
    finished := if engine = s.current then s.finished ++ [success] else s.finished
    stopped := false
    outcomes := s.outcomes ++ [(s.stopped, success)] }

/-- Where the entry of a function leads. One that waits looks at the flag first. -/
def entered (stop late : Bool) : LuaFunction → ExecutionStage
  | .log => .running
  | .sleep ms => if ms ≤ 0 ∨ stop then .running else .sleeping ms.toNat
  | f => if f.launcher?.isSome ∧ stop then .running else .launching f late

/-- A step of `execute`. -/
def advance (s : ScenarioHost) (x : Execution) : ScenarioEvent → Option ScenarioHost
  | .instruction caught =>
    if x.stage ≠ .running then none
    else if x.instructions + 1 < hookCount then
      some { s with execution := some { x with instructions := x.instructions + 1 } }
    else if s.stopRequested x.engine && !caught then some (s.conclude x.engine false)
    else some { s with execution := some { x with instructions := 0 } }
  | .call f =>
    if x.stage ≠ .running ∨ hookCount ≤ x.instructions + 1 then none
    else some { s with
      execution := some { x with
        instructions := x.instructions + 1
        stage := entered (s.stopRequested x.engine) s.stopped f } }
  | .launched answers available =>
    match x.stage with
    | .launching f late =>
      if s.blocked then none
      else match f.launcher? with
        | some call =>
          let s := s.follow (.called call answers) (s.controller.take answers call)
          some { s with
            execution := some { x with stage := .waiting }
            commands := s.commands ++ [(f, late)] }
        | none =>
          some { s with
            execution := some { x with stage := .running }
            commands := if f.isGenerator ∧ available then s.commands ++ [(f, late)] else s.commands }
    | _ => none
  | .woken cause =>
    if x.stage ≠ .waiting ∨ cause = .stopPoll ∧ s.stopRequested x.engine = false then none
    else some { s with execution := some { x with stage := .leaving } }
  | .disconnected =>
    if x.stage ≠ .leaving ∨ s.blocked then none
    else some { s with execution := some { x with stage := .running } }
  | .slept =>
    match x.stage with
    | .sleeping remaining =>
      let stage : ExecutionStage :=
        if remaining ≤ 20 ∨ s.stopRequested x.engine then .running else .sleeping (remaining - 20)
      some { s with execution := some { x with stage } }
    | _ => none
  | .raised => if x.stage ≠ .running then none else some (s.conclude x.engine false)
  | .mainReturned =>
    if x.stage ≠ .running then none
    else some { s with execution := some { x with stage := .returned } }
  | .concluded =>
    if x.stage ≠ .returned then none else some (s.conclude x.engine (!s.stopRequested x.engine))
  | .controller _ | .finishedHandled | .begin .. => none

def step (codeToVSWR : Nat → UInt16 → FloatBits) (s : ScenarioHost) :
    ScenarioEvent → Option ScenarioHost
  | .controller e =>
    match e with
    | .scenarioFinished => none
    | e => if s.blocked then none else (s.controller.handle codeToVSWR e).map (s.follow e)
  | .finishedHandled =>
    match s.finished with
    | [] => none
    | _ :: rest =>
      if s.blocked then none
      else some { s with controller := s.controller.onScenarioFinished, finished := rest }
  | .begin valid instructions =>
    match s.execution, s.jobs with
    | none, .load :: rest => some { s with blocked := false, jobs := rest }
    | none, .execute engine :: rest =>
      let s := { s with
        stopRequested := Function.update s.stopRequested engine false
        jobs := rest }
      if hookCount ≤ instructions then none
      -- without a `main` the run is over at once
      else if valid then some { s with execution := some { engine, instructions } }
      else some (s.conclude engine false)
    | _, _ => none
  | e => s.execution.bind fun x => s.advance x e

/-- The controller starts in any state in which no scenario runs. -/
def machine (codeToVSWR : Nat → UInt16 → FloatBits) : Machine.System ScenarioHost ScenarioEvent where
  start s := ∃ controller : PPBController, controller.scenarioRunning = false ∧ s = { controller }
  step s e s' := s.step codeToVSWR e = some s'

/-- A stop comes when the run has begun, no engine is replaced during a run, and after a stop the
script asks nothing of the generator. -/
def Heeded (s : ScenarioHost) : ScenarioEvent → Prop
  | .controller e => (isStop e = true → s.jobs.any Job.isExecute = false) ∧
      (replaces s.controller e = true → s.jobs.any Job.isExecute = false ∧ s.execution = none)
  | .call f => s.stopped = true → f.isGenerator = false
  | _ => True

instance (s : ScenarioHost) : (e : ScenarioEvent) → Decidable (s.Heeded e)
  | .controller e => inferInstanceAs (Decidable ((isStop e = true → s.jobs.any Job.isExecute = false) ∧
      (replaces s.controller e = true → s.jobs.any Job.isExecute = false ∧ s.execution = none)))
  | .call f => inferInstanceAs (Decidable (s.stopped = true → f.isGenerator = false))
  | .finishedHandled | .begin .. | .instruction _ | .launched .. | .woken _ | .disconnected | .slept
  | .raised | .mainReturned | .concluded => isTrue trivial

/-- The runs that are posted, in progress, or over and not yet known to be. -/
def runs (s : ScenarioHost) : Nat :=
  s.jobs.countP Job.isExecute + s.execution.toList.length + s.finished.length

/-- What every run of the host keeps in which a stop is heeded. -/
structure Steady (s : ScenarioHost) : Prop where
  single : s.runs ≤ 1
  running : 0 < s.runs → s.controller.scenarioRunning = true ∧ s.controller.scenarioEngine = true
  posted : ∀ engine, .execute engine ∈ s.jobs → engine = s.current
  own : ∀ x ∈ s.execution, x.engine = s.current
  loads : s.jobs.count .load = if s.blocked then 1 else 0
  blocked : s.blocked = true → s.execution = none ∧ s.jobs.head? = some .load
  stopped : s.stopped = true → ∃ x, s.execution = some x ∧ s.stopRequested x.engine = true
  late : ∀ x ∈ s.execution, ∀ f, x.stage = .launching f true →
    f.launcher? = none ∧ f.isGenerator = false
  commands : ∀ command ∈ s.commands, command.2 = false
  outcomes : ∀ outcome ∈ s.outcomes, outcome.1 = true → outcome.2 = false

section
variable {codeToVSWR : Nat → UInt16 → FloatBits} {s s' : ScenarioHost} {x : Execution}

theorem scenarioStopped_mem_news {c : PPBController} (hrunning : c.scenarioRunning = true)
    (hengine : c.scenarioEngine = true) : .scenarioStopped ∈ Station.news c c.stopScenario := by
  unfold PPBController.stopScenario
  rw [hrunning, hengine]
  simp [Station.news, PPBController.emit]

theorem jobs_eq_nil (hexecute : s.jobs.any Job.isExecute = false) (hload : s.jobs.count .load = 0) :
    s.jobs = [] := by
  rw [List.eq_nil_iff_forall_not_mem]
  intro job hmem
  cases job with
  | load => exact List.count_eq_zero.mp hload hmem
  | execute engine => exact absurd rfl (List.any_eq_false.mp hexecute _ hmem)

/-- The controller does something. -/
theorem Steady.follow {e : ControllerEvent} {c : PPBController} (h : s.Steady)
    (hfree : s.blocked = false) (hcontinues : s.controller.Continues c)
    (hstop : isStop e = true →
      s.jobs.any Job.isExecute = false ∧ c = s.controller.stopScenario)
    (hreplaced : replaces s.controller e = true →
      s.jobs.any Job.isExecute = false ∧ s.execution = none) : (s.follow e c).Steady := by
  have hloads : s.jobs.count .load = 0 := by rw [h.loads, hfree]; rfl
  have hidle (hstarted : s.controller.scenarioRunning = false) : s.runs = 0 := by
    by_contra hne
    have hrunning := (h.running (Nat.pos_of_ne_zero hne)).1
    rw [hstarted] at hrunning
    cases hrunning
  have hruns : (s.follow e c).runs = s.runs +
      if (!s.controller.scenarioRunning && c.scenarioRunning) = true then 1 else 0 := by
    simp only [ScenarioHost.follow, runs, List.countP_append]
    have hload : (if replaces s.controller e = true then [Job.load] else []).countP Job.isExecute =
        0 := by
      split <;> rfl
    rw [hload]
    split
    · simp only [List.countP_singleton, Job.isExecute, if_true]
      omega
    · rfl
  refine ⟨?_, fun hpos => ?_, fun engine hmem => ?_, fun x hx => ?_, ?_, fun hblocked => ?_,
    fun hstopped => ?_, h.late, h.commands, h.outcomes⟩
  · rw [hruns]
    split
    next hstarted =>
      simp only [Bool.and_eq_true, Bool.not_eq_true'] at hstarted
      rw [hidle hstarted.1]
    next => exact h.single
  · rw [hruns] at hpos
    by_cases hold : 0 < s.runs
    · exact ⟨hcontinues.running (h.running hold).1, hcontinues.engine (h.running hold).2⟩
    · split at hpos
      next hstarted =>
        simp only [Bool.and_eq_true, Bool.not_eq_true'] at hstarted
        exact ⟨hstarted.2, hcontinues.started hstarted.2 hstarted.1⟩
      next => omega
  · simp only [ScenarioHost.follow, List.mem_append] at hmem ⊢
    rcases hmem with (hmem | hmem) | hmem
    · split
      next hnew => exact absurd rfl (List.any_eq_false.mp (hreplaced hnew).1 _ hmem)
      next => exact h.posted engine hmem
    · split at hmem
      · cases List.mem_singleton.mp hmem
      · cases hmem
    · split at hmem
      · exact Job.execute.inj (List.mem_singleton.mp hmem)
      · cases hmem
  · simp only [ScenarioHost.follow]
    split
    next hnew =>
      rw [show s.execution = some x from hx] at hreplaced
      cases (hreplaced hnew).2
    next => exact h.own x hx
  · simp only [ScenarioHost.follow, List.count_append, hloads]
    have hstarted (b : Bool) (engine : Nat) :
        (if b = true then [Job.execute engine] else []).count .load = 0 := by
      split <;> rfl
    rw [hstarted, Nat.zero_add, Nat.add_zero]
    change _ = if replaces s.controller e = true then 1 else 0
    split <;> rfl
  · have hnew : replaces s.controller e = true := hblocked
    obtain ⟨hexecute, hnone⟩ := hreplaced hnew
    refine ⟨hnone, ?_⟩
    simp [ScenarioHost.follow, hnew, jobs_eq_nil hexecute hloads]
  · simp only [ScenarioHost.follow] at hstopped ⊢
    have hset (x : Execution) (hflag : s.stopRequested x.engine = true) :
        (if Entry.scenarioStopped ∈ Station.news s.controller c then
          Function.update s.stopRequested s.current true else s.stopRequested) x.engine = true := by
      split
      · rcases eq_or_ne x.engine s.current with heq | hne
        · rw [heq, Function.update_self]
        · rw [Function.update_of_ne hne]
          exact hflag
      · exact hflag
    rcases Bool.or_eq_true_iff.mp hstopped with hold | hnew
    · obtain ⟨x, hx, hflag⟩ := h.stopped hold
      exact ⟨x, hx, hset x hflag⟩
    · -- the stop of a run that has begun: its engine is the one that is told
      simp only [Bool.and_eq_true] at hnew
      obtain ⟨⟨hisStop, -⟩, hunderWay⟩ := hnew
      obtain ⟨hexecute, rfl⟩ := hstop hisStop
      rw [underWay, hexecute, Bool.false_or] at hunderWay
      obtain ⟨x, hx, -⟩ := (Option.any_eq_true _ _).mp hunderWay
      have hpos : 0 < s.runs := by
        rw [runs, hx]
        simp only [Option.toList_some, List.length_singleton]
        omega
      obtain ⟨hrunning, hengine⟩ := h.running hpos
      refine ⟨x, hx, ?_⟩
      rw [if_pos (scenarioStopped_mem_news hrunning hengine), h.own x hx, Function.update_self]

/-- A step of `execute` that does not end it. -/
theorem Steady.proceed {x' : Execution} {commands : List (LuaFunction × Bool)} (h : s.Steady)
    (hx : s.execution = some x) (hengine : x'.engine = x.engine)
    (hlate : ∀ f, x'.stage = .launching f true → f.launcher? = none ∧ f.isGenerator = false)
    (hcommands : ∀ command ∈ commands, command.2 = false) :
    ({ s with execution := some x', commands } : ScenarioHost).Steady := by
  have hruns : ({ s with execution := some x', commands } : ScenarioHost).runs = s.runs := by
    simp only [runs, hx, Option.toList_some, List.length_singleton]
  refine ⟨hruns ▸ h.single, fun hpos => h.running (hruns ▸ hpos), h.posted, fun y hy => ?_, h.loads,
    fun hblocked => ?_, fun hstopped => ?_, fun y hy => ?_, hcommands, h.outcomes⟩
  · obtain rfl := Option.some.inj hy
    exact hengine.trans (h.own x hx)
  · have hnone := (h.blocked hblocked).1
    rw [hx] at hnone
    cases hnone
  · obtain ⟨y, hy, hflag⟩ := h.stopped hstopped
    obtain rfl := Option.some.inj (hx.symm.trans hy)
    exact ⟨x', rfl, hengine ▸ hflag⟩
  · obtain rfl := Option.some.inj hy
    exact hlate

/-- The end of `execute`. -/
theorem Steady.conclude {success : Bool} (h : s.Steady) (hx : s.execution = some x)
    (hsuccess : s.stopped = true → success = false) : (s.conclude x.engine success).Steady := by
  have hruns : (s.conclude x.engine success).runs = s.runs := by
    simp only [ScenarioHost.conclude, runs, hx, if_pos (h.own x hx), Option.toList_some,
      Option.toList_none, List.length_singleton, List.length_append, List.length_nil]
    omega
  refine ⟨hruns ▸ h.single, fun hpos => h.running (hruns ▸ hpos), h.posted, fun y hy => ?_, h.loads,
    fun hblocked => ?_, fun hstopped => ?_, fun y hy => ?_, h.commands, fun outcome hmem => ?_⟩
  · cases hy
  · have hnone := (h.blocked hblocked).1
    rw [hx] at hnone
    cases hnone
  · cases hstopped
  · cases hy
  · rcases List.mem_append.mp hmem with hmem | hmem
    · exact h.outcomes outcome hmem
    · obtain rfl := List.mem_singleton.mp hmem
      exact hsuccess

/-- The new engine has loaded its script. -/
theorem Steady.loaded {rest : List Job} (h : s.Steady) (hjobs : s.jobs = .load :: rest) :
    ({ s with blocked := false, jobs := rest } : ScenarioHost).Steady := by
  have hruns : ({ s with blocked := false, jobs := rest } : ScenarioHost).runs = s.runs := by
    simp only [runs, hjobs]
    rfl
  refine ⟨hruns ▸ h.single, fun hpos => h.running (hruns ▸ hpos),
    fun engine hmem => h.posted engine (hjobs ▸ List.mem_cons_of_mem _ hmem), h.own, ?_,
    fun hblocked => (by cases hblocked), h.stopped, h.late, h.commands, h.outcomes⟩
  have hloads := h.loads
  rw [hjobs, List.count_cons_self] at hloads
  change rest.count .load = 0
  split at hloads <;> omega

/-- `execute` begins. -/
theorem Steady.begun {engine : Nat} {rest : List Job} (instructions : Nat) (h : s.Steady)
    (hnone : s.execution = none) (hjobs : s.jobs = .execute engine :: rest) :
    ({ s with
      stopRequested := Function.update s.stopRequested engine false
      jobs := rest
      execution := some { engine, instructions } } : ScenarioHost).Steady := by
  have hruns : ({ s with
      stopRequested := Function.update s.stopRequested engine false
      jobs := rest
      execution := some { engine, instructions } } : ScenarioHost).runs = s.runs := by
    simp only [runs, hjobs, hnone, Option.toList_some, Option.toList_none, List.length_singleton,
      List.length_nil, List.countP_cons, Job.isExecute, if_true]
  refine ⟨hruns ▸ h.single, fun hpos => h.running (hruns ▸ hpos),
    fun engine hmem => h.posted engine (hjobs ▸ List.mem_cons_of_mem _ hmem), fun x hx => ?_, ?_,
    fun hblocked => ?_, fun hstopped => ?_, fun x hx f hstage => ?_, h.commands, h.outcomes⟩
  · obtain rfl := Option.some.inj hx
    exact h.posted engine (hjobs ▸ List.mem_cons_self)
  · have hloads := h.loads
    rwa [hjobs, List.count_cons_of_ne (by simp)] at hloads
  · have hhead := (h.blocked hblocked).2
    rw [hjobs] at hhead
    cases hhead
  · obtain ⟨x, hx, -⟩ := h.stopped hstopped
    rw [hnone] at hx
    cases hx
  · obtain rfl := Option.some.inj hx
    cases hstage

/-- The controller learns that the run is over. -/
theorem Steady.finishedHandled {success : Bool} {rest : List Bool} (h : s.Steady)
    (hfinished : s.finished = success :: rest) :
    ({ s with
      controller := s.controller.onScenarioFinished
      finished := rest } : ScenarioHost).Steady := by
  have hsingle := h.single
  simp only [runs, hfinished, List.length_cons] at hsingle
  refine ⟨?_, fun hpos => ?_, h.posted, h.own, h.loads, h.blocked, h.stopped, h.late, h.commands,
    h.outcomes⟩
  · simp only [runs]
    omega
  · simp only [runs] at hpos
    omega

/-- What the launchers call is neither a stop nor the replacement of the engine. -/
theorem launcher_plain {f : LuaFunction} {call : PublicCall} (hlauncher : f.launcher? = some call)
    (c : PPBController) (answers : Answers) :
    isStop (.called call answers) = false ∧ replaces c (.called call answers) = false := by
  cases f with
  | command wait address =>
    obtain rfl := Option.some.inj hlauncher
    cases wait <;> exact ⟨rfl, rfl⟩
  | setFUReceive | setFUTransmit =>
    obtain rfl := Option.some.inj hlauncher
    exact ⟨rfl, rfl⟩
  | _ => cases hlauncher

/-- The flag of a run that has been stopped is set. -/
theorem Steady.flag (h : s.Steady) (hx : s.execution = some x) (hstopped : s.stopped = true) :
    s.stopRequested x.engine = true := by
  obtain ⟨y, hy, hflag⟩ := h.stopped hstopped
  obtain rfl := Option.some.inj (hx.symm.trans hy)
  exact hflag

theorem entered_launching {stop late late' : Bool} {f g : LuaFunction}
    (h : entered stop late f = .launching g late') :
    g = f ∧ late' = late ∧ (stop = true → f.launcher? = none) := by
  cases f with
  | log => cases h
  | sleep ms =>
    simp only [entered] at h
    split at h <;> cases h
  | _ =>
    simp only [entered] at h
    split at h
    · cases h
    next hlaunch =>
      obtain ⟨rfl, rfl⟩ := ExecutionStage.launching.inj h
      refine ⟨rfl, rfl, fun hstop => ?_⟩
      simpa [hstop] using hlaunch

theorem Steady.called {f : LuaFunction} (h : s.Steady) (hx : s.execution = some x)
    (hheeded : s.Heeded (.call f)) (hstep : s.advance x (.call f) = some s') : s'.Steady := by
  simp only [advance] at hstep
  split at hstep
  · cases hstep
  · obtain rfl := Option.some.inj hstep
    refine h.proceed hx rfl (fun g hstage => ?_) h.commands
    obtain ⟨rfl, hstopped, hlauncher⟩ := entered_launching hstage
    exact ⟨hlauncher (h.flag hx hstopped.symm), hheeded hstopped.symm⟩

theorem Steady.launched {answers : Answers} {available : Bool} (h : s.Steady)
    (hx : s.execution = some x) (hstep : s.advance x (.launched answers available) = some s') :
    s'.Steady := by
  simp only [advance] at hstep
  split at hstep
  next f late hstage =>
    split at hstep
    · cases hstep
    next hfree =>
      have hlate (hlate : late = true) : f.launcher? = none ∧ f.isGenerator = false :=
        h.late x hx f (hlate ▸ hstage)
      have hadded (hgo : f.launcher?.isSome = true ∨ f.isGenerator = true) :
          ∀ command ∈ s.commands ++ [(f, late)], command.2 = false := by
        intro command hmem
        rcases List.mem_append.mp hmem with hmem | hmem
        · exact h.commands command hmem
        · obtain rfl := List.mem_singleton.mp hmem
          cases late with
          | false => rfl
          | true =>
            obtain ⟨hlauncher, hgenerator⟩ := hlate rfl
            rw [hlauncher, hgenerator] at hgo
            simp at hgo
      split at hstep
      next call hlauncher =>
        obtain rfl := Option.some.inj hstep
        obtain ⟨hstop, hreplaced⟩ := launcher_plain hlauncher s.controller answers
        have hfollow : (s.follow (.called call answers) (s.controller.take answers call)).Steady :=
          h.follow (Bool.not_eq_true _ ▸ hfree) (PPBController.continues_take answers call)
            (by simp [hstop]) (by simp [hreplaced])
        exact hfollow.proceed hx rfl (fun g hstage => by cases hstage)
          (hadded (.inl (by rw [hlauncher]; rfl)))
      next =>
        obtain rfl := Option.some.inj hstep
        refine h.proceed hx rfl (fun g hstage => by cases hstage) ?_
        split
        next hgo => exact hadded (.inr hgo.1)
        · exact h.commands
  · cases hstep

/-- A step of `execute`. -/
theorem Steady.advance {e : ScenarioEvent} (h : s.Steady) (hx : s.execution = some x)
    (hheeded : s.Heeded e) (hstep : s.advance x e = some s') : s'.Steady := by
  have hrunning {x' : Execution} (hstage : x'.stage = .running) (f : LuaFunction)
      (hlaunching : x'.stage = .launching f true) : f.launcher? = none ∧ f.isGenerator = false := by
    rw [hstage] at hlaunching
    cases hlaunching
  cases e with
  | call f => exact h.called hx hheeded hstep
  | launched answers available => exact h.launched hx hstep
  | instruction caught =>
    simp only [ScenarioHost.advance] at hstep
    split at hstep
    · cases hstep
    next hstage =>
      rw [not_not] at hstage
      split at hstep
      · obtain rfl := Option.some.inj hstep
        exact h.proceed hx rfl (hrunning hstage) h.commands
      · split at hstep
        · obtain rfl := Option.some.inj hstep
          exact h.conclude hx fun _ => rfl
        · obtain rfl := Option.some.inj hstep
          exact h.proceed hx rfl (hrunning hstage) h.commands
  | woken cause =>
    simp only [ScenarioHost.advance] at hstep
    split at hstep
    · cases hstep
    · obtain rfl := Option.some.inj hstep
      exact h.proceed hx rfl (fun f hstage => by cases hstage) h.commands
  | disconnected =>
    simp only [ScenarioHost.advance] at hstep
    split at hstep
    · cases hstep
    · obtain rfl := Option.some.inj hstep
      exact h.proceed hx rfl (hrunning rfl) h.commands
  | slept =>
    simp only [ScenarioHost.advance] at hstep
    split at hstep
    · obtain rfl := Option.some.inj hstep
      refine h.proceed hx rfl (fun f hstage => ?_) h.commands
      dsimp only at hstage
      split at hstage <;> cases hstage
    · cases hstep
  | raised =>
    simp only [ScenarioHost.advance] at hstep
    split at hstep
    · cases hstep
    · obtain rfl := Option.some.inj hstep
      exact h.conclude hx fun _ => rfl
  | mainReturned =>
    simp only [ScenarioHost.advance] at hstep
    split at hstep
    · cases hstep
    · obtain rfl := Option.some.inj hstep
      exact h.proceed hx rfl (fun f hstage => by cases hstage) h.commands
  | concluded =>
    simp only [ScenarioHost.advance] at hstep
    split at hstep
    · cases hstep
    · obtain rfl := Option.some.inj hstep
      exact h.conclude hx fun hstopped => by rw [h.flag hx hstopped]; rfl
  | _ => cases hstep

/-- Every step in which a stop is heeded. -/
theorem Steady.step {e : ScenarioEvent} (h : s.Steady) (hheeded : s.Heeded e)
    (hstep : s.step codeToVSWR e = some s') : s'.Steady := by
  have hadvance (hstep : (s.execution.bind fun x => s.advance x e) = some s') : s'.Steady := by
    obtain ⟨x, hx, hstep⟩ := Option.bind_eq_some_iff.mp hstep
    exact h.advance hx hheeded hstep
  cases e with
  | controller e =>
    have hfollow (he : e ≠ .scenarioFinished)
        (hstep : (if s.blocked = true then none
          else (s.controller.handle codeToVSWR e).map (s.follow e)) = some s') : s'.Steady := by
      split at hstep
      · cases hstep
      next hfree =>
        obtain ⟨c, hc, rfl⟩ := Option.map_eq_some_iff.mp hstep
        refine h.follow (Bool.not_eq_true _ ▸ hfree) (PPBController.continues_handle he hc)
          (fun hstop => ⟨hheeded.1 hstop, ?_⟩) hheeded.2
        unfold isStop at hstop
        split at hstop
        · exact (Option.some.inj hc).symm
        · cases hstop
    cases e with
    | scenarioFinished => cases hstep
    | _ => exact hfollow (by simp) hstep
  | finishedHandled =>
    simp only [ScenarioHost.step] at hstep
    split at hstep
    · cases hstep
    next hfinished =>
      split at hstep
      · cases hstep
      · obtain rfl := Option.some.inj hstep
        exact h.finishedHandled hfinished
  | begin valid instructions =>
    simp only [ScenarioHost.step] at hstep
    split at hstep
    next hjobs =>
      obtain rfl := Option.some.inj hstep
      exact h.loaded hjobs
    next hnone hjobs =>
      split at hstep
      · cases hstep
      · split at hstep
        · obtain rfl := Option.some.inj hstep
          exact h.begun instructions hnone hjobs
        · obtain rfl := Option.some.inj hstep
          exact (h.begun instructions hnone hjobs).conclude rfl fun _ => rfl
    · cases hstep
  | _ => exact hadvance hstep

end

end ScenarioHost

/-! How long a run that has been stopped can go on. -/

/-- The script catches what the hook raises. -/
def ScenarioEvent.isCaught : ScenarioEvent → Bool
  | instruction caught => caught
  | _ => false

/-- The steps it takes at most from a stage to the next instruction, once the flag is set. -/
def ExecutionStage.rank : ExecutionStage → Nat
  | .returned => 0
  | .running => 1
  | .launching f _ => if f.launcher?.isSome then 4 else 2
  | .waiting => 3
  | .leaving | .sleeping _ => 2

/-- The steps it takes at most to the next call of the hook. -/
def Execution.rank (x : Execution) : Nat := 2 * (hookCount - x.instructions) + x.stage.rank

namespace ScenarioHost

/-- A stop is heeded, and the script does not catch what the hook raises. -/
def Undisturbed (s : ScenarioHost) (e : ScenarioEvent) : Prop := s.Heeded e ∧ e.isCaught = false

instance (s : ScenarioHost) (e : ScenarioEvent) : Decidable (s.Undisturbed e) :=
  inferInstanceAs (Decidable (_ ∧ _))

def rank (s : ScenarioHost) : Nat := (s.execution.map Execution.rank).getD 0

section
variable {codeToVSWR : Nat → UInt16 → FloatBits} {s s' : ScenarioHost} {x : Execution}
  {e : ScenarioEvent}

/-- A script has been loaded. -/
def ready : ScenarioHost where
  controller := { communication := none, scenarioEngine := true, scenarioFileName := "main.lua" }

end

end ScenarioHost

end PPB
