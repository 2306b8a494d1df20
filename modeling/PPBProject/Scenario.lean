import PPBProject.History
import PPBProject.Station

/- `ScenarioEngine::waitForCommand`, which runs in the thread of the scenario while everything
   else happens in the threads of the station.

   The call goes on step by step, and between two steps anything may happen. The slot it
   connects is called in the thread of the controller, for every command of the code it
   waits for: `waitForCommand` does not look at its own `address`. A `quit()` that comes
   before `exec()` does not end that `exec()`.

   `Watch` stands beside the code and knows what the code does not: which operations the
   launcher has started, and whether they have succeeded in time.

   Correspondence (C++ ↔ Lean):
     the lambda connected to `commandCompleted` ↔ `Wait.notice`
     `commandLauncher()`                        ↔ `StandEvent.launch`
     `timer`                                    ↔ `timer`, `StandEvent.timedOut`
     `stopPoll`                                 ↔ `StandEvent.stopPoll`
     `disconnect(conn)` and the `return`        ↔ `StandEvent.returned`
   Left out: how long the timers take. -/
namespace PPB

/-- The functions of Lua that wait for a command. -/
inductive LuaCommand where
  | requestStatus
  | sendTC
  | requestVersion
  | requestChecksum
  | requestDropped
  | requestBER_T
  | requestBER_F
  | requestFabricNumber
  | startPRBS_M2S
  | startPRBS_S2M
  deriving DecidableEq

namespace LuaCommand

/-- The call the launcher makes. -/
def launcher (address : UInt16) : LuaCommand → PublicCall
  | requestStatus => .requestStatus address
  | sendTC => .sendTC address
  | requestVersion => .requestVersion address
  | requestChecksum => .requestChecksum address
  | requestDropped => .requestDroppedPackets address
  | requestBER_T => .requestBER_T address
  | requestBER_F => .requestBER_F address
  | requestFabricNumber => .requestFabricNumber address
  | startPRBS_M2S => .startPRBS_M2S address
  | startPRBS_S2M => .startPRBS_S2M address

def expectedCmd : LuaCommand → TechCommand
  | requestStatus => .ts
  | sendTC => .tc
  | requestVersion => .vers
  | requestChecksum => .checksum
  | requestDropped => .drop
  | requestBER_T => .berT
  | requestBER_F => .berF
  | requestFabricNumber => .factoryNumber
  | startPRBS_M2S => .prbsM2S
  | startPRBS_S2M => .prbsS2M

def timeoutMs : LuaCommand → Nat
  | requestStatus => 10000
  | startPRBS_M2S | startPRBS_S2M => 30000
  | _ => 5000

end LuaCommand

/-- Where a call of `waitForCommand` stands. -/
inductive WaitStage where
  | entered
  | launched
  | inLoop
  | left
  deriving DecidableEq

/-- The locals of a call. -/
structure Wait where
  command : LuaCommand
  address : UInt16
  stage : WaitStage := .entered
  success : Bool := false
  timeout : Bool := false
  quit : Bool := false
  timer : Option Nat := none

namespace Wait

/-- What the slot takes from a signal. -/
def reports (w : Wait) : Signal → Option Bool
  | .commandCompleted success _ cmd =>
    if w.stage ≠ .entered ∧ cmd = w.command.expectedCmd then some success else none
  | _ => none

/-- `success = s; loop.quit();` -/
def notice (w : Wait) (signal : Signal) : Wait :=
  match w.reports signal with
  | some success => { w with success, quit := w.quit || w.stage = .inLoop }
  | none => w

def timedOut (w : Wait) : Wait := { w with timeout := true, quit := true, timer := none }

/-- `success && !timeout && !m_stopRequested` -/
def result (w : Wait) (stopRequested : Bool) : Bool := w.success && !w.timeout && !stopRequested

end Wait

/-! What a call should report. -/

/-- `ahead` is the number of posted calls before the launcher's own, `own` are the operations it has
started, `done` those that have been reported to the controller with success. -/
structure Watch where
  ahead : Option Nat := none
  own : List Operation := []
  done : List Operation := []
  inTime : Bool := false

namespace Watch

/-- The launcher has started something, and all of it has succeeded. -/
def fulfilled (watch : Watch) : Bool := !watch.own.isEmpty && watch.own.all (· ∈ watch.done)

/-- The operations of a request: one, or one for each address of the mask. -/
def operations (w : Wait) : Origin → List Operation
  | .single n => [⟨w.address, .single n, w.command.expectedCmd⟩]
  | .group groupId =>
    (maskAddresses w.address).map fun address => ⟨address, .group groupId, w.command.expectedCmd⟩

end Watch

/-- What the step tells the controller of the engine's log. A dropped signal is told to nobody. -/
def Station.tells (s : Station) : StationEvent → List Output
  | .relayed => s.next?.toList
  | .controller _ | .taken | .engine _ | .dropped => []

/-- The station, and a script that calls `waitForCommand`. `verdict` is what the last call has
returned, and `told` what the controller has been told by its engine. -/
structure Stand extends Station where
  told : List Output := []
  stopRequested : Bool := false
  wait : Option Wait := none
  verdict : Option Bool := none
  watch : Watch := {}

inductive StandEvent where
  | station (e : StationEvent)
  | stop
  | execute
  | called (command : LuaCommand) (address : UInt16)
  | launch (answers : Answers)
  | exec
  | timedOut
  | stopPoll
  | left
  | returned

namespace Stand

/-- The signals that reach the controller in the step. One that comes from another communication
object is delivered like any other event of the controller. -/
def heard (wiring : CommunicationFacade.Wiring) (s : Stand) : StationEvent → List Signal
  | .controller (.delivered signal) => [signal]
  | .relayed => s.next?.toList.flatMap (Station.arriving wiring)
  | _ => []

/-- The operations that the next posted call starts, if it is the launcher's. -/
def started (s : Stand) (w : Wait) (call : Event) : List Operation :=
  let news := (s.engine.handle call).log.drop s.engine.log.length
  ((news.findSome? Output.acceptedOrigin?).map (Watch.operations w)).getD []

/-- The watch after the step. -/
def watched (s : Stand) (w : Wait) : StationEvent → Watch
  | .taken =>
    match s.watch.ahead, s.calls with
    | some 0, call :: _ => { s.watch with ahead := none, own := s.started w call, done := [] }
    | some (n + 1), _ => { s.watch with ahead := some n }
    | _, _ => s.watch
  | .relayed =>
    match s.next? with
    | some (.commandCompleted op true _) => { s.watch with done := op :: s.watch.done }
    | _ => s.watch
  | _ => s.watch

/-- The station has moved on to `t`. -/
def moved (wiring : CommunicationFacade.Wiring) (s : Stand) (e : StationEvent) (t : Station) :
    Stand :=
  let told := s.told ++ s.toStation.tells e
  match s.wait with
  | none => { s with toStation := t, told }
  | some w =>
    let watch := s.watched w e
    { s with
      toStation := t
      told
      wait := some ((s.heard wiring e).foldl Wait.notice w)
      watch := { watch with
        inTime := watch.inTime || (watch.fulfilled && !w.timeout && !s.stopRequested) } }

/-- A step of the call in progress, which it takes in some stage only. -/
def advance (s : Stand) (stage : WaitStage) (f : Wait → Stand) : Option Stand :=
  match s.wait with
  | some w => if w.stage = stage then some (f w) else none
  | none => none

def step (codeToVSWR : Nat → UInt16 → FloatBits) (wiring : CommunicationFacade.Wiring)
    (s : Stand) : StandEvent → Option Stand
  | .station e => (s.toStation.step codeToVSWR wiring e).map (s.moved wiring e)
  | .stop => some { s with stopRequested := true }
  | .execute => if s.wait.isNone then some { s with stopRequested := false } else none
  | .called command address =>
    if s.wait.isSome then none
    else if s.stopRequested then some { s with verdict := some false, watch := {} }
    else some { s with verdict := none, watch := {}, wait := some { command, address } }
  | .launch answers =>
    s.advance .entered fun w =>
      let t := s.toStation.follow (s.controller.take answers (w.command.launcher w.address))
      { s with
        toStation := t
        wait := some { w with stage := .launched }
        watch := { s.watch with
          ahead := if s.calls.length < t.calls.length then some s.calls.length else none } }
  | .exec =>
    s.advance .launched fun w =>
      { s with wait := some { w with stage := .inLoop, timer := some w.command.timeoutMs } }
  | .timedOut =>
    match s.wait with
    | some w =>
      if w.stage = .inLoop ∧ w.timer.isSome then some { s with wait := some w.timedOut } else none
    | none => none
  | .stopPoll =>
    s.advance .inLoop fun w => { s with wait := some { w with quit := w.quit || s.stopRequested } }
  | .left =>
    match s.wait with
    | some w =>
      if w.stage = .inLoop ∧ w.quit then some { s with wait := some { w with stage := .left } }
      else none
    | none => none
  | .returned =>
    s.advance .left fun w => { s with wait := none, verdict := some (w.result s.stopRequested) }

/-- The station starts in any state of the controller. -/
def machine (codeToVSWR : Nat → UInt16 → FloatBits) (wiring : CommunicationFacade.Wiring) :
    Machine.System Stand StandEvent where
  start s := Engine.machine.start s.engine ∧ s.calls = [] ∧ s.relayed = 0 ∧ s.told = [] ∧
    s.wait = none ∧ s.verdict = none ∧ s.watch.inTime = false
  step s e s' := s.step codeToVSWR wiring e = some s'

/-- The reports on the command waited for that reach the call in the step. -/
def reported (wiring : CommunicationFacade.Wiring) (s : Stand) (w : Wait) (e : StationEvent) :
    List Bool :=
  (s.heard wiring e).filterMap w.reports

/-- The step does not deceive the call. A report on the command it waits for is a success exactly if
with it all that the launcher has started has succeeded, and when this is so for the first time, the
loop is running; from then on no time-out and no stop comes before the call has returned. -/
def Orderly (wiring : CommunicationFacade.Wiring) (s : Stand) : StandEvent → Prop
  | .station e => ∀ w ∈ s.wait, ∀ success ∈ s.reported wiring w e,
      success = (s.watched w e).fulfilled ∧
        ((s.watched w e).fulfilled = true → s.watch.fulfilled = true ∨ w.stage = .inLoop)
  | .timedOut | .stop => s.wait.isSome = true → s.watch.fulfilled = false
  | _ => True

instance (wiring : CommunicationFacade.Wiring) (s : Stand) :
    (e : StandEvent) → Decidable (s.Orderly wiring e)
  | .station e => inferInstanceAs (Decidable (∀ w ∈ s.wait, ∀ success ∈ s.reported wiring w e,
      success = (s.watched w e).fulfilled ∧
        ((s.watched w e).fulfilled = true → s.watch.fulfilled = true ∨ w.stage = .inLoop)))
  | .timedOut | .stop =>
    inferInstanceAs (Decidable (s.wait.isSome = true → s.watch.fulfilled = false))
  | .execute | .called .. | .launch _ | .exec | .stopPoll | .left | .returned => isTrue trivial

/-- The watch is on what the launcher of the call has started. -/
structure Follows (w : Wait) (watch : Watch) : Prop where
  command : ∀ op ∈ watch.own, op.command = w.command.expectedCmd
  ahead : watch.ahead.isSome = true → watch.own = []
  entered : w.stage = .entered → watch.own = [] ∧ watch.ahead = none

/-- What a call in progress knows is what the watch knows. -/
structure Agrees (w : Wait) (watch : Watch) (stopRequested : Bool) : Prop
    extends Follows w watch where
  success : w.success = watch.fulfilled
  inTime : watch.inTime = (watch.fulfilled && !w.timeout && !stopRequested)
  launched : w.stage = .launched → watch.fulfilled = false
  quit : w.stage = .inLoop → watch.fulfilled = true → w.quit = true
  timer : w.stage = .inLoop → w.quit = true ∨ w.timer.isSome = true

structure Honest (s : Stand) : Prop where
  agrees : ∀ w ∈ s.wait, Agrees w s.watch s.stopRequested
  verdict : ∀ result ∈ s.verdict, result = s.watch.inTime
  fresh : s.wait.isSome = true → s.verdict = none

section
variable {codeToVSWR : Nat → UInt16 → FloatBits} {wiring : CommunicationFacade.Wiring}
  {s s' : Stand} {w : Wait} {watch : Watch} {e : StationEvent}

theorem fulfilled_of_own_eq_nil (h : watch.own = []) : watch.fulfilled = false := by
  simp [Watch.fulfilled, h]

theorem fulfilled_of_done_eq_nil (h : watch.done = []) : watch.fulfilled = false := by
  unfold Watch.fulfilled
  cases watch.own with
  | nil => rfl
  | cons op rest => simp [h]

/-- One more success. -/
theorem fulfilled_cons {op : Operation} (h : watch.fulfilled = true) :
    ({ watch with done := op :: watch.done } : Watch).fulfilled = true := by
  simp only [Watch.fulfilled, Bool.and_eq_true, List.all_eq_true, decide_eq_true_eq] at h ⊢
  exact ⟨h.1, fun other hmem => List.mem_cons_of_mem _ (h.2 other hmem)⟩

/-- A success of another operation. -/
theorem fulfilled_cons_of_notMem {op : Operation} (h : op ∉ watch.own) :
    ({ watch with done := op :: watch.done } : Watch).fulfilled = watch.fulfilled := by
  have hsame : watch.own.all (· ∈ op :: watch.done) = watch.own.all (· ∈ watch.done) := by
    rw [Bool.eq_iff_iff, List.all_eq_true, List.all_eq_true]
    refine forall₂_congr fun other hmem => ?_
    have hne : other ≠ op := fun heq => h (heq ▸ hmem)
    simp [hne]
  simp only [Watch.fulfilled, hsame]

/-- The facade passes the completion of a command on. -/
theorem arriving_commandCompleted (op : Operation) (success : Bool) (message : String) :
    Station.arriving wiring (.commandCompleted op success message) =
      [.commandCompleted success message op.command] := by
  rw [Station.arriving, PPBController.deliveries_eq]
  rfl

theorem heard_cases (wiring : CommunicationFacade.Wiring) (s : Stand) (e : StationEvent) :
    s.heard wiring e = [] ∨ ∃ signal, s.heard wiring e = [signal] := by
  have hshort (xs : List Signal) (h : xs.length ≤ 1) : xs = [] ∨ ∃ signal, xs = [signal] := by
    cases xs with
    | nil => exact .inl rfl
    | cons x rest =>
      rw [List.length_cons] at h
      have hrest : rest = [] := List.length_eq_zero_iff.mp (by omega)
      exact .inr ⟨x, by rw [hrest]⟩
  refine hshort _ ?_
  unfold heard
  split
  · exact le_refl _
  · cases s.next? with
    | none => exact Nat.zero_le _
    | some o =>
      simp only [Option.toList_some, List.flatMap_cons, List.flatMap_nil, List.append_nil,
        Station.arriving, PPBController.deliveries_eq]
      refine (List.length_filter_le _ _).trans ?_
      cases o.signal? <;> simp
  · exact Nat.zero_le _

theorem watched_inTime : (s.watched w e).inTime = s.watch.inTime := by
  unfold watched
  split
  · split <;> rfl
  · split <;> rfl
  · rfl

/-- What the launcher has started is of the command waited for. -/
theorem command_of_mem_started {call : Event} {op : Operation} (h : op ∈ s.started w call) :
    op.command = w.command.expectedCmd := by
  unfold started at h
  dsimp only at h
  cases horigin : List.findSome? Output.acceptedOrigin?
      (List.drop s.engine.log.length (s.engine.handle call).log) with
  | none => simp [horigin] at h
  | some origin =>
    rw [horigin] at h
    cases origin with
    | single n =>
      simp only [Option.map_some, Option.getD_some, Watch.operations, List.mem_singleton] at h
      rw [h]
    | group groupId =>
      simp only [Option.map_some, Option.getD_some, Watch.operations, List.mem_map] at h
      obtain ⟨address, -, rfl⟩ := h
      rfl

/-- The watch follows the requests of the launcher, and the successes of everybody. -/
theorem Follows.watched (h : Follows w s.watch) : Follows w (s.watched w e) ∧
    (s.watch.fulfilled = true → (s.watched w e).fulfilled = true) := by
  unfold Stand.watched
  split
  · split
    next call rest hahead hcalls =>
      refine ⟨⟨fun op hmem => command_of_mem_started hmem, fun hsome => ?_, fun hentered => ?_⟩,
        fun hfulfilled => ?_⟩
      · cases hsome
      · rw [(h.entered hentered).2] at hahead
        cases hahead
      · have hnone := fulfilled_of_own_eq_nil (h.ahead (by rw [hahead]; rfl))
        rw [hnone] at hfulfilled
        cases hfulfilled
    next n hahead =>
      have hsome : s.watch.ahead.isSome = true := by rw [hahead]; rfl
      refine ⟨⟨h.command, fun _ => h.ahead hsome, fun hentered => ?_⟩, id⟩
      rw [(h.entered hentered).2] at hahead
      cases hahead
    next => exact ⟨⟨h.command, h.ahead, h.entered⟩, id⟩
  · split
    next op message hnext =>
      exact ⟨⟨h.command, h.ahead, h.entered⟩, fun hfulfilled => fulfilled_cons hfulfilled⟩
    next => exact ⟨⟨h.command, h.ahead, h.entered⟩, id⟩
  · exact ⟨⟨h.command, h.ahead, h.entered⟩, id⟩

/-- Without a report nothing changes. -/
theorem Follows.fulfilled_eq (h : Follows w s.watch) (hnone : s.reported wiring w e = []) :
    (s.watched w e).fulfilled = s.watch.fulfilled := by
  unfold Stand.watched
  split
  · split
    next call rest hahead hcalls =>
      rw [fulfilled_of_done_eq_nil rfl, fulfilled_of_own_eq_nil (h.ahead (by rw [hahead]; rfl))]
    next => rfl
    next => rfl
  · split
    next op message hnext =>
      by_cases hentered : w.stage = .entered
      · have hown := (h.entered hentered).1
        rw [fulfilled_of_own_eq_nil hown]
        exact fulfilled_of_own_eq_nil hown
      · -- the operation is not of the command waited for
        refine fulfilled_cons_of_notMem fun hmem => ?_
        have hcommand := h.command op hmem
        simp [reported, heard, hnext, arriving_commandCompleted, Wait.reports, hentered,
          hcommand] at hnone
    next => rfl
  · rfl

/-- What a report makes of the call. -/
theorem foldl_notice (w : Wait) {signals : List Signal}
    (hshort : signals = [] ∨ ∃ signal, signals = [signal]) :
    (signals.filterMap w.reports = [] ∧ signals.foldl Wait.notice w = w) ∨
      ∃ success, signals.filterMap w.reports = [success] ∧ w.stage ≠ .entered ∧
        signals.foldl Wait.notice w = { w with success, quit := w.quit || w.stage = .inLoop } := by
  rcases hshort with rfl | ⟨signal, rfl⟩
  · exact .inl ⟨rfl, rfl⟩
  · rw [List.foldl_cons, List.foldl_nil]
    cases hreports : w.reports signal with
    | none => exact .inl ⟨by simp [hreports], by rw [Wait.notice, hreports]⟩
    | some success =>
      refine .inr ⟨success, by simp [hreports], fun hentered => ?_, by rw [Wait.notice, hreports]⟩
      unfold Wait.reports at hreports
      split at hreports
      · simp [hentered] at hreports
      · cases hreports

/-- A step of the station. -/
theorem Agrees.station (h : Agrees w s.watch s.stopRequested) (hw : s.wait = some w)
    (horderly : s.Orderly wiring (.station e)) :
    Agrees ((s.heard wiring e).foldl Wait.notice w)
      { s.watched w e with
        inTime := (s.watched w e).inTime ||
          ((s.watched w e).fulfilled && !w.timeout && !s.stopRequested) } s.stopRequested := by
  obtain ⟨⟨hcommand, hahead, hentered⟩, hmono⟩ := h.toFollows.watched (e := e)
  rcases foldl_notice w (heard_cases wiring s e) with
    ⟨hnone, hsame⟩ | ⟨success, hone, hstage, hsome⟩
  · have heq : (s.watched w e).fulfilled = s.watch.fulfilled := h.toFollows.fulfilled_eq hnone
    rw [hsame]
    refine ⟨⟨hcommand, hahead, hentered⟩, h.success.trans heq.symm, ?_, fun hlaunched => ?_,
      fun hloop hfulfilled => ?_, h.timer⟩
    · change (_ || _) = ((s.watched w e).fulfilled && _ && _)
      rw [watched_inTime, h.inTime, heq, Bool.or_self]
    · exact heq.trans (h.launched hlaunched)
    · exact h.quit hloop (heq.symm.trans hfulfilled)
  · have hreport := horderly w hw success (by rw [reported, hone]; exact List.mem_singleton_self _)
    obtain ⟨hsuccess, hfirst⟩ := hreport
    rw [hsome]
    refine ⟨⟨hcommand, hahead, hentered⟩, hsuccess, ?_, fun hlaunched => ?_, fun hloop _ => ?_,
      fun hloop => ?_⟩
    · change (_ || _) = ((s.watched w e).fulfilled && _ && _)
      rw [watched_inTime, h.inTime]
      cases hbefore : s.watch.fulfilled with
      | false => rfl
      | true => rw [hmono hbefore, Bool.or_self]
    · -- before the loop runs, a report is a failure
      have hlaunched : w.stage = .launched := hlaunched
      refine Bool.not_eq_true _ ▸ fun hfulfilled => ?_
      rcases hfirst hfulfilled with hbefore | hloop
      · rw [h.launched hlaunched] at hbefore
        cases hbefore
      · rw [hlaunched] at hloop
        cases hloop
    · have hloop : w.stage = .inLoop := hloop
      simp [hloop]
    · have hloop : w.stage = .inLoop := hloop
      exact .inl (by simp [hloop])

theorem advance_eq_some_iff {stage : WaitStage} {f : Wait → Stand} :
    s.advance stage f = some s' ↔ ∃ w, s.wait = some w ∧ w.stage = stage ∧ s' = f w := by
  unfold advance
  cases s.wait with
  | none => simp
  | some w => simp [eq_comm]

/-- The state of the call and what it agrees with, after a step of the call itself. -/
theorem Honest.waiting (wait : Wait) (hagrees : Agrees wait s'.watch s'.stopRequested)
    (hwait : s'.wait = some wait) (hverdict : s'.verdict = none) : s'.Honest := by
  refine ⟨fun w hw => ?_, fun result hresult => ?_, fun _ => hverdict⟩
  · obtain rfl := Option.some.inj (hwait.symm.trans hw)
    exact hagrees
  · rw [hverdict] at hresult
    cases hresult

theorem Honest.idle (hverdict : ∀ result ∈ s'.verdict, result = s'.watch.inTime)
    (hwait : s'.wait = none) : s'.Honest := by
  refine ⟨fun w hw => ?_, hverdict, fun hsome => ?_⟩
  · rw [hwait] at hw
    cases hw
  · rw [hwait] at hsome
    cases hsome

theorem Honest.station {e : StationEvent} (h : s.Honest) (horderly : s.Orderly wiring (.station e))
    (t : Station) : (s.moved wiring e t).Honest := by
  unfold moved
  cases hwait : s.wait with
  | none => exact .idle h.verdict rfl
  | some w =>
    have hagrees := h.agrees w hwait
    exact .waiting _ (hagrees.station hwait horderly) rfl (h.fresh (by rw [hwait]; rfl))

theorem Honest.stop (h : s.Honest) (horderly : s.Orderly wiring .stop) :
    Honest { s with stopRequested := true } := by
  cases hwait : s.wait with
  | none => exact .idle h.verdict rfl
  | some w =>
    have hagrees := h.agrees w hwait
    have hnot : s.watch.fulfilled = false := horderly (by rw [hwait]; rfl)
    refine .waiting w { hagrees with inTime := ?_ } rfl (h.fresh (by rw [hwait]; rfl))
    have hinTime := hagrees.inTime
    rw [hnot] at hinTime ⊢
    exact hinTime

/-- A call that begins, and one that is refused because a stop is requested. -/
theorem Honest.called {command : LuaCommand} {address : UInt16}
    (hstep : s.step codeToVSWR wiring (.called command address) = some s') : s'.Honest := by
  simp only [Stand.step] at hstep
  split at hstep
  next => cases hstep
  next hidle =>
    split at hstep
    · obtain rfl := Option.some.inj hstep
      refine .idle (fun result hresult => ?_) (by simpa using hidle)
      exact (Option.some.inj hresult).symm
    · obtain rfl := Option.some.inj hstep
      refine .waiting _ ⟨⟨?_, fun _ => rfl, fun _ => ⟨rfl, rfl⟩⟩, rfl, rfl, fun _ => rfl, ?_, ?_⟩
        rfl rfl
      · intro op hmem
        cases hmem
      · intro hloop
        cases hloop
      · intro hloop
        cases hloop

theorem Honest.launch (h : s.Honest) {answers : Answers}
    (hstep : s.step codeToVSWR wiring (.launch answers) = some s') : s'.Honest := by
  obtain ⟨w, hwait, hstage, rfl⟩ := advance_eq_some_iff.mp hstep
  have hagrees := h.agrees w hwait
  obtain ⟨hown, -⟩ := hagrees.entered hstage
  refine .waiting { w with stage := .launched } ⟨⟨hagrees.command, fun _ => hown, ?_⟩,
    hagrees.success, hagrees.inTime, fun _ => fulfilled_of_own_eq_nil hown, ?_, ?_⟩ rfl
    (h.fresh (by rw [hwait]; rfl))
  · intro hentered
    cases hentered
  · intro hloop
    cases hloop
  · intro hloop
    cases hloop

theorem Honest.exec (h : s.Honest) (hstep : s.step codeToVSWR wiring .exec = some s') :
    s'.Honest := by
  obtain ⟨w, hwait, hstage, rfl⟩ := advance_eq_some_iff.mp hstep
  have hagrees := h.agrees w hwait
  refine .waiting { w with stage := .inLoop, timer := some w.command.timeoutMs }
    ⟨⟨hagrees.command, hagrees.ahead, ?_⟩, hagrees.success, hagrees.inTime, ?_,
    fun _ hfulfilled => ?_, fun _ => .inr rfl⟩ rfl (h.fresh (by rw [hwait]; rfl))
  · intro hentered
    cases hentered
  · intro hlaunched
    cases hlaunched
  · rw [hagrees.launched hstage] at hfulfilled
    cases hfulfilled

theorem Honest.timedOut (h : s.Honest) (horderly : s.Orderly wiring .timedOut)
    (hstep : s.step codeToVSWR wiring .timedOut = some s') : s'.Honest := by
  simp only [Stand.step] at hstep
  split at hstep
  next w hwait =>
    obtain ⟨-, hstep⟩ := Option.ite_none_right_eq_some.mp hstep
    obtain rfl := Option.some.inj hstep
    have hagrees := h.agrees w hwait
    have hnot : s.watch.fulfilled = false := horderly (by rw [hwait]; rfl)
    refine .waiting w.timedOut { hagrees with
      inTime := ?_
      quit := fun _ _ => rfl
      timer := fun _ => .inl rfl } rfl (h.fresh (by rw [hwait]; rfl))
    have hinTime := hagrees.inTime
    rw [hnot] at hinTime ⊢
    exact hinTime
  next => cases hstep

theorem Honest.stopPoll (h : s.Honest) (hstep : s.step codeToVSWR wiring .stopPoll = some s') :
    s'.Honest := by
  obtain ⟨w, hwait, hstage, rfl⟩ := advance_eq_some_iff.mp hstep
  have hagrees := h.agrees w hwait
  refine .waiting { w with quit := w.quit || s.stopRequested } { hagrees with
    quit := fun hloop hfulfilled => ?_
    timer := fun hloop => ?_ } rfl (h.fresh (by rw [hwait]; rfl))
  · simp [hagrees.quit hloop hfulfilled]
  · exact (hagrees.timer hloop).imp_left fun hquit => by simp [hquit]

theorem Honest.left (h : s.Honest) (hstep : s.step codeToVSWR wiring .left = some s') :
    s'.Honest := by
  simp only [Stand.step] at hstep
  split at hstep
  next w hwait =>
    obtain ⟨-, hstep⟩ := Option.ite_none_right_eq_some.mp hstep
    obtain rfl := Option.some.inj hstep
    have hagrees := h.agrees w hwait
    refine .waiting { w with stage := .left } { hagrees with
      entered := nofun
      launched := nofun
      quit := nofun
      timer := nofun } rfl (h.fresh (by rw [hwait]; rfl))
  next => cases hstep

theorem Honest.returned (h : s.Honest) (hstep : s.step codeToVSWR wiring .returned = some s') :
    s'.Honest := by
  obtain ⟨w, hwait, hstage, rfl⟩ := advance_eq_some_iff.mp hstep
  have hagrees := h.agrees w hwait
  refine .idle (fun result hresult => ?_) rfl
  obtain rfl := Option.some.inj hresult
  rw [hagrees.inTime, ← hagrees.success]
  rfl

/-- One step that does not deceive the call. -/
theorem Honest.step {e : StandEvent} (h : s.Honest) (horderly : s.Orderly wiring e)
    (hstep : s.step codeToVSWR wiring e = some s') : s'.Honest := by
  cases e with
  | station e =>
    obtain ⟨t, -, rfl⟩ := Option.map_eq_some_iff.mp hstep
    exact h.station horderly t
  | stop =>
    obtain rfl := Option.some.inj hstep
    exact h.stop horderly
  | execute =>
    obtain ⟨hidle, hstep⟩ := Option.ite_none_right_eq_some.mp hstep
    obtain rfl := Option.some.inj hstep
    exact .idle h.verdict (Option.isNone_iff_eq_none.mp hidle)
  | called command address => exact .called hstep
  | launch answers => exact h.launch hstep
  | exec => exact h.exec hstep
  | timedOut => exact h.timedOut horderly hstep
  | stopPoll => exact h.stopPoll hstep
  | left => exact h.left hstep
  | returned => exact h.returned hstep

end

/-- Nothing is going on. -/
def idle : Stand where
  controller := { communication := some ownCommunication }
  engine := .init none {}

theorem idle_start (codeToVSWR : Nat → UInt16 → FloatBits) (wiring : CommunicationFacade.Wiring) :
    (machine codeToVSWR wiring).start idle :=
  ⟨⟨none, {}, rfl⟩, rfl, rfl, rfl, rfl, rfl, rfl⟩

end Stand

end PPB
