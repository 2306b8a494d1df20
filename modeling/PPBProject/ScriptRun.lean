import PPBProject.Network
import PPBProject.Restore
import PPBProject.Scripts

/- A script at work on a station. `execute` clears the flag of a stop and calls `main`; the calls of
   `main` are done one by one while the station goes on. A stop may raise an error in `main` at any
   moment between its calls, which allows more runs than the hook does.

   Correspondence (C++ ↔ Lean):
     `execute`, up to the call of `main`       ↔ `ScriptEvent.begin`
     the entry of a function, and its return   ↔ `ScriptEvent.proceed`
     the error that the hook raises            ↔ `ScriptEvent.raised`
     `emit finished(…)`                        ↔ `outcomes`
   Left out: how long a script sleeps. -/
namespace PPB

open Script LuaScript

/-- `left` is what is left of `main`, whose next call may be in progress; `calls` are its calls that
have returned. An outcome is what `main` has returned, and what `finished` reports. -/
structure ScriptRun where
  stand : Stand
  left : Option (LuaScript Bool) := none
  calling : Bool := false
  calls : ScriptCalls := []
  outcomes : List (Option Bool × Bool) := []

inductive ScriptEvent where
  | stand (e : StandEvent)
  | begin
  | proceed
  | raised

/-- The events that are the script's. -/
def StandEvent.isScripts : StandEvent → Bool
  | .execute | .called .. => true
  | _ => false

namespace ScriptRun

/-- The next call has returned. -/
def answer (s : ScriptRun) (c : ScriptCall) (a : c.Answer) (next : c.Answer → LuaScript Bool) :
    ScriptRun :=
  { s with left := some (next a), calling := false, calls := s.calls ++ [⟨c, a⟩] }

/-- `main` goes on. -/
def proceed (codeToVSWR : Nat → UInt16 → FloatBits) (wiring : CommunicationFacade.Wiring)
    (s : ScriptRun) : LuaScript Bool → Option ScriptRun
  -- what `main` has returned is not looked at
  | .done result => some { s with
      left := none
      outcomes := s.outcomes ++ [(some result, !s.stand.stopRequested)] }
  | .call (.log message) next => some (s.answer (.log message) () next)
  | .call (.sleep ms) next => some (s.answer (.sleep ms) () next)
  | .call (.command c address) next =>
    if !s.calling then
      (s.stand.step codeToVSWR wiring (.called c address)).map fun stand =>
        { s with stand, calling := true }
    else if s.stand.wait.isSome then none
    else s.stand.verdict.map fun result => s.answer (.command c address) result next

def step (codeToVSWR : Nat → UInt16 → FloatBits) (wiring : CommunicationFacade.Wiring)
    (main : LuaScript Bool) (s : ScriptRun) : ScriptEvent → Option ScriptRun
  | .stand e =>
    if e.isScripts then none
    else (s.stand.step codeToVSWR wiring e).map fun stand => { s with stand }
  | .begin =>
    if s.left.isSome then none
    else (s.stand.step codeToVSWR wiring .execute).map fun stand =>
      { s with stand, left := some main, calls := [] }
  | .proceed => s.left.bind (s.proceed codeToVSWR wiring)
  | .raised =>
    if s.left.isSome ∧ s.calling = false ∧ s.stand.stopRequested then
      some { s with left := none, outcomes := s.outcomes ++ [(none, false)] }
    else none

def machine (codeToVSWR : Nat → UInt16 → FloatBits) (wiring : CommunicationFacade.Wiring)
    (main : LuaScript Bool) : Machine.System ScriptRun ScriptEvent where
  start s := ∃ stand, (Stand.machine codeToVSWR wiring).start stand ∧ s = { stand }
  step s e s' := s.step codeToVSWR wiring main e = some s'

/-- The call in progress is not deceived. -/
def Orderly (wiring : CommunicationFacade.Wiring) (s : ScriptRun) : ScriptEvent → Prop
  | .stand e => s.stand.Orderly wiring e
  | _ => True

instance (wiring : CommunicationFacade.Wiring) (s : ScriptRun) :
    (e : ScriptEvent) → Decidable (s.Orderly wiring e)
  | .stand e => inferInstanceAs (Decidable (s.stand.Orderly wiring e))
  | .begin | .proceed | .raised => isTrue trivial

end ScriptRun

/-! What a station tells, step by step. -/

namespace Station

section
variable {codeToVSWR : Nat → UInt16 → FloatBits} {wiring : CommunicationFacade.Wiring}
  {s t : Station} {e : StationEvent}

theorem log_follow (s : Station) (c : PPBController) : (s.follow c).engine.log = s.engine.log := by
  obtain ⟨statics, hengine⟩ := s.engine_follow c
  rw [hengine]

/-- What the step tells stands in the log next to what has been passed on before. -/
theorem tells_step (h : s.step codeToVSWR wiring e = some t) :
    List.Sublist (s.engine.log.take s.relayed ++ s.tells e) (t.engine.log.take t.relayed) := by
  have hgrown (call : Event) :
      List.Sublist (s.engine.log.take s.relayed) ((s.engine.handle call).log.take s.relayed) := by
    obtain ⟨new, hlog⟩ := s.engine.log_handle call
    rw [hlog, List.take_append]
    exact List.sublist_append_left ..
  cases e with
  | controller e =>
    obtain ⟨c, -, rfl⟩ := Option.map_eq_some_iff.mp h
    rw [log_follow, tells, List.append_nil]
    exact .refl _
  | taken =>
    simp only [step] at h
    split at h
    next => cases h
    next call rest hcalls =>
      obtain ⟨-, h⟩ := Option.ite_none_right_eq_some.mp h
      obtain rfl := Option.some.inj h
      rw [tells, List.append_nil]
      exact hgrown call
  | engine e =>
    obtain ⟨-, h⟩ := Option.ite_none_right_eq_some.mp h
    obtain rfl := Option.some.inj h
    rw [tells, List.append_nil]
    exact hgrown e
  | relayed =>
    simp only [step] at h
    split at h
    next => cases h
    next =>
      obtain ⟨c, -, rfl⟩ := Option.map_eq_some_iff.mp h
      change List.Sublist _ ((s.follow c).engine.log.take (s.relayed + 1))
      rw [log_follow, List.take_add_one]
      exact .refl _
  | dropped =>
    obtain ⟨-, h⟩ := Option.ite_none_right_eq_some.mp h
    obtain rfl := Option.some.inj h
    rw [tells, List.append_nil]
    change List.Sublist _ (s.engine.log.take (s.relayed + 1))
    rw [List.take_add_one]
    exact List.sublist_append_left ..

end

end Station

/-- The entries tell that the operation has succeeded. -/
def Tells (new : List Output) (op : Operation) : Prop :=
  ∃ message, .commandCompleted op true message ∈ new

/-- The operation is one that the command can start. -/
def Asks (c : LuaCommand) (address : UInt16) (op : Operation) : Prop :=
  op.command = c.expectedCmd ∧ (op.address = address ∨ op.address ∈ maskAddresses address)

namespace Stand

/-- The call in progress is of the command, and so is what its launcher has started. -/
structure Awaiting (c : LuaCommand) (address : UInt16) (s : Stand) : Prop where
  wait : ∀ w ∈ s.wait, w.command = c ∧ w.address = address
  own : ∀ op ∈ s.watch.own, Asks c address op

/-- What the controller has been told, its engine has logged, in this order. -/
def BorneOut (s : Stand) : Prop := List.Sublist s.told (s.engine.log.take s.relayed)

section
variable {codeToVSWR : Nat → UInt16 → FloatBits} {wiring : CommunicationFacade.Wiring}
  {s s' : Stand} {w : Wait} {c : LuaCommand} {address : UInt16}

/-- The watch takes for done what is told. -/
theorem done_watched {e : StationEvent} {op : Operation} (h : op ∈ (s.watched w e).done) :
    op ∈ s.watch.done ∨ Tells (s.toStation.tells e) op := by
  unfold watched at h
  split at h
  next =>
    split at h
    next => cases h
    next => exact .inl h
    next => exact .inl h
  next =>
    split at h
    next told message hnext =>
      cases List.mem_cons.mp h with
      | inl heq =>
        refine .inr ⟨message, ?_⟩
        rw [heq, Station.tells, show s.toStation.next? = _ from hnext]
        exact List.mem_cons_self
      | inr hold => exact .inl hold
    next => exact .inl h
  next => exact .inl h

theorem done_moved {e : StationEvent} {t : Station} {op : Operation}
    (h : op ∈ (s.moved wiring e t).watch.done) :
    op ∈ s.watch.done ∨ Tells (s.toStation.tells e) op := by
  unfold moved at h
  split at h
  next => exact .inl h
  next => exact done_watched h

/-- One step: what is told grows and stays borne out, and the watch takes no more for done. -/
theorem told_step {e : StandEvent} (h : s.step codeToVSWR wiring e = some s')
    (hborne : s.BorneOut) : s'.BorneOut ∧ ∃ new, s'.told = s.told ++ new ∧
      ∀ op ∈ s'.watch.done, op ∈ s.watch.done ∨ Tells new op := by
  have hstays {t : Stand} (htold : t.told = s.told) (hstation : t.toStation = s.toStation)
      (hdone : ∀ op ∈ t.watch.done, op ∈ s.watch.done) : t.BorneOut ∧ ∃ new,
        t.told = s.told ++ new ∧ ∀ op ∈ t.watch.done, op ∈ s.watch.done ∨ Tells new op := by
    unfold BorneOut
    rw [htold, hstation]
    exact ⟨hborne, [], (List.append_nil _).symm, fun op hop => .inl (hdone op hop)⟩
  cases e with
  | station e =>
    obtain ⟨t, ht, rfl⟩ := Option.map_eq_some_iff.mp h
    have hmoved : (s.moved wiring e t).toStation = t ∧
        (s.moved wiring e t).told = s.told ++ s.toStation.tells e := by
      unfold moved
      split
      next => exact ⟨rfl, rfl⟩
      next => exact ⟨rfl, rfl⟩
    refine ⟨?_, _, hmoved.2, fun op hop => done_moved hop⟩
    unfold BorneOut
    rw [hmoved.1, hmoved.2]
    exact (hborne.append_right _).trans (Station.tells_step ht)
  | stop =>
    obtain rfl := Option.some.inj h
    exact hstays rfl rfl fun _ hop => hop
  | execute =>
    obtain ⟨-, h⟩ := Option.ite_none_right_eq_some.mp h
    obtain rfl := Option.some.inj h
    exact hstays rfl rfl fun _ hop => hop
  | called command address =>
    simp only [step] at h
    split at h
    next => cases h
    next =>
      split at h
      next =>
        obtain rfl := Option.some.inj h
        exact hstays rfl rfl fun _ hop => absurd hop List.not_mem_nil
      next =>
        obtain rfl := Option.some.inj h
        exact hstays rfl rfl fun _ hop => absurd hop List.not_mem_nil
  | launch answers =>
    obtain ⟨w, -, -, rfl⟩ := advance_eq_some_iff.mp h
    refine ⟨?_, [], (List.append_nil _).symm, fun op hop => .inl hop⟩
    unfold BorneOut
    dsimp only
    rw [Station.log_follow]
    exact hborne
  | exec | stopPoll | returned =>
    obtain ⟨w, -, -, rfl⟩ := advance_eq_some_iff.mp h
    exact hstays rfl rfl fun _ hop => hop
  | timedOut | left =>
    simp only [step] at h
    split at h
    next =>
      obtain ⟨-, h⟩ := Option.ite_none_right_eq_some.mp h
      obtain rfl := Option.some.inj h
      exact hstays rfl rfl fun _ hop => hop
    next => cases h

theorem asks_of_mem_started {call : Event} {op : Operation} (h : op ∈ s.started w call) :
    Asks w.command w.address op := by
  unfold started at h
  dsimp only at h
  cases horigin : List.findSome? Output.acceptedOrigin?
      (List.drop s.engine.log.length (s.engine.handle call).log) with
  | none =>
    rw [horigin] at h
    cases h
  | some origin =>
    rw [horigin] at h
    cases origin with
    | single n =>
      cases List.mem_singleton.mp h
      exact ⟨rfl, .inl rfl⟩
    | group groupId =>
      obtain ⟨member, hmember, rfl⟩ := List.mem_map.mp h
      exact ⟨rfl, .inr hmember⟩

theorem asks_of_mem_watched {e : StationEvent} {op : Operation} (h : op ∈ (s.watched w e).own) :
    op ∈ s.watch.own ∨ Asks w.command w.address op := by
  unfold watched at h
  split at h
  next =>
    split at h
    next => exact .inr (asks_of_mem_started h)
    next => exact .inl h
    next => exact .inl h
  next =>
    split at h
    next => exact .inl h
    next => exact .inl h
  next => exact .inl h

/-- What reaches a call leaves alone what it is of. -/
theorem foldl_notice_of (w : Wait) (e : StationEvent) :
    ((s.heard wiring e).foldl Wait.notice w).command = w.command ∧
      ((s.heard wiring e).foldl Wait.notice w).address = w.address := by
  obtain ⟨-, hsame⟩ | ⟨success, -, -, hsome⟩ := foldl_notice w (heard_cases wiring s e)
  · rw [hsame]
    exact ⟨rfl, rfl⟩
  · rw [hsome]
    exact ⟨rfl, rfl⟩

theorem Awaiting.step {e : StandEvent} (h : s.Awaiting c address) (he : e.isScripts = false)
    (hstep : s.step codeToVSWR wiring e = some s') : s'.Awaiting c address := by
  have hown {t : Stand} {w wait : Wait} (hw : s.wait = some w) (hwait : t.wait = some wait)
      (hsame : wait.command = w.command ∧ wait.address = w.address)
      (hwatch : t.watch.own = s.watch.own) : t.Awaiting c address := by
    refine ⟨fun w' hw' => ?_, ?_⟩
    · cases hwait.symm.trans hw'
      rw [hsame.1, hsame.2]
      exact h.wait w hw
    · rw [hwatch]
      exact h.own
  cases e with
  | station e =>
    obtain ⟨t, -, rfl⟩ := Option.map_eq_some_iff.mp hstep
    unfold moved
    split
    next hwait =>
      refine ⟨fun w hw => ?_, h.own⟩
      cases hwait.symm.trans hw
    next w hwait =>
      obtain ⟨hcommand, haddress⟩ := h.wait w hwait
      constructor
      · rintro _ ⟨rfl⟩
        obtain ⟨hsame, hsame'⟩ := @foldl_notice_of wiring s w e
        exact ⟨hsame.trans hcommand, hsame'.trans haddress⟩
      · intro op hop
        cases asks_of_mem_watched hop with
        | inl hold => exact h.own op hold
        | inr hnew => rwa [hcommand, haddress] at hnew
  | stop =>
    obtain rfl := Option.some.inj hstep
    exact ⟨h.wait, h.own⟩
  | execute => cases he
  | called => cases he
  | launch answers =>
    obtain ⟨w, hwait, -, rfl⟩ := advance_eq_some_iff.mp hstep
    exact hown hwait rfl ⟨rfl, rfl⟩ rfl
  | exec | stopPoll =>
    obtain ⟨w, hwait, -, rfl⟩ := advance_eq_some_iff.mp hstep
    exact hown hwait rfl ⟨rfl, rfl⟩ rfl
  | returned =>
    obtain ⟨w, -, -, rfl⟩ := advance_eq_some_iff.mp hstep
    exact ⟨nofun, h.own⟩
  | timedOut | left =>
    simp only [Stand.step] at hstep
    split at hstep
    next w hwait =>
      obtain ⟨-, hstep⟩ := Option.ite_none_right_eq_some.mp hstep
      obtain rfl := Option.some.inj hstep
      exact hown hwait rfl ⟨rfl, rfl⟩ rfl
    next => cases hstep

/-- In time means fulfilled. -/
def Timely (s : Stand) : Prop := s.watch.inTime = true → s.watch.fulfilled = true

theorem Honest.timely (h : s.Honest) (hw : s.wait = some w) : s.Timely := by
  intro hinTime
  rw [(h.agrees w hw).inTime, Bool.and_eq_true, Bool.and_eq_true] at hinTime
  exact hinTime.1.1

theorem Timely.step {e : StandEvent} (h : s.Timely) (hhonest' : s'.Honest)
    (hstep : s.step codeToVSWR wiring e = some s') : s'.Timely := by
  cases hwait' : s'.wait with
  | some w => exact hhonest'.timely hwait'
  | none =>
    -- a call that is over leaves the watch as it was
    have hsame : s'.watch = s.watch ∨ s'.watch = {} := by
      cases e with
      | station e =>
        obtain ⟨t, -, rfl⟩ := Option.map_eq_some_iff.mp hstep
        unfold moved at hwait' ⊢
        split at hwait'
        next hnone =>
          rw [hnone]
          exact .inl rfl
        next => cases hwait'
      | stop =>
        obtain rfl := Option.some.inj hstep
        exact .inl rfl
      | execute =>
        obtain ⟨-, hstep⟩ := Option.ite_none_right_eq_some.mp hstep
        obtain rfl := Option.some.inj hstep
        exact .inl rfl
      | called command address =>
        simp only [Stand.step] at hstep
        split at hstep
        next => cases hstep
        next =>
          split at hstep
          next =>
            obtain rfl := Option.some.inj hstep
            exact .inr rfl
          next =>
            obtain rfl := Option.some.inj hstep
            exact .inr rfl
      | launch | exec | stopPoll =>
        obtain ⟨w, -, -, rfl⟩ := advance_eq_some_iff.mp hstep
        cases hwait'
      | returned =>
        obtain ⟨w, -, -, rfl⟩ := advance_eq_some_iff.mp hstep
        exact .inl rfl
      | timedOut | left =>
        simp only [Stand.step] at hstep
        split at hstep
        next =>
          obtain ⟨-, hstep⟩ := Option.ite_none_right_eq_some.mp hstep
          obtain rfl := Option.some.inj hstep
          exact .inl rfl
        next => cases hstep
    unfold Timely
    cases hsame with
    | inl hsame =>
      rw [hsame]
      exact h
    | inr hempty =>
      rw [hempty]
      intro hinTime
      cases hinTime

end

end Stand

/-! What a script is told. -/

/-- What a script has been told has succeeded at single PPBs. -/
def earned (calls : ScriptCalls) : List RequestKey :=
  (answered calls).filterMap fun ((c, address), answer) =>
    if answer = true ∧ maskAddresses address = [address] then some (address, c.expectedCmd.code)
    else none

theorem earned_command (calls : ScriptCalls) (c : LuaCommand) (address : UInt16) (answer : Bool) :
    earned (calls ++ [⟨.command c address, answer⟩]) = earned calls ++
      if answer = true ∧ maskAddresses address = [address] then [(address, c.expectedCmd.code)]
      else [] := by
  unfold earned
  rw [answered_command, List.filterMap_append]
  congr 1
  split
  next h => exact List.filterMap_cons_some (if_pos h)
  next h => exact List.filterMap_cons_none (if_neg h)

namespace ScriptRun

/-- What a script has been told is borne out by what its station has been told before the call in
progress; and what the call takes for done it has been told since. -/
structure Truthful (s : ScriptRun) : Prop where
  honest : s.stand.Honest
  borne : s.stand.BorneOut
  timely : s.stand.Timely
  calling : s.calling = true → ∃ c address next,
    s.left = some (.call (.command c address) next) ∧ s.stand.Awaiting c address
  earned : ∃ before after, s.stand.told = before ++ after ∧
    List.Sublist (earned s.calls) (succeeded before) ∧
    (s.calling = true → ∀ op ∈ s.stand.watch.done, Tells after op)

section
variable {codeToVSWR : Nat → UInt16 → FloatBits} {wiring : CommunicationFacade.Wiring}
  {main : LuaScript Bool} {s s' : ScriptRun}

theorem sublist_append_of_tells {h after : List Output} {op : Operation} {keys : List RequestKey}
    (hkeys : List.Sublist keys (succeeded h)) (htells : Tells after op) :
    List.Sublist (keys ++ [(op.address, op.command.code)]) (succeeded (h ++ after)) := by
  obtain ⟨message, hmem⟩ := htells
  rw [succeeded_append]
  apply hkeys.append
  rw [List.singleton_sublist]
  exact List.mem_filterMap.mpr ⟨_, hmem, rfl⟩

/-- All that a script has been told is borne out by all that its station has been told. -/
theorem Truthful.sublist (h : s.Truthful) :
    List.Sublist (PPB.earned s.calls) (succeeded s.stand.told) := by
  obtain ⟨before, after, htold, hearned, -⟩ := h.earned
  rw [htold, succeeded_append]
  exact hearned.trans (List.sublist_append_left ..)

theorem Truthful.start (h : (machine codeToVSWR wiring main).start s) : s.Truthful := by
  obtain ⟨stand, ⟨-, -, -, htold, hwait, hverdict, hinTime⟩, rfl⟩ := h
  refine ⟨.idle ?_ hwait, ?_, ?_, nofun, [], _, rfl, List.nil_sublist _, nofun⟩
  · dsimp only
    rw [hverdict]
    exact nofun
  · unfold Stand.BorneOut
    dsimp only
    rw [htold]
    exact List.nil_sublist _
  · intro htrue
    dsimp only at htrue
    rw [hinTime] at htrue
    cases htrue

/-- The station goes on. -/
theorem Truthful.stand (h : s.Truthful) {e : StandEvent} {stand : Stand}
    (he : e.isScripts = false) (horderly : s.stand.Orderly wiring e)
    (hstep : s.stand.step codeToVSWR wiring e = some stand) :
    Truthful { s with stand } := by
  have hhonest := h.honest.step horderly hstep
  obtain ⟨hborne, new, htold, hdone⟩ := Stand.told_step hstep h.borne
  refine ⟨hhonest, hborne, h.timely.step hhonest hstep, fun hcalling => ?_, ?_⟩
  · obtain ⟨c, address, next, hleft, hawaiting⟩ := h.calling hcalling
    exact ⟨c, address, next, hleft, hawaiting.step he hstep⟩
  · obtain ⟨before, after, hbefore, hearned, htells⟩ := h.earned
    refine ⟨before, after ++ new, ?_, hearned, fun hcalling op hop => ?_⟩
    · rw [htold, hbefore, List.append_assoc]
    · cases hdone op hop with
      | inl hold =>
        obtain ⟨message, hmem⟩ := htells hcalling op hold
        exact ⟨message, List.mem_append_left _ hmem⟩
      | inr hnew =>
        obtain ⟨message, hmem⟩ := hnew
        exact ⟨message, List.mem_append_right _ hmem⟩

/-- No call is in progress, and the station has told what it had told. -/
theorem Truthful.settled {stand : Stand} (hhonest : stand.Honest)
    (hborne : stand.BorneOut) (htimely : stand.Timely)
    (hearned : List.Sublist (PPB.earned s'.calls) (succeeded stand.told))
    (hstand : s'.stand = stand) (hcalling : s'.calling = false) : s'.Truthful := by
  subst hstand
  refine ⟨hhonest, hborne, htimely, fun h => ?_, _, [], (List.append_nil _).symm, hearned,
    fun h => ?_⟩
  · rw [hcalling] at h
    cases h
  · rw [hcalling] at h
    cases h

theorem Truthful.idle (h : s.Truthful)
    (hleft : ∀ c address next, s.left ≠ some (.call (.command c address) next)) :
    s.calling = false := by
  cases hcalling : s.calling with
  | false => rfl
  | true =>
    obtain ⟨c, address, next, hcall, -⟩ := h.calling hcalling
    exact absurd hcall (hleft c address next)

/-- A function is entered. -/
theorem Truthful.called (h : s.Truthful) {c : LuaCommand} {address : UInt16}
    {next : Bool → LuaScript Bool} {stand : Stand}
    (hleft : s.left = some (.call (.command c address) next))
    (hstep : s.stand.step codeToVSWR wiring (.called c address) = some stand) :
    Truthful { s with stand, calling := true } := by
  have horderly : s.stand.Orderly wiring (.called c address) := trivial
  have hhonest := h.honest.step horderly hstep
  obtain ⟨hborne, new, htold, -⟩ := Stand.told_step hstep h.borne
  have hfresh : stand.watch = {} ∧ ∀ w ∈ stand.wait, w.command = c ∧ w.address = address := by
    simp only [Stand.step] at hstep
    split at hstep
    next => cases hstep
    next hidle =>
      split at hstep
      next =>
        obtain rfl := Option.some.inj hstep
        refine ⟨rfl, fun w hw => ?_⟩
        rw [show s.stand.wait = some w from hw] at hidle
        exact absurd rfl hidle
      next =>
        obtain rfl := Option.some.inj hstep
        refine ⟨rfl, ?_⟩
        rintro _ ⟨rfl⟩
        exact ⟨rfl, rfl⟩
  obtain ⟨hwatch, hwait⟩ := hfresh
  refine ⟨hhonest, hborne, h.timely.step hhonest hstep, fun _ => ?_, ?_⟩
  · refine ⟨c, address, next, hleft, hwait, fun op hop => ?_⟩
    dsimp only at hop
    rw [hwatch] at hop
    cases hop
  · refine ⟨_, [], (List.append_nil _).symm, ?_, fun _ op hop => ?_⟩
    · dsimp only
      rw [htold, succeeded_append]
      exact h.sublist.trans (List.sublist_append_left ..)
    · dsimp only at hop
      rw [hwatch] at hop
      cases hop

/-- A call that returns true at a single PPB has been told of its success. -/
theorem Truthful.returned (h : s.Truthful) {c : LuaCommand} {address : UInt16}
    {next : Bool → LuaScript Bool} {result : Bool}
    (hleft : s.left = some (.call (.command c address) next)) (hcalling : s.calling = true)
    (hverdict : s.stand.verdict = some result) :
    Truthful (s.answer (.command c address) result next) := by
  refine .settled h.honest h.borne h.timely ?_ rfl rfl
  change List.Sublist (PPB.earned (s.calls ++ [⟨.command c address, result⟩])) _
  rw [earned_command]
  split
  next htrue =>
    obtain ⟨rfl, hsingle⟩ := htrue
    obtain ⟨before, after, htold, hearned, htells⟩ := h.earned
    have hfulfilled := h.timely (h.honest.verdict true hverdict).symm
    simp only [Watch.fulfilled, Bool.and_eq_true, Bool.not_eq_true', List.isEmpty_eq_false_iff,
      List.all_eq_true, decide_eq_true_eq] at hfulfilled
    obtain ⟨op, hop⟩ := List.exists_mem_of_ne_nil _ hfulfilled.1
    obtain ⟨c', address', next', hcall, hawaiting⟩ := h.calling hcalling
    cases hleft.symm.trans hcall
    obtain ⟨hcommand, haddress⟩ := hawaiting.own op hop
    rw [hsingle, List.mem_singleton, or_self] at haddress
    have hgrown := sublist_append_of_tells hearned (htells hcalling op (hfulfilled.2 op hop))
    rwa [haddress, hcommand, ← htold] at hgrown
  next =>
    rw [List.append_nil]
    exact h.sublist

/-- One step. -/
theorem Truthful.step (h : s.Truthful) {e : ScriptEvent} (horderly : s.Orderly wiring e)
    (hstep : s.step codeToVSWR wiring main e = some s') : s'.Truthful := by
  cases e with
  | stand e =>
    simp only [ScriptRun.step] at hstep
    split at hstep
    next => cases hstep
    next he =>
      obtain ⟨stand, hstand, rfl⟩ := Option.map_eq_some_iff.mp hstep
      exact h.stand (Bool.not_eq_true _ ▸ he) horderly hstand
  | begin =>
    simp only [ScriptRun.step] at hstep
    split at hstep
    next => cases hstep
    next hidle =>
      obtain ⟨stand, hstand, rfl⟩ := Option.map_eq_some_iff.mp hstep
      have horderly : s.stand.Orderly wiring .execute := trivial
      have hhonest := h.honest.step horderly hstand
      obtain ⟨hborne, -⟩ := Stand.told_step hstand h.borne
      have hcalling : s.calling = false := by
        apply h.idle
        intro c address next hleft
        rw [hleft] at hidle
        exact hidle rfl
      exact .settled hhonest hborne (h.timely.step hhonest hstand) (List.nil_sublist _) rfl
        hcalling
  | proceed =>
    obtain ⟨left, hleft, hstep⟩ := Option.bind_eq_some_iff.mp hstep
    unfold ScriptRun.proceed at hstep
    split at hstep
    next result =>
      obtain rfl := Option.some.inj hstep
      exact .settled h.honest h.borne h.timely h.sublist rfl (h.idle (by simp [hleft]))
    next message next =>
      obtain rfl := Option.some.inj hstep
      refine .settled h.honest h.borne h.timely ?_ rfl rfl
      change List.Sublist (PPB.earned (s.calls ++ [⟨.log message, ()⟩])) _
      rw [PPB.earned, answered_log]
      exact h.sublist
    next ms next =>
      obtain rfl := Option.some.inj hstep
      refine .settled h.honest h.borne h.timely ?_ rfl rfl
      change List.Sublist (PPB.earned (s.calls ++ [⟨.sleep ms, ()⟩])) _
      rw [PPB.earned, answered_sleep]
      exact h.sublist
    next c address next =>
      split at hstep
      next =>
        obtain ⟨stand, hstand, rfl⟩ := Option.map_eq_some_iff.mp hstep
        exact h.called hleft hstand
      next hcalling =>
        split at hstep
        next => cases hstep
        next =>
          obtain ⟨result, hverdict, rfl⟩ := Option.map_eq_some_iff.mp hstep
          exact h.returned hleft (by simpa using hcalling) hverdict
  | raised =>
    obtain ⟨⟨-, hcalling, -⟩, hstep⟩ := Option.ite_none_right_eq_some.mp hstep
    obtain rfl := Option.some.inj hstep
    exact .settled h.honest h.borne h.timely h.sublist rfl hcalling

theorem truthful (h : Machine.Reach (machine codeToVSWR wiring main) (Orderly wiring) s) :
    s.Truthful :=
  h.invariant (fun _ => Truthful.start) fun _ _ _ hs horderly hstep => hs.step horderly hstep

/-- **A script is told the truth**, in a run that never deceives the call in progress: what its
functions have returned true for, at single PPBs, the controller has been told to have succeeded, in
the order of the calls and each for one success of its own. -/
theorem earned_sublist (h : Machine.Reach (machine codeToVSWR wiring main) (Orderly wiring) s) :
    List.Sublist (PPB.earned s.calls) (succeeded s.stand.told) :=
  (truthful h).sublist

/-- A command is asked of the PPB at address 1, acknowledged, and reported. -/
def acknowledged (cmd : TechCommand) : List ScriptEvent :=
  let reported := List.replicate 6 (.stand (.station .relayed))
  [.proceed, .stand (.launch {}), .stand .exec, .stand (.station .taken),
    .stand (.station (.engine (.datagram [0, 1, 0, cmd.code])))] ++ reported ++
    [.stand .left, .stand .returned, .proceed]

theorem earned_sublist_version : ∃ s : ScriptRun,
    PPB.earned s.calls = [(1, TechCommand.vers.code)] ∧
      List.Sublist (PPB.earned s.calls) (succeeded s.stand.told) := by
  have hend : (Machine.run
      (fun (s : ScriptRun) e => s.step (fun _ _ => 0) .inInitialize (requestVersion 1) e)
      (Orderly .inInitialize) { stand := .idle } (.begin :: acknowledged .vers)).map
        (fun s => PPB.earned s.calls) = some [(1, TechCommand.vers.code)] := by
    decide +kernel
  obtain ⟨s, hrun, hearned⟩ := Option.map_eq_some_iff.mp hend
  have hreach : Machine.Reach (machine (fun _ _ => 0) .inInitialize (requestVersion 1))
      (Orderly .inInitialize) s :=
    .of_run _ (fun _ _ _ h => h) (.start ⟨_, Stand.idle_start _ _, rfl⟩) _ hrun
  exact ⟨s, hearned, earned_sublist hreach⟩

/-- The calls are those of `main`. -/
theorem leads {guard : ScriptRun → ScriptEvent → Prop}
    (h : Machine.Reach (machine codeToVSWR wiring main) guard s) :
    ∃ left, main.Leads s.calls left ∧ ∀ rest ∈ s.left, rest = left := by
  induction h with
  | start hstart =>
    obtain ⟨stand, -, rfl⟩ := hstart
    exact ⟨main, .refl, nofun⟩
  | @step s s' e _ _ hstep ih =>
    obtain ⟨left, hleads, hleft⟩ := ih
    have hanswer {c : ScriptCall} {next : c.Answer → LuaScript Bool} (a : c.Answer)
        (hcall : s.left = some (.call c next)) :
        ∃ left, main.Leads (s.answer c a next).calls left ∧
          ∀ rest ∈ (s.answer c a next).left, rest = left := by
      obtain rfl := hleft _ hcall
      refine ⟨next a, hleads.answer a, ?_⟩
      rintro _ ⟨rfl⟩
      rfl
    cases e with
    | stand e =>
      simp only [machine, ScriptRun.step] at hstep
      split at hstep
      next => cases hstep
      next =>
        obtain ⟨stand, -, rfl⟩ := Option.map_eq_some_iff.mp hstep
        exact ⟨left, hleads, hleft⟩
    | begin =>
      simp only [machine, ScriptRun.step] at hstep
      split at hstep
      next => cases hstep
      next =>
        obtain ⟨stand, -, rfl⟩ := Option.map_eq_some_iff.mp hstep
        refine ⟨main, .refl, ?_⟩
        rintro _ ⟨rfl⟩
        rfl
    | proceed =>
      obtain ⟨rest, hrest, hstep⟩ := Option.bind_eq_some_iff.mp hstep
      unfold ScriptRun.proceed at hstep
      split at hstep
      next =>
        obtain rfl := Option.some.inj hstep
        exact ⟨left, hleads, nofun⟩
      next =>
        obtain rfl := Option.some.inj hstep
        exact hanswer _ hrest
      next =>
        obtain rfl := Option.some.inj hstep
        exact hanswer _ hrest
      next =>
        split at hstep
        next =>
          obtain ⟨stand, -, rfl⟩ := Option.map_eq_some_iff.mp hstep
          exact ⟨left, hleads, hleft⟩
        next =>
          split at hstep
          next => cases hstep
          next =>
            obtain ⟨result, -, rfl⟩ := Option.map_eq_some_iff.mp hstep
            exact hanswer _ hrest
    | raised =>
      obtain ⟨-, hstep⟩ := Option.ite_none_right_eq_some.mp hstep
      obtain rfl := Option.some.inj hstep
      exact ⟨left, hleads, nofun⟩

end

end ScriptRun

namespace EmbeddedScript

theorem mem_addresses (script : EmbeddedScript) : ∀ ask ∈ script.required, ask.2 ∈ addresses := by
  have hone (asks : List LuaCommand) : ∀ ask ∈ asks.map fun c => (c, (1 : UInt16)),
      ask.2 ∈ addresses := by
    intro ask hask
    obtain ⟨c, -, rfl⟩ := List.mem_map.mp hask
    exact List.mem_cons_self
  cases script with
  | autotest =>
    exact hone [.requestStatus, .requestVersion, .requestChecksum, .sendTC, .requestDropped,
      .requestBER_T, .requestFabricNumber]
  | stress => exact hone [.startPRBS_M2S, .startPRBS_S2M, .requestBER_T, .requestBER_F]
  | loadtest =>
    intro ask hask
    obtain ⟨i, -, hask⟩ := List.mem_flatMap.mp hask
    obtain ⟨address, haddress, rfl⟩ := List.mem_map.mp hask
    exact haddress

/-- The tests ask single PPBs. -/
theorem required_single (script : EmbeddedScript) {ask : LuaCommand × UInt16}
    (h : ask ∈ script.required) : maskAddresses ask.2 = [ask.2] := by
  have hsingle : addresses.all (fun a => maskAddresses a = [a]) = true := by decide
  simpa using List.all_eq_true.mp hsingle ask.2 (script.mem_addresses ask h)

/-- What must have succeeded for a test to pass. -/
def requiredKeys (script : EmbeddedScript) : List RequestKey :=
  script.required.map fun (c, address) => (address, c.expectedCmd.code)

theorem earned_passed (script : EmbeddedScript) {calls : ScriptCalls}
    (h : answered calls = script.required.map (·, true)) : earned calls = script.requiredKeys := by
  unfold earned requiredKeys
  rw [h, List.filterMap_map, ← List.filterMap_eq_map]
  apply List.filterMap_congr
  intro ask hask
  exact if_pos ⟨rfl, script.required_single hask⟩

/-- A test that says it has passed has been told of all that it requires. -/
theorem earned_of_passed (script : EmbeddedScript) {codeToVSWR : Nat → UInt16 → FloatBits}
    {wiring : CommunicationFacade.Wiring} {guard : ScriptRun → ScriptEvent → Prop} {s : ScriptRun}
    (h : Machine.Reach (ScriptRun.machine codeToVSWR wiring script.main) guard s)
    (hpassed : script.passed ∈ logged s.calls) : earned s.calls = script.requiredKeys := by
  obtain ⟨left, hleads, -⟩ := ScriptRun.leads h
  obtain ⟨result, hcourse, -⟩ := script.exists_course hleads
  apply script.earned_passed
  cases hcourse with
  | passing _ hpassing => exact absurd hpassed hpassing.silent
  | failed _ _ hsilent => exact absurd hpassed hsilent
  | passed hanswered _ => exact hanswered

/-- **A test that says it has passed has passed**, in a run that never deceives it: the controller
has been told that all that the test requires has succeeded, in this order. -/
theorem passed_succeeded (script : EmbeddedScript) {codeToVSWR : Nat → UInt16 → FloatBits}
    {wiring : CommunicationFacade.Wiring} {s : ScriptRun}
    (h : Machine.Reach (ScriptRun.machine codeToVSWR wiring script.main)
      (ScriptRun.Orderly wiring) s) (hpassed : script.passed ∈ logged s.calls) :
    List.Sublist script.requiredKeys (succeeded s.stand.told) := by
  rw [← script.earned_of_passed h hpassed]
  exact (ScriptRun.truthful h).sublist

open ScriptRun in
/-- A run of stress that passes. -/
def stressRun : List ScriptEvent :=
  [.begin, .proceed] ++ acknowledged .prbsM2S ++ [.proceed, .proceed] ++ acknowledged .prbsS2M ++
    [.proceed, .proceed] ++ acknowledged .berT ++ [.proceed] ++ acknowledged .berF ++ [.proceed]

theorem passed_succeeded_stress : ∃ s : ScriptRun, stress.passed ∈ logged s.calls ∧
    List.Sublist stress.requiredKeys (succeeded s.stand.told) := by
  have hend : (Machine.run
      (fun (s : ScriptRun) e => s.step (fun _ _ => 0) .inInitialize stress.main e)
      (ScriptRun.Orderly .inInitialize) { stand := .idle } stressRun).map
        (fun s => decide (stress.passed ∈ logged s.calls)) = some true := by
    decide +kernel
  obtain ⟨s, hrun, hpassed⟩ := Option.map_eq_some_iff.mp hend
  have hreach : Machine.Reach (ScriptRun.machine (fun _ _ => 0) .inInitialize stress.main)
      (ScriptRun.Orderly .inInitialize) s :=
    .of_run _ (fun _ _ _ h => h) (.start ⟨_, Stand.idle_start _ _, rfl⟩) stressRun hrun
  have hpassed := of_decide_eq_true hpassed
  exact ⟨s, hpassed, stress.passed_succeeded hreach hpassed⟩

end EmbeddedScript

end PPB
