import PPBProject.Lib.Script
import PPBProject.Scenario

/- The scripts that come with the program: autotest, loadtest and stress. The last two begin with
   each other's name: loadtest.lua asks eight PPBs for their status again and again, and stress.lua
   tests PRBS and the bit errors. Here they go by the names of their files.

   Each asks PPBs one thing after the other, and returns false at the first that fails. `main` is
   here the program of its calls: `log`, `sleep` and the functions that wait for a command are what
   it calls, everything else it computes. This file

   1. translates the three scripts;
   2. says what the course of such a test is (`Course`), with a rule for each construct;
   3. proves that the three keep to it, whatever the answers (`EmbeddedScript.tests_in_order`).

   Correspondence (Lua ↔ Lean):
     `if not requestStatus(addr) then … end`  ↔ `if !(← requestStatus addr) then …`
     `for i = 1, cycles do … end`             ↔ `for i in List.range' 1 cycles do …`
     `for _, addr in ipairs(addresses) do …`  ↔ `for addr in addresses do …`
     `string.format("0x%04X", addr)`          ↔ `hex4`
     `..` of a number                         ↔ `toString`
   Left out: the functions of the generator and of the FU, which these scripts do not call. -/
namespace PPB

open Script

/-- The functions the scripts call. -/
inductive ScriptCall where
  | log (message : String)
  | sleep (ms : Int)
  | command (command : LuaCommand) (address : UInt16)

/-- What they return. -/
def ScriptCall.Answer : ScriptCall → Type
  | log _ => Unit
  | sleep _ => Unit
  | command .. => Bool

abbrev LuaScript := Program ScriptCall ScriptCall.Answer

abbrev ScriptCalls := List (Answered ScriptCall.Answer)

namespace LuaScript

def log (message : String) : LuaScript Unit := Program.perform (ScriptCall.log message)

def sleep (ms : Int) : LuaScript Unit := Program.perform (ScriptCall.sleep ms)

def command (c : LuaCommand) (address : UInt16) : LuaScript Bool :=
  Program.perform (ScriptCall.command c address)

def requestStatus := command .requestStatus
def sendTC := command .sendTC
def requestVersion := command .requestVersion
def requestChecksum := command .requestChecksum
def requestDropped := command .requestDropped
def requestBER_T := command .requestBER_T
def requestBER_F := command .requestBER_F
def requestFabricNumber := command .requestFabricNumber
def startPRBS_M2S := command .startPRBS_M2S
def startPRBS_S2M := command .startPRBS_S2M

/-! The scripts. -/

def autotest : LuaScript Bool := do
  log "=== Starting functional test ==="
  let addr := 0x0001
  -- 1. the status
  if !(← requestStatus addr) then
    log "FAIL: Status request"
    return false
  sleep 500
  -- 2. the version
  if !(← requestVersion addr) then
    log "FAIL: Version request"
    return false
  sleep 200
  -- 3. the checksum
  if !(← requestChecksum addr) then
    log "FAIL: Checksum request"
    return false
  sleep 200
  -- 4. TC with the current settings
  if !(← sendTC addr) then
    log "FAIL: TC send"
    return false
  sleep 200
  -- 5. the dropped packets
  if !(← requestDropped addr) then
    log "FAIL: Dropped packets request"
    return false
  sleep 200
  -- 6. the bit errors of the TU
  if !(← requestBER_T addr) then
    log "FAIL: BER_T request"
    return false
  sleep 200
  -- 7. the factory number
  if !(← requestFabricNumber addr) then
    log "FAIL: Fabric number request"
    return false
  log "Functional test passed"
  return true

def addresses : List UInt16 := [0x0001, 0x0002, 0x0004, 0x0008, 0x0010, 0x0020, 0x0040, 0x0080]

def cycles : Nat := 100

/-- `%04X` -/
def hex4 (n : UInt16) : String :=
  String.ofList (((Nat.toDigits 16 n.toNat).map Char.toUpper).leftpad 4 '0')

def loadtest : LuaScript Bool := do
  log "=== Starting stress test ==="
  log ("Cycles: " ++ toString cycles ++ ", addresses: " ++ toString addresses.length)
  for i in List.range' 1 cycles do
    for addr in addresses do
      if !(← requestStatus addr) then
        log ("Cycle " ++ toString i ++ ", address 0x" ++ hex4 addr ++ ": FAIL")
        return false
      sleep 50
    if i % 10 = 0 then
      log ("Completed " ++ toString i ++ " cycles")
  log "Stress test passed"
  return true

def stress : LuaScript Bool := do
  log "=== Starting PRBS/BER test ==="
  let addr := 0x0001
  if !(← startPRBS_M2S addr) then
    log "FAIL: PRBS_M2S start"
    return false
  log "PRBS_M2S started, waiting 2 seconds..."
  sleep 2000
  if !(← startPRBS_S2M addr) then
    log "FAIL: PRBS_S2M start"
    return false
  log "PRBS_S2M started, waiting 2 seconds..."
  sleep 2000
  if !(← requestBER_T addr) then
    log "FAIL: BER_T request"
    return false
  sleep 200
  if !(← requestBER_F addr) then
    log "FAIL: BER_F request"
    return false
  log "PRBS/BER test passed"
  return true

/-! What a test has asked and said. -/

def answered (calls : ScriptCalls) : List ((LuaCommand × UInt16) × Bool) :=
  calls.filterMap fun
    | ⟨.command c address, answer⟩ => some ((c, address), answer)
    | _ => none

def logged (calls : ScriptCalls) : List String :=
  calls.filterMap fun
    | ⟨.log message, _⟩ => some message
    | _ => none

section
variable {calls : ScriptCalls}

@[simp] theorem answered_log (message : String) :
    answered (calls ++ [⟨.log message, ()⟩]) = answered calls := by
  simp [answered]

@[simp] theorem answered_sleep (ms : Int) :
    answered (calls ++ [⟨.sleep ms, ()⟩]) = answered calls := by
  simp [answered]

@[simp] theorem answered_command (c : LuaCommand) (address : UInt16) (answer : Bool) :
    answered (calls ++ [⟨.command c address, answer⟩]) =
      answered calls ++ [((c, address), answer)] := by
  simp [answered]

@[simp] theorem logged_log (message : String) :
    logged (calls ++ [⟨.log message, ()⟩]) = logged calls ++ [message] := by
  simp [logged]

@[simp] theorem logged_sleep (ms : Int) :
    logged (calls ++ [⟨.sleep ms, ()⟩]) = logged calls := by
  simp [logged]

@[simp] theorem logged_command (c : LuaCommand) (address : UInt16) (answer : Bool) :
    logged (calls ++ [⟨.command c address, answer⟩]) = logged calls := by
  simp [logged]

end

/-- All of `past` has been asked, and has succeeded; nothing else has been asked. -/
structure Passing (passed : String) (past : List (LuaCommand × UInt16)) (calls : ScriptCalls) :
    Prop where
  answered : answered calls = past.map (·, true)
  silent : passed ∉ logged calls

/-- The course of a test that asks `required` and says `passed` when all of it has succeeded, with
the result there will be, once it is known. -/
inductive Course (required : List (LuaCommand × UInt16)) (passed : String) :
    Option Bool → ScriptCalls → Prop where
  | passing {past : List (LuaCommand × UInt16)} {calls : ScriptCalls} : past <+: required →
    Passing passed past calls → Course required passed none calls
  | failed {past : List (LuaCommand × UInt16)} {ask : LuaCommand × UInt16} {calls : ScriptCalls} :
    past ++ [ask] <+: required → answered calls = past.map (·, true) ++ [(ask, false)] →
    passed ∉ logged calls → Course required passed (some false) calls
  | passed {calls : ScriptCalls} : answered calls = required.map (·, true) →
    passed ∈ logged calls → Course required passed (some true) calls

/-- The calls are always on the course of the test. -/
def Keeps {α : Type} (required : List (LuaCommand × UInt16)) (passed : String) (p : LuaScript α)
    (Q : α → ScriptCalls → Prop) (calls : ScriptCalls) : Prop :=
  p.Ensures (fun calls => ∃ result, Course required passed result calls) Q calls

/-! One construct after the other. -/

section
variable {required past : List (LuaCommand × UInt16)} {passed message : String}
  {calls : ScriptCalls} {c : LuaCommand} {address : UInt16} {α : Type} {Q : α → ScriptCalls → Prop}

theorem Passing.log (h : Passing passed past calls) (hother : passed ≠ message) :
    Passing passed past (calls ++ [⟨.log message, ()⟩]) := by
  constructor
  · rw [answered_log, h.answered]
  · rw [logged_log, List.mem_append, List.mem_singleton, not_or]
    exact ⟨h.silent, hother⟩

theorem Passing.sleep (h : Passing passed past calls) (ms : Int) :
    Passing passed past (calls ++ [⟨.sleep ms, ()⟩]) := by
  constructor
  · rw [answered_sleep, h.answered]
  · rw [logged_sleep]
    exact h.silent

theorem Passing.success (h : Passing passed past calls) :
    Passing passed (past ++ [(c, address)]) (calls ++ [⟨.command c address, true⟩]) := by
  constructor
  · rw [answered_command, h.answered, List.map_append, List.map_singleton]
  · rw [logged_command]
    exact h.silent

theorem keeps_log {rest : LuaScript α} (hpast : past <+: required) (h : Passing passed past calls)
    (hother : passed ≠ message)
    (hrest : ∀ calls, Passing passed past calls → Keeps required passed rest Q calls) :
    Keeps required passed (do
      log message
      rest) Q calls := by
  have hlogged := h.log hother
  apply Program.Ensures.bind'
  exact Program.Ensures.perform' (c := ScriptCall.log message)
    fun _ => ⟨⟨none, .passing hpast hlogged⟩, hrest _ hlogged⟩

theorem keeps_sleep {rest : LuaScript α} {ms : Int} (hpast : past <+: required)
    (h : Passing passed past calls)
    (hrest : ∀ calls, Passing passed past calls → Keeps required passed rest Q calls) :
    Keeps required passed (do
      sleep ms
      rest) Q calls := by
  have hslept := h.sleep ms
  apply Program.Ensures.bind'
  exact Program.Ensures.perform' (c := ScriptCall.sleep ms)
    fun _ => ⟨⟨none, .passing hpast hslept⟩, hrest _ hslept⟩

/-- A check: the command is asked, and a failure is said before the test is left. -/
theorem keeps_check {left : α} {rest : LuaScript α}
    (hpast : past ++ [(c, address)] <+: required) (h : Passing passed past calls)
    (hother : passed ≠ message)
    (hleft : ∀ calls, Course required passed (some false) calls → Q left calls)
    (hrest : ∀ calls, Passing passed (past ++ [(c, address)]) calls →
      Keeps required passed rest Q calls) :
    Keeps required passed (do
      if !(← command c address) then
        log message
        return left
      rest) Q calls := by
  apply Program.Ensures.bind'
  refine Program.Ensures.perform' (c := ScriptCall.command c address) fun answer => ?_
  cases answer with
  | true => exact ⟨⟨none, .passing hpast h.success⟩, hrest _ h.success⟩
  | false =>
    have hanswered : answered (calls ++ [⟨.command c address, false⟩]) =
        past.map (·, true) ++ [((c, address), false)] := by
      rw [answered_command, h.answered]
    have hsilent : passed ∉ logged (calls ++ [⟨.command c address, false⟩]) := by
      rw [logged_command]
      exact h.silent
    have hsaid : Course required passed (some false)
        (calls ++ [⟨.command c address, false⟩] ++ [⟨.log message, ()⟩]) := by
      refine .failed hpast ?_ ?_
      · rw [answered_log, hanswered]
      · rw [logged_log, List.mem_append, List.mem_singleton, not_or]
        exact ⟨hsilent, hother⟩
    refine ⟨⟨some false, .failed hpast hanswered hsilent⟩, ?_⟩
    apply Program.Ensures.bind'
    exact Program.Ensures.perform' (c := ScriptCall.log message)
      fun _ => ⟨⟨some false, hsaid⟩, Program.Ensures.pure' (hleft _ hsaid)⟩

/-- The end of a test that has succeeded. -/
theorem keeps_passed (h : Passing passed required calls) :
    Keeps required passed (do
      log passed
      return true) (fun result => Course required passed (some result)) calls := by
  have hpassed : Course required passed (some true) (calls ++ [⟨.log passed, ()⟩]) := by
    refine .passed ?_ ?_
    · rw [answered_log, h.answered]
    · rw [logged_log, List.mem_append, List.mem_singleton]
      exact .inr rfl
  apply Program.Ensures.bind'
  exact Program.Ensures.perform' (c := ScriptCall.log passed)
    fun _ => ⟨⟨some true, hpassed⟩, Program.Ensures.pure' hpassed⟩

end

end LuaScript

/-! The three tests. -/

/-- The scripts by their files. -/
inductive EmbeddedScript where
  | autotest
  | loadtest
  | stress

namespace EmbeddedScript

open LuaScript

def main : EmbeddedScript → LuaScript Bool
  | autotest => LuaScript.autotest
  | loadtest => LuaScript.loadtest
  | stress => LuaScript.stress

/-- What is asked, in its order. -/
def required : EmbeddedScript → List (LuaCommand × UInt16)
  | autotest =>
    [(.requestStatus, 1), (.requestVersion, 1), (.requestChecksum, 1), (.sendTC, 1),
      (.requestDropped, 1), (.requestBER_T, 1), (.requestFabricNumber, 1)]
  | loadtest => (List.range' 1 cycles).flatMap fun _ => addresses.map fun a => (.requestStatus, a)
  | stress => [(.startPRBS_M2S, 1), (.startPRBS_S2M, 1), (.requestBER_T, 1), (.requestBER_F, 1)]

/-- What is said at last. -/
def passed : EmbeddedScript → String
  | autotest => "Functional test passed"
  | loadtest => "Stress test passed"
  | stress => "PRBS/BER test passed"

/-- Nothing has been asked yet. -/
theorem passing_nil (script : EmbeddedScript) : Passing script.passed [] [] := ⟨rfl, nofun⟩

/-- The whole of a script. -/
def Examines (script : EmbeddedScript) : Prop :=
  Keeps script.required script.passed script.main
    (fun result => Course script.required script.passed (some result)) []

theorem examines_autotest : autotest.Examines := by
  have hleft (calls : ScriptCalls) (h : Course autotest.required autotest.passed (some false)
      calls) : Course autotest.required autotest.passed (some false) calls := h
  refine keeps_log (by decide) autotest.passing_nil (by decide) fun _ h => ?_
  refine keeps_check (by decide) h (by decide) hleft fun _ h =>
    keeps_sleep (by decide) h fun _ h => ?_
  refine keeps_check (by decide) h (by decide) hleft fun _ h =>
    keeps_sleep (by decide) h fun _ h => ?_
  refine keeps_check (by decide) h (by decide) hleft fun _ h =>
    keeps_sleep (by decide) h fun _ h => ?_
  refine keeps_check (by decide) h (by decide) hleft fun _ h =>
    keeps_sleep (by decide) h fun _ h => ?_
  refine keeps_check (by decide) h (by decide) hleft fun _ h =>
    keeps_sleep (by decide) h fun _ h => ?_
  refine keeps_check (by decide) h (by decide) hleft fun _ h =>
    keeps_sleep (by decide) h fun _ h => ?_
  exact keeps_check (by decide) h (by decide) hleft fun _ h => keeps_passed h

theorem examines_stress : stress.Examines := by
  have hleft (calls : ScriptCalls) (h : Course stress.required stress.passed (some false)
      calls) : Course stress.required stress.passed (some false) calls := h
  refine keeps_log (by decide) stress.passing_nil (by decide) fun _ h => ?_
  refine keeps_check (by decide) h (by decide) hleft fun _ h => ?_
  refine keeps_log (by decide) h (by decide) fun _ h => keeps_sleep (by decide) h fun _ h => ?_
  refine keeps_check (by decide) h (by decide) hleft fun _ h => ?_
  refine keeps_log (by decide) h (by decide) fun _ h => keeps_sleep (by decide) h fun _ h => ?_
  refine keeps_check (by decide) h (by decide) hleft fun _ h =>
    keeps_sleep (by decide) h fun _ h => ?_
  exact keeps_check (by decide) h (by decide) hleft fun _ h => keeps_passed h

/-- What loadtest says with a number in it begins with another letter than what it says at last. -/
theorem loadtest_passed_ne {first rest : String} (hfirst : first.toList.head? = some 'C') :
    loadtest.passed ≠ first ++ rest := by
  intro heq
  have hhead : loadtest.passed.toList.head? = (first ++ rest).toList.head? := by rw [heq]
  rw [String.toList_append, List.head?_append, hfirst, Option.some_or] at hhead
  exact absurd hhead (by decide)

/-- What is asked in one cycle. -/
def cycle : List (LuaCommand × UInt16) := addresses.map fun a => (.requestStatus, a)

/-- How a loop of loadtest ends: it has been left, with false, or has gone through. -/
def Looped (past : List (LuaCommand × UInt16)) (c : Option Bool × Unit) (calls : ScriptCalls) :
    Prop :=
  match c.1 with
  | some result => result = false ∧ Course loadtest.required loadtest.passed (some false) calls
  | none => Passing loadtest.passed past calls

/-- The loop over the addresses. -/
theorem keeps_addresses {i : Nat} {past : List (LuaCommand × UInt16)} {calls : ScriptCalls}
    (hpast : past ++ cycle <+: loadtest.required) (h : Passing loadtest.passed past calls) :
    Keeps loadtest.required loadtest.passed
      (forIn addresses (none, ()) fun addr _ => do
        if !(← requestStatus addr) then
          log ("Cycle " ++ toString i ++ ", address 0x" ++ hex4 addr ++ ": FAIL")
          return ForInStep.done (some false, ())
        sleep 50
        return ForInStep.yield (none, ())) (Looped (past ++ cycle)) calls := by
  refine Program.Ensures.forIn' (fun asked c calls => c.1 = none ∧
    Passing loadtest.passed (past ++ asked.map fun a => (.requestStatus, a)) calls) ?_ ?_ ?_
  · intro asked addr rest haddresses _ calls ⟨_, h⟩
    have hnext : past ++ asked.map (fun a => (LuaCommand.requestStatus, a)) ++
        [(.requestStatus, addr)] <+: loadtest.required := by
      refine List.IsPrefix.trans ⟨rest.map fun a => (.requestStatus, a), ?_⟩ hpast
      rw [cycle, haddresses, List.map_append, List.map_cons]
      simp
    refine keeps_check hnext h ?_ (fun _ hfailed => ⟨rfl, hfailed⟩) fun _ h =>
      keeps_sleep hnext h fun _ h => ⟨rfl, ?_⟩
    · rw [String.append_assoc, String.append_assoc, String.append_assoc]
      exact loadtest_passed_ne rfl
    · rwa [List.map_append, List.map_singleton, ← List.append_assoc]
  · intro c calls ⟨hgoes, h⟩
    unfold Looped
    rw [hgoes]
    exact h
  · refine ⟨rfl, ?_⟩
    rwa [List.map_nil, List.append_nil]

theorem examines_loadtest : loadtest.Examines := by
  have hcycles (past rest : List Nat) (h : List.range' 1 cycles = past ++ rest) :
      (past.flatMap fun _ => cycle) <+: loadtest.required := by
    refine ⟨rest.flatMap fun _ => cycle, ?_⟩
    rw [← List.flatMap_append, ← h]
    rfl
  refine keeps_log (by decide) loadtest.passing_nil (by decide) fun _ h => ?_
  refine keeps_log (by decide) h (by decide) fun _ h => ?_
  apply Program.Ensures.bind'
  refine Program.Ensures.mono (Q := Looped loadtest.required) ?_ ?_
  · refine Program.Ensures.forIn' (fun past c calls => c.1 = none ∧
      Passing loadtest.passed (past.flatMap fun _ => cycle) calls) ?_ ?_ ⟨rfl, h⟩
    · intro past i rest hrange _ calls ⟨_, h⟩
      have hnext : (past.flatMap fun _ => cycle) ++ cycle <+: loadtest.required := by
        have hprefix := hcycles (past ++ [i]) rest (by rw [hrange, List.append_assoc]; rfl)
        rwa [List.flatMap_append, List.flatMap_singleton] at hprefix
      apply Program.Ensures.bind'
      apply (keeps_addresses hnext h).mono
      rintro ⟨result, _⟩ calls hlooped
      cases result with
      | some result =>
        obtain ⟨rfl, hfailed⟩ := hlooped
        exact ⟨rfl, hfailed⟩
      | none =>
        have hnow : Passing loadtest.passed ((past ++ [i]).flatMap fun _ => cycle) calls := by
          rw [List.flatMap_append, List.flatMap_singleton]
          exact hlooped
        refine Program.Ensures.ite' (fun _ => ?_) fun _ => ⟨rfl, hnow⟩
        refine keeps_log (hcycles _ rest (by rw [hrange, List.append_assoc]; rfl)) hnow ?_
          fun _ h => ⟨rfl, h⟩
        rw [String.append_assoc]
        exact loadtest_passed_ne rfl
    · intro c calls ⟨hgoes, h⟩
      unfold Looped
      rw [hgoes]
      exact h
  · rintro ⟨result, _⟩ calls hlooped
    cases result with
    | some result =>
      obtain ⟨rfl, hfailed⟩ := hlooped
      exact hfailed
    | none => exact keeps_passed hlooped

theorem examines (script : EmbeddedScript) : script.Examines := by
  cases script with
  | autotest => exact examines_autotest
  | loadtest => exact examines_loadtest
  | stress => exact examines_stress

/-- At every moment of a run the test is somewhere on its course. -/
theorem exists_course (script : EmbeddedScript) {calls : ScriptCalls} {left : LuaScript Bool}
    (h : script.main.Leads calls left) :
    ∃ result, Course script.required script.passed result calls ∧
      ∀ returned, left = .done returned → result = some returned := by
  cases left with
  | done returned =>
    refine ⟨some returned, script.examines.result h, ?_⟩
    rintro _ ⟨rfl⟩
    rfl
  | call c next =>
    have hstart : ∃ result, Course script.required script.passed result [] :=
      ⟨none, .passing List.nil_prefix script.passing_nil⟩
    obtain ⟨result, hresult⟩ := script.examines.always hstart h
    exact ⟨result, hresult, nofun⟩

/-- **The course of a test.** Whatever the answers: at every moment what a test has asked is the
beginning of what it requires, and only the last answer can have been false. Once it says that it
has passed, all that it requires has been answered with true. What it returns is whether no answer
was false, and whether it has said that it has passed. -/
theorem tests_in_order (script : EmbeddedScript) {calls : ScriptCalls} {left : LuaScript Bool}
    (h : script.main.Leads calls left) :
    (answered calls).map Prod.fst <+: script.required ∧
      (∀ asked ∈ (answered calls).dropLast, asked.2 = true) ∧
      (script.passed ∈ logged calls → answered calls = script.required.map (·, true)) ∧
      ∀ returned, left = .done returned →
        (returned = true ↔ ∀ asked ∈ answered calls, asked.2 = true) ∧
          (returned = true ↔ script.passed ∈ logged calls) := by
  have hfst (past : List (LuaCommand × UInt16)) : (past.map (·, true)).map Prod.fst = past := by
    rw [List.map_map]
    exact List.map_id past
  have htrue (past : List (LuaCommand × UInt16)) :
      ∀ asked ∈ past.map (·, true), asked.2 = true := by
    intro asked hasked
    obtain ⟨ask, -, rfl⟩ := List.mem_map.mp hasked
    rfl
  obtain ⟨result, hcourse, hresult⟩ := script.exists_course h
  cases hcourse with
  | @passing past _ hpast hpassing =>
    rw [hpassing.answered, hfst]
    refine ⟨hpast, fun asked hasked => ?_, fun hpassed => absurd hpassed hpassing.silent,
      fun returned hdone => ?_⟩
    · exact htrue past asked (List.dropLast_subset _ hasked)
    · cases hresult returned hdone
  | @failed past ask _ hpast hanswered hsilent =>
    rw [hanswered, List.map_append, hfst, List.dropLast_concat]
    refine ⟨hpast, htrue past, fun hpassed => absurd hpassed hsilent, fun returned hdone => ?_⟩
    cases hresult returned hdone
    refine ⟨iff_of_false nofun fun hall => ?_, iff_of_false nofun hsilent⟩
    cases hall (ask, false) (List.mem_append_right _ (List.mem_singleton_self _))
  | passed hanswered hpassed =>
    rw [hanswered, hfst]
    refine ⟨List.prefix_rfl, fun asked hasked => ?_, fun _ => rfl, fun returned hdone => ?_⟩
    · exact htrue _ asked (List.dropLast_subset _ hasked)
    · cases hresult returned hdone
      exact ⟨iff_of_true rfl (htrue _), iff_of_true rfl hpassed⟩

/-- The first request of autotest fails. -/
theorem tests_in_order_autotest : ¬ autotest.passed ∈ logged
    [⟨.log "=== Starting functional test ===", ()⟩, ⟨.command .requestStatus 1, false⟩,
      ⟨.log "FAIL: Status request", ()⟩] := by
  have hstarted := Program.Leads.answer (p := autotest.main) .refl ()
  have hrefused := hstarted.answer false
  have hsaid := hrefused.answer ()
  intro hpassed
  cases ((autotest.tests_in_order hsaid).2.2.2 false rfl).2.mpr hpassed

end EmbeddedScript

end PPB
