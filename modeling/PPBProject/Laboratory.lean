import PPBProject.ScriptRun
import PPBProject.Verdicts

/- A script, a station and the network between the station and the PPBs: all of the system at once.
   A datagram comes from the network only, and what the engine sends goes there; a call that the
   controller posts is never a datagram. This file joins what is known of the parts: a test passes
   only if the PPBs have executed what it requires (`passed_executed`). -/
namespace PPB

open Script LuaScript

structure Laboratory where
  run : ScriptRun
  requests : List RequestKey := []
  executed : List RequestKey := []
  replies : List NetworkReply := []

inductive LaboratoryEvent where
  | script (e : ScriptEvent)
  | network (e : NetworkEvent)

/-- The step would bring the engine a datagram. -/
def ScriptEvent.brings (s : Station) : ScriptEvent → Bool
  | .stand e => (e.takes s).any Event.isDatagram
  | _ => false

namespace Laboratory

/-- The engine and the network. -/
def network (s : Laboratory) : Network where
  engine := s.run.stand.engine
  requests := s.requests
  executed := s.executed
  replies := s.replies

/-- The script and the station have moved on; what the engine has sent is on its way. -/
def follow (s : Laboratory) (run : ScriptRun) : Laboratory :=
  let network := s.network.follow run.stand.engine
  { run, requests := network.requests, executed := network.executed, replies := network.replies }

def step (codeToVSWR : Nat → UInt16 → FloatBits) (wiring : CommunicationFacade.Wiring)
    (main : LuaScript Bool) (s : Laboratory) : LaboratoryEvent → Option Laboratory
  | .script e =>
    if e.brings s.run.stand.toStation then none
    else (s.run.step codeToVSWR wiring main e).map s.follow
  | .network (.engine _) => none
  | .network (.delivered k) => s.replies[k]?.bind fun reply =>
    let received : ScriptEvent := .stand (.station (.engine (.datagram reply.bytes)))
    (s.run.step codeToVSWR wiring main received).map
      { s with replies := s.replies.eraseIdx k }.follow
  | .network e => (s.network.step e).map fun network =>
    { s with
      requests := network.requests
      executed := network.executed
      replies := network.replies }

def machine (codeToVSWR : Nat → UInt16 → FloatBits) (wiring : CommunicationFacade.Wiring)
    (main : LuaScript Bool) : Machine.System Laboratory LaboratoryEvent where
  start s := ∃ run, (ScriptRun.machine codeToVSWR wiring main).start run ∧ s = { run }
  step s e s' := s.step codeToVSWR wiring main e = some s'

/-- Neither the call in progress is deceived, nor is a reply taken for another. -/
def Undisturbed (wiring : CommunicationFacade.Wiring) (s : Laboratory) : LaboratoryEvent → Prop
  | .script e => s.run.Orderly wiring e
  | .network e => s.network.Undisturbed e

end Laboratory

def NetworkReply.isAcknowledgement : NetworkReply → Bool
  | .ofPPB _ (.acknowledgement _) => true
  | _ => false

/-! A step that brings the engine no datagram. -/

abbrev Event.NoDatagram (e : Event) : Prop := e.isDatagram = false

/-- Without a datagram only VOLUMEs succeed. -/
theorem Engine.Continues.quiet {s t : Engine} (h : s.Continues Event.NoDatagram t)
    (hs : Reachable AnyStep s) : Machine.Extends Output.SucceedsVolume s.history t.history := by
  refine (Machine.invariant_of_steps (P := fun u => Reachable AnyStep u ∧
    Machine.Extends Output.SucceedsVolume s.history u.history) ?_ ⟨hs, .refl _⟩ h).2
  rintro u _ ⟨hu, hextends⟩ ⟨e, hdatagram, henabled, rfl⟩
  exact ⟨.step hu trivial ⟨henabled, rfl⟩,
    hextends.trans (Network.extends_of_not_datagram hu hdatagram)⟩

section
variable {codeToVSWR : Nat → UInt16 → FloatBits} {wiring : CommunicationFacade.Wiring}

theorem ScriptRun.continues_step {main : LuaScript Bool} {s t : ScriptRun} {e : ScriptEvent}
    (h : s.step codeToVSWR wiring main e = some t) (hbrings : e.brings s.stand.toStation = false) :
    s.stand.engine.Continues Event.NoDatagram t.stand.engine := by
  have hstand {e : StandEvent} {stand : Stand}
      (hstep : s.stand.step codeToVSWR wiring e = some stand)
      (hbrings : (e.takes s.stand.toStation).any Event.isDatagram = false) :
      s.stand.engine.Continues Event.NoDatagram stand.engine := by
    refine Stand.continues_step (fun _ _ _ _ => rfl) hstep fun call hcall => ?_
    rw [Option.mem_def.mp hcall] at hbrings
    exact hbrings
  cases e with
  | stand e =>
    simp only [step] at h
    split at h
    next => cases h
    next =>
      obtain ⟨stand, hstep, rfl⟩ := Option.map_eq_some_iff.mp h
      exact hstand hstep hbrings
  | begin =>
    simp only [step] at h
    split at h
    next => cases h
    next =>
      obtain ⟨stand, hstep, rfl⟩ := Option.map_eq_some_iff.mp h
      exact hstand hstep rfl
  | proceed =>
    obtain ⟨left, -, h⟩ := Option.bind_eq_some_iff.mp h
    unfold ScriptRun.proceed at h
    split at h
    next =>
      obtain rfl := Option.some.inj h
      exact .refl
    next =>
      obtain rfl := Option.some.inj h
      exact .refl
    next =>
      obtain rfl := Option.some.inj h
      exact .refl
    next =>
      split at h
      next =>
        obtain ⟨stand, hstep, rfl⟩ := Option.map_eq_some_iff.mp h
        exact hstand hstep rfl
      next =>
        split at h
        next => cases h
        next =>
          obtain ⟨result, -, rfl⟩ := Option.map_eq_some_iff.mp h
          exact .refl
  | raised =>
    obtain ⟨-, h⟩ := Option.ite_none_right_eq_some.mp h
    obtain rfl := Option.some.inj h
    exact .refl

end

/-! The parts, joined. -/

namespace Laboratory

section
variable {codeToVSWR : Nat → UInt16 → FloatBits} {wiring : CommunicationFacade.Wiring}
  {main : LuaScript Bool} {s s' : Laboratory}

/-- What is joined: a run of the script over the station, and the balance of the network. -/
structure Joined (codeToVSWR : Nat → UInt16 → FloatBits) (wiring : CommunicationFacade.Wiring)
    (main : LuaScript Bool) (s : Laboratory) : Prop where
  run : Machine.Reach (ScriptRun.machine codeToVSWR wiring main) (ScriptRun.Orderly wiring) s.run
  balanced : s.network.Balanced

theorem Joined.start (h : (machine codeToVSWR wiring main).start s) :
    Joined codeToVSWR wiring main s := by
  obtain ⟨run, hrun, rfl⟩ := h
  obtain ⟨udpClient, statics, hengine⟩ : PPB.Engine.machine.start run.stand.engine := by
    obtain ⟨stand, hstand, rfl⟩ := hrun
    exact hstand.1
  refine ⟨.start hrun, .start ⟨udpClient, statics, ?_⟩⟩
  rw [network, hengine]

/-- It is the engine alone that takes what happens to it. -/
theorem engine_of_engineStep {run : ScriptRun} {e : Event}
    (h : s.run.step codeToVSWR wiring main (.stand (.station (.engine e))) = some run) :
    run.stand.engine = s.run.stand.engine.handle e := by
  simp only [ScriptRun.step] at h
  split at h
  next => cases h
  next =>
    obtain ⟨stand, hstand, rfl⟩ := Option.map_eq_some_iff.mp h
    obtain ⟨t, ht, rfl⟩ := Option.map_eq_some_iff.mp hstand
    obtain ⟨-, ht⟩ := Option.ite_none_right_eq_some.mp ht
    obtain rfl := Option.some.inj ht
    unfold Stand.moved
    split
    next => rfl
    next => rfl

/-- The script and the station go on, without a datagram. -/
theorem Joined.script (h : Joined codeToVSWR wiring main s) {run : ScriptRun} {e : ScriptEvent}
    (horderly : s.run.Orderly wiring e) (hbrings : e.brings s.run.stand.toStation = false)
    (hrun : s.run.step codeToVSWR wiring main e = some run) :
    Joined codeToVSWR wiring main (s.follow run) := by
  have hcontinues := ScriptRun.continues_step hrun hbrings
  have hengine := h.balanced.engine
  exact ⟨.step h.run horderly hrun,
    h.balanced.quiet (hcontinues.reachable hengine) hcontinues.log (hcontinues.quiet hengine)⟩

/-- A reply reaches the engine. -/
theorem Joined.delivered (h : Joined codeToVSWR wiring main s) {run : ScriptRun} {k : Nat}
    {reply : NetworkReply} (hreply : s.replies[k]? = some reply)
    (hundisturbed : s.network.Undisturbed (.delivered k))
    (hrun : s.run.step codeToVSWR wiring main
      (.stand (.station (.engine (.datagram reply.bytes)))) = some run) :
    Joined codeToVSWR wiring main ({ s with replies := s.replies.eraseIdx k }.follow run) := by
  obtain ⟨hfits, hacks⟩ := hundisturbed reply hreply
  have horderly : s.run.Orderly wiring (.stand (.station (.engine (.datagram reply.bytes)))) :=
    fun _ _ _ hreport => nomatch hreport
  have hdelivered := h.balanced.delivered hreply hfits hacks
  refine ⟨.step h.run horderly hrun, ?_⟩
  show (Network.follow _ run.stand.engine).Balanced
  rw [engine_of_engineStep hrun]
  exact hdelivered

/-- The network goes on, without the engine. -/
theorem Joined.elsewhere (h : Joined codeToVSWR wiring main s) {network : Network}
    (hbalanced : network.Balanced) (hengine : network.engine = s.run.stand.engine) :
    Joined codeToVSWR wiring main { s with
      requests := network.requests
      executed := network.executed
      replies := network.replies } := by
  refine ⟨h.run, ?_⟩
  simpa only [Laboratory.network, ← hengine] using hbalanced

theorem Joined.step (h : Joined codeToVSWR wiring main s) {e : LaboratoryEvent}
    (hundisturbed : s.Undisturbed wiring e)
    (hstep : s.step codeToVSWR wiring main e = some s') : Joined codeToVSWR wiring main s' := by
  cases e with
  | script e =>
    simp only [Laboratory.step] at hstep
    split at hstep
    next => cases hstep
    next hbrings =>
      obtain ⟨run, hrun, rfl⟩ := Option.map_eq_some_iff.mp hstep
      exact h.script hundisturbed (Bool.not_eq_true _ ▸ hbrings) hrun
  | network e =>
    cases e with
    | engine e => cases hstep
    | delivered k =>
      obtain ⟨reply, hreply, hstep⟩ := Option.bind_eq_some_iff.mp hstep
      obtain ⟨run, hrun, rfl⟩ := Option.map_eq_some_iff.mp hstep
      exact h.delivered hreply hundisturbed hrun
    | executed k answer =>
      obtain ⟨network, hnetwork, rfl⟩ := Option.map_eq_some_iff.mp hstep
      have hbalanced := h.balanced.step (e := .executed k answer) trivial hnetwork
      obtain ⟨request, -, rfl⟩ := Option.map_eq_some_iff.mp hnetwork
      exact h.elsewhere hbalanced rfl
    | requestLost k =>
      obtain rfl := Option.some.inj hstep
      exact h.elsewhere (h.balanced.step (e := .requestLost k) trivial rfl) rfl
    | bridge reply =>
      obtain rfl := Option.some.inj hstep
      exact h.elsewhere (h.balanced.step (e := .bridge reply) trivial rfl) rfl
    | replyLost k =>
      obtain rfl := Option.some.inj hstep
      exact h.elsewhere (h.balanced.step (e := .replyLost k) trivial rfl) rfl

theorem joined (h : Machine.Reach (machine codeToVSWR wiring main) (Undisturbed wiring) s) :
    Joined codeToVSWR wiring main s :=
  h.invariant (fun _ => Joined.start) fun _ _ _ hs hundisturbed hstep => hs.step hundisturbed hstep

end

end Laboratory

/-- Successes are records. -/
theorem Engine.succeeded_history (s : Engine) : succeeded s.history = succeeded s.log := by
  unfold succeeded history
  rw [List.filterMap_filter]
  apply List.filterMap_congr
  intro o _
  split
  next => rfl
  next hrecord =>
    cases o with
    | commandCompleted => exact absurd rfl hrecord
    | _ => rfl

/-- What a controller has been told has succeeded at its engine. -/
theorem Stand.BorneOut.count_told_le {s : Stand} (h : s.BorneOut) (key : RequestKey) :
    (succeeded s.told).count key ≤ (succeeded s.engine.history).count key := by
  rw [s.engine.succeeded_history]
  have hlogged : List.Sublist s.told s.engine.log := h.trans (List.take_sublist ..)
  exact (hlogged.filterMap Output.succeededKey?).count_le key

/-- No function of Lua waits for a VOLUME or an IS_YOU. -/
theorem LuaCommand.expectedCmd_confirmable (c : LuaCommand) :
    c.expectedCmd.code ≠ TechCommand.volume.code ∧
      c.expectedCmd.code ≠ TechCommand.isYou.code := by
  cases c <;> decide

namespace EmbeddedScript

/-- What the tests require, PPBs confirm. -/
theorem confirmable_required (script : EmbeddedScript) {key : RequestKey}
    (h : key ∈ script.requiredKeys) : Confirmable key := by
  obtain ⟨⟨c, address⟩, hask, rfl⟩ := List.mem_map.mp h
  refine ⟨?_, ?_⟩
  · have hzero : (0 : UInt16) ∉ addresses := by decide
    rintro rfl
    exact hzero (script.mem_addresses _ hask)
  · exact c.expectedCmd_confirmable

/-- **A test passes only on PPBs that have executed it.** In a run that deceives neither the script
nor the engine, once a test says that it has passed, each PPB has executed each command at least as
often as the test requires. -/
theorem passed_executed (script : EmbeddedScript) {codeToVSWR : Nat → UInt16 → FloatBits}
    {wiring : CommunicationFacade.Wiring} {s : Laboratory}
    (h : Machine.Reach (Laboratory.machine codeToVSWR wiring script.main)
      (Laboratory.Undisturbed wiring) s) (hpassed : script.passed ∈ logged s.run.calls)
    (key : RequestKey) : script.requiredKeys.count key ≤ s.executed.count key := by
  by_cases hkey : key ∈ script.requiredKeys
  · obtain ⟨hrun, hbalanced⟩ := Laboratory.joined h
    have hearned := script.earned_of_passed hrun hpassed
    have hbacked := hbalanced.earned key (script.confirmable_required hkey)
    calc script.requiredKeys.count key
        = (earned s.run.calls).count key := by rw [hearned]
      _ ≤ (succeeded s.run.stand.told).count key := (ScriptRun.truthful hrun).sublist.count_le key
      _ ≤ (succeeded s.run.stand.engine.history).count key :=
        (ScriptRun.truthful hrun).borne.count_told_le key
      _ ≤ s.executed.count key := by
        dsimp only [Laboratory.network] at hbacked
        omega
  · rw [List.count_eq_zero.mpr hkey]
    exact Nat.zero_le _

end EmbeddedScript

/-! A run of it. -/

/-- Without waiting groups nothing takes the place of what completes. -/
theorem Engine.acksOnce_of_no_groups {s : Engine} (h : s.pendingGroupCommands = []) (e : Event) :
    s.AcksOnce e := by
  cases e with
  | datagram data =>
    intro request _
    unfold refills
    rw [h]
    simp [Traffic.tryStart]
  | _ => trivial

namespace Laboratory

/-- A way not to be disturbed that can be checked: no group waits for what is delivered, and it is
an acknowledgement. -/
def Simple (wiring : CommunicationFacade.Wiring) (s : Laboratory) : LaboratoryEvent → Prop
  | .script e => s.run.Orderly wiring e
  | .network (.delivered k) => s.run.stand.engine.pendingGroupCommands = [] ∧
      s.replies[k]?.all NetworkReply.isAcknowledgement = true
  | .network _ => True

instance (wiring : CommunicationFacade.Wiring) (s : Laboratory) :
    (e : LaboratoryEvent) → Decidable (s.Simple wiring e)
  | .script e => inferInstanceAs (Decidable (s.run.Orderly wiring e))
  | .network (.delivered k) => inferInstanceAs (Decidable
      (s.run.stand.engine.pendingGroupCommands = [] ∧
        s.replies[k]?.all NetworkReply.isAcknowledgement = true))
  | .network (.engine _) | .network (.requestLost _) | .network (.executed ..)
  | .network (.bridge _) | .network (.replyLost _) => isTrue trivial

theorem Simple.undisturbed {wiring : CommunicationFacade.Wiring} {s : Laboratory}
    {e : LaboratoryEvent} (h : s.Simple wiring e) : s.Undisturbed wiring e := by
  cases e with
  | script e => exact h
  | network e =>
    cases e with
    | delivered k =>
      obtain ⟨hgroups, hacknowledgement⟩ := h
      intro reply hreply
      refine ⟨?_, Engine.acksOnce_of_no_groups hgroups _⟩
      have hreply : s.replies[k]? = some reply := hreply
      rw [hreply] at hacknowledgement
      cases reply with
      | ofPPB request answer =>
        cases answer with
        | acknowledgement status => trivial
        | data first second rest => cases hacknowledgement
      | ofBridge reply => cases hacknowledgement
    | _ => trivial

/-- All is at rest, and UDP takes whatever it is given. -/
def wired : Laboratory where
  run := { stand := { Stand.idle with engine := .init (some fun _ => ⟨8, []⟩) {} } }

theorem wired_start (codeToVSWR : Nat → UInt16 → FloatBits) (wiring : CommunicationFacade.Wiring)
    (main : LuaScript Bool) : (machine codeToVSWR wiring main).start wired :=
  ⟨_, ⟨_, ⟨⟨_, {}, rfl⟩, rfl, rfl, rfl, rfl, rfl, rfl⟩, rfl⟩, rfl⟩

/-- In place of a datagram, the request that has just been sent is executed and acknowledged. -/
def overNetwork : ScriptEvent → List LaboratoryEvent
  | .stand (.station (.engine (.datagram _))) =>
    [.network (.executed 0 (some (.acknowledgement 0))), .network (.delivered 0)]
  | e => [.script e]

end Laboratory

open Laboratory in
theorem EmbeddedScript.passed_executed_stress : ∃ s : Laboratory,
    stress.passed ∈ logged s.run.calls ∧
      ∀ key, stress.requiredKeys.count key ≤ s.executed.count key := by
  have hend : (Machine.run
      (fun (s : Laboratory) e => s.step (fun _ _ => 0) .inInitialize stress.main e)
      (Simple .inInitialize) wired (stressRun.flatMap overNetwork)).map
        (fun s => decide (stress.passed ∈ logged s.run.calls)) = some true := by
    decide +kernel
  obtain ⟨s, hrun, hpassed⟩ := Option.map_eq_some_iff.mp hend
  have hsimple : Machine.Reach (machine (fun _ _ => 0) .inInitialize stress.main)
      (Simple .inInitialize) s :=
    .of_run _ (fun _ _ _ h => h) (.start (wired_start ..)) _ hrun
  have hreach := hsimple.mono fun _ _ => Simple.undisturbed
  have hpassed := of_decide_eq_true hpassed
  exact ⟨s, hpassed, stress.passed_executed hreach hpassed⟩

end PPB
