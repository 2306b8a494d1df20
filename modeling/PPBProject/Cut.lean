import PPBProject.Emissions
import PPBProject.Sound

/- What `disconnect` cuts off. It empties the queues, the waiting and the active groups and
   the state map, and leaves the contexts, their timers and the busy flag: an operation that
   is in flight then outlives it. Where none is in flight the cut is clean: until the next
   command is submitted nothing more is reported, and every address stays Idle. -/
namespace PPB

/-- The call submits a command. -/
def Event.submits : Event → Bool
  | .connectToPPB .. | .executeCommand .. | .executeCommandWithData ..
  | .executeGroupCommand .. => true
  | _ => false

/-- Entries about a command or a group, or about a change of state. -/
def Output.isAboutCommands : Output → Bool
  | started .. | commandCompleted .. | commandDataParsed .. | statusReceived .. | groupStarted ..
  | groupCommandCompleted .. | stateChanged .. => true
  | _ => false

namespace Engine

/-- After `disconnect` and until the next command is submitted, the engine is not busy, every address
is Idle, and nothing about a command or a change of state is logged. -/
def CleanCut (s : Engine) : Prop :=
  ∀ events, (∀ e ∈ events, e.submits = false) → ∀ s', s.disconnect.run events = some s' →
    s'.busy = false ∧ (∀ address, s'.getState address = .idle) ∧
      Machine.Extends (fun o => o.isAboutCommands = false) s.log s'.log

/-- No command is queued or in flight. -/
structure Severed (s : Engine) : Prop where
  notBusy : s.busy = false
  idle : ∀ address, s.getState address = .idle
  unqueued : ∀ address, s.queueOf address = []
  resting : ∀ address, s.commandInFlight address = none

/-- Nothing about commands is logged from `s` to `t`. -/
abbrev Silent (s t : Engine) : Prop :=
  Machine.Extends (fun o => o.isAboutCommands = false) s.log t.log

section
variable {s t : Engine}

theorem Severed.view (h : s.Severed) (hview : t.view [] = s.view []) : t.Severed := by
  have hbusy : t.busy = s.busy := by
    have hsame : (t.busy = true) = (s.busy = true) := congrArg View.busy hview
    exact Bool.eq_iff_iff.mpr (iff_of_eq hsame)
  have hstate : t.getState = s.getState := congrArg View.state hview
  have hqueue : t.queueOf = s.queueOf := congrArg View.queue hview
  have hcontext : t.findContext = s.findContext := congrArg View.context hview
  refine ⟨hbusy ▸ h.notBusy, ?_, ?_, fun address => ?_⟩
  · rw [hstate]
    exact h.idle
  · rw [hqueue]
    exact h.unqueued
  · rw [commandInFlight, hcontext]
    exact h.resting address

theorem Severed.completeOperation_eq (h : s.Severed) (address : UInt16) (success : Bool)
    (message : String) : s.completeOperation address success message = s :=
  completeOperation_eq_self success message (h.resting address)

/-- With no command in flight, a datagram is an FU reply or is ignored. -/
theorem Severed.onDataReceived (h : s.Severed) (data : Bytes) :
    (s.onDataReceived data).Severed ∧ Silent s (s.onDataReceived data) := by
  have hignored : s.Severed ∧ Silent s s := ⟨h, .refl _⟩
  have hunclaimed : (s.handleUnclaimed data).Severed ∧ Silent s (s.handleUnclaimed data) := by
    unfold handleUnclaimed
    split
    next event _ =>
      unfold handleBridgeEvent
      rw [h.resting event.address]
      exact ⟨⟨h.notBusy, h.idle, h.unqueued, h.resting⟩, s.extends_log_emit rfl⟩
    next => exact hignored
  unfold Engine.onDataReceived
  split
  · exact hignored
  · simp only [h.resting (addressFromPacket data)]
    exact hunclaimed

/-- A timer that still runs finds no command in flight. -/
theorem Severed.onOperationTimeout (h : s.Severed) (address : UInt16) :
    (s.onOperationTimeout address).Severed ∧ Silent s (s.onOperationTimeout address) := by
  generalize hfired : s.modifyContext address (fun c => { c with operationTimer := none }) = t
  have hview : t.view [] = _ := hfired ▸ s.view_modifyContext [] address _
  have hfind (b : UInt16) : t.commandInFlight b = none := by
    have hcontext := congrFun (congrArg View.context hview) b
    have hcontext : t.findContext b = Function.update s.findContext address
        ((s.findContext address).map fun c => { c with operationTimer := none }) b := hcontext
    have hnone := h.resting b
    rw [commandInFlight, hcontext]
    rcases eq_or_ne b address with rfl | hne
    · rw [Function.update_self]
      rw [commandInFlight] at hnone
      cases hold : s.findContext b with
      | none => rfl
      | some c =>
        rw [hold] at hnone
        simpa [Option.filter, PPBContext.inFlight] using hnone
    · rw [Function.update_of_ne hne]
      exact hnone
  have hlog : t.log = s.log := by
    rw [← hfired, modifyContext]
    split <;> rfl
  have hsevered : t.Severed := by
    refine ⟨?_, ?_, ?_, hfind⟩
    · rw [← hfired, modifyContext]
      split <;> exact h.notBusy
    · intro b
      have hstate : t.getState = s.getState := congrArg View.state hview
      rw [hstate]
      exact h.idle b
    · intro b
      have hqueue : t.queueOf = s.queueOf := congrArg View.queue hview
      rw [hqueue]
      exact h.unqueued b
  have hdone : s.onOperationTimeout address = t := by
    unfold Engine.onOperationTimeout
    rw [hfired]
    dsimp only
    split
    · split
      · exact hsevered.completeOperation_eq ..
      · rfl
    · rfl
  rw [hdone, Silent, hlog]
  exact ⟨hsevered, .refl _⟩

theorem Severed.dequeueAndExecute_eq (h : s.Severed) (address : UInt16) :
    s.dequeueAndExecute address = s := by
  rw [dequeueAndExecute, dequeue_nil s (h.unqueued address)]

theorem Severed.processCommandQueue_eq (h : s.Severed) (addresses : List UInt16) :
    s.processCommandQueue addresses = s := by
  unfold processCommandQueue
  induction addresses with
  | nil => rfl
  | cons address rest ih =>
    have hfirst : s.processQueued address = s := by
      unfold processQueued
      split
      · rfl
      · split
        · exact h.dequeueAndExecute_eq address
        · rfl
    rw [List.foldl_cons, hfirst, ih]

theorem Severed.runPosted (h : s.Severed) (index : Nat) (order : List UInt16) :
    (s.runPosted index order).Severed ∧ Silent s (s.runPosted index order) := by
  have hrest : Severed { s with posted := s.posted.eraseIdx index } := h.view rfl
  have heq : s.runPosted index order = { s with posted := s.posted.eraseIdx index } := by
    unfold Engine.runPosted
    dsimp only
    split
    next address _ =>
      rw [processNextCommandForAddress, hrest.idle address]
      rfl
    · exact hrest.processCommandQueue_eq order
    · rfl
  rw [heq]
  exact ⟨hrest, .refl _⟩

/-- **No event but a submission brings anything back.** -/
theorem Severed.handle (h : s.Severed) {e : Event} (hsubmits : e.submits = false) :
    (s.handle e).Severed ∧ Silent s (s.handle e) := by
  cases e with
  | connectToPPB => cases hsubmits
  | executeCommand => cases hsubmits
  | executeCommandWithData => cases hsubmits
  | executeGroupCommand => cases hsubmits
  | disconnect =>
    refine ⟨⟨h.notBusy, fun _ => rfl, fun _ => rfl, h.resting⟩, ?_⟩
    exact extends_log_emit _ rfl
  | sendFU mode address period fuData =>
    have hsent (packet : Bytes) :
        (s.sendPacketInternal packet).Severed ∧ Silent s (s.sendPacketInternal packet) :=
      ⟨h.view (s.view_sendPacketInternal [] packet),
        s.extends_log_sendPacketInternal (fun _ => rfl) fun _ => rfl⟩
    cases mode
    · exact hsent _
    · exact hsent _
    · exact hsent _
  | sendDataPackets packets =>
    exact ⟨h.view (view_sendDataPackets s packets),
      s.extends_log_sendDataPackets (fun _ _ _ => rfl) (fun _ => rfl) rfl⟩
  | setBridgeAddress ip port => exact ⟨h.view rfl, .refl _⟩
  | clearCommandQueue address =>
    refine ⟨⟨h.notBusy, h.idle, fun b => ?_, h.resting⟩, extends_log_emit _ rfl⟩
    have hqueue := congrFun (s.queueOf_erase address) b
    refine hqueue.trans ?_
    rcases eq_or_ne b address with rfl | hne
    · rw [Function.update_self]
    · rw [Function.update_of_ne hne, h.unqueued]
  | setCurrentVolumeData payload marker totalSize data =>
    exact ⟨⟨h.notBusy, h.idle, h.unqueued, h.resting⟩, .refl _⟩
  | setCurrentVersion version => exact ⟨⟨h.notBusy, h.idle, h.unqueued, h.resting⟩, .refl _⟩
  | datagram data => exact h.onDataReceived data
  | timeout address => exact h.onOperationTimeout address
  | networkError error =>
    exact ⟨⟨h.notBusy, h.idle, h.unqueued, h.resting⟩, s.extends_log_emit rfl⟩
  | queueTick order =>
    have heq : s.handle (.queueTick order) = s := h.processCommandQueue_eq order
    rw [heq]
    exact ⟨h, .refl _⟩
  | posted index order => exact h.runPosted index order

theorem Severed.run {events : List Event} (h : s.Severed)
    (hsubmits : ∀ e ∈ events, e.submits = false) {s' : Engine} (hrun : s.run events = some s') :
    s'.Severed ∧ Silent s s' := by
  induction events generalizing s with
  | nil =>
    obtain rfl := Option.some.inj hrun
    exact ⟨h, .refl _⟩
  | cons e rest ih =>
    simp only [Engine.run, Option.ite_none_right_eq_some] at hrun
    obtain ⟨hnext, hsilent⟩ := h.handle (hsubmits e (by simp))
    obtain ⟨hlast, hrest⟩ := ih hnext (fun other hmem => hsubmits other (by simp [hmem])) hrun.2
    exact ⟨hlast, hsilent.trans hrest⟩

end

/-- **The cut is clean exactly if nothing is in flight.** -/
theorem cleanCut_iff {guard : Engine → Event → Prop} {s : Engine} (h : Reachable guard s) :
    s.CleanCut ↔ ∀ address, s.commandInFlight address = none := by
  have hbusy := (sound h).busy
  constructor
  · intro hclean address
    -- what is in flight keeps the engine busy
    by_contra hsome
    obtain ⟨request, hcommand⟩ := Option.ne_none_iff_exists'.mp hsome
    obtain ⟨c, hflight⟩ := commandInFlight_eq_some_iff.mp hcommand
    have hstays : s.busy = true := hbusy.mpr ⟨address, c, hflight.found,
      by simp [PPBContext.inFlight, hflight.uncompleted, hflight.command]⟩
    have hgone : s.busy = false := (hclean [] (by simp) s.disconnect rfl).1
    rw [hstays] at hgone
    cases hgone
  · intro hnone events hsubmits s' hrun
    have hcut : s.disconnect.Severed := by
      refine ⟨?_, fun _ => rfl, fun _ => rfl, hnone⟩
      refine Bool.not_eq_true _ ▸ fun hbusy' : s.busy = true => ?_
      obtain ⟨address, c, hfind, hflight⟩ := hbusy.mp hbusy'
      have hfind : s.findContext address = some c := hfind
      have hno := hnone address
      rw [commandInFlight, hfind] at hno
      simp [Option.filter, hflight] at hno
      simp [PPBContext.inFlight, hno] at hflight
    obtain ⟨hsevered, hsilent⟩ := hcut.run hsubmits hrun
    have hlogged : Silent s s.disconnect := extends_log_emit _ rfl
    exact ⟨hsevered.notBusy, hsevered.idle, hlogged.trans hsilent⟩

/-- A TS is queued, nothing is in flight yet. -/
theorem cleanCut_queued : ((init none {}).handle (.connectToPPB 1 "" 0)).CleanCut :=
  (@cleanCut_iff AnyStep _ (@Machine.Reach.step _ _ machine _ _ _ (.connectToPPB 1 "" 0)
    (.start ⟨none, {}, rfl⟩) trivial ⟨trivial, rfl⟩)).mpr fun _ => rfl

/-- A VERS is in flight at address 1 when the engine is disconnected: the engine stays busy, and the
timer of the VERS still makes it report. -/
theorem not_cleanCut : ¬ ∀ s, Reachable AnyStep s → s.CleanCut := by
  intro hall
  have hreach : Reachable AnyStep versInFlight := versInFlight_reachable trivial
  have hclean := hall versInFlight hreach [.timeout 1] (by simp [Event.submits])
    (versInFlight.disconnect.handle (.timeout 1)) rfl
  obtain ⟨new, heq, hnew⟩ := hclean.2.2
  have hreported : Output.commandCompleted ⟨1, .single 0, .vers⟩ false "Таймаут операции" ∈ new := by
    have hlog : (versInFlight.disconnect.handle (.timeout 1)).log.drop versInFlight.log.length =
        new := by rw [heq, List.drop_left]
    rw [← hlog]
    decide
  have hno := hnew _ hreported
  cases hno

end Engine

end PPB
