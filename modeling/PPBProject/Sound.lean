import PPBProject.Refinement

/- The state invariant of the engine: the state map, the contexts, the timers and the
   busy flag agree, and no context keeps what an earlier response left.

   `Sound` is what every run keeps. A `disconnect` clears the state map and leaves
   the contexts alone, so that an operation in flight implies SendingCommand only in
   the runs without one (`Attended`). -/
namespace PPB

/-- A context between events: it holds a command, its timer runs while the command is in
flight, and it holds no results. -/
structure PPBContext.Settled (c : PPBContext) : Prop where
  command : c.currentCommand.isSome = true
  timer : c.operationTimer.isSome = true ↔ c.operationCompleted = false
  message : c.parsedMessage = ""
  success : c.parsedSuccess = false
  data : c.parsedData = none

structure View.Sound (v : View) : Prop where
  sending : ∀ address, v.state address = .sendingCommand →
    ∃ c, v.context address = some c ∧ c.operationCompleted = false
  settled : ∀ address c, v.context address = some c → c.Settled
  busy : v.busy ↔ ∃ address c, v.context address = some c ∧ c.inFlight = true

/-- An operation in flight at the address is one the state map knows of. -/
def View.Attended (v : View) (address : UInt16) : Prop :=
  ∀ c, v.context address = some c → c.operationCompleted = false →
    v.state address = .sendingCommand

namespace View

section
variable {v v' : View} {address : UInt16} {request : Request} {suppressSend success : Bool}
  {message : String} {ms : Nat}

/-- What a reset leaves is what a launch needs: no results. -/
theorem Sound.openedContext_results (h : v.Sound) (address : UInt16) (request : Request)
    (suppressSend : Bool) :
    (v.openedContext address request suppressSend).parsedMessage = "" ∧
      (v.openedContext address request suppressSend).parsedSuccess = false ∧
      (v.openedContext address request suppressSend).parsedData = none := by
  unfold openedContext
  cases hcontext : v.context address with
  | none => exact ⟨rfl, rfl, rfl⟩
  | some c =>
    have hsettled := h.settled address c hcontext
    exact ⟨hsettled.message, hsettled.success, hsettled.data⟩

theorem Sound.congr (h : v.Sound) (hstate : v'.state = v.state) (hcontext : v'.context = v.context)
    (hbusy : v'.busy = v.busy) : v'.Sound where
  sending := by
    rw [hstate, hcontext]
    exact h.sending
  settled := by
    rw [hcontext]
    exact h.settled
  busy := by
    rw [hbusy, hcontext]
    exact h.busy

theorem Sound.launched (h : v.Sound) : (v.launched address request suppressSend ms).Sound where
  sending b hb := by
    rcases eq_or_ne b address with rfl | hne
    · exact ⟨v.launchedContext b request suppressSend ms,
        by simp only [launched_context, Function.update_self], rfl⟩
    · simp only [launched_state, launched_context, Function.update_of_ne hne] at hb ⊢
      exact h.sending b hb
  settled b c hb := by
    rcases eq_or_ne b address with rfl | hne
    · obtain ⟨hmessage, hsuccess, hdata⟩ := h.openedContext_results b request suppressSend
      simp only [launched_context, Function.update_self, Option.some.injEq] at hb
      subst hb
      exact ⟨rfl, by simp [launchedContext, openedContext, PPBContext.reset], hmessage, hsuccess,
        hdata⟩
    · simp only [launched_context, Function.update_of_ne hne] at hb
      exact h.settled b c hb
  busy := by
    refine iff_of_true trivial ⟨address, v.launchedContext address request suppressSend ms, ?_, rfl⟩
    simp only [launched_context, Function.update_self]

/-- What a completion leaves in flight was in flight elsewhere. -/
theorem exists_inFlight_completed {old : Option PPBContext}
    (hold : ∀ c, old = some c → c.inFlight = false) :
    (∃ b c, b ≠ address ∧ v.context b = some c ∧ c.inFlight = true) ↔
      ∃ b c, Function.update v.context address old b = some c ∧ c.inFlight = true := by
  refine exists_congr fun b => exists_congr fun c => ?_
  rcases eq_or_ne b address with rfl | hne
  · rw [Function.update_self]
    constructor
    · rintro ⟨hne, -⟩
      exact absurd rfl hne
    · rintro ⟨heq, hflight⟩
      rw [hold c heq] at hflight
      cases hflight
  · simp [hne]

/-- After a completion the address holds no context, or a completed one without results. -/
theorem Sound.completed {old : Option PPBContext} (h : v.Sound)
    (hold : ∀ c, old = some c → c.Settled ∧ c.operationCompleted = true)
    (hstate : v'.state = Function.update v.state address (if success then .ready else .idle))
    (hcontext : v'.context = Function.update v.context address old)
    (hbusy : v'.busy = ∃ b c, b ≠ address ∧ v.context b = some c ∧ c.inFlight = true) :
    v'.Sound where
  sending b hb := by
    rcases eq_or_ne b address with rfl | hne
    · rw [hstate, Function.update_self] at hb
      cases success <;> cases hb
    · rw [hstate, Function.update_of_ne hne] at hb
      rw [hcontext, Function.update_of_ne hne]
      exact h.sending b hb
  settled b c hb := by
    rcases eq_or_ne b address with rfl | hne
    · rw [hcontext, Function.update_self] at hb
      exact (hold c hb).1
    · rw [hcontext, Function.update_of_ne hne] at hb
      exact h.settled b c hb
  busy := by
    rw [hbusy, hcontext]
    exact exists_inFlight_completed fun c hc => by simp [PPBContext.inFlight, (hold c hc).2]

theorem closedContext_settled {c : PPBContext} (h : c.currentCommand.isSome = true) :
    (closedContext c).Settled :=
  ⟨h, by simp [closedContext, PPBContext.clearParseResults], rfl, rfl, rfl⟩

theorem Sound.flashed (h : v.Sound) :
    (v.flashed address request suppressSend success message).Sound := by
  refine h.completed ?_ (v.flashed_state ..) (v.flashed_context ..) (v.flashed_busy ..)
  intro c hc
  cases success with
  | false => cases hc
  | true =>
    obtain rfl := Option.some.inj hc
    exact ⟨closedContext_settled rfl, rfl⟩

theorem Sound.closed {c : PPBContext} (h : v.Sound) (hcommand : c.currentCommand = some request) :
    (v.closed address c request success message).Sound := by
  refine h.completed ?_ (v.closed_state ..) (v.closed_context ..) (v.closed_busy ..)
  intro c' hc'
  split at hc'
  · cases hc'
  · obtain rfl := Option.some.inj hc'
    exact ⟨closedContext_settled (by rw [hcommand]; rfl), rfl⟩

theorem Sound.act (h : v.Sound) (hact : Act v v') : v'.Sound := by
  cases hact with
  | other hstate hcontext hbusy _ => exact h.congr hstate hcontext hbusy
  | launched => exact h.launched
  | flashed => exact h.flashed
  | closed _ _ _ _ _ _ _ hcommand => exact h.closed hcommand

theorem Sound.move {kind : MoveKind} (h : v.Sound) (hmove : Move v kind v') : v'.Sound := by
  rcases eq_or_ne kind .disconnect with rfl | hkind
  · cases hmove
    refine ⟨fun _ hsending => ?_, h.settled, h.busy⟩
    simp at hsending
  · exact Machine.invariant_of_steps (P := Sound) (fun _ _ => Sound.act) h (hmove.acts hkind)

end

theorem Sound.start {v : View} (h : View.machine.start v) : v.Sound := by
  obtain ⟨hstate, hcontext, -, -, -, -, -, hbusy, -⟩ := h
  refine ⟨?_, ?_, ?_⟩
  · simp [hstate]
  · simp [hcontext]
  · simp [hcontext, hbusy]

/-- Every run of the dispatcher keeps `Sound`. -/
theorem sound_of_reach {guard : View → MoveKind → Prop} {v : View}
    (h : Machine.Reach View.machine guard v) : v.Sound :=
  h.invariant (fun _ => Sound.start) fun _ _ _ hsound _ hmove => hsound.move hmove

/-! Without `disconnect`. -/

section
variable {v v' : View} {address b : UInt16} {request : Request} {suppressSend success : Bool}
  {message : String} {ms : Nat}

theorem Attended.launched (h : v.Attended b) :
    (v.launched address request suppressSend ms).Attended b := by
  intro c hcontext hopen
  rcases eq_or_ne b address with rfl | hne
  · simp
  · simp only [launched_context, launched_state, Function.update_of_ne hne] at hcontext ⊢
    exact h c hcontext hopen

theorem Attended.completed {old : Option PPBContext} {state : PPBState} (h : v.Attended b)
    (hold : ∀ c, old = some c → c.operationCompleted = true)
    (hstate : v'.state = Function.update v.state address state)
    (hcontext : v'.context = Function.update v.context address old) : v'.Attended b := by
  intro c hc hopen
  rw [hcontext] at hc
  rw [hstate]
  rcases eq_or_ne b address with rfl | hne
  · rw [Function.update_self] at hc
    rw [hold c hc] at hopen
    cases hopen
  · rw [Function.update_of_ne hne] at hc ⊢
    exact h c hc hopen

theorem Attended.flashed (h : v.Attended b) :
    (v.flashed address request suppressSend success message).Attended b := by
  refine h.completed ?_ (v.flashed_state ..) (v.flashed_context ..)
  intro c hc
  cases success with
  | false => cases hc
  | true => exact Option.some.inj hc ▸ rfl

theorem Attended.closed {c : PPBContext} (h : v.Attended b) :
    (v.closed address c request success message).Attended b := by
  refine h.completed ?_ (v.closed_state ..) (v.closed_context ..)
  intro c' hc'
  split at hc'
  · cases hc'
  · exact Option.some.inj hc' ▸ rfl

theorem Attended.act (h : v.Attended b) (hact : Act v v') : v'.Attended b := by
  cases hact with
  | other hstate hcontext _ _ =>
    intro c hc hopen
    rw [hcontext] at hc
    rw [hstate]
    exact h c hc hopen
  | launched => exact h.launched
  | flashed => exact h.flashed
  | closed => exact h.closed

end

theorem attended_of_reach {v : View}
    (h : Machine.Reach machine (fun _ kind => kind ≠ .disconnect) v) (b : UInt16) :
    v.Attended b := by
  refine h.invariant (P := fun v => v.Attended b) (fun v hstart c hc => ?_)
    fun _ _ _ hattended hkind hmove => Machine.invariant_of_steps (P := fun v => v.Attended b)
      (fun _ _ => Attended.act) hattended (Move.acts hmove hkind)
  rw [hstart.2.1] at hc
  cases hc

end View

/-! Runs of the engine. -/

namespace Engine

theorem start_view {s : Engine} (h : machine.start s) : View.machine.start (s.view []) := by
  obtain ⟨udpClient, statics, rfl⟩ := h
  refine ⟨?_, ?_, ?_, rfl, rfl, rfl, rfl, ?_, rfl, rfl⟩
  · rfl
  · rfl
  · rfl
  · simp [view, init]

/-- A handled event is a sequence of moves. -/
theorem moves_of_sound {s : Engine} (hsound : (s.view []).Sound) {e : Event}
    (henabled : s.enabled e) : Moves e.kind (s.view []) ((s.handle e).view []) := by
  refine handle_refines henabled fun address c hfind harmed => ?_
  -- a timer that fires belongs to an operation in flight
  have hsettled := hsound.settled address c hfind
  obtain ⟨request, hcommand⟩ := Option.isSome_iff_exists.mp hsettled.command
  exact ⟨request, hfind, hsettled.timer.mp harmed, hcommand⟩

/-- **Every run of the engine is a run of the dispatcher.** -/
theorem reach_view {guard : Engine → Event → Prop} {allowed : MoveKind → Prop}
    (hallowed : ∀ s e, guard s e → allowed e.kind) {s : Engine} (h : Reachable guard s) :
    Machine.Reach View.machine (fun _ kind => allowed kind) (s.view []) := by
  refine Machine.Reach.simulate (fun s => s.view []) Event.kind (fun _ => start_view) hallowed ?_ h
  rintro s e _ - hview ⟨henabled, rfl⟩
  exact moves_of_sound (View.sound_of_reach hview) henabled

theorem kind_ne_disconnect (s : Engine) (e : Event) (h : NoDisconnect s e) :
    e.kind ≠ .disconnect := by
  cases e <;> simp_all [NoDisconnect, Event.kind]

theorem reach_any {guard : Engine → Event → Prop} {s : Engine} (h : Reachable guard s) :
    Machine.Reach View.machine (fun _ _ => True) (s.view []) :=
  @reach_view guard (fun _ => True) (fun _ _ _ => trivial) s h

theorem sound {guard : Engine → Event → Prop} {s : Engine} (h : Reachable guard s) :
    (s.view []).Sound :=
  View.sound_of_reach (reach_any h)

theorem moves_handle {guard : Engine → Event → Prop} {s : Engine} (h : Reachable guard s)
    {e : Event} (henabled : s.enabled e) : Moves e.kind (s.view []) ((s.handle e).view []) :=
  moves_of_sound (sound h) henabled

theorem reach_calm {s : Engine} (h : Reachable NoDisconnect s) :
    Machine.Reach View.machine (fun _ kind => kind ≠ .disconnect) (s.view []) :=
  reach_view kind_ne_disconnect h

theorem attended {s : Engine} (h : Reachable NoDisconnect s) (address : UInt16) :
    (s.view []).Attended address :=
  View.attended_of_reach (reach_calm h) address

/-- **The engine refines the dispatcher, over whole runs.** Whatever the events and their order, what
can be seen of the engine between events is a state that the dispatcher can come to, and what an
event does then is a sequence of the dispatcher's moves. -/
theorem refines_dispatcher {guard : Engine → Event → Prop} {s : Engine} (h : Reachable guard s) :
    Machine.Reach View.machine (fun _ _ => True) (s.view []) ∧
      ∀ e, s.enabled e → Moves e.kind (s.view []) ((s.handle e).view []) :=
  ⟨reach_any h, fun _ henabled => moves_handle h henabled⟩

theorem refines_dispatcher_vers :
    Machine.Reach View.machine (fun _ _ => True) (versInFlight.view []) ∧
      Moves Event.disconnect.kind (versInFlight.view [])
        ((versInFlight.handle .disconnect).view []) := by
  obtain ⟨hreach, hmoves⟩ :=
    refines_dispatcher (@versInFlight_reachable NoDisconnect (by simp [NoDisconnect]))
  exact ⟨hreach, hmoves .disconnect (by simp [enabled])⟩

/-- **The four stores agree.** Between events of a run without `disconnect` the state map says
SendingCommand exactly where a context is uncompleted, and exactly there a timer runs; no context
lacks a command or keeps results; and the engine is busy exactly when something is in flight. -/
theorem stores_agree {s : Engine} (h : Reachable NoDisconnect s) :
    (∀ address,
      (s.getState address = .sendingCommand ↔
        ∃ c, s.findContext address = some c ∧ c.operationCompleted = false) ∧
      ((∃ c, s.findContext address = some c ∧ c.operationCompleted = false) ↔
        ∃ c, s.findContext address = some c ∧ c.operationTimer.isSome = true) ∧
      ∀ c, s.findContext address = some c → c.currentCommand.isSome = true ∧
        c.parsedMessage = "" ∧ c.parsedSuccess = false ∧ c.parsedData = none) ∧
    (s.busy = true ↔ ∃ address c, s.findContext address = some c ∧ c.inFlight = true) := by
  have hsound := sound h
  refine ⟨fun address => ⟨⟨hsound.sending address, ?_⟩, ?_, fun c hc => ?_⟩, hsound.busy⟩
  · rintro ⟨c, hc, hopen⟩
    exact attended h address c hc hopen
  · refine exists_congr fun c => and_congr_right fun hc => ?_
    exact (hsound.settled address c hc).timer.symm
  · have hsettled := hsound.settled address c hc
    exact ⟨hsettled.command, hsettled.message, hsettled.success, hsettled.data⟩

theorem stores_agree_vers :
    (∃ c, versInFlight.findContext 1 = some c ∧ c.operationCompleted = false) ∧
      versInFlight.busy = true := by
  have h := stores_agree (versInFlight_reachable (by simp [NoDisconnect]))
  have hflight := (h.1 1).1.mp (by decide)
  obtain ⟨c, hfind, hopen⟩ := hflight
  have hcommand := ((h.1 1).2.2 c hfind).1
  exact ⟨⟨c, hfind, hopen⟩, h.2.mpr ⟨1, c, hfind, by simp [PPBContext.inFlight, hopen, hcommand]⟩⟩

end Engine

end PPB
