import PPBProject.History

/- What the engine is for: a dispatcher of commands to addresses, told without
   packets, timers being posted, or the order in which the code updates its maps.

   A `View` is the dispatcher's state together with the history of its records; a
   `Move` is one thing the dispatcher does as a whole (accept a command, start an
   operation, complete one, start a group). The engine refines this machine
   (`Engine.handle_refines`), and the invariants are proved of the moves.

   `starting` exists in no state between events. A VOLUME group without image data
   fails member by member, and every failure may start another waiting group before
   the next member has its turn: `starting` holds the members whose turn is still to
   come, innermost group first.

   Correspondence (engine ↔ view):
     `executeCommandImmediately` that leaves an operation in flight ↔ `View.launched`
     `executeCommandImmediately` that completes it at once          ↔ `View.flashed`
     `completeOperation` up to `tryStartPendingGroupCommands`       ↔ `View.closed`
     the member loop of `startGroupCommand`                         ↔ `Begins`, `StartMove` -/
namespace PPB

structure View where
  state : UInt16 → PPBState
  context : UInt16 → Option PPBContext
  erasures : UInt16 → Nat
  queue : UInt16 → List Request
  groups : List (Nat × GroupInfo)
  waiting : List PendingGroupCommand
  nextGroupId : Nat
  nextTicket : Nat
  busy : Prop
  imageReady : Bool
  history : List Output
  starting : List (Nat × UInt16)

/-- The view of an engine in the middle of starting the members `starting`. -/
def Engine.view (s : Engine) (starting : List (Nat × UInt16)) : View where
  state := s.getState
  context := s.findContext
  erasures := s.erasures
  queue := s.queueOf
  groups := s.groupOperations
  waiting := s.pendingGroupCommands
  nextGroupId := s.nextGroupId
  nextTicket := s.nextTicket
  busy := s.busy = true
  imageReady := s.statics.volumeUseCustomData
  history := s.history
  starting

namespace View

/-! What the dispatcher does to its state. -/

@[simps -fullyApplied] def record (v : View) (os : List Output) : View :=
  { v with history := v.history ++ os }

def groupsOutstanding (v : View) : Bool := !v.groups.isEmpty || !v.waiting.isEmpty

/-- The context of an operation that has just started. -/
def openedContext (v : View) (address : UInt16) (request : Request) (suppressSend : Bool) :
    PPBContext :=
  ((v.context address).getD {}).reset request suppressSend

/-- The operation of `request` starts at `address`. -/
@[simps -fullyApplied] def opened (v : View) (address : UInt16) (request : Request)
    (suppressSend : Bool) : View :=
  { v with
    context := Function.update v.context address
      (some (v.openedContext address request suppressSend))
    state := Function.update v.state address .sendingCommand
    busy := True
    history := v.history ++ [.started (request.operation address) v.groupsOutstanding] }

@[simps -fullyApplied] def armed (v : View) (address : UInt16) (ms : Nat) : View :=
  { v with
    context := Function.update v.context address
      ((v.context address).map fun c => { c with operationTimer := some ms }) }

/-- A context after its operation has been reported. -/
def closedContext (c : PPBContext) : PPBContext :=
  { c with operationCompleted := true, operationTimer := none }.clearParseResults

/-- The operation of `request`, in flight in the context `c`, completes. A failure
erases the context, unless the address was Idle all along. -/
@[simps -fullyApplied] def closed (v : View) (address : UInt16) (c : PPBContext) (request : Request)
    (success : Bool) (message : String) : View :=
  { v with
    context := Function.update v.context address
      (if success = false ∧ v.state address ≠ .idle then none else some (closedContext c))
    erasures :=
      if success = false ∧ v.state address ≠ .idle then
        Function.update v.erasures address (v.erasures address + 1)
      else v.erasures
    state := Function.update v.state address (if success then .ready else .idle)
    busy := ∃ b c', b ≠ address ∧ v.context b = some c' ∧ c'.inFlight
    groups := (Engine.settleGroups address success v.groups).1
    history := v.history ++ (Engine.reportOf (request.operation address) c success message ++
      (Engine.settleGroups address success v.groups).2) }

/-- The context of an operation in flight. -/
def launchedContext (v : View) (address : UInt16) (request : Request) (suppressSend : Bool)
    (ms : Nat) : PPBContext :=
  { v.openedContext address request suppressSend with operationTimer := some ms }

/-- Started and left in flight, its timer running. -/
def launched (v : View) (address : UInt16) (request : Request) (suppressSend : Bool) (ms : Nat) :
    View :=
  (v.opened address request suppressSend).armed address ms

/-- Started and completed at once. -/
def flashed (v : View) (address : UInt16) (request : Request) (suppressSend : Bool) (success : Bool)
    (message : String) : View :=
  (v.opened address request suppressSend).closed address
    (v.openedContext address request suppressSend) request success message

def canStart (v : View) (mask : UInt16) : Prop :=
  ∀ address ∈ maskAddresses mask, v.state address ≠ .sendingCommand

/-- A group becomes active, all its addresses pending. -/
@[simps -fullyApplied] def groupBegun (v : View) (groupId : Nat) (mask : UInt16) : View :=
  { v with
    groups := Engine.insertGroup groupId { pendingAddresses := maskAddresses mask } v.groups
    history := v.history ++ [.groupStarted groupId mask] }

def membersLaunched (v : View) (request : Request) (ms : Nat) (addresses : List UInt16) : View :=
  addresses.foldl (fun v address => v.launched address request true ms) v

section
variable (v : View) (address : UInt16) (request : Request) (suppressSend success : Bool) (ms : Nat)
  (message : String)

@[simp] theorem launched_state : (v.launched address request suppressSend ms).state =
    Function.update v.state address .sendingCommand := rfl

@[simp] theorem launched_context : (v.launched address request suppressSend ms).context =
    Function.update v.context address
      (some (v.launchedContext address request suppressSend ms)) := by
  simp [launched, launchedContext]

@[simp] theorem launched_erasures :
    (v.launched address request suppressSend ms).erasures = v.erasures := rfl

@[simp] theorem launched_queue : (v.launched address request suppressSend ms).queue = v.queue := rfl

@[simp] theorem launched_groups : (v.launched address request suppressSend ms).groups = v.groups :=
  rfl

@[simp] theorem launched_waiting :
    (v.launched address request suppressSend ms).waiting = v.waiting := rfl

@[simp] theorem launched_nextGroupId :
    (v.launched address request suppressSend ms).nextGroupId = v.nextGroupId := rfl

@[simp] theorem launched_nextTicket :
    (v.launched address request suppressSend ms).nextTicket = v.nextTicket := rfl

@[simp] theorem launched_busy : (v.launched address request suppressSend ms).busy = True := rfl

@[simp] theorem launched_imageReady :
    (v.launched address request suppressSend ms).imageReady = v.imageReady := rfl

@[simp] theorem launched_history : (v.launched address request suppressSend ms).history =
    v.history ++ [.started (request.operation address) v.groupsOutstanding] := rfl

@[simp] theorem launched_starting :
    (v.launched address request suppressSend ms).starting = v.starting := rfl

@[simp] theorem flashed_state :
    (v.flashed address request suppressSend success message).state =
      Function.update v.state address (if success then .ready else .idle) := by
  simp [flashed]

@[simp] theorem flashed_context :
    (v.flashed address request suppressSend success message).context =
      Function.update v.context address
        (if success then some (closedContext (v.openedContext address request suppressSend))
        else none) := by
  cases success <;> simp [flashed]

@[simp] theorem flashed_erasures :
    (v.flashed address request suppressSend success message).erasures =
      if success then v.erasures
      else Function.update v.erasures address (v.erasures address + 1) := by
  cases success <;> simp [flashed]

@[simp] theorem flashed_queue :
    (v.flashed address request suppressSend success message).queue = v.queue := rfl

@[simp] theorem flashed_groups : (v.flashed address request suppressSend success message).groups =
    (Engine.settleGroups address success v.groups).1 := rfl

@[simp] theorem flashed_waiting :
    (v.flashed address request suppressSend success message).waiting = v.waiting := rfl

@[simp] theorem flashed_nextGroupId :
    (v.flashed address request suppressSend success message).nextGroupId = v.nextGroupId := rfl

@[simp] theorem flashed_nextTicket :
    (v.flashed address request suppressSend success message).nextTicket = v.nextTicket := rfl

@[simp] theorem flashed_busy : (v.flashed address request suppressSend success message).busy =
    ∃ b c', b ≠ address ∧ v.context b = some c' ∧ c'.inFlight = true := by
  refine propext (exists_congr fun b => exists_congr fun c' => and_congr_right fun hne => ?_)
  simp [opened, Function.update_of_ne hne]

@[simp] theorem flashed_imageReady :
    (v.flashed address request suppressSend success message).imageReady = v.imageReady := rfl

@[simp] theorem flashed_history : (v.flashed address request suppressSend success message).history =
    v.history ++ .started (request.operation address) v.groupsOutstanding ::
      (Engine.reportOf (request.operation address) (v.openedContext address request suppressSend)
        success message ++ (Engine.settleGroups address success v.groups).2) := by
  simp [flashed]

@[simp] theorem flashed_starting :
    (v.flashed address request suppressSend success message).starting = v.starting := rfl

/-! Launching the members of a group, one after the other. -/

variable (addresses : List UInt16)

@[simp] theorem membersLaunched_nil : v.membersLaunched request ms [] = v := rfl

@[simp] theorem membersLaunched_cons :
    v.membersLaunched request ms (address :: addresses) =
      (v.launched address request true ms).membersLaunched request ms addresses := rfl

/-- What every launch leaves alone, launching all members leaves alone. -/
theorem membersLaunched_frame {α : Type} (field : View → α)
    (h : ∀ (w : View) address, field (w.launched address request true ms) = field w) :
    field (v.membersLaunched request ms addresses) = field v := by
  induction addresses generalizing v with
  | nil => rfl
  | cons address rest ih => rw [membersLaunched_cons, ih, h]

@[simp] theorem membersLaunched_erasures :
    (v.membersLaunched request ms addresses).erasures = v.erasures :=
  v.membersLaunched_frame request ms addresses erasures fun _ _ => rfl

@[simp] theorem membersLaunched_queue :
    (v.membersLaunched request ms addresses).queue = v.queue :=
  v.membersLaunched_frame request ms addresses queue fun _ _ => rfl

@[simp] theorem membersLaunched_groups :
    (v.membersLaunched request ms addresses).groups = v.groups :=
  v.membersLaunched_frame request ms addresses groups fun _ _ => rfl

@[simp] theorem membersLaunched_waiting :
    (v.membersLaunched request ms addresses).waiting = v.waiting :=
  v.membersLaunched_frame request ms addresses waiting fun _ _ => rfl

@[simp] theorem membersLaunched_nextGroupId :
    (v.membersLaunched request ms addresses).nextGroupId = v.nextGroupId :=
  v.membersLaunched_frame request ms addresses nextGroupId fun _ _ => rfl

@[simp] theorem membersLaunched_nextTicket :
    (v.membersLaunched request ms addresses).nextTicket = v.nextTicket :=
  v.membersLaunched_frame request ms addresses nextTicket fun _ _ => rfl

@[simp] theorem membersLaunched_imageReady :
    (v.membersLaunched request ms addresses).imageReady = v.imageReady :=
  v.membersLaunched_frame request ms addresses imageReady fun _ _ => rfl

@[simp] theorem membersLaunched_starting :
    (v.membersLaunched request ms addresses).starting = v.starting :=
  v.membersLaunched_frame request ms addresses starting fun _ _ => rfl

@[simp] theorem membersLaunched_state (b : UInt16) :
    (v.membersLaunched request ms addresses).state b =
      if b ∈ addresses then .sendingCommand else v.state b := by
  induction addresses generalizing v with
  | nil => simp
  | cons address rest ih =>
    rw [membersLaunched_cons, ih]
    by_cases hb : b = address <;> simp [hb]

theorem membersLaunched_context_of_notMem {b : UInt16} (hb : b ∉ addresses) :
    (v.membersLaunched request ms addresses).context b = v.context b := by
  induction addresses generalizing v with
  | nil => rfl
  | cons address rest ih =>
    rw [List.mem_cons, not_or] at hb
    rw [membersLaunched_cons, ih _ hb.2, launched_context, Function.update_of_ne hb.1]

@[simp] theorem membersLaunched_history :
    (v.membersLaunched request ms addresses).history = v.history ++
      addresses.map fun address => .started (request.operation address) v.groupsOutstanding := by
  induction addresses generalizing v with
  | nil => simp
  | cons address rest ih =>
    rw [membersLaunched_cons, ih]
    simp [groupsOutstanding]

end

end View

/-! Moves. -/

/-- A single command comes to its execution: at once, or from the front of a queue. -/
inductive Takes (v : View) (address : UInt16) : Request → View → Prop where
  | fresh (command : PPBCommand) :
    Takes v address { origin := .single v.nextTicket, command }
      (({ v with nextTicket := v.nextTicket + 1 } : View).record
        [.accepted address (.single v.nextTicket) false])
  | queued {request : Request} {rest : List Request} :
    v.queue address = request :: rest →
    Takes v address request { v with queue := Function.update v.queue address rest }

/-- A group becomes active, and its members start: all of them, or, for a VOLUME without
image data, the first one, whose request cannot be built. -/
inductive Begins (v : View) (groupId : Nat) (mask : UInt16) : View → Prop where
  | whole (command : PPBCommand) (ms : Nat) :
    mask ≠ 0 → v.canStart mask → (command = .volumeCommand → v.imageReady = true) →
    Begins v groupId mask ((v.groupBegun groupId mask).membersLaunched
      { origin := .group groupId, command } ms (maskAddresses mask))
  | firstFails (message : String) {address : UInt16} {rest : List UInt16} :
    v.imageReady = false → v.canStart mask → maskAddresses mask = address :: rest →
    Begins v groupId mask
      (({ v with starting := rest.map (groupId, ·) ++ v.starting } : View).groupBegun groupId mask
        |>.flashed address { origin := .group groupId, command := .volumeCommand } true false
          message)

/-- What a completion may set off. -/
inductive StartMove (v : View) : View → Prop where
  | waitingGroup {front : PendingGroupCommand} {rest : List PendingGroupCommand} {v' : View} :
    v.waiting = front :: rest →
    Begins ({ v with waiting := rest } : View) front.groupId front.mask v' →
    StartMove v v'
  | memberFails (message : String) {groupId : Nat} {address : UInt16}
      {rest : List (Nat × UInt16)} :
    v.starting = (groupId, address) :: rest → v.state address ≠ .sendingCommand →
    StartMove v (({ v with starting := rest } : View).flashed address
      { origin := .group groupId, command := .volumeCommand } true false message)
  | memberSkipped {groupId : Nat} {address : UInt16} {rest : List (Nat × UInt16)} :
    v.starting = (groupId, address) :: rest → v.state address = .sendingCommand →
    StartMove v { v with starting := rest }

/-- Starting a group neither loads nor drops image data. -/
theorem Begins.imageReady_eq {v v' : View} {groupId : Nat} {mask : UInt16}
    (h : Begins v groupId mask v') : v'.imageReady = v.imageReady := by
  cases h <;> simp

theorem StartMove.imageReady_eq {v v' : View} (h : StartMove v v') :
    v'.imageReady = v.imageReady := by
  cases h with
  | waitingGroup _ hbegins => exact hbegins.imageReady_eq
  | memberFails => simp
  | memberSkipped => rfl

theorem Begins.waiting_eq {v v' : View} {groupId : Nat} {mask : UInt16}
    (h : Begins v groupId mask v') : v'.waiting = v.waiting := by
  cases h <;> simp

theorem Begins.nextGroupId_eq {v v' : View} {groupId : Nat} {mask : UInt16}
    (h : Begins v groupId mask v') : v'.nextGroupId = v.nextGroupId := by
  cases h <;> simp

/-- Waiting groups leave from the front only. -/
theorem StartMove.waiting_suffix {v v' : View} (h : StartMove v v') : v'.waiting <:+ v.waiting := by
  cases h with
  | waitingGroup hwaiting hbegins =>
    rw [hbegins.waiting_eq, hwaiting]
    exact List.suffix_cons _ _
  | memberFails => simp
  | memberSkipped => exact List.suffix_refl _

/-- Moves by what the environment may rule out: the two that drop requests, and the rest. -/
inductive MoveKind where
  | ordinary
  | clear
  | disconnect
  deriving DecidableEq

inductive Move (v : View) : MoveKind → View → Prop where
  | start {v' : View} : StartMove v v' → Move v .ordinary v'
  | enqueue (address : UInt16) (command : PPBCommand) :
    Move v .ordinary ({ v with
        nextTicket := v.nextTicket + 1
        queue := Function.update v.queue address
          (v.queue address ++ [(⟨.single v.nextTicket, command⟩ : Request)]) }.record
      [.accepted address (.single v.nextTicket) true])
  | launch {address : UInt16} {request : Request} {v' : View} (ms : Nat) :
    Takes v address request v' → v.state address ≠ .sendingCommand →
    Move v .ordinary (v'.launched address request false ms)
  | flash {address : UInt16} {request : Request} {v' : View} (success : Bool) (message : String) :
    Takes v address request v' → v.state address ≠ .sendingCommand →
    request.command.commandId = .volume →
    Move v .ordinary (v'.flashed address request false success message)
  | finish {address : UInt16} {c : PPBContext} {request : Request} (success : Bool)
      (message : String) (parsedSuccess : Bool) (parsedMessage : String)
      (parsedData : Option ParsedData) :
    v.context address = some c → c.operationCompleted = false → c.currentCommand = some request →
    Move v .ordinary (v.closed address (c.withResults parsedSuccess parsedMessage parsedData)
      request success message)
  | acceptGroup {mask : UInt16} {v' : View} : mask ≠ 0 →
    Begins ({ v with nextGroupId := v.nextGroupId + 1 }.record
      [.groupAccepted v.nextGroupId mask false]) v.nextGroupId mask v' →
    Move v .ordinary v'
  | queueGroup {group : PendingGroupCommand} : group.groupId = v.nextGroupId →
    Move v .ordinary ({ v with
        nextGroupId := v.nextGroupId + 1
        waiting := v.waiting ++ [group] }.record [.groupAccepted group.groupId group.mask true])
  | image (imageReady : Bool) : Move v .ordinary { v with imageReady }
  | fuReply (address : UInt16) (command : UInt8) (success : Bool) (message : String) :
    Move v .ordinary (v.record [.fuCommandCompleted address command success message])
  | clear (address : UInt16) :
    Move v .clear ({ v with queue := Function.update v.queue address [] }.record
      [.cleared address ((v.queue address).map Request.origin)])
  | disconnect :
    Move v .disconnect ({ v with
        queue := fun _ => [], waiting := [], groups := [], state := fun _ => .idle }.record
      [.disconnected])

/-- The dispatcher as a labelled system. -/
def View.machine : Machine.System View MoveKind where
  start v := v.state = (fun _ => .idle) ∧ v.context = (fun _ => none) ∧ v.queue = (fun _ => []) ∧
    v.groups = [] ∧ v.waiting = [] ∧ v.nextGroupId = 1 ∧ v.nextTicket = 0 ∧ ¬ v.busy ∧
    v.history = [] ∧ v.starting = []
  step v kind v' := Move v kind v'

/-- Which moves an event may consist of. -/
def Event.kind : Event → MoveKind
  | .disconnect => .disconnect
  | .clearCommandQueue _ => .clear
  | _ => .ordinary

end PPB
