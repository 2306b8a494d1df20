import PPBProject.Events

/- The way of a signal from the engine to the controller, through `CommunicationFacade`.

   The facade connects the engine's signals to slots of its own, in its constructor or
   in `initialize`; each slot emits the signal of the same name with the arguments it was
   called with. The controller connects to the signals of `ICommunication`. But the
   facade declares `groupCommandCompleted` again, so that `emit` in its slot means
   another signal than the one the controller listens to, and it connects nothing to
   `fuCommandCompleted`. Neither ever reaches the controller.

   Of Qt this takes that an emission calls the slots connected to that very signal, once
   for each connection and in the order of the emissions (the facade lives in a thread of
   its own, so every connection of the controller is queued), and that a signal declared
   again in a derived class is another signal. -/
namespace PPB

/-- The signals of `communicationengine` and `ICommunication`, with their arguments. -/
inductive Signal where
  | stateChanged (address : UInt16) (state : PPBState)
  | connected
  | disconnected
  | commandCompleted (success : Bool) (message : String) (command : TechCommand)
  | errorOccurred (error : String)
  | commandDataParsed (address : UInt16) (data : ParsedData) (command : TechCommand)
  | sentPacketsSaved (packets : List DataPacket)
  | receivedPacketsSaved (packets : List DataPacket)
  | clearPacketDataRequested
  | statusReceived (address : UInt16) (mask : UInt32) (data : List Bytes)
  | commandProgress (current total : Int) (command : TechCommand)
  | busyChanged (busy : Bool)
  | groupCommandCompleted (groupId : Nat) (allSuccess : Bool) (summary : String)
  | fuCommandCompleted (address : UInt16) (command : UInt8) (success : Bool) (message : String)
  deriving DecidableEq

inductive SignalName where
  | stateChanged
  | connected
  | disconnected
  | commandCompleted
  | errorOccurred
  | commandDataParsed
  | sentPacketsSaved
  | receivedPacketsSaved
  | clearPacketDataRequested
  | statusReceived
  | commandProgress
  | busyChanged
  | groupCommandCompleted
  | fuCommandCompleted
  | initialized
  deriving DecidableEq

def Signal.name : Signal → SignalName
  | stateChanged .. => .stateChanged
  | connected => .connected
  | disconnected => .disconnected
  | commandCompleted .. => .commandCompleted
  | errorOccurred _ => .errorOccurred
  | commandDataParsed .. => .commandDataParsed
  | sentPacketsSaved _ => .sentPacketsSaved
  | receivedPacketsSaved _ => .receivedPacketsSaved
  | clearPacketDataRequested => .clearPacketDataRequested
  | statusReceived .. => .statusReceived
  | commandProgress .. => .commandProgress
  | busyChanged _ => .busyChanged
  | groupCommandCompleted .. => .groupCommandCompleted
  | fuCommandCompleted .. => .fuCommandCompleted

/-- The signal an entry of the engine's log is, if it is one. -/
def Output.signal? : Output → Option Signal
  | commandCompleted op success report => some (.commandCompleted success report op.command)
  | commandDataParsed op data => some (.commandDataParsed op.address data op.command)
  | statusReceived op mask data => some (.statusReceived op.address mask data)
  | groupCommandCompleted groupId allSuccess summary =>
    some (.groupCommandCompleted groupId allSuccess summary)
  | fuCommandCompleted address command success message =>
    some (.fuCommandCompleted address command success message)
  | stateChanged address state => some (.stateChanged address state)
  | busyChanged busy => some (.busyChanged busy)
  | errorOccurred error => some (.errorOccurred error)
  | disconnected => some .disconnected
  | sentPacketsSaved packets => some (.sentPacketsSaved packets)
  | accepted .. | cleared .. | groupAccepted .. | groupStarted .. | started .. | datagramSent .. =>
    none

/-- What the engine emits while it takes the events. -/
def Engine.signalsOf (s : Engine) (events : List Event) : List Signal :=
  match s.run events with
  | some s' => (s'.log.drop s.log.length).filterMap Output.signal?
  | none => []

/-! The facade. -/

/-- The class a signal is declared in, besides the engine. -/
inductive SignalClass where
  | iCommunication
  | communicationFacade
  deriving DecidableEq

/-- `&Class::name`. -/
structure SignalMember where
  owner : SignalClass
  name : SignalName
  deriving DecidableEq

namespace CommunicationFacade

/-- The `signals:` section of `CommunicationFacade`. -/
def declares : SignalName → Bool
  | .initialized | .groupCommandCompleted => true
  | _ => false

/-- What a signal's name means in a member of `CommunicationFacade`. -/
def member (name : SignalName) : SignalMember where
  owner := if declares name then .communicationFacade else .iCommunication
  name

/-- Which code has connected the engine. -/
inductive Wiring where
  | inConstructor
  | inInitialize
  deriving DecidableEq

/-- The engine's signals that are connected, in the order of the `connect` calls. The receiver of
each emits the signal of that name. -/
def Wiring.connections : Wiring → List SignalName
  | inConstructor =>
    [.stateChanged, .commandCompleted, .errorOccurred, .commandDataParsed, .sentPacketsSaved,
      .receivedPacketsSaved, .clearPacketDataRequested, .statusReceived, .commandProgress,
      .busyChanged, .groupCommandCompleted]
  | inInitialize =>
    [.stateChanged, .commandCompleted, .errorOccurred, .commandDataParsed, .sentPacketsSaved,
      .receivedPacketsSaved, .clearPacketDataRequested, .statusReceived, .commandProgress,
      .busyChanged, .groupCommandCompleted]

/-- What the facade emits when the engine emits `x`. -/
def emissions (wiring : Wiring) (x : Signal) : List (SignalMember × Signal) :=
  (wiring.connections.filter (· = x.name)).map fun name => (member name, x)

end CommunicationFacade

/-! The controller. -/

namespace PPBController

open CommunicationFacade

/-- The signals that `connectCommunicationSignals` connects. -/
def connections : List SignalMember :=
  [⟨.iCommunication, .stateChanged⟩, ⟨.iCommunication, .commandCompleted⟩,
    ⟨.iCommunication, .commandProgress⟩, ⟨.iCommunication, .statusReceived⟩,
    ⟨.iCommunication, .errorOccurred⟩, ⟨.iCommunication, .connected⟩,
    ⟨.iCommunication, .disconnected⟩, ⟨.iCommunication, .busyChanged⟩,
    ⟨.iCommunication, .sentPacketsSaved⟩, ⟨.iCommunication, .receivedPacketsSaved⟩,
    ⟨.iCommunication, .clearPacketDataRequested⟩, ⟨.iCommunication, .commandDataParsed⟩,
    ⟨.iCommunication, .groupCommandCompleted⟩, ⟨.iCommunication, .fuCommandCompleted⟩]

/-- The calls of the controller's slots when the engine emits the signals in order. -/
def deliveries (wiring : Wiring) (emitted : List Signal) : List Signal :=
  emitted.flatMap fun x => (emissions wiring x).flatMap fun emission =>
    (connections.filter (· = emission.1)).map fun _ => emission.2

/-- The names of the signals that get through. -/
def getsThrough : SignalName → Bool
  | .stateChanged | .commandCompleted | .errorOccurred | .commandDataParsed | .sentPacketsSaved
  | .receivedPacketsSaved | .clearPacketDataRequested | .statusReceived | .commandProgress
  | .busyChanged => true
  | .connected | .disconnected | .groupCommandCompleted | .fuCommandCompleted | .initialized =>
    false

theorem flatMap_connections (wiring : Wiring) (name : SignalName) :
    ((wiring.connections.filter (· = name)).flatMap fun relayed =>
      connections.filter (· = member relayed)) =
      if getsThrough name then [⟨.iCommunication, name⟩] else [] := by
  cases wiring <;> cases name <;> decide

/-- On either way of wiring, what gets through arrives once, unchanged and in order. -/
theorem deliveries_eq (wiring : Wiring) (emitted : List Signal) :
    deliveries wiring emitted = emitted.filter fun x => getsThrough x.name := by
  induction emitted with
  | nil => rfl
  | cons x rest ih =>
    -- one emission has at most one slot at its end
    have hone : ((emissions wiring x).flatMap fun emission =>
        (connections.filter (· = emission.1)).map fun _ => emission.2) =
        if getsThrough x.name then [x] else [] := by
      have hslots := congrArg (List.map fun _ => x) (flatMap_connections wiring x.name)
      rw [List.map_flatMap] at hslots
      rw [emissions, List.flatMap_map, hslots]
      split <;> rfl
    rw [deliveries, List.flatMap_cons, hone, List.filter_cons, ← ih]
    split <;> rfl

/-- `success` of the first `groupCommandCompleted` with this id that a slot is called with. -/
def awaited (groupId : Nat) : Signal → Option Bool
  | .groupCommandCompleted id success _ => if id = groupId then some success else none
  | _ => none

/-- `executeGroupAndWait` of `updateFirmware`, when the engine takes `events` before the time-out.
Its slot is connected like the controller's own. -/
def executeGroupAndWait (wiring : Wiring) (s : Engine) (command : TechCommand) (targetMask : UInt16)
    (events : List Event) : Bool :=
  let groupId := (s.executeGroupCommand command targetMask []).2
  let emitted := s.signalsOf (.executeGroupCommand command targetMask [] :: events)
  if groupId = 0 then false
  else match (deliveries wiring emitted).findSome? (awaited groupId) with
    | some allSuccess => allSuccess
    | none => false

/-- The signals whose delivery matters here, and that set the order. -/
def isTracked : SignalName → Bool
  | .groupCommandCompleted | .fuCommandCompleted | .commandCompleted | .commandDataParsed => true
  | _ => false

/-- The facade relays faithfully what the engine emits in this run: the tracked signals are
delivered once each, unchanged and in order, and if the run is the execution of a group by
`updateFirmware`, a success of the group is noticed. -/
def Relayed (wiring : Wiring) (s : Engine) (events : List Event) : Prop :=
  (deliveries wiring (s.signalsOf events)).filter (fun x => isTracked x.name) =
      (s.signalsOf events).filter (fun x => isTracked x.name) ∧
    ∀ command targetMask rest, events = .executeGroupCommand command targetMask [] :: rest →
      (∃ summary, .groupCommandCompleted (s.executeGroupCommand command targetMask []).2 true
        summary ∈ s.signalsOf events) →
      executeGroupAndWait wiring s command targetMask rest = true

/-- No completion of a group is ever delivered. -/
theorem executeGroupAndWait_eq_false (wiring : Wiring) (s : Engine) (command : TechCommand)
    (targetMask : UInt16) (events : List Event) :
    executeGroupAndWait wiring s command targetMask events = false := by
  have hnone (groupId : Nat) (emitted : List Signal) :
      (deliveries wiring emitted).findSome? (awaited groupId) = none := by
    rw [deliveries_eq, List.findSome?_eq_none_iff]
    intro x hx
    have hthrough := (List.mem_filter.mp hx).2
    cases x with
    | groupCommandCompleted => cases hthrough
    | _ => rfl
  simp only [executeGroupAndWait, hnone, ite_self]

/-- Two of the tracked signals do not get through. -/
theorem getsThrough_of_isTracked_iff (name : SignalName) :
    (isTracked name = true → getsThrough name = true) ↔
      name ≠ .groupCommandCompleted ∧ name ≠ .fuCommandCompleted := by
  cases name <;> simp [isTracked, getsThrough]

theorem deliveries_tracked_iff (wiring : Wiring) (emitted : List Signal) :
    (deliveries wiring emitted).filter (fun x => isTracked x.name) =
        emitted.filter (fun x => isTracked x.name) ↔
      ∀ x ∈ emitted, x.name ≠ .groupCommandCompleted ∧ x.name ≠ .fuCommandCompleted := by
  rw [deliveries_eq, List.filter_comm, List.filter_eq_self]
  refine forall_congr' fun x => ?_
  rw [List.mem_filter, and_imp]
  exact imp_congr_right fun _ => getsThrough_of_isTracked_iff x.name

/-- **The relay is faithful only where it has nothing to relay.** On either way of wiring, a run is
relayed faithfully exactly if the engine reports neither a group nor an FU reply in it. -/
theorem relayed_iff (wiring : Wiring) (s : Engine) (events : List Event) :
    Relayed wiring s events ↔ ∀ x ∈ s.signalsOf events,
      x.name ≠ .groupCommandCompleted ∧ x.name ≠ .fuCommandCompleted := by
  rw [Relayed, deliveries_tracked_iff]
  refine and_iff_left_of_imp fun hnone command targetMask rest _ hcompleted => ?_
  obtain ⟨summary, hmem⟩ := hcompleted
  exact absurd rfl (hnone _ hmem).1

/-- A group of one is executed, and its member answers. -/
def groupRun : List Event := [.executeGroupCommand .vers 1 [], .datagram [0, 1, 0, 0x34, 0x12]]

/-- The engine completes the group with success; `updateFirmware` sees a time-out. -/
theorem not_relayed : ¬ ∀ wiring s events, Reachable AnyStep s → Relayed wiring s events := by
  intro hall
  have hrelayed := (hall .inInitialize (Engine.init none {}) groupRun (.start ⟨none, {}, rfl⟩)).2
    .vers 1 _ rfl ⟨"", by decide⟩
  rw [executeGroupAndWait_eq_false] at hrelayed
  cases hrelayed

end PPBController

end PPB
