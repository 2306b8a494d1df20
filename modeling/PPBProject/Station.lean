import PPBProject.Controller

/- The controller and a communication object with its engine, each in a thread of its own.

   A call of the controller is posted to the thread of the communication object, where the
   calls are taken in their order; a signal of the engine comes back through the facade, in
   the order of the emissions. The image data of a VOLUME is a static member, which the
   controller sets directly.

   A group call blocks the controller until it has been taken. Here it is posted like the
   others, which allows more runs: the id it returns comes with a later event anyway. -/
namespace PPB

/-- The communication object of the station. The controller may also be given others. -/
def ownCommunication : CommunicationId := 0

structure Station where
  controller : PPBController
  engine : Engine
  calls : List Event := []
  relayed : Nat := 0

inductive StationEvent where
  | controller (e : ControllerEvent)
  | taken
  | engine (e : Event)
  | relayed
  | dropped

/-- A call on the communication object of the station. -/
def Entry.ownCall? : Entry → Option Event
  | .call communication e => if communication = ownCommunication then some e else none
  | _ => none

/-- What an entry of the controller's log does to the image data. -/
def Entry.setImage (s : Engine) : Entry → Engine
  | .setCurrentVolumeData payload marker totalSize data =>
    s.handle (.setCurrentVolumeData payload marker totalSize data)
  | _ => s

namespace Station

open CommunicationFacade

/-- What the controller has logged since it was `c`. -/
def news (c c' : PPBController) : List Entry := c'.log.drop c.log.length

/-- The controller has moved on: its calls are posted, its image data is set. -/
def follow (s : Station) (c : PPBController) : Station :=
  { s with
    controller := c
    engine := (news s.controller c).foldl Entry.setImage s.engine
    calls := s.calls ++ (news s.controller c).filterMap Entry.ownCall? }

/-- What reaches the controller's slots when the engine has logged `o`. -/
def arriving (wiring : Wiring) (o : Output) : List Signal :=
  PPBController.deliveries wiring o.signal?.toList

/-- The next entry of the engine's log. -/
def next? (s : Station) : Option Output := s.engine.log[s.relayed]?

def step (codeToVSWR : Nat → UInt16 → FloatBits) (wiring : Wiring) (s : Station) :
    StationEvent → Option Station
  | .controller e => (s.controller.handle codeToVSWR e).map s.follow
  | .taken =>
    match s.calls with
    | [] => none
    | call :: rest =>
      if s.engine.enabled call then some { s with engine := s.engine.handle call, calls := rest }
      else none
  | .engine e => if s.engine.enabled e then some { s with engine := s.engine.handle e } else none
  | .relayed =>
    match s.next? with
    | none => none
    | some o =>
      let slots := (arriving wiring o).map ControllerEvent.delivered
      (s.controller.run codeToVSWR slots).map fun c =>
        { s.follow c with relayed := s.relayed + 1 }
  | .dropped =>
    -- a signal that is still under way when the controller is given another object may be lost
    if s.next?.isSome ∧ s.controller.communication ≠ some ownCommunication then
      some { s with relayed := s.relayed + 1 }
    else none

end Station

end PPB
