import GameIngress.Object.Meta

/-!
# Game servers

A dedicated game server as the fleet manager publishes it: the ports its container declares, its
lifecycle state and the ports that were allocated to it.
-/
namespace GameIngress

inductive LifecycleState where
  | portAllocation
  | creating
  | starting
  | scheduled
  | requestReady
  | ready
  | shutdown
  | error
  | unhealthy
  | reserved
  | allocated
  | unknown
  deriving DecidableEq, Inhabited, Repr

/-- A port that the container declares. -/
structure ContainerPort where
  name : String := ""
  containerPort : Int32 := 0
  hostPort : Option Int32 := none
  protocol : Option String := none
  deriving DecidableEq, Inhabited

/-- A port that was allocated to the running server. -/
structure AllocatedPort where
  name : String := ""
  port : Int32 := 0
  deriving DecidableEq, Inhabited

structure GameServerStatus where
  state : LifecycleState := .unknown
  ports : List AllocatedPort := []
  address : Option String := none
  nodeName : Option String := none
  deriving DecidableEq, Inhabited

structure GameServer where
  metadata : ObjectMeta
  ports : List ContainerPort := []
  status : Option GameServerStatus := none
  deriving Inhabited

namespace LifecycleState

def name : LifecycleState → String
  | portAllocation => "PortAllocation"
  | creating => "Creating"
  | starting => "Starting"
  | scheduled => "Scheduled"
  | requestReady => "RequestReady"
  | ready => "Ready"
  | shutdown => "Shutdown"
  | error => "Error"
  | unhealthy => "Unhealthy"
  | reserved => "Reserved"
  | allocated => "Allocated"
  | unknown => "Unknown"

def all : List LifecycleState :=
  [portAllocation, creating, starting, scheduled, requestReady, ready, shutdown, error, unhealthy,
    reserved, allocated, unknown]

/-- The state of the given name; any other name is of no known state. -/
def ofName (s : String) : LifecycleState := (all.find? (·.name = s)).getD unknown

theorem ofName_name (s : LifecycleState) : ofName s.name = s := by
  cases s <;> decide

end LifecycleState

namespace GameServer

def apiVersion : String := "agones.dev/v1"
def kind : String := "GameServer"

def name (gs : GameServer) : String := gs.metadata.anyName
def ns (gs : GameServer) : String := gs.metadata.nsOrEmpty

/-- Namespace and name, joined by a slash. -/
def key (gs : GameServer) : String := gs.metadata.key

/-- The lifecycle state, unknown until a status is published. -/
def state (gs : GameServer) : LifecycleState := (gs.status.map (·.state)).getD .unknown

/-- The first allocated port, 0 until one is published. -/
def port (gs : GameServer) : Int32 :=
  ((gs.status.bind (·.ports.head?)).map (·.port)).getD 0

/-- The first declared port, 0 if there is none. -/
def containerPort (gs : GameServer) : Int32 := (gs.ports.head?.map (·.containerPort)).getD 0

def annotationValue? (gs : GameServer) (key : String) : Option String :=
  gs.metadata.annotationValue? key

end GameServer
end GameIngress
