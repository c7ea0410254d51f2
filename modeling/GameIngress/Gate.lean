import GameIngress.Failure

/-!
# The gate and the readiness marker

A game server is left alone unless it asks for routing and is in a state that is exposed. The
marker annotation says that its Service and Ingress are in place.
-/
namespace GameIngress

/-- Why a notification is dropped. -/
inductive SkipReason where
  | noRoutingMode
  | shutdown
  | notReady (state : LifecycleState)
  deriving DecidableEq, Repr

namespace SkipReason

def label : SkipReason → String
  | noRoutingMode => "no_routing_mode"
  | shutdown => "shutdown"
  | notReady _ => "not_ready"

def message : SkipReason → String
  | noRoutingMode => "annotation " ++ Annotations.ingressMode ++ " not present"
  | shutdown => "gameserver is shutting down"
  | notReady state => "gameserver state " ++ state.name ++ " is not reconcilable"

end SkipReason

/-- What to do about the marker. -/
inductive Readiness where
  | pending
  | ready
  /-- The marker is no truth value. It is overwritten and reported. -/
  | malformed (error : ValidationError)
  deriving DecidableEq, Repr

namespace GameServer

def skipReason? (gs : GameServer) : Option SkipReason :=
  if (gs.annotationValue? Annotations.ingressMode).isNone then some .noRoutingMode
  else if gs.isShutdown then some .shutdown
  else if !gs.isExposable then some (.notReady gs.state)
  else none

def readiness (gs : GameServer) : Readiness :=
  match gs.annotationValue? Annotations.ingressReady with
  | none => .pending
  | some marker =>
    if marker = "" then .pending
    else match readBool marker with
      | some true => .ready
      | some false => .pending
      | none => .malformed (.invalidBool Annotations.ingressReady gs.name)

def isMarkedReady (gs : GameServer) : Bool := gs.readiness = .ready

/-- The game server with its marker set. -/
def markReady (gs : GameServer) : GameServer :=
  { gs with metadata := gs.metadata.annotate Annotations.ingressReady "true" }

end GameServer
end GameIngress
