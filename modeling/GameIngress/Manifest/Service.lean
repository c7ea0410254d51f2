import GameIngress.Manifest.Custom
import GameIngress.Manifest.Owned
import GameIngress.Object.Service

/-!
# The Service of a game server

A Service without an address of its own, which forwards the allocated port to the container.
-/
namespace GameIngress.Manifest

def servicePortName : String := "gameserver"

def bareService (gs : GameServer) : Service where
  metadata := ownedMeta gs
  spec := some {
    clusterIp := some "None"
    selector := some gs.selectorLabels
    ports := some [{
      name := some servicePortName
      port := gs.port
      targetPort := some (.number gs.containerPort) }] }

inductive ServiceStep where
  | literals
  | templates
  deriving DecidableEq, Repr

def serviceSteps : List ServiceStep := [.literals, .templates]

def ServiceStep.apply (gs : GameServer) (step : ServiceStep) (s : Service) : Stepped Service :=
  let (m, e) := onAnnotations
    (match step with
      | .literals => literalStep gs Annotations.serviceCustom
      | .templates => templateStep gs Annotations.serviceCustom) s.metadata
  ({ s with metadata := m }, e)

/-- The Service that a game server asks for. -/
def buildService (gs : GameServer) : Except ValidationError Service :=
  build (ServiceStep.apply gs) serviceSteps (bareService gs)

end GameIngress.Manifest
