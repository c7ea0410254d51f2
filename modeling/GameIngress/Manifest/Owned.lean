import GameIngress.Routing

/-!
# Objects owned by a game server

What every object built for a game server carries: its name and namespace, the labels that the
caches select by, and an owner reference that ties its life to the game server.
-/
namespace GameIngress

namespace GameServer

/-- Labels of the pod that runs the game server. -/
def selectorLabels (gs : GameServer) : TextMap := .ofList [(Label.gameServer, gs.name)]

/-- Labels of the objects built for the game server. -/
def standardLabels (gs : GameServer) : TextMap :=
  gs.selectorLabels.insert Label.managedBy "gameserver-ingress-controller"

def ownerReference (gs : GameServer) : OwnerReference where
  apiVersion := apiVersion
  kind := kind
  name := gs.name
  uid := gs.metadata.uid.getD ""
  controller := some true
  blockOwnerDeletion := some true

end GameServer

/-- Metadata of an object built for a game server, before any annotation. -/
def Manifest.ownedMeta (gs : GameServer) : ObjectMeta where
  name := some gs.name
  ns := gs.metadata.ns
  labels := some gs.standardLabels
  annotations := some .empty
  ownerReferences := some [gs.ownerReference]

end GameIngress
