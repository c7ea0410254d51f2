import GameIngress.GameServer.Basic

/-!
# Game servers in JSON

Records may be given by named members or by position. Port lists are left out when empty, absent
options are left out, and every state name that is not known reads as the unknown state.
-/
namespace GameIngress
open Json

namespace LifecycleState

/-- A state is a name, or an object with the name as its only key and null as its value. -/
def ofJson? : Json → Option LifecycleState
  | .text s => some (ofName s)
  | .object [(s, .null)] => some (ofName s)
  | _ => none

def toJson (s : LifecycleState) : Json := .text s.name

end LifecycleState

/-- Members of a record given by name, or by position in the order of `names`. -/
def Json.fieldsOf (names : List String) : Json → Option Json.Members
  | .object ms => some ms
  | .array xs => if xs.length ≤ names.length then some (names.zip xs) else none
  | _ => none

/-- All the members of `names` must be there when a record is given by position. -/
def Json.positionalAll (names : List String) : Json → Bool
  | .array xs => xs.length = names.length
  | _ => true

namespace ContainerPort

def ofJson? (j : Json) : Option ContainerPort := do
  let ms ← fieldsOf ["name", "containerPort", "hostPort", "protocol"] j
  let name ← ms.orDefault "name" "" asText
  let containerPort ← ms.orDefault "containerPort" 0 asInt32
  let hostPort ← ms.optional "hostPort" asInt32
  let protocol ← ms.optional "protocol" asText
  some { name, containerPort, hostPort, protocol }

def toJson (p : ContainerPort) : Json :=
  Json.ofOptions [
    ("name", some (.text p.name)),
    ("containerPort", some (ofInt32 p.containerPort)),
    ("hostPort", p.hostPort.map ofInt32),
    ("protocol", p.protocol.map .text)]

end ContainerPort

namespace AllocatedPort

def ofJson? (j : Json) : Option AllocatedPort := do
  let ms ← fieldsOf ["name", "port"] j
  let name ← ms.orDefault "name" "" asText
  let port ← ms.orDefault "port" 0 asInt32
  some { name, port }

def toJson (p : AllocatedPort) : Json :=
  .object [("name", .text p.name), ("port", ofInt32 p.port)]

end AllocatedPort

/-- A list member that is left out when empty. -/
def Json.nonEmptyList {α : Type} (item : α → Json) (xs : List α) : Option Json :=
  if xs.isEmpty then none else some (.array (xs.map item))

namespace GameServerStatus

def ofJson? (j : Json) : Option GameServerStatus := do
  let ms ← fieldsOf ["state", "ports", "address", "nodeName"] j
  let state ← ms.orDefault "state" .unknown LifecycleState.ofJson?
  let ports ← ms.orDefault "ports" [] (listOf AllocatedPort.ofJson?)
  let address ← ms.optional "address" asText
  let nodeName ← ms.optional "nodeName" asText
  some { state, ports, address, nodeName }

def toJson (s : GameServerStatus) : Json :=
  Json.ofOptions [
    ("state", some s.state.toJson),
    ("ports", nonEmptyList AllocatedPort.toJson s.ports),
    ("address", s.address.map .text),
    ("nodeName", s.nodeName.map .text)]

end GameServerStatus

namespace GameServer

def portsOfSpec? (j : Json) : Option (List ContainerPort) := do
  let ms ← fieldsOf ["ports"] j
  ms.orDefault "ports" [] (listOf ContainerPort.ofJson?)

def ofJson? (j : Json) : Option GameServer := do
  let ms ← fieldsOf ["metadata", "spec", "status"] j
  if !positionalAll ["metadata", "spec", "status"] j then none
  let metadata ← (ms.get? "metadata").bind ObjectMeta.ofJson?
  let ports ← (ms.get? "spec").bind portsOfSpec?
  let status ← ms.optional "status" GameServerStatus.ofJson?
  some { metadata, ports, status }

def toJson (gs : GameServer) : Json :=
  Json.ofOptions [
    ("apiVersion", some (.text apiVersion)),
    ("kind", some (.text kind)),
    ("metadata", some gs.metadata.toJson),
    ("spec", some (Json.ofOptions [("ports", nonEmptyList ContainerPort.toJson gs.ports)])),
    ("status", gs.status.map GameServerStatus.toJson)]

end GameServer
end GameIngress
