import GameIngress.Object.Meta

/-!
# Services

A stable network name in front of the pod of a game server.
-/
namespace GameIngress
open Json Object

/-- A port given by its number or by its name. -/
inductive PortRef where
  | number (n : Int32)
  | name (s : String)
  deriving DecidableEq, Inhabited

structure ServicePort where
  name : Option String := none
  port : Int32
  targetPort : Option PortRef := none
  other : Json.Members := []
  deriving Inhabited

structure ServiceSpec where
  clusterIp : Option String := none
  ports : Option (List ServicePort) := none
  selector : Option TextMap := none
  other : Json.Members := []
  deriving Inhabited

structure Service where
  metadata : ObjectMeta
  spec : Option ServiceSpec := none
  status : Option Json := none
  deriving Inhabited

namespace PortRef

def ofJson? : Json → Option PortRef
  | .text s => some (.name s)
  | j => (asInt32 j).map .number

def toJson : PortRef → Json
  | .number n => ofInt32 n
  | .name s => .text s

end PortRef

/-- The value of a member that names the kind of an object must be as expected, if it is there. -/
def Object.expects (ms : Json.Members) (key value : String) : Option Unit :=
  match ms.get? key with
  | none => some ()
  | some (.text s) => if s = value then some () else none
  | some _ => none

/-- Members of `written` that have a value, followed by those carried along. -/
def Object.written (ms : List (String × Option Json)) (other : Json.Members) : Json :=
  .object (ms.filterMap (fun (k, v) => v.map (k, ·)) ++ other)

namespace ServicePort

def otherFields : Fields :=
  Fields.ofList [] [("appProtocol", .text), ("nodePort", .int 32), ("protocol", .text)]

def ofJson? (j : Json) : Option ServicePort := do
  let ms ← asMembers j
  let name ← ms.optional "name" asText
  let port ← ms.orZero "port" 0 asInt32
  let targetPort ← ms.optional "targetPort" PortRef.ofJson?
  let other ← otherFields.read ms
  some { name, port, targetPort, other }

def toJson (p : ServicePort) : Json :=
  Object.written [
    ("name", p.name.map .text),
    ("port", some (ofInt32 p.port)),
    ("targetPort", p.targetPort.map PortRef.toJson)] p.other

end ServicePort

namespace ServiceSpec

def otherFields : Fields :=
  Fields.ofList [] [
    ("allocateLoadBalancerNodePorts", .boolean), ("clusterIPs", .list .text),
    ("externalIPs", .list .text), ("externalName", .text), ("externalTrafficPolicy", .text),
    ("healthCheckNodePort", .int 32), ("internalTrafficPolicy", .text),
    ("ipFamilies", .list .text), ("ipFamilyPolicy", .text), ("loadBalancerClass", .text),
    ("loadBalancerIP", .text), ("loadBalancerSourceRanges", .list .text),
    ("publishNotReadyAddresses", .boolean), ("sessionAffinity", .text),
    ("sessionAffinityConfig", .record (Fields.ofList [] [
      ("clientIP", .record (Fields.ofList [] [("timeoutSeconds", .int 32)]))])),
    ("trafficDistribution", .text), ("type", .text)]

def ofJson? (j : Json) : Option ServiceSpec := do
  let ms ← asMembers j
  let clusterIp ← ms.optional "clusterIP" asText
  let ports ← ms.optional "ports" (listOf ServicePort.ofJson?)
  let selector ← ms.optional "selector" asTextMap
  let other ← otherFields.read ms
  some { clusterIp, ports, selector, other }

def toJson (s : ServiceSpec) : Json :=
  Object.written [
    ("clusterIP", s.clusterIp.map .text),
    ("ports", s.ports.map fun ps => .array (ps.map ServicePort.toJson)),
    ("selector", s.selector.map ofTextMap)] s.other

end ServiceSpec

namespace Service

def portStatusShape : Shape :=
  .record (Fields.ofList ["port", "protocol"] [
    ("error", .text), ("port", .int 32), ("protocol", .text)])

def conditionShape : Shape :=
  .record (Fields.ofList ["lastTransitionTime", "message", "reason", "status", "type"] [
    ("lastTransitionTime", .timestamp), ("message", .text), ("observedGeneration", .int 64),
    ("reason", .text), ("status", .text), ("type", .text)])

def statusShape : Shape :=
  .record (Fields.ofList [] [
    ("conditions", .list conditionShape),
    ("loadBalancer", .record (Fields.ofList [] [
      ("ingress", .list (.record (Fields.ofList [] [
        ("hostname", .text), ("ip", .text), ("ipMode", .text),
        ("ports", .list portStatusShape)])))]))])

def ofJson? (j : Json) : Option Service := do
  let ms ← asMembers j
  Object.expects ms "apiVersion" "v1"
  Object.expects ms "kind" "Service"
  let metadata ← ms.orZero "metadata" {} ObjectMeta.ofJson?
  let spec ← ms.optional "spec" ServiceSpec.ofJson?
  let status ← ms.optional "status" statusShape.read
  some { metadata, spec, status }

def toJson (s : Service) : Json :=
  Object.written [
    ("apiVersion", some (.text "v1")),
    ("kind", some (.text "Service")),
    ("metadata", some s.metadata.toJson),
    ("spec", s.spec.map ServiceSpec.toJson),
    ("status", s.status)] []

end Service
end GameIngress
