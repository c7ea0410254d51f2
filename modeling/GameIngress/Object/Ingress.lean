import GameIngress.Object.Service

/-!
# Ingresses

Hosts and paths under which a service is reached from outside, and the secrets that hold the
certificates of the hosts.
-/
namespace GameIngress
open Json Object

structure BackendPort where
  name : Option String := none
  number : Option Int32 := none
  deriving DecidableEq, Inhabited

structure ServiceBackend where
  name : String
  port : Option BackendPort := none
  deriving DecidableEq, Inhabited

structure Backend where
  service : Option ServiceBackend := none
  resource : Option Json := none
  deriving Inhabited

structure IngressPath where
  path : Option String := none
  pathType : String
  backend : Backend
  deriving Inhabited

structure IngressRule where
  host : Option String := none
  /-- The paths under the host, if the rule lists any. -/
  http : Option (List IngressPath) := none
  deriving Inhabited

structure IngressTls where
  hosts : Option (List String) := none
  secretName : Option String := none
  deriving DecidableEq, Inhabited

structure IngressSpec where
  defaultBackend : Option Backend := none
  className : Option String := none
  rules : Option (List IngressRule) := none
  tls : Option (List IngressTls) := none
  deriving Inhabited

structure Ingress where
  metadata : ObjectMeta
  spec : Option IngressSpec := none
  status : Option Json := none
  deriving Inhabited

namespace BackendPort

def ofJson? (j : Json) : Option BackendPort := do
  let ms ← asMembers j
  let name ← ms.optional "name" asText
  let number ← ms.optional "number" asInt32
  some { name, number }

def toJson (p : BackendPort) : Json :=
  Object.written [("name", p.name.map .text), ("number", p.number.map ofInt32)] []

end BackendPort

namespace ServiceBackend

def ofJson? (j : Json) : Option ServiceBackend := do
  let ms ← asMembers j
  let name ← ms.orZero "name" "" asText
  let port ← ms.optional "port" BackendPort.ofJson?
  some { name, port }

def toJson (b : ServiceBackend) : Json :=
  Object.written [("name", some (.text b.name)), ("port", b.port.map BackendPort.toJson)] []

end ServiceBackend

namespace Backend

def resourceShape : Shape :=
  .record (Fields.ofList ["kind", "name"] [("apiGroup", .text), ("kind", .text), ("name", .text)])

def ofJson? (j : Json) : Option Backend := do
  let ms ← asMembers j
  let service ← ms.optional "service" ServiceBackend.ofJson?
  let resource ← ms.optional "resource" resourceShape.read
  some { service, resource }

def toJson (b : Backend) : Json :=
  Object.written [("resource", b.resource), ("service", b.service.map ServiceBackend.toJson)] []

end Backend

namespace IngressPath

def ofJson? (j : Json) : Option IngressPath := do
  let ms ← asMembers j
  let path ← ms.optional "path" asText
  let pathType ← ms.orZero "pathType" "" asText
  let backend ← ms.orZero "backend" {} Backend.ofJson?
  some { path, pathType, backend }

def toJson (p : IngressPath) : Json :=
  Object.written [
    ("backend", some p.backend.toJson),
    ("path", p.path.map .text),
    ("pathType", some (.text p.pathType))] []

end IngressPath

namespace IngressRule

def pathsOfJson? (j : Json) : Option (List IngressPath) := do
  let ms ← asMembers j
  ms.orZero "paths" [] (listOf IngressPath.ofJson?)

def ofJson? (j : Json) : Option IngressRule := do
  let ms ← asMembers j
  let host ← ms.optional "host" asText
  let http ← ms.optional "http" pathsOfJson?
  some { host, http }

def toJson (r : IngressRule) : Json :=
  Object.written [
    ("host", r.host.map .text),
    ("http", r.http.map fun ps => .object [("paths", .array (ps.map IngressPath.toJson))])] []

end IngressRule

namespace IngressTls

def ofJson? (j : Json) : Option IngressTls := do
  let ms ← asMembers j
  let hosts ← ms.optional "hosts" (listOf asText)
  let secretName ← ms.optional "secretName" asText
  some { hosts, secretName }

def toJson (t : IngressTls) : Json :=
  Object.written [
    ("hosts", t.hosts.map fun hs => .array (hs.map .text)),
    ("secretName", t.secretName.map .text)] []

end IngressTls

namespace IngressSpec

def ofJson? (j : Json) : Option IngressSpec := do
  let ms ← asMembers j
  let defaultBackend ← ms.optional "defaultBackend" Backend.ofJson?
  let className ← ms.optional "ingressClassName" asText
  let rules ← ms.optional "rules" (listOf IngressRule.ofJson?)
  let tls ← ms.optional "tls" (listOf IngressTls.ofJson?)
  some { defaultBackend, className, rules, tls }

def toJson (s : IngressSpec) : Json :=
  Object.written [
    ("defaultBackend", s.defaultBackend.map Backend.toJson),
    ("ingressClassName", s.className.map .text),
    ("rules", s.rules.map fun rs => .array (rs.map IngressRule.toJson)),
    ("tls", s.tls.map fun ts => .array (ts.map IngressTls.toJson))] []

end IngressSpec

namespace Ingress

def statusShape : Shape :=
  .record (Fields.ofList [] [
    ("loadBalancer", .record (Fields.ofList [] [
      ("ingress", .list (.record (Fields.ofList [] [
        ("hostname", .text), ("ip", .text), ("ports", .list Service.portStatusShape)])))]))])

def apiVersion : String := "networking.k8s.io/v1"

def ofJson? (j : Json) : Option Ingress := do
  let ms ← asMembers j
  Object.expects ms "apiVersion" apiVersion
  Object.expects ms "kind" "Ingress"
  let metadata ← ms.orZero "metadata" {} ObjectMeta.ofJson?
  let spec ← ms.optional "spec" IngressSpec.ofJson?
  let status ← ms.optional "status" statusShape.read
  some { metadata, spec, status }

def toJson (i : Ingress) : Json :=
  Object.written [
    ("apiVersion", some (.text apiVersion)),
    ("kind", some (.text "Ingress")),
    ("metadata", some i.metadata.toJson),
    ("spec", i.spec.map IngressSpec.toJson),
    ("status", i.status)] []

end Ingress
end GameIngress
