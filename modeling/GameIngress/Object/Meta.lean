import GameIngress.Object.Shape

/-!
# Object metadata

Name, namespace, version, labels, annotations and owners of a cluster object. Members that the
controller neither reads nor sets are carried along in normal form.
-/
namespace GameIngress
open Json Object

structure OwnerReference where
  apiVersion : String
  kind : String
  name : String
  uid : String
  controller : Option Bool := none
  blockOwnerDeletion : Option Bool := none
  deriving DecidableEq, Inhabited

structure ObjectMeta where
  name : Option String := none
  generateName : Option String := none
  ns : Option String := none
  uid : Option String := none
  resourceVersion : Option String := none
  labels : Option TextMap := none
  annotations : Option TextMap := none
  ownerReferences : Option (List OwnerReference) := none
  other : Json.Members := []
  deriving Inhabited

namespace OwnerReference

def ofJson? (j : Json) : Option OwnerReference := do
  let ms ← asMembers j
  let apiVersion ← ms.orZero "apiVersion" "" asText
  let kind ← ms.orZero "kind" "" asText
  let name ← ms.orZero "name" "" asText
  let uid ← ms.orZero "uid" "" asText
  let controller ← ms.optional "controller" asBool
  let blockOwnerDeletion ← ms.optional "blockOwnerDeletion" asBool
  some { apiVersion, kind, name, uid, controller, blockOwnerDeletion }

def toJson (r : OwnerReference) : Json :=
  Json.ofOptions [
    ("apiVersion", some (.text r.apiVersion)),
    ("blockOwnerDeletion", r.blockOwnerDeletion.map .bool),
    ("controller", r.controller.map .bool),
    ("kind", some (.text r.kind)),
    ("name", some (.text r.name)),
    ("uid", some (.text r.uid))]

end OwnerReference

namespace ObjectMeta

def managedFieldsShape : Shape :=
  .record (Fields.ofList [] [
    ("apiVersion", .text), ("fieldsType", .text), ("fieldsV1", .anything), ("manager", .text),
    ("operation", .text), ("subresource", .text), ("time", .timestamp)])

def otherFields : Fields :=
  Fields.ofList [] [
    ("creationTimestamp", .timestamp), ("deletionGracePeriodSeconds", .int 64),
    ("deletionTimestamp", .timestamp), ("finalizers", .list .text), ("generation", .int 64),
    ("managedFields", .list managedFieldsShape), ("selfLink", .text)]

def ofJson? (j : Json) : Option ObjectMeta := do
  let ms ← asMembers j
  let name ← ms.optional "name" asText
  let generateName ← ms.optional "generateName" asText
  let ns ← ms.optional "namespace" asText
  let uid ← ms.optional "uid" asText
  let resourceVersion ← ms.optional "resourceVersion" asText
  let labels ← ms.optional "labels" asTextMap
  let annotations ← ms.optional "annotations" asTextMap
  let ownerReferences ← ms.optional "ownerReferences" (listOf OwnerReference.ofJson?)
  let other ← otherFields.read ms
  some { name, generateName, ns, uid, resourceVersion, labels, annotations, ownerReferences, other }

def toJson (m : ObjectMeta) : Json :=
  match Json.ofOptions [
    ("annotations", m.annotations.map ofTextMap),
    ("generateName", m.generateName.map .text),
    ("labels", m.labels.map ofTextMap),
    ("name", m.name.map .text),
    ("namespace", m.ns.map .text),
    ("ownerReferences", m.ownerReferences.map fun rs => .array (rs.map OwnerReference.toJson)),
    ("resourceVersion", m.resourceVersion.map .text),
    ("uid", m.uid.map .text)] with
  | .object ms => .object (ms ++ m.other)
  | j => j

/-- The name, or what a name is generated from. -/
def anyName (m : ObjectMeta) : String := (m.name <|> m.generateName).getD ""

/-- The namespace, empty when there is none. -/
def nsOrEmpty (m : ObjectMeta) : String := m.ns.getD ""

/-- The namespace in which an object without one is stored. -/
def nsOrDefault (m : ObjectMeta) : String := m.ns.getD "default"

/-- Namespace and name, joined by a slash. -/
def key (m : ObjectMeta) : String := m.nsOrEmpty ++ "/" ++ m.anyName

def annotationValue? (m : ObjectMeta) (key : String) : Option String :=
  m.annotations.bind (·.get? key)

/-- The annotations, of which there may be none. -/
def annotationMap (m : ObjectMeta) : TextMap := m.annotations.getD .empty

theorem annotationValue?_eq (m : ObjectMeta) (k : String) :
    m.annotationValue? k = m.annotationMap.get? k := by
  unfold annotationValue? annotationMap
  cases m.annotations <;> rfl

/-- Set one annotation. -/
def annotate (m : ObjectMeta) (key value : String) : ObjectMeta :=
  { m with annotations := some (m.annotationMap.insert key value) }

end ObjectMeta
end GameIngress
